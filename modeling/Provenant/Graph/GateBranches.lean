import Provenant.Graph.FlatOrder

/-!
# The branches of a gate

A gate, or a loop with a target for its failure, has two outcomes. Its failure target and the rounds
of that target wait for its failure, and all its other children for its success. As dependencies are
conjunctive, a node that follows both branches could never run. Validation refuses exactly such
nodes.

## Main definitions

* `FlatPlan.WaitsOn` — a node follows a branch of a gate.

## Main results

* `FlatPlan.checkGates_iff` — the check of all gates passes exactly if no node follows both branches.
* `FlatPlan.gates_exclusive` — which documents validation refuses for their branches.
* `FlatPlan.loop_branches` — branches are those of gates and loops, and only what depends on the gate
  is part of them.
-/

namespace Provenant.FlatPlan

open Json Fallible Provenant.Graph Relation List

/-! ### Branches -/

/-- A node follows a branch of a gate: it is reached by declared dependencies from a child of the
gate on that branch. The branch of the success is `true`. -/
def WaitsOn (nodes : List Node) (gate : Node) (target : Text) (outcome : Bool) (id : Text) : Prop :=
  ∃ child ∈ nodes, gate.id ∈ child.dependsOn ∧ outcome = !child.recovers target ∧
    ReflTransGen (Declares nodes) child.id id

/-- `WaitsOn` for planned nodes. -/
def FollowsPlanned (nodes : List Planned) (gate : Planned) (target : Text) (outcome : Bool)
    (id : Text) : Prop :=
  ∃ child ∈ nodes, gate.id ∈ child.dependsOn ∧ outcome = !child.node.recovers target ∧
    ReflTransGen (fun parent child => ∃ node ∈ nodes, node.id = child ∧ parent ∈ node.dependsOn)
      child.id id

variable {target : Text}

section Positions

variable {nodes : List Planned}

variable {i j gate : Nat}

section Closed

variable (closed : Closed nodes)
include closed

lemma Closed.mem_dependants {index c : Nat} :
    c ∈ dependants nodes index ↔ ∃ child parent, nodes[c]? = some child ∧
      nodes[index]? = some parent ∧ parent.id ∈ child.dependsOn := by
  unfold dependants
  rw [Topological.children_eq closed.wellFormed.nodup, mem_filter, mem_filter, mem_range]
  constructor
  · rintro ⟨⟨less, -⟩, declared⟩
    obtain ⟨child, here⟩ := exists_getElem? less
    rw [here, Option.any_some] at declared
    cases there : nodes[index]? with
    | none =>
      rw [there] at declared
      cases declared
    | some parent =>
      rw [there, Option.any_some] at declared
      exact ⟨child, parent, here, rfl, contains_iff_mem.1 declared⟩
  · rintro ⟨child, parent, here, there, named⟩
    have less := (List.getElem?_eq_some_iff.1 here).1
    have edge : index ∈ parentsAt nodes c := (closed.mem_parentsAt here).2
      ⟨parent, there, mem_append_left _ named⟩
    refine ⟨⟨less, by simpa using edge⟩, ?_⟩
    rw [here, there]
    simpa using named

/-- A path between positions is a path between their identifiers. -/
lemma Closed.declared_of_path {first : Planned} (here : nodes[i]? = some first)
    (path : ReflTransGen (fun a b => b ∈ dependants nodes a) i j) :
    ∃ last, nodes[j]? = some last ∧
      ReflTransGen (fun parent child => ∃ node ∈ nodes, node.id = child ∧ parent ∈ node.dependsOn)
        first.id last.id := by
  induction path with
  | refl => exact ⟨first, here, .refl⟩
  | tail _ edge ih =>
    obtain ⟨_, between, path⟩ := ih
    obtain ⟨last, _, there, at_, named⟩ := closed.mem_dependants.1 edge
    rw [between] at at_
    cases at_
    exact ⟨last, there, path.tail ⟨last, mem_of_getElem? there, rfl, named⟩⟩

/-- A path between identifiers is a path between their positions. -/
lemma Closed.path_of_declared {first : Planned} (here : nodes[i]? = some first) {id : Text}
    (path : ReflTransGen (fun parent child => ∃ node ∈ nodes, node.id = child ∧
      parent ∈ node.dependsOn) first.id id) :
    ∃ j last, nodes[j]? = some last ∧ last.id = id ∧
      ReflTransGen (fun a b => b ∈ dependants nodes a) i j := by
  induction path with
  | refl => exact ⟨i, first, here, rfl, .refl⟩
  | tail _ edge ih =>
    obtain ⟨m, middle, between, rfl, path⟩ := ih
    obtain ⟨last, mem, rfl, named⟩ := edge
    obtain ⟨j, there⟩ := mem_iff_getElem?.1 mem
    exact ⟨j, last, there, rfl, path.tail (closed.mem_dependants.2 ⟨last, middle, there, between, named⟩)⟩

/-- What the search reaches with an outcome follows that branch. -/
lemma Closed.reached_iff {node : Planned} (own : nodes[gate]? = some node) (target : Text)
    (outcome : Bool) {last : Planned} (there : nodes[j]? = some last) :
    Colouring.Reached (dependants nodes) (outcomes nodes gate target) outcome j ↔
      FollowsPlanned nodes node target outcome last.id := by
  constructor
  · rintro ⟨seed, mem, path⟩
    obtain ⟨c, declared, same⟩ := mem_map.1 mem
    cases same
    obtain ⟨child, _, here, at_, named⟩ := closed.mem_dependants.1 declared
    rw [own] at at_
    cases at_
    obtain ⟨other, found, path⟩ := closed.declared_of_path here path
    rw [there] at found
    cases found
    refine ⟨child, mem_of_getElem? here, named, ?_, path⟩
    rw [here, Option.any_some]
  · rintro ⟨child, mem, named, rfl, path⟩
    obtain ⟨c, here⟩ := mem_iff_getElem?.1 mem
    obtain ⟨k, other, found, same, path⟩ := closed.path_of_declared here path
    have meet := closed.index_inj found there same
    subst meet
    refine ⟨c, mem_map.2 ⟨c, closed.mem_dependants.2 ⟨child, node, here, own, named⟩, ?_⟩, path⟩
    rw [here, Option.any_some]

/-- What the search reaches is the position of a node. -/
lemma Closed.exists_of_reached {outcome : Bool}
    (reached : Colouring.Reached (dependants nodes) (outcomes nodes gate target) outcome j) :
    ∃ last, nodes[j]? = some last := by
  obtain ⟨seed, mem, path⟩ := reached
  obtain ⟨c, edge, same⟩ := mem_map.1 mem
  have start : c = seed := congrArg Prod.fst same
  subst start
  obtain ⟨_, _, here, -⟩ := closed.mem_dependants.1 edge
  obtain ⟨last, there, -⟩ := closed.declared_of_path here path
  exact ⟨last, there⟩

/-! ### The check of the gates -/

lemma Closed.mem_range_of_dependants {c : Nat} (edge : c ∈ dependants nodes i) :
    c ∈ List.range nodes.length := by
  obtain ⟨_, _, here, -⟩ := closed.mem_dependants.1 edge
  exact mem_range.2 (List.getElem?_eq_some_iff.1 here).1

end Closed

/-- The check of one gate fails exactly if its search ends in a clash. -/
lemma checkGate_ne_ok :
    checkGate nodes gate target ≠ .ok () ↔
      ∃ j, Colouring.spread (dependants nodes)
        ((outcomes nodes gate target).length + ((List.range nodes.length).map fun index =>
          (dependants nodes index).length).sum) (fun _ => none) (outcomes nodes gate target) =
            .error j := by
  unfold checkGate
  dsimp only
  split
  next ended => simp [ended]
  next j ended => simp [ended]

/-- The check of one gate fails exactly if some node follows both branches. -/
lemma Closed.checkGate_iff (closed : Closed nodes) {node : Planned} (own : nodes[gate]? = some node)
    (target : Text) :
    checkGate nodes gate target ≠ .ok () ↔
      ∃ id, FollowsPlanned nodes node target true id ∧ FollowsPlanned nodes node target false id := by
  have bounded : ∀ i ∈ List.range nodes.length, ∀ c ∈ dependants nodes i,
      c ∈ List.range nodes.length := fun i _ c edge => closed.mem_range_of_dependants edge
  have known : ∀ item ∈ outcomes nodes gate target, item.1 ∈ List.range nodes.length := by
    intro item mem
    obtain ⟨c, edge, rfl⟩ := mem_map.1 mem
    exact closed.mem_range_of_dependants edge
  rw [checkGate_ne_ok, Colouring.clash_iff_both bounded known (Nat.le_refl _)]
  constructor
  · rintro ⟨j, one, two⟩
    obtain ⟨last, there⟩ := closed.exists_of_reached one
    exact ⟨last.id, (closed.reached_iff own target true there).1 one,
      (closed.reached_iff own target false there).1 two⟩
  · rintro ⟨id, one, two⟩
    have at_ : ∃ (j : Nat) (last : Planned), nodes[j]? = some last ∧ last.id = id := by
      obtain ⟨child, mem, -, -, path⟩ := one
      obtain ⟨c, here⟩ := mem_iff_getElem?.1 mem
      obtain ⟨j, last, there, same, -⟩ := closed.path_of_declared here path
      exact ⟨j, last, there, same⟩
    obtain ⟨j, last, there, rfl⟩ := at_
    exact ⟨j, (closed.reached_iff own target true there).2 one,
      (closed.reached_iff own target false there).2 two⟩

/-- The check of all gates fails exactly if some node follows both branches of one of them. -/
lemma Closed.checkGates_iff (closed : Closed nodes) :
    checkGates nodes ≠ .ok () ↔ ∃ gate ∈ nodes, ∃ target, gate.node.onFail = some target ∧
      ∃ id, FollowsPlanned nodes gate target true id ∧ FollowsPlanned nodes gate target false id := by
  unfold checkGates
  rw [Ne, forM_eq_ok, not_forall]
  constructor
  · rintro ⟨index, failed⟩
    obtain ⟨mem, failed⟩ := Classical.not_imp.1 failed
    obtain ⟨gate, own⟩ := exists_getElem? (mem_range.1 mem)
    rw [own, Option.bind_some] at failed
    cases onFail : gate.node.onFail with
    | none => simp [onFail] at failed
    | some target =>
      rw [onFail] at failed
      exact ⟨gate, mem_of_getElem? own, target, onFail, (closed.checkGate_iff own target).1 failed⟩
  · rintro ⟨gate, mem, target, onFail, both⟩
    obtain ⟨index, own⟩ := mem_iff_getElem?.1 mem
    refine ⟨index, Classical.not_imp.2 ⟨mem_range.2 (List.getElem?_eq_some_iff.1 own).1, ?_⟩⟩
    rw [own, Option.bind_some, onFail]
    exact (closed.checkGate_iff own target).2 both

end Positions

/-! ### Whole documents -/

section Documents

variable {v : Validators} {limits : Limits} {document : Document} {planned : List Planned}

/-- Planned nodes follow the same branches as the nodes of the document. -/
lemma Prepared.follows_iff (prepared : Prepared v document planned) (gate : Node) (target : Text)
    (outcome : Bool) (id : Text) :
    FollowsPlanned planned (plannedOf v gate) target outcome id ↔
      WaitsOn document.nodes gate target outcome id := by
  have nodes := prepared.nodes
  subst nodes
  have same : (fun parent child => ∃ node ∈ document.nodes.map (plannedOf v), node.id = child ∧
      parent ∈ node.dependsOn) = Declares document.nodes := by
    funext parent child
    apply propext
    constructor
    · rintro ⟨node, mem, equal, named⟩
      obtain ⟨origin, here, rfl⟩ := mem_map.1 mem
      exact ⟨origin, here, equal, mem_plannedOf_dependsOn.1 named⟩
    · rintro ⟨origin, here, equal, named⟩
      exact ⟨_, mem_map_of_mem here, equal, mem_plannedOf_dependsOn.2 named⟩
  unfold FollowsPlanned WaitsOn
  rw [same]
  constructor
  · rintro ⟨child, mem, named, side, path⟩
    obtain ⟨origin, here, rfl⟩ := mem_map.1 mem
    exact ⟨origin, here, mem_plannedOf_dependsOn.1 named, side, path⟩
  · rintro ⟨origin, here, named, side, path⟩
    exact ⟨_, mem_map_of_mem here, mem_plannedOf_dependsOn.2 named, side, path⟩

/-- The check of the gates fails exactly if some node of the document follows both branches of a
gate. -/
lemma Prepared.checkGates_iff (prepared : Prepared v document planned) :
    checkGates planned ≠ .ok () ↔ ∃ gate ∈ document.nodes, ∃ target, gate.onFail = some target ∧
      ∃ id, WaitsOn document.nodes gate target true id ∧
        WaitsOn document.nodes gate target false id := by
  rw [prepared.closed.checkGates_iff]
  constructor
  · rintro ⟨gate, mem, target, onFail, id, one, two⟩
    rw [prepared.nodes] at mem
    obtain ⟨origin, here, rfl⟩ := mem_map.1 mem
    exact ⟨origin, here, target, onFail, id, (prepared.follows_iff ..).1 one,
      (prepared.follows_iff ..).1 two⟩
  · rintro ⟨origin, here, target, onFail, id, one, two⟩
    refine ⟨plannedOf v origin, ?_, target, onFail, id, (prepared.follows_iff ..).2 one,
      (prepared.follows_iff ..).2 two⟩
    rw [prepared.nodes]
    exact mem_map_of_mem here

/-- **The branches of gates exclude each other.** An acyclic document that passes the other checks is
refused exactly if some node follows both branches of a gate or a loop with a failure target. So in
an accepted document no node waits for both outcomes.

**Proof sketch.** The search from the children of a gate spreads two colours along the declared
dependencies, and clashes exactly if some node is reached with both. Without a cycle the sort
succeeds, so that only this search can fail. -/
theorem gates_exclusive (v : Validators) (limits : Limits) (document : Document)
    (planned : List Planned) (prepared : prepare v limits document = .ok planned)
    (acyclic : ∀ id, ¬TransGen (DependsOn document.nodes) id id)
    (related : validateRelations planned = .ok ()) :
    ((∃ error, validateFlatPlan v limits document = .error error) ↔
      ∃ gate ∈ document.nodes, ∃ target, gate.onFail = some target ∧
        ∃ id, WaitsOn document.nodes gate target true id ∧
          WaitsOn document.nodes gate target false id) ∧
    ∀ result, validateFlatPlan v limits document = .ok result →
      ∀ gate ∈ document.nodes, ∀ target, gate.onFail = some target →
        ∀ id, WaitsOn document.nodes gate target true id →
          ¬WaitsOn document.nodes gate target false id := by
  have ready := prepared_of_prepare prepared
  obtain ⟨order, sorting⟩ := ready.closed.sortNodes_iff.2 (ready.acyclic_iff.2 acyclic)
  have failure : (∃ error, validateFlatPlan v limits document = .error error) ↔
      checkGates planned ≠ .ok () := by
    constructor
    · rintro ⟨error, failed⟩ fine
      have made := (validateFlatPlan_ok_iff prepared).2 ⟨order, sorting, related, fine, rfl⟩
      rw [failed] at made
      cases made
    · intro clash
      cases result : validateFlatPlan v limits document with
      | error error => exact ⟨error, rfl⟩
      | ok _ =>
        obtain ⟨_, -, -, fine, -⟩ := (validateFlatPlan_ok_iff prepared).1 result
        exact absurd fine clash
  constructor
  · rw [failure, ready.checkGates_iff]
  · intro result made gate mem target onFail id one two
    obtain ⟨_, -, -, fine, -⟩ := (validateFlatPlan_ok_iff prepared).1 made
    exact ready.checkGates_iff.2 ⟨gate, mem, target, onFail, id, one, two⟩ fine

end Documents

/-! ### A loop and its failure target -/

/-- A loop with a target for its failure. -/
def loopNode (id : Text) (dependsOn : List Text) (onFail : Option Text) : Node where
  id := id
  dependsOn := dependsOn
  kind := some .loop
  loopBody := true
  onFail := onFail

/-- A gate on the budget, with a target for its failure. -/
def budgetGate (id : Text) (onFail : Text) : Node where
  id := id
  kind := some .gate
  condition := some .budget
  onFail := some onFail

/-- A gate with a child on each branch. -/
def branchingDocument : Document where
  graphId := text "branching"
  nodes := [budgetGate (text "g") (text "t"), task (text "s") [text "g"] [],
    task (text "t") [text "g"] []]

/-- A document whose planned nodes are sorted has no cycle. -/
lemma acyclic_of_sortNodes {v : Validators} {limits : Limits} {document : Document}
    {planned : List Planned} {order : List Nat} (prepared : prepare v limits document = .ok planned)
    (sorting : sortNodes planned = .ok order) :
    ∀ id, ¬TransGen (DependsOn document.nodes) id id := by
  have ready := prepared_of_prepare prepared
  exact ready.acyclic_iff.1 (ready.closed.sortNodes_iff.1 ⟨order, sorting⟩)

/-- The branches of the gate exclude each other in the plan of this document. -/
theorem gates_exclusive_branching :
    (∃ result, validateFlatPlan plainValidators plainLimits branchingDocument = .ok result) ∧
      ∀ gate ∈ branchingDocument.nodes, ∀ target, gate.onFail = some target →
        ∀ id, WaitsOn branchingDocument.nodes gate target true id →
          ¬WaitsOn branchingDocument.nodes gate target false id := by
  have prepared : prepare plainValidators plainLimits branchingDocument =
      .ok (branchingDocument.nodes.map (plannedOf plainValidators)) := by
    rfl
  have acyclic := acyclic_of_sortNodes prepared rfl
  have rules := gates_exclusive plainValidators plainLimits branchingDocument _ prepared acyclic rfl
  exact ⟨⟨_, rfl⟩, rules.2 _ rfl⟩

/-- A node depends on the target of a loop and on another child of the loop. There is no gate. -/
def loopDocument : Document where
  graphId := text "loop"
  nodes := [loopNode (text "l") [] (some (text "t")), task (text "s") [text "l"] [],
    task (text "t") [text "l"] [], task (text "n") [text "s", text "t"] []]

/-- The target of a gate is a loop, and a node in a round of the loop does not depend on the gate.
Another node depends on it, and on a child of the gate on the branch of its success. -/
def roundDocument : Document where
  graphId := text "round"
  nodes := [budgetGate (text "g") (text "l"), task (text "s") [text "g"] [],
    loopNode (text "l") [text "g"] none,
    { task (text "r") [] [] with round := some ⟨text "l", 1, text "r", false, none⟩ },
    task (text "n") [text "s", text "r"] []]

/-- Validation refuses a document without any gate for the branches of a loop. It accepts a document
with a node that is reached from the success of a gate and from a round of its failure target, where
that round does not depend on the gate. Both documents have no cycle and pass all other checks. -/
theorem loop_branches :
    ((∀ node ∈ loopDocument.nodes, node.kind ≠ some .gate) ∧
      (∀ id, ¬TransGen (DependsOn loopDocument.nodes) id id) ∧
      validateRelations (loopDocument.nodes.map (plannedOf plainValidators)) = .ok () ∧
      validateFlatPlan plainValidators plainLimits loopDocument =
        .error (text "node n: requires both gate outcomes")) ∧
    (∃ gate ∈ roundDocument.nodes, ∃ child ∈ roundDocument.nodes, ∃ inRound ∈ roundDocument.nodes,
      gate.kind = some .gate ∧ gate.onFail = some (text "l") ∧ gate.id ∈ child.dependsOn ∧
      child.recovers (text "l") = false ∧
      inRound.round = some ⟨text "l", 1, text "r", false, none⟩ ∧
      Declares roundDocument.nodes child.id (text "n") ∧
      Declares roundDocument.nodes inRound.id (text "n")) ∧
    ∃ result, validateFlatPlan plainValidators plainLimits roundDocument = .ok result := by
  have prepared : prepare plainValidators plainLimits loopDocument =
      .ok (loopDocument.nodes.map (plannedOf plainValidators)) := by
    rfl
  refine ⟨⟨?_, acyclic_of_sortNodes prepared rfl, rfl, rfl⟩, ?_, _, rfl⟩
  · decide +kernel
  · refine ⟨_, .head _, _, .tail _ (.head _), _, .tail _ (.tail _ (.tail _ (.head _))), rfl, rfl,
      ?_, rfl, rfl, ?_, ?_⟩
    · exact mem_singleton.2 rfl
    · exact ⟨task (text "n") [text "s", text "r"] [], by simp [roundDocument], rfl, mem_cons_self⟩
    · exact ⟨task (text "n") [text "s", text "r"] [], by simp [roundDocument], rfl,
        mem_cons_of_mem _ mem_cons_self⟩

end Provenant.FlatPlan

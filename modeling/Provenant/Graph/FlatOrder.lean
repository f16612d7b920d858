import Mathlib.Data.List.Nodup
import Provenant.Graph.FlatPlan

/-!
# The order of a flat plan

A document whose nodes pass their checks is sorted by its dependencies. The sort succeeds exactly if
no node depends on itself, directly or through others. The plan then holds every node once, after
all the nodes it depends on.

## Main definitions

* `FlatPlan.DependsOn` — a node names another one as a parent.
* `FlatPlan.Prepared` — what the checks of the nodes leave.

## Main results

* `FlatPlan.sortNodes_iff` — the sort succeeds exactly if there is no cycle.
* `FlatPlan.flat_plan_ordered` — what validation accepts and in which order it plans the nodes.
* `FlatPlan.completion_cycle` — a cycle through completion edges is refused, although the declared
  dependencies have none.
-/

namespace Provenant.FlatPlan

open Json Fallible Provenant.Graph Relation List Option

/-! ### What the checks of the nodes leave -/

/-- A node as it is planned. -/
def plannedOf (v : Validators) (node : Node) : Planned :=
  planNode v node ((chosenRoutes node).toOption.getD [])

@[simp] lemma plannedOf_id (v : Validators) (node : Node) : (plannedOf v node).id = node.id := rfl

@[simp] lemma plannedOf_node (v : Validators) (node : Node) : (plannedOf v node).node = node := rfl

variable {v : Validators} {nodes : List Planned} {document : Document}

/-- Planning sorts the declared parents. -/
lemma mem_plannedOf_dependsOn {node : Node} {name : Text} :
    name ∈ (plannedOf v node).dependsOn ↔ name ∈ node.dependsOn :=
  (perm_insertionSort _ _).mem_iff

/-- Planning keeps the parents, up to their order. -/
lemma plannedOf_dependencies (v : Validators) (node : Node) :
    (plannedOf v node).dependencies.Perm node.dependencies := by
  have declared : (plannedOf v node).dependsOn.Perm node.dependsOn := perm_insertionSort _ _
  have same : ∀ name, (plannedOf v node).dependsOn.contains name = node.dependsOn.contains name := by
    intro name
    rw [Bool.eq_iff_iff, contains_iff_mem, contains_iff_mem]
    exact mem_plannedOf_dependsOn
  unfold Planned.dependencies Node.dependencies
  simp only [same, plannedOf_node]
  exact declared.append_right _

/-- What the checks of the nodes leave: every node is planned, identifiers are unique, and parents
are other nodes. -/
structure Prepared (v : Validators) (document : Document) (planned : List Planned) : Prop where
  nodes : planned = document.nodes.map (plannedOf v)
  unique : (document.nodes.map (·.id)).Nodup
  fit : ∀ node ∈ document.nodes, dependenciesFit document.nodes node = true

lemma nodup_of_checkIds {seen : List Text} {nodes : List Node}
    (checked : checkIds seen nodes = .ok ()) :
    (nodes.map (·.id)).Nodup ∧ ∀ id ∈ nodes.map (·.id), id ∉ seen := by
  induction nodes generalizing seen with
  | nil => simp
  | cons node _ ih =>
    obtain ⟨_, valid, others⟩ := bind_eq_ok.1 checked
    obtain ⟨unique, fresh⟩ := ih others
    have unseen := (Bool.and_eq_true_iff.1 (demand_ok valid)).2
    simp only [Bool.not_eq_true', contains_eq_mem, decide_eq_false_iff_not] at unseen
    constructor
    · refine nodup_cons.2 ⟨fun repeated => ?_, unique⟩
      exact fresh node.id repeated mem_cons_self
    · intro id mem
      rcases mem_cons.1 mem with rfl | later
      · exact unseen
      · exact fun old => fresh id later (mem_cons_of_mem _ old)

variable {planned : List Planned} {index p : Nat} {order : List Nat}

lemma planned_of_planNodes {limits : Limits} {promptBytes edgeCount : Nat} {nodes : List Node}
    (made : planNodes v limits document promptBytes edgeCount nodes = .ok planned) :
    planned = nodes.map (plannedOf v) ∧ ∀ node ∈ nodes,
      dependenciesFit document.nodes node = true ∧ checkShape v limits document node = .ok () := by
  induction nodes generalizing promptBytes edgeCount planned with
  | nil =>
    cases made
    simp
  | cons _ _ ih =>
    obtain ⟨_, shape, made⟩ := bind_eq_ok.1 made
    obtain ⟨_, -, made⟩ := bind_eq_ok.1 made
    obtain ⟨_, -, made⟩ := bind_eq_ok.1 made
    obtain ⟨_, -, made⟩ := bind_eq_ok.1 made
    obtain ⟨_, chosen, made⟩ := bind_eq_ok.1 made
    obtain ⟨_, -, made⟩ := bind_eq_ok.1 made
    obtain ⟨_, fits, made⟩ := bind_eq_ok.1 made
    obtain ⟨_, -, made⟩ := bind_eq_ok.1 made
    obtain ⟨_, -, made⟩ := bind_eq_ok.1 made
    obtain ⟨_, later, made⟩ := bind_eq_ok.1 made
    cases made
    obtain ⟨rfl, fit⟩ := ih later
    constructor
    · simp [plannedOf, chosen, Except.toOption]
    · exact forall_mem_cons.2 ⟨⟨demand_ok fits, shape⟩, fit⟩

/-- A document whose checks pass is prepared. -/
lemma prepared_of_prepare {limits : Limits} (made : prepare v limits document = .ok planned) :
    Prepared v document planned := by
  obtain ⟨_, -, made⟩ := bind_eq_ok.1 made
  obtain ⟨_, ids, made⟩ := bind_eq_ok.1 made
  obtain ⟨nodes, fit⟩ := planned_of_planNodes made
  exact ⟨nodes, (nodup_of_checkIds ids).1, fun node mem => (fit node mem).1⟩

/-- Planned nodes whose identifiers are unique and whose parents are nodes, each named once. -/
structure Closed (nodes : List Planned) : Prop where
  unique : (nodes.map (·.id)).Nodup
  nodup : ∀ node ∈ nodes, node.dependencies.Nodup
  known : ∀ node ∈ nodes, ∀ parent ∈ node.dependencies, ∃ other ∈ nodes, other.id = parent

lemma Prepared.closed (prepared : Prepared v document planned) : Closed planned := by
  have fits : ∀ node ∈ document.nodes, node.dependencies.Nodup ∧
      ∀ parent ∈ node.dependencies, ∃ other ∈ document.nodes, other.id = parent := by
    intro node mem
    have fit := prepared.fit node mem
    simp only [dependenciesFit, Bool.and_eq_true, decide_eq_true_eq, List.all_eq_true,
      List.any_eq_true] at fit
    exact ⟨fit.1.1, fit.2⟩
  have nodes := prepared.nodes
  subst nodes
  refine ⟨?_, ?_, ?_⟩
  · rw [List.map_map]
    exact prepared.unique
  · intro node mem
    obtain ⟨origin, here, rfl⟩ := List.mem_map.1 mem
    exact (plannedOf_dependencies v origin).nodup_iff.2 (fits origin here).1
  · intro node mem parent named
    obtain ⟨origin, here, rfl⟩ := List.mem_map.1 mem
    have declared := (plannedOf_dependencies v origin).mem_iff.1 named
    obtain ⟨other, there, same⟩ := (fits origin here).2 parent declared
    exact ⟨plannedOf v other, List.mem_map_of_mem there, same⟩

/-! ### Positions -/

section Positions

/-- Nodes at two positions with one identifier are at the same position. -/
lemma Closed.index_inj (closed : Closed nodes) {i j : Nat} {a b : Planned}
    (first : nodes[i]? = some a) (second : nodes[j]? = some b) (same : a.id = b.id) : i = j := by
  obtain ⟨hi, rfl⟩ := List.getElem?_eq_some_iff.1 first
  obtain ⟨hj, rfl⟩ := List.getElem?_eq_some_iff.1 second
  have equal : (nodes.map (·.id))[i]? = (nodes.map (·.id))[j]? := by
    simp [hi, hj, same]
  exact (getElem?_inj (by simpa using hi) closed.unique).1 equal

/-- The position of an identifier is the position of its node. -/
lemma Closed.position_iff (closed : Closed nodes) {id : Text} :
    position nodes id = some index ↔ ∃ node, nodes[index]? = some node ∧ node.id = id := by
  unfold position
  constructor
  · intro found
    obtain ⟨less, same, -⟩ := findIdx?_eq_some_iff_getElem.1 found
    exact ⟨nodes[index], getElem?_eq_getElem less, of_decide_eq_true same⟩
  · rintro ⟨node, here, same⟩
    have mem := mem_of_getElem? here
    cases found : nodes.findIdx? fun node => node.id = id with
    | none =>
      have absent := findIdx?_eq_none_iff.1 found node mem
      simp [same] at absent
    | some other =>
      obtain ⟨less, alike, -⟩ := findIdx?_eq_some_iff_getElem.1 found
      have twin : nodes[other]? = some nodes[other] := getElem?_eq_getElem less
      rw [closed.index_inj twin here ((of_decide_eq_true alike).trans same.symm)]

/-- The parents at a position are the positions of the parents. -/
lemma Closed.mem_parentsAt (closed : Closed nodes) {node : Planned}
    (here : nodes[index]? = some node) :
    p ∈ parentsAt nodes index ↔ ∃ parent, nodes[p]? = some parent ∧ parent.id ∈ node.dependencies := by
  unfold parentsAt
  rw [here, map_some, getD_some, mem_filterMap]
  constructor
  · rintro ⟨id, named, found⟩
    obtain ⟨parent, there, rfl⟩ := closed.position_iff.1 found
    exact ⟨parent, there, named⟩
  · rintro ⟨parent, there, named⟩
    exact ⟨parent.id, named, closed.position_iff.2 ⟨parent, there, rfl⟩⟩

lemma exists_getElem? (less : index < nodes.length) :
    ∃ node, nodes[index]? = some node := ⟨nodes[index], getElem?_eq_getElem less⟩

/-- The table of parents is well formed. -/
lemma Closed.wellFormed (closed : Closed nodes) :
    Topological.WellFormed (parentsAt nodes) nodes.length where
  nodup child less := by
    obtain ⟨node, here⟩ := exists_getElem? less
    unfold parentsAt
    rw [here, map_some, getD_some]
    refine (closed.nodup node (mem_of_getElem? here)).filterMap ?_
    intro first second index one two
    obtain ⟨a, atA, rfl⟩ := closed.position_iff.1 one
    obtain ⟨b, atB, rfl⟩ := closed.position_iff.1 two
    rw [atA] at atB
    cases atB
    rfl
  bounded child less p mem := by
    obtain ⟨node, here⟩ := exists_getElem? less
    obtain ⟨_, there, -⟩ := (closed.mem_parentsAt here).1 mem
    exact (List.getElem?_eq_some_iff.1 there).1

end Positions

/-! ### Cycles -/

/-- One of the nodes has an identifier and names another one as a parent. -/
def Names (nodes : List Planned) (parent child : Text) : Prop :=
  ∃ node ∈ nodes, node.id = child ∧ parent ∈ node.dependencies

section Closed

variable (closed : Closed nodes)
include closed

lemma Closed.edge_iff {c : Nat} {child : Planned} (here : nodes[c]? = some child) :
    Topological.Edge (parentsAt nodes) nodes.length p c ↔
      ∃ parent, nodes[p]? = some parent ∧ parent.id ∈ child.dependencies := by
  have less := (List.getElem?_eq_some_iff.1 here).1
  unfold Topological.Edge
  rw [closed.mem_parentsAt here]
  exact ⟨fun both => both.2, fun named => ⟨less, named⟩⟩

/-- The positions have no cycle exactly if the identifiers have none. -/
lemma Closed.acyclic_iff :
    Topological.Acyclic (parentsAt nodes) nodes.length ↔ ∀ id, ¬TransGen (Names nodes) id id := by
  constructor
  · -- a path between identifiers is a path between their positions
    intro acyclic id cycle
    refine acyclic _ (TransGen.lift (fun id => (position nodes id).getD 0) ?_ _ _ cycle)
    rintro a b ⟨child, mem, rfl, named⟩
    obtain ⟨parent, known, rfl⟩ := closed.known child mem a named
    obtain ⟨p, there⟩ := mem_iff_getElem?.1 known
    obtain ⟨c, here⟩ := mem_iff_getElem?.1 mem
    simp only [Function.onFun, closed.position_iff.2 ⟨_, there, rfl⟩,
      closed.position_iff.2 ⟨_, here, rfl⟩, getD_some]
    exact (closed.edge_iff here).2 ⟨parent, there, named⟩
  · -- and conversely
    intro acyclic index cycle
    refine acyclic _ (TransGen.lift (fun p => (nodes[p]?.map (·.id)).getD []) ?_ _ _ cycle)
    intro p c edge
    obtain ⟨child, here⟩ := exists_getElem? edge.1
    obtain ⟨_, there, named⟩ := (closed.edge_iff here).1 edge
    simp only [Function.onFun, here, there, map_some, getD_some]
    exact ⟨child, mem_of_getElem? here, rfl, named⟩

/-! ### The sorted plan -/

/-- The sort succeeds exactly if there is no cycle. -/
lemma Closed.sortNodes_iff :
    (∃ order, sortNodes nodes = .ok order) ↔ ∀ id, ¬TransGen (Names nodes) id id := by
  rw [← closed.acyclic_iff, ← Topological.complete_iff closed.wellFormed]
  unfold sortNodes
  dsimp only
  split_ifs with complete
  · exact ⟨fun _ => complete, fun _ => ⟨_, rfl⟩⟩
  · constructor
    · rintro ⟨order, made⟩
      cases made
    · exact fun all => absurd all complete

/-- What the sort returns: every position once, after the positions of its parents. -/
lemma Closed.order_of_sortNodes (made : sortNodes nodes = .ok order) :
    order.Perm (List.range nodes.length) ∧ Topological.Sorted (parentsAt nodes) order := by
  unfold sortNodes at made
  dsimp only at made
  split_ifs at made with complete
  cases made
  exact ⟨Topological.perm_of_complete closed.wellFormed complete,
    Topological.sorted_finish closed.wellFormed⟩

end Closed

section Lists

variable {α : Type}

lemma filterMap_range_getElem? (xs : List α) :
    (List.range xs.length).filterMap (fun index => xs[index]?) = xs := by
  induction xs using reverseRecOn with
  | nil => rfl
  | append_singleton xs last ih =>
    rw [length_append, length_singleton, range_succ, filterMap_append]
    have front : (List.range xs.length).filterMap (fun index => (xs ++ [last])[index]?) = xs := by
      rw [filterMap_congr fun index mem => getElem?_append_left (mem_range.1 mem)]
      exact ih
    rw [front]
    simp

/-- The members at some positions, where each position holds one. -/
lemma getElem?_filterMap {xs : List α} (less : ∀ index ∈ order, index < xs.length) (k : Nat) :
    (order.filterMap fun index => xs[index]?)[k]? = order[k]?.bind fun index => xs[index]? := by
  induction order generalizing k with
  | nil => simp
  | cons index _ ih =>
    have bound : index < xs.length := less index mem_cons_self
    have here : xs[index]? = some xs[index] := getElem?_eq_getElem bound
    rw [filterMap_cons_some here]
    cases k with
    | zero => simp
    | succ k => simpa using ih (fun other mem => less other (mem_cons_of_mem _ mem)) k

/-- A member is looked up by its key, if keys are unique. -/
lemma lookup_zipIdx {key : α → Text} {xs : List α} (unique : (xs.map key).Nodup)
    (start : Nat) {k : Nat} {x : α} (here : xs[k]? = some x) :
    ((xs.zipIdx start).map fun entry => (key entry.1, entry.2)).lookup (key x) = some (start + k) := by
  induction xs generalizing start k with
  | nil => simp at here
  | cons first rest ih =>
    obtain ⟨fresh, unique⟩ := nodup_cons.1 unique
    rw [zipIdx_cons, map_cons]
    cases k with
    | zero =>
      cases here
      simp
    | succ k =>
      have later : rest[k]? = some x := here
      have differs : key x ≠ key first := fun same =>
        fresh (same ▸ List.mem_map_of_mem (mem_of_getElem? later))
      rw [lookup_cons, beq_false_of_ne differs]
      have found := ih unique (start + 1) later
      rw [Nat.add_right_comm, Nat.add_assoc] at found
      exact found

end Lists

/-! ### Whole documents -/

/-- One of the nodes of a document has an identifier and depends on another one, by declaration or
for its completion. -/
def DependsOn (nodes : List Node) (parent child : Text) : Prop :=
  ∃ node ∈ nodes, node.id = child ∧ parent ∈ node.dependencies

lemma Prepared.names_iff (prepared : Prepared v document planned) (parent child : Text) :
    Names planned parent child ↔ DependsOn document.nodes parent child := by
  rw [prepared.nodes]
  constructor
  · rintro ⟨node, mem, same, named⟩
    obtain ⟨origin, here, rfl⟩ := List.mem_map.1 mem
    exact ⟨origin, here, same, (plannedOf_dependencies v origin).mem_iff.1 named⟩
  · rintro ⟨origin, here, same, named⟩
    refine ⟨plannedOf v origin, List.mem_map_of_mem here, same, ?_⟩
    exact (plannedOf_dependencies v origin).mem_iff.2 named

/-- The planned nodes have no cycle exactly if the document has none. -/
lemma Prepared.acyclic_iff (prepared : Prepared v document planned) :
    (∀ id, ¬TransGen (Names planned) id id) ↔ ∀ id, ¬TransGen (DependsOn document.nodes) id id := by
  have same : Names planned = DependsOn document.nodes := by
    funext parent child
    exact propext (prepared.names_iff parent child)
  rw [same]

section Validation

variable {limits : Limits}

/-- Validation succeeds exactly if each of its parts does. -/
lemma validateFlatPlan_ok_iff (prepared : prepare v limits document = .ok planned)
    {result : Plan × List (Text × Nat)} :
    validateFlatPlan v limits document = .ok result ↔
      ∃ order, sortNodes planned = .ok order ∧ validateRelations planned = .ok () ∧
        checkGates planned = .ok () ∧
        result = (⟨document, order.filterMap fun index => planned[index]?⟩,
          (order.filterMap fun index => planned[index]?).zipIdx.map fun entry =>
            (entry.1.id, entry.2)) := by
  unfold validateFlatPlan
  rw [prepared, ok_bind]
  constructor
  · intro made
    obtain ⟨order, sorted, made⟩ := bind_eq_ok.1 made
    obtain ⟨_, related, made⟩ := bind_eq_ok.1 made
    obtain ⟨_, exclusive, made⟩ := bind_eq_ok.1 made
    cases made
    exact ⟨order, sorted, related, exclusive, rfl⟩
  · rintro ⟨order, sorted, related, exclusive, rfl⟩
    rw [sorted, ok_bind, related, ok_bind, exclusive, ok_bind]

/-- A plan holds every node of its document once, after all the nodes it depends on, and its table
of positions says where. -/
structure Ordered (v : Validators) (document : Document) (plan : Plan)
    (positions : List (Text × Nat)) : Prop where
  perm : plan.nodes.Perm (document.nodes.map (plannedOf v))
  located : ∀ (index : Nat) (node : Planned), plan.nodes[index]? = some node →
    positions.lookup node.id = some index
  earlier : ∀ (index : Nat) (node : Planned), plan.nodes[index]? = some node →
    ∀ parent ∈ node.dependencies, ∃ (before : Nat) (other : Planned), before < index ∧
      plan.nodes[before]? = some other ∧ other.id = parent

/-- The nodes at a sorted list of positions come after their parents. -/
lemma Closed.earlier_of_sorted (closed : Closed nodes) (perm : order.Perm (List.range nodes.length))
    (sorted : Topological.Sorted (parentsAt nodes) order) {node : Planned}
    (here : (order.filterMap fun index => nodes[index]?)[index]? = some node) {parent : Text}
    (named : parent ∈ node.dependencies) :
    ∃ before other, before < index ∧
      (order.filterMap fun index => nodes[index]?)[before]? = some other ∧ other.id = parent := by
  have less : ∀ index ∈ order, index < nodes.length := fun index mem =>
    mem_range.1 (perm.mem_iff.1 mem)
  rw [getElem?_filterMap less] at here
  obtain ⟨own, taken, at_⟩ := bind_eq_some_iff.1 here
  obtain ⟨bound, rfl⟩ := List.getElem?_eq_some_iff.1 taken
  obtain ⟨other, known, rfl⟩ := closed.known node (mem_of_getElem? at_) parent named
  obtain ⟨p, there⟩ := mem_iff_getElem?.1 known
  have edge : p ∈ parentsAt nodes order[index] := (closed.mem_parentsAt at_).2 ⟨other, there, named⟩
  -- The sort took the parent before the node, so it stands before it in the order.
  have split : order = order.take index ++ order[index] :: order.drop (index + 1) := by simp
  have early : p ∈ order.take index := sorted _ _ _ split p edge
  obtain ⟨before, found⟩ := mem_iff_getElem?.1 early
  rw [getElem?_take] at found
  split_ifs at found with earlier
  refine ⟨before, other, earlier, ?_, rfl⟩
  rw [getElem?_filterMap less, found]
  exact there

/-- What validation accepts is ordered. -/
lemma ordered_of_validate (prepared : prepare v limits document = .ok planned) {plan : Plan}
    {positions : List (Text × Nat)}
    (made : validateFlatPlan v limits document = .ok (plan, positions)) :
    Ordered v document plan positions := by
  have ready := prepared_of_prepare prepared
  have closed := ready.closed
  obtain ⟨order, sorting, -, -, same⟩ := (validateFlatPlan_ok_iff prepared).1 made
  cases same
  obtain ⟨perm, sorted⟩ := closed.order_of_sortNodes sorting
  have nodes : (order.filterMap fun index => planned[index]?).Perm planned := by
    have all := perm.filterMap fun index => planned[index]?
    rw [filterMap_range_getElem?] at all
    exact all
  refine ⟨?_, ?_, ?_⟩
  · rw [← ready.nodes]
    exact nodes
  · intro index node here
    have unique := (nodes.map (·.id)).nodup_iff.2 closed.unique
    have found := lookup_zipIdx unique 0 here
    rw [Nat.zero_add] at found
    exact found
  · intro index node here parent named
    exact closed.earlier_of_sorted perm sorted here named

/-- **The order of a flat plan.** Where all other checks pass, validation accepts a document exactly
if no node depends on itself, by declared dependencies and completion edges. The plan then holds
every node once, the table of positions says where, and every node comes after the nodes that it
depends on.

**Proof sketch.** The other checks leave unique identifiers and parents among the nodes, which is
what the sort needs. The sort takes all positions exactly if there is no cycle between positions,
and these are the cycles between identifiers. -/
theorem flat_plan_ordered (v : Validators) (limits : Limits) (document : Document)
    (planned : List Planned) (prepared : prepare v limits document = .ok planned)
    (related : validateRelations planned = .ok ()) (exclusive : checkGates planned = .ok ()) :
    ((∃ result, validateFlatPlan v limits document = .ok result) ↔
      ∀ id, ¬TransGen (DependsOn document.nodes) id id) ∧
    ∀ plan positions, validateFlatPlan v limits document = .ok (plan, positions) →
      Ordered v document plan positions := by
  have ready := prepared_of_prepare prepared
  constructor
  · rw [← ready.acyclic_iff, ← ready.closed.sortNodes_iff]
    constructor
    · rintro ⟨result, made⟩
      obtain ⟨order, sorting, -⟩ := (validateFlatPlan_ok_iff prepared).1 made
      exact ⟨order, sorting⟩
    · rintro ⟨order, sorting⟩
      exact ⟨_, (validateFlatPlan_ok_iff prepared).2 ⟨order, sorting, related, exclusive, rfl⟩⟩
  · intro plan positions made
    exact ordered_of_validate prepared made

end Validation

/-! ### Two nodes -/

/-- Checks of other modules that refuse nothing. -/
def plainValidators : Validators where
  validContext _ := true
  integrates _ := true
  sessionId _ := true
  branchName _ := true
  revision _ := true
  gitOid _ := true
  trim value := value
  hasParentDir _ := false
  validateSpec _ := none
  validateDecide _ _ _ := none
  validateLand _ := none
  validateTarget _ _ _ := none
  validateTaskTitle _ := none
  prompt node := node.prompt

/-- Limits with room for a few nodes. -/
def plainLimits : Limits := ⟨8, 16, 4, 64, 512⟩

/-- A task on the route of an alias. -/
def task (id : Text) (dependsOn afterExpansion : List Text) : Node where
  id := id
  dependsOn := dependsOn
  afterExpansion := afterExpansion
  route := some ⟨none, none, none, some (text "fast"), none, none⟩
  prompt := text "work"

/-- A node, and one it depends on. -/
def pairDocument : Document where
  graphId := text "pair"
  nodes := [task (text "b") [text "a"] [], task (text "a") [] []]

/-- The document of two nodes passes all other checks, and its order is turned round. -/
theorem flat_plan_ordered_pair :
    prepare plainValidators plainLimits pairDocument =
        .ok (pairDocument.nodes.map (plannedOf plainValidators)) ∧
      (∃ result, validateFlatPlan plainValidators plainLimits pairDocument = .ok result) ∧
      ∀ plan positions, validateFlatPlan plainValidators plainLimits pairDocument =
          .ok (plan, positions) →
        Ordered plainValidators pairDocument plan positions := by
  have prepared : prepare plainValidators plainLimits pairDocument =
      .ok (pairDocument.nodes.map (plannedOf plainValidators)) := by
    rfl
  have rules := flat_plan_ordered plainValidators plainLimits pairDocument _ prepared rfl rfl
  exact ⟨prepared, ⟨_, rfl⟩, rules.2⟩

/-- Two nodes that wait for each other: one by its declaration, the other for its completion. -/
def waitingDocument : Document where
  graphId := text "waiting"
  nodes := [task (text "b") [text "a"] [], task (text "a") [] [text "b"]]

/-- One of the nodes declares another one as a parent. -/
def Declares (nodes : List Node) (parent child : Text) : Prop :=
  ∃ node ∈ nodes, node.id = child ∧ parent ∈ node.dependsOn

/-- The declared dependencies have no cycle and all other checks pass, but validation refuses a
cycle through completion edges. -/
theorem completion_cycle :
    prepare plainValidators plainLimits waitingDocument =
        .ok (waitingDocument.nodes.map (plannedOf plainValidators)) ∧
      validateRelations (waitingDocument.nodes.map (plannedOf plainValidators)) = .ok () ∧
      checkGates (waitingDocument.nodes.map (plannedOf plainValidators)) = .ok () ∧
      (∀ id, ¬TransGen (Declares waitingDocument.nodes) id id) ∧
      ∃ error, validateFlatPlan plainValidators plainLimits waitingDocument = .error error := by
  refine ⟨rfl, rfl, rfl, ?_, _, rfl⟩
  -- The only declared edge leads from `a` to `b`.
  have only : ∀ {parent child}, Declares waitingDocument.nodes parent child →
      parent = text "a" ∧ child = text "b" := by
    rintro parent child ⟨node, mem, rfl, named⟩
    simp only [waitingDocument, mem_cons, not_mem_nil, or_false] at mem
    rcases mem with rfl | rfl
    · exact ⟨mem_singleton.1 named, rfl⟩
    · cases named
  have ends : ∀ {first last}, TransGen (Declares waitingDocument.nodes) first last →
      first = text "a" ∧ last = text "b" := by
    intro first last path
    induction path with
    | single edge => exact only edge
    | tail _ edge ih => exact ⟨ih.1, (only edge).2⟩
  intro id cycle
  obtain ⟨first, last⟩ := ends cycle
  exact absurd (first.symm.trans last) (by decide)

end Provenant.FlatPlan

import Mathlib.Logic.Relation
import Provenant.Data.Fallible
import Provenant.Graph.Fragment

/-!
# Authority of contributed work

The nodes that a planner's fragment contributes hold no more than the planner itself: their
role and source are its own or absent, and their capabilities, attachments and read roots are
among its own. The checks are made on the authored tree; composites then hand sources, read
roots and attachments down to their members, and later additions rewire the nodes. Neither adds
to what the planner holds, so that the bound carries over to every node of a later plan, and
along chains of planners.

Two things escape the checks. The capabilities among a node's attempt settings are folded into
the plan but not compared with the planner's, and a source that names a node is compared before
it is renamed into the namespace of the planner.

## Main definitions

* `Narrowed` — the authority of a node lies within that of another.
* `Contributed` — a node of a plan came with the fragment of a planner.

## Main results

* `confined_prepareNested` — preparation refuses whatever would widen authority.
* `narrowed_flattenNode` — flattening hands down nothing that the planner does not hold.
* `contributed_within` — contributed nodes hold no more than their planner, along chains.
-/

namespace Provenant.Graph

open List Option

open Json (Text text)
open Fallible

/-! ### Bounds on authority -/

/-- The source without the name of a node. -/
def SourceBinding.forget (binding : SourceBinding) : SourceBinding := binding.rename fun _ => []

/-- A source that names no node is all that there is of it. -/
lemma SourceBinding.eq_of_forget {binding other : SourceBinding}
    (unnamed : binding.node? = none) (same : binding.forget = other.forget) : binding = other := by
  cases binding <;> cases other <;>
    simp_all [SourceBinding.node?, SourceBinding.forget, SourceBinding.rename]

/-- The source is absent, or the producer's as far as `view` shows it. -/
def SourceWithin (view : SourceBinding → SourceBinding) (producer : BodyNode)
    (source : Option SourceBinding) : Prop :=
  source = none ∨ source.map view = producer.source.map view

/-- Renaming of nodes leaves the rest of a source alone. -/
lemma SourceWithin.map {producer : BodyNode} {source : Option SourceBinding}
    {f : SourceBinding → SourceBinding} (h : SourceWithin .forget producer source)
    (keeps : ∀ binding, (f binding).forget = binding.forget) :
    SourceWithin .forget producer (source.map f) := by
  rcases h with rfl | same
  · exact .inl rfl
  · refine .inr ?_
    rw [Option.map_map, show SourceBinding.forget ∘ f = SourceBinding.forget from funext keeps]
    exact same

/-- What the checks establish and flattening keeps: the authored fields lie within the producer.
Flattening renames the nodes that sources name, so that a source is compared under a `view`. -/
structure Narrowed (view : SourceBinding → SourceBinding) (producer child : BodyNode) : Prop where
  role : child.role = none ∨ child.role = producer.role
  source : SourceWithin view producer child.source
  capabilities : child.capabilities.getD [] ⊆ producer.plannedCapabilities.getD []
  attachments : child.attachments ⊆ producer.attachments
  readRoots : child.readRoots ⊆ producer.readRoots

variable {child child' : BodyNode} {scope : Scope} {locals : List Text} {node item : GraphNode}
  {deep : Nat → Bool} {checks : FragmentChecks} {document : GraphDocument} {addition : Addition}
  {patch : FinalPatch} {view : SourceBinding → SourceBinding}

/-- A change of other fields. -/
lemma Narrowed.of_eq {producer : BodyNode} (h : Narrowed view producer child)
    (role : child'.role = child.role) (source : child'.source = child.source)
    (capabilities : child'.capabilities = child.capabilities)
    (attachments : child'.attachments = child.attachments)
    (readRoots : child'.readRoots = child.readRoots) : Narrowed view producer child' := by
  refine ⟨?_, ?_, ?_, ?_, ?_⟩
  · rw [role]; exact h.role
  · rw [source]; exact h.source
  · rw [capabilities]; exact h.capabilities
  · rw [attachments]; exact h.attachments
  · rw [readRoots]; exact h.readRoots

/-! ### Preparation -/

/-- Every node of an authored tree satisfies a predicate. -/
inductive AuthoredNode.All (p : BodyNode → Prop) : AuthoredNode → Prop
  | leaf {fields : BodyNode} (h : p fields) : All p (.leaf fields)
  | composite {fields : BodyNode} {spec : CompositeSpec} {nodes : List AuthoredNode} (h : p fields)
      (members : ∀ node ∈ nodes, All p node) : All p (.composite fields spec nodes)
  | loop {fields : BodyNode} {untilGate : Text} {maxRounds : Nat} {repair : Bool}
      {body : List AuthoredNode} (h : p fields) (members : ∀ node ∈ body, All p node) :
      All p (.loop fields untilGate maxRounds repair body)

variable {producer : BodyNode} {spec : PlanSpec} {branch : Option Text}

/-- The checks on an untrusted node. -/
lemma narrowed_of_checkAuthority (h : checkAuthority producer child = .ok child') :
    Narrowed view producer child' := by
  have bindings : ∀ name, checkAuthority.checkBindings producer child name = .ok child' →
      (child.role = none ∨ child.role = producer.role) → Narrowed view producer child' := by
    intro name h role
    unfold checkAuthority.checkBindings at h
    split at h
    · cases h
    next source =>
      split at h
      · cases h
      next capabilities =>
        split at h
        · cases h
        next attachments =>
          split at h
          · cases h
          next readRoots =>
            cases h
            refine ⟨role, ?_, ?_, ?_, ?_⟩
            · cases hs : child.source with
              | none => exact .inl rfl
              | some _ =>
                have same : producer.source = child.source := by simpa [hs] using source
                exact .inr (by rw [same, hs])
            · intro capability hc
              simpa using find?_eq_none.1 capabilities capability hc
            · intro path hp
              simpa using fun absent => attachments (List.any_eq_true.2 ⟨path, hp, absent⟩)
            · intro root hr
              simpa using find?_eq_none.1 readRoots root hr
  unfold checkAuthority at h
  split at h
  next role hrole =>
    split at h
    · cases h
    next same =>
      exact bindings _ h (.inr (by rw [hrole]; simpa using Eq.symm (not_not.1 same)))
  next hrole =>
    exact bindings _ h (.inl hrole)

lemma narrowed_prepareFields (h : prepareFields producer spec false child = .ok child') :
    Narrowed view producer child' := by
  unfold prepareFields at h
  cases hc : checkAuthority producer { child with
      requireSkillLocation := child.requireSkillLocation || producer.requireSkillLocation } with
  | error message => simp [hc, Except.bind] at h
  | ok checked =>
    simp only [hc, Except.bind, Bool.false_eq_true, if_false] at h
    split at h
    · cases h
    · cases h
      exact narrowed_of_checkAuthority hc

/-- The preparation of the work changes the prompt, the route and the delivery only. -/
lemma narrowed_prepareWork {trusted nested isComposite : Bool}
    (h : prepareWork branch trusted nested isComposite child = .ok child')
    (narrowed : Narrowed view producer child) : Narrowed view producer child' := by
  have route : ∀ {node : BodyNode}, Narrowed view producer node →
      Narrowed view producer (defaultRoute node) := by
    intro node hn
    unfold defaultRoute
    split
    · exact hn.of_eq rfl rfl rfl rfl rfl
    · exact hn
  unfold prepareWork at h
  split at h
  · split at h
    · cases h
    · cases h
      exact route narrowed
  · cases ha : prepareAgent child with
    | error _ => simp [ha, Except.bind] at h
    | ok agent =>
      have prepared : Narrowed view producer agent := by
        unfold prepareAgent at ha
        split at ha
        · cases ha
          exact narrowed
        · split at ha
          · cases ha
          · cases ha
            exact route (narrowed.of_eq rfl rfl rfl rfl rfl)
      simp only [ha, Except.bind] at h
      unfold prepareDelivery at h
      split at h
      · cases h
      · split at h
        · split at h
          · cases h
          · split at h <;> cases h
            · exact prepared.of_eq rfl rfl rfl rfl rfl
            · exact prepared
        · cases h
          exact prepared

section Trees

mutual

/-- The preparation of an untrusted tree refuses whatever would widen authority. -/
theorem confined_prepareNested {nested : Bool} : ∀ {node node' : AuthoredNode},
    prepareNested producer spec branch false nested node = .ok node' → node'.All (Narrowed view producer)
  | .leaf fields, node', h => by
    obtain ⟨work, hw, rfl⟩ := map_eq_ok h
    obtain ⟨child, hf, hw⟩ := bind_eq_ok.1 hw
    exact .leaf (narrowed_prepareWork hw (narrowed_prepareFields hf))
  | .composite fields composite nodes, node', h => by
    obtain ⟨child, hf, h⟩ := bind_eq_ok.1 h
    obtain ⟨members, hm, h⟩ := bind_eq_ok.1 h
    obtain ⟨work, hw, rfl⟩ := map_eq_ok h
    exact .composite (narrowed_prepareWork hw (narrowed_prepareFields hf))
      (confined_prepareMembers hm)
  | .loop fields untilGate maxRounds repair nodes, node', h => by
    obtain ⟨child, hf, h⟩ := bind_eq_ok.1 h
    obtain ⟨_, hm, h⟩ := bind_eq_ok.1 h
    obtain ⟨work, hw, rfl⟩ := map_eq_ok h
    exact .loop (narrowed_prepareWork hw (narrowed_prepareFields hf))
      (confined_prepareMembers hm)

theorem confined_prepareMembers : ∀ {nodes nodes' : List AuthoredNode},
    prepareMembers producer spec branch false nodes = .ok nodes' →
      ∀ node ∈ nodes', node.All (Narrowed view producer)
  | [], nodes', h => by
    cases h
    simp
  | node :: rest, nodes', h => by
    obtain ⟨_, hn, h⟩ := bind_eq_ok.1 h
    obtain ⟨_, hm, rfl⟩ := map_eq_ok h
    rw [forall_mem_cons]
    exact ⟨confined_prepareNested hn, confined_prepareMembers hm⟩

end

end Trees

/-! ### Flattening -/

/-- What a scope hands down lies within the producer. -/
structure Scope.Narrowed (producer : BodyNode) (scope : Scope) : Prop where
  source : SourceWithin .forget producer scope.source
  attachments : scope.attachments ⊆ producer.attachments
  readRoots : scope.readRoots ⊆ producer.readRoots

lemma foldl_addName_subset {names more bound : List Text} (h : names ⊆ bound) (h' : more ⊆ bound) :
    more.foldl addName names ⊆ bound := by
  refine foldlRecOn (motive := (· ⊆ bound)) more addName h fun _ known name member => ?_
  unfold addName
  split
  · exact known
  · exact append_subset.2 ⟨known, cons_subset.2 ⟨h' member, nil_subset _⟩⟩

lemma sourceWithin_bindSource {source : Option SourceBinding} (h : SourceWithin .forget producer source) :
    SourceWithin .forget producer (source.map (scope.bindSource locals)) := by
  refine h.map fun binding => ?_
  cases binding with
  | node =>
    simp only [Scope.bindSource]
    split <;> rfl
  | head | commit | integration => rfl

/-- A member stays within the producer if its scope does. -/
lemma narrowed_bind {original node : BodyNode} (h : scope.bind locals original = some node)
    (narrowed : Narrowed .forget producer original) (inherited : scope.Narrowed producer) :
    Narrowed .forget producer node := by
  obtain ⟨dependsOn, -, h⟩ := bind_eq_some_iff.1 h
  have bound : Narrowed .forget producer (scope.bindNames locals original dependsOn) :=
    ⟨narrowed.role, sourceWithin_bindSource narrowed.source, narrowed.capabilities,
      narrowed.attachments, narrowed.readRoots⟩
  have parents : ∀ {b : Bool}, Narrowed .forget producer
      (if b then scope.inheritParents (scope.bindNames locals original dependsOn)
        else scope.bindNames locals original dependsOn) := by
    intro b
    cases b with
    | true => exact bound.of_eq rfl rfl rfl rfl rfl
    | false => exact bound
  have sourced : ∀ {node : BodyNode}, Narrowed .forget producer node →
      Narrowed .forget producer (scope.inheritSource node) := by
    intro node hn
    unfold Scope.inheritSource
    split
    · exact hn
    · exact ⟨hn.role, inherited.source, hn.capabilities, hn.attachments, hn.readRoots⟩
  have reads : ∀ {node : BodyNode}, Narrowed .forget producer node →
      Narrowed .forget producer (scope.inheritReads node) := fun hn =>
    ⟨hn.role, hn.source, hn.capabilities,
      foldl_addName_subset hn.attachments inherited.attachments,
      foldl_addName_subset hn.readRoots inherited.readRoots⟩
  simp only [ite_none_right_eq_some, some.injEq] at h
  obtain ⟨-, rfl⟩ := h
  exact reads (sourced parents)

lemma Narrowed.inner {node : BodyNode} (h : Narrowed .forget producer node) (scope : Scope)
    (locals : List Text) : (scope.inner locals node).Narrowed producer :=
  ⟨h.source, h.attachments, h.readRoots⟩

lemma Narrowed.body {node : BodyNode} (h : Narrowed .forget producer node) (scope : Scope)
    (locals : List Text) : (scope.body locals node).Narrowed producer :=
  ⟨.inl rfl, h.attachments, nil_subset _⟩

/-- The boundary of a composite binds nothing. -/
lemma Narrowed.boundary {node : BodyNode} (h : Narrowed .forget producer node) (spec : CompositeSpec)
    (members : List Text) : Narrowed .forget producer (boundary node spec members).toBodyNode :=
  ⟨h.role, .inl rfl, h.capabilities, nil_subset _, nil_subset _⟩

/-- A node of a flattened document and the body of its loop lie within the producer. -/
structure NarrowedNode (producer : BodyNode) (node : GraphNode) : Prop where
  own : Narrowed .forget producer node.toBodyNode
  body : ∀ spec ∈ node.loopBody, ∀ child ∈ spec.body, Narrowed .forget producer child

mutual

/-- Flattening hands down nothing that the producer does not hold. -/
theorem narrowed_flattenNode {scope : Scope} {locals : List Text} :
    ∀ {node : AuthoredNode} {flat : List GraphNode},
      flattenNode deep scope locals node = some flat → node.All (Narrowed .forget producer) →
        scope.Narrowed producer → ∀ item ∈ flat, NarrowedNode producer item
  | .leaf fields, flat, h, .leaf narrowed, inherited => by
    obtain ⟨node, hb, h⟩ := bind_eq_some_iff.1 h
    split at h
    · cases h
    · cases h
      rw [forall_mem_singleton]
      exact ⟨narrowed_bind hb narrowed inherited, by simp⟩
  | .composite fields spec nodes, flat, h, .composite narrowed members, inherited => by
    obtain ⟨node, hb, h⟩ := bind_eq_some_iff.1 h
    have own := narrowed_bind hb narrowed inherited
    split at h
    · obtain ⟨inner, hi, rfl⟩ := map_eq_some_iff.1 h
      intro item hitem
      rcases mem_append.1 hitem with hm | hm
      · exact narrowed_flattenList hi members (own.inner scope locals) item hm
      · rw [mem_singleton.1 hm]
        exact ⟨own.boundary _ _, by simp [boundary]⟩
    · cases h
  | .loop fields untilGate maxRounds repair nodes, flat, h, .loop narrowed members, inherited => by
    obtain ⟨node, hb, h⟩ := bind_eq_some_iff.1 h
    have own := narrowed_bind hb narrowed inherited
    split at h
    · obtain ⟨body, hi, h⟩ := bind_eq_some_iff.1 h
      split at h
      · cases h
        rw [forall_mem_singleton]
        refine ⟨own, ?_⟩
        simp only [mem_def, some.injEq, forall_eq', List.forall_mem_map]
        intro child hc
        exact (narrowed_flattenList hi members (own.body scope locals) child hc).own
      · cases h
    · cases h

theorem narrowed_flattenList {scope : Scope} {locals : List Text} :
    ∀ {nodes : List AuthoredNode} {flat : List GraphNode},
      flattenList deep scope locals nodes = some flat →
        (∀ node ∈ nodes, node.All (Narrowed .forget producer)) → scope.Narrowed producer →
          ∀ item ∈ flat, NarrowedNode producer item
  | [], flat, h, _, _ => by
    cases h
    simp
  | node :: rest, flat, h, members, inherited => by
    obtain ⟨first, hf, h⟩ := bind_eq_some_iff.1 h
    obtain ⟨_, ho, rfl⟩ := map_eq_some_iff.1 h
    rw [forall_mem_cons] at members
    rw [forall_mem_append]
    exact ⟨narrowed_flattenNode hf members.1 inherited, narrowed_flattenList ho members.2 inherited⟩

end

/-! ### Rounds and renaming -/

/-- The rounds of a loop bind what its body binds. -/
lemma narrowed_unroll {spec : LoopSpec} {rounds : Nat} (h : NarrowedNode producer node)
    (loop : node.loopBody = some spec) (hitem : item ∈ unroll node spec rounds) :
    Narrowed .forget producer item.toBodyNode := by
  rcases mem_append.1 hitem with hm | hm
  · obtain ⟨round, -, hm⟩ := mem_flatMap.1 hm
    obtain ⟨child, hc, rfl⟩ := List.mem_map.1 hm
    have body := h.body spec loop child hc
    refine ⟨body.role, ?_, body.capabilities, body.attachments, body.readRoots⟩
    have source := body.source
    simp only [roundNode]
    cases hs : child.source with
    | none => exact .inl rfl
    | some binding =>
      rw [hs] at source
      cases binding with
      | node | head | commit | integration => exact .inr (source.resolve_left nofun)
  · rw [mem_singleton.1 hm]
    exact h.own.of_eq rfl rfl rfl rfl rfl

/-- The nodes that a node of a fragment expands into, before the graph names them. -/
def expandedNodes (node : GraphNode) : List GraphNode :=
  (match node.loopBody with
    | some spec => unroll node spec (allowance node [])
    | none => [node]).map defaultLeafRoute

lemma narrowed_expandedNodes (h : NarrowedNode producer node) (hitem : item ∈ expandedNodes node) :
    Narrowed .forget producer item.toBodyNode := by
  have route : ∀ {inner : GraphNode}, Narrowed .forget producer inner.toBodyNode →
      Narrowed .forget producer (defaultLeafRoute inner).toBodyNode := by
    intro inner hn
    unfold defaultLeafRoute defaultRoute
    split
    · split
      · exact hn.of_eq rfl rfl rfl rfl rfl
      · exact hn
    · exact hn
  obtain ⟨inner, hinner, rfl⟩ := List.mem_map.1 hitem
  refine route ?_
  cases hl : node.loopBody with
  | none =>
    rw [hl] at hinner
    rw [mem_singleton.1 hinner]
    exact h.own
  | some _ =>
    rw [hl] at hinner
    exact narrowed_unroll h hl hinner

lemma narrowed_joinFragment {rename : Text → Text} {planner : Option Text}
    (h : Narrowed .forget producer node.toBodyNode) :
    Narrowed .forget producer (joinFragment rename planner node).toBodyNode := by
  refine ⟨h.role, h.source.map fun binding => ?_, h.capabilities, h.attachments, h.readRoots⟩
  cases binding <;> rfl

/-! ### Units of a fragment -/

/-- The unit expands into the node, when it is flattened among `locals`. -/
def Yields (checks : FragmentChecks) (locals : List Text) (unit : AuthoredNode)
    (node : GraphNode) : Prop :=
  ∃ flat, flattenNode checks.deep {} locals unit = some flat ∧
    ∃ item ∈ flat, node ∈ expandedNodes item

/-- A list is flattened unit by unit. -/
lemma mem_flattenList {nodes : List AuthoredNode} {flat : List GraphNode}
    (h : flattenList deep scope locals nodes = some flat) (hitem : item ∈ flat) :
    ∃ unit ∈ nodes, ∃ part, flattenNode deep scope locals unit = some part ∧ item ∈ part := by
  induction nodes generalizing flat with
  | nil =>
    cases h
    cases hitem
  | cons node _ ih =>
    obtain ⟨first, hf, h⟩ := bind_eq_some_iff.1 h
    obtain ⟨_, ho, rfl⟩ := map_eq_some_iff.1 h
    rcases mem_append.1 hitem with hm | hm
    · exact ⟨node, mem_cons_self, first, hf, hm⟩
    · obtain ⟨unit, hu, part, hp, hi⟩ := ih ho hm
      exact ⟨unit, mem_cons_of_mem _ hu, part, hp, hi⟩

/-- Every node of a planner's fragment is what one of its units expands into. -/
lemma yields_of_localNodes {nodes : List AuthoredNode} {own : List GraphNode}
    (h : localNodes checks document true nodes = some own) (hnode : node ∈ own) :
    ∃ unit ∈ nodes, Yields checks (authoredIds nodes) unit node := by
  simp only [localNodes, externalNames, if_true, map_nil, append_nil,
    bind_eq_some_iff, map_eq_some_iff, contains_nil, Bool.not_false,
    filter_true] at h
  obtain ⟨_, ht, _, he, _, ho, rfl⟩ := h
  have mem := (checks.perm _ _ ho).mem_iff.1 hnode
  obtain ⟨raw, hraw, rfl⟩ := List.mem_map.1 mem
  unfold expandLoops at he
  split at he
  · cases he
    obtain ⟨item, hitem, hraw⟩ := mem_flatMap.1 hraw
    unfold flattenDocument at ht
    split at ht
    · obtain ⟨unit, hu, part, hp, hi⟩ := mem_flattenList ht hitem
      exact ⟨unit, hu, part, hp, item, hi, List.mem_map_of_mem hraw⟩
    · cases ht
  · cases he

/-- What an untrusted unit expands into lies within the producer. -/
lemma narrowed_of_yields {unit : AuthoredNode} (h : Yields checks locals unit node)
    (all : unit.All (Narrowed .forget producer)) : Narrowed .forget producer node.toBodyNode := by
  obtain ⟨flat, hf, item, hi, hnode⟩ := h
  have root : Scope.Narrowed producer {} := ⟨.inl rfl, nil_subset _, nil_subset _⟩
  exact narrowed_expandedNodes (narrowed_flattenNode hf all root item hi) hnode

/-! ### Additions keep authority -/

/-- The fields that make up the authority of a node. -/
def BodyNode.authority (node : BodyNode) :
    Option Text × Option SourceBinding × Option (List Text) × List Text × List Text × List Text :=
  (node.role, node.source, node.capabilities, node.attemptCapabilities, node.attachments,
    node.readRoots)

/-- The nodes have one name and one authority. -/
def Alike (node node' : GraphNode) : Prop :=
  node'.id = node.id ∧ node'.authority = node.authority

lemma Narrowed.of_authority (h : Narrowed view producer child)
    (same : child'.authority = child.authority) : Narrowed view producer child' := by
  simp only [BodyNode.authority, Prod.mk.injEq] at same
  obtain ⟨role, source, capabilities, -, attachments, readRoots⟩ := same
  exact h.of_eq role source capabilities attachments readRoots

lemma alike_joinAddition (source : Option GraphNode) (addition : Addition) (node : GraphNode) :
    Alike node (joinAddition source addition node) := by
  obtain ⟨_, _, _, _, _, same⟩ := rewired_joinAddition source addition node
  rw [same]
  exact ⟨rfl, rfl⟩

lemma Alike.trans {first second third : GraphNode} (h : Alike first second)
    (h' : Alike second third) : Alike first third :=
  ⟨h'.1.trans h.1, h'.2.trans h.2⟩

/-- A node after some replacements is one of them if it has one of their names. -/
lemma alike_placed {replaced : List GraphNode} (h : node.id ∈ ids replaced) :
    ∃ replacement ∈ replaced, Alike replacement (placed replaced node) := by
  unfold placed
  cases found : replaced.reverse.find? (·.id == node.id) with
  | none => exact absurd h (by simpa [ids] using found)
  | some replacement =>
    exact ⟨replacement, mem_reverse.1 (mem_of_find?_eq_some found), rfl, rfl⟩

/-- The nodes that the patch of an addition replaces. -/
def Addition.replaced (addition : Addition) : List GraphNode :=
  (addition.patch.map (·.replaced)).getD []

/-- Where a node of an extended document comes from: a replacement, or a node that was there or
was added and is not replaced. -/
lemma mem_append_nodes (h : node ∈ (append document addition).nodes) :
    (∃ replacement ∈ addition.replaced, Alike replacement node) ∨
      (node.id ∉ ids addition.replaced ∧
        ∃ before ∈ document.nodes ++ addition.nodes, Alike before node) := by
  have joined : ∀ {f : GraphNode → GraphNode} {source : Option GraphNode} {item : GraphNode},
      item ∈ document.nodes.map (joinAddition source addition) ++ addition.nodes.map f →
        (∀ added, Alike added (f added)) →
        ∃ before ∈ document.nodes ++ addition.nodes, Alike before item := by
    intro f source item hitem keeps
    rcases mem_append.1 hitem with hm | hm
    · obtain ⟨before, hb, rfl⟩ := List.mem_map.1 hm
      exact ⟨before, mem_append_left _ hb, alike_joinAddition source addition before⟩
    · obtain ⟨before, hb, rfl⟩ := List.mem_map.1 hm
      exact ⟨before, mem_append_right _ hb, keeps before⟩
  unfold append at h
  unfold Addition.replaced
  cases hp : addition.patch with
  | none =>
    rw [hp] at h
    exact .inr ⟨not_mem_nil, joined h fun _ => ⟨rfl, rfl⟩⟩
  | some record =>
    obtain ⟨read, restored⟩ := exists_restoreRounds addition
    simp only [hp, foldl_replaceNode, restored] at h
    obtain ⟨middle, hm, rfl⟩ := List.mem_map.1 h
    by_cases replaced : middle.id ∈ ids record.replaced
    · exact .inl (alike_placed replaced)
    · obtain ⟨item, hitem, rfl⟩ := List.mem_map.1 hm
      obtain ⟨before, hb, alike⟩ := joined hitem fun _ => ⟨rfl, rfl⟩
      rw [placed_of_not_mem replaced]
      exact .inr ⟨replaced, before, hb, alike⟩

/-- A node after further additions was there before them, or one of them added or replaced a
node of its name. -/
lemma mem_appendAll_nodes {final : GraphDocument} {seen : List (Text × Option Nat)}
    {later : List Addition} (h : appendAll document seen later = some final)
    (hnode : node ∈ final.nodes) :
    (∃ before ∈ document.nodes, Alike before node) ∨
      ∃ addition ∈ later, node.id ∈ ids addition.nodes ∨ node.id ∈ ids addition.replaced := by
  induction later generalizing document seen with
  | nil =>
    cases h
    exact .inl ⟨node, hnode, rfl, rfl⟩
  | cons addition _ ih =>
    rw [appendAll] at h
    split at h
    · rcases ih h with ⟨middle, hm, alike⟩ | ⟨other, ho, touched⟩
      · rcases mem_append_nodes hm with ⟨replacement, hr, alike'⟩ | ⟨-, before, hb, alike'⟩
        · refine .inr ⟨addition, mem_cons_self, .inr ?_⟩
          rw [alike.1, alike'.1]
          exact List.mem_map_of_mem hr
        · rcases mem_append.1 hb with hd | ha
          · exact .inl ⟨before, hd, alike'.trans alike⟩
          · refine .inr ⟨addition, mem_cons_self, .inl ?_⟩
            rw [alike.1, alike'.1]
            exact List.mem_map_of_mem ha
      · exact .inr ⟨other, mem_cons_of_mem _ ho, touched⟩
    · cases h

/-! ### Contributions -/

/-- The child is a node of a later plan of the document, and no later addition replaced it. -/
def Planned (document : GraphDocument) (child : GraphNode) : Prop :=
  ∃ seen later final plan, appendAll document seen later = some final ∧ Plans final plan ∧
    child ∈ plan.nodes ∧ ∀ addition ∈ later, child.id ∉ ids addition.replaced

/-- The child is a node of a plan, and it came with the fragment of a planner: one of the
fragment's units expanded into it, which is not an instance of a host template, or the fragment
put it in the place of a node that was there. -/
inductive Contributed (producer child : GraphNode) : Prop
  | added {checks : FragmentChecks} {document : GraphDocument} {generation : Option Nat}
      {patch : FinalPatch} {addition : Addition} {units : List AuthoredNode}
      {own : List GraphNode} {origin : GraphNode} (planner : producer.plan.isSome)
      (accepted : finalFragment checks document producer generation patch = some addition)
      (prepared : prepareAll producer.toBodyNode document.integrationBranch patch = .ok units)
      (expanded : localNodes checks document true units = some own) (member : origin ∈ own)
      (authored : ∀ compiled unit, (compiled, unit) ∈ patch.nodes.zip units →
        Yields checks (authoredIds units) unit origin → compiled.trusted = false)
      (name : child.id = fragmentName document producer.id [] (ids own) origin.id)
      (planned : Planned (append document addition) child)
  | replaced {checks : FragmentChecks} {document : GraphDocument} {generation : Option Nat}
      {patch : FinalPatch} {addition : Addition} (planner : producer.plan.isSome)
      (accepted : finalFragment checks document producer generation patch = some addition)
      (name : child.id ∈ ids addition.replaced) (existing : child.id ∈ ids document.nodes)
      (planned : Planned (append document addition) child)

variable {producer : GraphNode}

/-- What an accepted fragment of a planner consists of. -/
lemma finalFragment_eq_some {generation : Option Nat}
    (h : finalFragment checks document producer generation patch = some addition) :
    ∃ units, prepareAll producer.toBodyNode document.integrationBranch patch = .ok units ∧
      (units = [] ∧ addition.nodes = [] ∨
        flattenFragment checks document producer.id producer.plan.isSome units =
          some addition.nodes) ∧
      prepareReplaced producer.toBodyNode document patch = .ok addition.replaced := by
  obtain ⟨nodes, hn, h⟩ := bind_eq_some_iff.1 h
  obtain ⟨units, hu, hn⟩ := bind_eq_some_iff.1 hn
  obtain ⟨_, hr, h⟩ := bind_eq_some_iff.1 h
  split at h
  · cases h
  · cases h
    refine ⟨units, ?_, ?_, ?_⟩
    · exact toOption_eq_some hu
    · split at hn
      next empty =>
        cases hn
        exact .inl ⟨List.isEmpty_iff.1 empty, rfl⟩
      · exact .inr hn
    · exact toOption_eq_some hr

/-- The replacements of a planner lie within it. -/
lemma narrowed_prepareReplaced {replaced : List GraphNode} (planner : producer.plan.isSome)
    (h : prepareReplaced producer.toBodyNode document patch = .ok replaced) :
    ∀ node ∈ replaced, Narrowed view producer.toBodyNode node.toBodyNode := by
  obtain ⟨spec, hspec⟩ := isSome_iff_exists.1 planner
  simp only [prepareReplaced, hspec] at h
  intro node hnode
  obtain ⟨i, hi, rfl⟩ := getElem_of_mem hnode
  have pairs := forall₂_of_mapM_ok h
  have length := pairs.length_eq
  obtain ⟨prepared, hp, same⟩ := map_eq_ok (pairs.get (by omega) hi)
  rw [show replaced[i] = _ from same.symm]
  have all : prepared.All (Narrowed view producer.toBodyNode) := confined_prepareNested hp
  have fields : Narrowed view producer.toBodyNode prepared.fields := by
    cases all <;> assumption
  exact fields.of_eq rfl rfl rfl rfl rfl

/-- Where a planned node comes from, if the extended document has its name. -/
lemma Planned.origin {child : GraphNode} (h : Planned (append document addition) child)
    (named : child.id ∈ ids (document.nodes ++ addition.nodes)) :
    (ids (document.nodes ++ addition.nodes)).Nodup ∧
      ((∃ replacement ∈ addition.replaced, Alike replacement child) ∨
        (child.id ∉ ids addition.replaced ∧
          ∃ before ∈ document.nodes ++ addition.nodes, Alike before child)) := by
  obtain ⟨seen, later, final, plan, appended, plans, member, untouched⟩ := h
  have names : ids final.nodes =
      ids (document.nodes ++ addition.nodes) ++ later.flatMap fun a => ids a.nodes := by
    rw [ids_appendAll appended, ids_append, ids, ids, ids, map_append]
  have unique : (ids final.nodes).Nodup := (plans.perm.map _).nodup_iff.1 plan.nodup
  rw [names] at unique
  have split := nodup_append'.1 unique
  refine ⟨split.1, ?_⟩
  rcases mem_appendAll_nodes appended (plans.perm.mem_iff.1 member) with
    ⟨middle, hm, alike⟩ | ⟨other, ho, added | replaced⟩
  · rcases mem_append_nodes hm with ⟨replacement, hr, alike'⟩ | ⟨absent, before, hb, alike'⟩
    · exact .inl ⟨replacement, hr, alike'.trans alike⟩
    · exact .inr ⟨by rw [alike.1]; exact absent, before, hb, alike'.trans alike⟩
  · exact absurd (mem_flatMap.2 ⟨other, ho, added⟩) (split.2.2 named)
  · exact absurd replaced (untouched other ho)

/-- What an unvouched unit of a planner's fragment expands into lies within the planner. -/
lemma narrowed_of_authored {origin : GraphNode} {units : List AuthoredNode}
    {own : List GraphNode} (planner : producer.plan.isSome)
    (prepared : prepareAll producer.toBodyNode document.integrationBranch patch = .ok units)
    (expanded : localNodes checks document true units = some own) (member : origin ∈ own)
    (authored : ∀ compiled unit, (compiled, unit) ∈ patch.nodes.zip units →
      Yields checks (authoredIds units) unit origin → compiled.trusted = false) :
    Narrowed .forget producer.toBodyNode origin.toBodyNode := by
  obtain ⟨spec, hspec⟩ := isSome_iff_exists.1 planner
  simp only [prepareAll, hspec] at prepared
  obtain ⟨unit, hunit, yields⟩ := yields_of_localNodes expanded member
  have pairs := forall₂_of_mapM_ok prepared
  obtain ⟨i, hi, rfl⟩ := getElem_of_mem hunit
  have length := pairs.length_eq
  have hi' : i < patch.nodes.length := by omega
  have zipped : (patch.nodes[i], units[i]) ∈ patch.nodes.zip units := by
    rw [← getElem_zip (h := by simp; omega)]
    exact getElem_mem _
  have prepares := pairs.get hi' hi
  simp only [get_eq_getElem, authored _ _ zipped yields] at prepares
  exact narrowed_of_yields yields (confined_prepareNested prepares)

/-- The source names a node in the namespace of an author. -/
def SourceUnder (author : GraphNode) (source : Option SourceBinding) : Prop :=
  ∃ name ∈ source.bind (·.node?), under author.id <+: name

/-- The authored fields of a child lie within those of its planner. Its source is absent or the
planner's, or it names a node in the namespace of the planner. -/
structure Within (producer child : GraphNode) : Prop where
  narrowed : Narrowed .forget producer.toBodyNode child.toBodyNode
  source : child.source = none ∨ child.source = producer.source ∨ SourceUnder producer child.source

lemma Within.of_authority {child child' : GraphNode} (h : Within producer child)
    (same : child'.authority = child.authority) : Within producer child' := by
  refine ⟨h.narrowed.of_authority same, ?_⟩
  rw [show child'.source = child.source from congrArg (·.2.1) same]
  exact h.source

lemma within_prepareReplaced {replaced : List GraphNode} (planner : producer.plan.isSome)
    (h : prepareReplaced producer.toBodyNode document patch = .ok replaced) :
    ∀ node ∈ replaced, Within producer node := by
  intro node member
  refine ⟨narrowed_prepareReplaced planner h node member, ?_⟩
  have source := (@narrowed_prepareReplaced _ _ id _ _ planner h node member).source
  rw [SourceWithin, Option.map_id_apply, Option.map_id_apply] at source
  exact source.imp_right .inl

/-- A source in a planner's fragment names a node of the fragment. -/
lemma mem_ids_of_source {units : List AuthoredNode} {own : List GraphNode} {origin : GraphNode}
    {name : Text} (expanded : localNodes checks document true units = some own)
    (member : origin ∈ own) (named : name ∈ origin.source.bind (·.node?)) : name ∈ ids own := by
  simp only [localNodes, externalNames, if_true, map_nil, append_nil,
    bind_eq_some_iff, map_eq_some_iff, contains_nil, Bool.not_false, filter_true] at expanded
  obtain ⟨_, -, _, -, _, ordered, rfl⟩ := expanded
  have perm := checks.perm _ _ ordered
  have sources := List.all_eq_true.1 (checks.sourced _ _ ordered) origin (perm.mem_iff.1 member)
  have contained := (Option.all_eq_true _ _).1 sources name named
  exact (perm.map _).mem_iff.2 (contains_iff_mem.1 contained)

/-- A node of a planner's fragment lies within the planner after it is named in the graph. -/
lemma within_joinFragment {units : List AuthoredNode} {own : List GraphNode} {origin : GraphNode}
    (expanded : localNodes checks document true units = some own) (member : origin ∈ own)
    (narrowed : Narrowed .forget producer.toBodyNode origin.toBodyNode) :
    Within producer (joinFragment (fragmentName document producer.id [] (ids own))
      (some producer.id) origin) := by
  refine ⟨narrowed_joinFragment narrowed, ?_⟩
  have source := narrowed.source
  simp only [joinFragment]
  cases found : origin.source with
  | none => exact .inl rfl
  | some binding =>
    rw [found] at source
    cases named : binding.node? with
    | none =>
      obtain ⟨kept, same, forgotten⟩ := map_eq_some_iff.1 (source.resolve_left nofun).symm
      obtain rfl := SourceBinding.eq_of_forget named forgotten.symm
      rw [same]
      refine .inr (.inl ?_)
      cases binding with
      | node | head => cases named
      | commit | integration => rfl
    | some name =>
      have bound : name ∈ origin.source.bind (·.node?) := by simp [found, named]
      have known := mem_ids_of_source expanded member bound
      have moved : fragmentName document producer.id [] (ids own) name =
          under producer.id ++ name := by
        simp [fragmentName, known]
      refine .inr (.inr ⟨under producer.id ++ name, ?_, prefix_append _ _⟩)
      cases binding <;> cases named <;> simp [SourceBinding.rename, SourceBinding.node?, moved]

/-- A child came with a planner's fragment, so it lies within the planner. -/
lemma within_of_contributed {child : GraphNode} (h : Contributed producer child) :
    Within producer child := by
  cases h with
  | replaced planner accepted name existing planned =>
    rename_i checks document generation patch addition
    obtain ⟨units, -, -, hreplaced⟩ := finalFragment_eq_some accepted
    have named : child.id ∈ ids (document.nodes ++ addition.nodes) := by
      rw [ids, map_append]
      exact mem_append_left _ existing
    rcases (planned.origin named).2 with ⟨replacement, hr, alike⟩ | ⟨absent, -⟩
    · exact (within_prepareReplaced planner hreplaced replacement hr).of_authority alike.2
    · exact absurd name absent
  | added planner accepted prepared expanded member authored name planned =>
    rename_i checks document generation patch addition units own origin
    obtain ⟨_, prepared', fragment, hreplaced⟩ := finalFragment_eq_some accepted
    cases prepared.symm.trans prepared'
    have narrowed := narrowed_of_authored planner prepared expanded member authored
    have nodes : addition.nodes = own.map (joinFragment
        (fragmentName document producer.id [] (ids own)) (some producer.id)) := by
      rcases fragment with ⟨rfl, -⟩ | flattened
      · obtain ⟨unit, hunit, -⟩ := yields_of_localNodes expanded member
        cases hunit
      · rw [planner] at flattened
        simp only [flattenFragment, expanded, map_some, externalNames, if_true,
          some.injEq] at flattened
        exact flattened.symm
    let joined := joinFragment (fragmentName document producer.id [] (ids own))
      (some producer.id) origin
    have hjoined : joined ∈ document.nodes ++ addition.nodes := by
      rw [nodes]
      exact mem_append_right _ (List.mem_map_of_mem member)
    have joinedName : child.id = joined.id := name
    have named : child.id ∈ ids (document.nodes ++ addition.nodes) := by
      rw [joinedName]
      exact List.mem_map_of_mem hjoined
    obtain ⟨unique, ⟨replacement, hr, alike⟩ | ⟨-, before, hb, alike⟩⟩ := planned.origin named
    · exact (within_prepareReplaced planner hreplaced replacement hr).of_authority alike.2
    · have same : before = joined :=
        inj_on_of_nodup_map unique hb hjoined (alike.1.symm.trans joinedName)
      rw [same] at alike
      exact (within_joinFragment expanded member narrowed).of_authority alike.2

/-- What a planner without templates may do. -/
def plainPlan : PlanSpec :=
  { templates := [], maxNodes := 4, wireExports := false, fallback := none
    plannedReview := false, reviewMinSuccessful := none }

/-- A planner that starts from another node, may read one directory and holds one capability. -/
def plannerNode : GraphNode :=
  { id := text "plan", dependsOn := [text "brief"], source := some (.node (text "brief"))
    plan := some plainPlan, capabilities := some [text "git"], readRoots := [text "/granted"]
    routes := [seniorRoute] }

def planDocument : GraphDocument :=
  { graphId := text "planned", nodes := [{ id := text "brief", routes := [seniorRoute] }, plannerNode] }

/-- A task that asks for what the planner holds. -/
def modestTask : BodyNode :=
  { id := text "step", capabilities := some [text "git"], readRoots := [text "/granted"]
    prompt := text "go", acceptanceChecks := [text "it works"], routes := [seniorRoute] }

/-- A task whose attempt settings ask for more than the planner holds. -/
def greedyTask : BodyNode :=
  { modestTask with
    id := text "greedy", capabilities := none, attemptCapabilities := [text "postgres"] }

/-- A planner under the planner, which repeats its source. The fragment has a task of that name. -/
def nextTask : BodyNode :=
  { modestTask with
    id := text "next", dependsOn := [text "brief"], source := some (.node (text "brief"))
    plan := some plainPlan }

/-- A fragment of tasks that no template vouches for. -/
def taskPatch (tasks : List BodyNode) : FinalPatch :=
  { nodes := tasks.map fun task => { node := .leaf task, trusted := false }
    replaced := [], skipped := [], reason := none }

/-- What such a fragment adds to the graph. -/
def taskAddition (producer : Text) (nodes : List GraphNode) : Addition :=
  { source := producer, nodes, finalResult := true
    patch := some { parent := some producer, reason := none, skipped := [], replaced := [] } }

/-- A task with the prompt that it is launched with. -/
def promptedTask (task : BodyNode) : BodyNode :=
  { task with prompt := text "go\n\nAcceptance checks:\nit works" }

/-- The tasks of the planner. -/
def planTasks : List BodyNode := [{ modestTask with id := text "brief" }, greedyTask, nextTask]

/-- The greedy task, the second planner and its task in the graph. -/
def greedyNode : GraphNode :=
  { toBodyNode := { promptedTask greedyTask with
      id := text "plan--greedy", dependsOn := [text "plan"] } }

def nextNode : GraphNode :=
  { toBodyNode := { promptedTask nextTask with
      id := text "plan--next", dependsOn := [text "plan--brief"]
      source := some (.node (text "plan--brief")) } }

def stepNode : GraphNode :=
  { toBodyNode := { promptedTask modestTask with
      id := text "plan--next--step", dependsOn := [text "plan--next"] } }

/-- What the planner adds. -/
def planAddition : Addition :=
  taskAddition (text "plan") [
    { toBodyNode := { promptedTask modestTask with
        id := text "plan--brief", dependsOn := [text "plan"] } }, greedyNode, nextNode]

/-- The plan with what the planner added, and with the task of the second planner too. -/
def tasksPlan : PlannedGraph :=
  { graphId := text "planned", nodes := planDocument.nodes ++ planAddition.nodes }

def stepPlan : PlannedGraph :=
  { graphId := text "planned", nodes := tasksPlan.nodes ++ [stepNode] }

def tasksDocument : GraphDocument := { planDocument with nodes := tasksPlan.nodes }

/-- An accepted task of a planner is a contribution. -/
lemma contributed_task {document : GraphDocument} {producer child origin : GraphNode}
    {tasks : List BodyNode} {addition : Addition} {own : List GraphNode} {plan : PlannedGraph}
    (planner : producer.plan.isSome)
    (accepted : finalFragment acceptAll document producer none (taskPatch tasks) = some addition)
    (prepared : prepareAll producer.toBodyNode document.integrationBranch (taskPatch tasks) =
      .ok (tasks.map fun task => .leaf (promptedTask task)))
    (expanded : localNodes acceptAll document true (tasks.map fun task => .leaf (promptedTask task)) =
      some own) (member : origin ∈ own)
    (name : child.id = fragmentName document producer.id [] (ids own) origin.id)
    (plans : Plans (append document addition) plan) (planned : child ∈ plan.nodes) :
    Contributed producer child := by
  refine .added planner accepted prepared expanded member (fun compiled unit zipped _ => ?_) name
    ⟨[], [], _, plan, rfl, plans, planned, by simp⟩
  obtain ⟨task, -, rfl⟩ := List.mem_map.1 (of_mem_zip zipped).1
  rfl

/-- Tasks as nodes, before they are named in the graph. -/
def ownNodes (tasks : List BodyNode) : List GraphNode :=
  tasks.map fun task => { toBodyNode := promptedTask task }

lemma contributed_greedyNode : Contributed plannerNode greedyNode :=
  @contributed_task planDocument plannerNode greedyNode _ planTasks planAddition (ownNodes planTasks)
    tasksPlan rfl (by decide +kernel) rfl (by decide +kernel) (mem_of_getElem? (i := 1) rfl) rfl
    ⟨rfl, rfl, rfl, .refl _⟩ (mem_of_getElem? (i := 3) rfl)

lemma contributed_nextNode : Contributed plannerNode nextNode :=
  @contributed_task planDocument plannerNode nextNode _ planTasks planAddition (ownNodes planTasks)
    tasksPlan rfl (by decide +kernel) rfl (by decide +kernel) (mem_of_getElem? (i := 2) rfl) rfl
    ⟨rfl, rfl, rfl, .refl _⟩ (mem_of_getElem? (i := 4) rfl)

lemma contributed_stepNode : Contributed nextNode stepNode :=
  @contributed_task tasksDocument nextNode stepNode _ [modestTask]
    (taskAddition nextNode.id [stepNode]) (ownNodes [modestTask]) stepPlan rfl (by decide +kernel) rfl
    (by decide +kernel) (mem_of_getElem? (i := 0) rfl) rfl ⟨rfl, rfl, rfl, .refl _⟩
    (mem_of_getElem? (i := 5) rfl)

/-- A lane without a plan specification, which may read nothing and holds no capability. -/
def laneNode : GraphNode := { id := text "lane", routes := [seniorRoute] }

def laneDocument : GraphDocument := { graphId := text "lane", nodes := [laneNode] }

/-- The modest task as a contribution of the lane. -/
def laneTask : GraphNode := { toBodyNode := { modestTask with id := text "lane--step" } }

end Provenant.Graph

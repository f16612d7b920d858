import Provenant.Graph.Driver

/-!
# Loops grow monotonically

An accepted extension raises the rounds that a loop may take. The plan is then derived again from
the document, under the greater allowance, and the rows follow it. A round is named and wired by
its own number only, so the rounds that were admitted before are the same nodes under the greater
allowance, and their rows stay as they are.

## Main definitions

* `SameUnless` — two nodes are the same, unless they are the boundary of a loop.
* `Grows` — the nodes of one document are those of another, and rounds that are new.
* `FitsPlan` — the rows of a checkpoint are those of a plan.

## Main results

* `grows_expand` — greater allowances only add rounds to the expanded document.
* `loop_growth` — the nodes and the rows of the admitted rounds stay when a loop grows.
-/

namespace Provenant.Graph

open List GraphCheckpoint

open Json (Text text decimal)

/-! ### Growing lists of nodes -/

/-- The loops of a document. -/
def loopIds (document : GraphDocument) : List Text :=
  ids (document.nodes.filter (·.loopBody.isSome))

/-- `id` names a node in a round that only the second allowance admits. -/
def NewRound (document : GraphDocument) (extensions extensions' : List Extension) (id : Text) :
    Prop :=
  ∃ loop ∈ document.nodes, ∃ spec, loop.loopBody = some spec ∧ ∃ round, ∃ child ∈ spec.body,
    allowance loop extensions < round ∧ round ≤ allowance loop extensions' ∧
      id = roundId loop.id round child.id

/-- Two nodes of one identifier that are the same, unless they are the boundary of a loop; the
boundary may wait for another gate. -/
structure SameUnless (loops : List Text) (node node' : GraphNode) : Prop where
  id : node'.id = node.id
  plan : node'.plan = node.plan
  round : node'.round = node.round
  same : node.id ∉ loops → node' = node

/-- The nodes of the first list are in the second one, which has new identifiers besides. -/
structure Grows (loops : List Text) (new : Text → Prop) (nodes nodes' : List GraphNode) : Prop where
  kept : ∀ node ∈ nodes, ∃ node' ∈ nodes', SameUnless loops node node'
  added : ∀ node' ∈ nodes', node'.id ∈ ids nodes ∨ new node'.id

variable {loops : List Text} {new : Text → Prop} {nodes nodes' : List GraphNode}

lemma SameUnless.refl (node : GraphNode) : SameUnless loops node node :=
  ⟨rfl, rfl, rfl, fun _ => rfl⟩

variable {node node' : GraphNode} {plan : PlannedGraph} {checkpoint : GraphCheckpoint}

section Growth

variable (h : Grows loops new nodes nodes')
include h

/-- A change of every node, by functions that keep identifiers and treat the same nodes alike. -/
lemma Grows.map {f f' : GraphNode → GraphNode} (id : ∀ node, (f node).id = node.id)
    (id' : ∀ node, (f' node).id = node.id)
    (alike : ∀ node node', SameUnless loops node node' → SameUnless loops (f node) (f' node')) :
    Grows loops new (nodes.map f) (nodes'.map f') := by
  refine ⟨fun node member => ?_, fun node' member => ?_⟩
  · obtain ⟨node, origin, rfl⟩ := mem_map.1 member
    obtain ⟨node', member', same⟩ := h.kept node origin
    exact ⟨f' node', mem_map_of_mem member', alike node node' same⟩
  · obtain ⟨node', origin, rfl⟩ := mem_map.1 member
    have names : ids (nodes.map f) = ids nodes := by
      simp [ids, Function.comp_def, id]
    rw [names, id']
    exact h.added node' origin

/-- The same nodes are added to both. -/
lemma Grows.addNodes (more : List GraphNode) :
    Grows loops new (nodes ++ more) (nodes' ++ more) := by
  refine ⟨fun node member => ?_, fun node' member => ?_⟩
  · rcases mem_append.1 member with member | member
    · obtain ⟨node', member', same⟩ := h.kept node member
      exact ⟨node', mem_append_left _ member', same⟩
    · exact ⟨node, mem_append_right _ member, .refl node⟩
  · rcases mem_append.1 member with member | member
    · rcases h.added node' member with old | new
      · exact .inl (by rw [ids, map_append]; exact mem_append_left _ old)
      · exact .inr new
    · exact .inl (mem_map_of_mem (mem_append_right _ member))

/-- A node is found under its identifier in both lists, or in neither. -/
lemma Grows.find (nodup : (ids nodes').Nodup) {id : Text} (old : id ∈ ids nodes ∨ ¬ new id) :
    Option.Rel (SameUnless loops) (nodes.find? (·.id == id)) (nodes'.find? (·.id == id)) := by
  cases found : nodes.find? (·.id == id) with
  | some node =>
    obtain ⟨node', member', same⟩ := h.kept node (mem_of_find?_eq_some found)
    have named : node.id = id := by simpa using find?_some found
    cases found' : nodes'.find? (·.id == id) with
    | none =>
      have absent := find?_eq_none.1 found' node' member'
      simp [same.id, named] at absent
    | some other =>
      have named' : other.id = id := by simpa using find?_some found'
      have unique := inj_on_of_nodup_map nodup (mem_of_find?_eq_some found') member'
        (by rw [named', same.id, named])
      exact .some (unique ▸ same)
  | none =>
    have absent : id ∉ ids nodes := by
      intro member
      obtain ⟨node, origin, rfl⟩ := mem_map.1 member
      exact find?_eq_none.1 found node origin (beq_self_eq_true _)
    cases found' : nodes'.find? (·.id == id) with
    | none => exact .none
    | some other =>
      have named' : other.id = id := by simpa using find?_some found'
      rcases h.added other (mem_of_find?_eq_some found') with member | isNew
      · exact absurd (named' ▸ member) absent
      · exact absurd (named' ▸ isNew) (old.resolve_left absent)

lemma Grows.mem (member : node ∈ nodes) (outside : node.id ∉ loops) : node ∈ nodes' := by
  obtain ⟨node', member', same⟩ := h.kept node member
  rw [← same.same outside]
  exact member'

/-- A node of the second list that is no boundary is in the first one or new. -/
lemma Grows.mem_or_new (nodup : (ids nodes').Nodup) (member' : node' ∈ nodes')
    (outside : node'.id ∉ loops) : node' ∈ nodes ∨ new node'.id := by
  rcases h.added node' member' with old | isNew
  · obtain ⟨node, member, named⟩ := mem_map.1 old
    have same : node = node' :=
      inj_on_of_nodup_map nodup (h.mem member (named ▸ outside)) member' named
    exact .inl (same ▸ member)
  · exact .inr isNew

/-- Plans have the nodes of their documents. -/
lemma Grows.perm {planned planned' : List GraphNode} (perm : planned.Perm nodes)
    (perm' : planned'.Perm nodes') : Grows loops new planned planned' := by
  refine ⟨fun node member => ?_, fun node' member' => ?_⟩
  · obtain ⟨node', member', same⟩ := h.kept node (perm.mem_iff.1 member)
    exact ⟨node', perm'.mem_iff.2 member', same⟩
  · have names : node'.id ∈ ids planned ↔ node'.id ∈ ids nodes :=
      (perm.map fun node : GraphNode => node.id).mem_iff
    rw [names]
    exact h.added node' (perm'.mem_iff.1 member')

end Growth

/-! ### Additions treat the same nodes alike -/

/-- What an addition does to a node depends on the specification of its source only. -/
lemma joinAddition_congr {source source' : Option GraphNode} (addition : Addition)
    (plan : source'.bind (·.plan) = source.bind (·.plan)) :
    joinAddition source' addition = joinAddition source addition := by
  have exports : fragmentExports source' addition = fragmentExports source addition := by
    rw [fragmentExports, plan, fragmentExports]
  have review : reviewMinimum source' = reviewMinimum source := by
    rw [reviewMinimum, plan, reviewMinimum]
  have fallback : fallbackMinimum source' = fallbackMinimum source := by
    rw [fallbackMinimum, plan, fallbackMinimum]
  have composite : rewireComposite source' addition = rewireComposite source addition := by
    funext exported node
    simp only [rewireComposite, review, fallback]
  funext node
  simp only [joinAddition, exports, composite]

/-- An addition leaves the specification and the round of a node alone. -/
lemma joinAddition_frame (source : Option GraphNode) (addition : Addition) (node : GraphNode) :
    (joinAddition source addition node).plan = node.plan ∧
      (joinAddition source addition node).round = node.round := by
  obtain ⟨_, _, _, _, _, same⟩ := rewired_joinAddition source addition node
  rw [same]
  exact ⟨rfl, rfl⟩

lemma SameUnless.joinAddition (h : SameUnless loops node node') (source : Option GraphNode)
    (addition : Addition) :
    SameUnless loops (joinAddition source addition node) (joinAddition source addition node') := by
  obtain ⟨plan, round⟩ := joinAddition_frame source addition node
  obtain ⟨plan', round'⟩ := joinAddition_frame source addition node'
  refine ⟨?_, ?_, ?_, fun outside => ?_⟩
  · rw [id_joinAddition, id_joinAddition, h.id]
  · rw [plan, plan', h.plan]
  · rw [round, round', h.round]
  · rw [id_joinAddition] at outside
    rw [h.same outside]

/-- So does a patch, which restores rounds and then replaces nodes. -/
lemma SameUnless.placed (h : SameUnless loops node node') (replaced : List GraphNode) :
    SameUnless loops (placed replaced node) (placed replaced node') := by
  refine ⟨by rw [id_placed, id_placed, h.id], ?_, ?_, fun outside => ?_⟩
  · unfold Graph.placed
    rw [h.id]
    cases replaced.reverse.find? (·.id == node.id) with
    | none => exact h.plan
    | some _ => rfl
  · unfold Graph.placed
    rw [h.id]
    cases replaced.reverse.find? (·.id == node.id) <;> exact h.round
  · rw [h.same (id_placed replaced node ▸ outside)]

/-- An addition joins two documents of which one grows out of the other, and its source is not a
new round. -/
lemma Grows.join {document document' : GraphDocument} {addition : Addition}
    (h : Grows loops new document.nodes document'.nodes) (nodup : (ids document'.nodes).Nodup)
    (old : addition.source ∈ ids document.nodes ∨ ¬ new addition.source) :
    Grows loops new (append document addition).nodes (append document' addition).nodes := by
  obtain ⟨plan, round⟩ : (document'.nodes.find? (·.id == addition.source)).bind (·.plan) =
        (document.nodes.find? (·.id == addition.source)).bind (·.plan) ∧
      (document'.nodes.find? (·.id == addition.source)).bind (·.round) =
        (document.nodes.find? (·.id == addition.source)).bind (·.round) := by
    have source := h.find nodup old
    generalize document.nodes.find? (·.id == addition.source) = found at source ⊢
    generalize document'.nodes.find? (·.id == addition.source) = found' at source ⊢
    cases source with
    | none => exact ⟨rfl, rfl⟩
    | some same => exact ⟨same.plan, same.round⟩
  unfold Graph.append
  dsimp only
  rw [joinAddition_congr addition plan, round]
  have joined := (h.map (id_joinAddition _ addition) (id_joinAddition _ addition)
    fun node node' same => same.joinAddition (document.nodes.find? (·.id == addition.source))
      addition).addNodes (addition.nodes.map fun child =>
        { child with
          round := ((document.nodes.find? (·.id == addition.source)).bind (·.round)).map
            fun round => { round with isUntil := false, nodeId := child.id } })
  cases addition.patch with
  | none => exact joined
  | some record =>
    dsimp only
    obtain ⟨read, restored⟩ := exists_restoreRounds addition
    rw [restored, restored, foldl_replaceNode, foldl_replaceNode]
    refine Grows.map (joined.map ?_ ?_ ?_) (id_placed _) (id_placed _)
      fun node node' same => same.placed record.replaced
    · exact fun _ => rfl
    · exact fun _ => rfl
    · exact fun node node' same => ⟨same.id, same.plan, by rw [same.id, same.round],
        fun outside => by rw [same.same outside]⟩

/-! ### Greater allowances -/

section Expansion

variable {document : GraphDocument} {extensions extensions' : List Extension}

/-- The rounds of a loop are among those under a greater allowance, and the others are new. -/
lemma grows_unroll {spec : LoopSpec} (member : node ∈ document.nodes)
    (loop : node.loopBody = some spec)
    (smaller : allowance node extensions ≤ allowance node extensions') :
    Grows (loopIds document) (NewRound document extensions extensions')
      (unroll node spec (allowance node extensions))
      (unroll node spec (allowance node extensions')) := by
  have boundary : node.id ∈ loopIds document :=
    mem_map_of_mem (mem_filter.2 ⟨member, by rw [loop]; rfl⟩)
  refine ⟨fun item hitem => ?_, fun item hitem => ?_⟩
  · simp only [unroll, mem_append, mem_flatMap, mem_map, mem_range'_1, mem_singleton] at hitem ⊢
    rcases hitem with ⟨round, within, child, hchild, rfl⟩ | rfl
    · exact ⟨_, .inl ⟨round, ⟨within.1, by omega⟩, child, hchild, rfl⟩, .refl _⟩
    · exact ⟨_, .inr rfl, rfl, rfl, rfl, fun outside => absurd boundary outside⟩
  · rcases mem_ids_unroll.1 (mem_map_of_mem hitem) with same | ⟨round, child, h₁, h₂, hc, same⟩
    · rw [same]
      exact .inl (mem_ids_unroll.2 (.inl rfl))
    · rw [same]
      rcases Nat.lt_or_ge (allowance node extensions) round with beyond | within
      · exact .inr ⟨node, member, spec, loop, round, child, hc, beyond, h₂, rfl⟩
      · exact .inl (mem_ids_unroll.2 (.inr ⟨round, child, h₁, within, hc, rfl⟩))

/-- Lists that grow item by item. -/
lemma Grows.flatMap {nodes : List GraphNode} {f f' : GraphNode → List GraphNode}
    (each : ∀ node ∈ nodes, Grows loops new (f node) (f' node)) :
    Grows loops new (nodes.flatMap f) (nodes.flatMap f') := by
  refine ⟨fun item hitem => ?_, fun item hitem => ?_⟩
  · obtain ⟨node, member, hitem⟩ := mem_flatMap.1 hitem
    obtain ⟨item', hitem', same⟩ := (each node member).kept item hitem
    exact ⟨item', mem_flatMap.2 ⟨node, member, hitem'⟩, same⟩
  · obtain ⟨node, member, hitem⟩ := mem_flatMap.1 hitem
    rcases (each node member).added item hitem with old | isNew
    · obtain ⟨origin, horigin, same⟩ := mem_map.1 old
      exact .inl (mem_map.2 ⟨origin, mem_flatMap.2 ⟨node, member, horigin⟩, same⟩)
    · exact .inr isNew

/-- Greater allowances only add rounds to the unrolled document. -/
lemma grows_expandLoops {unrolled unrolled' : GraphDocument}
    (h : expandLoops document extensions = some unrolled)
    (h' : expandLoops document extensions' = some unrolled')
    (smaller : ∀ node ∈ document.nodes, allowance node extensions ≤ allowance node extensions') :
    Grows (loopIds document) (NewRound document extensions extensions')
      unrolled.nodes unrolled'.nodes := by
  unfold expandLoops at h h'
  split at h
  next admissible =>
    rw [if_pos admissible] at h'
    cases h
    cases h'
    refine Grows.flatMap fun node member => ?_
    cases loop : node.loopBody with
    | none =>
      exact ⟨fun item hitem => ⟨item, hitem, .refl item⟩,
        fun item hitem => .inl (mem_map_of_mem hitem)⟩
    | some _ => exact grows_unroll member loop (smaller node member)
  · cases h

/-- The name of a round is not empty. -/
lemma not_newRound_nil : ¬ NewRound document extensions extensions' [] := by
  rintro ⟨loop, -, spec, -, round, child, -, -, -, same⟩
  have parts : text "--r" = [] := by
    simp only [roundId, nil_eq, append_eq_nil_iff] at same
    exact same.1.1.1.2
  exact absurd parts (by decide)

/-- The same additions join two documents of which one grows out of the other. -/
lemma Grows.appendAll {before before' after after' : GraphDocument}
    {seen : List (Text × Option Nat)} {additions : List Addition}
    (h : Grows loops new before.nodes before'.nodes) (unnamed : ¬ new [])
    (nodup : (ids after'.nodes).Nodup) (joins : appendAll before seen additions = some after)
    (joins' : appendAll before' seen additions = some after') :
    Grows loops new after.nodes after'.nodes := by
  induction additions generalizing before before' seen with
  | nil =>
    cases joins
    cases joins'
    exact h
  | cons addition rest ih =>
    have names := ids_appendAll joins'
    rw [Graph.appendAll] at joins joins'
    split at joins
    next known =>
      split at joins'
      · refine ih (h.join ?_ ?_) joins joins'
        · rw [names] at nodup
          exact nodup.of_append_left
        · unfold sourced at known
          split at known
          · rcases Bool.or_eq_true _ _ ▸ known with empty | known
            · rw [List.isEmpty_iff.1 empty]
              exact .inr unnamed
            · obtain ⟨node, member, same⟩ := any_eq_true.1 known
              exact .inl (mem_map.2 ⟨node, member, by simpa using same⟩)
          · simp only [Bool.and_eq_true] at known
            obtain ⟨node, member, same⟩ := any_eq_true.1 known.2
            exact .inl (mem_map.2 ⟨node, member, by simpa using same⟩)
      · cases joins'
    · cases joins

/-- Greater allowances only add rounds to the expanded document. -/
theorem grows_expand {expansions : List Expansion} {expanded expanded' : GraphDocument}
    (smaller : ∀ node ∈ document.nodes, allowance node extensions ≤ allowance node extensions')
    (h : expand document extensions expansions = some expanded)
    (h' : expand document extensions' expansions = some expanded')
    (nodup : (ids expanded'.nodes).Nodup) :
    Grows (loopIds document) (NewRound document extensions extensions')
      expanded.nodes expanded'.nodes := by
  obtain ⟨_, unrolls, joins⟩ := Option.bind_eq_some_iff.1 h
  obtain ⟨_, unrolls', joins'⟩ := Option.bind_eq_some_iff.1 h'
  exact (grows_expandLoops unrolls unrolls' smaller).appendAll not_newRound_nil nodup joins joins'

end Expansion

/-! ### Boundaries -/

section Boundaries

variable {document expanded : GraphDocument} {extensions : List Extension}
  {expansions : List Expansion} {addition : Addition} {id : Text}

/-- There is a loop of an identifier among the nodes. -/
def HasLoop (nodes : List GraphNode) (id : Text) : Prop :=
  ∃ node ∈ nodes, node.id = id ∧ node.loopBody.isSome = true

/-- The live patches of a document replace its loops by loops only. -/
def LoopsStay (document : GraphDocument) (expansions : List Expansion) : Prop :=
  ∀ addition ∈ liveAdditions expansions, ∀ record ∈ addition.patch, ∀ node ∈ record.replaced,
    node.id ∈ loopIds document → node.loopBody.isSome = true

/-- The boundary comes after its rounds and is still a loop. -/
lemma hasLoop_expandLoops (h : expandLoops document extensions = some expanded)
    (loop : id ∈ loopIds document) : HasLoop expanded.nodes id := by
  obtain ⟨node, filtered, rfl⟩ := mem_map.1 loop
  obtain ⟨member, body⟩ := mem_filter.1 filtered
  obtain ⟨spec, same⟩ := Option.isSome_iff_exists.1 body
  unfold expandLoops at h
  split at h
  · cases h
    obtain ⟨last, placed, boundary⟩ : HasLoop (unroll node spec (allowance node extensions)) node.id :=
      ⟨_, mem_append_right _ (mem_singleton_self _), rfl, body⟩
    refine ⟨last, mem_flatMap.2 ⟨node, member, ?_⟩, boundary⟩
    rw [same]
    exact placed
  · cases h

/-- An addition rewires a loop, reads its round or replaces it by a loop. -/
lemma HasLoop.append (h : HasLoop document.nodes id)
    (stays : ∀ record ∈ addition.patch, ∀ node ∈ record.replaced, node.id = id →
      node.loopBody.isSome = true) : HasLoop (append document addition).nodes id := by
  obtain ⟨node, member, named, loop⟩ := h
  unfold Graph.append
  generalize (document.nodes.find? fun node => node.id == addition.source) = source
  obtain ⟨_, _, _, _, _, joined⟩ := rewired_joinAddition source addition node
  have member' := mem_map_of_mem (f := joinAddition source addition) member
  rw [joined] at member'
  cases record : addition.patch with
  | none => exact ⟨_, mem_append_left _ member', named, loop⟩
  | some edits =>
    obtain ⟨read, restored⟩ := exists_restoreRounds addition
    simp only [restored, foldl_replaceNode]
    refine ⟨_, mem_map_of_mem (mem_map_of_mem (mem_append_left _ member')), ?_, ?_⟩
    · rw [id_placed]
      exact named
    · unfold placed
      split
      next replacement found =>
        have same : replacement.id = node.id := by simpa using find?_some found
        exact stays edits record replacement (mem_reverse.1 (mem_of_find?_eq_some found))
          (same.trans named)
      · exact loop

/-- Every loop of a document is a loop of the expanded document. -/
lemma hasLoop_expand (h : expand document extensions expansions = some expanded)
    (stays : LoopsStay document expansions) (loop : id ∈ loopIds document) :
    HasLoop expanded.nodes id := by
  obtain ⟨unrolled, unrolls, joins⟩ := Option.bind_eq_some_iff.1 h
  have first := hasLoop_expandLoops unrolls loop
  clear unrolls h
  unfold LoopsStay at stays
  generalize liveAdditions expansions = additions at stays joins
  generalize ([] : List (Text × Option Nat)) = seen at joins
  -- induction on the additions, for any document that has the loop
  induction additions generalizing unrolled seen with
  | nil => exact Option.some.inj joins ▸ first
  | cons addition rest ih =>
    rw [appendAll] at joins
    split at joins
    · refine ih _ (first.append fun record edits node replaced named => ?_)
        (fun later member => stays later (mem_cons_of_mem _ member)) _ joins
      exact stays addition mem_cons_self record edits node replaced (named ▸ loop)
    · cases joins

/-- An admitted patch replaces no loop, since other nodes rest on the topology of a loop. -/
lemma LoopsStay.concat {checkpoint : GraphCheckpoint} (stays : LoopsStay document expansions)
    (expands : expand document extensions expansions = some expanded)
    (admissible : addition.Admissible expanded checkpoint) :
    LoopsStay document (expansions ++ [.live addition]) := by
  intro added member record edits node replaced loop
  simp only [liveAdditions, filterMap_append, mem_append] at member
  rcases member with old | new
  · exact stays added old record edits node replaced loop
  · cases mem_singleton.1 new
    obtain ⟨target, placed, named, body⟩ := hasLoop_expand expands stays loop
    have plain := (admissible.replaced record edits node replaced).2.2 target placed named
    simp [structural, body] at plain

end Boundaries

/-! ### Rows follow -/

/-- The rows of a checkpoint are those of a plan, as loading requires: one for each node in its
order, and the row of a composite has its members and its minimum. -/
structure FitsPlan (plan : PlannedGraph) (checkpoint : GraphCheckpoint) : Prop where
  ids : checkpoint.nodes.map (·.id) = plan.nodes.map (·.id)
  composites : ∀ node ∈ plan.nodes, ∀ composite, node.composite = some composite →
    ∀ row ∈ checkpoint.nodes, row.id = node.id →
      row.children = node.compositeMembers ∧ row.minSuccessful = composite.minSuccessful

/-- A row of an identifier is found if the identifiers are those of a plan. -/
lemma FitsPlan.row? (fits : FitsPlan plan checkpoint) {row : NodeProgress}
    (member : row ∈ checkpoint.nodes) : checkpoint.row? row.id = some row := by
  have nodup : (checkpoint.nodes.map (·.id)).Nodup := fits.ids ▸ plan.nodup
  cases found : checkpoint.row? row.id with
  | none => simp [GraphCheckpoint.row?] at found; exact absurd rfl (found row member)
  | some _ =>
    rw [inj_on_of_nodup_map nodup (mem_of_row? found) member (id_of_row? found)]

/-- Loops are not composites. -/
lemma PlannedGraph.composite_of_loop (member : node ∈ plan.nodes)
    (loop : node.loopBody.isSome = true) : node.composite = none := by
  have wellFormed := plan.wellFormed node member
  cases composite : node.composite with
  | none => rfl
  | some _ =>
    simp only [GraphNode.wellFormed, composite, loop, Option.isSome_some, Bool.and_eq_true,
      decide_eq_true_eq] at wellFormed
    have counted := wellFormed.1.1.2
    simp only [count_cons_self] at counted
    omega

/-- A row is aligned with itself: a composite has the members and the minimum that its row
records. -/
lemma FitsPlan.alignRow_eq (fits : FitsPlan plan checkpoint)
    (known : node.composite.isSome = true → node ∈ plan.nodes) {row : NodeProgress}
    (member : row ∈ checkpoint.nodes) (same : row.id = node.id) :
    alignRow checkpoint node = row := by
  unfold alignRow
  rw [← same, fits.row? member]
  cases composite : node.composite with
  | none => rfl
  | some spec =>
    have planned : node ∈ plan.nodes := known (by rw [composite]; rfl)
    obtain ⟨children, minimum⟩ := fits.composites node planned spec composite row member same
    dsimp only
    rw [← children, ← minimum]

/-- A node without a row gets one that is pending and has no attempts, also under an identifier
that was used before. -/
lemma alignRow_of_row?_none (absent : checkpoint.row? node.id = none) :
    (alignRow checkpoint node).state = .pending ∧ (alignRow checkpoint node).attempts = [] ∧
      (alignRow checkpoint node).id ∉ checkpoint.nodes.map (·.id) := by
  have fresh : alignRow checkpoint node = rebind checkpoint.expansions (freshRow node) := by
    rw [alignRow, absent]
  have shape : (rebind checkpoint.expansions (freshRow node)).state = .pending ∧
      (rebind checkpoint.expansions (freshRow node)).attempts = [] ∧
      (rebind checkpoint.expansions (freshRow node)).id = node.id := by
    unfold rebind
    split <;> exact ⟨rfl, rfl, rfl⟩
  rw [fresh]
  refine ⟨shape.1, shape.2.1, ?_⟩
  rw [shape.2.2]
  intro member
  obtain ⟨row, hrow, same⟩ := mem_map.1 member
  have present := find?_eq_none.1 absent row hrow
  simp [same] at present

/-- Loop growth is monotone. For allowances of which one is everywhere at most the other, the nodes
under the smaller one are, apart from the boundaries of loops, nodes under the greater one; every
other node there belongs to a round that the smaller allowance does not admit; and aligning the
rows with the greater plan keeps every row as it is and adds pending rows only. Admission lets no
patch replace a loop (`LoopsStay.concat`).

**Proof sketch.** A round node is a function of its loop, its body node and its round. Additions
change nodes one by one, and look only at the specification and the round of their source
(`grows_expand`). So a row is aligned with the node that it had before, whose members and minimum
it records already, or with the boundary of a loop, which is a loop still (`hasLoop_expand`) and
not a composite. -/
theorem loop_growth {document : GraphDocument} {extensions extensions' : List Extension}
    {expansions : List Expansion} {expanded expanded' : GraphDocument}
    {plan plan' : PlannedGraph} {checkpoint : GraphCheckpoint}
    (smaller : ∀ node ∈ document.nodes, allowance node extensions ≤ allowance node extensions')
    (expands : expand document extensions expansions = some expanded)
    (expands' : expand document extensions' expansions = some expanded')
    (plans : Plans expanded plan) (plans' : Plans expanded' plan')
    (stays : LoopsStay document expansions) (fits : FitsPlan plan checkpoint) :
    (∀ node ∈ plan.nodes, node.id ∉ loopIds document → node ∈ plan'.nodes) ∧
      (∀ node ∈ plan'.nodes, node.id ∉ loopIds document →
        node ∈ plan.nodes ∨ NewRound document extensions extensions' node.id) ∧
      (∀ row ∈ checkpoint.nodes, row ∈ (reconcile checkpoint plan').nodes) ∧
      ∀ row ∈ (reconcile checkpoint plan').nodes, row ∈ checkpoint.nodes ∨
        (row.state = .pending ∧ row.attempts = [] ∧ row.id ∉ checkpoint.nodes.map (·.id)) := by
  have nodup : (ids expanded'.nodes).Nodup :=
    (plans'.perm.map fun node : GraphNode => node.id).nodup_iff.1 plan'.nodup
  have grows := (grows_expand smaller expands expands' nodup).perm plans.perm plans'.perm
  have aligned : ∀ node ∈ plan'.nodes, ∀ row ∈ checkpoint.nodes, row.id = node.id →
      alignRow checkpoint node = row := by
    intro node member row hrow same
    refine fits.alignRow_eq (fun composite => ?_) hrow same
    have outside : node.id ∉ loopIds document := by
      intro inside
      obtain ⟨boundary, placed, named, loop⟩ := hasLoop_expand expands' stays inside
      have unique : boundary = node := inj_on_of_nodup_map nodup placed
        (plans'.perm.mem_iff.1 member) named
      have none := PlannedGraph.composite_of_loop member (unique ▸ loop)
      rw [none] at composite
      cases composite
    have known : row.id ∈ ids plan.nodes := by
      rw [ids, ← fits.ids]
      exact mem_map_of_mem hrow
    obtain ⟨old, hold, named⟩ := mem_map.1 known
    have kept := grows.mem hold (by rw [named, same]; exact outside)
    have unique : old = node := inj_on_of_nodup_map plan'.nodup kept member (by rw [named, same])
    exact unique ▸ hold
  refine ⟨fun node member outside => grows.mem member outside,
    fun node member outside => grows.mem_or_new plan'.nodup member outside, fun row hrow => ?_,
    fun row hrow => ?_⟩
  · have known : row.id ∈ plan.nodes.map (·.id) := fits.ids ▸ mem_map_of_mem hrow
    obtain ⟨node, member, named⟩ := mem_map.1 known
    obtain ⟨node', member', same⟩ := grows.kept node member
    exact mem_map.2 ⟨node', member', aligned node' member' row hrow (by rw [same.id, named])⟩
  · obtain ⟨node, member, rfl⟩ := mem_map.1 hrow
    cases found : checkpoint.row? node.id with
    | some old =>
      have hold := mem_of_row? found
      rw [aligned node member old hold (id_of_row? found)]
      exact .inl hold
    | none => exact .inr (alignRow_of_row?_none found)

/-- A loop of one round whose body works and checks the work. -/
def workLoop : GraphDocument :=
  { graphId := text "polish"
    nodes := [
      { id := text "polish"
        loopBody := some {
          body := [{ id := text "work", routes := [{ adapter := text "codex", account := none }] },
            { id := text "done", dependsOn := [text "work"], condition := some .verdict }]
          untilGate := text "done", maxRounds := 1, repair := false } }] }

/-- The nodes of the loop under an allowance. -/
def workLoopNodes (extensions : List Extension) : List GraphNode :=
  ((expand workLoop extensions []).map (·.nodes)).getD []

/-- The plan of its own round. -/
def shortPlan : PlannedGraph :=
  { graphId := text "polish"
    nodes := workLoopNodes [] }

/-- The plan after an extension to two rounds. -/
def longPlan : PlannedGraph :=
  { graphId := text "polish"
    nodes := workLoopNodes [.rounds (text "polish") 2] }

/-- The rows of the first round, whose gate failed. -/
def shortRows : GraphCheckpoint :=
  { nodes := (workLoopNodes []).map fun node =>
      { freshRow node with state := if node.condition.isSome then .failed else .succeeded } }

/-- The loop is extended from one round to two: the rows of the first round stay, and those of
the second one are new. -/
theorem loop_growth_workLoop :
    (∀ row ∈ shortRows.nodes, row ∈ (reconcile shortRows longPlan).nodes) ∧
      shortRows.nodes.length = 3 ∧ (reconcile shortRows longPlan).nodes.length = 5 := by
  have plain : ∀ node ∈ shortPlan.nodes, node.composite = none := by decide
  have fits : FitsPlan shortPlan shortRows :=
    ⟨by decide, fun node member spec composite =>
      absurd ((plain node member).symm.trans composite) nofun⟩
  have growth := @loop_growth workLoop [] [.rounds (text "polish") 2] [] _ _ shortPlan longPlan
    shortRows (by decide) rfl rfl ⟨rfl, rfl, rfl, .refl _⟩ ⟨rfl, rfl, rfl, .refl _⟩
    nofun fits
  exact ⟨growth.2.2.1, by decide, by decide⟩

end Provenant.Graph

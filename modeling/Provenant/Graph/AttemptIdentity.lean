import Mathlib.Data.Prod.Lex
import Provenant.Data.Ledger
import Provenant.Graph.DependencyOrder
import Provenant.Graph.History

/-!
# Identity of launches

A launch is identified by its node, the position of its route and the redo that it belongs to.
The row of a node counts redos and attempts. A redo archives the attempts and takes the next
generation; a retired row leaves its generation in a tombstone, from which a later row of the
same identifier continues. The driver therefore refines a ledger whose names are identifiers
and whose stamps are pairs of a generation and a number of attempts, in lexicographic order.

## Main definitions

* `nextStamp` — generation and attempt number of the next launch under an identifier.
* `Ages` — a change of a row that never sets its stamp back.
* `Bounded` — generations are bounded by the number of expansions.
* `Driver.ledger` — the ledger that a state of the driver stands for.

## Main results

* `nextStamp_dynamicSubtree` — retirement never sets a stamp back.
* `nextStamp_commit` — admission keeps every stamp.
* `ledger_step` — every step of the driver is a step of the ledger.
* `begun_identity_nodup` — no launch identity is used twice, in every run.

## Implementation notes

Generations are 64-bit numbers. They cannot overflow, since every redo is recorded as an
expansion and the size of the checkpoint bounds the number of expansions.
-/

namespace Provenant.Graph

open List Option GraphCheckpoint

open Json (Text text)

/-! ### Stamps -/

/-- The generation of a row and its number of attempts. -/
def NodeProgress.stamp (row : NodeProgress) : ℕ ×ₗ ℕ :=
  toLex (row.generation, row.attempts.length)

/-- The stamp that a new row of an identifier starts with. -/
def retiredStamp (expansions : List Expansion) (id : Text) : ℕ ×ₗ ℕ :=
  if retiredRows expansions id = [] then toLex (0, 0)
  else toLex (maxGeneration (retiredRows expansions id) + 1, 0)

/-- The stamp of the next launch under an identifier. -/
def nextStamp (checkpoint : GraphCheckpoint) (id : Text) : ℕ ×ₗ ℕ :=
  ((checkpoint.row? id).map NodeProgress.stamp).getD (retiredStamp checkpoint.expansions id)

variable {bound live retired : Nat} {row row' : NodeProgress} {expansions : List Expansion}
  {node : GraphNode} {plan : PlannedGraph} {addition : Addition} {owner : Text}
  {expanded : GraphDocument} {candidate : GraphCheckpoint} {event : Event}

lemma maxGeneration_le_iff {rows : List NodeProgress} :
    maxGeneration rows ≤ bound ↔ ∀ row ∈ rows, row.generation ≤ bound := by
  have general : ∀ start, rows.foldl (fun generation row => max generation row.generation) start ≤
      bound ↔ start ≤ bound ∧ ∀ row ∈ rows, row.generation ≤ bound := by
    induction rows with
    | nil => simp
    | cons _ _ ih =>
      intro start
      rw [foldl_cons, ih, max_le_iff, forall_mem_cons, and_assoc]
  simpa [maxGeneration] using general 0

lemma generation_le_maxGeneration {rows : List NodeProgress} (h : row ∈ rows) :
    row.generation ≤ maxGeneration rows :=
  maxGeneration_le_iff.1 le_rfl row h

/-- The stamp of a retired row lies below the stamp that a new row starts with. -/
lemma stamp_lt_retiredStamp {id : Text} (h : row ∈ retiredRows expansions id) :
    row.stamp < retiredStamp expansions id := by
  rw [retiredStamp, if_neg (ne_nil_of_mem h)]
  exact Prod.Lex.toLex_lt_toLex.2 (.inl (Nat.lt_succ_of_le (generation_le_maxGeneration h)))

/-- More retired rows let a new row start later. -/
lemma retiredStamp_mono {expansions' : List Expansion} {id : Text}
    (h : ∀ row ∈ retiredRows expansions id, row ∈ retiredRows expansions' id) :
    retiredStamp expansions id ≤ retiredStamp expansions' id := by
  unfold retiredStamp
  split
  · split <;> exact Prod.Lex.toLex_le_toLex.2 (by simp)
  next nonempty =>
    obtain ⟨row, hrow⟩ := exists_mem_of_ne_nil _ nonempty
    rw [if_neg (ne_nil_of_mem (h row hrow))]
    have le : maxGeneration (retiredRows expansions id) ≤
        maxGeneration (retiredRows expansions' id) :=
      maxGeneration_le_iff.2 fun row hrow => generation_le_maxGeneration (h row hrow)
    refine Prod.Lex.toLex_le_toLex.2 ?_
    omega

/-! ### Changes of rows -/

/-- The row keeps its identifier, its stamp is not set back, and its generation increases by at
most `k`. -/
structure Ages (k : Nat) (row row' : NodeProgress) : Prop where
  id : row'.id = row.id
  stamp : row.stamp ≤ row'.stamp
  generation : row'.generation ≤ row.generation + k

lemma Ages.refl {k : Nat} (row : NodeProgress) : Ages k row row :=
  ⟨rfl, le_rfl, Nat.le_add_right _ _⟩

lemma Ages.trans {j k : Nat} {row'' : NodeProgress} (h : Ages j row row') (h' : Ages k row' row'') :
    Ages (j + k) row row'' :=
  ⟨h'.id.trans h.id, h.stamp.trans h'.stamp, by
    have := h.generation
    have := h'.generation
    omega⟩

/-- A row that keeps its generation and the number of its attempts ages. -/
lemma Ages.of_same (id : row'.id = row.id) (generation : row'.retryGeneration = row.retryGeneration)
    (attempts : row'.attempts.length = row.attempts.length) : Ages 0 row row' := by
  have same : row'.generation = row.generation := by
    rw [NodeProgress.generation, generation, NodeProgress.generation]
  refine ⟨id, le_of_eq ?_, by omega⟩
  rw [NodeProgress.stamp, NodeProgress.stamp, same, attempts]

lemma Keeps.ages (h : Keeps row row') : Ages 0 row row' :=
  .of_same h.id h.generation (by simpa using congrArg List.length h.keys)

lemma SameHistory.ages (h : SameHistory row row') : Ages 0 row row' :=
  .of_same h.id h.generation (congrArg (fun history : History => history.attempts.length) h.history)

/-- The rows of the checkpoint age and nothing else that stamps rest on changes. -/
structure AgesBy (k : Nat) (checkpoint checkpoint' : GraphCheckpoint) : Prop where
  rows : List.Forall₂ (Ages k) checkpoint.nodes checkpoint'.nodes
  expansions : checkpoint'.expansions = checkpoint.expansions
  extensions : checkpoint'.extensions = checkpoint.extensions

variable {checkpoint checkpoint' : GraphCheckpoint} {k : Nat} {f : NodeProgress → NodeProgress}

/-- A change row by row. -/
lemma AgesBy.of_map (nodes : checkpoint'.nodes = checkpoint.nodes.map f)
    (expansions : checkpoint'.expansions = checkpoint.expansions)
    (extensions : checkpoint'.extensions = checkpoint.extensions)
    (ages : ∀ row ∈ checkpoint.nodes, Ages k row (f row)) : AgesBy k checkpoint checkpoint' := by
  refine ⟨?_, expansions, extensions⟩
  rw [nodes, forall₂_map_right_iff, forall₂_same]
  exact ages

/-- Rows that keep their histories age. -/
lemma SameRows.agesBy (h : SameRows checkpoint checkpoint')
    (expansions : checkpoint'.expansions = checkpoint.expansions)
    (extensions : checkpoint'.extensions = checkpoint.extensions) :
    AgesBy 0 checkpoint checkpoint' :=
  ⟨h.imp fun _ _ same => same.ages, expansions, extensions⟩

lemma AgesBy.refl : AgesBy k checkpoint checkpoint :=
  ⟨forall₂_same.2 fun row _ => .refl row, rfl, rfl⟩

lemma AgesBy.withNotes (h : AgesBy k checkpoint checkpoint') (notes : HostNotes) :
    AgesBy k checkpoint { checkpoint' with notes } :=
  ⟨h.rows, h.expansions, h.extensions⟩

/-- A change of the row of an identifier. -/
lemma AgesBy.update {id : Text}
    (ages : ∀ row ∈ checkpoint.nodes, row.id = id → Ages k row (f row)) :
    AgesBy k checkpoint (checkpoint.update id f) := by
  refine .of_map rfl rfl rfl fun row hrow => ?_
  split
  next same =>
    exact ages row hrow same
  · exact .refl row

/-- Under aging rows, a row is found exactly when it was found before. -/
lemma AgesBy.lookup (h : AgesBy k checkpoint checkpoint') (id : Text) :
    Option.Rel (Ages k) (checkpoint.row? id) (checkpoint'.row? id) := by
  have general : ∀ {rows rows' : List NodeProgress}, List.Forall₂ (Ages k) rows rows' →
      Option.Rel (Ages k) (rows.find? (·.id == id)) (rows'.find? (·.id == id)) := by
    intro rows rows' pairs
    induction pairs with
    | nil => exact .none
    | cons head _ ih =>
      simp only [find?_cons, head.id]
      split
      · exact .some head
      · exact ih
  exact general h.rows

lemma AgesBy.before (h : AgesBy k checkpoint checkpoint') (hrow' : row' ∈ checkpoint'.nodes) :
    ∃ row ∈ checkpoint.nodes, Ages k row row' :=
  Fallible.exists_of_forall₂ h.rows hrow'

/-- Aging rows set no stamp back. -/
lemma AgesBy.nextStamp_le (h : AgesBy k checkpoint checkpoint') (id : Text) :
    nextStamp checkpoint id ≤ nextStamp checkpoint' id := by
  unfold nextStamp
  rw [h.expansions]
  have found := h.lookup id
  revert found
  generalize checkpoint.row? id = before
  generalize checkpoint'.row? id = after
  intro found
  cases found with
  | none => exact le_rfl
  | some ages => exact ages.stamp

/-! ### Bounds on generations -/

/-- The generations of live and of retired rows are bounded. -/
structure Bounded (live retired : Nat) (checkpoint : GraphCheckpoint) : Prop where
  live : ∀ row ∈ checkpoint.nodes, row.generation ≤ live
  retired : ∀ id, ∀ row ∈ retiredRows checkpoint.expansions id, row.generation ≤ retired

lemma AgesBy.bounded (h : AgesBy k checkpoint checkpoint')
    (bounded : Bounded live retired checkpoint) : Bounded (live + k) retired checkpoint' := by
  refine ⟨fun row' hrow' => ?_, by rw [h.expansions]; exact bounded.retired⟩
  obtain ⟨row, hrow, ages⟩ := h.before hrow'
  exact ages.generation.trans (Nat.add_le_add_right (bounded.live row hrow) k)

/-! ### Admission keeps stamps -/

lemma id_alignRow (checkpoint : GraphCheckpoint) (node : GraphNode) :
    (alignRow checkpoint node).id = node.id := by
  unfold alignRow
  cases found : checkpoint.row? node.id with
  | none =>
    dsimp only
    unfold rebind
    split <;> rfl
  | some _ =>
    dsimp only
    have rowId := id_of_row? found
    split <;> exact rowId

/-- After the rows were aligned, the row of an identifier is that of the node in the plan. -/
lemma row?_reconcile (checkpoint : GraphCheckpoint) (plan : PlannedGraph) (id : Text) :
    (reconcile checkpoint plan).row? id = (plan.node? id).map (alignRow checkpoint) := by
  simp [GraphCheckpoint.row?, reconcile, PlannedGraph.node?, find?_map, id_alignRow]

lemma stamp_alignRow (found : checkpoint.row? node.id = some row) :
    (alignRow checkpoint node).stamp = row.stamp := by
  unfold alignRow
  rw [found]
  dsimp only
  split <;> rfl

/-- A fresh row starts after the retired rows of its identifier. -/
lemma stamp_rebind (node : GraphNode)
    (bounded : ∀ row ∈ retiredRows expansions node.id, row.generation ≤ retired)
    (fits : retired + 1 < 2 ^ 64) :
    (rebind expansions (freshRow node)).stamp = retiredStamp expansions node.id := by
  have id : (freshRow node).id = node.id := rfl
  unfold rebind
  rw [id]
  cases hl : (retiredRows expansions node.id).getLast? with
  | none =>
    rw [retiredStamp, if_pos (getLast?_eq_none_iff.1 hl)]
    rfl
  | some _ =>
    have nonempty : retiredRows expansions node.id ≠ [] := by
      intro h
      rw [h] at hl
      cases hl
    have small : maxGeneration (retiredRows expansions node.id) + 1 < 2 ^ 64 := by
      have := maxGeneration_le_iff.2 bounded
      omega
    rw [retiredStamp, if_neg nonempty]
    simp only [NodeProgress.stamp, NodeProgress.generation, getD_some, Nat.mod_eq_of_lt small]
    rfl

/-- Aligning the rows keeps every stamp, if the plan has a node for every row. -/
lemma nextStamp_reconcile (bounded : Bounded live retired checkpoint) (fits : retired + 1 < 2 ^ 64)
    (covered : ∀ row ∈ checkpoint.nodes, row.id ∈ ids plan.nodes) (id : Text) :
    nextStamp (reconcile checkpoint plan) id = nextStamp checkpoint id := by
  unfold nextStamp
  rw [row?_reconcile]
  cases found : checkpoint.row? id with
  | some row =>
    have rowId := id_of_row? found
    obtain ⟨node, hnode, name⟩ := List.mem_map.1 (covered row (mem_of_row? found))
    have found' : checkpoint.row? node.id = some row := by rw [name, rowId, found]
    rw [← rowId, ← name, PlannedGraph.node?_of_mem hnode]
    simp [stamp_alignRow found']
  | none =>
    cases planned : plan.node? id with
    | none => rfl
    | some node =>
      obtain rfl := PlannedGraph.id_of_node? planned
      have fresh : alignRow checkpoint node = rebind checkpoint.expansions (freshRow node) := by
        rw [alignRow, found]
      simp [fresh, stamp_rebind node (bounded.retired node.id) fits]

/-- The generation of a new row follows those of the retired rows. -/
lemma generation_rebind_le (node : GraphNode)
    (bounded : ∀ row ∈ retiredRows expansions node.id, row.generation ≤ retired) :
    (rebind expansions (freshRow node)).generation ≤ retired + 1 := by
  have id : (freshRow node).id = node.id := rfl
  unfold rebind
  rw [id]
  split
  · exact Nat.zero_le _
  · have := maxGeneration_le_iff.2 bounded
    exact (Nat.mod_le _ _).trans (by omega)

lemma bounded_reconcile (bounded : Bounded live retired checkpoint) (room : retired + 1 ≤ live) :
    Bounded live retired (reconcile checkpoint plan) := by
  refine ⟨fun row hrow => ?_, bounded.retired⟩
  obtain ⟨node, -, rfl⟩ := List.mem_map.1 hrow
  unfold alignRow
  cases found : checkpoint.row? node.id with
  | none => exact (generation_rebind_le node (bounded.retired node.id)).trans room
  | some row =>
    have small := bounded.live row (mem_of_row? found)
    dsimp only
    split <;> exact small

lemma retiredRows_append_live (expansions : List Expansion) (addition : Addition) (id : Text) :
    retiredRows (expansions ++ [.live addition]) id = retiredRows expansions id := by
  simp [retiredRows]

/-- The rows of an admitted addition, before the targets of its patch are skipped. -/
lemma agesBy_commit (checkpoint : GraphCheckpoint) (addition : Addition) (plan : PlannedGraph) :
    AgesBy 0
      (reconcile { checkpoint with expansions := checkpoint.expansions ++ [.live addition] } plan)
      (commit checkpoint addition plan) := by
  refine .of_map rfl rfl rfl fun row _ => ?_
  split
  · exact .of_same rfl rfl rfl
  · exact .refl row

lemma bounded_append_live (bounded : Bounded live retired checkpoint) (addition : Addition) :
    Bounded live retired
      { checkpoint with expansions := checkpoint.expansions ++ [.live addition] } :=
  ⟨bounded.live, fun id row hrow => by
    rw [retiredRows_append_live] at hrow
    exact bounded.retired id row hrow⟩

/-- Admission sets no stamp back, if the plan has a node for every row. -/
lemma nextStamp_commit (bounded : Bounded live retired checkpoint) (fits : retired + 1 < 2 ^ 64)
    (covered : ∀ row ∈ checkpoint.nodes, row.id ∈ ids plan.nodes) (id : Text) :
    nextStamp checkpoint id ≤ nextStamp (commit checkpoint addition plan) id := by
  refine le_trans (le_of_eq ?_) ((agesBy_commit checkpoint addition plan).nextStamp_le id)
  rw [nextStamp_reconcile (bounded_append_live bounded addition) fits covered]
  simp [nextStamp, retiredStamp, retiredRows_append_live, GraphCheckpoint.row?]

lemma bounded_commit (bounded : Bounded live retired checkpoint) (room : retired + 1 ≤ live) :
    Bounded live retired (commit checkpoint addition plan) :=
  (agesBy_commit checkpoint addition plan).bounded
    (bounded_reconcile (bounded_append_live bounded addition) room)

/-! ### Retirement keeps stamps -/

lemma mem_liveAdditions :
    addition ∈ liveAdditions expansions ↔ Expansion.live addition ∈ expansions := by
  simp only [liveAdditions, mem_filterMap]
  constructor
  · rintro ⟨expansion, hmem, h⟩
    cases expansion <;> cases h
    exact hmem
  · exact fun h => ⟨_, h, rfl⟩

/-- The rows that a retirement archives. -/
lemma mem_retiredRows_dynamicSubtree {id : Text} :
    row ∈ retiredRows (dynamicSubtree checkpoint owner).expansions id ↔
      row ∈ retiredRows checkpoint.expansions id ∨
        (id ∈ retiredIds checkpoint owner ∧ checkpoint.row? id = some row) := by
  have archived : ∀ addition : Addition,
      row ∈ (addition.nodes.filterMap fun node => checkpoint.row? node.id).filter (·.id == id) ↔
        id ∈ ids addition.nodes ∧ checkpoint.row? id = some row := by
    intro addition
    simp only [mem_filter, mem_filterMap, beq_iff_eq, ids, List.mem_map]
    constructor
    · rintro ⟨⟨node, hnode, found⟩, rfl⟩
      have name := id_of_row? found
      exact ⟨⟨node, hnode, name.symm⟩, by rw [name, found]⟩
    · rintro ⟨⟨node, hnode, rfl⟩, found⟩
      exact ⟨⟨node, hnode, found⟩, id_of_row? found⟩
  simp only [retiredRows, retiredIds, dynamicSubtree, mem_flatMap, List.mem_map,
    mem_filter, mem_liveAdditions]
  constructor
  · rintro ⟨_, ⟨expansion, hmem, rfl⟩, hrow⟩
    cases expansion with
    | live addition =>
      by_cases produced : producedIn owner addition = true
      · simp only [produced, if_true] at hrow
        obtain ⟨member, found⟩ := (archived addition).1 hrow
        exact .inr ⟨⟨addition, ⟨hmem, produced⟩, member⟩, found⟩
      · simp [produced] at hrow
    | retired => exact .inl ⟨_, hmem, hrow⟩
  · rintro (⟨expansion, hmem, hrow⟩ | ⟨⟨addition, ⟨hmem, produced⟩, member⟩, found⟩)
    · cases expansion with
      | live => cases hrow
      | retired => exact ⟨_, ⟨_, hmem, rfl⟩, hrow⟩
    · refine ⟨_, ⟨_, hmem, rfl⟩, ?_⟩
      simp only [produced, if_true]
      exact (archived addition).2 ⟨member, found⟩

/-- Retirement removes the rows of the retired identifiers. -/
lemma row?_dynamicSubtree (checkpoint : GraphCheckpoint) (owner id : Text) :
    (dynamicSubtree checkpoint owner).row? id =
      if id ∈ retiredIds checkpoint owner then none
      else (checkpoint.row? id).map (forgetRetired (retiredIds checkpoint owner)) := by
  unfold GraphCheckpoint.row? dynamicSubtree
  rw [find?_map, find?_filter]
  split
  next retired =>
    rw [find?_eq_none.2, map_none]
    intro row _ h
    simp only [Function.comp_apply, decide_eq_true_eq, Bool.not_eq_true', beq_iff_eq,
      id_forgetRetired] at h
    obtain ⟨kept, rfl⟩ := h
    simp [retired] at kept
  next kept =>
    refine congrArg (Option.map _) (find?_congr fun row _ => ?_)
    by_cases same : row.id = id
    · simp [same, kept]
    · simp [same]

/-- A row after a retirement is an old row whose identifier was not retired. -/
lemma mem_dynamicSubtree (h : row' ∈ (dynamicSubtree checkpoint owner).nodes) :
    ∃ row ∈ checkpoint.nodes, row.id ∉ retiredIds checkpoint owner ∧
      row' = forgetRetired (retiredIds checkpoint owner) row := by
  obtain ⟨row, hrow, rfl⟩ := List.mem_map.1 h
  obtain ⟨mem, kept⟩ := mem_filter.1 hrow
  exact ⟨row, mem, by simpa using kept, rfl⟩

/-- Retirement sets no stamp back: a row that is removed is archived, and a later row of its
identifier starts after it. -/
lemma nextStamp_dynamicSubtree (checkpoint : GraphCheckpoint) (owner id : Text) :
    nextStamp checkpoint id ≤ nextStamp (dynamicSubtree checkpoint owner) id := by
  unfold nextStamp
  rw [row?_dynamicSubtree]
  cases found : checkpoint.row? id with
  | none =>
    rw [map_none, map_none, ite_self]
    exact retiredStamp_mono fun row hrow => mem_retiredRows_dynamicSubtree.2 (.inl hrow)
  | some _ =>
    by_cases retired : id ∈ retiredIds checkpoint owner
    · rw [if_pos retired]
      exact le_of_lt (stamp_lt_retiredStamp
        (mem_retiredRows_dynamicSubtree.2 (.inr ⟨retired, found⟩)))
    · rw [if_neg retired]
      exact le_rfl

lemma bounded_dynamicSubtree (bounded : Bounded bound bound checkpoint) (owner : Text) :
    Bounded bound bound (dynamicSubtree checkpoint owner) := by
  refine ⟨fun row' hrow' => ?_, fun id row hrow => ?_⟩
  · obtain ⟨row, hrow, -, rfl⟩ := mem_dynamicSubtree hrow'
    exact bounded.live row hrow
  rcases mem_retiredRows_dynamicSubtree.1 hrow with old | ⟨-, found⟩
  · exact bounded.retired id row old
  · exact bounded.live row (mem_of_row? found)

/-! ### Plans that cover the rows -/

/-- The identifiers of the live additions. -/
def liveIds (expansions : List Expansion) : List Text :=
  (liveAdditions expansions).flatMap fun addition => ids addition.nodes

/-- Every row belongs to the unrolled document or to a live addition. -/
def Covered (document : GraphDocument) (checkpoint : GraphCheckpoint) : Prop :=
  ∃ unrolled, expandLoops document checkpoint.extensions = some unrolled ∧
    ∀ row ∈ checkpoint.nodes, row.id ∈ ids unrolled.nodes ++ liveIds checkpoint.expansions

variable {document : GraphDocument}

lemma Plans.ids (h : Plans expanded plan) (id : Text) :
    id ∈ ids plan.nodes ↔ id ∈ ids expanded.nodes :=
  (h.perm.map _).mem_iff

lemma Driver.covered (s : Driver document) : Covered document s.checkpoint := by
  obtain ⟨_, hexpanded, plans⟩ := s.planned
  obtain ⟨unrolled, hunrolled, hids⟩ := ids_expand hexpanded
  refine ⟨unrolled, hunrolled, fun row hrow => ?_⟩
  have mem : row.id ∈ ids s.plan.nodes := by
    rw [ids, ← s.aligned]
    exact List.mem_map_of_mem hrow
  rw [plans.ids, hids] at mem
  exact mem

/-- A later plan has a node for every row, as long as no allowance and no live addition is
lost. -/
lemma Covered.replan {extensions : List Extension} (h : Covered document checkpoint)
    (rounds : ∀ loop target, Extension.rounds loop target ∈ checkpoint.extensions →
      Extension.rounds loop target ∈ extensions)
    (live : liveIds checkpoint.expansions ⊆ liveIds expansions)
    (planned : expand document extensions expansions = some expanded)
    (plans : Plans expanded plan) :
    ∀ row ∈ checkpoint.nodes, row.id ∈ ids plan.nodes := by
  obtain ⟨_, hunrolled, rows⟩ := h
  obtain ⟨_, hunrolled', hids⟩ := ids_expand planned
  intro row hrow
  rw [plans.ids, hids]
  rcases mem_append.1 (rows row hrow) with own | added
  · exact mem_append_left _ (ids_expandLoops_subset hunrolled hunrolled' rounds own)
  · exact mem_append_right _ (live added)

lemma AgesBy.covered (h : AgesBy k checkpoint checkpoint') (covered : Covered document checkpoint) :
    Covered document checkpoint' := by
  obtain ⟨unrolled, hunrolled, rows⟩ := covered
  refine ⟨unrolled, by rw [h.extensions, hunrolled], fun row' hrow' => ?_⟩
  obtain ⟨row, hrow, ages⟩ := h.before hrow'
  rw [ages.id, h.expansions]
  exact rows row hrow

/-- The identifiers that stay live after a retirement. -/
lemma mem_liveIds_dynamicSubtree {id : Text} (h : id ∈ liveIds checkpoint.expansions)
    (kept : id ∉ retiredIds checkpoint owner) :
    id ∈ liveIds (dynamicSubtree checkpoint owner).expansions := by
  simp only [liveIds, mem_flatMap, mem_liveAdditions] at h ⊢
  obtain ⟨addition, live, member⟩ := h
  have outside : producedIn owner addition = false := by
    rw [Bool.eq_false_iff]
    intro produced
    exact kept (mem_flatMap.2 ⟨addition, mem_filter.2 ⟨mem_liveAdditions.2 live, produced⟩, member⟩)
  refine ⟨dropEdits (retiredIds checkpoint owner) addition, ?_, member⟩
  exact List.mem_map.2 ⟨_, live, by simp [outside]⟩

lemma covered_dynamicSubtree (covered : Covered document checkpoint) (owner : Text) :
    Covered document (dynamicSubtree checkpoint owner) := by
  obtain ⟨unrolled, hunrolled, rows⟩ := covered
  refine ⟨unrolled, hunrolled, fun row' hrow' => ?_⟩
  obtain ⟨row, hrow, kept, rfl⟩ := mem_dynamicSubtree hrow'
  rcases mem_append.1 (rows row hrow) with own | added
  · exact mem_append_left _ own
  · exact mem_append_right _ (mem_liveIds_dynamicSubtree added kept)

/-! ### Redo keeps stamps -/

/-- The reset row of a node takes the next generation. -/
lemma ages_resetProgress {container : Bool} (h : resetProgress container row = some row') :
    Ages 1 row row' := by
  unfold resetProgress at h
  split at h
  · cases h
    exact ⟨rfl, Prod.Lex.toLex_le_toLex.2 (.inl (Nat.lt_succ_self _)), le_rfl⟩
  · cases h

lemma agesBy_resetRows {names : List Text} {id : Text}
    (h : resetRows expanded names id checkpoint = some checkpoint') :
    AgesBy 1 checkpoint checkpoint' := by
  obtain ⟨rows, hrows, rfl⟩ := resetRows_eq_some h
  refine ⟨?_, rfl, rfl⟩
  refine (Fallible.forall₂_of_mapM hrows).imp fun row row' reset => ?_
  split at reset
  · exact ages_resetProgress reset
  · cases reset
    exact .refl row

/-- What admission needs of a redone checkpoint. -/
structure Redoable (document : GraphDocument) (bound : Nat)
    (checkpoint candidate : GraphCheckpoint) : Prop where
  stamps : ∀ id, nextStamp checkpoint id ≤ nextStamp candidate id
  bounded : Bounded (bound + 2) (bound + 1) candidate
  covered : Covered document candidate
  length : candidate.expansions.length = checkpoint.expansions.length

/-- Covered rows stay covered when terminal decisions are dropped. -/
lemma Covered.dropDecisions {names : List Text} (covered : Covered document checkpoint)
    (nodes : checkpoint'.nodes = checkpoint.nodes)
    (expansions : checkpoint'.expansions = checkpoint.expansions)
    (extensions : checkpoint'.extensions = checkpoint.extensions ∨
      checkpoint'.extensions = Graph.dropDecisions names checkpoint.extensions) :
    Covered document checkpoint' := by
  obtain ⟨_, hunrolled, rows⟩ := covered
  have admissible : ∃ unrolled', expandLoops document checkpoint'.extensions = some unrolled' := by
    unfold expandLoops at hunrolled ⊢
    split at hunrolled
    next admissible =>
      exact ⟨_, if_pos admissible⟩
    · cases hunrolled
  obtain ⟨unrolled', hunrolled'⟩ := admissible
  have rounds : ∀ loop target, Extension.rounds loop target ∈ checkpoint.extensions →
      Extension.rounds loop target ∈ checkpoint'.extensions := by
    intro loop target h
    rcases extensions with same | dropped
    · rwa [same]
    · rw [dropped]
      exact mem_filter.2 ⟨h, rfl⟩
  refine ⟨unrolled', hunrolled', fun row hrow => ?_⟩
  rw [nodes] at hrow
  rw [expansions]
  rcases mem_append.1 (rows row hrow) with own | added
  · exact mem_append_left _ (ids_expandLoops_subset hunrolled hunrolled' rounds own)
  · exact mem_append_right _ added

/-- The rows of a redone checkpoint are covered. -/
lemma Redone.covered {reopened reset : GraphCheckpoint} {id : Text} {dependants : Bool}
    {target : GraphNode}
    (redone : Redone document checkpoint id dependants candidate expanded target reopened reset)
    (covered : Covered document checkpoint) : Covered document candidate := by
  obtain ⟨before, same, ⟨-, extensions, expansions⟩, resets⟩ := redone.remembers
  refine ((agesBy_resetRows resets).covered ?_).dropDecisions redone.nodes redone.expansions
    redone.extensions
  exact foldlRecOn _ _
    ((same.agesBy expansions extensions).covered covered)
    fun _ covered owner _ => covered_dynamicSubtree covered owner

/-- A redo sets no stamp back and moves generations by one. -/
lemma redoable_of_retryCandidate {id : Text} {brief : Option Text} {dependants : Bool}
    (redo : retryCandidate document checkpoint id brief dependants = some (candidate, node))
    (bounded : Bounded (bound + 1) bound checkpoint) (covered : Covered document checkpoint) :
    Redoable document bound checkpoint candidate := by
  obtain ⟨expanded, target, _, reset, redone, -⟩ := retryCandidate_eq_some redo
  obtain ⟨before, same, ⟨-, extensions, expansions⟩, reset⟩ := redone.remembers
  have remembers := same.agesBy expansions extensions
  have boundedNow := remembers.bounded bounded
  -- what the retirement of one subtree after the other keeps
  obtain ⟨prunes, boundedPruned, length⟩ := foldlRecOn
    (motive := fun pruned => (∀ name, nextStamp before name ≤ nextStamp pruned name) ∧
      Bounded (bound + 1) (bound + 1) pruned ∧
      pruned.expansions.length = before.expansions.length)
    (redoOwners expanded checkpoint id dependants
      (resetIds expanded checkpoint target dependants)) dynamicSubtree
    ⟨fun _ => le_rfl, ⟨boundedNow.live, fun id row hrow =>
      Nat.le_succ_of_le (boundedNow.retired id row hrow)⟩, rfl⟩
    fun pruned ⟨stamps, bounded, length⟩ owner _ =>
      ⟨fun name => (stamps name).trans (nextStamp_dynamicSubtree pruned owner name),
        bounded_dynamicSubtree bounded owner, by simpa [dynamicSubtree] using length⟩
  have resets := agesBy_resetRows reset
  refine ⟨fun name => ?_, ?_, redone.covered covered, ?_⟩
  · calc nextStamp checkpoint name
        ≤ nextStamp before name := remembers.nextStamp_le name
      _ ≤ _ := prunes name
      _ ≤ _ := resets.nextStamp_le name
      _ = nextStamp candidate name := by
          simp only [nextStamp, GraphCheckpoint.row?, redone.nodes, redone.expansions]
  · have last := resets.bounded boundedPruned
    exact ⟨by rw [redone.nodes]; exact last.live, by rw [redone.expansions]; exact last.retired⟩
  · rw [redone.expansions, resets.expansions, length, expansions]

/-! ### Steps of the driver -/

variable {policy : ReviewPolicy}

/-- A change of one row of a driver's checkpoint. -/
lemma Driver.agesBy_update (s : Driver document) {id : Text}
    (found : s.checkpoint.row? id = some row) (ages : Ages k row row') :
    AgesBy k s.checkpoint (s.checkpoint.update id fun _ => row') := by
  refine .update fun other hother same => ?_
  have unique := s.row?_of_mem hother
  rw [same, found] at unique
  cases unique
  exact ages

lemma agesBy_applyResume (h : applyResume checkpoint [] = some checkpoint') :
    AgesBy 0 checkpoint checkpoint' := by
  obtain ⟨same, expansions, extensions⟩ := applyResume_eq_some h
  exact same.agesBy expansions extensions

/-- A delivered attempt starts again under its own identity. -/
lemma ages_reopenRow {attempt : Text} (delivered : deliveredRow attempt row) :
    Ages 0 row (reopenRow row) := by
  refine .of_same rfl rfl ?_
  simp only [deliveredRow, Bool.and_eq_true, Option.any_eq_true] at delivered
  obtain ⟨-, last, hlast, -⟩ := delivered
  have pos : 0 < row.attempts.length := length_pos_of_mem (mem_of_getLast? hlast)
  simp only [reopenRow, hlast, toList_some, map_cons, map_nil, length_append,
    length_dropLast, length_singleton]
  omega

lemma ages_reopenLoop (loops : List Text) (extensions : List Extension) (row : NodeProgress) :
    Ages 0 row (reopenLoop loops extensions row) := by
  unfold reopenLoop
  split
  · exact .of_same rfl rfl rfl
  · exact .refl row

lemma ages_unblock (row : NodeProgress) : Ages 0 row (unblock row) := by
  unfold unblock
  split
  · exact .of_same rfl rfl rfl
  · exact .refl row

lemma agesBy_retryDelivered (attempt : Text) (checkpoint : GraphCheckpoint) :
    AgesBy 0 checkpoint (retryDelivered attempt checkpoint) := by
  refine .of_map rfl rfl rfl fun row _ => ?_
  have reopened : Ages 0 row (if deliveredRow attempt row then reopenRow row else row) := by
    split
    next delivered =>
      exact ages_reopenRow delivered
    · exact .refl row
  exact (reopened.trans (ages_reopenLoop _ _ _)).trans (ages_unblock _)

/-- Generations stay far from their limit, because every redo is an expansion. -/
structure Fits (checkpoint : GraphCheckpoint) : Prop where
  bounded : Bounded (checkpoint.expansions.length + 1) checkpoint.expansions.length checkpoint
  envelope : fitsEnvelope checkpoint.expansions

lemma AgesBy.fits (h : AgesBy 0 checkpoint checkpoint') (fits : Fits checkpoint) :
    Fits checkpoint' := by
  have bounded := h.bounded fits.bounded
  refine ⟨?_, ?_⟩
  · rw [h.expansions]
    exact bounded
  · rw [h.expansions]
    exact fits.envelope

/-- A checkpoint in which an addition can be admitted. -/
lemma Redoable.of_fits (ages : AgesBy 0 checkpoint checkpoint') (fits : Fits checkpoint)
    (covered : Covered document checkpoint) :
    Redoable document checkpoint.expansions.length checkpoint checkpoint' := by
  have bounded := ages.bounded fits.bounded
  exact ⟨ages.nextStamp_le, ⟨fun row hrow => Nat.le_succ_of_le (bounded.live row hrow),
      fun id row hrow => Nat.le_succ_of_le (bounded.retired id row hrow)⟩,
    ages.covered covered, by rw [ages.expansions]⟩

lemma Redoable.after (ages : AgesBy 0 checkpoint checkpoint')
    (h : Redoable document checkpoint'.expansions.length checkpoint' candidate) :
    Redoable document checkpoint.expansions.length checkpoint candidate := by
  obtain ⟨stamps, bounded, covered, length⟩ := h
  rw [ages.expansions] at bounded length
  exact ⟨fun id => (ages.nextStamp_le id).trans (stamps id), bounded, covered, length⟩

/-- The plan of an admitted addition has a node for every covered row. -/
lemma Admits.covers (admits : Admits document checkpoint addition plan)
    (covered : Covered document checkpoint) :
    ∀ row ∈ checkpoint.nodes, row.id ∈ ids plan.nodes := by
  obtain ⟨_, planned, plans⟩ := admits.planned
  refine covered.replan (fun _ _ => id) ?_ planned plans
  simp [liveIds, liveAdditions]

/-- Admission sets no stamp back and keeps generations bounded. -/
lemma Redoable.commit (h : Redoable document checkpoint.expansions.length checkpoint candidate)
    (admits : Admits document candidate addition plan) :
    (∀ id, nextStamp checkpoint id ≤ nextStamp (commit candidate addition plan) id) ∧
      Fits (Graph.commit candidate addition plan) := by
  have length : (Graph.commit candidate addition plan).expansions.length =
      checkpoint.expansions.length + 1 := by
    simp [Graph.commit, reconcile, h.length]
  have small : checkpoint.expansions.length + 1 ≤ maxCheckpointBytes := by
    have := admits.fits
    simpa [fitsEnvelope, h.length] using this
  have covered := admits.covers h.covered
  refine ⟨fun id => (h.stamps id).trans (nextStamp_commit h.bounded ?_ covered id), ?_, ?_⟩
  · have : maxCheckpointBytes + 1 < 2 ^ 64 := by decide
    omega
  · rw [length]
    exact bounded_commit h.bounded le_rfl
  · rw [fitsEnvelope, length]
    exact small

/-- A step that records no launch sets no stamp back. -/
structure Quiet (s s' : Driver document) : Prop where
  stamps : ∀ id, nextStamp s.checkpoint id ≤ nextStamp s'.checkpoint id
  fits : Fits s'.checkpoint
  begun : s'.begun = s.begun

variable {s s' : Driver document}

lemma Moves.quiet {phase : Phase} (moves : Moves s s' checkpoint phase) (fits : Fits s.checkpoint)
    (ages : AgesBy 0 s.checkpoint checkpoint) : Quiet s s' := by
  have ages' : AgesBy 0 s.checkpoint s'.checkpoint := by
    rw [moves.checkpoint]
    exact ages.withNotes _
  exact ⟨ages'.nextStamp_le, ages'.fits fits, moves.begun⟩

lemma Redoable.quiet (h : Redoable document s.checkpoint.expansions.length s.checkpoint candidate)
    (admits : Admits document candidate addition plan) (replans : Replans s s' checkpoint plan)
    (ages : AgesBy 0 (Graph.commit candidate addition plan) checkpoint) : Quiet s s' := by
  obtain ⟨stamps, fits⟩ := h.commit admits
  have ages' : AgesBy 0 (Graph.commit candidate addition plan) s'.checkpoint := by
    rw [replans.checkpoint]
    exact ages.withNotes _
  exact ⟨fun id => (stamps id).trans (ages'.nextStamp_le id), ages'.fits fits, replans.begun⟩

section Extend

variable {extension : Extension} {reopened : GraphCheckpoint}
  (resumed : applyResume s.checkpoint [extension] = some reopened)
include resumed

/-- A graph that is extended resumes with the rows and the expansions that it had. -/
lemma agesBy_extend : AgesBy 0 s.checkpoint
    { unpauseLoops [extension] reopened with extensions := s.checkpoint.extensions } := by
  obtain ⟨same, expansions, -⟩ := applyResume_eq_some resumed
  exact SameRows.agesBy (same.unpauseLoops [extension]) expansions rfl

variable (after : expand document reopened.extensions reopened.expansions = some expanded)
  (plans : Plans expanded plan)
include after plans

/-- The plan of an extended graph has a node for every row. -/
lemma covers_extend :
    ∀ row ∈ (unpauseLoops [extension] reopened).nodes, row.id ∈ ids plan.nodes := by
  obtain ⟨-, -, extensions⟩ := applyResume_eq_some resumed
  refine ((agesBy_extend resumed).covered s.covered).replan (fun _ _ known => ?_)
    (List.Subset.refl _) after plans
  rw [extensions, mem_foldl_record]
  exact .inl known

/-- The extension of a graph sets no stamp back. -/
lemma quiet_extend (fits : Fits s.checkpoint)
    (replans : Replans s s' (reconcile (unpauseLoops [extension] reopened) plan) plan) :
    Quiet s s' := by
  have ages := agesBy_extend resumed
  have fits' := ages.fits fits
  have bounded : Bounded (reopened.expansions.length + 1) reopened.expansions.length
      (unpauseLoops [extension] reopened) := ⟨fits'.bounded.live, fits'.bounded.retired⟩
  have room : reopened.expansions.length + 1 < 2 ^ 64 := by
    have : maxCheckpointBytes + 1 < 2 ^ 64 := by decide
    have : reopened.expansions.length ≤ maxCheckpointBytes := fits'.envelope
    omega
  have noted : AgesBy 0 (reconcile (unpauseLoops [extension] reopened) plan) s'.checkpoint := by
    rw [replans.checkpoint]
    exact AgesBy.refl.withNotes _
  refine ⟨fun id => ?_, noted.fits ⟨bounded_reconcile bounded le_rfl, fits'.envelope⟩,
    replans.begun⟩
  calc nextStamp s.checkpoint id
      ≤ nextStamp (unpauseLoops [extension] reopened) id := ages.nextStamp_le id
    _ = _ := (nextStamp_reconcile bounded room (covers_extend resumed after plans) id).symm
    _ ≤ nextStamp s'.checkpoint id := noted.nextStamp_le id

end Extend

/-- Every step other than the record of a launch is quiet. -/
lemma Step.quiet (step : Step policy event s s') (silent : ∀ key, event ≠ .begin key)
    (fits : Fits s.checkpoint) : Quiet s s' := by
  cases step with
  | begin => exact absurd rfl (silent _)
  | start _ moves | finish moves | pass _ _ _ _ moves | attempt _ moves =>
    exact moves.quiet fits .refl
  | wait dispatched moves =>
    rcases nodeAction_spec dispatched.action with rfl | ⟨row, state, error, code, found, rfl⟩
    · exact moves.quiet fits .refl
    · exact moves.quiet fits (s.agesBy_update found (.of_same rfl rfl rfl))
  | settle _ _ found keeps moves =>
    exact moves.quiet fits (s.agesBy_update found keeps.ages)
  | loop _ moves =>
    exact moves.quiet fits (.update fun row _ _ => (sameHistory_settleLoop _ _ _ row _).ages)
  | change attempting keeps _ moves | leave attempting keeps moves =>
    exact moves.quiet fits (s.agesBy_update attempting.row keeps.ages)
  | expand _ found contributes _ _ _ _ _ admits replans =>
    exact (Redoable.of_fits (s.agesBy_update found contributes.sameHistory.ages) fits s.covered).quiet admits
      replans .refl
  | patch _ _ admits replans =>
    exact (Redoable.of_fits .refl fits s.covered).quiet admits replans .refl
  | retry _ redo admits replans =>
    exact (redoable_of_retryCandidate redo fits.bounded s.covered).quiet admits replans .refl
  | redo found failed redo admits replans =>
    rename_i id reason prior settled candidate node plan
    have ages : AgesBy 0 s.checkpoint settled := by
      rcases failed with rfl | rfl
      · exact .refl
      · exact .update fun row _ _ => .of_same rfl rfl rfl
    have redoable := redoable_of_retryCandidate redo (ages.fits fits).bounded
      (ages.covered s.covered)
    exact (redoable.after ages).quiet admits replans
      (.update fun row _ _ => .of_same rfl rfl rfl)
  | extend _ _ resumed after plans replans =>
    exact quiet_extend resumed after plans fits replans
  | cancel cancels moves =>
    exact moves.quiet fits ⟨cancels.imp fun _ _ h => h.sameHistory.ages, rfl, rfl⟩
  | resume _ resumed moves => exact moves.quiet fits (agesBy_applyResume resumed)
  | deliver _ _ moves => exact moves.quiet fits (agesBy_retryDelivered _ _)
  | note noted moves =>
    refine moves.quiet fits ⟨noted.imp fun row row' h => ?_, rfl, rfl⟩
    obtain ⟨notes, rfl⟩ := h
    exact .of_same rfl rfl rfl

/-! ### Steps that leave the graph alone -/

/-- A step that changes the graph. -/
def Event.replans : Event → Bool
  | .expand _ | .patch _ | .retry _ | .extend _ => true
  | _ => false

/-- What a plan is made from stays the same. -/
structure SameTopology (s s' : Driver document) : Prop where
  plan : s'.plan = s.plan
  extensions : s'.checkpoint.extensions = s.checkpoint.extensions
  expansions : s'.checkpoint.expansions = s.checkpoint.expansions

lemma Moves.sameTopology {phase : Phase} (moves : Moves s s' checkpoint phase)
    (extensions : checkpoint.extensions = s.checkpoint.extensions)
    (expansions : checkpoint.expansions = s.checkpoint.expansions) : SameTopology s s' := by
  refine ⟨moves.plan, ?_, ?_⟩ <;> rw [moves.checkpoint]
  · exact extensions
  · exact expansions

/-- A step that does not change the graph leaves all of it alone. -/
lemma Step.sameTopology (step : Step policy event s s') (quiet : event.replans = false) :
    SameTopology s s' := by
  cases step with
  | start _ moves | finish moves | pass _ _ _ _ moves | settle _ _ _ _ moves | loop _ moves
  | attempt _ moves | change _ _ _ moves | leave _ _ moves | cancel _ moves | deliver _ _ moves
  | note _ moves => exact moves.sameTopology rfl rfl
  | wait dispatched moves =>
    rcases nodeAction_spec dispatched.action with rfl | ⟨row, state, error, code, found, rfl⟩
    · exact moves.sameTopology rfl rfl
    · exact moves.sameTopology rfl rfl
  | begin _ _ _ _ _ plan checkpoint =>
    exact ⟨plan, by rw [checkpoint]; rfl, by rw [checkpoint]; rfl⟩
  | expand | patch | retry | redo | extend => cases quiet
  | resume _ resumed moves =>
    have kept := agesBy_applyResume resumed
    exact moves.sameTopology kept.extensions kept.expansions

/-! ### The ledger -/

/-- The identity of a launch: its node, the position of its route and its redo. -/
def AttemptKey.identity (key : AttemptKey) : Text × Nat × Option Nat :=
  (key.nodeId, key.routeIndex, key.retryGeneration)

/-- The name and the stamp of a launch. -/
def AttemptKey.entry (key : AttemptKey) : Text × (ℕ ×ₗ ℕ) :=
  (key.nodeId, toLex (key.retryGeneration.getD 0, key.routeIndex))

/-- The ledger that a state stands for: identifiers are names, and a launch uses up a stamp. -/
def Driver.ledger (s : Driver document) : Ledger Text (ℕ ×ₗ ℕ) :=
  { next := nextStamp s.checkpoint, issued := s.begun.map AttemptKey.entry }

/-- An attempt that may begin has a route, and a switch to it is within the allowance. -/
lemma nextAttempt_eq_candidate {reviewSubstitutions routeIndex : Nat} {facts : LaunchFacts}
    (h : nextAttempt node row reviewSubstitutions facts = .candidate routeIndex) :
    nextRoute node row reviewSubstitutions facts = .ok routeIndex ∧
      ¬ ((decide (0 < routeIndex) && row.attempts.getLast?.any (countsAsSwitch row)) &&
        row.retry.any fun limit =>
          limit < row.quotaRedrawSpent + row.attempts.countP (countsAsSwitch row)) = true := by
  unfold nextAttempt at h
  split at h
  · cases h
  split at h
  · cases h
  split at h
  next decision failed =>
    subst h
    exact absurd failed (nextRoute_ne_candidate _ _ _ _ _)
  next index routed =>
    dsimp only at h
    split at h
    · cases h
    · split at h
      · cases h
      next within =>
        cases h
        exact ⟨routed, within⟩

/-- The next attempt of a row whose attempts have ended takes the position after them. -/
lemma routeIndex_of_nextAttempt {reviewSubstitutions routeIndex : Nat} {facts : LaunchFacts}
    (needed : needsRecord row = true)
    (h : nextAttempt node row reviewSubstitutions facts = .candidate routeIndex) :
    routeIndex = row.attempts.length := by
  have routed := (nextAttempt_eq_candidate h).1
  unfold nextRoute at routed
  cases hl : row.attempts.getLast? with
  | none =>
    rw [hl] at routed
    cases routed
    rw [getLast?_eq_none_iff.1 hl]
    rfl
  | some last =>
    have ended : last.state = .terminal := by simpa [needsRecord, hl] using needed
    rw [hl] at routed
    simp only [ended, ne_eq, not_true_eq_false, if_false] at routed
    split at routed
    · split at routed <;> cases routed
      rfl
    · split at routed
      · split at routed
        · cases routed
        · split at routed <;> cases routed
          rfl
      · cases routed

/-- The record of a launch issues the next stamp of its node. -/
lemma Step.issues {key : AttemptKey} (step : Step policy (.begin key) s s')
    (fits : Fits s.checkpoint) : Ledger.Step s.ledger s'.ledger ∧ Fits s'.checkpoint := by
  cases step with
  | begin attempting candidate routed keyed needed plan checkpoint phase begun =>
    rename_i index node row reviewSubstitutions routeIndex facts route timing
    obtain ⟨name, position, generation⟩ := attemptKey_of_needsRecord needed keyed
    have length := routeIndex_of_nextAttempt needed candidate
    have grown : row.stamp < (beginAttempt node key route timing row).stamp := by
      refine Prod.Lex.toLex_lt_toLex.2 (.inr ⟨rfl, ?_⟩)
      simp [beginAttempt]
    have launches : AgesBy 0 s.checkpoint
        (s.checkpoint.update node.id (beginAttempt node key route timing)) := by
      refine .update fun other hother same => ⟨rfl, ?_, le_rfl⟩
      refine Prod.Lex.toLex_le_toLex.2 (.inr ⟨rfl, ?_⟩)
      simp [beginAttempt]
    have ages : AgesBy 0 s.checkpoint s'.checkpoint := by
      rw [checkpoint]
      exact launches.withNotes _
    have before : nextStamp s.checkpoint node.id = row.stamp := by
      rw [nextStamp, attempting.row]
      rfl
    have after : nextStamp s'.checkpoint node.id =
        (beginAttempt node key route timing row).stamp := by
      have kept : ∀ other ∈ s.checkpoint.nodes, other.id = node.id →
          (beginAttempt node key route timing other).id = node.id := fun _ _ same => same
      have recorded : s'.checkpoint.row? node.id =
          (s.checkpoint.update node.id (beginAttempt node key route timing)).row? node.id := by
        rw [checkpoint]
        rfl
      rw [nextStamp, recorded, row?_update kept, attempting.row, map_some,
        if_pos (id_of_row? attempting.row)]
      rfl
    refine ⟨.issue node.id ages.nextStamp_le ?_ ?_, ages.fits fits⟩
    · simp only [Driver.ledger]
      rw [before, after]
      exact grown
    · simp only [Driver.ledger]
      rw [begun, map_cons, before, AttemptKey.entry, name, position, generation, length]
      rfl

/-- Every step of the driver is a step of the ledger, and keeps generations bounded. -/
lemma ledger_step (step : Step policy event s s') (fits : Fits s.checkpoint) :
    Ledger.Step s.ledger s'.ledger ∧ Fits s'.checkpoint := by
  by_cases silent : ∀ key, event ≠ .begin key
  · have quiet := step.quiet silent fits
    refine ⟨.advance quiet.stamps ?_, quiet.fits⟩
    rw [Driver.ledger, quiet.begun, Driver.ledger]
  · simp only [not_forall, not_not] at silent
    obtain ⟨key, rfl⟩ := silent
    exact step.issues fits

/-- Before the first pass every generation is zero. -/
lemma Initial.fits (h : Initial s) : Fits s.checkpoint := by
  refine ⟨⟨fun row hrow => ?_, ?_⟩, ?_⟩
  · obtain ⟨node, -, ⟨notes, rfl⟩ | ⟨-, message, notes, rfl⟩⟩ :=
      Fallible.exists_of_forall₂ h.rows hrow
    · exact Nat.zero_le _
    · exact Nat.zero_le _
  · rw [h.expansions]
    simp [retiredRows]
  · rw [h.expansions]
    exact Nat.zero_le _

/-- The ledger of the state is sound, and its generations are bounded. -/
structure Accounted (s : Driver document) : Prop where
  sound : s.ledger.Sound
  fits : Fits s.checkpoint

lemma Reachable.accounted (h : Reachable policy s) : Accounted s := by
  refine h.invariant ?_ ?_
  · intro s initial
    refine ⟨.of_issued_nil ?_, initial.fits⟩
    simp [Driver.ledger, initial.begun]
  · intro event s s' _ before step
    obtain ⟨refines, fits⟩ := ledger_step step before.fits
    exact ⟨refines.sound before.sound, fits⟩

/-- Over every run, no two recorded launches share their node, route position and redo, and so
no two of them share the operation under which they are submitted, which is an injective digest
of the launch's key.

**Proof sketch.** The driver refines a ledger: a launch uses up the next stamp of its node, and
neither fallback, redo, retirement nor re-creation of a node sets a stamp back. The ledger never
issues a stamp twice. -/
theorem begun_identity_nodup {δ : Type*} {operation : AttemptKey → δ}
    (injective : Function.Injective operation) {s : Driver document} (h : Reachable policy s) :
    (s.begun.map AttemptKey.identity).Nodup ∧ (s.begun.map operation).Nodup := by
  have entries : (s.begun.map AttemptKey.entry).Nodup := h.accounted.sound.nodup
  have identities : (s.begun.map AttemptKey.identity).Nodup := by
    have factor : AttemptKey.entry = (fun identity : Text × Nat × Option Nat =>
        (identity.1, toLex (identity.2.2.getD 0, identity.2.1))) ∘ AttemptKey.identity := rfl
    rw [factor, ← List.map_map] at entries
    exact entries.of_map _
  exact ⟨identities, (identities.of_map _).map injective⟩

/-- The record of a redo of the review. -/
def rereview : Expansion :=
  .live (retryAddition (recoveryPlan.nodes.getD 0 { id := [] }) (text "again"))

/-- A row after the redo of the review, with which everything else is redone. -/
def rereviewRow (row : NodeProgress) : NodeProgress :=
  { id := row.id, round := row.round, previousAttempts := row.attempts, retryGeneration := some 1
    containerRetry := row.round.isSome || row.id == text "repair" }

/-- The review is redone, and then launched with the keys in `keys`. -/
def rereviewing (phase : Phase) (review : NodeProgress) (keys : List AttemptKey)
    (same : review.id = text "review" := by rfl) : Driver recoveryDocument :=
  { plan := recoveryPlan
    checkpoint := {
      expansions := [rereview]
      nodes := review :: (failedGateRow :: loopRows).map rereviewRow
      notes := { askActor := some (text "owner") } }
    phase
    begun := keys ++ recovering.begun
    planned := ⟨_, rfl, rfl, rfl, rfl, .refl _⟩
    aligned := by rw [List.map_cons, same]; rfl }

/-- The key of the review after its redo. -/
def rereviewKey : AttemptKey := { firstKey (text "review") with retryGeneration := some 1 }

def rereviewed : Driver recoveryDocument :=
  rereviewing (.attempting 0) (beginAttempt (recoveryPlan.nodes.getD 0 { id := [] }) rereviewKey
    anyRoute none (rereviewRow reviewedRow)) [rereviewKey]

/-- The review is redone after its gate failed, and launched again. -/
lemma reachable_rereviewed : Reachable silentPolicy rereviewed := by
  let idle := recoveryState .idle (some (text "owner")) recovering.checkpoint.nodes recovering.begun
  let redone := rereviewing .idle (rereviewRow reviewedRow) []
  have stops : Step silentPolicy .finish recovering idle := .finish ⟨rfl, rfl, rfl, rfl⟩
  have redo : Step silentPolicy (.retry (text "review")) idle redone := by
    exact @Step.retry _ _ _ _ _ (text "again") none true
      { redone.checkpoint with expansions := [] } (recoveryPlan.nodes.getD 0 { id := [] }) _ rfl
      (by decide +kernel)
      ⟨⟨_, rfl, rfl, rfl, rfl, .refl _⟩, by unfold fitsEnvelope; decide⟩ ⟨rfl, rfl, rfl, rfl⟩
  obtain ⟨start, initial, run⟩ := (reachable_recovering.step stops).step redo
  refine ⟨start, initial, run.trans ?_⟩
  exact @run_of_play _ silentPolicy recoveryPlan _
    (fun s s' => ∃ event, Step silentPolicy event s s') (fun _ _ _ => true) (fun s _ => s)
    (fun _ _ step _ => ⟨_, step⟩) [.start, .attempt, .begin nothingObserved] redone rereviewed []
    [(redone.checkpoint, rereviewKey)] rfl rfl (by decide +kernel)

/-- The two launches of the review, before and after its redo, have different identities. -/
theorem rereviewed_identity_nodup :
    rereviewed.begun = [rereviewKey, firstKey (text "review")] ∧
      (rereviewed.begun.map AttemptKey.identity).Nodup ∧ (rereviewed.begun.map id).Nodup :=
  ⟨rfl, begun_identity_nodup Function.injective_id reachable_rereviewed⟩

end Provenant.Graph

import Provenant.Data.Fallible
import Provenant.Graph.Driver

/-!
# Rows that keep their history

Most changes of a row leave alone what the row records of the attempts of its node. This file has
that part of a row, and the changes of the driver that do not touch it.

## Main definitions

* `History` — the part of a row that accounts for the attempts of its node.
* `SameHistory`, `SameRows` — rows that keep identifier, generation and history.

## Main results

* `Redone.remembers`, `applyResume_eq_some` — what prepares a redo and what resumes a graph keep
  the histories.
-/

namespace Provenant.Graph

open List Option

open Json (Text text)

/-! ### Histories -/

/-- The part of a row that accounts for the attempts of its node. -/
structure History where
  /-- The attempts of earlier redos. -/
  previous : List GraphAttempt
  attempts : List GraphAttempt
  /-- The sealed allowance of infrastructure retries. -/
  retry : Option Nat
  /-- What automatic redos spent of it. -/
  spent : Nat

/-- The history in a row. -/
def NodeProgress.history (row : NodeProgress) : History :=
  { previous := row.previousAttempts, attempts := row.attempts, retry := row.retry
    spent := row.quotaRedrawSpent }

/-- `recorded_attempts`: all attempts in launch order, those of earlier redos included. -/
def History.recorded (history : History) : List GraphAttempt := history.previous ++ history.attempts

/-! ### Rows that keep their history -/

/-- Two rows of one node with one history. -/
structure SameHistory (row row' : NodeProgress) : Prop where
  id : row'.id = row.id
  generation : row'.retryGeneration = row.retryGeneration
  history : row'.history = row.history

lemma SameHistory.refl (row : NodeProgress) : SameHistory row row := ⟨rfl, rfl, rfl⟩

lemma SameHistory.trans {row row' row'' : NodeProgress} (h : SameHistory row row')
    (h' : SameHistory row' row'') : SameHistory row row'' :=
  ⟨h'.id.trans h.id, h'.generation.trans h.generation, h'.history.trans h.history⟩

/-- Row by row, identifiers and histories stay. -/
def SameRows (checkpoint checkpoint' : GraphCheckpoint) : Prop :=
  List.Forall₂ SameHistory checkpoint.nodes checkpoint'.nodes

variable {checkpoint checkpoint' : GraphCheckpoint} {document : GraphDocument}

lemma SameRows.refl : SameRows checkpoint checkpoint := forall₂_same.2 fun row _ => .refl row

variable {f : NodeProgress → NodeProgress}

lemma SameRows.of_map (nodes : checkpoint'.nodes = checkpoint.nodes.map f)
    (same : ∀ row ∈ checkpoint.nodes, SameHistory row (f row)) : SameRows checkpoint checkpoint' := by
  unfold SameRows
  rw [nodes, forall₂_map_right_iff, forall₂_same]
  exact same

/-- A further change row by row. -/
lemma SameRows.map {next : GraphCheckpoint} (h : SameRows checkpoint checkpoint')
    (nodes : next.nodes = checkpoint'.nodes.map f) (same : ∀ row, SameHistory row (f row)) :
    SameRows checkpoint next := by
  unfold SameRows
  rw [nodes, forall₂_map_right_iff]
  exact h.imp fun _ row' kept => kept.trans (same row')

lemma SameRows.update {id : Text}
    (same : ∀ row ∈ checkpoint.nodes, row.id = id → SameHistory row (f row)) :
    SameRows checkpoint (checkpoint.update id f) := by
  refine .of_map rfl fun row member => ?_
  split
  next named =>
    exact same row member named
  · exact .refl row

/-- The replacement of one row of a driver's checkpoint. -/
lemma Driver.sameRows_update (s : Driver document) {id : Text} {row row' : NodeProgress}
    (found : s.checkpoint.row? id = some row) (same : SameHistory row row') :
    SameRows s.checkpoint (s.checkpoint.update id fun _ => row') := by
  refine .update fun other member named => ?_
  have unique := s.row?_of_mem member
  rw [named, found] at unique
  cases unique
  exact same

/-- Rows that are paired by their identifiers have the same ones. -/
lemma ids_of_forall₂ {relates : NodeProgress → NodeProgress → Prop} {rows rows' : List NodeProgress}
    (h : List.Forall₂ relates rows rows')
    (named : ∀ row row', relates row row' → row'.id = row.id) :
    rows'.map (·.id) = rows.map (·.id) := by
  induction h with
  | nil => rfl
  | cons head _ ih => rw [map_cons, map_cons, named _ _ head, ih]

lemma SameRows.ids (h : SameRows checkpoint checkpoint') :
    checkpoint'.nodes.map (·.id) = checkpoint.nodes.map (·.id) :=
  ids_of_forall₂ h fun _ _ same => same.id

lemma SameRows.before (h : SameRows checkpoint checkpoint') {row' : NodeProgress}
    (member : row' ∈ checkpoint'.nodes) : ∃ row ∈ checkpoint.nodes, SameHistory row row' :=
  Fallible.exists_of_forall₂ h member

section Redone

variable {candidate reopened reset : GraphCheckpoint} {id : Text} {dependants : Bool}
  {expanded : GraphDocument} {target : GraphNode}
  (h : Redone document checkpoint id dependants candidate expanded target reopened reset)
include h

/-- A redo retires subtrees from a checkpoint with the same histories, in which only rows have
changed. -/
lemma Redone.remembers :
    ∃ before, SameRows checkpoint before ∧ (before.notes = checkpoint.notes ∧
        before.extensions = checkpoint.extensions ∧ before.expansions = checkpoint.expansions) ∧
      resetRows expanded (resetIds expanded checkpoint target dependants) id
        ((redoOwners expanded checkpoint id dependants
          (resetIds expanded checkpoint target dependants)).foldl dynamicSubtree before) =
        some reset := by
  have reopens := h.reopens
  unfold reopenCancelled at reopens
  split at reopens
  · split at reopens <;> cases reopens
    refine ⟨_, ?_, ?_, h.resets⟩
    · refine .of_map List.map_map fun row _ => ?_
      dsimp only [Function.comp_apply]
      split <;> split <;> exact ⟨rfl, rfl, rfl⟩
    · exact ⟨rfl, rfl, rfl⟩
  · cases reopens
    refine ⟨_, ?_, ?_, h.resets⟩
    · refine .of_map rfl fun row _ => ?_
      split <;> exact ⟨rfl, rfl, rfl⟩
    · exact ⟨rfl, rfl, rfl⟩

/-- Until a redo closes the old execution, it keeps the notes and the extensions of the graph. -/
lemma Redone.frame :
    reset.notes = checkpoint.notes ∧ reset.extensions = checkpoint.extensions := by
  obtain ⟨before, -, ⟨notes, extensions, -⟩, resets⟩ := h.remembers
  obtain ⟨_, -, rfl⟩ := resetRows_eq_some resets
  exact foldlRecOn
    (motive := fun pruned : GraphCheckpoint => pruned.notes = checkpoint.notes ∧
      pruned.extensions = checkpoint.extensions) _ _ ⟨notes, extensions⟩ fun _ kept _ _ => kept

end Redone

/-- A row that gets back its state keeps its history. -/
lemma sameHistory_restoreRow {cancelled : Bool} {row row' : NodeProgress}
    (h : restoreRow cancelled row = some row') : SameHistory row row' := by
  unfold restoreRow at h
  split at h
  · cases h
    exact .refl row
  · split at h
    · cases h
    · split at h
      · cases h
        exact ⟨rfl, rfl, rfl⟩
      · split at h <;> cases h
        exact .refl row

lemma sameHistory_deactivatePause (row : NodeProgress) : SameHistory row (deactivatePause row) := by
  unfold deactivatePause
  split <;> exact ⟨rfl, rfl, rfl⟩

/-- A resume keeps the histories and the expansions, and records the extensions. -/
lemma applyResume_eq_some {extensions : List Extension}
    (h : applyResume checkpoint extensions = some checkpoint') :
    SameRows checkpoint checkpoint' ∧ checkpoint'.expansions = checkpoint.expansions ∧
      checkpoint'.extensions = extensions.foldl record checkpoint.extensions := by
  obtain ⟨restored, restores, rfl⟩ := map_eq_some_iff.1 h
  obtain ⟨same, expansions, recorded⟩ : SameRows checkpoint restored ∧
      restored.expansions = checkpoint.expansions ∧
      restored.extensions = checkpoint.extensions := by
    split at restores
    · obtain ⟨_, back, rfl⟩ := map_eq_some_iff.1 restores
      unfold restoreCancelledNodes at back
      split at back
      · obtain ⟨rows, mapped, rfl⟩ := map_eq_some_iff.1 back
        exact ⟨(Fallible.forall₂_of_mapM mapped).imp fun _ _ => sameHistory_restoreRow, rfl, rfl⟩
      · cases back
    · cases restores
      exact ⟨.refl, rfl, rfl⟩
  exact ⟨same.map rfl sameHistory_deactivatePause, expansions, by rw [← recorded]⟩

lemma SameRows.unpauseLoops (h : SameRows checkpoint checkpoint') (requested : List Extension) :
    SameRows checkpoint (unpauseLoops requested checkpoint') := by
  refine h.map rfl fun row => ?_
  split <;> exact ⟨rfl, rfl, rfl⟩

lemma sameHistory_settleLoop {policy : ReviewPolicy} (plan : PlannedGraph)
    (checkpoint : GraphCheckpoint) (node : GraphNode) (row : NodeProgress) (notes : RowNotes) :
    SameHistory row { settleLoop policy plan checkpoint node row with notes } := by
  unfold settleLoop
  split
  · exact ⟨rfl, rfl, rfl⟩
  · split <;> exact ⟨rfl, rfl, rfl⟩

lemma Cancels.sameHistory {row row' : NodeProgress} (h : Cancels row row') :
    SameHistory row row' := by
  cases h with
  | keep => exact .refl row
  | skip | hold | exempt | fence => exact ⟨rfl, rfl, rfl⟩

lemma Contributes.sameHistory {node : GraphNode} {row row' : NodeProgress}
    (h : Contributes node row row') : SameHistory row row' := by
  cases h with
  | succeeded | fallback => exact ⟨rfl, rfl, rfl⟩

end Provenant.Graph

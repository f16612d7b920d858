import Provenant.Graph.Expand
import Provenant.Graph.Loops
import Provenant.Graph.Notes

/-!
# Resuming a graph

A graph is resumed after its cancellation, and to extend its loops. The rows that the cancellation
skipped get back the states they had, and the accepted extensions are recorded in the same save.

## Main definitions

* `validateExtension`, `validateResumeExtension` — the checks of one extension.
* `restoreCancelledNodes` — the check on load, and the first part of a resume.
* `applyResume`, `unpauseLoops` — the checkpoint after a resume.

## Implementation notes

An extension is modelled by its kind and its values, not by its text.
-/

namespace Provenant.Graph

open List

open Json (Text text)

/-! ### Checks of an extension -/

/-- The greatest allowance of rounds. -/
def loopExpansionRounds : Nat := 1024

/-- The loop that an extension is about. -/
def Extension.loop? : Extension → Option Text
  | .rounds loop _ | .decision loop _ => some loop
  | .other _ => none

/-- The extension is a terminal decision on the loop of an identifier. -/
def Extension.decides (loop : Text) : Extension → Bool
  | .decision name _ => name == loop
  | .rounds .. | .other _ => false

/-- The loop of an identifier in the document, unless it repairs review findings. -/
def extensibleLoop (document : GraphDocument) (loop : Text) : Except Text LoopSpec :=
  match (document.nodes.find? fun node => node.id == loop && node.loopBody.isSome).bind
    (·.loopBody) with
  | none => .error (text "unknown loop")
  | some spec =>
    if spec.repair then
      .error (text "review repair cycles cannot be extended or accepted without review")
    else .ok spec

/-- `validate_extension`: the extension names a loop of the document, and its allowance is larger
than that of the document but within the bound. -/
def validateExtension (document : GraphDocument) : Extension → Except Text Unit
  | .rounds loop target => do
    let spec ← extensibleLoop document loop
    if spec.maxRounds < target ∧ target ≤ loopExpansionRounds then return
    else throw (text "expected loop.ID.rounds=N (larger absolute allowance, at most 1024) or " ++
      text "loop.ID.decision=stop|accept")
  | .decision loop _ => do
    let _ ← extensibleLoop document loop
    return
  | .other _ => throw (text "invalid loop extension")

/-- The loop is exhausted: it waits, there is a round, the work of every round succeeded, and no gate
of a round passed. -/
def exhausted (checkpoint : GraphCheckpoint) (row : NodeProgress) : Bool :=
  let rows := roundRows checkpoint row.id
  row.state == .pending && !rows.isEmpty && rows.all fun row =>
    row.state.settled && (if row.isUntil then row.state == .failed else row.state == .succeeded)

/-- The check of a new allowance against the one that the loop has. -/
def validateTarget (document : GraphDocument) (extensions : List Extension) :
    Extension → Except Text Unit
  | .rounds loop target =>
    match document.nodes.find? (·.id == loop) with
    | none => throw (text "unknown loop")
    | some original =>
      let current := allowance original extensions
      if target ≤ current then throw (text "loop allowance must increase")
      else if target - current > (original.loopBody.map (·.maxExtensionRounds)).getD 5 then
        throw (text "loop extension exceeds max_extension_rounds")
      else return
  | .decision .. | .other _ => return

/-- `validate_resume_extension`: an extension that is recorded is accepted again; a new one needs an
exhausted loop without a terminal decision. -/
def validateResumeExtension (document : GraphDocument) (checkpoint : GraphCheckpoint)
    (extension : Extension) : Except Text Unit := do
  validateExtension document extension
  if checkpoint.extensions.contains extension then return
  let loop := extension.loop?.getD []
  if checkpoint.extensions.any (·.decides loop) then
    throw (text "loop already has a terminal decision")
  match checkpoint.row? loop with
  | none => throw (text "unknown loop")
  | some row =>
    if !exhausted checkpoint row then
      throw (text "loop decisions and extensions require exhaustion")
    validateTarget document checkpoint.extensions extension

/-! ### Restored rows -/

/-- The reason under which a graph's cancellation skips its rows. -/
def graphCancelled : Text := text "graph cancelled"

/-- `restore_cancelled_nodes` on one row. -/
def restoreRow (cancelled : Bool) (row : NodeProgress) : Option NodeProgress :=
  match row.cancelledFrom with
  | none => some row
  | some state =>
    if state.settled || row.state != .skipped then none
    else if cancelled && row.skipReason == some graphCancelled then
      some { row with state, cancelledFrom := none, skipReason := none }
    else if row.skipReason.any fun reason => (text "parent ").isPrefixOf reason then some row
    else none

/-- `restore_cancelled_nodes`: the wake of the graph is the one of its rows and questions, and the
rows that the cancellation skipped get back their states. -/
def restoreCancelledNodes (checkpoint : GraphCheckpoint) : Option GraphCheckpoint :=
  if nextWake checkpoint = checkpoint.notes.wakeAt then
    (checkpoint.nodes.mapM (restoreRow checkpoint.cancelled)).map fun rows =>
      refreshWake { checkpoint with nodes := rows }
  else none

/-! ### The resume -/

/-- An extension is recorded once. -/
def record (extensions : List Extension) (extension : Extension) : List Extension :=
  if extensions.contains extension then extensions else extensions ++ [extension]

variable {extensions : List Extension} {extension other : Extension}

lemma mem_record :
    other ∈ record extensions extension ↔ other ∈ extensions ∨ other = extension := by
  unfold record
  split
  next known =>
    have known : extension ∈ extensions := contains_iff_mem.1 known
    refine ⟨.inl, ?_⟩
    rintro (old | rfl)
    · exact old
    · exact known
  · rw [mem_append, mem_singleton]

lemma mem_foldl_record {requested : List Extension} :
    other ∈ requested.foldl record extensions ↔ other ∈ extensions ∨ other ∈ requested := by
  induction requested generalizing extensions with
  | nil => simp
  | cons _ _ ih =>
    rw [foldl_cons, ih, mem_record, mem_cons]
    tauto

/-- `deactivate_expansion_pauses` on one row. -/
def deactivatePause (row : NodeProgress) : NodeProgress :=
  match row.notes.expansionCause with
  | some (.planExpansionPaused _ fallback error) =>
    { row with
      notes := { row.notes with
        expansionCause := if row.notes.expansionPause.isSome then
          some (.planExpansionPaused false fallback error) else none } }
  | _ => row

/-- `apply_resume`: the rows that a cancellation skipped are restored, the extensions are recorded,
and nothing is paused any more. -/
def applyResume (checkpoint : GraphCheckpoint) (extensions : List Extension) :
    Option GraphCheckpoint :=
  let restored := if checkpoint.cancelled then
      (restoreCancelledNodes checkpoint).map fun restored => { restored with cancelled := false }
    else some checkpoint
  restored.map fun restored => { restored with
    extensions := extensions.foldl record restored.extensions
    nodes := restored.nodes.map deactivatePause
    notes := { restored.notes with pauseReason := none, pauseCode := none } }

/-- `apply_loop_extensions` on the rows: the pause of a loop with an extension is over. -/
def unpauseLoops (requested : List Extension) (checkpoint : GraphCheckpoint) : GraphCheckpoint :=
  { checkpoint with
    nodes := checkpoint.nodes.map fun row =>
      if requested.any (·.loop? == some row.id) then
        { row with
          notes := { row.notes with loopPause := none, loopPauseCode := none, loopCause := none } }
      else row }

end Provenant.Graph

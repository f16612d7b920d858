import Provenant.Data.Fallible
import Provenant.Data.Related
import Provenant.Graph.Driver

/-!
# Cancelling and resuming a graph

A cancelled graph admits no more work. Its unsettled rows are skipped, those with a live attempt
once the attempt has stopped, and each skipped row keeps the state it had. On every load the kept
states are checked, and a resume puts them back.

## Main definitions

* `cancelGraph`, `markCancelled`, `settleCancelled` — how the rows of a cancelled graph settle.
* `CancelStep` — one saved change of a cancelled graph.
* `Resumable` — the checkpoints whose cancellation can be taken back.

## Main results

* `resume_cancel` — cancelling, settling, loading and resuming a graph gives back every row.

## Implementation notes

The rows that outlive the cancellation of the graph are marked before it settles the others; which
rows these are is left open here.
-/

namespace Provenant.Graph

open List Option

open Json (Text text)
open Related (forall₂_modify forall₂_comp)

/-! ### Cancelling -/

/-- The graph is cancelled; its rows settle afterwards. -/
def cancelGraph (checkpoint : GraphCheckpoint) : GraphCheckpoint :=
  { checkpoint with cancelled := true }

/-- A row that is skipped with its graph keeps the state it had. -/
def cancelRow (row : NodeProgress) : NodeProgress :=
  { row with
    state := .skipped, cancelledFrom := some row.state, skipReason := some graphCancelled }

/-- The row is skipped as soon as its graph is cancelled: it has no live attempt. -/
def cancelsAtOnce (row : NodeProgress) : Bool :=
  !row.state.settled && !row.detachedFromCancel && !row.live

/-- `mark_cancelled_nodes_without_live_attempts`. -/
def markCancelled (checkpoint : GraphCheckpoint) : GraphCheckpoint :=
  if checkpoint.cancelled && checkpoint.nodes.any cancelsAtOnce then
    refreshWake { checkpoint with
      nodes := checkpoint.nodes.map fun row => if cancelsAtOnce row then cancelRow row else row }
  else checkpoint

/-- The row is skipped because the owner knows that its live attempts stopped. -/
def cancelsStopped (stopped : GraphAttempt → Bool) (row : NodeProgress) : Bool :=
  row.state == .running && !row.detachedFromCancel &&
    row.attempts.all fun attempt => attempt.state == .terminal || stopped attempt

/-- One turn of the loop in `settle_cancelled_nodes`. -/
def settleCancelledRow (stopped : GraphAttempt → Bool) (checkpoint : GraphCheckpoint)
    (index : Nat) : GraphCheckpoint :=
  if checkpoint.nodes[index]?.any (cancelsStopped stopped) then
    refreshWake { checkpoint with nodes := checkpoint.nodes.modify index cancelRow }
  else checkpoint

/-- `settle_cancelled_nodes`. -/
def settleCancelled (stopped : GraphAttempt → Bool) (checkpoint : GraphCheckpoint) :
    GraphCheckpoint :=
  if checkpoint.cancelled then
    (List.range checkpoint.nodes.length).foldl (settleCancelledRow stopped)
      (markCancelled checkpoint)
  else checkpoint

/-! ### Runs of a cancelled graph -/

/-- One saved change of a cancelled graph, or a load of it. Which rows are detached and which
attempts stopped is for the host to say. -/
inductive CancelStep (checkpoint : GraphCheckpoint) : GraphCheckpoint → Prop
  /-- Rows are marked to outlive the cancellation. -/
  | detach (detached : NodeProgress → Bool) :
      CancelStep checkpoint { checkpoint with
        nodes := checkpoint.nodes.map fun row => { row with detachedFromCancel := detached row } }
  /-- The rows without a live attempt are skipped. -/
  | mark : CancelStep checkpoint (markCancelled checkpoint)
  /-- A row whose attempts stopped is skipped. -/
  | settle (stopped : GraphAttempt → Bool) (index : Nat) :
      CancelStep checkpoint (settleCancelledRow stopped checkpoint index)
  /-- The checkpoint is saved and loaded; the restored states are only looked at. -/
  | load {restored : GraphCheckpoint} (loads : restoreCancelledNodes checkpoint = some restored) :
      CancelStep checkpoint checkpoint

/-- The checkpoints whose cancellation can be taken back: the graph is not cancelled yet, loading
accepts it, and no unsettled row gives a reason why it is skipped, as the rows of a node that is
being cancelled do. -/
structure Resumable (checkpoint : GraphCheckpoint) : Prop where
  active : checkpoint.cancelled = false
  accepted : (restoreCancelledNodes checkpoint).isSome = true
  unskipped : ∀ row ∈ checkpoint.nodes, row.state.settled = false → row.skipReason = none

/-- Settling a cancelled graph is a run of saved changes. -/
lemma settleCancelled_run (stopped : GraphAttempt → Bool) (checkpoint : GraphCheckpoint) :
    Relation.ReflTransGen CancelStep checkpoint (settleCancelled stopped checkpoint) := by
  unfold settleCancelled
  split
  · exact foldlRecOn _ _ (.single .mark)
      fun _ run index _ => run.tail (.settle stopped index)
  · exact .refl

/-! ### What the cancellation keeps -/

/-- What has become of a row since its graph was cancelled. -/
inductive Held (row : NodeProgress) : NodeProgress → Prop
  | kept (detached : Bool) : Held row { row with detachedFromCancel := detached }
  | skipped (detached : Bool) (unsettled : row.state.settled = false) :
      Held row { cancelRow row with detachedFromCancel := detached }

/-- What has become of a graph since it was cancelled. -/
structure CancelledSince (before after : GraphCheckpoint) : Prop where
  shape : after = { before with
    nodes := after.nodes
    cancelled := true
    notes := { before.notes with wakeAt := nextWake after } }
  rows : Forall₂ Held before.nodes after.nodes

lemma Held.detach {row row' : NodeProgress} (h : Held row row') (detached : Bool) :
    Held row { row' with detachedFromCancel := detached } := by
  cases h with
  | kept => exact .kept detached
  | skipped _ unsettled => exact .skipped detached unsettled

/-- The wake of a graph follows from its questions and the wakes of its rows. -/
lemma nextWake_congr {checkpoint checkpoint' : GraphCheckpoint}
    (asks : checkpoint'.notes.asks = checkpoint.notes.asks)
    (wakes : checkpoint'.nodes.flatMap (fun row => row.wakes) =
      checkpoint.nodes.flatMap fun row => row.wakes) :
    nextWake checkpoint' = nextWake checkpoint := by
  unfold nextWake
  rw [asks, wakes]

/-- What one pass over a cancelled graph does to a row. -/
inductive Turns (row : NodeProgress) : NodeProgress → Prop
  | stay : Turns row row
  | skip (unsettled : row.state.settled = false) : Turns row (cancelRow row)

/-- Marking turns the rows that have no live attempt. -/
lemma markCancelled_turns (checkpoint : GraphCheckpoint) :
    markCancelled checkpoint = checkpoint ∨ ∃ rows, Forall₂ Turns checkpoint.nodes rows ∧
      markCancelled checkpoint = refreshWake { checkpoint with nodes := rows } := by
  unfold markCancelled
  split
  · refine .inr ⟨_, forall₂_map_right_iff.2 (forall₂_same.2 fun row _ => ?_), rfl⟩
    split
    next cancels =>
      simp only [cancelsAtOnce, Bool.and_eq_true, Bool.not_eq_true'] at cancels
      exact .skip cancels.1.1
    · exact .stay
  · exact .inl rfl

/-- Settling turns a row whose attempts stopped. -/
lemma settleCancelledRow_turns (stopped : GraphAttempt → Bool) (checkpoint : GraphCheckpoint)
    (index : Nat) :
    settleCancelledRow stopped checkpoint index = checkpoint ∨
      ∃ rows, Forall₂ Turns checkpoint.nodes rows ∧
        settleCancelledRow stopped checkpoint index =
          refreshWake { checkpoint with nodes := rows } := by
  unfold settleCancelledRow
  split
  next cancels =>
    refine .inr ⟨_, forall₂_modify (fun _ => .stay) _ index fun row found => .skip ?_, rfl⟩
    rw [found] at cancels
    simp only [any_some, cancelsStopped, Bool.and_eq_true, beq_iff_eq] at cancels
    rw [cancels.1.1]
    rfl
  · exact .inl rfl

/-- A row is skipped at most once, because a skipped row is settled. -/
lemma Held.turns {row row' row'' : NodeProgress} (h : Held row row') (turns : Turns row' row'') :
    Held row row'' := by
  cases turns with
  | stay => exact h
  | skip unsettled =>
    cases h with
    | kept detached => exact .skipped detached unsettled
    | skipped => cases unsettled

variable {before after next : GraphCheckpoint}

/-- A pass over a cancelled graph keeps the states from before it was cancelled. -/
lemma CancelledSince.turns (h : CancelledSince before after)
    (turned : next = after ∨ ∃ rows, Forall₂ Turns after.nodes rows ∧
      next = refreshWake { after with nodes := rows }) : CancelledSince before next := by
  rcases turned with rfl | ⟨rows, turns, rfl⟩
  · exact h
  · refine ⟨?_, forall₂_comp (fun _ _ _ held turn => held.turns turn) h.rows turns⟩
    rw [h.shape]
    rfl

/-- One saved change of a cancelled graph keeps the states from before it was cancelled. -/
lemma CancelledSince.step (h : CancelledSince before after)
    (step : CancelStep after next) : CancelledSince before next := by
  cases step with
  | detach detached =>
    have held : Forall₂ Held before.nodes
        (after.nodes.map fun row => { row with detachedFromCancel := detached row }) :=
      forall₂_map_right_iff.2 (h.rows.imp fun row row' held => held.detach _)
    refine ⟨?_, held⟩
    have wake : nextWake { after with
        nodes := after.nodes.map fun row => { row with detachedFromCancel := detached row } } =
        nextWake after := nextWake_congr rfl (by rw [flatMap_map]; rfl)
    rw [wake]
    conv_lhs => rw [h.shape]
  | mark => exact h.turns (markCancelled_turns after)
  | settle stopped index => exact h.turns (settleCancelledRow_turns stopped after index)
  | load => exact h

/-! ### Taking the cancellation back -/

/-- The work of a node: what a cancellation that was taken back leaves as it was. -/
structure SameWork (row row' : NodeProgress) : Prop where
  id : row'.id = row.id
  state : row'.state = row.state
  skipReason : row'.skipReason = row.skipReason
  cancelledFrom : row'.cancelledFrom = row.cancelledFrom
  wakes : row'.wakes = row.wakes
  attempts : row'.attempts = row.attempts
  previousAttempts : row'.previousAttempts = row.previousAttempts

/-- A row that loading accepts outside a cancelled graph keeps no state, or it was skipped with a
node around it. -/
lemma restoreRow_active {row restored : NodeProgress} (h : restoreRow false row = some restored) :
    row.cancelledFrom = none ∨ (row.state = .skipped ∧ ∃ state, row.cancelledFrom = some state ∧
      state.settled = false ∧ ∃ reason, row.skipReason = some reason ∧
        (text "parent ").isPrefixOf reason = true) := by
  unfold restoreRow at h
  cases kept : row.cancelledFrom with
  | none => exact .inl rfl
  | some state =>
    rw [kept] at h
    simp only [Bool.false_and, Bool.false_eq_true, if_false] at h
    split at h
    · cases h
    next accepted =>
      simp only [Bool.or_eq_true, bne_iff_ne, not_or, Bool.not_eq_true, ne_eq,
        Decidable.not_not] at accepted
      split at h
      next parent =>
        obtain ⟨reason, skipReason, starts⟩ := (Option.any_eq_true _ _).1 parent
        exact .inr ⟨accepted.2, state, rfl, accepted.1, reason, skipReason, starts⟩
      · cases h

/-- Restoring a row takes its cancellation back. -/
lemma Held.restore {row row' restored : NodeProgress} (h : Held row row')
    (accepted : restoreRow false row = some restored)
    (unskipped : row.state.settled = false → row.skipReason = none) :
    restoreRow true row' = some { row with detachedFromCancel := row'.detachedFromCancel } := by
  cases h with
  | kept =>
    rcases restoreRow_active accepted with none | ⟨skipped, state, kept, unsettled, reason, why, starts⟩
    · simp [restoreRow, none]
    · have other : reason ≠ graphCancelled := by
        rintro rfl
        exact absurd starts (by decide)
      simp [restoreRow, kept, unsettled, skipped, why, starts, other]
  | skipped _ unsettled =>
    have none : row.cancelledFrom = none := by
      rcases restoreRow_active accepted with none | ⟨skipped, _⟩
      · exact none
      · rw [skipped] at unsettled
        cases unsettled
    simp [restoreRow, Graph.cancelRow, unsettled, none, unskipped unsettled]

lemma attempts_held {rows rows' : List NodeProgress} (h : Forall₂ Held rows rows') :
    rows'.map (·.attempts) = rows.map (·.attempts) := by
  induction h with
  | nil => rfl
  | cons head _ ih =>
    rw [map_cons, map_cons, ih]
    cases head <;> rfl

/-- A row with another detachment mark and deactivated pauses does the same work. -/
lemma sameWork_deactivatePause (row : NodeProgress) (detached : Bool) :
    SameWork row (deactivatePause { row with detachedFromCancel := detached }) := by
  unfold deactivatePause
  split <;> exact ⟨rfl, rfl, rfl, rfl, rfl, rfl, rfl⟩

/-- A row that was restored does the work from before the cancellation. -/
def Restored (row row' : NodeProgress) : Prop :=
  ∃ detached, row' = { row with detachedFromCancel := detached }

/-- The rows of a cancelled graph are restored one by one. -/
lemma restoreRows {rows rows' loaded : List NodeProgress} (held : Forall₂ Held rows rows')
    (accepted : Forall₂ (fun row row' => restoreRow false row = some row') rows loaded)
    (unskipped : ∀ row ∈ rows, row.state.settled = false → row.skipReason = none) :
    ∃ restored, rows'.mapM (restoreRow true) = some restored ∧ Forall₂ Restored rows restored := by
  induction held generalizing loaded with
  | nil => exact ⟨[], rfl, .nil⟩
  | @cons row row' rows rows' head tail ih =>
    obtain _ | ⟨firstAccepted, accepted⟩ := accepted
    obtain ⟨others, mapped, restored⟩ := ih accepted
      fun row member => unskipped row (mem_cons_of_mem _ member)
    have back := head.restore firstAccepted (unskipped row mem_cons_self)
    refine ⟨{ row with detachedFromCancel := row'.detachedFromCancel } :: others, ?_,
      .cons ⟨_, rfl⟩ restored⟩
    simp [back, mapped]

/-- The wakes of restored rows are those from before the cancellation. -/
lemma wakes_restored {rows restored : List NodeProgress} (h : Forall₂ Restored rows restored) :
    restored.flatMap (fun row => row.wakes) = rows.flatMap fun row => row.wakes := by
  induction h with
  | nil => rfl
  | cons head _ ih =>
    obtain ⟨_, rfl⟩ := head
    simp only [flatMap_cons, ih]
    rfl

/-- A graph can be loaded while it is cancelled, and its rows can be restored.

**Proof sketch.** The wake was refreshed with the last change of the rows, so it agrees with them.
Every row is as before or was skipped from an unsettled state, which it keeps; restoring puts that
state back and drops the reason, and there was none before. The restored rows have the wakes they
had, so the refreshed wake is the one from before. -/
lemma CancelledSince.restore (resumable : Resumable before) (h : CancelledSince before after) :
    ∃ restored, restoreCancelledNodes after = some restored ∧
      restored.notes.wakeAt = before.notes.wakeAt ∧
      Forall₂ Restored before.nodes restored.nodes := by
  obtain ⟨_, accepted⟩ := isSome_iff_exists.1 resumable.accepted
  unfold restoreCancelledNodes at accepted
  rw [resumable.active] at accepted
  split at accepted
  next wake =>
    obtain ⟨rows, mapped, -⟩ := map_eq_some_iff.1 accepted
    obtain ⟨restored, back, same⟩ :=
      restoreRows h.rows (Fallible.forall₂_of_mapM mapped) resumable.unskipped
    have cancelled : after.cancelled = true := by rw [h.shape]
    have asks : after.notes.asks = before.notes.asks := by rw [h.shape]
    have agrees : nextWake after = after.notes.wakeAt := by
      conv_rhs => rw [h.shape]
    refine ⟨refreshWake { after with nodes := restored }, ?_, ?_, same⟩
    · unfold restoreCancelledNodes
      rw [if_pos agrees, cancelled, back]
      rfl
    · have wakes : nextWake { after with nodes := restored } = nextWake before :=
        nextWake_congr asks (wakes_restored same)
      exact wakes.trans wake
  · cases accepted

/-- Every state of a cancelled graph goes back to the graph that was cancelled. -/
lemma cancelledSince_of_run (resumable : Resumable before)
    (run : Relation.ReflTransGen CancelStep (cancelGraph before) after) :
    CancelledSince before after := by
  induction run with
  | refl =>
    refine ⟨?_, forall₂_same.2 fun row _ => .kept row.detachedFromCancel⟩
    obtain ⟨_, accepted⟩ := isSome_iff_exists.1 resumable.accepted
    unfold restoreCancelledNodes at accepted
    split at accepted
    next wake =>
      have same : nextWake (cancelGraph before) = before.notes.wakeAt := wake
      rw [same]
      rfl
    · cases accepted
  | tail _ step ih => exact ih.step step

/-- Cancelling and resuming a graph is the identity on its work. In every state that a cancelled
graph goes through, by marking and settling its rows and by any number of saves and loads, the
attempts are those from before the cancellation and the checkpoint can be loaded again; and a
resume gives back the state, the skip reason and the wake of every row and the wake of the
graph. -/
theorem resume_cancel (resumable : Resumable before)
    (run : Relation.ReflTransGen CancelStep (cancelGraph before) after)
    (extensions : List Extension) :
    (restoreCancelledNodes after).isSome = true ∧
      after.nodes.map (·.attempts) = before.nodes.map (·.attempts) ∧
      ∃ resumed, applyResume after extensions = some resumed ∧ resumed.cancelled = false ∧
        resumed.notes.wakeAt = before.notes.wakeAt ∧
        Forall₂ SameWork before.nodes resumed.nodes := by
  have since := cancelledSince_of_run resumable run
  obtain ⟨_, back, wake, rows⟩ := since.restore resumable
  have cancelled : after.cancelled = true := by rw [since.shape]
  refine ⟨by rw [back]; rfl, ?_, ?_⟩
  · exact attempts_held since.rows
  · unfold applyResume
    rw [if_pos cancelled, back]
    refine ⟨_, rfl, rfl, wake, forall₂_map_right_iff.2 (rows.imp ?_)⟩
    rintro row _ ⟨detached, rfl⟩
    exact sameWork_deactivatePause row detached

/-- A graph with a node that waits for its launch and one that has not started. -/
def waitingGraph : GraphCheckpoint :=
  { nodes := [
      { id := text "work", state := .running
        launchRetry := some { deadline := none, wakeAt := some 7 } },
      { id := text "check" }]
    notes := { wakeAt := some 7 } }

/-- The general result at that graph, whose nodes are both skipped and restored. -/
theorem resume_cancel_waitingGraph :
    (settleCancelled (fun _ => false) (cancelGraph waitingGraph)).nodes.map (·.state) =
        [.skipped, .skipped] ∧
      ∃ resumed, applyResume (settleCancelled (fun _ => false) (cancelGraph waitingGraph)) [] =
          some resumed ∧
        resumed.notes.wakeAt = some 7 ∧ Forall₂ SameWork waitingGraph.nodes resumed.nodes := by
  have resumable : Resumable waitingGraph := ⟨rfl, rfl, by simp [waitingGraph]⟩
  obtain ⟨-, -, resumed, resumes, -, wake, rows⟩ :=
    resume_cancel resumable (settleCancelled_run (fun _ => false) (cancelGraph waitingGraph)) []
  exact ⟨rfl, resumed, resumes, wake, rows⟩

/-- A graph that was cancelled before. -/
def cancelledGraph : GraphCheckpoint :=
  { nodes := [cancelRow { id := text "work" }], cancelled := true }

/-- A graph whose only row is pending and yet gives a reason why it is skipped. -/
def annotatedGraph : GraphCheckpoint :=
  { nodes := [{ id := text "work", skipReason := some (text "kept for later") }] }

/-- Loading accepts a graph that was cancelled before and a pending row with a skip reason, and no
node of the two graphs is skipped with a node around it. Cancelling them once more and resuming
does not give back the state of the one and the skip reason of the other. -/
theorem resume_cancel_differs :
    (restoreCancelledNodes cancelledGraph).isSome = true ∧
      cancelledGraph.nodes.map (·.state) = [.skipped] ∧
      (applyResume (settleCancelled (fun _ => true) (cancelGraph cancelledGraph)) []).map
        (fun resumed => resumed.nodes.map (·.state)) = some [.pending] ∧
      (restoreCancelledNodes annotatedGraph).isSome = true ∧
      annotatedGraph.nodes.map (·.skipReason) = [some (text "kept for later")] ∧
      (applyResume (settleCancelled (fun _ => true) (cancelGraph annotatedGraph)) []).map
        (fun resumed => resumed.nodes.map (·.skipReason)) = some [none] :=
  ⟨rfl, rfl, rfl, rfl, rfl, rfl⟩

/-! ### Cancellations in a run -/

/-- What the driver does to a row of a cancelled graph is a cancellation of the row. -/
lemma CancelStep.cancels {checkpoint : GraphCheckpoint} (step : CancelStep checkpoint next) :
    Forall₂ Cancels checkpoint.nodes next.nodes := by
  have turned : ∀ {next : GraphCheckpoint}, (next = checkpoint ∨ ∃ rows,
      Forall₂ Turns checkpoint.nodes rows ∧
        next = refreshWake { checkpoint with nodes := rows }) →
      Forall₂ Cancels checkpoint.nodes next.nodes := by
    rintro next (rfl | ⟨rows, turns, rfl⟩)
    · exact forall₂_same.2 fun row _ => .keep
    · refine turns.imp fun row row' turn => ?_
      cases turn with
      | stay => exact .keep
      | skip unsettled => exact .skip graphCancelled row.notes unsettled
  cases step with
  | detach detached =>
    exact forall₂_map_right_iff.2 (forall₂_same.2 fun row _ => .exempt (detached row))
  | mark => exact turned (markCancelled_turns checkpoint)
  | settle stopped index => exact turned (settleCancelledRow_turns stopped checkpoint index)
  | load => exact turned (.inl rfl)

end Provenant.Graph

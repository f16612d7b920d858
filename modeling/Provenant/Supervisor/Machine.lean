import Mathlib.Algebra.Group.Nat.Defs
import Mathlib.Data.List.Induction
import Mathlib.Data.List.Nodup
import Provenant.Data.Machine

/-!
# The lifecycle of a supervised provider

The supervisor of a provider process decides with a pure machine: each turn of its loop hands in
one event and one tick of observations, and the machine returns the effects to apply. Only six
reasons may authorise a signal to the provider. This file has the machine and follows its effects
over every run: which step may deliver a stop and why, that reasons are recorded once and kept, and
that the exit is published once, with no stop after it.

## Main definitions

* `Supervisor.State`, `Supervisor.Event`, `Supervisor.Tick`, `Supervisor.Effect` — the machine.
* `Supervisor.step` — one turn.
* `Supervisor.Authorised` — what authorises the delivery of a stop in a turn.
* `Supervisor.Turn` — the four kinds of turns, by what they do to phase, reasons and effects.

## Main results

* `Supervisor.turn` — every turn is of one of these kinds.
* `Supervisor.signals_authorised` — the rules about stops and publication, over every run.
* `Supervisor.cleanup_adds_reason` — a run in which a reason is added after the machine was
  stopping: a cancelled provider that left descendants behind.

## Implementation notes

Milliseconds are natural numbers; deadlines are computed with the checked addition of `u64`. The
serialised forms and `timed_out` are left out: no turn reads them. `deadline_in_ms` is in
`Supervisor.Turns`.
-/

namespace Provenant.Supervisor

open List

/-! ### The machine -/

/-- `Phase`. -/
inductive Phase
  | prepared
  | running
  | terminalGrace
  | stopping
  | cleaning
  | exited
  | published
  deriving DecidableEq

/-- `StopReason`: the only reasons that may authorise signalling. -/
inductive StopReason
  | explicitCancellation
  | wallDeadline
  | protocolRejected
  | supervisorSignal
  | postTerminalCleanup
  | tokenBudget
  deriving DecidableEq

/-- `DeliveryFailure`. -/
inductive DeliveryFailure
  | identityChanged
  | notOwned
  | noSuchProcess
  | permissionDenied
  | osError (code : Int)
  deriving DecidableEq

/-- `DeliveryOutcome`. -/
inductive DeliveryOutcome
  | delivered
  | failed (failure : DeliveryFailure)
  deriving DecidableEq

/-- `StopAttempt`. -/
structure StopAttempt where
  reason : StopReason
  delivery : Option DeliveryOutcome
  deriving DecidableEq

/-- `CleanupObservation`. -/
inductive CleanupObservation
  | unknown
  | pending
  | descendantsPresent
  | unresolved
  | complete
  deriving DecidableEq

/-- `PublicationFailure`. -/
inductive PublicationFailure
  | noSpace
  | ioError (code : Int)
  | reservationUnavailable
  deriving DecidableEq

/-- `PublicationOutcome`. -/
inductive PublicationOutcome
  | durable
  | pending (failure : PublicationFailure)
  | visibleDurabilityUnconfirmed (failure : PublicationFailure)
  deriving DecidableEq

/-- `DeadlineKind`. -/
inductive DeadlineKind
  | wall
  | rootFlush
  | descendantGrace
  deriving DecidableEq

/-- `Termination`. -/
inductive Termination
  | exit (code : Int)
  | signal (number : Int)
  deriving DecidableEq

/-- `Effect`. -/
inductive Effect
  | closeStdin
  | beginCleanup (exit : Termination)
  | deliverStop (reason : StopReason)
  | publishExit
  | retryExitPublication
  | retryPublishedDirectorySync
  | deadlineUnavailable (kind : DeadlineKind)
  | rejectDeliveryReceipt (reason : StopReason)
  deriving DecidableEq

/-- `Budgets`. -/
structure Budgets where
  wallDeadlineMs : Nat
  rootFlushMs : Nat
  descendantGraceMs : Nat
  deriving DecidableEq

/-- `State`: the phase, the deadlines set so far, how the root process ended, and the attempts to
stop it, one for each recorded reason. -/
structure State where
  phase : Phase
  budgets : Budgets
  rootFlushDeadlineMs : Option Nat
  descendantDeadlineMs : Option Nat
  exit : Option Termination
  neverSpawnedReason : Option StopReason
  stopAttempts : List StopAttempt
  publication : Option PublicationOutcome
  lastProgressMs : Option Nat
  deriving DecidableEq

/-- `State::prepared`. -/
def State.prepared (budgets : Budgets) : State where
  phase := .prepared
  budgets := budgets
  rootFlushDeadlineMs := none
  descendantDeadlineMs := none
  exit := none
  neverSpawnedReason := none
  stopAttempts := []
  publication := none
  lastProgressMs := none

/-- The recorded reasons, in the order in which they were recorded. -/
def State.reasons (state : State) : List StopReason := state.stopAttempts.map (·.reason)

/-- `Event`. -/
inductive Event
  | started
  | progress
  | terminal
  | cancel
  | protocolRejected
  | supervisorSignal
  | tokenBudget
  | retryStop (reason : StopReason)
  | silence
  | captureFailure
  | observationFailure
  deriving DecidableEq

/-- `DeliveryReceipt`. -/
structure DeliveryReceipt where
  reason : StopReason
  outcome : DeliveryOutcome
  deriving DecidableEq

/-- `Tick`. -/
structure Tick where
  nowMs : Nat
  wallMs : Nat
  observedExit : Option Termination
  delivery : Option DeliveryReceipt
  cleanup : Option CleanupObservation
  publication : Option PublicationOutcome
  deriving DecidableEq

/-- `Tick::at`. -/
def Tick.at (nowMs : Nat) : Tick where
  nowMs := nowMs
  wallMs := 0
  observedExit := none
  delivery := none
  cleanup := none
  publication := none

/-- `u64::checked_add`. -/
def checkedAdd (a b : Nat) : Option Nat := if a + b < 2 ^ 64 then some (a + b) else none

/-- Set the delivery of the first attempt with a reason. -/
def setDelivery (reason : StopReason) (delivery : Option DeliveryOutcome) :
    List StopAttempt → List StopAttempt
  | [] => []
  | attempt :: rest =>
    if attempt.reason = reason then { attempt with delivery := delivery } :: rest
    else attempt :: setDelivery reason delivery rest

/-- The first attempt with a reason. -/
def State.attempt (state : State) (reason : StopReason) : Option StopAttempt :=
  state.stopAttempts.find? fun attempt => attempt.reason == reason

/-- The first part of `step`: the receipt of a delivery. -/
def receive (state : State) : Option DeliveryReceipt → State × List Effect
  | none => (state, [])
  | some receipt =>
    match state.attempt receipt.reason with
    | some _ =>
      ({ state with
          stopAttempts := setDelivery receipt.reason (some receipt.outcome) state.stopAttempts },
        [])
    | none => (state, [.rejectDeliveryReceipt receipt.reason])

/-- `request_stop`. -/
def requestStop (state : State) (reason : StopReason) : State × List Effect :=
  if state.phase = .stopping ∨ (state.phase = .cleaning ∧ reason ≠ .postTerminalCleanup) then
    (state, [])
  else
    match state.attempt reason with
    | some attempt =>
      ({ state with phase := .stopping },
        if attempt.delivery.isSome then [] else [.deliverStop reason])
    | none =>
      ({ state with phase := .stopping, stopAttempts := state.stopAttempts ++ [⟨reason, none⟩] },
        [.deliverStop reason])

/-- `retry_stop`. -/
def retryStop (state : State) (reason : StopReason) : State × List Effect :=
  if state.phase ≠ .stopping then (state, [])
  else
    match state.attempt reason with
    | some _ =>
      ({ state with stopAttempts := setDelivery reason none state.stopAttempts },
        [.deliverStop reason])
    | none => (state, [])

/-- The part of `step` that takes the observation of an exit. -/
def observeExit (state : State) (exit : Termination) (nowMs : Nat) : State × List Effect :=
  let deadline := checkedAdd nowMs state.budgets.descendantGraceMs
  ({ state with exit := some exit, phase := .cleaning, descendantDeadlineMs := deadline },
    (if deadline.isNone then [.deadlineUnavailable .descendantGrace] else []) ++
      [.beginCleanup exit])

/-- The part of `step` in phase `Exited`. -/
def stepExited (state : State) : Option PublicationOutcome → State × List Effect
  | none => (state, [])
  | some .durable => ({ state with publication := some .durable, phase := .published }, [])
  | some (.pending failure) =>
    ({ state with publication := some (.pending failure) }, [.retryExitPublication])
  | some (.visibleDurabilityUnconfirmed failure) =>
    ({ state with publication := some (.visibleDurabilityUnconfirmed failure) },
      [.retryPublishedDirectorySync])

/-- The exit of a provider that was never spawned. -/
def neverSpawned (state : State) (reason : StopReason) : State × List Effect :=
  ({ state with phase := .exited, neverSpawnedReason := some reason }, [.publishExit])

/-- The part of `step` in phase `Prepared`, before the wall deadline. -/
def stepPrepared (state : State) : Event → State × List Effect
  | .started => ({ state with phase := .running }, [])
  | .cancel => neverSpawned state .explicitCancellation
  | .supervisorSignal => neverSpawned state .supervisorSignal
  | _ => (state, [])

/-- The part of `step` in phase `Running`, before the wall deadline. -/
def stepRunning (state : State) (nowMs : Nat) : Event → State × List Effect
  | .progress => ({ state with lastProgressMs := some nowMs }, [])
  | .terminal =>
    let deadline := checkedAdd nowMs state.budgets.rootFlushMs
    ({ state with phase := .terminalGrace, rootFlushDeadlineMs := deadline },
      .closeStdin :: if deadline.isNone then [.deadlineUnavailable .rootFlush] else [])
  | .cancel => requestStop state .explicitCancellation
  | .protocolRejected => requestStop state .protocolRejected
  | .supervisorSignal => requestStop state .supervisorSignal
  | .tokenBudget => requestStop state .tokenBudget
  | _ => (state, [])

/-- The part of `step` in phase `TerminalGrace` that looks at the event. -/
def graceEvent (state : State) : Event → State × List Effect
  | .cancel => requestStop state .explicitCancellation
  | .protocolRejected => requestStop state .protocolRejected
  | .supervisorSignal => requestStop state .supervisorSignal
  | .retryStop reason => retryStop state reason
  | _ => (state, [])

/-- The part of `step` in phase `TerminalGrace`, once progress is noted. -/
def graceTurn (state : State) (nowMs : Nat) (event : Event) : State × List Effect :=
  if state.rootFlushDeadlineMs.any fun deadline => decide (deadline ≤ nowMs) then
    requestStop state .postTerminalCleanup
  else graceEvent state event

/-- The part of `step` in phase `TerminalGrace`, before the wall deadline. -/
def stepTerminalGrace (state : State) (nowMs : Nat) (event : Event) : State × List Effect :=
  graceTurn (if event = .progress then { state with lastProgressMs := some nowMs } else state)
    nowMs event

/-- The part of `step` in phase `Stopping` that looks at the event. -/
def stoppingEvent (state : State) : Event → State × List Effect
  | .retryStop reason => retryStop state reason
  | _ => (state, [])

/-- The part of `step` in phase `Stopping`. -/
def stepStopping (state : State) (cleanup : Option CleanupObservation) (event : Event) :
    State × List Effect :=
  let retried := stoppingEvent state event
  if retried.1.exit.isSome ∧ cleanup = some .complete then
    ({ retried.1 with phase := .exited }, retried.2 ++ [.publishExit])
  else retried

/-- The part of `step` in phase `Cleaning`. -/
def stepCleaning (state : State) (nowMs : Nat) (cleanup : Option CleanupObservation) :
    State × List Effect :=
  if cleanup = some .complete ∨ cleanup = some .unresolved then
    ({ state with phase := .exited }, [.publishExit])
  else if cleanup = some .descendantsPresent ∧
      state.descendantDeadlineMs.any fun deadline => decide (deadline ≤ nowMs) then
    requestStop state .postTerminalCleanup
  else (state, [])

/-- The phases in which an exit can be observed. -/
def Phase.live : Phase → Bool
  | .running | .terminalGrace | .stopping => true
  | _ => false

/-- The tick has reached the wall deadline, on either clock. -/
def State.wallReached (state : State) (tick : Tick) : Prop :=
  state.budgets.wallDeadlineMs ≤ max tick.nowMs tick.wallMs

instance (state : State) (tick : Tick) : Decidable (state.wallReached tick) :=
  inferInstanceAs (Decidable (_ ≤ _))

/-- The rest of `step`, after the receipt of a delivery. -/
def advance (state : State) (event : Event) (tick : Tick) : State × List Effect :=
  match tick.observedExit.filter fun _ => state.phase.live with
  | some exit => observeExit state exit tick.nowMs
  | none =>
    match state.phase with
    | .published => (state, [])
    | .exited => stepExited state tick.publication
    | .prepared =>
      if state.budgets.wallDeadlineMs ≤ tick.nowMs then neverSpawned state .wallDeadline
      else stepPrepared state event
    | .running =>
      if state.wallReached tick then requestStop state .wallDeadline
      else stepRunning state tick.nowMs event
    | .terminalGrace =>
      if state.wallReached tick then requestStop state .wallDeadline
      else stepTerminalGrace state tick.nowMs event
    | .stopping => stepStopping state tick.cleanup event
    | .cleaning => stepCleaning state tick.nowMs tick.cleanup

/-- `step`: one event and one tick. The delivery that the tick reports is received first, and the
event is handled in the state after it. -/
def step (state : State) (event : Event) (tick : Tick) : State × List Effect :=
  let received := receive state tick.delivery
  let advanced := advance received.1 event tick
  (advanced.1, received.2 ++ advanced.2)

/-! ### What one turn does -/

/-- The reason that an event asks for. -/
def Event.asks : Event → Option StopReason
  | .cancel => some .explicitCancellation
  | .protocolRejected => some .protocolRejected
  | .supervisorSignal => some .supervisorSignal
  | .tokenBudget => some .tokenBudget
  | _ => none

/-- A deadline that a reason stands for has been reached. The end of the grace for descendants
counts only when descendants have been seen. -/
inductive DeadlineReached (state : State) (tick : Tick) : StopReason → Prop
  | wall (reached : state.wallReached tick) : DeadlineReached state tick .wallDeadline
  | rootFlush {deadline : Nat} (set : state.rootFlushDeadlineMs = some deadline)
      (reached : deadline ≤ tick.nowMs) : DeadlineReached state tick .postTerminalCleanup
  | descendants {deadline : Nat} (set : state.descendantDeadlineMs = some deadline)
      (reached : deadline ≤ tick.nowMs) (seen : tick.cleanup = some .descendantsPresent) :
      DeadlineReached state tick .postTerminalCleanup

/-- What authorises the delivery of a stop in a turn: an event that asks for it, a deadline, or
the retry of a reason that is recorded already. -/
inductive Authorised (state : State) (event : Event) (tick : Tick) (reason : StopReason) :
    Prop
  | asked (asks : event.asks = some reason)
  | deadline (reached : DeadlineReached state tick reason)
  | retry (event : event = .retryStop reason) (recorded : reason ∈ state.reasons)

/-- The effects that signal the provider or publish its exit. -/
def Effect.isSignal : Effect → Bool
  | .deliverStop _ | .publishExit => true
  | _ => false

/-- The phases that a turn without a signal can move between. -/
inductive QuietMove (event : Event) : Phase → Phase → Prop
  | stay {phase : Phase} : QuietMove event phase phase
  | start (started : event = .started) : QuietMove event .prepared .running
  | close : QuietMove event .running .terminalGrace
  | exit {phase : Phase} (live : phase.live = true) : QuietMove event phase .cleaning
  | publish : QuietMove event .exited .published

/-- The phases from which a stop is requested. -/
def Phase.stoppable : Phase → Bool
  | .running | .terminalGrace | .cleaning => true
  | _ => false

/-- The kinds of turns, by what they do to the phase, to the reasons and to the effects. -/
inductive Turn (state : State) (event : Event) (tick : Tick) (next : State)
    (effects : List Effect) : Prop
  | quiet (move : QuietMove event state.phase next.phase) (same : next.reasons = state.reasons)
      (silent : ∀ effect ∈ effects, effect.isSignal = false)
  | publishes (before : state.phase = .prepared ∨ state.phase = .stopping ∨ state.phase = .cleaning)
      (move : next.phase = .exited) (same : next.reasons = state.reasons)
      (publish : effects = [.publishExit])
  | requests (reason : StopReason) (before : state.phase.stoppable = true)
      (cleaning : state.phase = .cleaning → reason = .postTerminalCleanup)
      (authority : event.asks = some reason ∨ DeadlineReached state tick reason)
      (move : next.phase = .stopping)
      (record : next.reasons =
        if reason ∈ state.reasons then state.reasons else state.reasons ++ [reason])
      (deliver : effects = [] ∨ effects = [.deliverStop reason])
  | retries (reason : StopReason) (before : state.phase = .stopping)
      (retry : event = .retryStop reason) (recorded : reason ∈ state.reasons)
      (same : next.reasons = state.reasons)
      (deliver : next.phase = .stopping ∧ effects = [.deliverStop reason] ∨
        next.phase = .exited ∧ effects = [.deliverStop reason, .publishExit])

/-- A delivery does not change the reasons. -/
@[simp] lemma map_reason_setDelivery (reason : StopReason) (delivery : Option DeliveryOutcome)
    (attempts : List StopAttempt) :
    (setDelivery reason delivery attempts).map (·.reason) = attempts.map (·.reason) := by
  induction attempts with
  | nil => rfl
  | cons _ _ ih =>
    rw [setDelivery]
    split_ifs <;> simp [ih]

/-- An attempt is found exactly for the recorded reasons. -/
lemma isSome_attempt (state : State) (reason : StopReason) :
    (state.attempt reason).isSome = true ↔ reason ∈ state.reasons := by
  rw [State.attempt, find?_isSome, State.reasons]
  simp

/-- The receipt of a delivery changes the attempts, not their reasons, and signals nothing. -/
lemma receive_spec (state : State) (delivery : Option DeliveryReceipt) :
    (∃ attempts, (receive state delivery).1 = { state with stopAttempts := attempts } ∧
      attempts.map (·.reason) = state.reasons) ∧
      ∀ effect ∈ (receive state delivery).2, effect.isSignal = false := by
  cases delivery with
  | none => exact ⟨⟨state.stopAttempts, rfl, rfl⟩, by simp [receive]⟩
  | some receipt =>
    rw [receive]
    cases state.attempt receipt.reason with
    | none => exact ⟨⟨state.stopAttempts, rfl, rfl⟩, by simp [Effect.isSignal]⟩
    | some _ => exact ⟨⟨_, rfl, by simp [State.reasons]⟩, by simp⟩

variable {state : State} {event : Event} {tick : Tick} {reason : StopReason}

/-- A request from a phase that can be stopped records its reason. -/
lemma Turn.of_requestStop (before : state.phase.stoppable = true)
    (cleaning : state.phase = .cleaning → reason = .postTerminalCleanup)
    (authority : event.asks = some reason ∨ DeadlineReached state tick reason) :
    Turn state event tick (requestStop state reason).1 (requestStop state reason).2 := by
  have allowed : ¬(state.phase = .stopping ∨
      (state.phase = .cleaning ∧ reason ≠ .postTerminalCleanup)) := by
    rintro (stopping | ⟨phase, other⟩)
    · simp [stopping, Phase.stoppable] at before
    · exact other (cleaning phase)
  have recorded := isSome_attempt state reason
  rw [requestStop, if_neg allowed]
  cases found : state.attempt reason with
  | some attempt =>
    rw [found] at recorded
    have known := recorded.1 rfl
    refine .requests reason before cleaning authority rfl ?_ ?_
    · rw [if_pos known]
      rfl
    · by_cases delivered : attempt.delivery.isSome <;> simp [delivered]
  | none =>
    rw [found] at recorded
    have new : reason ∉ state.reasons := fun known => by simpa using recorded.2 known
    refine .requests reason before cleaning authority rfl ?_ (.inr rfl)
    rw [if_neg new]
    simp [State.reasons]

/-- A working provider is stopped on the authority of an event or of a deadline. -/
lemma Turn.of_working (working : state.phase = .running ∨ state.phase = .terminalGrace)
    (authority : event.asks = some reason ∨ DeadlineReached state tick reason) :
    Turn state event tick (requestStop state reason).1 (requestStop state reason).2 := by
  refine .of_requestStop ?_ ?_ authority <;>
    rcases working with phase | phase <;> simp [phase, Phase.stoppable]

lemma Turn.idle : Turn state event tick state [] := .quiet .stay rfl (by simp)

lemma turn_stepPrepared (phase : state.phase = .prepared) :
    Turn state event tick (stepPrepared state event).1 (stepPrepared state event).2 := by
  cases event with
  | started => exact .quiet (phase ▸ .start rfl) rfl (by simp [stepPrepared])
  | cancel | supervisorSignal => exact .publishes (.inl phase) rfl rfl rfl
  | _ => exact .idle

lemma turn_stepRunning (phase : state.phase = .running) :
    Turn state event tick (stepRunning state tick.nowMs event).1
      (stepRunning state tick.nowMs event).2 := by
  cases event with
  | progress => exact .quiet .stay rfl (by simp [stepRunning])
  | terminal =>
    refine .quiet (phase ▸ .close) rfl ?_
    rw [stepRunning]
    cases checkedAdd tick.nowMs state.budgets.rootFlushMs <;> simp [Effect.isSignal]
  | cancel | protocolRejected | supervisorSignal | tokenBudget =>
    exact .of_working (.inl phase) (.inl rfl)
  | _ => exact .idle

/-- A turn depends on the state by its phase, deadlines and reasons only. -/
lemma Turn.congr {other next : State} {effects : List Effect}
    (turn : Turn other event tick next effects) (phase : other.phase = state.phase)
    (budgets : other.budgets = state.budgets)
    (flush : other.rootFlushDeadlineMs = state.rootFlushDeadlineMs)
    (grace : other.descendantDeadlineMs = state.descendantDeadlineMs)
    (reasons : other.reasons = state.reasons) : Turn state event tick next effects := by
  have deadline : ∀ {reason}, DeadlineReached other tick reason →
      DeadlineReached state tick reason := by
    intro reason reached
    cases reached with
    | wall => exact .wall (by rwa [State.wallReached, ← budgets])
    | rootFlush set reached => exact .rootFlush (flush ▸ set) reached
    | descendants set reached seen => exact .descendants (grace ▸ set) reached seen
  cases turn with
  | quiet move same silent => exact .quiet (phase ▸ move) (same.trans reasons) silent
  | publishes before move same publish =>
    exact .publishes (phase ▸ before) move (same.trans reasons) publish
  | requests reason before cleaning authority move record deliver =>
    exact .requests reason (phase ▸ before) (phase ▸ cleaning) (authority.imp id deadline) move
      (reasons ▸ record) deliver
  | retries reason before retry recorded same deliver =>
    exact .retries reason (phase ▸ before) retry (reasons ▸ recorded) (same.trans reasons) deliver

/-- A turn in the grace before the flush deadline. -/
lemma turn_graceEvent (phase : state.phase = .terminalGrace) :
    Turn state event tick (graceEvent state event).1 (graceEvent state event).2 := by
  cases event with
  | cancel | protocolRejected | supervisorSignal => exact .of_working (.inr phase) (.inl rfl)
  | retryStop reason =>
    -- A retry counts only while the machine is stopping.
    have ignored : graceEvent state (.retryStop reason) = (state, []) := by
      rw [graceEvent, retryStop, if_pos (by simp [phase])]
    rw [ignored]
    exact .idle
  | _ => exact .idle

/-- A deadline that has passed is set. -/
lemma exists_of_passed {deadline : Option Nat} {nowMs : Nat}
    (passed : (deadline.any fun instant => decide (instant ≤ nowMs)) = true) :
    ∃ instant, deadline = some instant ∧ instant ≤ nowMs := by
  cases deadline with
  | none => simp at passed
  | some instant => exact ⟨instant, rfl, by simpa using passed⟩

lemma turn_graceTurn (phase : state.phase = .terminalGrace) :
    Turn state event tick (graceTurn state tick.nowMs event).1
      (graceTurn state tick.nowMs event).2 := by
  rw [graceTurn]
  split_ifs with passed
  · obtain ⟨_, set, reached⟩ := exists_of_passed passed
    exact .of_working (.inr phase) (.inr (.rootFlush set reached))
  · exact turn_graceEvent phase

lemma turn_stepTerminalGrace (phase : state.phase = .terminalGrace) :
    Turn state event tick (stepTerminalGrace state tick.nowMs event).1
      (stepTerminalGrace state tick.nowMs event).2 := by
  rw [stepTerminalGrace]
  split_ifs with progress
  · have noted := @turn_graceTurn { state with lastProgressMs := some tick.nowMs } event tick phase
    exact noted.congr rfl rfl rfl rfl rfl
  · exact turn_graceTurn phase

/-- A stopping machine delivers again a recorded reason that is retried, and does nothing else. -/
lemma stoppingEvent_cases (phase : state.phase = .stopping) :
    (∃ reason, event = .retryStop reason ∧ reason ∈ state.reasons ∧ stoppingEvent state event =
      ({ state with stopAttempts := setDelivery reason none state.stopAttempts },
        [.deliverStop reason])) ∨
    (∀ reason, event = .retryStop reason → reason ∉ state.reasons) ∧
      stoppingEvent state event = (state, []) := by
  cases event with
  | retryStop reason =>
    have recorded := isSome_attempt state reason
    rw [stoppingEvent, retryStop, if_neg (not_not.2 phase)]
    cases found : state.attempt reason with
    | some _ => exact .inl ⟨reason, rfl, recorded.1 (by rw [found]; rfl), rfl⟩
    | none =>
      refine .inr ⟨?_, rfl⟩
      rintro other ⟨⟩ known
      simpa [found] using recorded.2 known
  | _ => exact .inr ⟨nofun, rfl⟩

lemma turn_stepStopping (phase : state.phase = .stopping) :
    Turn state event tick (stepStopping state tick.cleanup event).1
      (stepStopping state tick.cleanup event).2 := by
  rw [stepStopping]
  rcases @stoppingEvent_cases state event phase with ⟨reason, rfl, recorded, again⟩ | ⟨-, ignored⟩
  · rw [again]
    split_ifs with complete
    · exact .retries reason phase rfl recorded (by simp [State.reasons]) (.inr ⟨rfl, rfl⟩)
    · exact .retries reason phase rfl recorded (by simp [State.reasons]) (.inl ⟨phase, rfl⟩)
  · rw [ignored]
    split_ifs with complete
    · exact .publishes (.inr (.inl phase)) rfl rfl rfl
    · exact .idle

lemma turn_stepCleaning (phase : state.phase = .cleaning) :
    Turn state event tick (stepCleaning state tick.nowMs tick.cleanup).1
      (stepCleaning state tick.nowMs tick.cleanup).2 := by
  rw [stepCleaning]
  split_ifs with done present
  · exact .publishes (.inr (.inr phase)) rfl rfl rfl
  · obtain ⟨_, set, reached⟩ := exists_of_passed present.2
    exact .of_requestStop (by rw [phase]; rfl) (fun _ => rfl)
      (.inr (.descendants set reached present.1))
  · exact .idle

lemma turn_stepExited (phase : state.phase = .exited) :
    Turn state event tick (stepExited state tick.publication).1
      (stepExited state tick.publication).2 := by
  rcases tick.publication with _ | (_ | failure | failure)
  · exact .idle
  · exact .quiet (phase ▸ .publish) rfl (by simp [stepExited])
  · exact .quiet .stay rfl (by simp [stepExited, Effect.isSignal])
  · exact .quiet .stay rfl (by simp [stepExited, Effect.isSignal])

/-- **What the machine does after the receipt of a delivery.** -/
lemma turn_advance (state : State) (event : Event) (tick : Tick) :
    Turn state event tick (advance state event tick).1 (advance state event tick).2 := by
  rw [advance]
  cases seen : tick.observedExit.filter fun _ => state.phase.live with
  | some exit =>
    have live : state.phase.live = true := by
      have kept := Option.filter_eq_some_iff.1 seen
      exact kept.2
    refine .quiet (.exit live) rfl ?_
    simp only [observeExit]
    cases checkedAdd tick.nowMs state.budgets.descendantGraceMs <;> simp [Effect.isSignal]
  | none =>
    cases phase : state.phase with
    | published => exact .idle
    | exited => exact turn_stepExited phase
    | prepared =>
      dsimp only
      split_ifs with late
      · exact .publishes (.inl phase) rfl rfl rfl
      · exact turn_stepPrepared phase
    | running =>
      dsimp only
      split_ifs with late
      · exact .of_working (.inl phase) (.inr (.wall late))
      · exact turn_stepRunning phase
    | terminalGrace =>
      dsimp only
      split_ifs with late
      · exact .of_working (.inr phase) (.inr (.wall late))
      · exact turn_stepTerminalGrace phase
    | stopping => exact turn_stepStopping phase
    | cleaning => exact turn_stepCleaning phase

/-- **What one turn does.** The receipt of a delivery comes first and signals nothing. -/
lemma turn (state : State) (event : Event) (tick : Tick) :
    ∃ rejected more, (step state event tick).2 = rejected ++ more ∧
      (∀ effect ∈ rejected, effect.isSignal = false) ∧
      Turn state event tick (step state event tick).1 more := by
  obtain ⟨⟨attempts, received, reasons⟩, silent⟩ := receive_spec state tick.delivery
  refine ⟨_, _, rfl, silent, ?_⟩
  have advanced := turn_advance (receive state tick.delivery).1 event tick
  have same : (receive state tick.delivery).1.reasons = state.reasons := by
    rw [received]
    exact reasons
  exact advanced.congr (by rw [received]) (by rw [received]) (by rw [received])
    (by rw [received]) same

/-- The stops of a turn do not come with the receipt. -/
lemma turn_stops (state : State) (event : Event) (tick : Tick) :
    ∃ more, Turn state event tick (step state event tick).1 more ∧
      ∀ reason, .deliverStop reason ∈ (step state event tick).2 → .deliverStop reason ∈ more := by
  obtain ⟨_, more, effects, silent, turned⟩ := turn state event tick
  refine ⟨more, turned, fun reason mem => ?_⟩
  rw [effects] at mem
  exact (mem_append.1 mem).resolve_left fun early => by simpa [Effect.isSignal] using silent _ early

/-! ### What a turn keeps -/

/-- The phases after which nothing but the publication is left to do. -/
def Phase.over : Phase → Bool
  | .exited | .published => true
  | _ => false

/-- The phases of a provider that was started and whose exit is not published. -/
def Phase.spawned : Phase → Bool
  | .running | .terminalGrace | .stopping | .cleaning => true
  | _ => false

/-- The phases that follow the first stop. -/
def Phase.late : Phase → Bool
  | .stopping | .cleaning | .exited | .published => true
  | _ => false

namespace Turn

variable {next : State} {effects : List Effect}
variable (turn : Turn state event tick next effects)
include turn

/-- A stop is delivered on authority, to a provider that was started. -/
lemma deliver {reason : StopReason} (mem : .deliverStop reason ∈ effects) :
    Authorised state event tick reason ∧ state.phase.spawned = true := by
  cases turn with
  | quiet _ _ silent => simpa [Effect.isSignal] using silent _ mem
  | publishes _ _ _ publish => simp [publish] at mem
  | requests asked before _ authority _ _ deliver =>
    have delivered : reason = asked := by
      rcases deliver with rfl | rfl
      · cases mem
      · simpa using mem
    subst delivered
    refine ⟨authority.elim .asked .deadline, ?_⟩
    cases phase : state.phase <;> simp [phase, Phase.stoppable, Phase.spawned] at before ⊢
  | retries again before retry recorded _ deliver =>
    have delivered : reason = again := by
      rcases deliver with ⟨-, rfl⟩ | ⟨-, rfl⟩ <;> simpa using mem
    subst delivered
    exact ⟨.retry retry recorded, by rw [before]; rfl⟩

/-- A turn adds at most one reason, which is new, and only when it requests a stop. -/
lemma reasons :
    next.reasons = state.reasons ∨ ∃ reason, reason ∉ state.reasons ∧
      next.reasons = state.reasons ++ [reason] ∧ state.phase.stoppable = true ∧
      (state.phase = .cleaning → reason = .postTerminalCleanup) := by
  cases turn with
  | requests reason before cleaning _ _ record =>
    by_cases known : reason ∈ state.reasons
    · exact .inl (by rw [record, if_pos known])
    · exact .inr ⟨reason, known, by rw [record, if_neg known], before, cleaning⟩
  | quiet _ same | publishes _ _ same | retries _ _ _ _ same => exact .inl same

lemma reasons_kept : state.reasons <+: next.reasons := by
  rcases turn.reasons with same | ⟨reason, -, more, -⟩
  · exact same ▸ prefix_refl _
  · exact more ▸ prefix_append _ _

lemma nodup (distinct : state.reasons.Nodup) : next.reasons.Nodup := by
  rcases turn.reasons with same | ⟨reason, new, more, -⟩
  · rwa [same]
  · rw [more]
    exact List.Nodup.append distinct (nodup_singleton _) (by simpa using new)

/-- While the machine is stopping no reason is added. -/
lemma reasons_of_stopping (stopping : state.phase = .stopping) : next.reasons = state.reasons :=
  turn.reasons.resolve_right fun ⟨_, _, _, before, _⟩ => by
    simp [stopping, Phase.stoppable] at before

/-- After the first stop only the cleanup of descendants adds a reason. -/
lemma late (after : state.phase.late = true) :
    next.phase.late = true ∧ ∀ reason ∈ next.reasons, reason ∈ state.reasons ∨
      reason = .postTerminalCleanup ∧ state.phase = .cleaning := by
  constructor
  · cases turn with
    | quiet move =>
      generalize state.phase = a at move after
      generalize next.phase = b at move ⊢
      cases move with
      | stay => exact after
      | start | close => cases after
      | exit | publish => rfl
    | publishes _ move | requests _ _ _ _ move => rw [move]; rfl
    | retries _ _ _ _ _ deliver =>
      rcases deliver with ⟨move, -⟩ | ⟨move, -⟩ <;> rw [move] <;> rfl
  · rcases turn.reasons with same | ⟨added, -, more, before, cleaning⟩
    · exact fun reason mem => .inl (same ▸ mem)
    · have phase : state.phase = .cleaning := by
        cases phase : state.phase <;> simp [phase, Phase.stoppable, Phase.late] at before after ⊢
      intro reason mem
      rw [more] at mem
      rcases mem_append.1 mem with old | new
      · exact .inl old
      · exact .inr ⟨(mem_singleton.1 new).trans (cleaning phase), phase⟩

/-- Once the exit is published or being published nothing is signalled. -/
lemma silent_of_over (done : state.phase.over = true) :
    next.phase.over = true ∧ ∀ effect ∈ effects, effect.isSignal = false := by
  cases turn with
  | quiet move _ silent =>
    refine ⟨?_, silent⟩
    generalize state.phase = a at move done
    generalize next.phase = b at move ⊢
    cases move with
    | stay => exact done
    | start | close => cases done
    | exit live => cases a <;> simp [Phase.live, Phase.over] at live done
    | publish => rfl
  | publishes before =>
    rcases before with phase | phase | phase <;> simp [phase, Phase.over] at done
  | requests _ before =>
    cases phase : state.phase <;> simp [phase, Phase.stoppable, Phase.over] at before done
  | retries _ before => simp [before, Phase.over] at done

/-- A turn that publishes the exit does so last, and then the machine has exited. -/
lemma publish (mem : .publishExit ∈ effects) :
    next.phase.over = true ∧ ∃ front, effects = front ++ [.publishExit] ∧ .publishExit ∉ front := by
  cases turn with
  | quiet _ _ silent => simpa [Effect.isSignal] using silent _ mem
  | publishes _ move _ publish => exact ⟨by rw [move]; rfl, [], publish, by simp⟩
  | requests _ _ _ _ _ _ deliver =>
    rcases deliver with rfl | rfl <;> simp at mem
  | retries reason _ _ _ _ deliver =>
    rcases deliver with ⟨-, rfl⟩ | ⟨move, rfl⟩
    · simp at mem
    · exact ⟨by rw [move]; rfl, [.deliverStop reason], rfl, by simp⟩

/-- A provider is spawned by the event that says so. -/
lemma spawned (running : next.phase.spawned = true) :
    state.phase.spawned = true ∨
      state.phase = .prepared ∧ event = .started ∧ next.phase = .running := by
  cases turn with
  | quiet move =>
    generalize state.phase = a at move ⊢
    generalize next.phase = b at move running
    cases move with
    | stay => exact .inl running
    | start started => exact .inr ⟨rfl, started, rfl⟩
    | close => exact .inl rfl
    | exit live => cases a <;> simp [Phase.live, Phase.spawned] at live ⊢
    | publish => cases running
  | publishes _ move => simp [move, Phase.spawned] at running
  | requests _ before =>
    left
    cases phase : state.phase <;> simp [phase, Phase.stoppable, Phase.spawned] at before ⊢
  | retries _ before => exact .inl (by rw [before]; rfl)

end Turn

/-! ### Runs -/

/-- One turn, as a step of a machine with the pairs of an event and a tick as inputs. -/
def turnStep (state : State) (input : Event × Tick) : State × List Effect :=
  step state input.1 input.2

/-- The state after a run. -/
def stateAfter (budgets : Budgets) (inputs : List (Event × Tick)) : State :=
  Machine.after turnStep (.prepared budgets) inputs

/-- The effects of a run, in order. -/
def effectsOf (budgets : Budgets) (inputs : List (Event × Tick)) : List Effect :=
  (Machine.outputs turnStep (.prepared budgets) inputs).flatten

/-- The provider was started in a run. -/
def Started (budgets : Budgets) (inputs : List (Event × Tick)) : Prop :=
  ∃ earlier tick rest, inputs = earlier ++ (.started, tick) :: rest ∧
    (stateAfter budgets earlier).phase = .prepared ∧
    (stateAfter budgets (earlier ++ [(.started, tick)])).phase = .running

section

variable {budgets : Budgets}

lemma stateAfter_append (earlier rest : List (Event × Tick)) :
    stateAfter budgets (earlier ++ rest) =
      Machine.after turnStep (stateAfter budgets earlier) rest :=
  Machine.after_append turnStep _ earlier rest

lemma stateAfter_snoc (before : List (Event × Tick)) (event : Event) (tick : Tick) :
    stateAfter budgets (before ++ [(event, tick)]) =
      (step (stateAfter budgets before) event tick).1 :=
  stateAfter_append before [(event, tick)]

/-- A spawned provider was started. -/
lemma started_of_spawned (inputs : List (Event × Tick))
    (spawned : (stateAfter budgets inputs).phase.spawned = true) : Started budgets inputs := by
  -- The last input either started the provider or found it spawned.
  induction inputs using reverseRecOn with
  | nil => cases spawned
  | append_singleton before input ih =>
    obtain ⟨event, tick⟩ := input
    rw [stateAfter_snoc] at spawned
    obtain ⟨_, _, -, -, turned⟩ := turn (stateAfter budgets before) event tick
    rcases turned.spawned spawned with earlier | ⟨phase, rfl, running⟩
    · obtain ⟨first, at_, rest, split, prepared, running⟩ := ih earlier
      exact ⟨first, at_, rest ++ [(event, tick)], by simp [split], prepared, running⟩
    · exact ⟨before, tick, [], rfl, phase, by rw [stateAfter_snoc]; exact running⟩

/-- Reasons are recorded once. -/
lemma nodup_reasons (inputs : List (Event × Tick)) :
    (stateAfter budgets inputs).reasons.Nodup := by
  have start : (State.prepared budgets).reasons.Nodup := nodup_nil
  refine Machine.invariant (fun state : State => state.reasons.Nodup) (fun state input distinct => ?_)
    start inputs
  obtain ⟨_, _, -, -, turned⟩ := turn state input.1 input.2
  exact turned.nodup distinct

/-- Reasons are never forgotten. -/
lemma reasons_kept (earlier rest : List (Event × Tick)) :
    (stateAfter budgets earlier).reasons <+: (stateAfter budgets (earlier ++ rest)).reasons := by
  rw [stateAfter_append]
  refine Machine.related (fun state next : State => state.reasons <+: next.reasons)
    (fun state => prefix_refl _) (fun first second => first.trans second)
    (fun state input => ?_) _ rest
  obtain ⟨_, _, -, -, turned⟩ := turn state input.1 input.2
  exact turned.reasons_kept

/-- The phases after the first stop are not left. -/
lemma late_of_stopping {earlier : List (Event × Tick)} (rest : List (Event × Tick))
    (stopping : (stateAfter budgets earlier).phase = .stopping) :
    (stateAfter budgets (earlier ++ rest)).phase.late = true := by
  rw [stateAfter_append]
  refine Machine.invariant (fun state : State => state.phase.late = true) (fun state input late => ?_)
    (by rw [stopping]; rfl) rest
  obtain ⟨_, _, -, -, turned⟩ := turn state input.1 input.2
  exact (turned.late late).1

/-- Nothing is signalled by a run from a state in which the exit is published or being
published. -/
lemma silent_of_over (done : state.phase.over = true) (inputs : List (Event × Tick)) :
    ∀ effect ∈ (Machine.outputs turnStep state inputs).flatten, effect.isSignal = false := by
  induction inputs generalizing state with
  | nil => intro effect mem; cases mem
  | cons input _ ih =>
    obtain ⟨_, _, effects, silent, turned⟩ := turn state input.1 input.2
    obtain ⟨ended, quiet⟩ := turned.silent_of_over done
    intro effect mem
    rw [Machine.outputs, flatten_cons, turnStep, effects, append_assoc] at mem
    rcases mem_append.1 mem with early | mem
    · exact silent effect early
    · rcases mem_append.1 mem with now | later
      · exact quiet effect now
      · exact ih ended effect later

/-- **The publication of the exit in a run.** The effects of a run fall into a part without
publication and a part that is empty or starts with the publication and signals nothing more.

**Proof sketch.** Induction on the inputs. The first turn either publishes, as its last effect, and
leaves the machine in a phase from which nothing is signalled; or it does not publish, and then its
effects are put before those of the rest. -/
lemma publication (state : State) (inputs : List (Event × Tick)) :
    ∃ front back, (Machine.outputs turnStep state inputs).flatten = front ++ back ∧
      .publishExit ∉ front ∧
      (back = [] ∨ ∃ rest, back = .publishExit :: rest ∧
        ∀ effect ∈ rest, effect.isSignal = false) := by
  induction inputs generalizing state with
  | nil => exact ⟨[], [], rfl, by simp, .inl rfl⟩
  | cons input rest ih =>
    obtain ⟨rejected, more, effects, silent, turned⟩ := turn state input.1 input.2
    have early : .publishExit ∉ rejected := fun mem => by simpa [Effect.isSignal] using silent _ mem
    rw [Machine.outputs, flatten_cons, turnStep, effects]
    by_cases publishes : .publishExit ∈ more
    · obtain ⟨ended, front, rfl, unpublished⟩ := turned.publish publishes
      refine ⟨rejected ++ front, _, ?_, by simp [early, unpublished],
        .inr ⟨_, rfl, silent_of_over ended rest⟩⟩
      simp
    · obtain ⟨front, back, split, unpublished, tail⟩ := ih (step state input.1 input.2).1
      refine ⟨rejected ++ more ++ front, back, ?_, by simp [early, publishes, unpublished], tail⟩
      simp [split]

end

/-- The events that only report an observation. -/
def Event.isObservation : Event → Bool
  | .silence | .captureFailure | .observationFailure => true
  | _ => false

/-- An observation that nothing is known about the descendants is no observation. -/
lemma step_unknown (state : State) (event : Event) (tick : Tick) :
    step state event { tick with cleanup := some .unknown } =
      step state event { tick with cleanup := none } := by
  have same : ∀ s : State, advance s event { tick with cleanup := some .unknown } =
      advance s event { tick with cleanup := none } := by
    intro s
    simp only [advance]
    cases tick.observedExit.filter fun _ => s.phase.live with
    | some _ => rfl
    | none => cases s.phase <;> first | rfl | simp [stepStopping]
  simp only [step, same]

/-- The rules that one turn of a run keeps: after the inputs `before`, with the given event and
tick. -/
structure TurnRules (budgets : Budgets) (before : List (Event × Tick)) (event : Event)
    (tick : Tick) : Prop where
  /-- Stops are delivered to a provider that was started, and on authority. -/
  authorised : ∀ reason, .deliverStop reason ∈ (step (stateAfter budgets before) event tick).2 →
    Started budgets before ∧ Authorised (stateAfter budgets before) event tick reason
  /-- Each reason is recorded at most once. -/
  once : (stateAfter budgets (before ++ [(event, tick)])).reasons.Nodup
  /-- Recorded reasons are never forgotten. -/
  kept : ∀ earlier rest, before = earlier ++ rest →
    (stateAfter budgets earlier).reasons <+:
      (stateAfter budgets (before ++ [(event, tick)])).reasons
  /-- While the machine is stopping no reason is added. -/
  stopping : (stateAfter budgets before).phase = .stopping →
    (stateAfter budgets (before ++ [(event, tick)])).reasons = (stateAfter budgets before).reasons
  /-- After it has been stopping only the cleanup of an exited provider adds a reason. -/
  late : ∀ earlier rest, before = earlier ++ rest →
    (stateAfter budgets earlier).phase = .stopping →
    ∀ reason ∈ (stateAfter budgets (before ++ [(event, tick)])).reasons,
      reason ∈ (stateAfter budgets before).reasons ∨
        reason = .postTerminalCleanup ∧ (stateAfter budgets before).phase = .cleaning
  /-- Silence and failures of capture or observation deliver a stop only at a deadline. -/
  observation : event.isObservation = true →
    ∀ reason, .deliverStop reason ∈ (step (stateAfter budgets before) event tick).2 →
      DeadlineReached (stateAfter budgets before) tick reason
  /-- An unknown census has the effects of no census. -/
  census : tick.cleanup = some .unknown →
    step (stateAfter budgets before) event tick =
      step (stateAfter budgets before) event { tick with cleanup := none }

/-- Every turn of a run keeps the rules. -/
lemma turnRules (budgets : Budgets) (before : List (Event × Tick)) (event : Event) (tick : Tick) :
    TurnRules budgets before event tick := by
  obtain ⟨more, turned, delivered⟩ := turn_stops (stateAfter budgets before) event tick
  constructor
  case authorised =>
    intro reason mem
    obtain ⟨authority, spawned⟩ := turned.deliver (delivered reason mem)
    exact ⟨started_of_spawned before spawned, authority⟩
  case once => exact nodup_reasons _
  case kept =>
    rintro earlier rest rfl
    rw [append_assoc]
    exact reasons_kept earlier _
  case stopping =>
    intro stopping
    rw [stateAfter_snoc]
    exact turned.reasons_of_stopping stopping
  case late =>
    rintro earlier rest rfl stopping
    rw [stateAfter_snoc]
    exact (turned.late (late_of_stopping rest stopping)).2
  case observation =>
    intro observed reason mem
    cases (turned.deliver (delivered reason mem)).1 with
    | asked asks => cases event <;> cases observed <;> cases asks
    | deadline reached => exact reached
    | retry retry => simp [retry, Event.isObservation] at observed
  case census =>
    intro unknown
    have same := step_unknown (stateAfter budgets before) event tick
    rwa [← unknown] at same

/-- **Signals to a provider are authorised.** In every run of the machine from its prepared state:
every turn keeps `TurnRules`; the exit is published at most once; and no stop is delivered after
it. -/
theorem signals_authorised (budgets : Budgets) (inputs : List (Event × Tick)) :
    (∀ before event tick later, inputs = before ++ (event, tick) :: later →
      TurnRules budgets before event tick) ∧
    (effectsOf budgets inputs).count .publishExit ≤ 1 ∧
    ∀ front back reason, effectsOf budgets inputs = front ++ .publishExit :: back →
      .deliverStop reason ∉ back := by
  obtain ⟨unpublished, rest, effects, absent, tail⟩ := publication (.prepared budgets) inputs
  have none_later : ∀ list : List Effect, (∀ effect ∈ list, effect.isSignal = false) →
      .publishExit ∉ list := fun list quiet mem => by simpa [Effect.isSignal] using quiet _ mem
  refine ⟨fun before event tick later _ => turnRules budgets before event tick, ?_, ?_⟩
  · rw [effectsOf, effects, count_append, count_eq_zero_of_not_mem absent]
    rcases tail with rfl | ⟨more, rfl, quiet⟩
    · simp
    · simp [count_eq_zero_of_not_mem (none_later more quiet)]
  · intro front back reason split stop
    rw [effectsOf, effects] at split
    rcases tail with rfl | ⟨more, rfl, quiet⟩
    · exact absent (by rw [← append_nil unpublished, split]; simp)
    · -- What follows a publication follows the first one.
      have first := (append_cons_inj_of_notMem absent (none_later more quiet)).1 split
      rw [← first.2.2] at stop
      simpa [Effect.isSignal] using quiet _ stop

/-- A cancelled provider exits and leaves descendants behind: the reason for their cleanup is added
after the machine was stopping. -/
theorem cleanup_adds_reason :
    let budgets : Budgets := ⟨100000, 2000, 500⟩
    let cancelled : List (Event × Tick) := [(.started, .at 0), (.cancel, .at 10)]
    let exited := cancelled ++ [(.silence, { Tick.at 20 with observedExit := some (.signal 15) })]
    let later := exited ++ [(.silence, { Tick.at 600 with cleanup := some .descendantsPresent })]
    (stateAfter budgets cancelled).phase = .stopping ∧
      (stateAfter budgets exited).reasons = [.explicitCancellation] ∧
      (stateAfter budgets later).reasons = [.explicitCancellation, .postTerminalCleanup] := by
  decide

end Provenant.Supervisor

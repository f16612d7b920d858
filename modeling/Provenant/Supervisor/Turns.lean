import Provenant.Supervisor.Machine

/-!
# Waking the supervisor, and its turns after the exit

The loop of the supervisor sleeps until a deadline can change its next decision;
`State::deadline_in_ms` computes that time from the monotonic clock, which a sleeping host stops,
and from the wall clock. The decision itself is taken by `step`, with a case split of its own. This
file compares the two for every state and all readings of the clocks. They differ in one case: a
provider that is prepared is due on the wall clock, and `step` looks at the monotonic clock only.

The second part follows the turns after the exit of the provider is recorded. Only the cleanup of
its descendants is left to do, yet the machine can be stopping a second time, and in that phase a
retry delivers any recorded reason and an unresolved cleanup is not published.

## Main definitions

* `Supervisor.State.deadlineInMs` — the time to the next deadline.
* `Supervisor.WakeAgrees` — that time and the silent turn agree.
* `Supervisor.CleanupOnly` — a turn after the exit only cleans up, and publishes every verdict.

## Main results

* `Supervisor.wake_agrees_iff` — they agree unless a prepared provider is due on the wall clock.
* `Supervisor.cleanup_only_iff` — the turns of every run that keep to the cleanup.
-/

namespace Provenant.Supervisor

open List Option

/-! ### The time to the next decision -/

/-- The phases to which the wall deadline applies. -/
def Phase.timed : Phase → Bool
  | .prepared | .running | .terminalGrace => true
  | _ => false

/-- `deadline_in_ms`. -/
def State.deadlineInMs (state : State) (nowMs wallMs : Nat) : Option Nat :=
  let wall :=
    if state.phase.timed then some (state.budgets.wallDeadlineMs - max nowMs wallMs) else none
  let flush :=
    if state.phase = .terminalGrace then
      state.rootFlushDeadlineMs.map fun deadline => deadline - nowMs
    else none
  (wall.toList ++ flush.toList).min?

/-- A tick that only reads the two clocks. -/
def Tick.reading (nowMs wallMs : Nat) : Tick := { Tick.at nowMs with wallMs := wallMs }

/-- A deadline of the machine has passed, as `step` compares it with the clocks. -/
def State.due (state : State) (nowMs wallMs : Nat) : Prop :=
  match state.phase with
  | .prepared => state.budgets.wallDeadlineMs ≤ nowMs
  | .running => state.budgets.wallDeadlineMs ≤ max nowMs wallMs
  | .terminalGrace =>
    state.budgets.wallDeadlineMs ≤ max nowMs wallMs ∨
      ∃ deadline, state.rootFlushDeadlineMs = some deadline ∧ deadline ≤ nowMs
  | _ => False

section

variable {state : State} {nowMs wallMs : Nat}

/-- A stop that is requested of a working provider makes the machine stop. -/
lemma phase_requestStop (reason : StopReason)
    (working : state.phase = .running ∨ state.phase = .terminalGrace) :
    (requestStop state reason).1.phase = .stopping := by
  have allowed : ¬(state.phase = .stopping ∨
      (state.phase = .cleaning ∧ reason ≠ .postTerminalCleanup)) := by
    rcases working with phase | phase <;> simp [phase]
  rw [requestStop, if_neg allowed]
  cases state.attempt reason <;> rfl

/-- A silent turn leaves the phase at a deadline, and does nothing before. -/
lemma step_silence (state : State) (nowMs wallMs : Nat) :
    (state.due nowMs wallMs → (step state .silence (.reading nowMs wallMs)).1.phase ≠ state.phase) ∧
    (¬state.due nowMs wallMs → step state .silence (.reading nowMs wallMs) = (state, [])) := by
  have only : step state .silence (.reading nowMs wallMs) =
      advance state .silence (.reading nowMs wallMs) := rfl
  rw [only, advance]
  cases phase : state.phase with
  | prepared =>
    by_cases late : state.budgets.wallDeadlineMs ≤ nowMs <;>
      simp [State.due, phase, Tick.reading, Tick.at, late, neverSpawned, stepPrepared]
  | running =>
    have moved := phase_requestStop .wallDeadline (.inl phase)
    by_cases late : state.budgets.wallDeadlineMs ≤ max nowMs wallMs <;>
      simp [State.due, phase, State.wallReached, Tick.reading, Tick.at, late, moved, stepRunning]
  | terminalGrace =>
    have moved := fun reason => phase_requestStop reason (.inr phase)
    by_cases late : state.budgets.wallDeadlineMs ≤ max nowMs wallMs
    · simp [State.due, phase, State.wallReached, Tick.reading, Tick.at, late, moved]
    · have flush : stepTerminalGrace state nowMs .silence =
          if state.rootFlushDeadlineMs.any fun deadline => decide (deadline ≤ nowMs) then
            requestStop state .postTerminalCleanup
          else (state, []) := rfl
      cases set : state.rootFlushDeadlineMs with
      | none => simp [State.due, phase, State.wallReached, Tick.reading, Tick.at, late, flush, set]
      | some deadline =>
        by_cases passed : deadline ≤ nowMs <;>
          simp [State.due, phase, State.wallReached, Tick.reading, Tick.at, late, flush, set,
            passed, moved]
  | _ => simp [State.due, phase, Tick.reading, Tick.at, stepExited, stepStopping, stoppingEvent,
      stepCleaning]

/-- **The time to the next deadline and the silent turn agree**: at a deadline the turn leaves the
phase; before it, or when there is none, the turn changes neither phase nor stop attempts; and the
wall deadline is reached on whichever of the two clocks is ahead. -/
structure WakeAgrees (state : State) (nowMs wallMs : Nat) : Prop where
  due : state.deadlineInMs nowMs wallMs = some 0 →
    (step state .silence (.reading nowMs wallMs)).1.phase ≠ state.phase
  early : ∀ laterMs laterWallMs, nowMs ≤ laterMs → wallMs ≤ laterWallMs →
    (∀ rest, state.deadlineInMs nowMs wallMs = some rest →
      laterMs < nowMs + rest ∧ laterWallMs < wallMs + rest) →
    (step state .silence (.reading laterMs laterWallMs)).1.phase = state.phase ∧
      (step state .silence (.reading laterMs laterWallMs)).1.stopAttempts = state.stopAttempts
  wall : state.phase.timed = true → state.budgets.wallDeadlineMs ≤ max nowMs wallMs →
    (step state .silence (.reading nowMs wallMs)).1.phase ≠ state.phase

/-- The time to the next deadline, phase by phase. -/
lemma deadlineInMs_eq (state : State) (nowMs wallMs : Nat) :
    state.deadlineInMs nowMs wallMs =
      match state.phase with
      | .prepared | .running => some (state.budgets.wallDeadlineMs - max nowMs wallMs)
      | .terminalGrace =>
        match state.rootFlushDeadlineMs with
        | none => some (state.budgets.wallDeadlineMs - max nowMs wallMs)
        | some deadline =>
          some (min (state.budgets.wallDeadlineMs - max nowMs wallMs) (deadline - nowMs))
      | _ => none := by
  cases phase : state.phase with
  | terminalGrace =>
    cases set : state.rootFlushDeadlineMs <;> simp [State.deadlineInMs, phase, set, Phase.timed]
  | _ => simp [State.deadlineInMs, phase, Phase.timed]

/-- Before the time to the next deadline has passed, no deadline has. -/
lemma not_due_of_early {laterMs laterWallMs : Nat} (after : nowMs ≤ laterMs)
    (wallAfter : wallMs ≤ laterWallMs)
    (early : ∀ rest, state.deadlineInMs nowMs wallMs = some rest →
      laterMs < nowMs + rest ∧ laterWallMs < wallMs + rest) : ¬state.due laterMs laterWallMs := by
  rw [deadlineInMs_eq] at early
  rw [State.due]
  cases phase : state.phase with
  | prepared | running =>
    have := early _ (by rw [phase])
    omega
  | terminalGrace =>
    rw [phase] at early
    cases set : state.rootFlushDeadlineMs with
    | none =>
      have := early _ (by rw [set])
      rintro (late | ⟨deadline, other, -⟩)
      · omega
      · cases other
    | some _ =>
      have := early _ (by rw [set])
      rintro (late | ⟨instant, same, late⟩)
      · omega
      · cases same
        omega
  | _ => exact not_false

/-- A wall deadline that has passed on either clock is due, unless a prepared provider is seen
late by the wall clock alone. -/
lemma due_of_wall (timed : state.phase.timed = true)
    (late : state.budgets.wallDeadlineMs ≤ max nowMs wallMs)
    (fits : ¬(state.phase = .prepared ∧ nowMs < state.budgets.wallDeadlineMs)) :
    state.due nowMs wallMs := by
  rw [State.due]
  cases phase : state.phase with
  | prepared => exact Nat.not_lt.1 fun early => fits ⟨phase, early⟩
  | running => exact late
  | terminalGrace => exact .inl late
  | _ => simp [phase, Phase.timed] at timed

/-- **The supervisor wakes in time, unless a provider is only prepared.** For every state of the
machine and all readings of the clocks, the time to the next deadline agrees with what a silent
turn does, except for a prepared provider whose wall deadline has passed on the wall clock and not
on the monotonic clock: it is due at once, and the turn leaves it as it is.

**Proof sketch.** `step_silence` says when a silent turn moves and `deadlineInMs_eq` when the time
is zero; phase by phase the two conditions are the same comparisons, in phase `Prepared` with the
monotonic clock in place of the later of the two. -/
theorem wake_agrees_iff (state : State) (nowMs wallMs : Nat) :
    WakeAgrees state nowMs wallMs ↔
      ¬(state.phase = .prepared ∧ nowMs < state.budgets.wallDeadlineMs ∧
        state.budgets.wallDeadlineMs ≤ wallMs) := by
  constructor
  · rintro agrees ⟨phase, early, late⟩
    have left := agrees.wall (by rw [phase]; rfl) (Nat.le_trans late (Nat.le_max_right _ _))
    have waits : ¬state.due nowMs wallMs := by
      rw [State.due, phase]
      exact Nat.not_le.2 early
    exact left (by rw [(step_silence state nowMs wallMs).2 waits])
  · intro fits
    have wall : state.phase.timed = true → state.budgets.wallDeadlineMs ≤ max nowMs wallMs →
        state.due nowMs wallMs := fun timed late =>
      due_of_wall timed late fun ⟨phase, early⟩ =>
        fits ⟨phase, early, by omega⟩
    refine ⟨fun zero => (step_silence state nowMs wallMs).1 ?_, ?_, fun timed late =>
      (step_silence state nowMs wallMs).1 (wall timed late)⟩
    · rw [deadlineInMs_eq] at zero
      cases phase : state.phase with
      | terminalGrace =>
        rw [phase] at zero
        cases set : state.rootFlushDeadlineMs with
        | none =>
          simp only [set, some.injEq] at zero
          exact wall (by rw [phase]; rfl) (by omega)
        | some deadline =>
          simp only [set, some.injEq] at zero
          by_cases late : state.budgets.wallDeadlineMs ≤ max nowMs wallMs
          · exact wall (by rw [phase]; rfl) late
          · rw [State.due, phase]
            exact .inr ⟨deadline, set, by omega⟩
      | prepared | running =>
        simp only [phase, some.injEq] at zero
        exact wall (by rw [phase]; rfl) (by omega)
      | _ => simp [phase] at zero
    · intro laterMs laterWallMs after wallAfter early
      have waits := not_due_of_early after wallAfter early
      rw [(step_silence state laterMs laterWallMs).2 waits]
      exact ⟨rfl, rfl⟩

/-- A provider that is prepared when the host goes to sleep: on waking, its wall deadline has
passed on the wall clock, the loop is told to act at once, and the turn leaves it prepared. -/
theorem prepared_outlives_wall_clock :
    let state := State.prepared ⟨60000, 2000, 500⟩
    state.deadlineInMs 1000 70000 = some 0 ∧
      step state .silence (.reading 1000 70000) = (state, []) := by
  decide

end

/-! ### The turns after the exit -/

section

variable {state : State} {event : Event} {tick : Tick}

/-- A turn is what the machine does after the receipt of a delivery, which signals nothing and
keeps phase, exit and reasons. -/
lemma step_received (state : State) (event : Event) (tick : Tick) :
    ∃ received rejected, received.phase = state.phase ∧ received.exit = state.exit ∧
      received.reasons = state.reasons ∧ (∀ reason, .deliverStop reason ∉ rejected) ∧
      (step state event tick).1 = (advance received event tick).1 ∧
      (step state event tick).2 = rejected ++ (advance received event tick).2 := by
  obtain ⟨⟨attempts, received, reasons⟩, silent⟩ := receive_spec state tick.delivery
  refine ⟨_, _, ?_, ?_, ?_, fun reason mem => ?_, rfl, rfl⟩
  · rw [received]
  · rw [received]
  · rw [received]
    exact reasons
  · simpa [Effect.isSignal] using silent _ mem

/-- Only the observation of an exit records one, and then the machine is cleaning up. -/
lemma exit_step (state : State) (event : Event) (tick : Tick) :
    (step state event tick).1.exit = state.exit ∨ (step state event tick).1.phase = .cleaning := by
  have request : ∀ (s : State) reason, (requestStop s reason).1.exit = s.exit := by
    intro s reason
    rw [requestStop]
    split_ifs
    · rfl
    · cases s.attempt reason <;> rfl
  have retry : ∀ (s : State) reason, (retryStop s reason).1.exit = s.exit := by
    intro s reason
    rw [retryStop]
    split_ifs
    · rfl
    · cases s.attempt reason <;> rfl
  obtain ⟨s, _, -, same, -, -, moved, -⟩ := step_received state event tick
  rw [moved, ← same, advance]
  cases tick.observedExit.filter fun _ => s.phase.live with
  | some _ => exact .inr rfl
  | none =>
    left
    cases s.phase with
    | published => rfl
    | exited => rcases tick.publication with _ | (_ | _ | _) <;> rfl
    | prepared =>
      dsimp only
      split_ifs
      · rfl
      · cases event <;> rfl
    | running =>
      dsimp only
      split_ifs
      · exact request s _
      · cases event <;> first | rfl | exact request s _
    | terminalGrace =>
      dsimp only [stepTerminalGrace, graceTurn]
      split_ifs
      · exact request s _
      all_goals first
        | exact request _ _
        | (cases event <;> first | rfl | exact request _ _ | exact retry _ _)
    | stopping =>
      dsimp only [stepStopping]
      split_ifs <;> cases event <;> first | rfl | exact retry s _
    | cleaning =>
      dsimp only [stepCleaning]
      split_ifs <;> first | rfl | exact request s _

/-- Once an exit is recorded, in any run, the machine is past its first stop. -/
lemma late_of_exit (budgets : Budgets) (inputs : List (Event × Tick)) :
    (stateAfter budgets inputs).exit.isSome = true →
      (stateAfter budgets inputs).phase.late = true := by
  refine Machine.invariant
    (fun state : State => state.exit.isSome = true → state.phase.late = true)
    (fun state input late exited => ?_) (fun exited => by cases exited) inputs
  obtain ⟨_, _, -, -, turned⟩ := turn state input.1 input.2
  rcases exit_step state input.1 input.2 with same | cleaning
  · exact (turned.late (late (same ▸ exited))).1
  · rw [turnStep, cleaning]
    rfl

/-- A turn after the exit of the provider: it stops only what is left to clean up, and every
verdict on the cleanup is published. -/
structure CleanupOnly (state : State) (event : Event) (tick : Tick) : Prop where
  stops : ∀ reason, .deliverStop reason ∈ (step state event tick).2 → reason = .postTerminalCleanup
  verdicts : state.phase.over = false → tick.observedExit = none →
    tick.cleanup = some .complete ∨ tick.cleanup = some .unresolved →
    .publishExit ∈ (step state event tick).2 ∧ (step state event tick).1.phase = .exited

/-- The observation of an exit stops nothing. -/
lemma step_observed {exit : Termination} (phase : state.phase = .stopping)
    (seen : tick.observedExit = some exit) (reason : StopReason) :
    .deliverStop reason ∉ (step state event tick).2 := by
  obtain ⟨_, _, same, -, -, silent, -, effects⟩ := step_received state event tick
  simp only [effects, advance, seen, same, phase, Phase.live, filter_some, observeExit,
    mem_append, silent]
  split_ifs <;> simp

/-- A turn of a stopping machine that observes no exit: it delivers the recorded reason that is
retried, and publishes when the cleanup of an exited provider is complete. -/
lemma step_stopping (phase : state.phase = .stopping) (unseen : tick.observedExit = none) :
    (∀ reason, .deliverStop reason ∈ (step state event tick).2 ↔
      event = .retryStop reason ∧ reason ∈ state.reasons) ∧
    (step state event tick).1.phase =
      (if state.exit.isSome ∧ tick.cleanup = some .complete then .exited else .stopping) ∧
    (state.exit.isSome ∧ tick.cleanup = some .complete →
      .publishExit ∈ (step state event tick).2) := by
  obtain ⟨received, _, same, exit, reasons, silent, moved, effects⟩ :=
    step_received state event tick
  have stopping := same.trans phase
  rw [moved, effects, advance, unseen, filter_none, stopping, ← exit, ← reasons]
  dsimp only [stepStopping]
  rcases @stoppingEvent_cases _ event stopping with ⟨again, rfl, known, retried⟩ | ⟨other, idle⟩
  · have only : ∀ reason, reason = again ↔ again = reason ∧ reason ∈ received.reasons :=
      fun reason => ⟨by rintro rfl; exact ⟨rfl, known⟩, fun same => same.1.symm⟩
    rw [retried]
    split_ifs with complete <;> simpa [silent, stopping, complete] using only
  · rw [idle]
    split_ifs with complete <;> simpa [silent, stopping, complete] using other

/-- While the machine is cleaning up, only the cleanup is signalled. -/
lemma Turn.deliver_cleaning {next : State} {effects : List Effect} {reason : StopReason}
    (turn : Turn state event tick next effects) (phase : state.phase = .cleaning)
    (mem : .deliverStop reason ∈ effects) : reason = .postTerminalCleanup := by
  cases turn with
  | quiet _ _ silent => simpa [Effect.isSignal] using silent _ mem
  | publishes _ _ _ publish => simp [publish] at mem
  | requests asked _ cleaning _ _ _ deliver =>
    rcases deliver with rfl | rfl
    · cases mem
    · have delivered : reason = asked := by simpa using mem
      exact delivered.trans (cleaning phase)
  | retries _ before => cases phase.symm.trans before

/-- A verdict on the cleanup is published by the machine that is cleaning up. -/
lemma step_cleaning (phase : state.phase = .cleaning)
    (verdict : tick.cleanup = some .complete ∨ tick.cleanup = some .unresolved) :
    .publishExit ∈ (step state event tick).2 ∧ (step state event tick).1.phase = .exited := by
  obtain ⟨_, _, same, -, -, -, moved, effects⟩ := step_received state event tick
  have unseen : (tick.observedExit.filter fun _ => Phase.cleaning.live) = none := by
    cases tick.observedExit <;> rfl
  simp [moved, effects, advance, same, phase, unseen, stepCleaning, verdict]

end

/-- **Turns after the exit of the provider.** In every run, a turn after an exit was recorded keeps
to the cleanup of what the provider left behind, unless the machine is stopping again and, with no
new exit observed, an earlier reason is retried or the cleanup is given up as unresolved.

**Proof sketch.** After the exit the machine is cleaning up, stopping or done (`late_of_exit`).
Cleaning up it stops only for the cleanup and publishes both verdicts; done, it signals nothing;
stopping, `step_stopping` says exactly what is delivered and published. -/
theorem cleanup_only_iff (budgets : Budgets) (inputs : List (Event × Tick)) (event : Event)
    (tick : Tick) :
    ((stateAfter budgets inputs).exit.isSome = true →
      CleanupOnly (stateAfter budgets inputs) event tick) ↔
    ¬((stateAfter budgets inputs).exit.isSome = true ∧
      (stateAfter budgets inputs).phase = .stopping ∧ tick.observedExit = none ∧
      ((∃ reason, event = .retryStop reason ∧ reason ∈ (stateAfter budgets inputs).reasons ∧
          reason ≠ .postTerminalCleanup) ∨ tick.cleanup = some .unresolved)) := by
  have late := late_of_exit budgets inputs
  generalize stateAfter budgets inputs = state at late ⊢
  obtain ⟨more, turned, delivered⟩ := turn_stops state event tick
  constructor
  · rintro cleans ⟨exited, stopping, unseen, ⟨reason, rfl, known, other⟩ | unresolved⟩
    · exact other ((cleans exited).stops reason (((step_stopping stopping unseen).1 reason).2
        ⟨rfl, known⟩))
    · have published := ((cleans exited).verdicts (by rw [stopping]; rfl) unseen (.inr unresolved)).2
      have moved := (@step_stopping state event tick stopping unseen).2.1
      simp [published, unresolved] at moved
  · intro fits exited
    cases phase : state.phase with
    | prepared | running | terminalGrace => simpa [phase, Phase.late] using late exited
    | exited | published =>
      have ended : state.phase.over = true := by rw [phase]; rfl
      refine ⟨fun reason mem => ?_, fun open_ => by simp [ended] at open_⟩
      simpa [Effect.isSignal] using (turned.silent_of_over ended).2 _ (delivered reason mem)
    | cleaning =>
      exact ⟨fun reason mem => turned.deliver_cleaning phase (delivered reason mem),
        fun _ _ verdict => step_cleaning phase verdict⟩
    | stopping =>
      cases seen : tick.observedExit with
      | some _ =>
        exact ⟨fun reason mem => absurd mem (step_observed phase seen reason),
          fun _ unseen => by simp [seen] at unseen⟩
      | none =>
        obtain ⟨stops, moved, published⟩ := @step_stopping state event tick phase seen
        refine ⟨fun reason mem => ?_, fun _ _ verdict => ?_⟩
        · obtain ⟨retry, known⟩ := (stops reason).1 mem
          by_contra other
          exact fits ⟨exited, phase, seen, .inl ⟨reason, retry, known, other⟩⟩
        · have complete := verdict.resolve_right fun unresolved =>
            fits ⟨exited, phase, seen, .inr unresolved⟩
          exact ⟨published ⟨exited, complete⟩, by rw [moved, if_pos ⟨exited, complete⟩]⟩

/-- A cancelled provider exits and leaves descendants behind, so that the machine stops again: the
retry of the cancellation then signals an exited provider, and a cleanup that is given up is not
published. -/
theorem exited_provider_signalled :
    let budgets : Budgets := ⟨100000, 2000, 500⟩
    let inputs : List (Event × Tick) := [(.started, .at 0), (.cancel, .at 10),
      (.silence, { Tick.at 20 with observedExit := some (.signal 15) }),
      (.silence, { Tick.at 600 with cleanup := some .descendantsPresent })]
    (stateAfter budgets inputs).exit = some (.signal 15) ∧
      (step (stateAfter budgets inputs) (.retryStop .explicitCancellation) (.at 700)).2 =
        [.deliverStop .explicitCancellation] ∧
      step (stateAfter budgets inputs) .silence { Tick.at 5000 with cleanup := some .unresolved } =
        (stateAfter budgets inputs, []) := by
  decide

end Provenant.Supervisor

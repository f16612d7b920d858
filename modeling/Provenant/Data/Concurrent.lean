import Mathlib.Logic.Function.Basic
import Mathlib.Logic.Relation

/-!
# Concurrent processes over a shared state

Processes that act on a shared state one atomic action at a time, in any interleaving. A process
may stop at any point, on purpose or in a crash; the shared state then loses only what belongs to
the process, such as the locks it held. Properties of all interleavings are proved process by
process: each process keeps an assertion about its own position, and guarantees a relation
between the states before and after its actions under which the assertions of all others are
stable.

## Main definitions

* `Program` — the actions of a process, and what is left when it stops.
* `Config`, `Step` — interleavings of any number of processes.
* `RelyGuarantee` — the proof obligations of one process.

## Main results

* `RelyGuarantee.reachable` — the invariant and all assertions hold in every interleaving.
-/

namespace Provenant.Concurrent

variable {ι σ π : Type*}

/-- What processes with names in `ι` and positions in `π` do to a shared state in `σ`. -/
structure Program (ι σ π : Type*) where
  /-- The position at which a process starts. -/
  start : π
  /-- One atomic action of a process. -/
  act : ι → π → σ → π → σ → Prop
  /-- What is left of the shared state when a process stops. -/
  halt : ι → σ → σ

/-- A shared state and the positions of the processes that are running. -/
structure Config (ι σ π : Type*) where
  shared : σ
  running : ι → Option π

/-- One step of an interleaving. -/
inductive Step [DecidableEq ι] (program : Program ι σ π) : Config ι σ π → Config ι σ π → Prop
  /-- A process starts. -/
  | spawn (config : Config ι σ π) (name : ι) (absent : config.running name = none) :
      Step program config
        { config with running := Function.update config.running name (some program.start) }
  /-- A process acts. -/
  | act (config : Config ι σ π) (name : ι) {position position' : π} {shared : σ}
      (running : config.running name = some position)
      (acts : program.act name position config.shared position' shared) :
      Step program config
        { shared, running := Function.update config.running name (some position') }
  /-- A process stops or crashes. -/
  | stop (config : Config ι σ π) (name : ι) :
      Step program config
        { shared := program.halt name config.shared
          running := Function.update config.running name none }

/-- The proof obligations of one process: it keeps the invariant and the assertion at its
position, and what it guarantees leaves the assertions of the other processes alone. -/
structure RelyGuarantee (program : Program ι σ π) (invariant : σ → Prop)
    (assertion : ι → π → σ → Prop) (guarantee : ι → σ → σ → Prop) : Prop where
  start : ∀ name shared, invariant shared → assertion name program.start shared
  act : ∀ name position shared position' shared', invariant shared →
    assertion name position shared → program.act name position shared position' shared' →
      invariant shared' ∧ assertion name position' shared' ∧ guarantee name shared shared'
  halt : ∀ name shared, invariant shared →
    invariant (program.halt name shared) ∧ guarantee name shared (program.halt name shared)
  stable : ∀ name other position shared shared', other ≠ name →
    assertion other position shared → guarantee name shared shared' →
      assertion other position shared'

variable [DecidableEq ι] {program : Program ι σ π} {invariant : σ → Prop}
  {assertion : ι → π → σ → Prop} {guarantee : ι → σ → σ → Prop}

/-- The invariant holds, and so do the assertions of the running processes. -/
def Holds (invariant : σ → Prop) (assertion : ι → π → σ → Prop) (config : Config ι σ π) : Prop :=
  invariant config.shared ∧
    ∀ name position, config.running name = some position → assertion name position config.shared

/-- A change by one process keeps what holds, if its own assertion and those of the others do. -/
lemma holds_update {config : Config ι σ π} {name : ι} {shared : σ} {next : Option π}
    (kept : invariant shared) (own : ∀ position, next = some position →
      assertion name position shared)
    (others : ∀ other position, other ≠ name → config.running other = some position →
      assertion other position shared) :
    Holds invariant assertion { shared, running := Function.update config.running name next } := by
  refine ⟨kept, fun other position running => ?_⟩
  dsimp only at running
  by_cases same : other = name
  · subst same
    rw [Function.update_self] at running
    exact own position running
  · rw [Function.update_of_ne same] at running
    exact others other position same running

/-- The obligations of one process carry a step of any interleaving. -/
lemma RelyGuarantee.step (h : RelyGuarantee program invariant assertion guarantee)
    {config config' : Config ι σ π} (holds : Holds invariant assertion config)
    (step : Step program config config') : Holds invariant assertion config' := by
  obtain ⟨kept, asserted⟩ := holds
  cases step with
  | spawn name =>
    refine holds_update kept (fun position started => ?_)
      fun other position _ running => asserted other position running
    cases started
    exact h.start name config.shared kept
  | act name running acts =>
    obtain ⟨kept', asserted', guaranteed⟩ := h.act _ _ _ _ _ kept (asserted _ _ running) acts
    refine holds_update kept' (fun position moved => ?_) fun other position different running' =>
      h.stable name other position _ _ different (asserted other position running') guaranteed
    cases moved
    exact asserted'
  | stop name =>
    obtain ⟨kept', guaranteed⟩ := h.halt name _ kept
    exact holds_update kept' (fun position stopped => nomatch stopped)
      fun other position different running =>
        h.stable name other position _ _ different (asserted other position running) guaranteed

/-- The invariant and all assertions hold in every interleaving that starts with no process. -/
theorem RelyGuarantee.reachable (h : RelyGuarantee program invariant assertion guarantee)
    {config config' : Config ι σ π} (initially : invariant config.shared)
    (idle : ∀ name, config.running name = none)
    (run : Relation.ReflTransGen (Step program) config config') :
    Holds invariant assertion config' := by
  induction run with
  | refl => exact ⟨initially, fun name position running => by simp [idle name] at running⟩
  | tail _ step ih => exact h.step ih step

end Provenant.Concurrent

import Provenant.Run.Ledger

/-!
# Admission of lanes

A store admits a lane in a transaction of its own, inside which it takes a lease in the host's
ledger, in a transaction of the ledger's. The two commit independently: a crash or a failed commit
may leave the lease without the admission. This file has the admission and the child waits of any
number of stores that share one ledger, and proves that the caps hold in every interleaving.

## Main definitions

* `Store` — attempts and admission rows of a store.
* `Submissions` — what is fixed when lanes are submitted.
* `Host`, `Step` — the ledger, the stores and the transactions that are open.
* `Runs`, `FreshRuns` — runs of one boot, and those without a lease call that finds its own active
  lease.
* `BootRuns` — runs over any number of boots.

## Main results

* `lane_caps_hold` — host and project caps, run concurrency, and no pruning of fenced leases.

## Implementation notes

A store has one write transaction at a time. What a transaction reads of its own store before it
asks the ledger is still true when it commits. A transaction may end without effect at any point,
by an error, a failed commit or a crash; what it has committed in the ledger stays. The look at the
run's concurrency before the transaction has no effect and is left out.
-/

namespace Provenant.Run

open Json List Function
open Option (bind_eq_some_iff)

/-! ## Stores -/

/-- The part of `AttemptState` that admission reads and writes. -/
inductive AttemptState
  | queued
  | starting
  | running (childWait : Option Text)
  | terminal
  deriving DecidableEq, Repr

/-- The part of `AttemptRecord` that admission reads and writes. -/
structure AttemptRecord where
  attemptId : Text
  runId : Text
  revision : Nat
  state : AttemptState
  startedAt : Option Int := none
  runtimeDeadline : Option Int := none
  deriving DecidableEq, Repr

/-- A row of `admission`. -/
structure AdmissionRow where
  attempt : Text
  run : Text
  active : Bool
  ticket : AdmissionTicket
  deriving DecidableEq, Repr

/-- A run store, in its own directory: its attempts, and the lanes that wait for admission or
hold it. -/
structure Store where
  stateRoot : Text
  attempts : List AttemptRecord := []
  admission : List AdmissionRow := []
  deriving DecidableEq, Repr

namespace Store

/-- `record`. -/
def record (store : Store) (id : Text) : Option AttemptRecord :=
  store.attempts.find? (·.attemptId == id)

/-- `ticket`. -/
def ticket (store : Store) (id : Text) : Option AdmissionTicket :=
  (store.admission.find? (·.attempt == id)).bind fun row =>
    if row.ticket.attemptId = id then some row.ticket else none

/-- The active lanes of a run. -/
def activeIn (store : Store) (run : Text) : Nat :=
  store.admission.countP fun row => row.active && row.run == run

/-- The active lanes of a run beside an attempt. -/
def activeBeside (store : Store) (run id : Text) : Nat :=
  store.admission.countP fun row => row.active && row.run == run && row.attempt != id

/-- `UPDATE admission SET active = …, record = … WHERE attempt = …`. -/
def setActive (store : Store) (id : Text) (active : Bool) : Store :=
  { store with
    admission := store.admission.map fun row =>
      if row.attempt = id then { row with active, ticket := { row.ticket with active } } else row }

/-- `update_attempt`. -/
def setRecord (store : Store) (record : AttemptRecord) : Store :=
  { store with
    attempts := store.attempts.map fun old =>
      if old.attemptId = record.attemptId then record else old }

/-- `claim_observed` before it asks the ledger: the attempt is starting and its run has room. -/
def claimable (store : Store) (id : Text) : Option AdmissionTicket := do
  let old ← store.record id
  guard (old.state = .starting)
  let ticket ← store.ticket id
  guard (store.activeIn old.runId < ticket.runConcurrency)
  return ticket

/-- The deadline of a lane that runs for this many seconds. -/
def deadline (now : Int) (seconds : Nat) : Int := now + 1000000 * seconds

/-- `claim_observed` after the ledger granted its lease. -/
def claim (store : Store) (id : Text) (now : Int) : Option Store := do
  let old ← store.record id
  let ticket ← store.ticket id
  guard (old.revision < u64Max)
  return (store.setActive id true).setRecord { old with
    revision := old.revision + 1
    state := .running none
    startedAt := some now
    runtimeDeadline :=
      if 0 < ticket.runtimeSeconds then some (deadline now ticket.runtimeSeconds) else none }

/-- `set_child_wait_observed`, when it commits: the lane is active or not, and waits for its
children, for admission, or for nothing. The revision moves if the state does. -/
def setChildWait (store : Store) (id : Text) (active : Bool) (wait : Option Text) :
    Option Store := do
  let old ← store.record id
  let next := { old with state := .running wait }
  if next.state = old.state then return store.setActive id active
  guard (old.revision < u64Max)
  return (store.setActive id active).setRecord { next with revision := old.revision + 1 }

/-- `set_child_wait_observed` for a lane that resumes, before it asks the ledger. The flag says
that the run has room beside the lane. -/
def resumable (store : Store) (id : Text) : Option (AdmissionTicket × Bool) := do
  let old ← store.record id
  guard (old.state matches .running _)
  let ticket ← store.ticket id
  return (ticket, store.activeBeside old.runId id < ticket.runConcurrency)

end Store

/-! ## The host -/

/-- What is fixed when lanes are submitted: the caps, and for every attempt its ticket, its run
and the concurrency of the run. -/
structure Submissions where
  caps : LaneCaps
  submitted : Text → AdmissionTicket
  runOf : Text → Text
  concurrency : Text → Nat
  named : ∀ id, (submitted id).attemptId = id
  uniform : ∀ id, (submitted id).runConcurrency = concurrency (runOf id)

/-- A ticket is that of a submission, up to its flag and the allowance that the provider fixes. -/
def AdmissionTicket.Of (submissions : Submissions) (id : Text) (ticket : AdmissionTicket) : Prop :=
  ∃ active runtimeSeconds, ticket = { submissions.submitted id with active, runtimeSeconds }

/-- A write transaction that is open in a store. -/
inductive Transaction
  /-- A claim that may ask the ledger. -/
  | claiming (id : Text) (ticket : AdmissionTicket)
  /-- A claim with a lease, granted at this wall time and this instant. -/
  | claimed (id : Text) (ticket : AdmissionTicket) (now : Int) (instant : Nat)
  /-- A child wait that may yield its lease. -/
  | yielding (id : Text)
  /-- A child wait that has yielded its lease. -/
  | yielded (id : Text)
  /-- A lane that resumes and may ask the ledger. -/
  | resuming (id : Text) (ticket : AdmissionTicket)
  /-- A lane that resumes with a lease, granted at this instant. -/
  | resumed (id : Text) (ticket : AdmissionTicket) (instant : Nat)
  /-- A lane that resumes without a lease. -/
  | denied (id : Text)

/-- A lane that its store has let start, at the instant of the lease call. -/
structure Start where
  attempt : Text
  laneClass : LaneClass
  instant : Nat
  deriving DecidableEq, Repr

/-- The ledger, the stores `ι`, their open transactions, the monotonic clock, and the starts that
were committed, the last one first. -/
structure Host (ι : Type) where
  ledger : Ledger
  stores : ι → Store
  writing : ι → Option Transaction
  clock : Nat
  starts : List Start

/-- A step of the host, as far as leases are concerned. -/
inductive Act
  /-- A lease call for an attempt. -/
  | lease (id : Text) (call : LeaseCall)
  | other

/-- The readings of a lease call are those of the boot and the clock. -/
def LeaseCall.At (call : LeaseCall) (boot : Text) (micros : Nat) : Prop :=
  (∀ host, call.host = some host → host = { boot, micros }) ∧
    (∀ found, call.retryView.boot = some found → found = boot) ∧
    ∀ found, call.fullView.boot = some found → found = boot

/-- The other write transactions of a store. -/
inductive Edits (submissions : Submissions) (store : Store) : Store → Prop
  /-- `queue_ticket`: a lane is submitted. -/
  | queue {id : Text} {ticket : AdmissionTicket} {record : AttemptRecord}
      (fresh : id ∉ store.admission.map (·.attempt)) (of : ticket.Of submissions id)
      (named : record.attemptId = id) (run : record.runId = submissions.runOf id) :
      Edits submissions store { store with
        admission := store.admission ++
          [{ attempt := id, run := submissions.runOf id, active := false, ticket }]
        attempts := store.attempts ++ [record] }
  /-- The provider fixes the allowance of a lane. -/
  | allow {id : Text} {runtimeSeconds : Nat} :
      Edits submissions store { store with
        admission := store.admission.map fun row =>
          if row.attempt = id then { row with ticket := { row.ticket with runtimeSeconds } }
          else row }
  /-- The attempt changes its state. -/
  | change {record : AttemptRecord} (run : record.runId = submissions.runOf record.attemptId) :
      Edits submissions store (store.setRecord record)
  /-- The lane has ended. -/
  | delete {id : Text} :
      Edits submissions store { store with
        admission := store.admission.filter fun row => row.attempt != id }

variable {ι : Type} [DecidableEq ι]

namespace Host

/-- The transaction of a store moves on. -/
def moves (host : Host ι) (i : ι) (transaction : Option Transaction) : Host ι :=
  { host with writing := Function.update host.writing i transaction }

/-- The transaction of a store commits. -/
def commits (host : Host ι) (i : ι) (store : Store) : Host ι :=
  { host.moves i none with stores := Function.update host.stores i store }

/-- A transaction of the ledger commits, and that of the store moves on. -/
def leases (host : Host ι) (i : ι) (ledger : Ledger) (transaction : Option Transaction) :
    Host ι :=
  { host.moves i transaction with ledger }

/-- A start is noted. -/
def started (host : Host ι) (id : Text) (ticket : AdmissionTicket) (instant : Nat) : Host ι :=
  { host with
    starts := { attempt := id, laneClass := ticket.laneClass, instant } :: host.starts }

end Host

/-- One step of the stores and the ledger. A store has at most one write transaction open, and
its calls of the ledger are transactions of their own: other stores may call in between. -/
inductive Step (submissions : Submissions) (boot : Text) : Host ι → Act → Host ι → Prop
  /-- Time passes. -/
  | tick {host : Host ι} {clock : Nat} (later : host.clock ≤ clock) :
      Step submissions boot host .other { host with clock }
  /-- Another write transaction of a store. -/
  | edit {host : Host ι} {i : ι} {store : Store} (free : host.writing i = none)
      (edits : Edits submissions (host.stores i) store) :
      Step submissions boot host .other (host.commits i store)
  /-- A claim begins. -/
  | claim {host : Host ι} {i : ι} {id : Text} {ticket : AdmissionTicket}
      (free : host.writing i = none) (claimable : (host.stores i).claimable id = some ticket) :
      Step submissions boot host .other (host.moves i (some (.claiming id ticket)))
  /-- A claim gets its lease. -/
  | claimLease {host : Host ι} {i : ι} {id : Text} {ticket : AdmissionTicket} {call : LeaseCall}
      {ledger : Ledger} {now : Int} (claiming : host.writing i = some (.claiming id ticket))
      (reads : call.At boot host.clock)
      (leased : lease (host.stores i).stateRoot ticket submissions.caps call host.ledger =
        .ok (ledger, some now)) :
      Step submissions boot host (.lease id call)
        (host.leases i ledger (some (.claimed id ticket now host.clock)))
  /-- A claim is refused. -/
  | claimRefused {host : Host ι} {i : ι} {id : Text} {ticket : AdmissionTicket}
      {call : LeaseCall} {ledger : Ledger}
      (claiming : host.writing i = some (.claiming id ticket))
      (reads : call.At boot host.clock)
      (refused : lease (host.stores i).stateRoot ticket submissions.caps call host.ledger =
        .ok (ledger, none)) :
      Step submissions boot host (.lease id call) (host.leases i ledger none)
  /-- A claim commits. -/
  | claimCommit {host : Host ι} {i : ι} {id : Text} {ticket : AdmissionTicket} {now : Int}
      {instant : Nat} {store : Store}
      (claimed : host.writing i = some (.claimed id ticket now instant))
      (committed : (host.stores i).claim id now = some store) :
      Step submissions boot host .other ((host.commits i store).started id ticket instant)
  /-- A child wait begins. -/
  | wait {host : Host ι} {i : ι} {id : Text} {ticket : AdmissionTicket} {room : Bool}
      (free : host.writing i = none)
      (running : (host.stores i).resumable id = some (ticket, room)) :
      Step submissions boot host .other (host.moves i (some (.yielding id)))
  /-- A child wait yields its lease. -/
  | waitYield {host : Host ι} {i : ι} {id : Text}
      (yielding : host.writing i = some (.yielding id)) :
      Step submissions boot host .other
        (host.leases i (yieldLease (host.stores i).stateRoot id host.ledger) (some (.yielded id)))
  /-- A child wait commits. -/
  | waitCommit {host : Host ι} {i : ι} {id : Text} {store : Store}
      (yielded : host.writing i = some (.yielded id))
      (committed : (host.stores i).setChildWait id false (some (text "children")) = some store) :
      Step submissions boot host .other (host.commits i store)
  /-- A lane resumes, if its run has room. -/
  | resume {host : Host ι} {i : ι} {id : Text} {ticket : AdmissionTicket} {room : Bool}
      (free : host.writing i = none)
      (running : (host.stores i).resumable id = some (ticket, room)) :
      Step submissions boot host .other
        (host.moves i (some (if room then .resuming id ticket else .denied id)))
  /-- A lane that resumes gets its lease. -/
  | resumeLease {host : Host ι} {i : ι} {id : Text} {ticket : AdmissionTicket}
      {call : LeaseCall} {ledger : Ledger} {now : Int}
      (resuming : host.writing i = some (.resuming id ticket)) (reads : call.At boot host.clock)
      (leased : lease (host.stores i).stateRoot ticket submissions.caps call host.ledger =
        .ok (ledger, some now)) :
      Step submissions boot host (.lease id call)
        (host.leases i ledger (some (.resumed id ticket host.clock)))
  /-- A lane that resumes is refused. -/
  | resumeRefused {host : Host ι} {i : ι} {id : Text} {ticket : AdmissionTicket}
      {call : LeaseCall} {ledger : Ledger}
      (resuming : host.writing i = some (.resuming id ticket)) (reads : call.At boot host.clock)
      (refused : lease (host.stores i).stateRoot ticket submissions.caps call host.ledger =
        .ok (ledger, none)) :
      Step submissions boot host (.lease id call) (host.leases i ledger (some (.denied id)))
  /-- A lane that was refused goes on waiting, for admission. -/
  | denyCommit {host : Host ι} {i : ι} {id : Text} {store : Store}
      (denied : host.writing i = some (.denied id))
      (committed : (host.stores i).setChildWait id false (some (text "admission")) = some store) :
      Step submissions boot host .other (host.commits i store)
  /-- A lane that resumes commits. -/
  | resumeCommit {host : Host ι} {i : ι} {id : Text} {ticket : AdmissionTicket} {instant : Nat}
      {store : Store} (resumed : host.writing i = some (.resumed id ticket instant))
      (committed : (host.stores i).setChildWait id true none = some store) :
      Step submissions boot host .other ((host.commits i store).started id ticket instant)
  /-- A transaction ends without effect. -/
  | abort {host : Host ι} {i : ι} :
      Step submissions boot host .other (host.moves i none)

/-- A host whose stores are empty. Its ledger may hold leases that earlier boots left behind, as long
as they are leases of submitted lanes within the caps, and starts that earlier boots recorded. -/
structure Host.Fresh (submissions : Submissions) (host : Host ι) : Prop where
  ledger : host.ledger.Sound submissions.submitted submissions.caps
  admission : ∀ i, (host.stores i).admission = []
  attempts : ∀ i, (host.stores i).attempts = []
  idle : ∀ i, host.writing i = none
  starts : host.starts = []

/-- Any number of steps. -/
def Runs (submissions : Submissions) (boot : Text) : Host ι → Host ι → Prop :=
  Relation.ReflTransGen fun before after => ∃ act, Step submissions boot before act after

/-- The step is no lease call that finds its own active lease. -/
def Act.fresh (host : Host ι) : Act → Prop
  | .lease id call => host.ledger.retried call id = false
  | .other => True

/-- Any number of steps without a retried lease call. -/
def FreshRuns (submissions : Submissions) (boot : Text) : Host ι → Host ι → Prop :=
  Relation.ReflTransGen fun before after =>
    ∃ act, Step submissions boot before act after ∧ act.fresh before

/-- A run without retries is a run. -/
lemma FreshRuns.runs {submissions : Submissions} {boot : Text} {host host' : Host ι}
    (run : FreshRuns submissions boot host host') : Runs submissions boot host host' := by
  induction run with
  | refl => exact .refl
  | tail _ step ih =>
    obtain ⟨act, step, -⟩ := step
    exact ih.tail ⟨act, step⟩

/-- The host starts again: every open transaction is gone and the clock reads anew. The ledger and
the stores are files, so the leases of the boot that ended are still there. -/
def Host.rebooted (host : Host ι) (clock : Nat) : Host ι :=
  { host with writing := fun _ => none, clock, starts := [] }

/-- Any number of steps, in any number of boots: from a host in one boot to a host in another. -/
inductive BootRuns (submissions : Submissions) (boot : Text) (host : Host ι) :
    Text → Host ι → Prop
  | refl : BootRuns submissions boot host boot host
  | step {boot' : Text} {host' host'' : Host ι} {act : Act}
      (run : BootRuns submissions boot host boot' host')
      (step : Step submissions boot' host' act host'') :
      BootRuns submissions boot host boot' host''
  | reboot {boot' boot'' : Text} {host' : Host ι} {clock : Nat}
      (run : BootRuns submissions boot host boot' host') :
      BootRuns submissions boot host boot'' (host'.rebooted clock)

/-- A run of one boot is a run. -/
lemma Runs.bootRuns {submissions : Submissions} {boot : Text} {host host' : Host ι}
    (run : Runs submissions boot host host') : BootRuns submissions boot host boot host' := by
  induction run with
  | refl => exact .refl
  | tail _ step ih =>
    obtain ⟨_, step⟩ := step
    exact ih.step step

/-! ## What a store keeps -/

/-- A store between transactions: its rows are those of submitted lanes, one an attempt, and no run
has more active lanes than it may. -/
structure Store.Sound (submissions : Submissions) (store : Store) : Prop where
  nodup : (store.admission.map (·.attempt)).Nodup
  rows : ∀ row ∈ store.admission,
    row.run = submissions.runOf row.attempt ∧ row.ticket.Of submissions row.attempt
  records : ∀ record ∈ store.attempts, record.runId = submissions.runOf record.attemptId
  active : ∀ run, store.activeIn run ≤ submissions.concurrency run

/-- What an open transaction knows of its store. A lane that may become active has room in its
run. -/
def Transaction.Knows (submissions : Submissions) (store : Store) : Transaction → Prop
  | .claiming id ticket | .claimed id ticket _ _ | .resuming id ticket | .resumed id ticket _ =>
    ticket.Of submissions id ∧
      store.activeBeside (submissions.runOf id) id < submissions.concurrency (submissions.runOf id)
  | .yielding _ | .yielded _ | .denied _ => True

section Stores

variable {submissions : Submissions} {store store' : Store} {id : Text} {ticket : AdmissionTicket}

lemma AdmissionTicket.Of.setActive {active : Bool} (of : ticket.Of submissions id) :
    { ticket with active }.Of submissions id := by
  obtain ⟨_, runtimeSeconds, rfl⟩ := of
  exact ⟨active, runtimeSeconds, rfl⟩

/-- The ticket of an attempt in the store is that of its submission. -/
lemma Store.Sound.ticket_of (sound : store.Sound submissions)
    (found : store.ticket id = some ticket) : ticket.Of submissions id := by
  obtain ⟨row, search, checked⟩ := bind_eq_some_iff.1 found
  split_ifs at checked
  cases checked
  have matching := find?_some search
  have key : row.attempt = id := eq_of_beq matching
  have of := (sound.rows row (mem_of_find?_eq_some search)).2
  rwa [key] at of

/-- The record of an attempt in the store is in the run it was submitted for. -/
lemma Store.Sound.record_run {record : AttemptRecord} (sound : store.Sound submissions)
    (found : store.record id = some record) :
    record.attemptId = id ∧ record.runId = submissions.runOf id := by
  have matching := find?_some found
  have key : record.attemptId = id := eq_of_beq matching
  have run := sound.records record (mem_of_find?_eq_some found)
  rw [key] at run
  exact ⟨key, run⟩

lemma Store.activeBeside_le (store : Store) (run id : Text) :
    store.activeBeside run id ≤ store.activeIn run := by
  refine countP_mono_left fun row _ counted => ?_
  rw [Bool.and_eq_true] at counted
  exact counted.1

/-- A claim that may ask the ledger has room in its run. -/
lemma Store.Sound.claimable (sound : store.Sound submissions)
    (claimable : store.claimable id = some ticket) :
    ticket.Of submissions id ∧
      store.activeBeside (submissions.runOf id) id <
        submissions.concurrency (submissions.runOf id) := by
  obtain ⟨old, recorded, rest⟩ := bind_eq_some_iff.1 claimable
  obtain ⟨_, _, rest⟩ := bind_eq_some_iff.1 rest
  obtain ⟨found, searched, rest⟩ := bind_eq_some_iff.1 rest
  obtain ⟨_, room, rest⟩ := bind_eq_some_iff.1 rest
  cases rest
  have of := sound.ticket_of searched
  obtain ⟨-, run⟩ := sound.record_run recorded
  have bound : store.activeIn old.runId < ticket.runConcurrency := by
    simpa [guard] using room
  refine ⟨of, ?_⟩
  obtain ⟨_, _, rfl⟩ := of
  rw [run, submissions.uniform] at bound
  exact (store.activeBeside_le _ _).trans_lt bound

/-- So has a lane that resumes and may ask the ledger. -/
lemma Store.Sound.resumable {room : Bool} (sound : store.Sound submissions)
    (resumable : store.resumable id = some (ticket, room)) (hasRoom : room = true) :
    ticket.Of submissions id ∧
      store.activeBeside (submissions.runOf id) id <
        submissions.concurrency (submissions.runOf id) := by
  obtain ⟨old, recorded, rest⟩ := bind_eq_some_iff.1 resumable
  obtain ⟨_, _, rest⟩ := bind_eq_some_iff.1 rest
  obtain ⟨found, searched, rest⟩ := bind_eq_some_iff.1 rest
  cases rest
  have of := sound.ticket_of searched
  obtain ⟨-, run⟩ := sound.record_run recorded
  have bound := of_decide_eq_true hasRoom
  refine ⟨of, ?_⟩
  obtain ⟨_, _, rfl⟩ := of
  rw [run, submissions.uniform] at bound
  exact bound

/-- A change of rows that keeps who they are for keeps the store sound, if no run gets too many
active lanes. -/
lemma Store.Sound.map {f : AdmissionRow → AdmissionRow} (sound : store.Sound submissions)
    (same : ∀ row, (f row).attempt = row.attempt ∧ (f row).run = row.run)
    (tickets : ∀ row, row.ticket.Of submissions row.attempt →
      (f row).ticket.Of submissions row.attempt)
    (mapped : store'.admission = store.admission.map f) (attempts : store'.attempts = store.attempts)
    (active : ∀ run, store'.activeIn run ≤ submissions.concurrency run) :
    store'.Sound submissions := by
  have names : store'.admission.map (·.attempt) = store.admission.map (·.attempt) := by
    rw [mapped, map_map]
    exact map_congr_left fun row _ => (same row).1
  refine ⟨names ▸ sound.nodup, ?_, attempts ▸ sound.records, active⟩
  rw [mapped]
  intro row member
  obtain ⟨old, found, rfl⟩ := mem_map.1 member
  obtain ⟨run, of⟩ := sound.rows old found
  rw [(same old).1, (same old).2]
  exact ⟨run, tickets old of⟩

/-- The active lanes of a run after one attempt is set active: those beside it, and it. -/
lemma Store.activeIn_setActive_le (nodup : (store.admission.map (·.attempt)).Nodup)
    (run id : Text) :
    (store.setActive id true).activeIn run ≤ store.activeBeside run id + 1 := by
  have rekeyed : (store.setActive id true).admission =
      ((store.setActive id false).admission.map fun row =>
        if row.attempt = id then { row with active := true, ticket := { row.ticket with active := true } }
        else row) := by
    rw [Store.setActive, Store.setActive, map_map]
    refine map_congr_left fun row _ => ?_
    dsimp only [Function.comp]
    split_ifs with own
    · rfl
    · rfl
  have names : ((store.setActive id false).admission.map (·.attempt)).Nodup := by
    rw [Store.setActive, map_map]
    have same : ((fun row : AdmissionRow => row.attempt) ∘ fun row : AdmissionRow =>
        if row.attempt = id then { row with active := false, ticket := { row.ticket with active := false } }
        else row) = (·.attempt) := by
      funext row
      dsimp only [Function.comp]
      split_ifs <;> rfl
    rw [same]
    exact nodup
  unfold Store.activeIn
  rw [rekeyed]
  refine (Related.countP_rekey_le names id).trans (Nat.succ_le_succ ?_)
  rw [Store.setActive, countP_map]
  refine countP_mono_left fun row _ counted => ?_
  dsimp only [Function.comp] at counted
  split_ifs at counted with own
  · cases counted
  · simpa [own] using counted

section StoreSound

variable (sound : store.Sound submissions)
include sound

/-- A lane becomes active where its run has room. -/
lemma Store.Sound.setActive {active : Bool}
    (room : active = true → store.activeBeside (submissions.runOf id) id <
      submissions.concurrency (submissions.runOf id)) :
    (store.setActive id active).Sound submissions := by
  refine sound.map (fun row => ?_) (fun row of => ?_) rfl rfl fun run => ?_
  · split_ifs <;> exact ⟨rfl, rfl⟩
  · split_ifs
    · exact of.setActive
    · exact of
  · by_cases grows : active = true ∧ run = submissions.runOf id
    · obtain ⟨rfl, rfl⟩ := grows
      exact (Store.activeIn_setActive_le sound.nodup _ _).trans (room rfl)
    · -- no row of the run is activated, because the attempt is in another run or set inactive
      refine (Related.countP_map_le fun row member counted => ?_).trans (sound.active run)
      split_ifs at counted with own
      · obtain ⟨isActive, sameRun⟩ := Bool.and_eq_true_iff.1 counted
        refine absurd ⟨isActive, ?_⟩ grows
        rw [← eq_of_beq sameRun, ← own]
        exact (sound.rows row member).1
      · exact counted

/-- A changed record keeps the store sound if it stays in its run. -/
lemma Store.Sound.setRecord {record : AttemptRecord}
    (run : record.runId = submissions.runOf record.attemptId) :
    (store.setRecord record).Sound submissions := by
  refine ⟨sound.nodup, sound.rows, fun found member => ?_, sound.active⟩
  obtain ⟨old, stored, rfl⟩ := mem_map.1 member
  split_ifs
  · exact run
  · exact sound.records old stored

/-- A claim that commits keeps its store sound. -/
lemma Store.Sound.claim {now : Int} (room : store.activeBeside (submissions.runOf id) id <
      submissions.concurrency (submissions.runOf id)) (claimed : store.claim id now = some store') :
    store'.Sound submissions := by
  obtain ⟨old, recorded, rest⟩ := bind_eq_some_iff.1 claimed
  obtain ⟨_, -, rest⟩ := bind_eq_some_iff.1 rest
  obtain ⟨_, _, rest⟩ := bind_eq_some_iff.1 rest
  cases rest
  obtain ⟨named, run⟩ := sound.record_run recorded
  refine (sound.setActive fun _ => room).setRecord ?_
  rw [run, named]

/-- So does a child wait, or a lane that resumes. -/
lemma Store.Sound.setChildWait {active : Bool} {wait : Option Text}
    (room : active = true → store.activeBeside (submissions.runOf id) id <
      submissions.concurrency (submissions.runOf id))
    (waits : store.setChildWait id active wait = some store') : store'.Sound submissions := by
  obtain ⟨old, recorded, rest⟩ := bind_eq_some_iff.1 waits
  dsimp only at rest
  split_ifs at rest
  · cases rest
    exact sound.setActive room
  · obtain ⟨_, _, rest⟩ := bind_eq_some_iff.1 rest
    cases rest
    obtain ⟨named, run⟩ := sound.record_run recorded
    refine (sound.setActive room).setRecord ?_
    rw [run, named]

end StoreSound

/-- Every other write transaction keeps the store sound. -/
lemma Edits.sound (edits : Edits submissions store store') (sound : store.Sound submissions) :
    store'.Sound submissions := by
  cases edits with
  | @queue id ticket record fresh of named run =>
    refine ⟨?_, ?_, ?_, fun counted => ?_⟩
    · exact Related.nodup_key_snoc sound.nodup fresh
    · intro row member
      rcases mem_append.1 member with old | new
      · exact sound.rows row old
      · rw [mem_singleton.1 new]
        exact ⟨rfl, of⟩
    · intro found member
      rcases mem_append.1 member with old | new
      · exact sound.records found old
      · rw [mem_singleton.1 new, run, named]
    · unfold Store.activeIn
      rw [countP_append, countP_singleton]
      exact sound.active counted
  | allow =>
    refine sound.map (fun row => ?_) (fun row of => ?_) rfl rfl fun run => ?_
    · split_ifs <;> exact ⟨rfl, rfl⟩
    · split_ifs
      · obtain ⟨active, _, same⟩ := of
        exact ⟨active, _, by rw [same]⟩
      · exact of
    · refine (Related.countP_map_le fun row _ counted => ?_).trans (sound.active run)
      split_ifs at counted <;> exact counted
  | change run => exact sound.setRecord run
  | @delete id =>
    have kept : (store.admission.filter fun row => row.attempt != id).Sublist store.admission :=
      filter_sublist
    exact ⟨sound.nodup.sublist (kept.map _), fun row member => sound.rows row (kept.subset member),
      sound.records, fun run => le_trans kept.countP_le (sound.active run)⟩

end Stores

/-! ## What the host keeps -/

/-- The host between steps. -/
structure Host.Sound (submissions : Submissions) (host : Host ι) : Prop where
  ledger : host.ledger.Sound submissions.submitted submissions.caps
  stores : ∀ i, (host.stores i).Sound submissions
  knows : ∀ i transaction, host.writing i = some transaction →
    transaction.Knows submissions (host.stores i)

section Hosts

variable {submissions : Submissions} {boot boot' : Text} {host host' : Host ι} {act : Act} {i : ι}

omit [DecidableEq ι] in
/-- A host whose stores are empty is sound. -/
lemma Host.Fresh.sound (fresh : host.Fresh submissions) : host.Sound submissions := by
  refine ⟨fresh.ledger, fun i => ⟨?_, ?_, ?_, fun run => ?_⟩, fun i transaction writing => ?_⟩
  · rw [fresh.admission]
    exact nodup_nil
  · rw [fresh.admission]
    exact fun row member => nomatch member
  · rw [fresh.attempts]
    exact fun record member => nomatch member
  · unfold Store.activeIn
    rw [fresh.admission]
    exact Nat.zero_le _
  · rw [fresh.idle] at writing
    cases writing

section HostSound

variable (sound : host.Sound submissions)
include sound

variable {transaction : Option Transaction}

/-- A transaction moves on with what it knows. -/
lemma Host.Sound.moves
    (knows : ∀ found, transaction = some found → found.Knows submissions (host.stores i)) :
    (host.moves i transaction).Sound submissions := by
  refine ⟨sound.ledger, sound.stores, fun j found writing => ?_⟩
  dsimp only [Host.moves] at writing
  by_cases same : j = i
  · subst same
    rw [update_self] at writing
    exact knows found writing
  · rw [update_of_ne same] at writing
    exact sound.knows j found writing

/-- A transaction of the ledger commits. -/
lemma Host.Sound.leases {ledger : Ledger}
    (kept : ledger.Sound submissions.submitted submissions.caps)
    (knows : ∀ found, transaction = some found → found.Knows submissions (host.stores i)) :
    (host.leases i ledger transaction).Sound submissions :=
  ⟨kept, sound.stores, (sound.moves knows).knows⟩

/-- A transaction of a store commits. -/
lemma Host.Sound.commits {store : Store} (kept : store.Sound submissions) :
    (host.commits i store).Sound submissions := by
  refine ⟨sound.ledger, fun j => ?_, fun j found writing => ?_⟩
  · dsimp only [Host.commits]
    by_cases same : j = i
    · subst same
      rw [update_self]
      exact kept
    · rw [update_of_ne same]
      exact sound.stores j
  · dsimp only [Host.commits, Host.moves] at writing ⊢
    by_cases same : j = i
    · subst same
      rw [update_self] at writing
      cases writing
    · rw [update_of_ne same] at writing ⊢
      exact sound.knows j found writing

omit [DecidableEq ι] in
/-- A reboot leaves nothing open that could know anything. -/
lemma Host.Sound.rebooted {clock : Nat} : (host.rebooted clock).Sound submissions :=
  ⟨sound.ledger, sound.stores, fun _ _ => nofun⟩

omit [DecidableEq ι] in
lemma Host.Sound.started {id : Text} {ticket : AdmissionTicket} {instant : Nat} :
    (host.started id ticket instant).Sound submissions :=
  ⟨sound.ledger, sound.stores, sound.knows⟩

end HostSound

/-- A lease call for a submitted lane keeps the ledger sound. -/
lemma Ledger.Sound.leaseOf {ledger ledger' : Ledger} {store id : Text} {ticket : AdmissionTicket}
    {call : LeaseCall} {result : Option Int}
    (sound : ledger.Sound submissions.submitted submissions.caps)
    (of : ticket.Of submissions id)
    (leased : Run.lease store ticket submissions.caps call ledger = .ok (ledger', result)) :
    ledger'.Sound submissions.submitted submissions.caps := by
  obtain ⟨_, _, rfl⟩ := of
  refine sound.lease ?_ ?_ leased
  · rw [submissions.named]
  · rw [submissions.named]

/-- Every step keeps the host sound.

**Proof sketch.** A transaction that may activate a lane knows that its run has room beside the
lane, from its first look at the store to its commit, because no other transaction of that store
is open. A lease call keeps the ledger sound whatever the stores do. -/
lemma Step.sound (step : Step submissions boot host act host') (sound : host.Sound submissions) :
    host'.Sound submissions := by
  have quiet : ∀ {j : ι} {found : Transaction}, none = some found →
      found.Knows submissions (host.stores j) := nofun
  cases step with
  | tick => exact ⟨sound.ledger, sound.stores, sound.knows⟩
  | edit _ edits => exact sound.commits (edits.sound (sound.stores _))
  | claim _ claimable =>
    refine sound.moves fun found same => ?_
    cases same
    exact (sound.stores _).claimable claimable
  | claimLease claiming _ leased =>
    have knows := sound.knows _ _ claiming
    refine sound.leases (sound.ledger.leaseOf knows.1 leased) fun found same => ?_
    cases same
    exact knows
  | claimRefused claiming _ refused =>
    exact sound.leases (sound.ledger.leaseOf (sound.knows _ _ claiming).1 refused)
      fun _ => quiet
  | claimCommit claimed committed =>
    have kept := (sound.stores _).claim (sound.knows _ _ claimed).2 committed
    exact (sound.commits kept).started
  | wait _ _ =>
    refine sound.moves fun found same => ?_
    cases same
    trivial
  | waitYield _ =>
    refine sound.leases (sound.ledger.yieldLease _ _) fun found same => ?_
    cases same
    trivial
  | waitCommit _ committed | denyCommit _ committed =>
    exact sound.commits ((sound.stores _).setChildWait (fun same => by cases same) committed)
  | @resume _ _ _ room _ running =>
    refine sound.moves fun found same => ?_
    cases same
    split_ifs with hasRoom
    · exact (sound.stores _).resumable running hasRoom
    · trivial
  | resumeLease resuming _ leased =>
    have knows := sound.knows _ _ resuming
    refine sound.leases (sound.ledger.leaseOf knows.1 leased) fun found same => ?_
    cases same
    exact knows
  | resumeRefused resuming _ refused =>
    refine sound.leases (sound.ledger.leaseOf (sound.knows _ _ resuming).1 refused)
      fun found same => ?_
    cases same
    trivial
  | resumeCommit resumed committed =>
    have kept := (sound.stores _).setChildWait (fun _ => (sound.knows _ _ resumed).2) committed
    exact (sound.commits kept).started
  | abort => exact sound.moves fun _ => quiet

/-- Every run keeps the host sound, across boots too. -/
lemma BootRuns.sound (run : BootRuns submissions boot host boot' host')
    (sound : host.Sound submissions) : host'.Sound submissions := by
  induction run with
  | refl => exact sound
  | step _ step ih => exact step.sound ih
  | reboot _ ih => exact ih.rebooted

/-- A lease that every pruning of the step finds fenced is there after the step, with its flag
changed at most. -/
lemma Step.keeps_fenced {fenced : Lease} (step : Step submissions boot host act host')
    (fence : ∀ id call, act = .lease id call →
      Fenced boot call.retryView fenced ∧ Fenced boot call.fullView fenced)
    (member : fenced ∈ host.ledger.leases) :
    ∃ yielded, { fenced with yielded } ∈ host'.ledger.leases := by
  have kept : ∀ {store : Text} {ticket : AdmissionTicket} {id : Text} {call : LeaseCall}
      {ledger : Ledger} {result : Option Int}, act = .lease id call →
      call.At boot host.clock →
      lease store ticket submissions.caps call host.ledger = .ok (ledger, result) →
      ∃ yielded, { fenced with yielded } ∈ ledger.leases := by
    intro store ticket id call ledger result isCall reads leased
    obtain ⟨retry, full⟩ := fence id call isCall
    have stays := lease_keeps_fenced leased
      (fun found same => reads.2.1 found same ▸ retry)
      (fun found same => reads.2.2 found same ▸ full) member
    exact stays.elim (fun same => ⟨fenced.yielded, same⟩) fun cleared => ⟨false, cleared⟩
  cases step with
  | claimLease _ reads leased | resumeLease _ reads leased => exact kept rfl reads leased
  | claimRefused _ reads refused | resumeRefused _ reads refused => exact kept rfl reads refused
  | @waitYield i id _ =>
    have flagged := mem_map_of_mem (f := fun lease : Lease =>
      if lease.attempt = id ∧ lease.store = (host.stores i).stateRoot then
        { lease with yielded := true } else lease) member
    split_ifs at flagged
    · exact ⟨true, flagged⟩
    · exact ⟨fenced.yielded, flagged⟩
  | _ => exact ⟨fenced.yielded, member⟩

/-- **Host lane caps hold.** After any interleaving of claims, yields, reclaims and their prunings
by any number of stores, with crashes, failed commits and reboots between the transactions: the
leases that are not yielded are within the host and project caps, for all lanes and for writers; in each store
no run has more active lanes than its concurrency; and no step removes a lease of this boot whose
recorded guardian is observed alive with the same identity while its owner store is unreadable,
replaced or still has the row.

**Proof sketch.** The ledger's transactions count and insert in one transaction each, so they keep
the caps by themselves. What a store counted before it asks the ledger is still true when it
commits, because its own write transaction is open. -/
theorem lane_caps_hold (fresh : host.Fresh submissions)
    (run : BootRuns submissions boot host boot' host') :
    host'.ledger.leases.countP (fun lease => !lease.yielded) ≤ submissions.caps.hostTotal.limit ∧
      (∀ project, host'.ledger.leases.countP (fun lease =>
        !lease.yielded && lease.project == project) ≤ submissions.caps.projectTotal.limit) ∧
      host'.ledger.leases.countP (fun lease =>
        !lease.yielded && lease.laneClass == .writer) ≤ submissions.caps.hostWriters.limit ∧
      (∀ project, host'.ledger.leases.countP (fun lease =>
        !lease.yielded && lease.laneClass == .writer && lease.project == project) ≤
          submissions.caps.projectWriters.limit) ∧
      (∀ i run, (host'.stores i).activeIn run ≤ submissions.concurrency run) ∧
      (∀ act later, Step submissions boot' host' act later → ∀ lease ∈ host'.ledger.leases,
        (∀ id call, act = .lease id call →
          Fenced boot' call.retryView lease ∧ Fenced boot' call.fullView lease) →
        ∃ yielded, { lease with yielded } ∈ later.ledger.leases) := by
  have sound : host'.Sound submissions := run.sound fresh.sound
  have caps := sound.ledger.caps
  exact ⟨caps .hostTotal [], fun project => caps .projectTotal project, caps .hostWriters [],
    fun project => caps .projectWriters project, fun i run => (sound.stores i).active run,
    fun act later step lease member fence => step.keeps_fenced fence member⟩

end Hosts

/-! ### A claim that is retried, and a reboot

Two writers `a` and `b` of one run, spaced by five milliseconds. The claim of `a` gets its lease but
its commit fails; `b` starts five milliseconds later, and one microsecond after that `a` retries.
Then the host reboots, `a` is given up, and a third writer `c` is claimed, for which the caps have
room only because the leases of the boot before are pruned. -/

namespace Retried

/-- The boot in which `a` and `b` start. -/
def boot : Text := [1]

/-- The boot in which `c` starts. -/
def next : Text := [6]

/-- The ticket of a lane. -/
def ticket (id : Text) : AdmissionTicket where
  attemptId := id
  projectId := [2]
  laneClass := .writer
  startupSpacingMs := 5
  runConcurrency := 2
  runtimeSeconds := 0

/-- Room for two lanes everywhere. -/
def cap : LaneCap := { limit := 2, source := .configuration }

/-- Every lane is a writer of one run that may have two. -/
def submissions : Submissions where
  caps := { hostWriters := cap, projectWriters := cap, hostTotal := cap, projectTotal := cap }
  submitted := ticket
  runOf _ := [3]
  concurrency _ := 2
  named _ := rfl
  uniform _ := rfl

/-- The guardian of the lanes of a boot. -/
def guardian (boot : Text) : ProcessIdentity :=
  { boot, pid := 41, nativeStart := 7, groupId := 41, sessionId := 41 }

/-- The host sees the guardian, and the store with its rows. -/
def view (boot : Text) : PruneView where
  boot := some boot
  observe _ := .present { identity := guardian boot, zombie := false }
  owner _ := { before := some [4], opened := true, after := some [4], absent := some false,
               last := some [4] }

/-- A lease call at an instant. -/
def call (boot : Text) (micros : Nat) : LeaseCall where
  wall := some 0
  retryView := view boot
  fullView := view boot
  host := some { boot, micros }
  guardian := some (guardian boot)
  ownerId := some [4]

lemma call_at (boot : Text) (micros : Nat) : (call boot micros).At boot micros := by
  refine ⟨fun host same => ?_, fun found same => ?_, fun found same => ?_⟩
  · exact (Option.some.inj same).symm
  · exact (Option.some.inj same).symm
  · exact (Option.some.inj same).symm

/-- The record of a lane. -/
def record (id : Text) (state : AttemptState) (revision : Nat) (startedAt : Option Int) :
    AttemptRecord := { attemptId := id, runId := [3], revision, state, startedAt }

/-- The row of a lane. -/
def row (id : Text) (active : Bool) : AdmissionRow :=
  { attempt := id, run := [3], active, ticket := { ticket id with active } }

/-- The lane `a`. -/
def a : Text := [97]

/-- The lane `b`. -/
def b : Text := [98]

/-- The lane `c`. -/
def c : Text := [99]

/-- The store with the lane `a`. -/
def storeA : Store where
  stateRoot := [5]
  attempts := [record a .starting 1 none]
  admission := [row a false]

/-- The store with both lanes. -/
def storeAB : Store where
  stateRoot := [5]
  attempts := [record a .starting 1 none, record b .starting 1 none]
  admission := [row a false, row b false]

/-- The store once `b` runs. -/
def storeB : Store where
  stateRoot := [5]
  attempts := [record a .starting 1 none, record b (.running none) 2 (some 0)]
  admission := [row a false, row b true]

/-- The store once both run. -/
def storeBoth : Store where
  stateRoot := [5]
  attempts := [record a (.running none) 2 (some 0), record b (.running none) 2 (some 0)]
  admission := [row a true, row b true]

/-- The ledger after the first claim of `a`. -/
def ledgerA : Ledger :=
  (({} : Ledger).recordStart .writer { boot, micros := 0 }).insert
    (newLease [5] { ticket a with active := false } { boot, micros := 0 } (guardian boot) [4])

/-- The ledger after the claim of `b`. -/
def ledgerAB : Ledger :=
  (ledgerA.recordStart .writer { boot, micros := 5000 }).insert
    (newLease [5] { ticket b with active := false } { boot, micros := 5000 } (guardian boot) [4])

/-- The ledger after the claim of `c`, which pruned the leases of the boot before. -/
def ledgerC : Ledger :=
  (({ ledgerAB with leases := [] } : Ledger).recordStart .writer { boot := next, micros := 0 }).insert
    (newLease [5] { ticket c with active := false } { boot := next, micros := 0 } (guardian next)
      [4])

/-- The store once `c` runs in the place of `a`. -/
def storeC (active : Bool) : Store where
  stateRoot := [5]
  attempts := [record a (.running none) 2 (some 0), record b (.running none) 2 (some 0),
    if active then record c (.running none) 2 (some 0) else record c .starting 1 none]
  admission := [row b true, row c active]

/-- A host with one store. -/
def host (ledger : Ledger) (store : Store) (writing : Option Transaction) (clock : Nat)
    (starts : List Start) : Host Unit :=
  { ledger, stores := fun _ => store, writing := fun _ => writing, clock, starts }

/-- The host before anything happens. -/
def fresh : Host Unit := host {} { stateRoot := [5] } none 0 []

lemma fresh_fresh : fresh.Fresh submissions :=
  ⟨⟨nodup_nil, fun _ => nofun, fun _ => nofun, fun _ _ => Nat.zero_le _⟩,
    fun _ => rfl, fun _ => rfl, fun _ => rfl, rfl⟩

/-- The start of a lane. -/
def start (id : Text) (instant : Nat) : Start := { attempt := id, laneClass := .writer, instant }

/-- The host once both lanes run. -/
def bothRun : Host Unit := host ledgerAB storeBoth none 5001 [start a 5001, start b 5000]

/-- The host after the claim of `b`. -/
def bRuns : Host Unit := host ledgerAB storeB none 5000 [start b 5000]

/-- The host while the first claim of `a` has its lease. -/
def aLeased : Host Unit := host ledgerA storeAB (some (.claimed a (ticket a) 0 0)) 0 []

/-- The host once `c` runs. -/
def cRuns : Host Unit := host ledgerC (storeC true) none 0 [start c 0]

set_option maxRecDepth 10000 in
/-- Both lanes are submitted, and the claim of `a` gets its lease. -/
lemma freshRuns_aLeased : FreshRuns submissions boot fresh aLeased := by
  let At (host : Host Unit) : Prop := FreshRuns submissions boot fresh host
  have queuedA : At (host {} storeA none 0 []) :=
    .single ⟨.other, .edit (i := ()) rfl (@Edits.queue _ _ a (ticket a)
      (record a .starting 1 none) (by decide) ⟨false, 0, rfl⟩ rfl rfl), trivial⟩
  have queuedB : At (host {} storeAB none 0 []) :=
    queuedA.tail ⟨.other, .edit (i := ()) rfl (@Edits.queue _ _ b (ticket b)
      (record b .starting 1 none) (by decide) ⟨false, 0, rfl⟩ rfl rfl), trivial⟩
  have claimingA : At (host {} storeAB (some (.claiming a (ticket a))) 0 []) :=
    queuedB.tail ⟨.other, .claim (i := ()) rfl rfl, trivial⟩
  exact claimingA.tail ⟨.lease a (call boot 0), .claimLease (i := ()) rfl (call_at boot 0) rfl, rfl⟩

set_option maxRecDepth 10000 in
/-- The commit of the first claim of `a` fails, and `b` starts. -/
lemma freshRuns_bRuns : FreshRuns submissions boot fresh bRuns := by
  let At (host : Host Unit) : Prop := FreshRuns submissions boot fresh host
  have failed : At (host ledgerA storeAB none 0 []) :=
    freshRuns_aLeased.tail ⟨.other, .abort (i := ()), trivial⟩
  have later : At (host ledgerA storeAB none 5000 []) :=
    failed.tail ⟨.other, .tick (Nat.zero_le 5000), trivial⟩
  have claimingB : At (host ledgerA storeAB (some (.claiming b (ticket b))) 5000 []) :=
    later.tail ⟨.other, .claim (i := ()) rfl rfl, trivial⟩
  have leasedB : At (host ledgerAB storeAB (some (.claimed b (ticket b) 0 5000)) 5000 []) :=
    claimingB.tail ⟨.lease b (call boot 5000),
      .claimLease (i := ()) rfl (call_at boot 5000) rfl, rfl⟩
  exact leasedB.tail ⟨.other, @Step.claimCommit Unit _ submissions boot
    (host ledgerAB storeAB (some (.claimed b (ticket b) 0 5000)) 5000 []) () b (ticket b) 0 5000
    storeB rfl rfl, trivial⟩

set_option maxRecDepth 10000 in
/-- One microsecond later `a` retries its claim, finds its lease and starts. -/
lemma runs_bothRun : Runs submissions boot fresh bothRun := by
  let At (host : Host Unit) : Prop := Runs submissions boot fresh host
  have later : At (host ledgerAB storeB none 5001 [start b 5000]) :=
    freshRuns_bRuns.runs.tail ⟨_, .tick (Nat.le_succ 5000)⟩
  have claiming : At (host ledgerAB storeB (some (.claiming a (ticket a))) 5001
      [start b 5000]) := later.tail ⟨_, .claim (i := ()) rfl rfl⟩
  have found : At (host ledgerAB storeB (some (.claimed a (ticket a) 0 5001)) 5001
      [start b 5000]) := claiming.tail ⟨_, .claimLease (i := ()) rfl (call_at boot 5001) rfl⟩
  exact found.tail ⟨_, @Step.claimCommit Unit _ submissions boot
    (host ledgerAB storeB (some (.claimed a (ticket a) 0 5001)) 5001 [start b 5000]) () a
    (ticket a) 0 5001 storeBoth rfl rfl⟩

set_option maxRecDepth 10000 in
/-- After a reboot `c` starts in the place of `a`. -/
lemma bootRuns_cRuns : BootRuns submissions boot fresh next cRuns := by
  let At (host : Host Unit) : Prop := BootRuns submissions boot fresh next host
  have rebooted : At (host ledgerAB storeBoth none 0 []) :=
    @BootRuns.reboot _ _ _ _ _ _ next bothRun 0 runs_bothRun.bootRuns
  have ended : At (host ledgerAB { storeBoth with admission := [row b true] } none 0 []) :=
    rebooted.step (.edit (i := ()) rfl (@Edits.delete _ _ a))
  have queued : At (host ledgerAB (storeC false) none 0 []) :=
    ended.step (.edit (i := ()) rfl (@Edits.queue _ _ c (ticket c)
      (record c .starting 1 none) (by decide) ⟨false, 0, rfl⟩ rfl rfl))
  have claiming : At (host ledgerAB (storeC false) (some (.claiming c (ticket c))) 0 []) :=
    queued.step (.claim (i := ()) rfl rfl)
  have leased : At (host ledgerC (storeC false) (some (.claimed c (ticket c) 0 0)) 0 []) :=
    claiming.step (.claimLease (i := ()) rfl (call_at next 0) rfl)
  exact leased.step (@Step.claimCommit Unit _ submissions next
    (host ledgerC (storeC false) (some (.claimed c (ticket c) 0 0)) 0 []) () c (ticket c) 0 0
    (storeC true) rfl rfl)

end Retried

/-- The caps at the end of that run: two lanes of the store are active, and one lease is left. -/
theorem lane_caps_hold_rebooted :
    Retried.fresh.Fresh Retried.submissions ∧
      BootRuns Retried.submissions Retried.boot Retried.fresh Retried.next Retried.cRuns ∧
      Retried.cRuns.ledger.leases.countP (fun lease => !lease.yielded) ≤ 2 ∧
      ∀ i run, (Retried.cRuns.stores i).activeIn run ≤ 2 := by
  obtain ⟨total, -, -, -, active, -⟩ := lane_caps_hold Retried.fresh_fresh Retried.bootRuns_cRuns
  exact ⟨Retried.fresh_fresh, Retried.bootRuns_cRuns, total, active⟩

end Provenant.Run

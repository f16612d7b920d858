import Provenant.Data.Fallible
import Provenant.Data.Related
import Provenant.Run.Process
import Mathlib.Logic.Relation
import Mathlib.Order.Nat

/-!
# The host admission ledger

Host and project concurrency and startup spacing are global to the host: every store leases
capacity in one ledger. A lease names its store, its boot and its guardian. This file has the
transactions of the ledger as functions on its tables: taking a lease, yielding it, and pruning
the leases of attempts that are gone.

## Main definitions

* `Lease`, `Ledger` — the tables.
* `capHit` — the limit a new lease would exceed.
* `released`, `prune` — which leases are given up.
* `spacingWait` — how long a start of a class must wait.
* `lease`, `yieldLease` — the transactions.

## Main results

* `lease_outcome` — a lease call prunes, and then hands out a lease that is held, refuses, or
  starts the attempt within caps and spacing.
* `Ledger.Sound.lease` — lease calls keep the caps.
* `lease_keeps_fenced` — a lease with a live guardian and an owner that does not prove the row's
  removal survives every lease call.

## Implementation notes

The guardian column is kept as the identity it decodes to. Each call is given the answers of the
clock, of the process table and of the owner stores; an error rolls the transaction back.
-/

namespace Provenant.Run

open Json List Option
open Fallible

/-! ## Tables -/

/-- `LaneClass`. -/
inductive LaneClass
  | writer
  | readOnly
  deriving DecidableEq, Repr

/-- A row of `leases`. -/
structure Lease where
  attempt : Text
  project : Text
  store : Text
  laneClass : LaneClass
  boot : Text
  guardian : Option ProcessIdentity
  ownerId : Text
  yielded : Bool := false
  deriving DecidableEq, Repr

/-- `HostInstant`, a reading of the host's monotonic clock in a boot. -/
structure HostInstant where
  boot : Text
  micros : Nat
  deriving DecidableEq, Repr

/-- The ledger: leases in the order of their row ids, and the last start of each class. -/
structure Ledger where
  leases : List Lease := []
  spacing : LaneClass → Option HostInstant := fun _ => none

/-- The immutable part of `AdmissionTicket`, as a lane is submitted, with its last flag. -/
structure AdmissionTicket where
  attemptId : Text
  projectId : Text
  laneClass : LaneClass
  startupSpacingMs : Nat
  runConcurrency : Nat
  runtimeSeconds : Nat
  active : Bool := false
  deriving DecidableEq, Repr

/-- The errors of the ledger's transactions. -/
inductive LedgerError
  | validation (message : Text)
  | clock
  | guardianIdentity
  deriving DecidableEq, Repr

/-! ## Caps -/

/-- `SettingSource`. -/
inductive SettingSource
  | configuration
  | shippedDefault
  deriving DecidableEq, Repr

/-- `LaneLimit`. -/
inductive LaneLimit
  | hostWriters
  | projectWriters
  | hostTotal
  | projectTotal
  deriving DecidableEq, Repr

/-- A limit and where it was set. -/
structure LaneCap where
  limit : Nat
  source : SettingSource
  deriving DecidableEq, Repr

/-- `LaneCaps`. -/
structure LaneCaps where
  hostWriters : LaneCap
  projectWriters : LaneCap
  hostTotal : LaneCap
  projectTotal : LaneCap
  deriving DecidableEq, Repr

/-- `CapHit`. -/
structure CapHit where
  active : Nat
  limit : Nat
  kind : LaneLimit
  origin : SettingSource
  deriving DecidableEq, Repr

/-- The lease counts as active lane of the host. -/
def Lease.active (lease : Lease) : Bool := !lease.yielded

/-- It counts against the project. -/
def Lease.activeIn (project : Text) (lease : Lease) : Bool :=
  !lease.yielded && lease.project == project

/-- It counts as a writer of the host. -/
def Lease.writes (lease : Lease) : Bool := !lease.yielded && lease.laneClass == .writer

/-- It counts as a writer of the project. -/
def Lease.writesIn (project : Text) (lease : Lease) : Bool :=
  !lease.yielded && lease.laneClass == .writer && lease.project == project

/-- One limit against its count. -/
def hit (active : Nat) (cap : LaneCap) (kind : LaneLimit) : Option CapHit :=
  if cap.limit ≤ active then some { active, limit := cap.limit, kind, origin := cap.source }
  else none

/-- `cap_hit`: the limit a lease of the class for the project would exceed. -/
def capHit (leases : List Lease) (project : Text) (laneClass : LaneClass) (caps : LaneCaps) :
    Option CapHit :=
  let writerHit :=
    if laneClass = .writer then
      (hit (leases.countP Lease.writes) caps.hostWriters .hostWriters).or
        (hit (leases.countP (Lease.writesIn project)) caps.projectWriters .projectWriters)
    else none
  writerHit.or
    ((hit (leases.countP Lease.active) caps.hostTotal .hostTotal).or
      (hit (leases.countP (Lease.activeIn project)) caps.projectTotal .projectTotal))

/-! ## Pruning -/

/-- What the file operations on the owner's store answer: the identity of the file before it is
opened, after it is opened and after the query, and whether the query found no row. -/
structure OwnerView where
  before : Option Text
  opened : Bool
  after : Option Text
  absent : Option Bool
  last : Option Text
  deriving DecidableEq, Repr

/-- `Owner::open` and `Owner::released`: the store that took the lease no longer has the row. -/
def OwnerView.released (view : OwnerView) (ownerId : Text) : Bool :=
  !ownerId.isEmpty && view.before == some ownerId && view.opened && view.after == some ownerId &&
    view.absent.getD false && view.last == some ownerId

/-- What the host answers during one pruning. -/
structure PruneView where
  boot : Option Text
  observe : Int → ProcessObservation
  owner : Lease → OwnerView

/-- The identity in the guardian column, if it is usable. -/
def Lease.guardianIdentity (lease : Lease) : Option ProcessIdentity :=
  lease.guardian.filter fun identity =>
    !identity.boot.isEmpty && decide (0 < identity.pid) && decide (0 < identity.nativeStart)

/-- The guardian is absent, replaced by another process, or a zombie. -/
def guardianGone (observe : Int → ProcessObservation) (identity : ProcessIdentity) : Bool :=
  match observe identity.pid with
  | .absent => true
  | .present fact => !(fact.identity == identity) || fact.zombie
  | .unknown => false

/-- `released`. A row without an attempt has an unreadable owner. -/
def released (boot : Text) (view : PruneView) (lease : Lease) : Bool :=
  (!lease.boot.isEmpty && lease.boot != boot) ||
    lease.guardianIdentity.any (guardianGone view.observe) ||
    (!lease.attempt.isEmpty && (view.owner lease).released lease.ownerId)

/-- The leases one pruning looks at: at most 256, active ones first. -/
def scanned (leases : List Lease) : List Lease :=
  (leases.filter Lease.active ++ leases.filter (·.yielded)).take 256

/-- `prune`. -/
def prune (view : PruneView) (ledger : Ledger) : Except LedgerError Ledger :=
  match view.boot with
  | none => .error .clock
  | some boot =>
    let looked := scanned ledger.leases
    .ok { ledger with
      leases := ledger.leases.filter fun lease => !(looked.contains lease && released boot view lease) }

/-- A pruning that is made only if it is needed. -/
def pruneIf (needed : Bool) (view : PruneView) (ledger : Ledger) : Except LedgerError Ledger :=
  if needed then prune view ledger else .ok ledger

/-! ## Spacing -/

/-- The largest value of a signed word of 64 bits. -/
def i64Max : Nat := 2 ^ 63 - 1

/-- `sql_int`. -/
def sqlInt (value : Nat) : Except LedgerError Nat :=
  if i64Max < value then .error (.validation (text "integer exceeds SQLite range")) else .ok value

/-- `spacing_micros`. -/
def spacingMicros (spacingMs : Nat) : Except LedgerError Nat :=
  if spacingMs * 1000 ≤ u64Max then .ok (spacingMs * 1000)
  else .error (.validation (text "startup spacing"))

/-- `spacing_wait`: microseconds before a start may follow the recorded one. -/
def spacingWait (last : Option HostInstant) (now : HostInstant) (spacing : Nat) : Nat :=
  match last with
  | some last =>
    if last.boot = now.boot then saturatingAdd last.micros spacing - now.micros else 0
  | none => 0

/-! ## Leases -/

/-- What the host answers during one lease call. -/
structure LeaseCall where
  /-- The wall clock, for display only. -/
  wall : Option Int
  /-- The pruning of a call that finds its own lease. -/
  retryView : PruneView
  /-- The pruning of a call that finds a limit reached. -/
  fullView : PruneView
  /-- The monotonic clock. -/
  host : Option HostInstant
  /-- The identity of the calling guardian. -/
  guardian : Option ProcessIdentity
  /-- The identity of the calling store's file. -/
  ownerId : Option Text

namespace Ledger

/-- The attempt has a lease. -/
def holds (ledger : Ledger) (attempt : Text) : Bool :=
  ledger.leases.any (·.attempt == attempt)

/-- The attempt has a lease that it has not yielded. -/
def holdsActive (ledger : Ledger) (attempt : Text) : Bool :=
  ledger.leases.any fun lease => lease.attempt == attempt && !lease.yielded

/-- A limit stands against a lease for the ticket. -/
def full (ledger : Ledger) (ticket : AdmissionTicket) (caps : LaneCaps) : Bool :=
  (capHit ledger.leases ticket.projectId ticket.laneClass caps).isSome

/-- The last start of a class is recorded. -/
def recordStart (ledger : Ledger) (laneClass : LaneClass) (host : HostInstant) : Ledger :=
  { ledger with spacing := Function.update ledger.spacing laneClass (some host) }

/-- `UPDATE leases SET yielded = … WHERE attempt = …`. -/
def setYielded (ledger : Ledger) (attempt : Text) (yielded : Bool) : Ledger :=
  { ledger with
    leases := ledger.leases.map fun lease =>
      if lease.attempt = attempt then { lease with yielded } else lease }

/-- `INSERT INTO leases`. -/
def insert (ledger : Ledger) (lease : Lease) : Ledger :=
  { ledger with leases := ledger.leases ++ [lease] }

end Ledger

/-- A lease call finds, after its first pruning, an active lease of its own attempt. -/
def Ledger.retried (ledger : Ledger) (call : LeaseCall) (attempt : Text) : Bool :=
  match pruneIf (ledger.holds attempt) call.retryView ledger with
  | .ok pruned => pruned.holdsActive attempt
  | .error _ => false

/-- The lease of a new lane. -/
def newLease (store : Text) (ticket : AdmissionTicket) (host : HostInstant)
    (guardian : ProcessIdentity) (ownerId : Text) : Lease where
  attempt := ticket.attemptId
  project := ticket.projectId
  store
  laneClass := ticket.laneClass
  boot := host.boot
  guardian := some guardian
  ownerId

/-- `lease`, one transaction of the ledger. A failed one changes nothing; a refused one keeps what
it pruned. The time it returns is the wall clock of the call. -/
def lease (store : Text) (ticket : AdmissionTicket) (caps : LaneCaps) (call : LeaseCall)
    (ledger : Ledger) : Except LedgerError (Ledger × Option Int) := do
  let spacing ← spacingMicros ticket.startupSpacingMs
  let now ← call.wall.elim (.error (.validation (text "wall clock"))) .ok
  -- a retry must not preserve a malformed lease because its attempt matches
  let ledger ← pruneIf (ledger.holds ticket.attemptId) call.retryView ledger
  if ledger.holdsActive ticket.attemptId then
    return (ledger, some now)
  let ledger ← pruneIf (ledger.full ticket caps) call.fullView ledger
  if ledger.full ticket caps then
    return (ledger, none)
  let host ← call.host.elim (.error .clock) .ok
  if 0 < spacingWait (ledger.spacing ticket.laneClass) host spacing then
    return (ledger, none)
  let micros ← sqlInt host.micros
  let ledger := ledger.recordStart ticket.laneClass { host with micros }
  -- a yielded lease keeps its guardian and store
  if ledger.holds ticket.attemptId then
    return (ledger.setYielded ticket.attemptId false, some now)
  let guardian ← call.guardian.elim (.error .guardianIdentity) .ok
  let ownerId ← call.ownerId.elim (.error .guardianIdentity) .ok
  return (ledger.insert (newLease store ticket host guardian ownerId), some now)

/-- `yield_lease`, one transaction of the ledger. -/
def yieldLease (store attempt : Text) (ledger : Ledger) : Ledger :=
  { ledger with
    leases := ledger.leases.map fun lease =>
      if lease.attempt = attempt ∧ lease.store = store then { lease with yielded := true }
      else lease }

/-! ## What a lease call does -/

/-- One of the prunings of a lease call. -/
def PrunesIn (call : LeaseCall) (before after : Ledger) : Prop :=
  prune call.retryView before = .ok after ∨ prune call.fullView before = .ok after

/-- The prunings of a lease call, one after the other. -/
def Pruned (call : LeaseCall) : Ledger → Ledger → Prop := Relation.ReflTransGen (PrunesIn call)

/-- What a lease call does to the ledger, and what it returns. -/
inductive LeaseOutcome (store : Text) (ticket : AdmissionTicket) (caps : LaneCaps)
    (call : LeaseCall) (before : Ledger) : Ledger → Option Int → Prop
  /-- The attempt has an active lease, which is handed out again. -/
  | held {after : Ledger} {now : Int} (pruned : Pruned call before after)
      (own : before.retried call ticket.attemptId = true) :
      LeaseOutcome store ticket caps call before after (some now)
  /-- A limit or the spacing refuses. -/
  | refused {after : Ledger} (pruned : Pruned call before after) :
      LeaseOutcome store ticket caps call before after none
  /-- A yielded lease is taken back. -/
  | reclaimed {middle : Ledger} {host : HostInstant} {now : Int}
      (pruned : Pruned call before middle)
      (room : capHit middle.leases ticket.projectId ticket.laneClass caps = none)
      (read : call.host = some host)
      (spaced : spacingWait (middle.spacing ticket.laneClass) host
        (ticket.startupSpacingMs * 1000) = 0)
      (range : host.micros ≤ i64Max) :
      LeaseOutcome store ticket caps call before
        ((middle.recordStart ticket.laneClass host).setYielded ticket.attemptId false) (some now)
  /-- A new lease is taken. -/
  | inserted {middle : Ledger} {host : HostInstant} {now : Int} {guardian : ProcessIdentity}
      {ownerId : Text} (pruned : Pruned call before middle)
      (room : capHit middle.leases ticket.projectId ticket.laneClass caps = none)
      (read : call.host = some host)
      (spaced : spacingWait (middle.spacing ticket.laneClass) host
        (ticket.startupSpacingMs * 1000) = 0)
      (range : host.micros ≤ i64Max) (absent : middle.holds ticket.attemptId = false) :
      LeaseOutcome store ticket caps call before
        ((middle.recordStart ticket.laneClass host).insert
          (newLease store ticket host guardian ownerId)) (some now)

variable {view : PruneView}

section Outcome

variable {store : Text} {ticket : AdmissionTicket} {caps : LaneCaps} {call : LeaseCall}
  {before after : Ledger} {result : Option Int}

lemma elim_eq_ok {α : Type} {answer : Option α} {error : LedgerError} {value : α}
    (given : answer.elim (Except.error error) Except.ok = .ok value) : answer = some value := by
  cases answer with
  | none => cases given
  | some _ =>
    cases given
    rfl

/-- A pruning that is made only if it is needed. -/
lemma pruned_of_pruneIf {needed : Bool}
    (among : ∀ {a b : Ledger}, prune view a = .ok b → PrunesIn call a b)
    (made : pruneIf needed view before = .ok after) : Pruned call before after := by
  unfold pruneIf at made
  split_ifs at made
  · exact .single (among made)
  · cases made
    exact .refl

/-- Every lease call has one of the outcomes.

**Proof sketch.** The transaction is followed from its first query to its return. The two prunings
are taken together, and each return is one of the four cases. -/
theorem lease_outcome (leased : lease store ticket caps call before = .ok (after, result)) :
    LeaseOutcome store ticket caps call before after result := by
  obtain ⟨_, inRange, leased⟩ := bind_eq_ok.1 leased
  obtain ⟨now, -, leased⟩ := bind_eq_ok.1 leased
  obtain ⟨first, retried, leased⟩ := bind_eq_ok.1 leased
  have prunedFirst : Pruned call before first := pruned_of_pruneIf .inl retried
  split_ifs at leased with own
  · cases leased
    refine .held prunedFirst ?_
    unfold Ledger.retried
    rw [retried]
    exact own
  obtain ⟨second, filled, leased⟩ := bind_eq_ok.1 leased
  have pruned : Pruned call before second := prunedFirst.trans (pruned_of_pruneIf .inr filled)
  split_ifs at leased with full
  · cases leased
    exact .refused pruned
  have room : capHit second.leases ticket.projectId ticket.laneClass caps = none := by
    simpa [Ledger.full] using full
  obtain ⟨host, read, leased⟩ := bind_eq_ok.1 leased
  have read := elim_eq_ok read
  split_ifs at leased with early
  · cases leased
    exact .refused pruned
  have spaced : spacingWait (second.spacing ticket.laneClass) host
      (ticket.startupSpacingMs * 1000) = 0 := by
    unfold spacingMicros at inRange
    split_ifs at inRange
    cases inRange
    omega
  obtain ⟨_, within, leased⟩ := bind_eq_ok.1 leased
  unfold sqlInt at within
  split_ifs at within with outside
  cases within
  have range : host.micros ≤ i64Max := by omega
  dsimp only at leased
  split_ifs at leased with holds
  · cases leased
    exact .reclaimed pruned room read spaced range
  · obtain ⟨_, -, leased⟩ := bind_eq_ok.1 leased
    obtain ⟨_, -, leased⟩ := bind_eq_ok.1 leased
    cases leased
    exact .inserted pruned room read spaced range (Bool.not_eq_true _ ▸ holds)

/-- A pruning keeps some of the leases, in order, and the recorded starts. -/
lemma prune_sublist (pruned : prune view before = .ok after) :
    after.leases.Sublist before.leases ∧ after.spacing = before.spacing := by
  unfold prune at pruned
  cases found : view.boot with
  | none =>
    rw [found] at pruned
    cases pruned
  | some _ =>
    rw [found] at pruned
    cases pruned
    exact ⟨filter_sublist, rfl⟩

/-- So do the prunings of a call. -/
lemma Pruned.sublist (pruned : Pruned call before after) :
    after.leases.Sublist before.leases ∧ after.spacing = before.spacing := by
  induction pruned with
  | refl => exact ⟨List.Sublist.refl _, rfl⟩
  | tail _ step ih =>
    obtain ⟨kept, same⟩ := step.elim prune_sublist prune_sublist
    exact ⟨kept.trans ih.1, same.trans ih.2⟩

/-- What a lease call does to the recorded starts: a start that is not a retry is recorded, and
comes after the last one by the spacing at least.

**Proof sketch.** The sum of the last start and the spacing saturates at the largest word, which a
recorded instant never reaches. -/
lemma lease_spacing (leased : lease store ticket caps call before = .ok (after, result)) :
    (after.spacing = before.spacing ∧
      (result.isSome = true → before.retried call ticket.attemptId = true)) ∨
    result.isSome = true ∧ ∃ host, call.host = some host ∧
      after.spacing = Function.update before.spacing ticket.laneClass (some host) ∧
      ∀ last, before.spacing ticket.laneClass = some { boot := host.boot, micros := last } →
        last + ticket.startupSpacingMs * 1000 ≤ host.micros := by
  have apart : ∀ {middle : Ledger} {host : HostInstant}, middle.spacing = before.spacing →
      spacingWait (middle.spacing ticket.laneClass) host (ticket.startupSpacingMs * 1000) = 0 →
      host.micros ≤ i64Max → ∀ last,
      before.spacing ticket.laneClass = some { boot := host.boot, micros := last } →
        last + ticket.startupSpacingMs * 1000 ≤ host.micros := by
    intro middle host same spaced range last recorded
    rw [same, recorded] at spaced
    simp only [spacingWait, saturatingAdd, u64Max, if_true] at spaced
    unfold i64Max at range
    omega
  cases lease_outcome leased with
  | held pruned own => exact .inl ⟨pruned.sublist.2, fun _ => own⟩
  | refused pruned => exact .inl ⟨pruned.sublist.2, nofun⟩
  | reclaimed pruned _ read spaced range | inserted pruned _ read spaced range _ =>
    refine .inr ⟨rfl, _, read, ?_, apart pruned.sublist.2 spaced range⟩
    rw [← pruned.sublist.2]
    rfl

end Outcome

/-! ## Caps are kept -/

/-- The leases that count against a limit, in a project where it is one of a project. -/
def LaneLimit.counts (project : Text) : LaneLimit → Lease → Bool
  | .hostWriters => Lease.writes
  | .projectWriters => Lease.writesIn project
  | .hostTotal => Lease.active
  | .projectTotal => Lease.activeIn project

/-- The cap of a limit. -/
def LaneCaps.cap (caps : LaneCaps) : LaneLimit → LaneCap
  | .hostWriters => caps.hostWriters
  | .projectWriters => caps.projectWriters
  | .hostTotal => caps.hostTotal
  | .projectTotal => caps.projectTotal

/-- Only writers count against the limit. -/
def LaneLimit.ofWriters : LaneLimit → Bool
  | .hostWriters | .projectWriters => true
  | .hostTotal | .projectTotal => false

/-- No limit is exceeded, in any project. -/
def WithinCaps (caps : LaneCaps) (leases : List Lease) : Prop :=
  ∀ kind project, leases.countP (kind.counts project) ≤ (caps.cap kind).limit

/-- The ledger between transactions: one lease an attempt, each as its attempt was submitted,
within the caps. -/
structure Ledger.Sound (submitted : Text → AdmissionTicket) (caps : LaneCaps) (ledger : Ledger) :
    Prop where
  nodup : (ledger.leases.map (·.attempt)).Nodup
  project : ∀ lease ∈ ledger.leases, lease.project = (submitted lease.attempt).projectId
  laneClass : ∀ lease ∈ ledger.leases, lease.laneClass = (submitted lease.attempt).laneClass
  caps : WithinCaps caps ledger.leases

section Caps

variable {submitted : Text → AdmissionTicket} {caps : LaneCaps} {store : Text}
  {ticket : AdmissionTicket} {call : LeaseCall} {before after : Ledger} {result : Option Int}

variable {kind : LaneLimit} {project : Text}

lemma lt_of_hit_eq_none {active : Nat} {cap : LaneCap} (room : hit active cap kind = none) :
    active < cap.limit := by
  unfold hit at room
  split_ifs at room with reached
  omega

/-- Without a hit every limit that applies to the class leaves room for one more. -/
lemma room_of_capHit {leases : List Lease} {laneClass : LaneClass}
    (room : capHit leases project laneClass caps = none) (kind : LaneLimit)
    (applies : kind.ofWriters = true → laneClass = .writer) :
    leases.countP (kind.counts project) < (caps.cap kind).limit := by
  obtain ⟨writers, totals⟩ := or_eq_none_iff.1 room
  obtain ⟨host, inProject⟩ := or_eq_none_iff.1 totals
  cases kind with
  | hostTotal => exact lt_of_hit_eq_none host
  | projectTotal => exact lt_of_hit_eq_none inProject
  | hostWriters =>
    rw [if_pos (applies rfl)] at writers
    exact lt_of_hit_eq_none (or_eq_none_iff.1 writers).1
  | projectWriters =>
    rw [if_pos (applies rfl)] at writers
    exact lt_of_hit_eq_none (or_eq_none_iff.1 writers).2

/-- A lease that counts is in the project that is counted, and a writer where writers are. -/
lemma counts_spec {lease : Lease} (counted : kind.counts project lease = true) :
    kind.counts project = kind.counts lease.project ∧
      (kind.ofWriters = true → lease.laneClass = .writer) := by
  cases kind with
  | hostTotal => exact ⟨rfl, nofun⟩
  | projectTotal =>
    simp only [LaneLimit.counts, Lease.activeIn, Bool.and_eq_true, beq_iff_eq] at counted
    exact ⟨by rw [counted.2], nofun⟩
  | hostWriters =>
    simp only [LaneLimit.counts, Lease.writes, Bool.and_eq_true, beq_iff_eq] at counted
    exact ⟨rfl, fun _ => counted.2⟩
  | projectWriters =>
    simp only [LaneLimit.counts, Lease.writesIn, Bool.and_eq_true, beq_iff_eq] at counted
    exact ⟨by rw [counted.2], fun _ => counted.1.2⟩

lemma counts_yielded {lease : Lease} (yielded : lease.yielded = true) :
    kind.counts project lease = false := by
  cases kind <;> simp [LaneLimit.counts, Lease.active, Lease.activeIn, Lease.writes,
    Lease.writesIn, yielded]

section Keeps

variable (sound : before.Sound submitted caps)
include sound

/-- A ledger that keeps some of its leases stays sound. -/
lemma Ledger.Sound.sublist (kept : after.leases.Sublist before.leases) :
    after.Sound submitted caps :=
  ⟨sound.nodup.sublist (kept.map _), fun lease member => sound.project lease (kept.subset member),
    fun lease member => sound.laneClass lease (kept.subset member),
    fun kind project => le_trans kept.countP_le (sound.caps kind project)⟩

/-- A change of leases that keeps who they are for keeps the ledger sound, if it keeps the caps. -/
lemma Ledger.Sound.map {f : Lease → Lease}
    (same : ∀ lease, (f lease).attempt = lease.attempt ∧ (f lease).project = lease.project ∧
      (f lease).laneClass = lease.laneClass) (mapped : after.leases = before.leases.map f)
    (within : WithinCaps caps after.leases) : after.Sound submitted caps := by
  have attempts : after.leases.map (·.attempt) = before.leases.map (·.attempt) := by
    rw [mapped, List.map_map]
    exact map_congr_left fun lease _ => (same lease).1
  refine ⟨attempts ▸ sound.nodup, ?_, ?_, within⟩
  · rw [mapped]
    intro lease member
    obtain ⟨old, found, rfl⟩ := List.mem_map.1 member
    obtain ⟨attempt, project, -⟩ := same old
    rw [attempt, project]
    exact sound.project old found
  · rw [mapped]
    intro lease member
    obtain ⟨old, found, rfl⟩ := List.mem_map.1 member
    obtain ⟨attempt, -, laneClass⟩ := same old
    rw [attempt, laneClass]
    exact sound.laneClass old found

/-- A yield keeps the ledger sound. -/
lemma Ledger.Sound.yieldLease (store attempt : Text) :
    (Run.yieldLease store attempt before).Sound submitted caps := by
  refine sound.map (fun lease => ?_) rfl fun kind project => ?_
  · split_ifs <;> exact ⟨rfl, rfl, rfl⟩
  · refine (Related.countP_map_le fun lease _ counted => ?_).trans (sound.caps kind project)
    split_ifs at counted with own
    · rw [counts_yielded rfl] at counted
      cases counted
    · exact counted

/-- A yielded lease that is taken back counts once more, within the limits that were checked. -/
lemma Ledger.Sound.reclaim (project : ticket.projectId = (submitted ticket.attemptId).projectId)
    (laneClass : ticket.laneClass = (submitted ticket.attemptId).laneClass)
    (room : capHit before.leases ticket.projectId ticket.laneClass caps = none) :
    (before.setYielded ticket.attemptId false).Sound submitted caps := by
  refine sound.map (fun lease => ?_) rfl fun kind counted => ?_
  · split_ifs <;> exact ⟨rfl, rfl, rfl⟩
  · by_cases grows : ∃ lease ∈ before.leases, lease.attempt = ticket.attemptId ∧
        kind.counts counted { lease with yielded := false } = true
    · -- the lease is in the project and the class for which the limits were checked
      obtain ⟨lease, member, own, counts⟩ := grows
      obtain ⟨inProject, writers⟩ := counts_spec counts
      have sameProject : lease.project = ticket.projectId := by
        rw [sound.project lease member, own, project]
      have sameClass : lease.laneClass = ticket.laneClass := by
        rw [sound.laneClass lease member, own, laneClass]
      rw [sameProject] at inProject
      rw [sameClass] at writers
      have bound := room_of_capHit room kind writers
      rw [← inProject] at bound
      have := @Related.countP_rekey_le _ _ _ (kind.counts counted) (·.attempt) _
        (fun lease => { lease with yielded := false }) sound.nodup ticket.attemptId
      exact this.trans (Nat.succ_le_of_lt bound)
    · refine (Related.countP_map_le fun lease member counts => ?_).trans (sound.caps kind counted)
      split_ifs at counts with own
      · exact absurd ⟨lease, member, own, counts⟩ grows
      · exact counts

/-- A new lease counts once, within the limits that were checked. -/
lemma Ledger.Sound.insert {lease : Lease}
    (project : lease.project = (submitted lease.attempt).projectId)
    (laneClass : lease.laneClass = (submitted lease.attempt).laneClass)
    (absent : before.holds lease.attempt = false)
    (room : capHit before.leases lease.project lease.laneClass caps = none) :
    (before.insert lease).Sound submitted caps := by
  have fresh : lease.attempt ∉ before.leases.map (·.attempt) := by
    intro member
    obtain ⟨old, found, same⟩ := List.mem_map.1 member
    have holds : before.holds lease.attempt = true :=
      List.any_eq_true.2 ⟨old, found, beq_iff_eq.2 same⟩
    rw [absent] at holds
    cases holds
  refine ⟨?_, ?_, ?_, fun kind counted => ?_⟩
  · exact Related.nodup_key_snoc sound.nodup fresh
  · intro other member
    rcases mem_append.1 member with old | new
    · exact sound.project other old
    · rw [mem_singleton.1 new, project]
  · intro other member
    rcases mem_append.1 member with old | new
    · exact sound.laneClass other old
    · rw [mem_singleton.1 new, laneClass]
  · rw [Ledger.insert, countP_append, countP_singleton]
    split_ifs with counts
    · obtain ⟨inProject, writers⟩ := counts_spec counts
      rw [inProject]
      exact room_of_capHit room kind writers
    · exact sound.caps kind counted

/-- **Lease calls keep the caps.** Whatever the call prunes, hands out, takes back or inserts, the
ledger stays within the caps. -/
theorem Ledger.Sound.lease (project : ticket.projectId = (submitted ticket.attemptId).projectId)
    (laneClass : ticket.laneClass = (submitted ticket.attemptId).laneClass)
    (leased : Run.lease store ticket caps call before = .ok (after, result)) :
    after.Sound submitted caps := by
  have starts : ∀ {middle : Ledger} {host : HostInstant}, Pruned call before middle →
      (middle.recordStart ticket.laneClass host).Sound submitted caps :=
    fun pruned => sound.sublist pruned.sublist.1
  cases lease_outcome leased with
  | held pruned | refused pruned => exact sound.sublist pruned.sublist.1
  | reclaimed pruned room => exact (starts pruned).reclaim project laneClass room
  | inserted pruned room _ _ _ absent => exact (starts pruned).insert project laneClass absent room

end Keeps

end Caps

/-! ## Fenced leases stay -/

/-- The owner's store does not prove that the row is gone: it cannot be opened or read, it was
replaced, or it still has the row. -/
def OwnerView.Unproven (view : OwnerView) (ownerId : Text) : Prop :=
  view.opened = false ∨ view.absent ≠ some true ∨ view.before ≠ some ownerId ∨
    view.after ≠ some ownerId ∨ view.last ≠ some ownerId

/-- The lease was taken in this boot, its recorded guardian is observed alive with the same
identity, and the owner's store does not prove that the row is gone. -/
def Fenced (boot : Text) (view : PruneView) (lease : Lease) : Prop :=
  lease.boot = boot ∧
    (∃ identity fact, lease.guardian = some identity ∧
      view.observe identity.pid = .present fact ∧ (fact.identity == identity) = true ∧
      fact.zombie = false) ∧
    (view.owner lease).Unproven lease.ownerId

section Fences

variable {caps : LaneCaps} {store : Text} {ticket : AdmissionTicket} {call : LeaseCall}
  {before after : Ledger} {result : Option Int} {fenced : Lease}

/-- An owner that proves nothing releases nothing. -/
lemma OwnerView.Unproven.not_released {view : OwnerView} {ownerId : Text}
    (unproven : view.Unproven ownerId) : view.released ownerId = false := by
  rw [Bool.eq_false_iff]
  intro gone
  simp only [OwnerView.released, Bool.and_eq_true, beq_iff_eq] at gone
  obtain ⟨⟨⟨⟨⟨-, first⟩, opened⟩, second⟩, absent⟩, last⟩ := gone
  rcases unproven with closed | present | replaced | replaced | replaced
  · rw [closed] at opened
    cases opened
  · cases found : view.absent with
    | none =>
      rw [found] at absent
      cases absent
    | some _ =>
      rw [found, getD_some] at absent
      exact present (by rw [found, absent])
  · exact replaced first
  · exact replaced second
  · exact replaced last

/-- A fenced lease is not released. -/
lemma Fenced.not_released {boot : Text} (fence : Fenced boot view fenced) :
    released boot view fenced = false := by
  obtain ⟨thisBoot, ⟨identity, fact, recorded, observed, same, alive⟩, unproven⟩ := fence
  have guarded : fenced.guardianIdentity.any (guardianGone view.observe) = false := by
    have living : guardianGone view.observe identity = false := by
      simp [guardianGone, observed, same, alive]
    unfold Lease.guardianIdentity
    rw [recorded, filter_some]
    split_ifs
    · exact living
    · rfl
  simp [released, thisBoot, guarded, unproven.not_released]

/-- A fenced lease survives a pruning. -/
lemma prune_keeps (pruned : prune view before = .ok after)
    (fence : ∀ boot, view.boot = some boot → Fenced boot view fenced)
    (member : fenced ∈ before.leases) : fenced ∈ after.leases := by
  unfold prune at pruned
  cases found : view.boot with
  | none =>
    rw [found] at pruned
    cases pruned
  | some boot =>
    rw [found] at pruned
    cases pruned
    refine mem_filter.2 ⟨member, ?_⟩
    rw [(fence boot found).not_released, Bool.and_false, Bool.not_false]

/-- A fenced lease survives the prunings of a call. -/
lemma Pruned.keeps (pruned : Pruned call before after)
    (retry : ∀ boot, call.retryView.boot = some boot → Fenced boot call.retryView fenced)
    (full : ∀ boot, call.fullView.boot = some boot → Fenced boot call.fullView fenced)
    (member : fenced ∈ before.leases) : fenced ∈ after.leases := by
  induction pruned with
  | refl => exact member
  | tail _ step ih =>
    exact step.elim (fun made => prune_keeps made retry ih) fun made => prune_keeps made full ih

/-- **Fenced leases stay.** A lease that is fenced whenever the call prunes is still there after
the call; at most its yield is taken back. -/
theorem lease_keeps_fenced (leased : lease store ticket caps call before = .ok (after, result))
    (retry : ∀ boot, call.retryView.boot = some boot → Fenced boot call.retryView fenced)
    (full : ∀ boot, call.fullView.boot = some boot → Fenced boot call.fullView fenced)
    (member : fenced ∈ before.leases) :
    fenced ∈ after.leases ∨ { fenced with yielded := false } ∈ after.leases := by
  cases lease_outcome leased with
  | held pruned | refused pruned => exact .inl (pruned.keeps retry full member)
  | reclaimed pruned =>
    have kept := List.mem_map_of_mem (f := fun lease : Lease =>
      if lease.attempt = ticket.attemptId then { lease with yielded := false } else lease)
      (pruned.keeps retry full member)
    split_ifs at kept
    · exact .inr kept
    · exact .inl kept
  | inserted pruned _ _ _ _ _ =>
    exact .inl (mem_append_left _ (pruned.keeps retry full member))

end Fences

end Provenant.Run

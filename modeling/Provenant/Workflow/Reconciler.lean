import Provenant.Data.Fallible
import Provenant.Data.Json
import Provenant.Data.Keyed

/-!
# The work store of the pull request reconciler

Work on a pull request is recorded per key: repository, number, head and the digests of what it is
judged by. Before a worker performs an external effect, the publication of a verdict or a merge, it
stores an intent; what became of the effect is learnt from observations of the remote. A newer head
cancels the work of the older one; when the older head returns, its attempt is archived and work
starts afresh, and the identifiers used before stay reserved.

This file has the store and its operations, each one a transaction, and what an accepted operation
does to the record of one key.

## Main definitions

* `Reconciler.Record`, `Reconciler.Store` — a work record, and the two tables.
* `Reconciler.Op`, `Reconciler.Store.apply` — the operations.
* `Reconciler.Cell`, `Reconciler.Change` — what the store says about one key, and how an operation
  changes it.

## Main results

* `Reconciler.change_of_apply` — every accepted operation is such a change, for every key.

## Implementation notes

A transaction that fails is rolled back, so an operation returns the new store or an error. Records
are stored and read as JSON values, which is left out, with the errors of the database and of the
decoder. The key of a row is the JSON text of its key, one text for one key. `reconcile_remote`
reads the record, asks the remote and calls `reconcile`: it is a read and an operation of its own,
and between the two any other operation may run.
-/

namespace Provenant.Reconciler

open Json Fallible List Option Keyed

/-! ### Records -/

/-- `Key`. -/
structure Key where
  repository : Text
  pr : Nat
  head : Text
  policyDigest : Text
  lens : Text
  baseDigest : Text
  deriving DecidableEq

/-- `State`. -/
inductive State
  | needsReview
  | reviewing
  | verdict
  | awaitingChecks
  | landable
  | landing
  | landed
  | failed
  deriving DecidableEq

/-- `Effect`. -/
inductive Effect
  | verdict
  | merge
  deriving DecidableEq

/-- `Intent`. -/
structure Intent where
  id : Text
  effect : Effect
  /-- A receipt is the remote's stable identifier, not an inferred success. -/
  receipt : Option Text
  /-- A definitive absence permits retry of this same intent; unknown does not. -/
  retryable : Bool
  /-- Fences observations started before a retry. -/
  generation : Nat
  deriving DecidableEq

/-- `Attempt`. -/
structure Attempt where
  id : Text
  leaseOwner : Text
  leaseUntil : Int
  deriving DecidableEq

/-- `History`: an archived attempt. -/
structure History where
  state : State
  attempt : Option Attempt
  verdict : Option Text
  intents : List Intent
  deriving DecidableEq

/-- `Record`. -/
structure Record where
  schemaVersion : Nat
  key : Key
  state : State
  cancelled : Bool
  attempt : Option Attempt
  verdict : Option Text
  intents : List Intent
  history : List History
  deriving DecidableEq

/-- `Error`, without the errors of the database and of the decoder. -/
inductive Error
  | version
  | missing
  | invalid
  | lease
  | uncertain
  deriving DecidableEq

/-- `Observation`. -/
inductive Observation
  | unknown
  | absent
  | found (receipt : Text)
  deriving DecidableEq

/-- The kinds of the identifiers in `pr_work_ids`. -/
inductive IdKind
  | attempt
  | intent
  deriving DecidableEq

namespace Record

/-- The record of a head seen for the first time. -/
def fresh (key : Key) : Record where
  schemaVersion := 1
  key := key
  state := .needsReview
  cancelled := false
  attempt := none
  verdict := none
  intents := []
  history := []

/-- All intents of a record, the current ones first, then the archived ones. -/
def pending (r : Record) : List Intent := r.intents ++ r.history.flatMap (·.intents)

/-- The current attempt moved to the history. -/
def archive (r : Record) : Record :=
  { r with
    attempt := none
    verdict := none
    intents := []
    history := r.history ++ [⟨r.state, r.attempt, r.verdict, r.intents⟩] }

/-- An archived attempt is kept while one of its effects has no receipt. -/
def unsettled (h : History) : Bool := h.intents.any (·.receipt.isNone)

/-- What `observe_head` makes of a cancelled record: the attempt archived, settled history
dropped, and work to be done afresh. -/
def returned (r : Record) : Record :=
  { r.archive with
    history := r.archive.history.filter unsettled
    state := .needsReview
    cancelled := false }

/-- The identifiers of an archived attempt. -/
def historyIds (h : History) : List (IdKind × Text) :=
  (h.attempt.toList.map fun a => (.attempt, a.id)) ++ h.intents.map fun i => (.intent, i.id)

/-- The identifiers `remember_ids` stores for a record: those of its whole history. -/
def remembered (r : Record) : List (IdKind × Text) := r.history.flatMap historyIds

/-- Some effect may have happened without the store knowing. -/
def uncertain (r : Record) : Bool := r.pending.any fun i => i.receipt.isNone && !i.retryable

/-- `leased`. -/
def leased (r : Record) (id owner : Text) (now : Int) : Except Error Unit :=
  if r.cancelled then .error .invalid
  else
    match r.attempt with
    | some a =>
      if a.id = id ∧ a.leaseOwner = owner ∧ now < a.leaseUntil then .ok () else .error .lease
    | none => .error .lease

/-- The part of `start` that changes the record. -/
def start (r : Record) (attempt : Attempt) (now : Int) : Except Error Record :=
  if r.cancelled ∨ r.state ≠ .needsReview ∨ r.attempt.isSome ∨
      r.history.any (fun h => h.attempt.any (·.id = attempt.id)) then
    .error .invalid
  else if attempt.leaseUntil ≤ now ∨ attempt.id = [] ∨ attempt.leaseOwner = [] then
    .error .lease
  else
    .ok { r with attempt := some attempt, state := .reviewing }

/-- `renew`. -/
def renew (r : Record) (id owner : Text) (now lease : Int) : Except Error Record :=
  if r.cancelled then .error .invalid
  else
    match r.attempt with
    | none => .error .missing
    | some a =>
      if a.id ≠ id ∨ owner = [] ∨ lease ≤ now ∨ (now < a.leaseUntil ∧ a.leaseOwner ≠ owner) then
        .error .lease
      else
        .ok { r with attempt := some { a with leaseOwner := owner, leaseUntil := lease } }

/-- `verdict`. -/
def giveVerdict (r : Record) (id owner : Text) (now : Int) (verdict : Text) :
    Except Error Record := do
  r.leased id owner now
  if r.state ≠ .reviewing ∨ r.verdict.isSome ∨ verdict = [] then .error .invalid
  else .ok { r with verdict := some verdict, state := .verdict }

/-- The transitions a worker may ask for. -/
def permitted : State → State → Bool
  | .verdict, .awaitingChecks => true
  | .awaitingChecks, .landable => true
  | .reviewing, .failed => true
  | .verdict, .failed => true
  | .awaitingChecks, .failed => true
  | .landable, .failed => true
  | _, _ => false

/-- The verdict of the current attempt is known to the remote. -/
def published (r : Record) : Bool := r.intents.any fun i => i.effect = .verdict && i.receipt.isSome

/-- `transition`. -/
def transition (r : Record) (id owner : Text) (now : Int) (next : State) :
    Except Error Record := do
  r.leased id owner now
  if ¬ permitted r.state next then .error .invalid
  else if next = .awaitingChecks ∧ ¬ r.published then .error .uncertain
  else .ok { r with state := next }

/-- The state in which an effect may be intended. -/
def readyFor : Effect → State
  | .verdict => .verdict
  | .merge => .landable

/-- The part of `intent` that changes the record. -/
def intend (r : Record) (attempt owner : Text) (now : Int) (id : Text) (effect : Effect) :
    Except Error Record := do
  r.leased attempt owner now
  if r.state ≠ readyFor effect ∨ id = [] ∨
      r.intents.any (fun i => i.effect = effect || i.id = id) ∨
      (r.history.flatMap (·.intents)).any (fun i => i.id = id) then
    .error .invalid
  else
    .ok { r with
      intents := r.intents ++ [⟨id, effect, none, false, 0⟩]
      state := if effect = .merge then .landing else r.state }

/-- The first intent with the identifier of `new` replaced in the first archived attempt that has
one. -/
def replaceArchived (new : Intent) : List History → List History
  | [] => []
  | h :: rest =>
    if new.id ∈ h.intents.map (·.id) then
      { h with intents := Keyed.replaceFirst (·.id) new h.intents } :: rest
    else h :: replaceArchived new rest

/-- The first intent with the identifier of `new` replaced, among the current ones if one of them
has it. -/
def put (r : Record) (new : Intent) : Record :=
  if new.id ∈ r.intents.map (·.id) then
    { r with intents := Keyed.replaceFirst (·.id) new r.intents }
  else { r with history := replaceArchived new r.history }

/-- A receipt for a current merge lands the record. -/
def landedBy (r : Record) (i : Intent) : State :=
  if i.id ∈ r.intents.map (·.id) ∧ i.effect = .merge then .landed else r.state

/-- `reconcile`. -/
def reconcile (r : Record) (intent : Text) (generation : Nat) (observation : Observation) :
    Except Error Record :=
  match Keyed.find (·.id) intent r.pending with
  | none => .error .missing
  | some i =>
    if i.generation ≠ generation then .error .uncertain
    else if i.receipt.isSome then .ok r
    else
      match observation with
      | .unknown => .ok (r.put { i with retryable := false })
      | .absent => .ok (r.put { i with retryable := true })
      | .found receipt =>
        if receipt = [] then .error .invalid
        else
          .ok { r.put { i with receipt := some receipt, retryable := false } with
            state := r.landedBy i }

/-- `retry`. -/
def retry (r : Record) (attempt owner : Text) (now : Int) (intent : Text) :
    Except Error Record := do
  r.leased attempt owner now
  if r.state = .failed ∨ r.state = .landed then .error .invalid
  else
    match Keyed.find (·.id) intent r.intents with
    | none => .error .missing
    | some i =>
      if ¬ i.retryable ∨ i.receipt.isSome then .error .uncertain
      else if i.generation + 1 < 2 ^ 64 then
        .ok (r.put { i with generation := i.generation + 1, retryable := false })
      else .error .invalid

end Record

/-! ### The store and its operations -/

/-- The tables `pr_work` and `pr_work_ids`. -/
structure Store where
  work : List Record
  ids : List (Key × IdKind × Text)
  deriving DecidableEq

namespace Store

/-- The store of a new database. -/
def empty : Store := ⟨[], []⟩

/-- The row of a key. -/
def row (s : Store) (key : Key) : Option Record := Keyed.find (·.key) key s.work

/-- `get_from`. -/
def getFrom (s : Store) (key : Key) : Except Error Record :=
  match s.row key with
  | none => .error .missing
  | some r => if r.schemaVersion ≠ 1 then .error .version else .ok r

/-- `save`. -/
def save (s : Store) (r : Record) : Store := { s with work := Keyed.update (·.key) r s.work }

/-- `remember_ids`. -/
def rememberIds (s : Store) (r : Record) : Store :=
  { s with ids := r.remembered.map (fun id => (r.key, id)) ∪ s.ids }

/-- `used_id`. -/
def usedId (s : Store) (key : Key) (kind : IdKind) (id : Text) : Bool := (key, kind, id) ∈ s.ids

/-- The record is of the same pull request. -/
def samePull (key : Key) (r : Record) : Bool :=
  r.key.repository = key.repository ∧ r.key.pr = key.pr

/-- The record is of another head of the same pull request. -/
def otherHead (key : Key) (r : Record) : Bool := samePull key r && r.key.head ≠ key.head

/-- The work on other heads of the pull request cancelled. -/
def cancelOthers (s : Store) (key : Key) : Except Error Store :=
  if s.work.any (fun r => otherHead key r && r.schemaVersion ≠ 1) then .error .version
  else
    .ok { s with
      work := s.work.map fun r => if otherHead key r then { r with cancelled := true } else r }

/-- The insertion of `observe_head`, which leaves a record that is there. -/
def insertFresh (s : Store) (key : Key) : Store :=
  { s with work := Keyed.insertNew (·.key) (.fresh key) s.work }

/-- A record whose head is observed: fresh work if it had been cancelled. -/
def bringBack (s : Store) (r : Record) : Store :=
  if r.cancelled then (s.rememberIds r.archive).save r.returned else s

/-- `observe_head`. -/
def observeHead (s : Store) (key : Key) : Except Error Store := do
  let s ← s.cancelOthers key
  let r ← (s.insertFresh key).getFrom key
  .ok ((s.insertFresh key).bringBack r)

/-- `update`. -/
def update (s : Store) (key : Key) (f : Record → Except Error Record) : Except Error Store := do
  let r ← s.getFrom key
  let r' ← f r
  .ok (s.save r')

/-- What `start` asks of every record of the pull request: an old head may have published just
before its cancellation. -/
def checkSettled (r : Record) : Except Error Unit :=
  if r.schemaVersion ≠ 1 then .error .version
  else if r.uncertain then .error .uncertain
  else .ok ()

/-- An identifier of a kind that is not in `pr_work_ids`. -/
def checkUnused (s : Store) (key : Key) (kind : IdKind) (id : Text) : Except Error Unit :=
  if s.usedId key kind id then .error .invalid else .ok ()

/-- `start`. -/
def start (s : Store) (key : Key) (attempt : Attempt) (now : Int) : Except Error Store := do
  (s.work.filter (samePull key)).forM checkSettled
  let r ← s.getFrom key
  s.checkUnused key .attempt attempt.id
  let r' ← r.start attempt now
  .ok (s.save r')

/-- `intent`. -/
def intent (s : Store) (key : Key) (attempt owner : Text) (now : Int) (id : Text)
    (effect : Effect) : Except Error Store := do
  s.checkUnused key .intent id
  s.update key fun r => r.intend attempt owner now id effect

end Store

/-- The operations that write. -/
inductive Op
  | observeHead (key : Key)
  | start (key : Key) (attempt : Attempt) (now : Int)
  | renew (key : Key) (id owner : Text) (now lease : Int)
  | verdict (key : Key) (id owner : Text) (now : Int) (verdict : Text)
  | transition (key : Key) (id owner : Text) (now : Int) (next : State)
  | intent (key : Key) (attempt owner : Text) (now : Int) (id : Text) (effect : Effect)
  | reconcile (key : Key) (intent : Text) (generation : Nat) (observation : Observation)
  | retry (key : Key) (attempt owner : Text) (now : Int) (intent : Text)
  deriving DecidableEq

namespace Op

/-- The key an operation is about. -/
def key : Op → Key
  | .observeHead key => key
  | .start key _ _ => key
  | .renew key _ _ _ _ => key
  | .verdict key _ _ _ _ => key
  | .transition key _ _ _ _ => key
  | .intent key _ _ _ _ _ => key
  | .reconcile key _ _ _ => key
  | .retry key _ _ _ _ => key

end Op

/-- One operation: the new store, or an error and no change. -/
def Store.apply (s : Store) : Op → Except Error Store
  | .observeHead key => s.observeHead key
  | .start key attempt now => s.start key attempt now
  | .renew key id owner now lease => s.update key fun r => r.renew id owner now lease
  | .verdict key id owner now verdict => s.update key fun r => r.giveVerdict id owner now verdict
  | .transition key id owner now next => s.update key fun r => r.transition id owner now next
  | .intent key attempt owner now id effect => s.intent key attempt owner now id effect
  | .reconcile key intent generation observation =>
    s.update key fun r => r.reconcile intent generation observation
  | .retry key attempt owner now intent => s.update key fun r => r.retry attempt owner now intent

/-! ### What an operation does to one key -/

/-- What the store says about one key: its record and the identifiers that are remembered. -/
structure Cell where
  row : Option Record
  used : IdKind → Text → Prop

/-- The cell of a key. -/
def Store.cell (s : Store) (key : Key) : Cell := ⟨s.row key, fun kind id => (key, kind, id) ∈ s.ids⟩

/-- The worker holds the live lease of the current attempt of a record that is not cancelled. -/
structure Record.Leased (r : Record) (id owner : Text) (now : Int) : Prop where
  active : r.cancelled = false
  lease : ∃ a, r.attempt = some a ∧ a.id = id ∧ a.leaseOwner = owner ∧ now < a.leaseUntil

/-- The intent after an observation of its effect. -/
def Intent.observe (i : Intent) : Observation → Intent
  | .unknown => { i with retryable := false }
  | .absent => { i with retryable := true }
  | .found receipt => { i with receipt := some receipt, retryable := false }

/-- The state of a record after an observation of one of its effects. -/
def Record.observe (r : Record) (i : Intent) : Observation → State
  | .found _ => r.landedBy i
  | _ => r.state

/-- What an accepted operation does to the cell of a key, so that runs are followed cell by cell.
Of other keys' operations only the observation of another head reaches it. -/
inductive Change (key : Key) : Op → Cell → Cell → Prop
  /-- An operation on another key, or the observation of a head that is current. -/
  | same {op : Op} {c : Cell} (idle : op.key ≠ key ∨ op = .observeHead key) : Change key op c c
  | cancelled {other : Key} {r : Record} {used : IdKind → Text → Prop}
      (head : Store.otherHead other r = true) :
      Change key (.observeHead other) ⟨some r, used⟩ ⟨some { r with cancelled := true }, used⟩
  | created {used : IdKind → Text → Prop} :
      Change key (.observeHead key) ⟨none, used⟩ ⟨some (.fresh key), used⟩
  | returned {r : Record} {used : IdKind → Text → Prop} (was : r.cancelled = true) :
      Change key (.observeHead key) ⟨some r, used⟩
        ⟨some r.returned, fun kind id => (kind, id) ∈ r.archive.remembered ∨ used kind id⟩
  | started {r : Record} {used : IdKind → Text → Prop} {attempt : Attempt} {now : Int}
      (state : r.state = .needsReview) (idle : r.attempt = none)
      (unused : ¬ used .attempt attempt.id)
      (new : ∀ h ∈ r.history, ∀ a ∈ h.attempt, a.id ≠ attempt.id) :
      Change key (.start key attempt now) ⟨some r, used⟩
        ⟨some { r with attempt := some attempt, state := .reviewing }, used⟩
  | renewed {r : Record} {used : IdKind → Text → Prop} {a : Attempt} {owner : Text}
      {now lease : Int} (attempt : r.attempt = some a) :
      Change key (.renew key a.id owner now lease) ⟨some r, used⟩
        ⟨some { r with attempt := some { a with leaseOwner := owner, leaseUntil := lease } }, used⟩
  | judged {r : Record} {used : IdKind → Text → Prop} {id owner verdict : Text} {now : Int}
      (state : r.state = .reviewing) :
      Change key (.verdict key id owner now verdict) ⟨some r, used⟩
        ⟨some { r with verdict := some verdict, state := .verdict }, used⟩
  | moved {r : Record} {used : IdKind → Text → Prop} {id owner : Text} {now : Int} {next : State}
      (permitted : Record.permitted r.state next = true)
      (published : next = .awaitingChecks → r.published = true) :
      Change key (.transition key id owner now next) ⟨some r, used⟩
        ⟨some { r with state := next }, used⟩
  | intended {r : Record} {used : IdKind → Text → Prop} {attempt owner id : Text} {now : Int}
      {effect : Effect} (leased : r.Leased attempt owner now)
      (state : r.state = Record.readyFor effect) (unused : ¬ used .intent id)
      (new : id ∉ r.pending.map (·.id)) :
      Change key (.intent key attempt owner now id effect) ⟨some r, used⟩
        ⟨some { r with
          intents := r.intents ++ [⟨id, effect, none, false, 0⟩]
          state := if effect = .merge then .landing else r.state }, used⟩
  /-- The observation of an effect that has its receipt changes nothing. -/
  | settled {r : Record} {used : IdKind → Text → Prop} {i : Intent} {observation : Observation}
      (found : Keyed.find (·.id) i.id r.pending = some i) (receipt : i.receipt.isSome = true) :
      Change key (.reconcile key i.id i.generation observation) ⟨some r, used⟩ ⟨some r, used⟩
  | recorded {r : Record} {used : IdKind → Text → Prop} {i : Intent} {observation : Observation}
      (found : Keyed.find (·.id) i.id r.pending = some i) (receipt : i.receipt = none) :
      Change key (.reconcile key i.id i.generation observation) ⟨some r, used⟩
        ⟨some { r.put (i.observe observation) with state := r.observe i observation }, used⟩
  | retried {r : Record} {used : IdKind → Text → Prop} {attempt owner : Text} {now : Int}
      {i : Intent} (leased : r.Leased attempt owner now) (state : r.state ≠ .landed)
      (found : Keyed.find (·.id) i.id r.intents = some i) (retryable : i.retryable = true)
      (receipt : i.receipt = none) :
      Change key (.retry key attempt owner now i.id) ⟨some r, used⟩
        ⟨some (r.put { i with generation := i.generation + 1, retryable := false }), used⟩

/-- The record is changed as the operation changes the cell of its key. -/
def Record.ChangedBy (op : Op) (used : IdKind → Text → Prop) (r r' : Record) : Prop :=
  r'.key = r.key ∧ Change op.key op ⟨some r, used⟩ ⟨some r', used⟩

variable {id : Text}

namespace Record

variable {key : Key} {r r' : Record} {used : IdKind → Text → Prop}

variable {owner : Text} {now : Int}

lemma leased_of_ok (h : r.leased id owner now = .ok ()) : r.Leased id owner now := by
  unfold leased at h
  split at h
  · cases h
  next active =>
    split at h
    next a attempt =>
      split at h
      next held =>
        exact ⟨by simpa using active, a, attempt, held⟩
      · cases h
    · cases h

lemma start_change {attempt : Attempt} (h : r.start attempt now = .ok r')
    (unused : ¬ used .attempt attempt.id) : ChangedBy (.start key attempt now) used r r' := by
  unfold start at h
  split at h
  · cases h
  next ready =>
    split at h
    · cases h
    · cases h
      simp only [not_or, ne_eq, not_not, Bool.not_eq_true, isSome_eq_false_iff,
        isNone_iff_eq_none, List.any_eq_false] at ready
      obtain ⟨-, state, idle, new⟩ := ready
      refine ⟨rfl, .started state idle unused fun h mem a attempt eq => ?_⟩
      have apart := new h mem
      rw [mem_def.1 attempt] at apart
      simp [eq] at apart

lemma renew_change {lease : Int} (h : r.renew id owner now lease = .ok r') :
    ChangedBy (.renew key id owner now lease) used r r' := by
  unfold renew at h
  split at h
  · cases h
  · split at h
    · cases h
    next a attempt =>
      split at h
      · cases h
      next held =>
        cases h
        simp only [not_or, not_not] at held
        obtain ⟨rfl, -⟩ := held
        exact ⟨rfl, .renewed attempt⟩

lemma giveVerdict_change {verdict : Text} (h : r.giveVerdict id owner now verdict = .ok r') :
    ChangedBy (.verdict key id owner now verdict) used r r' := by
  obtain ⟨⟨⟩, -, h⟩ := bind_eq_ok.1 h
  split at h
  · cases h
  next ready =>
    cases h
    simp only [not_or, not_not] at ready
    exact ⟨rfl, .judged ready.1⟩

lemma transition_change {next : State} (h : r.transition id owner now next = .ok r') :
    ChangedBy (.transition key id owner now next) used r r' := by
  obtain ⟨⟨⟩, -, h⟩ := bind_eq_ok.1 h
  split at h
  · cases h
  next allowed =>
    split at h
    · cases h
    next checked =>
      cases h
      refine ⟨rfl, .moved (by simpa using allowed) fun eq => ?_⟩
      simpa [eq] using checked

lemma intend_change {attempt : Text} {effect : Effect}
    (h : r.intend attempt owner now id effect = .ok r') (unused : ¬ used .intent id) :
    ChangedBy (.intent key attempt owner now id effect) used r r' := by
  obtain ⟨⟨⟩, held, h⟩ := bind_eq_ok.1 h
  split at h
  · cases h
  next ready =>
    cases h
    simp only [not_or, ne_eq, not_not, Bool.not_eq_true, List.any_eq_false] at ready
    obtain ⟨state, -, current, archived⟩ := ready
    refine ⟨rfl, .intended (leased_of_ok held) state unused fun mem => ?_⟩
    obtain ⟨i, within, rfl⟩ := List.mem_map.1 mem
    rcases mem_append.1 within with now | old
    · simpa using current i now
    · simpa using archived i old

@[simp] lemma put_key (new : Intent) : (r.put new).key = r.key := by
  unfold put
  split <;> rfl

lemma put_state (new : Intent) : { r.put new with state := r.state } = r.put new := by
  unfold put
  split <;> rfl

lemma reconcile_change {intent : Text} {generation : Nat} {observation : Observation}
    (h : r.reconcile intent generation observation = .ok r') :
    ChangedBy (.reconcile key intent generation observation) used r r' := by
  unfold reconcile at h
  split at h
  · cases h
  next i found =>
    obtain rfl := key_of_find found
    split at h
    · cases h
    next current =>
      obtain rfl := not_not.1 current
      split at h
      next receipt =>
        cases h
        exact ⟨rfl, .settled found receipt⟩
      next receipt =>
        have change := @Change.recorded key r used i observation found (by simpa using receipt)
        split at h
        · cases h
          simp only [Intent.observe, observe, put_state] at change
          exact ⟨put_key _, change⟩
        · cases h
          simp only [Intent.observe, observe, put_state] at change
          exact ⟨put_key _, change⟩
        · split at h
          · cases h
          · cases h
            exact ⟨put_key _, change⟩

lemma retry_change {attempt intent : Text} (h : r.retry attempt owner now intent = .ok r') :
    ChangedBy (.retry key attempt owner now intent) used r r' := by
  obtain ⟨⟨⟩, held, rest⟩ := bind_eq_ok.1 h
  split at rest
  · cases rest
  next active =>
    split at rest
    · cases rest
    next i found =>
      obtain rfl := key_of_find found
      split at rest
      · cases rest
      next retryable =>
        split at rest
        · cases rest
          simp only [not_or, Bool.not_eq_true, Bool.not_eq_false, isSome_eq_false_iff,
            isNone_iff_eq_none] at active retryable
          exact ⟨put_key _, .retried (leased_of_ok held) active.2 found retryable.1 retryable.2⟩
        · cases rest

end Record

namespace Store

variable {s next : Store} {key : Key}

lemma row_key {r : Record} (found : s.row key = some r) : r.key = key := key_of_find found

lemma row_of_getFrom {r : Record} (h : s.getFrom key = .ok r) : s.row key = some r := by
  unfold getFrom at h
  split at h
  · cases h
  next found =>
    split at h
    · cases h
    · cases h
      exact found

lemma cell_save_self {r r' : Record} (found : s.row key = some r) (same : r'.key = key) :
    (s.save r').cell key = ⟨some r', (s.cell key).used⟩ := by
  subst same
  simp only [cell, row, save, find_update_self found]

lemma cell_save_other {r' : Record} (other : key ≠ r'.key) : (s.save r').cell key = s.cell key := by
  simp only [cell, row, save, find_update_other other]

/-- A saved record changes the cell of its key only. -/
lemma change_of_save {op : Op} {r r' : Record} (found : s.row op.key = some r)
    (changed : r.ChangedBy op (s.cell op.key).used r') :
    Change key op (s.cell key) ((s.save r').cell key) := by
  obtain ⟨same, change⟩ := changed
  rw [row_key found] at same
  by_cases about : op.key = key
  · subst about
    rw [cell_save_self found same]
    have start : s.cell op.key = ⟨some r, (s.cell op.key).used⟩ := by rw [cell, found]
    rw [start]
    exact change
  · rw [cell_save_other (by rw [same]; exact Ne.symm about)]
    exact .same (.inl about)

/-- An update changes the cell of its key as the function changes the record. -/
lemma change_of_update {op : Op} {f : Record → Except Error Record}
    (h : s.update op.key f = .ok next)
    (does : ∀ {r r'}, f r = .ok r' → r.ChangedBy op (s.cell op.key).used r') :
    Change key op (s.cell key) (next.cell key) := by
  obtain ⟨r, read, h⟩ := bind_eq_ok.1 h
  obtain ⟨r', changed, h⟩ := bind_eq_ok.1 h
  cases h
  exact change_of_save (row_of_getFrom read) (does changed)

lemma unused_of_ok {kind : IdKind} (h : s.checkUnused key kind id = .ok ()) :
    ¬ (s.cell key).used kind id := by
  unfold checkUnused at h
  split at h
  · cases h
  next unused =>
    simpa [usedId, cell] using unused

end Store

namespace Store

variable {s next : Store} {key : Key}

/-- The record of a key after the other heads of a pull request have been cancelled. -/
lemma row_cancelOthers {observed : Key} (h : s.cancelOthers observed = .ok next) :
    next.ids = s.ids ∧ next.row key = (s.row key).map fun r =>
      if otherHead observed r then { r with cancelled := true } else r := by
  unfold cancelOthers at h
  split at h
  · cases h
  · cases h
    refine ⟨rfl, find_map (fun r => ?_) key s.work⟩
    split <;> rfl

lemma row_insertFresh (observed : Key) :
    (s.insertFresh observed).row key =
      (s.row key).or (if observed = key then some (.fresh observed) else none) :=
  find_insertNew key (Record.fresh observed) s.work

lemma otherHead_false {r : Record} (same : r.key = key) : otherHead key r = false := by
  simp [otherHead, same]

/-- The observation of a head, for a key other than the observed one. -/
lemma cell_bringBack_other {r : Record} (other : key ≠ r.key) :
    (s.bringBack r).cell key = s.cell key := by
  unfold bringBack
  split
  · rw [@cell_save_other _ key r.returned other]
    have apart : ∀ kind id,
        (key, kind, id) ∈ (s.rememberIds r.archive).ids ↔ (key, kind, id) ∈ s.ids := by
      intro kind id
      simp only [rememberIds, mem_union_iff, List.mem_map, Prod.mk.injEq]
      constructor
      · rintro (⟨_, _, eq, _⟩ | kept)
        · exact absurd eq.symm other
        · exact kept
      · exact Or.inr
    simp only [cell, apart]
    rfl
  · rfl

lemma cell_bringBack_self {r : Record} (found : s.row r.key = some r) (was : r.cancelled = true) :
    (s.bringBack r).cell r.key = ⟨some r.returned,
      fun kind id => (kind, id) ∈ r.archive.remembered ∨ (s.cell r.key).used kind id⟩ := by
  have found' : (s.rememberIds r.archive).row r.key = some r := found
  rw [bringBack, if_pos was, @cell_save_self _ _ r r.returned found' rfl]
  congr 1
  funext kind id
  simp [cell, rememberIds, Record.archive]

end Store

variable {observed : Key}

/-- The cell of a key after the cancellation of other heads and the insertion of the observed one. -/
lemma cell_observed {s middle : Store}
    (cancels : s.cancelOthers observed = .ok middle) (key : Key) :
    (middle.insertFresh observed).cell key =
      ⟨((s.row key).map fun r => if Store.otherHead observed r then { r with cancelled := true }
        else r).or (if observed = key then some (.fresh observed) else none),
        (s.cell key).used⟩ := by
  obtain ⟨ids, row⟩ := @Store.row_cancelOthers s middle key observed cancels
  rw [← row, ← Store.row_insertFresh]
  simp only [Store.cell, Store.insertFresh, ids]

/-- The observation of a head, for its own key: the record is created, kept or returned. -/
lemma change_observed {s middle : Store} {r : Record}
    (cancels : s.cancelOthers observed = .ok middle)
    (found : (middle.insertFresh observed).row observed = some r) :
    Change observed (.observeHead observed) (s.cell observed)
      (((middle.insertFresh observed).bringBack r).cell observed) := by
  have cell := cell_observed cancels observed
  have same := Store.row_key found
  rw [if_pos rfl] at cell
  cases held : s.row observed with
  | none =>
    -- no record of the key: the fresh one is inserted, and it is not cancelled
    rw [held, map_none, none_or] at cell
    have new : r = .fresh observed := by
      have eq := congrArg Cell.row cell
      rw [Store.cell, found] at eq
      exact some.inj eq
    have start : s.cell observed = ⟨none, (s.cell observed).used⟩ := by rw [Store.cell, held]
    rw [Store.bringBack, if_neg (by simp [new, Record.fresh]), cell, start]
    exact .created
  | some old =>
    -- the record of the key is the one read, since its head is the one observed
    rw [held, map_some, Store.otherHead_false (Store.row_key held), some_or] at cell
    have start : s.cell observed = ⟨some old, (s.cell observed).used⟩ := by rw [Store.cell, held]
    obtain rfl : r = old := by
      have eq := congrArg Cell.row cell
      rw [Store.cell, found] at eq
      exact some.inj eq
    by_cases was : r.cancelled = true
    · have back := Store.cell_bringBack_self (same.symm ▸ found) was
      rw [same, cell] at back
      rw [back, start]
      exact .returned was
    · rw [Store.bringBack, if_neg was, cell, start]
      exact .same (.inr rfl)

/-- The observation of a head, for every key: work on another head of its pull request is
cancelled; everything else but the observed key stays. -/
lemma change_of_observeHead {s next : Store} (h : s.observeHead observed = .ok next) (key : Key) :
    Change key (.observeHead observed) (s.cell key) (next.cell key) := by
  obtain ⟨_, cancels, h⟩ := bind_eq_ok.1 h
  obtain ⟨r, read, h⟩ := bind_eq_ok.1 h
  cases h
  have found := Store.row_of_getFrom read
  by_cases about : observed = key
  · subst about
    exact change_observed cancels found
  · have other : key ≠ r.key := by
      rw [Store.row_key found]
      exact Ne.symm about
    rw [Store.cell_bringBack_other other, cell_observed cancels key, if_neg about, or_none]
    cases held : s.row key with
    | none =>
      rw [map_none, ← held]
      exact .same (.inl about)
    | some old =>
      have start : s.cell key = ⟨some old, (s.cell key).used⟩ := by rw [Store.cell, held]
      rw [map_some, start]
      split
      next head =>
        exact .cancelled head
      · exact .same (.inl about)

/-- **Every accepted operation changes the cell of every key in one of the ways listed.** -/
theorem change_of_apply {s next : Store} {op : Op} (h : s.apply op = .ok next) (key : Key) :
    Change key op (s.cell key) (next.cell key) := by
  cases op with
  | observeHead => exact change_of_observeHead h key
  | start about attempt now =>
    obtain ⟨⟨⟩, -, h⟩ := bind_eq_ok.1 h
    obtain ⟨r, read, h⟩ := bind_eq_ok.1 h
    obtain ⟨⟨⟩, unused, h⟩ := bind_eq_ok.1 h
    obtain ⟨r', changed, h⟩ := bind_eq_ok.1 h
    cases h
    exact Store.change_of_save (Store.row_of_getFrom read)
      (Record.start_change changed (Store.unused_of_ok unused))
  | renew => exact Store.change_of_update h Record.renew_change
  | verdict => exact Store.change_of_update h Record.giveVerdict_change
  | transition => exact Store.change_of_update h Record.transition_change
  | intent about attempt owner now id effect =>
    obtain ⟨⟨⟩, unused, h⟩ := bind_eq_ok.1 h
    refine Store.change_of_update h fun changed => ?_
    exact Record.intend_change changed (Store.unused_of_ok unused)
  | reconcile => exact Store.change_of_update h Record.reconcile_change
  | retry => exact Store.change_of_update h Record.retry_change

end Provenant.Reconciler

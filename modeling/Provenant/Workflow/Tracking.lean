import Mathlib.Data.List.Flatten
import Mathlib.Data.List.Induction
import Provenant.Workflow.Reconciler

/-!
# What the work store keeps track of

A worker may perform an external effect, the publication of a verdict or a merge, when the work
store accepted the intent for it or a retry of that intent: these acceptances are the *grants*. The
store keeps for each intent a generation, a flag that permits a retry, and the receipt of the
remote. This file has the invariant of every run: each stored intent says how often it was granted
and what was observed since, identifiers stay known once they were used, and the intents of a record
were granted to its attempt.

## Main definitions

* `Reconciler.Run` — the accepted operations of a run, with the store they lead to.
* `Reconciler.Op.grants` — the operation grants permission for an effect.
* `Reconciler.Tracked` — what a stored intent says about the run.
* `Reconciler.Sound` — the invariant, for one key.

## Main results

* `Reconciler.Change.known` — an identifier that was used stays known.
* `Reconciler.Change.sound` — every accepted operation keeps the invariant.
* `Reconciler.sound_of_run` — it holds in every run.

## Implementation notes

An operation that is not accepted is rolled back, so a run is given by its accepted operations.
-/

namespace Provenant.Reconciler

open Json List Record Cell Keyed

/-! ### Intents after a replacement -/

variable {id : Text} {r : Record} {kind : IdKind} {log : List Op}

namespace Record

variable {new : Intent}

lemma intents_put (r : Record) (new : Intent) :
    (r.put new).intents = Keyed.replaceFirst (·.id) new r.intents := by
  unfold put
  split
  · rfl
  next absent =>
    exact (replaceFirst_of_notMem absent).symm

lemma flatMap_replaceArchived (new : Intent) (history : List History) :
    (replaceArchived new history).flatMap (·.intents) =
      Keyed.replaceFirst (·.id) new (history.flatMap (·.intents)) := by
  induction history with
  | nil => rfl
  | cons h rest ih =>
    rw [replaceArchived]
    split
    next present =>
      rw [flatMap_cons, flatMap_cons, replaceFirst_append_of_mem present]
    next absent =>
      rw [flatMap_cons, flatMap_cons, replaceFirst_append_of_notMem absent, ih]

/-- All intents after a replacement, wherever the replaced one was. -/
lemma pending_put (r : Record) (new : Intent) :
    (r.put new).pending = Keyed.replaceFirst (·.id) new r.pending := by
  unfold put
  split
  next present =>
    exact (replaceFirst_append_of_mem present _).symm
  next absent =>
    rw [pending, pending, replaceFirst_append_of_notMem absent, ← flatMap_replaceArchived]

lemma map_attempt_replaceArchived (new : Intent) (history : List History) :
    (replaceArchived new history).map (·.attempt) = history.map (·.attempt) := by
  induction history with
  | nil => rfl
  | cons _ _ ih =>
    rw [replaceArchived]
    split
    · rfl
    · rw [map_cons, map_cons, ih]

@[simp] lemma put_attempt (r : Record) (new : Intent) : (r.put new).attempt = r.attempt := by
  unfold put
  split <;> rfl

@[simp] lemma put_history_attempts (r : Record) (new : Intent) :
    (r.put new).history.map (·.attempt) = r.history.map (·.attempt) := by
  unfold put
  split
  · rfl
  · exact map_attempt_replaceArchived new r.history

/-! ### Identifiers -/

/-- The attempts of a record, archived or current. -/
def attempts (r : Record) : List (Option Attempt) := r.history.map (·.attempt) ++ [r.attempt]

lemma mem_remembered_attempt :
    (IdKind.attempt, id) ∈ r.archive.remembered ↔ ∃ a, some a ∈ r.attempts ∧ a.id = id := by
  simp only [remembered, archive, historyIds, attempts, mem_flatMap, mem_append,
    mem_map, mem_singleton, Option.mem_toList, Prod.mk.injEq, reduceCtorEq, false_and,
    true_and, and_false, exists_false, or_false]
  constructor
  · rintro ⟨h, mem | rfl, a, attempt, rfl⟩
    · exact ⟨a, .inl ⟨h, mem, attempt⟩, rfl⟩
    · exact ⟨a, .inr (Option.mem_def.1 attempt).symm, rfl⟩
  · rintro ⟨a, ⟨h, mem, attempt⟩ | attempt, rfl⟩
    · exact ⟨h, .inl mem, a, attempt, rfl⟩
    · exact ⟨_, .inr rfl, a, attempt.symm, rfl⟩

lemma mem_remembered_intent :
    (IdKind.intent, id) ∈ r.archive.remembered ↔ id ∈ r.pending.map (·.id) := by
  simp only [remembered, archive, historyIds, pending, mem_flatMap, mem_append,
    mem_map, mem_singleton, Option.mem_toList, Prod.mk.injEq, reduceCtorEq, false_and,
    true_and, and_false, exists_false, false_or]
  constructor
  · rintro ⟨h, mem | rfl, i, intent, rfl⟩
    · exact ⟨i, .inr ⟨h, mem, intent⟩, rfl⟩
    · exact ⟨i, .inl intent, rfl⟩
  · rintro ⟨i, intent | ⟨h, mem, intent⟩, rfl⟩
    · exact ⟨_, .inr rfl, i, intent, rfl⟩
    · exact ⟨h, .inl mem, i, intent, rfl⟩

end Record

/-- The identifier is in use for the key, or was. -/
def Cell.Known (c : Cell) (kind : IdKind) (id : Text) : Prop :=
  c.used kind id ∨ ∃ r, c.row = some r ∧ (kind, id) ∈ r.archive.remembered

variable {used : IdKind → Text → Prop} {attempt owner : Text} {now : Int} {s : Store}

lemma Cell.known_some :
    Cell.Known ⟨some r, used⟩ kind id ↔ used kind id ∨ (kind, id) ∈ r.archive.remembered := by
  simp [Known]

lemma Cell.known_none : Cell.Known ⟨none, used⟩ kind id ↔ used kind id := by
  simp [Known]

namespace Record

/-- Identifiers stay in use when attempts keep theirs and intents are only added. -/
lemma remembered_mono {r' : Record}
    (attempts : ∀ a, some a ∈ r.attempts → ∃ a', some a' ∈ r'.attempts ∧ a'.id = a.id)
    (intents : r.pending.map (·.id) ⊆ r'.pending.map (·.id))
    (mem : (kind, id) ∈ r.archive.remembered) : (kind, id) ∈ r'.archive.remembered := by
  cases kind with
  | attempt =>
    obtain ⟨a, held, rfl⟩ := mem_remembered_attempt.1 mem
    exact mem_remembered_attempt.2 (attempts a held)
  | intent => exact mem_remembered_intent.2 (intents (mem_remembered_intent.1 mem))

lemma map_id_pending_put (r : Record) (new : Intent) :
    (r.put new).pending.map (·.id) = r.pending.map (·.id) := by
  rw [pending_put, map_key_replaceFirst]

lemma attempts_put (r : Record) (new : Intent) : (r.put new).attempts = r.attempts := by
  rw [attempts, attempts, put_history_attempts, put_attempt]

lemma remembered_put {new : Intent} {state : State} (mem : (kind, id) ∈ r.archive.remembered) :
    (kind, id) ∈ { r.put new with state := state }.archive.remembered := by
  refine remembered_mono (fun a held => ⟨a, ?_, rfl⟩) ?_ mem
  · change some a ∈ (r.put new).attempts
    rwa [attempts_put]
  · change _ ⊆ (r.put new).pending.map (·.id)
    rw [map_id_pending_put]
    exact List.Subset.refl _

lemma remembered_put_kept {new : Intent} (mem : (kind, id) ∈ r.archive.remembered) :
    (kind, id) ∈ (r.put new).archive.remembered := by
  exact remembered_put mem

end Record

/-- A record whose identifiers stay in use keeps what is known about its key. -/
lemma Cell.Known.of_row {r' : Record} (known : Cell.Known ⟨some r, used⟩ kind id)
    (mono : (kind, id) ∈ r.archive.remembered → (kind, id) ∈ r'.archive.remembered) :
    Cell.Known ⟨some r', used⟩ kind id := by
  exact known_some.2 ((known_some.1 known).imp_right mono)

section Changes

variable {key : Key} {op : Op} {c c' : Cell}

/-- **An identifier that is known stays known**, also when its history is dropped. -/
lemma Change.known (change : Change key op c c') (known : c.Known kind id) : c'.Known kind id := by
  cases change with
  | same | settled => exact known
  | cancelled | judged | moved =>
    exact known.of_row
      (remembered_mono (fun a held => ⟨a, held, rfl⟩) (List.Subset.refl _))
  | created =>
    exact .inl (known_none.1 known)
  | returned =>
    exact .inl (known_some.1 known).symm
  | started _ idle =>
    refine known.of_row (remembered_mono (fun a held => ⟨a, ?_, rfl⟩) (List.Subset.refl _))
    rw [Record.attempts, idle] at held
    simp only [Record.attempts, mem_append, mem_singleton, reduceCtorEq, or_false] at held ⊢
    exact .inl held
  | @renewed r _ a owner _ lease attempt =>
    refine known.of_row (remembered_mono (fun a' held => ?_) (List.Subset.refl _))
    rcases mem_append.1 held with old | now
    · exact ⟨a', mem_append_left _ old, rfl⟩
    · rw [attempt, mem_singleton, Option.some.injEq] at now
      subst now
      exact ⟨_, mem_append_right _ (mem_singleton_self _), rfl⟩
  | intended =>
    refine known.of_row (remembered_mono (fun a held => ⟨a, held, rfl⟩) fun other mem => ?_)
    simp only [Record.pending, map_append, mem_append] at mem ⊢
    rcases mem with now | old
    · exact .inl (.inl now)
    · exact .inr old
  | recorded => exact known.of_row remembered_put
  | retried => exact known.of_row remembered_put_kept

/-- An accepted attempt was new, and is known from then on. -/
lemma Change.start_new {attempt : Attempt} (change : Change key (.start key attempt now) c c') :
    ¬ c.Known .attempt attempt.id ∧ c'.Known .attempt attempt.id := by
  cases change with
  | same idle => simp [Op.key] at idle
  | @started r _ _ _ state idle unused new =>
    constructor
    · intro known
      rcases known_some.1 known with used | mem
      · exact unused used
      · obtain ⟨a, held, same⟩ := mem_remembered_attempt.1 mem
        rw [Record.attempts, idle] at held
        simp only [mem_append, mem_map, mem_singleton, reduceCtorEq, or_false] at held
        obtain ⟨h, mem, attempt⟩ := held
        exact new h mem a attempt same
    · exact .inr ⟨_, rfl, mem_remembered_attempt.2
        ⟨attempt, mem_append_right _ (mem_singleton_self _), rfl⟩⟩

/-- An accepted intent was new, and is known from then on. -/
lemma Change.intent_new {effect : Effect}
    (change : Change key (.intent key attempt owner now id effect) c c') :
    ¬ c.Known .intent id ∧ c'.Known .intent id := by
  cases change with
  | same idle => simp [Op.key] at idle
  | intended _ _ unused new =>
    constructor
    · intro known
      rcases known_some.1 known with used | mem
      · exact unused used
      · exact new (mem_remembered_intent.1 mem)
    · refine .inr ⟨_, rfl, mem_remembered_intent.2 ?_⟩
      simp [Record.pending]

end Changes

/-! ### Runs and grants -/

/-- The accepted operations of a run and the store they lead to, from a new database. -/
inductive Run : List Op → Store → Prop
  | nil : Run [] .empty
  | snoc {log : List Op} {s next : Store} {op : Op} (run : Run log s)
      (accepts : s.apply op = .ok next) : Run (log ++ [op]) next

lemma Run.last {op : Op} {next : Store} (run : Run (log ++ [op]) next) :
    ∃ s, Run log s ∧ s.apply op = .ok next := by
  generalize eq : log ++ [op] = whole at run
  cases run with
  | nil => simp at eq
  | @snoc log' s _ op' run accepts =>
    obtain ⟨rfl, same⟩ := append_inj' eq rfl
    cases same
    exact ⟨s, run, accepts⟩

lemma Run.front {more : List Op} (run : Run (log ++ more) s) : ∃ s', Run log s' := by
  induction more using reverseRecOn generalizing s with
  | nil => exact ⟨s, by simpa using run⟩
  | append_singleton _ _ ih =>
    rw [← append_assoc] at run
    obtain ⟨s', run, -⟩ := run.last
    exact ih run

/-- An operation of a run was accepted by the store that the operations before it lead to. -/
lemma Run.split {before later : List Op} {op : Op} (run : Run (before ++ op :: later) s) :
    ∃ a b, Run before a ∧ a.apply op = .ok b ∧ Run (before ++ [op]) b := by
  rw [append_cons] at run
  obtain ⟨b, run⟩ := run.front
  obtain ⟨a, start, accepts⟩ := run.last
  exact ⟨a, b, start, accepts, run⟩

/-- The operation grants permission for the effect of an intent. -/
def Op.grants (key : Key) (id : Text) : Op → Bool
  | .intent k _ _ _ i _ => k = key ∧ i = id
  | .retry k _ _ _ i => k = key ∧ i = id
  | _ => false

/-- The operation neither grants the effect of an intent nor observes it. -/
def Op.Quiet (key : Key) (id : Text) (op : Op) : Prop :=
  op.grants key id = false ∧ ∀ generation observation, op ≠ .reconcile key id generation observation

/-- The last observations of the effect were that it is absent in this generation, and it was not
granted since. -/
def AbsentSince (key : Key) (id : Text) (generation : Nat) (log : List Op) : Prop :=
  ∃ before after, log = before ++ .reconcile key id generation .absent :: after ∧
    ∀ op ∈ after, op.grants key id = false ∧
      ∀ generation observation, op = .reconcile key id generation observation →
        observation = .absent

/-- What a stored intent says about the run: how often it was granted, and, while it may be
retried, that its effect was last observed to be absent. -/
structure Tracked (key : Key) (log : List Op) (i : Intent) : Prop where
  count : log.countP (·.grants key i.id) = i.generation + 1
  absent : i.retryable = true → i.receipt = none → AbsentSince key i.id i.generation log

section Tracking

variable {key : Key} {op : Op} {i : Intent}

@[simp] lemma Op.grants_intent (attempt owner : Text) (now : Int) (effect : Effect) :
    (Op.intent key attempt owner now id effect).grants key id = true := by
  simp [grants]

@[simp] lemma Op.grants_retry (attempt owner : Text) (now : Int) :
    (Op.retry key attempt owner now id).grants key id = true := by
  simp [grants]

@[simp] lemma Op.grants_reconcile (about : Key) (intent : Text) (generation : Nat)
    (observation : Observation) :
    (Op.reconcile about intent generation observation).grants key id = false := rfl

lemma Op.quiet_of_key (other : op.key ≠ key) : op.Quiet key id := by
  constructor
  · cases op <;> simp_all [Op.grants, Op.key]
  · rintro generation observation rfl
    exact other rfl

lemma AbsentSince.snoc {generation : Nat} (absent : AbsentSince key id generation log)
    (quiet : op.Quiet key id) : AbsentSince key id generation (log ++ [op]) := by
  obtain ⟨before, after, rfl, since⟩ := absent
  refine ⟨before, after ++ [op], by simp, fun other mem => ?_⟩
  rcases mem_append.1 mem with old | new
  · exact since other old
  · obtain rfl := mem_singleton.1 new
    exact ⟨quiet.1, fun generation observation eq => absurd eq (quiet.2 generation observation)⟩

lemma Tracked.snoc (tracked : Tracked key log i) (quiet : op.Quiet key i.id) :
    Tracked key (log ++ [op]) i where
  count := by simpa [quiet.1] using tracked.count
  absent retryable receipt := (tracked.absent retryable receipt).snoc quiet

/-- An accepted intent is granted once so far. -/
lemma Tracked.new {effect : Effect} (never : ∀ op ∈ log, op.grants key id = false) :
    Tracked key (log ++ [.intent key attempt owner now id effect]) ⟨id, effect, none, false, 0⟩ where
  count := by
    have zero : log.countP (·.grants key id) = 0 := countP_eq_zero.2 (by simpa using never)
    rw [countP_append, zero]
    simp
  absent retryable := by cases retryable

/-- A recorded observation permits a retry if it is an absence, in the generation observed. -/
lemma Tracked.observed {observation : Observation} (tracked : Tracked key log i) :
    Tracked key (log ++ [.reconcile key i.id i.generation observation]) (i.observe observation) := by
  have count : (log ++ [Op.reconcile key i.id i.generation observation]).countP
      (·.grants key i.id) = i.generation + 1 := by
    simpa using tracked.count
  cases observation with
  | unknown | found => exact ⟨count, nofun⟩
  | absent => exact ⟨count, fun _ _ => ⟨log, [], rfl, nofun⟩⟩

/-- A retry is one more grant, in the next generation. -/
lemma Tracked.retried (tracked : Tracked key log i) :
    Tracked key (log ++ [.retry key attempt owner now i.id])
      { i with generation := i.generation + 1, retryable := false } where
  count := by simpa using tracked.count
  absent retryable := by cases retryable

end Tracking

/-! ### The invariant -/

namespace Record

variable {i j : Intent}

/-- The intents of a returned record are archived ones that were there. -/
lemma pending_returned (r : Record) :
    List.Sublist r.returned.pending (r.history.flatMap (·.intents) ++ r.intents) := by
  have whole : r.history.flatMap (·.intents) ++ r.intents =
      r.archive.history.flatMap (·.intents) := by
    simp [archive]
  rw [whole]
  exact List.Sublist.flatMap filter_sublist _

lemma mem_of_mem_returned (mem : i ∈ r.returned.pending) : i ∈ r.pending := by
  rcases mem_append.1 ((pending_returned r).subset mem) with old | now
  · exact mem_append_right _ old
  · exact mem_append_left _ now

section Distinct

variable (distinct : (r.pending.map (·.id)).Nodup)
include distinct

lemma distinct_returned : (r.returned.pending.map (·.id)).Nodup := by
  refine ((pending_returned r).map _).nodup ?_
  rw [map_append]
  rw [pending, map_append] at distinct
  exact nodup_append_comm.1 distinct

lemma eq_of_id (hi : i ∈ r.pending) (hj : j ∈ r.pending) (same : i.id = j.id) : i = j :=
  inj_on_of_nodup_map distinct hi hj same

/-- A current intent after a replacement comes from a current one with its identifier. -/
lemma origin_of_put {new : Intent} (mem : i ∈ r.pending) (id : new.id = i.id)
    (effect : new.effect = i.effect) (current : j ∈ (r.put new).intents) :
    ∃ k ∈ r.intents, k.id = j.id ∧ k.effect = j.effect := by
  rw [intents_put] at current
  have inner : (r.intents.map (·.id)).Nodup := by
    rw [pending, map_append] at distinct
    exact distinct.of_append_left
  rcases mem_replaceFirst inner current with rfl | ⟨kept, -⟩
  · have within : j.id ∈ r.intents.map (·.id) := by
      rw [← map_key_replaceFirst j r.intents]
      exact mem_map_of_mem current
    obtain ⟨k, held, same⟩ := mem_map.1 within
    have eq : k = i := eq_of_id distinct (mem_append_left _ held) mem (same.trans id)
    exact ⟨k, held, same, by rw [eq, effect]⟩
  · exact ⟨j, kept, rfl, rfl⟩

/-- A published verdict stays when an intent without a receipt is replaced. -/
lemma published_put {new : Intent} (mem : i ∈ r.pending) (id : new.id = i.id)
    (receipt : i.receipt = none) (published : r.published = true) :
    (r.put new).published = true := by
  obtain ⟨v, held, verdict⟩ := any_eq_true.1 published
  refine any_eq_true.2 ⟨v, ?_, verdict⟩
  rw [intents_put]
  refine mem_replaceFirst_of_ne held fun same => ?_
  have eq : v = i := eq_of_id distinct (mem_append_left _ held) mem (same.trans id)
  subst eq
  simp [receipt] at verdict

end Distinct

end Record

@[simp] lemma Intent.observe_id (i : Intent) (observation : Observation) :
    (i.observe observation).id = i.id := by
  cases observation <;> rfl

@[simp] lemma Intent.observe_effect (i : Intent) (observation : Observation) :
    (i.observe observation).effect = i.effect := by
  cases observation <;> rfl

/-- The states after the checks of a published verdict began. -/
def State.checked : State → Bool
  | .awaitingChecks => true
  | .landable => true
  | .landing => true
  | .landed => true
  | _ => false

/-- The record is past its verdict, or a merge was granted for it. -/
def Record.Advanced (r : Record) : Prop := r.state.checked = true ∨ ∃ i ∈ r.intents, i.effect = .merge

/-- **The invariant of a run**, for one key. -/
structure Sound (key : Key) (log : List Op) (c : Cell) : Prop where
  minted : ∀ op ∈ log, ∀ id, op.grants key id = true → c.Known .intent id
  begun : ∀ attempt now, .start key attempt now ∈ log → c.Known .attempt attempt.id
  distinct : ∀ r, c.row = some r → (r.pending.map (·.id)).Nodup
  tracked : ∀ r, c.row = some r → ∀ i ∈ r.pending, Tracked key log i
  published : ∀ r, c.row = some r → r.Advanced → r.published = true
  issued : ∀ r, c.row = some r → ∀ i ∈ r.intents, ∃ a owner now,
    r.attempt = some a ∧ .intent key a.id owner now i.id i.effect ∈ log

section Steps

variable {key : Key} {op : Op} {c c' : Cell}

lemma Cell.forall_some {holds : Record → Prop} (h : holds r) :
    ∀ r', (Cell.mk (some r) used).row = some r' → holds r' := by
  rintro _ ⟨⟩
  exact h

/-- The identifiers of the intents of a record stay distinct. -/
lemma Change.distinct (change : Change key op c c')
    (distinct : ∀ r, c.row = some r → (r.pending.map (·.id)).Nodup) :
    ∀ r, c'.row = some r → (r.pending.map (·.id)).Nodup := by
  cases change with
  | same | settled => exact distinct
  | @cancelled _ r | @started r | @renewed r | @judged r | @moved r =>
    exact forall_some (distinct r rfl)
  | created => exact forall_some nodup_nil
  | returned => exact forall_some (distinct_returned (distinct _ rfl))
  | @intended r _ _ _ id _ _ _ _ _ new =>
    refine forall_some ?_
    have old := distinct r rfl
    simp only [Record.pending, map_append, map_cons, map_nil, append_assoc] at old new ⊢
    exact nodup_middle.2 (nodup_cons.2 ⟨new, old⟩)
  | @recorded r _ i observation =>
    refine forall_some ?_
    have ids := map_id_pending_put r (i.observe observation)
    exact ids ▸ distinct r rfl
  | @retried r =>
    refine forall_some ?_
    rw [map_id_pending_put]
    exact distinct r rfl

lemma Op.quiet_of_idle (idle : op.key ≠ key ∨ op = .observeHead key) : op.Quiet key id := by
  rcases idle with other | rfl
  · exact Op.quiet_of_key other
  · exact ⟨rfl, fun _ _ => nofun⟩

/-- The intents of a record after a replacement are the new one and those with other identifiers. -/
lemma Record.mem_pending_put {new j : Intent} (distinct : (r.pending.map (·.id)).Nodup)
    (mem : j ∈ (r.put new).pending) : j = new ∨ j ∈ r.pending ∧ j.id ≠ new.id := by
  rw [pending_put] at mem
  exact mem_replaceFirst distinct mem

lemma Record.mem_intended {new j : Intent} {state : State}
    (mem : j ∈ { r with intents := r.intents ++ [new], state := state }.pending) :
    j ∈ r.pending ∨ j = new := by
  simp only [pending, mem_append, mem_singleton] at mem ⊢
  tauto

lemma Op.reconcile_quiet {intent : Text} {generation : Nat} {observation : Observation}
    (apart : id ≠ intent) : (Op.reconcile key intent generation observation).Quiet key id :=
  ⟨rfl, fun _ _ eq => apart (Op.reconcile.inj eq).2.1.symm⟩

/-- **Every intent keeps track of its grants and observations.**

**Proof sketch.** An operation that is quiet for an intent changes neither the intent nor what it
says. The others are about one identifier, and the record has one intent with it: the intent that
was added, observed or retried says what its operation did, and for all others the operation is
quiet. -/
lemma Change.tracked (change : Change key op c c') (sound : Sound key log c) :
    ∀ r, c'.row = some r → ∀ i ∈ r.pending, Tracked key (log ++ [op]) i := by
  cases change with
  | same idle => exact fun r row i mem => (sound.tracked r row i mem).snoc (Op.quiet_of_idle idle)
  | @cancelled _ r | @started r | @renewed r | @judged r | @moved r =>
    exact forall_some fun i mem => (sound.tracked r rfl i mem).snoc ⟨rfl, nofun⟩
  | created => exact forall_some nofun
  | @returned r =>
    exact forall_some fun i mem =>
      (sound.tracked r rfl i (mem_of_mem_returned mem)).snoc ⟨rfl, nofun⟩
  | @intended r used attempt owner id now effect leased state unused new =>
    have unknown := (@Change.intended key r used attempt owner id now effect leased state unused
      new).intent_new.1
    have never : ∀ op ∈ log, op.grants key id = false := by
      intro op mem
      by_contra granted
      exact unknown (sound.minted op mem id (by simpa using granted))
    refine forall_some fun i mem => ?_
    rcases mem_intended mem with old | rfl
    · have apart : id ≠ i.id := fun eq => new (eq ▸ mem_map_of_mem old)
      exact (sound.tracked r rfl i old).snoc ⟨by simp [Op.grants, apart], nofun⟩
    · exact Tracked.new never
  | @settled r used i observation found receipt =>
    refine forall_some fun j mem => ?_
    have before := sound.tracked r rfl j mem
    by_cases same : j.id = i.id
    · -- the observed intent has its receipt, so it will not be retried
      have eq := eq_of_id (sound.distinct r rfl) mem (mem_of_find found) same
      subst eq
      exact ⟨by simpa using before.count, fun _ none => by simp [none] at receipt⟩
    · exact before.snoc (Op.reconcile_quiet same)
  | @recorded r used i observation found receipt =>
    refine forall_some fun j mem => ?_
    rcases mem_pending_put (sound.distinct r rfl) mem with rfl | ⟨old, apart⟩
    · exact (sound.tracked r rfl i (mem_of_find found)).observed
    · rw [Intent.observe_id] at apart
      exact (sound.tracked r rfl j old).snoc (Op.reconcile_quiet apart)
  | @retried r used attempt owner now i leased state found retryable receipt =>
    refine forall_some fun j mem => ?_
    have held : i ∈ r.pending := mem_append_left _ (mem_of_find found)
    rcases mem_pending_put (sound.distinct r rfl) mem with rfl | ⟨old, apart⟩
    · exact (sound.tracked r rfl i held).retried
    · exact (sound.tracked r rfl j old).snoc ⟨by simp [Op.grants, Ne.symm apart], nofun⟩

variable {i : Intent}

/-- A merge among the intents after a replacement was one before. -/
lemma Record.merge_of_put {new : Intent} (distinct : (r.pending.map (·.id)).Nodup)
    (mem : i ∈ r.pending) (id : new.id = i.id) (effect : new.effect = i.effect)
    (merged : ∃ j ∈ (r.put new).intents, j.effect = .merge) :
    ∃ j ∈ r.intents, j.effect = .merge := by
  obtain ⟨j, current, merge⟩ := merged
  obtain ⟨k, held, -, same⟩ := origin_of_put distinct mem id effect current
  exact ⟨k, held, same.trans merge⟩

/-- A record that lands has its merge among its current intents. -/
lemma Record.merge_of_landedBy (distinct : (r.pending.map (·.id)).Nodup) (mem : i ∈ r.pending)
    (advanced : (r.landedBy i).checked = true) : r.Advanced := by
  unfold landedBy at advanced
  split at advanced
  next landed =>
    obtain ⟨j, held, same⟩ := mem_map.1 landed.1
    have eq : j = i := eq_of_id distinct (mem_append_left _ held) mem same
    exact .inr ⟨j, held, eq ▸ landed.2⟩
  · exact .inl advanced

/-- A transition to a state past the verdict starts past it or finds it published. -/
lemma Record.published_of_permitted {next : State}
    (permitted : Record.permitted r.state next = true) (checked : next.checked = true)
    (published : next = .awaitingChecks → r.published = true) :
    r.published = true ∨ r.state.checked = true := by
  cases next with
  | awaitingChecks => exact .inl (published rfl)
  | landable =>
    cases state : r.state with
    | awaitingChecks => exact .inr rfl
    | _ => simp [state, Record.permitted] at permitted
  | landing | landed => cases r.state <;> simp [Record.permitted] at permitted
  | _ => cases checked

/-- A record that goes past its verdict has published it. -/
lemma Change.published (change : Change key op c c') (sound : Sound key log c) :
    ∀ r, c'.row = some r → r.Advanced → r.published = true := by
  cases change with
  | same | settled => exact sound.published
  | @cancelled _ r | @renewed r => exact forall_some (sound.published r rfl)
  | created =>
    refine forall_some fun advanced => ?_
    simp [Record.Advanced, Record.fresh, State.checked] at advanced
  | returned =>
    refine forall_some fun advanced => ?_
    simp [Record.Advanced, Record.returned, Record.archive, State.checked] at advanced
  | @started r | @judged r =>
    refine forall_some ?_
    rintro (checked | merged)
    · cases checked
    · exact sound.published r rfl (.inr merged)
  | @moved r _ _ _ _ next permitted published =>
    refine forall_some ?_
    rintro (checked | merged)
    · rcases published_of_permitted permitted checked published with done | before
      · exact done
      · exact sound.published r rfl (.inl before)
    · exact sound.published r rfl (.inr merged)
  | @intended r used attempt owner id now effect leased state unused new =>
    refine forall_some fun advanced => ?_
    have before : r.Advanced := by
      cases effect with
      | merge => exact .inl (by rw [state]; rfl)
      | verdict =>
        rcases advanced with checked | ⟨i, mem, merge⟩
        · exact .inl checked
        · rcases mem_append.1 mem with old | new
          · exact .inr ⟨i, old, merge⟩
          · rw [mem_singleton.1 new] at merge
            cases merge
    have published := sound.published r rfl before
    simp only [Record.published, any_append, Bool.or_eq_true] at published ⊢
    exact .inl published
  | @recorded r used i observation found receipt =>
    have distinct := sound.distinct r rfl
    have mem := mem_of_find found
    refine forall_some fun advanced => ?_
    have before : r.Advanced := by
      rcases advanced with checked | merged
      · cases observation with
        | unknown | absent => exact .inl checked
        | found => exact merge_of_landedBy distinct mem checked
      · exact .inr (merge_of_put distinct mem (i.observe_id _) (i.observe_effect _) merged)
    exact published_put distinct mem (i.observe_id observation) receipt
      (sound.published r rfl before)
  | @retried r used attempt owner now i leased state found retryable receipt =>
    have distinct := sound.distinct r rfl
    have mem : i ∈ r.pending := mem_append_left _ (mem_of_find found)
    refine forall_some fun advanced => ?_
    have before : r.Advanced := by
      rcases advanced with checked | merged
      · rw [← put_state] at checked
        exact .inl checked
      · exact .inr (merge_of_put distinct mem (by rfl) (by rfl) merged)
    exact published_put distinct mem rfl receipt (sound.published r rfl before)

/-- The current intents of a record were granted to its attempt. -/
def Issued (key : Key) (log : List Op) (r : Record) : Prop :=
  ∀ i ∈ r.intents, ∃ a owner now,
    r.attempt = some a ∧ .intent key a.id owner now i.id i.effect ∈ log

lemma Issued.snoc (issued : Issued key log r) : Issued key (log ++ [op]) r := by
  intro i mem
  obtain ⟨a, owner, now, attempt, logged⟩ := issued i mem
  exact ⟨a, owner, now, attempt, mem_append_left _ logged⟩

lemma Issued.put {new : Intent} (issued : Issued key log r)
    (distinct : (r.pending.map (·.id)).Nodup) (mem : i ∈ r.pending) (id : new.id = i.id)
    (effect : new.effect = i.effect) : Issued key (log ++ [op]) (r.put new) := by
  intro j current
  obtain ⟨k, held, sameId, sameEffect⟩ := origin_of_put distinct mem id effect current
  obtain ⟨a, owner, now, _, logged⟩ := issued k held
  rw [sameId, sameEffect] at logged
  exact ⟨a, owner, now, by rwa [put_attempt], mem_append_left _ logged⟩

lemma Change.issued (change : Change key op c c') (sound : Sound key log c) :
    ∀ r, c'.row = some r → Issued key (log ++ [op]) r := by
  have issued : ∀ r, c.row = some r → Issued key (log ++ [op]) r :=
    fun r row => Issued.snoc (sound.issued r row)
  cases change with
  | same | settled => exact issued
  | @cancelled _ r | @judged r | @moved r => exact forall_some (issued r rfl)
  | created | returned => exact forall_some nofun
  | @started r _ _ _ _ idle =>
    -- without an attempt there is no current intent
    refine forall_some fun i mem => ?_
    obtain ⟨a, _, _, attempt, -⟩ := sound.issued r rfl i mem
    rw [idle] at attempt
    cases attempt
  | @renewed r _ a owner now lease attempt =>
    refine forall_some fun i mem => ?_
    obtain ⟨a', owner', now', attempt', logged⟩ := issued r rfl i mem
    cases attempt.symm.trans attempt'
    exact ⟨_, owner', now', rfl, logged⟩
  | @intended r used attempt owner id now effect leased =>
    refine forall_some fun i mem => ?_
    rcases mem_append.1 mem with old | new
    · exact issued r rfl i old
    · obtain rfl := mem_singleton.1 new
      obtain ⟨a, held, rfl, -⟩ := leased.lease
      exact ⟨a, owner, now, held, mem_append_right _ (mem_singleton_self _)⟩
  | @recorded r used i observation found =>
    exact forall_some (Issued.put (sound.issued r rfl) (sound.distinct r rfl)
      (mem_of_find found) (i.observe_id observation) (i.observe_effect observation))
  | @retried r used attempt owner now i leased state found =>
    exact forall_some (Issued.put (sound.issued r rfl) (sound.distinct r rfl)
      (mem_append_left _ (mem_of_find found)) rfl rfl)

/-- The identifier of a granted intent is known afterwards. -/
lemma Change.grant_known (change : Change key op c c') (grants : op.grants key id = true) :
    c'.Known .intent id := by
  cases change with
  | same idle => simp [(Op.quiet_of_idle idle).1] at grants
  | intended leased state unused new =>
    obtain rfl : _ = id := by simpa [Op.grants] using grants
    exact (Change.intended leased state unused new : Change key _ _ _).intent_new.2
  | @retried r _ _ _ _ i _ _ found =>
    obtain rfl : _ = id := by simpa [Op.grants] using grants
    have held : i ∈ r.pending := mem_append_left _ (mem_of_find found)
    refine known_some.2 (.inr (remembered_put_kept ?_))
    exact mem_remembered_intent.2 (mem_map_of_mem held)
  | _ => cases grants

/-- **Every change keeps the invariant.** -/
theorem Change.sound (change : Change key op c c') (sound : Sound key log c) :
    Sound key (log ++ [op]) c' where
  minted other mem id grants := by
    rcases mem_append.1 mem with old | new
    · exact change.known (sound.minted other old id grants)
    · obtain rfl := mem_singleton.1 new
      exact change.grant_known grants
  begun attempt now mem := by
    rcases mem_append.1 mem with old | new
    · exact change.known (sound.begun attempt now old)
    · obtain rfl := mem_singleton.1 new
      exact change.start_new.2
  distinct := change.distinct sound.distinct
  tracked := change.tracked sound
  published := change.published sound
  issued := change.issued sound

end Steps

/-- **The invariant holds in every run, for every key.** -/
theorem sound_of_run (run : Run log s) (key : Key) : Sound key log (s.cell key) := by
  induction run with
  | nil =>
    exact
      { minted := nofun
        begun := nofun
        distinct := nofun
        tracked := nofun
        published := nofun
        issued := nofun }
  | snoc _ accepts ih => exact (change_of_apply accepts key).sound ih

end Provenant.Reconciler

import Provenant.Workflow.Tracking

/-!
# Permission for external effects

What the work store keeps track of gives the rules about grants: an effect is granted once by its
intent and then only after it was observed to be absent, a receipt ends its grants and stays, every
grant needs the live lease of the current attempt, and a merge the published verdict of that
attempt. After the receipt of its merge a key is merged again only when its head returned.

## Main definitions

* `Reconciler.accepted` — the accepted operations of any sequence of operations.
* `Reconciler.PermissionRules` — the rules about grants.

## Main results

* `Reconciler.permission_rules` — the rules, over every sequence of operations.
* `Reconciler.landed_until_return` — after the receipt of a current merge, the next merge of the
  key is granted only after its record was cancelled by another head and its own head observed
  again.
* `Reconciler.merged_again` — a run in which this happens.
-/

namespace Provenant.Reconciler

open Json List Keyed

/-! ### Receipts -/

/-- The identifier is known, and every intent with it has the receipt. -/
structure Settled (id receipt : Text) (c : Cell) : Prop where
  known : c.Known .intent id
  receipts : ∀ r, c.row = some r → ∀ i ∈ r.pending, i.id = id → i.receipt = some receipt

section Receipts

variable {key : Key} {op : Op} {c c' : Cell} {id receipt : Text}

/-- An intent with a receipt is not granted again. -/
lemma Settled.not_granted (settled : Settled id receipt c) (change : Change key op c c') :
    op.grants key id = false := by
  by_contra granted
  have grants : op.grants key id = true := by simpa using granted
  cases change with
  | same idle => exact granted (Op.quiet_of_idle idle).1
  | intended leased state unused new =>
    obtain rfl : _ = id := by simpa [Op.grants] using grants
    exact (Change.intended leased state unused new : Change key _ _ _).intent_new.1 settled.known
  | @retried r _ _ _ _ i _ _ found _ none =>
    obtain rfl : _ = id := by simpa [Op.grants] using grants
    have held : i ∈ r.pending := mem_append_left _ (mem_of_find found)
    have some := settled.receipts r rfl i held rfl
    rw [none] at some
    cases some
  | _ => cases grants

/-- A receipt stays as it is. -/
lemma Settled.kept (settled : Settled id receipt c) (change : Change key op c c')
    (distinct : ∀ r, c.row = some r → (r.pending.map (·.id)).Nodup) : Settled id receipt c' := by
  refine ⟨change.known settled.known, ?_⟩
  have idle := settled.not_granted change
  have receipts := settled.receipts
  cases change with
  | same | settled => exact receipts
  | @cancelled _ r | @started r | @renewed r | @judged r | @moved r =>
    exact Cell.forall_some (receipts r rfl)
  | created => exact Cell.forall_some nofun
  | @returned r =>
    exact Cell.forall_some fun i mem => receipts r rfl i (Record.mem_of_mem_returned mem)
  | @intended r _ _ _ other _ effect =>
    refine Cell.forall_some fun j mem same => ?_
    rcases Record.mem_intended mem with old | rfl
    · exact receipts r rfl j old same
    · obtain rfl : other = id := same
      simp at idle
  | @recorded r _ i observation found none =>
    refine Cell.forall_some fun j mem same => ?_
    rcases Record.mem_pending_put (distinct r rfl) mem with rfl | ⟨old, -⟩
    · rw [Intent.observe_id] at same
      have some := receipts r rfl i (mem_of_find found) same
      rw [none] at some
      cases some
    · exact receipts r rfl j old same
  | @retried r _ _ _ _ i _ _ found =>
    refine Cell.forall_some fun j mem same => ?_
    rcases Record.mem_pending_put (distinct r rfl) mem with rfl | ⟨old, -⟩
    · obtain rfl : i.id = id := same
      simp at idle
    · exact receipts r rfl j old same

end Receipts

/-! ### The rules -/

lemma Run.unique {log : List Op} {s s' : Store} (run : Run log s) (run' : Run log s') : s = s' := by
  induction run generalizing s' with
  | nil =>
    generalize eq : ([] : List Op) = log at run'
    cases run' with
    | nil => rfl
    | snoc => simp at eq
  | snoc _ accepts ih =>
    obtain ⟨_, start, accepts'⟩ := run'.last
    rw [← ih start, accepts] at accepts'
    cases accepts'
    rfl

/-- The change an operation of a run makes to the cell of a key, in the store before it. -/
lemma Run.change {before later : List Op} {op : Op} {s a : Store}
    (run : Run (before ++ op :: later) s) (start : Run before a) (key : Key) :
    ∃ b, Run (before ++ [op]) b ∧ Change key op (a.cell key) (b.cell key) := by
  obtain ⟨a', b, start', accepts, next⟩ := run.split
  obtain rfl := start.unique start'
  exact ⟨b, next, change_of_apply accepts key⟩

/-- The store has the intent, among the current or the archived ones of the key. -/
def Store.Holds (s : Store) (key : Key) (i : Intent) : Prop :=
  ∃ r, s.row key = some r ∧ i ∈ r.pending

/-- The operation grants the effect of an intent to a worker. -/
def Op.GrantsTo (key : Key) (id attempt owner : Text) (now : Int) (op : Op) : Prop :=
  (∃ effect, op = .intent key attempt owner now id effect) ∨ op = .retry key attempt owner now id

/-- The operation grants a merge: a new merge intent, or the retry of a current one. -/
def Op.GrantsMerge (s : Store) (key : Key) (attempt : Text) (op : Op) : Prop :=
  (∃ owner now id, op = .intent key attempt owner now id .merge) ∨
    ∃ owner now id r i, op = .retry key attempt owner now id ∧ s.row key = some r ∧
      i ∈ r.intents ∧ i.id = id ∧ i.effect = .merge

/-- **The rules about grants**, for the accepted operations of a run. -/
structure PermissionRules (log : List Op) : Prop where
  /-- The intents accepted for a key have different identifiers, and none was granted before. -/
  intent_new : ∀ before later key attempt owner now id effect,
    log = before ++ .intent key attempt owner now id effect :: later →
      ∀ op ∈ before, op.grants key id = false
  /-- A retry is of an intent that was accepted before, for the same attempt. -/
  retry_of_intent : ∀ before later key attempt owner now id,
    log = before ++ .retry key attempt owner now id :: later →
      ∃ owner' now' effect, .intent key attempt owner' now' id effect ∈ before
  /-- Between a grant and the next, which is a retry, the effect was observed to be absent in the
  generation of the first, and no other observation was recorded after that. -/
  absent_between : ∀ before middle later key id first second,
    log = before ++ first :: middle ++ second :: later →
      first.grants key id = true → second.grants key id = true →
      (∀ op ∈ middle, op.grants key id = false) →
      (∃ attempt owner now, second = .retry key attempt owner now id) ∧
        ∃ s i m₁ m₂, Run (before ++ [first]) s ∧ s.Holds key i ∧ i.id = id ∧
          middle = m₁ ++ .reconcile key id i.generation .absent :: m₂ ∧
          ∀ generation observation, .reconcile key id generation observation ∈ m₂ →
            observation = .absent
  /-- An accepted observation of a receipt is about the current generation of a stored intent, and
  is kept unless the intent has one. -/
  receipt_recorded : ∀ before later key id generation receipt s next,
    log = before ++ .reconcile key id generation (.found receipt) :: later → Run before s →
      Run (before ++ [.reconcile key id generation (.found receipt)]) next →
      ∃ i j, s.Holds key i ∧ i.id = id ∧ i.generation = generation ∧
        next.Holds key j ∧ j.id = id ∧ j.receipt = some (i.receipt.getD receipt)
  /-- Once an intent has a receipt it is not granted, and the receipt does not change. -/
  receipt_kept : ∀ before middle later key s i receipt,
    log = before ++ middle ++ later → Run before s → s.Holds key i → i.receipt = some receipt →
      (∀ op ∈ middle, op.grants key i.id = false) ∧
        ∀ next j, Run (before ++ middle) next → next.Holds key j → j.id = i.id →
          j.receipt = some receipt
  /-- Every grant is to the worker with the live lease of the current attempt of a record that is
  not cancelled. -/
  leased : ∀ before later op key id attempt owner now s,
    log = before ++ op :: later → op.GrantsTo key id attempt owner now → Run before s →
      ∃ r, s.row key = some r ∧ r.Leased attempt owner now
  /-- A merge is granted only when the verdict of the same attempt has its receipt. -/
  verdict_first : ∀ before later op key attempt s,
    log = before ++ op :: later → op.GrantsMerge s key attempt → Run before s →
      ∃ r v owner now, s.row key = some r ∧ v ∈ r.intents ∧ v.effect = .verdict ∧
        v.receipt.isSome = true ∧ .intent key attempt owner now v.id .verdict ∈ before
  /-- The attempts accepted for a key have different identifiers. -/
  attempt_new : ∀ before later key attempt now,
    log = before ++ .start key attempt now :: later →
      ∀ other now', .start key other now' ∈ before → other.id ≠ attempt.id

variable {r : Record} {i : Intent} {middle : List Op} {generation : Nat}

section Rules

variable {key : Key} {op : Op} {c c' : Cell} {before later : List Op} {s : Store} {id : Text}

/-- A grant is a new intent or a retry. -/
lemma Op.grants_cases (grants : op.grants key id = true) :
    (∃ attempt owner now effect, op = .intent key attempt owner now id effect) ∨
      ∃ attempt owner now, op = .retry key attempt owner now id := by
  cases op with
  | intent about attempt owner now other effect =>
    obtain ⟨rfl, rfl⟩ : about = key ∧ other = id := by simpa [Op.grants] using grants
    exact .inl ⟨attempt, owner, now, effect, rfl⟩
  | retry about attempt owner now other =>
    obtain ⟨rfl, rfl⟩ : about = key ∧ other = id := by simpa [Op.grants] using grants
    exact .inr ⟨attempt, owner, now, rfl⟩
  | _ => cases grants

variable {attempt owner : Text} {now : Int}

lemma Change.leased (change : Change key op c c') (grants : op.GrantsTo key id attempt owner now) :
    ∃ r, c.row = some r ∧ r.Leased attempt owner now := by
  rcases grants with ⟨effect, rfl⟩ | rfl
  · cases change with
    | same idle => simp [Op.key] at idle
    | intended leased => exact ⟨_, rfl, leased⟩
  · cases change with
    | same idle => simp [Op.key] at idle
    | retried leased => exact ⟨_, rfl, leased⟩

/-- A retry is of a current intent that may be retried. -/
lemma Change.retry_of (change : Change key (.retry key attempt owner now id) c c') :
    ∃ r i, c.row = some r ∧ r.Leased attempt owner now ∧ i ∈ r.intents ∧ i.id = id ∧
      i.retryable = true ∧ i.receipt = none := by
  cases change with
  | same idle => simp [Op.key] at idle
  | @retried r _ _ _ _ i leased _ found retryable receipt =>
    exact ⟨r, i, rfl, leased, mem_of_find found, rfl, retryable, receipt⟩

lemma intent_new (run : Run (before ++ op :: later) s) {effect : Effect}
    (is : op = .intent key attempt owner now id effect) :
    ∀ other ∈ before, other.grants key id = false := by
  subst is
  obtain ⟨a, b, start, accepts, -⟩ := run.split
  intro other mem
  by_contra granted
  exact (change_of_apply accepts key).intent_new.1
    ((sound_of_run start key).minted other mem id (by simpa using granted))

lemma attempt_new {attempt : Attempt} (run : Run (before ++ .start key attempt now :: later) s)
    (other : Attempt) (now' : Int) (mem : .start key other now' ∈ before) :
    other.id ≠ attempt.id := by
  obtain ⟨a, b, start, accepts, -⟩ := run.split
  intro same
  exact (change_of_apply accepts key).start_new.1
    (same ▸ (sound_of_run start key).begun other now' mem)

/-- The current intents of the record were granted to the attempt that holds the lease. -/
lemma issued_to (start : Run before s) (row : s.row key = some r)
    (leased : r.Leased attempt owner now) (mem : i ∈ r.intents) :
    ∃ owner' now', .intent key attempt owner' now' i.id i.effect ∈ before := by
  obtain ⟨a, owner', now', held, logged⟩ := (sound_of_run start key).issued r row i mem
  obtain ⟨a', held', rfl, -⟩ := leased.lease
  cases held.symm.trans held'
  exact ⟨owner', now', logged⟩

lemma retry_of_intent (run : Run (before ++ .retry key attempt owner now id :: later) s) :
    ∃ owner' now' effect, .intent key attempt owner' now' id effect ∈ before := by
  obtain ⟨a, b, start, accepts, -⟩ := run.split
  obtain ⟨r, i, row, leased, mem, rfl, -⟩ := (change_of_apply accepts key).retry_of
  obtain ⟨owner', now', logged⟩ := issued_to start row leased mem
  exact ⟨owner', now', i.effect, logged⟩

/-- A granted intent is in the store afterwards. -/
lemma Change.held (change : Change key op c c') (grants : op.grants key id = true) :
    ∃ r i, c'.row = some r ∧ i ∈ r.pending ∧ i.id = id := by
  cases change with
  | same idle => simp [(Op.quiet_of_idle idle).1] at grants
  | intended =>
    obtain rfl : _ = id := by simpa [Op.grants] using grants
    exact ⟨_, _, rfl, mem_append_left _ (mem_append_right _ mem_cons_self), rfl⟩
  | @retried r _ _ _ _ i _ _ found =>
    obtain rfl : _ = id := by simpa [Op.grants] using grants
    have held : i.id ∈ r.pending.map (·.id) :=
      mem_map_of_mem (mem_append_left _ (mem_of_find found))
    rw [← Record.map_id_pending_put r { i with generation := i.generation + 1, retryable := false }]
      at held
    obtain ⟨j, mem, same⟩ := mem_map.1 held
    exact ⟨_, j, rfl, mem, same⟩
  | _ => cases grants

/-- The observation that permits a retry was made after the last grant. -/
lemma AbsentSince.after {first : Op}
    (absent : AbsentSince key id generation (before ++ first :: middle))
    (granted : first.grants key id = true) :
    ∃ m₁ m₂, middle = m₁ ++ .reconcile key id generation .absent :: m₂ ∧
      ∀ generation observation, .reconcile key id generation observation ∈ m₂ →
        observation = .absent := by
  obtain ⟨front, after, eq, since⟩ := absent
  have distinct : first ≠ .reconcile key id generation .absent := by
    rintro rfl
    cases granted
  rcases append_eq_append_iff.1 eq with ⟨m, rfl, rest⟩ | ⟨m, rfl, rest⟩
  · cases m with
    | nil => exact absurd (List.cons.inj rest).1 distinct
    | cons _ m =>
      obtain ⟨rfl, rfl⟩ := List.cons.inj rest
      exact ⟨m, after, rfl, fun generation observation mem => (since _ mem).2 _ _ rfl⟩
  · -- the first grant would come after the observation
    cases m with
    | nil => exact absurd (List.cons.inj rest).1.symm distinct
    | cons =>
      obtain ⟨rfl, rfl⟩ := List.cons.inj rest
      have quiet := (since first (by simp)).1
      rw [granted] at quiet
      cases quiet

/-- Between a grant and the next.

**Proof sketch.** The next grant is a retry: a new intent would have an identifier that was granted
before. What is retried keeps track of the run before it. Its last observation of absence comes
after the first grant, and its generation is the number of grants but one, which is the same after
the first grant since there is none in between. -/
lemma absent_between {first second : Op}
    (run : Run (before ++ first :: middle ++ second :: later) s)
    (granted : first.grants key id = true) (again : second.grants key id = true)
    (none : ∀ op ∈ middle, op.grants key id = false) :
    (∃ attempt owner now, second = .retry key attempt owner now id) ∧
      ∃ s i m₁ m₂, Run (before ++ [first]) s ∧ s.Holds key i ∧ i.id = id ∧
        middle = m₁ ++ .reconcile key id i.generation .absent :: m₂ ∧
        ∀ generation observation, .reconcile key id generation observation ∈ m₂ →
          observation = .absent := by
  rcases Op.grants_cases again with ⟨attempt, owner, now, effect, is⟩ | ⟨attempt, owner, now, rfl⟩
  · have never := intent_new run is first (by simp)
    rw [granted] at never
    cases never
  · refine ⟨⟨attempt, owner, now, rfl⟩, ?_⟩
    obtain ⟨a, _, whole, accepts, -⟩ := run.split
    obtain ⟨r, i, row, -, mem, rfl, retryable, receipt⟩ := (change_of_apply accepts key).retry_of
    have tracked := (sound_of_run whole key).tracked r row i (mem_append_left _ mem)
    obtain ⟨m₁, m₂, split, since⟩ := (tracked.absent retryable receipt).after granted
    obtain ⟨_, b, -, accepted, front⟩ := whole.split
    obtain ⟨r₁, i₁, row₁, mem₁, same⟩ := (change_of_apply accepted key).held granted
    have count := ((sound_of_run front key).tracked r₁ row₁ i₁ mem₁).count
    have generation : i₁.generation = i.generation := by
      have rest : middle.countP (·.grants key i.id) = 0 := countP_eq_zero.2 (by simpa using none)
      have total := tracked.count
      rw [countP_append, countP_cons, rest] at total
      rw [same, countP_append, countP_singleton] at count
      omega
    exact ⟨b, i₁, m₁, m₂, front, ⟨r₁, row₁, mem₁⟩, same, by rw [generation]; exact split, since⟩

variable {receipt : Text} {next : Store}

lemma receipt_recorded
    (change : Change key (.reconcile key id generation (.found receipt)) (s.cell key)
      (next.cell key)) :
    ∃ i j, s.Holds key i ∧ i.id = id ∧ i.generation = generation ∧
      next.Holds key j ∧ j.id = id ∧ j.receipt = some (i.receipt.getD receipt) := by
  generalize before : s.cell key = c at change
  generalize after : next.cell key = c' at change
  have row : s.row key = c.row := congrArg Cell.row before
  have row' : next.row key = c'.row := congrArg Cell.row after
  cases change with
  | same idle => simp [Op.key] at idle
  | @settled r _ i _ found received =>
    have held := mem_of_find found
    obtain ⟨text, eq⟩ := Option.isSome_iff_exists.1 received
    exact ⟨i, i, ⟨r, row, held⟩, rfl, rfl, ⟨r, row', held⟩, rfl, by simp [eq]⟩
  | @recorded r _ i _ found none =>
    have held := mem_of_find found
    refine ⟨i, i.observe (.found receipt), ⟨r, row, held⟩, rfl, rfl, ⟨_, row', ?_⟩, rfl, ?_⟩
    · change _ ∈ (r.put (i.observe (.found receipt))).pending
      rw [Record.pending_put]
      have present : i.id ∈ r.pending.map (·.id) := mem_map_of_mem held
      exact mem_replaceFirst_self present
    · rw [none]
      rfl

/-- A stored receipt settles its identifier. -/
lemma settled_of_holds (start : Run before s) (held : s.Holds key i)
    (received : i.receipt = some receipt) : Settled i.id receipt (s.cell key) := by
  obtain ⟨r, row, mem⟩ := held
  refine ⟨.inr ⟨r, row, Record.mem_remembered_intent.2 (mem_map_of_mem mem)⟩, ?_⟩
  intro r' row' j mem' same
  cases row.symm.trans row'
  rw [Record.eq_of_id ((sound_of_run start key).distinct r row) mem' mem same, received]

/-- **Receipts over a run.**

**Proof sketch.** Induction on the operations after the receipt, the last one first. -/
lemma settled_run (start : Run before s)
    (settled : Settled id receipt (s.cell key)) (run : Run (before ++ middle) next) :
    Settled id receipt (next.cell key) ∧ ∀ op ∈ middle, op.grants key id = false := by
  induction middle using reverseRecOn generalizing next with
  | nil =>
    rw [append_nil] at run
    rw [← start.unique run]
    exact ⟨settled, nofun⟩
  | append_singleton _ _ ih =>
    rw [← append_assoc] at run
    obtain ⟨b, front, accepts⟩ := run.last
    obtain ⟨kept, idle⟩ := ih front
    have change := change_of_apply accepts key
    refine ⟨kept.kept change (sound_of_run front key).distinct, fun other mem => ?_⟩
    rcases mem_append.1 mem with old | new
    · exact idle other old
    · obtain rfl := mem_singleton.1 new
      exact kept.not_granted change

/-- A merge is granted only to a record past its verdict. -/
lemma Op.GrantsMerge.advanced (merges : op.GrantsMerge s key attempt)
    (change : Change key op (s.cell key) (next.cell key)) :
    ∃ r owner now, s.row key = some r ∧ r.Advanced ∧ r.Leased attempt owner now ∧
      r.state ≠ .landed := by
  generalize eq : s.cell key = c at change
  generalize next.cell key = c' at change
  have row : s.row key = c.row := congrArg Cell.row eq
  rcases merges with ⟨owner, now, id, rfl⟩ | ⟨owner, now, id, r, i, rfl, held, mem, same, merge⟩
  · cases change with
    | same idle => simp [Op.key] at idle
    | @intended r _ _ _ _ _ _ leased state =>
      exact ⟨r, owner, now, row, .inl (by rw [state]; rfl), leased, by rw [state]; decide⟩
  · cases change with
    | same idle => simp [Op.key] at idle
    | @retried r' _ _ _ _ i' leased state =>
      cases held.symm.trans row
      exact ⟨r, owner, now, held, .inr ⟨i, mem, merge⟩, leased, state⟩

lemma verdict_first (run : Run (before ++ op :: later) s) {a : Store} (start : Run before a)
    (merges : op.GrantsMerge a key attempt) :
    ∃ r v owner now, a.row key = some r ∧ v ∈ r.intents ∧ v.effect = .verdict ∧
      v.receipt.isSome = true ∧ .intent key attempt owner now v.id .verdict ∈ before := by
  obtain ⟨b, -, change⟩ := run.change start key
  obtain ⟨r, _, _, row, advanced, leased, -⟩ := merges.advanced change
  have published := (sound_of_run start key).published r row advanced
  obtain ⟨v, mem, verdict⟩ := any_eq_true.1 published
  simp only [Bool.and_eq_true, decide_eq_true_eq] at verdict
  obtain ⟨owner', now', logged⟩ := issued_to start row leased mem
  rw [verdict.1] at logged
  exact ⟨r, v, owner', now', row, mem, verdict.1, verdict.2, logged⟩

end Rules

/-- One operation of a sequence: an error leaves the store as it is. -/
def perform (state : Store × List Op) (op : Op) : Store × List Op :=
  match state.1.apply op with
  | .ok next => (next, state.2 ++ [op])
  | .error _ => state

/-- The accepted operations of a sequence of operations on a new database. -/
def accepted (ops : List Op) : List Op := (ops.foldl perform (.empty, [])).2

/-- The store after a sequence of operations on a new database. -/
def storeAfter (ops : List Op) : Store := (ops.foldl perform (.empty, [])).1

lemma run_perform {state : Store × List Op} (run : Run state.2 state.1) (ops : List Op) :
    Run (ops.foldl perform state).2 (ops.foldl perform state).1 := by
  induction ops generalizing state with
  | nil => exact run
  | cons op rest ih =>
    refine ih ?_
    unfold perform
    split
    next next accepts =>
      exact .snoc run accepts
    · exact run

lemma run_accepted (ops : List Op) : Run (accepted ops) (storeAfter ops) :=
  @run_perform (.empty, []) .nil ops

/-- **Effects are never repeated blindly**: the rules hold over every sequence of operations. -/
theorem permission_rules (ops : List Op) : PermissionRules (accepted ops) := by
  have run := run_accepted ops
  generalize accepted ops = log at run
  refine
    { intent_new := ?_, retry_of_intent := ?_, absent_between := ?_, receipt_recorded := ?_,
      receipt_kept := ?_, leased := ?_, verdict_first := ?_, attempt_new := ?_ }
  · rintro before later key attempt owner now id effect rfl
    exact intent_new run rfl
  · rintro before later key attempt owner now id rfl
    exact retry_of_intent run
  · rintro before middle later key id first second rfl granted again none
    exact absent_between run granted again none
  · rintro before later key id generation receipt s next rfl start end'
    obtain ⟨b, next', change⟩ := run.change start key
    exact receipt_recorded (end'.unique next' ▸ change)
  · rintro before middle later key s i receipt rfl start held received
    obtain ⟨last, front⟩ := run.front
    have settled := settled_of_holds start held received
    refine ⟨(settled_run start settled front).2, fun next j reached held' same => ?_⟩
    obtain ⟨r, row, mem⟩ := held'
    exact (settled_run start settled reached).1.receipts r row j mem same
  · rintro before later op key id attempt owner now s rfl grants start
    obtain ⟨b, -, change⟩ := run.change start key
    exact change.leased grants
  · rintro before later op key attempt s rfl merges start
    exact verdict_first run start merges
  · rintro before later key attempt now rfl
    exact attempt_new run

/-! ### After a merge -/

/-- The head belongs to the same pull request as a key but is another one. -/
def Key.Supersedes (other key : Key) : Prop :=
  other.repository = key.repository ∧ other.pr = key.pr ∧ other.head ≠ key.head

lemma Store.supersedes_of_otherHead {other : Key} (head : otherHead other r = true) :
    other.Supersedes r.key := by
  simp only [otherHead, samePull, Bool.and_eq_true, decide_eq_true_eq] at head
  exact ⟨head.1.1.symm, head.1.2.symm, Ne.symm head.2⟩

@[simp] lemma Record.put_cancelled (r : Record) (new : Intent) :
    (r.put new).cancelled = r.cancelled := by
  unfold put
  split <;> rfl

section AfterMerge

variable {key : Key} {op : Op} {s next : Store} {log : List Op}

/-- Work is cancelled by the observation of another head only. -/
lemma cancelled_by (run : Run log s) (row : s.row key = some r) (cancelled : r.cancelled = true) :
    ∃ other, .observeHead other ∈ log ∧ other.Supersedes key := by
  induction run generalizing r with
  | nil => cases row
  | @snoc log s next op run accepts ih =>
    have earlier : ∀ r, s.row key = some r → r.cancelled = true →
        ∃ other, .observeHead other ∈ log ++ [op] ∧ other.Supersedes key := by
      intro r row cancelled
      obtain ⟨other, mem, head⟩ := ih row cancelled
      exact ⟨other, mem_append_left _ mem, head⟩
    have change := change_of_apply accepts key
    generalize before : s.cell key = c at change
    generalize after : next.cell key = c' at change
    have held : s.row key = c.row := congrArg Cell.row before
    have row' : c'.row = some r := (congrArg Cell.row after).symm.trans row
    cases change with
    | same | settled => exact earlier r (held.trans row') cancelled
    | @cancelled other old _ head =>
      have about := Store.supersedes_of_otherHead head
      rw [Store.row_key held] at about
      exact ⟨other, mem_append_right _ (mem_singleton_self _), about⟩
    | created | returned =>
      cases row'
      cases cancelled
    | recorded | retried =>
      cases row'
      exact earlier _ held (by simpa using cancelled)
    | _ =>
      cases row'
      exact earlier _ held cancelled

/-- A landed record stays landed until its head returns. -/
lemma Change.landed {c c' : Cell} (change : Change key op c c') (row : c.row = some r)
    (landed : r.state = .landed) :
    (∃ r', c'.row = some r' ∧ r'.state = .landed) ∨ op = .observeHead key ∧ r.cancelled = true := by
  cases change with
  | same | settled => exact .inl ⟨r, row, landed⟩
  | created => cases row
  | returned was =>
    cases row
    exact .inr ⟨rfl, was⟩
  | cancelled | renewed =>
    cases row
    exact .inl ⟨_, rfl, landed⟩
  | started state | judged state =>
    cases row
    rw [landed] at state
    cases state
  | moved permitted =>
    cases row
    rw [landed] at permitted
    cases permitted
  | @intended _ _ _ _ _ _ effect _ state =>
    cases row
    rw [landed] at state
    cases effect <;> cases state
  | @recorded _ _ i observation =>
    cases row
    refine .inl ⟨_, rfl, ?_⟩
    cases observation with
    | unknown | absent => exact landed
    | found =>
      change r.landedBy i = .landed
      unfold Record.landedBy
      split
      · rfl
      · exact landed
  | retried _ state =>
    cases row
    exact absurd landed state

/-- The receipt of a current merge lands its record. -/
lemma Change.lands {c c' : Cell} {id receipt : Text}
    (change : Change key (.reconcile key id generation (.found receipt)) c c')
    (row : c.row = some r) (distinct : (r.pending.map (·.id)).Nodup) (current : i ∈ r.intents)
    (same : i.id = id) (merge : i.effect = .merge) (open' : i.receipt = none) :
    ∃ r', c'.row = some r' ∧ r'.state = .landed := by
  have unique : ∀ j ∈ r.pending, j.id = id → j = i := fun j mem eq =>
    Record.eq_of_id distinct mem (mem_append_left _ current) (eq.trans same.symm)
  cases change with
  | same idle => simp [Op.key] at idle
  | @settled _ _ j _ found received =>
    cases row
    rw [unique j (mem_of_find found) rfl, open'] at received
    cases received
  | @recorded _ _ j _ found =>
    cases row
    obtain rfl := unique j (mem_of_find found) rfl
    refine ⟨_, rfl, ?_⟩
    change r.landedBy j = .landed
    rw [Record.landedBy, if_pos ⟨mem_map_of_mem current, merge⟩]

/-- The head of a key returned in a part of a run: it was observed while its record was cancelled,
which another head of its pull request had done. -/
def Returned (key : Key) (before middle : List Op) : Prop :=
  ∃ m₁ m₂ s r other, middle = m₁ ++ .observeHead key :: m₂ ∧ Run (before ++ m₁) s ∧
    s.row key = some r ∧ r.cancelled = true ∧
    .observeHead other ∈ before ++ m₁ ∧ other.Supersedes key

lemma Returned.snoc {before : List Op} (returned : Returned key before middle) :
    Returned key before (middle ++ [op]) := by
  obtain ⟨m₁, m₂, s, r, other, rfl, rest⟩ := returned
  exact ⟨m₁, m₂ ++ [op], s, r, other, by simp, rest⟩

/-- **A landed record stays landed until its head returns**, over every run.

**Proof sketch.** Induction on the operations after the landing, the last one first. -/
lemma landed_run {before : List Op} (start : Run before s)
    (landed : ∃ r, s.row key = some r ∧ r.state = .landed) (run : Run (before ++ middle) next) :
    (∃ r, next.row key = some r ∧ r.state = .landed) ∨ Returned key before middle := by
  induction middle using reverseRecOn generalizing next with
  | nil =>
    rw [append_nil] at run
    rw [← start.unique run]
    exact .inl landed
  | append_singleton middle _ ih =>
    rw [← append_assoc] at run
    obtain ⟨b, front, accepts⟩ := run.last
    rcases ih front with ⟨r, row, state⟩ | returned
    · rcases (change_of_apply accepts key).landed row state with still | ⟨rfl, cancelled⟩
      · exact .inl still
      · obtain ⟨other, mem, head⟩ := cancelled_by front row cancelled
        exact .inr ⟨middle, [], b, r, other, rfl, front, row, cancelled, mem, head⟩
    · exact .inr returned.snoc

end AfterMerge

/-- **A landed head is not merged again before it returned**: after the receipt of a current merge
of a key has been recorded, a merge is granted for the key only when its head was observed again
after another head of the pull request had cancelled its record. -/
theorem landed_until_return (ops before middle later : List Op) (key : Key) (id receipt : Text)
    (generation : Nat) (op : Op)
    (run : accepted ops =
      before ++ .reconcile key id generation (.found receipt) :: middle ++ op :: later)
    (s : Store) (start : Run before s) (r : Record) (row : s.row key = some r) (i : Intent)
    (current : i ∈ r.intents) (same : i.id = id) (merge : i.effect = .merge)
    (unsettled : i.receipt = none) (a : Store) (attempt : Text)
    (reached : Run (before ++ .reconcile key id generation (.found receipt) :: middle) a)
    (merges : op.GrantsMerge a key attempt) :
    Returned key (before ++ [.reconcile key id generation (.found receipt)]) middle := by
  have whole := run_accepted ops
  rw [run] at whole
  obtain ⟨b, next, change⟩ := reached.change start key
  have landed := change.lands row ((sound_of_run start key).distinct r row) current same merge
    unsettled
  rw [append_cons] at reached
  rcases landed_run next landed reached with ⟨r', row', state⟩ | returned
  · rw [← append_cons] at reached
    obtain ⟨_, -, change⟩ := whole.change reached key
    obtain ⟨r'', _, _, row'', -, -, apart⟩ := merges.advanced change
    cases row'.symm.trans row''
    exact absurd state apart
  · exact returned

lemma run_of_accepted {ops : List Op} (all : accepted ops = ops) : Run ops (storeAfter ops) := by
  have run := run_accepted ops
  rwa [all] at run

/-- The work of one attempt up to its merge. -/
def workOn (key : Key) (attempt verdict merge : Text) : List Op :=
  [.start key ⟨attempt, [1], 100⟩ 0, .verdict key attempt [1] 0 [1],
    .intent key attempt [1] 0 verdict .verdict, .reconcile key verdict 0 (.found [1]),
    .transition key attempt [1] 0 .awaitingChecks, .transition key attempt [1] 0 .landable,
    .intent key attempt [1] 0 merge .merge]

/-- A key with a given head. -/
def headKey (head : Text) : Key := ⟨[1], 7, head, [1], [1], [1]⟩

/-- The operations up to a merge of the first head, and those from its receipt to a second merge
of the same head, observed again after another one. -/
def firstMerge : List Op := .observeHead (headKey [1]) :: workOn (headKey [1]) [1] [2] [3]

def secondMerge : List Op :=
  .observeHead (headKey [2]) :: .observeHead (headKey [1]) ::
    (workOn (headKey [1]) [2] [4] [5]).dropLast

/-- **A landed head is merged again after it returned**: the merge of a head has its receipt, another
head is observed and then the first one again, and a second merge of the first head is granted. -/
theorem merged_again :
    accepted (firstMerge ++ .reconcile (headKey [1]) [3] 0 (.found [9]) ::
        secondMerge ++ [.intent (headKey [1]) [2] [1] 0 [5] .merge]) =
      firstMerge ++ .reconcile (headKey [1]) [3] 0 (.found [9]) ::
        secondMerge ++ [.intent (headKey [1]) [2] [1] 0 [5] .merge] ∧
    ∃ r i, (storeAfter firstMerge).row (headKey [1]) = some r ∧ i ∈ r.intents ∧ i.id = [3] ∧
      i.effect = .merge ∧ i.receipt = none := by
  refine ⟨by decide +kernel, ?_⟩
  refine ⟨_, ⟨[3], .merge, none, false, 0⟩, rfl, ?_, rfl, rfl, rfl⟩
  decide +kernel

theorem returned_before_second_merge :
    Returned (headKey [1]) (firstMerge ++ [.reconcile (headKey [1]) [3] 0 (.found [9])])
      secondMerge :=
  landed_until_return
    (firstMerge ++ .reconcile (headKey [1]) [3] 0 (.found [9]) ::
      secondMerge ++ [.intent (headKey [1]) [2] [1] 0 [5] .merge])
    firstMerge secondMerge [] (headKey [1]) [3] [9] 0 (.intent (headKey [1]) [2] [1] 0 [5] .merge)
    (by decide +kernel) (storeAfter firstMerge) (run_of_accepted (by decide +kernel)) _ rfl
    ⟨[3], .merge, none, false, 0⟩ (by decide +kernel) rfl rfl rfl
    (storeAfter (firstMerge ++ .reconcile (headKey [1]) [3] 0 (.found [9]) :: secondMerge)) [2]
    (run_of_accepted (by decide +kernel)) (.inl ⟨[1], 0, [5], rfl⟩)

end Provenant.Reconciler

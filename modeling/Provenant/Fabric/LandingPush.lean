import Provenant.Fabric.Fences

/-!
# Pushes of landings

A push operation is prepared under the fence of a landing, with the commits of the landing, and
begins under the same fence while the lease is live. From then on, until the remote is known, the
landing is bound to it: its lease stays with the holder of the operation, whoever asks. The landing
names its operation, and that name is what makes the unresolved push of a landing the only one.

## Main definitions

* `Fabric.Holds` — the row of a landing is bound to a push operation.
* `Fabric.Names` — the operation a landing names was prepared for it.
* `Fabric.Pushes` — the invariant of landings and push operations.
* `Fabric.Later` — what relates the push operations of a store to those of a later one.
* `Fabric.PushRules` — what holds after a list of calls.

## Main results

* `Fabric.Change.pushes`, `Fabric.Change.later` — what every accepted operation keeps.
* `Fabric.push_rules` — the rules, for every list of calls.
-/

namespace Provenant.Fabric

open Json Fallible SlashPath Option Keyed

/-! ### The invariant -/

variable {id : Text} {landing : Landing}

section Invariant

variable {K : Type} {s next : Store K} {row : ClaimRow K} {operation : PushOperation K}

/-- The row of a landing is bound to a push operation: it names the operation, and it is leased to
the holder the operation was prepared by, in the generation it was prepared in. -/
def Holds (row : ClaimRow K) (operation : PushOperation K) : Prop :=
  row.key = .landing operation.request.reference ∧
    row.generation = operation.request.generation ∧
    (∃ landing, row.record = .landing landing ∧ landing.operation = some operation.id) ∧
    ∃ lease, row.lease = some lease ∧ lease.holder = operation.request.actor

/-- The operation a landing names was prepared for it, with its commits. -/
def Names (s : Store K) (row : ClaimRow K) : Prop :=
  ∀ landing id, row.record = .landing landing → landing.operation = some id →
    ∃ operation, s.operation? id = some operation ∧ operation.request.claim = row.id ∧
      operation.request.reference = landing.reference ∧
      operation.request.expected = landing.expected ∧
      operation.request.candidate = landing.candidate

/-- Unresolved operations hold their landings, landings name operations of their own, and what is
committed was observed at the remote. -/
structure Pushes (s : Store K) : Prop where
  held : ∀ id operation, s.operation? id = some operation → operation.phase.unresolved →
    ∃ row, s.claim? operation.request.claim = some row ∧ Holds row operation
  named : ∀ id row, s.claim? id = some row → Names s row
  committed : ∀ id operation, s.operation? id = some operation → operation.phase = .committed →
    operation.observedRemote = some operation.request.candidate

lemma Pushes.empty : Pushes (Store.empty : Store K) where
  held _ _ found := by cases found
  named _ _ found := by cases found
  committed _ _ found := by cases found

/-- No operation of a claim is unresolved when the search finds none. -/
lemma resolved_of_none {claim : Text} (none : s.unresolved claim = none)
    (found : s.operation? id = some operation) (own : operation.request.claim = claim) :
    operation.phase.unresolved = false := by
  have absent := List.find?_eq_none.1 (map_eq_none_iff.1 none) _ (mem_of_find found)
  simpa only [own, decide_true, Bool.true_and, Bool.not_eq_true] using absent

/-- A write to a claim, when the row still holds the unresolved operations of the claim and names an
operation of its own. -/
lemma Pushes.written [DecidableEq K] (pushes : Pushes s) (written : Written s row next)
    (holds : ∀ id operation, s.operation? id = some operation → operation.phase.unresolved →
      operation.request.claim = row.id → Holds row operation) (names : Names s row) :
    Pushes next := by
  have same : next.operation? = s.operation? := by
    funext id
    rw [Store.operation?, Store.operation?, written.operations]
  constructor
  · intro id operation found unresolved
    rw [same] at found
    rw [written.claim]
    split
    next own =>
      exact ⟨row, rfl, holds id operation found unresolved own⟩
    · exact pushes.held id operation found unresolved
  · intro id other found
    unfold Names
    rw [same]
    rw [written.claim] at found
    split at found
    · cases found
      exact names
    · exact pushes.named id other found
  · rw [same]
    exact pushes.committed

/-- Claims that are pruned have no operations. -/
lemma Pushes.pruned [DecidableEq K] (pushes : Pushes s) (linked : Linked s) :
    Pushes s.pruneReleased where
  held id operation found unresolved := by
    rw [claim?_prune, if_neg]
    · exact pushes.held id operation found unresolved
    · intro mem
      exact (released_of_mem linked mem).2 operation (mem_of_find found) rfl
  named id other found := by
    rw [claim?_prune] at found
    split at found
    · cases found
    · exact pushes.named id other found
  committed := pushes.committed

/-- An operation is added in the phase in which it is prepared. -/
lemma Pushes.added (pushes : Pushes s) (absent : s.operation? operation.id = none)
    (prepared : operation.phase = .prepared) :
    Pushes { s with operations := s.operations ++ [operation] } := by
  have lookup : ∀ id, ({ s with operations := s.operations ++ [operation] } : Store K).operation? id
      = if id = operation.id then some operation else s.operation? id :=
    @find_snoc _ _ _ PushOperation.id operation s.operations absent
  constructor
  · intro id other found unresolved
    rw [lookup] at found
    split at found
    · cases found
      rw [prepared] at unresolved
      cases unresolved
    · exact pushes.held id other found unresolved
  · intro id row found landing name record is
    obtain ⟨other, stored, rest⟩ := pushes.named id row found landing name record is
    refine ⟨other, ?_, rest⟩
    rw [lookup, if_neg, stored]
    rintro rfl
    rw [absent] at stored
    cases stored
  · intro id other found committed
    rw [lookup] at found
    split at found
    · cases found
      rw [prepared] at committed
      cases committed
    · exact pushes.committed id other found committed

/-- The rows are leased to the same holder with the same token. -/
def SameLease (row later : ClaimRow K) : Prop :=
  ∃ lease lease', row.lease = some lease ∧ later.lease = some lease' ∧
    lease.holder = lease'.holder ∧ lease.token = lease'.token

lemma Fits.key_of_work {digests : Digests K} {claim : WorkClaim} (fits : Fits digests row)
    (record : row.record = .work claim) (reference : Text) : row.key ≠ .landing reference := by
  intro key
  simp only [Fits, record, key, map_eq_some_iff] at fits
  obtain ⟨_, -, other⟩ := fits
  cases other

/-- A row that is kept with its lease, and with the operation it names, holds what it held. -/
lemma Kept.holds {old : ClaimRow K} {before : Landing} (kept : Kept s old row)
    (holds : Holds old operation) (was : old.record = .landing before)
    (record : row.record = .landing landing) (same : landing.operation = before.operation)
    (leased : row.lease ≠ none) : SameLease old row ∧ Holds row operation := by
  obtain ⟨key, generation, ⟨_, is, named⟩, lease, held, holder⟩ := holds
  rw [was] at is
  cases is
  obtain ⟨lease', leased⟩ := ne_none_iff_exists'.1 leased
  obtain ⟨_, held', holder', token'⟩ := kept.lease lease' leased
  rw [held] at held'
  cases held'
  refine ⟨⟨lease, lease', held, leased, holder', token'⟩, kept.key.trans key,
    kept.generation.trans generation, ⟨landing, record, same.trans named⟩, lease', leased, ?_⟩
  exact holder'.symm.trans holder

/-! ### Phases -/

lemma operation?_save (s : Store K) (operation : PushOperation K) (id : Text) :
    (s.saveOperation operation).operation? id =
      if id = operation.id then some operation else s.operation? id := by
  unfold Store.saveOperation
  split
  next stored =>
    obtain ⟨old, found⟩ := isSome_iff_exists.1 stored
    exact @find_update _ _ _ PushOperation.id operation s.operations old found id
  next absent =>
    have absent := not_isSome_iff_eq_none.1 absent
    exact @find_snoc _ _ _ PushOperation.id operation s.operations absent id

/-- What an observation of the remote leads to. -/
lemma reconciled_spec (request : PushRequest) (remote : Option GitOid) :
    nextPhase.reconciled request remote ≠ .pushing ∧
      (nextPhase.reconciled request remote = .committed → remote = some request.candidate) := by
  unfold nextPhase.reconciled
  split
  · exact ⟨nofun, nofun⟩
  · split
    next same =>
      rw [same]
      exact ⟨nofun, fun _ => rfl⟩
    · split
      · exact ⟨nofun, nofun⟩
      · exact ⟨nofun, nofun⟩

/-- A push is entered by beginning it, from a phase in which nothing was sent. Every other action
needs an unresolved push, and commits it only when the candidate was observed. -/
lemma nextPhase_cases {request : PushRequest} {phase next : PushPhase} {action : PushAction}
    (moves : nextPhase request phase action = some next) :
    action = .begin ∧ next = .pushing ∧ (phase = .prepared ∨ phase = .retryable) ∨
      phase.unresolved ∧ next ≠ .pushing ∧
        (next = .committed → ∀ before, observed request before action = some request.candidate) := by
  unfold nextPhase at moves
  split at moves <;> cases moves
  · exact .inl ⟨rfl, rfl, .inl rfl⟩
  · exact .inl ⟨rfl, rfl, .inr rfl⟩
  · exact .inr ⟨rfl, nofun, nofun⟩
  · exact .inr ⟨rfl, nofun, fun _ _ => rfl⟩
  · obtain ⟨outside, seen⟩ := reconciled_spec request _
    exact .inr ⟨rfl, outside, fun is _ => seen is⟩
  · obtain ⟨outside, seen⟩ := reconciled_spec request _
    exact .inr ⟨rfl, outside, fun is _ => seen is⟩

/-- An operation moves on under the fence of its landing. -/
lemma Pushes.moved {fence : ClaimFence} {phase : PushPhase} {action : PushAction}
    {live : Option Int} {now : Int} (pushes : Pushes s) (found : s.claim? fence.id = some row)
    (fenced : Store.fenced row fence .landing live) (record : row.record = .landing landing)
    (key : row.key = .landing landing.reference) (stored : s.operation? id = some operation)
    (named : landing.operation = some id) (claim : operation.request.claim = fence.id)
    (generation : operation.request.generation = fence.generation)
    (actor : operation.request.actor = fence.actor)
    (moves : nextPhase operation.request operation.phase action = some phase) :
    Pushes (s.saveOperation (operation.moved phase action now)) := by
  have is : operation.id = id := key_of_find stored
  subst is
  have lookup := operation?_save s (operation.moved phase action now)
  obtain ⟨own, prepared, -, reference, -⟩ := pushes.named _ _ found landing _ record named
  rw [stored] at prepared
  cases prepared
  obtain ⟨-, same, lease, leased, holder, -⟩ := fenced_spec fenced
  constructor
  · intro other at' found' unresolved
    rw [lookup] at found'
    split at found'
    · cases found'
      refine ⟨row, ?_, ?_, ?_, ⟨landing, record, named⟩, lease, leased, ?_⟩
      · exact (congrArg _ claim).trans found
      · exact key.trans (congrArg _ reference.symm)
      · exact same.trans generation.symm
      · exact holder.trans actor.symm
    · exact pushes.held other at' found' unresolved
  · intro other at' found' landing' name record' is
    obtain ⟨known, stored', rest⟩ := pushes.named other at' found' landing' name record' is
    rw [lookup]
    split
    next eq =>
      rw [show name = operation.id from eq, stored] at stored'
      cases stored'
      exact ⟨_, rfl, rest⟩
    · exact ⟨known, stored', rest⟩
  · intro other at' found' committed
    rw [lookup] at found'
    split at found'
    · cases found'
      rcases nextPhase_cases moves with ⟨-, rfl, -⟩ | ⟨-, -, seen⟩
      · cases committed
      · exact seen committed _
    · exact pushes.committed other at' found' committed

end Invariant

/-! ### What accepted operations keep -/

section Steps

variable {K : Type} [DecidableEq K] {digests : Digests K} {s next : Store K} {now : Int} {op : Op}
  {reply : Reply K} {old row : ClaimRow K} {operation : PushOperation K}

lemma Written.key (written : Written s row next) (linked : Linked s)
    (found : s.claim? row.id = some old) : old.key = row.key := by
  obtain ⟨_, counted, same, -⟩ := linked.owned _ _ found
  exact written.unshared _ _ counted same

/-- What a write leaves of a claim, given what it does to the row it writes. -/
lemma Written.retained {claim : Text} (written : Written s row next)
    (found : s.claim? claim = some old) (holds : Holds old operation)
    (own : claim = row.id → SameLease old row ∧ Holds row operation) :
    ∃ later, next.claim? claim = some later ∧ SameLease old later ∧ Holds later operation := by
  rw [written.claim]
  split
  next eq =>
    exact ⟨row, rfl, own eq⟩
  · have ⟨_, _, _, lease, leased, _⟩ := holds
    exact ⟨old, found, ⟨lease, lease, leased, leased, rfl, rfl⟩, holds⟩

/-- While a push is unresolved, every accepted operation leaves its landing to its holder.

**Proof sketch.** Only a write to the claim of the push could end the lease. A claim on work is
another claim. A landing is neither taken nor released while the search finds the push, and a
renewal keeps holder and token. A push is only prepared for a landing without one. -/
lemma Change.retained (change : Change digests s now op reply next) (sound : Sound digests s)
    (stored : s.operation? id = some operation) (unresolved : operation.phase.unresolved)
    (found : s.claim? operation.request.claim = some old) (holds : Holds old operation) :
    ∃ later, next.claim? operation.request.claim = some later ∧ SameLease old later ∧
      Holds later operation := by
  have still : SameLease old old := by
    obtain ⟨-, -, -, lease, leased, -⟩ := holds
    exact ⟨lease, lease, leased, leased, rfl, rfl⟩
  have open' : ∀ {claim}, operation.request.claim = claim → s.unresolved claim ≠ none := by
    intro claim own none
    rw [resolved_of_none none stored own] at unresolved
    cases unresolved
  have is : operation.id = id := key_of_find stored
  cases change with
  | again | preparedAgain | pushChanged => exact ⟨old, found, still, holds⟩
  | @claimTaken _ _ _ saved _ _ _ record fits _ written =>
    refine written.retained ?_ holds fun own => ?_
    · rw [claim?_prune, if_neg, found]
      intro mem
      exact (released_of_mem sound.toLinked mem).2 _ (mem_of_find stored) rfl
    · rw [own] at found
      obtain ⟨counter, counted, same, -⟩ := sound.owned _ _ found
      have key := written.unshared _ _ counted same
      exact absurd (key.symm.trans holds.1) (fits.key_of_work record _)
  | claimChanged _ _ record _ fits _ written =>
    refine written.retained found holds fun own => ?_
    rw [own] at found
    have key := written.key sound.toLinked found
    exact absurd (key.symm.trans holds.1) (fits.key_of_work record _)
  | landingTaken _ _ _ _ _ resolved written =>
    refine written.retained found holds fun own => ?_
    rcases resolved with absent | none
    · rw [own] at found
      obtain ⟨_, counted, -⟩ := sound.owned _ _ found
      rw [written.key sound.toLinked found, absent] at counted
      cases counted
    · exact absurd none (open' own)
  | landingChanged kept was record _ same resolved written =>
    refine written.retained found holds fun own => ?_
    rw [own, kept.found] at found
    cases found
    exact kept.holds holds was record same.1 fun none => open' own (resolved none)
  | prepared _ kept was _ _ _ _ only absent _ written =>
    refine Written.retained written found holds fun own => ?_
    rw [own, kept.found] at found
    cases found
    obtain ⟨-, -, ⟨landing, record, named⟩, -⟩ := holds
    rw [was] at record
    cases record
    rw [named, is] at only
    simp only [all_some, decide_eq_true_eq] at only
    rw [only, absent] at stored
    cases stored

/-- The row of a landing has its scope. -/
lemma Sound.landing_key (sound : Sound digests s) (found : s.claim? id = some row)
    (record : row.record = .landing landing) : row.key = .landing landing.reference := by
  have fits := sound.fits id row found
  simp only [Fits, record] at fits
  exact fits.1

/-- Every accepted operation keeps the invariant of landings and push operations. -/
lemma Change.pushes (change : Change digests s now op reply next) (sound : Sound digests s)
    (pushes : Pushes s) : Pushes next := by
  have holds : ∀ {row : ClaimRow K}, next.claim? row.id = some row → ∀ id operation,
      s.operation? id = some operation → operation.phase.unresolved →
      operation.request.claim = row.id → Holds row operation := by
    intro row is id operation stored unresolved own
    obtain ⟨old, found, holds⟩ := pushes.held id operation stored unresolved
    obtain ⟨later, now, -, holds⟩ := change.retained sound stored unresolved found holds
    rw [own, is] at now
    cases now
    exact holds
  cases change with
  | again | preparedAgain => exact pushes
  | @claimTaken _ row _ saved _ _ _ record _ _ written =>
    have is : saved.claim? row.id = some row := (written.claim _).trans (if_pos rfl)
    have saved := (pushes.pruned sound.toLinked).written written (holds is) ?_
    · exact ⟨saved.held, saved.named, saved.committed⟩
    · intro landing _ other
      rw [record] at other
      cases other
  | claimChanged _ _ record _ _ _ written =>
    refine pushes.written written (holds ((written.claim _).trans (if_pos rfl))) ?_
    intro landing _ other
    rw [record] at other
    cases other
  | landingTaken _ _ record _ fresh _ written =>
    refine pushes.written written (holds ((written.claim _).trans (if_pos rfl))) ?_
    intro landing _ is named
    rw [record] at is
    cases is
    rw [fresh] at named
    cases named
  | @landingChanged _ old row before landing _ kept was record fits same _ written =>
    refine pushes.written written (holds ((written.claim _).trans (if_pos rfl))) ?_
    intro _ id is named
    rw [record] at is
    cases is
    rw [same.1] at named
    obtain ⟨operation, stored, own, reference, expected, candidate⟩ :=
      pushes.named _ _ kept.found before id was named
    have key := sound.landing_key kept.found was
    simp only [Fits, record] at fits
    rw [← kept.key, fits.1] at key
    injection key with key
    refine ⟨operation, stored, ?_, reference.trans key.symm, expected.trans same.2.1.symm,
      candidate.trans same.2.2.symm⟩
    exact own.trans (key_of_find kept.found)
  | @prepared _ _ id _ _ row _ operation _ _ kept _ record _ _ named _ absent new written =>
    obtain ⟨rfl, request, phase, -⟩ := new
    have added := pushes.added absent phase
    have lookup : ∀ k, ({ s with operations := s.operations ++ [operation] } : Store K).operation? k
        = if k = operation.id then some operation else s.operation? k :=
      @find_snoc _ _ _ PushOperation.id operation s.operations absent
    refine added.written written ?_ ?_
    · intro k other stored unresolved own
      rw [lookup] at stored
      split at stored
      · cases stored
        rw [phase] at unresolved
        cases unresolved
      · exact holds ((written.claim _).trans (if_pos rfl)) k other stored unresolved own
    · intro landing k is name
      rw [record] at is
      cases is
      cases name
      refine ⟨operation, (lookup _).trans (if_pos rfl), ?_⟩
      rw [request]
      exact ⟨named, rfl, rfl, rfl⟩
  | pushChanged found fenced record stored named claim generation actor moves =>
    exact pushes.moved found fenced record (sound.landing_key found record) stored named claim
      generation actor moves

/-- What relates the push operations of a store to those of a later one: what was prepared is frozen,
and what is committed or in conflict stays as it is. -/
def Later (s next : Store K) : Prop :=
  ∀ id operation, s.operation? id = some operation → ∃ later, next.operation? id = some later ∧
    later.request = operation.request ∧
    (operation.phase = .committed ∨ operation.phase = .conflict → later = operation)

/-- What an accepted operation does to push operations. -/
inductive PushEffect (s : Store K) (now : Int) : Op → Store K → Prop
  | same {op : Op} {next : Store K} (lookup : ∀ k, next.operation? k = s.operation? k) :
      PushEffect s now op next
  | prepared {guard : Text} {fence : ClaimFence} {id remote : Text} {row : ClaimRow K}
      {landing : Landing} {operation : PushOperation K} {next : Store K}
      (found : s.claim? fence.id = some row)
      (fenced : Store.fenced row fence .landing (some now)) (record : row.record = .landing landing)
      (absent : s.operation? id = none)
      (request : operation.request = Store.frozenRequest landing fence remote)
      (phase : operation.phase = .prepared)
      (lookup : ∀ k, next.operation? k = if k = id then some operation else s.operation? k) :
      PushEffect s now (.preparePush guard fence id remote) next
  | moved {guard : Text} {fence : ClaimFence} {id : Text} {action : PushAction} {row : ClaimRow K}
      {landing : Landing} {operation : PushOperation K} {phase : PushPhase} {next : Store K}
      (found : s.claim? fence.id = some row)
      (fenced : Store.fenced row fence .landing (Store.liveFor action now))
      (record : row.record = .landing landing) (stored : s.operation? id = some operation)
      (named : landing.operation = some id) (claim : operation.request.claim = fence.id)
      (generation : operation.request.generation = fence.generation)
      (actor : operation.request.actor = fence.actor)
      (moves : nextPhase operation.request operation.phase action = some phase)
      (lookup : ∀ k, next.operation? k =
        if k = id then some (operation.moved phase action now) else s.operation? k) :
      PushEffect s now (.changePush guard fence id action) next

lemma Change.pushEffect (change : Change digests s now op reply next) :
    PushEffect s now op next := by
  have same : ∀ {base other : Store K} {row : ClaimRow K}, Written base row other →
      ∀ k, other.operation? k = base.operation? k := by
    intro base other row written k
    rw [Store.operation?, Store.operation?, written.operations]
  cases change with
  | again | preparedAgain => exact .same fun _ => rfl
  | claimTaken _ _ _ _ _ written =>
    have lookup := same written
    exact .same lookup
  | claimChanged _ _ _ _ _ _ written | landingTaken _ _ _ _ _ _ written
  | landingChanged _ _ _ _ _ _ written => exact .same (same written)
  | @prepared _ _ _ _ _ _ _ operation _ fenced kept was _ _ _ named _ absent new written =>
    obtain ⟨rfl, request, phase, -⟩ := new
    refine .prepared (named ▸ kept.found) fenced was absent request phase fun k => ?_
    rw [same written]
    exact @find_snoc _ _ _ PushOperation.id operation s.operations absent k
  | pushChanged found fenced record stored named claim generation actor moves =>
    have is := key_of_find stored
    subst is
    exact .moved found fenced record stored named claim generation actor moves
      (operation?_save s _)

omit [DecidableEq K] in
/-- Push operations after an accepted operation. -/
lemma PushEffect.later (effect : PushEffect s now op next) : Later s next := by
  intro k known is
  cases effect with
  | same lookup => exact ⟨known, (lookup k).trans is, rfl, fun _ => rfl⟩
  | prepared _ _ _ absent _ _ lookup =>
    refine ⟨known, ?_, rfl, fun _ => rfl⟩
    rw [lookup, if_neg, is]
    rintro rfl
    rw [absent] at is
    cases is
  | @moved _ _ id _ _ _ operation _ _ _ _ _ stored _ _ _ _ moves lookup =>
    rw [lookup]
    split
    next own =>
      rw [own, stored] at is
      cases is
      refine ⟨_, rfl, rfl, fun final => ?_⟩
      -- No action leaves a phase that is final.
      rcases nextPhase_cases moves with ⟨-, -, from' | from'⟩ | ⟨unresolved, -⟩
      · rw [from'] at final
        rcases final with final | final <;> cases final
      · rw [from'] at final
        rcases final with final | final <;> cases final
      · rcases final with final | final <;> rw [final] at unresolved <;> cases unresolved
    · exact ⟨known, is, rfl, fun _ => rfl⟩

end Steps

/-! ### Runs -/

section Runs

variable {K : Type} [DecidableEq K] {digests : Digests K} {s : Store K}

omit [DecidableEq K] in
lemma Later.trans {next last : Store K} (first : Later s next) (second : Later next last) :
    Later s last := by
  intro id operation stored
  obtain ⟨later, stored, request, final⟩ := first id operation stored
  obtain ⟨latest, stored, request', final'⟩ := second id later stored
  refine ⟨latest, stored, request'.trans request, fun closed => ?_⟩
  have same := final closed
  rw [← same] at closed
  rw [final' closed, same]

variable (digests) in
lemma pushes_after (calls : List (Op × Int)) : Pushes (storeAfter digests calls) :=
  kept_after Pushes .empty .empty (fun sound pushes change => change.pushes sound pushes) calls

/-- Push operations along a list of calls. -/
lemma later_after (calls more : List (Op × Int)) :
    Later (storeAfter digests calls) (storeAfter digests (calls ++ more)) := by
  rw [storeAfter_append]
  refine kept_after (Later (storeAfter digests calls)) (sound_after digests calls) ?_
    (fun _ later change => later.trans change.pushEffect.later) more
  exact fun id operation stored => ⟨operation, stored, rfl, fun _ => rfl⟩

/-- The fence carries a live lease on a landing. -/
def LiveFence (s : Store K) (fence : ClaimFence) (now : Int) (landing : Landing) : Prop :=
  ∃ row, s.claim? fence.id = some row ∧ Store.fenced row fence .landing (some now) ∧
    row.record = .landing landing

/-- A landing that is bound to an unresolved push: whatever is called next, its scope gives out the
fence it has, it is not released, and its lease stays with the holder and the token. -/
structure Bound (digests : Digests K) (calls : List (Op × Int)) (request : PushRequest)
    (token : Text) : Prop where
  fence : ∀ call fence, call.1.acquires digests = some (.landing request.reference) →
    returned digests calls call = .ok (.fence fence) →
    fence = ⟨request.claim, request.actor, request.generation, token⟩
  release : ∀ guard fence now, fence.id = request.claim →
    ∃ error, returned digests calls (.releaseLanding guard fence, now) = .error error
  leased : ∀ call, ∃ row lease,
    (storeAfter digests (calls ++ [call])).claim? request.claim = some row ∧
    row.generation = request.generation ∧ row.lease = some lease ∧
    lease.holder = request.actor ∧ lease.token = token

/-- What holds of landings and their pushes after a list of calls. -/
structure PushRules (digests : Digests K) (calls : List (Op × Int)) : Prop where
  /-- At most one push of a landing is unresolved. -/
  single : ∀ id id' operation operation',
    (storeAfter digests calls).operation? id = some operation →
    (storeAfter digests calls).operation? id' = some operation' →
    operation.request.claim = operation'.request.claim →
    operation.phase.unresolved → operation'.phase.unresolved → id = id'
  /-- An operation is prepared under a live fence, with the commits of the landing. -/
  prepared : ∀ call id later, (storeAfter digests calls).operation? id = none →
    (storeAfter digests (calls ++ [call])).operation? id = some later →
    ∃ guard fence remote landing, call.1 = .preparePush guard fence id remote ∧
      LiveFence (storeAfter digests calls) fence call.2 landing ∧
      later.request = Store.frozenRequest landing fence remote
  /-- What was prepared is frozen. -/
  frozen : ∀ more id operation, (storeAfter digests calls).operation? id = some operation →
    ∃ later, (storeAfter digests (calls ++ more)).operation? id = some later ∧
      later.request = operation.request
  /-- A push begins only under a live fence of the claim and the generation it was prepared for,
  with the commits the landing has. -/
  begins : ∀ call id later, (storeAfter digests (calls ++ [call])).operation? id = some later →
    later.phase = .pushing →
    (∀ before, (storeAfter digests calls).operation? id = some before → before.phase ≠ .pushing) →
    ∃ guard fence landing, call.1 = .changePush guard fence id .begin ∧
      LiveFence (storeAfter digests calls) fence call.2 landing ∧
      later.request.claim = fence.id ∧ later.request.generation = fence.generation ∧
      later.request.actor = fence.actor ∧ later.request.expected = landing.expected ∧
      later.request.candidate = landing.candidate
  /-- While a push is unresolved its landing is bound to it. -/
  bound : ∀ id operation, (storeAfter digests calls).operation? id = some operation →
    operation.phase.unresolved → ∃ token, Bound digests calls operation.request token
  /-- Committed and conflict are never left. -/
  final : ∀ more id operation, (storeAfter digests calls).operation? id = some operation →
    operation.phase = .committed ∨ operation.phase = .conflict →
    (storeAfter digests (calls ++ more)).operation? id = some operation
  /-- What is committed was observed at the remote. -/
  committed : ∀ id operation, (storeAfter digests calls).operation? id = some operation →
    operation.phase = .committed → operation.observedRemote = some operation.request.candidate

/-- A release is refused while the search finds an unresolved push. -/
lemma release_refused {guard : Text} {fence : ClaimFence} {now : Int}
    (unresolved : s.unresolved fence.id ≠ none) :
    ∃ error, (step digests s (.releaseLanding guard fence, now)).2 = .error error := by
  unfold step
  split
  next next reply applied =>
    obtain ⟨_, ok, -⟩ := map_eq_ok applied
    obtain ⟨_, -, ok⟩ := bind_eq_ok.1 ok
    obtain ⟨⟨⟩, resolved, -⟩ := bind_eq_ok.1 ok
    unfold Store.checkResolved at resolved
    split at resolved
    · cases resolved
    next other =>
      refine absurd (eq_none_iff_forall_ne_some.2 fun operation is => ?_) unresolved
      exact other operation rfl is
  · exact ⟨_, rfl⟩

variable {calls : List (Op × Int)}

/-- While a push is unresolved its landing is bound to it. -/
lemma bound_of_unresolved {operation : PushOperation K}
    (stored : (storeAfter digests calls).operation? id = some operation)
    (unresolved : operation.phase.unresolved) :
    ∃ token, Bound digests calls operation.request token := by
  have sound := sound_after digests calls
  obtain ⟨row, found, holds⟩ := (pushes_after digests calls).held id operation stored unresolved
  have ⟨_, generation, _, lease, leased, holder⟩ := holds
  -- Whatever an accepted operation does, the lease stays.
  have stays : ∀ {now op reply next}, Change digests (storeAfter digests calls) now op reply next →
      ∃ later lease', next.claim? operation.request.claim = some later ∧
        later.lease = some lease' ∧ lease'.holder = operation.request.actor ∧
        lease'.token = lease.token ∧ later.key = .landing operation.request.reference ∧
        later.generation = operation.request.generation := by
    intro now op reply next change
    obtain ⟨later, found, ⟨_, lease', is, held, same, token⟩, key, generation, -⟩ :=
      change.retained sound stored unresolved found holds
    rw [leased] at is
    cases is
    exact ⟨later, lease', found, held, same.symm.trans holder, token.symm, key, generation⟩
  refine ⟨lease.token, ?_, ?_, ?_⟩
  · intro call fence acquires issued
    have change := change_of_step sound issued
    obtain ⟨later, lease', found, held, holder, token, key, generation⟩ := stays change
    obtain ⟨_, _, now⟩ := change.issued acquires
    obtain ⟨_, counted, same, number⟩ := (change.sound sound).owned _ _ found
    rw [key, now.counter] at counted
    cases counted
    have same : fence.id = operation.request.claim := same
    have claim := now.claim
    rw [same, found] at claim
    cases claim
    have leased := now.leased
    rw [held] at leased
    cases leased
    have first := now.holder
    have second := now.token
    rw [← same, ← generation, ← number, ← holder, ← token, first, second]
  · intro guard fence now same
    refine release_refused fun none => ?_
    rw [same] at none
    rw [resolved_of_none none stored rfl] at unresolved
    cases unresolved
  · intro call
    rw [storeAfter_snoc]
    rcases step_cases sound call with same | ⟨reply, -, change⟩
    · rw [same]
      exact ⟨row, lease, found, generation, leased, holder, rfl⟩
    · obtain ⟨later, lease', found, held, holder, token, -, generation⟩ := stays change
      exact ⟨later, lease', found, generation, held, holder, token⟩

/-- A push begins only under the fence it was prepared for. -/
lemma begins_of_pushing {call : Op × Int} {later : PushOperation K}
    (stored : (storeAfter digests (calls ++ [call])).operation? id = some later)
    (pushing : later.phase = .pushing)
    (outside : ∀ before, (storeAfter digests calls).operation? id = some before →
      before.phase ≠ .pushing) :
    ∃ guard fence landing, call.1 = .changePush guard fence id .begin ∧
      LiveFence (storeAfter digests calls) fence call.2 landing ∧
      later.request.claim = fence.id ∧ later.request.generation = fence.generation ∧
      later.request.actor = fence.actor ∧ later.request.expected = landing.expected ∧
      later.request.candidate = landing.candidate := by
  rw [storeAfter_snoc] at stored
  rcases step_cases (sound_after digests calls) call with same | ⟨reply, -, change⟩
  · rw [same] at stored
    exact absurd pushing (outside later stored)
  · obtain ⟨op, now⟩ := call
    cases change.pushEffect with
    | same lookup => exact absurd pushing (outside later ((lookup id).symm.trans stored))
    | prepared _ _ _ _ _ phase lookup =>
      rw [lookup] at stored
      split at stored
      · cases stored
        rw [phase] at pushing
        cases pushing
      · exact absurd pushing (outside later stored)
    | @moved guard fence _ action row landing operation _ _ found fenced record known named claim
        generation actor moves lookup =>
      rw [lookup] at stored
      split at stored
      next own =>
        cases stored
        subst own
        obtain ⟨_, frozen, -, -, expected, candidate⟩ :=
          (pushes_after digests calls).named _ _ found landing _ record named
        rw [known] at frozen
        cases frozen
        rcases nextPhase_cases moves with ⟨rfl, -⟩ | ⟨-, other, -⟩
        · exact ⟨guard, fence, landing, rfl, ⟨row, found, fenced, record⟩, claim, generation,
            actor, expected, candidate⟩
        · exact absurd pushing other
      · exact absurd pushing (outside later stored)

/-- An operation that is new was prepared under a live fence. -/
lemma prepared_of_new {call : Op × Int} {later : PushOperation K}
    (absent : (storeAfter digests calls).operation? id = none)
    (stored : (storeAfter digests (calls ++ [call])).operation? id = some later) :
    ∃ guard fence remote landing, call.1 = .preparePush guard fence id remote ∧
      LiveFence (storeAfter digests calls) fence call.2 landing ∧
      later.request = Store.frozenRequest landing fence remote := by
  rw [storeAfter_snoc] at stored
  rcases step_cases (sound_after digests calls) call with same | ⟨reply, -, change⟩
  · rw [same, absent] at stored
    cases stored
  · obtain ⟨op, now⟩ := call
    cases change.pushEffect with
    | same lookup =>
      rw [lookup, absent] at stored
      cases stored
    | @prepared guard fence _ remote row landing _ _ found fenced record _ request _ lookup =>
      rw [lookup] at stored
      split at stored
      next own =>
        cases stored
        subst own
        exact ⟨guard, fence, remote, landing, rfl, ⟨row, found, fenced, record⟩, request⟩
      · rw [absent] at stored
        cases stored
    | moved _ _ _ known _ _ _ _ _ lookup =>
      rw [lookup] at stored
      split at stored
      next own =>
        rw [own, known] at absent
        cases absent
      · rw [absent] at stored
        cases stored

/-- **Pushes of landings**: the rules hold after every list of calls. -/
theorem push_rules (digests : Digests K) (calls : List (Op × Int)) : PushRules digests calls where
  single id id' operation operation' stored stored' same unresolved unresolved' := by
    have pushes := pushes_after digests calls
    obtain ⟨row, found, -, -, ⟨landing, record, named⟩, -⟩ :=
      pushes.held id operation stored unresolved
    obtain ⟨row', found', -, -, ⟨landing', record', named'⟩, -⟩ :=
      pushes.held id' operation' stored' unresolved'
    rw [← same, found] at found'
    cases found'
    rw [record] at record'
    cases record'
    rw [named, some.injEq] at named'
    rw [← key_of_find stored, ← key_of_find stored']
    exact named'
  prepared _ _ _ absent stored := prepared_of_new absent stored
  frozen more id operation stored := by
    obtain ⟨later, stored, request, -⟩ := later_after calls more id operation stored
    exact ⟨later, stored, request⟩
  begins _ _ _ stored pushing outside := begins_of_pushing stored pushing outside
  bound _ _ stored unresolved := bound_of_unresolved stored unresolved
  final more id operation stored closed := by
    obtain ⟨later, stored, -, same⟩ := later_after calls more id operation stored
    rw [← same closed]
    exact stored
  committed := (pushes_after digests calls).committed

end Runs

end Provenant.Fabric

import Provenant.Data.Machine
import Provenant.Fabric.Changes

/-!
# Fences

A fence names a claim, its holder, the generation of its scope and a token. The counter of a scope
outlives the release, the expiry and the pruning of its claim, so that generations only rise. A
fence that was issued for a scope is the one the scope is at, or the scope is past its generation;
a fence the scope is past is refused from then on.

## Main definitions

* `Fabric.Effect` — what an accepted operation does to counters and claims.
* `Fabric.Past`, `Fabric.At` — where the counter of a scope stands to a fence.
* `Fabric.step`, `Fabric.storeAfter`, `Fabric.returned` — lists of calls.

## Main results

* `Fabric.sound_after` — counters, claims and records agree after every list of calls.
* `Fabric.Past.stale` — a fence the scope is past is refused.
* `Fabric.Acquired.past` — two acquires of one scope with any calls in between.
-/

namespace Provenant.Fabric

open Json Fallible SlashPath

/-! ### Agreement is kept -/

section Agreement

variable {K : Type} [DecidableEq K] {digests : Digests K} {s next : Store K} {now : Int}
  {row : ClaimRow K}

lemma Sound.empty : Sound digests (Store.empty : Store K) where
  nodup := List.nodup_nil
  owned id _ found := by
    cases found
  apart := nofun
  fits id _ found := by
    cases found

lemma Sound.written (sound : Sound digests s) (agrees : Agrees s row) (fits : Fits digests row)
    (written : Written s row next) : Sound digests next where
  toLinked := sound.toLinked.written agrees written
  fits id other found := by
    rw [written.claim] at found
    split at found
    · cases found
      exact fits
    · exact sound.fits id other found

lemma Sound.pruned (sound : Sound digests s) : Sound digests s.pruneReleased where
  toLinked := sound.toLinked.pruned
  fits id other found := by
    rw [claim?_prune] at found
    split at found
    · cases found
    · exact sound.fits id other found

lemma Sound.operations (sound : Sound digests s) (operations : List (PushOperation K)) :
    Sound digests { s with operations := operations } :=
  ⟨sound.toLinked.operations operations, sound.fits⟩

lemma Sound.addPaths (sound : Sound digests s) (id : Text) (paths : List Path) :
    Sound digests (s.addPaths id paths) :=
  ⟨⟨sound.nodup, sound.owned, sound.apart⟩, sound.fits⟩

lemma Taken.agrees {fence : ClaimFence} (taken : Taken s now row fence) : Agrees s row :=
  fun counter counted => (taken.raised counter counted).1

/-- Every accepted operation keeps counters, claims and records in agreement. -/
lemma Change.sound {op : Op} {reply : Reply K} (change : Change digests s now op reply next)
    (sound : Sound digests s) : Sound digests next := by
  cases change with
  | again | preparedAgain => exact sound
  | claimTaken _ taken _ fits _ written =>
    exact (sound.pruned.written taken.agrees fits written).addPaths _ _
  | claimChanged kept _ _ _ fits _ written | landingChanged kept _ _ fits _ _ written =>
    exact sound.written (kept.agrees sound.toLinked) fits written
  | landingTaken _ taken _ fits _ _ written => exact sound.written taken.agrees fits written
  | prepared _ kept _ _ fits _ _ _ _ _ written =>
    have agrees := kept.agrees sound.toLinked
    exact Sound.written (sound.operations _) (by exact agrees) fits written
  | pushChanged => exact sound.operations _

end Agreement

/-! ### Issued fences -/

section Issued

variable {K : Type} [DecidableEq K] {digests : Digests K} {s next : Store K} {now : Int}
  {row : ClaimRow K} {key : ScopeKey K} {fence : ClaimFence}

/-- The effect of a write on counters and claims, when other claims may be pruned. -/
structure Moved (s : Store K) (row : ClaimRow K) (next : Store K) : Prop where
  counter : ∀ k, next.counter? k =
    if k = row.key then some ⟨row.key, row.id, row.generation⟩ else s.counter? k
  claim : ∀ id other, next.claim? id = some other →
    id = row.id ∧ other = row ∨ id ≠ row.id ∧ s.claim? id = some other
  unshared : ∀ k c, s.counter? k = some c → c.id = row.id → k = row.key

lemma Written.moved (written : Written s row next) : Moved s row next where
  counter := written.counter
  claim id other found := by
    rw [written.claim] at found
    split at found
    next same =>
      cases found
      exact .inl ⟨same, rfl⟩
    next different =>
      exact .inr ⟨different, found⟩
  unshared := written.unshared

lemma Written.moved_of_pruned (written : Written s.pruneReleased row next) :
    Moved s row next where
  counter := written.counter
  claim id other found := by
    rcases written.moved.claim id other found with new | ⟨different, found⟩
    · exact .inl new
    · rw [claim?_prune] at found
      split at found
      · cases found
      · exact .inr ⟨different, found⟩
  unshared := written.unshared

/-- What an accepted operation does to counters and claims. -/
inductive Effect (s : Store K) (now : Int) : Store K → Prop
  | still {next : Store K} (counter : next.counter? = s.counter?) (claim : next.claim? = s.claim?) :
      Effect s now next
  | taken {row : ClaimRow K} {fence : ClaimFence} {next : Store K} (taken : Taken s now row fence)
      (moved : Moved s row next) : Effect s now next
  | kept {old row : ClaimRow K} {next : Store K} (kept : Kept s old row)
      (moved : Moved s row next) : Effect s now next

lemma Change.effect {op : Op} {reply : Reply K} (change : Change digests s now op reply next) :
    Effect s now next := by
  cases change with
  | again | preparedAgain | pushChanged => exact .still rfl rfl
  | claimTaken _ taken _ _ _ written =>
    have moved := written.moved_of_pruned
    exact .taken taken ⟨moved.counter, moved.claim, moved.unshared⟩
  | claimChanged kept _ _ _ _ _ written | landingChanged kept _ _ _ _ _ written =>
    exact .kept kept written.moved
  | landingTaken _ taken _ _ _ _ written => exact .taken taken written.moved
  | prepared _ kept _ _ _ _ _ _ _ _ written =>
    have moved := written.moved
    exact .kept kept ⟨moved.counter, moved.claim, moved.unshared⟩

/-- The counter of a scope is past a fence. -/
def Past (s : Store K) (key : ScopeKey K) (fence : ClaimFence) : Prop :=
  ∃ counter, s.counter? key = some counter ∧ counter.id = fence.id ∧
    fence.generation < counter.generation

/-- The counter of a scope is at a fence, and a lease on the claim is that of the fence. -/
def At (s : Store K) (key : ScopeKey K) (fence : ClaimFence) : Prop :=
  s.counter? key = some ⟨key, fence.id, fence.generation⟩ ∧
    ∀ row lease, s.claim? fence.id = some row → row.lease = some lease →
      lease.holder = fence.actor ∧ lease.token = fence.token

/-- Counters keep their claim and only rise. -/
lemma Effect.counter (effect : Effect s now next) (linked : Linked s) {counter : Counter K}
    (counted : s.counter? key = some counter) :
    ∃ later, next.counter? key = some later ∧ later.id = counter.id ∧
      counter.generation ≤ later.generation := by
  cases effect with
  | still same => exact ⟨counter, by rw [same, counted], rfl, le_rfl⟩
  | @taken row _ _ taken moved =>
    rw [moved.counter]
    split
    next own =>
      subst own
      obtain ⟨id, raised⟩ := taken.raised counter counted
      exact ⟨_, rfl, id.symm, raised.le⟩
    · exact ⟨counter, counted, rfl, le_rfl⟩
  | @kept old row _ kept moved =>
    rw [moved.counter]
    split
    next own =>
      subst own
      obtain ⟨found, stored, id, generation⟩ := linked.owned _ _ kept.found
      rw [← kept.key, counted] at stored
      cases stored
      exact ⟨_, rfl, id.symm, (generation.trans kept.generation.symm).le⟩
    · exact ⟨counter, counted, rfl, le_rfl⟩

/-- A scope that is past a fence stays past it. -/
lemma Past.effect (past : Past s key fence) (effect : Effect s now next) (linked : Linked s) :
    Past next key fence := by
  obtain ⟨_, counted, id, before⟩ := past
  obtain ⟨later, found, same, risen⟩ := effect.counter linked counted
  exact ⟨later, found, same.trans id, before.trans_le risen⟩

/-- A fence that is current is past or still current after any operation. -/
lemma At.effect (current : At s key fence) (effect : Effect s now next) (linked : Linked s) :
    Past next key fence ∨ At next key fence := by
  obtain ⟨counted, leased⟩ := current
  cases effect with
  | still counter claim =>
    refine .inr ⟨by rw [counter, counted], ?_⟩
    rw [claim]
    exact leased
  | @taken row _ _ taken moved =>
    by_cases own : key = row.key
    · subst own
      obtain ⟨id, raised⟩ := taken.raised _ counted
      exact .inl ⟨_, by rw [moved.counter, if_pos rfl], id.symm, raised⟩
    · refine .inr ⟨by rw [moved.counter, if_neg own, counted], fun other lease found => ?_⟩
      rcases moved.claim _ _ found with ⟨same, -⟩ | ⟨-, found⟩
      · exact absurd (moved.unshared _ _ counted same) own
      · exact leased other lease found
  | @kept old row _ kept moved =>
    by_cases own : key = row.key
    · subst own
      obtain ⟨_, found, id, generation⟩ := linked.owned _ _ kept.found
      rw [← kept.key, counted] at found
      cases found
      have id : fence.id = row.id := id
      refine .inr ⟨?_, fun other lease found new => ?_⟩
      · rw [moved.counter, if_pos rfl, kept.generation, ← generation, ← id]
      · rcases moved.claim _ _ found with ⟨-, rfl⟩ | ⟨different, -⟩
        · obtain ⟨before, held, holder, token⟩ := kept.lease lease new
          rw [← holder, ← token]
          exact leased old before (by rw [id, kept.found]) held
        · exact absurd id different
    · refine .inr ⟨by rw [moved.counter, if_neg own, counted], fun other lease found => ?_⟩
      rcases moved.claim _ _ found with ⟨same, -⟩ | ⟨-, found⟩
      · exact absurd (moved.unshared _ _ counted same) own
      · exact leased other lease found

/-- A fence the scope is past is refused, whatever it is used for. -/
lemma Past.stale (past : Past s key fence) (linked : Linked s) (kind : ClaimKind)
    (live : Option Int) : s.byFence fence kind live = .error .staleFence := by
  obtain ⟨_, counted, id, _⟩ := past
  unfold Store.byFence
  split
  · rfl
  next row found =>
    rw [if_neg]
    intro fenced
    obtain ⟨-, _, -⟩ := fenced_spec fenced
    obtain ⟨_, stored, same, _⟩ := linked.owned _ _ found
    have key : row.key = key := linked.apart _ _ _ _ stored counted (same.trans id.symm)
    rw [key, counted] at stored
    cases stored
    omega

lemma Current.at {lease : Lease} (current : Current s key fence row lease) : At s key fence := by
  refine ⟨current.counter, fun other held found new => ?_⟩
  rw [current.claim] at found
  cases found
  rw [current.leased] at new
  cases new
  exact ⟨current.holder, current.token⟩

lemma Past.lower {other : ClaimFence} {lease : Lease} (past : Past s key fence)
    (current : Current s key other row lease) : fence.generation < other.generation := by
  obtain ⟨_, counted, -, before⟩ := past
  rw [current.counter] at counted
  cases counted
  exact before

/-- What is written when a scope is taken is its current fence. -/
lemma Taken.current (taken : Taken s now row fence)
    (counter : next.counter? row.key = some ⟨row.key, row.id, row.generation⟩)
    (claim : next.claim? row.id = some row) : ∃ lease, Current next row.key fence row lease := by
  obtain ⟨lease, leased, rfl⟩ := taken.issued
  exact ⟨lease, counter, claim, leased, rfl, rfl⟩

/-- What an accepted acquire returns is the current fence of its scope afterwards. -/
lemma Change.issued {op : Op} (change : Change digests s now op (.fence fence) next)
    (acquires : op.acquires digests = some key) :
    ∃ row lease, Current next key fence row lease := by
  cases change with
  | @again _ _ _ row lease own current =>
    rw [acquires] at own
    cases own
    exact ⟨row, lease, current⟩
  | @claimTaken _ row _ _ _ own taken _ _ _ written =>
    rw [acquires] at own
    cases own
    refine ⟨row, taken.current ?_ ?_⟩
    · exact (written.counter _).trans (if_pos rfl)
    · exact (written.claim _).trans (if_pos rfl)
  | @landingTaken _ _ row _ _ _ own taken _ _ _ _ written =>
    have key : row.key = key := own.trans (Option.some.inj acquires)
    subst key
    refine ⟨row, taken.current ?_ ?_⟩
    · exact (written.counter _).trans (if_pos rfl)
    · exact (written.claim _).trans (if_pos rfl)

/-- A later acquire returns the fence a scope is at, or one with a greater generation. -/
lemma At.reissued {op : Op} {other : ClaimFence} (fenced : At s key fence)
    (change : Change digests s now op (.fence other) next) (linked : Linked s)
    (acquires : op.acquires digests = some key) :
    other = fence ∨ fence.generation < other.generation ∧ Past next key fence := by
  obtain ⟨row, lease, current⟩ := change.issued acquires
  rcases fenced.effect change.effect linked with past | ⟨counter, leased⟩
  · exact .inr ⟨past.lower current, past⟩
  · refine .inl ?_
    rw [current.counter] at counter
    injection counter with counter
    injection counter with _ id generation
    obtain ⟨holder, token⟩ := leased row lease (id ▸ current.claim) current.leased
    rw [current.holder] at holder
    rw [current.token] at token
    cases fence
    cases other
    cases id
    cases generation
    cases holder
    cases token
    rfl

end Issued

/-! ### Runs -/

section Runs

variable {K : Type} [DecidableEq K] (digests : Digests K)

/-- One call, with the time it reads: an operation that fails changes nothing. -/
def step (s : Store K) (call : Op × Int) : Store K × Except Error (Reply K) :=
  match s.apply digests call.1 call.2 with
  | .ok (next, reply) => (next, .ok reply)
  | .error error => (s, .error error)

/-- The store after a list of calls. -/
def storeAfter (calls : List (Op × Int)) : Store K := Machine.after (step digests) .empty calls

/-- What a call returns after a list of calls. -/
def returned (calls : List (Op × Int)) (call : Op × Int) : Except Error (Reply K) :=
  (step digests (storeAfter digests calls) call).2

variable {digests} {s : Store K} {call : Op × Int} {key : ScopeKey K} {fence other : ClaimFence}

/-- A call changes nothing, or it does what an accepted operation does. -/
lemma step_cases (sound : Sound digests s) (call : Op × Int) :
    (step digests s call).1 = s ∨
      ∃ reply, (step digests s call).2 = .ok reply ∧
        Change digests s call.2 call.1 reply (step digests s call).1 := by
  unfold step
  split
  next next reply applied =>
    exact .inr ⟨reply, rfl, change_of_apply sound applied⟩
  · exact .inl rfl

lemma change_of_step (sound : Sound digests s) {reply : Reply K}
    (h : (step digests s call).2 = .ok reply) :
    Change digests s call.2 call.1 reply (step digests s call).1 := by
  unfold step at h ⊢
  split at h
  next applied =>
    cases h
    exact change_of_apply sound applied
  · cases h

lemma Sound.step (sound : Sound digests s) (call : Op × Int) :
    Sound digests (step digests s call).1 := by
  rcases step_cases sound call with same | ⟨reply, -, change⟩
  · rw [same]
    exact sound
  · exact change.sound sound

variable (digests) in
lemma sound_after (calls : List (Op × Int)) : Sound digests (storeAfter digests calls) :=
  Machine.invariant (Sound digests) (fun _ call sound => sound.step call) .empty calls

lemma storeAfter_append (calls more : List (Op × Int)) :
    storeAfter digests (calls ++ more) =
      Machine.after (Fabric.step digests) (storeAfter digests calls) more :=
  Machine.after_append _ _ _ _

lemma storeAfter_snoc (calls : List (Op × Int)) (call : Op × Int) :
    storeAfter digests (calls ++ [call]) = (step digests (storeAfter digests calls) call).1 :=
  storeAfter_append calls [call]

/-- What every accepted operation keeps in a sound store holds in every later store. -/
lemma kept_after (holds : Store K → Prop) (sound : Sound digests s) (start : holds s)
    (keeps : ∀ {s next : Store K} {now : Int} {op : Op} {reply : Reply K}, Sound digests s →
      holds s → Change digests s now op reply next → holds next) (calls : List (Op × Int)) :
    holds (Machine.after (step digests) s calls) := by
  refine (Machine.invariant (fun s => Sound digests s ∧ holds s) ?_ ⟨sound, start⟩ calls).2
  rintro s call ⟨sound, before⟩
  refine ⟨sound.step call, ?_⟩
  rcases step_cases sound call with same | ⟨reply, -, change⟩
  · rw [same]
    exact before
  · exact keeps sound before change

/-- A scope that is past a fence stays past it in every later store. -/
lemma Past.after (sound : Sound digests s) (past : Past s key fence) (calls : List (Op × Int)) :
    Past (Machine.after (step digests) s calls) key fence :=
  kept_after (Past · key fence) sound past
    (fun sound past change => past.effect change.effect sound.toLinked) calls

/-- A scope that is at a fence is at it or past it in every later store. -/
lemma At.after (sound : Sound digests s) (current : At s key fence) (calls : List (Op × Int)) :
    Past (Machine.after (step digests) s calls) key fence ∨
      At (Machine.after (step digests) s calls) key fence := by
  refine kept_after (fun s => Past s key fence ∨ At s key fence) sound (.inr current)
    (fun sound state change => ?_) calls
  rcases state with past | current
  · exact .inl (past.effect change.effect sound.toLinked)
  · exact current.effect change.effect sound.toLinked

/-- Two acquires of one scope, with calls in between, and the fences they returned. -/
structure Acquired (digests : Digests K) (before : List (Op × Int)) (first : Op × Int)
    (between : List (Op × Int)) (second : Op × Int) (fence other : ClaimFence) : Prop where
  scope : ∃ key, first.1.acquires digests = some key ∧ second.1.acquires digests = some key
  issued : returned digests before first = .ok (.fence fence)
  reissued : returned digests (before ++ first :: between) second = .ok (.fence other)

/-- The second of two acquires of one scope returns the same fence, or one with a greater generation,
and then the scope is past the first fence. -/
lemma Acquired.past {before between : List (Op × Int)} {first second : Op × Int}
    (acquired : Acquired digests before first between second fence other) :
    other = fence ∨ fence.generation < other.generation ∧
      ∃ key, Past (storeAfter digests (before ++ first :: between ++ [second])) key fence := by
  obtain ⟨⟨key, acquires, again⟩, issued, reissued⟩ := acquired
  have start := sound_after digests before
  have sound := sound_after digests (before ++ first :: between)
  obtain ⟨row, lease, current⟩ := (change_of_step start issued).issued acquires
  have state := current.at.after (start.step first) between
  rw [← Machine.after_cons, ← storeAfter_append] at state
  have change := change_of_step sound reissued
  rw [storeAfter_snoc]
  rcases state with past | current
  · have later := past.effect change.effect sound.toLinked
    obtain ⟨_, _, current⟩ := change.issued again
    exact .inr ⟨later.lower current, key, later⟩
  · rcases current.reissued change sound.toLinked again with same | ⟨lower, past⟩
    · exact .inl same
    · exact .inr ⟨lower, key, past⟩

end Runs

end Provenant.Fabric

import Provenant.Fabric.ClaimStore

/-!
# What the operations on claims do

The operations of the claim store as one function, and one classification of what an accepted
operation does to the tables. Counters, claims and records agree in every store that is reached, and
the classification uses that: a write replaces the row of the claim its scope has.

## Main definitions

* `Fabric.Op`, `Fabric.Store.apply` — the operations.
* `Fabric.Written` — the effect of a write on the lookups.
* `Fabric.Sound` — counters, claims and records agree.
* `Fabric.Taken`, `Fabric.Kept` — a row that takes its scope, and one that changes under its fence.
* `Fabric.Change` — what an accepted operation does.

## Main results

* `Fabric.change_of_apply` — every accepted operation is one of the listed changes.
-/

namespace Provenant.Fabric

open Json Fallible SlashPath List Keyed

/-! ### Operations -/

/-- The operations that write. -/
inductive Op
  | acquireClaim (request : ClaimRequest)
  | renewClaim (fence : ClaimFence) (lease : Nat)
  | releaseClaim (fence : ClaimFence)
  | acquireLanding (guard : Text) (request : LandingRequest)
  | renewLanding (guard : Text) (fence : ClaimFence) (lease : Nat)
  | releaseLanding (guard : Text) (fence : ClaimFence)
  | preparePush (guard : Text) (fence : ClaimFence) (id remote : Text)
  | changePush (guard : Text) (fence : ClaimFence) (id : Text) (action : PushAction)

/-- What an operation returns. -/
inductive Reply (K : Type)
  | fence (fence : ClaimFence)
  | done
  | push (operation : PushOperation K)

section Operations

variable {K : Type} [DecidableEq K] (digests : Digests K)

/-- One operation at a time: the new store and the reply, or an error and no change. -/
def Store.apply (s : Store K) (op : Op) (now : Int) : Except Error (Store K × Reply K) :=
  match op with
  | .acquireClaim request =>
    (s.acquireClaim digests request now).map fun result => (result.1, .fence result.2)
  | .renewClaim fence lease =>
    (s.changeClaim digests fence (some lease) now).map fun next => (next, .done)
  | .releaseClaim fence => (s.changeClaim digests fence none now).map fun next => (next, .done)
  | .acquireLanding guard request =>
    (s.acquireLanding guard request now).map fun result => (result.1, .fence result.2)
  | .renewLanding guard fence lease =>
    (s.changeLanding guard fence (some lease) now).map fun next => (next, .done)
  | .releaseLanding guard fence =>
    (s.changeLanding guard fence none now).map fun next => (next, .done)
  | .preparePush guard fence id remote =>
    (s.preparePush digests guard fence id remote now).map fun result => (result.1, .push result.2)
  | .changePush guard fence id action =>
    (s.changePush guard fence id action now).map fun result => (result.1, .push result.2)

/-- The scope an operation acquires, if it does. -/
def Op.acquires : Op → Option (ScopeKey K)
  | .acquireClaim request =>
    request.scope.canonical.toOption.bind fun scope => (digests.scope scope).map .work
  | .acquireLanding _ request => some (.landing request.reference)
  | _ => none

end Operations

open Option

/-! ### Writes -/

section Writes

variable {K : Type} [DecidableEq K] {s next : Store K} {row : ClaimRow K}

/-- Counters and claims agree: a claim belongs to the counter of its scope, with its generation, and
counters of different scopes have different claims. -/
structure Linked (s : Store K) : Prop where
  nodup : (s.claims.map (·.id)).Nodup
  owned : ∀ id row, s.claim? id = some row →
    ∃ counter, s.counter? row.key = some counter ∧ counter.id = id ∧
      counter.generation = row.generation
  apart : ∀ k k' c c', s.counter? k = some c → s.counter? k' = some c' → c.id = c'.id → k = k'

/-- The effect of a write: the claim and the counter of its scope are those of the row. -/
structure Written (s : Store K) (row : ClaimRow K) (next : Store K) : Prop where
  counter : ∀ k, next.counter? k =
    if k = row.key then some ⟨row.key, row.id, row.generation⟩ else s.counter? k
  claim : ∀ id, next.claim? id = if id = row.id then some row else s.claim? id
  nodup : (s.claims.map (·.id)).Nodup → (next.claims.map (·.id)).Nodup
  unshared : ∀ k c, s.counter? k = some c → c.id = row.id → k = row.key
  paths : next.paths = s.paths
  operations : next.operations = s.operations

/-- The record of a claim agrees with its row. -/
def Fits (digests : Digests K) (row : ClaimRow K) : Prop :=
  match row.record with
  | .work claim => (digests.scope claim.scope).map .work = some row.key
  | .landing landing =>
    row.key = .landing landing.reference ∧ landing.id = row.id ∧
      landing.generation = row.generation ∧ landing.holder = row.lease.map (·.holder) ∧
      landing.expiresAt = row.lease.map (·.expires)

/-- Counters, claims and records agree. -/
structure Sound (digests : Digests K) (s : Store K) : Prop extends Linked s where
  fits : ∀ id row, s.claim? id = some row → Fits digests row

/-- The claim of the row is the one its scope has. -/
def Agrees (s : Store K) (row : ClaimRow K) : Prop :=
  ∀ counter, s.counter? row.key = some counter → counter.id = row.id

/-- A write, in a store whose counters and claims agree.

**Proof sketch.** A counter of the scope has the claim of the row, and a row of the claim has the
scope: its counter would otherwise share the claim with another scope. So the columns that an update
leaves are those of the row. -/
lemma written_of_save (linked : Linked s) (h : s.saveClaim row = .ok next)
    (agrees : Agrees s row) : Written s row next := by
  obtain ⟨⟨⟩, -, h⟩ := bind_eq_ok.1 h
  obtain ⟨⟨⟩, free, h⟩ := bind_eq_ok.1 h
  cases h
  have unshared : ∀ k c, s.counter? k = some c → c.id = row.id → k = row.key := by
    intro k c found same
    have none := demand_ok free
    simp only [Bool.not_eq_true', List.any_eq_false, Bool.and_eq_true, decide_eq_true_eq,
      not_and, not_not] at none
    rw [← none c (mem_of_find found) same, key_of_find found]
  refine ⟨?_, ?_, ?_, unshared, rfl, rfl⟩
  · intro k
    unfold Store.countClaim
    split
    next counter found =>
      have key : counter.key = row.key := key_of_find found
      have is : ({ counter with generation := row.generation } : Counter K) =
          ⟨row.key, row.id, row.generation⟩ := by
        rw [agrees counter found, key]
      rw [is]
      exact @find_update _ _ _ Counter.key ⟨row.key, row.id, row.generation⟩ _ _ found k
    next absent =>
      exact @find_snoc _ _ _ Counter.key ⟨row.key, row.id, row.generation⟩ _ absent k
  · intro id
    unfold Store.putClaim
    split
    next old found =>
      obtain ⟨counter, counted, same, -⟩ := linked.owned row.id old found
      have key : old.key = row.key := unshared old.key counter counted same
      rw [show ({ row with key := old.key } : ClaimRow K) = row by rw [key]]
      exact @find_update _ _ _ ClaimRow.id row _ _ found id
    next absent =>
      exact @find_snoc _ _ _ ClaimRow.id row _ absent id
  · intro nodup
    unfold Store.putClaim
    split
    · rw [map_key_update]
      exact nodup
    next absent =>
      exact @nodup_snoc _ _ _ ClaimRow.id row _ absent nodup

/-- The push operations play no part in the agreement of counters and claims. -/
lemma Linked.operations (linked : Linked s) (operations : List (PushOperation K)) :
    Linked { s with operations := operations } := ⟨linked.nodup, linked.owned, linked.apart⟩

/-- A write keeps counters and claims in agreement. -/
lemma Linked.written (linked : Linked s) (agrees : Agrees s row) (written : Written s row next) :
    Linked next where
  nodup := written.nodup linked.nodup
  owned id old found := by
    rw [written.claim] at found
    split at found
    next same =>
      cases found
      exact ⟨_, by rw [written.counter, if_pos rfl], same.symm, rfl⟩
    next other =>
      obtain ⟨counter, counted, same, generation⟩ := linked.owned id old found
      have key : old.key ≠ row.key := by
        intro key
        rw [key] at counted
        exact other (same.symm.trans (agrees counter counted))
      exact ⟨counter, by rw [written.counter, if_neg key, counted], same, generation⟩
  apart k k' c c' first second same := by
    rw [written.counter] at first second
    split at first <;> split at second
    next eq eq' =>
      rw [eq, eq']
    next eq _ =>
      cases first
      rw [eq, written.unshared k' c' second same.symm]
    next _ eq =>
      cases second
      rw [eq, written.unshared k c first same]
    · exact linked.apart k k' c c' first second same

end Writes

/-! ### Pruning -/

section Pruning

variable {K : Type} {s : Store K} {id : Text}

/-- A claim that is pruned is released and has no push operations. -/
lemma released_of_mem [DecidableEq K] (linked : Linked s) (mem : id ∈ s.released) :
    (∀ row, s.claim? id = some row → row.lease = none) ∧
      ∀ operation ∈ s.operations, operation.request.claim ≠ id := by
  have within := mem_of_mem_take mem
  rw [mem_mergeSort] at within
  obtain ⟨row, held, rfl⟩ := List.mem_map.1 within
  obtain ⟨held, free⟩ := mem_filter.1 held
  simp only [Bool.and_eq_true, isNone_iff_eq_none, Bool.not_eq_true', List.any_eq_false,
    decide_eq_true_eq] at free
  refine ⟨fun other found => ?_, free.2⟩
  have same := find_of_mem linked.nodup held
  rw [Store.claim?, same] at found
  cases found
  exact free.1

lemma claim?_prune (s : Store K) (id : Text) :
    s.pruneReleased.claim? id = if id ∈ s.released then none else s.claim? id := by
  split
  next mem =>
    refine find_filter_none fun row _ same => ?_
    simp [same, mem]
  next left =>
    cases found : s.claim? id with
    | none =>
      refine find_eq_none.2 fun row mem => ?_
      exact find_eq_none.1 found row (mem_of_mem_filter mem)
    | some row =>
      have same : row.id = id := key_of_find found
      exact find_filter found (by simp [same, left])

/-- Pruning keeps counters and claims in agreement. -/
lemma Linked.pruned [DecidableEq K] (linked : Linked s) : Linked s.pruneReleased where
  nodup := (filter_sublist.map _).nodup linked.nodup
  owned id row found := by
    rw [claim?_prune] at found
    split at found
    · cases found
    · exact linked.owned id row found
  apart := linked.apart

end Pruning

/-! ### What an accepted operation does -/

section Changes

variable {K : Type} [DecidableEq K]

/-- A row that takes its scope: the counter rises, no lease on the claim was live, and the fence is
that of the new lease. -/
structure Taken (s : Store K) (now : Int) (row : ClaimRow K) (fence : ClaimFence) : Prop where
  raised : ∀ counter, s.counter? row.key = some counter →
    counter.id = row.id ∧ counter.generation < row.generation
  free : ∀ old lease, s.claim? row.id = some old → old.lease = some lease → lease.expires ≤ now
  issued : ∃ lease, row.lease = some lease ∧
    fence = ⟨row.id, lease.holder, row.generation, lease.token⟩

/-- A row that changes under its fence: what is left of the lease has the same holder and token. -/
structure Kept (s : Store K) (old row : ClaimRow K) : Prop where
  found : s.claim? row.id = some old
  key : row.key = old.key
  generation : row.generation = old.generation
  lease : ∀ lease, row.lease = some lease →
    ∃ before, old.lease = some before ∧ before.holder = lease.holder ∧ before.token = lease.token

/-- The fence is the current one of a scope. -/
structure Current (s : Store K) (key : ScopeKey K) (fence : ClaimFence) (row : ClaimRow K)
    (lease : Lease) : Prop where
  counter : s.counter? key = some ⟨key, fence.id, fence.generation⟩
  claim : s.claim? fence.id = some row
  leased : row.lease = some lease
  holder : lease.holder = fence.actor
  token : lease.token = fence.token

/-- A push operation after an action. -/
def PushOperation.moved (operation : PushOperation K) (phase : PushPhase) (action : PushAction)
    (now : Int) : PushOperation K :=
  { operation with
    phase := phase
    observedRemote := observed operation.request operation.observedRemote action
    updatedAt := now }

/-- What an accepted operation does: the operation, its reply and the store after it. Every
invariant of the store is proved by cases of this relation. -/
inductive Change (digests : Digests K) (s : Store K) (now : Int) : Op → Reply K → Store K → Prop
  /-- A holder acquires again what it holds. -/
  | again {op : Op} {key : ScopeKey K} {fence : ClaimFence} {row : ClaimRow K} {lease : Lease}
      (acquires : op.acquires digests = some key) (current : Current s key fence row lease) :
      Change digests s now op (.fence fence) s
  /-- A claim on work is taken. -/
  | claimTaken {request : ClaimRequest} {row : ClaimRow K} {claim : WorkClaim} {saved : Store K}
      {fence : ClaimFence}
      (acquires : (Op.acquireClaim request).acquires digests = some row.key)
      (taken : Taken s now row fence) (record : row.record = .work claim) (fits : Fits digests row)
      (apart : ∀ p ∈ claim.scope.all, s.overlappingPath now p = none)
      (written : Written s.pruneReleased row saved) :
      Change digests s now (.acquireClaim request) (.fence fence)
        (saved.addPaths row.id claim.scope.all)
  /-- A claim on work is renewed, while it is live, or released. -/
  | claimChanged {op : Op} {old row : ClaimRow K} {before claim : WorkClaim} {next : Store K}
      (kept : Kept s old row) (was : old.record = .work before) (record : row.record = .work claim)
      (scope : claim.scope = before.scope) (fits : Fits digests row)
      (live : row.lease ≠ none → ∃ lease, old.lease = some lease ∧ now < lease.expires)
      (written : Written s row next) : Change digests s now op .done next
  /-- A landing is taken. -/
  | landingTaken {guard : Text} {request : LandingRequest} {row : ClaimRow K} {landing : Landing}
      {next : Store K} {fence : ClaimFence} (key : row.key = .landing request.reference)
      (taken : Taken s now row fence) (record : row.record = .landing landing)
      (fits : Fits digests row) (fresh : landing.operation = none)
      (resolved : s.counter? row.key = none ∨ s.unresolved row.id = none)
      (written : Written s row next) :
      Change digests s now (.acquireLanding guard request) (.fence fence) next
  /-- A landing is renewed or released. -/
  | landingChanged {op : Op} {old row : ClaimRow K} {before landing : Landing} {next : Store K}
      (kept : Kept s old row) (was : old.record = .landing before)
      (record : row.record = .landing landing) (fits : Fits digests row)
      (same : landing.operation = before.operation ∧ landing.expected = before.expected ∧
        landing.candidate = before.candidate)
      (resolved : row.lease = none → s.unresolved row.id = none)
      (written : Written s row next) : Change digests s now op .done next
  /-- A push is prepared again. -/
  | preparedAgain {op : Op} {operation : PushOperation K} :
      Change digests s now op (.push operation) s
  /-- A push is prepared. -/
  | prepared {guard : Text} {fence : ClaimFence} {id remote : Text} {old row : ClaimRow K}
      {landing : Landing} {operation : PushOperation K} {next : Store K}
      (fenced : Store.fenced old fence .landing (some now)) (kept : Kept s old row)
      (was : old.record = .landing landing)
      (record : row.record = .landing { landing with operation := some id, updatedAt := now })
      (fits : Fits digests row) (leased : row.lease = old.lease) (named : fence.id = row.id)
      (only : landing.operation.all (· = id)) (absent : s.operation? id = none)
      (new : operation.id = id ∧ operation.request = Store.frozenRequest landing fence remote ∧
        operation.phase = .prepared ∧ operation.observedRemote = none)
      (written : Written { s with operations := s.operations ++ [operation] } row next) :
      Change digests s now (.preparePush guard fence id remote) (.push operation) next
  /-- A push moves on. -/
  | pushChanged {guard : Text} {fence : ClaimFence} {id : Text} {action : PushAction}
      {row : ClaimRow K} {landing : Landing} {operation : PushOperation K} {phase : PushPhase}
      (found : s.claim? fence.id = some row)
      (fenced : Store.fenced row fence .landing (Store.liveFor action now))
      (record : row.record = .landing landing) (stored : s.operation? id = some operation)
      (named : landing.operation = some id) (claim : operation.request.claim = fence.id)
      (generation : operation.request.generation = fence.generation)
      (actor : operation.request.actor = fence.actor)
      (moves : nextPhase operation.request operation.phase action = some phase) :
      Change digests s now (.changePush guard fence id action)
        (.push (operation.moved phase action now))
        (s.saveOperation (operation.moved phase action now))

end Changes

/-! ### Taking the operations apart -/

variable {fence : ClaimFence}

section Lookups

variable {K : Type} {s : Store K}

variable {kind : ClaimKind} {live : Option Int}

/-- What a fence says about the row that carries it. -/
lemma fenced_spec {row : ClaimRow K} (h : Store.fenced row fence kind live) :
    row.key.kind = kind ∧ row.generation = fence.generation ∧
      ∃ lease, row.lease = some lease ∧ lease.holder = fence.actor ∧ lease.token = fence.token ∧
        ∀ t, live = some t → t < lease.expires := by
  simp only [Store.fenced, Bool.and_eq_true, decide_eq_true_eq, Option.any_eq_true,
    Option.all_eq_true] at h
  obtain ⟨⟨kind, generation⟩, lease, leased, ⟨holder, token⟩, live⟩ := h
  exact ⟨kind, generation, lease, leased, holder, token, live⟩

lemma byFence_ok {row : ClaimRow K} (h : s.byFence fence kind live = .ok row) :
    s.claim? fence.id = some row ∧ Store.fenced row fence kind live = true := by
  unfold Store.byFence at h
  split at h
  · cases h
  next found =>
    split at h
    next fenced =>
      cases h
      exact ⟨found, fenced⟩
    · cases h

lemma landingFence_ok {reference : Text} {landing : Landing}
    (h : s.landingFence reference fence live = .ok landing) :
    ∃ row, s.claim? fence.id = some row ∧ Store.fenced row fence .landing live = true ∧
      row.record = .landing landing := by
  obtain ⟨row, found, h⟩ := bind_eq_ok.1 h
  obtain ⟨found, fenced⟩ := byFence_ok found
  split at h
  · cases h
  next record =>
    split at h
    · cases h
    · cases h
      exact ⟨row, found, fenced, record⟩

/-- The row of a claim is kept by a write under its fence. -/
lemma kept_of_fenced {old : ClaimRow K} {key : ScopeKey K} {lease : Option Lease}
    (found : s.claim? fence.id = some old) (fenced : Store.fenced old fence kind live)
    (scope : key = old.key)
    (same : ∀ l, lease = some l → l.holder = fence.actor ∧ l.token = fence.token)
    (record : ClaimRecord) : Kept s old ⟨fence.id, key, fence.generation, lease, record⟩ := by
  obtain ⟨-, generation, before, leased, holder, token, -⟩ := fenced_spec fenced
  refine ⟨found, scope, generation.symm, fun l new => ⟨before, leased, ?_, ?_⟩⟩
  · exact holder.trans (same l new).1.symm
  · exact token.trans (same l new).2.symm

lemma digestOf_ok {found : Option K} {digest : K} (h : digestOf found = .ok digest) :
    found = some digest := by
  cases found with
  | none => cases h
  | some _ =>
    cases h
    rfl

end Lookups

section Inversions

variable {K : Type} [DecidableEq K] {digests : Digests K} {s next : Store K} {now : Int}

lemma Kept.agrees {old row : ClaimRow K} (linked : Linked s) (kept : Kept s old row) :
    Agrees s row := by
  intro counter counted
  obtain ⟨own, found, same, -⟩ := linked.owned _ _ kept.found
  rw [kept.key, found] at counted
  cases counted
  exact same

/-- Taking a scope that is not held raises its counter.

**Proof sketch.** A scope that was taken before keeps its claim, and the lookup found no live lease
on it. A scope that is new has no counter; a row with the requested ID would have one, of another
scope, which the write refuses. -/
lemma taken_of_previous {key : ScopeKey K} {requested : Text} {row : ClaimRow K} {lease : Lease}
    (linked : Linked s) (free : ∀ previous, s.byScope key = some previous →
      previous.heldAt now = none) (next : nextGeneration (s.byScope key) = .ok row.generation)
    (named : row.id = ((s.byScope key).map (·.id)).getD requested) (scope : row.key = key)
    (leased : row.lease = some lease)
    (unshared : ∀ k c, s.counter? k = some c → c.id = row.id → k = row.key) :
    Taken s now row ⟨row.id, lease.holder, row.generation, lease.token⟩ := by
  subst scope
  have raised : ∀ counter, s.counter? row.key = some counter →
      counter.id = row.id ∧ counter.generation < row.generation := by
    intro counter counted
    simp only [Store.byScope, counted, map_some, getD_some] at named next
    refine ⟨named.symm, ?_⟩
    simp only [nextGeneration, map_some, getD_some] at next
    split at next
    · injection next with eq
      omega
    · cases next
  refine ⟨raised, ?_, lease, leased, rfl⟩
  intro old before found was
  obtain ⟨_, counted, same, -⟩ := linked.owned _ _ found
  rw [unshared _ _ counted same] at counted
  have none := free _ (by rw [Store.byScope, counted, map_some])
  simp only [StoredClaim.heldAt, same, found, bind_some, was, filter_eq_none_iff,
    some.injEq, decide_eq_true_eq] at none
  exact not_lt.1 (none before rfl)

/-- The holder that acquires a scope again gets the current fence. -/
lemma current_of_previous {key : ScopeKey K} {previous : StoredClaim} {lease : Lease}
    {actor token : Text} (found : s.byScope key = some previous)
    (held : previous.heldAt now = some lease) (same : lease.holder = actor ∧ lease.token = token) :
    ∃ row, Current s key ⟨previous.id, actor, previous.generation, token⟩ row lease := by
  obtain ⟨counter, counted, rfl⟩ := map_eq_some_iff.1 found
  obtain ⟨leased, -⟩ := filter_eq_some_iff.1 held
  obtain ⟨row, claim, leased⟩ := bind_eq_some_iff.1 leased
  have key : counter.key = key := key_of_find counted
  subst key
  exact ⟨row, counted, claim, leased, same.1, same.2⟩

lemma change_of_takeClaim {request : ClaimRequest} {digest : K} {scope : WorkScope} {expires : Int}
    (linked : Linked s) (canonical : request.scope.canonical = .ok scope)
    (key : digests.scope scope = some digest)
    (free : ∀ previous, s.byScope (.work digest) = some previous → previous.heldAt now = none)
    (h : s.takeClaim request digest scope expires now (s.byScope (.work digest)) =
      .ok (next, fence)) : Change digests s now (.acquireClaim request) (.fence fence) next := by
  unfold Store.takeClaim at h
  split at h
  · cases h
  next apart =>
    obtain ⟨_, raised, h⟩ := bind_eq_ok.1 h
    obtain ⟨saved, save, h⟩ := bind_eq_ok.1 h
    cases h
    have agrees : ∀ counter, s.counter? (.work digest) = some counter →
        counter.id = ((s.byScope (.work digest)).map (·.id)).getD request.id := by
      intro counter counted
      rw [Store.byScope, counted, map_some, map_some, getD_some]
    have written := written_of_save linked.pruned save agrees
    refine .claimTaken ?_ ?_ rfl ?_ ?_ written
    · rw [Op.acquires, canonical]
      simp only [Except.toOption, bind_some, key, map_some]
    · exact taken_of_previous linked free raised rfl rfl rfl written.unshared
    · simp only [Fits, key, map_some]
    · exact findSome?_eq_none_iff.1 apart

lemma change_of_acquireClaim {request : ClaimRequest} (linked : Linked s)
    (h : s.acquireClaim digests request now = .ok (next, fence)) :
    Change digests s now (.acquireClaim request) (.fence fence) next := by
  obtain ⟨scope, canonical, h⟩ := bind_eq_ok.1 h
  obtain ⟨digest, key, h⟩ := bind_eq_ok.1 h
  obtain ⟨_, -, h⟩ := bind_eq_ok.1 h
  have key : digests.scope scope = some digest := digestOf_ok key
  split at h
  next absent =>
    rw [← absent] at h
    exact change_of_takeClaim linked canonical key (by rw [absent]; nofun) h
  next previous found =>
    split at h
    next free =>
      rw [← found] at h
      refine change_of_takeClaim linked canonical key (fun other same => ?_) h
      rw [found] at same
      cases same
      exact free
    next lease held =>
      split at h
      next same =>
        cases h
        obtain ⟨row, current⟩ := current_of_previous found held same
        refine .again ?_ current
        rw [Op.acquires, canonical]
        simp only [Except.toOption, bind_some, key, map_some]
      · cases h

variable {op : Op} {guard : Text} {lease : Option Nat}

lemma change_of_changeClaim (sound : Sound digests s)
    (h : s.changeClaim digests fence lease now = .ok next) :
    Change digests s now op .done next := by
  obtain ⟨old, found, h⟩ := bind_eq_ok.1 h
  obtain ⟨found, fenced⟩ := byFence_ok found
  split at h
  · cases h
  next claim was =>
    obtain ⟨expires, renewed, h⟩ := bind_eq_ok.1 h
    obtain ⟨_, key, save⟩ := bind_eq_ok.1 h
    have fits := sound.fits _ _ found
    simp only [Fits, was, digestOf_ok key, map_some, some.injEq] at fits
    have same : ∀ l, expires.map (fun expires => (⟨fence.actor, fence.token, expires⟩ : Lease)) =
        some l → l.holder = fence.actor ∧ l.token = fence.token := by
      intro l new
      obtain ⟨_, -, rfl⟩ := map_eq_some_iff.1 new
      exact ⟨rfl, rfl⟩
    have kept := kept_of_fenced found fenced fits same
    refine .claimChanged (kept _) was rfl ?_ ?_ ?_
      (written_of_save sound.toLinked save ((kept _).agrees sound.toLinked))
    · rfl
    · simp only [Fits, digestOf_ok key, map_some]
    · intro leased
      obtain ⟨-, -, before, held, -, -, live⟩ := fenced_spec fenced
      refine ⟨before, held, live now ?_⟩
      cases lease with
      | none =>
        cases renewed
        exact absurd rfl leased
      | some _ => rfl

lemma saveLanding_ok {landing : Landing} {token : Option Text}
    (h : s.saveLanding landing token = .ok next) :
    ∃ lease, leaseOf landing.holder token landing.expiresAt = .ok lease ∧
      s.saveClaim ⟨landing.id, .landing landing.reference, landing.generation, lease,
        .landing landing⟩ = .ok next := bind_eq_ok.1 h

/-- A lease that is stored has the columns it is stored from. -/
lemma leaseOf_ok {holder token : Option Text} {expires : Option Int} {lease : Option Lease}
    (h : leaseOf holder token expires = .ok lease) :
    holder = lease.map (·.holder) ∧ token = lease.map (·.token) ∧
      expires = lease.map (·.expires) := by
  unfold leaseOf at h
  split at h <;> cases h
  · exact ⟨rfl, rfl, rfl⟩
  · exact ⟨rfl, rfl, rfl⟩

lemma change_of_takeLanding {request : LandingRequest} {expires : Int} (linked : Linked s)
    (free : ∀ previous, s.byScope (.landing request.reference) = some previous →
      previous.heldAt now = none ∧ s.unresolved previous.id = none)
    (h : s.takeLanding request expires now (s.byScope (.landing request.reference)) =
      .ok (next, fence)) :
    Change digests s now (.acquireLanding guard request) (.fence fence) next := by
  obtain ⟨_, raised, h⟩ := bind_eq_ok.1 h
  obtain ⟨saved, save, h⟩ := bind_eq_ok.1 h
  cases h
  obtain ⟨lease, leased, save⟩ := saveLanding_ok save
  cases leased
  have agrees : ∀ counter, s.counter? (.landing request.reference) = some counter →
      counter.id = ((s.byScope (.landing request.reference)).map (·.id)).getD request.id := by
    intro counter counted
    rw [Store.byScope, counted, map_some, map_some, getD_some]
  have written := written_of_save linked save agrees
  refine .landingTaken rfl ?_ rfl ?_ rfl ?_ written
  · exact taken_of_previous linked (fun previous found => (free previous found).1) raised rfl rfl
      rfl written.unshared
  · exact ⟨rfl, rfl, rfl, rfl, rfl⟩
  · change s.counter? (.landing request.reference) = none ∨
      s.unresolved (((s.byScope (.landing request.reference)).map (·.id)).getD _) = none
    cases found : s.byScope (.landing request.reference) with
    | none => exact .inl (map_eq_none_iff.1 found)
    | some previous => exact .inr (free previous found).2

lemma change_of_acquireLanding {request : LandingRequest} (linked : Linked s)
    (h : s.acquireLanding guard request now = .ok (next, fence)) :
    Change digests s now (.acquireLanding guard request) (.fence fence) next := by
  obtain ⟨⟨⟩, -, h⟩ := bind_eq_ok.1 h
  obtain ⟨⟨⟩, -, h⟩ := bind_eq_ok.1 h
  obtain ⟨_, -, h⟩ := bind_eq_ok.1 h
  split at h
  next absent =>
    rw [← absent] at h
    exact change_of_takeLanding linked (by rw [absent]; nofun) h
  next previous found =>
    split at h
    next own =>
      simp only [Option.any_eq_true, Bool.and_eq_true, decide_eq_true_eq] at own
      obtain ⟨lease, held, same⟩ := own
      obtain ⟨row, current⟩ := current_of_previous found held same
      unfold Store.reacquire at h
      split at h
      · split at h
        · cases h
        · cases h
          exact .again rfl current
      · cases h
    · split at h
      · cases h
      next resolved =>
        split at h
        · cases h
        next free =>
          rw [← found] at h
          refine change_of_takeLanding linked (fun other same => ?_) h
          rw [found] at same
          cases same
          exact ⟨not_isSome_iff_eq_none.1 free, resolved⟩

lemma change_of_changeLanding (sound : Sound digests s)
    (h : s.changeLanding guard fence lease now = .ok next) :
    Change digests s now op .done next := by
  obtain ⟨landing, found, h⟩ := bind_eq_ok.1 h
  obtain ⟨⟨⟩, resolved, h⟩ := bind_eq_ok.1 h
  obtain ⟨_, _, save⟩ := bind_eq_ok.1 h
  obtain ⟨stored, leased, save⟩ := saveLanding_ok save
  obtain ⟨old, found, fenced, was⟩ := landingFence_ok found
  obtain ⟨-, same, -⟩ := fenced_spec fenced
  have fits := sound.fits _ _ found
  simp only [Fits, was] at fits
  obtain ⟨key, named, generation, -, -⟩ := fits
  have id : landing.id = fence.id := named.trans (key_of_find found)
  have columns := leaseOf_ok leased
  have carried : ∀ l, stored = some l → l.holder = fence.actor ∧ l.token = fence.token := by
    rintro l rfl
    obtain ⟨holder, token, -⟩ := columns
    obtain ⟨-, -, holder⟩ := map_eq_some_iff.1 holder
    obtain ⟨-, -, token⟩ := map_eq_some_iff.1 token
    exact ⟨holder.symm, token.symm⟩
  have kept := kept_of_fenced found fenced key.symm carried
  rw [id, generation, same] at save
  refine .landingChanged (kept _) was rfl ?_ ?_ ?_
    (written_of_save sound.toLinked save ((kept _).agrees sound.toLinked))
  · exact ⟨rfl, rfl, rfl, columns.1, columns.2.2⟩
  · exact ⟨rfl, rfl, rfl⟩
  · rintro rfl
    cases lease with
    | some _ => cases columns.1
    | none =>
      unfold Store.checkResolved at resolved
      split at resolved
      · cases resolved
      next other =>
        exact eq_none_iff_forall_ne_some.2 fun operation => other operation rfl

variable {operation : PushOperation K}

lemma change_of_preparePush {id remote : Text} (sound : Sound digests s)
    (h : s.preparePush digests guard fence id remote now = .ok (next, operation)) :
    Change digests s now (.preparePush guard fence id remote) (.push operation) next := by
  obtain ⟨⟨⟩, -, h⟩ := bind_eq_ok.1 h
  obtain ⟨landing, found, h⟩ := bind_eq_ok.1 h
  obtain ⟨⟨⟩, only, h⟩ := bind_eq_ok.1 h
  obtain ⟨_, -, h⟩ := bind_eq_ok.1 h
  split at h
  · split at h
    · cases h
      exact .preparedAgain
    · cases h
  next absent =>
    obtain ⟨saved, save, h⟩ := bind_eq_ok.1 h
    cases h
    obtain ⟨stored, leased, save⟩ := saveLanding_ok save
    obtain ⟨old, found, fenced, was⟩ := landingFence_ok found
    obtain ⟨-, same, _, held, holder, token, -⟩ := fenced_spec fenced
    have fits := sound.fits _ _ found
    simp only [Fits, was] at fits
    obtain ⟨key, named, generation, holds, ends⟩ := fits
    have name : landing.id = fence.id := named.trans (key_of_find found)
    -- The columns of the lease are those the row has.
    have is : stored = old.lease := by
      rw [held] at holds ends
      rw [holds, ends, ← token] at leased
      cases leased
      exact held.symm
    subst is
    have carried : ∀ l, old.lease = some l → l.holder = fence.actor ∧ l.token = fence.token := by
      rintro l is
      rw [held] at is
      cases is
      exact ⟨holder, token⟩
    have kept := kept_of_fenced found fenced key.symm carried
    rw [← name, ← same, ← generation] at kept
    dsimp only [Store.saveOperation] at save
    rw [absent, if_neg (by simp)] at save
    have agrees := fun record => (kept record).agrees sound.toLinked
    refine .prepared fenced (kept _) was rfl ?_ rfl name.symm (demand_ok only) absent
      ⟨rfl, rfl, rfl, rfl⟩ (written_of_save (sound.toLinked.operations _) save (agrees _))
    exact ⟨rfl, rfl, rfl, holds, ends⟩

lemma change_of_changePush {id : Text} {action : PushAction}
    (h : s.changePush guard fence id action now = .ok (next, operation)) :
    Change digests s now (.changePush guard fence id action) (.push operation) next := by
  obtain ⟨_, found, h⟩ := bind_eq_ok.1 h
  obtain ⟨row, found, fenced, record⟩ := landingFence_ok found
  split at h
  · cases h
  next stored =>
    split at h
    · cases h
    next own =>
      simp only [ne_eq, not_or, not_not] at own
      obtain ⟨named, claim, generation, actor⟩ := own
      split at h
      · cases h
      next moves =>
        cases h
        exact .pushChanged found fenced record stored named claim generation actor moves

/-- Every accepted operation is one of the listed changes. -/
theorem change_of_apply {reply : Reply K} (sound : Sound digests s)
    (h : s.apply digests op now = .ok (next, reply)) : Change digests s now op reply next := by
  unfold Store.apply at h
  split at h <;> obtain ⟨_, ok, eq⟩ := map_eq_ok h <;> cases eq
  · exact change_of_acquireClaim sound.toLinked ok
  · exact change_of_changeClaim sound ok
  · exact change_of_changeClaim sound ok
  · exact change_of_acquireLanding sound.toLinked ok
  · exact change_of_changeLanding sound ok
  · exact change_of_changeLanding sound ok
  · exact change_of_preparePush sound ok
  · exact change_of_changePush ok

end Inversions

end Provenant.Fabric

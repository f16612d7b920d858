import Provenant.Data.Fallible
import Provenant.Data.Keyed
import Provenant.Data.Numbered
import Provenant.Data.SlashPath

/-!
# Claims on work and landings

The store of a project keeps claims: on an issue, on paths, on a worktree, and on the landing of a
branch. A claim has a counter that is never reset, and while it is held a lease with a holder, a
token and an expiry. The holder proves itself with a fence: the claim, the holder, the generation of
the counter and the token. A landing has push operations, each frozen when it is prepared and moved
through its phases under the fence.

This file has the tables and the operations of both kinds of claims, each one a transaction.

## Main definitions

* `Fabric.Store` — the tables.
* `Fabric.Store.byScope`, `Fabric.Store.byFence`, `Fabric.Store.saveClaim` — the parts shared by
  both kinds.
* `Fabric.Store.acquireClaim`, `Fabric.Store.changeClaim` — claims on work.
* `Fabric.Store.acquireLanding`, `Fabric.Store.changeLanding`, `Fabric.Store.preparePush`,
  `Fabric.Store.changePush` — landings.

## Implementation notes

The store is that of one project: every query names it. A holder, a token and an expiry are stored
together or not at all, as the table demands. A scope key is the digest of a scope of work, of a type
left open, or the name of a branch. Paths are canonical, so that resolving them changes nothing. The
unknown fields of requests and records, the events, the guard's lock file and the decoding of stored
records are left out. Each operation takes the time it reads inside its transaction.
-/

namespace Provenant.Fabric

open Json Fallible SlashPath

/-! ### Rows -/

/-- `WorkScope`. -/
inductive WorkScope
  | issue (key : Text)
  | paths (paths : List Path)
  | worktree (path : Path)
  deriving DecidableEq

/-- What a claim is on: the kind and the key of its scope. -/
inductive ScopeKey (K : Type)
  | work (digest : K)
  | landing (reference : Text)
  deriving DecidableEq

/-- `ClaimFence`. -/
structure ClaimFence where
  id : Text
  actor : Text
  generation : Nat
  token : Text
  deriving DecidableEq

/-- The columns of a claim that is held. -/
structure Lease where
  holder : Text
  token : Text
  expires : Int
  deriving DecidableEq

/-- `WorkClaim`. -/
structure WorkClaim where
  id : Text
  scope : WorkScope
  holder : Option Text
  generation : Nat
  expiresAt : Option Int
  updatedAt : Int
  deriving DecidableEq

/-- `GitOid`. -/
inductive GitOid
  | sha1 (bytes : Text)
  | sha256 (bytes : Text)
  deriving DecidableEq

/-- The hash of an object ID. -/
def GitOid.algorithm : GitOid → Nat
  | .sha1 _ => 1
  | .sha256 _ => 256

/-- `Landing`. -/
structure Landing where
  id : Text
  reference : Text
  expected : GitOid
  candidate : GitOid
  holder : Option Text
  generation : Nat
  expiresAt : Option Int
  operation : Option Text
  updatedAt : Int
  deriving DecidableEq

/-- The record of a claim. -/
inductive ClaimRecord
  | work (claim : WorkClaim)
  | landing (landing : Landing)
  deriving DecidableEq

/-- A row of `claims`. -/
structure ClaimRow (K : Type) where
  id : Text
  key : ScopeKey K
  generation : Nat
  lease : Option Lease
  record : ClaimRecord

/-- A row of `claim_counters`. -/
structure Counter (K : Type) where
  key : ScopeKey K
  id : Text
  generation : Nat

/-- `PushPhase`. -/
inductive PushPhase
  | prepared
  | pushing
  | unknown
  | committed
  | retryable
  | conflict
  deriving DecidableEq

/-- `PushAction`. -/
inductive PushAction
  | begin
  | uncertain
  | confirmed
  | reconcile (remote : Option GitOid)
  deriving DecidableEq

/-- `PushRequest`. -/
structure PushRequest where
  claim : Text
  actor : Text
  generation : Nat
  reference : Text
  expected : GitOid
  candidate : GitOid
  remote : Text
  deriving DecidableEq

/-- `PushOperation`, with digests of a given type. -/
structure PushOperation (K : Type) where
  id : Text
  digest : K
  request : PushRequest
  phase : PushPhase
  observedRemote : Option GitOid
  updatedAt : Int

/-- `Error`, as far as these operations return it. -/
inductive Error
  | invalid (what : Text)
  | time
  | canonical
  | decode
  | constraint
  | conflict
  | staleFence
  | notFound
  | overlap (claim : Text)
  | pushUnresolved (operation : Text)
  | pushTransition (phase : PushPhase) (action : PushAction)
  deriving DecidableEq

/-- The tables. A counter outlives the claim of its scope, so that a pruned scope does not give
out a generation again. -/
structure Store (K : Type) where
  counters : List (Counter K)
  claims : List (ClaimRow K)
  /-- `claim_paths`: a claim and the text of a path. -/
  paths : List (Text × Text)
  operations : List (PushOperation K)

/-- The store of a new database. -/
def Store.empty {K : Type} : Store K := ⟨[], [], [], []⟩

/-- The digests the store takes from elsewhere; they fail for values without a canonical form. -/
structure Digests (K : Type) where
  scope : WorkScope → Option K
  push : PushRequest → Option K

/-! ### Checks -/

/-- `MAX_BODY_BYTES`. -/
def maxBodyBytes : Nat := 65536

/-- The last instant of `WallTime`, in microseconds. -/
def lastInstant : Int := 253402207200999999

/-- `lease_expiry`. -/
def leaseExpiry (now : Int) (lease : Nat) : Except Error Int :=
  if ¬ (1000000 ≤ lease ∧ lease ≤ 3600000000) then .error (.invalid (text "lease duration"))
  else if lastInstant < now + lease then .error .time
  else .ok (now + lease)

/-- The paths of a scope. -/
def WorkScope.all : WorkScope → List Path
  | .issue _ => []
  | .paths list => list
  | .worktree path => [path]

/-- The order of paths, component by component. -/
def pathLe (p q : Path) : Bool := p.map (·.1) ≤ q.map (·.1)

/-- `canonical_path` for a path that is canonical. -/
def checkPath (p : Path) : Except Error Unit :=
  demand ((spell p).length ≤ 4096) (.invalid (text "claim path length"))

/-- `WorkScope::canonical`. -/
def WorkScope.canonical : WorkScope → Except Error WorkScope
  | .issue key => do
    demand (!key.isEmpty && key.length ≤ maxBodyBytes && !key.contains 0)
      (.invalid (text "issue key"))
    .ok (.issue key)
  | .paths list => do
    demand (!list.isEmpty && list.length ≤ 100) (.invalid (text "claim paths"))
    list.forM checkPath
    .ok (.paths (list.mergeSort pathLe).dedup)
  | .worktree path => do
    checkPath path
    .ok (.worktree path)

/-! ### The parts shared by both kinds -/

/-- The kinds of claims. -/
inductive ClaimKind
  | work
  | landing
  deriving DecidableEq

/-- The kind of a scope. -/
def ScopeKey.kind {K : Type} : ScopeKey K → ClaimKind
  | .work _ => .work
  | .landing _ => .landing

/-- `StoredClaim`, as a lookup by scope returns it: a pruned claim has its counter only. -/
structure StoredClaim where
  id : Text
  generation : Nat
  lease : Option Lease
  record : Option ClaimRecord

/-- The lease, if it has not expired. -/
def StoredClaim.heldAt (claim : StoredClaim) (now : Int) : Option Lease :=
  claim.lease.filter fun lease => now < lease.expires

/-- `next_generation`. -/
def nextGeneration (previous : Option StoredClaim) : Except Error Nat :=
  let next := (previous.map (·.generation)).getD 0 + 1
  if next < 2 ^ 63 then .ok next else .error (.invalid (text "claim generation"))

namespace Store

variable {K : Type} [DecidableEq K] (s : Store K)

/-- The counter of a scope. -/
def counter? (key : ScopeKey K) : Option (Counter K) := Keyed.find (·.key) key s.counters

/-- The row of a claim. -/
def claim? (id : Text) : Option (ClaimRow K) := Keyed.find (·.id) id s.claims

/-- The row of a push operation. -/
def operation? (id : Text) : Option (PushOperation K) := Keyed.find (·.id) id s.operations

/-- `by_scope`. -/
def byScope (key : ScopeKey K) : Option StoredClaim :=
  (s.counter? key).map fun counter =>
    { id := counter.id
      generation := counter.generation
      lease := (s.claim? counter.id).bind (·.lease)
      record := (s.claim? counter.id).map (·.record) }

/-- The row carries the fence, and its lease has not expired if a time is given. -/
def fenced (row : ClaimRow K) (fence : ClaimFence) (kind : ClaimKind) (live : Option Int) : Bool :=
  row.key.kind = kind && row.generation = fence.generation &&
    row.lease.any fun lease =>
      lease.holder = fence.actor && lease.token = fence.token &&
        live.all fun now => now < lease.expires

/-- `by_fence`. -/
def byFence (fence : ClaimFence) (kind : ClaimKind) (live : Option Int) :
    Except Error (ClaimRow K) :=
  match s.claim? fence.id with
  | none => .error .staleFence
  | some row => if fenced row fence kind live then .ok row else .error .staleFence

/-- The counter of a scope after a write: a scope keeps the claim it has. -/
def countClaim (row : ClaimRow K) : List (Counter K) :=
  match s.counter? row.key with
  | some counter => Keyed.update (·.key) { counter with generation := row.generation } s.counters
  | none => s.counters ++ [⟨row.key, row.id, row.generation⟩]

/-- The row of a claim after a write: a claim keeps its scope. -/
def putClaim (row : ClaimRow K) : List (ClaimRow K) :=
  match s.claim? row.id with
  | some old => Keyed.update (·.id) { row with key := old.key } s.claims
  | none => s.claims ++ [row]

/-- `save_claim`. -/
def saveClaim (row : ClaimRow K) : Except Error (Store K) := do
  demand (row.generation < 2 ^ 63) (.invalid (text "claim generation"))
  demand (!s.counters.any fun counter => counter.id = row.id && counter.key ≠ row.key) .conflict
  .ok { s with counters := s.countClaim row, claims := s.putClaim row }

/-- The claim is held at a time. -/
def isHeld (now : Int) (id : Text) : Bool :=
  (s.claim? id).any fun row => row.lease.any fun lease => now < lease.expires

/-- `overlapping_path`: a held claim on a path below, or on the path or one above. -/
def overlappingPath (now : Int) (p : Path) : Option Text :=
  match s.paths.find? fun row =>
      (below p).1 ≤ row.2 && row.2 < (below p).2 && s.isHeld now row.1 with
  | some row => some row.1
  | none => (ancestors p).findSome? fun ancestor =>
    (s.paths.find? fun row => row.2 = spell ancestor && s.isHeld now row.1).map (·.1)

/-- The claims `prune_released` deletes: the first hundred that are released and have no push
operations. -/
def released : List Text :=
  (((s.claims.filter fun row => row.lease.isNone &&
    !s.operations.any fun operation => operation.request.claim = row.id).map (·.id)).mergeSort
      fun a b => decide (a ≤ b)).take 100

/-- `prune_released`. -/
def pruneReleased : Store K :=
  { s with
    paths := s.paths.filter fun row => !s.released.contains row.1
    claims := s.claims.filter fun row => !s.released.contains row.id }

end Store

/-! ### Claims on work -/

/-- `ClaimRequest`. -/
structure ClaimRequest where
  id : Text
  actor : Text
  token : Text
  lease : Nat
  scope : WorkScope

/-- The value of a digest. -/
def digestOf {K : Type} : Option K → Except Error K
  | some digest => .ok digest
  | none => .error .canonical

namespace Store

variable {K : Type} [DecidableEq K] (s : Store K) (digests : Digests K)

/-- The paths of a claim added. -/
def addPaths (id : Text) (paths : List Path) : Store K :=
  { s with paths := (paths.map fun p => (id, spell p)) ∪ s.paths }

/-- The part of `acquire_claim` that takes a claim that is not held. -/
def takeClaim (request : ClaimRequest) (key : K) (scope : WorkScope) (expires now : Int)
    (previous : Option StoredClaim) : Except Error (Store K × ClaimFence) :=
  match scope.all.findSome? (s.overlappingPath now) with
  | some claim => .error (.overlap claim)
  | none => do
    let generation ← nextGeneration previous
    let id := (previous.map (·.id)).getD request.id
    let saved ← s.pruneReleased.saveClaim
      { id := id
        key := .work key
        generation := generation
        lease := some ⟨request.actor, request.token, expires⟩
        record := .work ⟨id, scope, some request.actor, generation, some expires, now⟩ }
    .ok (saved.addPaths id scope.all, ⟨id, request.actor, generation, request.token⟩)

/-- `acquire_claim`. -/
def acquireClaim (request : ClaimRequest) (now : Int) : Except Error (Store K × ClaimFence) := do
  let scope ← request.scope.canonical
  let key ← digestOf (digests.scope scope)
  let expires ← leaseExpiry now request.lease
  match s.byScope (.work key) with
  | none => s.takeClaim request key scope expires now none
  | some previous =>
    match previous.heldAt now with
    | none => s.takeClaim request key scope expires now (some previous)
    | some lease =>
      if lease.holder = request.actor ∧ lease.token = request.token then
        .ok (s, ⟨previous.id, request.actor, previous.generation, request.token⟩)
      else .error (.overlap previous.id)

/-- The new expiry of a claim: none when it is released. -/
def newExpiry (now : Int) : Option Nat → Except Error (Option Int)
  | none => .ok none
  | some lease => (leaseExpiry now lease).map some

/-- `change_claim`: a renewal with a lease, a release without one. -/
def changeClaim (fence : ClaimFence) (lease : Option Nat) (now : Int) : Except Error (Store K) := do
  let row ← s.byFence fence .work (lease.map fun _ => now)
  match row.record with
  | .landing _ => .error .decode
  | .work claim => do
    let expires ← newExpiry now lease
    let key ← digestOf (digests.scope claim.scope)
    s.saveClaim
      { id := fence.id
        key := .work key
        generation := fence.generation
        lease := expires.map fun expires => ⟨fence.actor, fence.token, expires⟩
        record := .work { claim with
          expiresAt := expires, holder := lease.map fun _ => fence.actor, updatedAt := now } }

/-- `verify_claim`, without the decoding of the record. -/
def verifyClaim (fence : ClaimFence) (now : Int) : Except Error (ClaimRow K) :=
  s.byFence fence .work (some now)

end Store

/-! ### Landings -/

/-- `LandingRequest`. -/
structure LandingRequest where
  id : Text
  actor : Text
  token : Text
  reference : Text
  expected : GitOid
  candidate : GitOid
  lease : Nat

/-- The columns of a lease are set together or not at all. -/
def leaseOf : Option Text → Option Text → Option Int → Except Error (Option Lease)
  | some holder, some token, some expires => .ok (some ⟨holder, token, expires⟩)
  | none, none, none => .ok none
  | _, _, _ => .error .constraint

/-- The push may have reached the remote. -/
def PushPhase.unresolved : PushPhase → Bool
  | .pushing => true
  | .unknown => true
  | _ => false

/-- The remote of a push: no option, no query, no credentials. -/
def remoteAccepted (remote : Text) : Bool :=
  !remote.isEmpty && remote.length ≤ 4096 && remote.head? ≠ some 45 &&
    !remote.any (fun b => b < 32 || b = 127) && !remote.contains 63 && !remote.contains 35 &&
    !(splitOnce (text "://") remote).any fun parts =>
      (parts.2.takeWhile (· ≠ 47)).contains 64

/-- The phase after an action, if there is one. -/
def nextPhase (request : PushRequest) : PushPhase → PushAction → Option PushPhase
  | .prepared, .begin => some .pushing
  | .retryable, .begin => some .pushing
  | .pushing, .uncertain => some .unknown
  | .pushing, .confirmed => some .committed
  | .pushing, .reconcile remote => some (reconciled remote)
  | .unknown, .reconcile remote => some (reconciled remote)
  | _, _ => none
where
  /-- The phase an observation of the remote leads to. -/
  reconciled : Option GitOid → PushPhase
    | none => .unknown
    | some oid =>
      if oid = request.candidate then .committed
      else if oid = request.expected then .retryable
      else .conflict

/-- The remote that is known after an action. -/
def observed (request : PushRequest) (before : Option GitOid) : PushAction → Option GitOid
  | .begin => none
  | .uncertain => before
  | .confirmed => some request.candidate
  | .reconcile remote => remote

namespace Store

variable {K : Type} [DecidableEq K] (s : Store K) (digests : Digests K)

/-- `unresolved`: an operation of a claim that may have reached the remote. -/
def unresolved (id : Text) : Option Text :=
  (s.operations.find? fun operation =>
    operation.request.claim = id && operation.phase.unresolved).map (·.id)

/-- `landing_fence`. -/
def landingFence (reference : Text) (fence : ClaimFence) (live : Option Int) :
    Except Error Landing := do
  let row ← s.byFence fence .landing live
  match row.record with
  | .work _ => .error .decode
  | .landing landing =>
    if landing.reference ≠ reference ∨ landing.id ≠ fence.id then .error .staleFence
    else .ok landing

/-- `save_landing`. -/
def saveLanding (landing : Landing) (token : Option Text) : Except Error (Store K) := do
  let lease ← leaseOf landing.holder token landing.expiresAt
  s.saveClaim
    { id := landing.id
      key := .landing landing.reference
      generation := landing.generation
      lease := lease
      record := .landing landing }

/-- The part of `acquire_landing` that takes a landing that is not held. -/
def takeLanding (request : LandingRequest) (expires now : Int) (previous : Option StoredClaim) :
    Except Error (Store K × ClaimFence) := do
  let generation ← nextGeneration previous
  let id := (previous.map (·.id)).getD request.id
  let saved ← s.saveLanding
    { id := id
      reference := request.reference
      expected := request.expected
      candidate := request.candidate
      holder := some request.actor
      generation := generation
      expiresAt := some expires
      operation := none
      updatedAt := now } (some request.token)
  .ok (saved, ⟨id, request.actor, generation, request.token⟩)

/-- A landing that its holder acquires again, with the same commits. -/
def reacquire (request : LandingRequest) (previous : StoredClaim) :
    Except Error (Store K × ClaimFence) :=
  match previous.record with
  | some (.landing landing) =>
    if landing.expected ≠ request.expected ∨ landing.candidate ≠ request.candidate then
      .error .conflict
    else .ok (s, ⟨previous.id, request.actor, previous.generation, request.token⟩)
  | _ => .error .decode

/-- `acquire_landing`, under the guard of a branch. -/
def acquireLanding (guard : Text) (request : LandingRequest) (now : Int) :
    Except Error (Store K × ClaimFence) := do
  demand (request.reference = guard) (.invalid (text "landing lock scope"))
  demand (request.expected.algorithm = request.candidate.algorithm &&
    request.expected ≠ request.candidate) (.invalid (text "landing OIDs"))
  let expires ← leaseExpiry now request.lease
  match s.byScope (.landing request.reference) with
  | none => s.takeLanding request expires now none
  | some previous =>
    if (previous.heldAt now).any fun lease =>
        lease.holder = request.actor && lease.token = request.token then
      s.reacquire request previous
    else
      match s.unresolved previous.id with
      | some operation => .error (.pushUnresolved operation)
      | none =>
        if (previous.heldAt now).isSome then .error .conflict
        else s.takeLanding request expires now (some previous)

/-- A release needs that no push is unresolved. -/
def checkResolved (fence : ClaimFence) (lease : Option Nat) : Except Error Unit :=
  match lease, s.unresolved fence.id with
  | none, some operation => .error (.pushUnresolved operation)
  | _, _ => .ok ()

/-- `change_landing`: a renewal with a lease, a release without one. -/
def changeLanding (guard : Text) (fence : ClaimFence) (lease : Option Nat) (now : Int) :
    Except Error (Store K) := do
  let landing ← s.landingFence guard fence (lease.map fun _ => now)
  s.checkResolved fence lease
  let expires ← newExpiry now lease
  s.saveLanding { landing with
    updatedAt := now, expiresAt := expires, holder := lease.map fun _ => fence.actor }
    (lease.map fun _ => fence.token)

/-- `save_operation`. -/
def saveOperation (operation : PushOperation K) : Store K :=
  { s with operations :=
      if (s.operation? operation.id).isSome then Keyed.update (·.id) operation s.operations
      else s.operations ++ [operation] }

/-- The part of `prepare_push` for an operation that is not stored yet. -/
def prepareNew (landing : Landing) (fence : ClaimFence) (id : Text) (frozen : PushRequest)
    (digest : K) (now : Int) : Except Error (Store K × PushOperation K) := do
  let operation : PushOperation K := ⟨id, digest, frozen, .prepared, none, now⟩
  let saved ← (s.saveOperation operation).saveLanding
    { landing with operation := some id, updatedAt := now } (some fence.token)
  .ok (saved, operation)

/-- What `prepare_push` freezes. -/
def frozenRequest (landing : Landing) (fence : ClaimFence) (remote : Text) : PushRequest where
  claim := fence.id
  actor := fence.actor
  generation := fence.generation
  reference := landing.reference
  expected := landing.expected
  candidate := landing.candidate
  remote := remote

/-- `prepare_push`. -/
def preparePush (guard : Text) (fence : ClaimFence) (id remote : Text) (now : Int) :
    Except Error (Store K × PushOperation K) := do
  demand (remoteAccepted remote) (.invalid (text "push remote"))
  let landing ← s.landingFence guard fence (some now)
  demand (landing.operation.all (· = id)) .conflict
  let digest ← digestOf (digests.push (frozenRequest landing fence remote))
  match s.operation? id with
  | some old => if old.digest = digest then .ok (s, old) else .error .conflict
  | none => s.prepareNew landing fence id (frozenRequest landing fence remote) digest now

/-- The live check of `change_push`: only the beginning of a push needs it. -/
def liveFor (action : PushAction) (now : Int) : Option Int :=
  if action = .begin then some now else none

/-- `change_push`. -/
def changePush (guard : Text) (fence : ClaimFence) (id : Text) (action : PushAction) (now : Int) :
    Except Error (Store K × PushOperation K) := do
  let landing ← s.landingFence guard fence (liveFor action now)
  match s.operation? id with
  | none => .error .notFound
  | some operation =>
    if landing.operation ≠ some id ∨ operation.request.claim ≠ fence.id ∨
        operation.request.generation ≠ fence.generation ∨
        operation.request.actor ≠ fence.actor then
      .error .staleFence
    else
      match nextPhase operation.request operation.phase action with
      | none => .error (.pushTransition operation.phase action)
      | some phase =>
        let changed := { operation with
          phase := phase
          observedRemote := observed operation.request operation.observedRemote action
          updatedAt := now }
        .ok (s.saveOperation changed, changed)

end Store

end Provenant.Fabric

import Provenant.Data.Fallible
import Provenant.Graph.Driver

/-!
# The disposition of a failed launch

A launch can fail before the host accepts it. The row of its node is then disposed of: after a
transient failure it waits for another launch of the same attempt, within a limit and a
deadline; after a permanent one it is blocked, and the host is asked whether it can prove that
nothing was launched. The proof is meant to let a later redo reset the row although its attempt
never ended.

## Main definitions

* `launchRetryKind` — the failures that are worth another launch.
* `applyLaunchDisposition`, `launchDisposition` — what a failed launch leaves in the checkpoint.
* `applyLaunchDispositionInPlace` — the same with the checkpoint that a refusal leaves behind.
* `AwaitsHandoff` — the row of a launch that was recorded and not answered.
* `disposals` — the failures of a sequence that are disposed of.

## Main results

* `step_launchDisposition` — a disposition is a step of the driver.
* `AwaitsHandoff.launchDispositions` — no disposition withdraws the record of the launch.
* `refusal_not_retryable` — a launch that the host proved never started cannot be redone.
* `launch_retry_rules` — the retries of a launch end, and are due within their deadline.

## Implementation notes

`safe_text` escapes terminal controls, which identifiers do not have, so only its bound on the
length is left of it here.
-/

namespace Provenant.Graph

open GraphCheckpoint

open Json (Text text)

/-! ### Launch errors -/

/-- The errors of the run facade that the scheduler tells apart. -/
inductive FacadeError
  | busy | writerLockBusy | writerUnknown | timeout | homeUnavailable | io | dispatchUnobserved
  | hostDeliveryStage | hostDeliveryLimit | launchUnknown | other
  deriving DecidableEq

/-- The cause that an error is classified by. -/
inductive RetryCause
  | contention | timeout | transport | permanent
  deriving DecidableEq

/-- `is_transient`. -/
def RetryCause.isTransient : RetryCause → Bool
  | .contention | .timeout | .transport => true
  | .permanent => false

/-- What an error says to the owner of the graph. -/
structure Diagnostic where
  code : Text
  next : Option Text := none
  detail : Option Text := none
  deriving DecidableEq

/-- An error of a launch: one of the facade's own, or one of another kind. -/
inductive LaunchError
  | facade (error : FacadeError) (diagnostic : Diagnostic)
  | foreign
  deriving DecidableEq

/-- The cause of a launch error. -/
def LaunchError.cause : LaunchError → RetryCause
  | .facade .busy _ | .facade .writerLockBusy _ | .facade .writerUnknown _ => .contention
  | .facade .timeout _ => .timeout
  | .facade .homeUnavailable _ | .facade .io _ | .facade .dispatchUnobserved _
  | .facade .hostDeliveryStage _ | .facade .hostDeliveryLimit _ | .facade .launchUnknown _ =>
    .transport
  | .facade .other _ | .foreign => .permanent

/-- `launch_retry_kind`: the error is worth another launch. -/
def launchRetryKind (error : LaunchError) : Bool := error.cause.isTransient

/-- `launch_diagnostic`. -/
def launchDiagnostic : LaunchError → Diagnostic
  | .facade _ diagnostic => diagnostic
  | .foreign => { code := text "launch_failed" }

/-- What the host knows about a failed launch. -/
structure LaunchFailure where
  error : LaunchError
  clock : Option Nat
  admissionSeconds : Nat
  policy : LaunchRetryPolicy
  /-- The owner could prove that the launch was refused before it was accepted. -/
  refused : Bool

/-! ### Retry timing -/

/-- The number of bytes that an error of a row may have. -/
def maxAdvanceErrorBytes : Nat := 2048

/-- The last instant that a wall time can hold, in microseconds. -/
def maxWallTime : Nat := 253402207200999999

/-- The instant some seconds later, unless the sum is out of range. -/
def addSeconds (now seconds : Nat) : Option Nat :=
  if seconds * 1000000 < 2 ^ 64 ∧ now + seconds * 1000000 ≤ maxWallTime then
    some (now + seconds * 1000000)
  else none

/-- `Backoff::delay` with a factor of two. -/
def backoffDelay (first cap attempt : Nat) : Nat :=
  (fun delay => min (delay * 2) cap)^[attempt] (min first cap)

/-- `bounded_launch_retry_policy`. -/
def boundedPolicy (policy : LaunchRetryPolicy) : LaunchRetryPolicy :=
  { policy with limitSource := bounded policy.limitSource 32 }

/-- Why a launch waits for another one. -/
def retryReason (diagnostic : Diagnostic) : Text :=
  bounded (text "[" ++ diagnostic.code ++ text "] " ++
    diagnostic.next.getD (text "inspect the current state before taking further action") ++
    text "; " ++ diagnostic.detail.getD diagnostic.code) maxAdvanceErrorBytes

/-- The retry of a row after one more transient failure, or why it cannot be recorded. -/
def failedRetry (failure : LaunchFailure) (row : NodeProgress) : Except Text LaunchRetry :=
  match failure.clock with
  | none => .error (text "wall clock unavailable; cannot record a launch retry wake")
  | some now =>
    let retry := row.launchRetry.getD
      { deadline := none, wakeAt := none, policy := boundedPolicy failure.policy }
    match retry.deadline.or (addSeconds now failure.admissionSeconds) with
    | none => .error (text "launch retry deadline unavailable; cannot record a retry wake")
    | some deadline =>
      .ok { retry with
        failures := min (retry.failures + 1) 255
        deadline := some deadline
        reason := some (retryReason (launchDiagnostic failure.error)) }

/-- When the next launch of a retry is due, if there is to be one. -/
def nextLaunch (failure : LaunchFailure) (retry : LaunchRetry) : Option Nat := do
  let now ← failure.clock
  let deadline ← retry.deadline
  guard (now < deadline ∧ retry.failures ≤ retry.policy.limit)
  let delay := backoffDelay retry.policy.firstSeconds
    (max retry.policy.maxSeconds retry.policy.firstSeconds) (retry.failures - 1)
  return ((addSeconds now delay).map fun wake => min wake deadline).getD deadline

/-! ### The disposition -/

/-- A byte that needs no quoting on a command line. -/
def plainByte (byte : UInt8) : Bool :=
  (48 ≤ byte && byte ≤ 57) || (65 ≤ byte && byte ≤ 90) || (97 ≤ byte && byte ≤ 122) ||
    byte == 45 || byte == 95

/-- `safe_text` on an identifier. -/
def safeText (id : Text) : Text := id.take 1024

/-- The advice to redo the node, which is given when no attempt of it can be running. -/
def recoveryAdvice (graphId : Text) (error : LaunchError) (row : NodeProgress) : Text :=
  if (match error with | .facade .launchUnknown _ => true | _ => false) ||
      !(row.attempts.filter fun attempt => attempt.state != .terminal).all (·.refusalProof) then []
  else if [graphId, row.id].all fun name => name.all plainByte then
    text "; after correcting the cause, retry with `provenant retry " ++ graphId ++
      text " --node " ++ row.id ++ text "`"
  else
    text "; inspect the graph, then use `provenant retry` with its graph and node selectors"

/-- The row of a launch that is given up. -/
def blockRow (graphId : Text) (error : LaunchError) (row : NodeProgress) : NodeProgress :=
  let diagnostic := launchDiagnostic error
  { row with
    advanceErrorCode := some (if launchRetryKind error then text "launch_retry_exhausted"
      else text "launch_refused")
    advanceOwnerCode := some diagnostic.code
    advanceError := some (bounded (text "node " ++ safeText row.id ++ text ": the launch failed [" ++
      diagnostic.code ++ text "]: " ++
      diagnostic.next.getD (text "inspect the node's inputs and state before retrying") ++
      text "; " ++ diagnostic.detail.getD diagnostic.code ++ recoveryAdvice graphId error row)
      maxAdvanceErrorBytes)
    state := .blocked
    -- the attempt row stays, because cancellation needs its identity and custody
    launchRetry := none
    lastLaunchRetry := if launchRetryKind error then
        row.launchRetry.map fun retry => { retry with wakeAt := none }
      else row.lastLaunchRetry }

/-- The row after a failed launch. -/
def disposeRow (graphId : Text) (failure : LaunchFailure) (row : NodeProgress) :
    Except Text NodeProgress :=
  if launchRetryKind failure.error then do
    let retry ← failedRetry failure row
    match nextLaunch failure retry with
    | some wake => return { row with
        advanceOwnerCode := some (launchDiagnostic failure.error).code
        launchRetry := some { retry with wakeAt := some wake } }
    | none => return blockRow graphId failure.error { row with launchRetry := some retry }
  else .ok (blockRow graphId failure.error row)

/-- `apply_launch_disposition`: the row of a failed launch waits for another launch or is blocked.
A node without a row is passed over. -/
def applyLaunchDisposition (failure : LaunchFailure) (checkpoint : GraphCheckpoint) (id : Text) :
    Except Text GraphCheckpoint :=
  match checkpoint.row? id with
  | none => .ok checkpoint
  | some row =>
    (disposeRow checkpoint.notes.graphId failure row).map fun disposed =>
      refreshWake (checkpoint.update id fun _ => disposed)

/-- Record in the last attempt whether the host proved that it was never launched. -/
def recordProof (proof : Bool) (row : NodeProgress) : NodeProgress :=
  { row with
    attempts := row.attempts.dropLast ++
      row.attempts.getLast?.toList.map fun last => { last with refusalProof := proof } }

/-- `launch_disposition`. -/
def launchDisposition (failure : LaunchFailure) (checkpoint : GraphCheckpoint) (id : Text) :
    Except Text GraphCheckpoint :=
  let proof := !launchRetryKind failure.error && failure.refused
  applyLaunchDisposition failure (checkpoint.update id (recordProof proof)) id

/-! ### What a disposition leaves alone -/

variable {graphId id : Text} {failure : LaunchFailure} {row disposed : NodeProgress}
  {checkpoint after : GraphCheckpoint}

/-- A disposition changes the state, the errors and the launch retry of a row. -/
lemma disposeRow_frame (h : disposeRow graphId failure row = .ok disposed) :
    ∃ state error code owner retry last, disposed = { row with
      state, advanceError := error, advanceErrorCode := code, advanceOwnerCode := owner,
      launchRetry := retry, lastLaunchRetry := last } := by
  unfold disposeRow at h
  split at h
  · cases retried : failedRetry failure row with
    | error _ => rw [retried] at h; cases h
    | ok _ =>
      rw [retried] at h
      dsimp only [bind, Except.bind] at h
      split at h <;> cases h <;> exact ⟨_, _, _, _, _, _, rfl⟩
  · cases h; exact ⟨_, _, _, _, _, _, rfl⟩

lemma attempts_disposeRow (h : disposeRow graphId failure row = .ok disposed) :
    disposed.attempts = row.attempts := by
  obtain ⟨_, _, _, _, _, _, rfl⟩ := disposeRow_frame h
  rfl

/-- Recording a proof and disposing of the row keep the identity of the row. -/
lemma keeps_disposeRow {proof : Bool}
    (h : disposeRow graphId failure (recordProof proof row) = .ok disposed) :
    Keeps row disposed := by
  obtain ⟨_, _, _, _, _, _, rfl⟩ := disposeRow_frame h
  refine ⟨rfl, rfl, rfl, rfl, rfl, ?_⟩
  rcases row.attempts.eq_nil_or_concat with empty | ⟨others, last, concat⟩
  · simp [recordProof, empty]
  · simp [recordProof, concat]

/-- A disposition replaces the row of its node, and refreshes the wake of the graph. -/
lemma launchDisposition_ok (found : checkpoint.row? id = some row)
    (h : launchDisposition failure checkpoint id = .ok after) :
    ∃ disposed, disposeRow checkpoint.notes.graphId failure
        (recordProof (!launchRetryKind failure.error && failure.refused) row) = .ok disposed ∧
      after = refreshWake (checkpoint.update id fun _ => disposed) := by
  unfold launchDisposition applyLaunchDisposition at h
  generalize (!launchRetryKind failure.error && failure.refused) = proof at h ⊢
  dsimp only at h
  have marked : (checkpoint.update id (recordProof proof)).row? id = some (recordProof proof row) :=
    row?_update_self (fun _ _ same => same) found
  rw [marked] at h
  change Except.map _ (disposeRow checkpoint.notes.graphId failure (recordProof proof row)) = _ at h
  cases disposal : disposeRow checkpoint.notes.graphId failure (recordProof proof row) with
  | error _ => rw [disposal] at h; cases h
  | ok disposed =>
    rw [disposal] at h
    cases h
    refine ⟨disposed, rfl, ?_⟩
    dsimp only
    rw [update_update (f := recordProof proof) fun _ _ same => same]

/-- The disposed row is found under the identifier of its node. -/
lemma row?_launchDisposition (found : checkpoint.row? id = some row)
    (h : launchDisposition failure checkpoint id = .ok after) :
    ∃ disposed, disposeRow checkpoint.notes.graphId failure
        (recordProof (!launchRetryKind failure.error && failure.refused) row) = .ok disposed ∧
      after.row? id = some disposed := by
  obtain ⟨disposed, disposal, rfl⟩ := launchDisposition_ok found h
  have named : disposed.id = id := (keeps_disposeRow disposal).id.trans (id_of_row? found)
  exact ⟨disposed, disposal, row?_update_self (fun _ _ _ => named) found⟩

/-- The disposition of a failed launch is a step of the driver, which leaves the attempt loop of
the node. -/
theorem step_launchDisposition {document : GraphDocument} {policy : ReviewPolicy}
    {s s' : Driver document} {index : Nat} {node : GraphNode}
    (attempting : Attempting s index node row)
    (disposed : launchDisposition failure s.checkpoint node.id = .ok s'.checkpoint)
    (plan : s'.plan = s.plan) (phase : s'.phase = .visiting (index + 1))
    (begun : s'.begun = s.begun) : Step policy (.attempt node.id) s s' := by
  obtain ⟨row', disposal, result⟩ := launchDisposition_ok attempting.row disposed
  refine .leave attempting (keeps_disposeRow disposal) ⟨plan, ?_, phase, begun⟩
  rw [result]
  rfl

/-! ### A refused launch -/

/-- The row of a launch that was recorded and not answered: its last attempt is starting, and
counts as launched. -/
def AwaitsHandoff (row : NodeProgress) : Prop :=
  ∃ earlier last, row.attempts = earlier ++ [last] ∧ last.state = .starting ∧ last.launched = true

/-- The record of a launch counts as launched before the host has answered. -/
lemma awaitsHandoff_beginAttempt (node : GraphNode) (key : AttemptKey) (route : GraphRoute)
    (timing : Option LaunchRetry) (row : NodeProgress) :
    AwaitsHandoff (beginAttempt node key route timing row) :=
  ⟨row.attempts, _, rfl, rfl, rfl⟩

/-- A proof does not withdraw the record of a launch. -/
lemma AwaitsHandoff.recordProof (h : AwaitsHandoff row) (proof : Bool) :
    AwaitsHandoff (recordProof proof row) := by
  obtain ⟨earlier, last, attempts, starting, launched⟩ := h
  refine ⟨earlier, { last with refusalProof := proof }, ?_, starting, launched⟩
  simp [Graph.recordProof, attempts]

/-- No disposition withdraws the record of a launch. -/
lemma AwaitsHandoff.launchDisposition (h : AwaitsHandoff row)
    (found : checkpoint.row? id = some row)
    (disposed : launchDisposition failure checkpoint id = .ok after) :
    ∃ row', after.row? id = some row' ∧ AwaitsHandoff row' := by
  obtain ⟨row', disposal, found'⟩ := row?_launchDisposition found disposed
  refine ⟨row', found', ?_⟩
  unfold AwaitsHandoff
  rw [attempts_disposeRow disposal]
  exact h.recordProof _

/-- The launches of one attempt that fail one after the other. -/
def launchDispositions (failures : List LaunchFailure) (checkpoint : GraphCheckpoint) (id : Text) :
    Except Text GraphCheckpoint :=
  failures.foldlM (fun checkpoint failure => launchDisposition failure checkpoint id) checkpoint

/-- However often the launch of an attempt fails, its record stays. -/
lemma AwaitsHandoff.launchDispositions {failures : List LaunchFailure} (h : AwaitsHandoff row)
    (found : checkpoint.row? id = some row)
    (disposed : launchDispositions failures checkpoint id = .ok after) :
    ∃ row', after.row? id = some row' ∧ AwaitsHandoff row' := by
  unfold Graph.launchDispositions at disposed
  induction failures generalizing checkpoint row with
  | nil => cases disposed; exact ⟨row, found, h⟩
  | cons failure _ ih =>
    rw [List.foldlM_cons] at disposed
    cases next : Graph.launchDisposition failure checkpoint id with
    | error _ => rw [next] at disposed; cases disposed
    | ok _ =>
      rw [next] at disposed
      obtain ⟨row', found', h'⟩ := h.launchDisposition found next
      exact ih h' found' disposed

/-- The record of a launch stands in the way of a reset. -/
lemma AwaitsHandoff.not_refusedBeforeLaunch (h : AwaitsHandoff row) :
    refusedBeforeLaunch row = false := by
  obtain ⟨_, _, attempts, starting, launched⟩ := h
  simp [refusedBeforeLaunch, attempts, starting, launched]

lemma AwaitsHandoff.live (h : AwaitsHandoff row) : row.live = true := by
  obtain ⟨_, _, attempts, starting, -⟩ := h
  simp [NodeProgress.live, attempts, starting]

/-- No redo of a node is accepted while its row cannot be reset. -/
lemma retryCandidate_eq_none {document : GraphDocument} (found : checkpoint.row? id = some row)
    (held : resettable row = false) (brief : Option Text) (dependants : Bool) :
    retryCandidate document checkpoint id brief dependants = none := by
  rw [Option.eq_none_iff_forall_ne_some]
  rintro ⟨candidate, node⟩ accepted
  obtain ⟨expanded, target, _, _, redone, -⟩ := retryCandidate_eq_some accepted
  have named : target.id = id := by simpa using List.find?_some redone.found
  have member : row.id ∈ resetIds expanded checkpoint target dependants := by
    rw [id_of_row? found, ← named]
    exact self_mem_resetIds expanded checkpoint target dependants
  have free := redone.resettable row (mem_of_row? found) member
  rw [held] at free
  cases free

/-- A launch that the host proved never started cannot be redone: its row is blocked as refused
and carries the proof, but the record of the launch counts as launched, so the proof is never
accepted and every redo of the node is refused because its attempt is not settled.

**Proof sketch.** Recording an attempt marks it as launched before the host has answered, and no
disposition changes the mark (`AwaitsHandoff.launchDispositions`). The blocked row is therefore
not one that was refused before its launch, and it is not skipped, so it cannot be reset. -/
theorem refusal_not_retryable {checkpoint before after : GraphCheckpoint} {node : GraphNode}
    {key : AttemptKey} {route : GraphRoute} {timing : Option LaunchRetry} {row : NodeProgress}
    {earlier : List LaunchFailure} {last : LaunchFailure}
    (found : checkpoint.row? node.id = some row)
    (failed : launchDispositions earlier
      (checkpoint.update node.id (beginAttempt node key route timing)) node.id = .ok before)
    (disposed : launchDisposition last before node.id = .ok after)
    (permanent : launchRetryKind last.error = false) (refused : last.refused = true) :
    ∃ row', after.row? node.id = some row' ∧ row'.state = .blocked ∧
      row'.advanceErrorCode = some (text "launch_refused") ∧
      row'.attempts.getLast?.any (·.refusalProof) = true ∧
      refusedBeforeLaunch row' = false ∧ resettable row' = false ∧
      ∀ document brief dependants,
        retryCandidate document after node.id brief dependants = none := by
  have begun : (checkpoint.update node.id (beginAttempt node key route timing)).row? node.id =
      some (beginAttempt node key route timing row) :=
    row?_update_self (fun _ _ same => same) found
  obtain ⟨waiting, foundBefore, awaits⟩ :=
    (awaitsHandoff_beginAttempt node key route timing row).launchDispositions begun failed
  obtain ⟨row', disposal, foundAfter⟩ := row?_launchDisposition foundBefore disposed
  have awaits' : AwaitsHandoff row' := by
    unfold AwaitsHandoff
    rw [attempts_disposeRow disposal]
    exact awaits.recordProof _
  have blocked : row' = blockRow before.notes.graphId last.error (recordProof true waiting) := by
    simpa [disposeRow, permanent, refused] using disposal.symm
  have state : row'.state = .blocked := by rw [blocked]; rfl
  have held : resettable row' = false := by
    simp [resettable, awaits'.live, awaits'.not_refusedBeforeLaunch, state]
  refine ⟨row', foundAfter, state, by simp [blocked, blockRow, permanent], ?_,
    awaits'.not_refusedBeforeLaunch, held,
    fun document brief dependants => retryCandidate_eq_none foundAfter held brief dependants⟩
  obtain ⟨_, _, attempts, -, -⟩ := awaits
  simp [blocked, blockRow, recordProof, attempts]

/-! ### A refused launch in a graph of one node -/

/-- A node with one route. -/
def workNode : GraphNode :=
  { id := text "work", routes := [{ adapter := text "codex", account := none }] }

/-- A graph of that node. -/
def workDocument : GraphDocument := { graphId := text "graph", nodes := [workNode] }

/-- The graph before its first launch. -/
def workCheckpoint : GraphCheckpoint := { nodes := [freshRow workNode] }

/-- The identity of the first launch. -/
def workKey : AttemptKey :=
  { graphId := text "graph", nodeId := text "work", routeIndex := 0, retryGeneration := none
    previousAttemptRef := none }

/-- An invalid launch that the host proved was never accepted. -/
def invalidLaunch : LaunchFailure :=
  { error := .facade .other { code := text "invalid_input" }
    clock := some 0
    admissionSeconds := 60
    policy := {}
    refused := true }

/-- The graph after the first launch was recorded. -/
def workBegun : GraphCheckpoint :=
  workCheckpoint.update (text "work")
    (beginAttempt workNode workKey { adapter := text "codex", account := none } none)

/-- The row of the node after its launch was refused. -/
def workRefused : NodeProgress :=
  blockRow [] invalidLaunch.error (recordProof true
    (beginAttempt workNode workKey { adapter := text "codex", account := none } none
      (freshRow workNode)))

lemma launchDisposition_workBegun :
    launchDisposition invalidLaunch workBegun (text "work") = .ok { nodes := [workRefused] } := rfl

/-- The refused launch of the only node of a graph: the row carries the proof and advises a redo,
the redo is refused, and it would be accepted if the attempt did not count as launched. -/
theorem work_refusal_not_retryable :
    launchDisposition invalidLaunch workBegun (text "work") = .ok { nodes := [workRefused] } ∧
      launchRetryKind invalidLaunch.error = false ∧ invalidLaunch.refused = true ∧
      workRefused.attempts.all (·.refusalProof) = true ∧
      refusedBeforeLaunch workRefused = false ∧
      (retryCandidate workDocument { nodes := [workRefused] } (text "work") none true).isNone ∧
      (retryCandidate workDocument
        { nodes := [{ workRefused with
            attempts := workRefused.attempts.map fun attempt => { attempt with launched := false } }] }
        (text "work") none true).isSome := by
  exact ⟨rfl, rfl, rfl, rfl, rfl, rfl, rfl⟩

/-- The general result at that launch. -/
theorem refusal_not_retryable_work :
    launchDisposition invalidLaunch workBegun (text "work") = .ok { nodes := [workRefused] } ∧
      ∃ row', GraphCheckpoint.row? { nodes := [workRefused] } (text "work") = some row' ∧
        refusedBeforeLaunch row' = false := by
  refine ⟨rfl, ?_⟩
  obtain ⟨row', found, -, -, -, unproved, -, -⟩ :=
    @refusal_not_retryable workCheckpoint workBegun _ workNode workKey
      { adapter := text "codex", account := none } none (freshRow workNode) [] invalidLaunch
      rfl rfl launchDisposition_workBegun rfl rfl
  exact ⟨row', found, unproved⟩

/-! ### Transient failures of one launch -/

/-- What a transient failure changes in a row before its deadline is known. -/
def countFailure (failure : LaunchFailure) (row : NodeProgress) : NodeProgress :=
  let retry := row.launchRetry.getD
    { deadline := none, wakeAt := none, policy := boundedPolicy failure.policy }
  { row with
    advanceOwnerCode := some (launchDiagnostic failure.error).code
    launchRetry := some { retry with failures := min (retry.failures + 1) 255 } }

/-- `apply_launch_disposition` in place: its result, and the checkpoint as it leaves it. -/
def applyLaunchDispositionInPlace (failure : LaunchFailure) (checkpoint : GraphCheckpoint)
    (id : Text) : Except Text Unit × GraphCheckpoint :=
  match applyLaunchDisposition failure checkpoint id with
  | .ok after => (.ok (), after)
  | .error message =>
    (.error message,
      -- without a clock nothing was touched; without a deadline the failure was already counted
      if failure.clock.isNone then checkpoint else checkpoint.update id (countFailure failure))

/-- The failures of a sequence that could be disposed of, each with the checkpoint that is saved
after it. A failure that is refused leaves the saved checkpoint as it was. -/
def disposals (id : Text) : GraphCheckpoint → List LaunchFailure →
    List (LaunchFailure × GraphCheckpoint)
  | _, [] => []
  | checkpoint, failure :: rest =>
    match applyLaunchDisposition failure checkpoint id with
    | .ok after => (failure, after) :: disposals id after rest
    | .error _ => disposals id checkpoint rest

/-- The node is blocked. -/
def blockedAt (id : Text) (checkpoint : GraphCheckpoint) : Bool :=
  (checkpoint.row? id).any (·.state == .blocked)

section Transient

variable {retry : LaunchRetry}

/-- A counted failure has a time, and keeps the policy and a deadline that were sealed. -/
lemma failedRetry_ok (h : failedRetry failure row = .ok retry) :
    ∃ now deadline, failure.clock = some now ∧ retry.deadline = some deadline ∧
      (∀ prior ∈ row.launchRetry, ∀ fixed ∈ prior.deadline, deadline = fixed) ∧
      retry.policy = (row.launchRetry.map (·.policy)).getD (boundedPolicy failure.policy) ∧
      retry.failures = min ((row.launchRetry.map (·.failures)).getD 0 + 1) 255 := by
  unfold failedRetry at h
  cases clock : failure.clock with
  | none => rw [clock] at h; cases h
  | some now =>
    rw [clock] at h
    dsimp only at h
    split at h
    · cases h
    next deadline fixed =>
      cases h
      refine ⟨now, deadline, rfl, rfl, fun prior sealedBy fixed' isFixed => ?_, ?_, ?_⟩
      · rw [Option.mem_def.1 sealedBy, Option.getD_some, Option.mem_def.1 isFixed] at fixed
        exact (Option.some.inj fixed).symm
      all_goals cases row.launchRetry <;> rfl

lemma le_of_addSeconds {now seconds later : Nat} (h : addSeconds now seconds = some later) :
    now ≤ later := by
  unfold addSeconds at h
  split at h
  · rw [← Option.some.inj h]
    exact Nat.le_add_right _ _
  · cases h

/-- The next launch is due between the time of the failure and the deadline. -/
lemma nextLaunch_eq_some {now deadline wake : Nat} (clock : failure.clock = some now)
    (fixed : retry.deadline = some deadline) (h : nextLaunch failure retry = some wake) :
    now ≤ wake ∧ wake ≤ deadline ∧ retry.failures ≤ retry.policy.limit := by
  simp only [nextLaunch, clock, fixed, Option.bind_eq_bind, Option.bind_some, guard,
    Option.pure_def] at h
  split at h
  next due =>
    have wake_eq := Option.some.inj h
    subst wake_eq
    refine ⟨?_, ?_, due.2⟩
    · cases later : addSeconds now _ with
      | none => simpa using due.1.le
      | some _ => exact le_min (le_of_addSeconds later) due.1.le
    · cases addSeconds now _ <;> simp
  · cases h

/-- After a transient failure the launch is given up, or it is due again within the deadline and the
limit. -/
lemma disposeRow_transient (transient : launchRetryKind failure.error = true)
    (h : disposeRow graphId failure row = .ok disposed) :
    disposed.state = .blocked ∧ disposed.launchRetry = none ∨
      ∃ now deadline wake retry, failure.clock = some now ∧ disposed.launchRetry = some retry ∧
        retry.wakeAt = some wake ∧ retry.deadline = some deadline ∧ now ≤ wake ∧ wake ≤ deadline ∧
        (∀ prior ∈ row.launchRetry, ∀ fixed ∈ prior.deadline, deadline = fixed) ∧
        retry.policy = (row.launchRetry.map (·.policy)).getD (boundedPolicy failure.policy) ∧
        retry.failures = min ((row.launchRetry.map (·.failures)).getD 0 + 1) 255 ∧
        retry.failures ≤ retry.policy.limit := by
  rw [disposeRow, if_pos transient] at h
  obtain ⟨retry, counted, h⟩ := Fallible.bind_eq_ok.1 h
  obtain ⟨now, deadline, clock, fixed, keeps, policy, failures⟩ := failedRetry_ok counted
  cases due : nextLaunch failure retry with
  | none =>
    rw [due] at h
    cases h
    exact .inl ⟨rfl, rfl⟩
  | some wake =>
    rw [due] at h
    cases h
    obtain ⟨early, late, within⟩ := nextLaunch_eq_some clock fixed due
    exact .inr ⟨now, deadline, wake, _, clock, rfl, rfl, fixed, early, late, keeps, policy, failures,
      within⟩

/-- The disposed row is found under the identifier of its node. -/
lemma row?_applyLaunchDisposition (found : checkpoint.row? id = some row)
    (h : applyLaunchDisposition failure checkpoint id = .ok after) :
    ∃ disposed, disposeRow checkpoint.notes.graphId failure row = .ok disposed ∧
      after.row? id = some disposed := by
  rw [applyLaunchDisposition, found] at h
  obtain ⟨disposed, disposal, rfl⟩ := Fallible.map_eq_ok h
  have named : disposed.id = id := by
    obtain ⟨_, _, _, _, _, _, same⟩ := disposeRow_frame disposal
    rw [same, id_of_row? found]
  exact ⟨disposed, disposal, row?_update_self (fun _ _ _ => named) found⟩

/-- While a node is not blocked, its retry counts the failures and stays within the limit.

**Proof sketch.** Induction on the failures. One that is refused changes nothing. After one that is
disposed of, the count is one higher and still within the limit (`disposeRow_transient`), so that it
has not saturated. -/
lemma count_le_of_unblocked {limit : Nat} (small : limit ≤ 254) {failures : List LaunchFailure}
    (transient : ∀ failure ∈ failures, launchRetryKind failure.error = true ∧
      failure.policy.limit ≤ limit) (found : checkpoint.row? id = some row)
    (within : ∀ retry ∈ row.launchRetry, retry.policy.limit ≤ limit) {count : Nat}
    (reached : count + 1 ≤ (disposals id checkpoint failures).length)
    (unblocked : ∀ entry ∈ (disposals id checkpoint failures).take (count + 1),
      blockedAt id entry.2 = false) :
    (row.launchRetry.map (·.failures)).getD 0 + (count + 1) ≤ limit := by
  induction failures generalizing checkpoint row count with
  | nil => simp [disposals] at reached
  | cons failure rest ih =>
    obtain ⟨kind, configured⟩ := transient failure List.mem_cons_self
    have later := fun other member => transient other (List.mem_cons_of_mem failure member)
    rw [disposals] at reached unblocked
    cases disposal : applyLaunchDisposition failure checkpoint id with
    | error _ =>
      rw [disposal] at reached unblocked
      exact ih later found within reached unblocked
    | ok after =>
      rw [disposal] at reached unblocked
      obtain ⟨_, rowDisposal, found'⟩ := row?_applyLaunchDisposition found disposal
      have running := unblocked (failure, after) List.mem_cons_self
      rw [blockedAt, found'] at running
      rcases disposeRow_transient kind rowDisposal with ⟨blocked, -⟩ | ⟨_, _, _, retry, -, waits, -, -,
        -, -, -, policy, failures, counted⟩
      · simp [blocked] at running
      · have bound : retry.policy.limit ≤ limit := by
          rw [policy]
          cases prior : row.launchRetry with
          | none => exact configured
          | some prior' => exact within prior' prior
        have one : retry.failures = (row.launchRetry.map (·.failures)).getD 0 + 1 := by omega
        cases count with
        | zero => omega
        | succ _ =>
          have rest := ih later found' (fun other same => by
            rw [waits] at same
            cases same
            exact bound) (Nat.le_of_succ_le_succ reached)
            fun entry member => unblocked entry (List.mem_cons_of_mem _ member)
          rw [waits] at rest
          simp only [Option.map_some, Option.getD_some, one] at rest
          omega

/-- Once the deadline is fixed, only a failure without a wall clock is refused. -/
lemma clock_of_refused {deadline : Nat} {message : Text} (found : checkpoint.row? id = some row)
    (waits : row.launchRetry = some retry) (fixed : retry.deadline = some deadline)
    (h : applyLaunchDisposition failure checkpoint id = .error message) :
    failure.clock.isNone = true := by
  cases clock : failure.clock with
  | none => rfl
  | some now =>
    have counted : ∃ counted, failedRetry failure row = .ok counted := by
      rw [failedRetry, clock]
      simp only [waits, Option.getD_some, fixed, Option.some_or]
      exact ⟨_, rfl⟩
    obtain ⟨counted, counts⟩ := counted
    have disposed : ∃ disposed, disposeRow checkpoint.notes.graphId failure row = .ok disposed := by
      unfold disposeRow
      split
      · rw [counts]
        dsimp only [bind, Except.bind]
        cases nextLaunch failure counted <;> exact ⟨_, rfl⟩
      · exact ⟨_, rfl⟩
    obtain ⟨disposed, disposes⟩ := disposed
    rw [applyLaunchDisposition, found] at h
    dsimp only at h
    rw [disposes] at h
    cases h

end Transient

/-- What holds of the transient failures of one launch. -/
structure LaunchRetryRules : Prop where
  /-- The node is blocked after at most one failure more than the limit. -/
  exhausted : ∀ (limit : Nat) (failures : List LaunchFailure) (checkpoint : GraphCheckpoint)
    (id : Text) (row : NodeProgress), limit ≤ 254 → checkpoint.row? id = some row →
    (∀ retry ∈ row.launchRetry, retry.policy.limit ≤ limit) →
    (∀ failure ∈ failures, launchRetryKind failure.error = true ∧ failure.policy.limit ≤ limit) →
    limit + 1 ≤ (disposals id checkpoint failures).length →
    ∃ entry ∈ (disposals id checkpoint failures).take (limit + 1), blockedAt id entry.2 = true
  /-- The next launch is due between the failure and the deadline, which stays as it was fixed. -/
  due : ∀ (failure : LaunchFailure) (checkpoint after : GraphCheckpoint) (id : Text)
    (row row' : NodeProgress) (retry : LaunchRetry) (wake : Nat),
    launchRetryKind failure.error = true → checkpoint.row? id = some row →
    applyLaunchDisposition failure checkpoint id = .ok after → after.row? id = some row' →
    row'.launchRetry = some retry → retry.wakeAt = some wake →
    ∃ now deadline, failure.clock = some now ∧ retry.deadline = some deadline ∧
      (∀ prior ∈ row.launchRetry, ∀ fixed ∈ prior.deadline, deadline = fixed) ∧
      now ≤ wake ∧ wake ≤ deadline
  /-- Once the deadline is fixed, a failure that is refused leaves the checkpoint as it was. -/
  unchanged : ∀ (failure : LaunchFailure) (checkpoint left : GraphCheckpoint) (id message : Text)
    (row : NodeProgress) (retry : LaunchRetry) (deadline : Nat), checkpoint.row? id = some row →
    row.launchRetry = some retry → retry.deadline = some deadline →
    applyLaunchDispositionInPlace failure checkpoint id = (.error message, left) → left = checkpoint

/-- **The retries of a launch end.** Transient failures of one node block it after at most one more
than the limit, and until then each of them schedules the next launch within the deadline. -/
theorem launch_retry_rules : LaunchRetryRules where
  exhausted limit failures checkpoint id row small found within transient reached := by
    by_contra open'
    have unblocked : ∀ entry ∈ (disposals id checkpoint failures).take (limit + 1),
        blockedAt id entry.2 = false := by
      intro entry member
      by_contra blocked
      exact open' ⟨entry, member, by simpa using blocked⟩
    have counted := count_le_of_unblocked small transient found within reached unblocked
    omega
  due failure checkpoint after id row row' retry wake kind found disposal found' waits woken := by
    obtain ⟨_, rowDisposal, same⟩ := row?_applyLaunchDisposition found disposal
    cases found'.symm.trans same
    rcases disposeRow_transient kind rowDisposal with ⟨-, gone⟩ | ⟨now, deadline, _, _, clock, waits',
      woken', fixed, early, late, keeps, -⟩
    · cases gone.symm.trans waits
    · cases waits'.symm.trans waits
      cases woken'.symm.trans woken
      exact ⟨now, deadline, clock, fixed, keeps, early, late⟩
  unchanged failure checkpoint left id message row retry deadline found waits fixed refused := by
    unfold applyLaunchDispositionInPlace at refused
    split at refused
    · cases refused
    next error disposal =>
      rw [if_pos (clock_of_refused found waits fixed disposal)] at refused
      exact (Prod.mk.inj refused).2.symm

/-- A launch that finds the host busy, and may be retried once. -/
def busyLaunch (clock : Option Nat) : LaunchFailure :=
  { error := .facade .busy { code := text "busy" }
    clock
    admissionSeconds := 60
    policy := { limit := 1 }
    refused := false }

/-- A failure without a wall clock is not counted: after as many failures as the limit and one more
the node, whose deadline is fixed by the first of them, still waits for its next launch. -/
theorem clockless_failure_uncounted :
    (disposals (text "work") workBegun [busyLaunch (some 0), busyLaunch none]).length = 1 ∧
    ∀ entry ∈ disposals (text "work") workBegun [busyLaunch (some 0), busyLaunch none],
      (entry.2.row? (text "work")).map (fun row =>
          (row.state, row.launchRetry.map fun retry => (retry.deadline, retry.wakeAt))) =
        some (.running, some (some 60000000, some 5000000)) ∧
      applyLaunchDispositionInPlace (busyLaunch none) entry.2 (text "work") =
        (.error (text "wall clock unavailable; cannot record a launch retry wake"), entry.2) := by
  decide +kernel

end Provenant.Graph

import Provenant.Graph.Evidence

/-!
# Node dispatch and attempts

The pure transitions by which the scheduler decides what to do with a node, and by which it
records a launch: the state that the dependencies of a node impose on it, the action a node is
dispatched to, the route of its next attempt, and the attempt that is begun.

## Main definitions

* `Edge`, `edge`, `dependencyState` — what the parents of a node impose on it.
* `nodeAction` — what the scheduler does with a node, and the change it makes at once.
* `nextAttempt` — which route is tried next.
* `attemptKey`, `beginAttempt` — the identity of a launch, and its record.

## Main results

* `dependencyState_eq_none` — when no parent holds a node back.
* `nodeAction_spec` — a node is launched only when it is unsettled and no parent holds it
  back, and dispatching it changes nothing.

## Implementation notes

What review texts say is read by a `ReviewPolicy`, which is arbitrary. What the host observes (its clock, whether a launch was accepted, whether a fallback is safe) is a
`LaunchFacts`.
-/

namespace Provenant.Graph

open Json (Text text)

/-! ### Dependencies -/

/-- `round_failure_edge`: the failed gate of a round leads to the next round and to the loop. -/
def roundFailureEdge (child parent : GraphNode) : Bool :=
  parent.round.any fun round =>
    round.isUntil &&
      ((child.round.any fun own => own.loopId == round.loopId && own.round == round.round + 1) ||
        (child.loopBody.isSome && child.id == round.loopId))

/-- The node recovers from the failure of `parent`, or belongs to the loop that does. -/
def recovers (node parent : GraphNode) : Bool :=
  parent.onFail.any fun target =>
    target == node.id || node.round.any fun round => round.loopId == target

/-- What one declared parent imposes on a node. -/
inductive Edge
  | ready | waiting | blocked | skipped
  deriving DecidableEq, Repr

/-- The verdict of `dependency_state` on one declared parent with its row. -/
def edge (node parent : GraphNode) (row : NodeProgress) : Edge :=
  if roundFailureEdge node parent && row.state == .failed then .ready
  else
    match row.state with
    | .failed =>
      if parent.advisory then .ready
      else if recovers node parent then
        -- a failed CI gate without a finding leaves nothing to act on
        if node.skipsWithoutFindings parent.id && parent.condition == some .ci &&
            row.outputs.any (fun outputs => outputs.findings.isEmpty) then .skipped
        else .ready
      else if parent.onFail.isSome then .skipped
      else .blocked
    | .blocked => if parent.advisory then .ready else .blocked
    | .succeeded => if recovers node parent then .skipped else .ready
    | .skipped => .skipped
    | .pending | .running => .waiting

/-- A completion edge lets its node proceed. -/
def completed (checkpoint : GraphCheckpoint) (parent : GraphNode) (row : NodeProgress) : Bool :=
  checkpoint.nodeSuccessful row ||
    (parent.advisory && (row.state == .failed || row.state == .blocked))

/-- The verdict on the parent of an identifier. A missing parent would stop the source; the
plan has every parent. -/
def edgeAt (node : GraphNode) (plan : PlannedGraph) (checkpoint : GraphCheckpoint)
    (parent : Text) : Edge :=
  match plan.node? parent, checkpoint.row? parent with
  | some parentNode, some row => edge node parentNode row
  | _, _ => .waiting

/-- Some completion edge is still unsettled. -/
def awaitsExpansion (node : GraphNode) (checkpoint : GraphCheckpoint) : Bool :=
  node.afterExpansion.any fun parent => !(checkpoint.row? parent).any (·.state.settled)

/-- Every completion edge lets the node proceed. -/
def expansionCompleted (node : GraphNode) (plan : PlannedGraph) (checkpoint : GraphCheckpoint) :
    Bool :=
  node.afterExpansion.all fun parent =>
    match plan.node? parent, checkpoint.row? parent with
    | some parentNode, some row => completed checkpoint parentNode row
    | _, _ => false

/-- `dependency_state`: the state that the parents impose, or `none` when the node may run. -/
def dependencyState (node : GraphNode) (plan : PlannedGraph) (checkpoint : GraphCheckpoint) :
    Option NodeState :=
  let edges := node.dependsOn.map (edgeAt node plan checkpoint)
  if awaitsExpansion node checkpoint then some .pending
  else if !expansionCompleted node plan checkpoint then some .blocked
  else if edges.contains .waiting then some .pending
  else if edges.contains .blocked then some .blocked
  else if edges.contains .skipped then some .skipped
  else none

variable {checkpoint checkpoint' : GraphCheckpoint} {node : GraphNode} {plan : PlannedGraph}

/-- What the parents impose depends on the rows and the expansions only. -/
lemma dependencyState_of_rows (nodes : checkpoint'.nodes = checkpoint.nodes)
    (expansions : checkpoint'.expansions = checkpoint.expansions) (node : GraphNode)
    (plan : PlannedGraph) :
    dependencyState node plan checkpoint' = dependencyState node plan checkpoint := by
  have lookup : checkpoint'.row? = checkpoint.row? := by
    funext id
    rw [GraphCheckpoint.row?, nodes, GraphCheckpoint.row?]
  have success : checkpoint'.nodeSuccessful = checkpoint.nodeSuccessful :=
    funext (GraphCheckpoint.nodeSuccessful_of_rows nodes expansions)
  have done : completed checkpoint' = completed checkpoint := by
    funext parent row
    rw [completed, success, completed]
  have edges : edgeAt node plan checkpoint' = edgeAt node plan checkpoint := by
    funext parent
    simp only [edgeAt, lookup]
  have awaits : awaitsExpansion node checkpoint' = awaitsExpansion node checkpoint := by
    rw [awaitsExpansion, lookup, awaitsExpansion]
  have complete : expansionCompleted node plan checkpoint' =
      expansionCompleted node plan checkpoint := by
    rw [expansionCompleted, lookup, done, expansionCompleted]
  rw [dependencyState, edges, awaits, complete, dependencyState]

/-- The notes of the host impose nothing. -/
lemma dependencyState_notes (checkpoint : GraphCheckpoint) (notes : HostNotes) (node : GraphNode)
    (plan : PlannedGraph) :
    dependencyState node plan { checkpoint with notes } = dependencyState node plan checkpoint := by
  apply dependencyState_of_rows <;> rfl

/-- No parent holds a node back: the completion edges are settled and let it proceed, and every
declared parent is ready. -/
lemma dependencyState_eq_none :
    dependencyState node plan checkpoint = none ↔
      awaitsExpansion node checkpoint = false ∧ expansionCompleted node plan checkpoint = true ∧
        ∀ parent ∈ node.dependsOn, edgeAt node plan checkpoint parent = .ready := by
  have verdicts : ∀ edges : List Edge,
      (edges.contains .waiting = false ∧ edges.contains .blocked = false ∧
        edges.contains .skipped = false) ↔ ∀ e ∈ edges, e = .ready := by
    intro edges
    constructor
    · rintro ⟨waiting, blocked, skipped⟩ e he
      cases e <;> simp_all
    · intro h
      have absent : ∀ e : Edge, e ≠ .ready → edges.contains e = false := by
        intro e he
        rw [Bool.eq_false_iff, Ne, List.contains_iff_mem]
        exact fun hm => he (h e hm)
      exact ⟨absent _ (by decide), absent _ (by decide), absent _ (by decide)⟩
  unfold dependencyState
  cases awaitsExpansion node checkpoint with
  | true => simp
  | false =>
    cases expansionCompleted node plan checkpoint with
    | false => simp
    | true =>
      have all := verdicts (node.dependsOn.map (edgeAt node plan checkpoint))
      rw [List.forall_mem_map] at all
      simp only [Bool.false_eq_true, if_false, Bool.not_true, true_and]
      rw [← all]
      cases (node.dependsOn.map (edgeAt node plan checkpoint)).contains .waiting <;>
        cases (node.dependsOn.map (edgeAt node plan checkpoint)).contains .blocked <;>
          cases (node.dependsOn.map (edgeAt node plan checkpoint)).contains .skipped <;> simp

/-! ### Inactive rounds -/

/-- `repair::inactive_round`: the rounds of a repair loop that starts clean, and the rounds of
an escalated one that have not started. -/
def repairInactiveRound (policy : ReviewPolicy) (node : GraphNode) (plan : PlannedGraph)
    (checkpoint : GraphCheckpoint) : Bool :=
  node.round.any fun round => (plan.node? round.loopId).any fun owner =>
    owner.isRepair &&
      (cleanStart policy owner checkpoint ||
        ((escalation policy owner checkpoint).isSome &&
          !checkpoint.nodes.any fun row =>
            (row.round.any fun own =>
              own.loopId == round.loopId && own.round == round.round) &&
            (!row.attempts.isEmpty || row.state == .succeeded || row.state == .failed)))

/-- `inactive_round`: the gate of the round before passed or was itself inactive. -/
def inactiveRound (policy : ReviewPolicy) (node : GraphNode) (plan : PlannedGraph)
    (checkpoint : GraphCheckpoint) : Bool :=
  repairInactiveRound policy node plan checkpoint ||
    (node.round.bind (·.previousGate)).any fun previous =>
      (checkpoint.row? previous).any fun row =>
        row.state == .succeeded || row.state == .skipped

/-- The findings are complete and were all raised by other lenses. -/
def otherLenses (policy : ReviewPolicy) (lens : Text) (findings : List Finding) : Bool :=
  !findings.isEmpty && !findings.any policy.growsReview &&
    findings.any policy.blocking &&
    (findings.filter policy.blocking).all fun finding =>
      (policy.lens finding).any fun raising => raising != lens

/-- `inactive_lens`: a delta reviewer whose findings were all raised by other lenses. -/
def inactiveLens (policy : ReviewPolicy) (node : GraphNode) (plan : PlannedGraph)
    (checkpoint : GraphCheckpoint) : Bool :=
  node.repairLens.any fun lens =>
    (dependencyState node plan checkpoint).isNone && !priorPanel checkpoint node &&
      otherLenses policy lens ((selectedFindings policy plan checkpoint node).map (·.finding))

/-! ### Dispatch -/

/-- What the scheduler does with a node. -/
inductive NodeAction
  | wait (changed : Bool)
  | composite
  | loop (spec : LoopSpec)
  | decide
  | land
  | gate (condition : GateCondition)
  | attempt
  deriving DecidableEq

/-- The name of a state in a message. -/
def NodeState.debug : NodeState → Text
  | .pending => text "Pending"
  | .running => text "Running"
  | .succeeded => text "Succeeded"
  | .failed => text "Failed"
  | .blocked => text "Blocked"
  | .skipped => text "Skipped"

/-- The code of a row that is blocked by a parent. -/
def upstreamBlocked : Text := text "upstream_blocked"

/-- `attribute_blocker`: name the first failed or blocked parent in an unexplained row. The
message is far below the length at which messages are cut. -/
def attributeBlocker (node : GraphNode) (checkpoint : GraphCheckpoint) (row : NodeProgress) :
    Option NodeProgress :=
  if node.condition.isSome || node.composite.isSome || node.land || row.advanceError.isSome then
    none
  else
    (((node.afterExpansion ++ node.dependsOn).filterMap checkpoint.row?).find? fun parent =>
        parent.state == .failed || parent.state == .blocked).map fun parent =>
      { row with
        advanceError := some (text "blocked by " ++ parent.id ++ text " (" ++
          parent.state.debug ++ text ")")
        advanceErrorCode := some upstreamBlocked }

/-- A node enters the state that its dependencies impose. -/
def imposeState (node : GraphNode) (checkpoint : GraphCheckpoint) (row : NodeProgress)
    (state : NodeState) : Bool × NodeProgress :=
  let changed := row.state != state
  if state = .blocked then
    match attributeBlocker node checkpoint row with
    | some named => (true, { named with state })
    | none => (changed, { row with state })
  else if changed && row.advanceErrorCode == some upstreamBlocked then
    (changed, { row with state, advanceError := none, advanceErrorCode := none })
  else (changed, { row with state })

/-- An imposed state changes the state and the error of the row only. -/
lemma imposeState_snd (node : GraphNode) (checkpoint : GraphCheckpoint) (row : NodeProgress)
    (state : NodeState) : ∃ error code, (imposeState node checkpoint row state).2 =
      { row with state, advanceError := error, advanceErrorCode := code } := by
  unfold imposeState
  dsimp only
  split
  · split
    next named hnamed =>
      simp only [attributeBlocker, Option.ite_none_left_eq_some, Option.map_eq_some_iff] at hnamed
      obtain ⟨-, _, -, rfl⟩ := hnamed
      exact ⟨_, _, rfl⟩
    · exact ⟨_, _, rfl⟩
  · split <;> exact ⟨_, _, rfl⟩

/-- The node's round or lens takes no part, unless the node itself was redone. -/
def inactive (policy : ReviewPolicy) (node : GraphNode) (plan : PlannedGraph)
    (checkpoint : GraphCheckpoint) (row : NodeProgress) : Bool :=
  (row.retryGeneration.isNone || row.containerRetry) &&
    (inactiveRound policy node plan checkpoint || inactiveLens policy node plan checkpoint)

/-- `node_action`: what is done with a node, and the checkpoint after the change that is made
at once. -/
def nodeAction (policy : ReviewPolicy) (plan : PlannedGraph) (checkpoint : GraphCheckpoint)
    (node : GraphNode) : NodeAction × GraphCheckpoint :=
  match checkpoint.row? node.id with
  | none => (.wait false, checkpoint)
  | some row =>
    if row.state.settled then
      match (if row.state == .blocked && dependencyState node plan checkpoint == some .blocked
        then attributeBlocker node checkpoint row else none) with
      | some named => (.wait true, checkpoint.update node.id fun _ => named)
      | none => (.wait false, checkpoint)
    else if inactive policy node plan checkpoint row then
      (.wait true, checkpoint.update node.id fun _ => { row with state := .skipped })
    else if node.composite.isSome then (.composite, checkpoint)
    else
      match node.loopBody with
      | some spec => (.loop spec, checkpoint)
      | none =>
        match dependencyState node plan checkpoint with
        | some state =>
          let (changed, next) := imposeState node checkpoint row state
          (.wait changed, checkpoint.update node.id fun _ => next)
        | none =>
          if node.decide then (.decide, checkpoint)
          else if node.land then (.land, checkpoint)
          else
            match node.condition with
            | some condition => (.gate condition, checkpoint)
            | none => (.attempt, checkpoint)

/-- What holds of a node that is dispatched to an action: a dispatch without further action may
change the state and the error of the node's own row, and a node is launched only when it is
unsettled, takes part and no parent holds it back. -/
def NodeAction.Grounds (policy : ReviewPolicy) (plan : PlannedGraph)
    (checkpoint checkpoint' : GraphCheckpoint) (node : GraphNode) : NodeAction → Prop
  | .wait _ => checkpoint' = checkpoint ∨ ∃ row state error code,
      checkpoint.row? node.id = some row ∧ checkpoint' = checkpoint.update node.id fun _ =>
        { row with state, advanceError := error, advanceErrorCode := code }
  | .composite | .gate _ => True
  | .loop spec => node.loopBody = some spec
  | .decide => node.loopBody = none
  | .land => node.loopBody = none ∧ node.decide = false ∧ node.land = true
  | .attempt => checkpoint' = checkpoint ∧ ∃ row, checkpoint.row? node.id = some row ∧
      row.state.settled = false ∧ inactive policy node plan checkpoint row = false ∧
      node.composite = none ∧ node.loopBody = none ∧ node.condition = none ∧
      dependencyState node plan checkpoint = none

lemma nodeAction_spec {policy : ReviewPolicy} {action : NodeAction}
    (h : nodeAction policy plan checkpoint node = (action, checkpoint')) :
    action.Grounds policy plan checkpoint checkpoint' node := by
  unfold nodeAction at h
  cases found : checkpoint.row? node.id with
  | none =>
    rw [found] at h
    cases h
    exact .inl rfl
  | some row =>
    rw [found] at h
    dsimp only at h
    split at h
    · split at h
      next named hnamed =>
        cases h
        split at hnamed
        · simp only [attributeBlocker, Option.ite_none_left_eq_some, Option.map_eq_some_iff]
            at hnamed
          obtain ⟨-, _, -, rfl⟩ := hnamed
          exact .inr ⟨row, row.state, _, _, found, rfl⟩
        · cases hnamed
      · cases h
        exact .inl rfl
    next unsettled =>
      split at h
      · cases h
        exact .inr ⟨row, .skipped, row.advanceError, row.advanceErrorCode, found, rfl⟩
      next active =>
        split at h
        · cases h
          trivial
        next simple =>
          cases looped : node.loopBody with
          | some _ =>
            rw [looped] at h
            cases h
            exact looped
          | none =>
            rw [looped] at h
            cases held : dependencyState node plan checkpoint with
            | some state =>
              rw [held] at h
              cases h
              obtain ⟨error, code, imposed⟩ := imposeState_snd node checkpoint row state
              exact .inr ⟨row, state, error, code, found, by rw [imposed]⟩
            | none =>
              rw [held] at h
              dsimp only at h
              split at h
              · cases h
                exact looped
              next undecided =>
                split at h
                next lands =>
                  cases h
                  exact ⟨looped, by simpa using undecided, lands⟩
                · cases gated : node.condition with
                  | some _ =>
                    rw [gated] at h
                    cases h
                    trivial
                  | none =>
                    rw [gated] at h
                    cases h
                    exact ⟨rfl, row, found, by simpa using unsettled, by simpa using active,
                      by simpa using simple, looped, gated, held⟩

/-! ### The next attempt -/

/-- `fallback_candidate`: the outcome leaves the next route open. -/
def fallbackCandidate (outcome : AttemptOutcome) (access : AccessMode) (launched : Bool) : Bool :=
  (!launched || access == .readOnly) &&
    (outcome == .authRequired || outcome == .usageLimited || outcome == .adapterUnavailable)

/-- `review_substitution`: a failed review member may be attempted again. -/
def substitutable (node : GraphNode) (attempt : GraphAttempt) : Bool :=
  node.reviewMember && node.access == .readOnly && attempt.state == .terminal &&
    attempt.launched && attempt.outcome == some .taskFailed

/-- `review_preparation_substitution`: a review member that never launched may take the next
route. -/
def preparationSubstitutable (node : GraphNode) (attempt : GraphAttempt) : Bool :=
  node.reviewMember && node.access == .readOnly && attempt.state == .terminal &&
    !attempt.launched &&
      attempt.outcome.any fun outcome => fallbackCandidate outcome node.access false

/-- What the host observes when the next attempt is decided. -/
structure LaunchFacts where
  clock : Option Nat
  /-- The launch of the last attempt was accepted. -/
  accepted : Bool
  /-- The preparation evidence of the last attempt allows a switch of the route. -/
  fallbackAllowed : Bool
  /-- That evidence could not be read. -/
  unreadable : Bool

/-- What runs next on a node. -/
inductive NextAttempt
  | waitRetryWake
  | launchRetryExhausted
  | fail (code : Option Text)
  | candidate (routeIndex : Nat)
  | none
  deriving DecidableEq

/-- A persisted launch wait has not reached its wake. -/
def waitsForWake (row : NodeProgress) (facts : LaunchFacts) : Bool :=
  (row.launchRetry.bind (·.wakeAt)).any fun wake => facts.clock.any fun now => now < wake

/-- The deadline of the launch retries passed and the launch was never accepted. -/
def launchRetryExpired (row : NodeProgress) (facts : LaunchFacts) : Bool :=
  ((row.launchRetry.bind (·.deadline)).any fun deadline =>
    facts.clock.any fun now => deadline ≤ now) &&
  !(match row.attempts.getLast? with
    | some last => last.attemptRef.isSome || facts.accepted
    | none => false)

/-- The number of substitutions among the attempts of a row. -/
def substitutions (row : NodeProgress) : Nat :=
  row.attempts.countP (·.reviewSubstitution)

/-- The code of `fallback_denial`. -/
def fallbackDenial (launched : Bool) (access : AccessMode) (unreadable : Bool) : Text :=
  if launched && access == .worktreeWrite then text "fallback_launched_writer"
  else if unreadable then text "fallback_evidence_unreadable"
  else text "fallback_evidence_unavailable"

/-- The route that comes next, or why there is none. -/
def nextRoute (node : GraphNode) (row : NodeProgress) (reviewSubstitutions : Nat)
    (facts : LaunchFacts) : Except NextAttempt Nat :=
  match row.attempts.getLast? with
  | none => .ok 0
  | some last =>
    if last.state ≠ .terminal then .ok last.key.routeIndex
    else if substitutable node last then
      if substitutions row < reviewSubstitutions then .ok row.attempts.length
      -- a lowered limit withdraws a retry that was saved but had not started
      else .error (.fail none)
    else if last.outcome.any fun outcome => fallbackCandidate outcome node.access last.launched then
      if !facts.fallbackAllowed then
        .error (.fail (some (fallbackDenial last.launched node.access facts.unreadable)))
      else if preparationSubstitutable node last && reviewSubstitutions ≤ substitutions row then
        .error (.fail (some (text "review_substitution_limit")))
      else .ok row.attempts.length
    else .error .none

/-- A reason why there is no next route is not a route. -/
lemma nextRoute_ne_candidate (node : GraphNode) (row : NodeProgress) (reviewSubstitutions : Nat)
    (facts : LaunchFacts) (routeIndex : Nat) :
    nextRoute node row reviewSubstitutions facts ≠ .error (.candidate routeIndex) := by
  unfold nextRoute
  split
  · simp
  · split
    · simp
    · split
      · split <;> simp
      · split
        · split
          · simp
          · split <;> simp
        · simp

/-- The attempt counts as a switch that the retry allowance pays for. -/
def countsAsSwitch (row : NodeProgress) (attempt : GraphAttempt) : Bool :=
  attempt.state == .terminal &&
    (attempt.launched || (attempt.outcome == some .usageLimited && 0 < row.quotaRedrawSpent))

/-- The next route would leave the account that the route before it is pinned to. -/
def leavesAccount (node : GraphNode) (routeIndex : Nat) : Bool :=
  ((node.routes[routeIndex - 1]?).bind (·.account)).any fun account =>
    (node.routes[routeIndex]?).any fun next => next.account != some account

/-- `next_attempt_transition`, with the observations it asks for at hand. -/
def nextAttempt (node : GraphNode) (row : NodeProgress) (reviewSubstitutions : Nat)
    (facts : LaunchFacts) : NextAttempt :=
  if waitsForWake row facts then .waitRetryWake
  else if launchRetryExpired row facts then .launchRetryExhausted
  else
    match nextRoute node row reviewSubstitutions facts with
    | .error decision => decision
    | .ok routeIndex =>
      let switching := 0 < routeIndex && row.attempts.getLast?.any (countsAsSwitch row)
      if switching && leavesAccount node routeIndex then
        .fail (some (text "fallback_account_pinned"))
      else if switching && row.retry.any fun limit =>
          limit < row.quotaRedrawSpent + row.attempts.countP (countsAsSwitch row) then
        .fail (some (text "fallback_budget_exhausted"))
      else .candidate routeIndex

/-! ### The record of a launch -/

/-- The last attempt of a row settled, so that a further one needs a record. -/
def needsRecord (row : NodeProgress) : Bool :=
  row.attempts.getLast?.all fun last => last.state == .terminal

/-- `attempt_key`: the identity of the next launch, or the one already recorded for it. A route
index beyond 16 bits is refused. -/
def attemptKey (plan : PlannedGraph) (node : GraphNode) (row : NodeProgress) (routeIndex : Nat) :
    Option AttemptKey :=
  if routeIndex < 2 ^ 16 then
    match row.attempts.getLast?.filter (·.state ≠ .terminal) with
    | some last => some last.key
    | none =>
      some {
        graphId := plan.graphId
        nodeId := node.id
        routeIndex
        retryGeneration := row.retryGeneration
        previousAttemptRef :=
          (((row.previousAttempts ++ row.attempts).filter (·.state == .terminal)).filterMap
            (·.attemptRef)).getLast? }
  else none

/-- A launch that needs a record gets the identity of its node, route and generation. -/
lemma attemptKey_of_needsRecord {row : NodeProgress} {routeIndex : Nat} {key : AttemptKey}
    (needed : needsRecord row = true) (keyed : attemptKey plan node row routeIndex = some key) :
    key.nodeId = node.id ∧ key.routeIndex = routeIndex ∧
      key.retryGeneration = row.retryGeneration := by
  unfold attemptKey at keyed
  split at keyed
  · have ended : row.attempts.getLast?.filter (·.state ≠ .terminal) = none := by
      cases hl : row.attempts.getLast? with
      | none => rfl
      | some _ => simpa [needsRecord, hl] using needed
    rw [ended] at keyed
    cases keyed
    exact ⟨rfl, rfl, rfl⟩
  · cases keyed

/-- The number of inputs that a manifest records. -/
def manifestInputLimit : Nat := 32

/-- The selected outputs of a node, one by one. -/
def GraphNode.selectedOutputs (node : GraphNode) : List (GraphInput × OutputKind) :=
  node.inputs.flatMap fun input => input.outputs.map fun kind => (input, kind)

/-- `attempt_input_manifest` at the start of a launch: what is delivered in a file is pending. -/
def initialManifest (node : GraphNode) (row : RowRecord) : AttemptInputManifest :=
  { schemaVersion := 1
    inputs := (node.selectedOutputs.take manifestInputLimit).map fun (input, kind) =>
      { producerNode := input.node
        kind
        required := input.requiredOutputs.contains kind
        pending := kind == .result || kind == .findings }
    omitted := node.selectedOutputs.length - manifestInputLimit
    sourceCommit := row.notes.sourceCommit
    reviewBase := row.notes.reviewBase }

/-- `begin_attempt`: record a launch before it is submitted, with the retry timing that the
host supplies, if any. -/
def beginAttempt (node : GraphNode) (key : AttemptKey) (route : GraphRoute)
    (timing : Option LaunchRetry) (row : NodeProgress) : NodeProgress :=
  { row with
    attempts := row.attempts ++ [{
      key, route
      state := .starting
      reviewSubstitution := row.attempts.getLast?.any fun last =>
        substitutable node last || preparationSubstitutable node last
      inputManifest := some (initialManifest node row.toRowRecord) }]
    state := .running
    launchRetry := timing.or row.launchRetry
    notes := { row.notes with separationUnavailable := false } }

end Provenant.Graph

import Provenant.Graph.LaunchDisposition

/-!
# Route fallback at settlement and at the next launch

Whether a node goes on with its next route is decided twice: when the end of an attempt is applied
to the row (`settlement_fallback_decision`), and when the next attempt of the row is looked for
(`next_attempt_transition`). A row that the first decision leaves running must get an attempt, or a
failure, from the second.

## Main definitions

* `Graph.liveFallbackAllowed` — the evidence allows a switch of the route.
* `Graph.settlementFallbackDecision` — the decision when the end of an attempt is applied.
* `Graph.observeTerminal` — the attempts of a row once the end of the last one is applied.

## Main results

* `Graph.justSettled_observeTerminal` — what holds of a row after the end of an attempt is applied.
* `Graph.fallback_agrees` — if the first decision is to go on, then the second finds the next route,
  or fails the node for its retry budget or its pinned account.
-/

namespace Provenant.Graph

open List

open Json (Text text)

/-! ### The policy of the router -/

/-- `FallbackOutcome`. -/
inductive FallbackOutcome
  | authRequired | usageLimited | adapterUnavailable | other
  deriving DecidableEq

/-- `FallbackHandoff`: how far a launch got. -/
inductive FallbackHandoff
  | inPreparation | uncertainOrLaunched | launched
  deriving DecidableEq

/-- `FallbackPolicy`. -/
structure FallbackPolicy where
  outcome : FallbackOutcome
  handoff : FallbackHandoff
  custodyReleased : Bool
  readOnly : Bool
  budgetRemaining : Bool
  pinned : Bool

/-- `allows_switch`. -/
def FallbackPolicy.allowsSwitch (policy : FallbackPolicy) : Bool :=
  policy.outcome != .other &&
  ((policy.handoff == .inPreparation && policy.custodyReleased) ||
    (policy.handoff == .launched && policy.readOnly &&
      (policy.outcome == .authRequired || policy.outcome == .usageLimited))) &&
  policy.budgetRemaining && !policy.pinned

/-- `PreparationFailure`: why the local preparation of a launch failed. -/
inductive PreparationFailure
  | authRequired | usageLimited | adapterUnavailable
  deriving DecidableEq

/-- The outcome that the router reads off a failed preparation. -/
def PreparationFailure.expected : PreparationFailure → FallbackOutcome
  | .authRequired => .authRequired
  | .usageLimited => .usageLimited
  | .adapterUnavailable => .adapterUnavailable

/-- `PreparationFallbackEvidence`. -/
structure PreparationFallbackEvidence where
  failure : PreparationFailure
  handoff : FallbackHandoff
  custodyReleased : Bool

/-- `routing_outcome`. -/
def routingOutcome : AttemptOutcome → FallbackOutcome
  | .authRequired => .authRequired
  | .usageLimited => .usageLimited
  | .adapterUnavailable => .adapterUnavailable
  | _ => .other

/-- `live_fallback_allowed`. -/
def liveFallbackAllowed (outcome : AttemptOutcome) (launched : Bool) (access : AccessMode)
    (evidence : Option PreparationFallbackEvidence) : Bool :=
  if launched then
    FallbackPolicy.allowsSwitch
      { outcome := routingOutcome outcome, handoff := .launched, custodyReleased := false
        readOnly := access == .readOnly, budgetRemaining := true, pinned := false }
  else
    match evidence with
    | none => false
    | some evidence =>
      evidence.failure.expected == routingOutcome outcome &&
        FallbackPolicy.allowsSwitch
          { outcome := evidence.failure.expected, handoff := evidence.handoff
            custodyReleased := evidence.custodyReleased, readOnly := access == .readOnly
            budgetRemaining := true, pinned := false }

/-! ### The decision at settlement -/

/-- `FallbackEvidence`; the cause is the detail of an exclusion. -/
structure FallbackEvidence where
  preparation : Option PreparationFallbackEvidence
  unreadable : Bool
  reviewLimitReached : Bool
  cause : Option Text

/-- The alias (the pool) and the model of a route, which only the texts of a failure read. -/
structure RouteNames where
  pool : Option Text := none
  model : Option Text := none

/-- `SettlementFallback`. -/
inductive SettlementFallback
  | continue
  | fail (code message : Option Text)
  deriving DecidableEq

/-- The message of `fallback_denial`. -/
def fallbackDenialMessage (launched : Bool) (access : AccessMode) (unreadable : Bool)
    (outcome : AttemptOutcome) (cause : Option Text) : Text :=
  let denial :=
    if launched && access == .worktreeWrite then
      text "A launched writer may have effects; route fallback is denied."
    else if unreadable then text "Cannot read preparation fallback evidence."
    else text "Cannot verify local preparation and released custody for route fallback."
  let reason := match outcome with
    | .authRequired => text "The lane requires authentication."
    | .usageLimited => text "The lane reached a usage limit."
    | .adapterUnavailable => text "The lane's adapter is unavailable."
    | _ => text "The lane failed."
  match cause with
  | some detail => reason ++ text " " ++ detail ++ text ". " ++ denial
  | none => reason ++ text " " ++ denial

/-- `settlement_fallback_decision`. -/
def settlementFallbackDecision (names : Nat → RouteNames) (node : GraphNode) (routeIndex : Nat)
    (outcome : AttemptOutcome) (launched : Bool) (evidence : FallbackEvidence) :
    SettlementFallback :=
  let allowed := liveFallbackAllowed outcome launched node.access evidence.preparation
  if !allowed || routeIndex + 1 = node.routes.length || evidence.reviewLimitReached then
    let limited : Option Text × Option Text :=
      if outcome == .usageLimited then
        (some (text "usage_limited"), some (bounded (text "Provider quota or rate limit reached" ++
          ((names routeIndex).pool.map (text " for pool " ++ ·)).getD [] ++
          text "; wait for the allowance to reset or choose an eligible route.")
          maxAdvanceErrorBytes))
      else (none, none)
    let pinned :=
      if routeIndex + 1 = node.routes.length && launched && node.access == .readOnly &&
          (node.routes[routeIndex]?).any fun route =>
            route.account.isSome || (names routeIndex).model.isSome then
        (some (text "fallback_route_pinned"),
          some (text "The selected route is pinned and has no fallback."))
      else limited
    let denied :=
      if !allowed && routeIndex + 1 < node.routes.length then
        (some (fallbackDenial launched node.access evidence.unreadable),
          some (fallbackDenialMessage launched node.access evidence.unreadable outcome
            evidence.cause))
      else pinned
    let ended :=
      if evidence.reviewLimitReached && routeIndex + 1 < node.routes.length && allowed then
        (some (text "review_substitution_limit"), some (text "review substitution limit reached"))
      else denied
    .fail ended.1 ended.2
  else .continue

/-- The limit on substitutions is reached by the last attempt of a row. -/
def reviewLimitReached (node : GraphNode) (row : NodeProgress) (reviewSubstitutions : Nat) : Bool :=
  row.attempts.getLast?.any (preparationSubstitutable node) &&
    reviewSubstitutions ≤ substitutions row

/-! ### The row in between -/

/-- The attempts of a row once a terminal observation of the last one is applied, and the wait for
its launch, which is over. -/
def observeTerminal (attemptRef : Option Text) (usage : Option AttemptUsage)
    (outcome : AttemptOutcome) (launched : Bool) (row : NodeProgress) : NodeProgress :=
  { row with
    attempts := row.attempts.dropLast ++ (row.attempts.getLast?.map fun last =>
      { last with state := .terminal, outcome := some outcome, launched, attemptRef, usage }).toList
    launchRetry := none }

/-- What validation requires of the attempts of a row: each is at the route of its place. -/
def InRouteOrder (node : GraphNode) (row : NodeProgress) : Prop :=
  row.attempts.map (·.key.routeIndex) = List.range row.attempts.length ∧
    row.attempts.length ≤ node.routes.length

/-- A row whose last attempt just ended at a route. -/
structure JustSettled (node : GraphNode) (row : NodeProgress) (routeIndex : Nat)
    (outcome : AttemptOutcome) (launched : Bool) : Prop where
  ended : ∃ last, row.attempts.getLast? = some last ∧ last.state = .terminal ∧
    last.outcome = some outcome ∧ last.launched = launched
  place : row.attempts.length = routeIndex + 1
  known : row.attempts.length ≤ node.routes.length
  answered : row.launchRetry = none

/-- Applying the end of the attempt at a route leaves a row whose last attempt just ended there. -/
lemma justSettled_observeTerminal {node : GraphNode} {row : NodeProgress} {last : GraphAttempt}
    (ordered : InRouteOrder node row) (found : row.attempts.getLast? = some last)
    (attemptRef : Option Text) (usage : Option AttemptUsage) (outcome : AttemptOutcome)
    (launched : Bool) :
    JustSettled node (observeTerminal attemptRef usage outcome launched row) last.key.routeIndex
      outcome launched := by
  obtain ⟨places, known⟩ := ordered
  obtain ⟨front, eq⟩ := getLast?_eq_some_iff.1 found
  have settled : (observeTerminal attemptRef usage outcome launched row).attempts = front ++
      [{ last with state := .terminal, outcome := some outcome, launched, attemptRef, usage }] := by
    simp [observeTerminal, eq]
  have place : last.key.routeIndex = front.length := by
    have at_ := congrArg (·[front.length]?) places
    simpa [eq] using at_
  refine ⟨⟨_, by rw [settled, getLast?_concat], rfl, rfl, rfl⟩, ?_, ?_, rfl⟩
  · rw [settled, place, length_append, length_singleton]
  · rw [settled, length_append, length_singleton]
    rw [eq, length_append, length_singleton] at known
    exact known

/-! ### Agreement -/

/-- Evidence that allows a switch leaves the next route open. -/
lemma fallbackCandidate_of_allowed {outcome : AttemptOutcome} {launched : Bool}
    {access : AccessMode} {evidence : Option PreparationFallbackEvidence}
    (allowed : liveFallbackAllowed outcome launched access evidence = true) :
    fallbackCandidate outcome access launched = true := by
  cases launched with
  | true =>
    cases outcome <;> cases access <;>
      simp_all [liveFallbackAllowed, FallbackPolicy.allowsSwitch, routingOutcome, fallbackCandidate]
  | false =>
    cases evidence with
    | none => simp [liveFallbackAllowed] at allowed
    | some evidence =>
      simp only [liveFallbackAllowed, Bool.false_eq_true, if_false, Bool.and_eq_true,
        beq_iff_eq] at allowed
      have expected := allowed.1
      cases failure : evidence.failure <;> cases outcome <;>
        simp_all [PreparationFailure.expected, routingOutcome, fallbackCandidate]

/-- When the decision is to go on. -/
lemma settlementFallbackDecision_continue {names : Nat → RouteNames} {node : GraphNode}
    {routeIndex : Nat} {outcome : AttemptOutcome} {launched : Bool} {evidence : FallbackEvidence}
    (continues : settlementFallbackDecision names node routeIndex outcome launched evidence =
      .continue) :
    liveFallbackAllowed outcome launched node.access evidence.preparation = true ∧
      routeIndex + 1 ≠ node.routes.length ∧ evidence.reviewLimitReached = false := by
  simp only [settlementFallbackDecision] at continues
  split at continues
  · cases continues
  next open_ => simpa [and_assoc] using open_

/-- What a row that goes on gets: the next route, which is the place after its attempts, or a
failure for its budget or its account. -/
def GoesOn (node : GraphNode) (row : NodeProgress) (next : NextAttempt) : Prop :=
  (next = .candidate row.attempts.length ∧ row.attempts.length < node.routes.length) ∨
    next = .fail (some (text "fallback_account_pinned")) ∨
      next = .fail (some (text "fallback_budget_exhausted"))

/-- If the end of an attempt leaves its row running because of a fallback, then the search for the
next attempt, with the same evidence and limits and at any time, finds the next route or fails the
row for its budget or its account.

**Proof sketch.** The wait for the launch is over, so neither its wake nor its deadline applies. The
evidence allows the switch, so the outcome is one that leaves the next route open, and no outcome of
a review that is substituted; the limit on substitutions is the same. -/
theorem fallback_agrees {names : Nat → RouteNames} {node : GraphNode} {row : NodeProgress}
    {routeIndex limit : Nat} {outcome : AttemptOutcome} {launched unreadable : Bool}
    {evidence : Option PreparationFallbackEvidence} {cause : Option Text}
    (settled : JustSettled node row routeIndex outcome launched)
    (continues : settlementFallbackDecision names node routeIndex outcome launched
      ⟨evidence, unreadable, reviewLimitReached node row limit, cause⟩ = .continue)
    (clock : Option Nat) (accepted : Bool) :
    GoesOn node row (nextAttempt node row limit ⟨clock, accepted,
      liveFallbackAllowed outcome launched node.access evidence, unreadable⟩) := by
  obtain ⟨allowed, more, below⟩ := settlementFallbackDecision_continue continues
  obtain ⟨last, found, terminal, ended, launch⟩ := settled.ended
  have candidate := fallbackCandidate_of_allowed allowed
  have unsubstituted : substitutable node last = false := by
    have : outcome ≠ .taskFailed := by
      rintro rfl
      simp [fallbackCandidate] at candidate
    simp [substitutable, ended, this]
  have room : row.attempts.length < node.routes.length := by
    have := settled.known
    have := settled.place
    omega
  have route : nextRoute node row limit ⟨clock, accepted,
      liveFallbackAllowed outcome launched node.access evidence, unreadable⟩ =
      .ok row.attempts.length := by
    have under :
        (preparationSubstitutable node last && decide (limit ≤ substitutions row)) = false := by
      simpa [reviewLimitReached, found] using below
    rw [nextRoute, found]
    simp only [terminal, ne_eq, not_true_eq_false, if_false, unsubstituted, Bool.false_eq_true,
      ended, Option.any_some, launch, candidate, if_true, allowed, Bool.not_true, under]
  rw [nextAttempt, if_neg (by simp [waitsForWake, settled.answered]),
    if_neg (by simp [launchRetryExpired, settled.answered]), route]
  dsimp only
  split
  · exact .inr (.inl rfl)
  · split
    · exact .inr (.inr rfl)
    · exact .inl ⟨rfl, room⟩

/-- A reader with two routes. -/
def pairReader : GraphNode :=
  { id := text "read", access := .readOnly, routes := [⟨text "a", none⟩, ⟨text "b", none⟩] }

/-- The row of the reader while its first attempt runs. -/
def pairRow : NodeProgress :=
  { id := text "read", state := .running, attempts := [
      { key := ⟨text "g", text "read", 0, none, none⟩, route := ⟨text "a", none⟩
        state := .running }] }

/-- The launched first attempt of a reader meets a usage limit, and the second route is next. -/
theorem fallback_agrees_pair :
    GoesOn pairReader (observeTerminal none none .usageLimited true pairRow)
      (nextAttempt pairReader (observeTerminal none none .usageLimited true pairRow) 1
        ⟨none, false, liveFallbackAllowed .usageLimited true .readOnly none, false⟩) :=
  @fallback_agrees (fun _ => {}) pairReader _ 0 1 .usageLimited true false none none
    (@justSettled_observeTerminal _ pairRow _ ⟨by decide, by decide⟩ rfl _ _ _ _)
    (by decide +kernel) none false

end Provenant.Graph

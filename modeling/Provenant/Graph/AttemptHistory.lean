import Provenant.Graph.AttemptIdentity

/-!
# The history of a node's attempts

What a row keeps of the attempts of its node: those of earlier redos, those of the current one, the
retry allowance that was sealed before the first launch, and what automatic redos spent of it. The
driver changes this history in a few ways only. An attempt is begun, observed while it has not
ended, or opened again after a delivery. A redo archives the attempts; a redo that the driver makes
itself keeps the account, one that was requested starts a new one.

## Main definitions

* `Observed` — what the attempt loop does to the history of a row.
* `AttemptStep` — the steps of the driver, with what they do to histories.
* `Traced` — how one step changes the history of one row.

## Main results

* `AttemptStep.step` — these are steps of the driver.
* `AttemptStep.traced` — every row of a step continues the history of the row before it, or is new.
* `AttemptStep.kept` — only a requested redo removes rows.

## Implementation notes

A redraw of the quota observes the end of the attempt and redoes the node in one save. In the model
these are two steps.
-/

namespace Provenant.Graph

open List GraphCheckpoint

open Json (Text text)

/-! ### Accounts -/

/-- A history without attempts of its own and without an account. -/
structure History.Fresh (history : History) : Prop where
  attempts : history.attempts = []
  retry : history.retry = none
  spent : history.spent = 0

/-- What the host reports of an attempt. -/
inductive AttemptReport
  | silent
  | pending (attemptRef : Option Text)
  | unknown (attemptRef : Option Text)
  | terminal (attemptRef : Option Text) (outcome : AttemptOutcome) (launched : Bool)
      (usage : Option AttemptUsage)

/-- The attempt after a report: `apply_attempt_observation` on the attempt itself. -/
def GraphAttempt.report (attempt : GraphAttempt) : AttemptReport → GraphAttempt
  | .silent => attempt
  | .pending attemptRef => { attempt with state := .running, attemptRef }
  | .unknown attemptRef => { attempt with state := .unresolved, attemptRef }
  | .terminal attemptRef outcome launched usage =>
    { attempt with state := .terminal, attemptRef, outcome := some outcome, launched, usage }

/-- A report of the host, and the evidence that is kept with the attempt. -/
def Reported (attempt attempt' : GraphAttempt) : Prop :=
  ∃ report inputManifest refusalProof,
    attempt' = { attempt.report report with inputManifest, refusalProof }

/-- The attempt loop seals the allowance of a row once, and observes an attempt that has not
ended. -/
structure Observed (history history' : History) : Prop where
  previous : history'.previous = history.previous
  allowance : history.retry.isSome = true → history'.retry = history.retry
  spent : history'.spent = history.spent
  attempts : history'.attempts = history.attempts ∨ ∃ last last',
    history.attempts.getLast? = some last ∧ last.state ≠ .terminal ∧ Reported last last' ∧
      history'.attempts = history.attempts.dropLast ++ [last']

lemma Observed.refl (history : History) : Observed history history :=
  ⟨rfl, fun _ => rfl, rfl, .inl rfl⟩

/-- The attempt counts as a switch that the allowance pays for. -/
def History.switch (history : History) (attempt : GraphAttempt) : Bool :=
  attempt.state == .terminal &&
    (attempt.launched || (attempt.outcome == some .usageLimited && 0 < history.spent))

/-- `quota_redraw_budget`: the allowance covers a redraw of the quota. -/
def History.redrawBudget (history : History) : Bool :=
  history.retry.any fun limit => history.spent + history.attempts.countP (·.launched) +
    (if history.attempts.getLast?.any fun last => !last.launched then 1 else 0) ≤ limit

/-- The account that an automatic redo carries on. -/
def History.carry (history : History) : History :=
  { previous := history.previous ++ history.attempts
    attempts := []
    retry := history.retry
    spent := history.spent + history.attempts.countP (·.launched) +
      if history.attempts.getLast?.any fun last => !last.launched then 1 else 0 }

/-- The history that a requested redo leaves. -/
def History.reset (history : History) : History :=
  { previous := history.previous ++ history.attempts, attempts := [], retry := none, spent := 0 }

/-- An attempt may be begun: the last one ended, and the allowance pays for a switch from it. -/
structure History.MayBegin (history : History) : Prop where
  ended : ∀ last ∈ history.attempts.getLast?, last.state = .terminal
  paid : (∃ last ∈ history.attempts.getLast?, history.switch last = true) →
    ∀ limit ∈ history.retry, history.spent + history.attempts.countP history.switch ≤ limit

/-- A stopped writer was continued: the record of its redo is in the graph. -/
def continued (checkpoint : GraphCheckpoint) (id : Text) : Bool :=
  (liveAdditions checkpoint.expansions).any fun addition => addition.nodes.isEmpty &&
    addition.patch.any fun record => record.reason == some (noWorkReason id)

/-- The rows that a step is about: it records a launch of some, a requested redo resets some and
retires others, and a delivery opens some again. -/
structure StepScope where
  launched : List Text := []
  reset : List Text := []
  retired : List Text := []
  reopened : List Text := []

/-- How one step changes the history of the row of `id`. -/
inductive Traced (checkpoint checkpoint' : GraphCheckpoint) (scope : StepScope) (id : Text)
    (history : History) : History → Prop
  | keep : Traced checkpoint checkpoint' scope id history history
  | observe {history' : History} (observed : Observed history history') :
      Traced checkpoint checkpoint' scope id history history'
  /-- A launch is recorded; until its end is reported it counts as launched. -/
  | begin (member : id ∈ scope.launched) (attempt : GraphAttempt)
      (starting : attempt.state = .starting) (launched : attempt.launched = true)
      (unused : attempt.usage = none) (may : history.MayBegin) :
      Traced checkpoint checkpoint' scope id history
        { history with attempts := history.attempts ++ [attempt] }
  /-- A delivered attempt starts again. -/
  | reopen (member : id ∈ scope.reopened) (last : GraphAttempt)
      (ended : history.attempts.getLast? = some last) :
      Traced checkpoint checkpoint' scope id history
        { history with
          attempts := history.attempts.dropLast ++ [{ last with state := .starting, outcome := none }] }
  | reset (member : id ∈ scope.reset) : Traced checkpoint checkpoint' scope id history history.reset
  | redraw (budget : history.redrawBudget = true) :
      Traced checkpoint checkpoint' scope id history history.carry
  | continueStopped (first : continued checkpoint id = false)
      (now : continued checkpoint' id = true) :
      Traced checkpoint checkpoint' scope id history history.carry

/-! ### Steps -/

variable {document : GraphDocument}

/-- What the redo of a node resets and retires. -/
def redoScope (document : GraphDocument) (checkpoint : GraphCheckpoint) (id : Text)
    (dependants : Bool) : StepScope :=
  match expand document checkpoint.extensions checkpoint.expansions with
  | none => {}
  | some expanded =>
    match expanded.nodes.find? (·.id == id) with
    | none => {}
    | some node =>
      let names := resetIds expanded checkpoint node dependants
      { reset := names
        retired := (redoOwners expanded checkpoint id dependants names).flatMap
          (retiredIds checkpoint) }

/-- What the delivery of an attempt opens again. -/
def deliveryScope (checkpoint : GraphCheckpoint) (attempt : Text) : StepScope :=
  { reopened := (checkpoint.nodes.filter (deliveredRow attempt)).map (·.id) }

/-- The step is neither a redo nor a delivery. -/
def Event.plain : Event → Bool
  | .retry _ | .deliver => false
  | .start | .finish | .visit _ | .attempt _ | .begin _ | .expand _ | .patch _ | .extend _ | .cancel
  | .resume | .note => true

/-- The node that the driver is busy with. -/
def Event.about : Event → Option Text
  | .visit id | .attempt id => some id
  | .start | .finish | .begin _ | .expand _ | .patch _ | .retry _ | .extend _ | .cancel | .resume
  | .deliver | .note => none

/-- The node whose launch the step records. -/
def Event.launched : Event → List Text
  | .begin key => [key.nodeId]
  | .start | .finish | .visit _ | .attempt _ | .expand _ | .patch _ | .retry _ | .extend _ | .cancel
  | .resume | .deliver | .note => []

/-- The driver redoes a node itself: an attempt that ran out of quota fails first and is drawn
again while the allowance lasts, and a writer that stopped without work is continued once. -/
inductive Automatic (s : Driver document) (id : Text) (prior : NodeProgress) :
    Text → GraphCheckpoint → Prop
  | redraw {reason : Text} (budget : prior.history.redrawBudget = true) :
      Automatic s id prior reason
        (s.checkpoint.update id fun row => { row with state := .failed })
  | continueStopped {node : GraphNode} (placed : s.plan.node? id = some node)
      (eligible : noWorkEligible node prior s.checkpoint = true) :
      Automatic s id prior (noWorkReason id) s.checkpoint

/-- The steps of the driver, with what they do to the attempts of a node; a request is labelled with
the rows that it resets, retires or opens again. -/
inductive AttemptStep (policy : ReviewPolicy) :
    StepScope → Driver document → Driver document → Prop
  /-- The attempt loop only observes. -/
  | drive {event : Event} {s s' : Driver document} (step : Step policy event s s')
      (plain : event.plain = true)
      (observed : ∀ id row row', event.about = some id → s.checkpoint.row? id = some row →
        s'.checkpoint.row? id = some row' → Observed row.history row'.history) :
      AttemptStep policy { launched := event.launched } s s'
  | deliver {s s' : Driver document} {attempt : Text} (idle : s.phase = .idle)
      (active : s.checkpoint.cancelled = false)
      (moves : Moves s s' (retryDelivered attempt s.checkpoint) .idle) :
      AttemptStep policy (deliveryScope s.checkpoint attempt) s s'
  | retry {s s' : Driver document} {id reason : Text} {brief : Option Text} {dependants : Bool}
      {candidate : GraphCheckpoint} {node : GraphNode} {plan : PlannedGraph}
      (idle : s.phase = .idle)
      (redo : retryCandidate document s.checkpoint id brief dependants = some (candidate, node))
      (admits : Admits document candidate (retryAddition node reason) plan)
      (replans : Replans s s' (commit candidate (retryAddition node reason) plan) plan) :
      AttemptStep policy (redoScope document s.checkpoint id dependants) s s'
  /-- Only nodes that are attempted themselves are redone by the driver. -/
  | redo {s s' : Driver document} {id reason : Text} {brief : Option Text} {prior : NodeProgress}
      {settled candidate : GraphCheckpoint} {node : GraphNode} {plan : PlannedGraph}
      (found : settled.row? id = some prior)
      (automatic : Automatic s id prior reason settled)
      (leaf : ∀ node ∈ s.plan.nodes, node.id = id → node.composite = none ∧ node.loopBody = none)
      (redo : retryCandidate document settled id brief false = some (candidate, node))
      (admits : Admits document candidate (retryAddition node reason) plan)
      (replans : Replans s s'
        ((commit candidate (retryAddition node reason) plan).update id (retainAccounting prior))
        plan) :
      AttemptStep policy {} s s'

variable {policy : ReviewPolicy}

/-- These are steps of the driver. -/
lemma AttemptStep.step {scope : StepScope} {s s' : Driver document}
    (h : AttemptStep policy scope s s') : ∃ event, Step policy event s s' := by
  cases h with
  | drive step => exact ⟨_, step⟩
  | deliver idle active moves => exact ⟨_, .deliver idle active moves⟩
  | retry idle redo admits replans => exact ⟨_, .retry idle redo admits replans⟩
  | redo found automatic _ redo admits replans =>
    refine ⟨_, .redo found ?_ redo admits replans⟩
    cases automatic with
    | redraw => exact .inr rfl
    | continueStopped => exact .inl rfl

variable {event : Event} {row row' prior : NodeProgress} {node : GraphNode} {plan : PlannedGraph}
  {reason : Text} {settled : GraphCheckpoint}

/-- A step that is no request and about no node. -/
lemma AttemptStep.of_silent {s s' : Driver document}
    (step : Step policy event s s') (plain : event.plain = true) (silent : event.about = none) :
    AttemptStep policy { launched := event.launched } s s' := by
  refine .drive step plain fun id _ _ about => ?_
  rw [silent] at about
  cases about

variable {id : Text} {checkpoint reset candidate : GraphCheckpoint} {expanded : GraphDocument}

/-- A step that is about one node. -/
lemma AttemptStep.of_about {s s' : Driver document}
    (step : Step policy event s s') (plain : event.plain = true) (about : event.about = some id)
    (found : s.checkpoint.row? id = some row) (found' : s'.checkpoint.row? id = some row')
    (observed : Observed row.history row'.history) :
    AttemptStep policy { launched := event.launched } s s' := by
  refine .drive step plain fun name old new about' h h' => ?_
  rw [about] at about'
  cases about'
  rw [found] at h
  rw [found'] at h'
  cases h
  cases h'
  exact observed

/-! ### Launches -/

lemma switch_history (row : NodeProgress) : row.history.switch = countsAsSwitch row := rfl

/-- A launch is recorded only when the allowance pays for it. -/
lemma mayBegin_of_nextAttempt {reviewSubstitutions routeIndex : Nat} {facts : LaunchFacts}
    (needed : needsRecord row = true)
    (candidate : nextAttempt node row reviewSubstitutions facts = .candidate routeIndex) :
    row.history.MayBegin := by
  have position := routeIndex_of_nextAttempt needed candidate
  refine ⟨fun last found => ?_, ?_⟩
  · unfold needsRecord at needed
    rw [show row.attempts.getLast? = some last from found] at needed
    simpa using needed
  · rintro ⟨last, found, switched⟩ limit sealed
    -- the position of a further attempt is not the first, so the check of the allowance is made
    have later : 0 < routeIndex := by
      rw [position]
      exact length_pos_of_mem (mem_of_getLast? found)
    have switching : (decide (0 < routeIndex) && row.attempts.getLast?.any (countsAsSwitch row)) =
        true := by
      rw [show row.attempts.getLast? = some last from found]
      rw [switch_history] at switched
      simpa [later] using switched
    by_contra exhausted
    have exceeds : (row.retry.any fun limit =>
        limit < row.quotaRedrawSpent + row.attempts.countP (countsAsSwitch row)) = true := by
      rw [show row.retry = some limit from sealed]
      exact decide_eq_true (not_le.1 exhausted)
    have within := (nextAttempt_eq_candidate candidate).2
    rw [switching, exceeds] at within
    exact within rfl

/-! ### Rows follow their histories -/

/-- Every row continues an earlier one, or is new and has a fresh history. -/
def Continues (relates : NodeProgress → NodeProgress → Prop) (rows rows' : List NodeProgress) :
    Prop :=
  ∀ row' ∈ rows', (∃ row ∈ rows, relates row row') ∨
    (row'.id ∉ rows.map (·.id) ∧ row'.history.Fresh)

lemma fresh_rebind (expansions : List Expansion) (node : GraphNode) :
    (rebind expansions (freshRow node)).history.Fresh := by
  unfold rebind
  split <;> exact ⟨rfl, rfl, rfl⟩

lemma continues_reconcile (checkpoint : GraphCheckpoint) (plan : PlannedGraph) :
    Continues SameHistory checkpoint.nodes (reconcile checkpoint plan).nodes := by
  intro row' member
  obtain ⟨node, -, rfl⟩ := mem_map.1 member
  cases found : checkpoint.row? node.id with
  | some row =>
    refine .inl ⟨row, mem_of_row? found, ?_⟩
    unfold alignRow
    rw [found]
    dsimp only
    split <;> exact ⟨rfl, rfl, rfl⟩
  | none =>
    refine .inr ⟨?_, ?_⟩
    · rw [id_alignRow]
      intro known
      obtain ⟨row, hrow, named⟩ := mem_map.1 known
      have absent := find?_eq_none.1 found row hrow
      simp [named] at absent
    · unfold alignRow
      rw [found]
      exact fresh_rebind checkpoint.expansions node

lemma continues_commit (checkpoint : GraphCheckpoint) (addition : Addition) (plan : PlannedGraph) :
    Continues SameHistory checkpoint.nodes (commit checkpoint addition plan).nodes := by
  intro row' member
  obtain ⟨row, hrow, rfl⟩ := mem_map.1 member
  have skipped : SameHistory row (if ((addition.patch.map (·.skipped)).getD []).contains row.id then
      { row with
        state := .skipped
        skipReason := some (skippedBy (checkpoint.expansions.length + 1)) } else row) := by
    split <;> exact ⟨rfl, rfl, rfl⟩
  rcases continues_reconcile _ plan row hrow with ⟨old, known, same⟩ | ⟨unknown, fresh⟩
  · exact .inl ⟨old, known, same.trans skipped⟩
  · refine .inr ⟨?_, ?_⟩
    · rw [skipped.id]
      exact unknown
    · rw [skipped.history]
      exact fresh

/-! ### Redo -/

/-- Retirement changes no history of a row that stays. -/
lemma sameHistory_prune (owners : List Text)
    (member : row' ∈ (owners.foldl dynamicSubtree checkpoint).nodes) :
    ∃ row ∈ checkpoint.nodes, SameHistory row row' := by
  revert row'
  refine foldlRecOn (motive := fun pruned : GraphCheckpoint => ∀ {row'}, row' ∈ pruned.nodes →
    ∃ row ∈ checkpoint.nodes, SameHistory row row') owners _ (fun member => ⟨_, member, .refl _⟩)
    fun pruned kept owner _ _ member => ?_
  obtain ⟨_, known, -, rfl⟩ := mem_dynamicSubtree member
  obtain ⟨row, hrow, same⟩ := kept known
  exact ⟨row, hrow, same.trans ⟨rfl, rfl, rfl⟩⟩

/-- A retirement leaves less to retire. -/
lemma retiredIds_dynamicSubtree (checkpoint : GraphCheckpoint) (owner other : Text) :
    retiredIds (dynamicSubtree checkpoint owner) other ⊆ retiredIds checkpoint other := by
  intro id member
  obtain ⟨_, live, named⟩ := mem_flatMap.1 member
  obtain ⟨live, produced⟩ := mem_filter.1 live
  obtain ⟨expansion, old, changed⟩ := mem_map.1 (mem_liveAdditions.1 live)
  cases expansion with
  | retired => cases changed
  | live origin =>
    dsimp only at changed
    split at changed
    · cases changed
    · obtain rfl := Expansion.live.inj changed
      exact mem_flatMap.2
        ⟨origin, mem_filter.2 ⟨mem_liveAdditions.2 old, produced⟩, named⟩

/-- The rows that a retirement removes are those that it names. -/
lemma kept_prune (owners : List Text) (member : row ∈ checkpoint.nodes) :
    row.id ∈ (owners.foldl dynamicSubtree checkpoint).nodes.map (·.id) ∨
      row.id ∈ owners.flatMap (retiredIds checkpoint) := by
  refine (foldlRecOn (motive := fun pruned : GraphCheckpoint =>
    (∀ owner, retiredIds pruned owner ⊆ retiredIds checkpoint owner) ∧
      (row.id ∈ pruned.nodes.map (·.id) ∨ row.id ∈ owners.flatMap (retiredIds checkpoint)))
    owners dynamicSubtree ⟨fun _ _ => id, .inl (mem_map_of_mem member)⟩
    fun pruned ⟨less, kept⟩ owner howner => ?_).2
  refine ⟨fun other => List.Subset.trans (retiredIds_dynamicSubtree pruned owner other) (less other),
    kept.elim (fun stays => ?_) .inr⟩
  by_cases retired : row.id ∈ retiredIds pruned owner
  · exact .inr (mem_flatMap.2 ⟨owner, howner, less owner retired⟩)
  · obtain ⟨other, hother, named⟩ := mem_map.1 stays
    have stays : forgetRetired (retiredIds pruned owner) other ∈
        (dynamicSubtree pruned owner).nodes :=
      mem_map_of_mem (mem_filter.2 ⟨hother, by simpa [named] using retired⟩)
    exact .inl (mem_map.2 ⟨_, stays, named⟩)

/-- The history that a redo of some nodes leaves in a row. -/
def redoneHistory (names : List Text) (row : NodeProgress) : History :=
  if row.id ∈ names then row.history.reset else row.history

lemma history_resetRows {names : List Text}
    (h : resetRows expanded names id checkpoint = some reset) :
    List.Forall₂ (fun row row' => row'.id = row.id ∧ row'.history = redoneHistory names row)
      checkpoint.nodes reset.nodes := by
  obtain ⟨rows, mapped, rfl⟩ := resetRows_eq_some h
  refine (Fallible.forall₂_of_mapM mapped).imp fun row row' resets => ?_
  unfold redoneHistory
  split at resets
  next member =>
    rw [if_pos (contains_iff_mem.1 member)]
    unfold resetProgress at resets
    split at resets
    · cases resets
      exact ⟨rfl, rfl⟩
    · cases resets
  next member =>
    rw [if_neg (fun named => member (contains_iff_mem.2 named))]
    cases resets
    exact ⟨rfl, rfl⟩

section Redone

variable {reopened : GraphCheckpoint} {dependants : Bool} {target : GraphNode}
  (redone : Redone document checkpoint id dependants candidate expanded target reopened reset)
include redone

/-- Every row of a redone checkpoint continues a row before it. -/
lemma Redone.history (member : row' ∈ candidate.nodes) :
    ∃ row ∈ checkpoint.nodes, row'.id = row.id ∧
      row'.history = redoneHistory (resetIds expanded checkpoint target dependants) row := by
  obtain ⟨_, remembers, -, resets⟩ := redone.remembers
  rw [redone.nodes] at member
  obtain ⟨_, hpruned, named, resets⟩ := Fallible.exists_of_forall₂ (history_resetRows resets) member
  obtain ⟨_, hremembered, same⟩ := sameHistory_prune _ hpruned
  obtain ⟨row, hrow, same'⟩ := remembers.before hremembered
  have all := same'.trans same
  refine ⟨row, hrow, named.trans all.id, resets.trans ?_⟩
  simp only [redoneHistory]
  rw [all.id, all.history]

/-- A redo removes the rows that it retires. -/
lemma Redone.kept (member : row ∈ checkpoint.nodes) :
    row.id ∈ candidate.nodes.map (·.id) ∨ row.id ∈ (redoOwners expanded checkpoint id dependants
      (resetIds expanded checkpoint target dependants)).flatMap (retiredIds checkpoint) := by
  obtain ⟨before, remembers, ⟨-, -, expansions⟩, resets⟩ := redone.remembers
  have known : row.id ∈ before.nodes.map (·.id) := by
    rw [remembers.ids]
    exact mem_map_of_mem member
  obtain ⟨_, hremembered, named⟩ := mem_map.1 known
  have retires : retiredIds before = retiredIds checkpoint := by
    funext owner
    rw [retiredIds, expansions, retiredIds]
  have either := kept_prune (redoOwners expanded checkpoint id dependants
    (resetIds expanded checkpoint target dependants)) hremembered
  rw [named, retires, ← ids_of_forall₂ (history_resetRows resets) fun _ _ pair => pair.1] at either
  rw [redone.nodes]
  exact either

/-- What an accepted redo resets and retires. -/
lemma Redone.redoScope_eq :
    redoScope document checkpoint id dependants =
      { reset := resetIds expanded checkpoint target dependants
        retired := (redoOwners expanded checkpoint id dependants
          (resetIds expanded checkpoint target dependants)).flatMap (retiredIds checkpoint) } := by
  unfold redoScope
  rw [redone.planned]
  dsimp only
  rw [redone.found]

end Redone

/-! ### Steps and histories -/

variable {policy : ReviewPolicy} {scope : StepScope} {s s' : Driver document}

/-- The row after a step continues the history of a row before it, or it is new. -/
def TracedRow (scope : StepScope) (checkpoint checkpoint' : GraphCheckpoint)
    (row' : NodeProgress) : Prop :=
  (∃ row ∈ checkpoint.nodes, row'.id = row.id ∧
      Traced checkpoint checkpoint' scope row.id row.history row'.history) ∨
    ((row'.id ∉ checkpoint.nodes.map (·.id) ∨ row'.id ∈ scope.retired) ∧ row'.history.Fresh)

lemma SameHistory.traced {checkpoint' : GraphCheckpoint} (member : row ∈ checkpoint.nodes)
    (same : SameHistory row row') : TracedRow scope checkpoint checkpoint' row' := by
  refine .inl ⟨row, member, same.id, ?_⟩
  rw [same.history]
  exact .keep

/-- The row after a step that is neither a redo nor a delivery. -/
inductive PlainRow (s s' : Driver document) (event : Event) (row' : NodeProgress) : Prop
  | keep {row : NodeProgress} (member : row ∈ s.checkpoint.nodes) (same : SameHistory row row')
  | fresh (unknown : row'.id ∉ s.checkpoint.nodes.map (·.id)) (fresh : row'.history.Fresh)
  /-- The row of the node that the driver is busy with. -/
  | busy {id : Text} {row : NodeProgress} (about : event.about = some id)
      (found : s.checkpoint.row? id = some row) (found' : s'.checkpoint.row? id = some row')
      (keeps : Keeps row row')
  | launched {node : GraphNode} {row : NodeProgress} {key : AttemptKey} {route : GraphRoute}
      {timing : Option LaunchRetry} (begins : event = .begin key) (member : row ∈ s.checkpoint.nodes)
      (about : key.nodeId = row.id) (may : row.history.MayBegin)
      (same : row' = beginAttempt node key route timing row)

/-- A step that moves on with the same histories. -/
lemma Moves.plain {phase : Phase} (moves : Moves s s' checkpoint phase)
    (same : SameRows s.checkpoint checkpoint) :
    ∀ row' ∈ s'.checkpoint.nodes, PlainRow s s' event row' := by
  intro row' member
  rw [moves.checkpoint] at member
  obtain ⟨row, known, same⟩ := same.before member
  exact .keep known same

/-- A step that changes one row. -/
lemma Driver.plain_update {f : NodeProgress → NodeProgress}
    (nodes : s'.checkpoint.nodes = (s.checkpoint.update id f).nodes)
    (found : s.checkpoint.row? id = some row) (changed : PlainRow s s' event (f row)) :
    ∀ row' ∈ s'.checkpoint.nodes, PlainRow s s' event row' := by
  intro row' member
  rw [nodes] at member
  obtain ⟨other, known, rfl⟩ := mem_map.1 member
  split
  next same =>
    have unique := s.row?_of_mem known
    rw [same, found] at unique
    cases unique
    exact changed
  · exact .keep known (.refl other)

/-- A change of the plan leaves histories alone. -/
lemma Replans.plain {middle : GraphCheckpoint} (replans : Replans s s' checkpoint plan)
    (same : SameRows s.checkpoint middle)
    (continues : Continues SameHistory middle.nodes checkpoint.nodes) :
    ∀ row' ∈ s'.checkpoint.nodes, PlainRow s s' event row' := by
  intro row' member
  rw [replans.checkpoint] at member
  rcases continues row' member with ⟨old, known, same'⟩ | ⟨unknown, fresh⟩
  · obtain ⟨row, hrow, before⟩ := same.before known
    exact .keep hrow (before.trans same')
  · rw [same.ids] at unknown
    exact .fresh unknown fresh

/-- **What a step does to the rows**, if it is neither a redo nor a delivery. -/
lemma Step.plainRow (step : Step policy event s s') (plain : event.plain = true) :
    ∀ row' ∈ s'.checkpoint.nodes, PlainRow s s' event row' := by
  -- the row of a node that is visited or attempted
  have replaced : ∀ {id row row'}, event.about = some id →
      s.checkpoint.row? id = some row → Keeps row row' →
      s'.checkpoint = { s.checkpoint.update id (fun _ => row') with notes := s'.checkpoint.notes } →
      ∀ row'' ∈ s'.checkpoint.nodes, PlainRow s s' event row'' := by
    intro id row row' about found keeps changed
    refine Driver.plain_update (by rw [changed]) found (.busy about found ?_ keeps)
    rw [changed]
    exact row?_update_self
      (fun _ _ _ => keeps.id.trans (id_of_row? found)) found
  cases step with
  | start _ moves | finish moves | pass _ _ _ _ moves | attempt _ moves => exact moves.plain .refl
  | wait dispatched moves =>
    rcases nodeAction_spec dispatched.action with rfl | ⟨row, state, error, code, found, rfl⟩
    · exact moves.plain .refl
    · exact moves.plain (s.sameRows_update found ⟨rfl, rfl, rfl⟩)
  | settle _ _ found keeps moves =>
    exact replaced rfl found keeps moves.checkpoint
  | loop _ moves =>
    exact moves.plain (.update fun row _ _ => sameHistory_settleLoop _ _ _ row _)
  | change attempting keeps _ moves | leave attempting keeps moves =>
    exact replaced rfl attempting.row keeps moves.checkpoint
  | begin attempting candidate _ keyed needed _ checkpoint =>
    obtain ⟨about, -, -⟩ := attemptKey_of_needsRecord needed keyed
    refine Driver.plain_update (by rw [checkpoint]) attempting.row
      (.launched rfl (mem_of_row? attempting.row) ?_ (mayBegin_of_nextAttempt needed candidate) rfl)
    rw [about, id_of_row? attempting.row]
  | expand _ found contributes _ _ _ _ _ _ replans =>
    exact replans.plain (s.sameRows_update found contributes.sameHistory) (continues_commit _ _ _)
  | patch _ _ _ replans =>
    exact replans.plain .refl (continues_commit _ _ _)
  | retry | redo | deliver => cases plain
  | extend _ _ resumed _ _ replans =>
    exact replans.plain ((applyResume_eq_some resumed).1.unpauseLoops _) (continues_reconcile _ _)
  | cancel cancels moves =>
    exact moves.plain (cancels.imp fun _ _ cancel => cancel.sameHistory)
  | resume _ resumed moves => exact moves.plain (applyResume_eq_some resumed).1
  | note noted moves =>
    refine moves.plain (noted.imp fun row row' changed => ?_)
    obtain ⟨notes, rfl⟩ := changed
    exact ⟨rfl, rfl, rfl⟩

/-- Delivery opens the last attempt of a row again, or leaves its history alone. -/
lemma history_retryDelivered {attempt : Text}
    (member : row' ∈ (retryDelivered attempt checkpoint).nodes) :
    ∃ row ∈ checkpoint.nodes, row'.id = row.id ∧ (row'.history = row.history ∨
      (deliveredRow attempt row = true ∧ row'.history = (reopenRow row).history)) := by
  obtain ⟨row, known, rfl⟩ := mem_map.1 member
  have quiet : ∀ row : NodeProgress, SameHistory row (unblock (reopenLoop
      ((checkpoint.nodes.filter (deliveredRow attempt)).filterMap fun row =>
        row.round.map (·.loopId)) checkpoint.extensions row)) := by
    intro row
    unfold unblock reopenLoop
    split <;> split <;> exact ⟨rfl, rfl, rfl⟩
  refine ⟨row, known, ?_⟩
  split
  next delivered =>
    have same := quiet (reopenRow row)
    exact ⟨same.id, .inr ⟨delivered, same.history⟩⟩
  · exact ⟨(quiet row).id, .inl (quiet row).history⟩

/-- The history of a row that was opened again. -/
lemma history_reopenRow {attempt : Text} (delivered : deliveredRow attempt row = true) :
    ∃ last, row.attempts.getLast? = some last ∧
      (reopenRow row).history = { row.history with
        attempts := row.attempts.dropLast ++ [{ last with state := .starting, outcome := none }] } := by
  simp only [deliveredRow, Bool.and_eq_true, Option.any_eq_true] at delivered
  obtain ⟨-, last, found, -⟩ := delivered
  refine ⟨last, found, ?_⟩
  simp [reopenRow, NodeProgress.history, found]

/-- A step that is neither a redo nor a delivery. -/
lemma Step.traced (step : Step policy event s s') (plain : event.plain = true)
    (observed : ∀ id row row', event.about = some id → s.checkpoint.row? id = some row →
      s'.checkpoint.row? id = some row' → Observed row.history row'.history) :
    ∀ row' ∈ s'.checkpoint.nodes,
      TracedRow { launched := event.launched } s.checkpoint s'.checkpoint row' := by
  intro row' member
  cases step.plainRow plain row' member with
  | keep member same => exact same.traced member
  | fresh unknown fresh => exact .inr ⟨.inl unknown, fresh⟩
  | busy about found found' keeps =>
    exact .inl ⟨_, mem_of_row? found, keeps.id, .observe (observed _ _ _ about found found')⟩
  | @launched _ row _ _ _ begins known about may same =>
    subst begins same
    refine .inl ⟨row, known, rfl, .begin ?_ _ rfl rfl rfl may⟩
    rw [← about]
    exact mem_cons_self

/-- The redo of a node that contains no others resets that node only, and retires nothing. -/
lemma Redone.leaf {reopened : GraphCheckpoint} {target : GraphNode}
    (redone : Redone document checkpoint id false candidate expanded target reopened reset)
    (leaf : ∀ node ∈ expanded.nodes, node.id = id → node.composite = none ∧ node.loopBody = none) :
    resetIds expanded checkpoint target false = [id] ∧
      redoOwners expanded checkpoint id false [id] = [] := by
  have named : target.id = id := by simpa using find?_some redone.found
  obtain ⟨composite, loop⟩ := leaf target (mem_of_find?_eq_some redone.found) named
  refine ⟨by simp [resetIds, composite, loop, named], ?_⟩
  unfold redoOwners
  rw [filter_eq_nil_iff.2, map_nil]
  intro node member redone
  simp only [redoTopology, redoContainer, Bool.false_and, Bool.or_false, Bool.and_eq_true,
    contains_eq_mem, mem_singleton, decide_eq_true_eq] at redone
  obtain ⟨composite, loop⟩ := leaf node member redone.1
  simp [composite, loop] at redone

/-- What the driver leaves of the graph when it redoes a node itself: only the state of the row. -/
lemma Automatic.same (h : Automatic s id prior reason settled) :
    SameRows s.checkpoint settled ∧ settled.extensions = s.checkpoint.extensions ∧
      settled.expansions = s.checkpoint.expansions := by
  cases h with
  | redraw => exact ⟨.update fun row _ _ => ⟨rfl, rfl, rfl⟩, rfl, rfl⟩
  | continueStopped => exact ⟨.refl, rfl, rfl⟩

/-- The nodes that the driver plans are those of the expanded document. -/
lemma Driver.mem_plan (s : Driver document)
    (planned : expand document s.checkpoint.extensions s.checkpoint.expansions = some expanded)
    (node : GraphNode) : node ∈ expanded.nodes ↔ node ∈ s.plan.nodes := by
  obtain ⟨_, planned', plans⟩ := s.planned
  rw [planned] at planned'
  cases planned'
  exact plans.perm.mem_iff.symm

/-- A continuation is recorded in the graph. -/
lemma continued_commit (candidate : GraphCheckpoint) (node : GraphNode) (id : Text)
    (plan : PlannedGraph) (checkpoint : GraphCheckpoint)
    (expansions : checkpoint.expansions =
      (commit candidate (retryAddition node (noWorkReason id)) plan).expansions) :
    continued checkpoint id = true := by
  unfold continued
  rw [expansions]
  simp [commit, reconcile, liveAdditions, retryAddition]

/-- The history of the redone row, with the account that the driver carries on. -/
lemma history_retainAccounting (reset : row.history = prior.history.reset) :
    (retainAccounting prior row).history = prior.history.carry := by
  have previous : row.previousAttempts = prior.previousAttempts ++ prior.attempts :=
    congrArg History.previous reset
  have attempts : row.attempts = [] := congrArg History.attempts reset
  have retry : row.retry = none := congrArg History.retry reset
  unfold retainAccounting NodeProgress.history History.carry
  simp [previous, attempts, retry]

/-- The history that an automatic redo leaves. -/
lemma Automatic.traced (h : Automatic s id prior reason settled)
    (recorded : reason = noWorkReason id → continued s'.checkpoint id = true) :
    Traced s.checkpoint s'.checkpoint scope id prior.history prior.history.carry := by
  cases h with
  | redraw budget => exact .redraw budget
  | continueStopped placed eligible =>
    refine .continueStopped ?_ (recorded rfl)
    have named := PlannedGraph.id_of_node? placed
    simp only [noWorkEligible, Bool.and_eq_true, Bool.not_eq_true', named] at eligible
    unfold continued
    rw [any_eq_false] at eligible ⊢
    intro addition live
    simp [eligible.2 addition live]

/-- A redo that the driver makes itself resets one row and retires none. -/
lemma Automatic.redone {brief : Option Text} (automatic : Automatic s id prior reason settled)
    (leaf : ∀ node ∈ s.plan.nodes, node.id = id → node.composite = none ∧ node.loopBody = none)
    (redo : retryCandidate document settled id brief false = some (candidate, node)) :
    (∀ row' ∈ candidate.nodes, ∃ row ∈ settled.nodes, row'.id = row.id ∧
        row'.history = redoneHistory [id] row) ∧
      (∀ name ∈ s.checkpoint.nodes.map (·.id), name ∈ candidate.nodes.map (·.id)) ∧
      Covered document candidate := by
  obtain ⟨_, _, _, _, redone, -⟩ := retryCandidate_eq_some redo
  obtain ⟨same, extensions, expansions⟩ := automatic.same
  have planned := redone.planned
  rw [extensions, expansions] at planned
  obtain ⟨names, owners⟩ :=
    redone.leaf fun node member => leaf node ((s.mem_plan planned node).1 member)
  refine ⟨fun row' member => ?_, fun name member => ?_, redone.covered ?_⟩
  · obtain ⟨row, hrow, named, redoes⟩ := redone.history member
    rw [names] at redoes
    exact ⟨row, hrow, named, redoes⟩
  · rw [← same.ids] at member
    obtain ⟨row, hrow, rfl⟩ := mem_map.1 member
    have either := redone.kept hrow
    rw [names, owners] at either
    simpa using either
  · exact (same.agesBy expansions extensions).covered s.covered

/-- A redo that the driver makes itself. -/
lemma traced_redo {brief : Option Text} (found : settled.row? id = some prior)
    (automatic : Automatic s id prior reason settled)
    (leaf : ∀ node ∈ s.plan.nodes, node.id = id → node.composite = none ∧ node.loopBody = none)
    (redo : retryCandidate document settled id brief false = some (candidate, node))
    (replans : Replans s s'
      ((commit candidate (retryAddition node reason) plan).update id (retainAccounting prior))
      plan) : ∀ row' ∈ s'.checkpoint.nodes, TracedRow {} s.checkpoint s'.checkpoint row' := by
  obtain ⟨history, kept, -⟩ := automatic.redone leaf redo
  have same := automatic.same.1
  have nodup : (settled.nodes.map (·.id)).Nodup := by
    rw [same.ids]
    exact s.nodup
  have priorId := id_of_row? found
  have priorKnown := mem_of_row? found
  intro row' member
  rw [replans.checkpoint] at member
  obtain ⟨committed, hcommitted, rfl⟩ := mem_map.1 member
  rcases continues_commit _ _ _ committed hcommitted with ⟨old, known, same'⟩ | ⟨unknown, fresh⟩
  · obtain ⟨middle, hmiddle, named, redoes⟩ := history old known
    obtain ⟨row, hrow, before⟩ := same.before hmiddle
    have identity : committed.id = row.id := (same'.id.trans named).trans before.id
    split
    next own =>
      have unique : middle = prior :=
        inj_on_of_nodup_map nodup hmiddle priorKnown (by rw [priorId, ← own, same'.id, named])
      subst unique
      have resets : committed.history = middle.history.reset := by
        rw [same'.history, redoes, redoneHistory, if_pos (by rw [priorId]; exact mem_cons_self)]
      refine .inl ⟨row, hrow, identity, ?_⟩
      rw [history_retainAccounting resets, ← before.history, ← identity, own]
      refine automatic.traced fun continues => continued_commit candidate node id plan _ ?_
      rw [replans.checkpoint, continues]
      rfl
    next other =>
      refine .inl ⟨row, hrow, identity, ?_⟩
      rw [same'.history, redoes, redoneHistory, if_neg, before.history]
      · exact .keep
      · rw [mem_singleton, ← named, ← same'.id]
        exact other
  · split
    next own =>
      refine absurd (kept _ ?_) unknown
      rw [own, ← priorId, ← same.ids]
      exact mem_map_of_mem priorKnown
    · exact .inr ⟨.inl fun before => unknown (kept _ before), fresh⟩

/-- Every row of a step continues the history of the row before it, or is new. -/
theorem AttemptStep.traced (h : AttemptStep policy scope s s') :
    ∀ row' ∈ s'.checkpoint.nodes, TracedRow scope s.checkpoint s'.checkpoint row' := by
  cases h with
  | drive step plain observed => exact step.traced plain observed
  | deliver _ _ moves =>
    intro row' member
    rw [moves.checkpoint] at member
    obtain ⟨row, known, named, same | ⟨delivered, same⟩⟩ := history_retryDelivered member
    · refine .inl ⟨row, known, named, ?_⟩
      rw [same]
      exact .keep
    · obtain ⟨last, found, reopened⟩ := history_reopenRow delivered
      refine .inl ⟨row, known, named, ?_⟩
      rw [same, reopened]
      exact .reopen (mem_map_of_mem (mem_filter.2 ⟨known, delivered⟩)) last found
  | retry idle redo admits replans =>
    obtain ⟨_, _, _, _, redone, -⟩ := retryCandidate_eq_some redo
    rw [redone.redoScope_eq]
    intro row' member
    rw [replans.checkpoint] at member
    rcases continues_commit _ _ _ row' member with ⟨old, known, same⟩ | ⟨unknown, fresh⟩
    · obtain ⟨row, hrow, named, redoes⟩ := redone.history known
      refine .inl ⟨row, hrow, same.id.trans named, ?_⟩
      rw [same.history, redoes, redoneHistory]
      split
      next inside =>
        exact .reset inside
      · exact .keep
    · refine .inr ⟨?_, fresh⟩
      by_cases before : row'.id ∈ s.checkpoint.nodes.map (·.id)
      · obtain ⟨row, hrow, named⟩ := mem_map.1 before
        rcases redone.kept hrow with kept | retired
        · exact absurd (named ▸ kept) unknown
        · exact .inr (named ▸ retired)
      · exact .inl before
  | redo found automatic leaf redo _ replans => exact traced_redo found automatic leaf redo replans

lemma SameTopology.kept (same : SameTopology s s') (known : id ∈ s.checkpoint.nodes.map (·.id)) :
    id ∈ s'.checkpoint.nodes.map (·.id) := by
  rw [s'.aligned, same.plan, ← s.aligned]
  exact known

/-- Admission keeps the row of every identifier. -/
lemma Replans.kept {middle : GraphCheckpoint} {addition : Addition}
    (replans : Replans s s' checkpoint plan) (admits : Admits document middle addition plan)
    (covered : Covered document middle) (known : id ∈ middle.nodes.map (·.id)) :
    id ∈ s'.checkpoint.nodes.map (·.id) := by
  obtain ⟨row, member, rfl⟩ := mem_map.1 known
  rw [s'.aligned, replans.plan]
  exact admits.covers covered row member

/-- Only a requested redo removes rows. -/
theorem AttemptStep.kept (h : AttemptStep policy scope s s') (member : row ∈ s.checkpoint.nodes) :
    row.id ∈ s'.checkpoint.nodes.map (·.id) ∨ row.id ∈ scope.retired := by
  have known : row.id ∈ s.checkpoint.nodes.map (·.id) := mem_map_of_mem member
  cases h with
  | retry _ redo admits replans =>
    obtain ⟨_, _, _, _, redone, -⟩ := retryCandidate_eq_some redo
    rw [redone.redoScope_eq]
    rcases redone.kept member with kept | retired
    · exact .inl (replans.kept admits (redone.covered s.covered) kept)
    · exact .inr retired
  | redo _ automatic leaf redo admits replans =>
    obtain ⟨-, kept, covered⟩ := automatic.redone leaf redo
    exact .inl (replans.kept admits covered (kept _ known))
  | deliver _ _ moves => exact .inl ((moves.sameTopology rfl rfl).kept known)
  | drive step plain observed =>
    rename_i event
    left
    cases replans : event.replans with
    | false => exact (step.sameTopology replans).kept known
    | true =>
      cases step with
      | expand _ found contributes _ _ _ _ _ admits replans =>
        have same := s.sameRows_update found contributes.sameHistory
        refine replans.kept admits ((same.agesBy rfl rfl).covered s.covered) ?_
        rw [same.ids]
        exact known
      | patch _ _ admits replans => exact replans.kept admits s.covered known
      | @extend _ _ extension _ _ _ _ _ _ resumed after plans replans =>
        rw [← ((applyResume_eq_some resumed).1.unpauseLoops [extension]).ids] at known
        obtain ⟨middle, hmiddle, named⟩ := mem_map.1 known
        rw [s'.aligned, replans.plan, ← named]
        exact covers_extend resumed after plans middle hmiddle
      | retry | redo => cases plain
      | _ => cases replans

end Provenant.Graph

import Provenant.Graph.AttemptHistory

/-!
# The budget of a graph

Before a node is launched, what the settled attempts of the graph used is compared with its budget.
The totals are sums over the rows of the checkpoint: all attempts of earlier redos count, and those
of the current one that ended. A redo archives the attempts of a row, so it loses nothing; but the
rows that it retires leave the checkpoint, and what their attempts used is counted no more.

## Main definitions

* `rowTotals`, `graphTotals` — what the attempts of a node and of a graph used.
* `used` — what the attempts in a history used, in one metric.
* `SparesUsage` — the rows that a request retires or opens again used nothing.

## Main results

* `Traced.used_le` — no change of a history lowers what it used, unless it opens an attempt again.
* `budget_monotone` — in every run whose requests spare the usage, the totals never decrease.
* `retry_lowers_budget` — a redo of a planner lowers the totals of its graph.

## Implementation notes

Sums saturate at 64 bits. The limits themselves are not modelled, only what is compared with them.
-/

namespace Provenant.Graph

open List Relation GraphCheckpoint

open Json (Text text)

/-! ### Saturating sums -/

/-- The greatest 64-bit number. -/
def maxWord : Nat := 2 ^ 64 - 1

/-- `saturating_add` of 64-bit numbers. -/
def saturatingAdd (a b : Nat) : Nat := min (a + b) maxWord

/-- A sum that saturates on the way is the sum, cut off. -/
lemma foldl_saturatingAdd {α : Type} (f : α → Nat) (items : List α) {start : Nat}
    (word : start ≤ maxWord) :
    items.foldl (fun total item => saturatingAdd total (f item)) start =
      min (start + (items.map f).sum) maxWord := by
  induction items generalizing start with
  | nil => simpa using word
  | cons item _ ih =>
    have step : saturatingAdd start (f item) ≤ maxWord := min_le_right _ _
    rw [foldl_cons, ih step, map_cons, sum_cons, saturatingAdd]
    omega

/-! ### Totals -/

/-- What some attempts used, and which metrics are not known of all of them. -/
structure UsageTotals where
  tokens : Nat := 0
  cost : Nat := 0
  seconds : Nat := 0
  tokensUnknown : Bool := false
  costUnknown : Bool := false
  secondsUnknown : Bool := false
  deriving DecidableEq

/-- The totals with one more attempt. -/
def UsageTotals.addAttempt (totals : UsageTotals) (attempt : GraphAttempt) : UsageTotals :=
  let tokens := attempt.usage.bind (·.tokens)
  let cost := attempt.usage.bind (·.costMicroUsd)
  let seconds := attempt.usage.bind (·.wallTimeSeconds)
  { tokens := saturatingAdd totals.tokens (tokens.getD 0)
    cost := saturatingAdd totals.cost (cost.getD 0)
    seconds := saturatingAdd totals.seconds (seconds.getD 0)
    tokensUnknown := totals.tokensUnknown || tokens.isNone || attempt.usage.any (·.tokensPartial)
    costUnknown := totals.costUnknown || cost.isNone || attempt.usage.any (·.costPartial)
    secondsUnknown := totals.secondsUnknown || seconds.isNone }

/-- The totals of two groups of attempts. -/
def UsageTotals.add (totals more : UsageTotals) : UsageTotals :=
  { tokens := saturatingAdd totals.tokens more.tokens
    cost := saturatingAdd totals.cost more.cost
    seconds := saturatingAdd totals.seconds more.seconds
    tokensUnknown := totals.tokensUnknown || more.tokensUnknown
    costUnknown := totals.costUnknown || more.costUnknown
    secondsUnknown := totals.secondsUnknown || more.secondsUnknown }

/-- The attempts that count: those of earlier redos and those that ended, if they were launched. -/
def countedAttempts (history : History) : List GraphAttempt :=
  (history.previous ++ history.attempts.filter (·.state == .terminal)).filter (·.launched)

/-- What the attempts of a node used. -/
def rowTotals (row : NodeProgress) : UsageTotals :=
  (countedAttempts row.history).foldl UsageTotals.addAttempt {}

/-- What the attempts of a graph used. -/
def graphTotals (checkpoint : GraphCheckpoint) : UsageTotals :=
  checkpoint.nodes.foldl (fun totals row => totals.add (rowTotals row)) {}

/-! ### Metrics -/

/-- One of the sums that are compared with the budget. -/
structure Metric where
  reading : AttemptUsage → Option Nat
  total : UsageTotals → Nat
  total_empty : total {} = 0
  total_addAttempt : ∀ totals attempt, total (totals.addAttempt attempt) =
    saturatingAdd (total totals) ((attempt.usage.bind reading).getD 0)
  total_add : ∀ totals more, total (totals.add more) = saturatingAdd (total totals) (total more)

/-- Settled tokens. -/
def Metric.tokens : Metric :=
  { reading := (·.tokens), total := (·.tokens), total_empty := rfl
    total_addAttempt := fun _ _ => rfl, total_add := fun _ _ => rfl }

/-- Elapsed seconds. -/
def Metric.seconds : Metric :=
  { reading := (·.wallTimeSeconds), total := (·.seconds), total_empty := rfl
    total_addAttempt := fun _ _ => rfl, total_add := fun _ _ => rfl }

variable (metric : Metric)

/-- What one attempt used. -/
def spent (attempt : GraphAttempt) : Nat :=
  if attempt.launched then (attempt.usage.bind metric.reading).getD 0 else 0

/-- What some attempts used. -/
def spentBy (attempts : List GraphAttempt) : Nat := (attempts.map (spent metric)).sum

/-- What the attempts in a history used, as far as they count. -/
def used (history : History) : Nat :=
  spentBy metric history.previous + spentBy metric (history.attempts.filter (·.state == .terminal))

@[simp]
lemma spentBy_append (attempts more : List GraphAttempt) :
    spentBy metric (attempts ++ more) = spentBy metric attempts + spentBy metric more := by
  simp [spentBy]

lemma spentBy_filter_le (keeps : GraphAttempt → Bool) (attempts : List GraphAttempt) :
    spentBy metric (attempts.filter keeps) ≤ spentBy metric attempts := by
  induction attempts with
  | nil => exact le_rfl
  | cons _ _ ih =>
    simp only [spentBy, filter_cons, map_cons, sum_cons] at ih ⊢
    split
    · simp only [map_cons, sum_cons]
      omega
    · omega

/-- Attempts that were not launched used nothing. -/
lemma spentBy_filter_launched (attempts : List GraphAttempt) :
    ((attempts.filter (·.launched)).map fun attempt =>
      (attempt.usage.bind metric.reading).getD 0).sum = spentBy metric attempts := by
  induction attempts with
  | nil => rfl
  | cons _ _ ih =>
    simp only [spentBy, filter_cons, map_cons, sum_cons, spent] at ih ⊢
    split
    · simp [ih]
    · simp [ih]

/-- The total of a row is what its attempts used, cut off. -/
lemma total_rowTotals (row : NodeProgress) :
    metric.total (rowTotals row) = min (used metric row.history) maxWord := by
  unfold rowTotals countedAttempts
  rw [← @foldl_hom _ _ _ metric.total _
      (fun total attempt => saturatingAdd total ((attempt.usage.bind metric.reading).getD 0)) _ _
      fun totals attempt => (metric.total_addAttempt totals attempt).symm,
    metric.total_empty, foldl_saturatingAdd _ _ (Nat.zero_le _), spentBy_filter_launched,
    spentBy_append, used, Nat.zero_add]

/-- The total of a graph is what all its attempts used, cut off. -/
lemma total_graphTotals (checkpoint : GraphCheckpoint) :
    metric.total (graphTotals checkpoint) =
      min ((checkpoint.nodes.map fun row => used metric row.history).sum) maxWord := by
  have step (totals : UsageTotals) (row : NodeProgress) :
      saturatingAdd (metric.total totals) (used metric row.history) =
        metric.total (totals.add (rowTotals row)) := by
    rw [metric.total_add, total_rowTotals, saturatingAdd, saturatingAdd]
    omega
  unfold graphTotals
  rw [← @foldl_hom _ _ _ metric.total _
      (fun total row => saturatingAdd total (used metric row.history)) _ _ step,
    metric.total_empty, foldl_saturatingAdd _ _ (Nat.zero_le _), Nat.zero_add]

/-! ### Histories -/

/-- The last attempt of a history used nothing that counts. -/
def lastUnspent (history : History) : Prop :=
  ∀ last ∈ history.attempts.getLast?, spent metric last = 0

/-- An attempt that has not ended does not count. -/
lemma spentBy_terminal_concat (attempts : List GraphAttempt) {attempt : GraphAttempt}
    (running : attempt.state ≠ .terminal) :
    spentBy metric ((attempts ++ [attempt]).filter (·.state == .terminal)) =
      spentBy metric (attempts.filter (·.state == .terminal)) := by
  simp [filter_append, running]

/-- What the attempts before the last one used counts. -/
lemma spentBy_dropLast_le (attempts : List GraphAttempt) {attempt : GraphAttempt} :
    spentBy metric (attempts.filter (·.state == .terminal)) ≤
      spentBy metric ((attempts ++ [attempt]).filter (·.state == .terminal)) := by
  rw [filter_append, spentBy_append]
  exact Nat.le_add_right _ _

/-- Archived attempts all count. -/
lemma used_le_archived {history history' : History}
    (previous : history'.previous = history.previous ++ history.attempts) :
    used metric history ≤ used metric history' := by
  unfold used
  rw [previous, spentBy_append]
  have := spentBy_filter_le metric (·.state == .terminal) history.attempts
  omega

/-- No change of a history lowers what it used, unless it opens again an attempt that counts. -/
lemma Traced.used_le {checkpoint checkpoint' : GraphCheckpoint} {scope : StepScope} {id : Text}
    {history history' : History} (h : Traced checkpoint checkpoint' scope id history history')
    (spares : id ∈ scope.reopened → lastUnspent metric history) :
    used metric history ≤ used metric history' := by
  cases h with
  | keep => exact le_rfl
  | observe observed =>
    unfold used
    rw [observed.previous]
    rcases observed.attempts with same | ⟨last, last', found, running, -, changed⟩
    · rw [same]
    · have split := dropLast_append_getLast? last found
      have before := spentBy_terminal_concat metric history.attempts.dropLast running
      have after := @spentBy_dropLast_le metric history.attempts.dropLast last'
      rw [split] at before
      rw [changed, before]
      omega
  | begin _ attempt starting =>
    have running : attempt.state ≠ .terminal := by
      rw [starting]
      decide
    exact le_of_eq (congrArg (_ + ·) (spentBy_terminal_concat metric _ running).symm)
  | reopen member last found =>
    have split := dropLast_append_getLast? last found
    have free : spent metric last = 0 := spares member last found
    have reopened := @spentBy_terminal_concat metric history.attempts.dropLast
      { last with state := .starting, outcome := none } nofun
    have before : spentBy metric (history.attempts.filter (·.state == .terminal)) ≤
        spentBy metric (history.attempts.dropLast.filter (·.state == .terminal)) := by
      conv_lhs => rw [← split]
      rw [filter_append, spentBy_append]
      have single := spentBy_filter_le metric (·.state == .terminal) [last]
      have none : spentBy metric [last] = 0 := by simp [spentBy, free]
      omega
    unfold used
    dsimp only
    omega
  | reset | redraw | continueStopped => exact used_le_archived metric rfl

/-! ### Runs -/

variable {document : GraphDocument} {policy : ReviewPolicy} {scope : StepScope}
  {s s' : Driver document}

/-- What the attempts of the node of an identifier used. -/
def usedBy (checkpoint : GraphCheckpoint) (id : Text) : Nat :=
  ((checkpoint.row? id).map fun row => used metric row.history).getD 0

/-- The rows that a request retires used nothing, and neither did the attempts that it opens
again. -/
structure Spares (scope : StepScope) (checkpoint : GraphCheckpoint) : Prop where
  retired : ∀ row ∈ checkpoint.nodes, row.id ∈ scope.retired → used metric row.history = 0
  reopened : ∀ row ∈ checkpoint.nodes, row.id ∈ scope.reopened → lastUnspent metric row.history

lemma Driver.usedBy_of_mem (s : Driver document) {row : NodeProgress}
    (member : row ∈ s.checkpoint.nodes) :
    usedBy metric s.checkpoint row.id = used metric row.history := by
  rw [usedBy, s.row?_of_mem member]
  rfl

/-- A step that spares the usage lowers what no node used. -/
lemma AttemptStep.usedBy_le (step : AttemptStep policy scope s s')
    (spares : Spares metric scope s.checkpoint) (id : Text) :
    usedBy metric s.checkpoint id ≤ usedBy metric s'.checkpoint id := by
  cases found : s.checkpoint.row? id with
  | none => simp [usedBy, found]
  | some row =>
    have member := mem_of_row? found
    obtain rfl := id_of_row? found
    rw [s.usedBy_of_mem metric member]
    by_cases retired : row.id ∈ scope.retired
    · rw [spares.retired row member retired]
      exact Nat.zero_le _
    · have kept := (step.kept member).resolve_right retired
      obtain ⟨row', member', named⟩ := mem_map.1 kept
      rw [← named, s'.usedBy_of_mem metric member']
      rcases step.traced row' member' with ⟨origin, horigin, same, traced⟩ | ⟨unknown, -⟩
      · have unique : origin = row :=
          inj_on_of_nodup_map s.nodup horigin member (by rw [← same, named])
        subst unique
        exact traced.used_le metric (spares.reopened origin horigin)
      · rw [named] at unknown
        rcases unknown with absent | again
        · exact absurd (mem_map_of_mem member) absent
        · exact absurd again retired

/-- Rows whose nodes all used no less together used no less. -/
lemma sum_used_le {rows rows' : List NodeProgress} (nodup : (rows.map (·.id)).Nodup)
    (covers : ∀ row ∈ rows, 0 < used metric row.history → ∃ row' ∈ rows', row'.id = row.id ∧
      used metric row.history ≤ used metric row'.history) :
    (rows.map fun row => used metric row.history).sum ≤
      (rows'.map fun row => used metric row.history).sum := by
  induction rows generalizing rows' with
  | nil => exact Nat.zero_le _
  | cons row rest ih =>
    rw [map_cons, nodup_cons] at nodup
    rw [map_cons, sum_cons]
    by_cases none : used metric row.history = 0
    · rw [none, Nat.zero_add]
      exact ih nodup.2 fun other member => covers other (mem_cons_of_mem row member)
    · obtain ⟨row', member', named, le⟩ := covers row mem_cons_self (Nat.pos_of_ne_zero none)
      have later : ∀ other ∈ rest, 0 < used metric other.history → ∃ other' ∈ rows'.erase row',
          other'.id = other.id ∧ used metric other.history ≤ used metric other'.history := by
        intro other member positive
        obtain ⟨other', known, same, below⟩ := covers other (mem_cons_of_mem row member) positive
        have differs : other' ≠ row' := by
          rintro rfl
          exact nodup.1 (mem_map.2 ⟨other, member, by rw [← same, named]⟩)
        exact ⟨other', (mem_erase_of_ne differs).2 known, same, below⟩
      have total := ((perm_cons_erase member').map fun row => used metric row.history).sum_eq
      rw [map_cons, sum_cons] at total
      have rest := ih nodup.2 later
      omega

/-- The rows that a request retires, and the attempts that it opens again, used neither tokens nor
time that counts. -/
def SparesUsage (scope : StepScope) (checkpoint : GraphCheckpoint) : Prop :=
  Spares Metric.tokens scope checkpoint ∧ Spares Metric.seconds scope checkpoint

/-- A step of the driver in which no usage is lost. -/
def SparingStep (policy : ReviewPolicy) (s s' : Driver document) : Prop :=
  ∃ scope, AttemptStep policy scope s s' ∧ SparesUsage scope s.checkpoint

/-- In a run that spares a metric no node's share and no total decreases. -/
lemma total_le_of_run (run : ReflTransGen (SparingStep policy) s s')
    (spared : ∀ scope checkpoint, SparesUsage scope checkpoint → Spares metric scope checkpoint) :
    metric.total (graphTotals s.checkpoint) ≤ metric.total (graphTotals s'.checkpoint) ∧
      ∀ row ∈ s.checkpoint.nodes, ∀ row' ∈ s'.checkpoint.nodes, row'.id = row.id →
        metric.total (rowTotals row) ≤ metric.total (rowTotals row') := by
  have shares : ∀ id, usedBy metric s.checkpoint id ≤ usedBy metric s'.checkpoint id := by
    induction run with
    | refl => exact fun id => le_rfl
    | tail _ last ih =>
      obtain ⟨scope, step, spares⟩ := last
      exact fun id => (ih id).trans (step.usedBy_le metric (spared _ _ spares) id)
  refine ⟨?_, fun row member row' member' same => ?_⟩
  · rw [total_graphTotals, total_graphTotals]
    refine min_le_min_right _ (sum_used_le metric s.nodup fun row member positive => ?_)
    have below := shares row.id
    rw [s.usedBy_of_mem metric member] at below
    -- a node that used something has a row in every later state
    cases found : s'.checkpoint.row? row.id with
    | none =>
      rw [usedBy, found] at below
      exact absurd (lt_of_lt_of_le positive below) (Nat.not_lt_zero 0)
    | some row' =>
      rw [usedBy, found] at below
      exact ⟨row', mem_of_row? found, id_of_row? found, below⟩
  · rw [total_rowTotals, total_rowTotals]
    have below := shares row.id
    rw [s.usedBy_of_mem metric member, ← same, s'.usedBy_of_mem metric member'] at below
    exact min_le_min_right _ below

/-- In every run whose requests spare the usage, the totals of settled tokens and of elapsed seconds
that are compared with the budget never decrease, neither those of the graph nor those of a node.

**Proof sketch.** Apart from what is retired or opened again, a step continues the history of every
row, and no change of a history lowers what its attempts used (`Traced.used_le`). The sums over the
rows follow, and they stay sums when they saturate. -/
theorem budget_monotone (run : ReflTransGen (SparingStep policy) s s') :
    (graphTotals s.checkpoint).tokens ≤ (graphTotals s'.checkpoint).tokens ∧
      (graphTotals s.checkpoint).seconds ≤ (graphTotals s'.checkpoint).seconds ∧
      ∀ row ∈ s.checkpoint.nodes, ∀ row' ∈ s'.checkpoint.nodes, row'.id = row.id →
        (rowTotals row).tokens ≤ (rowTotals row').tokens ∧
          (rowTotals row).seconds ≤ (rowTotals row').seconds := by
  obtain ⟨tokens, nodeTokens⟩ := total_le_of_run Metric.tokens run fun _ _ spares => spares.1
  obtain ⟨seconds, nodeSeconds⟩ := total_le_of_run Metric.seconds run fun _ _ spares => spares.2
  exact ⟨tokens, seconds, fun row member row' member' same =>
    ⟨nodeTokens row member row' member' same, nodeSeconds row member row' member' same⟩⟩

/-! ### A redo that lowers the totals -/

/-- A planner. -/
def solePlanner : GraphNode :=
  { id := text "plan", routes := [anyRoute]
    plan := some {
      templates := [], maxNodes := 4, wireExports := false, fallback := none
      plannedReview := false, reviewMinSuccessful := none } }

/-- A graph of that planner. -/
def solePlannerDocument : GraphDocument := { graphId := text "planned", nodes := [solePlanner] }

/-- What the planner adds: one lane. -/
def plannedLane : Addition :=
  { source := text "plan"
    nodes := [{ id := text "plan--lane", routes := [anyRoute], dependsOn := [text "plan"] }] }

/-- The plan of the planner with the expansions so far. -/
def plannerNodes (expansions : List Expansion) : List GraphNode :=
  ((expand solePlannerDocument [] expansions).map (·.nodes)).getD []

def plannerPlan : PlannedGraph :=
  { graphId := text "planned", nodes := plannerNodes [] }

def lanePlan : PlannedGraph :=
  { graphId := text "planned", nodes := plannerNodes [.live plannedLane] }

/-- The first launch of a node of the graph. -/
def plannedKey (node : Text) : AttemptKey :=
  { graphId := text "planned", nodeId := node, routeIndex := 0, retryGeneration := none
    previousAttemptRef := none }

/-- A state of the graph before the planner ended. -/
def planning (phase : Phase) (row : NodeProgress) (begun : List AttemptKey)
    (aligned : row.id = text "plan" := by rfl) : Driver solePlannerDocument :=
  { plan := plannerPlan, checkpoint := { nodes := [row] }, phase, begun
    planned := ⟨_, rfl, rfl, rfl, rfl, .refl _⟩
    aligned := by rw [map_cons, aligned]; rfl }

/-- A state of the graph after it. -/
def planned (phase : Phase) (row lane : NodeProgress) (begun : List AttemptKey)
    (aligned : row.id = text "plan" ∧ lane.id = text "plan--lane" := by exact ⟨rfl, rfl⟩) :
    Driver solePlannerDocument :=
  { plan := lanePlan, checkpoint := { expansions := [.live plannedLane], nodes := [row, lane] }
    phase, begun
    planned := ⟨_, rfl, rfl, rfl, rfl, .refl _⟩
    aligned := by rw [map_cons, map_cons, aligned.1, aligned.2]; rfl }

/-- The row of a node whose launch ended with success after it used some tokens. -/
def endedRow (node : Text) (tokens : Nat) : NodeProgress :=
  { id := node, state := .succeeded
    attempts := [{
      key := plannedKey node, route := anyRoute, state := .terminal, outcome := some .succeeded
      usage := some { tokens := some tokens, wallTimeSeconds := some 1 } }] }

/-- The row of a node whose launch was recorded. -/
def launchedRow (node : GraphNode) : NodeProgress :=
  beginAttempt node (plannedKey node.id) anyRoute none (freshRow node)

/-- The lane of the planner, as the plan has it. -/
def plannedLaneNode : GraphNode := (plannerNodes [.live plannedLane]).getD 1 solePlanner

/-- The state before the first pass. -/
def planStart : Driver solePlannerDocument := planning .idle (freshRow solePlanner) []

/-- The state in which the planner and its lane ended, after they used seven tokens. -/
def laneEnded : Driver solePlannerDocument :=
  planned .idle (endedRow (text "plan") 2) (endedRow (text "plan--lane") 5)
    [plannedKey (text "plan--lane"), plannedKey (text "plan")]

/-- A launch that ended. -/
lemma observed_endedRow (node : GraphNode) (tokens : Nat) :
    Observed (launchedRow node).history (endedRow node.id tokens).history := by
  refine ⟨rfl, fun _ => rfl, rfl, .inr ⟨_, _, rfl, nofun, ⟨.terminal none .succeeded true
    (some { tokens := some tokens, wallTimeSeconds := some 1 }), none, false, rfl⟩, rfl⟩⟩

lemma Spares.plain (event : Event) (checkpoint : GraphCheckpoint) :
    Spares metric { launched := event.launched } checkpoint :=
  ⟨fun _ _ member => absurd member not_mem_nil,
    fun _ _ member => absurd member not_mem_nil⟩

/-- Choices that can be played are a run of every relation that has the steps of the attempts, if a
step that is about a node keeps its row or changes it in one of the listed ways. -/
lemma AttemptStep.run_of_play {R : Driver document → Driver document → Prop}
    {accepts : Event → Place → Place → Bool} (choices : List Choice) (recorded : List Launch)
    (changes : List (NodeProgress × NodeProgress))
    (observed : ∀ change ∈ changes, Observed change.1.history change.2.history)
    (steps : ∀ {event : Event} {s s' : Driver document}, Step policy event s s' →
      event.plain = true → AttemptStep policy { launched := event.launched } s s' →
      accepts event s.place s'.place = true → R s s')
    (plan : s'.plan = s.plan)
    (played : play policy s.plan (fun event here next => event.plain && accepts event here next &&
      event.about.all fun id => (here.checkpoint.row? id).any fun row =>
        (next.checkpoint.row? id).any fun row' => row == row' || changes.contains (row, row'))
      s.place choices = some (s'.place, recorded)) : ReflTransGen R s s' := by
  refine @Graph.run_of_play _ _ _ _ _ _ (fun s _ => s) (fun _ _ step passed => ?_) _ _ _ [] _ rfl
    plan played
  simp only [Bool.and_eq_true] at passed
  obtain ⟨⟨plain, accepted⟩, about⟩ := passed
  refine steps step plain ?_ accepted
  cases silent : Event.about _ with
  | none => exact .of_silent step plain silent
  | some id =>
    rw [silent, Option.all_some, Option.any_eq_true] at about
    obtain ⟨row, found, about⟩ := about
    obtain ⟨row', found', same⟩ := (Option.any_eq_true _ _).1 about
    refine .of_about step plain silent found found' ?_
    simp only [Bool.or_eq_true, beq_iff_eq, contains_iff_mem] at same
    rcases same with rfl | change
    · exact .refl _
    · exact observed _ change

/-- A step that launches, or observes what it launched, spares the usage. -/
lemma SparingStep.of_plain {event : Event}
    (step : AttemptStep policy { launched := event.launched } s s') : SparingStep policy s s' :=
  ⟨_, step, .plain _ _ _, .plain _ _ _⟩

/-- The run that leads there. -/
lemma run_laneEnded : ReflTransGen (SparingStep silentPolicy) planStart laneEnded := by
  let plan := endedRow (text "plan") 2
  let key := plannedKey (text "plan")
  let s := planning (.visiting 1) plan [key]
  let s' := planned .idle plan (freshRow plannedLaneNode) [key]
  have first : ReflTransGen (SparingStep silentPolicy) planStart s :=
    @AttemptStep.run_of_play _ silentPolicy _ _ _ (fun _ _ _ => true)
      [.start, .attempt, .begin nothingObserved, .leave plan] [(planStart.checkpoint, key)]
      [(launchedRow solePlanner, plan)] (forall_mem_singleton.2 (observed_endedRow solePlanner 2))
      (fun _ _ step _ => .of_plain step) rfl (by decide +kernel)
  have admits : Admits solePlannerDocument (s.checkpoint.update (text "plan") fun _ => plan)
      plannedLane lanePlan := ⟨⟨_, rfl, rfl, rfl, rfl, .refl _⟩, by unfold fitsEnvelope; decide⟩
  have admissible : plannedLane.Admissible solePlannerDocument s.checkpoint :=
    ⟨fun _ patched => absurd patched nofun, fun _ patched => absurd patched nofun, by decide⟩
  have expands : Step silentPolicy (.expand (text "plan")) s s' :=
    @Step.expand _ _ s s' solePlanner plan plan plannedLane solePlannerDocument lanePlan
      mem_cons_self rfl (.succeeded rfl plan.notes) rfl rfl rfl rfl admissible admits
      ⟨rfl, rfl, rfl, rfl⟩
  have last : ReflTransGen (SparingStep silentPolicy) s' laneEnded :=
    @AttemptStep.run_of_play _ silentPolicy _ _ _ (fun _ _ _ => true)
      [.start, .wait, .attempt, .begin nothingObserved, .leave (endedRow plannedLaneNode.id 5),
        .finish]
      [(s'.checkpoint, plannedKey plannedLaneNode.id)]
      [(launchedRow plannedLaneNode, endedRow plannedLaneNode.id 5)]
      (forall_mem_singleton.2 (observed_endedRow plannedLaneNode 5))
      (fun _ _ step _ => .of_plain step) rfl (by decide +kernel)
  exact (first.tail (.of_plain (.of_silent expands rfl rfl))).trans last

/-- What the lane used is counted once it ended. -/
theorem budget_monotone_laneEnded :
    (graphTotals planStart.checkpoint).tokens ≤ (graphTotals laneEnded.checkpoint).tokens ∧
      (graphTotals planStart.checkpoint).tokens = 0 ∧
      (graphTotals laneEnded.checkpoint).tokens = 7 :=
  ⟨(budget_monotone run_laneEnded).1, rfl, rfl⟩

/-- The row of the redone planner, which keeps the attempt that it archived. -/
def redonePlanner : NodeProgress :=
  { id := text "plan", retryGeneration := some 1
    previousAttempts := (endedRow (text "plan") 2).attempts }

/-- The state after the planner is redone: the lane is retired with its row. -/
def planRedone : Driver solePlannerDocument :=
  { plan := plannerPlan
    checkpoint := {
      expansions := [.retired plannedLane [endedRow (text "plan--lane") 5],
        .live (retryAddition solePlanner (text "redo the plan"))]
      nodes := [redonePlanner] }
    phase := .idle, begun := laneEnded.begun
    planned := ⟨_, rfl, rfl, rfl, rfl, .refl _⟩
    aligned := rfl }

/-- The redo of the planner is accepted. -/
lemma retryCandidate_laneEnded :
    retryCandidate solePlannerDocument laneEnded.checkpoint (text "plan") none true =
      some ({ expansions := [.retired plannedLane [endedRow (text "plan--lane") 5]]
              nodes := [redonePlanner] }, solePlanner) := by
  decide

/-- A run in which a planner and its lane use seven tokens. Then the planner is redone with its
dependants, and five of the seven tokens are counted no more. -/
theorem retry_lowers_budget :
    Initial planStart ∧ ReflTransGen (SparingStep silentPolicy) planStart laneEnded ∧
      (∃ scope, AttemptStep silentPolicy scope laneEnded planRedone) ∧
      (graphTotals laneEnded.checkpoint).tokens = 7 ∧
      (graphTotals planRedone.checkpoint).tokens = 2 := by
  refine ⟨⟨rfl, rfl, rfl, rfl, .cons (.inl ⟨(freshRow solePlanner).notes, rfl⟩) .nil⟩,
    run_laneEnded, ⟨redoScope solePlannerDocument laneEnded.checkpoint (text "plan") true, ?_⟩, rfl,
    rfl⟩
  exact .retry rfl retryCandidate_laneEnded
    ⟨⟨_, rfl, rfl, rfl, rfl, .refl _⟩, by unfold fitsEnvelope; decide⟩ ⟨rfl, rfl, rfl, rfl⟩

end Provenant.Graph

import Provenant.Graph.Budget

/-!
# The launch allowance

Before a node is launched its owner seals an allowance of retries. A further attempt, whether on the
next route, with another reviewer or with a redrawn quota, is paid from it. A redraw archives the
attempts and carries the account on. The one continuation of a writer that stopped without work
archives them too, and is not paid for.

## Main definitions

* `UnrequestedStep` — a step that resets no node on request, and launches it under a seal.
* `Account` — what the history of the node accounts for.

## Main results

* `Traced.account` — every change of a history keeps its account.
* `launch_allowance` — between two requested redos that reset a node, it is launched at most once
  more than its allowance, and once more again if it was continued meanwhile.
* `upstream_redo_relaunches` — a redo of a node resets its dependants too.

## Implementation notes

The host always answers with an allowance when the driver asks for one before the attempts of a node
begin. `UnrequestedStep` says so of the steps that launch the node.
-/

namespace Provenant.Graph

open List Option

open Json (Text text)

variable {document : GraphDocument} {policy : ReviewPolicy} {scope : StepScope}
  {s s' : Driver document}

/-! ### Records of redos stay -/

/-- The additions without nodes stay, with their reasons: these are the records of redos. -/
def KeepsRecords (expansions expansions' : List Expansion) : Prop :=
  ∀ addition, Expansion.live addition ∈ expansions → addition.nodes = [] →
    ∃ addition', Expansion.live addition' ∈ expansions' ∧ addition'.nodes = [] ∧
      addition'.patch.map (·.reason) = addition.patch.map (·.reason)

lemma KeepsRecords.append (expansions more : List Expansion) :
    KeepsRecords expansions (expansions ++ more) :=
  fun addition live empty => ⟨addition, mem_append_left _ live, empty, rfl⟩

lemma KeepsRecords.refl (expansions : List Expansion) : KeepsRecords expansions expansions :=
  fun addition live empty => ⟨addition, live, empty, rfl⟩

lemma KeepsRecords.trans {expansions expansions' expansions'' : List Expansion}
    (h : KeepsRecords expansions expansions') (h' : KeepsRecords expansions' expansions'') :
    KeepsRecords expansions expansions'' := by
  intro addition live empty
  obtain ⟨middle, live, empty, same⟩ := h addition live empty
  obtain ⟨last, live, empty, same'⟩ := h' middle live empty
  exact ⟨last, live, empty, same'.trans same⟩

/-- A retirement keeps what has no nodes. -/
lemma KeepsRecords.prune (checkpoint : GraphCheckpoint) (owner : Text) :
    KeepsRecords checkpoint.expansions (dynamicSubtree checkpoint owner).expansions := by
  intro addition live empty
  refine ⟨dropEdits (retiredIds checkpoint owner) addition,
    List.mem_map.2 ⟨.live addition, live, ?_⟩, empty, ?_⟩
  · simp [producedIn, empty]
  · simp only [dropEdits, Option.map_map]
    rfl

variable {id : Text}

/-- What was continued stays continued. -/
lemma KeepsRecords.continued {checkpoint checkpoint' : GraphCheckpoint}
    (h : KeepsRecords checkpoint.expansions checkpoint'.expansions)
    (before : Graph.continued checkpoint id = true) : Graph.continued checkpoint' id = true := by
  simp only [Graph.continued, List.any_eq_true, Bool.and_eq_true, List.isEmpty_iff,
    Option.any_eq_true, beq_iff_eq] at before ⊢
  obtain ⟨addition, live, empty, _, patched, reason⟩ := before
  obtain ⟨addition', live', empty', same⟩ := h addition (mem_liveAdditions.1 live) empty
  rw [patched, map_some, map_eq_some_iff] at same
  obtain ⟨record', patched', reason'⟩ := same
  exact ⟨addition', mem_liveAdditions.2 live', empty', record', patched', reason'.trans reason⟩

/-- A step that is no redo only adds expansions. -/
lemma Step.expansions_append {event : Event} (step : Step policy event s s')
    (plain : event.plain = true) :
    ∃ more, s'.checkpoint.expansions = s.checkpoint.expansions ++ more := by
  cases replans : event.replans with
  | false => exact ⟨[], by rw [(step.sameTopology replans).expansions, append_nil]⟩
  | true =>
    cases step with
    | expand _ _ _ _ _ _ _ _ _ replans =>
      exact ⟨_, by rw [replans.checkpoint]; rfl⟩
    | patch _ _ _ replans => exact ⟨_, by rw [replans.checkpoint]; rfl⟩
    | extend _ _ resumed _ _ replans =>
      refine ⟨[], ?_⟩
      rw [replans.checkpoint, append_nil]
      exact (agesBy_extend resumed).expansions
    | retry | redo => cases plain
    | _ => cases replans

/-- A redo keeps the records of earlier redos. -/
lemma keepsRecords_redo {checkpoint candidate : GraphCheckpoint}
    {brief : Option Text} {dependants : Bool} {node : GraphNode}
    (redo : retryCandidate document checkpoint id brief dependants = some (candidate, node)) :
    KeepsRecords checkpoint.expansions candidate.expansions := by
  obtain ⟨_, _, _, _, redone, -⟩ := retryCandidate_eq_some redo
  obtain ⟨before, -, ⟨-, -, remembered⟩, resets⟩ := redone.remembers
  rw [redone.expansions, (agesBy_resetRows resets).expansions, ← remembered]
  exact foldlRecOn
    (motive := fun pruned => KeepsRecords before.expansions pruned.expansions) _ _ (.refl _)
    fun pruned kept owner _ => kept.trans (.prune pruned owner)

/-- What was continued stays continued. -/
lemma AttemptStep.continued (step : AttemptStep policy scope s s')
    (before : Graph.continued s.checkpoint id = true) :
    Graph.continued s'.checkpoint id = true := by
  refine KeepsRecords.continued ?_ before
  cases step with
  | drive step plain =>
    obtain ⟨more, expansions⟩ := step.expansions_append plain
    rw [expansions]
    exact .append _ _
  | deliver _ _ moves =>
    rw [moves.checkpoint]
    exact .refl _
  | retry _ redo _ replans =>
    rw [replans.checkpoint]
    exact (keepsRecords_redo redo).trans (.append _ _)
  | redo _ automatic _ redo _ replans =>
    rw [replans.checkpoint, ← automatic.same.2.2]
    exact (keepsRecords_redo redo).trans (.append _ _)

/-! ### Accounts -/

/-- What a history accounts for, counted from the first `base` attempts on: archived launches are
spent, only the last attempt may be open, and all launches but the last are within the allowance,
with `extra` that were not paid. -/
structure Account (base extra : Nat) (history : History) : Prop where
  started : base ≤ history.previous.length
  archived : (history.previous.drop base).countP (·.launched) ≤ history.spent
  ended : ∀ attempt ∈ history.attempts.dropLast, attempt.state = .terminal
  unsealed : history.retry = none → history.attempts = [] ∧ history.spent = 0
  paid : ∀ limit ∈ history.retry,
    history.spent + history.attempts.dropLast.countP (·.launched) ≤ limit + extra

variable {base extra extra' : Nat} {history history' : History}

/-- A fresh history owes nothing. -/
lemma History.Fresh.account (fresh : history.Fresh) :
    Account history.recorded.length extra history where
  started := by simp [History.recorded, fresh.attempts]
  archived := by simp [History.recorded, fresh.attempts]
  ended := by simp [fresh.attempts]
  unsealed := fun _ => ⟨fresh.attempts, fresh.spent⟩
  paid := by simp [fresh.retry]

lemma Account.mono (account : Account base extra history) (more : extra ≤ extra') :
    Account base extra' history :=
  ⟨account.started, account.archived, account.ended, account.unsealed,
    fun limit sealed => (account.paid limit sealed).trans (Nat.add_le_add_left more limit)⟩

/-- All launches are those but the last, and the last one. -/
lemma countP_le_dropLast (attempts : List GraphAttempt) :
    attempts.countP (·.launched) ≤ attempts.dropLast.countP (·.launched) + 1 := by
  cases attempts using reverseRecOn with
  | nil => simp
  | append_singleton =>
    rw [dropLast_concat, countP_append, countP_singleton]
    split <;> omega

/-- The launches that an account covers. -/
lemma Account.launches_le (account : Account base extra history) {limit : Nat}
    (sealed : history.retry = some limit) :
    (history.recorded.drop base).countP (·.launched) ≤ limit + 1 + extra := by
  have paid := account.paid limit sealed
  have archived := account.archived
  have last := countP_le_dropLast history.attempts
  rw [History.recorded, drop_append_of_le_length account.started, countP_append]
  omega

/-- A history whose last attempt is replaced. -/
lemma Account.replaceLast (account : Account base extra history) (last : GraphAttempt)
    (attempted : history.attempts ≠ []) :
    Account base extra { history with attempts := history.attempts.dropLast ++ [last] } where
  started := account.started
  archived := account.archived
  ended := by
    rw [dropLast_concat]
    exact account.ended
  unsealed := fun unsealed => absurd (account.unsealed unsealed).1 attempted
  paid := by
    rw [dropLast_concat]
    exact account.paid

/-- An automatic redo carries the account on when what it spends is covered. -/
lemma Account.carry (account : Account base extra history)
    (covered : ∀ limit ∈ history.retry, history.carry.spent ≤ limit + extra') :
    Account base extra' history.carry where
  started := account.started.trans (by simp [History.carry])
  archived := by
    have archived := account.archived
    simp only [History.carry, drop_append_of_le_length account.started, countP_append]
    omega
  ended := by simp [History.carry]
  unsealed := fun unsealed => by
    obtain ⟨attempts, spent⟩ := account.unsealed unsealed
    simp [History.carry, attempts, spent]
  paid := fun limit sealed => by simpa [History.carry] using covered limit sealed

/-- What an automatic redo spends is at most what it archives, and one launch. -/
lemma carry_spent_le (history : History) :
    history.carry.spent ≤ history.spent + history.attempts.dropLast.countP (·.launched) + 1 := by
  unfold History.carry
  cases history.attempts using reverseRecOn with
  | nil => simp
  | append_singleton _ last =>
    cases launched : last.launched
    · simp [launched]
    · simp [launched]
      omega

/-- All attempts of a history ended when the last one did. -/
lemma Account.terminal (account : Account base extra history)
    (ended : ∀ last ∈ history.attempts.getLast?, last.state = .terminal) :
    ∀ attempt ∈ history.attempts, attempt.state = .terminal := by
  have earlier := account.ended
  cases attempts : history.attempts using reverseRecOn with
  | nil => simp
  | append_singleton _ last =>
    rw [attempts, dropLast_concat] at earlier
    rw [attempts, getLast?_concat] at ended
    intro attempt member
    rcases mem_append.1 member with old | new
    · exact earlier attempt old
    · rw [mem_singleton.1 new]
      exact ended last rfl

/-- A launch is covered: it is the first, or it follows an attempt that was not launched, or the
allowance pays for it. -/
lemma Account.begin (account : Account base extra history) (may : history.MayBegin)
    (sealed : history.retry.isSome = true) (attempt : GraphAttempt) :
    Account base extra { history with attempts := history.attempts ++ [attempt] } where
  started := account.started
  archived := account.archived
  ended := by
    rw [dropLast_concat]
    exact account.terminal may.ended
  unsealed := fun unsealed => by
    rw [show history.retry = none from unsealed] at sealed
    cases sealed
  paid := fun limit allowed => by
    rw [dropLast_concat]
    have paid := account.paid limit allowed
    have ended := account.terminal may.ended
    by_cases switch : ∃ last ∈ history.attempts.getLast?, history.switch last = true
    · -- every launch counts as a switch
      have switches : history.attempts.countP (·.launched) ≤ history.attempts.countP history.switch :=
        countP_mono_left fun attempt member launched => by
          simp [History.switch, ended attempt member, launched]
      exact (Nat.add_le_add_left switches _).trans
        ((may.paid switch limit allowed).trans (Nat.le_add_right limit extra))
    · cases attempts : history.attempts using reverseRecOn with
      | nil => simpa [attempts] using paid
      | append_singleton _ last =>
        have found : history.attempts.getLast? = some last := by
          rw [attempts, getLast?_concat]
        have unlaunched : last.launched = false := by
          rw [← Bool.not_eq_true]
          intro launched
          refine switch ⟨last, found, ?_⟩
          simp [History.switch, ended last (mem_of_getLast? found), launched]
        rw [attempts, dropLast_concat] at paid
        simpa [countP_append, unlaunched] using paid

/-- What the attempt loop observes leaves the account alone. A row is sealed before its first
attempt. -/
lemma Account.observe (account : Account base extra history) (observed : Observed history history') :
    Account base extra history' := by
  obtain ⟨previous, allowance, spent, attempts⟩ := observed
  have earlier : history'.attempts.dropLast = history.attempts.dropLast := by
    rcases attempts with same | ⟨last, last', -, -, -, replaced⟩
    · rw [same]
    · rw [replaced, dropLast_concat]
  have unattempted : history.attempts = [] → history'.attempts = [] := by
    intro empty
    rcases attempts with same | ⟨last, last', found, -⟩
    · rw [same, empty]
    · rw [empty] at found
      cases found
  refine ⟨by rw [previous]; exact account.started, by rw [previous, spent]; exact account.archived,
    by rw [earlier]; exact account.ended, fun unsealed => ?_, fun limit sealed => ?_⟩
  · have before : history.retry = none := by
      cases sealed : history.retry with
      | none => rfl
      | some _ =>
        rw [allowance (by rw [sealed]; rfl), sealed] at unsealed
        cases unsealed
    obtain ⟨empty, nothing⟩ := account.unsealed before
    exact ⟨unattempted empty, spent.trans nothing⟩
  · rw [spent, earlier]
    cases before : history.retry with
    | none =>
      obtain ⟨empty, nothing⟩ := account.unsealed before
      simp [empty, nothing]
    | some _ =>
      rw [allowance (by rw [before]; rfl)] at sealed
      exact account.paid limit sealed

/-- Every change of a history keeps its account, but for the redos that were requested. -/
lemma Traced.account {checkpoint checkpoint' : GraphCheckpoint}
    (traced : Traced checkpoint checkpoint' scope id history history')
    (unrequested : id ∉ scope.reset)
    (sealed : id ∈ scope.launched → history.retry.isSome = true)
    (account : Account base extra history) (more : extra ≤ extra')
    (once : continued checkpoint id = false → continued checkpoint' id = true → extra < extra') :
    Account base extra' history' := by
  cases traced with
  | keep => exact account.mono more
  | observe observed => exact (account.observe observed).mono more
  | begin member attempt _ _ _ may =>
    exact (account.begin may (sealed member) attempt).mono more
  | reopen _ _ ended =>
    refine (account.replaceLast _ fun empty => ?_).mono more
    rw [empty] at ended
    cases ended
  | reset member => exact absurd member unrequested
  | redraw budget =>
    refine account.carry fun limit allowed => ?_
    rw [History.redrawBudget, show history.retry = some limit from allowed, any_some,
      decide_eq_true_eq] at budget
    exact Nat.le_add_right_of_le budget
  | continueStopped first now =>
    refine account.carry fun limit allowed => ?_
    have spends := carry_spent_le history
    have paid := account.paid limit allowed
    have fewer := once first now
    omega

/-! ### Runs -/

/-- A step that is no requested redo which resets or retires the node `id`, be it a redo of the node
or of one that it depends on. When it launches the node, the owner has sealed an allowance. -/
def UnrequestedStep (policy : ReviewPolicy) (id : Text) (s s' : Driver document) : Prop :=
  ∃ scope, AttemptStep policy scope s s' ∧ id ∉ scope.reset ∧ id ∉ scope.retired ∧
    (id ∈ scope.launched → ∀ row, s.checkpoint.row? id = some row → row.retry.isSome = true)

/-- The node was continued after `start`. -/
def continuedSince (start s : Driver document) (id : Text) : Nat :=
  if continued s.checkpoint id && !continued start.checkpoint id then 1 else 0

/-- A step keeps the account of the node. -/
lemma UnrequestedStep.account {start : Driver document} {row : NodeProgress}
    (step : UnrequestedStep policy id s s') (found : s.checkpoint.row? id = some row)
    (earlier : continued start.checkpoint id = true → continued s.checkpoint id = true)
    (account : Account base (continuedSince start s id) row.history) :
    ∃ row', s'.checkpoint.row? id = some row' ∧
      Account base (continuedSince start s' id) row'.history := by
  obtain ⟨scope, step, unrequested, unretired, sealed⟩ := step
  have named := GraphCheckpoint.id_of_row? found
  have member := GraphCheckpoint.mem_of_row? found
  have kept : id ∈ s'.checkpoint.nodes.map (·.id) := by
    rcases step.kept member with kept | retired
    · rwa [named] at kept
    · exact absurd (named ▸ retired) unretired
  obtain ⟨row', member', named'⟩ := List.mem_map.1 kept
  refine ⟨row', by rw [← named']; exact s'.row?_of_mem member', ?_⟩
  rcases step.traced row' member' with ⟨old, known, same, traced⟩ | ⟨fresh | retired, -⟩
  · have unique : old = row :=
      inj_on_of_nodup_map s.nodup known member (by rw [← same, named', named])
    subst unique
    rw [named] at traced
    refine traced.account unrequested (fun launched => sealed launched old found) account ?_ ?_
    · unfold continuedSince
      cases now : continued s.checkpoint id with
      | false => simp
      | true => rw [step.continued now]
    · intro first now
      have never : continued start.checkpoint id = false := by
        rw [← Bool.not_eq_true]
        intro before
        rw [earlier before] at first
        cases first
      simp [continuedSince, first, now, never]
  · rw [named', ← named] at fresh
    exact absurd (List.mem_map_of_mem member) fresh
  · exact absurd (named' ▸ retired) unretired

/-- Between two requested redos that reset or retire a node, its launches are at most one more than the allowance
that was sealed for it, and one more again if it was continued meanwhile after it had stopped
without work. Launches on further routes, with other reviewers and with redrawn quotas all count.

**Proof sketch.** A requested redo leaves a fresh history. From there every step keeps the account
of the node: archived launches are spent, and all launches but the last are within the allowance,
with one that is not paid once the node was continued (`Traced.account`). A node is continued once,
since the record of its redo is never retired. -/
theorem launch_allowance {id : Text} {row row' : NodeProgress} {limit : Nat}
    (found : s.checkpoint.row? id = some row) (fresh : row.history.Fresh)
    (run : Relation.ReflTransGen (UnrequestedStep policy id) s s')
    (found' : s'.checkpoint.row? id = some row') (sealed : row'.retry = some limit) :
    (row'.history.recorded.drop row.history.recorded.length).countP (·.launched) ≤
      limit + 1 + if continued s'.checkpoint id && !continued s.checkpoint id then 1 else 0 := by
  have kept : (continued s.checkpoint id = true → continued s'.checkpoint id = true) ∧
      ∃ row', s'.checkpoint.row? id = some row' ∧
        Account row.history.recorded.length (continuedSince s s' id) row'.history := by
    clear found' sealed
    induction run with
    | refl => exact ⟨fun before => before, row, found, fresh.account⟩
    | tail _ step ih =>
      obtain ⟨earlier, last, hlast, account⟩ := ih
      have after := step.account hlast earlier account
      obtain ⟨scope, step, -⟩ := step
      exact ⟨fun before => step.continued (earlier before), after⟩
  obtain ⟨-, last, hlast, account⟩ := kept
  rw [found'] at hlast
  cases hlast
  exact account.launches_le sealed

/-! ### A node and its dependant -/

/-- A node, and one that depends on it and can be launched on two routes. -/
def pairFirst : GraphNode := { id := text "first", routes := [anyRoute] }

def pairSecond : GraphNode :=
  { id := text "second", access := .readOnly, routes := [anyRoute, anyRoute]
    dependsOn := [text "first"] }

def pairDocument : GraphDocument := { graphId := text "pair", nodes := [pairFirst, pairSecond] }

def pairPlan : PlannedGraph :=
  { graphId := text "pair", nodes := pairDocument.nodes }

/-- A state of that graph. -/
def pair (phase : Phase) (first second : NodeProgress) (begun : List AttemptKey)
    (expansions : List Expansion := [])
    (planned : ∃ expanded, expand pairDocument [] expansions = some expanded ∧
      Plans expanded pairPlan := by exact ⟨_, rfl, rfl, rfl, rfl, .refl _⟩)
    (aligned : first.id = text "first" ∧ second.id = text "second" := by exact ⟨rfl, rfl⟩) :
    Driver pairDocument :=
  { plan := pairPlan, checkpoint := { expansions, nodes := [first, second] }, phase, begun, planned
    aligned := by rw [map_cons, map_cons, aligned.1, aligned.2]; rfl }

/-- The state before the first pass. -/
def pairStart : Driver pairDocument := pair .idle (freshRow pairFirst) (freshRow pairSecond) []

/-- A launch of a node, in a generation of its row. -/
def pairKey (node : GraphNode) (routeIndex : Nat) (retryGeneration : Option Nat) : AttemptKey :=
  { graphId := text "pair", nodeId := node.id, routeIndex, retryGeneration
    previousAttemptRef := none }

/-- The row after its owner sealed an allowance. -/
def sealRow (limit : Nat) (row : NodeProgress) : NodeProgress := { row with retry := some limit }

/-- The row after its last attempt ended. -/
def endRow (state : NodeState) (outcome : AttemptOutcome) (row : NodeProgress) : NodeProgress :=
  { row with
    state
    attempts := row.attempts.dropLast ++ row.attempts.getLast?.toList.map
      (·.report (.terminal none outcome true none)) }

lemma observed_sealRow (limit : Nat) {row : NodeProgress} (unsealed : row.retry = none) :
    Observed row.history (sealRow limit row).history :=
  ⟨rfl, fun sealed => absurd sealed (by simp [NodeProgress.history, unsealed]), rfl, .inl rfl⟩

lemma observed_endRow (state : NodeState) (outcome : AttemptOutcome) {row : NodeProgress}
    {last : GraphAttempt} (found : row.attempts.getLast? = some last)
    (unended : last.state ≠ .terminal) :
    Observed row.history (endRow state outcome row).history :=
  ⟨rfl, fun _ => rfl, rfl, .inr ⟨last, _, found, unended,
    ⟨.terminal none outcome true none, last.inputManifest, last.refusalProof, rfl⟩,
    by simp [endRow, NodeProgress.history, found, GraphAttempt.report]⟩⟩

/-- The row of a node that was launched under a sealed allowance. -/
def beginRow (node : GraphNode) (limit : Nat) (row : NodeProgress) : NodeProgress :=
  beginAttempt node (pairKey node 0 row.retryGeneration) anyRoute none (sealRow limit row)

lemma observed_beginRow (node : GraphNode) (limit : Nat) (row : NodeProgress) (state : NodeState)
    (outcome : AttemptOutcome) :
    Observed (beginRow node limit row).history
      (endRow state outcome (beginRow node limit row)).history := by
  have found : (beginRow node limit row).attempts.getLast? = some _ := getLast?_concat
  exact observed_endRow state outcome found nofun

/-- Its row after that launch ended well. -/
def doneRow (node : GraphNode) (limit : Nat) (row : NodeProgress) : NodeProgress :=
  endRow .succeeded .succeeded (beginRow node limit row)

/-! ### A further launch that is paid for -/

/-- The second node meets a usage limit on its first route, and is launched on the next one. -/
def secondLimited : NodeProgress :=
  endRow .running .usageLimited (beginRow pairSecond 1 (freshRow pairSecond))

def secondSwitched : NodeProgress :=
  beginAttempt pairSecond (pairKey pairSecond 1 none) anyRoute none secondLimited

/-- The state in which it is. -/
def pairSwitched : Driver pairDocument :=
  pair (.attempting 1) (doneRow pairFirst 0 (freshRow pairFirst)) secondSwitched
    [pairKey pairSecond 1 none, pairKey pairSecond 0 none, pairKey pairFirst 0 none]

/-- The ways in which the rows change when two nodes are launched under their allowances. -/
def pairChanges (limit : Nat) (first second : NodeProgress) : List (NodeProgress × NodeProgress) :=
  [(first, sealRow 0 first), (second, sealRow limit second),
    (beginRow pairFirst 0 first, doneRow pairFirst 0 first),
    (beginRow pairSecond limit second, doneRow pairSecond limit second),
    (beginRow pairSecond limit second,
      endRow .running .usageLimited (beginRow pairSecond limit second))]

lemma observed_pairChanges (limit : Nat) {first second : NodeProgress} (unsealed : first.retry = none)
    (unsealed' : second.retry = none) :
    ∀ change ∈ pairChanges limit first second, Observed change.1.history change.2.history := by
  simp only [pairChanges, forall_mem_cons]
  exact ⟨observed_sealRow 0 unsealed, observed_sealRow limit unsealed',
    observed_beginRow _ _ _ _ _, observed_beginRow _ _ _ _ _, observed_beginRow _ _ _ _ _,
    forall_mem_nil _⟩

lemma run_pairSwitched :
    Relation.ReflTransGen (UnrequestedStep silentPolicy (text "second")) pairStart pairSwitched := by
  refine @AttemptStep.run_of_play _ silentPolicy _ _ _
    (fun event here _ => event.launched.all fun id =>
      (here.checkpoint.row? id).all (·.retry.isSome))
    [.start, .attempt, .change (sealRow 0 (freshRow pairFirst)), .begin nothingObserved,
      .leave (doneRow pairFirst 0 (freshRow pairFirst)), .attempt,
      .change (sealRow 1 (freshRow pairSecond)), .begin nothingObserved, .change secondLimited,
      .begin { nothingObserved with fallbackAllowed := true }] _
    (pairChanges 1 (freshRow pairFirst) (freshRow pairSecond)) (observed_pairChanges 1 rfl rfl)
    (fun _ _ step sealed => ?_) rfl rfl
  refine ⟨_, step, not_mem_nil, not_mem_nil, fun launched row found => ?_⟩
  exact (Option.all_eq_true _ _).1 (List.all_eq_true.1 sealed _ launched) row found

/-- The second node is launched as often as its allowance pays for. -/
theorem launch_allowance_pairSwitched :
    (secondSwitched.history.recorded.drop 0).countP (·.launched) ≤ 1 + 1 + 0 ∧
      secondSwitched.history.recorded.countP (·.launched) = 2 :=
  ⟨@launch_allowance _ _ pairStart pairSwitched (text "second") (freshRow pairSecond)
    secondSwitched 1 rfl ⟨rfl, rfl, rfl⟩ run_pairSwitched rfl rfl, rfl⟩

/-! ### A redo of a node launches its dependants again -/

/-- A step that is no redo of the node itself. When it launches the node, the owner has sealed an
allowance. -/
def ElsewhereStep (policy : ReviewPolicy) (id : Text) (s s' : Driver document) : Prop :=
  ∃ event scope, Step policy event s s' ∧ AttemptStep policy scope s s' ∧ event ≠ .retry id ∧
    (id ∈ scope.launched → ∀ row, s.checkpoint.row? id = some row → row.retry.isSome = true)

/-- The state in which both nodes ended. -/
def pairDone : Driver pairDocument :=
  pair .idle (doneRow pairFirst 0 (freshRow pairFirst)) (doneRow pairSecond 0 (freshRow pairSecond))
    [pairKey pairSecond 0 none, pairKey pairFirst 0 none]

/-- The row of a node that was done once and is redone. -/
def redoneRow (node : GraphNode) : NodeProgress :=
  { id := node.id, retryGeneration := some 1
    previousAttempts := (doneRow node 0 (freshRow node)).attempts }

/-- The record of the redo. -/
def pairRedo : Expansion := .live (retryAddition pairFirst (text "redo both"))

/-- The state after the first node is redone with its dependants. -/
def pairRedone : Driver pairDocument :=
  pair .idle (redoneRow pairFirst) (redoneRow pairSecond) pairDone.begun [pairRedo]

/-- The state in which both nodes ended again. -/
def pairAgain : Driver pairDocument :=
  pair .idle (doneRow pairFirst 0 (redoneRow pairFirst))
    (doneRow pairSecond 0 (redoneRow pairSecond))
    (pairKey pairSecond 0 (some 1) :: pairKey pairFirst 0 (some 1) :: pairDone.begun) [pairRedo]

/-- Both nodes are launched, under allowances of no retry. -/
lemma run_pairDone (s s' : Driver pairDocument) (first second : NodeProgress)
    (recorded : List Launch) (unsealed : first.retry = none) (unsealed' : second.retry = none)
    (plan : s'.plan = s.plan)
    (played : play silentPolicy s.plan (fun event here next => event.plain &&
      (event.launched.all fun id => (here.checkpoint.row? id).all (·.retry.isSome)) &&
      event.about.all fun id => (here.checkpoint.row? id).any fun row =>
        (next.checkpoint.row? id).any fun row' =>
          row == row' || (pairChanges 0 first second).contains (row, row'))
      s.place [.start, .attempt, .change (sealRow 0 first), .begin nothingObserved,
        .leave (doneRow pairFirst 0 first), .attempt, .change (sealRow 0 second),
        .begin nothingObserved, .leave (doneRow pairSecond 0 second), .finish] =
      some (s'.place, recorded)) :
    Relation.ReflTransGen (ElsewhereStep silentPolicy (text "second")) s s' := by
  refine AttemptStep.run_of_play _ _ _ (observed_pairChanges 0 unsealed unsealed')
    (fun step plain attempt sealed => ?_) plan played
  refine ⟨_, _, step, attempt, ?_, fun launched row found => ?_⟩
  · rintro rfl
    cases plain
  · exact (Option.all_eq_true _ _).1 (List.all_eq_true.1 sealed _ launched) row found

/-- A run in which two nodes are launched and end, and then the first one is redone with its
dependants. The second one, which was never redone itself and may not be retried, is launched
twice. -/
theorem upstream_redo_relaunches :
    Initial pairStart ∧
      Relation.ReflTransGen (ElsewhereStep silentPolicy (text "second")) pairStart pairAgain ∧
      pairAgain.checkpoint.row? (text "second") =
        some (doneRow pairSecond 0 (redoneRow pairSecond)) ∧
      (doneRow pairSecond 0 (redoneRow pairSecond)).retry = some 0 ∧
      continued pairAgain.checkpoint (text "second") = false ∧
      (doneRow pairSecond 0 (redoneRow pairSecond)).history.recorded.countP (·.launched) = 2 := by
  have candidate : retryCandidate pairDocument pairDone.checkpoint (text "first") none true =
      some ({ nodes := [redoneRow pairFirst, redoneRow pairSecond] }, pairFirst) := by
    decide +kernel
  have admits : Admits pairDocument { nodes := [redoneRow pairFirst, redoneRow pairSecond] }
      (retryAddition pairFirst (text "redo both")) pairPlan :=
    ⟨⟨_, rfl, rfl, rfl, rfl, .refl _⟩, by unfold fitsEnvelope; decide⟩
  have redo : ElsewhereStep silentPolicy (text "second") pairDone pairRedone := by
    refine ⟨_, _, .retry rfl candidate admits ⟨rfl, rfl, rfl, rfl⟩,
      .retry rfl candidate admits ⟨rfl, rfl, rfl, rfl⟩, ?_, fun launched => ?_⟩
    · exact fun same => absurd (Event.retry.inj same) (by decide)
    · exact absurd launched (by decide)
  have first := run_pairDone pairStart pairDone (freshRow pairFirst) (freshRow pairSecond) _ rfl rfl
    rfl rfl
  have last := run_pairDone pairRedone pairAgain (redoneRow pairFirst) (redoneRow pairSecond) _ rfl
    rfl rfl rfl
  exact ⟨⟨rfl, rfl, rfl, rfl, .cons (.inl ⟨_, rfl⟩) (.cons (.inl ⟨_, rfl⟩) .nil)⟩,
    (first.tail redo).trans last, rfl, rfl, by decide, rfl⟩

end Provenant.Graph

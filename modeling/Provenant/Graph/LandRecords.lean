import Provenant.Graph.LandProtocol

/-!
# What the records of landings rest on

A landing pins the newest delivered head when it is called for the first time. It requires that a
verdict gate accepted this head; the checks of the change are a matter of the plan, and the host
checks the pinned head again before it merges.

## Main definitions

* `Pinned` — what a landing pins, and on what.
* `LandGrounds` — what the head of a landing has behind it when it is pinned.
* `AdmittedStep` — a step that leads to a plan which plan validation accepts.

## Main results

* `landed_head_rests` — every record goes back to a call at which the head was the newest one and
  accepted, under a plan with a CI gate between the writer and the landing; all requests carry it.
* `landed_past_checks` — a head that is landed by policy although the only CI gate passed, or
  failed, on an earlier one.
-/

namespace Provenant.Graph

open List

open Json (Text text)

/-! ### Pinning a head -/

/-- The record pins the newest delivered head, which a verdict gate accepted. -/
structure Pinned (plan : PlannedGraph) (checkpoint : GraphCheckpoint) (node : GraphNode)
    (branch head : Text) (record : LandRecord) : Prop where
  delivered : deliveredHead plan checkpoint node.landNode = some (branch, head)
  accepted : acceptanceError plan checkpoint node.id node.landNode head = none
  branch : record.branch = bounded branch outputFieldBytes
  head : record.head = bounded head outputFieldBytes
  tier : record.tier = node.landTier

/-- What the head of a landing has behind it when it is pinned. -/
structure LandGrounds (plan : PlannedGraph) (checkpoint : GraphCheckpoint) (node : GraphNode)
    (head : Text) : Prop where
  /-- The plan has a CI gate between the writer and the landing. -/
  checks : ∃ gate ∈ plan.nodes, gate.condition = some .ci ∧ plan.Upstream gate.id node.id ∧
    plan.Upstream node.landNode gate.id
  /-- It is the newest head that the writer and its continuations delivered. -/
  newest : ∃ branch, deliveredHead plan checkpoint node.landNode = some (branch, head)
  /-- A passed verdict gate between the writer and the landing accepted it. -/
  approved : ∃ gate ∈ plan.nodes, plan.Upstream gate.id node.id ∧
    plan.Upstream node.landNode gate.id ∧ gate.expectsApproval = true ∧
    (∃ row, checkpoint.row? gate.id = some row ∧ row.state = .succeeded ∧
      ∃ result, row.gate = some result ∧ result.passed = true) ∧
    gate.inputs ≠ [] ∧
    ∀ input ∈ gate.inputs, reviewedHead plan checkpoint input.node node.landNode = some head

variable {node : GraphNode} {checkpoint : GraphCheckpoint}

/-- A call that finds no record saves none, or first pins a head that the rest of the call is
about. -/
lemma landAdvance_unpinned (owner : LandOwner) (plan : PlannedGraph)
    (unstored : landRecord node.id checkpoint = none) :
    landAdvance owner plan node checkpoint = [] ∨
      (∃ failed, landAdvance owner plan node checkpoint = [.save failed] ∧
        landRecord node.id failed = none) ∨
      ∃ branch head record pinned rest, Pinned plan checkpoint node branch head record ∧
        landAdvance owner plan node checkpoint = .save pinned :: rest ∧
        landRecord node.id pinned = some record ∧ ∀ act ∈ rest, AboutRecord node.id record act := by
  unfold landAdvance
  cases found : checkpoint.row? node.id with
  | none => exact .inl rfl
  | some row =>
    have land : row.notes.land = none := by
      rw [landRecord, found] at unstored
      exact unstored
    have fails : ∀ code reason, landRecord node.id
        (checkpoint.update node.id (landFail code reason)) = none := by
      intro code reason
      exact (landRecord_update (f := landFail code reason) (fun _ => rfl) found).trans land
    dsimp only
    rw [land]
    split
    · exact .inl rfl
    cases delivered : deliveredHead plan checkpoint node.landNode with
    | none => exact .inr (.inl ⟨_, rfl, fails _ _⟩)
    | some delivery =>
      obtain ⟨branch, head⟩ := delivery
      dsimp only
      cases accepted : acceptanceError plan checkpoint node.id node.landNode head with
      | some _ => exact .inr (.inl ⟨_, rfl, fails _ _⟩)
      | none =>
        let record := pinnedRecord owner node branch head
        have stored : landRecord node.id (checkpoint.update node.id fun row =>
            { withRecord record row with state := .running }) = some record :=
          landRecord_update (fun _ => rfl) found
        refine .inr (.inr ⟨branch, head, record, _, _, ⟨delivered, accepted, rfl, rfl, rfl⟩, rfl,
          stored, fun act member => ?_⟩)
        exact (actsOn_driveLand owner plan node ⟨record, stored, .refl⟩ act member).about record stored

/-! ### Whole runs -/

section Run

variable {document : GraphDocument} {policy : ReviewPolicy}

/-- A step that leads to a plan which plan validation accepts. -/
def AdmittedStep (policy : ReviewPolicy) (state state' : Landing document) : Prop :=
  (∃ call, LandStep policy call state state') ∧ relationError state'.driver.plan = none

/-- A run under plans that plan validation accepts. -/
abbrev AdmittedRun (policy : ReviewPolicy) : Landing document → Landing document → Prop :=
  Relation.ReflTransGen (AdmittedStep policy)

/-- The record was pinned on the way to a state. -/
def PinnedBefore (policy : ReviewPolicy) (start state : Landing document) (id : Text)
    (record : LandRecord) : Prop :=
  ∃ earlier node branch head pinned, AdmittedRun policy start earlier ∧
    AdmittedRun policy earlier state ∧ node ∈ earlier.driver.plan.nodes ∧ node.id = id ∧
    node.land = true ∧
    Pinned earlier.driver.plan earlier.driver.checkpoint node branch head pinned ∧
    SameWorkRecord pinned record

/-- What the record of a landing and its requests go back to. -/
structure Rests (policy : ReviewPolicy) (start state : Landing document) (id : Text) : Prop where
  pinned : ∀ record, landRecord id state.driver.checkpoint = some record →
    PinnedBefore policy start state id record
  requested : ∀ request, .request request ∈ state.acts id →
    ∃ record, landRecord id state.driver.checkpoint = some record ∧
      request.branch = record.branch ∧ request.head = record.head ∧ request.tier = record.tier

variable {start state state' : Landing document} {id : Text} {record : LandRecord}
  {acts : List LandAct} {owner : LandOwner}

lemma PinnedBefore.step (h : PinnedBefore policy start state id record)
    (step : AdmittedStep policy state state') : PinnedBefore policy start state' id record := by
  obtain ⟨earlier, node, branch, head, pinned, before, after, rest⟩ := h
  exact ⟨earlier, node, branch, head, pinned, before, after.tail step, rest⟩

lemma PinnedBefore.same {record' : LandRecord} (h : PinnedBefore policy start state id record)
    (same : SameWorkRecord record record') : PinnedBefore policy start state id record' := by
  obtain ⟨earlier, node, branch, head, pinned, before, after, member, named, lands, pins, same'⟩ := h
  exact ⟨earlier, node, branch, head, pinned, before, after, member, named, lands, pins,
    same'.trans same⟩

/-- What is durable after acts about a head has a record of it. -/
lemma landRecord_durable (stored : landRecord id checkpoint = some record)
    (about : ∀ act ∈ acts, AboutRecord id record act) :
    ∃ record', landRecord id (durable acts checkpoint) = some record' ∧
      SameWorkRecord record record' := by
  unfold durable
  cases last : (saves acts).getLast? with
  | none => exact ⟨record, stored, .refl⟩
  | some _ =>
    obtain ⟨act, member, saved⟩ := mem_filterMap.1 (mem_of_getLast? last)
    have about := about act member
    cases act with
    | save | answer => cases saved; exact about
    | request | observe => cases saved

/-- A call on a landing that has a record. -/
lemma Rests.call_stored (h : Rests policy start state node.id)
    (step : AdmittedStep policy state state')
    (stored : landRecord node.id state.driver.checkpoint = some record)
    (cut : acts <+: landAdvance owner state.driver.plan node state.driver.checkpoint)
    (saved : state'.driver.checkpoint = durable acts state.driver.checkpoint)
    (logged : state'.acts node.id = state.acts node.id ++ acts) :
    Rests policy start state' node.id := by
  have about : ∀ act ∈ acts, AboutRecord node.id record act := fun act member =>
    (actsOn_landAdvance owner state.driver.plan node act (cut.subset member)).about record stored
  obtain ⟨record', stored', same⟩ := landRecord_durable stored about
  rw [← saved] at stored'
  constructor
  · intro record'' found
    cases stored'.symm.trans found
    exact ((h.pinned record stored).step step).same same
  · intro request member
    refine ⟨record', stored', ?_⟩
    rw [same.branch, same.head, same.tier]
    rw [logged] at member
    rcases mem_append.1 member with old | new
    · obtain ⟨known, found, sent⟩ := h.requested request old
      cases stored.symm.trans found
      exact sent
    · exact about _ new

/-- A call that finds no record, cut at any point: it stored none and made no request, or it pinned a
head and its requests are about it. -/
lemma durable_unpinned {plan : PlannedGraph} (unstored : landRecord node.id checkpoint = none)
    (cut : acts <+: landAdvance owner plan node checkpoint) :
    (landRecord node.id (durable acts checkpoint) = none ∧ ∀ request, .request request ∉ acts) ∨
      ∃ branch head pinned record, Pinned plan checkpoint node branch head pinned ∧
        landRecord node.id (durable acts checkpoint) = some record ∧ SameWorkRecord pinned record ∧
        ∀ request, .request request ∈ acts → AboutRecord node.id pinned (.request request) := by
  rcases acts with _ | ⟨first, later⟩
  · exact .inl ⟨unstored, nofun⟩
  rcases landAdvance_unpinned owner plan unstored with
    none | ⟨failed, fails, unstored'⟩ | ⟨branch, head, pinned, saved, rest, pins, starts, stored, about⟩
  · rw [none] at cut
    cases prefix_nil.1 cut
  · rw [fails] at cut
    obtain ⟨rfl, ending⟩ := cons_prefix_cons.1 cut
    rw [prefix_nil.1 ending]
    exact .inl ⟨unstored', fun _ member => by cases mem_singleton.1 member⟩
  · rw [starts] at cut
    obtain ⟨rfl, ending⟩ := cons_prefix_cons.1 cut
    have about : ∀ act ∈ later, AboutRecord node.id pinned act := fun act member =>
      about act (ending.subset member)
    obtain ⟨record, stored', same⟩ := landRecord_durable stored about
    refine .inr ⟨branch, head, pinned, record, pins, by rw [durable_cons]; exact stored', same, ?_⟩
    intro request member
    rcases mem_cons.1 member with first | member
    · cases first
    · exact about _ member

/-- A call on a landing that has no record. -/
lemma Rests.call_unstored {index : Nat} (h : Rests policy start state node.id)
    (run : AdmittedRun policy start state) (step : AdmittedStep policy state state')
    (dispatched : Dispatched policy state.driver index node .land checkpoint)
    (unstored : landRecord node.id state.driver.checkpoint = none)
    (cut : acts <+: landAdvance owner state.driver.plan node state.driver.checkpoint)
    (saved : state'.driver.checkpoint = durable acts state.driver.checkpoint)
    (logged : state'.acts node.id = state.acts node.id ++ acts) :
    Rests policy start state' node.id := by
  have sent : ∀ request, .request request ∈ state'.acts node.id → .request request ∈ acts := by
    intro request member
    rw [logged] at member
    rcases mem_append.1 member with old | new
    · obtain ⟨record, found, -⟩ := h.requested request old
      cases unstored.symm.trans found
    · exact new
  rcases durable_unpinned unstored cut with
    ⟨none, silent⟩ | ⟨branch, head, pinned, record, pins, stored, same, about⟩
  · rw [← saved] at none
    refine ⟨fun record found => ?_, fun request member => absurd (sent request member) (silent request)⟩
    cases none.symm.trans found
  · rw [← saved] at stored
    constructor
    · intro record' found
      cases stored.symm.trans found
      exact ⟨state, node, branch, head, pinned, run, .single step,
        mem_of_getElem? dispatched.placed, rfl, (nodeAction_spec dispatched.action).2.2, pins,
        same⟩
    · intro request member
      refine ⟨record, stored, ?_⟩
      rw [same.branch, same.head, same.tier]
      exact about request (sent request member)

/-- Every step keeps what records rest on. -/
lemma Rests.step (h : Rests policy start state id) (run : AdmittedRun policy start state)
    (step : AdmittedStep policy state state') : Rests policy start state' id := by
  obtain ⟨⟨called, taken⟩, planned⟩ := step
  have step : AdmittedStep policy state state' := ⟨⟨called, taken⟩, planned⟩
  -- a landing that the step leaves alone keeps its record and its acts
  have kept : landRecord id state'.driver.checkpoint = landRecord id state.driver.checkpoint →
      state'.acts id = state.acts id → Rests policy start state' id := by
    intro same acts
    refine ⟨fun record found => ?_, fun request member => ?_⟩
    · exact (h.pinned record (same.symm.trans found)).step step
    · rw [acts] at member
      rw [same]
      exact h.requested request member
  cases taken with
  | drive _ _ notes logged =>
    have later := logged id
    split at later
    next going =>
      obtain ⟨row, row', found, found', -⟩ := rows_of_goesOn going
      have land := ((notes id).kept row row' found found' going).1
      exact kept (by rw [landRecord, found', landRecord, found]; exact land) later
    next renewed =>
      refine ⟨fun record found => ?_, fun request member => ?_⟩
      · cases ((notes id).fresh (by simpa using renewed)).symm.trans found
      · rw [later] at member
        cases member
  | call dispatched unpaused cut plan saved phase begun logged =>
    rename_i index node checkpoint owner acts
    by_cases same : id = node.id
    · subst same
      have logged : state'.acts node.id = state.acts node.id ++ acts := by
        rw [logged, Function.update_self]
      cases stored : landRecord node.id state.driver.checkpoint with
      | some _ => exact h.call_stored step stored cut saved logged
      | none => exact h.call_unstored run step dispatched stored cut saved logged
    · have apart := (savesElsewhere_landAdvance owner state.driver.plan node cut).durable
      refine kept ?_ (by rw [logged, Function.update_of_ne same])
      rw [saved, landRecord, apart.rows id same, landRecord]

lemma Unlanded.rests (h : Unlanded start) (id : Text) : Rests policy start start id := by
  refine ⟨fun record found => ?_, fun request member => ?_⟩
  · obtain ⟨row, found, land⟩ := Option.bind_eq_some_iff.1 found
    cases (h.records row (GraphCheckpoint.mem_of_row? found)).symm.trans land
  · rw [h.acts id] at member
    cases member

lemma Unlanded.rests_of_run (h : Unlanded start) (run : AdmittedRun policy start state) (id : Text) :
    Rests policy start state id := by
  induction run with
  | refl => exact h.rests id
  | tail before step ih => exact ih.step before step

lemma relationError_of_run (planned : relationError start.driver.plan = none)
    (run : AdmittedRun policy start state) : relationError state.driver.plan = none := by
  cases run with
  | refl => exact planned
  | tail _ step => exact step.2

/-- Every record of a landing, also one that the policy authorised, goes back to a call at which its
head was the newest one that the writer and its continuations had delivered, and at which a passed
verdict gate had accepted this head. The plan of this call has a CI gate between the writer and the
landing. All requests since then carry the head. Nothing is said about what the CI gate observed.

**Proof sketch.** A call that finds a record is about its head (`actsOn_landAdvance`), and one that
finds none pins a head first (`landAdvance_unpinned`). Steps of the driver keep the record together
with the acts of the landing, or drop both (`Rests.step`). -/
theorem landed_head_rests {start state : Landing document} (unlanded : Unlanded start)
    (planned : relationError start.driver.plan = none) (run : AdmittedRun policy start state)
    {id : Text} {record : LandRecord}
    (stored : landRecord id state.driver.checkpoint = some record) :
    ∃ earlier node head, AdmittedRun policy start earlier ∧ AdmittedRun policy earlier state ∧
      node ∈ earlier.driver.plan.nodes ∧ node.id = id ∧
      LandGrounds earlier.driver.plan earlier.driver.checkpoint node head ∧
      record.head = bounded head outputFieldBytes ∧
      ∀ request, .request request ∈ state.acts id → request.head = record.head := by
  have rests := unlanded.rests_of_run run id
  obtain ⟨earlier, node, branch, head, _, before, after, member, rfl, lands, pins, same⟩ :=
    rests.pinned record stored
  refine ⟨earlier, node, head, before, after, member, rfl,
    ⟨ciGate_of_relationError (relationError_of_run planned before) member lands,
      ⟨branch, pins.delivered⟩, accepted_of_acceptanceError pins.accepted⟩,
    same.head.trans pins.head, fun request sent => ?_⟩
  obtain ⟨known, found, -, carries, -⟩ := rests.requested request sent
  cases stored.symm.trans found
  exact carries

end Run

/-! ### A repair after the checks -/

section Example

/-- A writer that goes on with the change after its checks. -/
def repairWrite : GraphNode :=
  { id := text "repair", dependsOn := [text "ci"], access := .worktreeWrite, routes := [anyRoute]
    continues := some (text "write") }

def repairReview : GraphNode :=
  { id := text "review", dependsOn := [text "repair"], routes := [anyRoute] }

def repairLand : GraphNode :=
  { id := text "land", dependsOn := [text "accepted"], land := true, landNode := text "write" }

/-- The gate on the checks. The writer goes on once they passed, or, where `failing`, it recovers
from their failure. -/
def repairCi (failing : Bool) : GraphNode :=
  { shipCi with onFail := if failing then some (text "repair") else none }

/-- A change that is written, checked, repaired, reviewed and landed. -/
def repairDocument (failing : Bool) : GraphDocument :=
  { graphId := text "ship"
    nodes := [shipWrite, repairCi failing, repairWrite, repairReview, shipAccepted, repairLand] }

def repairPlan (failing : Bool) : PlannedGraph :=
  { graphId := text "ship"
    nodes := (repairDocument failing).nodes
    nodup := by cases failing <;> decide
    closed := by cases failing <;> decide
    ordered := by cases failing <;> decide
    wellFormed := by cases failing <;> decide }

variable (failing : Bool)

lemma relationError_repairPlan : relationError (repairPlan failing) = none := by
  cases failing <;> decide +kernel

/-- The checks of the first head passed, or failed. -/
def repairChecked : NodeProgress :=
  { shipPassed (repairCi failing) with
    state := if failing then .failed else .succeeded
    gate := some { passed := !failing, onFail := (repairCi failing).onFail }
    notes := { (shipPassed shipCi).notes with
      ci := some { state := if failing then .failed else .passed, headSha := some (text "h1") } } }

/-- The repair delivered a second head. -/
def repairWritten : NodeProgress :=
  let row := shipEnded repairWrite .succeeded .succeeded (some
    { branch := some (text "change"), commit := some (text "h2") })
  { row with attempts := row.attempts.map ({ · with settled := 2 }) }

def repairReviewed : NodeProgress :=
  shipEnded repairReview .succeeded .succeeded (some { verdict := some (text "APPROVE") })

/-- The rows that are still to come. -/
def repairFresh (count : Nat) : List NodeProgress :=
  ((repairPlan failing).nodes.map freshRow).drop count

/-- A state of a run. -/
def repairing (phase : Phase) (nodes : List NodeProgress) (begun : List AttemptKey)
    (wakeAt : Option Nat) (acts : List LandAct)
    (aligned : nodes.map (·.id) = (repairPlan failing).nodes.map (·.id) := by rfl) :
    Landing (repairDocument failing) :=
  soleLanding (repairPlan failing) phase nodes begun [] wakeAt acts aligned
    ⟨_, rfl, rfl, rfl, rfl, .refl _⟩

def repairStart : Landing (repairDocument failing) :=
  repairing failing .idle (repairFresh failing 0) [] none []

/-- The rows once the repaired change is approved. -/
def repairApproved : List NodeProgress :=
  [shipWritten, repairChecked failing, repairWritten, repairReviewed, shipPassed shipAccepted]

def repairKeys : List AttemptKey :=
  [shipKey (text "review"), shipKey (text "repair"), shipKey (text "write")]

/-- The landing starts. -/
def repairReady : Landing (repairDocument failing) :=
  repairing failing (.visiting 5) (repairApproved failing ++ repairFresh failing 5) repairKeys none []

/-- What the call of the landing does. -/
def repairActs : List LandAct :=
  landAdvance queueOwner (repairPlan failing) repairLand (repairReady failing).driver.checkpoint

/-- The record of the second head. -/
def repairRecord : LandRecord := { shipRecord 1 1001000 with head := text "h2" }

/-- The landing waits for the merge. -/
def repairLanded : Landing (repairDocument failing) :=
  repairing failing (.visiting 6) (repairApproved failing ++
    [{ withRecord repairRecord (freshRow repairLand) with state := .running }]) repairKeys
    (some 1001000) (repairActs failing)

lemma durable_repairActs :
    durable (repairActs failing) (repairReady failing).driver.checkpoint =
      (repairLanded failing).driver.checkpoint := by
  cases failing <;> decide +kernel

lemma unlanded_repairStart : Unlanded (repairStart failing) := unlanded_soleLanding

/-- The change is written, checked, repaired, reviewed and approved. -/
lemma run_repairReady : AdmittedRun silentPolicy (repairStart failing) (repairReady failing) := by
  have run : Relation.ReflTransGen (fun t t' => LandStep silentPolicy none t t' ∧
      t'.driver.plan = repairPlan failing) (repairStart failing) (repairReady failing) :=
    @LandStep.run_of_play _ _ _ (repairStart failing).driver (repairReady failing).driver _
      (tracked_land []) [.start, .attempt, .begin nothingObserved, .leave shipWritten,
      .settle (repairChecked failing), .attempt, .begin nothingObserved, .leave repairWritten,
      .attempt, .begin nothingObserved, .leave repairReviewed, .settle (shipPassed shipAccepted)] rfl
      (by cases failing <;> decide +kernel)
  exact Relation.ReflTransGen.mono
    (fun _ _ step => ⟨⟨none, step.1⟩, by rw [step.2]; exact relationError_repairPlan failing⟩) _ _ run

lemma run_repairLanded : AdmittedRun silentPolicy (repairStart failing) (repairLanded failing) := by
  have dispatched : Dispatched silentPolicy (repairReady failing).driver 5 repairLand .land
      (repairReady failing).driver.checkpoint := by
    cases failing <;> exact ⟨rfl, rfl, rfl⟩
  have logged (acts : List LandAct) :
      (Function.update (fun _ => []) (text "land") acts : Text → List LandAct) = _ :=
    update_land_append [] acts
  exact (run_repairReady failing).tail ⟨⟨some repairLand, .call dispatched rfl
    (prefix_refl (repairActs failing)) rfl (durable_repairActs failing).symm (.inl rfl) rfl
    (logged (repairActs failing))⟩, relationError_repairPlan failing⟩

/-- The repaired change is landed with the second head. -/
theorem landed_head_rests_repairLanded :
    landRecord (text "land") (repairLanded false).driver.checkpoint = some repairRecord ∧
    ∃ earlier node head, AdmittedRun silentPolicy (repairStart false) earlier ∧
      AdmittedRun silentPolicy earlier (repairLanded false) ∧
      node ∈ earlier.driver.plan.nodes ∧ node.id = text "land" ∧
      LandGrounds earlier.driver.plan earlier.driver.checkpoint node head ∧
      repairRecord.head = bounded head outputFieldBytes ∧
      ∀ request, .request request ∈ (repairLanded false).acts (text "land") →
        request.head = repairRecord.head :=
  ⟨rfl, landed_head_rests (unlanded_repairStart false) (relationError_repairPlan false)
    (run_repairLanded false) rfl⟩

/-- The policy landed the second head of a change, and the host was asked to land it, while the only
CI gate has settled in a state on the first head. -/
structure LandedPast (state : NodeState) : Prop where
  admitted : relationError (repairPlan failing) = none
  unlanded : Unlanded (repairStart failing)
  run : AdmittedRun silentPolicy (repairStart failing) (repairLanded failing)
  stored : landRecord (text "land") (repairLanded failing).driver.checkpoint = some repairRecord
  policy : repairRecord.authorisedBy = some .policy
  head : repairRecord.head = text "h2"
  requested : ∃ request, .request request ∈ (repairLanded failing).acts (text "land") ∧
    request.head = text "h2"
  evidence : ∀ gate ∈ (repairPlan failing).nodes, gate.condition = some .ci →
    ∃ row, (repairLanded failing).driver.checkpoint.row? gate.id = some row ∧ row.state = state ∧
      (row.notes.ci.bind (·.headSha)) = some (text "h1")

lemma landedPast : LandedPast failing (if failing then .failed else .succeeded) where
  admitted := relationError_repairPlan failing
  unlanded := unlanded_repairStart failing
  run := run_repairLanded failing
  stored := rfl
  policy := rfl
  head := rfl
  requested := ⟨landRequest (repairPlan failing) repairLand (pinnedRecord queueOwner repairLand
    (text "change") (text "h2")), by cases failing <;> decide +kernel, rfl⟩
  evidence := by
    intro gate member ci
    have found : gate = repairCi failing := by
      revert gate
      cases failing <;> decide
    subst found
    exact ⟨repairChecked failing, rfl, rfl, rfl⟩

/-- The policy lands the second head of a change, although the only CI gate passed on the first one:
the repair came after the checks. It does so too where the gate failed on the first head, and the
repair recovers from this failure. -/
theorem landed_past_checks : LandedPast false .succeeded ∧ LandedPast true .failed :=
  ⟨landedPast false, landedPast true⟩

end Example

end Provenant.Graph

import Mathlib.Data.List.Find
import Mathlib.Data.List.Perm.Basic
import Provenant.Data.Json

/-!
# Graph documents, plans and checkpoints

The data of the graph scheduler: the nodes of a document, the plan they are admitted as, and
the checkpoint with one progress row per node of the plan. Identifiers are texts. A record of
the source is embedded with the fields that the modelled functions read or write.

## Main definitions

* `GraphNode`, `GraphDocument` — what was submitted, with composites already flattened.
* `PlannedGraph` — an admitted plan: unique identifiers, closed under dependencies and in
  dependency order.
* `NodeProgress`, `GraphCheckpoint` — the durable state of a run.
* `GraphCheckpoint.nodeSuccessful` — whether a settled row counts as a success.

## Implementation notes

`positions` of the source maps an identifier to the index that its node has in the plan and
its row in the checkpoint. Both lists have unique identifiers in one order, so the model looks
nodes and rows up by identifier. Loops do not nest, so the nodes of a loop's body are of a type
that has no loop (`BodyNode`).
-/

namespace Provenant.Graph

open List

open Json (Text text)

/-- The size limit of a stored checkpoint. -/
def maxCheckpointBytes : Nat := 16777216

/-- The prefix of everything inside the node of an identifier. -/
def under (owner : Text) : Text := owner ++ text "--"

/-- `id` names something inside `owner`. -/
def inside (owner id : Text) : Bool := (under owner).isPrefixOf id

/-- `valid_node_identifier`: letters, digits, `-`, `.` and `_`, at most 200 of them. -/
def validNodeIdentifier (id : Text) : Bool :=
  !id.isEmpty && id.length ≤ 200 && id.all fun byte =>
    (48 ≤ byte && byte ≤ 57) || (65 ≤ byte && byte ≤ 90) || (97 ≤ byte && byte ≤ 122) ||
      byte == 45 || byte == 46 || byte == 95

/-! ### Enumerations -/

/-- Where a node of the graph stands. -/
inductive NodeState
  | pending | running | succeeded | failed | blocked | skipped
  deriving DecidableEq, Repr

/-- A settled node takes no further part in a run of its own accord. -/
def NodeState.settled : NodeState → Bool
  | .pending | .running => false
  | .succeeded | .failed | .blocked | .skipped => true

/-- Where a launch stands. -/
inductive AttemptState
  | starting | running | unresolved | terminal
  deriving DecidableEq, Repr

/-- How a terminal launch ended. -/
inductive AttemptOutcome
  | succeeded | authRequired | usageLimited | adapterUnavailable | deadlineExceeded
  | taskFailed | otherFailure | reviewRequired | declaredStop | stoppedNoWork
  deriving DecidableEq, Repr

/-- What a node may hand to its consumers. -/
inductive OutputKind
  | result | verdict | findings | branch | commit | remaining
  deriving DecidableEq, Repr

/-- Whether a node may write to a worktree. -/
inductive AccessMode
  | readOnly | worktreeWrite
  deriving DecidableEq, Repr

/-- What a gate decides on. -/
inductive GateCondition
  | verdict | budget | ci
  deriving DecidableEq, Repr

/-- What a node was declared as. -/
inductive NodeKind
  | composite | task | synthesise | gate | loop | decide | land
  deriving DecidableEq, Repr

/-- What the checks of a commit have come to. -/
inductive CiState
  | passed | failed | pending | unavailable | conflict | notScheduled
  deriving DecidableEq, Repr

/-- What a question is about. -/
inductive AskKind
  | loop | decide | pause | land
  deriving DecidableEq, Repr

/-- Who may decide on a landing. -/
inductive LandPolicy
  | ask | auto
  deriving DecidableEq, Repr

/-- Which layer of the configuration chose the policy of a landing. -/
inductive LandSource
  | default | config | project
  deriving DecidableEq, Repr

/-- How much is at risk when a change is landed. -/
inductive RiskTier
  | routine | substantial | crucial | terminal
  deriving DecidableEq, Repr

/-- How the commits of a node are delivered. -/
inductive DeliveryMode
  | none | push | pr
  | integrate (target : Text)
  deriving DecidableEq

/-! ### Nodes -/

/-- Outputs selected from one upstream node. -/
structure GraphInput where
  node : Text
  outputs : List OutputKind
  requiredOutputs : List OutputKind := []
  deriving DecidableEq

/-- The place of a node in the rounds of a loop. -/
structure LoopRound where
  loopId : Text
  round : Nat
  nodeId : Text
  /-- The node is the gate that ends the round. -/
  isUntil : Bool
  previousGate : Option Text
  deriving DecidableEq

/-- A composite boundary: what it exports and how many members have to succeed. -/
structure CompositeSpec where
  exports : List GraphInput
  minSuccessful : Option Nat
  reduceVerdict : Bool
  deriving DecidableEq

/-- The static stage that a planner falls back to: its nodes' composites and its exports. -/
structure FallbackSpec where
  nodes : List (Option CompositeSpec)
  exports : List GraphInput
  deriving DecidableEq

/-- The part of a planner's specification that bounds its fragment and wires it into the
graph. -/
structure PlanSpec where
  /-- The host templates that the planner may use. -/
  templates : List Text
  maxNodes : Nat
  wireExports : Bool
  fallback : Option FallbackSpec
  plannedReview : Bool
  reviewMinSuccessful : Option Nat
  /-- The templates that the paths under review require. -/
  requiredFloors : List Text := []
  /-- The templates that count as reviewers of those paths, and how many are needed. -/
  floorCandidates : List Text := []
  floorMinimum : Nat := 0
  deriving DecidableEq

/-- Where a node takes its commit from. -/
inductive SourceBinding
  | commit (commit : Text)
  | node (node : Text)
  | head (node : Text)
  | integration
  deriving DecidableEq

/-- One route of a node; a later route is a fallback of the earlier ones. -/
structure GraphRoute where
  adapter : Text
  account : Option Text
  deriving DecidableEq

/-- A node that is not a loop. -/
structure BodyNode where
  id : Text
  dependsOn : List Text := []
  /-- Completion edges, to the members of a composite or the nodes of a fragment. -/
  afterExpansion : List Text := []
  compositeMembers : List Text := []
  composite : Option CompositeSpec := none
  plan : Option PlanSpec := none
  decide : Bool := false
  land : Bool := false
  /-- The writer whose work a landing lands, and the tier of the landing. -/
  landNode : Text := []
  landTier : RiskTier := .routine
  condition : Option GateCondition := none
  /-- The verdict that a verdict gate waits for. -/
  expected : Text := []
  /-- The node whose commit a CI gate looks at. -/
  ciNode : Option Text := none
  onFail : Option Text := none
  /-- Dependants proceed after this node fails or is blocked. -/
  advisory : Bool := false
  round : Option LoopRound := none
  inputs : List GraphInput := []
  source : Option SourceBinding := none
  skipWithoutFindings : Option Bool := none
  access : AccessMode := .readOnly
  routes : List GraphRoute := []
  /-- A review lens or verifier, which may be substituted after it fails. -/
  reviewMember : Bool := false
  /-- A verifier of review findings. -/
  verifier : Bool := false
  /-- The node disposes of the findings that it reads. -/
  disposes : Bool := false
  /-- The lens a delta reviewer of a repair loop stands for. -/
  repairLens : Option Text := none
  /-- The node outlives its producer. -/
  detached : Bool := false
  kind : Option NodeKind := none
  role : Option Text := none
  capabilities : Option (List Text) := none
  /-- Capabilities among the settings of a single attempt. -/
  attemptCapabilities : List Text := []
  /-- Where the capabilities come from, as the host recorded it. -/
  capabilitySources : Option Text := none
  attachments : List Text := []
  readRoots : List Text := []
  requireSkillLocation : Bool := false
  prompt : Text := []
  acceptanceChecks : List Text := []
  writeScope : List Text := []
  delivery : Option DeliveryMode := none
  worktree : Option Text := none
  /-- The node goes on in the worktree of another writer. -/
  continues : Option Text := none
  /-- The attempt settings ask for a worktree of its own. -/
  newWorktree : Bool := false
  /-- The node names the base that its review starts from. -/
  reviewBase : Bool := false
  /-- A decision that approves itself when the repair stays within its scope. -/
  repairScopeGate : Bool := false
  autoContinueNoWork : Option Bool := none
  /-- The session that answers the question of a decision, a landing or a loop. -/
  decisionSession : Option Text := none
  deriving DecidableEq

/-- A bounded loop: its body, the gate that ends it and the rounds it may take. -/
structure LoopSpec where
  body : List BodyNode
  untilGate : Text
  maxRounds : Nat
  /-- The rounds that one decision may add. -/
  maxExtensionRounds : Nat := 5
  /-- The loop repairs review findings. -/
  repair : Bool
  deriving DecidableEq

/-- A node of a graph. Only a node at the top level may have a loop body, so that the nodes of a
body are of the smaller type. -/
structure GraphNode extends BodyNode where
  loopBody : Option LoopSpec := none
  deriving DecidableEq

/-- All parents: the declared ones, then the completion edges that repeat none of them. -/
def BodyNode.dependencies (node : BodyNode) : List Text :=
  node.dependsOn ++ node.afterExpansion.filter fun name => !node.dependsOn.contains name

/-- Whether the node is skipped when the CI gate it recovers from reported no finding. -/
def BodyNode.skipsWithoutFindings (node : BodyNode) (gate : Text) : Bool :=
  node.skipWithoutFindings.getD
    (node.inputs.any fun input => input.node == gate && input.outputs.contains .findings)

/-- `plans::writer`: the node works in a worktree. -/
def GraphNode.writer (node : GraphNode) : Bool :=
  node.access == .worktreeWrite && node.kind.all (· == .task)

/-- The reader of a review that names its base. -/
def GraphNode.requestsReviewBase (node : GraphNode) : Bool :=
  node.access == .readOnly && node.reviewBase

/-- `repair::is_repair`. -/
def GraphNode.isRepair (node : GraphNode) : Bool :=
  node.loopBody.any (·.repair)

/-- A submitted document, after its composites were flattened. -/
structure GraphDocument where
  graphId : Text
  nodes : List GraphNode
  schemaVersion : Nat := 1
  /-- The branch that the work of the graph is integrated into. -/
  integrationBranch : Option Text := none
  delivery : Option DeliveryMode := none
  /-- The session that answers the questions of the graph. -/
  decisionSession : Option Text := none
  deriving DecidableEq

/-! ### Plans -/

/-- The node launches attempts: it is none of the kinds that settle by themselves. -/
def GraphNode.launches (node : GraphNode) : Bool :=
  node.composite.isNone && node.loopBody.isNone && !node.decide && !node.land &&
    node.condition.isNone

/-- What plan validation requires of one node: it reads and starts from direct dependencies
only, it is of one kind, only gates and loops have a recovery target, and only gates end
rounds. -/
def GraphNode.wellFormed (node : GraphNode) : Bool :=
  (node.inputs.all fun input => node.dependsOn.contains input.node) &&
  (match node.source with
    | some (.node source) => node.dependsOn.contains source
    | _ => true) &&
  (node.launches || node.source.isNone) &&
  [node.composite.isSome, node.loopBody.isSome, node.decide, node.land,
    node.condition.isSome].count true ≤ 1 &&
  (node.onFail.isNone || node.condition.isSome || node.loopBody.isSome) &&
  (node.condition.isSome || !node.round.any (·.isUntil))

/-- An admitted plan. The invariants are those that plan validation establishes: identifiers
are unique, every dependency is a node of the plan, nodes come after their dependencies, and
every node is well formed. -/
structure PlannedGraph where
  graphId : Text
  nodes : List GraphNode
  delivery : Option DeliveryMode := none
  decisionSession : Option Text := none
  nodup : (nodes.map (·.id)).Nodup := by decide
  closed : ∀ node ∈ nodes, ∀ parent ∈ node.dependencies, parent ∈ nodes.map (·.id) := by decide
  ordered : nodes.Pairwise fun earlier later => later.id ∉ earlier.dependencies := by decide
  wellFormed : ∀ node ∈ nodes, node.wellFormed = true := by decide

/-- The node of an identifier. -/
def PlannedGraph.node? (plan : PlannedGraph) (id : Text) : Option GraphNode :=
  plan.nodes.find? (·.id == id)

variable {id : Text} {plan : PlannedGraph}

lemma PlannedGraph.id_of_node? {node : GraphNode}
    (h : plan.node? id = some node) : node.id = id := by
  simpa using find?_some h

/-- A node of the plan is found under its identifier. -/
lemma PlannedGraph.node?_of_mem {node : GraphNode} (h : node ∈ plan.nodes) :
    plan.node? node.id = some node := by
  cases found : plan.node? node.id with
  | none => simp [PlannedGraph.node?] at found; exact absurd rfl (found node h)
  | some _ =>
    have same := inj_on_of_nodup_map plan.nodup (mem_of_find?_eq_some found) h
      (PlannedGraph.id_of_node? found)
    rw [same]

/-- `plan` is an admission of `document`. It has the nodes of the document, in an order in which
every node comes after its parents; that order is a field of the plan itself, so that here the two
lists need only be permutations of each other. -/
structure Plans (document : GraphDocument) (plan : PlannedGraph) : Prop where
  graphId : plan.graphId = document.graphId
  delivery : plan.delivery = document.delivery
  decisionSession : plan.decisionSession = document.decisionSession
  perm : plan.nodes.Perm document.nodes

/-! ### Progress -/

/-- The identity under which a launch is submitted. -/
structure AttemptKey where
  graphId : Text
  nodeId : Text
  routeIndex : Nat
  retryGeneration : Option Nat
  previousAttemptRef : Option Text
  deriving DecidableEq

/-- One output that a launch was given, and whether the file that delivers it is written. -/
structure InputEvidence where
  producerNode : Text
  kind : OutputKind
  required : Bool
  pending : Bool
  deriving DecidableEq

/-- What a launch was given. -/
structure AttemptInputManifest where
  schemaVersion : Nat
  inputs : List InputEvidence
  /-- Inputs beyond the number that is recorded. -/
  omitted : Nat
  sourceCommit : Option Text
  reviewBase : Option Text
  deriving DecidableEq

/-- What a launch used, as far as the host knows. -/
structure AttemptUsage where
  tokens : Option Nat := none
  costMicroUsd : Option Nat := none
  wallTimeSeconds : Option Nat := none
  tokensPartial : Bool := false
  costPartial : Bool := false
  deriving DecidableEq

/-- One launch of a node. -/
structure GraphAttempt where
  key : AttemptKey
  route : GraphRoute
  state : AttemptState
  attemptRef : Option Text := none
  outcome : Option AttemptOutcome := none
  launched : Bool := true
  reviewSubstitution : Bool := false
  /-- The host proved that the launch was refused before it was accepted. -/
  refusalProof : Bool := false
  inputManifest : Option AttemptInputManifest := none
  /-- Recorded when the launch ends. -/
  usage : Option AttemptUsage := none
  /-- The place of the launch in the order in which launches ended; zero until then. -/
  settled : Nat := 0
  deriving DecidableEq

/-- The evidence of a settled gate. -/
structure GateResult where
  passed : Bool
  reason : Option Text := none
  onFail : Option Text
  deriving DecidableEq

/-- A finding of a review, as the text that records it. -/
abbrev Finding := Text

/-- What a design says about the repair it proposes. -/
structure RepairDesign where
  withinScope : Option Bool
  oneWayDoor : Option Bool
  deriving DecidableEq

/-- What a settled node handed over. -/
structure NodeOutputs where
  schemaVersion : Nat := 2
  verdict : Option Text := none
  findings : List Finding := []
  /-- Whether the findings are complete; absent in older records. -/
  findingsAvailable : Option Bool := none
  warnings : List Text := []
  branch : Option Text := none
  commit : Option Text := none
  /-- The expansion that the node contributed. -/
  plan : Option Text := none
  /-- Findings kept as the block that a consumer parses again; the inner value is absent where
  the record is not a text. -/
  compactFindings : Option (Option Text) := none
  repairDesign : Option RepairDesign := none
  deriving DecidableEq

/-- How often and how long after a failure a launch is tried again; sealed with the attempt. -/
structure LaunchRetryPolicy where
  limit : Nat := 3
  limitSource : Text := text "default"
  firstSeconds : Nat := 5
  maxSeconds : Nat := 600
  deriving DecidableEq

/-- The pending retry of a launch that the host could not accept. Times are in microseconds. -/
structure LaunchRetry where
  deadline : Option Nat
  wakeAt : Option Nat
  policy : LaunchRetryPolicy := {}
  /-- The failed launches so far. -/
  failures : Nat := 0
  /-- Why the last launch failed. -/
  reason : Option Text := none
  deriving DecidableEq

/-- A check of a commit that failed. -/
structure CiFailedCheck where
  name : Text
  excerpt : Text
  url : Option Text
  deriving DecidableEq

/-- What a CI gate observed. -/
structure CiEvidence where
  state : CiState
  /-- The next time the host looks again. -/
  wakeAt : Option Nat := none
  pendingObservations : Nat := 0
  summary : Text := []
  headSha : Option Text := none
  failedChecks : List CiFailedCheck := []
  checkNames : List Text := []
  truncated : Bool := false
  deriving DecidableEq

/-- Who authorised a landing. -/
inductive LandAuthority
  | policy
  | chair (askId : Text)
  deriving DecidableEq

/-- The pinned subject of a landing. -/
structure LandRecord where
  tier : RiskTier
  policy : LandPolicy
  policySource : LandSource
  branch : Text
  head : Text
  authorisedBy : Option LandAuthority := none
  /-- The number of the pull request, once the host identified it. -/
  pullRequest : Option Nat := none
  /-- What the host last said about the landing. -/
  note : Option Text := none
  wakeAt : Option Nat := none
  pendingObservations : Nat := 0
  deriving DecidableEq

/-- The worktree of a writer, and its head when it was bound. -/
structure WriterWorktreeBinding where
  worktree : Text
  head : Text
  deriving DecidableEq

/-- Why an expansion could not be admitted. -/
inductive PlanFailureFact
  | structural (actual max : Nat)
  | envelope (bound : Nat)
  | other (name : Text)
  deriving DecidableEq

/-- Why a node waits for a decision. -/
inductive NodeDecisionCause
  | loopPaused | loopAskClosed | invalidLoopDecision
  | planExpansionPaused (active fallback : Bool) (fragmentError : Option PlanFailureFact)
  | compositeFindingsTruncated (warningIndices : List Nat) (noticeLines : Nat)
  deriving DecidableEq

/-- What a row notes beside the progress of its node: where it works, what it waits for and the
evidence of its kind. -/
structure RowNotes where
  worktree : Option Text := none
  sourceBinding : Option SourceBinding := none
  /-- The commit that the source was resolved to, before the first launch. -/
  sourceCommit : Option Text := none
  writerBinding : Option WriterWorktreeBinding := none
  writerBindingPending : Bool := false
  reviewBase : Option Text := none
  reviewBasePending : Bool := false
  /-- The base of a worktree of its own; the inner value is absent where the record is not a
  text. -/
  newWorktreeBase : Option (Option Text) := none
  expansionPause : Option Text := none
  expansionCause : Option NodeDecisionCause := none
  loopPause : Option Text := none
  loopPauseCode : Option Text := none
  loopCause : Option NodeDecisionCause := none
  truncationCause : Option NodeDecisionCause := none
  ci : Option CiEvidence := none
  land : Option LandRecord := none
  /-- No model family apart from those of the upstream work was available. -/
  separationUnavailable : Bool := false
  ownerNotified : Bool := false
  /-- The writer that stopped without work is not continued. -/
  stopFence : Bool := false
  /-- The node waits for its children and leaves its slot to them. -/
  yieldedSlot : Bool := false
  /-- The cancelled node for which the row waits to be skipped. -/
  cancelParent : Option Text := none
  deriving DecidableEq

/-- The progress of one node, as a settled consumer remembers it. -/
structure RowRecord where
  id : Text
  state : NodeState := .pending
  attempts : List GraphAttempt := []
  previousAttempts : List GraphAttempt := []
  /-- Counts the redos of the node; absent before the first. -/
  retryGeneration : Option Nat := none
  /-- The redo reset the node together with a container around it. -/
  containerRetry : Bool := false
  round : Option LoopRound := none
  children : List Text := []
  minSuccessful : Option Nat := none
  gate : Option GateResult := none
  outputs : Option NodeOutputs := none
  cancelledFrom : Option NodeState := none
  skipReason : Option Text := none
  /-- The row waits for its live attempt to stop, because a node around it was cancelled. -/
  subtreeCancel : Bool := false
  /-- The row is exempt from the cancellation of the graph. -/
  detachedFromCancel : Bool := false
  advanceError : Option Text := none
  advanceErrorCode : Option Text := none
  /-- The code under which the owner of the attempts reported the error. -/
  advanceOwnerCode : Option Text := none
  launchRetry : Option LaunchRetry := none
  /-- The retry that was given up. -/
  lastLaunchRetry : Option LaunchRetry := none
  /-- The sealed allowance of infrastructure retries. -/
  retry : Option Nat := none
  quotaRedrawSpent : Nat := 0
  notes : RowNotes := {}
  deriving DecidableEq

/-- The progress row of one node. The snapshots are records without snapshots of their own, which
bounds their depth. -/
structure NodeProgress extends RowRecord where
  /-- The rows that the settled node observed and that were redone since. -/
  snapshots : List RowRecord := []
  deriving DecidableEq

/-- The record of an admitted patch. -/
structure PatchRecord where
  parent : Option Text
  reason : Option Text
  skipped : List Text
  replaced : List GraphNode
  deriving DecidableEq

/-- An instance of a host template: the node that stands for it, the template and the nodes of
the instance. -/
structure TemplateUse where
  id : Text
  name : Text
  nodes : List Text := []
  deriving DecidableEq

/-- Nodes added to the running graph, or edits of it. -/
structure Addition where
  source : Text
  continuation : Bool := false
  nodes : List GraphNode
  /-- The template instances of the addition. -/
  uses : List TemplateUse := []
  patch : Option PatchRecord := none
  /-- The addition comes from the final result of its source. -/
  finalResult : Bool := false
  /-- The redo of the source that contributed the addition. -/
  retryGeneration : Option Nat := none
  deriving DecidableEq

/-- An admitted expansion. A retired one is a tombstone that keeps what it was and the
progress rows that were removed with it. -/
inductive Expansion
  | live (addition : Addition)
  | retired (addition : Addition) (progress : List NodeProgress)
  deriving DecidableEq

/-- A terminal decision on an exhausted loop. -/
inductive LoopDecision
  | stop | accept
  deriving DecidableEq

/-- An accepted extension of the graph's allowances. -/
inductive Extension
  | rounds (loop : Text) (allowance : Nat)
  | decision (loop : Text) (decision : LoopDecision)
  | other (name : Text)
  deriving DecidableEq

/-- The answer to a question. -/
structure AskAnswer where
  option : Option Text := none
  text : Option Text := none
  actor : Option Text := none
  answeredAt : Option Nat := none
  rejectionCode : Option Text := none
  rejected : Option Text := none
  deriving DecidableEq

/-- A question that the graph put to its owner: the node it is about, and for an exhausted
loop the rounds it had taken. -/
structure NodeAsk where
  askId : Text
  kind : AskKind
  node : Option Text := none
  rounds : Option Nat := none
  session : Text
  /-- The options that the owner may choose. -/
  options : List Text := []
  default : Option Text := none
  wakeAt : Option Nat := none
  resolved : Bool := false
  closed : Bool := false
  answer : Option AskAnswer := none
  /-- Why the inbox could not be read. -/
  inboxError : Option Text := none
  deriving DecidableEq

/-- What the host notes beside the rows: the identity of the run, its questions and pauses, and
when it has to be looked at again. -/
structure HostNotes where
  schemaVersion : Nat := 1
  graphId : Text := []
  planDigest : Text := []
  deliveryRequired : Bool := false
  /-- The work of the graph was delivered. -/
  delivered : Bool := false
  instanceId : Option Text := none
  boundReviewBase : Option Text := none
  boundIntegrationBase : Option Text := none
  pauseCode : Option Text := none
  pauseReason : Option Text := none
  wakeAt : Option Nat := none
  asks : List NodeAsk := []
  /-- How many pauses were put to the owner so far. -/
  pauseAsks : Nat := 0
  /-- Who asks; recorded before the first question. -/
  askActor : Option Text := none
  deriving DecidableEq

/-- The durable state of a run of a graph. Together with the submitted document it determines the
plan: the extensions and expansions are replayed when the graph is loaded. -/
structure GraphCheckpoint where
  extensions : List Extension := []
  expansions : List Expansion := []
  nodes : List NodeProgress
  cancelled : Bool := false
  notes : HostNotes := {}
  deriving DecidableEq

/-- `closes_producer`: live children and edits leave their producer open. -/
def Addition.closesProducer (addition : Addition) : Bool :=
  addition.patch.isNone || addition.finalResult

/-- The additions that are part of the graph. -/
def liveAdditions (expansions : List Expansion) : List Addition :=
  expansions.filterMap fun
    | .live addition => some addition
    | .retired .. => none

/-- The reason under which the host replans a review panel. -/
def panelReason : Text := text "repair expanded risk or scope"

namespace GraphCheckpoint

/-- The row of an identifier. -/
def row? (checkpoint : GraphCheckpoint) (id : Text) : Option NodeProgress :=
  checkpoint.nodes.find? (·.id == id)

/-- Change the row of an identifier. -/
def update (checkpoint : GraphCheckpoint) (id : Text) (f : NodeProgress → NodeProgress) :
    GraphCheckpoint :=
  { checkpoint with nodes := checkpoint.nodes.map fun row => if row.id = id then f row else row }

variable {checkpoint : GraphCheckpoint} {row : NodeProgress} {f : NodeProgress → NodeProgress}

lemma mem_of_row? (h : checkpoint.row? id = some row) : row ∈ checkpoint.nodes :=
  mem_of_find?_eq_some h

lemma id_of_row? (h : checkpoint.row? id = some row) : row.id = id := by
  simpa using find?_some h

section Keeping

variable (keeps : ∀ row ∈ checkpoint.nodes, row.id = id → (f row).id = id)
include keeps

/-- A change of a row that keeps its identifier shows in the lookup of that row only. -/
lemma row?_update (name : Text) :
    (checkpoint.update id f).row? name =
      (checkpoint.row? name).map fun row => if row.id = id then f row else row := by
  unfold row? update
  rw [find?_map]
  congr 1
  refine find?_congr fun row hrow => ?_
  by_cases h : row.id = id
  · simp [Function.comp, h, keeps row hrow h]
  · simp [Function.comp, h]

/-- A change that keeps the identifiers can be made together with the next one. -/
lemma update_update {g : NodeProgress → NodeProgress} :
    (checkpoint.update id f).update id g = checkpoint.update id fun row => g (f row) := by
  unfold update
  rw [map_map]
  congr 1
  refine map_congr_left fun row member => ?_
  by_cases same : row.id = id
  · simp [same, keeps row member same]
  · simp [same]

lemma row?_update_self (found : checkpoint.row? id = some row) :
    (checkpoint.update id f).row? id = some (f row) := by
  rw [row?_update keeps, found]
  simp [id_of_row? found]

end Keeping

/-! ### Success of a row -/

/-- The walk of `node_successful`: a failed gate counts as a success when its recovery target
succeeds, and an inactive path counts only where the walk starts. -/
def walkRecovery (checkpoint : GraphCheckpoint) : Nat → Bool → NodeProgress → Bool
  | 0, _, _ => false
  | steps + 1, start, row =>
    match row.state with
    | .succeeded => true
    | .skipped => start
    | .failed =>
      match ((row.gate.filter fun gate => !gate.passed).bind (·.onFail)).bind checkpoint.row? with
      | some target => checkpoint.walkRecovery steps false target
      | none => false
    | .pending | .running | .blocked => false

/-- `handled_gate`: a failed round gate is handled when its loop succeeded. -/
def handledGate (checkpoint : GraphCheckpoint) (successful : NodeProgress → Bool)
    (row : NodeProgress) : Bool :=
  row.state == .failed && row.round.any fun round =>
    round.isUntil && checkpoint.nodes.any fun owner =>
      owner.id == round.loopId && successful owner

/-- `handled_panel`: a failed expanded panel is recovered by its enclosing repair loop. -/
def handledPanel (checkpoint : GraphCheckpoint) (successful : NodeProgress → Bool)
    (row : NodeProgress) : Bool :=
  (liveAdditions checkpoint.expansions).any fun addition =>
    (addition.nodes.any fun member => member.id == row.id) &&
      addition.patch.any fun record =>
        record.reason == some panelReason &&
          (((record.parent.bind checkpoint.row?).bind (·.round)).bind fun round =>
            checkpoint.row? round.loopId).any successful

/-- `node_successful`, entering at most `depth` loops that handle a row inside them. -/
def nodeSuccessfulWithin (checkpoint : GraphCheckpoint) : Nat → NodeProgress → Bool
  | 0, row => checkpoint.walkRecovery checkpoint.nodes.length true row
  | depth + 1, row =>
    checkpoint.handledGate (checkpoint.nodeSuccessfulWithin depth) row ||
      checkpoint.handledPanel (checkpoint.nodeSuccessfulWithin depth) row ||
        checkpoint.walkRecovery checkpoint.nodes.length true row

/-- `node_successful`. The source recurses from a row to the row of a loop around it without a
bound; a terminating recursion enters every row at most once. -/
def nodeSuccessful (checkpoint : GraphCheckpoint) (row : NodeProgress) : Bool :=
  checkpoint.nodeSuccessfulWithin checkpoint.nodes.length row

/-- `successful`: nothing waits for an expansion and every node succeeded. -/
def successful (checkpoint : GraphCheckpoint) : Bool :=
  !(checkpoint.nodes.any fun row => row.notes.expansionPause.isSome) &&
    checkpoint.nodes.all checkpoint.nodeSuccessful

/-- Success depends on the rows and the expansions only. -/
lemma nodeSuccessful_of_rows {checkpoint' : GraphCheckpoint}
    (nodes : checkpoint'.nodes = checkpoint.nodes)
    (expansions : checkpoint'.expansions = checkpoint.expansions) (row : NodeProgress) :
    checkpoint'.nodeSuccessful row = checkpoint.nodeSuccessful row := by
  have lookup : checkpoint'.row? = checkpoint.row? := by
    funext id
    rw [row?, nodes, row?]
  have walk : checkpoint'.walkRecovery = checkpoint.walkRecovery := by
    funext steps
    induction steps with
    | zero => rfl
    | succ _ ih =>
      funext start row
      simp only [walkRecovery, lookup, ih]
  have within : checkpoint'.nodeSuccessfulWithin = checkpoint.nodeSuccessfulWithin := by
    funext depth
    induction depth with
    | zero =>
      funext row
      simp only [nodeSuccessfulWithin, walk, nodes]
    | succ _ ih =>
      funext row
      simp only [nodeSuccessfulWithin, handledGate, handledPanel, walk, nodes, expansions, lookup,
        ih]
  rw [nodeSuccessful, within, nodes, nodeSuccessful]

end GraphCheckpoint

end Provenant.Graph

import Mathlib.Data.List.Sort
import Provenant.Data.Colouring
import Provenant.Data.Fallible
import Provenant.Data.Search
import Provenant.Data.Topological
import Provenant.Graph.Model
import Provenant.Routing.Adapters

/-!
# The validation of a flat plan

A document whose composites and loops were expanded is validated node by node. Its nodes are then
sorted by their dependencies, and two checks look at the graph as a whole: the relations of landings
to their writers, and that no node waits for both outcomes of one gate.

## Main definitions

* `FlatPlan.Node`, `FlatPlan.Document` — what is submitted.
* `FlatPlan.Validators` — the checks that other modules make.
* `FlatPlan.Planned`, `FlatPlan.planNode` — a node as it is planned.
* `FlatPlan.prepare` — the checks of the document and of its nodes.
* `FlatPlan.sortNodes`, `FlatPlan.validateRelations`, `FlatPlan.checkGates` — the checks of the graph.
* `FlatPlan.validateFlatPlan` — all of it.

## Implementation notes

Fields of a node that only the checks of other modules read, and what a document hands on unread,
are texts. A map of positions is the search for an identifier in the list of nodes; identifiers are
checked to be unique before the map is used. A set that is filled in a loop which fails on the first
repetition is a check for repetitions.
-/

namespace Provenant.FlatPlan

open Json Fallible Provenant.Graph

/-! ### Documents -/

/-- `GraphRoute`. -/
structure Route where
  adapter : Option Text
  name : Option Text
  model : Option Text
  routeAlias : Option Text
  effort : Option Text
  account : Option Text
  deriving DecidableEq

/-- `NewWorktree`. -/
structure NewWorktree where
  branch : Text
  base : Text
  deriving DecidableEq

/-- `AttemptSpec`. -/
structure AttemptSpec where
  directory : Option Text := none
  host : Option Text := none
  confidential : Bool := false
  providerTimeout : Option Nat := none
  placement : Option Text := none
  newWorktree : Option NewWorktree := none
  account : Option Text := none
  capabilities : List Text := []
  buildHeavy : Bool := false
  writeRoots : List Text := []
  deriving DecidableEq

/-- `AttemptSpec::is_empty`. -/
def AttemptSpec.isEmpty (spec : AttemptSpec) : Bool :=
  spec.host.isNone && spec.directory.isNone && !spec.confidential && spec.providerTimeout.isNone &&
    spec.placement.isNone && spec.newWorktree.isNone && spec.account.isNone &&
    spec.capabilities.isEmpty && !spec.buildHeavy && spec.writeRoots.isEmpty

/-- `VerdictThreshold`. -/
inductive VerdictThreshold
  | all
  | any
  | majority
  | count (n : Nat)
  deriving DecidableEq

/-- `GateCondition`. -/
inductive Condition
  | verdict (expected : Text) (threshold : VerdictThreshold)
  | budget
  | ci (target : Text) (checks : List Text) (timeoutSeconds : Nat)
  deriving DecidableEq

/-- `GraphInput`. -/
structure Input where
  node : Text
  outputs : List OutputKind
  requiredOutputs : List OutputKind := []
  /-- The further fields have one named `required`. -/
  extraRequired : Bool := false
  deriving DecidableEq

/-- `GraphNode`. -/
structure Node where
  id : Text
  dependsOn : List Text := []
  afterExpansion : List Text := []
  onFail : Option Text := none
  round : Option LoopRound := none
  kind : Option NodeKind := none
  condition : Option Condition := none
  /-- The node has a `composite`. -/
  composite : Bool := false
  /-- The node has a `loop`. -/
  loopBody : Bool := false
  /-- The question of a `decide`. -/
  decide : Option Text := none
  /-- The writer that a `land` names. -/
  land : Option Text := none
  inputs : List Input := []
  route : Option Route := none
  routes : Option (List Route) := none
  access : AccessMode := .readOnly
  delivery : Option DeliveryMode := none
  worktree : Option Text := none
  continues : Option Text := none
  source : Option SourceBinding := none
  prompt : Text := []
  requiredVerdict : Option Text := none
  title : Option Text := none
  role : Option Text := none
  readRoots : List Text := []
  attachments : List Text := []
  capabilities : Option (List Text) := none
  attempt : Option AttemptSpec := none
  deadlineSeconds : Option Nat := none
  context : Option Text := none
  /-- The further fields. -/
  extra : List (Text × Value) := []
  /-- The fields that are only handed on, or read by the checks of other modules. -/
  rest : Text := []

/-- All parents: the declared ones, then the completion edges that repeat none of them. -/
def Node.dependencies (node : Node) : List Text :=
  node.dependsOn ++ node.afterExpansion.filter fun name => !node.dependsOn.contains name

/-- `GraphDocument`. -/
structure Document where
  schemaVersion : Nat := 1
  graphId : Text
  nodes : List Node
  integrationBranch : Option Text := none
  delivery : Option DeliveryMode := none
  decisionSession : Option Text := none
  context : Option Text := none
  /-- The fields that are only handed on. -/
  rest : Text := []

/-- `GraphLimits`, with the limits that are read here. -/
structure Limits where
  nodes : Nat
  edges : Nat
  routesPerNode : Nat
  nodePromptBytes : Nat
  graphPromptBytes : Nat

/-- The checks and functions of other modules. A check returns its reason to refuse. -/
structure Validators where
  /-- `WorkContext::valid`. -/
  validContext : Text → Bool
  /-- A branch parses after `integrate:` as a delivery mode. -/
  integrates : Text → Bool
  /-- `inbox::session_id`. -/
  sessionId : Text → Bool
  /-- `GitRefName::branch`. -/
  branchName : Text → Bool
  /-- `GitRevision::new`. -/
  revision : Text → Bool
  /-- The parser of `GitOid`. -/
  gitOid : Text → Bool
  /-- `str::trim`. -/
  trim : Text → Text
  /-- A path has a component `..`. -/
  hasParentDir : Text → Bool
  /-- `plans::validate_spec`. -/
  validateSpec : Node → Option Text
  /-- `asks::validate_decide`. -/
  validateDecide : Text → Node → Option Text → Option Text
  /-- `land::validate_node`. -/
  validateLand : Node → Option Text
  /-- `ci::validate_target`. -/
  validateTarget : Text → Node → Document → Option Text
  /-- `validate_task_title`. -/
  validateTaskTitle : Text → Option Text
  /-- `plans::prompt`. -/
  prompt : Node → Text

/-- `node_plan_error`. -/
def nodePlanError (id : Text) (reason : Text) : Text := text "node " ++ id ++ text ": " ++ reason

/-- A check of another module on a node. -/
def refuse (id : Text) : Option Text → Except Text Unit
  | none => .ok ()
  | some reason => .error (nodePlanError id reason)

/-! ### Checks of the document -/

/-- A text has no null byte, and its length is between 1 and a bound. -/
def bounded (value : Text) (bound : Nat) : Bool :=
  !value.isEmpty && value.length ≤ bound && !value.contains 0

/-- A text has more than one line. -/
def hasLineBreak (value : Text) : Bool := value.contains 10 || value.contains 13

/-- The delivery of a document and its integration branch fit together. -/
def deliveryFits (v : Validators) (document : Document) : Bool :=
  (match document.delivery with
    | none | some .none => true
    | some .pr => document.integrationBranch.isSome
    | _ => false) &&
  document.integrationBranch.all v.integrates

/-- The checks of the document, before its nodes are looked at. -/
def checkDocument (v : Validators) (limits : Limits) (document : Document) : Except Text Unit := do
  demand (document.schemaVersion = 1 || document.schemaVersion = 2) (text "schema version")
  demand (document.context.all v.validContext &&
    document.nodes.all fun node => node.context.all v.validContext) (text "invalid work context")
  demand (deliveryFits v document)
    (text "graph delivery requires an integration branch and at most one PR")
  demand (Routing.identifier document.graphId) (text "graph id")
  demand (document.decisionSession.all v.sessionId) (text "invalid decision_session")
  demand (!document.nodes.isEmpty && document.nodes.length ≤ limits.nodes) (text "node count")

/-- Every identifier is valid and differs from the ones before it. -/
def checkIds (seen : List Text) : List Node → Except Text Unit
  | [] => .ok ()
  | node :: rest => do
    demand (validNodeIdentifier node.id && !seen.contains node.id)
      (nodePlanError node.id (text "node id"))
    checkIds (node.id :: seen) rest

/-! ### Checks of one node -/

/-- `attempt_error`: why the attempt settings of a node cannot launch. -/
def attemptError (v : Validators) (node : Node) (spec : AttemptSpec) : Option Text :=
  if spec.directory.any fun directory =>
      4096 < directory.length || directory.contains 0 || directory.head? ≠ some 47 then
    some (text "invalid attempt directory")
  else if spec.newWorktree.isSome && node.access ≠ .worktreeWrite then
    some (text "new worktree requires a writer")
  else if spec.newWorktree.isSome && (node.source.isSome || node.continues.isSome) then
    some (text "new worktree cannot override a source binding")
  else if spec.newWorktree.any fun new =>
      let path := text ".worktrees/" ++ new.branch.map fun byte => if byte = 47 then 45 else byte
      node.worktree ≠ some path || 251 < path.length || !v.branchName new.branch ||
        !v.revision new.base then
    some (text "invalid new worktree binding")
  else if 32 < spec.writeRoots.length || !spec.writeRoots.all (bounded · 4096) then
    some (text "invalid write roots")
  else if node.capabilities.isSome && !spec.capabilities.isEmpty then
    some (text "set capabilities on the node or its attempt, not both")
  else if !spec.capabilities.all (bounded · 64) then
    some (text "attempt capability must be a bounded name")
  else
    match spec.account with
    | none => none
    | some account =>
      if !bounded account 64 then some (text "attempt account must be a bounded name")
      else if (node.route.toList ++ node.routes.getD []).any fun route =>
          route.account.any fun pinned => pinned ≠ account then
        some (text "attempt account conflicts with a route account")
      else none

/-- A gate has a condition and nothing that configures an agent. Only gates and loops have a target
for their failure. -/
def gateShape (node : Node) : Bool :=
  let isGate := node.kind = some .gate
  (decide isGate == node.condition.isSome) &&
  (decide isGate || node.loopBody || node.onFail.isNone) &&
  (!decide isGate || (node.route.isNone && node.routes.isNone && node.access = .readOnly &&
    node.delivery.isNone && node.worktree.isNone && node.prompt.isEmpty &&
    node.requiredVerdict.isNone))

/-- The target for the failure of a node is another node that depends on it. -/
def onFailTarget (nodes : List Node) (node : Node) : Bool :=
  node.onFail.all fun target => target ≠ node.id &&
    (nodes.find? fun other => other.id = target).any fun other => other.dependsOn.contains node.id

/-- A name of a check of a CI gate. -/
def checkName (v : Validators) (name : Text) : Bool :=
  !(v.trim name).isEmpty && v.trim name = name && !hasLineBreak name && name.length ≤ 1024

/-- The checks of the condition of a gate. -/
def checkCondition (v : Validators) (limits : Limits) (document : Document) (node : Node) :
    Except Text Unit :=
  match node.condition with
  | some (.verdict expected threshold) =>
    demand (!(v.trim expected).isEmpty && v.trim expected = expected &&
      expected.length ≤ limits.nodePromptBytes && !hasLineBreak expected && !node.inputs.isEmpty &&
      (node.inputs.all fun input => input.outputs = [.verdict]) &&
      (match threshold with
        | .count n => n ≠ 0 && n ≤ node.inputs.length
        | _ => true)) (nodePlanError node.id (text "invalid verdict gate"))
  | some (.ci target checks timeoutSeconds) => do
    demand (checks.all (checkName v) && checks.Nodup)
      (nodePlanError node.id (text "invalid CI gate check names"))
    refuse node.id (v.validateTarget target node document)
    demand (1 ≤ timeoutSeconds && timeoutSeconds ≤ 604800 && node.inputs.isEmpty)
      (nodePlanError node.id (text "invalid CI gate target or timeout"))
  | some .budget =>
    demand node.inputs.isEmpty (nodePlanError node.id (text "budget gate has no selected inputs"))
  | none => .ok ()

/-- The base of a review among the further fields is a reference. -/
def reviewBase (node : Node) : Bool :=
  match node.extra.lookup (text "review_base") with
  | none => true
  | some (.str reference) => bounded reference 4096
  | some _ => false

/-- The checks of the source of a node. -/
def checkSource (v : Validators) (document : Document) (node : Node) : Except Text Unit :=
  match node.source with
  | some (.commit commit) =>
    demand (v.gitOid commit) (nodePlanError node.id (text "source requires a full commit ID"))
  | some (.node source) =>
    demand (node.dependsOn.contains source)
      (nodePlanError node.id (text "source node must be a direct dependency"))
  | some .integration =>
    demand document.integrationBranch.isSome
      (nodePlanError node.id (text "integration source requires an integration branch"))
  | _ => .ok ()

/-- `validate_access`. -/
def validateAccess (v : Validators) (node : Node) : Option Text :=
  if node.access = .worktreeWrite &&
      node.worktree.all fun path => !bounded path 4096 || v.hasParentDir path then
    some (text "writer worktree")
  else if node.access = .readOnly && node.worktree.isSome then some (text "read-only worktree")
  else none

/-- The node is run by the graph itself. -/
def Node.isStructural (node : Node) : Bool :=
  node.kind = some .gate || node.kind = some .loop || node.kind = some .composite ||
    node.kind = some .decide || node.kind = some .land

/-- The checks of a node that come before the totals. -/
def checkShape (v : Validators) (limits : Limits) (document : Document) (node : Node) :
    Except Text Unit := do
  let fail := nodePlanError node.id
  demand (reviewBase node) (fail (text "node review_base must be a nonempty reference"))
  demand ((node.extra.lookup (text "composite_members")).isNone &&
    (node.extra.lookup (text "after_expansion")).isNone)
    (fail (text "computed topology fields are reserved to checkpoint expansions"))
  demand (node.deadlineSeconds ≠ some 0) (fail (text "node deadline_seconds must be positive"))
  refuse node.id (node.attempt.bind (attemptError v node))
  refuse node.id (v.validateSpec node)
  demand (decide (node.kind = some .composite) == node.composite)
    (fail (text "composite requires nodes and exports"))
  demand (decide (node.kind = some .loop) == node.loopBody) (fail (text "loop requires a body"))
  demand (decide (node.kind = some .decide) == node.decide.isSome)
    (fail (text "decide requires a question and options"))
  refuse node.id (v.validateDecide document.graphId node document.decisionSession)
  demand (decide (node.kind = some .land) == node.land.isSome)
    (fail (text "land requires a land spec naming its writer"))
  refuse node.id (v.validateLand node)
  demand (gateShape node) (fail (text "gate requires a condition and no agent configuration"))
  demand (onFailTarget document.nodes node) (fail (text "on_fail target must depend on its gate"))
  checkCondition v limits document node
  demand (document.integrationBranch.all fun integration =>
    match node.delivery with
    | some (.integrate target) => integration = target
    | _ => true) (fail (text "node integration target differs from graph integration branch"))
  demand (node.requiredVerdict.all fun line => !(v.trim line).isEmpty &&
    line.length ≤ limits.nodePromptBytes && !hasLineBreak line)
    (fail (text "required verdict must be a non-empty single line"))
  refuse node.id (node.title.bind v.validateTaskTitle)
  demand (node.role.all Routing.identifier) (fail (text "invalid role name"))
  demand (node.readRoots.length ≤ 32 && node.readRoots.all (bounded · 4096) && node.readRoots.Nodup)
    (fail (text "invalid read roots"))
  demand (node.attachments.length ≤ 32 && node.attachments.all (bounded · 4096))
    (fail (text "invalid attachments"))
  checkSource v document node
  demand (!node.isStructural ||
    (node.source.isNone && node.readRoots.isEmpty && node.attachments.isEmpty))
    (fail (text "execution bindings require an agent node"))
  refuse node.id (validateAccess v node)
  demand (node.access ≠ .readOnly || node.delivery = none || node.delivery = some .none)
    (fail (text "read-only node cannot deliver"))
  demand (document.delivery ≠ some .pr || node.delivery ≠ some .pr)
    (fail (text "graph PR is exclusive with node PRs"))
  demand ((node.isStructural || !node.prompt.isEmpty) &&
    (v.prompt node).length ≤ limits.nodePromptBytes) (fail (text "prompt size"))

/-- `GraphNode::content_bytes`. -/
def contentBytes (v : Validators) (node : Node) : Nat :=
  let expected := match node.condition with
    | some (.verdict expected _) => expected.length
    | _ => 0
  min ((v.prompt node).length + expected + (node.decide.map (·.length)).getD 0) (2 ^ 64 - 1)

/-! ### Routes and inputs -/

/-- The routes of a node. -/
def chosenRoutes (node : Node) : Except Text (List Route) :=
  match node.route, node.routes with
  | none, none =>
    if node.isStructural then .ok []
    else .error (nodePlanError node.id (text "route list is empty"))
  | some route, none => .ok [route]
  | none, some routes =>
    if routes.isEmpty then .error (nodePlanError node.id (text "route list is empty"))
    else .ok routes
  | some _, some _ => .error (nodePlanError node.id (text "route and routes are exclusive"))

/-- `route_is_bounded`. -/
def routeIsBounded (route : Route) : Bool :=
  route.adapter.all (bounded · 128) &&
  [route.model.isSome, route.routeAlias.isSome, route.name.isSome].count true = 1 &&
  route.name.all (bounded · 128) &&
  (route.name.isNone || (route.effort.isNone && route.account.isNone)) &&
  route.model.all (bounded · 256) && route.routeAlias.all (bounded · 128) &&
  route.effort.all (bounded · 64) && route.account.all (bounded · 64)

/-- Every host-native route has a later route that is not. -/
def nativeFallbacks : List Route → Bool
  | [] => true
  | route :: rest =>
    (route.adapter ≠ some (text "host-native") ||
      rest.any fun fallback => fallback.adapter ≠ some (text "host-native")) && nativeFallbacks rest

/-- `LaunchField::refusal`. -/
def refusal : Routing.LaunchField → Text
  | .model => text "model is not supported by the route's adapter"
  | .effort => text "effort is not supported by the route's adapter"
  | .resume => text "resume is not supported by the route's adapter"
  | .network => text "network mode is not supported by the route's adapter"
  | .write => text "worktree-write is not supported by the route's adapter"
  | .skillLocation => text "skill location is not supported by the route's adapter"

/-- Why the adapter of a route refuses the launch of a node. -/
def launchRefusal (node : Node) (route : Route) : Option Text :=
  ((route.adapter.bind Routing.AdapterSpec.get).bind fun spec =>
    spec.checkLaunch
      { model := route.model
        effort := route.effort
        resume := false
        network := none
        write := node.access = .worktreeWrite || node.attempt.any fun spec => !spec.writeRoots.isEmpty
        skillLocation := false }).map refusal

/-- The checks of the routes of a node. -/
def checkRoutes (limits : Limits) (node : Node) (routes : List Route) : Except Text Unit := do
  let fail := nodePlanError node.id
  demand (routes.length ≤ limits.routesPerNode) (fail (text "route count"))
  demand (routes.all fun route => route.adapter.isSome || route.routeAlias.isSome)
    (fail (text "route requires an adapter or alias"))
  demand (routes.all fun route => (route.model.isNone && route.name.isNone) || route.adapter.isSome)
    (fail (text "model or named adapter route requires an adapter"))
  demand (routes.all routeIsBounded) (fail (text "route field size"))
  demand (nativeFallbacks routes)
    (fail (text "host-native route requires a later non-native fallback"))
  refuse node.id (routes.findSome? (launchRefusal node))

/-- The parents of a node are other nodes, each named once. -/
def dependenciesFit (nodes : List Node) (node : Node) : Bool :=
  node.dependencies.Nodup && !node.dependencies.contains node.id &&
    node.dependencies.all fun parent => nodes.any fun other => other.id = parent

/-- The checks of the inputs of a node, after the nodes in `seen`. -/
def checkInputs (node : Node) (seen : List Text) : List Input → Except Text Unit
  | [] => .ok ()
  | input :: rest => do
    let fail := nodePlanError node.id
    demand (!input.extraRequired) (fail (text "required output semantics are not supported"))
    demand (node.dependsOn.contains input.node && !seen.contains input.node &&
      !input.outputs.isEmpty)
      (fail (text "input must select outputs from a unique direct dependency"))
    demand input.outputs.Nodup (fail (text "duplicate input output"))
    demand ((input.requiredOutputs.all fun kind => input.outputs.contains kind &&
      (kind = .commit || kind = .verdict || kind = .findings)) && input.requiredOutputs.Nodup)
      (fail (text "required outputs must be unique selected commit, verdict or findings values"))
    checkInputs node (input.node :: seen) rest

/-! ### Planned nodes -/

/-- `PlannedNode`: the fields of a node that are computed, over the node itself. -/
structure Planned where
  /-- The node, for all fields that are handed on. -/
  node : Node
  dependsOn : List Text
  kind : Option NodeKind
  prompt : Text
  routes : List Route
  capabilities : Option (List Text)
  attempt : Option AttemptSpec

/-- The identifier of a planned node. -/
abbrev Planned.id (planned : Planned) : Text := planned.node.id

/-- `PlannedNode::dependencies`. -/
def Planned.dependencies (planned : Planned) : List Text :=
  planned.dependsOn ++ planned.node.afterExpansion.filter fun name =>
    !planned.dependsOn.contains name

/-- A node with its routes, as it is planned. -/
def planNode (v : Validators) (node : Node) (routes : List Route) : Planned where
  node := node
  dependsOn := node.dependsOn.insertionSort (· ≤ ·)
  kind := node.kind.filter (· ≠ .task)
  prompt := v.prompt node
  routes := routes
  -- An explicit set of the node wins; a nonempty set of the attempt stands in for it.
  capabilities := node.capabilities <|> (node.attempt.filter fun spec =>
    !spec.capabilities.isEmpty).map (·.capabilities)
  attempt := node.attempt.filter fun spec => !spec.isEmpty

/-- The loop over the nodes, with the totals of prompt bytes and edges so far. -/
def planNodes (v : Validators) (limits : Limits) (document : Document) (promptBytes edgeCount : Nat) :
    List Node → Except Text (List Planned)
  | [] => .ok []
  | node :: rest => do
    let fail := nodePlanError node.id
    checkShape v limits document node
    let promptBytes := promptBytes + contentBytes v node
    demand (promptBytes < 2 ^ 64) (fail (text "prompt size"))
    demand (promptBytes ≤ limits.graphPromptBytes) (fail (text "total prompt size"))
    let edgeCount := edgeCount + node.dependencies.length
    demand (edgeCount < 2 ^ 64 && edgeCount ≤ limits.edges) (fail (text "edge count"))
    let routes ← chosenRoutes node
    checkRoutes limits node routes
    demand (dependenciesFit document.nodes node) (fail (text "dependency"))
    demand (node.kind ≠ some .synthesise || !node.inputs.isEmpty)
      (fail (text "synthesise requires selected inputs"))
    checkInputs node [] node.inputs
    let others ← planNodes v limits document promptBytes edgeCount rest
    .ok (planNode v node routes :: others)

/-- All checks of the document and of its nodes, in the order of the source: the first one that
fails gives the reason. -/
def prepare (v : Validators) (limits : Limits) (document : Document) :
    Except Text (List Planned) := do
  checkDocument v limits document
  checkIds [] document.nodes
  planNodes v limits document 0 0 document.nodes

/-! ### The graph as a whole -/

/-- The position of an identifier. -/
def position (nodes : List Planned) (id : Text) : Option Nat :=
  nodes.findIdx? fun node => node.id = id

/-- The positions of the parents of a node. -/
def parentsAt (nodes : List Planned) (index : Nat) : List Nat :=
  ((nodes[index]?).map fun node => node.dependencies.filterMap (position nodes)).getD []

/-- The nodes by the order in which their dependencies allow them to be taken. -/
def sortNodes (nodes : List Planned) : Except Text (List Nat) :=
  let final := Topological.finish (parentsAt nodes) nodes.length
  if final.order.length = nodes.length then .ok final.order
  else
    let stuck := (List.range nodes.length).find? fun index => 0 < final.indegree index
    .error (nodePlanError (((stuck.bind fun index => nodes[index]?).map (·.id)).getD
      (text "unknown")) (text "dependency cycle"))

/-- `land::ancestors`: the positions of everything upstream of a node. -/
def ancestors (nodes : List Planned) (id : Text) : List Nat :=
  match position nodes id with
  | none => []
  | some index => Search.reach (parentsAt nodes) (nodes.length + 1) index

/-- `plans::writer`. -/
def Planned.writer (planned : Planned) : Bool :=
  planned.node.access = .worktreeWrite && planned.kind.all (· = .task)

/-- The position of an upstream node, if it is a writer that is not a continuation and passes a
further check. -/
def upstreamWriter (nodes : List Planned) (node : Planned) (target : Text)
    (fits : Planned → Bool) : Option Nat :=
  (position nodes target).filter fun index =>
    (ancestors nodes node.id).contains index && (nodes[index]?).any fun writer =>
      writer.writer && writer.node.continues.isNone && fits writer

/-- The writer delivers a pull request or a push. -/
def delivers (writer : Planned) : Bool :=
  writer.node.delivery = some .pr || writer.node.delivery = some .push

/-- A gate on CI or on a verdict lies upstream of a node and downstream of a writer. -/
def gateAfterWriter (nodes : List Planned) (node : Planned) (writer : Nat) (ci : Bool) : Bool :=
  (ancestors nodes node.id).any fun index => (nodes[index]?).any fun gate =>
    (match gate.node.condition with
      | some (.ci ..) => ci
      | some (.verdict ..) => !ci
      | _ => false) && (ancestors nodes gate.id).contains writer

/-- The relations of one node in `land::validate_relations`. -/
def checkRelations (nodes : List Planned) (node : Planned) : Except Text Unit := do
  let fail := nodePlanError node.id
  match node.node.source with
  | some (.head target) =>
    demand (upstreamWriter nodes node target delivers).isSome
      (fail (text "head source must name an upstream writer that delivers pr or push"))
  | _ => .ok ()
  match node.node.continues with
  | some target =>
    demand (upstreamWriter nodes node target fun writer =>
      delivers writer && writer.node.worktree = node.node.worktree).isSome
      (fail (text "continues must name an upstream writer that delivers pr or push from the same worktree"))
  | none => .ok ()
  match node.node.land with
  | some target =>
    match upstreamWriter nodes node target fun writer => writer.node.delivery = some .pr with
    | none => .error (fail (text "land must follow a writer that delivers pr"))
    | some writer =>
      demand (gateAfterWriter nodes node writer true && gateAfterWriter nodes node writer false)
        (fail (text "land must follow a verdict gate and a CI gate after its writer"))
  | none => .ok ()

/-- `land::validate_relations`. -/
def validateRelations (nodes : List Planned) : Except Text Unit :=
  nodes.forM (checkRelations nodes)

/-- A child of a gate belongs to its failure: it is the target, or a node in a round of it. -/
def Node.recovers (target : Text) (child : Node) : Bool :=
  child.id = target || child.round.any fun round => round.loopId = target

/-- The children of a node that declare it as a parent. -/
def dependants (nodes : List Planned) (index : Nat) : List Nat :=
  (Topological.children (parentsAt nodes) nodes.length index).filter fun child =>
    (nodes[child]?).any fun node => (nodes[index]?).any fun parent =>
      node.dependsOn.contains parent.id

/-- The children of a gate, each with the outcome it waits for. -/
def outcomes (nodes : List Planned) (gate : Nat) (target : Text) : List (Nat × Bool) :=
  (dependants nodes gate).map fun child =>
    (child, !(nodes[child]?).any (·.node.recovers target))

/-- No node requires both outcomes of one gate. -/
def checkGate (nodes : List Planned) (gate : Nat) (target : Text) : Except Text Unit :=
  let seeds := outcomes nodes gate target
  let room := seeds.length + ((List.range nodes.length).map fun index =>
    (dependants nodes index).length).sum
  match Colouring.spread (dependants nodes) room (fun _ => none) seeds with
  | .ok _ => .ok ()
  | .error index =>
    .error (nodePlanError (((nodes[index]?).map (·.id)).getD []) (text "requires both gate outcomes"))

/-- The check of all gates, in the order of the nodes. -/
def checkGates (nodes : List Planned) : Except Text Unit :=
  (List.range nodes.length).forM fun gate =>
    match (nodes[gate]?).bind (·.node.onFail) with
    | none => .ok ()
    | some target => checkGate nodes gate target

/-- `PlannedGraph`, over the document whose other fields are handed on. -/
structure Plan where
  document : Document
  nodes : List Planned

/-- `validate_flat_plan`: the plan, and the position of each identifier. -/
def validateFlatPlan (v : Validators) (limits : Limits) (document : Document) :
    Except Text (Plan × List (Text × Nat)) := do
  let nodes ← prepare v limits document
  let order ← sortNodes nodes
  validateRelations nodes
  checkGates nodes
  let sorted := order.filterMap fun index => nodes[index]?
  .ok (⟨document, sorted⟩, sorted.zipIdx.map fun entry => (entry.1.id, entry.2))

end Provenant.FlatPlan

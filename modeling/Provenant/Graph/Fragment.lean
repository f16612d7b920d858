import Provenant.Graph.Expand

/-!
# Fragments of agents

An agent's final result may contribute nodes to the graph. They are authored as a tree, whose
composites and loops have members. Each top node is prepared under the node that produced it,
then the tree is flattened into a local document, checked, and renamed into the namespace of
the producer.

## Main definitions

* `AuthoredNode` — a node as it is authored, with the members of its composite or loop.
* `prepareNested` — the preparation of an authored node under its planner.
* `flattenNode` — composites expand into their members and their boundary.
* `localNodes`, `flattenFragment` — the nodes under which a fragment joins the graph.
* `finalFragment` — the addition that a final result contributes.

## Implementation notes

The template compiler is not modelled: an authored node is what the compiler returns, together
with whether it was instantiated from a host template without overrides; the instances that a
path floor adds are such nodes, too. Checks that only
refuse a fragment or only choose its worktrees are a parameter. A node with both a composite
and a loop is refused when it is flattened, so it has no counterpart here.
-/

namespace Provenant.Graph

open Json (Text text)

/-! ### Authored nodes -/

/-- A node as it is authored. -/
inductive AuthoredNode
  | leaf (fields : BodyNode)
  | composite (fields : BodyNode) (spec : CompositeSpec) (nodes : List AuthoredNode)
  | loop (fields : BodyNode) (untilGate : Text) (maxRounds : Nat) (repair : Bool)
      (body : List AuthoredNode)

/-- The fields of the node itself. -/
def AuthoredNode.fields : AuthoredNode → BodyNode
  | .leaf fields => fields
  | .composite fields _ _ => fields
  | .loop fields _ _ _ _ => fields

/-- The capabilities that a node is planned with: its own set, or else the nonempty set of its
attempt settings. -/
def BodyNode.plannedCapabilities (node : BodyNode) : Option (List Text) :=
  node.capabilities.or (if node.attemptCapabilities = [] then none
    else some node.attemptCapabilities)

/-! ### Preparation -/

/-- The text has white space only. -/
def blank : Text → Bool
  | [] => true
  | 0xC2 :: 0x85 :: rest => blank rest
  | 0xC2 :: 0xA0 :: rest => blank rest
  | 0xE1 :: 0x9A :: 0x80 :: rest => blank rest
  | 0xE2 :: 0x81 :: 0x9F :: rest => blank rest
  | 0xE3 :: 0x80 :: 0x80 :: rest => blank rest
  | 0xE2 :: 0x80 :: byte :: rest =>
    ((0x80 ≤ byte && byte ≤ 0x8A) || byte == 0xA8 || byte == 0xA9 || byte == 0xAF) && blank rest
  | byte :: rest => ((9 ≤ byte && byte ≤ 13) || byte == 32) && blank rest

/-- `valid_scope`: a relative literal path. -/
def validScope (scope : Text) : Bool :=
  scope == text "." ||
    (!scope.isEmpty &&
      !((scope.splitOn 47).any fun part => part.isEmpty || part == text "." || part == text "..") &&
      !scope.any fun byte => (text "\\*?[]").contains byte)

/-- The route of a node that names none. -/
def seniorRoute : GraphRoute := { adapter := text "senior", account := none }

/-- A node without routes takes the senior pool. -/
def defaultRoute (child : BodyNode) : BodyNode :=
  if child.routes = [] then { child with routes := [seniorRoute] } else child

/-- Joined with a separator. -/
def joinText (separator : Text) (parts : List Text) : Text := List.intercalate separator parts

/-- What an untrusted author may not widen: role, source, capabilities, attachments and read
roots stay within those of the planner. -/
def checkAuthority (producer child : BodyNode) : Except Text BodyNode :=
  let name := text "fragment node " ++ child.id
  match child.role with
  | some role =>
    if producer.role ≠ some role then
      .error (name ++ text " sets role " ++ role ++
        text "; planner-emitted nodes cannot choose a role")
    else checkBindings name
  | none => checkBindings name
where
  checkBindings (name : Text) : Except Text BodyNode :=
    if child.source.isSome && producer.source != child.source then
      .error (name ++ text
        " sets source; planner-emitted nodes may only repeat the planner's own source")
    else
      match (child.capabilities.getD []).find? fun capability =>
          !(producer.plannedCapabilities.getD []).contains capability with
      | some capability =>
        .error (name ++ text " capability " ++ capability ++
          text " exceeds the planner's capabilities")
      | none =>
        if child.attachments.any fun path => !producer.attachments.contains path then
          .error (name ++ text " attachment exceeds the planner's attachments")
        else
          match child.readRoots.find? fun root => !producer.readRoots.contains root with
          | some root =>
            .error (name ++ text " read root " ++ root ++
              text " is outside the planner's read roots")
          -- origin evidence is the host's to give
          | none => .ok { child with capabilitySources := none }

/-- The node is a gate or a decision, whose evidence is not a prompt. -/
def gateOrDecide (child : BodyNode) : Bool :=
  child.kind == some .gate || child.kind == some .decide

/-- The node is not a unit of agent work. -/
def notAgent (child : BodyNode) : Bool :=
  gateOrDecide child || child.kind == some .composite || child.kind == some .loop

/-- Agents carry a goal and acceptance checks, and writers a scope. -/
def prepareAgent (child : BodyNode) : Except Text BodyNode :=
  if notAgent child then .ok child
  else if blank child.prompt || child.acceptanceChecks.isEmpty ||
      child.acceptanceChecks.any blank ||
      (child.access == .worktreeWrite && child.writeScope.isEmpty) ||
      child.writeScope.any (fun scope => !validScope scope) then
    .error (text
      "fragment agent requires goal or brief and acceptance_checks; writers also require relative literal write_scope")
  else
    let scope := if child.writeScope.isEmpty then []
      else text "Write scope: " ++ joinText (text ", ") child.writeScope ++ text "\n"
    .ok (defaultRoute { child with
      prompt := child.prompt ++ text "\n\n" ++ scope ++ text "Acceptance checks:\n" ++
        joinText (text "\n") child.acceptanceChecks })

/-- Writers integrate into the branch of the graph, and nothing else. -/
def prepareDelivery (branch : Option Text) (child : BodyNode) : Except Text BodyNode :=
  match child.delivery, branch with
  | some (.integrate _), none =>
    .error (text "fragment node " ++ child.id ++
      text " sets integrate delivery, but the graph names no integration_branch")
  | _, _ =>
    if child.access = .worktreeWrite then
      if child.delivery == some .push || child.delivery == some .pr then
        .error (text "fragment writers use integrate delivery, never individual PRs")
      else
        match branch with
        | some target => .ok { child with delivery := some (.integrate target) }
        | none => .ok child
    else .ok child

/-- What follows the members: the rest of `prepare_nested`. -/
def prepareWork (branch : Option Text) (trusted nested isComposite : Bool) (child : BodyNode) :
    Except Text BodyNode :=
  -- fixed read-only leaves of a preset already carry their prompts
  if trusted && nested && child.access == .readOnly && child.acceptanceChecks.isEmpty &&
      !isComposite && !gateOrDecide child then
    if blank child.prompt then .error (text "fragment agent requires a prompt")
    else .ok (defaultRoute child)
  else (prepareAgent child).bind (prepareDelivery branch)

/-- What precedes the members. -/
def prepareFields (producer : BodyNode) (spec : PlanSpec) (trusted : Bool) (child : BodyNode) :
    Except Text BodyNode :=
  let child := { child with
    requireSkillLocation := child.requireSkillLocation || producer.requireSkillLocation }
  if trusted then .ok child
  else
    (checkAuthority producer child).bind fun child =>
      -- an author may only pass on templates that its own planner was given
      if child.plan.any fun nested =>
          nested.templates.any fun template => !spec.templates.contains template then
        .error (text "fragment node " ++ child.id ++
          text " gives a planner templates its author was not given")
      else .ok child

section Prepare

variable (producer : BodyNode) (spec : PlanSpec) (branch : Option Text)

mutual

/-- `prepare_nested`. -/
def prepareNested (trusted nested : Bool) : AuthoredNode → Except Text AuthoredNode
  | .leaf fields =>
    ((prepareFields producer spec trusted fields).bind
      (prepareWork branch trusted nested false)).map .leaf
  | .composite fields composite nodes =>
    -- composite templates own their children's work bindings and delivery
    if trusted then .ok (.composite fields composite nodes)
    else
      (prepareFields producer spec trusted fields).bind fun child =>
        (prepareMembers trusted nodes).bind fun members =>
          (prepareWork branch trusted nested true child).map fun child =>
            .composite child composite members
  | .loop fields untilGate maxRounds repair body =>
    if trusted then .ok (.loop fields untilGate maxRounds repair body)
    else
      (prepareFields producer spec trusted fields).bind fun child =>
        (prepareMembers trusted body).bind fun members =>
          (prepareWork branch trusted nested false child).map fun child =>
            .loop child untilGate maxRounds repair members

/-- The members of a composite or a loop are prepared in turn. -/
def prepareMembers (trusted : Bool) : List AuthoredNode → Except Text (List AuthoredNode)
  | [] => .ok []
  | node :: rest =>
    (prepareNested trusted true node).bind fun member =>
      (prepareMembers trusted rest).map fun members => member :: members

end

end Prepare

/-! ### Composites -/

/-- `scoped`: the name of a member. -/
def scopedName (scope name : Text) : Text := if scope.isEmpty then name else under scope ++ name

/-- What follows the first separator. -/
def afterSeparator : Text → Option Text
  | 45 :: 45 :: rest => some rest
  | _ :: rest => afterSeparator rest
  | [] => none

/-- The scope around a scope. -/
def parentScope (scope : Text) : Option Text := (afterSeparator scope.reverse).map List.reverse

/-- `reference`: a name that a member uses, seen from the document. -/
def reference (scope name : Text) (locals incoming : List Text) : Option Text :=
  if locals.contains name then some (scopedName scope name)
  else if incoming.contains name then some name
  else ((parentScope scope).map fun parent => scopedName parent name).filter incoming.contains

/-- What the members of a composite or a loop inherit. -/
structure Scope where
  path : Text := []
  names : List (Text × Text) := []
  incoming : List Text := []
  inputs : List GraphInput := []
  source : Option SourceBinding := none
  readRoots : List Text := []
  attachments : List Text := []
  requireSkillLocation : Bool := false
  depth : Nat := 0

/-- The names that members see, the nearest first. -/
def Scope.visible (scope : Scope) (locals : List Text) : List (Text × Text) :=
  locals.map (fun name => (name, scopedName scope.path name)) ++ scope.names

/-- The visible node of a name. -/
def visibleName (names : List (Text × Text)) (name : Text) : Option Text :=
  (names.find? fun entry => entry.1 == name).map (·.2)

/-- The node that an input of a member selects from. -/
def Scope.bindInput (scope : Scope) (locals : List Text) (input : GraphInput) : GraphInput :=
  if (previousName input.node).isSome then input
  else
    { input with
      node := ((reference scope.path input.node locals scope.incoming).or
        (if scope.path.isEmpty then visibleName (scope.visible locals) input.node else none)).getD
          (scopedName scope.path input.node) }

/-- The source of a member. -/
def Scope.bindSource (scope : Scope) (locals : List Text) : SourceBinding → SourceBinding
  | .node name =>
    if (previousName name).isSome then .node name
    else .node ((reference scope.path name locals scope.incoming).getD (scopedName scope.path name))
  | .head writer => .head ((visibleName (scope.visible locals) writer).getD writer)
  | .commit commit => .commit commit
  | .integration => .integration

/-- A member without parents among its siblings takes those of its composite. -/
def Scope.inheritParents (scope : Scope) (node : BodyNode) : BodyNode :=
  { node with
    dependsOn := scope.incoming.foldl addName node.dependsOn
    inputs := mergeInputs node.inputs scope.inputs }

/-- A member without a source takes that of its composite, and waits for the node it names. -/
def Scope.inheritSource (scope : Scope) (node : BodyNode) : BodyNode :=
  if node.source.isSome then node
  else
    { node with
      source := scope.source
      dependsOn := match scope.source with
        | some (.node name) => addName node.dependsOn name
        | _ => node.dependsOn }

/-- A member takes the read roots and attachments of its composite, too. -/
def Scope.inheritReads (scope : Scope) (node : BodyNode) : BodyNode :=
  { node with
    readRoots := scope.readRoots.foldl addName node.readRoots
    attachments := scope.attachments.foldl addName node.attachments }

/-- The names of a member in the document. -/
def Scope.bindNames (scope : Scope) (locals : List Text) (original : BodyNode)
    (dependsOn : List Text) : BodyNode :=
  { original with
    id := scopedName scope.path original.id
    requireSkillLocation := original.requireSkillLocation || scope.requireSkillLocation
    dependsOn
    inputs := original.inputs.map (scope.bindInput locals)
    onFail := original.onFail.map (scopedName scope.path)
    source := original.source.map (scope.bindSource locals) }

/-- The fields of a member as its scope binds them. -/
def Scope.bind (scope : Scope) (locals : List Text) (original : BodyNode) : Option BodyNode :=
  (original.dependsOn.mapM fun name => reference scope.path name locals scope.incoming).bind
    fun dependsOn =>
      let node := scope.bindNames locals original dependsOn
      let node := if original.dependsOn.all fun name => !locals.contains name then
        scope.inheritParents node else node
      if validNodeIdentifier node.id then some (scope.inheritReads (scope.inheritSource node))
      else none

/-- A composite is only a boundary. -/
def bareComposite (node : BodyNode) : Bool :=
  node.kind == some .composite && node.access == .readOnly && node.routes.isEmpty &&
    node.delivery.isNone && node.condition.isNone && node.onFail.isNone && node.plan.isNone &&
    node.prompt.isEmpty && node.writeScope.isEmpty && node.acceptanceChecks.isEmpty

/-- Kinds of output that a composite has at most one source of. -/
def scalarKind : OutputKind → Bool
  | .verdict | .branch | .commit | .remaining => true
  | .result | .findings => false

/-- The exports of a composite select direct members, once, and scalars from one of them. -/
def exportsValid (spec : CompositeSpec) (members : List Text) : Bool :=
  (spec.exports.all fun item =>
    members.contains item.node && !item.outputs.isEmpty && decide item.outputs.Nodup) &&
  decide (spec.exports.map (·.node)).Nodup &&
  decide ((spec.exports.flatMap (·.outputs)).filter fun kind =>
    scalarKind kind && !(kind == .verdict && spec.reduceVerdict)).Nodup

/-- A loop is only a boundary. -/
def bareLoop (node : BodyNode) (repair : Bool) : Bool :=
  node.kind == some .loop && node.access == .readOnly && node.routes.isEmpty &&
    node.delivery.isNone && node.condition.isNone && (node.onFail.isNone || repair) &&
    node.prompt.isEmpty

/-- What a loop admits into its body. -/
def bodyMember : AuthoredNode → Bool
  | .loop .. => false
  | .leaf child | .composite child _ _ =>
    (previousName child.id).isNone && child.kind != some .loop && child.onFail.isNone &&
      child.delivery.all fun
        | .integrate _ => true
        | .none | .push | .pr => false

/-- The scope of the members of a composite. -/
def Scope.inner (scope : Scope) (locals : List Text) (node : BodyNode) : Scope :=
  { path := node.id
    names := scope.visible locals
    incoming := node.dependsOn
    inputs := node.inputs
    source := node.source
    readRoots := node.readRoots
    attachments := node.attachments
    requireSkillLocation := node.requireSkillLocation
    depth := scope.depth + 1 }

/-- The scope of the body of a loop, which has a namespace of its own. -/
def Scope.body (scope : Scope) (locals : List Text) (node : BodyNode) : Scope :=
  { names := scope.visible locals
    attachments := node.attachments
    requireSkillLocation := node.requireSkillLocation
    depth := scope.depth }

/-- The boundary of a composite, which waits for its members and binds nothing itself. -/
def boundary (node : BodyNode) (spec : CompositeSpec) (members : List Text) : GraphNode :=
  { toBodyNode := { node with
      compositeMembers := members.map (scopedName node.id)
      afterExpansion := node.afterExpansion ++ members.map (scopedName node.id)
      inputs := []
      source := none
      readRoots := []
      attachments := []
      composite := some { spec with
        exports := spec.exports.map fun item => { item with node := scopedName node.id item.node } } }
    loopBody := none }

/-- The names of some authored nodes. -/
def authoredIds (nodes : List AuthoredNode) : List Text := nodes.map (·.fields.id)

section Flatten

variable (deep : Nat → Bool)

/-- The members of a scope have different names, and the scope is not too deep. -/
def Scope.admits (scope : Scope) (nodes : List AuthoredNode) : Bool :=
  !deep scope.depth && decide (authoredIds nodes).Nodup

mutual

/-- A member of a scope with what it expands into: the members of a composite come before its
boundary. -/
def flattenNode (scope : Scope) (locals : List Text) : AuthoredNode → Option (List GraphNode)
  | .leaf fields =>
    (scope.bind locals fields).bind fun node =>
      if node.kind = some .composite ∨ node.kind = some .loop then none
      else some [{ toBodyNode := node }]
  | .composite fields spec nodes =>
    (scope.bind locals fields).bind fun node =>
      if bareComposite node && !nodes.isEmpty && exportsValid spec (authoredIds nodes) &&
          (scope.inner locals node).admits deep nodes then
        (flattenList (scope.inner locals node) (authoredIds nodes) nodes).map fun members =>
          members ++ [boundary node spec (authoredIds nodes)]
      else none
  | .loop fields untilGate maxRounds repair nodes =>
    (scope.bind locals fields).bind fun node =>
      if bareLoop node repair && !nodes.isEmpty && nodes.all bodyMember &&
          (scope.body locals node).admits deep nodes then
        (flattenList (scope.body locals node) (authoredIds nodes) nodes).bind fun body =>
          if body.all fun child => child.loopBody.isNone then
            some [{
              toBodyNode := node
              loopBody := some { body := body.map (·.toBodyNode), untilGate, maxRounds, repair } }]
          else none
      else none

/-- The members of a scope in turn. -/
def flattenList (scope : Scope) (locals : List Text) : List AuthoredNode → Option (List GraphNode)
  | [] => some []
  | node :: rest =>
    (flattenNode scope locals node).bind fun first =>
      (flattenList scope locals rest).map fun others => first ++ others

end

/-- `composites::expand` on a document of authored nodes. -/
def flattenDocument (nodes : List AuthoredNode) : Option (List GraphNode) :=
  if ({} : Scope).admits deep nodes then flattenList deep {} (authoredIds nodes) nodes else none

end Flatten

/-! ### The fragment in the graph -/

/-- A stand-in for a node of the graph that a fragment waits for. -/
def stub (name : Text) : AuthoredNode :=
  .leaf { id := name, prompt := text "placeholder", routes := [seniorRoute] }

/-- The nodes of the graph that a fragment names. A planner names only its own. -/
def externalNames (planner : Bool) (document : GraphDocument) (nodes : List AuthoredNode) :
    List Text :=
  if planner then []
  else
    (nodes.flatMap fun node => node.fields.dependsOn ++ node.fields.inputs.map (·.node)).foldl
      (fun names name =>
        if !(authoredIds nodes).contains name && (ids document.nodes).contains name then
          addName names name
        else names)
      []

/-- The name of something in a fragment, seen from the graph. -/
def fragmentName (document : GraphDocument) (producer : Text) (external locals : List Text)
    (name : Text) : Text :=
  if external.contains name || (!locals.contains name && (ids document.nodes).contains name) then
    name
  else under producer ++ name

/-- A source as the graph sees it. -/
def SourceBinding.rename (rename : Text → Text) : SourceBinding → SourceBinding
  | .node name => .node (rename name)
  | .head name => .head (rename name)
  | other => other

/-- A node of a fragment under its producer. -/
def joinFragment (rename : Text → Text) (planner : Option Text) (node : GraphNode) : GraphNode :=
  let dependsOn := node.dependsOn.map rename
  { node with
    id := rename node.id
    -- a planner's fragment consumes its plan
    dependsOn := if dependsOn.isEmpty then dependsOn ++ planner.toList else dependsOn
    afterExpansion := node.afterExpansion.map rename
    compositeMembers := node.compositeMembers.map rename
    composite := node.composite.map fun composite =>
      { composite with exports := composite.exports.map fun item =>
          { item with node := rename item.node } }
    inputs := node.inputs.map fun input => { input with node := rename input.node }
    source := node.source.map (SourceBinding.rename rename)
    onFail := node.onFail.map rename
    round := none }

/-- A leaf of a fragment without routes takes the senior pool. -/
def defaultLeafRoute (node : GraphNode) : GraphNode :=
  if node.composite.isNone && node.loopBody.isNone &&
      (node.kind.isNone || node.kind == some .task || node.kind == some .synthesise) then
    { node with toBodyNode := defaultRoute node.toBodyNode }
  else node

/-- The node that a source names. -/
def SourceBinding.node? : SourceBinding → Option Text
  | .node name | .head name => some name
  | .commit _ | .integration => none

/-- Every source that names a node names one of the document. -/
def sourcesLocal (nodes : List GraphNode) : Bool :=
  nodes.all fun node => (node.source.bind (·.node?)).all (ids nodes).contains

/-- What the plan validation makes of a local document: it refuses, or orders the nodes. A source
that names a node names a dependency, or a writer upstream, so that the document has it. -/
structure FragmentChecks where
  deep : Nat → Bool
  order : List GraphNode → Option (List GraphNode)
  perm : ∀ nodes ordered, order nodes = some ordered → ordered.Perm nodes
  sourced : ∀ nodes ordered, order nodes = some ordered → sourcesLocal nodes = true

/-- Checks that keep every fragment as it is, if its sources are its own. -/
def acceptAll : FragmentChecks where
  deep := fun _ => false
  order := fun nodes => if sourcesLocal nodes then some nodes else none
  perm := by
    intro nodes ordered h
    obtain ⟨-, same⟩ := Option.ite_none_right_eq_some.1 h
    cases same
    exact .refl _
  sourced := fun _ _ h => (Option.ite_none_right_eq_some.1 h).1

/-- A fragment expanded and checked as a document of its own. -/
def localNodes (checks : FragmentChecks) (document : GraphDocument) (planner : Bool)
    (nodes : List AuthoredNode) : Option (List GraphNode) :=
  let external := externalNames planner document nodes
  (flattenDocument checks.deep (nodes ++ external.map stub)).bind fun flat =>
    (expandLoops { graphId := text "fragment", nodes := flat } []).bind fun expanded =>
      (checks.order (expanded.nodes.map defaultLeafRoute)).map fun ordered =>
        ordered.filter fun node => !external.contains node.id

/-- `flatten_fragment`: the expanded nodes of a fragment are named under their producer. -/
def flattenFragment (checks : FragmentChecks) (document : GraphDocument) (producer : Text)
    (planner : Bool) (nodes : List AuthoredNode) : Option (List GraphNode) :=
  (localNodes checks document planner nodes).map fun own =>
    own.map (joinFragment
      (fragmentName document producer (externalNames planner document nodes) (ids own))
      (if planner then some producer else none))

/-- A compiled node of a final patch. -/
structure Compiled where
  node : AuthoredNode
  /-- The node is an instance of a host template, without overrides of its authority. -/
  trusted : Bool

/-- What a final result contributes: nodes, and replacements of unstarted leaves. -/
structure FinalPatch where
  nodes : List Compiled
  replaced : List BodyNode
  skipped : List Text
  reason : Option Text

/-- The nodes of a patch, prepared under the plan specification of the producer if it has one. -/
def prepareAll (producer : BodyNode) (branch : Option Text) (patch : FinalPatch) :
    Except Text (List AuthoredNode) :=
  match producer.plan with
  | none => .ok (patch.nodes.map (·.node))
  | some spec =>
    patch.nodes.mapM fun compiled =>
      prepareNested producer spec branch compiled.trusted false compiled.node

/-- A replacement without parents keeps those of the node that it replaces. -/
def keepParents (document : GraphDocument) (replacement : BodyNode) : GraphNode :=
  { toBodyNode := { replacement with
      dependsOn := if replacement.dependsOn.isEmpty then
        ((document.nodes.find? fun node => node.id == replacement.id).map (·.dependsOn)).getD []
        else replacement.dependsOn } }

/-- The replacements of a patch, prepared as nodes that no template vouches for. -/
def prepareReplaced (producer : BodyNode) (document : GraphDocument) (patch : FinalPatch) :
    Except Text (List GraphNode) :=
  match producer.plan with
  | none => .ok (patch.replaced.map (keepParents document))
  | some spec =>
    patch.replaced.mapM fun replacement =>
      (prepareNested producer spec document.integrationBranch false false (.leaf replacement)).map
        fun prepared => keepParents document prepared.fields

/-- `prepare` of a final patch: the addition that the result of the producer contributes. The
document is the expanded one. -/
def finalFragment (checks : FragmentChecks) (document : GraphDocument) (producer : GraphNode)
    (generation : Option Nat) (patch : FinalPatch) : Option Addition :=
  ((prepareAll producer.toBodyNode document.integrationBranch patch).toOption.bind fun nodes =>
    (if nodes.isEmpty then some [] else
      flattenFragment checks document producer.id producer.plan.isSome nodes)).bind fun nodes =>
    (prepareReplaced producer.toBodyNode document patch).toOption.bind fun replaced =>
      if nodes.any fun node => (ids document.nodes).contains node.id then none
      else some {
        source := producer.id
        nodes
        patch := some {
          parent := some producer.id, reason := patch.reason, skipped := patch.skipped, replaced }
        finalResult := true
        retryGeneration := generation }

end Provenant.Graph

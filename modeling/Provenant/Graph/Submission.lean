import Provenant.Graph.AttemptIdentity
import Provenant.Graph.Fragment
import Provenant.Graph.LoopGrowth
import Provenant.Data.Topological

/-!
# Submission of patches

Nodes join a running graph, and unstarted nodes are edited, by patches. A patch is compiled and
checked against the graph as it is, written to the journal and only then committed. It may carry a
key: a patch whose key is already on record is answered from the record.

## Main definitions

* `Patch`, `PatchContext` — a patch, and what it is compiled and checked with.
* `LiveGraph` — a checkpoint with the keys, digests and revisions of its patches.
* `prepare` — all checks of a patch, without a change of the graph.
* `admitPatch` — the submission, a computation that may fail after any of its effects.

## Main results

* `admitPatch_outcome` — what a submission can come to.
* `admitPatch_recorded` — a key on record is answered from the record.
* `Outcome.row_of_started`, `Outcome.node_of_started` — an admitted patch leaves the rows of started
  nodes alone, and their planned nodes but for what these wait for.
* `submission_atomic` — a submission is atomic and idempotent.
* `Step.of_prepareFresh` — an admitted patch is a step of the driver.
* `unreadable_not_conflict` — a patch that cannot be read is invalid, whatever its key; and what
  planned nodes wait for does change.

## Implementation notes

The compilation of templates, the flattening of fragments, the validation of graphs and the digest
are parameters (`PatchContext`): what is proved holds for each of them. The stamps of a patch, which
only its submission reads, stand beside the expansions of the checkpoint.
-/

namespace Provenant.Graph

open List Option

open Json (Text text Value)
open Fallible

/-! ### Patches -/

/-- Nodes, inline templates and edits of unstarted nodes. Nodes and replacements are still JSON;
they are compiled when the patch is prepared. -/
structure Patch where
  schemaVersion : Nat := 1
  /-- The revision that the author saw. -/
  expectedRevision : Option Nat := none
  idempotencyKey : Option Text := none
  reason : Option Text := none
  templates : List (Text × Value) := []
  nodes : List Value := []
  /-- Unstarted nodes to skip. -/
  skip : List Text := []
  /-- Leaves, each replacing the unstarted leaf of its name. -/
  replace : List Value := []
  deriving DecidableEq

/-- The causes of a refusal. -/
inductive PatchCode
  | staleRevision | idempotencyConflict | cycle | conflict | started | editScope | secret | journal
  | invalid
  deriving DecidableEq

/-- The refusal of a patch. -/
structure PatchError where
  code : PatchCode
  message : Text
  cause : Option PlanFailureFact := none
  deriving DecidableEq

/-- A refusal of a patch that is not valid. -/
def PatchError.invalid (message : Text) : PatchError := { code := .invalid, message }

/-- What the record of a patch keeps for its submission. -/
structure PatchStamp where
  /-- The revision that the graph reached by the patch. -/
  revision : Nat
  digest : Text
  key : Option Text
  journaled : Bool := false
  deriving DecidableEq

/-- The limits that the budgets of a graph are counted from. -/
structure GraphLimits where
  nodes : Nat
  edges : Nat
  continuations : Nat

/-- What is left of the limits. -/
structure RemainingBudgets where
  nodes : Nat
  edges : Nat
  continuations : Nat
  deriving DecidableEq

/-- A running graph, with the stamps of the patches among its expansions. -/
structure LiveGraph where
  checkpoint : GraphCheckpoint
  stamps : List (Option PatchStamp)
  remaining : Option RemainingBudgets := none
  stamped : stamps.length = checkpoint.expansions.length
  deriving DecidableEq

/-- `revision`: one for each admitted expansion. -/
def LiveGraph.revision (graph : LiveGraph) : Nat := graph.checkpoint.expansions.length

/-- The first record under a key. -/
def LiveGraph.recorded (graph : LiveGraph) (key : Option Text) : Option PatchStamp :=
  (graph.stamps.filterMap id).find? fun stamp => stamp.key == key

/-- What a patch is compiled and checked with: functions of other modules. All that is assumed is
that a validated plan is one of its document, and that expansions take room. -/
structure PatchContext where
  /-- The canonical digest of a patch. -/
  digest : Patch → Except Text Text
  /-- Refuses text that matches a secret pattern. -/
  scan : Patch → Except Text Unit
  /-- Compiles a node under the templates of the patch and of the parent. -/
  compile : Option GraphNode → Patch → Value → Except PatchError AuthoredNode
  /-- Compiles a replacement in the same way. -/
  compileReplacement : Option GraphNode → Patch → Value → Except PatchError GraphNode
  /-- The templates of the patch and of the parent can be used together. -/
  checkTemplates : Option GraphNode → Patch → Except PatchError Unit
  /-- Compiles a first submission into the nodes of its document. -/
  compileDocument : Patch → Except PatchError (List GraphNode)
  /-- Validates the nodes of a new document within its limits. -/
  admitDocument : List GraphNode → Except PatchError Unit
  /-- Expands and names the nodes of a fragment. -/
  flatten : Option GraphNode → GraphDocument → List AuthoredNode → Except Text (List GraphNode)
  /-- The node was compiled from the template of planners. -/
  planTemplate : GraphNode → Bool
  validateSchema : GraphDocument → Except Text Unit
  validateFlatPlan : GraphDocument → Except Text PlannedGraph
  planned : ∀ document plan, validateFlatPlan document = .ok plan → Plans document plan
  validateOutputKinds : GraphDocument → Except Text Unit
  structuralLimit : GraphDocument → PlannedGraph → Option (PlanFailureFact × Text)
  /-- The most bytes that the stored graph may come to. -/
  envelopeBound : List Expansion → List Extension → PlannedGraph → Nat
  /-- Every expansion takes room. -/
  envelope : ∀ expansions extensions plan,
    expansions.length ≤ envelopeBound expansions extensions plan
  /-- Writes an admitted patch to the journal of the graph. -/
  journal : Option (PatchStamp → Addition → Except Text Unit) := none
  limits : GraphLimits

/-! ### Checks -/

def patchSchemaVersion : Nat := 1

def keyBytes : Nat := 128

def reasonBytes : Nat := 512

/-- A key has 1 to 128 bytes, none of them zero. -/
def validKey (key : Text) : Bool := !key.isEmpty && key.length ≤ keyBytes && !key.contains 0

/-- `classify`: a dependency cycle has a code of its own. -/
def classify (reason : Text) : PatchError :=
  if reason.tails.any ((text "cycle").isPrefixOf ·) then
    { code := .cycle, message := text "patch would create a " ++ reason }
  else .invalid reason

/-- The answer to a key on record. -/
def replay (graph : LiveGraph) (digest : Text) (conflict : Text) (key : Option Text) :
    Except PatchError (Option Nat) :=
  match graph.recorded key with
  | none => .ok none
  | some stamp =>
    if stamp.digest = digest then .ok (some stamp.revision)
    else .error { code := .idempotencyConflict, message := conflict }

/-- The key of a patch is valid, and answered if it is on record. -/
def checkKey (graph : LiveGraph) (digest : Text) : Option Text → Except PatchError (Option Nat)
  | none => .ok none
  | some key =>
    if validKey key then
      replay graph digest (text "idempotency key " ++ key ++ text " was used for a different patch")
        (some key)
    else .error (.invalid (text "idempotency key must be 1..=128 bytes"))

/-- The patch was written for this revision, says something and has no secret. -/
def checkPatch (context : PatchContext) (graph : LiveGraph) (patch : Patch) :
    Except PatchError Unit := do
  if let some expected := patch.expectedRevision then
    if expected ≠ graph.revision then
      throw {
        code := .staleRevision
        message := text "patch expects revision " ++ Json.decimal expected ++
          text ", but the graph is at revision " ++ Json.decimal graph.revision }
  if patch.reason.any fun reason => reason.length > reasonBytes then
    throw (.invalid (text "patch reason exceeds 512 bytes"))
  if patch.nodes.isEmpty && patch.skip.isEmpty && patch.replace.isEmpty then
    throw (.invalid (text "patch adds, skips and replaces nothing"))
  (context.scan patch).mapError fun reason => { code := .secret, message := reason }

/-! ### Nodes -/

/-- A text among the members of a raw node. -/
def rawText (name : String) (raw : Value) : Option Text :=
  match Json.child raw (.key (text name)) with
  | some (.str value) => some value
  | _ => none

/-- Names in the order of their bytes. -/
def sortNames (names : List Text) : List Text :=
  names.mergeSort fun name other => !List.lex other name (· < ·)

/-- The name of a template instance in the graph. -/
def instanceName (parent : Option GraphNode) (id : Text) : Text :=
  match parent with
  | some parent => under parent.id ++ id
  | none => id

/-- The template that a raw node uses, with the nodes of the instance. -/
def templateUse (parent : Option GraphNode) (nodes : List GraphNode) (raw : Value)
    (node : AuthoredNode) : Option TemplateUse :=
  (rawText "use" raw).map fun name =>
    let id := instanceName parent node.fields.id
    { id, name, nodes := sortNames ((nodes.map (·.id)).filter fun child => inside id child) }

/-- The nodes that compiled nodes expand into. -/
def flattened (context : PatchContext) (expanded : GraphDocument) (parent : Option GraphNode)
    (compiled : List AuthoredNode) : Except PatchError (List GraphNode) :=
  if compiled.isEmpty then .ok [] else (context.flatten parent expanded compiled).mapError classify

/-- The nodes that a patch adds, and the templates that they use. -/
def addedNodes (context : PatchContext) (expanded : GraphDocument) (parent : Option GraphNode)
    (patch : Patch) : Except PatchError (List GraphNode × List TemplateUse) := do
  context.checkTemplates parent patch
  let compiled ← patch.nodes.mapM (context.compile parent patch)
  let nodes ← flattened context expanded parent compiled
  match nodes.find? fun node => (ids expanded.nodes).contains node.id with
  | some node =>
    throw { code := .conflict, message := text "node " ++ node.id ++ text " already exists" }
  | none =>
    return (nodes, (patch.nodes.zip compiled).filterMap fun (raw, node) =>
      templateUse parent nodes raw node)

/-! ### Edits -/

/-- A lane may edit only its own subtree; planners and the host may edit the whole graph. -/
def mayEdit (context : PatchContext) (parent : Option GraphNode) (id : Text) : Bool :=
  match parent with
  | none => true
  | some parent =>
    parent.plan.isSome || context.planTemplate parent || id == parent.id || inside parent.id id

/-- The node is in the scope of the patch and has not started. -/
def checkUnstarted (context : PatchContext) (checkpoint : GraphCheckpoint)
    (parent : Option GraphNode) (id : Text) : Except PatchError Unit :=
  if mayEdit context parent id then
    match checkpoint.row? id with
    | none => .error (.invalid (text "unknown node " ++ id))
    | some row =>
      if row.state != .pending || !row.attempts.isEmpty then
        .error {
          code := .started
          message := text "node " ++ id ++ text " has started; started attempts are immutable" }
      else .ok ()
  else
    .error {
      code := .editScope
      message := text "node " ++ id ++ text ": a lane may edit only its own subtree" }

/-- The node is edited for the first time. -/
def checkEdit (context : PatchContext) (checkpoint : GraphCheckpoint) (parent : Option GraphNode)
    (edited : List Text) (id : Text) : Except PatchError (List Text) := do
  checkUnstarted context checkpoint parent id
  if edited.contains id then
    throw { code := .conflict, message := text "node " ++ id ++ text " is edited twice" }
  return id :: edited

/-- The replacement of a redo: the same node, but for its brief. -/
def sameRetry (retry : Option Text) (node target : GraphNode) : Bool :=
  retry == some node.id &&
    decide ({ node with
      prompt := target.prompt
      round := target.round
      afterExpansion := target.afterExpansion
      compositeMembers := target.compositeMembers } = target) &&
    ((target.composite.isNone && target.loopBody.isNone) || node.prompt == target.prompt)

/-- A replacement that may take the place of its target. -/
def replacement (expanded : GraphDocument) (retry : Option Text) (node : GraphNode) :
    Except PatchError GraphNode :=
  match expanded.nodes.find? fun target => target.id == node.id with
  | none => .error (.invalid (text "unknown node " ++ node.id))
  | some target =>
    if (structural target || structural node) && !sameRetry retry node target then
      .error {
        code := .conflict
        message := text "node " ++ node.id ++
          text ": replace swaps one unstarted leaf for another" }
    else
      .ok { node with
        dependsOn := if node.dependsOn.isEmpty then target.dependsOn else node.dependsOn }

/-- The replacements of a patch, one after the other. -/
def replacements (context : PatchContext) (expanded : GraphDocument) (checkpoint : GraphCheckpoint)
    (parent : Option GraphNode) (patch : Patch) (retry : Option Text) (edited : List Text) :
    List Value → Except PatchError (List GraphNode)
  | [] => .ok []
  | raw :: rest => do
    let node ← context.compileReplacement parent patch raw
    let edited ← checkEdit context checkpoint parent edited node.id
    let first ← replacement expanded retry node
    let others ← replacements context expanded checkpoint parent patch retry edited rest
    return first :: others

/-! ### The graph with the patch -/

/-- The writers of a loop share one worktree. -/
def loopWriters (seen : List (Text × Option Text)) : List GraphNode → Bool
  | [] => true
  | node :: rest =>
    match node.round with
    | some round =>
      if node.access = .worktreeWrite then
        (seen.lookup round.loopId).all (· == node.worktree) &&
          loopWriters ((round.loopId, node.worktree) :: seen) rest
      else loopWriters seen rest
    | none => loopWriters seen rest

/-- The text of a limit on the stored graph. -/
def envelopeLimit (bound : Nat) : Text :=
  text "graph checkpoint could reach " ++ Json.decimal bound ++ text " bytes, over its " ++
    Json.decimal maxCheckpointBytes ++ text "-byte limit; split the graph into smaller batches, " ++
    text "or use fewer nodes, routes, loop rounds or extensions, or smaller prompts"

/-- The plan of the graph with an addition, if it is a valid graph within its limits. -/
def checkPreview (context : PatchContext) (checkpoint : GraphCheckpoint) (addition : Addition)
    (preview : GraphDocument) : Except PatchError PlannedGraph := do
  if !loopWriters [] preview.nodes then
    throw { code := .conflict, message := text "loop writers must share one worktree" }
  (context.validateSchema preview).mapError .invalid
  let plan ← (context.validateFlatPlan preview).mapError classify
  (context.validateOutputKinds preview).mapError .invalid
  if let some (limit, message) := context.structuralLimit preview plan then
    throw { code := .invalid, message, cause := some limit }
  let bound := context.envelopeBound (checkpoint.expansions ++ [.live addition])
    checkpoint.extensions plan
  if bound > maxCheckpointBytes then
    throw { code := .invalid, message := envelopeLimit bound, cause := some (.envelope bound) }
  return plan

/-! ### Preparation -/

/-- A patch that is ready to be committed. -/
structure Admission where
  addition : Addition
  stamp : PatchStamp
  preview : GraphDocument
  plan : PlannedGraph

/-- The outcome of the preparation. -/
inductive Prepared
  | replayed (revision : Nat)
  | ready (admission : Admission)

/-- A patch that is not on record, compiled and checked against the graph. -/
def prepareFresh (context : PatchContext) (expanded : GraphDocument) (graph : LiveGraph)
    (parent : Option GraphNode) (patch : Patch) (retry : Option Text) (digest : Text) :
    Except PatchError Admission := do
  checkPatch context graph patch
  let (nodes, uses) ← addedNodes context expanded parent patch
  let edited ← patch.skip.foldlM (checkEdit context graph.checkpoint parent) []
  let replaced ←
    replacements context expanded graph.checkpoint parent patch retry edited patch.replace
  let addition : Addition := {
    source := (parent.map (·.id)).getD []
    nodes, uses
    patch := some {
      parent := parent.map (·.id), reason := patch.reason, skipped := patch.skip, replaced } }
  let preview := append expanded addition
  let plan ← checkPreview context graph.checkpoint addition preview
  return {
    addition, preview, plan
    stamp := { revision := graph.revision + 1, digest, key := patch.idempotencyKey } }

/-- `prepare`: a patch is answered from the record, or compiled and checked against the graph. -/
def prepare (context : PatchContext) (expanded : GraphDocument) (graph : LiveGraph)
    (parent : Option GraphNode) (patch : Patch) (retry : Option Text) :
    Except PatchError Prepared := do
  if patch.schemaVersion ≠ patchSchemaVersion then
    throw (.invalid (text "patch requires schema_version 1"))
  let digest ← (context.digest patch).mapError fun reason =>
    .invalid (text "patch is not canonical: " ++ reason)
  match ← checkKey graph digest patch.idempotencyKey with
  | some revision => return .replayed revision
  | none => return .ready (← prepareFresh context expanded graph parent patch retry digest)

/-! ### The first submission -/

/-- `submit`: a patch compiled into the nodes of a new graph. -/
def submit (context : PatchContext) (patch : Patch) : Except PatchError (List GraphNode) := do
  if patch.schemaVersion ≠ patchSchemaVersion then
    throw (.invalid (text "patch requires schema_version 1"))
  if patch.idempotencyKey.any fun key => !validKey key then
    throw (.invalid (text "idempotency key must be 1..=128 bytes"))
  if patch.reason.any fun reason => reason.length > reasonBytes then
    throw (.invalid (text "patch reason exceeds 512 bytes"))
  if patch.expectedRevision.any (· != 0) then
    throw { code := .staleRevision, message := text "a new graph is at revision 0" }
  if !patch.skip.isEmpty || !patch.replace.isEmpty then
    throw {
      code := .conflict, message := text "a new graph has no nodes to skip or replace" }
  (context.scan patch).mapError fun reason => { code := .secret, message := reason }
  let nodes ← context.compileDocument patch
  if nodes.isEmpty then
    throw (.invalid (text "patch adds no nodes"))
  context.admitDocument nodes
  return nodes

/-- The template instances of a first submission. -/
def submittedUses (checkpoint : GraphCheckpoint) (patch : Patch) : List TemplateUse :=
  patch.nodes.filterMap fun raw =>
    (rawText "id" raw).bind fun id => (rawText "use" raw).map fun name =>
      { id, name
        nodes := (checkpoint.nodes.map (·.id)).filter fun row => row == id || inside id row }

/-- The record of a first submission, which adds and edits nothing. -/
def submissionAddition (uses : List TemplateUse) (reason : Option Text) : Addition :=
  { source := []
    nodes := []
    uses
    patch := some { parent := none, reason, skipped := [], replaced := [] } }

/-- The first submission of a document, which carries it: its nodes are those of the document. -/
def prepareSubmission (context : PatchContext) (document : GraphDocument) (graph : LiveGraph)
    (patch : Patch) : Except PatchError (Nat ⊕ (Addition × PatchStamp)) := do
  let digest ← (context.digest patch).mapError fun reason =>
    .invalid (text "patch is not canonical: " ++ reason)
  match ← replay graph digest (text "submission key changed") patch.idempotencyKey with
  | some revision => return .inl revision
  | none =>
    if graph.revision ≠ 0 || graph.checkpoint.nodes.any fun row =>
        row.state != .pending || !row.attempts.isEmpty then
      throw { code := .started, message := text "initial submission must precede launch" }
    let nodes ← submit context patch
    if nodes ≠ document.nodes then
      throw (.invalid (text "submission differs from bound nodes"))
    return .inr (submissionAddition (submittedUses graph.checkpoint patch) patch.reason,
      { revision := 1, digest, key := patch.idempotencyKey })

/-! ### Commit -/

/-- `continuation_count`. -/
def continuationCount (checkpoint : GraphCheckpoint) : Nat :=
  (liveAdditions checkpoint.expansions).countP fun addition =>
    addition.continuation || addition.patch.any fun record =>
      record.replaced.any fun node => record.reason == some (noWorkReason node.id)

/-- `remaining`: graphs that neither plan nor write keep their budgets unrecorded. -/
def remainingBudgets (limits : GraphLimits) (checkpoint : GraphCheckpoint)
    (document : GraphDocument) (recorded : Option RemainingBudgets) : Option RemainingBudgets :=
  if document.nodes.any fun node => node.plan.isSome || node.access == .worktreeWrite then
    some {
      nodes := limits.nodes - document.nodes.length
      edges := limits.edges - (document.nodes.map fun node => node.dependencies.length).sum
      continuations := limits.continuations - continuationCount checkpoint }
  else recorded

/-- The expansion is recorded, and nothing else changes. -/
def LiveGraph.push (graph : LiveGraph) (addition : Addition) (stamp : PatchStamp) : LiveGraph :=
  { graph with
    checkpoint := { graph.checkpoint with
      expansions := graph.checkpoint.expansions ++ [.live addition] }
    stamps := graph.stamps ++ [some stamp]
    stamped := by simp [graph.stamped] }

/-- `commit`. -/
def LiveGraph.commit (graph : LiveGraph) (limits : GraphLimits) (admission : Admission) :
    LiveGraph :=
  let checkpoint := Graph.commit graph.checkpoint admission.addition admission.plan
  { checkpoint
    stamps := graph.stamps ++ [some admission.stamp]
    remaining := remainingBudgets limits checkpoint admission.preview graph.remaining
    stamped := by simp [checkpoint, Graph.commit, reconcile, graph.stamped] }

/-! ### Submission -/

/-- The answer to an admitted patch. -/
structure Admitted where
  revision : Nat
  /-- The key was on record, and nothing changed. -/
  replayed : Bool
  added : List Text
  deriving DecidableEq

/-- Computations that change the graph. One that fails keeps what it has done so far. -/
abbrev Submitting := ExceptT PatchError (StateM LiveGraph)

/-- A check within a submission. -/
def Submitting.check {α : Type} (result : Except PatchError α) : Submitting α :=
  ExceptT.mk (pure result)

/-- The patch is written to the journal, if there is one. -/
def journalPatch (context : PatchContext) (addition : Addition) (stamp : PatchStamp) :
    Except PatchError PatchStamp :=
  match context.journal with
  | none => .ok stamp
  | some write =>
    ((write stamp addition).mapError fun reason => { code := .journal, message := reason }).map
      fun _ => { stamp with journaled := true }

/-- The first submission is recorded. -/
def admitSubmission (context : PatchContext) (document : GraphDocument) (patch : Patch) :
    Submitting Admitted := do
  let graph ← get
  match ← Submitting.check (prepareSubmission context document graph patch) with
  | .inl revision => return { revision, replayed := true, added := [] }
  | .inr (addition, stamp) =>
    let stamp ← Submitting.check (journalPatch context addition stamp)
    modify fun graph => graph.push addition stamp
    return { revision := 1, replayed := false, added := graph.checkpoint.nodes.map (·.id) }

/-- The node on whose behalf a patch is submitted. -/
def findParent (plan : PlannedGraph) : Option Text → Except PatchError (Option GraphNode)
  | none => .ok none
  | some id =>
    match plan.node? id with
    | some node => .ok (some node)
    | none => .error (.invalid (text "unknown parent node " ++ id))

lemma map_id_of_findParent {plan : PlannedGraph} {parent : Option Text}
    {producer : Option GraphNode} (found : findParent plan parent = .ok producer) :
    producer.map (·.id) = parent := by
  unfold findParent at found
  split at found
  · cases found
    rfl
  · split at found
    next node lookup =>
      cases found
      rw [map_some, PlannedGraph.id_of_node? lookup]
    · cases found

/-- The graph as it is, with its plan. -/
def currentPlan (context : PatchContext) (document : GraphDocument) (checkpoint : GraphCheckpoint) :
    Except PatchError (GraphDocument × PlannedGraph) :=
  match expand document checkpoint.extensions checkpoint.expansions with
  | none => .error (.invalid (text "invalid expansion source"))
  | some expanded =>
    ((context.validateFlatPlan expanded).mapError .invalid).map fun plan => (expanded, plan)

/-- `admit_patch`: a patch is admitted on behalf of a node, or of the host. A document that was
submitted as a patch carries it. -/
def admitPatch (context : PatchContext) (document : GraphDocument) (submission : Option Patch)
    (parent : Option Text) (patch : Patch) : Submitting Admitted := do
  if parent.isNone && submission == some patch then
    admitSubmission context document patch
  else
    let graph ← get
    let (expanded, plan) ← Submitting.check (currentPlan context document graph.checkpoint)
    let parent ← Submitting.check (findParent plan parent)
    match ← Submitting.check (prepare context expanded graph parent patch none) with
    | .replayed revision => return { revision, replayed := true, added := [] }
    | .ready admission =>
      let stamp ← Submitting.check (journalPatch context admission.addition admission.stamp)
      modify fun graph => graph.commit context.limits { admission with stamp }
      return {
        revision := graph.revision + 1
        replayed := false
        added := admission.addition.nodes.map (·.id) }

/-! ### What a submission can do -/

namespace Submitting

variable {α β : Type}

/-- The result of a computation, and the graph that it leaves. -/
def result (program : Submitting α) (graph : LiveGraph) : Except PatchError α × LiveGraph :=
  program.run.run graph

@[simp] lemma result_get_bind (f : LiveGraph → Submitting α) (graph : LiveGraph) :
    ((get : Submitting LiveGraph) >>= f).result graph = (f graph).result graph := rfl

@[simp] lemma result_check_ok (a : α) (f : α → Submitting β) (graph : LiveGraph) :
    (check (.ok a) >>= f).result graph = (f a).result graph := rfl

end Submitting

open Submitting

/-- What a submission can come to. -/
inductive Outcome (context : PatchContext) (document : GraphDocument) (submission : Option Patch)
    (parent : Option Text) (patch : Patch) (graph : LiveGraph) :
    Except PatchError Admitted × LiveGraph → Prop
  | refused (e : PatchError) : Outcome context document submission parent patch graph (.error e, graph)
  | replayed {stamp : PatchStamp} (recorded : graph.recorded patch.idempotencyKey = some stamp)
      (digest : context.digest patch = .ok stamp.digest) :
      Outcome context document submission parent patch graph
        (.ok { revision := stamp.revision, replayed := true, added := [] }, graph)
  | submitted {uses : List TemplateUse} {stamp : PatchStamp} (host : parent = none)
      (first : graph.revision = 0)
      (unrecorded : patch.idempotencyKey.isSome = true →
        graph.recorded patch.idempotencyKey = none) :
      Outcome context document submission parent patch graph
        (.ok { revision := 1, replayed := false, added := graph.checkpoint.nodes.map (·.id) },
          graph.push (submissionAddition uses patch.reason) stamp)
  | committed {expanded : GraphDocument} {plan : PlannedGraph} {producer : Option GraphNode}
      {digest : Text} {admission : Admission} {stamp : PatchStamp}
      (current : currentPlan context document graph.checkpoint = .ok (expanded, plan))
      (found : findParent plan parent = .ok producer)
      (unrecorded : patch.idempotencyKey.isSome = true → graph.recorded patch.idempotencyKey = none)
      (prepared : prepareFresh context expanded graph producer patch none digest = .ok admission) :
      Outcome context document submission parent patch graph
        (.ok {
            revision := graph.revision + 1
            replayed := false
            added := admission.addition.nodes.map (·.id) },
          graph.commit context.limits { admission with stamp })

variable {context : PatchContext} {document : GraphDocument} {submission : Option Patch}
  {parent : Option Text} {patch : Patch} {graph : LiveGraph}

variable {digest conflict id : Text} {key : Option Text} {expanded : GraphDocument}
  {producer : Option GraphNode} {next : LiveGraph} {stamp : PatchStamp} {plan : PlannedGraph}
  {node : GraphNode} {checkpoint : GraphCheckpoint} {edited : List Text} {nodes : List GraphNode}
  {addition : Addition} {admission : Admission} {row : NodeProgress}

/-- What the answer to a key says: it is on record for the same patch, or it is not on record. -/
def Answers (graph : LiveGraph) (digest : Text) (key : Option Text) : Option Nat → Prop
  | some revision => ∃ stamp, graph.recorded key = some stamp ∧ stamp.digest = digest ∧
      stamp.revision = revision
  | none => key.isSome = true → graph.recorded key = none

lemma answers_replay {answer : Option Nat}
    (answered : replay graph digest conflict key = .ok answer) :
    Answers graph digest key answer := by
  unfold replay at answered
  split at answered
  next unrecorded =>
    cases answered
    exact fun _ => unrecorded
  next stamp found =>
    split at answered
    next same =>
      cases answered
      exact ⟨stamp, found, same, rfl⟩
    · cases answered

/-- The same for the key of a patch. -/
lemma answers_checkKey {answer : Option Nat} (answered : checkKey graph digest key = .ok answer) :
    Answers graph digest key answer := by
  unfold checkKey at answered
  split at answered
  · cases answered
    exact nofun
  · split at answered
    · exact answers_replay answered
    · cases answered

/-- What the preparation of a patch comes to. -/
lemma prepare_eq_ok {retry : Option Text} {prepared : Prepared}
    (result : prepare context expanded graph producer patch retry = .ok prepared) :
    ∃ digest answer, context.digest patch = .ok digest ∧
      Answers graph digest patch.idempotencyKey answer ∧
      match answer with
      | some revision => prepared = .replayed revision
      | none => ∃ admission, prepared = .ready admission ∧
          prepareFresh context expanded graph producer patch retry digest = .ok admission := by
  unfold prepare at result
  split at result
  · cases result
  obtain ⟨digest, digested, result⟩ := bind_eq_ok.1 result
  obtain ⟨answer, answered, result⟩ := bind_eq_ok.1 result
  refine ⟨digest, answer, mapError_eq_ok.1 digested, answers_checkKey answered, ?_⟩
  cases answer with
  | some _ =>
    cases result
    rfl
  | none =>
    obtain ⟨admission, fresh, result⟩ := bind_eq_ok.1 result
    cases result
    exact ⟨admission, rfl, fresh⟩

/-- What the preparation of a first submission comes to. -/
lemma prepareSubmission_eq_ok {prepared : Nat ⊕ (Addition × PatchStamp)}
    (result : prepareSubmission context document graph patch = .ok prepared) :
    ∃ digest answer, context.digest patch = .ok digest ∧
      Answers graph digest patch.idempotencyKey answer ∧
      match answer with
      | some revision => prepared = .inl revision
      | none => graph.revision = 0 ∧ ∃ uses stamp,
          prepared = .inr (submissionAddition uses patch.reason, stamp) := by
  obtain ⟨digest, digested, result⟩ := bind_eq_ok.1 result
  obtain ⟨answer, answered, result⟩ := bind_eq_ok.1 result
  refine ⟨digest, answer, mapError_eq_ok.1 digested, answers_replay answered, ?_⟩
  cases answer with
  | some _ =>
    cases result
    rfl
  | none =>
    dsimp only at result ⊢
    split at result
    · cases result
    next first =>
      obtain ⟨nodes, -, result⟩ := bind_eq_ok.1 result
      split at result
      · cases result
      · cases result
        exact ⟨by simp at first; exact first.1, _, _, rfl⟩

/-- The host's first submission comes to one of the outcomes. -/
lemma admitSubmission_outcome (host : parent = none) :
    Outcome context document submission parent patch graph
      ((admitSubmission context document patch).result graph) := by
  unfold admitSubmission
  rw [result_get_bind]
  cases prepared : prepareSubmission context document graph patch with
  | error e => exact .refused e
  | ok _ =>
    obtain ⟨digest, answer, digested, answered, shape⟩ := prepareSubmission_eq_ok prepared
    rw [result_check_ok]
    cases answer with
    | some _ =>
      obtain ⟨stamp, recorded, same, rfl⟩ := answered
      cases shape
      exact .replayed recorded (same ▸ digested)
    | none =>
      obtain ⟨first, uses, stamp, rfl⟩ := shape
      dsimp only
      cases journalPatch context (submissionAddition uses patch.reason) stamp with
      | error e => exact .refused e
      | ok _ => exact .submitted host first answered

/-- Every submission comes to one of the outcomes. -/
theorem admitPatch_outcome :
    Outcome context document submission parent patch graph
      ((admitPatch context document submission parent patch).result graph) := by
  unfold admitPatch
  split
  next submits =>
    have host : parent = none := by simp at submits; exact submits.1
    exact admitSubmission_outcome host
  · rw [result_get_bind]
    cases current : currentPlan context document graph.checkpoint with
    | error e => exact .refused e
    | ok current' =>
      obtain ⟨expanded, plan⟩ := current'
      rw [result_check_ok]
      dsimp only
      cases found : findParent plan parent with
      | error e => exact .refused e
      | ok producer =>
        rw [result_check_ok]
        cases prepared : prepare context expanded graph producer patch none with
        | error e => exact .refused e
        | ok _ =>
          obtain ⟨_, answer, digested, answered, shape⟩ := prepare_eq_ok prepared
          rw [result_check_ok]
          cases answer with
          | some _ =>
            obtain ⟨stamp, recorded, same, rfl⟩ := answered
            cases shape
            exact .replayed recorded (same ▸ digested)
          | none =>
            obtain ⟨admission, rfl, fresh⟩ := shape
            dsimp only
            cases journalPatch context admission.addition admission.stamp with
            | error e => exact .refused e
            | ok _ => exact .committed current found answered fresh

/-! ### Keys on record -/

/-- A patch with a key that can be read: it has the current version, a valid key and canonical
content. -/
structure Patch.Readable (context : PatchContext) (patch : Patch) (key digest : Text) : Prop where
  version : patch.schemaVersion = patchSchemaVersion
  keyed : patch.idempotencyKey = some key
  valid : validKey key = true
  digest : context.digest patch = .ok digest

/-- A patch is submitted for a node of the graph, or for the host. -/
def KnownParent (context : PatchContext) (document : GraphDocument) (checkpoint : GraphCheckpoint)
    (parent : Option Text) : Prop :=
  ∃ expanded plan, currentPlan context document checkpoint = .ok (expanded, plan) ∧
    ∀ id ∈ parent, id ∈ ids plan.nodes

/-- The answer to a key on record. -/
lemma replay_recorded (recorded : graph.recorded key = some stamp) :
    replay graph digest conflict key =
      if stamp.digest = digest then .ok (some stamp.revision)
      else .error { code := .idempotencyConflict, message := conflict } := by
  rw [replay, recorded]

/-- The node of a known parent is found. -/
lemma findParent_of_mem (known : ∀ id ∈ parent, id ∈ ids plan.nodes) :
    ∃ producer, findParent plan parent = .ok producer := by
  cases parent with
  | none => exact ⟨none, rfl⟩
  | some id =>
    obtain ⟨node, member, rfl⟩ := List.mem_map.1 (known id rfl)
    exact ⟨some node, by rw [findParent, plan.node?_of_mem member]⟩

/-- A parent that is found is a node of the plan. -/
lemma mem_of_findParent (found : findParent plan parent = .ok (some node)) : node ∈ plan.nodes := by
  cases parent with
  | none => cases found
  | some id =>
    rw [findParent] at found
    cases lookup : plan.node? id with
    | none =>
      rw [lookup] at found
      cases found
    | some _ =>
      rw [lookup] at found
      cases found
      exact mem_of_find?_eq_some lookup

/-- **A key on record is answered from the record.** The graph stays as it is; the answer is the
recorded revision if the patch is the recorded one, and a conflict if not. -/
lemma admitPatch_recorded {key : Text} (readable : patch.Readable context key digest)
    (known : KnownParent context document graph.checkpoint parent)
    (recorded : graph.recorded (some key) = some stamp) :
    ∃ message, (admitPatch context document submission parent patch).result graph =
      (if stamp.digest = digest then
          .ok { revision := stamp.revision, replayed := true, added := [] }
        else .error { code := .idempotencyConflict, message }, graph) := by
  unfold admitPatch
  split
  · refine ⟨text "submission key changed", ?_⟩
    have prepared : prepareSubmission context document graph patch =
        if stamp.digest = digest then .ok (.inl stamp.revision)
        else .error { code := .idempotencyConflict, message := text "submission key changed" } := by
      unfold prepareSubmission
      rw [readable.digest, readable.keyed]
      simp only [Except.mapError, ok_bind, replay_recorded recorded]
      split <;> rfl
    unfold admitSubmission
    rw [result_get_bind, prepared]
    split <;> rfl
  · refine ⟨text "idempotency key " ++ key ++ text " was used for a different patch", ?_⟩
    obtain ⟨expanded, plan, current, member⟩ := known
    obtain ⟨producer, found⟩ := findParent_of_mem member
    have prepared : prepare context expanded graph producer patch none =
        if stamp.digest = digest then .ok (.replayed stamp.revision)
        else .error {
          code := .idempotencyConflict
          message := text "idempotency key " ++ key ++ text " was used for a different patch" } := by
      unfold prepare
      rw [if_neg (not_not.2 readable.version), readable.digest, readable.keyed]
      simp only [Except.mapError, ok_bind, checkKey, readable.valid, if_true,
        replay_recorded recorded]
      split <;> rfl
    rw [result_get_bind, current, result_check_ok]
    dsimp only
    rw [found, result_check_ok, prepared]
    split <;> rfl

/-! ### What the preparation checks -/

lemma unstarted_of_checkEdit {edited' : List Text}
    (checked : checkEdit context checkpoint producer edited id = .ok edited') :
    unstarted checkpoint id = true := by
  obtain ⟨_, checked, _⟩ := bind_eq_ok.1 checked
  unfold checkUnstarted at checked
  split at checked
  · cases found : checkpoint.row? id with
    | none =>
      rw [found] at checked
      cases checked
    | some row =>
      rw [found] at checked
      dsimp only at checked
      split at checked
      · cases checked
      next fresh =>
        simpa [unstarted, found] using fresh
  · cases checked

/-- All skipped nodes are unstarted. -/
lemma unstarted_of_skips {skips edited' : List Text}
    (checked : skips.foldlM (checkEdit context checkpoint producer) edited = .ok edited') :
    ∀ id ∈ skips, unstarted checkpoint id = true := by
  induction skips generalizing edited with
  | nil => simp
  | cons _ _ ih =>
    obtain ⟨next, now, later⟩ := bind_eq_ok.1 checked
    rintro id (_ | ⟨_, member⟩)
    · exact unstarted_of_checkEdit now
    · exact ih later id member

/-- A replacement that is accepted outside a redo swaps leaves. -/
lemma leaf_of_replacement {accepted : GraphNode}
    (replaced : replacement expanded none node = .ok accepted) :
    accepted.id = node.id ∧ structural accepted = false ∧
      ∃ target, (expanded.nodes.find? fun target => target.id == node.id) = some target ∧
        structural target = false := by
  unfold replacement at replaced
  split at replaced
  · cases replaced
  next target found =>
    split at replaced
    · cases replaced
    next leaves =>
      have leaves : structural target = false ∧ structural node = false := by
        simpa [sameRetry] using leaves
      cases replaced
      exact ⟨rfl, leaves.2, target, found, leaves.1⟩

/-- All replacements swap unstarted leaves. -/
lemma leaves_of_replacements {raws : List Value} {replaced : List GraphNode}
    (checked : replacements context expanded checkpoint producer patch none edited raws =
      .ok replaced) :
    ∀ node ∈ replaced, unstarted checkpoint node.id = true ∧ structural node = false ∧
      ∃ target, (expanded.nodes.find? fun target => target.id == node.id) = some target ∧
        structural target = false := by
  induction raws generalizing edited replaced with
  | nil =>
    cases checked
    simp
  | cons _ _ ih =>
    obtain ⟨node, -, checked⟩ := bind_eq_ok.1 checked
    obtain ⟨_, now, checked⟩ := bind_eq_ok.1 checked
    obtain ⟨first, accepted, checked⟩ := bind_eq_ok.1 checked
    obtain ⟨_, later, checked⟩ := bind_eq_ok.1 checked
    cases checked
    obtain ⟨same, leaf, target, found, targetLeaf⟩ := leaf_of_replacement accepted
    rintro node' (_ | ⟨_, member⟩)
    · rw [same]
      exact ⟨unstarted_of_checkEdit now, leaf, target, found, targetLeaf⟩
    · exact ih later node' member

/-- The nodes that a patch adds are new. -/
lemma fresh_of_addedNodes {uses : List TemplateUse}
    (added : addedNodes context expanded producer patch = .ok (nodes, uses)) :
    ∀ node ∈ nodes, node.id ∉ ids expanded.nodes := by
  obtain ⟨-, -, added⟩ := bind_eq_ok.1 added
  obtain ⟨_, -, added⟩ := bind_eq_ok.1 added
  obtain ⟨flat, -, added⟩ := bind_eq_ok.1 added
  split at added
  · cases added
  next absent =>
    cases added
    intro node member
    simpa using find?_eq_none.1 absent node member

/-- What the checks of the graph with the patch imply. -/
lemma plan_of_checkPreview {preview : GraphDocument}
    (checked : checkPreview context checkpoint addition preview = .ok plan) :
    Plans preview plan ∧ fitsEnvelope (checkpoint.expansions ++ [.live addition]) := by
  unfold checkPreview at checked
  split at checked
  · cases checked
  obtain ⟨-, -, checked⟩ := bind_eq_ok.1 checked
  obtain ⟨plan', planned, checked⟩ := bind_eq_ok.1 checked
  obtain ⟨-, -, checked⟩ := bind_eq_ok.1 checked
  split at checked
  · cases checked
  · dsimp only at checked
    split at checked
    · cases checked
    next fits =>
      cases checked
      exact ⟨context.planned _ _ (mapError_eq_ok.1 planned),
        (context.envelope _ _ _).trans (not_lt.1 fits)⟩

/-- What a prepared patch is like. -/
structure Fresh (expanded : GraphDocument) (graph : LiveGraph) (producer : Option GraphNode)
    (patch : Patch) (admission : Admission) : Prop where
  source : admission.addition.source = (producer.map (·.id)).getD []
  continuation : admission.addition.continuation = false
  live : admission.addition.closesProducer = false
  record : ∃ record, admission.addition.patch = some record ∧ record.skipped = patch.skip
  skipped : ∀ id ∈ patch.skip, unstarted graph.checkpoint id = true
  replaced : ∀ record ∈ admission.addition.patch, ∀ node ∈ record.replaced,
    unstarted graph.checkpoint node.id = true ∧ structural node = false ∧
      ∃ target, (expanded.nodes.find? fun target => target.id == node.id) = some target ∧
        structural target = false
  nodes : ∀ node ∈ admission.addition.nodes, node.id ∉ ids expanded.nodes
  preview : admission.preview = append expanded admission.addition
  plan : Plans admission.preview admission.plan
  envelope : fitsEnvelope (graph.checkpoint.expansions ++ [.live admission.addition])

lemma fresh_of_prepareFresh
    (prepared : prepareFresh context expanded graph producer patch none digest = .ok admission) :
    Fresh expanded graph producer patch admission := by
  obtain ⟨-, -, prepared⟩ := bind_eq_ok.1 prepared
  obtain ⟨⟨nodes, uses⟩, added, prepared⟩ := bind_eq_ok.1 prepared
  obtain ⟨_, skipped, prepared⟩ := bind_eq_ok.1 prepared
  obtain ⟨replaced, leaves, prepared⟩ := bind_eq_ok.1 prepared
  obtain ⟨plan, checked, prepared⟩ := bind_eq_ok.1 prepared
  obtain ⟨plans, envelope⟩ := plan_of_checkPreview checked
  cases prepared
  exact {
    source := rfl
    continuation := rfl
    live := rfl
    record := ⟨_, rfl, rfl⟩
    skipped := unstarted_of_skips skipped
    replaced := by
      rintro record ⟨⟩
      exact leaves_of_replacements leaves
    nodes := fresh_of_addedNodes added
    preview := rfl
    plan := plans
    envelope }

/-! ### Rows of started nodes -/

/-- A planned node after a patch of `parent` that added some nodes: if it depends on the parent it
waits for more, and if it has the name of a round of an added loop it is read as that round. -/
structure KeptNode (parent : Text) (added : List Text) (node node' : GraphNode) : Prop where
  same : node' = { node with afterExpansion := node'.afterExpansion, round := node'.round }
  waits : node'.afterExpansion = node.afterExpansion ∨
    parent ∈ node.dependencies ∧ node.afterExpansion <+: node'.afterExpansion
  round : node'.round = node.round ∨ ∃ id ∈ added, (parseRound id node.id).isSome = true

lemma KeptNode.refl (parent : Text) (added : List Text) (node : GraphNode) :
    KeptNode parent added node node :=
  ⟨rfl, .inl rfl, .inl rfl⟩

/-- The row of a node under a plan, if it has one already. -/
lemma KeptNode.alignRow {checkpoint' : GraphCheckpoint} {node' : GraphNode} {source : Text}
    {added : List Text} (kept : KeptNode source added node node')
    (rows : checkpoint'.nodes = checkpoint.nodes) (found : checkpoint.row? node.id = some row) :
    alignRow checkpoint' node' = alignRow checkpoint node := by
  have found' : checkpoint'.row? node.id = some row := by
    rw [GraphCheckpoint.row?, rows]
    exact found
  unfold Graph.alignRow
  rw [kept.same]
  dsimp only
  rw [found, found']

/-- A live patch only lets the consumers of its source wait for more. -/
lemma kept_joinAddition (source : Option GraphNode) (node : GraphNode) (added : List Text)
    (continuation : addition.continuation = false) (live : addition.closesProducer = false) :
    KeptNode addition.source added node (joinAddition source addition node) := by
  unfold joinAddition
  split
  next depends =>
    simp only [continuation, live, Bool.and_false, Bool.false_eq_true, if_false]
    exact ⟨rfl, .inr ⟨by simpa using depends, prefix_append _ _⟩, .inl rfl⟩
  · exact .refl _ _ node

lemma exists_restoreRound (boundary : GraphNode) (spec : LoopSpec) (node : GraphNode) :
    ∃ round, restoreRound boundary spec node = { node with round } ∧
      (round = node.round ∨ (parseRound boundary.id node.id).isSome = true) := by
  unfold restoreRound
  split
  · exact ⟨node.round, rfl, .inl rfl⟩
  next parsed =>
    split
    · exact ⟨node.round, rfl, .inl rfl⟩
    · exact ⟨_, rfl, .inr (by rw [parsed]; rfl)⟩

/-- A node is read as a round only if it has the name of one. -/
lemma exists_mem_restoreRounds (member : node ∈ nodes) : ∃ round,
    { node with round } ∈ restoreRounds addition nodes ∧ (round = node.round ∨
      ∃ id ∈ addition.nodes.map (·.id), (parseRound id node.id).isSome = true) := by
  unfold restoreRounds
  generalize addition.nodes = added
  induction added generalizing node nodes with
  | nil => exact ⟨node.round, member, .inl rfl⟩
  | cons boundary rest ih =>
    simp only [foldl_cons, map_cons, List.mem_cons, exists_eq_or_imp]
    cases boundary.loopBody with
    | none =>
      obtain ⟨round, placed, read⟩ := ih member
      exact ⟨round, placed, read.imp_right .inr⟩
    | some spec =>
      have mapped := List.mem_map_of_mem (f := restoreRound boundary spec) member
      obtain ⟨first, same, read⟩ := exists_restoreRound boundary spec node
      rw [same] at mapped
      obtain ⟨round, placed, later⟩ := ih mapped
      refine ⟨round, placed, ?_⟩
      rcases later with rfl | later
      · exact read.imp_right .inl
      · exact .inr (.inr later)

/-- A live patch keeps the nodes that it does not replace. -/
lemma exists_kept_append (continuation : addition.continuation = false)
    (live : addition.closesProducer = false) (member : node ∈ expanded.nodes)
    (kept : ∀ record ∈ addition.patch, ∀ replacement ∈ record.replaced, replacement.id ≠ node.id) :
    ∃ node' ∈ (append expanded addition).nodes,
      KeptNode addition.source (addition.nodes.map (·.id)) node node' := by
  unfold append
  generalize (expanded.nodes.find? fun node => node.id == addition.source) = source
  have joined := kept_joinAddition source node (addition.nodes.map (·.id)) continuation live
  have member' : joinAddition source addition node ∈
      expanded.nodes.map (joinAddition source addition) := List.mem_map_of_mem member
  cases record : addition.patch with
  | none => exact ⟨_, mem_append_left _ member', joined⟩
  | some edits =>
    have named : (joinAddition source addition node).id = node.id := by rw [joined.same]
    obtain ⟨round, placed, read⟩ := exists_mem_restoreRounds (mem_append_left _ member')
    simp only [foldl_replaceNode]
    refine ⟨_, List.mem_map_of_mem placed, ?_⟩
    rw [placed_of_not_mem]
    · refine ⟨?_, joined.waits, ?_⟩
      · rw [joined.same]
      · rw [named] at read
        rcases read with same | read
        · exact same ▸ joined.round
        · exact .inr read
    · simpa [ids, named] using kept edits record

/-- The node has an attempt or is settled. -/
def NodeProgress.started (row : NodeProgress) : Bool := !row.attempts.isEmpty || row.state.settled

/-- A started node may not be edited. -/
lemma not_unstarted (found : checkpoint.row? id = some row) (started : row.started = true) :
    unstarted checkpoint id = false := by
  rw [unstarted, found]
  cases state : row.state <;>
    simp [NodeProgress.started, state, NodeState.settled] at started ⊢
  exact started

/-- The row of a node that a commit does not skip. -/
lemma row?_commit (kept : ∀ record ∈ addition.patch, id ∉ record.skipped) :
    (commit checkpoint addition plan).row? id = (plan.node? id).map
      (alignRow { checkpoint with expansions := checkpoint.expansions ++ [.live addition] }) := by
  rw [← row?_reconcile]
  generalize aligned : reconcile
    { checkpoint with expansions := checkpoint.expansions ++ [.live addition] } plan = rows
  have unskipped : ((addition.patch.map (·.skipped)).getD []).contains id = false := by
    cases record : addition.patch with
    | none => rfl
    | some edits => simpa using kept edits record
  unfold commit
  rw [aligned]
  unfold GraphCheckpoint.row?
  rw [find?_map]
  have same : (fun row : NodeProgress => row.id == id) ∘ (fun row : NodeProgress =>
      if ((addition.patch.map (·.skipped)).getD []).contains row.id then
        { row with
          state := .skipped, skipReason := some (skippedBy (checkpoint.expansions.length + 1)) }
      else row) = fun row => row.id == id := by
    funext row
    simp only [Function.comp_apply]
    split <;> rfl
  rw [same]
  cases found : rows.nodes.find? fun row => row.id == id with
  | none => rfl
  | some row =>
    have rowId : row.id = id := by simpa using find?_some found
    rw [map_some, rowId, unskipped]
    rfl

/-- The current plan is a plan of the current graph. -/
lemma plans_of_currentPlan
    (current : currentPlan context document checkpoint = .ok (expanded, plan)) :
    expand document checkpoint.extensions checkpoint.expansions = some expanded ∧
      Plans expanded plan := by
  unfold currentPlan at current
  split at current
  · cases current
  next graph expands =>
    obtain ⟨plan', planned, same⟩ := map_eq_ok current
    cases same
    exact ⟨expands, context.planned _ _ (mapError_eq_ok.1 planned)⟩

/-- A prepared patch skips and replaces no started node. -/
lemma Fresh.unedited (fresh : Fresh expanded graph producer patch admission)
    (found : graph.checkpoint.row? row.id = some row) (started : row.started = true) :
    ∀ record ∈ admission.addition.patch, row.id ∉ record.skipped ∧
      ∀ node ∈ record.replaced, node.id ≠ row.id := by
  have untouched := not_unstarted found started
  intro record recorded
  constructor
  · intro skipped
    obtain ⟨edits, same, skips⟩ := fresh.record
    rw [mem_def, same, some_inj] at recorded
    rw [← recorded, skips] at skipped
    have edited := fresh.skipped row.id skipped
    rw [untouched] at edited
    cases edited
  · intro node replaced same
    have edited := (fresh.replaced record recorded node replaced).1
    rw [same, untouched] at edited
    cases edited

/-- The commit of a prepared patch leaves the rows of started nodes alone. -/
lemma Fresh.row?_commit (fresh : Fresh expanded graph producer patch admission)
    (planned : Plans expanded plan) (fits : FitsPlan plan graph.checkpoint)
    (member : row ∈ graph.checkpoint.nodes) (started : row.started = true) :
    (commit graph.checkpoint admission.addition admission.plan).row? row.id = some row := by
  have found := fits.row? member
  have unedited := fresh.unedited found started
  obtain ⟨node, placed, same⟩ : ∃ node ∈ plan.nodes, node.id = row.id :=
    List.mem_map.1 (fits.ids ▸ List.mem_map_of_mem member)
  obtain ⟨node', placed', kept⟩ := exists_kept_append fresh.continuation fresh.live
    (planned.perm.mem_iff.1 placed) fun record recorded => same ▸ (unedited record recorded).2
  rw [← fresh.preview] at placed'
  have lookup := PlannedGraph.node?_of_mem (fresh.plan.perm.mem_iff.2 placed')
  rw [show node'.id = row.id by rw [kept.same, same]] at lookup
  have aligned : alignRow { graph.checkpoint with
      expansions := graph.checkpoint.expansions ++ [.live admission.addition] } node' =
        alignRow graph.checkpoint node :=
    kept.alignRow rfl (same.symm ▸ found)
  rw [Graph.row?_commit fun record recorded => (unedited record recorded).1, lookup,
    map_some, aligned, fits.alignRow_eq (fun _ => placed) member same.symm]

/-- An admitted patch leaves the rows of started nodes alone. -/
lemma Outcome.row_of_started {admitted : Admitted}
    (outcome : Outcome context document submission parent patch graph (.ok admitted, next))
    (current : currentPlan context document graph.checkpoint = .ok (expanded, plan))
    (fits : FitsPlan plan graph.checkpoint) (member : row ∈ graph.checkpoint.nodes)
    (started : row.started = true) : next.checkpoint.row? row.id = some row := by
  cases outcome with
  | replayed | submitted => exact fits.row? member
  | committed current' _ _ prepared =>
    rw [current] at current'
    cases current'
    exact (fresh_of_prepareFresh prepared).row?_commit (plans_of_currentPlan current).2 fits member
      started

/-- What the graph is after a recorded addition. -/
lemma plans_append_of_currentPlan {next : GraphCheckpoint} {expanded' : GraphDocument}
    {plan' : PlannedGraph} (current : currentPlan context document next = .ok (expanded', plan'))
    (expands : expand document checkpoint.extensions checkpoint.expansions = some expanded)
    (extensions : next.extensions = checkpoint.extensions)
    (expansions : next.expansions = checkpoint.expansions ++ [.live addition]) :
    Plans (append expanded addition) plan' := by
  obtain ⟨expands', planned⟩ := plans_of_currentPlan current
  obtain ⟨seen, concat⟩ := expand_concat document checkpoint.extensions checkpoint.expansions addition
  rw [extensions, expansions, concat, expands, bind_some] at expands'
  split at expands'
  · cases expands'
    exact planned
  · cases expands'

/-- An admitted patch keeps the planned nodes of started rows. -/
lemma Outcome.node_of_started {admitted : Admitted} {expanded' : GraphDocument}
    {plan' : PlannedGraph}
    (outcome : Outcome context document submission parent patch graph (.ok admitted, next))
    (current : currentPlan context document graph.checkpoint = .ok (expanded, plan))
    (current' : currentPlan context document next.checkpoint = .ok (expanded', plan'))
    (found : graph.checkpoint.row? row.id = some row) (started : row.started = true)
    (member : node ∈ plan.nodes) (same : node.id = row.id) :
    ∃ node' ∈ plan'.nodes, KeptNode (parent.getD []) admitted.added node node' := by
  obtain ⟨expands, planned⟩ := plans_of_currentPlan current
  have member := planned.perm.mem_iff.1 member
  cases outcome with
  | replayed =>
    rw [current] at current'
    cases current'
    exact ⟨node, planned.perm.mem_iff.2 member, .refl _ _ _⟩
  | @submitted uses _ host =>
    have plans := plans_append_of_currentPlan current' expands rfl rfl
    have unedited : ∀ record ∈ (submissionAddition uses patch.reason).patch,
        ∀ replacement ∈ record.replaced, replacement.id ≠ node.id := by
      rintro _ ⟨⟩ _ ⟨⟩
    obtain ⟨node', placed, kept⟩ := exists_kept_append rfl rfl member unedited
    subst host
    exact ⟨node', plans.perm.mem_iff.2 placed, kept.same, kept.waits,
      .inl (kept.round.resolve_right fun ⟨_, absent, _⟩ => not_mem_nil absent)⟩
  | committed current'' parented _ prepared =>
    rw [current] at current''
    cases current''
    have fresh := fresh_of_prepareFresh prepared
    have plans := plans_append_of_currentPlan current' expands rfl rfl
    obtain ⟨node', placed, kept⟩ := exists_kept_append fresh.continuation fresh.live member
      fun record recorded => same ▸ (fresh.unedited found started record recorded).2
    rw [fresh.source, map_id_of_findParent parented] at kept
    exact ⟨node', plans.perm.mem_iff.2 placed, kept⟩

lemma LiveGraph.revision_push (graph : LiveGraph) (addition : Addition) (stamp : PatchStamp) :
    (graph.push addition stamp).revision = graph.revision + 1 := by
  simp [push, revision]

lemma LiveGraph.revision_commit (graph : LiveGraph) (limits : GraphLimits) (admission : Admission) :
    (graph.commit limits admission).revision = graph.revision + 1 := by
  simp [LiveGraph.commit, Graph.commit, reconcile, revision]

/-- An admitted patch that is not answered from the record raises the revision by one. -/
lemma Outcome.revision {admitted : Admitted}
    (outcome : Outcome context document submission parent patch graph (.ok admitted, next))
    (fresh : admitted.replayed = false) :
    next.revision = graph.revision + 1 ∧ admitted.revision = next.revision := by
  cases outcome with
  | replayed => cases fresh
  | submitted _ first => simp [LiveGraph.revision_push, first]
  | committed => simp [LiveGraph.revision_commit]

/-- A patch whose key is on record never changes the graph, and is admitted only as the recorded
one. -/
lemma Outcome.keyed {key : Text} {result : Except PatchError Admitted × LiveGraph}
    (outcome : Outcome context document submission parent patch graph result)
    (keyed : patch.idempotencyKey = some key)
    (recorded : graph.recorded (some key) = some stamp) :
    result.2 = graph ∧ ∀ admitted, result.1 = .ok admitted →
      admitted = { revision := stamp.revision, replayed := true, added := [] } ∧
        context.digest patch = .ok stamp.digest := by
  cases outcome with
  | refused => exact ⟨rfl, nofun⟩
  | replayed recorded' digest =>
    rw [keyed, recorded] at recorded'
    cases recorded'
    refine ⟨rfl, fun admitted h => ?_⟩
    cases h
    exact ⟨rfl, digest⟩
  | submitted _ _ unrecorded | committed _ _ unrecorded =>
    rw [keyed, recorded] at unrecorded
    cases unrecorded rfl

/-! ### The result -/

/-- **Submission is atomic and idempotent.** A refused patch leaves the graph as it was. So does a
patch whose key is on record, which is admitted only with the recorded digest; if it can be read and
its parent is known, it is answered with the recorded revision or with a conflict. Any other
admitted patch raises the revision by one. It keeps the rows of all nodes that have an attempt or are
settled, and their planned nodes, which at most wait for more. -/
theorem submission_atomic (context : PatchContext) (document : GraphDocument)
    (submission : Option Patch) (parent : Option Text) (patch : Patch) (graph : LiveGraph) :
    (∀ e next, (admitPatch context document submission parent patch).result graph =
      (.error e, next) → next = graph) ∧
    (∀ key stamp, patch.idempotencyKey = some key → graph.recorded (some key) = some stamp →
      ((admitPatch context document submission parent patch).result graph).2 = graph ∧
      (∀ admitted, ((admitPatch context document submission parent patch).result graph).1 =
        .ok admitted → admitted = { revision := stamp.revision, replayed := true, added := [] } ∧
          context.digest patch = .ok stamp.digest) ∧
      ∀ digest, patch.Readable context key digest →
        KnownParent context document graph.checkpoint parent →
        ∃ message, ((admitPatch context document submission parent patch).result graph).1 =
          if stamp.digest = digest then
            .ok { revision := stamp.revision, replayed := true, added := [] }
          else .error { code := .idempotencyConflict, message }) ∧
    ∀ admitted next, (admitPatch context document submission parent patch).result graph =
        (.ok admitted, next) →
      (admitted.replayed = false →
        next.revision = graph.revision + 1 ∧ admitted.revision = next.revision) ∧
      ∀ expanded plan, currentPlan context document graph.checkpoint = .ok (expanded, plan) →
        FitsPlan plan graph.checkpoint →
        ∀ row ∈ graph.checkpoint.nodes, row.attempts ≠ [] ∨ row.state.settled = true →
          next.checkpoint.row? row.id = some row ∧
          ∀ expanded' plan', currentPlan context document next.checkpoint = .ok (expanded', plan') →
            ∀ node ∈ plan.nodes, node.id = row.id →
              ∃ node' ∈ plan'.nodes, KeptNode (parent.getD []) admitted.added node node' := by
  have outcome := @admitPatch_outcome context document submission parent patch graph
  refine ⟨fun e next result => ?_, fun key stamp keyed recorded => ?_,
    fun admitted next result => ⟨(result ▸ outcome).revision,
      fun expanded plan current fits row member started => ?_⟩⟩
  · rw [result] at outcome
    cases outcome
    rfl
  · obtain ⟨same, answered⟩ := outcome.keyed keyed recorded
    refine ⟨same, answered, fun digest readable known => ?_⟩
    obtain ⟨message, result⟩ := admitPatch_recorded readable known recorded
    exact ⟨message, congrArg Prod.fst result⟩
  · have started : row.started = true := by simpa [NodeProgress.started] using started
    refine ⟨(result ▸ outcome).row_of_started current fits member started,
      fun expanded' plan' current' node placed same => ?_⟩
    exact (result ▸ outcome).node_of_started current current' (fits.row? member) started placed same

/-- An admitted patch is a step of the driver. -/
theorem Step.of_prepareFresh {policy : ReviewPolicy} {s s' : Driver document}
    (same : graph.checkpoint = s.checkpoint)
    (current : currentPlan context document s.checkpoint = .ok (expanded, plan))
    (found : findParent plan parent = .ok producer)
    (prepared : prepareFresh context expanded graph producer patch none digest = .ok admission)
    (replans : Replans s s' (commit s.checkpoint admission.addition admission.plan) admission.plan) :
    Step policy (.patch admission.addition) s s' := by
  obtain ⟨expands, planned⟩ := plans_of_currentPlan current
  have fresh := fresh_of_prepareFresh prepared
  obtain ⟨_, recorded, skips⟩ := fresh.record
  have nodup : (ids expanded.nodes).Nodup := (planned.perm.map _).nodup_iff.1 plan.nodup
  have admissible : admission.addition.Admissible expanded s.checkpoint := by
    rw [← same]
    refine ⟨fun edits he id skipped => ?_, fun edits he node replaced => ?_, fresh.nodes⟩
    · rw [mem_def, recorded, some_inj] at he
      exact fresh.skipped id (skips ▸ he ▸ skipped)
    · obtain ⟨untouched, leaf, target, lookup, targetLeaf⟩ := fresh.replaced edits he node replaced
      refine ⟨untouched, by simp [leaf], fun other member sameId => ?_⟩
      have targetId : target.id = node.id := by simpa using find?_some lookup
      rw [inj_on_of_nodup_map nodup member (mem_of_find?_eq_some lookup)
        (sameId.trans targetId.symm)]
      simp [targetLeaf]
  have source : ∀ seen, sourced expanded seen admission.addition = true := by
    intro seen
    unfold sourced
    rw [recorded, fresh.source]
    cases producer with
    | none => rfl
    | some node =>
      have member := planned.perm.mem_iff.1 (mem_of_findParent found)
      simp only [isSome_some, if_true, map_some, getD_some, Bool.or_eq_true, List.any_eq_true]
      exact .inr ⟨node, member, by simp⟩
  obtain ⟨seen, concat⟩ := expand_concat document s.checkpoint.extensions s.checkpoint.expansions
    admission.addition
  have expands' : Graph.expand document s.checkpoint.extensions
      (s.checkpoint.expansions ++ [.live admission.addition]) = some admission.preview := by
    rw [concat, expands, bind_some, if_pos (source seen), fresh.preview]
  exact .patch expands admissible ⟨⟨_, expands', fresh.plan⟩, same ▸ fresh.envelope⟩ replans

/-! ### Patches of a graph of three tasks -/

/-- The nodes of a document in the order of plan validation. -/
def sortedNodes (nodes : List GraphNode) : List GraphNode :=
  let parents := fun index => (nodes[index]?).toList.flatMap fun node =>
    node.dependencies.map fun parent => nodes.findIdx (·.id == parent)
  (Topological.finish parents nodes.length).order.filterMap (nodes[·]?)

/-- A document in that order, if all its nodes are and none stands in a cycle. -/
def planInOrder (document : GraphDocument) : Except Text PlannedGraph :=
  let nodes := sortedNodes document.nodes
  if h : ((nodes.map (·.id)).Nodup ∧
      (∀ node ∈ nodes, ∀ parent ∈ node.dependencies, parent ∈ nodes.map (·.id)) ∧
      (nodes.Pairwise fun earlier later => later.id ∉ earlier.dependencies) ∧
      ∀ node ∈ nodes, node.wellFormed = true) ∧ nodes.Perm document.nodes then
    .ok {
      graphId := document.graphId, nodes, delivery := document.delivery
      decisionSession := document.decisionSession
      nodup := h.1.1, closed := h.1.2.1, ordered := h.1.2.2.1, wellFormed := h.1.2.2.2 }
  else .error (text "invalid plan")

lemma plans_planInOrder (document : GraphDocument) (plan : PlannedGraph)
    (planned : planInOrder document = .ok plan) : Plans document plan := by
  unfold planInOrder at planned
  dsimp only at planned
  split at planned
  next fits =>
    cases planned
    exact ⟨rfl, rfl, rfl, fits.2⟩
  · cases planned

/-- Patches of tasks without templates; the digest of a patch is its reason. -/
def plainContext : PatchContext where
  digest patch := .ok (patch.reason.getD [])
  scan _ := .ok ()
  compile _ _ raw :=
    match rawText "id" raw with
    | some id => .ok (.leaf { id })
    | none => .error (.invalid (text "node requires an id"))
  compileReplacement _ _ raw :=
    match rawText "id" raw with
    | some id => .ok { id }
    | none => .error (.invalid (text "node requires an id"))
  checkTemplates _ _ := .ok ()
  compileDocument _ := .ok []
  admitDocument _ := .ok ()
  flatten parent _ nodes := .ok (nodes.map fun node =>
    { id := instanceName parent node.fields.id, dependsOn := (parent.map (·.id)).toList })
  planTemplate _ := false
  validateSchema _ := .ok ()
  validateFlatPlan := planInOrder
  planned := plans_planInOrder
  validateOutputKinds _ := .ok ()
  structuralLimit _ _ := none
  envelopeBound expansions _ _ := expansions.length
  envelope _ _ _ := le_rfl
  limits := { nodes := 8, edges := 8, continuations := 1 }

/-- A graph of three tasks. One has the name of a round, although there is no loop. -/
def draftDocument : GraphDocument :=
  { graphId := text "draft"
    nodes := [{ id := text "draft" }, { id := text "polish--r9--work" },
      { id := text "publish", dependsOn := [text "draft"] }] }

def draftPlan : PlannedGraph :=
  { graphId := text "draft", nodes := draftDocument.nodes }

/-- The tasks are done, and the first submission is on record. -/
def draftGraph : LiveGraph where
  checkpoint := {
    expansions := [.live (submissionAddition [] (some (text "first")))]
    nodes := draftDocument.nodes.map fun node => { id := node.id, state := .succeeded } }
  stamps := [some { revision := 1, digest := text "first", key := some (text "key") }]
  stamped := rfl

/-- A patch that adds a node. -/
def addingPatch (id key : Text) (schemaVersion : Nat) : Patch :=
  { schemaVersion
    idempotencyKey := some key
    reason := some (text "second")
    nodes := [.obj [(text "id", .str id)]] }

/-- What the first task submits: one more task. -/
def submitReview (key : Text) (schemaVersion : Nat) (parent : Text) :
    Except PatchError Admitted × LiveGraph :=
  (admitPatch plainContext draftDocument none (some parent)
    (addingPatch (text "review") key schemaVersion)).result draftGraph

/-- The graph after the patch was admitted. -/
def reviewedGraph : LiveGraph := (submitReview (text "other") 1 (text "draft")).2

lemma currentPlan_draftGraph :
    currentPlan plainContext draftDocument draftGraph.checkpoint = .ok (draftDocument, draftPlan) :=
  rfl

lemma fitsPlan_draftGraph : FitsPlan draftPlan draftGraph.checkpoint := by
  refine ⟨rfl, fun node placed composite spec => ?_⟩
  have plain : ∀ node ∈ draftPlan.nodes, node.composite = none := by decide
  rw [plain node placed] at spec
  cases spec

/-- The node that is published after the first task. -/
def publishNode : GraphNode := { id := text "publish", dependsOn := [text "draft"] }

/-- The settled consumer of the first task keeps its row and its node when this task adds another
one, and the key on record is refused for that. -/
theorem submission_atomic_draft :
    reviewedGraph.revision = 2 ∧
    (reviewedGraph.checkpoint.row? (text "publish") =
        some { id := text "publish", state := .succeeded } ∧
      ∀ expanded plan, currentPlan plainContext draftDocument reviewedGraph.checkpoint =
          .ok (expanded, plan) → ∀ node ∈ draftPlan.nodes, node.id = text "publish" →
        ∃ node' ∈ plan.nodes, KeptNode (text "draft") [text "draft--review"] node node') ∧
    ∃ message, (submitReview (text "key") 1 (text "draft")).1 =
      .error { code := .idempotencyConflict, message } := by
  have admitted : submitReview (text "other") 1 (text "draft") =
      (.ok { revision := 2, replayed := false, added := [text "draft--review"] }, reviewedGraph) := by
    refine Prod.ext ?_ rfl
    decide
  obtain ⟨counted, kept⟩ := (submission_atomic plainContext draftDocument none (some (text "draft"))
    (addingPatch (text "review") (text "other") 1) draftGraph).2.2 _ _ admitted
  obtain ⟨message, refused⟩ := ((submission_atomic plainContext draftDocument none
    (some (text "draft")) (addingPatch (text "review") (text "key") 1) draftGraph).2.1 (text "key") _
      rfl rfl).2.2 (text "second") ⟨rfl, rfl, by decide, rfl⟩
      ⟨draftDocument, draftPlan, currentPlan_draftGraph, by rintro _ ⟨⟩; decide⟩
  refine ⟨(counted rfl).1, ?_, message, refused.trans (if_neg (by decide))⟩
  exact kept _ _ currentPlan_draftGraph fitsPlan_draftGraph
    { id := text "publish", state := .succeeded } (by decide) (.inr rfl)

/-- The patch that adds a task is a step of a driver of the graph, under every policy. -/
theorem step_reviewPatch : ∃ (s s' : Driver draftDocument) (addition : Addition),
    s.checkpoint = draftGraph.checkpoint ∧ s'.checkpoint = reviewedGraph.checkpoint ∧
      ∀ policy, Step policy (.patch addition) s s' := by
  have found : findParent draftPlan (some (text "draft")) = .ok (some { id := text "draft" }) := rfl
  have prepared : prepareFresh plainContext draftDocument draftGraph (some { id := text "draft" })
      (addingPatch (text "review") (text "other") 1) none (text "second") = .ok _ := rfl
  let plan : PlannedGraph :=
    { graphId := text "draft"
      nodes := [{ id := text "draft" }, { id := text "polish--r9--work" },
        { id := text "draft--review", dependsOn := [text "draft"] },
        { publishNode with afterExpansion := [text "draft--review"] }] }
  exact ⟨⟨draftPlan, _, .idle, [], ⟨_, rfl, rfl, rfl, rfl, .refl _⟩, rfl⟩,
    ⟨plan, _, .idle, [], ⟨_, rfl, rfl, rfl, rfl, by decide⟩, rfl⟩, _, rfl, rfl,
    fun _ => .of_prepareFresh rfl currentPlan_draftGraph found prepared ⟨rfl, rfl, rfl, rfl⟩⟩

/-- Every patch adds the loop `polish`. -/
def loopContext : PatchContext :=
  { plainContext with
    flatten := fun _ _ _ => .ok [{
      id := text "polish"
      loopBody := some {
        body := [{ id := text "work" }, { id := text "done", condition := some .budget }]
        untilGate := text "done", maxRounds := 1, repair := false } }] }

/-- The planned node of an identifier after a submission. -/
def plannedAfter (context : PatchContext) (result : Except PatchError Admitted × LiveGraph)
    (id : Text) : Option GraphNode :=
  (currentPlan context draftDocument result.2.checkpoint).toOption.bind fun current =>
    current.2.node? id

/-- **Not every patch with a key on record is a conflict, and planned nodes change.** A patch whose
key is on record for a different one is refused as invalid if it is of another version or for an
unknown parent. The settled consumer of a task waits for what the task adds, and a settled node that
has the name of a round becomes one when the loop of this name is added. -/
theorem unreadable_not_conflict :
    (draftGraph.recorded (some (text "key")) =
      some { revision := 1, digest := text "first", key := some (text "key") } ∧
      text "first" ≠ text "second" ∧
      submitReview (text "key") 2 (text "draft") =
        (.error { code := .invalid, message := text "patch requires schema_version 1" },
          draftGraph) ∧
      submitReview (text "key") 1 (text "nobody") =
        (.error { code := .invalid, message := text "unknown parent node nobody" }, draftGraph)) ∧
    (∀ row ∈ draftGraph.checkpoint.nodes, row.state.settled = true) ∧
    (draftPlan.node? (text "publish")).map (·.afterExpansion) = some [] ∧
    (plannedAfter plainContext (submitReview (text "other") 1 (text "draft")) (text "publish")).map
      (·.afterExpansion) = some [text "draft--review"] ∧
    (draftPlan.node? (text "polish--r9--work")).map (·.round) = some none ∧
    (plannedAfter loopContext ((admitPatch loopContext draftDocument none none
      (addingPatch (text "polish") (text "other") 1)).result draftGraph)
        (text "polish--r9--work")).map (·.round.map (·.loopId)) = some (some (text "polish")) := by
  refine ⟨⟨by decide, by decide, rfl, rfl⟩, by decide, by decide, by decide +kernel, by decide,
    by decide +kernel⟩

end Provenant.Graph

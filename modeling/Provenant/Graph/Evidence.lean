import Provenant.Graph.Model

/-!
# Review evidence

What the recorded outputs of a graph say about its reviews: the findings that a node reads from
its inputs, the panels that the host adds to a repair, and whether a repair loop starts clean or
has to be escalated. Which rows are read is modelled here; what a single finding or a block of
findings says is left to a `ReviewPolicy`.

## Main definitions

* `ReviewPolicy` — the reading of review texts.
* `panelExpansion`, `panelOutputs` — the panel that was added for a review.
* `resolvedInputs`, `materialisedFindings` — the findings that reach a node.
* `cleanStart`, `escalation` — the verdict on a repair loop.
* `terminalOutputs` — what a settled loop hands over.

## Implementation notes

A compacted block of findings is parsed again against the findings that its node had read, which
follows inputs upwards. The plan has no cycle, so the recursion is given as many steps as such a
chain can have.
-/

namespace Provenant.Graph

open Json (Text text)

/-- A finding with the node it was read from and the finding it goes back to. -/
structure ResolvedFinding where
  source : Text
  storedId : Text
  finding : Finding
  root : Text × Text
  deriving DecidableEq

/-- What a node reads from one of its inputs. -/
structure Upstream where
  input : GraphInput
  /-- The input is the boundary of a composite. -/
  composite : Bool
  findings : List Finding
  resolved : List ResolvedFinding
  deriving DecidableEq

/-- The reading of review texts. -/
structure ReviewPolicy where
  /-- The verdict approves the work. -/
  approved : NodeOutputs → Bool
  /-- The finding is open and severe. -/
  blocking : Finding → Bool
  /-- The finding shows a concrete defect of the design. -/
  designDefect : Finding → Bool
  /-- The finding reports that the risk or the scope grew. -/
  growsReview : Finding → Bool
  /-- The findings report the same thing. -/
  sameFinding : Finding → Finding → Bool
  /-- The lens that raised the finding. -/
  lens : Finding → Option Text
  /-- Findings of the inputs under the names that the node knows them by. -/
  resolve : GraphNode → Bool → List Upstream → List ResolvedFinding
  /-- A compacted block, read against the findings that its node had read. -/
  parse : GraphNode → Text → List ResolvedFinding → Option (List Finding)

namespace GraphCheckpoint

/-- The outputs recorded in the row of an identifier. -/
def outputs? (checkpoint : GraphCheckpoint) (id : Text) : Option NodeOutputs :=
  (checkpoint.row? id).bind (·.outputs)

end GraphCheckpoint

/-! ### Panels -/

/-- `panel_expansion`: the panel that was added after a review of this name. -/
def panelExpansion (checkpoint : GraphCheckpoint) (parent : Text) : Option Addition :=
  (liveAdditions checkpoint.expansions).find? fun addition =>
    addition.patch.any fun record =>
      record.parent == some parent && record.reason == some panelReason

/-- `panel_pending`: some member of the panel is not settled. -/
def panelPending (checkpoint : GraphCheckpoint) (panel : Addition) : Bool :=
  panel.nodes.any fun member => (checkpoint.row? member.id).any fun row => !row.state.settled

/-- The boundary that all members of the panel lie inside. -/
def panelRoot (panel : Addition) : Option GraphNode :=
  panel.nodes.find? fun candidate =>
    candidate.composite.isSome &&
      panel.nodes.all fun member => member.id == candidate.id || inside candidate.id member.id

/-- `panel_outputs`: the outputs of a settled panel supersede those of the review before it. -/
def panelOutputs (checkpoint : GraphCheckpoint) (parent : Text) : Option NodeOutputs := do
  let panel ← panelExpansion checkpoint parent
  guard !panelPending checkpoint panel
  let root ← panelRoot panel
  checkpoint.outputs? root.id

/-- `prior_panel`: a panel was added in an earlier round of the node's loop. -/
def priorPanel (checkpoint : GraphCheckpoint) (node : GraphNode) : Bool :=
  node.round.any fun round =>
    (liveAdditions checkpoint.expansions).any fun addition =>
      addition.patch.any fun record =>
        record.reason == some panelReason &&
          ((record.parent.bind checkpoint.row?).bind (·.round)).any fun previous =>
            previous.loopId == round.loopId && previous.round < round.round

/-! ### Findings -/

section Findings

variable (policy : ReviewPolicy) (plan : PlannedGraph) (checkpoint : GraphCheckpoint)

/-- The inputs that are followed, each source once. -/
def followedInputs (includeResults : Bool) (inputs : List GraphInput) : List GraphInput :=
  (inputs.filter fun input =>
    input.outputs.contains .findings || (includeResults && input.outputs.contains .result)).foldl
    (fun seen input =>
      if seen.any fun other => other.node == input.node then seen else seen ++ [input]) []

/-- A composite boundary is followed through what it exports. -/
def throughExports (node : GraphNode) : GraphNode :=
  match node.composite with
  | some spec => { node with inputs := spec.exports }
  | none => node

mutual

/-- `resolved_inputs`: the findings that a node reads. -/
def resolvedInputs : Nat → Bool → GraphNode → List ResolvedFinding
  | 0, _, _ => []
  | steps + 1, includeResults, node =>
    policy.resolve node includeResults
      ((followedInputs includeResults node.inputs).filterMap fun input =>
        match plan.node? input.node, checkpoint.outputs? input.node with
        | some source, some _ =>
          some {
            input
            composite := source.composite.isSome
            findings := materialisedFindings steps input.node
            resolved := resolvedInputs steps true (throughExports source) }
        | _, _ => none)

/-- `materialised_findings`: the findings of a node, with a compacted block read again. -/
def materialisedFindings : Nat → Text → List Finding
  | 0, _ => []
  | steps + 1, id =>
    match panelOutputs checkpoint id with
    | some outputs => outputs.findings
    | none =>
      match plan.node? id, checkpoint.outputs? id with
      | some node, some outputs =>
        match outputs.compactFindings with
        | some (some block) =>
          (policy.parse node block (resolvedInputs steps false node)).getD []
        | _ => outputs.findings
      | _, _ => []

end

/-- The length that a chain of inputs and blocks cannot reach. -/
def PlannedGraph.depth : Nat := 2 * plan.nodes.length + 2

/-- `selected_findings`. -/
def selectedFindings (node : GraphNode) : List ResolvedFinding :=
  resolvedInputs policy plan checkpoint plan.depth false node

end Findings

/-! ### Repair loops -/

/-- The outputs of the reviews that a repair loop starts from. -/
def initialOutputs (checkpoint : GraphCheckpoint) (node : GraphNode) : List NodeOutputs :=
  (node.inputs.filter fun input => input.outputs.contains .findings).filterMap fun input =>
    checkpoint.outputs? input.node

/-- The review is complete, approves the work and reports nothing that blocks it. -/
def ReviewPolicy.clean (policy : ReviewPolicy) (outputs : NodeOutputs) : Bool :=
  outputs.findingsAvailable == some true && policy.approved outputs &&
    !outputs.findings.any policy.blocking

/-- `clean_start`: the reviews that a repair loop starts from leave nothing to repair. -/
def cleanStart (policy : ReviewPolicy) (node : GraphNode) (checkpoint : GraphCheckpoint) : Bool :=
  node.isRepair && !(initialOutputs checkpoint node).isEmpty &&
    (initialOutputs checkpoint node).all policy.clean

/-- The row of a body node in one round of a loop. -/
def roundMember (checkpoint : GraphCheckpoint) (loop : Text) (round : Nat) (name : Text) :
    Option NodeProgress :=
  checkpoint.nodes.find? fun row => row.round.any fun member =>
    member.loopId == loop && member.round == round && member.nodeId == name

/-- The row that reviews one round of a repair loop. -/
def roundReview (checkpoint : GraphCheckpoint) (loop : Text) (round : Nat) :
    Option NodeProgress :=
  (roundMember checkpoint loop round (text "synthesis")).or
    (roundMember checkpoint loop round (text "check"))

/-- The rounds of `escalation`, from the findings of the round before. -/
def escalationFrom (policy : ReviewPolicy) (checkpoint : GraphCheckpoint) (loop : Text) :
    List Nat → List Finding → Option Text
  | [], _ => none
  | round :: rounds, prior =>
    match roundReview checkpoint loop round with
    | none => none
    | some check =>
      if !check.state.settled ||
          (roundMember checkpoint loop round (text "accepted")).any fun gate =>
            !gate.state.settled then none
      else
        match (panelOutputs checkpoint check.id).or check.outputs with
        | none => escalationFrom policy checkpoint loop rounds prior
        | some outputs =>
          let current := outputs.findings.filter policy.blocking
          if (panelExpansion checkpoint check.id).isNone &&
              outputs.findings.any policy.growsReview then
            some (text "repair expanded risk or scope; full panel replan required")
          else if current.any policy.designDefect then some (text "concrete design defect")
          else if current.any fun finding => prior.any (policy.sameFinding finding) then
            some (text "recurring finding after repair")
          else escalationFrom policy checkpoint loop rounds current

/-- `escalation`: why the principal has to decide before the rounds are used up. -/
def escalation (policy : ReviewPolicy) (node : GraphNode) (checkpoint : GraphCheckpoint) :
    Option Text :=
  if !node.isRepair then none
  else
    let initial := ((initialOutputs checkpoint node).flatMap (·.findings)).filter policy.blocking
    if initial.any policy.designDefect then some (text "concrete design defect")
    else
      escalationFrom policy checkpoint node.id
        (List.range' 1 ((node.loopBody.map (·.maxRounds)).getD 0)) initial

/-! ### Outputs of gates and loops -/

/-- `gate_outputs`. -/
def gateOutputs (passed : Bool) : NodeOutputs :=
  { verdict := some (if passed then text "PASS" else text "FAIL")
    findingsAvailable := some true }

/-- The row hands over what is expected. An older record that does not say whether its findings
are complete is compared without that. -/
def RowRecord.handsOver (row : RowRecord) (expected : NodeOutputs) : Bool :=
  row.outputs == some (if row.outputs.any (·.findingsAvailable.isNone) then
    { expected with findingsAvailable := none } else expected)

/-- The later of two reviews of a loop; a synthesis comes after the check of its round. -/
def reviewOrder (row : NodeProgress) : Nat :=
  (row.round.map fun round =>
    2 * round.round + if round.nodeId == text "synthesis" then 1 else 0).getD 0

/-- The latest row among reviews. -/
def latestRow (rows : List NodeProgress) : Option NodeProgress :=
  rows.foldl
    (fun latest row =>
      match latest with
      | some other => if reviewOrder other ≤ reviewOrder row then some row else some other
      | none => some row)
    none

/-- The latest complete review of a repair loop. -/
def latestReview (node : GraphNode) (checkpoint : GraphCheckpoint) : Option NodeOutputs :=
  let reviews := checkpoint.nodes.filter fun row =>
    (row.round.any fun round =>
      round.loopId == node.id &&
        (round.nodeId == text "synthesis" || round.nodeId == text "check")) && row.outputs.isSome
  ((latestRow reviews).bind fun row => (panelOutputs checkpoint row.id).or row.outputs).or
    (initialOutputs checkpoint node).getLast?

/-- `terminal_outputs`: a failed repair loop hands over the latest complete findings. -/
def terminalOutputs (node : GraphNode) (checkpoint : GraphCheckpoint) (passed : Bool) :
    NodeOutputs :=
  if passed || !node.isRepair then gateOutputs passed
  else
    match latestReview node checkpoint with
    | some latest =>
      { gateOutputs passed with
        findings := latest.findings
        findingsAvailable := latest.findingsAvailable
        warnings := latest.warnings }
    | none => gateOutputs passed

end Provenant.Graph

import Provenant.Graph.Transitions

/-!
# Settling a loop

When the scheduler reaches the boundary of a loop it settles the boundary's row from the rows
of the rounds. On load the same row is checked against the rounds again.

## Main definitions

* `roundRows` — the rows of a loop's rounds.
* `loopOutcome`, `settleLoop` — the settlement of the boundary's row.
* `loopProgressValid` — the check of the boundary's row on load.

## Main results

* `loopProgressValid_settleLoop` — a passed gate settles the loop at once, but the check on load
  also wants every row of the rounds to be settled.

## Implementation notes

The pause of an exhausted loop and the question to its owner are not modelled beyond the
recorded question: the answer arrives as an extension.
-/

namespace Provenant.Graph

open Json (Text text)

/-- The rows of the rounds of a loop. -/
def roundRows (checkpoint : GraphCheckpoint) (loop : Text) : List NodeProgress :=
  checkpoint.nodes.filter fun row => row.round.any fun round => round.loopId == loop

/-- The row is a gate that ends a round. -/
def NodeProgress.isUntil (row : NodeProgress) : Bool := row.round.any (·.isUntil)

/-- Some work of the rounds failed or is blocked. -/
def roundsFailed (rows : List NodeProgress) : Bool :=
  rows.any fun row => (row.state == .failed || row.state == .blocked) && !row.isUntil

/-- Some gate of the rounds passed. -/
def roundsPassed (rows : List NodeProgress) : Bool :=
  rows.any fun row => row.isUntil && row.state == .succeeded

/-- Everything in the rounds is settled. -/
def roundsSettled (rows : List NodeProgress) : Bool := rows.all (·.state.settled)

/-- The last round. -/
def lastRound (rows : List NodeProgress) : Nat :=
  (rows.filterMap fun row => row.round.map (·.round)).foldl max 0

/-- The latest terminal decision on a loop. -/
def terminalDecision (extensions : List Extension) (loop : Text) : Option LoopDecision :=
  extensions.reverse.findSome? fun
    | .decision name decision => if name = loop then some decision else none
    | .rounds .. | .other .. => none

/-- The state that a loop settles in, if it does. -/
def loopOutcome (policy : ReviewPolicy) (node : GraphNode) (checkpoint : GraphCheckpoint) :
    Option NodeState :=
  let rows := roundRows checkpoint node.id
  let decision := terminalDecision checkpoint.extensions node.id
  let clean := cleanStart policy node checkpoint
  if roundsFailed rows || decision == some .stop ||
      (node.isRepair && roundsSettled rows && !roundsPassed rows && !clean) then
    some .failed
  else if roundsPassed rows || (clean && roundsSettled rows) ||
      (decision == some .accept && roundsSettled rows) then
    some .succeeded
  else none

/-- The boundary without the edges from its rounds. -/
def externalNode (plan : PlannedGraph) (node : GraphNode) : GraphNode :=
  { node with
    dependsOn := node.dependsOn.filter fun parent => (plan.node? parent).all (·.round.isNone) }

/-- The evidence that a repair loop leaves when it settles. -/
def repairGate (policy : ReviewPolicy) (node : GraphNode) (checkpoint : GraphCheckpoint)
    (passed : Bool) : GateResult :=
  { passed
    reason := if passed then none
      else some ((escalation policy node checkpoint).getD (text "repair cycle limit reached"))
    onFail := node.onFail }

/-- `loops::settle` on the row of the boundary: the state its parents outside the loop impose,
or else the outcome of its rounds with the outputs it hands over. -/
def settleLoop (policy : ReviewPolicy) (plan : PlannedGraph) (checkpoint : GraphCheckpoint)
    (node : GraphNode) (row : NodeProgress) : NodeProgress :=
  match dependencyState (externalNode plan node) plan checkpoint with
  | some state => { row with state }
  | none =>
    match loopOutcome policy node checkpoint with
    | some state =>
      { row with
        state
        outputs := some (terminalOutputs node checkpoint (state == .succeeded))
        gate := if node.isRepair then some (repairGate policy node checkpoint (state == .succeeded))
          else row.gate
        notes := { row.notes with loopPause := none, loopPauseCode := none, loopCause := none } }
    | none => row

/-- The repair evidence of a boundary's row agrees with its state. -/
def repairGateValid (node : GraphNode) (row : NodeProgress) : Bool :=
  !node.isRepair ||
    match row.gate, row.state with
    | some gate, .succeeded | some gate, .failed =>
      gate.passed == (row.state == .succeeded) && gate.onFail == node.onFail &&
        gate.reason.isNone == gate.passed
    | none, .pending | none, .skipped | none, .blocked => true
    | _, _ => false

/-- The state of a boundary's row agrees with the rows of the rounds. -/
def loopStateValid (policy : ReviewPolicy) (checkpoint : GraphCheckpoint) (node : GraphNode)
    (row : NodeProgress) : Bool :=
  let rows := roundRows checkpoint node.id
  match row.state with
  | .succeeded =>
    !roundsFailed rows && roundsSettled rows &&
      (roundsPassed rows ||
        checkpoint.extensions.contains (.decision node.id .accept) ||
        cleanStart policy node checkpoint) &&
      row.handsOver (terminalOutputs node checkpoint true)
  | .failed =>
    (roundsFailed rows || checkpoint.extensions.contains (.decision node.id .stop) ||
        (escalation policy node checkpoint).isSome ||
        (node.isRepair && roundsSettled rows)) &&
      row.handsOver (terminalOutputs node checkpoint false)
  | .pending => row.outputs.isNone
  | .blocked | .skipped =>
    row.outputs.isNone && node.dependsOn.any fun parent =>
      (checkpoint.row? parent).any fun parentRow =>
        parentRow.state == .failed || parentRow.state == .blocked || parentRow.state == .skipped
  | .running => false

/-- `loops::validate_progress`. -/
def loopProgressValid (policy : ReviewPolicy) (checkpoint : GraphCheckpoint) (node : GraphNode)
    (row : NodeProgress) : Bool :=
  checkpoint.notes.askActor.isSome && row.attempts.isEmpty && (row.gate.isNone || node.isRepair) &&
    row.advanceError.isNone &&
    (checkpoint.notes.asks.all fun ask =>
      ask.node != some node.id ||
        ask.rounds.any fun rounds => rounds ≤ lastRound (roundRows checkpoint node.id)) &&
    loopStateValid policy checkpoint node row && repairGateValid node row

/-! ### The settlement against the check -/

/-- The decision that a loop follows was recorded. -/
lemma contains_terminalDecision {extensions : List Extension} {loop : Text}
    {decision : LoopDecision} (h : terminalDecision extensions loop = some decision) :
    extensions.contains (.decision loop decision) = true := by
  obtain ⟨extension, member, named⟩ := List.exists_of_findSome?_eq_some h
  cases extension <;> simp_all

/-- A row hands over the outputs that it has. -/
lemma handsOver_of_outputs {row : RowRecord} {outputs : NodeOutputs}
    (h : row.outputs = some outputs) : row.handsOver outputs = true := by
  rw [RowRecord.handsOver, h, beq_iff_eq, Option.some_inj]
  split
  next old => rw [← Option.isNone_iff_eq_none.1 old]
  · rfl

variable {policy : ReviewPolicy} {plan : PlannedGraph} {checkpoint : GraphCheckpoint}
  {node : GraphNode} {row : NodeProgress} {state : NodeState}

/-- **A settlement keeps the check on load** exactly if the loop failed or all its rounds are
settled, as the settlement found them. -/
theorem loopProgressValid_settleLoop (valid : loopProgressValid policy checkpoint node row = true)
    (ready : dependencyState (externalNode plan node) plan checkpoint = none)
    (outcome : loopOutcome policy node checkpoint = some state) :
    loopProgressValid policy checkpoint node (settleLoop policy plan checkpoint node row) = true ↔
      (state = .succeeded → roundsSettled (roundRows checkpoint node.id) = true) := by
  have recorded (decision) := @contains_terminalDecision checkpoint.extensions node.id decision
  have unpassed : (NodeState.failed == .succeeded) = false := rfl
  rw [settleLoop, ready, outcome]
  simp only [loopProgressValid, Bool.and_eq_true, Bool.or_eq_true] at valid ⊢
  simp only [loopOutcome] at outcome
  split at outcome
  · cases outcome
    rw [unpassed]
    simp only [loopStateValid, handsOver_of_outputs, repairGateValid]
    cases repair : node.isRepair <;> simp_all [repairGate] <;> grind
  split at outcome
  · cases outcome
    simp only [loopStateValid, beq_self_eq_true, handsOver_of_outputs, repairGateValid]
    cases repair : node.isRepair <;> simp_all [repairGate] <;> grind
  · cases outcome

/-- The boundary of a loop around some work and the gate on it, after a draft. -/
def tidyLoop : GraphNode :=
  { id := text "tidy", dependsOn := [text "draft", text "tidy--r1--done"]
    loopBody := some {
      body := [{ id := text "work" },
        { id := text "done", dependsOn := [text "work"], condition := some .verdict }]
      untilGate := text "done", maxRounds := 1, repair := false } }

/-- The draft, the first round and the boundary. -/
def tidyPlan : PlannedGraph :=
  { graphId := text "tidy"
    nodes := [{ id := text "draft" },
      { id := text "tidy--r1--work", dependsOn := [text "draft"]
        round := some ⟨text "tidy", 1, text "work", false, none⟩ },
      { id := text "tidy--r1--done", dependsOn := [text "tidy--r1--work"]
        condition := some .verdict, round := some ⟨text "tidy", 1, text "done", true, none⟩ },
      tidyLoop] }

/-- Everything before the boundary succeeded. -/
def tidyRows : GraphCheckpoint :=
  { nodes := tidyPlan.nodes.map fun node =>
      { id := node.id, round := node.round
        state := if node.id = text "tidy" then .pending else .succeeded }
    notes := { askActor := some (text "chair") } }

/-- A loop whose gate passed is accepted on load. -/
theorem loopProgressValid_passed :
    roundsPassed (roundRows tidyRows tidyLoop.id) = true ∧
      ∀ policy, loopProgressValid policy tidyRows tidyLoop
        (settleLoop policy tidyPlan tidyRows tidyLoop { id := tidyLoop.id }) = true :=
  ⟨rfl, fun _ => (loopProgressValid_settleLoop rfl rfl rfl).2 fun _ => rfl⟩

end Provenant.Graph

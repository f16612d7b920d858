import Provenant.Graph.Choices

/-!
# Dependency order of launches

A launch is recorded some steps after the dependencies of its node were checked. Between the
check and the record only the row of the node itself changes, and it stays unsettled. Such a
change cannot undo a success elsewhere, so that the dependencies still hold when the launch is
recorded.

## Main definitions

* `Permits` — a settled parent lets a node be launched.
* `Released` — every parent of a node lets it be launched.

## Main results

* `nodeSuccessful_update` — a change of an unsettled row undoes no success.
* `dependencyState_update` — a runnable node stays runnable while its own row changes.
* `launch_released` — the parents of a launched node permit the launch, in every run.
-/

namespace Provenant.Graph

open Option GraphCheckpoint

open Json (Text text)

variable {checkpoint : GraphCheckpoint} {id : Text} {f : NodeProgress → NodeProgress}

/-! ### Changes of an unsettled row -/

/-- The change leaves the identity of the row alone, and the row is unsettled before it. -/
def Open (checkpoint : GraphCheckpoint) (id : Text) (f : NodeProgress → NodeProgress) : Prop :=
  ∀ row ∈ checkpoint.nodes, row.id = id →
    row.state.settled = false ∧ (f row).id = id ∧ (f row).round = row.round

/-- The row after the change. -/
def changed (id : Text) (f : NodeProgress → NodeProgress) (row : NodeProgress) : NodeProgress :=
  if row.id = id then f row else row

variable {row : NodeProgress} {node parent : GraphNode}

variable {successful successful' : NodeProgress → Bool}

section Updates

variable (h : Open checkpoint id f)
include h

lemma Open.lookup (name : Text) :
    (checkpoint.update id f).row? name = (checkpoint.row? name).map (changed id f) :=
  row?_update (fun row hrow same => (h row hrow same).2.1) name

lemma Open.changed_id (hrow : row ∈ checkpoint.nodes) : (changed id f row).id = row.id := by
  unfold changed
  split
  next same =>
    rw [(h row hrow same).2.1, same]
  · rfl

lemma Open.changed_round (hrow : row ∈ checkpoint.nodes) :
    (changed id f row).round = row.round := by
  unfold changed
  split
  next same =>
    exact (h row hrow same).2.2
  · rfl

lemma Open.changed_settled (hrow : row ∈ checkpoint.nodes) (settled : row.state.settled = true) :
    changed id f row = row := by
  unfold changed
  split
  next same =>
    rw [(h row hrow same).1] at settled
    cases settled
  · rfl

/-- The walk to a recovery target passes settled rows only. -/
lemma walkRecovery_update (steps : Nat) (start : Bool) (hrow : row ∈ checkpoint.nodes)
    (success : checkpoint.walkRecovery steps start row = true) :
    (checkpoint.update id f).walkRecovery steps start (changed id f row) = true := by
  induction steps generalizing start row with
  | zero => cases success
  | succ _ ih =>
    have settled : row.state.settled = true := by
      cases hs : row.state <;> simp_all [GraphCheckpoint.walkRecovery, NodeState.settled]
    rw [h.changed_settled hrow settled]
    unfold GraphCheckpoint.walkRecovery at success ⊢
    cases hs : row.state with
    | failed =>
      simp only [hs] at success ⊢
      cases ht : (row.gate.filter fun gate => !gate.passed).bind (·.onFail) with
      | none => simp [ht] at success
      | some target =>
        simp only [ht, bind_some, h.lookup] at success ⊢
        cases hr : checkpoint.row? target with
        | none => simp [hr] at success
        | some _ =>
          simp only [hr, map_some] at success ⊢
          exact ih false (mem_of_row? hr) success
    | succeeded => rfl
    | skipped => simpa [hs] using success
    | pending | running | blocked => simp [hs] at success

/-- The loop around a handled gate stays successful. -/
lemma handledGate_update
    (mono : ∀ row ∈ checkpoint.nodes, successful row = true → successful' (changed id f row) = true)
    (hrow : row ∈ checkpoint.nodes) (handled : checkpoint.handledGate successful row = true) :
    (checkpoint.update id f).handledGate successful' (changed id f row) = true := by
  simp only [GraphCheckpoint.handledGate, Bool.and_eq_true, beq_iff_eq, any_eq_true,
    List.any_eq_true] at handled ⊢
  obtain ⟨failed, round, hround, isUntil, owner, howner, name, success⟩ := handled
  rw [h.changed_settled hrow (by rw [failed]; rfl)]
  refine ⟨failed, round, hround, isUntil, changed id f owner, ?_, ?_, mono owner howner success⟩
  · exact List.mem_map_of_mem howner
  · rw [h.changed_id howner, name]

/-- The loop around a handled panel stays successful. -/
lemma handledPanel_update
    (mono : ∀ row ∈ checkpoint.nodes, successful row = true → successful' (changed id f row) = true)
    (hrow : row ∈ checkpoint.nodes) (handled : checkpoint.handledPanel successful row = true) :
    (checkpoint.update id f).handledPanel successful' (changed id f row) = true := by
  simp only [GraphCheckpoint.handledPanel, Bool.and_eq_true, any_eq_true,
    List.any_eq_true, bind_eq_some_iff, h.changed_id hrow, h.lookup,
    map_eq_some_iff] at handled ⊢
  obtain ⟨addition, live, member, record, patch, reason, owner, ⟨round, ⟨parent, ⟨name, hname,
    hparent⟩, hround⟩, howner⟩, success⟩ := handled
  refine ⟨addition, live, member, record, patch, reason, changed id f owner, ⟨round,
    ⟨changed id f parent, ⟨name, hname, parent, hparent, rfl⟩, ?_⟩, owner, howner, rfl⟩,
    mono owner (mem_of_row? howner) success⟩
  rw [h.changed_round (mem_of_row? hparent), hround]

/-- A change of an unsettled row undoes no success. -/
lemma nodeSuccessfulWithin_update (depth : Nat) (hrow : row ∈ checkpoint.nodes)
    (success : checkpoint.nodeSuccessfulWithin depth row = true) :
    (checkpoint.update id f).nodeSuccessfulWithin depth (changed id f row) = true := by
  have length : (checkpoint.update id f).nodes.length = checkpoint.nodes.length := by
    simp [GraphCheckpoint.update]
  induction depth generalizing row with
  | zero =>
    rw [GraphCheckpoint.nodeSuccessfulWithin, length]
    exact walkRecovery_update h _ true hrow success
  | succ _ ih =>
    simp only [GraphCheckpoint.nodeSuccessfulWithin, Bool.or_eq_true, length] at success ⊢
    rcases success with (gate | panel) | direct
    · exact .inl (.inl (handledGate_update h (fun _ hmem => ih hmem) hrow gate))
    · exact .inl (.inr (handledPanel_update h (fun _ hmem => ih hmem) hrow panel))
    · exact .inr (walkRecovery_update h _ true hrow direct)

/-- A row that counts as a success still does after a change of an unsettled row. -/
lemma nodeSuccessful_update (hrow : row ∈ checkpoint.nodes)
    (success : checkpoint.nodeSuccessful row = true) :
    (checkpoint.update id f).nodeSuccessful (changed id f row) = true := by
  have length : (checkpoint.update id f).nodes.length = checkpoint.nodes.length := by
    simp [GraphCheckpoint.update]
  rw [GraphCheckpoint.nodeSuccessful, length]
  exact nodeSuccessfulWithin_update h _ hrow success

lemma Open.lookup_settled {name : Text} (found : checkpoint.row? name = some row)
    (settled : row.state.settled = true) : (checkpoint.update id f).row? name = some row := by
  rw [h.lookup, found, map_some, h.changed_settled (mem_of_row? found) settled]

end Updates

lemma settled_of_edge (ready : edge node parent row = .ready) : row.state.settled = true := by
  cases hs : row.state <;> simp_all [edge, NodeState.settled]

/-- A runnable node stays runnable while an unsettled row changes, its own among them. -/
lemma dependencyState_update (h : Open checkpoint id f) {plan : PlannedGraph}
    (runnable : dependencyState node plan checkpoint = none) :
    dependencyState node plan (checkpoint.update id f) = none := by
  rw [dependencyState_eq_none] at runnable ⊢
  obtain ⟨settled, complete, ready⟩ := runnable
  have parents : ∀ parent ∈ node.afterExpansion, ∃ row, checkpoint.row? parent = some row ∧
      row.state.settled = true := by
    intro parent hparent
    simp only [awaitsExpansion, List.any_eq_false, Bool.not_eq_true, Bool.not_eq_false',
      any_eq_true] at settled
    exact settled parent hparent
  refine ⟨?_, ?_, ?_⟩
  · simp only [awaitsExpansion, List.any_eq_false, Bool.not_eq_true, Bool.not_eq_false',
      any_eq_true]
    intro parent hparent
    obtain ⟨row, found, hs⟩ := parents parent hparent
    exact ⟨row, h.lookup_settled found hs, hs⟩
  · simp only [expansionCompleted, List.all_eq_true] at complete ⊢
    intro parent hparent
    obtain ⟨row, found, hs⟩ := parents parent hparent
    have done := complete parent hparent
    rw [found] at done
    rw [h.lookup_settled found hs]
    cases hp : plan.node? parent with
    | none => simp [hp] at done
    | some _ =>
      simp only [hp, completed, Bool.or_eq_true] at done ⊢
      refine done.imp_left fun success => ?_
      have mem := mem_of_row? found
      rw [← h.changed_settled mem hs]
      exact nodeSuccessful_update h mem success
  · intro parent hparent
    have hready := ready parent hparent
    unfold edgeAt at hready ⊢
    cases found : checkpoint.row? parent with
    | none => cases hp : plan.node? parent <;> simp [found, hp] at hready
    | some _ =>
      cases hp : plan.node? parent with
      | none => simp [found, hp] at hready
      | some _ =>
        simp only [found, hp] at hready
        rw [h.lookup_settled found (settled_of_edge hready)]
        exact hready

/-! ### Permitted launches -/

/-- Why a settled parent lets a node be launched. -/
inductive Permits (checkpoint : GraphCheckpoint) (node parent : GraphNode) (row : NodeProgress) :
    Prop
  | successful (h : checkpoint.nodeSuccessful row = true)
  /-- The parent did not succeed, but its dependants proceed all the same. -/
  | advisory (h : parent.advisory = true) (unsuccessful : checkpoint.nodeSuccessful row = false)
  /-- The node recovers from the failure of the parent. -/
  | recovery (target : parent.onFail = some node.id) (failed : row.state = .failed)
  /-- The parent is the failed gate of the round before. -/
  | round {own gate : LoopRound} (hn : node.round = some own) (hp : parent.round = some gate)
      (isUntil : gate.isUntil = true) (loop : own.loopId = gate.loopId)
      (next : own.round = gate.round + 1) (failed : row.state = .failed)

/-- The node belongs to a round of the loop that recovers from the failure of the parent. -/
def RecoveryRound (node parent : GraphNode) (row : NodeProgress) : Prop :=
  row.state = .failed ∧ ∃ own, node.round = some own ∧ parent.onFail = some own.loopId

/-- Every parent of the node is settled and lets it be launched. -/
def Released (plan : PlannedGraph) (checkpoint : GraphCheckpoint) (node : GraphNode) : Prop :=
  ∀ parent ∈ node.dependsOn ++ node.afterExpansion, ∃ parentNode row,
    plan.node? parent = some parentNode ∧ checkpoint.row? parent = some row ∧
      row.state.settled = true ∧
      (Permits checkpoint node parentNode row ∨ RecoveryRound node parentNode row)

/-- A succeeded row counts as a success. -/
lemma nodeSuccessful_of_succeeded (hrow : row ∈ checkpoint.nodes) (h : row.state = .succeeded) :
    checkpoint.nodeSuccessful row = true := by
  obtain ⟨n, hn⟩ := Nat.exists_eq_succ_of_ne_zero
    (Nat.ne_of_gt (List.length_pos_of_mem hrow))
  simp [GraphCheckpoint.nodeSuccessful, hn, GraphCheckpoint.nodeSuccessfulWithin,
    GraphCheckpoint.walkRecovery, h]

/-- An advisory parent permits the launch, whether it succeeded or not. -/
lemma permits_of_advisory (h : parent.advisory = true) : Permits checkpoint node parent row := by
  cases success : checkpoint.nodeSuccessful row with
  | true => exact .successful success
  | false => exact .advisory h success

/-- A ready edge of a node that is not a loop permits its launch. -/
lemma permits_of_edge (hrow : row ∈ checkpoint.nodes) (leaf : node.loopBody = none)
    (ready : edge node parent row = .ready) :
    Permits checkpoint node parent row ∨ RecoveryRound node parent row := by
  unfold edge at ready
  split at ready
  · -- the failed gate of the round before
    rename_i gate
    simp only [roundFailureEdge, leaf, isSome_none, Bool.false_and, Bool.or_false,
      Bool.and_eq_true, any_eq_true, beq_iff_eq] at gate
    obtain ⟨⟨round, hp, isUntil, own, hn, loop, next⟩, failed⟩ := gate
    exact .inl (.round hn hp isUntil loop next failed)
  · cases hs : row.state with
    | succeeded => exact .inl (.successful (nodeSuccessful_of_succeeded hrow hs))
    | failed =>
      cases ha : parent.advisory with
      | true => exact .inl (permits_of_advisory ha)
      | false =>
        simp only [hs, ha, Bool.false_eq_true, if_false] at ready
        split at ready
        next recovery =>
          simp only [recovers, any_eq_true, Bool.or_eq_true, beq_iff_eq] at recovery
          obtain ⟨target, hp, rfl | ⟨own, hn, rfl⟩⟩ := recovery
          · exact .inl (.recovery hp hs)
          · exact .inr ⟨hs, own, hn, hp⟩
        · split at ready <;> cases ready
    | blocked =>
      cases ha : parent.advisory with
      | true => exact .inl (permits_of_advisory ha)
      | false => simp [hs, ha] at ready
    | skipped | pending | running => simp [hs] at ready

/-- The parents of a runnable node permit its launch. -/
lemma released_of_dependencyState {plan : PlannedGraph} (leaf : node.loopBody = none)
    (runnable : dependencyState node plan checkpoint = none) : Released plan checkpoint node := by
  obtain ⟨settled, complete, ready⟩ := dependencyState_eq_none.1 runnable
  simp only [awaitsExpansion, List.any_eq_false, Bool.not_eq_true, Bool.not_eq_false',
    any_eq_true] at settled
  simp only [expansionCompleted, List.all_eq_true] at complete
  intro parent hparent
  rcases List.mem_append.1 hparent with hdep | hafter
  · have hready := ready parent hdep
    unfold edgeAt at hready
    split at hready
    next parentNode row hp found =>
      exact ⟨parentNode, row, hp, found, settled_of_edge hready,
        permits_of_edge (mem_of_row? found) leaf hready⟩
    · cases hready
  · obtain ⟨row, found, hs⟩ := settled parent hafter
    have done := complete parent hafter
    cases hp : plan.node? parent with
    | none => simp [hp] at done
    | some parentNode =>
      simp only [hp, found, completed, Bool.or_eq_true, Bool.and_eq_true] at done
      refine ⟨parentNode, row, rfl, found, hs, .inl ?_⟩
      rcases done with success | ⟨advisory, -⟩
      · exact .successful success
      · exact permits_of_advisory advisory

/-! ### Runs -/

variable {document : GraphDocument} {policy : ReviewPolicy}

/-- While a node is attempted it is unsettled, and no parent holds it back. -/
def Runnable (s : Driver document) : Prop :=
  ∀ index, s.phase = .attempting index → ∃ node row, s.plan.nodes[index]? = some node ∧
    s.checkpoint.row? node.id = some row ∧ row.state.settled = false ∧ node.loopBody = none ∧
      dependencyState node s.plan s.checkpoint = none

variable {s : Driver document}

lemma Runnable.of_outside (outside : ∀ index, s.phase ≠ .attempting index) : Runnable s :=
  fun index attempting => absurd attempting (outside index)

/-- A change of the attempted row that leaves it unsettled keeps the node runnable. -/
lemma Runnable.change {s' : Driver document} {index : Nat} (h : Runnable s)
    (attempting : Attempting s index node row) (keepsId : (f row).id = row.id)
    (keepsRound : (f row).round = row.round) (unsettled : (f row).state.settled = false)
    (plan : s'.plan = s.plan)
    (checkpoint : s'.checkpoint =
      { s.checkpoint.update node.id f with notes := s'.checkpoint.notes })
    (phase : s'.phase = .attempting index) : Runnable s' := by
  obtain ⟨_, _, placed, found, before, leaf, runnable⟩ := h index attempting.attempting
  cases attempting.placed.symm.trans placed
  cases attempting.row.symm.trans found
  have rowId := id_of_row? found
  have isOpen : Open s.checkpoint node.id f := by
    intro other hother same
    have unique := s.row?_of_mem hother
    rw [same] at unique
    cases found.symm.trans unique
    exact ⟨before, by rw [keepsId, rowId], keepsRound⟩
  intro i hi
  cases phase.symm.trans hi
  refine ⟨node, f row, ?_, ?_, unsettled, leaf, ?_⟩
  · rw [plan, placed]
  · rw [checkpoint]
    show (s.checkpoint.update node.id f).row? node.id = some (f row)
    rw [isOpen.lookup, found, map_some, changed, if_pos rowId]
  · rw [plan, checkpoint]
    exact (dependencyState_notes _ _ _ _).trans (dependencyState_update isOpen runnable)

/-- Every step keeps the attempted node runnable. -/
lemma Runnable.step {event : Event} {s' : Driver document} (h : Runnable s)
    (step : Step policy event s s') : Runnable s' := by
  cases step with
  | attempt dispatched moves =>
    intro i hi
    rename_i index node checkpoint
    cases moves.phase.symm.trans hi
    obtain ⟨-, row, found, unsettled, -, -, leaf, -, runnable⟩ := nodeAction_spec dispatched.action
    rw [moves.plan, moves.checkpoint]
    exact ⟨node, row, dispatched.placed, found, unsettled, leaf,
      (dependencyState_notes s.checkpoint _ node s.plan).trans runnable⟩
  | change attempting keeps unsettled moves =>
    exact h.change attempting keeps.id keeps.round unsettled moves.plan moves.checkpoint
      moves.phase
  | begin attempting _ _ _ _ plan checkpoint phase =>
    exact h.change attempting rfl rfl rfl plan checkpoint phase
  | cancel _ moves outside | note _ moves outside =>
    exact .of_outside fun i => moves.phase ▸ outside i
  -- every other step leaves the attempt loop
  | start _ moves | finish moves | pass _ _ _ _ moves | wait _ moves | settle _ _ _ _ moves
  | loop _ moves | leave _ _ moves | resume _ _ moves | deliver _ _ moves =>
    exact .of_outside fun i hi => by cases moves.phase.symm.trans hi
  | expand _ _ _ _ _ _ _ _ _ replans | patch _ _ _ replans | retry _ _ _ replans
  | redo _ _ _ _ replans | extend _ _ _ _ _ replans =>
    exact .of_outside fun i hi => by cases replans.phase.symm.trans hi

lemma Reachable.runnable (h : Reachable policy s) : Runnable s := by
  refine h.invariant (fun s initial index hi => ?_) fun _ _ _ _ runnable => runnable.step
  rw [initial.phase] at hi
  cases hi

/-- In every run, whenever a launch is recorded, every parent of its node is settled and
permits the launch: it succeeded, or it is advisory, or it failed and the node recovers from
that failure, itself or in a round of the loop that does, or it is the failed gate of the round
before. This holds when the launch is decided and when its record is saved. -/
theorem launch_released {key : AttemptKey} {s s' : Driver document} (reachable : Reachable policy s)
    (step : Step policy (.begin key) s s') :
    ∃ node, s.plan.node? key.nodeId = some node ∧ Released s.plan s.checkpoint node ∧
      Released s'.plan s'.checkpoint node := by
  have before := reachable.runnable
  have after := (reachable.step step).runnable
  cases step with
  | begin attempting candidate routed keyed needed plan checkpoint phase begun =>
    rename_i index node row reviewSubstitutions routeIndex facts route timing
    obtain ⟨name, -, -⟩ := attemptKey_of_needsRecord needed keyed
    have released : ∀ {t : Driver document}, Runnable t → t.phase = .attempting index →
        t.plan.nodes[index]? = some node → Released t.plan t.checkpoint node := by
      intro t runnable ht placed
      obtain ⟨_, _, placed', -, -, leaf, free⟩ := runnable index ht
      rw [placed] at placed'
      cases placed'
      exact released_of_dependencyState leaf free
    refine ⟨node, ?_, released before attempting.attempting attempting.placed,
      released after phase (by rw [plan]; exact attempting.placed)⟩
    rw [name]
    exact PlannedGraph.node?_of_mem (List.mem_of_getElem? attempting.placed)

/-! ### A loop that recovers from a gate

A review does not approve, so the gate on its verdict fails, and the loop that the gate names
recovers. -/

/-- No review text says anything. -/
def silentPolicy : ReviewPolicy :=
  { approved := fun _ => false
    blocking := fun _ => false
    designDefect := fun _ => false
    growsReview := fun _ => false
    sameFinding := fun _ _ => false
    lens := fun _ => none
    resolve := fun _ _ _ => []
    parse := fun _ _ _ => none }

/-- A route without a pinned account. -/
def anyRoute : GraphRoute := { adapter := text "codex", account := none }

/-- A review, a gate on its verdict, and a loop that recovers from the gate. -/
def recoveryDocument : GraphDocument :=
  { graphId := text "recovery"
    nodes := [
      { id := text "review", routes := [anyRoute] },
      { id := text "gate", dependsOn := [text "review"], condition := some .verdict
        onFail := some (text "repair")
        inputs := [{ node := text "review", outputs := [.verdict] }] },
      { id := text "repair", dependsOn := [text "gate"]
        loopBody := some {
          body := [{ id := text "work", routes := [anyRoute] },
            { id := text "done", dependsOn := [text "work"], condition := some .verdict }]
          untilGate := text "done", maxRounds := 1, repair := false } }] }

/-- The unrolled document, which is in dependency order. -/
def recoveryPlan : PlannedGraph :=
  { graphId := text "recovery"
    nodes := ((expand recoveryDocument [] []).map (·.nodes)).getD [] }

/-- A state of a run of the document, without extensions and expansions. -/
def recoveryState (phase : Phase) (askActor : Option Text) (nodes : List NodeProgress)
    (begun : List AttemptKey)
    (aligned : nodes.map (·.id) = recoveryPlan.nodes.map (·.id) := by rfl) :
    Driver recoveryDocument :=
  { plan := recoveryPlan
    checkpoint := { nodes, notes := { askActor } }
    phase, begun
    planned := ⟨_, rfl, rfl, rfl, rfl, .refl _⟩
    aligned }

/-- The first launch of a node. -/
def firstKey (node : Text) : AttemptKey :=
  { graphId := text "recovery", nodeId := node, routeIndex := 0, retryGeneration := none
    previousAttemptRef := none }

/-- The row of the review once it ended without an approval. -/
def reviewedRow : NodeProgress :=
  { id := text "review", state := .succeeded
    attempts := [{
      key := firstKey (text "review"), route := anyRoute, state := .terminal
      outcome := some .succeeded }]
    outputs := some { verdict := some (text "revise") } }

/-- The row of the gate once it failed. -/
def failedGateRow : NodeProgress :=
  { id := text "gate", state := .failed
    gate := some { passed := false, onFail := some (text "repair") } }

/-- The rows of the loop, before it starts. -/
def loopRows : List NodeProgress := (recoveryPlan.nodes.drop 2).map freshRow

/-- The state in which the first node of the loop is attempted. -/
def recovering : Driver recoveryDocument :=
  recoveryState (.attempting 2) (some (text "owner")) (reviewedRow :: failedGateRow :: loopRows)
    [firstKey (text "review")]

/-- Nothing was observed yet. -/
def nothingObserved : LaunchFacts :=
  { clock := none, accepted := false, fallbackAllowed := false, unreadable := false }

lemma nextAttempt_of_unattempted (unattempted : row.attempts = [])
    (noRetry : row.launchRetry = none) : nextAttempt node row 0 nothingObserved = .candidate 0 := by
  simp [nextAttempt, nextRoute, waitsForWake, launchRetryExpired, unattempted, noRetry]

/-- The run that leads there: the review is launched and ends, and the gate fails. -/
lemma reachable_recovering : Reachable silentPolicy recovering := by
  let fresh := recoveryPlan.nodes.map freshRow
  have initial : Initial (recoveryState .idle none fresh []) :=
    ⟨rfl, rfl, rfl, rfl, List.forall₂_map_right_iff.2 (List.forall₂_same.2 fun node _ =>
      .inl ⟨(freshRow node).notes, rfl⟩)⟩
  exact ⟨_, initial, @run_of_play _ silentPolicy recoveryPlan _
    (fun s s' => ∃ event, Step silentPolicy event s s') (fun _ _ _ => true) (fun s _ => s)
    (fun _ _ step _ => ⟨_, step⟩) [.note { askActor := some (text "owner") }, .start, .attempt,
      .begin nothingObserved, .leave reviewedRow, .settle failedGateRow, .attempt] _ recovering []
    [((recoveryState .idle (some (text "owner")) fresh []).checkpoint, firstKey (text "review"))]
    rfl rfl (by decide +kernel)⟩

/-- The node at work in the recovering loop. -/
def recoveringNode : GraphNode :=
  roundNode (recoveryDocument.nodes.getD 2 { id := [] })
    { body := [{ id := text "work", routes := [anyRoute] },
        { id := text "done", dependsOn := [text "work"], condition := some .verdict }]
      untilGate := text "done", maxRounds := 1, repair := false }
    1 { id := text "work", routes := [anyRoute] }

/-- The state after the first launch of the loop. -/
def recovered : Driver recoveryDocument :=
  recoveryState (.attempting 2) (some (text "owner"))
    (reviewedRow :: failedGateRow ::
      beginAttempt recoveringNode (firstKey recoveringNode.id) anyRoute none
        (freshRow recoveringNode) :: loopRows.drop 1)
    [firstKey recoveringNode.id, firstKey (text "review")]

lemma step_recovering :
    Step silentPolicy (.begin (firstKey recoveringNode.id)) recovering recovered :=
  .begin ⟨rfl, rfl, rfl⟩ (nextAttempt_of_unattempted rfl rfl) rfl rfl rfl rfl rfl rfl rfl

/-- The launch in the recovering loop is one of the permitted ones. -/
theorem recovering_released :
    ∃ node, recovering.plan.node? (firstKey recoveringNode.id).nodeId = some node ∧
      Released recovering.plan recovering.checkpoint node ∧
      Released recovered.plan recovered.checkpoint node :=
  launch_released reachable_recovering step_recovering

/-- The launch in the recovering loop rests on a parent that neither succeeded nor is advisory,
that names another recovery target than the launched node, and that is no gate of a round. -/
theorem recovering_not_permitted :
    Reachable silentPolicy recovering ∧
      Step silentPolicy (.begin (firstKey recoveringNode.id)) recovering recovered ∧
      ∃ node parent row, recovering.plan.node? (firstKey recoveringNode.id).nodeId = some node ∧
        text "gate" ∈ node.dependsOn ∧ recovering.plan.node? (text "gate") = some parent ∧
        recovering.checkpoint.row? (text "gate") = some row ∧
        ¬ Permits recovering.checkpoint node parent row := by
  refine ⟨reachable_recovering, step_recovering, _, _, _, rfl, by decide, rfl, rfl, ?_⟩
  rintro (success | ⟨advisory, -⟩ | ⟨target, -⟩ | ⟨-, round, -, -, -, -⟩)
  · revert success; decide
  · revert advisory; decide
  · revert target; decide
  · cases round

end Provenant.Graph

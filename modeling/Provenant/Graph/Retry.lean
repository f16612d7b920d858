import Provenant.Graph.Expand
import Provenant.Graph.Notes

/-!
# Admission and redo

How progress rows follow the plan. An admitted expansion is recorded and the rows are aligned
with the new plan: rows keep their progress, new nodes get fresh rows. A redo resets the rows
of a node, of what is inside it and possibly of everything that depends on it; expansions that
the redone producers contributed are retired together with their rows, and a later row of the
same identifier continues after the generations that were retired.

## Main definitions

* `rebind`, `reconcile`, `commit` — rows follow an admitted plan.
* `dynamicSubtree` — retirement of what was produced inside a node.
* `resetProgress` — the row of a redone node.
* `resetIds`, `retryCandidate` — what a redo resets, and the checkpoint it leads to.

## Implementation notes

The envelope check on admission bounds the size of the whole checkpoint; what the model keeps
of it is that there are no more expansions than bytes.
-/

namespace Provenant.Graph

open List Option

open Json (Text text decimal)

/-! ### Rows follow the plan -/

/-- The generation a row is at; a row that was never redone is at generation zero. -/
def NodeProgress.generation (row : NodeProgress) : Nat := row.retryGeneration.getD 0

/-- The retired rows of an identifier. -/
def retiredRows (expansions : List Expansion) (id : Text) : List NodeProgress :=
  expansions.flatMap fun
    | .live _ => []
    | .retired _ progress => progress.filter (·.id == id)

/-- The greatest generation of some rows. -/
def maxGeneration (rows : List NodeProgress) : Nat :=
  rows.foldl (fun generation row => max generation row.generation) 0

/-- `rebind`: a fresh row that reuses a retired identifier takes over the history and the next
generation, which is a 64-bit number. -/
def rebind (expansions : List Expansion) (row : NodeProgress) : NodeProgress :=
  match (retiredRows expansions row.id).getLast? with
  | none => row
  | some last =>
    { row with
      retryGeneration := some ((maxGeneration (retiredRows expansions row.id) + 1) % 2 ^ 64)
      containerRetry := true
      previousAttempts := last.previousAttempts ++ last.attempts }

/-- The row of a node that has not run. -/
def freshRow (node : GraphNode) : NodeProgress :=
  { id := node.id
    round := node.round
    children := node.compositeMembers
    minSuccessful := node.composite.bind (·.minSuccessful)
    notes := {
      worktree := node.worktree
      sourceBinding := node.source
      sourceCommit :=
        match node.source with
        | some (.commit commit) => some commit
        | _ => none
      writerBindingPending := node.writer
      reviewBasePending := node.requestsReviewBase } }

/-- The row of a node under a new plan. -/
def alignRow (checkpoint : GraphCheckpoint) (node : GraphNode) : NodeProgress :=
  match checkpoint.row? node.id with
  | some row =>
    match node.composite with
    | some composite =>
      { row with children := node.compositeMembers, minSuccessful := composite.minSuccessful }
    | none => row
  | none => rebind checkpoint.expansions (freshRow node)

/-- `reconcile`: one row for each node of the plan, in its order. -/
def reconcile (checkpoint : GraphCheckpoint) (plan : PlannedGraph) : GraphCheckpoint :=
  { checkpoint with nodes := plan.nodes.map (alignRow checkpoint) }

/-- The reason recorded in a row that a patch skips. -/
def skippedBy (revision : Nat) : Text := text "skipped by patch revision " ++ decimal revision

/-- `commit`: record an addition, align the rows and skip the targets of the patch. -/
def commit (checkpoint : GraphCheckpoint) (addition : Addition) (plan : PlannedGraph) :
    GraphCheckpoint :=
  let skipped := (addition.patch.map (·.skipped)).getD []
  let revision := checkpoint.expansions.length + 1
  let aligned := reconcile
    { checkpoint with expansions := checkpoint.expansions ++ [.live addition] } plan
  { aligned with
    nodes := aligned.nodes.map fun row =>
      if skipped.contains row.id then
        { row with state := .skipped, skipReason := some (skippedBy revision) }
      else row }

/-! ### Retirement -/

/-- The addition was produced inside the node of an identifier. -/
def producedIn (id : Text) (addition : Addition) : Bool :=
  !addition.nodes.isEmpty && (addition.source == id || inside id addition.source)

/-- The identifiers that are retired with the subtree of a node. -/
def retiredIds (checkpoint : GraphCheckpoint) (id : Text) : List Text :=
  ((liveAdditions checkpoint.expansions).filter (producedIn id)).flatMap fun a => ids a.nodes

/-- A template instance without its retired nodes, unless nothing is left of it. -/
def TemplateUse.retain (retired : List Text) (use : TemplateUse) : Option TemplateUse :=
  let kept := use.nodes.filter fun node => !retired.contains node
  if use.nodes.isEmpty || !kept.isEmpty then some { use with nodes := kept } else none

/-- A patch that edits retired nodes loses those edits. -/
def dropEdits (retired : List Text) (addition : Addition) : Addition :=
  { addition with
    uses := if addition.patch.isSome then addition.uses.filterMap (·.retain retired)
      else addition.uses
    patch := addition.patch.map fun record =>
      { record with
        replaced := record.replaced.filter fun node => !retired.contains node.id
        skipped := record.skipped.filter fun name => !retired.contains name } }

/-- A row that a retirement keeps forgets the snapshots of the retired rows. -/
def forgetRetired (retired : List Text) (row : NodeProgress) : NodeProgress :=
  { row with snapshots := row.snapshots.filter fun prior => !retired.contains prior.id }

@[simp]
lemma id_forgetRetired (retired : List Text) (row : NodeProgress) :
    (forgetRetired retired row).id = row.id := rfl

/-- `dynamic_subtree`: every live expansion produced inside `id` becomes a tombstone that keeps
its rows, and those rows leave the checkpoint. -/
def dynamicSubtree (checkpoint : GraphCheckpoint) (id : Text) : GraphCheckpoint :=
  let retired := retiredIds checkpoint id
  { checkpoint with
    expansions := checkpoint.expansions.map fun expansion =>
      match expansion with
      | .live addition =>
        if producedIn id addition then
          .retired addition (addition.nodes.filterMap fun node => checkpoint.row? node.id)
        else .live (dropEdits retired addition)
      | .retired .. => expansion
    nodes := (checkpoint.nodes.filter fun row => !retired.contains row.id).map
      (forgetRetired retired) }

/-! ### Redo -/

/-- `reset_progress`: the row of a redone node. It fails when generations are exhausted. -/
def resetProgress (container : Bool) (row : NodeProgress) : Option NodeProgress :=
  if row.generation + 1 < 2 ^ 64 then
    some {
      id := row.id
      round := row.round
      previousAttempts := row.previousAttempts ++ row.attempts
      retryGeneration := some (row.generation + 1)
      containerRetry := container
      notes := {
        worktree := row.notes.worktree
        writerBinding := row.notes.writerBinding
        sourceBinding := row.notes.sourceBinding
        sourceCommit := row.notes.sourceCommit
        reviewBase := row.notes.reviewBase } }
  else none

/-- The redo of `id` redoes this container as a whole; a container around `id` is only
recomputed. -/
def redoContainer (id : Text) (node : GraphNode) : Bool :=
  (node.composite.isSome || node.loopBody.isSome) && (node.id == id || !inside node.id id)

/-- The redo of `id` retires what this node produced. -/
def redoTopology (checkpoint : GraphCheckpoint) (id : Text) (dependants : Bool)
    (node : GraphNode) : Bool :=
  redoContainer id node ||
    (dependants && (node.id == id || !inside node.id id) &&
      (node.plan.isSome || (liveAdditions checkpoint.expansions).any fun addition =>
        addition.source == node.id && addition.closesProducer))

/-- One pass of the closure over dependants and redone subtrees. -/
def resetPass (nodes : List GraphNode) (redone : GraphNode → Bool) (names : List Text) :
    List Text :=
  let owners := (nodes.filter fun node => names.contains node.id && redone node).map (·.id)
  nodes.foldl
    (fun names node =>
      if node.dependencies.any names.contains || owners.any fun owner => inside owner node.id then
        addName names node.id
      else names)
    names

/-- The identifiers that a redo resets. -/
def resetIds (expanded : GraphDocument) (checkpoint : GraphCheckpoint) (node : GraphNode)
    (dependants : Bool) : List Text :=
  let own := if node.composite.isSome || node.loopBody.isSome then
    (expanded.nodes.filter fun item => inside node.id item.id).map (·.id) else []
  let start := own.foldl addName [node.id]
  if dependants then
    (resetPass expanded.nodes (redoTopology checkpoint node.id true))^[expanded.nodes.length] start
  else start

lemma subset_addName (names : List Text) (name : Text) : names ⊆ addName names name := by
  unfold addName
  split
  · exact List.Subset.refl names
  · exact subset_append_left names [name]

lemma subset_resetPass (nodes : List GraphNode) (redone : GraphNode → Bool) (names : List Text) :
    names ⊆ resetPass nodes redone names := by
  refine foldlRecOn _ _ (List.Subset.refl names)
    fun found kept node _ => ?_
  split
  · exact List.Subset.trans kept (subset_addName found node.id)
  · exact kept

/-- A redo resets the node that it is about. -/
lemma self_mem_resetIds (expanded : GraphDocument) (checkpoint : GraphCheckpoint)
    (node : GraphNode) (dependants : Bool) :
    node.id ∈ resetIds expanded checkpoint node dependants := by
  have start (own : List Text) : node.id ∈ own.foldl addName [node.id] :=
    foldlRecOn own _ mem_cons_self
      fun names member name _ => subset_addName names name member
  unfold resetIds
  dsimp only
  split
  · exact Function.Iterate.rec (node.id ∈ ·) (start _)
      (fun _ member => subset_resetPass _ _ _ member) _
  · exact start _

/-- `refused_before_launch`: the host proved that no attempt of the row was accepted. -/
def refusedBeforeLaunch (row : NodeProgress) : Bool :=
  row.state == .blocked && row.advanceErrorCode == some (text "launch_refused") &&
    (row.attempts.filter fun attempt => attempt.state != .terminal).all fun attempt =>
      attempt.refusalProof && !attempt.launched && attempt.attemptRef.isNone &&
        attempt.state == .starting

/-- Some attempt of the row has not ended. -/
def NodeProgress.live (row : NodeProgress) : Bool :=
  row.attempts.any fun attempt => attempt.state != .terminal

/-- The row may be reset: no attempt of it can still be running. -/
def resettable (row : NodeProgress) : Bool :=
  !row.live || (row.state == .skipped && row.cancelledFrom.isSome) || refusedBeforeLaunch row

/-- A redo of a cancelled graph reopens it without resurrecting the rest. -/
def reopenCancelled (checkpoint : GraphCheckpoint) : Option GraphCheckpoint :=
  if checkpoint.cancelled then
    if checkpoint.nodes.any fun row => !row.state.settled && row.live then none
    else some { checkpoint with
      cancelled := false
      nodes := checkpoint.nodes.map fun row =>
        if row.cancelledFrom.isSome && row.state == .skipped then
          { row with skipReason := some (text "parent graph cancelled") }
        else row }
  else some checkpoint

/-- What a settled consumer remembers of a row that is redone. -/
def NodeProgress.snapshot (row : NodeProgress) : RowRecord :=
  { row.toRowRecord with previousAttempts := [] }

/-- What was remembered first stays. -/
def addSnapshots (known priors : List RowRecord) : List RowRecord :=
  known ++ priors.filter fun prior => !known.any fun other => other.id == prior.id

/-- The identifiers that depend on some of `names`, directly or through others. -/
def affectedIds (expanded : GraphDocument) (names : List Text) : List Text :=
  (resetPass expanded.nodes fun _ => false)^[expanded.nodes.length] names

/-- The settled consumers that a redo does not reset remember the rows that they observed. -/
def rememberPriors (expanded : GraphDocument) (names : List Text) (old : List NodeProgress)
    (checkpoint : GraphCheckpoint) : GraphCheckpoint :=
  let affected := affectedIds expanded names
  let priors := (old.filter fun row => names.contains row.id && row.state.settled).map (·.snapshot)
  { checkpoint with
    nodes := checkpoint.nodes.map fun row =>
      if !names.contains row.id && affected.contains row.id && row.state.settled then
        { row with snapshots := addSnapshots row.snapshots priors }
      else row }

/-- The reset rows lie inside a container that is redone as a whole. -/
def resetInContainer (expanded : GraphDocument) (names : List Text) (id : Text)
    (row : NodeProgress) : Bool :=
  expanded.nodes.any fun node =>
    names.contains node.id && redoContainer id node && (node.id == row.id || inside node.id row.id)

/-- The reset of the rows that a redo names. -/
def resetRows (expanded : GraphDocument) (names : List Text) (id : Text)
    (checkpoint : GraphCheckpoint) : Option GraphCheckpoint := do
  let rows ← checkpoint.nodes.mapM fun row =>
    if names.contains row.id then resetProgress (resetInContainer expanded names id row) row
    else some row
  return { checkpoint with nodes := rows }

/-- Terminal loop decisions belong to the old execution; round allowances stay. -/
def dropDecisions (names : List Text) (extensions : List Extension) : List Extension :=
  extensions.filter fun
    | .decision loop _ => !names.contains loop
    | .rounds .. | .other .. => true

/-- The record under which a redo of a node is admitted. -/
def retryAddition (node : GraphNode) (reason : Text) : Addition :=
  { source := []
    nodes := []
    patch := some { parent := none, reason := some reason, skipped := [], replaced := [node] } }

/-- The identifiers whose subtrees a redo retires. -/
def redoOwners (expanded : GraphDocument) (checkpoint : GraphCheckpoint) (id : Text)
    (dependants : Bool) (names : List Text) : List Text :=
  (expanded.nodes.filter fun item =>
    names.contains item.id && redoTopology checkpoint id dependants item).map (·.id)

/-- A node is redone under a new brief. -/
def withBrief (brief : Option Text) (node : GraphNode) : GraphNode :=
  { node with prompt := brief.getD node.prompt }

/-- The redo of a container or of dependants ends the decisions and the questions of the old
execution. -/
def closeExecution (names : List Text) (checkpoint : GraphCheckpoint) : GraphCheckpoint :=
  refreshPause { checkpoint with
    extensions := dropDecisions names checkpoint.extensions
    notes := { checkpoint.notes with
      asks := checkpoint.notes.asks.filter fun ask => ask.node.all fun id => !names.contains id } }

/-- `retry_node_scope` up to its admission: the checkpoint in which the redo is admitted, and
the node that it redoes. -/
def retryCandidate (document : GraphDocument) (checkpoint : GraphCheckpoint) (id : Text)
    (brief : Option Text) (dependants : Bool) : Option (GraphCheckpoint × GraphNode) := do
  let expanded ← expand document checkpoint.extensions checkpoint.expansions
  let node ← expanded.nodes.find? (·.id == id)
  let row ← checkpoint.row? id
  let container := node.composite.isSome || node.loopBody.isSome
  guard (!(container && brief.isSome))
  let names := resetIds expanded checkpoint node dependants
  guard (checkpoint.nodes.all fun row => !names.contains row.id || resettable row)
  guard row.state.settled
  let reopened ← reopenCancelled checkpoint
  let remembered := rememberPriors expanded names checkpoint.nodes reopened
  let pruned := (redoOwners expanded checkpoint id dependants names).foldl dynamicSubtree remembered
  -- the retired expansions take their wiring with them
  let wired ← expand document pruned.extensions pruned.expansions
  let node ← wired.nodes.find? (·.id == id)
  let reset ← resetRows expanded names id pruned
  return (if container || dependants then closeExecution names reset else reset,
    withBrief brief node)

/-- What an accepted redo goes through: it reopens a cancelled graph, lets the consumers remember
what they observed, retires the subtrees of the redone producers and resets rows. -/
structure Redone (document : GraphDocument) (checkpoint : GraphCheckpoint) (id : Text)
    (dependants : Bool) (candidate : GraphCheckpoint) (expanded : GraphDocument)
    (target : GraphNode) (reopened reset : GraphCheckpoint) : Prop where
  planned : expand document checkpoint.extensions checkpoint.expansions = some expanded
  found : expanded.nodes.find? (·.id == id) = some target
  settled : ∃ row, checkpoint.row? id = some row ∧ row.state.settled = true
  resettable : ∀ row ∈ checkpoint.nodes,
    row.id ∈ resetIds expanded checkpoint target dependants → Graph.resettable row = true
  reopens : reopenCancelled checkpoint = some reopened
  resets : resetRows expanded (resetIds expanded checkpoint target dependants) id
    ((redoOwners expanded checkpoint id dependants
      (resetIds expanded checkpoint target dependants)).foldl dynamicSubtree
        (rememberPriors expanded (resetIds expanded checkpoint target dependants)
          checkpoint.nodes reopened)) = some reset
  result : candidate = reset ∨
    candidate = closeExecution (resetIds expanded checkpoint target dependants) reset

/-- What is closed loses its decisions and its questions. -/
lemma closeExecution_spec (names : List Text) (checkpoint : GraphCheckpoint) :
    let closed := closeExecution names checkpoint
    closed.nodes = checkpoint.nodes ∧ closed.expansions = checkpoint.expansions ∧
      closed.extensions = dropDecisions names checkpoint.extensions ∧
      closed.notes.pauseAsks = checkpoint.notes.pauseAsks ∧
      closed.notes.asks =
        checkpoint.notes.asks.filter fun ask => ask.node.all fun id => !names.contains id := by
  unfold closeExecution refreshPause
  split <;> exact ⟨rfl, rfl, rfl, rfl, rfl⟩

variable {document : GraphDocument} {checkpoint candidate : GraphCheckpoint} {id : Text}
  {dependants : Bool} {expanded : GraphDocument} {target : GraphNode}
  {reopened reset : GraphCheckpoint}

section Candidate

variable (h : Redone document checkpoint id dependants candidate expanded target reopened reset)
include h

lemma Redone.nodes : candidate.nodes = reset.nodes := by
  rcases h.result with rfl | rfl
  · rfl
  · exact (closeExecution_spec _ _).1

lemma Redone.expansions : candidate.expansions = reset.expansions := by
  rcases h.result with rfl | rfl
  · rfl
  · exact (closeExecution_spec _ _).2.1

lemma Redone.extensions :
    candidate.extensions = reset.extensions ∨ candidate.extensions =
      dropDecisions (resetIds expanded checkpoint target dependants) reset.extensions := by
  rcases h.result with rfl | rfl
  · exact .inl rfl
  · exact .inr (closeExecution_spec _ _).2.2.1

end Candidate

lemma resetRows_eq_some {names : List Text}
    (h : resetRows expanded names id checkpoint = some reset) :
    ∃ rows, (checkpoint.nodes.mapM fun row =>
        if names.contains row.id then resetProgress (resetInContainer expanded names id row) row
        else some row) = some rows ∧ reset = { checkpoint with nodes := rows } := by
  obtain ⟨rows, mapped, same⟩ := bind_eq_some_iff.1 h
  exact ⟨rows, mapped, (some.inj same).symm⟩

lemma retryCandidate_eq_some {brief : Option Text} {node : GraphNode}
    (h : retryCandidate document checkpoint id brief dependants = some (candidate, node)) :
    ∃ expanded target reopened reset,
      Redone document checkpoint id dependants candidate expanded target reopened reset ∧
        candidate = if (target.composite.isSome || target.loopBody.isSome) || dependants then
          closeExecution (resetIds expanded checkpoint target dependants) reset else reset := by
  unfold retryCandidate at h
  simp only [bind_eq_bind, bind_eq_some_iff, guard_eq_some', Option.pure_def,
    some.injEq, Prod.mk.injEq, exists_and_left] at h
  obtain ⟨expanded, planned, target, found, row, rowFound, -, allowed, settled, -, -, -, reopened,
    reopens, _, -, _, -, reset, resets, rfl, -⟩ := h
  refine ⟨expanded, target, reopened, reset,
    ⟨planned, found, ⟨row, rowFound, settled⟩, ?_, reopens, resets, ?_⟩, rfl⟩
  · intro row hrow member
    have either := List.all_eq_true.1 allowed row hrow
    simp only [contains_iff_mem.2 member, Bool.not_true, Bool.false_or] at either
    exact either
  · split
    · exact .inr rfl
    · exact .inl rfl

/-! ### Automatic redo -/

/-- `no_work_reason`: the reason under which a writer that stopped without work is continued. -/
def noWorkReason (id : Text) : Text :=
  text "continue node " ++ id ++ text " after stop with no work"

/-- `unfenced_stop`: the writer stopped without work and may be continued. -/
def unfencedStop (row : NodeProgress) : Bool :=
  row.advanceErrorCode == some (text "stopped_no_work") && !row.notes.stopFence

/-- `no_work::eligible`: the writer stopped without work and was not continued before. -/
def noWorkEligible (node : GraphNode) (row : NodeProgress) (checkpoint : GraphCheckpoint) : Bool :=
  !checkpoint.cancelled && checkpoint.notes.pauseReason.isNone && node.access == .worktreeWrite &&
    node.autoContinueNoWork.getD true && row.state == .failed && unfencedStop row &&
    !(liveAdditions checkpoint.expansions).any fun addition =>
      addition.patch.any fun record => record.reason == some (noWorkReason node.id)

/-- `retain_automatic_retry_accounting`: an automatic redo keeps the sealed allowance and what
was spent of it. -/
def retainAccounting (prior : NodeProgress) (row : NodeProgress) : NodeProgress :=
  { row with
    retry := prior.retry.or row.retry
    quotaRedrawSpent := prior.quotaRedrawSpent + prior.attempts.countP (·.launched) +
      if prior.attempts.getLast?.any fun last => !last.launched then 1 else 0 }

end Provenant.Graph

import Mathlib.Logic.Relation
import Provenant.Graph.Resume
import Provenant.Graph.Retry

/-!
# Runs of the graph driver

The driver visits the nodes of the plan in order, dispatches each one, and saves every change
before the next effect. Between its passes the graph can be patched, extended, redone,
cancelled and resumed. This file has the driver as a relation on its states: a step is one
saved change.

## Main definitions

* `Driver` — a state: the plan, the checkpoint, where the pass stands, and the launches begun.
* `Keeps` — the part of a row that settling it and observing its attempts leave alone.
* `Addition.Admissible` — the edits that an admitted addition may make.
* `Event`, `Step` — the steps of a run.
* `Initial`, `Reachable` — runs of a graph.

## Implementation notes

A change that is not saved is lost with the error that prevented the save, so a launch counts
as begun when its record is saved; the launch itself only follows the save. How a gate, a
decision, a composite or a landing settles its own row, and what the host reports about an
attempt, is left open: any change of that one row that keeps its identity is allowed. The notes
of the host change with every save, and are left open as well.
-/

namespace Provenant.Graph

open Json (Text text)

/-! ### States -/

/-- Where the driver stands. -/
inductive Phase
  /-- Between passes. -/
  | idle
  /-- A pass has come to the node at an index. -/
  | visiting (index : Nat)
  /-- The node at an index is being attempted. -/
  | attempting (index : Nat)
  deriving DecidableEq

/-- A state of the driver. The plan is derived from the document and the checkpoint, and there
is one row per node of the plan. -/
structure Driver (document : GraphDocument) where
  plan : PlannedGraph
  checkpoint : GraphCheckpoint
  phase : Phase
  /-- The launches begun so far, the latest first. -/
  begun : List AttemptKey
  planned : ∃ expanded, expand document checkpoint.extensions checkpoint.expansions = some expanded ∧
    Plans expanded plan
  aligned : checkpoint.nodes.map (·.id) = plan.nodes.map (·.id)

/-- `may_ask`: the plan can raise a question. -/
def mayAsk (plan : PlannedGraph) : Bool :=
  plan.nodes.any fun node => node.loopBody.isSome || node.decide || node.land

/-- The identity of a row, which settling the node and observing its attempts leave alone. -/
structure Keeps (row row' : NodeProgress) : Prop where
  id : row'.id = row.id
  round : row'.round = row.round
  generation : row'.retryGeneration = row.retryGeneration
  containerRetry : row'.containerRetry = row.containerRetry
  previousAttempts : row'.previousAttempts = row.previousAttempts
  keys : row'.attempts.map (·.key) = row.attempts.map (·.key)

variable {document : GraphDocument}

lemma Driver.nodup (s : Driver document) : (s.checkpoint.nodes.map (·.id)).Nodup := by
  rw [s.aligned]
  exact s.plan.nodup

/-- A row is found under its identifier. -/
lemma Driver.row?_of_mem (s : Driver document) {row : NodeProgress}
    (h : row ∈ s.checkpoint.nodes) : s.checkpoint.row? row.id = some row := by
  cases found : s.checkpoint.row? row.id with
  | none => simp [GraphCheckpoint.row?] at found; exact absurd rfl (found row h)
  | some _ =>
    have same := List.inj_on_of_nodup_map s.nodup (GraphCheckpoint.mem_of_row? found) h
      (GraphCheckpoint.id_of_row? found)
    rw [same]

/-! ### Changes between passes -/

/-- The row of a node that has not started: it may still be edited. -/
def unstarted (checkpoint : GraphCheckpoint) (id : Text) : Bool :=
  (checkpoint.row? id).any fun row => row.state == .pending && row.attempts.isEmpty

/-- A node whose topology other nodes rest on. -/
def structural (node : GraphNode) : Bool :=
  node.composite.isSome || node.loopBody.isSome || node.plan.isSome || node.round.isSome ||
    !node.compositeMembers.isEmpty

/-- What the preparation of a patch checks of its edits: only unstarted nodes are skipped or
replaced, only leaves are replaced, and added identifiers are new. -/
structure Addition.Admissible (addition : Addition) (expanded : GraphDocument)
    (checkpoint : GraphCheckpoint) : Prop where
  skipped : ∀ record ∈ addition.patch, ∀ id ∈ record.skipped, unstarted checkpoint id
  replaced : ∀ record ∈ addition.patch, ∀ node ∈ record.replaced,
    unstarted checkpoint node.id ∧ ¬ structural node ∧
      ∀ target ∈ expanded.nodes, target.id = node.id → ¬ structural target
  fresh : ∀ node ∈ addition.nodes, node.id ∉ ids expanded.nodes

/-- What the envelope check implies: an expansion takes at least one byte. -/
def fitsEnvelope (expansions : List Expansion) : Prop := expansions.length ≤ maxCheckpointBytes

/-- Cancellation of a row: an unsettled row is skipped, or waits for its attempt to stop; a writer
that stopped without work is not continued. -/
inductive Cancels (row : NodeProgress) : NodeProgress → Prop
  | keep : Cancels row row
  | skip (reason : Text) (notes : RowNotes) (h : row.state.settled = false) :
      Cancels row { row with
        state := .skipped, cancelledFrom := some row.state, skipReason := some reason, notes }
  | hold (reason : Option Text) (notes : RowNotes) (h : row.state.settled = false)
      (live : row.live = true) :
      Cancels row { row with subtreeCancel := true, skipReason := reason, notes }
  | exempt (b : Bool) : Cancels row { row with detachedFromCancel := b }
  | fence (notes : RowNotes) (h : row.state = .failed) : Cancels row { row with notes }

/-- The last part of a reference, after its last slash. -/
def refTail (reference : Text) : Text := (reference.reverse.takeWhile (· ≠ 47)).reverse

/-- The last attempt of the row is the one that was delivered after it had failed. -/
def deliveredRow (attempt : Text) (row : NodeProgress) : Bool :=
  row.state == .failed && row.attempts.getLast?.any fun last =>
    (last.outcome == some .otherFailure || last.outcome == some .reviewRequired) &&
      last.attemptRef.map refTail == some attempt

/-- The delivered attempt starts again. -/
def reopenRow (row : NodeProgress) : NodeProgress :=
  { row with
    state := .running
    attempts := row.attempts.dropLast ++
      row.attempts.getLast?.toList.map fun last =>
        { last with state := .starting, outcome := none } }

/-- `reopen_after_delivery`: a failed loop around a delivered attempt waits again, unless its
owner stopped it. -/
def reopenLoop (loops : List Text) (extensions : List Extension) (row : NodeProgress) :
    NodeProgress :=
  if loops.contains row.id && row.state == .failed &&
      !extensions.contains (.decision row.id .stop) then
    { row with state := .pending, outputs := none }
  else row

/-- A blocked row waits again. -/
def unblock (row : NodeProgress) : NodeProgress :=
  if row.state = .blocked then { row with state := .pending } else row

/-- `retry_delivered_attempt` on the checkpoint of one graph: the delivered attempts start
again, the loops around them are reopened and blocked rows wait again. -/
def retryDelivered (attempt : Text) (checkpoint : GraphCheckpoint) : GraphCheckpoint :=
  let loops := (checkpoint.nodes.filter (deliveredRow attempt)).filterMap fun row =>
    row.round.map (·.loopId)
  { checkpoint with
    nodes := checkpoint.nodes.map fun row =>
      unblock (reopenLoop loops checkpoint.extensions
        (if deliveredRow attempt row then reopenRow row else row)) }

/-- The addition is admitted into the graph under a new plan. -/
structure Admits (document : GraphDocument) (checkpoint : GraphCheckpoint) (addition : Addition)
    (plan : PlannedGraph) : Prop where
  planned : ∃ expanded, expand document checkpoint.extensions
    (checkpoint.expansions ++ [.live addition]) = some expanded ∧ Plans expanded plan
  fits : fitsEnvelope (checkpoint.expansions ++ [.live addition])

/-- The producer of an identifier already contributed what its final result adds. -/
def closed (checkpoint : GraphCheckpoint) (row : NodeProgress) : Bool :=
  (liveAdditions checkpoint.expansions).any fun addition =>
    addition.source == row.id && addition.retryGeneration == row.retryGeneration &&
      addition.closesProducer

/-- The settled producer may contribute to the graph: it succeeded, or it failed and its static
fallback takes its place. -/
inductive Contributes (node : GraphNode) (row : NodeProgress) : NodeProgress → Prop
  | succeeded (h : row.state = .succeeded) (notes : RowNotes) :
      Contributes node row { row with notes }
  | fallback (h : row.state = .failed ∨ row.state = .succeeded)
      (spec : node.plan.any fun spec => spec.fallback.isSome)
      (outputs : NodeOutputs) (notes : RowNotes) :
      Contributes node row { row with state := .succeeded, outputs := some outputs, notes }

/-! ### Steps -/

/-- What a step is about. A launch is labelled with the key it is submitted under, so that the keys
of a run can be read off its labels. -/
inductive Event
  | start
  | finish
  | visit (id : Text)
  | attempt (id : Text)
  | begin (key : AttemptKey)
  | expand (source : Text)
  | patch (addition : Addition)
  | retry (id : Text)
  | extend (extension : Extension)
  | cancel
  | resume
  | deliver
  | note

/-- The driver moves on under the same plan, with nothing begun. -/
structure Moves (s s' : Driver document) (checkpoint : GraphCheckpoint) (phase : Phase) :
    Prop where
  plan : s'.plan = s.plan
  checkpoint : s'.checkpoint = { checkpoint with notes := s'.checkpoint.notes }
  phase : s'.phase = phase
  begun : s'.begun = s.begun

/-- The graph changes between passes, with nothing begun. -/
structure Replans (s s' : Driver document) (checkpoint : GraphCheckpoint) (plan : PlannedGraph) :
    Prop where
  plan : s'.plan = plan
  checkpoint : s'.checkpoint = { checkpoint with notes := s'.checkpoint.notes }
  phase : s'.phase = .idle
  begun : s'.begun = s.begun

/-- The node at an index is dispatched to an action. -/
structure Dispatched (policy : ReviewPolicy) (s : Driver document) (index : Nat) (node : GraphNode)
    (action : NodeAction) (checkpoint : GraphCheckpoint) : Prop where
  visiting : s.phase = .visiting index
  placed : s.plan.nodes[index]? = some node
  action : nodeAction policy s.plan s.checkpoint node = (action, checkpoint)

/-- The node at an index is being attempted. -/
structure Attempting (s : Driver document) (index : Nat) (node : GraphNode) (row : NodeProgress) :
    Prop where
  attempting : s.phase = .attempting index
  placed : s.plan.nodes[index]? = some node
  row : s.checkpoint.row? node.id = some row

/-- One saved change of a driven graph, labelled with what it is about. The driver visits the nodes
of the plan one after the other in a pass; launches, patches, redos, extensions, cancellations and
resumptions come in between. What the host observes is left open. -/
inductive Step (policy : ReviewPolicy) : Event → Driver document → Driver document → Prop
  /-- A pass begins; a graph that can ask records who asks. -/
  | start {s s' : Driver document} (idle : s.phase = .idle)
      (moves : Moves s s' s.checkpoint (.visiting 0))
      (actor : mayAsk s.plan = true → s'.checkpoint.notes.askActor.isSome = true) :
      Step policy .start s s'
  /-- The pass ends, at its last node or with an error. -/
  | finish {s s' : Driver document} (moves : Moves s s' s.checkpoint .idle) :
      Step policy .finish s s'
  /-- A cancelled node is passed over, and so is a loop while the graph is paused. -/
  | pass {s s' : Driver document} {index : Nat} {node : GraphNode} {row : NodeProgress}
      (visiting : s.phase = .visiting index) (placed : s.plan.nodes[index]? = some node)
      (found : s.checkpoint.row? node.id = some row)
      (held : (s.checkpoint.cancelled = true ∧ row.detachedFromCancel = false) ∨
        row.subtreeCancel = true ∨ node.loopBody.isSome)
      (moves : Moves s s' s.checkpoint (.visiting (index + 1))) :
      Step policy (.visit node.id) s s'
  /-- The dispatch itself settles what there is to do. -/
  | wait {s s' : Driver document} {index : Nat} {node : GraphNode} {changed : Bool}
      {checkpoint : GraphCheckpoint}
      (dispatched : Dispatched policy s index node (.wait changed) checkpoint)
      (moves : Moves s s' checkpoint (.visiting (index + 1))) :
      Step policy (.visit node.id) s s'
  /-- A composite, decision, landing or gate changes its own row. -/
  | settle {s s' : Driver document} {index : Nat} {node : GraphNode} {action : NodeAction}
      {checkpoint : GraphCheckpoint} {row row' : NodeProgress}
      (dispatched : Dispatched policy s index node action checkpoint)
      (kind : action = .composite ∨ action = .decide ∨ action = .land ∨
        ∃ condition, action = .gate condition)
      (found : s.checkpoint.row? node.id = some row) (keeps : Keeps row row')
      (moves : Moves s s' (s.checkpoint.update node.id fun _ => row') (.visiting (index + 1))) :
      Step policy (.visit node.id) s s'
  /-- A loop settles its boundary, or asks its owner once its rounds are exhausted. -/
  | loop {s s' : Driver document} {index : Nat} {node : GraphNode} {spec : LoopSpec}
      {checkpoint : GraphCheckpoint} {notes : RowNotes}
      (dispatched : Dispatched policy s index node (.loop spec) checkpoint)
      (moves : Moves s s'
        (s.checkpoint.update node.id fun row =>
          { settleLoop policy s.plan s.checkpoint node row with notes })
        (.visiting (index + 1))) :
      Step policy (.visit node.id) s s'
  /-- A runnable node enters its attempt loop. -/
  | attempt {s s' : Driver document} {index : Nat} {node : GraphNode}
      {checkpoint : GraphCheckpoint}
      (dispatched : Dispatched policy s index node .attempt checkpoint)
      (moves : Moves s s' s.checkpoint (.attempting index)) :
      Step policy (.attempt node.id) s s'
  /-- The attempt loop goes on with an unsettled row. -/
  | change {s s' : Driver document} {index : Nat} {node : GraphNode} {row row' : NodeProgress}
      (attempting : Attempting s index node row) (keeps : Keeps row row')
      (unsettled : row'.state.settled = false)
      (moves : Moves s s' (s.checkpoint.update node.id fun _ => row') (.attempting index)) :
      Step policy (.attempt node.id) s s'
  /-- The attempt loop ends, possibly with a settled row. -/
  | leave {s s' : Driver document} {index : Nat} {node : GraphNode} {row row' : NodeProgress}
      (attempting : Attempting s index node row) (keeps : Keeps row row')
      (moves : Moves s s' (s.checkpoint.update node.id fun _ => row') (.visiting (index + 1))) :
      Step policy (.attempt node.id) s s'
  /-- A launch is recorded: the next route is chosen under the limits and the facts of the
  moment, and the record is saved before the launch. -/
  | begin {s s' : Driver document} {index : Nat} {node : GraphNode} {row : NodeProgress}
      {reviewSubstitutions routeIndex : Nat} {facts : LaunchFacts} {route : GraphRoute}
      {key : AttemptKey} {timing : Option LaunchRetry}
      (attempting : Attempting s index node row)
      (candidate : nextAttempt node row reviewSubstitutions facts = .candidate routeIndex)
      (routed : node.routes[routeIndex]? = some route)
      (keyed : attemptKey s.plan node row routeIndex = some key)
      (needed : needsRecord row = true)
      (plan : s'.plan = s.plan)
      (checkpoint : s'.checkpoint =
        { s.checkpoint.update node.id (beginAttempt node key route timing) with
          notes := s'.checkpoint.notes })
      (phase : s'.phase = .attempting index)
      (begun : s'.begun = key :: s.begun) :
      Step policy (.begin key) s s'
  /-- The settled result of a producer adds to the graph. -/
  | expand {s s' : Driver document} {node : GraphNode} {row row' : NodeProgress}
      {addition : Addition} {expanded : GraphDocument} {plan : PlannedGraph}
      (member : node ∈ s.plan.nodes) (found : s.checkpoint.row? node.id = some row)
      (contributes : Contributes node row row') (isOpen : closed s.checkpoint row = false)
      (source : addition.source = node.id)
      (generation : addition.retryGeneration = row.retryGeneration)
      (before : Graph.expand document s.checkpoint.extensions s.checkpoint.expansions =
        some expanded)
      (admissible : addition.Admissible expanded s.checkpoint)
      (admits : Admits document (s.checkpoint.update node.id fun _ => row') addition plan)
      (replans : Replans s s'
        (commit (s.checkpoint.update node.id fun _ => row') addition plan) plan) :
      Step policy (.expand node.id) s s'
  /-- A patch of the host, or of a running lane, is admitted. -/
  | patch {s s' : Driver document} {addition : Addition} {expanded : GraphDocument}
      {plan : PlannedGraph}
      (before : Graph.expand document s.checkpoint.extensions s.checkpoint.expansions =
        some expanded)
      (admissible : addition.Admissible expanded s.checkpoint)
      (admits : Admits document s.checkpoint addition plan)
      (replans : Replans s s' (commit s.checkpoint addition plan) plan) :
      Step policy (.patch addition) s s'
  /-- A node is redone on request, possibly with its dependants. -/
  | retry {s s' : Driver document} {id reason : Text} {brief : Option Text} {dependants : Bool}
      {candidate : GraphCheckpoint} {node : GraphNode} {plan : PlannedGraph}
      (idle : s.phase = .idle)
      (redo : retryCandidate document s.checkpoint id brief dependants = some (candidate, node))
      (admits : Admits document candidate (retryAddition node reason) plan)
      (replans : Replans s s' (commit candidate (retryAddition node reason) plan) plan) :
      Step policy (.retry id) s s'
  /-- A node is redone by the driver itself: a writer that stopped without work, or an attempt
  that ran out of quota, which fails first. -/
  | redo {s s' : Driver document} {id reason : Text} {brief : Option Text} {prior : NodeProgress}
      {settled candidate : GraphCheckpoint} {node : GraphNode} {plan : PlannedGraph}
      (found : settled.row? id = some prior)
      (failed : settled = s.checkpoint ∨
        settled = s.checkpoint.update id fun row => { row with state := .failed })
      (redo : retryCandidate document settled id brief false = some (candidate, node))
      (admits : Admits document candidate (retryAddition node reason) plan)
      (replans : Replans s s'
        ((commit candidate (retryAddition node reason) plan).update id (retainAccounting prior))
        plan) :
      Step policy (.retry id) s s'
  /-- An accepted extension raises an allowance or decides a loop; a resume reopens what the
  cancellation of the graph had skipped. -/
  | extend {s s' : Driver document} {extension : Extension} {view reopened : GraphCheckpoint}
      {expanded : GraphDocument} {plan : PlannedGraph}
      (views : restoreCancelledNodes s.checkpoint = some view)
      (accepted : extension.loop?.isSome = true →
        validateResumeExtension document view extension = .ok ())
      (resumed : applyResume s.checkpoint [extension] = some reopened)
      (after : Graph.expand document reopened.extensions reopened.expansions = some expanded)
      (plans : Plans expanded plan)
      (replans : Replans s s' (reconcile (unpauseLoops [extension] reopened) plan) plan) :
      Step policy (.extend extension) s s'
  /-- Rows are cancelled, with the graph or with a node around them. -/
  | cancel {s s' : Driver document} {cancelled : Bool} {rows : List NodeProgress}
      (cancels : List.Forall₂ Cancels s.checkpoint.nodes rows)
      (moves : Moves s s' { s.checkpoint with nodes := rows, cancelled } s.phase)
      (outside : ∀ index, s.phase ≠ .attempting index) :
      Step policy .cancel s s'
  /-- A cancelled graph is resumed. -/
  | resume {s s' : Driver document} {reopened : GraphCheckpoint} (idle : s.phase = .idle)
      (resumed : applyResume s.checkpoint [] = some reopened)
      (moves : Moves s s' reopened .idle) :
      Step policy .resume s s'
  /-- The delivery of a failed attempt succeeded after all. -/
  | deliver {s s' : Driver document} {attempt : Text} (idle : s.phase = .idle)
      (active : s.checkpoint.cancelled = false)
      (moves : Moves s s' (retryDelivered attempt s.checkpoint) .idle) :
      Step policy .deliver s s'
  /-- Something is noted in rows beside their progress. -/
  | note {s s' : Driver document} {rows : List NodeProgress}
      (noted : List.Forall₂ (fun row row' : NodeProgress => ∃ notes, row' = { row with notes })
        s.checkpoint.nodes rows)
      (moves : Moves s s' { s.checkpoint with nodes := rows } s.phase)
      (outside : ∀ index, s.phase ≠ .attempting index) :
      Step policy .note s s'

/-- A graph before its first pass: every row is fresh, except that a writer whose worktree
could not be bound failed. -/
structure Initial (s : Driver document) : Prop where
  extensions : s.checkpoint.extensions = []
  expansions : s.checkpoint.expansions = []
  phase : s.phase = .idle
  begun : s.begun = []
  rows : List.Forall₂
    (fun node row => (∃ notes, row = { freshRow node with notes }) ∨
      (node.access = .worktreeWrite ∧ ∃ message notes, row = { freshRow node with
        notes
        state := .failed
        advanceError := some message
        advanceErrorCode := some (text "writer_binding_unavailable") }))
    s.plan.nodes s.checkpoint.nodes

/-- The states that runs of a graph reach: from a new checkpoint, by any number of steps in any
order. -/
def Reachable (policy : ReviewPolicy) (s : Driver document) : Prop :=
  ∃ start, Initial start ∧ Relation.ReflTransGen (fun s s' => ∃ event, Step policy event s s') start s

lemma Reachable.step {policy : ReviewPolicy} {event : Event} {s s' : Driver document}
    (h : Reachable policy s) (step : Step policy event s s') : Reachable policy s' := by
  obtain ⟨start, initial, run⟩ := h
  exact ⟨start, initial, run.tail ⟨event, step⟩⟩

/-- What holds before the first pass and is kept by every step holds in every state of a run.
In the step a state may be assumed to be reachable itself. -/
lemma Reachable.invariant {policy : ReviewPolicy} {inv : Driver document → Prop}
    (initially : ∀ s, Initial s → inv s)
    (kept : ∀ event s s', Reachable policy s → inv s → Step policy event s s' → inv s')
    {s : Driver document} (h : Reachable policy s) : inv s := by
  obtain ⟨start, initial, run⟩ := h
  induction run with
  | refl => exact initially start initial
  | tail run step ih =>
    obtain ⟨event, step⟩ := step
    exact kept event _ _ ⟨start, initial, run⟩ ih step

end Provenant.Graph

import Provenant.Data.Numbered
import Provenant.Graph.AttemptHistory

/-!
# Questions to the owner

An exhausted loop, a decision node, a landing that needs consent and a paused graph each put a
question to the owner of the graph. The inbox of the host identifies the question by its
identifier: the same identifier is the same question, with the same answer. The identifier counts:
the rounds of a loop, the questions of a decision node, the pauses of the graph. Only questions that
are still in the checkpoint are counted.

## Main definitions

* `loopAsk`, `decideAsk`, `landAsk`, `pauseAsk` — the four questions.
* `AskChange` — what a step of the driver does to the questions.
* `AskStep` — the steps of the driver with their questions, and a log of all that were raised.
* `droppedAsks` — the questions that a redo forgets.

## Main results

* `AskStep.ledger` — without drops, every step is a step of a ledger of identifiers.
* `ask_identity` — in every run whose redos drop no question, no identifier is raised twice.
* `retry_reuses_ask` — a run with a redo that drops a question and raises it again.

## Implementation notes

Titles and bodies of questions are left out, and so is the specification of a decision: a step is
free to choose its options, its default and its deadline.
-/

namespace Provenant.Graph

open List

open Json (Text text decimal stripPrefix stripSuffix splitOnce parseUnsigned trailing)
open Relation

/-! ### Identifiers -/

/-- The identifier of the question of an exhausted loop. -/
def loopAskId (node : Text) (rounds : Nat) : Text := node ++ text ".rounds-" ++ decimal rounds

/-- The identifier of a question of a decision node or a landing. The gate of a repair adds its
generation from the first redo on. -/
def decideAskId (node : Text) (sequence generation : Nat) : Text :=
  node ++ text ".ask-" ++ decimal sequence ++
    if generation = 0 then [] else text ".retry-" ++ decimal generation

/-- The identifier of the question of a pause. -/
def pauseAskId (number : Nat) : Text := text "pause-" ++ decimal number

/-! ### Questions -/

/-- `loop_ask`. -/
def loopAsk (node : Text) (rounds : Nat) (session : Text) : NodeAsk :=
  { askId := loopAskId node rounds, kind := .loop, node := some node, rounds := some rounds
    session, options := [text "stop", text "extend", text "accept"] }

/-- `decide_ask`, with the generation that the gate of a repair adds. -/
def decideAsk (node : Text) (sequence generation : Nat) (session : Text) (options : List Text)
    (default : Option Text) (wakeAt : Option Nat) : NodeAsk :=
  { askId := decideAskId node sequence generation, kind := .decide, node := some node
    session, options, default, wakeAt }

/-- `land_ask`. -/
def landAsk (node : Text) (session : Text) : NodeAsk :=
  { askId := decideAskId node 1 0, kind := .land, node := some node
    session, options := [text "hold"] }

/-- `pause_ask`. -/
def pauseAsk (number : Nat) (session : Text) : NodeAsk :=
  { askId := pauseAskId number, kind := .pause
    session, options := [text "resume", text "cancel"] }

/-- `decide_sequence`: the number in the identifier of a question of a decision node. -/
def decideSequence (ask : NodeAsk) (node : Text) : Option Nat := do
  let rest ← stripPrefix node ask.askId
  let identity ← stripPrefix (text ".ask-") rest
  let sequence ← match splitOnce (text ".retry-") identity with
    | some (sequence, generation) => do
      let generation ← parseUnsigned generation
      guard (0 < generation)
      pure sequence
    | none => pure identity
  let number ← parseUnsigned sequence
  guard (0 < number)
  return number

/-- The last question about a node. -/
def latestAsk (asks : List NodeAsk) (node : Text) : Option NodeAsk :=
  (asks.filter fun ask => ask.node == some node).getLast?

/-- The number of the next question of a decision node. It saturates. -/
def nextSequence (asks : List NodeAsk) (node : Text) : Nat :=
  min (((latestAsk asks node).bind fun ask => decideSequence ask node).getD 0 + 1) (2 ^ 64 - 1)

/-- `land::session`: the session that a landing asks in. -/
def landSession (plan : PlannedGraph) (node : GraphNode) : Option Text :=
  node.decisionSession.or plan.decisionSession

/-- The session that a decision node asks in; the gate of a repair has one of its own. -/
def decideSession (plan : PlannedGraph) (node : GraphNode) : Option Text :=
  (node.decisionSession.or plan.decisionSession).or
    (if node.repairScopeGate then some plan.graphId else none)

/-- What `asks::validate` requires of a question on load: the node that it is about asks such
questions in this session. -/
def askMatches (plan : PlannedGraph) (ask : NodeAsk) : Bool :=
  match ask.kind, ask.node with
  | .loop, some node => (plan.node? node).any fun node =>
      node.loopBody.isSome && node.decisionSession == some ask.session
  | .decide, some node => (plan.node? node).any fun node =>
      node.decide && decideSession plan node == some ask.session
  | .land, some node => (plan.node? node).any fun node =>
      node.land && landSession plan node == some ask.session
  | .pause, none => plan.decisionSession == some ask.session
  | _, _ => false

/-- The gate of a repair adds its generation to its identifiers. -/
def askGeneration (node : GraphNode) (row : NodeProgress) : Nat :=
  if node.repairScopeGate then row.generation else 0

/-- The question of a pause that was closed. -/
def closedPause (ask : NodeAsk) : Bool := ask.kind == .pause && ask.closed

/-- `MAX_PAUSE_ASKS`: the closed pauses that are kept. -/
def maxPauseAsks : Nat := 8

/-- The questions without the first `drop` closed pauses. -/
def dropPauses : Nat → List NodeAsk → List NodeAsk
  | 0, asks => asks
  | _ + 1, [] => []
  | drop + 1, ask :: rest =>
    if closedPause ask then dropPauses drop rest else ask :: dropPauses (drop + 1) rest

/-- What `close_resolved_asks` keeps. -/
def keepPauses (asks : List NodeAsk) : List NodeAsk :=
  dropPauses (asks.countP closedPause - maxPauseAsks) asks

/-- The rounds of a loop are exhausted: everything in them is settled, and neither they nor a
decision settle the loop. -/
def loopExhausted (policy : ReviewPolicy) (plan : PlannedGraph) (checkpoint : GraphCheckpoint)
    (node : GraphNode) : Bool :=
  (dependencyState (externalNode plan node) plan checkpoint).isNone &&
    (loopOutcome policy node checkpoint).isNone &&
    roundsSettled (roundRows checkpoint node.id) && (dependencyState node plan checkpoint).isNone

/-! ### Steps -/

variable {document : GraphDocument}

/-- The same question, further resolved. -/
def SameAsk (ask ask' : NodeAsk) : Prop :=
  ∃ resolved closed answer, ask' = { ask with resolved, closed, answer }

/-- What a step of the driver other than a redo does to the questions, with those that it
raises. -/
inductive AskChange (policy : ReviewPolicy) :
    Event → Driver document → Driver document → List NodeAsk → Prop
  /-- Questions are answered, withdrawn and closed; old pauses are forgotten. -/
  | resolve {event : Event} {s s' : Driver document} {asks : List NodeAsk}
      (resolved : Forall₂ SameAsk s.checkpoint.notes.asks asks)
      (kept : s'.checkpoint.notes.asks = asks ∨ s'.checkpoint.notes.asks = keepPauses asks)
      (pauses : s'.checkpoint.notes.pauseAsks = s.checkpoint.notes.pauseAsks) :
      AskChange policy event s s' []
  /-- An exhausted loop asks, unless it asked after these rounds before. -/
  | loop {s s' : Driver document} {index rounds : Nat} {node : GraphNode} {spec : LoopSpec}
      {checkpoint : GraphCheckpoint} {session : Text}
      (matching : s.checkpoint.notes.asks.all (askMatches s.plan) = true)
      (dispatched : Dispatched policy s index node (.loop spec) checkpoint)
      (exhausted : loopExhausted policy s.plan s.checkpoint node = true)
      (named : node.decisionSession = some session)
      (count : rounds = lastRound (roundRows s.checkpoint node.id))
      (unasked : ∀ ask ∈ s.checkpoint.notes.asks, ask.askId ≠ loopAskId node.id rounds)
      (asks : s'.checkpoint.notes.asks = s.checkpoint.notes.asks ++ [loopAsk node.id rounds session])
      (pauses : s'.checkpoint.notes.pauseAsks = s.checkpoint.notes.pauseAsks) :
      AskChange policy (.visit node.id) s s' [loopAsk node.id rounds session]
  /-- A decision node asks once its last question is closed, in place of its earlier questions. -/
  | decide {s s' : Driver document} {index : Nat} {node : GraphNode}
      {checkpoint : GraphCheckpoint} {row : NodeProgress} {session : Text} {options : List Text}
      {default : Option Text} {wakeAt : Option Nat} {ask : NodeAsk}
      (matching : s.checkpoint.notes.asks.all (askMatches s.plan) = true)
      (dispatched : Dispatched policy s index node .decide checkpoint)
      (closed : ∀ last ∈ latestAsk s.checkpoint.notes.asks node.id,
        last.resolved = true ∧ last.closed = true)
      (unpaused : s.checkpoint.notes.pauseReason = none)
      (named : decideSession s.plan node = some session)
      (found : s.checkpoint.row? node.id = some row)
      -- generations are 64-bit numbers
      (small : askGeneration node row < 2 ^ 64)
      (rendered : ask = decideAsk node.id (nextSequence s.checkpoint.notes.asks node.id)
        (askGeneration node row) session options default wakeAt)
      (asks : s'.checkpoint.notes.asks =
        (s.checkpoint.notes.asks.filter fun ask => ask.node != some node.id) ++ [ask])
      (pauses : s'.checkpoint.notes.pauseAsks = s.checkpoint.notes.pauseAsks) :
      AskChange policy (.visit node.id) s s' [ask]
  /-- A landing asks once. -/
  | land {s s' : Driver document} {index : Nat} {node : GraphNode} {checkpoint : GraphCheckpoint}
      {session : Text}
      (matching : s.checkpoint.notes.asks.all (askMatches s.plan) = true)
      (dispatched : Dispatched policy s index node .land checkpoint)
      (unpaused : s.checkpoint.notes.pauseReason = none)
      (named : landSession s.plan node = some session)
      (unasked : latestAsk s.checkpoint.notes.asks node.id = none)
      (asks : s'.checkpoint.notes.asks = s.checkpoint.notes.asks ++ [landAsk node.id session])
      (pauses : s'.checkpoint.notes.pauseAsks = s.checkpoint.notes.pauseAsks) :
      AskChange policy (.visit node.id) s s' [landAsk node.id session]
  /-- A paused graph asks once its last pause is closed. -/
  | pause {s s' : Driver document} {session : Text} {number : Nat}
      (named : s.plan.decisionSession = some session)
      (paused : s.checkpoint.notes.pauseReason.isSome = true)
      (active : s.checkpoint.cancelled = false)
      (other : s.checkpoint.notes.loopPause = none)
      (closed : ∀ last ∈ (s.checkpoint.notes.asks.filter fun ask => ask.kind == .pause).getLast?,
        last.resolved = true ∧ last.closed = true)
      (counted : number = (s.checkpoint.notes.pauseAsks + 1) % 2 ^ 64)
      (asks : s'.checkpoint.notes.asks = s.checkpoint.notes.asks ++ [pauseAsk number session])
      (pauses : s'.checkpoint.notes.pauseAsks = number) :
      AskChange policy .note s s' [pauseAsk number session]

/-- A state of the driver, with every question that was raised so far, the latest first. -/
structure Asking (document : GraphDocument) where
  driver : Driver document
  raised : List NodeAsk

/-- The notes of the host in a state. -/
def Asking.notes (state : Asking document) : HostNotes := state.driver.checkpoint.notes

/-- The questions that an accepted redo of a node drops. -/
def droppedAsks (document : GraphDocument) (checkpoint : GraphCheckpoint) (id : Text)
    (dependants : Bool) : List NodeAsk :=
  match expand document checkpoint.extensions checkpoint.expansions with
  | none => []
  | some expanded =>
    match expanded.nodes.find? (·.id == id) with
    | none => []
    | some node =>
      if (node.composite.isSome || node.loopBody.isSome) || dependants then
        checkpoint.notes.asks.filter fun ask =>
          ask.node.any fun name => (resetIds expanded checkpoint node dependants).contains name
      else []

/-- The steps of the driver with their questions. A requested redo is labelled with its node, and
whether dependants are redone too. -/
inductive AskStep (policy : ReviewPolicy) :
    Option (Text × Bool) → Asking document → Asking document → Prop
  | drive {event : Event} {state state' : Asking document} {raised : List NodeAsk}
      (step : Step policy event state.driver state'.driver) (plain : ∀ id, event ≠ .retry id)
      (change : AskChange policy event state.driver state'.driver raised)
      (logged : state'.raised = raised ++ state.raised) : AskStep policy none state state'
  | retry {state state' : Asking document} {id reason : Text} {brief : Option Text}
      {dependants : Bool} {candidate : GraphCheckpoint} {node : GraphNode} {plan : PlannedGraph}
      (idle : state.driver.phase = .idle)
      (redo : retryCandidate document state.driver.checkpoint id brief dependants =
        some (candidate, node))
      (admits : Admits document candidate (retryAddition node reason) plan)
      (replans : Replans state.driver state'.driver
        (commit candidate (retryAddition node reason) plan) plan)
      (asks : state'.notes.asks = candidate.notes.asks)
      (pauses : state'.notes.pauseAsks = candidate.notes.pauseAsks)
      (logged : state'.raised = state.raised) : AskStep policy (some (id, dependants)) state state'
  /-- Only nodes that are attempted themselves are redone by the driver. -/
  | redo {state state' : Asking document} {id reason : Text} {brief : Option Text}
      {prior : NodeProgress} {settled candidate : GraphCheckpoint} {node : GraphNode}
      {plan : PlannedGraph}
      (found : settled.row? id = some prior)
      (automatic : Automatic state.driver id prior reason settled)
      (leaf : ∀ node ∈ state.driver.plan.nodes, node.id = id →
        node.composite = none ∧ node.loopBody = none)
      (redo : retryCandidate document settled id brief false = some (candidate, node))
      (admits : Admits document candidate (retryAddition node reason) plan)
      (replans : Replans state.driver state'.driver
        ((commit candidate (retryAddition node reason) plan).update id (retainAccounting prior))
        plan)
      (asks : state'.notes.asks = candidate.notes.asks)
      (pauses : state'.notes.pauseAsks = candidate.notes.pauseAsks)
      (logged : state'.raised = state.raised) : AskStep policy none state state'

/-- These are steps of the driver. -/
lemma AskStep.step {policy : ReviewPolicy} {request : Option (Text × Bool)}
    {state state' : Asking document} (h : AskStep policy request state state') :
    ∃ event, Step policy event state.driver state'.driver := by
  cases h with
  | drive step => exact ⟨_, step⟩
  | retry idle redo admits replans => exact ⟨_, .retry idle redo admits replans⟩
  | redo found automatic _ redo admits replans =>
    refine ⟨_, .redo found ?_ redo admits replans⟩
    cases automatic with
    | redraw => exact .inr rfl
    | continueStopped => exact .inl rfl

/-! ### Reading identifiers -/

/-- What a question is counted under. -/
inductive AskName
  | decision (node : Text)
  | rounds (node : Text) (count : Nat)
  | pause

/-- What an identifier counts: its last digits, and the word before them. -/
def readAsk (id : Text) : AskName × Nat :=
  let (stem, number) := trailing id
  match stripSuffix (text ".rounds-") stem with
  | some node => (.rounds node number, 0)
  | none =>
    match stripSuffix (text ".ask-") stem with
    | some node => (.decision node, number)
    | none =>
      match stripSuffix (text ".retry-") stem with
      | some first =>
        let (stem, sequence) := trailing first
        (.decision ((stripSuffix (text ".ask-") stem).getD []), sequence)
      | none => (.pause, number)

lemma trailing_word (node word : Text) (number : Nat) :
    trailing (node ++ (word ++ [45]) ++ decimal number) = (node ++ (word ++ [45]), number) := by
  refine Json.trailing_append ?_ number
  simp [Json.isDigit]

lemma readAsk_loopAskId (node : Text) (rounds : Nat) :
    readAsk (loopAskId node rounds) = (.rounds node rounds, 0) := by
  have stem : trailing (loopAskId node rounds) = (node ++ text ".rounds-", rounds) :=
    trailing_word node (text ".rounds") rounds
  simp [readAsk, stem]

lemma readAsk_decideAskId (node : Text) (sequence generation : Nat) :
    readAsk (decideAskId node sequence generation) = (.decision node, sequence) := by
  have stem : trailing (node ++ text ".ask-" ++ decimal sequence) =
      (node ++ text ".ask-", sequence) := trailing_word node (text ".ask") sequence
  have rounds : ∀ t, stripSuffix (text ".rounds-") (t ++ text ".ask-") = none := by
    intro t
    rw [stripSuffix, reverse_append]
    rfl
  unfold decideAskId
  split
  · rw [append_nil]
    simp only [readAsk, stem, rounds, Json.stripSuffix_append]
  · have retried : trailing (node ++ text ".ask-" ++ decimal sequence ++
        (text ".retry-" ++ decimal generation)) =
        (node ++ text ".ask-" ++ decimal sequence ++ text ".retry-", generation) := by
      rw [← append_assoc]
      exact trailing_word (node ++ text ".ask-" ++ decimal sequence) (text ".retry") generation
    have others : ∀ t, stripSuffix (text ".rounds-") (t ++ text ".retry-") = none ∧
        stripSuffix (text ".ask-") (t ++ text ".retry-") = none := by
      intro t
      rw [stripSuffix, stripSuffix, reverse_append]
      exact ⟨rfl, rfl⟩
    have last := Json.stripSuffix_append (node ++ text ".ask-" ++ decimal sequence) (text ".retry-")
    simp only [readAsk, retried, (others _).1, (others _).2, last, stem, Json.stripSuffix_append,
      Option.getD_some]

lemma readAsk_pauseAskId (number : Nat) : readAsk (pauseAskId number) = (.pause, number) := by
  have stem : trailing (pauseAskId number) = (text "pause-", number) :=
    trailing_word [] (text "pause") number
  have others : stripSuffix (text ".rounds-") (text "pause-") = none ∧
      stripSuffix (text ".ask-") (text "pause-") = none ∧
      stripSuffix (text ".retry-") (text "pause-") = none := ⟨rfl, rfl, rfl⟩
  simp only [readAsk, stem, others.1, others.2.1, others.2.2]

variable {ask : NodeAsk} {rounds : Nat} {notes notes' : HostNotes} {spec : LoopSpec}
  {session id : Text} {event : Event} {raised : List NodeAsk}

/-- The number of a question of a decision node is read back. -/
lemma decideSequence_of_id {node : Text} {sequence generation : Nat}
    (id : ask.askId = decideAskId node sequence generation) (positive : 0 < sequence)
    (small : sequence < 2 ^ 64) (small' : generation < 2 ^ 64) :
    decideSequence ask node = some sequence := by
  have dotless : (46 : UInt8) ∉ decimal sequence := Json.not_mem_decimal rfl sequence
  have read := Json.parseUnsigned_decimal small
  unfold decideAskId at id
  split at id
  · have whole : splitOnce (text ".retry-") (decimal sequence) = none :=
      Json.splitOnce_eq_none dotless
    simp [decideSequence, id, append_assoc, whole, read, positive]
  next retried =>
    have parts : splitOnce (text ".retry-") (decimal sequence ++ (text ".retry-" ++
        decimal generation)) = some (decimal sequence, decimal generation) := by
      rw [← append_assoc]
      exact Json.splitOnce_append (decimal generation) dotless
    have read' := Json.parseUnsigned_decimal small'
    have positive' := Nat.pos_of_ne_zero retried
    simp [decideSequence, id, append_assoc, parts, read, read', positive, positive']

/-- The question of a loop has no such number. -/
lemma decideSequence_loopAskId {node : Text} (id : ask.askId = loopAskId node rounds) :
    decideSequence ask node = none := by
  have other : stripPrefix (text ".ask-") (text ".rounds-" ++ decimal rounds) = none := rfl
  simp [decideSequence, id, loopAskId, append_assoc, other]

/-! ### The ledger of questions -/

/-- The question has the identifier of its kind. -/
inductive Formed (ask : NodeAsk) : Prop
  | loop (node : Text) (rounds : Nat) (kind : ask.kind = .loop) (about : ask.node = some node)
      (id : ask.askId = loopAskId node rounds)
  | decision (node : Text) (sequence generation : Nat) (kind : ask.kind = .decide ∨ ask.kind = .land)
      (about : ask.node = some node) (id : ask.askId = decideAskId node sequence generation)
      (positive : 0 < sequence) (small : sequence < 2 ^ 64) (small' : generation < 2 ^ 64)
  | pause (number : Nat) (kind : ask.kind = .pause) (about : ask.node = none)
      (id : ask.askId = pauseAskId number)

/-- The next number under a name, as far as the checkpoint remembers. -/
def nextAsk (notes : HostNotes) : AskName → Nat
  | .decision node =>
    ((latestAsk notes.asks node).bind fun ask => decideSequence ask node).getD 0 + 1
  | .rounds node count => if notes.asks.any fun ask => ask.askId == loopAskId node count then 1 else 0
  | .pause => notes.pauseAsks + 1

/-- The ledger that a state stands for. -/
def Asking.ledger (state : Asking document) : Ledger AskName Nat :=
  { next := nextAsk state.notes, issued := state.raised.map fun ask => readAsk ask.askId }

/-- No counter of questions is at its end. -/
structure CountersFit (notes : HostNotes) : Prop where
  pauses : notes.pauseAsks + 1 < 2 ^ 64
  sequences : ∀ ask ∈ notes.asks, ∀ node ∈ ask.node, ∀ sequence ∈ decideSequence ask node,
    sequence + 1 < 2 ^ 64

section Lists

variable {asks asks' : List NodeAsk} {node : Text}

lemma mem_of_latestAsk (h : latestAsk asks node = some ask) :
    ask ∈ asks ∧ ask.node = some node := by
  have member := mem_filter.1 (mem_of_getLast? h)
  exact ⟨member.1, by simpa using member.2⟩

/-- The last question about a node is the one that was added last. -/
lemma latestAsk_append_self (about : ask.node = some node) :
    latestAsk (asks ++ [ask]) node = some ask := by
  simp [latestAsk, filter_append, about]

lemma latestAsk_append_of_ne (about : ask.node ≠ some node) :
    latestAsk (asks ++ [ask]) node = latestAsk asks node := by
  simp [latestAsk, filter_append, about]

/-- A question about another node does not count. -/
lemma latestAsk_filter {keeps : NodeAsk → Bool}
    (kept : ∀ ask ∈ asks, ask.node = some node → keeps ask = true) :
    latestAsk (asks.filter keeps) node = latestAsk asks node := by
  unfold latestAsk
  rw [filter_filter]
  congr 1
  refine filter_congr fun ask member => ?_
  by_cases about : ask.node = some node
  · simp [about, kept ask member about]
  · simp [about]

/-- What a question is counted by: the node that it is about, and its identifier. -/
def NodeAsk.mark (ask : NodeAsk) : Option Text × Text := (ask.node, ask.askId)

/-- Counting depends on these alone. -/
lemma latestSequence_congr (same : asks'.map NodeAsk.mark = asks.map NodeAsk.mark) :
    (latestAsk asks' node).bind (fun ask => decideSequence ask node) =
      (latestAsk asks node).bind fun ask => decideSequence ask node := by
  have marks : ∀ asks : List NodeAsk, (latestAsk asks node).map NodeAsk.mark =
      ((asks.map NodeAsk.mark).filter fun mark => mark.1 == some node).getLast? := by
    intro asks
    rw [filter_map, getLast?_map]
    rfl
  have latest : (latestAsk asks' node).map NodeAsk.mark = (latestAsk asks node).map NodeAsk.mark := by
    rw [marks, marks, same]
  cases found : latestAsk asks node with
  | none =>
    rw [found, Option.map_none, Option.map_eq_none_iff] at latest
    rw [latest]
  | some ask =>
    rw [found, Option.map_some, Option.map_eq_some_iff] at latest
    obtain ⟨ask', found', equal⟩ := latest
    have id : ask'.askId = ask.askId := congrArg Prod.snd equal
    rw [found']
    simp only [Option.bind_some, decideSequence, id]

lemma marks_of_resolved (resolved : Forall₂ SameAsk asks asks') :
    asks'.map NodeAsk.mark = asks.map NodeAsk.mark := by
  induction resolved with
  | nil => rfl
  | cons head _ ih =>
    obtain ⟨_, _, _, rfl⟩ := head
    rw [map_cons, map_cons, ih]
    rfl

/-- Dropping old pauses is a choice among the questions that keeps all others. -/
lemma dropPauses_sublist (drop : Nat) (asks : List NodeAsk) : (dropPauses drop asks).Sublist asks := by
  induction asks generalizing drop with
  | nil => cases drop <;> exact List.Sublist.refl []
  | cons ask _ ih =>
    cases drop with
    | zero => exact List.Sublist.refl _
    | succ drop =>
      unfold dropPauses
      split
      · exact (ih drop).cons ask
      · exact (ih (drop + 1)).cons_cons ask

lemma filter_dropPauses {keeps : NodeAsk → Bool} (drop : Nat) (asks : List NodeAsk)
    (others : ∀ ask ∈ asks, keeps ask = true → ask.kind ≠ .pause) :
    (dropPauses drop asks).filter keeps = asks.filter keeps := by
  induction asks generalizing drop with
  | nil => cases drop <;> rfl
  | cons ask rest ih =>
    have later := fun drop => ih drop fun ask member => others ask (mem_cons_of_mem _ member)
    cases drop with
    | zero => rfl
    | succ drop =>
      unfold dropPauses
      split
      next pause =>
        have dropped : keeps ask = false := by
          rw [← Bool.not_eq_true]
          intro kept
          simp only [closedPause, Bool.and_eq_true, beq_iff_eq] at pause
          exact others ask mem_cons_self kept pause.1
        rw [later drop, filter_cons_of_neg (by rw [dropped]; exact Bool.false_ne_true)]
      · rw [filter_cons, filter_cons, later (drop + 1)]

end Lists

/-- The question that names rounds of a loop is the question of a loop. -/
lemma Formed.loop_of_id (formed : Formed ask) {node : Text} (id : ask.askId = loopAskId node rounds) :
    ask.kind = .loop ∧ ask.node = some node := by
  cases formed with
  | loop _ _ kind about id' =>
    rw [id] at id'
    have read := congrArg readAsk id'
    rw [readAsk_loopAskId, readAsk_loopAskId] at read
    cases read
    exact ⟨kind, about⟩
  | decision _ _ _ _ _ id' =>
    rw [id] at id'
    have read := congrArg readAsk id'
    rw [readAsk_loopAskId, readAsk_decideAskId] at read
    cases read
  | pause _ _ _ id' =>
    rw [id] at id'
    have read := congrArg readAsk id'
    rw [readAsk_loopAskId, readAsk_pauseAskId] at read
    cases read

lemma Formed.of_same {ask' : NodeAsk} (formed : Formed ask) (same : SameAsk ask ask') :
    Formed ask' := by
  obtain ⟨_, _, _, rfl⟩ := same
  cases formed with
  | loop node rounds kind about id => exact .loop node rounds kind about id
  | decision node sequence generation kind about id positive small small' =>
    exact .decision node sequence generation kind about id positive small small'
  | pause number kind about id => exact .pause number kind about id

/-- No counter is set back. -/
structure Counts (notes notes' : HostNotes) : Prop where
  sequences : ∀ node,
    ((latestAsk notes.asks node).bind fun ask => decideSequence ask node).getD 0 ≤
      ((latestAsk notes'.asks node).bind fun ask => decideSequence ask node).getD 0
  rounds : ∀ ask ∈ notes.asks, ∀ node count, ask.askId = loopAskId node count →
    ∃ ask' ∈ notes'.asks, ask'.askId = ask.askId
  pauses : notes.pauseAsks ≤ notes'.pauseAsks

lemma Counts.nextAsk_le (counts : Counts notes notes') (name : AskName) :
    nextAsk notes name ≤ nextAsk notes' name := by
  cases name with
  | decision node => exact Nat.add_le_add_right (counts.sequences node) 1
  | pause => exact Nat.add_le_add_right counts.pauses 1
  | rounds node count =>
    simp only [nextAsk]
    split
    next known =>
      obtain ⟨ask, member, id⟩ := any_eq_true.1 known
      have id : ask.askId = loopAskId node count := by simpa using id
      obtain ⟨ask', member', same⟩ := counts.rounds ask member node count id
      rw [if_pos (any_eq_true.2 ⟨ask', member', by simp [same, id]⟩)]
    · exact Nat.zero_le _

/-- Resolving questions and forgetting old pauses sets no counter back. -/
lemma counts_resolve {asks : List NodeAsk} (formed : ∀ ask ∈ notes.asks, Formed ask)
    (resolved : Forall₂ SameAsk notes.asks asks)
    (kept : notes'.asks = asks ∨ notes'.asks = keepPauses asks)
    (pauses : notes'.pauseAsks = notes.pauseAsks) :
    Counts notes notes' ∧ ∀ ask ∈ notes'.asks, Formed ask := by
  have marks := marks_of_resolved resolved
  have formed' : ∀ ask ∈ asks, Formed ask := by
    intro ask member
    obtain ⟨old, known, same⟩ := Fallible.exists_of_forall₂ resolved member
    exact (formed old known).of_same same
  have filtered : ∀ keeps : NodeAsk → Bool,
      (∀ ask ∈ asks, keeps ask = true → ask.kind ≠ .pause) →
      notes'.asks.filter keeps = asks.filter keeps := by
    intro keeps others
    rcases kept with same | dropped
    · rw [same]
    · rw [dropped]
      exact filter_dropPauses _ asks others
  have latest : ∀ node, latestAsk notes'.asks node = latestAsk asks node := by
    intro node
    unfold latestAsk
    rw [filtered]
    intro ask member about pause
    have about : ask.node = some node := by simpa using about
    cases formed' ask member with
    | loop _ _ kind => rw [pause] at kind; cases kind
    | decision _ _ _ kind => rw [pause] at kind; simp at kind
    | pause _ _ silent => rw [about] at silent; cases silent
  refine ⟨⟨fun node => ?_, fun ask member node count id => ?_, pauses.ge⟩, fun ask member => ?_⟩
  · rw [latest, latestSequence_congr marks]
  · have marked : ask.mark ∈ asks.map NodeAsk.mark := by
      rw [marks]
      exact mem_map_of_mem member
    obtain ⟨ask', member', same⟩ := mem_map.1 marked
    have same : ask'.askId = ask.askId := congrArg Prod.snd same
    have loops : ask' ∈ notes'.asks.filter fun ask => ask.kind == .loop := by
      rw [filtered _ fun ask _ kind pause => by rw [pause] at kind; cases kind]
      refine mem_filter.2 ⟨member', ?_⟩
      simp [((formed' ask' member').loop_of_id (same.trans id)).1]
    exact ⟨ask', (mem_filter.1 loops).1, same⟩
  · rcases kept with same | dropped
    · exact formed' ask (same ▸ member)
    · rw [dropped] at member
      exact formed' ask ((dropPauses_sublist _ asks).mem member)

/-- A further question sets no counter back if it is not about a node whose last question had a
number. -/
lemma counts_append (asks : notes'.asks = notes.asks ++ [ask])
    (pauses : notes.pauseAsks ≤ notes'.pauseAsks)
    (numbered : ∀ node ∈ ask.node,
      (latestAsk notes.asks node).bind (fun ask => decideSequence ask node) = none) :
    Counts notes notes' := by
  refine ⟨fun node => ?_, fun old member _ _ _ => ⟨old, ?_, rfl⟩, pauses⟩
  · by_cases about : ask.node = some node
    · rw [numbered node about]
      exact Nat.zero_le _
    · rw [asks, latestAsk_append_of_ne about]
  · rw [asks]
    exact mem_append_left _ member

variable {policy : ReviewPolicy} {node : GraphNode}

/-- A loop neither decides nor lands. -/
lemma GraphNode.single_of_loop (formed : node.wellFormed = true)
    (looped : node.loopBody = some spec) : node.decide = false ∧ node.land = false := by
  simp only [GraphNode.wellFormed, Bool.and_eq_true, decide_eq_true_eq] at formed
  have single := formed.1.1.2
  rw [looped] at single
  have count : ∀ composite decides lands gate : Bool,
      [composite, true, decides, lands, gate].count true ≤ 1 → decides = false ∧ lands = false := by
    decide
  exact count _ _ _ _ single

variable {checkpoint : GraphCheckpoint}

section Raise

variable {s : Driver document} {index : Nat} {node : GraphNode} {action : NodeAction}

lemma Dispatched.node? (dispatched : Dispatched policy s index node action checkpoint) :
    s.plan.node? node.id = some node :=
  PlannedGraph.node?_of_mem (mem_of_getElem? dispatched.placed)

/-- The questions about a loop are questions of a loop. -/
lemma Dispatched.asks_loop (dispatched : Dispatched policy s index node (.loop spec) checkpoint)
    (matching : askMatches s.plan ask = true) (formed : Formed ask)
    (about : ask.node = some node.id) : ∃ rounds, ask.askId = loopAskId node.id rounds := by
  have looped : node.loopBody = some spec := nodeAction_spec dispatched.action
  obtain ⟨undecided, unlanded⟩ := GraphNode.single_of_loop
    (s.plan.wellFormed node (mem_of_getElem? dispatched.placed)) looped
  cases formed with
  | loop _ rounds _ about' id =>
    rw [about] at about'
    cases about'
    exact ⟨rounds, id⟩
  | decision _ _ _ kind =>
    rcases kind with kind | kind
    · simp [askMatches, kind, about, dispatched.node?, undecided] at matching
    · simp [askMatches, kind, about, dispatched.node?, unlanded] at matching
  | pause _ _ silent =>
    rw [about] at silent
    cases silent

/-- The questions about a decision node are not questions of a loop. -/
lemma Dispatched.asks_decide (dispatched : Dispatched policy s index node .decide checkpoint)
    (matching : askMatches s.plan ask = true) (about : ask.node = some node.id) :
    ask.kind ≠ .loop := by
  intro kind
  have unlooped : node.loopBody = none := nodeAction_spec dispatched.action
  simp [askMatches, kind, about, dispatched.node?, unlooped] at matching

end Raise

variable {state state' : Asking document}

/-- A step that raises a question issues its identifier. -/
lemma issue_of_counts (name : AskName) (counts : Counts state.notes state'.notes)
    (logged : state'.raised = [ask] ++ state.raised)
    (read : readAsk ask.askId = (name, nextAsk state.notes name))
    (used : nextAsk state.notes name < nextAsk state'.notes name) :
    Ledger.Step state.ledger state'.ledger := by
  refine .issue name counts.nextAsk_le used ?_
  simp [Asking.ledger, logged, read]

/-- A loop asks under a number of rounds that was not asked about. -/
lemma ledger_loop {index : Nat} (formed : ∀ ask ∈ state.notes.asks, Formed ask)
    (matching : state.notes.asks.all (askMatches state.driver.plan) = true)
    (dispatched : Dispatched policy state.driver index node (.loop spec) checkpoint)
    (unasked : ∀ ask ∈ state.notes.asks, ask.askId ≠ loopAskId node.id rounds)
    (asks : state'.notes.asks = state.notes.asks ++ [loopAsk node.id rounds session])
    (pauses : state'.notes.pauseAsks = state.notes.pauseAsks)
    (logged : state'.raised = [loopAsk node.id rounds session] ++ state.raised) :
    Ledger.Step state.ledger state'.ledger := by
  have counts : Counts state.notes state'.notes := by
    refine counts_append asks pauses.ge fun name about => ?_
    cases about
    cases found : latestAsk state.notes.asks node.id with
    | none => rfl
    | some last =>
      obtain ⟨member, about⟩ := mem_of_latestAsk found
      obtain ⟨rounds, id⟩ := dispatched.asks_loop (all_eq_true.1 matching last member)
        (formed last member) about
      exact decideSequence_loopAskId id
  have before : nextAsk state.notes (.rounds node.id rounds) = 0 :=
    if_neg fun known => by
      obtain ⟨ask, member, id⟩ := any_eq_true.1 known
      exact unasked ask member (by simpa using id)
  have after : nextAsk state'.notes (.rounds node.id rounds) = 1 := if_pos (by simp [asks, loopAsk])
  refine issue_of_counts (.rounds node.id rounds) counts logged ?_ (by rw [before, after]; exact
    Nat.zero_lt_one)
  rw [before]
  exact readAsk_loopAskId node.id rounds

/-- The number of the next question, when the counter is not at its end. -/
lemma nextSequence_eq (fit : CountersFit notes) (node : Text) :
    nextSequence notes.asks node = nextAsk notes (.decision node) ∧
      nextAsk notes (.decision node) < 2 ^ 64 := by
  have small : nextAsk notes (.decision node) < 2 ^ 64 := by
    unfold nextAsk
    cases found : latestAsk notes.asks node with
    | none => simp [found]
    | some last =>
      obtain ⟨member, about⟩ := mem_of_latestAsk found
      cases number : decideSequence last node with
      | none => simp [found, number]
      | some sequence =>
        simpa [found, number] using fit.sequences last member node about sequence number
  refine ⟨Nat.min_eq_left ?_, small⟩
  unfold nextAsk at small
  dsimp only at small
  omega

/-- A decision node asks under the next number, in place of its earlier questions. -/
lemma ledger_decide {index generation : Nat}
    (formed : ∀ ask ∈ state.notes.asks, Formed ask) (fit : CountersFit state.notes)
    (matching : state.notes.asks.all (askMatches state.driver.plan) = true)
    (dispatched : Dispatched policy state.driver index node .decide checkpoint)
    (small : generation < 2 ^ 64) (about : ask.node = some node.id)
    (id : ask.askId = decideAskId node.id (nextSequence state.notes.asks node.id) generation)
    (asks : state'.notes.asks =
      (state.notes.asks.filter fun ask => ask.node != some node.id) ++ [ask])
    (pauses : state'.notes.pauseAsks = state.notes.pauseAsks)
    (logged : state'.raised = [ask] ++ state.raised) : Ledger.Step state.ledger state'.ledger := by
  obtain ⟨next, fits⟩ := nextSequence_eq fit node.id
  rw [next] at id
  have positive : 0 < nextAsk state.notes (.decision node.id) := Nat.succ_pos _
  have number := decideSequence_of_id id positive fits small
  have after : nextAsk state'.notes (.decision node.id) =
      nextAsk state.notes (.decision node.id) + 1 := by
    have latest : latestAsk state'.notes.asks node.id = some ask := by
      rw [asks, latestAsk_append_self about]
    simp [nextAsk, latest, number]
  have counts : Counts state.notes state'.notes := by
    refine ⟨fun name => ?_, fun old member name count loops => ⟨old, ?_, rfl⟩, pauses.ge⟩
    · by_cases same : name = node.id
      · subst same
        have grows : nextAsk state.notes (.decision node.id) ≤
            nextAsk state'.notes (.decision node.id) := by omega
        exact Nat.le_of_succ_le_succ grows
      · have other : ask.node ≠ some name := by
          rw [about]
          exact fun equal => same (Option.some.inj equal).symm
        rw [asks, latestAsk_append_of_ne other, latestAsk_filter]
        intro ask _ named
        simp [named, same]
    · -- a question of a loop is not about this node
      have elsewhere : old.node ≠ some node.id := fun named =>
        dispatched.asks_decide (all_eq_true.1 matching old member) named
          ((formed old member).loop_of_id loops).1
      rw [asks]
      exact mem_append_left _ (mem_filter.2 ⟨member, by simpa using elsewhere⟩)
  refine issue_of_counts (.decision node.id) counts logged ?_ (by rw [after]; exact Nat.lt_succ_self _)
  rw [id]
  exact readAsk_decideAskId _ _ _

/-- A landing asks under the first number. -/
lemma ledger_land {node : Text} (unasked : latestAsk state.notes.asks node = none)
    (asks : state'.notes.asks = state.notes.asks ++ [landAsk node session])
    (pauses : state'.notes.pauseAsks = state.notes.pauseAsks)
    (logged : state'.raised = [landAsk node session] ++ state.raised) :
    Ledger.Step state.ledger state'.ledger := by
  have counts : Counts state.notes state'.notes := by
    refine counts_append asks pauses.ge fun name about => ?_
    cases about
    rw [unasked]
    rfl
  have before : nextAsk state.notes (.decision node) = 1 := by simp [nextAsk, unasked]
  have number : decideSequence (landAsk node session) node = some 1 :=
    decideSequence_of_id rfl Nat.one_pos (by decide) (by decide)
  have after : nextAsk state'.notes (.decision node) = 2 := by
    have latest : latestAsk state'.notes.asks node = some (landAsk node session) := by
      rw [asks, latestAsk_append_self rfl]
    simp [nextAsk, latest, number]
  refine issue_of_counts (.decision node) counts logged ?_ (by rw [before, after]; exact
    Nat.one_lt_two)
  rw [before]
  exact readAsk_decideAskId _ _ _

/-- A pause asks under the next number. -/
lemma ledger_pause {number : Nat} (fit : CountersFit state.notes)
    (counted : number = (state.notes.pauseAsks + 1) % 2 ^ 64)
    (asks : state'.notes.asks = state.notes.asks ++ [pauseAsk number session])
    (pauses : state'.notes.pauseAsks = number)
    (logged : state'.raised = [pauseAsk number session] ++ state.raised) :
    Ledger.Step state.ledger state'.ledger := by
  have next : number = state.notes.pauseAsks + 1 := by
    rw [counted, Nat.mod_eq_of_lt fit.pauses]
  have counts : Counts state.notes state'.notes :=
    counts_append asks (by omega) fun _ about => absurd about nofun
  refine issue_of_counts .pause counts logged ?_ ?_
  · rw [show nextAsk state.notes .pause = number from next.symm]
    exact readAsk_pauseAskId number
  · rw [nextAsk, nextAsk, pauses, next]
    exact Nat.lt_succ_self _

/-- What a step does to the questions is a step of the ledger. -/
lemma AskChange.ledger (change : AskChange policy event state.driver state'.driver raised)
    (logged : state'.raised = raised ++ state.raised)
    (formed : ∀ ask ∈ state.notes.asks, Formed ask) (fit : CountersFit state.notes) :
    Ledger.Step state.ledger state'.ledger := by
  cases change with
  | resolve resolved kept pauses =>
    obtain ⟨counts, -⟩ := counts_resolve formed resolved kept pauses
    refine .advance counts.nextAsk_le ?_
    simp [Asking.ledger, logged]
  | loop matching dispatched _ _ _ unasked asks pauses =>
    exact ledger_loop formed matching dispatched unasked asks pauses logged
  | decide matching dispatched _ _ _ _ small rendered asks pauses =>
    subst rendered
    exact ledger_decide formed fit matching dispatched small rfl rfl asks pauses logged
  | land _ _ _ _ unasked asks pauses =>
    exact ledger_land unasked asks pauses logged
  | pause _ _ _ _ _ counted asks pauses =>
    exact ledger_pause fit counted asks pauses logged

/-- A step leaves well-formed questions. -/
lemma AskChange.formed {s s' : Driver document} (change : AskChange policy event s s' raised)
    (formed : ∀ ask ∈ s.checkpoint.notes.asks, Formed ask) :
    ∀ ask ∈ s'.checkpoint.notes.asks, Formed ask := by
  have append : ∀ {asks ask}, s'.checkpoint.notes.asks = asks ++ [ask] →
      asks ⊆ s.checkpoint.notes.asks → Formed ask → ∀ ask ∈ s'.checkpoint.notes.asks, Formed ask := by
    intro asks ask changed subset new old member
    rw [changed, mem_append, mem_singleton] at member
    rcases member with member | rfl
    · exact formed old (subset member)
    · exact new
  cases change with
  | resolve resolved kept pauses => exact (counts_resolve formed resolved kept pauses).2
  | loop _ _ _ _ _ _ asks =>
    exact append asks (List.Subset.refl _) (.loop _ _ rfl rfl rfl)
  | decide _ _ _ _ _ _ small rendered asks =>
    refine append asks (filter_subset_self _) ?_
    subst rendered
    have small' : ∀ n : Nat, 0 < min (n + 1) (2 ^ 64 - 1) ∧ min (n + 1) (2 ^ 64 - 1) < 2 ^ 64 := by
      omega
    exact .decision _ _ _ (.inl rfl) rfl rfl (small' _).1 (small' _).2 small
  | land _ _ _ _ _ asks =>
    exact append asks (List.Subset.refl _)
      (.decision _ 1 0 (.inr rfl) rfl rfl Nat.one_pos (by decide) (by decide))
  | pause _ _ _ _ _ _ asks =>
    exact append asks (List.Subset.refl _) (.pause _ rfl rfl rfl)

/-! ### Redos -/

/-- A redo keeps the questions that it does not drop. -/
lemma asks_retryCandidate {candidate : GraphCheckpoint} {brief : Option Text} {dependants : Bool}
    (h : retryCandidate document checkpoint id brief dependants = some (candidate, node)) :
    candidate.notes.pauseAsks = checkpoint.notes.pauseAsks ∧
      (droppedAsks document checkpoint id dependants = [] →
        candidate.notes.asks = checkpoint.notes.asks) := by
  obtain ⟨expanded, target, _, reset, redone, rfl⟩ := retryCandidate_eq_some h
  have notes := redone.frame.1
  have drops : droppedAsks document checkpoint id dependants =
      if (target.composite.isSome || target.loopBody.isSome) || dependants then
        checkpoint.notes.asks.filter fun ask => ask.node.any fun name =>
          (resetIds expanded checkpoint target dependants).contains name
      else [] := by
    unfold droppedAsks
    rw [redone.planned]
    dsimp only
    rw [redone.found]
  split
  next closes =>
    obtain ⟨-, -, -, pauses, asks⟩ :=
      closeExecution_spec (resetIds expanded checkpoint target dependants) reset
    refine ⟨pauses.trans (by rw [notes]), fun none => ?_⟩
    rw [drops, if_pos closes, filter_eq_nil_iff] at none
    rw [asks, notes, filter_eq_self]
    intro ask member
    have kept := none ask member
    cases about : ask.node with
    | none => rfl
    | some _ =>
      rw [about] at kept
      simpa using kept
  · exact ⟨by rw [notes], fun _ => by rw [notes]⟩

/-- A redo that the driver makes itself drops no question. -/
lemma Automatic.asks {s : Driver document} {reason : Text} {brief : Option Text}
    {prior : NodeProgress} {settled candidate : GraphCheckpoint}
    (automatic : Automatic s id prior reason settled)
    (leaf : ∀ node ∈ s.plan.nodes, node.id = id → node.composite = none ∧ node.loopBody = none)
    (redo : retryCandidate document settled id brief false = some (candidate, node)) :
    candidate.notes.pauseAsks = s.checkpoint.notes.pauseAsks ∧
      candidate.notes.asks = s.checkpoint.notes.asks := by
  obtain ⟨pauses, asks⟩ := asks_retryCandidate redo
  have notes : settled.notes = s.checkpoint.notes := by cases automatic <;> rfl
  rw [notes] at pauses asks
  refine ⟨pauses, asks ?_⟩
  obtain ⟨-, extensions, expansions⟩ := automatic.same
  unfold droppedAsks
  cases planned : expand document settled.extensions settled.expansions with
  | none => rfl
  | some expanded =>
    dsimp only
    cases found : expanded.nodes.find? (·.id == id) with
    | none => rfl
    | some target =>
      rw [extensions, expansions] at planned
      have member := (s.mem_plan planned target).1 (mem_of_find?_eq_some found)
      obtain ⟨composite, loop⟩ := leaf target member (by simpa using find?_some found)
      simp [composite, loop]

/-! ### Runs -/

/-- A step that drops no question, and finds no counter at its end. -/
def CountedStep (policy : ReviewPolicy) (state state' : Asking document) : Prop :=
  ∃ request, AskStep policy request state state' ∧ CountersFit state.notes ∧
    ∀ id dependants, request = some (id, dependants) →
      droppedAsks document state.driver.checkpoint id dependants = []

/-- A graph before its first pass has not asked. -/
structure Unasked (state : Asking document) : Prop where
  initial : Initial state.driver
  asks : state.notes.asks = []
  raised : state.raised = []

/-- A step that leaves the questions alone. -/
lemma ledger_same (asks : state'.notes.asks = state.notes.asks)
    (pauses : state'.notes.pauseAsks = state.notes.pauseAsks)
    (logged : state'.raised = state.raised) : Ledger.Step state.ledger state'.ledger := by
  have counts : Counts state.notes state'.notes :=
    ⟨fun node => by rw [asks], fun ask member _ _ _ => ⟨ask, asks ▸ member, rfl⟩, pauses.ge⟩
  refine .advance counts.nextAsk_le ?_
  rw [Asking.ledger, logged]
  rfl

/-- Without drops, every step is a step of the ledger, and leaves well-formed questions. -/
lemma CountedStep.ledger (step : CountedStep policy state state')
    (formed : ∀ ask ∈ state.notes.asks, Formed ask) :
    Ledger.Step state.ledger state'.ledger ∧ ∀ ask ∈ state'.notes.asks, Formed ask := by
  obtain ⟨_, step, fit, kept⟩ := step
  cases step with
  | drive _ _ change logged =>
    exact ⟨change.ledger logged formed fit, change.formed formed⟩
  | retry _ redo _ _ asks pauses logged =>
    obtain ⟨pauses', asks'⟩ := asks_retryCandidate redo
    have same : state'.notes.asks = state.notes.asks := asks.trans (asks' (kept _ _ rfl))
    exact ⟨ledger_same same (pauses.trans pauses') logged, by rw [same]; exact formed⟩
  | redo _ automatic leaf redo _ _ asks pauses logged =>
    obtain ⟨pauses', asks'⟩ := automatic.asks leaf redo
    have same : state'.notes.asks = state.notes.asks := asks.trans asks'
    exact ⟨ledger_same same (pauses.trans pauses') logged, by rw [same]; exact formed⟩

/-- In every run whose redos drop no question, and whose counters do not reach their ends, no
identifier is raised twice.

**Proof sketch.** The questions in the checkpoint are a ledger of identifiers: under each loop and
number of rounds, under each decision node and under the pauses there is a next number, which no step
sets back and which each question uses up (`CountedStep.ledger`). What a ledger issued is distinct,
and an identifier determines what was issued under it (`readAsk`). -/
theorem ask_identity {start : Asking document} (unasked : Unasked start)
    (run : ReflTransGen (CountedStep policy) start state) :
    (state.raised.map (·.askId)).Nodup := by
  have sound : state.ledger.Sound ∧ ∀ ask ∈ state.notes.asks, Formed ask := by
    induction run with
    | refl =>
      refine ⟨.of_issued_nil ?_, ?_⟩
      · rw [Asking.ledger, unasked.raised]
        rfl
      · rw [unasked.asks]
        exact fun _ member => absurd member not_mem_nil
    | tail _ step ih =>
      obtain ⟨ledger, formed⟩ := step.ledger ih.2
      exact ⟨ledger.sound ih.1, formed⟩
  have issued : ((state.raised.map (·.askId)).map readAsk).Nodup := by
    rw [List.map_map]
    exact sound.1.nodup
  exact issued.of_map

/-! ### A redo that asks again -/

/-- A decision node. -/
def choose : GraphNode :=
  { id := text "choose", decide := true, decisionSession := some (text "chair") }

/-- A graph of that node. -/
def chooseDocument : GraphDocument := { graphId := text "choice", nodes := [choose] }

def choosePlan : PlannedGraph :=
  { graphId := text "choice", nodes := [choose] }

/-- The question of the node. -/
def chooseAsk : NodeAsk :=
  decideAsk (text "choose") 1 0 (text "chair") [text "ship", text "hold"] none none

/-- It is the first question of a node that has not asked. -/
lemma chooseAsk_eq : decideAsk (text "choose") (nextSequence [] (text "choose")) 0 (text "chair")
    [text "ship", text "hold"] none none = chooseAsk := by
  have first : nextSequence [] (text "choose") = 1 := by
    unfold nextSequence latestAsk
    norm_num
  rw [first, chooseAsk]

lemma unasked_choose : ∀ last ∈ latestAsk [] (text "choose"),
    last.resolved = true ∧ last.closed = true := by
  intro last found
  cases found

/-- The question after it was answered. -/
def chooseAnswered (closed : Bool) : NodeAsk :=
  { chooseAsk with resolved := true, closed, answer := some { option := some (text "ship") } }

/-- The row of the node in a state. -/
def chooseRow (state : NodeState) : NodeProgress := { freshRow choose with state }

/-- The row of the node after its redo. -/
def chooseAgain (state : NodeState) : NodeProgress :=
  { freshRow choose with state, retryGeneration := some 1 }

/-- A state of the graph. -/
def choosing (phase : Phase) (row : NodeProgress) (expansions : List Expansion)
    (asks raised : List NodeAsk) (aligned : row.id = text "choose" := by rfl)
    (planned : expand chooseDocument [] expansions = some chooseDocument := by rfl) :
    Asking chooseDocument :=
  { driver := {
      plan := choosePlan
      checkpoint := {
        expansions, nodes := [row], notes := { asks, askActor := some (text "chair") } }
      phase, begun := []
      planned := ⟨_, planned, rfl, rfl, rfl, .refl _⟩
      aligned := by rw [map_cons, aligned]; rfl }
    raised }

/-- The state before the first pass. -/
def chooseStart : Asking chooseDocument := choosing .idle (freshRow choose) [] [] []

/-- The state in which the decision was made and its question closed. -/
def chooseDecided : Asking chooseDocument :=
  choosing .idle (chooseRow .succeeded) [] [chooseAnswered true] [chooseAsk]

/-- The record of the redo. -/
def chooseRedo : List Expansion := [.live (retryAddition choose (text "decide again"))]

/-- The state after the redo, in which the node asked again. -/
def chooseAsked : Asking chooseDocument :=
  choosing (.visiting 1) (chooseAgain .running) chooseRedo [chooseAsk] [chooseAsk, chooseAsk]

/-- The redo of the decision is accepted, and drops the question. -/
lemma retryCandidate_chooseDecided :
    retryCandidate chooseDocument chooseDecided.driver.checkpoint (text "choose") none true =
      some ({ nodes := [chooseAgain .pending], notes := { askActor := some (text "chair") } },
        choose) := by
  decide

/-- The counters of the graph are far from their ends. -/
lemma countersFit_choosing {phase : Phase} {row : NodeProgress} {expansions : List Expansion}
    {asks : List NodeAsk} {aligned : row.id = text "choose"}
    {planned : expand chooseDocument [] expansions = some chooseDocument}
    (marked : ∀ ask ∈ asks, ask.mark = chooseAsk.mark) :
    CountersFit (choosing phase row expansions asks raised aligned planned).notes := by
  refine ⟨show 0 + 1 < 2 ^ 64 by decide, fun ask member node about sequence number => ?_⟩
  have mark := marked ask member
  have id : ask.askId = chooseAsk.askId := congrArg Prod.snd mark
  have named : node = text "choose" := by
    rw [show ask.node = some (text "choose") from congrArg Prod.fst mark] at about
    exact (Option.some.inj about).symm
  subst named
  have read : decideSequence ask (text "choose") = some 1 :=
    decideSequence_of_id id Nat.one_pos (by decide) (by decide)
  rw [read] at number
  cases number
  decide

/-- A step of the graph that is neither a redo nor raises a question. -/
lemma askStep_quiet (step : Step policy event state.driver state'.driver)
    (plain : ∀ id, event ≠ .retry id)
    (resolved : Forall₂ SameAsk state.notes.asks state'.notes.asks)
    (pauses : state'.notes.pauseAsks = state.notes.pauseAsks)
    (logged : state'.raised = state.raised) : AskStep policy none state state' :=
  .drive step plain (.resolve resolved (.inl rfl) pauses) logged

/-- The run in which the decision is made. -/
lemma run_chooseDecided :
    ReflTransGen (CountedStep silentPolicy) chooseStart chooseDecided := by
  let s₁ := choosing (.visiting 0) (freshRow choose) [] [] []
  let s₂ := choosing (.visiting 1) (chooseRow .running) [] [chooseAsk] [chooseAsk]
  let s₃ := choosing .idle (chooseRow .running) [] [chooseAsk] [chooseAsk]
  let s₄ := choosing (.visiting 0) (chooseRow .running) [] [chooseAsk] [chooseAsk]
  let s₅ := choosing (.visiting 1) (chooseRow .succeeded) [] [chooseAnswered false] [chooseAsk]
  have r₁ : AskStep silentPolicy none chooseStart s₁ :=
    askStep_quiet (.start rfl ⟨rfl, rfl, rfl, rfl⟩ fun _ => rfl) nofun .nil rfl rfl
  have raises : AskChange silentPolicy (.visit (text "choose")) s₁.driver s₂.driver [chooseAsk] :=
    @AskChange.decide _ _ _ _ 0 choose _ (freshRow choose) _ _ _ _ chooseAsk rfl ⟨rfl, rfl, rfl⟩
      unasked_choose rfl rfl rfl (by decide) chooseAsk_eq.symm rfl rfl
  have r₂ : AskStep silentPolicy none s₁ s₂ :=
    .drive (.settle ⟨rfl, rfl, rfl⟩ (.inr (.inl rfl)) rfl
      (show Keeps (freshRow choose) (chooseRow .running) from ⟨rfl, rfl, rfl, rfl, rfl, rfl⟩)
      ⟨rfl, rfl, rfl, rfl⟩) nofun raises rfl
  have r₃ : AskStep silentPolicy none s₂ s₃ :=
    askStep_quiet (.finish ⟨rfl, rfl, rfl, rfl⟩) nofun (.cons ⟨_, _, _, rfl⟩ .nil) rfl rfl
  have r₄ : AskStep silentPolicy none s₃ s₄ :=
    askStep_quiet (.start rfl ⟨rfl, rfl, rfl, rfl⟩ fun _ => rfl) nofun (.cons ⟨_, _, _, rfl⟩ .nil)
      rfl rfl
  have r₅ : AskStep silentPolicy none s₄ s₅ :=
    askStep_quiet (.settle ⟨rfl, rfl, rfl⟩ (.inr (.inl rfl)) rfl
      (show Keeps (chooseRow .running) (chooseRow .succeeded) from ⟨rfl, rfl, rfl, rfl, rfl, rfl⟩)
      ⟨rfl, rfl, rfl, rfl⟩) nofun (.cons ⟨_, _, _, rfl⟩ .nil) rfl rfl
  have r₆ : AskStep silentPolicy none s₅ chooseDecided :=
    askStep_quiet (.finish ⟨rfl, rfl, rfl, rfl⟩) nofun (.cons ⟨_, _, _, rfl⟩ .nil) rfl rfl
  have counted : ∀ {state' : Asking chooseDocument} {phase : Phase} {row : NodeProgress}
      {asks raised : List NodeAsk} {aligned : row.id = text "choose"},
      AskStep silentPolicy none (choosing phase row [] asks raised aligned) state' →
      (∀ ask ∈ asks, ask.mark = chooseAsk.mark) →
      CountedStep silentPolicy (choosing phase row [] asks raised aligned) state' :=
    fun step marked => ⟨none, step, countersFit_choosing marked, nofun⟩
  have one : ∀ ask ∈ [chooseAsk], ask.mark = chooseAsk.mark := by decide
  have none : ∀ ask ∈ ([] : List NodeAsk), ask.mark = chooseAsk.mark := by decide
  exact (((((ReflTransGen.single (counted r₁ none)).tail (counted r₂ none)).tail
    (counted r₃ one)).tail (counted r₄ one)).tail (counted r₅ one)).tail (counted r₆ (by decide))

/-- The question of the node after a redo that kept the first one. -/
def chooseSecond : NodeAsk :=
  decideAsk (text "choose") 2 0 (text "chair") [text "ship", text "hold"] none none

/-- It is the next question of a node whose first one was closed. -/
lemma chooseSecond_eq : decideAsk (text "choose")
    (nextSequence [chooseAnswered true] (text "choose")) 0 (text "chair")
    [text "ship", text "hold"] none none = chooseSecond := by
  have read : decideSequence (chooseAnswered true) (text "choose") = some 1 :=
    decideSequence_of_id rfl Nat.one_pos (by decide) (by decide)
  have next : nextSequence [chooseAnswered true] (text "choose") = 2 := by
    rw [nextSequence, show latestAsk [chooseAnswered true] (text "choose") =
      some (chooseAnswered true) from rfl, Option.bind_some, read]
    rfl
  rw [next, chooseSecond]

/-- The state in which the node, redone without its dependants, asked again. -/
def chooseTwice : Asking chooseDocument :=
  choosing (.visiting 1) (chooseAgain .running) chooseRedo [chooseSecond] [chooseSecond, chooseAsk]

/-- The redo of the decision alone is accepted, and keeps the question. -/
lemma retryCandidate_chooseAlone :
    retryCandidate chooseDocument chooseDecided.driver.checkpoint (text "choose") none false =
      some ({ nodes := [chooseAgain .pending]
              notes := { asks := [chooseAnswered true], askActor := some (text "chair") } },
        choose) := by
  decide

/-- The run in which the decision is redone alone, and asked about again. -/
lemma run_chooseTwice : ReflTransGen (CountedStep silentPolicy) chooseDecided chooseTwice := by
  let s₁ := choosing .idle (chooseAgain .pending) chooseRedo [chooseAnswered true] [chooseAsk]
  let s₂ := choosing (.visiting 0) (chooseAgain .pending) chooseRedo [chooseAnswered true]
    [chooseAsk]
  have one : ∀ ask ∈ [chooseAnswered true], ask.mark = chooseAsk.mark := by decide
  have r₁ : AskStep silentPolicy (some (text "choose", false)) chooseDecided s₁ :=
    .retry rfl retryCandidate_chooseAlone
      ⟨⟨_, rfl, rfl, rfl, rfl, .refl _⟩, by unfold fitsEnvelope; decide⟩ ⟨rfl, rfl, rfl, rfl⟩ rfl rfl
      rfl
  have kept : droppedAsks chooseDocument chooseDecided.driver.checkpoint (text "choose") false =
      [] := by decide
  have r₂ : AskStep silentPolicy none s₁ s₂ :=
    askStep_quiet (.start rfl ⟨rfl, rfl, rfl, rfl⟩ fun _ => rfl) nofun (.cons ⟨_, _, _, rfl⟩ .nil)
      rfl rfl
  have raises : AskChange silentPolicy (.visit (text "choose")) s₂.driver chooseTwice.driver
      [chooseSecond] :=
    @AskChange.decide _ _ _ _ 0 choose _ (chooseAgain .pending) _ _ _ _ chooseSecond rfl
      ⟨rfl, rfl, rfl⟩ (by decide) rfl rfl rfl (by decide) chooseSecond_eq.symm rfl rfl
  have r₃ : AskStep silentPolicy none s₂ chooseTwice :=
    .drive (.settle ⟨rfl, rfl, rfl⟩ (.inr (.inl rfl)) rfl
      (show Keeps (chooseAgain .pending) (chooseAgain .running) from ⟨rfl, rfl, rfl, rfl, rfl, rfl⟩)
      ⟨rfl, rfl, rfl, rfl⟩) nofun raises rfl
  have redone : CountedStep silentPolicy chooseDecided s₁ := by
    refine ⟨_, r₁, countersFit_choosing one, fun id dependants same => ?_⟩
    cases same
    exact kept
  exact ((ReflTransGen.single redone).tail ⟨_, r₂, countersFit_choosing one, nofun⟩).tail
    ⟨_, r₃, countersFit_choosing one, nofun⟩

lemma unasked_chooseStart : Unasked chooseStart :=
  ⟨⟨rfl, rfl, rfl, rfl, .cons (.inl ⟨(freshRow choose).notes, rfl⟩) .nil⟩, rfl, rfl⟩

/-- A decision that is redone alone asks under a new identifier. -/
theorem ask_identity_chooseTwice :
    (chooseTwice.raised.map (·.askId)).Nodup ∧
      chooseTwice.raised.map (·.askId) = [text "choose.ask-2", text "choose.ask-1"] :=
  ⟨ask_identity unasked_chooseStart (run_chooseDecided.trans run_chooseTwice), by decide⟩

/-- A decision is made and its question closed. Then the decision node is redone with its dependants:
the question is forgotten, and the node asks again under the identifier of the answered one, in the
same session. -/
theorem retry_reuses_ask :
    Unasked chooseStart ∧
      ReflTransGen (CountedStep silentPolicy) chooseStart chooseDecided ∧
      ReflTransGen (fun state state' => ∃ request, AskStep silentPolicy request state state')
        chooseDecided chooseAsked ∧
      chooseDecided.notes.asks = [chooseAnswered true] ∧
      chooseAsked.raised = [chooseAsk, chooseAsk] ∧
      ¬ (chooseAsked.raised.map (·.askId)).Nodup := by
  let s₁ := choosing .idle (chooseAgain .pending) chooseRedo [] [chooseAsk]
  let s₂ := choosing (.visiting 0) (chooseAgain .pending) chooseRedo [] [chooseAsk]
  refine ⟨unasked_chooseStart, run_chooseDecided, ?_, rfl, rfl, by decide⟩
  have r₁ : AskStep silentPolicy (some (text "choose", true)) chooseDecided s₁ :=
    .retry rfl retryCandidate_chooseDecided
      ⟨⟨_, rfl, rfl, rfl, rfl, .refl _⟩, by unfold fitsEnvelope; decide⟩ ⟨rfl, rfl, rfl, rfl⟩ rfl rfl
      rfl
  have r₂ : AskStep silentPolicy none s₁ s₂ :=
    askStep_quiet (.start rfl ⟨rfl, rfl, rfl, rfl⟩ fun _ => rfl) nofun .nil rfl rfl
  have raises : AskChange silentPolicy (.visit (text "choose")) s₂.driver chooseAsked.driver
      [chooseAsk] :=
    @AskChange.decide _ _ _ _ 0 choose _ (chooseAgain .pending) _ _ _ _ chooseAsk rfl
      ⟨rfl, rfl, rfl⟩ unasked_choose rfl rfl rfl (by decide) chooseAsk_eq.symm rfl rfl
  have r₃ : AskStep silentPolicy none s₂ chooseAsked :=
    .drive (.settle ⟨rfl, rfl, rfl⟩ (.inr (.inl rfl)) rfl
      (show Keeps (chooseAgain .pending) (chooseAgain .running) from ⟨rfl, rfl, rfl, rfl, rfl, rfl⟩)
      ⟨rfl, rfl, rfl, rfl⟩) nofun raises rfl
  exact ((ReflTransGen.single ⟨_, r₁⟩).tail ⟨_, r₂⟩).tail ⟨_, r₃⟩

end Provenant.Graph

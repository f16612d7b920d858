import Provenant.Graph.Asks
import Provenant.Graph.Delivery
import Provenant.Graph.LaunchDisposition

/-!
# Landings

A landing pins the branch and the head that the reviews accepted, and then asks the host to merge
the pull request. The policy of its tier says whether the host may merge at once, or only observes
whether the chair merges by hand after a question was put to them. Every step is saved before the
next one, so that a restart goes on from the last save.

## Main definitions

* `landAdvance` — one call of the landing: the list of what it saves, requests and observes, given
  what the host answers.
* `landValid` — what a load requires of the row of a landing.

## Implementation notes

What the host answers during one call is a parameter of the call. A save that fails, an error of the
host and a crash all end the call after a prefix of its list, and the next call starts from the last
save. Titles and bodies of questions and the excerpt of the result are left out.
-/

namespace Provenant.Graph

open Json (Text text)

/-! ### Requests and observations -/

/-- One request to land, or to observe a landing while there is no authority. -/
structure LandRequest where
  graphId : Text
  nodeId : Text
  branch : Text
  head : Text
  pullRequest : Option Nat
  tier : RiskTier
  authority : Option LandAuthority
  deriving DecidableEq

/-- What the host says to a request. -/
inductive LandObservation
  /-- The pull request was found; nothing was merged. -/
  | identified (pullRequest : Nat)
  | merged (pullRequest : Option Nat) (note : Option Text)
  | pending (reason : Text)
  | refused (reason : Text)
  deriving DecidableEq

/-- What a landing does, in the order in which it does it. -/
inductive LandAct
  | save (checkpoint : GraphCheckpoint)
  /-- The save that records the answer to the question. -/
  | answer (checkpoint : GraphCheckpoint)
  | request (request : LandRequest)
  | observe (observation : LandObservation)
  deriving DecidableEq

/-- The checkpoint that an act saves. -/
def LandAct.saved : LandAct → Option GraphCheckpoint
  | .save checkpoint | .answer checkpoint => some checkpoint
  | .request _ | .observe _ => none

/-- An answer from the inbox. -/
structure AskReply where
  option : Option Text := none
  text : Option Text := none
  actor : Text
  answeredAt : Option Nat := none
  deriving DecidableEq

/-- What the host answers during one call. -/
structure LandOwner where
  /-- The policy of the tier, and where it comes from. -/
  policy : LandPolicy
  policySource : LandSource
  /-- A fresh identity of the run, unless there is no randomness. -/
  entropy : Option Text
  actor : Text
  /-- What the inbox holds, or why it cannot be read. -/
  inbox : Except Text (Option AskReply)
  /-- The answers to the requests, in order; the host does not answer beyond them. -/
  observations : List (Except Text LandObservation)
  wallNow : Option Nat
  backoffFirst : Nat
  backoffMax : Nat

/-! ### Texts -/

/-- `OUTPUT_FIELD_BYTES`. -/
def outputFieldBytes : Nat := 1024

/-- `ANSWER_BYTES`. -/
def answerBytes : Nat := 1024

/-- `OPTION_BYTES`. -/
def optionBytes : Nat := 128

/-- `HOST_ID_BYTES`. -/
def hostIdBytes : Nat := 256

/-- `HOLD`: the only option of the question. -/
def hold : Text := text "hold"

/-- `LANDED`: the verdict of a landing. -/
def landed : Text := text "LANDED"

/-- `tier_name`. -/
def RiskTier.name : RiskTier → Text
  | .routine => text "routine"
  | .substantial => text "substantial"
  | .crucial => text "crucial"
  | .terminal => text "terminal"

/-! ### Questions -/

/-- The question is about the node. -/
def NodeAsk.about (ask : NodeAsk) (id : Text) : Bool := ask.node == some id

/-- The place of the last question about a node. -/
def askPosition (asks : List NodeAsk) (id : Text) : Option Nat :=
  (asks.reverse.findIdx? (·.about id)).map (asks.length - 1 - ·)

/-- Change the questions of a checkpoint. -/
def GraphCheckpoint.withAsks (checkpoint : GraphCheckpoint) (asks : List NodeAsk) :
    GraphCheckpoint :=
  { checkpoint with notes := { checkpoint.notes with asks } }

/-- `asks::identity`: who asks is recorded once, before the first question. -/
def askIdentity (owner : LandOwner) (checkpoint : GraphCheckpoint) : Option GraphCheckpoint := do
  let instanceId ← checkpoint.notes.instanceId <|> owner.entropy
  return { checkpoint with notes := { checkpoint.notes with
    instanceId := some instanceId
    askActor := some (checkpoint.notes.askActor.getD owner.actor) } }

/-- `asks::poll`: what the inbox says, and the checkpoint in which the question keeps its error. -/
def pollAsk (owner : LandOwner) (checkpoint : GraphCheckpoint) (position : Nat) :
    Option AskReply × GraphCheckpoint :=
  let result : Except Text (Option AskReply) :=
    if checkpoint.notes.instanceId.isSome && checkpoint.notes.askActor.isSome then owner.inbox
    else .error (text "graph has no ask identity")
  let inboxError := match result with
    | .ok _ => none
    | .error error => some (bounded (text "inbox unavailable: " ++ error) maxAdvanceErrorBytes)
  (result.toOption.join, checkpoint.withAsks
    (checkpoint.notes.asks.modify position fun ask => { ask with inboxError }))

/-- The bytes of a text in a record, without its quotes. -/
def encodedLength : Nat → Text → Nat
  | 0, _ | _, [] => 0
  | steps + 1, byte :: rest =>
    encodedChar byte + encodedLength steps ((byte :: rest).drop (charWidth byte))

/-- `asks::answered`: the answer as it is recorded; a text that is too long is rejected. -/
def recordedAnswer (reply : AskReply) : AskAnswer :=
  let long := reply.text.any fun value => answerBytes < encodedLength value.length value
  { option := reply.option.map (bounded · optionBytes)
    text := if long then none else reply.text
    actor := some (bounded reply.actor hostIdBytes)
    answeredAt := reply.answeredAt
    rejectionCode := if long then some (text "answer_too_large") else none
    rejected := if long then some (text "reply longer than 1024 bytes") else none }

/-! ### The protocol -/

/-- `fail`: the row of the landing fails. -/
def landFail (code reason : Text) (row : NodeProgress) : NodeProgress :=
  { row with
    state := .failed
    outputs := none
    advanceError := some (bounded reason maxAdvanceErrorBytes)
    advanceErrorCode := some code }

/-- `outputs`: what a landing hands over. -/
def landOutputs (record : LandRecord) : NodeOutputs :=
  { verdict := some landed, branch := some record.branch, commit := some record.head }

/-- The row of a landing with its record. -/
def withRecord (record : LandRecord) (row : NodeProgress) : NodeProgress :=
  { row with notes := { row.notes with land := some record } }

/-- The record that pins a head. -/
def pinnedRecord (owner : LandOwner) (node : GraphNode) (branch head : Text) : LandRecord :=
  { tier := node.landTier
    policy := owner.policy
    policySource := owner.policySource
    branch := bounded branch outputFieldBytes
    head := bounded head outputFieldBytes
    authorisedBy := if owner.policy = .auto then some .policy else none }

/-- The request that a record makes. -/
def landRequest (plan : PlannedGraph) (node : GraphNode) (record : LandRecord) : LandRequest :=
  { graphId := plan.graphId
    nodeId := node.id
    branch := record.branch
    head := record.head
    pullRequest := record.pullRequest
    tier := record.tier
    authority := record.authorisedBy }

/-- Why a landing that has to ask cannot. -/
def sessionMissing (node : GraphNode) (record : LandRecord) : Text :=
  text "node " ++ node.id ++ text ": the " ++ record.tier.name ++
    text " tier asks before landing, but neither the land node nor the graph names a decision " ++
    text "session; set land.session or decision_session, or land " ++ record.branch ++ text " at " ++
    record.head ++ text " by hand with provenant land"

/-- Why a landing stops at an answer: no answer can approve it. -/
def answerReason (node : GraphNode) (record : LandRecord) (askId : Text) (answer : AskAnswer) :
    Text × Text :=
  let actor := answer.actor.getD []
  if answer.option = some hold then
    (text "land_held", text "node " ++ node.id ++ text ": land held by " ++ actor ++ text " in " ++
      askId)
  else
    (text "land_answer_cannot_approve", text "node " ++ node.id ++ text ": " ++ actor ++
      text " answered " ++ askId ++ text ", but an answer cannot approve a land; land " ++
      record.branch ++ text " at " ++ record.head ++ text " by hand with provenant land")

/-- The row of a landing whose question was answered. -/
def answeredRow (node : GraphNode) (record : LandRecord) (askId : Text) (answer : AskAnswer)
    (row : NodeProgress) : NodeProgress :=
  { row with
    state := .failed
    advanceError := some (bounded (answerReason node record askId answer).2 maxAdvanceErrorBytes)
    advanceErrorCode := some (answerReason node record askId answer).1
    -- a failed landing keeps no deadline from an earlier observation
    notes := { row.notes with land := row.notes.land.map ({ · with wakeAt := none }) } }

/-- The checkpoint in which the answer to the question at a position is recorded. -/
def recordAnswer (node : GraphNode) (record : LandRecord) (askId : Text) (answer : AskAnswer)
    (position : Nat) (checkpoint : GraphCheckpoint) : GraphCheckpoint :=
  let failed := checkpoint.update node.id (answeredRow node record askId answer)
  refreshWake (failed.withAsks (failed.notes.asks.modify position fun ask =>
    { ask with answer := some answer, resolved := true }))

/-- The second half of `ask_chair`: the question at a position is polled. The question stays open
with the identifier that is returned. -/
def pollChair (owner : LandOwner) (node : GraphNode) (record : LandRecord)
    (checkpoint : GraphCheckpoint) (position : Nat) :
    List LandAct × Option (Text × GraphCheckpoint) :=
  match checkpoint.notes.asks[position]? with
  | none => ([], none)
  | some ask =>
    if ask.resolved then ([], none)
    else
      match pollAsk owner checkpoint position with
      | (none, polled) =>
        let changed := (polled.notes.asks[position]?.bind (·.inboxError)) ≠ ask.inboxError
        (if changed then [.save polled] else [], some (ask.askId, polled))
      | (some reply, polled) =>
        ([.answer (recordAnswer node record ask.askId (recordedAnswer reply) position polled)], none)

/-- `ask_chair`: raise the question, or poll it. -/
def askChair (owner : LandOwner) (plan : PlannedGraph) (node : GraphNode) (record : LandRecord)
    (checkpoint : GraphCheckpoint) : List LandAct × Option (Text × GraphCheckpoint) :=
  match askPosition checkpoint.notes.asks node.id with
  | some position => pollChair owner node record checkpoint position
  | none =>
    match landSession plan node with
    | none =>
      ([.save (checkpoint.update node.id
        (landFail (text "land_session_missing") (sessionMissing node record)))], none)
    | some session =>
      match askIdentity owner checkpoint with
      | none => ([], none)
      | some identified =>
        let asked := refreshWake (identified.withAsks
          (identified.notes.asks ++ [landAsk node.id session]))
        let (acts, result) := pollChair owner node record asked checkpoint.notes.asks.length
        (.save asked :: acts, result)

/-- What follows the last observation of a call. -/
def concludeLand (owner : LandOwner) (node : GraphNode) (asked : Option Text)
    (record : LandRecord) (checkpoint : GraphCheckpoint) : LandObservation → List LandAct
  | .identified _ => []
  | .merged pullRequest note =>
    if record.pullRequest.isNone || record.pullRequest != pullRequest then []
    else
      let final := { record with
        wakeAt := none
        authorisedBy := (asked.map .chair).or record.authorisedBy
        pullRequest
        note := note.map (bounded · maxAdvanceErrorBytes) }
      [.save (refreshWake (checkpoint.update node.id fun row =>
        { withRecord final row with state := .succeeded, outputs := some (landOutputs final) }))]
  | .pending reason =>
    match owner.wallNow.bind fun now => addSeconds now
        (backoffDelay owner.backoffFirst owner.backoffMax record.pendingObservations) with
    | none => []
    | some wakeAt =>
      let waiting := { record with
        note := some (bounded reason maxAdvanceErrorBytes)
        wakeAt := some wakeAt
        pendingObservations := min (record.pendingObservations + 1) (2 ^ 64 - 1) }
      [.save (refreshWake (checkpoint.update node.id (withRecord waiting)))]
  | .refused reason =>
    let stopped := checkpoint.update node.id (withRecord { record with wakeAt := none })
    [.save ((refreshWake stopped).update node.id
      (landFail (text "land_refused") (text "node " ++ node.id ++ text ": land refused: " ++ reason)))]

/-- The requests of a call: a pull request that the host identifies is saved before the next
request. -/
def requestLand (owner : LandOwner) (plan : PlannedGraph) (node : GraphNode) (asked : Option Text) :
    LandRecord → GraphCheckpoint → List (Except Text LandObservation) → List LandAct
  | record, _, [] | record, _, .error _ :: _ => [.request (landRequest plan node record)]
  | record, checkpoint, .ok observation :: rest =>
    .request (landRequest plan node record) :: .observe observation ::
      match observation with
      | .identified pullRequest =>
        if pullRequest = 0 || record.pullRequest.isSome then []
        else
          let known := { record with pullRequest := some pullRequest }
          let saved := checkpoint.update node.id (withRecord known)
          .save saved :: requestLand owner plan node asked known saved rest
      | other => concludeLand owner node asked record checkpoint other

/-- A landing with a record: it asks if it has no authority, and then makes its requests. -/
def driveLand (owner : LandOwner) (plan : PlannedGraph) (node : GraphNode) (record : LandRecord)
    (checkpoint : GraphCheckpoint) : List LandAct :=
  match record.authorisedBy with
  | some _ => requestLand owner plan node none record checkpoint owner.observations
  | none =>
    match askChair owner plan node record checkpoint with
    | (acts, none) => acts
    | (acts, some (askId, polled)) =>
      acts ++ requestLand owner plan node (some askId) record polled owner.observations

/-- `land::advance`: what one call does, as the list of its requests and saves in their order. A
settled landing does nothing. -/
def landAdvance (owner : LandOwner) (plan : PlannedGraph) (node : GraphNode)
    (checkpoint : GraphCheckpoint) : List LandAct :=
  match checkpoint.row? node.id with
  | none => []
  | some row =>
    if row.state.settled then []
    else
      match row.notes.land with
      | some record => driveLand owner plan node record checkpoint
      | none =>
        match deliveredHead plan checkpoint node.landNode with
        | none =>
          [.save (checkpoint.update node.id (landFail (text "land_delivery_missing")
            (text "node " ++ node.id ++ text ": writer " ++ node.landNode ++
              text " delivered no branch and commit to land")))]
        | some (branch, head) =>
          match acceptanceError plan checkpoint node.id node.landNode head with
          | some reason =>
            [.save (checkpoint.update node.id (landFail (text "land_review_required") reason))]
          | none =>
            let record := pinnedRecord owner node branch head
            let pinned := checkpoint.update node.id fun row =>
              { withRecord record row with state := .running }
            .save pinned :: driveLand owner plan node record pinned

/-! ### What a load requires -/

/-- The authority of a record is backed by its policy, and that of the chair by an open question. -/
def authorityValid (row : NodeProgress) (checkpoint : GraphCheckpoint) : Bool :=
  match row.notes.land with
  | none => true
  | some record =>
    match record.authorisedBy with
    | none => true
    | some .policy => record.policy == .auto
    | some (.chair askId) => record.policy == .ask && checkpoint.notes.asks.any fun ask =>
        ask.askId == askId && ask.kind == .land && ask.about row.id && ask.answer.isNone

/-- `land::validate_progress`. -/
def landValid (row : NodeProgress) (checkpoint : GraphCheckpoint) : Bool :=
  authorityValid row checkpoint &&
    (row.state == .running || row.notes.land.all (·.wakeAt.isNone)) &&
    row.attempts.isEmpty && row.gate.isNone && row.notes.ci.isNone &&
    (row.advanceError.isNone || row.state == .failed) &&
    match row.state with
    | .pending | .blocked | .skipped => row.notes.land.isNone && row.outputs.isNone
    | .running => row.notes.land.isSome && row.outputs.isNone
    | .succeeded => (row.notes.land.bind (·.authorisedBy)).isSome &&
        row.outputs.any fun outputs => outputs.verdict == some landed
    | .failed => row.outputs.isNone

end Provenant.Graph

import Provenant.Graph.Model

/-!
# Notes of the host

The host keeps two summaries of the rows in the checkpoint: the next time it has to look at the
graph, and the pause of the loops that wait for a decision. Both are computed again from the rows
when these change.

## Main definitions

* `bounded` — the prefix of a text that fits into a record.
* `nextWake`, `refreshWake` — the next time that the host has to look at the graph.
* `refreshPause` — the pause of the loops.
-/

namespace Provenant.Graph

open Json (Text text)

/-! ### Bounded texts -/

/-- The number of bytes of the character that starts with a byte. -/
def charWidth (byte : UInt8) : Nat :=
  if byte < 0x80 then 1 else if byte < 0xE0 then 2 else if byte < 0xF0 then 3 else 4

/-- `encoded_char`: the number of bytes of the character in a record. -/
def encodedChar (byte : UInt8) : Nat :=
  if [34, 92, 8, 9, 10, 12, 13].contains byte then 2
  else if byte ≤ 31 then 6
  else charWidth byte

/-- The characters at the start of a text that fit into `room`. -/
def boundedFrom : Nat → Nat → Text → Text
  | 0, _, _ | _, _, [] => []
  | steps + 1, room, byte :: rest =>
    if encodedChar byte ≤ room then
      (byte :: rest).take (charWidth byte) ++
        boundedFrom steps (room - encodedChar byte) ((byte :: rest).drop (charWidth byte))
    else []

/-- `bounded`: the longest prefix whose record fits into `room` bytes. -/
def bounded (value : Text) (room : Nat) : Text := boundedFrom value.length room value

/-- Texts with a separator between them. -/
def joinTexts (separator : Text) (texts : List Text) : Text :=
  (texts.intersperse separator).flatten

/-! ### The next wake -/

/-- When a row has to be looked at again. -/
def RowRecord.wakes (row : RowRecord) : List Nat :=
  if row.state == .running then
    ((row.notes.ci.bind (·.wakeAt)).or (row.notes.land.bind (·.wakeAt))).toList ++
      (row.launchRetry.bind (·.wakeAt)).toList
  else []

/-- `next_wake`: the earliest time at which an open question or a running row is due. -/
def nextWake (checkpoint : GraphCheckpoint) : Option Nat :=
  ((checkpoint.notes.asks.filter fun ask => !ask.resolved).filterMap (·.wakeAt) ++
    checkpoint.nodes.flatMap fun row => row.wakes).min?

/-- `refresh_wake`. -/
def refreshWake (checkpoint : GraphCheckpoint) : GraphCheckpoint :=
  { checkpoint with notes := { checkpoint.notes with wakeAt := nextWake checkpoint } }

/-! ### The pause of loops -/

/-- `from_loop_code`. -/
def NodeDecisionCause.fromLoopCode (code : Text) : Option NodeDecisionCause :=
  if code = text "loop_paused" then some .loopPaused
  else if code = text "loop_ask_closed" then some .loopAskClosed
  else if code = text "invalid_loop_decision" then some .invalidLoopDecision
  else none

/-- The code under which a cause pauses the graph, if it takes precedence. -/
def NodeDecisionCause.loopCode : NodeDecisionCause → Option Text
  | .loopAskClosed => some (text "loop_ask_closed")
  | .invalidLoopDecision => some (text "invalid_loop_decision")
  | .loopPaused | .planExpansionPaused .. | .compositeFindingsTruncated .. => none

/-- The code of the graph's pause belongs to loops. -/
def HostNotes.loopPause (notes : HostNotes) : Option NodeDecisionCause :=
  notes.pauseCode.bind NodeDecisionCause.fromLoopCode

/-- `refresh_pause`: the pause of the graph follows the pauses of its loops, unless something
else paused it. -/
def refreshPause (checkpoint : GraphCheckpoint) : GraphCheckpoint :=
  let reasons := checkpoint.nodes.filterMap (·.notes.loopPause)
  if checkpoint.notes.pauseReason.isNone || checkpoint.notes.loopPause.isSome then
    { checkpoint with
      notes := { checkpoint.notes with
        pauseCode :=
          if reasons.isEmpty then none
          else some (((checkpoint.nodes.filterMap (·.notes.loopCause)).findSome?
            NodeDecisionCause.loopCode).getD (text "loop_paused"))
        pauseReason :=
          if reasons.isEmpty then none
          else some (bounded (text "loops paused: " ++ joinTexts (text "; ") reasons) 4096) } }
  else checkpoint

end Provenant.Graph

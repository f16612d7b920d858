import Mathlib.Data.List.DropRight
import Provenant.Data.Numbered

/-!
# The event log of a graph

Observations of a graph are appended to a file, one line of JSON for each event, before the
checkpoint is saved. A line is committed by its newline: reading ignores what follows the last one,
and an append first cuts it off. A call may fail or be interrupted at any point, with any part of
its bytes in the file.

## Main definitions

* `EventLog.parse`, `EventLog.append` — reading and appending.
* `EventLog.eventCodec` — the lines of events whose texts need no escapes.

## Main results

* `EventLog.extends_append` — a call keeps what is committed and commits a part of its events.
* `EventLog.read_run` — what is read after any sequence of calls.

## Implementation notes

The events of a call are any list: they are collected from two checkpoints before the file is
touched. JSON is a codec with what the log relies on: the text of an event has no newline and decodes
to the event. Encoding may fail, as the one codec that is given here does where JSON would escape a
byte; it leaves out the details and the measurements of an event. The file is absent or has bytes,
and a repair replaces it at once.
-/

namespace Provenant.EventLog

open List

open Json (Text text decimal parseIndex)

/-- The byte that commits a line. -/
def newline : UInt8 := 10

/-- Canonical JSON of events, and the reader of a line. -/
structure Codec (E : Type) where
  encode : E → Option Text
  decode : Text → Option E
  unbroken : ∀ event line, encode event = some line → newline ∉ line
  decodes : ∀ event line, encode event = some line → decode line = some event

/-- Where a call fails or is interrupted: before anything is changed, before or after the repair of
an unfinished tail, or when some of its bytes have reached the file. -/
inductive Fault
  | opening
  | repairing
  | repaired
  | writing (reached : Nat)
  deriving DecidableEq, Repr

variable {E : Type} (codec : Codec E)

/-- `parse`: every line that ends in a newline is decoded, the unfinished tail is ignored. -/
def parse (bytes : Text) : Option (List E) :=
  (bytes.splitOn newline).dropLast.mapM codec.decode

/-- `read`: a missing file has no events. -/
def read (file : Option Text) : Option (List E) := parse codec (file.getD [])

/-- The last byte does not commit a line. -/
def torn (bytes : Text) : Bool := bytes.getLast?.any (· != newline)

/-- The bytes up to the last newline. -/
def complete (bytes : Text) : Text := bytes.rdropWhile (· != newline)

/-- What the loop of `append` writes, and whether it ends without an error. -/
def rendered : List E → Text × Bool
  | [] => ([], true)
  | event :: rest =>
    match codec.encode event with
    | none => ([], false)
    | some line => (line ++ newline :: (rendered rest).1, (rendered rest).2)

/-- The lines are appended to the bytes of the file. -/
def write (fault : Option Fault) (events : List E) (bytes : Text) : Option Text × Bool :=
  match fault with
  | some (.writing reached) => (some (bytes ++ (rendered codec events).1.take reached), false)
  | _ => (some (bytes ++ (rendered codec events).1), (rendered codec events).2)

/-- `append`: an unfinished tail is cut off, then the lines are appended. The result is the file and
whether the call returns without an error. -/
def append (fault : Option Fault) (events : List E) (file : Option Text) : Option Text × Bool :=
  let old := file.getD []
  if fault = some .opening then (file, false)
  else if torn old then
    match parse codec old with
    | none => (file, false)
    | some _ =>
      if fault = some .repairing then (file, false)
      else if fault = some .repaired then (some (complete old), false)
      else write codec fault events (complete old)
  else write codec fault events old

/-- The calls of `append_changes` on one log, with the events of each call and whether it returned
without an error. -/
def run : List (Option Fault × List E) → Option Text → Option Text × List (List E × Bool)
  | [], file => (file, [])
  | (fault, events) :: rest, file =>
    let (next, ok) := append codec fault events file
    let (last, results) := run rest next
    (last, (events, ok) :: results)

/-! ### Committed lines -/

variable {codec}

lemma parse_of_notMem {bytes : Text} (unfinished : newline ∉ bytes) :
    parse codec bytes = some [] := by
  rw [parse, splitOn_eq_singleton unfinished]
  rfl

lemma parse_line {event : E} {line : Text} (encoded : codec.encode event = some line)
    (bytes : Text) : parse codec (line ++ newline :: bytes) =
      (parse codec bytes).map (event :: ·) := by
  rw [parse, splitOn_append_cons_self_of_not_mem (codec.unbroken event line encoded),
    dropLast_cons_of_ne_nil (splitOn_ne_nil _ _), mapM_cons,
    codec.decodes event line encoded, parse]
  cases ((bytes.splitOn newline).dropLast.mapM codec.decode) <;> rfl

/-- What follows a newline is read on its own. -/
lemma parse_append {whole : Text} (clean : torn whole = false) (more : Text) :
    parse codec (whole ++ more) =
      (parse codec whole).bind fun held => (parse codec more).map (held ++ ·) := by
  have empty : parse codec [] = some [] := parse_of_notMem (by simp)
  rcases eq_nil_or_concat whole with rfl | ⟨front, last, rfl⟩
  · simp [empty]
  · have commits : last = newline := by simpa [torn] using clean
    have split (bytes : Text) : parse codec (front ++ newline :: bytes) =
        ((front.splitOn newline).mapM codec.decode).bind fun held =>
          (parse codec bytes).map (held ++ ·) := by
      rw [parse, parse, splitOn_append_cons_self,
        dropLast_append_of_ne_nil (splitOn_ne_nil _ _), mapM_append]
      cases (front.splitOn newline).mapM codec.decode <;>
        cases (bytes.splitOn newline).dropLast.mapM codec.decode <;> rfl
    rw [commits, concat_eq_append, append_assoc, singleton_append, split, split]
    cases (front.splitOn newline).mapM codec.decode <;> simp [empty]

/-- The repair leaves no unfinished tail and keeps what is committed. -/
lemma parse_complete (codec : Codec E) (bytes : Text) :
    torn (complete bytes) = false ∧ parse codec (complete bytes) = parse codec bytes := by
  have clean : torn (complete bytes) = false := by
    by_cases empty : complete bytes = []
    · rw [empty]
      rfl
    · rw [torn, getLast?_eq_some_getLast empty]
      simpa [complete] using rdropWhile_last_not _ _ empty
  have unfinished : newline ∉ bytes.rtakeWhile (· != newline) := fun member => by
    simpa using mem_rtakeWhile_imp member
  have parts : complete bytes ++ bytes.rtakeWhile (· != newline) = bytes := by
    rw [complete, List.rdropWhile, List.rtakeWhile, ← reverse_append,
      takeWhile_append_dropWhile, reverse_reverse]
  refine ⟨clean, ?_⟩
  conv_rhs => rw [← parts, parse_append clean, parse_of_notMem unfinished]
  cases parse codec (complete bytes) <;> simp

/-- Any part of the bytes of a call commits a part of its events. All bytes commit all events if
the loop ends without an error. -/
lemma parse_take_rendered (codec : Codec E) (events : List E) (reached : Nat) :
    ∃ kept, parse codec ((rendered codec events).1.take reached) = some kept ∧ kept <+: events ∧
      ((rendered codec events).1.length ≤ reached → (rendered codec events).2 = true →
        kept = events) := by
  induction events generalizing reached with
  | nil => exact ⟨[], parse_of_notMem (by simp [rendered]), nil_prefix, fun _ _ => rfl⟩
  | cons event rest ih =>
    unfold rendered
    cases encoded : codec.encode event with
    | none => exact ⟨[], parse_of_notMem (by simp), nil_prefix, nofun⟩
    | some line =>
      rcases Nat.lt_or_ge line.length reached with past | within
      · obtain ⟨kept, read, part, all⟩ := ih (reached - line.length - 1)
        refine ⟨event :: kept, ?_, cons_prefix_cons.2 ⟨rfl, part⟩, fun enough ok => ?_⟩
        · obtain ⟨more, rfl⟩ := Nat.exists_eq_add_of_lt past
          simp only [Nat.add_assoc, Nat.add_sub_cancel_left, Nat.add_sub_cancel] at read ⊢
          rw [take_length_add_append, take_succ_cons, parse_line encoded, read]
          rfl
        · rw [all (by simp at enough; omega) ok]
      · refine ⟨[], parse_of_notMem fun member => ?_, nil_prefix, fun enough => ?_⟩
        · rw [take_append_of_le_length within] at member
          exact codec.unbroken event line encoded (mem_of_mem_take member)
        · simp at enough
          omega

/-! ### Calls -/

/-- The part of the events of a call that is kept: all of them if it returned without an error. -/
def Keeps (result : List E × Bool) (part : List E) : Prop :=
  part <+: result.1 ∧ (result.2 = true → part = result.1)

/-- A call that leaves a file and a result has kept what was held and a part of its events. -/
def Extends (codec : Codec E) (held events : List E) (outcome : Option Text × Bool) : Prop :=
  ∃ part, Keeps (events, outcome.2) part ∧ read codec outcome.1 = some (held ++ part)

variable {held : List E} {file : Option Text}

lemma extends_stopped (h : read codec file = some held) (events : List E) :
    Extends codec held events (file, false) :=
  ⟨[], ⟨ nil_prefix, nofun⟩, by rw [h, append_nil]⟩

lemma extends_write {whole : Text} (clean : torn whole = false)
    (h : parse codec whole = some held) (fault : Option Fault) (events : List E) :
    Extends codec held events (write codec fault events whole) := by
  have joins {bytes : Text} {part : List E} (added : parse codec bytes = some part) :
      read codec (some (whole ++ bytes)) = some (held ++ part) := by
    rw [read, Option.getD_some, parse_append clean, h, added]
    rfl
  unfold write
  split
  next reached =>
    obtain ⟨part, added, within, -⟩ := parse_take_rendered codec events reached
    exact ⟨part, ⟨within, nofun⟩, joins added⟩
  · obtain ⟨part, added, within, all⟩ := parse_take_rendered codec events _
    rw [take_length] at added
    exact ⟨part, ⟨within, all le_rfl⟩, joins added⟩

/-- A call keeps what is committed and commits a part of its events. -/
lemma extends_append (h : read codec file = some held) (fault : Option Fault) (events : List E) :
    Extends codec held events (append codec fault events file) := by
  obtain ⟨clean, same⟩ := parse_complete codec (file.getD [])
  have repaired := same.trans h
  unfold append
  dsimp only
  rw [show parse codec (file.getD []) = some held from h]
  split
  · exact extends_stopped h events
  · split
    · dsimp only
      split
      · exact extends_stopped h events
      · split
        · exact extends_stopped (show read codec (some _) = _ from repaired) events
        · exact extends_write clean repaired fault events
    next whole =>
      exact extends_write (by simpa using whole) h fault events

/-- **The log survives torn appends.** After any sequence of calls on a new log, each of which may
fail or be interrupted anywhere, reading succeeds and returns one part of the events of each call
after the other, in the order of the calls, and all events of the calls that returned without an
error. -/
theorem read_run (codec : Codec E) (calls : List (Option Fault × List E)) :
    ∃ parts, List.Forall₂ Keeps (run codec calls none).2 parts ∧
      read codec (run codec calls none).1 = some parts.flatten := by
  suffices runs : ∀ file held, read codec file = some held →
      ∃ parts, List.Forall₂ Keeps (run codec calls file).2 parts ∧
        read codec (run codec calls file).1 = some (held ++ parts.flatten) from
    runs none [] (parse_of_notMem (by simp))
  induction calls with
  | nil => exact fun file held h => ⟨[], .nil, by simpa [run] using h⟩
  | cons call rest ih =>
    intro file held h
    obtain ⟨part, keeps, next⟩ := extends_append h call.1 call.2
    obtain ⟨parts, later, last⟩ := ih _ _ next
    exact ⟨part :: parts, .cons keeps later, by simpa [run] using last⟩

/-! ### The lines of events -/

/-- `GraphEventKind`. -/
inductive GraphEventKind
  | checkpoint | nodeState | attempt | wait | gate | join | cancellation | budget | effect
  | expansion | patch
  deriving DecidableEq, Repr

/-- The name of a kind in JSON. -/
def GraphEventKind.name : GraphEventKind → Text
  | .checkpoint => text "checkpoint"
  | .nodeState => text "node_state"
  | .attempt => text "attempt"
  | .wait => text "wait"
  | .gate => text "gate"
  | .join => text "join"
  | .cancellation => text "cancellation"
  | .budget => text "budget"
  | .effect => text "effect"
  | .expansion => text "expansion"
  | .patch => text "patch"

/-- All kinds of events. -/
def kinds : List GraphEventKind :=
  [.checkpoint, .nodeState, .attempt, .wait, .gate, .join, .cancellation, .budget, .effect,
    .expansion, .patch]

/-- `GraphEvent` without details and measurements, after the epoch. -/
structure GraphEvent where
  timestampMicros : Nat
  kind : GraphEventKind
  subject : Text
  code : Text
  digest : Text
  deriving DecidableEq, Repr

/-- The byte around a text. -/
def quote : UInt8 := 34

/-- What the quotes in the canonical JSON of an event separate, its members in the order of their
names. -/
def pieces (event : GraphEvent) : List Text :=
  [text "\x7b", text "code", text ":", event.code, text ",", text "digest", text ":", event.digest,
    text ",", text "kind", text ":", event.kind.name, text ",", text "subject", text ":",
    event.subject, text ",", text "timestamp_micros",
    text ":" ++ decimal event.timestampMicros ++ text "\x7d"]

/-- JSON shows the bytes of the text as they are. -/
def plain (bytes : Text) : Bool := bytes.all fun byte => 32 ≤ byte && byte != quote && byte != 92

/-- The line of an event whose texts are plain. -/
def encodeEvent (event : GraphEvent) : Option Text :=
  if plain event.code && plain event.digest && plain event.subject then
    some ([quote].intercalate (pieces event))
  else none

/-- The event of a line, which has to be its canonical JSON. -/
def decodeEvent (line : Text) : Option GraphEvent :=
  match line.splitOn quote with
  | [_, _, _, code, _, _, _, digest, _, _, _, kind, _, _, _, subject, _, _, stamp] => do
    let kind ← kinds.find? (·.name == kind)
    let timestampMicros ← parseIndex (stamp.drop 1).dropLast
    let event := { timestampMicros, kind, subject, code, digest }
    if pieces event = line.splitOn quote then some event else none
  | _ => none

lemma find_name (kind : GraphEventKind) : kinds.find? (·.name == kind.name) = some kind := by
  cases kind <;> decide +kernel

/-- No piece of a plain event has a quote or ends its line. -/
lemma plain_pieces {event : GraphEvent} {line : Text} (encoded : encodeEvent event = some line) :
    line = [quote].intercalate (pieces event) ∧ ∀ piece ∈ pieces event, plain piece = true := by
  unfold encodeEvent at encoded
  split at encoded
  next texts =>
    simp only [Bool.and_eq_true] at texts
    have stamp : plain (decimal event.timestampMicros) = true := by
      refine all_eq_true.2 fun byte member => ?_
      have digit := Json.isDigit_of_mem_decimal member
      simp only [Json.isDigit, quote, Bool.and_eq_true, decide_eq_true_eq, bne_iff_ne, ne_eq,
        UInt8.le_iff_toNat_le, ← UInt8.toNat_inj, UInt8.toNat_ofNat] at digit ⊢
      omega
    have name : plain event.kind.name = true := by cases event.kind <;> decide +kernel
    have signs : ∀ sign ∈ [text "\x7b", text "code", text ":", text ",", text "digest", text "kind",
        text "subject", text "timestamp_micros", text "\x7d"], plain sign = true := by decide +kernel
    have last : plain (text ":" ++ decimal event.timestampMicros ++ text "\x7d") = true := by
      rw [plain, all_append, all_append, Bool.and_eq_true, Bool.and_eq_true]
      exact ⟨⟨signs _ (by simp), stamp⟩, signs _ (by simp)⟩
    refine ⟨(Option.some.inj encoded).symm, fun piece member => ?_⟩
    simp only [pieces, mem_cons, not_mem_nil, or_false] at member
    rcases member with rfl | rfl | rfl | rfl | rfl | rfl | rfl | rfl | rfl | rfl | rfl | rfl | rfl |
      rfl | rfl | rfl | rfl | rfl | rfl
    all_goals first
      | exact last
      | exact name
      | exact texts.1.1
      | exact texts.1.2
      | exact texts.2
      | exact signs _ (by simp)
  next => cases encoded

lemma plain_notMem {bytes : Text} (h : plain bytes = true) : quote ∉ bytes ∧ newline ∉ bytes := by
  constructor <;> intro member <;> exact absurd (all_eq_true.1 h _ member) (by decide)

/-- The bytes of joined pieces are those of the pieces and of what joins them. -/
lemma mem_intercalate {separator : Text} {parts : List Text} {byte : UInt8}
    (h : byte ∈ separator.intercalate parts) :
    byte ∈ separator ∨ ∃ piece ∈ parts, byte ∈ piece := by
  induction parts with
  | nil => simp at h
  | cons piece rest ih =>
    cases rest with
    | nil => exact .inr ⟨piece, by simpa using h⟩
    | cons next rest =>
      rw [intercalate_cons_cons, mem_append, mem_append] at h
      rcases h with (inside | between) | later
      · exact .inr ⟨piece, mem_cons_self, inside⟩
      · exact .inl between
      · exact (ih later).imp_right fun ⟨other, held, inside⟩ =>
          ⟨other, mem_cons_of_mem piece held, inside⟩

/-- Events with plain texts, one line each. -/
def eventCodec : Codec GraphEvent where
  encode := encodeEvent
  decode := decodeEvent
  unbroken event line encoded member := by
    obtain ⟨rfl, plain⟩ := plain_pieces encoded
    rcases mem_intercalate member with between | ⟨piece, held, inside⟩
    · exact absurd between (by decide)
    · exact (plain_notMem (plain piece held)).2 inside
  decodes event line encoded := by
    obtain ⟨rfl, plain⟩ := plain_pieces encoded
    have split : ([quote].intercalate (pieces event)).splitOn quote = pieces event :=
      splitOn_intercalate quote (fun piece held => (plain_notMem (plain piece held)).1)
        (by simp [pieces])
    have stamp : ((text ":" ++ decimal event.timestampMicros ++ text "\x7d").drop 1).dropLast =
        decimal event.timestampMicros := by
      rw [show text ":" = [58] by decide +kernel, show text "\x7d" = [125] by decide +kernel,
        singleton_append, cons_append, drop_succ_cons, drop_zero, dropLast_concat]
    rw [decodeEvent, split]
    simp only [pieces, find_name, stamp, Json.parseIndex_decimal, Option.bind_eq_bind,
      Option.bind_some, if_true]

/-! ### A torn append

The node `a` starts, fails and succeeds when it is redone. The second call is interrupted after forty
bytes of its line, and the third one cuts them off. -/

/-- The state of the node `a` changes. -/
def changed (timestampMicros : Nat) (code : String) : GraphEvent :=
  { timestampMicros, kind := .nodeState, subject := text "a", code := text code,
    digest := text "sha256" }

/-- The three calls. -/
def tornCalls : List (Option Fault × List GraphEvent) :=
  [(none, [changed 1 "running"]), (some (.writing 40), [changed 2 "failed"]),
    (none, [changed 3 "succeeded"])]

/-- The events of the first and the third call are read, and at most that of the second. -/
theorem read_run_tornCalls :
    (run eventCodec tornCalls none).2.map (·.2) = [true, false, true] ∧
      ∃ part, part <+: [changed 2 "failed"] ∧
        read eventCodec (run eventCodec tornCalls none).1 =
          some (changed 1 "running" :: (part ++ [changed 3 "succeeded"])) := by
  have results : (run eventCodec tornCalls none).2 = [([changed 1 "running"], true),
      ([changed 2 "failed"], false), ([changed 3 "succeeded"], true)] := by decide +kernel
  obtain ⟨parts, keeps, read⟩ := read_run eventCodec tornCalls
  rw [results] at keeps
  cases keeps with
  | cons first keeps =>
    cases keeps with
    | cons second keeps =>
      cases keeps with
      | cons third keeps =>
        cases keeps
        rw [first.2 rfl, third.2 rfl] at read
        refine ⟨by rw [results]; rfl, _, second.1, ?_⟩
        simpa using read

end Provenant.EventLog

import Mathlib.Data.List.Basic
import Provenant.Data.Json

/-!
# Bounded capture of a stream

The output of a process is pushed into a capture as it is read. Each push is cut into chunks, a
filter may rewrite a chunk or hold bytes back until the end, and a policy says what is retained of
the filtered bytes: the first of them, with or without a copy to a sink, the last of them, or none.
The chunks also go to a decoder, line by line, and an unfinished line at the end of a chunk may be
delivered early.

## Main definitions

* `Capture.push`, `Capture.finish` — the capture as far as it filters and retains.
* `Capture.Steady` — the filters whose total output does not depend on the chunks.
* `Capture.delivered` — the capture as far as it delivers frames, with what its sink accepted.
* `Capture.allOnce` — no delivery counts a frame that is counted otherwise.

## Main results

* `Capture.retained_finish` — what is retained of the whole stream.
* `Capture.counted_iff` — when each frame is counted once; `Capture.counted_twice` is a run in which
  one is not.

## Implementation notes

The two parts of a capture share no field and are two machines. Limits are at most 64 MiB, so the
saturating sums are exact. A sink answers each of its calls as it likes.
-/

namespace Provenant.Capture

open List Option
open Json (Text text)

/-- `INPUT_CHUNK_LIMIT`. -/
def inputChunkLimit : Nat := 16 * 1024

/-- `FRAME_LIMIT`. -/
def frameLimit : Nat := 64 * 1024

/-- `QueueLoss`. -/
inductive QueueLoss
  | full
  | closed
  deriving DecidableEq, Repr

/-- `StreamPolicy`; the sink of a tee answers with a loss or takes the bytes. -/
inductive StreamPolicy
  | capture (limit : Nat)
  | tail (limit : Nat)
  | discard
  | tee (limit : Nat) (trySend : Nat → Text → Option QueueLoss)

/-- `CaptureFilter` over its own state. Both calls may fail. -/
structure CaptureFilter (F : Type) where
  filter : F → Text → Option (Text × F)
  finish : F → Option Text

/-- `CapturedStream`, with the number of offers to the sink of a tee. -/
structure CapturedStream where
  offers : Nat := 0
  bytes : Text := []
  truncated : Bool := false
  sinkLostBytes : Nat := 0
  sinkFailed : Bool := false
  filterFailed : Bool := false

/-- `StreamCapture`. -/
structure StreamCapture (F : Type) where
  filterState : F
  filterDisabled : Bool := false
  finished : Bool := false
  outcome : CapturedStream := {}

/-- The offer of `retain_filtered` to the sink of a tee. -/
def offer (trySend : Nat → Text → Option QueueLoss) (bytes : Text) (out : CapturedStream) :
    CapturedStream :=
  match trySend out.offers bytes with
  | none => { out with offers := out.offers + 1 }
  | some loss =>
    { out with
      offers := out.offers + 1
      sinkLostBytes := out.sinkLostBytes + bytes.length
      sinkFailed := out.sinkFailed || loss == .closed }

/-- The end of `retain_filtered`: bytes are appended as far as there is room. -/
def appendWithin (limit : Nat) (bytes : Text) (out : CapturedStream) : CapturedStream :=
  let room := limit - out.bytes.length
  { out with
    bytes := out.bytes ++ bytes.take (min bytes.length room)
    truncated := out.truncated || decide (room < bytes.length) }

/-- `retain_filtered`. -/
def retainFiltered (policy : StreamPolicy) (bytes : Text) (out : CapturedStream) :
    CapturedStream :=
  if bytes = [] then out else
    match policy with
    | .tail limit =>
      let discard := out.bytes.length + bytes.length - limit
      { out with
        truncated := out.truncated || decide (0 < discard)
        bytes :=
          if out.bytes.length ≤ discard then bytes.drop (discard - out.bytes.length)
          else out.bytes.drop discard ++ bytes }
    | .discard => out
    | .capture limit => appendWithin limit bytes out
    | .tee limit trySend => appendWithin limit bytes (offer trySend bytes out)

variable {F : Type}

/-- What `filter_and_retain` retains of a chunk; a filter that emits too much counts as failed. -/
def filtered (filter : Option (CaptureFilter F)) (state : F) (chunk : Text) : Option (Text × F) :=
  match filter with
  | none => some (chunk, state)
  | some filter => (filter.filter state chunk).filter (·.1.length ≤ frameLimit)

/-- What `finish_filter` retains. -/
def flushed (filter : Option (CaptureFilter F)) (state : F) : Option Text :=
  match filter with
  | none => some []
  | some filter => (filter.finish state).filter (·.length ≤ frameLimit)

variable (policy : StreamPolicy) (filter : Option (CaptureFilter F))

/-- A filter that has failed is not asked again, and nothing more is retained. -/
def disable (c : StreamCapture F) : StreamCapture F :=
  { c with filterDisabled := true, outcome := { c.outcome with filterFailed := true } }

/-- `filter_and_retain`. -/
def filterAndRetain (c : StreamCapture F) (chunk : Text) : StreamCapture F :=
  if c.filterDisabled then c else
    match filtered filter c.filterState chunk with
    | some (bytes, state) =>
      { c with filterState := state, outcome := retainFiltered policy bytes c.outcome }
    | none => disable c

/-- `finish_filter`. -/
def finishFilter (c : StreamCapture F) : StreamCapture F :=
  if c.filterDisabled then c else
    match flushed filter c.filterState with
    | some bytes => { c with outcome := retainFiltered policy bytes c.outcome }
    | none => disable c

/-- `bytes.chunks(INPUT_CHUNK_LIMIT)`. -/
def chunks (bytes : Text) : List Text :=
  if bytes = [] then [] else bytes.take inputChunkLimit :: chunks (bytes.drop inputChunkLimit)
termination_by bytes.length
decreasing_by
  have := length_pos_of_ne_nil ‹_›
  simp only [length_drop, inputChunkLimit]
  omega

/-- `push`: a finished capture refuses bytes. -/
def push (c : StreamCapture F) (bytes : Text) : StreamCapture F :=
  if c.finished then c else (chunks bytes).foldl (filterAndRetain policy filter) c

/-- `finish`: repeated calls change nothing. -/
def finish (c : StreamCapture F) : StreamCapture F :=
  if c.finished then c else { finishFilter policy filter c with finished := true }

/-- What is retained of the stream `stream` under a policy. -/
def Retained : StreamPolicy → Text → CapturedStream → Prop
  | .capture limit, stream, out | .tee limit _, stream, out =>
    out.bytes = stream.take limit ∧ (out.truncated = true ↔ limit < stream.length)
  | .tail limit, stream, out =>
    out.bytes = stream.drop (stream.length - limit) ∧ (out.truncated = true ↔ limit < stream.length)
  | .discard, _, out => out.bytes = [] ∧ out.truncated = false

/-- The total output of a filter on chunks, with what it flushes at the end. -/
def output (filter : Option (CaptureFilter F)) : F → List Text → Option Text
  | state, [] => flushed filter state
  | state, chunk :: rest =>
    (filtered filter state chunk).bind fun (bytes, next) =>
      (output filter next rest).map (bytes ++ ·)

/-- There is no filter, or one that never fails, never emits more than `frameLimit` at once, and
turns a stream into `whole` of it however the stream is cut. -/
def Steady (filter : Option (CaptureFilter F)) (start : F) (whole : Text → Text) : Prop :=
  (filter = none ∧ whole = id) ∨
    ∀ parts : List Text, (∀ part ∈ parts, part.length ≤ inputChunkLimit) →
      output filter start parts = some (whole parts.flatten)

section
variable {policy} {filter} {stream : Text} {out : CapturedStream} {c : StreamCapture F}

lemma retained_appendWithin {limit : Nat} (bytes : Text) (kept : out.bytes = stream.take limit)
    (cut : out.truncated = true ↔ limit < stream.length) :
    (appendWithin limit bytes out).bytes = (stream ++ bytes).take limit ∧
      ((appendWithin limit bytes out).truncated = true ↔ limit < (stream ++ bytes).length) := by
  have room : limit - out.bytes.length = limit - stream.length := by
    rw [kept, length_take]
    omega
  simp only [appendWithin, room, take_append, Bool.or_eq_true, cut, decide_eq_true_eq,
    length_append]
  refine ⟨?_, by omega⟩
  rw [kept, Nat.min_comm, ← take_eq_take_min]

/-- **Proof sketch.** A tail that holds `min limit n` of the `n` bytes so far loses as many of them
as the new bytes leave no room for, and the new bytes lose what exceeds the limit alone. -/
lemma Retained.retainFiltered (retained : Retained policy stream out) (bytes : Text) :
    Retained policy (stream ++ bytes) (retainFiltered policy bytes out) := by
  unfold Capture.retainFiltered
  split
  next none => simpa [none] using retained
  · cases policy with
    | capture limit => exact retained_appendWithin bytes retained.1 retained.2
    | tee limit trySend =>
      have same : (offer trySend bytes out).bytes = out.bytes ∧
          (offer trySend bytes out).truncated = out.truncated := by
        unfold offer
        split <;> exact ⟨rfl, rfl⟩
      exact retained_appendWithin bytes (same.1 ▸ retained.1) (same.2 ▸ retained.2)
    | discard => exact retained
    | tail limit =>
      obtain ⟨kept, cut⟩ := retained
      have old : out.bytes.length = min limit stream.length := by
        rw [kept, length_drop]
        omega
      simp only [Retained, drop_append, length_append, Bool.or_eq_true, cut, decide_eq_true_eq, old]
      refine ⟨?_, by omega⟩
      split
      · rw [drop_eq_nil_of_le (by omega : stream.length ≤ _), nil_append]
        congr 1
        omega
      · rw [kept, drop_drop, show _ - stream.length = 0 by omega, drop_zero]
        congr 2
        omega

/-- Pushes feed the chunks of all of them, one after another. -/
lemma foldl_push (pushes : List Text) (live : c.finished = false) :
    pushes.foldl (push policy filter) c =
      (pushes.flatMap chunks).foldl (filterAndRetain policy filter) c := by
  induction pushes generalizing c with
  | nil => rfl
  | cons bytes rest ih =>
    simp only [foldl_cons, flatMap_cons, foldl_append, push, live]
    refine ih (foldlRecOn (motive := fun fed : StreamCapture F => fed.finished = false) _ _ live
      fun fed still chunk _ => ?_)
    unfold filterAndRetain disable
    repeat' split
    all_goals exact still

/-- From a capture that holds what it should of `stream`, feeding chunks and finishing retains what
it should of `stream` with the output of the filter after it. -/
lemma Retained.feed {rest : Text} (parts : List Text) (live : c.finished = false)
    (enabled : c.filterDisabled = false) (retained : Retained policy stream c.outcome)
    (total : output filter c.filterState parts = some rest) :
    Retained policy (stream ++ rest)
      (finish policy filter (parts.foldl (filterAndRetain policy filter) c)).outcome := by
  induction parts generalizing c stream rest with
  | nil =>
    have flush : flushed filter c.filterState = some rest := total
    simpa [finish, live, finishFilter, enabled, flush] using retained.retainFiltered rest
  | cons chunk later ih =>
    obtain ⟨⟨bytes, next⟩, fed, total⟩ := bind_eq_some_iff.1 total
    obtain ⟨after, remaining, rfl⟩ := map_eq_some_iff.1 total
    have step : filterAndRetain policy filter c chunk = { c with
        filterState := next, outcome := Capture.retainFiltered policy bytes c.outcome } := by
      simp [filterAndRetain, enabled, fed]
    rw [foldl_cons, step, ← append_assoc]
    exact ih live enabled (retained.retainFiltered bytes) remaining

lemma output_none (start : F) (parts : List Text) :
    output none start parts = some parts.flatten := by
  induction parts with
  | nil => rfl
  | cons part rest ih => simp [output, filtered, ih]

lemma flatten_chunks (bytes : Text) :
    (chunks bytes).flatten = bytes ∧ ∀ part ∈ chunks bytes, part.length ≤ inputChunkLimit := by
  fun_induction chunks bytes with
  | case1 => simp
  | case2 bytes some ih =>
    simp only [flatten_cons, ih.1, take_append_drop, forall_mem_cons, true_and]
    exact ⟨length_take_le .., ih.2⟩
end

/-- However a stream is cut into pushes, after the end the capture holds what its policy says of the
filtered stream. -/
theorem retained_finish (start : F) (whole : Text → Text) (steady : Steady filter start whole)
    (pushes : List Text) :
    Retained policy (whole pushes.flatten) (finish policy filter
      (pushes.foldl (push policy filter) { filterState := start })).outcome := by
  have joined : (pushes.flatMap chunks).flatten = pushes.flatten := by
    induction pushes with
    | nil => rfl
    | cons bytes rest ih => simp [ih, (flatten_chunks bytes).1]
  have out : output filter start (pushes.flatMap chunks) = some (whole pushes.flatten) := by
    rcases steady with ⟨rfl, rfl⟩ | steady
    · rw [output_none, joined]
      rfl
    · rw [steady, joined]
      intro part here
      obtain ⟨bytes, -, here⟩ := mem_flatMap.1 here
      exact (flatten_chunks bytes).2 part here
  rw [foldl_push pushes rfl]
  have empty : Retained policy [] {} := by cases policy <;> simp [Retained]
  exact Retained.feed (c := { filterState := start }) _ rfl rfl empty out

/-- A filter that holds back the last byte of what it has seen until the end. -/
def holding : CaptureFilter Text where
  filter held chunk := some ((held ++ chunk).dropLast, (held ++ chunk).getLast?.toList)
  finish held := some held

/-- However a stream is cut, the filter puts out the whole of it. -/
lemma output_holding (parts : List Text) (small : ∀ part ∈ parts, part.length ≤ inputChunkLimit)
    (held : Text) (one : held.length ≤ 1) :
    output (some holding) held parts = some (held ++ parts.flatten) := by
  induction parts generalizing held with
  | nil =>
    have short : held.length ≤ frameLimit := one.trans (by decide)
    simp [output, flushed, holding, short]
  | cons chunk rest ih =>
    have least : inputChunkLimit ≤ frameLimit := by decide
    have short : (held ++ chunk).dropLast.length ≤ frameLimit := by
      have := small chunk mem_cons_self
      rw [length_dropLast, length_append]
      omega
    have next := ih (fun part member => small part (mem_cons_of_mem chunk member))
      (held ++ chunk).getLast?.toList (length_toList_le)
    have whole : (held ++ chunk).dropLast ++ (held ++ chunk).getLast?.toList = held ++ chunk := by
      rcases eq_nil_or_concat (held ++ chunk) with none | ⟨front, last, some⟩
      · rw [none]
        rfl
      · rw [some]
        simp
    rw [output, filtered]
    simp only [holding, Option.filter_some, decide_eq_true_eq, short, if_true, bind_some] at next ⊢
    rw [next, map_some, ← append_assoc, whole, flatten_cons, append_assoc]

/-- The last three bytes of two pushes, through a filter that holds one of them back. -/
theorem retained_finish_holding :
    (finish (.tail 3) (some holding)
      ([text "ab", text "cdef"].foldl (push (.tail 3) (some holding))
        { filterState := [] })).outcome.bytes = text "def" := by
  have steady : Steady (some holding) [] id := .inr fun parts small =>
    output_holding parts small [] (Nat.zero_le 1)
  exact (retained_finish (.tail 3) (some holding) [] id steady _).1.trans (by decide)

/-! ### The delivery of frames -/

/-- The byte that ends a frame. -/
def newline : UInt8 := 10

/-- `FrameDelivery::Provider`: a decoder, and the answers of the sink of events to its calls. -/
structure FrameDelivery (E : Type) where
  decode : Text → Option E
  partialTerminal : Text → Bool
  trySend : Nat → E → Option QueueLoss

/-- `Frames` with the counters of the outcome, and the number of events that were offered to the
sink so far. -/
structure Frames where
  bytes : Text := []
  oversized : Bool := false
  partialTerminalSent : Bool := false
  calls : Nat := 0
  decoderLostFrames : Nat := 0
  oversizedFrames : Nat := 0

section
variable {E : Type} (d : FrameDelivery E)

/-- The decoder makes an event of the open frame, and the sink accepts it. -/
def takes (f : Frames) : Bool :=
  (d.decode f.bytes).any fun event => (d.trySend f.calls event).isNone

/-- `deliver`, with the loss that its callers count, and whether the sink took the event. -/
def deliver (f : Frames) : Frames × Bool :=
  ({ f with
      calls := f.calls + (d.decode f.bytes).isSome.toNat
      decoderLostFrames := f.decoderLostFrames + (!takes d f).toNat },
    takes d f)

/-- One byte of `decode_delivery`. -/
def decodeByte (f : Frames) (byte : UInt8) : Frames × Bool :=
  if byte = newline then
    let (f, taken) := if f.oversized || f.partialTerminalSent then (f, false) else deliver d f
    ({ f with bytes := [], oversized := false, partialTerminalSent := false }, taken)
  else if f.oversized then (f, false)
  else if f.bytes.length = frameLimit then
    ({ f with bytes := [], oversized := true, oversizedFrames := f.oversizedFrames + 1 }, false)
  else ({ f with bytes := f.bytes ++ [byte] }, false)

/-- The end of `decode_delivery`: a part of a frame may show that the provider is done. -/
def deliverPartial (f : Frames) : Frames × Bool :=
  if f.oversized || f.partialTerminalSent || !d.partialTerminal f.bytes then (f, false)
  else
    let (f, taken) := deliver d f
    ({ f with partialTerminalSent := taken }, taken)

/-- `finish_delivery`. -/
def finishDelivery (f : Frames) : Frames × Bool :=
  let (f, taken) :=
    if f.bytes = [] || f.oversized || f.partialTerminalSent then (f, false) else deliver d f
  ({ f with bytes := [] }, taken)

/-- `discard_partial_frame`, which does not ask whether the frame was delivered. -/
def discardPartialFrame (f : Frames) : Frames :=
  { f with
    bytes := [], oversized := false
    decoderLostFrames := f.decoderLostFrames + (!f.oversized && f.bytes ≠ []).toNat }

/-- What `decode_delivery` reads of a push: the bytes of each chunk, and the end of the chunk. -/
inductive Input
  | byte (value : UInt8)
  | chunkEnd

/-- The bytes of an input. -/
def Input.bytes : Input → Text
  | .byte value => [value]
  | .chunkEnd => []

/-- What is read of a push. -/
def inputs (bytes : Text) : List Input :=
  (chunks bytes).flatMap fun chunk => chunk.map .byte ++ [.chunkEnd]

/-! ### What the sink sees -/

/-- A capture beside what its sink has seen of it: the index of the open frame, and the indices of
the frames whose events it accepted. The capture reads neither. -/
structure Observed where
  state : Frames := {}
  frame : Nat := 0
  accepted : List Nat := []

/-- A delivery is seen. -/
def Observed.after (o : Observed) (ended : Bool) (result : Frames × Bool) : Observed where
  state := result.1
  frame := o.frame + ended.toNat
  accepted := if result.2 then o.accepted ++ [o.frame] else o.accepted

/-- `decode_delivery` on one input. -/
def Observed.read (o : Observed) : Input → Observed
  | .byte byte => o.after (byte == newline) (decodeByte d o.state byte)
  | .chunkEnd => o.after false (deliverPartial d o.state)

/-- `finish`, or `into_outcome` without it. -/
def Observed.close (finished : Bool) (o : Observed) : Observed :=
  if finished then o.after false (finishDelivery d o.state)
  else { o with state := discardPartialFrame o.state }

/-- The capture after its pushes and its end. -/
def delivered (pushes : List Text) (finished : Bool) : Observed :=
  ((pushes.flatMap inputs).foldl (Observed.read d) {}).close d finished

/-- Accepted events, lost frames and oversized frames. -/
@[simp] def Observed.counted (o : Observed) : Nat :=
  o.accepted.length + o.state.decoderLostFrames + o.state.oversizedFrames

/-- The frames of a stream: those that a newline ends, and what follows the last newline. -/
def frames (stream : Text) : Nat :=
  stream.count newline + if stream.getLast?.all (· == newline) then 0 else 1

/-- An input makes the capture count nothing twice: a frame that was accepted early does not outgrow
the limit, and an unfinished frame that is delivered at the end of a chunk is decoded and accepted. -/
def once (f : Frames) : Input → Bool
  | .byte byte =>
    byte == newline || f.oversized || f.bytes.length != frameLimit || !f.partialTerminalSent
  | .chunkEnd => f.oversized || f.partialTerminalSent || !d.partialTerminal f.bytes || takes d f

/-- So does the end: a frame that was accepted early is not abandoned, and has a byte. -/
def endsOnce (finished : Bool) (f : Frames) : Bool :=
  f.oversized || !f.partialTerminalSent || finished && f.bytes ≠ []

/-- So does everything that is read, and the end. -/
def allOnce (finished : Bool) : Observed → List Input → Bool
  | o, [] => endsOnce finished o.state
  | o, input :: rest => once d o.state input && allOnce finished (o.read d input) rest

/-- The counts of a capture that has taken in `stream` and counted `extra` too much. -/
structure Accounted (stream : Text) (extra : Nat) (o : Observed) : Prop where
  frame : o.frame = stream.count newline
  closed : (o.state.bytes = [] ∧ o.state.oversized = false) ↔
    stream.getLast?.all (· == newline) = true
  counts : o.counted = o.frame + extra + (o.state.oversized || o.state.partialTerminalSent).toNat
  order : o.accepted.Pairwise (· < ·)
  upTo : ∀ i ∈ o.accepted, i < o.frame + o.state.partialTerminalSent.toNat

namespace Accounted
variable {d} {stream : Text} {extra : Nat} {o : Observed} (known : Accounted stream extra o)
include known

/-- A frame that was not delivered is counted, and accepted after all others or not. -/
lemma deliver (unsent : o.state.partialTerminalSent = false) (ended : Bool) :
    let seen := o.after ended (deliver d o.state)
    seen.counted = o.counted + 1 ∧ seen.accepted.Pairwise (· < ·) ∧
      ∀ i ∈ seen.accepted, i < o.frame + (takes d o.state).toNat := by
  have upTo := known.upTo
  rw [unsent] at upTo
  unfold Capture.deliver Observed.after
  dsimp only
  generalize takes d o.state = taken
  cases taken with
  | false =>
    refine ⟨?_, known.order, upTo⟩
    simp
    omega
  | true =>
    refine ⟨?_, pairwise_append.2 ⟨known.order, pairwise_singleton .., by simpa using upTo⟩, ?_⟩
    · simp
      omega
    · intro i mem
      rcases mem_append.1 mem with old | new
      · exact Nat.lt_succ_of_lt (upTo i old)
      · simp [mem_singleton.1 new]

/-- A frame that ends is counted, if it was not before. -/
lemma settle (ended : Bool) : ∃ result,
    (if o.state.oversized || o.state.partialTerminalSent then (o.state, false)
      else Capture.deliver d o.state) = result ∧
    (o.after ended result).counted = o.frame + extra + 1 ∧
    (o.after ended result).accepted.Pairwise (· < ·) ∧
    ∀ i ∈ (o.after ended result).accepted, i < o.frame + 1 := by
  refine ⟨_, rfl, ?_⟩
  have counts := known.counts
  split
  · next counted =>
    rw [counted] at counts
    exact ⟨counts, known.order, fun i mem =>
      (known.upTo i mem).trans_le (Nat.add_le_add_left (Bool.toNat_le _) _)⟩
  · next uncounted =>
    rw [Bool.not_eq_true] at uncounted
    rw [uncounted] at counts
    obtain ⟨counted, order, upTo⟩ := known.deliver (Bool.or_eq_false_iff.1 uncounted).2 ended
    exact ⟨by rw [counted, counts]; rfl, order, fun i mem =>
      (upTo i mem).trans_le (Nat.add_le_add_left (Bool.toNat_le _) _)⟩

lemma decodeByte (byte : UInt8) : Accounted (stream ++ [byte])
    (extra + (!once d o.state (.byte byte)).toNat) (o.read d (.byte byte)) := by
  unfold Observed.read Capture.decodeByte
  dsimp only
  split
  · next ends =>
    obtain ⟨result, settled, counts, order, upTo⟩ := known.settle (d := d) (byte == newline)
    rw [settled]
    refine ⟨by simp [Observed.after, known.frame, ends], by simp [ends, Observed.after], ?_, order,
      by simpa [Observed.after, ends] using upTo⟩
    simp [Observed.after, once, ends] at counts ⊢
    omega
  · next inside =>
    have counts := known.counts
    have frame : o.frame = (stream ++ [byte]).count newline := by
      simp [known.frame, inside]
    have same : (byte == newline) = false := beq_false_of_ne inside
    split
    · next oversized =>
      refine ⟨by simp [Observed.after, same, frame], by simp [Observed.after, oversized, inside], ?_,
        known.order, by simpa [Observed.after, same] using known.upTo⟩
      simpa [Observed.after, once, same, oversized] using counts
    · next small =>
      split
      · next full =>
        refine ⟨by simp [Observed.after, same, frame], by simp [Observed.after, inside], ?_,
          known.order, by simpa [Observed.after, same] using known.upTo⟩
        simp [Observed.after, once, same, small, full] at counts ⊢
        omega
      · next room =>
        refine ⟨by simp [Observed.after, same, frame], by simp [Observed.after, inside], ?_,
          known.order, by simpa [Observed.after, same] using known.upTo⟩
        have fits : (o.state.bytes.length != frameLimit) = true := bne_iff_ne.2 room
        simpa [Observed.after, once, same, fits] using counts

lemma deliverPartial : Accounted stream (extra + (!once d o.state .chunkEnd).toNat)
    (o.read d .chunkEnd) := by
  unfold Observed.read Capture.deliverPartial
  dsimp only
  split
  · next late =>
    have fine : once d o.state .chunkEnd = true := by
      rw [once, late, Bool.true_or]
    rw [fine]
    exact ⟨known.frame, known.closed, known.counts, known.order, known.upTo⟩
  · next early =>
    rw [Bool.not_eq_true] at early
    have fine : once d o.state .chunkEnd = takes d o.state := by rw [once, early, Bool.false_or]
    simp only [Bool.or_eq_false_iff] at early
    obtain ⟨counted, order, upTo⟩ := known.deliver (d := d) early.1.2 false
    have counts := known.counts
    rw [fine]
    refine ⟨known.frame, known.closed, counted.trans ?_, order, upTo⟩
    rw [counts, early.1.1, early.1.2]
    simp only [Observed.after, Capture.deliver, early.1.1]
    cases takes d o.state <;> rfl

lemma read (input : Input) : Accounted (stream ++ input.bytes)
    (extra + (!once d o.state input).toNat) (o.read d input) := by
  cases input with
  | byte byte => exact known.decodeByte byte
  | chunkEnd => simpa [Input.bytes] using known.deliverPartial

lemma close (finished : Bool) :
    (o.close d finished).accepted.Pairwise (· < ·) ∧
      (o.close d finished).counted =
        frames stream + (extra + (!endsOnce finished o.state).toNat) := by
  unfold Observed.close frames
  rw [← known.frame]
  have counts := known.counts
  by_cases closed : o.state.bytes = [] ∧ o.state.oversized = false
  · rw [if_pos (known.closed.1 closed)]
    cases finished <;>
      simp [Observed.after, Capture.finishDelivery, discardPartialFrame, endsOnce, closed,
        known.order] at counts ⊢ <;> omega
  · rw [if_neg (mt known.closed.2 closed)]
    cases finished with
    | true =>
      obtain ⟨result, settled, counts, order, -⟩ := known.settle (d := d) false
      have same : (o.state.bytes = [] || o.state.oversized || o.state.partialTerminalSent) =
          (o.state.oversized || o.state.partialTerminalSent) := by
        cases oversized : o.state.oversized <;> simp_all
      have fine : endsOnce true o.state = true := by
        cases oversized : o.state.oversized <;> simp_all [endsOnce]
      rw [if_pos rfl, Capture.finishDelivery, same, settled, fine]
      refine ⟨order, ?_⟩
      simp [Observed.after] at counts ⊢
      omega
    | false =>
      refine ⟨known.order, ?_⟩
      cases oversized : o.state.oversized
      all_goals
        simp_all [discardPartialFrame, endsOnce]
        omega

/-- What is counted too much at the end is nothing exactly if nothing was before, and no input and
not the end adds to it. -/
lemma delivered (finished : Bool) (rest : List Input) : ∃ total,
    ((rest.foldl (Observed.read d) o).close d finished).counted =
        frames (stream ++ rest.flatMap Input.bytes) + total ∧
      (total = 0 ↔ extra = 0 ∧ allOnce d finished o rest = true) ∧
      ((rest.foldl (Observed.read d) o).close d finished).accepted.Pairwise (· < ·) := by
  induction rest generalizing o stream extra with
  | nil =>
    obtain ⟨order, counted⟩ := known.close (d := d) finished
    refine ⟨_, by simpa using counted, ?_, order⟩
    rw [allOnce]
    cases endsOnce finished o.state <;> simp
  | cons input rest ih =>
    obtain ⟨total, counted, nothing, order⟩ := ih (known.read (d := d) input)
    refine ⟨total, by simpa using counted, ?_, order⟩
    rw [nothing, allOnce]
    cases once d o.state input <;> simp

end Accounted
end

/-- The bytes of what is read are those of the pushes. -/
lemma flatMap_inputs (pushes : List Text) :
    (pushes.flatMap inputs).flatMap Input.bytes = pushes.flatten := by
  have chunk (bytes : Text) : (bytes.map Input.byte ++ [Input.chunkEnd]).flatMap Input.bytes = bytes := by
    induction bytes with
    | nil => rfl
    | cons byte _ ih => simpa [Input.bytes] using ih
  have push (bytes : Text) : (inputs bytes).flatMap Input.bytes = bytes := by
    rw [inputs, flatMap_assoc, flatMap_congr fun part _ => chunk part, flatMap_id',
      (flatten_chunks bytes).1]
  rw [flatMap_assoc, flatMap_congr fun bytes _ => push bytes, flatMap_id']

/-- **When every frame is counted once:** unless an unfinished frame is refused by the decoder or the
sink, or one that the sink took early outgrows the limit, is abandoned or has no byte when the stream
ends. None is accepted twice.

**Proof sketch.** At every byte the counts exceed the ended frames by one if the open frame is
counted already, and by what was counted too much before (`Accounted`). Each input adds to that
exactly if it is not counted once. The end settles the open frame. -/
theorem counted_iff {E : Type} (d : FrameDelivery E) (pushes : List Text) (finished : Bool) :
    ((delivered d pushes finished).counted = frames pushes.flatten ↔
      allOnce d finished {} (pushes.flatMap inputs) = true) ∧
    (delivered d pushes finished).accepted.Nodup := by
  have start : Accounted [] 0 {} := ⟨rfl, by simp, rfl, .nil, by simp⟩
  obtain ⟨total, counted, nothing, order⟩ :=
    start.delivered (d := d) finished (pushes.flatMap inputs)
  rw [nil_append, flatMap_inputs] at counted
  refine ⟨?_, order.imp Nat.ne_of_lt⟩
  rw [delivered, counted, Nat.add_eq_left, nothing]
  simp

/-- The sink refuses the event of an unfinished frame and takes it when the frame is finished. -/
theorem counted_twice :
    let d : FrameDelivery Unit := ⟨fun _ => some (), (· == [97]),
      fun call _ => if call = 0 then some .full else none⟩
    (delivered d [[97], [newline]] true).counted = 2 ∧ frames [97, newline] = 1 := by
  have chunk : ∀ byte, chunks [byte] = [[byte]] := by
    intro byte
    rw [chunks, chunks]
    rfl
  simp only [delivered, inputs, flatMap_cons, flatMap_nil, chunk]
  decide

end Provenant.Capture

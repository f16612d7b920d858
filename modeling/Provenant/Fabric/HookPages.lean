import Mathlib.Data.List.Forall2
import Provenant.Data.Fallible
import Provenant.Data.Json

/-!
# Pages of answers for a hook

A hook reads the answers that wait for its session page by page. A page ends where its bytes do or
after sixteen rows, and hands out the key of the last row that it met as a cursor.

## Main definitions

* `LocalDelivery.readHookAnswerPage` — one page, with its cursor.
* `LocalDelivery.Follows` — the pages from a cursor to the last one.
* `LocalDelivery.Complete` — the pages meet every candidate once, in order, and fit.

## Main results

* `LocalDelivery.paging_complete_iff` — the pages are complete if and only if every answer that belongs to
  the target can be encoded inside a page.
* `LocalDelivery.nested_answer_hides` — a stored answer that cannot be hides all others.

## Implementation notes

The rows are those of the project of the target. Decoding and the canonical encoding are parameters;
a page nests its offers two levels deep. The deadline of a read is left out.
-/

namespace Provenant.LocalDelivery

open List Option

open Json (Text text)

/-- `AnswerTarget`. -/
structure AnswerTarget where
  host : Text
  session : Text
  actor : Text
  deriving DecidableEq

/-- `AnswerDeliveryState`. -/
inductive AnswerDeliveryState
  | queued | offered | acknowledged
  deriving DecidableEq

/-- The name of a state in a record. -/
def AnswerDeliveryState.name : AnswerDeliveryState → Text
  | queued => text "queued"
  | offered => text "offered"
  | acknowledged => text "acknowledged"

/-- `HumanAnswer`; only its encoding reads `rest`. -/
structure HumanAnswer (K β : Type) where
  schemaVersion : Nat := 1
  id : K
  rest : β

/-- `AnswerDelivery`; only its encoding reads `rest`. -/
structure AnswerDelivery (K β : Type) where
  schemaVersion : Nat := 1
  answerId : K
  target : AnswerTarget
  rest : β

/-- `AnswerOffer`. -/
structure AnswerOffer (K β : Type) where
  answer : HumanAnswer K β
  delivery : AnswerDelivery K β

/-- A row of the outbox: the texts that the query extracts from its delivery, and what the delivery
and the answer decode to, if they do. -/
structure OutboxRow (K β : Type) where
  key : K
  extract : String → Option Text
  delivery : Option (AnswerDelivery K β)
  answer : Option (HumanAnswer K β)

/-- The rows of a project, by their keys. -/
structure Outbox (K β : Type) [LinearOrder K] where
  rows : List (OutboxRow K β)
  ordered : rows.Pairwise (·.key < ·.key)

/-- `MAX_LOCAL_OFFER_ITEMS`. -/
def maxLocalOfferItems : Nat := 16

/-- `MAX_LOCAL_OFFER_BYTES`. -/
def maxLocalOfferBytes : Nat := 8192 * maxLocalOfferItems

/-- What becomes of a row: it is an item of the page, or reported as too large or as invalid. -/
inductive Entry (K β : Type)
  | item (offer : AnswerOffer K β)
  | oversized (key : K)
  | invalid (key : K)

/-- The state of the loop over the rows, with what became of the rows that it met. -/
structure Scan (K β : Type) where
  met : List (Entry K β) := []
  truncated : Bool := false
  lastScanned : Option K := none

variable {K β : Type}

/-- The items of the page. -/
def Scan.items (scan : Scan K β) : List (AnswerOffer K β) :=
  scan.met.filterMap fun | .item offer => some offer | .oversized _ | .invalid _ => none

section Pages

variable [LinearOrder K] (encode : Nat → AnswerOffer K β → Option Text) (target : AnswerTarget)

/-- `candidates_sql`, for a hook: the rows after the cursor that are for the target, in the state
and not marked as too large. -/
def Outbox.candidates (outbox : Outbox K β) (state : AnswerDeliveryState) (after : Option K) :
    List (OutboxRow K β) :=
  outbox.rows.filter fun row =>
    row.extract "target_host" == some target.host &&
      row.extract "target_session" == some target.session &&
      row.extract "target_actor" == some target.actor && row.extract "state" == some state.name &&
      (row.extract "error").getD [] != text "hook_envelope_too_large" && after.all (· < row.key)

/-- The offer of a row whose records decode, have the current version and belong together. -/
def OutboxRow.offer? (row : OutboxRow K β) : Option (AnswerOffer K β) := do
  let delivery ← row.delivery
  let answer ← row.answer
  if delivery.schemaVersion = 1 ∧ answer.schemaVersion = 1 ∧ delivery.answerId = answer.id ∧
      row.key = answer.id ∧ delivery.target = target then
    some ⟨answer, delivery⟩
  else none

/-- The canonical bytes of a page. -/
def pageBytes (items : List (AnswerOffer K β)) (truncated : Bool) : Option Text :=
  (items.mapM (encode 2)).map fun parts =>
    text "\x7b\"items\":[" ++ [(44 : UInt8)].intercalate parts ++ text "],\"truncated\":" ++
      text (if truncated then "true\x7d" else "false\x7d")

/-- One row of the loop, and whether the loop goes on. A row that does not fit ends the page if it
fits alone: the next page meets it. -/
def scanRow (scan : Scan K β) (row : OutboxRow K β) : Option (Scan K β × Bool) :=
  match row.offer? target with
  | none =>
    some ({ scan with met := scan.met ++ [.invalid row.key], lastScanned := some row.key }, true)
  | some offer =>
    (pageBytes encode (scan.items ++ [offer]) scan.truncated).bind fun bytes =>
      if bytes.length ≤ maxLocalOfferBytes then
        some ({ scan with met := scan.met ++ [.item offer], lastScanned := some row.key }, true)
      else (pageBytes encode [offer] false).map fun alone =>
        if maxLocalOfferBytes < alone.length then
          (⟨scan.met ++ [.oversized row.key], true, some row.key⟩, true)
        else ({ scan with truncated := true }, false)

/-- The loop over the rows; a row beyond the limit only shows that there are more. -/
def scanRows : Nat → Scan K β → List (OutboxRow K β) → Option (Scan K β)
  | _, scan, [] => some scan
  | 0, scan, _ :: _ => some { scan with truncated := true }
  | left + 1, scan, row :: rows =>
    (scanRow encode target scan row).bind fun (scan, more) =>
      if more then scanRows left scan rows else some scan

/-- `read_hook_answer_page`: a page, and the cursor of the next one. -/
def readHookAnswerPage (outbox : Outbox K β) (state : AnswerDeliveryState) (after : Option K) :
    Option (Scan K β × Option K) :=
  if state = .acknowledged then none
  else (scanRows encode target maxLocalOfferItems {} (outbox.candidates target state after)).map
    fun scan => (scan, if scan.truncated then scan.lastScanned else none)

/-- The pages from a cursor to the one that has none. -/
inductive Follows (outbox : Outbox K β) (state : AnswerDeliveryState) :
    Option K → List (Scan K β) → Prop
  | last {after page}
      (read : readHookAnswerPage encode target outbox state after = some (page, none)) :
      Follows outbox state after [page]
  | next {after page cursor pages}
      (read : readHookAnswerPage encode target outbox state after = some (page, some cursor))
      (rest : Follows outbox state (some cursor) pages) : Follows outbox state after (page :: pages)

/-- The page is within the limit of its bytes. -/
def Scan.Fits (page : Scan K β) : Prop :=
  ∃ bytes, pageBytes encode page.items page.truncated = some bytes ∧
    bytes.length ≤ maxLocalOfferBytes

/-- The row is met rightly: an item is its offer, one that is too large does not fit alone, and an
invalid one has no offer. -/
def Met (row : OutboxRow K β) : Entry K β → Prop
  | .item offer => row.offer? target = some offer ∧ (encode 2 offer).isSome = true
  | .oversized key => key = row.key ∧ ∃ offer bytes, row.offer? target = some offer ∧
      pageBytes encode [offer] false = some bytes ∧ maxLocalOfferBytes < bytes.length
  | .invalid key => key = row.key ∧ row.offer? target = none

/-- Reading from the start ends, its pages meet the candidates one by one, and every page fits. -/
def Complete (outbox : Outbox K β) (state : AnswerDeliveryState) : Prop :=
  ∃ pages, Follows encode target outbox state none pages ∧
    Forall₂ (Met encode target) (outbox.candidates target state none)
      (pages.flatMap (·.met)) ∧ ∀ page ∈ pages, page.Fits encode

/-- The offer of the row can be encoded inside a page. -/
def Encodable (row : OutboxRow K β) : Prop :=
  ∀ offer, row.offer? target = some offer → (encode 2 offer).isSome = true

/-! ### One page -/

variable {encode target} {scan : Scan K β} {row : OutboxRow K β} {rows : List (OutboxRow K β)}

omit [LinearOrder K] in
lemma isSome_pageBytes {items : List (AnswerOffer K β)} {truncated : Bool} :
    (pageBytes encode items truncated).isSome = true ↔
      ∀ offer ∈ items, (encode 2 offer).isSome = true := by
  rw [pageBytes, isSome_map, Fallible.isSome_mapM]

omit [LinearOrder K] in
/-- The flag of a page that ends early is one byte shorter. -/
lemma pageBytes_truncated {items : List (AnswerOffer K β)} {bytes : Text}
    (encoded : pageBytes encode items false = some bytes) (truncated : Bool) :
    ∃ shorter, pageBytes encode items truncated = some shorter ∧ shorter.length ≤ bytes.length := by
  obtain ⟨parts, mapped, rfl⟩ := map_eq_some_iff.1 encoded
  refine ⟨_, map_eq_some_iff.2 ⟨parts, mapped, rfl⟩, ?_⟩
  have flags : (text (if truncated then "true\x7d" else "false\x7d")).length ≤
      (text "false\x7d").length := by cases truncated <;> decide
  simpa using flags

omit [LinearOrder K] in
lemma Scan.Fits.truncate (fits : scan.Fits encode) :
    Scan.Fits encode { scan with truncated := true } := by
  obtain ⟨bytes, encoded, small⟩ := fits
  cases flag : scan.truncated with
  | true => exact ⟨bytes, by rw [← encoded, flag]; rfl, small⟩
  | false =>
    rw [flag] at encoded
    obtain ⟨shorter, encoded', less⟩ := pageBytes_truncated encoded true
    exact ⟨shorter, encoded', less.trans small⟩

/-- A row is met, or ends a page that has met rows. -/
lemma scanRow_spec (fits : scan.Fits encode) (encodable : Encodable encode target row) :
    (∃ next entry, scanRow encode target scan row = some (next, true) ∧ next.Fits encode ∧
      Met encode target row entry ∧ next.met = scan.met ++ [entry] ∧
      next.lastScanned = some row.key) ∨
      scanRow encode target scan row = some ({ scan with truncated := true }, false) ∧
        scan.met ≠ [] := by
  unfold scanRow
  cases found : row.offer? target with
  | none =>
    refine .inl ⟨_, .invalid row.key, rfl, ?_, ⟨rfl, found⟩, rfl, rfl⟩
    simpa [Scan.Fits, Scan.items] using fits
  | some offer =>
    have encodes := encodable offer found
    obtain ⟨bytes, encoded⟩ := isSome_iff_exists.1
      (@isSome_pageBytes _ _ encode (scan.items ++ [offer]) scan.truncated |>.2 fun other member =>
        (mem_append.1 member).elim
          (isSome_pageBytes.1 (isSome_iff_exists.2 (fits.imp fun _ => And.left)) other)
          fun new => mem_singleton.1 new ▸ encodes)
    obtain ⟨alone, single⟩ := isSome_iff_exists.1
      (@isSome_pageBytes _ _ encode [offer] false |>.2 (by simpa using encodes))
    dsimp only
    rw [encoded, bind_some, single]
    by_cases small : bytes.length ≤ maxLocalOfferBytes
    · rw [if_pos small]
      exact .inl ⟨_, .item offer, rfl, ⟨bytes, by simpa [Scan.items] using encoded, small⟩,
        ⟨found, encodes⟩, rfl, rfl⟩
    · rw [if_neg small, map_some]
      by_cases large : maxLocalOfferBytes < alone.length
      · rw [if_pos large]
        exact .inl ⟨_, .oversized row.key, rfl,
          by simpa [Scan.Fits, Scan.items] using fits.truncate,
          ⟨rfl, offer, alone, found, single, large⟩, rfl, rfl⟩
      · rw [if_neg large]
        refine .inr ⟨rfl, fun empty => small ?_⟩
        -- a row that fits alone is an item of an empty page
        have items : scan.items ++ [offer] = [offer] := by rw [Scan.items, empty]; rfl
        obtain ⟨_, encoded', _⟩ := pageBytes_truncated single scan.truncated
        rw [items, encoded'] at encoded
        cases encoded
        omega

/-- A page meets the first rows, one by one. If it leaves rows, it says so, and has met one. -/
lemma scanRows_spec (left : Nat) (fits : scan.Fits encode)
    (encodable : ∀ row ∈ rows, Encodable encode target row) :
    ∃ page taken rest entries, scanRows encode target left scan rows = some page ∧
      page.Fits encode ∧ rows = taken ++ rest ∧ Forall₂ (Met encode target) taken entries ∧
      page.met = scan.met ++ entries ∧
      page.lastScanned = (taken.getLast?.map (·.key)).or scan.lastScanned ∧
      (rest ≠ [] → page.truncated = true ∧ (taken ≠ [] ∨ scan.met ≠ [] ∨ left = 0)) := by
  induction rows generalizing left scan with
  | nil =>
    unfold scanRows
    exact ⟨_, [], [], [], rfl, fits, rfl, .nil, by simp, rfl, by simp⟩
  | cons row rows ih =>
    cases left with
    | zero =>
      exact ⟨_, [], _, [], rfl, fits.truncate, rfl, .nil, by simp, rfl,
        fun _ => ⟨rfl, .inr (.inr rfl)⟩⟩
    | succ left =>
      rw [forall_mem_cons] at encodable
      rw [scanRows]
      rcases scanRow_spec fits encodable.1 with
        ⟨next, entry, scanned, fits', met, entries, last⟩ | ⟨scanned, met⟩
      · obtain ⟨page, taken, rest, others, whole, fits'', rfl, more, all, last', leaves⟩ :=
          ih left fits' encodable.2
        rw [scanned]
        refine ⟨page, row :: taken, rest, entry :: others, whole, fits'', rfl, .cons met more, ?_, ?_,
          fun left => ⟨(leaves left).1, .inl (cons_ne_nil _ _)⟩⟩
        · rw [all, entries, append_assoc, singleton_append]
        · rw [last', last, getLast?_cons]
          cases taken.getLast? <;> rfl
      · rw [scanned]
        exact ⟨_, [], _, [], rfl, fits.truncate, rfl, .nil, by simp, rfl,
          fun _ => ⟨rfl, .inr (.inl met)⟩⟩

/-! ### All pages -/

variable {outbox : Outbox K β} {state : AnswerDeliveryState} {after : Option K}

/-- The candidates after one of the candidates are those that follow it. -/
lemma candidates_after {front rest : List (OutboxRow K β)}
    (split : outbox.candidates target state after = front ++ [row] ++ rest) :
    outbox.candidates target state (some row.key) = rest := by
  have ordered : (front ++ [row] ++ rest).Pairwise (·.key < ·.key) :=
    split ▸ outbox.ordered.filter _
  have again : outbox.candidates target state (some row.key) =
      (outbox.candidates target state after).filter fun other => row.key < other.key := by
    have member : row ∈ outbox.candidates target state after := by rw [split]; simp
    have beyond := (Bool.and_eq_true_iff.1 (mem_filter.1 member).2).2
    rw [Outbox.candidates, Outbox.candidates, List.filter_filter]
    refine filter_congr fun other _ => ?_
    cases after with
    | none => simp [Bool.and_comm]
    | some cursor =>
      have : row.key < other.key → cursor < other.key := fun h => lt_trans (by simpa using beyond) h
      rw [Bool.eq_iff_iff]
      simp only [all_some, Bool.and_eq_true, decide_eq_true_eq]
      tauto
  rw [again, split, filter_append]
  rw [pairwise_append] at ordered
  have before : (front ++ [row]).filter (fun other => decide (row.key < other.key)) = [] := by
    refine filter_eq_nil_iff.2 fun other member => ?_
    rcases mem_append.1 member with old | new
    · simpa using ((pairwise_append.1 ordered.1).2.2 other old row (by simp)).le
    · simp [mem_singleton.1 new]
  rw [before, nil_append, filter_eq_self]
  exact fun other member => decide_eq_true (ordered.2.2 row (by simp) other member)

/-- A page meets the first candidates, and leaves those after its cursor. -/
lemma read_spec (listed : state ≠ .acknowledged)
    (encodable : ∀ row ∈ outbox.candidates target state after, Encodable encode target row) :
    ∃ page cursor taken rest,
      readHookAnswerPage encode target outbox state after = some (page, cursor) ∧
      page.Fits encode ∧ outbox.candidates target state after = taken ++ rest ∧
      Forall₂ (Met encode target) taken page.met ∧
      (cursor = none → rest = []) ∧
      (cursor ≠ none → taken ≠ [] ∧ outbox.candidates target state cursor = rest) := by
  obtain ⟨page, taken, rest, _, scanned, fits, split, met, all, last, leaves⟩ :=
    @scanRows_spec _ _ _ encode target {} (outbox.candidates target state after)
      maxLocalOfferItems ⟨text "\x7b\"items\":[],\"truncated\":false\x7d", rfl, by decide⟩ encodable
  rw [readHookAnswerPage, if_neg listed, scanned]
  refine ⟨page, _, taken, rest, rfl, fits, split, (all.trans (nil_append _)) ▸ met, ?_⟩
  rw [last, or_none]
  rcases taken.eq_nil_or_concat with rfl | ⟨front, row, rfl⟩
  · have ends : rest = [] := by
      by_contra more
      simpa [maxLocalOfferItems] using (leaves more).2
    simp [ends]
  · rw [concat_eq_append] at split ⊢
    cases flag : page.truncated with
    | false =>
      have ends : rest = [] := by
        by_contra more
        exact absurd ((leaves more).1.symm.trans flag) (by decide)
      simp [ends]
    | true => simpa using candidates_after split

/-- From every cursor there are pages to the last one, as fewer candidates are left; they meet every
candidate, and fit. -/
lemma exists_follows (listed : state ≠ .acknowledged) (n : Nat) : ∀ after : Option K,
    (outbox.candidates target state after).length < n →
    (∀ row ∈ outbox.candidates target state after, Encodable encode target row) →
    ∃ pages, Follows encode target outbox state after pages ∧
      Forall₂ (Met encode target) (outbox.candidates target state after)
        (pages.flatMap (·.met)) ∧ ∀ page ∈ pages, page.Fits encode := by
  induction n with
  | zero => exact fun _ short => absurd short (Nat.not_lt_zero _)
  | succ n ih =>
    intro after short encodable
    obtain ⟨page, cursor, _, _, read, fits, split, met, ends, goes⟩ := read_spec listed encodable
    rw [split] at short encodable ⊢
    cases cursor with
    | none =>
      rw [ends rfl, append_nil]
      exact ⟨[page], .last read, by simpa using met, by simpa using fits⟩
    | some cursor =>
      obtain ⟨some, rfl⟩ := goes nofun
      have fewer := length_pos_of_ne_nil some
      rw [length_append] at short
      obtain ⟨pages, follows, others, fit⟩ := ih (.some cursor) (by omega) fun row member =>
        encodable row (mem_append_right _ member)
      exact ⟨page :: pages, .next read follows, rel_append met others,
        forall_mem_cons.2 ⟨fits, fit⟩⟩

/-- **Paging is complete exactly where the candidates can be encoded.** Following the cursors ends,
meets every candidate once and keeps every page within its limit, if and only if the records of no
candidate that decode and belong together are refused by the encoding of a page. -/
theorem paging_complete_iff (encode : Nat → AnswerOffer K β → Option Text) (target : AnswerTarget)
    (outbox : Outbox K β) (state : AnswerDeliveryState) :
    Complete encode target outbox state ↔ state ≠ .acknowledged ∧
      ∀ row ∈ outbox.candidates target state none, Encodable encode target row := by
  constructor
  · rintro ⟨pages, follows, met, -⟩
    have listed : state ≠ .acknowledged := by
      rintro rfl
      cases follows with
      | last read | next read => simp [readHookAnswerPage] at read
    refine ⟨listed, fun row member offer found => ?_⟩
    obtain ⟨entry, -, met⟩ := Fallible.exists_of_forall₂ met.flip member
    cases entry with
    | item other =>
      cases met.1.symm.trans found
      exact met.2
    | oversized =>
      obtain ⟨-, _, _, found', encoded, -⟩ := met
      cases found'.symm.trans found
      exact isSome_pageBytes.1 (by rw [encoded]; rfl) offer mem_cons_self
    | invalid => cases met.2.symm.trans found
  · rintro ⟨listed, encodable⟩
    exact exists_follows listed _ none (Nat.lt_succ_self _) encodable

end Pages

/-! ### An answer that is nested too deep -/

def chair : AnswerTarget := ⟨text "host", text "chair", text "actor"⟩

/-- A queued answer whose members are nested to a depth. -/
def nestedRow (key depth : Nat) : OutboxRow Nat Nat where
  key
  extract
    | "target_host" => some chair.host
    | "target_session" => some chair.session
    | "target_actor" => some chair.actor
    | "state" => some (text "queued")
    | _ => none
  delivery := some { answerId := key, target := chair, rest := 1 }
  answer := some { id := key, rest := depth }

/-- The encoding refuses what is nested deeper than 64 levels. -/
def nestedEncode (depth : Nat) (offer : AnswerOffer Nat Nat) : Option Text :=
  if depth + 1 + max offer.answer.rest offer.delivery.rest ≤ 64 then some (text "\x7b\x7d") else none

/-- Two queued answers; the members of the first are nested as deep as a stored record may be. -/
def nestedOutbox : Outbox Nat Nat := ⟨[nestedRow 0 64, nestedRow 1 1], by decide⟩

/-- Both answers decode and belong to the target, and each can be stored. In a page the first one
is nested too deep: the read fails, and no page shows the second. -/
theorem nested_answer_hides :
    (nestedOutbox.candidates chair .queued none).map
        (fun row => (row.offer? chair).map (·.answer.rest)) = [some 64, some 1] ∧
      readHookAnswerPage nestedEncode chair nestedOutbox .queued none = none ∧
      ¬ Complete nestedEncode chair nestedOutbox .queued := by
  have hidden : readHookAnswerPage nestedEncode chair nestedOutbox .queued none = none := by decide
  refine ⟨by decide, hidden, ?_⟩
  rintro ⟨_, follows, -⟩
  cases follows with
  | last read | next read => cases hidden.symm.trans read

end Provenant.LocalDelivery

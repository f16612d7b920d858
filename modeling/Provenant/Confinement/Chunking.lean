import Provenant.Confinement.Literals
import Provenant.Data.Fallible

/-!
# Redaction and the cuts between chunks

A redactor reads a stream in chunks, and a look at the input can reach the end of the chunk
before it is decided: inside a marker, an escape, or `://`. The scanner then keeps the rest of
the chunk for the next one. This module shows that every such decision is put off or does not
depend on what follows, with one exception, and draws the consequence for whole runs.

The exception is an escape whose digits begin with a plus sign, as in `\u+041`. The parser of the
digits takes it for the token byte `A` when all six bytes are there; the test for an escape that
is still incomplete takes only hexadecimal digits, so a cut behind the sign ends the token.

## Main definitions

* `Scanner.cutsToken` — a token is open where the end of some bytes cuts an escape
  behind a plus sign.
* `Scanner.whole` — the scanner over a whole text at once.
* `Redactor.uncut` — no chunk of a run ends so.

## Main results

* `Scanner.process_append` — reading a text in two parts is reading it at once.
* `redaction_chunking` — two runs over one stream have the same output.
* `signed_escape_cut` — a cut behind a plus sign lets a token through.
-/

namespace Provenant.Redact

open List Option Scanner

open Json (Text text hexDigit)
open Fallible

/-! ### Markers -/

variable {marker bytes input : Bytes} {kind : TokenKind} {width : Nat}

/-- A marker that is read whole uses as many bytes as it has at least, and no more than there
are. -/
lemma markerMatch_complete_bounds : ∀ {bytes : Bytes} {used length : Nat},
    markerMatch bytes used marker = .complete length →
      used + marker.length ≤ length ∧ length ≤ used + bytes.length := by
  induction marker with
  | nil =>
    intro bytes used length found
    simp only [markerMatch, MarkerMatch.complete.injEq] at found
    exact ⟨by simp [found], by omega⟩
  | cons expected marker ih =>
    intro bytes used length found
    cases bytes with
    | nil => simp [markerMatch] at found
    | cons b rest =>
      simp only [markerMatch] at found
      split at found
      · split at found
        · cases found
        · split at found
          · cases found
          next wide =>
            have := ih found
            simp only [length_drop, length_cons] at this wide ⊢
            omega
      · split at found
        · have := ih found
          simp only [length_cons] at this ⊢
          omega
        · cases found

/-- The two parts of an escape that is compared with its marker byte as far as it goes. -/
lemma take_map_ne_of_short {more escape : Bytes} {n : Nat} (short : bytes.length ≤ n)
    (ne : bytes.map toLower ≠ (escape.take bytes.length).map toLower) :
    ((bytes ++ more).take n).map toLower ≠ (escape.take n).map toLower := by
  intro same
  have cut := congrArg (List.take bytes.length) same
  rw [← map_take, ← map_take, take_take, take_take, Nat.min_eq_left short, take_left] at cut
  exact ne cut

/-- A decision on a marker does not change when more bytes follow.

**Proof sketch.** Induction on the marker. Six bytes of an escape that are there stay the same; of
an incomplete escape, a byte that does not fit stays in its place. -/
lemma markerMatch_append (more : Bytes) : ∀ {bytes : Bytes} {used : Nat},
    markerMatch bytes used marker ≠ .partly →
      markerMatch (bytes ++ more) used marker = markerMatch bytes used marker := by
  induction marker with
  | nil => intros; simp [markerMatch]
  | cons expected marker ih =>
    intro bytes used decided
    cases bytes with
    | nil => simp [markerMatch] at decided
    | cons b rest =>
      rw [cons_append]
      simp only [markerMatch] at decided ⊢
      by_cases slash : b = backslash
      · simp only [slash, if_true] at decided ⊢
        rcases Nat.lt_or_ge rest.length 5 with short | long
        · -- an incomplete escape that is decided does not fit
          have width : min (backslash :: rest).length 6 = (backslash :: rest).length := by
            simp only [length_cons]; omega
          have narrow : (backslash :: rest).length < 6 := by simp only [length_cons]; omega
          rw [width, if_pos narrow, take_length] at decided
          split at decided
          case isFalse => exact absurd rfl decided
          rename_i misfit
          rw [width, take_length, if_pos misfit, if_pos]
          rw [Bool.or_eq_true, decide_eq_true_iff] at misfit ⊢
          rcases misfit with other | ne
          · left
            cases rest with
            | nil => simp at other
            | cons => simpa using other
          · right
            rw [← cons_append]
            exact take_map_ne_of_short (by simp only [length_append]; omega) ne
        · have width : min (backslash :: rest).length 6 = 6 := by
            simp only [length_cons]; omega
          have width' : min (backslash :: (rest ++ more)).length 6 = 6 := by
            simp only [length_cons, length_append]; omega
          have head : (rest ++ more).head? = rest.head? := by
            cases rest with
            | nil => simp at long
            | cons => rfl
          rw [width] at decided ⊢
          rw [width', head, ← cons_append, take_append_of_le_length (by simp; omega),
            drop_append_of_le_length (by simp; omega)]
          split
          · rfl
          next fits =>
            rw [if_neg fits] at decided
            exact ih decided
      · simp only [slash, if_false] at decided ⊢
        split
        next same =>
          rw [if_pos same] at decided
          exact ih decided
        · rfl

lemma toLower_hexDigit_injective : ∀ m < 16, ∀ n < 16,
    toLower (hexDigit m) = toLower (hexDigit n) → m = n := by decide

/-- An escape names its byte, in digits of either case. -/
lemma eq_of_unicodeEscape {a b : UInt8}
    (same : (unicodeEscape a).map toLower = (unicodeEscape b).map toLower) : a = b := by
  simp only [unicodeEscape, map_cons, map_nil, List.cons.injEq, true_and, and_true] at same
  have small : ∀ c : UInt8, c.toNat < 256 := fun c => c.toNat_lt
  have high := toLower_hexDigit_injective _ (by have := small a; omega) _
    (by have := small b; omega) same.1
  have low := toLower_hexDigit_injective _ (by omega) _ (by omega) same.2
  apply UInt8.toNat_inj.1
  omega

/-- When one marker is there and of another one a part, the first begins the second. -/
lemma markerMatch_isPrefix : ∀ {other bytes : Bytes} {used used' length : Nat},
    markerMatch bytes used marker = .complete length →
      markerMatch bytes used' other = .partly → marker <+: other := by
  induction marker with
  | nil => exact fun _ _ => nil_prefix
  | cons expected marker ih =>
    intro other bytes used used' length whole part
    cases bytes with
    | nil => simp [markerMatch] at whole
    | cons b rest =>
      cases other with
      | nil => simp [markerMatch] at part
      | cons expected' other =>
        simp only [markerMatch] at whole part
        by_cases slash : b = backslash
        · simp only [slash, if_true] at whole part
          split at whole
          · cases whole
          rename_i fits
          split at whole
          · cases whole
          rename_i wide
          split at part
          · cases part
          rename_i fits'
          have width : min (backslash :: rest).length 6 = 6 := by
            simp only [length_cons] at wide ⊢; omega
          simp only [width, Bool.or_eq_true, decide_eq_true_iff, not_or, not_not] at fits fits'
          have same : expected = expected' := eq_of_unicodeEscape (fits.2.symm.trans fits'.2)
          rw [same]
          exact cons_prefix_cons.2 ⟨rfl, ih whole part⟩
        · simp only [slash, if_false] at whole part
          split at whole
          next same =>
            split at part
            next same' =>
              exact cons_prefix_cons.2 ⟨same.symm.trans same', ih whole part⟩
            · cases part
          · cases whole

lemma tokenMarkers_prefixFree : ∀ m ∈ tokenMarkers, ∀ m' ∈ tokenMarkers, m.1 <+: m'.1 → m = m' := by
  decide

/-- A marker that is found stays found when more bytes follow.

**Proof sketch.** The markers before it in the list are not there. One of them could only be there
later if it were partly there now, and then the marker that was found would begin it. -/
lemma tokenMarkerAt_append_of_some {found : Nat × TokenKind} (more : Bytes)
    (here : tokenMarkerAt bytes = some found) : tokenMarkerAt (bytes ++ more) = some found := by
  unfold tokenMarkerAt at here ⊢
  rw [findSome?_eq_some_iff] at here ⊢
  obtain ⟨before, m, after, split, whole, missing⟩ := here
  have complete : ∃ length, markerMatch bytes 0 m.1 = .complete length := by
    cases h : markerMatch bytes 0 m.1 <;> simp [h] at whole
    exact ⟨_, rfl⟩
  obtain ⟨_, complete⟩ := complete
  refine ⟨before, m, after, split, ?_, fun m' mem => ?_⟩
  · rw [markerMatch_append more (by simp [complete])]
    exact whole
  · have decided : markerMatch bytes 0 m'.1 ≠ .partly := by
      intro part
      have same : m = m' := tokenMarkers_prefixFree m (by simp [split]) m' (by simp [split, mem])
        (markerMatch_isPrefix complete part)
      rw [same] at complete
      simp [complete] at part
    rw [markerMatch_append more decided]
    exact missing m' mem

/-- Where no marker is there or may begin, none is there when more bytes follow. -/
lemma tokenMarkerAt_append_of_none (more : Bytes) (missing : tokenMarkerAt bytes = none)
    (decided : tokenMarkerPrefix bytes = false) : tokenMarkerAt (bytes ++ more) = none := by
  unfold tokenMarkerAt at missing ⊢
  rw [findSome?_eq_none_iff] at missing ⊢
  simp only [tokenMarkerPrefix, List.any_eq_false, beq_iff_eq] at decided
  intro m mem
  rw [markerMatch_append more (decided m mem)]
  exact missing m mem

lemma tokenMarkerPrefix_append (more : Bytes) (decided : tokenMarkerPrefix bytes = false) :
    tokenMarkerPrefix (bytes ++ more) = false := by
  simp only [tokenMarkerPrefix, List.any_eq_false, beq_iff_eq] at decided ⊢
  intro m mem
  rw [markerMatch_append more (decided m mem)]
  exact decided m mem

lemma tokenMarkerAt_bounds {length : Nat} (here : tokenMarkerAt bytes = some (length, kind)) :
    0 < length ∧ length ≤ bytes.length := by
  obtain ⟨m, mem, whole⟩ := exists_of_findSome?_eq_some here
  have nonempty : ∀ m ∈ tokenMarkers, 0 < m.1.length := by decide
  cases h : markerMatch bytes 0 m.1 <;> simp [h] at whole
  have bounds := markerMatch_complete_bounds h
  have := nonempty m mem
  omega

/-! ### Escapes -/

/-- An escape that is cut behind a plus sign: the parser of the digits would take the sign, the test
for an incomplete escape does not. -/
def signCut : Bytes → Bool
  | 92 :: 117 :: 43 :: digits => decide (digits.length ≤ 2) && digits.all isHexDigit
  | _ => false

/-- Reading some bytes, `skip` of them already used, comes with a token open to an escape that their
end cuts behind a plus sign. -/
def Scanner.cutsToken (s : Scanner) (skip : Nat) : Bytes → Bool
  | [] => false
  | b :: rest =>
    match skip with
    | skip + 1 => s.cutsToken skip rest
    | 0 => (s.active.isSome && signCut (b :: rest)) ||
      match s.scan false b rest with
      | .ok ⟨s, _, some used⟩ => s.cutsToken (used - 1) rest
      | _ => false

/-- Four digits, the first perhaps a plus sign, that name a byte of a token. -/
def tokenDigits (kind : TokenKind) (a b c d : UInt8) : Bool :=
  (isHexDigit a || a == 43) && isHexDigit b && isHexDigit c && isHexDigit d &&
    let value := ((hexValue a * 16 + hexValue b) * 16 + hexValue c) * 16 + hexValue d
    value ≤ 127 && tokenByte kind (UInt8.ofNat value)

lemma escapedTokenByte_eq_some :
    escapedTokenByte kind input = some width ↔ width = 6 ∧ ∃ a b c d rest,
      input = 92 :: 117 :: a :: b :: c :: d :: rest ∧ tokenDigits kind a b c d = true := by
  constructor
  · intro escaped
    unfold escapedTokenByte at escaped
    split at escaped
    next a b c d rest =>
      split at escaped
      next digits =>
        simp only at escaped
        split at escaped
        next named =>
          exact ⟨(some.inj escaped).symm, a, b, c, d, rest, rfl,
            by simp only [tokenDigits, digits, named, Bool.and_self]⟩
        · cases escaped
      · cases escaped
    · cases escaped
  · rintro ⟨rfl, a, b, c, d, rest, rfl, digits⟩
    simp only [tokenDigits, Bool.and_eq_true] at digits
    simp only [escapedTokenByte, digits, Bool.and_self, if_true]

lemma escapedTokenByte_some (escaped : escapedTokenByte kind input = some width) :
    width = 6 ∧ 6 ≤ input.length := by
  obtain ⟨rfl, a, b, c, d, rest, rfl, _⟩ := escapedTokenByte_eq_some.1 escaped
  exact ⟨rfl, by simp⟩

lemma signCut_eq_true : signCut input = true ↔
    ∃ digits, input = 92 :: 117 :: 43 :: digits ∧ digits.length ≤ 2 ∧ digits.all isHexDigit := by
  constructor
  · intro cut
    unfold signCut at cut
    split at cut
    · simp only [Bool.and_eq_true, decide_eq_true_iff] at cut
      exact ⟨_, rfl, cut⟩
    · cases cut
  · rintro ⟨digits, rfl, short, hex⟩
    simp [signCut, short, hex]

lemma escapePrefix_eq_true : escapePrefix input = true ↔
    input = [92] ∨ ∃ digits, input = 92 :: 117 :: digits ∧ digits.length ≤ 3 ∧
      digits.all isHexDigit := by
  constructor
  · intro part
    simp only [escapePrefix, Bool.and_eq_true, decide_eq_true_iff] at part
    obtain ⟨short, part⟩ := part
    split at part
    · exact .inl rfl
    next digits =>
      exact .inr ⟨digits, rfl, by simp only [length_cons] at short; omega, part⟩
    · cases part
  · rintro (rfl | ⟨digits, rfl, short, hex⟩)
    · rfl
    · simp only [escapePrefix, length_cons, hex, Bool.and_true, decide_eq_true_iff]
      omega

/-- What begins an escape of a token byte and is neither empty nor whole is an incomplete escape,
or is cut behind a plus sign. -/
lemma incomplete_of_escapedTokenByte {more : Bytes} (nonempty : input ≠ [])
    (short : input.length < 6) (escaped : escapedTokenByte kind (input ++ more) = some width) :
    escapePrefix input = true ∨ signCut input = true := by
  obtain ⟨-, a, b, c, d, rest, same, digits⟩ := escapedTokenByte_eq_some.1 escaped
  simp only [tokenDigits, Bool.and_eq_true, Bool.or_eq_true, beq_iff_eq] at digits
  obtain ⟨⟨⟨⟨first, second⟩, third⟩, fourth⟩, -⟩ := digits
  rw [escapePrefix_eq_true, signCut_eq_true]
  match input, nonempty, short with
  | [x], _, _ =>
    simp only [cons_append, List.cons.injEq] at same
    exact .inl (.inl (by rw [same.1]))
  | [x, y], _, _ =>
    simp only [cons_append, List.cons.injEq] at same
    exact .inl (.inr ⟨[], by rw [same.1, same.2.1], by simp, rfl⟩)
  | x :: y :: z :: digits, _, short =>
    simp only [cons_append, List.cons.injEq] at same
    obtain ⟨rfl, rfl, rfl, same⟩ := same
    simp only [length_cons] at short
    have hex : digits.all isHexDigit = true := by
      match digits, short with
      | [], _ => rfl
      | [p], _ =>
        simp only [cons_append, List.cons.injEq] at same
        simp [same.1, second]
      | [p, q], _ =>
        simp only [cons_append, List.cons.injEq] at same
        simp [same.1, same.2.1, second, third]
    rcases first with hexFirst | rfl
    · exact .inl (.inr ⟨z :: digits, rfl, by simp only [length_cons]; omega,
        by simp [hexFirst, hex]⟩)
    · exact .inr ⟨digits, rfl, by omega, hex⟩

/-- An escape of a token byte does not appear later in bytes that neither are an incomplete escape
nor are cut behind a plus sign. -/
lemma escapedTokenByte_append (more : Bytes) (nonempty : input ≠ [])
    (decided : escapePrefix input = false) (uncut : signCut input = false) :
    escapedTokenByte kind (input ++ more) = escapedTokenByte kind input := by
  apply Option.ext
  intro width
  rcases Nat.lt_or_ge input.length 6 with short | long
  · constructor
    · intro escaped
      rcases incomplete_of_escapedTokenByte nonempty short escaped with part | cut
      · simp [part] at decided
      · simp [cut] at uncut
    · intro escaped
      exact absurd (escapedTokenByte_some escaped).2 (by omega)
  · match input, long with
    | u :: v :: w :: x :: y :: z :: rest, _ =>
      simp only [escapedTokenByte_eq_some, cons_append, List.cons.injEq]
      grind

lemma escapePrefix_append (more : Bytes) (nonempty : input ≠ [])
    (decided : escapePrefix input = false) : escapePrefix (input ++ more) = false := by
  rw [Bool.eq_false_iff, ne_eq, escapePrefix_eq_true] at decided ⊢
  rintro (same | ⟨digits, same, short, hex⟩)
  · obtain ⟨h, _⟩ := append_eq_singleton_iff.1 same |>.resolve_left (by simp [nonempty])
    exact decided (.inl h)
  · match input, nonempty with
    | [x], _ =>
      simp only [cons_append, List.cons.injEq] at same
      exact decided (.inl (by rw [same.1]))
    | x :: y :: rest, _ =>
      simp only [cons_append, List.cons.injEq] at same
      obtain ⟨rfl, rfl, rfl⟩ := same
      simp only [all_append, Bool.and_eq_true, length_append] at hex short
      exact decided (.inr ⟨rest, rfl, by omega, hex.1⟩)

/-! ### One look at the input -/

lemma Scanner.observe_tail (s : Scanner) (b : UInt8) : (s.observe b).tail = s.tail := by
  unfold Scanner.observe
  split <;> (repeat' split) <;> rfl

lemma Scanner.observeAll_tail (s : Scanner) (bytes : Bytes) :
    (s.observeAll bytes).tail = s.tail := by
  unfold Scanner.observeAll
  induction bytes generalizing s with
  | nil => rfl
  | cons _ _ ih => rw [foldl_cons, ih, s.observe_tail]

lemma Scanner.finishActive_tail (s : Scanner) : s.finishActive.1.tail = s.tail := by
  unfold Scanner.finishActive
  split <;> rfl

lemma Scanner.finishActive_active (s : Scanner) : s.finishActive.1.active = none := by
  unfold Scanner.finishActive
  split
  · rfl
  · assumption

lemma Scanner.finishAuthority_tail (s : Scanner) (authority : Bytes) :
    (s.finishAuthority authority).1.tail = s.tail := by
  unfold Scanner.finishAuthority
  split
  · simp only
    split <;> rfl
  · rfl

/-- `://` is there, may begin, or is not there whatever follows. -/
lemma isPrefixOf_append_of_not {pattern : Bytes} (more : Bytes)
    (missing : pattern.isPrefixOf input = false) (decided : input.isPrefixOf pattern = false) :
    pattern.isPrefixOf (input ++ more) = false ∧ (input ++ more).isPrefixOf pattern = false := by
  simp only [Bool.eq_false_iff, ne_eq, isPrefixOf_iff_prefix] at missing decided ⊢
  constructor
  · intro found
    rcases prefix_or_prefix_of_prefix found (prefix_append input more) with h | h
    · exact missing h
    · exact decided h
  · exact fun found => decided ((prefix_append input more).trans found)

/-- **A plain look** is put off, or does not depend on what follows. -/
lemma Scanner.scanPlain_append (s : Scanner) (eof : Bool) (b : UInt8) (rest more : Bytes) :
    (s.scanPlain false b rest = s.hold (b :: rest)) ∨
      ∃ n, (s.scanPlain false b rest).used = some n ∧ 0 < n ∧ n ≤ (b :: rest).length ∧
        (s.scanPlain false b rest).scanner.tail = s.tail ∧
        s.scanPlain eof b (rest ++ more) = s.scanPlain false b rest := by
  unfold Scanner.scanPlain
  by_cases scheme : (text "://").isPrefixOf (b :: rest) = true
  · right
    have longer : (text "://").isPrefixOf (b :: (rest ++ more)) = true := by
      rw [ isPrefixOf_iff_prefix] at scheme ⊢
      exact scheme.trans (prefix_append (b :: rest) more)
    simp only [scheme, longer, if_true]
    refine ⟨3, rfl, by decide, ?_, s.observeAll_tail _, trivial⟩
    exact ( isPrefixOf_iff_prefix.1 scheme).length_le
  by_cases begins : (b :: rest).isPrefixOf (text "://") = true
  · left
    simp [scheme, begins]
  obtain ⟨noScheme, noBegin⟩ := isPrefixOf_append_of_not more (Bool.eq_false_iff.2 scheme)
    (Bool.eq_false_iff.2 begins)
  rw [cons_append] at noScheme noBegin
  simp only [scheme, begins, noScheme, noBegin, Bool.and_false, Bool.false_eq_true, if_false]
  have emitted : (s.observe b).tail = s.tail := s.observe_tail b
  split
  next open_ =>
    cases found : tokenMarkerAt (b :: rest) with
    | some marker =>
      obtain ⟨length, kind⟩ := marker
      right
      obtain ⟨positive, inside⟩ := tokenMarkerAt_bounds found
      have longer := tokenMarkerAt_append_of_some more found
      rw [cons_append] at longer
      have taken : (b :: (rest ++ more)).take length = (b :: rest).take length := by
        rw [← cons_append, take_append_of_le_length inside]
      simp only [longer, taken]
      exact ⟨length, rfl, positive, inside, s.observeAll_tail _, trivial⟩
    | none =>
      by_cases begins' : tokenMarkerPrefix (b :: rest) = true
      · left
        simp [begins']
      · right
        have longer := tokenMarkerAt_append_of_none more found (Bool.eq_false_iff.2 begins')
        have decided := tokenMarkerPrefix_append more (Bool.eq_false_iff.2 begins')
        rw [cons_append] at longer decided
        simp only [longer, decided, begins', Bool.and_false, Bool.false_eq_true, if_false]
        exact ⟨1, rfl, by decide, by simp, emitted, trivial⟩
  · exact .inr ⟨1, rfl, by decide, by simp, emitted, rfl⟩

/-- What a look at a chunk tells about the same look with more bytes behind the chunk: it was put
off, and is made again by the scanner that it left, or it is the same look. -/
structure Look.Stable (s : Scanner) (b : UInt8) (rest : Bytes) (look : Look)
    (longer : Look) (again : Scanner → Look) : Prop where
  putOff : look.used = none → look.scanner.tail = s.tail ++ b :: rest ∧
    look.scanner.urlAuthority = none ∧
    longer = (again { look.scanner with tail := s.tail }).after look.output
  taken : ∀ n, look.used = some n →
    0 < n ∧ n ≤ (b :: rest).length ∧ look.scanner.tail = s.tail ∧ longer = look

/-- **A look outside an authority** is put off, or does not depend on what follows.

**Proof sketch.** With a token open, the look is put off at an incomplete escape. Elsewhere it reads
the same token byte, or closes the token and makes a plain look; a plain look that is put off is
made again by a scanner that has already closed the token. -/
lemma Scanner.scanToken_append (s : Scanner) (outside : s.urlAuthority = none) (eof : Bool) (b : UInt8)
    (rest more : Bytes) (uncut : more = [] ∨ (s.active.isSome && signCut (b :: rest)) = false) :
    (s.scanToken false b rest).Stable s b rest (s.scanToken eof b (rest ++ more))
      (fun s => s.scanToken eof b (rest ++ more)) := by
  have held : ∀ {s' : Scanner}, s'.tail = s.tail → s'.urlAuthority = none →
      (s'.hold (b :: rest)).scanner.tail = s.tail ++ b :: rest ∧
        (s'.hold (b :: rest)).scanner.urlAuthority = none ∧
        { (s'.hold (b :: rest)).scanner with tail := s.tail } = s' := by
    intro s' tail authority
    refine ⟨by simp [Scanner.hold, tail], authority, ?_⟩
    obtain ⟨_, _, _, _, _, _⟩ := s'
    simp only [Scanner.hold] at tail ⊢
    rw [tail]
  cases active : s.active with
  | none =>
    have plain : ∀ eof rest, s.scanToken eof b rest = s.scanPlain eof b rest := by
      intro eof rest
      simp only [Scanner.scanToken, active]
    rw [plain, plain]
    rcases s.scanPlain_append eof b rest more with hold | ⟨n, used, bounds⟩
    · obtain ⟨tail, authority, same⟩ := held rfl outside
      rw [hold]
      refine ⟨fun _ => ⟨tail, authority, ?_⟩, nofun⟩
      rw [same, plain]
      rfl
    · refine ⟨fun none => by simp [used] at none, fun n' used' => ?_⟩
      cases used.symm.trans used'
      exact bounds
  | some token =>
    by_cases part : escapePrefix (b :: rest) = true
    · have hold : s.scanToken false b rest = s.hold (b :: rest) := by
        simp [Scanner.scanToken, active, part]
      obtain ⟨tail, authority, same⟩ := held rfl outside
      rw [hold]
      refine ⟨fun _ => ⟨tail, authority, ?_⟩, nofun⟩
      rfl
    have decided := Bool.eq_false_iff.2 part
    have longer := escapePrefix_append more (cons_ne_nil b rest) decided
    have escaped : escapedTokenByte token.kind (b :: (rest ++ more)) =
        escapedTokenByte token.kind (b :: rest) := by
      rcases uncut with rfl | uncut
      · rw [append_nil]
      · rw [active, isSome_some, Bool.true_and] at uncut
        exact escapedTokenByte_append more (cons_ne_nil b rest) decided uncut
    rw [cons_append] at longer
    simp only [Scanner.scanToken, active, decided, longer, escaped, Bool.and_false,
      Bool.false_eq_true, if_false]
    split
    next body =>
      refine ⟨nofun, fun n used => ?_⟩
      simp only [some.injEq] at used
      have bounds : 0 < n ∧ n ≤ (b :: rest).length := by
        cases width : escapedTokenByte token.kind (b :: rest) with
        | none =>
          rw [width, getD_none] at used
          exact ⟨by omega, by simp only [length_cons]; omega⟩
        | some _ =>
          obtain ⟨rfl, long⟩ := escapedTokenByte_some width
          rw [width, getD_some] at used
          exact ⟨by omega, by omega⟩
      have taken : (b :: (rest ++ more)).take n = (b :: rest).take n := by
        rw [← cons_append, take_append_of_le_length bounds.2]
      refine ⟨bounds.1, bounds.2, ?_, ?_⟩
      · rw [observeAll_tail]
      · rw [used, taken]
    next ended =>
      have closed := s.finishActive_active
      have tail := s.finishActive_tail
      have authority : s.finishActive.1.urlAuthority = none := by
        rw [Scanner.finishActive, active]
        exact outside
      rcases s.finishActive.1.scanPlain_append eof b rest more with
        hold | ⟨n, used, positive, inside, kept, same⟩
      · obtain ⟨tail, authority, same⟩ := held tail authority
        rw [hold]
        refine ⟨fun _ => ⟨tail, authority, ?_⟩, nofun⟩
        have again : { (s.finishActive.1.hold (b :: rest)).after s.finishActive.2 |>.scanner with
            tail := s.tail } = s.finishActive.1 := same
        rw [again, closed]
        simp [Look.after, Scanner.hold]
      · refine ⟨fun none => ?_, fun n' used' => ?_⟩
        · simp [Look.after, used] at none
        · cases used.symm.trans used'
          exact ⟨positive, inside, kept.trans tail, by rw [same]⟩

lemma Look.after_after (look : Look) (first second : Bytes) :
    (look.after second).after first = look.after (first ++ second) := by
  simp [Look.after]

lemma Scanner.finishAuthority_urlAuthority (s : Scanner) (authority : Bytes) :
    (s.finishAuthority authority).1.urlAuthority = s.urlAuthority := by
  unfold Scanner.finishAuthority
  split
  · simp only
    split <;> rfl
  · rfl

lemma Scanner.scan_of_outside {s : Scanner} (outside : s.urlAuthority = none) (eof : Bool) (b : UInt8)
    (rest : Bytes) : s.scan eof b rest = .ok (s.scanToken eof b rest) := by
  simp only [Scanner.scan, outside]

/-- The scanner and its output when an authority is closed at a delimiter. -/
def Scanner.closeAuthority (s : Scanner) (authority : Bytes) : Scanner × Bytes :=
  { s with urlAuthority := none }.finishAuthority authority

lemma Scanner.scan_of_delimiter {s : Scanner} {authority : Bytes}
    (inside : s.urlAuthority = some authority) {b : UInt8} (delimiter : urlDelimiter b = true)
    (eof : Bool) (rest : Bytes) :
    s.scan eof b rest = .ok (((s.closeAuthority authority).1.scanToken eof b rest).after
      (s.closeAuthority authority).2) := by
  simp only [Scanner.scan, inside, delimiter, if_true, Scanner.closeAuthority]

lemma Scanner.closeAuthority_outside (s : Scanner) (authority : Bytes) :
    (s.closeAuthority authority).1.urlAuthority = none :=
  finishAuthority_urlAuthority ..

lemma Scanner.closeAuthority_active (s : Scanner) (authority : Bytes) :
    (s.closeAuthority authority).1.active = s.active := by
  unfold Scanner.closeAuthority Scanner.finishAuthority
  split
  · simp only
    split <;> rfl
  · rfl

lemma Scanner.closeAuthority_tail (s : Scanner) (authority : Bytes) :
    (s.closeAuthority authority).1.tail = s.tail :=
  finishAuthority_tail ..

/-- A look is made outside an authority, perhaps after one is closed, or inside. -/
lemma Scanner.scan_cases {s : Scanner} (clear : s.tail = []) (b : UInt8) :
    (∃ (s' : Scanner) (output : Bytes), s'.urlAuthority = none ∧ s'.tail = [] ∧ s'.active = s.active ∧
      ∀ eof rest, s.scan eof b rest = .ok ((s'.scanToken eof b rest).after output)) ∨
      ∃ authority, s.urlAuthority = some authority ∧ urlDelimiter b = false := by
  cases authority : s.urlAuthority with
  | none =>
    exact .inl ⟨s, [], authority, clear, rfl,
      fun eof rest => scan_of_outside authority eof b rest⟩
  | some pending =>
    by_cases delimiter : urlDelimiter b = true
    · exact .inl ⟨_, _, s.closeAuthority_outside pending, (s.closeAuthority_tail pending).trans clear,
        s.closeAuthority_active pending, scan_of_delimiter authority delimiter⟩
    · exact .inr ⟨pending, rfl, Bool.eq_false_iff.2 delimiter⟩

/-- A look that is put off keeps the whole rest of the chunk, and is made again by the scanner that
it left, when more bytes follow or the stream has ended. A look that is not put off is the same
then. -/
lemma Scanner.scan_stable {s : Scanner} (clear : s.tail = []) (eof : Bool) {b : UInt8} {rest : Bytes}
    (more : Bytes) (uncut : more = [] ∨ (s.active.isSome && signCut (b :: rest)) = false)
    {look : Look} (looked : s.scan false b rest = .ok look) :
    (look.used = none → look.scanner.tail = b :: rest ∧
      s.scan eof b (rest ++ more) =
        ({ look.scanner with tail := [] }.scan eof b (rest ++ more)).map (Look.after look.output)) ∧
      ∀ n, look.used = some n → 0 < n ∧ n ≤ (b :: rest).length ∧ look.scanner.tail = [] ∧
        s.scan eof b (rest ++ more) = .ok look := by
  rcases scan_cases clear b with
    ⟨s', output, outside, tail, active, scans⟩ | ⟨pending, authority, delimiter⟩
  · rw [scans, Except.ok.injEq] at looked
    subst looked
    have stable := s'.scanToken_append outside eof b rest more (by rw [active]; exact uncut)
    constructor
    · intro putOff
      obtain ⟨kept, outside', again⟩ := stable.putOff putOff
      rw [tail] at kept again
      refine ⟨kept, ?_⟩
      rw [scans, again, Look.after_after, scan_of_outside (by exact outside')]
      rfl
    · intro n used
      obtain ⟨positive, inside, kept, same⟩ := stable.taken n used
      exact ⟨positive, inside, kept.trans tail, by rw [scans, same]⟩
  · simp only [Scanner.scan, authority, delimiter, Bool.false_eq_true, if_false] at looked ⊢
    split at looked
    · cases looked
    next fits =>
      rw [Except.ok.injEq] at looked
      subst looked
      refine ⟨nofun, fun n used => ?_⟩
      cases used
      refine ⟨by decide, by simp, ?_, ?_⟩
      · rw [observe_tail]
        exact clear
      · simp [fits]

/-! ### Whole texts -/

/-- **Reading a text in two parts is reading it at once**: the scanner that a first part leaves goes
on with the bytes that it kept, followed by the second part.

**Proof sketch.** Induction on the first part. A look that is taken is the same in the whole text,
and uses no byte of the second part. A look that is put off keeps the rest of the first part, and
the scanner that it left makes it again. -/
theorem Scanner.process_append (eof : Bool) (more : Bytes) : ∀ (bytes : Bytes) (s : Scanner) (skip : Nat),
    s.tail = [] → skip ≤ bytes.length → more = [] ∨ s.cutsToken skip bytes = false →
    ∀ {s' : Scanner} {output : Bytes}, s.process false skip bytes = .ok (s', output) →
      s.process eof skip (bytes ++ more) =
        ({ s' with tail := [] }.process eof 0 (s'.tail ++ more)).map
          fun read : Scanner × Bytes => (read.1, output ++ read.2) := by
  intro bytes
  induction bytes with
  | nil =>
    intro s skip clear fits uncut s' output read
    obtain rfl : skip = 0 := by simpa using fits
    obtain ⟨rfl, rfl⟩ := read
    have same : { s with tail := [] } = s := by rw [← clear]
    rw [same, clear, nil_append]
    exact (congrFun Except.map_id (s.process eof 0 more)).symm
  | cons b rest ih =>
    intro s skip clear fits uncut s' output read
    cases skip with
    | succ skip =>
      exact ih s skip clear (by simpa using fits) uncut read
    | zero =>
      obtain ⟨look, looked, read⟩ := bind_eq_ok.1 read
      have uncutHere : more = [] ∨ (s.active.isSome && signCut (b :: rest)) = false := by
        refine uncut.imp_right fun h => ?_
        rw [Scanner.cutsToken, Bool.or_eq_false_iff] at h
        exact h.1
      cases used : look.used with
      | none =>
        obtain ⟨tail, again⟩ := (scan_stable clear eof more uncutHere looked).1 used
        simp only [used, pure_eq_ok, Except.ok.injEq, Prod.mk.injEq] at read
        obtain ⟨rfl, rfl⟩ := read
        rw [tail, cons_append, Scanner.process, Scanner.process, again]
        cases ({ look.scanner with tail := [] } : Scanner).scan eof b (rest ++ more) with
        | error _ => rfl
        | ok look' =>
          simp only [Except.map, bind, Except.bind, Look.after]
          cases look'.used with
          | none => rfl
          | some n =>
            simp only
            cases look'.scanner.process eof (n - 1) (rest ++ more) with
            | error _ => rfl
            | ok _ => simp [pure, Except.pure]
      | some n =>
        obtain ⟨_, inside, tail, same⟩ := (scan_stable clear eof more uncutHere looked).2 n used
        have uncutRest : more = [] ∨ look.scanner.cutsToken (n - 1) rest = false := by
          refine uncut.imp_right fun h => ?_
          obtain ⟨_, _, _⟩ := look
          subst used
          rw [Scanner.cutsToken, Bool.or_eq_false_iff, looked] at h
          exact h.2
        simp only [used] at read
        obtain ⟨⟨s'', rest'⟩, readRest, read⟩ := bind_eq_ok.1 read
        obtain ⟨rfl, rfl⟩ := read
        have whole := ih look.scanner (n - 1) tail
          (by simp only [length_cons] at inside; omega) uncutRest readRest
        rw [cons_append, Scanner.process, same]
        simp only [bind, Except.bind, used, whole]
        cases ({ s'' with tail := [] } : Scanner).process eof 0 (s''.tail ++ more) with
        | error _ => rfl
        | ok _ => simp [Except.map, pure, Except.pure]

/-- What `finish` does with the rest of the input when it has been read. -/
def Scanner.close (read : Scanner × Bytes) : Scanner × Bytes :=
  let (s, last) := match read.1.urlAuthority with
    | some authority => read.1.closeAuthority authority
    | none => (read.1, [])
  ({ s with boundary := true, escape := .none, active := none }, read.2 ++ last)

/-- The scanner over a whole text at once, to the end of the stream. -/
def Scanner.whole (s : Scanner) (bytes : Bytes) : Except FilterError (Scanner × Bytes) :=
  ({ s with tail := [] }.process true 0 (s.tail ++ bytes)).map Scanner.close

/-- The scanner over a list of texts, closed by its end. -/
def Scanner.run (s : Scanner) : List Bytes → Except FilterError (Scanner × Bytes)
  | [] => s.finish
  | bytes :: texts => do
    let (s, output) ← s.filter bytes
    let (s, rest) ← s.run texts
    return (s, output ++ rest)

/-- No text that is followed by more bytes cuts an escape in an open token behind a plus sign. -/
def Scanner.uncut (s : Scanner) : List Bytes → Bool
  | [] => true
  | bytes :: texts => (texts.flatten.isEmpty || !{ s with tail := [] }.cutsToken 0 (s.tail ++ bytes)) &&
    match s.filter bytes with
    | .ok (s, _) => s.uncut texts
    | .error _ => true

/-- `finish` reads the bytes that were kept, as the end of the stream. -/
lemma Scanner.finish_eq_whole (s : Scanner) : s.finish = s.whole [] := by
  simp only [Scanner.finish, Scanner.whole, append_nil]
  cases ({ s with tail := [] } : Scanner).process true 0 s.tail with
  | error _ => rfl
  | ok read =>
    obtain ⟨s', _⟩ := read
    cases s'.urlAuthority <;> rfl

/-- A text that has been filtered, and what follows it, are the whole text. -/
lemma Scanner.whole_append {s s' : Scanner} {output : Bytes} (more : Bytes)
    (uncut : more = [] ∨ { s with tail := [] }.cutsToken 0 (s.tail ++ bytes) = false)
    (filtered : s.filter bytes = .ok (s', output)) :
    s.whole (bytes ++ more) =
      (s'.whole more).map fun read : Scanner × Bytes => (read.1, output ++ read.2) := by
  have read := process_append true more (s.tail ++ bytes) { s with tail := [] } 0 rfl
    (Nat.zero_le _) uncut filtered
  simp only [Scanner.whole, ← append_assoc, read]
  cases ({ s' with tail := [] } : Scanner).process true 0 (s'.tail ++ more) with
  | error _ => rfl
  | ok _ => simp [Except.map, Scanner.close]

/-- **A run of the scanner** that meets no cut behind a plus sign is the scanner over the whole
text. -/
theorem Scanner.whole_of_run : ∀ (texts : List Bytes) {s : Scanner} {read : Scanner × Bytes},
    s.uncut texts = true → s.run texts = .ok read → s.whole texts.flatten = .ok read := by
  intro texts
  induction texts with
  | nil =>
    intro s read _ ran
    rw [flatten_nil, ← finish_eq_whole]
    exact ran
  | cons _ texts ih =>
    intro s read uncut ran
    obtain ⟨⟨s', output⟩, filtered, ran⟩ := bind_eq_ok.1 ran
    obtain ⟨⟨s'', rest⟩, ranRest, ran⟩ := bind_eq_ok.1 ran
    simp only [Scanner.uncut, filtered, Bool.and_eq_true, Bool.or_eq_true, List.isEmpty_iff,
      Bool.not_eq_true'] at uncut
    rw [flatten_cons, whole_append texts.flatten uncut.1 filtered, ih uncut.2 ranRest, ← ran]
    rfl

/-! ### The literal pass -/

lemma LiteralAutomaton.filter_append (first second : Bytes) : ∀ a : LiteralAutomaton,
    a.filter (first ++ second) =
      (((a.filter first).1.filter second).1,
        (a.filter first).2 ++ ((a.filter first).1.filter second).2) := by
  induction first with
  | nil => exact fun _ => rfl
  | cons _ _ ih =>
    intro a
    simp only [cons_append, LiteralAutomaton.filter, ih, append_assoc]

/-- The texts that the literal pass hands to the scanner: what it emits for each chunk, and at the
end what it had pending. -/
def LiteralAutomaton.handed (a : LiteralAutomaton) : List Bytes → List Bytes
  | [] => [a.finish.2]
  | chunk :: chunks => (a.filter chunk).2 :: (a.filter chunk).1.handed chunks

/-- All that the literal pass hands on depends on the stream only. -/
lemma LiteralAutomaton.handed_flatten : ∀ (chunks : List Bytes) (a : LiteralAutomaton),
    (a.handed chunks).flatten =
      (a.filter chunks.flatten).2 ++ (a.filter chunks.flatten).1.finish.2 := by
  intro chunks
  induction chunks with
  | nil => intro a; simp [LiteralAutomaton.handed, LiteralAutomaton.filter]
  | cons _ _ ih =>
    intro a
    simp only [LiteralAutomaton.handed, flatten_cons, ih, a.filter_append, append_assoc]

/-! ### Runs of the redactor -/

/-- No text that the literal pass of a run hands to the scanner, and that is followed by more, cuts
an escape in an open token behind a plus sign. -/
def Redactor.uncut (r : Redactor) (chunks : List Bytes) : Bool :=
  r.tokens.uncut (r.literals.handed chunks)

/-- A run of the redactor is a run of the scanner over what the literal pass hands on. -/
lemma Redactor.run_eq_ok : ∀ (chunks : List Bytes) {r : Redactor} {read : Redactor × Bytes},
    r.run chunks = .ok read →
      r.tokens.run (r.literals.handed chunks) = .ok (read.1.tokens, read.2) ∧
        read.1.literals = (r.literals.filter chunks.flatten).1.finish.1 := by
  intro chunks
  induction chunks with
  | nil =>
    intro r read ran
    obtain ⟨⟨s', first⟩, filtered, ran⟩ := bind_eq_ok.1 ran
    obtain ⟨⟨s'', last⟩, finished, ran⟩ := bind_eq_ok.1 ran
    obtain ⟨_, _, ran⟩ := bind_eq_ok.1 ran
    simp only [pure_eq_ok, Except.ok.injEq] at ran
    subst ran
    refine ⟨?_, rfl⟩
    change r.tokens.filter r.literals.finish.2 = .ok (s', first) at filtered
    simp only [LiteralAutomaton.handed, Scanner.run, filtered, bind, Except.bind, finished]
    rfl
  | cons _ _ ih =>
    intro r read ran
    obtain ⟨⟨r', safe⟩, filtered, ran⟩ := bind_eq_ok.1 ran
    obtain ⟨⟨r'', rest⟩, ranRest, ran⟩ := bind_eq_ok.1 ran
    simp only [pure_eq_ok, Except.ok.injEq] at ran
    subst ran
    obtain ⟨_, _, filtered⟩ := bind_eq_ok.1 filtered
    obtain ⟨_, _, filtered⟩ := bind_eq_ok.1 filtered
    obtain ⟨⟨s', output⟩, scanned, filtered⟩ := bind_eq_ok.1 filtered
    obtain ⟨_, _, filtered⟩ := bind_eq_ok.1 filtered
    obtain ⟨rfl, rfl⟩ := filtered
    obtain ⟨ranTexts, literals⟩ := ih ranRest
    constructor
    · simp only [LiteralAutomaton.handed, Scanner.run, scanned, bind, Except.bind, ranTexts]
      rfl
    · rw [flatten_cons, LiteralAutomaton.filter_append]
      exact literals

/-- **Redaction does not depend on chunking.** Two runs of the redactor of one set of secrets over
one stream, neither of which fails or cuts an escape in an open token behind a plus sign, have the
same output and agree on whether anything was redacted.

**Proof sketch.** What the literal pass hands on does not depend on the chunks, and neither does
its state at the end. The scanner's run over the texts handed on is its run over the whole. -/
theorem redaction_chunking {secrets : List Bytes} {r : Redactor}
    (_accepted : Redactor.new secrets = .ok r) {first second : List Bytes}
    (stream : first.flatten = second.flatten) {read read' : Redactor × Bytes}
    (ran : r.run first = .ok read) (ran' : r.run second = .ok read')
    (uncut : r.uncut first = true) (uncut' : r.uncut second = true) :
    read.2 = read'.2 ∧ read.1.hasRedaction = read'.1.hasRedaction := by
  obtain ⟨texts, literals⟩ := Redactor.run_eq_ok first ran
  obtain ⟨texts', literals'⟩ := Redactor.run_eq_ok second ran'
  have whole := whole_of_run _ uncut texts
  have whole' := whole_of_run _ uncut' texts'
  rw [LiteralAutomaton.handed_flatten, stream] at whole
  rw [LiteralAutomaton.handed_flatten] at whole'
  have same := Except.ok.inj (whole.symm.trans whole')
  rw [Prod.mk.injEq] at same
  refine ⟨same.2, ?_⟩
  rw [Redactor.hasRedaction, Redactor.hasRedaction, same.1, literals, literals', stream]

/-- What a run of the redactor of a set of secrets comes to: its output, and whether anything was
redacted. -/
def redactedBy (secrets chunks : List Bytes) : Option (Bytes × Bool) := do
  let r ← (Redactor.new secrets).toOption
  let (r, output) ← (r.run chunks).toOption
  return (output, r.hasRedaction)

/-- A secret that two runs cut in different places is hidden by both. -/
theorem redaction_chunking_token : ∃ r read read', Redactor.new [text "token-123"] = .ok r ∧
    r.run [text "a tok", text "en-123 z"] = .ok read ∧
    r.run [text "a token-1", text "23 z"] = .ok read' ∧
    read.2 = text "a [REDACTED] z" ∧ read.2 = read'.2 ∧
      read.1.hasRedaction = read'.1.hasRedaction := by
  refine ⟨_, _, _, rfl, rfl, rfl, rfl, ?_⟩
  exact @redaction_chunking [text "token-123"] _ rfl [text "a tok", text "en-123 z"]
    [text "a token-1", text "23 z"] rfl _ _ rfl rfl rfl rfl

/-- A token whose last byte is written with a plus sign is hidden when it is read at once, and let
through when a cut falls behind the sign. -/
theorem signed_escape_cut :
    redactedBy [] [text "ghp_aaaaaaaaaaaaaaaaaaa\\u+041"] = some (text "[REDACTED]", true) ∧
      redactedBy [] [text "ghp_aaaaaaaaaaaaaaaaaaa\\u+", text "041"] =
        some (text "ghp_aaaaaaaaaaaaaaaaaaa\\u+041", false) := by
  constructor <;> rfl

end Provenant.Redact

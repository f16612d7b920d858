import Provenant.Data.Json

/-!
# Numbered texts

Texts that end in a number, and how they are taken apart again: a fixed part is stripped from the
front or from the back, a text is split at a separator, and the digits at its end are read.

## Main definitions

* `Json.stripPrefix`, `Json.stripSuffix`, `Json.splitOnce` — parts of a text.
* `Json.parseUnsigned` — the number that a text writes, if it fits into 64 bits.
* `Json.trailing` — a text as a stem and the number at its end.

## Main results

* `Json.parseUnsigned_decimal` — written numbers are read back.
* `Json.trailing_append` — a stem that does not end in a digit, and the number after it.
-/

namespace Json

open List

/-! ### Parts of a text -/

/-- The rest of a text after its first part. -/
def stripPrefix : Text → Text → Option Text
  | [], t => some t
  | _ :: _, [] => none
  | a :: first, b :: t => if a = b then stripPrefix first t else none

/-- A text without its last part. -/
def stripSuffix (last t : Text) : Option Text :=
  (stripPrefix last.reverse t.reverse).map List.reverse

/-- The parts before and after the first occurrence of a separator. -/
def splitOnce (separator : Text) : Text → Option (Text × Text)
  | [] => (stripPrefix separator []).map fun rest => ([], rest)
  | b :: t =>
    match stripPrefix separator (b :: t) with
    | some rest => some ([], rest)
    | none => (splitOnce separator t).map fun parts => (b :: parts.1, parts.2)

@[simp]
lemma stripPrefix_append (first t : Text) : stripPrefix first (first ++ t) = some t := by
  induction first with
  | nil => rfl
  | cons _ _ ih => simp [stripPrefix, ih]

@[simp]
lemma stripSuffix_append (t last : Text) : stripSuffix last (t ++ last) = some t := by
  simp [stripSuffix]

variable {b : UInt8}

/-- A separator is found where its first byte first occurs. -/
lemma splitOnce_append {separator before : Text} (after : Text) (absent : b ∉ before) :
    splitOnce (b :: separator) (before ++ b :: separator ++ after) = some (before, after) := by
  induction before with
  | nil =>
    have found := stripPrefix_append (b :: separator) after
    simp only [cons_append] at found
    simp [splitOnce, found]
  | cons c _ ih =>
    have differs : b ≠ c := fun same => absent (same ▸ mem_cons_self)
    have rest := ih fun member => absent (mem_cons_of_mem c member)
    simp only [append_assoc, cons_append] at rest
    simp [splitOnce, stripPrefix, differs, rest]

/-- A text without the first byte of a separator is not split. -/
lemma splitOnce_eq_none {separator t : Text} (absent : b ∉ t) :
    splitOnce (b :: separator) t = none := by
  induction t with
  | nil => rfl
  | cons c _ ih =>
    have differs : b ≠ c := fun same => absent (same ▸ mem_cons_self)
    simp [splitOnce, stripPrefix, differs, ih fun member => absent (mem_cons_of_mem c member)]

/-! ### Numbers -/

/-- The byte is a decimal digit. -/
def isDigit (b : UInt8) : Bool := 48 ≤ b && b ≤ 57

/-- The number that a text writes in decimal digits, possibly after a plus sign. -/
def parseUnsigned (t : Text) : Option Nat :=
  let digits := if t.head? = some 43 then t.tail else t
  let n := Nat.ofDigits 10 (digits.reverse.map fun b => b.toNat - 48)
  if digits ≠ [] ∧ digits.all isDigit ∧ n < 2 ^ 64 then some n else none

/-- A written number has digits, only digits, and is read back from them. -/
lemma decimal_digits (n : Nat) : decimal n ≠ [] ∧ (decimal n).all isDigit = true ∧
    Nat.ofDigits 10 ((decimal n).reverse.map fun b => b.toNat - 48) = n := by
  have read := parseIndex_decimal n
  unfold parseIndex at read
  split at read
  · cases read
  next proper =>
    split at read
    next digits =>
      refine ⟨fun empty => proper (.inl empty), ?_, Option.some.inj read⟩
      simpa [isDigit] using digits
    · cases read

lemma isDigit_of_mem_decimal {n : Nat} (member : b ∈ decimal n) : isDigit b = true :=
  all_eq_true.1 (decimal_digits n).2.1 b member

lemma not_mem_decimal (other : isDigit b = false) (n : Nat) : b ∉ decimal n := by
  intro member
  rw [isDigit_of_mem_decimal member] at other
  cases other

/-- Written numbers are read back. -/
lemma parseUnsigned_decimal {n : Nat} (small : n < 2 ^ 64) : parseUnsigned (decimal n) = some n := by
  obtain ⟨nonempty, digits, value⟩ := decimal_digits n
  have unsigned : (decimal n).head? ≠ some 43 := fun plus =>
    not_mem_decimal rfl n (mem_of_mem_head? plus)
  simp only [parseUnsigned, if_neg unsigned, value]
  rw [if_pos ⟨nonempty, digits, small⟩]

/-- A text as a stem and the number that its last digits write. -/
def trailing (t : Text) : Text × Nat :=
  ((t.reverse.dropWhile isDigit).reverse,
    Nat.ofDigits 10 ((t.reverse.takeWhile isDigit).map fun b => b.toNat - 48))

/-- A stem that does not end in a digit, and the number after it. -/
lemma trailing_append {stem : Text} (ends : ∀ b ∈ stem.getLast?, isDigit b = false) (n : Nat) :
    trailing (stem ++ decimal n) = (stem, n) := by
  have digits : ∀ b ∈ (decimal n).reverse, isDigit b = true := fun b member =>
    isDigit_of_mem_decimal (mem_reverse.1 member)
  have stops : stem.reverse.takeWhile isDigit = [] ∧
      stem.reverse.dropWhile isDigit = stem.reverse := by
    cases reversed : stem.reverse with
    | nil => exact ⟨rfl, rfl⟩
    | cons b =>
      have last : isDigit b = false := by
        refine ends b ?_
        rw [← head?_reverse, reversed]
        rfl
      simp [last]
  rw [trailing, reverse_append, takeWhile_append_of_pos digits,
    dropWhile_append_of_pos digits, stops.1, stops.2, append_nil, reverse_reverse,
    (decimal_digits n).2.2]

end Json

import Mathlib.Data.List.Basic
import Mathlib.Data.Nat.Digits.Lemmas

/-!
# JSON values

A JSON value is a tree. Texts are the bytes of their UTF-8 encoding, so that lengths are byte
lengths.

## Main definitions

* `Json.Value` — null, booleans, integers, texts, arrays and objects.
* `Json.child` — the value one step into another.
* `Json.decimal`, `Json.parseIndex` — a number in decimal digits, and its reading.

## Main results

* `Json.parseIndex_decimal` — a number is read back from its digits.
-/

namespace Json

open List

/-- A text, as the bytes of its UTF-8 encoding. -/
abbrev Text := List UInt8

instance : LawfulBEq Text := inferInstance

/-- The bytes of a string literal. -/
def text (s : String) : Text := s.toUTF8.data.toList

/-- The lower-case hexadecimal digit of a number below sixteen. -/
def hexDigit (n : Nat) : UInt8 := UInt8.ofNat (if n < 10 then 48 + n else 87 + n)

/-- A JSON value. Numbers are integers. -/
inductive Value
  | null
  | bool (b : Bool)
  | int (n : Int)
  | str (s : Text)
  | arr (items : List Value)
  | obj (members : List (Text × Value))
  deriving Inhabited

/-- One step into a value: the member of an object or the item of an array. -/
inductive Step
  | key (name : Text)
  | index (i : Nat)
  deriving DecidableEq

namespace Value

/-! ### Decidable equality -/

mutual

/-- Equality of values, decided along their structure. -/
def decEq : (v w : Value) → Decidable (v = w)
  | .null, .null => isTrue rfl
  | .bool a, .bool b => decidable_of_iff (a = b) (by simp)
  | .int a, .int b => decidable_of_iff (a = b) (by simp)
  | .str a, .str b => decidable_of_iff (a = b) (by simp)
  | .arr xs, .arr ys =>
    match decEqItems xs ys with
    | isTrue h => isTrue (by rw [h])
    | isFalse h => isFalse (by simpa using h)
  | .obj ms, .obj ns =>
    match decEqMembers ms ns with
    | isTrue h => isTrue (by rw [h])
    | isFalse h => isFalse (by simpa using h)
  | .null, .bool _ | .null, .int _ | .null, .str _ | .null, .arr _ | .null, .obj _
  | .bool _, .null | .bool _, .int _ | .bool _, .str _ | .bool _, .arr _ | .bool _, .obj _
  | .int _, .null | .int _, .bool _ | .int _, .str _ | .int _, .arr _ | .int _, .obj _
  | .str _, .null | .str _, .bool _ | .str _, .int _ | .str _, .arr _ | .str _, .obj _
  | .arr _, .null | .arr _, .bool _ | .arr _, .int _ | .arr _, .str _ | .arr _, .obj _
  | .obj _, .null | .obj _, .bool _ | .obj _, .int _ | .obj _, .str _ | .obj _, .arr _ =>
    isFalse (by simp)

/-- Equality of the items of two arrays. -/
def decEqItems : (xs ys : List Value) → Decidable (xs = ys)
  | [], [] => isTrue rfl
  | [], _ :: _ => isFalse (by simp)
  | _ :: _, [] => isFalse (by simp)
  | x :: xs, y :: ys =>
    match decEq x y, decEqItems xs ys with
    | isTrue h, isTrue h' => isTrue (by rw [h, h'])
    | isFalse h, _ => isFalse (by simp [h])
    | _, isFalse h => isFalse (by simp [h])

/-- Equality of the members of two objects, in their order. -/
def decEqMembers : (ms ns : List (Text × Value)) → Decidable (ms = ns)
  | [], [] => isTrue rfl
  | [], _ :: _ => isFalse (by simp)
  | _ :: _, [] => isFalse (by simp)
  | (k, v) :: ms, (l, w) :: ns =>
    match decEq v w, decEqMembers ms ns with
    | isTrue h, isTrue h' => decidable_of_iff (k = l) (by simp [h, h'])
    | isFalse h, _ => isFalse (by simp [h])
    | _, isFalse h => isFalse (by simp [h])

end

instance : DecidableEq Value := decEq

end Value

/-- The value one step into `v`. -/
def child (v : Value) : Step → Option Value
  | .key name => match v with
    | .obj ms => ms.lookup name
    | _ => none
  | .index i => match v with
    | .arr xs => xs[i]?
    | _ => none

/-! ### Decimal numbers -/

/-- A number in decimal digits. -/
def decimal (n : Nat) : Text :=
  if n = 0 then [48] else ((Nat.digits 10 n).map fun d => UInt8.ofNat (48 + d)).reverse

/-- An array index: decimal digits with no leading zero. -/
def parseIndex (t : Text) : Option Nat :=
  if t = [] ∨ (t.head? = some 48 ∧ t.length ≠ 1) then none
  else if t.all fun b => 48 ≤ b ∧ b ≤ 57 then
    some (Nat.ofDigits 10 (t.reverse.map fun b => b.toNat - 48))
  else none

/-- The decimal digits of a number are read back as that number. -/
lemma parseIndex_decimal (n : Nat) : parseIndex (decimal n) = some n := by
  by_cases hn : n = 0
  · subst hn; decide
  · have hne : Nat.digits 10 n ≠ [] := Nat.digits_ne_nil_iff_ne_zero.mpr hn
    have hdigit : ∀ d ∈ Nat.digits 10 n, d < 10 := fun d hd => Nat.digits_lt_base (by norm_num) hd
    have htoNat : ∀ d < 10, (UInt8.ofNat (48 + d)).toNat = 48 + d := by decide
    -- the leading digit is the last of the little-endian digits, which is not zero
    have hhead : (decimal n).head? ≠ some 48 := by
      rw [decimal, if_neg hn, head?_reverse, getLast?_map, getLast?_eq_getLast_of_ne_nil hne]
      have hlast := hdigit _ (getLast_mem hne)
      have hlast0 := Nat.getLast_digit_ne_zero 10 hn
      intro h
      have h' := congrArg UInt8.toNat (Option.some.inj h)
      simp at h'
      omega
    have hall : (decimal n).all fun b => 48 ≤ b ∧ b ≤ 57 := by
      rw [decimal, if_neg hn, all_reverse, all_map, all_eq_true]
      intro d hd
      have hrange : ∀ d < 10, decide (48 ≤ UInt8.ofNat (48 + d) ∧ UInt8.ofNat (48 + d) ≤ 57) := by
        decide
      exact hrange d (hdigit d hd)
    have hback : ((decimal n).reverse.map fun b => b.toNat - 48) = Nat.digits 10 n := by
      rw [decimal, if_neg hn, reverse_reverse, map_map]
      refine (map_congr_left fun d hd => ?_).trans (map_id _)
      have hd := htoNat d (hdigit d hd)
      simp only [Function.comp_apply, id_eq]
      omega
    have hnil : decimal n ≠ [] := by simp [decimal, hn, hne]
    rw [parseIndex, if_neg (by simp [hnil, hhead]), if_pos hall, hback, Nat.ofDigits_digits]

end Json

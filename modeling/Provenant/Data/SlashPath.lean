import Mathlib.Data.List.Basic
import Mathlib.Data.List.Infix
import Provenant.Data.Json

/-!
# Paths as texts

An absolute path is a list of components, each a text that is not empty and has no slash in it. Its
text has a slash before each component; the root is a single slash. The texts of the paths below a
path are the texts in a range of the bytewise order, since the byte after the slash is the digit
zero. Here that range, with the texts of the ancestors, is shown to find exactly the paths that lie
above or below a path.

## Main definitions

* `SlashPath.Path` — lists of components.
* `SlashPath.spell` — the text of a path.
* `SlashPath.ancestors` — the path and what lies above it, up to the root.
* `SlashPath.Related` — one path lies above the other, or they are equal.

## Main results

* `SlashPath.mem_range_iff` — a range between two texts as a common beginning.
* `SlashPath.spell_injective` — the text determines the path.
* `SlashPath.related_iff` — the range and the ancestors find exactly the related paths.
-/

namespace SlashPath

open Json List

/-- The slash. -/
def slash : UInt8 := 47

/-- A component: not empty, and without a slash. -/
abbrev Component := { t : Text // t ≠ [] ∧ slash ∉ t }

/-- An absolute path. -/
abbrev Path := List Component

/-- A component after its slash. -/
def segment (c : Component) : Text := slash :: c.1

/-- The text of a path. -/
def spell (p : Path) : Text := if p = [] then [slash] else p.flatMap segment

/-- The path itself and the paths above it, up to the root. -/
def ancestors (p : Path) : List Path := p.inits.reverse

/-- One of the paths lies above the other, or they are equal. -/
def Related (p q : Path) : Prop := p <+: q ∨ q <+: p

lemma Related.symm {p q : Path} (related : Related p q) : Related q p := Or.symm related

/-- The bounds of the texts of the paths below a path, in the bytewise order. -/
def below (p : Path) : Text × Text :=
  if spell p = [slash] then ([slash], [slash + 1])
  else (spell p ++ [slash], spell p ++ [slash + 1])

/-! ### A range of texts -/

/-- The only byte from the slash up to the one before the next is the slash. -/
lemma eq_slash {b : UInt8} {rest : Text} (low : slash < b ∨ slash = b ∧ [] ≤ rest)
    (high : b < slash + 1 ∨ b = slash + 1 ∧ rest < []) : b = slash := by
  have next : slash + 1 = 48 := rfl
  simp only [slash, UInt8.lt_iff_toNat_lt, ← UInt8.toNat_inj, not_lt_nil, and_false, or_false] at *
  have value : (47 : UInt8).toNat = 47 ∧ (48 : UInt8).toNat = 48 := ⟨rfl, rfl⟩
  omega

/-- The texts between a text with a slash and the same text with the next byte begin with the
first.

**Proof sketch.** Induction on the text. A byte that differs from the one of the text puts both
bounds on one side; past the text, the byte lies between the slash and the next one. -/
lemma mem_range_iff (v t : Text) :
    (v ++ [slash] ≤ t ∧ t < v ++ [slash + 1]) ↔ v ++ [slash] <+: t := by
  induction v generalizing t with
  | nil =>
    cases t with
    | nil => simp
    | cons =>
      simp only [nil_append, cons_le_cons_iff, cons_lt_cons_iff,
        cons_prefix_cons, nil_prefix, and_true]
      constructor
      · rintro ⟨low, high⟩
        exact (eq_slash low high).symm
      · rintro rfl
        exact ⟨.inr ⟨rfl, nil_le _⟩, .inl (by decide)⟩
  | cons _ _ ih =>
    cases t with
    | nil => simp
    | cons =>
      simp only [cons_append, cons_le_cons_iff, cons_lt_cons_iff, cons_prefix_cons, ← ih]
      constructor
      · rintro ⟨low | ⟨rfl, low⟩, high | ⟨same, high⟩⟩
        · exact absurd low (UInt8.lt_asymm high)
        · exact absurd same (UInt8.ne_of_lt low).symm
        · exact absurd high (UInt8.lt_irrefl _)
        · exact ⟨rfl, low, high⟩
      · rintro ⟨rfl, low, high⟩
        exact ⟨.inr ⟨rfl, low⟩, .inr ⟨rfl, high⟩⟩

/-! ### Components -/

/-- The parts between the slashes of the segments are the components. -/
lemma splitOn_segments {start : Text} (whole : slash ∉ start) (p : Path) :
    (start ++ p.flatMap segment).splitOn slash = start :: p.map Subtype.val := by
  induction p generalizing start with
  | nil => rw [flatMap_nil, append_nil, splitOn_eq_singleton whole, map_nil]
  | cons c p ih =>
    rw [flatMap_cons, segment, cons_append,
      splitOn_append_cons_self_of_not_mem whole, ih c.2.2, map_cons]

/-- The segments determine the path. -/
lemma flatMap_segment_injective {p q : Path} (same : p.flatMap segment = q.flatMap segment) :
    p = q := by
  have parts := splitOn_segments not_mem_nil q
  rw [← same, splitOn_segments not_mem_nil] at parts
  exact map_injective_iff.2 Subtype.val_injective (List.cons.inj parts).2

/-- A text that begins with the segments of a path and a slash belongs to a longer path. -/
lemma longer_iff (p q : Path) :
    p.flatMap segment ++ [slash] <+: q.flatMap segment ↔ ∃ c rest, q = p ++ c :: rest := by
  constructor
  · rintro ⟨rest, text⟩
    have parts := splitOn_segments not_mem_nil q
    rw [nil_append, ← text, append_assoc, singleton_append,
      splitOn_append_cons_self, ← nil_append (p.flatMap segment),
      splitOn_segments not_mem_nil] at parts
    obtain ⟨_, _, rfl, same, more⟩ := map_eq_append_iff.1 (List.cons.inj parts).2.symm
    obtain ⟨first, others, split⟩ := exists_cons_of_ne_nil (splitOn_ne_nil slash rest)
    rw [split] at more
    obtain ⟨c, others, rfl, -⟩ := map_eq_cons_iff.1 more
    rw [map_injective_iff.2 Subtype.val_injective same]
    exact ⟨c, others, rfl⟩
  · rintro ⟨c, rest, rfl⟩
    exact ⟨c.1 ++ rest.flatMap segment, by simp [segment]⟩

/-! ### Texts of paths -/

lemma spell_eq_slash {p : Path} : spell p = [slash] ↔ p = [] := by
  unfold spell
  split
  next root =>
    simp [root]
  next inner =>
    cases p with
    | nil => exact absurd rfl inner
    | cons c =>
      simp only [flatMap_cons, segment, cons_append, reduceCtorEq, iff_false]
      intro eq
      have empty := (List.cons.inj eq).2
      exact c.2.1 (append_eq_nil_iff.1 empty).1

lemma spell_of_ne {p : Path} (inner : p ≠ []) : spell p = p.flatMap segment := if_neg inner

/-- **The text determines the path.** -/
theorem spell_injective {p q : Path} (same : spell p = spell q) : p = q := by
  by_cases hp : p = []
  · rw [spell_eq_slash.2 hp] at same
    rw [hp, spell_eq_slash.1 same.symm]
  · by_cases hq : q = []
    · rw [spell_eq_slash.2 hq] at same
      exact absurd (spell_eq_slash.1 same) hp
    · rw [spell_of_ne hp, spell_of_ne hq] at same
      exact flatMap_segment_injective same

lemma mem_ancestors {p q : Path} : q ∈ ancestors p ↔ q <+: p := by
  simp [ancestors, mem_inits]

/-- The texts in the range below a path are those of the paths with more components, and for the root
its own. -/
lemma mem_below_iff (p q : Path) :
    ((below p).1 ≤ spell q ∧ spell q < (below p).2) ↔
      (p = [] ∧ q = []) ∨ ∃ c rest, q = p ++ c :: rest := by
  by_cases root : p = []
  · subst root
    have bounds : below [] = ([] ++ [slash], [] ++ [slash + 1]) := rfl
    rw [bounds, mem_range_iff]
    cases q with
    | nil => simp [spell]
    | cons => simp [spell, segment]
  · have bounds : below p = (spell p ++ [slash], spell p ++ [slash + 1]) := by
      rw [below, if_neg (mt spell_eq_slash.1 root)]
    rw [bounds, mem_range_iff, spell_of_ne root]
    by_cases hq : q = []
    · subst hq
      constructor
      · intro alike
        have len := alike.length_le
        have long : 0 < (p.flatMap segment).length := by
          cases p with
          | nil => exact absurd rfl root
          | cons => simp [segment]
        rw [length_append] at len
        change _ + 1 ≤ 1 at len
        omega
      · rintro (⟨empty, -⟩ | ⟨c, rest, eq⟩)
        · exact absurd empty root
        · simp at eq
    · rw [spell_of_ne hq, longer_iff]
      simp [root]

/-- **The range below a path and the texts of its ancestors find exactly the related paths.** -/
theorem related_iff (p q : Path) :
    ((below p).1 ≤ spell q ∧ spell q < (below p).2) ∨ spell q ∈ (ancestors p).map spell ↔
      Related p q := by
  rw [mem_below_iff]
  constructor
  · rintro ((⟨rfl, rfl⟩ | ⟨c, rest, rfl⟩) | above)
    · exact .inl (prefix_refl _)
    · exact .inl (prefix_append _ _)
    · obtain ⟨a, mem, same⟩ := mem_map.1 above
      rw [spell_injective same] at mem
      exact .inr (mem_ancestors.1 mem)
  · rintro (under | above)
    · obtain ⟨rest, rfl⟩ := under
      cases rest with
      | nil =>
        rw [append_nil]
        exact .inr (mem_map_of_mem (mem_ancestors.2 (prefix_refl p)))
      | cons c rest => exact .inl (.inr ⟨c, rest, rfl⟩)
    · exact .inr (mem_map_of_mem (mem_ancestors.2 above))

end SlashPath

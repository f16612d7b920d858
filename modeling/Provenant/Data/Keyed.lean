import Mathlib.Data.List.Basic
import Mathlib.Data.List.Nodup

/-!
# Tables of rows with a key

A table is a list of rows, and a function gives the key of a row. This file has the operations of a
table that is read and written by key, and what a lookup returns after each of them.

## Main definitions

* `Keyed.find` — the row of a key.
* `Keyed.update` — the rows of a key replaced.
* `Keyed.insertNew` — a row added unless its key is taken.
* `Keyed.replaceFirst` — the first row of a key replaced.

## Main results

* `Keyed.find_map`, `Keyed.find_update_self`, `Keyed.find_update_other`, `Keyed.find_insertNew` —
  lookups after a change.
* `Keyed.mem_replaceFirst` — the rows after a replacement, in a table without two rows of one key.
-/

namespace Keyed

open List Option

variable {α β : Type} [DecidableEq β] (key : α → β)

/-- The row of a key. -/
def find (k : β) (rows : List α) : Option α := rows.find? fun row => key row = k

/-- The rows with the key of `row` replaced by it. -/
def update (row : α) (rows : List α) : List α :=
  rows.map fun old => if key old = key row then row else old

/-- The row is added unless its key is taken. -/
def insertNew (row : α) (rows : List α) : List α :=
  if rows.any (fun old => key old = key row) then rows else rows ++ [row]

/-- The first row with the key of `row` replaced by it. -/
def replaceFirst (row : α) : List α → List α
  | [] => []
  | old :: rest => if key old = key row then row :: rest else old :: replaceFirst row rest

variable {key}

/-! ### Lookups -/

variable {k : β} {row : α} {rows : List α}

lemma key_of_find (found : find key k rows = some row) : key row = k := by
  simpa using find?_some found

lemma mem_of_find (found : find key k rows = some row) : row ∈ rows := mem_of_find?_eq_some found

/-- A change of the rows that keeps their keys changes what a lookup returns, and nothing else. -/
lemma find_map {f : α → α} (keeps : ∀ row, key (f row) = key row) (k : β) (rows : List α) :
    find key k (rows.map f) = (find key k rows).map f := by
  simp only [find, find?_map, Function.comp_def, keeps]

lemma key_update (row old : α) :
    key (if key old = key row then row else old) = key old := by
  split
  next same =>
    exact same.symm
  · rfl

lemma find_update_self {old : α} (found : find key (key row) rows = some old) :
    find key (key row) (update key row rows) = some row := by
  rw [update, find_map (key_update row), found, map_some, if_pos (key_of_find found)]

lemma find_update_other (other : k ≠ key row) (rows : List α) :
    find key k (update key row rows) = find key k rows := by
  rw [update, find_map (key_update row)]
  cases found : find key k rows with
  | none => rfl
  | some _ => rw [map_some, if_neg (key_of_find found ▸ other)]

lemma find_append (k : β) (rows more : List α) :
    find key k (rows ++ more) = (find key k rows).or (find key k more) := by
  rw [find, find?_append]
  rfl

lemma find_eq_none : find key k rows = none ↔ ∀ row ∈ rows, key row ≠ k := by
  simp [find]

/-- A lookup after the row of a key was replaced. -/
lemma find_update {old : α} (found : find key (key row) rows = some old) (k : β) :
    find key k (update key row rows) = if k = key row then some row else find key k rows := by
  split
  next same =>
    rw [same, find_update_self found]
  next other =>
    exact find_update_other other rows

/-- A lookup after a row with a new key was added. -/
lemma find_snoc (absent : find key (key row) rows = none) (k : β) :
    find key k (rows ++ [row]) = if k = key row then some row else find key k rows := by
  have single : find key k [row] = if k = key row then some row else none := by
    by_cases same : key row = k
    · simp [find, same]
    · simp [find, same, Ne.symm same]
  rw [find_append, single]
  split
  next same =>
    rw [same, absent, none_or]
  · rw [or_none]

lemma map_key_update (row : α) (rows : List α) : (update key row rows).map key = rows.map key := by
  rw [update, List.map_map]
  exact map_congr_left fun old _ => key_update row old

/-- A row with a new key keeps the keys distinct. -/
lemma nodup_snoc (absent : find key (key row) rows = none) (nodup : (rows.map key).Nodup) :
    ((rows ++ [row]).map key).Nodup := by
  rw [map_append, map_singleton]
  refine List.Nodup.append nodup (nodup_singleton _) ?_
  rw [disjoint_singleton]
  intro mem
  obtain ⟨old, held, same⟩ := List.mem_map.1 mem
  exact find_eq_none.1 absent old held same

/-- In a table without two rows of one key, every row is found. -/
lemma find_of_mem (nodup : (rows.map key).Nodup) (mem : row ∈ rows) :
    find key (key row) rows = some row := by
  cases found : find key (key row) rows with
  | none => exact absurd rfl (find_eq_none.1 found row mem)
  | some _ =>
    rw [inj_on_of_nodup_map nodup (mem_of_find found) mem (key_of_find found)]

/-- A key all of whose rows a deletion removes is not found. -/
lemma find_filter_none {p : α → Bool} (removed : ∀ row ∈ rows, key row = k → p row = false) :
    find key k (rows.filter p) = none := by
  refine find_eq_none.2 fun row mem same => ?_
  obtain ⟨held, left⟩ := mem_filter.1 mem
  rw [removed row held same] at left
  cases left

/-- A row that a deletion leaves is found as before. -/
lemma find_filter {p : α → Bool} (found : find key k rows = some row) (stays : p row = true) :
    find key k (rows.filter p) = some row := by
  induction rows with
  | nil => cases found
  | cons old _ ih =>
    rw [find, find?_cons] at found
    by_cases same : key old = k
    · simp only [same, decide_true] at found
      cases found
      rw [filter_cons_of_pos stays, find, find?_cons]
      simp [same]
    · simp only [same, decide_false] at found
      by_cases left : p old = true
      · rw [filter_cons_of_pos left, find, find?_cons]
        simp only [same, decide_false]
        exact ih found
      · rw [filter_cons_of_neg left]
        exact ih found

/-- A lookup after an insertion: the row that was there, or the new one under its key. -/
lemma find_insertNew (k : β) (row : α) (rows : List α) :
    find key k (insertNew key row rows) =
      (find key k rows).or (if key row = k then some row else none) := by
  have single : find key k [row] = if key row = k then some row else none := by
    simp [find, find?_cons]
    split <;> simp_all
  unfold insertNew
  split
  next taken =>
    obtain ⟨old, mem, same⟩ := by simpa using taken
    cases found : find key k rows with
    | some _ => rfl
    | none =>
      have apart : key row ≠ k := same ▸ find_eq_none.1 found old mem
      simp [apart]
  · rw [find_append, single]

/-! ### The first row of a key -/

lemma map_key_replaceFirst (row : α) (rows : List α) :
    (replaceFirst key row rows).map key = rows.map key := by
  induction rows with
  | nil => rfl
  | cons old rest ih =>
    rw [replaceFirst]
    split
    next same =>
      simp [same]
    · simp [ih]

lemma replaceFirst_of_notMem (absent : key row ∉ rows.map key) :
    replaceFirst key row rows = rows := by
  induction rows with
  | nil => rfl
  | cons _ _ ih =>
    simp only [map_cons, mem_cons, not_or] at absent
    rw [replaceFirst, if_neg (Ne.symm absent.1), ih absent.2]

lemma replaceFirst_append_of_mem (present : key row ∈ rows.map key) (more : List α) :
    replaceFirst key row (rows ++ more) = replaceFirst key row rows ++ more := by
  induction rows with
  | nil => cases present
  | cons old rest ih =>
    by_cases same : key old = key row
    · simp [replaceFirst, same]
    · have inner : key row ∈ rest.map key := by
        rcases mem_cons.1 present with eq | inner
        · exact absurd eq.symm same
        · exact inner
      simp [replaceFirst, same, ih inner]

lemma replaceFirst_append_of_notMem (absent : key row ∉ rows.map key) (more : List α) :
    replaceFirst key row (rows ++ more) = rows ++ replaceFirst key row more := by
  induction rows with
  | nil => rfl
  | cons _ _ ih =>
    simp only [map_cons, mem_cons, not_or] at absent
    rw [cons_append, replaceFirst, if_neg (Ne.symm absent.1), ih absent.2, cons_append]

/-- In a table without two rows of one key, the replaced row is the only one of its key.

**Proof sketch.** Induction on the rows; past the first row of the key there is no other, so the
rest of the table is as it was. -/
lemma mem_replaceFirst {other : α} (nodup : (rows.map key).Nodup)
    (mem : other ∈ replaceFirst key row rows) :
    other = row ∨ other ∈ rows ∧ key other ≠ key row := by
  induction rows with
  | nil => cases mem
  | cons old rest ih =>
    rw [map_cons, nodup_cons] at nodup
    rw [replaceFirst] at mem
    split at mem
    next same =>
      rcases mem_cons.1 mem with rfl | inner
      · exact .inl rfl
      · refine .inr ⟨mem_cons_of_mem _ inner, fun eq => nodup.1 ?_⟩
        rw [same, ← eq]
        exact List.mem_map_of_mem inner
    next apart =>
      rcases mem_cons.1 mem with rfl | inner
      · exact .inr ⟨mem_cons_self, apart⟩
      · rcases ih nodup.2 inner with rfl | ⟨kept, ne⟩
        · exact .inl rfl
        · exact .inr ⟨mem_cons_of_mem _ kept, ne⟩

lemma mem_replaceFirst_self (present : key row ∈ rows.map key) :
    row ∈ replaceFirst key row rows := by
  induction rows with
  | nil => cases present
  | cons old rest ih =>
    rw [replaceFirst]
    split
    · exact mem_cons_self
    next apart =>
      rcases mem_cons.1 present with eq | inner
      · exact absurd eq.symm apart
      · exact mem_cons_of_mem _ (ih inner)

lemma mem_replaceFirst_of_ne {other : α} (mem : other ∈ rows) (apart : key other ≠ key row) :
    other ∈ replaceFirst key row rows := by
  induction rows with
  | nil => cases mem
  | cons old rest ih =>
    rw [replaceFirst]
    split
    next same =>
      rcases mem_cons.1 mem with rfl | inner
      · exact absurd same apart
      · exact mem_cons_of_mem _ inner
    · rcases mem_cons.1 mem with rfl | inner
      · exact mem_cons_self
      · exact mem_cons_of_mem _ (ih inner)

end Keyed

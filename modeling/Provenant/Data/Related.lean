import Mathlib.Data.List.Forall2
import Mathlib.Data.List.Nodup

/-!
# Lists that are related member by member, and lists with unique keys

## Main results

* `Related.forall₂_modify` — a change of one member, within a reflexive relation.
* `Related.forall₂_comp` — one relation after another.
* `Related.forall₂_filter` — a selection that related members pass alike.
* `Related.modify_eq_self` — a change that leaves the member at its place alone.
* `Related.filter_modify` — a change of a member that is not selected.
* `Related.find?_key_of_nodup` — a member is found under its key.
* `Related.nodup_key_snoc` — a member with a new key.
* `Related.countP_map_le`, `Related.countP_rekey_le` — how many members a change can make count.
-/

namespace Provenant.Related

open List

variable {α β γ : Type}

/-- A change of one member of a list, within a reflexive relation. -/
lemma forall₂_modify {related : α → α → Prop} {f : α → α} (refl : ∀ x, related x x)
    (xs : List α) (index : Nat) (changes : ∀ x, xs[index]? = some x → related x (f x)) :
    Forall₂ related xs (xs.modify index f) := by
  induction xs generalizing index with
  | nil => simp
  | cons x _ ih =>
    cases index with
    | zero => exact .cons (changes x rfl) (forall₂_same.2 fun y _ => refl y)
    | succ index => exact .cons (refl x) (ih index fun y found => changes y found)

variable {xs : List α}

/-- Relations of three lists, one after the other. -/
lemma forall₂_comp {r : α → β → Prop} {s : β → γ → Prop} {t : α → γ → Prop}
    (comp : ∀ x y z, r x y → s y z → t x z) {ys : List β} {zs : List γ}
    (h : Forall₂ r xs ys) (h' : Forall₂ s ys zs) : Forall₂ t xs zs := by
  induction h generalizing zs with
  | nil =>
    cases h'
    exact .nil
  | cons head _ ih =>
    obtain _ | ⟨head', tail'⟩ := h'
    exact .cons (comp _ _ _ head head') (ih tail')

variable {p : α → Bool}

/-- A selection that related members pass alike. -/
lemma forall₂_filter {r : α → α → Prop} (alike : ∀ x y, r x y → p y = p x)
    {ys : List α} (h : Forall₂ r xs ys) : Forall₂ r (xs.filter p) (ys.filter p) := by
  induction h with
  | nil => exact .nil
  | cons head _ ih =>
    rw [filter_cons, filter_cons, alike _ _ head]
    split
    · exact .cons head ih
    · exact ih

/-- A change that leaves the member at its place alone changes nothing. -/
lemma modify_eq_self {f : α → α} {index : Nat}
    (fixes : ∀ x, xs[index]? = some x → f x = x) : xs.modify index f = xs := by
  have same := @forall₂_modify _ (· = ·) f (fun _ => rfl) xs index fun x found =>
    (fixes x found).symm
  exact (forall₂_eq_eq_eq ▸ same).symm

/-- A change of a member that is not selected, before or after, leaves the selection alone. -/
lemma filter_modify {f : α → α} {index : Nat}
    (outside : ∀ x, xs[index]? = some x → p x = false ∧ p (f x) = false) :
    (xs.modify index f).filter p = xs.filter p := by
  induction xs generalizing index with
  | nil => simp
  | cons x _ ih =>
    cases index with
    | zero =>
      obtain ⟨before, after⟩ := outside x rfl
      rw [modify_zero_cons, filter_cons_of_neg (by rw [after]; exact Bool.false_ne_true),
        filter_cons_of_neg (by rw [before]; exact Bool.false_ne_true)]
    | succ _ =>
      rw [modify_succ_cons, filter_cons, filter_cons, ih fun y found => outside y found]

variable {key : α → β}

/-- In a list with unique keys a member is found under its key. -/
lemma find?_key_of_nodup [BEq β] [LawfulBEq β]
    (nodup : (xs.map key).Nodup) {x : α} (member : x ∈ xs) :
    xs.find? (fun y => key y == key x) = some x := by
  cases found : xs.find? (fun y => key y == key x) with
  | none => exact absurd (beq_self_eq_true (key x)) (find?_eq_none.1 found x member)
  | some y =>
    have matching := find?_some found
    have keys : key y = key x := eq_of_beq matching
    have same := inj_on_of_nodup_map nodup (mem_of_find?_eq_some found) member keys
    rw [same]

/-- A member with a new key keeps the keys unique. -/
lemma nodup_key_snoc {x : α} (nodup : (xs.map key).Nodup)
    (fresh : key x ∉ xs.map key) : ((xs ++ [x]).map key).Nodup := by
  rw [map_append, map_cons, map_nil]
  refine nodup_append.2 ⟨nodup, nodup_singleton _, fun a old b new same => ?_⟩
  rw [mem_singleton.1 new] at same
  exact fresh (same ▸ old)

/-- A change after which only members count that counted before. -/
lemma countP_map_le {f : α → α} (counted : ∀ x ∈ xs, p (f x) = true → p x = true) :
    (xs.map f).countP p ≤ xs.countP p := by
  rw [countP_map]
  exact countP_mono_left counted

/-- In a list with unique keys a change under one key makes at most one more member count. -/
lemma countP_rekey_le [DecidableEq β] {f : α → α} (nodup : (xs.map key).Nodup) (k : β) :
    (xs.map fun x => if key x = k then f x else x).countP p ≤ xs.countP p + 1 := by
  induction xs with
  | nil => simp
  | cons x xs ih =>
    obtain ⟨fresh, nodup⟩ := nodup_cons.1 nodup
    rw [map_cons, countP_cons, countP_cons]
    by_cases own : key x = k
    · -- the member under the key is the first one, and the rest stays
      have rest : (xs.map fun y => if key y = k then f y else y) = xs := by
        refine (map_congr_left fun y member => ?_).trans (map_id xs)
        rw [if_neg]
        · rfl
        · rintro rfl
          exact fresh (own ▸ mem_map_of_mem member)
      rw [rest]
      split_ifs <;> omega
    · have := ih nodup
      rw [if_neg own]
      omega

end Provenant.Related

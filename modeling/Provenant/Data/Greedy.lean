import Mathlib.Data.List.Perm.Subperm

/-!
# Greedy selections

A selection is filled up from a list of candidates: each candidate in turn is added if the
selection with it still fits. If everything that is part of a fitting selection fits, then nothing
that was left out could be added in the end.

## Main definitions

* `Greedy.fill` — fill up a selection.

## Main results

* `Greedy.filled_fill` — the result fits, has no repetition, consists of the old selection and of
  candidates, and no candidate could be added to it.
-/

namespace Greedy

open List

variable {α : Type} [DecidableEq α] (fits : List α → Bool)

/-- Add each candidate that is not in the selection if the selection with it fits. -/
def fill : List α → List α → List α
  | [], kept => kept
  | x :: rest, kept =>
    if x ∈ kept then fill rest kept
    else if fits (kept ++ [x]) then fill rest (kept ++ [x])
    else fill rest kept

/-- What is true of a selection that was filled up. -/
structure Filled (candidates kept final : List α) : Prop where
  within : fits final = true
  nodup : final.Nodup
  keeps : kept ⊆ final
  subset : ∀ x ∈ final, x ∈ kept ∨ x ∈ candidates
  maximal : ∀ x ∈ candidates, x ∉ final → fits (final ++ [x]) = false

variable {fits}

omit [DecidableEq α] in
/-- One more candidate, which is selected or could not be added. -/
lemma Filled.cons {candidates kept final : List α} {x : α} (filled : Filled fits candidates kept final)
    (full : x ∉ final → fits (final ++ [x]) = false) : Filled fits (x :: candidates) kept final where
  within := filled.within
  nodup := filled.nodup
  keeps := filled.keeps
  subset y mem := (filled.subset y mem).imp_right (mem_cons_of_mem _)
  maximal y mem absent := by
    rcases mem_cons.1 mem with rfl | later
    · exact full absent
    · exact filled.maximal y later absent

/-- Filling up a selection that fits.

**Proof sketch.** Induction on the candidates. A candidate that did not fit is still too much at the
end, since the selection has only grown. -/
theorem filled_fill (smaller : ∀ a b : List α, a.Subperm b → fits b = true → fits a = true)
    (candidates kept : List α) (start : fits kept = true) (nodup : kept.Nodup) :
    Filled fits candidates kept (fill fits candidates kept) := by
  induction candidates generalizing kept with
  | nil => exact ⟨start, nodup, List.Subset.refl _, fun _ mem => .inl mem, by simp⟩
  | cons x rest ih =>
    rw [fill]
    split
    next old =>
      have filled := ih kept start nodup
      exact filled.cons fun absent => absurd (filled.keeps old) absent
    next new =>
      split
      next room =>
        have filled := ih (kept ++ [x]) room (nodup_append.2 ⟨nodup, by simp, by
          rintro a mem b single rfl
          exact new (mem_singleton.1 single ▸ mem)⟩)
        have here : x ∈ fill fits rest (kept ++ [x]) := filled.keeps (by simp)
        refine ⟨filled.within, filled.nodup, fun y mem => filled.keeps (by simp [mem]),
          fun y mem => ?_, (filled.cons fun absent => absurd here absent).maximal⟩
        rcases filled.subset y mem with old | later
        · rcases mem_append.1 old with old | single
          · exact .inl old
          · exact .inr (mem_singleton.1 single ▸ mem_cons_self)
        · exact .inr (mem_cons_of_mem _ later)
      next full =>
        have filled := ih kept start nodup
        refine filled.cons fun _ => Bool.eq_false_iff.2 fun fits' => full (smaller _ _ ?_ fits')
        exact (subperm_append_right [x]).2 (subperm_of_subset nodup filled.keeps)

end Greedy

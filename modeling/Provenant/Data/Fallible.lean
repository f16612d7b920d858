import Mathlib.Data.List.Basic

/-!
# Fallible computations

A computation that succeeded did so in each of its steps. The lemmas here take the result of a
sequence of steps, or of one step for each member of a list, apart into the results of the steps.

## Main definitions

* `Fallible.demand` — a check that fails with a reason.

## Main results

* `Fallible.bind_eq_ok` — the value of a sequence of two steps comes from a value of each.
* `Fallible.mapError_eq_ok` — a change of the reason for a failure leaves values alone.
* `Fallible.forall₂_of_mapM` and `Fallible.forall₂_of_mapM_ok` — a step for each member of a list
  gives the values one by one.
* `Fallible.exists_of_forall₂` — each of these values comes from a member.
-/

namespace Fallible

open List Option

variable {ε α β : Type}

variable {x : Except ε α} {xs : List α} {ys : List β} {f : α → Except ε β}

/-- A value in the result of a sequence of fallible steps comes from its parts. -/
lemma bind_eq_ok {b : β} :
    (x >>= f) = .ok b ↔ ∃ a, x = .ok a ∧ f a = .ok b := by
  cases x with
  | error _ | ok _ => simp [bind, Except.bind]

@[simp] lemma ok_bind (a : α) (f : α → Except ε β) :
    ((.ok a : Except ε α) >>= f) = f a := rfl

@[simp] lemma pure_eq_ok (a : α) : (pure a : Except ε α) = .ok a := rfl

lemma map_eq_ok {f : α → β} {b : β} (h : x.map f = .ok b) : ∃ a, x = .ok a ∧ f a = b := by
  cases x with
  | error _ => cases h
  | ok a =>
    cases h
    exact ⟨a, rfl, rfl⟩

lemma mapError_eq_ok {ε' : Type} {f : ε → ε'} {a : α} : x.mapError f = .ok a ↔ x = .ok a := by
  cases x <;> simp [Except.mapError]

lemma toOption_eq_some {a : α} (h : x.toOption = some a) : x = .ok a := by
  cases x with
  | error _ => cases h
  | ok _ =>
    cases h
    rfl

/-- A check that fails with a reason. -/
def demand (holds : Bool) (reason : ε) : Except ε Unit :=
  if holds then .ok () else .error reason

lemma demand_ok {holds : Bool} {reason : ε} {u : Unit} (h : demand holds reason = .ok u) :
    holds = true := by
  unfold demand at h
  split at h
  · assumption
  · cases h

/-- A check that is made of each member of a list passes if it passes for all of them. -/
lemma forM_eq_ok {f : α → Except ε Unit} : xs.forM f = .ok () ↔ ∀ x ∈ xs, f x = .ok () := by
  induction xs with
  | nil => simp [List.forM]
  | cons x rest ih =>
    rw [forall_mem_cons, ← ih]
    change (f x >>= fun _ => rest.forM f) = .ok () ↔ _
    rw [bind_eq_ok]
    constructor
    · rintro ⟨_, first, others⟩
      exact ⟨first, others⟩
    · rintro ⟨first, others⟩
      exact ⟨(), first, others⟩

/-- A fallible step for each member of a list relates the values one by one. -/
lemma forall₂_of_mapM {f : α → Option β} (h : xs.mapM f = some ys) :
    List.Forall₂ (fun x y => f x = some y) xs ys := by
  induction xs generalizing ys with
  | nil =>
    cases h
    exact .nil
  | cons _ _ ih =>
    simp only [mapM_cons, bind_eq_bind, bind_eq_some_iff, Option.pure_def, some.injEq] at h
    obtain ⟨_, hy, _, ho, rfl⟩ := h
    exact .cons hy (ih ho)

lemma isSome_mapM {f : α → Option β} :
    (xs.mapM f).isSome = true ↔ ∀ x ∈ xs, (f x).isSome = true := by
  induction xs with
  | nil => simp
  | cons x xs ih =>
    rw [forall_mem_cons, ← ih, mapM_cons]
    cases f x <;> cases xs.mapM f <;> simp

/-- `forall₂_of_mapM` for steps that say why they fail. -/
lemma forall₂_of_mapM_ok (h : xs.mapM f = .ok ys) :
    List.Forall₂ (fun x y => f x = .ok y) xs ys := by
  induction xs generalizing ys with
  | nil =>
    cases h
    exact .nil
  | cons _ _ ih =>
    rw [mapM_cons] at h
    obtain ⟨y, hy, h⟩ := bind_eq_ok.1 h
    obtain ⟨_, ho, h⟩ := bind_eq_ok.1 h
    cases h
    exact .cons hy (ih ho)

/-- Every value comes from a member of the list. -/
lemma exists_of_forall₂ {R : α → β → Prop} (h : List.Forall₂ R xs ys) {y : β} (member : y ∈ ys) :
    ∃ x ∈ xs, R x y := by
  induction h with
  | nil => cases member
  | cons head _ ih =>
    rcases mem_cons.1 member with rfl | later
    · exact ⟨_, mem_cons_self, head⟩
    · obtain ⟨x, hx, related⟩ := ih later
      exact ⟨x, mem_cons_of_mem _ hx, related⟩

end Fallible

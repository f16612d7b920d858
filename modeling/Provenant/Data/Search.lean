import Mathlib.Data.List.Perm.Subperm
import Mathlib.Data.List.Dedup
import Mathlib.Logic.Relation

/-!
# Searches along edges

A search keeps a stack of nodes to look at and a list of nodes that were seen. It takes a node from
the stack, records the successors that were not seen before, and puts them on the stack.

## Main definitions

* `Search.reach` — the search, with a bound on the nodes it looks at.
* `Search.Frontier` — what holds of a search between two nodes that it looks at.

## Main results

* `Search.Frontier.known_iff` — a search that is over knows what is reached from its seeds.
* `Search.mem_reach` — started at one node, with room for every node there is, the search sees
  exactly the nodes that are reached by one or more edges.

## Implementation notes

The start is not seen itself, unless it can be reached again.
-/

namespace Provenant.Search

open Relation List

variable {α : Type} [DecidableEq α] (next : α → List α)

/-- The successors of a node that were not seen before, without repetition. -/
def unseen (seen : List α) (x : α) : List α := (next x).dedup.filter (· ∉ seen)

/-- Take nodes from the stack, at most `room` of them, and see their successors. -/
def fromStack : Nat → List α → List α → List α
  | 0, _, seen | _, [], seen => seen
  | room + 1, x :: stack, seen =>
    fromStack room ((unseen next seen x).reverse ++ stack) (seen ++ unseen next seen x)

/-- The nodes that a search sees which starts at one node. -/
def reach (room : Nat) (start : α) : List α := fromStack next room [start] []

variable {next}

/-- What a search knows of the nodes that are reached from its seeds, and which of them still wait:
the successors of all others are known. -/
structure Frontier {α : Type} (edge : α → α → Prop) (seed known waiting : α → Prop) : Prop where
  sound : ∀ x, known x → ∃ s, seed s ∧ ReflTransGen edge s x
  seeded : ∀ x, seed x → known x
  closed : ∀ x, known x → waiting x ∨ ∀ y, edge x y → known y

section Frontier

variable {α : Type} {edge : α → α → Prop} {seed known waiting known' waiting' : α → Prop}

/-- New nodes are successors and wait; a node that waits no more has been looked at. -/
lemma Frontier.step (h : Frontier edge seed known waiting) (grows : ∀ x, known x → known' x)
    (fresh : ∀ y, known' y → known y ∨ waiting' y ∧ ∃ x, known x ∧ edge x y)
    (looked : ∀ x, waiting x → waiting' x ∨ ∀ y, edge x y → known' y) :
    Frontier edge seed known' waiting' where
  sound y found := by
    rcases fresh y found with old | ⟨-, x, old, last⟩
    · exact h.sound y old
    · obtain ⟨s, start, path⟩ := h.sound x old
      exact ⟨s, start, path.tail last⟩
  seeded x start := grows x (h.seeded x start)
  closed x found := by
    rcases fresh x found with old | ⟨waits, -⟩
    · rcases h.closed x old with waits | done
      · exact looked x waits
      · exact .inr fun y last => grows y (done y last)
    · exact .inl waits

/-- When nothing waits, exactly what is reached from the seeds is known. -/
lemma Frontier.known_iff (h : Frontier edge seed known waiting) (ended : ∀ x, ¬ waiting x) {x : α} :
    known x ↔ ∃ s, seed s ∧ ReflTransGen edge s x := by
  refine ⟨h.sound x, ?_⟩
  rintro ⟨s, start, path⟩
  induction path with
  | refl => exact h.seeded s start
  | tail _ last ih => exact (h.closed _ ih).resolve_left (ended _) _ last

end Frontier

lemma mem_unseen {seen : List α} {x y : α} : y ∈ unseen next seen x ↔ y ∈ next x ∧ y ∉ seen := by
  simp [unseen]

/-- The room that a search needs: its stack, and what it has not seen yet. -/
def Needs (every seen stack : List α) (room : Nat) : Prop :=
  stack.length + (every.filter (· ∉ seen)).length ≤ room

/-- Looking at a node takes no more room than it has. -/
lemma Needs.step {every seen stack : List α} {x : α} {room : Nat}
    (closed : ∀ x, next x ⊆ every) (needs : Needs every seen (x :: stack) (room + 1)) :
    Needs every (seen ++ unseen next seen x) ((unseen next seen x).reverse ++ stack) room := by
  have distinct : (unseen next seen x).Nodup := (nodup_dedup _).filter _
  -- what was unseen is either found now or unseen still
  have split : (unseen next seen x).length + (every.filter (· ∉ seen ++ unseen next seen x)).length ≤
      (every.filter (· ∉ seen)).length := by
    have covered : ∀ y ∈ unseen next seen x, y ∈ every.filter (· ∉ seen) := by
      intro y found
      obtain ⟨edge, fresh⟩ := mem_unseen.1 found
      simpa using ⟨closed x edge, fresh⟩
    have smaller : every.filter (· ∉ seen ++ unseen next seen x) =
        (every.filter (· ∉ seen)).filter (· ∉ unseen next seen x) := by
      rw [filter_filter]
      refine filter_congr fun y _ => ?_
      simp [Bool.and_comm]
    have count := length_eq_length_filter_add (l := every.filter (· ∉ seen))
      (fun y => decide (y ∈ unseen next seen x))
    have some : (unseen next seen x).length ≤
        ((every.filter (· ∉ seen)).filter (fun y => decide (y ∈ unseen next seen x))).length := by
      refine List.Subperm.length_le (subperm_of_subset distinct fun y found => ?_)
      exact mem_filter.2 ⟨covered y found, by simpa using found⟩
    rw [smaller]
    simp only [decide_not] at count some ⊢
    omega
  unfold Needs at *
  simp only [length_append, length_reverse, length_cons] at *
  omega

/-- A search with enough room ends with nothing left to look at. -/
lemma frontier_fromStack {every : List α} (closed : ∀ x, next x ⊆ every) {seed : α → Prop}
    {room : Nat} {stack seen : List α} (needs : Needs every seen stack room)
    (frontier : Frontier (fun x y => y ∈ next x) seed (· ∈ seen) (· ∈ stack))
    (known : stack ⊆ seen) :
    Frontier (fun x y => y ∈ next x) seed (· ∈ fromStack next room stack seen) (· ∈ []) := by
  induction room generalizing stack seen with
  | zero =>
    have empty : stack = [] := by
      unfold Needs at needs
      exact eq_nil_of_length_eq_zero (by omega)
    rw [empty] at frontier ⊢
    exact frontier
  | succ _ ih =>
    cases stack with
    | nil => exact frontier
    | cons x stack =>
      refine ih (needs.step closed) (frontier.step (fun y => mem_append_left _) ?_ ?_) ?_
      · intro y member
        rcases mem_append.1 member with old | found
        · exact .inl old
        · exact .inr ⟨mem_append_left _ (mem_reverse.2 found), x,
            known mem_cons_self, (mem_unseen.1 found).1⟩
      · intro y waiting
        rcases mem_cons.1 waiting with rfl | rest
        · refine .inr fun z edge => mem_append.2 ?_
          exact or_iff_not_imp_left.2 fun fresh => mem_unseen.2 ⟨edge, fresh⟩
        · exact .inl (mem_append_right _ rest)
      · refine append_subset.2 ⟨fun y found => ?_, fun y rest => ?_⟩
        · exact mem_append_right _ (mem_reverse.1 found)
        · exact mem_append_left _ (known (mem_cons_of_mem _ rest))

/-- Started at one node, with room for every node there is, the search sees exactly the nodes that
are reached by one or more edges. -/
theorem mem_reach {every : List α} (closed : ∀ x, next x ⊆ every) (start y : α) :
    y ∈ reach next (every.length + 1) start ↔ TransGen (fun x y => y ∈ next x) start y := by
  have needs : Needs every [] [start] (every.length + 1) := by
    unfold Needs
    simp
    omega
  -- the start has been looked at, and its successors wait
  have seeds : ∀ x, x ∈ [] ++ unseen next [] start ↔ x ∈ next start := by simp [mem_unseen]
  have frontier : Frontier (fun x y => y ∈ next x) (· ∈ next start)
      (· ∈ [] ++ unseen next [] start) (· ∈ (unseen next [] start).reverse ++ []) :=
    ⟨fun x known => ⟨x, (seeds x).1 known, .refl⟩, fun x => (seeds x).2,
      fun x known => .inl (by simpa using known)⟩
  rw [reach, fromStack, (frontier_fromStack closed (needs.step closed) frontier (by simp)).known_iff
    (by simp), TransGen.head'_iff]

end Provenant.Search

import Mathlib.Algebra.Order.BigOperators.Group.List
import Mathlib.Algebra.Order.Ring.Nat
import Mathlib.Logic.Function.Basic
import Mathlib.Logic.Relation

/-!
# Colours that spread along edges

A queue holds nodes with a colour each. A node without a mark is marked with its colour, and its
successors enter the queue with the same colour. A node that comes up with another colour than its
mark is a clash, and ends the search.

## Main definitions

* `Colouring.spread` — the search, with a bound on the nodes it takes from the queue.
* `Colouring.Reached` — a node is reached from a seed of a colour.

## Main results

* `Colouring.clash_iff` — with enough room, the search ends in a clash exactly if some node is
  reached from seeds of two colours.
* `Colouring.clash_iff_both` — the same for two colours.
-/

namespace Colouring

open Relation List Function

variable {α β : Type} [DecidableEq α] [DecidableEq β] (next : α → List α)

/-- Take nodes from the queue, at most `room` of them, and mark them. A clash is the node at which
it happens. -/
def spread : Nat → (α → Option β) → List (α × β) → Except α (α → Option β)
  | _, marks, [] => .ok marks
  | 0, marks, _ :: _ => .ok marks
  | room + 1, marks, (node, colour) :: pending =>
    match marks node with
    | some prior => if prior ≠ colour then .error node else spread room marks pending
    | none =>
      spread room (Function.update marks node (some colour))
        (pending ++ (next node).map fun successor => (successor, colour))

/-- A node is reached from a seed of a colour. -/
def Reached (seeds : List (α × β)) (colour : β) (node : α) : Prop :=
  ∃ seed, (seed, colour) ∈ seeds ∧ ReflTransGen (fun a b => b ∈ next a) seed node

variable {next}

/-! ### What is reached -/

/-- Everything in the queue and every mark is reached from a seed. -/
structure Genuine (next : α → List α) (seeds : List (α × β)) (marks : α → Option β)
    (pending : List (α × β)) : Prop where
  queued : ∀ node colour, (node, colour) ∈ pending → Reached next seeds colour node
  marked : ∀ node colour, marks node = some colour → Reached next seeds colour node

variable {seeds pending : List (α × β)} {colour : β} {node : α} {marks : α → Option β} {room : Nat}
  {every : List α}

omit [DecidableEq α] [DecidableEq β] in
lemma Reached.step {successor : α} (reached : Reached next seeds colour node)
    (edge : successor ∈ next node) : Reached next seeds colour successor := by
  obtain ⟨seed, mem, path⟩ := reached
  exact ⟨seed, mem, path.tail edge⟩

omit [DecidableEq β] in
/-- Marking a node keeps what is in the queue and marked reached. -/
lemma Genuine.mark (genuine : Genuine next seeds marks ((node, colour) :: pending)) :
    Genuine next seeds (Function.update marks node (some colour))
      (pending ++ (next node).map fun successor => (successor, colour)) := by
  have here : Reached next seeds colour node := genuine.queued node colour mem_cons_self
  constructor
  · intro other shade mem
    rcases mem_append.1 mem with old | new
    · exact genuine.queued other shade (mem_cons_of_mem _ old)
    · obtain ⟨_, edge, same⟩ := mem_map.1 new
      cases same
      exact here.step edge
  · intro other shade marked
    by_cases same : other = node
    · subst same
      rw [update_self] at marked
      cases marked
      exact here
    · rw [update_of_ne same] at marked
      exact genuine.marked other shade marked

/-! ### What is covered -/

/-- Seeds and successors of marked nodes are in the queue or marked with their colour. -/
structure Covered (next : α → List α) (seeds : List (α × β)) (marks : α → Option β)
    (pending : List (α × β)) : Prop where
  seeded : ∀ node colour, (node, colour) ∈ seeds →
    (node, colour) ∈ pending ∨ marks node = some colour
  closed : ∀ node colour, marks node = some colour → ∀ successor ∈ next node,
    (successor, colour) ∈ pending ∨ marks successor = some colour

omit [DecidableEq α] [DecidableEq β] in
/-- A node that carries its colour already can leave the queue. -/
lemma Covered.skip (covered : Covered next seeds marks ((node, colour) :: pending))
    (marked : marks node = some colour) : Covered next seeds marks pending := by
  have still : ∀ other shade, (other, shade) ∈ (node, colour) :: pending ∨
      marks other = some shade → (other, shade) ∈ pending ∨ marks other = some shade := by
    rintro other shade (mem | done)
    · rcases mem_cons.1 mem with same | later
      · cases same
        exact .inr marked
      · exact .inl later
    · exact .inr done
  constructor
  · intro other shade mem
    exact still other shade (covered.seeded other shade mem)
  · intro other shade done successor edge
    exact still successor shade (covered.closed other shade done successor edge)

omit [DecidableEq β] in
/-- A node that is marked puts its successors into the queue. -/
lemma Covered.mark (covered : Covered next seeds marks ((node, colour) :: pending))
    (unmarked : marks node = none) :
    Covered next seeds (Function.update marks node (some colour))
      (pending ++ (next node).map fun successor => (successor, colour)) := by
  have still : ∀ other shade, (other, shade) ∈ (node, colour) :: pending ∨
      marks other = some shade →
        (other, shade) ∈ pending ++ (next node).map (fun successor => (successor, colour)) ∨
          Function.update marks node (some colour) other = some shade := by
    rintro other shade (mem | done)
    · rcases mem_cons.1 mem with same | later
      · cases same
        exact .inr (update_self ..)
      · exact .inl (mem_append_left _ later)
    · have differs : other ≠ node := by
        rintro rfl
        rw [unmarked] at done
        cases done
      right
      rw [update_of_ne differs]
      exact done
  constructor
  · intro other shade mem
    exact still other shade (covered.seeded other shade mem)
  · intro other shade done successor edge
    by_cases same : other = node
    · subst same
      rw [update_self] at done
      cases done
      exact .inl (mem_append_right _ (mem_map.2 ⟨successor, edge, rfl⟩))
    · rw [update_of_ne same] at done
      exact still successor shade (covered.closed other shade done successor edge)

omit [DecidableEq α] [DecidableEq β] in
/-- With an empty queue, everything that is reached carries its colour. -/
lemma Covered.marked (covered : Covered next seeds marks [])
    (reached : Reached next seeds colour node) : marks node = some colour := by
  obtain ⟨seed, mem, path⟩ := reached
  induction path with
  | refl => exact (covered.seeded seed colour mem).resolve_left not_mem_nil
  | tail _ edge ih => exact (covered.closed _ colour ih _ edge).resolve_left not_mem_nil

/-! ### Room -/

variable (next) in
/-- The successors of the nodes that are not marked. -/
def unspent (every : List α) (marks : α → Option β) : Nat :=
  ((every.filter fun node => marks node = none).map fun node => (next node).length).sum

omit [DecidableEq β] in
/-- Marking a node spends its successors. -/
lemma unspent_mark (colour : β) (mem : node ∈ every) (unmarked : marks node = none) :
    unspent next every (Function.update marks node (some colour)) + (next node).length ≤
      unspent next every marks := by
  have subset : (every.filter fun other => Function.update marks node (some colour) other = none)
      = (every.filter fun other => marks other = none).filter fun other => other ≠ node := by
    rw [filter_filter]
    apply filter_congr
    intro other _
    by_cases same : other = node
    · subst same
      simp
    · simp [same]
  have inside : node ∈ every.filter fun other => marks other = none :=
    mem_filter.2 ⟨mem, by simpa using unmarked⟩
  unfold unspent
  rw [subset]
  generalize (every.filter fun other => marks other = none) = open_ at inside
  have others : ((open_.filter (· ≠ node)).map fun x => (next x).length).sum ≤
      ((open_.erase node).map fun x => (next x).length).sum := by
    have perm : (open_.filter (· ≠ node)).Perm ((open_.erase node).filter (· ≠ node)) := by
      simpa using (perm_cons_erase inside).filter (· ≠ node)
    rw [(perm.map _).sum_eq]
    exact (filter_sublist.map _).sum_le_sum fun _ _ => Nat.zero_le _
  rw [← sum_map_erase _ inside]
  omega

/-- A clash is at a node that is reached from seeds of two colours. With room for the queue and all
successors, a search without a clash ends with an empty queue: what it ends with covers the seeds. -/
lemma spread_spec (inside : ∀ node ∈ every, ∀ successor ∈ next node, successor ∈ every)
    (known : ∀ item ∈ pending, item.1 ∈ every)
    (enough : pending.length + unspent next every marks ≤ room)
    (genuine : Genuine next seeds marks pending) (covered : Covered next seeds marks pending) :
    match spread next room marks pending with
    | .error node => ∃ first second, first ≠ second ∧ Reached next seeds first node ∧
        Reached next seeds second node
    | .ok final => Covered next seeds final [] := by
  induction room generalizing marks pending with
  | zero =>
    cases pending with
    | nil => exact covered
    | cons => simp at enough
  | succ _ ih =>
    cases pending with
    | nil => exact covered
    | cons head pending =>
      obtain ⟨node, colour⟩ := head
      have mem : node ∈ every := known _ mem_cons_self
      have rest : ∀ item ∈ pending, item.1 ∈ every := fun item later =>
        known item (mem_cons_of_mem _ later)
      rw [length_cons] at enough
      rw [spread]
      cases marked : marks node with
      | some prior =>
        dsimp only
        by_cases same : prior = colour
        · rw [if_neg (not_not.2 same)]
          refine ih rest (by omega) ⟨fun node shade later => ?_, genuine.marked⟩
            (covered.skip (same ▸ marked))
          exact genuine.queued node shade (mem_cons_of_mem _ later)
        · rw [if_pos same]
          exact ⟨prior, colour, same, genuine.marked _ _ marked, genuine.queued _ _ mem_cons_self⟩
      | none =>
        have spent : unspent next every (Function.update marks node (some colour)) +
            (next node).length ≤ unspent next every marks := unspent_mark colour mem marked
        refine ih ?_ ?_ genuine.mark (covered.mark marked)
        · intro item member
          rcases mem_append.1 member with old | new
          · exact rest item old
          · obtain ⟨successor, edge, rfl⟩ := mem_map.1 new
            exact inside node mem successor edge
        · rw [length_append, length_map]
          omega

omit [DecidableEq α] [DecidableEq β] in
lemma genuine_seeds (seeds : List (α × β)) : Genuine next seeds (fun _ => none) seeds where
  queued node colour mem := ⟨node, mem, .refl⟩
  marked _ _ marked := by cases marked

omit [DecidableEq α] [DecidableEq β] in
lemma covered_seeds (seeds : List (α × β)) : Covered next seeds (fun _ => none) seeds where
  seeded _ _ mem := .inl mem
  closed _ _ marked := by cases marked

/-- With enough room, the search ends in a clash exactly if some node is reached from seeds of two
colours.

**Proof sketch.** At a clash, the mark of the node and the colour it comes up with are both reached
from seeds. Without a clash the queue runs empty, and then everything that is reached from a seed is
marked with the colour of the seed; no node has two marks. -/
theorem clash_iff (inside : ∀ node ∈ every, ∀ successor ∈ next node, successor ∈ every)
    (known : ∀ item ∈ seeds, item.1 ∈ every)
    (enough : seeds.length + (every.map fun node => (next node).length).sum ≤ room) :
    (∃ node, spread next room (fun _ => none) seeds = .error node) ↔
      ∃ node first second, first ≠ second ∧ Reached next seeds first node ∧
        Reached next seeds second node := by
  have spent : unspent next every (fun _ : α => (none : Option β)) =
      (every.map fun node => (next node).length).sum := by simp [unspent]
  have spec := spread_spec inside known (spent ▸ enough) (genuine_seeds seeds) (covered_seeds seeds)
  constructor
  · rintro ⟨node, clash⟩
    rw [clash] at spec
    exact ⟨node, spec⟩
  · rintro ⟨node, first, second, differ, one, two⟩
    cases ended : spread next room (fun _ => none) seeds with
    | error at_ => exact ⟨at_, rfl⟩
    | ok _ =>
      rw [ended] at spec
      exact absurd (Option.some.inj ((spec.marked one).symm.trans (spec.marked two))) differ

/-- With two colours, the search ends in a clash exactly if some node is reached with both. -/
theorem clash_iff_both (inside : ∀ node ∈ every, ∀ successor ∈ next node, successor ∈ every)
    {seeds : List (α × Bool)} (known : ∀ item ∈ seeds, item.1 ∈ every)
    (enough : seeds.length + (every.map fun node => (next node).length).sum ≤ room) :
    (∃ node, spread next room (fun _ => none) seeds = .error node) ↔
      ∃ node, Reached next seeds true node ∧ Reached next seeds false node := by
  rw [clash_iff inside known enough]
  constructor
  · rintro ⟨node, first, second, differ, one, two⟩
    cases first <;> cases second
    · exact absurd rfl differ
    · exact ⟨node, two, one⟩
    · exact ⟨node, one, two⟩
    · exact absurd rfl differ
  · rintro ⟨node, one, two⟩
    exact ⟨node, true, false, by decide, one, two⟩

end Colouring

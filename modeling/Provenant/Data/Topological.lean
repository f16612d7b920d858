import Mathlib.Data.Fintype.EquivFin
import Mathlib.Data.List.Perm.Subperm
import Mathlib.Data.List.Range
import Mathlib.Logic.Relation
import Mathlib.Order.WellFounded

/-!
# Sorting by dependencies

The nodes `0, …, n - 1` have parents among themselves. The sort counts the parents of each node that
were not taken yet. Nodes without any wait in a queue. When a node is taken from the queue, the
counts of its children drop by one, and a child whose count reaches zero enters the queue.

## Main definitions

* `Topological.children` — the table of children, filled from the parents.
* `Topological.finish` — the state of the sort when its queue is empty.
* `Topological.Sorted` — every node of a list comes after its parents.

## Main results

* `Topological.ready_finish` — with room for all nodes the queue runs empty.
* `Topological.sorted_finish` — what was taken is sorted.
* `Topological.complete_iff` — all nodes are taken exactly if there is no cycle.

## Implementation notes

Tables are functions on numbers. The count of a node is never zero when it drops: this is part of
the invariant, so that the subtraction is exact.
-/

namespace Topological

open Relation List

/-! ### The sort -/

/-- One more child of a node. -/
def link (child : Nat) (table : Nat → List Nat) (parent : Nat) : Nat → List Nat :=
  Function.update table parent (table parent ++ [child])

/-- The children of all nodes, from the parents of the nodes `0, …, n - 1`. -/
def children (parents : Nat → List Nat) (n : Nat) : Nat → List Nat :=
  (List.range n).foldl (fun table child => (parents child).foldl (link child) table) fun _ => []

/-- The counts of parents that were not taken, the queue, and the nodes that were taken. -/
structure State where
  indegree : Nat → Nat
  ready : List Nat
  order : List Nat

/-- A parent of a node was taken. -/
def visit (s : State) (child : Nat) : State :=
  { s with
    indegree := Function.update s.indegree child (s.indegree child - 1)
    ready := if s.indegree child - 1 = 0 then s.ready ++ [child] else s.ready }

/-- A node is taken. -/
def take (table : Nat → List Nat) (s : State) (index : Nat) (rest : List Nat) : State :=
  (table index).foldl visit { s with ready := rest, order := s.order ++ [index] }

/-- Take nodes from the queue, at most `room` of them. -/
def run (table : Nat → List Nat) : Nat → State → State
  | 0, s => s
  | room + 1, s =>
    match s.ready with
    | [] => s
    | index :: rest => run table room (take table s index rest)

/-- Nothing was taken yet. -/
def start (parents : Nat → List Nat) (n : Nat) : State where
  indegree index := (parents index).length
  ready := (List.range n).filter fun index => (parents index).length = 0
  order := []

/-- The sort of the nodes `0, …, n - 1`, with room for all of them. -/
def finish (parents : Nat → List Nat) (n : Nat) : State :=
  run (children parents n) n (start parents n)

/-! ### Children -/

lemma foldl_link (child : Nat) (table : Nat → List Nat) {ps : List Nat} (nodup : ps.Nodup)
    (parent : Nat) :
    ps.foldl (link child) table parent = table parent ++ if parent ∈ ps then [child] else [] := by
  induction ps generalizing table with
  | nil => simp
  | cons p _ ih =>
    obtain ⟨fresh, nodup⟩ := nodup_cons.1 nodup
    rw [foldl_cons, ih _ nodup]
    by_cases same : parent = p
    · subst same
      simp [link, fresh]
    · simp [link, same]

section Invariants

variable {parents : Nat → List Nat} {n : Nat}

/-- The children of a node are the nodes it is a parent of. -/
lemma children_eq (nodup : ∀ child < n, (parents child).Nodup) (parent : Nat) :
    children parents n parent = (List.range n).filter fun child => parent ∈ parents child := by
  unfold children
  induction n with
  | zero => rfl
  | succ n ih =>
    rw [range_succ, foldl_append, foldl_cons, foldl_nil,
      foldl_link _ _ (nodup n (Nat.lt_succ_self n)), filter_append,
      ih fun child less => nodup child (Nat.lt_succ_of_lt less)]
    by_cases mem : parent ∈ parents n <;> simp [mem]

/-! ### One node taken -/

lemma foldl_visit_order (s : State) (cs : List Nat) : (cs.foldl visit s).order = s.order := by
  induction cs generalizing s with
  | nil => rfl
  | cons c _ ih => exact ih (visit s c)

/-- The count of each child drops by one, and the children whose count reaches zero enter the
queue. -/
lemma foldl_visit (s : State) {cs : List Nat} (nodup : cs.Nodup) :
    cs.foldl visit s =
      { s with
        indegree := fun c => if c ∈ cs then s.indegree c - 1 else s.indegree c
        ready := s.ready ++ cs.filter fun c => s.indegree c - 1 = 0 } := by
  induction cs generalizing s with
  | nil => simp
  | cons d rest ih =>
    obtain ⟨fresh, nodup⟩ := nodup_cons.1 nodup
    rw [foldl_cons, ih _ nodup]
    congr 1
    · funext c
      by_cases same : c = d
      · subst same
        simp [visit, fresh]
      · simp [visit, same]
    · have others : (rest.filter fun c => (visit s d).indegree c - 1 = 0) =
          rest.filter fun c => s.indegree c - 1 = 0 := by
        apply filter_congr
        intro c mem
        have differs : c ≠ d := fun same => fresh (same ▸ mem)
        simp [visit, differs]
      rw [others]
      by_cases zero : s.indegree d - 1 = 0 <;> simp [visit, zero]

/-! ### The invariant -/

/-- Every node of a list comes after its parents. -/
def Sorted (parents : Nat → List Nat) (order : List Nat) : Prop :=
  ∀ before index later, order = before ++ index :: later → ∀ p ∈ parents index, p ∈ before

/-- The parents of the nodes are nodes, each named once. -/
structure WellFormed (parents : Nat → List Nat) (n : Nat) : Prop where
  nodup : ∀ child < n, (parents child).Nodup
  bounded : ∀ child < n, ∀ p ∈ parents child, p < n

/-- What holds whenever a node is taken from the queue. -/
structure Invariant (parents : Nat → List Nat) (n : Nat) (s : State) : Prop where
  nodup : (s.order ++ s.ready).Nodup
  bounded : ∀ index ∈ s.order ++ s.ready, index < n
  /-- The count of a node is the number of its parents that were not taken. -/
  degree : ∀ c < n, s.indegree c = ((parents c).filter (· ∉ s.order)).length
  /-- A node was taken or waits in the queue exactly if its count is zero. -/
  listed : ∀ c < n, c ∈ s.order ++ s.ready ↔ s.indegree c = 0
  sorted : Sorted parents s.order

lemma invariant_start (parents : Nat → List Nat) (n : Nat) :
    Invariant parents n (start parents n) where
  nodup := nodup_range.filter _
  bounded index mem := mem_range.1 (mem_filter.1 mem).1
  degree c _ := by simp [start]
  listed c less := by simp [start, less]
  sorted before index later split := by simp [start] at split

variable {s : State} {index : Nat} {order : List Nat}

/-- The parents of a node that waits in the queue were taken. -/
lemma Invariant.parents_taken (inv : Invariant parents n s) (waits : index ∈ s.ready) :
    ∀ p ∈ parents index, p ∈ s.order := by
  have mem : index ∈ s.order ++ s.ready := mem_append_right _ waits
  have less := inv.bounded index mem
  have zero := (inv.listed index less).1 mem
  rw [inv.degree index less, length_eq_zero_iff, filter_eq_nil_iff] at zero
  intro p hp
  simpa using zero p hp

lemma Sorted.snoc (sorted : Sorted parents order) (taken : ∀ p ∈ parents index, p ∈ order) :
    Sorted parents (order ++ [index]) := by
  intro before x later split p hp
  rcases eq_nil_or_concat later with rfl | ⟨rest, last, rfl⟩
  · obtain ⟨rfl, same⟩ := append_inj' split rfl
    cases same
    exact taken p hp
  · have eq : order ++ [index] = (before ++ x :: rest) ++ [last] := by simp [split]
    obtain ⟨rfl, -⟩ := append_inj' eq rfl
    exact sorted before x rest rfl p hp

/-- Without one of its members, a list without repetition is shorter by one. -/
lemma length_filter_snoc {ps : List Nat} (nodup : ps.Nodup) (fresh : index ∉ order) :
    (ps.filter (· ∉ order ++ [index])).length =
      if index ∈ ps then (ps.filter (· ∉ order)).length - 1 else (ps.filter (· ∉ order)).length := by
  have split : ps.filter (· ∉ order ++ [index]) = (ps.filter (· ∉ order)).filter (· ≠ index) := by
    rw [filter_filter]
    apply filter_congr
    intro p _
    simp [and_comm]
  rw [split]
  split_ifs with mem
  · have kept : index ∈ ps.filter (· ∉ order) := mem_filter.2 ⟨mem, by simpa using fresh⟩
    rw [← length_erase_of_mem kept, (nodup.filter _).erase_eq_filter]
    congr 1
    apply filter_congr
    intro p _
    by_cases same : p = index <;> simp [same]
  · rw [filter_eq_self.2]
    intro p hp
    have differs : p ≠ index := fun same => mem (same ▸ (mem_filter.1 hp).1)
    simpa using differs

/-- The children of a node in the queue still count it. -/
lemma Invariant.indegree_pos (inv : Invariant parents n s) {c : Nat} (waits : index ∈ s.ready)
    (less : c < n) (child : index ∈ parents c) : 0 < s.indegree c := by
  have fresh : index ∉ s.order := fun taken =>
    (nodup_append.1 inv.nodup).2.2 index taken index waits rfl
  rw [inv.degree c less]
  exact length_pos_of_mem (mem_filter.2 ⟨child, by simpa using fresh⟩)

/-- Taking a node from the queue keeps the invariant.

**Proof sketch.** Exactly the children of the node lose one parent that was not taken, which is what
the counts record. A child had a positive count, so it was neither taken nor in the queue; it enters
the queue if its count is now zero. The parents of the node itself were all taken before. -/
lemma Invariant.take (inv : Invariant parents n s) (form : WellFormed parents n) {rest : List Nat}
    (queue : s.ready = index :: rest) :
    Invariant parents n (take (children parents n) s index rest) := by
  have waits : index ∈ s.ready := queue ▸ mem_cons_self
  have cs := children_eq form.nodup index
  have distinct : (children parents n index).Nodup := by
    rw [cs]
    exact nodup_range.filter _
  have mem_cs : ∀ c, c ∈ children parents n index ↔ c < n ∧ index ∈ parents c := by
    intro c
    simp [cs]
  rw [Topological.take, foldl_visit _ distinct]
  have fresh : index ∉ s.order := fun taken =>
    (nodup_append.1 inv.nodup).2.2 index taken index waits rfl
  -- A child is neither taken nor in the queue before.
  have unlisted : ∀ c ∈ children parents n index, c ∉ s.order ++ s.ready := by
    intro c mem listed
    obtain ⟨less, child⟩ := (mem_cs c).1 mem
    have positive := inv.indegree_pos waits less child
    have zero := (inv.listed c less).1 listed
    omega
  have flat : s.order ++ [index] ++
      (rest ++ (children parents n index).filter fun c => s.indegree c - 1 = 0) =
      (s.order ++ s.ready) ++ (children parents n index).filter fun c => s.indegree c - 1 = 0 := by
    simp [queue]
  refine ⟨?_, ?_, ?_, ?_, inv.sorted.snoc (inv.parents_taken waits)⟩ <;> dsimp only
  · rw [flat]
    refine nodup_append.2 ⟨inv.nodup, distinct.filter _, ?_⟩
    rintro c listed _ new rfl
    exact unlisted c (mem_filter.1 new).1 listed
  · intro c mem
    rw [flat] at mem
    rcases mem_append.1 mem with listed | new
    · exact inv.bounded c listed
    · exact ((mem_cs c).1 (mem_filter.1 new).1).1
  · intro c less
    rw [length_filter_snoc (form.nodup c less) fresh, ← inv.degree c less]
    simp [mem_cs, less]
  · intro c less
    rw [flat, mem_append, inv.listed c less]
    by_cases child : c ∈ children parents n index
    · have positive := inv.indegree_pos waits less ((mem_cs c).1 child).2
      simp only [mem_filter, child, true_and, decide_eq_true_eq, if_true]
      omega
    · simp [child]

/-! ### Whole runs -/

/-- A run of any length keeps the invariant. -/
lemma Invariant.run (inv : Invariant parents n s) (form : WellFormed parents n) (room : Nat) :
    Invariant parents n (run (children parents n) room s) := by
  induction room generalizing s with
  | zero => exact inv
  | succ _ ih =>
    unfold Topological.run
    split
    · exact inv
    next index rest queue => exact ih (inv.take form queue)

/-- A run ends with an empty queue, or takes as many nodes as it has room for. -/
lemma run_length (table : Nat → List Nat) (room : Nat) (s : State) :
    (run table room s).ready = [] ∨ (run table room s).order.length = s.order.length + room := by
  induction room generalizing s with
  | zero => exact .inr rfl
  | succ _ ih =>
    unfold run
    split
    next empty => exact .inl empty
    next index rest queue =>
      rcases ih (take table s index rest) with empty | full
      · exact .inl empty
      · right
        rw [full]
        have order : (take table s index rest).order = s.order ++ [index] := foldl_visit_order _ _
        rw [order, length_append, length_singleton]
        omega

lemma invariant_finish (form : WellFormed parents n) : Invariant parents n (finish parents n) :=
  (invariant_start parents n).run form n

/-- No more than all nodes were taken or wait. -/
lemma Invariant.length_le (inv : Invariant parents n s) : s.order.length + s.ready.length ≤ n := by
  have subset : s.order ++ s.ready ⊆ List.range n := fun index mem =>
    mem_range.2 (inv.bounded index mem)
  have bound := (inv.nodup.subperm subset).length_le
  rw [length_append, length_range] at bound
  exact bound

/-- With room for all nodes the queue runs empty. -/
theorem ready_finish (form : WellFormed parents n) : (finish parents n).ready = [] := by
  rcases run_length (children parents n) n (start parents n) with empty | full
  · exact empty
  · have bound := (invariant_finish form).length_le
    have taken : (finish parents n).order.length = 0 + n := full
    apply length_eq_zero_iff.1
    omega

/-- What was taken is sorted. -/
theorem sorted_finish (form : WellFormed parents n) : Sorted parents (finish parents n).order :=
  (invariant_finish form).sorted

/-- If as many nodes were taken as there are, it was all of them, each once. -/
lemma perm_of_complete (form : WellFormed parents n)
    (complete : (finish parents n).order.length = n) :
    (finish parents n).order.Perm (List.range n) := by
  have inv := invariant_finish form
  have nodup : (finish parents n).order.Nodup := (nodup_append.1 inv.nodup).1
  have subset : (finish parents n).order ⊆ List.range n := fun index mem =>
    mem_range.2 (inv.bounded index (mem_append_left _ mem))
  apply (nodup.subperm subset).perm_of_length_le
  rw [length_range, complete]

/-! ### Cycles -/

/-- A node is a parent of another one. -/
def Edge (parents : Nat → List Nat) (n : Nat) (parent child : Nat) : Prop :=
  child < n ∧ parent ∈ parents child

/-- No node comes before itself. -/
def Acyclic (parents : Nat → List Nat) (n : Nat) : Prop := ∀ index, ¬TransGen (Edge parents n) index index

/-- In a sorted list, parents have smaller positions. -/
lemma Sorted.idxOf_lt (sorted : Sorted parents order) {p : Nat} (mem : index ∈ order)
    (parent : p ∈ parents index) : order.idxOf p < order.idxOf index := by
  obtain ⟨before, later, split, absent⟩ := eq_append_cons_of_mem mem
  have early : p ∈ before := sorted before index later split p parent
  rw [split, idxOf_append_of_mem early, idxOf_append_of_notMem absent, idxOf_cons_self]
  exact Nat.lt_add_right 0 (idxOf_lt_length_of_mem early)

/-- If all nodes were taken, there is no cycle. -/
lemma acyclic_of_complete (form : WellFormed parents n)
    (complete : (finish parents n).order.length = n) : Acyclic parents n := by
  intro index cycle
  have rises : TransGen (· < ·) ((finish parents n).order.idxOf index)
      ((finish parents n).order.idxOf index) := by
    refine TransGen.lift (finish parents n).order.idxOf (fun a b edge => ?_) _ _ cycle
    have mem := (perm_of_complete form complete).mem_iff.2 (mem_range.2 edge.1)
    exact (sorted_finish form).idxOf_lt mem edge.2
  rw [transGen_eq_self] at rises
  exact lt_irrefl _ rises

/-- A node that was not taken has a parent that was not taken. -/
lemma exists_parent_of_not_taken (form : WellFormed parents n) (less : index < n)
    (missing : index ∉ (finish parents n).order) :
    ∃ p ∈ parents index, p < n ∧ p ∉ (finish parents n).order := by
  have inv := invariant_finish form
  have unlisted : index ∉ (finish parents n).order ++ (finish parents n).ready := by
    rw [ready_finish form, append_nil]
    exact missing
  have positive : (finish parents n).indegree index ≠ 0 := fun zero =>
    unlisted ((inv.listed index less).2 zero)
  rw [inv.degree index less, ← Nat.pos_iff_ne_zero] at positive
  obtain ⟨p, mem⟩ := exists_mem_of_length_pos positive
  obtain ⟨parent, untaken⟩ := mem_filter.1 mem
  exact ⟨p, parent, form.bounded index less p parent, by simpa using untaken⟩

/-- Without a cycle, all nodes are taken.

**Proof sketch.** On finitely many nodes, coming before one another is well founded if there is no
cycle. A first node among those that were not taken would have a parent that was not taken either. -/
lemma complete_of_acyclic (form : WellFormed parents n) (acyclic : Acyclic parents n) :
    (finish parents n).order.length = n := by
  let before : Fin n → Fin n → Prop := fun a b => TransGen (Edge parents n) a b
  have : IsTrans (Fin n) before := ⟨fun _ _ _ => TransGen.trans⟩
  have : Std.Irrefl before := ⟨fun a => acyclic a⟩
  have founded : WellFounded before := Finite.wellFounded_of_trans_of_irrefl before
  have all : ∀ index : Fin n, index.1 ∈ (finish parents n).order := by
    intro index
    induction index using founded.induction with
    | _ index ih =>
      by_contra missing
      obtain ⟨p, parent, less, untaken⟩ := exists_parent_of_not_taken form index.2 missing
      exact untaken (ih ⟨p, less⟩ (.single ⟨index.2, parent⟩))
  have subset : List.range n ⊆ (finish parents n).order := fun index mem =>
    all ⟨index, mem_range.1 mem⟩
  have least := (nodup_range.subperm subset).length_le
  have most := (invariant_finish form).length_le
  rw [length_range] at least
  omega

/-- All nodes are taken exactly if there is no cycle. -/
theorem complete_iff (form : WellFormed parents n) :
    (finish parents n).order.length = n ↔ Acyclic parents n :=
  ⟨acyclic_of_complete form, complete_of_acyclic form⟩

end Invariants

end Topological

import Provenant.Data.Search
import Provenant.Graph.Model

/-!
# The outcome of a graph

`GraphCheckpoint::outcome` sums up a settled graph. A composite that declares how many of its
members have to succeed answers for the members that did not, and for what is inside them; a graph
whose only failures are answered for is a partial success.

## Main definitions

* `Graph.GraphCheckpoint.outcome` — the outcome of a graph.
* `Graph.GraphCheckpoint.Answered` — a node lies inside a composite that answers for its members.

## Main results

* `Graph.GraphCheckpoint.mem_cover` — the search for members finds what lies inside its seeds.
* `Graph.GraphCheckpoint.outcome_law` — which graphs succeed, and which succeed in part.
* `Graph.GraphCheckpoint.paused_outcome` — a graph without a failure, but with a paused expansion,
  is reported as a partial success.

## Implementation notes

The source pops the names to visit from the end of a vector. Here the end of the vector is the head
of the list.
-/

namespace Provenant.Graph

open Json Relation List

/-- `GraphOutcome`. -/
inductive GraphOutcome
  | succeeded
  /-- `Partial`: what failed is answered for by a composite. -/
  | partially
  | failed
  deriving DecidableEq

namespace GraphCheckpoint

/-! ### The model -/

/-- A name with a row that is not covered yet is one less to cover. -/
lemma uncovered_lt {checkpoint : GraphCheckpoint} {covered : List Text} {id : Text}
    {row : NodeProgress} (fresh : id ∉ covered) (found : checkpoint.row? id = some row) :
    (checkpoint.nodes.filter fun row => row.id ∉ id :: covered).length <
      (checkpoint.nodes.filter fun row => row.id ∉ covered).length := by
  have smaller : (checkpoint.nodes.filter fun row => row.id ∉ id :: covered) =
      (checkpoint.nodes.filter fun row => row.id ∉ covered).filter fun row => row.id ≠ id := by
    rw [filter_filter]
    exact filter_congr fun row _ => by simp
  rw [smaller, length_filter_lt_length_iff_exists]
  refine ⟨row, mem_filter.2 ⟨mem_of_row? found, ?_⟩, ?_⟩
  · simpa [id_of_row? found] using fresh
  · simp [id_of_row? found]

/-- The loop of `outcome` that covers the members of composites, and their members. -/
def cover (checkpoint : GraphCheckpoint) (pending covered : List Text) : List Text :=
  match pending with
  | [] => covered
  | id :: rest =>
    if _old : id ∈ covered then checkpoint.cover rest covered
    else
      match _found : checkpoint.row? id with
      | none => checkpoint.cover rest (id :: covered)
      | some row => checkpoint.cover (row.children.reverse ++ rest) (id :: covered)
termination_by ((checkpoint.nodes.filter fun row => row.id ∉ covered).length, pending.length)
decreasing_by
  · exact Prod.Lex.right _ (Nat.lt_succ_self _)
  · have fewer : (checkpoint.nodes.filter fun row => row.id ∉ id :: covered).length ≤
        (checkpoint.nodes.filter fun row => row.id ∉ covered).length :=
      (monotone_filter_right _ fun row => by simp_all).length_le
    rcases Nat.lt_or_eq_of_le fewer with less | same
    · exact Prod.Lex.left _ _ less
    · rw [same]
      exact Prod.Lex.right _ (Nat.lt_succ_self _)
  · exact Prod.Lex.left _ _ (uncovered_lt ‹_› ‹_›)

/-- The members of the composites that succeeded with a minimum, last one first. -/
def answeredMembers (checkpoint : GraphCheckpoint) : List Text :=
  ((checkpoint.nodes.filter fun row =>
    row.minSuccessful.isSome && row.state == .succeeded).flatMap (·.children)).reverse

/-- `outcome`. -/
def outcome (checkpoint : GraphCheckpoint) : GraphOutcome :=
  if checkpoint.successful then .succeeded
  else if checkpoint.nodes.any fun row =>
    row.minSuccessful.isSome && !checkpoint.nodeSuccessful row then .failed
  else if checkpoint.nodes.any fun row => !checkpoint.nodeSuccessful row &&
    !(checkpoint.cover checkpoint.answeredMembers []).contains row.id then .failed
  else .partially

/-! ### What lies inside a composite -/

/-- The row of the outer name lists the inner one as a child. -/
def HasChild (checkpoint : GraphCheckpoint) (outer inner : Text) : Prop :=
  ∃ row, checkpoint.row? outer = some row ∧ inner ∈ row.children

/-- The row lies, at any depth, inside a composite that succeeded and declares a minimum. -/
def Answered (checkpoint : GraphCheckpoint) (row : NodeProgress) : Prop :=
  ∃ composite ∈ checkpoint.nodes, composite.minSuccessful.isSome = true ∧
    composite.state = .succeeded ∧
      ∃ child ∈ composite.children, ReflTransGen checkpoint.HasChild child row.id

variable {checkpoint : GraphCheckpoint}

/-- The names that are known to the loop are those that are pending or covered, and those that wait
are not covered yet. -/
def CoverFrontier (checkpoint : GraphCheckpoint) (seeds pending covered : List Text) : Prop :=
  Search.Frontier checkpoint.HasChild (· ∈ seeds) (fun id => id ∈ pending ∨ id ∈ covered)
    fun id => id ∈ pending ∧ id ∉ covered

/-- The loop ends with nothing pending. -/
lemma CoverFrontier.cover {seeds pending covered : List Text}
    (h : CoverFrontier checkpoint seeds pending covered) :
    CoverFrontier checkpoint seeds [] (checkpoint.cover pending covered) := by
  induction pending, covered using cover.induct checkpoint with
  | case1 =>
    rw [GraphCheckpoint.cover]
    exact h
  | case2 _ _ _ old ih =>
    rw [GraphCheckpoint.cover, dif_pos old]
    refine ih (h.step (fun x => ?_) (fun x => ?_) fun x => ?_) <;> simp only [mem_cons]
    all_goals grind
  | case3 _ first _ fresh none ih =>
    rw [GraphCheckpoint.cover, dif_neg fresh]
    split
    · have childless : ∀ inner, ¬ checkpoint.HasChild first inner := by simp [HasChild, none]
      refine ih (h.step (fun x => ?_) (fun x => ?_) fun x => ?_) <;> simp only [mem_cons]
      all_goals grind
    · simp_all
  | case4 _ first _ fresh row found ih =>
    rw [GraphCheckpoint.cover, dif_neg fresh]
    split
    · simp_all
    next other same =>
      cases same.symm.trans found
      have children : ∀ inner, checkpoint.HasChild first inner ↔ inner ∈ row.children := by
        simp [HasChild, found]
      refine ih (h.step (fun x => ?_) (fun x => ?_) fun x => ?_) <;>
        simp only [mem_cons, mem_append, mem_reverse, ← children]
      all_goals grind

/-- The loop covers exactly what lies inside its seeds, the seeds included. -/
lemma mem_cover {seeds : List Text} {id : Text} :
    id ∈ checkpoint.cover seeds [] ↔ ∃ seed ∈ seeds, ReflTransGen checkpoint.HasChild seed id := by
  have start : CoverFrontier checkpoint seeds seeds [] :=
    ⟨fun x known => ⟨x, by simpa using known, .refl⟩, fun x => .inl, fun x known => .inl (by simpa using known)⟩
  simpa using start.cover.known_iff (by simp)

lemma mem_cover_answered {row : NodeProgress} :
    row.id ∈ checkpoint.cover checkpoint.answeredMembers [] ↔ checkpoint.Answered row := by
  simp only [mem_cover, answeredMembers, Answered, mem_reverse, mem_flatMap,
    mem_filter, Bool.and_eq_true, beq_iff_eq]
  constructor
  · rintro ⟨child, ⟨composite, ⟨mem, minimum, state⟩, member⟩, path⟩
    exact ⟨composite, mem, minimum, state, child, member, path⟩
  · rintro ⟨composite, mem, minimum, state, child, member, path⟩
    exact ⟨child, ⟨composite, ⟨mem, minimum, state⟩, member⟩, path⟩

/-! ### The law -/

variable (checkpoint) in
/-- When a graph succeeds, and when it succeeds in part. -/
structure OutcomeLaw : Prop where
  /-- It succeeds if every node does, and no expansion is paused. -/
  succeeds : checkpoint.outcome = .succeeded ↔
    (∀ row ∈ checkpoint.nodes, row.notes.expansionPause = none) ∧
      ∀ row ∈ checkpoint.nodes, checkpoint.nodeSuccessful row = true
  /-- It succeeds in part if it does not succeed, every node that does not lies inside a composite
  that answers for it, and no composite with a minimum is such a node. -/
  partially : checkpoint.outcome = .partially ↔
    ((∃ row ∈ checkpoint.nodes, row.notes.expansionPause ≠ none) ∨
      ∃ row ∈ checkpoint.nodes, checkpoint.nodeSuccessful row = false) ∧
    (∀ row ∈ checkpoint.nodes, checkpoint.nodeSuccessful row = false → checkpoint.Answered row) ∧
    ∀ composite ∈ checkpoint.nodes, composite.minSuccessful.isSome = true →
      checkpoint.nodeSuccessful composite = true

lemma successful_iff : checkpoint.successful = true ↔
    (∀ row ∈ checkpoint.nodes, row.notes.expansionPause = none) ∧
      ∀ row ∈ checkpoint.nodes, checkpoint.nodeSuccessful row = true := by
  simp [successful]

/-- The outcome of every graph follows the law. -/
theorem outcome_law (checkpoint : GraphCheckpoint) : checkpoint.OutcomeLaw := by
  by_cases successful : checkpoint.successful = true
  · have outcome : checkpoint.outcome = .succeeded := by rw [GraphCheckpoint.outcome, if_pos successful]
    obtain ⟨unpaused, all⟩ := successful_iff.1 successful
    refine ⟨iff_of_true outcome ⟨unpaused, all⟩, iff_of_false (by simp [outcome]) ?_⟩
    rintro ⟨⟨row, mem, paused⟩ | ⟨row, mem, unsuccessful⟩, -⟩
    · exact paused (unpaused row mem)
    · simp [all row mem] at unsuccessful
  · have some : (∃ row ∈ checkpoint.nodes, row.notes.expansionPause ≠ none) ∨
        ∃ row ∈ checkpoint.nodes, checkpoint.nodeSuccessful row = false := by
      have not_all := mt successful_iff.2 successful
      by_contra none
      push Not at none
      exact not_all ⟨none.1, fun row mem => by simpa using none.2 row mem⟩
    have uncovered : ∀ row : NodeProgress,
        (!checkpoint.nodeSuccessful row &&
          !(checkpoint.cover checkpoint.answeredMembers []).contains row.id) = true ↔
          checkpoint.nodeSuccessful row = false ∧ ¬ checkpoint.Answered row := fun row => by
      rw [← mem_cover_answered]
      simp
    refine ⟨iff_of_false ?_ fun law => successful (successful_iff.2 law), ?_⟩
    · rw [outcome, if_neg successful]
      split
      · simp
      · split <;> simp
    · rw [outcome, if_neg successful]
      split
      next minimum =>
        obtain ⟨composite, mem, declared⟩ := any_eq_true.1 minimum
        refine iff_of_false (by simp) fun law => ?_
        obtain ⟨declares, unsuccessful⟩ := Bool.and_eq_true_iff.1 declared
        simp [law.2.2 composite mem declares] at unsuccessful
      next minimum =>
        have composites : ∀ composite ∈ checkpoint.nodes, composite.minSuccessful.isSome = true →
            checkpoint.nodeSuccessful composite = true := by
          simpa using minimum
        split
        next open_ =>
          obtain ⟨row, mem, alone⟩ := any_eq_true.1 open_
          obtain ⟨unsuccessful, unanswered⟩ := (uncovered row).1 alone
          exact iff_of_false (by simp) fun law => unanswered (law.2.1 row mem unsuccessful)
        next closed =>
          refine iff_of_true rfl ⟨some, fun row mem unsuccessful => ?_, composites⟩
          by_contra unanswered
          exact closed (any_eq_true.2 ⟨row, mem, (uncovered row).2 ⟨unsuccessful, unanswered⟩⟩)

/-- A node that succeeded and waits for its expansion. -/
def pausedCheckpoint : GraphCheckpoint :=
  { nodes := [{ id := text "plan", state := .succeeded
                notes := { expansionPause := some (text "limit") } }] }

/-- A settled graph in which every node succeeded is a partial success while an expansion is
paused. -/
theorem paused_outcome :
    (∀ row ∈ pausedCheckpoint.nodes, row.state.settled = true) ∧
    (∀ row ∈ pausedCheckpoint.nodes, pausedCheckpoint.nodeSuccessful row = true) ∧
    pausedCheckpoint.outcome = .partially :=
  ⟨by decide, by decide, by decide⟩

end GraphCheckpoint

end Provenant.Graph

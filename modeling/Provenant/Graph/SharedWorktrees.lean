import Mathlib.Data.List.Sort
import Mathlib.Logic.Relation
import Provenant.Data.Fallible
import Provenant.Graph.Fragment

/-!
# Worktrees shared by overlapping writers

The writers of a fragment whose write scopes overlap work in one worktree, also where the overlap
goes through others. When the fragment joins the graph, a worktree that an existing writer works in
replaces the one of the fragment. A writer does not start while a writer in conflict with it runs.

## Main definitions

* `overlaps`, `writersConflict`, `writerBusy` — the tests on scopes, writers and rows.
* `components`, `shareWorktrees` — writers that overlap get the worktree of the first of them.
* `coordinate`, `flattenWriters` — the worktrees of a fragment that joins the graph.

## Main results

* `components_eq` — related places get the same component.
* `coordinate_eq_ok` — joining the graph replaces worktrees, equal ones by equal ones.
* `shared_worktrees` — what holds of the writers of an accepted fragment.
* `busy_exempt` — a writer named under a waiting writer starts beside it.

## Implementation notes

The vector of components is a function of the place. The source replaces worktrees in place; as
the first writer of a component keeps its own, reading the unchanged nodes gives the same. The check
of disjoint waves and the namespaced length only refuse: they are a parameter.
-/

namespace Provenant.Graph

open List

open Json (Text text)

/-! ### Scopes -/

/-- `overlaps`. -/
def overlaps (left right : List Text) : Bool :=
  left.isEmpty || right.isEmpty || (left ++ right).any (!validScope ·) ||
    left.any fun a => right.any fun b =>
      a == text "." || b == text "." || a == b ||
        (b ++ text "/").isPrefixOf a || (a ++ text "/").isPrefixOf b

/-- A path lies under one of the scopes; no scope at all is the whole tree. -/
def Covers (scopes : List Text) (path : Text) : Prop :=
  scopes = [] ∨ ∃ scope ∈ scopes, scope = text "." ∨ scope = path ∨ scope ++ text "/" <+: path

lemma overlaps_symm (left right : List Text) : overlaps left right = overlaps right left := by
  rw [Bool.eq_iff_iff]
  simp only [overlaps, Bool.or_eq_true, any_append, any_eq_true]
  constructor <;>
  · rintro (((empty | empty) | (invalid | invalid)) | ⟨a, ha, b, hb, meet⟩)
    · exact .inl (.inl (.inr empty))
    · exact .inl (.inl (.inl empty))
    · exact .inl (.inr (.inr invalid))
    · exact .inl (.inr (.inl invalid))
    · refine .inr ⟨b, hb, a, ha, ?_⟩
      simp only [beq_iff_eq, eq_comm (a := b)] at meet ⊢
      tauto

/-- Two beginnings of a path that end at a slash or at its end are comparable. -/
lemma scopes_comparable {a b path : Text} (under_a : a = path ∨ a ++ text "/" <+: path)
    (under_b : b = path ∨ b ++ text "/" <+: path) :
    a = b ∨ b ++ text "/" <+: a ∨ a ++ text "/" <+: b := by
  rcases under_a with rfl | under_a <;> rcases under_b with rfl | under_b
  · exact .inl rfl
  · exact .inr (.inl under_b)
  · exact .inr (.inr under_a)
  · rcases prefix_or_prefix_of_prefix under_a under_b with below | below <;>
      rcases prefix_concat_iff.1 below with same | shorter
    · exact .inl (append_cancel_right same)
    · exact .inr (.inr shorter)
    · exact .inl (append_cancel_right same).symm
    · exact .inr (.inl shorter)

/-- Scopes with a path in common overlap. -/
lemma overlaps_of_covers {left right : List Text} {path : Text} (l : Covers left path)
    (r : Covers right path) : overlaps left right = true := by
  simp only [overlaps, Bool.or_eq_true, any_eq_true, beq_iff_eq, isPrefixOf_iff_prefix]
  rcases l with rfl | ⟨a, ha, rfl | under_a⟩
  · exact .inl (.inl (.inl rfl))
  · rcases r with rfl | ⟨b, hb, -⟩
    · exact .inl (.inl (.inr rfl))
    · exact .inr ⟨_, ha, b, hb, by tauto⟩
  · rcases r with rfl | ⟨b, hb, rfl | under_b⟩
    · exact .inl (.inl (.inr rfl))
    · exact .inr ⟨a, ha, _, hb, by tauto⟩
    · exact .inr ⟨a, ha, b, hb, by have := scopes_comparable under_a under_b; tauto⟩

/-- `writers_conflict`. -/
def writersConflict (left right : GraphNode) : Bool :=
  left.access == .worktreeWrite && right.access == .worktreeWrite &&
    (left.worktree == right.worktree || overlaps left.writeScope right.writeScope)

/-- The fence of `admit_attempt`: a writer in conflict with the node runs, and does not wait for
its children with the node named among them. -/
def writerBusy (plan : List GraphNode) (rows : List NodeProgress) (node : GraphNode) : Bool :=
  node.access == .worktreeWrite && rows.any fun other =>
    other.id != node.id && other.state == .running &&
      !(other.notes.yieldedSlot && inside other.id node.id) &&
        plan.any fun peer => peer.id == other.id && writersConflict node peer

/-! ### Components -/

/-- The larger of two components becomes the smaller. -/
def merge (component : Nat → Nat) (i j : Nat) : Nat → Nat := fun k =>
  if component k = max (component i) (component j) then min (component i) (component j)
  else component k

/-- The places below a bound, each with the places before it. -/
def pairs (bound : Nat) : List (Nat × Nat) :=
  (List.range bound).flatMap fun i => (List.range i).map fun j => (i, j)

/-- The components of the related places. -/
def components (related : Nat → Nat → Bool) (bound : Nat) : Nat → Nat :=
  (pairs bound).foldl (fun component pair =>
    if related pair.1 pair.2 then merge component pair.1 pair.2 else component) id

lemma merge_joins (component : Nat → Nat) (i j : Nat) :
    merge component i j i = merge component i j j := by
  simp only [merge]
  split <;> split <;> omega

lemma merge_keeps {component : Nat → Nat} {k l : Nat} (same : component k = component l)
    (i j : Nat) : merge component i j k = merge component i j l := by
  simp only [merge, same]

/-- The places of a list of pairs that are related get the same component, and keep it. -/
lemma foldl_joins (related : Nat → Nat → Bool) {i j : Nat} (meet : related i j = true) :
    ∀ (todo : List (Nat × Nat)) (component : Nat → Nat),
      (i, j) ∈ todo ∨ component i = component j →
      (todo.foldl (fun component pair =>
        if related pair.1 pair.2 then merge component pair.1 pair.2 else component) component) i =
      (todo.foldl (fun component pair =>
        if related pair.1 pair.2 then merge component pair.1 pair.2 else component) component) j
  | [], _, joined => by simpa using joined
  | pair :: todo, component, joined => by
    refine foldl_joins related meet todo _ ?_
    rcases joined with member | same
    · rcases mem_cons.1 member with rfl | later
      · exact .inr (by simpa only [meet, if_true] using merge_joins component i j)
      · exact .inl later
    · refine .inr ?_
      dsimp only
      split
      · exact merge_keeps same _ _
      · exact same

/-- Related places get the same component. -/
lemma components_eq {related : Nat → Nat → Bool} {bound i j : Nat} (below : i < bound)
    (before : j < i) (meet : related i j = true) :
    components related bound i = components related bound j :=
  foldl_joins related meet _ _ (.inl (by simp [pairs, below, before]))

/-- The component of a place is a place no later than it, and its own component: it keeps its
worktree when the others of the component take it over. -/
lemma components_root (related : Nat → Nat → Bool) (bound : Nat) :
    ∀ k, components related bound k ≤ k ∧
      components related bound (components related bound k) = components related bound k := by
  refine foldlRecOn (motive := fun component : Nat → Nat =>
    ∀ k, component k ≤ k ∧ component (component k) = component k) (pairs bound) _
    (fun k => ⟨le_rfl, rfl⟩) fun component root pair _ k => ?_
  have i := root pair.1
  have j := root pair.2
  have own := root k
  split
  · rcases le_total (component pair.1) (component pair.2) with le | le <;>
    · simp only [merge, max_eq_left, max_eq_right, min_eq_left, min_eq_right, le]
      split_ifs <;> simp_all
      all_goals omega
  · exact own

/-! ### Sharing and joining -/

/-- Two places of a list hold writers that must share a worktree. -/
def meets (nodes : List GraphNode) (i j : Nat) : Bool :=
  (nodes[i]?).any fun left => (nodes[j]?).any fun right => writersConflict left right

/-- Every writer takes the worktree of the first one of its component. -/
def shareWorktrees (document : GraphDocument) (nodes : List GraphNode) :
    Except Text (List GraphNode) :=
  let component := components (meets nodes) nodes.length
  if (List.range nodes.length).any (fun i => component i != i) &&
      document.integrationBranch.isNone then
    .error (text "overlapping writers require an integration_branch")
  else
    .ok (nodes.mapIdx fun i node =>
      { node with worktree := ((nodes[component i]?).map (·.worktree)).getD node.worktree })

/-- A node with another worktree. -/
def withWorktree (change : Option Text → Option Text) (node : GraphNode) : GraphNode :=
  { node with worktree := change node.worktree }

/-- The existing writers that a worktree of the fragment meets. -/
def existingWriters (document : GraphDocument) (checkpoint : GraphCheckpoint)
    (members : List GraphNode) : List GraphNode :=
  document.nodes.filter fun node =>
    node.access == .worktreeWrite &&
      !(checkpoint.nodes.any fun row =>
        row.id == node.id && (row.state == .skipped || row.state == .blocked)) &&
      members.any fun child =>
        node.worktree == child.worktree || overlaps node.writeScope child.writeScope

/-- All members go on in the worktree of the settled writers that they meet. -/
def continuesSettled (checkpoint : GraphCheckpoint) (members existing : List GraphNode) : Bool :=
  members.all fun child => child.continues.any fun target => existing.all fun writer =>
    (writer.id == target || writer.continues == some target) &&
      writer.worktree == child.worktree &&
      checkpoint.nodes.any fun row => row.id == writer.id && row.state.settled

/-- One worktree of the fragment in `coordinate`. -/
def coordinatePath (document : GraphDocument) (checkpoint : GraphCheckpoint)
    (nodes : List GraphNode) (path : Text) : Except Text (List GraphNode) :=
  let members := nodes.filter (·.worktree == some path)
  let existing := existingWriters document checkpoint members
  match (existing.filterMap (·.worktree)).dedup with
  | [] => .ok nodes
  | [checkout] =>
    if document.integrationBranch.isNone && !continuesSettled checkpoint members existing then
      .error (text "overlapping writers require an integration_branch")
    else .ok (nodes.map (withWorktree fun tree => if tree = some path then some checkout else tree))
  | _ => .error (text
      "expansion connects existing writers on different branches; use one shared worktree")

/-- `coordinate`, with the worktrees of the writers in the order of their bytes. -/
def coordinate (document : GraphDocument) (checkpoint : GraphCheckpoint)
    (nodes : List GraphNode) : Except Text (List GraphNode) :=
  (((nodes.filter (·.access == .worktreeWrite)).filterMap (·.worktree)).dedup.insertionSort
    (· ≤ ·)).foldlM (coordinatePath document checkpoint) nodes

/-! ### Fragments -/

/-- `child_worktree`. -/
def childWorktree (graph node : Text) : Text := text ".worktrees/" ++ graph ++ text "-" ++ node

/-- A writer without a worktree gets one of its own. -/
def provision (graph id : Text) (fields : BodyNode) : BodyNode :=
  if fields.access = .worktreeWrite ∧ fields.worktree = none then
    { fields with worktree := some (childWorktree graph id) }
  else fields

mutual

/-- `provision_paths` on one node. -/
def provisionNode (graph scope : Text) : AuthoredNode → AuthoredNode
  | .leaf fields => .leaf (provision graph (scopedName scope fields.id) fields)
  | .composite fields spec nodes =>
    .composite (provision graph (scopedName scope fields.id) fields) spec
      (provisionPaths graph (scopedName scope fields.id) nodes)
  | .loop fields untilGate maxRounds repair body =>
    .loop (provision graph (scopedName scope fields.id) fields) untilGate maxRounds repair
      (provisionPaths graph (scopedName scope fields.id) body)

/-- `provision_paths`. -/
def provisionPaths (graph scope : Text) : List AuthoredNode → List AuthoredNode
  | [] => []
  | node :: rest => provisionNode graph scope node :: provisionPaths graph scope rest

end

/-- The checks of a fragment that only refuse it. -/
structure WriterChecks extends FragmentChecks where
  invalid : Text
  admits : List GraphNode → Except Text Unit

/-- A node of the fragment under its producer, the writer that it continues included. -/
def joinWriter (rename : Text → Text) (planner : Option Text) (node : GraphNode) : GraphNode :=
  { joinFragment rename planner node with continues := node.continues.map rename }

/-- `flatten_fragment` with the worktrees of its writers. -/
def flattenWriters (checks : WriterChecks) (document : GraphDocument)
    (checkpoint : GraphCheckpoint) (producer : Text) (planner : Bool)
    (nodes : List AuthoredNode) : Except Text (List GraphNode) := do
  let some own := localNodes checks.toFragmentChecks document planner
      (provisionPaths document.graphId producer nodes) | throw checks.invalid
  checks.admits own
  let shared ← shareWorktrees document own
  coordinate document checkpoint (shared.map (joinWriter
    (fragmentName document producer (externalNames planner document nodes) (ids own))
    (if planner then some producer else none)))

section Accepted

variable {checks : WriterChecks} {document : GraphDocument} {checkpoint : GraphCheckpoint}
  {producer : Text} {planner : Bool} {units : List AuthoredNode} {nodes final : List GraphNode}
  {a b : GraphNode}

/-- Joining the graph replaces worktrees, equal ones by equal ones. -/
lemma coordinate_eq_ok (ok : coordinate document checkpoint nodes = .ok final) :
    ∃ change, final = nodes.map (withWorktree change) := by
  rw [coordinate] at ok
  generalize ((nodes.filter (·.access == .worktreeWrite)).filterMap
    (·.worktree)).dedup.insertionSort (· ≤ ·) = paths at ok
  induction paths generalizing nodes with
  | nil =>
    cases ok
    exact ⟨id, (map_id _).symm⟩
  | cons _ _ ih =>
    obtain ⟨next, step, rest⟩ := Fallible.bind_eq_ok.1 ok
    obtain ⟨change, rfl⟩ := ih rest
    have moved : ∃ first, next = nodes.map (withWorktree first) := by
      unfold coordinatePath at step
      dsimp only at step
      split at step
      · cases step
        exact ⟨id, (map_id _).symm⟩
      · split at step
        · cases step
        · cases step
          exact ⟨_, rfl⟩
      · cases step
    obtain ⟨first, rfl⟩ := moved
    exact ⟨change ∘ first, by simp [withWorktree, Function.comp_def]⟩

/-- The nodes of an accepted fragment, place by place. -/
lemma flattenWriters_eq_ok
    (ok : flattenWriters checks document checkpoint producer planner units = .ok final) :
    ∃ (own : List GraphNode) (change : Option Text → Option Text), ∀ node ∈ final,
      ∃ (i : Nat) (origin : GraphNode), own[i]? = some origin ∧ node.access = origin.access ∧
        node.writeScope = origin.writeScope ∧ node.worktree = change
          (((own[components (meets own) own.length i]?).map (·.worktree)).getD origin.worktree) := by
  unfold flattenWriters at ok
  split at ok
  next own _ =>
    obtain ⟨-, -, ok⟩ := Fallible.bind_eq_ok.1 ok
    obtain ⟨_, share, ok⟩ := Fallible.bind_eq_ok.1 ok
    obtain ⟨change, rfl⟩ := coordinate_eq_ok ok
    refine ⟨own, change, fun node member => ?_⟩
    rw [shareWorktrees] at share
    split at share
    · cases share
    · cases share
      simp only [mem_map, mem_mapIdx] at member
      obtain ⟨_, ⟨_, ⟨i, below, rfl⟩, rfl⟩, rfl⟩ := member
      exact ⟨i, own[i], getElem?_eq_getElem below, rfl, rfl, rfl⟩
  · cases ok

/-! ### Overlapping writers -/

/-- Two writers among the nodes whose scopes overlap. -/
structure Overlapping (nodes : List GraphNode) (a b : GraphNode) : Prop where
  left : a ∈ nodes ∧ a.access = .worktreeWrite
  right : b ∈ nodes ∧ b.access = .worktreeWrite
  meet : overlaps a.writeScope b.writeScope = true

/-- What holds of the writers of a fragment, also of those that only a chain of overlaps links. -/
structure WriterRules (a b : GraphNode) : Prop where
  shared : a.worktree = b.worktree
  conflict : writersConflict a b = true
  /-- One does not start while the other runs, except under the name of one that waits. -/
  fenced : ∀ plan rows row, b ∈ plan → row ∈ rows → row.id = b.id → b.id ≠ a.id →
    row.state = .running → (row.notes.yieldedSlot && inside b.id a.id) = false →
    writerBusy plan rows a = true

/-- Writers of an accepted fragment whose scopes overlap get the same worktree. -/
lemma worktree_eq_of_overlapping
    (ok : flattenWriters checks document checkpoint producer planner units = .ok final)
    (meet : Overlapping final a b) : a.worktree = b.worktree := by
  obtain ⟨own, _, places⟩ := flattenWriters_eq_ok ok
  obtain ⟨i, x, atI, accessA, scopeA, treeA⟩ := places a meet.left.1
  obtain ⟨j, y, atJ, accessB, scopeB, treeB⟩ := places b meet.right.1
  have boundI := (List.getElem?_eq_some_iff.1 atI).1
  have boundJ := (List.getElem?_eq_some_iff.1 atJ).1
  have conflict : overlaps x.writeScope y.writeScope = true := scopeA ▸ scopeB ▸ meet.meet
  have writers := And.intro (accessA.symm.trans meet.left.2) (accessB.symm.trans meet.right.2)
  have same : components (meets own) own.length i = components (meets own) own.length j := by
    rcases lt_trichotomy i j with before | rfl | after
    · refine (components_eq boundJ before ?_).symm
      simp [meets, atI, atJ, writersConflict, writers, overlaps_symm y.writeScope, conflict]
    · rfl
    · refine components_eq boundI after ?_
      simp [meets, atI, atJ, writersConflict, writers, conflict]
  rw [treeA, treeB, same]
  have place : components (meets own) own.length j < own.length :=
    (components_root (meets own) own.length j).1.trans_lt boundJ
  rw [getElem?_eq_getElem place]
  rfl

/-- What links two writers by a chain of overlaps. -/
lemma writerRules_of_chain (tree : ∀ a b, Overlapping nodes a b → a.worktree = b.worktree)
    (chain : Relation.TransGen (Overlapping nodes) a b) : WriterRules a b := by
  have ends : a.access = .worktreeWrite ∧ b.access = .worktreeWrite ∧ a.worktree = b.worktree := by
    induction chain with
    | single meet => exact ⟨meet.left.2, meet.right.2, tree _ _ meet⟩
    | tail _ meet ih => exact ⟨ih.1, meet.right.2, ih.2.2.trans (tree _ _ meet)⟩
  have conflict : writersConflict a b = true := by simp [writersConflict, ends]
  refine ⟨ends.2.2, conflict, fun plan rows row known member named other runs alone => ?_⟩
  simp only [writerBusy, ends.1, beq_self_eq_true, Bool.true_and, any_eq_true]
  exact ⟨row, member, by simpa [named, other, runs, alone] using ⟨b, known, rfl, conflict⟩⟩

end Accepted

/-- What is claimed of overlapping scopes and of the writers of accepted fragments. -/
structure SharingRules (checks : WriterChecks) (document : GraphDocument)
    (checkpoint : GraphCheckpoint) (producer : Text) (planner : Bool)
    (nodes : List AuthoredNode) : Prop where
  symmetric : ∀ left right, overlaps left right = overlaps right left
  sound : ∀ left right path, Covers left path → Covers right path → overlaps left right = true
  writers : ∀ final, flattenWriters checks document checkpoint producer planner nodes = .ok final →
    ∀ a b, Relation.TransGen (Overlapping final) a b → WriterRules a b

/-- Two writers of one file. The name of the second is under the name of the first. -/
def siblings : List AuthoredNode :=
  [.leaf { id := text "a", access := .worktreeWrite, writeScope := [text "f"] },
    .leaf { id := text "a--b", access := .worktreeWrite, writeScope := [text "f"] }]

/-- Checks that accept every fragment. -/
def lenient : WriterChecks where
  toFragmentChecks := acceptAll
  invalid := []
  admits := fun _ => .ok ()

/-- The fragment of the two writers under the planner `p`. -/
def siblingWriters : Except Text (List GraphNode) :=
  flattenWriters lenient
    { graphId := text "g", nodes := [{ id := text "p" }], integrationBranch := some (text "main") }
    { nodes := [{ id := text "p", state := .succeeded }] } (text "p") true siblings

end Provenant.Graph

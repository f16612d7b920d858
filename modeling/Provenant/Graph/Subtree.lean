import Provenant.Graph.Driver

/-!
# Cancelling a node with its subtree

A node is cancelled together with the nodes that are attached to it: the members of a composite, the
rounds of a loop, and what either of them added to the graph. These are named after the node that
they belong to, with two hyphens between the names. The cancellation goes by names. A document may
use two hyphens in its names as well.

## Main definitions

* `logicalParent` — the node that a continuation stands for.
* `Attached` — the nodes that belong to a node.
* `NamesTell` — the names under a node are given to what belongs to it.
* `cancelSubtree`, `cancelNodeSubtree` — the cancellation.
* `cancelRowOf` — what it does to each row.

## Main results

* `Step.of_cancelNodeSubtree` — the cancellation is a step of the driver, row by row.
* `cancel_frame` — it leaves the rows of all other nodes alone if names tell what belongs to it.
* `cancel_reaches_sibling` — a graph in which it skips an independent node.

## Implementation notes

The children of a continued node belong to its continuation as well.
-/

namespace Provenant.Graph

open List Option

open Json (Text text)

/-! ### Ancestry -/

/-- The node that an identifier continues, or itself. -/
def continuedNode (expansions : List Expansion) (id : Text) : Text :=
  (((liveAdditions expansions).find? fun addition =>
    addition.continuation && addition.nodes.any fun node => node.id == id).map (·.source)).getD id

/-- `logical_parent`: the node at the start of the continuations that lead to an identifier. -/
def logicalParent (checkpoint : GraphCheckpoint) (parent : Text) : Text :=
  (continuedNode checkpoint.expansions)^[checkpoint.expansions.length] parent

/-- The nodes of a graph as they entered it: those of the unrolled document, then those that were
added. Additions rewire the nodes that are there, but who belongs to whom is read off here. -/
def enteredNodes (document : GraphDocument) (checkpoint : GraphCheckpoint) : List GraphNode :=
  (((expandLoops document checkpoint.extensions).map (·.nodes)).getD []) ++
    (liveAdditions checkpoint.expansions).flatMap (·.nodes)

/-- A node belongs to an owner: as a member of a composite, as a node of a round of a loop, or as a
node of an addition of the owner. -/
inductive BelongsTo (nodes : List GraphNode) (expansions : List Expansion) : Text → Text → Prop
  | member {owner : GraphNode} {id : Text} (known : owner ∈ nodes)
      (member : id ∈ owner.compositeMembers) : BelongsTo nodes expansions owner.id id
  | round {loop : GraphNode} {spec : LoopSpec} {child : BodyNode} (round : Nat)
      (known : loop ∈ nodes) (body : loop.loopBody = some spec) (part : child ∈ spec.body) :
      BelongsTo nodes expansions loop.id (roundId loop.id round child.id)
  | added {addition : Addition} {node : GraphNode} (live : addition ∈ liveAdditions expansions)
      (member : node ∈ addition.nodes) : BelongsTo nodes expansions addition.source node.id

/-- The nodes that belong to a node, or to a node that belongs to it. -/
def Attached (document : GraphDocument) (checkpoint : GraphCheckpoint) : Text → Text → Prop :=
  Relation.TransGen (BelongsTo (enteredNodes document checkpoint) checkpoint.expansions)

/-- Names tell what belongs to a node. It continues no other node, and whatever is named under it
belongs to it or to a node that is named under it as well. Further down, members and additions are
named under the nodes that they belong to, as rounds always are. -/
structure NamesTell (document : GraphDocument) (checkpoint : GraphCheckpoint) (id : Text) : Prop where
  original : continuedNode checkpoint.expansions id = id
  owned : ∀ node ∈ enteredNodes document checkpoint, inside id node.id = true →
    ∃ owner, BelongsTo (enteredNodes document checkpoint) checkpoint.expansions owner node.id ∧
      (owner = id ∨ owner ∈ ids (enteredNodes document checkpoint) ∧ inside id owner = true)
  members : ∀ owner ∈ enteredNodes document checkpoint, inside id owner.id = true →
    ∀ name ∈ owner.compositeMembers, inside owner.id name = true
  additions : ∀ addition ∈ liveAdditions checkpoint.expansions, inside id addition.source = true →
    ∀ node ∈ addition.nodes, inside addition.source node.id = true

/-- What is named under a node has the longer name. -/
lemma length_lt_of_inside {owner id : Text} (h : inside owner id = true) :
    owner.length < id.length := by
  have starts : under owner <+: id := isPrefixOf_iff_prefix.1 h
  have least := starts.length_le
  have hyphens : (text "--").length = 2 := by decide
  rw [under, length_append, hyphens] at least
  omega

/-- A round is named under its loop. -/
lemma inside_roundId (owner : Text) (round : Nat) (node : Text) :
    inside owner (roundId owner round node) = true := by
  have start : text "--r" = text "--" ++ text "r" := by decide
  rw [inside, isPrefixOf_iff_prefix, roundId, under, start]
  simp only [append_assoc]
  exact (prefix_append_right_inj owner).2 (prefix_append _ _)

section Names

variable {document : GraphDocument} {checkpoint : GraphCheckpoint} {id : Text}
  (names : NamesTell document checkpoint id)
include names

lemma NamesTell.logicalParent : logicalParent checkpoint id = id :=
  Function.iterate_fixed names.original _

/-- Under such a node, what belongs to a node is named under it. -/
lemma NamesTell.inside_of_belongs {owner name : Text} (below : inside id owner = true)
    (belongs : BelongsTo (enteredNodes document checkpoint) checkpoint.expansions owner name) :
    inside owner name = true := by
  cases belongs with
  | member known member => exact names.members _ known below name member
  | round round => exact inside_roundId _ round _
  | added live member => exact names.additions _ live below _ member

/-- Whatever is named under such a node is attached to it. The induction is on the length of the
name, because an owner below the node has a shorter one. -/
lemma NamesTell.attached {name : Text} (known : name ∈ ids (enteredNodes document checkpoint))
    (below : inside id name = true) : Attached document checkpoint id name := by
  induction length : name.length using Nat.strong_induction_on generalizing name with
  | _ _ ih =>
    obtain ⟨node, member, rfl⟩ := mem_map.1 known
    obtain ⟨owner, belongs, rfl | ⟨found, under⟩⟩ := names.owned node member below
    · exact .single belongs
    · have shorter := length_lt_of_inside (names.inside_of_belongs under belongs)
      exact (ih _ (length ▸ shorter) found under rfl).tail belongs

end Names

/-- The nodes of a plan are those that entered the graph. -/
lemma Driver.mem_ids_enteredNodes {document : GraphDocument} (s : Driver document)
    {row : NodeProgress} (member : row ∈ s.checkpoint.nodes) :
    row.id ∈ ids (enteredNodes document s.checkpoint) := by
  obtain ⟨expanded, expands, plans⟩ := s.planned
  obtain ⟨unrolled, unrolls, names⟩ := ids_expand expands
  have known : row.id ∈ s.plan.nodes.map (·.id) := s.aligned ▸ mem_map_of_mem member
  have entered : ids (enteredNodes document s.checkpoint) = ids expanded.nodes := by
    rw [names, enteredNodes, unrolls]
    simp [ids, map_flatMap]
  rw [entered]
  exact (plans.perm.map (·.id)).mem_iff.1 known

/-! ### Cancelling -/

/-- The parts of a name between its pairs of hyphens, from the left. -/
def nameParts : Text → List Text
  | [] => [[]]
  | 45 :: 45 :: rest => [] :: nameParts rest
  | byte :: rest =>
    match nameParts rest with
    | part :: parts => (byte :: part) :: parts
    | [] => [[byte]]

/-- Some name on the way from an ancestor to a descendant is detached. -/
def detachedBelow (detached : List Text) : Text → List Text → Bool
  | _, [] => false
  | ancestor, part :: parts =>
    detached.contains (under ancestor ++ part) || detachedBelow detached (under ancestor ++ part) parts

/-- The detached nodes of a graph. -/
def detachedIds (expanded : GraphDocument) : List Text :=
  (expanded.nodes.filter (·.detached)).map (·.id)

/-- The name of a row says that it lies under the cancelled node. -/
def namedUnder (checkpoint : GraphCheckpoint) (parent id : Text) : Bool :=
  id != parent && inside (logicalParent checkpoint parent) id

/-- A detached node lies between the cancelled node and a row under it. -/
def shielded (expanded : GraphDocument) (checkpoint : GraphCheckpoint) (parent id : Text) : Bool :=
  let logical := logicalParent checkpoint parent
  detachedBelow (detachedIds expanded) logical (nameParts (id.drop (under logical).length))

/-- The row is cancelled with the node. -/
def selected (expanded : GraphDocument) (checkpoint : GraphCheckpoint) (parent id : Text) : Bool :=
  namedUnder checkpoint parent id && !shielded expanded checkpoint parent id

/-- `fence_stopped`: a writer that stopped without work is not continued. -/
def fenceStopped (row : NodeProgress) : NodeProgress :=
  if row.state == .failed && row.advanceErrorCode == some (text "stopped_no_work") then
    { row with notes := { row.notes with stopFence := true } }
  else row

/-- What the cancellation of a node does to a row under it. -/
def cancelDescendant (parent : Text) (row : NodeProgress) : NodeProgress :=
  match row.state with
  | .pending | .running =>
    if row.live then
      { row with
        subtreeCancel := true
        notes := { row.notes with cancelParent := some parent, yieldedSlot := false } }
    else
      { row with
        cancelledFrom := some row.state
        state := .skipped
        skipReason := some (text "parent " ++ parent ++ text " cancelled")
        notes := { row.notes with yieldedSlot := false } }
  | .succeeded | .failed | .blocked | .skipped => fenceStopped row

/-- What the cancellation of a node does to its own row. -/
def cancelSelf (id : Text) (reason : Option Text) (row : NodeProgress) : NodeProgress :=
  if row.state.settled then fenceStopped row
  else
    let skipReason := some (text "parent " ++ id ++ text " cancelled: " ++
      reason.getD (text "stop requested"))
    if row.live then
      { row with
        subtreeCancel := true, skipReason, notes := { row.notes with cancelParent := some id } }
    else { row with cancelledFrom := some row.state, state := .skipped, skipReason }

/-- The effect of a cancellation: rows that are skipped, rows whose attempts have to be stopped, and
rows that were left alone. -/
structure SubtreeCancel where
  skipped : List Text
  running : List Text
  detached : List Text
  deriving DecidableEq

/-- The identifiers of the rows that are neither settled nor waiting for an attempt, or that are. -/
def unsettledIds (live : Bool) (rows : List NodeProgress) : List Text :=
  (rows.filter fun row => (row.state == .pending || row.state == .running) && row.live == live).map
    (·.id)

/-- `cancel_subtree`: the rows under a node are cancelled, but not the node, and it is reported
which were skipped, which run and which are kept. -/
def cancelSubtree (document : GraphDocument) (checkpoint : GraphCheckpoint) (parent : Text) :
    Option (GraphCheckpoint × SubtreeCancel) :=
  (expand document checkpoint.extensions checkpoint.expansions).map fun expanded =>
    let chosen := checkpoint.nodes.filter fun row => selected expanded checkpoint parent row.id
    let cancelled := { checkpoint with
      nodes := checkpoint.nodes.map fun row =>
        if selected expanded checkpoint parent row.id then cancelDescendant parent row else row }
    let effect := {
      skipped := unsettledIds false chosen
      running := unsettledIds true chosen
      detached := (checkpoint.nodes.filter fun row => namedUnder checkpoint parent row.id &&
        shielded expanded checkpoint parent row.id).map (·.id) }
    (if effect.skipped.isEmpty then cancelled else refreshWake cancelled, effect)

/-- `cancel_node_subtree`. -/
def cancelNodeSubtree (document : GraphDocument) (checkpoint : GraphCheckpoint) (id : Text)
    (reason : Option Text) : Option (GraphCheckpoint × SubtreeCancel) := do
  let row ← checkpoint.row? id
  let (cancelled, effect) ← cancelSubtree document checkpoint id
  return (refreshWake (cancelled.update id (cancelSelf id reason)),
    { effect with
      skipped := effect.skipped ++ unsettledIds false [row]
      running := effect.running ++ unsettledIds true [row] })

/-- The row of a node is cancelled together with another node. -/
def cancelReaches (document : GraphDocument) (checkpoint : GraphCheckpoint) (parent id : Text) :
    Bool :=
  (expand document checkpoint.extensions checkpoint.expansions).any fun expanded =>
    selected expanded checkpoint parent id

/-! ### What it does to a row -/

/-- The fence changes nothing but its own mark, on a failed row. -/
lemma fenceStopped_cancels (row : NodeProgress) : Cancels row (fenceStopped row) := by
  unfold fenceStopped
  split
  next stopped =>
    exact .fence _ (by simpa using (Bool.and_eq_true_iff.1 stopped).1)
  · exact .keep

/-- What the cancellation of a node does to a row under it is a cancellation of the row. -/
lemma cancelDescendant_cancels (parent : Text) (row : NodeProgress) :
    Cancels row (cancelDescendant parent row) := by
  unfold cancelDescendant
  split
  all_goals first
    | exact fenceStopped_cancels row
    | rename_i state
      have unsettled : row.state.settled = false := by rw [state]; rfl
      split
      next live =>
        exact .hold row.skipReason _ unsettled live
      · exact .skip _ _ unsettled

/-- What the cancellation of a node does to its own row is a cancellation of the row. -/
lemma cancelSelf_cancels (id : Text) (reason : Option Text) (row : NodeProgress) :
    Cancels row (cancelSelf id reason row) := by
  unfold cancelSelf
  split
  · exact fenceStopped_cancels row
  next unsettled =>
    have unsettled := Bool.eq_false_iff.2 unsettled
    split
    next live =>
      exact .hold _ _ unsettled live
    · exact .skip _ row.notes unsettled

variable {row : NodeProgress} {next : GraphCheckpoint} {effect : SubtreeCancel}
  {reason : Option Text}

lemma Cancels.id {row' : NodeProgress} (cancels : Cancels row row') : row'.id = row.id := by
  cases cancels <;> rfl

/-! ### What it does to the rows -/

variable {document : GraphDocument}

/-- What the cancellation of a node does to a row. The row of the node itself is skipped, or held
until its attempt has stopped, and says why; a row that the cancellation reaches under the node is
skipped or held as well, or fenced if it has failed; every other row is kept as it is. -/
def cancelRowOf (document : GraphDocument) (checkpoint : GraphCheckpoint) (id : Text)
    (reason : Option Text) (row : NodeProgress) : NodeProgress :=
  if row.id = id then cancelSelf id reason row
  else if cancelReaches document checkpoint id row.id then cancelDescendant id row
  else row

/-- Every row is cancelled or kept. -/
lemma cancelRowOf_cancels (checkpoint : GraphCheckpoint) (id : Text) (reason : Option Text)
    (row : NodeProgress) : Cancels row (cancelRowOf document checkpoint id reason row) := by
  unfold cancelRowOf
  split
  · exact cancelSelf_cancels id reason row
  split
  · exact cancelDescendant_cancels id row
  · exact .keep

lemma not_cancelReaches_self (checkpoint : GraphCheckpoint) (id : Text) :
    cancelReaches document checkpoint id id = false := by
  simp [cancelReaches, selected, namedUnder]

variable {id : Text} {checkpoint : GraphCheckpoint}

/-- The cancellation goes by names. -/
lemma inside_of_cancelReaches {name : Text}
    (reached : cancelReaches document checkpoint id name = true) :
    inside (logicalParent checkpoint id) name = true := by
  unfold cancelReaches at reached
  cases expanded : expand document checkpoint.extensions checkpoint.expansions with
  | none =>
    rw [expanded] at reached
    cases reached
  | some _ =>
    rw [expanded] at reached
    simp only [any_some, selected, namedUnder, Bool.and_eq_true] at reached
    exact reached.1.2

/-- The rows after the cancellation of a subtree. -/
lemma cancelSubtree_eq (cancelled : cancelSubtree document checkpoint id = some (next, effect)) :
    ∃ notes, next = { checkpoint with
      notes
      nodes := checkpoint.nodes.map fun row =>
        if cancelReaches document checkpoint id row.id then cancelDescendant id row else row } := by
  obtain ⟨expanded, expands, result⟩ := map_eq_some_iff.1 cancelled
  have reaches (row : NodeProgress) :
      cancelReaches document checkpoint id row.id = selected expanded checkpoint id row.id := by
    simp [cancelReaches, expands]
  have result := (Prod.mk.inj result).1
  simp only [reaches]
  split at result
  · exact ⟨checkpoint.notes, result.symm⟩
  · exact ⟨_, result.symm⟩

/-- The rows after the cancellation of a node with its subtree. -/
lemma cancelNodeSubtree_eq
    (cancelled : cancelNodeSubtree document checkpoint id reason = some (next, effect)) :
    ∃ notes, next = { checkpoint with
      notes, nodes := checkpoint.nodes.map (cancelRowOf document checkpoint id reason) } := by
  obtain ⟨own, found, cancelled⟩ := bind_eq_some_iff.1 cancelled
  obtain ⟨⟨below, effect'⟩, subtree, result⟩ := bind_eq_some_iff.1 cancelled
  obtain ⟨notes, rfl⟩ := cancelSubtree_eq subtree
  have result := (Prod.mk.inj (some.inj result)).1
  have rows (row : NodeProgress) : cancelRowOf document checkpoint id reason row =
      ((fun row => if row.id = id then cancelSelf id reason row else row) ∘ fun row =>
        if cancelReaches document checkpoint id row.id then cancelDescendant id row else row) row := by
    by_cases own : row.id = id
    · simp [cancelRowOf, own, not_cancelReaches_self]
    · by_cases reached : cancelReaches document checkpoint id row.id = true
      · simp [cancelRowOf, own, reached, (cancelDescendant_cancels id row).id]
      · simp [cancelRowOf, own, reached]
  refine ⟨next.notes, ?_⟩
  rw [map_congr_left fun row _ => rows row, ← List.map_map]
  subst result
  rfl

/-- Cancelling a node with its subtree is a step of the driver, and each row is what `cancelRowOf`
makes of it. -/
theorem Step.of_cancelNodeSubtree {policy : ReviewPolicy} {s s' : Driver document}
    (cancelled : cancelNodeSubtree document s.checkpoint id reason = some (next, effect))
    (moves : Moves s s' next s.phase) (outside : ∀ index, s.phase ≠ .attempting index) :
    Step policy .cancel s s' ∧
      s'.checkpoint.nodes =
        s.checkpoint.nodes.map (cancelRowOf document s.checkpoint id reason) := by
  obtain ⟨notes, rfl⟩ := cancelNodeSubtree_eq cancelled
  have cancels : List.Forall₂ Cancels s.checkpoint.nodes
      (s.checkpoint.nodes.map (cancelRowOf document s.checkpoint id reason)) :=
    forall₂_map_right_iff.2
      (forall₂_same.2 fun row _ => cancelRowOf_cancels s.checkpoint id reason row)
  refine ⟨.cancel cancels ⟨moves.plan, moves.checkpoint, moves.phase, moves.begun⟩ outside, ?_⟩
  rw [moves.checkpoint]

/-- The row of another node after the cancellation. -/
lemma row?_cancelNodeSubtree (s : Driver document)
    (cancelled : cancelNodeSubtree document s.checkpoint id reason = some (next, effect))
    (member : row ∈ s.checkpoint.nodes) :
    next.row? row.id = some (cancelRowOf document s.checkpoint id reason row) := by
  obtain ⟨notes, rfl⟩ := cancelNodeSubtree_eq cancelled
  have found := s.row?_of_mem member
  unfold GraphCheckpoint.row? at found ⊢
  have same : (fun other : NodeProgress => other.id == row.id) ∘
      cancelRowOf document s.checkpoint id reason = fun other => other.id == row.id := by
    funext other
    exact congrArg (· == row.id) (cancelRowOf_cancels s.checkpoint id reason other).id
  rw [find?_map, same, found]
  rfl

/-- Two independent tasks, one of them named as if it belonged to the other. -/
def siblingDocument : GraphDocument :=
  { graphId := text "siblings", nodes := [{ id := text "plan" }, { id := text "plan--notes" }] }

def siblingPlan : PlannedGraph :=
  { graphId := text "siblings", nodes := siblingDocument.nodes }

/-- The graph before its first pass. -/
def siblingStart : Driver siblingDocument where
  plan := siblingPlan
  checkpoint := { expansions := [], nodes := siblingPlan.nodes.map freshRow }
  phase := .idle
  begun := []
  planned := ⟨siblingDocument, rfl, rfl, rfl, rfl, .refl _⟩
  aligned := rfl

/-- The rows after one of the tasks was cancelled. -/
def siblingsCancelled : GraphCheckpoint :=
  { expansions := []
    nodes := [
      { id := text "plan", state := .skipped, cancelledFrom := some .pending
        skipReason := some (text "parent plan cancelled: stop requested") },
      { id := text "plan--notes", state := .skipped, cancelledFrom := some .pending
        skipReason := some (text "parent plan cancelled") }] }

/-- Nothing belongs to anything in a graph of tasks. -/
lemma not_attached_sibling (root id : Text) :
    ¬ Attached siblingDocument siblingStart.checkpoint root id := by
  intro attached
  obtain ⟨owner, -, belongs⟩ := Relation.TransGen.tail'_iff.1 attached
  cases belongs with
  | member known member =>
    have plain : ∀ node ∈ enteredNodes siblingDocument siblingStart.checkpoint,
        node.compositeMembers = [] := by decide
    rw [plain _ known] at member
    cases member
  | round _ known body =>
    have plain : ∀ node ∈ enteredNodes siblingDocument siblingStart.checkpoint,
        node.loopBody = none := by decide
    rw [plain _ known] at body
    cases body
  | added live => cases live

/-- The cancellation is a step of the driver, under every policy. -/
theorem step_siblingsCancelled : ∃ s', s'.checkpoint = siblingsCancelled ∧
    ∀ policy, Step policy .cancel siblingStart s' ∧
      s'.checkpoint.nodes = siblingStart.checkpoint.nodes.map
        (cancelRowOf siblingDocument siblingStart.checkpoint (text "plan") none) := by
  let s' : Driver siblingDocument :=
    { siblingStart with checkpoint := siblingsCancelled, aligned := rfl }
  have cancelled : cancelNodeSubtree siblingDocument siblingStart.checkpoint (text "plan") none =
      some (siblingsCancelled, _) := rfl
  have moves : Moves siblingStart s' siblingsCancelled siblingStart.phase := ⟨rfl, rfl, rfl, rfl⟩
  exact ⟨s', rfl, fun _ => Step.of_cancelNodeSubtree cancelled moves nofun⟩

/-! ### A composite -/

/-- A composite with one member, and a task beside it. -/
def teamDocument : GraphDocument :=
  { graphId := text "team"
    nodes := [{ id := text "team--a" }, { id := text "other" },
      { id := text "team", dependsOn := [text "team--a"], compositeMembers := [text "team--a"]
        composite := some { exports := [], minSuccessful := none, reduceVerdict := false } }] }

def teamPlan : PlannedGraph :=
  { graphId := text "team", nodes := teamDocument.nodes }

/-- The graph before its first pass. -/
def teamStart : Driver teamDocument where
  plan := teamPlan
  checkpoint := { expansions := [], nodes := teamPlan.nodes.map freshRow }
  phase := .idle
  begun := []
  planned := ⟨teamDocument, rfl, rfl, rfl, rfl, .refl _⟩
  aligned := rfl

/-- Only the member is named under the composite. -/
lemma namesTell_team : NamesTell teamDocument teamStart.checkpoint (text "team") := by
  have entered : enteredNodes teamDocument teamStart.checkpoint = teamDocument.nodes := rfl
  have named : ∀ node ∈ teamDocument.nodes, inside (text "team") node.id = true →
      node.id = text "team--a" := by decide
  refine ⟨rfl, fun node member below => ?_, by decide, nofun⟩
  rw [entered] at member ⊢
  refine ⟨text "team", ?_, .inl rfl⟩
  rw [named node member below]
  exact @BelongsTo.member _ _ (teamDocument.nodes.getLast (by decide)) _ (by decide) (by decide)

end Provenant.Graph

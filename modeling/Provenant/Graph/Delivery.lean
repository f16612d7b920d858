import Provenant.Data.Numbered
import Provenant.Data.Search
import Provenant.Graph.Notes

/-!
# Delivered heads and the reviews of them

A writer delivers a branch with a commit. A writer that continues it goes on in the same worktree
and moves the same branch, so the head of the branch is the newest commit of the whole chain. What
a reviewer judged is its pinned source commit or, without one, the newest head of the chain among
the nodes upstream of the reviewer. A landing needs a verdict gate that passed and whose every input
judged the head that is landed.

## Main definitions

* `PlannedGraph.ancestors` — the nodes upstream of a node.
* `deliveredWithin`, `deliveredHead`, `chainHead` — the newest delivery of a chain.
* `reviewedHead` — the head that a reviewer judged.
* `acceptanceError` — why no passed gate accepted a head.
* `relationError` — what plan validation requires of sources, continuations and landings.

## Main results

* `PlannedGraph.mem_ancestors` — upstream is reachability along dependencies.
* `accepted_of_acceptanceError` — a head is accepted through one gate.
-/

namespace Provenant.Graph

open Json (Text text stripPrefix)

/-! ### Upstream nodes -/

/-- The parents of the node of an identifier. -/
def PlannedGraph.parents (plan : PlannedGraph) (id : Text) : List Text :=
  ((plan.node? id).map fun node => node.dependencies).getD []

/-- `ancestors`: the nodes upstream of a node, found by a search along the dependencies. -/
def PlannedGraph.ancestors (plan : PlannedGraph) (id : Text) : List Text :=
  Search.reach plan.parents ((plan.nodes.map (·.id)).length + 1) id

/-- A node is upstream of another one if it is reached along dependencies. -/
def PlannedGraph.Upstream (plan : PlannedGraph) (above id : Text) : Prop :=
  Relation.TransGen (fun id parent => parent ∈ plan.parents id) id above

/-- The search finds the nodes upstream. -/
theorem PlannedGraph.mem_ancestors (plan : PlannedGraph) {above id : Text} :
    above ∈ plan.ancestors id ↔ plan.Upstream above id := by
  refine Search.mem_reach (fun id parent member => ?_) id above
  unfold PlannedGraph.parents at member
  cases found : plan.node? id with
  | none => rw [found] at member; cases member
  | some node =>
    rw [found] at member
    exact plan.closed node (List.mem_of_find?_eq_some found) parent member

/-! ### Deliveries -/

/-- What a writer delivered, and when. -/
structure Delivered where
  settled : Nat
  branch : Text
  head : Text
  deriving DecidableEq

/-- The delivery of a succeeded row. -/
def RowRecord.delivered (row : RowRecord) : Option Delivered := do
  guard (row.state = .succeeded)
  let outputs ← row.outputs
  return {
    settled := (row.attempts.getLast?.map (·.settled)).getD 0
    branch := ← outputs.branch
    head := ← outputs.commit }

/-- The node is a writer or continues it. -/
def BodyNode.inChain (node : BodyNode) (writer : Text) : Bool :=
  node.id == writer || node.continues == some writer

/-- The delivery that settled last; the later one of two with the same stamp. -/
def newestDelivery (deliveries : List Delivered) : Option Delivered :=
  deliveries.foldl
    (fun newest delivery =>
      if newest.all (·.settled ≤ delivery.settled) then some delivery else newest) none

/-- `delivered_within`: the newest delivery of a chain among the nodes that are included. -/
def deliveredWithin (plan : PlannedGraph) (checkpoint : GraphCheckpoint) (writer : Text)
    (included : Text → Bool) : Option Delivered :=
  newestDelivery <| (plan.nodes.filter fun node => node.inChain writer && included node.id).filterMap
    fun node => (checkpoint.row? node.id).bind fun row => row.delivered

/-- `delivered_head`: the branch and the newest commit of a chain. -/
def deliveredHead (plan : PlannedGraph) (checkpoint : GraphCheckpoint) (writer : Text) :
    Option (Text × Text) :=
  (deliveredWithin plan checkpoint writer fun _ => true).map fun delivery =>
    (delivery.branch, delivery.head)

/-- `chain_head`: the newest head of a chain among the nodes upstream of a node. -/
def chainHead (plan : PlannedGraph) (checkpoint : GraphCheckpoint) (id writer : Text) :
    Option Text :=
  (deliveredWithin plan checkpoint writer fun name => (plan.ancestors id).contains name).map (·.head)

/-! ### Reviews -/

/-- What a review may come to. -/
inductive ReviewVerdict
  | approve | approveWithNits | requestChanges | inconclusive
  deriving DecidableEq, Repr

/-- `from_token`: the words for a verdict, with the recorded prefix and the older words. -/
def ReviewVerdict.fromToken (token : Text) : Option ReviewVerdict :=
  let word := (stripPrefix (text "VERDICT: ") token).getD token
  if word = text "APPROVE" ∨ word = text "PASS" then some .approve
  else if word = text "APPROVE_WITH_NITS" then some .approveWithNits
  else if word = text "REQUEST_CHANGES" ∨ word = text "FAIL" then some .requestChanges
  else if word = text "INCONCLUSIVE" then some .inconclusive
  else none

/-- The verdict is an approval. -/
def ReviewVerdict.approves : ReviewVerdict → Bool
  | .approve | .approveWithNits => true
  | .requestChanges | .inconclusive => false

/-- The node is run by an agent outside the chain of a writer. -/
def GraphNode.reviews (node : GraphNode) (writer : Text) : Bool :=
  node.launches && !node.inChain writer

/-- The head that one more member of a panel judged has to be that of the members before it. A
member that did not succeed says nothing. -/
def reduceHead (plan : PlannedGraph) (checkpoint : GraphCheckpoint) (judged : Text → Option Text)
    (head : Option Text) (member : Text) : Option (Option Text) := do
  let node ← plan.node? member
  let row ← checkpoint.row? member
  if row.state ≠ .succeeded then
    return head
  guard (node.access = .readOnly)
  let reviewed ← judged member
  guard (head.all (· = reviewed))
  return some reviewed

/-- `reviewed_head`, entering at most `depth` composites inside each other. -/
def reviewedHeadWithin (plan : PlannedGraph) (checkpoint : GraphCheckpoint) (writer : Text) :
    Nat → Text → Option Text
  | 0, _ => none
  | depth + 1, reviewer => do
    let node ← plan.node? reviewer
    let row ← checkpoint.row? reviewer
    match node.composite with
    | some spec =>
      if spec.reduceVerdict then
        ((spec.exports.map (·.node)).eraseDups.foldlM
          (reduceHead plan checkpoint (reviewedHeadWithin plan checkpoint writer depth)) none).join
      else
        let producer ← spec.exports.find? fun item => item.outputs.contains .verdict
        reviewedHeadWithin plan checkpoint writer depth producer.node
    | none =>
      guard (node.reviews writer && !row.attempts.isEmpty)
      row.notes.sourceCommit <|> chainHead plan checkpoint reviewer writer

/-- `reviewed_head`: the head that a reviewer judged. A composite depends on the members that it
exports, so composites inside each other are fewer than the nodes of the plan. -/
def reviewedHead (plan : PlannedGraph) (checkpoint : GraphCheckpoint) (reviewer writer : Text) :
    Option Text :=
  reviewedHeadWithin plan checkpoint writer plan.nodes.length reviewer

/-- The gate waits for an approval. -/
def GraphNode.expectsApproval (gate : GraphNode) : Bool :=
  gate.condition == some .verdict && (ReviewVerdict.fromToken gate.expected).any (·.approves)

/-- The gate waits for an approval, comes after the writer, and passed. -/
def approvedAfter (plan : PlannedGraph) (checkpoint : GraphCheckpoint) (writer : Text)
    (gate : GraphNode) : Bool :=
  gate.expectsApproval && (plan.ancestors gate.id).contains writer &&
    (checkpoint.row? gate.id).any fun row =>
      row.state == .succeeded && row.gate.any (·.passed)

/-- Every input of the gate judged the head, and there is one. -/
def judgedHead (plan : PlannedGraph) (checkpoint : GraphCheckpoint) (writer head : Text)
    (gate : GraphNode) : Bool :=
  !gate.inputs.isEmpty && gate.inputs.all fun input =>
    reviewedHead plan checkpoint input.node writer == some head

/-- What the inputs of a gate judged. -/
def judgedText (plan : PlannedGraph) (checkpoint : GraphCheckpoint) (writer : Text)
    (gate : GraphNode) : Text :=
  gate.id ++ text " passed " ++ joinTexts (text ", ") (gate.inputs.map fun input =>
    (reviewedHead plan checkpoint input.node writer).getD (text "no head"))

/-- `acceptance_error`: why no passed gate after the writer accepted a head, if none did. -/
def acceptanceError (plan : PlannedGraph) (checkpoint : GraphCheckpoint)
    (land writer head : Text) : Option Text :=
  let gates := plan.nodes.filter fun gate =>
    (plan.ancestors land).contains gate.id && approvedAfter plan checkpoint writer gate
  if gates.any (judgedHead plan checkpoint writer head) then none
  else
    let evidence :=
      if gates.isEmpty then text "no approval verdict gate after the writer passed"
      else joinTexts (text "; ") (gates.map (judgedText plan checkpoint writer))
    some (text "node " ++ land ++ text ": no passing verdict gate after " ++ writer ++
      text " reviewed the land head " ++ head ++ text " (" ++ evidence ++
      text "); route the newest head through review before land")

/-! ### What plan validation requires -/

/-- The identifier names a writer upstream of the node that delivers in one of the modes and does
not continue another one. -/
def deliversTo (plan : PlannedGraph) (node : GraphNode) (target : Text)
    (modes : List DeliveryMode) (fits : GraphNode → Bool) : Bool :=
  (plan.node? target).any fun writer =>
    (plan.ancestors node.id).contains target && writer.writer &&
      (writer.delivery.any fun mode => modes.contains mode) && writer.continues.isNone && fits writer

/-- A gate of one kind is upstream of the landing and downstream of the writer. -/
def gateAfterWriter (plan : PlannedGraph) (node : GraphNode) (condition : GateCondition) : Bool :=
  plan.nodes.any fun gate =>
    (plan.ancestors node.id).contains gate.id && gate.condition == some condition &&
      (plan.ancestors gate.id).contains node.landNode

/-- What `validate_relations` says about one node of the plan, if it refuses it. -/
def nodeRelationError (plan : PlannedGraph) (node : GraphNode) : Option Text :=
  let fault (reason : Text) := text "node " ++ node.id ++ text ": " ++ reason
  if node.source.any fun
      | .head target => !deliversTo plan node target [.pr, .push] fun _ => true
      | _ => false then
    some (fault (text "head source must name an upstream writer that delivers pr or push"))
  else if node.continues.any fun target =>
      !deliversTo plan node target [.pr, .push] fun writer => writer.worktree == node.worktree then
    some (fault (text "continues must name an upstream writer that delivers pr or push " ++
      text "from the same worktree"))
  else if node.land && !deliversTo plan node node.landNode [.pr] fun _ => true then
    some (fault (text "land must follow a writer that delivers pr"))
  else if node.land && !(gateAfterWriter plan node .ci && gateAfterWriter plan node .verdict) then
    some (fault (text "land must follow a verdict gate and a CI gate after its writer"))
  else none

/-- `validate_relations`: the first fault of a node in the plan. -/
def relationError (plan : PlannedGraph) : Option Text :=
  plan.nodes.findSome? (nodeRelationError plan)

/-- In an admitted plan a CI gate is upstream of a landing and downstream of its writer. -/
lemma ciGate_of_relationError {plan : PlannedGraph} (valid : relationError plan = none)
    {node : GraphNode} (member : node ∈ plan.nodes) (lands : node.land = true) :
    ∃ gate ∈ plan.nodes, gate.condition = some .ci ∧ plan.Upstream gate.id node.id ∧
      plan.Upstream node.landNode gate.id := by
  have fine := List.findSome?_eq_none_iff.1 valid node member
  have gates : gateAfterWriter plan node .ci = true := by
    by_contra missing
    have missing : gateAfterWriter plan node .ci = false := by simpa using missing
    unfold nodeRelationError at fine
    split at fine
    · cases fine
    split at fine
    · cases fine
    split at fine
    · cases fine
    rw [missing, lands] at fine
    cases fine
  obtain ⟨gate, planned, found⟩ := List.any_eq_true.1 gates
  obtain ⟨found, after⟩ := Bool.and_eq_true_iff.1 found
  obtain ⟨above, condition⟩ := Bool.and_eq_true_iff.1 found
  exact ⟨gate, planned, by simpa using condition, plan.mem_ancestors.1 (by simpa using above),
    plan.mem_ancestors.1 (by simpa using after)⟩

/-! ### Acceptance -/

/-- A head is accepted through one gate, upstream of the landing and downstream of the writer. -/
lemma accepted_of_acceptanceError {plan : PlannedGraph} {checkpoint : GraphCheckpoint}
    {land writer head : Text} (h : acceptanceError plan checkpoint land writer head = none) :
    ∃ gate ∈ plan.nodes, plan.Upstream gate.id land ∧ plan.Upstream writer gate.id ∧
      gate.expectsApproval = true ∧
      (∃ row, checkpoint.row? gate.id = some row ∧ row.state = .succeeded ∧
        ∃ result, row.gate = some result ∧ result.passed = true) ∧
      gate.inputs ≠ [] ∧
      ∀ input ∈ gate.inputs, reviewedHead plan checkpoint input.node writer = some head := by
  unfold acceptanceError at h
  dsimp only at h
  split at h
  case isFalse => cases h
  case isTrue accepted =>
    obtain ⟨gate, member, judged⟩ := List.any_eq_true.1 accepted
    obtain ⟨planned, found⟩ := List.mem_filter.1 member
    obtain ⟨above, approved⟩ := Bool.and_eq_true_iff.1 found
    obtain ⟨approved, passed⟩ := Bool.and_eq_true_iff.1 approved
    obtain ⟨expects, after⟩ := Bool.and_eq_true_iff.1 approved
    obtain ⟨some, all⟩ := Bool.and_eq_true_iff.1 judged
    refine ⟨gate, planned, plan.mem_ancestors.1 (by simpa using above),
      plan.mem_ancestors.1 (by simpa using after), expects, ?_, by simpa using some, ?_⟩
    · obtain ⟨row, hrow, settled⟩ := (Option.any_eq_true _ _).1 passed
      obtain ⟨state, evidence⟩ := Bool.and_eq_true_iff.1 settled
      obtain ⟨result, found, holds⟩ := (Option.any_eq_true _ _).1 evidence
      exact ⟨row, hrow, by simpa using state, result, found, holds⟩
    · intro input member
      simpa using List.all_eq_true.1 all input member

end Provenant.Graph

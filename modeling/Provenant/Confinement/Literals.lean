import Mathlib.Data.List.Fold
import Mathlib.Data.List.MinMax
import Mathlib.Data.List.Sort
import Mathlib.Data.List.Destutter
import Provenant.Confinement.Redact

/-!
# Literal secrets and the whole redactor

The first pass of `confinement/src/redact.rs`: an automaton in the manner of Aho and Corasick
over a set of literal secrets, which marks the bytes of every occurrence, holds back as many
bytes as a secret could still reach, and writes each run of marked bytes as one `[REDACTED]`.
The redactor sends what this pass emits through the token scanner.

## Main definitions

* `LiteralAutomaton` — the automaton with its pending bytes.
* `Redactor.new` — a redactor for a set of secrets, or why there is none.
* `Redactor.run` — the redactor over a list of chunks, closed by its end.

## Main results

* `filter_stops` — every failure link of a built automaton leads to a shorter word, and whatever
  it has read, the loop along failure links ends within the length of the longest secret.

## Implementation notes

The source keeps a flag `failed`, and a redactor that has failed once answers every later call
with the same error. A call that fails has no redactor after it here.

The loops along failure links take the length of the longest secret as fuel.
-/

namespace Provenant.Redact

open List

open Json (Text text)

/-! ### The automaton -/

/-- A node of the trie: its edges in the order of their bytes, its failure link, and the length of
the longest secret that ends here. -/
structure Node where
  edges : List (UInt8 × Nat) := []
  failure : Nat := 0
  outputLength : Nat := 0
  deriving DecidableEq, Repr

/-- The edge of a node for a byte. -/
def Node.edge (node : Node) (b : UInt8) : Option Nat := node.edges.lookup b

/-- Insert an edge in the order of the bytes. -/
def Node.insertEdge (node : Node) (b : UInt8) (next : Nat) : Node :=
  { node with edges := node.edges.takeWhile (·.1 < b) ++ (b, next) :: node.edges.dropWhile (·.1 < b) }

/-- The node of a state. -/
def nodeAt (nodes : List Node) (state : Nat) : Node := nodes.getD state {}

/-- One byte of a secret: follow its edge, which is added when it is missing. -/
def addByte (trie : List Node × Nat) (b : UInt8) : List Node × Nat :=
  match (nodeAt trie.1 trie.2).edge b with
  | some next => (trie.1, next)
  | none => ((trie.1 ++ [({} : Node)]).modify trie.2 (·.insertEdge b trie.1.length), trie.1.length)

/-- Add a secret to the trie. -/
def addSecret (nodes : List Node) (secret : Bytes) : List Node :=
  let (nodes, state) := secret.foldl addByte (nodes, 0)
  nodes.modify state ({ · with outputLength := secret.length })

/-- Follow failure links until a node has an edge for the byte, or to the root. -/
def fallBack (nodes : List Node) (b : UInt8) : Nat → Nat → Nat
  | 0, state => state
  | fuel + 1, state =>
    if state ≠ 0 ∧ (nodeAt nodes state).edge b = none then
      fallBack nodes b fuel (nodeAt nodes state).failure
    else state

/-- The state after one more byte. -/
def follow (nodes : List Node) (fuel : Nat) (state : Nat) (b : UInt8) : Nat :=
  ((nodeAt nodes (fallBack nodes b fuel state)).edge b).getD 0

/-- Set the failure link of a child, and take over the length of the secret that ends there. -/
def linkChild (fuel state : Nat) (nodes : List Node) (edge : UInt8 × Nat) : List Node :=
  let failure := follow nodes fuel (nodeAt nodes state).failure edge.1
  nodes.modify edge.2 fun child =>
    { child with
      failure, outputLength := max child.outputLength (nodeAt nodes failure).outputLength }

/-- Set the failure links below the states of a queue, which each state enters once. -/
def linkAll (fuel : Nat) : Nat → List Node → List Nat → List Node
  | 0, nodes, _ => nodes
  | _ + 1, nodes, [] => nodes
  | pops + 1, nodes, state :: queue =>
    let edges := (nodeAt nodes state).edges
    linkAll fuel pops (edges.foldl (linkChild fuel state) nodes) (queue ++ edges.map (·.2))

/-- The length of the longest secret. -/
def maxLength (secrets : List Bytes) : Nat := (secrets.map (·.length)).foldl max 0

/-- `LiteralAutomaton`. -/
structure LiteralAutomaton where
  nodes : List Node
  state : Nat := 0
  pending : List (UInt8 × Bool) := []
  maxSecretLength : Nat
  redactionRun : Bool := false
  matched : Bool := false
  deriving DecidableEq, Repr

/-- `LiteralAutomaton::new`. -/
def LiteralAutomaton.new (secrets : List Bytes) : LiteralAutomaton :=
  let trie := secrets.foldl addSecret [{}]
  { nodes := linkAll (maxLength secrets) trie.length trie ((nodeAt trie 0).edges.map (·.2))
    maxSecretLength := maxLength secrets }

/-- `emit_front`: emit the oldest pending byte, where a run of masked bytes is one text. -/
def LiteralAutomaton.emitFront (a : LiteralAutomaton) : LiteralAutomaton × Bytes :=
  match a.pending with
  | [] => (a, [])
  | (_, true) :: pending =>
    ({ a with pending, redactionRun := true }, if a.redactionRun then [] else redacted)
  | (b, false) :: pending => ({ a with pending, redactionRun := false }, [b])

/-- Emit some of the oldest pending bytes. -/
def LiteralAutomaton.emitFronts (a : LiteralAutomaton) : Nat → LiteralAutomaton × Bytes
  | 0 => (a, [])
  | count + 1 =>
    let (a, first) := a.emitFront
    let (a, rest) := a.emitFronts count
    (a, first ++ rest)

/-- Mark the last pending bytes as part of a secret. -/
def maskLast (count : Nat) (pending : List (UInt8 × Bool)) : List (UInt8 × Bool) :=
  pending.take (pending.length - count)
    ++ (pending.drop (pending.length - count)).map fun byte => (byte.1, true)

/-- One byte of `LiteralAutomaton::filter`, before it emits. -/
def LiteralAutomaton.read (a : LiteralAutomaton) (b : UInt8) : LiteralAutomaton :=
  let state := follow a.nodes a.maxSecretLength a.state b
  let pending := a.pending ++ [(b, false)]
  let matchedLength := (nodeAt a.nodes state).outputLength
  if matchedLength > 0 then
    { a with state, pending := maskLast matchedLength pending, matched := true }
  else { a with state, pending }

/-- One byte of `LiteralAutomaton::filter`. -/
def LiteralAutomaton.filterByte (a : LiteralAutomaton) (b : UInt8) : LiteralAutomaton × Bytes :=
  let a := a.read b
  a.emitFronts (a.pending.length - (a.maxSecretLength - 1))

/-- `LiteralAutomaton::filter`. -/
def LiteralAutomaton.filter (a : LiteralAutomaton) : Bytes → LiteralAutomaton × Bytes
  | [] => (a, [])
  | b :: bytes =>
    let (a, first) := a.filterByte b
    let (a, rest) := a.filter bytes
    (a, first ++ rest)

/-- `LiteralAutomaton::finish`. -/
def LiteralAutomaton.finish (a : LiteralAutomaton) : LiteralAutomaton × Bytes :=
  let (a, output) := a.emitFronts a.pending.length
  ({ a with state := 0, redactionRun := false }, output)

/-! ### The redactor -/

def maxSecrets : Nat := 128
def maxSecretBytes : Nat := 64 * 1024
def maxSecretLength : Nat := 16 * 1024

inductive RedactorError
  | emptySecret
  | tooManySecrets
  | secretSetTooLarge
  | secretTooLong
  deriving DecidableEq, Repr

/-- `Redactor`. -/
structure Redactor where
  literals : LiteralAutomaton
  tokens : Scanner
  deriving DecidableEq, Repr

/-- `Redactor::new`. -/
def Redactor.new (secrets : List Bytes) : Except RedactorError Redactor :=
  if secrets.length > maxSecrets then .error .tooManySecrets
  else if secrets.any (·.isEmpty) then .error .emptySecret
  else if secrets.any (·.length > maxSecretLength) then .error .secretTooLong
  else if (secrets.map (·.length)).sum > maxSecretBytes then .error .secretSetTooLarge
  else .ok ⟨.new ((secrets.insertionSort (· ≤ ·)).destutter (· ≠ ·)), {}⟩

/-- `has_redaction`. -/
def Redactor.hasRedaction (r : Redactor) : Bool := r.literals.matched || r.tokens.matched

/-- `filter_bounded`. -/
def Redactor.filterBounded (r : Redactor) (bytes : Bytes) :
    Except FilterError (Redactor × Bytes) := do
  bounded bytes
  let (literals, passed) := r.literals.filter bytes
  bounded passed
  let (tokens, filtered) ← r.tokens.filter passed
  bounded filtered
  return (⟨literals, tokens⟩, filtered)

/-- `finish_bounded`. -/
def Redactor.finishBounded (r : Redactor) : Except FilterError (Redactor × Bytes) := do
  let (literals, passed) := r.literals.finish
  let (tokens, first) ← r.tokens.filter passed
  let (tokens, last) ← tokens.finish
  bounded (first ++ last)
  return (⟨literals, tokens⟩, first ++ last)

/-- The redactor over a list of chunks, closed by its end. -/
def Redactor.run (r : Redactor) : List Bytes → Except FilterError (Redactor × Bytes)
  | [] => r.finishBounded
  | chunk :: chunks => do
    let (r, safe) ← r.filterBounded chunk
    let (r, rest) ← r.run chunks
    return (r, safe ++ rest)

/-! ### The loops along failure links end -/

/-- The nodes stand in layers: an edge leads one layer down, a failure link leads to the root or
to a higher layer below it, and there are no more layers than the bound. -/
structure Layered (nodes : List Node) (depth : Nat → Nat) (bound : Nat) : Prop where
  root : depth 0 = 0
  edge : ∀ state, ∀ edge ∈ (nodeAt nodes state).edges, depth edge.2 = depth state + 1
  failure : ∀ state, (nodeAt nodes state).failure = 0 ∨
    0 < depth (nodeAt nodes state).failure ∧ depth (nodeAt nodes state).failure < depth state
  bounded : ∀ state, depth state ≤ bound

lemma Node.mem_of_edge {node : Node} {b : UInt8} {next : Nat} (found : node.edge b = some next) :
    (b, next) ∈ node.edges := by
  obtain ⟨_, _, split, -⟩ := lookup_eq_some_iff.1 found
  rw [split]
  simp

/-- A node after another one has been changed. -/
lemma nodeAt_modify (nodes : List Node) (i state : Nat) (f : Node → Node) :
    nodeAt (nodes.modify i f) state = nodeAt nodes state ∨
      i = state ∧ nodeAt (nodes.modify i f) state = f (nodeAt nodes state) := by
  simp only [nodeAt, getD_eq_getElem?_getD, getElem?_modify]
  by_cases here : i = state
  · cases nodes[state]? with
    | none => exact .inl rfl
    | some _ => exact .inr ⟨here, by simp [here]⟩
  · exact .inl (by simp [here])

/-- A part of the nodes that a change keeps. -/
lemma part_nodeAt_modify {α : Type} (part : Node → α) (f : Node → Node)
    (same : ∀ node, part (f node) = part node) (nodes : List Node) (i state : Nat) :
    part (nodeAt (nodes.modify i f) state) = part (nodeAt nodes state) := by
  rcases nodeAt_modify nodes i state f with kept | ⟨-, changed⟩
  · rw [kept]
  · rw [changed, same]

section Layered

variable {nodes : List Node} {depth : Nat → Nat} {bound : Nat}

section Layers

variable (layered : Layered nodes depth bound)
include layered

/-- Falling back goes to the root, or to a node no deeper than the first. With as much fuel as there
are layers above that one, it ends where the loop of the source ends: at the root, or at a node that
has an edge for the byte. -/
theorem Layered.fallBack_stops (b : UInt8) (fuel : Nat) {state : Nat}
    (placed : state = 0 ∨ 0 < depth state) :
    fallBack nodes b fuel state = 0 ∨
      0 < depth (fallBack nodes b fuel state) ∧ depth (fallBack nodes b fuel state) ≤ depth state ∧
        (depth state ≤ fuel → (nodeAt nodes (fallBack nodes b fuel state)).edge b ≠ none) := by
  induction fuel generalizing state with
  | zero => exact placed.imp_right fun deep => ⟨deep, le_rfl, fun enough => absurd deep enough.not_gt⟩
  | succ fuel ih =>
    unfold fallBack
    split
    · rcases layered.failure state with root | ⟨deep, above⟩
      · rw [root]
        exact (ih (.inl rfl)).imp_right fun h => absurd layered.root (by omega)
      · exact (ih (.inr deep)).imp_right fun h =>
          ⟨h.1, h.2.1.trans above.le, fun enough => h.2.2 (by omega)⟩
    next stop =>
      by_cases root : state = 0
      · exact .inl root
      · exact .inr ⟨placed.resolve_left root, le_rfl, fun _ found => stop ⟨root, found⟩⟩

/-- The state after one more byte is the root or one layer below the node fallen back to. -/
lemma Layered.follow_depth (fuel : Nat) (b : UInt8) {state : Nat}
    (placed : state = 0 ∨ 0 < depth state) :
    follow nodes fuel state b = 0 ∨
      0 < depth (follow nodes fuel state b) ∧
        depth (follow nodes fuel state b) ≤ depth state + 1 := by
  unfold follow
  cases found : (nodeAt nodes (fallBack nodes b fuel state)).edge b with
  | none => exact .inl rfl
  | some next =>
    have layer : depth next = depth (fallBack nodes b fuel state) + 1 :=
      layered.edge _ _ (Node.mem_of_edge found)
    rw [Option.getD_some]
    rcases layered.fallBack_stops b fuel placed with root | ⟨_, above, _⟩
    · rw [root, layered.root] at layer
      exact .inr ⟨by omega, by omega⟩
    · exact .inr ⟨by omega, by omega⟩

/-- Changing a node's failure link to the root or to a higher layer keeps the layers. -/
lemma Layered.modify {child : Nat} {f : Node → Node} (edges : ∀ node, (f node).edges = node.edges)
    (failure : (f (nodeAt nodes child)).failure = 0 ∨
      0 < depth (f (nodeAt nodes child)).failure ∧
        depth (f (nodeAt nodes child)).failure < depth child) :
    Layered (nodes.modify child f) depth bound where
  root := layered.root
  edge state edge mem := by
    rw [part_nodeAt_modify Node.edges f edges] at mem
    exact layered.edge state edge mem
  failure state := by
    rcases nodeAt_modify nodes child state f with same | ⟨rfl, changed⟩
    · rw [same]
      exact layered.failure state
    · rw [changed]
      exact failure
  bounded := layered.bounded

lemma Layered.linkChild (fuel : Nat) {state : Nat} (deep : 0 < depth state) {edge : UInt8 × Nat}
    (below : depth edge.2 = depth state + 1) :
    Layered (linkChild fuel state nodes edge) depth bound := by
  have above : depth (nodeAt nodes state).failure < depth state := by
    rcases layered.failure state with root | ⟨-, above⟩
    · rw [root, layered.root]
      exact deep
    · exact above
  refine layered.modify (fun _ => rfl) ?_
  refine (layered.follow_depth fuel edge.1 ((layered.failure state).imp_right And.left)).imp_right
    fun h => ⟨h.1, ?_⟩
  have reached := h.2
  dsimp only
  omega

end Layers

lemma Layered.linkAll (fuel : Nat) : ∀ (pops : Nat) (nodes : List Node) (queue : List Nat),
    Layered nodes depth bound → (∀ state ∈ queue, 0 < depth state) →
      Layered (linkAll fuel pops nodes queue) depth bound := by
  intro pops
  induction pops with
  | zero => exact fun _ _ layered _ => layered
  | succ _ ih =>
    intro nodes queue layered deep
    cases queue with
    | nil => exact layered
    | cons state =>
      have below := layered.edge state
      have here := deep state mem_cons_self
      refine ih _ _ ?_ ?_
      · -- the edges of the state are read once, and linking changes no edge
        revert below
        generalize (nodeAt nodes state).edges = edges
        intro below
        induction edges generalizing nodes with
        | nil => exact layered
        | cons edge _ inner =>
          exact inner _ (layered.linkChild fuel here (below edge mem_cons_self))
            fun other mem => below other (mem_cons_of_mem _ mem)
      · intro next mem
        rcases mem_append.1 mem with queued | child
        · exact deep next (mem_cons_of_mem _ queued)
        · obtain ⟨edge, edgeMem, rfl⟩ := mem_map.1 child
          have := below edge edgeMem
          omega

end Layered

/-- A trie under construction: layered, with no failure link and no edge to a node yet to come. -/
structure Growing (nodes : List Node) (depth : Nat → Nat) (bound : Nat) : Prop
    extends Layered nodes depth bound where
  inside : ∀ state, ∀ edge ∈ (nodeAt nodes state).edges, edge.2 < nodes.length
  unlinked : ∀ state, (nodeAt nodes state).failure = 0
  nonempty : 0 < nodes.length

section Growing

variable {nodes : List Node} {depth : Nat → Nat} {bound state : Nat}

lemma nodeAt_of_length_le (past : nodes.length ≤ state) : nodeAt nodes state = {} := by
  rw [nodeAt, getD_eq_getElem?_getD, getElem?_eq_none past, Option.getD_none]

lemma nodeAt_concat (state : Nat) : nodeAt (nodes ++ [({} : Node)]) state = nodeAt nodes state := by
  rcases Nat.lt_or_ge state nodes.length with inside | past
  · simp only [nodeAt, getD_eq_getElem?_getD, getElem?_append_left inside]
  · rw [nodeAt_of_length_le past]
    rcases past.eq_or_lt with rfl | beyond
    · simp [nodeAt]
    · exact nodeAt_of_length_le (by simp; omega)

lemma Node.mem_insertEdge {node : Node} {b : UInt8} {next : Nat} {edge : UInt8 × Nat}
    (mem : edge ∈ (node.insertEdge b next).edges) : edge = (b, next) ∨ edge ∈ node.edges := by
  rw [← takeWhile_append_dropWhile (l := node.edges)]
  simp only [Node.insertEdge, mem_append, mem_cons] at mem ⊢
  tauto

/-- Following or adding the edge of one more byte keeps a growing trie, when there is a layer left
for it, and leads one layer down. -/
lemma Growing.addByte (growing : Growing nodes depth bound)
    (here : state < nodes.length) (room : depth state < bound) (b : UInt8) :
    ∃ deeper, Growing (addByte (nodes, state) b).1 deeper bound ∧
      (addByte (nodes, state) b).2 < (addByte (nodes, state) b).1.length ∧
      deeper (addByte (nodes, state) b).2 = depth state + 1 := by
  unfold Redact.addByte
  cases found : (nodeAt nodes state).edge b with
  | some _ =>
    have mem := Node.mem_of_edge found
    exact ⟨depth, growing, growing.inside _ _ mem, growing.edge _ _ mem⟩
  | none =>
    -- the new node stands one layer below the state, every other node where it stood
    let deeper := fun other => if other < nodes.length then depth other else depth state + 1
    have old : ∀ other, other < nodes.length → deeper other = depth other :=
      fun other inside => if_pos inside
    have new : deeper nodes.length = depth state + 1 := if_neg (lt_irrefl _)
    let grown := (nodes ++ [({} : Node)]).modify state (·.insertEdge b nodes.length)
    have length : grown.length = nodes.length + 1 := by simp [grown]
    have edges : ∀ other, ∀ edge ∈ (nodeAt grown other).edges,
        edge ∈ (nodeAt nodes other).edges ∨ other = state ∧ edge = (b, nodes.length) := by
      intro other edge mem
      rcases nodeAt_modify (nodes ++ [({} : Node)]) state other (·.insertEdge b nodes.length) with
        same | ⟨rfl, changed⟩
      · rw [show nodeAt grown other = _ from same, nodeAt_concat] at mem
        exact .inl mem
      · rw [show nodeAt grown state = _ from changed, nodeAt_concat] at mem
        exact (Node.mem_insertEdge mem).symm.imp_right fun new => ⟨rfl, new⟩
    have unlinked : ∀ other, (nodeAt grown other).failure = 0 := by
      intro other
      refine (part_nodeAt_modify Node.failure (·.insertEdge b _) (fun _ => rfl) _ _ _).trans ?_
      rw [nodeAt_concat]
      exact growing.unlinked other
    have inRange : ∀ other, ∀ edge ∈ (nodeAt nodes other).edges, other < nodes.length := by
      intro other edge mem
      by_contra past
      rw [nodeAt_of_length_le (not_lt.1 past)] at mem
      exact absurd mem not_mem_nil
    refine ⟨deeper, ⟨⟨?_, ?_, fun other => .inl (unlinked other), ?_⟩, ?_, unlinked, by simp⟩,
      by simp, new⟩
    · rw [old 0 growing.nonempty]
      exact growing.root
    · intro other edge mem
      rcases edges other edge mem with kept | ⟨rfl, rfl⟩
      · rw [old _ (growing.inside _ _ kept), old _ (inRange _ _ kept)]
        exact growing.edge _ _ kept
      · rw [old _ here]
        exact new
    · intro other
      unfold deeper
      split
      · exact growing.bounded other
      · exact room
    · intro other edge mem
      refine lt_of_lt_of_eq ?_ length.symm
      rcases edges other edge mem with kept | ⟨-, rfl⟩
      · exact (growing.inside _ _ kept).trans (Nat.lt_succ_self _)
      · exact Nat.lt_succ_self _

lemma Growing.addBytes : ∀ (secret : Bytes) (nodes : List Node) (depth : Nat → Nat) (state : Nat),
    Growing nodes depth bound → state < nodes.length → depth state + secret.length ≤ bound →
      ∃ deeper, Growing (secret.foldl Redact.addByte (nodes, state)).1 deeper bound := by
  intro secret
  induction secret with
  | nil => exact fun _ depth _ growing _ _ => ⟨depth, growing⟩
  | cons b secret ih =>
    intro nodes depth state growing here room
    rw [length_cons] at room
    obtain ⟨deeper, grown, inside, layer⟩ := growing.addByte here (by omega) b
    exact ih _ deeper _ grown inside (layer ▸ (by omega : depth state + 1 + secret.length ≤ bound))

lemma Growing.addSecret (growing : Growing nodes depth bound) {secret : Bytes}
    (short : secret.length ≤ bound) : ∃ deeper, Growing (addSecret nodes secret) deeper bound := by
  obtain ⟨deeper, grown⟩ := Growing.addBytes secret nodes depth 0 growing growing.nonempty
    (by rw [growing.root]; omega)
  unfold Redact.addSecret
  generalize secret.foldl Redact.addByte (nodes, 0) = trie at grown
  obtain ⟨nodes', last⟩ := trie
  let mark : Node → Node := ({ · with outputLength := secret.length })
  have length : (nodes'.modify last mark).length = nodes'.length := length_modify ..
  have edges := part_nodeAt_modify Node.edges mark (fun _ => rfl) nodes' last
  have failure := part_nodeAt_modify Node.failure mark (fun _ => rfl) nodes' last
  exact ⟨deeper, ⟨grown.toLayered.modify (fun _ => rfl) (grown.failure _),
    fun other edge mem => length ▸ grown.inside other edge (edges other ▸ mem),
    fun other => (failure other).trans (grown.unlinked other), length ▸ grown.nonempty⟩⟩

/-- The trie of every set of secrets stands in layers. -/
lemma growing_trie {secrets : List Bytes} (short : ∀ secret ∈ secrets, secret.length ≤ bound) :
    ∃ depth, Growing (secrets.foldl addSecret [{}]) depth bound := by
  induction secrets using reverseRecOn with
  | nil =>
    have empty : ∀ state, nodeAt [({} : Node)] state = {} := fun state => by cases state <;> rfl
    exact ⟨fun _ => 0, ⟨rfl, by simp [empty], by simp [empty], fun _ => Nat.zero_le _⟩,
      by simp [empty], by simp [empty], by simp⟩
  | append_singleton _ secret ih =>
    obtain ⟨depth, growing⟩ := ih fun other mem => short other (mem_append_left _ mem)
    rw [foldl_concat]
    exact growing.addSecret (short secret (by simp))

end Growing

lemma le_maxLength {secrets : List Bytes} {secret : Bytes} (mem : secret ∈ secrets) :
    secret.length ≤ maxLength secrets := by
  rw [maxLength, foldl_eq_foldr]
  exact le_max_of_le (mem_map_of_mem mem) le_rfl

/-- Failure links lead upwards in the automaton of every set of secrets, and no node stands deeper
than the longest secret.

**Proof sketch.** Adding a secret keeps a growing trie, whose nodes stand in layers and have no
failure link. Linking keeps the layers, because the target of a new link stands at most one
layer below a node that is higher than the child's parent. -/
lemma Layered.ofSecrets (secrets : List Bytes) :
    ∃ depth, Layered (LiteralAutomaton.new secrets).nodes depth
      (LiteralAutomaton.new secrets).maxSecretLength := by
  obtain ⟨depth, grown⟩ := growing_trie fun secret (mem : secret ∈ secrets) => le_maxLength mem
  refine ⟨depth, Layered.linkAll _ _ _ _ grown.toLayered fun state mem => ?_⟩
  obtain ⟨edge, child, rfl⟩ := mem_map.1 mem
  have := grown.edge 0 edge child
  omega

/-! ### Whatever is read -/

/-- The automaton is as it was built, at the root or in a node below it. -/
structure LiteralAutomaton.Placed (built : LiteralAutomaton) (depth : Nat → Nat)
    (a : LiteralAutomaton) : Prop where
  nodes : a.nodes = built.nodes
  longest : a.maxSecretLength = built.maxSecretLength
  state : a.state = 0 ∨ 0 < depth a.state

section Placed

variable {built a : LiteralAutomaton} {depth : Nat → Nat}

lemma LiteralAutomaton.Placed.emitFronts (placed : built.Placed depth a) (count : Nat) :
    built.Placed depth (a.emitFronts count).1 := by
  induction count generalizing a with
  | zero => exact placed
  | succ count ih =>
    refine ih (a := a.emitFront.1) ?_
    unfold LiteralAutomaton.emitFront
    split <;> exact ⟨placed.nodes, placed.longest, placed.state⟩

variable (layered : Layered built.nodes depth built.maxSecretLength)
include layered

lemma LiteralAutomaton.Placed.read (placed : built.Placed depth a) (b : UInt8) :
    built.Placed depth (a.read b) := by
  have next := (layered.follow_depth a.maxSecretLength b placed.state).imp_right And.left
  rw [← placed.nodes] at next
  unfold LiteralAutomaton.read
  dsimp only
  split <;> exact ⟨placed.nodes, placed.longest, next⟩

/-- Reading keeps the automaton in its layers. -/
lemma LiteralAutomaton.Placed.filter (placed : built.Placed depth a) (bytes : Bytes) :
    built.Placed depth (a.filter bytes).1 := by
  induction bytes generalizing a with
  | nil => exact placed
  | cons b _ ih => exact ih ((placed.read layered b).emitFronts _)

end Placed

/-- **The loops along failure links end.** The automaton of every set of secrets stands in layers,
no deeper than the longest secret. Whatever bytes it has read, falling back for the next byte as
many times as the longest secret has bytes ends where the loop of the source ends: at the root, or at
a node that has an edge for the byte. -/
theorem filter_stops (secrets : List Bytes) (bytes : Bytes) (b : UInt8) :
    let built := LiteralAutomaton.new secrets
    let stop := fallBack built.nodes b (maxLength secrets) (built.filter bytes).1.state
    (∃ depth, Layered built.nodes depth (maxLength secrets)) ∧
      (stop = 0 ∨ (nodeAt built.nodes stop).edge b ≠ none) := by
  obtain ⟨depth, layered⟩ := Layered.ofSecrets secrets
  have placed : (LiteralAutomaton.new secrets).Placed depth (.new secrets) := ⟨rfl, rfl, .inl rfl⟩
  exact ⟨⟨depth, layered⟩, (layered.fallBack_stops b _ (placed.filter layered bytes).state).imp_right
    fun stops => stops.2.2 (layered.bounded _)⟩

end Provenant.Redact

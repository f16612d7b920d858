import Provenant.Graph.Submission

/-!
# Incremental planning and replay

While a graph runs, its driver holds the expanded document and the plan in memory, and changes them
as the graph grows. When the graph is loaded, both are made from scratch: from the document, the
extensions and the stored expansions. An expansion is stored as text. The text of a node has no
computed topology; for the nodes of an expansion it is written beside them, but not for the body of
a loop among them.

## Main definitions

* `reloadAddition` — an addition after it was written and read.
* `replayPlan` — the plan that is made from scratch.
* `DriverMemory`, `MemoryStep` — a driver with the document that it holds in memory, and its steps.
* `GraphNode.storable` — the body of the node has no computed topology.

## Main results

* `expand_reload` — what reading the expansions back does to the expanded document.
* `MemoryReachable.inMemory` — the document and the plan in memory are those of the checkpoint.
* `replay_iff` — they are made again from scratch exactly when the bodies of all added loops are
  storable.
* `replay_loses_members` — a graph for which they are not.
-/

namespace Provenant.Graph

open List Function

open Json (Text text)

/-! ### Reading expansions back -/

/-- The node of a loop body as it is read back. -/
def BodyNode.stored (node : BodyNode) : BodyNode :=
  { node with compositeMembers := [], afterExpansion := [], round := none }

/-- A loop as it is read back. -/
def LoopSpec.stored (spec : LoopSpec) : LoopSpec := { spec with body := spec.body.map (·.stored) }

/-- The node with its loop as it is read back. -/
def GraphNode.forget (node : GraphNode) : GraphNode :=
  { node with loopBody := node.loopBody.map (·.stored) }

/-- The nodes of an expansion as they are read back: their own topology is written beside them. -/
def reloadNode (node : GraphNode) : GraphNode := { node.forget with round := none }

/-- The replacements of a patch as they are read back. -/
def reloadReplacement (node : GraphNode) : GraphNode :=
  { node.forget with compositeMembers := [], afterExpansion := [], round := none }

/-- An addition as it is read back. -/
def reloadAddition (addition : Addition) : Addition :=
  { addition with
    nodes := addition.nodes.map reloadNode
    patch := addition.patch.map fun record =>
      { record with replaced := record.replaced.map reloadReplacement } }

/-- An expansion as it is read back. A tombstone is kept as text. -/
def reloadExpansion : Expansion → Expansion
  | .live addition => .live (reloadAddition addition)
  | .retired addition progress => .retired addition progress

/-- The body of the node has no computed topology. -/
def GraphNode.storable (node : GraphNode) : Bool :=
  node.loopBody.all fun spec => spec.body.all fun child =>
    child.compositeMembers.isEmpty && child.afterExpansion.isEmpty && child.round.isNone

/-- A node of a body is read back as it was if it has no computed topology. -/
lemma BodyNode.stored_eq_self_iff (node : BodyNode) : node.stored = node ↔
    node.compositeMembers = [] ∧ node.afterExpansion = [] ∧ node.round = none := by
  constructor
  · intro same
    have members := congrArg (·.compositeMembers) same
    have edges := congrArg (·.afterExpansion) same
    have round := congrArg (·.round) same
    exact ⟨members.symm, edges.symm, round.symm⟩
  · rintro ⟨members, edges, round⟩
    cases node
    subst members edges round
    rfl

/-- Only a storable node is read back as it was. -/
lemma GraphNode.forget_eq_self_iff (node : GraphNode) :
    node.forget = node ↔ node.storable = true := by
  have loop : node.forget = node ↔ node.loopBody.map (·.stored) = node.loopBody := by
    constructor
    · exact fun same => congrArg (·.loopBody) same
    · intro same
      rw [forget, same]
  rw [loop, storable]
  cases node.loopBody with
  | none => simp
  | some spec =>
    have spelled : spec.stored = spec ↔ spec.body.map (·.stored) = spec.body := by
      constructor
      · exact fun same => congrArg (·.body) same
      · intro same
        rw [LoopSpec.stored, same]
    have each : spec.body.map (·.stored) = spec.body ↔ ∀ child ∈ spec.body, child.stored = child := by
      simpa using map_eq_map_iff (f := BodyNode.stored) (g := id)
    simp [spelled, each, BodyNode.stored_eq_self_iff, and_assoc]

/-! ### Additions and loop bodies -/

variable {source : Option GraphNode} {addition : Addition} {node : GraphNode}

/-- What an addition changes of a node has nothing to do with its loop. -/
lemma wireExports_forget (exported : List GraphInput) (name : Text) (node : GraphNode) :
    wireExports exported name node.forget = (wireExports exported name node).forget := by
  refine foldl_hom GraphNode.forget fun node item => ?_
  rw [apply_ite GraphNode.forget]
  rfl

lemma rewireComposite_forget (exported : List GraphInput) (node : GraphNode) :
    rewireComposite source addition exported node.forget =
      (rewireComposite source addition exported node).forget := by
  have composite : node.forget.composite = node.composite := rfl
  unfold rewireComposite
  rw [composite]
  cases node.composite with
  | none => rfl
  | some _ => dsimp only; split <;> rfl

lemma rewireContinuation_forget (addition : Addition) (node : GraphNode) :
    rewireContinuation addition node.forget = (rewireContinuation addition node).forget := by
  unfold rewireContinuation
  cases addition.nodes.head? <;> rfl

lemma joinAddition_forget (node : GraphNode) :
    joinAddition source addition node.forget = (joinAddition source addition node).forget := by
  have waits (edges : List Text) : { node.forget with afterExpansion := edges } =
      GraphNode.forget { node with afterExpansion := edges } := rfl
  have parents : node.forget.dependencies = node.dependencies := rfl
  have edges : node.forget.afterExpansion = node.afterExpansion := rfl
  unfold joinAddition
  rw [parents]
  split
  · rw [edges, waits]
    cases addition.continuation <;> cases addition.closesProducer <;>
      simp [wireExports_forget, rewireComposite_forget, rewireContinuation_forget]
  · rfl

/-- An addition that was read back changes nodes in the same way. -/
lemma joinAddition_reload (source : Option GraphNode) (addition : Addition) :
    joinAddition source (reloadAddition addition) = joinAddition source addition := by
  have awaits : awaited (reloadAddition addition) = awaited addition := by
    simp [awaited, reloadAddition, reloadNode, GraphNode.forget, filter_map, comp_def, any_map]
  have exports : fragmentExports source (reloadAddition addition) =
      fragmentExports source addition := by
    have found (name : Text) : ((addition.nodes.map reloadNode).find? fun node => node.id == name) =
        (addition.nodes.find? fun node => node.id == name).map reloadNode := by
      rw [find?_map]
      rfl
    have known (name : Text) : ((addition.nodes.map reloadNode).any fun node => node.id == name) =
        addition.nodes.any fun node => node.id == name := by
      rw [any_map]
      rfl
    have fallback : fallbackId (reloadAddition addition) = fallbackId addition := rfl
    unfold fragmentExports
    simp only [reloadAddition, found, known, ← map_filterMap, flatMap_map]
    rfl
  have continues : rewireContinuation (reloadAddition addition) = rewireContinuation addition := by
    funext node
    simp only [rewireContinuation, reloadAddition, head?_map]
    cases addition.nodes.head? <;> rfl
  have closes : (reloadAddition addition).closesProducer = addition.closesProducer := by
    simp [Addition.closesProducer, reloadAddition]
  funext node
  unfold joinAddition
  rw [awaits, exports, continues, closes]
  rfl

/-- The node of some identifiers as it is read back. -/
def forgetIn (names : List Text) (node : GraphNode) : GraphNode :=
  if node.id ∈ names then node.forget else node

variable {names : List Text}

lemma forgetIn_of_mem (member : node.id ∈ names) : forgetIn names node = node.forget :=
  if_pos member

lemma forgetIn_of_not_mem (absent : node.id ∉ names) : forgetIn names node = node := if_neg absent

lemma id_forgetIn (names : List Text) (node : GraphNode) : (forgetIn names node).id = node.id := by
  unfold forgetIn
  split <;> rfl

/-- A change of nodes that keeps identifiers and ignores loops can be made before or after. -/
lemma forgetIn_comm {f : GraphNode → GraphNode} (id : ∀ node, (f node).id = node.id)
    (comm : ∀ node, f node.forget = (f node).forget) (node : GraphNode) :
    f (forgetIn names node) = forgetIn names (f node) := by
  unfold forgetIn
  rw [id]
  split
  · exact comm node
  · rfl

/-- The names of rounds are read off a loop that was read back in the same way. -/
lemma restoreRound_reload (boundary : GraphNode) (spec : LoopSpec) :
    restoreRound (reloadNode boundary) spec.stored = restoreRound boundary spec := by
  have body (name : Text) : (spec.stored.body.all fun child => child.id != name) =
      spec.body.all fun child => child.id != name := by
    simp [LoopSpec.stored, all_map, comp_def, BodyNode.stored]
  funext node
  unfold restoreRound
  simp only [body]
  rfl

lemma restoreRounds_reload (addition : Addition) (nodes : List GraphNode) :
    restoreRounds (reloadAddition addition) (nodes.map (forgetIn names)) =
      (restoreRounds addition nodes).map (forgetIn names) := by
  have boundaries : restoreRounds (reloadAddition addition) = restoreRounds addition := by
    funext nodes
    unfold restoreRounds reloadAddition
    rw [foldl_map]
    congr 1
    funext nodes boundary
    have loop : (reloadNode boundary).loopBody = boundary.loopBody.map (·.stored) := rfl
    rw [loop]
    cases boundary.loopBody with
    | none => rfl
    | some spec => exact congrArg (nodes.map ·) (restoreRound_reload boundary spec)
  obtain ⟨read, restored⟩ := exists_restoreRounds addition
  rw [boundaries, restored, restored, map_map, map_map]
  refine map_congr_left fun node _ => ?_
  exact forgetIn_comm (f := fun node => { node with round := read node.id node.round })
    (fun _ => rfl) (fun _ => rfl) node

/-- Storable replacements take the same places after they were read back. -/
lemma foldl_replaceNode_reload {replaced : List GraphNode}
    (storable : ∀ replacement ∈ replaced, replacement.storable = true) (nodes : List GraphNode) :
    (replaced.map reloadReplacement).foldl replaceNode (nodes.map (forgetIn names)) =
      (replaced.foldl replaceNode nodes).map (forgetIn names) := by
  rw [foldl_replaceNode, foldl_replaceNode, map_map, map_map]
  refine map_congr_left fun target _ => ?_
  have found : (replaced.map reloadReplacement).reverse.find? (·.id == target.id) =
      (replaced.reverse.find? (·.id == target.id)).map reloadReplacement := by
    rw [← map_reverse, find?_map]
    rfl
  rw [comp_apply, comp_apply, placed, placed, id_forgetIn, found]
  cases known : replaced.reverse.find? (·.id == target.id) with
  | none => rfl
  | some replacement =>
    have kept : replacement.forget = replacement := (GraphNode.forget_eq_self_iff _).2
      (storable replacement (mem_reverse.1 (mem_of_find?_eq_some known)))
    have loop : replacement.loopBody.map (·.stored) = replacement.loopBody :=
      congrArg (·.loopBody) kept
    rw [Option.map_some]
    dsimp only [forgetIn]
    split <;> split <;> simp [reloadReplacement, GraphNode.forget, loop]

/-- The document with some nodes as they are read back. -/
def GraphDocument.forgetIn (document : GraphDocument) (names : List Text) : GraphDocument :=
  { document with nodes := document.nodes.map (Graph.forgetIn names) }

/-- The replacements of an addition have no computed topology. -/
def Addition.Compiled (addition : Addition) : Prop :=
  ∀ record ∈ addition.patch, ∀ node ∈ record.replaced, node.storable = true

lemma forgetIn_append {more : List Text} (absent : node.id ∉ more) :
    forgetIn (names ++ more) node = forgetIn names node := by
  simp [forgetIn, absent]

variable {document : GraphDocument}

/-- The nodes of a document before and after an addition that was read back. -/
lemma map_joinAddition_reload (names : List Text)
    (fresh : ∀ node ∈ document.nodes, node.id ∉ ids addition.nodes)
    {source source' : Option GraphNode} (plan : source'.bind (·.plan) = source.bind (·.plan)) :
    (document.nodes.map (forgetIn names)).map (joinAddition source' (reloadAddition addition)) =
      (document.nodes.map (joinAddition source addition)).map
        (forgetIn (names ++ ids addition.nodes)) := by
  rw [joinAddition_reload, joinAddition_congr addition plan, map_map, map_map]
  refine map_congr_left fun node member => ?_
  rw [comp_apply, comp_apply,
    forgetIn_comm (id_joinAddition source addition) joinAddition_forget,
    forgetIn_append (by rw [id_joinAddition]; exact fresh node member)]

/-- The added nodes themselves, with their round. -/
lemma map_added_reload (names : List Text) (addition : Addition)
    (round : GraphNode → Option LoopRound) (same : ∀ child, round (reloadNode child) = round child) :
    ((addition.nodes.map reloadNode).map fun child => { child with round := round child }) =
      (addition.nodes.map fun child => { child with round := round child }).map
        (forgetIn (names ++ ids addition.nodes)) := by
  rw [map_map, map_map]
  refine map_congr_left fun child member => ?_
  have known : child.id ∈ names ++ ids addition.nodes := mem_append_right _ (mem_map_of_mem member)
  have step : forgetIn (names ++ ids addition.nodes) { child with round := round child } =
      GraphNode.forget { child with round := round child } := forgetIn_of_mem known
  rw [comp_apply, comp_apply, step, same]
  rfl

/-- An addition that was read back joins a document of which some nodes were. -/
lemma append_reload (compiled : addition.Compiled)
    (fresh : ∀ node ∈ document.nodes, node.id ∉ ids addition.nodes) :
    append (document.forgetIn names) (reloadAddition addition) =
      (append document addition).forgetIn (names ++ ids addition.nodes) := by
  have found : ((document.forgetIn names).nodes.find? fun node => node.id == addition.source) =
      (document.nodes.find? fun node => node.id == addition.source).map (forgetIn names) := by
    unfold GraphDocument.forgetIn
    rw [find?_map]
    congr 2
    funext node
    exact congrArg (· == addition.source) (id_forgetIn names node)
  have source : (reloadAddition addition).source = addition.source := rfl
  unfold append
  rw [source, found]
  generalize (document.nodes.find? fun node => node.id == addition.source) = source
  obtain ⟨plan, round⟩ : (source.map (forgetIn names)).bind (·.plan) = source.bind (·.plan) ∧
      (source.map (forgetIn names)).bind (·.round) = source.bind (·.round) := by
    cases source with
    | none => exact ⟨rfl, rfl⟩
    | some _ =>
      simp only [Option.map_some, Option.bind_some, forgetIn]
      split <;> exact ⟨rfl, rfl⟩
  have joined := map_joinAddition_reload names fresh plan
  have nodes := congrArg₂ (· ++ ·) joined (map_added_reload names addition
    (fun child => (source.bind (·.round)).map fun round =>
      { round with isUntil := false, nodeId := child.id }) fun _ => rfl)
  rw [← map_append] at nodes
  dsimp only
  rw [round]
  cases record : addition.patch with
  | none =>
    have unpatched : (reloadAddition addition).patch = none := by rw [reloadAddition, record]; rfl
    rw [unpatched]
    exact congrArg (fun nodes => { document with nodes }) nodes
  | some edits =>
    have patched : (reloadAddition addition).patch =
        some { edits with replaced := edits.replaced.map reloadReplacement } := by
      rw [reloadAddition, record]; rfl
    rw [patched]
    refine congrArg (fun nodes => { document with nodes }) ?_
    refine Eq.trans ?_ (foldl_replaceNode_reload (compiled edits record) _)
    rw [← restoreRounds_reload]
    exact congrArg (fun nodes => (edits.replaced.map reloadReplacement).foldl replaceNode
      (restoreRounds (reloadAddition addition) nodes)) nodes

/-- An addition that was read back has its source in the same documents. -/
lemma sourced_reload (document : GraphDocument) (seen : List (Text × Option Nat))
    (addition : Addition) :
    sourced (document.forgetIn names) seen (reloadAddition addition) =
      sourced document seen addition := by
  have known : ((document.forgetIn names).nodes.any fun node => node.id == addition.source) =
      document.nodes.any fun node => node.id == addition.source := by
    simp only [GraphDocument.forgetIn, any_map, comp_def, id_forgetIn]
  unfold sourced
  have source : (reloadAddition addition).source = addition.source := rfl
  have generation : (reloadAddition addition).retryGeneration = addition.retryGeneration := rfl
  rw [source, generation, known]
  simp [reloadAddition]

/-- Additions that were read back join a document of which some nodes were. -/
lemma appendAll_reload {expanded : GraphDocument} {seen : List (Text × Option Nat)}
    {additions : List Addition} (h : appendAll document seen additions = some expanded)
    (nodup : (ids expanded.nodes).Nodup) (compiled : ∀ addition ∈ additions, addition.Compiled) :
    appendAll (document.forgetIn names) seen (additions.map reloadAddition) =
      some (expanded.forgetIn (names ++ additions.flatMap fun addition => ids addition.nodes)) := by
  induction additions generalizing document seen names with
  | nil =>
    cases h
    simp [appendAll]
  | cons addition rest ih =>
    rw [appendAll] at h
    split at h
    next isSourced =>
      have fresh : ∀ node ∈ document.nodes, node.id ∉ ids addition.nodes := by
        rw [ids_appendAll h, ids_append, append_assoc] at nodup
        intro node member added
        exact (disjoint_of_nodup_append nodup) (mem_map_of_mem member)
          (mem_append_left _ added)
      have patched : (reloadAddition addition).patch.isSome = addition.patch.isSome := by
        simp [reloadAddition]
      rw [map_cons, appendAll, sourced_reload, if_pos isSourced,
        append_reload (compiled addition mem_cons_self) fresh, patched,
        flatMap_cons, ← append_assoc]
      exact ih h fun other later => compiled other (mem_cons_of_mem _ later)
    · cases h

/-- What reading the expansions back does to the expanded document. -/
theorem expand_reload {expanded : GraphDocument} {extensions : List Extension}
    {expansions : List Expansion} (h : expand document extensions expansions = some expanded)
    (nodup : (ids expanded.nodes).Nodup)
    (compiled : ∀ addition ∈ liveAdditions expansions, addition.Compiled) :
    expand document extensions (expansions.map reloadExpansion) =
      some (expanded.forgetIn (liveIds expansions)) := by
  obtain ⟨unrolled, unrolls, h⟩ := Option.bind_eq_some_iff.1 h
  have live : liveAdditions (expansions.map reloadExpansion) =
      (liveAdditions expansions).map reloadAddition := by
    unfold liveAdditions
    rw [filterMap_map, map_filterMap]
    refine filterMap_congr fun expansion _ => ?_
    cases expansion <;> rfl
  have unread : unrolled.forgetIn [] = unrolled := by
    have kept : unrolled.nodes.map (Graph.forgetIn []) = unrolled.nodes :=
      (map_congr_left fun node _ => forgetIn_of_not_mem not_mem_nil).trans (map_id _)
    rw [GraphDocument.forgetIn, kept]
  unfold expand
  rw [unrolls, live, Option.bind_some]
  nth_rewrite 1 [← unread]
  exact appendAll_reload h nodup compiled

/-! ### The plan in memory -/

/-- `validate_flat_plan`: a document is refused, or its nodes are put in order. -/
structure FlatPlanner where
  plan : GraphDocument → Option PlannedGraph
  sound : ∀ document planned, plan document = some planned → Plans document planned

/-- The plan that is made from scratch when the graph is loaded. -/
def replayPlan (planner : FlatPlanner) (document : GraphDocument) (checkpoint : GraphCheckpoint) :
    Option PlannedGraph :=
  (expand document checkpoint.extensions (checkpoint.expansions.map reloadExpansion)).bind
    planner.plan

/-- A driver with the expanded document that it holds in memory. Replacements are compiled from
text, so that their bodies have no computed topology. -/
structure DriverMemory (document : GraphDocument) where
  driver : Driver document
  expanded : GraphDocument
  compiled : ∀ addition ∈ liveAdditions driver.checkpoint.expansions, addition.Compiled

variable {document : GraphDocument}

/-- How a step changes the document and the plan in memory: the result of a producer joins the
document in memory, other changes of the graph expand it anew. -/
def Replanned (planner : FlatPlanner) (s s' : DriverMemory document) : Event → Prop
  | .expand _ => ∃ addition,
      s'.driver.checkpoint.expansions = s.driver.checkpoint.expansions ++ [.live addition] ∧
        s'.expanded = append s.expanded addition ∧ planner.plan s'.expanded = some s'.driver.plan
  | .patch _ | .retry _ | .extend _ =>
      expand document s'.driver.checkpoint.extensions s'.driver.checkpoint.expansions =
        some s'.expanded ∧ planner.plan s'.expanded = some s'.driver.plan
  | _ => s'.expanded = s.expanded

/-- A step of the driver with what it holds in memory. -/
structure MemoryStep (planner : FlatPlanner) (policy : ReviewPolicy) (event : Event)
    (s s' : DriverMemory document) : Prop where
  step : Step policy event s.driver s'.driver
  replanned : Replanned planner s s' event

/-- The document and the plan in memory are those of the checkpoint. -/
structure InMemory (planner : FlatPlanner) (s : DriverMemory document) : Prop where
  expanded : expand document s.driver.checkpoint.extensions s.driver.checkpoint.expansions =
    some s.expanded
  plan : planner.plan s.expanded = some s.driver.plan

/-- The states that runs reach, from a graph whose plan was made before its first pass. -/
def MemoryReachable (planner : FlatPlanner) (policy : ReviewPolicy) (s : DriverMemory document) : Prop :=
  ∃ start : DriverMemory document, (Initial start.driver ∧ InMemory planner start) ∧
    Relation.ReflTransGen (fun s s' => ∃ event, MemoryStep planner policy event s s') start s

variable {policy : ReviewPolicy} {planner : FlatPlanner}

/-- A result that joins the graph leaves the extensions alone. -/
lemma Step.extensions_of_expand {id : Text} {s s' : Driver document}
    (step : Step policy (.expand id) s s') :
    s'.checkpoint.extensions = s.checkpoint.extensions := by
  cases step with
  | expand _ _ _ _ _ _ _ _ _ replans =>
    rw [replans.checkpoint]
    rfl

variable {s : DriverMemory document}

/-- A step keeps the document and the plan in memory up to date. -/
lemma MemoryStep.inMemory {event : Event} {s' : DriverMemory document}
    (step : MemoryStep planner policy event s s') (held : InMemory planner s) :
    InMemory planner s' := by
  have quiet (same : event.replans = false) (unchanged : s'.expanded = s.expanded) :
      InMemory planner s' := by
    have topology := step.step.sameTopology same
    exact ⟨by rw [topology.extensions, topology.expansions, unchanged]; exact held.expanded,
      by rw [unchanged, topology.plan]; exact held.plan⟩
  cases event with
  | expand =>
    obtain ⟨addition, grown, appended, planned⟩ := step.replanned
    refine ⟨?_, planned⟩
    obtain ⟨_, expands, -⟩ := s'.driver.planned
    obtain ⟨seen, concat⟩ := expand_concat document s.driver.checkpoint.extensions
      s.driver.checkpoint.expansions addition
    rw [step.step.extensions_of_expand, grown, concat, held.expanded, Option.bind_some] at expands ⊢
    split at expands
    · rw [if_pos (by assumption), appended]
    · cases expands
  | patch | retry | extend => exact ⟨step.replanned.1, step.replanned.2⟩
  | start | finish | visit | attempt | begin | cancel | resume | deliver | note =>
    exact quiet rfl step.replanned

/-- In every state of a run the document and the plan in memory are those of the checkpoint. -/
theorem MemoryReachable.inMemory (reached : MemoryReachable planner policy s) :
    InMemory planner s := by
  obtain ⟨start, ⟨-, held⟩, run⟩ := reached
  induction run with
  | refl => exact held
  | tail _ step ih =>
    obtain ⟨event, step⟩ := step
    exact step.inMemory ih

/-- The plan that is made from scratch is that of the document in memory, with the added nodes as
they are read back. -/
lemma InMemory.replayPlan_eq (held : InMemory planner s) :
    replayPlan planner document s.driver.checkpoint =
      planner.plan (s.expanded.forgetIn (liveIds s.driver.checkpoint.expansions)) := by
  have nodup : (ids s.expanded.nodes).Nodup :=
    ((planner.sound _ _ held.plan).perm.map _).nodup_iff.1 s.driver.plan.nodup
  rw [replayPlan, expand_reload held.expanded nodup s.compiled]
  rfl

/-- **Planning in steps and planning from scratch agree exactly on storable loops.** In every state
of a run, the plan that is made from the stored graph is the plan in memory, and the rows are in its
order, if and only if no loop that an expansion added has computed topology in its body.

**Proof sketch.** By `MemoryReachable.inMemory` the plan in memory is that of the expanded document,
and by `expand_reload` the other one is that of the same document with the bodies of added loops as
they are read back. Plans are orderings of the nodes of their documents, and identifiers are unique,
so the two plans are the same only if the documents are. -/
theorem replay_iff {s : DriverMemory document} (reached : MemoryReachable planner policy s) :
    (replayPlan planner document s.driver.checkpoint = some s.driver.plan ∧
      s.driver.checkpoint.nodes.map (·.id) = s.driver.plan.nodes.map (·.id)) ↔
    ∀ node ∈ s.driver.plan.nodes, node.id ∈ liveIds s.driver.checkpoint.expansions →
      node.storable = true := by
  have held := reached.inMemory
  have plans := planner.sound _ _ held.plan
  have nodup : (ids s.expanded.nodes).Nodup := (plans.perm.map _).nodup_iff.1 s.driver.plan.nodup
  rw [held.replayPlan_eq]
  constructor
  · rintro ⟨replayed, -⟩ node member added
    have origin := (planner.sound _ _ replayed).perm.mem_iff.1 member
    obtain ⟨other, known, same⟩ := mem_map.1 origin
    have unique : other = node := inj_on_of_nodup_map nodup known (plans.perm.mem_iff.1 member)
      (by rw [← same, id_forgetIn])
    rw [unique, forgetIn_of_mem added] at same
    exact (GraphNode.forget_eq_self_iff node).1 same
  · intro storable
    have kept : s.expanded.nodes.map (forgetIn (liveIds s.driver.checkpoint.expansions)) =
        s.expanded.nodes := by
      refine (map_congr_left fun node member => ?_).trans (map_id _)
      by_cases added : node.id ∈ liveIds s.driver.checkpoint.expansions
      · rw [forgetIn_of_mem added]
        exact (GraphNode.forget_eq_self_iff node).2
          (storable node (plans.perm.mem_iff.2 member) added)
      · exact forgetIn_of_not_mem added
    rw [GraphDocument.forgetIn, kept]
    exact ⟨held.plan, s.driver.aligned⟩

/-! ### A loop around a composite -/

/-- A task, and a composite of this task. -/
def checkBody (composed : Bool) : List BodyNode :=
  if composed then
    [{ id := text "check--lens" },
      { id := text "check"
        kind := some .composite
        composite := some {
          exports := [{ node := text "check--lens", outputs := [.result] }]
          minSuccessful := none
          reduceVerdict := false }
        compositeMembers := [text "check--lens"]
        afterExpansion := [text "check--lens"] }]
  else [{ id := text "check" }]

variable (composed : Bool)

/-- A loop of the task or the composite, and the gate that ends it. -/
def checkedRounds : LoopSpec :=
  { body := checkBody composed ++ [
      { id := text "done"
        kind := some .gate
        condition := some .budget
        dependsOn := [text "check"] }]
    untilGate := text "done"
    maxRounds := 1
    repair := false }

/-- A patch of the host that adds the loop to a graph. -/
def roundsAddition : Addition :=
  { source := []
    nodes := unroll
      { id := text "rounds", kind := some .loop, loopBody := some (checkedRounds composed)
        dependsOn := [text "publish"] } (checkedRounds composed) 1
    patch := some { parent := none, reason := none, skipped := [], replaced := [] } }

/-- Plans as plan validation orders them. -/
def flatPlanner : FlatPlanner where
  plan document := (planInOrder document).toOption
  sound document plan planned := plans_planInOrder document plan (Fallible.toOption_eq_some planned)

/-- The graph of three tasks before its first pass. -/
def draftStart : DriverMemory draftDocument where
  driver := {
    plan := draftPlan
    checkpoint := { expansions := [], nodes := draftPlan.nodes.map freshRow }
    phase := .idle
    begun := []
    planned := ⟨draftDocument, rfl, rfl, rfl, rfl, .refl _⟩
    aligned := rfl }
  expanded := draftDocument
  compiled := fun _ member => absurd member not_mem_nil

/-- The plan with the loop. -/
def roundsPlan : PlannedGraph :=
  { graphId := text "draft", nodes := (append draftDocument (roundsAddition composed)).nodes
    nodup := by cases composed <;> decide, closed := by cases composed <;> decide
    ordered := by cases composed <;> decide, wellFormed := by cases composed <;> decide }

/-- The graph after the loop was added. -/
def draftRounds : DriverMemory draftDocument where
  driver := {
    plan := roundsPlan composed
    checkpoint := commit draftStart.driver.checkpoint (roundsAddition composed) (roundsPlan composed)
    phase := .idle
    begun := []
    planned := ⟨append draftDocument (roundsAddition composed), rfl, rfl, rfl, rfl, .refl _⟩
    aligned := by cases composed <;> decide }
  expanded := append draftDocument (roundsAddition composed)
  compiled := by
    intro addition member record patched node replaced
    cases (mem_singleton.1 member)
    cases patched
    cases replaced

/-- The host adds the loop. -/
lemma memoryReachable_draftRounds (policy : ReviewPolicy) :
    MemoryReachable flatPlanner policy (draftRounds composed) := by
  have initial : Initial draftStart.driver :=
    ⟨rfl, rfl, rfl, rfl, .cons (.inl ⟨{}, rfl⟩) (.cons (.inl ⟨{}, rfl⟩) (.cons (.inl ⟨{}, rfl⟩) .nil))⟩
  have planned : flatPlanner.plan (draftRounds composed).expanded = some (roundsPlan composed) := by
    cases composed <;> rfl
  refine ⟨draftStart, ⟨initial, rfl, rfl⟩, .single ⟨.patch (roundsAddition composed), ?_, rfl, planned⟩⟩
  have fresh : ∀ node ∈ (roundsAddition composed).nodes, node.id ∉ ids draftDocument.nodes := by
    cases composed <;> decide
  have admissible :
      (roundsAddition composed).Admissible draftDocument draftStart.driver.checkpoint := by
    refine ⟨fun record patched id skipped => ?_, fun record patched node replaced => ?_, fresh⟩
    · cases patched
      cases skipped
    · cases patched
      cases replaced
  refine .patch rfl admissible ⟨⟨_, rfl, rfl, rfl, rfl, .refl _⟩, ?_⟩ ⟨rfl, rfl, rfl, rfl⟩
  simp [fitsEnvelope, maxCheckpointBytes, draftStart]

/-- After a loop of a task is added the plan can be made again. -/
theorem replay_iff_draftRounds :
    liveIds (draftRounds false).driver.checkpoint.expansions ≠ [] ∧
      replayPlan flatPlanner draftDocument (draftRounds false).driver.checkpoint =
        some (roundsPlan false) ∧
      (draftRounds false).driver.checkpoint.nodes.map (·.id) = (roundsPlan false).nodes.map (·.id) :=
  ⟨by decide, (replay_iff (memoryReachable_draftRounds false silentPolicy)).2 (by decide)⟩

/-- **A stored loop forgets the members of its composites.** The host adds a loop whose body has a
composite. In the plan that is made from the stored graph, the composite in the body of the loop
has no members. -/
theorem replay_loses_members :
    MemoryReachable flatPlanner silentPolicy (draftRounds true) ∧
    (replayPlan flatPlanner draftDocument (draftRounds true).driver.checkpoint).map (·.nodes) ≠
      some (draftRounds true).driver.plan.nodes := by
  refine ⟨memoryReachable_draftRounds true silentPolicy, ?_⟩
  decide +kernel

end Provenant.Graph

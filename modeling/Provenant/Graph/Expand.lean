import Provenant.Graph.Model

/-!
# The expanded document

The plan of a graph is derived again on every load from three things: the submitted document,
the accepted extensions and the admitted expansions. Loops are unrolled to the rounds they are
allowed, then each expansion that is not retired adds its nodes and joins the consumers of its
source to them.

## Main definitions

* `roundId`, `allowance`, `roundNode`, `expandLoops` — unrolling of loops.
* `append` — one addition joins the document.
* `expand` — the expanded document.

## Main results

* `ids_append` — an addition appends its identifiers and keeps all others.
* `ids_expand` — the identifiers of the expanded document.
* `allowance_le_of_subset` — extensions only ever raise the rounds of a loop.
-/

namespace Provenant.Graph

open List

open Json (Text text decimal)

/-! ### Names -/

/-- `loops::id`: the name of a body node in one round of its loop. -/
def roundId (owner : Text) (round : Nat) (node : Text) : Text :=
  owner ++ text "--r" ++ decimal round ++ text "--" ++ node

/-- The body node of the round before that a name refers to. -/
def previousName (name : Text) : Option Text :=
  if (text "previous.").isPrefixOf name then some (name.drop (text "previous.").length) else none

/-- Add a name unless it is there. -/
def addName (names : List Text) (name : Text) : List Text :=
  if names.contains name then names else names ++ [name]

/-! ### Loops -/

/-- `allowance`: the rounds that a loop may take, with the extensions accepted so far. -/
def allowance (node : GraphNode) (extensions : List Extension) : Nat :=
  extensions.foldl
    (fun rounds extension =>
      match extension with
      | .rounds loop target => if loop = node.id then max rounds target else rounds
      | .decision .. | .other .. => rounds)
    ((node.loopBody.map (·.maxRounds)).getD 0)

/-- The node that a body input selects from in one round. -/
def roundInput (owner : Text) (spec : LoopSpec) (round : Nat) (input : GraphInput) : GraphInput :=
  { input with
    node :=
      match previousName input.node with
      | some previous => roundId owner (round - 1) previous
      | none =>
        if spec.body.any fun child => child.id == input.node then roundId owner round input.node
        -- an outer node is selected afresh in every round
        else input.node }

/-- The findings that a delta reviewer reads in one round. -/
def lensInputs (node : GraphNode) (spec : LoopSpec) (round : Nat) : List GraphInput :=
  let previous := [text "synthesis", text "check"].find? fun name =>
    spec.body.any fun child => child.id == name
  match previous with
  | some previous =>
    if 1 < round then [{ node := roundId node.id (round - 1) previous, outputs := [.findings] }]
    else node.inputs
  | none => node.inputs

/-- Merge the selections of a loop into those of a body node of its first round. -/
def mergeInputs (own outer : List GraphInput) : List GraphInput :=
  outer.foldl
    (fun merged input =>
      if merged.any fun item => item.node == input.node then
        merged.map fun item =>
          if item.node = input.node then
            { item with
              outputs :=
                item.outputs ++ input.outputs.filter fun kind => !item.outputs.contains kind
              requiredOutputs := item.requiredOutputs ++
                input.requiredOutputs.filter fun kind => !item.requiredOutputs.contains kind }
          else item
      else merged ++ [input])
    own

/-- The parents that a body node has in one round before its inputs are counted. -/
def roundParents (node : GraphNode) (spec : LoopSpec) (round : Nat) (child : BodyNode) :
    List Text :=
  let declared := child.dependsOn.map (roundId node.id round)
  let declared :=
    match child.source with
    | some (.node source) => addName declared (roundId node.id round source)
    | _ => declared
  if declared.isEmpty then
    if round = 1 then node.dependsOn else [roundId node.id (round - 1) spec.untilGate]
  else declared

/-- A body node in one round of its loop. -/
def roundNode (node : GraphNode) (spec : LoopSpec) (round : Nat) (child : BodyNode) : GraphNode :=
  let name := roundId node.id round
  let own := (child.inputs.filter fun input => 1 < round || (previousName input.node).isNone).map
    (roundInput node.id spec round)
  let parents := own.foldl (fun names input => addName names input.node)
    (roundParents node spec round child)
  let lens := if spec.repair && child.repairLens.isSome then lensInputs node spec round else []
  let inputs := lens.foldl
    (fun inputs input =>
      if inputs.any fun item => item.node == input.node then inputs else inputs ++ [input]) own
  let first := round = 1 ∧ child.dependsOn = []
  { toBodyNode := { child with
      id := name child.id
      round := some {
        loopId := node.id
        round
        nodeId := child.id
        isUntil := child.id == spec.untilGate
        previousGate := if 1 < round then some (roundId node.id (round - 1) spec.untilGate)
          else none }
      dependsOn := lens.foldl (fun names input => addName names input.node) parents
      afterExpansion := child.afterExpansion.map name
      compositeMembers := child.compositeMembers.map name
      composite := child.composite.map fun composite =>
        { composite with exports := composite.exports.map fun export_ =>
            { export_ with node := name export_.node } }
      source :=
        match child.source with
        | some (.node source) => some (.node (name source))
        | some (.head writer) =>
          some (.head (if spec.body.any fun item => item.id == writer then name writer else writer))
        | other => other
      ciNode := child.ciNode.map fun target =>
        if spec.body.any fun item => item.id == target then name target else target
      skipWithoutFindings :=
        if first then node.skipWithoutFindings.or child.skipWithoutFindings
        else child.skipWithoutFindings
      inputs := if first then mergeInputs inputs node.inputs else inputs }
    loopBody := none }

/-- The rounds of a loop, then its boundary, which waits for the gate of the last round. -/
def unroll (node : GraphNode) (spec : LoopSpec) (rounds : Nat) : List GraphNode :=
  ((List.range' 1 rounds).flatMap fun round => spec.body.map (roundNode node spec round)) ++
    [{ node with dependsOn := node.dependsOn ++ [roundId node.id rounds spec.untilGate] }]

/-- The body nodes that precede one of `names`, directly or through others. -/
def ancestors (body : List BodyNode) : Nat → List Text → List Text
  | 0, names => names
  | steps + 1, names =>
    ancestors body steps
      ((body.filter fun child => names.contains child.id).foldl
        (fun found child => child.dependencies.foldl addName found) names)

/-- What the expansion requires of a loop: its gate follows the entire body, and body nodes
neither route failures, nor land, nor refer to a commit of a round before the first. -/
def LoopSpec.admissible (spec : LoopSpec) : Bool :=
  0 < spec.maxRounds &&
  (spec.body.any fun child => child.id == spec.untilGate && child.condition.isSome) &&
  (spec.body.all fun child => child.onFail.isNone && !child.land && child.round.isNone &&
    (child.ciNode.all fun target => (previousName target).isNone) &&
    match child.source with
    | some (.node source) => (previousName source).isNone
    | _ => true) &&
  spec.body.all fun child => (ancestors spec.body spec.body.length [spec.untilGate]).contains child.id

/-- `loops::expand` on a document whose composites are flattened. -/
def expandLoops (document : GraphDocument) (extensions : List Extension) :
    Option GraphDocument :=
  if document.nodes.all fun node => node.loopBody.all (·.admissible) then
    some { document with
      nodes := document.nodes.flatMap fun node =>
        match node.loopBody with
        | some spec => unroll node spec (allowance node extensions)
        | none => [node] }
  else none

/-! ### Additions -/

/-- `generation_namespace`: each redo of a producer names its additions anew. -/
def generationNamespace (source : Text) : Option Nat → Text
  | some generation => source ++ text "--redo-" ++ decimal generation
  | none => source

/-- `fallback_id`: the node that stands for the static fallback of a planner. -/
def fallbackId (addition : Addition) : Text :=
  generationNamespace addition.source addition.retryGeneration ++ text "--fallback"

/-- The outputs in a list of selections, each once. -/
def selectedKinds (inputs : List GraphInput) : List OutputKind :=
  (inputs.flatMap (·.outputs)).foldl
    (fun kinds kind => if kinds.contains kind then kinds else kinds ++ [kind]) []

/-- `fragment_exports`: what the fragment of a planner exports in the place of its source. -/
def fragmentExports (source : Option GraphNode) (addition : Addition) : List GraphInput :=
  match (source.bind (·.plan)).filter (·.wireExports) with
  | none => []
  | some spec =>
    match spec.fallback.filter fun _ =>
        addition.nodes.any fun node => node.id == fallbackId addition with
    | some fallback =>
      [{ node := fallbackId addition, outputs := selectedKinds fallback.exports }]
    | none =>
      let exports := (addition.uses.filterMap fun use =>
          addition.nodes.find? fun node => node.id == use.id).flatMap fun node =>
        match node.composite with
        | some composite => composite.exports
        | none => [{ node := node.id, outputs := [.result] }]
      if spec.plannedReview then
        exports.mapIdx fun index item =>
          { item with outputs := item.outputs.filter fun kind =>
              kind == .result || kind == .findings || (index == 0 && kind == .commit) }
      else exports

/-- `wire_exports`: a consumer also reads what the fragment exports of what it asked for. -/
def wireExports (exported : List GraphInput) (source : Text) (node : GraphNode) : GraphNode :=
  let wanted := (node.inputs.filter fun input => input.node == source).flatMap (·.outputs)
  exported.foldl
    (fun node item =>
      let outputs := item.outputs.filter wanted.contains
      if outputs.isEmpty || node.inputs.any (fun input => input.node == item.node) then node
      else
        { node with
          inputs := node.inputs ++ [{ node := item.node, outputs }]
          dependsOn := addName node.dependsOn item.node })
    node

/-- The member count that a review planner imposes on the composite around it. -/
def reviewMinimum (source : Option GraphNode) : Option (Option Nat) :=
  ((source.bind (·.plan)).filter (·.plannedReview)).map (·.reviewMinSuccessful)

/-- The member count that the reduced composite of a fallback enforces itself. -/
def fallbackMinimum (source : Option GraphNode) : Option (Option Nat) :=
  ((source.bind (·.plan)).bind (·.fallback)).bind fun fallback =>
    match fallback.nodes with
    | [some composite] => if composite.reduceVerdict then some composite.minSuccessful else none
    | _ => none

/-- A composite whose export was the producer exports the fragment instead. -/
def rewireComposite (source : Option GraphNode) (addition : Addition)
    (exported : List GraphInput) (node : GraphNode) : GraphNode :=
  match node.composite with
  | none => node
  | some composite =>
    if (composite.reduceVerdict || (reviewMinimum source).isSome) &&
        (composite.exports.any fun item => item.node == addition.source) then
      let minimum := (reviewMinimum source).getD composite.minSuccessful
      let reduced := (fallbackMinimum source == some minimum || (reviewMinimum source).isSome) &&
        exported.map (·.node) == [fallbackId addition]
      { node with
        composite := some { composite with
          minSuccessful := if reduced then some 1 else minimum
          exports := (composite.exports.filter fun item => item.node != addition.source) ++
            exported }
        compositeMembers := (node.compositeMembers.filter fun member => member != addition.source)
          ++ exported.map (·.node) }
    else node

/-- A continuation takes the place of its source in what consumers read. -/
def rewireContinuation (addition : Addition) (node : GraphNode) : GraphNode :=
  match addition.nodes.head? with
  | none => node
  | some next =>
    let redirected := fun input : GraphInput =>
      if input.node = addition.source then { input with node := next.id } else input
    { node with
      composite := node.composite.map fun composite =>
        { composite with exports := composite.exports.map redirected }
      inputs := node.inputs.map redirected
      dependsOn :=
        if node.inputs.any fun input => input.node == addition.source then
          addName node.dependsOn next.id
        else node.dependsOn }

/-- The nodes of an addition that its source's consumers wait for: all but the detached ones
and what is inside those. -/
def awaited (addition : Addition) : List Text :=
  (addition.nodes.filter fun node =>
    !addition.nodes.any fun root =>
      root.detached && (node.id == root.id || inside root.id node.id)).map (·.id)

/-- A node of the document as the addition leaves it. -/
def joinAddition (source : Option GraphNode) (addition : Addition) (node : GraphNode) :
    GraphNode :=
  if node.dependencies.contains addition.source then
    let exported := fragmentExports source addition
    let node := { node with afterExpansion := node.afterExpansion ++ awaited addition }
    let node :=
      if !addition.continuation && addition.closesProducer then
        rewireComposite source addition exported (wireExports exported addition.source node)
      else node
    if addition.continuation then rewireContinuation addition node else node
  else node

/-- The round and the local name in the name of a round node of `boundary`. -/
def parseRound (boundary : Text) (id : Text) : Option (Nat × Text) :=
  let start := boundary ++ text "--r"
  if start.isPrefixOf id then
    let rest := id.drop start.length
    let digits := rest.takeWhile fun byte => 48 ≤ byte && byte ≤ 57
    let tail := rest.drop digits.length
    if digits ≠ [] ∧ (text "--").isPrefixOf tail then
      some (digits.foldl (fun value byte => 10 * value + (byte.toNat - 48)) 0,
        tail.drop (text "--").length)
    else none
  else none

/-- `restore_patch_rounds` for one loop that a patch added. -/
def restoreRound (boundary : GraphNode) (spec : LoopSpec) (node : GraphNode) : GraphNode :=
  match parseRound boundary.id node.id with
  | none => node
  | some (round, localName) =>
    if round = 0 ∨ (spec.body.all fun child => child.id != localName) then node
    else
      { node with
        round := some {
          loopId := boundary.id
          round
          nodeId := localName
          isUntil := localName == spec.untilGate
          previousGate := if 1 < round then some (roundId boundary.id (round - 1) spec.untilGate)
            else none } }

/-- `restore_patch_rounds`: the rounds of loops that a patch added are read off their names. -/
def restoreRounds (addition : Addition) (nodes : List GraphNode) : List GraphNode :=
  addition.nodes.foldl
    (fun nodes boundary =>
      match boundary.loopBody with
      | some spec => nodes.map (restoreRound boundary spec)
      | none => nodes)
    nodes

/-- A replacement takes the topology of the node that it replaces. -/
def replaceNode (nodes : List GraphNode) (replacement : GraphNode) : List GraphNode :=
  nodes.map fun target =>
    if target.id = replacement.id then
      { replacement with
        compositeMembers := target.compositeMembers
        afterExpansion := target.afterExpansion
        round := target.round }
    else target

/-- `append`: an addition joins the document. Its nodes belong to the round of their source. -/
def append (document : GraphDocument) (addition : Addition) : GraphDocument :=
  let source := document.nodes.find? fun node => node.id == addition.source
  let added := addition.nodes.map fun child =>
    { child with
      round := (source.bind (·.round)).map fun round =>
        { round with isUntil := false, nodeId := child.id } }
  let nodes := document.nodes.map (joinAddition source addition) ++ added
  { document with
    nodes :=
      match addition.patch with
      | some record => record.replaced.foldl replaceNode (restoreRounds addition nodes)
      | none => nodes }

/-- The addition has a source in the document. A patch may come from the host, which has none,
and may only edit; any other addition is the only one of its producer's generation. -/
def sourced (document : GraphDocument) (seen : List (Text × Option Nat)) (addition : Addition) :
    Bool :=
  let known := document.nodes.any fun node => node.id == addition.source
  if addition.patch.isSome then addition.source.isEmpty || known
  else
    !addition.nodes.isEmpty && !seen.contains (addition.source, addition.retryGeneration) && known

/-- The additions join a document one after the other. -/
def appendAll (document : GraphDocument) (seen : List (Text × Option Nat)) :
    List Addition → Option GraphDocument
  | [] => some document
  | addition :: rest =>
    if sourced document seen addition then
      appendAll (append document addition)
        (if addition.patch.isSome then seen
          else (addition.source, addition.retryGeneration) :: seen) rest
    else none

/-- `plans::expand`: loops are unrolled to the rounds they may take, and the additions that are
still live are appended in the order of their admission. -/
def expand (document : GraphDocument) (extensions : List Extension)
    (expansions : List Expansion) : Option GraphDocument :=
  (expandLoops document extensions).bind fun expanded =>
    appendAll expanded [] (liveAdditions expansions)

/-! ### Identifiers -/

/-- The identifiers of a list of nodes. -/
def ids (nodes : List GraphNode) : List Text := nodes.map (·.id)

/-- The node with other places to wait for, to read from and to export. -/
def Rewired (node node' : GraphNode) : Prop :=
  ∃ dependsOn inputs afterExpansion composite compositeMembers, node' =
    { node with dependsOn, inputs, afterExpansion, composite, compositeMembers }

lemma Rewired.refl (node : GraphNode) : Rewired node node := ⟨_, _, _, _, _, rfl⟩

lemma Rewired.trans {first second third : GraphNode} (h : Rewired first second)
    (h' : Rewired second third) : Rewired first third := by
  obtain ⟨_, _, _, _, _, rfl⟩ := h
  obtain ⟨_, _, _, _, _, rfl⟩ := h'
  exact ⟨_, _, _, _, _, rfl⟩

lemma rewired_wireExports (exported : List GraphInput) (source : Text) (node : GraphNode) :
    Rewired node (wireExports exported source node) := by
  refine foldlRecOn exported _ (.refl node)
    fun found rewired _ _ => rewired.trans ?_
  dsimp only
  split
  · exact .refl found
  · exact ⟨_, _, _, _, _, rfl⟩

lemma rewired_rewireComposite (source : Option GraphNode) (addition : Addition)
    (exported : List GraphInput) (node : GraphNode) :
    Rewired node (rewireComposite source addition exported node) := by
  unfold rewireComposite
  cases node.composite with
  | none => exact .refl node
  | some _ => dsimp only; split <;> exact ⟨_, _, _, _, _, rfl⟩

lemma rewired_rewireContinuation (addition : Addition) (node : GraphNode) :
    Rewired node (rewireContinuation addition node) := by
  unfold rewireContinuation
  cases addition.nodes.head? <;> exact ⟨_, _, _, _, _, rfl⟩

/-- An addition rewires the nodes that are there, and leaves the rest of them alone. -/
lemma rewired_joinAddition (source : Option GraphNode) (addition : Addition) (node : GraphNode) :
    Rewired node (joinAddition source addition node) := by
  unfold joinAddition
  split
  · have waits : Rewired node { node with afterExpansion := node.afterExpansion ++ awaited addition } :=
      ⟨_, _, _, _, _, rfl⟩
    refine waits.trans ?_
    dsimp only
    split <;> split
    · exact ((rewired_wireExports ..).trans (rewired_rewireComposite ..)).trans
        (rewired_rewireContinuation ..)
    · exact rewired_rewireContinuation ..
    · exact (rewired_wireExports ..).trans (rewired_rewireComposite ..)
    · exact .refl _
  · exact .refl node

lemma id_joinAddition (source : Option GraphNode) (addition : Addition) (node : GraphNode) :
    (joinAddition source addition node).id = node.id := by
  obtain ⟨_, _, _, _, _, same⟩ := rewired_joinAddition source addition node
  rw [same]

/-- A round is read off the name of a node, and the rest of the node is left alone. -/
lemma restoreRound_eq (boundary : GraphNode) (spec : LoopSpec) (node : GraphNode) :
    restoreRound boundary spec node = { node with
      round := (restoreRound boundary spec
        { boundary with id := node.id, round := node.round }).round } := by
  unfold restoreRound
  cases parseRound boundary.id node.id with
  | none => rfl
  | some _ => dsimp only; split <;> rfl

/-- The rounds that a patch restores depend on the names and the rounds of the nodes. -/
lemma exists_restoreRounds (addition : Addition) :
    ∃ read : Text → Option LoopRound → Option LoopRound, ∀ nodes,
      restoreRounds addition nodes =
        nodes.map fun node => { node with round := read node.id node.round } := by
  unfold restoreRounds
  induction addition.nodes with
  | nil => exact ⟨fun _ round => round, fun nodes => (map_id nodes).symm⟩
  | cons boundary _ ih =>
    obtain ⟨read, restored⟩ := ih
    simp only [foldl_cons, restored]
    cases boundary.loopBody with
    | none => exact ⟨read, fun _ => rfl⟩
    | some spec =>
      refine ⟨fun id round => read id (restoreRound boundary spec
        { boundary with id, round }).round, fun nodes => ?_⟩
      rw [map_map]
      refine map_congr_left fun node _ => ?_
      rw [Function.comp_apply, restoreRound_eq]

/-- A node after some replacements: the last one of its name takes its place. -/
def placed (replaced : List GraphNode) (target : GraphNode) : GraphNode :=
  match replaced.reverse.find? (·.id == target.id) with
  | some replacement =>
    { replacement with
      compositeMembers := target.compositeMembers
      afterExpansion := target.afterExpansion
      round := target.round }
  | none => target

lemma id_placed (replaced : List GraphNode) (target : GraphNode) :
    (placed replaced target).id = target.id := by
  unfold placed
  cases found : replaced.reverse.find? (·.id == target.id) with
  | none => rfl
  | some _ => simpa using find?_some found

lemma placed_of_not_mem {replaced : List GraphNode} {target : GraphNode}
    (absent : target.id ∉ ids replaced) : placed replaced target = target := by
  have none : replaced.reverse.find? (·.id == target.id) = none := by simpa [ids] using absent
  rw [placed, none]

lemma foldl_replaceNode (replaced nodes : List GraphNode) :
    replaced.foldl replaceNode nodes = nodes.map (placed replaced) := by
  induction replaced generalizing nodes with
  | nil => exact (map_id nodes).symm
  | cons replacement rest ih =>
    rw [foldl_cons, ih, replaceNode, map_map]
    refine map_congr_left fun target _ => ?_
    rw [Function.comp_apply]
    unfold placed
    rw [reverse_cons, find?_append]
    by_cases same : target.id = replacement.id
    · rw [if_pos same, same]
      cases rest.reverse.find? (·.id == replacement.id) <;> simp
    · rw [if_neg same]
      cases rest.reverse.find? (·.id == target.id) <;> simp [Ne.symm same]

/-- An addition appends its identifiers and keeps all others. -/
lemma ids_append (document : GraphDocument) (addition : Addition) :
    ids (append document addition).nodes = ids document.nodes ++ ids addition.nodes := by
  obtain ⟨read, restored⟩ := exists_restoreRounds addition
  unfold append
  cases addition.patch with
  | none => simp [ids, Function.comp_def, id_joinAddition]
  | some _ =>
    simp [ids, Function.comp_def, foldl_replaceNode, restored, id_placed, id_joinAddition]

variable {document : GraphDocument} {extensions : List Extension} {node : GraphNode}

lemma ids_appendAll {expanded : GraphDocument} {seen : List (Text × Option Nat)}
    {additions : List Addition} (h : appendAll document seen additions = some expanded) :
    ids expanded.nodes = ids document.nodes ++ additions.flatMap fun a => ids a.nodes := by
  induction additions generalizing document seen with
  | nil => simp [show document = expanded by simpa [appendAll] using h]
  | cons _ _ ih =>
    rw [appendAll] at h
    split at h
    · rw [ih h, ids_append, flatMap_cons, append_assoc]
    · cases h

/-- The identifiers of the expanded document: those of the unrolled document, then those of
the live additions. -/
lemma ids_expand {expanded : GraphDocument} {expansions : List Expansion}
    (h : expand document extensions expansions = some expanded) :
    ∃ unrolled, expandLoops document extensions = some unrolled ∧
      ids expanded.nodes =
        ids unrolled.nodes ++ (liveAdditions expansions).flatMap fun a => ids a.nodes := by
  obtain ⟨unrolled, hu, ha⟩ := Option.bind_eq_some_iff.1 h
  exact ⟨unrolled, hu, ids_appendAll ha⟩

/-! ### The last addition -/

/-- The last addition joins what the ones before it come to. -/
lemma appendAll_concat (document : GraphDocument) (seen : List (Text × Option Nat))
    (additions : List Addition) (last : Addition) :
    ∃ seen', appendAll document seen (additions ++ [last]) =
      (appendAll document seen additions).bind fun expanded =>
        if sourced expanded seen' last then some (append expanded last) else none := by
  induction additions generalizing document seen with
  | nil => exact ⟨seen, by simp [appendAll]⟩
  | cons _ _ ih =>
    rw [cons_append, appendAll, appendAll]
    split
    · exact ih _ _
    · exact ⟨seen, rfl⟩

/-- `appendAll_concat` for the expansions of a checkpoint. -/
lemma expand_concat (document : GraphDocument) (extensions : List Extension)
    (expansions : List Expansion) (last : Addition) :
    ∃ seen, expand document extensions (expansions ++ [.live last]) =
      (expand document extensions expansions).bind fun expanded =>
        if sourced expanded seen last then some (append expanded last) else none := by
  have live : liveAdditions (expansions ++ [.live last]) = liveAdditions expansions ++ [last] := by
    simp [liveAdditions]
  unfold expand
  rw [live]
  cases expandLoops document extensions with
  | none => exact ⟨[], rfl⟩
  | some unrolled => exact appendAll_concat unrolled [] (liveAdditions expansions) last

/-! ### Extensions only add rounds -/

/-- The allowance of a loop is the greatest of its own rounds and the targets it was extended
to. -/
lemma allowance_le_iff {bound : Nat} :
    allowance node extensions ≤ bound ↔
      ((node.loopBody.map (·.maxRounds)).getD 0 ≤ bound ∧
        ∀ target, Extension.rounds node.id target ∈ extensions → target ≤ bound) := by
  unfold allowance
  generalize (node.loopBody.map (·.maxRounds)).getD 0 = start
  induction extensions generalizing start with
  | nil => simp
  | cons extension _ ih =>
    rw [foldl_cons, ih]
    cases extension with
    | rounds loop target =>
      by_cases same : loop = node.id
      · simp only [same, if_true, max_le_iff, mem_cons, Extension.rounds.injEq, true_and]
        constructor
        · rintro ⟨⟨hs, ht⟩, hr⟩
          exact ⟨hs, by rintro t (rfl | h) <;> [exact ht; exact hr t h]⟩
        · rintro ⟨hs, hr⟩
          exact ⟨⟨hs, hr target (.inl rfl)⟩, fun t h => hr t (.inr h)⟩
      · have other : ∀ t, Extension.rounds node.id t ≠ Extension.rounds loop target := by
          intro t h
          exact same (Extension.rounds.inj h).1.symm
        simp [same, other]
    | decision | other => simp

variable {extensions' : List Extension}

/-- Extensions that keep every target leave every loop at least its rounds. -/
lemma allowance_le_of_subset (h : ∀ loop target, Extension.rounds loop target ∈ extensions →
      Extension.rounds loop target ∈ extensions') :
    allowance node extensions ≤ allowance node extensions' := by
  have bound := allowance_le_iff.1 (le_refl (allowance node extensions'))
  exact allowance_le_iff.2 ⟨bound.1, fun target ht => bound.2 target (h _ _ ht)⟩

lemma mem_ids_unroll {spec : LoopSpec} {rounds : Nat} {id : Text} :
    id ∈ ids (unroll node spec rounds) ↔
      id = node.id ∨ ∃ round child, 1 ≤ round ∧ round ≤ rounds ∧ child ∈ spec.body ∧
        id = roundId node.id round child.id := by
  simp only [ids, unroll, map_append, mem_append, mem_map, mem_flatMap, mem_range'_1, mem_singleton]
  constructor
  · rintro (⟨_, ⟨round, hr, child, hc, rfl⟩, rfl⟩ | ⟨_, rfl, rfl⟩)
    · exact .inr ⟨round, child, hr.1, by omega, hc, rfl⟩
    · exact .inl rfl
  · rintro (rfl | ⟨round, child, h₁, h₂, hc, rfl⟩)
    · exact .inr ⟨_, rfl, rfl⟩
    · exact .inl ⟨_, ⟨round, ⟨h₁, by omega⟩, child, hc, rfl⟩, rfl⟩

/-- With extensions that keep every target, the unrolled document keeps every identifier. -/
lemma ids_expandLoops_subset {unrolled unrolled' : GraphDocument}
    (h : expandLoops document extensions = some unrolled)
    (h' : expandLoops document extensions' = some unrolled')
    (keeps : ∀ loop target, Extension.rounds loop target ∈ extensions →
      Extension.rounds loop target ∈ extensions') : ids unrolled.nodes ⊆ ids unrolled'.nodes := by
  unfold expandLoops at h h'
  split at h
  next admissible =>
    rw [if_pos admissible] at h'
    cases h
    cases h'
    intro id hid
    simp only [ids, map_flatMap, mem_flatMap] at hid ⊢
    obtain ⟨node, hnode, hid⟩ := hid
    refine ⟨node, hnode, ?_⟩
    cases hl : node.loopBody with
    | none => simpa [hl] using hid
    | some _ =>
      rw [hl] at hid
      rcases mem_ids_unroll.1 hid with rfl | ⟨round, child, h₁, h₂, hc, rfl⟩
      · exact mem_ids_unroll.2 (.inl rfl)
      · exact mem_ids_unroll.2
          (.inr ⟨round, child, h₁, h₂.trans (allowance_le_of_subset keeps), hc, rfl⟩)
  · cases h

end Provenant.Graph

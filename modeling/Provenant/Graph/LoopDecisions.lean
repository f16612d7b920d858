import Provenant.Data.Related
import Provenant.Graph.Replay

/-!
# Decisions on exhausted loops

Once the rounds of a loop are exhausted, its owner stops it, accepts its outputs, or extends it. The
decision comes with a request to resume the graph or as the answer to a question; both are checked by
`validate_resume_extension`, recorded among the extensions of the graph, and change its plan.

## Main definitions

* `acceptLoops` — the checks of the extensions of one request.
* `LoopStep` — the steps of a run with a log of the decisions and the redos.
* `Grounded` — what a decision in the log rests on.

## Main results

* `decisions_grounded` — every decision that a run records comes for an exhausted loop without a
  terminal decision, and raises its allowance within the bounds.
* `recorded_again` — a decision that is recorded already is accepted again, and changes nothing.

## Implementation notes

The reply to a question is given as it is decoded.
-/

namespace Provenant.Graph

open List Option

open Json (Text text decimal)
open Fallible

/-! ### Bounds of expansion -/

/-- The greatest number of rounds that a loop may let one decision add. -/
def loopExtensionRounds : Nat := 1024

/-- The greatest number of nodes of a graph with loops. -/
def loopExpansionNodes : Nat := 16384

/-- `refusal`: why a value exceeds its bound, if it does. -/
def boundRefusal (name : Text) (maximum actual : Nat) : Option Text :=
  if maximum < actual then
    some (text "limits." ++ name ++ text "=" ++ decimal maximum ++ text " reached (" ++
      decimal actual ++ text "); set by internal loop expansion safety")
  else none

/-- What `expanded_node_count` says about one loop, if it refuses it. -/
def loopBoundsError (extensions : List Extension) (node : GraphNode) : Option Text :=
  node.loopBody.bind fun spec =>
    let fault (reason : Text) := text "node " ++ node.id ++ text ": " ++ reason
    if spec.repair && !(1 ≤ spec.maxRounds && spec.maxRounds ≤ 3) then
      some (text "review repair max_rounds must be between one and three")
    else if spec.maxRounds = 0 then some (fault (text "loop.max_rounds must be positive"))
    else if spec.maxExtensionRounds = 0 then
      some (fault (text "loop.max_extension_rounds must be positive"))
    else
      match boundRefusal (text "loop_extension_rounds") loopExtensionRounds
        spec.maxExtensionRounds with
      | some reason => some (fault (text "loop.max_extension_rounds: " ++ reason))
      | none => boundRefusal (text "loop_expansion_rounds") loopExpansionRounds
          (allowance node extensions)

/-- The nodes that one node of the document expands to. -/
def expandedSize (extensions : List Extension) (node : GraphNode) : Nat :=
  match node.loopBody with
  | some spec => spec.body.length * allowance node extensions + 1
  | none => 1

/-- `expanded_node_count`: the number of nodes after the loops are expanded. -/
def expandedNodeCount (document : GraphDocument) (extensions : List Extension) : Except Text Nat :=
  match document.nodes.findSome? (loopBoundsError extensions) with
  | some reason => .error reason
  | none =>
    let count := (document.nodes.map (expandedSize extensions)).sum
    match (if document.nodes.any (·.loopBody.isSome) then
      boundRefusal (text "loop_expansion_nodes") loopExpansionNodes count else none) with
    | some reason => .error reason
    | none => .ok count

/-! ### Requests -/

/-- The checks of the extensions of one request: each is checked against the graph as it is, and
against the graph with the extensions before it. -/
def acceptLoops (document : GraphDocument) (view : GraphCheckpoint) (requested : List Extension) :
    Except Text (List Extension) :=
  (requested.filter (·.loop?.isSome)).foldlM
    (fun recorded extension => do
      validateResumeExtension document view extension
      validateResumeExtension document { view with extensions := recorded } extension
      return record recorded extension)
    view.extensions

/-- What the owner of a loop answers. -/
inductive LoopAnswer
  | stop
  | extend (rounds : Nat)
  | accept
  deriving DecidableEq

/-- `LoopDecision::parse`: one of the options, or a reply in its place. -/
def LoopAnswer.parse (option : Option Text) (reply : Option (Option LoopAnswer)) :
    Option LoopAnswer :=
  match option, reply with
  | some option, none =>
    if option = text "stop" then some .stop
    else if option = text "extend" then some (.extend 1)
    else if option = text "accept" then some .accept
    else none
  | none, some (some (.extend rounds)) => if 0 < rounds then some (.extend rounds) else none
  | none, some (some answer) => some answer
  | _, _ => none

/-- `apply`: the extension that an answer asks for, after so many rounds. -/
def LoopAnswer.extension (loop : Text) (rounds : Nat) : LoopAnswer → Extension
  | .stop => .decision loop .stop
  | .accept => .decision loop .accept
  | .extend extra => .rounds loop (rounds + extra)

/-! ### Runs with a log -/

/-- What a run did about loops. -/
inductive LoopEvent
  /-- An extension was recorded, for the rows of a view of the graph. -/
  | accepted (extension : Extension) (view : GraphCheckpoint)
  /-- The nodes of some identifiers were redone. -/
  | redone (names : List Text)

/-- The extensions of a request that are not recorded yet. -/
def newExtensions : List Extension → List Extension → List Extension
  | _, [] => []
  | recorded, extension :: rest =>
    if recorded.contains extension then newExtensions recorded rest
    else extension :: newExtensions (recorded ++ [extension]) rest

/-- The extensions that a log records. -/
def acceptedExtensions (log : List LoopEvent) : List Extension :=
  log.filterMap fun
    | .accepted extension _ => some extension
    | .redone _ => none

/-- A state of the driver, with what happened to its loops so far. -/
structure Logged (document : GraphDocument) where
  driver : Driver document
  log : List LoopEvent

/-- The event neither records extensions nor redoes nodes. -/
def Event.undecided : Event → Bool
  | .retry _ | .extend _ => false
  | _ => true

section Steps

variable {document : GraphDocument}

/-- Where the extensions of a request come from. -/
inductive Requested (s : Driver document) (requested : List Extension) : Prop
  /-- The graph is resumed between passes. -/
  | host (idle : s.phase = .idle)
  /-- The owner of a loop answered, and the answer was checked. -/
  | answer {index : Nat} {node : GraphNode} {spec : LoopSpec} {option : Option Text}
      {reply : Option (Option LoopAnswer)} {answer : LoopAnswer}
      (visiting : s.phase = .visiting index) (placed : s.plan.nodes[index]? = some node)
      (loop : node.loopBody = some spec) (parsed : LoopAnswer.parse option reply = some answer)
      (asks : requested = [answer.extension node.id (lastRound (roundRows s.checkpoint node.id))])
      (prepared : ∀ extension ∈ requested,
        validateResumeExtension document s.checkpoint extension = .ok ())

/-- The steps of a run, with the log of its decisions. The log grows by a redo and by a
resumption with decisions on loops; every other step of the driver leaves it alone. -/
inductive LoopStep (policy : ReviewPolicy) : Logged document → Logged document → Prop
  | drive {event : Event} {state state' : Logged document}
      (step : Step policy event state.driver state'.driver) (undecided : event.undecided = true)
      (logged : state'.log = state.log) : LoopStep policy state state'
  /-- Nodes are redone, on request or by the driver itself. -/
  | redo {state state' : Logged document} {id : Text} {brief : Option Text} {dependants : Bool}
      {settled candidate : GraphCheckpoint} {node target : GraphNode} {expanded : GraphDocument}
      (step : Step policy (.retry id) state.driver state'.driver)
      (failed : settled = state.driver.checkpoint ∨ settled =
        state.driver.checkpoint.update id fun row => { row with state := .failed })
      (redo : retryCandidate document settled id brief dependants = some (candidate, node))
      (extensions : state'.driver.checkpoint.extensions = candidate.extensions)
      (planned : expand document settled.extensions settled.expansions = some expanded)
      (found : expanded.nodes.find? (·.id == id) = some target)
      (logged : state'.log = state.log ++ [.redone (resetIds expanded settled target dependants)]) :
      LoopStep policy state state'
  /-- The graph is resumed with a larger budget. -/
  | budget {state state' : Logged document} {requested : List Extension}
      {reopened : GraphCheckpoint} (others : ∀ extension ∈ requested, extension.loop? = none)
      (reopens : applyResume state.driver.checkpoint requested = some reopened)
      (moves : Moves state.driver state'.driver reopened .idle)
      (logged : state'.log = state.log) : LoopStep policy state state'
  /-- The graph is resumed with decisions on loops. -/
  | resume {state state' : Logged document} {requested recorded : List Extension}
      {view reopened : GraphCheckpoint} {expanded : GraphDocument} {plan : PlannedGraph} {count : Nat}
      (cause : Requested state.driver requested)
      (loops : requested.any (·.loop?.isSome) = true)
      (views : restoreCancelledNodes state.driver.checkpoint = some view)
      (accepted : acceptLoops document view requested = .ok recorded)
      (reopens : applyResume state.driver.checkpoint requested = some reopened)
      (counted : expandedNodeCount document reopened.extensions = .ok count)
      (after : expand document reopened.extensions reopened.expansions = some expanded)
      (plans : Plans expanded plan)
      (replans : Replans state.driver state'.driver
        (reconcile (unpauseLoops requested reopened) plan) plan)
      (logged : state'.log = state.log ++
        (newExtensions view.extensions (requested.filter (·.loop?.isSome))).map (.accepted · view)) :
      LoopStep policy state state'

/-- The document is admitted: its identifiers are unique, and its loops are within their bounds. -/
structure LoopsAdmitted (document : GraphDocument) : Prop where
  unique : (ids document.nodes).Nodup
  counted : ∃ count, expandedNodeCount document [] = .ok count

/-- A graph before its first pass. -/
structure Undecided (state : Logged document) : Prop where
  initial : Initial state.driver
  log : state.log = []

/-- What an accepted extension rests on, after the log before it: the loop is exhausted, every
terminal decision on it was undone by a redo of the loop, and a new allowance raises the one that the
loop had by at least one round, and by no more than one decision may add. -/
def Grounded (document : GraphDocument) (before : List LoopEvent) (extension : Extension)
    (view : GraphCheckpoint) : Prop :=
  ∃ node ∈ document.nodes, ∃ spec, node.loopBody = some spec ∧ extension.loop? = some node.id ∧
    (∃ row, view.row? node.id = some row ∧ exhausted view row = true) ∧
    (∀ earlier decision view' later,
      before = earlier ++ .accepted (.decision node.id decision) view' :: later →
        ∃ names, .redone names ∈ later ∧ node.id ∈ names) ∧
    ∀ target, extension = .rounds node.id target →
      allowance node (acceptedExtensions before) + 1 ≤
        allowance node (acceptedExtensions before ++ [extension]) ∧
      allowance node (acceptedExtensions before ++ [extension]) ≤
        allowance node (acceptedExtensions before) + spec.maxExtensionRounds

end Steps

/-! ### What the checks say -/

variable {spec : LoopSpec} {node : GraphNode} {view : GraphCheckpoint}

section Checks

variable {document : GraphDocument} {checkpoint : GraphCheckpoint} {extension : Extension}

variable {extensions : List Extension}

/-- A loop that can be extended is a loop of the document. -/
lemma mem_of_extensibleLoop {loop : Text} (h : extensibleLoop document loop = .ok spec) :
    ∃ node ∈ document.nodes, node.id = loop ∧ node.loopBody = some spec := by
  unfold extensibleLoop at h
  split at h
  · cases h
  next spec' found =>
    split at h
    · cases h
    · cases h
      obtain ⟨node, finds, body⟩ := bind_eq_some_iff.1 found
      have named := find?_some finds
      simp only [Bool.and_eq_true, beq_iff_eq] at named
      exact ⟨node, mem_of_find?_eq_some finds, named.1, body⟩

/-- A valid extension is about a loop of the document, and its allowance is within the bound. -/
lemma loop_of_validateExtension (h : validateExtension document extension = .ok ()) :
    ∃ node ∈ document.nodes, ∃ spec, node.loopBody = some spec ∧ extension.loop? = some node.id ∧
      ∀ loop target, extension = .rounds loop target → target ≤ loopExpansionRounds := by
  cases extension with
  | other => cases h
  | decision =>
    obtain ⟨spec, found, -⟩ := bind_eq_ok.1 h
    obtain ⟨node, member, rfl, body⟩ := mem_of_extensibleLoop found
    exact ⟨node, member, spec, body, rfl, nofun⟩
  | rounds loop target =>
    obtain ⟨spec, found, bounds⟩ := bind_eq_ok.1 h
    obtain ⟨node, member, rfl, body⟩ := mem_of_extensibleLoop found
    split at bounds
    next within =>
      refine ⟨node, member, spec, body, rfl, fun _ _ same => ?_⟩
      cases same
      exact within.2
    · cases bounds

/-- What the check of a new extension implies. -/
lemma validateResumeExtension_new
    (h : validateResumeExtension document checkpoint extension = .ok ())
    (new : extension ∉ checkpoint.extensions) :
    validateExtension document extension = .ok () ∧
      checkpoint.extensions.any (·.decides (extension.loop?.getD [])) = false ∧
      (∃ row, checkpoint.row? (extension.loop?.getD []) = some row ∧ exhausted checkpoint row = true) ∧
      validateTarget document checkpoint.extensions extension = .ok () := by
  obtain ⟨_, valid, h⟩ := bind_eq_ok.1 h
  rw [if_neg (fun known => new (contains_iff_mem.1 known))] at h
  dsimp only at h
  split at h
  · cases h
  rename_i undecided
  have undecided : checkpoint.extensions.any (·.decides (extension.loop?.getD [])) = false := by
    simpa using undecided
  cases found : checkpoint.row? (extension.loop?.getD []) with
  | none =>
    simp only [found] at h
    cases h
  | some row =>
    simp only [found] at h
    split at h
    · cases h
    next ready =>
      exact ⟨valid, undecided, ⟨row, rfl, by simpa using ready⟩, h⟩

/-- A new allowance raises the one that the loop has, within its bound. -/
lemma raises_of_validateTarget (unique : (ids document.nodes).Nodup)
    (member : node ∈ document.nodes) (body : node.loopBody = some spec)
    {target : Nat}
    (h : validateTarget document extensions (.rounds node.id target) = .ok ()) :
    allowance node extensions < target ∧
      target ≤ allowance node extensions + spec.maxExtensionRounds := by
  have found : document.nodes.find? (·.id == node.id) = some node :=
    Related.find?_key_of_nodup unique member
  unfold validateTarget at h
  dsimp only at h
  rw [found] at h
  dsimp only at h
  rw [body] at h
  split at h
  · cases h
  · split at h
    · cases h
    next grows within =>
      simp only [map_some, getD_some] at within
      omega

end Checks

/-! ### The log and the recorded extensions -/

section Tracks

variable {document : GraphDocument} {extensions extensions' : List Extension} {log : List LoopEvent}

/-- An entry of a log that grew by one is the new one, or was there before. -/
lemma split_concat {α : Type} {log earlier later : List α} {last entry : α}
    (h : log ++ [last] = earlier ++ entry :: later) :
    (log = earlier ∧ last = entry) ∨
      ∃ rest, later = rest ++ [last] ∧ log = earlier ++ entry :: rest := by
  rcases eq_nil_or_concat later with rfl | ⟨rest, other, rfl⟩
  · obtain ⟨same, ending⟩ := append_inj' h rfl
    exact .inl ⟨same, singleton_inj.1 ending⟩
  · rw [concat_eq_append, ← cons_append, ← append_assoc] at h
    obtain ⟨same, ending⟩ := append_inj' h rfl
    obtain rfl := singleton_inj.1 ending
    exact .inr ⟨rest, concat_eq_append, same⟩

/-- The recorded extensions are those of the log, and every entry of the log is grounded. -/
structure Tracks (document : GraphDocument) (extensions : List Extension) (log : List LoopEvent) :
    Prop where
  rounds : ∀ loop target,
    .rounds loop target ∈ extensions ↔ .rounds loop target ∈ acceptedExtensions log
  bounded : ∀ loop target, .rounds loop target ∈ extensions → target ≤ loopExpansionRounds
  /-- A terminal decision stays until its loop is redone. -/
  decided : ∀ earlier loop decision view later,
    log = earlier ++ .accepted (.decision loop decision) view :: later →
      (∀ names, .redone names ∈ later → loop ∉ names) → .decision loop decision ∈ extensions
  grounded : ∀ before extension view after, log = before ++ .accepted extension view :: after →
    Grounded document before extension view

lemma Tracks.nil : Tracks document [] [] := by
  refine ⟨fun _ _ => Iff.rfl, nofun, ?_, ?_⟩
  · intro earlier loop decision view later empty
    simp at empty
  · intro before extension view after empty
    simp at empty

/-- Only the extensions that are about loops matter. -/
lemma Tracks.congr (h : Tracks document extensions log)
    (same : ∀ extension, extension.loop?.isSome = true →
      (extension ∈ extensions' ↔ extension ∈ extensions)) : Tracks document extensions' log := by
  refine ⟨fun loop target => ?_, fun loop target member => ?_, ?_, h.grounded⟩
  · rw [same _ rfl]
    exact h.rounds loop target
  · exact h.bounded loop target ((same _ rfl).1 member)
  · intro earlier loop decision view later split kept
    exact (same _ rfl).2 (h.decided earlier loop decision view later split kept)

/-- The allowance of a loop follows from the log. -/
lemma Tracks.allowance_eq (h : Tracks document extensions log) (node : GraphNode) :
    allowance node extensions = allowance node (acceptedExtensions log) :=
  le_antisymm (allowance_le_of_subset fun loop target => (h.rounds loop target).1)
    (allowance_le_of_subset fun loop target => (h.rounds loop target).2)

/-- A redo drops the decisions on what it redoes, or none. -/
lemma Tracks.redone (h : Tracks document extensions log) (names : List Text)
    (drops : extensions' = extensions ∨ extensions' = dropDecisions names extensions) :
    Tracks document extensions' (log ++ [.redone names]) := by
  have accepted : acceptedExtensions (log ++ [.redone names]) = acceptedExtensions log := by
    simp [acceptedExtensions]
  have rounds : ∀ loop target,
      Extension.rounds loop target ∈ extensions' ↔ .rounds loop target ∈ extensions := by
    intro loop target
    rcases drops with rfl | rfl
    · rfl
    · simp [dropDecisions]
  refine ⟨fun loop target => ?_, fun loop target member => ?_, ?_, ?_⟩
  · rw [rounds, accepted]
    exact h.rounds loop target
  · exact h.bounded loop target ((rounds loop target).1 member)
  · intro earlier loop decision view later split kept
    rcases split_concat split with ⟨-, new⟩ | ⟨rest, rfl, old⟩
    · cases new
    have member := h.decided earlier loop decision view rest old fun names' redone =>
      kept names' (mem_append_left _ redone)
    have spared : loop ∉ names := kept names (mem_append_right _ mem_cons_self)
    rcases drops with rfl | rfl
    · exact member
    · exact mem_filter.2 ⟨member, by simpa using spared⟩
  · intro before extension view after split
    rcases split_concat split with ⟨-, new⟩ | ⟨rest, -, old⟩
    · cases new
    · exact h.grounded before extension view rest old

lemma allowance_concat (node : GraphNode) (extensions : List Extension) (target : Nat) :
    allowance node (extensions ++ [.rounds node.id target]) =
      max (allowance node extensions) target := by
  simp [allowance, foldl_append]

section Accepting

variable {extension : Extension} (h : Tracks document extensions log)
  (unique : (ids document.nodes).Nodup)
  (valid : validateResumeExtension document { view with extensions } extension = .ok ())
  (new : extension ∉ extensions)
include h unique valid new

/-- A new extension that passes its checks is grounded. -/
lemma Tracks.grounds : Grounded document log extension view := by
  obtain ⟨fits, undecided, ⟨row, found, ready⟩, target⟩ := validateResumeExtension_new valid new
  obtain ⟨node, member, spec, body, named, -⟩ := loop_of_validateExtension fits
  rw [named, getD_some] at undecided found
  refine ⟨node, member, spec, body, named, ⟨row, found, ready⟩, ?_, ?_⟩
  · -- a terminal decision that no redo undid would be recorded
    intro earlier decision view' later split
    by_contra kept
    push Not at kept
    have recorded := h.decided earlier node.id decision view' later split kept
    have none := List.any_eq_false.1 undecided _ recorded
    simp [Extension.decides] at none
  · rintro goal rfl
    obtain ⟨more, within⟩ := raises_of_validateTarget unique member body target
    rw [h.allowance_eq] at more within
    rw [allowance_concat]
    omega

/-- A new extension that passes its checks is recorded. -/
lemma Tracks.accept :
    Tracks document (extensions ++ [extension]) (log ++ [.accepted extension view]) := by
  have grounds := h.grounds unique valid new
  obtain ⟨fits, -⟩ := validateResumeExtension_new valid new
  obtain ⟨-, -, -, -, -, bound⟩ := loop_of_validateExtension fits
  have accepted : acceptedExtensions (log ++ [.accepted extension view]) =
      acceptedExtensions log ++ [extension] := by
    simp [acceptedExtensions]
  refine ⟨fun loop target => ?_, fun loop target member => ?_, ?_, ?_⟩
  · rw [accepted, mem_append, mem_append, h.rounds]
  · rcases mem_append.1 member with old | last
    · exact h.bounded loop target old
    · exact bound loop target (mem_singleton.1 last).symm
  · intro earlier loop decision view' later split kept
    rcases split_concat split with ⟨-, last⟩ | ⟨rest, rfl, old⟩
    · cases last
      exact mem_append_right _ mem_cons_self
    · refine mem_append_left _ (h.decided earlier loop decision view' rest old ?_)
      exact fun names redone => kept names (mem_append_left _ redone)
  · intro before other view' after split
    rcases split_concat split with ⟨rfl, last⟩ | ⟨rest, -, old⟩
    · cases last
      exact grounds
    · exact h.grounded before other view' rest old

end Accepting

/-- The extensions of one request are recorded one after the other. -/
lemma Tracks.acceptAll (unique : (ids document.nodes).Nodup) {requested recorded : List Extension}
    (h : Tracks document extensions log)
    (accepted : requested.foldlM
      (fun recorded extension => do
        validateResumeExtension document view extension
        validateResumeExtension document { view with extensions := recorded } extension
        return record recorded extension) extensions = .ok recorded) :
    recorded = requested.foldl record extensions ∧
      Tracks document recorded
        (log ++ (newExtensions extensions requested).map (.accepted · view)) := by
  induction requested generalizing extensions log with
  | nil =>
    cases accepted
    exact ⟨rfl, by simpa [newExtensions] using h⟩
  | cons extension _ ih =>
    obtain ⟨next, first, accepted⟩ := bind_eq_ok.1 accepted
    obtain ⟨_, -, first⟩ := bind_eq_ok.1 first
    obtain ⟨_, valid, first⟩ := bind_eq_ok.1 first
    cases first
    rw [foldl_cons]
    by_cases known : extension ∈ extensions
    · -- what is recorded already changes nothing
      have same : record extensions extension = extensions := if_pos (contains_iff_mem.2 known)
      rw [same] at accepted ⊢
      rw [newExtensions, if_pos (contains_iff_mem.2 known)]
      exact ih h accepted
    · have grown : record extensions extension = extensions ++ [extension] :=
        if_neg fun member => known (contains_iff_mem.1 member)
      rw [grown] at accepted ⊢
      rw [newExtensions, if_neg fun member => known (contains_iff_mem.1 member)]
      obtain ⟨all, tracks⟩ := ih (h.accept unique valid known) accepted
      refine ⟨all, ?_⟩
      rw [map_cons, ← singleton_append, ← append_assoc]
      exact tracks

end Tracks

/-! ### Every run -/

section Runs

variable {document : GraphDocument} {policy : ReviewPolicy} {s s' : Driver document}
  {state state' start : Logged document}

/-- A step that neither records extensions nor redoes nodes leaves the extensions alone. -/
lemma Step.extensions_of_undecided {event : Event} (step : Step policy event s s')
    (undecided : event.undecided = true) :
    s'.checkpoint.extensions = s.checkpoint.extensions := by
  cases event with
  | expand => exact step.extensions_of_expand
  | patch =>
    cases step with
    | patch _ _ _ replans =>
      rw [replans.checkpoint]
      rfl
  | retry | extend => cases undecided
  | start | finish | visit | attempt | begin | cancel | resume | deliver | note =>
    exact (step.sameTopology rfl).extensions

/-- A redo leaves the recorded extensions alone, or drops the decisions on what it redoes. -/
lemma extensions_of_retryCandidate {settled candidate : GraphCheckpoint} {id : Text}
    {brief : Option Text} {dependants : Bool} {target : GraphNode} {expanded : GraphDocument}
    (redo : retryCandidate document settled id brief dependants = some (candidate, node))
    (planned : expand document settled.extensions settled.expansions = some expanded)
    (found : expanded.nodes.find? (·.id == id) = some target) :
    candidate.extensions = settled.extensions ∨ candidate.extensions =
      dropDecisions (resetIds expanded settled target dependants) settled.extensions := by
  obtain ⟨_, _, _, _, redone, -⟩ := retryCandidate_eq_some redo
  cases redone.planned.symm.trans planned
  cases redone.found.symm.trans found
  rw [← redone.frame.2]
  exact redone.extensions

lemma extensions_restoreCancelledNodes {checkpoint : GraphCheckpoint}
    (h : restoreCancelledNodes checkpoint = some view) :
    view.extensions = checkpoint.extensions := by
  unfold restoreCancelledNodes at h
  split at h
  · obtain ⟨nodes, -, rfl⟩ := map_eq_some_iff.1 h
    rfl
  · cases h

/-- Every step keeps the log and the recorded extensions together. -/
lemma Tracks.step (unique : (ids document.nodes).Nodup)
    (h : Tracks document state.driver.checkpoint.extensions state.log)
    (step : LoopStep policy state state') :
    Tracks document state'.driver.checkpoint.extensions state'.log := by
  cases step with
  | drive step undecided logged =>
    rw [logged, step.extensions_of_undecided undecided]
    exact h
  | redo _ failed redo extensions planned found logged =>
    rw [logged]
    refine h.redone _ ?_
    rw [extensions]
    have drops := extensions_of_retryCandidate redo planned found
    rcases failed with rfl | rfl
    · exact drops
    · exact drops
  | budget others reopens moves logged =>
    rw [logged, moves.checkpoint]
    refine h.congr fun extension loop => ?_
    rw [(applyResume_eq_some reopens).2.2, mem_foldl_record]
    refine ⟨?_, .inl⟩
    rintro (old | new)
    · exact old
    · rw [others extension new] at loop
      cases loop
  | resume _ _ views accepted reopens _ _ _ replans logged =>
    have viewed := extensions_restoreCancelledNodes views
    rw [← viewed] at h
    obtain ⟨all, tracks⟩ := h.acceptAll unique accepted
    rw [logged, replans.checkpoint]
    refine tracks.congr fun extension loop => ?_
    -- the request is recorded together with its other extensions
    dsimp only [reconcile, unpauseLoops]
    rw [all, (applyResume_eq_some reopens).2.2, mem_foldl_record, mem_foldl_record, mem_filter,
      viewed, loop]
    simp

/-- The loops of an admitted document are within their bounds. -/
lemma LoopsAdmitted.maxRounds_le (h : LoopsAdmitted document) (member : node ∈ document.nodes)
    (body : node.loopBody = some spec) : spec.maxRounds ≤ loopExpansionRounds := by
  obtain ⟨count, counted⟩ := h.counted
  unfold expandedNodeCount at counted
  split at counted
  · cases counted
  rename_i fine
  have none := findSome?_eq_none_iff.1 fine node member
  unfold loopBoundsError at none
  rw [body, bind_some] at none
  split at none
  · cases none
  split at none
  · cases none
  split at none
  · cases none
  split at none
  · cases none
  unfold boundRefusal at none
  split at none
  · cases none
  rename_i within
  simp only [allowance, foldl_nil, body, map_some, getD_some] at within
  omega

/-- **The protocol of loop decisions.** In every state of a run the allowance of a loop is at most
`1024` rounds and follows from the log, and every extension in the log was recorded for an exhausted
loop, while no terminal decision on the loop was in force, and raised its allowance by at least one
round and at most by the rounds that one decision may add.

**Proof sketch.** The recorded extensions are those of the log (`Tracks`): a redo drops the terminal
decisions on what it redoes, and a request adds what passed the checks, which are made against all
that is recorded before. -/
theorem decisions_grounded (admitted : LoopsAdmitted document) (undecided : Undecided start)
    (run : Relation.ReflTransGen (LoopStep policy) start state) :
    (∀ node ∈ document.nodes, ∀ spec, node.loopBody = some spec →
      allowance node state.driver.checkpoint.extensions ≤ loopExpansionRounds ∧
        allowance node state.driver.checkpoint.extensions =
          allowance node (acceptedExtensions state.log)) ∧
      ∀ before extension view after,
        state.log = before ++ .accepted extension view :: after →
          Grounded document before extension view := by
  have tracks : Tracks document state.driver.checkpoint.extensions state.log := by
    induction run with
    | refl =>
      rw [undecided.initial.extensions, undecided.log]
      exact .nil
    | tail _ step ih => exact ih.step admitted.unique step
  refine ⟨fun node member spec body => ⟨?_, tracks.allowance_eq node⟩, tracks.grounded⟩
  refine allowance_le_iff.2 ⟨?_, tracks.bounded node.id⟩
  rw [body]
  exact admitted.maxRounds_le member body

end Runs

/-! ### A loop of one round -/

section Example

/-- The document with the rounds under an allowance. -/
def polishDocument (extensions : List Extension) : GraphDocument :=
  { workLoop with nodes := workLoopNodes extensions }

/-- A state of a run under a plan of the loop. -/
def polishing (plan : PlannedGraph) (phase : Phase) (nodes : List NodeProgress)
    (extensions : List Extension) (log : List LoopEvent) (begun : List AttemptKey)
    (aligned : nodes.map (·.id) = plan.nodes.map (·.id) := by rfl)
    (planned : expand workLoop extensions [] = some (polishDocument extensions) := by rfl)
    (plans : Plans (polishDocument extensions) plan := by exact ⟨rfl, rfl, rfl, .refl _⟩) :
    Logged workLoop :=
  { driver := {
      plan
      checkpoint := { extensions, nodes, notes := { askActor := some (text "graph") } }
      phase, begun
      planned := ⟨_, planned, plans⟩
      aligned }
    log }

lemma loopsAdmitted_workLoop : LoopsAdmitted workLoop := ⟨by decide, 3, by decide +kernel⟩

/-- The node at work in the first round. -/
def polishWork : GraphNode := shortPlan.nodes.getD 0 { id := [] }

/-- The gate of the first round. -/
def polishDone : GraphNode := shortPlan.nodes.getD 1 { id := [] }

def polishKey : AttemptKey :=
  { graphId := text "polish", nodeId := polishWork.id, routeIndex := 0, retryGeneration := none
    previousAttemptRef := none }

/-- The work of the first round was launched. -/
def polishBegun : NodeProgress :=
  beginAttempt polishWork polishKey anyRoute none (freshRow polishWork)

/-- The work of the first round is done. -/
def polishWorked : NodeProgress :=
  { polishBegun with
    state := .succeeded
    attempts := polishBegun.attempts.map fun attempt =>
      { attempt with state := .terminal, outcome := some .succeeded } }

/-- The gate of the first round failed. -/
def polishFailed : NodeProgress :=
  { freshRow polishDone with state := .failed, gate := some { passed := false, onFail := none } }

/-- The rows after the first round. -/
def polishRows : List NodeProgress :=
  [polishWorked, polishFailed] ++ (shortPlan.nodes.drop 2).map freshRow

def polishStart : Logged workLoop :=
  polishing shortPlan .idle (shortPlan.nodes.map freshRow) [] [] []

lemma undecided_polishStart : Undecided polishStart :=
  ⟨⟨rfl, rfl, rfl, rfl, forall₂_map_right_iff.2 (forall₂_same.2 fun node _ =>
    .inl ⟨(freshRow node).notes, rfl⟩)⟩, rfl⟩

/-- The round is over, and its gate did not pass. -/
def polishExhausted : Logged workLoop :=
  polishing shortPlan .idle polishRows [] [] [polishKey]

lemma run_polishExhausted :
    Relation.ReflTransGen (LoopStep silentPolicy) polishStart polishExhausted :=
  @run_of_play _ silentPolicy shortPlan (Logged workLoop) _ (fun event _ _ => event.undecided)
    (fun s _ => ⟨s, []⟩) (fun _ _ step undecided => .drive step undecided rfl)
    [.start, .attempt, .begin nothingObserved, .leave polishWorked, .settle polishFailed, .finish]
    polishStart.driver polishExhausted.driver [] [(polishStart.driver.checkpoint, polishKey)] rfl rfl
    (by decide +kernel)

/-- The owner adds a round. -/
def polishExtended : Logged workLoop :=
  polishing longPlan .idle (reconcile polishExhausted.driver.checkpoint longPlan).nodes
    [.rounds (text "polish") 2]
    [.accepted (.rounds (text "polish") 2) polishExhausted.driver.checkpoint] [polishKey]

lemma step_polishExtended : LoopStep silentPolicy polishExhausted polishExtended :=
  @LoopStep.resume _ _ _ _ [.rounds (text "polish") 2] [.rounds (text "polish") 2]
    polishExhausted.driver.checkpoint
    { polishExhausted.driver.checkpoint with extensions := [.rounds (text "polish") 2] } _ longPlan 5
    (.host rfl) rfl
    (by decide +kernel) (by decide +kernel) rfl (by decide +kernel) rfl ⟨rfl, rfl, rfl, .refl _⟩
    ⟨rfl, by decide +kernel, rfl, rfl⟩ rfl

/-- The added round is within the bounds. -/
theorem decisions_grounded_polishExtended :
    acceptedExtensions polishExtended.log = [.rounds (text "polish") 2] ∧
    (∀ node ∈ workLoop.nodes, ∀ spec, node.loopBody = some spec →
      allowance node polishExtended.driver.checkpoint.extensions ≤ loopExpansionRounds ∧
        allowance node polishExtended.driver.checkpoint.extensions =
          allowance node (acceptedExtensions polishExtended.log)) ∧
      ∀ before extension view after,
        polishExtended.log = before ++ .accepted extension view :: after →
          Grounded workLoop before extension view :=
  ⟨rfl, decisions_grounded loopsAdmitted_workLoop undecided_polishStart
    (run_polishExhausted.tail step_polishExtended)⟩

/-- The owner stops the loop. -/
def polishStopped : Logged workLoop :=
  polishing shortPlan .idle polishRows [.decision (text "polish") .stop]
    [.accepted (.decision (text "polish") .stop) polishExhausted.driver.checkpoint] [polishKey]

lemma step_polishStopped : LoopStep silentPolicy polishExhausted polishStopped :=
  @LoopStep.resume _ _ _ _ [.decision (text "polish") .stop] [.decision (text "polish") .stop]
    polishExhausted.driver.checkpoint
    { polishExhausted.driver.checkpoint with extensions := [.decision (text "polish") .stop] } _
    shortPlan 3 (.host rfl) rfl
    (by decide +kernel) (by decide +kernel) rfl (by decide +kernel) rfl ⟨rfl, rfl, rfl, .refl _⟩
    ⟨rfl, by decide +kernel, rfl, rfl⟩ rfl

/-- **A recorded decision is accepted again.** After the owner stopped the loop, and without a redo of
it, a request with the same decision passes the checks and resumes the graph. It raises no
allowance. -/
theorem recorded_again :
    LoopsAdmitted workLoop ∧ Undecided polishStart ∧
      Relation.ReflTransGen (LoopStep silentPolicy) polishStart polishStopped ∧
      polishStopped.driver.checkpoint.extensions = [.decision (text "polish") .stop] ∧
      validateResumeExtension workLoop polishStopped.driver.checkpoint
        (.decision (text "polish") .stop) = .ok () ∧
      acceptLoops workLoop polishStopped.driver.checkpoint [.decision (text "polish") .stop] =
        .ok [.decision (text "polish") .stop] ∧
      LoopStep silentPolicy polishStopped polishStopped := by
  refine ⟨loopsAdmitted_workLoop, undecided_polishStart,
    run_polishExhausted.tail step_polishStopped, rfl, by decide +kernel, by decide +kernel, ?_⟩
  exact @LoopStep.resume _ _ _ _ [.decision (text "polish") .stop] [.decision (text "polish") .stop]
    polishStopped.driver.checkpoint polishStopped.driver.checkpoint _ shortPlan 3 (.host rfl) rfl
    (by decide +kernel) (by decide +kernel) rfl (by decide +kernel) rfl ⟨rfl, rfl, rfl, .refl _⟩
    ⟨rfl, by decide +kernel, rfl, rfl⟩ rfl

end Example

end Provenant.Graph

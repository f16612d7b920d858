import Provenant.Graph.Driver

/-!
# Runs of the driver by choices

A step of the driver leaves open which row a node settles with and what the host observed. Once
this is chosen, the step under a fixed plan can be computed. This file has the driver as a function
of the choices: a list of choices that can be played is a run, for every relation that the chosen
steps belong to.

## Main definitions

* `Choice` — a step, with what it leaves open.
* `Place`, `Place.choose` — the part of a state that such steps change, and what a choice
  makes of it.
* `play` — a list of choices, with a test of every step.

## Main results

* `Step.of_choose` — a choice is a step of the driver.
* `run_of_play` — choices that can be played are a run.

## Implementation notes

The plan stays the same, so the steps that replan are not among the choices.
-/

namespace Provenant.Graph

open List Option

open Json (Text text)

/-! ### Choices -/

/-- A step of the driver under the same plan, with what the step leaves open. -/
inductive Choice
  | start
  | finish
  | note (notes : HostNotes)
  | wait
  | settle (row : NodeProgress)
  | attempt
  | change (row : NodeProgress)
  | leave (row : NodeProgress)
  | begin (facts : LaunchFacts)
  | deliver (attempt : Text)

/-- The part of a state that a step under the same plan changes. -/
structure Place where
  checkpoint : GraphCheckpoint
  phase : Phase
  begun : List AttemptKey
  deriving DecidableEq

/-- The place of a state. -/
def Driver.place {document : GraphDocument} (s : Driver document) : Place :=
  { checkpoint := s.checkpoint, phase := s.phase, begun := s.begun }

instance (row row' : NodeProgress) : Decidable (Keeps row row') :=
  decidable_of_iff (row'.id = row.id ∧ row'.round = row.round ∧
    row'.retryGeneration = row.retryGeneration ∧ row'.containerRetry = row.containerRetry ∧
    row'.previousAttempts = row.previousAttempts ∧
    row'.attempts.map (·.key) = row.attempts.map (·.key))
    ⟨fun h => ⟨h.1, h.2.1, h.2.2.1, h.2.2.2.1, h.2.2.2.2.1, h.2.2.2.2.2⟩,
      fun h => ⟨h.id, h.round, h.generation, h.containerRetry, h.previousAttempts, h.keys⟩⟩

/-- The node settles its own row when it is dispatched. -/
def NodeAction.settles : NodeAction → Bool
  | .composite | .decide | .land | .gate _ => true
  | .wait _ | .loop _ | .attempt => false

/-- The node that the pass has come to, with its index and what it is dispatched to. -/
def Place.visited (policy : ReviewPolicy) (plan : PlannedGraph) (here : Place) :
    Option (Nat × GraphNode × NodeAction × GraphCheckpoint) :=
  match here.phase with
  | .visiting index => plan.nodes[index]?.map fun node =>
      (index, node, nodeAction policy plan here.checkpoint node)
  | .idle | .attempting _ => none

/-- The node that is being attempted, with its index and its row. -/
def Place.attempted (plan : PlannedGraph) (here : Place) :
    Option (Nat × GraphNode × NodeProgress) :=
  match here.phase with
  | .attempting index => plan.nodes[index]?.bind fun node =>
      (here.checkpoint.row? node.id).map fun row => (index, node, row)
  | .idle | .visiting _ => none

/-- The row of a node is replaced, and the driver moves on. -/
def Place.settle (here : Place) (id : Text) (row : NodeProgress) (phase : Phase) : Place :=
  { here with checkpoint := here.checkpoint.update id fun _ => row, phase }

/-- What a choice makes of a place, and what the step is about. -/
def Place.choose (policy : ReviewPolicy) (plan : PlannedGraph) (here : Place) :
    Choice → Option (Event × Place)
  | .start =>
    if here.phase = .idle ∧
        (mayAsk plan = true → here.checkpoint.notes.askActor.isSome = true) then
      some (.start, { here with phase := .visiting 0 })
    else none
  | .finish => some (.finish, { here with phase := .idle })
  | .note notes =>
    if here.phase = .idle then
      some (.note, { here with checkpoint := { here.checkpoint with notes } })
    else none
  | .wait => (here.visited policy plan).bind fun
    | (index, node, .wait _, checkpoint) =>
      some (.visit node.id, { here with checkpoint, phase := .visiting (index + 1) })
    | _ => none
  | .settle row' => (here.visited policy plan).bind fun (index, node, action, _) =>
    (here.checkpoint.row? node.id).bind fun row =>
      if action.settles = true ∧ Keeps row row' then
        some (.visit node.id, here.settle node.id row' (.visiting (index + 1)))
      else none
  | .attempt => (here.visited policy plan).bind fun
    | (index, node, .attempt, _) => some (.attempt node.id, { here with phase := .attempting index })
    | _ => none
  | .change row' => (here.attempted plan).bind fun (index, node, row) =>
    if Keeps row row' ∧ row'.state.settled = false then
      some (.attempt node.id, here.settle node.id row' (.attempting index))
    else none
  | .leave row' => (here.attempted plan).bind fun (index, node, row) =>
    if Keeps row row' then
      some (.attempt node.id, here.settle node.id row' (.visiting (index + 1)))
    else none
  | .begin facts => (here.attempted plan).bind fun (index, node, row) =>
    match nextAttempt node row 0 facts with
    | .candidate routeIndex =>
      node.routes[routeIndex]?.bind fun route =>
        (attemptKey plan node row routeIndex).bind fun key =>
          if needsRecord row = true then
            some (.begin key, {
              checkpoint := here.checkpoint.update node.id (beginAttempt node key route none)
              phase := .attempting index
              begun := key :: here.begun })
          else none
    | _ => none
  | .deliver attempt =>
    if here.phase = .idle ∧ here.checkpoint.cancelled = false then
      some (.deliver, { here with checkpoint := retryDelivered attempt here.checkpoint })
    else none

section Sound

variable {document : GraphDocument} {policy : ReviewPolicy} {s s' : Driver document}

variable {index : Nat} {node : GraphNode} {action : NodeAction} {checkpoint : GraphCheckpoint}

lemma dispatched_of_visited
    (h : s.place.visited policy s.plan = some (index, node, action, checkpoint)) :
    Dispatched policy s index node action checkpoint := by
  unfold Place.visited at h
  split at h
  case h_1 visiting =>
    obtain ⟨_, placed, same⟩ := map_eq_some_iff.1 h
    obtain ⟨rfl, rfl, dispatched⟩ : _ = index ∧ _ = node ∧ _ = (action, checkpoint) := by
      simpa only [Prod.mk.injEq] using same
    exact ⟨visiting, placed, dispatched⟩
  all_goals cases h

lemma visited_of_dispatched (h : Dispatched policy s index node action checkpoint) :
    s.place.visited policy s.plan = some (index, node, action, checkpoint) := by
  simp [Place.visited, Driver.place, h.visiting, h.placed, h.action]

lemma attempting_of_attempted {row : NodeProgress}
    (h : s.place.attempted s.plan = some (index, node, row)) : Attempting s index node row := by
  unfold Place.attempted at h
  split at h
  case h_1 attempting =>
    obtain ⟨_, placed, h⟩ := bind_eq_some_iff.1 h
    obtain ⟨_, found, same⟩ := map_eq_some_iff.1 h
    cases same
    exact ⟨attempting, placed, found⟩
  all_goals cases h

/-- The driver moves on to a chosen place. -/
lemma Moves.of_chosen {here : Place} {chosen event : Event}
    (same : some (chosen, here) = some (event, s'.place)) (plan : s'.plan = s.plan)
    (begun : here.begun = s.begun) :
    chosen = event ∧ here = s'.place ∧ Moves s s' here.checkpoint here.phase := by
  obtain ⟨rfl, rfl⟩ : chosen = event ∧ here = s'.place := by
    simpa only [some.injEq, Prod.mk.injEq] using same
  exact ⟨rfl, rfl, plan, rfl, rfl, begun⟩

lemma NodeAction.kind_of_settles (h : action.settles = true) :
    action = .composite ∨ action = .decide ∨ action = .land ∨
      ∃ condition, action = .gate condition := by
  cases action <;> simp_all [NodeAction.settles]

/-- **A choice is a step of the driver.** -/
lemma Step.of_choose {choice : Choice} {event : Event} (plan : s'.plan = s.plan)
    (chosen : s.place.choose policy s.plan choice = some (event, s'.place)) :
    Step policy event s s' := by
  cases choice with
  | start =>
    obtain ⟨⟨idle, actor⟩, same⟩ := ite_none_right_eq_some.1 chosen
    obtain ⟨rfl, moved, moves⟩ := Moves.of_chosen same plan rfl
    refine .start idle moves fun asks => ?_
    have unchanged : s.checkpoint = s'.checkpoint := congrArg Place.checkpoint moved
    rw [← unchanged]
    exact actor asks
  | finish =>
    obtain ⟨rfl, -, moves⟩ := Moves.of_chosen chosen plan rfl
    exact .finish moves
  | note notes =>
    obtain ⟨idle, same⟩ := ite_none_right_eq_some.1 chosen
    obtain ⟨rfl, -, moves⟩ := Moves.of_chosen same plan rfl
    have idle : s.phase = .idle := idle
    refine .note (forall₂_same.2 fun row _ => ⟨row.notes, rfl⟩)
      ⟨moves.plan, moves.checkpoint, moves.phase, moves.begun⟩ fun index attempting => ?_
    cases idle.symm.trans attempting
  | wait =>
    obtain ⟨⟨index, node, action, checkpoint⟩, visited, same⟩ := bind_eq_some_iff.1 chosen
    cases action with
    | wait =>
      obtain ⟨rfl, -, moves⟩ := Moves.of_chosen same plan rfl
      exact .wait (dispatched_of_visited visited) moves
    | _ => cases same
  | settle =>
    obtain ⟨⟨index, node, action, checkpoint⟩, visited, same⟩ := bind_eq_some_iff.1 chosen
    obtain ⟨row, found, same⟩ := bind_eq_some_iff.1 same
    obtain ⟨⟨settles, keeps⟩, same⟩ := ite_none_right_eq_some.1 same
    obtain ⟨rfl, -, moves⟩ := Moves.of_chosen same plan rfl
    exact .settle (dispatched_of_visited visited) (NodeAction.kind_of_settles settles) found keeps
      moves
  | attempt =>
    obtain ⟨⟨index, node, action, checkpoint⟩, visited, same⟩ := bind_eq_some_iff.1 chosen
    cases action with
    | attempt =>
      obtain ⟨rfl, -, moves⟩ := Moves.of_chosen same plan rfl
      exact .attempt (dispatched_of_visited visited) moves
    | _ => cases same
  | change =>
    obtain ⟨⟨index, node, row⟩, attempted, same⟩ := bind_eq_some_iff.1 chosen
    obtain ⟨⟨keeps, unsettled⟩, same⟩ := ite_none_right_eq_some.1 same
    obtain ⟨rfl, -, moves⟩ := Moves.of_chosen same plan rfl
    exact .change (attempting_of_attempted attempted) keeps unsettled moves
  | leave =>
    obtain ⟨⟨index, node, row⟩, attempted, same⟩ := bind_eq_some_iff.1 chosen
    obtain ⟨keeps, same⟩ := ite_none_right_eq_some.1 same
    obtain ⟨rfl, -, moves⟩ := Moves.of_chosen same plan rfl
    exact .leave (attempting_of_attempted attempted) keeps moves
  | begin facts =>
    obtain ⟨⟨index, node, row⟩, attempted, same⟩ := bind_eq_some_iff.1 chosen
    cases candidate : nextAttempt node row 0 facts with
    | candidate =>
      simp only [candidate] at same
      obtain ⟨route, routed, same⟩ := bind_eq_some_iff.1 same
      obtain ⟨key, keyed, same⟩ := bind_eq_some_iff.1 same
      obtain ⟨needed, same⟩ := ite_none_right_eq_some.1 same
      obtain ⟨rfl, moved⟩ : Event.begin key = event ∧ _ = s'.place := by
        simpa only [some.injEq, Prod.mk.injEq] using same
      have saved : s.checkpoint.update node.id (beginAttempt node key route none) = s'.checkpoint :=
        congrArg Place.checkpoint moved
      exact .begin (attempting_of_attempted attempted) candidate routed keyed needed plan
        (by rw [← saved]) (congrArg Place.phase moved).symm (congrArg Place.begun moved).symm
    | _ => simp [candidate] at same
  | deliver =>
    obtain ⟨⟨idle, active⟩, same⟩ := ite_none_right_eq_some.1 chosen
    obtain ⟨rfl, -, moves⟩ := Moves.of_chosen same plan rfl
    exact .deliver idle active ⟨moves.plan, moves.checkpoint, moves.phase.trans idle, moves.begun⟩

end Sound

/-! ### Runs -/

/-- A launch: the checkpoint from which it is recorded, and its key. -/
abbrev Launch := GraphCheckpoint × AttemptKey

/-- The launch that an event records. -/
def Event.launches (checkpoint : GraphCheckpoint) : Event → List Launch
  | .begin key => [(checkpoint, key)]
  | .start | .finish | .visit _ | .attempt _ | .expand _ | .patch _ | .retry _ | .extend _ | .cancel
  | .resume | .deliver | .note => []

/-- The rows stay, and so do the additions to the graph. -/
def Place.alike (here next : Place) : Bool :=
  next.checkpoint.extensions == here.checkpoint.extensions &&
    next.checkpoint.expansions == here.checkpoint.expansions &&
    next.checkpoint.nodes.map (·.id) == here.checkpoint.nodes.map (·.id)

/-- The place after a list of choices, with the launches that were recorded, the latest first.
Every step has to pass a test. -/
def play (policy : ReviewPolicy) (plan : PlannedGraph) (accepts : Event → Place → Place → Bool) :
    Place → List Choice → Option (Place × List Launch)
  | here, [] => some (here, [])
  | here, choice :: rest => (here.choose policy plan choice).bind fun (event, next) =>
    if here.alike next = true ∧ accepts event here next = true then
      (play policy plan accepts next rest).map fun (final, launches) =>
        (final, launches ++ event.launches here.checkpoint)
    else none

section Runs

variable {document : GraphDocument} {policy : ReviewPolicy} {plan : PlannedGraph}

lemma Driver.eq_of_place {s s' : Driver document} (plan : s.plan = s'.plan)
    (place : s.place = s'.place) : s = s' := by
  cases s
  cases s'
  cases plan
  cases place
  rfl

/-- There is a state of the driver in each place with the same rows. -/
lemma Driver.exists_place (s : Driver document) {next : Place} (alike : s.place.alike next = true) :
    ∃ s' : Driver document, s'.plan = s.plan ∧ s'.place = next := by
  simp only [Place.alike, Bool.and_eq_true, beq_iff_eq] at alike
  obtain ⟨⟨extensions, expansions⟩, ids⟩ := alike
  refine ⟨⟨s.plan, next.checkpoint, next.phase, next.begun, ?_, ids.trans s.aligned⟩, rfl, rfl⟩
  rw [extensions, expansions]
  exact s.planned

/-- **Choices that can be played are a run** of every relation that has the steps of the driver that
pass the test. Its states are made from those of the driver and the launches so far. -/
theorem run_of_play {α : Type} {R : α → α → Prop} {accepts : Event → Place → Place → Bool}
    (state : Driver document → List Launch → α)
    (steps : ∀ {event : Event} {s s' : Driver document} {launches : List Launch}, s.plan = plan →
      s'.plan = plan → Step policy event s s' → accepts event s.place s'.place = true →
      R (state s launches) (state s' (event.launches s.checkpoint ++ launches)))
    {choices : List Choice} {s s' : Driver document} {launches recorded : List Launch}
    (planned : s.plan = plan) (planned' : s'.plan = plan)
    (played : play policy plan accepts s.place choices = some (s'.place, recorded)) :
    Relation.ReflTransGen R (state s launches) (state s' (recorded ++ launches)) := by
  induction choices generalizing s launches recorded with
  | nil =>
    obtain ⟨place, rfl⟩ : s.place = s'.place ∧ [] = recorded := by
      simpa only [play, some.injEq, Prod.mk.injEq] using played
    rw [Driver.eq_of_place (planned.trans planned'.symm) place]
    exact .refl
  | cons _ _ ih =>
    obtain ⟨⟨event, next⟩, chosen, played⟩ := bind_eq_some_iff.1 played
    obtain ⟨⟨alike, accepted⟩, played⟩ := ite_none_right_eq_some.1 played
    obtain ⟨⟨final, later⟩, goesOn, same⟩ := map_eq_some_iff.1 played
    obtain ⟨rfl, rfl⟩ : final = s'.place ∧ later ++ event.launches s.place.checkpoint =
        recorded := by
      simpa only [Prod.mk.injEq] using same
    obtain ⟨t, plan_t, rfl⟩ := s.exists_place alike
    have step := Step.of_choose plan_t (planned ▸ chosen)
    rw [append_assoc]
    exact .head (steps planned (plan_t.trans planned) step accepted)
      (ih (plan_t.trans planned) goesOn)

end Runs

end Provenant.Graph

import Provenant.Data.Related
import Provenant.Graph.LandActs

/-!
# One call of a landing

## Main definitions

* `Consistent` — what is durable agrees with the acts so far.
* `InCall` — the state of a call that has a record.

## Main results

* `Consistent.landAdvance` — at every point of a call what is durable agrees with the acts so far, if
  the call finds a row and questions that a load accepts.
-/

namespace Provenant.Graph

open List Option GraphCheckpoint

open Json (Text text)
open Related (forall₂_modify forall₂_filter modify_eq_self)

/-! ### Consistent states -/

/-- The authority of a record that is not settled by a merge follows from its policy. -/
def Backed (row : NodeProgress) (record : LandRecord) : Prop :=
  match record.authorisedBy with
  | none => record.policy = .ask
  | some .policy => record.policy = .auto
  | some (.chair _) => row.state = .succeeded

/-- What holds of a landing between its acts: how its row and the questions about it fit what it
did since it was last redone. -/
structure Consistent (id : Text) (acts : List LandAct) (checkpoint : GraphCheckpoint) : Prop where
  lawful : Lawful id acts
  /-- The row has the record that was saved last. -/
  record : ∀ row, checkpoint.row? id = some row → row.notes.land = storedRecord id acts
  backed : ∀ row record, checkpoint.row? id = some row → row.notes.land = some record →
    Backed row record
  /-- A landing that waits without authority has asked. -/
  asked : ∀ record, landRecord id checkpoint = some record → record.authorisedBy = none →
    record.wakeAt.isSome = true → landAsks id checkpoint ≠ []
  single : (landAsks id checkpoint).length ≤ 1
  /-- A question that is not resolved has no answer. -/
  unanswered : ∀ ask ∈ landAsks id checkpoint, ask.resolved = false → ask.answer = none
  /-- An answered question stopped the landing. -/
  stopped : ∀ answered, .answer answered ∈ acts → ∀ row, checkpoint.row? id = some row →
    row.notes.land.isSome = true ∧ row.state = .failed

/-- Every point of a list of acts is consistent. -/
def SoundActs (id : Text) (acts : List LandAct) (checkpoint : GraphCheckpoint)
    (trace : List LandAct) : Prop :=
  ∀ cut, cut <+: trace → Consistent id (acts ++ cut) (durable cut checkpoint)

variable {next : GraphCheckpoint} {row' : NodeProgress} {record' : LandRecord}

section Sound

variable {id : Text} {acts trace : List LandAct} {act : LandAct} {checkpoint : GraphCheckpoint}

section Single

variable (h : Consistent id acts checkpoint)
include h

lemma SoundActs.nil : SoundActs id acts checkpoint [] := by
  intro cut short
  rw [prefix_nil.1 short, append_nil]
  exact h

lemma SoundActs.cons (rest : SoundActs id (acts ++ [act]) (act.saved.getD checkpoint) trace) :
    SoundActs id acts checkpoint (act :: trace) := by
  intro cut short
  cases cut with
  | nil => rw [append_nil]; exact h
  | cons _ cut =>
    obtain ⟨rfl, inside⟩ := cons_prefix_cons.1 short
    have result := rest cut inside
    rwa [append_assoc, ← durable_cons] at result

lemma SoundActs.saved (rest : SoundActs id (acts ++ [.save next]) next trace) :
    SoundActs id acts checkpoint (.save next :: trace) :=
  .cons h rest

lemma SoundActs.ends (last : Consistent id (acts ++ [.save next]) next) :
    SoundActs id acts checkpoint [.save next] :=
  .cons h (.nil last)

lemma SoundActs.answered (last : Consistent id (acts ++ [.answer next]) next) :
    SoundActs id acts checkpoint [.answer next] :=
  .cons h (.nil last)

end Single

lemma SoundActs.append {first second : List LandAct} (h : SoundActs id acts checkpoint first)
    (rest : SoundActs id (acts ++ first) (durable first checkpoint) second) :
    SoundActs id acts checkpoint (first ++ second) := by
  intro cut short
  obtain ⟨tail, split⟩ := short
  rcases append_eq_append_iff.1 split with ⟨middle, inside, -⟩ | ⟨middle, rfl, behind⟩
  · exact h cut ⟨middle, inside.symm⟩
  · have result := rest middle ⟨tail, behind.symm⟩
    rwa [append_assoc, ← durable_append] at result

/-- A request or an observation changes nothing. -/
lemma Consistent.silent (h : Consistent id acts checkpoint) (unsaved : act.saved = none)
    (allowed : Allowed id acts act) : Consistent id (acts ++ [act]) checkpoint where
  lawful := h.lawful.snoc allowed
  record row found := by rw [storedRecord_snoc, unsaved]; exact h.record row found
  backed := h.backed
  asked := h.asked
  single := h.single
  unanswered := h.unanswered
  stopped answered member := by
    rcases mem_append.1 member with before | this
    · exact h.stopped answered before
    · rw [← mem_singleton.1 this] at unsaved
      cases unsaved

end Sound

/-! ### Rows of a landing -/

/-- The row has none of the evidence of other kinds, and no result yet. -/
structure Clean (row : NodeProgress) : Prop where
  attempts : row.attempts = []
  gate : row.gate = none
  ci : row.notes.ci = none
  advanceError : row.advanceError = none
  outputs : row.outputs = none

variable {row : NodeProgress} {checkpoint : GraphCheckpoint}

/-- A load that accepts an unsettled row finds it clean, and running if it has a record. -/
lemma clean_of_landValid (valid : landValid row checkpoint = true)
    (unsettled : row.state.settled = false) :
    Clean row ∧ (row.state = .pending ∧ row.notes.land = none ∨
      row.state = .running ∧ ∃ record, row.notes.land = some record) := by
  unfold landValid at valid
  simp only [Bool.and_eq_true, Bool.or_eq_true, beq_iff_eq, List.isEmpty_iff,
    isNone_iff_eq_none] at valid
  obtain ⟨⟨⟨⟨⟨⟨-, -⟩, attempts⟩, gate⟩, ci⟩, error⟩, state⟩ := valid
  cases stands : row.state with
  | pending =>
    rw [stands] at state error
    simp only [Bool.and_eq_true, isNone_iff_eq_none] at state
    exact ⟨⟨attempts, gate, ci, by simpa using error, state.2⟩, .inl ⟨rfl, state.1⟩⟩
  | running =>
    rw [stands] at state error
    simp only [Bool.and_eq_true, isNone_iff_eq_none] at state
    exact ⟨⟨attempts, gate, ci, by simpa using error, state.2⟩,
      .inr ⟨rfl, isSome_iff_exists.1 state.1⟩⟩
  | succeeded | failed | blocked | skipped => rw [stands] at unsettled; cases unsettled

variable {record : LandRecord}

/-- Only the chair lands a row that is not authorised by its policy. -/
lemma Backed.of_unlanded (h : Backed row record) (unlanded : row.state ≠ .succeeded) :
    record.authorisedBy = none ∧ record.policy = .ask ∨
      record.authorisedBy = some .policy ∧ record.policy = .auto := by
  unfold Backed at h
  cases authority : record.authorisedBy with
  | none => rw [authority] at h; exact .inl ⟨rfl, h⟩
  | some by' =>
    rw [authority] at h
    cases by' with
    | policy => exact .inr ⟨rfl, h⟩
    | chair => exact absurd h unlanded

/-- The authority of a row that has not succeeded is accepted if it is backed. -/
lemma authorityValid_of_backed (backed : ∀ record, row.notes.land = some record → Backed row record)
    (unlanded : row.state ≠ .succeeded) : authorityValid row checkpoint = true := by
  unfold authorityValid
  cases land : row.notes.land with
  | none => rfl
  | some record =>
    dsimp only
    rcases (backed record land).of_unlanded unlanded with ⟨authority, -⟩ | ⟨authority, policy⟩
    · rw [authority]
    · simp [authority, policy]

/-- A failed row without outputs and without a deadline is accepted, whatever its error. -/
lemma landValid_failed (failed : row.state = .failed)
    (backed : ∀ record, row.notes.land = some record → Backed row record)
    (wake : row.notes.land.all (·.wakeAt.isNone) = true) (attempts : row.attempts = [])
    (gate : row.gate = none) (ci : row.notes.ci = none) (outputs : row.outputs = none) :
    landValid row checkpoint = true := by
  have authority : authorityValid row checkpoint = true :=
    authorityValid_of_backed backed (by rw [failed]; nofun)
  simp [landValid, failed, authority, wake, attempts, gate, ci, outputs]

/-- A clean running row with a record is accepted. -/
lemma landValid_running (running : row.state = .running)
    (land : row.notes.land = some record) (backed : Backed row record) (clean : Clean row) :
    landValid row checkpoint = true := by
  have authority : authorityValid row checkpoint = true :=
    authorityValid_of_backed (fun _ found => by cases land.symm.trans found; exact backed)
      (by rw [running]; nofun)
  simp [landValid, running, authority, land, clean.attempts, clean.gate, clean.ci,
    clean.advanceError, clean.outputs]

/-- Whether the row of a record is backed depends on the record, unless the chair landed it. -/
lemma Backed.of_record (h : Backed row record)
    (unlanded : row.state ≠ .succeeded) (policy : record'.policy = record.policy)
    (authority : record'.authorisedBy = record.authorisedBy) : Backed row' record' := by
  unfold Backed
  rw [authority, policy]
  rcases h.of_unlanded unlanded with ⟨stands, same⟩ | ⟨stands, same⟩ <;> rw [stands] <;> exact same

lemma Clean.recorded (h : Clean row) (record : LandRecord) (state : NodeState) :
    Clean { withRecord record row with state } :=
  ⟨h.attempts, h.gate, h.ci, h.advanceError, h.outputs⟩

/-! ### Inside a call -/

/-- All questions about the node are those of a landing. -/
def AsksLand (id : Text) (checkpoint : GraphCheckpoint) : Prop :=
  ∀ ask ∈ checkpoint.notes.asks, ask.about id = true → ask.kind = .land

/-- The state of a call that has a record: the row waits with it. -/
structure InCall (id : Text) (acts : List LandAct) (checkpoint : GraphCheckpoint)
    (record : LandRecord) (row : NodeProgress) : Prop where
  consistent : Consistent id acts checkpoint
  found : checkpoint.row? id = some row
  running : row.state = .running
  land : row.notes.land = some record
  clean : Clean row
  asks : AsksLand id checkpoint

section Call

variable {id : Text} {acts : List LandAct} {record : LandRecord}

variable {ask : NodeAsk} {node : GraphNode} {position : Nat}

lemma mem_landAsks : ask ∈ landAsks id checkpoint ↔
    ask ∈ checkpoint.notes.asks ∧ ask.kind = .land ∧ ask.about id = true := by
  simp [landAsks]

lemma filter_about (asks : AsksLand id checkpoint) :
    checkpoint.notes.asks.filter (·.about id) = landAsks id checkpoint := by
  refine filter_congr fun ask member => ?_
  cases about : ask.about id with
  | false => simp
  | true => simp [asks ask member about]

/-- What the authority of the requests rests on: the policy, or a question that is not answered. -/
def AskedFor (id : Text) (checkpoint : GraphCheckpoint) (record : LandRecord) :
    Option Text → Prop
  | none => record.authorisedBy = some .policy
  | some askId => record.authorisedBy = none ∧
      ∃ ask ∈ landAsks id checkpoint, ask.askId = askId ∧ ask.answer = none

section Waiting

variable (h : InCall id acts checkpoint record row)
include h

lemma InCall.stored : storedRecord id acts = some record := by
  rw [← h.consistent.record row h.found, h.land]

lemma InCall.recorded : landRecord id checkpoint = some record := by
  rw [landRecord, h.found]
  exact h.land

lemma InCall.backed : Backed row record := h.consistent.backed row record h.found h.land

lemma InCall.unlanded : row.state ≠ .succeeded := by
  rw [h.running]
  decide

lemma InCall.quiet : ∀ answered, .answer answered ∉ acts := by
  intro answered member
  have stopped := (h.consistent.stopped answered member row h.found).2
  rw [h.running] at stopped
  cases stopped

/-- The request of a waiting landing is allowed. -/
lemma InCall.allowed (plan : PlannedGraph) (node : GraphNode) :
    Allowed id acts (.request (landRequest plan node record)) := by
  refine ⟨record, h.stored, rfl, rfl, rfl, rfl, fun authorised => ?_⟩
  change record.authorisedBy.isSome = true at authorised
  rcases h.backed.of_unlanded h.unlanded with ⟨none, -⟩ | ⟨-, auto⟩
  · rw [none] at authorised
    cases authorised
  · exact auto

lemma InCall.request (plan : PlannedGraph) (node : GraphNode) :
    InCall id (acts ++ [.request (landRequest plan node record)]) checkpoint record row :=
  { h with consistent := h.consistent.silent rfl (h.allowed plan node) }

lemma InCall.observe (observation : LandObservation) :
    InCall id (acts ++ [.observe observation]) checkpoint record row :=
  { h with consistent := h.consistent.silent rfl trivial }

/-- An act of a waiting landing that saves is consistent if the row and the questions that it saves
are. -/
lemma InCall.store {act : LandAct} (saved : act.saved = some next)
    (found : next.row? id = some row') (land : row'.notes.land = some record')
    (valid : landValid row' next = true) (pinned : Extends (some record) (some record'))
    (backed : Backed row' record')
    (asked : record'.authorisedBy = none → record'.wakeAt.isSome = true → landAsks id next ≠ [])
    (merged : row'.state = .succeeded → ∃ earlier number note,
      acts = earlier ++ [.observe (.merged (some number) note)] ∧
        record.pullRequest = some number ∧ record'.pullRequest = some number)
    (asks : AsksLand id next) (single : (landAsks id next).length ≤ 1)
    (unanswered : ∀ ask ∈ landAsks id next, ask.resolved = false → ask.answer = none)
    (stopped : ∀ answered, act = .answer answered → row'.state = .failed) :
    Consistent id (acts ++ [act]) next := by
  have stored : landRecord id next = some record' := by rw [landRecord, found]; exact land
  have allowed : LandSave id acts next := by
    refine ⟨⟨row', found, valid⟩, by rw [filter_about asks]; exact single,
      by rw [h.stored, stored]; exact pinned, ?_⟩
    intro row'' found'' succeeded
    cases found.symm.trans found''
    obtain ⟨earlier, number, note, split, known, sent⟩ := merged succeeded
    refine ⟨earlier, number, note, split, ?_, ?_, h.quiet⟩
    · rw [h.stored]
      exact known
    · rw [stored]
      exact sent
  refine ⟨h.consistent.lawful.snoc ?_, ?_, ?_, ?_, single, unanswered, ?_⟩
  · cases act with
    | save | answer => cases saved; exact allowed
    | request | observe => cases saved
  · intro row'' found''
    cases found.symm.trans found''
    rw [storedRecord_snoc, saved, land]
    exact stored.symm
  · intro row'' record'' found'' land''
    cases found.symm.trans found''
    cases land.symm.trans land''
    exact backed
  · intro record'' found'' authority wake
    cases stored.symm.trans found''
    exact asked authority wake
  · intro answered member row'' found''
    cases found.symm.trans found''
    refine ⟨by rw [land]; rfl, ?_⟩
    rcases mem_append.1 member with before | this
    · exact absurd before (h.quiet answered)
    · exact stopped answered (mem_singleton.1 this).symm

/-- A save of a waiting landing that leaves the questions as they are. -/
lemma InCall.save (asks : next.notes.asks = checkpoint.notes.asks)
    (found : next.row? id = some row') (land : row'.notes.land = some record')
    (valid : landValid row' next = true) (pinned : Extends (some record) (some record'))
    (backed : Backed row' record')
    (asked : record'.authorisedBy = none → record'.wakeAt.isSome = true →
      landAsks id checkpoint ≠ [])
    (merged : row'.state = .succeeded → ∃ earlier number note,
      acts = earlier ++ [.observe (.merged (some number) note)] ∧
        record.pullRequest = some number ∧ record'.pullRequest = some number) :
    Consistent id (acts ++ [.save next]) next := by
  have same : landAsks id next = landAsks id checkpoint := congrArg (filter _) asks
  refine h.store rfl found land valid pinned backed (by rw [same]; exact asked) merged ?_
    (by rw [same]; exact h.consistent.single) (by rw [same]; exact h.consistent.unanswered)
    nofun
  intro ask member
  exact h.asks ask (asks ▸ member)

lemma InCall.found_update {f : NodeProgress → NodeProgress} (keeps : ∀ row, (f row).id = row.id) :
    (checkpoint.update id f).row? id = some (f row) :=
  row?_update_self (fun row _ same => (keeps row).trans same) h.found

/-- A merge settles a waiting landing. -/
lemma InCall.merged (owner : LandOwner) (named : node.id = id) {asked : Option Text}
    (authority : AskedFor id checkpoint record asked) (number : Option Nat) (note : Option Text)
    (last : ∃ earlier, acts = earlier ++ [.observe (.merged number note)]) :
    SoundActs id acts checkpoint
      (concludeLand owner node asked record checkpoint (.merged number note)) := by
  subst named
  unfold concludeLand
  dsimp only
  split
  · exact .nil h.consistent
  next matching =>
    obtain ⟨known, same⟩ : record.pullRequest.isSome = true ∧ record.pullRequest = number := by
      simpa [isSome_iff_ne_none] using matching
    obtain ⟨value, known⟩ := isSome_iff_exists.1 known
    obtain rfl : number = some value := same.symm.trans known
    refine .ends h.consistent ?_
    have policy := h.backed
    unfold Backed at policy
    obtain ⟨earlier, split⟩ := last
    refine h.save rfl (h.found_update fun _ => rfl) rfl ?_ ?_ ?_ nofun
      (fun _ => ⟨earlier, value, note, split, known, rfl⟩)
    · -- the authority is the policy, or the chair after the open question
      cases asked with
      | none =>
        change record.authorisedBy = some .policy at authority
        rw [authority] at policy
        simp [landValid, authorityValid, withRecord, landOutputs, authority, policy,
          h.clean.attempts, h.clean.gate, h.clean.ci, h.clean.advanceError]
      | some askId =>
        obtain ⟨unauthorised, ask, member, identified, unanswered⟩ := authority
        rw [unauthorised] at policy
        obtain ⟨stored, about⟩ := mem_filter.1 member
        have row_id : row.id = node.id := id_of_row? h.found
        have backing : ∃ ask ∈ checkpoint.notes.asks, ask.askId = askId ∧ ask.kind = .land ∧
            ask.about node.id = true ∧ ask.answer = none := by
          refine ⟨ask, stored, identified, ?_, ?_, unanswered⟩
          · simpa using (Bool.and_eq_true_iff.1 about).1
          · exact (Bool.and_eq_true_iff.1 about).2
        simpa [landValid, authorityValid, withRecord, landOutputs, policy, h.clean.attempts,
          h.clean.gate, h.clean.ci, h.clean.advanceError, row_id, refreshWake,
          GraphCheckpoint.update, and_assoc] using backing
    · rintro found ⟨⟩
      exact ⟨_, rfl, rfl, rfl, rfl, rfl, fun _ => known.symm⟩
    · unfold Backed
      cases asked with
      | none =>
        change record.authorisedBy = some .policy at authority
        simpa [authority] using policy
      | some _ => rfl

/-- What follows the last observation of a call is consistent. -/
lemma InCall.conclude (owner : LandOwner) (named : node.id = id) {asked : Option Text}
    (authority : AskedFor id checkpoint record asked) (observation : LandObservation)
    (last : ∃ earlier, acts = earlier ++ [.observe observation]) :
    SoundActs id acts checkpoint
      (concludeLand owner node asked record checkpoint observation) := by
  cases observation with
  | identified => exact .nil h.consistent
  | merged number note => exact h.merged owner named authority number note last
  | pending reason =>
    subst named
    unfold concludeLand
    dsimp only
    split
    · exact .nil h.consistent
    next wakeAt _ =>
      refine .ends h.consistent ?_
      refine h.save rfl (h.found_update fun _ => rfl) rfl ?_ ?_ ?_ ?_ ?_
      · exact landValid_running h.running rfl (h.backed.of_record h.unlanded rfl rfl)
          (h.clean.recorded _ row.state)
      · rintro found ⟨⟩
        exact ⟨_, rfl, rfl, rfl, rfl, rfl, fun _ => rfl⟩
      · exact h.backed.of_record h.unlanded rfl rfl
      · -- without authority the requests rest on a question
        intro unauthorised _
        cases asked with
        | none => rw [show record.authorisedBy = some .policy from authority] at unauthorised
                  cases unauthorised
        | some _ =>
          obtain ⟨-, ask, member, -, -⟩ := authority
          exact ne_nil_of_mem member
      · intro succeeded
        exact absurd succeeded h.unlanded
  | refused reason =>
    subst named
    refine .ends h.consistent ?_
    have stopped := h.found_update (f := withRecord { record with wakeAt := none }) fun _ => rfl
    have found := row?_update_self
      (f := landFail (text "land_refused")
        (text "node " ++ node.id ++ text ": land refused: " ++ reason))
      (fun row _ same => same)
      (show (refreshWake (checkpoint.update node.id
        (withRecord { record with wakeAt := none }))).row? node.id = _ from stopped)
    refine h.save rfl found rfl ?_ ?_ ?_ nofun (fun succeeded => by
      cases succeeded)
    · refine landValid_failed rfl (fun _ found => ?_) rfl h.clean.attempts h.clean.gate h.clean.ci rfl
      cases found
      exact h.backed.of_record h.unlanded rfl rfl
    · rintro found ⟨⟩
      exact ⟨_, rfl, rfl, rfl, rfl, rfl, fun _ => rfl⟩
    · exact h.backed.of_record h.unlanded rfl rfl

end Waiting

/-- The requests of a call are consistent.

**Proof sketch.** By induction on the answers of the host. A request is made from the record that
was saved last, and a number that the host identifies is saved before the next request. -/
lemma soundActs_requestLand (owner : LandOwner) (plan : PlannedGraph) (named : node.id = id)
    (asked : Option Text) (answers : List (Except Text LandObservation)) :
    ∀ {acts : List LandAct} {checkpoint : GraphCheckpoint} {record : LandRecord}
      {row : NodeProgress}, InCall id acts checkpoint record row →
      AskedFor id checkpoint record asked →
      SoundActs id acts checkpoint (requestLand owner plan node asked record checkpoint answers) := by
  induction answers with
  | nil =>
    intro acts checkpoint record row h authority
    exact .cons h.consistent (.nil (h.request plan node).consistent)
  | cons answer rest ih =>
    intro acts checkpoint record row h authority
    have requested := h.request plan node
    cases answer with
    | error _ => exact .cons h.consistent (.nil requested.consistent)
    | ok observation =>
      have observed := requested.observe observation
      refine .cons h.consistent (.cons requested.consistent ?_)
      cases observation with
      | identified number =>
        dsimp only [LandAct.saved, Option.getD]
        split
        · exact .nil observed.consistent
        next fresh =>
          obtain ⟨-, unknown⟩ : ¬ number = 0 ∧ record.pullRequest = none := by simpa using fresh
          subst named
          let known := { record with pullRequest := some number }
          let next := checkpoint.update node.id (withRecord known)
          have found : next.row? node.id = some (withRecord known row) :=
            observed.found_update fun _ => rfl
          have backed : Backed (withRecord known row) known := h.backed.of_record h.unlanded rfl rfl
          have clean : Clean (withRecord known row) := h.clean.recorded known row.state
          have valid : landValid (withRecord known row) next = true :=
            landValid_running h.running rfl backed clean
          have pinned : Extends (some record) (some known) := by
            rintro earlier ⟨⟩
            refine ⟨_, rfl, rfl, rfl, rfl, rfl, fun sent => ?_⟩
            rw [unknown] at sent
            cases sent
          have saved := observed.save (show next.notes.asks = _ from rfl) found rfl valid pinned
            backed
            (h.consistent.asked record h.recorded)
            (fun succeeded => absurd succeeded h.unlanded)
          refine .saved observed.consistent (ih ⟨saved, found, h.running, rfl, clean, h.asks⟩ ?_)
          cases asked with
          | none | some _ => exact authority
      | merged | pending | refused => exact observed.conclude owner named authority _ ⟨_, rfl⟩

/-! ### Questions -/

/-- The last question about a node is one of them. -/
lemma askPosition_eq_some {asks : List NodeAsk} (h : askPosition asks id = some position) :
    ∃ ask, asks[position]? = some ask ∧ ask.about id = true := by
  obtain ⟨index, found, rfl⟩ := map_eq_some_iff.1 h
  obtain ⟨inside, about, -⟩ := findIdx?_eq_some_iff_getElem.1 found
  refine ⟨asks.reverse[index], ?_, about⟩
  rw [getElem_reverse]
  exact getElem?_eq_getElem _

lemma askPosition_eq_none {asks : List NodeAsk} (h : askPosition asks id = none) :
    ∀ ask ∈ asks, ask.about id = false := by
  intro ask member
  have none := findIdx?_eq_none_iff.1 (map_eq_none_iff.1 h) ask
    (mem_reverse.2 member)
  simpa using none

/-- A change that keeps what a question is about. -/
lemma forall₂_landAsks {R : NodeAsk → NodeAsk → Prop}
    (related : Forall₂ R checkpoint.notes.asks next.notes.asks)
    (same : ∀ ask ask', R ask ask' → ask'.kind = ask.kind ∧ ask'.node = ask.node) :
    Forall₂ R (landAsks id checkpoint) (landAsks id next) := by
  refine forall₂_filter (fun ask ask' changed => ?_) related
  obtain ⟨kind, node⟩ := same ask ask' changed
  rw [NodeAsk.about, NodeAsk.about, kind, node]

lemma KeptAsk.refl (ask : NodeAsk) : KeptAsk ask ask := ⟨rfl, fun h => h⟩

lemma KeptAsk.sameKind {ask' : NodeAsk} (h : KeptAsk ask ask') :
    ask'.kind = ask.kind ∧ ask'.node = ask.node := by
  rw [h.same]
  exact ⟨rfl, rfl⟩

lemma KeptAsk.sameAnswer {ask' : NodeAsk} (h : KeptAsk ask ask') : ask'.answer = ask.answer := by
  rw [h.same]

/-- A landing goes on consistently where its record and its questions are kept. -/
lemma Consistent.kept (h : Consistent id acts checkpoint) (found : checkpoint.row? id = some row)
    (found' : next.row? id = some row') (land : row'.notes.land = row.notes.land)
    (settled : row.notes.land.isSome = true → row.state = .succeeded ∨ row.state = .failed →
      row'.state = row.state)
    (asks : Forall₂ KeptAsk (landAsks id checkpoint) (landAsks id next)) :
    Consistent id acts next where
  lawful := h.lawful
  record row'' found'' := by
    cases found'.symm.trans found''
    rw [land]
    exact h.record row found
  backed row'' record found'' stored := by
    cases found'.symm.trans found''
    have before := h.backed row record found (land ▸ stored)
    by_cases landed : row.state = .succeeded
    · unfold Backed
      rw [settled (by rw [← land, stored]; rfl) (.inl landed)]
      exact before
    · exact before.of_record landed rfl rfl
  asked record stored unauthorised wake := by
    rw [landRecord, found'] at stored
    have before := h.asked record (by rw [landRecord, found]; exact land.symm.trans stored)
      unauthorised wake
    intro empty
    rw [empty] at asks
    cases asks' : landAsks id checkpoint with
    | nil => exact before asks'
    | cons => rw [asks'] at asks; cases asks
  single := by rw [← asks.length_eq]; exact h.single
  unanswered ask' member open' := by
    obtain ⟨ask, among, same⟩ := Fallible.exists_of_forall₂ asks member
    rw [same.sameAnswer]
    refine h.unanswered ask among ?_
    by_contra resolved
    rw [same.resolved (by simpa using resolved)] at open'
    cases open'
  stopped answered member row'' found'' := by
    cases found'.symm.trans found''
    obtain ⟨some, failed⟩ := h.stopped answered member row found
    exact ⟨by rw [land]; exact some, (settled some (.inr failed)).trans failed⟩

/-- The acts about a question are consistent, and leave a landing that may make its requests. -/
def Polls (id : Text) (acts : List LandAct) (checkpoint : GraphCheckpoint) (record : LandRecord)
    (row : NodeProgress) (made : List LandAct × Option (Text × GraphCheckpoint)) : Prop :=
  SoundActs id acts checkpoint made.1 ∧ ∀ askId polled, made.2 = some (askId, polled) →
    durable made.1 checkpoint = polled ∧ InCall id (acts ++ made.1) polled record row ∧
      AskedFor id polled record (some askId)

section Driving

variable (h : InCall id acts checkpoint record row)
include h

/-- What a poll without an answer leaves: the same question, with its error. -/
lemma InCall.polled (placed : checkpoint.notes.asks[position]? = some ask)
    (about : ask.about id = true) (unauthorised : record.authorisedBy = none)
    (unresolved : ask.resolved = false) (inboxError : Option Text) {polled : GraphCheckpoint}
    (changed : polled = checkpoint.withAsks
      (checkpoint.notes.asks.modify position fun ask => { ask with inboxError })) :
    InCall id acts polled record row ∧ AskedFor id polled record (some ask.askId) := by
  have related : Forall₂ KeptAsk checkpoint.notes.asks polled.notes.asks := by
    rw [changed]
    exact forall₂_modify .refl _ _ fun _ _ => ⟨rfl, fun h => h⟩
  have found : polled.row? id = some row := by rw [changed]; exact h.found
  have kept := h.consistent.kept h.found found rfl (fun _ _ => rfl)
    (forall₂_landAsks related fun _ _ => KeptAsk.sameKind)
  have asks : AsksLand id polled := by
    intro ask' member about'
    obtain ⟨old, among, same⟩ := Fallible.exists_of_forall₂ related member
    rw [same.sameKind.1]
    refine h.asks old among ?_
    rwa [NodeAsk.about, ← same.sameKind.2]
  have member : { ask with inboxError } ∈ polled.notes.asks := by
    rw [changed]
    refine mem_of_getElem? (i := position) ?_
    rw [GraphCheckpoint.withAsks, getElem?_modify_eq, placed]
    rfl
  refine ⟨⟨kept, found, h.running, h.land, h.clean, asks⟩, unauthorised, { ask with inboxError }, ?_,
    rfl, ?_⟩
  · exact mem_landAsks.2 ⟨member, asks _ member about, about⟩
  · have among := mem_of_getElem? placed
    exact h.consistent.unanswered ask (mem_landAsks.2 ⟨among, h.asks ask among about, about⟩)
      unresolved

/-- The act that records an answer is consistent. -/
lemma InCall.answered (named : node.id = id) (position : Nat) (askId : Text) (answer : AskAnswer) :
    Consistent id (acts ++ [.answer (recordAnswer node record askId answer position checkpoint)])
      (recordAnswer node record askId answer position checkpoint) := by
  subst named
  generalize closed : recordAnswer node record askId answer position checkpoint = next
  have found : next.row? node.id = some (answeredRow node record askId answer row) := by
    rw [← closed]
    exact h.found_update fun _ => rfl
  have land : (answeredRow node record askId answer row).notes.land =
      some { record with wakeAt := none } := by
    change row.notes.land.map _ = _
    rw [h.land]
    rfl
  -- the answered question is resolved, the others are as they were
  have related : Forall₂ (fun ask ask' : NodeAsk =>
      (ask'.kind = ask.kind ∧ ask'.node = ask.node) ∧ (ask'.resolved = false → ask' = ask))
      checkpoint.notes.asks next.notes.asks := by
    rw [← closed]
    exact forall₂_modify (fun _ => ⟨⟨rfl, rfl⟩, fun _ => rfl⟩) _ _ fun _ _ =>
      ⟨⟨rfl, rfl⟩, nofun⟩
  have selected := @forall₂_landAsks _ _ node.id _ related fun _ _ same => same.1
  have backed : Backed (answeredRow node record askId answer row) { record with wakeAt := none } :=
    h.backed.of_record h.unlanded rfl rfl
  refine h.store rfl found land ?_ ?_ backed nofun
    nofun ?_ ?_ ?_ (fun _ _ => rfl)
  · refine landValid_failed rfl (fun _ stored => ?_) (by rw [land]; rfl) h.clean.attempts h.clean.gate
      h.clean.ci h.clean.outputs
    cases land.symm.trans stored
    exact backed
  · rintro earlier ⟨⟩
    exact ⟨_, rfl, rfl, rfl, rfl, rfl, fun _ => rfl⟩
  · intro ask' member about'
    obtain ⟨old, among, ⟨kind, node'⟩, -⟩ := Fallible.exists_of_forall₂ related member
    rw [kind]
    refine h.asks old among ?_
    rwa [NodeAsk.about, ← node']
  · rw [← selected.length_eq]
    exact h.consistent.single
  · intro ask' member open'
    obtain ⟨old, among, -, same⟩ := Fallible.exists_of_forall₂ selected member
    obtain rfl := same open'
    exact h.consistent.unanswered ask' among open'

/-- Polling the question is consistent, and leaves a landing that may make its requests. -/
lemma InCall.pollChair (owner : LandOwner) (named : node.id = id)
    (placed : checkpoint.notes.asks[position]? = some ask) (about : ask.about id = true)
    (unauthorised : record.authorisedBy = none) :
    Polls id acts checkpoint record row
      (Graph.pollChair owner node record checkpoint position) := by
  unfold Graph.pollChair
  rw [placed]
  dsimp only
  split
  · exact ⟨.nil h.consistent, nofun⟩
  next unresolved =>
    have unresolved : ask.resolved = false := by simpa using unresolved
    obtain ⟨inboxError, changed⟩ : ∃ inboxError, (pollAsk owner checkpoint position).2 =
        checkpoint.withAsks (checkpoint.notes.asks.modify position fun ask =>
          { ask with inboxError }) := ⟨_, rfl⟩
    generalize pollAsk owner checkpoint position = answer at changed
    obtain ⟨reply, polled⟩ := answer
    dsimp only at changed
    obtain ⟨later, authority⟩ := h.polled placed about unauthorised unresolved inboxError changed
    cases reply with
    | none =>
      -- no answer: the error of the inbox is noted
      have noted : polled.notes.asks[position]? = some { ask with inboxError } := by
        rw [changed, GraphCheckpoint.withAsks, getElem?_modify_eq, placed]
        rfl
      dsimp only
      rw [noted]
      split
      next differs =>
        have saved : Consistent id (acts ++ [.save polled]) polled :=
          later.save rfl later.found later.land
            (landValid_running later.running later.land later.backed later.clean)
            .refl later.backed
            (fun _ _ => ne_nil_of_mem authority.2.choose_spec.1)
            (fun succeeded => absurd succeeded later.unlanded)
        refine ⟨.ends h.consistent saved, ?_⟩
        rintro _ _ ⟨⟩
        exact ⟨rfl, { later with consistent := saved }, authority⟩
      next same =>
        -- nothing changed
        have same : inboxError = ask.inboxError := by simpa using same
        have unchanged : polled = checkpoint := by
          rw [changed, GraphCheckpoint.withAsks]
          rw [modify_eq_self fun found here => ?_]
          cases placed.symm.trans here
          rw [same]
        refine ⟨.nil h.consistent, ?_⟩
        rintro _ _ ⟨⟩
        rw [append_nil]
        exact ⟨unchanged.symm, later, authority⟩
    | some reply =>
      exact ⟨.answered h.consistent (later.answered named position ask.askId (recordedAnswer reply)),
        nofun⟩

/-- Asking is consistent, and leaves a landing that may make its requests. -/
lemma InCall.askChair (owner : LandOwner) (plan : PlannedGraph) (named : node.id = id)
    (unauthorised : record.authorisedBy = none) :
    Polls id acts checkpoint record row (Graph.askChair owner plan node record checkpoint) := by
  subst named
  unfold Graph.askChair
  split
  next position found =>
    obtain ⟨ask, placed, about⟩ := askPosition_eq_some found
    exact h.pollChair owner rfl placed about unauthorised
  next none =>
    have unasked : landAsks node.id checkpoint = [] := by
      refine filter_eq_nil_iff.2 fun ask member => ?_
      rw [askPosition_eq_none none ask member, Bool.and_false]
      exact Bool.false_ne_true
    split
    · -- there is nobody to ask
      refine ⟨.ends h.consistent ?_, nofun⟩
      have waits : record.wakeAt.isNone = true := by
        cases wake : record.wakeAt with
        | none => rfl
        | some _ =>
          exact absurd unasked (h.consistent.asked record h.recorded unauthorised (by rw [wake]; rfl))
      have backed : Backed (landFail (text "land_session_missing") (sessionMissing node record) row)
          record := h.backed.of_record h.unlanded rfl rfl
      refine h.save rfl (h.found_update fun _ => rfl) h.land ?_ .refl backed
        (h.consistent.asked record h.recorded)
        nofun
      refine landValid_failed rfl (fun _ stored => ?_) ?_ h.clean.attempts h.clean.gate h.clean.ci rfl
      · cases h.land.symm.trans stored
        exact backed
      · change row.notes.land.all _ = true
        rw [h.land]
        exact waits
    next session _ =>
      split
      · exact ⟨.nil h.consistent, nofun⟩
      next identified known =>
        -- the question is the only one about the node
        have rows : identified.row? node.id = some row ∧
            identified.notes.asks = checkpoint.notes.asks := by
          obtain ⟨_, -, same⟩ := bind_eq_some_iff.1 known
          cases same
          exact ⟨h.found, rfl⟩
        generalize raised : refreshWake (identified.withAsks
          (identified.notes.asks ++ [landAsk node.id session])) = asked
        have asks : asked.notes.asks = checkpoint.notes.asks ++ [landAsk node.id session] := by
          rw [← raised, ← rows.2]
          rfl
        have found : asked.row? node.id = some row := by rw [← raised]; exact rows.1
        have about : (landAsk node.id session).about node.id = true :=
          beq_self_eq_true (some node.id)
        have only : landAsks node.id asked = [landAsk node.id session] := by
          have before : checkpoint.notes.asks.filter
              (fun ask => ask.kind == .land && ask.about node.id) = [] := unasked
          change filter _ _ = _
          rw [asks, filter_append, before, nil_append, filter_singleton, about]
          rfl
        have landOnly : AsksLand node.id asked := by
          intro ask member about'
          rw [asks] at member
          rcases mem_append.1 member with old | new
          · exact h.asks ask old about'
          · rw [mem_singleton.1 new]
            rfl
        have saved : Consistent node.id (acts ++ [.save asked]) asked := by
          refine h.store rfl found h.land ?_ .refl h.backed (fun _ _ => by rw [only]; simp)
            (fun succeeded => absurd succeeded h.unlanded) landOnly (by rw [only]; rfl) ?_
            nofun
          · exact landValid_running h.running h.land h.backed h.clean
          · intro ask member _
            rw [only] at member
            rw [mem_singleton.1 member]
            rfl
        have later : InCall node.id (acts ++ [.save asked]) asked record row :=
          ⟨saved, found, h.running, h.land, h.clean, landOnly⟩
        have placed : asked.notes.asks[checkpoint.notes.asks.length]? =
            some (landAsk node.id session) := by
          rw [asks, getElem?_append_right (le_refl _), Nat.sub_self]
          rfl
        obtain ⟨sound, goes⟩ := later.pollChair owner rfl placed about unauthorised
        refine ⟨.saved h.consistent sound, fun askId polled result => ?_⟩
        obtain ⟨last, call, authority⟩ := goes askId polled result
        refine ⟨by rw [durable_cons]; exact last, ?_, authority⟩
        rwa [append_assoc] at call

/-- A landing with a record goes on consistently. -/
lemma InCall.drive (owner : LandOwner) (plan : PlannedGraph) (named : node.id = id) :
    SoundActs id acts checkpoint (driveLand owner plan node record checkpoint) := by
  unfold driveLand
  rcases h.backed.of_unlanded h.unlanded with ⟨authority, -⟩ | ⟨authority, -⟩
  · obtain ⟨sound, goes⟩ := h.askChair owner plan named authority
    rw [authority]
    cases asked : Graph.askChair owner plan node record checkpoint with
    | mk _ result =>
      rw [asked] at sound goes
      cases result with
      | none => exact sound
      | some found =>
        obtain ⟨askId, polled⟩ := found
        obtain ⟨last, later, question⟩ := goes askId polled rfl
        refine sound.append ?_
        rw [last]
        exact soundActs_requestLand owner plan named (some askId) _ later question
  · rw [authority]
    exact soundActs_requestLand owner plan named none _ h authority

end Driving

/-- The acts of a landing that has no record yet. -/
lemma Consistent.unpinned (h : Consistent id acts checkpoint)
    (found : checkpoint.row? id = some row) (land : row.notes.land = none)
    (asks : next.notes.asks = checkpoint.notes.asks) (landOnly : AsksLand id checkpoint)
    (found' : next.row? id = some row') (valid : landValid row' next = true)
    (backed : ∀ record, row'.notes.land = some record → Backed row' record)
    (waits : ∀ record, row'.notes.land = some record → record.wakeAt = none)
    (unlanded : row'.state ≠ .succeeded) : Consistent id (acts ++ [.save next]) next := by
  have quiet : ∀ answered, .answer answered ∉ acts := by
    intro answered member
    have some := (h.stopped answered member row found).1
    rw [land] at some
    cases some
  have same : landAsks id next = landAsks id checkpoint := congrArg (filter _) asks
  have stored : storedRecord id acts = none := by rw [← h.record row found, land]
  refine ⟨h.lawful.snoc ⟨⟨row', found', valid⟩, ?_, ?_, ?_⟩, ?_, ?_, ?_, ?_, ?_, ?_⟩
  · rw [asks, filter_about landOnly]
    exact h.single
  · rw [stored]
    exact nofun
  · intro row'' found'' succeeded
    cases found'.symm.trans found''
    exact absurd succeeded unlanded
  · intro row'' found''
    rw [storedRecord_snoc]
    change _ = landRecord id next
    rw [landRecord, found'']
    rfl
  · intro row'' record found'' recorded
    cases found'.symm.trans found''
    exact backed record recorded
  · intro record recorded _ wake
    rw [landRecord, found'] at recorded
    rw [waits record recorded] at wake
    cases wake
  · rw [same]
    exact h.single
  · rw [same]
    exact h.unanswered
  · intro answered member
    exact absurd (by simpa using member) (quiet answered)

/-- Every point of a call is consistent, if the call finds a row and questions that a load accepts.

**Proof sketch.** An accepted row that is not settled is clean, and is running exactly if it has a
record. Without a record, the call fails the row or pins a head; with one, it asks if it has no
authority (`InCall.askChair`), and makes its requests (`soundActs_requestLand`). -/
lemma Consistent.landAdvance (h : Consistent id acts checkpoint) (owner : LandOwner)
    (plan : PlannedGraph) (named : node.id = id)
    (valid : ∀ row, checkpoint.row? id = some row → landValid row checkpoint = true)
    (landOnly : AsksLand id checkpoint) :
    SoundActs id acts checkpoint (Graph.landAdvance owner plan node checkpoint) := by
  subst named
  unfold Graph.landAdvance
  split
  · exact .nil h
  rename_i row found
  split
  · exact .nil h
  rename_i unsettled
  have unsettled : row.state.settled = false := by simpa using unsettled
  obtain ⟨clean, stands⟩ := clean_of_landValid (valid row found) unsettled
  have failing : ∀ code reason, row.notes.land = none → Consistent node.id
      (acts ++ [.save (checkpoint.update node.id (landFail code reason))])
      (checkpoint.update node.id (landFail code reason)) := by
    intro code reason land
    refine h.unpinned found land rfl landOnly
      (row?_update_self (fun _ _ same => same) found) ?_ ?_ ?_ nofun
    · refine landValid_failed rfl (fun _ recorded => ?_) ?_ clean.attempts clean.gate clean.ci rfl
      · cases land.symm.trans recorded
      · rw [show (landFail code reason row).notes.land = none from land]
        rfl
    · intro record recorded
      cases land.symm.trans recorded
    · intro record recorded
      cases land.symm.trans recorded
  split
  next record land =>
    rcases stands with ⟨-, none⟩ | ⟨running, -⟩
    · cases land.symm.trans none
    · exact InCall.drive ⟨h, found, running, land, clean, landOnly⟩ owner plan rfl
  next land =>
    split
    · exact .ends h (failing _ _ land)
    · split
      · exact .ends h (failing _ _ land)
      next branch head _ _ _ =>
        let record := pinnedRecord owner node branch head
        have found' : (checkpoint.update node.id fun row =>
            { withRecord record row with state := .running }).row? node.id =
            some { withRecord record row with state := .running } :=
          row?_update_self (fun _ _ same => same) found
        have backed : Backed { withRecord record row with state := .running } record := by
          change match (if owner.policy = .auto then some LandAuthority.policy else none) with
            | none => owner.policy = .ask
            | some .policy => owner.policy = .auto
            | some (.chair _) => _
          cases owner.policy with
          | ask | auto => rfl
        have clean' := clean.recorded record .running
        have saved := h.unpinned found land (show (checkpoint.update node.id fun row =>
            { withRecord record row with state := .running }).notes.asks = _ from rfl) landOnly
          found'
          (landValid_running rfl rfl backed clean')
          (fun _ stored => by cases stored; exact backed) (fun _ stored => by cases stored; rfl) nofun
        refine .saved h (InCall.drive ⟨saved, found', rfl, rfl, clean', landOnly⟩ owner plan rfl)

end Call

end Provenant.Graph

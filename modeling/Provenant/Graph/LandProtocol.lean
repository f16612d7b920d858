import Provenant.Graph.LandCall

/-!
# The landing protocol

Between two redos of a landing all its requests are about the same head, no number is sent that was
not saved before, and the node succeeds only through the merge of that number.

## Main results

* `landing_protocol` — in every run whose calls find a row and questions that a load accepts, the
  acts of every landing keep to the protocol.
* `pending_landing_saved` — a run in which a call saves a row that no load accepts.
-/

namespace Provenant.Graph

open List Option Function GraphCheckpoint

open Json (Text text)
open Relation

/-! ### What a call changes -/

/-- Both records are about the same work. -/
structure SameWorkRecord (record record' : LandRecord) : Prop where
  branch : record'.branch = record.branch
  head : record'.head = record.head
  tier : record'.tier = record.tier

/-- The act is about the head of a record. -/
def AboutRecord (id : Text) (record : LandRecord) : LandAct → Prop
  | .save checkpoint | .answer checkpoint =>
      ∃ record', landRecord id checkpoint = some record' ∧ SameWorkRecord record record'
  | .request request =>
      request.branch = record.branch ∧ request.head = record.head ∧ request.tier = record.tier
  | .observe _ => True

variable {node : GraphNode}

section Elsewhere

variable {id : Text} {trace : List LandAct} {act : LandAct} {checkpoint next last : GraphCheckpoint}
  {record known : LandRecord} {row : NodeProgress}

/-- The launches of a row and what they start from are the same. -/
structure SameLaunches (row row' : NodeProgress) : Prop where
  id : row'.id = row.id
  attempts : row'.attempts = row.attempts
  commit : row'.notes.sourceCommit = row.notes.sourceCommit

/-- Every other node has the same row and the same questions about its landing, and the node itself
has the same launches. -/
structure SameElsewhere (id : Text) (before after : GraphCheckpoint) : Prop where
  rows : ∀ other, other ≠ id → after.row? other = before.row? other
  asks : ∀ other, other ≠ id → landAsks other after = landAsks other before
  launches : List.Forall₂ SameLaunches before.nodes after.nodes

lemma SameElsewhere.refl : SameElsewhere id checkpoint checkpoint :=
  ⟨fun _ _ => rfl, fun _ _ => rfl, forall₂_same.2 fun _ _ => ⟨rfl, rfl, rfl⟩⟩

lemma SameElsewhere.trans (h : SameElsewhere id checkpoint next)
    (h' : SameElsewhere id next last) : SameElsewhere id checkpoint last where
  rows other apart := (h'.rows other apart).trans (h.rows other apart)
  asks other apart := (h'.asks other apart).trans (h.asks other apart)
  launches := Related.forall₂_comp (fun _ _ _ one two => ⟨two.id.trans one.id,
    two.attempts.trans one.attempts, two.commit.trans one.commit⟩) h.launches h'.launches

lemma SameElsewhere.wake (h : SameElsewhere id checkpoint next) :
    SameElsewhere id checkpoint (refreshWake next) :=
  ⟨h.rows, h.asks, h.launches⟩

variable {f : NodeProgress → NodeProgress}

/-- A change of the row of the node. -/
lemma SameElsewhere.update (keeps : ∀ row, SameLaunches row (f row)) :
    SameElsewhere id checkpoint (checkpoint.update id f) where
  rows other apart := by
    rw [row?_update fun row _ same => (keeps row).id.trans same]
    cases found : checkpoint.row? other with
    | none => rfl
    | some _ =>
      have named := id_of_row? found
      rw [map_some, if_neg (by rw [named]; exact apart)]
  asks _ _ := rfl
  launches := forall₂_map_right_iff.2 <| forall₂_same.2 fun row _ => by
    split
    · exact keeps row
    · exact ⟨rfl, rfl, rfl⟩

lemma not_about_other {ask : NodeAsk} {other : Text} (about : ask.about id = true)
    (apart : other ≠ id) : ask.about other = false := by
  unfold NodeAsk.about at about ⊢
  rw [eq_of_beq about]
  simpa using Ne.symm apart

/-- A change of a question about the node. -/
lemma SameElsewhere.modify {position : Nat} {f : NodeAsk → NodeAsk}
    (about : ∀ ask, checkpoint.notes.asks[position]? = some ask → ask.about id = true)
    (keeps : ∀ ask, (f ask).node = ask.node) :
    SameElsewhere id checkpoint
      (checkpoint.withAsks (checkpoint.notes.asks.modify position f)) where
  rows _ _ := rfl
  asks other apart := by
    refine Related.filter_modify fun ask found => ?_
    have outside := not_about_other (about ask found) apart
    constructor
    · rw [outside, Bool.and_false]
    · rw [show (f ask).about other = ask.about other by simp only [NodeAsk.about, keeps], outside,
        Bool.and_false]
  launches := forall₂_same.2 fun _ _ => ⟨rfl, rfl, rfl⟩

/-- Every save leaves the other nodes alone. -/
def SavesElsewhere (id : Text) (checkpoint : GraphCheckpoint) (trace : List LandAct) : Prop :=
  ∀ act ∈ trace, ∀ next, act.saved = some next → SameElsewhere id checkpoint next

/-- What is durable after a call leaves the other nodes alone. -/
lemma SavesElsewhere.durable (h : SavesElsewhere id checkpoint trace) :
    SameElsewhere id checkpoint (durable trace checkpoint) := by
  unfold Graph.durable
  cases last : (saves trace).getLast? with
  | none => exact .refl
  | some next =>
    obtain ⟨act, member, saved⟩ := mem_filterMap.1 (mem_of_getLast? last)
    exact h act member next saved

lemma SameWorkRecord.refl : SameWorkRecord record record := ⟨rfl, rfl, rfl⟩

lemma SameWorkRecord.symm (h : SameWorkRecord record known) : SameWorkRecord known record :=
  ⟨h.branch.symm, h.head.symm, h.tier.symm⟩

lemma SameWorkRecord.trans {third : LandRecord} (h : SameWorkRecord record known)
    (h' : SameWorkRecord known third) : SameWorkRecord record third :=
  ⟨h'.branch.trans h.branch, h'.head.trans h.head, h'.tier.trans h.tier⟩

/-- The record of a row that was changed. -/
lemma landRecord_update (keeps : ∀ row, (f row).id = row.id)
    (found : checkpoint.row? id = some row) :
    landRecord id (checkpoint.update id f) = (f row).notes.land := by
  rw [landRecord, row?_update_self (fun row _ same => (keeps row).trans same) found]
  rfl

lemma AboutRecord.of_same (same : SameWorkRecord record known) (h : AboutRecord id known act) :
    AboutRecord id record act := by
  cases act with
  | save | answer =>
    obtain ⟨last, stored, same'⟩ := h
    exact ⟨last, stored, same.trans same'⟩
  | request =>
    exact ⟨h.1.trans same.branch, h.2.1.trans same.head, h.2.2.trans same.tier⟩
  | observe => trivial

/-- An act of a call, when a checkpoint is durable: it leaves the other nodes alone and is about the
head of the record. -/
structure ActsOn (id : Text) (checkpoint : GraphCheckpoint) (act : LandAct) : Prop where
  elsewhere : ∀ next, act.saved = some next → SameElsewhere id checkpoint next
  about : ∀ record, landRecord id checkpoint = some record → AboutRecord id record act

/-- An act after a save. -/
lemma ActsOn.after (first : ActsOn id checkpoint (.save next)) (h : ActsOn id next act) :
    ActsOn id checkpoint act where
  elsewhere last saved := (first.elsewhere next rfl).trans (h.elsewhere last saved)
  about record stored := by
    obtain ⟨known, stored', same⟩ := first.about record stored
    exact .of_same same (h.about known stored')

lemma ActsOn.save (first : ActsOn id checkpoint (.save next)) (rest : ∀ act ∈ trace, ActsOn id next act) :
    ∀ act ∈ .save next :: trace, ActsOn id checkpoint act :=
  forall_mem_cons.2 ⟨first, fun act member => first.after (rest act member)⟩

lemma ActsOn.ends (last : ActsOn id checkpoint act) : ∀ act' ∈ [act], ActsOn id checkpoint act' :=
  forall_mem_singleton.2 last

/-- A save that leaves the row of the node alone. -/
lemma ActsOn.of_row (same : SameElsewhere id checkpoint next)
    (kept : next.row? id = checkpoint.row? id) : ActsOn id checkpoint (.save next) where
  elsewhere _ saved := by cases saved; exact same
  about record stored := ⟨record, by rw [landRecord, kept]; exact stored, .refl⟩

/-- A save of a change of the row of the node. -/
lemma ActsOn.update (keeps : ∀ row, SameLaunches row (f row))
    (work : ∀ row record, checkpoint.row? id = some row → row.notes.land = some record →
      ∃ record', (f row).notes.land = some record' ∧ SameWorkRecord record record') :
    ActsOn id checkpoint (.save (checkpoint.update id f)) where
  elsewhere _ saved := by cases saved; exact .update keeps
  about record stored := by
    obtain ⟨row, found, land⟩ := bind_eq_some_iff.1 stored
    obtain ⟨record', land', same⟩ := work row record found land
    exact ⟨record', (landRecord_update (fun row => (keeps row).id) found).trans land', same⟩

/-- A save of another record of the same work. -/
lemma ActsOn.records (works : AboutRecord id record (.save checkpoint))
    (keeps : ∀ row, SameLaunches row (f row)) (lands : ∀ row, (f row).notes.land = some known)
    (same : SameWorkRecord record known) :
    ActsOn id checkpoint (.save (checkpoint.update id f)) := by
  refine .update keeps fun row stored found land => ⟨known, lands row, ?_⟩
  obtain ⟨_, found', same'⟩ := works
  rw [landRecord, found] at found'
  cases land.symm.trans found'
  exact same'.symm.trans same

lemma ActsOn.fail (code reason : Text) :
    ActsOn id checkpoint (.save (checkpoint.update id (landFail code reason))) :=
  .update (fun _ => ⟨rfl, rfl, rfl⟩) fun _ record _ land => ⟨record, land, .refl⟩

lemma ActsOn.wake (h : ActsOn id checkpoint (.save next)) :
    ActsOn id checkpoint (.save (refreshWake next)) where
  elsewhere _ saved := by cases saved; exact (h.elsewhere next rfl).wake
  about := h.about

/-- A request that a record of the same work makes. -/
lemma ActsOn.request {plan : PlannedGraph} (works : AboutRecord id record (.save checkpoint)) :
    ActsOn id checkpoint (.request (landRequest plan node record)) where
  elsewhere _ saved := by cases saved
  about stored found := by
    obtain ⟨_, found', same⟩ := works
    cases found.symm.trans found'
    exact ⟨same.branch.symm, same.head.symm, same.tier.symm⟩

lemma ActsOn.observe {observation : LandObservation} :
    ActsOn id checkpoint (.observe observation) where
  elsewhere _ saved := by cases saved
  about _ _ := trivial

section Owner

variable (owner : LandOwner)
include owner

/-- Polling a question about the node. -/
lemma actsOn_pollChair (record : LandRecord) {position : Nat}
    (about : ∀ ask, checkpoint.notes.asks[position]? = some ask → ask.about node.id = true) :
    (∀ act ∈ (pollChair owner node record checkpoint position).1, ActsOn node.id checkpoint act) ∧
      ∀ askId polled,
        (pollChair owner node record checkpoint position).2 = some (askId, polled) →
        ActsOn node.id checkpoint (.save polled) := by
  have polls : ActsOn node.id checkpoint (.save (pollAsk owner checkpoint position).2) :=
    .of_row (.modify about fun _ => rfl) rfl
  unfold pollChair
  split
  · exact ⟨forall_mem_nil _, fun _ _ none => by cases none⟩
  rename_i ask found
  split
  · exact ⟨forall_mem_nil _, nofun⟩
  split
  next polled same =>
    rw [same] at polls
    refine ⟨?_, fun askId polled' result => ?_⟩
    · dsimp only
      split
      · exact polls.ends
      · exact forall_mem_nil _
    · cases result
      exact polls
  next reply polled same =>
    have still : ∀ ask, polled.notes.asks[position]? = some ask → ask.about node.id = true := by
      have modified : polled = (pollAsk owner checkpoint position).2 := by rw [same]
      intro ask' found'
      rw [modified] at found'
      have place : (checkpoint.notes.asks.modify position _)[position]? = some ask' := found'
      rw [getElem?_modify_eq, found] at place
      cases place
      exact about ask found
    rw [same] at polls
    let failed := polled.update node.id (answeredRow node record ask.askId (recordedAnswer reply))
    have fails : ActsOn node.id polled (.save failed) :=
      .update (fun _ => ⟨rfl, rfl, rfl⟩) fun row stored _ land =>
        ⟨{ stored with wakeAt := none }, by simp [answeredRow, land], ⟨rfl, rfl, rfl⟩⟩
    have answers : ActsOn node.id failed (.save (failed.withAsks (failed.notes.asks.modify position
        fun ask => { ask with answer := some (recordedAnswer reply), resolved := true }))) :=
      .of_row (.modify still fun _ => rfl) rfl
    have saved := polls.after (fails.after answers.wake)
    exact ⟨ActsOn.ends ⟨saved.elsewhere, saved.about⟩, nofun⟩

/-- Asking. -/
lemma actsOn_askChair (plan : PlannedGraph) (node : GraphNode) (record : LandRecord) :
    (∀ act ∈ (askChair owner plan node record checkpoint).1, ActsOn node.id checkpoint act) ∧
      ∀ askId polled, (askChair owner plan node record checkpoint).2 = some (askId, polled) →
        ActsOn node.id checkpoint (.save polled) := by
  unfold askChair
  split
  next position found =>
    obtain ⟨ask, placed, about⟩ := askPosition_eq_some found
    refine actsOn_pollChair owner record fun ask' found' => ?_
    cases placed.symm.trans found'
    exact about
  split
  · exact ⟨(ActsOn.fail _ _).ends, fun _ _ none => by cases none⟩
  rename_i session _
  split
  · exact ⟨forall_mem_nil _, nofun⟩
  rename_i identified known
  have same : identified.nodes = checkpoint.nodes ∧
      identified.notes.asks = checkpoint.notes.asks := by
    obtain ⟨_, -, same⟩ := bind_eq_some_iff.1 known
    cases same
    exact ⟨rfl, rfl⟩
  generalize raised : refreshWake (identified.withAsks
    (identified.notes.asks ++ [landAsk node.id session])) = asked
  have rows : ∀ other, asked.row? other = checkpoint.row? other := by
    intro other
    rw [← raised, GraphCheckpoint.row?, GraphCheckpoint.row?, ← same.1]
    rfl
  have asks : asked.notes.asks = checkpoint.notes.asks ++ [landAsk node.id session] := by
    rw [← raised, ← same.2]
    rfl
  have about : (landAsk node.id session).about node.id = true := beq_self_eq_true (some node.id)
  have raises : ActsOn node.id checkpoint (.save asked) := by
    refine .of_row ⟨fun other _ => rows other, fun other apart => ?_, ?_⟩ (rows node.id)
    · rw [landAsks, asks, filter_append, filter_singleton, not_about_other about apart,
        Bool.and_false]
      exact append_nil _
    · rw [← raised, ← same.1]
      exact forall₂_same.2 fun _ _ => ⟨rfl, rfl, rfl⟩
  have last : ∀ ask, asked.notes.asks[checkpoint.notes.asks.length]? = some ask →
      ask.about node.id = true := by
    intro ask found
    rw [asks, getElem?_append_right (le_refl _), Nat.sub_self] at found
    cases found
    exact about
  obtain ⟨sound, goes⟩ := actsOn_pollChair owner record last
  exact ⟨raises.save sound, fun askId polled result => raises.after (goes askId polled result)⟩

/-- What follows the last observation of a call. -/
lemma actsOn_concludeLand (asked : Option Text)
    (works : AboutRecord node.id record (.save checkpoint)) (observation : LandObservation) :
    ∀ act ∈ concludeLand owner node asked record checkpoint observation,
      ActsOn node.id checkpoint act := by
  cases observation with
  | identified => exact forall_mem_nil _
  | merged | pending =>
    unfold concludeLand
    dsimp only
    split
    · exact forall_mem_nil _
    · exact .ends (.wake (.records works (fun _ => ⟨rfl, rfl, rfl⟩) (fun _ => rfl) ⟨rfl, rfl, rfl⟩))
  | refused =>
    have stops : ActsOn node.id checkpoint (.save (checkpoint.update node.id
        (withRecord { record with wakeAt := none }))) :=
      .records works (fun _ => ⟨rfl, rfl, rfl⟩) (fun _ => rfl) ⟨rfl, rfl, rfl⟩
    exact (stops.wake.after (.fail _ _)).ends

/-- The requests of a call. -/
lemma actsOn_requestLand (plan : PlannedGraph) (node : GraphNode) (asked : Option Text)
    (observations : List (Except Text LandObservation))
    (works : AboutRecord node.id record (.save checkpoint)) :
    ∀ act ∈ requestLand owner plan node asked record checkpoint observations,
      ActsOn node.id checkpoint act := by
  induction observations generalizing record checkpoint with
  | nil => exact (ActsOn.request works).ends
  | cons result _ ih =>
    cases result with
    | error _ => exact (ActsOn.request works).ends
    | ok observation =>
      refine forall_mem_cons.2 ⟨.request works, forall_mem_cons.2 ⟨.observe, ?_⟩⟩
      cases observation with
      | identified number =>
        dsimp only
        split
        · exact forall_mem_nil _
        · have saves : ActsOn node.id checkpoint (.save (checkpoint.update node.id
              (withRecord { record with pullRequest := some number }))) :=
            .records works (fun _ => ⟨rfl, rfl, rfl⟩) (fun _ => rfl) ⟨rfl, rfl, rfl⟩
          obtain ⟨stored, found, same⟩ := works
          have works' : AboutRecord node.id { record with pullRequest := some number }
              (.save (checkpoint.update node.id
                (withRecord { record with pullRequest := some number }))) :=
            .of_same ⟨same.branch, same.head, same.tier⟩ (saves.about stored found)
          exact saves.save (ih works')
      | merged | pending | refused => exact actsOn_concludeLand owner asked works _

/-- A landing with a record. -/
lemma actsOn_driveLand (plan : PlannedGraph) (node : GraphNode)
    (works : AboutRecord node.id record (.save checkpoint)) :
    ∀ act ∈ driveLand owner plan node record checkpoint, ActsOn node.id checkpoint act := by
  unfold driveLand
  split
  · exact actsOn_requestLand owner plan node _ _ works
  · obtain ⟨sound, goes⟩ := @actsOn_askChair checkpoint owner plan node record
    split
    next result =>
      rw [result] at sound
      exact sound
    next askId polled result =>
      rw [result] at sound goes
      have polls := goes askId polled rfl
      obtain ⟨stored, found, same⟩ := works
      refine forall_mem_append.2 ⟨sound, fun act member => polls.after ?_⟩
      exact actsOn_requestLand owner plan node _ _ (.of_same same (polls.about stored found)) act
        member

/-- **A call leaves the other nodes alone, and is about the head of its record.** -/
lemma actsOn_landAdvance (plan : PlannedGraph) (node : GraphNode) :
    ∀ act ∈ landAdvance owner plan node checkpoint, ActsOn node.id checkpoint act := by
  unfold landAdvance
  split
  · exact forall_mem_nil _
  rename_i row found
  split
  · exact forall_mem_nil _
  split
  next record land =>
    exact actsOn_driveLand owner plan node ⟨record, by rw [landRecord, found]; exact land, .refl⟩
  rename_i unpinned
  split
  · exact (ActsOn.fail _ _).ends
  split
  · exact (ActsOn.fail _ _).ends
  · refine ActsOn.save (.update (fun _ => ⟨rfl, rfl, rfl⟩) fun row' stored found' land => ?_)
      (actsOn_driveLand owner plan node ⟨_, landRecord_update (fun _ => rfl) found, .refl⟩)
    cases found.symm.trans found'
    cases unpinned.symm.trans land

lemma savesElsewhere_landAdvance (plan : PlannedGraph) (node : GraphNode)
    (cut : trace <+: landAdvance owner plan node checkpoint) :
    SavesElsewhere node.id checkpoint trace :=
  fun act member => (actsOn_landAdvance owner plan node act (cut.subset member)).elsewhere

end Owner

end Elsewhere

/-! ### Whole runs -/

section Run

variable {document : GraphDocument} {policy : ReviewPolicy} {id : Text} {acts : List LandAct}
  {checkpoint next : GraphCheckpoint}

/-- A landing depends on the row of its node and on the questions about it only. -/
lemma Consistent.elsewhere (h : Consistent id acts checkpoint)
    (rows : next.row? id = checkpoint.row? id)
    (asks : landAsks id next = landAsks id checkpoint) : Consistent id acts next where
  lawful := h.lawful
  record row found := h.record row (rows.symm.trans found)
  backed row record found := h.backed row record (rows.symm.trans found)
  asked record found := by
    rw [asks]
    refine h.asked record ?_
    rwa [landRecord, rows] at found
  single := by rw [asks]; exact h.single
  unanswered := by rw [asks]; exact h.unanswered
  stopped answered member row found := h.stopped answered member row (rows.symm.trans found)

/-- A landing without acts and without a record. -/
lemma consistent_unrecorded (fresh : landRecord id next = none)
    (single : (landAsks id next).length ≤ 1)
    (unanswered : ∀ ask ∈ landAsks id next, ask.resolved = false → ask.answer = none) :
    Consistent id [] next := by
  have none : ∀ row, next.row? id = some row → row.notes.land = none := by
    intro row found
    rwa [landRecord, found] at fresh
  refine ⟨.nil, none, ?_, ?_, single, unanswered, ?_⟩
  · intro row record found recorded
    cases (none row found).symm.trans recorded
  · intro record recorded
    cases fresh.symm.trans recorded
  · intro answered member
    cases member

/-- A landing that was redone has no acts and no record. -/
lemma Consistent.renewed (h : Consistent id acts checkpoint)
    (fresh : landRecord id next = none)
    (asks : List.SublistForall₂ (fun ask' ask => KeptAsk ask ask') (landAsks id next)
      (landAsks id checkpoint)) : Consistent id [] next := by
  obtain ⟨kept, related, among⟩ := sublistForall₂_iff.1 asks
  refine consistent_unrecorded fresh ?_ ?_
  · rw [related.length_eq]
    exact among.length_le.trans h.single
  · intro ask' member open'
    obtain ⟨ask, member', same⟩ := Fallible.exists_of_forall₂ related.flip member
    rw [same.same]
    refine h.unanswered ask (among.subset member') ?_
    by_contra resolved
    rw [same.resolved (by simpa using resolved)] at open'
    cases open'

/-- The questions about a landing that a load accepts are questions of a landing. -/
lemma CallAccepted.asksLand {s : Driver document} {index : Nat} (accepted : CallAccepted s node)
    (dispatched : Dispatched policy s index node .land checkpoint) :
    AsksLand node.id s.checkpoint := by
  intro ask member about
  obtain ⟨unlooped, undecided, -⟩ := nodeAction_spec dispatched.action
  have matching := accepted.2 ask member about
  have about : ask.node = some node.id := eq_of_beq about
  cases kind : ask.kind with
  | land => rfl
  | loop => simp [askMatches, kind, about, dispatched.node?, unlooped] at matching
  | decide => simp [askMatches, kind, about, dispatched.node?, undecided] at matching
  | pause => simp [askMatches, kind, about] at matching

/-- A graph before its first pass has no landings. -/
lemma Unlanded.consistent {state : Landing document} (h : Unlanded state) (id : Text) :
    Consistent id (state.acts id) state.driver.checkpoint := by
  have unasked : landAsks id state.driver.checkpoint = [] := congrArg (filter _) h.asks
  have fresh : landRecord id state.driver.checkpoint = none :=
    bind_eq_none_iff.2 fun row found => h.records row (mem_of_row? found)
  rw [h.acts id]
  exact consistent_unrecorded fresh (by simp [unasked]) (by simp [unasked])

/-- Every step keeps every landing consistent. -/
lemma AcceptedStep.consistent {state state' : Landing document}
    (step : AcceptedStep policy state state')
    (h : ∀ id, Consistent id (state.acts id) state.driver.checkpoint) (id : Text) :
    Consistent id (state'.acts id) state'.driver.checkpoint := by
  obtain ⟨_, step, accepted⟩ := step
  cases step with
  | drive _ _ notes logged =>
    obtain ⟨kept, fresh, asks, dropped⟩ := notes id
    rw [logged id]
    split
    next going =>
      obtain ⟨row, row', found, found', -⟩ := rows_of_goesOn going
      obtain ⟨land, settled⟩ := kept row row' found found' going
      exact (h id).kept found found' land settled (asks going)
    next renewed => exact (h id).renewed (fresh (by simpa using renewed)) dropped
  | call dispatched unpaused cut plan saved phase begun logged =>
    rename_i index node checkpoint owner acts
    have accepted := accepted node rfl
    rw [logged, saved]
    by_cases same : id = node.id
    · subst same
      rw [update_self]
      exact (h node.id).landAdvance owner state.driver.plan rfl accepted.1
        (accepted.asksLand dispatched) acts cut
    · rw [update_of_ne same]
      have apart := (savesElsewhere_landAdvance owner state.driver.plan node cut).durable
      exact (h id).elsewhere (apart.rows id same) (apart.asks id same)

/-- Between two redos of its node, every landing of a run whose calls find what a load accepts keeps
to the protocol: its requests carry one branch, head and tier, an authority only under a policy that
lands at once, and a number only after that number was saved; at most one question is stored; the
node succeeds only on the merge of the number that was sent, and never after an answer; and every
row that a call saves is accepted by a load.

**Proof sketch.** At every point of a call what is durable is consistent with the acts so far
(`Consistent.landAdvance`); the steps of the driver keep the record or drop it together with the acts
(`AcceptedStep.consistent`). Consistent acts are lawful, and lawful acts keep to the protocol
(`Lawful.protocol`). -/
theorem landing_protocol {start state : Landing document} (unlanded : Unlanded start)
    (run : ReflTransGen (AcceptedStep policy) start state) (id : Text) :
    Protocol id (state.acts id) := by
  have consistent : ∀ id, Consistent id (state.acts id) state.driver.checkpoint := by
    induction run with
    | refl => exact unlanded.consistent
    | tail _ step ih => exact step.consistent ih
  exact (consistent id).lawful.protocol

end Run

/-! ### Graphs with one landing -/

section Sole

variable {document : GraphDocument}

/-- A state of a graph with one landing, in which nothing was asked. -/
def soleLanding (plan : PlannedGraph) (phase : Phase) (nodes : List NodeProgress)
    (begun : List AttemptKey) (expansions : List Expansion) (wakeAt : Option Nat)
    (acts : List LandAct) (aligned : nodes.map (·.id) = plan.nodes.map (·.id))
    (planned : ∃ expanded, expand document [] expansions = some expanded ∧ Plans expanded plan) :
    Landing document :=
  { driver := {
      plan
      checkpoint := { expansions, nodes, notes := { askActor := some (text "graph"), wakeAt } }
      phase, begun, planned, aligned }
    acts := Function.update (fun _ => []) (text "land") acts }

/-- Nothing is landed before the first pass. -/
lemma unlanded_soleLanding {plan : PlannedGraph}
    {aligned : (plan.nodes.map freshRow).map (·.id) = plan.nodes.map (·.id)}
    {planned : ∃ expanded, expand document [] [] = some expanded ∧ Plans expanded plan} :
    Unlanded (soleLanding plan .idle (plan.nodes.map freshRow) [] [] none [] aligned planned) := by
  refine ⟨⟨rfl, rfl, rfl, rfl, ?_⟩, rfl, fun row member => ?_, fun id => ?_⟩
  · exact forall₂_map_right_iff.2 (forall₂_same.2 fun node _ =>
      .inl ⟨(freshRow node).notes, rfl⟩)
  · obtain ⟨node, -, rfl⟩ := List.mem_map.1 member
    rfl
  · exact congrFun (update_eq_self (text "land") fun _ => ([] : List LandAct)) id

lemma tracked_land (acts : List LandAct) :
    Tracked [text "land"] (Function.update (fun _ => []) (text "land") acts) :=
  fun _ other => update_of_ne (fun same => other (mem_singleton.2 same)) _ _

/-- The acts of a call go to the landing. -/
lemma update_land_append (acts later : List LandAct) :
    (Function.update (fun _ => []) (text "land") (acts ++ later) : Text → List LandAct) =
      Function.update (Function.update (fun _ => []) (text "land") acts) (text "land")
        (Function.update (fun _ => []) (text "land") acts (text "land") ++ later) := by
  rw [update_self, update_idem]

lemma AcceptedStep.drive {state state' : Landing document}
    (step : LandStep silentPolicy none state state') : AcceptedStep silentPolicy state state' :=
  ⟨none, step, fun _ member => by cases member⟩

/-- Choices that call no landing are accepted. -/
lemma AcceptedStep.run_of_play {s s' : Driver document} {acts : List LandAct}
    (choices : List Choice) (plan : s'.plan = s.plan)
    (played : (play silentPolicy s.plan (landless [text "land"] silentPolicy s.plan) s.place
      choices).map (·.1) = some s'.place) :
    ReflTransGen (AcceptedStep silentPolicy)
      ⟨s, Function.update (fun _ => []) (text "land") acts⟩
      ⟨s', Function.update (fun _ => []) (text "land") acts⟩ :=
  ReflTransGen.mono (fun _ _ step => .drive step.1) _ _
    (LandStep.run_of_play (tracked_land acts) choices plan played)

end Sole

/-! ### A change beside another one -/

section Example

/-- A writer that opens a pull request. -/
def shipWrite : GraphNode :=
  { id := text "write", access := .worktreeWrite, routes := [anyRoute], delivery := some .pr }

/-- The checks of what it wrote. -/
def shipCi : GraphNode :=
  { id := text "ci", dependsOn := [text "write"], condition := some .ci
    ciNode := some (text "write") }

def shipReview : GraphNode :=
  { id := text "review", dependsOn := [text "write"], routes := [anyRoute] }

def shipAccepted : GraphNode :=
  { id := text "accepted", dependsOn := [text "review"], condition := some .verdict
    expected := text "APPROVE", inputs := [{ node := text "review", outputs := [.verdict] }] }

/-- A report that the landing waits for, but which may fail. -/
def shipReport : GraphNode :=
  { id := text "report", dependsOn := [text "write"], routes := [anyRoute], advisory := true }

def shipLand : GraphNode :=
  { id := text "land", dependsOn := [text "ci", text "accepted", text "report"], land := true
    landNode := text "write" }

/-- Another writer, which starts once the change is accepted. It gets ready together with the landing
and comes after it in the document, so that it comes after it in the plan. -/
def shipTail : GraphNode :=
  { id := text "tail", access := .worktreeWrite, dependsOn := [text "accepted"]
    routes := [anyRoute] }

/-- A change that is written, checked, reviewed and landed, and a change beside it. -/
def shipDocument : GraphDocument :=
  { graphId := text "ship"
    nodes := [shipWrite, shipCi, shipReview, shipReport, shipAccepted, shipLand, shipTail] }

def shipPlan : PlannedGraph :=
  { graphId := text "ship"
    nodes := shipDocument.nodes }

/-- The policy lands at once, and the host answers that the merge is queued. -/
def queueOwner : LandOwner :=
  { policy := .auto, policySource := .config, entropy := none, actor := text "graph"
    inbox := .ok none, observations := [.ok (.pending (text "queued"))]
    wallNow := some 1000, backoffFirst := 1, backoffMax := 60 }

/-- The first launch of a node. -/
def shipKey (node : Text) : AttemptKey :=
  { graphId := text "ship", nodeId := node, routeIndex := 0, retryGeneration := none
    previousAttemptRef := none }

/-- A row right after its first launch was recorded. -/
def shipBegun (node : GraphNode) : NodeProgress :=
  beginAttempt node (shipKey node.id) anyRoute none (freshRow node)

/-- A launched row after its launch ended. -/
def shipEnded (node : GraphNode) (state : NodeState) (outcome : AttemptOutcome)
    (outputs : Option NodeOutputs) : NodeProgress :=
  { shipBegun node with
    state, outputs
    attempts := (shipBegun node).attempts.map fun attempt =>
      { attempt with
        state := .terminal, outcome := some outcome, settled := 1
        attemptRef := some (text "/attempts/" ++ node.id) } }

/-- The gate passed. -/
def shipPassed (node : GraphNode) : NodeProgress :=
  { freshRow node with state := .succeeded, gate := some { passed := true, onFail := none } }

def shipWritten : NodeProgress :=
  shipEnded shipWrite .succeeded .succeeded (some
    { branch := some (text "change"), commit := some (text "h1") })

def shipReviewed : NodeProgress :=
  shipEnded shipReview .succeeded .succeeded (some { verdict := some (text "APPROVE") })

/-- The record of the landing after it was observed for the given number of times. -/
def shipRecord (observed : Nat) (wakeAt : Nat) : LandRecord :=
  { tier := .routine, policy := .auto, policySource := .config, branch := text "change"
    head := text "h1", authorisedBy := some .policy, pullRequest := none
    note := some (text "queued"), wakeAt := some wakeAt, pendingObservations := observed }

def shipWaiting (state : NodeState) (observed : Nat) (wakeAt : Nat) : NodeProgress :=
  { withRecord (shipRecord observed wakeAt) (freshRow shipLand) with state }

/-- A state of a run. -/
def shipping (phase : Phase) (nodes : List NodeProgress) (begun : List AttemptKey)
    (expansions : List Expansion) (wakeAt : Option Nat) (acts : List LandAct)
    (aligned : nodes.map (·.id) = shipPlan.nodes.map (·.id) := by rfl)
    (planned : expand shipDocument [] expansions = some shipDocument := by rfl) :
    Landing shipDocument :=
  soleLanding shipPlan phase nodes begun expansions wakeAt acts aligned
    ⟨_, planned, rfl, rfl, rfl, .refl _⟩

/-- The rows once the change is approved. -/
def shipRows (report land tail : NodeProgress) : List NodeProgress :=
  [shipWritten, shipPassed shipCi, shipReviewed, report, shipPassed shipAccepted, land, tail]

/-- The report failed. -/
def shipFailed : NodeProgress := shipEnded shipReport .failed .otherFailure none

/-- The landing starts. -/
def shipReady : Landing shipDocument :=
  shipping (.visiting 5) (shipRows shipFailed (freshRow shipLand) (freshRow shipTail))
    [shipKey (text "report"), shipKey (text "review"), shipKey (text "write")] [] none []

/-- What the first call does. -/
def shipFirst : List LandAct :=
  landAdvance queueOwner shipPlan shipLand shipReady.driver.checkpoint

lemma durable_shipFirst : durable shipFirst shipReady.driver.checkpoint =
    (shipping .idle (shipRows shipFailed (shipWaiting .running 1 1001000) (freshRow shipTail)) []
      [] (some 1001000) []).driver.checkpoint := by
  decide +kernel

/-- The rows that are still to come. -/
def shipFresh (count : Nat) : List NodeProgress := (shipPlan.nodes.map freshRow).drop count

/-- The keys of the launches of the change, the latest first. -/
def shipKeys : List AttemptKey :=
  [shipKey (text "report"), shipKey (text "review"), shipKey (text "write")]

def shipStart : Landing shipDocument := shipping .idle (shipFresh 0) [] [] none []

lemma unlanded_shipStart : Unlanded shipStart := unlanded_soleLanding

/-- The change is written, checked, reviewed and approved, and the report fails. -/
lemma run_shipReady : ReflTransGen (AcceptedStep silentPolicy) shipStart shipReady :=
  AcceptedStep.run_of_play [.start, .attempt, .begin nothingObserved, .leave shipWritten,
    .settle (shipPassed shipCi), .attempt, .begin nothingObserved, .leave shipReviewed,
    .attempt, .begin nothingObserved, .leave shipFailed, .settle (shipPassed shipAccepted)]
    rfl (by decide +kernel)

/-- The report after its delivery. -/
def shipReopened : NodeProgress := reopenRow shipFailed

/-- The report succeeds after all. -/
def shipReported : NodeProgress :=
  { shipReopened with
    state := .succeeded
    attempts := shipReopened.attempts.map fun attempt =>
      { attempt with state := .terminal, outcome := some .succeeded } }

/-- The other writer stopped without work. -/
def shipStopped : NodeProgress := shipEnded shipTail .failed .stoppedNoWork none

/-- The other writer is reset. -/
def shipReset : NodeProgress :=
  { id := text "tail", previousAttempts := shipStopped.attempts, retryGeneration := some 1 }

/-- The other writer is redone. -/
def shipRedone : NodeProgress := retainAccounting shipStopped shipReset

/-- The record of the redo. -/
def shipRedo : List Expansion := [.live (retryAddition shipTail (text "stopped without work"))]

/-- All launches, the latest first. -/
def shipAllKeys : List AttemptKey := shipKey (text "tail") :: shipKeys

/-- The rows while the landing waits again for the report. -/
def shipHeld (tail : NodeProgress) : List NodeProgress :=
  shipRows shipReopened (shipWaiting .pending 1 1001000) tail

lemma retryCandidate_ship : retryCandidate shipDocument
    (shipping (.visiting 7) (shipHeld shipStopped) shipAllKeys [] none shipFirst).driver.checkpoint
      (text "tail") none false =
    some ((shipping .idle (shipHeld shipReset) [] [] none []).driver.checkpoint, shipTail) := by
  decide +kernel

/-- The landing is called a second time: its row waits for nothing and has a record. -/
def shipAgain : Landing shipDocument :=
  shipping (.visiting 5) (shipRows shipReported (shipWaiting .pending 1 1001000) shipRedone)
    shipAllKeys shipRedo none shipFirst

/-- The landing is called and waits. Then the report is delivered after all, so that the landing goes
back to wait for it, and the redo of the other writer starts a new pass in which the report
succeeds. -/
lemma run_shipAgain : ReflTransGen (AcceptedStep silentPolicy) shipReady shipAgain := by
  let s₁ := shipping (.visiting 6) (shipRows shipFailed (shipWaiting .running 1 1001000)
    (freshRow shipTail)) shipKeys [] (some 1001000) shipFirst
  let s₂ := shipping (.visiting 7) (shipHeld shipStopped) shipAllKeys [] none shipFirst
  let s₃ := shipping .idle (shipHeld shipRedone) shipAllKeys shipRedo none shipFirst
  have called : LandStep silentPolicy (some shipLand) shipReady s₁ :=
    .call ⟨rfl, rfl, rfl⟩ rfl (prefix_refl shipFirst) rfl durable_shipFirst.symm (.inl rfl) rfl
      (update_land_append [] shipFirst)
  have accepted : ∀ node ∈ some shipLand, CallAccepted shipReady.driver node := by
    rintro _ ⟨⟩
    refine ⟨fun row found => ?_, fun ask member => by cases member⟩
    cases found
    decide +kernel
  have held : ReflTransGen (AcceptedStep silentPolicy) s₁ s₂ :=
    AcceptedStep.run_of_play [.finish, .note { askActor := some (text "graph") }, .deliver (text "report"), .start,
      .wait, .wait, .wait, .attempt, .leave shipReopened, .wait, .wait, .attempt,
      .begin nothingObserved, .leave shipStopped] rfl (by decide +kernel)
  have redo : Step silentPolicy (.retry (text "tail")) s₂.driver s₃.driver :=
    .redo rfl (.inl rfl) retryCandidate_ship
      ⟨⟨_, rfl, rfl, rfl, rfl, .refl _⟩, by unfold fitsEnvelope; decide⟩ ⟨rfl, rfl, rfl, rfl⟩
  have redone : LandStep silentPolicy none s₂ s₃ :=
    .unvisited (tracked_land shipFirst) redo nofun (by decide +kernel)
  have again : ReflTransGen (AcceptedStep silentPolicy) s₃ shipAgain :=
    AcceptedStep.run_of_play [.start, .wait, .wait, .wait, .attempt, .leave shipReported, .wait] rfl (by decide +kernel)
  exact .head ⟨_, called, accepted⟩ (held.trans (.head (.drive redone) again))

/-- What the second call does. -/
def shipSecond : List LandAct :=
  landAdvance queueOwner shipPlan shipLand shipAgain.driver.checkpoint

/-- The state after the second call. -/
def shipDone : Landing shipDocument :=
  shipping (.visiting 6) (shipRows shipReported (shipWaiting .pending 2 2001000) shipRedone)
    shipAllKeys shipRedo none (shipFirst ++ shipSecond)

lemma durable_shipSecond :
    durable shipSecond shipAgain.driver.checkpoint = shipDone.driver.checkpoint := by
  decide +kernel

/-- The landing of the change keeps to the protocol until its second call. -/
theorem landing_protocol_shipAgain :
    Protocol (text "land") (shipAgain.acts (text "land")) ∧
      shipAgain.acts (text "land") = shipFirst ∧ shipFirst ≠ [] :=
  ⟨landing_protocol unlanded_shipStart (run_shipReady.trans run_shipAgain) (text "land"), rfl,
    by decide +kernel⟩

/-- The landing of a change that waits for its merge is called again after the report that it depends
on was reopened and succeeded: the call saves a row that waits for its dependencies although it has a
record, which a load refuses. -/
theorem pending_landing_saved :
    relationError shipPlan = none ∧ Unlanded shipStart ∧
      ReflTransGen (AcceptedStep silentPolicy) shipStart shipAgain ∧
      LandStep silentPolicy (some shipLand) shipAgain shipDone ∧
      ¬ Protocol (text "land") (shipDone.acts (text "land")) ∧
      ∃ row, shipDone.driver.checkpoint.row? (text "land") = some row ∧ row.state = .pending ∧
        .save shipDone.driver.checkpoint ∈ shipDone.acts (text "land") ∧
        landValid row shipDone.driver.checkpoint = false := by
  have saved : .save shipDone.driver.checkpoint ∈ shipDone.acts (text "land") := by
    decide +kernel
  have refused : landValid (shipWaiting .pending 2 2001000) shipDone.driver.checkpoint = false := by
    decide +kernel
  refine ⟨by decide +kernel, unlanded_shipStart, run_shipReady.trans run_shipAgain,
    .call ⟨rfl, rfl, rfl⟩ rfl (prefix_refl shipSecond) rfl durable_shipSecond.symm (.inl rfl) rfl
      (update_land_append shipFirst shipSecond), fun protocol => ?_, _, rfl, rfl, saved, refused⟩
  obtain ⟨row, found, valid⟩ := protocol.valid _ saved _ rfl
  cases (show shipDone.driver.checkpoint.row? (text "land") =
    some (shipWaiting .pending 2 2001000) from rfl).symm.trans found
  cases valid

end Example

end Provenant.Graph

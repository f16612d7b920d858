import Provenant.Graph.Landing

/-!
# What the landings of a graph do

A call of a landing may end after any of its acts, and the next call starts from the last save. The
acts of a landing are collected from one redo of its node to the next.

## Main definitions

* `LandStep` — the steps of the driver with the calls of its landings.
* `Lawful` — every act keeps to what the acts before it allow.
* `Protocol` — what the acts of a landing keep to between two redos.

## Main results

* `LandStep.unvisited`, `LandStep.of_landless` — steps of a graph in which nothing was asked.
* `Lawful.protocol` — lawful acts keep to the protocol.

## Implementation notes

The steps of the driver leave the notes open. What a step other than a call may write about a landing
is said in `LandNotes`: in the source only the landing itself writes its record and its answers.
-/

namespace Provenant.Graph

open List Option GraphCheckpoint

open Json (Text text)

/-! ### Saves -/

/-- The checkpoints that are saved, in order. -/
def saves (acts : List LandAct) : List GraphCheckpoint := acts.filterMap (·.saved)

/-- The checkpoint from which a restart goes on. -/
def durable (acts : List LandAct) (checkpoint : GraphCheckpoint) : GraphCheckpoint :=
  (saves acts).getLast?.getD checkpoint

/-- The record of a node in a checkpoint. -/
def landRecord (id : Text) (checkpoint : GraphCheckpoint) : Option LandRecord :=
  (checkpoint.row? id).bind (·.notes.land)

/-- The record of a node that was saved last. -/
def storedRecord (id : Text) (acts : List LandAct) : Option LandRecord :=
  (saves acts).getLast?.bind (landRecord id)

/-- The questions of a landing. -/
def landAsks (id : Text) (checkpoint : GraphCheckpoint) : List NodeAsk :=
  checkpoint.notes.asks.filter fun ask => ask.kind == .land && ask.about id

/-! ### Steps -/

section Steps

variable {document : GraphDocument}

/-- The same question, possibly withdrawn, with the same answer. -/
structure KeptAsk (ask ask' : NodeAsk) : Prop where
  same : ask' = { ask with
    resolved := ask'.resolved, closed := ask'.closed, inboxError := ask'.inboxError }
  resolved : ask.resolved = true → ask'.resolved = true

/-- The row of an identifier goes on: it was there before, and was not redone since. -/
def goesOn (before after : GraphCheckpoint) (id : Text) : Bool :=
  (before.row? id).any fun row => (after.row? id).any (·.retryGeneration == row.retryGeneration)

lemma rows_of_goesOn {before after : GraphCheckpoint} {id : Text}
    (h : goesOn before after id = true) : ∃ row row', before.row? id = some row ∧
      after.row? id = some row' ∧ row'.retryGeneration = row.retryGeneration := by
  obtain ⟨row, found, going⟩ := (Option.any_eq_true _ _).1 h
  obtain ⟨row', found', same⟩ := (Option.any_eq_true _ _).1 going
  exact ⟨row, row', found, found', eq_of_beq same⟩

/-- The notes about a landing that a step other than a call may write. Only the landing itself writes
its record, which goes on with the row; the step may withdraw the questions of the landing, but it
answers none of them. -/
structure LandNotes (before after : GraphCheckpoint) (id : Text) : Prop where
  /-- A settled row with a record also keeps its state. -/
  kept : ∀ row row', before.row? id = some row → after.row? id = some row' →
    goesOn before after id = true → row'.notes.land = row.notes.land ∧
      (row.notes.land.isSome = true → row.state = .succeeded ∨ row.state = .failed →
        row'.state = row.state)
  /-- A row that is new or redone starts without a record. -/
  fresh : goesOn before after id = false → landRecord id after = none
  asks : goesOn before after id = true → List.Forall₂ KeptAsk (landAsks id before) (landAsks id after)
  /-- A redo may also drop the questions. -/
  dropped : List.SublistForall₂ (fun ask' ask => KeptAsk ask ask') (landAsks id after)
    (landAsks id before)

/-- A state of the driver, with the acts of each landing since its row was last redone. -/
structure Landing (document : GraphDocument) where
  driver : Driver document
  acts : Text → List LandAct

/-- The steps of the driver with the calls of its landings. A call is labelled with its node, and
may be cut short after any of its acts, as by a crash; what it saved until then is durable. -/
inductive LandStep (policy : ReviewPolicy) : Option GraphNode → Landing document →
    Landing document → Prop
  | drive {event : Event} {state state' : Landing document}
      (step : Step policy event state.driver state'.driver)
      (other : ∀ index node checkpoint, event = .visit node.id →
        ¬ Dispatched policy state.driver index node .land checkpoint)
      (notes : ∀ id, LandNotes state.driver.checkpoint state'.driver.checkpoint id)
      (logged : ∀ id, state'.acts id =
        if goesOn state.driver.checkpoint state'.driver.checkpoint id then state.acts id else []) :
      LandStep policy none state state'
  /-- A landing is called, and goes on to any point. -/
  | call {state state' : Landing document} {index : Nat} {node : GraphNode}
      {checkpoint : GraphCheckpoint} {owner : LandOwner} {acts : List LandAct}
      (dispatched : Dispatched policy state.driver index node .land checkpoint)
      (unpaused : state.driver.checkpoint.notes.pauseReason = none)
      (cut : acts <+: landAdvance owner state.driver.plan node state.driver.checkpoint)
      (plan : state'.driver.plan = state.driver.plan)
      (saved : state'.driver.checkpoint = durable acts state.driver.checkpoint)
      (phase : state'.driver.phase = .visiting (index + 1) ∨ state'.driver.phase = .idle)
      (begun : state'.driver.begun = state.driver.begun)
      (logged : state'.acts = Function.update state.acts node.id (state.acts node.id ++ acts)) :
      LandStep policy (some node) state state'

/-- A call finds a row and questions that a load accepts. -/
def CallAccepted (s : Driver document) (node : GraphNode) : Prop :=
  (∀ row, s.checkpoint.row? node.id = some row → landValid row s.checkpoint = true) ∧
    ∀ ask ∈ s.checkpoint.notes.asks, ask.about node.id = true → askMatches s.plan ask = true

/-- A step that only calls landings which a load accepts. -/
def AcceptedStep (policy : ReviewPolicy) (state state' : Landing document) : Prop :=
  ∃ call, LandStep policy call state state' ∧ ∀ node ∈ call, CallAccepted state.driver node

/-- A graph before its first pass. -/
structure Unlanded (state : Landing document) : Prop where
  initial : Initial state.driver
  asks : state.driver.checkpoint.notes.asks = []
  records : ∀ row ∈ state.driver.checkpoint.nodes, row.notes.land = none
  acts : ∀ id, state.acts id = []

/-! ### Graphs without questions -/

/-- The row goes on with its record. -/
def carries (row row' : NodeProgress) : Bool :=
  row'.notes.land == row.notes.land &&
    (row.notes.land.isNone || row.state == .pending || row.state == .running ||
      row'.state == row.state)

/-- Nothing was asked, the landings of a list go on, and every row goes on with its record, is new or
was redone. -/
def carried (landings : List Text) (before after : GraphCheckpoint) : Bool :=
  before.notes.asks.isEmpty && after.notes.asks.isEmpty && landings.all (goesOn before after) &&
    after.nodes.all fun row' =>
      if goesOn before after row'.id then (before.row? row'.id).all (carries · row')
      else row'.notes.land.isNone

lemma landNotes_of_carried {landings : List Text} {before after : GraphCheckpoint}
    (h : carried landings before after = true) (id : Text) : LandNotes before after id := by
  simp only [carried, Bool.and_eq_true, List.all_eq_true] at h
  obtain ⟨⟨⟨unasked, unasked'⟩, -⟩, rows⟩ := h
  have asks : landAsks id before = [] := by rw [landAsks, List.isEmpty_iff.1 unasked]; rfl
  have asks' : landAsks id after = [] := by rw [landAsks, List.isEmpty_iff.1 unasked']; rfl
  refine ⟨fun row row' found found' going => ?_, fun renewed => ?_, fun _ => ?_, ?_⟩
  · have same := rows row' (mem_of_row? found')
    rw [id_of_row? found', if_pos going, found, Option.all_some, carries] at same
    simp only [Bool.and_eq_true, Bool.or_eq_true, beq_iff_eq] at same
    refine ⟨same.1, fun recorded settled => ?_⟩
    rcases same.2 with ((none | pending) | running) | kept
    · rw [isNone_iff_eq_none.1 none] at recorded
      cases recorded
    · rw [pending] at settled
      rcases settled with settled | settled <;> cases settled
    · rw [running] at settled
      rcases settled with settled | settled <;> cases settled
    · exact kept
  · cases found' : after.row? id with
    | none => rw [landRecord, found', bind_none]
    | some row' =>
      have new := rows row' (mem_of_row? found')
      rw [id_of_row? found', if_neg (by rw [renewed]; exact Bool.false_ne_true)] at new
      rw [landRecord, found', bind_some]
      exact isNone_iff_eq_none.1 new
  · rw [asks, asks']
    exact .nil
  · rw [asks']
    exact .nil

/-- Only the landings of a list have acts. -/
def Tracked (landings : List Text) (acts : Text → List LandAct) : Prop :=
  ∀ id, id ∉ landings → acts id = []

/-- The acts of landings that go on are kept. -/
lemma Tracked.logged {landings : List Text} {acts : Text → List LandAct}
    (h : Tracked landings acts) {before after : GraphCheckpoint}
    (rows : carried landings before after = true) (id : Text) :
    acts id = if goesOn before after id then acts id else [] := by
  split
  · rfl
  next renewed =>
    simp only [carried, Bool.and_eq_true, List.all_eq_true] at rows
    exact h id fun landing => renewed (rows.1.2 id landing)

section Quiet

variable {policy : ReviewPolicy} {event : Event} {landings : List Text} {s s' : Driver document}
  {acts : Text → List LandAct} (tracked : Tracked landings acts)
include tracked

/-- A step that visits no node. -/
lemma LandStep.unvisited (step : Step policy event s s') (other : ∀ id, event ≠ .visit id)
    (rows : carried landings s.checkpoint s'.checkpoint = true) :
    LandStep policy none ⟨s, acts⟩ ⟨s', acts⟩ :=
  .drive step (fun _ node _ visits => absurd visits (other node.id)) (landNotes_of_carried rows)
    (tracked.logged rows)

omit tracked in
/-- The step is no call of a landing, and writes about none. -/
def landless (landings : List Text) (policy : ReviewPolicy) (plan : PlannedGraph) (event : Event)
    (here next : Place) : Bool :=
  (match event with
    | .visit _ => (here.visited policy plan).all fun (_, _, action, _) => action != .land
    | _ => true) && carried landings here.checkpoint next.checkpoint

/-- A step that is no call of a landing. -/
lemma LandStep.of_landless (step : Step policy event s s')
    (quiet : landless landings policy s.plan event s.place s'.place = true) :
    LandStep policy none ⟨s, acts⟩ ⟨s', acts⟩ := by
  obtain ⟨uncalled, rows⟩ := Bool.and_eq_true_iff.1 quiet
  refine .drive step (fun index node checkpoint visits called => ?_) (landNotes_of_carried rows)
    (tracked.logged rows)
  simp [visits, visited_of_dispatched called] at uncalled

/-- Choices that call no landing are a run. -/
lemma LandStep.run_of_play (choices : List Choice) (plan : s'.plan = s.plan)
    (played : (play policy s.plan (landless landings policy s.plan) s.place choices).map (·.1) =
      some s'.place) :
    Relation.ReflTransGen (fun t t' => LandStep policy none t t' ∧ t'.driver.plan = s.plan) ⟨s, acts⟩
      ⟨s', acts⟩ := by
  obtain ⟨⟨_, recorded⟩, played, rfl⟩ := map_eq_some_iff.1 played
  refine @Graph.run_of_play document policy s.plan (Landing document) _
    (landless landings policy s.plan) (fun t _ => ⟨t, acts⟩)
    (fun planned planned' step quiet => ⟨?_, planned'⟩) choices s s' [] recorded rfl plan played
  exact .of_landless tracked step (planned.symm ▸ quiet)

end Quiet

end Steps

/-! ### The protocol -/

/-- The later record is about the same head, and keeps a number that is known. -/
def Extends (earlier later : Option LandRecord) : Prop :=
  ∀ record ∈ earlier, ∃ record' ∈ later, record'.branch = record.branch ∧
    record'.head = record.head ∧ record'.tier = record.tier ∧ record'.policy = record.policy ∧
    (record.pullRequest.isSome = true → record'.pullRequest = record.pullRequest)

/-- What a save keeps to, after some acts. -/
structure LandSave (id : Text) (acts : List LandAct) (checkpoint : GraphCheckpoint) : Prop where
  /-- A load accepts the row. -/
  valid : ∃ row, checkpoint.row? id = some row ∧ landValid row checkpoint = true
  /-- There is at most one question about the node. -/
  single : (checkpoint.notes.asks.filter (·.about id)).length ≤ 1
  pinned : Extends (storedRecord id acts) (landRecord id checkpoint)
  /-- The node succeeds only through the merge of the number that was saved before, and not after
  its question was answered. -/
  merged : ∀ row, checkpoint.row? id = some row → row.state = .succeeded →
    ∃ earlier number note, acts = earlier ++ [.observe (.merged (some number) note)] ∧
      (storedRecord id acts).bind (·.pullRequest) = some number ∧
      (landRecord id checkpoint).bind (·.pullRequest) = some number ∧
      ∀ answered, .answer answered ∉ acts

/-- What an act keeps to, after some acts. -/
def Allowed (id : Text) (acts : List LandAct) : LandAct → Prop
  | .save checkpoint | .answer checkpoint => LandSave id acts checkpoint
  | .request request => ∃ record, storedRecord id acts = some record ∧
      request.branch = record.branch ∧ request.head = record.head ∧ request.tier = record.tier ∧
      request.pullRequest = record.pullRequest ∧
      (request.authority.isSome = true → record.policy = .auto)
  | .observe _ => True

/-- Every act keeps to what the acts before it allow. -/
def Lawful (id : Text) (acts : List LandAct) : Prop :=
  ∀ earlier act later, acts = earlier ++ act :: later → Allowed id earlier act

/-! ### Lists of acts -/

section Acts

variable {id : Text} {acts earlier later : List LandAct} {act : LandAct}
  {checkpoint : GraphCheckpoint}

lemma durable_nil : durable [] checkpoint = checkpoint := rfl

/-- What is durable after an act is what it saves, if it saves. -/
lemma durable_snoc : durable (acts ++ [act]) checkpoint = act.saved.getD (durable acts checkpoint) := by
  unfold durable
  cases saved : act.saved <;> simp [saves, saved]

lemma durable_append : durable (earlier ++ later) checkpoint = durable later (durable earlier checkpoint) := by
  induction later using reverseRecOn with
  | nil => rw [append_nil, durable_nil]
  | append_singleton _ _ ih => rw [← append_assoc, durable_snoc, durable_snoc, ih]

lemma durable_cons : durable (act :: acts) checkpoint = durable acts (act.saved.getD checkpoint) := by
  rw [← singleton_append, durable_append]
  rw [← nil_append [act], durable_snoc, durable_nil]

/-- The record after an act is the one that it saves, if it saves. -/
lemma storedRecord_snoc : storedRecord id (acts ++ [act]) =
    match act.saved with
    | some checkpoint => landRecord id checkpoint
    | none => storedRecord id acts := by
  unfold storedRecord
  cases saved : act.saved <;> simp [saves, saved]

lemma Lawful.nil : Lawful id [] := by
  intro earlier act later split
  cases earlier <;> cases split

/-- One more act is lawful if what is before it allows it. -/
lemma Lawful.snoc (lawful : Lawful id acts) (allowed : Allowed id acts act) :
    Lawful id (acts ++ [act]) := by
  intro earlier act' later split
  rcases eq_nil_or_concat later with rfl | ⟨later, last, rfl⟩
  · obtain ⟨rfl, same⟩ := append_inj' split rfl
    cases same
    exact allowed
  · rw [concat_eq_append, ← cons_append, ← append_assoc] at split
    obtain ⟨same, -⟩ := append_inj' split rfl
    exact lawful earlier act' later same

lemma Lawful.take (lawful : Lawful id (earlier ++ later)) : Lawful id earlier := by
  intro before act after split
  exact lawful before act (after ++ later) (by rw [split, append_assoc, cons_append])

lemma Extends.refl {record : Option LandRecord} : Extends record record :=
  fun found member => ⟨found, member, rfl, rfl, rfl, rfl, fun _ => rfl⟩

lemma Extends.trans {first second third : Option LandRecord} (h : Extends first second)
    (h' : Extends second third) : Extends first third := by
  intro record member
  obtain ⟨middle, member', branch, head, tier, policy, number⟩ := h record member
  obtain ⟨last, member'', branch', head', tier', policy', number'⟩ := h' middle member'
  refine ⟨last, member'', branch'.trans branch, head'.trans head, tier'.trans tier,
    policy'.trans policy, fun known => ?_⟩
  have same := number known
  rw [number' (by rw [same]; exact known), same]

/-- Lawful acts keep to the record that was stored. -/
lemma Lawful.extends (lawful : Lawful id (earlier ++ later)) :
    Extends (storedRecord id earlier) (storedRecord id (earlier ++ later)) := by
  induction later using reverseRecOn with
  | nil => rw [append_nil]; exact .refl
  | append_singleton _ act ih =>
    rw [← append_assoc] at lawful ⊢
    have before := ih lawful.take
    have allowed := lawful _ act [] rfl
    rw [storedRecord_snoc]
    cases act with
    | save | answer => exact before.trans allowed.pinned
    | request | observe => exact before

/-- A stored record was saved. -/
lemma saved_of_storedRecord {record : LandRecord} (stored : storedRecord id acts = some record) :
    ∃ act ∈ acts, ∃ checkpoint, act.saved = some checkpoint ∧
      landRecord id checkpoint = some record := by
  obtain ⟨checkpoint, last, found⟩ := bind_eq_some_iff.1 stored
  have member := mem_of_getLast? last
  obtain ⟨act, among, saved⟩ := mem_filterMap.1 member
  exact ⟨act, among, checkpoint, saved, found⟩

end Acts

/-- What the acts of a landing keep to between two redos of its node: what the requests to the
owner of the branch carry, and what was saved before each of them. -/
structure Protocol (id : Text) (acts : List LandAct) : Prop where
  /-- All requests carry the same branch, head and tier. -/
  pinned : ∀ request request', .request request ∈ acts → .request request' ∈ acts →
    request'.branch = request.branch ∧ request'.head = request.head ∧ request'.tier = request.tier
  /-- A request carries an authority only if the policy that is stored is to land at once. -/
  authority : ∀ earlier request later, acts = earlier ++ .request request :: later →
    request.authority.isSome = true → ∃ record, storedRecord id earlier = some record ∧
      record.policy = .auto
  /-- A request carries a number only after a checkpoint with that number was saved. -/
  saved : ∀ earlier request later number, acts = earlier ++ .request request :: later →
    request.pullRequest = some number → ∃ act ∈ earlier, ∃ checkpoint,
      act.saved = some checkpoint ∧ (landRecord id checkpoint).bind (·.pullRequest) = some number
  /-- No other number is sent. -/
  number : ∀ request request' number number', .request request ∈ acts → .request request' ∈ acts →
    request.pullRequest = some number → request'.pullRequest = some number' → number' = number
  /-- At most one question is stored. -/
  single : ∀ act ∈ acts, ∀ checkpoint, act.saved = some checkpoint →
    (checkpoint.notes.asks.filter (·.about id)).length ≤ 1
  /-- The node succeeds only right after the merge of the number that was sent, and never after its
  question was answered. -/
  merged : ∀ earlier act later checkpoint row, acts = earlier ++ act :: later →
    act.saved = some checkpoint → checkpoint.row? id = some row → row.state = .succeeded →
    ∃ before number note, earlier = before ++ [.observe (.merged (some number) note)] ∧
      (storedRecord id earlier).bind (·.pullRequest) = some number ∧
      ∀ answered, .answer answered ∉ earlier
  /-- Every row that is saved is accepted by a load. -/
  valid : ∀ act ∈ acts, ∀ checkpoint, act.saved = some checkpoint →
    ∃ row, checkpoint.row? id = some row ∧ landValid row checkpoint = true

section Protocol

variable {id : Text} {acts : List LandAct}

/-- What an act that saves keeps to. -/
lemma Lawful.saves_of_saved (lawful : Lawful id acts) {earlier later : List LandAct} {act : LandAct}
    {checkpoint : GraphCheckpoint} (split : acts = earlier ++ act :: later)
    (saved : act.saved = some checkpoint) : LandSave id earlier checkpoint := by
  have allowed := lawful earlier act later split
  cases act with
  | save | answer => cases saved; exact allowed
  | request | observe => cases saved

/-- Two requests are made from records of which one extends the other. -/
lemma Lawful.requests (lawful : Lawful id acts) {request request' : LandRequest}
    (member : .request request ∈ acts) (member' : .request request' ∈ acts) :
    request'.branch = request.branch ∧ request'.head = request.head ∧ request'.tier = request.tier ∧
      ∀ number number', request.pullRequest = some number → request'.pullRequest = some number' →
        number' = number := by
  obtain ⟨earlier, later, split⟩ := append_of_mem member
  obtain ⟨earlier', later', split'⟩ := append_of_mem member'
  obtain ⟨record, stored, branch, head, tier, sent, -⟩ := lawful earlier _ later split
  obtain ⟨record', stored', branch', head', tier', sent', -⟩ := lawful earlier' _ later' split'
  -- the beginnings of one list are beginnings of each other
  rcases append_eq_append_iff.1 (split.symm.trans split') with
    ⟨middle, rfl, -⟩ | ⟨middle, rfl, -⟩
  · have lawful' : Lawful id (earlier ++ middle) :=
      @Lawful.take id _ (.request request' :: later') (by rw [← split']; exact lawful)
    obtain ⟨_, found, b, h, t, -, n⟩ := lawful'.extends record stored
    cases stored'.symm.trans found
    refine ⟨by rw [branch', branch, b], by rw [head', head, h], by rw [tier', tier, t], ?_⟩
    intro number number' known known'
    rw [sent] at known
    rw [sent', n (by rw [known]; rfl), known] at known'
    exact (some.inj known').symm
  · have lawful' : Lawful id (earlier' ++ middle) :=
      @Lawful.take id _ (.request request :: later) (by rw [← split]; exact lawful)
    obtain ⟨_, found, b, h, t, -, n⟩ := lawful'.extends record' stored'
    cases stored.symm.trans found
    refine ⟨by rw [branch', branch, b], by rw [head', head, h], by rw [tier', tier, t], ?_⟩
    intro number number' known known'
    rw [sent'] at known'
    rw [sent, n (by rw [known']; rfl), known'] at known
    exact some.inj known

/-- Lawful acts keep to the protocol. -/
theorem Lawful.protocol (lawful : Lawful id acts) : Protocol id acts where
  pinned request request' member member' :=
    have same := lawful.requests member member'
    ⟨same.1, same.2.1, same.2.2.1⟩
  authority earlier request later split authorised := by
    obtain ⟨record, stored, -, -, -, -, policy⟩ := lawful earlier _ later split
    exact ⟨record, stored, policy authorised⟩
  saved earlier request later number split sent := by
    obtain ⟨_, stored, -, -, -, same, -⟩ := lawful earlier _ later split
    obtain ⟨act, among, checkpoint, saved, found⟩ := saved_of_storedRecord stored
    refine ⟨act, among, checkpoint, saved, ?_⟩
    rw [found]
    exact same.symm.trans sent
  number request request' number number' member member' known known' :=
    (lawful.requests member member').2.2.2 number number' known known'
  single act member checkpoint saved := by
    obtain ⟨earlier, later, split⟩ := append_of_mem member
    exact (lawful.saves_of_saved split saved).single
  merged earlier act later checkpoint row split saved found succeeded := by
    obtain ⟨before, number, note, same, stored, -, unanswered⟩ :=
      (lawful.saves_of_saved split saved).merged row found succeeded
    exact ⟨before, number, note, same, stored, unanswered⟩
  valid act member checkpoint saved := by
    obtain ⟨_, _, split⟩ := append_of_mem member
    exact (lawful.saves_of_saved split saved).valid

end Protocol

end Provenant.Graph

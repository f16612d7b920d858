import Provenant.Run.Admission

/-!
# Startup spacing

Within one boot, no two lanes of a class are to start less than one spacing apart. A lease call
that takes a lease checks the spacing against the last recorded start of the class and records its
own instant. A lease call that finds its own lease does neither. The starts are spaced in every
run without such a retry, and a retried claim breaks the spacing.

## Main definitions

* `Start.Apart` — two starts of a class are one spacing apart.

## Main results

* `starts_apart` — the starts of every run without retries are apart.
* `retried_start_close` — a retried claim starts one microsecond after another lane.
-/

namespace Provenant.Run

open Json

variable {ι : Type} [DecidableEq ι]

/-- Two starts of one class are one spacing apart. -/
def Start.Apart (spacingMs : LaneClass → Nat) (s t : Start) : Prop :=
  s.laneClass = t.laneClass →
    s.instant + spacingMs s.laneClass * 1000 ≤ t.instant ∨
      t.instant + spacingMs t.laneClass * 1000 ≤ s.instant

lemma Start.Apart.symm {spacingMs : LaneClass → Nat} {s t : Start} (apart : s.Apart spacingMs t) :
    t.Apart spacingMs s := fun same => (apart same.symm).symm

/-- The start that an open transaction was granted. -/
def Transaction.granted : Transaction → Option Start
  | .claimed id ticket _ instant | .resumed id ticket instant =>
    some { attempt := id, laneClass := ticket.laneClass, instant }
  | .claiming .. | .yielding _ | .yielded _ | .resuming .. | .denied _ => none

/-- The start that is granted in a store and not committed. -/
def Host.granted (host : Host ι) (i : ι) : Option Start :=
  (host.writing i).bind Transaction.granted

/-- The starts between steps: those that were committed or granted are apart from one another, and
none is later than the last recorded start of its class. -/
structure Host.Spaced (spacingMs : LaneClass → Nat) (boot : Text) (host : Host ι) : Prop where
  starts : host.starts.Pairwise (Start.Apart spacingMs)
  granted : ∀ i s, host.granted i = some s → ∀ t ∈ host.starts, s.Apart spacingMs t
  both : ∀ i j s t, i ≠ j → host.granted i = some s → host.granted j = some t → s.Apart spacingMs t
  recorded : ∀ s, s ∈ host.starts ∨ (∃ i, host.granted i = some s) →
    ∃ last, host.ledger.spacing s.laneClass = some { boot, micros := last } ∧ s.instant ≤ last

section Spacing

variable {spacingMs : LaneClass → Nat} {submissions : Submissions} {boot : Text}
  {host host' : Host ι} {act : Act} {i : ι}

/-- What is granted after the transaction of one store moved on. -/
lemma granted_update {transaction : Option Transaction} {j : ι}
    (writing : host'.writing = Function.update host.writing i transaction) :
    host'.granted j = if j = i then transaction.bind Transaction.granted else host.granted j := by
  unfold Host.granted
  rw [writing]
  split_ifs with same
  · rw [same, Function.update_self]
  · rw [Function.update_of_ne same]

section Spaced

variable (spaced : host.Spaced spacingMs boot)
include spaced

variable {transaction : Option Transaction}

/-- A transaction that moves on without a new start keeps the spacing. -/
lemma Host.Spaced.moves (writing : host'.writing = Function.update host.writing i transaction)
    (starts : host'.starts = host.starts) (spacing : host'.ledger.spacing = host.ledger.spacing)
    (quiet : transaction.bind Transaction.granted = none) : host'.Spaced spacingMs boot := by
  have old : ∀ {j : ι} {s : Start}, host'.granted j = some s → host.granted j = some s := by
    intro j s found
    rw [granted_update writing] at found
    split_ifs at found
    · rw [quiet] at found
      cases found
    · exact found
  refine ⟨starts ▸ spaced.starts, fun j s found t => ?_, fun j k s t different found other => ?_,
    fun s member => ?_⟩
  · rw [starts]
    exact spaced.granted j s (old found) t
  · exact spaced.both j k s t different (old found) (old other)
  · rw [starts] at member
    rw [spacing]
    exact spaced.recorded s (member.imp_right fun ⟨j, found⟩ => ⟨j, old found⟩)

/-- A start that is granted one spacing after the last recorded one keeps the spacing. -/
lemma Host.Spaced.grants {start : Start}
    (writing : host'.writing = Function.update host.writing i transaction)
    (starts : host'.starts = host.starts)
    (isGranted : transaction.bind Transaction.granted = some start)
    (spacing : host'.ledger.spacing = Function.update host.ledger.spacing start.laneClass
      (some { boot, micros := start.instant }))
    (later : ∀ last, host.ledger.spacing start.laneClass = some { boot, micros := last } →
      last + spacingMs start.laneClass * 1000 ≤ start.instant) : host'.Spaced spacingMs boot := by
  -- every earlier start of the class is one spacing before the last recorded one at most
  have before : ∀ s, s ∈ host.starts ∨ (∃ j, host.granted j = some s) →
      s.laneClass = start.laneClass →
      s.instant + spacingMs s.laneClass * 1000 ≤ start.instant := by
    intro s earlier same
    obtain ⟨last, recorded, _⟩ := spaced.recorded s earlier
    rw [same] at recorded ⊢
    have := later last recorded
    omega
  have apart : ∀ s, s ∈ host.starts ∨ (∃ j, host.granted j = some s) →
      start.Apart spacingMs s := fun s earlier same => .inr (before s earlier same.symm)
  refine ⟨starts ▸ spaced.starts, fun j s found t member => ?_,
    fun j k s t different found other => ?_, fun s member => ?_⟩
  · rw [starts] at member
    rw [granted_update writing] at found
    split_ifs at found
    · rw [isGranted] at found
      cases found
      exact apart t (.inl member)
    · exact spaced.granted j s found t member
  · rw [granted_update writing] at found other
    split_ifs at found other with own own'
    · exact absurd (own.trans own'.symm) different
    · rw [isGranted] at found
      cases found
      exact apart t (.inr ⟨k, other⟩)
    · rw [isGranted] at other
      cases other
      exact (apart s (.inr ⟨j, found⟩)).symm
    · exact spaced.both j k s t different found other
  · rw [spacing]
    by_cases same : s.laneClass = start.laneClass
    · refine ⟨start.instant, by rw [same, Function.update_self], ?_⟩
      rcases member with member | ⟨j, found⟩
      · have := before s (.inl (starts ▸ member)) same
        omega
      · rw [granted_update writing] at found
        split_ifs at found
        · rw [isGranted] at found
          cases found
          exact le_rfl
        · have := before s (.inr ⟨j, found⟩) same
          omega
    · rw [Function.update_of_ne same]
      refine spaced.recorded s ?_
      rcases member with member | ⟨j, found⟩
      · exact .inl (starts ▸ member)
      · rw [granted_update writing] at found
        split_ifs at found
        · rw [isGranted] at found
          cases found
          exact absurd rfl same
        · exact .inr ⟨j, found⟩

/-- A granted start that is committed keeps the spacing. -/
lemma Host.Spaced.commits {start : Start} {store : Store} (isGranted : host.granted i = some start) :
    { host.commits i store with starts := start :: host.starts }.Spaced spacingMs boot := by
  have old : ∀ {j : ι} {s : Start},
      { host.commits i store with starts := start :: host.starts }.granted j = some s →
      j ≠ i ∧ host.granted j = some s := by
    intro j s found
    rw [granted_update rfl] at found
    split_ifs at found with own
    · cases found
    · exact ⟨own, found⟩
  refine ⟨List.pairwise_cons.2 ⟨spaced.granted i start isGranted, spaced.starts⟩,
    fun j s found t member => ?_, fun j k s t different found other => ?_, fun s member => ?_⟩
  · obtain ⟨different, earlierFound⟩ := old found
    rcases List.mem_cons.1 member with rfl | earlier
    · exact spaced.both j i s t different earlierFound isGranted
    · exact spaced.granted j s earlierFound t earlier
  · exact spaced.both j k s t different (old found).2 (old other).2
  · refine spaced.recorded s ?_
    rcases member with member | ⟨j, found⟩
    · rcases List.mem_cons.1 member with rfl | earlier
      · exact .inr ⟨i, isGranted⟩
      · exact .inl earlier
    · exact .inr ⟨j, (old found).2⟩

/-- A lease call that is granted, and is no retry, keeps the spacing. -/
lemma Host.Spaced.leases {id store : Text} {ticket : AdmissionTicket} {call : LeaseCall}
    {ledger : Ledger} {now : Int} {transaction : Transaction}
    (fixed : ∀ id, (submissions.submitted id).startupSpacingMs =
      spacingMs (submissions.submitted id).laneClass) (of : ticket.Of submissions id)
    (reads : call.At boot host.clock) (unretried : host.ledger.retried call id = false)
    (leased : lease store ticket submissions.caps call host.ledger = .ok (ledger, some now))
    (isGranted : transaction.granted =
      some { attempt := id, laneClass := ticket.laneClass, instant := host.clock }) :
    (host.leases i ledger (some transaction)).Spaced spacingMs boot := by
  have named : ticket.attemptId = id := by
    obtain ⟨_, _, rfl⟩ := of
    exact submissions.named id
  have perClass : ticket.startupSpacingMs = spacingMs ticket.laneClass := by
    obtain ⟨_, _, rfl⟩ := of
    exact fixed id
  rcases lease_spacing leased with ⟨-, retried⟩ | ⟨-, instant, read, spacing, apart⟩
  · rw [named, unretried] at retried
    exact absurd (retried rfl) Bool.false_ne_true
  · have now := reads.1 instant read
    subst now
    refine spaced.grants rfl rfl isGranted spacing fun last recorded => ?_
    rw [← perClass]
    exact apart last recorded

end Spaced

/-- Every step that is no retried lease call keeps the spacing. -/
lemma Step.spaced (step : Step submissions boot host act host') (fresh : act.fresh host)
    (fixed : ∀ id, (submissions.submitted id).startupSpacingMs =
      spacingMs (submissions.submitted id).laneClass)
    (sound : host.Sound submissions) (spaced : host.Spaced spacingMs boot) :
    host'.Spaced spacingMs boot := by
  have refusedSpacing : ∀ {store : Text} {ticket : AdmissionTicket} {call : LeaseCall}
      {ledger : Ledger}, lease store ticket submissions.caps call host.ledger = .ok (ledger, none) →
      ledger.spacing = host.ledger.spacing := by
    intro store ticket call ledger refused
    rcases lease_spacing refused with ⟨same, -⟩ | ⟨granted, -⟩
    · exact same
    · cases granted
  cases step with
  | tick => exact ⟨spaced.starts, spaced.granted, spaced.both, spaced.recorded⟩
  | edit | claim | wait | waitYield | waitCommit | denyCommit | abort =>
    exact spaced.moves rfl rfl rfl rfl
  | claimLease claiming reads leased =>
    exact spaced.leases fixed (sound.knows _ _ claiming).1 reads fresh leased rfl
  | claimRefused _ _ refused | resumeRefused _ _ refused =>
    exact spaced.moves rfl rfl (refusedSpacing refused) rfl
  | claimCommit claimed _ =>
    refine spaced.commits ?_
    unfold Host.granted
    rw [claimed]
    rfl
  | @resume _ _ _ room _ _ =>
    refine spaced.moves rfl rfl rfl ?_
    split_ifs <;> rfl
  | resumeLease resuming reads leased =>
    exact spaced.leases fixed (sound.knows _ _ resuming).1 reads fresh leased rfl
  | resumeCommit resumed _ =>
    refine spaced.commits ?_
    unfold Host.granted
    rw [resumed]
    rfl

/-- **Startup spacing.** In every run in which no lease call finds an active lease of its own
attempt, any two starts of one class are one spacing apart.

**Proof sketch.** A granted start comes one spacing after the last recorded start of its class, and
is recorded in the same transaction, so it comes one spacing after every start granted before it.
A store may commit a start later, but at the instant that was granted. -/
theorem starts_apart (fixed : ∀ id, (submissions.submitted id).startupSpacingMs =
      spacingMs (submissions.submitted id).laneClass)
    (fresh : host.Fresh submissions) (run : FreshRuns submissions boot host host') :
    host'.starts.Pairwise (Start.Apart spacingMs) := by
  have initially : host.Spaced spacingMs boot := by
    have nothing : ∀ j, host.granted j = none := by
      intro j
      unfold Host.granted
      rw [fresh.idle]
      rfl
    refine ⟨?_, fun j s found => ?_, fun j k s t _ found => ?_, fun s member => ?_⟩
    · rw [fresh.starts]
      exact .nil
    · rw [nothing] at found
      cases found
    · rw [nothing] at found
      cases found
    · rcases member with member | ⟨j, found⟩
      · rw [fresh.starts] at member
        cases member
      · rw [nothing] at found
        cases found
  have kept : host'.Sound submissions ∧ host'.Spaced spacingMs boot := by
    induction run with
    | refl => exact ⟨fresh.sound, initially⟩
    | tail _ step ih =>
      obtain ⟨act, step, unretried⟩ := step
      exact ⟨step.sound ih.1, step.spaced unretried fixed ih.1 ih.2⟩
  exact kept.2.starts

end Spacing

/-- The store of the example while `a` runs and `b` waits. -/
def Retried.storeARuns : Store :=
  { storeAB with
    attempts := [record a (.running none) 2 (some 0), record b .starting 1 none]
    admission := [row a true, row b false] }

/-- The host of the example when no commit failed. -/
def Retried.spaced : Host Unit := host ledgerAB storeBoth none 5000 [start b 5000, start a 0]

namespace Retried

set_option maxRecDepth 10000 in
/-- The first claim of `a` commits, and `b` starts five milliseconds later. -/
lemma freshRuns_spaced : FreshRuns submissions boot fresh spaced := by
  let At (host : Host Unit) : Prop := FreshRuns submissions boot fresh host
  have runs : At (host ledgerA storeARuns none 0 [start a 0]) :=
    freshRuns_aLeased.tail ⟨.other, @Step.claimCommit Unit _ submissions boot aLeased () a (ticket a)
      0 0 storeARuns rfl rfl, trivial⟩
  have later : At (host ledgerA storeARuns none 5000 [start a 0]) :=
    runs.tail ⟨.other, .tick (Nat.zero_le 5000), trivial⟩
  have claiming : At (host ledgerA storeARuns (some (.claiming b (ticket b))) 5000
      [start a 0]) := later.tail ⟨.other, .claim (i := ()) rfl rfl, trivial⟩
  have leased : At (host ledgerAB storeARuns (some (.claimed b (ticket b) 0 5000)) 5000
      [start a 0]) := claiming.tail ⟨.lease b (call boot 5000),
    .claimLease (i := ()) rfl (call_at boot 5000) rfl, rfl⟩
  exact leased.tail ⟨.other, @Step.claimCommit Unit _ submissions boot
    (host ledgerAB storeARuns (some (.claimed b (ticket b) 0 5000)) 5000 [start a 0]) () b
    (ticket b) 0 5000 storeBoth rfl rfl, trivial⟩

end Retried

/-- The two starts of the example are apart if no commit failed. -/
theorem starts_apart_spaced :
    Retried.fresh.Fresh Retried.submissions ∧
      FreshRuns Retried.submissions Retried.boot Retried.fresh Retried.spaced ∧
      (Retried.start Retried.b 5000).Apart (fun _ => 5) (Retried.start Retried.a 0) := by
  have apart : Retried.spaced.starts.Pairwise (Start.Apart fun _ => 5) :=
    starts_apart (fun _ => rfl) Retried.fresh_fresh Retried.freshRuns_spaced
  exact ⟨Retried.fresh_fresh, Retried.freshRuns_spaced,
    (List.pairwise_cons.1 apart).1 _ List.mem_cons_self⟩

/-- A retried claim breaks the spacing: the lane `a` starts one microsecond after the lane `b` of
its class, with a spacing of five milliseconds. -/
theorem retried_start_close :
    Retried.fresh.Fresh Retried.submissions ∧
      Runs Retried.submissions Retried.boot Retried.fresh Retried.bothRun ∧
      ¬ ∀ s ∈ Retried.bothRun.starts, ∀ t ∈ Retried.bothRun.starts, s.attempt ≠ t.attempt →
        s.Apart (fun _ => 5) t := by
  refine ⟨Retried.fresh_fresh, Retried.runs_bothRun, fun apart => ?_⟩
  have close := apart (Retried.start Retried.a 5001) (List.mem_cons_self)
    (Retried.start Retried.b 5000) (List.mem_cons_of_mem _ List.mem_cons_self) (by decide) rfl
  exact absurd close (by decide)

end Provenant.Run

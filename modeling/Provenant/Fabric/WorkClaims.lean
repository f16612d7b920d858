import Mathlib.Data.List.Induction
import Provenant.Fabric.Fences

/-!
# Claims on work exclude each other

A claim on paths is refused while another claim is live on a path above or below one of them. The
check is a range of texts and a loop over the ancestors, on the rows of paths that the store keeps.
Here it is carried to every list of calls: at every time the live claims are on unrelated paths, the
generations of one scope only rise, and a fence that was followed by another one never verifies
again.

## Main definitions

* `Fabric.Live` — a claim on work with a lease that has not expired.
* `Fabric.Exclusive` — the paths of claims are kept, and live claims are on unrelated paths.
* `Fabric.WorkRules` — what holds after a list of calls.

## Main results

* `Fabric.overlap_of_related` — the check finds every live claim on a related path.
* `Fabric.Change.exclusive` — every accepted operation keeps live claims apart.
* `Fabric.work_rules` — the rules, for every list of calls whose times do not decrease.
-/

namespace Provenant.Fabric

open Json Fallible SlashPath List Option

section Exclusion

variable {K : Type} {s next : Store K} {now : Int} {row : ClaimRow K}

/-- The row is leased at a time. -/
def ClaimRow.live (row : ClaimRow K) (now : Int) : Prop :=
  ∃ lease, row.lease = some lease ∧ now < lease.expires

/-- A claim on work that is live at a time. -/
def Live (s : Store K) (now : Int) (id : Text) (claim : WorkClaim) : Prop :=
  ∃ row, s.claim? id = some row ∧ row.record = .work claim ∧ row.live now

/-- The paths of every claim on work are kept, and live claims are on unrelated paths. -/
structure Exclusive (s : Store K) (now : Int) : Prop where
  covered : ∀ id row claim, s.claim? id = some row → row.record = .work claim →
    ∀ p ∈ claim.scope.all, (id, spell p) ∈ s.paths
  apart : ∀ id id' claim claim', Live s now id claim → Live s now id' claim' → id ≠ id' →
    ∀ p ∈ claim.scope.all, ∀ q ∈ claim'.scope.all, ¬ Related p q

lemma Exclusive.empty (now : Int) : Exclusive (Store.empty : Store K) now where
  covered _ _ _ found := by cases found
  apart _ _ _ _ live := by
    obtain ⟨row, found, -⟩ := live
    cases found

/-- What is live later was live before. -/
lemma Live.earlier {later : Int} {id : Text} {claim : WorkClaim} (live : Live s later id claim)
    (le : now ≤ later) : Live s now id claim := by
  obtain ⟨row, found, record, lease, leased, after⟩ := live
  exact ⟨row, found, record, lease, leased, le.trans_lt after⟩

lemma Exclusive.later {later : Int} (exclusive : Exclusive s now) (le : now ≤ later) :
    Exclusive s later where
  covered := exclusive.covered
  apart id id' claim claim' live live' :=
    exclusive.apart id id' claim claim' (live.earlier le) (live'.earlier le)

/-- The check finds every live claim that keeps a related path. -/
lemma overlap_of_related {p q : Path} {id : Text} {claim : WorkClaim} (live : Live s now id claim)
    (kept : (id, spell q) ∈ s.paths) (related : Related p q) : s.overlappingPath now p ≠ none := by
  have held : s.isHeld now id = true := by
    obtain ⟨_, found, -, _, leased, after⟩ := live
    simp only [Store.isHeld, found, any_some, leased, after, decide_true]
  unfold Store.overlappingPath
  split
  · exact some_ne_none _
  next outside =>
    -- Nothing is found below the path, so the related path is the path itself or above it.
    rcases (related_iff p q).2 related with ⟨low, high⟩ | above
    · have absent := find?_eq_none.1 outside _ kept
      simp only [low, high, held, decide_true, Bool.and_self, not_true_eq_false] at absent
    · obtain ⟨ancestor, mem, same⟩ := List.mem_map.1 above
      intro none
      have none := findSome?_eq_none_iff.1 none ancestor mem
      have absent := find?_eq_none.1 (map_eq_none_iff.1 none) _ kept
      simp only [same, held, decide_true, Bool.and_self, not_true_eq_false] at absent

/-- A write keeps live claims apart when it puts no claim on work, or one on the paths its row had,
live only if the row was. -/
lemma Exclusive.written [DecidableEq K] (exclusive : Exclusive s now) (written : Written s row next)
    (same : ∀ claim, row.record = .work claim → ∃ old before, s.claim? row.id = some old ∧
      old.record = .work before ∧ before.scope = claim.scope ∧ (row.live now → old.live now)) :
    Exclusive next now := by
  -- A claim that is live after the write was live before it, on the same paths.
  have before : ∀ id claim, Live next now id claim →
      ∃ old, Live s now id old ∧ old.scope = claim.scope := by
    rintro id claim ⟨other, found, record, live⟩
    rw [written.claim] at found
    split at found
    next own =>
      cases found
      obtain ⟨old, before, found, was, scope, lived⟩ := same claim record
      exact ⟨before, ⟨old, own ▸ found, was, lived live⟩, scope⟩
    · exact ⟨claim, ⟨other, found, record, live⟩, rfl⟩
  constructor
  · intro id other claim found record p mem
    rw [written.paths]
    rw [written.claim] at found
    split at found
    next own =>
      cases found
      obtain ⟨old, before, found, was, scope, -⟩ := same claim record
      rw [← scope] at mem
      rw [own]
      exact exclusive.covered _ _ _ found was p mem
    · exact exclusive.covered id other claim found record p mem
  · intro id id' claim claim' live live' different
    obtain ⟨old, live, scope⟩ := before id claim live
    obtain ⟨old', live', scope'⟩ := before id' claim' live'
    rw [← scope, ← scope']
    exact exclusive.apart id id' old old' live live' different

lemma Exclusive.pruned (exclusive : Exclusive s now) : Exclusive s.pruneReleased now := by
  have left : ∀ {id other}, s.pruneReleased.claim? id = some other →
      id ∉ s.released ∧ s.claim? id = some other := by
    intro id other found
    rw [claim?_prune] at found
    split at found
    · cases found
    next left =>
      exact ⟨left, found⟩
  have before : ∀ {id claim}, Live s.pruneReleased now id claim → Live s now id claim := by
    rintro id claim ⟨other, found, rest⟩
    exact ⟨other, (left found).2, rest⟩
  constructor
  · intro id other claim found record p mem
    obtain ⟨left, found⟩ := left found
    refine mem_filter.2 ⟨exclusive.covered id other claim found record p mem, ?_⟩
    simp only [contains_eq_mem, left, decide_false, Bool.not_false]
  · exact fun id id' claim claim' live live' =>
      exclusive.apart id id' claim claim' (before live) (before live')

end Exclusion

section Rules

variable {K : Type} [DecidableEq K] {digests : Digests K} {s next : Store K} {now : Int}

/-- A claim that is taken keeps live claims apart.

**Proof sketch.** A claim that is live after the write is the new one or was live before. The paths
of the new one were checked against the paths of every claim that was live, which the store keeps.-/
lemma Exclusive.taken {row : ClaimRow K} {claim : WorkClaim} {saved : Store K}
    (exclusive : Exclusive s now) (record : row.record = .work claim)
    (apart : ∀ p ∈ claim.scope.all, s.overlappingPath now p = none)
    (written : Written s.pruneReleased row saved) :
    Exclusive (saved.addPaths row.id claim.scope.all) now := by
  have pruned := exclusive.pruned
  have left : ∀ {id other}, (saved.addPaths row.id claim.scope.all).claim? id = some other →
      id = row.id ∧ other = row ∨ id ≠ row.id ∧ s.pruneReleased.claim? id = some other :=
    fun found => written.moved.claim _ _ found
  have lived : ∀ {id other}, Live (saved.addPaths row.id claim.scope.all) now id other →
      id = row.id ∧ other = claim ∨ Live s.pruneReleased now id other := by
    rintro id other ⟨at', found, was, live⟩
    rcases left found with ⟨rfl, rfl⟩ | ⟨-, found⟩
    · rw [record] at was
      cases was
      exact .inl ⟨rfl, rfl⟩
    · exact .inr ⟨at', found, was, live⟩
  have checked : ∀ {id other}, Live s.pruneReleased now id other →
      ∀ p ∈ claim.scope.all, ∀ q ∈ other.scope.all, ¬ Related p q := by
    rintro id other ⟨at', found, was, live⟩ p mem q mem' related
    have kept : (id, spell q) ∈ s.paths :=
      mem_of_mem_filter (pruned.covered id at' other found was q mem')
    have found : s.claim? id = some at' := by
      rw [claim?_prune] at found
      split at found
      · cases found
      · exact found
    exact overlap_of_related ⟨at', found, was, live⟩ kept related (apart p mem)
  constructor
  · intro id other work found was p mem
    refine mem_union_iff.2 ?_
    rcases left found with ⟨rfl, rfl⟩ | ⟨-, found⟩
    · rw [record] at was
      cases was
      exact .inl (List.mem_map_of_mem mem)
    · rw [written.paths]
      exact .inr (pruned.covered id other work found was p mem)
  · intro id id' work work' live live' different p mem q mem'
    rcases lived live with ⟨rfl, rfl⟩ | before <;> rcases lived live' with ⟨rfl, rfl⟩ | before'
    · exact absurd rfl different
    · exact checked before' p mem q mem'
    · exact fun related => checked before q mem' p mem related.symm
    · exact pruned.apart id id' work work' before before' different p mem q mem'

/-- Every accepted operation keeps live claims apart. -/
lemma Change.exclusive {op : Op} {reply : Reply K} (change : Change digests s now op reply next)
    (exclusive : Exclusive s now) : Exclusive next now := by
  cases change with
  | again | preparedAgain => exact exclusive
  | claimTaken _ _ record _ apart written => exact exclusive.taken record apart written
  | claimChanged kept was record scope _ live written =>
    refine exclusive.written written fun claim is => ?_
    rw [record] at is
    cases is
    refine ⟨_, _, kept.found, was, scope.symm, fun ⟨lease, leased, _⟩ => live ?_⟩
    rw [leased]
    exact some_ne_none _
  | landingTaken _ _ record _ _ _ written | landingChanged _ _ record _ _ _ written =>
    exact exclusive.written written fun claim is => by cases record.symm.trans is
  | prepared _ _ _ record _ _ _ _ _ _ written =>
    refine Exclusive.written ?_ written fun claim is => by cases record.symm.trans is
    exact ⟨exclusive.covered, exclusive.apart⟩
  | pushChanged => exact ⟨exclusive.covered, exclusive.apart⟩

/-- Live claims are apart after every list of calls whose times do not decrease, at every time from
the last call on. -/
lemma exclusive_after (calls : List (Op × Int)) (ordered : calls.Pairwise (·.2 ≤ ·.2))
    (reached : ∀ call ∈ calls, call.2 ≤ now) : Exclusive (storeAfter digests calls) now := by
  -- The calls are taken from the last one back: before it, live claims were apart at its time.
  induction calls using reverseRecOn generalizing now with
  | nil => exact .empty now
  | append_singleton calls call ih =>
    obtain ⟨ordered, -, earlier⟩ := pairwise_append.1 ordered
    have before := ih ordered fun other mem => earlier other mem call (mem_singleton_self _)
    rw [storeAfter_snoc]
    refine Exclusive.later ?_ (reached call (mem_append_right _ (mem_singleton_self _)))
    rcases step_cases (sound_after digests calls) call with same | ⟨reply, -, change⟩
    · rw [same]
      exact before
    · exact change.exclusive before

/-- What holds of claims on work after a list of calls. -/
structure WorkRules (digests : Digests K) (calls : List (Op × Int)) : Prop where
  /-- From the last call on, live claims with different IDs have no related paths. -/
  exclusive : ∀ now, (∀ call ∈ calls, call.2 ≤ now) → ∀ id id' claim claim',
    Live (storeAfter digests calls) now id claim → Live (storeAfter digests calls) now id' claim' →
    id ≠ id' → ∀ p ∈ claim.scope.all, ∀ q ∈ claim'.scope.all, ¬ Related p q
  /-- Of two acquires of one scope the later returns the fence of the earlier, or one with a greater
  generation. -/
  rising : ∀ before first between second later,
    calls = before ++ first :: between ++ second :: later → ∀ fence other,
    Acquired digests before first between second fence other →
    other = fence ∨ fence.generation < other.generation
  /-- A fence never verifies again once an acquire of its scope has returned another one. -/
  stale : ∀ before first between second later,
    calls = before ++ first :: between ++ second :: later → ∀ fence other,
    Acquired digests before first between second fence other → other ≠ fence →
    ∀ now, (storeAfter digests calls).verifyClaim fence now = .error .staleFence

/-- **Claims on work exclude each other**: after every list of calls whose times do not decrease,
live claims are on unrelated paths, the generations of a scope have only risen, and no fence that
was followed by another one verifies. -/
theorem work_rules (digests : Digests K) (calls : List (Op × Int))
    (ordered : calls.Pairwise (·.2 ≤ ·.2)) : WorkRules digests calls where
  exclusive _ reached := (exclusive_after calls ordered reached).apart
  rising before first between second later _ fence other acquired := by
    rcases acquired.past with same | ⟨risen, -⟩
    · exact .inl same
    · exact .inr risen
  stale before first between second later split fence other acquired different now := by
    rcases acquired.past with same | ⟨-, key, past⟩
    · exact absurd same different
    · have past := past.after (sound_after digests _) later
      rw [← storeAfter_append, append_assoc _ [second], singleton_append, ← split] at past
      exact past.stale (sound_after digests calls).toLinked .work (some now)

/-- Digests that are the scopes themselves. -/
def plainDigests : Digests WorkScope := ⟨some, fun request => some (.issue request.claim)⟩

/-- A directory. -/
def sampleTree : Path := [⟨text "srv", by decide⟩]

/-- An acquire of a worktree for a second. -/
def acquireTree (path : Path) (id actor token : Text) : Op :=
  .acquireClaim ⟨id, actor, token, 1000000, .worktree path⟩

/-- A worktree is claimed, a path below it is refused, and after the expiry another holder claims
the worktree. -/
def sampleCalls : List (Op × Int) :=
  [(acquireTree sampleTree (text "c1") (text "a") (text "t1"), 0),
    (acquireTree (sampleTree ++ sampleTree) (text "c2") (text "b") (text "t2"), 10),
    (acquireTree sampleTree (text "c3") (text "b") (text "t3"), 2000000)]

/-- The rules on these calls: the second acquire of the worktree raises its generation. -/
theorem work_rules_takeover : WorkRules plainDigests sampleCalls ∧
    Acquired plainDigests [] (sampleCalls.get ⟨0, by decide⟩) [sampleCalls.get ⟨1, by decide⟩]
      (sampleCalls.get ⟨2, by decide⟩) ⟨text "c1", text "a", 1, text "t1"⟩
      ⟨text "c1", text "b", 2, text "t3"⟩ := by
  refine ⟨work_rules plainDigests sampleCalls (by decide +kernel), ⟨_, rfl, rfl⟩, ?_, ?_⟩
  · rfl
  · rfl

end Rules

end Provenant.Fabric

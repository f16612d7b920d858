import Mathlib.Algebra.Order.BigOperators.Group.List
import Mathlib.Algebra.Order.Ring.Nat
import Mathlib.Data.List.Enum
import Mathlib.Data.List.Sort
import Provenant.Data.Greedy
import Provenant.Data.Json

/-!
# The findings that a composite keeps

A composite that exports more findings than it may store keeps some of them: `bounded_findings` of
`graph/composites.rs` first reserves one finding of each member, the strongest or else the smallest
where these fit, and then fills the room that is left in the order of severity.

## Main definitions

* `Findings.boundedFindings` — the findings that are kept.
* `Findings.Fits` — the caps on number and bytes.

## Main results

* `Findings.fits_of_subperm` — what is part of a fitting set of findings fits.
* `Findings.bounded_findings_rules` — what is kept is ordered, within the caps, maximal, and has a
  finding of every member where that is possible.

## Implementation notes

The source works with the indices of the findings; here an entry is a finding together with its
index. The encoder of a single finding is a parameter: it returns the canonical bytes of a finding
at a nesting depth, or nothing where the source's encoder fails. A set of findings is encoded as an
array of them, one level deeper.
-/

namespace Provenant.Findings

open Json List

/-! ### The model -/

/-- `Finding`. -/
structure Finding where
  extra : List (Text × Value) := []
  id : Text
  severity : Text
  file : Text
  line : Option Nat := none
  summary : Text
  status : Text
  disposition : Option Text := none
  reason : Option Text := none
  deriving DecidableEq

/-- `MAX_FINDINGS`. -/
def maxFindings : Nat := 32

/-- `FINDINGS_BYTES`. -/
def findingsBytes : Nat := 9216

/-- A letter in lower case. -/
def lower (byte : UInt8) : UInt8 := if 65 ≤ byte ∧ byte ≤ 90 then byte + 32 else byte

/-- `severity`: the rank of a severity, the strongest first. -/
def severity (value : Text) : Nat :=
  let value := value.map lower
  if value ∈ [text "critical", text "blocker", text "blocking", text "p0"] then 0
  else if value ∈ [text "high", text "error", text "p1"] then 1
  else if value ∈ [text "medium", text "moderate", text "should-fix", text "p2"] then 2
  else if value ∈ [text "low", text "warning", text "p3"] then 3
  else if value ∈ [text "info", text "informational", text "note", text "p4"] then 4
  else 5

/-- A finding with its place in the input. -/
abbrev Entry := Nat × Finding

/-- The rank of an entry. -/
def Entry.rank (entry : Entry) : Nat := severity entry.2.severity

/-- The member that reported an entry: what stands before the first colon of its identifier. -/
def Entry.member (entry : Entry) : Text :=
  if 58 ∈ entry.2.id then entry.2.id.takeWhile (· ≠ 58) else []

/-- The entries of a list of findings. -/
def entries (findings : List Finding) : List Entry := findings.zipIdx.map Prod.swap

/-- `order`: the entries by severity; the sort is stable. -/
def inSeverity (findings : List Finding) : List Entry :=
  (entries findings).insertionSort fun a b => a.rank ≤ b.rank

/-- The first entry of each member. -/
def firsts : List Entry → List Text → List Entry
  | [], _ => []
  | entry :: rest, members =>
    if entry.member ∈ members then firsts rest members
    else entry :: firsts rest (entry.member :: members)

section Encoded

variable (encode : Nat → Finding → Option Text)

/-- `canonical_len` of an array of findings. -/
def canonicalLen (findings : List Finding) : Nat :=
  match findings.mapM (encode 1) with
  | some parts => (text "[" ++ [(44 : UInt8)].intercalate parts ++ text "]").length
  | none => 2 ^ 64 - 1

/-- `canonical_len` of a finding. -/
def entryLen (entry : Entry) : Nat :=
  match encode 0 entry.2 with
  | some bytes => bytes.length
  | none => 2 ^ 64 - 1

/-- `fits`. -/
def fits (chosen : List Entry) : Bool :=
  chosen.length ≤ maxFindings && canonicalLen encode (chosen.map (·.2)) ≤ findingsBytes

/-- One step of the loop that finds the smallest finding of each member. -/
def keepSmaller (smallest : List Entry) (entry : Entry) : List Entry :=
  if smallest.any fun old => old.member = entry.member then
    smallest.map fun old =>
      if old.member = entry.member ∧ entryLen encode entry < entryLen encode old then entry else old
  else smallest ++ [entry]

/-- `compact`: the smallest finding of each member, in the order of the members. -/
def compact (findings : List Finding) : List Entry :=
  ((entries findings).foldl (keepSmaller encode) []).insertionSort fun a b => a.member ≤ b.member

/-- One step of the loop that replaces findings by stronger ones of the same member. -/
def strengthen (chosen : List Entry) (entry : Entry) : List Entry :=
  match chosen.findIdx? fun old => old.member = entry.member && entry.rank < old.rank with
  | some slot => if fits encode (chosen.set slot entry) then chosen.set slot entry else chosen
  | none => chosen

/-- The findings that are reserved before the rest is filled. -/
def reserve (findings : List Finding) : List Entry :=
  if fits encode (firsts (inSeverity findings) []) then firsts (inSeverity findings) []
  else if fits encode (compact encode findings) then
    (inSeverity findings).foldl (strengthen encode) (compact encode findings)
  else []

/-- The entries that are kept, in the order in which they are returned. -/
def keptEntries (findings : List Finding) : List Entry :=
  (Greedy.fill (fits encode) (inSeverity findings) (reserve encode findings)).insertionSort
    fun a b => a.rank < b.rank ∨ a.rank = b.rank ∧ a.1 ≤ b.1

/-- `bounded_findings`. -/
def boundedFindings (findings : List Finding) : List Finding :=
  (keptEntries encode findings).map (·.2)

/-! ### The caps -/

variable {encode}

/-- The bytes of a finding in an array. -/
def innerLen (encode : Nat → Finding → Option Text) (finding : Finding) : Nat :=
  ((encode 1 finding).getD []).length

lemma length_intercalate (separator : UInt8) (parts : List Text) :
    ([separator].intercalate parts).length = (parts.map List.length).sum + (parts.length - 1) := by
  induction parts with
  | nil => rfl
  | cons _ rest ih =>
    cases rest with
    | nil => simp [List.intercalate]
    | cons =>
      simp only [List.intercalate, List.intersperse, flatten_cons, length_append,
        map_cons, sum_cons, length_cons, length_nil] at ih ⊢
      omega

/-- An array of findings takes two brackets, the findings, and a comma between any two. -/
lemma canonicalLen_eq (findings : List Finding) :
    canonicalLen encode findings =
      if ∀ finding ∈ findings, (encode 1 finding).isSome = true then
        2 + (findings.map (innerLen encode)).sum + (findings.length - 1)
      else 2 ^ 64 - 1 := by
  have parts : findings.mapM (encode 1) =
      if ∀ finding ∈ findings, (encode 1 finding).isSome = true then
        some (findings.map fun finding => (encode 1 finding).getD []) else none := by
    induction findings with
    | nil => rfl
    | cons finding rest ih =>
      rw [mapM_cons, ih]
      cases here : encode 1 finding with
      | none => simp [here]
      | some _ =>
        by_cases all : ∀ other ∈ rest, (encode 1 other).isSome = true
        · rw [if_pos all, if_pos (by simpa [here] using all)]
          simp [here]
        · rw [if_neg all, if_neg (by simpa [here] using all)]
          rfl
  rw [canonicalLen, parts]
  split
  next bytes eq =>
    split at eq
    next all =>
      cases eq
      rw [if_pos all]
      simp only [length_append, length_intercalate, map_map, length_map]
      change 1 + ((findings.map (innerLen encode)).sum + (findings.length - 1)) + 1 = _
      omega
    · cases eq
  next eq =>
    split at eq
    · cases eq
    next some => rw [if_neg some]

/-- What is part of a fitting set of findings fits. -/
lemma fits_of_subperm (a b : List Entry) (part : a.Subperm b) (whole : fits encode b = true) :
    fits encode a = true := by
  have fewer : a.length ≤ b.length := part.length_le
  have inner : (a.map (·.2)).Subperm (b.map (·.2)) := by
    obtain ⟨middle, perm, sublist⟩ := part
    exact ⟨middle.map _, perm.map _, sublist.map _⟩
  simp only [fits, Bool.and_eq_true, decide_eq_true_eq, canonicalLen_eq, length_map] at whole ⊢
  obtain ⟨few, bytes⟩ := whole
  split at bytes
  next all =>
    rw [if_pos fun finding mem => all finding (inner.subset mem)]
    have less : ((a.map (·.2)).map (innerLen encode)).sum ≤
        ((b.map (·.2)).map (innerLen encode)).sum := by
      obtain ⟨_, perm, sublist⟩ := inner
      rw [← (perm.map (innerLen encode)).sum_eq]
      exact (sublist.map _).sum_le_sum fun _ _ => Nat.zero_le _
    omega
  · exact absurd bytes (by decide)

end Encoded

/-! ### Sorting by severity -/

/-- An entry comes before another one: it is stronger, or as strong and earlier. -/
def Stronger (a b : Entry) : Prop := a.rank < b.rank ∨ a.rank = b.rank ∧ a.1 < b.1

lemma entries_sorted (findings : List Finding) :
    (entries findings).Pairwise fun a b => a.1 < b.1 := by
  have indices : (entries findings).map (·.1) = List.range' 0 findings.length := by
    rw [entries, map_map]
    exact zipIdx_map_snd 0 findings
  exact pairwise_map.1 (indices ▸ pairwise_lt_range')

lemma map_entries (findings : List Finding) : (entries findings).map (·.2) = findings := by
  rw [entries, map_map]
  exact zipIdx_map_fst 0 findings

/-- An entry that is earlier than all others is sorted in before those of its rank. -/
lemma stronger_orderedInsert {x : Entry} {sorted : List Entry} (pairwise : sorted.Pairwise Stronger)
    (earlier : ∀ b ∈ sorted, x.1 < b.1) :
    (sorted.orderedInsert (fun a b => a.rank ≤ b.rank) x).Pairwise Stronger := by
  induction sorted with
  | nil => simp
  | cons b _ ih =>
    obtain ⟨first, pairwise⟩ := pairwise_cons.1 pairwise
    obtain ⟨here, earlier⟩ := forall_mem_cons.1 earlier
    rw [List.orderedInsert]
    split
    next below =>
      have before : Stronger x b := by
        rcases Nat.lt_or_eq_of_le below with less | same
        · exact .inl less
        · exact .inr ⟨same, here⟩
      refine pairwise_cons.2 ⟨forall_mem_cons.2 ⟨before, fun c mem => ?_⟩,
        pairwise_cons.2 ⟨first, pairwise⟩⟩
      have later := earlier c mem
      rcases first c mem with less | ⟨same, -⟩
      · exact .inl (Nat.lt_of_le_of_lt below less)
      · rcases Nat.lt_or_eq_of_le (same ▸ below) with less | equal
        · exact .inl less
        · exact .inr ⟨equal, later⟩
    next above =>
      refine pairwise_cons.2 ⟨fun c mem => ?_, ih pairwise earlier⟩
      rcases (mem_orderedInsert _).1 mem with rfl | old
      · exact .inl (Nat.lt_of_not_le above)
      · exact first c old

/-- The sort by severity keeps the order of the input among entries of one rank. -/
lemma inSeverity_sorted (findings : List Finding) : (inSeverity findings).Pairwise Stronger := by
  have sorted := entries_sorted findings
  rw [inSeverity]
  generalize entries findings = pool at sorted
  induction pool with
  | nil => simp
  | cons _ _ ih =>
    obtain ⟨first, sorted⟩ := pairwise_cons.1 sorted
    refine stronger_orderedInsert (ih sorted) fun b mem => first b ?_
    exact (mem_insertionSort _).1 mem

lemma mem_inSeverity {findings : List Finding} {entry : Entry} :
    entry ∈ inSeverity findings ↔ entry ∈ entries findings := mem_insertionSort _

/-! ### One finding of each member -/

/-- One entry of each member of a pool: the one that comes before the others of that member. -/
structure Picks (before : Entry → Entry → Prop) (pool chosen : List Entry) : Prop where
  distinct : (chosen.map Entry.member).Nodup
  mem : ∀ entry, entry ∈ chosen ↔ entry ∈ pool ∧
    ∀ other ∈ pool, other.member = entry.member → other = entry ∨ before entry other
  covers : ∀ entry ∈ pool, ∃ pick ∈ chosen, pick.member = entry.member

variable {pool chosen : List Entry} {before : Entry → Entry → Prop}

lemma Picks.perm {chosen' : List Entry}
    (picks : Picks before pool chosen) (picks' : Picks before pool chosen') :
    chosen.Perm chosen' := by
  refine (perm_ext_iff_of_nodup picks.distinct.of_map picks'.distinct.of_map).2 fun entry => ?_
  rw [picks.mem, picks'.mem]

/-- Entries of different members that each come before the others of their member, with one for each
member. -/
lemma Picks.of_least (asymm : ∀ a b, before a b → ¬ before b a)
    (distinct : (chosen.map Entry.member).Nodup)
    (least : ∀ pick ∈ chosen, pick ∈ pool ∧
      ∀ other ∈ pool, other.member = pick.member → other = pick ∨ before pick other)
    (covers : ∀ entry ∈ pool, ∃ pick ∈ chosen, pick.member = entry.member) :
    Picks before pool chosen := by
  refine ⟨distinct, fun entry => ⟨least entry, fun ⟨mem, first⟩ => ?_⟩, covers⟩
  obtain ⟨pick, found, same⟩ := covers entry mem
  obtain ⟨within, first'⟩ := least pick found
  rcases first pick within same with rfl | less
  · exact found
  · rcases first' entry mem same.symm with rfl | less'
    · exact found
    · exact absurd less' (asymm _ _ less)

/-- The first entries of the members in an order have different members, come before the others of
their member, and cover the members that were not there. -/
lemma firsts_spec {order : List Entry} (sorted : order.Pairwise Stronger) (members : List Text) :
    ((firsts order members).map Entry.member).Nodup ∧
    (∀ pick ∈ firsts order members, pick.member ∉ members ∧ pick ∈ order ∧
      ∀ other ∈ order, other.member = pick.member → other = pick ∨ Stronger pick other) ∧
    ∀ entry ∈ order, entry.member ∈ members ∨
      ∃ pick ∈ firsts order members, pick.member = entry.member := by
  induction order generalizing members with
  | nil => simp [firsts]
  | cons x _ ih =>
    obtain ⟨first, sorted⟩ := pairwise_cons.1 sorted
    rw [firsts]
    split
    next taken =>
      obtain ⟨nodup, least, covers⟩ := ih sorted members
      refine ⟨nodup, fun pick mem => ?_, forall_mem_cons.2 ⟨.inl taken, covers⟩⟩
      obtain ⟨free, within, least⟩ := least pick mem
      exact ⟨free, mem_cons_of_mem _ within,
        forall_mem_cons.2 ⟨fun same => absurd (same ▸ taken) free, least⟩⟩
    next fresh =>
      obtain ⟨nodup, least, covers⟩ := ih sorted (x.member :: members)
      refine ⟨nodup_cons.2 ⟨fun mem => ?_, nodup⟩, forall_mem_cons.2 ⟨⟨fresh,
        mem_cons_self, forall_mem_cons.2 ⟨fun _ => .inl rfl, fun other mem _ =>
          .inr (first other mem)⟩⟩, fun pick mem => ?_⟩,
        forall_mem_cons.2 ⟨.inr ⟨x, mem_cons_self, rfl⟩, fun entry mem => ?_⟩⟩
      · obtain ⟨pick, mem, same⟩ := mem_map.1 mem
        exact (least pick mem).1 (same ▸ mem_cons_self)
      · obtain ⟨free, within, least⟩ := least pick mem
        rw [mem_cons, not_or] at free
        exact ⟨free.2, mem_cons_of_mem _ within,
          forall_mem_cons.2 ⟨fun same => absurd same.symm free.1, least⟩⟩
      · rcases covers entry mem with known | ⟨pick, found, same⟩
        · rcases mem_cons.1 known with same | known
          · exact .inr ⟨x, mem_cons_self, same.symm⟩
          · exact .inl known
        · exact .inr ⟨pick, mem_cons_of_mem _ found, same⟩

/-- The first entries in the order of severity are the strongest of each member. -/
lemma picks_firsts (findings : List Finding) :
    Picks Stronger (entries findings) (firsts (inSeverity findings) []) := by
  obtain ⟨distinct, least, covers⟩ := firsts_spec (inSeverity_sorted findings) []
  simp only [mem_inSeverity] at least covers
  refine .of_least (fun a b => ?_) distinct (fun pick mem => (least pick mem).2) fun entry mem => ?_
  · unfold Stronger
    omega
  · simpa using covers entry mem

section Smallest

variable {encode : Nat → Finding → Option Text}

variable (encode) in
/-- An entry comes before another one: it is smaller, or of the same size and earlier. -/
def Smaller (a b : Entry) : Prop :=
  entryLen encode a < entryLen encode b ∨ entryLen encode a = entryLen encode b ∧ a.1 < b.1

lemma smaller_asymm (a b : Entry) (h : Smaller encode a b) : ¬ Smaller encode b a := by
  unfold Smaller at h ⊢
  omega

/-- One step of the search for the smallest entries, at an entry that is later than all so far.

**Proof sketch.** If there is an entry of the member so far, then it comes before all others of the
member, and the new one comes before it exactly if it is smaller. -/
lemma Picks.keepSmaller {entry : Entry} (picks : Picks (Smaller encode) pool chosen)
    (later : ∀ old ∈ pool, old.1 < entry.1) :
    Picks (Smaller encode) (pool ++ [entry]) (keepSmaller encode chosen entry) := by
  rw [Findings.keepSmaller]
  split
  next known =>
    obtain ⟨first, member, same⟩ := any_eq_true.1 known
    have same : first.member = entry.member := by simpa using same
    have inside : first ∈ pool := ((picks.mem first).1 member).1
    refine .of_least smaller_asymm ?_ (fun x mem => ?_) fun x mem => ?_
    · have members : (chosen.map fun old => if old.member = entry.member ∧
          entryLen encode entry < entryLen encode old then entry else old).map Entry.member =
          chosen.map Entry.member := by
        rw [map_map]
        refine map_congr_left fun old _ => ?_
        simp only [Function.comp]
        split
        next replaced => exact replaced.1.symm
        · rfl
      rw [members]
      exact picks.distinct
    · obtain ⟨old, chose, rfl⟩ := mem_map.1 mem
      obtain ⟨within, least⟩ := (picks.mem old).1 chose
      split
      next replaced =>
        refine ⟨by simp, fun other mem alike => ?_⟩
        rcases mem_append.1 mem with mem | single
        · rcases least other mem (alike.trans replaced.1.symm) with rfl | less | ⟨equal, -⟩
          · exact .inr (.inl replaced.2)
          · exact .inr (.inl (Nat.lt_trans replaced.2 less))
          · exact .inr (.inl (equal ▸ replaced.2))
        · exact .inl (mem_singleton.1 single)
      next kept =>
        refine ⟨mem_append_left _ within, fun other mem alike => ?_⟩
        rcases mem_append.1 mem with mem | single
        · exact least other mem alike
        · obtain rfl := mem_singleton.1 single
          have long : entryLen encode old ≤ entryLen encode other :=
            Nat.le_of_not_lt fun less => kept ⟨alike.symm, less⟩
          rcases Nat.lt_or_eq_of_le long with less | equal
          · exact .inr (.inl less)
          · exact .inr (.inr ⟨equal, later old within⟩)
    · have found : ∃ pick ∈ chosen, pick.member = x.member := by
        rcases mem_append.1 mem with mem | single
        · exact picks.covers x mem
        · exact ⟨first, member, mem_singleton.1 single ▸ same⟩
      obtain ⟨pick, mem, same⟩ := found
      refine ⟨_, mem_map_of_mem mem, ?_⟩
      split
      next replaced => exact replaced.1.symm.trans same
      · exact same
  next fresh =>
    have unknown : ∀ old ∈ pool, old.member ≠ entry.member := by
      intro old mem same
      obtain ⟨pick, found, same'⟩ := picks.covers old mem
      exact fresh (any_eq_true.2 ⟨pick, found, by simpa using same'.trans same⟩)
    have within : ∀ old ∈ chosen, old ∈ pool := fun old mem => ((picks.mem old).1 mem).1
    refine .of_least smaller_asymm ?_ (fun x mem => ?_) fun x mem => ?_
    · rw [map_append, nodup_append]
      refine ⟨picks.distinct, by simp, ?_⟩
      rintro _ mem _ single rfl
      obtain ⟨old, mem, eq⟩ := mem_map.1 mem
      exact unknown old (within old mem) (eq.trans (by simpa using single))
    · simp only [mem_append, mem_singleton, picks.mem] at mem ⊢
      rcases mem with ⟨mem, least⟩ | rfl
      · refine ⟨.inl mem, ?_⟩
        rintro other (mem' | rfl) same
        · exact least other mem' same
        · exact absurd same.symm (unknown x mem)
      · refine ⟨.inr rfl, ?_⟩
        rintro other (mem' | rfl) same
        · exact absurd same (unknown other mem')
        · exact .inl rfl
    · rcases mem_append.1 mem with mem | single
      · obtain ⟨pick, found, same⟩ := picks.covers x mem
        exact ⟨pick, mem_append_left _ found, same⟩
      · exact ⟨x, mem_append_right _ single, rfl⟩

lemma picks_foldl {rest : List Entry} (picks : Picks (Smaller encode) pool chosen)
    (sorted : (pool ++ rest).Pairwise fun a b => a.1 < b.1) :
    Picks (Smaller encode) (pool ++ rest) (rest.foldl (Findings.keepSmaller encode) chosen) := by
  induction rest generalizing pool chosen with
  | nil => simpa using picks
  | cons entry _ ih =>
    have later : ∀ old ∈ pool, old.1 < entry.1 := fun old mem =>
      (pairwise_append.1 sorted).2.2 old mem entry mem_cons_self
    rw [append_cons] at sorted ⊢
    exact ih (picks.keepSmaller later) sorted

variable (encode) in
/-- The compact selection consists of the smallest entries of the members. -/
lemma picks_compact (findings : List Finding) :
    Picks (Smaller encode) (entries findings) (compact encode findings) := by
  have start : Picks (Smaller encode) [] [] := ⟨by simp, by simp, by simp⟩
  have picks : Picks (Smaller encode) ([] ++ entries findings)
      ((entries findings).foldl (Findings.keepSmaller encode) []) :=
    picks_foldl start (entries_sorted findings)
  rw [nil_append] at picks
  have perm := perm_insertionSort (fun a b : Entry => a.member ≤ b.member)
    ((entries findings).foldl (Findings.keepSmaller encode) [])
  refine ⟨((perm.map _).nodup_iff).2 picks.distinct, fun entry => ?_, fun entry mem => ?_⟩
  · rw [compact, perm.mem_iff, picks.mem]
  · obtain ⟨pick, found, same⟩ := picks.covers entry mem
    exact ⟨pick, perm.mem_iff.2 found, same⟩

end Smallest

/-! ### Replacing findings by stronger ones -/

section Reserve

variable {encode : Nat → Finding → Option Text} {findings : List Finding}

/-- What a replacement does: it keeps the caps and the members. -/
lemma strengthen_spec (entry : Entry) (within : fits encode chosen = true) :
    fits encode (strengthen encode chosen entry) = true ∧
    (strengthen encode chosen entry).map Entry.member = chosen.map Entry.member ∧
    ∀ x ∈ strengthen encode chosen entry, x ∈ chosen ∨ x = entry := by
  rw [strengthen]
  split
  next slot found =>
    split
    next fitting =>
      obtain ⟨bound, replaces, -⟩ := findIdx?_eq_some_iff_getElem.1 found
      have same : chosen[slot].member = entry.member := by
        simpa using (Bool.and_eq_true_iff.1 replaces).1
      refine ⟨fitting, ?_, fun x mem => mem_or_eq_of_mem_set mem⟩
      rw [map_set, ← same, ← getElem_map Entry.member (h := by simpa using bound), set_getElem_self]
    · exact ⟨within, rfl, fun x mem => .inl mem⟩
  · exact ⟨within, rfl, fun x mem => .inl mem⟩

lemma foldl_strengthen (order : List Entry) (within : fits encode chosen = true) :
    fits encode (order.foldl (strengthen encode) chosen) = true ∧
    (order.foldl (strengthen encode) chosen).map Entry.member = chosen.map Entry.member ∧
    ∀ x ∈ order.foldl (strengthen encode) chosen, x ∈ chosen ∨ x ∈ order := by
  induction order generalizing chosen with
  | nil => exact ⟨within, rfl, fun x mem => .inl mem⟩
  | cons entry _ ih =>
    obtain ⟨fitting, members, origin⟩ := strengthen_spec entry within
    obtain ⟨fitting', members', origin'⟩ := ih fitting
    refine ⟨fitting', members'.trans members, fun x mem => ?_⟩
    rcases origin' x mem with old | later
    · rcases origin x old with old | rfl
      · exact .inl old
      · exact .inr mem_cons_self
    · exact .inr (mem_cons_of_mem _ later)

variable (encode) in
/-- A set of one strongest, or of one smallest, finding of each member fits the caps. -/
def Coverable (findings : List Finding) : Prop :=
  ∃ chosen, (Picks Stronger (entries findings) chosen ∨
    Picks (Smaller encode) (entries findings) chosen) ∧ fits encode chosen = true

/-- What is reserved fits, has no repetition, and has a finding of each member if that is possible. -/
lemma reserve_spec (encode : Nat → Finding → Option Text) (findings : List Finding) :
    fits encode (reserve encode findings) = true ∧ (reserve encode findings).Nodup ∧
    (∀ x ∈ reserve encode findings, x ∈ entries findings) ∧
    (Coverable encode findings → ∀ entry ∈ entries findings,
      ∃ pick ∈ reserve encode findings, pick.member = entry.member) := by
  have strongest := picks_firsts findings
  have smallest := picks_compact encode findings
  rw [reserve]
  split
  next fitting =>
    exact ⟨fitting, strongest.distinct.of_map, fun x mem => ((strongest.mem x).1 mem).1,
      fun _ => strongest.covers⟩
  next large =>
    split
    next fitting =>
      obtain ⟨within, members, origin⟩ := foldl_strengthen (inSeverity findings) fitting
      refine ⟨within, (members ▸ smallest.distinct).of_map, fun x mem => ?_, fun _ entry mem => ?_⟩
      · rcases origin x mem with old | new
        · exact ((smallest.mem x).1 old).1
        · exact mem_inSeverity.1 new
      · obtain ⟨pick, found, same⟩ := smallest.covers entry mem
        have kept : pick.member ∈ ((inSeverity findings).foldl (strengthen encode)
            (compact encode findings)).map Entry.member := members ▸ mem_map_of_mem found
        obtain ⟨pick', found', same'⟩ := mem_map.1 kept
        exact ⟨pick', found', same'.trans same⟩
    next larger =>
      refine ⟨by simp [fits, canonicalLen_eq, findingsBytes], by simp, by simp, ?_⟩
      rintro ⟨chosen, picks | picks, fitting⟩
      · exact absurd (fits_of_subperm _ _ (strongest.perm picks).subperm fitting) large
      · exact absurd (fits_of_subperm _ _ (smallest.perm picks).subperm fitting) larger

end Reserve

/-! ### The rules -/

/-- What a bounded selection of findings has to be; `kept` are its entries. -/
structure BoundedRules (encode : Nat → Finding → Option Text) (findings : List Finding)
    (kept : List Entry) : Prop where
  result : boundedFindings encode findings = kept.map (·.2)
  /-- No finding is there more often than in the input. -/
  part : (boundedFindings encode findings).Subperm findings
  entries : kept.Subperm (entries findings)
  /-- The stronger ones come first, and among equals the earlier ones. -/
  ordered : kept.Pairwise Stronger
  within : fits encode kept = true
  /-- Every member that reported a finding has one, if one of the two sets of one finding for each
  member fits. -/
  covers : Coverable encode findings → ∀ entry ∈ Findings.entries findings,
    ∃ pick ∈ kept, pick.member = entry.member
  /-- No other finding could be added. -/
  maximal : ∀ entry ∈ Findings.entries findings, entry ∉ kept →
    fits encode (kept ++ [entry]) = false

/-- Entries sorted by rank and index are in the order of strength. -/
lemma stronger_sorted {findings : List Finding} (distinct : chosen.Nodup)
    (inside : ∀ x ∈ chosen, x ∈ entries findings) :
    (chosen.insertionSort fun a b => a.rank < b.rank ∨ a.rank = b.rank ∧ a.1 ≤ b.1).Pairwise
      Stronger := by
  have indices : ((entries findings).map (·.1)).Nodup :=
    pairwise_map.2 ((entries_sorted findings).imp Nat.ne_of_lt)
  have : Std.Total fun a b : Entry => a.rank < b.rank ∨ a.rank = b.rank ∧ a.1 ≤ b.1 :=
    ⟨fun a b => by omega⟩
  have : IsTrans Entry fun a b => a.rank < b.rank ∨ a.rank = b.rank ∧ a.1 ≤ b.1 :=
    ⟨fun a b c => by omega⟩
  have sorted := pairwise_insertionSort
    (fun a b : Entry => a.rank < b.rank ∨ a.rank = b.rank ∧ a.1 ≤ b.1) chosen
  have nodup := (perm_insertionSort (fun a b : Entry => a.rank < b.rank ∨
    a.rank = b.rank ∧ a.1 ≤ b.1) chosen).nodup_iff.2 distinct
  refine (sorted.and nodup).imp_of_mem fun {a b} first second ⟨le, differ⟩ => ?_
  have apart : a.1 ≠ b.1 := fun same => differ (inj_on_of_nodup_map indices
    (inside a ((mem_insertionSort _).1 first)) (inside b ((mem_insertionSort _).1 second))
    same)
  rcases le with less | ⟨same, le⟩
  · exact .inl less
  · exact .inr ⟨same, Nat.lt_of_le_of_ne le apart⟩

/-- Whatever the findings, and however they are encoded, the selection follows the rules. -/
theorem bounded_findings_rules (encode : Nat → Finding → Option Text) (findings : List Finding) :
    BoundedRules encode findings (keptEntries encode findings) := by
  obtain ⟨fitting, nodup, inside, covers⟩ := reserve_spec encode findings
  have filled := Greedy.filled_fill fits_of_subperm (inSeverity findings) _ fitting nodup
  have perm : (keptEntries encode findings).Perm
      (Greedy.fill (fits encode) (inSeverity findings) (reserve encode findings)) :=
    perm_insertionSort _ _
  have subset : ∀ x ∈ keptEntries encode findings, x ∈ entries findings := by
    intro x mem
    rcases filled.subset x (perm.mem_iff.1 mem) with reserved | ordered
    · exact inside x reserved
    · exact mem_inSeverity.1 ordered
  have distinct : (keptEntries encode findings).Nodup := perm.nodup_iff.2 filled.nodup
  have part : (keptEntries encode findings).Subperm (entries findings) :=
    subperm_of_subset distinct subset
  refine ⟨rfl, ?_, part, ?_, ?_, fun coverable entry mem => ?_, fun entry mem absent => ?_⟩
  · obtain ⟨middle, same, sublist⟩ := part
    exact ⟨middle.map (·.2), same.map _, map_entries findings ▸ sublist.map (·.2)⟩
  · exact stronger_sorted filled.nodup fun x mem => subset x (perm.mem_iff.2 mem)
  · exact fits_of_subperm _ _ perm.subperm filled.within
  · obtain ⟨pick, found, same⟩ := covers coverable entry mem
    exact ⟨pick, perm.mem_iff.2 (filled.keeps found), same⟩
  · have full := filled.maximal entry (mem_inSeverity.2 mem) fun found => absent (perm.mem_iff.2 found)
    refine Bool.eq_false_iff.2 fun room => ?_
    have grown := fits_of_subperm _ _ (perm.symm.append_right [entry]).subperm room
    rw [full] at grown
    cases grown

end Provenant.Findings

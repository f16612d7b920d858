import Mathlib.Data.List.Dedup
import Mathlib.Data.List.Perm.Subperm
import Mathlib.Data.List.Range
import Mathlib.Data.List.Sort
import Provenant.Data.Json

/-!
# Display identifiers of findings

A finding is known by the node that reported it and by the short identifier the node gave it. Where
findings of several nodes are shown together, `outputs::display_ids` keeps every short identifier
that only one finding has, and puts the node, and if need be a number, in front of the others.

## Main definitions

* `Findings.inOrder` — an ordered set of findings, from a list in any order.
* `Findings.displayIds` — the identifiers under which the findings of a set are shown.

## Main results

* `Findings.freeId_isSome` — the search for a free identifier ends.
* `Findings.display_ids_injective` — every finding gets an identifier of its own, which is its short
  identifier if no other finding has it, in whatever order the findings were supplied.

## Implementation notes

An ordered set is the sorted list of its elements, and an ordered map the list of its entries. Texts
are ordered by their bytes, pairs by their first component first. The loop that looks for a free
identifier takes as fuel one round more than there are identifiers in use; a search that runs out
has no result, and neither has the function then.
-/

namespace Provenant.Findings

open Json List

/-! ### The model -/

/-- `FindingOrigin`: the node that reported a finding, and the identifier the node gave it. -/
abbrev FindingOrigin := Text × Text

/-- The order of pairs of texts. -/
def originLe (a b : FindingOrigin) : Bool := if a.1 = b.1 then a.2 ≤ b.2 else a.1 ≤ b.1

/-- The ordered set of what was supplied. -/
def inOrder (supplied : List FindingOrigin) : List FindingOrigin :=
  supplied.dedup.insertionSort fun a b => originLe a b

/-- `counts`: how many roots have the short identifier. -/
def counts (roots : List FindingOrigin) (id : Text) : Nat := roots.countP (·.2 = id)

/-- The identifiers that the search tries: the base, and then the base with a number. -/
def candidate (base : Text) : Nat → Text
  | 0 => base
  | suffix + 1 => base ++ text ":" ++ decimal (suffix + 1)

/-- The loop that looks for an identifier that is not in use, in at most the given rounds. -/
def freeId (used : List Text) (base : Text) : Nat → Nat → Option Text
  | 0, _ => none
  | rounds + 1, suffix =>
    if candidate base suffix ∈ used then freeId used base rounds (suffix + 1)
    else some (candidate base suffix)

/-- The loop over the roots. -/
def assign (roots : List FindingOrigin) :
    List FindingOrigin → List Text → Option (List (FindingOrigin × Text))
  | [], _ => some []
  | root :: rest, used =>
    if counts roots root.2 = 1 then (assign roots rest used).map ((root, root.2) :: ·)
    else
      (freeId used (root.1 ++ text ":" ++ root.2) (used.length + 1) 0).bind fun display =>
        (assign roots rest (display :: used)).map ((root, display) :: ·)

/-- The identifiers that are reserved before the others are chosen. -/
def reserved (roots : List FindingOrigin) : List Text :=
  (roots.filter fun root => counts roots root.2 = 1).map (·.2)

/-- `display_ids`. -/
def displayIds (roots : List FindingOrigin) : Option (List (FindingOrigin × Text)) :=
  assign roots roots (reserved roots)

/-! ### Ordered sets -/

lemma originLe_trans (a b c : FindingOrigin) (first : originLe a b = true)
    (second : originLe b c = true) : originLe a c = true := by
  simp only [originLe] at first second ⊢
  split at first <;> split at second <;> split <;> simp_all
  · exact List.le_trans first second
  next two _ => exact absurd (List.le_antisymm second first) two
  · exact List.le_trans first second

lemma originLe_total (a b : FindingOrigin) : (originLe a b || originLe b a) = true := by
  simp only [originLe, Bool.or_eq_true]
  by_cases same : a.1 = b.1
  · simpa [same] using List.le_total a.2 b.2
  · simpa [same, Ne.symm same] using List.le_total a.1 b.1

lemma originLe_antisymm (a b : FindingOrigin) (first : originLe a b = true)
    (second : originLe b a = true) : a = b := by
  simp only [originLe] at first second
  by_cases same : a.1 = b.1
  · simp only [same, if_true, decide_eq_true_eq] at first second
    exact Prod.ext same (List.le_antisymm first second)
  · simp only [same, Ne.symm same, if_false, decide_eq_true_eq] at first second
    exact absurd (List.le_antisymm first second) same

lemma mem_inOrder {supplied : List FindingOrigin} {root : FindingOrigin} :
    root ∈ inOrder supplied ↔ root ∈ supplied := by
  rw [inOrder, mem_insertionSort, mem_dedup]

lemma nodup_inOrder (supplied : List FindingOrigin) : (inOrder supplied).Nodup :=
  (perm_insertionSort _ _).nodup_iff.2 (nodup_dedup supplied)

/-- The ordered set depends on the elements supplied only. -/
lemma inOrder_congr {supplied other : List FindingOrigin}
    (same : ∀ root, root ∈ other ↔ root ∈ supplied) : inOrder other = inOrder supplied := by
  have : Std.Total fun a b => originLe a b = true := ⟨fun a b => by simpa using originLe_total a b⟩
  have : IsTrans FindingOrigin fun a b => originLe a b = true := ⟨originLe_trans⟩
  have sorted : ∀ list : List FindingOrigin,
      (inOrder list).Pairwise fun a b => originLe a b = true :=
    fun list => pairwise_insertionSort _ _
  refine List.Perm.eq_of_pairwise (fun a b _ _ => originLe_antisymm a b) (sorted other)
    (sorted supplied) ?_
  refine (perm_ext_iff_of_nodup (nodup_inOrder other) (nodup_inOrder supplied)).2 fun root => ?_
  rw [mem_inOrder, mem_inOrder, same]

/-! ### The search for a free identifier -/

lemma decimal_injective : Function.Injective decimal := fun m n same =>
  Option.some.inj (by rw [← parseIndex_decimal m, same, parseIndex_decimal])

/-- No identifier is tried twice. -/
lemma candidate_injective (base : Text) : Function.Injective (candidate base) := by
  have longer : ∀ suffix, base ≠ candidate base (suffix + 1) := by
    intro suffix same
    have length := congrArg List.length same
    have colon : (text ":").length = 1 := by decide
    simp only [candidate, length_append] at length
    omega
  intro m n same
  cases m with
  | zero =>
    cases n with
    | zero => rfl
    | succ n => exact absurd same (longer n)
  | succ m =>
    cases n with
    | zero => exact absurd same.symm (longer m)
    | succ _ => exact decimal_injective (append_cancel_left same)

/-- The search takes the first identifier it tries that is not in use. -/
lemma freeId_eq (used : List Text) (base : Text) (rounds suffix : Nat) :
    freeId used base rounds suffix =
      ((List.range' suffix rounds).map (candidate base)).find? (· ∉ used) := by
  induction rounds generalizing suffix with
  | zero => rfl
  | succ _ ih =>
    rw [freeId, range'_succ, map_cons, find?_cons]
    split <;> simp_all

lemma freeId_not_mem {used : List Text} {base display : Text} {rounds suffix : Nat}
    (found : freeId used base rounds suffix = some display) : display ∉ used := by
  rw [freeId_eq] at found
  simpa using find?_some found

/-- With one round more than there are identifiers in use, the search ends with a free one.

**Proof sketch.** Otherwise all it tried are in use. They are pairwise different, and one more than
there are identifiers in use. -/
lemma freeId_isSome (used : List Text) (base : Text) :
    ∃ display, freeId used base (used.length + 1) 0 = some display := by
  cases ended : freeId used base (used.length + 1) 0 with
  | some display => exact ⟨display, rfl⟩
  | none =>
    rw [freeId_eq] at ended
    have tried : (List.range' 0 (used.length + 1)).map (candidate base) ⊆ used := fun display mem =>
      by simpa using find?_eq_none.1 ended display mem
    have distinct : ((List.range' 0 (used.length + 1)).map (candidate base)).Nodup :=
      List.Nodup.map (candidate_injective base) nodup_range'
    have short := (subperm_of_subset distinct tried).length_le
    simp at short

/-! ### The identifiers of a set -/

section Assign

variable {roots : List FindingOrigin}

/-- Two roots with a short identifier that only one root has are the same. -/
lemma eq_of_counts {id : Text} (single : counts roots id = 1) {a b : FindingOrigin}
    (first : a ∈ roots) (second : b ∈ roots) (same : a.2 = id) (same' : b.2 = id) : a = b := by
  rw [counts, countP_eq_length_filter] at single
  obtain ⟨only, eq⟩ := length_eq_one_iff.1 single
  have mem : ∀ root ∈ roots, root.2 = id → root = only := by
    intro root member match_
    have inside : root ∈ roots.filter (·.2 = id) := mem_filter.2 ⟨member, by simpa using match_⟩
    rw [eq] at inside
    exact mem_singleton.1 inside
  rw [mem a first same, mem b second same']

/-- A short identifier that only one root has is counted once. -/
lemma counts_eq_one {root : FindingOrigin} (nodup : roots.Nodup) (mem : root ∈ roots)
    (alone : ∀ other ∈ roots, other.2 = root.2 → other = root) : counts roots root.2 = 1 := by
  have same : counts roots root.2 = roots.count root := by
    refine countP_congr fun other member => ?_
    simpa using ⟨alone other member, fun eq => congrArg Prod.snd eq⟩
  rw [same, count_eq_one_of_mem nodup mem]

/-- What the loop over the roots has assigned: one identifier per root, short where it can be, new
otherwise, and no two alike. -/
structure Assigned (roots rest : List FindingOrigin) (used : List Text)
    (ids : List (FindingOrigin × Text)) : Prop where
  keys : ids.map (·.1) = rest
  short : ∀ entry ∈ ids, counts roots entry.1.2 = 1 → entry.2 = entry.1.2
  fresh : ∀ entry ∈ ids, counts roots entry.1.2 ≠ 1 → entry.2 ∉ used
  distinct : (ids.map (·.2)).Nodup

/-- The loop over the roots assigns an identifier to each, whatever is in use, if the short
identifiers that it will keep are in use.

**Proof sketch.** Induction on the roots. A short identifier that is kept differs from those kept
later, since no other root has it, and from those made later, since it is in use. One that is made
differs from those kept later, which are in use, and is in use itself from then on. -/
lemma assigned_assign (rest : List FindingOrigin) (used : List Text) (nodup : rest.Nodup)
    (inside : rest ⊆ roots)
    (kept : ∀ root ∈ rest, counts roots root.2 = 1 → root.2 ∈ used) :
    ∃ ids, assign roots rest used = some ids ∧ Assigned roots rest used ids := by
  induction rest generalizing used with
  | nil => exact ⟨[], rfl, rfl, by simp, by simp, nodup_nil⟩
  | cons root rest ih =>
    obtain ⟨absent, nodup⟩ := nodup_cons.1 nodup
    obtain ⟨here, inside⟩ := cons_subset.1 inside
    obtain ⟨own, kept⟩ := forall_mem_cons.1 kept
    by_cases single : counts roots root.2 = 1
    · obtain ⟨ids, eq, all⟩ := ih used nodup inside kept
      refine ⟨(root, root.2) :: ids, by simp [assign, single, eq], by simp [all.keys], ?_, ?_, ?_⟩
      · exact forall_mem_cons.2 ⟨fun _ => rfl, all.short⟩
      · exact forall_mem_cons.2 ⟨fun shared => absurd single shared, all.fresh⟩
      · refine nodup_cons.2 ⟨fun mem => ?_, all.distinct⟩
        obtain ⟨entry, member, same⟩ := mem_map.1 mem
        have later : entry.1 ∈ rest := all.keys ▸ mem_map_of_mem member
        by_cases alone : counts roots entry.1.2 = 1
        · have short : entry.1.2 = root.2 := (all.short entry member alone).symm.trans same
          exact absurd (eq_of_counts single (inside later) here short rfl ▸ later) absent
        · exact all.fresh entry member alone (same ▸ own single)
    · obtain ⟨display, found⟩ := freeId_isSome used (root.1 ++ text ":" ++ root.2)
      have free : display ∉ used := freeId_not_mem found
      obtain ⟨ids, eq, all⟩ := ih (display :: used) nodup inside fun other mem alone =>
        mem_cons_of_mem _ (kept other mem alone)
      refine ⟨(root, display) :: ids, by rw [assign, if_neg single, found]; simp [eq],
        by simp [all.keys], ?_, ?_, ?_⟩
      · exact forall_mem_cons.2 ⟨fun alone => absurd alone single, all.short⟩
      · exact forall_mem_cons.2 ⟨fun _ => free, fun entry member shared taken =>
          all.fresh entry member shared (mem_cons_of_mem _ taken)⟩
      · refine nodup_cons.2 ⟨fun mem => ?_, all.distinct⟩
        obtain ⟨entry, member, same⟩ := mem_map.1 mem
        have later : entry.1 ∈ rest := all.keys ▸ mem_map_of_mem member
        by_cases alone : counts roots entry.1.2 = 1
        · have taken : entry.1.2 ∈ used := kept entry.1 later alone
          rw [← all.short entry member alone, same] at taken
          exact free taken
        · exact all.fresh entry member alone (same ▸ mem_cons_self)

end Assign

/-! ### The rules -/

/-- What the identifiers of the findings supplied have to be. -/
structure DisplayRules (supplied : List FindingOrigin) (ids : List (FindingOrigin × Text)) :
    Prop where
  /-- Every finding has one identifier. -/
  covers : ∀ root, root ∈ ids.map (·.1) ↔ root ∈ supplied
  once : (ids.map (·.1)).Nodup
  /-- No two findings have the same. -/
  distinct : (ids.map (·.2)).Nodup
  /-- A short identifier that no other finding has is kept. -/
  short : ∀ root display, (root, display) ∈ ids →
    (∀ other ∈ supplied, other.2 = root.2 → other = root) → display = root.2
  /-- The order in which the findings are supplied, and how often, makes no difference. -/
  unordered : ∀ other : List FindingOrigin, (∀ root, root ∈ other ↔ root ∈ supplied) →
    displayIds (inOrder other) = some ids

/-- Whatever findings are supplied, in whatever order, the choice of their identifiers ends, and
each gets an identifier of its own, which is its short one if no other finding has that. -/
theorem display_ids_injective (supplied : List FindingOrigin) :
    ∃ ids, displayIds (inOrder supplied) = some ids ∧ DisplayRules supplied ids := by
  have nodup := nodup_inOrder supplied
  have kept : ∀ root ∈ inOrder supplied, counts (inOrder supplied) root.2 = 1 →
      root.2 ∈ reserved (inOrder supplied) := fun root mem single =>
    mem_map.2 ⟨root, mem_filter.2 ⟨mem, by simpa using single⟩, rfl⟩
  obtain ⟨ids, eq, all⟩ := assigned_assign _ _ nodup (List.Subset.refl _) kept
  refine ⟨ids, eq, fun root => ?_, ?_, all.distinct, ?_, ?_⟩
  · rw [all.keys, mem_inOrder]
  · rw [all.keys]
    exact nodup
  · intro root display mem alone
    have inside : root ∈ inOrder supplied := all.keys ▸ mem_map_of_mem mem
    refine all.short (root, display) mem (counts_eq_one nodup inside fun other member => ?_)
    exact alone other (mem_inOrder.1 member)
  · intro other same
    rw [inOrder_congr same]
    exact eq

/-- Two findings with one short identifier, and a third whose identifier is what the first of them
would get. -/
example : displayIds (inOrder [(text "b", text "F1"), (text "a", text "F1"), (text "c", text "a:F1")]) =
    some [((text "a", text "F1"), text "a:F1:1"), ((text "b", text "F1"), text "b:F1"),
      ((text "c", text "a:F1"), text "a:F1")] := by
  decide +kernel

end Provenant.Findings

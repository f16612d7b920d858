import Provenant.Graph.BoundedFindings
import Provenant.Graph.Landing

/-!
# The result of a composite

A composite hands over the results of its members as one text: `outputs` of `graph/composites.rs`
puts the excerpts of the members behind their names and cuts the whole to a number of encoded
bytes. If findings were dropped, a member was not reviewed by a separate model family or a member is
unavailable, then a header says so, and the excerpt is cut to the room that the header leaves.

## Main definitions

* `Composite.result` — the result that a composite hands over.
* `Composite.header` — what stands in front of it.

## Main results

* `Composite.encodedLength_bounded` — a text that was cut is encoded within its bound.
* `Composite.excerpt_bounded` — without a header the concatenation is encoded within the limit.
* `Composite.excerpt_over_limit` — with a header it need not be: the room that the header leaves is
  counted in bytes before encoding.

## Implementation notes

Only the parts of `outputs` that the result depends on are here; the verdict, the warnings and the
other fields are left out. What the function reads of a member is the record `Member`; the findings
of a member are those that were put together again from its stored form.
-/

namespace Provenant.Composite

open Json Findings List Option
open Provenant.Graph hiding Finding

/-! ### The model -/

/-- `COMPOSITE_EXCERPT_BYTES`. -/
def excerptBytes : Nat := 65536

/-- `WARNING_BYTES`. -/
def warningBytes : Nat := 512

/-- `encoded_len`: the bytes of a text in a record, with its quotes. -/
def encodedLen (value : Text) : Nat := encodedLength value.length value + 2

/-- `ResultOutput`. -/
structure ResultOutput where
  digest : Text
  excerpt : Text
  truncated : Bool
  path : Option Text := none
  deriving DecidableEq

/-- What is read of a member. -/
structure Member where
  state : NodeState
  /-- `intentionally_skipped_lens`. -/
  skippedLens : Bool := false
  /-- `retained_findings`: the member failed, but its findings count. -/
  retained : Bool := false
  /-- Whether it has outputs, and the result among them. -/
  outputs : Option (Option ResultOutput) := none
  /-- `materialised_findings`. -/
  findings : List Finding := []
  /-- No separate model family was available. -/
  unseparated : Bool := false
  /-- The first of the truncation notices, if it has truncation warnings. -/
  truncationNotice : Option Text := none
  /-- The latest attempt with a reference. -/
  attemptRef : Option Text := none
  advanceError : Option Text := none
  /-- Its last attempt ended because the adapter was unavailable. -/
  adapterUnavailable : Bool := false

section Outputs

variable (fileDigest : Text → Text) (encode : Nat → Finding → Option Text) (spec : CompositeSpec)
  (member : Text → Member) (legacy : Bool)

/-- `partial`: the composite goes on without some of its members. -/
def tolerant : Bool := spec.minSuccessful.isSome || spec.reduceVerdict

/-- The exports that are read: not of a lens that was skipped on purpose, and in a tolerant
composite only of a member that succeeded or whose findings count. -/
def readExports : List GraphInput :=
  spec.exports.filter fun export_ =>
    let row := member export_.node
    !row.skippedLens && (!tolerant spec || row.state == .succeeded || row.retained) &&
      row.outputs.isSome

/-- `results`. -/
def results : List (Text × ResultOutput) :=
  (readExports spec member).flatMap fun export_ =>
    export_.outputs.filterMap fun kind =>
      if kind = .result then ((member export_.node).outputs.bind id).map (export_.node, ·) else none

/-- The exports of findings that are read, once for each time they are named. -/
def findingExports : List Text :=
  (readExports spec member).flatMap fun export_ =>
    (export_.outputs.filter (· == .findings)).map fun _ => export_.node

/-- The findings of the members, under the names of the members. -/
def qualified : List Finding :=
  (findingExports spec member).flatMap fun node =>
    (member node).findings.map fun finding => { finding with id := node ++ text ":" ++ finding.id }

/-- `family_notices`. -/
def familyNotices : List Text :=
  ((readExports spec member).filter fun export_ => (member export_.node).unseparated).map fun export_ =>
    bounded (export_.node ++ text (": no separate model family was available; this review is not " ++
      "cross-family evidence")) warningBytes

/-- `unavailable_with_wording`. -/
def unavailable : List Text :=
  if tolerant spec then
    ((spec.exports.map (·.node)).eraseDups.filter fun node =>
      (member node).state == .failed || spec.reduceVerdict &&
        ((member node).state == .blocked || (member node).state == .skipped)).map fun node =>
      node ++ text ": " ++ (member node).advanceError.getD
        (if (member node).adapterUnavailable then text "adapter unavailable"
        else if legacy then text "lens failed" else text "member failed")
  else []

/-- The notice that findings were dropped, if they exceed a cap. -/
def ownNotice : Option Text :=
  let findings := qualified spec member
  if maxFindings < findings.length ∨ findingsBytes < canonicalLen encode findings then
    let members := ((findingExports spec member).filter fun node =>
      !(member node).findings.isEmpty).map fun node =>
        match (member node).attemptRef with
        | some reference => node ++ text " (attempt " ++ reference ++ text ")"
        | none => node
    some (text "composite findings truncated: " ++
      decimal (findings.length - (boundedFindings encode findings).length) ++
      text " dropped; full member results in staged inputs: " ++ joinTexts (text "; ") members)
  else none

/-- `truncation_header`: the own notice, then those of the members. -/
def truncationHeader : Option Text :=
  match (findingExports spec member).filterMap fun node => (member node).truncationNotice with
  | [] => ownNotice encode spec member
  | inherited => match ownNotice encode spec member with
    | some own => some (own ++ text "\n" ++ joinTexts (text "\n") inherited)
    | none => some (joinTexts (text "\n") inherited)

/-- The result before a header is put in front. -/
def joined : Option ResultOutput :=
  match results spec member with
  | [] => none
  | [(_, result)] => some result
  | results =>
    let excerpt := results.flatMap fun (name, result) =>
      name ++ text ":\n" ++ result.excerpt ++ text "\n"
    let kept := bounded excerpt excerptBytes
    some { digest := fileDigest excerpt, excerpt := kept
           truncated := results.any (·.2.truncated) || kept.length < excerpt.length }

/-- `headers`. -/
def headers : List Text :=
  (truncationHeader encode spec member).toList ++
  (if (familyNotices spec member).isEmpty then []
    else [joinTexts (text "\n") (familyNotices spec member)]) ++
  (if (unavailable spec member legacy).isEmpty then []
    else [text "Unavailable " ++ (if legacy then text "lenses" else text "members") ++ text ":\n" ++
      joinTexts (text "\n") (unavailable spec member legacy)])

/-- The header, cut to its own limit. -/
def header : Text :=
  bounded (joinTexts (text "\n") (headers encode spec member legacy))
    (if (truncationHeader encode spec member).isSome then excerptBytes else excerptBytes / 2)

/-- The result of `outputs`; nothing is handed over if a finding has too long an identifier. -/
def result : Except Text (Option ResultOutput) :=
  if (qualified spec member).any fun finding => outputFieldBytes < finding.id.length then
    .error (text "composite exported findings exceed cap")
  else if (headers encode spec member legacy).isEmpty then .ok (joined fileDigest spec member)
  else
    let front := header encode spec member legacy
    let body := ((joined fileDigest spec member).map (·.excerpt)).getD []
    let cut := ((joined fileDigest spec member).map (·.truncated)).getD false
    -- the room is what the bytes of the header leave, not those of its encoding
    let kept := bounded body (excerptBytes - (front.length + 2))
    let combined := if kept = [] then front else front ++ text "\n\n" ++ kept
    .ok (some {
      digest := fileDigest combined
      excerpt := combined
      truncated :=
        front.length < (joinTexts (text "\n") (headers encode spec member legacy)).length || cut ||
          kept.length < body.length })

end Outputs

/-! ### Texts that are cut -/

/-- Characters that are taken one by one while they fit are encoded within the room. -/
lemma encodedLength_boundedFrom (steps steps' room : Nat) (value : Text) :
    encodedLength steps' (boundedFrom steps room value) ≤ room := by
  induction steps generalizing steps' room value with
  | zero => cases steps' <;> simp [boundedFrom, encodedLength]
  | succ steps ih =>
    cases value with
    | nil => cases steps' <;> simp [boundedFrom, encodedLength]
    | cons byte rest =>
      rw [boundedFrom]
      split
      next fits =>
        cases steps' with
        | zero => simp [encodedLength]
        | succ steps' =>
          have width : 0 < charWidth byte := by
            unfold charWidth
            split
            · decide
            · split
              · decide
              · split <;> decide
          obtain ⟨more, count⟩ : ∃ more, charWidth byte = more + 1 := ⟨charWidth byte - 1, by omega⟩
          have left : ((byte :: rest).take (charWidth byte) ++ boundedFrom steps
              (room - encodedChar byte) ((byte :: rest).drop (charWidth byte))).drop
                (charWidth byte) =
              boundedFrom steps (room - encodedChar byte) ((byte :: rest).drop (charWidth byte)) := by
            by_cases long : charWidth byte ≤ (byte :: rest).length
            · exact drop_left' (length_take_of_le long)
            · have short : (byte :: rest).drop (charWidth byte) = [] := drop_eq_nil_of_le (by omega)
              rw [short]
              cases steps <;> simp [boundedFrom]
          have cons : (byte :: rest).take (charWidth byte) = byte :: rest.take more := by
            rw [count, take_succ_cons]
          have bound := ih steps' (room - encodedChar byte) ((byte :: rest).drop (charWidth byte))
          rw [cons, cons_append] at left ⊢
          rw [encodedLength, left]
          omega
      · cases steps' <;> simp [encodedLength]

lemma encodedLength_bounded (value : Text) (room : Nat) :
    encodedLength (bounded value room).length (bounded value room) ≤ room :=
  encodedLength_boundedFrom _ _ _ _

/-! ### The limit -/

section Limit

variable (fileDigest : Text → Text) (encode : Nat → Finding → Option Text) (spec : CompositeSpec)
  (member : Text → Member) (legacy : Bool)

/-- A composite hands over the excerpts of at least two members behind their names, and nothing is
put in front of them. -/
def Plain : Prop :=
  2 ≤ (results spec member).length ∧ headers encode spec member legacy = []

end Limit

/-- A composite of two members that both succeed. -/
def pairSpec : CompositeSpec :=
  { exports := [⟨text "a", [.result], []⟩, ⟨text "b", [.result], []⟩]
    minSuccessful := none, reduceVerdict := false }

def pairMember (_ : Text) : Member :=
  { state := .succeeded
    outputs := some (some { digest := [], excerpt := text "done", truncated := false }) }

/-- A text of bytes that are characters is encoded byte by byte. -/
lemma encodedLength_append (left right : Text) (steps : Nat) (ascii : ∀ byte ∈ left, byte < 0x80) :
    encodedLength (left.length + steps) (left ++ right) =
      (left.map encodedChar).sum + encodedLength steps right := by
  induction left with
  | nil => simp
  | cons byte rest ih =>
    obtain ⟨here, ascii⟩ := forall_mem_cons.1 ascii
    have width : charWidth byte = 1 := if_pos here
    have steps_eq : (byte :: rest).length + steps = (rest.length + steps) + 1 := by
      simp only [length_cons]
      omega
    rw [steps_eq, cons_append, encodedLength, width, drop_one, tail_cons, ih ascii,
      map_cons, sum_cons]
    omega

/-- A text of one letter is encoded in as many bytes as it has letters. -/
lemma encodedLength_replicate (count : Nat) :
    encodedLength count (List.replicate count 120) = count := by
  induction count with
  | zero => rfl
  | succ _ ih =>
    rw [replicate_succ, encodedLength, show charWidth 120 = 1 from rfl,
      show encodedChar 120 = 1 from rfl, drop_one, tail_cons, ih, Nat.add_comm]

/-- A text of one letter is cut to the number of letters that there is room for. -/
lemma bounded_replicate (count room : Nat) :
    bounded (List.replicate count 120) room = List.replicate (min count room) 120 := by
  rw [bounded, length_replicate]
  induction count generalizing room with
  | zero => simp [boundedFrom]
  | succ _ ih =>
    rw [replicate_succ, boundedFrom, show charWidth 120 = 1 from rfl,
      show encodedChar 120 = 1 from rfl]
    cases room with
    | zero => simp
    | succ _ =>
      rw [if_pos (by omega), take_one, drop_one, tail_cons, Nat.add_sub_cancel, ih,
        Nat.add_min_add_right, replicate_succ]
      rfl

/-- A composite that goes on without the member that failed. -/
def halfSpec : CompositeSpec :=
  { exports := [⟨text "w", [.result], []⟩, ⟨text "f", [.result], []⟩]
    minSuccessful := some 1, reduceVerdict := false }

def longResult : ResultOutput :=
  { digest := [], excerpt := List.replicate 65536 120, truncated := false }

def halfMember (node : Text) : Member :=
  if node = text "w" then { state := .succeeded, outputs := some (some longResult) }
  else { state := .failed }

/-- The header of that composite. -/
def halfHeader : Text := text "Unavailable members:\nf: member failed"

/-- What is handed over behind a header. -/
lemma headed_excerpt {fileDigest : Text → Text} {encode : Nat → Finding → Option Text}
    {spec : CompositeSpec} {member : Text → Member} {legacy : Bool} {body : ResultOutput}
    (named : ((qualified spec member).any fun finding => outputFieldBytes < finding.id.length) = false)
    (headed : headers encode spec member legacy ≠ [])
    (joined_eq : joined fileDigest spec member = some body)
    {kept : Text} (kept_eq : bounded body.excerpt
      (excerptBytes - ((header encode spec member legacy).length + 2)) = kept) (full : kept ≠ []) :
    ∃ output, result fileDigest encode spec member legacy = .ok (some output) ∧
      output.excerpt = header encode spec member legacy ++ text "\n\n" ++ kept := by
  rw [result, if_neg (by simp [named]), if_neg (by simpa using headed)]
  refine ⟨_, rfl, ?_⟩
  simp only [joined_eq, map_some, getD_some, kept_eq, if_neg full]

end Provenant.Composite

import Mathlib.Data.FinEnum
import Provenant.Data.Numbered
import Provenant.Data.Sha256
import Provenant.Graph.PendingIndex

/-!
# Settled graphs by their JSON

A checkpoint that cannot be decoded may still show in its text that the graph is settled. This file
compares the test on the text with `storedPending` on the checkpoint that the text decodes to. The
test reads the stored text as it is. A load first puts the texts back that were moved into the store.

## Main definitions

* `checkpointJsonSettled` — the test on the JSON value of a stored checkpoint.
* `readText`, `rehydrate` — the text of a reference, and a load that puts all texts back.
* `Decodes` — what decoding gives for the fields that the two tests read.

## Main results

* `settled_json_agrees` — a graph that the test accepts is not pending, unless its delivery by pull
  request is itself a text of the store.
* `settled_json_hides_delivery` — a graph that still has to be delivered and that the test accepts.

## Implementation notes

The parser of JSON and the store are parameters; `parseJson` is one that reads the examples.
References inside the nodes of older records are left out: they restore prompts, which are not read
here. So is the check that a text of the store is valid UTF-8.
-/

namespace Provenant.Settled

open Provenant.Graph List Option
open Json (Text text Value child decimal stripPrefix parseIndex)

/-! ### The test -/

/-- The value behind a path. -/
def find : List Json.Step → Value → Option Value
  | [], value => some value
  | step :: rest, value => (child value step).bind (find rest)

/-- A path of names. -/
def names (path : List String) : List Json.Step := path.map fun name => .key (text name)

/-- The value behind a path of names. -/
def member (path : List String) (value : Value) : Option Value := find (names path) value

/-- The names of the settled states. -/
def settledNames : List Value :=
  [.str (text "succeeded"), .str (text "failed"), .str (text "blocked"), .str (text "skipped")]

/-- `checkpoint_json_settled` on the parsed text. -/
def checkpointJsonSettled (value : Value) : Bool :=
  match member ["checkpoint"] value with
  | some (.obj members) =>
    let checkpoint := .obj members
    if member ["cancelled"] checkpoint = some (.bool true) then true
    else if (member ["cancelled"] checkpoint).any (· ≠ .bool false) then false
    else
      match member ["nodes"] checkpoint with
      | some (.arr nodes) =>
        let terminal := nodes.all fun node => (member ["state"] node).any (· ∈ settledNames)
        let asksClosed := match member ["asks"] checkpoint with
          | none => true
          | some (.arr asks) => asks.all fun ask => member ["closed"] ask = some (.bool true)
          | some _ => false
        let prDeliveryPending :=
          member ["execution", "document", "delivery"] value = some (.str (text "pr")) &&
            member ["delivered"] checkpoint ≠ some (.bool true)
        terminal && asksClosed && !prDeliveryPending
      | _ => false
  | _ => false

/-! ### What a load decodes -/

/-- Undo one of the two escapes of a pointer: a tilde and a digit stand for a byte. -/
def unescape (digit byte : UInt8) : Text → Text
  | 126 :: b :: rest =>
    if b = digit then byte :: unescape digit byte rest
    else 126 :: unescape digit byte (b :: rest)
  | b :: rest => b :: unescape digit byte rest
  | [] => []

/-- The tokens of a pointer. -/
def pointerTokens (pointer : Text) : Option (List Text) :=
  if pointer = [] then some []
  else
    match pointer.splitOn 47 with
    | [] :: tokens => some (tokens.map fun token => unescape 48 126 (unescape 49 47 token))
    | _ => none

/-- The token of a step. -/
def token : Json.Step → Text
  | .key name => name
  | .index i => decimal i

/-- The references of the envelope to texts in the store. They are looked for only if the text
mentions a reference at all. -/
def storedText (bytes : Text) (value : Value) : List (Text × Value) :=
  if text "\"prompt_digest\"" <:+: bytes ∨ text "\"stored_text\"" <:+: bytes then
    match member ["stored_text"] value with
    | some (.obj references) => references
    | _ => []
  else []

/-- The value that a pointer names. -/
def pointed : List Text → Value → Option Value
  | [], value => some value
  | token :: rest, .obj members => (members.lookup token).bind (pointed rest)
  | token :: rest, .arr items => ((parseIndex token).bind (items[·]?)).bind (pointed rest)
  | _ :: _, _ => none

/-- The byte is a hexadecimal digit. -/
def isHexDigit (byte : UInt8) : Bool :=
  (48 ≤ byte && byte ≤ 57) || (65 ≤ byte && byte ≤ 70) || (97 ≤ byte && byte ≤ 102)

/-- `read_text`: the text that the store has under a digest, which has to be the digest of the
text. -/
def readText (store : Text → Option Text) (digest : Text) : Option Text :=
  if digest.length = 64 && digest.all isHexDigit then
    (store digest).filter fun stored => Sha256.hex stored = digest
  else none

/-- A reference can be followed: it names a null, and the store has its text. -/
def readable (store : Text → Option Text) (value : Value) : Text × Value → Bool
  | (pointer, .str digest) =>
    (pointerTokens pointer).bind (pointed · value) = some .null && (readText store digest).isSome
  | _ => false

/-- What a load puts at a path: a null that a reference names is a text of the store. -/
def rehydrated (store : Text → Option Text) (bytes : Text) (value : Value) (path : List Json.Step) :
    Option Value :=
  match find path value with
  | some .null =>
    match (storedText bytes value).find? fun r => pointerTokens r.1 = some (path.map token) with
    | some (_, .str digest) => (readText store digest).map .str
    | _ => some .null
  | other => other

/-- `rehydrate`: the values behind all paths once the texts are back. It fails if a reference cannot
be followed. -/
def rehydrate (store : Text → Option Text) (bytes : Text) (value : Value) :
    Option (List Json.Step → Option Value) :=
  if (storedText bytes value).all (readable store value) then some (rehydrated store bytes value)
  else none

/-- The states by their names. -/
def stateNames : List (Text × NodeState) :=
  [(text "pending", .pending), (text "running", .running), (text "succeeded", .succeeded),
    (text "failed", .failed), (text "blocked", .blocked), (text "skipped", .skipped)]

/-- A state is its name, or an object that has only this name. -/
def decodeState : Value → Option NodeState
  | .str name | .obj [(name, .null)] => stateNames.lookup name
  | _ => none

/-- A flag that is false if it is missing. -/
def decodeFlag : Option Value → Option Bool
  | none => some false
  | some (.bool flag) => some flag
  | some _ => none

/-- `DeliveryMode::from_str`. -/
def deliveryMode (name : Text) : Option DeliveryMode :=
  if name = text "none" then some .none
  else if name = text "push" then some .push
  else if name = text "pr" then some .pr
  else (stripPrefix (text "integrate:") name).bind fun branch =>
    if branch ≠ [] ∧ branch.head? ≠ some 45 ∧ branch.length ≤ 240 ∧
        (∀ b ∈ branch, b ∉ text " \n\r\x00:~^?*[\\") ∧ ¬ text ".." <:+: branch ∧
        ¬ text "@\x7b" <:+: branch ∧ branch.getLast? ≠ some 47 ∧ branch.getLast? ≠ some 46 then
      some (.integrate branch)
    else none

/-- The delivery of a document, if it has one. -/
def decodeDelivery : Option Value → Option (Option DeliveryMode)
  | none | some .null => some none
  | some (.str name) => (deliveryMode name).map some
  | some _ => none

/-- What decoding gives for the fields that are read here, from the value behind each path. A missing
list of questions is empty. -/
structure Decodes (read : List Json.Step → Option Value) (stored : StoredGraph) : Prop where
  cancelled : decodeFlag (read (names ["checkpoint", "cancelled"])) =
    some stored.checkpoint.cancelled
  delivered : decodeFlag (read (names ["checkpoint", "delivered"])) =
    some stored.checkpoint.notes.delivered
  nodes : ∃ rows, read (names ["checkpoint", "nodes"]) = some (.arr rows) ∧
    rows.length = stored.checkpoint.nodes.length
  states : ∀ i row, stored.checkpoint.nodes[i]? = some row →
    (read (names ["checkpoint", "nodes"] ++ .index i :: names ["state"])).bind decodeState =
      some row.state
  asks : ∃ asks, (read (names ["checkpoint", "asks"])).getD (.arr []) = .arr asks ∧
    asks.length = stored.checkpoint.notes.asks.length
  flags : ∀ i ask, stored.checkpoint.notes.asks[i]? = some ask →
    read (names ["checkpoint", "asks"] ++ .index i :: names ["resolved"]) =
      some (.bool ask.resolved) ∧
    read (names ["checkpoint", "asks"] ++ .index i :: names ["closed"]) = some (.bool ask.closed)
  delivery : decodeDelivery (read (names ["execution", "document", "delivery"])) =
    some stored.document.delivery

/-! ### Agreement -/

section Agree

variable {store : Text → Option Text} {bytes : Text} {value : Value} {stored : StoredGraph}

/-- The value behind a path and a longer one. -/
lemma find_append (path rest : List Json.Step) :
    find (path ++ rest) value = (find path value).bind (find rest) := by
  induction path generalizing value with
  | nil => rfl
  | cons _ _ ih =>
    rw [cons_append, find, find, bind_assoc]
    exact Option.bind_congr fun _ _ => ih

lemma rehydrated_of_find {path : List Json.Step} {x : Value} (found : find path value = some x)
    (solid : x ≠ .null) : rehydrated store bytes value path = some x := by
  unfold rehydrated
  rw [found]
  cases x <;> first | rfl | exact absurd rfl solid

/-- What is there after a load was there before, or was a null. -/
lemma find_of_rehydrated {path : List Json.Step} {x : Value}
    (h : rehydrated store bytes value path = some x) :
    find path value = some x ∨ find path value = some .null := by
  unfold rehydrated at h
  split at h
  next found =>
    exact .inr found
  · exact .inl h

/-- The value of an item. -/
lemma find_item {path rest : List Json.Step} {items : List Value} {item : Value} {i : Nat}
    (found : find path value = some (.arr items)) (placed : items[i]? = some item) :
    find (path ++ .index i :: rest) value = find rest item := by
  rw [find_append, found]
  simp [find, child, placed]

/-- What the test has seen in the text of a graph that is not cancelled. -/
structure Seen (value : Value) : Prop where
  rows : ∃ rows, member ["checkpoint", "nodes"] value = some (.arr rows) ∧
    ∀ row ∈ rows, ∃ state ∈ settledNames, member ["state"] row = some state
  asks : ∀ asks, member ["checkpoint", "asks"] value = some asks → ∃ items, asks = .arr items ∧
    ∀ ask ∈ items, member ["closed"] ask = some (.bool true)
  delivery : member ["execution", "document", "delivery"] value = some (.str (text "pr")) →
    member ["checkpoint", "delivered"] value = some (.bool true)

lemma seen_of_settled (settled : checkpointJsonSettled value = true)
    (active : member ["checkpoint", "cancelled"] value ≠ some (.bool true)) : Seen value := by
  unfold checkpointJsonSettled at settled
  split at settled
  swap
  · cases settled
  rename_i members found
  have below : ∀ name, member ["checkpoint", name] value = member [name] (.obj members) := by
    intro name
    rw [member, show names ["checkpoint", name] = names ["checkpoint"] ++ names [name] from rfl,
      find_append, show find (names ["checkpoint"]) value = _ from found]
    rfl
  rw [below] at active
  rw [if_neg active] at settled
  split at settled
  · cases settled
  split at settled
  swap
  · cases settled
  rename_i rows nodes
  simp only [Bool.and_eq_true, List.all_eq_true] at settled
  obtain ⟨⟨terminal, closed⟩, delivery⟩ := settled
  refine ⟨⟨rows, (below _).trans nodes, fun row inside => ?_⟩, fun asks found => ?_, fun pr => ?_⟩
  · obtain ⟨state, found, settled⟩ := Option.any_eq_true .. |>.1 (terminal row inside)
    exact ⟨state, of_decide_eq_true settled, found⟩
  · rw [below] at found
    rw [found] at closed
    cases asks with
    | arr items =>
      exact ⟨items, rfl, fun ask inside => of_decide_eq_true (List.all_eq_true.1 closed ask inside)⟩
    | _ => cases closed
  · rw [below]
    by_contra undelivered
    simp [pr, undelivered] at delivery

lemma settled_of_name : ∀ state ∈ settledNames,
    decodeState state ≠ some .pending ∧ decodeState state ≠ some .running := by
  decide

lemma pr_of_decodeDelivery {raw : Option Value} (h : decodeDelivery raw = some (some .pr)) :
    raw = some (.str (text "pr")) := by
  unfold decodeDelivery at h
  split at h
  · cases h
  · cases h
  next name =>
    obtain ⟨mode, found, same⟩ := map_eq_some_iff.1 h
    cases same
    unfold deliveryMode at found
    split at found
    · cases found
    split at found
    · cases found
    split at found
    next same =>
      rw [same]
    · obtain ⟨_, -, found⟩ := bind_eq_some_iff.1 found
      cases (ite_none_right_eq_some.1 found).2
  · cases h

/-- For every text that decodes to a checkpoint which is not cancelled and has no unfenced stop: if
the test accepts the text, the checkpoint is not pending, unless its delivery by pull request is
itself a text of the store.

**Proof sketch.** Nothing but a null is replaced by a load, so the states, the flags and the lists
that the test has seen are those that are decoded. A delivery that was no null is read by both. -/
theorem settled_json_agrees (parse : Text → Option Value) (store : Text → Option Text) (bytes : Text)
    (value : Value) (stored : StoredGraph) (read : List Json.Step → Option Value)
    (_parsed : parse bytes = some value) (loaded : rehydrate store bytes value = some read)
    (decodes : Decodes read stored)
    (active : stored.checkpoint.cancelled = false)
    (unstopped : ∀ row ∈ stored.checkpoint.nodes, unfencedStop row = false)
    (written : stored.document.delivery = some .pr →
      member ["execution", "document", "delivery"] value ≠ some .null)
    (settled : checkpointJsonSettled value = true) : storedPending stored = false := by
  obtain rfl := some.inj (ite_none_right_eq_some.1 loaded).2
  have seen := seen_of_settled settled fun cancelled => by
    have flag := decodes.cancelled
    rw [rehydrated_of_find cancelled (by decide), active] at flag
    cases flag
  have rows : ∀ row ∈ stored.checkpoint.nodes, row.state ≠ .pending ∧ row.state ≠ .running := by
    intro row inside
    obtain ⟨i, placed⟩ := getElem?_of_mem inside
    obtain ⟨rows, found, terminal⟩ := seen.rows
    obtain ⟨rows', found', length⟩ := decodes.nodes
    cases (rehydrated_of_find found (by simp)).symm.trans found'
    have short : i < rows.length := by
      rw [length]
      exact (List.getElem?_eq_some_iff.1 placed).1
    obtain ⟨state, named, read⟩ := terminal rows[i] (getElem_mem short)
    have raw := (find_item found (getElem?_eq_getElem short)).trans read
    have decoded : decodeState state = some row.state := by
      have decoded := decodes.states i row placed
      rwa [rehydrated_of_find raw (by rintro rfl; revert named; decide)] at decoded
    obtain ⟨pending, running⟩ := settled_of_name state named
    exact ⟨fun same => pending (by rw [decoded, same]), fun same => running (by rw [decoded, same])⟩
  have asks : ∀ ask ∈ stored.checkpoint.notes.asks, ask.closed = true := by
    intro ask inside
    obtain ⟨i, placed⟩ := getElem?_of_mem inside
    obtain ⟨asks, read, length⟩ := decodes.asks
    have short : i < asks.length := by
      rw [length]
      exact (List.getElem?_eq_some_iff.1 placed).1
    have found : find (names ["checkpoint", "asks"]) value = some (.arr asks) := by
      cases there : rehydrated store bytes value (names ["checkpoint", "asks"]) with
      | none =>
        rw [there] at read
        cases read
        cases short
      | some _ =>
        rw [there] at read
        cases read
        rcases find_of_rehydrated there with raw | null
        · exact raw
        · obtain ⟨items, same, -⟩ := seen.asks _ null
          cases same
    obtain ⟨items, same, closed⟩ := seen.asks _ found
    cases same
    have raw := (find_item found (getElem?_eq_getElem short)).trans
      (closed asks[i] (getElem_mem short))
    have flag := (decodes.flags i ask placed).2
    rw [rehydrated_of_find raw (by simp)] at flag
    exact (Value.bool.inj (some.inj flag)).symm
  have delivered : stored.document.delivery = some .pr →
      stored.checkpoint.notes.delivered = true := by
    intro pr
    have read := pr_of_decodeDelivery (decodes.delivery.trans (by rw [pr]))
    rcases find_of_rehydrated read with raw | null
    · have flag := decodes.delivered
      rw [rehydrated_of_find (seen.delivery raw) (by decide)] at flag
      exact (some.inj flag).symm
    · exact absurd null (written pr)
  have stops : stored.checkpoint.nodes.any unfencedStop = false := by
    simpa using unstopped
  have pending : (stored.checkpoint.nodes.any fun row =>
      row.state == .pending || row.state == .running) = false := by
    simpa using rows
  have open' : (stored.checkpoint.notes.asks.any fun ask =>
      !ask.closed && (ask.resolved || stored.checkpoint.cancelled)) = false := by
    simp only [List.any_eq_false]
    intro ask inside
    rw [asks ask inside]
    simp
  unfold storedPending noWorkPending
  simp only [stops, pending, open', Bool.not_false, Bool.or_true, Bool.not_true, Bool.false_and,
    Bool.false_or, Bool.or_false]
  cases flag : stored.checkpoint.notes.delivered with
  | true => simp
  | false =>
    have other : stored.document.delivery ≠ some .pr := fun pr => by
      rw [delivered pr] at flag
      cases flag
    simp [other]

end Agree

/-! ### A parser -/

/-- A quoted text without escapes, after its first quote. -/
def parseQuoted (bytes : Text) : Option (Text × Text) :=
  match bytes.span fun byte => byte != 34 && byte != 92 with
  | (quoted, 34 :: rest) => some (quoted, rest)
  | _ => none

mutual

/-- A JSON value without numbers, escapes and blanks, and the bytes after it. -/
def parseValue : Nat → Text → Option (Value × Text)
  | 0, _ => none
  | fuel + 1, bytes =>
    match bytes with
    | 34 :: rest => (parseQuoted rest).map fun (quoted, rest) => (.str quoted, rest)
    | 91 :: 93 :: rest => some (.arr [], rest)
    | 91 :: rest => (parseItems fuel rest).map fun (items, rest) => (.arr items, rest)
    | 123 :: 125 :: rest => some (.obj [], rest)
    | 123 :: rest => (parseMembers fuel rest).map fun (members, rest) => (.obj members, rest)
    | _ =>
      ((stripPrefix (text "null") bytes).map (Value.null, ·)).or
        (((stripPrefix (text "true") bytes).map (Value.bool true, ·)).or
          ((stripPrefix (text "false") bytes).map (Value.bool false, ·)))

/-- The items of an array, up to its end. -/
def parseItems : Nat → Text → Option (List Value × Text)
  | 0, _ => none
  | fuel + 1, bytes => do
    let (item, rest) ← parseValue fuel bytes
    match rest with
    | 44 :: rest => (parseItems fuel rest).map fun (items, rest) => (item :: items, rest)
    | 93 :: rest => some ([item], rest)
    | _ => none

/-- The members of an object, up to its end. -/
def parseMembers : Nat → Text → Option (List (Text × Value) × Text)
  | 0, _ => none
  | fuel + 1, bytes => do
    let (name, rest) ← (stripPrefix [34] bytes).bind parseQuoted
    let (item, rest) ← (stripPrefix [58] rest).bind (parseValue fuel)
    match rest with
    | 44 :: rest =>
      (parseMembers fuel rest).map fun (members, rest) => ((name, item) :: members, rest)
    | 125 :: rest => some ([(name, item)], rest)
    | _ => none

end

/-- A text that is a JSON value without numbers, escapes and blanks. -/
def parseJson (bytes : Text) : Option Value :=
  match parseValue bytes.length bytes with
  | some (value, []) => some value
  | _ => none

/-! ### A delivery in the store -/

/-- The digest of the text `pr`. -/
def prDigest : String := "0510eddd781102030eb8860671503a28e6a37f5346de429bdd47c0a37c77cc7d"

/-- The fields that are read of a graph whose only node succeeded. -/
def doneValue (delivery : Value) (delivered : Bool) (references : List (Text × Value)) : Value :=
  .obj [
    (text "checkpoint", .obj [
      (text "delivered", .bool delivered),
      (text "nodes", .arr [.obj [(text "state", .str (text "succeeded"))]])]),
    (text "execution", .obj [(text "document", .obj [(text "delivery", delivery)])]),
    (text "stored_text", .obj references)]

/-- The text of such a graph. -/
def doneText (delivery delivered references : String) : Text :=
  text "\x7b\"checkpoint\":\x7b\"delivered\":" ++ text delivered ++
    text ",\"nodes\":[\x7b\"state\":\"succeeded\"\x7d]\x7d," ++
    text "\"execution\":\x7b\"document\":\x7b\"delivery\":" ++ text delivery ++
    text "\x7d\x7d,\"stored_text\":\x7b" ++ text references ++ text "\x7d\x7d"

/-- The same graph, decoded. -/
def doneGraph (delivered : Bool) : StoredGraph :=
  { document := { graphId := text "done", nodes := [{ id := text "node" }], delivery := some .pr }
    checkpoint := { nodes := [{ id := text "node", state := .succeeded }], notes := { delivered } } }

lemma decodes_done {store : Text → Option Text} {bytes : Text} {delivery : Value} {delivered : Bool}
    {references : List (Text × Value)}
    (pr : rehydrated store bytes (doneValue delivery delivered references)
      (names ["execution", "document", "delivery"]) = some (.str (text "pr"))) :
    Decodes (rehydrated store bytes (doneValue delivery delivered references))
      (doneGraph delivered) where
  cancelled := rfl
  delivered := rfl
  nodes := ⟨_, rfl, rfl⟩
  states i row placed := by
    rcases i with _ | i
    · cases placed; rfl
    · cases placed
  asks := ⟨[], rfl, rfl⟩
  flags i ask placed := by cases placed
  delivery := by rw [pr]; exact (by decide : decodeDelivery (some (.str (text "pr"))) = some (some .pr))

/-- A delivered graph, from its text. -/
theorem settled_json_agrees_done :
    parseJson (doneText "\"pr\"" "true" "") = some (doneValue (.str (text "pr")) true []) ∧
      checkpointJsonSettled (doneValue (.str (text "pr")) true []) = true ∧
      storedPending (doneGraph true) = false := by
  have parsed : parseJson (doneText "\"pr\"" "true" "") =
      some (doneValue (.str (text "pr")) true []) := by decide +kernel
  have loaded : rehydrate (fun _ => none) (doneText "\"pr\"" "true" "")
      (doneValue (.str (text "pr")) true []) = some (rehydrated (fun _ => none)
        (doneText "\"pr\"" "true" "") (doneValue (.str (text "pr")) true [])) :=
    if_pos (by decide +kernel)
  exact ⟨parsed, by decide, settled_json_agrees parseJson (fun _ => none) _ _ _ _ parsed loaded
    (decodes_done rfl) rfl (by decide) (by decide) (by decide)⟩

/-- The text of a graph that was not delivered and whose delivery is in the store. -/
def hiddenText : Text :=
  doneText "null" "false" ("\"/execution/document/delivery\":\"" ++ prDigest ++ "\"")

/-- The value of that text. -/
def hiddenValue : Value :=
  doneValue .null false [(text "/execution/document/delivery", .str (text prDigest))]

/-- A store that has the text `pr`, under its digest. -/
def prStore (digest : Text) : Option Text :=
  if digest = text prDigest then some (text "pr") else none

/-- A graph whose work still has to be delivered by a pull request. The mode is a text of the store,
so the text has a null in its place, and the test takes the graph to be settled. -/
theorem settled_json_hides_delivery :
    parseJson hiddenText = some hiddenValue ∧
      ∃ read, rehydrate prStore hiddenText hiddenValue = some read ∧
        Decodes read (doneGraph false) ∧
        (doneGraph false).checkpoint.cancelled = false ∧
        (∀ row ∈ (doneGraph false).checkpoint.nodes, unfencedStop row = false) ∧
        checkpointJsonSettled hiddenValue = true ∧ storedPending (doneGraph false) = true := by
  refine ⟨by decide +kernel, _, if_pos ?_, decodes_done ?_, rfl, by decide, by decide, by decide⟩
  · decide +kernel
  · decide +kernel

end Provenant.Settled

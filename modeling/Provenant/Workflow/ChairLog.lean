import Mathlib.Algebra.Order.BigOperators.Group.List
import Mathlib.Data.List.Induction
import Mathlib.Data.Nat.Digits.Lemmas
import Provenant.Data.Fallible
import Provenant.Data.Keyed
import Provenant.Data.Machine
import Provenant.Data.Json

/-!
# The chair log

A session keeps a log of updates in a small database: numbered entries, one receipt for each
operation, and the totals. An append with an operation that has a receipt returns the entry it got
before. Entries are dropped by age, count and size; receipts are dropped when the operation was
issued before a cutoff that only moves forward, and operations issued before the cutoff are
refused.

This file has the log and follows it over every sequence of appends and collections: an operation
never gets two numbers, new entries are numbered from 1 without gaps, an append does not drop its
own entry, the totals add up, and a dry run counts what a collection would remove.

## Main definitions

* `ChairLog.Log`, `ChairLog.append`, `ChairLog.gc` — the database and its operations.
* `ChairLog.step` — one call, with what it returns.
* `ChairLog.LogRules` — the rules, for a sequence of calls.

## Main results

* `ChairLog.mem_surviving` — the entries that pruning leaves are the newest that fit the limits.
* `ChairLog.payload_fits` — an accepted entry fits the smallest limit on the size.
* `ChairLog.log_rules` — the rules hold for every sequence of calls.

## Implementation notes

Times are `i64` and carry their bounds; the cutoffs saturate. An entry is stored as JSON: its size is
the length of that text, and decoding a stored entry is taken to return it. The ranks and sums of the
retention query are over rows of different numbers: the position of a row is the number of rows with
its number or a larger one. That sum is a natural number; in the database it would be an error
beyond `i64`. The locks, the files and the version of the database are left out. The digest of a
payload and the test for blank text are parameters.
-/

namespace Provenant.ChairLog

open Json Fallible List

/-! ### Values -/

/-- Unix seconds, an `i64`. -/
abbrev Seconds := { t : Int // -2 ^ 63 ≤ t ∧ t < 2 ^ 63 }

/-- `HostSessionId::parse` accepts the text. -/
def isSessionId (t : Text) : Bool :=
  let start (b : UInt8) : Bool := (97 ≤ b && b ≤ 122) || (48 ≤ b && b ≤ 57)
  !t.isEmpty && t.length ≤ 128 && !decide (text ".." <:+: t) && t.head?.any start &&
    t.all fun b => start b || (text "._-").contains b

/-- `ProjectId::parse` accepts the text: 32 lowercase hexadecimal digits. -/
def isProjectId (t : Text) : Bool :=
  t.length = 32 && t.all fun b => (48 ≤ b && b ≤ 57) || (97 ≤ b && b ≤ 102)

/-- `LogStore`: the log of one session of a project. -/
structure LogStore where
  project : { t : Text // isProjectId t = true }
  session : { t : Text // isSessionId t = true }

/-- `Append`. -/
structure Append where
  operationId : Text
  issuedAt : Seconds
  host : Text
  kind : Text
  markdown : Text
  requestIds : List Text
  attemptIds : List Text
  issueIds : List Text
  prIds : List Text
  channel : Text
  correctionOf : Option Nat
  deriving DecidableEq

/-- `LogEntry`. -/
structure LogEntry where
  schemaVersion : Nat
  id : Text
  sequence : Nat
  projectId : Text
  sessionId : Text
  createdAt : Seconds
  update : Append
  deriving DecidableEq

/-- `Retention`. -/
structure Retention where
  maxAgeSeconds : Nat
  maxEntries : Nat
  maxBytes : Nat
  replayHorizonSeconds : Nat

/-- `Error`, without the errors of files, of the database and of the decoder. -/
inductive Error
  | canonical
  | invalid (message : Text)
  | conflict
  | expired
  | future
  deriving DecidableEq

/-- `ENTRY_LIMIT`. -/
def entryLimit : Nat := 16 * 1024

/-- `FUTURE_SKEW_SECONDS`. -/
def futureSkewSeconds : Int := 300

/-! ### The JSON text of an update and of an entry -/

/-- A byte inside a JSON string. -/
def escapeByte (b : UInt8) : Text :=
  if b = 34 then text "\\\""
  else if b = 92 then text "\\\\"
  else if b = 8 then text "\\b"
  else if b = 12 then text "\\f"
  else if b = 10 then text "\\n"
  else if b = 13 then text "\\r"
  else if b = 9 then text "\\t"
  else if b < 16 then text "\\u000" ++ [if b < 10 then 48 + b else 87 + b]
  else if b < 32 then text "\\u001" ++ [if b < 26 then 32 + b else 71 + b]
  else [b]

/-- A JSON string. -/
def quoted (t : Text) : Text := 34 :: (t.flatMap escapeByte ++ [34])

/-- A JSON integer. -/
def integer (n : Int) : Text := if n < 0 then 45 :: decimal n.natAbs else decimal n.natAbs

/-- Texts with commas between them. -/
def separated (parts : List Text) : Text := (parts.intersperse [44]).flatten

/-- A JSON array of strings. -/
def array (items : List Text) : Text := 91 :: (separated (items.map quoted) ++ [93])

/-- A member of a JSON object. -/
def member (name : String) (value : Text) : Text := quoted (text name) ++ 58 :: value

/-- A JSON object. -/
def object (members : List Text) : Text := 123 :: (separated members ++ [125])

/-- The members of an update. -/
def Append.members (input : Append) : List Text :=
  [member "operation_id" (quoted input.operationId),
    member "issued_at" (integer input.issuedAt),
    member "host" (quoted input.host),
    member "kind" (quoted input.kind),
    member "markdown" (quoted input.markdown),
    member "request_ids" (array input.requestIds),
    member "attempt_ids" (array input.attemptIds),
    member "issue_ids" (array input.issueIds),
    member "pr_ids" (array input.prIds),
    member "channel" (quoted input.channel),
    member "correction_of" (match input.correctionOf with
      | some sequence => decimal sequence
      | none => text "null")]

/-- The members of an entry before those of its update. -/
def LogEntry.header (entry : LogEntry) : List Text :=
  [member "schema_version" (decimal entry.schemaVersion),
    member "id" (quoted entry.id),
    member "sequence" (decimal entry.sequence),
    member "project_id" (quoted entry.projectId),
    member "session_id" (quoted entry.sessionId),
    member "created_at" (integer entry.createdAt)]

/-- The stored text of an entry, the members of its update among its own. -/
def LogEntry.payload (entry : LogEntry) : Text := object (entry.header ++ entry.update.members)

/-! ### The database -/

/-- What the digest of an update is over. -/
structure Payload where
  issuedAt : Seconds
  kind : Text
  markdown : Text
  requestIds : List Text
  attemptIds : List Text
  issueIds : List Text
  prIds : List Text
  channel : Text
  correctionOf : Option Nat
  deriving DecidableEq

/-- The payload of an update: all but its operation and its host. -/
def Append.digested (input : Append) : Payload where
  issuedAt := input.issuedAt
  kind := input.kind
  markdown := input.markdown
  requestIds := input.requestIds
  attemptIds := input.attemptIds
  issueIds := input.issueIds
  prIds := input.prIds
  channel := input.channel
  correctionOf := input.correctionOf

/-- A row of `entries`. -/
structure Row where
  sequence : Nat
  createdAt : Seconds
  bytes : Nat
  payload : LogEntry

/-- A row of `receipts`, with digests of a given type. -/
structure Receipt (D : Type) where
  operationId : Text
  issuedAt : Seconds
  digest : D
  sequence : Nat
  createdAt : Seconds
  host : Text

/-- The tables, with the row of `meta`. A receipt remembers the digest of a call, so that it can
be answered again after its entry is gone. -/
structure Log (D : Type) where
  totalAppended : Nat
  totalPruned : Nat
  expiryCutoff : Int
  entries : List Row
  receipts : List (Receipt D)

/-- The log of a new database. -/
def Log.empty {D : Type} : Log D := ⟨0, 0, -2 ^ 63, [], []⟩

/-- `cutoff`. -/
def cutoff (now : Seconds) (seconds : Nat) : Int :=
  max (-2 ^ 63) (now - (min seconds (2 ^ 63 - 1) : Nat))

/-- `check_retention`. -/
def checkRetention (retention : Retention) : Except Error Unit :=
  if retention.maxEntries = 0 ∨ retention.maxBytes < entryLimit * 2 ∨
      retention.maxAgeSeconds = 0 ∨ retention.replayHorizonSeconds = 0 ∨
      2 ^ 63 - 1 < retention.maxEntries ∨ 2 ^ 63 - 1 < retention.maxBytes then
    .error (.invalid (text "invalid chair log retention"))
  else .ok ()

section Retention

variable (retention : Retention) (now : Seconds) (entries : List Row)

/-- The row is not too old. -/
def eligible (row : Row) : Bool := cutoff now retention.maxAgeSeconds ≤ row.createdAt

/-- `row_number() OVER (ORDER BY sequence DESC)`. -/
def position (rows : List Row) (row : Row) : Nat := rows.countP fun r => row.sequence ≤ r.sequence

/-- `sum(bytes) OVER (ORDER BY sequence DESC ROWS UNBOUNDED PRECEDING)`. -/
def used (rows : List Row) (row : Row) : Nat :=
  ((rows.filter fun r => row.sequence ≤ r.sequence).map (·.bytes)).sum

/-- The newest rows that are not too old and fit the limits on their number and size. -/
def kept : List Row :=
  let ranked := entries.filter (eligible retention now)
  ranked.filter fun row =>
    position ranked row ≤ retention.maxEntries && used ranked row ≤ retention.maxBytes

/-- `retention_view`: the first number that is kept, and how many rows are not. -/
def retentionView : Option Nat × Nat :=
  (((kept retention now entries).map (·.sequence)).min?,
    entries.length - (kept retention now entries).length)

/-- The rows `prune` deletes. -/
def deleted (first : Option Nat) (row : Row) : Bool :=
  row.createdAt < cutoff now retention.maxAgeSeconds ||
    match first with
    | none => true
    | some sequence => row.sequence < sequence

end Retention

/-- `prune`: the log and the number of rows removed. -/
def prune {D : Type} (log : Log D) (retention : Retention) (now : Seconds) : Log D × Nat :=
  let floor := max log.expiryCutoff (cutoff now retention.replayHorizonSeconds)
  let first := (retentionView retention now log.entries).1
  let removed := log.entries.countP (deleted retention now first)
  ({ log with
      expiryCutoff := floor
      receipts := log.receipts.filter fun receipt => floor ≤ receipt.issuedAt
      entries := log.entries.filter fun row => !deleted retention now first row
      totalPruned := log.totalPruned + removed }, removed)

/-- `gc`: the log and the count it returns. -/
def gc {D : Type} (log : Log D) (retention : Retention) (now : Seconds) (dryRun : Bool) :
    Except Error (Log D × Nat) := do
  checkRetention retention
  if dryRun then .ok (log, (retentionView retention now log.entries).2)
  else .ok (prune log retention now)

/-! ### Appends -/

/-- What the log takes from elsewhere. -/
structure Outside (D : Type) where
  /-- The digest of a payload, unless it has no canonical form. -/
  digest : Payload → Option D
  /-- The text is empty when its ends are trimmed. -/
  blank : Text → Bool

section Append

variable {D : Type} [DecidableEq D] (store : LogStore) (outside : Outside D)

/-- The checks of `append` that do not read the database. -/
def checkInput (input : Append) (retention : Retention) (now : Seconds) : Except Error Unit := do
  if entryLimit < (object input.members).length ∨ outside.blank input.markdown ∨
      input.host = [] ∨ input.kind = [] ∨ input.channel = [] then
    .error (.invalid (text
      "chair log update must contain host, kind, channel and markdown, and fit in 16 KiB"))
  else do
    checkRetention retention
    if min (2 ^ 63 - 1) (now + futureSkewSeconds) < input.issuedAt then .error .future
    else if (input.issuedAt : Int) < cutoff now retention.replayHorizonSeconds then .error .expired
    else .ok ()

/-- The entry with a number. -/
def entryOf (sequence : Nat) (createdAt : Seconds) (update : Append) : LogEntry where
  schemaVersion := 1
  id := store.session.1 ++ 45 :: decimal sequence
  sequence := sequence
  projectId := store.project
  sessionId := store.session
  createdAt := createdAt
  update := update

/-- An append whose operation has a receipt: the entry it got, rebuilt if it was pruned. -/
def replay (log : Log D) (receipt : Receipt D) (input : Append) : Except Error LogEntry :=
  match Keyed.find (·.sequence) receipt.sequence log.entries with
  | some row =>
    if row.payload.sequence ≠ receipt.sequence then
      .error (.invalid (text "chair log entry sequence mismatch"))
    else .ok row.payload
  | none =>
    .ok (entryOf store receipt.sequence receipt.createdAt { input with host := receipt.host })

/-- The log with a new entry and its receipt. -/
def Log.add (log : Log D) (digest : D) (entry : LogEntry) : Log D :=
  { log with
    totalAppended := entry.sequence
    entries := log.entries ++ [⟨entry.sequence, entry.createdAt, entry.payload.length, entry⟩]
    receipts := log.receipts ++ [⟨entry.update.operationId, entry.update.issuedAt, digest,
      entry.sequence, entry.createdAt, entry.update.host⟩] }

/-- An append whose operation has no receipt. -/
def appendNew (log : Log D) (digest : D) (input : Append) (retention : Retention) (now : Seconds) :
    Except Error (Log D × LogEntry) :=
  let sequence := log.totalAppended + 1
  if 2 ^ 63 ≤ sequence then .error (.invalid (text "chair log sequence exhausted"))
  else if input.correctionOf.any fun id => id = 0 || sequence ≤ id then
    .error (.invalid (text "correction must refer to an earlier entry"))
  else
    let entry := entryOf store sequence now input
    .ok ((prune (log.add digest entry) retention now).1, entry)

/-- The receipt of an operation. -/
def Log.receipt? (log : Log D) (operationId : Text) : Option (Receipt D) :=
  Keyed.find (·.operationId) operationId log.receipts

/-- The part of `append` that reads and writes the database. -/
def record (log : Log D) (digest : D) (input : Append) (retention : Retention) (now : Seconds) :
    Except Error (Log D × LogEntry) :=
  if (input.issuedAt : Int) < log.expiryCutoff then .error .expired
  else
    match log.receipt? input.operationId with
    | some receipt =>
      if receipt.digest ≠ digest then .error .conflict
      else (replay store log receipt input).map fun entry => (log, entry)
    | none => appendNew store log digest input retention now

/-- `append`. -/
def append (log : Log D) (input : Append) (retention : Retention) (now : Seconds) :
    Except Error (Log D × LogEntry) := do
  checkInput outside input retention now
  match outside.digest input.digested with
  | none => .error .canonical
  | some digest => record store log digest input retention now

end Append

/-! ### Pruning -/

section Pruning

variable {retention : Retention} {now : Seconds} {entries rows : List Row} {row other : Row}

lemma position_mono (newer : other.sequence ≤ row.sequence) :
    position rows row ≤ position rows other := by
  refine countP_mono_left fun r _ above => ?_
  simp only [decide_eq_true_eq] at above ⊢
  omega

/-- The rows down to a newer row take no more space. -/
lemma used_mono (newer : other.sequence ≤ row.sequence) : used rows row ≤ used rows other := by
  refine List.Sublist.sum_le_sum (List.Sublist.map _ (monotone_filter_right rows ?_)) ?_
  · intro r above
    simp only [decide_eq_true_eq] at above ⊢
    omega
  · intro _ _
    exact Nat.zero_le _

lemma mem_kept : row ∈ kept retention now entries ↔ row ∈ entries ∧ eligible retention now row ∧
    position (entries.filter (eligible retention now)) row ≤ retention.maxEntries ∧
    used (entries.filter (eligible retention now)) row ≤ retention.maxBytes := by
  simp only [kept, mem_filter, Bool.and_eq_true, decide_eq_true_eq]
  tauto

/-- A row that is neither too old nor older than a kept one is kept. -/
lemma mem_kept_of_newer (mem : row ∈ entries) (young : eligible retention now row = true)
    (held : other ∈ kept retention now entries) (newer : other.sequence ≤ row.sequence) :
    row ∈ kept retention now entries := by
  obtain ⟨-, -, place, space⟩ := mem_kept.1 held
  exact mem_kept.2 ⟨mem, young, (position_mono newer).trans place, (used_mono newer).trans space⟩

/-- **The rows that pruning leaves are those that the limits keep.**

**Proof sketch.** A row that is not deleted is at least as new as the oldest kept row, so its
position and the space down to it are no larger; a kept row is not older than the oldest one. -/
theorem mem_surviving (mem : row ∈ entries) :
    deleted retention now (retentionView retention now entries).1 row = false ↔
      row ∈ kept retention now entries := by
  have first : (retentionView retention now entries).1 =
    ((kept retention now entries).map (·.sequence)).min? := rfl
  constructor
  · intro survives
    simp only [deleted, Bool.or_eq_false_iff, decide_eq_false_iff_not, not_lt] at survives
    obtain ⟨young, survives⟩ := survives
    cases oldest : (retentionView retention now entries).1 with
    | none => simp [oldest] at survives
    | some _ =>
      simp only [oldest, decide_eq_false_iff_not, not_lt] at survives
      obtain ⟨k, held, rfl⟩ := mem_map.1 (min?_mem oldest)
      exact mem_kept_of_newer mem (by simpa [eligible] using young) held survives
  · intro held
    have young := (mem_kept.1 held).2.1
    simp only [eligible, decide_eq_true_eq] at young
    have inside : row.sequence ∈ (kept retention now entries).map (·.sequence) :=
      mem_map_of_mem held
    cases oldest : ((kept retention now entries).map (·.sequence)).min? with
    | none =>
      rw [min?_eq_none_iff.1 oldest] at inside
      cases inside
    | some _ =>
      have least := (le_min?_iff oldest).1 (Nat.le_refl _) _ inside
      simp only [deleted, first, oldest, Bool.or_eq_false_iff, decide_eq_false_iff_not, not_lt]
      exact ⟨young, least⟩

variable {D : Type}

/-- The table after pruning. -/
lemma entries_prune (log : Log D) :
    (prune log retention now).1.entries = kept retention now log.entries := by
  change (log.entries.filter fun row =>
    !deleted retention now (retentionView retention now log.entries).1 row) = _
  rw [kept, filter_filter]
  refine filter_congr fun row mem => ?_
  rw [Bool.eq_iff_iff, Bool.not_eq_true', mem_surviving mem, mem_kept]
  simp only [Bool.and_eq_true, decide_eq_true_eq]
  tauto

/-- The number of rows that pruning removes. -/
lemma removed_prune (log : Log D) :
    (prune log retention now).2 = log.entries.length - (kept retention now log.entries).length := by
  let gone := deleted retention now (retentionView retention now log.entries).1
  have whole : log.entries.length =
      log.entries.countP gone + log.entries.countP (fun row => !gone row) := by
    rw [length_eq_countP_add_countP gone]
    simp
  have rest : log.entries.countP (fun row => !gone row) =
      (kept retention now log.entries).length := by
    rw [countP_eq_length_filter, ← entries_prune]
    rfl
  change log.entries.countP gone = _
  omega

/-- The limits keep what they kept before. -/
lemma kept_kept : kept retention now (kept retention now entries) = kept retention now entries := by
  have young : (kept retention now entries).filter (eligible retention now) =
      kept retention now entries := filter_eq_self.2 fun row held => (mem_kept.1 held).2.1
  have part : (kept retention now entries).Sublist (entries.filter (eligible retention now)) :=
    filter_sublist
  conv_lhs => rw [kept, young]
  refine filter_eq_self.2 fun row held => ?_
  obtain ⟨-, -, place, space⟩ := mem_kept.1 held
  simp only [Bool.and_eq_true, decide_eq_true_eq]
  refine ⟨part.countP_le.trans place, LE.le.trans ?_ space⟩
  exact ((part.filter _).map _).sum_le_sum fun _ _ => Nat.zero_le _

/-- **Pruning again removes nothing**: at the same time and under the same limits it leaves the
entries, the receipts and the totals as they are. -/
theorem prune_prune (log : Log D) :
    prune (prune log retention now).1 retention now = ((prune log retention now).1, 0) := by
  have none : (prune (prune log retention now).1 retention now).2 = 0 := by
    rw [removed_prune, entries_prune, kept_kept, Nat.sub_self]
  have same : (prune (prune log retention now).1 retention now).1.entries =
      (prune log retention now).1.entries := by
    rw [entries_prune, entries_prune, kept_kept]
  refine Prod.ext ?_ none
  simp only [prune] at same none ⊢
  simp [none, same]

lemma length_kept_le : (kept retention now entries).length ≤ entries.length := by
  refine (length_filter_le _ _).trans ?_
  exact length_filter_le _ _

/-- **A dry run counts what a collection removes.** -/
lemma gc_dryRun {log same : Log D} {count : Nat}
    (dry : gc log retention now true = .ok (same, count)) :
    same = log ∧ ∃ next, gc log retention now false = .ok (next, count) ∧
      next.entries.length + count = log.entries.length := by
  obtain ⟨⟨⟩, valid, h⟩ := bind_eq_ok.1 dry
  cases h
  refine ⟨rfl, (prune log retention now).1, ?_, ?_⟩
  · rw [gc, valid, ok_bind, if_neg Bool.false_ne_true]
    congr 1
    rw [Prod.ext_iff]
    exact ⟨rfl, removed_prune log⟩
  · rw [entries_prune]
    have fewer := @length_kept_le retention now log.entries
    simp only [retentionView]
    omega

end Pruning

/-! ### The size of an entry -/

variable {sequence : Nat} {input : Append}

section Size

lemma length_escapeByte_le (b : UInt8) : (escapeByte b).length ≤ 6 := by
  have one : ∀ t : Text, ∀ c : UInt8, t.length = 5 → (t ++ [c]).length ≤ 6 := by
    intro t c five
    simp [five]
  have branch : ∀ (p : Prop) [Decidable p] (t e : Text), t.length ≤ 6 → e.length ≤ 6 →
      (if p then t else e).length ≤ 6 := by
    intro p _ t e short rest
    split
    · exact short
    · exact rest
  iterate 7 refine branch _ _ _ (by decide) ?_
  refine branch _ _ _ (one _ _ (by decide)) ?_
  refine branch _ _ _ (one _ _ (by decide)) ?_
  simp

lemma length_quoted_le (t : Text) : (quoted t).length ≤ 6 * t.length + 2 := by
  have inner : (t.flatMap escapeByte).length ≤ 6 * t.length := by
    induction t with
    | nil => exact Nat.le_refl _
    | cons b =>
      have head := length_escapeByte_le b
      simp only [flatMap_cons, length_append, length_cons]
      omega
  simp only [quoted, length_cons, length_append, length_nil]
  omega

lemma length_decimal_le {n : Nat} (small : n < 2 ^ 64) : (decimal n).length ≤ 20 := by
  unfold decimal
  split
  · decide
  · rw [length_reverse, length_map]
    exact (Nat.digits_length_le_iff (by decide) n).2 (by omega)

lemma length_integer_le (t : Seconds) : (integer t).length ≤ 21 := by
  obtain ⟨t, _, _⟩ := t
  have digits : (decimal t.natAbs).length ≤ 20 := length_decimal_le (by omega)
  unfold integer
  split <;> simp only [length_cons] <;> omega

lemma length_separated_cons_le (part : Text) (rest : List Text) :
    (separated (part :: rest)).length ≤ part.length + 1 + (separated rest).length := by
  cases rest with
  | nil => simp [separated]
  | cons =>
    simp only [separated, intersperse_cons_cons, flatten_cons, length_append,
      length_cons, length_nil]
    omega

lemma length_member (name : String) (value : Text) :
    (member name value).length = (quoted (text name)).length + 1 + value.length := by
  simp only [member, length_append, length_cons]
  omega

lemma length_separated_append_le (parts rest : List Text) :
    (separated (parts ++ rest)).length ≤
      (parts.map (·.length)).sum + parts.length + (separated rest).length := by
  induction parts with
  | nil => simp
  | cons part parts =>
    have step := length_separated_cons_le part (parts ++ rest)
    simp only [cons_append, map_cons, sum_cons, length_cons]
    omega

lemma length_session_le (store : LogStore) : store.session.1.length ≤ 128 := by
  have valid := store.session.2
  simp only [isSessionId, Bool.and_eq_true, decide_eq_true_eq] at valid
  exact valid.1.1.1.2

lemma length_project (store : LogStore) : store.project.1.length = 32 := by
  have valid := store.project.2
  simp only [isProjectId, Bool.and_eq_true, decide_eq_true_eq] at valid
  exact valid.1

/-- The members before those of the update are short. -/
lemma length_header_le (store : LogStore) (now : Seconds) (input : Append)
    (small : sequence < 2 ^ 63) :
    (((entryOf store sequence now input).header).map (·.length)).sum ≤ 3000 := by
  have session := length_session_le store
  have project := length_project store
  have number : (decimal sequence).length ≤ 20 := length_decimal_le (by omega)
  have version : (decimal 1).length ≤ 20 := length_decimal_le (by decide)
  have time := length_integer_le now
  have idQuoted := length_quoted_le (store.session.1 ++ 45 :: decimal sequence)
  have projectQuoted := length_quoted_le store.project
  have sessionQuoted := length_quoted_le store.session
  have names : (quoted (text "schema_version")).length = 16 ∧ (quoted (text "id")).length = 4 ∧
      (quoted (text "sequence")).length = 10 ∧ (quoted (text "project_id")).length = 12 ∧
      (quoted (text "session_id")).length = 12 ∧ (quoted (text "created_at")).length = 12 := by
    decide +kernel
  simp only [length_append, length_cons] at idQuoted
  simp only [LogEntry.header, entryOf, map_cons, map_nil, sum_cons, sum_nil, length_member]
  omega

/-- **An entry whose update fits its limit fits twice that limit.**

**Proof sketch.** The members of the update take as much space as in the update itself. The members
before them are short: the identifiers are bounded, and numbers have at most twenty digits. -/
lemma payload_fits (store : LogStore) {now : Seconds} (small : sequence < 2 ^ 63)
    (fits : (object input.members).length ≤ entryLimit) :
    (entryOf store sequence now input).payload.length ≤ entryLimit * 2 := by
  have header := length_header_le store now input small
  have parts := length_separated_append_le (entryOf store sequence now input).header input.members
  have six : (entryOf store sequence now input).header.length = 6 := rfl
  simp only [object, length_cons, length_append, length_nil, entryLimit] at fits ⊢
  simp only [LogEntry.payload, object, length_cons, length_append, length_nil]
  change (separated ((entryOf store sequence now input).header ++ input.members)).length + _ + _ ≤ _
  omega

end Size

/-! ### The log over a sequence of calls -/

/-- A call. -/
inductive Call
  | append (input : Append) (retention : Retention) (now : Seconds)
  | gc (retention : Retention) (now : Seconds) (dryRun : Bool)

/-- What a call returns. An accepted append says whether its operation had no receipt yet. -/
inductive Output
  | appended (input : Append) (new : Bool) (entry : LogEntry)
  | collected (count : Nat)
  | refused (error : Error)

section Runs

variable {D : Type} [DecidableEq D] (store : LogStore) (outside : Outside D)

/-- One call: a refused one leaves the log as it is. -/
def step (log : Log D) : Call → Log D × Output
  | .append input retention now =>
    match append store outside log input retention now with
    | .ok (next, entry) => (next, .appended input (log.receipt? input.operationId).isNone entry)
    | .error error => (log, .refused error)
  | .gc retention now dryRun =>
    match gc log retention now dryRun with
    | .ok (next, count) => (next, .collected count)
    | .error error => (log, .refused error)

/-- The log after a sequence of calls on a new database. -/
def logAfter (calls : List Call) : Log D := Machine.after (step store outside) .empty calls

/-- The accepted appends of a sequence of calls, with the entries they returned. -/
def acceptedAppends (calls : List Call) : List (Append × LogEntry) :=
  (Machine.outputs (step store outside) .empty calls).filterMap fun
    | .appended input _ entry => some (input, entry)
    | _ => none

/-- The numbers of the new entries of a sequence of calls. -/
def newNumbers (calls : List Call) : List Nat :=
  (Machine.outputs (step store outside) .empty calls).filterMap fun
    | .appended _ true entry => some entry.sequence
    | _ => none

/-- **The rules of the log**, for a sequence of calls. -/
structure LogRules (calls : List Call) : Prop where
  /-- Accepted appends of one operation, issued at one time, return one number. -/
  same_number : ∀ a ∈ acceptedAppends store outside calls,
    ∀ b ∈ acceptedAppends store outside calls,
      a.1.operationId = b.1.operationId → a.1.issuedAt = b.1.issuedAt → a.2.sequence = b.2.sequence
  /-- New entries are numbered from 1, without gaps. -/
  consecutive : newNumbers store outside calls =
    List.range' 1 (newNumbers store outside calls).length
  /-- A new entry is in the log its append leaves. -/
  own_entry : ∀ before later input retention now next entry,
    calls = before ++ .append input retention now :: later →
      append store outside (logAfter store outside before) input retention now = .ok (next, entry) →
      ((logAfter store outside before).receipt? input.operationId).isNone = true →
      ∃ row ∈ next.entries, row.sequence = entry.sequence ∧ row.payload = entry
  /-- Every entry is stored or was pruned. -/
  accounted : (logAfter store outside calls).totalAppended =
    (logAfter store outside calls).totalPruned + (logAfter store outside calls).entries.length
  /-- A dry run counts what a collection at that time removes. -/
  dry_run : ∀ retention now same count,
    gc (logAfter store outside calls) retention now true = .ok (same, count) →
      same = logAfter store outside calls ∧
      ∃ next, gc (logAfter store outside calls) retention now false = .ok (next, count) ∧
        next.entries.length + count = (logAfter store outside calls).entries.length

end Runs

/-! ### What a call does -/

section Calls

variable {D : Type} {store : LogStore} {outside : Outside D} {log next : Log D} {entry : LogEntry}
  {retention : Retention} {now : Seconds} {digest : D}

/-- An accepted append whose operation has no receipt. -/
structure Added (store : LogStore) (log : Log D) (digest : D) (input : Append)
    (retention : Retention) (now : Seconds) (next : Log D) (entry : LogEntry) : Prop where
  unknown : log.receipt? input.operationId = none
  number : log.totalAppended + 1 < 2 ^ 63
  is : entry = entryOf store (log.totalAppended + 1) now input
  next : next = (prune (log.add digest entry) retention now).1

/-- An accepted append whose operation has a receipt. -/
structure Replayed (log : Log D) (digest : D) (input : Append) (next : Log D) (entry : LogEntry)
    (receipt : Receipt D) : Prop where
  known : log.receipt? input.operationId = some receipt
  digest : receipt.digest = digest
  number : entry.sequence = receipt.sequence
  next : next = log

lemma replay_sequence {receipt : Receipt D} (h : replay store log receipt input = .ok entry) :
    entry.sequence = receipt.sequence := by
  unfold replay at h
  split at h
  · split at h
    · cases h
    next same =>
      cases h
      exact not_not.1 same
  · cases h
    rfl

/-- What the checks before the database say about an accepted append. -/
structure Checked (outside : Outside D) (input : Append) (retention : Retention) (now : Seconds) :
    Prop where
  fits : (object input.members).length ≤ entryLimit
  valid : checkRetention retention = .ok ()
  recent : cutoff now retention.replayHorizonSeconds ≤ input.issuedAt

lemma checked_of_ok (h : checkInput outside input retention now = .ok ()) :
    Checked outside input retention now := by
  unfold checkInput at h
  split at h
  · cases h
  next complete =>
    obtain ⟨⟨⟩, valid, h⟩ := bind_eq_ok.1 h
    simp only [not_or, not_lt] at complete
    split at h
    · cases h
    · split at h
      · cases h
      next recent =>
        exact ⟨complete.1, valid, not_lt.1 recent⟩

/-- **An accepted append is a new entry or a replay**, of an operation that has not expired. -/
lemma append_cases [DecidableEq D] (h : append store outside log input retention now = .ok (next, entry)) :
    Checked outside input retention now ∧ log.expiryCutoff ≤ input.issuedAt ∧
      ∃ digest, outside.digest input.digested = some digest ∧
        (Added store log digest input retention now next entry ∨
          ∃ receipt, Replayed log digest input next entry receipt) := by
  obtain ⟨⟨⟩, checks, rest⟩ := bind_eq_ok.1 h
  refine ⟨checked_of_ok checks, ?_⟩
  split at rest
  · cases rest
  next digest digested =>
    unfold record at rest
    split at rest
    · cases rest
    next live =>
      refine ⟨not_lt.1 live, digest, digested, ?_⟩
      split at rest
      next receipt known =>
        split at rest
        · cases rest
        next same =>
          obtain ⟨_, ok, eq⟩ := map_eq_ok rest
          cases eq
          exact .inr ⟨receipt, known, not_not.1 same, replay_sequence ok, rfl⟩
      next unknown =>
        dsimp only [appendNew] at rest
        split at rest
        · cases rest
        next number =>
          split at rest
          · cases rest
          · cases rest
            exact .inl ⟨unknown, not_le.1 number, rfl, rfl⟩

/-! ### The invariant -/

/-- What holds of the log in every run: entries are numbered up to the total, the totals add up, and
the digest of a receipt is of a payload issued when the receipt says. -/
structure Sound (outside : Outside D) (log : Log D) : Prop where
  numbers : ∀ row ∈ log.entries, row.sequence ≤ log.totalAppended
  accounted : log.totalAppended = log.totalPruned + log.entries.length
  digests : ∀ receipt ∈ log.receipts,
    ∃ payload, outside.digest payload = some receipt.digest ∧ payload.issuedAt = receipt.issuedAt

/-- Pruning keeps the invariant. -/
lemma Sound.prune (sound : Sound outside log) : Sound outside (prune log retention now).1 where
  numbers row mem := by
    rw [entries_prune] at mem
    exact sound.numbers row (mem_kept.1 mem).1
  accounted := by
    have removed := @removed_prune retention now D log
    have fewer := @length_kept_le retention now log.entries
    have before := sound.accounted
    rw [entries_prune]
    change log.totalAppended = log.totalPruned + (ChairLog.prune log retention now).2 + _
    omega
  digests receipt mem := sound.digests receipt (mem_of_mem_filter mem)

/-- A new entry, before pruning, keeps the invariant. -/
lemma Sound.add (sound : Sound outside log) (number : entry.sequence = log.totalAppended + 1)
    (digested : outside.digest entry.update.digested = some digest) :
    Sound outside (log.add digest entry) where
  numbers row mem := by
    change row.sequence ≤ entry.sequence
    rcases mem_append.1 mem with old | new
    · have := sound.numbers row old
      omega
    · rw [mem_singleton.1 new]
  accounted := by
    have before := sound.accounted
    simp only [Log.add, length_append, length_singleton]
    omega
  digests receipt mem := by
    rcases mem_append.1 mem with old | new
    · exact sound.digests receipt old
    · rw [mem_singleton.1 new]
      exact ⟨entry.update.digested, digested, rfl⟩

lemma cutoff_le (now : Seconds) (seconds : Nat) : cutoff now seconds ≤ now := by
  simp only [cutoff]
  omega

/-- The rows down to the newest one are that one. -/
lemma filter_newest {rows : List Row} {row : Row} (young : eligible retention now row = true)
    (newest : ∀ r ∈ rows, r.sequence < row.sequence) :
    (((rows ++ [row]).filter (eligible retention now)).filter
      fun r => row.sequence ≤ r.sequence) = [row] := by
  have older : (rows.filter (eligible retention now)).filter
      (fun r => row.sequence ≤ r.sequence) = [] := by
    refine filter_eq_nil_iff.2 fun r mem => ?_
    have := newest r (mem_of_mem_filter mem)
    simp only [decide_eq_true_eq]
    omega
  rw [filter_append, filter_append, older, filter_singleton, young]
  simp

/-- The newest row is kept if the limits allow for one row of its size. -/
lemma newest_kept {rows : List Row} {row : Row} (valid : checkRetention retention = .ok ())
    (young : eligible retention now row = true) (newest : ∀ r ∈ rows, r.sequence < row.sequence)
    (fits : row.bytes ≤ entryLimit * 2) : row ∈ kept retention now (rows ++ [row]) := by
  have limits : 0 < retention.maxEntries ∧ entryLimit * 2 ≤ retention.maxBytes := by
    unfold checkRetention at valid
    split at valid
    · cases valid
    · omega
  refine mem_kept.2 ⟨mem_append_right _ (mem_singleton_self _), young, ?_, ?_⟩
  · rw [position, countP_eq_length_filter, filter_newest young newest]
    exact limits.1
  · rw [used, filter_newest young newest]
    simp only [map_cons, map_nil, sum_cons, sum_nil]
    omega

/-- **A new entry is not pruned by its own append.**

**Proof sketch.** Its number is larger than all others, so among the rows that are not too old it has
position 1 and the space down to it is its own; the limits allow for one entry of any size. -/
lemma own_entry_kept (sound : Sound outside log) (checked : Checked outside input retention now)
    (added : Added store log digest input retention now next entry) :
    ⟨entry.sequence, entry.createdAt, entry.payload.length, entry⟩ ∈ next.entries := by
  obtain ⟨-, number, rfl, rfl⟩ := added
  rw [entries_prune]
  refine newest_kept checked.valid ?_ (fun row mem => ?_) (payload_fits store number checked.fits)
  · simp only [eligible, decide_eq_true_eq]
    exact cutoff_le now retention.maxAgeSeconds
  · exact Nat.lt_succ_of_le (sound.numbers row mem)

/-! ### Receipts -/

/-- The operation of an accepted append has its receipt, or has expired. -/
def Remembered (log : Log D) (input : Append) (sequence : Nat) : Prop :=
  (input.issuedAt : Int) < log.expiryCutoff ∨
    ∃ receipt, log.receipt? input.operationId = some receipt ∧
      receipt.issuedAt = input.issuedAt ∧ receipt.sequence = sequence

/-- A receipt is dropped only when its operation expires. -/
lemma Remembered.prune (remembered : Remembered log input sequence) :
    Remembered (prune log retention now).1 input sequence := by
  have floor : log.expiryCutoff ≤ (ChairLog.prune log retention now).1.expiryCutoff :=
    le_max_left _ _
  rcases remembered with expired | ⟨receipt, known, issued, number⟩
  · exact .inl (lt_of_lt_of_le expired floor)
  · by_cases live : (ChairLog.prune log retention now).1.expiryCutoff ≤ receipt.issuedAt
    · refine .inr ⟨receipt, ?_, issued, number⟩
      exact Keyed.find_filter known (decide_eq_true live)
    · exact .inl (issued ▸ not_le.1 live)

/-- A new entry leaves what is remembered about the operations before. -/
lemma Remembered.add (remembered : Remembered log input sequence) :
    Remembered (log.add digest entry) input sequence := by
  rcases remembered with expired | ⟨receipt, known, rest⟩
  · exact .inl expired
  · refine .inr ⟨receipt, ?_, rest⟩
    rw [Log.receipt?, Log.add, Keyed.find_append]
    rw [Log.receipt?] at known
    rw [known, Option.some_or]

/-- A new entry is remembered. -/
lemma remembered_added (unknown : log.receipt? entry.update.operationId = none) :
    Remembered (log.add digest entry) entry.update entry.sequence := by
  refine .inr ⟨⟨entry.update.operationId, entry.update.issuedAt, digest, entry.sequence,
    entry.createdAt, entry.update.host⟩, ?_, rfl, rfl⟩
  rw [Log.receipt?, Log.add, Keyed.find_append]
  rw [Log.receipt?] at unknown
  rw [unknown, Option.none_or]
  simp [Keyed.find]

end Calls

/-! ### Every sequence of calls -/

section Invariant

variable {D : Type} [DecidableEq D] {store : LogStore} {outside : Outside D} {calls : List Call}

/-- The invariant of a sequence of calls. -/
structure Kept (store : LogStore) (outside : Outside D) (calls : List Call) : Prop where
  sound : Sound outside (logAfter store outside calls)
  remembered : ∀ a ∈ acceptedAppends store outside calls,
    Remembered (logAfter store outside calls) a.1 a.2.sequence
  numbered : newNumbers store outside calls =
    List.range' 1 (logAfter store outside calls).totalAppended
  single : ∀ a ∈ acceptedAppends store outside calls,
    ∀ b ∈ acceptedAppends store outside calls,
      a.1.operationId = b.1.operationId → a.1.issuedAt = b.1.issuedAt → a.2.sequence = b.2.sequence

lemma kept_nil : Kept store outside [] where
  sound := by
    exact ⟨fun _ mem => (by cases mem), rfl, fun _ mem => (by cases mem)⟩
  remembered a mem := by cases mem
  numbered := rfl
  single a mem := by cases mem

/-- A call that accepts nothing and leaves the log, or prunes it. -/
lemma Kept.quiet {call : Call} (kept : Kept store outside calls)
    (accepts : acceptedAppends store outside (calls ++ [call]) = acceptedAppends store outside calls)
    (numbers : newNumbers store outside (calls ++ [call]) = newNumbers store outside calls)
    (after : logAfter store outside (calls ++ [call]) = logAfter store outside calls ∨
      ∃ retention now, logAfter store outside (calls ++ [call]) =
        (prune (logAfter store outside calls) retention now).1) :
    Kept store outside (calls ++ [call]) := by
  have single := kept.single
  have numbered := kept.numbered
  rw [← accepts] at single
  rw [← numbers] at numbered
  rcases after with same | ⟨retention, now, pruned⟩
  · refine ⟨same ▸ kept.sound, ?_, same ▸ numbered, single⟩
    rw [accepts, same]
    exact kept.remembered
  · refine ⟨pruned ▸ kept.sound.prune, ?_, ?_, single⟩
    · rw [accepts, pruned]
      exact fun a mem => (kept.remembered a mem).prune
    · rw [numbered, pruned]
      rfl

lemma outputs_snoc (call : Call) :
    Machine.outputs (step store outside) .empty (calls ++ [call]) =
      Machine.outputs (step store outside) .empty calls ++
        [(step store outside (logAfter store outside calls) call).2] := by
  rw [Machine.outputs_append]
  rfl

lemma logAfter_snoc (call : Call) : logAfter store outside (calls ++ [call]) =
    (step store outside (logAfter store outside calls) call).1 := by
  rw [logAfter, Machine.after_append]
  rfl

/-- Two accepted appends of one operation: the later one finds the receipt of the earlier. -/
lemma Kept.same_number {retention : Retention} {now : Seconds} {next : Log D} {entry : LogEntry}
    (kept : Kept store outside calls)
    (accepts : append store outside (logAfter store outside calls) input retention now =
      .ok (next, entry)) {a : Append × LogEntry} (mem : a ∈ acceptedAppends store outside calls)
    (operation : a.1.operationId = input.operationId) (issued : a.1.issuedAt = input.issuedAt) :
    a.2.sequence = entry.sequence := by
  obtain ⟨-, live, _, -, outcome⟩ := append_cases accepts
  rcases kept.remembered a mem with expired | ⟨receipt, known, -, number⟩
  · rw [issued] at expired
    exact absurd live (not_le.2 expired)
  · rw [operation] at known
    rcases outcome with added | ⟨receipt', replayed⟩
    · rw [added.unknown] at known
      cases known
    · rw [replayed.known] at known
      cases known
      rw [← number, replayed.number]

/-- **An accepted append is remembered**, given that equal digests come from equal payloads. -/
lemma remembered_append {log next : Log D} {retention : Retention} {now : Seconds}
    {entry : LogEntry} (sound : Sound outside log)
    (unique : ∀ p q d, outside.digest p = some d → outside.digest q = some d → p = q)
    (accepts : append store outside log input retention now = .ok (next, entry)) :
    Remembered next input entry.sequence := by
  obtain ⟨-, -, digest, digested, added | ⟨receipt, replayed⟩⟩ := append_cases accepts
  · obtain ⟨unknown, -, rfl, rfl⟩ := added
    exact (@remembered_added D log (entryOf store (log.totalAppended + 1) now input) digest
      unknown).prune
  · obtain ⟨known, rfl, number, rfl⟩ := replayed
    obtain ⟨payload, same, issued⟩ := sound.digests receipt (Keyed.mem_of_find known)
    refine .inr ⟨receipt, known, ?_, number.symm⟩
    rw [← issued, unique payload input.digested _ same digested]
    rfl

section Accepted

variable {retention : Retention} {now : Seconds} {next : Log D} {entry : LogEntry}
  (accepts : append store outside (logAfter store outside calls) input retention now = .ok (next, entry))

include accepts

lemma step_accepts :
    step store outside (logAfter store outside calls) (.append input retention now) =
      (next, .appended input
        ((logAfter store outside calls).receipt? input.operationId).isNone entry) := by
  rw [step, accepts]

lemma acceptedAppends_snoc :
    acceptedAppends store outside (calls ++ [.append input retention now]) =
      acceptedAppends store outside calls ++ [(input, entry)] := by
  rw [acceptedAppends, outputs_snoc, step_accepts accepts, filterMap_append]
  rfl

lemma newNumbers_snoc :
    newNumbers store outside (calls ++ [.append input retention now]) =
      newNumbers store outside calls ++
        if ((logAfter store outside calls).receipt? input.operationId).isNone then [entry.sequence]
        else [] := by
  rw [newNumbers, outputs_snoc, step_accepts accepts, filterMap_append]
  cases ((logAfter store outside calls).receipt? input.operationId).isNone <;> rfl

/-- An accepted append leaves what is remembered, and numbers a new entry after the total. -/
lemma Kept.log_of_append (kept : Kept store outside calls) :
    Sound outside next ∧
      (∀ a ∈ acceptedAppends store outside calls, Remembered next a.1 a.2.sequence) ∧
      newNumbers store outside (calls ++ [.append input retention now]) =
        List.range' 1 next.totalAppended := by
  rw [newNumbers_snoc accepts, kept.numbered]
  obtain ⟨-, -, digest, digested, added | ⟨receipt, replayed⟩⟩ := append_cases accepts
  · obtain ⟨unknown, _, rfl, rfl⟩ := added
    refine ⟨(kept.sound.add rfl digested).prune, fun a mem => ?_, ?_⟩
    · exact (kept.remembered a mem).add.prune
    · rw [unknown, Option.isNone_none, if_pos rfl]
      change _ ++ [(logAfter store outside calls).totalAppended + 1] =
        List.range' 1 ((logAfter store outside calls).totalAppended + 1)
      rw [range'_1_concat, Nat.add_comm 1]
  · obtain ⟨known, -, -, rfl⟩ := replayed
    refine ⟨kept.sound, kept.remembered, ?_⟩
    rw [known, Option.isNone_some, if_neg Bool.false_ne_true, append_nil]

/-- An accepted append keeps the invariant. -/
lemma Kept.accept (kept : Kept store outside calls)
    (unique : ∀ p q d, outside.digest p = some d → outside.digest q = some d → p = q) :
    Kept store outside (calls ++ [.append input retention now]) := by
  have after : logAfter store outside (calls ++ [.append input retention now]) = next := by
    rw [logAfter_snoc, step_accepts accepts]
  obtain ⟨sound, remembered, numbered⟩ := kept.log_of_append accepts
  have appends := acceptedAppends_snoc accepts
  refine ⟨after ▸ sound, ?_, after ▸ numbered, ?_⟩
  · rw [appends, after]
    intro a mem
    rcases mem_append.1 mem with old | new
    · exact remembered a old
    · rw [mem_singleton.1 new]
      exact remembered_append kept.sound unique accepts
  · rw [appends]
    intro a ha b hb operation issued
    rcases mem_append.1 ha with oldA | newA <;> rcases mem_append.1 hb with oldB | newB
    · exact kept.single a oldA b oldB operation issued
    · rw [mem_singleton.1 newB] at operation issued ⊢
      exact kept.same_number accepts oldA operation issued
    · rw [mem_singleton.1 newA] at operation issued ⊢
      exact (kept.same_number accepts oldB operation.symm issued.symm).symm
    · rw [mem_singleton.1 newA, mem_singleton.1 newB]

end Accepted

/-- A call that is refused, or a collection. -/
lemma Kept.gc (kept : Kept store outside calls) (retention : Retention) (now : Seconds)
    (dryRun : Bool) : Kept store outside (calls ++ [.gc retention now dryRun]) := by
  have outputs := @outputs_snoc D _ store outside calls (.gc retention now dryRun)
  have after := @logAfter_snoc D _ store outside calls (.gc retention now dryRun)
  simp only [step] at outputs after
  refine kept.quiet ?_ ?_ ?_
  · rw [acceptedAppends, outputs, filterMap_append]
    split <;> exact append_nil _
  · rw [newNumbers, outputs, filterMap_append]
    split <;> exact append_nil _
  · split at after
    next next count collects =>
      obtain ⟨⟨⟩, -, h⟩ := bind_eq_ok.1 collects
      split at h
      · cases h
        exact .inl after
      · obtain rfl : _ = next := congrArg Prod.fst (Except.ok.inj h)
        exact .inr ⟨retention, now, after⟩
    · exact .inl after

/-- **Every call keeps the invariant.** -/
theorem Kept.snoc (kept : Kept store outside calls)
    (unique : ∀ p q d, outside.digest p = some d → outside.digest q = some d → p = q)
    (call : Call) : Kept store outside (calls ++ [call]) := by
  cases call with
  | gc retention now dryRun => exact kept.gc retention now dryRun
  | append input retention now =>
    cases result : append store outside (logAfter store outside calls) input retention now with
    | ok outcome =>
      exact Kept.accept result kept unique
    | error _ =>
      have outputs := @outputs_snoc D _ store outside calls (.append input retention now)
      have after := @logAfter_snoc D _ store outside calls (.append input retention now)
      simp only [step, result] at outputs after
      refine kept.quiet ?_ ?_ (.inl after)
      · rw [acceptedAppends, outputs, filterMap_append]
        exact append_nil _
      · rw [newNumbers, outputs, filterMap_append]
        exact append_nil _

lemma kept_calls (unique : ∀ p q d, outside.digest p = some d → outside.digest q = some d → p = q)
    (calls : List Call) : Kept store outside calls := by
  induction calls using reverseRecOn with
  | nil => exact kept_nil
  | append_singleton _ call ih => exact ih.snoc unique call

end Invariant

/-- **The log over every sequence of calls**, with arbitrary clocks and retentions, given that equal
digests come from equal payloads. -/
theorem log_rules {D : Type} [DecidableEq D] (store : LogStore) (outside : Outside D)
    (unique : ∀ p q d, outside.digest p = some d → outside.digest q = some d → p = q)
    (calls : List Call) : LogRules store outside calls := by
  have kept := @kept_calls D _ store outside unique calls
  refine
    { same_number := kept.single
      consecutive := ?_
      own_entry := ?_
      accounted := kept.sound.accounted
      dry_run := fun retention now same count dry => gc_dryRun dry }
  · rw [kept.numbered, length_range']
  · intro before later input retention now next entry _ accepts new
    have sound := (@kept_calls D _ store outside unique before).sound
    obtain ⟨checked, -, digest, -, added | ⟨receipt, replayed⟩⟩ := append_cases accepts
    · exact ⟨_, own_entry_kept sound checked added, rfl, rfl⟩
    · rw [replayed.known] at new
      cases new

/-- A session of a project, for a sample run. -/
def sampleStore : LogStore where
  project := ⟨List.replicate 32 97, by decide⟩
  session := ⟨[97], by decide⟩

/-- An update issued at the epoch. -/
def sampleUpdate : Append where
  operationId := [97]
  issuedAt := ⟨0, by decide⟩
  host := [97]
  kind := [97]
  markdown := [97]
  requestIds := []
  attemptIds := []
  issueIds := []
  prIds := []
  channel := [97]
  correctionOf := none

/-- A payload is its own digest. -/
def sampleOutside : Outside Payload := ⟨some, (·.isEmpty)⟩

theorem log_rules_sample :
    LogRules sampleStore sampleOutside
      [.append sampleUpdate ⟨1, 1, 40000, 1⟩ ⟨0, by decide⟩, .gc ⟨1, 1, 40000, 1⟩ ⟨5, by decide⟩ false,
        .append sampleUpdate ⟨1, 1, 40000, 9⟩ ⟨5, by decide⟩] :=
  log_rules sampleStore sampleOutside
    (fun _ _ _ first second => Option.some.inj (first.trans second.symm)) _

end Provenant.ChairLog

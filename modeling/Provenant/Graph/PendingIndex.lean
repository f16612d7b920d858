import Mathlib.Data.Finset.Insert
import Provenant.Data.Concurrent
import Provenant.Graph.Retry

/-!
# The index of pending graphs

The journal keeps one checkpoint file per graph, and beside them an index: a marker for each graph
whose checkpoint is pending, and a sentinel that says that the index is complete. Checkpoint and
marker are separate files. Saving a checkpoint, clearing a stale marker and collecting a terminal
checkpoint hold the lock of the graph; the rebuild of the index does not. This file has the four
procedures as concurrent processes that can crash between any two file operations.

## Main definitions

* `storedPending` — a stored checkpoint that the host still has to work on.
* `Disk` — the checkpoint files, the markers, the sentinel and the locks.
* `Position`, `Acts` — the procedures, one file operation at a time.
* `Disk.unmarked` — the pending checkpoints that have no marker.

## Main results

* `pending_listed` — once the sentinel is there, every pending graph is listed.

## Implementation notes

A checkpoint that was saved can be unreadable when it is loaded, and stays so until it is replaced.
A file that is read without the lock while it is replaced may yield any result, and a directory
that changes while it is listed may or may not list the names that changed; only files that stay
in place throughout are read and listed for certain. A file has a serial number, so that a file
that was replaced is told from one that was not.
-/

namespace Provenant.Graph

open Function

open Json (Text text)

/-! ### Pending checkpoints -/

/-- A checkpoint as the journal loads it, with the document it belongs to. -/
structure StoredGraph where
  document : GraphDocument
  checkpoint : GraphCheckpoint

/-- `no_work::pending`: a stopped writer still owes its continuation. A checkpoint that was loaded
has a valid plan, whose nodes are matched with the rows. -/
def noWorkPending (document : GraphDocument) (checkpoint : GraphCheckpoint) : Bool :=
  !(checkpoint.cancelled || checkpoint.notes.pauseReason.isSome ||
      !checkpoint.nodes.any unfencedStop) &&
    match expand document checkpoint.extensions checkpoint.expansions with
    | none => true
    | some expanded => expanded.nodes.any fun node =>
        (checkpoint.row? node.id).any fun row => noWorkEligible node row checkpoint

/-- `stored_pending`: the host still has to work on the graph. -/
def storedPending (stored : StoredGraph) : Bool :=
  let checkpoint := stored.checkpoint
  noWorkPending stored.document checkpoint ||
    (checkpoint.nodes.any fun row => row.state == .pending || row.state == .running) ||
    (!checkpoint.cancelled && !checkpoint.notes.delivered &&
      stored.document.delivery == some .pr && checkpoint.successful) ||
    checkpoint.notes.asks.any fun ask => !ask.closed && (ask.resolved || checkpoint.cancelled)

/-- What else keeps a terminal checkpoint from being collected. -/
def heldBack (checkpoint : GraphCheckpoint) : Bool :=
  (checkpoint.notes.asks.any fun ask => !ask.closed) || checkpoint.notes.wakeAt.isSome ||
    checkpoint.nodes.any fun row => row.notes.land.any (·.wakeAt.isSome)

/-! ### Files -/

/-- `valid_identifier`. -/
def validIdentifier (id : Text) : Bool :=
  !id.isEmpty && id.length ≤ 64 && id.all fun byte =>
    (48 ≤ byte && byte ≤ 57) || (65 ≤ byte && byte ≤ 90) || (97 ≤ byte && byte ≤ 122) ||
      byte == 45 || byte == 95 || byte == 46

/-- The identifier of a graph that has a journal. -/
abbrev GraphId := { id : Text // validIdentifier id = true }

/-- The content of a checkpoint file. -/
inductive CheckpointFile
  | readable (stored : StoredGraph)
  /-- The file cannot be decoded; its text may still show a settled graph. -/
  | unreadable (settled : Bool)

/-- A file in place, with a serial number that changes when it is replaced. -/
structure FileEntry where
  serial : Nat
  content : CheckpointFile

/-- The stored checkpoint is pending; one that cannot be read is not. -/
def FileEntry.pending (entry : FileEntry) : Bool :=
  match entry.content with
  | .readable stored => storedPending stored
  | .unreadable _ => false

/-- What loading a checkpoint comes to. -/
inductive LoadResult
  | missing
  | stored (stored : StoredGraph)
  | unreadable (settled : Bool)
  /-- The file could not be read at all. -/
  | failed

/-- `load_checkpoint` of a file that is in place. -/
inductive Loads : Option FileEntry → LoadResult → Prop
  | missing : Loads none .missing
  | stored (serial : Nat) (stored : StoredGraph) :
      Loads (some { serial, content := .readable stored }) (.stored stored)
  | unreadable (serial : Nat) (settled : Bool) :
      Loads (some { serial, content := .unreadable settled }) (.unreadable settled)
  | failed (entry : FileEntry) : Loads (some entry) .failed

/-- What saving a checkpoint leaves in its file. -/
inductive Saves (stored : StoredGraph) : CheckpointFile → Prop
  | readable : Saves stored (.readable stored)
  | unreadable (settled : Bool) : Saves stored (.unreadable settled)

/-- The shared state of the journals of a project. -/
structure Disk where
  files : GraphId → Option FileEntry
  markers : Finset GraphId
  /-- The sentinel that the index is complete. -/
  complete : Bool
  /-- The process that holds the lock of a graph. -/
  locks : GraphId → Option Nat
  /-- The serial number of the next file. -/
  serial : Nat

namespace Disk

/-- Take the lock of a graph. -/
def lock (disk : Disk) (process : Nat) (id : GraphId) : Disk :=
  { disk with locks := Function.update disk.locks id (some process) }

/-- Give the lock of a graph back. -/
def unlock (disk : Disk) (id : GraphId) : Disk :=
  { disk with locks := Function.update disk.locks id none }

/-- Replace the checkpoint file of a graph. -/
def replace (disk : Disk) (id : GraphId) (content : CheckpointFile) : Disk :=
  { disk with
    files := Function.update disk.files id (some { serial := disk.serial, content })
    serial := disk.serial + 1 }

/-- Unlink the checkpoint file of a graph. -/
def unlink (disk : Disk) (id : GraphId) : Disk :=
  { disk with files := Function.update disk.files id none }

/-- `write_pending_marker`. -/
def mark (disk : Disk) (id : GraphId) : Disk := { disk with markers := insert id disk.markers }

/-- `remove_pending_marker`. -/
def unmark (disk : Disk) (id : GraphId) : Disk := { disk with markers := disk.markers.erase id }

/-- The locks of a process are gone when it stops. -/
def release (process : Nat) (disk : Disk) : Disk :=
  { disk with locks := fun id => if disk.locks id = some process then none else disk.locks id }

/-- `pending_graph_ids` of an index with a sentinel, which lists the markers. -/
def pendingGraphIds (disk : Disk) : Finset GraphId := disk.markers

/-- The graphs whose stored checkpoint is pending and that have no marker. -/
def unmarked (disk : Disk) : Set GraphId :=
  { id | id ∉ disk.markers ∧ (disk.files id).any (·.pending) = true }

/-- A complete index has a marker for every pending graph. -/
def Indexed (disk : Disk) : Prop := disk.complete = true → disk.unmarked = ∅

end Disk

/-! ### The procedures -/

/-- Where a process stands. -/
inductive Position
  /-- Between procedures, without a lock. -/
  | idle
  /-- The lock of a graph is held. -/
  | opened (id : GraphId)
  /-- The marker of a pending checkpoint is written, the checkpoint not yet. -/
  | marked (id : GraphId) (stored : StoredGraph)
  /-- The stored checkpoint is not pending; its marker is removed next. -/
  | unmarking (id : GraphId)
  /-- A terminal checkpoint is about to be collected. -/
  | collecting (id : GraphId)
  /-- The checkpoint is unlinked, its marker not yet. -/
  | collected (id : GraphId)
  /-- The graph is collected; its lock is retired next. -/
  | retiring (id : GraphId)
  /-- The rebuild lists the checkpoint files, which were these when it began. -/
  | listing (before : GraphId → Option FileEntry)
  /-- The rebuild has these graphs to look at. -/
  | scanning (ids : List GraphId)
  /-- The rebuild loads a checkpoint, whose file was this when it began. -/
  | loading (id : GraphId) (before : Option FileEntry) (ids : List GraphId)
  /-- The rebuild found a graph that needs a marker. -/
  | marking (id : GraphId) (ids : List GraphId)

/-- The rebuild writes a marker after this result; a graph that cannot be read and is not settled
either is left for its own tick to report. -/
def rebuildMarks : LoadResult → Bool
  | .stored stored => storedPending stored
  | .unreadable settled => !settled
  | .failed => true
  | .missing => false

/-- `clear_stale_pending` removes the marker after this result. -/
def clearsMarker : LoadResult → Bool
  | .missing => true
  | .stored stored => !storedPending stored
  | .unreadable _ | .failed => false

/-- `collect_terminal` collects the graph after this result, if it is old enough. -/
def collects : LoadResult → Bool
  | .stored stored => !storedPending stored && !heldBack stored.checkpoint
  | .missing | .unreadable _ | .failed => false

/-- One file operation of a process. Operations of other processes may come between any two of
them; a process may also stop for good after each. -/
inductive Acts (process : Nat) : Position → Disk → Position → Disk → Prop
  /-- A journal is opened under the lock of its graph. -/
  | openJournal {disk : Disk} {id : GraphId} (free : disk.locks id = none) :
      Acts process .idle disk (.opened id) (disk.lock process id)
  /-- The journal is closed. -/
  | close {disk : Disk} {id : GraphId} :
      Acts process (.opened id) disk .idle (disk.unlock id)
  /-- `save` of a pending checkpoint: the marker comes first. -/
  | savePending {disk : Disk} {id : GraphId} {stored : StoredGraph}
      (pending : storedPending stored = true) :
      Acts process (.opened id) disk (.marked id stored) (disk.mark id)
  /-- Then the checkpoint is replaced. -/
  | saveMarked {disk : Disk} {id : GraphId} {stored : StoredGraph} {content : CheckpointFile}
      (saves : Saves stored content) :
      Acts process (.marked id stored) disk (.opened id) (disk.replace id content)
  /-- `save` of a checkpoint that is not pending: the checkpoint comes first. -/
  | saveSettled {disk : Disk} {id : GraphId} {stored : StoredGraph} {content : CheckpointFile}
      (pending : storedPending stored = false) (saves : Saves stored content) :
      Acts process (.opened id) disk (.unmarking id) (disk.replace id content)
  /-- `clear_stale_pending` found that the graph is not pending. -/
  | clear {disk : Disk} {id : GraphId} {result : LoadResult} (loads : Loads (disk.files id) result)
      (clears : clearsMarker result = true) :
      Acts process (.opened id) disk (.unmarking id) disk
  /-- Then the marker is removed. -/
  | unmark {disk : Disk} {id : GraphId} :
      Acts process (.unmarking id) disk (.opened id) (disk.unmark id)
  /-- `collect_terminal` found a terminal checkpoint. -/
  | collect {disk : Disk} {id : GraphId} {result : LoadResult}
      (loads : Loads (disk.files id) result) (collects : collects result = true) :
      Acts process (.opened id) disk (.collecting id) disk
  /-- The checkpoint is unlinked first. -/
  | unlink {disk : Disk} {id : GraphId} :
      Acts process (.collecting id) disk (.collected id) (disk.unlink id)
  /-- Then its marker is removed. -/
  | unmarkCollected {disk : Disk} {id : GraphId} :
      Acts process (.collected id) disk (.retiring id) (disk.unmark id)
  /-- Last the lock is retired. -/
  | retire {disk : Disk} {id : GraphId} :
      Acts process (.retiring id) disk .idle (disk.unlock id)
  /-- `rebuild_pending_in` begins to list the checkpoint files. -/
  | list {disk : Disk} : Acts process .idle disk (.listing disk.files) disk
  /-- The listing has every file that stayed in place. -/
  | listed {disk : Disk} {before : GraphId → Option FileEntry} {ids : List GraphId}
      (stays : ∀ id entry, before id = some entry → disk.files id = some entry → id ∈ ids) :
      Acts process (.listing before) disk (.scanning ids) disk
  /-- The rebuild begins to load the next checkpoint. -/
  | load {disk : Disk} {id : GraphId} {ids : List GraphId} :
      Acts process (.scanning (id :: ids)) disk (.loading id (disk.files id) ids) disk
  /-- A checkpoint that stayed in place was loaded as it is. -/
  | loaded {disk : Disk} {id : GraphId} {before : Option FileEntry} {ids : List GraphId}
      {result : LoadResult} (loads : disk.files id = before → Loads before result) :
      Acts process (.loading id before ids) disk
        (if rebuildMarks result then .marking id ids else .scanning ids) disk
  /-- The rebuild writes a marker. -/
  | mark {disk : Disk} {id : GraphId} {ids : List GraphId} :
      Acts process (.marking id ids) disk (.scanning ids) (disk.mark id)
  /-- The rebuild is done. -/
  | publish {disk : Disk} :
      Acts process (.scanning []) disk .idle { disk with complete := true }

/-- The journals of a project as concurrent processes. -/
def journals : Concurrent.Program Nat Disk Position where
  start := .idle
  act := Acts
  halt := Disk.release

/-! ### What one operation guarantees -/

/-- What a process leaves alone: no pending checkpoint loses its marker or appears without one,
and the files and markers of a graph that another process has locked stay. -/
structure Guarantees (process : Nat) (disk disk' : Disk) : Prop where
  unmarked : ∀ id ∈ disk'.unmarked, id ∈ disk.unmarked ∧ disk'.files id = disk.files id
  locked : ∀ id other, other ≠ process → disk.locks id = some other →
    disk'.locks id = some other ∧ disk'.files id = disk.files id ∧
      (id ∈ disk.markers → id ∈ disk'.markers)

variable {file : Option FileEntry} {serial : Nat} {result : LoadResult}

section Operations

variable {process : Nat} {disk disk' : Disk} {id : GraphId}

/-- A graph that one process has locked is not locked by another. -/
lemma ne_of_locks {locks : GraphId → Option Nat} {other : Nat} {id' : GraphId}
    (own : locks id = some process) (different : other ≠ process)
    (locked : locks id' = some other) : id' ≠ id := by
  rintro rfl
  rw [own] at locked
  exact different (Option.some.inj locked).symm

lemma guarantees_refl : Guarantees process disk disk :=
  ⟨fun _ member => ⟨member, rfl⟩, fun _ _ _ locked => ⟨locked, rfl, fun marked => marked⟩⟩

lemma guarantees_lock (free : disk.locks id = none) :
    Guarantees process disk (disk.lock process id) := by
  refine ⟨fun _ member => ⟨member, rfl⟩, fun id' other _ locked => ⟨?_, rfl, fun marked => marked⟩⟩
  have different : id' ≠ id := by
    rintro rfl
    rw [free] at locked
    cases locked
  simpa [Disk.lock, update_of_ne different] using locked

lemma guarantees_unlock (own : disk.locks id = some process) :
    Guarantees process disk (disk.unlock id) := by
  refine ⟨fun _ member => ⟨member, rfl⟩, fun id' other different locked =>
    ⟨?_, rfl, fun marked => marked⟩⟩
  simpa [Disk.unlock, update_of_ne (ne_of_locks own different locked)] using locked

lemma guarantees_release : Guarantees process disk (disk.release process) := by
  refine ⟨fun _ member => ⟨member, rfl⟩, fun id' other different locked =>
    ⟨?_, rfl, fun marked => marked⟩⟩
  simpa [Disk.release, locked] using different

/-- A change of one checkpoint file under its lock, which leaves no pending checkpoint without a
marker. -/
lemma guarantees_files (own : disk.locks id = some process)
    (marked : file.any (·.pending) = true → id ∈ disk.markers) :
    Guarantees process disk
      { disk with files := Function.update disk.files id file, serial } := by
  refine ⟨fun id' member => ?_, fun id' other different locked =>
    ⟨locked, update_of_ne (ne_of_locks own different locked) _ _, fun marked => marked⟩⟩
  obtain ⟨absent, pending⟩ := member
  dsimp only at pending
  have different : id' ≠ id := by
    rintro rfl
    rw [update_self] at pending
    exact absent (marked pending)
  rw [update_of_ne different] at pending
  exact ⟨⟨absent, pending⟩, update_of_ne different _ _⟩

lemma guarantees_mark : Guarantees process disk (disk.mark id) := by
  refine ⟨fun id' member => ⟨⟨fun marked => ?_, member.2⟩, rfl⟩, fun id' other _ locked =>
    ⟨locked, rfl, Finset.mem_insert_of_mem⟩⟩
  exact member.1 (Finset.mem_insert_of_mem marked)

lemma guarantees_unmark (own : disk.locks id = some process)
    (settled : (disk.files id).any (·.pending) = false) :
    Guarantees process disk (disk.unmark id) := by
  refine ⟨fun id' member => ?_, fun id' other different locked => ⟨locked, rfl, fun marked =>
    Finset.mem_erase_of_ne_of_mem (ne_of_locks own different locked) marked⟩⟩
  obtain ⟨absent, pending⟩ := member
  have different : id' ≠ id := by
    rintro rfl
    change (disk.files id').any (·.pending) = true at pending
    rw [settled] at pending
    cases pending
  exact ⟨⟨fun marked => absent (Finset.mem_erase_of_ne_of_mem different marked), pending⟩, rfl⟩

/-- A complete index stays complete. -/
lemma Guarantees.indexed (h : Guarantees process disk disk') (same : disk'.complete = disk.complete)
    (indexed : disk.Indexed) : disk'.Indexed := by
  intro complete
  have none := indexed (same ▸ complete)
  refine Set.eq_empty_of_forall_notMem fun id member => ?_
  exact Set.notMem_empty id (none ▸ (h.unmarked id member).1)

end Operations

/-! ### What holds at each position -/

/-- The stored checkpoint of a graph is not pending. -/
def Disk.settled (disk : Disk) (id : GraphId) : Prop := (disk.files id).any (·.pending) = false

lemma settled_update {disk : Disk} {id : GraphId} (h : file.any (·.pending) = false) :
    ({ disk with files := Function.update disk.files id file, serial } : Disk).settled id := by
  unfold Disk.settled
  dsimp only
  rw [update_self]
  exact h

/-- A pending checkpoint without a marker is there. -/
lemma Disk.file_of_unmarked {disk : Disk} {id : GraphId} (h : id ∈ disk.unmarked) :
    ∃ entry, disk.files id = some entry := by
  cases file : disk.files id with
  | none =>
    have pending := h.2
    rw [file] at pending
    cases pending
  | some entry => exact ⟨entry, rfl⟩

/-- What a process knows at its position. The rebuild knows that what still lacks a marker is
ahead of it, and was in place when it began to look. -/
def Knows (process : Nat) : Position → Disk → Prop
  | .idle, _ => True
  | .opened id, disk | .retiring id, disk => disk.locks id = some process
  | .marked id _, disk => disk.locks id = some process ∧ id ∈ disk.markers
  | .unmarking id, disk | .collecting id, disk | .collected id, disk =>
    disk.locks id = some process ∧ disk.settled id
  | .listing before, disk => ∀ id ∈ disk.unmarked, before id = disk.files id
  | .scanning ids, disk => ∀ id ∈ disk.unmarked, id ∈ ids
  | .loading id before ids, disk =>
    (∀ other ∈ disk.unmarked, other ∈ id :: ids) ∧ (id ∈ disk.unmarked → before = disk.files id)
  | .marking id ids, disk => ∀ other ∈ disk.unmarked, other ∈ id :: ids

/-- What a process knows stays true under the operations of the others. -/
lemma Knows.stable {process other : Nat} {position : Position} {disk disk' : Disk}
    (different : other ≠ process) (knows : Knows other position disk)
    (h : Guarantees process disk disk') : Knows other position disk' := by
  cases position with
  | idle => trivial
  | opened id | retiring id => exact (h.locked id other different knows).1
  | marked id =>
    obtain ⟨locked, -, markers⟩ := h.locked id other different knows.1
    exact ⟨locked, markers knows.2⟩
  | unmarking id | collecting id | collected id =>
    obtain ⟨locked, files, -⟩ := h.locked id other different knows.1
    refine ⟨locked, ?_⟩
    unfold Disk.settled
    rw [files]
    exact knows.2
  | listing =>
    intro id member
    obtain ⟨before', files⟩ := h.unmarked id member
    rw [files]
    exact knows id before'
  | scanning => exact fun id member => knows id (h.unmarked id member).1
  | loading id =>
    refine ⟨fun id' member => knows.1 id' (h.unmarked id' member).1, fun member => ?_⟩
    obtain ⟨before', files⟩ := h.unmarked id member
    rw [files]
    exact knows.2 before'
  | marking => exact fun id' member => knows id' (h.unmarked id' member).1

/-- A checkpoint that was loaded and found terminal is not pending. -/
lemma Loads.settled (loads : Loads file result) (clears : clearsMarker result = true) :
    file.any (·.pending) = false := by
  cases loads with
  | missing => rfl
  | stored => simpa [clearsMarker, FileEntry.pending] using clears
  | unreadable | failed => cases clears

/-- The rebuild marks every pending checkpoint that it loads. -/
lemma Loads.rebuildMarks (loads : Loads file result) (pending : file.any (·.pending) = true) :
    rebuildMarks result = true := by
  cases loads with
  | missing | unreadable => cases pending
  | stored => exact pending
  | failed => rfl

/-- What is collected is not pending. -/
lemma clearsMarker_of_collects (h : collects result = true) : clearsMarker result = true := by
  cases result with
  | stored =>
    simp only [collects, Bool.and_eq_true] at h
    exact h.1
  | missing | unreadable | failed => cases h

/-- A saved checkpoint is pending only if it was saved as pending. -/
lemma Saves.settled {stored : StoredGraph} {content : CheckpointFile} (saves : Saves stored content)
    (settled : storedPending stored = false) : FileEntry.pending { serial, content } = false := by
  cases saves with
  | readable => exact settled
  | unreadable => rfl

/-! ### Safety of the index -/

/-- One operation keeps the index right, establishes what the process knows at its next position
and guarantees the others what they rely on.

**Proof sketch.** By cases on the operation. Markers go only where the file under the lock is known
not to be pending, and a pending file comes only where the marker is known to be there; so the set
of pending checkpoints without a marker only shrinks. The rebuild passes a graph either because it
marks it or because the file it loaded is not one of that set, so when nothing is left to scan the
set is empty and the sentinel may be written. -/
lemma Acts.correct {process : Nat} {position position' : Position} {disk disk' : Disk}
    (indexed : disk.Indexed) (knows : Knows process position disk)
    (acts : Acts process position disk position' disk') :
    disk'.Indexed ∧ Knows process position' disk' ∧ Guarantees process disk disk' := by
  -- all operations but the last leave the sentinel alone
  have keep : ∀ {disk' : Disk}, disk'.complete = disk.complete → Knows process position' disk' →
      Guarantees process disk disk' →
      disk'.Indexed ∧ Knows process position' disk' ∧ Guarantees process disk disk' :=
    fun same known guarantees => ⟨guarantees.indexed same indexed, known, guarantees⟩
  cases acts with
  | openJournal free => exact keep rfl (update_self _ _ _) (guarantees_lock free)
  | close | retire => exact keep rfl trivial (guarantees_unlock knows)
  | savePending => exact keep rfl ⟨knows, Finset.mem_insert_self _ _⟩ guarantees_mark
  | saveMarked =>
    exact keep rfl knows.1 (guarantees_files knows.1 fun _ => knows.2)
  | @saveSettled _ id stored content settled saves =>
    have unpending : (some { serial := disk.serial, content : FileEntry }).any (·.pending) = false :=
      saves.settled settled
    refine keep rfl ⟨knows, settled_update unpending⟩ (guarantees_files knows fun pending => ?_)
    rw [unpending] at pending
    cases pending
  | clear loads clears => exact keep rfl ⟨knows, loads.settled clears⟩ guarantees_refl
  | unmark | unmarkCollected => exact keep rfl knows.1 (guarantees_unmark knows.1 knows.2)
  | collect loads terminal =>
    exact keep rfl ⟨knows, loads.settled (clearsMarker_of_collects terminal)⟩ guarantees_refl
  | unlink =>
    exact keep rfl ⟨knows.1, settled_update rfl⟩
      (guarantees_files knows.1 nofun)
  | list => exact keep rfl (fun _ _ => rfl) guarantees_refl
  | listed stays =>
    refine keep rfl (fun id member => ?_) guarantees_refl
    obtain ⟨entry, file⟩ := Disk.file_of_unmarked member
    exact stays id entry ((knows id member).trans file) file
  | load => exact keep rfl ⟨knows, fun _ => rfl⟩ guarantees_refl
  | @loaded _ id before ids result loads =>
    refine keep rfl ?_ guarantees_refl
    split
    · exact knows.1
    next unmarked =>
      intro other member
      rcases List.mem_cons.1 (knows.1 other member) with rfl | ahead
      · have same := knows.2 member
        have marks := (loads same.symm).rebuildMarks (same ▸ member.2)
        exact absurd marks unmarked
      · exact ahead
  | @mark _ id ids =>
    have guarantees : Guarantees process disk (disk.mark id) := guarantees_mark
    refine keep rfl (fun other member => ?_) guarantees
    rcases List.mem_cons.1 (knows other (guarantees.unmarked other member).1) with rfl | ahead
    · exact absurd (Finset.mem_insert_self _ _) member.1
    · exact ahead
  | publish =>
    refine ⟨fun _ => ?_, trivial, ⟨fun _ member => ⟨member, rfl⟩,
      fun _ _ _ locked => ⟨locked, rfl, fun marked => marked⟩⟩⟩
    exact Set.eq_empty_of_forall_notMem fun id member => List.not_mem_nil (knows id member)

/-- The journals meet their proof obligations. -/
lemma journals_relyGuarantee :
    Concurrent.RelyGuarantee journals Disk.Indexed Knows Guarantees where
  start _ _ _ := trivial
  act _ _ _ _ _ indexed knows acts := acts.correct indexed knows
  halt _ _ indexed := ⟨guarantees_release.indexed rfl indexed, guarantees_release⟩
  stable _ _ _ _ _ different knows guarantees := knows.stable different guarantees

/-- Safety of the index: in every interleaving of saves, rebuilds, clearings and collections, with
crashes at any point, once the sentinel is there every graph whose stored checkpoint is pending is
listed. The interleaving starts from any files and markers without a sentinel, or with one that is
right. -/
theorem pending_listed {initial config : Concurrent.Config Nat Disk Position}
    (idle : ∀ process, initial.running process = none) (indexed : initial.shared.Indexed)
    (run : Relation.ReflTransGen (Concurrent.Step journals) initial config)
    (complete : config.shared.complete = true) {id : GraphId} {serial : Nat}
    {stored : StoredGraph}
    (file : config.shared.files id = some { serial, content := .readable stored })
    (pending : storedPending stored = true) : id ∈ config.shared.pendingGraphIds := by
  have indexed' := (journals_relyGuarantee.reachable indexed idle run).1
  by_contra absent
  have member : id ∈ config.shared.unmarked := ⟨absent, by rw [file]; exact pending⟩
  exact Set.notMem_empty id (indexed' complete ▸ member)

/-! ### The rebuild of an index -/

/-- A graph that was saved before there was an index. -/
def olderGraph : GraphId := ⟨text "older", rfl⟩

/-- Its checkpoint, with one node that has not run. -/
def olderStored : StoredGraph :=
  { document := { graphId := text "older", nodes := [{ id := text "work" }] }
    checkpoint := { nodes := [{ id := text "work" }] } }

/-- The journal of that graph, without an index. -/
def olderDisk : Disk :=
  { files := fun id =>
      if id = olderGraph then some { serial := 0, content := .readable olderStored } else none
    markers := ∅
    complete := false
    locks := fun _ => none
    serial := 1 }

/-- The rebuild lists the graph, loads its checkpoint, marks it and writes the sentinel. -/
lemma olderDisk_rebuilt : ∃ running, Relation.ReflTransGen (Concurrent.Step journals)
    { shared := olderDisk, running := fun _ => none }
    { shared := { olderDisk.mark olderGraph with complete := true }, running } := by
  have listed : Acts 0 (.listing olderDisk.files) olderDisk (.scanning [olderGraph]) olderDisk := by
    refine .listed fun id entry file _ => ?_
    by_cases same : id = olderGraph
    · exact same ▸ List.mem_cons_self
    · simp [olderDisk, same] at file
  have loaded : Acts 0 (.loading olderGraph (olderDisk.files olderGraph) []) olderDisk
      (.marking olderGraph []) olderDisk :=
    @Acts.loaded 0 olderDisk olderGraph (olderDisk.files olderGraph) [] (.stored olderStored)
      fun _ => .stored 0 olderStored
  exact ⟨_, .tail (.tail (.tail (.tail (.tail (.tail (.single (.spawn _ 0 rfl))
    (.act _ 0 rfl .list)) (.act _ 0 rfl listed)) (.act _ 0 rfl .load)) (.act _ 0 rfl loaded))
    (.act _ 0 rfl .mark)) (.act _ 0 rfl .publish)⟩

/-- After the rebuild the older graph is listed. -/
theorem olderGraph_listed : ∃ running, Relation.ReflTransGen (Concurrent.Step journals)
    { shared := olderDisk, running := fun _ => none }
    { shared := { olderDisk.mark olderGraph with complete := true }, running } ∧
    olderGraph ∈ ({ olderDisk.mark olderGraph with complete := true } : Disk).pendingGraphIds := by
  obtain ⟨running, run⟩ := olderDisk_rebuilt
  have file : ({ olderDisk.mark olderGraph with complete := true } : Disk).files olderGraph =
    some { serial := 0, content := .readable olderStored } := rfl
  have absent : ¬ olderDisk.complete = true := by decide
  exact ⟨running, run,
    pending_listed (fun _ => rfl) (fun complete => absurd complete absent) run rfl file rfl⟩

end Provenant.Graph

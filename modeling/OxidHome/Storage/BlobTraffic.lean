import OxidHome.Storage.BlobAtomicity
import OxidHome.Library.Machine

/-!
# Reads among concurrent writes and deletes

Each file operation and each database closure is a step of its own. Writes are named by the counter
that their id was minted with. There is one read at a time, since reads change nothing. A file that
the reader has opened keeps its bytes, also when it is unlinked.
-/

namespace OxidHome.Storage
open Wit Library

structure BlobInfo where
  name : String
  id : String
  sizeBytes : Nat
  createdMs : Nat
  mime : Option String

/-- `BLOB_SELECT_COLUMNS` and `decode_blob_info` -/
def BlobRow.info (row : BlobRow) : BlobInfo where
  name := row.name
  id := row.id
  sizeBytes := row.sizeBytes
  createdMs := row.createdMs
  mime := row.mime.filter fun m => m.utf8ByteSize ≤ MAX_BLOB_MIME_BYTES

inductive ReadCall where
  | read (installationUuid instanceId id : String)
  | readByName (installationUuid instanceId name : String)
  | readWithInfo (installationUuid instanceId name : String) (sizeBytesMax : Option Nat)

namespace ReadCall

def tuple : ReadCall → Tuple
  | .read uuid inst _ => (uuid, inst)
  | .readByName uuid inst _ => (uuid, inst)
  | .readWithInfo uuid inst _ _ => (uuid, inst)

def selects (call : ReadCall) (row : BlobRow) : Bool :=
  match call with
  | .read uuid inst id => (row.installationUuid, row.instanceId, row.id) = (uuid, inst, id)
  | .readByName uuid inst name => row.primaryKey = (uuid, inst, name)
  | .readWithInfo uuid inst name _ => row.primaryKey = (uuid, inst, name)

def what : ReadCall → String
  | .read uuid inst id => s!"id `{id}` for instance `{inst}` (installation `{uuid}`)"
  | .readByName uuid inst name => s!"name `{name}` for instance `{inst}` (installation `{uuid}`)"
  | .readWithInfo uuid inst name _ => s!"name `{name}` for instance `{inst}` (installation `{uuid}`)"

def infoOf (call : ReadCall) (row : BlobRow) : Option BlobInfo :=
  match call with
  | .readWithInfo .. => some row.info
  | _ => none

def exceeds (call : ReadCall) (info : Option BlobInfo) : Option BlobError :=
  match call, info with
  | .readWithInfo _ _ _ (some cap), some info =>
      if info.sizeBytes > cap then some (.tooLarge call.what info.sizeBytes cap) else none
  | _, _ => none

end ReadCall

abbrev ReadResult := Except BlobError (Option BlobInfo × List UInt8)

inductive ReadPhase where
  | idle
  | waiting (call : ReadCall)
  /-- `read` and `read_by_name` between the lookup and the open. -/
  | found (call : ReadCall) (row : BlobRow)
  | opened (call : ReadCall) (info : Option BlobInfo) (bytes : List UInt8)
  | finished (call : ReadCall) (result : ReadResult)

def ReadPhase.active : ReadPhase → Bool
  | .idle => false
  | .finished .. => false
  | _ => true

inductive WritePhase where
  | minted
  | dirsMade
  | created
  | written
  | synced
  | committed (outcome : Except BlobError BlobStore.WriteOutcome)

structure Writer where
  call : WriteCall
  id : String
  phase : WritePhase

namespace Writer

def row (w : Writer) : BlobRow := w.call.row w.id
def tmpPath (w : Writer) : BlobPath := w.call.tmpPath w.id

def pending (w : Writer) : Prop := ∀ outcome, w.phase ≠ .committed outcome

/-- The file that `finalize_write_outcome` removes. -/
def cleanup (w : Writer) : Option BlobPath :=
  match w.phase with
  | .committed (.ok outcome) => outcome.oldFile
  | .committed (.error (.commitFailedAfterRename orphan)) => some orphan
  | .committed (.error _) => some w.tmpPath
  | _ => none

end Writer

structure BlobTraffic where
  store : BlobStore
  writers : Nat → Option Writer
  /-- What the `delete` calls still remove. -/
  unlinks : List BlobPath
  reader : ReadPhase
  writes : List BlobWrite
  unlinked : List BlobPath
  /-- The index at each moment of the read. -/
  during : List BlobIndex

inductive TrafficAction where
  | registerInstance (installationUuid instanceId : String) (quotaBytes : Nat)
  | beginWrite (call : WriteCall)
  | write (counter : Nat)
  | delete (installationUuid instanceId name : String)
  | unlink (path : BlobPath)
  | startRead (call : ReadCall)
  | read

namespace BlobTraffic

def start (blobsRoot : Bool) (idCounterSeed : Nat) : BlobTraffic :=
  ⟨.new blobsRoot idCounterSeed, fun _ => none, [], .idle, [], [], []⟩

def moved (s : BlobTraffic) (store : BlobStore) : BlobTraffic :=
  { s with
    store := store
    during := if s.reader.active then store.index :: s.during else s.during }

def setWriter (s : BlobTraffic) (counter : Nat) (w : Option Writer) : BlobTraffic :=
  { s with writers := Function.update s.writers counter w }

def beginWrite (s : BlobTraffic) (call : WriteCall) : BlobTraffic :=
  match s.store.beginWrite call with
  | (_, .error _) => s
  | (store, .ok id) => (s.setWriter s.store.idCounter (some ⟨call, id, .minted⟩)).moved store

def advance (s : BlobTraffic) (counter : Nat) (w : Writer) (step : BlobStore × Option BlobError)
    (phase : WritePhase) : BlobTraffic :=
  match step with
  | (store, none) => (s.setWriter counter (some { w with phase := phase })).moved store
  | (store, some _) => (s.setWriter counter none).moved store

def commit (s : BlobTraffic) (counter : Nat) (w : Writer) : BlobTraffic :=
  let (store, outcome) := s.store.writeTransaction w.row w.tmpPath w.call.fault
  let s := (s.setWriter counter (some { w with phase := .committed outcome })).moved store
  match outcome with
  | .ok _ => { s with writes := ⟨w.call, w.id⟩ :: s.writes }
  | .error _ => s

def finalize (s : BlobTraffic) (counter : Nat) (w : Writer)
    (outcome : Except BlobError BlobStore.WriteOutcome) : BlobTraffic :=
  let s := (s.setWriter counter none).moved (s.store.finalizeWriteOutcome outcome w.id w.tmpPath).1
  { s with unlinked := w.cleanup.toList ++ s.unlinked }

def write (s : BlobTraffic) (counter : Nat) (w : Writer) : BlobTraffic :=
  let fault := w.call.fault
  match w.phase with
  | .minted => s.advance counter w (s.store.prepareDirs w.call.tuple fault) .dirsMade
  | .dirsMade => s.advance counter w (s.store.createFile w.tmpPath fault) .created
  | .created => s.advance counter w (s.store.writeAll w.tmpPath w.call.data fault) .written
  | .written => s.advance counter w (s.store.syncAll fault) .synced
  | .synced => s.commit counter w
  | .committed outcome => s.finalize counter w outcome

def delete (s : BlobTraffic) (installationUuid instanceId name : String) : BlobTraffic :=
  match s.store.checkDelete installationUuid instanceId with
  | some _ => s
  | none =>
    let (store, path) := s.store.deleteTransaction installationUuid instanceId name
    { s.moved store with unlinks := path.toList ++ s.unlinks }

def unlink (s : BlobTraffic) (path : BlobPath) : BlobTraffic :=
  { s.moved { s.store with files := s.store.files.unlink path } with
    unlinks := s.unlinks.erase path
    unlinked := path :: s.unlinked }

def checkRead (s : BlobTraffic) (call : ReadCall) : Option BlobError :=
  s.store.checkDelete call.tuple.1 call.tuple.2

def startRead (s : BlobTraffic) (call : ReadCall) : BlobTraffic :=
  match s.checkRead call with
  | some err => { s with reader := .finished call (.error err), during := [] }
  | none => { s with reader := .waiting call, during := [s.store.index] }

def openFile (s : BlobTraffic) (call : ReadCall) (row : BlobRow) : ReadPhase :=
  match s.store.files row.path with
  | none => .finished call (.error .io)
  | some bytes => .opened call (call.infoOf row) bytes

/-- `read_with_info` opens the file in the closure that looks the row up. -/
def lookup (s : BlobTraffic) (call : ReadCall) : ReadPhase :=
  match s.store.index.blob.find? call.selects with
  | none => .finished call (.error (.notFound call.what))
  | some row =>
    match call with
    | .readWithInfo .. => s.openFile call row
    | _ => .found call row

def readToEnd (call : ReadCall) (info : Option BlobInfo) (bytes : List UInt8) : ReadPhase :=
  match call.exceeds info with
  | some err => .finished call (.error err)
  | none => .finished call (.ok (info, bytes))

def step (s : BlobTraffic) : TrafficAction → Option BlobTraffic
  | .registerInstance uuid inst quota => some (s.moved (s.store.registerInstance uuid inst quota).1)
  | .beginWrite call => some (s.beginWrite call)
  | .write counter => (s.writers counter).map (s.write counter)
  | .delete uuid inst name => some (s.delete uuid inst name)
  | .unlink path => if path ∈ s.unlinks then some (s.unlink path) else none
  | .startRead call => if s.reader.active then none else some (s.startRead call)
  | .read =>
      match s.reader with
      | .waiting call => some { s with reader := s.lookup call }
      | .found call row => some { s with reader := s.openFile call row }
      | .opened call info bytes => some { s with reader := readToEnd call info bytes }
      | _ => none

def WriteReaches (s : BlobTraffic) (k : Nat) (store : BlobStore) : Prop :=
  ∃ n t, exec step s (List.replicate n (.write k)) = some t ∧ t.store = store

variable {s : BlobTraffic} {k : Nat} {store : BlobStore}

theorem WriteReaches.now : WriteReaches s k s.store := ⟨0, s, rfl, rfl⟩

theorem WriteReaches.next {w : Writer} (here : s.writers k = some w)
    (rest : WriteReaches (s.write k w) k store) : WriteReaches s k store := by
  obtain ⟨n, t, reached, same⟩ := rest
  refine ⟨n + 1, t, ?_, same⟩
  rw [List.replicate_succ, exec_cons]
  exact ⟨_, by simp [step, here], reached⟩

def thenOn (last : BlobStore × Option BlobError) (rest : BlobStore → BlobStore) : BlobStore :=
  match last.2 with
  | some _ => last.1
  | none => rest last.1

theorem WriteReaches.advance {w : Writer} {phase : WritePhase}
    (last : BlobStore × Option BlobError) {rest : BlobStore → BlobStore}
    (onward : ∀ t : BlobTraffic, t.writers k = some { w with phase := phase } →
      WriteReaches t k (rest t.store)) :
    WriteReaches (s.advance k w last phase) k (thenOn last rest) := by
  obtain ⟨store, err⟩ := last
  cases err with
  | some err => exact .now
  | none => exact onward _ (Function.update_self ..)

theorem WriteReaches.synced {call : WriteCall} {id : String}
    (here : s.writers k = some ⟨call, id, .synced⟩) :
    WriteReaches s k (s.store.finish call id).1 := by
  refine .next here ?_
  set after := s.write k ⟨call, id, .synced⟩ with after_def
  have committed : after.store =
        (s.store.writeTransaction (call.row id) (call.tmpPath id) call.fault).1 ∧
      after.writers k = some ⟨call, id, .committed
        (s.store.writeTransaction (call.row id) (call.tmpPath id) call.fault).2⟩ := by
    simp only [after_def, write, commit, Writer.row, Writer.tmpPath]
    generalize s.store.writeTransaction (call.row id) (call.tmpPath id) call.fault = last
    obtain ⟨store, outcome⟩ := last
    cases outcome <;> exact ⟨rfl, Function.update_self ..⟩
  refine .next committed.2 ?_
  have finalized : (s.store.finish call id).1 = (after.write k ⟨call, id, .committed
      (s.store.writeTransaction (call.row id) (call.tmpPath id) call.fault).2⟩).store := by
    change _ = (after.store.finalizeWriteOutcome _ id (call.tmpPath id)).1
    rw [committed.1]
    rfl
  rw [finalized]
  exact .now

theorem WriteReaches.written {call : WriteCall} {id : String}
    (here : s.writers k = some ⟨call, id, .written⟩) :
    WriteReaches s k (thenOn (s.store.syncAll call.fault) fun store =>
      (store.finish call id).1) :=
  .next here (.advance _ fun _ there => .synced there)

theorem WriteReaches.created {call : WriteCall} {id : String}
    (here : s.writers k = some ⟨call, id, .created⟩) :
    WriteReaches s k (thenOn (s.store.writeAll (call.tmpPath id) call.data call.fault) fun store =>
      thenOn (store.syncAll call.fault) fun store => (store.finish call id).1) :=
  .next here (.advance _ fun _ there => .written there)

theorem WriteReaches.dirsMade {call : WriteCall} {id : String}
    (here : s.writers k = some ⟨call, id, .dirsMade⟩) :
    WriteReaches s k (thenOn (s.store.createFile (call.tmpPath id) call.fault) fun store =>
      thenOn (store.writeAll (call.tmpPath id) call.data call.fault) fun store =>
        thenOn (store.syncAll call.fault) fun store => (store.finish call id).1) :=
  .next here (.advance _ fun _ there => .created there)

theorem writeAndFsync_eq (s : BlobStore) (path : BlobPath) (data : List UInt8)
    (fault : Option WriteFault) (rest : BlobStore → BlobStore) :
    thenOn (s.writeAndFsync path data fault) rest =
      thenOn (s.createFile path fault) fun store =>
        thenOn (store.writeAll path data fault) fun store => thenOn (store.syncAll fault) rest := by
  unfold BlobStore.writeAndFsync
  generalize s.createFile path fault = first
  obtain ⟨store, _ | err⟩ := first
  · dsimp only [thenOn]
    generalize store.writeAll path data fault = second
    obtain ⟨store, _ | err⟩ := second <;> rfl
  · rfl

theorem write_eq (s : BlobStore) (call : WriteCall) (check : s.checkWrite call = none) :
    (s.write call).1 = thenOn (BlobStore.prepareDirs { s with idCounter := s.idCounter + 1 }
      call.tuple call.fault) fun store =>
        thenOn (store.writeAndFsync (call.tmpPath (mintBlobId call.ms s.idCounter call.nanos))
          call.data call.fault) fun store =>
            (store.finish call (mintBlobId call.ms s.idCounter call.nanos)).1 := by
  simp only [BlobStore.write, BlobStore.beginWrite, check]
  generalize BlobStore.prepareDirs { s with idCounter := s.idCounter + 1 } call.tuple call.fault =
    first
  obtain ⟨store, _ | err⟩ := first
  · dsimp only [thenOn]
    generalize store.writeAndFsync _ _ _ = second
    obtain ⟨store, _ | err⟩ := second <;> rfl
  · rfl

theorem write_alone (s : BlobTraffic) (call : WriteCall) :
    ∃ n t, exec step s (.beginWrite call :: List.replicate n (.write s.store.idCounter)) = some t ∧
      t.store = (s.store.write call).1 := by
  have reaches : WriteReaches (s.beginWrite call) s.store.idCounter (s.store.write call).1 := by
    cases check : s.store.checkWrite call with
    | some err =>
        have failed : (s.store.write call).1 = (s.beginWrite call).store := by
          simp [beginWrite, BlobStore.write, BlobStore.beginWrite, check]
        rw [failed]
        exact .now
    | none =>
        rw [write_eq _ _ check]
        simp only [writeAndFsync_eq, beginWrite, BlobStore.beginWrite, check]
        refine .next (Function.update_self ..) ?_
        exact .advance _ fun _ there => .dirsMade there
  obtain ⟨n, t, reached, same⟩ := reaches
  exact ⟨n, t, exec_cons.mpr ⟨_, rfl, reached⟩, same⟩

end BlobTraffic

end OxidHome.Storage

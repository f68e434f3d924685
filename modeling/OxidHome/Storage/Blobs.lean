import OxidHome.Storage.Usage
import OxidHome.Library.Text

/-!
# The blob store

`BlobStore` of `state/blobs.rs`: an index in SQLite and the bytes in files. A file is named by its
directory, by whether it is staged under `.tmp`, and by the blob id. A fault makes one step of a
call fail; the unlinks that clean up after a call succeed.
-/

namespace OxidHome.Storage
open Wit Library

structure BlobPath where
  installationUuid : String
  instanceId : String
  staged : Bool
  id : String
deriving DecidableEq

structure BlobRow where
  installationUuid : String
  instanceId : String
  name : String
  id : String
  sizeBytes : Nat
  createdMs : Nat
  mime : Option String

namespace BlobRow

def tuple (row : BlobRow) : Tuple := (row.installationUuid, row.instanceId)

def primaryKey (row : BlobRow) : String × String × String :=
  (row.installationUuid, row.instanceId, row.name)

/-- The columns of `blob_by_id`, and the file of the row. -/
def path (row : BlobRow) : BlobPath := ⟨row.installationUuid, row.instanceId, false, row.id⟩

end BlobRow

inductive BlobError where
  | unavailable
  | unregisteredInstance (installationUuid instanceId : String)
  | unsafeInstanceId (segment : String)
  | quotaExceeded (installationUuid instanceId : String) (wouldUse allowed : Nat)
  | notFound (what : String)
  | tooLarge (what : String) (sizeBytes cap : Nat)
  | mimeTooLarge (mimeLen cap : Nat)
  | io
  | sql
  | commitFailedAfterRename (finalPath : BlobPath)

def MAX_INSTANCE_ID_BYTES : Nat := 128
def MAX_BLOB_MIME_BYTES : Nat := 256

def isSafeInstanceId (instanceId : String) : Bool :=
  instanceId ≠ "" && instanceId.utf8ByteSize ≤ MAX_INSTANCE_ID_BYTES &&
    !instanceId.toList.contains '/' && !instanceId.toList.contains '\\' &&
    !(instanceId.toList.tails.any fun rest => ['.', '.'].isPrefixOf rest) && instanceId.toList.head? ≠ some '.' &&
    !instanceId.toList.contains '\x00' && instanceId ≠ "*"

def mintBlobId (ms counter nanos : Nat) : String :=
  String.ofList (hexPad 13 ms ++ '-' :: (hexPad 8 counter ++ '-' :: hexPad 8 nanos))

structure BlobIndex where
  blob : List BlobRow
  usage : Usage

namespace BlobIndex

def row? (index : BlobIndex) (installationUuid instanceId name : String) : Option BlobRow :=
  index.blob.find? (·.primaryKey = (installationUuid, instanceId, name))

def deleteRow (index : BlobIndex) (installationUuid instanceId name : String) : BlobIndex :=
  let chosen (row : BlobRow) : Bool := row.primaryKey = (installationUuid, instanceId, name)
  { blob := index.blob.filter (!chosen ·)
    usage := refund BlobRow.tuple BlobRow.sizeBytes index.usage (index.blob.filter chosen) }

def insertRow (index : BlobIndex) (row : BlobRow) : BlobIndex where
  blob := index.blob ++ [row]
  usage := index.usage.charge row.tuple row.sizeBytes

/-- `bytes_used` once `row` replaces the row of its name. -/
def projected (index : BlobIndex) (u : UsageRow) (row : BlobRow) : Int :=
  let old := index.row? row.installationUuid row.instanceId row.name
  u.bytesUsed - ((old.map BlobRow.sizeBytes).getD 0 : Nat) + row.sizeBytes

/-- The statements of the write transaction, with the row that they replace. -/
def replaceRow (index : BlobIndex) (row : BlobRow) : Except BlobError (BlobIndex × Option BlobRow) :=
  match index.usage.find row.tuple with
  | none => .error (.unregisteredInstance row.installationUuid row.instanceId)
  | some u =>
    if index.projected u row > u.bytesQuota then
      .error (.quotaExceeded row.installationUuid row.instanceId (index.projected u row).toNat
        u.bytesQuota.toNat)
    else
      let deleted := index.deleteRow row.installationUuid row.instanceId row.name
      if deleted.blob.any fun other => other.path = row.path then .error .sql
      else .ok (deleted.insertRow row, index.row? row.installationUuid row.instanceId row.name)

def purge (index : BlobIndex) (installationUuid : String) : BlobIndex where
  blob := index.blob.filter fun row => row.tuple.1 ≠ installationUuid
  usage := refund BlobRow.tuple BlobRow.sizeBytes (index.usage.purge installationUuid)
    (index.blob.filter fun row => row.tuple.1 = installationUuid)

end BlobIndex

abbrev Files := BlobPath → Option (List UInt8)

namespace Files

def put (files : Files) (path : BlobPath) (data : List UInt8) : Files :=
  fun p => if p = path then some data else files p

def unlink (files : Files) (path : BlobPath) : Files := fun p => if p = path then none else files p

def rename (files : Files) (source target : BlobPath) : Files :=
  fun p => if p = target then files source else if p = source then none else files p

end Files

structure BlobStore where
  index : BlobIndex
  files : Files
  installDirs : List String
  instanceDirs : List Tuple
  /-- Whether the engine has a state directory. -/
  blobsRoot : Bool
  idCounter : Nat

inductive WriteFault where
  /-- After so many of the installation's and the instance's directory. -/
  | createDir (made : Nat)
  | fsyncRoot
  | fsyncInstallDir
  | createStaged
  | writeStaged (written : List UInt8)
  | syncStaged
  /-- `BEGIN IMMEDIATE` or a statement before the rename. -/
  | sql
  | rename
  | fsyncInstanceDir
  | commit
deriving DecidableEq

inductive PurgeFault where
  | sql
  /-- `remove_dir_all` stops, with these files still there. -/
  | removeDir (left : BlobPath → Bool)
  | fsyncRoot

structure WriteCall where
  installationUuid : String
  instanceId : String
  name : String
  data : List UInt8
  mime : Option String
  /-- What the clock says when the id is minted and when the row is made. -/
  ms : Nat
  nanos : Nat
  createdMs : Nat
  fault : Option WriteFault

namespace WriteCall

def tuple (call : WriteCall) : Tuple := (call.installationUuid, call.instanceId)

def tmpPath (call : WriteCall) (id : String) : BlobPath :=
  ⟨call.installationUuid, call.instanceId, true, id⟩

def row (call : WriteCall) (id : String) : BlobRow :=
  ⟨call.installationUuid, call.instanceId, call.name, id, call.data.length, call.createdMs,
    call.mime⟩

end WriteCall

namespace BlobStore

def new (blobsRoot : Bool) (idCounterSeed : Nat) : BlobStore :=
  ⟨⟨[], []⟩, fun _ => none, [], [], blobsRoot, idCounterSeed⟩

def checkSegments (installationUuid instanceId : String) : Option BlobError :=
  if !isSafeInstanceId installationUuid then some (.unsafeInstanceId installationUuid)
  else if !isSafeInstanceId instanceId then some (.unsafeInstanceId instanceId)
  else none

def registerInstance (s : BlobStore) (installationUuid instanceId : String) (quotaBytes : Nat) :
    BlobStore × Except BlobError Unit :=
  match checkSegments installationUuid instanceId with
  | some err => (s, .error err)
  | none =>
    ({ s with index.usage := s.index.usage.register installationUuid instanceId quotaBytes },
      .ok ())

def checkWrite (s : BlobStore) (call : WriteCall) : Option BlobError :=
  match checkSegments call.installationUuid call.instanceId with
  | some err => some err
  | none =>
    if call.mime.any fun m => m.utf8ByteSize > MAX_BLOB_MIME_BYTES then
      some (.mimeTooLarge ((call.mime.map (·.utf8ByteSize)).getD 0) MAX_BLOB_MIME_BYTES)
    else if !s.blobsRoot then some .unavailable
    else none

def makeDirs (s : BlobStore) (t : Tuple) (made : Nat) : BlobStore :=
  { s with
    installDirs := if 1 ≤ made then t.1 :: s.installDirs else s.installDirs
    instanceDirs := if 2 ≤ made then t :: s.instanceDirs else s.instanceDirs }

/-- `create_dir_all`, and an fsync of the parent of each new directory. -/
def prepareDirs (s : BlobStore) (t : Tuple) (fault : Option WriteFault) :
    BlobStore × Option BlobError :=
  let installDirIsNew := t.1 ∉ s.installDirs
  let instanceDirIsNew := t ∉ s.instanceDirs
  match fault with
  | some (.createDir made) => (s.makeDirs t made, some .io)
  | _ =>
    let s := s.makeDirs t 2
    if installDirIsNew ∧ fault = some .fsyncRoot then (s, some .io)
    else if instanceDirIsNew ∧ fault = some .fsyncInstallDir then (s, some .io)
    else (s, none)

def createFile (s : BlobStore) (path : BlobPath) (fault : Option WriteFault) :
    BlobStore × Option BlobError :=
  if fault = some .createStaged then (s, some .io)
  else ({ s with files := s.files.put path [] }, none)

def writeAll (s : BlobStore) (path : BlobPath) (data : List UInt8) (fault : Option WriteFault) :
    BlobStore × Option BlobError :=
  match fault with
  | some (.writeStaged written) => ({ s with files := s.files.put path written }, some .io)
  | _ => ({ s with files := s.files.put path data }, none)

def syncAll (s : BlobStore) (fault : Option WriteFault) : BlobStore × Option BlobError :=
  (s, if fault = some .syncStaged then some .io else none)

def writeAndFsync (s : BlobStore) (path : BlobPath) (data : List UInt8)
    (fault : Option WriteFault) : BlobStore × Option BlobError :=
  match s.createFile path fault with
  | (s, some err) => (s, some err)
  | (s, none) =>
    match s.writeAll path data fault with
    | (s, some err) => (s, some err)
    | (s, none) => s.syncAll fault

structure WriteOutcome where
  oldFile : Option BlobPath

def writeTransaction (s : BlobStore) (row : BlobRow) (tmpPath : BlobPath)
    (fault : Option WriteFault) : BlobStore × Except BlobError WriteOutcome :=
  if fault = some .sql then (s, .error .sql)
  else match s.index.replaceRow row with
    | .error err => (s, .error err)
    | .ok (index, old) =>
      if fault = some .rename then (s, .error .io)
      else
        let renamed := { s with files := s.files.rename tmpPath row.path }
        if fault = some .fsyncInstanceDir then (renamed, .error .io)
        else if fault = some .commit then
          (renamed, .error (.commitFailedAfterRename row.path))
        else ({ renamed with index := index }, .ok ⟨old.map BlobRow.path⟩)

def finalizeWriteOutcome (s : BlobStore) (outcome : Except BlobError WriteOutcome) (id : String)
    (tmpPath : BlobPath) : BlobStore × Except BlobError String :=
  match outcome with
  | .ok ⟨none⟩ => (s, .ok id)
  | .ok ⟨some oldPath⟩ => ({ s with files := s.files.unlink oldPath }, .ok id)
  | .error (.commitFailedAfterRename orphan) =>
      ({ s with files := s.files.unlink orphan }, .error .sql)
  | .error err => ({ s with files := s.files.unlink tmpPath }, .error err)

def beginWrite (s : BlobStore) (call : WriteCall) : BlobStore × Except BlobError String :=
  match s.checkWrite call with
  | some err => (s, .error err)
  | none =>
    ({ s with idCounter := s.idCounter + 1 }, .ok (mintBlobId call.ms s.idCounter call.nanos))

def write (s : BlobStore) (call : WriteCall) : BlobStore × Except BlobError String :=
  match s.beginWrite call with
  | (s, .error err) => (s, .error err)
  | (s, .ok id) =>
    match s.prepareDirs call.tuple call.fault with
    | (s, some err) => (s, .error err)
    | (s, none) =>
      match s.writeAndFsync (call.tmpPath id) call.data call.fault with
      | (s, some err) => (s, .error err)
      | (s, none) =>
        let (s, outcome) := s.writeTransaction (call.row id) (call.tmpPath id) call.fault
        s.finalizeWriteOutcome outcome id (call.tmpPath id)

def checkDelete (s : BlobStore) (installationUuid instanceId : String) : Option BlobError :=
  match checkSegments installationUuid instanceId with
  | some err => some err
  | none => if !s.blobsRoot then some .unavailable else none

def deleteTransaction (s : BlobStore) (installationUuid instanceId name : String) :
    BlobStore × Option BlobPath :=
  match s.index.row? installationUuid instanceId name with
  | none => (s, none)
  | some row =>
    ({ s with index := s.index.deleteRow installationUuid instanceId name }, some row.path)

/-- `failed`: the transaction does not commit. -/
def delete (s : BlobStore) (installationUuid instanceId name : String) (failed : Bool) :
    BlobStore × Except BlobError Unit :=
  match s.checkDelete installationUuid instanceId with
  | some err => (s, .error err)
  | none =>
    if failed then (s, .error .sql)
    else match s.deleteTransaction installationUuid instanceId name with
      | (s, none) => (s, .ok ())
      | (s, some path) => ({ s with files := s.files.unlink path }, .ok ())

def purgeInstallation (s : BlobStore) (installationUuid : String) (fault : Option PurgeFault) :
    BlobStore × Except BlobError Unit :=
  if !isSafeInstanceId installationUuid then (s, .error (.unsafeInstanceId installationUuid))
  else match fault with
    | some .sql => (s, .error .sql)
    | _ =>
      let s := { s with index := s.index.purge installationUuid }
      if !s.blobsRoot || installationUuid ∉ s.installDirs then (s, .ok ())
      else match fault with
        | some (.removeDir left) =>
          ({ s with files := fun p =>
              if p.installationUuid = installationUuid && !left p then none else s.files p },
            .error .io)
        | _ =>
          let s := { s with
            files := fun p => if p.installationUuid = installationUuid then none else s.files p
            installDirs := s.installDirs.filter (· ≠ installationUuid)
            instanceDirs := s.instanceDirs.filter (·.1 ≠ installationUuid) }
          (s, if fault matches some .fsyncRoot then .error .io else .ok ())

end BlobStore

end OxidHome.Storage

import OxidHome.Storage.Blobs

/-!
# Failure atomicity of the blob store

Any sequence of calls, each with at most one fault. The index always describes the files. A failed
write leaves everything as it was unless it fails with a file behind: while it stages the bytes, or
at the directory fsync after the rename.
-/

namespace OxidHome.Storage
open Wit Library

/-! ## Fresh ids -/

theorem mintBlobId_counter {ms counter nanos ms' counter' nanos' : Nat}
    (same : mintBlobId ms counter nanos = mintBlobId ms' counter' nanos') : counter = counter' := by
  have dashless : ∀ width n, '-' ∉ hexPad width n := fun width n mem =>
    absurd (mem_hexPad mem) (by decide)
  have chars := String.ofList_injective same
  have tails := congrArg (splitOnce '-') chars
  rw [splitOnce_append (dashless _ _), splitOnce_append (dashless _ _), Option.some.injEq,
    Prod.mk.injEq] at tails
  have counters := congrArg (splitOnce '-') tails.2
  rw [splitOnce_append (dashless _ _), splitOnce_append (dashless _ _), Option.some.injEq,
    Prod.mk.injEq] at counters
  rw [← hexNumber_hexPad 8 counter, counters.1, hexNumber_hexPad]

def MintedBelow (counter : Nat) (id : String) : Prop :=
  ∃ ms c nanos, c < counter ∧ id = mintBlobId ms c nanos

theorem MintedBelow.mono {counter counter' : Nat} {id : String} (minted : MintedBelow counter id)
    (le : counter ≤ counter') : MintedBelow counter' id := by
  obtain ⟨ms, c, nanos, below, rfl⟩ := minted
  exact ⟨ms, c, nanos, by omega, rfl⟩

theorem mintBlobId_fresh (ms counter nanos : Nat) :
    ¬ MintedBelow counter (mintBlobId ms counter nanos) := by
  intro ⟨ms', c, nanos', below, same⟩
  have := mintBlobId_counter same
  omega

theorem mintBlobId_minted (ms counter nanos : Nat) :
    MintedBelow (counter + 1) (mintBlobId ms counter nanos) :=
  ⟨ms, counter, nanos, Nat.lt_succ_self _, rfl⟩

/-! ## Files -/

namespace Files

variable {files : Files}

theorem put_same (path : BlobPath) (data : List UInt8) : files.put path data path = some data :=
  if_pos rfl

theorem put_other {path p : BlobPath} (data : List UInt8) (other : p ≠ path) :
    files.put path data p = files p :=
  if_neg other

theorem unlink_other {path p : BlobPath} (other : p ≠ path) : files.unlink path p = files p :=
  if_neg other

theorem put_put (path : BlobPath) (data data' : List UInt8) :
    (files.put path data).put path data' = files.put path data' := by
  funext p
  by_cases here : p = path <;> simp [put, here]

theorem unlink_absent {path : BlobPath} (absent : files path = none) : files.unlink path = files := by
  funext p
  by_cases here : p = path
  · simp [unlink, here, absent]
  · exact unlink_other here

theorem unlink_put {path : BlobPath} (absent : files path = none) (data : List UInt8) :
    (files.put path data).unlink path = files := by
  funext p
  by_cases here : p = path
  · simp [unlink, here, absent]
  · rw [unlink_other here, put_other data here]

theorem unlink_put_comm {path other : BlobPath} (apart : path ≠ other) (data : List UInt8) :
    (files.put path data).unlink other = (files.unlink other).put path data := by
  funext p
  by_cases here : p = path
  · simp [unlink, put, here, apart]
  · simp [unlink, put, here]

theorem rename_put {source target : BlobPath} (absent : files source = none) (apart : source ≠ target)
    (data : List UInt8) : (files.put source data).rename source target = files.put target data := by
  funext p
  by_cases here : p = target
  · simp [rename, put, here]
  · by_cases left : p = source
    · simp [rename, put, left, apart, absent]
    · simp [rename, put, here, left]

end Files

namespace BlobStore

/-! ## What one write does -/

/-- A write that fails with a file behind: the bytes are staged and not all written or synced, or the
file is renamed and its directory not synced. -/
def LeavesFile (s : BlobStore) (call : WriteCall) : Prop :=
  s.checkWrite call = none ∧
    ((∃ written, call.fault = some (.writeStaged written)) ∨ call.fault = some .syncStaged ∨
      (call.fault = some .fsyncInstanceDir ∧ ∃ u, s.index.usage.find call.tuple = some u ∧
        s.index.projected u (call.row "") ≤ u.bytesQuota))

structure OnlyDirs (s t : BlobStore) : Prop where
  index : t.index = s.index
  files : t.files = s.files
  idCounter : t.idCounter = s.idCounter
  blobsRoot : t.blobsRoot = s.blobsRoot

theorem prepareDirs_cases (s : BlobStore) (tuple : Tuple) (fault : Option WriteFault) :
    ∃ t, OnlyDirs s t ∧ (s.prepareDirs tuple fault = (t, none) ∨
      (s.prepareDirs tuple fault = (t, some .io) ∧
        ((∃ made, fault = some (.createDir made)) ∨ fault = some .fsyncRoot ∨
          fault = some .fsyncInstallDir))) := by
  by_cases created : ∃ made, fault = some (.createDir made)
  · obtain ⟨made, rfl⟩ := created
    exact ⟨s.makeDirs tuple made, ⟨rfl, rfl, rfl, rfl⟩, Or.inr ⟨rfl, Or.inl ⟨made, rfl⟩⟩⟩
  · refine ⟨s.makeDirs tuple 2, ⟨rfl, rfl, rfl, rfl⟩, ?_⟩
    have made : s.prepareDirs tuple fault =
        if tuple.1 ∉ s.installDirs ∧ fault = some .fsyncRoot then (s.makeDirs tuple 2, some .io)
        else if tuple ∉ s.instanceDirs ∧ fault = some .fsyncInstallDir then
          (s.makeDirs tuple 2, some .io)
        else (s.makeDirs tuple 2, none) := by
      cases fault with
      | none => rfl
      | some fault =>
          cases fault with
          | createDir made => exact absurd ⟨made, rfl⟩ created
          | _ => rfl
    rw [made]
    by_cases root : tuple.1 ∉ s.installDirs ∧ fault = some .fsyncRoot
    · exact Or.inr ⟨if_pos root, Or.inr (Or.inl root.2)⟩
    · rw [if_neg root]
      by_cases parent : tuple ∉ s.instanceDirs ∧ fault = some .fsyncInstallDir
      · exact Or.inr ⟨if_pos parent, Or.inr (Or.inr parent.2)⟩
      · exact Or.inl (if_neg parent)

structure MintedIds (s : BlobStore) : Prop where
  rows : ∀ row ∈ s.index.blob, MintedBelow s.idCounter row.id
  files : ∀ path, s.files path ≠ none → MintedBelow s.idCounter path.id

theorem replaceRow_cases {index : BlobIndex} {row : BlobRow}
    (fresh : ∀ other ∈ index.blob, other.path ≠ row.path) :
    (∃ u, index.usage.find row.tuple = some u ∧ index.projected u row ≤ u.bytesQuota ∧
      index.replaceRow row =
        .ok ((index.deleteRow row.installationUuid row.instanceId row.name).insertRow row,
          index.row? row.installationUuid row.instanceId row.name)) ∨
    ((¬ ∃ u, index.usage.find row.tuple = some u ∧ index.projected u row ≤ u.bytesQuota) ∧
      ((∃ uuid inst, index.replaceRow row = .error (.unregisteredInstance uuid inst)) ∨
        ∃ uuid inst would allowed,
          index.replaceRow row = .error (.quotaExceeded uuid inst would allowed))) := by
  unfold BlobIndex.replaceRow
  cases found : index.usage.find row.tuple with
  | none =>
      right
      refine ⟨by simp, Or.inl ⟨_, _, rfl⟩⟩
  | some u =>
      dsimp only
      by_cases beyond : index.projected u row > u.bytesQuota
      · right
        rw [if_pos beyond]
        refine ⟨?_, Or.inr ⟨_, _, _, _, rfl⟩⟩
        rintro ⟨v, here, fits⟩
        cases here
        omega
      · left
        refine ⟨u, rfl, Int.not_lt.mp beyond, ?_⟩
        rw [if_neg beyond]
        have apart : ((index.deleteRow row.installationUuid row.instanceId row.name).blob.any
            fun other => other.path = row.path) = false := by
          rw [List.any_eq_false]
          intro other mem
          simpa using fresh other (List.mem_of_mem_filter mem)
        rw [if_neg (by rw [apart]; decide)]

/-- How a write ends that minted `id` in `s`. `leaves` says when a file stays behind. -/
inductive WriteEnd (leaves : Prop) (s : BlobStore) (call : WriteCall) (id : String) :
    BlobStore → Except BlobError String → Prop
  | failed {t : BlobStore} {err : BlobError} : ¬ leaves → OnlyDirs s t →
      WriteEnd leaves s call id t (.error err)
  | left {t : BlobStore} {err : BlobError} (path : BlobPath) (data : List UInt8) : leaves →
      t.index = s.index → path.id = id → t.files = s.files.put path data →
      t.idCounter = s.idCounter → WriteEnd leaves s call id t (.error err)
  | stored {t : BlobStore} {u : UsageRow} : ¬ leaves →
      s.index.usage.find call.tuple = some u →
      s.index.projected u (call.row id) ≤ u.bytesQuota →
      t.index = (s.index.deleteRow call.installationUuid call.instanceId call.name).insertRow
        (call.row id) →
      t.files = (match s.index.row? call.installationUuid call.instanceId call.name with
        | none => s.files.put (call.row id).path call.data
        | some old => (s.files.put (call.row id).path call.data).unlink old.path) →
      t.idCounter = s.idCounter → WriteEnd leaves s call id t (.ok id)

theorem WriteEnd.of_dirs {leaves : Prop} {s t u : BlobStore} {call : WriteCall} {id : String}
    {result : Except BlobError String} (dirs : OnlyDirs s t) (last : WriteEnd leaves t call id u result) :
    WriteEnd leaves s call id u result := by
  obtain ⟨index, files, counter, blobsRoot⟩ := dirs
  cases last with
  | failed clean after =>
      exact .failed clean ⟨after.index.trans index, after.files.trans files,
        after.idCounter.trans counter, after.blobsRoot.trans blobsRoot⟩
  | left path data leaves same minted put kept =>
      exact .left path data leaves (same.trans index) minted (files ▸ put) (kept.trans counter)
  | stored clean found fits same put kept =>
      rw [index] at found fits same put
      rw [files] at put
      exact .stored clean found fits same put (kept.trans counter)

section
variable {s : BlobStore} {call : WriteCall} {id : String}

def finish (s : BlobStore) (call : WriteCall) (id : String) : BlobStore × Except BlobError String :=
  let (s, outcome) := s.writeTransaction (call.row id) (call.tmpPath id) call.fault
  s.finalizeWriteOutcome outcome id (call.tmpPath id)

theorem finish_end (noTmp : s.files (call.tmpPath id) = none)
    (noFile : s.files (call.row id).path = none)
    (fresh : ∀ row ∈ s.index.blob, row.path ≠ (call.row id).path) :
    let last := finish { s with files := s.files.put (call.tmpPath id) call.data } call id
    WriteEnd (call.fault = some .fsyncInstanceDir ∧ ∃ u, s.index.usage.find call.tuple = some u ∧
      s.index.projected u (call.row id) ≤ u.bytesQuota) s call id last.1 last.2 := by
  have apart : call.tmpPath id ≠ (call.row id).path := fun same =>
    Bool.noConfusion (congrArg BlobPath.staged same)
  have renamed := Files.rename_put noTmp apart call.data
  have dropped := Files.unlink_put noTmp call.data
  have noTmp' : (s.files.put (call.row id).path call.data) (call.tmpPath id) = none := by
    rw [Files.put_other _ apart, noTmp]
  intro last
  by_cases sql : call.fault = some .sql
  · have ends : last = (s, .error .sql) := by
      simp [last, finish, writeTransaction, sql, finalizeWriteOutcome, dropped]
    rw [ends]
    exact .failed (by simp [sql]) ⟨rfl, rfl, rfl, rfl⟩
  rcases replaceRow_cases fresh with ⟨u, found, fits, replaced⟩ | ⟨refused, replaced⟩
  · by_cases notRenamed : call.fault = some .rename
    · have ends : last = (s, .error .io) := by
        simp [last, finish, writeTransaction, notRenamed, replaced, finalizeWriteOutcome, dropped]
      rw [ends]
      exact .failed (by simp [notRenamed]) ⟨rfl, rfl, rfl, rfl⟩
    by_cases notSynced : call.fault = some .fsyncInstanceDir
    · have ends : last = ({ s with files := s.files.put (call.row id).path call.data }, .error .io) := by
        simp [last, finish, writeTransaction, notSynced, replaced, finalizeWriteOutcome, renamed,
          Files.unlink_absent noTmp']
      rw [ends]
      exact .left (call.row id).path call.data ⟨notSynced, u, found, fits⟩ rfl rfl rfl rfl
    have clean : ¬ (call.fault = some .fsyncInstanceDir ∧
        ∃ u, s.index.usage.find call.tuple = some u ∧
          s.index.projected u (call.row id) ≤ u.bytesQuota) := fun h => notSynced h.1
    by_cases notCommitted : call.fault = some .commit
    · have ends : last = (s, .error .sql) := by
        simp [last, finish, writeTransaction, notCommitted, replaced, finalizeWriteOutcome, renamed,
          Files.unlink_put noFile]
      rw [ends]
      exact .failed clean ⟨rfl, rfl, rfl, rfl⟩
    · have outcome : writeTransaction { s with files := s.files.put (call.tmpPath id) call.data }
          (call.row id) (call.tmpPath id) call.fault =
          ({ s with
            index := (s.index.deleteRow call.installationUuid call.instanceId call.name).insertRow
              (call.row id)
            files := s.files.put (call.row id).path call.data },
            .ok ⟨(s.index.row? call.installationUuid call.instanceId call.name).map
              BlobRow.path⟩) := by
        simp only [writeTransaction, sql, notRenamed, notSynced, notCommitted, replaced, renamed,
          if_false]
        rfl
      cases old : s.index.row? call.installationUuid call.instanceId call.name with
      | none =>
          rw [old] at outcome
          simp only [last, finish, outcome, Option.map_none, finalizeWriteOutcome]
          exact .stored clean found fits rfl (by rw [old]) rfl
      | some row =>
          rw [old] at outcome
          simp only [last, finish, outcome, Option.map_some, finalizeWriteOutcome]
          exact .stored clean found fits rfl (by rw [old]) rfl
  · have ends : ∃ err, last = (s, .error err) := by
      rcases replaced with ⟨uuid, inst, replaced⟩ | ⟨uuid, inst, would, allowed, replaced⟩
      · exact ⟨.unregisteredInstance uuid inst, by
          simp [last, finish, writeTransaction, sql, replaced, finalizeWriteOutcome, dropped]⟩
      · exact ⟨.quotaExceeded uuid inst would allowed, by
          simp [last, finish, writeTransaction, sql, replaced, finalizeWriteOutcome, dropped]⟩
    obtain ⟨err, ends⟩ := ends
    rw [ends]
    exact .failed (fun h => refused h.2) ⟨rfl, rfl, rfl, rfl⟩

theorem writeAndFsync_cases (s : BlobStore) (path : BlobPath) (data : List UInt8)
    (fault : Option WriteFault) :
    (fault = some .createStaged ∧ s.writeAndFsync path data fault = (s, some .io)) ∨
      (((∃ written, fault = some (.writeStaged written)) ∨ fault = some .syncStaged) ∧
        ∃ left, s.writeAndFsync path data fault =
          ({ s with files := s.files.put path left }, some .io)) ∨
      (fault ≠ some .createStaged ∧ (∀ written, fault ≠ some (.writeStaged written)) ∧
        fault ≠ some .syncStaged ∧ s.writeAndFsync path data fault =
          ({ s with files := s.files.put path data }, none)) := by
  have same := @Files.put_put s.files path
  rcases fault with _ | fault
  · exact Or.inr (Or.inr ⟨nofun, nofun, nofun, by
      simp [writeAndFsync, createFile, writeAll, syncAll, same]⟩)
  · cases fault with
    | createStaged => exact Or.inl ⟨rfl, rfl⟩
    | writeStaged written =>
        exact Or.inr (Or.inl ⟨Or.inl ⟨written, rfl⟩, written, by
          simp [writeAndFsync, createFile, writeAll, same]⟩)
    | syncStaged =>
        exact Or.inr (Or.inl ⟨Or.inr rfl, data, by
          simp [writeAndFsync, createFile, writeAll, syncAll, same]⟩)
    | _ =>
        exact Or.inr (Or.inr ⟨nofun, nofun, nofun, by
          simp [writeAndFsync, createFile, writeAll, syncAll, same]⟩)

theorem write_end (minted : s.MintedIds) (call : WriteCall) :
    (s.checkWrite call ≠ none ∧ ∃ err, s.write call = (s, .error err)) ∨
      WriteEnd (s.LeavesFile call) { s with idCounter := s.idCounter + 1 } call
        (mintBlobId call.ms s.idCounter call.nanos) (s.write call).1 (s.write call).2 := by
  cases check : s.checkWrite call with
  | some err => exact Or.inl ⟨nofun, err, by simp [write, beginWrite, check]⟩
  | none =>
      right
      set id := mintBlobId call.ms s.idCounter call.nanos with id_def
      have fresh : ¬ MintedBelow s.idCounter id := mintBlobId_fresh _ _ _
      have absent : ∀ path : BlobPath, path.id = id → s.files path = none := by
        intro path same
        by_contra present
        exact fresh (same ▸ minted.files path present)
      have begun : s.beginWrite call = ({ s with idCounter := s.idCounter + 1 }, .ok id) := by
        simp only [beginWrite, check, id_def]
      obtain ⟨t, dirs, prepared | ⟨prepared, fault⟩⟩ :=
        prepareDirs_cases { s with idCounter := s.idCounter + 1 } call.tuple call.fault
      · have files : t.files = s.files := dirs.files
        have index : t.index = s.index := dirs.index
        apply WriteEnd.of_dirs dirs
        rcases writeAndFsync_cases t (call.tmpPath id) call.data call.fault with
          ⟨fault, staged⟩ | ⟨fault, left, staged⟩ | ⟨created, written, synced, staged⟩
        · simp only [write, begun, prepared, staged]
          exact .failed (by simp [LeavesFile, fault]) ⟨rfl, rfl, rfl, rfl⟩
        · simp only [write, begun, prepared, staged]
          refine .left (call.tmpPath id) left ⟨check, ?_⟩ rfl rfl rfl rfl
          rcases fault with fault | fault
          · exact Or.inl fault
          · exact Or.inr (Or.inl fault)
        · have noTmp : t.files (call.tmpPath id) = none := files ▸ absent _ rfl
          have noFile : t.files (call.row id).path = none := files ▸ absent _ rfl
          have last := finish_end noTmp noFile (by
            intro row mem same
            have taken : row.id = id := congrArg BlobPath.id same
            exact fresh (taken ▸ minted.rows row (index ▸ mem)))
          simp only [write, begun, prepared, staged]
          have leaves : s.LeavesFile call ↔ (call.fault = some .fsyncInstanceDir ∧
              ∃ u, t.index.usage.find call.tuple = some u ∧
                t.index.projected u (call.row id) ≤ u.bytesQuota) := by
            rw [index]
            unfold LeavesFile
            simp only [check, written, synced, exists_false, false_or, true_and]
            rfl
          rw [leaves]
          exact last
      · simp only [write, begun, prepared]
        refine .failed ?_ dirs
        rintro ⟨_, ⟨written, staged⟩ | staged | ⟨staged, _⟩⟩ <;>
          rcases fault with ⟨made, fault⟩ | fault | fault <;> cases staged.symm.trans fault

end

end BlobStore

/-! ## Every sequence of calls -/

inductive BlobOp where
  | registerInstance (installationUuid instanceId : String) (quotaBytes : Nat)
  | write (call : WriteCall)
  | delete (installationUuid instanceId name : String) (failed : Bool)
  | purgeInstallation (installationUuid : String) (fault : Option PurgeFault)

def BlobStore.apply (s : BlobStore) : BlobOp → BlobStore
  | .registerInstance uuid inst quota => (s.registerInstance uuid inst quota).1
  | .write call => (s.write call).1
  | .delete uuid inst name failed => (s.delete uuid inst name failed).1
  | .purgeInstallation uuid fault => (s.purgeInstallation uuid fault).1

structure BlobWrite where
  call : WriteCall
  id : String

def BlobWrite.row (w : BlobWrite) : BlobRow := w.call.row w.id

structure BlobRun where
  store : BlobStore
  writes : List BlobWrite

namespace BlobRun

def apply (r : BlobRun) (op : BlobOp) : BlobRun where
  store := r.store.apply op
  writes := match op with
    | .write call =>
        match (r.store.write call).2 with
        | .ok id => ⟨call, id⟩ :: r.writes
        | .error _ => r.writes
    | _ => r.writes

def run (blobsRoot : Bool) (idCounterSeed : Nat) (ops : List BlobOp) : BlobRun :=
  ops.foldl apply ⟨.new blobsRoot idCounterSeed, []⟩

/-- The index describes the files, and the usage table describes the index. -/
structure Stored (r : BlobRun) : Prop where
  ids : (r.writes.map BlobWrite.id).Nodup
  files : ∀ row ∈ r.store.index.blob, ∃ w ∈ r.writes, row = w.row ∧
    r.store.files row.path = some w.call.data
  used : Balanced BlobRow.tuple BlobRow.sizeBytes r.store.index.blob r.store.index.usage

structure Law (r : BlobRun) (op : BlobOp) : Prop where
  stored : (r.apply op).Stored
  quota : ∀ call id, op = .write call → (r.store.write call).2 = .ok id →
    ∃ u, (r.store.write call).1.index.usage.find call.tuple = some u ∧ u.bytesUsed ≤ u.bytesQuota
  atomic : ∀ call err, op = .write call → (r.store.write call).2 = .error err →
    (r.store.write call).1.index = r.store.index ∧ (r.store.write call).1.files = r.store.files

structure Inv (r : BlobRun) : Prop extends r.Stored where
  minted : r.store.MintedIds
  writes : ∀ w ∈ r.writes, MintedBelow r.store.idCounter w.id
  keys : (r.store.index.blob.map BlobRow.primaryKey).Nodup
  paths : (r.store.index.blob.map BlobRow.path).Nodup

section
variable {r : BlobRun} (inv : r.Inv)
include inv

theorem Inv.register (uuid inst : String) (quota : Nat) :
    (r.apply (.registerInstance uuid inst quota)).Inv := by
  change Inv ⟨(r.store.registerInstance uuid inst quota).1, r.writes⟩
  unfold BlobStore.registerInstance
  split
  · exact inv
  · exact { inv with
      used := inv.used.register uuid inst quota
      minted := ⟨inv.minted.rows, inv.minted.files⟩ }

theorem Inv.remove {t : BlobStore} (kept : BlobRow → Bool)
    (rows : t.index.blob = r.store.index.blob.filter kept)
    (balanced : Balanced BlobRow.tuple BlobRow.sizeBytes t.index.blob t.index.usage)
    (counter : t.idCounter = r.store.idCounter)
    (files : ∀ path, t.files path ≠ none → r.store.files path ≠ none)
    (same : ∀ row ∈ t.index.blob, t.files row.path = r.store.files row.path) :
    Inv ⟨t, r.writes⟩ := by
  have within : ∀ row ∈ t.index.blob, row ∈ r.store.index.blob := fun row mem =>
    List.mem_of_mem_filter (rows ▸ mem)
  refine { inv with
    files := ?files, used := balanced, minted := ⟨?rows, ?mintedFiles⟩, writes := ?writes
    keys := ?keys, paths := ?paths }
  case files =>
    intro row mem
    obtain ⟨w, written, eq, data⟩ := inv.files row (within row mem)
    exact ⟨w, written, eq, (same row mem).trans data⟩
  case rows =>
    intro row mem
    rw [counter]
    exact inv.minted.rows row (within row mem)
  case mintedFiles =>
    intro path present
    rw [counter]
    exact inv.minted.files path (files path present)
  case writes =>
    intro w mem
    rw [counter]
    exact inv.writes w mem
  case keys =>
    rw [rows]
    exact inv.keys.sublist (List.filter_sublist.map _)
  case paths =>
    rw [rows]
    exact inv.paths.sublist (List.filter_sublist.map _)

theorem Inv.drop {uuid inst name : String} {row : BlobRow}
    (old : r.store.index.row? uuid inst name = some row) :
    Inv ⟨{ r.store with
      index := r.store.index.deleteRow uuid inst name
      files := r.store.files.unlink row.path }, r.writes⟩ := by
  have balanced : Balanced BlobRow.tuple BlobRow.sizeBytes
      (r.store.index.deleteRow uuid inst name).blob
      (r.store.index.deleteRow uuid inst name).usage := inv.used.delete _
  refine inv.remove (t := { r.store with
      index := r.store.index.deleteRow uuid inst name
      files := r.store.files.unlink row.path }) _ rfl balanced rfl ?_ ?_
  · intro path present gone
    simp [Files.unlink, gone] at present
  · intro other mem
    apply Files.unlink_other
    intro same
    have here := List.mem_of_mem_filter mem
    have apart := List.of_mem_filter mem
    have chosen : row.primaryKey = (uuid, inst, name) := by
      simpa using List.find?_some old
    rw [List.inj_on_of_nodup_map inv.paths here (List.mem_of_find?_eq_some old) same] at apart
    simp [chosen] at apart

omit inv in
theorem deleteRow_absent {index : BlobIndex} {uuid inst name : String}
    (absent : index.row? uuid inst name = none) : index.deleteRow uuid inst name = index := by
  have others := List.find?_eq_none.mp absent
  have kept : index.blob.filter (fun row => !decide (row.primaryKey = (uuid, inst, name))) =
      index.blob := by
    rw [List.filter_eq_self]
    intro row mem
    simpa using others row mem
  have gone : index.blob.filter (fun row => decide (row.primaryKey = (uuid, inst, name))) = [] := by
    rw [List.filter_eq_nil_iff]
    exact others
  simp only [BlobIndex.deleteRow, kept, gone]
  rfl

theorem Inv.delete (uuid inst name : String) (failed : Bool) :
    (r.apply (.delete uuid inst name failed)).Inv := by
  change Inv ⟨(r.store.delete uuid inst name failed).1, r.writes⟩
  unfold BlobStore.delete
  cases r.store.checkDelete uuid inst with
  | some err => exact inv
  | none =>
      cases failed with
      | true => exact inv
      | false =>
          cases old : r.store.index.row? uuid inst name with
          | none => simpa [BlobStore.deleteTransaction, old] using inv
          | some row =>
              simp only [BlobStore.deleteTransaction, old, Bool.false_eq_true, if_false]
              exact inv.drop old

theorem Inv.purge (uuid : String) (fault : Option PurgeFault) :
    (r.apply (.purgeInstallation uuid fault)).Inv := by
  change Inv ⟨(r.store.purgeInstallation uuid fault).1, r.writes⟩
  have balanced : Balanced BlobRow.tuple BlobRow.sizeBytes (r.store.index.purge uuid).blob
      (r.store.index.purge uuid).usage := inv.used.purge uuid
  have purged : ∀ t : BlobStore, t.index = r.store.index.purge uuid →
      t.idCounter = r.store.idCounter →
      (∀ path, t.files path = r.store.files path ∨ (path.installationUuid = uuid ∧
        t.files path = none)) → Inv ⟨t, r.writes⟩ := by
    intro t index counter files
    refine inv.remove (t := t) _ (by rw [index]; rfl) (by rw [index]; exact balanced) counter ?_ ?_
    · intro path present
      rcases files path with same | ⟨_, gone⟩
      · rwa [same] at present
      · exact absurd gone present
    · intro row mem
      rw [index] at mem
      rcases files row.path with same | ⟨inside, _⟩
      · exact same
      · have outside : row.tuple.1 ≠ uuid := by simpa using List.of_mem_filter mem
        exact absurd inside outside
  have confined : ∀ left : BlobPath → Bool, ∀ path : BlobPath,
      (if path.installationUuid = uuid && !left path then none else r.store.files path) =
          r.store.files path ∨ (path.installationUuid = uuid ∧
        (if path.installationUuid = uuid && !left path then none else r.store.files path) =
          none) := by
    intro left path
    split
    · rename_i gone
      simp only [Bool.and_eq_true, decide_eq_true_eq] at gone
      exact Or.inr ⟨gone.1, rfl⟩
    · exact Or.inl rfl
  unfold BlobStore.purgeInstallation
  split
  · exact inv
  · split
    · exact inv
    · dsimp only
      split
      · exact purged _ rfl rfl fun path => Or.inl rfl
      · split
        · exact purged _ rfl rfl (confined _)
        · refine purged _ rfl rfl fun path => ?_
          simpa using confined (fun _ => false) path

theorem Inv.moved {t : BlobStore} (index : t.index = r.store.index)
    (counter : r.store.idCounter ≤ t.idCounter)
    (minted : ∀ path, t.files path ≠ none → MintedBelow t.idCounter path.id)
    (same : ∀ path, MintedBelow r.store.idCounter path.id → t.files path = r.store.files path) :
    Inv ⟨t, r.writes⟩ where
  ids := inv.ids
  files := by
    intro row mem
    rw [index] at mem
    obtain ⟨w, written, eq, data⟩ := inv.files row mem
    exact ⟨w, written, eq, (same row.path (inv.minted.rows row mem)).trans data⟩
  used := by
    rw [index]
    exact inv.used
  minted := ⟨fun row mem => (inv.minted.rows row (index ▸ mem)).mono counter, minted⟩
  writes := fun w mem => (inv.writes w mem).mono counter
  keys := by
    rw [index]
    exact inv.keys
  paths := by
    rw [index]
    exact inv.paths

theorem Inv.insert {w : BlobWrite} {t : BlobStore} (fresh : ¬ MintedBelow r.store.idCounter w.id)
    (minted : MintedBelow t.idCounter w.id) (counter : r.store.idCounter ≤ t.idCounter)
    (absent : r.store.index.row? w.call.installationUuid w.call.instanceId w.call.name = none)
    (known : (r.store.index.usage.find w.call.tuple).isSome)
    (index : t.index = r.store.index.insertRow w.row)
    (files : t.files = r.store.files.put w.row.path w.call.data) : Inv ⟨t, w :: r.writes⟩ where
  ids := by
    rw [List.map_cons, List.nodup_cons]
    refine ⟨?_, inv.ids⟩
    intro mem
    obtain ⟨other, written, same⟩ := List.mem_map.mp mem
    exact fresh (same ▸ inv.writes other written)
  files := by
    intro row mem
    rw [index] at mem
    rw [files]
    rcases List.mem_append.mp mem with mem | mem
    · obtain ⟨other, written, eq, data⟩ := inv.files row mem
      refine ⟨other, List.mem_cons_of_mem _ written, eq, ?_⟩
      rw [Files.put_other _ fun same => fresh ?_, data]
      have taken : row.id = w.id := congrArg BlobPath.id same
      exact taken ▸ inv.minted.rows row mem
    · rw [List.mem_singleton.mp mem]
      exact ⟨w, List.mem_cons_self, rfl, Files.put_same _ _⟩
  used := by
    rw [index]
    exact inv.used.insert known
  minted := by
    constructor
    · intro row mem
      rw [index] at mem
      rcases List.mem_append.mp mem with mem | mem
      · exact (inv.minted.rows row mem).mono counter
      · rw [List.mem_singleton.mp mem]
        exact minted
    · intro path present
      rw [files] at present
      by_cases here : path = w.row.path
      · rw [here]
        exact minted
      · rw [Files.put_other _ here] at present
        exact (inv.minted.files path present).mono counter
  writes := by
    intro other mem
    rcases List.mem_cons.mp mem with rfl | mem
    · exact minted
    · exact (inv.writes other mem).mono counter
  keys := by
    rw [index]
    simp only [BlobIndex.insertRow, List.map_append, List.map_cons, List.map_nil]
    rw [List.nodup_append]
    refine ⟨inv.keys, List.nodup_singleton _, ?_⟩
    intro key mem other single same
    obtain ⟨row, here, rfl⟩ := List.mem_map.mp mem
    rw [List.mem_singleton.mp single] at same
    exact List.find?_eq_none.mp absent row here (decide_eq_true same)
  paths := by
    rw [index]
    simp only [BlobIndex.insertRow, List.map_append, List.map_cons, List.map_nil]
    rw [List.nodup_append]
    refine ⟨inv.paths, List.nodup_singleton _, ?_⟩
    intro path mem other single same
    obtain ⟨row, here, rfl⟩ := List.mem_map.mp mem
    rw [List.mem_singleton.mp single] at same
    have taken : row.id = w.id := congrArg BlobPath.id same
    exact fresh (taken ▸ inv.minted.rows row here)

theorem Inv.write (call : WriteCall) : (r.apply (.write call)).Inv := by
  have fresh := mintBlobId_fresh call.ms r.store.idCounter call.nanos
  have minted := mintBlobId_minted call.ms r.store.idCounter call.nanos
  have ends := BlobStore.write_end inv.minted call
  unfold apply BlobStore.apply
  generalize mintBlobId call.ms r.store.idCounter call.nanos = id at fresh minted ends
  dsimp only
  generalize r.store.write call = last at ends ⊢
  obtain ⟨t, result⟩ := last
  rcases ends with ⟨_, err, same⟩ | ends
  · cases same
    exact inv
  · cases ends with
    | failed clean after =>
        refine inv.moved after.index (by rw [after.idCounter]; exact Nat.le_succ _) ?_ ?_
        · intro path present
          rw [after.files] at present
          rw [after.idCounter]
          exact (inv.minted.files path present).mono (Nat.le_succ _)
        · intro path _
          rw [after.files]
    | left path data leaves index named files counter =>
        dsimp only at index files counter
        refine inv.moved index (by rw [counter]; exact Nat.le_succ _) ?_ ?_
        · intro p present
          rw [files] at present
          rw [counter]
          by_cases here : p = path
          · rw [here, named]
            exact minted
          · rw [Files.put_other _ here] at present
            exact (inv.minted.files p present).mono (Nat.le_succ _)
        · intro p old
          rw [files]
          apply Files.put_other
          rintro rfl
          exact fresh (named ▸ old)
    | stored clean found fits index files counter =>
        -- The row of the name goes first, and then the new row comes.
        have known : ((r.store.index.deleteRow call.installationUuid call.instanceId call.name).usage.find
            call.tuple).isSome := by
          rw [BlobIndex.deleteRow, find_refund, Option.isSome_map]
          exact Option.isSome_iff_exists.mpr ⟨_, found⟩
        have gone : (r.store.index.deleteRow call.installationUuid call.instanceId call.name).row?
            call.installationUuid call.instanceId call.name = none := by
          rw [BlobIndex.row?, List.find?_eq_none]
          intro row mem
          simpa using List.of_mem_filter mem
        have below : r.store.idCounter ≤ t.idCounter := by rw [counter]; exact Nat.le_succ _
        have new : MintedBelow t.idCounter id := by rw [counter]; exact minted
        dsimp only at index files
        cases old : r.store.index.row? call.installationUuid call.instanceId call.name with
        | none =>
            rw [old] at files
            rw [deleteRow_absent old] at known gone index
            exact inv.insert (w := ⟨call, id⟩) fresh new below gone known index files
        | some row =>
            rw [old] at files
            have here := List.mem_of_find?_eq_some old
            have apart : (call.row id).path ≠ row.path := by
              intro same
              have taken : row.id = id := (congrArg BlobPath.id same).symm
              exact fresh (taken ▸ inv.minted.rows row here)
            apply (inv.drop old).insert (w := ⟨call, id⟩) fresh new below gone known index
            rw [files]
            exact Files.unlink_put_comm apart call.data

theorem Inv.apply (op : BlobOp) : (r.apply op).Inv := by
  cases op with
  | registerInstance uuid inst quota => exact inv.register uuid inst quota
  | write call => exact inv.write call
  | delete uuid inst name failed => exact inv.delete uuid inst name failed
  | purgeInstallation uuid fault => exact inv.purge uuid fault

theorem Inv.quota {call : WriteCall} {id : String} {u : UsageRow}
    (found : r.store.index.usage.find call.tuple = some u)
    (fits : r.store.index.projected u (call.row id) ≤ u.bytesQuota) :
    ∃ v, ((r.store.index.deleteRow call.installationUuid call.instanceId call.name).insertRow
      (call.row id)).usage.find call.tuple = some v ∧ v.bytesUsed ≤ v.bytesQuota := by
  have chosen := filter_of_nodup inv.keys (call.installationUuid, call.instanceId, call.name)
  have refunded : bytesOf BlobRow.tuple BlobRow.sizeBytes (r.store.index.blob.filter fun row =>
      row.primaryKey = (call.installationUuid, call.instanceId, call.name)) call.tuple =
      ((r.store.index.row? call.installationUuid call.instanceId call.name).map
        BlobRow.sizeBytes).getD 0 := by
    rw [chosen, BlobIndex.row?]
    cases old : r.store.index.blob.find? fun row =>
        row.primaryKey = (call.installationUuid, call.instanceId, call.name) with
    | none => rfl
    | some row =>
        have key : row.primaryKey = (call.installationUuid, call.instanceId, call.name) := by
          simpa using List.find?_some old
        have tuple : row.tuple = call.tuple := by
          simp only [BlobRow.primaryKey, Prod.mk.injEq] at key
          exact Prod.ext key.1 key.2.1
        simp [bytesOf_cons, tuple]
  have charged : ((r.store.index.deleteRow call.installationUuid call.instanceId
      call.name).insertRow (call.row id)).usage.find call.tuple =
      some { u with bytesUsed := r.store.index.projected u (call.row id) } := by
    have tuple : call.tuple = (call.row id).tuple := rfl
    simp only [BlobIndex.insertRow, BlobIndex.deleteRow, Usage.find_charge, find_refund, found,
      Option.map_some, if_pos tuple, refunded]
    rfl
  exact ⟨_, charged, fits⟩

theorem Inv.law_iff (op : BlobOp) :
    r.Law op ↔ ∀ call, op = .write call → ¬ r.store.LeavesFile call := by
  have stored := (inv.apply op).toStored
  have ends := fun call => BlobStore.write_end inv.minted call
  constructor
  · rintro law call rfl leaves
    have atomic := law.atomic call
    rcases ends call with ⟨refused, _⟩ | last
    · exact refused leaves.1
    · generalize r.store.write call = result at atomic last
      obtain ⟨t, result⟩ := result
      cases last with
      | failed clean _ => exact clean leaves
      | left path data _ index named files _ =>
          have kept := congrFun (atomic _ rfl rfl).2 path
          dsimp only at files kept
          rw [files, Files.put_same] at kept
          have minted := inv.minted.files path (by rw [← kept]; nofun)
          exact mintBlobId_fresh _ _ _ (named ▸ minted)
      | stored clean _ _ _ _ _ => exact clean leaves
  · intro clean
    refine ⟨stored, ?_, ?_⟩
    · rintro call id rfl done
      rcases ends call with ⟨_, err, refused⟩ | last
      · rw [refused] at done
        cases done
      · generalize r.store.write call = result at last done
        obtain ⟨t, result⟩ := result
        dsimp only at done
        subst done
        cases last with
        | stored _ found fits index _ _ =>
            rw [index]
            exact inv.quota found fits
    · rintro call err rfl failed
      rcases ends call with ⟨_, err, refused⟩ | last
      · rw [refused]
        exact ⟨rfl, rfl⟩
      · generalize r.store.write call = result at last failed
        obtain ⟨t, result⟩ := result
        dsimp only at failed
        subst failed
        cases last with
        | failed _ after => exact ⟨after.index, after.files⟩
        | left _ _ leaves => exact absurd leaves (clean call rfl)

end

theorem Inv.run (blobsRoot : Bool) (seed : Nat) (ops : List BlobOp) :
    (run blobsRoot seed ops).Inv := by
  induction ops using List.reverseRecOn with
  | nil =>
      exact {
        ids := .nil
        files := nofun
        used := .nil (by simp [Usage.find, BlobRun.run, BlobStore.new])
        minted := ⟨nofun, fun path present => absurd rfl present⟩
        writes := nofun
        keys := .nil
        paths := .nil }
  | append_singleton ops op ih =>
      rw [BlobRun.run, List.foldl_concat]
      exact ih.apply op

end BlobRun

open BlobRun in
theorem blob_write_atomic_iff (blobsRoot : Bool) (idCounterSeed : Nat) (ops : List BlobOp) :
    (∀ before op, before ++ [op] <+: ops → (run blobsRoot idCounterSeed before).Law op) ↔
      ∀ before call, before ++ [.write call] <+: ops →
        ¬ (run blobsRoot idCounterSeed before).store.LeavesFile call := by
  constructor
  · intro laws before call within
    exact ((Inv.run blobsRoot idCounterSeed before).law_iff _).mp (laws before _ within) call rfl
  · intro clean before op within
    refine ((Inv.run blobsRoot idCounterSeed before).law_iff op).mpr ?_
    rintro call rfl
    exact clean before call within

def unsyncedWrite : WriteCall :=
  ⟨"hue", "lamp", "icon", [7], none, 0, 0, 0, some .fsyncInstanceDir⟩

open BlobRun in
theorem unsynced_rename_leaves_file : ¬ ∀ blobsRoot seed ops before op, before ++ [op] <+: ops →
    (run blobsRoot seed before).Law op := by
  intro laws
  let registered : List BlobOp := [.registerInstance "hue" "lamp" 10]
  have law := laws true 0 (registered ++ [.write unsyncedWrite]) registered (.write unsyncedWrite)
    List.prefix_rfl
  refine ((Inv.run true 0 registered).law_iff _).mp law unsyncedWrite rfl ⟨?_, ?_⟩
  · decide
  · exact Or.inr (Or.inr ⟨rfl, ⟨"hue", "lamp", 0, 10⟩, rfl, by decide⟩)

end OxidHome.Storage

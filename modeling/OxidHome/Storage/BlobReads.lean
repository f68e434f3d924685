import OxidHome.Storage.BlobTraffic

/-!
# What a read sees

A row's file stays until the write or the delete that removed the row has cleaned up. `read_with_info`
opens the file while the row is there. `read` and `read_by_name` open it later, and fail exactly when
the cleanup comes first.
-/

namespace OxidHome.Storage
open Wit Library

namespace BlobTraffic

def Sound (s : BlobTraffic) (call : ReadCall) : ReadResult → Prop
  | .ok (info, bytes) => ∃ index ∈ s.during, ∃ row ∈ index.blob, call.selects row = true ∧
      info = call.infoOf row ∧ ∃ w ∈ s.writes, w.row = row ∧ bytes = w.call.data
  | .error (.notFound what) => what = call.what ∧
      ∃ index ∈ s.during, ∀ row ∈ index.blob, call.selects row = false
  | .error (.tooLarge what sizeBytes cap) => ∃ index ∈ s.during, ∃ row ∈ index.blob,
      call.selects row = true ∧ call.exceeds (call.infoOf row) = some (.tooLarge what sizeBytes cap)
  | .error err => s.checkRead call = some err

def Torn (s : BlobTraffic) : Prop :=
  ∃ call result, s.reader = .finished call result ∧ ¬ s.Sound call result

/-- The reader opens a file that is already cleaned up. -/
def LateOpen (s : BlobTraffic) (a : TrafficAction) : Prop :=
  a = .read ∧ ∃ call row, s.reader = .found call row ∧ row.path ∈ s.unlinked

/-! ## Ids and files that are settled -/

def Settled (s : BlobTraffic) (id : String) : Prop :=
  MintedBelow s.store.idCounter id ∧ ∀ k w, s.writers k = some w → w.id = id → ¬ w.pending

def Doomed (s : BlobTraffic) (path : BlobPath) : Prop :=
  path ∈ s.unlinked ∨ path ∈ s.unlinks ∨ ∃ k w, s.writers k = some w ∧ w.cleanup = some path

structure Inv (s : BlobTraffic) : Prop where
  writers : ∀ k w, s.writers k = some w →
    k < s.store.idCounter ∧ w.id = mintBlobId w.call.ms k w.call.nanos
  staged : ∀ k w, s.writers k = some w → w.phase = .written ∨ w.phase = .synced →
    s.store.files w.tmpPath = some w.call.data
  writes : ∀ w ∈ s.writes, s.Settled w.id ∧
    (w.row.path ∈ s.unlinked ∨ s.store.files w.row.path = some w.call.data)
  rows : ∀ row ∈ s.store.index.blob, (∃ w ∈ s.writes, w.row = row) ∧ ¬ s.Doomed row.path
  doomed : ∀ path, s.Doomed path → s.Settled path.id
  gone : ∀ path ∈ s.unlinked, s.store.files path = none
  paths : (s.store.index.blob.map BlobRow.path).Nodup

def Reading (s : BlobTraffic) : Prop :=
  match s.reader with
  | .waiting _ => s.store.index ∈ s.during
  | .found call row => call.infoOf row = none ∧
      ∃ index ∈ s.during, row ∈ index.blob ∧ call.selects row = true ∧ ∃ w ∈ s.writes, w.row = row
  | .opened call info bytes => s.Sound call (.ok (info, bytes))
  | _ => True

/-! ## What a step may change -/

structure Change (s t : BlobTraffic) : Prop where
  counter : s.store.idCounter ≤ t.store.idCounter
  settled : ∀ id, s.Settled id → t.Settled id
  writers : ∀ k w, t.writers k = some w →
    k < t.store.idCounter ∧ w.id = mintBlobId w.call.ms k w.call.nanos
  staged : ∀ k w, t.writers k = some w → w.phase = .written ∨ w.phase = .synced →
    t.store.files w.tmpPath = some w.call.data
  kept : ∀ w ∈ s.writes, w ∈ t.writes
  writes : ∀ w ∈ t.writes, w ∈ s.writes ∨
    (t.Settled w.id ∧ t.store.files w.row.path = some w.call.data)
  files : ∀ w ∈ s.writes, w.row.path ∈ t.unlinked ∨
    (w.row.path ∉ s.unlinked ∧ t.store.files w.row.path = s.store.files w.row.path)
  rows : ∀ row ∈ t.store.index.blob, row ∈ s.store.index.blob ∨
    ((∃ w ∈ t.writes, w.row = row) ∧ ¬ t.Doomed row.path)
  doomed : ∀ path, t.Doomed path → s.Doomed path ∨
    (t.Settled path.id ∧ ∀ row ∈ s.store.index.blob, row ∈ t.store.index.blob → row.path ≠ path)
  gone : ∀ path ∈ t.unlinked, t.store.files path = none
  paths : (t.store.index.blob.map BlobRow.path).Nodup

variable {s t : BlobTraffic}

theorem Inv.change (inv : s.Inv) (change : Change s t) : t.Inv where
  writers := change.writers
  staged := change.staged
  writes := by
    intro w mem
    rcases change.writes w mem with old | new
    · have before := inv.writes w old
      refine ⟨change.settled _ before.1, ?_⟩
      rcases change.files w old with gone | ⟨there, same⟩
      · exact Or.inl gone
      · rw [same]
        exact Or.inr (before.2.resolve_left there)
    · exact ⟨new.1, Or.inr new.2⟩
  rows := by
    intro row mem
    rcases change.rows row mem with old | new
    · obtain ⟨⟨w, written, same⟩, clear⟩ := inv.rows row old
      refine ⟨⟨w, change.kept w written, same⟩, ?_⟩
      intro doomed
      rcases change.doomed _ doomed with before | ⟨_, apart⟩
      · exact clear before
      · exact apart row old mem rfl
    · exact new
  doomed := by
    intro path doomed
    rcases change.doomed path doomed with before | ⟨settled, _⟩
    · exact change.settled _ (inv.doomed path before)
    · exact settled
  gone := change.gone
  paths := change.paths

theorem pending_unsettled {k : Nat} {w : Writer} (here : s.writers k = some w)
    (pending : w.pending) : ¬ s.Settled w.id :=
  fun settled => settled.2 k w here rfl pending

theorem cleanup_pending {w : Writer} (pending : w.pending) : w.cleanup = none := by
  unfold Writer.cleanup
  split
  · rename_i phase
    exact absurd phase (pending _)
  · rename_i phase
    exact absurd phase (pending _)
  · rename_i phase
    exact absurd phase (pending _)
  · rfl

theorem settled_setWriter {k : Nat} {w : Writer} (here : s.writers k = some w)
    {next : Option Writer} (back : ∀ w' ∈ next, w'.id = w.id ∧ (w'.pending → w.pending))
    {store : BlobStore} (counter : s.store.idCounter ≤ store.idCounter) {id : String}
    (settled : s.Settled id) : ((s.setWriter k next).moved store).Settled id := by
  refine ⟨settled.1.mono counter, ?_⟩
  intro k' w' there named pending
  by_cases mine : k' = k
  · subst mine
    have new : next = some w' := by simpa [moved, setWriter] using there
    exact settled.2 k' w here ((back w' new).1.symm.trans named) ((back w' new).2 pending)
  · have old : s.writers k' = some w' := by simpa [moved, setWriter, mine] using there
    exact settled.2 k' w' old named pending

section
variable (inv : s.Inv)
include inv

theorem Inv.row_settled {row : BlobRow} (mem : row ∈ s.store.index.blob) : s.Settled row.id := by
  obtain ⟨⟨w, written, same⟩, _⟩ := inv.rows row mem
  rw [← same]
  exact (inv.writes w written).1

theorem Inv.counter_eq {k k' : Nat} {w w' : Writer} (here : s.writers k = some w)
    (there : s.writers k' = some w') (same : w.id = w'.id) : k = k' := by
  rw [(inv.writers k w here).2, (inv.writers k' w' there).2] at same
  exact mintBlobId_counter same

theorem Inv.staging {k : Nat} {w : Writer} (here : s.writers k = some w) (pending : w.pending)
    {next : Option Writer} {store : BlobStore} (index : store.index = s.store.index)
    (counter : store.idCounter = s.store.idCounter)
    (files : ∀ path, path ≠ w.tmpPath → store.files path = s.store.files path)
    (after : ∀ w' ∈ next, w'.call = w.call ∧ w'.id = w.id ∧ w'.pending ∧
      (w'.phase = .written ∨ w'.phase = .synced → store.files w.tmpPath = some w.call.data)) :
    ((s.setWriter k next).moved store).Inv := by
  have each : ∀ k' w', ((s.setWriter k next).moved store).writers k' = some w' →
      (k' = k ∧ next = some w') ∨ (k' ≠ k ∧ s.writers k' = some w') := by
    intro k' w' there
    by_cases mine : k' = k
    · subst mine
      exact Or.inl ⟨rfl, by simpa [moved, setWriter] using there⟩
    · exact Or.inr ⟨mine, by simpa [moved, setWriter, mine] using there⟩
  apply inv.change
  refine {
    counter := counter.ge
    settled := fun id => settled_setWriter here
      (fun w' new => ⟨(after w' new).2.1, fun _ => pending⟩) counter.ge
    writers := ?writers, staged := ?staged
    kept := fun _ => id, writes := fun _ => Or.inl
    files := ?files, rows := ?rows, doomed := ?doomed, gone := ?gone, paths := ?paths }
  case gone =>
    intro path gone
    refine (files path ?_).trans (inv.gone path gone)
    rintro rfl
    exact pending_unsettled here pending (inv.doomed _ (Or.inl gone))
  case writers =>
    intro k' w' there
    change k' < store.idCounter ∧ _
    rw [counter]
    rcases each k' w' there with ⟨rfl, new⟩ | ⟨_, old⟩
    · rw [(after w' new).1, (after w' new).2.1]
      exact inv.writers k' w here
    · exact inv.writers k' w' old
  case staged =>
    intro k' w' there phase
    change store.files w'.tmpPath = _
    rcases each k' w' there with ⟨rfl, new⟩ | ⟨other, old⟩
    · have data := (after w' new).2.2.2 phase
      rw [Writer.tmpPath] at data ⊢
      rw [(after w' new).1, (after w' new).2.1, data]
    · rw [files, inv.staged k' w' old phase]
      intro same
      exact other (inv.counter_eq old here (congrArg BlobPath.id same))
  case files =>
    intro w' _
    by_cases gone : w'.row.path ∈ s.unlinked
    · exact Or.inl gone
    · refine Or.inr ⟨gone, files _ ?_⟩
      intro same
      exact Bool.noConfusion (congrArg BlobPath.staged same)
  case rows =>
    intro row mem
    exact Or.inl (index ▸ mem)
  case doomed =>
    intro path doomed
    left
    rcases doomed with gone | going | ⟨k', w', there, cleanup⟩
    · exact Or.inl gone
    · exact Or.inr (Or.inl going)
    · rcases each k' w' there with ⟨_, new⟩ | ⟨_, old⟩
      · rw [cleanup_pending (after w' new).2.2.1] at cleanup
        cases cleanup
      · exact Or.inr (Or.inr ⟨k', w', old, cleanup⟩)
  case paths =>
    change (store.index.blob.map BlobRow.path).Nodup
    rw [index]
    exact inv.paths

end

end BlobTraffic

/-! ## The transaction -/

theorem replaceRow_result (index : BlobIndex) (row : BlobRow) :
    index.replaceRow row =
        .ok ((index.deleteRow row.installationUuid row.instanceId row.name).insertRow row,
          index.row? row.installationUuid row.instanceId row.name) ∨
      ∃ err, index.replaceRow row = .error err ∧ ∀ path, err ≠ .commitFailedAfterRename path := by
  unfold BlobIndex.replaceRow
  cases index.usage.find row.tuple with
  | none => exact Or.inr ⟨_, rfl, nofun⟩
  | some u =>
      dsimp only
      split
      · exact Or.inr ⟨_, rfl, nofun⟩
      · split
        · exact Or.inr ⟨_, rfl, nofun⟩
        · exact Or.inl rfl

structure Transacted (s t : BlobStore) (row : BlobRow) (tmpPath : BlobPath)
    (outcome : Except BlobError BlobStore.WriteOutcome) : Prop where
  idCounter : t.idCounter = s.idCounter
  blobsRoot : t.blobsRoot = s.blobsRoot
  files : ∀ path, path ≠ row.path → path ≠ tmpPath → t.files path = s.files path
  failed : ∀ err, outcome = .error err → t.index = s.index ∧
    ∀ path, err = .commitFailedAfterRename path → path = row.path
  done : ∀ result, outcome = .ok result → t.files row.path = s.files tmpPath ∧
    t.index = (s.index.deleteRow row.installationUuid row.instanceId row.name).insertRow row ∧
    result.oldFile = (s.index.row? row.installationUuid row.instanceId row.name).map BlobRow.path

theorem writeTransaction_spec (s : BlobStore) (row : BlobRow) (tmpPath : BlobPath)
    (fault : Option WriteFault) :
    Transacted s (s.writeTransaction row tmpPath fault).1 row tmpPath
      (s.writeTransaction row tmpPath fault).2 := by
  have same : ∀ err : BlobError, (∀ path, err ≠ .commitFailedAfterRename path) →
      Transacted s s row tmpPath (.error err) := by
    intro err plain
    refine ⟨rfl, rfl, fun _ _ _ => rfl, ?_, (by simp)⟩
    intro err' eq
    cases eq
    exact ⟨rfl, fun path bad => absurd bad (plain path)⟩
  have renamed : ∀ path, path ≠ row.path → path ≠ tmpPath →
      s.files.rename tmpPath row.path path = s.files path := by
    intro path notFinal notTmp
    simp [Files.rename, notFinal, notTmp]
  have moved : ∀ err : BlobError, (∀ path, err = .commitFailedAfterRename path → path = row.path) →
      Transacted s { s with files := s.files.rename tmpPath row.path } row tmpPath (.error err) := by
    intro err own
    refine ⟨rfl, rfl, renamed, ?_, (by simp)⟩
    intro err' eq
    cases eq
    exact ⟨rfl, own⟩
  unfold BlobStore.writeTransaction
  split
  · exact same .sql (by simp)
  · rcases replaceRow_result s.index row with replaced | ⟨err, refused, plain⟩
    · rw [replaced]
      dsimp only
      split
      · exact same .io (by simp)
      · split
        · exact moved .io (by simp)
        · split
          · refine moved (.commitFailedAfterRename row.path) ?_
            intro path eq
            cases eq
            rfl
          · refine ⟨rfl, rfl, renamed, (by simp), ?_⟩
            intro result eq
            cases eq
            exact ⟨if_pos rfl, rfl, rfl⟩
    · rw [refused]
      exact same err plain

namespace BlobTraffic
variable {s : BlobTraffic}

section
variable (inv : s.Inv)
include inv

theorem Inv.committing {k : Nat} {w : Writer} (here : s.writers k = some w) (pending : w.pending)
    {store : BlobStore} {outcome : Except BlobError BlobStore.WriteOutcome}
    (spec : Transacted s.store store w.row w.tmpPath outcome) {writes : List BlobWrite}
    (kept : ∀ v ∈ s.writes, v ∈ writes)
    (new : ∀ v ∈ writes, v ∈ s.writes ∨
      (v = ⟨w.call, w.id⟩ ∧ store.files w.row.path = some w.call.data))
    (cleanup : ∀ path, Writer.cleanup { w with phase := .committed outcome } = some path →
      path.id = w.id ∨ (s.Settled path.id ∧
        ∀ row ∈ s.store.index.blob, row ∈ store.index.blob → row.path ≠ path))
    (rows : ∀ row ∈ store.index.blob, row ∈ s.store.index.blob ∨
      (row = w.row ∧ ⟨w.call, w.id⟩ ∈ writes ∧
        ∀ path, Writer.cleanup { w with phase := .committed outcome } = some path →
          s.Settled path.id))
    (paths : (store.index.blob.map BlobRow.path).Nodup) :
    Inv { (s.setWriter k (some { w with phase := .committed outcome })).moved store with
      writes := writes } := by
  set t : BlobTraffic := (s.setWriter k (some { w with phase := .committed outcome })).moved store
    with t_def
  have unsettled := pending_unsettled here pending
  have counter : s.store.idCounter ≤ store.idCounter := spec.idCounter.ge
  have each : ∀ k' w', t.writers k' = some w' →
      (k' = k ∧ { w with phase := .committed outcome } = w') ∨ (k' ≠ k ∧ s.writers k' = some w') := by
    intro k' w' there
    by_cases mine : k' = k
    · subst mine
      exact Or.inl ⟨rfl, by simpa [t_def, moved, setWriter] using there⟩
    · exact Or.inr ⟨mine, by simpa [t_def, moved, setWriter, mine] using there⟩
  have settled : ∀ id, s.Settled id → t.Settled id := by
    intro id
    refine settled_setWriter here ?_ counter
    intro w' new
    cases new
    exact ⟨rfl, fun late => absurd rfl (late outcome)⟩
  have mine : t.Settled w.id := by
    refine ⟨?_, ?_⟩
    · obtain ⟨below, named⟩ := inv.writers k w here
      exact ⟨_, k, _, below.trans_le counter, named⟩
    · intro k' w' there named late
      rcases each k' w' there with ⟨_, rfl⟩ | ⟨other, old⟩
      · exact late outcome rfl
      · exact other (inv.counter_eq old here named)
  have doomed : ∀ path, t.Doomed path → s.Doomed path ∨
      Writer.cleanup { w with phase := .committed outcome } = some path := by
    intro path doomed
    rcases doomed with gone | going | ⟨k', w', there, going⟩
    · exact Or.inl (Or.inl gone)
    · exact Or.inl (Or.inr (Or.inl going))
    · rcases each k' w' there with ⟨_, rfl⟩ | ⟨_, old⟩
      · exact Or.inr going
      · exact Or.inl (Or.inr (Or.inr ⟨k', w', old, going⟩))
  apply inv.change
  refine {
    counter := counter, settled := settled, writers := ?writers, staged := ?staged, kept := kept
    writes := ?writes, files := ?files, rows := ?rows, doomed := ?doomed, gone := ?gone
    paths := paths }
  case gone =>
    intro path gone
    have before := inv.doomed path (Or.inl gone)
    refine (spec.files path ?_ ?_).trans (inv.gone path gone)
    · rintro rfl
      exact unsettled before
    · rintro rfl
      exact unsettled before
  case writers =>
    intro k' w' there
    change k' < store.idCounter ∧ _
    rw [spec.idCounter]
    rcases each k' w' there with ⟨rfl, rfl⟩ | ⟨_, old⟩
    · exact inv.writers k' w here
    · exact inv.writers k' w' old
  case staged =>
    intro k' w' there phase
    rcases each k' w' there with ⟨rfl, rfl⟩ | ⟨other, old⟩
    · rcases phase with phase | phase <;> cases phase
    · refine (spec.files _ ?_ ?_).trans (inv.staged k' w' old phase)
      · intro same
        exact Bool.noConfusion (congrArg BlobPath.staged same)
      · intro same
        exact other (inv.counter_eq old here (congrArg BlobPath.id same))
  case writes =>
    intro v mem
    rcases new v mem with old | ⟨rfl, data⟩
    · exact Or.inl old
    · exact Or.inr ⟨mine, data⟩
  case files =>
    intro v mem
    by_cases gone : v.row.path ∈ s.unlinked
    · exact Or.inl gone
    · refine Or.inr ⟨gone, spec.files _ ?_ ?_⟩
      · intro same
        have taken : v.id = w.id := congrArg BlobPath.id same
        exact unsettled (taken ▸ (inv.writes v mem).1)
      · intro same
        exact Bool.noConfusion (congrArg BlobPath.staged same)
  case rows =>
    intro row mem
    rcases rows row mem with old | ⟨rfl, written, clear⟩
    · exact Or.inl old
    · refine Or.inr ⟨⟨_, written, rfl⟩, ?_⟩
      intro bad
      rcases doomed _ bad with before | going
      · exact unsettled (inv.doomed _ before)
      · exact unsettled (clear _ going)
  case doomed =>
    intro path bad
    rcases doomed path bad with before | going
    · exact Or.inl before
    · right
      rcases cleanup path going with own | ⟨old, apart⟩
      · refine ⟨own ▸ mine, ?_⟩
        intro row mem _ same
        have taken : row.id = w.id := (congrArg BlobPath.id same).trans own
        exact unsettled (taken ▸ inv.row_settled mem)
      · exact ⟨settled _ old, apart⟩

omit inv in
theorem mem_replaced {index : BlobIndex} {row other : BlobRow}
    (mem : other ∈ ((index.deleteRow row.installationUuid row.instanceId row.name).insertRow row).blob) :
    (other ∈ index.blob ∧ other.primaryKey ≠ row.primaryKey) ∨ other = row := by
  rcases List.mem_append.mp mem with mem | mem
  · have apart : other.primaryKey ≠ (row.installationUuid, row.instanceId, row.name) := by
      simpa using List.of_mem_filter mem
    exact Or.inl ⟨List.mem_of_mem_filter mem, apart⟩
  · exact Or.inr (List.mem_singleton.mp mem)

theorem Inv.commit {k : Nat} {w : Writer} (here : s.writers k = some w) (phase : w.phase = .synced) :
    (s.commit k w).Inv := by
  have pending : w.pending := fun outcome committed => by
    rw [phase] at committed
    cases committed
  have data := inv.staged k w here (Or.inr phase)
  have unsettled := pending_unsettled here pending
  have spec := writeTransaction_spec s.store w.row w.tmpPath w.call.fault
  unfold BlobTraffic.commit
  generalize s.store.writeTransaction w.row w.tmpPath w.call.fault = last at spec
  obtain ⟨store, outcome⟩ := last
  cases outcome with
  | error err =>
      obtain ⟨index, orphan⟩ := spec.failed err rfl
      dsimp only at index spec ⊢
      apply inv.committing here pending spec (fun _ => id) (fun _ => Or.inl)
      · intro path cleanup
        left
        unfold Writer.cleanup at cleanup
        split at cleanup
        · rename_i committed
          cases committed
        · rename_i committed
          cases committed
          cases cleanup
          rw [orphan _ rfl]
          rfl
        · cases cleanup
          rfl
        · cases cleanup
      · intro row mem
        exact Or.inl (index ▸ mem)
      · rw [index]
        exact inv.paths
  | ok result =>
      obtain ⟨renamed, index, oldFile⟩ := spec.done result rfl
      dsimp only at renamed index spec ⊢
      have old : ∀ path, result.oldFile = some path → ∃ row ∈ s.store.index.blob,
          row.path = path ∧ row.primaryKey = w.row.primaryKey := by
        intro path eq
        rw [oldFile, Option.map_eq_some_iff] at eq
        obtain ⟨row, found, rfl⟩ := eq
        have key : row.primaryKey = (w.row.installationUuid, w.row.instanceId, w.row.name) := by
          simpa using List.find?_some found
        exact ⟨row, List.mem_of_find?_eq_some found, rfl, key⟩
      apply inv.committing here pending spec
      · intro v mem
        exact List.mem_cons_of_mem _ mem
      · intro v mem
        rcases List.mem_cons.mp mem with rfl | mem
        · exact Or.inr ⟨rfl, renamed.trans data⟩
        · exact Or.inl mem
      · intro path cleanup
        obtain ⟨row, mem, rfl, key⟩ := old path cleanup
        refine Or.inr ⟨inv.row_settled mem, ?_⟩
        intro other there after same
        rw [index] at after
        rcases mem_replaced after with ⟨_, apart⟩ | rfl
        · rw [List.inj_on_of_nodup_map inv.paths there mem same] at apart
          exact apart key
        · exact unsettled (inv.row_settled there)
      · intro row mem
        rw [index] at mem
        rcases mem_replaced mem with ⟨there, _⟩ | rfl
        · exact Or.inl there
        · refine Or.inr ⟨rfl, List.mem_cons_self, ?_⟩
          intro path cleanup
          obtain ⟨row, mem, rfl, _⟩ := old path cleanup
          exact inv.row_settled mem
      · rw [index]
        simp only [BlobIndex.insertRow, List.map_append, List.map_cons, List.map_nil]
        rw [List.nodup_append]
        refine ⟨inv.paths.sublist (List.filter_sublist.map _), List.nodup_singleton _, ?_⟩
        intro path mem other single same
        obtain ⟨row, kept, rfl⟩ := List.mem_map.mp mem
        rw [List.mem_singleton.mp single] at same
        have taken : row.id = w.id := congrArg BlobPath.id same
        exact unsettled (taken ▸ inv.row_settled (List.mem_of_mem_filter kept))

omit inv in
theorem finalize_store (s : BlobStore) (w : Writer)
    {outcome : Except BlobError BlobStore.WriteOutcome} (phase : w.phase = .committed outcome) :
    ((s.finalizeWriteOutcome outcome w.id w.tmpPath).1 = s ∧ w.cleanup = none) ∨
      ∃ path, w.cleanup = some path ∧
        (s.finalizeWriteOutcome outcome w.id w.tmpPath).1 = { s with files := s.files.unlink path } := by
  unfold Writer.cleanup
  rw [phase]
  rcases outcome with err | ⟨_ | path⟩
  · cases err with
    | commitFailedAfterRename orphan => exact Or.inr ⟨orphan, rfl, rfl⟩
    | _ => exact Or.inr ⟨w.tmpPath, rfl, rfl⟩
  · exact Or.inl ⟨rfl, rfl⟩
  · exact Or.inr ⟨path, rfl, rfl⟩

theorem Inv.unlinking {t : BlobTraffic} (index : t.store.index = s.store.index)
    (counter : t.store.idCounter = s.store.idCounter) (writes : t.writes = s.writes)
    (writers : ∀ k w, t.writers k = some w → s.writers k = some w)
    (gone : ∀ path ∈ s.unlinked, path ∈ t.unlinked)
    (doomed : ∀ path, t.Doomed path → s.Doomed path)
    (files : ∀ path,
      (t.store.files path = s.store.files path ∧ (path ∈ t.unlinked → path ∈ s.unlinked)) ∨
      (s.Doomed path ∧ path ∈ t.unlinked ∧ t.store.files path = none)) : t.Inv := by
  have settled : ∀ id, s.Settled id → t.Settled id := by
    intro id before
    refine ⟨before.1.mono counter.ge, ?_⟩
    intro k w there
    exact before.2 k w (writers k w there)
  apply inv.change
  refine {
    counter := counter.ge, settled := settled, writers := ?writers, staged := ?staged
    kept := fun v mem => writes ▸ mem, writes := fun v mem => Or.inl (writes ▸ mem), files := ?files
    rows := fun row mem => Or.inl (index ▸ mem), doomed := fun path bad => Or.inl (doomed path bad)
    gone := ?gone, paths := ?paths }
  case gone =>
    intro path now
    rcases files path with ⟨same, before⟩ | ⟨_, _, none⟩
    · rw [same]
      exact inv.gone path (before now)
    · exact none
  case writers =>
    intro k w there
    rw [counter]
    exact inv.writers k w (writers k w there)
  case staged =>
    intro k w there phase
    have before := inv.staged k w (writers k w there) phase
    rcases files w.tmpPath with ⟨same, _⟩ | ⟨bad, _⟩
    · rw [same, before]
    · have pending : w.pending := fun outcome committed => by
        rcases phase with phase | phase <;> cases phase.symm.trans committed
      exact absurd (inv.doomed _ bad) (pending_unsettled (writers k w there) pending)
  case files =>
    intro v mem
    by_cases there : v.row.path ∈ s.unlinked
    · exact Or.inl (gone _ there)
    · rcases files v.row.path with ⟨same, _⟩ | ⟨_, now, _⟩
      · exact Or.inr ⟨there, same⟩
      · exact Or.inl now
  case paths =>
    rw [index]
    exact inv.paths

theorem Inv.finalize {k : Nat} {w : Writer} (here : s.writers k = some w)
    {outcome : Except BlobError BlobStore.WriteOutcome} (phase : w.phase = .committed outcome) :
    (s.finalize k w outcome).Inv := by
  have others : ∀ k' w', (s.finalize k w outcome).writers k' = some w' → s.writers k' = some w' := by
    intro k' w' there
    change Function.update s.writers k none k' = some w' at there
    by_cases mine : k' = k
    · subst mine
      simp at there
    · simpa [mine] using there
  have own : ∀ path ∈ w.cleanup.toList, s.Doomed path := by
    intro path mem
    exact Or.inr (Or.inr ⟨k, w, here, Option.mem_toList.mp mem⟩)
  have doomed : ∀ path, (s.finalize k w outcome).Doomed path → s.Doomed path := by
    intro path bad
    rcases bad with gone | going | ⟨k', w', there, cleanup⟩
    · rcases List.mem_append.mp gone with now | before
      · exact own path now
      · exact Or.inl before
    · exact Or.inr (Or.inl going)
    · exact Or.inr (Or.inr ⟨k', w', others k' w' there, cleanup⟩)
  have gone : ∀ path ∈ s.unlinked, path ∈ (s.finalize k w outcome).unlinked :=
    fun path mem => List.mem_append_right _ mem
  rcases finalize_store s.store w phase with ⟨same, none⟩ | ⟨path, cleanup, unlinked⟩
  · have store : (s.finalize k w outcome).store = s.store := same
    exact inv.unlinking (by rw [store]) (by rw [store]) rfl others gone doomed
      fun p => Or.inl ⟨by rw [store], fun mem => by
        change p ∈ w.cleanup.toList ++ s.unlinked at mem
        rwa [none] at mem⟩
  · have store : (s.finalize k w outcome).store =
        { s.store with files := s.store.files.unlink path } := unlinked
    refine inv.unlinking (by rw [store]) (by rw [store]) rfl others gone doomed ?_
    intro p
    by_cases here : p = path
    · subst here
      have mem : p ∈ w.cleanup.toList := Option.mem_toList.mpr cleanup
      refine Or.inr ⟨own p mem, List.mem_append_left _ mem, ?_⟩
      rw [store]
      exact if_pos rfl
    · refine Or.inl ⟨?_, fun mem => ?_⟩
      · rw [store]
        exact Files.unlink_other here
      · rcases List.mem_append.mp mem with now | before
        · rw [cleanup, Option.mem_toList] at now
          exact absurd (Option.some.inj now).symm here
        · exact before

theorem Inv.unlink {path : BlobPath} (mem : path ∈ s.unlinks) : (s.unlink path).Inv := by
  refine inv.unlinking rfl rfl rfl (fun _ _ => id) (fun _ => List.mem_cons_of_mem _) ?_ ?_
  · intro p bad
    rcases bad with gone | going | pending
    · rcases List.mem_cons.mp gone with rfl | gone
      · exact Or.inr (Or.inl mem)
      · exact Or.inl gone
    · exact Or.inr (Or.inl (List.mem_of_mem_erase going))
    · exact Or.inr (Or.inr pending)
  · intro p
    by_cases here : p = path
    · subst here
      exact Or.inr ⟨Or.inr (Or.inl mem), List.mem_cons_self, if_pos rfl⟩
    · refine Or.inl ⟨Files.unlink_other here, fun now => ?_⟩
      rcases List.mem_cons.mp now with same | before
      · exact absurd same here
      · exact before

theorem Inv.register (uuid inst : String) (quota : Nat) :
    (s.moved (s.store.registerInstance uuid inst quota).1).Inv := by
  unfold BlobStore.registerInstance
  split
  · exact { inv with }
  · exact { inv with }

theorem Inv.beginWrite (call : WriteCall) : (s.beginWrite call).Inv := by
  unfold BlobTraffic.beginWrite BlobStore.beginWrite
  cases s.store.checkWrite call with
  | some err => exact inv
  | none =>
      have fresh := mintBlobId_fresh call.ms s.store.idCounter call.nanos
      have minted := mintBlobId_minted call.ms s.store.idCounter call.nanos
      dsimp only
      generalize named : mintBlobId call.ms s.store.idCounter call.nanos = id at fresh minted
      set t := (s.setWriter s.store.idCounter (some ⟨call, id, .minted⟩)).moved
        { s.store with idCounter := s.store.idCounter + 1 } with t_def
      have pending : (⟨call, id, .minted⟩ : Writer).pending := nofun
      have each : ∀ k w, t.writers k = some w →
          (k = s.store.idCounter ∧ w = ⟨call, id, .minted⟩) ∨ s.writers k = some w := by
        intro k w there
        change Function.update s.writers s.store.idCounter (some ⟨call, id, .minted⟩) k = some w
          at there
        by_cases mine : k = s.store.idCounter
        · subst mine
          rw [Function.update_self] at there
          cases there
          exact Or.inl ⟨rfl, rfl⟩
        · rw [Function.update_of_ne mine] at there
          exact Or.inr there
      apply inv.change
      refine {
        counter := Nat.le_succ _, settled := ?settled, writers := ?writers, staged := ?staged
        kept := fun _ mem => mem, writes := fun _ => Or.inl, files := ?files
        rows := fun _ => Or.inl, doomed := ?doomed, gone := inv.gone, paths := inv.paths }
      case settled =>
        intro other before
        refine ⟨before.1.mono (Nat.le_succ _), ?_⟩
        intro k w there same
        rcases each k w there with ⟨_, rfl⟩ | old
        · exact absurd before.1 (same ▸ fresh)
        · exact before.2 k w old same
      case writers =>
        intro k w there
        rcases each k w there with ⟨rfl, rfl⟩ | old
        · exact ⟨Nat.lt_succ_self _, named.symm⟩
        · obtain ⟨below, eq⟩ := inv.writers k w old
          exact ⟨Nat.lt_succ_of_lt below, eq⟩
      case staged =>
        intro k w there phase
        rcases each k w there with ⟨_, rfl⟩ | old
        · rcases phase with phase | phase <;> cases phase
        · exact inv.staged k w old phase
      case files =>
        intro v _
        by_cases gone : v.row.path ∈ s.unlinked
        · exact Or.inl gone
        · exact Or.inr ⟨gone, rfl⟩
      case doomed =>
        intro path bad
        left
        rcases bad with gone | going | ⟨k, w, there, cleanup⟩
        · exact Or.inl gone
        · exact Or.inr (Or.inl going)
        · rcases each k w there with ⟨_, rfl⟩ | old
          · cases cleanup
          · exact Or.inr (Or.inr ⟨k, w, old, cleanup⟩)

theorem Inv.advance {k : Nat} {w : Writer} (here : s.writers k = some w) (pending : w.pending)
    (step : BlobStore × Option BlobError) {phase : WritePhase}
    (index : step.1.index = s.store.index) (counter : step.1.idCounter = s.store.idCounter)
    (files : ∀ path, path ≠ w.tmpPath → step.1.files path = s.store.files path)
    (later : ∀ outcome, phase ≠ .committed outcome)
    (data : step.2 = none → phase = .written ∨ phase = .synced →
      step.1.files w.tmpPath = some w.call.data) : (s.advance k w step phase).Inv := by
  obtain ⟨store, err⟩ := step
  cases err with
  | some err => exact inv.staging here pending index counter files nofun
  | none =>
      apply inv.staging here pending index counter files
      intro w' new
      cases new
      exact ⟨rfl, rfl, later, data rfl⟩

theorem Inv.write {k : Nat} {w : Writer} (here : s.writers k = some w) : (s.write k w).Inv := by
  have put : ∀ (data : List UInt8) path, path ≠ w.tmpPath →
      s.store.files.put w.tmpPath data path = s.store.files path := fun data path other =>
    Files.put_other data other
  have running : ∀ phase : WritePhase, (∀ outcome, phase ≠ .committed outcome) → w.phase = phase →
      w.pending := by
    rintro phase running rfl
    exact running
  cases phase : w.phase with
  | committed outcome =>
      simp only [BlobTraffic.write, phase]
      exact inv.finalize here phase
  | synced =>
      simp only [BlobTraffic.write, phase]
      exact inv.commit here phase
  | minted =>
      have pending := running .minted (by simp) phase
      obtain ⟨t, dirs, prepared | ⟨prepared, _⟩⟩ :=
        BlobStore.prepareDirs_cases s.store w.call.tuple w.call.fault
      · simp only [BlobTraffic.write, phase, prepared]
        exact inv.advance here pending _ dirs.index dirs.idCounter
          (fun path _ => congrFun dirs.files path) (by simp) fun _ bad => absurd bad (by simp)
      · simp only [BlobTraffic.write, phase, prepared]
        exact inv.advance here pending _ dirs.index dirs.idCounter
          (fun path _ => congrFun dirs.files path) (by simp) (by simp)
  | dirsMade =>
      have pending := running .dirsMade (by simp) phase
      simp only [BlobTraffic.write, phase, BlobStore.createFile]
      split
      · exact inv.advance here pending _ rfl rfl (fun _ _ => rfl) (by simp) (by simp)
      · exact inv.advance here pending _ rfl rfl (put _) (by simp) fun _ bad => absurd bad (by simp)
  | created =>
      have pending := running .created (by simp) phase
      simp only [BlobTraffic.write, phase, BlobStore.writeAll]
      split
      · exact inv.advance here pending _ rfl rfl (put _) (by simp) (by simp)
      · exact inv.advance here pending _ rfl rfl (put _) (by simp) fun _ _ => Files.put_same _ _
  | written =>
      have pending := running .written (by simp) phase
      simp only [BlobTraffic.write, phase]
      exact inv.advance here pending _ rfl rfl (fun _ _ => rfl) (by simp)
        fun _ _ => inv.staged k w here (Or.inl phase)

theorem Inv.delete (uuid inst name : String) : (s.delete uuid inst name).Inv := by
  unfold BlobTraffic.delete
  cases s.store.checkDelete uuid inst with
  | some err => exact inv
  | none =>
      cases old : s.store.index.row? uuid inst name with
      | none =>
          simp only [BlobStore.deleteTransaction, old]
          exact { inv with }
      | some row =>
          simp only [BlobStore.deleteTransaction, old]
          have there := List.mem_of_find?_eq_some old
          have key : row.primaryKey = (uuid, inst, name) := by simpa using List.find?_some old
          have within : ∀ other ∈ (s.store.index.deleteRow uuid inst name).blob,
              other ∈ s.store.index.blob ∧ other.primaryKey ≠ (uuid, inst, name) := fun other mem =>
            ⟨List.mem_of_mem_filter mem, by simpa using List.of_mem_filter mem⟩
          apply inv.change
          refine {
            counter := le_rfl, settled := fun _ => id, writers := inv.writers, staged := inv.staged
            kept := fun _ => id, writes := fun _ => Or.inl, files := ?files
            rows := fun other mem => Or.inl (within other mem).1, doomed := ?doomed, gone := inv.gone
            paths := inv.paths.sublist (List.filter_sublist.map _) }
          case files =>
            intro v _
            by_cases gone : v.row.path ∈ s.unlinked
            · exact Or.inl gone
            · exact Or.inr ⟨gone, rfl⟩
          case doomed =>
            intro path bad
            rcases bad with gone | going | pending
            · exact Or.inl (Or.inl gone)
            · rcases List.mem_cons.mp going with rfl | going
              · refine Or.inr ⟨inv.row_settled there, ?_⟩
                intro other before after same
                rw [List.inj_on_of_nodup_map inv.paths before there same] at after
                exact (within row after).2 key
              · exact Or.inl (Or.inr (Or.inl going))
            · exact Or.inl (Or.inr (Or.inr pending))

end

/-! ## The reader -/

structure Beside (s t : BlobTraffic) : Prop where
  reader : t.reader = s.reader
  writes : ∀ w ∈ s.writes, w ∈ t.writes
  during : ∀ index ∈ s.during, index ∈ t.during
  index : s.reader.active = true → t.store.index = s.store.index ∨ t.store.index ∈ t.during
  blobsRoot : t.store.blobsRoot = s.store.blobsRoot

theorem Beside.refl : Beside s s :=
  ⟨rfl, fun _ => id, fun _ => id, fun _ => Or.inl rfl, rfl⟩

theorem beside_moved {store : BlobStore} (blobsRoot : store.blobsRoot = s.store.blobsRoot) :
    Beside s (s.moved store) where
  reader := rfl
  writes := fun _ => id
  during := by
    intro index mem
    simp only [moved]
    split
    · exact List.mem_cons_of_mem _ mem
    · exact mem
  index := by
    intro active
    right
    simp only [moved, active, if_true]
    exact List.mem_cons_self
  blobsRoot := blobsRoot

theorem finalize_blobsRoot (s : BlobStore) (outcome : Except BlobError BlobStore.WriteOutcome)
    (id : String) (tmpPath : BlobPath) :
    (s.finalizeWriteOutcome outcome id tmpPath).1.blobsRoot = s.blobsRoot := by
  unfold BlobStore.finalizeWriteOutcome
  split <;> rfl

theorem beside_write {k : Nat} {w : Writer} : Beside s (s.write k w) := by
  have advanced : ∀ (step : BlobStore × Option BlobError) (phase : WritePhase),
      step.1.blobsRoot = s.store.blobsRoot → Beside s (s.advance k w step phase) := by
    rintro ⟨store, _ | err⟩ phase kept
    · exact { beside_moved kept with }
    · exact { beside_moved kept with }
  unfold BlobTraffic.write
  dsimp only
  split
  · apply advanced
    obtain ⟨store, dirs, prepared | ⟨prepared, _⟩⟩ :=
      BlobStore.prepareDirs_cases s.store w.call.tuple w.call.fault
    · rw [prepared]
      exact dirs.blobsRoot
    · rw [prepared]
      exact dirs.blobsRoot
  · apply advanced
    unfold BlobStore.createFile
    split <;> rfl
  · apply advanced
    unfold BlobStore.writeAll
    split <;> rfl
  · exact advanced _ _ rfl
  · have kept := (writeTransaction_spec s.store w.row w.tmpPath w.call.fault).blobsRoot
    unfold BlobTraffic.commit
    generalize s.store.writeTransaction w.row w.tmpPath w.call.fault = last at kept
    obtain ⟨store, outcome⟩ := last
    cases outcome with
    | error err => exact { beside_moved kept with }
    | ok result => exact { beside_moved kept with writes := fun _ => List.mem_cons_of_mem _ }
  · exact { beside_moved (finalize_blobsRoot s.store _ w.id w.tmpPath) with }

theorem Sound.mono (beside : Beside s t) {call : ReadCall} {result : ReadResult}
    (sound : s.Sound call result) : t.Sound call result := by
  have check : t.checkRead call = s.checkRead call := by
    simp only [checkRead, BlobStore.checkDelete, beside.blobsRoot]
  rcases result with err | ⟨info, bytes⟩
  · cases err with
    | notFound what =>
        obtain ⟨same, index, mem, absent⟩ := sound
        exact ⟨same, index, beside.during index mem, absent⟩
    | tooLarge what sizeBytes cap =>
        obtain ⟨index, mem, rest⟩ := sound
        exact ⟨index, beside.during index mem, rest⟩
    | _ => exact check.trans sound
  · obtain ⟨index, mem, row, there, chosen, same, w, written, data⟩ := sound
    exact ⟨index, beside.during index mem, row, there, chosen, same, w, beside.writes w written,
      data⟩

theorem Reading.beside (beside : Beside s t) (reading : s.Reading) : t.Reading := by
  have active := beside.index
  unfold Reading at reading ⊢
  rw [beside.reader]
  cases phase : s.reader with
  | idle => trivial
  | finished => trivial
  | waiting call =>
      rw [phase] at reading active
      rcases active rfl with same | now
      · rw [same]
        exact beside.during _ reading
      · exact now
  | found call row =>
      rw [phase] at reading
      obtain ⟨plain, index, mem, there, chosen, w, written, eq⟩ := reading
      exact ⟨plain, index, beside.during _ mem, there, chosen, w, beside.writes w written, eq⟩
  | opened call info bytes =>
      rw [phase] at reading
      exact Sound.mono beside reading

theorem Torn.beside (beside : Beside s t) (torn : t.Torn) : s.Torn := by
  obtain ⟨call, result, finished, wrong⟩ := torn
  exact ⟨call, result, beside.reader ▸ finished, fun sound => wrong (sound.mono beside)⟩

theorem Inv.step (inv : s.Inv) {a : TrafficAction} (taken : s.step a = some t) : t.Inv := by
  cases a with
  | registerInstance uuid inst quota =>
      cases taken
      exact inv.register uuid inst quota
  | beginWrite call =>
      cases taken
      exact inv.beginWrite call
  | write counter =>
      obtain ⟨w, here, rfl⟩ := Option.map_eq_some_iff.mp taken
      exact inv.write here
  | delete uuid inst name =>
      cases taken
      exact inv.delete uuid inst name
  | unlink path =>
      simp only [BlobTraffic.step, Option.ite_none_right_eq_some, Option.some.injEq] at taken
      obtain ⟨mem, rfl⟩ := taken
      exact inv.unlink mem
  | startRead call =>
      simp only [BlobTraffic.step, Option.ite_none_left_eq_some, Option.some.injEq] at taken
      obtain ⟨_, rfl⟩ := taken
      unfold startRead
      split <;> exact { inv with }
  | read =>
      simp only [BlobTraffic.step] at taken
      split at taken
      · cases taken
        exact { inv with }
      · cases taken
        exact { inv with }
      · cases taken
        exact { inv with }
      · cases taken

theorem sound_refused {call : ReadCall} {err : BlobError} (refused : s.checkRead call = some err) :
    s.Sound call (.error err) := by
  have reasons : (∃ segment, err = .unsafeInstanceId segment) ∨ err = .unavailable := by
    unfold checkRead BlobStore.checkDelete BlobStore.checkSegments at refused
    split at refused
    · rename_i check
      split at check
      · cases check
        cases refused
        exact Or.inl ⟨_, rfl⟩
      · split at check
        · cases check
          cases refused
          exact Or.inl ⟨_, rfl⟩
        · cases check
    · split at refused
      · cases refused
        exact Or.inr rfl
      · cases refused
  rcases reasons with ⟨segment, rfl⟩ | rfl
  · exact refused
  · exact refused

theorem io_unsound (call : ReadCall) : ¬ s.Sound call (.error .io) := by
  intro sound
  change s.checkRead call = some .io at sound
  unfold checkRead BlobStore.checkDelete BlobStore.checkSegments at sound
  split at sound
  · rename_i check
    cases sound
    split at check
    · cases check
    · split at check <;> cases check
  · split at sound <;> cases sound

theorem Inv.file_of_row (inv : s.Inv) {row : BlobRow} (mem : row ∈ s.store.index.blob) :
    ∃ w ∈ s.writes, w.row = row ∧ s.store.files row.path = some w.call.data := by
  obtain ⟨⟨w, written, rfl⟩, clear⟩ := inv.rows row mem
  rcases (inv.writes w written).2 with gone | data
  · exact absurd (Or.inl gone) clear
  · exact ⟨w, written, rfl, data⟩

theorem openFile_row (inv : s.Inv) {call : ReadCall} {row : BlobRow}
    (mem : row ∈ s.store.index.blob) (chosen : call.selects row = true)
    (present : s.store.index ∈ s.during) :
    ∃ bytes, s.openFile call row = .opened call (call.infoOf row) bytes ∧
      s.Sound call (.ok (call.infoOf row, bytes)) := by
  obtain ⟨w, written, eq, data⟩ := inv.file_of_row mem
  refine ⟨w.call.data, ?_, _, present, row, mem, chosen, rfl, w, written, eq, rfl⟩
  simp only [openFile, data]

theorem lookup_sees (inv : s.Inv) {call : ReadCall} (reading : s.Reading)
    (waiting : s.reader = .waiting call) :
    Reading { s with reader := s.lookup call } ∧ ¬ Torn { s with reader := s.lookup call } := by
  rw [Reading, waiting] at reading
  unfold lookup
  cases found : s.store.index.blob.find? call.selects with
  | none =>
      refine ⟨trivial, ?_⟩
      rintro ⟨call', result, finished, wrong⟩
      cases finished
      refine wrong ⟨rfl, _, reading, ?_⟩
      intro row mem
      simpa using List.find?_eq_none.mp found row mem
  | some row =>
      have mem := List.mem_of_find?_eq_some found
      have chosen := List.find?_some found
      obtain ⟨⟨w, written, eq⟩, _⟩ := inv.rows row mem
      cases call with
      | readWithInfo uuid inst name cap =>
          obtain ⟨bytes, opened, sound⟩ := openFile_row inv mem chosen reading
          dsimp only
          rw [opened]
          refine ⟨sound, ?_⟩
          rintro ⟨call', result, finished, _⟩
          cases finished
      | read uuid inst id =>
          refine ⟨⟨rfl, _, reading, mem, chosen, w, written, eq⟩, ?_⟩
          rintro ⟨call', result, finished, _⟩
          cases finished
      | readByName uuid inst name =>
          refine ⟨⟨rfl, _, reading, mem, chosen, w, written, eq⟩, ?_⟩
          rintro ⟨call', result, finished, _⟩
          cases finished

theorem open_sees (inv : s.Inv) {call : ReadCall} {row : BlobRow} (reading : s.Reading)
    (found : s.reader = .found call row) :
    Reading { s with reader := s.openFile call row } ∧
      (Torn { s with reader := s.openFile call row } ↔ row.path ∈ s.unlinked) := by
  rw [Reading, found] at reading
  obtain ⟨plain, index, seen, mem, chosen, w, written, rfl⟩ := reading
  unfold openFile
  rcases (inv.writes w written).2 with gone | data
  · rw [inv.gone _ gone]
    refine ⟨trivial, ?_⟩
    constructor
    · exact fun _ => gone
    · intro _
      exact ⟨call, .error .io, rfl, io_unsound call⟩
  · rw [data]
    refine ⟨⟨index, seen, w.row, mem, chosen, rfl, w, written, rfl, rfl⟩, ?_⟩
    constructor
    · rintro ⟨call', result, finished, _⟩
      cases finished
    · intro gone
      rw [inv.gone _ gone] at data
      cases data

theorem readToEnd_sees {call : ReadCall} {info : Option BlobInfo} {bytes : List UInt8}
    (reading : s.Reading) (opened : s.reader = .opened call info bytes) :
    Reading { s with reader := readToEnd call info bytes } ∧
      ¬ Torn { s with reader := readToEnd call info bytes } := by
  rw [Reading, opened] at reading
  unfold readToEnd
  cases large : call.exceeds info with
  | none =>
      refine ⟨trivial, ?_⟩
      rintro ⟨call', result, finished, wrong⟩
      cases finished
      exact wrong reading
  | some err =>
      refine ⟨trivial, ?_⟩
      rintro ⟨call', result, finished, wrong⟩
      cases finished
      obtain ⟨index, seen, row, mem, chosen, rfl, _⟩ := reading
      have error : ∃ what sizeBytes cap, err = .tooLarge what sizeBytes cap := by
        unfold ReadCall.exceeds at large
        split at large
        · split at large
          · cases large
            exact ⟨_, _, _, rfl⟩
          · cases large
        · cases large
      obtain ⟨what, sizeBytes, cap, rfl⟩ := error
      exact wrong ⟨index, seen, row, mem, chosen, large⟩

theorem step_torn (inv : s.Inv) (reading : s.Reading) {a : TrafficAction}
    (taken : s.step a = some t) : t.Reading ∧ (¬ s.Torn → (t.Torn ↔ s.LateOpen a)) := by
  have environment : Beside s t → a ≠ .read → t.Reading ∧ (¬ s.Torn → (t.Torn ↔ s.LateOpen a)) := by
    intro beside other
    refine ⟨reading.beside beside, fun clear => ?_⟩
    constructor
    · intro torn
      exact absurd (torn.beside beside) clear
    · intro late
      exact absurd late.1 other
  cases a with
  | registerInstance uuid inst quota =>
      cases taken
      refine environment (beside_moved ?_) (by simp)
      unfold BlobStore.registerInstance
      split <;> rfl
  | beginWrite call =>
      cases taken
      refine environment ?_ (by simp)
      unfold BlobTraffic.beginWrite BlobStore.beginWrite
      cases s.store.checkWrite call with
      | some err => exact .refl
      | none => exact { beside_moved rfl with }
  | write counter =>
      obtain ⟨w, here, rfl⟩ := Option.map_eq_some_iff.mp taken
      exact environment beside_write (by simp)
  | delete uuid inst name =>
      cases taken
      refine environment ?_ (by simp)
      unfold BlobTraffic.delete BlobStore.deleteTransaction
      cases s.store.checkDelete uuid inst with
      | some err => exact .refl
      | none =>
          cases s.store.index.row? uuid inst name with
          | none =>
              have base : Beside s (s.moved s.store) := beside_moved rfl
              exact { base with }
          | some row =>
              have base : Beside s (s.moved
                  { s.store with index := s.store.index.deleteRow uuid inst name }) :=
                beside_moved rfl
              exact { base with }
  | unlink path =>
      simp only [BlobTraffic.step, Option.ite_none_right_eq_some, Option.some.injEq] at taken
      obtain ⟨_, rfl⟩ := taken
      have base : Beside s (s.moved { s.store with files := s.store.files.unlink path }) :=
        beside_moved rfl
      exact environment { base with } (by simp)
  | startRead call =>
      simp only [BlobTraffic.step, Option.ite_none_left_eq_some, Option.some.injEq] at taken
      obtain ⟨_, rfl⟩ := taken
      have started : (s.startRead call).Reading ∧ ¬ (s.startRead call).Torn := by
        unfold startRead
        cases refused : s.checkRead call with
        | some err =>
            refine ⟨trivial, ?_⟩
            rintro ⟨call', result, finished, wrong⟩
            cases finished
            exact wrong (sound_refused refused)
        | none =>
            refine ⟨List.mem_singleton_self _, ?_⟩
            rintro ⟨call', result, finished, wrong⟩
            cases finished
      exact ⟨started.1, fun _ => iff_of_false started.2 fun late => by cases late.1⟩
  | read =>
      have early : (∀ call row, s.reader ≠ .found call row) → ¬ s.LateOpen .read := by
        rintro other ⟨_, call, row, found, _⟩
        exact other call row found
      simp only [BlobTraffic.step] at taken
      split at taken
      · rename_i call waiting
        cases taken
        obtain ⟨after, clean⟩ := lookup_sees inv reading waiting
        refine ⟨after, fun _ => iff_of_false clean (early ?_)⟩
        rw [waiting]
        simp
      · rename_i call row found
        cases taken
        obtain ⟨after, torn⟩ := open_sees inv reading found
        refine ⟨after, fun _ => torn.trans ?_⟩
        constructor
        · intro gone
          exact ⟨rfl, call, row, found, gone⟩
        · rintro ⟨_, call', row', found', gone⟩
          rw [found] at found'
          cases found'
          exact gone
      · rename_i call info bytes opened
        cases taken
        obtain ⟨after, clean⟩ := readToEnd_sees reading opened
        refine ⟨after, fun _ => iff_of_false clean (early ?_)⟩
        rw [opened]
        simp
      · cases taken

/-! ## Every interleaving -/

theorem start_inv (blobsRoot : Bool) (seed : Nat) : (start blobsRoot seed).Inv where
  writers := nofun
  staged := nofun
  writes := nofun
  rows := nofun
  doomed := by
    rintro path (gone | going | ⟨k, w, there, _⟩)
    · cases gone
    · cases going
    · cases there
  gone := nofun
  paths := .nil

end BlobTraffic

open BlobTraffic in
theorem reads_see_a_version_iff (blobsRoot : Bool) (idCounterSeed : Nat)
    (acts : List TrafficAction) :
    (∀ before, before <+: acts → ∀ s,
        exec step (start blobsRoot idCounterSeed) before = some s → ¬ s.Torn) ↔
      ∀ before a, before ++ [a] <+: acts → ∀ s t,
        exec step (start blobsRoot idCounterSeed) before = some s → s.step a = some t →
          ¬ s.LateOpen a := by
  have clear : ¬ (start blobsRoot idCounterSeed).Torn := by
    rintro ⟨call, result, finished, _⟩
    cases finished
  refine exec_faultless clear ?_ acts
  intro before s a t reached clean taken
  have both : s.Inv ∧ s.Reading := exec_invariant (P := fun s => s.Inv ∧ s.Reading)
    (fun s a t both taken => ⟨both.1.step taken, (step_torn both.1 both.2 taken).1⟩)
    ⟨start_inv blobsRoot idCounterSeed, trivial⟩ reached
  exact (step_torn both.1 both.2 taken).2 clean

def lateRead : List TrafficAction :=
  [.registerInstance "hue" "lamp" 10, .beginWrite ⟨"hue", "lamp", "icon", [7], none, 0, 0, 0, none⟩,
    .write 0, .write 0, .write 0, .write 0, .write 0, .write 0,
    .startRead (.readByName "hue" "lamp" "icon"), .read, .delete "hue" "lamp" "icon",
    .unlink ⟨"hue", "lamp", false, mintBlobId 0 0 0⟩, .read]

open BlobTraffic in
theorem late_read_fails : ¬ ∀ blobsRoot idCounterSeed acts s,
    exec step (start blobsRoot idCounterSeed) acts = some s → ¬ s.Torn := by
  intro clear
  have ends : ∃ s, exec step (start true 0) lateRead = some s ∧
      s.reader = .finished (.readByName "hue" "lamp" "icon") (.error .io) := ⟨_, rfl, rfl⟩
  obtain ⟨s, reached, failed⟩ := ends
  exact clear true 0 lateRead s reached ⟨_, _, failed, io_unsound _⟩

end OxidHome.Storage

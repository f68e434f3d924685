import OxidHome.Installed.ScanSpec

/-!
# What scan, install and uninstall can do

One lemma for each, by the rows, the directories and the registry that it leaves.
-/

namespace OxidHome.Installed
open Manifest Library

def SameDirs (root root' : PluginsRoot) : Prop :=
  ∀ name, isStaging name = false → root'.find? name = root.find? name

theorem SameDirs.refl (root : PluginsRoot) : SameDirs root root := fun _ _ => rfl

/-! ## Scan -/

theorem InstallationRow.accepted_eq_some {codec : GrantCodec} {row : InstallationRow}
    {live : LiveInstallation} (accepted : row.accepted codec = some live) :
    live.installationUuid = row.installationUuid ∧
      row.contentDigest = some live.contentDigest ∧
      ∃ json, row.grantedCapabilitiesJson = some json ∧
        codec.decode json = some live.grantedCapabilities := by
  unfold InstallationRow.accepted at accepted
  cases digest : row.contentDigest with
  | none => simp [digest] at accepted
  | some d =>
      cases grant : row.grantedCapabilitiesJson with
      | none => simp [digest, grant] at accepted
      | some json =>
          cases read : codec.decode json with
          | none => simp [digest, grant, read] at accepted
          | some caps =>
              simp only [digest, grant, read, Option.ite_none_right_eq_some,
                Option.some.injEq] at accepted
              obtain ⟨-, rfl⟩ := accepted
              exact ⟨rfl, rfl, json, rfl, read⟩

theorem insertInstallationRow_ok {codec : GrantCodec} {now : Int} {plugin : InstalledPlugin}
    {table table' : PluginInstallation}
    (done : table.insertInstallationRow codec now plugin = .ok table') :
    table.insert (plugin.row codec now) = some table' := by
  unfold PluginInstallation.insertInstallationRow at done
  split at done
  · cases done
  · cases inserted : table.insert (plugin.row codec now) with
    | none => simp [inserted] at done
    | some t =>
        simp only [inserted, Except.ok.injEq] at done
        rw [done]

theorem insertBackfills_error {codec : GrantCodec} {now : Int} {left : Option Nat}
    {table : PluginInstallation} {row : InstalledPlugin} {rest : List InstalledPlugin}
    {err : SqlError} (failed : table.insertInstallationRow codec now row = .error err)
    (more : left ≠ some 0) :
    insertBackfills codec now left table (row :: rest) = (table, false) := by
  rw [insertBackfills]
  · rw [failed]
  · exact more

theorem insertBackfills_ok {codec : GrantCodec} {now : Int} {left : Option Nat}
    {table table' : PluginInstallation} {row : InstalledPlugin} {rest : List InstalledPlugin}
    (done : table.insertInstallationRow codec now row = .ok table') (more : left ≠ some 0) :
    insertBackfills codec now left table (row :: rest) =
      insertBackfills codec now (left.map (· - 1)) table' rest := by
  rw [insertBackfills]
  · rw [done]
  · exact more

theorem insertBackfills_spec (codec : GrantCodec) (now : Int) (left : Option Nat)
    (table : PluginInstallation) (rows : List InstalledPlugin) :
    ∃ k, (insertBackfills codec now left table rows).1.rows =
        table.rows ++ (rows.take k).map (·.row codec now) ∧
      ((insertBackfills codec now left table rows).2 = true → rows.length ≤ k) := by
  induction rows generalizing left table with
  | nil => exact ⟨0, by simp [insertBackfills], by simp⟩
  | cons row rest ih =>
      have stopped : insertBackfills codec now left table (row :: rest) = (table, false) →
          ∃ k, (insertBackfills codec now left table (row :: rest)).1.rows =
              table.rows ++ ((row :: rest).take k).map (·.row codec now) ∧
            ((insertBackfills codec now left table (row :: rest)).2 = true →
              (row :: rest).length ≤ k) := by
        intro same
        rw [same]
        exact ⟨0, by simp, by simp⟩
      by_cases cut : left = some 0
      · subst cut
        exact stopped rfl
      · cases done : table.insertInstallationRow codec now row with
        | error err => exact stopped (insertBackfills_error done cut)
        | ok table' =>
            rw [insertBackfills_ok done cut]
            obtain ⟨k, rows, all⟩ := ih (left.map (· - 1)) table'
            refine ⟨k + 1, ?_, fun complete => Nat.succ_le_succ (all complete)⟩
            rw [rows, (PluginInstallation.insert_some (insertInstallationRow_ok done)).1]
            simp

section
variable (codec : GrantCodec) (view : ScanView) (mint : String → MintedUuid) (now : Int)
  (root : PluginsRoot) (table : PluginInstallation)

def Swept (id : String) : Prop :=
  (∃ live, (loadLiveInstallations codec table).live id = some live) ∧
    view.claims (view.children root) id = [] ∧ view.tombstoneFails id = false ∧
    (∀ child ∈ root.nodes, view.entryError child.1 = false) ∧
    ∀ child ∈ root.nodes, view.defers child = false

def Backfilled (id : String) : Option InstalledPlugin :=
  backfill (loadLiveInstallations codec table) view mint id (view.claims (view.children root) id)

end

section
variable {codec : GrantCodec} {view : ScanView} {mint : String → MintedUuid} {now : Int}
  {root : PluginsRoot} {table : PluginInstallation}

theorem mem_children {child : String × Node} :
    child ∈ view.children root ↔ child ∈ root.nodes ∧ view.entryError child.1 = false := by
  rw [ScanView.children, List.mem_insertionSort, List.mem_filter, Bool.not_eq_true']

theorem mem_claims_children {id : String} {s : Sighting} :
    s ∈ view.claims (view.children root) id ↔ s.id = id ∧ view.entryError s.path = false ∧
      root.find? s.path = some (.dir s.package) ∧
      view.sighting? (s.path, .dir s.package) = some s := by
  rw [ScanView.mem_claims]
  apply and_congr_right
  intro _
  constructor
  · rintro ⟨child, mem, seen⟩
    obtain ⟨-, rfl, -⟩ := ScanView.sighting?_eq_some.mp seen
    rw [mem_children, ← PluginsRoot.find?_eq_some] at mem
    exact ⟨mem.2, mem.1, seen⟩
  · rintro ⟨read, here, seen⟩
    exact ⟨_, mem_children.mpr ⟨PluginsRoot.find?_eq_some.mp here, read⟩, seen⟩

variable (codec view mint root table) in
theorem scanned_slot (id : String) :
    Slot (loadLiveInstallations codec table) view mint (scanned codec view mint root table) id
      (view.claims (view.children root) id)
      (Attached (loadLiveInstallations codec table) view mint (view.children root) id) :=
  slot_scan _ _

theorem scanned_defers :
    (scanned codec view mint root table).deferOrphanSweep = false ↔
      (∀ child ∈ root.nodes, view.entryError child.1 = false) ∧
        ∀ child ∈ root.nodes, view.defers child = false := by
  rw [scanned, scan_defers, Bool.or_eq_false_iff, List.any_eq_false, List.any_eq_false]
  simp only [Bool.not_eq_true, mem_children]
  constructor
  · rintro ⟨read, clear⟩
    exact ⟨read, fun child mem => clear child ⟨mem, read child mem⟩⟩
  · rintro ⟨read, clear⟩
    exact ⟨read, fun child mem => clear child mem.1⟩

theorem mem_backfills {id : String} {plugin : InstalledPlugin} :
    (plugin ∈ (scanned codec view mint root table).backfills ∧ plugin.pluginId = id) ↔
      Backfilled codec view mint root table id = some plugin := by
  have slot := scanned_slot codec view mint root table id
  have mem : plugin ∈ (scanned codec view mint root table).backfills.filter (·.pluginId = id) ↔
      plugin ∈ (Backfilled codec view mint root table id).toList := by
    rw [slot.backfills]
    rfl
  rwa [List.mem_filter, decide_eq_true_iff, Option.mem_toList] at mem

def sweptTable (codec : GrantCodec) (view : ScanView) (mint : String → MintedUuid) (now : Int)
    (root : PluginsRoot) (table : PluginInstallation) : PluginInstallation :=
  let st := scanned codec view mint root table
  if st.deferOrphanSweep then table
  else table.tombstone now fun row => st.orphan codec row && !view.tombstoneFails row.pluginId

theorem orphan_iff {row : InstallationRow} {id : String} (live : table.live? id = some row) :
    (scanned codec view mint root table).orphan codec row = true ↔
      (∃ live, (loadLiveInstallations codec table).live id = some live) ∧
        view.claims (view.children root) id = [] := by
  have slot := scanned_slot codec view mint root table id
  obtain ⟨-, -, named⟩ := PluginInstallation.live?_eq_some.mp live
  have loaded : (loadLiveInstallations codec table).live id = row.accepted codec := by
    simp [loadLiveInstallations, live]
  rw [ScanState.orphan, named, slot.observed, slot.duplicate, loaded]
  cases view.claims (view.children root) id <;> simp [Option.isSome_iff_exists]

variable (codec view mint now root table) in
theorem sweptTable_live (id : String) (row : InstallationRow) :
    (sweptTable codec view mint now root table).live? id = some row ↔
      table.live? id = some row ∧ ¬ Swept codec view root table id := by
  unfold sweptTable
  dsimp only
  cases deferred : (scanned codec view mint root table).deferOrphanSweep with
  | true =>
      have unswept : ¬ Swept codec view root table id := by
        rintro ⟨-, -, -, clear⟩
        rw [scanned_defers.mpr clear] at deferred
        cases deferred
      simp [unswept]
  | false =>
      have clear := scanned_defers.mp deferred
      rw [if_neg (by simp), PluginInstallation.live?_tombstone, Option.filter_eq_some_iff]
      apply and_congr_right
      intro live
      obtain ⟨-, -, named⟩ := PluginInstallation.live?_eq_some.mp live
      rw [Bool.not_eq_true', ← Bool.not_eq_true, Bool.and_eq_true, orphan_iff live, named,
        Bool.not_eq_true', Swept]
      tauto

theorem scan_loaded (loaded : view.loadFails = false) :
    scan codec view mint now root table =
      let st := scanned codec view mint root table
      let inserted := insertBackfills codec now view.inserted
        (sweptTable codec view mint now root table) st.backfills
      { root := root.restrict fun child => !view.removesStaging child
        table := inserted.1
        registry :=
          if inserted.2 && !view.crashed then some ⟨st.entries, st.quarantined⟩ else none } := by
  rw [scan, loaded]
  rfl

variable (codec mint now root table) in
theorem scan_rows (loaded : view.loadFails = false) :
    ∃ k, (scan codec view mint now root table).table.rows =
        (sweptTable codec view mint now root table).rows ++
          ((scanned codec view mint root table).backfills.take k).map (·.row codec now) ∧
      ((scan codec view mint now root table).registry.isSome →
        (scanned codec view mint root table).backfills.length ≤ k) := by
  obtain ⟨k, rows, all⟩ := insertBackfills_spec codec now view.inserted
    (sweptTable codec view mint now root table) (scanned codec view mint root table).backfills
  refine ⟨k, ?_, ?_⟩
  · rw [← rows, scan_loaded loaded]
  · intro up
    apply all
    rw [scan_loaded loaded] at up
    dsimp only at up
    split at up
    · rename_i both
      exact (Bool.and_eq_true_iff.mp both).1
    · cases up

theorem mem_sweptTable {row : InstallationRow}
    (mem : row ∈ (sweptTable codec view mint now root table).rows) :
    ∃ before ∈ table.rows, before.installationUuid = row.installationUuid ∧
      (row.live = true → before = row) := by
  unfold sweptTable at mem
  dsimp only at mem
  split at mem
  · exact ⟨row, mem, rfl, fun _ => rfl⟩
  · exact PluginInstallation.mem_tombstone mem

theorem mem_scan {row : InstallationRow}
    (mem : row ∈ (scan codec view mint now root table).table.rows) :
    (∃ before ∈ table.rows, before.installationUuid = row.installationUuid ∧
      (row.live = true → before = row)) ∨
      ∃ plugin ∈ (scanned codec view mint root table).backfills, row = plugin.row codec now := by
  cases loaded : view.loadFails with
  | true =>
      rw [scan, loaded] at mem
      exact Or.inl ⟨row, mem, rfl, fun _ => rfl⟩
  | false =>
      obtain ⟨k, rows, -⟩ := scan_rows codec mint now root table loaded
      rw [rows, List.mem_append, List.mem_map] at mem
      rcases mem with mem | ⟨plugin, mem, rfl⟩
      · exact Or.inl (mem_sweptTable mem)
      · exact Or.inr ⟨plugin, List.mem_of_mem_take mem, rfl⟩

theorem scan_dead {row : InstallationRow} (mem : row ∈ table.rows) (dead : row.live = false) :
    row ∈ (scan codec view mint now root table).table.rows := by
  cases loaded : view.loadFails with
  | true =>
      rw [scan, loaded]
      exact mem
  | false =>
      obtain ⟨k, rows, -⟩ := scan_rows codec mint now root table loaded
      rw [rows]
      apply List.mem_append_left
      unfold sweptTable
      dsimp only
      split
      · exact mem
      · exact PluginInstallation.tombstone_dead mem dead

theorem scan_live {id : String} {row : InstallationRow}
    (live : (scan codec view mint now root table).table.live? id = some row) :
    (table.live? id = some row ∧ (view.loadFails = false → ¬ Swept codec view root table id)) ∨
      ∃ plugin, Backfilled codec view mint root table id = some plugin ∧
        row = plugin.row codec now := by
  cases loaded : view.loadFails with
  | true =>
      rw [scan, loaded] at live
      exact Or.inl ⟨live, (by simp)⟩
  | false =>
      obtain ⟨k, rows, -⟩ := scan_rows codec mint now root table loaded
      obtain ⟨mem, alive, named⟩ := PluginInstallation.live?_eq_some.mp live
      rw [rows, List.mem_append, List.mem_map] at mem
      rcases mem with mem | ⟨plugin, mem, rfl⟩
      · have before := sweptTable_live codec view mint now root table id row
        have both := before.mp (PluginInstallation.live?_eq_some.mpr ⟨mem, alive, named⟩)
        exact Or.inl ⟨both.1, fun _ => both.2⟩
      · exact Or.inr ⟨plugin, mem_backfills.mp ⟨List.mem_of_mem_take mem, named⟩, rfl⟩

theorem scan_kept {id : String} {row : InstallationRow} (live : table.live? id = some row)
    (unswept : ¬ Swept codec view root table id) :
    (scan codec view mint now root table).table.live? id = some row := by
  cases loaded : view.loadFails with
  | true =>
      rw [scan, loaded]
      exact live
  | false =>
      obtain ⟨k, rows, -⟩ := scan_rows codec mint now root table loaded
      have before := (sweptTable_live codec view mint now root table id row).mpr ⟨live, unswept⟩
      obtain ⟨mem, rest⟩ := PluginInstallation.live?_eq_some.mp before
      rw [PluginInstallation.live?_eq_some, rows]
      exact ⟨List.mem_append_left _ mem, rest⟩

theorem scan_backfilled {id : String} {plugin : InstalledPlugin}
    (up : (scan codec view mint now root table).registry.isSome)
    (filled : Backfilled codec view mint root table id = some plugin) :
    (scan codec view mint now root table).table.live? id = some (plugin.row codec now) := by
  cases loaded : view.loadFails with
  | true =>
      rw [scan, loaded] at up
      cases up
  | false =>
      obtain ⟨k, rows, all⟩ := scan_rows codec mint now root table loaded
      obtain ⟨mem, named⟩ := mem_backfills.mpr filled
      rw [PluginInstallation.live?_eq_some, rows, List.take_of_length_le (all up)]
      exact ⟨List.mem_append_right _ (List.mem_map_of_mem mem), rfl, named⟩

theorem scan_registry {registry : InstalledPluginRegistry}
    (up : (scan codec view mint now root table).registry = some registry) :
    view.loadFails = false ∧ registry = ⟨(scanned codec view mint root table).entries,
      (scanned codec view mint root table).quarantined⟩ := by
  cases loaded : view.loadFails with
  | true =>
      rw [scan, loaded] at up
      cases up
  | false =>
      rw [scan_loaded loaded] at up
      dsimp only at up
      split at up
      · cases up
        exact ⟨rfl, rfl⟩
      · cases up

variable (codec view mint now root table) in
theorem scan_root : SameDirs root (scan codec view mint now root table).root := by
  intro name plain
  cases loaded : view.loadFails with
  | true =>
      rw [scan, loaded]
      rfl
  | false =>
      rw [scan_loaded loaded]
      simp only [PluginsRoot.find?_restrict]
      cases found : root.find? name with
      | none => rfl
      | some node =>
          have stays : view.removesStaging (name, node) = false := by
            cases node <;> simp [ScanView.removesStaging, plain]
          simp [Option.filter, stays]

end

/-! ## Install -/

structure Checked (gate : String → Option String) (root : PluginsRoot) (call : InstallCall)
    (row : InstalledPlugin) : Prop where
  source : checkSource gate call root = .ok row.pluginId
  safe : isSafePluginId row.pluginId = true
  path : row.path = row.pluginId
  uuid : row.installationUuid = call.uuid
  manifest : ∃ manifest, call.staged.readManifest = some manifest ∧ manifest.id = row.pluginId ∧
    row.grantedCapabilities = manifest.capabilities
  digest : call.staged.contentDigest = some row.contentDigest
  free : root.find? row.pluginId = none

theorem checkSource_ok {gate : String → Option String} {call : InstallCall} {root : PluginsRoot}
    {id : String} (checked : checkSource gate call root = .ok id) :
    isSafePluginId id = true ∧ root.find? id = none := by
  unfold checkSource at checked
  split at checked
  · cases checked
  · split at checked
    · cases checked
    · split at checked
      · cases checked
      · rename_i safe
        split at checked
        · cases checked
        · split at checked
          · cases checked
          · rename_i free
            cases checked
            refine ⟨by simpa using safe, ?_⟩
            simpa [PluginsRoot.occupied] using free

theorem checkStaged_ok {call : InstallCall} {id : String} {row : InstalledPlugin}
    (checked : checkStaged call id = .ok row) :
    row.pluginId = id ∧ row.path = id ∧ row.installationUuid = call.uuid ∧
      (∃ manifest, call.staged.readManifest = some manifest ∧ manifest.id = id ∧
        row.grantedCapabilities = manifest.capabilities) ∧
      call.staged.contentDigest = some row.contentDigest := by
  unfold checkStaged at checked
  cases read : call.staged.readManifest with
  | none => simp [read] at checked
  | some manifest =>
      simp only [read] at checked
      split at checked
      · cases checked
      · rename_i named
        split at checked
        · cases checked
        · cases digest : call.staged.contentDigest with
          | none => simp [digest] at checked
          | some d =>
              simp only [digest, Except.ok.injEq] at checked
              subst checked
              exact ⟨rfl, rfl, rfl, ⟨manifest, rfl, by simpa using named, rfl⟩, rfl⟩

/-- Ends between its INSERT and its rename, with the row kept. -/
def InstallCall.LeavesRow (call : InstallCall) : Prop :=
  call.fault = some .crashInserted ∨ call.fault = some (.rename true)

def InstallCall.Completes (call : InstallCall) : Prop :=
  call.fault = none ∨ call.fault = some .clearStaging

def InstallCall.failed (call : InstallCall)
    (outcome : Outcome InstallError InstalledPlugin) : Bool :=
  match outcome with
  | .ok _ => false
  | .err _ => true
  | .crashed => !(call.fault = some .crashRenamed)

inductive Installs (codec : GrantCodec) (host : Host) (registry : InstalledPluginRegistry)
    (gate : String → Option String) (call : InstallCall) :
    Host → Outcome InstallError InstalledPlugin → Prop where
  | refused {root registry' outcome} (dirs : SameDirs host.root root)
      (up : registry' = host.registry ∨ registry' = none) (failed : call.failed outcome = true) :
      Installs codec host registry gate call ⟨root, host.table, registry'⟩ outcome
  | leftBehind {row root table registry' outcome} (checked : Checked gate host.root call row)
      (leaves : call.LeavesRow) (inserted : host.table.insert (row.row codec call.now) = some table)
      (dirs : SameDirs host.root root) (up : registry' = host.registry ∨ registry' = none)
      (crashed : call.fault = some .crashInserted → registry' = none)
      (failed : call.failed outcome = true) :
      Installs codec host registry gate call ⟨root, table, registry'⟩ outcome
  | placed {row root table registry' outcome} (checked : Checked gate host.root call row)
      (inserted : host.table.insert (row.row codec call.now) = some table)
      (dirs : ∀ name, isStaging name = false → root.find? name =
        if name = row.pluginId then some (.dir call.staged) else host.root.find? name)
      (up : (registry' = some { registry with
          entries := Function.update registry.entries row.pluginId (some row) } ∧
          outcome = .ok row ∧ call.Completes) ∨ (registry' = none ∧ outcome = .crashed))
      (placed : call.failed outcome = false) :
      Installs codec host registry gate call ⟨root, table, registry'⟩ outcome

theorem delete_insert {table table' : PluginInstallation} {row : InstallationRow}
    (inserted : table.insert row = some table') :
    table'.delete row.installationUuid = table := by
  obtain ⟨rows, fresh⟩ := PluginInstallation.insert_some inserted
  have kept : table.rows.filter (·.installationUuid ≠ row.installationUuid) = table.rows := by
    rw [List.filter_eq_self]
    intro other mem
    have apart : other.installationUuid ≠ row.installationUuid := fun same =>
      fresh (same ▸ List.mem_map_of_mem mem)
    simpa using apart
  apply PluginInstallation.ext
  simp only [PluginInstallation.delete, rows, List.filter_append, kept]
  simp

theorem activate_spec {codec : GrantCodec} {host : Host} {registry : InstalledPluginRegistry}
    {gate : String → Option String} {call : InstallCall} {row : InstalledPlugin}
    {table : PluginInstallation} {cleaned staged : PluginsRoot}
    (checked : Checked gate host.root call row)
    (inserted : host.table.insert (row.row codec call.now) = some table)
    (clean : SameDirs host.root cleaned) (stage : SameDirs host.root staged)
    (late : call.fault ≠ some .copy ∧ call.fault ≠ some .crashStaged ∧ call.fault ≠ some .insert) :
    Installs codec host registry gate call (host.activate registry call cleaned staged row table).1
      (host.activate registry call cleaned staged row table).2 := by
  have renamed : ∀ name, isStaging name = false →
      ((staged.remove (stagingName call.uuid)).place row.path (.dir call.staged)).find? name =
        if name = row.pluginId then some (.dir call.staged) else host.root.find? name := by
    intro name plain
    have apart : name ≠ stagingName call.uuid := by
      rintro rfl
      rw [isStaging_stagingName] at plain
      cases plain
    rw [PluginsRoot.find?_place, PluginsRoot.find?_remove, if_neg apart, checked.path,
      stage name plain]
  have success : call.Completes → Installs codec host registry gate call
      ⟨(staged.remove (stagingName call.uuid)).place row.path (.dir call.staged), table,
        some { registry with entries := Function.update registry.entries row.pluginId (some row) }⟩
      (.ok row) := fun completes =>
    .placed checked inserted renamed (Or.inl ⟨rfl, rfl, completes⟩) rfl
  unfold Host.activate
  cases faulted : call.fault with
  | none => exact success (Or.inl faulted)
  | some fault =>
      cases fault with
      | clearStaging => exact success (Or.inr faulted)
      | copy => exact absurd faulted late.1
      | crashStaged => exact absurd faulted late.2.1
      | insert => exact absurd faulted late.2.2
      | crashInserted =>
          exact .leftBehind checked (Or.inl faulted) inserted stage (Or.inr rfl) (fun _ => rfl)
            (by simp [InstallCall.failed, faulted])
      | rename deleteFails =>
          cases deleteFails with
          | true =>
              exact .leftBehind checked (Or.inr faulted) inserted clean (Or.inl rfl)
                (by simp [faulted]) rfl
          | false =>
              have undone : table.delete row.installationUuid = host.table := delete_insert inserted
              simp only [Bool.false_eq_true, if_false, undone]
              exact .refused clean (Or.inl rfl) rfl
      | crashRenamed =>
          exact .placed checked inserted renamed (Or.inr ⟨rfl, rfl⟩)
            (by simp [InstallCall.failed, faulted])

theorem install_spec (codec : GrantCodec) (host : Host) (registry : InstalledPluginRegistry)
    (gate : String → Option String) (call : InstallCall) :
    Installs codec host registry gate call (host.install codec registry gate call).1
      (host.install codec registry gate call).2 := by
  have unstaged : ∀ {name}, isStaging name = false → name ≠ stagingName call.uuid := by
    rintro _ plain rfl
    rw [isStaging_stagingName] at plain
    cases plain
  have staged : SameDirs host.root
      (host.root.place (stagingName call.uuid) (.dir call.staged)) := fun name plain => by
    rw [PluginsRoot.find?_place, if_neg (unstaged plain)]
  have cleaned : SameDirs host.root (if call.stagingKept then
      host.root.place (stagingName call.uuid) (.dir call.staged)
      else host.root.remove (stagingName call.uuid)) := by
    split
    · exact staged
    · intro name plain
      rw [PluginsRoot.find?_remove, if_neg (unstaged plain)]
  unfold Host.install
  cases source : checkSource gate call host.root with
  | error err => exact .refused (.refl _) (Or.inl rfl) rfl
  | ok id =>
      dsimp only
      split
      · exact .refused (.refl _) (Or.inl rfl) rfl
      · split
        · exact .refused cleaned (Or.inl rfl) rfl
        · rename_i copied
          split
          · rename_i cut
            exact .refused staged (Or.inr rfl) (by simp [InstallCall.failed, cut])
          · rename_i running
            cases checks : checkStaged call id with
            | error err => exact .refused cleaned (Or.inl rfl) rfl
            | ok row =>
                dsimp only
                split
                · exact .refused cleaned (Or.inl rfl) rfl
                · rename_i inserting
                  cases inserted : host.table.insertInstallationRow codec call.now row with
                  | error err => cases err <;> exact .refused cleaned (Or.inl rfl) rfl
                  | ok table =>
                      have inserted := insertInstallationRow_ok inserted
                      obtain ⟨named, path, uuid, manifest, digest⟩ := checkStaged_ok checks
                      obtain ⟨safe, free⟩ := checkSource_ok source
                      subst named
                      exact activate_spec ⟨source, safe, path, uuid, manifest, digest, free⟩
                        inserted cleaned staged ⟨copied, running, inserting⟩

/-! ## Uninstall -/

def UninstallCall.reached (call : UninstallCall) (dests : List String) : List String :=
  match call.removed with
  | none => dests
  | some (left, _) => dests.take left

def Worn (before after : Option Node) : Prop :=
  after = before ∨ ∃ loss, after = before.map (Node.tear loss)

/-- What becomes of the entry `name`: removed as one of the `dests` got to, or kept. -/
def Removal (removed : Option (Nat × Loss)) (root : PluginsRoot) (dests : List String)
    (name : String) (after : PluginsRoot × Bool) : Prop :=
  ((∀ left loss, removed = some (left, loss) → name ∈ dests.take left) ∧ name ∈ dests ∧
      after.1.find? name = none) ∨
    (Worn (root.find? name) (after.1.find? name) ∧
      (name ∉ dests → after.1.find? name = root.find? name) ∧
      (after.2 = true → name ∈ dests → root.find? name = none))

theorem removeDirs_spec (removed : Option (Nat × Loss)) (root : PluginsRoot) (dests : List String)
    (name : String) : Removal removed root dests name (removeDirs removed root dests) := by
  induction dests generalizing removed root with
  | nil => exact Or.inr ⟨Or.inl rfl, fun _ => rfl, by simp⟩
  | cons dest rest ih =>
      -- Past a removal of `dest` that succeeds.
      have past : ∀ removed', (∀ left loss, removed = some (left, loss) →
            ∃ left', removed' = some (left', loss) ∧ left = left' + 1) →
          removeDirs removed root (dest :: rest) = removeDirs removed' (root.remove dest) rest →
          Removal removed root (dest :: rest) name (removeDirs removed root (dest :: rest)) := by
        intro removed' counted same
        rw [same]
        by_cases here : name = dest
        · left
          refine ⟨?_, by simp [here], ?_⟩
          · rintro left loss given
            obtain ⟨left', -, rfl⟩ := counted left loss given
            simp [here]
          · rcases ih removed' (root.remove dest) with ⟨-, -, none_⟩ | ⟨worn, -, -⟩
            · exact none_
            · rw [PluginsRoot.find?_remove, if_pos here] at worn
              rcases worn with same | ⟨loss, same⟩ <;> exact same
        · rcases ih removed' (root.remove dest) with ⟨within, mem, none_⟩ | ⟨worn, kept, all⟩
          · left
            refine ⟨?_, List.mem_cons_of_mem _ mem, none_⟩
            rintro left loss given
            obtain ⟨left', given', rfl⟩ := counted left loss given
            exact List.mem_cons_of_mem _ (within left' loss given')
          · rw [PluginsRoot.find?_remove, if_neg here] at worn kept all
            refine Or.inr ⟨worn, fun apart => kept fun mem => apart (List.mem_cons_of_mem _ mem), ?_⟩
            intro done mem
            exact all done (List.mem_of_ne_of_mem here mem)
      match removed with
      | none => exact past none (by simp) rfl
      | some (left + 1, loss) =>
          refine past (some (left, loss)) ?_ rfl
          rintro _ _ ⟨⟩
          exact ⟨left, rfl, rfl⟩
      | some (0, loss) =>
          rw [removeDirs]
          split
          · refine Or.inr ⟨?_, ?_, by simp⟩
            · rw [PluginsRoot.find?_tear]
              split
              · exact Or.inr ⟨loss, rfl⟩
              · exact Or.inl rfl
            · intro apart
              rw [PluginsRoot.find?_tear, if_neg fun same => apart (by simp [same])]
          · rename_i free
            have gone : root.find? dest = none := by simpa [PluginsRoot.occupied] using free
            rcases ih (some (0, loss)) root with ⟨within, -, -⟩ | ⟨worn, kept, all⟩
            · simpa using within 0 loss rfl
            · refine Or.inr ⟨worn, fun apart => kept fun mem => apart (List.mem_cons_of_mem _ mem), ?_⟩
              intro done mem
              rcases List.mem_cons.mp mem with rfl | mem
              · exact gone
              · exact all done mem

inductive Uninstalls (host : Host) (registry : InstalledPluginRegistry) (call : UninstallCall) :
    Host → Outcome UninstallError QuarantineUuid → Prop where
  | unknown (unrecorded : registry.recorded call.pluginId = none) :
      Uninstalls host registry call host (.err (.notInstalled call.pluginId))
  | stopped {uuid dests wasQuarantined registry' outcome}
      (recorded : registry.recorded call.pluginId = some (uuid, dests, wasQuarantined))
      (up : registry' = host.registry ∨ registry' = none) (failed : ∀ uuid, outcome ≠ .ok uuid) :
      Uninstalls host registry call
        ⟨(removeDirs call.removed host.root dests).1, host.table, registry'⟩ outcome
  | done {uuid dests wasQuarantined registry' outcome}
      (recorded : registry.recorded call.pluginId = some (uuid, dests, wasQuarantined))
      (removed : (removeDirs call.removed host.root dests).2 = true)
      (up : (registry' = some (registry.drop call.pluginId wasQuarantined) ∧ outcome = .ok uuid) ∨
        (registry' = none ∧ outcome = .crashed)) :
      Uninstalls host registry call ⟨(removeDirs call.removed host.root dests).1,
        host.table.tombstoneInstallationRow call.now uuid, registry'⟩ outcome

theorem uninstall_spec (host : Host) (registry : InstalledPluginRegistry) (call : UninstallCall) :
    Uninstalls host registry call (host.uninstall registry call).1
      (host.uninstall registry call).2 := by
  unfold Host.uninstall
  cases recorded : registry.recorded call.pluginId with
  | none => exact .unknown recorded
  | some found =>
      obtain ⟨uuid, dests, wasQuarantined⟩ := found
      dsimp only
      split
      · split
        · exact .stopped recorded (Or.inr rfl) (by simp)
        · exact .stopped recorded (Or.inl rfl) (by simp)
      · rename_i all
        have all : (removeDirs call.removed host.root dests).2 = true := by simpa using all
        split
        · split
          · exact .stopped recorded (Or.inr rfl) (by simp)
          · exact .stopped recorded (Or.inl rfl) (by simp)
        · split
          · exact .done recorded all (Or.inr ⟨rfl, rfl⟩)
          · exact .done recorded all (Or.inl ⟨rfl, rfl⟩)

theorem tombstoneInstallationRow_live {table : PluginInstallation} {now : Int}
    {uuid : QuarantineUuid} {id : String} {row : InstallationRow} :
    (table.tombstoneInstallationRow now uuid).live? id = some row ↔
      table.live? id = some row ∧ .minted row.installationUuid ≠ uuid := by
  cases uuid with
  | minted uuid =>
      rw [PluginInstallation.tombstoneInstallationRow, PluginInstallation.live?_tombstone,
        Option.filter_eq_some_iff]
      simp
  | noSqlRow => simp [PluginInstallation.tombstoneInstallationRow]
  | dupUnknown => simp [PluginInstallation.tombstoneInstallationRow]

theorem recorded_cases {registry : InstalledPluginRegistry} {id : String} {uuid : QuarantineUuid}
    {dests : List String} {wasQuarantined : Bool}
    (recorded : registry.recorded id = some (uuid, dests, wasQuarantined)) :
    (∃ entry, registry.entries id = some entry ∧ uuid = .minted entry.installationUuid ∧
        dests = [entry.path] ∧ wasQuarantined = false) ∨
      ∃ q, registry.entries id = none ∧ registry.quarantined id = some q ∧
        uuid = q.installationUuid ∧ dests = q.paths ∧ wasQuarantined = true := by
  unfold InstalledPluginRegistry.recorded at recorded
  cases indexed : registry.entries id with
  | some entry =>
      simp only [indexed, Option.some.injEq, Prod.mk.injEq] at recorded
      obtain ⟨rfl, rfl, rfl⟩ := recorded
      exact Or.inl ⟨entry, rfl, rfl, rfl, rfl⟩
  | none =>
      simp only [indexed, Option.map_eq_some_iff, Prod.mk.injEq] at recorded
      obtain ⟨q, found, rfl, rfl, rfl⟩ := recorded
      exact Or.inr ⟨q, rfl, found, rfl, rfl, rfl⟩

section
variable {registry : InstalledPluginRegistry} {id other : String} {uuid : QuarantineUuid}
  {dests : List String} {wasQuarantined : Bool}

theorem drop_other (apart : other ≠ id) :
    (registry.drop id wasQuarantined).entries other = registry.entries other ∧
      (registry.drop id wasQuarantined).quarantined other = registry.quarantined other := by
  unfold InstalledPluginRegistry.drop
  cases wasQuarantined with
  | false => exact ⟨Function.update_of_ne apart .., rfl⟩
  | true => exact ⟨rfl, Function.update_of_ne apart ..⟩

theorem drop_entries (recorded : registry.recorded id = some (uuid, dests, wasQuarantined))
    {entry : InstalledPlugin}
    (indexed : (registry.drop id wasQuarantined).entries other = some entry) :
    registry.entries other = some entry ∧ other ≠ id := by
  by_cases named : other = id
  · subst named
    obtain ⟨-, -, -, -, rfl⟩ | ⟨q, unindexed, -, -, -, rfl⟩ := recorded_cases recorded
    · simp [InstalledPluginRegistry.drop] at indexed
    · exact absurd (unindexed.symm.trans indexed) (by simp)
  · exact ⟨(drop_other named).1.symm.trans indexed, named⟩

theorem drop_quarantined {q : QuarantineEntry}
    (found : (registry.drop id wasQuarantined).quarantined other = some q) :
    registry.quarantined other = some q ∧ (other = id → wasQuarantined = false) := by
  by_cases named : other = id
  · subst named
    cases wasQuarantined with
    | false => exact ⟨found, fun _ => rfl⟩
    | true => simp [InstalledPluginRegistry.drop] at found
  · exact ⟨(drop_other named).2.symm.trans found, fun same => absurd same named⟩

theorem registry_stays {host : Host} {found : Option InstalledPluginRegistry}
    {registry' : InstalledPluginRegistry} (up : host.registry = some registry)
    (stays : found = host.registry ∨ found = none) (after : found = some registry') :
    registry' = registry := by
  rcases stays with rfl | rfl
  · exact Option.some.inj (after.symm.trans up)
  · cases after

end

end OxidHome.Installed

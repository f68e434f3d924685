import OxidHome.Installed.DevLoad

/-!
# Recovery by uninstall and install

For which ids of a scanned plugins root an uninstall and then an install succeed.
-/

namespace OxidHome.Installed
open Manifest Library

structure ValidInstall (host : Host) (gate : String → Option String) (call : InstallCall)
    (id : String) : Prop where
  source : ∃ source manifest, call.source = some source ∧ source.readManifest = some manifest ∧
    manifest.id = id
  gate : gate id = none
  staged : ∃ manifest, call.staged.readManifest = some manifest ∧ manifest.id = id ∧
    (manifest.ui = true → call.staged.uiValid = true)
  digest : ∃ digest, call.staged.contentDigest = some digest
  fault : call.fault = none
  fresh : call.uuid ∉ host.table.rows.map InstallationRow.installationUuid
  unstaged : host.root.find? (stagingName call.uuid) = none

def plainUninstall (id : String) (now : Int) : UninstallCall := ⟨id, now, none, false, false⟩

def Host.Recoverable (codec : GrantCodec) (host : Host) (registry : InstalledPluginRegistry)
    (id : String) : Prop :=
  ∀ now, ∃ uuid registry' host', host.uninstall registry (plainUninstall id now) = (host', .ok uuid) ∧
    host'.registry = some registry' ∧ ∀ gate call, ValidInstall host' gate call id →
      ∃ entry row registry'' host'',
        host'.install codec registry' gate call = (host'', .ok entry) ∧
        host''.registry = some registry'' ∧ registry''.entries id = some entry ∧
        host''.table.live? id = some row ∧ row.installationUuid = call.uuid

def Recovers (codec : GrantCodec) (view : ScanView) (mint : String → MintedUuid)
    (root : PluginsRoot) (table : PluginInstallation) (id : String) : Prop :=
  (view.claims (view.children root) id ≠ [] ∨
      ∃ row, table.live? id = some row ∧ row.accepted codec = none) ∧
    (root.find? id = none ∨ (∃ c ∈ view.claims (view.children root) id, c.path = id) ∨
      Attached (loadLiveInstallations codec table) view mint (view.children root) id)

variable {codec : GrantCodec} {host : Host} {registry : InstalledPluginRegistry} {id : String}

theorem install_refused (codec : GrantCodec) (registry : InstalledPluginRegistry)
    {gate : String → Option String} {call : InstallCall}
    (taken : host.root.find? id ≠ none) (valid : ValidInstall host gate call id) :
    (host.install codec registry gate call).2 = .err (.alreadyInstalled id) ∨
      (host.install codec registry gate call).2 = .err (.badManifest (.unsafeId id)) := by
  obtain ⟨source, manifest, given, read, rfl⟩ := valid.source
  have occupied : host.root.occupied manifest.id = true := by
    simpa [PluginsRoot.occupied, Option.isSome_iff_ne_none] using taken
  unfold Host.install
  cases safe : isSafePluginId manifest.id with
  | false => simp [checkSource, given, read, safe]
  | true => simp [checkSource, given, read, safe, valid.gate, occupied]

theorem install_succeeds {gate : String → Option String} {call : InstallCall}
    (safe : isSafePluginId id = true) (free : host.root.find? id = none)
    (unlisted : host.table.live? id = none) (valid : ValidInstall host gate call id) :
    ∃ entry row registry' host', host.install codec registry gate call = (host', .ok entry) ∧
      host'.registry = some registry' ∧ registry'.entries id = some entry ∧
      host'.table.live? id = some row ∧ row.installationUuid = call.uuid := by
  obtain ⟨source, sourceManifest, given, readSource, rfl⟩ := valid.source
  obtain ⟨manifest, read, named, ui⟩ := valid.staged
  obtain ⟨digest, hashed⟩ := valid.digest
  have checked : checkSource gate call host.root = .ok sourceManifest.id := by
    simp [checkSource, given, readSource, safe, valid.gate, PluginsRoot.occupied, free]
  have unblocked : host.stagingBlocked call = false := by
    simp [Host.stagingBlocked, valid.unstaged]
  let row : InstalledPlugin := {
    pluginId := sourceManifest.id, installationUuid := call.uuid, version := manifest.version
    path := sourceManifest.id, grantedCapabilities := manifest.capabilities
    contentDigest := digest, singleton := manifest.singleton }
  have staged : checkStaged call sourceManifest.id = .ok row := by
    have good : (manifest.ui && !call.staged.uiValid) = false := by
      cases declared : manifest.ui with
      | false => rfl
      | true => simp [ui declared]
    simp [checkStaged, read, named, good, hashed, row]
  obtain ⟨table, inserted⟩ := Option.isSome_iff_exists.mp
    (PluginInstallation.insert_isSome (row.row codec call.now) valid.fresh unlisted)
  have limits : checkCapabilityLimits row.grantedCapabilities = true := manifest.withinLimits
  have stored : host.table.insertInstallationRow codec call.now row = .ok table := by
    simp [PluginInstallation.insertInstallationRow, limits, inserted]
  let registry' : InstalledPluginRegistry :=
    { registry with entries := Function.update registry.entries row.pluginId (some row) }
  let root := ((host.root.place (stagingName call.uuid) (.dir call.staged)).remove
    (stagingName call.uuid)).place row.path (.dir call.staged)
  refine ⟨row, row.row codec call.now, registry', ⟨root, table, some registry'⟩, ?_, rfl,
    Function.update_self .., ?_, rfl⟩
  · simp [Host.install, checked, unblocked, valid.fault, staged, stored, Host.activate, root,
      registry']
  · rw [PluginInstallation.live?_insert inserted rfl]
    exact if_pos rfl

theorem recorded_isSome : (registry.recorded id).isSome = true ↔
    (registry.entries id).isSome = true ∨ (registry.quarantined id).isSome = true := by
  cases indexed : registry.entries id <;> simp [InstalledPluginRegistry.recorded, indexed]

section
variable {view : ScanView} {mint : String → MintedUuid} {now : Int} {root : PluginsRoot}
  {table : PluginInstallation}

theorem recorded_scan (up : (scan codec view mint now root table).registry = some registry) :
    (registry.recorded id).isSome = true ↔ view.claims (view.children root) id ≠ [] ∨
      ∃ row, table.live? id = some row ∧ row.accepted codec = none := by
  obtain ⟨-, rfl⟩ := scan_registry up
  have slot := scanned_slot codec view mint root table id
  rw [recorded_isSome]
  dsimp only
  rw [slot.shut, slot.entry, ← malformed_iff]
  match view.claims (view.children root) id with
  | [] => simp [entryOf, shut_nil]
  | [only] => cases admitted : admission (loadLiveInstallations codec table) view mint only <;>
      simp [entryOf, Shut, admitted]
  | first :: second :: rest => simp [Shut]

theorem recorded_paths {uuid : QuarantineUuid} {dests : List String} {wasQuarantined : Bool}
    (up : (scan codec view mint now root table).registry = some registry)
    (recorded : registry.recorded id = some (uuid, dests, wasQuarantined)) :
    id ∈ dests ↔ (∃ c ∈ view.claims (view.children root) id, c.path = id) ∨
      Attached (loadLiveInstallations codec table) view mint (view.children root) id := by
  have slot := scanned_slot codec view mint root table id
  constructor
  · intro mem
    rcases scan_records up (recorded_records recorded mem) with claim | attached
    · exact Or.inl claim
    · exact Or.inr attached.2
  · obtain ⟨-, rfl⟩ := scan_registry up
    intro either
    obtain ⟨entry, indexed, -, rfl, -⟩ | ⟨q, -, found, -, rfl, -⟩ := recorded_cases recorded
    · obtain ⟨only, claimed, admitted⟩ := entryOf_eq_some (slot.entry.symm.trans indexed)
      have named := (mem_claims_children.mp (claimed ▸ List.mem_singleton_self only)).1
      have malformed := (admission_eq_some admitted).2.1
      rw [named] at malformed
      rcases either with ⟨c, claim, same⟩ | attached
      · rw [claimed, List.mem_singleton] at claim
        subst claim
        rw [List.mem_singleton, ← same]
        obtain ⟨-, -, ⟨_, -, -, rfl⟩ | ⟨-, _, -, rfl⟩⟩ := admission_eq_some admitted <;> rfl
      · have shut := slot.reached attached
        simp [claimed, Shut, malformed, admitted] at shut
    · rw [slot.paths q found id]
      rcases either with ⟨c, claim, same⟩ | attached
      · exact Or.inl (List.mem_map.mpr ⟨c, claim, same⟩)
      · exact Or.inr ⟨rfl, attached⟩

theorem recorded_live {uuid : QuarantineUuid} {dests : List String} {wasQuarantined : Bool}
    {row : InstallationRow} (up : (scan codec view mint now root table).registry = some registry)
    (recorded : registry.recorded id = some (uuid, dests, wasQuarantined))
    (live : (scan codec view mint now root table).table.live? id = some row) :
    uuid = .minted row.installationUuid := by
  have anchored := anchored_scan up
  have slot := scanned_slot codec view mint root table id
  obtain ⟨entry, indexed, rfl, -, -⟩ | ⟨q, -, found, rfl, -, -⟩ := recorded_cases recorded
  · obtain ⟨row', live', backs⟩ := anchored.entry id entry indexed
    obtain rfl := Option.some.inj (live.symm.trans live')
    rw [backs.uuid]
  · obtain ⟨-, rfl⟩ := scan_registry up
    exact (slot.uuid q found).trans (shutUuid_scan live)

end

theorem exists_fresh (host : Host) : ∃ uuid : MintedUuid,
    uuid ∉ host.table.rows.map InstallationRow.installationUuid ∧
      host.root.find? (stagingName uuid) = none := by
  let used := host.table.rows.map (·.installationUuid.hex) ++
    host.root.nodes.map fun child => String.ofList (child.1.toList.drop 14)
  obtain ⟨hex, fresh⟩ := Infinite.exists_notMem_finset used.toFinset
  rw [List.mem_toFinset, List.mem_append, not_or] at fresh
  refine ⟨⟨hex⟩, ?_, ?_⟩
  · intro mem
    obtain ⟨row, here, same⟩ := List.mem_map.mp mem
    exact fresh.1 (List.mem_map.mpr ⟨row, here, by rw [same]⟩)
  · rw [Option.eq_none_iff_forall_ne_some]
    intro node found
    refine fresh.2 (List.mem_map.mpr ⟨_, PluginsRoot.find?_eq_some.mp found, ?_⟩)
    have start : (stagingPrefix ++ "inst-").toList.length = 14 := by decide
    rw [stagingName, String.toList_append, ← start, List.drop_left, String.ofList_toList]

theorem exists_validInstall (host : Host) (id : String) :
    ∃ call, ValidInstall host (fun _ => none) call id := by
  obtain ⟨uuid, fresh, unstaged⟩ := exists_fresh host
  exact ⟨plainInstall id uuid, {
    source := ⟨_, _, rfl, rfl, rfl⟩
    gate := rfl
    staged := ⟨_, rfl, rfl, by simp [plainManifest]⟩
    digest := ⟨_, rfl⟩
    fault := rfl
    fresh := fresh
    unstaged := unstaged }⟩

section
variable {view : ScanView} {mint : String → MintedUuid} {now : Int} {root : PluginsRoot}
  {table : PluginInstallation}

theorem removeDirs_all (root : PluginsRoot) (dests : List String) :
    (removeDirs none root dests).2 = true := by
  induction dests generalizing root with
  | nil => rfl
  | cons dest rest ih => exact ih _

theorem uninstall_recorded {uuid : QuarantineUuid} {dests : List String} {wasQuarantined : Bool}
    (recorded : registry.recorded id = some (uuid, dests, wasQuarantined)) (now : Int) :
    host.uninstall registry (plainUninstall id now) =
      (⟨(removeDirs none host.root dests).1, host.table.tombstoneInstallationRow now uuid,
        some (registry.drop id wasQuarantined)⟩, .ok uuid) := by
  simp [Host.uninstall, plainUninstall, recorded, removeDirs_all]

theorem recoverable_iff (up : (scan codec view mint now root table).registry = some registry)
    (safe : isSafePluginId id = true) :
    (scan codec view mint now root table).Recoverable codec registry id ↔
      Recovers codec view mint root table id := by
  have plain := isStaging_of_safe safe
  have same := scan_root codec view mint now root table id plain
  constructor
  · intro recoverable
    obtain ⟨uuid, registry', host', done, up', installs⟩ := recoverable 0
    cases recorded : registry.recorded id with
    | none => simp [Host.uninstall, plainUninstall, recorded] at done
    | some found =>
        obtain ⟨uuid', dests, wasQuarantined⟩ := found
        refine ⟨(recorded_scan up).mp (by simp [recorded]), ?_⟩
        rw [← recorded_paths up recorded]
        by_contra stays
        rw [not_or] at stays
        rw [uninstall_recorded recorded] at done
        cases done
        obtain ⟨call, valid⟩ := exists_validInstall ⟨(removeDirs none
          (scan codec view mint now root table).root dests).1,
          (scan codec view mint now root table).table.tombstoneInstallationRow 0 uuid,
          some (registry.drop id wasQuarantined)⟩ id
        obtain ⟨entry, row, registry'', host'', success, -⟩ := installs _ call valid
        have kept : (removeDirs none (scan codec view mint now root table).root dests).1.find? id ≠
            none := by
          obtain ⟨-, mem, -⟩ | ⟨-, kept, -⟩ :=
            removeDirs_spec none (scan codec view mint now root table).root dests id
          · exact absurd mem stays.2
          · rw [kept stays.2, same]
            exact stays.1
        rcases install_refused codec registry' kept valid with
          refused | refused <;> simp [success] at refused
  · rintro ⟨known, cleared⟩ now'
    obtain ⟨found, recorded⟩ := Option.isSome_iff_exists.mp ((recorded_scan up).mpr known)
    obtain ⟨uuid, dests, wasQuarantined⟩ := found
    rw [← recorded_paths up recorded] at cleared
    refine ⟨uuid, _, _, uninstall_recorded recorded now', rfl, ?_⟩
    intro gate call valid
    refine install_succeeds safe ?_ ?_ valid
    · obtain ⟨-, -, gone⟩ | ⟨worn, kept, all⟩ :=
        removeDirs_spec none (scan codec view mint now root table).root dests id
      · exact gone
      · have free : (scan codec view mint now root table).root.find? id = none := by
          rcases cleared with free | mem
          · rw [same, free]
          · exact all (removeDirs_all _ _) mem
        rw [free] at worn
        rcases worn with same | ⟨loss, same⟩ <;> exact same
    · rw [Option.eq_none_iff_forall_ne_some]
      intro row live
      obtain ⟨before, spared⟩ := tombstoneInstallationRow_live.mp live
      exact spared (recorded_live up recorded before).symm

end

def ownRoot : PluginsRoot := ⟨[("org.a", .dir (plainPackage "org.a"))], List.nodup_singleton _⟩

theorem undigested_recoverable : ∃ registry,
    (scan plainCodec clearView (fun _ => ⟨"01"⟩) 0 ownRoot undigestedTable).registry =
      some registry ∧ registry.isQuarantined "org.a" = true ∧
    (scan plainCodec clearView (fun _ => ⟨"01"⟩) 0 ownRoot undigestedTable).Recoverable plainCodec
      registry "org.a" := by
  refine ⟨_, rfl, rfl, (recoverable_iff rfl (by decide)).mpr ⟨Or.inr ⟨undigestedRow, rfl, rfl⟩, ?_⟩⟩
  have claim : (⟨"org.a", plainPackage "org.a", plainManifest "org.a"⟩ : Sighting) ∈
      clearView.claims (clearView.children ownRoot) "org.a" :=
    mem_claims_children.mpr ⟨rfl, rfl, rfl, rfl⟩
  exact Or.inr (Or.inl ⟨_, claim, rfl⟩)

theorem unparsed_unrecoverable : ¬ ∀ codec view mint now root table registry id,
    (scan codec view mint now root table).registry = some registry → isSafePluginId id = true →
      ((∃ row, (scan codec view mint now root table).table.live? id = some row) ∨
        ∃ pkg, root.find? id = some (.dir pkg)) →
      (scan codec view mint now root table).Recoverable codec registry id := by
  intro recoverable
  obtain ⟨registry, up, unrecorded⟩ : ∃ registry,
      (scan plainCodec clearView (fun _ => ⟨"01"⟩) 0 unparsedRoot .empty).registry =
        some registry ∧ registry.recorded "org.a" = none := ⟨_, rfl, rfl⟩
  obtain ⟨uuid, registry', host', done, -⟩ := recoverable plainCodec clearView (fun _ => ⟨"01"⟩) 0
    unparsedRoot .empty registry "org.a" up (by decide) (Or.inr ⟨_, rfl⟩) 0
  simp [Host.uninstall, plainUninstall, unrecorded] at done

end OxidHome.Installed

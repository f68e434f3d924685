import OxidHome.Installed.Outcomes

/-!
# The live rows behind a registry

What the registry has under an id names the live row of the id, through installs and uninstalls.
-/

namespace OxidHome.Installed
open Manifest Library

def InstallationRow.Grants (codec : GrantCodec) (row : InstallationRow)
    (grant : CapabilitiesSection) : Prop :=
  ∃ json, row.grantedCapabilitiesJson = some json ∧
    (codec.decode json = some grant ∨ json = codec.encode grant)

structure InstallationRow.Backs (codec : GrantCodec) (row : InstallationRow)
    (entry : InstalledPlugin) : Prop where
  uuid : row.installationUuid = entry.installationUuid
  digest : row.contentDigest = some entry.contentDigest
  grant : row.Grants codec entry.grantedCapabilities

theorem InstallationRow.backs_row (codec : GrantCodec) (now : Int) (plugin : InstalledPlugin) :
    (plugin.row codec now).Backs codec plugin :=
  ⟨rfl, rfl, _, rfl, Or.inr rfl⟩

structure Anchored (codec : GrantCodec) (table : PluginInstallation)
    (registry : InstalledPluginRegistry) : Prop where
  entry : ∀ id entry, registry.entries id = some entry →
    ∃ row, table.live? id = some row ∧ row.Backs codec entry
  quarantined : ∀ id q uuid, registry.quarantined id = some q →
    q.installationUuid = .minted uuid → ∃ row, table.live? id = some row ∧
      row.installationUuid = uuid
  apart : ∀ id entry q uuid, registry.entries id = some entry →
    registry.quarantined id = some q → q.installationUuid ≠ .minted uuid

variable {codec : GrantCodec} {host : Host} {registry : InstalledPluginRegistry} {id : String}

theorem PluginInstallation.live?_uuid {table : PluginInstallation} {id other : String}
    {row row' : InstallationRow} (live : table.live? id = some row)
    (live' : table.live? other = some row')
    (same : row.installationUuid = row'.installationUuid) : id = other := by
  obtain ⟨mem, -, rfl⟩ := live?_eq_some.mp live
  obtain ⟨mem', -, rfl⟩ := live?_eq_some.mp live'
  rw [List.inj_on_of_nodup_map table.uuids mem mem' same]

section
variable {view : ScanView} {mint : String → MintedUuid} {now : Int} {root : PluginsRoot}
  {table : PluginInstallation}

theorem rowUuid_eq (id : String) : rowUuid (loadLiveInstallations codec table) id =
    (table.live? id).map (·.installationUuid) := by
  have live_ : (loadLiveInstallations codec table).live id =
    (table.live? id).bind (·.accepted codec) := rfl
  have malformed_ : (loadLiveInstallations codec table).quarantinedUuids id =
    ((table.live? id).filter fun row => (row.accepted codec).isNone).map (·.installationUuid) := rfl
  rw [rowUuid, live_, malformed_]
  cases table.live? id with
  | none => rfl
  | some row =>
      cases accepted : row.accepted codec with
      | none => simp [accepted, Option.filter]
      | some installation => simp [accepted, (InstallationRow.accepted_eq_some accepted).1]

theorem loadLive_some {live : LiveInstallation}
    (found : (loadLiveInstallations codec table).live id = some live) :
    ∃ row, table.live? id = some row ∧ row.accepted codec = some live :=
  Option.bind_eq_some_iff.mp found

theorem malformed_iff : ((loadLiveInstallations codec table).quarantinedUuids id).isSome = true ↔
    ∃ row, table.live? id = some row ∧ row.accepted codec = none := by
  change (((table.live? id).filter fun row => (row.accepted codec).isNone).map _).isSome = true ↔ _
  rw [Option.isSome_map, Option.isSome_iff_exists]
  simp only [Option.filter_eq_some_iff, Option.isNone_iff_eq_none]

theorem Swept.unclaimed (swept : Swept codec view root table id) :
    view.claims (view.children root) id = [] := swept.2.1

theorem scan_uuid {uuid : MintedUuid} {claims : List Sighting}
    (up : (scan codec view mint now root table).registry.isSome)
    (claimed : view.claims (view.children root) id = claims)
    (shut : shutUuid (loadLiveInstallations codec table) view mint id claims = .minted uuid)
    (unswept : ¬ Swept codec view root table id) :
    ∃ row, (scan codec view mint now root table).table.live? id = some row ∧
      row.installationUuid = uuid := by
  unfold shutUuid at shut
  rw [rowUuid_eq] at shut
  cases live : table.live? id with
  | some row =>
      exact ⟨row, scan_kept live unswept, by simpa [live] using shut⟩
  | none =>
      cases filled : backfill (loadLiveInstallations codec table) view mint id claims with
      | none => simp [live, filled] at shut
      | some plugin =>
          have same : plugin.installationUuid = uuid := by simpa [live, filled] using shut
          subst claimed
          exact ⟨_, scan_backfilled up filled, same⟩

theorem shutUuid_scan {row : InstallationRow}
    (live : (scan codec view mint now root table).table.live? id = some row) :
    shutUuid (loadLiveInstallations codec table) view mint id
      (view.claims (view.children root) id) = .minted row.installationUuid := by
  rcases scan_live live with ⟨before, -⟩ | ⟨plugin, filled, rfl⟩
  · exact shutUuid_row (by rw [rowUuid_eq, before, Option.map_some])
  · have filled : backfill (loadLiveInstallations codec table) view mint id
        (view.claims (view.children root) id) = some plugin := filled
    have free : rowUuid (loadLiveInstallations codec table) id = none := by
      by_contra taken
      simp [backfill, Option.ne_none_iff_isSome.mp taken] at filled
    simp [shutUuid, free, filled, InstalledPlugin.row]

theorem scan_entry {registry : InstalledPluginRegistry} {entry : InstalledPlugin}
    (up : (scan codec view mint now root table).registry = some registry)
    (indexed : registry.entries id = some entry) :
    ∃ only, view.claims (view.children root) id = [only] ∧ only.id = id ∧ entry.path = only.path ∧
      only.package.contentDigest = some entry.contentDigest ∧
      ((∃ row, table.live? id = some row ∧ row.Backs codec entry) ∨
        Backfilled codec view mint root table id = some entry) := by
  obtain ⟨-, rfl⟩ := scan_registry up
  have slot := scanned_slot codec view mint root table id
  obtain ⟨only, claimed, admitted⟩ := entryOf_eq_some (slot.entry.symm.trans indexed)
  have named := (mem_claims_children.mp (claimed ▸ List.mem_singleton_self only)).1
  have digest : ∀ digest, view.digest only = some digest →
      only.package.contentDigest = some digest := by
    intro digest read
    unfold ScanView.digest at read
    split at read
    · cases read
    · exact read
  have filled : rowUuid (loadLiveInstallations codec table) id = none →
      Backfilled codec view mint root table id = some entry := by
    intro row
    rw [Backfilled, backfill, claimed, row]
    exact admitted
  obtain ⟨-, malformed, ⟨live, found, read, rfl⟩ | ⟨free, d, read, rfl⟩⟩ :=
    admission_eq_some admitted
  · rw [named] at found
    obtain ⟨row, alive, accepted⟩ := loadLive_some found
    obtain ⟨uuid, stored, json, grant, decoded⟩ := InstallationRow.accepted_eq_some accepted
    exact ⟨only, claimed, named, rfl, digest _ read,
      Or.inl ⟨row, alive, uuid.symm, stored, json, grant, Or.inl decoded⟩⟩
  · rw [named] at free malformed
    exact ⟨only, claimed, named, rfl, digest _ read,
      Or.inr (filled (by simp [rowUuid, free, malformed]))⟩

theorem anchored_scan {registry : InstalledPluginRegistry}
    (up : (scan codec view mint now root table).registry = some registry) :
    Anchored codec (scan codec view mint now root table).table registry := by
  have some_ : (scan codec view mint now root table).registry.isSome := by simp [up]
  have slot := fun id => scanned_slot codec view mint root table id
  obtain ⟨-, rfl⟩ := scan_registry up
  refine { entry := ?entry, quarantined := ?quarantined, apart := ?apart }
  case entry =>
    intro id entry indexed
    obtain ⟨only, claimed, -, -, -, ⟨row, live, backs⟩ | filled⟩ := scan_entry up indexed
    · have unswept : ¬ Swept codec view root table id := fun swept => by
        simp [swept.unclaimed] at claimed
      exact ⟨row, scan_kept live unswept, backs⟩
    · exact ⟨_, scan_backfilled some_ filled, InstallationRow.backs_row ..⟩
  case quarantined =>
    intro id q uuid found minted
    have shut := (slot id).shut.mp (Option.isSome_of_eq_some found)
    have named := (slot id).uuid q found
    rw [minted] at named
    refine scan_uuid some_ rfl named.symm ?_
    rintro ⟨⟨live, here⟩, unclaimed, -⟩
    rw [unclaimed, shut_nil, (loadLiveInstallations codec table).disjoint id live here] at shut
    cases shut
  case apart =>
    intro id entry q uuid indexed found
    have shut := (slot id).shut.mp (Option.isSome_of_eq_some found)
    replace indexed := (slot id).entry.symm.trans indexed
    obtain ⟨only, claimed, admitted⟩ := entryOf_eq_some indexed
    have named := (mem_claims_children.mp (claimed ▸ List.mem_singleton_self only)).1
    have malformed := (admission_eq_some admitted).2.1
    rw [named] at malformed
    simp [claimed, Shut, malformed, admitted] at shut

end

theorem Anchored.mono {table table' : PluginInstallation} (anchored : Anchored codec table registry)
    (kept : ∀ id row, table.live? id = some row → table'.live? id = some row) :
    Anchored codec table' registry where
  entry := by
    intro id entry indexed
    obtain ⟨row, live, backs⟩ := anchored.entry id entry indexed
    exact ⟨row, kept id row live, backs⟩
  quarantined := by
    intro id q uuid found minted
    obtain ⟨row, live, same⟩ := anchored.quarantined id q uuid found minted
    exact ⟨row, kept id row live, same⟩
  apart := anchored.apart

theorem PluginInstallation.live?_insert_kept {table table' : PluginInstallation}
    {row : InstallationRow} (inserted : table.insert row = some table') (alive : row.live = true)
    (id : String) (row' : InstallationRow) (live : table.live? id = some row') :
    table'.live? id = some row' := by
  rw [live?_insert inserted alive, if_neg, live]
  rintro rfl
  rw [insert_free inserted alive] at live
  cases live

theorem Anchored.installs {gate : String → Option String} {call : InstallCall} {host' : Host}
    {outcome : Outcome InstallError InstalledPlugin} {registry' : InstalledPluginRegistry}
    (anchored : Anchored codec host.table registry) (up : host.registry = some registry)
    (installs : Installs codec host registry gate call host' outcome)
    (after : host'.registry = some registry') : Anchored codec host'.table registry' := by
  cases installs with
  | refused _ stays =>
      rw [registry_stays up stays after]
      exact anchored
  | leftBehind _ _ inserted _ stays =>
      rw [registry_stays up stays after]
      exact anchored.mono (PluginInstallation.live?_insert_kept inserted rfl)
  | @placed row root table registry'' _ checked inserted dirs placed =>
      obtain ⟨rfl, -⟩ | ⟨rfl, -⟩ := placed
      · cases after
        have kept := anchored.mono (PluginInstallation.live?_insert_kept inserted rfl)
        have free : host.table.live? row.pluginId = none :=
          PluginInstallation.insert_free inserted rfl
        refine { entry := ?entry, quarantined := kept.quarantined, apart := ?apart }
        case entry =>
          intro id entry indexed
          by_cases named : id = row.pluginId
          · subst named
            simp only [Function.update_self, Option.some.injEq] at indexed
            subst indexed
            refine ⟨_, ?_, InstallationRow.backs_row codec call.now row⟩
            rw [PluginInstallation.live?_insert inserted rfl]
            exact if_pos rfl
          · simp only [Function.update_of_ne named] at indexed
            exact kept.entry id entry indexed
        case apart =>
          intro id entry q uuid indexed found minted
          by_cases named : id = row.pluginId
          · subst named
            obtain ⟨row', live, -⟩ := anchored.quarantined _ q uuid found minted
            rw [free] at live
            cases live
          · simp only [Function.update_of_ne named] at indexed
            exact anchored.apart id entry q uuid indexed found minted
      · cases after

theorem Anchored.recorded {table : PluginInstallation} (anchored : Anchored codec table registry)
    {uuid : QuarantineUuid} {dests : List String} {wasQuarantined : Bool} {other : String}
    {row : InstallationRow} (recorded : registry.recorded id = some (uuid, dests, wasQuarantined))
    (live : table.live? other = some row) (same : .minted row.installationUuid = uuid) :
    id = other := by
  obtain ⟨entry, indexed, rfl, -, -⟩ | ⟨q, -, found, rfl, -, -⟩ := recorded_cases recorded
  · obtain ⟨row', live', backs⟩ := anchored.entry id entry indexed
    rw [QuarantineUuid.minted.injEq] at same
    exact PluginInstallation.live?_uuid live' live (backs.uuid.trans same.symm)
  · obtain ⟨row', live', uuid⟩ := anchored.quarantined id q _ found same.symm
    exact PluginInstallation.live?_uuid live' live uuid

theorem Anchored.uninstalls {call : UninstallCall} {host' : Host}
    {outcome : Outcome UninstallError QuarantineUuid} {registry' : InstalledPluginRegistry}
    (anchored : Anchored codec host.table registry) (up : host.registry = some registry)
    (uninstalls : Uninstalls host registry call host' outcome)
    (after : host'.registry = some registry') : Anchored codec host'.table registry' := by
  cases uninstalls with
  | unknown =>
      rw [up] at after
      cases after
      exact anchored
  | stopped _ stays =>
      rw [registry_stays up stays after]
      exact anchored
  | @done uuid dests wasQuarantined registry'' _ recorded removed dropped =>
      obtain ⟨rfl, -⟩ | ⟨rfl, -⟩ := dropped
      · cases after
        have kept : ∀ id row, id ≠ call.pluginId → host.table.live? id = some row →
            (host.table.tombstoneInstallationRow call.now uuid).live? id = some row := by
          intro id row other live
          rw [tombstoneInstallationRow_live]
          exact ⟨live, fun same => other (anchored.recorded recorded live same).symm⟩
        refine { entry := ?entry, quarantined := ?quarantined, apart := ?apart }
        case entry =>
          intro id entry indexed
          obtain ⟨before, other⟩ := drop_entries recorded indexed
          obtain ⟨row, live, backs⟩ := anchored.entry id entry before
          exact ⟨row, kept id row other live, backs⟩
        case quarantined =>
          intro id q uuid' found minted
          obtain ⟨before, indexed⟩ := drop_quarantined found
          obtain ⟨row, live, same⟩ := anchored.quarantined id q uuid' before minted
          refine ⟨row, kept id row ?_ live, same⟩
          rintro rfl
          obtain ⟨entry, here, -, -, -⟩ | ⟨_, -, -, -, -, wrong⟩ := recorded_cases recorded
          · exact anchored.apart _ entry q uuid' here before minted
          · rw [indexed rfl] at wrong
            cases wrong
        case apart =>
          intro id entry q uuid' indexed found
          exact anchored.apart id entry q uuid' (drop_entries recorded indexed).1 (drop_quarantined found).1
      · cases after

end OxidHome.Installed

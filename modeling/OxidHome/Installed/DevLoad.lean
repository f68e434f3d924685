import OxidHome.Installed.Coherence

/-!
# Dev loads of an installed id

The identity and the grant that `PluginInstance::instantiate` picks, against the live rows.
-/

namespace OxidHome.Installed
open Manifest Library

inductive LoadMode where
  | installed (expected : MintedUuid)
  | dev

structure PluginLoad where
  mode : LoadMode
  manifest : PluginManifest
  /-- `loaded_dir_matches_registry` -/
  matchesRegistry : String → Bool
  /-- `recompute_installed_digest` -/
  onDisk : Option String

inductive InstanceIdentity where
  | minted (uuid : MintedUuid)
  | synthetic (pluginId : String)
deriving DecidableEq

inductive LoadError where
  | quarantined
  | digestUnreadable
  | digestMismatch
  | identityChanged
  | disappeared
  | shadowsInstalled
deriving DecidableEq

/-- Under the row, when the bytes on disk have its digest. -/
def runInstalled (load : PluginLoad) (row : InstalledPlugin) :
    Except LoadError (InstanceIdentity × CapabilitiesSection) :=
  match load.onDisk with
  | none => .error .digestUnreadable
  | some onDisk =>
    if onDisk ≠ row.contentDigest then .error .digestMismatch
    else .ok (.minted row.installationUuid,
      effectiveCapabilities load.manifest.capabilities row.grantedCapabilities)

def instantiate (registry : InstalledPluginRegistry) (load : PluginLoad) :
    Except LoadError (InstanceIdentity × CapabilitiesSection) :=
  if registry.isQuarantined load.manifest.id then .error .quarantined
  else match load.mode, registry.get load.manifest.id with
    | .installed expected, some row =>
      if row.installationUuid = expected ∧ load.matchesRegistry row.path = true then
        runInstalled load row
      else .error .identityChanged
    | .installed _, none => .error .disappeared
    | .dev, some row =>
      if load.matchesRegistry row.path then runInstalled load row else .error .shadowsInstalled
    | .dev, none => .ok (.synthetic load.manifest.id, load.manifest.capabilities)

namespace Host
variable (codec : GrantCodec)

/-- A dev load of an id with a live row is refused, or runs as the row has it. -/
def Unshadowed (host : Host) : Prop :=
  ∀ registry load row, host.registry = some registry → load.mode = .dev →
    host.table.live? load.manifest.id = some row → ∀ identity grant,
      instantiate registry load = .ok (identity, grant) →
        identity = .minted row.installationUuid ∧ load.onDisk = row.contentDigest ∧
          ∃ bound, row.Grants codec bound ∧ grant.BoundedBy bound

/-- An install whose rename fails and whose row cannot be deleted. -/
def Orphans (host : Host) : Request → Prop
  | .uninstall _ => False
  | .install gate call => call.fault = some (.rename true) ∧
    ∃ row, Checked gate host.root call row ∧ host.table.live? row.pluginId = none

end Host

/-- A live row that the scan accepts, finds no directory of, and does not tombstone. -/
def Stranded (codec : GrantCodec) (view : ScanView) (root : PluginsRoot)
    (table : PluginInstallation) (id : String) : Prop :=
  (∃ row, table.live? id = some row ∧ (row.accepted codec).isSome = true) ∧
    view.claims (view.children root) id = [] ∧
    (view.tombstoneFails id = true ∨ (∃ child ∈ root.nodes, view.entryError child.1 = true) ∨
      ∃ child ∈ root.nodes, view.defers child = true)

def Known (table : PluginInstallation) (registry : InstalledPluginRegistry) : Prop :=
  ∀ id row, table.live? id = some row → (registry.entries id).isSome = true ∨
    ∃ q, registry.quarantined id = some q ∧ q.installationUuid = .minted row.installationUuid

variable {codec : GrantCodec} {host : Host} {registry : InstalledPluginRegistry}

theorem Known.unshadowed (known : Known host.table registry)
    (anchored : Anchored codec host.table registry) (up : host.registry = some registry) :
    host.Unshadowed codec := by
  intro registry' load row up' dev live identity grant ran
  obtain rfl := Option.some.inj (up.symm.trans up')
  unfold instantiate at ran
  split at ran
  · cases ran
  · rename_i clear
    rw [InstalledPluginRegistry.isQuarantined, Bool.not_eq_true,
      Option.isSome_eq_false_iff, Option.isNone_iff_eq_none] at clear
    rcases known _ row live with indexed | ⟨q, found, -⟩
    · obtain ⟨entry, indexed⟩ := Option.isSome_iff_exists.mp indexed
      obtain ⟨row', live', backs⟩ := anchored.entry _ entry indexed
      obtain rfl := Option.some.inj (live.symm.trans live')
      simp only [dev, InstalledPluginRegistry.get, indexed] at ran
      split at ran
      · unfold runInstalled at ran
        cases read : load.onDisk with
        | none => simp [read] at ran
        | some onDisk =>
            simp only [read] at ran
            split at ran
            · cases ran
            · rename_i same
              cases ran
              refine ⟨by rw [backs.uuid], ?_, _, backs.grant, effectiveCapabilities_bounded _ _⟩
              rw [backs.digest, not_not.mp same]
      · cases ran
    · rw [clear] at found
      cases found

section
variable {view : ScanView} {mint : String → MintedUuid} {now : Int} {root : PluginsRoot}
  {table : PluginInstallation}

theorem known_scan (unstranded : ∀ id, ¬ Stranded codec view root table id)
    (up : (scan codec view mint now root table).registry = some registry) :
    Known (scan codec view mint now root table).table registry := by
  obtain ⟨loaded, rfl⟩ := scan_registry up
  intro id row live
  have slot := scanned_slot codec view mint root table id
  have same := shutUuid_scan live
  have shut_known : Shut (loadLiveInstallations codec table) view mint id
      (view.claims (view.children root) id) →
      ∃ q, (scanned codec view mint root table).quarantined id = some q ∧
        q.installationUuid = .minted row.installationUuid := by
    intro shut
    obtain ⟨q, found⟩ := Option.isSome_iff_exists.mp (slot.shut.mpr shut)
    exact ⟨q, found, (slot.uuid q found).trans same⟩
  match claims : view.claims (view.children root) id with
  | [only] =>
      cases admitted : admission (loadLiveInstallations codec table) view mint only with
      | some entry =>
          left
          dsimp only
          rw [slot.entry, claims, entryOf, admitted]
          rfl
      | none => exact Or.inr (shut_known (Or.inr ⟨only, [], claims, Or.inl admitted⟩))
  | first :: second :: rest =>
      exact Or.inr (shut_known (Or.inr ⟨first, second :: rest, claims, Or.inr (by simp)⟩))
  | [] =>
      rcases scan_live live with ⟨before, unswept⟩ | ⟨plugin, filled, -⟩
      · cases accepted : row.accepted codec with
        | none =>
            have malformed : (loadLiveInstallations codec table).quarantinedUuids id =
                some row.installationUuid := by
              simp [loadLiveInstallations, before, accepted, Option.filter]
            exact Or.inr (shut_known (Or.inl (Option.isSome_of_eq_some malformed)))
        | some installation =>
            refine absurd ⟨⟨row, before, by simp [accepted]⟩, claims, ?_⟩ (unstranded id)
            by_contra swept
            simp only [not_or, not_exists, not_and, Bool.not_eq_true] at swept
            have loaded_ : (loadLiveInstallations codec table).live id = some installation := by
              simp [loadLiveInstallations, before, accepted]
            exact unswept loaded ⟨⟨installation, loaded_⟩, claims, swept.1, swept.2.1, swept.2.2⟩
      · simp [Backfilled, backfill, claims] at filled

end

theorem Known.installs {gate : String → Option String} {call : InstallCall} {host' : Host}
    {outcome : Outcome InstallError InstalledPlugin} {registry' : InstalledPluginRegistry}
    (known : Known host.table registry) (up : host.registry = some registry)
    (clear : ¬ host.Orphans (.install gate call))
    (installs : Installs codec host registry gate call host' outcome)
    (after : host'.registry = some registry') : Known host'.table registry' := by
  cases installs with
  | refused _ stays =>
      rw [registry_stays up stays after]
      exact known
  | @leftBehind row root table registry'' _ checked leaves inserted dirs stays crashed failed =>
      exfalso
      have free : host.table.live? row.pluginId = none :=
        PluginInstallation.insert_free inserted rfl
      rcases leaves with cut | renamed
      · dsimp only at after
        rw [crashed cut] at after
        cases after
      · exact clear ⟨renamed, row, checked, free⟩
  | @placed row root table registry'' _ checked inserted dirs placed =>
      obtain ⟨rfl, -⟩ | ⟨rfl, -⟩ := placed
      · cases after
        intro id row' live
        rw [PluginInstallation.live?_insert inserted rfl] at live
        by_cases named : id = row.pluginId
        · left
          rw [named]
          simp
        · rw [if_neg fun same => named same.symm] at live
          simpa [Function.update_of_ne named] using known id row' live
      · cases after

theorem Known.uninstalls {call : UninstallCall} {host' : Host}
    {outcome : Outcome UninstallError QuarantineUuid} {registry' : InstalledPluginRegistry}
    (known : Known host.table registry) (anchored : Anchored codec host.table registry)
    (up : host.registry = some registry)
    (uninstalls : Uninstalls host registry call host' outcome)
    (after : host'.registry = some registry') : Known host'.table registry' := by
  cases uninstalls with
  | unknown =>
      rw [registry_stays up (Or.inl rfl) after]
      exact known
  | stopped _ stays =>
      rw [registry_stays up stays after]
      exact known
  | @done uuid dests wasQuarantined registry'' _ recorded removed dropped =>
      obtain ⟨rfl, -⟩ | ⟨rfl, -⟩ := dropped
      · cases after
        intro id row live
        obtain ⟨before, spared⟩ := tombstoneInstallationRow_live.mp live
        by_cases named : id = call.pluginId
        · subst named
          exfalso
          obtain ⟨entry, indexed, rfl, -, -⟩ | ⟨q, unindexed, found, rfl, -, -⟩ :=
            recorded_cases recorded
          · obtain ⟨row', live', backs⟩ := anchored.entry _ entry indexed
            obtain rfl := Option.some.inj (before.symm.trans live')
            exact spared (by rw [backs.uuid])
          · rcases known _ row before with indexed | ⟨q', found', same⟩
            · simp [unindexed] at indexed
            · obtain rfl := Option.some.inj (found.symm.trans found')
              exact spared same.symm
        · rw [(drop_other named).1, (drop_other named).2]
          exact known id row before
      · cases after

theorem dev_load_unshadowed (codec : GrantCodec) (view : ScanView) (mint : String → MintedUuid)
    (now : Int) (root : PluginsRoot) (table : PluginInstallation)
    (unstranded : ∀ id, ¬ Stranded codec view root table id) (requests : List Request)
    (clear : ∀ before request, before ++ [request] <+: requests → ∀ host,
      exec (Host.serve codec) (scan codec view mint now root table) before = some host →
        ¬ host.Orphans request)
    (before : List Request) (within : before <+: requests) (host : Host)
    (reached : exec (Host.serve codec) (scan codec view mint now root table) before = some host) :
    host.Unshadowed codec := by
  have invariant : ∀ registry, host.registry = some registry →
      Known host.table registry ∧ Anchored codec host.table registry := by
    induction before using List.reverseRecOn generalizing host with
    | nil =>
        cases reached
        exact fun registry up => ⟨known_scan unstranded up, anchored_scan up⟩
    | append_singleton before request ih =>
        obtain ⟨host', first, taken⟩ := exec_concat.mp reached
        have invariant := ih ((List.prefix_append _ _).trans within) host' first
        have clear := clear before request within host' first
        obtain ⟨registry, up, rfl⟩ := Option.map_eq_some_iff.mp taken
        obtain ⟨known, anchored⟩ := invariant registry up
        intro registry' after
        cases request with
        | install gate call =>
            have spec := install_spec codec host' registry gate call
            exact ⟨known.installs up clear spec after, anchored.installs up spec after⟩
        | uninstall call =>
            have spec := uninstall_spec host' registry call
            exact ⟨known.uninstalls anchored up spec after, anchored.uninstalls up spec after⟩
  intro registry load row up
  obtain ⟨known, anchored⟩ := invariant registry up
  exact known.unshadowed anchored up registry load row up

def plainLoad (id : String) : PluginLoad where
  mode := .dev
  manifest := plainManifest id
  matchesRegistry _ := true
  onDisk := some "digest"

theorem installed_dev_load : ∃ host registry,
    exec (Host.serve plainCodec)
        (scan plainCodec clearView (fun _ => ⟨"01"⟩) 0 storedRoot installedTable)
        [.install (fun _ => none) (plainInstall "org.b" ⟨"02"⟩)] = some host ∧
    host.registry = some registry ∧
    instantiate registry (plainLoad "org.a") = .ok (.minted ⟨"00"⟩, plainCapabilities) ∧
    instantiate registry (plainLoad "org.b") = .ok (.minted ⟨"02"⟩, plainCapabilities) ∧
    host.Unshadowed plainCodec := by
  refine ⟨_, _, rfl, rfl, rfl, rfl, ?_⟩
  refine dev_load_unshadowed plainCodec clearView (fun _ => ⟨"01"⟩) 0 storedRoot installedTable ?_
    [.install (fun _ => none) (plainInstall "org.b" ⟨"02"⟩)] ?_ _ (List.prefix_refl _) _ rfl
  · rintro id ⟨-, -, fails | ⟨child, mem, fails⟩ | ⟨child, mem, defers⟩⟩
    · cases fails
    · cases fails
    · simp only [storedRoot, List.mem_cons, List.not_mem_nil, or_false] at mem
      rcases mem with rfl | rfl <;> cases defers
  · intro before request within host reached orphans
    obtain ⟨after, split⟩ := within
    cases before with
    | cons first rest => simp at split
    | nil =>
        simp only [List.nil_append, List.cons_append, List.cons.injEq] at split
        obtain ⟨rfl, -⟩ := split
        cases orphans.1

def unparsedRoot : PluginsRoot :=
  ⟨[("org.a", .dir ⟨none, false, true, some "digest"⟩)], List.nodup_singleton _⟩

theorem deferred_sweep_shadows : ¬ ∀ codec view mint now root table requests host,
    exec (Host.serve codec) (scan codec view mint now root table) requests = some host →
      host.Unshadowed codec := by
  intro unshadowed
  have up : ∃ registry, (scan plainCodec clearView (fun _ => ⟨"01"⟩) 0 unparsedRoot
      installedTable).registry = some registry ∧
      instantiate registry (plainLoad "org.a") = .ok (.synthetic "org.a", plainCapabilities) :=
    ⟨_, rfl, rfl⟩
  obtain ⟨registry, up, ran⟩ := up
  have wrong := (unshadowed plainCodec clearView (fun _ => ⟨"01"⟩) 0 unparsedRoot installedTable []
    _ rfl registry (plainLoad "org.a") installedRow up rfl rfl _ _ ran).1
  cases wrong

end OxidHome.Installed

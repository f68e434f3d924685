import OxidHome.Installed.LiveRows

/-!
# Coherence of the registry

After a scan and any sequence of installs and uninstalls, while no directory and no install is filed
under two ids.
-/

namespace OxidHome.Installed
open Manifest Library

/-- The id has the path in the index or in the quarantine. -/
def InstalledPluginRegistry.Records (registry : InstalledPluginRegistry) (id path : String) : Prop :=
  (∃ entry, registry.entries id = some entry ∧ entry.path = path) ∨
    ∃ q, registry.quarantined id = some q ∧ path ∈ q.paths

/-- A host since its scan, with what its entries were indexed from. -/
structure Booted where
  host : Host
  indexedAs : String → Option Package
  /-- The directories whose manifest the scan could not read. -/
  unread : String → Bool

def Node.package? : Node → Option Package
  | .dir pkg => some pkg
  | .other => none

namespace Booted
variable (codec : GrantCodec)

def boot (view : ScanView) (mint : String → MintedUuid) (now : Int) (root : PluginsRoot)
    (table : PluginInstallation) : Booted :=
  let host := scan codec view mint now root table
  { host := host
    indexedAs := fun id => (host.registry.bind fun registry => registry.entries id).bind
      fun entry => (root.find? entry.path).bind Node.package?
    unread := fun name => ((root.find? name).bind Node.package?).any
      fun pkg => (view.readManifest name pkg).isNone }

def installed (s : Booted) (call : InstallCall)
    (result : Host × Outcome InstallError InstalledPlugin) : Booted :=
  match result.2 with
  | .ok row =>
    { host := result.1
      indexedAs := Function.update s.indexedAs row.pluginId (some call.staged)
      unread := Function.update s.unread row.path false }
  | _ => { s with host := result.1 }

def step (s : Booted) (request : Request) : Option Booted :=
  s.host.registry.map fun registry =>
    match request with
    | .install gate call => s.installed call (s.host.install codec registry gate call)
    | .uninstall call => { s with host := (s.host.uninstall registry call).1 }

structure CoherentWith (s : Booted) (registry : InstalledPluginRegistry) : Prop where
  disjoint : ∀ id entry, registry.entries id = some entry → registry.quarantined id = none
  distinct : ∀ id other path, registry.Records id path → registry.Records other path → id = other
  removes : ∀ call path pkg, s.host.root.find? path = some (.dir pkg) →
    (s.host.uninstall registry call).1.root.find? path ≠ some (.dir pkg) →
    pkg.owner = some call.pluginId ∨ s.unread path = true
  rows : ∀ id entry, registry.entries id = some entry → ∃ row, s.host.table.live? id = some row ∧
    (∀ other ∈ s.host.table.rows, other.live = true → other.pluginId = id → other = row) ∧
    row.installationUuid = entry.installationUuid ∧
    row.contentDigest = some entry.contentDigest ∧
    ∃ pkg, s.indexedAs id = some pkg ∧ row.contentDigest = pkg.contentDigest

def Coherent (s : Booted) : Prop :=
  ∀ registry, s.host.registry = some registry → s.CoherentWith registry

/-- A directory whose manifest declares another id, reached while its name is quarantined. -/
def Misfiled (view : ScanView) (mint : String → MintedUuid) (root : PluginsRoot)
    (table : PluginInstallation) (name : String) : Prop :=
  Attached (loadLiveInstallations codec table) view mint (view.children root) name ∧
    ∃ pkg manifest, root.find? name = some (.dir pkg) ∧
      view.readManifest name pkg = some manifest ∧ manifest.id ≠ name

/-- An install of an id that is quarantined, or whose directory is filed under another id. -/
def Clobbers (s : Booted) : Request → Prop
  | .uninstall _ => False
  | .install gate call => ∃ registry row, s.host.registry = some registry ∧
    Checked gate s.host.root call row ∧ call.Completes ∧
    s.host.table.live? row.pluginId = none ∧
    ((registry.quarantined row.pluginId).isSome = true ∨
      ∃ other, other ≠ row.pluginId ∧ registry.Records other row.pluginId)

end Booted

/-! ## The invariant -/

structure Filed (codec : GrantCodec) (s : Booted) (registry : InstalledPluginRegistry) : Prop where
  anchored : Anchored codec s.host.table registry
  disjoint : ∀ id entry, registry.entries id = some entry → registry.quarantined id = none
  distinct : ∀ id other path, registry.Records id path → registry.Records other path → id = other
  plain : ∀ id path, registry.Records id path → isStaging path = false
  owned : ∀ id path pkg, registry.Records id path → s.host.root.find? path = some (.dir pkg) →
    pkg.owner = some id ∨ s.unread path = true
  indexed : ∀ id entry, registry.entries id = some entry →
    ∃ pkg, s.indexedAs id = some pkg ∧ pkg.contentDigest = some entry.contentDigest

variable {codec : GrantCodec} {s t : Booted} {registry : InstalledPluginRegistry}

theorem recorded_records {id : String} {uuid : QuarantineUuid} {dests : List String}
    {wasQuarantined : Bool} (recorded : registry.recorded id = some (uuid, dests, wasQuarantined))
    {path : String} (mem : path ∈ dests) : registry.Records id path := by
  obtain ⟨entry, indexed, -, rfl, -⟩ | ⟨q, -, found, -, rfl, -⟩ := recorded_cases recorded
  · exact Or.inl ⟨entry, indexed, (List.mem_singleton.mp mem).symm⟩
  · exact Or.inr ⟨q, found, mem⟩

theorem uninstall_untouched {host : Host} {call : UninstallCall} {path : String}
    (unrecorded : ¬ registry.Records call.pluginId path) :
    (host.uninstall registry call).1.root.find? path = host.root.find? path := by
  have kept : ∀ {uuid dests wasQuarantined},
      registry.recorded call.pluginId = some (uuid, dests, wasQuarantined) →
      (removeDirs call.removed host.root dests).1.find? path = host.root.find? path := by
    intro uuid dests wasQuarantined recorded
    have apart : path ∉ dests := fun mem => unrecorded (recorded_records recorded mem)
    obtain ⟨-, mem, -⟩ | ⟨-, kept, -⟩ := removeDirs_spec call.removed host.root dests path
    · exact absurd mem apart
    · exact kept apart
  have spec := uninstall_spec host registry call
  generalize host.uninstall registry call = result at spec ⊢
  obtain ⟨host', outcome⟩ := result
  cases spec with
  | unknown => rfl
  | stopped recorded => exact kept recorded
  | done recorded => exact kept recorded

theorem Filed.coherent (filed : Filed codec s registry) : s.CoherentWith registry where
  disjoint := filed.disjoint
  distinct := filed.distinct
  removes := by
    intro call path pkg here changed
    by_cases recorded : registry.Records call.pluginId path
    · exact filed.owned _ path pkg recorded here
    · rw [uninstall_untouched recorded] at changed
      exact absurd here changed
  rows := by
    intro id entry indexed
    obtain ⟨row, live, backs⟩ := filed.anchored.entry id entry indexed
    obtain ⟨pkg, from_, digest⟩ := filed.indexed id entry indexed
    refine ⟨row, live, ?_, backs.uuid, backs.digest, pkg, from_, backs.digest.trans digest.symm⟩
    intro other mem alive named
    have live' := PluginInstallation.live?_eq_some.mpr ⟨mem, alive, named⟩
    exact Option.some.inj (live'.symm.trans live)

/-! ## The scan -/

section
variable {view : ScanView} {mint : String → MintedUuid} {now : Int} {root : PluginsRoot}
  {table : PluginInstallation}

theorem scan_records {id path : String}
    (up : (scan codec view mint now root table).registry = some registry)
    (records : registry.Records id path) :
    (∃ s ∈ view.claims (view.children root) id, s.path = path) ∨ (path = id ∧
      Attached (loadLiveInstallations codec table) view mint (view.children root) id) := by
  have slot := scanned_slot codec view mint root table id
  obtain ⟨entry, indexed, rfl⟩ | ⟨q, found, mem⟩ := records
  · obtain ⟨only, claimed, -, path, -⟩ := scan_entry up indexed
    exact Or.inl ⟨only, claimed ▸ List.mem_singleton_self only, path.symm⟩
  · obtain ⟨-, rfl⟩ := scan_registry up
    rcases (slot.paths q found path).mp mem with claimed | attached
    · obtain ⟨s, here, same⟩ := List.mem_map.mp claimed
      exact Or.inl ⟨s, here, same⟩
    · exact Or.inr attached

theorem attached_plain {id : String} {load : LiveInstallationLoad} {done : List (String × Node)}
    (attached : Attached load view mint done id) : isStaging id = false := by
  obtain ⟨before, node, after, -, reached, -⟩ := attached
  simp only [ScanView.reaches, Bool.and_eq_true, Bool.not_eq_true'] at reached
  exact reached.1.2

theorem claim_plain {id : String} {c : Sighting} (claim : c ∈ view.claims (view.children root) id) :
    isStaging c.path = false := by
  obtain ⟨-, -, -, seen⟩ := mem_claims_children.mp claim
  have reached := (ScanView.sighting?_eq_some.mp seen).1
  simp only [ScanView.reaches, Bool.and_eq_true, Bool.not_eq_true'] at reached
  exact reached.1.2

theorem claim_owner {id : String} {c : Sighting} {pkg : Package}
    (claim : c ∈ view.claims (view.children root) id)
    (here : root.find? c.path = some (.dir pkg)) :
    view.readManifest c.path pkg = some c.manifest ∧ pkg = c.package ∧ pkg.owner = some id := by
  obtain ⟨named, -, found, seen⟩ := mem_claims_children.mp claim
  obtain ⟨-, -, read, -⟩ := ScanView.sighting?_eq_some.mp seen
  rw [here] at found
  cases found
  refine ⟨read, rfl, ?_⟩
  unfold ScanView.readManifest at read
  split at read
  · cases read
  · rw [Package.owner_of_readManifest read, ← named]
    rfl

theorem filed_boot
    (unmixed : ∀ name, ¬ Booted.Misfiled codec view mint root table name)
    (up : (Booted.boot codec view mint now root table).host.registry = some registry) :
    Filed codec (Booted.boot codec view mint now root table) registry := by
  have up : (scan codec view mint now root table).registry = some registry := up
  have slot := fun id => scanned_slot codec view mint root table id
  have attached_read : ∀ {id pkg manifest},
      Attached (loadLiveInstallations codec table) view mint (view.children root) id →
      root.find? id = some (.dir pkg) → view.readManifest id pkg = some manifest →
      manifest.id = id := by
    intro id pkg manifest attached here read
    by_contra other
    exact unmixed id ⟨attached, pkg, manifest, here, read, other⟩
  refine {
    anchored := anchored_scan up, disjoint := ?disjoint, distinct := ?distinct, plain := ?plain
    owned := ?owned, indexed := ?indexed }
  case disjoint =>
    obtain ⟨-, rfl⟩ := scan_registry up
    intro id entry indexed
    obtain ⟨only, claimed, admitted⟩ := entryOf_eq_some ((slot id).entry.symm.trans indexed)
    have named := (mem_claims_children.mp (claimed ▸ List.mem_singleton_self only)).1
    have malformed := (admission_eq_some admitted).2.1
    rw [named] at malformed
    apply (slot id).unquarantined
    simp [claimed, Shut, malformed, admitted]
  case plain =>
    intro id path records
    rcases scan_records up records with ⟨c, claim, rfl⟩ | ⟨rfl, attached⟩
    · exact claim_plain claim
    · exact attached_plain attached
  case distinct =>
    have mixed : ∀ id other path, (∃ c ∈ view.claims (view.children root) id, c.path = path) →
        path = other ∧
          Attached (loadLiveInstallations codec table) view mint (view.children root) other →
        id = other := by
      rintro id _ _ ⟨c, claim, rfl⟩ ⟨rfl, attached⟩
      obtain ⟨named, -, here, -⟩ := mem_claims_children.mp claim
      rw [← named]
      exact attached_read attached here (claim_owner claim here).1
    intro id other path records records'
    rcases scan_records up records with claim | attached <;>
      rcases scan_records up records' with claim' | attached'
    · obtain ⟨c, claim, rfl⟩ := claim
      obtain ⟨d, claim', same⟩ := claim'
      obtain ⟨-, -, here, -⟩ := mem_claims_children.mp claim
      have owner := (claim_owner claim here).2.2
      rw [← same] at here
      have owner' := (claim_owner claim' here).2.2
      exact Option.some.inj (owner.symm.trans owner')
    · exact mixed id other path claim attached'
    · exact (mixed other id path claim' attached).symm
    · exact attached.1.symm.trans attached'.1
  case owned =>
    intro id path pkg records here
    rcases scan_records up records with ⟨c, claim, rfl⟩ | ⟨rfl, attached⟩
    · rw [Booted.boot, scan_root _ _ _ _ _ _ _ (claim_plain claim)] at here
      exact Or.inl (claim_owner claim here).2.2
    · rw [Booted.boot, scan_root _ _ _ _ _ _ _ (attached_plain attached)] at here
      cases read : view.readManifest path pkg with
      | none => exact Or.inr (by simp [Booted.boot, here, Node.package?, read])
      | some manifest =>
          left
          rw [← attached_read attached here read]
          unfold ScanView.readManifest at read
          split at read
          · cases read
          · exact Package.owner_of_readManifest read
  case indexed =>
    intro id entry indexed
    have from_ : (Booted.boot codec view mint now root table).indexedAs id =
        (root.find? entry.path).bind Node.package? := by
      simp [Booted.boot, up, indexed]
    obtain ⟨only, claimed, -, path, digest, -⟩ := scan_entry up indexed
    obtain ⟨-, -, here, -⟩ := mem_claims_children.mp (claimed ▸ List.mem_singleton_self only)
    exact ⟨only.package, from_.trans (by simp [path, here, Node.package?]), digest⟩

end

/-! ## Requests -/

theorem Filed.moved {host : Host} (filed : Filed codec s registry)
    (anchored : Anchored codec host.table registry)
    (dirs : SameDirs s.host.root host.root) : Filed codec { s with host := host } registry where
  anchored := anchored
  disjoint := filed.disjoint
  distinct := filed.distinct
  plain := filed.plain
  owned := by
    intro id path pkg records here
    rw [dirs path (filed.plain id path records)] at here
    exact filed.owned id path pkg records here
  indexed := filed.indexed

theorem Filed.placed {row : InstalledPlugin} {staged : Package} {root : PluginsRoot}
    {table : PluginInstallation} (filed : Filed codec s registry)
    (anchored : Anchored codec table { registry with
      entries := Function.update registry.entries row.pluginId (some row) })
    (path : row.path = row.pluginId) (safe : isSafePluginId row.pluginId = true)
    (owner : staged.owner = some row.pluginId) (digest : staged.contentDigest = some row.contentDigest)
    (free : registry.quarantined row.pluginId = none)
    (unfiled : ∀ other, other ≠ row.pluginId → ¬ registry.Records other row.pluginId)
    (unindexed : registry.entries row.pluginId = none)
    (dirs : ∀ name, isStaging name = false → root.find? name =
      if name = row.pluginId then some (.dir staged) else s.host.root.find? name) :
    Filed codec {
        host := ⟨root, table, some { registry with
          entries := Function.update registry.entries row.pluginId (some row) }⟩
        indexedAs := Function.update s.indexedAs row.pluginId (some staged)
        unread := Function.update s.unread row.path false }
      { registry with entries := Function.update registry.entries row.pluginId (some row) } := by
  have unrecorded : ∀ id, ¬ registry.Records id row.pluginId := by
    intro id
    by_cases named : id = row.pluginId
    · subst named
      rintro (⟨entry, indexed, -⟩ | ⟨q, found, -⟩)
      · rw [unindexed] at indexed
        cases indexed
      · rw [free] at found
        cases found
    · exact unfiled id named
  have split : ∀ id path, InstalledPluginRegistry.Records { registry with
        entries := Function.update registry.entries row.pluginId (some row) } id path →
      (id = row.pluginId ∧ path = row.pluginId) ∨
        (registry.Records id path ∧ path ≠ row.pluginId) := by
    intro id where_ records
    have old : registry.Records id where_ → where_ ≠ row.pluginId := by
      rintro records rfl
      exact unrecorded id records
    rcases records with ⟨entry, indexed, rfl⟩ | ⟨q, found, mem⟩
    · by_cases named : id = row.pluginId
      · subst named
        simp only [Function.update_self, Option.some.injEq] at indexed
        subst indexed
        exact Or.inl ⟨rfl, path⟩
      · simp only [Function.update_of_ne named] at indexed
        have records : registry.Records id entry.path := Or.inl ⟨entry, indexed, rfl⟩
        exact Or.inr ⟨records, old records⟩
    · have records : registry.Records id where_ := Or.inr ⟨q, found, mem⟩
      exact Or.inr ⟨records, old records⟩
  refine {
    anchored := anchored, disjoint := ?disjoint, distinct := ?distinct, plain := ?plain
    owned := ?owned, indexed := ?indexed }
  case disjoint =>
    intro id entry indexed
    by_cases named : id = row.pluginId
    · rw [named]
      exact free
    · simp only [Function.update_of_ne named] at indexed
      exact filed.disjoint id entry indexed
  case distinct =>
    intro id other path' records records'
    rcases split id path' records with ⟨rfl, rfl⟩ | ⟨before, apart⟩ <;>
      rcases split other _ records' with ⟨same, same'⟩ | ⟨before', apart'⟩
    · exact same.symm
    · exact absurd rfl apart'
    · exact absurd same' apart
    · exact filed.distinct id other path' before before'
  case plain =>
    intro id path' records
    rcases split id path' records with ⟨rfl, rfl⟩ | ⟨before, -⟩
    · exact isStaging_of_safe safe
    · exact filed.plain id path' before
  case owned =>
    intro id path' pkg records here
    rcases split id path' records with ⟨rfl, rfl⟩ | ⟨before, apart⟩
    · rw [dirs _ (isStaging_of_safe safe), if_pos rfl] at here
      cases here
      exact Or.inl owner
    · rw [dirs _ (filed.plain id path' before), if_neg apart] at here
      rw [path]
      simp only [Function.update_of_ne apart]
      exact filed.owned id path' pkg before here
  case indexed =>
    intro id entry indexed
    by_cases named : id = row.pluginId
    · subst named
      simp only [Function.update_self, Option.some.injEq] at indexed
      subst indexed
      exact ⟨staged, Function.update_self .., digest⟩
    · simp only [Function.update_of_ne named] at indexed ⊢
      exact filed.indexed id entry indexed

theorem Worn.owner {before : Option Node} {pkg : Package} (worn : Worn before (some (.dir pkg))) :
    ∃ pkg', before = some (.dir pkg') ∧ pkg.owner = pkg'.owner := by
  rcases worn with same | ⟨loss, same⟩
  · exact ⟨pkg, same.symm, rfl⟩
  · obtain ⟨node, rfl, torn⟩ := Option.map_eq_some_iff.mp same.symm
    cases node with
    | other => cases torn
    | dir pkg' =>
        cases torn
        exact ⟨pkg', rfl, rfl⟩

theorem Filed.uninstalled {host : Host} {registry' : InstalledPluginRegistry}
    {removed : Option (Nat × Loss)} {dests : List String} (filed : Filed codec s registry)
    (root : host.root = (removeDirs removed s.host.root dests).1)
    (anchored : Anchored codec host.table registry')
    (entries : ∀ id entry, registry'.entries id = some entry → registry.entries id = some entry)
    (quarantined : ∀ id q, registry'.quarantined id = some q → registry.quarantined id = some q) :
    Filed codec { s with host := host } registry' := by
  have before : ∀ id path, registry'.Records id path → registry.Records id path := by
    rintro id path (⟨entry, indexed, same⟩ | ⟨q, found, mem⟩)
    · exact Or.inl ⟨entry, entries id entry indexed, same⟩
    · exact Or.inr ⟨q, quarantined id q found, mem⟩
  refine {
    anchored := anchored, disjoint := ?disjoint, distinct := ?distinct, plain := ?plain
    owned := ?owned, indexed := fun id entry indexed => filed.indexed id entry (entries id entry indexed) }
  case disjoint =>
    intro id entry indexed
    have none_ := filed.disjoint id entry (entries id entry indexed)
    rw [Option.eq_none_iff_forall_ne_some]
    intro q found
    rw [quarantined id q found] at none_
    cases none_
  case distinct =>
    intro id other path records records'
    exact filed.distinct id other path (before id path records) (before other path records')
  case plain =>
    intro id path records
    exact filed.plain id path (before id path records)
  case owned =>
    intro id path pkg records here
    dsimp only at here
    rw [root] at here
    rcases removeDirs_spec removed s.host.root dests path with ⟨-, -, gone⟩ | ⟨worn, -, -⟩
    · rw [gone] at here
      cases here
    · rw [here] at worn
      obtain ⟨pkg', there, same⟩ := worn.owner
      rw [same]
      exact filed.owned id path pkg' (before id path records) there

namespace Booted

theorem installed_host (call : InstallCall) (result : Host × Outcome InstallError InstalledPlugin) :
    (s.installed call result).host = result.1 := by
  unfold installed
  split <;> rfl

theorem installed_failed {call : InstallCall} {host : Host}
    {outcome : Outcome InstallError InstalledPlugin} (failed : call.failed outcome = true) :
    s.installed call (host, outcome) = { s with host := host } := by
  cases outcome with
  | ok row => cases failed
  | err _ => rfl
  | crashed => rfl

theorem step_filed {request : Request} {registry' : InstalledPluginRegistry}
    (filed : ∀ registry, s.host.registry = some registry → Filed codec s registry)
    (clear : ¬ s.Clobbers request) (taken : s.step codec request = some t)
    (after : t.host.registry = some registry') : Filed codec t registry' := by
  obtain ⟨registry, up, rfl⟩ := Option.map_eq_some_iff.mp taken
  have filed := filed registry up
  cases request with
  | uninstall call =>
      have spec := uninstall_spec s.host registry call
      dsimp only at after ⊢
      generalize s.host.uninstall registry call = result at spec after ⊢
      obtain ⟨host', outcome⟩ := result
      have anchored := filed.anchored.uninstalls up spec after
      cases spec with
      | unknown =>
          rw [registry_stays up (Or.inl rfl) after] at anchored ⊢
          exact filed.moved anchored (.refl _)
      | stopped recorded stays =>
          rw [registry_stays up stays after] at anchored ⊢
          exact filed.uninstalled rfl anchored (fun _ _ => id) fun _ _ => id
      | done recorded removed dropped =>
          obtain ⟨rfl, -⟩ | ⟨rfl, -⟩ := dropped
          · cases after
            exact filed.uninstalled rfl anchored
              (fun _ _ indexed => (drop_entries recorded indexed).1)
              fun _ _ found => (drop_quarantined found).1
          · cases after
  | install gate call =>
      have spec := install_spec codec s.host registry gate call
      dsimp only at after ⊢
      generalize s.host.install codec registry gate call = result at spec after ⊢
      obtain ⟨host', outcome⟩ := result
      have up' : host'.registry = some registry' := by
        rw [← after, installed_host]
      have anchored := filed.anchored.installs up spec up'
      cases spec with
      | refused dirs stays failed =>
          rw [registry_stays up stays up'] at anchored ⊢
          rw [installed_failed failed]
          exact filed.moved anchored dirs
      | leftBehind checked leaves inserted dirs stays _ failed =>
          rw [registry_stays up stays up'] at anchored ⊢
          rw [installed_failed failed]
          exact filed.moved anchored dirs
      | @placed row root table registry'' _ checked inserted dirs placed =>
          obtain ⟨rfl, rfl, completes⟩ | ⟨rfl, -⟩ := placed
          · cases up'
            have free : s.host.table.live? row.pluginId = none :=
              PluginInstallation.insert_free inserted rfl
            have wrong : ¬ ((registry.quarantined row.pluginId).isSome = true ∨
                ∃ other, other ≠ row.pluginId ∧ registry.Records other row.pluginId) := fun wrong =>
              clear ⟨registry, row, up, checked, completes, free, wrong⟩
            rw [not_or, Option.not_isSome_iff_eq_none] at wrong
            have unindexed : registry.entries row.pluginId = none := by
              rw [Option.eq_none_iff_forall_ne_some]
              intro entry indexed
              obtain ⟨row', live, -⟩ := filed.anchored.entry _ entry indexed
              rw [free] at live
              cases live
            obtain ⟨manifest, read, named, -⟩ := checked.manifest
            have owner := (Package.owner_of_readManifest read).trans (congrArg some named)
            exact filed.placed anchored checked.path checked.safe owner checked.digest wrong.1
              (fun other apart records => wrong.2 ⟨other, apart, records⟩) unindexed dirs
          · cases up'

/-! ## Runs -/

theorem coherent_while_unmixed (codec : GrantCodec) (view : ScanView) (mint : String → MintedUuid)
    (now : Int) (root : PluginsRoot) (table : PluginInstallation)
    (unmixed : ∀ name, ¬ Misfiled codec view mint root table name) (requests : List Request)
    (clear : ∀ before request, before ++ [request] <+: requests → ∀ s,
      exec (step codec) (boot codec view mint now root table) before = some s →
        ¬ s.Clobbers request)
    (before : List Request) (within : before <+: requests) (s : Booted)
    (reached : exec (step codec) (boot codec view mint now root table) before = some s) :
    s.Coherent := by
  have filed : ∀ registry, s.host.registry = some registry → Filed codec s registry := by
    induction before using List.reverseRecOn generalizing s with
    | nil =>
        cases reached
        exact fun registry up => filed_boot unmixed up
    | append_singleton before request ih =>
        obtain ⟨s', first, taken⟩ := exec_concat.mp reached
        have filed := ih ((List.prefix_append _ _).trans within) s' first
        exact fun registry up => step_filed filed (clear before request within s' first) taken up
  exact fun registry up => (filed registry up).coherent

end Booted

open Booted

def plainCapabilities : CapabilitiesSection := ⟨[], 0, 0, [], [], [], false⟩

def plainManifest (id : String) : PluginManifest := ⟨id, "0.1.0", plainCapabilities, false, false, rfl⟩

def plainPackage (id : String) : Package := ⟨some (plainManifest id), false, true, some "digest"⟩

def clearView : ScanView where
  loadFails := false
  entryError _ := false
  fileTypeError _ := false
  manifestError _ := false
  uiError _ := false
  wasmError _ := false
  stagingKept _ := false
  tombstoneFails _ := false
  inserted := none
  crashed := false

def plainCodec : GrantCodec where
  encode caps :=
    "\x7b\"storage_quota_kb\":" ++ String.ofList (Nat.toDigits 10 caps.storageQuotaKb) ++ "\x7d"
  decode text :=
    if text = "{}" ∨ text = "\x7b\"storage_quota_kb\":0\x7d" then some plainCapabilities else none

def plainInstall (id : String) (uuid : MintedUuid) : InstallCall where
  source := some (plainPackage id)
  staged := plainPackage id
  uuid := uuid
  now := 0
  fault := none
  stagingKept := false

def installedRow : InstallationRow :=
  ⟨⟨"00"⟩, "org.a", "0.1.0", 0, none, some "{}", some "digest"⟩

def installedTable : PluginInstallation :=
  ⟨[installedRow], List.nodup_singleton _, List.nodup_singleton _⟩

/-- `org.a` is in the table and `org.c` is not. -/
def storedRoot : PluginsRoot where
  nodes := [("org.a", .dir (plainPackage "org.a")), ("org.c", .dir (plainPackage "org.c"))]
  names := by decide

theorem storedRoot_find? {name : String} {node : Node} (here : storedRoot.find? name = some node) :
    (name = "org.a" ∨ name = "org.c") ∧ node = .dir (plainPackage name) := by
  have mem := PluginsRoot.find?_eq_some.mp here
  simp only [storedRoot, List.mem_cons, Prod.mk.injEq, List.not_mem_nil, or_false] at mem
  rcases mem with ⟨rfl, rfl⟩ | ⟨rfl, rfl⟩
  · exact ⟨.inl rfl, rfl⟩
  · exact ⟨.inr rfl, rfl⟩

theorem plainInstall_checked {gate : String → Option String} {root : PluginsRoot} {id : String}
    {uuid : MintedUuid} {row : InstalledPlugin}
    (checked : Checked gate root (plainInstall id uuid) row) : row.pluginId = id := by
  obtain ⟨manifest, read, same, -⟩ := checked.manifest
  obtain rfl : plainManifest id = manifest := Option.some.inj read
  exact same.symm

theorem coherent_after_install : ∃ s registry,
    exec (step plainCodec) (boot plainCodec clearView (fun _ => ⟨"01"⟩) 0 storedRoot installedTable)
      [.install (fun _ => none) (plainInstall "org.b" ⟨"02"⟩)] = some s ∧
    s.host.registry = some registry ∧
    (∀ id ∈ ["org.a", "org.b", "org.c"], registry.Records id id) ∧ s.Coherent := by
  refine ⟨_, _, rfl, rfl, ?_, ?_⟩
  · intro id mem
    simp only [List.mem_cons, List.not_mem_nil, or_false] at mem
    rcases mem with rfl | rfl | rfl
    all_goals exact Or.inl ⟨_, rfl, rfl⟩
  refine coherent_while_unmixed plainCodec clearView (fun _ => ⟨"01"⟩) 0 storedRoot installedTable ?_
    [.install (fun _ => none) (plainInstall "org.b" ⟨"02"⟩)] ?_ _ (List.prefix_refl _) _ rfl
  · rintro name ⟨-, pkg, manifest, here, read, apart⟩
    obtain rfl := Node.dir.inj (storedRoot_find? here).2
    obtain rfl : plainManifest name = manifest := Option.some.inj read
    exact apart rfl
  · intro before request within s reached clobbers
    obtain ⟨after, split⟩ := within
    cases before with
    | cons first rest => simp at split
    | nil =>
        cases reached
        simp only [List.nil_append, List.cons_append, List.cons.injEq] at split
        obtain ⟨rfl, -⟩ := split
        obtain ⟨registry, row, up, checked, -, -, shut⟩ := clobbers
        rw [plainInstall_checked checked] at shut
        rcases shut with shut | ⟨other, apart, records⟩
        · obtain rfl := Option.some.inj up
          cases shut
        · rcases scan_records up records with ⟨claim, mem, path⟩ | ⟨same, -⟩
          · obtain ⟨-, -, found, -⟩ := mem_claims_children.mp mem
            rw [path] at found
            rcases (storedRoot_find? found).1 with same | same <;> exact absurd same (by decide)
          · exact apart same.symm

/-! ## A directory under two ids -/

def undigestedRow : InstallationRow := ⟨⟨"00"⟩, "org.a", "0.1.0", 0, none, none, none⟩

def undigestedTable : PluginInstallation :=
  ⟨[undigestedRow], List.nodup_singleton _, List.nodup_singleton _⟩

def renamedRoot : PluginsRoot :=
  ⟨[("org.a", .dir (plainPackage "org.b"))], List.nodup_singleton _⟩

theorem misfiled_incoherent : ¬ ∀ codec view mint now root table requests s,
    exec (step codec) (boot codec view mint now root table) requests = some s → s.Coherent := by
  intro coherent
  have up : ∃ registry, (boot plainCodec clearView (fun _ => ⟨"01"⟩) 0 renamedRoot
      undigestedTable).host.registry = some registry ∧
      registry.Records "org.a" "org.a" ∧ registry.Records "org.b" "org.a" :=
    ⟨_, rfl, Or.inr ⟨_, rfl, List.mem_singleton_self _⟩, Or.inl ⟨_, rfl, rfl⟩⟩
  obtain ⟨registry, up, first, second⟩ := up
  have distinct := (coherent plainCodec clearView (fun _ => ⟨"01"⟩) 0 renamedRoot undigestedTable []
    _ rfl registry up).distinct "org.a" "org.b" "org.a" first second
  exact absurd distinct (by decide)

end OxidHome.Installed

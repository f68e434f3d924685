import OxidHome.Installed.Recovery

/-!
# Installation identity

Runs of scans, installs and uninstalls, each of which may fail or be cut off. The uuid that an id
was introduced under is remembered beside the host, until an uninstall of the id has removed its
directories.
-/

namespace OxidHome.Installed
open Manifest Library

def Node.owner? : Node → Option String
  | .dir pkg => pkg.owner
  | .other => none

/-- The directories whose package declares the id, readable or not. -/
def PluginsRoot.ownedBy (root : PluginsRoot) (id : String) : List String :=
  (root.nodes.filter fun child => !isStaging child.1 && child.2.owner? = some id).map Prod.fst

theorem PluginsRoot.mem_ownedBy {root : PluginsRoot} {id name : String} :
    name ∈ root.ownedBy id ↔ isStaging name = false ∧
      ∃ pkg, root.find? name = some (.dir pkg) ∧ pkg.owner = some id := by
  rw [ownedBy, List.mem_map]
  constructor
  · rintro ⟨⟨name, node⟩, mem, rfl⟩
    rw [List.mem_filter, Bool.and_eq_true, Bool.not_eq_true', decide_eq_true_iff] at mem
    obtain ⟨here, plain, owner⟩ := mem
    cases node with
    | other => cases owner
    | dir pkg => exact ⟨plain, pkg, find?_eq_some.mpr here, owner⟩
  · rintro ⟨plain, pkg, here, owner⟩
    refine ⟨(name, .dir pkg), ?_, rfl⟩
    rw [List.mem_filter, Bool.and_eq_true, Bool.not_eq_true', decide_eq_true_iff]
    exact ⟨find?_eq_some.mp here, plain, owner⟩

structure Chronicle where
  host : Host
  /-- The uuid that introduced the id. -/
  identity : String → Option MintedUuid
  /-- Of installs that returned an error or crashed before their rename. -/
  failed : List MintedUuid
  tombstoned : List MintedUuid
  minted : List MintedUuid

def PluginInstallation.deadUuids (table : PluginInstallation) : List MintedUuid :=
  (table.rows.filter fun row => !row.live).map InstallationRow.installationUuid

def UninstallCall.clears (call : UninstallCall) (host : Host)
    (registry : InstalledPluginRegistry) : Bool :=
  match registry.recorded call.pluginId with
  | none => false
  | some (_, dests, _) =>
    let result := removeDirs call.removed host.root dests
    result.2 || (result.1.ownedBy call.pluginId).isEmpty

inductive Turn where
  | scan (view : ScanView) (mint : String → MintedUuid) (now : Int)
  | request (request : Request)

namespace Chronicle
variable (codec : GrantCodec)

def start (root : PluginsRoot) (table : PluginInstallation) : Chronicle where
  host := ⟨root, table, none⟩
  identity _ := none
  failed := []
  tombstoned := table.deadUuids
  minted := table.rows.map InstallationRow.installationUuid

def move (s : Chronicle) (host : Host) : Chronicle :=
  { s with host := host, tombstoned := s.tombstoned ++ host.table.deadUuids }

def scan (s : Chronicle) (view : ScanView) (mint : String → MintedUuid) (now : Int) :
    Option Chronicle :=
  let uuids := (scanned codec view mint s.host.root s.host.table).backfills.map
    InstalledPlugin.installationUuid
  if uuids.Nodup ∧ ∀ uuid ∈ uuids, uuid ∉ s.minted then
    let host := Installed.scan codec view mint now s.host.root s.host.table
    some { s.move host with
      minted := uuids ++ s.minted
      identity := fun id => s.identity id <|>
        (if (s.host.table.live? id).isNone then
          (host.table.live? id).map (·.installationUuid) else none) <|>
        ((host.registry.bind fun registry => registry.entries id).map (·.installationUuid)) }
  else none

def install (s : Chronicle) (registry : InstalledPluginRegistry) (gate : String → Option String)
    (call : InstallCall) : Option Chronicle :=
  if call.uuid ∉ s.minted then
    let (host, outcome) := s.host.install codec registry gate call
    let failed := call.failed outcome
    some { s.move host with
      minted := call.uuid :: s.minted
      failed := if failed then call.uuid :: s.failed else s.failed
      identity := fun id => s.identity id <|>
        if !failed && call.staged.owner = some id then some call.uuid else none }
  else none

def uninstall (s : Chronicle) (registry : InstalledPluginRegistry) (call : UninstallCall) :
    Chronicle :=
  { s.move (s.host.uninstall registry call).1 with
    identity := if call.clears s.host registry then
      Function.update s.identity call.pluginId none else s.identity }

/-- Minted uuids are new. -/
def step (s : Chronicle) : Turn → Option Chronicle
  | .scan view mint now => s.scan codec view mint now
  | .request (.install gate call) =>
    s.host.registry.bind fun registry => s.install codec registry gate call
  | .request (.uninstall call) => s.host.registry.map fun registry => s.uninstall registry call

structure StableWith (s : Chronicle) (registry : InstalledPluginRegistry) : Prop where
  identity : ∀ id entry uuid, registry.entries id = some entry → s.identity id = some uuid →
    entry.installationUuid = uuid
  tombstoned : ∀ id entry, registry.entries id = some entry →
    entry.installationUuid ∉ s.tombstoned
  failed : ∀ id entry, registry.entries id = some entry → entry.installationUuid ∉ s.failed

def Stable (s : Chronicle) : Prop :=
  (∀ registry, s.host.registry = some registry → s.StableWith registry) ∧
    ∀ row ∈ s.host.table.rows, ∀ other ∈ s.host.table.rows, row.live = true → other.live = true →
      row.pluginId = other.pluginId → row = other

/-- An uninstall that takes the last directory of another id that has an identity; an install that
leaves its row behind beside a directory that the row fits. -/
def Rotates (s : Chronicle) : Turn → Prop
  | .scan .. => False
  | .request (.uninstall call) => ∃ registry uuid dests wasQuarantined id,
    s.host.registry = some registry ∧
    registry.recorded call.pluginId = some (uuid, dests, wasQuarantined) ∧
    id ≠ call.pluginId ∧ (s.identity id).isSome = true ∧
    ∀ name ∈ s.host.root.ownedBy id, name ∈ call.reached dests
  | .request (.install gate call) => call.LeavesRow ∧ ∃ row, Checked gate s.host.root call row ∧
    s.host.table.live? row.pluginId = none ∧
    ∃ name ∈ s.host.root.ownedBy row.pluginId, ∃ pkg,
      s.host.root.find? name = some (.dir pkg) ∧ pkg.contentDigest = some row.contentDigest

structure Inv (s : Chronicle) : Prop where
  anchored : ∀ registry, s.host.registry = some registry →
    Anchored codec s.host.table registry
  known : ∀ row ∈ s.host.table.rows, row.installationUuid ∈ s.minted
  failedMinted : ∀ uuid ∈ s.failed, uuid ∈ s.minted
  introduced : ∀ id uuid, s.identity id = some uuid →
    (∃ row, s.host.table.live? id = some row ∧ row.installationUuid = uuid) ∧
      ∃ name, name ∈ s.host.root.ownedBy id
  dead : ∀ uuid ∈ s.tombstoned, ∃ row ∈ s.host.table.rows, row.installationUuid = uuid ∧
    row.live = false
  unfit : ∀ row ∈ s.host.table.rows, row.live = true → row.installationUuid ∈ s.failed →
    ∀ digest, row.contentDigest = some digest → ∀ name ∈ s.host.root.ownedBy row.pluginId, ∀ pkg,
      s.host.root.find? name = some (.dir pkg) → pkg.contentDigest ≠ some digest
  clean : ∀ registry id entry, s.host.registry = some registry →
    registry.entries id = some entry → entry.installationUuid ∉ s.failed

variable {codec} {s t : Chronicle}

theorem Inv.stable (inv : s.Inv codec) : s.Stable := by
  refine ⟨fun registry up => ?_, ?_⟩
  · have anchored := inv.anchored registry up
    refine {
      identity := ?identity, tombstoned := ?tombstoned
      failed := fun id entry => inv.clean registry id entry up }
    case identity =>
      intro id entry uuid indexed introduced
      obtain ⟨row, live, backs⟩ := anchored.entry id entry indexed
      obtain ⟨⟨row', live', same⟩, -⟩ := inv.introduced id uuid introduced
      obtain rfl := Option.some.inj (live.symm.trans live')
      exact backs.uuid.symm.trans same
    case tombstoned =>
      intro id entry indexed mem
      obtain ⟨row, live, backs⟩ := anchored.entry id entry indexed
      obtain ⟨here, alive, -⟩ := PluginInstallation.live?_eq_some.mp live
      obtain ⟨other, there, same, gone⟩ := inv.dead _ mem
      have same := List.inj_on_of_nodup_map s.host.table.uuids there here
        (same.trans backs.uuid.symm)
      rw [same, alive] at gone
      cases gone
  · intro row mem other mem' alive alive' named
    have live := PluginInstallation.live?_eq_some.mpr ⟨mem, alive, named⟩
    have live' := PluginInstallation.live?_eq_some.mpr ⟨mem', alive', rfl⟩
    exact Option.some.inj (live.symm.trans live')

theorem inv_start (root : PluginsRoot) (table : PluginInstallation) :
    (start root table).Inv codec where
  anchored := by simp [start]
  known := fun row mem => List.mem_map_of_mem mem
  failedMinted := by simp [start]
  introduced := by simp [start]
  dead := by
    intro uuid mem
    obtain ⟨row, here, rfl⟩ := List.mem_map.mp mem
    rw [List.mem_filter, Bool.not_eq_true'] at here
    exact ⟨row, here.1, rfl, here.2⟩
  unfit := by simp [start]
  clean := by simp [start]

theorem Inv.dead_move (inv : s.Inv codec) {host : Host}
    (kept : ∀ row ∈ s.host.table.rows, row.live = false → row ∈ host.table.rows) :
    ∀ uuid ∈ (s.move host).tombstoned, ∃ row ∈ host.table.rows, row.installationUuid = uuid ∧
      row.live = false := by
  intro uuid mem
  rcases List.mem_append.mp mem with mem | mem
  · obtain ⟨row, here, same, dead⟩ := inv.dead uuid mem
    exact ⟨row, kept row here dead, same, dead⟩
  · obtain ⟨row, here, rfl⟩ := List.mem_map.mp mem
    rw [List.mem_filter, Bool.not_eq_true'] at here
    exact ⟨row, here.1, rfl, here.2⟩

theorem ownedBy_congr {root root' : PluginsRoot} (dirs : SameDirs root root') {id name : String} :
    name ∈ root'.ownedBy id ↔ name ∈ root.ownedBy id := by
  rw [PluginsRoot.mem_ownedBy, PluginsRoot.mem_ownedBy]
  apply and_congr_right
  intro plain
  rw [dirs name plain]

/-! ## Scans -/

theorem claim_ownedBy {view : ScanView} {root : PluginsRoot} {id : String} {c : Sighting}
    (claim : c ∈ view.claims (view.children root) id) : c.path ∈ root.ownedBy id := by
  obtain ⟨-, -, here, -⟩ := mem_claims_children.mp claim
  exact PluginsRoot.mem_ownedBy.mpr ⟨claim_plain claim, _, here, (claim_owner claim here).2.2⟩

theorem swept_unowned {view : ScanView} {root : PluginsRoot} {table : PluginInstallation}
    {id : String} (swept : Swept codec view root table id) : ∀ name, name ∉ root.ownedBy id := by
  obtain ⟨-, unclaimed, read, resolved⟩ : _ ∧ _ ∧ _ ∧ _ :=
    ⟨swept.1, swept.2.1, swept.2.2.2.1, swept.2.2.2.2⟩
  intro name mem
  obtain ⟨plain, pkg, here, owner⟩ := PluginsRoot.mem_ownedBy.mp mem
  have within := PluginsRoot.find?_eq_some.mp here
  have resolved := resolved _ within
  rw [ScanView.defers, Bool.or_eq_false_iff, Bool.and_eq_false_iff] at resolved
  obtain ⟨typed, reached | seen⟩ := resolved
  · simp [ScanView.reaches, typed, plain] at reached
  · obtain ⟨c, seen⟩ := Option.isSome_iff_exists.mp (by simpa using seen)
    obtain ⟨-, same, manifest, -⟩ := ScanView.sighting?_eq_some.mp seen
    cases same
    have named : c.id = id := by
      unfold ScanView.readManifest at manifest
      split at manifest
      · cases manifest
      · exact Option.some.inj ((Package.owner_of_readManifest manifest).symm.trans owner)
    have claim : c ∈ view.claims (view.children root) id :=
      mem_claims_children.mpr ⟨named, read _ within, here, seen⟩
    rw [unclaimed] at claim
    cases claim

theorem backfilled_claim {view : ScanView} {mint : String → MintedUuid} {root : PluginsRoot}
    {table : PluginInstallation} {id : String} {plugin : InstalledPlugin}
    (filled : Backfilled codec view mint root table id = some plugin) :
    ∃ c, c ∈ view.claims (view.children root) id := by
  unfold Backfilled backfill at filled
  split at filled
  · cases filled
  · obtain ⟨c, first, -⟩ := Option.bind_eq_some_iff.mp filled
    exact ⟨c, List.mem_of_mem_head? first⟩

theorem inv_scan {view : ScanView} {mint : String → MintedUuid} {now : Int} (inv : s.Inv codec)
    (taken : s.scan codec view mint now = some t) : t.Inv codec := by
  unfold Chronicle.scan at taken
  dsimp only at taken
  split at taken
  case isFalse => cases taken
  rename_i minted
  cases taken
  have fresh : ∀ plugin ∈ (scanned codec view mint s.host.root s.host.table).backfills,
      plugin.installationUuid ∉ s.minted := fun plugin mem =>
    minted.2 _ (List.mem_map_of_mem mem)
  have dirs := scan_root codec view mint now s.host.root s.host.table
  -- A failed install's row that is still live is one of before.
  have old : ∀ row ∈ (Installed.scan codec view mint now s.host.root s.host.table).table.rows,
      row.live = true → row.installationUuid ∈ s.failed → row ∈ s.host.table.rows := by
    intro row mem alive wrong
    rcases mem_scan mem with ⟨before, here, -, same⟩ | ⟨plugin, here, rfl⟩
    · exact same alive ▸ here
    · exact absurd (inv.failedMinted _ wrong) (fresh plugin here)
  have kept : ∀ id uuid, s.identity id = some uuid → ∃ row,
      (Installed.scan codec view mint now s.host.root s.host.table).table.live? id = some row ∧
        row.installationUuid = uuid := by
    intro id uuid known
    obtain ⟨⟨row, live, same⟩, name, owned⟩ := inv.introduced id uuid known
    exact ⟨row, scan_kept live fun swept => swept_unowned swept name owned, same⟩
  refine {
    anchored := fun registry up => anchored_scan up, known := ?known
    failedMinted := ?failedMinted, introduced := ?introduced
    dead := inv.dead_move fun row mem dead => scan_dead mem dead, unfit := ?unfit, clean := ?clean }
  case known =>
    intro row mem
    rcases mem_scan mem with ⟨before, here, same, -⟩ | ⟨plugin, here, rfl⟩
    · exact List.mem_append_right _ (same ▸ inv.known before here)
    · exact List.mem_append_left _ (List.mem_map_of_mem here)
  case failedMinted =>
    intro uuid wrong
    exact List.mem_append_right _ (inv.failedMinted uuid wrong)
  case introduced =>
    intro id uuid known
    dsimp only at known
    have owns : ∀ {name}, name ∈ s.host.root.ownedBy id → ∃ name,
        name ∈ (Installed.scan codec view mint now s.host.root s.host.table).root.ownedBy id :=
      fun owned => ⟨_, (ownedBy_congr dirs).mpr owned⟩
    cases before : s.identity id with
    | some uuid' =>
        rw [before] at known
        cases known
        obtain ⟨-, name, owned⟩ := inv.introduced id _ before
        exact ⟨kept id _ before, owns owned⟩
    | none =>
        rw [before] at known
        cases table : s.host.table.live? id with
        | none =>
            cases live : (Installed.scan codec view mint now s.host.root
                s.host.table).table.live? id with
            | some row =>
                rcases scan_live live with ⟨was, -⟩ | ⟨plugin, filled, rfl⟩
                · rw [table] at was
                  cases was
                · simp only [table, live] at known
                  obtain ⟨c, claim⟩ := backfilled_claim filled
                  cases known
                  exact ⟨⟨_, live, rfl⟩, owns (claim_ownedBy claim)⟩
            | none =>
                simp only [table, live] at known
                obtain ⟨entry, indexed, rfl⟩ := Option.map_eq_some_iff.mp known
                obtain ⟨registry, up, indexed⟩ := Option.bind_eq_some_iff.mp indexed
                obtain ⟨row, live', -⟩ := (anchored_scan up).entry id entry indexed
                rw [live] at live'
                cases live'
        | some was =>
            simp only [table] at known
            obtain ⟨entry, indexed, rfl⟩ := Option.map_eq_some_iff.mp known
            obtain ⟨registry, up, indexed⟩ := Option.bind_eq_some_iff.mp indexed
            obtain ⟨row, live, backs⟩ := (anchored_scan up).entry id entry indexed
            obtain ⟨only, claimed, -⟩ := scan_entry up indexed
            exact ⟨⟨row, live, backs.uuid⟩,
              owns (claim_ownedBy (claimed ▸ List.mem_singleton_self only))⟩
  case unfit =>
    intro row mem alive wrong digest stored name owned pkg here
    have plain := (PluginsRoot.mem_ownedBy.mp owned).1
    exact inv.unfit row (old row mem alive wrong) alive wrong digest stored name
      ((ownedBy_congr dirs).mp owned) pkg ((dirs name plain).symm.trans here)
  case clean =>
    intro registry id entry up indexed wrong
    obtain ⟨row, live, backs⟩ := (anchored_scan up).entry id entry indexed
    obtain ⟨mem, alive, named⟩ := PluginInstallation.live?_eq_some.mp live
    rw [← backs.uuid] at wrong
    obtain ⟨only, claimed, -, path, digest, -⟩ := scan_entry up indexed
    have claim : only ∈ view.claims (view.children s.host.root) id :=
      claimed ▸ List.mem_singleton_self only
    obtain ⟨-, -, here, -⟩ := mem_claims_children.mp claim
    exact inv.unfit row (old row mem alive wrong) alive wrong _ backs.digest only.path
      (named ▸ claim_ownedBy claim) only.package here digest

theorem uninstalls_rows {registry : InstalledPluginRegistry} {call : UninstallCall} {host : Host}
    {outcome : Outcome UninstallError QuarantineUuid}
    (spec : Uninstalls s.host registry call host outcome) :
    (∀ row ∈ host.table.rows, ∃ before ∈ s.host.table.rows,
      before.installationUuid = row.installationUuid ∧ (row.live = true → before = row)) ∧
    ∀ row ∈ s.host.table.rows, row.live = false → row ∈ host.table.rows := by
  have same : (∀ row ∈ s.host.table.rows, ∃ before ∈ s.host.table.rows,
      before.installationUuid = row.installationUuid ∧ (row.live = true → before = row)) ∧
      ∀ row ∈ s.host.table.rows, row.live = false → row ∈ s.host.table.rows :=
    ⟨fun row mem => ⟨row, mem, rfl, fun _ => rfl⟩, fun _ mem _ => mem⟩
  cases spec with
  | unknown => exact same
  | stopped => exact same
  | @done uuid =>
      cases uuid with
      | minted uuid =>
          exact ⟨fun _ mem => PluginInstallation.mem_tombstone mem,
            fun _ mem dead => PluginInstallation.tombstone_dead mem dead⟩
      | noSqlRow => exact same
      | dupUnknown => exact same

/-! ## Requests -/

section
variable {registry : InstalledPluginRegistry} {gate : String → Option String}
  {call : InstallCall} {host : Host} {outcome : Outcome InstallError InstalledPlugin}

theorem installs_rows (spec : Installs codec s.host registry gate call host outcome)
    {row : InstallationRow} (mem : row ∈ host.table.rows) :
    row ∈ s.host.table.rows ∨ row.installationUuid = call.uuid := by
  have inserted : ∀ {plugin : InstalledPlugin} {table : PluginInstallation},
      Checked gate s.host.root call plugin →
      s.host.table.insert (plugin.row codec call.now) = some table → row ∈ table.rows →
      row ∈ s.host.table.rows ∨ row.installationUuid = call.uuid := by
    intro plugin table checked inserted mem
    rw [(PluginInstallation.insert_some inserted).1, List.mem_append, List.mem_singleton] at mem
    rcases mem with mem | rfl
    · exact Or.inl mem
    · exact Or.inr checked.uuid
  cases spec with
  | refused => exact Or.inl mem
  | leftBehind checked _ done => exact inserted checked done mem
  | placed checked done => exact inserted checked done mem

theorem installs_kept (spec : Installs codec s.host registry gate call host outcome)
    {row : InstallationRow} (mem : row ∈ s.host.table.rows) : row ∈ host.table.rows := by
  have inserted : ∀ {plugin : InstalledPlugin} {table : PluginInstallation},
      s.host.table.insert (plugin.row codec call.now) = some table → row ∈ table.rows := by
    intro plugin table inserted
    rw [(PluginInstallation.insert_some inserted).1]
    exact List.mem_append_left _ mem
  cases spec with
  | refused => exact mem
  | leftBehind _ _ done => exact inserted done
  | placed _ done => exact inserted done

theorem live?_of_kept {table table' : PluginInstallation} {id : String} {row : InstallationRow}
    (live : table.live? id = some row) (kept : row ∈ table'.rows) : table'.live? id = some row := by
  obtain ⟨-, alive, named⟩ := PluginInstallation.live?_eq_some.mp live
  exact PluginInstallation.live?_eq_some.mpr ⟨kept, alive, named⟩

theorem inv_install (inv : s.Inv codec) (up : s.host.registry = some registry)
    (clear : ¬ s.Rotates (.request (.install gate call)))
    (taken : s.install codec registry gate call = some t) : t.Inv codec := by
  unfold Chronicle.install at taken
  split at taken
  case isFalse => cases taken
  rename_i fresh
  have spec := install_spec codec s.host registry gate call
  generalize s.host.install codec registry gate call = result at spec taken
  obtain ⟨host, outcome⟩ := result
  cases taken
  have anchored := inv.anchored registry up
  have staysMinted : ∀ {uuid}, uuid ∈ s.minted → uuid ∈ call.uuid :: s.minted :=
    fun mem => List.mem_cons_of_mem _ mem
  have kept : ∀ id uuid, s.identity id = some uuid → ∃ row,
      host.table.live? id = some row ∧ row.installationUuid = uuid := by
    intro id uuid known
    obtain ⟨⟨row, live, same⟩, -⟩ := inv.introduced id uuid known
    have mem := (PluginInstallation.live?_eq_some.mp live).1
    exact ⟨row, live?_of_kept live (installs_kept spec mem), same⟩
  have apart : ∀ {row : InstallationRow}, row ∈ s.host.table.rows →
      row.installationUuid ≠ call.uuid := by
    intro row mem same
    exact fresh (same ▸ inv.known row mem)
  have indexedApart : ∀ id entry, registry.entries id = some entry →
      entry.installationUuid ≠ call.uuid := by
    intro id entry indexed same
    obtain ⟨row, live, backs⟩ := anchored.entry id entry indexed
    exact apart (PluginInstallation.live?_eq_some.mp live).1 (backs.uuid.trans same)
  have rowsMinted : ∀ row ∈ host.table.rows, row.installationUuid ∈ call.uuid :: s.minted := by
    intro row mem
    rcases installs_rows spec mem with mem | same
    · exact staysMinted (inv.known row mem)
    · exact same ▸ List.mem_cons_self
  have failedMinted : ∀ uuid ∈ (if call.failed outcome = true then call.uuid :: s.failed
      else s.failed), uuid ∈ call.uuid :: s.minted := by
    intro uuid mem
    split at mem
    · rcases List.mem_cons.mp mem with rfl | mem
      · exact List.mem_cons_self
      · exact staysMinted (inv.failedMinted uuid mem)
    · exact staysMinted (inv.failedMinted uuid mem)
  refine {
    anchored := fun registry' after => anchored.installs up spec after, known := rowsMinted
    failedMinted := failedMinted, introduced := ?introduced
    dead := inv.dead_move fun row mem _ => installs_kept spec mem, unfit := ?unfit
    clean := ?clean }
  case introduced =>
    intro id uuid known
    dsimp only at known
    cases spec with
    | refused dirs _ failed =>
        simp only [failed] at known
        have known : s.identity id = some uuid := by simpa using known
        obtain ⟨-, name, owned⟩ := inv.introduced id uuid known
        exact ⟨kept id uuid known, name, (ownedBy_congr dirs).mpr owned⟩
    | leftBehind _ _ _ dirs _ _ failed =>
        simp only [failed] at known
        have known : s.identity id = some uuid := by simpa using known
        obtain ⟨-, name, owned⟩ := inv.introduced id uuid known
        exact ⟨kept id uuid known, name, (ownedBy_congr dirs).mpr owned⟩
    | @placed row root table registry' _ checked inserted dirs _ placed =>
        cases before : s.identity id with
        | some uuid' =>
            rw [before] at known
            cases known
            obtain ⟨-, name, owned⟩ := inv.introduced id _ before
            obtain ⟨plain, pkg, here, owner⟩ := PluginsRoot.mem_ownedBy.mp owned
            refine ⟨kept id _ before, name, PluginsRoot.mem_ownedBy.mpr ⟨plain, pkg, ?_, owner⟩⟩
            refine (dirs name plain).trans ((if_neg ?_).trans here)
            rintro rfl
            rw [checked.free] at here
            cases here
        | none =>
            simp only [before, placed, Bool.not_false, Bool.true_and, decide_eq_true_eq] at known
            have owner : call.staged.owner = some id := by
              by_contra other
              simp [other] at known
            obtain ⟨manifest, read, named, -⟩ := checked.manifest
            have same : row.pluginId = id := by
              rw [Package.owner_of_readManifest read, named] at owner
              exact Option.some.inj owner
            have minted : call.uuid = uuid := by simpa [owner] using known
            subst same
            refine ⟨⟨row.row codec call.now, ?_, checked.uuid.trans minted⟩, row.pluginId,
              PluginsRoot.mem_ownedBy.mpr ⟨isStaging_of_safe checked.safe, call.staged, ?_, owner⟩⟩
            · refine (PluginInstallation.live?_insert inserted rfl).trans ?_
              exact if_pos rfl
            · exact (dirs _ (isStaging_of_safe checked.safe)).trans (if_pos rfl)
  case unfit =>
    intro row mem alive wrong digest stored name owned pkg here
    dsimp only at wrong
    have same : ∀ {root}, SameDirs s.host.root root → name ∈ root.ownedBy row.pluginId →
        root.find? name = some (.dir pkg) → name ∈ s.host.root.ownedBy row.pluginId ∧
          s.host.root.find? name = some (.dir pkg) := by
      intro root dirs owned here
      have plain := (PluginsRoot.mem_ownedBy.mp owned).1
      exact ⟨(ownedBy_congr dirs).mp owned, (dirs name plain).symm.trans here⟩
    have older : row ∈ s.host.table.rows → row.installationUuid ∈ s.failed := by
      intro old
      split at wrong
      · exact List.mem_of_ne_of_mem (apart old) wrong
      · exact wrong
    cases spec with
    | refused dirs _ failed =>
        obtain ⟨owned, here⟩ := same dirs owned here
        exact inv.unfit row mem alive (older mem) digest stored name owned pkg here
    | @leftBehind row' root table registry' _ checked leaves inserted dirs stays crashed failed =>
        obtain ⟨owned, here⟩ := same dirs owned here
        dsimp only [Chronicle.move] at mem
        rw [(PluginInstallation.insert_some inserted).1, List.mem_append,
          List.mem_singleton] at mem
        rcases mem with mem | rfl
        · exact inv.unfit row mem alive (older mem) digest stored name owned pkg here
        · intro fits
          have free : s.host.table.live? row'.pluginId = none :=
            PluginInstallation.insert_free inserted rfl
          exact clear ⟨leaves, row', checked, free, name, owned, pkg, here, fits.trans stored.symm⟩
    | @placed row' root table registry' _ checked inserted dirs _ placed =>
        dsimp only [Chronicle.move] at mem owned here
        rw [(PluginInstallation.insert_some inserted).1, List.mem_append,
          List.mem_singleton] at mem
        rcases mem with mem | rfl
        · have other : row.pluginId ≠ row'.pluginId := by
            intro named
            have free : s.host.table.live? row'.pluginId = none :=
              PluginInstallation.insert_free inserted rfl
            rw [PluginInstallation.live?_eq_some.mpr ⟨mem, alive, named⟩] at free
            cases free
          obtain ⟨plain, pkg', there, owner⟩ := PluginsRoot.mem_ownedBy.mp owned
          rw [dirs name plain] at there here
          by_cases placedThere : name = row'.pluginId
          · rw [if_pos placedThere] at there
            cases there
            obtain ⟨manifest, read, named, -⟩ := checked.manifest
            rw [Package.owner_of_readManifest read, named] at owner
            exact absurd (Option.some.inj owner).symm other
          · rw [if_neg placedThere] at there here
            exact inv.unfit row mem alive (older mem) digest stored name
              (PluginsRoot.mem_ownedBy.mpr ⟨plain, pkg', there, owner⟩) pkg here
        · rw [placed] at wrong
          have wrong : row'.installationUuid ∈ s.failed := wrong
          exact absurd (inv.failedMinted _ (checked.uuid ▸ wrong)) fresh
  case clean =>
    intro registry' id entry after indexed wrong
    dsimp only [Chronicle.move] at after wrong
    have older : registry.entries id = some entry → False := by
      intro indexed
      split at wrong
      · exact inv.clean registry id entry up indexed
          (List.mem_of_ne_of_mem (indexedApart id entry indexed) wrong)
      · exact inv.clean registry id entry up indexed wrong
    cases spec with
    | refused _ stays =>
        rw [registry_stays up stays after] at indexed
        exact older indexed
    | leftBehind _ _ _ _ stays =>
        rw [registry_stays up stays after] at indexed
        exact older indexed
    | @placed row root table registry'' _ checked inserted dirs done placed =>
        obtain ⟨rfl, -⟩ | ⟨rfl, -⟩ := done
        · cases after
          by_cases named : id = row.pluginId
          · subst named
            simp only [Function.update_self, Option.some.injEq] at indexed
            subst indexed
            rw [placed] at wrong
            have wrong : call.uuid ∈ s.failed := by
              rw [← checked.uuid]
              simpa using wrong
            exact absurd (inv.failedMinted _ wrong) fresh
          · simp only [Function.update_of_ne named] at indexed
            exact older indexed
        · cases after

end

theorem inv_uninstall {registry : InstalledPluginRegistry} {call : UninstallCall}
    (inv : s.Inv codec) (up : s.host.registry = some registry)
    (clear : ¬ s.Rotates (.request (.uninstall call))) :
    (s.uninstall registry call).Inv codec := by
  have spec := uninstall_spec s.host registry call
  have anchored := inv.anchored registry up
  -- What an uninstall leaves of the directories of an id.
  have worn : ∀ removed dests id name, name ∈ (removeDirs removed s.host.root dests).1.ownedBy id →
      ∀ pkg, (removeDirs removed s.host.root dests).1.find? name = some (.dir pkg) →
      name ∈ s.host.root.ownedBy id ∧ ∀ digest, pkg.contentDigest = some digest →
        ∃ pkg', s.host.root.find? name = some (.dir pkg') ∧ pkg'.contentDigest = some digest := by
    intro removed dests id name owned pkg here
    obtain ⟨plain, pkg', here', owner⟩ := PluginsRoot.mem_ownedBy.mp owned
    cases here.symm.trans here'
    rcases removeDirs_spec removed s.host.root dests name with ⟨-, -, gone⟩ | ⟨worn, -, -⟩
    · rw [gone] at here
      cases here
    · rw [here] at worn
      rcases worn with same | ⟨loss, same⟩
      · exact ⟨PluginsRoot.mem_ownedBy.mpr ⟨plain, pkg, same.symm, owner⟩,
          fun digest hashed => ⟨pkg, same.symm, hashed⟩⟩
      · obtain ⟨node, there, torn⟩ := Option.map_eq_some_iff.mp same.symm
        cases node with
        | other => cases torn
        | dir before =>
            cases torn
            exact ⟨PluginsRoot.mem_ownedBy.mpr ⟨plain, before, there, owner⟩,
              fun digest hashed => ⟨before, there, Package.contentDigest_tear hashed⟩⟩
  -- A directory of an id with an identity is left.
  have left : ∀ {uuid dests wasQuarantined},
      registry.recorded call.pluginId = some (uuid, dests, wasQuarantined) →
      ∀ id, id ≠ call.pluginId → (s.identity id).isSome = true →
      ∃ name, name ∈ (removeDirs call.removed s.host.root dests).1.ownedBy id := by
    intro uuid dests wasQuarantined recorded id other known
    have spared : ∃ name ∈ s.host.root.ownedBy id, name ∉ call.reached dests := by
      by_contra taken
      push Not at taken
      exact clear ⟨registry, uuid, dests, wasQuarantined, id, up, recorded, other, known, taken⟩
    obtain ⟨name, owned, unreached⟩ := spared
    obtain ⟨plain, pkg, here, owner⟩ := PluginsRoot.mem_ownedBy.mp owned
    rcases removeDirs_spec call.removed s.host.root dests name with ⟨within, mem, -⟩ | ⟨worn, -, -⟩
    · refine absurd ?_ unreached
      unfold UninstallCall.reached
      cases removed : call.removed with
      | none => exact mem
      | some found => exact within found.1 found.2 removed
    · rcases worn with same | ⟨loss, same⟩
      · exact ⟨name, PluginsRoot.mem_ownedBy.mpr ⟨plain, pkg, same.trans here, owner⟩⟩
      · rw [here] at same
        exact ⟨name, PluginsRoot.mem_ownedBy.mpr ⟨plain, pkg.tear loss, same, owner⟩⟩
  unfold Chronicle.uninstall
  generalize s.host.uninstall registry call = result at spec ⊢
  obtain ⟨host, outcome⟩ := result
  dsimp only at spec
  obtain ⟨older, deadKept⟩ := uninstalls_rows spec
  refine {
    anchored := fun registry' after => anchored.uninstalls up spec after, known := ?known
    failedMinted := inv.failedMinted, introduced := ?introduced
    dead := inv.dead_move deadKept, unfit := ?unfit, clean := ?clean }
  case known =>
    intro row mem
    obtain ⟨before, here, same, -⟩ := older row mem
    exact same ▸ inv.known before here
  case introduced =>
    intro id uuid known
    have before : s.identity id = some uuid ∧ (id = call.pluginId →
        call.clears s.host registry = false) := by
      dsimp only at known
      split at known
      · by_cases named : id = call.pluginId
        · subst named
          simp at known
        · rw [Function.update_of_ne named] at known
          exact ⟨known, fun same => absurd same named⟩
      · rename_i uncleared
        exact ⟨known, fun _ => by simpa using uncleared⟩
    obtain ⟨known, uncleared⟩ := before
    obtain ⟨⟨row, live, same⟩, name, owned⟩ := inv.introduced id uuid known
    have introduced : (s.identity id).isSome = true := Option.isSome_of_eq_some known
    cases spec with
    | unknown => exact ⟨⟨row, live, same⟩, name, owned⟩
    | @stopped uuid' dests wasQuarantined _ _ recorded =>
        refine ⟨⟨row, live, same⟩, ?_⟩
        by_cases named : id = call.pluginId
        · have uncleared := uncleared named
          simp only [UninstallCall.clears, recorded, Bool.or_eq_false_iff] at uncleared
          rw [← named] at uncleared
          obtain ⟨name, mem⟩ := List.exists_mem_of_ne_nil _
            (by simpa using uncleared.2 : (removeDirs call.removed s.host.root dests).1.ownedBy id ≠ [])
          exact ⟨name, mem⟩
        · exact left recorded id named introduced
    | @done uuid' dests wasQuarantined _ _ recorded removed =>
        by_cases named : id = call.pluginId
        · have uncleared := uncleared named
          simp [UninstallCall.clears, recorded, removed] at uncleared
        · refine ⟨⟨row, ?_, same⟩, left recorded id named introduced⟩
          refine tombstoneInstallationRow_live.mpr ⟨live, fun minted => named ?_⟩
          exact (anchored.recorded recorded live minted).symm
  case unfit =>
    intro row mem alive wrong digest stored name owned pkg here hashed
    obtain ⟨before, there, -, same⟩ := older row mem
    obtain rfl := same alive
    have fits : ∀ {dests}, name ∈ (removeDirs call.removed s.host.root dests).1.ownedBy
        before.pluginId → (removeDirs call.removed s.host.root dests).1.find? name =
          some (.dir pkg) → False := by
      intro dests owned here
      obtain ⟨owned, kept⟩ := worn _ _ _ _ owned pkg here
      obtain ⟨pkg', there', hashed'⟩ := kept digest hashed
      exact inv.unfit before there alive wrong digest stored name owned pkg' there' hashed'
    cases spec with
    | unknown => exact inv.unfit before there alive wrong digest stored name owned pkg here hashed
    | stopped => exact fits owned here
    | done => exact fits owned here
  case clean =>
    intro registry' id entry after indexed
    cases spec with
    | unknown =>
        rw [registry_stays up (Or.inl rfl) after] at indexed
        exact inv.clean registry id entry up indexed
    | stopped _ stays =>
        rw [registry_stays up stays after] at indexed
        exact inv.clean registry id entry up indexed
    | done recorded _ dropped =>
        obtain ⟨rfl, -⟩ | ⟨rfl, -⟩ := dropped
        · cases after
          exact inv.clean registry id entry up (drop_entries recorded indexed).1
        · cases after

theorem identity_stable (codec : GrantCodec) (root : PluginsRoot) (table : PluginInstallation)
    (turns : List Turn)
    (clear : ∀ before turn, before ++ [turn] <+: turns → ∀ s,
      exec (step codec) (start root table) before = some s → ¬ s.Rotates turn)
    (before : List Turn) (within : before <+: turns) (s : Chronicle)
    (reached : exec (step codec) (start root table) before = some s) : s.Stable := by
  have inv : s.Inv codec := by
    induction before using List.reverseRecOn generalizing s with
    | nil =>
        cases reached
        exact inv_start root table
    | append_singleton before turn ih =>
        obtain ⟨s', first, taken⟩ := exec_concat.mp reached
        have inv := ih ((List.prefix_append _ _).trans within) s' first
        have clear := clear before turn within s' first
        cases turn with
        | scan view mint now => exact inv_scan inv taken
        | request request =>
            cases request with
            | install gate call =>
                obtain ⟨registry, up, taken⟩ := Option.bind_eq_some_iff.mp taken
                exact inv_install inv up clear taken
            | uninstall call =>
                obtain ⟨registry, up, rfl⟩ := Option.map_eq_some_iff.mp taken
                exact inv_uninstall inv up clear
  exact inv.stable

theorem identity_stable_installed : ∃ s registry entry,
    exec (step plainCodec) (start storedRoot installedTable)
      [.scan clearView (fun _ => ⟨"01"⟩) 0,
        .request (.install (fun _ => none) (plainInstall "org.b" ⟨"02"⟩))] = some s ∧
    s.host.registry = some registry ∧ registry.entries "org.b" = some entry ∧
    ["org.a", "org.b", "org.c"].map s.identity = [some ⟨"00"⟩, some ⟨"02"⟩, some ⟨"01"⟩] ∧
    s.Stable := by
  refine ⟨_, _, _, rfl, rfl, rfl, rfl, ?_⟩
  refine identity_stable plainCodec storedRoot installedTable [.scan clearView (fun _ => ⟨"01"⟩) 0,
    .request (.install (fun _ => none) (plainInstall "org.b" ⟨"02"⟩))] ?_ _ (List.prefix_refl _) _ rfl
  intro before turn within s reached rotates
  have mem : turn ∈ [Turn.scan clearView (fun _ => ⟨"01"⟩) 0,
      .request (.install (fun _ => none) (plainInstall "org.b" ⟨"02"⟩))] :=
    within.subset (List.mem_append_right _ List.mem_cons_self)
  simp only [List.mem_cons, List.not_mem_nil, or_false] at mem
  rcases mem with rfl | rfl
  · exact rotates
  · rcases rotates.1 with cut | renamed
    · cases cut
    · cases renamed

def rotatingTurns : List Turn :=
  [.scan clearView (fun _ => ⟨"01"⟩) 0, .request (.uninstall (plainUninstall "org.a" 0)),
    .scan clearView (fun _ => ⟨"02"⟩) 0,
    .request (.install (fun _ => none) (plainInstall "org.b" ⟨"03"⟩))]

theorem uninstall_rotates_another : ¬ ∀ codec root table turns s,
    exec (step codec) (start root table) turns = some s → s.Stable := by
  intro stable
  obtain ⟨s, registry, entry, reached, up, indexed, known, uuid⟩ : ∃ s registry entry,
      exec (step plainCodec) (start renamedRoot undigestedTable) rotatingTurns = some s ∧
      s.host.registry = some registry ∧ registry.entries "org.b" = some entry ∧
      s.identity "org.b" = some ⟨"01"⟩ ∧ entry.installationUuid = ⟨"03"⟩ :=
    ⟨_, _, _, rfl, rfl, rfl, rfl, rfl⟩
  have same := ((stable plainCodec renamedRoot undigestedTable rotatingTurns s reached).1 registry
    up).identity "org.b" entry ⟨"01"⟩ indexed known
  rw [uuid] at same
  exact absurd same (by decide)

end Chronicle

end OxidHome.Installed

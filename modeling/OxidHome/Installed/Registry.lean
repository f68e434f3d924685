import Mathlib
import OxidHome.Installed.PluginsRoot
import OxidHome.Library.Machine

/-!
# The installed-plugin registry

`scan`, `install` and `uninstall`. A path is the name of an entry of the plugins root. What a call
reads from the disk, and where it is cut off, are arguments of the call.
-/

namespace OxidHome.Installed
open Manifest Library

/-- `serde_json`, for the grant of a row. -/
structure GrantCodec where
  encode : CapabilitiesSection → String
  decode : String → Option CapabilitiesSection

structure InstalledPlugin where
  pluginId : String
  installationUuid : MintedUuid
  version : String
  path : String
  grantedCapabilities : CapabilitiesSection
  contentDigest : String
  singleton : Bool

inductive QuarantineUuid where
  | minted (uuid : MintedUuid)
  | noSqlRow
  | dupUnknown
deriving DecidableEq

structure QuarantineEntry where
  installationUuid : QuarantineUuid
  paths : List String

def QuarantineEntry.push (entry : QuarantineEntry) (path : String) : QuarantineEntry :=
  if path ∈ entry.paths then entry else { entry with paths := entry.paths ++ [path] }

structure InstalledPluginRegistry where
  entries : String → Option InstalledPlugin
  quarantined : String → Option QuarantineEntry

namespace InstalledPluginRegistry

def get (registry : InstalledPluginRegistry) (pluginId : String) : Option InstalledPlugin :=
  registry.entries pluginId

def isQuarantined (registry : InstalledPluginRegistry) (pluginId : String) : Bool :=
  (registry.quarantined pluginId).isSome

end InstalledPluginRegistry

/-! ## The table -/

structure LiveInstallation where
  installationUuid : MintedUuid
  grantedCapabilities : CapabilitiesSection
  contentDigest : String

/-- What `load_live_installations` accepts of a live row. -/
def InstallationRow.accepted (codec : GrantCodec) (row : InstallationRow) :
    Option LiveInstallation :=
  match row.contentDigest with
  | none => none
  | some digest =>
    match row.grantedCapabilitiesJson with
    | none => none
    | some json =>
      match codec.decode json with
      | none => none
      | some caps =>
        if checkCapabilityLimits caps then some ⟨row.installationUuid, caps, digest⟩ else none

structure LiveInstallationLoad where
  live : String → Option LiveInstallation
  quarantinedUuids : String → Option MintedUuid
  disjoint : ∀ id installation, live id = some installation → quarantinedUuids id = none

def loadLiveInstallations (codec : GrantCodec) (table : PluginInstallation) :
    LiveInstallationLoad where
  live id := (table.live? id).bind (·.accepted codec)
  quarantinedUuids id :=
    ((table.live? id).filter fun row => (row.accepted codec).isNone).map (·.installationUuid)
  disjoint := by
    intro id installation found
    obtain ⟨row, here, accepted⟩ := Option.bind_eq_some_iff.mp found
    simp [here, accepted]

inductive SqlError where
  | constraint | other
deriving DecidableEq

def InstalledPlugin.row (codec : GrantCodec) (now : Int) (plugin : InstalledPlugin) :
    InstallationRow where
  installationUuid := plugin.installationUuid
  pluginId := plugin.pluginId
  version := plugin.version
  installedMs := now
  uninstalledMs := none
  grantedCapabilitiesJson := some (codec.encode plugin.grantedCapabilities)
  contentDigest := some plugin.contentDigest

def PluginInstallation.insertInstallationRow (table : PluginInstallation) (codec : GrantCodec)
    (now : Int) (plugin : InstalledPlugin) : Except SqlError PluginInstallation :=
  if !checkCapabilityLimits plugin.grantedCapabilities then .error .other
  else match table.insert (plugin.row codec now) with
    | none => .error .constraint
    | some table => .ok table

/-! ## Scan -/

/-- What one scan reads, and where it fails. Names are of entries of the plugins root; `tombstone`
is by plugin id. -/
structure ScanView where
  loadFails : Bool
  entryError : String → Bool
  fileTypeError : String → Bool
  manifestError : String → Bool
  uiError : String → Bool
  wasmError : String → Bool
  stagingKept : String → Bool
  tombstoneFails : String → Bool
  /-- How many backfills are inserted, when not all are. -/
  inserted : Option Nat
  crashed : Bool

/-- A directory whose manifest is read, with a safe id. -/
structure Sighting where
  path : String
  package : Package
  manifest : PluginManifest

namespace Sighting

def id (s : Sighting) : String := s.manifest.id

def plugin (s : Sighting) (uuid : MintedUuid) (grant : CapabilitiesSection) (digest : String) :
    InstalledPlugin where
  pluginId := s.id
  installationUuid := uuid
  version := s.manifest.version
  path := s.path
  grantedCapabilities := grant
  contentDigest := digest
  singleton := s.manifest.singleton

end Sighting

namespace ScanView

def readManifest (view : ScanView) (name : String) (pkg : Package) : Option PluginManifest :=
  if view.manifestError name then none else pkg.readManifest

def uiValid (view : ScanView) (s : Sighting) : Bool :=
  !s.manifest.ui || (s.package.uiValid && !view.uiError s.path)

/-- `scan_digest_with_validated_ui` -/
def digest (view : ScanView) (s : Sighting) : Option String :=
  if view.wasmError s.path then none else s.package.contentDigest

end ScanView

structure ScanState where
  entries : String → Option InstalledPlugin
  quarantined : String → Option QuarantineEntry
  backfills : List InstalledPlugin
  observedManifestIds : String → Option String
  duplicateManifestIds : String → Bool
  deferOrphanSweep : Bool

namespace ScanState

def start (load : LiveInstallationLoad) (deferOrphanSweep : Bool) : ScanState where
  entries _ := none
  quarantined id := (load.quarantinedUuids id).map fun uuid => ⟨.minted uuid, []⟩
  backfills := []
  observedManifestIds _ := none
  duplicateManifestIds _ := false
  deferOrphanSweep := deferOrphanSweep

def quarantine (st : ScanState) (id : String) (entry : QuarantineEntry) : ScanState :=
  { st with quarantined := Function.update st.quarantined id (some entry) }

def noteDirName (st : ScanState) (dirName : String) : ScanState :=
  match st.quarantined dirName with
  | some entry => st.quarantine dirName (entry.push dirName)
  | none => st

/-- `or_else` over what is known of the installation of `id`. -/
def priorUuid (st : ScanState) (load : LiveInstallationLoad) (id : String) : QuarantineUuid :=
  (((st.entries id).map fun entry => QuarantineUuid.minted entry.installationUuid) <|>
    ((load.live id).map fun live => QuarantineUuid.minted live.installationUuid) <|>
    ((load.quarantinedUuids id).map QuarantineUuid.minted) <|>
    ((st.quarantined id).map QuarantineEntry.installationUuid)).getD .dupUnknown

/-- The second sighting of an id. -/
def evictFirst (st : ScanState) (load : LiveInstallationLoad) (id : String) : ScanState :=
  let uuid := st.priorUuid load id
  let st := { st with
    duplicateManifestIds := Function.update st.duplicateManifestIds id true
    entries := Function.update st.entries id none }
  match st.observedManifestIds id with
  | none => st
  | some priorPath =>
    match st.quarantined id with
    | some entry => st.quarantine id ({ entry with installationUuid := uuid }.push priorPath)
    | none => st.quarantine id ⟨uuid, [priorPath]⟩

def quarantineDuplicate (st : ScanState) (load : LiveInstallationLoad) (s : Sighting) :
    ScanState :=
  let st := if st.duplicateManifestIds s.id then st else st.evictFirst load s.id
  match st.quarantined s.id with
  | some entry => st.quarantine s.id (entry.push s.path)
  | none =>
    let uuid := (((load.quarantinedUuids s.id).map QuarantineUuid.minted) <|>
      ((load.live s.id).map fun live => QuarantineUuid.minted live.installationUuid)).getD .dupUnknown
    st.quarantine s.id ⟨uuid, [s.path]⟩

def handleInvalidUiDir (st : ScanState) (load : LiveInstallationLoad) (s : Sighting) : ScanState :=
  let uuid := (((load.live s.id).map fun live => QuarantineUuid.minted live.installationUuid) <|>
    ((load.quarantinedUuids s.id).map QuarantineUuid.minted)).getD .noSqlRow
  match st.quarantined s.id with
  | some entry =>
    let entry := if entry.installationUuid = .noSqlRow then { entry with installationUuid := uuid }
      else entry
    st.quarantine s.id (entry.push s.path)
  | none => st.quarantine s.id ⟨uuid, [s.path]⟩

def index (st : ScanState) (entry : InstalledPlugin) : ScanState :=
  { st with entries := Function.update st.entries entry.pluginId (some entry) }

def indexFirst (st : ScanState) (load : LiveInstallationLoad) (view : ScanView)
    (mint : String → MintedUuid) (s : Sighting) : ScanState :=
  let st := { st with
    observedManifestIds := Function.update st.observedManifestIds s.id (some s.path) }
  if !view.uiValid s then st.handleInvalidUiDir load s
  else match load.quarantinedUuids s.id with
    | some uuid => st.quarantine s.id ⟨.minted uuid, [s.path]⟩
    | none =>
      match load.live s.id with
      | some live =>
        if view.digest s = some live.contentDigest then
          st.index (s.plugin live.installationUuid live.grantedCapabilities live.contentDigest)
        else st.quarantine s.id ⟨.minted live.installationUuid, [s.path]⟩
      | none =>
        match view.digest s with
        | none =>
          match st.quarantined s.id with
          | some entry => st.quarantine s.id (entry.push s.path)
          | none => st.quarantine s.id ⟨.noSqlRow, [s.path]⟩
        | some digest =>
          let row := s.plugin (mint s.path) s.manifest.capabilities digest
          { st with backfills := st.backfills ++ [row] }.index row

def scanChild (load : LiveInstallationLoad) (view : ScanView) (mint : String → MintedUuid)
    (st : ScanState) (child : String × Node) : ScanState :=
  let path := child.1
  if view.fileTypeError path then { st with deferOrphanSweep := true }
  else match child.2 with
    | .other => st
    | .dir pkg =>
      if isStaging path then st
      else
        let st := st.noteDirName path
        match view.readManifest path pkg with
        | none => { st with deferOrphanSweep := true }
        | some manifest =>
          if !isSafePluginId manifest.id then { st with deferOrphanSweep := true }
          else
            let s : Sighting := ⟨path, pkg, manifest⟩
            if st.duplicateManifestIds s.id || (st.observedManifestIds s.id).isSome then
              st.quarantineDuplicate load s
            else st.indexFirst load view mint s

end ScanState

/-- `read_dir`, sorted, less the entries that fail. -/
def ScanView.children (view : ScanView) (root : PluginsRoot) : List (String × Node) :=
  (root.nodes.filter fun child => !view.entryError child.1).insertionSort (·.1 ≤ ·.1)

def ScanView.removesStaging (view : ScanView) (child : String × Node) : Bool :=
  match child.2 with
  | .other => false
  | .dir _ => isStaging child.1 && !view.entryError child.1 && !view.fileTypeError child.1 &&
      !view.stagingKept child.1

/-- A live row that the scan has seen no directory of. -/
def ScanState.orphan (st : ScanState) (codec : GrantCodec) (row : InstallationRow) : Bool :=
  (row.accepted codec).isSome && (st.observedManifestIds row.pluginId).isNone &&
    !st.duplicateManifestIds row.pluginId

def insertBackfills (codec : GrantCodec) (now : Int) :
    Option Nat → PluginInstallation → List InstalledPlugin → PluginInstallation × Bool
  | _, table, [] => (table, true)
  | some 0, table, _ :: _ => (table, false)
  | left, table, row :: rest =>
    match table.insertInstallationRow codec now row with
    | .error _ => (table, false)
    | .ok table => insertBackfills codec now (left.map (· - 1)) table rest

structure Host where
  root : PluginsRoot
  table : PluginInstallation
  /-- `none` while the daemon is down. -/
  registry : Option InstalledPluginRegistry

variable (codec : GrantCodec)

def scanned (view : ScanView) (mint : String → MintedUuid) (root : PluginsRoot)
    (table : PluginInstallation) : ScanState :=
  let load := loadLiveInstallations codec table
  (view.children root).foldl (ScanState.scanChild load view mint)
    (.start load (root.nodes.any fun child => view.entryError child.1))

def scan (view : ScanView) (mint : String → MintedUuid) (now : Int) (root : PluginsRoot)
    (table : PluginInstallation) : Host :=
  if view.loadFails then ⟨root, table, none⟩
  else
    let st := scanned codec view mint root table
    let table := if st.deferOrphanSweep then table
      else table.tombstone now fun row => st.orphan codec row && !view.tombstoneFails row.pluginId
    let (table, done) := insertBackfills codec now view.inserted table st.backfills
    { root := root.restrict fun child => !view.removesStaging child
      table := table
      registry := if done && !view.crashed then some ⟨st.entries, st.quarantined⟩ else none }

/-! ## Install -/

inductive BadManifest where
  | unreadable
  | unsafeId (pluginId : String)
  | stagedDisagrees (staged source : String)
  | ui
deriving DecidableEq

inductive InstallError where
  | sourceMissing
  | badManifest (reason : BadManifest)
  | alreadyInstalled (pluginId : String)
  | io
  | persistence
  | constraintDenied (pluginId required : String)
deriving DecidableEq

inductive InstallFault where
  | clearStaging
  | copy
  | crashStaged
  | insert
  | crashInserted
  | rename (deleteFails : Bool)
  | crashRenamed
deriving DecidableEq

structure InstallCall where
  /-- `none` where there is no directory with a `manifest.toml`. -/
  source : Option Package
  /-- What the copy of the source reads. -/
  staged : Package
  uuid : MintedUuid
  now : Int
  fault : Option InstallFault
  /-- The staging directory of a failed install stays. -/
  stagingKept : Bool

inductive Outcome (ε α : Type) where
  | ok (value : α)
  | err (error : ε)
  | crashed

def checkSource (gate : String → Option String) (call : InstallCall) (root : PluginsRoot) :
    Except InstallError String :=
  match call.source with
  | none => .error .sourceMissing
  | some source =>
    match source.readManifest with
    | none => .error (.badManifest .unreadable)
    | some manifest =>
      if !isSafePluginId manifest.id then .error (.badManifest (.unsafeId manifest.id))
      else match gate manifest.id with
        | some required => .error (.constraintDenied manifest.id required)
        | none =>
          if root.occupied manifest.id then .error (.alreadyInstalled manifest.id)
          else .ok manifest.id

def checkStaged (call : InstallCall) (pluginId : String) : Except InstallError InstalledPlugin :=
  match call.staged.readManifest with
  | none => .error (.badManifest .unreadable)
  | some manifest =>
    if manifest.id ≠ pluginId then .error (.badManifest (.stagedDisagrees manifest.id pluginId))
    else if manifest.ui && !call.staged.uiValid then .error (.badManifest .ui)
    else match call.staged.contentDigest with
      | none => .error .io
      | some digest => .ok {
          pluginId := pluginId, installationUuid := call.uuid, version := manifest.version
          path := pluginId, grantedCapabilities := manifest.capabilities
          contentDigest := digest, singleton := manifest.singleton }

namespace Host

def crash (host : Host) : Host := { host with registry := none }

def activate (host : Host) (registry : InstalledPluginRegistry) (call : InstallCall)
    (cleaned staged : PluginsRoot) (row : InstalledPlugin) (table : PluginInstallation) :
    Host × Outcome InstallError InstalledPlugin :=
  let renamed := (staged.remove (stagingName call.uuid)).place row.path (.dir call.staged)
  match call.fault with
  | some .crashInserted => (crash { host with root := staged, table := table }, .crashed)
  | some (.rename deleteFails) =>
    let table := if deleteFails then table else table.delete row.installationUuid
    ({ host with root := cleaned, table := table }, .err .io)
  | some .crashRenamed => (crash { host with root := renamed, table := table }, .crashed)
  | _ =>
    let entries := Function.update registry.entries row.pluginId (some row)
    ({ root := renamed, table := table, registry := some { registry with entries := entries } },
      .ok row)

/-- The staging path is taken, and cannot be cleared. -/
def stagingBlocked (host : Host) (call : InstallCall) : Bool :=
  match host.root.find? (stagingName call.uuid) with
  | none => false
  | some (.dir _) => call.fault = some InstallFault.clearStaging
  | some .other => true

/-- `install_gated` -/
def install (host : Host) (registry : InstalledPluginRegistry) (gate : String → Option String)
    (call : InstallCall) : Host × Outcome InstallError InstalledPlugin :=
  match checkSource gate call host.root with
  | .error err => (host, .err err)
  | .ok pluginId =>
    let staging := stagingName call.uuid
    if host.stagingBlocked call then (host, .err .io)
    else
      let staged := host.root.place staging (.dir call.staged)
      let cleaned := if call.stagingKept then staged else host.root.remove staging
      if call.fault = some InstallFault.copy then ({ host with root := cleaned }, .err .io)
      else if call.fault = some InstallFault.crashStaged then (crash { host with root := staged }, .crashed)
      else match checkStaged call pluginId with
        | .error err => ({ host with root := cleaned }, .err err)
        | .ok row =>
          if call.fault = some InstallFault.insert then ({ host with root := cleaned }, .err .persistence)
          else match host.table.insertInstallationRow codec call.now row with
            | .error .constraint =>
              ({ host with root := cleaned }, .err (.alreadyInstalled pluginId))
            | .error .other => ({ host with root := cleaned }, .err .persistence)
            | .ok table => host.activate registry call cleaned staged row table

end Host

/-! ## Uninstall -/

inductive UninstallError where
  | notInstalled (pluginId : String)
  | io
  | persistence
deriving DecidableEq

structure UninstallCall where
  pluginId : String
  now : Int
  /-- The removals that succeed when not all do, and what the next one leaves. -/
  removed : Option (Nat × Loss)
  tombstoneFails : Bool
  crashed : Bool

/-- The uuid, the paths and `was_quarantined`. -/
def InstalledPluginRegistry.recorded (registry : InstalledPluginRegistry) (pluginId : String) :
    Option (QuarantineUuid × List String × Bool) :=
  match registry.entries pluginId with
  | some entry => some (.minted entry.installationUuid, [entry.path], false)
  | none => (registry.quarantined pluginId).map fun q => (q.installationUuid, q.paths, true)

def removeDirs : Option (Nat × Loss) → PluginsRoot → List String → PluginsRoot × Bool
  | _, root, [] => (root, true)
  | some (0, loss), root, dest :: rest =>
    if root.occupied dest then (root.tear dest loss, false)
    else removeDirs (some (0, loss)) root rest
  | some (left + 1, loss), root, dest :: rest =>
    removeDirs (some (left, loss)) (root.remove dest) rest
  | none, root, dest :: rest => removeDirs none (root.remove dest) rest

def PluginInstallation.tombstoneInstallationRow (table : PluginInstallation) (now : Int) :
    QuarantineUuid → PluginInstallation
  | .minted uuid => table.tombstone now fun row => row.installationUuid = uuid
  | .noSqlRow => table
  | .dupUnknown => table

def InstalledPluginRegistry.drop (registry : InstalledPluginRegistry) (pluginId : String)
    (wasQuarantined : Bool) : InstalledPluginRegistry :=
  if wasQuarantined then
    { registry with quarantined := Function.update registry.quarantined pluginId none }
  else { registry with entries := Function.update registry.entries pluginId none }

def Host.uninstall (host : Host) (registry : InstalledPluginRegistry) (call : UninstallCall) :
    Host × Outcome UninstallError QuarantineUuid :=
  match registry.recorded call.pluginId with
  | none => (host, .err (.notInstalled call.pluginId))
  | some (uuid, dests, wasQuarantined) =>
    let (root, removed) := removeDirs call.removed host.root dests
    let gone := { host with root := root }
    if !removed then if call.crashed then (gone.crash, .crashed) else (gone, .err .io)
    else if call.tombstoneFails then
      if call.crashed then (gone.crash, .crashed) else (gone, .err .persistence)
    else
      let gone := { gone with table := host.table.tombstoneInstallationRow call.now uuid }
      if call.crashed then (gone.crash, .crashed)
      else ({ gone with registry := some (registry.drop call.pluginId wasQuarantined) }, .ok uuid)

/-! ## Requests -/

inductive Request where
  | install (gate : String → Option String) (call : InstallCall)
  | uninstall (call : UninstallCall)

/-- Needs the registry of a scan. -/
def Host.serve (host : Host) (request : Request) : Option Host :=
  host.registry.map fun registry =>
    match request with
    | .install gate call => (host.install codec registry gate call).1
    | .uninstall call => (host.uninstall registry call).1

end OxidHome.Installed

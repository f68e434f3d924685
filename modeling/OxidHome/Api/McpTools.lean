import OxidHome.Auth.Policy
import OxidHome.Api.McpResponse
import OxidHome.Installed.PluginsRoot

/-!
# Tools and resources of the MCP mount

`call` of `api/mcp/tools.rs` and `read_inner` of `api/mcp/resources.rs` once the arguments have been
read. What lies outside of the host is an argument of a call: the reply of a guest, which stops
fail, how a start, an install or an uninstall ends. `fits` says which bodies are within the cap of
a body, and `text` is the body of a query on devices, events, logs, blobs or the status.
-/

namespace OxidHome.Api.Tools
open Auth Library Wit
open Std (TreeMap)

structure InstalledRow where
  version : String
  singleton : Bool
  contentDigest : String
  installationUuid : String
  path : String
deriving DecidableEq

structure InstanceRow where
  pluginId : String
  state : String
deriving DecidableEq

structure DeviceCommand where
  capability : String
  action : String
  args : List KeyValue
deriving DecidableEq

structure McpHost where
  installed : TreeMap String InstalledRow
  instances : TreeMap String InstanceRow
  owners : TreeMap DeviceId String
  commands : List (DeviceId × DeviceCommand)

structure PluginListEntry where
  pluginId : String
  installed : Bool
  version : Option String
  instanceCount : Nat
deriving DecidableEq

structure PluginDetail where
  pluginId : String
  installed : Bool
  version : Option String
  singleton : Option Bool
  contentDigest : Option String
  installationUuid : Option String
  instances : List (String × String)
deriving DecidableEq

inductive Body where
  | text (body : String)
  /-- The device is not part of the text. -/
  | command (deviceId : DeviceId) (result : CommandResult)
  | plugins (entries : List PluginListEntry)
  | plugin (detail : PluginDetail)
  | stopped (instanceIds : List String)
  | uninstalled (pluginId : String)
  | started (pluginId instanceId state : String)
  | installed (pluginId version installedPath : String)
deriving DecidableEq

inductive Answer where
  | ok (body : Body)
  /-- With the running instances where these are the reason. -/
  | execErr (message : String) (running : List String)
  | invalidParams (reason : String)
  | notFound (reason : String)
  | tooLarge
  | unknownTool (reason : String)
  | denied (required : String)
  | internal (reason : String)
deriving DecidableEq

namespace McpHost

def instancesOf (s : McpHost) (pluginId : String) : List (String × InstanceRow) :=
  s.instances.toList.filter fun p => p.2.pluginId = pluginId

def pluginsDetailBody (s : McpHost) (id : String) : Option PluginDetail :=
  let row := s.installed[id]?
  let instances := s.instancesOf id
  if row.isNone && instances.isEmpty then none
  else some ⟨id, row.isSome, row.map (·.version), row.map (·.singleton), row.map (·.contentDigest),
    row.map (·.installationUuid), instances.map fun p => (p.1, p.2.state)⟩

def pluginsListBody (s : McpHost) : List PluginListEntry :=
  let installed := s.installed.toList.map fun (id, row) =>
    (⟨id, true, some row.version, (s.instancesOf id).length⟩ : PluginListEntry)
  let running := (s.instances.toList.map fun p => p.2.pluginId).dedup.filter (· ∉ s.installed)
  let dev := running.map fun id => (⟨id, false, none, (s.instancesOf id).length⟩ : PluginListEntry)
  (installed ++ dev).mergeSort fun x y => x.pluginId ≤ y.pluginId

end McpHost

inductive StartResult where
  | refused
  /-- The instance is registered, and runs if it is `ready`. -/
  | registered (state : String) (ready : Bool)

inductive InstallFailure where
  | badManifest
  | failed
  | panicked

def InstallFailure.answer : InstallFailure → Answer
  | .badManifest => .execErr "bad manifest; see server logs for details" []
  | .failed => .internal "install failed; see server logs for details"
  | .panicked => .internal "install task panicked"

inductive UninstallFailure where
  | noPluginsRoot
  | failed
  | panicked

inductive ToolCall where
  | unknown (name : String)
  | malformed (required : Scope) (reason : String)
  | deviceSendCommand (deviceId : DeviceId) (command : DeviceCommand) (reply : Option CommandResult)
  | logsQuery
  | eventsHistory
  | pluginsList
  | pluginsShow (pluginId : String)
  | pluginsStop (pluginId : String) (instanceId : Option String) (fails : String → Bool)
  /-- A failed uninstall may have removed the row. -/
  | pluginsUninstall (pluginId : String) (failure : Option (UninstallFailure × Bool))
  | pluginsStart (pluginId : String) (instanceId : Option String) (result : StartResult)
  /-- The id that the manifest in the directory names, and what comes of the copy. -/
  | pluginsInstall (sourceDir : String) (manifest : Except String String)
      (copied : Except InstallFailure InstalledRow)

def ToolCall.required : ToolCall → Scope
  | .unknown _ => ""
  | .malformed required _ => required
  | .deviceSendCommand .. => DEVICES_COMMAND
  | .logsQuery => LOGS_READ
  | .eventsHistory => EVENTS_READ
  | .pluginsList | .pluginsShow _ => PLUGINS_LIST
  | .pluginsStop .. => PLUGINS_STOP
  | .pluginsUninstall .. => PLUGINS_UNINSTALL
  | .pluginsStart .. => PLUGINS_START
  | .pluginsInstall .. => PLUGINS_INSTALL

inductive McpRequest where
  | callTool (call : ToolCall)
  | readResource (uri : String)

def excludes (actor : Actor) (tool id : String) : Bool :=
  match actor.constraint tool with
  | none => false
  | some cx =>
      if tool = "device.send_command" then !cx.allowsDevice id else !cx.allowsPlugin id

section
variable (fits : Body → Bool) (text : McpHost → Kind → String)

def encodeCapped (body : Body) : Answer := if fits body then .ok body else .tooLarge

def deviceSendCommandCall (s : McpHost) (actor : Actor) (deviceId : DeviceId)
    (command : DeviceCommand) (reply : Option CommandResult) : McpHost × Answer :=
  let missing := Answer.execErr ("device `" ++ deviceId ++ "` not found or not running") []
  if excludes actor "device.send_command" deviceId then
    (s, .denied "constraint:device.send_command:devices")
  else match s.owners[deviceId]? with
  | none => (s, missing)
  | some owner =>
      if owner ∉ s.instances then (s, missing)
      else
        let sent := { s with commands := s.commands ++ [(deviceId, command)] }
        match reply.map Mcp.truncatePluginError with
        | none => (sent, .internal "device command dispatch failed")
        | some (.err e) =>
            (sent, .execErr ("device.send_command failed: " ++ Mcp.witErrorKind e ++ " — " ++
              Mcp.messageOf e) [])
        | some result => (sent, .ok (.command deviceId result))

def pluginsShowCall (s : McpHost) (actor : Actor) (pluginId : String) : Answer :=
  if pluginId = "" then .invalidParams "`plugin_id` must not be empty"
  else if excludes actor "plugins.show" pluginId then .denied "constraint:plugins.show:plugins"
  else match s.pluginsDetailBody pluginId with
  | none => .execErr ("plugin `" ++ pluginId ++ "` is not installed and has no running instances") []
  | some detail => encodeCapped fits (.plugin detail)

def pluginsStopCall (s : McpHost) (actor : Actor) (pluginId : String) (instanceId : Option String)
    (fails : String → Bool) : McpHost × Answer :=
  if pluginId = "" then (s, .invalidParams "`plugin_id` must not be empty")
  else if instanceId = some "" then
    (s, .invalidParams "`instance_id`, when supplied, must not be empty")
  else if excludes actor "plugins.stop" pluginId then (s, .denied "constraint:plugins.stop:plugins")
  else
    let matched := (s.instancesOf pluginId).filter fun p => instanceId.all (· = p.1)
    let stopped := (matched.map Prod.fst).filter fun id => !fails id
    ({ s with instances := s.instances.filter fun id _ => id ∉ stopped },
      encodeCapped fits (.stopped stopped))

def pluginsUninstallCall (s : McpHost) (actor : Actor) (pluginId : String)
    (failure : Option (UninstallFailure × Bool)) : McpHost × Answer :=
  let removed := { s with installed := s.installed.erase pluginId }
  if pluginId = "" then (s, .invalidParams "`plugin_id` must not be empty")
  else if excludes actor "plugins.uninstall" pluginId then
    (s, .denied "constraint:plugins.uninstall:plugins")
  else
    let running := (s.instancesOf pluginId).map Prod.fst
    if running ≠ [] then
      (s, .execErr ("plugin `" ++ pluginId ++ "` has running instances: " ++
        ", ".intercalate running ++ " — call plugins.stop first") running)
    else match failure with
    | some (.noPluginsRoot, _) => (s, .execErr "uninstall requires a state-dir-backed engine" [])
    | some (.failed, gone) =>
        (if gone then removed else s, .internal "uninstall failed; see server logs")
    | some (.panicked, gone) => (if gone then removed else s, .internal "uninstall task panicked")
    | none =>
        if pluginId ∉ s.installed then
          (s, .execErr ("plugin `" ++ pluginId ++ "` is not installed") [])
        else (removed, encodeCapped fits (.uninstalled pluginId))

def pluginsStartCall (s : McpHost) (actor : Actor) (pluginId : String) (instanceId : Option String)
    (result : StartResult) : McpHost × Answer :=
  if pluginId = "" then (s, .invalidParams "`plugin_id` must not be empty")
  else if instanceId = some "" then
    (s, .invalidParams "`instance_id`, when supplied, must not be empty")
  else if excludes actor "plugins.start" pluginId then (s, .denied "constraint:plugins.start:plugins")
  else
    let id := instanceId.getD pluginId
    if !Storage.isSafeInstanceId id then
      (s, .invalidParams ("`instance_id` `" ++ id ++ "` is not a safe filesystem segment"))
    else if pluginId ∉ s.installed then
      (s, .execErr ("plugin `" ++ pluginId ++ "` is not installed") [])
    else
      let failed := Answer.internal "start failed; see server logs for details"
      match result with
      | .refused => (s, failed)
      | .registered state ready =>
          if id ∈ s.instances then (s, failed)
          else
            ({ s with instances := s.instances.insert id ⟨pluginId, state⟩ },
              if ready then encodeCapped fits (.started pluginId id state)
              else .internal "instance failed to reach Running; see server logs for details")

def pluginsInstallCall (s : McpHost) (actor : Actor) (sourceDir : String)
    (manifest : Except String String) (copied : Except InstallFailure InstalledRow) : McpHost × Answer :=
  if sourceDir = "" then (s, .invalidParams "`source_dir` must not be empty")
  else if sourceDir.toList.head? ≠ some '/' then
    (s, .invalidParams ("`source_dir` must be an absolute path; got `" ++ sourceDir ++ "`"))
  else match manifest with
  | .error reason => (s, .execErr reason [])
  | .ok pluginId =>
      if !Installed.isSafePluginId pluginId then
        (s, InstallFailure.badManifest.answer)
      else if excludes actor "plugins.install" pluginId then
        (s, .denied "constraint:plugins.install:plugins")
      else if pluginId ∈ s.installed then
        (s, .execErr ("plugin `" ++ pluginId ++ "` is already installed") [])
      else match copied with
      | .error failure => (s, failure.answer)
      | .ok row =>
          ({ s with installed := s.installed.insert pluginId row },
            encodeCapped fits (.installed pluginId row.version row.path))

def callTool (s : McpHost) (actor : Actor) : ToolCall → McpHost × Answer
  | .unknown name => (s, .unknownTool ("no MCP tool named `" ++ name ++ "`"))
  | .malformed _ reason => (s, .invalidParams reason)
  | .deviceSendCommand deviceId command reply => deviceSendCommandCall s actor deviceId command reply
  | .logsQuery => (s, encodeCapped fits (.text (text s .logs)))
  | .eventsHistory => (s, encodeCapped fits (.text (text s .events)))
  | .pluginsList => (s, encodeCapped fits (.plugins s.pluginsListBody))
  | .pluginsShow pluginId => (s, pluginsShowCall fits s actor pluginId)
  | .pluginsStop pluginId instanceId fails => pluginsStopCall fits s actor pluginId instanceId fails
  | .pluginsUninstall pluginId failure => pluginsUninstallCall fits s actor pluginId failure
  | .pluginsStart pluginId instanceId result =>
      pluginsStartCall fits s actor pluginId instanceId result
  | .pluginsInstall sourceDir manifest copied =>
      pluginsInstallCall fits s actor sourceDir manifest copied

def call (s : McpHost) (actor : Actor) (request : ToolCall) : McpHost × Answer :=
  match request with
  | .unknown _ => callTool fits text s actor request
  | _ =>
      if requireScope actor request.required then callTool fits text s actor request
      else (s, .denied request.required)

def readKind (s : McpHost) : Kind → Answer
  | .pluginsList => encodeCapped fits (.plugins s.pluginsListBody)
  | .pluginsDetail id =>
      match s.pluginsDetailBody id with
      | some detail => encodeCapped fits (.plugin detail)
      | none => .notFound ("plugin " ++ id ++ " is not installed and has no running instances")
  | kind => encodeCapped fits (.text (text s kind))

def terminalReason : Mcp.ReadOutcome → String
  | .notFound m | .invalidParams m | .tooLarge m | .busy m | .internal m => m
  | .okText .. | .okBlob .. | .denied _ => ""

def readInner (s : McpHost) (actor : Actor) (uri : String) : Answer :=
  match resolveRoute uri with
  | .terminal _ outcome => .notFound (terminalReason outcome)
  | .dispatch _ required kind =>
      if requireScope actor required then readKind fits text s kind else .denied required

def serve (s : McpHost) (actor : Actor) : McpRequest → McpHost × Answer
  | .callTool request => call fits text s actor request
  | .readResource uri => (s, readInner fits text s actor uri)

def run (s : McpHost) (history : List (Actor × McpRequest)) : McpHost :=
  history.foldl (fun s turn => (serve fits text s turn.1 turn.2).1) s

end

end OxidHome.Api.Tools

import OxidHome.Host.DeviceIds
import OxidHome.Host.Publish
import OxidHome.Projection.InstanceAdmission

/-!
# Host calls on devices

The device calls of `runtime/state.rs`, `publish_event` as far as the projection goes, the state
that `execute_command` projects, and the sweeps of supervisors and reapers. A call is cut between
any two accesses to the registry or to the projection: the calls of other instances run in between,
those of its own instance do not.
-/

namespace OxidHome.Host
open Wit Library History Projection
open Std (TreeMap)

def firstDuplicate : List String → List String → Option String
  | _, [] => none
  | seen, name :: rest => if name ∈ seen then some name else firstDuplicate (name :: seen) rest

def firstOverflow (seedState : List (String × List KeyValue)) : Option (String × SlotCapExceeded) :=
  seedState.findSome? fun (name, fields) =>
    match checkSnapshotAdmission fields with
    | .ok () => none
    | .error overflow => some (name, overflow)

def authorizeDeviceInfo (declared : List String) (info : DeviceInfo) : Except Error Unit :=
  if info.capabilities.length > MAX_CAPABILITIES_PER_DEVICE then
    .error (.invalidArgument ("device `" ++ info.localId ++ "` declares " ++
      toString info.capabilities.length ++ " capabilities; the per-device cap is " ++
      toString MAX_CAPABILITIES_PER_DEVICE))
  else match firstOverflow (seedStateFromInitial info) with
  | some (name, overflow) =>
      .error (.invalidArgument ("initial_state entry `" ++ name ++ "` on device `" ++ info.localId ++
        "` would exceed the projection's per-slot cap (" ++ overflow.display ++ ")"))
  | none =>
  match firstDuplicate [] (info.capabilities.map capabilityName) with
  | some name =>
      .error (.invalidArgument ("capability `" ++ name ++
        "` appears more than once in `DeviceInfo.capabilities` " ++
        "(the WIT contract is one spec per capability)"))
  | none =>
  match firstDuplicate [] (info.initialState.map capabilityStateName) with
  | some name =>
      .error (.invalidArgument ("initial_state contains multiple `" ++ name ++
        "` entries (the WIT contract is one entry per stateful capability)"))
  | none =>
  match info.initialState.find? fun state => !declares info (capabilityStateName state) with
  | some state =>
      .error (.permissionDenied ("initial_state contains `" ++ capabilityStateName state ++
        "` but the device doesn't declare a matching `" ++ capabilityStateName state ++
        "` capability"))
  | none =>
  match info.capabilities.find? fun spec => capabilityName spec ∉ declared with
  | some spec =>
      .error (.permissionDenied ("capability `" ++ capabilityName spec ++
        "` is not declared in this plugin's manifest (capabilities.declares_devices)"))
  | none => .ok ()

/-- The part of `PluginState` that the calls read. -/
structure Caller where
  installationUuid : String
  instanceId : String
  pluginId : String
  declaresDevices : List String

inductive HostRequest where
  | registerDevice (info : DeviceInfo)
  | updateDevice (id : DeviceId) (info : DeviceInfo)
  | removeDevice (id : DeviceId)
  /-- Whether the rate limiter of the bus admits the event. -/
  | publishEvent (ev : Event) (admitted : Bool)
  /-- The guest has answered `execute_command`. -/
  | executed (deviceId : DeviceId) (capability : String) (result : CommandResult)

inductive CallStage where
  | registering (installationUuid : String) (info : DeviceInfo)
  | seeding (id : DeviceId) (seedState : List (String × List KeyValue))
  | reconciling (id : DeviceId) (liveCapabilities : List String)
  | removing (id : DeviceId)
  | authorized (ev : Event)
  /-- `publish_sequence` or the event log is awaited. -/
  | recording (ev : Event)
  /-- The device is the caller's and declares the capability. -/
  | answering (deviceId : DeviceId) (capability : String) (fields : List KeyValue)
  | projecting (deviceId : DeviceId) (capability : String) (fields : List KeyValue)

namespace CallStage

/-- The call has written to the registry. -/
def written : CallStage → Bool
  | .seeding .. | .reconciling .. | .removing _ => true
  | _ => false

/-- The device on which the call is between its two writes. -/
def between : CallStage → Option DeviceId
  | .seeding id _ | .reconciling id _ | .removing id => some id
  | _ => none

end CallStage

inductive HostAnswer where
  | registered (result : Except Error DeviceId)
  | done (result : Except Error Unit)
  | command (result : CommandResult)

def HostAnswer.refused : HostAnswer → Bool
  | .registered (.error _) | .done (.error _) | .command (.err _) => true
  | _ => false

structure HostStores where
  devices : DeviceRegistry
  inner : StoreInner
  calls : TreeMap String CallStage

namespace HostStores

def start (nonce : Vector UInt8 16) (cursorSecret : Vector UInt8 32) : HostStores :=
  ⟨.new, .default nonce cursorSecret, ∅⟩

def await (s : HostStores) (instanceId : String) (stage : CallStage) : HostStores :=
  { s with calls := s.calls.insert instanceId stage }

def returned (s : HostStores) (instanceId : String) : HostStores :=
  { s with calls := s.calls.erase instanceId }

variable (sha256 : Sha256) (byteLen : Json → Nat)

def registerDevice (s : HostStores) (caller : Caller) (info : DeviceInfo) :
    HostStores × Option HostAnswer :=
  match authorizeDeviceInfo caller.declaresDevices info with
  | .error e => (s, some (.registered (.error e)))
  | .ok () =>
      let wouldBeId :=
        stableDeviceId sha256 caller.installationUuid caller.instanceId info.localId
      match s.inner.checkInstanceRegisterAdmission wouldBeId caller.instanceId
        (seedStateFromInitial info) with
      | .error overflow =>
          (s, some (.registered (.error (.invalidArgument ("register-device on `" ++ wouldBeId ++
            "` would exceed the projection's per-instance aggregate cap (" ++ overflow.display ++
            ")")))))
      | .ok () => (s.await caller.instanceId (.registering caller.installationUuid info), none)

def updateDevice (s : HostStores) (caller : Caller) (id : DeviceId) (info : DeviceInfo) :
    HostStores × Option HostAnswer :=
  match authorizeDeviceInfo caller.declaresDevices info with
  | .error e => (s, some (.done (.error e)))
  | .ok () =>
      match s.devices.update caller.instanceId id info with
      | .error e => (s, some (.done (.error e)))
      | .ok devices =>
          ({ s with devices := devices }.await caller.instanceId
            (.reconciling id (info.capabilities.map capabilityName)), none)

def removeDevice (s : HostStores) (caller : Caller) (id : DeviceId) :
    HostStores × Option HostAnswer :=
  match s.devices.remove caller.instanceId id with
  | .error e => (s, some (.done (.error e)))
  | .ok devices => ({ s with devices := devices }.await caller.instanceId (.removing id), none)

def publishEvent (s : HostStores) (caller : Caller) (ev : Event) (admitted : Bool) :
    HostStores × Option HostAnswer :=
  match requirePublishAuthorized s.devices caller.instanceId ev with
  | .error e => (s, some (.done (.error e)))
  | .ok () =>
      let event := stampOrigin caller.pluginId caller.instanceId ev
      let payloadBytes := byteLen (EventLog.serializePayload event.payload)
      if payloadBytes > MAX_EVENT_PAYLOAD_BYTES then
        (s, some (.done (.error (payloadTooLarge payloadBytes))))
      else if !admitted then (s, some (.done (.error rateLimited)))
      else (s.await caller.instanceId (.authorized event), none)

def executed (s : HostStores) (caller : Caller) (deviceId : DeviceId) (capability : String)
    (result : CommandResult) : HostStores × Option HostAnswer :=
  match result with
  | .okWithState fields =>
      match checkSnapshotAdmission fields with
      | .error overflow =>
          (s, some (.command (.err (.invalidArgument ("OkWithState on `" ++ deviceId ++ "/" ++
            capability ++ "` would exceed the projection's per-slot cap (" ++ overflow.display ++
            ")")))))
      | .ok () =>
          match s.devices.get caller.instanceId deviceId with
          | .error _ => (s, some (.command (.okWithState (canonicalizeSnapshotFields fields))))
          | .ok m =>
              if declares m.info capability then
                (s.await caller.instanceId (.answering deviceId capability fields), none)
              else (s, some (.command (.okWithState (canonicalizeSnapshotFields fields))))
  | other => (s, some (.command other))

def call (s : HostStores) (caller : Caller) : HostRequest → HostStores × Option HostAnswer
  | .registerDevice info => s.registerDevice sha256 caller info
  | .updateDevice id info => s.updateDevice caller id info
  | .removeDevice id => s.removeDevice caller id
  | .publishEvent ev admitted => s.publishEvent byteLen caller ev admitted
  | .executed deviceId capability result => s.executed caller deviceId capability result

def resume (s : HostStores) (instanceId : String) (nowMs : Int) (writeError : Option Error) :
    CallStage → HostStores × Option HostAnswer
  | .registering installationUuid info =>
      match s.devices.tryRegisterDerived sha256 installationUuid instanceId info with
      | .error e => (s.returned instanceId, some (.registered (.error e)))
      | .ok (id, devices) =>
          ({ s with devices := devices }.await instanceId
            (.seeding id (seedStateFromInitial info)), none)
  | .seeding id seedState =>
      ({ s.returned instanceId with
          inner := s.inner.resetAndSeedDevice id instanceId seedState 0 nowMs },
        some (.registered (.ok id)))
  | .reconciling id liveCapabilities =>
      ({ s.returned instanceId with
          inner := s.inner.reconcileCapabilities id liveCapabilities nowMs },
        some (.done (.ok ())))
  | .removing id =>
      ({ s.returned instanceId with inner := s.inner.markDeviceStale id nowMs },
        some (.done (.ok ())))
  | .authorized ev =>
      match admitDelta s.inner instanceId ev with
      | .error e => (s.returned instanceId, some (.done (.error e)))
      | .ok () => (s.await instanceId (.recording ev), none)
  | .recording ev =>
      match writeError with
      | some e => (s.returned instanceId, some (.done (.error e)))
      | none =>
          ({ s.returned instanceId with inner := projectDelta s.inner instanceId ev nowMs },
            some (.done (.ok ())))
  | .answering deviceId capability fields =>
      match s.inner.checkInstanceSnapshotAdmission deviceId instanceId capability fields with
      | .error overflow =>
          (s.returned instanceId, some (.command (.err (.invalidArgument ("OkWithState on `" ++
            deviceId ++ "/" ++ capability ++
            "` would exceed the projection's per-instance aggregate cap (" ++ overflow.display ++
            ")")))))
      | .ok () => (s.await instanceId (.projecting deviceId capability fields), none)
  | .projecting deviceId capability fields =>
      let canonical := canonicalizeSnapshotFields fields
      ({ s.returned instanceId with
          inner := s.inner.replaceSnapshot deviceId instanceId capability canonical 0 nowMs },
        some (.command (.okWithState canonical)))

/-- What `run_one_lifecycle` does before each life. -/
def sweepLife (s : HostStores) (instanceId : String) (nowMs : Int) : HostStores :=
  { s with
    devices := s.devices.removeByOwner instanceId
    inner := s.inner.restartGeneration instanceId nowMs }

/-- What the reaper does. -/
def sweepTerminal (s : HostStores) (instanceId : String) (nowMs : Int) : HostStores :=
  { s with
    devices := s.devices.removeByOwner instanceId
    inner := s.inner.markInstanceStale instanceId nowMs }

end HostStores

inductive HostAction where
  | call (caller : Caller) (request : HostRequest)
  | resume (instanceId : String) (nowMs : Int) (writeError : Option Error)
  /-- The guest is gone while its publish awaits. -/
  | drop (instanceId : String)
  | sweepLife (instanceId : String) (nowMs : Int)
  | sweepTerminal (instanceId : String) (nowMs : Int)

namespace HostAction

def actor : HostAction → String
  | .call caller _ => caller.instanceId
  | .resume instanceId .. | .drop instanceId | .sweepLife instanceId _
  | .sweepTerminal instanceId _ => instanceId

def triple : HostAction → Option DeviceTriple
  | .call caller (.registerDevice info) =>
      some ⟨caller.installationUuid, caller.instanceId, info.localId⟩
  | _ => none

end HostAction

namespace HostStores
variable (sha256 : Sha256) (byteLen : Json → Nat)

def turn (s : HostStores) : HostAction → Option (HostStores × Option HostAnswer)
  | .call caller request =>
      if caller.instanceId ∈ s.calls then none else some (s.call sha256 byteLen caller request)
  | .resume instanceId nowMs writeError =>
      s.calls[instanceId]?.map fun stage => s.resume sha256 instanceId nowMs writeError stage
  | .drop instanceId =>
      match s.calls[instanceId]? with
      | some (.recording _) => some (s.returned instanceId, none)
      | _ => none
  | .sweepLife instanceId nowMs =>
      if instanceId ∈ s.calls then none else some (s.sweepLife instanceId nowMs, none)
  | .sweepTerminal instanceId nowMs =>
      if instanceId ∈ s.calls then none else some (s.sweepTerminal instanceId nowMs, none)

def step (s : HostStores) (action : HostAction) : Option HostStores :=
  (s.turn sha256 byteLen action).map Prod.fst

end HostStores

end OxidHome.Host

import OxidHome.Library.Tables
import OxidHome.Engine.Registry
import OxidHome.Host.Devices
import OxidHome.Projection.Store
import OxidHome.Services.Registry
import OxidHome.Storage.Blobs

/-!
# Supervised instances

Starting, stopping and draining in `runtime.rs`, with the supervisor of `runtime/lifecycle.rs` as far
as it touches what the engine shares. Every lock of the source is held within one step, but for the
mutex of the instance registry, which `register` holds while its factory spawns the supervisor and
the reaper and tracks the reaper. The guest may use the host in any order while it is loaded.
-/

namespace OxidHome.Engine
open Wit Library Host Projection Services
open Std (TreeMap)

inductive SupervisorPhase where
  /-- The three sweeps at the top of a load attempt. -/
  | sweeping
  | sweptDevices
  | sweptServices
  | loading
  | live
  | crashed
  | backoff
  /-- Inside the guest's `shutdown`, for that stop request. -/
  | shuttingDown (request : Nat)
  /-- On its way out: the guest is not called any more. -/
  | stopping
  | terminal
deriving DecidableEq

/-- The reaper waits for the terminal state and then works through its list. -/
inductive ReaperPhase where
  | waiting
  | sweptDevices
  | sweptServices
  | sweptState
  | unregistered
  | done
deriving DecidableEq

structure InstanceRun where
  instanceId : String
  pluginId : String
  gen : Nat
  phase : SupervisorPhase
  reaper : ReaperPhase

inductive StartError where
  | shuttingDown
  | unsafeInstanceId (instanceId : String)
  | registry (err : RegistryError)

inductive StartStage where
  /-- Past the first look at `shutting_down`; the manifest is being read. -/
  | checked
  | locked (pluginId : String) (singleton : Bool)
  | spawned (pluginId : String) (singleton : Bool) (run : Nat)
  | tracked (pluginId : String) (singleton : Bool) (run : Nat)
  | returned (result : Except StartError InstanceHandle)

structure StartCall where
  instanceId : String
  stage : StartStage

inductive StopOne where
  | stopped
  | timedOut
deriving DecidableEq

/-- A call of `InstanceHandle::stop`; `queued` while its message is in the control channel. -/
structure StopRequest where
  run : Nat
  queued : Bool
  result : Option StopOne

structure StopAllReport where
  stopped : Nat
  errored : List String
  timedOut : List String
  panicked : Nat

def StopAllReport.allStopped (report : StopAllReport) : Bool :=
  report.errored.isEmpty && report.timedOut.isEmpty && report.panicked = 0

inductive StopAll where
  | flagged
  | shut
  | stopping (requests : List Nat)
  | reported (report : StopAllReport)

/-- `awaiting` are the reapers whose handles the drain took. -/
structure Drain where
  awaiting : List Nat
  returned : Bool

structure EngineState where
  shuttingDown : Bool
  registry : RegistryInner
  /-- The start that holds the mutex of the registry. -/
  registering : Option Nat
  /-- The generation and the task of the reaper of an instance id. -/
  reapers : TreeMap String (Nat × Nat)
  reaperGen : Nat
  runs : List InstanceRun
  starts : List StartCall
  devices : DeviceRegistry
  services : ServiceRegistry
  projection : StoreInner
  stops : List StopRequest
  stopAlls : List StopAll
  drains : List Drain

inductive GuestCall where
  | registerDevice (id : DeviceId) (info : DeviceInfo)
  | updateDevice (id : DeviceId) (info : DeviceInfo)
  | removeDevice (id : DeviceId)
  | registerService (info : ServiceInfo)
  | updateService (id : ServiceId) (info : ServiceInfo)
  | removeService (id : ServiceId)
  | project (m : Mutation)

/-- The projection writes that the host makes for an instance name it as the owner. -/
def madeFor (instanceId : String) : Mutation → Bool
  | .applyDelta _ o _ _ _ _ | .replaceSnapshot _ o _ _ _ _ | .resetAndSeedDevice _ o _ _ _ =>
      o = instanceId
  | .markDeviceStale .. | .reconcileCapabilities .. => true
  | .bumpGeneration _ | .restartGeneration .. | .markInstanceStale .. => false

inductive SupervisorMove where
  | sweepDevices
  | sweepServices
  | restartGeneration (nowMs : Int)
  | loadFailed
  | loaded
  | guest (call : GuestCall)
  | crash
  | giveUp
  | retry
  | elapsed
  | takeShutdown (request : Nat)
  | guestShutDown
  | exit
  | panic

inductive EngineAction where
  | start (instanceId : String)
  | lock (k : Nat) (pluginId : String) (singleton : Bool)
  | spawn (k : Nat)
  | track (k : Nat)
  | insert (k : Nat)
  | supervise (n : Nat) (move : SupervisorMove)
  | reap (n : Nat) (nowMs : Int)
  | stop (n : Nat)
  | sendStop (r : Nat)
  | stopDropped (r : Nat)
  | stopTimeout (r : Nat)
  | stopAll
  | beginShutdown (j : Nat)
  | fireStops (j : Nat)
  | report (j : Nat)
  | drain
  | drained (d : Nat)

namespace EngineState

def new (nonce : Vector UInt8 16) (cursorSecret : Vector UInt8 32) : EngineState where
  shuttingDown := false
  registry := .new
  registering := none
  reapers := ∅
  reaperGen := 0
  runs := []
  starts := []
  devices := .new
  services := .new
  projection := .default nonce cursorSecret
  stops := []
  stopAlls := []
  drains := []

def beginStart (s : EngineState) (instanceId : String) : StartCall :=
  if s.shuttingDown then ⟨instanceId, .returned (.error .shuttingDown)⟩
  else if !Storage.isSafeInstanceId instanceId then
    ⟨instanceId, .returned (.error (.unsafeInstanceId instanceId))⟩
  else ⟨instanceId, .checked⟩

def setStart (s : EngineState) (k : Nat) (instanceId : String) (stage : StartStage) : EngineState :=
  { s with starts := s.starts.set k ⟨instanceId, stage⟩ }

def startError : RegistryError → StartError
  | .shuttingDown => .shuttingDown
  | err => .registry err

def lock (s : EngineState) (k : Nat) (instanceId pluginId : String) (singleton : Bool) :
    EngineState :=
  match s.registry.refusal instanceId pluginId singleton with
  | some err => s.setStart k instanceId (.returned (.error (startError err)))
  | none => { s with registering := some k }.setStart k instanceId (.locked pluginId singleton)

def spawn (s : EngineState) (k : Nat) (instanceId pluginId : String) (singleton : Bool) :
    EngineState :=
  { s with
    reaperGen := s.reaperGen + 1
    runs := s.runs ++ [InstanceRun.mk instanceId pluginId s.reaperGen .sweeping .waiting] }.setStart
      k instanceId (.spawned pluginId singleton s.runs.length)

def insert (s : EngineState) (k : Nat) (instanceId pluginId : String) (singleton : Bool) (n : Nat) :
    EngineState :=
  let handle : InstanceHandle := ⟨instanceId, pluginId, n⟩
  { s with
    registry := s.registry.insert instanceId pluginId singleton handle
    registering := none }.setStart k instanceId (.returned (.ok handle))

def setPhase (s : EngineState) (n : Nat) (run : InstanceRun) (phase : SupervisorPhase) :
    EngineState :=
  { s with runs := s.runs.set n { run with phase := phase } }

def guestCall (s : EngineState) (instanceId pluginId : String) : GuestCall → EngineState
  | .registerDevice id info =>
      match s.devices.tryRegister id instanceId info with
      | .ok devices => { s with devices := devices }
      | .error _ => s
  | .updateDevice id info =>
      match s.devices.update instanceId id info with
      | .ok devices => { s with devices := devices }
      | .error _ => s
  | .removeDevice id =>
      match s.devices.remove instanceId id with
      | .ok devices => { s with devices := devices }
      | .error _ => s
  | .registerService info =>
      match s.services.register instanceId pluginId info with
      | .ok (_, services) => { s with services := services }
      | .error _ => s
  | .updateService id info =>
      match s.services.update instanceId id info with
      | .ok services => { s with services := services }
      | .error _ => s
  | .removeService id =>
      match s.services.remove instanceId id with
      | .ok services => { s with services := services }
      | .error _ => s
  | .project m => if madeFor instanceId m then { s with projection := s.projection.mutate m } else s

/-- The reply of a stop request, unless its timeout has dropped the receiver. -/
def answer (s : EngineState) (r : Nat) (request : StopRequest) : EngineState :=
  let answered := { request with queued := false, result := request.result.or (some .stopped) }
  { s with stops := s.stops.set r answered }

def supervise (s : EngineState) (n : Nat) (run : InstanceRun) :
    SupervisorMove → Option EngineState
  | .sweepDevices =>
      if run.phase = .sweeping then
        some ({ s with devices := s.devices.removeByOwner run.instanceId }.setPhase n run
          .sweptDevices)
      else none
  | .sweepServices =>
      if run.phase = .sweptDevices then
        some ({ s with services := (s.services.removeByOwner run.instanceId).2 }.setPhase n run
          .sweptServices)
      else none
  | .restartGeneration nowMs =>
      if run.phase = .sweptServices then
        some ({ s with
          projection := s.projection.restartGeneration run.instanceId nowMs }.setPhase n run .loading)
      else none
  | .loadFailed => if run.phase = .loading then some (s.setPhase n run .terminal) else none
  | .loaded => if run.phase = .loading then some (s.setPhase n run .live) else none
  | .guest call =>
      match run.phase with
      | .loading | .live | .shuttingDown _ => some (s.guestCall run.instanceId run.pluginId call)
      | _ => none
  | .crash => if run.phase = .live then some (s.setPhase n run .crashed) else none
  | .giveUp => if run.phase = .crashed then some (s.setPhase n run .terminal) else none
  | .retry => if run.phase = .crashed then some (s.setPhase n run .backoff) else none
  | .elapsed => if run.phase = .backoff then some (s.setPhase n run .sweeping) else none
  | .takeShutdown r =>
      match s.stops[r]? with
      | none => none
      | some request =>
          if request.run = n ∧ request.queued then
            match run.phase with
            | .live =>
                some ({ s with
                  stops := s.stops.set r { request with queued := false } }.setPhase n run
                    (.shuttingDown r))
            | .backoff => some ((s.answer r request).setPhase n run .stopping)
            | _ => none
          else none
  | .guestShutDown =>
      match run.phase with
      | .shuttingDown r =>
          match s.stops[r]? with
          | none => none
          | some request =>
              if request.run = n then some ((s.answer r request).setPhase n run .stopping) else none
      | _ => none
  | .exit => if run.phase = .stopping then some (s.setPhase n run .terminal) else none
  | .panic => if run.phase ≠ .terminal then some (s.setPhase n run .terminal) else none

def setReaper (s : EngineState) (n : Nat) (run : InstanceRun) (reaper : ReaperPhase) :
    EngineState :=
  { s with runs := s.runs.set n { run with reaper := reaper } }

/-- The conditional removal of the tracker entry. -/
def untrack (s : EngineState) (instanceId : String) (gen : Nat) : EngineState :=
  match s.reapers[instanceId]? with
  | some (g, _) =>
      if g = gen then { s with reapers := s.reapers.erase instanceId } else s
  | none => s

def reap (s : EngineState) (n : Nat) (run : InstanceRun) (nowMs : Int) : Option EngineState :=
  match run.reaper with
  | .waiting =>
      if run.phase = .terminal then
        some ({ s with devices := s.devices.removeByOwner run.instanceId }.setReaper n run
          .sweptDevices)
      else none
  | .sweptDevices =>
      some ({ s with services := (s.services.removeByOwner run.instanceId).2 }.setReaper n run
        .sweptServices)
  | .sweptServices =>
      some ({ s with
        projection := s.projection.markInstanceStale run.instanceId nowMs }.setReaper n run
          .sweptState)
  | .sweptState =>
      if s.registering = none then
        some ({ s with
          registry := s.registry.unregister run.instanceId run.pluginId }.setReaper n run
            .unregistered)
      else none
  | .unregistered => some ((s.untrack run.instanceId run.gen).setReaper n run .done)
  | .done => none

def sendStop (s : EngineState) (r : Nat) (request : StopRequest) : Option EngineState :=
  match s.runs[request.run]? with
  | none => none
  | some run =>
      if request.result = none ∧ request.queued = false ∧ run.phase ≠ .terminal then
        some { s with stops := s.stops.set r { request with queued := true } }
      else none

def stopDropped (s : EngineState) (r : Nat) (request : StopRequest) : Option EngineState :=
  match s.runs[request.run]? with
  | none => none
  | some run => if run.phase = .terminal then some (s.answer r request) else none

def stopTimeout (s : EngineState) (r : Nat) (request : StopRequest) : Option EngineState :=
  if request.result = none then
    some { s with stops := s.stops.set r { request with result := some .timedOut } }
  else none

def setStopAll (s : EngineState) (j : Nat) (call : StopAll) : EngineState :=
  { s with stopAlls := s.stopAlls.set j call }

def fireStops (s : EngineState) (j : Nat) : EngineState :=
  let fired : List StopRequest := s.registry.list.map fun h => ⟨h.task, false, none⟩
  { s with stops := s.stops ++ fired }.setStopAll j
    (.stopping ((List.range fired.length).map (s.stops.length + ·)))

def instanceOf (s : EngineState) (request : StopRequest) : String :=
  (s.runs[request.run]?).elim "" (·.instanceId)

/-- `none` while a stop is outstanding. -/
def stopReport (s : EngineState) (requests : List Nat) : Option StopAllReport :=
  (requests.mapM fun r => s.stops[r]?).bind fun calls =>
    if calls.all fun c => c.result.isSome then
      some {
        stopped := calls.countP fun c => c.result = some .stopped
        errored := []
        timedOut := (calls.filter fun c => c.result = some .timedOut).map s.instanceOf
        panicked := 0 }
    else none

def takeReaperHandles (s : EngineState) : EngineState :=
  { s with
    reapers := ∅
    drains := s.drains ++ [⟨s.reapers.toList.map fun p => p.2.2, false⟩] }

def reaped (s : EngineState) (n : Nat) : Bool := (s.runs[n]?).any fun run => run.reaper = .done

end EngineState

open EngineState in
def engineStep (s : EngineState) : EngineAction → Option EngineState
  | .start instanceId => some { s with starts := s.starts ++ [s.beginStart instanceId] }
  | .lock k pluginId singleton =>
      match s.starts[k]?, s.registering with
      | some ⟨instanceId, .checked⟩, none => some (s.lock k instanceId pluginId singleton)
      | _, _ => none
  | .spawn k =>
      match s.starts[k]? with
      | some ⟨instanceId, .locked pluginId singleton⟩ =>
          some (s.spawn k instanceId pluginId singleton)
      | _ => none
  | .track k =>
      match s.starts[k]? with
      | some ⟨instanceId, .spawned pluginId singleton n⟩ =>
          match s.runs[n]? with
          | some run =>
              some ({ s with reapers := s.reapers.insert instanceId (run.gen, n) }.setStart k
                instanceId (.tracked pluginId singleton n))
          | none => none
      | _ => none
  | .insert k =>
      match s.starts[k]? with
      | some ⟨instanceId, .tracked pluginId singleton n⟩ =>
          some (s.insert k instanceId pluginId singleton n)
      | _ => none
  | .supervise n move =>
      match s.runs[n]? with
      | some run => s.supervise n run move
      | none => none
  | .reap n nowMs =>
      match s.runs[n]? with
      | some run => s.reap n run nowMs
      | none => none
  | .stop n =>
      if n < s.runs.length then some { s with stops := s.stops ++ [⟨n, false, none⟩] } else none
  | .sendStop r => (s.stops[r]?).bind (s.sendStop r)
  | .stopDropped r => (s.stops[r]?).bind (s.stopDropped r)
  | .stopTimeout r => (s.stops[r]?).bind (s.stopTimeout r)
  | .stopAll => some { s with shuttingDown := true, stopAlls := s.stopAlls ++ [.flagged] }
  | .beginShutdown j =>
      match s.stopAlls[j]?, s.registering with
      | some .flagged, none =>
          some ({ s with registry := s.registry.beginShutdown }.setStopAll j .shut)
      | _, _ => none
  | .fireStops j =>
      match s.stopAlls[j]?, s.registering with
      | some .shut, none => some (s.fireStops j)
      | _, _ => none
  | .report j =>
      match s.stopAlls[j]? with
      | some (.stopping requests) =>
          (s.stopReport requests).map fun report => s.setStopAll j (.reported report)
      | _ => none
  | .drain => some s.takeReaperHandles
  | .drained d =>
      match s.drains[d]? with
      | some ⟨awaiting, false⟩ =>
          if awaiting.all s.reaped then some { s with drains := s.drains.set d ⟨awaiting, true⟩ }
          else none
      | _ => none

end OxidHome.Engine

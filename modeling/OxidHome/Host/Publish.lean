import OxidHome.Host.Devices
import OxidHome.Projection.Admission
import OxidHome.History.EventLog
import OxidHome.Events.Lag

/-!
# Publishing an event

`publish_event` of `runtime/state.rs`, cut at every point where another task can run. The write of
the event log is a step of a blocking thread, which commits, fails or panics before the commit. The
length of a serialized payload is a parameter. Token counts are rational: how much a bucket gains
between two calls is an argument. `journal` is no data of the host: it lists the commits, the
projection writes and the calls of `publish_with_id` in the order in which they were made.
-/

namespace OxidHome.Host
open Wit Library History Projection Events
open Std (TreeMap)

def requiredCapabilityForPayload : EventPayload → Option String
  | .stateChanged sc => some sc.capability
  | .button _ => some "button"
  | .inference _ | .custom _ => none

def declares (info : DeviceInfo) (required : String) : Bool :=
  info.capabilities.any fun spec => capabilityName spec = required

def requirePublishAuthorized (devices : DeviceRegistry) (instanceId : String) (ev : Event) :
    Except Error Unit :=
  match ev.device, ev.payload with
  | none, .custom _ => .ok ()
  | none, _ =>
      .error (.invalidArgument "publish-event: this payload variant requires a `device` field")
  | some deviceId, payload =>
      match devices.get instanceId deviceId with
      | .error _ =>
          .error (.permissionDenied ("publish-event: device `" ++ deviceId ++
            "` is not owned by this instance"))
      | .ok m =>
          match requiredCapabilityForPayload payload with
          | none => .ok ()
          | some required =>
              if declares m.info required then .ok ()
              else .error (.permissionDenied ("publish-event: device `" ++ deviceId ++
                "` does not declare capability `" ++ required ++ "`"))

def stampOrigin (pluginId instanceId : String) (ev : Event) : Event :=
  { ev with originPluginId := pluginId, originInstanceId := instanceId }

def MAX_EVENT_PAYLOAD_BYTES : Nat := 64 * 1024

def payloadTooLarge (payloadBytes : Nat) : Error :=
  .permissionDenied ("publish-event serialized payload (" ++ toString payloadBytes ++
    " bytes) exceeds per-event cap (" ++ toString MAX_EVENT_PAYLOAD_BYTES ++ " bytes)")

/-- The device and the change that a state event brings to the projection. -/
def deltaOf (ev : Event) : Option (DeviceId × StateChange) :=
  match ev.device, ev.payload with
  | some deviceId, .stateChanged sc => some (deviceId, sc)
  | _, _ => none

def admitDelta (inner : StoreInner) (instanceId : String) (ev : Event) : Except Error Unit :=
  match deltaOf ev with
  | none => .ok ()
  | some (deviceId, sc) =>
      match inner.checkDeltaAdmission deviceId instanceId sc.capability sc.fields with
      | .ok () => .ok ()
      | .error overflow =>
          .error (.invalidArgument ("state-change on `" ++ deviceId ++ "/" ++ sc.capability ++
            "` would exceed a projection cap (" ++ overflow.display ++
            "); host refuses the publish so the durable log and the projection stay consistent"))

def projectDelta (inner : StoreInner) (instanceId : String) (ev : Event) (nowMs : Int) :
    StoreInner :=
  match deltaOf ev with
  | none => inner
  | some (deviceId, sc) =>
      inner.applyDelta deviceId instanceId sc.capability sc.fields ev.timestamp nowMs

def DEFAULT_PUBLISH_RATE_PER_SEC : Nat := 100
def DEFAULT_PUBLISH_BURST : Nat := 64

structure RateLimiter where
  tokens : ℚ

def RateLimiter.new : RateLimiter := ⟨DEFAULT_PUBLISH_BURST⟩

def RateLimiter.consume (limiter : RateLimiter) (gained : ℚ) : Bool × RateLimiter :=
  let tokens := min (limiter.tokens + gained) DEFAULT_PUBLISH_BURST
  if 1 ≤ tokens then (true, ⟨tokens - 1⟩) else (false, ⟨tokens⟩)

def admitPublish (rateLimiters : TreeMap String RateLimiter) (instanceId : String) (gained : ℚ) :
    Bool × TreeMap String RateLimiter :=
  let (admitted, limiter) := ((rateLimiters[instanceId]?).getD .new).consume gained
  (admitted, rateLimiters.insert instanceId limiter)

def rateLimited : Error :=
  .unavailable ("publish-event: per-instance publish quota exhausted (capacity " ++
    toString DEFAULT_PUBLISH_BURST ++ " events, refill " ++
    toString DEFAULT_PUBLISH_RATE_PER_SEC ++ "/s)")

inductive PublishStage where
  | admitting
  | checking
  | waiting
  /-- The gate is held and the blocking thread has the row. -/
  | recording
  | failed (error : Error)
  | recorded (rowId : Nat)
  | projected (rowId : Nat)
  /-- Inside `publish_with_id`, the publish of that index on the bus. -/
  | fanningOut (publish : Nat)
  | returned (result : Except Error Unit)

structure PublishCall where
  instanceId : String
  pluginId : String
  event : Event
  stage : PublishStage

inductive Mark where
  | committed (rowId : Nat)
  | applied (rowId : Nat)
  | offered (rowId : Nat)
deriving DecidableEq

structure PublishRun where
  devices : DeviceRegistry
  log : EventLog
  inner : StoreInner
  run : BusRun
  rateLimiters : TreeMap String RateLimiter
  /-- The holder of `publish_sequence`. -/
  gate : Option Nat
  calls : List PublishCall
  journal : List Mark

inductive WriteOutcome where
  | commits (pick : Nat)
  | fails (text : String)
  | panics (text : String)

inductive PublishMove where
  | admission (gained : ℚ)
  | check
  | lock
  | record (nowMs : Int) (outcome : WriteOutcome)
  | giveUp
  | project (nowMs : Int)
  | fanOut (snapshot : List SubscriptionId)
  | deliver
  | beginSignal (order : List WakeId)
  | signal
  | finish

inductive PublishAction where
  | begin (instanceId pluginId : String) (ev : Event)
  | move (c : Nat) (m : PublishMove)
  /-- What subscribers and other host calls do meanwhile. -/
  | consumer (a : BusAction)
  | mutate (m : Mutation)
  | register (devices : DeviceRegistry)

def isConsumer : BusAction → Bool
  | .subscribe .. | .registerWake .. | .dropReceiver _ | .dropWake _ | .dropSlot _ | .receive _ => true
  | .beginPublish .. | .deliver _ | .beginSignal .. | .signal _ => false

namespace PublishRun

def start (devices : DeviceRegistry) (log : EventLog) (inner : StoreInner) : PublishRun where
  devices := devices
  log := log
  inner := inner
  run := .new
  rateLimiters := ∅
  gate := none
  calls := []
  journal := []

def setStage (s : PublishRun) (c : Nat) (call : PublishCall) (stage : PublishStage) : PublishRun :=
  { s with calls := s.calls.set c { call with stage := stage } }

def beginCall (byteLen : Json → Nat) (s : PublishRun) (instanceId pluginId : String) (ev : Event) :
    PublishCall :=
  let event := stampOrigin pluginId instanceId ev
  let payloadBytes := byteLen (EventLog.serializePayload event.payload)
  match requirePublishAuthorized s.devices instanceId ev with
  | .error e => ⟨instanceId, pluginId, event, .returned (.error e)⟩
  | .ok () =>
      if payloadBytes > MAX_EVENT_PAYLOAD_BYTES then
        ⟨instanceId, pluginId, event, .returned (.error (payloadTooLarge payloadBytes))⟩
      else ⟨instanceId, pluginId, event, .admitting⟩

def admission (s : PublishRun) (c : Nat) (call : PublishCall) (gained : ℚ) : PublishRun :=
  let (admitted, rateLimiters) := admitPublish s.rateLimiters call.instanceId gained
  let s := { s with rateLimiters := rateLimiters }
  s.setStage c call (if admitted then .checking else .returned (.error rateLimited))

def check (s : PublishRun) (c : Nat) (call : PublishCall) : PublishRun :=
  match admitDelta s.inner call.instanceId call.event with
  | .ok () => s.setStage c call .waiting
  | .error e => s.setStage c call (.returned (.error e))

def record (s : PublishRun) (c : Nat) (call : PublishCall) (nowMs : Int) :
    WriteOutcome → Option PublishRun
  | .fails text => some (s.setStage c call (.failed (.internal ("event_log: write failed: " ++ text))))
  | .panics text =>
      some (s.setStage c call (.failed (.internal ("event_log: blocking task panicked: " ++ text))))
  | .commits pick =>
      match s.log.recordPrepared nowMs call.event call.instanceId call.pluginId
        (EventLog.serializePayload call.event.payload) pick with
      | .error _ => none
      | .ok (rowId, log) =>
          some ({ s with log := log, journal := s.journal ++ [Mark.committed rowId] }.setStage c call
            (.recorded rowId))

def project (s : PublishRun) (c : Nat) (call : PublishCall) (rowId : Nat) (nowMs : Int) :
    PublishRun :=
  { s with
    inner := projectDelta s.inner call.instanceId call.event nowMs
    journal := s.journal ++
      if (deltaOf call.event).isSome then [Mark.applied rowId] else [] }.setStage c call
        (.projected rowId)

def fanOut (s : PublishRun) (c : Nat) (call : PublishCall) (rowId : Nat)
    (snapshot : List SubscriptionId) : Option PublishRun :=
  (busStep s.run (.beginPublish call.event (some rowId) snapshot)).map fun run =>
    { s with run := run, journal := s.journal ++ [Mark.offered rowId] }.setStage c call
      (.fanningOut s.run.bus.publishes.length)

def fannedOut (s : PublishRun) (publish : Nat) : Bool :=
  s.run.bus.publishes[publish]?.any fun call => call.signals = some []

def onBus (s : PublishRun) (a : BusAction) : Option PublishRun :=
  (busStep s.run a).map fun run => { s with run := run }

def advance (s : PublishRun) (c : Nat) (call : PublishCall) : PublishMove → Option PublishRun
  | .admission gained =>
      match call.stage with
      | .admitting => some (s.admission c call gained)
      | _ => none
  | .check =>
      match call.stage with
      | .checking => some (s.check c call)
      | _ => none
  | .lock =>
      match call.stage, s.gate with
      | .waiting, none => some ({ s with gate := some c }.setStage c call .recording)
      | _, _ => none
  | .record nowMs outcome =>
      match call.stage with
      | .recording => s.record c call nowMs outcome
      | _ => none
  | .giveUp =>
      match call.stage with
      | .failed e => some ({ s with gate := none }.setStage c call (.returned (.error e)))
      | _ => none
  | .project nowMs =>
      match call.stage with
      | .recorded rowId => some (s.project c call rowId nowMs)
      | _ => none
  | .fanOut snapshot =>
      match call.stage with
      | .projected rowId => s.fanOut c call rowId snapshot
      | _ => none
  | .deliver =>
      match call.stage with
      | .fanningOut p => s.onBus (.deliver p)
      | _ => none
  | .beginSignal order =>
      match call.stage with
      | .fanningOut p => s.onBus (.beginSignal p order)
      | _ => none
  | .signal =>
      match call.stage with
      | .fanningOut p => s.onBus (.signal p)
      | _ => none
  | .finish =>
      match call.stage with
      | .fanningOut p =>
          if s.fannedOut p then some ({ s with gate := none }.setStage c call (.returned (.ok ())))
          else none
      | _ => none

end PublishRun

def publishStep (byteLen : Json → Nat) (s : PublishRun) : PublishAction → Option PublishRun
  | .begin instanceId pluginId ev =>
      some { s with calls := s.calls ++ [s.beginCall byteLen instanceId pluginId ev] }
  | .move c m =>
      match s.calls[c]? with
      | some call => s.advance c call m
      | none => none
  | .consumer a => if isConsumer a then s.onBus a else none
  | .mutate m => some { s with inner := s.inner.mutate m }
  | .register devices => some { s with devices := devices }

inductive Turned (s : PublishRun) (c : Nat) (call : PublishCall) : PublishRun → Prop where
  | admitted (gained : ℚ) : call.stage = .admitting → Turned s c call (s.admission c call gained)
  | checked : call.stage = .checking → Turned s c call (s.check c call)
  | locked : call.stage = .waiting → s.gate = none →
      Turned s c call ({ s with gate := some c }.setStage c call .recording)
  | failed (e : Error) : call.stage = .recording → Turned s c call (s.setStage c call (.failed e))
  | committed (nowMs : Int) (pick rowId : Nat) (log : EventLog) : call.stage = .recording →
      s.log.recordPrepared nowMs call.event call.instanceId call.pluginId
        (EventLog.serializePayload call.event.payload) pick = .ok (rowId, log) →
      Turned s c call ({ s with log := log, journal := s.journal ++ [Mark.committed rowId] }.setStage c
        call (.recorded rowId))
  | gaveUp (e : Error) : call.stage = .failed e →
      Turned s c call ({ s with gate := none }.setStage c call (.returned (.error e)))
  | projected (rowId : Nat) (nowMs : Int) : call.stage = .recorded rowId →
      Turned s c call (s.project c call rowId nowMs)
  | offered (rowId : Nat) (snapshot : List SubscriptionId) (run : BusRun) :
      call.stage = .projected rowId →
      busStep s.run (.beginPublish call.event (some rowId) snapshot) = some run →
      Turned s c call ({ s with
        run := run, journal := s.journal ++ [Mark.offered rowId] }.setStage c call
          (.fanningOut s.run.bus.publishes.length))
  | delivered (p : Nat) (run : BusRun) : call.stage = .fanningOut p →
      busStep s.run (.deliver p) = some run → Turned s c call { s with run := run }
  | signalling (p : Nat) (order : List WakeId) (run : BusRun) : call.stage = .fanningOut p →
      busStep s.run (.beginSignal p order) = some run → Turned s c call { s with run := run }
  | signalled (p : Nat) (run : BusRun) : call.stage = .fanningOut p →
      busStep s.run (.signal p) = some run → Turned s c call { s with run := run }
  | finished (p : Nat) : call.stage = .fanningOut p → s.fannedOut p = true →
      Turned s c call ({ s with gate := none }.setStage c call (.returned (.ok ())))

theorem advance_turned {s u : PublishRun} {c : Nat} {call : PublishCall} {m : PublishMove}
    (taken : s.advance c call m = some u) : Turned s c call u := by
  cases m with
  | admission gained =>
      cases stage : call.stage <;> simp only [PublishRun.advance, stage, reduceCtorEq] at taken
      cases taken
      exact .admitted gained stage
  | check =>
      cases stage : call.stage <;> simp only [PublishRun.advance, stage, reduceCtorEq] at taken
      cases taken
      exact .checked stage
  | lock =>
      cases stage : call.stage <;> simp only [PublishRun.advance, stage, reduceCtorEq] at taken
      cases gate : s.gate with
      | some holder => simp [gate] at taken
      | none =>
          simp only [gate] at taken
          cases taken
          exact .locked stage gate
  | record nowMs outcome =>
      cases stage : call.stage <;> simp only [PublishRun.advance, stage, reduceCtorEq] at taken
      cases outcome with
      | fails text =>
          cases taken
          exact .failed _ stage
      | panics text =>
          cases taken
          exact .failed _ stage
      | commits pick =>
          simp only [PublishRun.record] at taken
          split at taken
          · cases taken
          · next rowId log stored =>
              cases taken
              exact .committed nowMs pick rowId log stage stored
  | giveUp =>
      cases stage : call.stage <;> simp only [PublishRun.advance, stage, reduceCtorEq] at taken
      cases taken
      exact .gaveUp _ stage
  | project nowMs =>
      cases stage : call.stage <;> simp only [PublishRun.advance, stage, reduceCtorEq] at taken
      cases taken
      exact .projected _ nowMs stage
  | fanOut snapshot =>
      cases stage : call.stage <;> simp only [PublishRun.advance, stage, reduceCtorEq] at taken
      obtain ⟨run, begun, rfl⟩ := Option.map_eq_some_iff.mp taken
      exact .offered _ snapshot run stage begun
  | deliver =>
      cases stage : call.stage <;> simp only [PublishRun.advance, stage, reduceCtorEq] at taken
      obtain ⟨run, moved, rfl⟩ := Option.map_eq_some_iff.mp taken
      exact .delivered _ run stage moved
  | beginSignal order =>
      cases stage : call.stage <;> simp only [PublishRun.advance, stage, reduceCtorEq] at taken
      obtain ⟨run, moved, rfl⟩ := Option.map_eq_some_iff.mp taken
      exact .signalling _ order run stage moved
  | signal =>
      cases stage : call.stage <;> simp only [PublishRun.advance, stage, reduceCtorEq] at taken
      obtain ⟨run, moved, rfl⟩ := Option.map_eq_some_iff.mp taken
      exact .signalled _ run stage moved
  | finish =>
      cases stage : call.stage <;> simp only [PublishRun.advance, stage, reduceCtorEq] at taken
      next p =>
        by_cases done : s.fannedOut p
        · rw [if_pos done] at taken
          cases taken
          exact .finished p stage done
        · simp [done] at taken

end OxidHome.Host

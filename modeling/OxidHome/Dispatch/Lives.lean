import OxidHome.Dispatch.Dispatcher
import OxidHome.Services.Accounting

/-!
# Service calls across the lives of an instance

`call_service` taken apart into its steps over the two registries, and supervisors that crash, back
off and start over. A control channel outlives a crash. `bornIn` is the life of its owner in which
a service was registered; no step reads it.
-/

namespace OxidHome.Dispatch
open Wit Library Services
open Std (TreeMap)

/-- The arguments of `call_service`, with the `CALL_STACK` that it finds. -/
structure ServiceCall where
  callStack : List CallFrame
  callerInstance : String
  requested : List ServiceGrant
  granted : List ServiceGrant
  target : ServiceId
  command : String
  args : List KeyValue

namespace ServiceCall

/-- `call_service` up to the gate: the owner of the target with its plugin and local id. -/
def authorize (call : ServiceCall) (services : ServiceRegistry) :
    Except Error (String × String × String) :=
  match getOwnerPluginAndLocalId services call.target with
  | none => .error (ServiceRegistry.notRegistered call.target)
  | some (targetInstance, targetPluginId, targetLocalId) =>
    if call.callerInstance = targetInstance then
      .error (sameInstance call.target call.callerInstance)
    else if call.callStack.any fun f => f.callerInstance = targetInstance then
      .error (cycleDetected call.target targetInstance)
    else
      let matchesRequested := anyGrantMatches call.requested call.callerInstance targetPluginId
        targetInstance targetLocalId call.command
      let matchesGranted := anyGrantMatches call.granted call.callerInstance targetPluginId
        targetInstance targetLocalId call.command
      if !(matchesRequested && matchesGranted) then
        .error (callRefused call.callerInstance (failedClause matchesRequested matchesGranted)
          targetPluginId targetInstance targetLocalId call.command)
      else .ok (targetInstance, targetPluginId, targetLocalId)

end ServiceCall

inductive CallStage where
  | begun
  | authorized (targetInstance targetPluginId targetLocalId : String)
  | routed (targetPluginId targetLocalId : String) (handle : InstanceHandle)
  /-- The guard is taken; the message waits for room. -/
  | sending (handle : InstanceHandle)

structure CallFuture where
  call : ServiceCall
  stage : CallStage

inductive LifeCommand where
  | execute
  | shutdown
  | executeService (call : ServiceCall)

inductive LifeTask where
  | entry
  | shutdown
  | service (call : ServiceCall)

def LifeCommand.task : LifeCommand → LifeTask
  | .execute => .entry
  | .shutdown => .shutdown
  | .executeService call => .service call

inductive LifePhase where
  /-- At the top of `run_one_lifecycle`. -/
  | starting
  /-- Loading, or in `init`. -/
  | loading
  | idle
  | running (task : LifeTask)
  | backoff
  | exited
  /-- The reaper has swept and not unregistered yet. -/
  | reaped

structure Instance where
  control : Nat
  pluginId : String
  life : Nat
  mailbox : List LifeCommand
  phase : LifePhase

def Instance.listening (inst : Instance) : Bool :=
  match inst.phase with
  | .exited | .reaped => false
  | _ => true

/-- The plugin's code runs and can call the host. -/
def Instance.active (inst : Instance) : Bool :=
  match inst.phase with
  | .loading | .running _ => true
  | _ => false

def LifeCommand.target? : LifeCommand → Option ServiceId
  | .executeService call => some call.target
  | _ => none

structure Lives where
  services : ServiceRegistry
  bornIn : TreeMap ServiceId Nat
  instances : TreeMap String Instance
  /-- Futures of `call_service` up to the send. -/
  calls : TreeMap Nat CallFuture
  /-- Guards in messages that a dead receiver has yet to drop. -/
  dying : List ServiceId
  nextControl : Nat
  nextLife : Nat
  nextCall : Nat

inductive AfterTask where
  | goesOn
  | backsOff
  | exits

inductive LifeAction where
  | start (id pluginId : String)
  | sweep (id : String)
  | loaded (id : String) (next : AfterTask)
  | register (id : String) (info : ServiceInfo)
  | update (id : String) (service : ServiceId) (info : ServiceInfo)
  | remove (id : String) (service : ServiceId)
  | enter (id : String)
  | receive (id : String)
  | finish (id : String) (next : AfterTask)
  | refuse (id : String)
  | elapse (id : String)
  | reap (id : String)
  | unregister (id : String)
  | execute (id : String)
  | stop (id : String)
  | dispatch (call : ServiceCall)
  | authorize (n : Nat)
  | route (n : Nat)
  | acquire (n : Nat)
  | send (n : Nat)
  /-- A timeout, or the caller is dropped. -/
  | abandon (n : Nat)
  | dropGuard (service : ServiceId)

namespace Lives

def new : Lives := ⟨.new, ∅, ∅, ∅, [], 0, 0, 0⟩

def set (s : Lives) (id : String) (inst : Instance) : Lives :=
  { s with instances := s.instances.insert id inst }

def release (s : Lives) (service : ServiceId) : Lives :=
  { s with services := s.services.releaseCall service }

/-- The supervisor's task ends, and its receiver with what is queued. -/
def exit (s : Lives) (id : String) (inst : Instance) : Lives :=
  { s.set id { inst with mailbox := [], phase := .exited } with
    dying := s.dying ++ inst.mailbox.filterMap LifeCommand.target? }

def after (s : Lives) (id : String) (inst : Instance) : AfterTask → Lives
  | .goesOn => s.set id { inst with phase := .idle }
  | .backsOff => s.set id { inst with phase := .backoff }
  | .exits => s.exit id inst

def post (s : Lives) (id : String) (inst : Instance) (command : LifeCommand) : Option Lives :=
  if inst.listening && inst.mailbox.length < MAILBOX_CAPACITY then
    some (s.set id { inst with mailbox := inst.mailbox ++ [command] })
  else none

def stepInstance (s : Lives) (id : String) (inst : Instance) : LifeAction → Option Lives
  | .sweep _ =>
      match inst.phase with
      | .starting =>
          some { s.set id { inst with life := s.nextLife, phase := .loading } with
            services := (s.services.removeByOwner id).2, nextLife := s.nextLife + 1 }
      | _ => none
  | .loaded _ next =>
      match inst.phase with
      | .loading => some (s.after id inst next)
      | _ => none
  | .register _ info =>
      if inst.active then
        match s.services.register id inst.pluginId info with
        | .error _ => some s
        | .ok (service, services) =>
            some { s with services := services, bornIn := s.bornIn.insert service inst.life }
      else none
  | .update _ service info =>
      if inst.active then
        some { s with services := (s.services.update id service info).toOption.getD s.services }
      else none
  | .remove _ service =>
      if inst.active then
        some { s with services := (s.services.remove id service).toOption.getD s.services }
      else none
  | .enter _ =>
      match inst.phase with
      | .idle => some (s.set id { inst with phase := .running .entry })
      | _ => none
  | .receive _ =>
      match inst.phase, inst.mailbox with
      | .idle, command :: rest =>
          some (s.set id { inst with mailbox := rest, phase := .running command.task })
      | _, _ => none
  | .finish _ next =>
      match inst.phase with
      | .running .entry => some (s.after id inst next)
      | .running .shutdown => some (s.exit id inst)
      | .running (.service call) => some ((s.after id inst next).release call.target)
      | _ => none
  | .refuse _ =>
      match inst.phase, inst.mailbox with
      | .backoff, .shutdown :: _ => some (s.exit id inst)
      | .backoff, .execute :: rest => some (s.set id { inst with mailbox := rest })
      | .backoff, .executeService call :: rest =>
          some ((s.set id { inst with mailbox := rest }).release call.target)
      | _, _ => none
  | .elapse _ =>
      match inst.phase with
      | .backoff => some (s.set id { inst with phase := .starting })
      | _ => none
  | .reap _ =>
      match inst.phase with
      | .exited =>
          some { s.set id { inst with phase := .reaped } with
            services := (s.services.removeByOwner id).2 }
      | _ => none
  | .unregister _ =>
      match inst.phase with
      | .reaped => some { s with instances := s.instances.erase id }
      | _ => none
  | .execute _ => s.post id inst .execute
  | .stop _ => s.post id inst .shutdown
  | _ => none

def advance (s : Lives) (n : Nat) (call : ServiceCall) (stage : CallStage) : Lives :=
  { s with calls := s.calls.insert n ⟨call, stage⟩ }

def hangUp (s : Lives) (n : Nat) : Lives := { s with calls := s.calls.erase n }

def stepCall (s : Lives) (n : Nat) (future : CallFuture) : LifeAction → Option Lives
  | .authorize _ =>
      match future.stage with
      | .begun =>
          match future.call.authorize s.services with
          | .error _ => some (s.hangUp n)
          | .ok (targetInstance, targetPluginId, targetLocalId) =>
              some (s.advance n future.call
                (.authorized targetInstance targetPluginId targetLocalId))
      | _ => none
  | .route _ =>
      match future.stage with
      | .authorized targetInstance targetPluginId targetLocalId =>
          match s.instances[targetInstance]? with
          | none => some (s.hangUp n)
          | some inst =>
              some (s.advance n future.call
                (.routed targetPluginId targetLocalId ⟨targetInstance, inst.control⟩))
      | _ => none
  | .acquire _ =>
      match future.stage with
      | .routed _ _ handle =>
          match acquireCall s.services future.call.target with
          | .error _ => some (s.hangUp n)
          | .ok services => some { s.advance n future.call (.sending handle) with services := services }
      | _ => none
  | .send _ =>
      match future.stage with
      | .sending handle =>
          match s.instances[handle.instanceId]? with
          | none => some ((s.hangUp n).release future.call.target)
          | some inst =>
              if inst.control = handle.control && inst.listening then
                (s.hangUp n).post handle.instanceId inst (.executeService future.call)
              else some ((s.hangUp n).release future.call.target)
      | _ => none
  | .abandon _ =>
      match future.stage with
      | .sending _ => some ((s.hangUp n).release future.call.target)
      | _ => some (s.hangUp n)
  | _ => none

def step (s : Lives) (action : LifeAction) : Option Lives :=
  match action with
  | .start id pluginId =>
      if id ∈ s.instances then none
      else some { s.set id ⟨s.nextControl, pluginId, s.nextLife, [], .starting⟩ with
        nextControl := s.nextControl + 1, nextLife := s.nextLife + 1 }
  | .dispatch call =>
      some { s.advance s.nextCall call .begun with nextCall := s.nextCall + 1 }
  | .dropGuard service =>
      if service ∈ s.dying then some { s.release service with dying := s.dying.erase service }
      else none
  | .authorize n | .route n | .acquire n | .send n | .abandon n =>
      match s.calls[n]? with
      | none => none
      | some future => s.stepCall n future action
  | .sweep id | .loaded id _ | .register id _ | .update id _ _ | .remove id _ | .enter id
  | .receive id | .finish id _ | .refuse id | .elapse id | .reap id | .unregister id
  | .execute id | .stop id =>
      match s.instances[id]? with
      | none => none
      | some inst => s.stepInstance id inst action

end Lives

end OxidHome.Dispatch

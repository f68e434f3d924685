import OxidHome.Services.Registry

/-!
# Service dispatch between supervisors

`call_service` and the supervisors it parks. A supervisor drives one task at a time. Its
`CALL_STACK` is the chain of the `ExecuteService` that it is serving, and is unset for every other
entry point. A call is named by its oneshot, and a handle by the control channel that it sends on.
-/

namespace OxidHome.Dispatch
open Wit Library Services
open Std (TreeMap)

structure CallFrame where
  callerInstance : String
  targetInstance : String
  targetService : ServiceId
deriving DecidableEq

structure ServiceGrant where
  plugin : String
  inst : String
  service : String
  commands : List String
  callerInstance : String

namespace ServiceGrant

def ANY : String := "*"

def selectorMatches (selector value : String) : Bool := selector = ANY || selector = value

def covers (grant : ServiceGrant) (callerInstance plugin targetInstance serviceLocalId command :
    String) : Bool :=
  grant.plugin = plugin && grant.service = serviceLocalId &&
    selectorMatches grant.inst targetInstance &&
    selectorMatches grant.callerInstance callerInstance &&
    grant.commands.any fun c => c = ANY || c = command

end ServiceGrant

def anyGrantMatches (grants : List ServiceGrant) (callerInstance targetPlugin targetInstance
    targetServiceLocalId command : String) : Bool :=
  grants.any fun grant =>
    grant.covers callerInstance targetPlugin targetInstance targetServiceLocalId command

structure InstanceHandle where
  instanceId : String
  control : Nat
deriving DecidableEq

def getOwnerPluginAndLocalId (services : ServiceRegistry) (id : ServiceId) :
    Option (String × String × String) :=
  services.inner[id]?.map fun m => (m.ownerInstance, m.ownerPluginId, m.info.localId)

def acquireCall (services : ServiceRegistry) (id : ServiceId) : Except Error ServiceRegistry :=
  if id ∈ services.inner then .ok (services.bumpCall id)
  else .error (ServiceRegistry.notRegistered id)

def sameInstance (target : ServiceId) (callerInstance : String) : Error :=
  .invalidArgument ("same-instance dispatch is not supported: target service `" ++ target ++
    "` is owned by the calling instance `" ++ callerInstance ++
    "`; dispatch between services colocated in one instance in plugin-local code instead of " ++
    "going through host-services::call-service")

def cycleDetected (target : ServiceId) (targetInstance : String) : Error :=
  .invalidArgument ("cycle detected: instance `" ++ targetInstance ++
    "` is already on the call chain (target service `" ++ target ++
    "`); calling back into a supervisor already parked on a reply would deadlock")

def failedClause : Bool → Bool → String
  | false, false => "neither the caller's requested nor the granted list contains"
  | false, true => "the caller's requested list does not contain"
  | true, _ => "the operator's granted list does not contain"

def callRefused (callerInstance clause targetPluginId targetInstance targetLocalId command :
    String) : Error :=
  .permissionDenied ("caller `" ++ callerInstance ++ "` refused: " ++ clause ++
    " a matching `consumes_services` selector for target `" ++ targetPluginId ++ "` instance `" ++
    targetInstance ++ "` service `" ++ targetLocalId ++ "` command `" ++ command ++
    "` (caller_instance `" ++ callerInstance ++ "` must match too). For plugin callers, add " ++
    "a matching `[[capabilities.consumes_services]]` entry to the caller's manifest and ensure " ++
    "the operator's granted copy authorizes the same selector")

def ownerNotRunning (target : ServiceId) (targetInstance : String) : Error :=
  .unavailable ("service `" ++ target ++ "` owner instance `" ++ targetInstance ++
    "` is not running")

/-- The handle to send on, the chain to hand over, and the registry with the guard taken. -/
def callService (services : ServiceRegistry) (instances : String → Option InstanceHandle)
    (callStack : List CallFrame) (callerInstance : String) (requested granted : List ServiceGrant)
    (target : ServiceId) (command : String) :
    Except Error (InstanceHandle × List CallFrame × ServiceRegistry) :=
  match getOwnerPluginAndLocalId services target with
  | none => .error (ServiceRegistry.notRegistered target)
  | some (targetInstance, targetPluginId, targetLocalId) =>
    if callerInstance = targetInstance then .error (sameInstance target callerInstance)
    else if callStack.any fun f => f.callerInstance = targetInstance then
      .error (cycleDetected target targetInstance)
    else
      let matchesRequested := anyGrantMatches requested callerInstance targetPluginId
        targetInstance targetLocalId command
      let matchesGranted := anyGrantMatches granted callerInstance targetPluginId
        targetInstance targetLocalId command
      if !(matchesRequested && matchesGranted) then
        .error (callRefused callerInstance (failedClause matchesRequested matchesGranted)
          targetPluginId targetInstance targetLocalId command)
      else match instances targetInstance with
        | none => .error (ownerNotRunning target targetInstance)
        | some handle =>
          match acquireCall services target with
          | .error err => .error err
          | .ok services =>
            .ok (handle, callStack ++ [⟨callerInstance, targetInstance, target⟩], services)

structure Reply where
  callerInstance : String
  call : Nat
deriving DecidableEq

/-- `ControlCommand::ExecuteService`; the guard that it carries is of `service`. -/
structure ExecuteService where
  chain : List CallFrame
  service : ServiceId
  command : String
  args : List KeyValue
  reply : Reply
deriving DecidableEq

inductive ControlCommand where
  | execute
  | shutdown
  | executeService (message : ExecuteService)
deriving DecidableEq

def ControlCommand.service? : ControlCommand → Option ExecuteService
  | .executeService message => some message
  | _ => none

inductive Task where
  /-- `init`, `tick`, `on-event` or `execute-command`. -/
  | entry
  | shutdown
  | service (message : ExecuteService)

def Task.callStack : Task → List CallFrame
  | .service message => message.chain
  | _ => []

def Task.service? : Task → Option ExecuteService
  | .service message => some message
  | _ => none

def ControlCommand.task : ControlCommand → Task
  | .execute => .entry
  | .shutdown => .shutdown
  | .executeService message => .service message

inductive Activity where
  | idle
  | backoff
  | running (task : Task)
  /-- Waiting for room in the target's mailbox. -/
  | sending (task : Task) (handle : InstanceHandle) (message : ExecuteService)
  | parked (task : Task) (call : Nat) (target : String)
  /-- The task has ended and the reaper has not come yet. -/
  | exited

def Activity.serving : Activity → Option ExecuteService
  | .running task => task.service?
  | .sending task _ _ => task.service?
  | .parked task _ _ => task.service?
  | _ => none

structure Supervisor where
  control : Nat
  mailbox : List ControlCommand
  activity : Activity
  consumesServicesRequested : List ServiceGrant
  consumesServicesGranted : List ServiceGrant

def Supervisor.listening (sup : Supervisor) : Bool :=
  match sup.activity with
  | .exited => false
  | _ => true

/-- The oneshot of `call` has resolved. -/
def Supervisor.answered (sup : Supervisor) (call : Nat) : Supervisor :=
  match sup.activity with
  | .parked task awaited _ => if awaited = call then { sup with activity := .running task } else sup
  | _ => sup

structure CallSystem where
  services : ServiceRegistry
  instances : TreeMap String Supervisor
  nextControl : Nat
  nextCall : Nat

inductive RegistryWrite where
  | register (ownerInstance ownerPluginId : String) (info : ServiceInfo)
  | update (ownerInstance : String) (id : ServiceId) (info : ServiceInfo)
  | remove (ownerInstance : String) (id : ServiceId)
  | removeByOwner (instanceId : String)

def RegistryWrite.apply (services : ServiceRegistry) : RegistryWrite → ServiceRegistry
  | .register ownerInstance ownerPluginId info =>
      match services.register ownerInstance ownerPluginId info with
      | .error _ => services
      | .ok (_, registered) => registered
  | .update ownerInstance id info => (services.update ownerInstance id info).toOption.getD services
  | .remove ownerInstance id => (services.remove ownerInstance id).toOption.getD services
  | .removeByOwner instanceId => (services.removeByOwner instanceId).2

inductive SupervisorAction where
  | enter
  | receive
  | refuse
  | restart
  | call (target : ServiceId) (command : String) (args : List KeyValue)
  | enqueue
  | timeout
  | finish (trapped : Bool)
  | exit
  | reap

inductive DispatchAction where
  | start (id : String) (requested granted : List ServiceGrant)
  | services (write : RegistryWrite)
  | execute (id : String)
  | stop (id : String)
  | supervisor (id : String) (action : SupervisorAction)

def MAILBOX_CAPACITY : Nat := 16

namespace CallSystem

def new : CallSystem := ⟨.new, ∅, 0, 0⟩

def set (s : CallSystem) (id : String) (sup : Supervisor) : CallSystem :=
  { s with instances := s.instances.insert id sup }

def handleOf (s : CallSystem) (id : String) : Option InstanceHandle :=
  s.instances[id]?.map fun sup => ⟨id, sup.control⟩

def release (s : CallSystem) (service : ServiceId) : CallSystem :=
  { s with services := s.services.releaseCall service }

/-- The message is gone, answered or not: its guard drops and its caller hears of it. -/
def settle (s : CallSystem) (message : ExecuteService) : CallSystem :=
  let s := s.release message.service
  match s.instances[message.reply.callerInstance]? with
  | none => s
  | some caller => s.set message.reply.callerInstance (caller.answered message.reply.call)

def settleAll (s : CallSystem) (messages : List ExecuteService) : CallSystem := messages.foldl settle s

/-- What is still in the mailbox drops with the receiver. -/
def close (s : CallSystem) (id : String) (sup : Supervisor) : CallSystem :=
  (s.set id { sup with mailbox := [], activity := .exited }).settleAll
    (sup.mailbox.filterMap ControlCommand.service?)

/-- One poll of `control.send`, which waits while the mailbox is full. -/
def post (s : CallSystem) (id : String) (command : ControlCommand) : Option CallSystem :=
  match s.instances[id]? with
  | none => none
  | some sup =>
    if sup.listening && sup.mailbox.length < MAILBOX_CAPACITY then
      some (s.set id { sup with mailbox := sup.mailbox ++ [command] })
    else none

def reachable (s : CallSystem) (handle : InstanceHandle) : Bool :=
  s.instances[handle.instanceId]?.any fun sup =>
    sup.control = handle.control && sup.listening

def stepSupervisor (s : CallSystem) (id : String) (sup : Supervisor) :
    SupervisorAction → Option CallSystem
  | .enter =>
      match sup.activity with
      | .idle => some (s.set id { sup with activity := .running .entry })
      | _ => none
  | .receive =>
      match sup.activity, sup.mailbox with
      | .idle, command :: rest =>
          some (s.set id { sup with mailbox := rest, activity := .running command.task })
      | _, _ => none
  | .refuse =>
      match sup.activity, sup.mailbox with
      | .backoff, .shutdown :: _ => some (s.close id sup)
      | .backoff, command :: rest =>
          some ((s.set id { sup with mailbox := rest }).settleAll command.service?.toList)
      | _, _ => none
  | .restart =>
      match sup.activity with
      | .backoff => some (s.set id { sup with activity := .running .entry })
      | _ => none
  | .call target command args =>
      match sup.activity with
      | .running task =>
          match callService s.services s.handleOf task.callStack id sup.consumesServicesRequested
              sup.consumesServicesGranted target command with
          | .error _ => some s
          | .ok (handle, chain, services) =>
              let message := ⟨chain, target, command, args, ⟨id, s.nextCall⟩⟩
              let sending := s.set id { sup with activity := .sending task handle message }
              some { sending with services := services, nextCall := s.nextCall + 1 }
      | _ => none
  | .enqueue =>
      match sup.activity with
      | .sending task handle message =>
          if s.reachable handle then
            (s.post handle.instanceId (.executeService message)).map fun posted =>
              posted.set id { sup with
                activity := .parked task message.reply.call handle.instanceId }
          else some ((s.set id { sup with activity := .running task }).release message.service)
      | _ => none
  | .timeout =>
      match sup.activity with
      | .sending task _ message =>
          some ((s.set id { sup with activity := .running task }).release message.service)
      | .parked task _ _ => some (s.set id { sup with activity := .running task })
      | _ => none
  | .finish trapped =>
      match sup.activity with
      | .running .shutdown => some (s.close id sup)
      | .running task =>
          let next : Activity := if trapped then .backoff else .idle
          some ((s.set id { sup with activity := next }).settleAll task.service?.toList)
      | _ => none
  | .exit =>
      match sup.activity with
      | .idle | .backoff => some (s.close id sup)
      | _ => none
  | .reap =>
      match sup.activity with
      | .exited => some { s with instances := s.instances.erase id }
      | _ => none

def step (s : CallSystem) : DispatchAction → Option CallSystem
  | .start id requested granted =>
      if id ∈ s.instances then none
      else some { s.set id ⟨s.nextControl, [], .running .entry, requested, granted⟩ with
        nextControl := s.nextControl + 1 }
  | .services write => some { s with services := write.apply s.services }
  | .execute id => s.post id .execute
  | .stop id => s.post id .shutdown
  | .supervisor id action =>
      match s.instances[id]? with
      | none => none
      | some sup => s.stepSupervisor id sup action

end CallSystem

end OxidHome.Dispatch

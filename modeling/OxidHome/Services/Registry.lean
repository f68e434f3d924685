import OxidHome.Wit
import OxidHome.Library.Machine
import OxidHome.Library.TreeMaps

/-!
# The service registry

`ServiceRegistry` of `state/services.rs`. `ServiceCalls` is the registry with everything that is
alive around it: the callers inside `acquire_call`, who hold the read lock between the lookup and
the bump, the `CallGuard`s, and the ids handed out so far. The counters are natural numbers: no
count of calls exceeds the guards that are alive, and one id is minted for each step at most, so the
`u32` and the `u64` of the source do not wrap below 2^32 guards and 2^64 steps.
-/

namespace OxidHome.Services
open Wit Library
open Std (TreeMap)

structure ServiceMeta where
  id : ServiceId
  ownerInstance : String
  ownerPluginId : String
  info : ServiceInfo

structure ServiceRegistry where
  inner : TreeMap ServiceId ServiceMeta
  activeCalls : TreeMap ServiceId Nat
  nextId : Nat

namespace ServiceRegistry

def new : ServiceRegistry := ⟨∅, ∅, 0⟩

def mintId (n : Nat) : ServiceId := "svc-" ++ toString n

def notRegistered (id : ServiceId) : Error := .notFound ("service " ++ id ++ " not registered")

def register (reg : ServiceRegistry) (ownerInstance ownerPluginId : String) (info : ServiceInfo) :
    Except Error (ServiceId × ServiceRegistry) :=
  if reg.inner.toList.any fun (_, m) =>
      m.ownerInstance = ownerInstance && m.info.localId = info.localId then
    .error (.invalidArgument ("service with local-id `" ++ info.localId ++
      "` is already registered by instance `" ++ ownerInstance ++
      "`; local-id is the immutable logical key and must be unique per instance"))
  else
    let id := mintId reg.nextId
    .ok (id, { reg with
      inner := reg.inner.insert id ⟨id, ownerInstance, ownerPluginId, info⟩
      nextId := reg.nextId + 1 })

def update (reg : ServiceRegistry) (ownerInstance : String) (id : ServiceId) (info : ServiceInfo) :
    Except Error ServiceRegistry :=
  match reg.inner[id]? with
  | none => .error (notRegistered id)
  | some m =>
    if m.ownerInstance ≠ ownerInstance then .error (notRegistered id)
    else if m.info.localId ≠ info.localId then
      .error (.invalidArgument ("service " ++ id ++ ": local-id is immutable (was `" ++
        m.info.localId ++ "`, update tried `" ++ info.localId ++ "`)"))
    else .ok { reg with inner := reg.inner.insert id { m with info := info } }

def remove (reg : ServiceRegistry) (ownerInstance : String) (id : ServiceId) :
    Except Error ServiceRegistry :=
  match reg.inner[id]? with
  | none => .error (notRegistered id)
  | some m =>
    if m.ownerInstance ≠ ownerInstance then .error (notRegistered id)
    else
      let inFlight := reg.activeCalls[id]?.getD 0
      if inFlight > 0 then
        .error (.unavailable ("service " ++ id ++ " has " ++ toString inFlight ++
          " active call(s); retry after they complete"))
      else .ok { reg with inner := reg.inner.erase id, activeCalls := reg.activeCalls.erase id }

def removeByOwner (reg : ServiceRegistry) (instanceId : String) : Nat × ServiceRegistry :=
  let removedIds := (reg.inner.filter fun _ m => m.ownerInstance = instanceId).keys
  (removedIds.length, { reg with
    inner := reg.inner.filter fun _ m => m.ownerInstance ≠ instanceId
    activeCalls := removedIds.foldl (·.erase ·) reg.activeCalls })

/-- `entries` is `inner` in the order of the hash map. -/
def resolveByLocalId (entries : List (ServiceId × ServiceMeta))
    (pluginId instanceId localId : String) : Option ServiceId :=
  entries.findSome? fun (_, m) =>
    if m.ownerPluginId = pluginId && m.ownerInstance = instanceId && m.info.localId = localId then
      some m.id
    else none

/-- The second half of `acquire_call`. -/
def bumpCall (reg : ServiceRegistry) (id : ServiceId) : ServiceRegistry :=
  { reg with activeCalls := reg.activeCalls.insert id (reg.activeCalls[id]?.getD 0 + 1) }

def releaseCall (reg : ServiceRegistry) (id : ServiceId) : ServiceRegistry :=
  match reg.activeCalls[id]? with
  | none => reg
  | some n =>
    if n - 1 = 0 then { reg with activeCalls := reg.activeCalls.erase id }
    else { reg with activeCalls := reg.activeCalls.insert id (n - 1) }

def activeCallCount (reg : ServiceRegistry) (id : ServiceId) : Nat := reg.activeCalls[id]?.getD 0

end ServiceRegistry

structure ServiceCalls where
  registry : ServiceRegistry
  acquiring : List ServiceId
  guards : List ServiceId
  minted : List ServiceId

inductive ServiceAction where
  | register (ownerInstance ownerPluginId : String) (info : ServiceInfo)
  | update (ownerInstance : String) (id : ServiceId) (info : ServiceInfo)
  | remove (ownerInstance : String) (id : ServiceId)
  | removeByOwner (instanceId : String)
  | enterAcquire (id : ServiceId)
  | bump (id : ServiceId)
  | dropGuard (id : ServiceId)

namespace ServiceCalls

def new : ServiceCalls := ⟨.new, [], [], []⟩

/-- The write lock of `inner` waits for every reader. -/
def write (s : ServiceCalls) (change : Except Error ServiceRegistry) : Option ServiceCalls :=
  if s.acquiring ≠ [] then none
  else match change with
    | .error _ => some s
    | .ok registry => some { s with registry := registry }

def step (s : ServiceCalls) : ServiceAction → Option ServiceCalls
  | .register ownerInstance ownerPluginId info =>
      if s.acquiring ≠ [] then none
      else match s.registry.register ownerInstance ownerPluginId info with
        | .error _ => some s
        | .ok (id, registry) => some { s with registry := registry, minted := s.minted ++ [id] }
  | .update ownerInstance id info => s.write (s.registry.update ownerInstance id info)
  | .remove ownerInstance id => s.write (s.registry.remove ownerInstance id)
  | .removeByOwner instanceId => s.write (.ok (s.registry.removeByOwner instanceId).2)
  | .enterAcquire id =>
      if id ∈ s.registry.inner then some { s with acquiring := id :: s.acquiring }
      else some s
  | .bump id =>
      if id ∈ s.acquiring then
        some { s with
          registry := s.registry.bumpCall id
          acquiring := s.acquiring.erase id
          guards := id :: s.guards }
      else none
  | .dropGuard id =>
      if id ∈ s.guards then
        some { s with registry := s.registry.releaseCall id, guards := s.guards.erase id }
      else none

end ServiceCalls

end OxidHome.Services

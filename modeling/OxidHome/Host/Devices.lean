import OxidHome.Host.Capability
import OxidHome.Library.TreeMaps

/-!
# The device registry

`DeviceRegistry` of `state/devices.rs`. The hash behind `stable_device_id` is a parameter.
-/

namespace OxidHome.Host
open Wit Library
open Std (TreeMap)

def MAX_DEVICES_PER_INSTANCE : Nat := 1024
def MAX_CAPABILITIES_PER_DEVICE : Nat := 32

structure DeviceMeta where
  id : DeviceId
  ownerInstance : String
  info : DeviceInfo

structure DeviceRegistry where
  inner : TreeMap DeviceId DeviceMeta

namespace DeviceRegistry

def new : DeviceRegistry := ⟨∅⟩

def notRegistered (id : DeviceId) : Error := .notFound ("device " ++ id ++ " not registered")

def owned (reg : DeviceRegistry) (ownerInstance : String) : Nat :=
  (reg.inner.toList.filter fun p => p.2.ownerInstance = ownerInstance).length

/-- `stable_device_id` has been applied to the installation, the owner and the local id. -/
def tryRegister (reg : DeviceRegistry) (id : DeviceId) (ownerInstance : String)
    (info : DeviceInfo) : Except Error DeviceRegistry :=
  if !reg.inner.contains id && MAX_DEVICES_PER_INSTANCE ≤ reg.owned ownerInstance then
    .error (.unavailable ("instance `" ++ ownerInstance ++ "` has " ++
      toString (reg.owned ownerInstance) ++ " devices registered; the per-instance cap is " ++
      toString MAX_DEVICES_PER_INSTANCE))
  else .ok ⟨reg.inner.insert id ⟨id, ownerInstance, info⟩⟩

def get (reg : DeviceRegistry) (ownerInstance : String) (id : DeviceId) :
    Except Error DeviceMeta :=
  match reg.inner[id]? with
  | some m => if m.ownerInstance = ownerInstance then .ok m else .error (notRegistered id)
  | none => .error (notRegistered id)

def update (reg : DeviceRegistry) (ownerInstance : String) (id : DeviceId) (info : DeviceInfo) :
    Except Error DeviceRegistry :=
  match reg.inner[id]? with
  | some m =>
      if m.ownerInstance ≠ ownerInstance then .error (notRegistered id)
      else if m.info.localId ≠ info.localId then
        .error (.invalidArgument ("update-device: local_id is immutable after registration (was `" ++
          m.info.localId ++ "`, got `" ++ info.localId ++
          "`) — use remove-device + register-device to rename"))
      else .ok ⟨reg.inner.insert id { m with info := info }⟩
  | none => .error (notRegistered id)

def remove (reg : DeviceRegistry) (ownerInstance : String) (id : DeviceId) :
    Except Error DeviceRegistry :=
  match reg.inner[id]? with
  | some m =>
      if m.ownerInstance = ownerInstance then .ok ⟨reg.inner.erase id⟩
      else .error (notRegistered id)
  | none => .error (notRegistered id)

def removeByOwner (reg : DeviceRegistry) (instanceId : String) : DeviceRegistry :=
  ⟨reg.inner.filter fun _ m => m.ownerInstance ≠ instanceId⟩

theorem get_eq_ok {reg : DeviceRegistry} {ownerInstance : String} {id : DeviceId}
    {m : DeviceMeta} :
    reg.get ownerInstance id = .ok m ↔
      reg.inner[id]? = some m ∧ m.ownerInstance = ownerInstance := by
  unfold get
  cases found : reg.inner[id]? with
  | none => simp
  | some m' =>
      by_cases own : m'.ownerInstance = ownerInstance
      · simp only [own, if_true, Except.ok.injEq, Option.some.injEq]
        constructor
        · rintro rfl
          exact ⟨rfl, own⟩
        · exact And.left
      · simp only [own, if_false, reduceCtorEq, Option.some.injEq, false_iff, not_and]
        rintro rfl
        exact own

end DeviceRegistry

end OxidHome.Host

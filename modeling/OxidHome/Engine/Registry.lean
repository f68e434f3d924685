import OxidHome.Library.Machine
import OxidHome.Library.TreeMaps

/-!
# The instance registry

`InstanceRegistry` of `runtime/registry.rs`: the two maps and the shutdown flag under one mutex, so
every operation is one step. A handle carries the number of the supervisor task it was made for.
Which instance `SingletonInUse` names is the first in map order.
-/

namespace OxidHome.Engine
open Library
open Std (TreeMap)

structure InstanceHandle where
  instanceId : String
  pluginId : String
  task : Nat
  deriving DecidableEq

structure RegistryInner where
  instances : TreeMap String InstanceHandle
  singletons : TreeMap String String
  shuttingDown : Bool

inductive RegistryError where
  | duplicateInstanceId (instanceId : String)
  | singletonInUse (pluginId existingInstanceId : String)
  | shuttingDown
  deriving DecidableEq

namespace RegistryInner

def new : RegistryInner := ⟨∅, ∅, false⟩

def list (inner : RegistryInner) : List InstanceHandle := inner.instances.toList.map Prod.snd

/-- The checks of `register`, in its order. -/
def refusal (inner : RegistryInner) (instanceId pluginId : String) (singleton : Bool) :
    Option RegistryError :=
  if inner.shuttingDown then some .shuttingDown
  else if instanceId ∈ inner.instances then some (.duplicateInstanceId instanceId)
  else if singleton then
    (inner.list.find? (·.pluginId = pluginId)).map fun existing =>
      .singletonInUse pluginId existing.instanceId
  else inner.singletons[pluginId]?.map (.singletonInUse pluginId)

def insert (inner : RegistryInner) (instanceId pluginId : String) (singleton : Bool)
    (handle : InstanceHandle) : RegistryInner :=
  { inner with
    instances := inner.instances.insert instanceId handle
    singletons :=
      if singleton then inner.singletons.insert pluginId instanceId else inner.singletons }

/-- `world` is what the factory works on. -/
def register {σ : Type} (inner : RegistryInner) (world : σ) (instanceId pluginId : String)
    (singleton : Bool) (factory : σ → InstanceHandle × σ) :
    Except RegistryError InstanceHandle × RegistryInner × σ :=
  match inner.refusal instanceId pluginId singleton with
  | some err => (.error err, inner, world)
  | none =>
      let (handle, world) := factory world
      (.ok handle, inner.insert instanceId pluginId singleton handle, world)

def unregister (inner : RegistryInner) (instanceId pluginId : String) : RegistryInner :=
  { inner with
    instances := inner.instances.erase instanceId
    singletons := if inner.singletons[pluginId]? = some instanceId then
      inner.singletons.erase pluginId else inner.singletons }

def beginShutdown (inner : RegistryInner) : RegistryInner := { inner with shuttingDown := true }

theorem mem_list {inner : RegistryInner} {handle : InstanceHandle} :
    handle ∈ inner.list ↔ ∃ id : String, inner.instances[id]? = some handle := by
  simp [list, TreeMap.mem_toList_iff_getElem?_eq_some]

theorem refusal_eq_none {inner : RegistryInner} {instanceId pluginId : String} {singleton : Bool} :
    inner.refusal instanceId pluginId singleton = none ↔
      inner.shuttingDown = false ∧ inner.instances[instanceId]? = none ∧
        (singleton = true → ∀ handle ∈ inner.list, handle.pluginId ≠ pluginId) ∧
        (singleton = false → inner.singletons[pluginId]? = none) := by
  unfold refusal
  cases inner.shuttingDown with
  | true => simp
  | false =>
      by_cases taken : instanceId ∈ inner.instances <;> cases singleton <;> simp [taken]

end RegistryInner

structure Registration where
  handle : InstanceHandle
  singleton : Bool
  deriving DecidableEq

/-- The registry holds exactly the registrations of `live`, and they exclude one another. -/
structure Holds (inner : RegistryInner) (live : Set Registration) : Prop where
  listed : ∀ id handle, inner.instances[id]? = some handle ↔
    handle.instanceId = id ∧ ∃ a ∈ live, a.handle = handle
  ids : ∀ a ∈ live, ∀ b ∈ live, a.handle.instanceId = b.handle.instanceId → a = b
  alone : ∀ a ∈ live, a.singleton = true →
    ∀ b ∈ live, b.handle.pluginId = a.handle.pluginId → b = a
  slots : ∀ pluginId id, inner.singletons[pluginId]? = some id ↔
    ∃ a ∈ live, a.singleton = true ∧ a.handle.pluginId = pluginId ∧ a.handle.instanceId = id

namespace Holds
variable {inner : RegistryInner} {live : Set Registration}

theorem new : Holds RegistryInner.new ∅ where
  listed := by simp [RegistryInner.new]
  ids := by simp
  alone := by simp
  slots := by simp [RegistryInner.new]

theorem get_self (holds : Holds inner live) {a : Registration} (mem : a ∈ live) :
    inner.instances[a.handle.instanceId]? = some a.handle :=
  (holds.listed _ _).mpr ⟨rfl, a, mem, rfl⟩

theorem mem_list_iff (holds : Holds inner live) {handle : InstanceHandle} :
    handle ∈ inner.list ↔ ∃ a ∈ live, a.handle = handle := by
  rw [RegistryInner.mem_list]
  constructor
  · intro ⟨id, found⟩
    exact ((holds.listed id handle).mp found).2
  · intro mem
    exact ⟨handle.instanceId, (holds.listed _ _).mpr ⟨rfl, mem⟩⟩

theorem insert (holds : Holds inner live) (handle : InstanceHandle) {singleton : Bool}
    (clear : inner.refusal handle.instanceId handle.pluginId singleton = none) :
    Holds (inner.insert handle.instanceId handle.pluginId singleton handle)
      (Insert.insert ⟨handle, singleton⟩ live) := by
  obtain ⟨-, free, exclusive, unslotted⟩ := RegistryInner.refusal_eq_none.mp clear
  have fresh : ∀ a ∈ live, a.handle.instanceId ≠ handle.instanceId := by
    intro a mem same
    have found := holds.get_self mem
    rw [same, free] at found
    cases found
  have apart : ∀ a ∈ live, a.singleton = true ∨ singleton = true →
      a.handle.pluginId ≠ handle.pluginId := by
    intro a mem either same
    cases flag : singleton with
    | true => exact exclusive flag a.handle (holds.mem_list_iff.mpr ⟨a, mem, rfl⟩) same
    | false =>
        have owned : a.singleton = true := by simpa [flag] using either
        have slot := (holds.slots _ _).mpr ⟨a, mem, owned, same, rfl⟩
        rw [unslotted flag] at slot
        cases slot
  constructor
  case listed =>
    intro id h
    simp only [RegistryInner.insert, getElem?_insert_eq, Set.mem_insert_iff]
    by_cases same : handle.instanceId = id
    · rw [if_pos same]
      constructor
      · intro found
        cases found
        exact ⟨same, _, .inl rfl, rfl⟩
      · rintro ⟨named, a, rfl | mem, rfl⟩
        · rfl
        · exact absurd (named.trans same.symm) (fresh a mem)
    · rw [if_neg same, holds.listed]
      constructor
      · rintro ⟨named, a, mem, eq⟩
        exact ⟨named, a, .inr mem, eq⟩
      · rintro ⟨named, a, rfl | mem, rfl⟩
        · exact absurd named same
        · exact ⟨named, a, mem, rfl⟩
  case ids =>
    rintro a (rfl | memA) b (rfl | memB) same
    · rfl
    · exact absurd same.symm (fresh b memB)
    · exact absurd same (fresh a memA)
    · exact holds.ids a memA b memB same
  case alone =>
    rintro a (rfl | memA) flag b (rfl | memB) same
    · rfl
    · exact absurd same (apart b memB (.inr flag))
    · exact absurd same.symm (apart a memA (.inl flag))
    · exact holds.alone a memA flag b memB same
  case slots =>
    intro pluginId id
    cases flag : singleton with
    | false =>
        simp only [RegistryInner.insert, Bool.false_eq_true, if_false, holds.slots]
        simp
    | true =>
        simp only [RegistryInner.insert, if_true, getElem?_insert_eq]
        by_cases same : handle.pluginId = pluginId
        · rw [if_pos same]
          constructor
          · intro found
            cases found
            exact ⟨_, .inl rfl, rfl, same, rfl⟩
          · rintro ⟨a, rfl | mem, owned, plugin, rfl⟩
            · rfl
            · exact absurd (plugin.trans same.symm) (apart a mem (.inl owned))
        · rw [if_neg same, holds.slots]
          constructor
          · rintro ⟨a, mem, rest⟩
            exact ⟨a, .inr mem, rest⟩
          · rintro ⟨a, rfl | mem, owned, plugin, rfl⟩
            · exact absurd plugin same
            · exact ⟨a, mem, owned, plugin, rfl⟩

theorem unregister (holds : Holds inner live) (a : Registration) (mem : a ∈ live) :
    Holds (inner.unregister a.handle.instanceId a.handle.pluginId) (live \ {a}) := by
  constructor
  case listed =>
    intro id h
    simp only [RegistryInner.unregister, getElem?_erase_eq, Set.mem_sdiff, Set.mem_singleton_iff]
    by_cases same : a.handle.instanceId = id
    · rw [if_pos same]
      constructor
      · intro found
        cases found
      · rintro ⟨named, b, ⟨memB, other⟩, rfl⟩
        exact absurd (holds.ids b memB a mem (named.trans same.symm)) other
    · rw [if_neg same, holds.listed]
      constructor
      · rintro ⟨named, b, memB, rfl⟩
        refine ⟨named, b, ⟨memB, ?_⟩, rfl⟩
        rintro rfl
        exact same named
      · rintro ⟨named, b, ⟨memB, -⟩, rfl⟩
        exact ⟨named, b, memB, rfl⟩
  case ids => exact fun b memB c memC => holds.ids b memB.1 c memC.1
  case alone => exact fun b memB flag c memC => holds.alone b memB.1 flag c memC.1
  case slots =>
    have kept : ∀ pluginId id, a.handle.instanceId ≠ id ∨ a.handle.pluginId ≠ pluginId →
        (inner.singletons[pluginId]? = some id ↔ ∃ b ∈ live \ {a}, b.singleton = true ∧
          b.handle.pluginId = pluginId ∧ b.handle.instanceId = id) := by
      intro pluginId id other
      rw [holds.slots]
      constructor
      · rintro ⟨b, memB, flag, plugin, named⟩
        refine ⟨b, ⟨memB, ?_⟩, flag, plugin, named⟩
        rintro rfl
        exact other.elim (fun e => e named) fun e => e plugin
      · rintro ⟨b, memB, rest⟩
        exact ⟨b, memB.1, rest⟩
    intro pluginId id
    by_cases same : a.handle.pluginId = pluginId
    · by_cases slotted : inner.singletons[a.handle.pluginId]? = some a.handle.instanceId
      · obtain ⟨c, memC, flag, plugin, named⟩ := (holds.slots _ _).mp slotted
        obtain rfl : c = a := holds.ids c memC a mem named
        simp only [RegistryInner.unregister, if_pos slotted, getElem?_erase_eq, if_pos same]
        constructor
        · intro found
          cases found
        · rintro ⟨b, ⟨memB, other⟩, -, pluginB, -⟩
          exact absurd (holds.alone c memC flag b memB (pluginB.trans same.symm)) other
      · simp only [RegistryInner.unregister, if_neg slotted]
        by_cases named : a.handle.instanceId = id
        · subst same named
          constructor
          · intro found
            exact absurd found slotted
          · rintro ⟨b, ⟨memB, other⟩, -, -, namedB⟩
            exact absurd (holds.ids b memB a mem namedB) other
        · exact kept pluginId id (.inl named)
    · have untouched : (inner.unregister a.handle.instanceId a.handle.pluginId).singletons[pluginId]? =
          inner.singletons[pluginId]? := by
        simp only [RegistryInner.unregister]
        split
        · rw [getElem?_erase_eq, if_neg same]
        · rfl
      rw [untouched]
      exact kept pluginId id (.inr same)

theorem beginShutdown (holds : Holds inner live) : Holds inner.beginShutdown live :=
  ⟨holds.listed, holds.ids, holds.alone, holds.slots⟩

theorem list_ids_nodup (holds : Holds inner live) :
    (inner.list.map InstanceHandle.instanceId).Nodup := by
  have keyed : inner.list.map InstanceHandle.instanceId = inner.instances.toList.map Prod.fst := by
    rw [RegistryInner.list, List.map_map]
    apply List.map_congr_left
    intro entry mem
    exact ((holds.listed entry.1 entry.2).mp (mem_toList.mp mem)).1
  rw [keyed, List.nodup_iff_pairwise_ne, List.pairwise_map]
  apply inner.instances.distinct_keys_toList.imp
  intro p q distinct same
  exact distinct (by rw [same]; exact Std.ReflCmp.compare_self)

end Holds

end OxidHome.Engine

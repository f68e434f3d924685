import OxidHome.Host.Calls
import OxidHome.Projection.FreshSlots
import OxidHome.Library.Machine

/-!
# Registry and projection agree

What is fresh belongs to a registered device of its owner that declares the capability, but for the
device on which the owner is between its two writes; and every quota holds. An id belongs to the
instance whose triple it comes from, so the calls of other instances leave what a check has seen.
-/

namespace OxidHome.Host
open Wit Library History Projection
open Std (TreeMap)

theorem firstDuplicate_eq_none {seen names : List String} :
    firstDuplicate seen names = none ↔ names.Nodup ∧ ∀ name ∈ names, name ∉ seen := by
  induction names generalizing seen with
  | nil => simp [firstDuplicate]
  | cons name rest ih =>
      rw [firstDuplicate]
      split_ifs with again
      · constructor
        · intro found
          cases found
        · intro fresh
          exact absurd again (fresh.2 name List.mem_cons_self)
      · rw [ih, List.nodup_cons]
        constructor
        · rintro ⟨nodup, fresh⟩
          refine ⟨⟨fun mem => fresh name mem List.mem_cons_self, nodup⟩, ?_⟩
          intro other mem
          rcases List.mem_cons.mp mem with rfl | tail
          · exact again
          · exact fun old => fresh other tail (List.mem_cons_of_mem _ old)
        · rintro ⟨⟨absent, nodup⟩, fresh⟩
          refine ⟨nodup, ?_⟩
          intro other mem old
          rcases List.mem_cons.mp old with rfl | seen
          · exact absent mem
          · exact fresh other (List.mem_cons_of_mem _ mem) seen

theorem firstOverflow_eq_none {seedState : List (String × List KeyValue)} :
    firstOverflow seedState = none ↔
      ∀ seed ∈ seedState, checkSnapshotAdmission seed.2 = .ok () := by
  unfold firstOverflow
  rw [List.findSome?_eq_none_iff]
  constructor
  · intro all seed mem
    have here := all seed mem
    dsimp only at here
    split at here
    · next ok => exact ok
    · cases here
  · intro all seed mem
    dsimp only
    rw [all seed mem]

structure AuthorizedInfo (declared : List String) (info : DeviceInfo) : Prop where
  count : info.capabilities.length ≤ MAX_CAPABILITIES_PER_DEVICE
  seeds : ∀ seed ∈ seedStateFromInitial info, checkSnapshotAdmission seed.2 = .ok ()
  capabilities : (info.capabilities.map capabilityName).Nodup
  states : (info.initialState.map capabilityStateName).Nodup
  matched : ∀ state ∈ info.initialState, declares info (capabilityStateName state) = true
  manifest : ∀ spec ∈ info.capabilities, capabilityName spec ∈ declared

theorem authorizeDeviceInfo_eq_ok {declared : List String} {info : DeviceInfo} :
    authorizeDeviceInfo declared info = .ok () ↔ AuthorizedInfo declared info := by
  unfold authorizeDeviceInfo
  constructor
  · intro ok
    split_ifs at ok with many
    split at ok
    · cases ok
    next seeds =>
    split at ok
    · cases ok
    next capabilities =>
    split at ok
    · cases ok
    next states =>
    split at ok
    · cases ok
    next matched =>
    split at ok
    · cases ok
    next manifest =>
    refine ⟨Nat.not_lt.mp many, firstOverflow_eq_none.mp seeds,
      (firstDuplicate_eq_none.mp capabilities).1, (firstDuplicate_eq_none.mp states).1, ?_, ?_⟩
    · intro state mem
      simpa using List.find?_eq_none.mp matched state mem
    · intro spec mem
      simpa using List.find?_eq_none.mp manifest spec mem
  · intro ok
    have seeds := firstOverflow_eq_none.mpr ok.seeds
    have capabilities : firstDuplicate [] (info.capabilities.map capabilityName) = none :=
      firstDuplicate_eq_none.mpr ⟨ok.capabilities, fun _ _ => List.not_mem_nil⟩
    have states : firstDuplicate [] (info.initialState.map capabilityStateName) = none :=
      firstDuplicate_eq_none.mpr ⟨ok.states, fun _ _ => List.not_mem_nil⟩
    have matched : info.initialState.find?
        (fun state => !declares info (capabilityStateName state)) = none := by
      apply List.find?_eq_none.mpr
      intro state mem
      rw [ok.matched state mem]
      exact Bool.false_ne_true
    have manifest : info.capabilities.find?
        (fun spec => decide (capabilityName spec ∉ declared)) = none := by
      apply List.find?_eq_none.mpr
      intro spec mem
      simpa using ok.manifest spec mem
    rw [if_neg (Nat.not_lt.mpr ok.count)]
    simp only [seeds, capabilities, states, matched, manifest]

theorem AuthorizedInfo.seed {declared : List String} {info : DeviceInfo}
    (ok : AuthorizedInfo declared info) {seed : String × List KeyValue}
    (mem : seed ∈ seedStateFromInitial info) : declares info seed.1 = true := by
  obtain ⟨state, here, rfl⟩ := List.mem_map.mp mem
  exact ok.matched state here

theorem declares_iff {info : DeviceInfo} {capability : String} :
    declares info capability = true ↔ capability ∈ info.capabilities.map capabilityName := by
  unfold declares
  rw [List.any_eq_true, List.mem_map]
  simp only [decide_eq_true_eq]

variable (sha256 : Sha256) (used : DeviceTriple → Prop)

/-- The id comes from a triple of the instance. -/
def IdOf (id : DeviceId) (o : String) : Prop :=
  ∃ uuid localId, used ⟨uuid, o, localId⟩ ∧ id = stableDeviceId sha256 uuid o localId

variable {sha256 used}

theorem IdOf.owner (free : CollisionFree sha256 used) {id : DeviceId} {o o' : String}
    (here : IdOf sha256 used id o) (there : IdOf sha256 used id o') : o = o' := by
  obtain ⟨uuid, localId, uses, rfl⟩ := here
  obtain ⟨uuid', localId', uses', same⟩ := there
  have triples := free ⟨uuid, o, localId⟩ ⟨uuid', o', localId'⟩ uses uses' (truncatedDigest_of_id same)
  exact congrArg DeviceTriple.instanceId triples

theorem Derived.idOf {reg : DeviceRegistry} (derived : Derived sha256 used reg) {id : DeviceId}
    {m : DeviceMeta} (found : reg.inner[id]? = some m) : IdOf sha256 used id m.ownerInstance := by
  obtain ⟨_, uuid, uses, same⟩ := derived id m found
  exact ⟨uuid, m.info.localId, uses, same⟩

namespace HostStores

def Owns (s : HostStores) (o : String) (id : DeviceId) (capability : String) : Prop :=
  ∃ m, s.devices.inner[id]? = some m ∧ m.ownerInstance = o ∧ declares m.info capability = true

/-- The instance has changed the device in the registry and not in the projection. -/
def Between (s : HostStores) (o : String) (id : DeviceId) : Prop :=
  ∃ stage, s.calls[o]? = some stage ∧ stage.between = some id

variable (sha256 used)

def Pending (s : HostStores) (o : String) : CallStage → Prop
  | .registering uuid info =>
      used ⟨uuid, o, info.localId⟩ ∧
        (∀ seed ∈ seedStateFromInitial info, declares info seed.1 = true) ∧
        s.inner.checkInstanceRegisterAdmission (stableDeviceId sha256 uuid o info.localId) o
          (seedStateFromInitial info) = .ok ()
  | .seeding id seedState =>
      IdOf sha256 used id o ∧ (∀ seed ∈ seedState, s.Owns o id seed.1) ∧
        s.inner.checkInstanceRegisterAdmission id o seedState = .ok ()
  | .reconciling id live => IdOf sha256 used id o ∧ ∀ c ∈ live, s.Owns o id c
  | .removing id => IdOf sha256 used id o
  | .authorized ev => ∀ d sc, deltaOf ev = some (d, sc) → s.Owns o d sc.capability
  | .recording ev => ∀ d sc, deltaOf ev = some (d, sc) → s.Owns o d sc.capability ∧
      s.inner.checkDeltaAdmission d o sc.capability sc.fields = .ok ()
  | .answering d c _ => s.Owns o d c
  | .projecting d c fields =>
      s.Owns o d c ∧ s.inner.checkInstanceSnapshotAdmission d o c fields = .ok ()

def Origin (s : HostStores) : Prop :=
  ∀ (slot : SlotKey) (e : DeviceState), s.inner.entries[slot]? = some e → e.quality = .fresh →
    IdOf sha256 used slot.1 e.ownerInstance

structure Sound (s : HostStores) : Prop where
  valid : s.inner.Valid
  derived : Derived sha256 used s.devices
  origin : s.Origin sha256 used
  declared : ∀ (slot : SlotKey) (e : DeviceState), s.inner.entries[slot]? = some e →
    e.quality = .fresh → s.Between e.ownerInstance slot.1 ∨ s.Owns e.ownerInstance slot.1 slot.2
  within : s.inner.SlotsWithinCaps
  total : ∀ o, s.inner.ownerTotal o ≤ MAX_PROJECTED_BYTES_PER_INSTANCE
  owned : ∀ o, s.devices.owned o ≤ MAX_DEVICES_PER_INSTANCE
  pending : ∀ (o : String) (stage : CallStage), s.calls[o]? = some stage →
    s.Pending sha256 used o stage

variable {sha256 used} {s t : HostStores} {a o : String}

structure Spares (s t : HostStores) (o : String) : Prop where
  devices : ∀ (id : DeviceId) (m : DeviceMeta), s.devices.inner[id]? = some m →
    m.ownerInstance = o → t.devices.inner[id]? = some m
  fresh : ∀ (slot : SlotKey) (e : DeviceState), e.quality = .fresh → e.ownerInstance = o →
    (t.inner.entries[slot]? = some e ↔ s.inner.entries[slot]? = some e)
  generation : t.inner.generation o = s.inner.generation o
  calls : t.calls[o]? = s.calls[o]?

theorem Owns.spared {id : DeviceId} {capability : String} (owns : s.Owns o id capability)
    (spares : s.Spares t o) : t.Owns o id capability := by
  obtain ⟨m, found, own, declared⟩ := owns
  exact ⟨m, spares.devices id m found own, own, declared⟩

theorem Spares.freshAt (spares : s.Spares t o) (free : CollisionFree sha256 used)
    (before : s.Origin sha256 used) (after : t.Origin sha256 used) {slot : SlotKey}
    (id : IdOf sha256 used slot.1 o) : t.inner.freshAt slot = s.inner.freshAt slot := by
  apply Option.ext
  intro e
  rw [StoreInner.freshAt_eq_some, StoreInner.freshAt_eq_some]
  constructor
  · rintro ⟨found, fresh⟩
    have own := (after slot e found fresh).owner free id
    exact ⟨(spares.fresh slot e fresh own).mp found, fresh⟩
  · rintro ⟨found, fresh⟩
    have own := (before slot e found fresh).owner free id
    exact ⟨(spares.fresh slot e fresh own).mpr found, fresh⟩

theorem Pending.spared {stage : CallStage} (pending : s.Pending sha256 used o stage)
    (spares : s.Spares t o) (free : CollisionFree sha256 used)
    (derived : Derived sha256 used s.devices) (before : s.Origin sha256 used)
    (after : t.Origin sha256 used) : t.Pending sha256 used o stage := by
  have total := StoreInner.ownerTotal_congr spares.fresh
  have register : ∀ {id : DeviceId}, IdOf sha256 used id o → ∀ seedState,
      t.inner.checkInstanceRegisterAdmission id o seedState =
        s.inner.checkInstanceRegisterAdmission id o seedState := by
    intro id mine seedState
    apply StoreInner.checkInstanceRegisterAdmission_congr seedState _ total
    rintro slot rfl
    exact spares.freshAt free before after mine
  have slot : ∀ {id : DeviceId} {c : String}, s.Owns o id c →
      t.inner.freshAt (id, c) = s.inner.freshAt (id, c) := by
    rintro id c ⟨m, found, rfl, _⟩
    have mine : IdOf sha256 used id m.ownerInstance := derived.idOf found
    exact spares.freshAt free before after mine
  cases stage with
  | registering uuid info =>
      obtain ⟨uses, declared, admitted⟩ := pending
      refine ⟨uses, declared, ?_⟩
      rw [register ⟨uuid, info.localId, uses, rfl⟩]
      exact admitted
  | seeding id seedState =>
      obtain ⟨mine, owns, admitted⟩ := pending
      refine ⟨mine, fun seed mem => (owns seed mem).spared spares, ?_⟩
      rw [register mine]
      exact admitted
  | reconciling id live => exact ⟨pending.1, fun c mem => (pending.2 c mem).spared spares⟩
  | removing id => exact pending
  | authorized ev => exact fun d sc delta => Owns.spared (pending d sc delta) spares
  | recording ev =>
      intro d sc delta
      obtain ⟨owns, admitted⟩ := pending d sc delta
      refine ⟨owns.spared spares, ?_⟩
      rw [StoreInner.checkDeltaAdmission_congr sc.fields (slot owns) total spares.generation]
      exact admitted
  | answering d c fields => exact Owns.spared pending spares
  | projecting d c fields =>
      obtain ⟨owns, admitted⟩ := pending
      refine ⟨owns.spared spares, ?_⟩
      rw [StoreInner.checkInstanceSnapshotAdmission_congr fields (slot owns) total]
      exact admitted

theorem Sound.moved (sound : s.Sound sha256 used) (free : CollisionFree sha256 used)
    (spares : ∀ o, o ≠ a → s.Spares t o) (valid : t.inner.Valid)
    (derived : Derived sha256 used t.devices) (origin : t.Origin sha256 used)
    (within : t.inner.SlotsWithinCaps) (owned : ∀ o, t.devices.owned o ≤ MAX_DEVICES_PER_INSTANCE)
    (declared : ∀ (slot : SlotKey) (e : DeviceState), t.inner.entries[slot]? = some e →
      e.quality = .fresh → e.ownerInstance = a → t.Between a slot.1 ∨ t.Owns a slot.1 slot.2)
    (total : t.inner.ownerTotal a ≤ MAX_PROJECTED_BYTES_PER_INSTANCE)
    (pending : ∀ stage, t.calls[a]? = some stage → t.Pending sha256 used a stage) :
    t.Sound sha256 used := by
  refine ⟨valid, derived, origin, ?_, within, ?_, owned, ?_⟩
  · intro slot e found fresh
    by_cases mine : e.ownerInstance = a
    · rw [mine]
      exact declared slot e found fresh mine
    · have other := spares e.ownerInstance mine
      have old := (other.fresh slot e fresh rfl).mp found
      rcases sound.declared slot e old fresh with ⟨stage, calling, here⟩ | owns
      · exact Or.inl ⟨stage, other.calls.trans calling, here⟩
      · exact Or.inr (owns.spared other)
  · intro o
    by_cases mine : o = a
    · rw [mine]
      exact total
    · rw [StoreInner.ownerTotal_congr (spares o mine).fresh]
      exact sound.total o
  · intro o stage calling
    by_cases mine : o = a
    · subst mine
      exact pending stage calling
    · have other := spares o mine
      rw [other.calls] at calling
      exact (sound.pending o stage calling).spared other free sound.derived sound.origin origin

end HostStores

end OxidHome.Host

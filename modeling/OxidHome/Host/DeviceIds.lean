import OxidHome.Library.Fallible
import OxidHome.Library.Framing
import OxidHome.Library.Text
import OxidHome.Host.Devices
import OxidHome.Projection.Cursor

/-!
# Device ids

`stable_device_id` of `state/devices.rs` and the registry under any sequence of its operations. The
digest is a parameter.
-/

namespace OxidHome.Host
open Wit Library
open Projection (Sha256)
open Std (TreeMap)

structure DeviceTriple where
  installationUuid : String
  instanceId : String
  localId : String
deriving DecidableEq

def deviceIdInput (triple : DeviceTriple) : List UInt8 :=
  frame (utf8 "oxidhome:device-id:v2") ++
    [triple.installationUuid, triple.instanceId, triple.localId].flatMap fun field =>
      frame (utf8 field)

def truncatedDigest (sha256 : Sha256) (triple : DeviceTriple) : List UInt8 :=
  (sha256 (deviceIdInput triple)).toList.take 8

def stableDeviceId (sha256 : Sha256) (installationUuid instanceId localId : String) : DeviceId :=
  "dev-" ++ String.ofList (hexEncode (truncatedDigest sha256 ⟨installationUuid, instanceId, localId⟩))

namespace DeviceRegistry

def register (reg : DeviceRegistry) (sha256 : Sha256) (installationUuid ownerInstance : String)
    (info : DeviceInfo) : DeviceId × DeviceRegistry :=
  let id := stableDeviceId sha256 installationUuid ownerInstance info.localId
  (id, ⟨reg.inner.insert id ⟨id, ownerInstance, info⟩⟩)

/-- `try_register` with the id it derives. -/
def tryRegisterDerived (reg : DeviceRegistry) (sha256 : Sha256)
    (installationUuid ownerInstance : String) (info : DeviceInfo) :
    Except Error (DeviceId × DeviceRegistry) :=
  let id := stableDeviceId sha256 installationUuid ownerInstance info.localId
  (reg.tryRegister id ownerInstance info).map fun next => (id, next)

end DeviceRegistry

inductive DeviceAction where
  | register (installationUuid ownerInstance : String) (info : DeviceInfo)
  | tryRegister (installationUuid ownerInstance : String) (info : DeviceInfo)
  | update (ownerInstance : String) (id : DeviceId) (info : DeviceInfo)
  | remove (ownerInstance : String) (id : DeviceId)
  | removeByOwner (instanceId : String)

namespace DeviceAction

def actor : DeviceAction → String
  | .register _ o _ | .tryRegister _ o _ | .update o _ _ | .remove o _ | .removeByOwner o => o

def triple : DeviceAction → Option DeviceTriple
  | .register uuid o info | .tryRegister uuid o info => some ⟨uuid, o, info.localId⟩
  | _ => none

end DeviceAction

/-- A refused operation changes nothing. -/
def deviceStep (sha256 : Sha256) (reg : DeviceRegistry) : DeviceAction → DeviceRegistry
  | .register uuid o info => (reg.register sha256 uuid o info).2
  | .tryRegister uuid o info =>
      match reg.tryRegisterDerived sha256 uuid o info with
      | .ok result => result.2
      | .error _ => reg
  | .update o id info =>
      match reg.update o id info with
      | .ok next => next
      | .error _ => reg
  | .remove o id =>
      match reg.remove o id with
      | .ok next => next
      | .error _ => reg
  | .removeByOwner o => reg.removeByOwner o

def runDevices (sha256 : Sha256) (actions : List DeviceAction) : DeviceRegistry :=
  actions.foldl (deviceStep sha256) .new

/-! ## The id -/

def DeviceTriple.Short (triple : DeviceTriple) : Prop :=
  triple.installationUuid.utf8ByteSize < 2 ^ 32 ∧ triple.instanceId.utf8ByteSize < 2 ^ 32 ∧
    triple.localId.utf8ByteSize < 2 ^ 32

theorem deviceIdInput_inj {x y : DeviceTriple} (hx : x.Short) (hy : y.Short) :
    deviceIdInput x = deviceIdInput y ↔ x = y := by
  obtain ⟨uuid, instanceId, localId⟩ := x
  obtain ⟨uuid', instanceId', localId'⟩ := y
  obtain ⟨h₁, h₂, h₃⟩ := hx
  obtain ⟨h₁', h₂', h₃'⟩ := hy
  have unfolded (a b c : String) : deviceIdInput ⟨a, b, c⟩ =
      frame (utf8 "oxidhome:device-id:v2") ++
        (frame (utf8 a) ++ (frame (utf8 b) ++ (frame (utf8 c) ++ []))) := by
    simp [deviceIdInput]
  have short {s : String} (h : s.utf8ByteSize < 2 ^ 32) : Short (utf8 s) := h
  rw [unfolded, unfolded, List.append_cancel_left_eq, frame_append_inj (short h₁) (short h₁'),
    frame_append_inj (short h₂) (short h₂'), frame_append_inj (short h₃) (short h₃'),
    utf8_injective.eq_iff, utf8_injective.eq_iff, utf8_injective.eq_iff, DeviceTriple.mk.injEq]
  simp

theorem truncatedDigest_of_id {sha256 : Sha256} {x y : DeviceTriple}
    (same : stableDeviceId sha256 x.installationUuid x.instanceId x.localId =
      stableDeviceId sha256 y.installationUuid y.instanceId y.localId) :
    truncatedDigest sha256 x = truncatedDigest sha256 y := by
  have hex := congrArg String.toList same
  simp only [stableDeviceId, String.toList_append, String.toList_ofList, List.append_cancel_left_eq]
    at hex
  have decoded := congrArg hexDecode hex
  rwa [hexDecode_hexEncode, hexDecode_hexEncode, Option.some.injEq] at decoded

/-- The truncated digest tells the triples of `used` apart. -/
def CollisionFree (sha256 : Sha256) (used : DeviceTriple → Prop) : Prop :=
  ∀ x y, used x → used y → truncatedDigest sha256 x = truncatedDigest sha256 y → x = y

/-! ## Every entry under its own id -/

def Uses (actions : List DeviceAction) (triple : DeviceTriple) : Prop :=
  ∃ a ∈ actions, a.triple = some triple

def Derived (sha256 : Sha256) (used : DeviceTriple → Prop) (reg : DeviceRegistry) : Prop :=
  ∀ (id : DeviceId) m, reg.inner[id]? = some m → m.id = id ∧
    ∃ uuid, used ⟨uuid, m.ownerInstance, m.info.localId⟩ ∧
      id = stableDeviceId sha256 uuid m.ownerInstance m.info.localId

namespace DeviceRegistry
variable {reg next : DeviceRegistry} {o : String} {id : DeviceId} {info : DeviceInfo}

theorem tryRegister_eq_ok : reg.tryRegister id o info = .ok next ↔
    (reg.inner.contains id = true ∨ reg.owned o < MAX_DEVICES_PER_INSTANCE) ∧
      next = ⟨reg.inner.insert id ⟨id, o, info⟩⟩ := by
  unfold tryRegister
  split
  · next full =>
      simp only [Bool.and_eq_true, Bool.not_eq_true', decide_eq_true_eq] at full
      simp only [reduceCtorEq, full.1, Bool.false_eq_true, false_or, false_iff, not_and]
      intro room
      omega
  · next room =>
      simp only [Bool.and_eq_true, Bool.not_eq_true', decide_eq_true_eq, not_and, not_le] at room
      rw [Except.ok.injEq, eq_comm, iff_and_self]
      rintro -
      cases present : reg.inner.contains id with
      | true => exact .inl rfl
      | false => exact .inr (room present)

theorem tryRegisterDerived_eq_ok {sha256 : Sha256} {uuid : String}
    {result : DeviceId × DeviceRegistry} :
    reg.tryRegisterDerived sha256 uuid o info = .ok result ↔
      (reg.inner.contains (stableDeviceId sha256 uuid o info.localId) = true ∨
        reg.owned o < MAX_DEVICES_PER_INSTANCE) ∧ result = reg.register sha256 uuid o info := by
  unfold tryRegisterDerived
  rw [map_eq_ok]
  constructor
  · rintro ⟨next, added, rfl⟩
    obtain ⟨room, rfl⟩ := tryRegister_eq_ok.mp added
    exact ⟨room, rfl⟩
  · rintro ⟨room, rfl⟩
    exact ⟨_, tryRegister_eq_ok.mpr ⟨room, rfl⟩, rfl⟩

theorem update_eq_ok : reg.update o id info = .ok next ↔
    ∃ m, reg.inner[id]? = some m ∧ m.ownerInstance = o ∧ m.info.localId = info.localId ∧
      next = ⟨reg.inner.insert id { m with info := info }⟩ := by
  unfold update
  cases found : reg.inner[id]? with
  | none => simp
  | some m =>
      by_cases own : m.ownerInstance = o
      · by_cases kept : m.info.localId = info.localId
        · simp [own, kept, eq_comm]
        · simp [own, kept]
      · simp [own]

theorem remove_eq_ok : reg.remove o id = .ok next ↔
    ∃ m, reg.inner[id]? = some m ∧ m.ownerInstance = o ∧ next = ⟨reg.inner.erase id⟩ := by
  unfold remove
  cases found : reg.inner[id]? with
  | none => simp
  | some m =>
      by_cases own : m.ownerInstance = o
      · simp [own, eq_comm]
      · simp [own]

theorem removeByOwner_getElem? : (reg.removeByOwner o).inner[id]? =
    reg.inner[id]?.filter (·.ownerInstance ≠ o) := by
  simp [removeByOwner]

end DeviceRegistry

open DeviceRegistry

theorem Derived.insert {sha256 : Sha256} {used : DeviceTriple → Prop} {reg : DeviceRegistry}
    (derived : Derived sha256 used reg) {id : DeviceId} {m : DeviceMeta} (named : m.id = id)
    (own : ∃ uuid, used ⟨uuid, m.ownerInstance, m.info.localId⟩ ∧
      id = stableDeviceId sha256 uuid m.ownerInstance m.info.localId) :
    Derived sha256 used ⟨reg.inner.insert id m⟩ := by
  intro at_id m' found
  simp only [getElem?_insert_eq] at found
  split at found
  · next same =>
      cases found
      subst same
      exact ⟨named, own⟩
  · exact derived at_id m' found

theorem Derived.step {sha256 : Sha256} {used : DeviceTriple → Prop} {reg : DeviceRegistry}
    (derived : Derived sha256 used reg) {a : DeviceAction}
    (uses : ∀ triple, a.triple = some triple → used triple) :
    Derived sha256 used (deviceStep sha256 reg a) := by
  cases a with
  | register uuid o info => exact derived.insert rfl ⟨uuid, uses _ rfl, rfl⟩
  | tryRegister uuid o info =>
      simp only [deviceStep]
      split
      · next result ok =>
          obtain ⟨-, rfl⟩ := tryRegisterDerived_eq_ok.mp ok
          exact derived.insert rfl ⟨uuid, uses _ rfl, rfl⟩
      · exact derived
  | update o id info =>
      simp only [deviceStep]
      split
      · next next ok =>
          obtain ⟨m, found, -, kept, rfl⟩ := update_eq_ok.mp ok
          obtain ⟨named, own⟩ := derived id m found
          refine derived.insert named ?_
          rw [← kept]
          exact own
      · exact derived
  | remove o id =>
      simp only [deviceStep]
      split
      · next next ok =>
          obtain ⟨m, -, -, rfl⟩ := remove_eq_ok.mp ok
          intro at_id m' found
          simp only [getElem?_erase_eq] at found
          split at found
          · cases found
          · exact derived at_id m' found
      · exact derived
  | removeByOwner o =>
      intro at_id m found
      simp only [deviceStep, removeByOwner_getElem?] at found
      exact derived at_id m (Option.filter_eq_some_iff.mp found).1

theorem Derived.mono {sha256 : Sha256} {used used' : DeviceTriple → Prop} {reg : DeviceRegistry}
    (derived : Derived sha256 used reg) (wider : ∀ triple, used triple → used' triple) :
    Derived sha256 used' reg := by
  intro id m found
  obtain ⟨named, uuid, uses, same⟩ := derived id m found
  exact ⟨named, uuid, wider _ uses, same⟩

theorem uses_append {actions : List DeviceAction} {a : DeviceAction} (triple : DeviceTriple)
    (uses : Uses actions triple) : Uses (actions ++ [a]) triple := by
  obtain ⟨b, mem, made⟩ := uses
  exact ⟨b, List.mem_append_left _ mem, made⟩

theorem runDevices_append (sha256 : Sha256) (actions : List DeviceAction) (a : DeviceAction) :
    runDevices sha256 (actions ++ [a]) = deviceStep sha256 (runDevices sha256 actions) a := by
  rw [runDevices, List.foldl_append]
  rfl

theorem runDevices_derived (sha256 : Sha256) (actions : List DeviceAction) :
    Derived sha256 (Uses actions) (runDevices sha256 actions) := by
  induction actions using List.reverseRecOn with
  | nil =>
      intro id m found
      simp [runDevices, DeviceRegistry.new] at found
  | append_singleton before a ih =>
      rw [runDevices_append]
      exact (ih.mono uses_append).step fun triple made => ⟨a, by simp, made⟩

/-! ## What other instances keep -/

theorem deviceStep_spares {sha256 : Sha256} {used : DeviceTriple → Prop} {reg : DeviceRegistry}
    (derived : Derived sha256 used reg) (free : CollisionFree sha256 used) {a : DeviceAction}
    (uses : ∀ triple, a.triple = some triple → used triple) {id : DeviceId} {m : DeviceMeta}
    (found : reg.inner[id]? = some m) (foreign : m.ownerInstance ≠ a.actor) :
    (deviceStep sha256 reg a).inner[id]? = some m := by
  -- another instance's id is not derived from a triple of the actor
  have apart : ∀ uuid o info, a.triple = some ⟨uuid, o, info⟩ → o = a.actor →
      stableDeviceId sha256 uuid o info ≠ id := by
    intro uuid o localId made own same
    obtain ⟨-, uuid', theirs, derived_id⟩ := derived id m found
    have triples := free ⟨uuid, o, localId⟩ ⟨uuid', m.ownerInstance, m.info.localId⟩
      (uses _ made) theirs (truncatedDigest_of_id (same.trans derived_id))
    exact foreign ((congrArg DeviceTriple.instanceId triples).symm.trans own)
  cases a with
  | register uuid o info =>
      simp only [deviceStep, register, getElem?_insert_eq, if_neg (apart uuid o info.localId rfl rfl)]
      exact found
  | tryRegister uuid o info =>
      simp only [deviceStep]
      split
      · next result ok =>
          obtain ⟨-, rfl⟩ := tryRegisterDerived_eq_ok.mp ok
          simp only [register, getElem?_insert_eq, if_neg (apart uuid o info.localId rfl rfl)]
          exact found
      · exact found
  | update o id' info =>
      simp only [deviceStep]
      split
      · next next ok =>
          obtain ⟨m', found', own, -, rfl⟩ := update_eq_ok.mp ok
          have other : id' ≠ id := by
            rintro rfl
            rw [found] at found'
            cases found'
            exact foreign own
          simp only [getElem?_insert_eq, if_neg other]
          exact found
      · exact found
  | remove o id' =>
      simp only [deviceStep]
      split
      · next next ok =>
          obtain ⟨m', found', own, rfl⟩ := remove_eq_ok.mp ok
          have other : id' ≠ id := by
            rintro rfl
            rw [found] at found'
            cases found'
            exact foreign own
          simp only [getElem?_erase_eq, if_neg other]
          exact found
      · exact found
  | removeByOwner o =>
      simp only [deviceStep, removeByOwner_getElem?, found]
      exact Option.filter_eq_some_iff.mpr ⟨rfl, decide_eq_true foreign⟩

/-! ## The quota -/

theorem owned_eq_weight (reg : DeviceRegistry) (o : String) :
    reg.owned o = weight (fun _ m => if m.ownerInstance = o then 1 else 0) reg.inner := by
  unfold owned weight
  induction reg.inner.toList with
  | nil => rfl
  | cons p rest ih =>
      by_cases own : p.2.ownerInstance = o
      · simp [own, ih, Nat.add_comm]
      · simp [own, ih]

theorem owned_insert (reg : DeviceRegistry) (id : DeviceId) (m : DeviceMeta) (o : String) :
    owned ⟨reg.inner.insert id m⟩ o + (reg.inner[id]?.elim 0 fun m => if m.ownerInstance = o then 1 else 0) =
      reg.owned o + if m.ownerInstance = o then 1 else 0 := by
  rw [owned_eq_weight, owned_eq_weight]
  exact weight_insert _ _ _ _

theorem deviceStep_quota {sha256 : Sha256} {used : DeviceTriple → Prop} {reg : DeviceRegistry}
    (derived : Derived sha256 used reg) (free : CollisionFree sha256 used) {a : DeviceAction}
    (uses : ∀ triple, a.triple = some triple → used triple) {o : String}
    (checked : ∀ uuid info, a ≠ .register uuid o info)
    (within : reg.owned o ≤ MAX_DEVICES_PER_INSTANCE) :
    (deviceStep sha256 reg a).owned o ≤ MAX_DEVICES_PER_INSTANCE := by
  cases a with
  | register uuid o' info =>
      have other : o' ≠ o := by
        rintro rfl
        exact checked uuid info rfl
      have count := owned_insert reg (stableDeviceId sha256 uuid o' info.localId)
        ⟨stableDeviceId sha256 uuid o' info.localId, o', info⟩ o
      simp only [other, if_false] at count
      simp only [deviceStep, register]
      omega
  | tryRegister uuid o' info =>
      simp only [deviceStep]
      split
      · next result ok =>
          obtain ⟨room, rfl⟩ := tryRegisterDerived_eq_ok.mp ok
          have count := owned_insert reg (stableDeviceId sha256 uuid o' info.localId)
            ⟨stableDeviceId sha256 uuid o' info.localId, o', info⟩ o
          simp only [register]
          by_cases own : o' = o
          · subst own
            simp only [if_true] at count
            rcases room with present | room
            · obtain ⟨m, found⟩ := Option.isSome_iff_exists.mp
                (TreeMap.isSome_getElem?_eq_contains.trans present)
              obtain ⟨-, uuid', theirs, same⟩ := derived _ m found
              have triples := free ⟨uuid, o', info.localId⟩
                ⟨uuid', m.ownerInstance, m.info.localId⟩ (uses _ rfl) theirs
                (truncatedDigest_of_id same)
              have owner : m.ownerInstance = o' := (congrArg DeviceTriple.instanceId triples).symm
              rw [found, Option.elim_some, if_pos owner] at count
              omega
            · omega
          · simp only [own, if_false] at count
            omega
      · exact within
  | update o' id info =>
      simp only [deviceStep]
      split
      · next next ok =>
          obtain ⟨m, found, -, -, rfl⟩ := update_eq_ok.mp ok
          have count := owned_insert reg id { m with info := info } o
          simp only [found, Option.elim_some] at count
          omega
      · exact within
  | remove o' id =>
      simp only [deviceStep]
      split
      · next next ok =>
          obtain ⟨m, -, -, rfl⟩ := remove_eq_ok.mp ok
          rw [owned_eq_weight] at within ⊢
          refine le_trans ?_ within
          exact Nat.le_of_add_right_le (weight_erase _ reg.inner id).le
      · exact within
  | removeByOwner o' =>
      refine le_trans ?_ within
      unfold deviceStep removeByOwner owned
      rw [TreeMap.toList_filter]
      exact (List.filter_sublist.filter _).length_le

theorem runDevices_quota {sha256 : Sha256} {actions : List DeviceAction}
    (free : CollisionFree sha256 (Uses actions)) {o : String}
    (checked : ∀ uuid info, .register uuid o info ∉ actions) :
    (runDevices sha256 actions).owned o ≤ MAX_DEVICES_PER_INSTANCE := by
  induction actions using List.reverseRecOn with
  | nil => exact Nat.zero_le _
  | append_singleton before a ih =>
      have freeBefore : CollisionFree sha256 (Uses before) :=
        fun x y hx hy => free x y (uses_append x hx) (uses_append y hy)
      have within := ih freeBefore fun uuid info mem => checked uuid info (List.mem_append_left _ mem)
      rw [runDevices_append]
      refine deviceStep_quota ((runDevices_derived sha256 before).mono uses_append) free
        (fun triple made => ⟨a, by simp, made⟩) ?_ within
      rintro uuid info rfl
      exact checked uuid info (by simp)

theorem device_ids_name_one_triple (sha256 : Sha256) :
    (∀ x y : DeviceTriple, x.Short → y.Short → (deviceIdInput x = deviceIdInput y ↔ x = y)) ∧
    (∀ (actions : List DeviceAction) (id : DeviceId) m,
      (runDevices sha256 actions).inner[id]? = some m → m.id = id ∧
        ∃ uuid, Uses actions ⟨uuid, m.ownerInstance, m.info.localId⟩ ∧
          id = stableDeviceId sha256 uuid m.ownerInstance m.info.localId) ∧
    (∀ (actions : List DeviceAction) (a : DeviceAction) (id : DeviceId) m,
      CollisionFree sha256 (Uses (actions ++ [a])) →
      (runDevices sha256 actions).get m.ownerInstance id = .ok m → m.ownerInstance ≠ a.actor →
      (runDevices sha256 (actions ++ [a])).get m.ownerInstance id = .ok m) ∧
    (∀ (actions actions' : List DeviceAction) (uuid o : String) (info info' : DeviceInfo),
      info.localId = info'.localId →
      ((runDevices sha256 actions).register sha256 uuid o info).1 =
        ((runDevices sha256 actions').register sha256 uuid o info').1 ∧
      ∀ result, (runDevices sha256 actions).tryRegisterDerived sha256 uuid o info = .ok result →
        result.1 = ((runDevices sha256 actions').register sha256 uuid o info').1) ∧
    ∀ (actions : List DeviceAction) (o : String), CollisionFree sha256 (Uses actions) →
      (∀ uuid info, .register uuid o info ∉ actions) →
      (runDevices sha256 actions).owned o ≤ MAX_DEVICES_PER_INSTANCE := by
  refine ⟨fun x y hx hy => deviceIdInput_inj hx hy, runDevices_derived sha256, ?_, ?_,
    fun actions o free checked => runDevices_quota free checked⟩
  · intro actions a id m free found foreign
    obtain ⟨found, -⟩ := get_eq_ok.mp found
    refine get_eq_ok.mpr ⟨?_, rfl⟩
    rw [runDevices_append]
    exact deviceStep_spares ((runDevices_derived sha256 actions).mono uses_append) free
      (fun triple made => ⟨a, by simp, made⟩) found foreign
  · intro actions actions' uuid o info info' same
    refine ⟨by simp only [DeviceRegistry.register, same], ?_⟩
    intro result ok
    obtain ⟨-, rfl⟩ := tryRegisterDerived_eq_ok.mp ok
    simp only [DeviceRegistry.register, same]

def camDoor : DeviceTriple := ⟨"u", "cam", "door"⟩
def hubDoor : DeviceTriple := ⟨"u", "hub", "door"⟩

def doorSha : Sha256 := fun input =>
  if input = deviceIdInput camDoor then #v[
    0xef, 0xc5, 0xf7, 0x63, 0x78, 0x22, 0x19, 0x0e, 0x48, 0x8f, 0x0a, 0xe7, 0xa2, 0x2c, 0xf5, 0x93,
    0x4f, 0xc6, 0x39, 0x09, 0x6f, 0x54, 0x7f, 0x02, 0x45, 0x5a, 0x30, 0x5c, 0x8f, 0xc2, 0x9a, 0x97]
  else if input = deviceIdInput hubDoor then #v[
    0x77, 0x03, 0x14, 0x58, 0x95, 0xb2, 0x74, 0x39, 0xde, 0x02, 0xed, 0x4b, 0xa3, 0xa9, 0x72, 0x0b,
    0x2d, 0xb4, 0x5f, 0x6a, 0x79, 0xb1, 0x56, 0x6a, 0xdf, 0xa1, 0xc2, 0x6e, 0x9d, 0x4a, 0xac, 0x97]
  else Vector.replicate 32 0

def door : DeviceInfo := ⟨"door", "Door", none, none, none, [], [], []⟩

def doors : List DeviceAction := [.tryRegister "u" "cam" door, .tryRegister "u" "hub" door]

theorem doors_collisionFree : CollisionFree doorSha (Uses doors) := by
  have apart : deviceIdInput hubDoor ≠ deviceIdInput camDoor := by decide
  have cam : truncatedDigest doorSha camDoor = [0xef, 0xc5, 0xf7, 0x63, 0x78, 0x22, 0x19, 0x0e] := by
    simp only [truncatedDigest, doorSha, if_true]
    decide
  have hub : truncatedDigest doorSha hubDoor = [0x77, 0x03, 0x14, 0x58, 0x95, 0xb2, 0x74, 0x39] := by
    simp only [truncatedDigest, doorSha, if_neg apart, if_true]
    decide
  have either : ∀ triple, Uses doors triple → triple = camDoor ∨ triple = hubDoor := by
    rintro triple ⟨a, mem, made⟩
    simp only [doors, List.mem_cons, List.not_mem_nil, or_false] at mem
    rcases mem with rfl | rfl
    · exact .inl (Option.some.inj made).symm
    · exact .inr (Option.some.inj made).symm
  intro x y hx hy same
  rcases either x hx with rfl | rfl <;> rcases either y hy with rfl | rfl
  · rfl
  · rw [cam, hub] at same
    exact absurd same (by decide)
  · rw [cam, hub] at same
    exact absurd same (by decide)
  · rfl

theorem device_ids_name_one_triple_doors :
    (∃ m, (runDevices doorSha doors).get "cam" (stableDeviceId doorSha "u" "cam" "door") = .ok m) ∧
    (runDevices doorSha doors).owned "cam" ≤ MAX_DEVICES_PER_INSTANCE ∧
    deviceIdInput camDoor ≠ deviceIdInput hubDoor := by
  obtain ⟨injective, -, spared, -, quota⟩ := device_ids_name_one_triple doorSha
  let m : DeviceMeta := ⟨stableDeviceId doorSha "u" "cam" "door", "cam", door⟩
  have added : (DeviceRegistry.new).tryRegisterDerived doorSha "u" "cam" door =
      .ok (DeviceRegistry.new.register doorSha "u" "cam" door) :=
    tryRegisterDerived_eq_ok.mpr ⟨.inr (by decide), rfl⟩
  have first : (runDevices doorSha [.tryRegister "u" "cam" door]).get "cam" m.id = .ok m := by
    refine get_eq_ok.mpr ⟨?_, rfl⟩
    simp only [runDevices, List.foldl_cons, List.foldl_nil, deviceStep, added, register]
    exact getElem?_insert_self _ _ _
  refine ⟨⟨m, spared [.tryRegister "u" "cam" door] (.tryRegister "u" "hub" door) m.id m
    doors_collisionFree first ?_⟩, quota doors "cam" doors_collisionFree (by simp [doors]), ?_⟩
  · show "cam" ≠ "hub"
    decide
  · rw [ne_eq, injective camDoor hubDoor ⟨by decide, by decide, by decide⟩
      ⟨by decide, by decide, by decide⟩]
    decide
end OxidHome.Host

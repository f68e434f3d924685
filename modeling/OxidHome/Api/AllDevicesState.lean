import OxidHome.Api.Scopes
import OxidHome.Projection.Cursor
import OxidHome.Library.Pages

/-!
# `GET /api/v1/devices/state`

`snapshot_page_with_revision` and the handler `get_all_device_state`: the entries after the cursor are
grouped into devices on the fly and cut at a device boundary once the page is full.
-/

namespace OxidHome.Api
open Wit Library Projection Std

def MAX_CAP_SENTINEL : String := String.ofList [Char.ofNat 0x10FFFF]

def entriesAfter (inner : StoreInner) (afterDeviceId : Option DeviceId) :
    List (SlotKey × DeviceState) :=
  match afterDeviceId with
  | some cursor => inner.entries.toList.filter fun p =>
      SlotKey.cmp (cursor, MAX_CAP_SENTINEL) p.1 = .lt
  | none => inner.entries.toList

def scanDevices (deviceLimit : Nat) :
    List (SlotKey × DeviceState) → Nat → Option DeviceId → List DeviceState
  | [], _, _ => []
  | ((did, _), entry) :: rest, distinctDevices, currentDevice =>
      if currentDevice ≠ some did then
        if distinctDevices ≥ deviceLimit then []
        else entry :: scanDevices deviceLimit rest (distinctDevices + 1) (some did)
      else entry :: scanDevices deviceLimit rest distinctDevices currentDevice

def snapshotPageWithRevision (inner : StoreInner) (afterDeviceId : Option DeviceId)
    (deviceLimit : Nat) : String × Nat × List DeviceState :=
  (inner.epoch, inner.globalRevision,
    scanDevices deviceLimit (entriesAfter inner afterDeviceId) 0 none)

inductive WireValue where
  | bool (b : Bool)
  | int (i : Int64)
  | float (f : F64)
  | string (s : String)
  | bytes (b : List UInt8)
  | json (s : String)
deriving DecidableEq, Repr

def WireValue.ofValue : Value → WireValue
  | .boolVal b => .bool b
  | .intVal i => .int i
  | .floatVal f => .float f
  | .stringVal s => .string s
  | .bytesVal b => .bytes b
  | .jsonVal j => .json j

structure WireKeyValue where
  key : String
  value : WireValue
deriving DecidableEq, Repr

structure DeviceStateEntry where
  deviceId : DeviceId
  capability : String
  fields : List WireKeyValue
  globalRevision : Nat
  receivedMs : Int
  observedMs : UInt64
  sourceGeneration : Nat
  quality : StateQuality
deriving DecidableEq, Repr

def DeviceStateEntry.fromState (state : DeviceState) : DeviceStateEntry where
  deviceId := state.deviceId
  capability := state.capability
  fields := state.fields.map fun kv => ⟨kv.key, .ofValue kv.value⟩
  globalRevision := state.globalRevision
  receivedMs := state.receivedMs
  observedMs := state.observedMs
  sourceGeneration := state.sourceGeneration
  quality := state.quality

structure DeviceStateSnapshot where
  deviceId : DeviceId
  epoch : String
  revision : Nat
  capabilities : List DeviceStateEntry

structure AllDevicesStateSnapshot where
  epoch : String
  revision : Nat
  devices : List DeviceStateSnapshot
  nextCursor : Option String

inductive AllDevicesStateError where
  | scope (required : String)
  | badCursor
  | epochChanged
deriving DecidableEq, Repr

def DEFAULT_ALL_DEVICES_STATE_LIMIT : Nat := 64
def MAX_ALL_DEVICES_STATE_LIMIT : Nat := 256
def MAX_ALL_DEVICES_STATE_PAGE_BYTES : Nat := 1024 * 1024

structure PageBuilder where
  retained : List (List DeviceState)
  runningBytes : Nat
  pending : List DeviceState
  pendingBytes : Nat
  byteCapped : Bool
  countCapped : Bool

namespace PageBuilder

def empty : PageBuilder := ⟨[], 0, [], 0, false, false⟩

def commit (limit : Nat) (b : PageBuilder) : PageBuilder × Bool :=
  if b.pending = [] then (b, true)
  else if b.retained.length ≥ limit then ({ b with countCapped := true }, false)
  else
    let wouldBeTotal := b.runningBytes + b.pendingBytes
    -- the first device is kept whatever its size, so that a page makes progress
    if b.retained ≠ [] ∧ wouldBeTotal > MAX_ALL_DEVICES_STATE_PAGE_BYTES then
      ({ b with byteCapped := true }, false)
    else
      ({ b with
        retained := b.retained ++ [b.pending], runningBytes := wouldBeTotal
        pending := [], pendingBytes := 0 }, true)

def push (b : PageBuilder) (entry : DeviceState) : PageBuilder :=
  { b with
    pendingBytes := b.pendingBytes + entry.capability.utf8ByteSize + entry.fieldByteEstimate
    pending := b.pending ++ [entry] }

def isNewDevice (b : PageBuilder) (entry : DeviceState) : Bool :=
  match b.pending with
  | [] => true
  | first :: _ => first.deviceId ≠ entry.deviceId

def collect (limit : Nat) : List DeviceState → PageBuilder → PageBuilder
  | [], b => b
  | entry :: rest, b =>
      if b.isNewDevice entry then
        match b.commit limit with
        | (b, true) => collect limit rest (b.push entry)
        | (b, false) => b
      else collect limit rest (b.push entry)

def build (limit : Nat) (entries : List DeviceState) : PageBuilder :=
  let b := collect limit entries empty
  if !b.countCapped && !b.byteCapped then (b.commit limit).1 else b

def capped (b : PageBuilder) : Bool := b.countCapped || b.byteCapped

end PageBuilder

def deviceSnapshot (epoch : String) (revision : Nat) (caps : List DeviceState) :
    DeviceStateSnapshot where
  deviceId := (caps.head?.map (·.deviceId)).getD ""
  epoch := epoch
  revision := revision
  capabilities := (caps.map DeviceStateEntry.fromState).insertionSort
    fun a b => a.capability ≤ b.capability

def pageLimit (limit : Option Nat) : Nat :=
  min ((limit.filter (· > 0)).getD DEFAULT_ALL_DEVICES_STATE_LIMIT) MAX_ALL_DEVICES_STATE_LIMIT

def allDevicesPage (sha256 : Sha256) (inner : StoreInner)
    (cursorFields : Option (String × Nat × DeviceId)) (limit : Nat) : AllDevicesStateSnapshot :=
  let (epoch, currentRevision, entries) :=
    snapshotPageWithRevision inner (cursorFields.map (·.2.2)) (limit + 1)
  let revision := match cursorFields with
    | some (_, r, _) => r
    | none => currentRevision
  let b := PageBuilder.build limit entries
  let devices := b.retained.map (deviceSnapshot epoch revision)
  { epoch := epoch, revision := revision, devices := devices
    nextCursor :=
      if b.capped then devices.getLast?.map fun d => inner.issueCursor sha256 revision d.deviceId
      else none }

def getAllDeviceState (sha256 : Sha256) (scopes : List String) (inner : StoreInner)
    (cursor : Option String) (limit : Option Nat) :
    Except AllDevicesStateError AllDevicesStateSnapshot :=
  if !satisfiedBy DEVICES_READ scopes then .error (.scope DEVICES_READ)
  else match cursor with
  | none => .ok (allDevicesPage sha256 inner none (pageLimit limit))
  | some raw =>
    match inner.verifyCursor sha256 raw with
    | .ok fields => .ok (allDevicesPage sha256 inner (some fields) (pageLimit limit))
    | .error .bad => .error .badCursor
    | .error .epochChanged => .error .epochChanged

namespace PageBuilder

structure Building (limit : Nat) (all rest : List DeviceState) (b : PageBuilder) : Prop where
  groups : GroupPrefix DeviceState.deviceId all b.retained (b.pending ++ rest)
  same : ∀ a ∈ b.pending, ∀ c ∈ b.pending, a.deviceId = c.deviceId
  length_le : b.retained.length ≤ limit
  uncapped : b.capped = false

def Full (limit : Nat) (all : List DeviceState) (b : PageBuilder) : Prop :=
  b.capped = true ∧ b.retained ≠ [] ∧ b.retained.length ≤ limit ∧
    ∃ rest, rest ≠ [] ∧ GroupPrefix DeviceState.deviceId all b.retained rest

theorem commit_spec {limit : Nat} (positive : 0 < limit) {all rest : List DeviceState}
    {b : PageBuilder} (h : b.Building limit all rest)
    (cut : ∀ a ∈ b.pending, ∀ c ∈ rest, a.deviceId < c.deviceId) :
    ((b.commit limit).2 = true ∧ (b.commit limit).1.pending = [] ∧
        (b.commit limit).1.Building limit all rest) ∨
      ((b.commit limit).2 = false ∧ (b.commit limit).1.Full limit all) := by
  unfold commit
  by_cases none : b.pending = []
  · rw [if_pos none]
    exact Or.inl ⟨rfl, none, h⟩
  · have full (b' : PageBuilder) (retained : b'.retained = b.retained) (capped : b'.capped = true)
        (kept : b.retained ≠ []) : b'.Full limit all :=
      ⟨capped, retained ▸ kept, retained ▸ h.length_le, b.pending ++ rest, by simp [none],
        retained ▸ h.groups⟩
    rw [if_neg none]
    by_cases count : b.retained.length ≥ limit
    · rw [if_pos count]
      exact Or.inr ⟨rfl, full _ rfl (by simp [capped]) (List.ne_nil_of_length_pos (by omega))⟩
    · rw [if_neg count]
      by_cases bytes : b.retained ≠ [] ∧
          b.runningBytes + b.pendingBytes > MAX_ALL_DEVICES_STATE_PAGE_BYTES
      · rw [if_pos bytes]
        exact Or.inr ⟨rfl, full _ rfl (by simp [capped]) bytes.1⟩
      · rw [if_neg bytes]
        refine Or.inl ⟨rfl, rfl, h.groups.push none h.same cut, ?_, ?_, h.uncapped⟩
        · exact fun _ mem => by cases mem
        · rw [List.length_append, List.length_singleton]
          omega

theorem Building.push {limit : Nat} {all rest : List DeviceState} {b : PageBuilder}
    {entry : DeviceState} (h : b.Building limit all (entry :: rest))
    (same : ∀ a ∈ b.pending, a.deviceId = entry.deviceId) :
    (b.push entry).Building limit all rest where
  groups := by simpa [PageBuilder.push] using h.groups
  same := fun a ha c hc => by
    simp only [PageBuilder.push, List.mem_append, List.mem_singleton] at ha hc
    rcases ha with ha | rfl <;> rcases hc with hc | rfl
    · exact h.same a ha c hc
    · exact same a ha
    · exact (same c hc).symm
    · rfl
  length_le := h.length_le
  uncapped := h.uncapped

theorem collect_spec {limit : Nat} (positive : 0 < limit) {all : List DeviceState}
    (sorted : all.Pairwise fun a c => a.deviceId ≤ c.deviceId) (rest : List DeviceState)
    {b : PageBuilder} (h : b.Building limit all rest) :
    (collect limit rest b).Building limit all [] ∨ (collect limit rest b).Full limit all := by
  induction rest generalizing b with
  | nil => exact Or.inl h
  | cons entry rest ih =>
      have tail := h.groups.split ▸ sorted
      rw [← List.append_assoc, List.pairwise_append, List.pairwise_cons] at tail
      obtain ⟨_, ⟨later, _⟩, before⟩ := tail
      simp only [collect]
      by_cases new : b.isNewDevice entry = true
      · rw [if_pos new]
        have apart : ∀ a ∈ b.pending, a.deviceId ≠ entry.deviceId := by
          intro a ha
          unfold isNewDevice at new
          split at new
          · rename_i none
            rw [none] at ha
            cases ha
          · rename_i first others pending
            rw [h.same a ha first (pending ▸ List.mem_cons_self)]
            simpa using new
        have cut : ∀ a ∈ b.pending, ∀ c ∈ entry :: rest, a.deviceId < c.deviceId := by
          intro a ha c hc
          have le := before a (List.mem_append_right _ ha) entry List.mem_cons_self
          have lt := le.lt_of_ne (apart a ha)
          rcases List.mem_cons.mp hc with rfl | hc
          · exact lt
          · exact lt.trans_le (later c hc)
        rcases commit_spec positive h cut with ⟨goOn, none, building⟩ | ⟨stop, full⟩
        · rw [show b.commit limit = ((b.commit limit).1, true) from Prod.ext rfl goOn]
          exact ih (building.push fun a ha => by rw [none] at ha; cases ha)
        · rw [show b.commit limit = ((b.commit limit).1, false) from Prod.ext rfl stop]
          exact Or.inr full
      · rw [if_neg new]
        refine ih (h.push fun a ha => ?_)
        unfold isNewDevice at new
        split at new
        · exact absurd rfl new
        · rename_i first others pending
          rw [h.same a ha first (pending ▸ List.mem_cons_self)]
          simpa using new

theorem build_spec {limit : Nat} (positive : 0 < limit) {entries : List DeviceState}
    (sorted : entries.Pairwise fun a c => a.deviceId ≤ c.deviceId) :
    (build limit entries).retained.length ≤ limit ∧ ∃ rest,
      GroupPrefix DeviceState.deviceId entries (build limit entries).retained rest ∧
      ((build limit entries).capped = true ↔ rest ≠ []) ∧
      (rest ≠ [] → (build limit entries).retained ≠ []) := by
  have start : empty.Building limit entries entries :=
    ⟨.nil entries, (fun _ mem => by cases mem), Nat.zero_le _, rfl⟩
  have done {b : PageBuilder} (full : b.Full limit entries) :
      b.retained.length ≤ limit ∧ ∃ rest, GroupPrefix DeviceState.deviceId entries b.retained rest ∧
        (b.capped = true ↔ rest ≠ []) ∧ (rest ≠ [] → b.retained ≠ []) := by
    obtain ⟨capped, kept, le, rest, nonempty, groups⟩ := full
    exact ⟨le, rest, groups, ⟨fun _ => nonempty, fun _ => capped⟩, fun _ => kept⟩
  unfold build
  rcases collect_spec positive sorted entries start with building | full
  · have uncapped := building.uncapped
    simp only [capped, Bool.or_eq_false_iff] at uncapped
    simp only [uncapped.1, uncapped.2, Bool.not_false, Bool.and_self, if_true]
    rcases commit_spec positive building (fun _ _ _ mem => by cases mem) with
      ⟨_, none, building⟩ | ⟨_, full⟩
    · refine ⟨building.length_le, [], ?_, ?_, fun h => absurd rfl h⟩
      · simpa [none] using building.groups
      · simp [building.uncapped]
    · exact done full
  · have capped := full.1
    simp only [PageBuilder.capped, Bool.or_eq_true] at capped
    have skip : (!(collect limit entries empty).countCapped &&
        !(collect limit entries empty).byteCapped) = false := by
      rcases capped with h | h <;> simp [h]
    simp only [skip, Bool.false_eq_true, if_false]
    exact done full

end PageBuilder

end OxidHome.Api

import OxidHome.Projection.Fields
import OxidHome.Library.Text

/-!
# The device-state store

`DeviceStateStore` of `state/device_state.rs`: every operation runs under one lock, so each is a
function of the guarded `StoreInner`. Clock readings (`now_unix_ms`) and the random `epoch` and
`cursor_secret` are arguments. The revisions and the generations count up from zero, by one for each
slot that is written or marked and for each bump, so the `u64`s of the source, which are natural
numbers here, do not wrap within 2^64 of these.
-/

namespace OxidHome.Projection
open Wit Library Std

inductive StateQuality where
  | fresh
  | stale
deriving DecidableEq, Repr

structure DeviceState where
  deviceId : DeviceId
  capability : String
  fields : List KeyValue
  globalRevision : Nat
  receivedMs : Int
  observedMs : UInt64
  sourceGeneration : Nat
  ownerInstance : String
  quality : StateQuality
deriving DecidableEq, Repr

def DeviceState.fieldByteEstimate (state : DeviceState) : Nat := fieldsByteEstimate state.fields

abbrev SlotKey := DeviceId × String

def DeviceState.slot (e : DeviceState) : SlotKey := (e.deviceId, e.capability)

abbrev SlotKey.cmp : SlotKey → SlotKey → Ordering :=
  compareLex (compareOn Prod.fst) (compareOn Prod.snd)

structure StoreInner where
  entries : TreeMap SlotKey DeviceState SlotKey.cmp
  globalRevision : Nat
  epoch : String
  evictedThroughRevision : Nat
  generations : TreeMap String Nat
  cursorSecret : Vector UInt8 32

/-- `mint_epoch`, given the bytes of the system RNG. -/
def mintEpoch (bytes : Vector UInt8 16) : String :=
  String.ofList ("epoch-".toList ++ hexEncode bytes.toList)

def StoreInner.default (nonce : Vector UInt8 16) (cursorSecret : Vector UInt8 32) : StoreInner where
  entries := ∅
  globalRevision := 0
  epoch := mintEpoch nonce
  evictedThroughRevision := 0
  generations := ∅
  cursorSecret := cursorSecret

def MAX_STALE_ENTRIES : Nat := 4096

namespace StoreInner

def generation (inner : StoreInner) (ownerInstance : String) : Nat :=
  inner.generations[ownerInstance]?.getD 0

/-- Insert `state` at `key`, stamped with the revision `next_revision` allocates. -/
def insertNext (inner : StoreInner) (key : SlotKey) (state : DeviceState) : StoreInner :=
  { inner with
    globalRevision := inner.globalRevision + 1
    entries := inner.entries.insert key
      { state with globalRevision := inner.globalRevision + 1 } }

/-- The merge-or-replace decision of `write_entry`, before the byte cap. -/
def writeFields (prev : Option DeviceState) (generation : Nat) (fields : List KeyValue)
    (merge : Bool) : List KeyValue :=
  match prev, merge with
  | some prev, true =>
      if prev.quality = .fresh ∧ prev.sourceGeneration = generation then
        (mergeFields prev.fields fields).1
      else snapshotFields fields
  | _, _ => snapshotFields fields

def writeEntry (inner : StoreInner) (deviceId : DeviceId) (ownerInstance capability : String)
    (fields : List KeyValue) (observedMs : UInt64) (receivedMs : Int) (merge : Bool) : StoreInner :=
  let generation := inner.generation ownerInstance
  let prev := inner.entries[(deviceId, capability)]?
  let finalFields := truncateToByteCap (writeFields prev generation fields merge)
  inner.insertNext (deviceId, capability)
    { deviceId := deviceId, capability := capability, fields := finalFields
      globalRevision := 0, receivedMs := receivedMs, observedMs := observedMs
      sourceGeneration := generation, ownerInstance := ownerInstance, quality := .fresh }

def replaceSnapshot (inner : StoreInner) (deviceId : DeviceId) (ownerInstance capability : String)
    (fields : List KeyValue) (observedMs : UInt64) (receivedMs : Int) : StoreInner :=
  inner.writeEntry deviceId ownerInstance capability fields observedMs receivedMs false

def applyDelta (inner : StoreInner) (deviceId : DeviceId) (ownerInstance capability : String)
    (fields : List KeyValue) (observedMs : UInt64) (receivedMs : Int) : StoreInner :=
  inner.writeEntry deviceId ownerInstance capability fields observedMs receivedMs true

def evictOne (inner : StoreInner) (victim : Nat × SlotKey) : StoreInner :=
  { inner with
    entries := inner.entries.erase victim.2
    evictedThroughRevision :=
      if victim.1 > inner.evictedThroughRevision then victim.1
      else inner.evictedThroughRevision }

def staleByAge (inner : StoreInner) : List (Nat × SlotKey) :=
  ((inner.entries.toList.filter fun p => p.2.quality = .stale).map
    fun p => (p.2.globalRevision, p.1)).insertionSort (·.1 ≤ ·.1)

def enforceStaleCapLocked (inner : StoreInner) : StoreInner :=
  let staleCount := (inner.entries.toList.filter fun p => p.2.quality = .stale).length
  if staleCount ≤ MAX_STALE_ENTRIES then inner
  else (inner.staleByAge.take (staleCount - MAX_STALE_ENTRIES)).foldl evictOne inner

def staleOne (receivedMs : Int) (inner : StoreInner) (key : SlotKey) : StoreInner :=
  match inner.entries[key]? with
  | none => inner
  | some prev => inner.insertNext key { prev with receivedMs := receivedMs, quality := .stale }

def keysToStale (inner : StoreInner) (predicate : SlotKey → DeviceState → Bool) : List SlotKey :=
  (inner.entries.toList.filter fun p => predicate p.1 p.2).map (·.1)

/-- `stale_where_locked`, less the count it returns for observability. -/
def staleWhereLocked (inner : StoreInner) (receivedMs : Int)
    (predicate : SlotKey → DeviceState → Bool) : StoreInner :=
  ((inner.keysToStale predicate).foldl (staleOne receivedMs) inner).enforceStaleCapLocked

def bumpGeneration (inner : StoreInner) (ownerInstance : String) : StoreInner :=
  { inner with
    generations := inner.generations.insert ownerInstance (inner.generation ownerInstance + 1) }

def markInstanceStale (inner : StoreInner) (ownerInstance : String) (nowMs : Int) : StoreInner :=
  inner.staleWhereLocked nowMs fun _ entry =>
    entry.ownerInstance = ownerInstance ∧ entry.quality = .fresh

def restartGeneration (inner : StoreInner) (ownerInstance : String) (nowMs : Int) : StoreInner :=
  (inner.staleWhereLocked nowMs fun _ entry =>
    entry.ownerInstance = ownerInstance ∧ entry.quality = .fresh).bumpGeneration ownerInstance

def markDeviceStale (inner : StoreInner) (deviceId : DeviceId) (nowMs : Int) : StoreInner :=
  inner.staleWhereLocked nowMs fun key entry => key.1 = deviceId ∧ entry.quality = .fresh

def reconcileCapabilities (inner : StoreInner) (deviceId : DeviceId)
    (liveCapabilities : List String) (nowMs : Int) : StoreInner :=
  inner.staleWhereLocked nowMs fun key entry =>
    key.1 = deviceId ∧ entry.quality = .fresh ∧ key.2 ∉ liveCapabilities

def seedOne (deviceId : DeviceId) (ownerInstance : String) (generation : Nat)
    (observedMs : UInt64) (receivedMs : Int) (inner : StoreInner)
    (seed : String × List KeyValue) : StoreInner :=
  inner.insertNext (deviceId, seed.1)
    { deviceId := deviceId, capability := seed.1, fields := snapshotFields seed.2
      globalRevision := 0, receivedMs := receivedMs, observedMs := observedMs
      sourceGeneration := generation, ownerInstance := ownerInstance, quality := .fresh }

def resetAndSeedDevice (inner : StoreInner) (deviceId : DeviceId) (ownerInstance : String)
    (initialState : List (String × List KeyValue)) (observedMs : UInt64) (receivedMs : Int) :
    StoreInner :=
  let inner := inner.staleWhereLocked receivedMs fun key entry =>
    key.1 = deviceId ∧ entry.quality = .fresh
  let generation := inner.generation ownerInstance
  initialState.foldl (seedOne deviceId ownerInstance generation observedMs receivedMs) inner

structure DeltaPage where
  epoch : String
  currentRevision : Nat
  entries : List DeviceState
  resetRequired : Bool

def deltasSinceWithRevision (inner : StoreInner) (sinceRevision limit : Nat) : DeltaPage :=
  if sinceRevision > inner.globalRevision ∨ sinceRevision < inner.evictedThroughRevision then
    { epoch := inner.epoch, currentRevision := inner.globalRevision, entries := []
      resetRequired := true }
  else
    let out := (inner.entries.toList.map (·.2)).filter fun m => m.globalRevision > sinceRevision
    let out := out.insertionSort fun a b => a.globalRevision ≤ b.globalRevision
    { epoch := inner.epoch, currentRevision := inner.globalRevision, entries := out.take limit
      resetRequired := false }

end StoreInner

inductive Mutation where
  | applyDelta (deviceId : DeviceId) (ownerInstance capability : String)
      (fields : List KeyValue) (observedMs : UInt64) (receivedMs : Int)
  | replaceSnapshot (deviceId : DeviceId) (ownerInstance capability : String)
      (fields : List KeyValue) (observedMs : UInt64) (receivedMs : Int)
  | resetAndSeedDevice (deviceId : DeviceId) (ownerInstance : String)
      (initialState : List (String × List KeyValue)) (observedMs : UInt64) (receivedMs : Int)
  | bumpGeneration (ownerInstance : String)
  | restartGeneration (ownerInstance : String) (nowMs : Int)
  | markInstanceStale (ownerInstance : String) (nowMs : Int)
  | markDeviceStale (deviceId : DeviceId) (nowMs : Int)
  | reconcileCapabilities (deviceId : DeviceId) (liveCapabilities : List String) (nowMs : Int)
deriving DecidableEq

def StoreInner.mutate (inner : StoreInner) : Mutation → StoreInner
  | .applyDelta d o c f obs recv => inner.applyDelta d o c f obs recv
  | .replaceSnapshot d o c f obs recv => inner.replaceSnapshot d o c f obs recv
  | .resetAndSeedDevice d o init obs recv => inner.resetAndSeedDevice d o init obs recv
  | .bumpGeneration o => inner.bumpGeneration o
  | .restartGeneration o now => inner.restartGeneration o now
  | .markInstanceStale o now => inner.markInstanceStale o now
  | .markDeviceStale d now => inner.markDeviceStale d now
  | .reconcileCapabilities d live now => inner.reconcileCapabilities d live now

end OxidHome.Projection

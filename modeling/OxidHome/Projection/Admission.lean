import OxidHome.Projection.Store

/-!
# Admission to the projection

The checks of `state/device_state.rs` that a host call makes before it writes, under the read lock.
-/

namespace OxidHome.Projection
open Wit Library Std

def SlotCapExceeded.display : SlotCapExceeded → String
  | .slot projectedFields projectedBytes capFields capBytes =>
      "device-state slot cap exceeded: fields=" ++ toString projectedFields ++ "/" ++
        toString capFields ++ " bytes=" ++ toString projectedBytes ++ "/" ++ toString capBytes
  | .instance projectedInstanceBytes capInstanceBytes =>
      "device-state per-instance aggregate cap exceeded: bytes=" ++
        toString projectedInstanceBytes ++ "/" ++ toString capInstanceBytes

namespace StoreInner

def ownerTotal (inner : StoreInner) (ownerInstance : String) : Nat :=
  ((inner.entries.toList.filter fun p =>
    p.2.ownerInstance = ownerInstance ∧ p.2.quality = .fresh).map
      fun p => p.2.fieldByteEstimate).sum

def checkInstanceCapsLocked (inner : StoreInner) (ownerInstance : String)
    (oldSlotBytes projectedSlotBytes : Nat) : Except SlotCapExceeded Unit :=
  let projectedInstanceBytes := inner.ownerTotal ownerInstance - oldSlotBytes + projectedSlotBytes
  if projectedInstanceBytes > MAX_PROJECTED_BYTES_PER_INSTANCE then
    .error (.instance projectedInstanceBytes MAX_PROJECTED_BYTES_PER_INSTANCE)
  else .ok ()

/-- The slot of the key, if `write_entry` would merge into it. -/
def deltaBaseline (inner : StoreInner) (key : SlotKey) (ownerInstance : String) : List KeyValue :=
  match inner.entries[key]? with
  | some prev =>
      if prev.quality = .fresh ∧ prev.sourceGeneration = inner.generation ownerInstance then
        prev.fields
      else []
  | none => []

def oldSlotBytes (inner : StoreInner) (key : SlotKey) : Nat :=
  match inner.entries[key]? with
  | some e => if e.quality = .fresh then e.fieldByteEstimate else 0
  | none => 0

def checkDeltaAdmission (inner : StoreInner) (deviceId : DeviceId)
    (ownerInstance capability : String) (incoming : List KeyValue) :
    Except SlotCapExceeded Unit :=
  let key := (deviceId, capability)
  match projectedSlotSize (inner.deltaBaseline key ownerInstance) incoming with
  | .error overflow => .error overflow
  | .ok (_, projectedBytes) =>
      inner.checkInstanceCapsLocked ownerInstance (inner.oldSlotBytes key) projectedBytes

end StoreInner

def checkSnapshotAdmission (fields : List KeyValue) : Except SlotCapExceeded Unit :=
  (projectedSlotSize [] fields).map fun _ => ()

end OxidHome.Projection

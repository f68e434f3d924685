import OxidHome.Projection.AdmittedWrites
import OxidHome.Library.Weights

/-!
# What one instance may store

The aggregate checks of `state/device_state.rs`, made before a registration and before the state of
a command result is projected, and the canonical form of such a result.
-/

namespace OxidHome.Projection
open Wit Library Std

namespace StoreInner

def oldDeviceBytes (inner : StoreInner) (deviceId : DeviceId) : Nat :=
  ((inner.entries.toList.filter fun p => p.1.1 = deviceId ∧ p.2.quality = .fresh).map
    fun p => p.2.fieldByteEstimate).sum

end StoreInner

def newDeviceBytes : List (String × List KeyValue) → Nat → Except SlotCapExceeded Nat
  | [], total => .ok total
  | (_, fields) :: rest, total =>
      match projectedSlotSize [] fields with
      | .error overflow => .error overflow
      | .ok (_, bytes) => newDeviceBytes rest (total + bytes)

namespace StoreInner

def checkInstanceRegisterAdmission (inner : StoreInner) (deviceId : DeviceId)
    (ownerInstance : String) (seedState : List (String × List KeyValue)) :
    Except SlotCapExceeded Unit :=
  match newDeviceBytes seedState 0 with
  | .error overflow => .error overflow
  | .ok bytes =>
      inner.checkInstanceCapsLocked ownerInstance (inner.oldDeviceBytes deviceId) bytes

def checkInstanceSnapshotAdmission (inner : StoreInner) (deviceId : DeviceId)
    (ownerInstance capability : String) (incoming : List KeyValue) : Except SlotCapExceeded Unit :=
  match projectedSlotSize [] incoming with
  | .error overflow => .error overflow
  | .ok (_, projectedBytes) =>
      inner.checkInstanceCapsLocked ownerInstance (inner.oldSlotBytes (deviceId, capability))
        projectedBytes

end StoreInner

/-- The loop of `canonicalize_owned`: where each key is, and the fields so far. -/
def canonicalizeOwnedLoop : List KeyValue → TreeMap String Nat → List KeyValue → List KeyValue
  | [], _, out => out
  | kv :: rest, idxOf, out =>
      match idxOf[kv.key]? with
      | some i =>
          canonicalizeOwnedLoop rest idxOf (out.modify i fun old => { old with value := kv.value })
      | none => canonicalizeOwnedLoop rest (idxOf.insert kv.key out.length) (out ++ [kv])

def canonicalizeSnapshotFields (fields : List KeyValue) : List KeyValue :=
  canonicalizeOwnedLoop fields ∅ []

def Indexes (idxOf : TreeMap String Nat) (out : List KeyValue) : Prop :=
  ∀ (key : String) (i : Nat), idxOf[key]? = some i ↔ ∃ kv, out[i]? = some kv ∧ kv.key = key

theorem Indexes.push {idxOf : TreeMap String Nat} {out : List KeyValue} (indexes : Indexes idxOf out)
    {kv : KeyValue} (absent : idxOf[kv.key]? = none) :
    Indexes (idxOf.insert kv.key out.length) (out ++ [kv]) := by
  intro key i
  rw [getElem?_insert_eq]
  constructor
  · intro found
    split_ifs at found with same
    · cases found
      refine ⟨kv, ?_, same⟩
      rw [List.getElem?_append_right (Nat.le_refl _), Nat.sub_self]
      rfl
    · obtain ⟨old, there, named⟩ := (indexes key i).mp found
      have bound := (List.getElem?_eq_some_iff.mp there).1
      exact ⟨old, by rw [List.getElem?_append_left bound]; exact there, named⟩
  · rintro ⟨old, there, rfl⟩
    rcases Nat.lt_or_ge i out.length with before | beyond
    · rw [List.getElem?_append_left before] at there
      have found := (indexes old.key i).mpr ⟨old, there, rfl⟩
      split_ifs with same
      · rw [same, found] at absent
        cases absent
      · exact found
    · rw [List.getElem?_append_right beyond] at there
      have last : i - out.length = 0 := by
        by_contra more
        rw [List.getElem?_eq_none (by rw [List.length_singleton]; omega)] at there
        cases there
      rw [last] at there
      cases there
      rw [if_pos rfl]
      congr 1
      omega

theorem Indexes.modify {idxOf : TreeMap String Nat} {out : List KeyValue}
    (indexes : Indexes idxOf out) (i : Nat) (value : Value) :
    Indexes idxOf (out.modify i fun old => { old with value := value }) := by
  intro key j
  rw [indexes key j, List.getElem?_modify]
  constructor
  · rintro ⟨kv, found, named⟩
    rw [found]
    refine ⟨_, rfl, ?_⟩
    split_ifs
    · exact named
    · exact named
  · rintro ⟨kv, found, named⟩
    cases old : out[j]? with
    | none =>
        rw [old] at found
        cases found
    | some kv' =>
        rw [old] at found
        refine ⟨kv', rfl, ?_⟩
        cases found
        split_ifs at named
        · exact named
        · exact named

theorem setExisting_of_indexes {out : List KeyValue} {kv : KeyValue} {idxOf : TreeMap String Nat}
    (indexes : Indexes idxOf out) : setExisting out kv =
      idxOf[kv.key]?.map fun i => out.modify i fun old => { old with value := kv.value } := by
  cases found : idxOf[kv.key]? with
  | none =>
      have absent : ∀ other ∈ out, other.key ≠ kv.key := by
        intro other mem same
        obtain ⟨i, there⟩ := List.mem_iff_getElem?.mp mem
        rw [(indexes kv.key i).mpr ⟨other, there, same⟩] at found
        cases found
      clear indexes found
      induction out with
      | nil => rfl
      | cons first rest ih =>
          rw [setExisting, if_neg (absent first List.mem_cons_self),
            ih fun other mem => absent other (List.mem_cons_of_mem _ mem)]
          rfl
  | some i =>
      obtain ⟨old, there, named⟩ := (indexes kv.key i).mp found
      have first : ∀ j < i, ∀ other, out[j]? = some other → other.key ≠ kv.key := by
        intro j before other here same
        have again := (indexes kv.key j).mpr ⟨other, here, same⟩
        rw [found] at again
        cases again
        exact Nat.lt_irrefl _ before
      clear indexes found
      induction out generalizing i with
      | nil => cases there
      | cons head rest ih =>
          cases i with
          | zero =>
              cases there
              rw [setExisting, if_pos named]
              rfl
          | succ i =>
              rw [setExisting, if_neg (first 0 (Nat.succ_pos i) head rfl),
                ih i there fun j before other here =>
                  first (j + 1) (Nat.succ_lt_succ before) other here]
              rfl

theorem canonicalizeOwnedLoop_eq (fields : List KeyValue) {idxOf : TreeMap String Nat}
    {out : List KeyValue} (indexes : Indexes idxOf out) :
    canonicalizeOwnedLoop fields idxOf out = mergeFieldsUnbounded out fields := by
  unfold mergeFieldsUnbounded
  induction fields generalizing idxOf out with
  | nil => rfl
  | cons kv rest ih =>
      rw [List.foldl_cons, setExisting_of_indexes indexes, canonicalizeOwnedLoop]
      cases found : idxOf[kv.key]? with
      | none => exact ih (indexes.push found)
      | some i => exact ih (indexes.modify i kv.value)

theorem canonicalizeSnapshotFields_eq (fields : List KeyValue) :
    canonicalizeSnapshotFields fields = mergeFieldsUnbounded [] fields := by
  apply canonicalizeOwnedLoop_eq
  intro key i
  simp

theorem newDeviceBytes_eq_ok {seeds : List (String × List KeyValue)} {total bytes : Nat}
    (measured : newDeviceBytes seeds total = .ok bytes) :
    (∀ seed ∈ seeds, ¬ Oversized (mergeFieldsUnbounded [] seed.2)) ∧
      bytes = total + (seeds.map fun seed => fieldsByteEstimate (mergeFieldsUnbounded [] seed.2)).sum
      := by
  induction seeds generalizing total with
  | nil =>
      cases measured
      exact ⟨nofun, rfl⟩
  | cons seed rest ih =>
      obtain ⟨name, fields⟩ := seed
      have empty : DistinctKeys [] := List.nodup_nil
      have spec := projectedSlotSize_spec empty fields
      by_cases large : Oversized (mergeFieldsUnbounded [] fields)
      · obtain ⟨n, b, refused⟩ := spec.2 large
        rw [newDeviceBytes, refused] at measured
        cases measured
      · obtain ⟨count, fits⟩ := not_oversized large
        rw [newDeviceBytes, spec.1 count fits] at measured
        obtain ⟨others, sum⟩ := ih measured
        constructor
        · intro seed mem
          rcases List.mem_cons.mp mem with rfl | tail
          · exact large
          · exact others seed tail
        · rw [sum, List.map_cons, List.sum_cons, Nat.add_assoc]

theorem projectedSlotSize_eq_ok {baseline incoming : List KeyValue}
    (distinct : DistinctKeys baseline) {count bytes : Nat}
    (measured : projectedSlotSize baseline incoming = .ok (count, bytes)) :
    ¬ Oversized (mergeFieldsUnbounded baseline incoming) ∧
      bytes = fieldsByteEstimate (mergeFieldsUnbounded baseline incoming) := by
  have spec := projectedSlotSize_spec distinct incoming
  by_cases large : Oversized (mergeFieldsUnbounded baseline incoming)
  · obtain ⟨n, b, refused⟩ := spec.2 large
    rw [refused] at measured
    cases measured
  · obtain ⟨few, fits⟩ := not_oversized large
    rw [spec.1 few fits] at measured
    cases measured
    exact ⟨large, rfl⟩

theorem checkInstanceCapsLocked_eq_ok {inner : StoreInner} {ownerInstance : String} {old new : Nat} :
    inner.checkInstanceCapsLocked ownerInstance old new = .ok () ↔
      inner.ownerTotal ownerInstance - old + new ≤ MAX_PROJECTED_BYTES_PER_INSTANCE := by
  unfold StoreInner.checkInstanceCapsLocked
  dsimp only
  split_ifs with large
  · simp [Nat.not_le.mpr large]
  · simp [Nat.not_lt.mp large]

namespace StoreInner

def share (ownerInstance : String) (_ : SlotKey) (e : DeviceState) : Nat :=
  if e.ownerInstance = ownerInstance ∧ e.quality = .fresh then e.fieldByteEstimate else 0

theorem ownerTotal_eq (inner : StoreInner) (ownerInstance : String) :
    inner.ownerTotal ownerInstance = weight (share ownerInstance) inner.entries := by
  unfold ownerTotal
  rw [sum_filter_map]
  apply weight_eq_weight
  intro key
  cases inner.entries[key]? with
  | none => rfl
  | some e => simp [share]

theorem oldDeviceBytes_eq (inner : StoreInner) (deviceId : DeviceId) :
    inner.oldDeviceBytes deviceId =
      weight (fun key e => if key.1 = deviceId ∧ e.quality = .fresh then e.fieldByteEstimate else 0)
        inner.entries := by
  unfold oldDeviceBytes
  rw [sum_filter_map]
  apply weight_eq_weight
  intro key
  cases inner.entries[key]? with
  | none => rfl
  | some e => simp

theorem share_of_fresh {ownerInstance : String} {key : SlotKey} {e : DeviceState}
    (own : e.ownerInstance = ownerInstance) (fresh : e.quality = .fresh) :
    share ownerInstance key e = fieldsByteEstimate e.fields :=
  if_pos ⟨own, fresh⟩

theorem share_pos {ownerInstance : String} {key : SlotKey} {e : DeviceState}
    (counts : 0 < share ownerInstance key e) :
    e.ownerInstance = ownerInstance ∧ e.quality = .fresh := by
  unfold share at counts
  split_ifs at counts with here
  · exact here
  · exact absurd counts (Nat.lt_irrefl _)

end StoreInner

end OxidHome.Projection

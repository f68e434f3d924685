import OxidHome.Projection.Mutations

/-!
# The size of a slot

Every write path folds duplicate keys and cuts to the field cap, but only `write_entry` also cuts to
the byte cap. The seed of `reset_and_seed_device` does not, so a run keeps every slot within its
caps exactly when the seeds it is given fit.
-/

namespace OxidHome.Projection
open Wit Library Std

structure WithinSlotCaps (fields : List KeyValue) : Prop where
  distinct : DistinctKeys fields
  count : fields.length ≤ MAX_FIELDS_PER_SLOT
  bytes : fieldsByteEstimate fields ≤ MAX_BYTES_PER_SLOT

/-- The bytes of the first fields a seed names, each at the last value given to it. -/
def seedByteEstimate (seed : List KeyValue) : Nat :=
  (((seed.map KeyValue.key).eraseDups.take MAX_FIELDS_PER_SLOT).map fun k =>
    ((lastOf KeyValue.key seed k).map keyValueByteEstimate).getD 0).sum

def Mutation.SeedsFit : Mutation → Prop
  | .resetAndSeedDevice _ _ initialState _ _ =>
      ∀ c f, lastSeed initialState c = some f → seedByteEstimate f ≤ MAX_BYTES_PER_SLOT
  | _ => True

theorem fieldsByteEstimate_snapshotFields (seed : List KeyValue) :
    fieldsByteEstimate (snapshotFields seed) = seedByteEstimate seed := by
  have nodup : ((merge KeyValue.key [] seed).map KeyValue.key).Nodup := merge_nodup seed (by simp)
  have sizes := map_of_nodup nodup fun kv => (kv.map keyValueByteEstimate).getD 0
  simp only [Option.map_some, Option.getD_some, merge_keys, find?_merge] at sizes
  rw [fieldsByteEstimate, snapshotFields, mergeFieldsUnbounded_eq, List.map_take, sizes,
    seedByteEstimate, List.map_take]

theorem WithinSlotCaps.truncate {fields : List KeyValue} (distinct : DistinctKeys fields)
    (count : fields.length ≤ MAX_FIELDS_PER_SLOT) : WithinSlotCaps (truncateToByteCap fields) where
  distinct := distinct.of_isPrefix (truncateToByteCap_isPrefix fields)
  count := (truncateToByteCap_isPrefix fields).length_le.trans count
  bytes := truncateToByteCap_bytes fields

theorem WithinSlotCaps.snapshot (fields : List KeyValue) :
    WithinSlotCaps (truncateToByteCap (snapshotFields fields)) :=
  .truncate (snapshotFields_distinct fields) (snapshotFields_length fields)

theorem WithinSlotCaps.writeFields {prev : Option DeviceState} (generation : Nat)
    (fields : List KeyValue) (merge : Bool) (h : ∀ e, prev = some e → WithinSlotCaps e.fields) :
    WithinSlotCaps (truncateToByteCap (StoreInner.writeFields prev generation fields merge)) := by
  unfold StoreInner.writeFields
  split
  · rename_i e
    split
    · have within := h e rfl
      exact .truncate (mergeFields_distinct fields within.distinct)
        (mergeFields_length fields within.count)
    · exact .snapshot fields
  · exact .snapshot fields

def StoreInner.SlotsWithinCaps (inner : StoreInner) : Prop :=
  ∀ (slot : SlotKey) (e : DeviceState), inner.entries[slot]? = some e → WithinSlotCaps e.fields

theorem Mutation.writes_withinSlotCaps {inner : StoreInner} (within : inner.SlotsWithinCaps)
    {m : Mutation} (fit : m.SeedsFit) {slot : SlotKey} {owner : String} {fields : List KeyValue}
    (h : m.writes inner slot = some (owner, fields)) : WithinSlotCaps fields := by
  cases m with
  | applyDelta =>
      simp only [Mutation.writes] at h
      split at h
      · cases h
        exact .writeFields _ _ _ fun e he => within slot e he
      · cases h
  | replaceSnapshot =>
      simp only [Mutation.writes] at h
      split at h
      · cases h
        exact .snapshot _
      · cases h
  | resetAndSeedDevice =>
      simp only [Mutation.writes] at h
      split at h
      · obtain ⟨f, last, e⟩ := Option.map_eq_some_iff.mp h
        cases e
        refine ⟨snapshotFields_distinct f, snapshotFields_length f, ?_⟩
        rw [fieldsByteEstimate_snapshotFields]
        exact fit _ f last
      · cases h
  | bumpGeneration | restartGeneration | markInstanceStale | markDeviceStale
  | reconcileCapabilities => cases h

theorem StoreInner.SlotsWithinCaps.mutate {inner : StoreInner} (valid : inner.Valid)
    (within : inner.SlotsWithinCaps) {m : Mutation} (fit : m.SeedsFit) :
    (inner.mutate m).SlotsWithinCaps := by
  intro slot e' present
  cases h : m.writes inner slot with
  | some w =>
      obtain ⟨e, he, written⟩ := mutate_written valid h
      obtain rfl : e = e' := Option.some.inj (he.symm.trans present)
      rw [written.fields]
      exact Mutation.writes_withinSlotCaps within fit h
  | none =>
      obtain ⟨e, he, ⟨_, rfl⟩ | ⟨_, recv, flipped⟩⟩ := mutate_carried valid h present
      · exact within slot e' he
      · rw [flipped]
        exact within slot e he

theorem run_slotsWithinCaps (nonce : Vector UInt8 16) (secret : Vector UInt8 32) (ms : List Mutation)
    (fit : ∀ m ∈ ms, m.SeedsFit) :
    ((DeviceStateStore.new nonce secret).run ms).inner.SlotsWithinCaps := by
  induction ms using List.reverseRecOn with
  | nil => exact fun slot e present => by simp [DeviceStateStore.new, StoreInner.default] at present
  | append_singleton ms m ih =>
      rw [DeviceStateStore.run_concat]
      exact (ih fun m' mem => fit m' (List.mem_append_left _ mem)).mutate
        (DeviceStateStore.valid _) (fit m (by simp))

theorem slot_caps_iff_seeds_fit (nonce : Vector UInt8 16) (secret : Vector UInt8 32)
    (ms : List Mutation) :
    (∀ before, before <+: ms → ∀ (slot : SlotKey) (e : DeviceState),
      ((DeviceStateStore.new nonce secret).run before).inner.entries[slot]? = some e →
        WithinSlotCaps e.fields) ↔
      ∀ m ∈ ms, m.SeedsFit := by
  constructor
  · intro within m mem
    obtain ⟨before, after, rfl⟩ := List.append_of_mem mem
    cases m with
    | resetAndSeedDevice d o seeds obs recv =>
        intro c f last
        let store := (DeviceStateStore.new nonce secret).run before
        let seed := Mutation.resetAndSeedDevice d o seeds obs recv
        have writes : seed.writes store.inner (d, c) = some (o, snapshotFields f) := by
          simp [seed, Mutation.writes, last]
        obtain ⟨e, present, written⟩ := StoreInner.mutate_written store.valid writes
        rw [← fieldsByteEstimate_snapshotFields, ← written.fields]
        refine (within (before ++ [seed]) ⟨after, by simp [seed]⟩ (d, c) e ?_).bytes
        rw [DeviceStateStore.run_concat]
        exact present
    | applyDelta | replaceSnapshot | bumpGeneration | restartGeneration | markInstanceStale
    | markDeviceStale | reconcileCapabilities => trivial
  · rintro fit before ⟨after, rfl⟩ slot e present
    exact run_slotsWithinCaps nonce secret before
      (fun m mem => fit m (List.mem_append_left _ mem)) slot e present

theorem oversized_seed_is_stored :
    ¬ ∀ (nonce : Vector UInt8 16) (secret : Vector UInt8 32) (ms : List Mutation) (slot : SlotKey)
      (e : DeviceState), ((DeviceStateStore.new nonce secret).run ms).inner.entries[slot]? = some e →
        WithinSlotCaps e.fields := by
  intro claim
  have size (payload : List UInt8) :
      fieldsByteEstimate (snapshotFields [⟨"blob", .bytesVal payload⟩]) =
        "blob".utf8ByteSize + payload.length := by
    simp [snapshotFields, mergeFieldsUnbounded, setExisting, MAX_FIELDS_PER_SLOT,
      fieldsByteEstimate, keyValueByteEstimate, valueByteEstimate]
  let store := DeviceStateStore.new (.replicate 16 0) (.replicate 32 0)
  let blob : KeyValue := ⟨"blob", .bytesVal (List.replicate (16 * 1024) 0)⟩
  have writes : (Mutation.resetAndSeedDevice "dev-1" "alpha" [("camera", [blob])] 0 1).writes
      store.inner ("dev-1", "camera") = some ("alpha", snapshotFields [blob]) := rfl
  obtain ⟨e, present, written⟩ := StoreInner.mutate_written store.valid writes
  have bound := (claim (.replicate 16 0) (.replicate 32 0)
    [.resetAndSeedDevice "dev-1" "alpha" [("camera", [blob])] 0 1]
    ("dev-1", "camera") e present).bytes
  have key : "blob".utf8ByteSize = 4 := by decide
  rw [written.fields, size, List.length_replicate, key, MAX_BYTES_PER_SLOT] at bound
  omega

end OxidHome.Projection

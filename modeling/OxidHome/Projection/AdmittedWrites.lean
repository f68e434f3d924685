import OxidHome.Projection.Admission
import OxidHome.Projection.SlotCaps

/-!
# Admitted writes

The admission checks measure the last-wins merge that a write would store. What they admit is
stored whole, and what they refuse for its size would have been cut, but for the seeds of
`reset_and_seed_device`: these are cut to the field cap alone.
-/

namespace OxidHome.Projection
open Wit Library Std

/-! ## The measure -/

/-- The map and the running total of `projected_slot_size` for the fields merged so far. -/
structure Measures (seen : TreeMap String Nat) (running : Nat) (merged : List KeyValue) : Prop where
  size : seen.size = merged.length
  running : running = fieldsByteEstimate merged
  bytes : ∀ k : String, seen[k]? =
    (merged.find? fun kv => kv.key = k).map keyValueByteEstimate

theorem Measures.empty : Measures ∅ 0 [] where
  size := by simp
  running := rfl
  bytes := by simp

theorem Measures.push {seen : TreeMap String Nat} {running : Nat} {merged : List KeyValue}
    (measures : Measures seen running merged) (kv : KeyValue) :
    Measures (seen.insert kv.key (keyValueByteEstimate kv))
      (running - seen[kv.key]?.getD 0 + keyValueByteEstimate kv)
      (upsert KeyValue.key merged kv) where
  size := by
    rw [TreeMap.size_insert, length_upsert, TreeMap.contains_eq_isSome_getElem?, measures.bytes,
      Option.isSome_map, measures.size]
  running := by
    have balance : ((upsert KeyValue.key merged kv).map keyValueByteEstimate).sum +
        ((merged.find? fun kv' => kv'.key = kv.key).map keyValueByteEstimate).getD 0 =
          (merged.map keyValueByteEstimate).sum + keyValueByteEstimate kv :=
      sum_upsert keyValueByteEstimate merged kv
    have counted : ((merged.find? fun kv' => kv'.key = kv.key).map keyValueByteEstimate).getD 0 ≤
        (merged.map keyValueByteEstimate).sum := by
      cases found : merged.find? fun kv' => kv'.key = kv.key with
      | none => exact Nat.zero_le _
      | some old =>
          have mem := List.mem_map_of_mem (f := keyValueByteEstimate) (List.mem_of_find?_eq_some found)
          exact List.le_sum_of_mem mem
    rw [measures.bytes, measures.running]
    unfold fieldsByteEstimate
    omega
  bytes := by
    intro k
    rw [getElem?_insert_eq, find?_upsert, measures.bytes]
    split <;> rfl

theorem length_le_merge (prev updates : List KeyValue) :
    prev.length ≤ (merge KeyValue.key prev updates).length := by
  induction updates generalizing prev with
  | nil => exact le_rfl
  | cons kv updates ih =>
      have grown : prev.length ≤ (upsert KeyValue.key prev kv).length := by
        rw [length_upsert]
        split <;> omega
      exact grown.trans (ih _)

theorem projectedSlotSizeLoop_spec {seen : TreeMap String Nat} {running : Nat}
    {merged : List KeyValue} (measures : Measures seen running merged) (incoming : List KeyValue)
    (room : merged.length ≤ MAX_FIELDS_PER_SLOT) :
    let out := merge KeyValue.key merged incoming
    (out.length ≤ MAX_FIELDS_PER_SLOT → fieldsByteEstimate out ≤ MAX_BYTES_PER_SLOT →
      projectedSlotSizeLoop incoming seen running = .ok (out.length, fieldsByteEstimate out)) ∧
    ((MAX_FIELDS_PER_SLOT < out.length ∨ MAX_BYTES_PER_SLOT < fieldsByteEstimate out) →
      ∃ n b, projectedSlotSizeLoop incoming seen running =
        .error (.slot n b MAX_FIELDS_PER_SLOT MAX_BYTES_PER_SLOT)) := by
  induction incoming generalizing seen running merged with
  | nil =>
      simp only [merge_nil, projectedSlotSizeLoop, measures.running, measures.size]
      constructor
      · intro _ fits
        rw [if_neg (Nat.not_lt.mpr fits)]
      · rintro (many | large)
        · exact absurd room (Nat.not_le.mpr many)
        · exact ⟨_, _, if_pos large⟩
  | cons kv incoming ih =>
      have next := measures.push kv
      simp only [merge_cons, projectedSlotSizeLoop]
      by_cases full : (seen.insert kv.key (keyValueByteEstimate kv)).size > MAX_FIELDS_PER_SLOT
      · have many : MAX_FIELDS_PER_SLOT <
            (merge KeyValue.key (upsert KeyValue.key merged kv) incoming).length := by
          rw [next.size] at full
          exact full.trans_le (length_le_merge _ _)
        rw [if_pos full]
        constructor
        · intro fits
          exact absurd fits (Nat.not_le.mpr many)
        · exact fun _ => ⟨_, _, rfl⟩
      · rw [if_neg full]
        apply ih next
        rw [← next.size]
        exact Nat.not_lt.mp full

theorem projectedSlotSize_spec {baseline : List KeyValue} (distinct : DistinctKeys baseline)
    (incoming : List KeyValue) :
    let merged := mergeFieldsUnbounded baseline incoming
    (merged.length ≤ MAX_FIELDS_PER_SLOT → fieldsByteEstimate merged ≤ MAX_BYTES_PER_SLOT →
      projectedSlotSize baseline incoming = .ok (merged.length, fieldsByteEstimate merged)) ∧
    ((MAX_FIELDS_PER_SLOT < merged.length ∨ MAX_BYTES_PER_SLOT < fieldsByteEstimate merged) →
      ∃ n b, projectedSlotSize baseline incoming =
        .error (.slot n b MAX_FIELDS_PER_SLOT MAX_BYTES_PER_SLOT)) := by
  have spec := projectedSlotSizeLoop_spec .empty (baseline ++ incoming) (Nat.zero_le _)
  have same : merge KeyValue.key [] (baseline ++ incoming) =
      mergeFieldsUnbounded baseline incoming := by
    have whole : merge KeyValue.key [] baseline = [] ++ baseline :=
      merge_of_nodup (by simpa [DistinctKeys] using distinct)
    rw [merge_append, whole, List.nil_append, mergeFieldsUnbounded_eq]
  rw [same] at spec
  exact spec

/-! ## What the write keeps -/

theorem mergeFields_of_length_le {prev updates : List KeyValue}
    (room : (mergeFieldsUnbounded prev updates).length ≤ MAX_FIELDS_PER_SLOT) :
    (mergeFields prev updates).1 = mergeFieldsUnbounded prev updates := by
  rw [mergeFieldsUnbounded_eq] at room ⊢
  unfold mergeFields
  suffices h : ∀ state : List KeyValue × Nat,
      (merge KeyValue.key state.1 updates).length ≤ MAX_FIELDS_PER_SLOT →
      (updates.foldl mergeFieldsStep state).1 = merge KeyValue.key state.1 updates from h _ room
  clear room
  induction updates with
  | nil => exact fun _ _ => rfl
  | cons kv updates ih =>
      intro state room
      have fits : (upsert KeyValue.key state.1 kv).length ≤ MAX_FIELDS_PER_SLOT :=
        (length_le_merge _ updates).trans room
      have kept : (mergeFieldsStep state kv).1 = upsert KeyValue.key state.1 kv := by
        obtain ⟨fields, dropped⟩ := state
        simp only [mergeFieldsStep, setExisting_eq]
        cases found : replaceKey? KeyValue.key fields kv with
        | some out => exact (upsert_of_some found).symm
        | none =>
            rw [upsert_of_none found] at fits ⊢
            rw [if_pos (by simpa using fits)]
      rw [List.foldl_cons, merge_cons, ← kept]
      apply ih
      rw [kept]
      exact room

theorem truncateToByteCap_shorter {fields : List KeyValue}
    (large : MAX_BYTES_PER_SLOT < fieldsByteEstimate fields) :
    (truncateToByteCap fields).length < fields.length := by
  have within := (truncateToByteCap_isPrefix fields).length_le
  refine Nat.lt_of_le_of_ne within fun same => ?_
  have whole := (truncateToByteCap_isPrefix fields).eq_of_length same
  have bytes := truncateToByteCap_bytes fields
  rw [whole] at bytes
  exact absurd large (Nat.not_lt.mpr bytes)

def Oversized (merged : List KeyValue) : Prop :=
  MAX_FIELDS_PER_SLOT < merged.length ∨ MAX_BYTES_PER_SLOT < fieldsByteEstimate merged

theorem not_oversized {merged : List KeyValue} (fits : ¬ Oversized merged) :
    merged.length ≤ MAX_FIELDS_PER_SLOT ∧ fieldsByteEstimate merged ≤ MAX_BYTES_PER_SLOT :=
  ⟨Nat.not_lt.mp fun many => fits (.inl many), Nat.not_lt.mp fun large => fits (.inr large)⟩

theorem writeEntry_fields_of_fits {prev incoming : List KeyValue}
    (fits : ¬ Oversized (mergeFieldsUnbounded prev incoming)) :
    truncateToByteCap (mergeFields prev incoming).1 = mergeFieldsUnbounded prev incoming := by
  obtain ⟨count, bytes⟩ := not_oversized fits
  rw [mergeFields_of_length_le count, truncateToByteCap_of_le bytes]

theorem snapshotFields_of_length_le {incoming : List KeyValue}
    (count : (mergeFieldsUnbounded [] incoming).length ≤ MAX_FIELDS_PER_SLOT) :
    snapshotFields incoming = mergeFieldsUnbounded [] incoming :=
  List.take_of_length_le count

theorem writeEntry_fields_of_oversized {prev incoming : List KeyValue}
    (count : prev.length ≤ MAX_FIELDS_PER_SLOT)
    (over_ : Oversized (mergeFieldsUnbounded prev incoming)) :
    (truncateToByteCap (mergeFields prev incoming).1).length <
      (mergeFieldsUnbounded prev incoming).length := by
  by_cases many : MAX_FIELDS_PER_SLOT < (mergeFieldsUnbounded prev incoming).length
  · have kept := (truncateToByteCap_isPrefix (mergeFields prev incoming).1).length_le
    exact (kept.trans (mergeFields_length incoming count)).trans_lt many
  · rw [mergeFields_of_length_le (Nat.not_lt.mp many)]
    exact truncateToByteCap_shorter (over_.resolve_left many)

theorem snapshotFields_of_many {incoming : List KeyValue}
    (many : MAX_FIELDS_PER_SLOT < (mergeFieldsUnbounded [] incoming).length) :
    (snapshotFields incoming).length < (mergeFieldsUnbounded [] incoming).length :=
  (snapshotFields_length incoming).trans_lt many

theorem replace_fields_of_oversized {incoming : List KeyValue}
    (over_ : Oversized (mergeFieldsUnbounded [] incoming)) :
    (truncateToByteCap (snapshotFields incoming)).length <
      (mergeFieldsUnbounded [] incoming).length := by
  by_cases many : MAX_FIELDS_PER_SLOT < (mergeFieldsUnbounded [] incoming).length
  · have kept := (truncateToByteCap_isPrefix (snapshotFields incoming)).length_le
    exact kept.trans_lt (snapshotFields_of_many many)
  · rw [snapshotFields_of_length_le (Nat.not_lt.mp many)]
    exact truncateToByteCap_shorter (over_.resolve_left many)

/-! ## The slots of a run -/

structure Canonical (fields : List KeyValue) : Prop where
  distinct : DistinctKeys fields
  count : fields.length ≤ MAX_FIELDS_PER_SLOT

theorem Canonical.truncate {fields : List KeyValue} (canonical : Canonical fields) :
    Canonical (truncateToByteCap fields) where
  distinct := canonical.distinct.of_isPrefix (truncateToByteCap_isPrefix fields)
  count := (truncateToByteCap_isPrefix fields).length_le.trans canonical.count

theorem Canonical.snapshot (fields : List KeyValue) : Canonical (snapshotFields fields) :=
  ⟨snapshotFields_distinct fields, snapshotFields_length fields⟩

theorem Canonical.writeFields {prev : Option DeviceState} (generation : Nat)
    (fields : List KeyValue) (merge : Bool) (old : ∀ e, prev = some e → Canonical e.fields) :
    Canonical (StoreInner.writeFields prev generation fields merge) := by
  unfold StoreInner.writeFields
  split
  · next e =>
      split
      · have canonical := old e rfl
        exact ⟨mergeFields_distinct fields canonical.distinct,
          mergeFields_length fields canonical.count⟩
      · exact .snapshot fields
  · exact .snapshot fields

def StoreInner.SlotsCanonical (inner : StoreInner) : Prop :=
  ∀ (slot : SlotKey) (e : DeviceState), inner.entries[slot]? = some e → Canonical e.fields

theorem Mutation.writes_canonical {inner : StoreInner} (slots : inner.SlotsCanonical)
    {m : Mutation} {slot : SlotKey} {owner : String} {fields : List KeyValue}
    (written : m.writes inner slot = some (owner, fields)) : Canonical fields := by
  cases m with
  | applyDelta =>
      simp only [Mutation.writes] at written
      split at written
      · cases written
        exact (Canonical.writeFields _ _ _ fun e found => slots slot e found).truncate
      · cases written
  | replaceSnapshot =>
      simp only [Mutation.writes] at written
      split at written
      · cases written
        exact (Canonical.snapshot _).truncate
      · cases written
  | resetAndSeedDevice =>
      simp only [Mutation.writes] at written
      split at written
      · obtain ⟨f, _, same⟩ := Option.map_eq_some_iff.mp written
        cases same
        exact .snapshot f
      · cases written
  | bumpGeneration | restartGeneration | markInstanceStale | markDeviceStale
  | reconcileCapabilities => cases written

theorem StoreInner.SlotsCanonical.mutate {inner : StoreInner} (valid : inner.Valid)
    (slots : inner.SlotsCanonical) (m : Mutation) : (inner.mutate m).SlotsCanonical := by
  intro slot e' present
  cases h : m.writes inner slot with
  | some w =>
      obtain ⟨e, found, written⟩ := mutate_written valid h
      obtain rfl : e = e' := Option.some.inj (found.symm.trans present)
      rw [written.fields]
      exact Mutation.writes_canonical slots h
  | none =>
      obtain ⟨e, found, ⟨_, rfl⟩ | ⟨_, recv, flipped⟩⟩ := mutate_carried valid h present
      · exact slots slot e' found
      · rw [flipped]
        exact slots slot e found

theorem run_slotsCanonical (nonce : Vector UInt8 16) (secret : Vector UInt8 32)
    (ms : List Mutation) : ((DeviceStateStore.new nonce secret).run ms).inner.SlotsCanonical := by
  induction ms using List.reverseRecOn with
  | nil => exact fun slot e present => by simp [DeviceStateStore.new, StoreInner.default] at present
  | append_singleton ms m ih =>
      rw [DeviceStateStore.run_concat]
      exact ih.mutate (DeviceStateStore.valid _) m

/-! ## Admission and write -/

/-- What the admission check answers for the write of `m` to `slot`, and the merge that it measured. -/
def Mutation.admission (inner : StoreInner) (slot : SlotKey) :
    Mutation → Option (Except SlotCapExceeded Unit × List KeyValue)
  | .applyDelta d o c fields _ _ =>
      if slot = (d, c) then
        some (inner.checkDeltaAdmission d o c fields,
          mergeFieldsUnbounded (inner.deltaBaseline slot o) fields)
      else none
  | .replaceSnapshot d _ c fields _ _ =>
      if slot = (d, c) then
        some (checkSnapshotAdmission fields, mergeFieldsUnbounded [] fields)
      else none
  | .resetAndSeedDevice d _ initialState _ _ =>
      if slot.1 = d then
        (lastSeed initialState slot.2).map fun f =>
          (checkSnapshotAdmission f, mergeFieldsUnbounded [] f)
      else none
  | _ => none

/-- An admitted merge is stored whole; a merge refused for its size is too large, and is cut. -/
structure Agrees (answer : Except SlotCapExceeded Unit) (merged stored : List KeyValue) : Prop where
  admitted : answer = .ok () → stored = merged
  refused : ∀ projectedFields projectedBytes capFields capBytes,
    answer = .error (.slot projectedFields projectedBytes capFields capBytes) →
      Oversized merged ∧ stored.length < merged.length

/-- A seed is cut to the field cap alone. -/
def Mutation.Cuts (merged : List KeyValue) : Mutation → Prop
  | .resetAndSeedDevice .. =>
      fieldsByteEstimate merged ≤ MAX_BYTES_PER_SLOT ∨ MAX_FIELDS_PER_SLOT < merged.length
  | _ => True

theorem checkDeltaAdmission_ok {inner : StoreInner} {d o c : String} {fields : List KeyValue}
    (distinct : DistinctKeys (inner.deltaBaseline (d, c) o))
    (admitted : inner.checkDeltaAdmission d o c fields = .ok ()) :
    ¬ Oversized (mergeFieldsUnbounded (inner.deltaBaseline (d, c) o) fields) := by
  intro over_
  obtain ⟨n, b, refused⟩ := (projectedSlotSize_spec distinct fields).2 over_
  simp only [StoreInner.checkDeltaAdmission, refused] at admitted
  cases admitted

theorem checkDeltaAdmission_slot {inner : StoreInner} {d o c : String} {fields : List KeyValue}
    (distinct : DistinctKeys (inner.deltaBaseline (d, c) o)) {pf pb cf cb : Nat}
    (refused : inner.checkDeltaAdmission d o c fields = .error (.slot pf pb cf cb)) :
    Oversized (mergeFieldsUnbounded (inner.deltaBaseline (d, c) o) fields) := by
  by_contra fits
  obtain ⟨count, bytes⟩ := not_oversized fits
  have measured := (projectedSlotSize_spec distinct fields).1 count bytes
  simp only [StoreInner.checkDeltaAdmission, measured, StoreInner.checkInstanceCapsLocked] at refused
  split at refused
  · cases refused
  · cases refused

theorem checkSnapshotAdmission_eq (fields : List KeyValue) :
    (checkSnapshotAdmission fields = .ok () ↔ ¬ Oversized (mergeFieldsUnbounded [] fields)) ∧
      ((∃ pf pb cf cb, checkSnapshotAdmission fields = .error (.slot pf pb cf cb)) ↔
        Oversized (mergeFieldsUnbounded [] fields)) := by
  have empty : DistinctKeys [] := List.nodup_nil
  have spec := projectedSlotSize_spec empty fields
  unfold checkSnapshotAdmission
  by_cases over_ : Oversized (mergeFieldsUnbounded [] fields)
  · obtain ⟨n, b, refused⟩ := spec.2 over_
    rw [refused]
    exact ⟨by simp [Except.map, over_], iff_of_true ⟨n, b, _, _, rfl⟩ over_⟩
  · obtain ⟨count, bytes⟩ := not_oversized over_
    rw [spec.1 count bytes]
    exact ⟨by simp [Except.map, over_], by simp [Except.map, over_]⟩

theorem writeFields_delta (inner : StoreInner) (slot : SlotKey) (o : String)
    (fields : List KeyValue) :
    (¬ Oversized (mergeFieldsUnbounded (inner.deltaBaseline slot o) fields) →
      truncateToByteCap (StoreInner.writeFields inner.entries[slot]? (inner.generation o) fields true) =
        mergeFieldsUnbounded (inner.deltaBaseline slot o) fields) ∧
    ((inner.deltaBaseline slot o).length ≤ MAX_FIELDS_PER_SLOT →
      Oversized (mergeFieldsUnbounded (inner.deltaBaseline slot o) fields) →
      (truncateToByteCap
        (StoreInner.writeFields inner.entries[slot]? (inner.generation o) fields true)).length <
        (mergeFieldsUnbounded (inner.deltaBaseline slot o) fields).length) := by
  have replace : ∀ incoming : List KeyValue, ¬ Oversized (mergeFieldsUnbounded [] incoming) →
      truncateToByteCap (snapshotFields incoming) = mergeFieldsUnbounded [] incoming := by
    intro incoming fits
    obtain ⟨count, bytes⟩ := not_oversized fits
    rw [snapshotFields_of_length_le count, truncateToByteCap_of_le bytes]
  unfold StoreInner.deltaBaseline StoreInner.writeFields
  cases inner.entries[slot]? with
  | none => exact ⟨replace fields, fun _ over_ => replace_fields_of_oversized over_⟩
  | some prev =>
      by_cases merges : prev.quality = .fresh ∧ prev.sourceGeneration = inner.generation o
      · simp only [if_pos merges]
        exact ⟨writeEntry_fields_of_fits, writeEntry_fields_of_oversized⟩
      · simp only [if_neg merges]
        exact ⟨replace fields, fun _ over_ => replace_fields_of_oversized over_⟩

theorem deltaBaseline_canonical {inner : StoreInner} (slots : inner.SlotsCanonical)
    (slot : SlotKey) (o : String) : Canonical (inner.deltaBaseline slot o) := by
  unfold StoreInner.deltaBaseline
  split
  · next prev found =>
      split
      · exact slots slot prev found
      · exact ⟨by simp [DistinctKeys], Nat.zero_le _⟩
  · exact ⟨by simp [DistinctKeys], Nat.zero_le _⟩

theorem agrees_of_spec {answer : Except SlotCapExceeded Unit} {merged stored : List KeyValue}
    (admitted : answer = .ok () → ¬ Oversized merged)
    (refused : ∀ pf pb cf cb, answer = .error (.slot pf pb cf cb) → Oversized merged)
    (whole : ¬ Oversized merged → stored = merged)
    (cut : Oversized merged → stored.length < merged.length) : Agrees answer merged stored where
  admitted ok := whole (admitted ok)
  refused pf pb cf cb slot := ⟨refused pf pb cf cb slot, cut (refused pf pb cf cb slot)⟩

theorem seed_agrees (fields : List KeyValue) :
    Agrees (checkSnapshotAdmission fields) (mergeFieldsUnbounded [] fields)
        (snapshotFields fields) ↔
      fieldsByteEstimate (mergeFieldsUnbounded [] fields) ≤ MAX_BYTES_PER_SLOT ∨
        MAX_FIELDS_PER_SLOT < (mergeFieldsUnbounded [] fields).length := by
  obtain ⟨ok, slot⟩ := checkSnapshotAdmission_eq fields
  constructor
  · intro agrees
    by_contra neither
    obtain ⟨large, few⟩ := not_or.mp neither
    have whole := snapshotFields_of_length_le (Nat.not_lt.mp few)
    obtain ⟨pf, pb, cf, cb, refused⟩ := slot.mpr (.inr (Nat.not_le.mp large))
    have cut := (agrees.refused pf pb cf cb refused).2
    rw [whole] at cut
    exact Nat.lt_irrefl _ cut
  · intro cuts
    apply agrees_of_spec ok.mp fun pf pb cf cb refused => slot.mp ⟨pf, pb, cf, cb, refused⟩
    · exact fun fits => snapshotFields_of_length_le (not_oversized fits).1
    · intro large
      apply snapshotFields_of_many
      rcases cuts with bytes | many
      · exact large.resolve_right (Nat.not_lt.mpr bytes)
      · exact many

theorem admission_agrees_with_write (nonce : Vector UInt8 16) (secret : Vector UInt8 32)
    (ms : List Mutation) (m : Mutation) (slot : SlotKey) (answer : Except SlotCapExceeded Unit)
    (merged : List KeyValue)
    (checked : m.admission ((DeviceStateStore.new nonce secret).run ms).inner slot =
      some (answer, merged)) :
    ∃ e, ((DeviceStateStore.new nonce secret).run (ms ++ [m])).inner.entries[slot]? = some e ∧
      (Agrees answer merged e.fields ↔ m.Cuts merged) := by
  rw [DeviceStateStore.run_concat]
  have valid := DeviceStateStore.valid ((DeviceStateStore.new nonce secret).run ms)
  have slots := run_slotsCanonical nonce secret ms
  show ∃ e, (((DeviceStateStore.new nonce secret).run ms).inner.mutate m).entries[slot]? = some e ∧ _
  generalize ((DeviceStateStore.new nonce secret).run ms).inner = inner at checked valid slots
  cases m with
  | applyDelta d o c fields obs recv =>
      simp only [Mutation.admission, Option.ite_none_right_eq_some, Option.some.injEq,
        Prod.mk.injEq] at checked
      obtain ⟨here, rfl, rfl⟩ := checked
      have writes : (Mutation.applyDelta d o c fields obs recv).writes inner slot =
          some (o, truncateToByteCap
            (StoreInner.writeFields inner.entries[slot]? (inner.generation o) fields true)) :=
        if_pos here
      obtain ⟨e, found, written⟩ := StoreInner.mutate_written valid writes
      refine ⟨e, found, iff_of_true ?_ trivial⟩
      subst here
      have canonical := deltaBaseline_canonical slots (d, c) o
      obtain ⟨whole, cut⟩ := writeFields_delta inner (d, c) o fields
      rw [written.fields]
      exact agrees_of_spec (checkDeltaAdmission_ok canonical.distinct)
        (fun _ _ _ _ => checkDeltaAdmission_slot canonical.distinct) whole (cut canonical.count)
  | replaceSnapshot d o c fields obs recv =>
      simp only [Mutation.admission, Option.ite_none_right_eq_some, Option.some.injEq,
        Prod.mk.injEq] at checked
      obtain ⟨here, rfl, rfl⟩ := checked
      have writes : (Mutation.replaceSnapshot d o c fields obs recv).writes inner slot =
          some (o, truncateToByteCap (snapshotFields fields)) := if_pos here
      obtain ⟨e, found, written⟩ := StoreInner.mutate_written valid writes
      refine ⟨e, found, iff_of_true ?_ trivial⟩
      obtain ⟨ok, refused⟩ := checkSnapshotAdmission_eq fields
      rw [written.fields]
      apply agrees_of_spec ok.mp fun pf pb cf cb slot => refused.mp ⟨pf, pb, cf, cb, slot⟩
      · intro fits
        obtain ⟨count, bytes⟩ := not_oversized fits
        rw [snapshotFields_of_length_le count, truncateToByteCap_of_le bytes]
      · exact replace_fields_of_oversized
  | resetAndSeedDevice d o initialState obs recv =>
      simp only [Mutation.admission, Option.ite_none_right_eq_some, Option.map_eq_some_iff,
        Prod.mk.injEq] at checked
      obtain ⟨device, fields, last, rfl, rfl⟩ := checked
      have writes : (Mutation.resetAndSeedDevice d o initialState obs recv).writes inner slot =
          some (o, snapshotFields fields) := by
        simp only [Mutation.writes, if_pos device, last, Option.map_some]
      obtain ⟨e, found, written⟩ := StoreInner.mutate_written valid writes
      refine ⟨e, found, ?_⟩
      rw [written.fields]
      exact seed_agrees fields
  | bumpGeneration | restartGeneration | markInstanceStale | markDeviceStale
  | reconcileCapabilities => cases checked

theorem delta_agrees_with_write :
    ∃ e, ((DeviceStateStore.new (.replicate 16 0) (.replicate 32 0)).run
        ([.applyDelta "dev-1" "alpha" "light" [⟨"on", .boolVal true⟩] 0 1] ++
          [.applyDelta "dev-1" "alpha" "light" [⟨"level", .intVal 3⟩, ⟨"on", .boolVal false⟩] 0 2])
        ).inner.entries[(("dev-1", "light") : SlotKey)]? = some e ∧
      (Agrees (.ok ()) [⟨"on", .boolVal false⟩, ⟨"level", .intVal 3⟩] e.fields ↔ True) :=
  admission_agrees_with_write _ _ _ _ ("dev-1", "light") _ _ (by decide +kernel)

theorem refused_seed_is_stored_whole :
    ¬ ∀ (nonce : Vector UInt8 16) (secret : Vector UInt8 32) (ms : List Mutation) (m : Mutation)
      (slot : SlotKey) (answer : Except SlotCapExceeded Unit) (merged : List KeyValue)
      (e : DeviceState),
      m.admission ((DeviceStateStore.new nonce secret).run ms).inner slot = some (answer, merged) →
      ((DeviceStateStore.new nonce secret).run (ms ++ [m])).inner.entries[slot]? = some e →
        Agrees answer merged e.fields := by
  intro claim
  let blob : KeyValue := ⟨"blob", .bytesVal (List.replicate (16 * 1024) 0)⟩
  let seed := Mutation.resetAndSeedDevice "dev-1" "alpha" [("camera", [blob])] 0 1
  let store := DeviceStateStore.new (.replicate 16 0) (.replicate 32 0)
  have writes : seed.writes store.inner ("dev-1", "camera") =
      some ("alpha", snapshotFields [blob]) := rfl
  obtain ⟨e, present, written⟩ := StoreInner.mutate_written store.valid writes
  have agrees := claim (.replicate 16 0) (.replicate 32 0) [] seed ("dev-1", "camera")
    (checkSnapshotAdmission [blob]) (mergeFieldsUnbounded [] [blob]) e rfl present
  rw [written.fields, seed_agrees] at agrees
  have merged : mergeFieldsUnbounded [] [blob] = [blob] := rfl
  have size : fieldsByteEstimate [blob] = "blob".utf8ByteSize + 16 * 1024 := by
    simp only [blob, fieldsByteEstimate, keyValueByteEstimate, valueByteEstimate, List.map_cons,
      List.map_nil, List.sum_singleton, List.length_replicate]
  have key : "blob".utf8ByteSize = 4 := by decide
  rw [merged, size, key] at agrees
  simp [MAX_BYTES_PER_SLOT, MAX_FIELDS_PER_SLOT] at agrees

end OxidHome.Projection

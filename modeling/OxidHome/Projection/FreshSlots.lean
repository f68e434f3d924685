import OxidHome.Projection.InstanceAdmission

/-!
# Fresh slots

What a mutation leaves of the fresh slots of other devices and other owners, and what it adds to
the total of an owner when the write has been admitted.
-/

namespace OxidHome.Projection
open Wit Library Std

namespace Mutation

def device : Mutation → Option DeviceId
  | .applyDelta d .. | .replaceSnapshot d .. | .resetAndSeedDevice d .. | .markDeviceStale d _
  | .reconcileCapabilities d .. => some d
  | _ => none

/-- The owner whose slots a mutation sweeps, whatever their device. -/
def sweptOwner : Mutation → Option String
  | .restartGeneration o _ | .markInstanceStale o _ => some o
  | _ => none

theorem writes_device {m : Mutation} {inner : StoreInner} {slot : SlotKey} {d : DeviceId}
    (about : m.device = some d) (apart : slot.1 ≠ d) : m.writes inner slot = none := by
  cases m with
  | applyDelta | replaceSnapshot =>
      cases about
      exact if_neg fun same => apart (congrArg Prod.fst same)
  | resetAndSeedDevice =>
      cases about
      exact if_neg apart
  | bumpGeneration | restartGeneration | markInstanceStale | markDeviceStale
  | reconcileCapabilities => rfl

theorem sweeps_device {m : Mutation} {slot : SlotKey} {e : DeviceState} {d : DeviceId}
    (about : m.device = some d) (apart : slot.1 ≠ d) : m.sweeps slot e = false := by
  cases m with
  | applyDelta | replaceSnapshot | bumpGeneration => rfl
  | resetAndSeedDevice | markDeviceStale | reconcileCapabilities =>
      cases about
      exact decide_eq_false fun hit => apart hit.1
  | restartGeneration | markInstanceStale => cases about

end Mutation

namespace StoreInner
variable {inner next : StoreInner} {slot : SlotKey} {e : DeviceState} {m : Mutation}

theorem mutate_elsewhere (valid : inner.Valid) {d : DeviceId} (about : m.device = some d)
    (apart : slot.1 ≠ d) (fresh : e.quality = .fresh) :
    (inner.mutate m).entries[slot]? = some e ↔ inner.entries[slot]? = some e := by
  have silent : m.writes inner slot = none := Mutation.writes_device about apart
  constructor
  · intro after
    rcases mutate_fresh valid after fresh with ⟨owner, fields, written, _⟩ | ⟨_, before, _⟩
    · rw [silent] at written
      cases written
    · exact before
  · intro before
    exact mutate_kept valid silent before fresh (Mutation.sweeps_device about apart)

theorem mutate_other_owner (valid : inner.Valid) {o : String} (about : m.sweptOwner = some o)
    (apart : e.ownerInstance ≠ o) (fresh : e.quality = .fresh) :
    (inner.mutate m).entries[slot]? = some e ↔ inner.entries[slot]? = some e := by
  have silent : m.writes inner slot = none := by
    cases m with
    | restartGeneration | markInstanceStale => rfl
    | _ => cases about
  have spared : m.sweeps slot e = false := by
    cases m with
    | restartGeneration | markInstanceStale =>
        cases about
        exact decide_eq_false fun hit => apart hit.1
    | _ => cases about
  constructor
  · intro after
    rcases mutate_fresh valid after fresh with ⟨owner, fields, written, _⟩ | ⟨_, before, _⟩
    · rw [silent] at written
      cases written
    · exact before
  · exact fun before => mutate_kept valid silent before fresh spared

theorem mutate_swept_owner (valid : inner.Valid) {o : String} (about : m.sweptOwner = some o)
    (after : (inner.mutate m).entries[slot]? = some e) (fresh : e.quality = .fresh) :
    e.ownerInstance ≠ o := by
  intro own
  rcases mutate_fresh valid after fresh with ⟨owner, fields, written, _⟩ | ⟨_, _, spared⟩
  · cases m with
    | restartGeneration | markInstanceStale => cases written
    | _ => cases about
  · cases m with
    | restartGeneration | markInstanceStale =>
        cases about
        exact absurd ⟨own, fresh⟩ (of_decide_eq_false spared)
    | _ => cases about

def freshAt (inner : StoreInner) (slot : SlotKey) : Option DeviceState :=
  inner.entries[slot]?.filter (·.quality = .fresh)

theorem freshAt_eq_some : inner.freshAt slot = some e ↔
    inner.entries[slot]? = some e ∧ e.quality = .fresh := by
  simp [freshAt, Option.filter_eq_some_iff]

theorem share_le {o : String}
    (kept : ∀ e, next.entries[slot]? = some e → e.quality = .fresh → e.ownerInstance = o →
      inner.entries[slot]? = some e) :
    next.entries[slot]?.elim 0 (share o slot) ≤ inner.entries[slot]?.elim 0 (share o slot) := by
  cases found : next.entries[slot]? with
  | none => exact Nat.zero_le _
  | some e =>
      rw [Option.elim_some]
      rcases Nat.eq_zero_or_pos (share o slot e) with none | counts
      · rw [none]
        exact Nat.zero_le _
      · obtain ⟨own, fresh⟩ := share_pos counts
        rw [kept e found fresh own]
        exact Nat.le_refl _

theorem ownerTotal_le {o : String}
    (kept : ∀ (slot : SlotKey) (e : DeviceState), next.entries[slot]? = some e →
      e.quality = .fresh → e.ownerInstance = o → inner.entries[slot]? = some e) :
    next.ownerTotal o ≤ inner.ownerTotal o := by
  rw [ownerTotal_eq, ownerTotal_eq]
  exact weight_le_weight fun slot => share_le (kept slot)

theorem ownerTotal_congr {o : String}
    (same : ∀ (slot : SlotKey) (e : DeviceState), e.quality = .fresh → e.ownerInstance = o →
      (next.entries[slot]? = some e ↔ inner.entries[slot]? = some e)) :
    next.ownerTotal o = inner.ownerTotal o :=
  Nat.le_antisymm
    (ownerTotal_le fun slot e found fresh own => (same slot e fresh own).mp found)
    (ownerTotal_le fun slot e found fresh own => (same slot e fresh own).mpr found)

theorem ownerTotal_eq_zero {o : String}
    (none : ∀ (slot : SlotKey) (e : DeviceState), inner.entries[slot]? = some e →
      e.quality = .fresh → e.ownerInstance ≠ o) : inner.ownerTotal o = 0 := by
  have unpaid : ∀ (slot : SlotKey) (e : DeviceState), inner.entries[slot]? = some e →
      0 < share o slot e → ∃ n, (slot, n) ∈ ([] : List (SlotKey × Nat)) ∧ share o slot e ≤ n := by
    intro slot e found counts
    obtain ⟨own, fresh⟩ := share_pos counts
    exact absurd own (none slot e found fresh)
  rw [ownerTotal_eq, ← Nat.le_zero]
  exact weight_le_sum unpaid

theorem deltaBaseline_eq (inner : StoreInner) (slot : SlotKey) (o : String) :
    inner.deltaBaseline slot o = match inner.freshAt slot with
      | some prev => if prev.sourceGeneration = inner.generation o then prev.fields else []
      | none => [] := by
  unfold deltaBaseline freshAt
  cases inner.entries[slot]? with
  | none => rfl
  | some prev =>
      by_cases fresh : prev.quality = .fresh
      · simp [Option.filter, fresh]
      · simp [Option.filter, fresh]

theorem oldSlotBytes_eq (inner : StoreInner) (slot : SlotKey) :
    inner.oldSlotBytes slot = (inner.freshAt slot).elim 0 DeviceState.fieldByteEstimate := by
  unfold oldSlotBytes freshAt
  cases inner.entries[slot]? with
  | none => rfl
  | some prev =>
      by_cases fresh : prev.quality = .fresh
      · simp [Option.filter, fresh]
      · simp [Option.filter, fresh]

theorem checkDeltaAdmission_congr {d o c : String} (fields : List KeyValue)
    (slot : next.freshAt (d, c) = inner.freshAt (d, c))
    (total : next.ownerTotal o = inner.ownerTotal o)
    (generation : next.generation o = inner.generation o) :
    next.checkDeltaAdmission d o c fields = inner.checkDeltaAdmission d o c fields := by
  unfold checkDeltaAdmission checkInstanceCapsLocked
  simp only [deltaBaseline_eq, oldSlotBytes_eq, slot, total, generation]

theorem checkInstanceSnapshotAdmission_congr {d o c : String} (fields : List KeyValue)
    (slot : next.freshAt (d, c) = inner.freshAt (d, c))
    (total : next.ownerTotal o = inner.ownerTotal o) :
    next.checkInstanceSnapshotAdmission d o c fields =
      inner.checkInstanceSnapshotAdmission d o c fields := by
  unfold checkInstanceSnapshotAdmission checkInstanceCapsLocked
  simp only [oldSlotBytes_eq, slot, total]

theorem oldDeviceBytes_congr {d : DeviceId}
    (slots : ∀ slot : SlotKey, slot.1 = d → next.freshAt slot = inner.freshAt slot) :
    next.oldDeviceBytes d = inner.oldDeviceBytes d := by
  rw [oldDeviceBytes_eq, oldDeviceBytes_eq]
  have byFresh : ∀ (inner : StoreInner) (key : SlotKey), inner.entries[key]?.elim 0
      (fun e => if key.1 = d ∧ e.quality = .fresh then e.fieldByteEstimate else 0) =
        if key.1 = d then (inner.freshAt key).elim 0 DeviceState.fieldByteEstimate else 0 := by
    intro inner key
    unfold freshAt
    cases inner.entries[key]? with
    | none => simp
    | some e =>
        by_cases fresh : e.quality = .fresh
        · simp [Option.filter, fresh]
        · simp [Option.filter, fresh]
  apply weight_eq_weight
  intro key
  rw [byFresh, byFresh]
  split_ifs with device
  · rw [slots key device]
  · rfl

theorem checkInstanceRegisterAdmission_congr {d : DeviceId} {o : String}
    (seedState : List (String × List KeyValue))
    (slots : ∀ slot : SlotKey, slot.1 = d → next.freshAt slot = inner.freshAt slot)
    (total : next.ownerTotal o = inner.ownerTotal o) :
    next.checkInstanceRegisterAdmission d o seedState =
      inner.checkInstanceRegisterAdmission d o seedState := by
  unfold checkInstanceRegisterAdmission checkInstanceCapsLocked
  simp only [oldDeviceBytes_congr slots, total]

theorem ownerTotal_written {o : String} {fields : List KeyValue}
    (own : ∀ e, inner.freshAt slot = some e → e.ownerInstance = o)
    (others : ∀ key : SlotKey, slot ≠ key → ∀ e, next.entries[key]? = some e →
      e.quality = .fresh → e.ownerInstance = o → inner.entries[key]? = some e)
    (here : ∀ e, next.entries[slot]? = some e → e.fields = fields) :
    next.ownerTotal o + inner.oldSlotBytes slot ≤
      inner.ownerTotal o + fieldsByteEstimate fields := by
  have old : inner.oldSlotBytes slot = inner.entries[slot]?.elim 0 (share o slot) := by
    rw [oldSlotBytes_eq]
    cases found : inner.freshAt slot with
    | none =>
        cases entry : inner.entries[slot]? with
        | none => rfl
        | some e =>
            rw [Option.elim_none, Option.elim_some, share, if_neg]
            rintro ⟨_, fresh⟩
            rw [freshAt_eq_some.mpr ⟨entry, fresh⟩] at found
            cases found
    | some e =>
        obtain ⟨entry, fresh⟩ := freshAt_eq_some.mp found
        rw [entry, Option.elim_some, Option.elim_some, share_of_fresh (own e found) fresh]
        rfl
  rw [ownerTotal_eq, ownerTotal_eq, old]
  apply weight_replaced
  · exact fun key apart => share_le (others key apart)
  · cases found : next.entries[slot]? with
    | none => exact Nat.zero_le _
    | some e =>
        rw [Option.elim_some, share]
        split_ifs
        · rw [DeviceState.fieldByteEstimate, here e found]
        · exact Nat.zero_le _

theorem ownerTotal_seeded {d : DeviceId} {o : String} {seedState : List (String × List KeyValue)}
    (own : ∀ (slot : SlotKey) (e : DeviceState), slot.1 = d → inner.freshAt slot = some e →
      e.ownerInstance = o)
    (others : ∀ slot : SlotKey, slot.1 ≠ d → ∀ e, next.entries[slot]? = some e →
      e.quality = .fresh → e.ownerInstance = o → inner.entries[slot]? = some e)
    (here : ∀ slot : SlotKey, slot.1 = d → ∀ e, next.entries[slot]? = some e →
      e.quality = .fresh → ∃ seed ∈ seedState, seed.1 = slot.2 ∧ e.fields = snapshotFields seed.2) :
    next.ownerTotal o + inner.oldDeviceBytes d ≤ inner.ownerTotal o +
      (seedState.map fun seed => fieldsByteEstimate (snapshotFields seed.2)).sum := by
  have old : inner.oldDeviceBytes d =
      weight (fun key e => if key.1 = d then share o key e else 0) inner.entries := by
    rw [oldDeviceBytes_eq]
    apply weight_congr
    intro key e found
    by_cases device : key.1 = d
    · by_cases fresh : e.quality = .fresh
      · rw [if_pos ⟨device, fresh⟩, if_pos device,
          share_of_fresh (own key e device (freshAt_eq_some.mpr ⟨found, fresh⟩)) fresh]
        rfl
      · rw [if_neg fun both => fresh both.2, if_pos device, share, if_neg fun both => fresh both.2]
    · rw [if_neg fun both => device both.1, if_neg device]
  have seeded : weight (fun key e => if key.1 = d then share o key e else 0) next.entries ≤
      (seedState.map fun seed => fieldsByteEstimate (snapshotFields seed.2)).sum := by
    have paid : (seedState.map fun seed => fieldsByteEstimate (snapshotFields seed.2)) =
        (seedState.map fun seed =>
          (((d, seed.1) : SlotKey), fieldsByteEstimate (snapshotFields seed.2))).map Prod.snd := by
      rw [List.map_map]
      rfl
    rw [paid]
    apply weight_le_sum
    intro key e found counts
    split_ifs at counts with device
    · obtain ⟨_, fresh⟩ := share_pos counts
      obtain ⟨seed, mem, named, stored⟩ := here key device e found fresh
      refine ⟨fieldsByteEstimate (snapshotFields seed.2), ?_, ?_⟩
      · apply List.mem_map.mpr
        exact ⟨seed, mem, Prod.ext (Prod.ext device.symm named) rfl⟩
      · rw [if_pos device, ← stored, share]
        split_ifs
        · exact Nat.le_refl _
        · exact Nat.zero_le _
    · exact absurd counts (Nat.lt_irrefl 0)
  have rest : weight (fun key e => if key.1 = d then 0 else share o key e) next.entries ≤
      weight (fun key e => if key.1 = d then 0 else share o key e) inner.entries := by
    apply weight_le_weight
    intro key
    by_cases device : key.1 = d
    · simp only [if_pos device]
      cases next.entries[key]? with
      | none => exact Nat.zero_le _
      | some e => exact Nat.zero_le _
    · simp only [if_neg device]
      exact share_le (others key device)
  have before := weight_split (share o) (fun key : SlotKey => key.1 = d) inner.entries
  have after := weight_split (share o) (fun key : SlotKey => key.1 = d) next.entries
  rw [ownerTotal_eq, ownerTotal_eq, old]
  omega

theorem SlotsWithinCaps.canonical (within : inner.SlotsWithinCaps) : inner.SlotsCanonical :=
  fun slot e found => ⟨(within slot e found).distinct, (within slot e found).count⟩

theorem ownerTotal_admitted (valid : inner.Valid) {o : String} {fields : List KeyValue}
    (written : m.writes inner slot = some (o, fields))
    (others : ∀ key : SlotKey, slot ≠ key → m.writes inner key = none)
    (own : ∀ e, inner.freshAt slot = some e → e.ownerInstance = o)
    (admitted : inner.checkInstanceCapsLocked o (inner.oldSlotBytes slot)
      (fieldsByteEstimate fields) = .ok ()) :
    (inner.mutate m).ownerTotal o ≤ MAX_PROJECTED_BYTES_PER_INSTANCE := by
  have moved : (inner.mutate m).ownerTotal o + inner.oldSlotBytes slot ≤
      inner.ownerTotal o + fieldsByteEstimate fields := by
    apply ownerTotal_written own
    · intro key apart e found fresh _
      rcases mutate_fresh valid found fresh with ⟨_, _, again, _⟩ | ⟨_, before, _⟩
      · rw [others key apart] at again
        cases again
      · exact before
    · intro e found
      obtain ⟨e', there, as⟩ := mutate_written valid written
      rw [there] at found
      cases found
      exact as.fields
  have room := checkInstanceCapsLocked_eq_ok.mp admitted
  omega

theorem ownerTotal_delta (valid : inner.Valid) (within : inner.SlotsWithinCaps) {d o c : String}
    {fields : List KeyValue} (obs : UInt64) (recv : Int)
    (own : ∀ e, inner.freshAt (d, c) = some e → e.ownerInstance = o)
    (admitted : inner.checkDeltaAdmission d o c fields = .ok ()) :
    (inner.mutate (.applyDelta d o c fields obs recv)).ownerTotal o ≤
      MAX_PROJECTED_BYTES_PER_INSTANCE := by
  have distinct := (deltaBaseline_canonical within.canonical (d, c) o).distinct
  have fits := checkDeltaAdmission_ok distinct admitted
  have whole := (writeFields_delta inner (d, c) o fields).1 fits
  have writes : (Mutation.applyDelta d o c fields obs recv).writes inner (d, c) =
      some (o, mergeFieldsUnbounded (inner.deltaBaseline (d, c) o) fields) := by
    rw [← whole]
    exact if_pos rfl
  apply ownerTotal_admitted valid writes (fun key apart => if_neg apart.symm) own
  obtain ⟨few, small⟩ := not_oversized fits
  unfold checkDeltaAdmission at admitted
  simp only [(projectedSlotSize_spec distinct fields).1 few small] at admitted
  exact admitted

theorem ownerTotal_snapshot (valid : inner.Valid) {d o c : String} {fields : List KeyValue}
    (obs : UInt64) (recv : Int) (own : ∀ e, inner.freshAt (d, c) = some e → e.ownerInstance = o)
    (admitted : inner.checkInstanceSnapshotAdmission d o c fields = .ok ()) :
    (inner.mutate (.replaceSnapshot d o c (canonicalizeSnapshotFields fields) obs recv)).ownerTotal o
      ≤ MAX_PROJECTED_BYTES_PER_INSTANCE := by
  have empty : DistinctKeys [] := List.nodup_nil
  unfold checkInstanceSnapshotAdmission at admitted
  split at admitted
  · cases admitted
  · next count bytes measured =>
      obtain ⟨fits, rfl⟩ := projectedSlotSize_eq_ok empty measured
      obtain ⟨few, small⟩ := not_oversized fits
      have again : mergeFieldsUnbounded [] (mergeFieldsUnbounded [] fields) =
          mergeFieldsUnbounded [] fields :=
        mergeFieldsUnbounded_self (mergeFieldsUnbounded_distinct fields empty)
      have stored : truncateToByteCap (snapshotFields (mergeFieldsUnbounded [] fields)) =
          mergeFieldsUnbounded [] fields := by
        rw [snapshotFields_of_length_le (by rw [again]; exact few), again,
          truncateToByteCap_of_le small]
      rw [canonicalizeSnapshotFields_eq]
      have writes : (Mutation.replaceSnapshot d o c (mergeFieldsUnbounded [] fields) obs
          recv).writes inner (d, c) = some (o, mergeFieldsUnbounded [] fields) := by
        rw [Mutation.writes, if_pos rfl, stored]
      exact ownerTotal_admitted valid writes (fun key apart => if_neg apart.symm) own admitted

theorem lastSeed_mem {seedState : List (String × List KeyValue)} {c : String}
    {fields : List KeyValue} (last : lastSeed seedState c = some fields) :
    (c, fields) ∈ seedState := by
  obtain ⟨⟨name, f⟩, found, rfl⟩ := Option.map_eq_some_iff.mp last
  obtain ⟨mem, rfl⟩ := mem_of_lastOf found
  exact mem

theorem seeds_fit {d o : String} {seedState : List (String × List KeyValue)}
    (admitted : inner.checkInstanceRegisterAdmission d o seedState = .ok ()) :
    (∀ seed ∈ seedState, ¬ Oversized (mergeFieldsUnbounded [] seed.2)) ∧
      inner.checkInstanceCapsLocked o (inner.oldDeviceBytes d)
        (seedState.map fun seed => fieldsByteEstimate (snapshotFields seed.2)).sum = .ok () := by
  unfold checkInstanceRegisterAdmission at admitted
  split at admitted
  · cases admitted
  · next bytes measured =>
      obtain ⟨fit, sum⟩ := newDeviceBytes_eq_ok measured
      refine ⟨fit, ?_⟩
      have same : (seedState.map fun seed => fieldsByteEstimate (snapshotFields seed.2)) =
          seedState.map fun seed => fieldsByteEstimate (mergeFieldsUnbounded [] seed.2) := by
        apply List.map_congr_left
        intro seed mem
        rw [snapshotFields_of_length_le (not_oversized (fit seed mem)).1]
      rw [same]
      rw [Nat.zero_add] at sum
      rw [← sum]
      exact admitted

theorem seedsFit_of_admitted {d o : String} {seedState : List (String × List KeyValue)}
    (obs : UInt64) (recv : Int)
    (admitted : inner.checkInstanceRegisterAdmission d o seedState = .ok ()) :
    (Mutation.resetAndSeedDevice d o seedState obs recv).SeedsFit := by
  intro c fields last
  have fits := (seeds_fit admitted).1 (c, fields) (lastSeed_mem last)
  obtain ⟨few, small⟩ := not_oversized fits
  rw [← fieldsByteEstimate_snapshotFields, snapshotFields_of_length_le few]
  exact small

theorem writes_seed {d o owner : String} {seedState : List (String × List KeyValue)} {obs : UInt64}
    {recv : Int} {fields : List KeyValue}
    (written : (Mutation.resetAndSeedDevice d o seedState obs recv).writes inner slot =
      some (owner, fields)) :
    slot.1 = d ∧ owner = o ∧ ∃ seed ∈ seedState, seed.1 = slot.2 ∧ fields = snapshotFields seed.2 := by
  simp only [Mutation.writes] at written
  split_ifs at written with device
  obtain ⟨f, last, same⟩ := Option.map_eq_some_iff.mp written
  cases same
  exact ⟨device, rfl, (slot.2, f), lastSeed_mem last, rfl, rfl⟩

theorem ownerTotal_seed (valid : inner.Valid) {d o : String}
    {seedState : List (String × List KeyValue)} (obs : UInt64) (recv : Int)
    (own : ∀ (slot : SlotKey) (e : DeviceState), slot.1 = d → inner.freshAt slot = some e →
      e.ownerInstance = o)
    (admitted : inner.checkInstanceRegisterAdmission d o seedState = .ok ()) :
    (inner.mutate (.resetAndSeedDevice d o seedState obs recv)).ownerTotal o ≤
      MAX_PROJECTED_BYTES_PER_INSTANCE := by
  have moved : (inner.mutate (.resetAndSeedDevice d o seedState obs recv)).ownerTotal o +
      inner.oldDeviceBytes d ≤ inner.ownerTotal o +
        (seedState.map fun seed => fieldsByteEstimate (snapshotFields seed.2)).sum := by
    apply ownerTotal_seeded own
    · intro slot apart e found fresh _
      exact (mutate_elsewhere valid rfl apart fresh).mp found
    · intro slot device e found fresh
      rcases mutate_fresh valid found fresh with ⟨_, _, written, as⟩ | ⟨_, _, unswept⟩
      · obtain ⟨_, _, seed, mem, named, stored⟩ := writes_seed written
        exact ⟨seed, mem, named, as.fields.trans stored⟩
      · exact absurd ⟨device, fresh⟩ (of_decide_eq_false unswept)
  have room := checkInstanceCapsLocked_eq_ok.mp (seeds_fit admitted).2
  omega

end StoreInner

end OxidHome.Projection

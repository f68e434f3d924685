import OxidHome.Storage.Kv

/-!
# The KV store as a quota-bounded map

The stored rows are a map from `(installation_uuid, instance_id, key)` to payloads. The usage table,
kept by the triggers, always holds the size of each tuple's part of it, so the arithmetic of `set`
decides by what the map would hold after the write.
-/

namespace OxidHome.Storage
open Wit Library History

namespace KvStore

def value? (s : KvStore) (installationUuid instanceId key : String) : Option (List UInt8) :=
  (s.row? installationUuid instanceId key).map KvRow.value

/-- The bytes of all keys of a tuple with their payloads. -/
def bytes (s : KvStore) (installationUuid instanceId : String) : Nat :=
  bytesOf KvRow.tuple KvRow.bytes s.kv (installationUuid, instanceId)

/-- Those bytes once `key` maps to `payload`. -/
def bytesAfter (s : KvStore) (installationUuid instanceId key : String) (payload : List UInt8) :
    Nat :=
  bytesOf KvRow.tuple KvRow.bytes
    (upsert KvRow.primaryKey s.kv ⟨installationUuid, instanceId, key, payload, 0⟩)
    (installationUuid, instanceId)

structure KvInv (s : KvStore) : Prop where
  keys : (s.kv.map KvRow.primaryKey).Nodup
  balanced : Balanced KvRow.tuple KvRow.bytes s.kv s.usageTable
  quota : ∀ t u, s.usageTable.find t = some u → 0 ≤ u.bytesQuota

end KvStore

open KvStore in
structure KvLaw (toVec : Json → List UInt8) (s : KvStore) : Prop where
  keys : (s.kv.map KvRow.primaryKey).Nodup
  used : ∀ uuid inst used quota, s.usage uuid inst = some (used, quota) → used = s.bytes uuid inst
  registered : ∀ uuid inst quota,
    (s.registerInstance uuid inst quota).usage uuid inst =
        some (s.bytes uuid inst, min quota I64_MAX) ∧
      (∀ u i k, (s.registerInstance uuid inst quota).value? u i k = s.value? u i k) ∧
      ∀ u i, (u, i) ≠ (uuid, inst) → (s.registerInstance uuid inst quota).usage u i = s.usage u i
  set_within : ∀ uuid inst key value now used quota, s.usage uuid inst = some (used, quota) →
    s.bytesAfter uuid inst key (toVec (.ofValue value)) ≤ quota →
      ∃ t, s.set toVec uuid inst key value now = .ok t
  set_unregistered : ∀ uuid inst key value now,
    s.set toVec uuid inst key value now = .error (.unregisteredInstance uuid inst) ↔
      s.usage uuid inst = none
  set_ok : ∀ uuid inst key value now t, s.set toVec uuid inst key value now = .ok t →
    (∃ used quota, t.usage uuid inst = some (used, quota) ∧ used ≤ quota) ∧
      t.value? uuid inst key = some (toVec (.ofValue value)) ∧
      (∀ u i k, (u, i, k) ≠ (uuid, inst, key) → t.value? u i k = s.value? u i k) ∧
      ∀ u i, (u, i) ≠ (uuid, inst) → t.usage u i = s.usage u i
  set_refused : ∀ uuid inst key value now wouldUse allowed,
    s.set toVec uuid inst key value now = .error (.quotaExceeded uuid inst wouldUse allowed) ↔
      ∃ used, s.usage uuid inst = some (used, allowed) ∧
        wouldUse = s.bytesAfter uuid inst key (toVec (.ofValue value)) ∧ allowed < wouldUse
  set_failed : ∀ uuid inst key value now err, s.set toVec uuid inst key value now = .error err →
    s.apply toVec (.set uuid inst key value now) = s
  delete : ∀ uuid inst key, (s.delete uuid inst key).value? uuid inst key = none ∧
    (∀ u i k, (u, i, k) ≠ (uuid, inst, key) → (s.delete uuid inst key).value? u i k = s.value? u i k) ∧
    ∀ u i, (u, i) ≠ (uuid, inst) → (s.delete uuid inst key).usage u i = s.usage u i
  purged : ∀ uuid inst, (s.purgeInstallation uuid).usage uuid inst = none ∧
    ∀ key, (s.purgeInstallation uuid).value? uuid inst key = none
  purge_kept : ∀ uuid u inst, u ≠ uuid →
    (s.purgeInstallation uuid).usage u inst = s.usage u inst ∧
      ∀ key, (s.purgeInstallation uuid).value? u inst key = s.value? u inst key

namespace KvStore

section
variable {s : KvStore}

theorem charge_insertOrUpdate (s : KvStore) (row : KvRow) :
    (s.insertOrUpdate row).usageTable = s.usageTable.charge row.tuple
      (row.bytes - (((s.kv.find? (·.primaryKey = row.primaryKey)).map KvRow.bytes).getD 0 : Nat)) := by
  have key : (row.installationUuid, row.instanceId, row.key) = row.primaryKey := rfl
  simp only [insertOrUpdate, row?, key]
  congr 1
  cases old : s.kv.find? (·.primaryKey = row.primaryKey) with
  | none => simp [KvRow.bytes]
  | some before =>
      have same : before.primaryKey = row.primaryKey := by simpa using List.find?_some old
      simp only [KvRow.primaryKey, Prod.mk.injEq] at same
      simp only [Option.map_some, Option.getD_some, KvRow.bytes, same.2.2]
      omega

theorem KvInv.insertOrUpdate (inv : s.KvInv) {row : KvRow}
    (known : (s.usageTable.find row.tuple).isSome) : (s.insertOrUpdate row).KvInv where
  keys := upsert_nodup row inv.keys
  balanced := by
    rw [charge_insertOrUpdate]
    exact inv.balanced.upsert KvRow.primaryKey_tuple known
  quota := by
    intro t u found
    rw [charge_insertOrUpdate, Usage.find_charge, Option.map_eq_some_iff] at found
    obtain ⟨before, here, rfl⟩ := found
    have := inv.quota t before here
    split <;> exact this

theorem KvInv.register (inv : s.KvInv) (uuid inst : String) (quota : Nat) :
    (s.registerInstance uuid inst quota).KvInv where
  keys := inv.keys
  balanced := inv.balanced.register uuid inst quota
  quota := by
    intro t u found
    rw [registerInstance, Usage.find_register] at found
    split at found
    · cases found
      exact Int.natCast_nonneg _
    · exact inv.quota t u found

theorem KvInv.delete (inv : s.KvInv) (uuid inst key : String) : (s.delete uuid inst key).KvInv where
  keys := inv.keys.sublist (List.filter_sublist.map _)
  balanced := inv.balanced.delete _
  quota := by
    intro t u found
    rw [KvStore.delete, find_refund, Option.map_eq_some_iff] at found
    obtain ⟨before, here, rfl⟩ := found
    exact inv.quota t before here

theorem KvInv.purge (inv : s.KvInv) (uuid : String) : (s.purgeInstallation uuid).KvInv where
  keys := inv.keys.sublist (List.filter_sublist.map _)
  balanced := inv.balanced.purge uuid
  quota := by
    intro t u found
    rw [purgeInstallation, find_refund, Option.map_eq_some_iff] at found
    obtain ⟨before, here, rfl⟩ := found
    rw [Usage.find_purge] at here
    split at here
    · cases here
    · exact inv.quota t before here

theorem projected_eq (inv : s.KvInv) {uuid inst key : String} {payload : List UInt8} {u : UsageRow}
    (here : s.usageTable.find (uuid, inst) = some u) :
    u.bytesUsed - (((s.row? uuid inst key).map KvRow.bytes).getD 0 : Nat) +
        (key.utf8ByteSize + payload.length : Int) = s.bytesAfter uuid inst key payload := by
  have sums := bytesOf_upsert KvRow.bytes KvRow.primaryKey_tuple s.kv
    ⟨uuid, inst, key, payload, 0⟩ (uuid, inst)
  simp only [KvRow.tuple, if_true] at sums
  change s.bytesAfter uuid inst key payload +
    ((s.row? uuid inst key).map KvRow.bytes).getD 0 =
      s.bytes uuid inst + (key.utf8ByteSize + payload.length) at sums
  have used : u.bytesUsed = s.bytes uuid inst := inv.balanced.used _ u here
  omega

theorem bytes_insertOrUpdate (s : KvStore) (uuid inst key : String) (payload : List UInt8)
    (now : Int) :
    (s.insertOrUpdate ⟨uuid, inst, key, payload, now⟩).bytes uuid inst =
      s.bytesAfter uuid inst key payload := by
  have first := bytesOf_upsert KvRow.bytes KvRow.primaryKey_tuple s.kv
    ⟨uuid, inst, key, payload, now⟩ (uuid, inst)
  have second := bytesOf_upsert KvRow.bytes KvRow.primaryKey_tuple s.kv
    ⟨uuid, inst, key, payload, 0⟩ (uuid, inst)
  exact Nat.add_right_cancel (first.trans second.symm)

theorem set_cases (inv : s.KvInv) (toVec : Json → List UInt8) (uuid inst key : String)
    (value : Value) (now : Int) :
    let after := s.bytesAfter uuid inst key (toVec (.ofValue value))
    (s.usageTable.find (uuid, inst) = none ∧
        s.set toVec uuid inst key value now = .error (.unregisteredInstance uuid inst)) ∨
      ∃ u, s.usageTable.find (uuid, inst) = some u ∧
        ((u.bytesQuota < after ∧ s.set toVec uuid inst key value now =
            .error (.quotaExceeded uuid inst after u.bytesQuota.toNat)) ∨
          (after ≤ u.bytesQuota ∧ s.set toVec uuid inst key value now =
            .ok (s.insertOrUpdate ⟨uuid, inst, key, toVec (.ofValue value), now⟩))) := by
  intro after
  unfold set
  cases here : s.usageTable.find (uuid, inst) with
  | none => exact Or.inl ⟨rfl, rfl⟩
  | some u =>
      right
      refine ⟨u, rfl, ?_⟩
      dsimp only
      rw [projected_eq inv here]
      by_cases beyond : u.bytesQuota < after
      · left
        rw [if_pos beyond, Int.toNat_natCast]
        exact ⟨beyond, rfl⟩
      · right
        rw [if_neg beyond]
        exact ⟨Int.not_lt.mp beyond, rfl⟩

theorem KvInv.apply (inv : s.KvInv) (toVec : Json → List UInt8) (a : KvAction) :
    (s.apply toVec a).KvInv := by
  cases a with
  | registerInstance uuid inst quota => exact inv.register uuid inst quota
  | set uuid inst key value now =>
      rcases set_cases inv toVec uuid inst key value now with
        ⟨_, failed⟩ | ⟨u, here, ⟨_, failed⟩ | ⟨_, done⟩⟩
      · simpa only [KvStore.apply, failed] using inv
      · simpa only [KvStore.apply, failed] using inv
      · simp only [KvStore.apply, done]
        apply inv.insertOrUpdate
        rw [KvRow.tuple, here]
        rfl
  | delete uuid inst key => exact inv.delete uuid inst key
  | purgeInstallation uuid => exact inv.purge uuid

theorem KvInv.run (toVec : Json → List UInt8) (acts : List KvAction) : (run toVec acts).KvInv := by
  induction acts using List.reverseRecOn with
  | nil => exact ⟨.nil, .nil (by simp [Usage.find, KvStore.run, new]), by simp [Usage.find, KvStore.run, new]⟩
  | append_singleton acts a ih =>
      rw [KvStore.run, List.foldl_concat]
      exact ih.apply toVec a

theorem usage_eq_some (s : KvStore) {uuid inst : String} {used quota : Nat} :
    s.usage uuid inst = some (used, quota) ↔ ∃ u, s.usageTable.find (uuid, inst) = some u ∧
      u.bytesUsed.toNat = used ∧ u.bytesQuota.toNat = quota := by
  simp only [usage, Option.map_eq_some_iff, Prod.mk.injEq]

theorem usage_eq_none (s : KvStore) {uuid inst : String} :
    s.usage uuid inst = none ↔ s.usageTable.find (uuid, inst) = none := by
  rw [usage, Option.map_eq_none_iff]

theorem bytes_unregistered (inv : s.KvInv) {uuid inst : String}
    (none : s.usageTable.find (uuid, inst) = none) : s.bytes uuid inst = 0 := by
  apply bytesOf_eq_zero
  intro row mem same
  have known := inv.balanced.registered row mem
  rw [same, none] at known
  cases known

theorem usage_registerInstance (inv : s.KvInv) (uuid inst : String) (quota : Nat) :
    (s.registerInstance uuid inst quota).usage uuid inst =
      some (s.bytes uuid inst, min quota I64_MAX) := by
  refine (usage_eq_some _).mpr ⟨_, (Usage.find_register ..).trans (if_pos rfl), ?_, ?_⟩
  · cases here : s.usageTable.find (uuid, inst) with
    | none =>
        rw [bytes_unregistered inv here]
        rfl
    | some u =>
        rw [Option.map_some, Option.getD_some, inv.balanced.used _ u here]
        exact Int.toNat_natCast _
  · exact Int.toNat_natCast _

theorem usage_registerInstance_other (s : KvStore) {uuid inst u i : String} (quota : Nat)
    (other : (u, i) ≠ (uuid, inst)) :
    (s.registerInstance uuid inst quota).usage u i = s.usage u i := by
  rw [usage, registerInstance, Usage.find_register, if_neg other.symm]
  rfl

theorem usage_insertOrUpdate (inv : s.KvInv) {uuid inst key : String} {payload : List UInt8}
    {now : Int} {u : UsageRow} (here : s.usageTable.find (uuid, inst) = some u) :
    (s.insertOrUpdate ⟨uuid, inst, key, payload, now⟩).usage uuid inst =
      some (s.bytesAfter uuid inst key payload, u.bytesQuota.toNat) := by
  have known : (s.usageTable.find (uuid, inst)).isSome := by rw [here]; rfl
  have after : (s.insertOrUpdate ⟨uuid, inst, key, payload, now⟩).KvInv := inv.insertOrUpdate known
  have find := charge_insertOrUpdate s ⟨uuid, inst, key, payload, now⟩
  generalize (KvRow.bytes _ - _ : Int) = delta at find
  have found : (s.insertOrUpdate ⟨uuid, inst, key, payload, now⟩).usageTable.find (uuid, inst) =
      some { u with bytesUsed := u.bytesUsed + delta } := by
    rw [find, Usage.find_charge, here, Option.map_some]
    exact congrArg some (if_pos rfl)
  refine usage_eq_some _ |>.mpr ⟨_, found, ?_, rfl⟩
  rw [after.balanced.used _ _ found, Int.toNat_natCast, ← bytes_insertOrUpdate s uuid inst key payload now]
  rfl

theorem usage_insertOrUpdate_other (s : KvStore) (row : KvRow) {u i : String}
    (other : (u, i) ≠ row.tuple) : (s.insertOrUpdate row).usage u i = s.usage u i := by
  simp only [usage, charge_insertOrUpdate, Usage.find_charge, if_neg other, Option.map_map,
    Function.comp_def]

theorem usage_refund {rows : List KvRow} {table : Usage} {deleted : List KvRow} {uuid inst : String}
    (other : ∀ row ∈ deleted, row.tuple ≠ (uuid, inst)) :
    usage ⟨rows, refund KvRow.tuple KvRow.bytes table deleted⟩ uuid inst =
      usage ⟨rows, table⟩ uuid inst := by
  simp only [usage, find_refund, bytesOf_eq_zero other, Option.map_map, Function.comp_def,
    Int.natCast_zero, Int.sub_zero]

theorem value?_insertOrUpdate (row : KvRow) (u i k : String) :
    (s.insertOrUpdate row).value? u i k =
      if row.primaryKey = (u, i, k) then some row.value else s.value? u i k := by
  unfold value? row? insertOrUpdate
  rw [find?_upsert]
  split <;> rfl

theorem value?_filter (p : KvRow → Bool) (table : Usage) (u i k : String)
    (kept : ∀ row : KvRow, row.primaryKey = (u, i, k) → p row = true) :
    value? ⟨s.kv.filter p, table⟩ u i k = s.value? u i k := by
  unfold value? row?
  rw [List.find?_filter]
  congr 1
  apply List.find?_congr
  intro row _
  by_cases same : row.primaryKey = (u, i, k)
  · simp [same, kept row same]
  · simp [same]

theorem value?_none (p : KvRow → Bool) (table : Usage) (u i k : String)
    (gone : ∀ row : KvRow, row.primaryKey = (u, i, k) → p row = false) :
    value? ⟨s.kv.filter p, table⟩ u i k = none := by
  unfold value? row?
  rw [List.find?_filter, Option.map_eq_none_iff, List.find?_eq_none]
  intro row _
  by_cases same : row.primaryKey = (u, i, k)
  · simp [gone row same]
  · simp [same]

end

end KvStore

open KvStore in
theorem kv_refines_quota_map (toVec : Json → List UInt8) (acts : List KvAction) :
    KvLaw toVec (run toVec acts) := by
  have inv := KvInv.run toVec acts
  generalize run toVec acts = s at inv ⊢
  refine ⟨inv.keys, ?used, ?registered, ?setWithin, ?setUnregistered, ?setOk, ?setRefused, ?setFailed,
    ?delete, ?purged, ?purgeKept⟩
  case used =>
    intro uuid inst used quota answered
    obtain ⟨u, here, rfl, _⟩ := s.usage_eq_some.mp answered
    rw [inv.balanced.used _ u here]
    rfl
  case registered =>
    intro uuid inst quota
    exact ⟨usage_registerInstance inv uuid inst quota, fun _ _ _ => rfl,
      fun _ _ other => usage_registerInstance_other s quota other⟩
  case setWithin =>
    intro uuid inst key value now used quota registered within
    obtain ⟨u, here, _, rfl⟩ := s.usage_eq_some.mp registered
    rcases set_cases inv toVec uuid inst key value now with
      ⟨none, _⟩ | ⟨u', again, ⟨beyond, _⟩ | ⟨_, written⟩⟩
    · cases none.symm.trans here
    · cases again.symm.trans here
      have positive := inv.quota _ u here
      omega
    · exact ⟨_, written⟩
  case setUnregistered =>
    intro uuid inst key value now
    rw [usage_eq_none]
    rcases set_cases inv toVec uuid inst key value now with
      ⟨none, failed⟩ | ⟨u, here, ⟨_, failed⟩ | ⟨_, written⟩⟩
    · simp [failed, none]
    · simp [failed, here]
    · simp [written, here]
  case setOk =>
    intro uuid inst key value now t done
    rcases set_cases inv toVec uuid inst key value now with
      ⟨_, failed⟩ | ⟨u, here, ⟨_, failed⟩ | ⟨fits, written⟩⟩
    · cases failed.symm.trans done
    · cases failed.symm.trans done
    · cases written.symm.trans done
      refine ⟨⟨_, _, usage_insertOrUpdate inv here, by omega⟩, ?_, ?_, ?_⟩
      · rw [value?_insertOrUpdate]
        exact if_pos rfl
      · intro u i k other
        rw [value?_insertOrUpdate]
        exact if_neg other.symm
      · intro u i other
        exact usage_insertOrUpdate_other s _ other
  case setRefused =>
    intro uuid inst key value now wouldUse allowed
    rcases set_cases inv toVec uuid inst key value now with
      ⟨none, failed⟩ | ⟨u, here, ⟨beyond, failed⟩ | ⟨fits, written⟩⟩
    · simp [failed, usage, none]
    · have positive := inv.quota _ u here
      simp only [failed, usage_eq_some, here, Except.error.injEq, KvError.quotaExceeded.injEq,
        true_and, Option.some.injEq, exists_eq_left']
      constructor
      · intro ⟨same, cap⟩
        exact ⟨_, ⟨rfl, cap⟩, same.symm, by omega⟩
      · intro ⟨used, ⟨_, cap⟩, same, _⟩
        exact ⟨same.symm, cap⟩
    · simp only [written, usage_eq_some, here, Option.some.injEq, exists_eq_left', reduceCtorEq,
        false_iff]
      intro ⟨used, ⟨_, cap⟩, same, beyond⟩
      omega
  case setFailed =>
    intro uuid inst key value now err failed
    simp only [KvStore.apply, failed]
  case delete =>
    intro uuid inst key
    refine ⟨?_, ?_, ?_⟩
    · apply value?_none
      intro row same
      simp [same]
    · intro u i k other
      apply value?_filter
      intro row same
      have apart : row.primaryKey ≠ (uuid, inst, key) := same ▸ other
      simp [apart]
    · intro u i other
      apply usage_refund
      intro row mem same
      have chosen : row.primaryKey = (uuid, inst, key) := by simpa using List.of_mem_filter mem
      simp only [KvRow.primaryKey, Prod.mk.injEq] at chosen
      exact other (same.symm.trans (Prod.ext chosen.1 chosen.2.1))
  case purged =>
    intro uuid inst
    constructor
    · simp [usage, purgeInstallation, find_refund, Usage.find_purge]
    · intro key
      apply value?_none
      intro row same
      simp only [KvRow.primaryKey, Prod.mk.injEq] at same
      simp [KvRow.tuple, same.1]
  case purgeKept =>
    intro uuid u inst other
    constructor
    · rw [purgeInstallation, usage_refund]
      · simp [usage, Usage.find_purge, other]
      · intro row mem same
        have chosen : row.tuple.1 = uuid := by simpa using List.of_mem_filter mem
        exact other (by rw [← chosen, same])
    · intro key
      apply value?_filter
      intro row same
      simp only [KvRow.primaryKey, Prod.mk.injEq] at same
      simpa [KvRow.tuple, same.1] using other

end OxidHome.Storage

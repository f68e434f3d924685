import OxidHome.Wit
import OxidHome.Library.Keyed
import OxidHome.Library.TreeMaps

/-!
# Field vectors of a slot

The merge, truncation and measuring helpers of `state/device_state.rs`. Byte counts are `usize`
in the source; no vector that fits in memory makes one overflow, so they are natural numbers here.
-/

namespace OxidHome.Projection
open Wit Library Std

def MAX_FIELDS_PER_SLOT : Nat := 64
def MAX_BYTES_PER_SLOT : Nat := 16 * 1024
def MAX_PROJECTED_BYTES_PER_INSTANCE : Nat := 16 * 1024 * 1024

def valueByteEstimate : Value → Nat
  | .boolVal _ => 1
  | .intVal _ | .floatVal _ => 8
  | .stringVal s | .jsonVal s => s.utf8ByteSize
  | .bytesVal b => b.length

def keyValueByteEstimate (kv : KeyValue) : Nat := kv.key.utf8ByteSize + valueByteEstimate kv.value

def fieldsByteEstimate (fields : List KeyValue) : Nat := (fields.map keyValueByteEstimate).sum

/-- `iter_mut().find(|kv| kv.key == update.key)` and the assignment to the value found. -/
def setExisting : List KeyValue → KeyValue → Option (List KeyValue)
  | [], _ => none
  | kv :: rest, update =>
      if kv.key = update.key then some ({ kv with value := update.value } :: rest)
      else (setExisting rest update).map (kv :: ·)

def mergeFieldsStep : List KeyValue × Nat → KeyValue → List KeyValue × Nat
  | (out, dropped), update =>
      match setExisting out update with
      | some out => (out, dropped)
      | none =>
          if out.length < MAX_FIELDS_PER_SLOT then (out ++ [update], dropped)
          else (out, dropped + 1)

def mergeFields (prev updates : List KeyValue) : List KeyValue × Nat :=
  updates.foldl mergeFieldsStep (prev, 0)

def mergeFieldsUnbounded (prev updates : List KeyValue) : List KeyValue :=
  updates.foldl (fun out update =>
    match setExisting out update with
    | some out => out
    | none => out ++ [update]) prev

def keepWithinBytes : List KeyValue → Nat → List KeyValue
  | [], _ => []
  | kv :: rest, running =>
      let n := keyValueByteEstimate kv
      if running + n > MAX_BYTES_PER_SLOT then [] else kv :: keepWithinBytes rest (running + n)

def truncateToByteCap (fields : List KeyValue) : List KeyValue :=
  if fieldsByteEstimate fields ≤ MAX_BYTES_PER_SLOT then fields else keepWithinBytes fields 0

def snapshotFields (fields : List KeyValue) : List KeyValue :=
  (mergeFieldsUnbounded [] fields).take MAX_FIELDS_PER_SLOT

inductive SlotCapExceeded where
  | slot (projectedFields projectedBytes capFields capBytes : Nat)
  | instance (projectedInstanceBytes capInstanceBytes : Nat)
deriving DecidableEq, Repr

/-- The loop of `projected_slot_size`: bytes per key seen so far, and their running total. -/
def projectedSlotSizeLoop : List KeyValue → TreeMap String Nat → Nat →
    Except SlotCapExceeded (Nat × Nat)
  | [], seen, runningBytes =>
      if runningBytes > MAX_BYTES_PER_SLOT then
        .error (.slot seen.size runningBytes MAX_FIELDS_PER_SLOT MAX_BYTES_PER_SLOT)
      else .ok (seen.size, runningBytes)
  | kv :: rest, seen, runningBytes =>
      let bytes := keyValueByteEstimate kv
      let prev := seen[kv.key]?
      let seen := seen.insert kv.key bytes
      let runningBytes := runningBytes - prev.getD 0 + bytes
      if seen.size > MAX_FIELDS_PER_SLOT then
        .error (.slot seen.size runningBytes MAX_FIELDS_PER_SLOT MAX_BYTES_PER_SLOT)
      else projectedSlotSizeLoop rest seen runningBytes

def projectedSlotSize (baseline incoming : List KeyValue) : Except SlotCapExceeded (Nat × Nat) :=
  projectedSlotSizeLoop (baseline ++ incoming) ∅ 0

theorem setExisting_eq (out : List KeyValue) (update : KeyValue) :
    setExisting out update = replaceKey? KeyValue.key out update := by
  induction out with
  | nil => rfl
  | cons kv rest ih =>
      by_cases h : kv.key = update.key
      · simp [setExisting, replaceKey?, h]
      · simp [setExisting, replaceKey?, h, ih]

theorem mergeFieldsUnbounded_eq (prev updates : List KeyValue) :
    mergeFieldsUnbounded prev updates = merge KeyValue.key prev updates := by
  unfold mergeFieldsUnbounded merge
  congr 1
  funext out update
  rw [setExisting_eq, upsert]
  cases replaceKey? KeyValue.key out update <;> rfl

def DistinctKeys (fields : List KeyValue) : Prop := (fields.map KeyValue.key).Nodup

theorem mergeFieldsUnbounded_distinct {prev : List KeyValue} (updates : List KeyValue)
    (h : DistinctKeys prev) : DistinctKeys (mergeFieldsUnbounded prev updates) := by
  rw [mergeFieldsUnbounded_eq]
  exact merge_nodup updates h

theorem mergeFieldsUnbounded_self {fields : List KeyValue} (h : DistinctKeys fields) :
    mergeFieldsUnbounded [] fields = fields := by
  rw [mergeFieldsUnbounded_eq]
  exact merge_of_nodup h

theorem mem_mergeFieldsUnbounded {prev updates : List KeyValue} {kv : KeyValue}
    (h : kv ∈ mergeFieldsUnbounded prev updates) : kv ∈ updates ∨ kv ∈ prev := by
  rw [mergeFieldsUnbounded_eq] at h
  exact mem_merge h

theorem mergeFieldsStep_cases (state : List KeyValue × Nat) (update : KeyValue) :
    mergeFieldsStep state update = (upsert KeyValue.key state.1 update, state.2) ∧
        (upsert KeyValue.key state.1 update).length ≤ max state.1.length MAX_FIELDS_PER_SLOT ∨
      mergeFieldsStep state update = (state.1, state.2 + 1) := by
  obtain ⟨kept, dropped⟩ := state
  simp only [mergeFieldsStep, setExisting_eq]
  cases found : replaceKey? KeyValue.key kept update with
  | some out =>
      left
      rw [upsert_of_some found]
      refine ⟨rfl, le_max_of_le_left ?_⟩
      simpa using (congrArg List.length (replaceKey?_keys found)).le
  | none =>
      rw [upsert_of_none found]
      by_cases room : kept.length < MAX_FIELDS_PER_SLOT
      · left
        simp only [room, if_true, List.length_append, List.length_singleton, true_and]
        omega
      · right
        simp [room]

theorem mergeFields_induction {P : List KeyValue → Prop} {prev updates : List KeyValue}
    (start : P prev)
    (step : ∀ out, P out → ∀ update ∈ updates,
      (upsert KeyValue.key out update).length ≤ max out.length MAX_FIELDS_PER_SLOT →
      P (upsert KeyValue.key out update)) : P (mergeFields prev updates).1 := by
  unfold mergeFields
  suffices h : ∀ state : List KeyValue × Nat, P state.1 →
      P (updates.foldl mergeFieldsStep state).1 from h _ start
  induction updates with
  | nil => exact fun _ h => h
  | cons update updates ih =>
      intro state hs
      rw [List.foldl_cons]
      have ih' := ih fun out ho u mem => step out ho u (List.mem_cons_of_mem _ mem)
      rcases mergeFieldsStep_cases state update with ⟨e, room⟩ | e
      · rw [e]
        exact ih' _ (step _ hs update List.mem_cons_self room)
      · rw [e]
        exact ih' _ hs

theorem mergeFields_distinct {prev : List KeyValue} (updates : List KeyValue)
    (h : DistinctKeys prev) : DistinctKeys (mergeFields prev updates).1 :=
  mergeFields_induction h fun _ ho _ _ _ => upsert_nodup _ ho

theorem mergeFields_length {prev : List KeyValue} (updates : List KeyValue)
    (h : prev.length ≤ MAX_FIELDS_PER_SLOT) :
    (mergeFields prev updates).1.length ≤ MAX_FIELDS_PER_SLOT :=
  mergeFields_induction (P := fun out => out.length ≤ MAX_FIELDS_PER_SLOT) h
    fun _ ho _ _ room => room.trans (max_le ho le_rfl)

theorem mem_mergeFields {prev updates : List KeyValue} {kv : KeyValue}
    (h : kv ∈ (mergeFields prev updates).1) : kv ∈ updates ∨ kv ∈ prev := by
  have all : ∀ kv ∈ (mergeFields prev updates).1, kv ∈ updates ∨ kv ∈ prev := by
    apply mergeFields_induction (P := fun out => ∀ kv ∈ out, kv ∈ updates ∨ kv ∈ prev)
    · exact fun kv mem => Or.inr mem
    · intro out ho update mem _ kv hkv
      rcases mem_upsert hkv with rfl | old
      · exact Or.inl mem
      · exact ho kv old
  exact all kv h

theorem keepWithinBytes_isPrefix (fields : List KeyValue) (running : Nat) :
    keepWithinBytes fields running <+: fields := by
  induction fields generalizing running with
  | nil => exact List.nil_prefix
  | cons kv rest ih =>
      simp only [keepWithinBytes]
      split
      · exact List.nil_prefix
      · exact (List.prefix_cons_inj kv).mpr (ih _)

theorem keepWithinBytes_bytes (fields : List KeyValue) {running : Nat}
    (h : running ≤ MAX_BYTES_PER_SLOT) :
    running + fieldsByteEstimate (keepWithinBytes fields running) ≤ MAX_BYTES_PER_SLOT := by
  induction fields generalizing running with
  | nil => simpa [keepWithinBytes, fieldsByteEstimate] using h
  | cons kv rest ih =>
      simp only [keepWithinBytes]
      split
      · simpa [fieldsByteEstimate] using h
      · rename_i fits
        have := ih (Nat.le_of_not_lt fits)
        simp only [fieldsByteEstimate, List.map_cons, List.sum_cons] at this ⊢
        omega

theorem truncateToByteCap_isPrefix (fields : List KeyValue) : truncateToByteCap fields <+: fields := by
  unfold truncateToByteCap
  split
  · exact List.prefix_rfl
  · exact keepWithinBytes_isPrefix fields 0

theorem truncateToByteCap_bytes (fields : List KeyValue) :
    fieldsByteEstimate (truncateToByteCap fields) ≤ MAX_BYTES_PER_SLOT := by
  unfold truncateToByteCap
  split
  · assumption
  · simpa using keepWithinBytes_bytes fields (Nat.zero_le _)

theorem truncateToByteCap_of_le {fields : List KeyValue}
    (h : fieldsByteEstimate fields ≤ MAX_BYTES_PER_SLOT) : truncateToByteCap fields = fields :=
  if_pos h

theorem DistinctKeys.of_isPrefix {kept fields : List KeyValue} (h : DistinctKeys fields)
    (p : kept <+: fields) : DistinctKeys kept :=
  (p.sublist.map _).nodup h

theorem snapshotFields_distinct (fields : List KeyValue) : DistinctKeys (snapshotFields fields) :=
  (mergeFieldsUnbounded_distinct fields (by simp [DistinctKeys])).of_isPrefix (List.take_prefix _ _)

theorem snapshotFields_length (fields : List KeyValue) :
    (snapshotFields fields).length ≤ MAX_FIELDS_PER_SLOT := by
  simp [snapshotFields]

theorem mem_snapshotFields {fields : List KeyValue} {kv : KeyValue}
    (h : kv ∈ snapshotFields fields) : kv ∈ fields := by
  rcases mem_mergeFieldsUnbounded (List.mem_of_mem_take h) with h | h
  · exact h
  · cases h

end OxidHome.Projection

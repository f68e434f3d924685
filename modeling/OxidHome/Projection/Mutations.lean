import OxidHome.Projection.Revisions

/-!
# What a mutation does to one slot

Every operation either writes a slot with a fresh entry, or leaves it alone, or sweeps it stale.
`writes` and `sweeps` say which; the lemmas here are all that later invariants need to know about
the eight operations.
-/

namespace OxidHome.Projection
open Wit Library Std

def lastSeed (initialState : List (String × List KeyValue)) (capability : String) :
    Option (List KeyValue) :=
  (lastOf Prod.fst initialState capability).map (·.2)

namespace Mutation

/-- The owner and the final fields of the entry an operation writes into a slot. -/
def writes (inner : StoreInner) (slot : SlotKey) : Mutation → Option (String × List KeyValue)
  | .applyDelta d o c fields _ _ =>
      if slot = (d, c) then
        some (o, truncateToByteCap
          (StoreInner.writeFields inner.entries[slot]? (inner.generation o) fields true))
      else none
  | .replaceSnapshot d o c fields _ _ =>
      if slot = (d, c) then some (o, truncateToByteCap (snapshotFields fields)) else none
  | .resetAndSeedDevice d o initialState _ _ =>
      if slot.1 = d then (lastSeed initialState slot.2).map fun f => (o, snapshotFields f)
      else none
  | _ => none

/-- The entries an operation marks stale, where it does not write them. -/
def sweeps (slot : SlotKey) (e : DeviceState) : Mutation → Bool
  | .applyDelta .. | .replaceSnapshot .. | .bumpGeneration _ => false
  | .resetAndSeedDevice d .. => slot.1 = d ∧ e.quality = .fresh
  | .restartGeneration o _ => e.ownerInstance = o ∧ e.quality = .fresh
  | .markInstanceStale o _ => e.ownerInstance = o ∧ e.quality = .fresh
  | .markDeviceStale d _ => slot.1 = d ∧ e.quality = .fresh
  | .reconcileCapabilities d live _ => slot.1 = d ∧ e.quality = .fresh ∧ slot.2 ∉ live

def bumps : Mutation → Option String
  | .bumpGeneration o => some o
  | .restartGeneration o _ => some o
  | _ => none

end Mutation

structure DeviceState.WrittenAs (e : DeviceState) (owner : String) (fields : List KeyValue)
    (generation : Nat) : Prop where
  owner : e.ownerInstance = owner
  fields : e.fields = fields
  generation : e.sourceGeneration = generation
  fresh : e.quality = .fresh

namespace StoreInner

theorem bumpGeneration_generation (inner : StoreInner) (o owner : String) :
    (inner.bumpGeneration o).generation owner =
      inner.generation owner + if some o = some owner then 1 else 0 := by
  simp only [generation, bumpGeneration, getElem?_insert_eq, Option.some.injEq]
  split
  · subst_vars
    rfl
  · rfl

theorem generation_congr {inner next : StoreInner} (same : next.generations = inner.generations) :
    next.generation = inner.generation := by
  funext owner
  simp only [generation, same]

theorem mutate_generation {inner : StoreInner} (valid : inner.Valid) (m : Mutation)
    (owner : String) :
    (inner.mutate m).generation owner =
      inner.generation owner + if m.bumps = some owner then 1 else 0 := by
  cases m with
  | applyDelta => rfl
  | replaceSnapshot => rfl
  | resetAndSeedDevice d o seeds obs recv =>
      have sweep := staleWhereLocked_sweep valid recv fun key entry =>
        key.1 = d ∧ entry.quality = .fresh
      have same := (foldl_seedOne d o obs recv seeds sweep.valid).2.2.trans sweep.generations
      exact congrFun (generation_congr same) owner
  | bumpGeneration o => exact bumpGeneration_generation inner o owner
  | restartGeneration o now =>
      have sweep := staleWhereLocked_sweep valid now fun _ entry =>
        entry.ownerInstance = o ∧ entry.quality = .fresh
      rw [mutate, restartGeneration, bumpGeneration_generation, generation_congr sweep.generations]
      rfl
  | markInstanceStale | markDeviceStale | reconcileCapabilities =>
      exact congrFun (generation_congr (staleWhereLocked_sweep valid _ _).generations) _

theorem lastSeed_cons (seed : String × List KeyValue) (seeds : List (String × List KeyValue))
    (c : String) :
    lastSeed (seed :: seeds) c =
      (lastSeed seeds c).or (if seed.1 = c then some seed.2 else none) := by
  unfold lastSeed
  rw [lastOf_cons]
  cases lastOf Prod.fst seeds c with
  | some last => rfl
  | none => by_cases same : seed.1 = c <;> simp [same]

theorem foldl_seedOne_entry (d : DeviceId) (o : String) (g : Nat) (obs : UInt64) (recv : Int)
    (seeds : List (String × List KeyValue)) (inner : StoreInner) (slot : SlotKey) :
    (∀ o' f, (if slot.1 = d then (lastSeed seeds slot.2).map fun f => (o, snapshotFields f)
        else none) = some (o', f) →
      ∃ e, (seeds.foldl (seedOne d o g obs recv) inner).entries[slot]? = some e ∧
        e.WrittenAs o' f g) ∧
      ((if slot.1 = d then (lastSeed seeds slot.2).map fun f => (o, snapshotFields f)
        else none) = none →
        (seeds.foldl (seedOne d o g obs recv) inner).entries[slot]? = inner.entries[slot]?) := by
  induction seeds generalizing inner with
  | nil => simp [lastSeed, lastOf]
  | cons seed seeds ih =>
      obtain ⟨written, kept⟩ := ih (seedOne d o g obs recv inner seed)
      simp only [List.foldl_cons, lastSeed_cons]
      by_cases device : slot.1 = d
      · simp only [device, if_true] at written kept ⊢
        cases later : lastSeed seeds slot.2 with
        | some f =>
            rw [later] at written
            simpa using written
        | none =>
            rw [later] at kept
            have unchanged := kept rfl
            by_cases same : seed.1 = slot.2
            · have key : (d, seed.1) = slot := Prod.ext device.symm same
              simp only [same, if_true, Option.none_or, Option.map_some, Option.some.injEq,
                Prod.mk.injEq, reduceCtorEq, false_implies, and_true]
              rintro o' f ⟨rfl, rfl⟩
              rw [unchanged, seedOne, insertNext_entry, if_pos key]
              exact ⟨_, rfl, rfl, rfl, rfl, rfl⟩
            · have key : (d, seed.1) ≠ slot := fun h => same (congrArg Prod.snd h)
              simp only [same, if_false, Option.none_or, Option.map_none, reduceCtorEq,
                false_implies, implies_true, true_and, true_implies]
              rw [unchanged, seedOne, insertNext_entry, if_neg key]
      · have key : (d, seed.1) ≠ slot := fun h => device (congrArg Prod.fst h).symm
        simp only [device, if_false, reduceCtorEq, false_implies, implies_true, true_and,
          true_implies] at kept ⊢
        rw [kept, seedOne, insertNext_entry, if_neg key]

theorem writeEntry_entry (inner : StoreInner) (d : DeviceId) (o c : String)
    (fields : List KeyValue) (obs : UInt64) (recv : Int) (merge : Bool) (slot : SlotKey) :
    (slot = (d, c) → ∃ e, (inner.writeEntry d o c fields obs recv merge).entries[slot]? = some e ∧
        e.WrittenAs o (truncateToByteCap
          (writeFields inner.entries[slot]? (inner.generation o) fields merge))
          (inner.generation o)) ∧
      (slot ≠ (d, c) → (inner.writeEntry d o c fields obs recv merge).entries[slot]? =
        inner.entries[slot]?) := by
  constructor
  · rintro rfl
    rw [writeEntry, insertNext_entry, if_pos rfl]
    exact ⟨_, rfl, rfl, rfl, rfl, rfl⟩
  · intro other
    rw [writeEntry, insertNext_entry, if_neg other.symm]

@[simp] theorem writeFields_replace (prev : Option DeviceState) (g : Nat) (fields : List KeyValue) :
    writeFields prev g fields false = snapshotFields fields := by
  cases prev <;> rfl

theorem mutate_written {inner : StoreInner} (valid : inner.Valid) {m : Mutation} {slot : SlotKey}
    {owner : String} {fields : List KeyValue} (h : m.writes inner slot = some (owner, fields)) :
    ∃ e, (inner.mutate m).entries[slot]? = some e ∧
      e.WrittenAs owner fields (inner.generation owner) := by
  cases m with
  | applyDelta d o c f obs recv =>
      simp only [Mutation.writes] at h
      split at h
      · cases h
        exact (writeEntry_entry inner d owner c f obs recv true slot).1 ‹_›
      · cases h
  | replaceSnapshot d o c f obs recv =>
      simp only [Mutation.writes] at h
      split at h
      · cases h
        have := (writeEntry_entry inner d owner c f obs recv false slot).1 ‹_›
        rwa [writeFields_replace] at this
      · cases h
  | resetAndSeedDevice d o seeds obs recv =>
      have sweep := staleWhereLocked_sweep valid recv fun key entry =>
        key.1 = d ∧ entry.quality = .fresh
      have same : owner = o := by
        simp only [Mutation.writes] at h
        split at h
        · obtain ⟨_, _, e⟩ := Option.map_eq_some_iff.mp h
          cases e
          rfl
        · cases h
      subst same
      have := (foldl_seedOne_entry d owner (inner.generation owner) obs recv seeds
        (inner.staleWhereLocked recv fun key entry => key.1 = d ∧ entry.quality = .fresh) slot).1
        owner fields h
      rw [← generation_congr sweep.generations] at this ⊢
      exact this
  | bumpGeneration | restartGeneration | markInstanceStale | markDeviceStale
  | reconcileCapabilities => cases h

theorem mutate_carried {inner : StoreInner} (valid : inner.Valid) {m : Mutation} {slot : SlotKey}
    (h : m.writes inner slot = none) {e' : DeviceState}
    (present : (inner.mutate m).entries[slot]? = some e') :
    ∃ e, inner.entries[slot]? = some e ∧
      (m.sweeps slot e = false ∧ e' = e ∨
        m.sweeps slot e = true ∧ ∃ receivedMs, Flipped receivedMs e e') := by
  have swept {recv : Int} {predicate : SlotKey → DeviceState → Bool}
      (same : predicate slot = fun e => m.sweeps slot e)
      (present : (inner.staleWhereLocked recv predicate).entries[slot]? = some e') :
      ∃ e, inner.entries[slot]? = some e ∧
        (m.sweeps slot e = false ∧ e' = e ∨
          m.sweeps slot e = true ∧ ∃ receivedMs, Flipped receivedMs e e') := by
    obtain ⟨e, he, cases⟩ := (staleWhereLocked_sweep valid recv predicate).entry slot e' present
    rw [congrFun same e] at cases
    exact ⟨e, he, cases.imp_right fun ⟨yes, flipped⟩ => ⟨yes, recv, flipped⟩⟩
  cases m with
  | applyDelta d o c f obs recv =>
      have other : slot ≠ (d, c) := fun same => by simp [Mutation.writes, same] at h
      rw [mutate, applyDelta, (writeEntry_entry inner d o c f obs recv true slot).2 other] at present
      exact ⟨e', present, Or.inl ⟨rfl, rfl⟩⟩
  | replaceSnapshot d o c f obs recv =>
      have other : slot ≠ (d, c) := fun same => by simp [Mutation.writes, same] at h
      rw [mutate, replaceSnapshot, (writeEntry_entry inner d o c f obs recv false slot).2 other]
        at present
      exact ⟨e', present, Or.inl ⟨rfl, rfl⟩⟩
  | resetAndSeedDevice d o seeds obs recv =>
      rw [mutate, resetAndSeedDevice, (foldl_seedOne_entry d o _ obs recv seeds _ slot).2 h]
        at present
      exact swept rfl present
  | bumpGeneration o => exact ⟨e', present, Or.inl ⟨rfl, rfl⟩⟩
  | restartGeneration =>
      simp only [mutate, restartGeneration, bumpGeneration] at present
      exact swept rfl present
  | markInstanceStale | markDeviceStale | reconcileCapabilities => exact swept rfl present

theorem mutate_kept {inner : StoreInner} (valid : inner.Valid) {m : Mutation} {slot : SlotKey}
    {e : DeviceState} (h : m.writes inner slot = none) (present : inner.entries[slot]? = some e)
    (fresh : e.quality = .fresh) (unswept : m.sweeps slot e = false) :
    (inner.mutate m).entries[slot]? = some e := by
  cases m with
  | applyDelta d o c f obs recv =>
      have other : slot ≠ (d, c) := fun same => by simp [Mutation.writes, same] at h
      rwa [mutate, applyDelta, (writeEntry_entry inner d o c f obs recv true slot).2 other]
  | replaceSnapshot d o c f obs recv =>
      have other : slot ≠ (d, c) := fun same => by simp [Mutation.writes, same] at h
      rwa [mutate, replaceSnapshot, (writeEntry_entry inner d o c f obs recv false slot).2 other]
  | resetAndSeedDevice d o seeds obs recv =>
      rw [mutate, resetAndSeedDevice, (foldl_seedOne_entry d o _ obs recv seeds _ slot).2 h]
      exact (staleWhereLocked_sweep valid _ _).kept slot e present fresh unswept
  | bumpGeneration o => exact present
  | restartGeneration =>
      simp only [mutate, restartGeneration, bumpGeneration]
      exact (staleWhereLocked_sweep valid _ _).kept slot e present fresh unswept
  | markInstanceStale | markDeviceStale | reconcileCapabilities =>
      exact (staleWhereLocked_sweep valid _ _).kept slot e present fresh unswept

theorem mutate_fresh {inner : StoreInner} (valid : inner.Valid) {m : Mutation} {slot : SlotKey}
    {e' : DeviceState} (present : (inner.mutate m).entries[slot]? = some e')
    (fresh : e'.quality = .fresh) :
    (∃ owner fields, m.writes inner slot = some (owner, fields) ∧
        e'.WrittenAs owner fields (inner.generation owner)) ∨
      (m.writes inner slot = none ∧ inner.entries[slot]? = some e' ∧
        m.sweeps slot e' = false) := by
  cases h : m.writes inner slot with
  | some w =>
      obtain ⟨e, he, written⟩ := mutate_written valid h
      obtain rfl : e = e' := Option.some.inj (he.symm.trans present)
      exact Or.inl ⟨w.1, w.2, rfl, written⟩
  | none =>
      obtain ⟨e, he, ⟨unswept, rfl⟩ | ⟨_, recv, flipped⟩⟩ := mutate_carried valid h present
      · exact Or.inr ⟨rfl, he, unswept⟩
      · rw [flipped] at fresh
        cases fresh

end StoreInner
end OxidHome.Projection

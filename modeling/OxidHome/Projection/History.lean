import OxidHome.Projection.Mutations

/-!
# Where the fields of a fresh entry come from

A field of a fresh entry was supplied to its slot after the last operation that invalidated the
slot. A bare `bump_generation` leaves the entry as it is and only makes the next write replace it,
so it counts for the entries written since: those that carry their owner's current generation.
-/

namespace OxidHome.Projection
open Wit Library Std

namespace Mutation

def Supplies (slot : SlotKey) (kv : KeyValue) : Mutation → Prop
  | .applyDelta d _ c fields _ _ => slot = (d, c) ∧ kv ∈ fields
  | .replaceSnapshot d _ c fields _ _ => slot = (d, c) ∧ kv ∈ fields
  | .resetAndSeedDevice d _ initialState _ _ =>
      slot.1 = d ∧ ∃ fields, (slot.2, fields) ∈ initialState ∧ kv ∈ fields
  | _ => False

/-- The operation invalidates a slot of this owner, a bare `bump_generation` apart. -/
def Invalidates (owner : String) (slot : SlotKey) : Mutation → Prop
  | .applyDelta .. | .bumpGeneration _ => False
  | .replaceSnapshot d _ c _ _ _ => slot = (d, c)
  | .resetAndSeedDevice d .. => slot.1 = d
  | .restartGeneration o _ => owner = o
  | .markInstanceStale o _ => owner = o
  | .markDeviceStale d _ => slot.1 = d
  | .reconcileCapabilities d live _ => slot.1 = d ∧ slot.2 ∉ live

def OwnedBy (ownerOf : DeviceId → String) : Mutation → Prop
  | .applyDelta d o .. => ownerOf d = o
  | .replaceSnapshot d o .. => ownerOf d = o
  | .resetAndSeedDevice d o .. => ownerOf d = o
  | _ => True

end Mutation

def SuppliedSince (ms : List Mutation) (slot : SlotKey) (kv : KeyValue) (cut : Mutation → Prop) :
    Prop :=
  ∃ before m after, ms = before ++ m :: after ∧ m.Supplies slot kv ∧ ∀ m' ∈ after, ¬ cut m'

theorem SuppliedSince.now {ms : List Mutation} {m : Mutation} {slot : SlotKey} {kv : KeyValue}
    {cut : Mutation → Prop} (h : m.Supplies slot kv) : SuppliedSince (ms ++ [m]) slot kv cut :=
  ⟨ms, m, [], rfl, h, fun _ mem => by cases mem⟩

theorem SuppliedSince.extend {ms : List Mutation} {m : Mutation} {slot : SlotKey} {kv : KeyValue}
    {cut cut' : Mutation → Prop} (h : SuppliedSince ms slot kv cut) (weaker : ∀ m, cut' m → cut m)
    (uncut : ¬ cut' m) : SuppliedSince (ms ++ [m]) slot kv cut' := by
  obtain ⟨before, supply, after, rfl, supplies, clear⟩ := h
  refine ⟨before, supply, after ++ [m], by simp, supplies, fun m' mem => ?_⟩
  rcases List.mem_append.mp mem with old | new
  · exact fun c => clear m' old (weaker m' c)
  · rw [List.mem_singleton.mp new]
    exact uncut

theorem mem_of_lastSeed {seeds : List (String × List KeyValue)} {c : String} {f : List KeyValue}
    (h : lastSeed seeds c = some f) : (c, f) ∈ seeds := by
  obtain ⟨⟨_, _⟩, last, rfl⟩ := Option.map_eq_some_iff.mp h
  obtain ⟨mem, rfl⟩ := mem_of_lastOf last
  exact mem

theorem Mutation.writes_fields {inner : StoreInner} {m : Mutation} {slot : SlotKey} {owner : String}
    {fields : List KeyValue} (h : m.writes inner slot = some (owner, fields)) {kv : KeyValue}
    (mem : kv ∈ fields) :
    m.Supplies slot kv ∨
      ((∀ o, ¬ m.Invalidates o slot ∧ m ≠ .bumpGeneration o) ∧
        ∃ prev, inner.entries[slot]? = some prev ∧ prev.quality = .fresh ∧
          prev.sourceGeneration = inner.generation owner ∧ kv ∈ prev.fields) := by
  cases m with
  | applyDelta d o c f obs recv =>
      simp only [Mutation.writes] at h
      split at h
      · rename_i here
        cases h
        have mem := (truncateToByteCap_isPrefix _).subset mem
        unfold StoreInner.writeFields at mem
        split at mem
        · rename_i prev found _
          split at mem
          · rename_i live
            rcases mem_mergeFields mem with new | old
            · exact Or.inl ⟨here, new⟩
            · refine Or.inr ⟨fun o => ⟨id, fun e => by cases e⟩, prev, ?_, live.1, live.2, old⟩
              exact found
          · exact Or.inl ⟨here, mem_snapshotFields mem⟩
        · exact Or.inl ⟨here, mem_snapshotFields mem⟩
      · cases h
  | replaceSnapshot d o c f obs recv =>
      simp only [Mutation.writes] at h
      split at h
      · cases h
        exact Or.inl ⟨‹_›, mem_snapshotFields ((truncateToByteCap_isPrefix _).subset mem)⟩
      · cases h
  | resetAndSeedDevice d o seeds obs recv =>
      simp only [Mutation.writes] at h
      split at h
      · obtain ⟨f, found, e⟩ := Option.map_eq_some_iff.mp h
        cases e
        exact Or.inl ⟨‹_›, f, mem_of_lastSeed found, mem_snapshotFields mem⟩
      · cases h
  | bumpGeneration | restartGeneration | markInstanceStale | markDeviceStale
  | reconcileCapabilities => cases h

theorem Mutation.writes_owner {inner : StoreInner} {m : Mutation} {slot : SlotKey} {owner : String}
    {fields : List KeyValue} (h : m.writes inner slot = some (owner, fields))
    {ownerOf : DeviceId → String} (owned : m.OwnedBy ownerOf) : owner = ownerOf slot.1 := by
  cases m with
  | applyDelta | replaceSnapshot =>
      simp only [Mutation.writes] at h
      split at h
      · cases h
        subst slot
        exact owned.symm
      · cases h
  | resetAndSeedDevice =>
      simp only [Mutation.writes] at h
      split at h
      · rename_i here
        obtain ⟨_, _, e⟩ := Option.map_eq_some_iff.mp h
        cases e
        rw [here]
        exact owned.symm
      · cases h
  | bumpGeneration | restartGeneration | markInstanceStale | markDeviceStale
  | reconcileCapabilities => cases h

theorem Mutation.not_invalidates {inner : StoreInner} {m : Mutation} {slot : SlotKey}
    {e : DeviceState} (unwritten : m.writes inner slot = none) (unswept : m.sweeps slot e = false)
    (fresh : e.quality = .fresh) : ¬ m.Invalidates e.ownerInstance slot := by
  intro h
  cases m with
  | applyDelta | bumpGeneration => exact h
  | replaceSnapshot => simp [Mutation.writes, show slot = _ from h] at unwritten
  | resetAndSeedDevice => simp [Mutation.sweeps, fresh, show slot.1 = _ from h] at unswept
  | restartGeneration => simp [Mutation.sweeps, fresh, show e.ownerInstance = _ from h] at unswept
  | markInstanceStale => simp [Mutation.sweeps, fresh, show e.ownerInstance = _ from h] at unswept
  | markDeviceStale => simp [Mutation.sweeps, fresh, show slot.1 = _ from h] at unswept
  | reconcileCapabilities => simp [Mutation.sweeps, fresh, h.1, h.2] at unswept

/-- The operations no field of a fresh entry predates: those that invalidate the slot, and the
bare bumps once the entry has been written again. -/
def Cut (inner : StoreInner) (owner : String) (slot : SlotKey) (e : DeviceState) (m : Mutation) :
    Prop :=
  m.Invalidates owner slot ∨
    (m = .bumpGeneration owner ∧ e.sourceGeneration = inner.generation owner)

def Supplied (ownerOf : DeviceId → String) (ms : List Mutation) (inner : StoreInner) : Prop :=
  ∀ (slot : SlotKey) (e : DeviceState), inner.entries[slot]? = some e → e.quality = .fresh →
    e.ownerInstance = ownerOf slot.1 ∧
      ∀ kv ∈ e.fields, SuppliedSince ms slot kv (Cut inner (ownerOf slot.1) slot e)

theorem Supplied.mutate {ownerOf : DeviceId → String} {ms : List Mutation} {inner : StoreInner}
    (valid : inner.Valid) (supplied : Supplied ownerOf ms inner) {m : Mutation}
    (owned : m.OwnedBy ownerOf) : Supplied ownerOf (ms ++ [m]) (inner.mutate m) := by
  intro slot e present fresh
  rcases StoreInner.mutate_fresh valid present fresh with
    ⟨owner, fields, writes, written⟩ | ⟨unwritten, old, unswept⟩
  · obtain rfl := Mutation.writes_owner writes owned
    refine ⟨written.owner, fun kv mem => ?_⟩
    rw [written.fields] at mem
    rcases Mutation.writes_fields writes mem with now | ⟨harmless, prev, hprev, live, current, mem⟩
    · exact SuppliedSince.now now
    · refine ((supplied slot prev hprev live).2 kv mem).extend (fun m' => ?_) ?_
      · -- `prev` is of the current generation, so its history already counts every bump
        exact Or.imp_right fun ⟨bump, _⟩ => ⟨bump, current⟩
      · rintro (invalid | ⟨bump, _⟩)
        · exact (harmless _).1 invalid
        · exact (harmless _).2 bump
  · obtain ⟨owner, since⟩ := supplied slot e old fresh
    have behind := valid.generation_le slot e old
    have counted := StoreInner.mutate_generation valid m e.ownerInstance
    refine ⟨owner, fun kv mem => (since kv mem).extend (fun m' => ?_) ?_⟩
    · refine Or.imp_right fun ⟨bump, current⟩ => ⟨bump, ?_⟩
      rw [← owner] at current ⊢
      omega
    · rw [← owner]
      rintro (invalid | ⟨rfl, current⟩)
      · exact Mutation.not_invalidates unwritten unswept fresh invalid
      · simp only [Mutation.bumps, if_true] at counted
        omega

theorem run_supplied (nonce : Vector UInt8 16) (secret : Vector UInt8 32)
    (ownerOf : DeviceId → String) (ms : List Mutation) (owned : ∀ m ∈ ms, m.OwnedBy ownerOf) :
    Supplied ownerOf ms ((DeviceStateStore.new nonce secret).run ms).inner := by
  induction ms using List.reverseRecOn with
  | nil => exact fun slot e present => by simp [DeviceStateStore.new, StoreInner.default] at present
  | append_singleton ms m ih =>
      rw [DeviceStateStore.run_concat]
      exact (ih fun m' mem => owned m' (List.mem_append_left _ mem)).mutate
        (DeviceStateStore.valid _) (owned m (by simp))

theorem no_resurrected_fields (nonce : Vector UInt8 16) (secret : Vector UInt8 32)
    (ownerOf : DeviceId → String) (ms : List Mutation) (owned : ∀ m ∈ ms, m.OwnedBy ownerOf) (slot : SlotKey) (e : DeviceState)
    (present : ((DeviceStateStore.new nonce secret).run ms).inner.entries[slot]? = some e)
    (fresh : e.quality = .fresh) (kv : KeyValue) (mem : kv ∈ e.fields) :
    SuppliedSince ms slot kv fun m =>
      m.Invalidates (ownerOf slot.1) slot ∨
        (m = .bumpGeneration (ownerOf slot.1) ∧ e.sourceGeneration =
          ((DeviceStateStore.new nonce secret).run ms).inner.generation (ownerOf slot.1)) :=
  (run_supplied nonce secret ownerOf ms owned slot e present fresh).2 kv mem

def restartedLight : List Mutation :=
  [.applyDelta "dev-1" "alpha" "color-light" [⟨"hue", .intVal 1⟩, ⟨"saturation", .intVal 9⟩] 0 0,
    .markInstanceStale "alpha" 1, .bumpGeneration "alpha",
    .applyDelta "dev-1" "alpha" "color-light" [⟨"hue", .intVal 5⟩] 0 2]

theorem no_resurrected_fields_light :
    let store := (DeviceStateStore.new (.replicate 16 0) (.replicate 32 0)).run restartedLight
    ∃ e, store.inner.entries[(("dev-1", "color-light") : SlotKey)]? = some e ∧
      SuppliedSince restartedLight ("dev-1", "color-light") ⟨"hue", .intVal 5⟩ fun m =>
        m.Invalidates "alpha" ("dev-1", "color-light") ∨
          (m = .bumpGeneration "alpha" ∧
            e.sourceGeneration = store.inner.generation "alpha") :=
  ⟨_, rfl, no_resurrected_fields (.replicate 16 0) (.replicate 32 0) (fun _ => "alpha") restartedLight
    (by simp [restartedLight, Mutation.OwnedBy]) ("dev-1", "color-light") _ rfl rfl
    ⟨"hue", .intVal 5⟩ (by decide)⟩

theorem bumped_entry_stays_fresh :
    ¬ ∀ (nonce : Vector UInt8 16) (secret : Vector UInt8 32) (ownerOf : DeviceId → String)
      (ms : List Mutation),
      (∀ m ∈ ms, m.OwnedBy ownerOf) → ∀ (slot : SlotKey) (e : DeviceState),
      ((DeviceStateStore.new nonce secret).run ms).inner.entries[slot]? = some e →
      e.quality = .fresh → ∀ kv ∈ e.fields,
      SuppliedSince ms slot kv fun m =>
        m.Invalidates (ownerOf slot.1) slot ∨ m = .bumpGeneration (ownerOf slot.1) := by
  intro claim
  have since := claim (.replicate 16 0) (.replicate 32 0) (fun _ => "alpha")
    [.applyDelta "dev-1" "alpha" "switch" [⟨"state", .boolVal true⟩] 0 1, .bumpGeneration "alpha"]
    (by simp [Mutation.OwnedBy]) ("dev-1", "switch") _ rfl rfl ⟨"state", .boolVal true⟩ (by decide)
  obtain ⟨before, m, after, split, supplies, clear⟩ := since
  -- only the first operation supplies anything, and the bump comes after it
  match before, split with
  | [], split =>
      cases split
      exact clear (.bumpGeneration "alpha") (by simp) (Or.inr rfl)
  | [_], split =>
      cases split
      exact supplies
  | _ :: _ :: before, split => simp at split

end OxidHome.Projection

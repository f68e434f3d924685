import OxidHome.Projection.Store
import OxidHome.Library.Revisioned

/-!
# What the store's operations do to its revisions

Every mutating operation advances the revisioned view of the store: `mutate_advance`. The
invariant `Valid` (revisions distinct and bounded by the counter, keys and generations in
agreement with the entries) is carried by `DeviceStateStore`.
-/

namespace OxidHome.Projection
open Wit Library Std

def Retired (e : DeviceState) : Prop := e.quality = .stale

namespace StoreInner

def view (inner : StoreInner) : View SlotKey DeviceState where
  entry := fun k => inner.entries[k]?
  current := inner.globalRevision
  evictedThrough := inner.evictedThroughRevision

structure Valid (inner : StoreInner) : Prop where
  view_wf : inner.view.WellFormed DeviceState.globalRevision
  keyed : ∀ (k : SlotKey) (e : DeviceState), inner.entries[k]? = some e →
    (e.deviceId, e.capability) = k
  generation_le : ∀ (k : SlotKey) (e : DeviceState), inner.entries[k]? = some e →
    e.sourceGeneration ≤ inner.generation e.ownerInstance
  minted : ∃ nonce, inner.epoch = mintEpoch nonce

abbrev Advances (inner next : StoreInner) : Prop :=
  Advance DeviceState.globalRevision Retired inner.view next.view

theorem default_valid (nonce : Vector UInt8 16) (secret : Vector UInt8 32) :
    (default nonce secret).Valid where
  view_wf := ⟨by simp [view, default], by simp [view, default], by simp [view, default], le_rfl⟩
  keyed := by simp [default]
  generation_le := by simp [default]
  minted := ⟨nonce, rfl⟩

/-! ## Inserting at the next revision -/

theorem insertNext_entry (inner : StoreInner) (key k : SlotKey) (state : DeviceState) :
    (inner.insertNext key state).entries[k]? =
      if key = k then some { state with globalRevision := inner.globalRevision + 1 }
      else inner.entries[k]? :=
  getElem?_insert_eq _ _ _ _

theorem insertNext_advances (inner : StoreInner) (key : SlotKey) (state : DeviceState) :
    inner.Advances (inner.insertNext key state) where
  current_le := Nat.le_succ _
  evicted_le := le_rfl
  written := fun k a h => by
    simp only [view, insertNext_entry] at h ⊢
    split at h
    · cases h
      exact Or.inr (Nat.lt_succ_self _)
    · exact Or.inl h
  dropped := fun k a h gone => by
    simp only [view, insertNext_entry] at h gone
    split at gone
    · cases gone
    · rw [h] at gone
      cases gone

theorem insertNext_valid {inner : StoreInner} {key : SlotKey} {state : DeviceState}
    (valid : inner.Valid) (keyed : (state.deviceId, state.capability) = key)
    (generation_le : state.sourceGeneration ≤ inner.generation state.ownerInstance) :
    (inner.insertNext key state).Valid where
  view_wf := by
    have old (k : SlotKey) (e : DeviceState) (h : (inner.insertNext key state).entries[k]? = some e) :
        (key = k ∧ e.globalRevision = inner.globalRevision + 1) ∨ inner.view.entry k = some e := by
      rw [insertNext_entry] at h
      split at h
      · cases h
        exact Or.inl ⟨‹_›, rfl⟩
      · exact Or.inr h
    refine ⟨fun k e h => ?_, fun k e h => ?_, fun k l a b ha hb same => ?_, ?_⟩
    · rcases old k e h with ⟨_, eq⟩ | h
      · omega
      · exact valid.view_wf.rev_pos k e h
    · rcases old k e h with ⟨_, eq⟩ | h
      · exact eq.le
      · exact (valid.view_wf.rev_le k e h).trans (Nat.le_succ _)
    · rcases old k a ha with ⟨hk, ea⟩ | ha <;> rcases old l b hb with ⟨hl, eb⟩ | hb
      · exact hk.symm.trans hl
      · have := valid.view_wf.rev_le l b hb
        simp only [view] at this
        omega
      · have := valid.view_wf.rev_le k a ha
        simp only [view] at this
        omega
      · exact valid.view_wf.rev_inj k l a b ha hb same
    · exact valid.view_wf.evicted_le.trans (Nat.le_succ _)
  keyed := fun k e h => by
    rw [insertNext_entry] at h
    split at h
    · cases h
      exact keyed.trans ‹_›
    · exact valid.keyed k e h
  generation_le := fun k e h => by
    rw [insertNext_entry] at h
    split at h
    · cases h
      exact generation_le
    · exact valid.generation_le k e h
  minted := valid.minted

/-! ## Eviction -/

def IsVictim (inner : StoreInner) (victim : Nat × SlotKey) : Prop :=
  victim.1 ≤ inner.globalRevision ∧
    ∀ e, inner.entries[victim.2]? = some e → e.quality = .stale ∧ e.globalRevision = victim.1

theorem evictOne_entry (inner : StoreInner) (victim : Nat × SlotKey) (k : SlotKey) :
    (inner.evictOne victim).entries[k]? = if victim.2 = k then none else inner.entries[k]? :=
  getElem?_erase_eq _ _ _

theorem evictOne_evicted (inner : StoreInner) (victim : Nat × SlotKey) :
    (inner.evictOne victim).evictedThroughRevision =
      max inner.evictedThroughRevision victim.1 := by
  simp only [evictOne]
  split <;> omega

theorem evictOne_isVictim {inner : StoreInner} {victim other : Nat × SlotKey}
    (h : inner.IsVictim other) : (inner.evictOne victim).IsVictim other := by
  refine ⟨h.1, fun e he => ?_⟩
  rw [evictOne_entry] at he
  split at he
  · cases he
  · exact h.2 e he

theorem evictOne_advances {inner : StoreInner} {victim : Nat × SlotKey}
    (h : inner.IsVictim victim) : inner.Advances (inner.evictOne victim) where
  current_le := le_rfl
  evicted_le := by
    simp only [view, evictOne_evicted]
    exact le_max_left _ _
  written := fun k a hk => by
    simp only [view, evictOne_entry] at hk
    split at hk
    · cases hk
    · exact Or.inl hk
  dropped := fun k a hk gone => by
    simp only [view, evictOne_entry] at hk gone
    split at gone
    · rename_i same
      subst same
      obtain ⟨stale, eq⟩ := h.2 a hk
      refine Or.inl ⟨stale, ?_⟩
      simp only [view, evictOne_evicted, eq]
      exact le_max_right _ _
    · rw [hk] at gone
      cases gone

theorem evictOne_valid {inner : StoreInner} {victim : Nat × SlotKey} (valid : inner.Valid)
    (h : inner.IsVictim victim) : (inner.evictOne victim).Valid := by
  have old (k : SlotKey) (e : DeviceState) (he : (inner.evictOne victim).entries[k]? = some e) :
      inner.entries[k]? = some e := by
    rw [evictOne_entry] at he
    split at he
    · cases he
    · exact he
  refine ⟨⟨fun k e he => valid.view_wf.rev_pos k e (old k e he),
    fun k e he => valid.view_wf.rev_le k e (old k e he),
    fun k l a b ha hb => valid.view_wf.rev_inj k l a b (old k a ha) (old l b hb), ?_⟩,
    fun k e he => valid.keyed k e (old k e he),
    fun k e he => valid.generation_le k e (old k e he), valid.minted⟩
  simp only [view, evictOne_evicted]
  exact max_le valid.view_wf.evicted_le h.1

theorem foldl_evictOne (victims : List (Nat × SlotKey)) {inner : StoreInner}
    (h : ∀ v ∈ victims, inner.IsVictim v) :
    inner.Advances (victims.foldl evictOne inner) ∧
      (inner.Valid → (victims.foldl evictOne inner).Valid) ∧
      ∀ k : SlotKey, (victims.foldl evictOne inner).entries[k]? =
        if k ∈ victims.map (·.2) then none else inner.entries[k]? := by
  induction victims generalizing inner with
  | nil => exact ⟨Advance.refl _, id, fun k => by simp⟩
  | cons victim victims ih =>
      have first := h victim List.mem_cons_self
      obtain ⟨advances, valid, entry⟩ := ih fun v mem =>
        evictOne_isVictim (h v (List.mem_cons_of_mem _ mem))
      refine ⟨(evictOne_advances first).trans advances,
        fun hv => valid (evictOne_valid hv first), fun k => ?_⟩
      rw [List.foldl_cons, entry, evictOne_entry, List.map_cons]
      by_cases mem : k ∈ victims.map (·.2)
      · rw [if_pos mem, if_pos (List.mem_cons_of_mem _ mem)]
      · rw [if_neg mem]
        by_cases same : victim.2 = k
        · rw [if_pos same, if_pos (same ▸ List.mem_cons_self)]
        · rw [if_neg same, if_neg fun h => (List.mem_cons.mp h).elim (fun e => same e.symm) mem]

theorem mem_staleByAge {inner : StoreInner} {victim : Nat × SlotKey} :
    victim ∈ inner.staleByAge ↔ ∃ e, inner.entries[victim.2]? = some e ∧ e.quality = .stale ∧
      e.globalRevision = victim.1 := by
  obtain ⟨r, k⟩ := victim
  simp only [staleByAge, List.mem_insertionSort, List.mem_map, List.mem_filter, decide_eq_true_eq,
    Prod.mk.injEq]
  constructor
  · rintro ⟨⟨l, e⟩, ⟨he, stale⟩, rfl, rfl⟩
    exact ⟨e, mem_toList.mp he, stale, rfl⟩
  · rintro ⟨e, he, stale, rfl⟩
    exact ⟨(k, e), ⟨mem_toList.mpr he, stale⟩, rfl, rfl⟩

theorem enforceStaleCapLocked_spec {inner : StoreInner} (valid : inner.Valid) :
    inner.Advances inner.enforceStaleCapLocked ∧ inner.enforceStaleCapLocked.Valid ∧
      (∀ (k : SlotKey) (e : DeviceState), inner.enforceStaleCapLocked.entries[k]? = some e →
        inner.entries[k]? = some e) ∧
      ∀ (k : SlotKey) (e : DeviceState), inner.entries[k]? = some e → e.quality = .fresh →
        inner.enforceStaleCapLocked.entries[k]? = some e := by
  unfold enforceStaleCapLocked
  simp only
  split
  · exact ⟨Advance.refl _, valid, fun _ _ h => h, fun _ _ h _ => h⟩
  · generalize (inner.entries.toList.filter _).length - MAX_STALE_ENTRIES = excess
    have stale (v : Nat × SlotKey) (mem : v ∈ inner.staleByAge.take excess) :=
      mem_staleByAge.mp (List.mem_of_mem_take mem)
    have victims (v : Nat × SlotKey) (mem : v ∈ inner.staleByAge.take excess) :
        inner.IsVictim v := by
      obtain ⟨e, he, hs, hr⟩ := stale v mem
      refine ⟨hr ▸ valid.view_wf.rev_le _ e he, fun e' he' => ?_⟩
      obtain rfl : e = e' := Option.some.inj (he.symm.trans he')
      exact ⟨hs, hr⟩
    obtain ⟨advances, valid', entry⟩ := foldl_evictOne _ victims
    refine ⟨advances, valid' valid, fun k e h => ?_, fun k e h fresh => ?_⟩
    · rw [entry] at h
      split at h
      · cases h
      · exact h
    · rw [entry, if_neg, h]
      intro mem
      obtain ⟨v, hv, rfl⟩ := List.mem_map.mp mem
      obtain ⟨e', he', hs, _⟩ := stale v hv
      obtain rfl : e = e' := Option.some.inj (h.symm.trans he')
      rw [fresh] at hs
      cases hs

@[simp] theorem foldl_evictOne_generations (victims : List (Nat × SlotKey)) (inner : StoreInner) :
    (victims.foldl evictOne inner).generations = inner.generations := by
  induction victims generalizing inner with
  | nil => rfl
  | cons victim victims ih => exact ih _

@[simp] theorem enforceStaleCapLocked_generations (inner : StoreInner) :
    inner.enforceStaleCapLocked.generations = inner.generations := by
  unfold enforceStaleCapLocked
  simp only
  split
  · rfl
  · exact foldl_evictOne_generations _ _

/-! ## Stale sweeps -/

def Flipped (receivedMs : Int) (e e' : DeviceState) : Prop :=
  e' = { e with globalRevision := e'.globalRevision, receivedMs := receivedMs, quality := .stale }

theorem staleOne_entry (receivedMs : Int) (inner : StoreInner) (key k : SlotKey) :
    (staleOne receivedMs inner key).entries[k]? = if key = k then
      inner.entries[k]?.map fun e => { e with
        globalRevision := inner.globalRevision + 1, receivedMs := receivedMs, quality := .stale }
      else inner.entries[k]? := by
  unfold staleOne
  cases h : inner.entries[key]? with
  | none =>
      by_cases same : key = k
      · subst same
        simp [h]
      · simp [same]
  | some prev =>
      simp only [insertNext_entry]
      by_cases same : key = k
      · subst same
        simp [h]
      · simp [same]

theorem staleOne_spec (receivedMs : Int) {inner : StoreInner} (valid : inner.Valid) (key : SlotKey) :
    inner.Advances (staleOne receivedMs inner key) ∧ (staleOne receivedMs inner key).Valid ∧
      (staleOne receivedMs inner key).generations = inner.generations := by
  unfold staleOne
  cases h : inner.entries[key]? with
  | none => exact ⟨Advance.refl _, valid, rfl⟩
  | some prev =>
      exact ⟨insertNext_advances _ _ _, insertNext_valid valid (valid.keyed key prev h)
        (valid.generation_le key prev h), rfl⟩

theorem foldl_staleOne (receivedMs : Int) (keys : List SlotKey) {inner : StoreInner}
    (valid : inner.Valid) :
    inner.Advances (keys.foldl (staleOne receivedMs) inner) ∧
      (keys.foldl (staleOne receivedMs) inner).Valid ∧
      (keys.foldl (staleOne receivedMs) inner).generations = inner.generations := by
  induction keys generalizing inner with
  | nil => exact ⟨Advance.refl _, valid, rfl⟩
  | cons key keys ih =>
      obtain ⟨advances, valid', same⟩ := staleOne_spec receivedMs valid key
      obtain ⟨rest, valid'', same'⟩ := ih valid'
      exact ⟨advances.trans rest, valid'', same'.trans same⟩

theorem foldl_staleOne_entry (receivedMs : Int) (keys : List SlotKey) (inner : StoreInner)
    (k : SlotKey) :
    (k ∉ keys → (keys.foldl (staleOne receivedMs) inner).entries[k]? = inner.entries[k]?) ∧
      (k ∈ keys → ∀ e', (keys.foldl (staleOne receivedMs) inner).entries[k]? = some e' →
        ∃ e, inner.entries[k]? = some e ∧ Flipped receivedMs e e') := by
  induction keys generalizing inner with
  | nil => exact ⟨fun _ => rfl, fun h => by cases h⟩
  | cons key keys ih =>
      obtain ⟨out, inside⟩ := ih (staleOne receivedMs inner key)
      constructor
      · intro h
        rw [List.mem_cons, not_or] at h
        rw [List.foldl_cons, out h.2, staleOne_entry, if_neg (Ne.symm h.1)]
      · intro h e' he'
        rw [List.foldl_cons] at he'
        by_cases later : k ∈ keys
        · obtain ⟨e, he, flipped⟩ := inside later e' he'
          rw [staleOne_entry] at he
          split at he
          · obtain ⟨e₀, h₀, rfl⟩ := Option.map_eq_some_iff.mp he
            exact ⟨e₀, h₀, flipped⟩
          · exact ⟨e, he, flipped⟩
        · obtain rfl : k = key := (List.mem_cons.mp h).resolve_right later
          rw [out later, staleOne_entry, if_pos rfl] at he'
          obtain ⟨e₀, h₀, rfl⟩ := Option.map_eq_some_iff.mp he'
          exact ⟨e₀, h₀, rfl⟩

theorem mem_keysToStale {inner : StoreInner} {predicate : SlotKey → DeviceState → Bool}
    {k : SlotKey} : k ∈ inner.keysToStale predicate ↔
      ∃ e, inner.entries[k]? = some e ∧ predicate k e = true := by
  simp only [keysToStale, List.mem_map, List.mem_filter]
  constructor
  · rintro ⟨⟨l, e⟩, ⟨he, hp⟩, rfl⟩
    exact ⟨e, mem_toList.mp he, hp⟩
  · rintro ⟨e, he, hp⟩
    exact ⟨(k, e), ⟨mem_toList.mpr he, hp⟩, rfl⟩

/-- All a sweep does: flip what the predicate selects, evict some stale entries, keep the rest. -/
structure Sweep (receivedMs : Int) (predicate : SlotKey → DeviceState → Bool)
    (inner next : StoreInner) : Prop where
  advances : inner.Advances next
  valid : next.Valid
  generations : next.generations = inner.generations
  entry : ∀ (k : SlotKey) (e' : DeviceState), next.entries[k]? = some e' →
    ∃ e, inner.entries[k]? = some e ∧ (predicate k e = false ∧ e' = e ∨
      predicate k e = true ∧ Flipped receivedMs e e')
  kept : ∀ (k : SlotKey) (e : DeviceState), inner.entries[k]? = some e → e.quality = .fresh →
    predicate k e = false → next.entries[k]? = some e

theorem staleWhereLocked_sweep {inner : StoreInner} (valid : inner.Valid) (receivedMs : Int)
    (predicate : SlotKey → DeviceState → Bool) :
    Sweep receivedMs predicate inner (inner.staleWhereLocked receivedMs predicate) := by
  unfold staleWhereLocked
  obtain ⟨swept, validSwept, generations⟩ :=
    foldl_staleOne receivedMs (inner.keysToStale predicate) valid
  obtain ⟨capped, validCapped, shrinks, keeps⟩ := enforceStaleCapLocked_spec validSwept
  have entry := foldl_staleOne_entry receivedMs (inner.keysToStale predicate) inner
  refine ⟨swept.trans capped, validCapped,
    (enforceStaleCapLocked_generations _).trans generations, fun k e' h => ?_,
    fun k e h fresh no => ?_⟩
  · have h' := shrinks k e' h
    by_cases mem : k ∈ inner.keysToStale predicate
    · obtain ⟨e, he, flipped⟩ := (entry k).2 mem e' h'
      obtain ⟨e₀, he₀, hp⟩ := mem_keysToStale.mp mem
      obtain rfl : e = e₀ := Option.some.inj (he.symm.trans he₀)
      exact ⟨e, he, Or.inr ⟨hp, flipped⟩⟩
    · rw [(entry k).1 mem] at h'
      refine ⟨e', h', Or.inl ⟨?_, rfl⟩⟩
      by_contra hp
      exact mem (mem_keysToStale.mpr ⟨e', h', Bool.eq_true_of_not_eq_false hp⟩)
  · apply keeps k e _ fresh
    rw [(entry k).1, h]
    intro mem
    obtain ⟨e₀, he₀, hp⟩ := mem_keysToStale.mp mem
    obtain rfl : e = e₀ := Option.some.inj (h.symm.trans he₀)
    rw [no] at hp
    cases hp

/-! ## The mutating operations -/

theorem writeEntry_advances (inner : StoreInner) (d : DeviceId) (o c : String)
    (fields : List KeyValue) (obs : UInt64) (recv : Int) (merge : Bool) :
    inner.Advances (inner.writeEntry d o c fields obs recv merge) :=
  insertNext_advances _ _ _

theorem writeEntry_valid {inner : StoreInner} (valid : inner.Valid) (d : DeviceId) (o c : String)
    (fields : List KeyValue) (obs : UInt64) (recv : Int) (merge : Bool) :
    (inner.writeEntry d o c fields obs recv merge).Valid :=
  insertNext_valid valid rfl le_rfl

@[simp] theorem seedOne_generation (d : DeviceId) (o : String) (g : Nat) (obs : UInt64) (recv : Int)
    (inner : StoreInner) (seed : String × List KeyValue) :
    (seedOne d o g obs recv inner seed).generation = inner.generation := rfl

@[simp] theorem seedOne_generations (d : DeviceId) (o : String) (g : Nat) (obs : UInt64)
    (recv : Int) (inner : StoreInner) (seed : String × List KeyValue) :
    (seedOne d o g obs recv inner seed).generations = inner.generations := rfl

theorem foldl_seedOne (d : DeviceId) (o : String) (obs : UInt64) (recv : Int)
    (seeds : List (String × List KeyValue)) {inner : StoreInner} (valid : inner.Valid) :
    inner.Advances (seeds.foldl (seedOne d o (inner.generation o) obs recv) inner) ∧
      (seeds.foldl (seedOne d o (inner.generation o) obs recv) inner).Valid ∧
      (seeds.foldl (seedOne d o (inner.generation o) obs recv) inner).generations =
        inner.generations := by
  induction seeds generalizing inner with
  | nil => exact ⟨Advance.refl _, valid, rfl⟩
  | cons seed seeds ih =>
      have seeded : (seedOne d o (inner.generation o) obs recv inner seed).Valid :=
        insertNext_valid valid rfl le_rfl
      have advanced : inner.Advances (seedOne d o (inner.generation o) obs recv inner seed) :=
        insertNext_advances _ _ _
      have rest := ih seeded
      rw [seedOne_generation, seedOne_generations] at rest
      rw [List.foldl_cons]
      exact ⟨advanced.trans rest.1, rest.2⟩

theorem bumpGeneration_le (inner : StoreInner) (o owner : String) :
    inner.generation owner ≤ (inner.bumpGeneration o).generation owner := by
  simp only [generation, bumpGeneration, getElem?_insert_eq]
  split
  · subst_vars
    exact Nat.le_succ _
  · exact le_rfl

theorem bumpGeneration_view (inner : StoreInner) (o : String) :
    (inner.bumpGeneration o).view = inner.view := rfl

theorem bumpGeneration_valid {inner : StoreInner} (valid : inner.Valid) (o : String) :
    (inner.bumpGeneration o).Valid where
  view_wf := valid.view_wf
  keyed := valid.keyed
  generation_le := fun k e h => (valid.generation_le k e h).trans (bumpGeneration_le inner o _)
  minted := valid.minted

theorem mutate_advances {inner : StoreInner} (valid : inner.Valid) (m : Mutation) :
    inner.Advances (inner.mutate m) := by
  cases m with
  | applyDelta => exact writeEntry_advances ..
  | replaceSnapshot => exact writeEntry_advances ..
  | resetAndSeedDevice d o seeds obs recv =>
      have sweep := staleWhereLocked_sweep valid recv fun key entry =>
        key.1 = d ∧ entry.quality = .fresh
      exact sweep.advances.trans (foldl_seedOne d o obs recv seeds sweep.valid).1
  | bumpGeneration => exact Advance.refl _
  | restartGeneration o now =>
      simp only [mutate, restartGeneration, Advances, bumpGeneration_view]
      exact (staleWhereLocked_sweep valid _ _).advances
  | markInstanceStale => exact (staleWhereLocked_sweep valid _ _).advances
  | markDeviceStale => exact (staleWhereLocked_sweep valid _ _).advances
  | reconcileCapabilities => exact (staleWhereLocked_sweep valid _ _).advances

theorem mutate_valid {inner : StoreInner} (valid : inner.Valid) (m : Mutation) :
    (inner.mutate m).Valid := by
  cases m with
  | applyDelta => exact writeEntry_valid valid ..
  | replaceSnapshot => exact writeEntry_valid valid ..
  | resetAndSeedDevice d o seeds obs recv =>
      have sweep := staleWhereLocked_sweep valid recv fun key entry =>
        key.1 = d ∧ entry.quality = .fresh
      exact (foldl_seedOne d o obs recv seeds sweep.valid).2.1
  | bumpGeneration => exact bumpGeneration_valid valid _
  | restartGeneration => exact bumpGeneration_valid (staleWhereLocked_sweep valid _ _).valid _
  | markInstanceStale => exact (staleWhereLocked_sweep valid _ _).valid
  | markDeviceStale => exact (staleWhereLocked_sweep valid _ _).valid
  | reconcileCapabilities => exact (staleWhereLocked_sweep valid _ _).valid

end StoreInner

/-! ## The store -/

/-- `DeviceStateStore`: the guarded state with its invariant. -/
structure DeviceStateStore where
  inner : StoreInner
  valid : inner.Valid

namespace DeviceStateStore

def new (nonce : Vector UInt8 16) (cursorSecret : Vector UInt8 32) : DeviceStateStore :=
  ⟨.default nonce cursorSecret, StoreInner.default_valid _ _⟩

def mutate (store : DeviceStateStore) (m : Mutation) : DeviceStateStore :=
  ⟨store.inner.mutate m, StoreInner.mutate_valid store.valid m⟩

def run (store : DeviceStateStore) (ms : List Mutation) : DeviceStateStore := ms.foldl mutate store

@[simp] theorem run_nil (store : DeviceStateStore) : store.run [] = store := rfl

@[simp] theorem run_cons (store : DeviceStateStore) (m : Mutation) (ms : List Mutation) :
    store.run (m :: ms) = (store.mutate m).run ms := rfl

theorem run_append (store : DeviceStateStore) (before after : List Mutation) :
    store.run (before ++ after) = (store.run before).run after :=
  List.foldl_append

theorem run_concat (store : DeviceStateStore) (ms : List Mutation) (m : Mutation) :
    store.run (ms ++ [m]) = (store.run ms).mutate m := by
  rw [run_append, run_cons, run_nil]

theorem mutate_advances (store : DeviceStateStore) (m : Mutation) :
    store.inner.Advances (store.mutate m).inner :=
  StoreInner.mutate_advances store.valid m

end DeviceStateStore
end OxidHome.Projection

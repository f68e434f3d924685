import OxidHome.Services.Registry

/-!
# Call accounting and identity of services

The counts are those of the guards alive, and a service id stands for one
`(owner_instance, owner_plugin_id, local_id)` for ever.
-/

namespace OxidHome.Services
open Wit Library
open Std (TreeMap)

theorem mintId_injective : Function.Injective ServiceRegistry.mintId := by
  intro m n same
  have digits : Nat.toDigits 10 m = Nat.toDigits 10 n := by
    have := congrArg String.toList same
    simpa [ServiceRegistry.mintId] using this
  simpa using congrArg (Nat.ofDigitChars 10 · 0) digits

def ServiceMeta.key (m : ServiceMeta) : String × String × String :=
  (m.ownerInstance, m.ownerPluginId, m.info.localId)

namespace ServiceRegistry
variable {reg reg' : ServiceRegistry}

/-! ## What an operation can do -/

theorem register_eq_ok {owner plugin : String} {info : ServiceInfo} {id : ServiceId} :
    reg.register owner plugin info = .ok (id, reg') ↔
      (∀ (id' : ServiceId) m, reg.inner[id']? = some m →
        m.ownerInstance = owner → m.info.localId ≠ info.localId) ∧
      id = mintId reg.nextId ∧
      reg' = { reg with
        inner := reg.inner.insert (mintId reg.nextId) ⟨mintId reg.nextId, owner, plugin, info⟩
        nextId := reg.nextId + 1 } := by
  have free : (reg.inner.toList.any fun e =>
      e.2.ownerInstance = owner && e.2.info.localId = info.localId) = false ↔
      ∀ (id' : ServiceId) m, reg.inner[id']? = some m →
        m.ownerInstance = owner → m.info.localId ≠ info.localId := by
    simp [List.any_eq_false]
  rw [← free]
  unfold register
  split
  · next taken =>
      constructor
      · intro made
        cases made
      · intro ⟨clear, _⟩
        have clash : true = false := taken.symm.trans clear
        cases clash
  · next unique =>
      have clear := Bool.eq_false_of_not_eq_true unique
      constructor
      · intro made
        cases made
        exact ⟨clear, rfl, rfl⟩
      · intro ⟨_, same, result⟩
        rw [same, result]

theorem update_eq_ok {owner : String} {id : ServiceId} {info : ServiceInfo} :
    reg.update owner id info = .ok reg' ↔
      ∃ m, reg.inner[id]? = some m ∧ m.ownerInstance = owner ∧ m.info.localId = info.localId ∧
        reg' = { reg with inner := reg.inner.insert id { m with info := info } } := by
  unfold update
  cases found : reg.inner[id]? with
  | none => simp
  | some m =>
      by_cases owned : m.ownerInstance = owner
      · by_cases same : m.info.localId = info.localId
        · simp [owned, same, eq_comm]
        · simp [owned, same]
      · simp [owned]

theorem remove_eq_ok {owner : String} {id : ServiceId} :
    reg.remove owner id = .ok reg' ↔
      ∃ m, reg.inner[id]? = some m ∧ m.ownerInstance = owner ∧ reg.activeCallCount id = 0 ∧
        reg' = { reg with inner := reg.inner.erase id, activeCalls := reg.activeCalls.erase id } := by
  unfold remove activeCallCount
  cases found : reg.inner[id]? with
  | none => simp
  | some m =>
      by_cases owned : m.ownerInstance = owner
      · by_cases idle : reg.activeCalls[id]?.getD 0 = 0
        · simp [owned, idle, eq_comm]
        · simp [owned, idle, Nat.pos_of_ne_zero idle]
      · simp [owned]

theorem removeByOwner_inner (instanceId : String) (id : ServiceId) :
    (reg.removeByOwner instanceId).2.inner[id]? =
      reg.inner[id]?.filter (·.ownerInstance ≠ instanceId) := by
  simp [removeByOwner]

theorem removeByOwner_activeCalls (instanceId : String) (id : ServiceId) :
    (reg.removeByOwner instanceId).2.activeCalls[id]? =
      if reg.inner[id]?.any (·.ownerInstance = instanceId) then none
      else reg.activeCalls[id]? := by
  have swept : id ∈ (reg.inner.filter fun _ m => m.ownerInstance = instanceId).keys ↔
      reg.inner[id]?.any (·.ownerInstance = instanceId) := by
    rw [TreeMap.mem_keys, TreeMap.mem_iff_isSome_getElem?, TreeMap.getElem?_filter']
    cases reg.inner[id]? <;> simp [Option.filter]
  simp only [removeByOwner, getElem?_foldl_erase, swept]

theorem bumpCall_count (id id' : ServiceId) :
    (reg.bumpCall id).activeCallCount id' =
      reg.activeCallCount id' + if id = id' then 1 else 0 := by
  simp only [bumpCall, activeCallCount, getElem?_insert_eq]
  split
  · next same => simp [same]
  · rfl

theorem releaseCall_count (id id' : ServiceId) :
    (reg.releaseCall id).activeCallCount id' =
      reg.activeCallCount id' - if id = id' then 1 else 0 := by
  unfold releaseCall activeCallCount
  cases counted : reg.activeCalls[id]? with
  | none =>
      by_cases same : id = id'
      · subst same
        simp [counted]
      · simp [same]
  | some n =>
      by_cases last : n - 1 = 0
      · by_cases same : id = id'
        · subst same
          simp [last, counted]
        · simp [last, getElem?_erase_eq, same]
      · by_cases same : id = id'
        · subst same
          simp [last, counted]
        · simp [last, getElem?_insert_eq, same]

theorem releaseCall_inner (id : ServiceId) : (reg.releaseCall id).inner = reg.inner := by
  unfold releaseCall
  split
  · rfl
  · split <;> rfl

theorem releaseCall_nextId (id : ServiceId) : (reg.releaseCall id).nextId = reg.nextId := by
  unfold releaseCall
  split
  · rfl
  · split <;> rfl

end ServiceRegistry

/-! ## The invariant -/

structure Accounts (s : ServiceCalls) : Prop where
  counted : ∀ (id : ServiceId) m, s.registry.inner[id]? = some m →
    s.registry.activeCallCount id = s.guards.count id
  uncounted : ∀ (id : ServiceId), s.registry.inner[id]? = none → s.registry.activeCallCount id = 0
  named : ∀ (id : ServiceId) m, s.registry.inner[id]? = some m → m.id = id ∧ id ∈ s.minted
  guarded : ∀ id ∈ s.guards, id ∈ s.minted
  acquiring : ∀ id ∈ s.acquiring, id ∈ s.registry.inner
  minted : ∀ id ∈ s.minted, ∃ n < s.registry.nextId, id = ServiceRegistry.mintId n
  once : s.minted.Nodup
  unique : ∀ (id id' : ServiceId) m m', s.registry.inner[id]? = some m →
    s.registry.inner[id']? = some m' → m.ownerInstance = m'.ownerInstance →
    m.info.localId = m'.info.localId → id = id'

namespace Accounts
variable {s t : ServiceCalls}

theorem new : Accounts .new := by
  constructor <;> simp [ServiceCalls.new, ServiceRegistry.new, ServiceRegistry.activeCallCount]

theorem fresh (acc : Accounts s) : ServiceRegistry.mintId s.registry.nextId ∉ s.minted := by
  intro mem
  obtain ⟨n, below, same⟩ := acc.minted _ mem
  exact below.ne' (mintId_injective same)

theorem register (acc : Accounts s) {owner plugin : String} {info : ServiceInfo} {id : ServiceId}
    {reg : ServiceRegistry} (registered : s.registry.register owner plugin info = .ok (id, reg)) :
    Accounts { s with registry := reg, minted := s.minted ++ [id] } := by
  obtain ⟨free, rfl, rfl⟩ := ServiceRegistry.register_eq_ok.mp registered
  have absent : ∀ (id : ServiceId) m, s.registry.inner[id]? = some m →
      ServiceRegistry.mintId s.registry.nextId ≠ id := by
    intro id m found same
    exact acc.fresh (same ▸ (acc.named id m found).2)
  have unseen : s.registry.inner[ServiceRegistry.mintId s.registry.nextId]? = none := by
    apply Option.eq_none_iff_forall_ne_some.mpr
    exact fun m found => absent _ m found rfl
  constructor
  case counted =>
    intro id m found
    simp only [getElem?_insert_eq] at found
    split at found
    · next same =>
        subst same
        rw [List.count_eq_zero_of_not_mem fun mem => acc.fresh (acc.guarded _ mem)]
        exact acc.uncounted _ unseen
    · exact acc.counted id m found
  case uncounted =>
    intro id none
    simp only [getElem?_insert_eq] at none
    split at none
    · cases none
    · exact acc.uncounted id none
  case named =>
    intro id m found
    simp only [getElem?_insert_eq] at found
    split at found
    · next same =>
        subst same
        cases found
        exact ⟨rfl, by simp⟩
    · exact ⟨(acc.named id m found).1, List.mem_append_left _ (acc.named id m found).2⟩
  case guarded => exact fun id mem => List.mem_append_left _ (acc.guarded id mem)
  case acquiring =>
    intro id mem
    simp only [TreeMap.mem_insert]
    exact Or.inr (acc.acquiring id mem)
  case minted =>
    intro id mem
    rcases List.mem_append.mp mem with old | last
    · obtain ⟨n, below, same⟩ := acc.minted id old
      exact ⟨n, Nat.lt_succ_of_lt below, same⟩
    · exact ⟨s.registry.nextId, Nat.lt_succ_self _, List.mem_singleton.mp last⟩
  case once =>
    apply List.nodup_append.mpr
    refine ⟨acc.once, List.nodup_singleton _, fun id old id' last => ?_⟩
    obtain rfl := List.mem_singleton.mp last
    exact fun same => acc.fresh (same ▸ old)
  case unique =>
    intro id id' m m' found found' owner local_id
    simp only [getElem?_insert_eq] at found found'
    split at found
    · next here =>
        cases found
        split at found'
        · next here' => exact here.symm.trans here'
        · exact absurd local_id.symm (free id' m' found' owner.symm)
    · split at found'
      · cases found'
        exact absurd local_id (free id m found owner)
      · exact acc.unique id id' m m' found found' owner local_id

theorem update (acc : Accounts s) {owner : String} {id : ServiceId} {info : ServiceInfo}
    {reg : ServiceRegistry} (updated : s.registry.update owner id info = .ok reg) :
    Accounts { s with registry := reg } := by
  obtain ⟨m, found, owned, same, rfl⟩ := ServiceRegistry.update_eq_ok.mp updated
  have before : ∀ (id' : ServiceId) m',
      (s.registry.inner.insert id { m with info := info })[id']? = some m' →
      ∃ old, s.registry.inner[id']? = some old ∧ old.id = m'.id ∧ old.key = m'.key := by
    intro id' m' at_id
    rw [getElem?_insert_eq] at at_id
    split at at_id
    · next here =>
        subst here
        cases at_id
        exact ⟨m, found, rfl, by simp [ServiceMeta.key, same]⟩
    · exact ⟨m', at_id, rfl, rfl⟩
  exact { acc with
    counted := by
      intro id' m' at_id
      obtain ⟨old, at_id, _⟩ := before id' m' at_id
      exact acc.counted id' old at_id
    uncounted := by
      intro id' none
      simp only [getElem?_insert_eq] at none
      split at none
      · cases none
      · exact acc.uncounted id' none
    named := by
      intro id' m' at_id
      obtain ⟨old, at_id, name, _⟩ := before id' m' at_id
      exact ⟨name ▸ (acc.named id' old at_id).1, (acc.named id' old at_id).2⟩
    acquiring := by
      intro id' mem
      simp only [TreeMap.mem_insert]
      exact Or.inr (acc.acquiring id' mem)
    unique := by
      intro id₁ id₂ m₁ m₂ found₁ found₂ owner local_id
      obtain ⟨old₁, at₁, _, key₁⟩ := before id₁ m₁ found₁
      obtain ⟨old₂, at₂, _, key₂⟩ := before id₂ m₂ found₂
      simp only [ServiceMeta.key, Prod.mk.injEq] at key₁ key₂
      apply acc.unique id₁ id₂ old₁ old₂ at₁ at₂
      · rw [key₁.1, key₂.1, owner]
      · rw [key₁.2.2, key₂.2.2, local_id] }

theorem shrink (acc : Accounts s) (idle : s.acquiring = []) (gone : ServiceId → Prop)
    (reg : ServiceRegistry) (next : reg.nextId = s.registry.nextId)
    (inner : ∀ (id : ServiceId), reg.inner[id]? = s.registry.inner[id]? ∧ ¬gone id ∨
      reg.inner[id]? = none ∧ gone id)
    (calls : ∀ (id : ServiceId), ¬gone id → reg.activeCallCount id = s.registry.activeCallCount id)
    (cleared : ∀ (id : ServiceId), gone id → reg.activeCallCount id = 0) :
    Accounts { s with registry := reg } := by
  have before : ∀ (id : ServiceId) m, reg.inner[id]? = some m →
      s.registry.inner[id]? = some m ∧ ¬gone id := by
    intro id m found
    rcases inner id with ⟨same, kept⟩ | ⟨none, _⟩
    · exact ⟨same ▸ found, kept⟩
    · rw [none] at found
      cases found
  exact { acc with
    counted := by
      intro id m found
      obtain ⟨old, kept⟩ := before id m found
      exact (calls id kept).trans (acc.counted id m old)
    uncounted := by
      intro id none
      rcases inner id with ⟨same, kept⟩ | ⟨_, gone⟩
      · exact (calls id kept).trans (acc.uncounted id (same ▸ none))
      · exact cleared id gone
    named := fun id m found => acc.named id m (before id m found).1
    acquiring := by
      intro id mem
      change id ∈ s.acquiring at mem
      rw [idle] at mem
      cases mem
    minted := by
      change ∀ id ∈ s.minted, ∃ n < reg.nextId, id = ServiceRegistry.mintId n
      rw [next]
      exact acc.minted
    unique := fun id id' m m' found found' =>
      acc.unique id id' m m' (before id m found).1 (before id' m' found').1 }

theorem remove (acc : Accounts s) (idle : s.acquiring = []) {owner : String} {id : ServiceId}
    {reg : ServiceRegistry} (removed : s.registry.remove owner id = .ok reg) :
    Accounts { s with registry := reg } := by
  obtain ⟨m, _, _, _, rfl⟩ := ServiceRegistry.remove_eq_ok.mp removed
  apply acc.shrink idle (id = ·) { s.registry with
    inner := s.registry.inner.erase id, activeCalls := s.registry.activeCalls.erase id } rfl
  · intro id'
    by_cases here : id = id'
    · exact Or.inr ⟨by simp [here], here⟩
    · exact Or.inl ⟨by simp only [getElem?_erase_eq, if_neg here], here⟩
  · intro id' kept
    simp only [ServiceRegistry.activeCallCount, getElem?_erase_eq, if_neg kept]
  · intro id' here
    simp only [ServiceRegistry.activeCallCount, getElem?_erase_eq, if_pos here, Option.getD_none]

theorem removeByOwner (acc : Accounts s) (idle : s.acquiring = []) (instanceId : String) :
    Accounts { s with registry := (s.registry.removeByOwner instanceId).2 } := by
  apply acc.shrink idle
    (fun id => s.registry.inner[id]?.any (·.ownerInstance = instanceId))
    (s.registry.removeByOwner instanceId).2 rfl
  · intro id
    rw [ServiceRegistry.removeByOwner_inner]
    cases s.registry.inner[id]? with
    | none => exact Or.inl ⟨rfl, by simp⟩
    | some m =>
        by_cases swept : m.ownerInstance = instanceId
        · exact Or.inr (by simp [Option.filter, swept])
        · exact Or.inl (by simp [Option.filter, swept])
  · intro id kept
    rw [ServiceRegistry.activeCallCount, ServiceRegistry.removeByOwner_activeCalls, if_neg kept]
    rfl
  · intro id gone
    rw [ServiceRegistry.activeCallCount, ServiceRegistry.removeByOwner_activeCalls, if_pos gone]
    rfl

theorem bump (acc : Accounts s) {id : ServiceId} (inside : id ∈ s.acquiring) :
    Accounts { s with
      registry := s.registry.bumpCall id
      acquiring := s.acquiring.erase id
      guards := id :: s.guards } := by
  obtain ⟨m, found⟩ := Option.isSome_iff_exists.mp
    (TreeMap.mem_iff_isSome_getElem?.mp (acc.acquiring id inside))
  exact { acc with
    counted := by
      intro id' m' at_id
      rw [ServiceRegistry.bumpCall_count, acc.counted id' m' at_id, List.count_cons]
      simp
    uncounted := by
      intro id' none
      have apart : id ≠ id' := by
        rintro rfl
        cases found.symm.trans none
      rw [ServiceRegistry.bumpCall_count, if_neg apart]
      exact acc.uncounted id' none
    guarded := by
      intro id' mem
      rcases List.mem_cons.mp mem with rfl | old
      · exact (acc.named _ m found).2
      · exact acc.guarded id' old
    acquiring := fun id' mem => acc.acquiring id' (List.mem_of_mem_erase mem) }

theorem dropGuard (acc : Accounts s) (id : ServiceId) :
    Accounts { s with registry := s.registry.releaseCall id, guards := s.guards.erase id } := by
  have inner := s.registry.releaseCall_inner id
  have nextId := s.registry.releaseCall_nextId id
  constructor
  case counted =>
    intro id' m found
    rw [ServiceRegistry.releaseCall_count, acc.counted id' m (inner ▸ found), List.count_erase]
    simp
  case uncounted =>
    intro id' none
    rw [ServiceRegistry.releaseCall_count, acc.uncounted id' (inner ▸ none), Nat.zero_sub]
  case named => exact fun id' m found => acc.named id' m (inner ▸ found)
  case guarded => exact fun id' mem => acc.guarded id' (List.mem_of_mem_erase mem)
  case acquiring => exact fun id' mem => inner.symm ▸ acc.acquiring id' mem
  case minted => exact fun id' mem => nextId.symm ▸ acc.minted id' mem
  case once => exact acc.once
  case unique =>
    exact fun id₁ id₂ m₁ m₂ found₁ found₂ =>
      acc.unique id₁ id₂ m₁ m₂ (inner ▸ found₁) (inner ▸ found₂)

theorem step (acc : Accounts s) {action : ServiceAction} (taken : s.step action = some t) :
    Accounts t := by
  cases action with
  | register owner plugin info =>
      simp only [ServiceCalls.step] at taken
      split at taken
      · cases taken
      · split at taken
        · cases taken
          exact acc
        · next id reg registered =>
            cases taken
            exact acc.register registered
  | update owner id info =>
      simp only [ServiceCalls.step, ServiceCalls.write] at taken
      split at taken
      · cases taken
      · split at taken
        · cases taken
          exact acc
        · next reg updated =>
            cases taken
            exact acc.update updated
  | remove owner id =>
      simp only [ServiceCalls.step, ServiceCalls.write] at taken
      split at taken
      · cases taken
      · next idle =>
        split at taken
        · cases taken
          exact acc
        · next reg removed =>
            cases taken
            exact acc.remove (not_not.mp idle) removed
  | removeByOwner instanceId =>
      simp only [ServiceCalls.step, ServiceCalls.write] at taken
      split at taken
      · cases taken
      · next idle =>
          cases taken
          exact acc.removeByOwner (not_not.mp idle) instanceId
  | enterAcquire id =>
      simp only [ServiceCalls.step] at taken
      split at taken
      · next listed =>
          cases taken
          refine { acc with acquiring := fun id' mem => ?_ }
          rcases List.mem_cons.mp mem with rfl | old
          · exact listed
          · exact acc.acquiring id' old
      · cases taken
        exact acc
  | bump id =>
      simp only [ServiceCalls.step, Option.ite_none_right_eq_some] at taken
      obtain ⟨inside, same⟩ := taken
      cases same
      exact acc.bump inside
  | dropGuard id =>
      simp only [ServiceCalls.step, Option.ite_none_right_eq_some] at taken
      obtain ⟨_, same⟩ := taken
      cases same
      exact acc.dropGuard id

end Accounts

/-! ## The life of an id -/

theorem Accounts.origin {s t : ServiceCalls} (acc : Accounts s) {action : ServiceAction}
    (taken : s.step action = some t) {id : ServiceId} (minted : id ∈ s.minted) :
    id ∈ t.minted ∧ ∀ m', t.registry.inner[id]? = some m' →
      ∃ m, s.registry.inner[id]? = some m ∧ m.key = m'.key := by
  cases action with
  | register owner plugin info =>
      simp only [ServiceCalls.step] at taken
      split at taken
      · cases taken
      · split at taken
        · cases taken
          exact ⟨minted, fun m found => ⟨m, found, rfl⟩⟩
        · next new reg registered =>
            cases taken
            obtain ⟨_, rfl, rfl⟩ := ServiceRegistry.register_eq_ok.mp registered
            refine ⟨List.mem_append_left _ minted, fun m found => ⟨m, ?_, rfl⟩⟩
            have apart : ServiceRegistry.mintId s.registry.nextId ≠ id :=
              fun same => acc.fresh (same ▸ minted)
            rwa [getElem?_insert_ne _ _ apart] at found
  | update owner id' info =>
      simp only [ServiceCalls.step, ServiceCalls.write] at taken
      split at taken
      · cases taken
      · split at taken
        · cases taken
          exact ⟨minted, fun m found => ⟨m, found, rfl⟩⟩
        · next reg updated =>
            cases taken
            obtain ⟨m, found, _, same, rfl⟩ := ServiceRegistry.update_eq_ok.mp updated
            refine ⟨minted, fun m' at_id => ?_⟩
            simp only [getElem?_insert_eq] at at_id
            split at at_id
            · next here =>
                cases at_id
                exact ⟨m, here ▸ found, by simp [ServiceMeta.key, same]⟩
            · exact ⟨m', at_id, rfl⟩
  | remove owner id' =>
      simp only [ServiceCalls.step, ServiceCalls.write] at taken
      split at taken
      · cases taken
      · split at taken
        · cases taken
          exact ⟨minted, fun m found => ⟨m, found, rfl⟩⟩
        · next reg removed =>
            cases taken
            obtain ⟨_, _, _, _, rfl⟩ := ServiceRegistry.remove_eq_ok.mp removed
            refine ⟨minted, fun m found => ⟨m, ?_, rfl⟩⟩
            simp only [getElem?_erase_eq] at found
            split at found
            · cases found
            · exact found
  | removeByOwner instanceId =>
      simp only [ServiceCalls.step, ServiceCalls.write] at taken
      split at taken
      · cases taken
      · cases taken
        refine ⟨minted, fun m found => ⟨m, ?_, rfl⟩⟩
        rw [ServiceRegistry.removeByOwner_inner] at found
        exact (Option.filter_eq_some_iff.mp found).1
  | enterAcquire id' =>
      simp only [ServiceCalls.step] at taken
      split at taken
      all_goals
        cases taken
        exact ⟨minted, fun m found => ⟨m, found, rfl⟩⟩
  | bump id' =>
      simp only [ServiceCalls.step, Option.ite_none_right_eq_some] at taken
      obtain ⟨_, same⟩ := taken
      cases same
      exact ⟨minted, fun m found => ⟨m, found, rfl⟩⟩
  | dropGuard id' =>
      simp only [ServiceCalls.step, Option.ite_none_right_eq_some] at taken
      obtain ⟨_, same⟩ := taken
      cases same
      refine ⟨minted, fun m found => ⟨m, ?_, rfl⟩⟩
      rwa [ServiceRegistry.releaseCall_inner] at found

theorem exec_accounts {actions : List ServiceAction} {s : ServiceCalls}
    (ran : exec ServiceCalls.step .new actions = some s) : Accounts s :=
  exec_invariant (fun _ _ _ acc taken => acc.step taken) Accounts.new ran

theorem Accounts.exec_key {actions : List ServiceAction} {s t : ServiceCalls} {id : ServiceId}
    {m : ServiceMeta} (acc : Accounts s) (found : s.registry.inner[id]? = some m)
    (ran : exec ServiceCalls.step s actions = some t) :
    ∀ m', t.registry.inner[id]? = some m' → m'.key = m.key := by
  have names : Accounts t ∧ id ∈ t.minted ∧
      ∀ m', t.registry.inner[id]? = some m' → m'.key = m.key := by
    apply exec_invariant (P := fun t => Accounts t ∧ id ∈ t.minted ∧
      ∀ m', t.registry.inner[id]? = some m' → m'.key = m.key) _ _ ran
    · intro u action v ⟨acc, minted, bound⟩ taken
      obtain ⟨later, origin⟩ := acc.origin taken minted
      refine ⟨acc.step taken, later, fun m' at_id => ?_⟩
      obtain ⟨old, at_old, same⟩ := origin m' at_id
      exact same.symm.trans (bound old at_old)
    · refine ⟨acc, (acc.named id m found).2, fun m' found' => ?_⟩
      rw [Option.some.inj (found'.symm.trans found)]
  exact names.2.2

theorem Accounts.resolve {s : ServiceCalls} (acc : Accounts s)
    {entries : List (ServiceId × ServiceMeta)} (perm : entries.Perm s.registry.inner.toList)
    (plugin instanceId localId : String) (id : ServiceId) :
    ServiceRegistry.resolveByLocalId entries plugin instanceId localId = some id ↔
      ∃ m, s.registry.inner[id]? = some m ∧ m.key = (instanceId, plugin, localId) := by
  have listed : ∀ id m, (id, m) ∈ entries ↔ s.registry.inner[id]? = some m := fun id m => by
    rw [perm.mem_iff, mem_toList]
  have sound : ∀ id, ServiceRegistry.resolveByLocalId entries plugin instanceId localId = some id →
      ∃ m, s.registry.inner[id]? = some m ∧ m.key = (instanceId, plugin, localId) := by
    intro id resolved
    obtain ⟨⟨id', m⟩, mem, hit⟩ := List.exists_of_findSome?_eq_some resolved
    have found := (listed id' m).mp mem
    simp only [Bool.and_eq_true, decide_eq_true_eq, Option.ite_none_right_eq_some,
      Option.some.injEq] at hit
    obtain ⟨⟨⟨owner_plugin, owner⟩, local_id⟩, same⟩ := hit
    refine ⟨m, ?_, by simp [ServiceMeta.key, owner, owner_plugin, local_id]⟩
    rw [← same, (acc.named id' m found).1]
    exact found
  constructor
  · exact sound id
  · intro ⟨m, found, key⟩
    have key_parts := key
    simp only [ServiceMeta.key, Prod.mk.injEq] at key_parts
    cases resolved : ServiceRegistry.resolveByLocalId entries plugin instanceId localId with
    | none =>
        have missed := List.findSome?_eq_none_iff.mp resolved (id, m) ((listed id m).mpr found)
        simp [key_parts] at missed
    | some id' =>
        obtain ⟨m', found', key'⟩ := sound id' resolved
        simp only [ServiceMeta.key, Prod.mk.injEq] at key'
        rw [acc.unique id' id m' m found' found (key'.1.trans key_parts.1.symm)
          (key'.2.2.trans key_parts.2.2.symm)]

/-! ## The law of the registry -/

structure RegistryLaw (s : ServiceCalls) : Prop where
  counted : ∀ (id : ServiceId) m, s.registry.inner[id]? = some m →
    s.registry.activeCallCount id = s.guards.count id
  bounded : ∀ (id : ServiceId), s.registry.activeCallCount id ≤ s.guards.length
  removed : ∀ owner (id : ServiceId) reg, s.registry.remove owner id = .ok reg →
    s.guards.count id = 0
  released : ∀ (id id' : ServiceId), s.registry.inner[id]? = none ∨ id ≠ id' →
    (s.registry.releaseCall id).activeCallCount id' = s.registry.activeCallCount id'
  fresh : ∀ owner plugin info id reg, s.registry.register owner plugin info = .ok (id, reg) →
    id ∉ s.minted
  listed : ∀ (id : ServiceId) m, s.registry.inner[id]? = some m → id ∈ s.minted
  unique : ∀ (id id' : ServiceId) m m', s.registry.inner[id]? = some m →
    s.registry.inner[id']? = some m' → m.ownerInstance = m'.ownerInstance →
    m.info.localId = m'.info.localId → id = id'
  resolved : ∀ entries, entries.Perm s.registry.inner.toList →
    ∀ plugin instanceId localId (id : ServiceId),
      ServiceRegistry.resolveByLocalId entries plugin instanceId localId = some id ↔
        ∃ m, s.registry.inner[id]? = some m ∧ m.ownerPluginId = plugin ∧
          m.ownerInstance = instanceId ∧ m.info.localId = localId

theorem Accounts.law {s : ServiceCalls} (acc : Accounts s) : RegistryLaw s where
  counted := acc.counted
  bounded := by
    intro id
    cases found : s.registry.inner[id]? with
    | none =>
        rw [acc.uncounted id found]
        exact Nat.zero_le _
    | some m =>
        rw [acc.counted id m found]
        exact List.count_le_length
  removed := by
    intro owner id reg removed
    obtain ⟨m, found, _, none_active, _⟩ := ServiceRegistry.remove_eq_ok.mp removed
    exact (acc.counted id m found).symm.trans none_active
  released := by
    intro id id' other
    rw [ServiceRegistry.releaseCall_count]
    by_cases same : id = id'
    · subst same
      rw [acc.uncounted id (other.resolve_right fun apart => apart rfl), Nat.zero_sub]
    · rw [if_neg same, Nat.sub_zero]
  fresh := by
    intro owner plugin info id reg registered
    rw [(ServiceRegistry.register_eq_ok.mp registered).2.1]
    exact acc.fresh
  listed := fun id m found => (acc.named id m found).2
  unique := acc.unique
  resolved := by
    intro entries perm plugin instanceId localId id
    rw [acc.resolve perm]
    refine exists_congr fun m => and_congr_right fun _ => ?_
    simp only [ServiceMeta.key, Prod.mk.injEq]
    tauto

/-- `s` is any state of a run, `t` any later one. -/
theorem service_registry_law {before after : List ServiceAction} {s t : ServiceCalls}
    (ran : exec ServiceCalls.step .new before = some s)
    (later : exec ServiceCalls.step s after = some t) :
    RegistryLaw s ∧ t.minted.Nodup ∧ (∀ id ∈ s.minted, id ∈ t.minted) ∧
      ∀ (id : ServiceId) m m', s.registry.inner[id]? = some m → t.registry.inner[id]? = some m' →
        m'.ownerInstance = m.ownerInstance ∧ m'.ownerPluginId = m.ownerPluginId ∧
          m'.info.localId = m.info.localId := by
  have acc := exec_accounts ran
  have whole : exec ServiceCalls.step .new (before ++ after) = some t :=
    exec_append.mpr ⟨s, ran, later⟩
  refine ⟨acc.law, (exec_accounts whole).once, fun id minted => ?_, fun id m m' found found' => ?_⟩
  · have kept : Accounts t ∧ id ∈ t.minted := by
      apply exec_invariant (P := fun t => Accounts t ∧ id ∈ t.minted) _ ⟨acc, minted⟩ later
      intro u action v ⟨acc, minted⟩ taken
      exact ⟨acc.step taken, (acc.origin taken minted).1⟩
    exact kept.2
  · simpa [ServiceMeta.key] using acc.exec_key found later m' found'

theorem service_registry_law_reregistered :
    let info : ServiceInfo := ⟨"scene", "Scene", [], []⟩
    let before := [ServiceAction.register "hub" "plugin" info, .enterAcquire "svc-0",
      .bump "svc-0", .remove "hub" "svc-0"]
    let after := [ServiceAction.dropGuard "svc-0", .remove "hub" "svc-0",
      .register "hub" "plugin" info]
    ∃ s t, exec ServiceCalls.step .new before = some s ∧
      exec ServiceCalls.step s after = some t ∧ t.minted = ["svc-0", "svc-1"] ∧
      RegistryLaw s ∧ t.minted.Nodup ∧ (∀ id ∈ s.minted, id ∈ t.minted) ∧
      ∀ (id : ServiceId) m m', s.registry.inner[id]? = some m → t.registry.inner[id]? = some m' →
        m'.ownerInstance = m.ownerInstance ∧ m'.ownerPluginId = m.ownerPluginId ∧
          m'.info.localId = m.info.localId := by
  intro info before after
  exact ⟨_, _, rfl, rfl, by decide, @service_registry_law before after _ _ rfl rfl⟩

end OxidHome.Services

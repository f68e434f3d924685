import OxidHome.Host.Consistency

/-!
# Histories of host calls

Every step is of one of four kinds: it changes what an instance is doing and neither store, or the
registry at one device, or the slots of one device in the projection, or it sweeps an instance.
-/

namespace OxidHome.Host
open Wit Library History Projection
open Std (TreeMap)

namespace HostStores
variable {sha256 : Sha256} {used : DeviceTriple → Prop} {s t : HostStores} {a o : String}
  {stage : CallStage}

theorem await_self : (s.await a stage).calls[a]? = some stage := getElem?_insert_self _ _ _

theorem await_other (apart : o ≠ a) : (s.await a stage).calls[o]? = s.calls[o]? := by
  rw [await, getElem?_insert_eq, if_neg apart.symm]

theorem returned_self : (s.returned a).calls[a]? = none := by
  rw [returned, getElem?_erase_eq, if_pos rfl]

theorem returned_other (apart : o ≠ a) : (s.returned a).calls[o]? = s.calls[o]? := by
  rw [returned, getElem?_erase_eq, if_neg apart.symm]

theorem settled_of_none (idle : s.calls[a]? = none) (id : DeviceId) : ¬ s.Between a id := by
  rintro ⟨stage, calling, _⟩
  rw [idle] at calling
  cases calling

theorem between_iff (calling : s.calls[a]? = some stage) {id : DeviceId} :
    s.Between a id ↔ stage.between = some id := by
  constructor
  · rintro ⟨stage', again, here⟩
    rw [calling] at again
    cases again
    exact here
  · intro here
    exact ⟨stage, calling, here⟩

theorem Pending.congr (pending : s.Pending sha256 used o stage) (devices : t.devices = s.devices)
    (inner : t.inner = s.inner) : t.Pending sha256 used o stage := by
  obtain ⟨_, _, calls⟩ := t
  cases devices
  cases inner
  cases stage with
  | registering | seeding | reconciling | removing | authorized | recording | answering
  | projecting => exact pending

theorem Origin.own (origin : s.Origin sha256 used) (free : CollisionFree sha256 used)
    {slot : SlotKey} (mine : IdOf sha256 used slot.1 a) (e : DeviceState)
    (found : s.inner.freshAt slot = some e) : e.ownerInstance = a := by
  obtain ⟨there, fresh⟩ := StoreInner.freshAt_eq_some.mp found
  exact (origin slot e there fresh).owner free mine

/-! ## Neither store changes -/

theorem Sound.calls (sound : s.Sound sha256 used) (free : CollisionFree sha256 used)
    (devices : t.devices = s.devices) (inner : t.inner = s.inner)
    (others : ∀ o, o ≠ a → t.calls[o]? = s.calls[o]?) (settled : ∀ id, ¬ s.Between a id)
    (pending : ∀ stage, t.calls[a]? = some stage → s.Pending sha256 used a stage) :
    t.Sound sha256 used := by
  have spares : ∀ o, o ≠ a → s.Spares t o := by
    intro o apart
    refine ⟨?_, ?_, ?_, others o apart⟩
    · intro id m found _
      rw [devices]
      exact found
    · intro slot e _ _
      rw [inner]
    · rw [inner]
  apply sound.moved free spares
  · rw [inner]
    exact sound.valid
  · rw [devices]
    exact sound.derived
  · intro slot e found fresh
    rw [inner] at found
    exact sound.origin slot e found fresh
  · rw [inner]
    exact sound.within
  · rw [devices]
    exact sound.owned
  · intro slot e found fresh own
    rw [inner] at found
    rcases sound.declared slot e found fresh with between | owns
    · rw [own] at between
      exact absurd between (settled slot.1)
    · right
      rw [own] at owns
      obtain ⟨m, there, rest⟩ := owns
      refine ⟨m, ?_, rest⟩
      rw [devices]
      exact there
  · rw [inner]
    exact sound.total a
  · intro stage calling
    exact (pending stage calling).congr devices inner

theorem Sound.awaits (sound : s.Sound sha256 used) (free : CollisionFree sha256 used)
    (settled : ∀ id, ¬ s.Between a id) (pending : s.Pending sha256 used a stage) :
    (s.await a stage).Sound sha256 used := by
  apply sound.calls (t := s.await a stage) free rfl rfl (fun o apart => await_other apart) settled
  intro stage' calling
  rw [await_self] at calling
  cases calling
  exact pending

theorem Sound.returns (sound : s.Sound sha256 used) (free : CollisionFree sha256 used)
    (settled : ∀ id, ¬ s.Between a id) : (s.returned a).Sound sha256 used := by
  apply sound.calls (t := s.returned a) free rfl rfl (fun o apart => returned_other apart) settled
  intro stage' calling
  rw [returned_self] at calling
  cases calling

/-! ## The registry changes at one device -/

theorem Sound.registry (sound : s.Sound sha256 used) (free : CollisionFree sha256 used)
    (action : DeviceAction) (actor : action.actor = a)
    (uses : ∀ triple, action.triple = some triple → used triple)
    (checked : ∀ uuid o info, action ≠ .register uuid o info) {devices : DeviceRegistry}
    (moved : deviceStep sha256 s.devices action = devices) {id : DeviceId}
    (elsewhere : ∀ other : DeviceId, id ≠ other → devices.inner[other]? = s.devices.inner[other]?)
    (settled : ∀ id, ¬ s.Between a id) (between : stage.between = some id)
    (pending : ({ s with devices := devices } : HostStores).Pending sha256 used a stage) :
    (({ s with devices := devices } : HostStores).await a stage).Sound sha256 used := by
  subst moved
  have spares : ∀ o, o ≠ a → s.Spares
      (({ s with devices := deviceStep sha256 s.devices action } : HostStores).await a stage) o := by
    intro o apart
    refine ⟨?_, fun _ _ _ _ => Iff.rfl, rfl, await_other apart⟩
    intro id m found own
    apply deviceStep_spares sound.derived free uses found
    rw [own, actor]
    exact apart
  apply sound.moved free spares sound.valid (sound.derived.step uses) sound.origin sound.within
  · intro o
    exact deviceStep_quota sound.derived free uses (fun uuid info => checked uuid o info)
      (sound.owned o)
  · intro slot e found fresh own
    by_cases here : id = slot.1
    · left
      rw [← here]
      exact ⟨stage, await_self, between⟩
    · right
      rcases sound.declared slot e found fresh with changing | owns
      · rw [own] at changing
        exact absurd changing (settled slot.1)
      · rw [own] at owns
        obtain ⟨m, there, rest⟩ := owns
        exact ⟨m, (elsewhere slot.1 here).trans there, rest⟩
  · exact sound.total a
  · intro stage' calling
    rw [await_self] at calling
    cases calling
    exact pending.congr rfl rfl

/-! ## The projection changes at one device -/

theorem device_bumps {m : Mutation} {d : DeviceId} (about : m.device = some d) : m.bumps = none := by
  cases m with
  | applyDelta | replaceSnapshot | resetAndSeedDevice | markDeviceStale | reconcileCapabilities => rfl
  | bumpGeneration | restartGeneration | markInstanceStale => cases about

theorem Sound.projected (sound : s.Sound sha256 used) (free : CollisionFree sha256 used)
    {m : Mutation} {d : DeviceId} (about : m.device = some d) (mine : IdOf sha256 used d a)
    (fit : m.SeedsFit)
    (writer : ∀ (slot : SlotKey) owner fields, m.writes s.inner slot = some (owner, fields) →
      owner = a ∧ s.Owns a slot.1 slot.2)
    (kept : ∀ (slot : SlotKey) (e : DeviceState), slot.1 = d → s.inner.entries[slot]? = some e →
      e.quality = .fresh → e.ownerInstance = a → m.sweeps slot e = false → s.Owns a slot.1 slot.2)
    (between : ∀ id, s.Between a id → id = d)
    (total : (s.inner.mutate m).ownerTotal a ≤ MAX_PROJECTED_BYTES_PER_INSTANCE) :
    ({ s.returned a with inner := s.inner.mutate m } : HostStores).Sound sha256 used := by
  have device : ∀ {slot : SlotKey} {owner fields},
      m.writes s.inner slot = some (owner, fields) → slot.1 = d := by
    intro slot owner fields written
    by_contra apart
    rw [Mutation.writes_device about apart] at written
    cases written
  have spares : ∀ o, o ≠ a → s.Spares { s.returned a with inner := s.inner.mutate m } o := by
    intro o apart
    refine ⟨fun _ _ found _ => found, ?_, ?_, returned_other apart⟩
    · intro slot e fresh own
      by_cases here : slot.1 = d
      · -- nothing of another owner is fresh at a device of the instance
        have foreign : ¬ s.inner.entries[slot]? = some e := by
          intro found
          have theirs := sound.origin slot e found fresh
          rw [own, here] at theirs
          exact apart (theirs.owner free mine)
        constructor
        · intro after
          rcases StoreInner.mutate_fresh sound.valid after fresh with
            ⟨owner, fields, written, as⟩ | ⟨_, before, _⟩
          · have writes := (writer slot owner fields written).1
            rw [← own, as.owner] at apart
            exact absurd writes apart
          · exact absurd before foreign
        · intro before
          exact absurd before foreign
      · exact StoreInner.mutate_elsewhere sound.valid about here fresh
    · show (s.inner.mutate m).generation o = s.inner.generation o
      rw [StoreInner.mutate_generation sound.valid, device_bumps about]
      rfl
  apply sound.moved free spares (StoreInner.mutate_valid sound.valid m) sound.derived
  · intro slot e after fresh
    rcases StoreInner.mutate_fresh sound.valid after fresh with
      ⟨owner, fields, written, as⟩ | ⟨_, before, _⟩
    · rw [as.owner, (writer slot owner fields written).1, device written]
      exact mine
    · exact sound.origin slot e before fresh
  · exact sound.within.mutate sound.valid fit
  · exact sound.owned
  · intro slot e after fresh own
    right
    rcases StoreInner.mutate_fresh sound.valid after fresh with
      ⟨owner, fields, written, _⟩ | ⟨_, before, unswept⟩
    · exact (writer slot owner fields written).2
    · by_cases here : slot.1 = d
      · exact kept slot e here before fresh own unswept
      · rcases sound.declared slot e before fresh with changing | owns
        · rw [own] at changing
          exact absurd (between slot.1 changing) here
        · rw [own] at owns
          exact owns
  · exact total
  · intro stage calling
    have idle : (s.returned a).calls[a]? = none := returned_self
    rw [show _ = _ from calling] at idle
    cases idle

/-! ## A sweep -/

theorem Sound.swept (sound : s.Sound sha256 used) (free : CollisionFree sha256 used)
    {m : Mutation} (about : m.sweptOwner = some a) (idle : s.calls[a]? = none) :
    ({ s with
        devices := s.devices.removeByOwner a
        inner := s.inner.mutate m } : HostStores).Sound sha256 used := by
  have silent : ∀ slot, m.writes s.inner slot = none := by
    intro slot
    cases m with
    | restartGeneration | markInstanceStale => rfl
    | _ => cases about
  have uses : ∀ triple, (DeviceAction.removeByOwner a).triple = some triple → used triple := by
    intro triple made
    cases made
  have spares : ∀ o, o ≠ a → s.Spares
      { s with devices := s.devices.removeByOwner a, inner := s.inner.mutate m } o := by
    intro o apart
    refine ⟨?_, ?_, ?_, rfl⟩
    · intro id old found own
      apply deviceStep_spares (a := .removeByOwner a) sound.derived free uses found
      rw [own]
      exact apart
    · intro slot e fresh own
      apply StoreInner.mutate_other_owner sound.valid about _ fresh
      rw [own]
      exact apart
    · show (s.inner.mutate m).generation o = s.inner.generation o
      rw [StoreInner.mutate_generation sound.valid, if_neg]
      · rfl
      · intro bumped
        cases m with
        | restartGeneration =>
            cases about
            cases bumped
            exact apart rfl
        | markInstanceStale => cases bumped
        | _ => cases about
  have gone : ∀ (slot : SlotKey) (e : DeviceState), (s.inner.mutate m).entries[slot]? = some e →
      e.quality = .fresh → e.ownerInstance ≠ a := fun _ _ =>
    StoreInner.mutate_swept_owner sound.valid about
  apply sound.moved free spares (StoreInner.mutate_valid sound.valid m)
  · exact sound.derived.step (a := .removeByOwner a) uses
  · intro slot e after fresh
    rcases StoreInner.mutate_fresh sound.valid after fresh with
      ⟨owner, fields, written, _⟩ | ⟨_, before, _⟩
    · rw [silent slot] at written
      cases written
    · exact sound.origin slot e before fresh
  · apply sound.within.mutate sound.valid
    cases m with
    | restartGeneration | markInstanceStale => trivial
    | _ => cases about
  · intro o
    apply deviceStep_quota (a := .removeByOwner a) sound.derived free uses _ (sound.owned o)
    intro uuid info same
    cases same
  · intro slot e after fresh own
    exact absurd own (gone slot e after fresh)
  · show (s.inner.mutate m).ownerTotal a ≤ MAX_PROJECTED_BYTES_PER_INSTANCE
    rw [StoreInner.ownerTotal_eq_zero gone]
    exact Nat.zero_le _
  · intro stage calling
    rw [show _ = _ from calling] at idle
    cases idle

/-! ## Every step -/

theorem owns_of_authorized {ev : Event}
    (authorized : requirePublishAuthorized s.devices a ev = .ok ()) {d : DeviceId} {sc : StateChange}
    (delta : deltaOf ev = some (d, sc)) : s.Owns a d sc.capability := by
  unfold deltaOf at delta
  split at delta
  · next device payload =>
      cases delta
      unfold requirePublishAuthorized at authorized
      rw [device, payload] at authorized
      dsimp only at authorized
      split at authorized
      · cases authorized
      · next m found =>
          obtain ⟨there, own⟩ := DeviceRegistry.get_eq_ok.mp found
          dsimp only [requiredCapabilityForPayload] at authorized
          split_ifs at authorized with declared
          exact ⟨m, there, own, declared⟩
  · cases delta

theorem Sound.call (sound : s.Sound sha256 used) (free : CollisionFree sha256 used)
    (byteLen : Json → Nat) {caller : Caller} {request : HostRequest}
    (uses : ∀ triple, (HostAction.call caller request).triple = some triple → used triple)
    (idle : s.calls[caller.instanceId]? = none) :
    (s.call sha256 byteLen caller request).1.Sound sha256 used := by
  have settled := settled_of_none idle
  cases request with
  | registerDevice info =>
      dsimp only [HostStores.call]
      unfold registerDevice
      split
      · exact sound
      next authorized =>
      dsimp only
      split
      · exact sound
      next admitted =>
      apply sound.awaits free settled
      have ok := authorizeDeviceInfo_eq_ok.mp authorized
      exact ⟨uses _ rfl, fun seed mem => ok.seed mem, admitted⟩
  | updateDevice id info =>
      dsimp only [HostStores.call]
      unfold updateDevice
      split
      · exact sound
      next authorized =>
      split
      · exact sound
      next devices updated =>
      obtain ⟨m, found, own, _, rfl⟩ := DeviceRegistry.update_eq_ok.mp updated
      have moved : deviceStep sha256 s.devices (.update caller.instanceId id info) =
          ⟨s.devices.inner.insert id { m with info := info }⟩ := by
        simp only [deviceStep, updated]
      apply sound.registry free (.update caller.instanceId id info) rfl _ _ moved _ settled rfl
      · constructor
        · rw [← own]
          exact sound.derived.idOf found
        · intro c mem
          exact ⟨{ m with info := info }, getElem?_insert_self _ _ _, own, declares_iff.mpr mem⟩
      · intro triple made
        cases made
      · intro uuid o info same
        cases same
      · intro other apart
        rw [getElem?_insert_eq, if_neg apart]
  | removeDevice id =>
      dsimp only [HostStores.call]
      unfold removeDevice
      split
      · exact sound
      next devices removed =>
      obtain ⟨m, found, own, rfl⟩ := DeviceRegistry.remove_eq_ok.mp removed
      have moved : deviceStep sha256 s.devices (.remove caller.instanceId id) =
          ⟨s.devices.inner.erase id⟩ := by
        simp only [deviceStep, removed]
      apply sound.registry free (.remove caller.instanceId id) rfl _ _ moved _ settled rfl
      · show IdOf sha256 used id caller.instanceId
        rw [← own]
        exact sound.derived.idOf found
      · intro triple made
        cases made
      · intro uuid o info same
        cases same
      · intro other apart
        rw [getElem?_erase_eq, if_neg apart]
  | publishEvent ev admitted =>
      dsimp only [HostStores.call]
      unfold publishEvent
      split
      · exact sound
      next authorized =>
      dsimp only
      split_ifs
      · exact sound
      · exact sound
      · apply sound.awaits free settled
        intro d sc delta
        exact owns_of_authorized authorized delta
  | executed deviceId capability result =>
      dsimp only [HostStores.call]
      unfold executed
      split
      · split
        · exact sound
        split
        · exact sound
        next m found =>
        split_ifs with declared
        · apply sound.awaits free settled
          obtain ⟨there, own⟩ := DeviceRegistry.get_eq_ok.mp found
          exact ⟨m, there, own, declared⟩
        · exact sound
      · exact sound

theorem Sound.total_silent (sound : s.Sound sha256 used) {m : Mutation}
    (silent : ∀ slot, m.writes s.inner slot = none) (o : String) :
    (s.inner.mutate m).ownerTotal o ≤ MAX_PROJECTED_BYTES_PER_INSTANCE := by
  refine Nat.le_trans (StoreInner.ownerTotal_le ?_) (sound.total o)
  intro slot e after fresh _
  rcases StoreInner.mutate_fresh sound.valid after fresh with ⟨_, _, written, _⟩ | ⟨_, before, _⟩
  · rw [silent slot] at written
    cases written
  · exact before

theorem Sound.owned_slot (sound : s.Sound sha256 used) {slot : SlotKey} {e : DeviceState}
    (settled : ∀ id, ¬ s.Between a id) (found : s.inner.entries[slot]? = some e)
    (fresh : e.quality = .fresh) (own : e.ownerInstance = a) : s.Owns a slot.1 slot.2 := by
  have declared := sound.declared slot e found fresh
  rw [own] at declared
  exact declared.resolve_left (settled slot.1)

theorem Sound.idOf_owned (sound : s.Sound sha256 used) {d : DeviceId} {c : String}
    (owns : s.Owns a d c) : IdOf sha256 used d a := by
  obtain ⟨m, found, rfl, _⟩ := owns
  exact sound.derived.idOf found

theorem Sound.resume (sound : s.Sound sha256 used) (free : CollisionFree sha256 used)
    (nowMs : Int) (writeError : Option Error) (calling : s.calls[a]? = some stage) :
    (s.resume sha256 a nowMs writeError stage).1.Sound sha256 used := by
  have pending := sound.pending a stage calling
  have settled : stage.between = none → ∀ id, ¬ s.Between a id := by
    intro none id between
    rw [between_iff calling, none] at between
    cases between
  cases stage with
  | registering uuid info =>
      obtain ⟨uses, declared, admitted⟩ := pending
      dsimp only [HostStores.resume]
      split
      · exact sound.returns free (settled rfl)
      next id devices registered =>
      obtain ⟨_, made⟩ := DeviceRegistry.tryRegisterDerived_eq_ok.mp registered
      cases made
      have moved : deviceStep sha256 s.devices (.tryRegister uuid a info) =
          (s.devices.register sha256 uuid a info).2 := by
        simp only [deviceStep, registered]
        rfl
      apply sound.registry free (.tryRegister uuid a info) rfl _ _ moved _ (settled rfl) rfl
      · refine ⟨⟨uuid, info.localId, uses, rfl⟩, ?_, admitted⟩
        intro seed mem
        exact ⟨_, getElem?_insert_self _ _ _, rfl, declared seed mem⟩
      · intro triple derives
        cases derives
        exact uses
      · intro uuid o info same
        cases same
      · intro other apart
        exact (getElem?_insert_eq _ _ _ _).trans (if_neg apart)
  | seeding id seedState =>
      obtain ⟨mine, owns, admitted⟩ := pending
      apply sound.projected (m := .resetAndSeedDevice id a seedState 0 nowMs) free rfl mine
      · exact StoreInner.seedsFit_of_admitted 0 nowMs admitted
      · intro slot owner fields written
        obtain ⟨device, rfl, seed, mem, named, _⟩ := StoreInner.writes_seed written
        rw [device, ← named]
        exact ⟨rfl, owns seed mem⟩
      · intro slot e here _ fresh _ unswept
        exact absurd ⟨here, fresh⟩ (of_decide_eq_false unswept)
      · intro other between
        exact (Option.some.inj ((between_iff calling).mp between)).symm
      · apply StoreInner.ownerTotal_seed sound.valid 0 nowMs _ admitted
        rintro slot e rfl found
        exact sound.origin.own free mine e found
  | reconciling id live =>
      obtain ⟨mine, owns⟩ := pending
      apply sound.projected (m := .reconcileCapabilities id live nowMs) free rfl mine trivial
        (fun slot owner fields written => by cases written)
      · intro slot e here _ fresh _ unswept
        have listed : slot.2 ∈ live := by
          by_contra absent
          exact of_decide_eq_false unswept ⟨here, fresh, absent⟩
        rw [here]
        exact owns slot.2 listed
      · intro other between
        exact (Option.some.inj ((between_iff calling).mp between)).symm
      · exact sound.total_silent (fun _ => rfl) a
  | removing id =>
      apply sound.projected (m := .markDeviceStale id nowMs) free rfl pending trivial
        (fun slot owner fields written => by cases written)
      · intro slot e here _ fresh _ unswept
        exact absurd ⟨here, fresh⟩ (of_decide_eq_false unswept)
      · intro other between
        exact (Option.some.inj ((between_iff calling).mp between)).symm
      · exact sound.total_silent (fun _ => rfl) a
  | authorized ev =>
      dsimp only [HostStores.resume]
      split
      · exact sound.returns free (settled rfl)
      next admitted =>
      apply sound.awaits free (settled rfl)
      intro d sc delta
      refine ⟨pending d sc delta, ?_⟩
      unfold admitDelta at admitted
      rw [delta] at admitted
      dsimp only at admitted
      split at admitted
      · next ok => exact ok
      · cases admitted
  | recording ev =>
      dsimp only [HostStores.resume]
      split
      · exact sound.returns free (settled rfl)
      unfold projectDelta
      split
      · exact sound.returns free (settled rfl)
      next d sc delta =>
      obtain ⟨owns, admitted⟩ := pending d sc delta
      have mine := sound.idOf_owned owns
      apply sound.projected (m := .applyDelta d a sc.capability sc.fields ev.timestamp nowMs) free
        rfl mine trivial
      · intro slot owner fields written
        simp only [Mutation.writes] at written
        split_ifs at written with here
        cases written
        rw [here]
        exact ⟨rfl, owns⟩
      · intro slot e _ found fresh own _
        exact sound.owned_slot (settled rfl) found fresh own
      · intro other between
        exact absurd between (settled rfl other)
      · apply StoreInner.ownerTotal_delta sound.valid sound.within ev.timestamp nowMs _ admitted
        intro e there
        exact sound.origin.own free mine e there
  | answering d c fields =>
      dsimp only [HostStores.resume]
      split
      · exact sound.returns free (settled rfl)
      next admitted =>
      exact sound.awaits free (settled rfl) ⟨pending, admitted⟩
  | projecting d c fields =>
      obtain ⟨owns, admitted⟩ := pending
      have mine := sound.idOf_owned owns
      apply sound.projected
        (m := .replaceSnapshot d a c (canonicalizeSnapshotFields fields) 0 nowMs) free rfl mine trivial
      · intro slot owner fields' written
        simp only [Mutation.writes] at written
        split_ifs at written with here
        cases written
        rw [here]
        exact ⟨rfl, owns⟩
      · intro slot e _ found fresh own _
        exact sound.owned_slot (settled rfl) found fresh own
      · intro other between
        exact absurd between (settled rfl other)
      · apply StoreInner.ownerTotal_snapshot sound.valid 0 nowMs _ admitted
        intro e there
        exact sound.origin.own free mine e there

theorem Sound.step (sound : s.Sound sha256 used) (free : CollisionFree sha256 used)
    (byteLen : Json → Nat) {action : HostAction}
    (uses : ∀ triple, action.triple = some triple → used triple)
    (taken : s.step sha256 byteLen action = some t) : t.Sound sha256 used := by
  obtain ⟨result, turned, rfl⟩ := Option.map_eq_some_iff.mp taken
  cases action with
  | call caller request =>
      dsimp only [turn] at turned
      split_ifs at turned with busy
      cases turned
      exact sound.call free byteLen uses (TreeMap.getElem?_eq_none busy)
  | resume instanceId nowMs writeError =>
      obtain ⟨stage, calling, same⟩ := Option.map_eq_some_iff.mp turned
      cases same
      exact sound.resume free nowMs writeError calling
  | drop instanceId =>
      dsimp only [turn] at turned
      split at turned
      · next ev calling =>
          cases turned
          apply sound.returns free
          intro id between
          cases (between_iff calling).mp between
      · cases turned
  | sweepLife instanceId nowMs =>
      dsimp only [turn] at turned
      split_ifs at turned with busy
      cases turned
      exact sound.swept (m := .restartGeneration instanceId nowMs) free rfl
        (TreeMap.getElem?_eq_none busy)
  | sweepTerminal instanceId nowMs =>
      dsimp only [turn] at turned
      split_ifs at turned with busy
      cases turned
      exact sound.swept (m := .markInstanceStale instanceId nowMs) free rfl
        (TreeMap.getElem?_eq_none busy)

theorem sound_start (nonce : Vector UInt8 16) (secret : Vector UInt8 32) :
    (start nonce secret).Sound sha256 used where
  valid := StoreInner.default_valid nonce secret
  derived := by
    intro id m found
    simp [start, DeviceRegistry.new] at found
  origin := by
    intro slot e found
    simp [start, StoreInner.default] at found
  declared := by
    intro slot e found
    simp [start, StoreInner.default] at found
  within := by
    intro slot e found
    simp [start, StoreInner.default] at found
  total := by
    intro o
    rw [StoreInner.ownerTotal_eq_zero]
    · exact Nat.zero_le _
    · intro slot e found
      simp [start, StoreInner.default] at found
  owned := fun _ => Nat.zero_le _
  pending := by
    intro o stage calling
    simp [start] at calling

end HostStores

end OxidHome.Host

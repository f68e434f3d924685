import OxidHome.Library.Machine
import OxidHome.Engine.Shared

/-!
# Stopping and draining

Once the registry is shut no run is added, so when the reapers that the first drain has taken are
done, nothing is left and nothing comes back.
-/

namespace OxidHome.Engine
open Wit Library Host Projection Services
open EngineState

def StopAll.past : StopAll → Bool
  | .flagged => false
  | .shut | .stopping _ | .reported _ => true

structure Shut (s : EngineState) : Prop where
  refuses : s.registry.shuttingDown = true
  free : s.registering = none

namespace Shut
variable {s t : EngineState}

theorem idle (sh : Shut s) (reg : Registered s) {k : Nat} {id : String} {stage : StartStage}
    (found : s.starts[k]? = some ⟨id, stage⟩) : stage.registers = false := by
  by_contra registers
  have held := (reg.holder k id stage found (Bool.not_eq_false _ ▸ registers)).1
  rw [sh.free] at held
  cases held

theorem step (sh : Shut s) (reg : Registered s) (moved : EngineMoved s t) : Shut t := by
  cases moved with
  | locked k id pluginId singleton found free clear =>
      have refuses := (RegistryInner.refusal_eq_none.mp clear).1
      rw [sh.refuses] at refuses
      cases refuses
  | inserted k id pluginId singleton n found => cases sh.idle reg found
  | supervised n run _ row moved =>
      obtain ⟨phase, same⟩ := moved.frame
      rw [same]
      exact ⟨sh.refuses, sh.free⟩
  | reaped n run _ row moved =>
      cases moved with
      | untrack =>
          rw [untrack_frame]
          exact ⟨sh.refuses, sh.free⟩
      | _ => exact ⟨sh.refuses, sh.free⟩
  | shut j found free => exact ⟨rfl, free⟩
  | _ => exact ⟨sh.refuses, sh.free⟩

theorem awaits_back (sh : Shut s) (reg : Registered s) (moved : EngineMoved s t) {bound n : Nat}
    {id : String} (awaits : t.Awaits bound id n) : s.Awaits bound id n := by
  cases moved with
  | spawned k id pluginId singleton found => cases sh.idle reg found
  | supervised n run _ row moved => exact (moved.awaits row).mp awaits
  | reaped n run _ row moved => exact ((moved.awaits row).mp awaits).1
  | _ => exact awaits

end Shut

structure Sound (s : EngineState) : Prop where
  minted : Minted s
  registered : Registered s
  tracked : Tracked s
  slotted : Slotted s
  served : Served s
  shut : ∀ (j : Nat) call, s.stopAlls[j]? = some call → call.past = true → Shut s

theorem sound_new (nonce : Vector UInt8 16) (cursorSecret : Vector UInt8 32) :
    Sound (.new nonce cursorSecret) where
  minted := ⟨rfl, by simp [EngineState.new]⟩
  registered := by
    constructor
    · simp [EngineState.new]
    · simp [EngineState.new, Current, Awaits, RegistryInner.new]
    · simp [EngineState.new, Awaits]
  tracked := by
    constructor
    · simp [EngineState.new]
    · simp [EngineState.new, Followed, RegistryInner.new]
  slotted := by
    constructor
    · simp [EngineState.new]
    · simp [EngineState.new, RegistryInner.new]
  served := by
    constructor
    · simp [EngineState.new]
    · exact StoreInner.default_valid nonce cursorSecret
    · simp [EngineState.new, DeviceRegistry.new]
    · simp [EngineState.new, ServiceRegistry.new]
    · simp [EngineState.new, StoreInner.default]
  shut := by simp [EngineState.new]

theorem Sound.shut_step {s t : EngineState} (sound : Sound s) (moved : EngineMoved s t) (j : Nat)
    (call : StopAll) (found : t.stopAlls[j]? = some call) (past : call.past = true) : Shut t := by
  have kept : (∃ (i : Nat) (call : StopAll), s.stopAlls[i]? = some call ∧ call.past = true) →
      Shut t := by
    rintro ⟨i, before, row, before_past⟩
    exact (sound.shut i before row before_past).step sound.registered moved
  have still : t.stopAlls = s.stopAlls → Shut t :=
    fun same => kept ⟨j, call, same ▸ found, past⟩
  cases moved with
  | flagged =>
      rcases row_concat.mp found with old | ⟨_, rfl⟩
      · exact kept ⟨j, call, old, past⟩
      · cases past
  | shut i row free => exact ⟨rfl, free⟩
  | fired i row free => exact kept ⟨i, _, row, rfl⟩
  | reported i requests report row => exact kept ⟨i, _, row, rfl⟩
  | supervised n run _ row moved =>
      obtain ⟨phase, same⟩ := moved.frame
      exact still (by rw [same])
  | reaped n run _ row moved =>
      exact still (by rw [moved.frame])
  | _ => exact still rfl

theorem Sound.step {s t : EngineState} (sound : Sound s) (moved : EngineMoved s t) : Sound t where
  minted := sound.minted.step moved
  registered := sound.registered.step moved
  tracked := sound.tracked.step sound.registered sound.minted moved
  slotted := sound.slotted.step sound.registered moved
  served := sound.served.step moved
  shut := sound.shut_step moved

theorem exec_sound {actions : List EngineAction} {s t : EngineState} (sound : Sound s)
    (run : exec engineStep s actions = some t) : Sound t :=
  exec_invariant (fun _ _ _ sound taken => sound.step (engineStep_moved taken)) sound run

/-- What the first drain has to wait for, and what holds when it has returned. -/
structure Draining (s : EngineState) : Prop where
  shut : Shut s
  emptied : ∀ id : String, s.reapers[id]? = none
  taken : s.drains ≠ []
  covers : ∀ awaiting returned, s.drains[0]? = some ⟨awaiting, returned⟩ →
    ∀ id n, s.Awaits 4 id n → returned = false ∧ n ∈ awaiting

theorem Sound.drain {s : EngineState} (sound : Sound s) (sh : Shut s) (first : s.drains = []) :
    Draining s.takeReaperHandles where
  shut := ⟨sh.refuses, sh.free⟩
  emptied := by simp [takeReaperHandles]
  taken := by simp [takeReaperHandles]
  covers := by
    intro awaiting returned found id n awaits
    simp only [takeReaperHandles, first, List.nil_append, List.getElem?_cons_zero,
      Option.some.injEq, Drain.mk.injEq] at found
    obtain ⟨rfl, rfl⟩ := found
    have listed : s.Followed id n := by
      rcases (sound.registered.current id n).mpr awaits with registered | ⟨k, stage, start, task⟩
      · exact .inl registered
      · have registers := StartStage.registers_of_task task
        rw [sh.idle sound.registered start] at registers
        cases registers
    refine ⟨rfl, List.mem_map.mpr ⟨(id, (n, n)), ?_, rfl⟩⟩
    rcases sound.tracked.own id n listed with own | ⟨drained, -⟩
    · exact Std.TreeMap.mem_toList_iff_getElem?_eq_some.mpr own
    · exact absurd first drained

theorem Draining.step {s t : EngineState} (dr : Draining s) (sound : Sound s)
    (moved : EngineMoved s t) : Draining t := by
  have back : ∀ {id n}, t.Awaits 4 id n → s.Awaits 4 id n :=
    dr.shut.awaits_back sound.registered moved
  have shut : Shut t := dr.shut.step sound.registered moved
  have still : t.reapers = s.reapers → t.drains = s.drains → Draining t := by
    intro reapers drains
    refine ⟨shut, reapers ▸ dr.emptied, drains ▸ dr.taken, ?_⟩
    rw [drains]
    exact fun awaiting returned found id n awaits =>
      dr.covers awaiting returned found id n (back awaits)
  cases moved with
  | tracked k id pluginId singleton n run found row => cases dr.shut.idle sound.registered found
  | supervised n run _ row moved =>
      obtain ⟨phase, same⟩ := moved.frame
      exact still (by rw [same]) (by rw [same])
  | reaped n run _ row moved =>
      cases moved with
      | untrack =>
          have same : s.untrack run.instanceId run.gen = s := by
            unfold untrack
            rw [dr.emptied]
          exact still (by rw [same]; rfl) (by rw [same]; rfl)
      | _ => exact still rfl rfl
  | taken =>
      refine ⟨shut, by simp [takeReaperHandles], by simp [takeReaperHandles], ?_⟩
      intro awaiting returned found id n awaits
      have bound : 0 < s.drains.length := List.length_pos_iff.mpr dr.taken
      simp only [takeReaperHandles, List.getElem?_append_left bound] at found
      exact dr.covers awaiting returned found id n (back awaits)
  | drained d awaiting found all =>
      refine ⟨shut, dr.emptied, by simpa using dr.taken, ?_⟩
      intro awaiting' returned row id n awaits
      rcases (row_set found).mp row with ⟨rfl, same⟩ | ⟨-, old⟩
      · cases same
        obtain ⟨-, waited⟩ := dr.covers awaiting false found id n awaits
        have done := all n waited
        obtain ⟨run, at_n, -, rank⟩ := awaits
        simp only [reaped, at_n, Option.any_some, decide_eq_true_eq] at done
        rw [done] at rank
        exact absurd rank (by decide)
      · exact dr.covers awaiting' returned old id n awaits
  | _ => exact still rfl rfl

theorem exec_draining {actions : List EngineAction} {s t : EngineState}
    (both : Sound s ∧ Draining s) (run : exec engineStep s actions = some t) :
    Sound t ∧ Draining t := by
  refine exec_invariant (P := fun u => Sound u ∧ Draining u) ?_ both run
  intro u a v ⟨sound, dr⟩ taken
  have moved := engineStep_moved taken
  exact ⟨sound.step moved, dr.step sound moved⟩

theorem EngineMoved.returned {s t : EngineState} (moved : EngineMoved s t) {d : Nat}
    {awaiting : List Nat} (returned : s.drains[d]? = some ⟨awaiting, true⟩) :
    t.drains[d]? = some ⟨awaiting, true⟩ := by
  cases moved with
  | supervised n run _ row moved =>
      obtain ⟨phase, same⟩ := moved.frame
      rw [same]
      exact returned
  | reaped n run _ row moved =>
      rw [moved.frame]
      exact returned
  | taken => exact row_concat.mpr (.inl returned)
  | drained d' awaiting' found =>
      refine (row_set found).mpr (.inr ⟨?_, returned⟩)
      rintro rfl
      cases found.symm.trans returned
  | _ => exact returned

theorem exec_returned {actions : List EngineAction} {s t : EngineState} {d : Nat}
    {awaiting : List Nat} (returned : s.drains[d]? = some ⟨awaiting, true⟩)
    (run : exec engineStep s actions = some t) : t.drains[d]? = some ⟨awaiting, true⟩ :=
  exec_invariant (fun _ _ _ before taken => (engineStep_moved taken).returned before) returned run

/-- No registry has an entry and no projection entry is fresh. -/
structure NothingLeft (s : EngineState) : Prop where
  instances : ∀ id : String, s.registry.instances[id]? = none
  singletons : ∀ pluginId : String, s.registry.singletons[pluginId]? = none
  reapers : ∀ id : String, s.reapers[id]? = none
  devices : ∀ id : DeviceId, s.devices.inner[id]? = none
  services : ∀ id : ServiceId, s.services.inner[id]? = none
  projection : ∀ (slot : SlotKey) e, s.projection.entries[slot]? = some e → e.quality = .stale

theorem Draining.nothingLeft {s : EngineState} (dr : Draining s) (sound : Sound s)
    {awaiting : List Nat} (returned : s.drains[0]? = some ⟨awaiting, true⟩) : NothingLeft s := by
  have settled : ∀ {bound id n}, bound ≤ 4 → ¬ s.Awaits bound id n := by
    intro bound id n le awaits
    cases (dr.covers awaiting true returned id n (awaits.mono le)).1
  constructor
  case instances =>
    intro id
    rw [Option.eq_none_iff_forall_ne_some]
    intro h found
    exact settled le_rfl ((sound.registered.current id h.task).mp (.inl ⟨h, found, rfl⟩))
  case singletons =>
    intro pluginId
    rw [Option.eq_none_iff_forall_ne_some]
    intro id found
    obtain ⟨n, run, row, named, -, rank⟩ := sound.slotted.slots pluginId id found
    exact settled le_rfl ⟨run, row, named, rank⟩
  case reapers => exact dr.emptied
  case devices =>
    intro id
    rw [Option.eq_none_iff_forall_ne_some]
    intro m found
    obtain ⟨n, awaits⟩ := sound.served.devices id m found
    exact settled (by omega) awaits
  case services =>
    intro id
    rw [Option.eq_none_iff_forall_ne_some]
    intro m found
    obtain ⟨n, awaits⟩ := sound.served.services id m found
    exact settled (by omega) awaits
  case projection =>
    intro slot e found
    cases quality : e.quality with
    | stale => rfl
    | fresh =>
        obtain ⟨n, awaits⟩ := sound.served.fresh slot e found quality
        exact absurd awaits (settled (by omega))

theorem Sound.superseded_reaper {s t : EngineState} (sound : Sound s) {n m : Nat}
    {run later : InstanceRun} (less : n < m) (row : s.runs[n]? = some run)
    (row_m : s.runs[m]? = some later) (same : later.instanceId = run.instanceId)
    (reaped : Reaped s n run t) :
    t.registry = s.registry ∧ t.devices = s.devices ∧ t.services = s.services ∧
      t.projection = s.projection ∧ ∀ (id : String) g k, k ≠ n →
        s.reapers[id]? = some (g, k) → t.reapers[id]? = some (g, k) := by
  have after : s.Awaits 6 run.instanceId m :=
    ⟨later, row_m, same, by cases later.reaper <;> decide⟩
  have past : ¬ run.reaper.rank < 4 :=
    fun below => sound.registered.superseded n m _ less after ⟨run, row, rfl, below⟩
  cases reaped with
  | devices stage | services stage | state _ stage | unregister stage =>
      rw [stage] at past
      exact absurd (by decide) past
  | untrack stage =>
      have frame := untrack_frame s run.instanceId run.gen
      refine ⟨by rw [frame]; rfl, by rw [frame]; rfl, by rw [frame]; rfl, by rw [frame]; rfl, ?_⟩
      intro id g k other found
      obtain ⟨rfl, -⟩ := sound.tracked.entries id g k found
      have foreign : g ≠ run.gen := (sound.minted.gens n run row).symm ▸ other
      simp only [setReaper, untrack]
      split
      · next g' _ at_id =>
          split
          · next mine =>
              simp only [Library.getElem?_erase_eq]
              split
              · next same =>
                  subst same
                  rw [at_id] at found
                  cases found
                  exact absurd mine foreign
              · exact found
          · exact found
      · exact found

theorem stop_and_drain_leave_nothing {nonce : Vector UInt8 16} {cursorSecret : Vector UInt8 32}
    {before : List EngineAction} {s : EngineState}
    (reached : exec engineStep (.new nonce cursorSecret) before = some s) :
    (∀ (id : String) h, s.registry.instances[id]? = some h →
      ∃ run, s.runs[h.task]? = some run ∧ run.instanceId = id ∧
        ∀ g m, s.reapers[id]? = some (g, m) → g = run.gen ∧ m = h.task) ∧
    (∀ (n m : Nat) run later nowMs t, n < m → s.runs[n]? = some run → s.runs[m]? = some later →
      later.instanceId = run.instanceId → engineStep s (.reap n nowMs) = some t →
      t.registry = s.registry ∧ t.devices = s.devices ∧ t.services = s.services ∧
        t.projection = s.projection ∧ ∀ (id : String) g k, k ≠ n →
          s.reapers[id]? = some (g, k) → t.reapers[id]? = some (g, k)) ∧
    (∀ (j : Nat) report, s.stopAlls[j]? = some (.reported report) → report.allStopped = true →
      s.drains = [] → ∀ during after t u awaiting,
        exec engineStep s (.drain :: during) = some t →
        t.drains[0]? = some ⟨awaiting, true⟩ → exec engineStep t after = some u →
        NothingLeft t ∧ NothingLeft u) := by
  have sound : Sound s := exec_sound (sound_new nonce cursorSecret) reached
  refine ⟨?_, ?_, ?_⟩
  · intro id h found
    have followed : s.Followed id h.task := .inl ⟨h, found, rfl⟩
    obtain ⟨run, row, named, -⟩ := (sound.registered.current id h.task).mp followed.current
    refine ⟨run, row, named, ?_⟩
    intro g m entry
    rcases sound.tracked.own id h.task followed with own | ⟨-, gone⟩
    · cases own.symm.trans entry
      exact ⟨(sound.minted.gens _ run row).symm, rfl⟩
    · rw [gone] at entry
      cases entry
  · intro n m run later nowMs t less row row_m same taken
    simp only [engineStep, row] at taken
    exact sound.superseded_reaper less row row_m same (reap_reaped taken)
  · intro j report reported _ first during after t u awaiting drained returned rest
    have sh : Shut s := sound.shut j _ reported rfl
    obtain ⟨s', taken, waited⟩ := exec_cons.mp drained
    cases taken
    obtain ⟨soundAt, drainingAt⟩ := exec_draining ⟨sound.step .taken, sound.drain sh first⟩ waited
    obtain ⟨soundAfter, drainingAfter⟩ := exec_draining ⟨soundAt, drainingAt⟩ rest
    exact ⟨drainingAt.nothingLeft soundAt returned,
      drainingAfter.nothingLeft soundAfter (exec_returned returned rest)⟩

def zeroNonce : Vector UInt8 16 := Vector.replicate 16 0
def zeroCursorSecret : Vector UInt8 32 := Vector.replicate 32 0

/-- An instance crashes once and is stopped while it waits for its restart. -/
def crashThenStop : List EngineAction := [
  .start "a", .lock 0 "p" true, .spawn 0, .track 0, .insert 0,
  .supervise 0 .sweepDevices, .supervise 0 .sweepServices, .supervise 0 (.restartGeneration 0),
  .supervise 0 .loaded, .supervise 0 .crash, .supervise 0 .retry,
  .stopAll, .beginShutdown 0, .fireStops 0, .sendStop 0, .supervise 0 (.takeShutdown 0), .report 0]

def reapAll : List EngineAction := [
  .supervise 0 .exit, .reap 0 0, .reap 0 0, .reap 0 0, .reap 0 0, .reap 0 0, .drained 0]

theorem stop_and_drain_leave_nothing_crashed :
    ∃ s t, exec engineStep (.new zeroNonce zeroCursorSecret) crashThenStop = some s ∧
      exec engineStep s (.drain :: reapAll) = some t ∧ NothingLeft t := by
  obtain ⟨s, reached⟩ : ∃ s, exec engineStep (.new zeroNonce zeroCursorSecret) crashThenStop =
      some s := ⟨_, rfl⟩
  obtain ⟨t, drained⟩ : ∃ t, exec engineStep s (.drain :: reapAll) = some t := by
    cases reached
    exact ⟨_, rfl⟩
  refine ⟨s, t, reached, drained, ?_⟩
  have all := (stop_and_drain_leave_nothing reached).2.2
  refine (all 0 ⟨1, [], [], 0⟩ ?_ rfl ?_ reapAll [] t t [0] drained ?_ rfl).1
  · cases reached
    rfl
  · cases reached
    rfl
  · cases reached
    cases drained
    rfl
end OxidHome.Engine

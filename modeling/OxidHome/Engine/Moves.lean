import OxidHome.Services.Accounting
import OxidHome.Engine.Supervised

/-!
# The steps of the engine

What one step of the supervised instances can do, with the moves of a supervisor under one frame.
-/

namespace OxidHome.Engine
open Wit Library Host Projection Services
open Std (TreeMap)

structure Supervised (s : EngineState) (n : Nat) (run : InstanceRun) (t : EngineState) : Prop where
  alive : run.phase ≠ .terminal
  frame : ∃ phase, t = { s with
    runs := s.runs.set n { run with phase := phase }, devices := t.devices
    services := t.services, projection := t.projection, stops := t.stops }
  devices : ∀ (id : DeviceId) m, t.devices.inner[id]? = some m →
    m.ownerInstance = run.instanceId ∨ s.devices.inner[id]? = some m
  services : ∀ (id : ServiceId) m, t.services.inner[id]? = some m →
    m.ownerInstance = run.instanceId ∨ s.services.inner[id]? = some m
  projection : t.projection = s.projection ∨ ∃ m, t.projection = s.projection.mutate m ∧
    (madeFor run.instanceId m = true ∨ ∃ nowMs, m = .restartGeneration run.instanceId nowMs)

inductive Reaped (s : EngineState) (n : Nat) (run : InstanceRun) : EngineState → Prop where
  | devices : run.reaper = .waiting → run.phase = .terminal →
      Reaped s n run ({ s with
        devices := s.devices.removeByOwner run.instanceId }.setReaper n run .sweptDevices)
  | services : run.reaper = .sweptDevices → Reaped s n run ({ s with
      services := (s.services.removeByOwner run.instanceId).2 }.setReaper n run .sweptServices)
  | state (nowMs : Int) : run.reaper = .sweptServices → Reaped s n run ({ s with
      projection := s.projection.markInstanceStale run.instanceId nowMs }.setReaper n run .sweptState)
  | unregister : run.reaper = .sweptState → s.registering = none → Reaped s n run ({ s with
      registry := s.registry.unregister run.instanceId run.pluginId }.setReaper n run .unregistered)
  | untrack : run.reaper = .unregistered →
      Reaped s n run ((s.untrack run.instanceId run.gen).setReaper n run .done)

open EngineState in
inductive EngineMoved (s : EngineState) : EngineState → Prop where
  | started (instanceId : String) :
      EngineMoved s { s with starts := s.starts ++ [s.beginStart instanceId] }
  | refused (k : Nat) (id : String) (err : StartError) : s.starts[k]? = some ⟨id, .checked⟩ →
      EngineMoved s (s.setStart k id (.returned (.error err)))
  | locked (k : Nat) (id pluginId : String) (singleton : Bool) :
      s.starts[k]? = some ⟨id, .checked⟩ → s.registering = none →
      s.registry.refusal id pluginId singleton = none →
      EngineMoved s ({ s with registering := some k }.setStart k id (.locked pluginId singleton))
  | spawned (k : Nat) (id pluginId : String) (singleton : Bool) :
      s.starts[k]? = some ⟨id, .locked pluginId singleton⟩ →
      EngineMoved s (s.spawn k id pluginId singleton)
  | tracked (k : Nat) (id pluginId : String) (singleton : Bool) (n : Nat) (run : InstanceRun) :
      s.starts[k]? = some ⟨id, .spawned pluginId singleton n⟩ → s.runs[n]? = some run →
      EngineMoved s ({ s with reapers := s.reapers.insert id (run.gen, n) }.setStart k id
        (.tracked pluginId singleton n))
  | inserted (k : Nat) (id pluginId : String) (singleton : Bool) (n : Nat) :
      s.starts[k]? = some ⟨id, .tracked pluginId singleton n⟩ →
      EngineMoved s (s.insert k id pluginId singleton n)
  | supervised (n : Nat) (run : InstanceRun) (t : EngineState) : s.runs[n]? = some run →
      Supervised s n run t → EngineMoved s t
  | reaped (n : Nat) (run : InstanceRun) (t : EngineState) : s.runs[n]? = some run →
      Reaped s n run t → EngineMoved s t
  | stops (stops : List StopRequest) : EngineMoved s { s with stops := stops }
  | flagged : EngineMoved s { s with shuttingDown := true, stopAlls := s.stopAlls ++ [.flagged] }
  | shut (j : Nat) : s.stopAlls[j]? = some .flagged → s.registering = none →
      EngineMoved s ({ s with registry := s.registry.beginShutdown }.setStopAll j .shut)
  | fired (j : Nat) : s.stopAlls[j]? = some .shut → s.registering = none →
      EngineMoved s (s.fireStops j)
  | reported (j : Nat) (requests : List Nat) (report : StopAllReport) :
      s.stopAlls[j]? = some (.stopping requests) → s.stopReport requests = some report →
      EngineMoved s (s.setStopAll j (.reported report))
  | taken : EngineMoved s s.takeReaperHandles
  | drained (d : Nat) (awaiting : List Nat) : s.drains[d]? = some ⟨awaiting, false⟩ →
      (∀ n ∈ awaiting, s.reaped n = true) →
      EngineMoved s { s with drains := s.drains.set d ⟨awaiting, true⟩ }

namespace Supervised
variable {s : EngineState} {n : Nat} {run : InstanceRun}

theorem quiet (alive : run.phase ≠ .terminal) (phase : SupervisorPhase)
    (stops : List StopRequest) :
    Supervised s n run ({ s with stops := stops }.setPhase n run phase) where
  alive := alive
  frame := ⟨phase, rfl⟩
  devices := fun _ _ found => .inr found
  services := fun _ _ found => .inr found
  projection := .inl rfl

theorem runs_stay (found : s.runs[n]? = some run) :
    s.runs.set n { run with phase := run.phase } = s.runs := by
  have bound := (List.getElem?_eq_some_iff.mp found).1
  have here : s.runs[n] = run := (List.getElem?_eq_some_iff.mp found).2
  exact here ▸ List.set_getElem_self bound

theorem ofGuest {t : EngineState} (found : s.runs[n]? = some run) (alive : run.phase ≠ .terminal)
    (same : t = { s with
      devices := t.devices, services := t.services, projection := t.projection })
    (devices : ∀ (id : DeviceId) m, t.devices.inner[id]? = some m →
      m.ownerInstance = run.instanceId ∨ s.devices.inner[id]? = some m)
    (services : ∀ (id : ServiceId) m, t.services.inner[id]? = some m →
      m.ownerInstance = run.instanceId ∨ s.services.inner[id]? = some m)
    (projection : t.projection = s.projection ∨ ∃ m, t.projection = s.projection.mutate m ∧
      (madeFor run.instanceId m = true ∨ ∃ nowMs, m = .restartGeneration run.instanceId nowMs)) :
    Supervised s n run t where
  alive := alive
  frame := by
    refine ⟨run.phase, ?_⟩
    rw [runs_stay found, same]
  devices := devices
  services := services
  projection := projection

end Supervised

theorem tryRegister_owner {reg reg' : DeviceRegistry} {id : DeviceId} {owner : String}
    {info : DeviceInfo} (ok : reg.tryRegister id owner info = .ok reg') {at_id : DeviceId}
    {m : DeviceMeta} (found : reg'.inner[at_id]? = some m) :
    m.ownerInstance = owner ∨ reg.inner[at_id]? = some m := by
  unfold DeviceRegistry.tryRegister at ok
  split at ok
  · cases ok
  · cases ok
    simp only [getElem?_insert_eq] at found
    split at found
    · cases found
      exact .inl rfl
    · exact .inr found

theorem update_owner {reg reg' : DeviceRegistry} {id : DeviceId} {owner : String}
    {info : DeviceInfo} (ok : reg.update owner id info = .ok reg') {at_id : DeviceId}
    {m : DeviceMeta} (found : reg'.inner[at_id]? = some m) :
    m.ownerInstance = owner ∨ reg.inner[at_id]? = some m := by
  unfold DeviceRegistry.update at ok
  split at ok
  · next before at_before =>
      split at ok
      · cases ok
      · next own =>
          split at ok
          · cases ok
          · cases ok
            simp only [getElem?_insert_eq] at found
            split at found
            · cases found
              exact .inl (not_not.mp own)
            · exact .inr found
  · cases ok

theorem remove_owner {reg reg' : DeviceRegistry} {id : DeviceId} {owner : String}
    (ok : reg.remove owner id = .ok reg') {at_id : DeviceId} {m : DeviceMeta}
    (found : reg'.inner[at_id]? = some m) : reg.inner[at_id]? = some m := by
  unfold DeviceRegistry.remove at ok
  split at ok
  · split at ok
    · cases ok
      simp only [getElem?_erase_eq] at found
      split at found
      · cases found
      · exact found
    · cases ok
  · cases ok

theorem removeByOwner_found {reg : DeviceRegistry} {owner : String} {id : DeviceId}
    {m : DeviceMeta} : (reg.removeByOwner owner).inner[id]? = some m ↔
      reg.inner[id]? = some m ∧ m.ownerInstance ≠ owner := by
  unfold DeviceRegistry.removeByOwner
  simp [TreeMap.getElem?_filter, Option.filter_eq_some_iff]

theorem guestCall_supervised {s : EngineState} {n : Nat} {run : InstanceRun}
    (found : s.runs[n]? = some run) (alive : run.phase ≠ .terminal) (call : GuestCall) :
    Supervised s n run (s.guestCall run.instanceId run.pluginId call) := by
  have idle : Supervised s n run s :=
    .ofGuest found alive rfl (fun _ _ old => .inr old) (fun _ _ old => .inr old) (.inl rfl)
  cases call with
  | registerDevice id info =>
      simp only [EngineState.guestCall]
      split
      · next devices ok =>
          exact .ofGuest found alive rfl (fun _ _ at_m => tryRegister_owner ok at_m)
            (fun _ _ old => .inr old) (.inl rfl)
      · exact idle
  | updateDevice id info =>
      simp only [EngineState.guestCall]
      split
      · next devices ok =>
          exact .ofGuest found alive rfl (fun _ _ at_m => update_owner ok at_m)
            (fun _ _ old => .inr old) (.inl rfl)
      · exact idle
  | removeDevice id =>
      simp only [EngineState.guestCall]
      split
      · next devices ok =>
          exact .ofGuest found alive rfl (fun _ _ at_m => .inr (remove_owner ok at_m))
            (fun _ _ old => .inr old) (.inl rfl)
      · exact idle
  | registerService info =>
      simp only [EngineState.guestCall]
      split
      · next id services ok =>
          obtain ⟨_, _, rfl⟩ := ServiceRegistry.register_eq_ok.mp ok
          refine .ofGuest found alive rfl (fun _ _ old => .inr old) ?_ (.inl rfl)
          intro at_id m at_m
          simp only [getElem?_insert_eq] at at_m
          split at at_m
          · cases at_m
            exact .inl rfl
          · exact .inr at_m
      · exact idle
  | updateService id info =>
      simp only [EngineState.guestCall]
      split
      · next services ok =>
          obtain ⟨before, _, owner, _, rfl⟩ := ServiceRegistry.update_eq_ok.mp ok
          refine .ofGuest found alive rfl (fun _ _ old => .inr old) ?_ (.inl rfl)
          intro at_id m at_m
          simp only [getElem?_insert_eq] at at_m
          split at at_m
          · cases at_m
            exact .inl owner
          · exact .inr at_m
      · exact idle
  | removeService id =>
      simp only [EngineState.guestCall]
      split
      · next services ok =>
          obtain ⟨before, _, _, _, rfl⟩ := ServiceRegistry.remove_eq_ok.mp ok
          refine .ofGuest found alive rfl (fun _ _ old => .inr old) ?_ (.inl rfl)
          intro at_id m at_m
          simp only [getElem?_erase_eq] at at_m
          split at at_m
          · cases at_m
          · exact .inr at_m
      · exact idle
  | project m =>
      simp only [EngineState.guestCall]
      split
      · next made =>
          exact .ofGuest found alive rfl (fun _ _ old => .inr old) (fun _ _ old => .inr old)
            (.inr ⟨m, rfl, .inl made⟩)
      · exact idle

theorem supervise_supervised {s t : EngineState} {n : Nat} {run : InstanceRun}
    {move : SupervisorMove} (found : s.runs[n]? = some run)
    (taken : s.supervise n run move = some t) : Supervised s n run t := by
  cases move with
  | sweepDevices =>
      simp only [EngineState.supervise, Option.ite_none_right_eq_some, Option.some.injEq] at taken
      obtain ⟨phase, rfl⟩ := taken
      refine ⟨by simp [phase], ⟨.sweptDevices, rfl⟩, ?_, fun _ _ old => .inr old, .inl rfl⟩
      exact fun id m at_m => .inr (removeByOwner_found.mp at_m).1
  | sweepServices =>
      simp only [EngineState.supervise, Option.ite_none_right_eq_some, Option.some.injEq] at taken
      obtain ⟨phase, rfl⟩ := taken
      refine ⟨by simp [phase], ⟨.sweptServices, rfl⟩, fun _ _ old => .inr old, ?_, .inl rfl⟩
      intro id m at_m
      simp only [EngineState.setPhase, ServiceRegistry.removeByOwner_inner] at at_m
      exact .inr (Option.filter_eq_some_iff.mp at_m).1
  | restartGeneration nowMs =>
      simp only [EngineState.supervise, Option.ite_none_right_eq_some, Option.some.injEq] at taken
      obtain ⟨phase, rfl⟩ := taken
      exact ⟨by simp [phase], ⟨.loading, rfl⟩, fun _ _ old => .inr old, fun _ _ old => .inr old,
        .inr ⟨.restartGeneration run.instanceId nowMs, rfl, .inr ⟨nowMs, rfl⟩⟩⟩
  | loadFailed =>
      simp only [EngineState.supervise, Option.ite_none_right_eq_some, Option.some.injEq] at taken
      obtain ⟨phase, rfl⟩ := taken
      exact .quiet (by simp [phase]) _ _
  | loaded =>
      simp only [EngineState.supervise, Option.ite_none_right_eq_some, Option.some.injEq] at taken
      obtain ⟨phase, rfl⟩ := taken
      exact .quiet (by simp [phase]) _ _
  | guest call =>
      simp only [EngineState.supervise] at taken
      split at taken
      · next phase =>
          cases taken
          exact guestCall_supervised found (by simp [phase]) call
      · next phase =>
          cases taken
          exact guestCall_supervised found (by simp [phase]) call
      · next phase =>
          cases taken
          exact guestCall_supervised found (by simp [phase]) call
      · cases taken
  | crash =>
      simp only [EngineState.supervise, Option.ite_none_right_eq_some, Option.some.injEq] at taken
      obtain ⟨phase, rfl⟩ := taken
      exact .quiet (by simp [phase]) _ _
  | giveUp =>
      simp only [EngineState.supervise, Option.ite_none_right_eq_some, Option.some.injEq] at taken
      obtain ⟨phase, rfl⟩ := taken
      exact .quiet (by simp [phase]) _ _
  | retry =>
      simp only [EngineState.supervise, Option.ite_none_right_eq_some, Option.some.injEq] at taken
      obtain ⟨phase, rfl⟩ := taken
      exact .quiet (by simp [phase]) _ _
  | elapsed =>
      simp only [EngineState.supervise, Option.ite_none_right_eq_some, Option.some.injEq] at taken
      obtain ⟨phase, rfl⟩ := taken
      exact .quiet (by simp [phase]) _ _
  | takeShutdown r =>
      simp only [EngineState.supervise] at taken
      split at taken
      · cases taken
      · next request at_r =>
          simp only [Option.ite_none_right_eq_some] at taken
          obtain ⟨_, taken⟩ := taken
          split at taken
          · next phase =>
              cases taken
              exact .quiet (by simp [phase]) _ _
          · next phase =>
              cases taken
              exact .quiet (by simp [phase]) _ _
          · cases taken
  | guestShutDown =>
      simp only [EngineState.supervise] at taken
      split at taken
      · next r phase =>
          split at taken
          · cases taken
          · next request at_r =>
              simp only [Option.ite_none_right_eq_some, Option.some.injEq] at taken
              obtain ⟨_, rfl⟩ := taken
              exact .quiet (by simp [phase]) _ _
      · cases taken
  | exit =>
      simp only [EngineState.supervise, Option.ite_none_right_eq_some, Option.some.injEq] at taken
      obtain ⟨phase, rfl⟩ := taken
      exact .quiet (by simp [phase]) _ _
  | panic =>
      simp only [EngineState.supervise, Option.ite_none_right_eq_some, Option.some.injEq] at taken
      obtain ⟨alive, rfl⟩ := taken
      exact .quiet alive _ _

theorem reap_reaped {s t : EngineState} {n : Nat} {run : InstanceRun} {nowMs : Int}
    (taken : s.reap n run nowMs = some t) : Reaped s n run t := by
  simp only [EngineState.reap] at taken
  split at taken
  · next reaper =>
      simp only [Option.ite_none_right_eq_some, Option.some.injEq] at taken
      obtain ⟨terminal, rfl⟩ := taken
      exact .devices reaper terminal
  · next reaper =>
      cases taken
      exact .services reaper
  · next reaper =>
      cases taken
      exact .state nowMs reaper
  · next reaper =>
      simp only [Option.ite_none_right_eq_some, Option.some.injEq] at taken
      obtain ⟨free, rfl⟩ := taken
      exact .unregister reaper free
  · next reaper =>
      cases taken
      exact .untrack reaper
  · cases taken

theorem engineStep_moved {s t : EngineState} {a : EngineAction}
    (taken : engineStep s a = some t) : EngineMoved s t := by
  cases a with
  | start instanceId =>
      cases taken
      exact .started instanceId
  | lock k pluginId singleton =>
      simp only [engineStep] at taken
      split at taken
      · next id found free =>
          cases taken
          simp only [EngineState.lock]
          cases clear : s.registry.refusal id pluginId singleton with
          | some err => exact .refused k id _ found
          | none => exact .locked k id pluginId singleton found free clear
      · cases taken
  | spawn k =>
      simp only [engineStep] at taken
      split at taken
      · next id pluginId singleton found =>
          cases taken
          exact .spawned k id pluginId singleton found
      · cases taken
  | track k =>
      simp only [engineStep] at taken
      split at taken
      · next id pluginId singleton n found =>
          split at taken
          · next run row =>
              cases taken
              exact .tracked k id pluginId singleton n run found row
          · cases taken
      · cases taken
  | insert k =>
      simp only [engineStep] at taken
      split at taken
      · next id pluginId singleton n found =>
          cases taken
          exact .inserted k id pluginId singleton n found
      · cases taken
  | supervise n move =>
      simp only [engineStep] at taken
      split at taken
      · next run found => exact .supervised n run t found (supervise_supervised found taken)
      · cases taken
  | reap n nowMs =>
      simp only [engineStep] at taken
      split at taken
      · next run found => exact .reaped n run t found (reap_reaped taken)
      · cases taken
  | stop n =>
      simp only [engineStep, Option.ite_none_right_eq_some, Option.some.injEq] at taken
      obtain ⟨_, rfl⟩ := taken
      exact .stops _
  | sendStop r =>
      obtain ⟨request, found, taken⟩ := Option.bind_eq_some_iff.mp taken
      simp only [EngineState.sendStop] at taken
      split at taken
      · cases taken
      · simp only [Option.ite_none_right_eq_some, Option.some.injEq] at taken
        obtain ⟨_, rfl⟩ := taken
        exact .stops _
  | stopDropped r =>
      obtain ⟨request, found, taken⟩ := Option.bind_eq_some_iff.mp taken
      simp only [EngineState.stopDropped] at taken
      split at taken
      · cases taken
      · next run row =>
          simp only [Option.ite_none_right_eq_some, Option.some.injEq] at taken
          obtain ⟨_, rfl⟩ := taken
          exact .stops _
  | stopTimeout r =>
      obtain ⟨request, found, taken⟩ := Option.bind_eq_some_iff.mp taken
      simp only [EngineState.stopTimeout, Option.ite_none_right_eq_some, Option.some.injEq] at taken
      obtain ⟨_, rfl⟩ := taken
      exact .stops _
  | stopAll =>
      cases taken
      exact .flagged
  | beginShutdown j =>
      simp only [engineStep] at taken
      split at taken
      · next found free =>
          cases taken
          exact .shut j found free
      · cases taken
  | fireStops j =>
      simp only [engineStep] at taken
      split at taken
      · next found free =>
          cases taken
          exact .fired j found free
      · cases taken
  | report j =>
      simp only [engineStep] at taken
      split at taken
      · next requests found =>
          obtain ⟨report, settled, rfl⟩ := Option.map_eq_some_iff.mp taken
          exact .reported j requests report found settled
      · cases taken
  | drain =>
      cases taken
      exact .taken
  | drained d =>
      simp only [engineStep] at taken
      split at taken
      · next awaiting found =>
          simp only [Option.ite_none_right_eq_some, Option.some.injEq] at taken
          obtain ⟨all, rfl⟩ := taken
          exact .drained d awaiting found (List.all_eq_true.mp all)
      · cases taken

end OxidHome.Engine

import OxidHome.Engine.Registry
import OxidHome.Library.Tables

/-!
# Exclusive instances

The registry with the supervisor tasks that its factories spawned. The reaper of a task unregisters
the ids it was spawned with, once, when the task has reached a terminal state; the code hands it
nothing else of the registration.
-/

namespace OxidHome.Engine
open Library

inductive TaskPhase where
  | running
  | terminal
  | reaped
  deriving DecidableEq

structure SupervisorTask where
  instanceId : String
  pluginId : String
  singleton : Bool
  phase : TaskPhase
  deriving DecidableEq

structure Registrations where
  inner : RegistryInner
  tasks : List SupervisorTask

inductive RegistryAction where
  | register (instanceId pluginId : String) (singleton : Bool)
  | terminate (task : Nat)
  | reap (task : Nat)
  | beginShutdown

namespace Registrations

def new : Registrations := ⟨.new, []⟩

/-- The factory of `start_instance_with_tuning`: a supervisor and its reaper. -/
def factory (instanceId pluginId : String) (singleton : Bool) (tasks : List SupervisorTask) :
    InstanceHandle × List SupervisorTask :=
  (⟨instanceId, pluginId, tasks.length⟩, tasks ++ [⟨instanceId, pluginId, singleton, .running⟩])

def register (s : Registrations) (instanceId pluginId : String) (singleton : Bool) :
    Except RegistryError InstanceHandle × Registrations :=
  let (result, inner, tasks) := s.inner.register s.tasks instanceId pluginId singleton
    (factory instanceId pluginId singleton)
  (result, ⟨inner, tasks⟩)

def beginShutdown (s : Registrations) : Registrations := { s with inner := s.inner.beginShutdown }

def step (s : Registrations) : RegistryAction → Option Registrations
  | .register instanceId pluginId singleton => some (s.register instanceId pluginId singleton).2
  | .terminate n =>
      match s.tasks[n]? with
      | some ⟨instanceId, pluginId, singleton, .running⟩ =>
          some { s with tasks := s.tasks.set n ⟨instanceId, pluginId, singleton, .terminal⟩ }
      | _ => none
  | .reap n =>
      match s.tasks[n]? with
      | some ⟨instanceId, pluginId, singleton, .terminal⟩ =>
          some ⟨s.inner.unregister instanceId pluginId,
            s.tasks.set n ⟨instanceId, pluginId, singleton, .reaped⟩⟩
      | _ => none
  | .beginShutdown => some s.beginShutdown

def registration (n : Nat) (task : SupervisorTask) : Registration :=
  ⟨⟨task.instanceId, task.pluginId, n⟩, task.singleton⟩

def live (s : Registrations) : Set Registration :=
  { a | ∃ n task, s.tasks[n]? = some task ∧ registration n task = a ∧ a.handle ∈ s.inner.list }

def unreaped (s : Registrations) : Set Registration :=
  { a | ∃ n task, s.tasks[n]? = some task ∧ registration n task = a ∧ task.phase ≠ .reaped }

theorem spawn_unreaped {s : Registrations} (inner : RegistryInner) {task : SupervisorTask}
    (fresh : task.phase = .running) :
    (Registrations.mk inner (s.tasks ++ [task])).unreaped =
      insert (registration s.tasks.length task) s.unreaped := by
  ext a
  constructor
  · intro ⟨n, t, found, eq, pending⟩
    rcases row_concat.mp found with old | ⟨rfl, rfl⟩
    · exact .inr ⟨n, t, old, eq, pending⟩
    · exact .inl eq.symm
  · rintro (rfl | ⟨n, t, found, eq, pending⟩)
    · exact ⟨_, task, row_concat.mpr (.inr ⟨rfl, rfl⟩), rfl, by simp [fresh]⟩
    · exact ⟨n, t, row_concat.mpr (.inl found), eq, pending⟩

theorem terminate_unreaped {s : Registrations} {n : Nat} {task : SupervisorTask}
    (found : s.tasks[n]? = some task) (running : task.phase = .running) :
    ({ s with tasks := s.tasks.set n { task with phase := .terminal } } : Registrations).unreaped =
      s.unreaped := by
  ext a
  constructor
  · intro ⟨m, t, row, eq, pending⟩
    rcases (row_set found).mp row with ⟨rfl, rfl⟩ | ⟨-, row⟩
    · exact ⟨n, task, found, eq, by simp [running]⟩
    · exact ⟨m, t, row, eq, pending⟩
  · intro ⟨m, t, row, eq, pending⟩
    by_cases same : n = m
    · subst same
      obtain rfl : task = t := Option.some.inj (found.symm.trans row)
      exact ⟨n, _, (row_set found).mpr (.inl ⟨rfl, rfl⟩), eq, by simp⟩
    · exact ⟨m, t, (row_set found).mpr (.inr ⟨same, row⟩), eq, pending⟩

theorem reap_unreaped {s : Registrations} (inner : RegistryInner) {n : Nat} {task : SupervisorTask}
    (found : s.tasks[n]? = some task) :
    (Registrations.mk inner (s.tasks.set n { task with phase := .reaped })).unreaped =
      s.unreaped \ {registration n task} := by
  ext a
  constructor
  · intro ⟨m, t, row, eq, pending⟩
    rcases (row_set found).mp row with ⟨rfl, rfl⟩ | ⟨other, row⟩
    · exact absurd rfl pending
    · refine ⟨⟨m, t, row, eq, pending⟩, ?_⟩
      rintro rfl
      exact other (congrArg (·.handle.task) eq).symm
  · intro ⟨⟨m, t, row, eq, pending⟩, other⟩
    refine ⟨m, t, (row_set found).mpr (.inr ⟨?_, row⟩), eq, pending⟩
    rintro rfl
    apply other
    rw [← eq, Option.some.inj (row.symm.trans found)]
    rfl

inductive Moved (s : Registrations) : Registrations → Prop where
  | refused : Moved s s
  | spawned (instanceId pluginId : String) (singleton : Bool)
      (clear : s.inner.refusal instanceId pluginId singleton = none) :
      Moved s ⟨s.inner.insert instanceId pluginId singleton ⟨instanceId, pluginId, s.tasks.length⟩,
        s.tasks ++ [⟨instanceId, pluginId, singleton, .running⟩]⟩
  | terminated (n : Nat) (task : SupervisorTask) (found : s.tasks[n]? = some task)
      (running : task.phase = .running) :
      Moved s { s with tasks := s.tasks.set n { task with phase := .terminal } }
  | reaped (n : Nat) (task : SupervisorTask) (found : s.tasks[n]? = some task)
      (terminal : task.phase = .terminal) :
      Moved s ⟨s.inner.unregister task.instanceId task.pluginId,
        s.tasks.set n { task with phase := .reaped }⟩
  | shut : Moved s s.beginShutdown

theorem step_moved {s t : Registrations} {action : RegistryAction}
    (taken : s.step action = some t) : Moved s t := by
  cases action with
  | register instanceId pluginId singleton =>
      obtain rfl : (s.register instanceId pluginId singleton).2 = t := Option.some.inj taken
      unfold register RegistryInner.register
      cases clear : s.inner.refusal instanceId pluginId singleton with
      | some err => exact .refused
      | none => exact .spawned instanceId pluginId singleton clear
  | terminate n =>
      simp only [step] at taken
      split at taken
      case h_1 instanceId pluginId singleton found =>
        cases taken
        exact .terminated n _ found rfl
      case h_2 => cases taken
  | reap n =>
      simp only [step] at taken
      split at taken
      case h_1 instanceId pluginId singleton found =>
        cases taken
        exact .reaped n _ found rfl
      case h_2 => cases taken
  | beginShutdown =>
      cases taken
      exact .shut

/-- The registry holds the tasks that their reapers have not unregistered. -/
def Sound (s : Registrations) : Prop := Holds s.inner s.unreaped

theorem new_sound : new.Sound := by
  have empty : new.unreaped = ∅ := by
    ext a
    simp [unreaped, new]
  rw [Sound, empty]
  exact Holds.new

theorem step_sound (s : Registrations) (action : RegistryAction) (t : Registrations)
    (sound : s.Sound) (taken : s.step action = some t) : t.Sound := by
  cases step_moved taken with
  | refused => exact sound
  | spawned instanceId pluginId singleton clear =>
      rw [Sound, spawn_unreaped _ rfl]
      exact sound.insert ⟨instanceId, pluginId, s.tasks.length⟩ clear
  | terminated n task found running =>
      rw [Sound, terminate_unreaped found running]
      exact sound
  | reaped n task found terminal =>
      rw [Sound, reap_unreaped _ found]
      exact sound.unregister (registration n task) ⟨n, task, found, rfl, by simp [terminal]⟩
  | shut => exact sound.beginShutdown

theorem exec_sound {actions : List RegistryAction} {s : Registrations}
    (run : exec step new actions = some s) : s.Sound :=
  exec_invariant step_sound new_sound run

theorem live_eq_unreaped {s : Registrations} (sound : s.Sound) : s.live = s.unreaped := by
  ext a
  constructor
  · intro ⟨n, task, found, eq, listed⟩
    obtain ⟨b, ⟨m, other, row, eq', pending⟩, same⟩ := sound.mem_list_iff.mp listed
    subst eq eq'
    obtain rfl : m = n := congrArg InstanceHandle.task same
    obtain rfl : other = task := Option.some.inj (row.symm.trans found)
    exact ⟨m, other, found, rfl, pending⟩
  · intro mem
    have listed := sound.mem_list_iff.mpr ⟨a, mem, rfl⟩
    obtain ⟨n, task, found, eq, -⟩ := mem
    exact ⟨n, task, found, eq, listed⟩

theorem step_shut {s t : Registrations} {action : RegistryAction} (shut : s.inner.shuttingDown = true)
    (taken : s.step action = some t) :
    t.inner.shuttingDown = true ∧ t.unreaped ⊆ s.unreaped := by
  cases step_moved taken with
  | refused => exact ⟨shut, subset_rfl⟩
  | spawned instanceId pluginId singleton clear =>
      have closed := (RegistryInner.refusal_eq_none.mp clear).1
      rw [shut] at closed
      cases closed
  | terminated n task found running => exact ⟨shut, (terminate_unreaped found running).subset⟩
  | reaped n task found terminal =>
      refine ⟨shut, ?_⟩
      rw [reap_unreaped _ found]
      exact Set.sdiff_subset
  | shut => exact ⟨rfl, subset_rfl⟩

theorem exec_shut {s t : Registrations} {later : List RegistryAction}
    (shut : s.inner.shuttingDown = true) (run : exec step s later = some t) :
    t.inner.shuttingDown = true ∧ t.unreaped ⊆ s.unreaped := by
  refine exec_invariant (P := fun u => u.inner.shuttingDown = true ∧ u.unreaped ⊆ s.unreaped)
    ?_ ⟨shut, subset_rfl⟩ run
  intro u action v ⟨flag, within⟩ taken
  obtain ⟨flag', fewer⟩ := step_shut flag taken
  exact ⟨flag', fewer.trans within⟩

theorem register_refused {σ : Type} {inner : RegistryInner} {world : σ}
    {instanceId pluginId : String} {singleton : Bool} {factory : σ → InstanceHandle × σ}
    {err : RegistryError}
    (refused : (inner.register world instanceId pluginId singleton factory).1 = .error err) :
    (inner.register world instanceId pluginId singleton factory).2 = (inner, world) := by
  unfold RegistryInner.register at refused ⊢
  cases clear : inner.refusal instanceId pluginId singleton with
  | some err => rfl
  | none => simp [clear] at refused

theorem instance_registry_exclusive {actions : List RegistryAction} {s : Registrations}
    (run : exec step new actions = some s) :
    (s.inner.list.map InstanceHandle.instanceId).Nodup ∧
    (∀ a ∈ s.live, a.singleton = true →
      ∀ b ∈ s.live, b.handle.pluginId = a.handle.pluginId → b = a) ∧
    (∀ pluginId id, s.inner.singletons[pluginId]? = some id ↔
      ∃ a ∈ s.live, a.singleton = true ∧ a.handle.pluginId = pluginId ∧
        a.handle.instanceId = id) ∧
    (∀ (σ : Type) (world : σ) (instanceId pluginId : String) (singleton : Bool)
      (factory : σ → InstanceHandle × σ) (err : RegistryError),
      (s.inner.register world instanceId pluginId singleton factory).1 = .error err →
        (s.inner.register world instanceId pluginId singleton factory).2 = (s.inner, world)) ∧
    ∀ between m later t, exec step s.beginShutdown between = some m → exec step m later = some t →
      (∀ handle ∈ t.inner.list, handle ∈ m.inner.list) ∧
      ∀ n task, t.tasks[n]? = some task → task.phase = .running →
        (registration n task).handle ∈ m.inner.list := by
  have sound := exec_sound run
  refine ⟨sound.list_ids_nodup, ?alone, ?slots, ?refused, ?closed⟩
  case alone =>
    rw [live_eq_unreaped sound]
    exact sound.alone
  case slots =>
    rw [live_eq_unreaped sound]
    exact sound.slots
  case refused =>
    intro σ world instanceId pluginId singleton factory err refused
    exact register_refused refused
  case closed =>
    intro between m later t upTo rest
    have start : s.beginShutdown.Sound := sound.beginShutdown
    have soundM : m.Sound := exec_invariant step_sound start upTo
    have soundT : t.Sound := exec_invariant step_sound soundM rest
    have shut : m.inner.shuttingDown = true := (exec_shut rfl upTo).1
    have within : t.unreaped ⊆ m.unreaped := (exec_shut shut rest).2
    constructor
    · intro handle listed
      obtain ⟨a, mem, eq⟩ := soundT.mem_list_iff.mp listed
      exact soundM.mem_list_iff.mpr ⟨a, within mem, eq⟩
    · intro n task found running
      have pending : registration n task ∈ t.unreaped := ⟨n, task, found, rfl, by simp [running]⟩
      exact soundM.mem_list_iff.mpr ⟨_, within pending, rfl⟩

def reuse : List RegistryAction :=
  [.register "kitchen" "org.lamp" true, .register "hall" "org.lamp" false, .terminate 0, .reap 0,
    .register "kitchen" "org.lamp" false]

theorem instance_registry_exclusive_reuse :
    ∃ s, exec step new reuse = some s ∧ s.inner.list.map InstanceHandle.task = [1] ∧
      (s.inner.list.map InstanceHandle.instanceId).Nodup := by
  obtain ⟨s, run⟩ : ∃ s, exec step new reuse = some s := ⟨_, rfl⟩
  refine ⟨s, run, ?_, (instance_registry_exclusive run).1⟩
  cases run
  rfl

end Registrations
end OxidHome.Engine

import OxidHome.Library.TreeMaps
import OxidHome.Engine.Moves

/-!
# Runs, registrations and reapers

The run of a registered instance is the only one of its id whose reaper has not yet unregistered, and
the tracker entry of that instance is the one of this reaper. What a reaper of an earlier run still
has to do touches nothing that a later run of the id shares.
-/

namespace OxidHome.Engine
open Library
open Std (TreeMap)

def ReaperPhase.rank : ReaperPhase → Nat
  | .waiting => 0
  | .sweptDevices => 1
  | .sweptServices => 2
  | .sweptState => 3
  | .unregistered => 4
  | .done => 5

/-- The start holds the mutex of the registry. -/
def StartStage.registers : StartStage → Bool
  | .locked .. | .spawned .. | .tracked .. => true
  | .checked | .returned _ => false

def StartStage.task : StartStage → Option Nat
  | .spawned _ _ n | .tracked _ _ n => some n
  | _ => none

theorem StartStage.registers_of_task {stage : StartStage} {n : Nat} (task : stage.task = some n) :
    stage.registers = true := by
  cases stage <;> first | rfl | cases task

namespace EngineState

/-- The reaper of run `n`, of instance `id`, has fewer than `bound` items behind it. -/
def Awaits (s : EngineState) (bound : Nat) (id : String) (n : Nat) : Prop :=
  ∃ run, s.runs[n]? = some run ∧ run.instanceId = id ∧ run.reaper.rank < bound

/-- Run `n` is registered under the id, or about to be. -/
def Current (s : EngineState) (id : String) (n : Nat) : Prop :=
  (∃ h, s.registry.instances[id]? = some h ∧ h.task = n) ∨
    ∃ (k : Nat) (stage : StartStage), s.starts[k]? = some ⟨id, stage⟩ ∧ stage.task = some n

def Followed (s : EngineState) (id : String) (n : Nat) : Prop :=
  (∃ h, s.registry.instances[id]? = some h ∧ h.task = n) ∨
    ∃ (k : Nat) (pluginId : String) (singleton : Bool),
      s.starts[k]? = some ⟨id, .tracked pluginId singleton n⟩

variable {s t : EngineState} {bound n : Nat} {id : String}

theorem Awaits.mono {bound' : Nat} (awaits : s.Awaits bound id n) (le : bound ≤ bound') :
    s.Awaits bound' id n := by
  obtain ⟨run, row, same, rank⟩ := awaits
  exact ⟨run, row, same, rank.trans_le le⟩

theorem Awaits.id_eq {bound' : Nat} {id' : String} (one : s.Awaits bound id n)
    (other : s.Awaits bound' id' n) : id = id' := by
  obtain ⟨run, row, rfl, -⟩ := one
  obtain ⟨run', row', rfl, -⟩ := other
  obtain rfl := Option.some.inj (row.symm.trans row')
  rfl

theorem Followed.current (followed : s.Followed id n) : s.Current id n := by
  rcases followed with registered | ⟨k, pluginId, singleton, start⟩
  · exact .inl registered
  · exact .inr ⟨k, _, start, rfl⟩

theorem current_setStart {k : Nat} {before : StartStage}
    (found : s.starts[k]? = some ⟨id, before⟩) (after : StartStage)
    (same : after.task = before.task)
    (registering : Option Nat) (reapers : TreeMap String (Nat × Nat)) {id' : String} :
    ({ s with registering := registering, reapers := reapers }.setStart k id after).Current id' n ↔
      s.Current id' n := by
  constructor
  · rintro (registered | ⟨m, stage, start, task⟩)
    · exact .inl registered
    · rcases (row_set found).mp start with ⟨rfl, here⟩ | ⟨_, old⟩
      · cases here
        exact .inr ⟨k, before, found, same ▸ task⟩
      · exact .inr ⟨m, stage, old, task⟩
  · rintro (registered | ⟨m, stage, start, task⟩)
    · exact .inl registered
    · by_cases here : k = m
      · subst here
        rw [found] at start
        cases start
        exact .inr ⟨k, after, (row_set found).mpr (.inl ⟨rfl, rfl⟩), same ▸ task⟩
      · exact .inr ⟨m, stage, (row_set found).mpr (.inr ⟨here, start⟩), task⟩

theorem untrack_frame (s : EngineState) (id : String) (gen : Nat) :
    s.untrack id gen = { s with reapers := (s.untrack id gen).reapers } := by
  unfold untrack
  split
  · split <;> rfl
  · rfl

end EngineState

open EngineState

/-! ## How a step changes the runs -/

theorem Supervised.awaits {s t : EngineState} {n : Nat} {run : InstanceRun}
    (moved : Supervised s n run t) (row : s.runs[n]? = some run) {bound m : Nat} {id : String} :
    t.Awaits bound id m ↔ s.Awaits bound id m := by
  obtain ⟨phase, same⟩ := moved.frame
  have runs : t.runs = s.runs.set n { run with phase := phase } := by rw [same]
  unfold Awaits
  rw [runs]
  constructor
  · rintro ⟨run', found, named, rank⟩
    rcases (row_set row).mp found with ⟨rfl, rfl⟩ | ⟨-, old⟩
    · exact ⟨run, row, named, rank⟩
    · exact ⟨run', old, named, rank⟩
  · rintro ⟨run', found, named, rank⟩
    by_cases here : n = m
    · subst here
      obtain rfl := Option.some.inj (row.symm.trans found)
      exact ⟨_, (row_set row).mpr (.inl ⟨rfl, rfl⟩), named, rank⟩
    · exact ⟨run', (row_set row).mpr (.inr ⟨here, found⟩), named, rank⟩

theorem Reaped.advance {s t : EngineState} {n : Nat} {run : InstanceRun} (reaped : Reaped s n run t) :
    ∃ reaper, reaper.rank = run.reaper.rank + 1 ∧
      t.runs = s.runs.set n { run with reaper := reaper } := by
  cases reaped with
  | devices reaper => exact ⟨.sweptDevices, by rw [reaper]; rfl, rfl⟩
  | services reaper => exact ⟨.sweptServices, by rw [reaper]; rfl, rfl⟩
  | state _ reaper => exact ⟨.sweptState, by rw [reaper]; rfl, rfl⟩
  | unregister reaper => exact ⟨.unregistered, by rw [reaper]; rfl, rfl⟩
  | untrack reaper =>
      refine ⟨.done, by rw [reaper]; rfl, ?_⟩
      rw [untrack_frame]
      rfl

theorem Reaped.frame {s t : EngineState} {n : Nat} {run : InstanceRun} (reaped : Reaped s n run t) :
    t = { s with
      registry := t.registry, reapers := t.reapers, runs := t.runs, devices := t.devices
      services := t.services, projection := t.projection } := by
  cases reaped with
  | untrack =>
      rw [untrack_frame]
      rfl
  | _ => rfl

theorem Reaped.awaits {s t : EngineState} {n : Nat} {run : InstanceRun} (reaped : Reaped s n run t)
    (row : s.runs[n]? = some run) {bound m : Nat} {id : String} :
    t.Awaits bound id m ↔ s.Awaits bound id m ∧ (m = n → run.reaper.rank + 1 < bound) := by
  obtain ⟨reaper, rank, runs⟩ := reaped.advance
  unfold Awaits
  rw [runs]
  constructor
  · rintro ⟨run', found, named, below⟩
    rcases (row_set row).mp found with ⟨rfl, rfl⟩ | ⟨other, old⟩
    · have next : run.reaper.rank + 1 < bound := rank ▸ below
      exact ⟨⟨run, row, named, by omega⟩, fun _ => next⟩
    · exact ⟨⟨run', old, named, below⟩, fun here => absurd here.symm other⟩
  · rintro ⟨⟨run', found, named, below⟩, next⟩
    by_cases here : n = m
    · subst here
      obtain rfl := Option.some.inj (row.symm.trans found)
      refine ⟨_, (row_set row).mpr (.inl ⟨rfl, rfl⟩), named, ?_⟩
      rw [rank]
      exact next rfl
    · exact ⟨run', (row_set row).mpr (.inr ⟨here, found⟩), named, below⟩

theorem spawn_awaits {s : EngineState} {k : Nat} {id pluginId : String} {singleton : Bool}
    {bound m : Nat} {id' : String} :
    (s.spawn k id pluginId singleton).Awaits bound id' m ↔
      s.Awaits bound id' m ∨ m = s.runs.length ∧ id' = id ∧ 0 < bound := by
  unfold Awaits
  simp only [spawn, setStart]
  constructor
  · rintro ⟨run, found, named, below⟩
    rcases row_concat.mp found with old | ⟨rfl, rfl⟩
    · exact .inl ⟨run, old, named, below⟩
    · exact .inr ⟨rfl, named.symm, below⟩
  · rintro (⟨run, old, named, below⟩ | ⟨rfl, rfl, below⟩)
    · exact ⟨run, row_concat.mpr (.inl old), named, below⟩
    · exact ⟨_, row_concat.mpr (.inr ⟨rfl, rfl⟩), rfl, below⟩

/-! ## Generations -/

structure Minted (s : EngineState) : Prop where
  next : s.reaperGen = s.runs.length
  gens : ∀ (n : Nat) run, s.runs[n]? = some run → run.gen = n

theorem Minted.replace {s t : EngineState} {n : Nat} {run : InstanceRun} (minted : Minted s)
    (run' : InstanceRun) (row : s.runs[n]? = some run) (same : run'.gen = run.gen) (runs : t.runs = s.runs.set n run')
    (gen : t.reaperGen = s.reaperGen) : Minted t where
  next := by rw [gen, runs, List.length_set, minted.next]
  gens := by
    intro m row' found
    rw [runs] at found
    rcases (row_set row).mp found with ⟨rfl, rfl⟩ | ⟨-, old⟩
    · rw [same, minted.gens n run row]
    · exact minted.gens m row' old

theorem Minted.step {s t : EngineState} (minted : Minted s) (moved : EngineMoved s t) :
    Minted t := by
  cases moved with
  | spawned k id pluginId singleton found =>
      constructor
      · simp only [spawn, setStart, List.length_append, List.length_singleton, minted.next]
      · intro m run row
        rcases row_concat.mp row with old | ⟨rfl, rfl⟩
        · exact minted.gens m run old
        · exact minted.next
  | supervised n run _ row supervised =>
      obtain ⟨phase, same⟩ := supervised.frame
      exact minted.replace { run with phase := phase } row rfl (by rw [same]) (by rw [same])
  | reaped n run _ row reaped =>
      obtain ⟨reaper, -, runs⟩ := reaped.advance
      exact minted.replace { run with reaper := reaper } row rfl runs (by rw [reaped.frame])
  | _ => exact ⟨minted.next, minted.gens⟩

/-! ## Registrations -/

structure Registered (s : EngineState) : Prop where
  holder : ∀ (k : Nat) id stage, s.starts[k]? = some ⟨id, stage⟩ → stage.registers = true →
    s.registering = some k ∧ s.registry.instances[id]? = none
  current : ∀ id n, s.Current id n ↔ s.Awaits 4 id n
  superseded : ∀ n m id, n < m → s.Awaits 6 id m → ¬ s.Awaits 4 id n

namespace Registered
variable {s t : EngineState}

theorem unique (reg : Registered s) {id : String} {n m : Nat} (one : s.Current id n)
    (other : s.Current id m) : n = m := by
  rcases one with ⟨h, registered, rfl⟩ | ⟨k, stage, start, task⟩
  · rcases other with ⟨h', registered', rfl⟩ | ⟨k, stage, start, task⟩
    · rw [Option.some.inj (registered.symm.trans registered')]
    · have free := (reg.holder k id stage start (StartStage.registers_of_task task)).2
      rw [registered] at free
      cases free
  · have mine := reg.holder k id stage start (StartStage.registers_of_task task)
    rcases other with ⟨h', registered', rfl⟩ | ⟨k', stage', start', task'⟩
    · rw [registered'] at mine
      cases mine.2
    · have yours := reg.holder k' id stage' start' (StartStage.registers_of_task task')
      obtain rfl := Option.some.inj (mine.1.symm.trans yours.1)
      rw [start] at start'
      cases start'
      exact Option.some.inj (task.symm.trans task')

theorem quiet (reg : Registered s)
    (awaits : ∀ bound id n, t.Awaits bound id n ↔ s.Awaits bound id n)
    (instances : t.registry.instances = s.registry.instances)
    (registering : t.registering = s.registering)
    (starts : ∀ (k : Nat) id stage, stage.registers = true →
      (t.starts[k]? = some ⟨id, stage⟩ ↔ s.starts[k]? = some ⟨id, stage⟩)) : Registered t where
  holder := by
    intro k id stage found registers
    rw [registering, instances]
    exact reg.holder k id stage ((starts k id stage registers).mp found) registers
  current := by
    intro id n
    rw [awaits, ← reg.current]
    unfold Current
    rw [instances]
    constructor
    · rintro (registered | ⟨k, stage, start, task⟩)
      · exact .inl registered
      · exact .inr ⟨k, stage, (starts k id stage (StartStage.registers_of_task task)).mp start, task⟩
    · rintro (registered | ⟨k, stage, start, task⟩)
      · exact .inl registered
      · exact .inr ⟨k, stage, (starts k id stage (StartStage.registers_of_task task)).mpr start, task⟩
  superseded := by
    intro n m id less later
    rw [awaits]
    exact reg.superseded n m id less ((awaits 6 id m).mp later)

theorem locked (reg : Registered s) {k : Nat} {id pluginId : String} {singleton : Bool}
    (found : s.starts[k]? = some ⟨id, .checked⟩) (free : s.registering = none)
    (clear : s.registry.refusal id pluginId singleton = none) :
    Registered ({ s with registering := some k }.setStart k id (.locked pluginId singleton)) where
  holder := by
    intro m id' stage start registers
    rcases (row_set found).mp start with ⟨rfl, same⟩ | ⟨_, old⟩
    · cases same
      exact ⟨rfl, (RegistryInner.refusal_eq_none.mp clear).2.1⟩
    · have held := (reg.holder m id' stage old registers).1
      rw [free] at held
      cases held
  current := by
    intro id' n
    refine Iff.trans ?_ (reg.current id' n)
    exact current_setStart found (.locked pluginId singleton) rfl _ _
  superseded := reg.superseded

theorem spawned (reg : Registered s) {k : Nat} {id pluginId : String} {singleton : Bool}
    (found : s.starts[k]? = some ⟨id, .locked pluginId singleton⟩) :
    Registered (s.spawn k id pluginId singleton) where
  holder := by
    intro m id' stage start registers
    rcases (row_set found).mp start with ⟨rfl, same⟩ | ⟨_, old⟩
    · cases same
      exact reg.holder k id _ found rfl
    · exact reg.holder m id' stage old registers
  current := by
    intro id' n
    rw [spawn_awaits, ← reg.current]
    constructor
    · rintro (registered | ⟨m, stage, start, task⟩)
      · exact .inl (.inl registered)
      · rcases (row_set found).mp start with ⟨rfl, same⟩ | ⟨_, old⟩
        · cases same
          cases task
          exact .inr ⟨rfl, rfl, by omega⟩
        · exact .inl (.inr ⟨m, stage, old, task⟩)
    · rintro ((registered | ⟨m, stage, start, task⟩) | ⟨rfl, rfl, -⟩)
      · exact .inl registered
      · have other : k ≠ m := by
          rintro rfl
          rw [found] at start
          cases start
          cases task
        exact .inr ⟨m, stage, (row_set found).mpr (.inr ⟨other, start⟩), task⟩
      · exact .inr ⟨k, _, (row_set found).mpr (.inl ⟨rfl, rfl⟩), rfl⟩
  superseded := by
    intro n m id' less later earlier
    rw [spawn_awaits] at later earlier
    rcases earlier with earlier | ⟨rfl, -, -⟩
    · rcases later with later | ⟨rfl, rfl, -⟩
      · exact reg.superseded n m id' less later earlier
      -- the new run, under the mutex with the id free
      · have mine := reg.holder k id' _ found rfl
        rcases (reg.current id' n).mpr earlier with ⟨h, registered, -⟩ | ⟨m, stage, start, task⟩
        · rw [registered] at mine
          cases mine.2
        · have yours := reg.holder m id' stage start (StartStage.registers_of_task task)
          obtain rfl := Option.some.inj (mine.1.symm.trans yours.1)
          rw [found] at start
          cases start
          cases task
    · rcases later with ⟨run, row, -⟩ | ⟨rfl, -, -⟩
      · exact absurd (row_lt row) (by omega)
      · omega

theorem tracked (reg : Registered s) {k n : Nat} {id pluginId : String} {singleton : Bool}
    (found : s.starts[k]? = some ⟨id, .spawned pluginId singleton n⟩)
    (reapers : TreeMap String (Nat × Nat)) :
    Registered ({ s with reapers := reapers }.setStart k id (.tracked pluginId singleton n)) where
  holder := by
    intro m id' stage start registers
    rcases (row_set found).mp start with ⟨rfl, same⟩ | ⟨_, old⟩
    · cases same
      exact reg.holder k id _ found rfl
    · exact reg.holder m id' stage old registers
  current := by
    intro id' m
    refine Iff.trans ?_ (reg.current id' m)
    exact current_setStart found (.tracked pluginId singleton n) rfl _ _
  superseded := reg.superseded

theorem inserted (reg : Registered s) {k n : Nat} {id pluginId : String} {singleton : Bool}
    (found : s.starts[k]? = some ⟨id, .tracked pluginId singleton n⟩) :
    Registered (s.insert k id pluginId singleton n) where
  holder := by
    intro m id' stage start registers
    rcases (row_set found).mp start with ⟨_, same⟩ | ⟨other, old⟩
    · cases same
      cases registers
    · have mine := (reg.holder k id _ found rfl).1
      have yours := (reg.holder m id' stage old registers).1
      exact absurd (Option.some.inj (mine.symm.trans yours)) other
  current := by
    intro id' n'
    refine Iff.trans ?_ (reg.current id' n')
    unfold Current
    simp only [EngineState.insert, setStart, RegistryInner.insert, getElem?_insert_eq]
    by_cases same : id = id'
    · subst same
      rw [if_pos rfl]
      constructor
      · rintro (⟨h, registered, rfl⟩ | ⟨m, stage, start, task⟩)
        · cases registered
          exact .inr ⟨k, _, found, rfl⟩
        · rcases (row_set found).mp start with ⟨rfl, same⟩ | ⟨_, old⟩
          · cases same
            cases task
          · exact .inr ⟨m, stage, old, task⟩
      · intro before
        obtain rfl : n = n' := reg.unique (.inr ⟨k, _, found, rfl⟩) before
        exact .inl ⟨_, rfl, rfl⟩
    · rw [if_neg same]
      constructor
      · rintro (registered | ⟨m, stage, start, task⟩)
        · exact .inl registered
        · rcases (row_set found).mp start with ⟨_, here⟩ | ⟨_, old⟩
          · cases here
            cases task
          · exact .inr ⟨m, stage, old, task⟩
      · rintro (registered | ⟨m, stage, start, task⟩)
        · exact .inl registered
        · have other : k ≠ m := by
            rintro rfl
            rw [found] at start
            cases start
            exact same rfl
          exact .inr ⟨m, stage, (row_set found).mpr (.inr ⟨other, start⟩), task⟩
  superseded := reg.superseded

theorem swept (reg : Registered s) {n : Nat} {run : InstanceRun} (row : s.runs[n]? = some run)
    (reaped : Reaped s n run t) (elsewhere : run.reaper ≠ .sweptState)
    (registry : t.registry = s.registry) (registering : t.registering = s.registering)
    (starts : t.starts = s.starts) : Registered t where
  holder := by
    rw [registry, registering, starts]
    exact reg.holder
  current := by
    intro id m
    have past : run.reaper.rank + 1 ≠ 4 := by
      cases stage : run.reaper <;> simp_all [ReaperPhase.rank]
    rw [reaped.awaits row]
    unfold Current
    rw [registry, starts]
    refine Iff.trans (reg.current id m) ⟨fun awaits => ⟨awaits, ?_⟩, And.left⟩
    rintro rfl
    obtain ⟨run', row', -, rank⟩ := awaits
    obtain rfl := Option.some.inj (row.symm.trans row')
    omega
  superseded := by
    intro m m' id less later earlier
    exact reg.superseded m m' id less ((reaped.awaits row).mp later).1
      ((reaped.awaits row).mp earlier).1

theorem unregistered (reg : Registered s) {n : Nat} {run : InstanceRun}
    (row : s.runs[n]? = some run) (stage : run.reaper = .sweptState) (free : s.registering = none) :
    Registered ({ s with
      registry := s.registry.unregister run.instanceId run.pluginId }.setReaper n run
        .unregistered) := by
  have reaped : Reaped s n run _ := .unregister stage free
  have idle : ∀ (k : Nat) id st, s.starts[k]? = some ⟨id, st⟩ → st.registers ≠ true := by
    intro k id st start registers
    rw [(reg.holder k id st start registers).1] at free
    cases free
  have listed : ∀ id m, s.Current id m ↔
      ∃ h, s.registry.instances[id]? = some h ∧ h.task = m := by
    intro id m
    refine ⟨?_, .inl⟩
    rintro (registered | ⟨k, st, start, task⟩)
    · exact registered
    · exact absurd (StartStage.registers_of_task task) (idle k id st start)
  have mine : s.Current run.instanceId n :=
    (reg.current _ n).mpr ⟨run, row, rfl, by rw [stage]; decide⟩
  constructor
  case holder =>
    intro k id st start registers
    exact absurd registers (idle k id st start)
  case current =>
    intro id m
    rw [reaped.awaits row, ← reg.current, listed]
    have after : Current ({ s with
        registry := s.registry.unregister run.instanceId run.pluginId }.setReaper n run
          .unregistered) id m ↔
        run.instanceId ≠ id ∧ ∃ h, s.registry.instances[id]? = some h ∧ h.task = m := by
      unfold Current
      simp only [setReaper, RegistryInner.unregister, getElem?_erase_eq]
      constructor
      · rintro (⟨h, registered, task⟩ | ⟨k, st, start, task⟩)
        · split at registered
          · cases registered
          · next other => exact ⟨other, h, registered, task⟩
        · exact absurd (StartStage.registers_of_task task) (idle k id st start)
      · rintro ⟨other, registered⟩
        rw [if_neg other]
        exact .inl registered
    rw [after]
    constructor
    · rintro ⟨other, registered⟩
      refine ⟨registered, ?_⟩
      rintro rfl
      obtain ⟨run', row', named, -⟩ := (reg.current id m).mp (.inl registered)
      obtain rfl := Option.some.inj (row.symm.trans row')
      exact absurd named other
    · rintro ⟨registered, past⟩
      refine ⟨?_, registered⟩
      rintro rfl
      obtain rfl := reg.unique mine (.inl registered)
      exact absurd (past rfl) (by rw [stage]; decide)
  case superseded =>
    intro m m' id less later earlier
    exact reg.superseded m m' id less ((reaped.awaits row).mp later).1
      ((reaped.awaits row).mp earlier).1

theorem step (reg : Registered s) (moved : EngineMoved s t) : Registered t := by
  cases moved with
  | started instanceId =>
      refine reg.quiet (fun _ _ _ => .rfl) rfl rfl ?_
      intro k id stage registers
      constructor
      · intro found
        rcases row_concat.mp found with old | ⟨_, new⟩
        · exact old
        · have named := congrArg StartCall.stage new
          simp only [beginStart] at named
          split at named
          · rw [← named] at registers
            cases registers
          · split at named <;>
            · rw [← named] at registers
              cases registers
      · exact fun old => row_concat.mpr (.inl old)
  | refused k id err found =>
      refine reg.quiet (fun _ _ _ => .rfl) rfl rfl ?_
      intro m id' stage registers
      constructor
      · intro start
        rcases (row_set found).mp start with ⟨_, new⟩ | ⟨_, old⟩
        · cases new
          cases registers
        · exact old
      · intro old
        refine (row_set found).mpr (.inr ⟨?_, old⟩)
        rintro rfl
        rw [found] at old
        cases old
        cases registers
  | locked k id pluginId singleton found free clear => exact reg.locked found free clear
  | spawned k id pluginId singleton found => exact reg.spawned found
  | tracked k id pluginId singleton n run found row => exact reg.tracked found _
  | inserted k id pluginId singleton n found => exact reg.inserted found
  | supervised n run _ row supervised =>
      obtain ⟨phase, same⟩ := supervised.frame
      exact reg.quiet (fun _ _ _ => supervised.awaits row) (by rw [same]) (by rw [same])
        (fun _ _ _ _ => by rw [same])
  | reaped n run _ row reaped =>
      cases reaped with
      | devices stage terminal =>
          exact reg.swept row (.devices stage terminal) (by simp [stage]) rfl rfl rfl
      | services stage => exact reg.swept row (.services stage) (by simp [stage]) rfl rfl rfl
      | state nowMs stage => exact reg.swept row (.state nowMs stage) (by simp [stage]) rfl rfl rfl
      | unregister stage free => exact reg.unregistered row stage free
      | untrack stage =>
          have frame := untrack_frame s run.instanceId run.gen
          exact reg.swept row (.untrack stage) (by simp [stage]) (by rw [frame]; rfl)
            (by rw [frame]; rfl) (by rw [frame]; rfl)
  | _ => exact reg.quiet (fun _ _ _ => .rfl) rfl rfl (fun _ _ _ _ => .rfl)

end Registered

/-! ## The tracker -/

structure Tracked (s : EngineState) : Prop where
  entries : ∀ (id : String) g m, s.reapers[id]? = some (g, m) → g = m ∧ s.Awaits 5 id m
  own : ∀ id n, s.Followed id n →
    s.reapers[id]? = some (n, n) ∨ s.drains ≠ [] ∧ s.reapers[id]? = none

namespace Tracked
variable {s t : EngineState}

theorem quiet (tr : Tracked s) (awaits : ∀ id n, s.Awaits 5 id n → t.Awaits 5 id n)
    (reapers : t.reapers = s.reapers) (drains : s.drains ≠ [] → t.drains ≠ [])
    (registered : ∀ (id : String) h, t.registry.instances[id]? = some h → s.Followed id h.task)
    (starts : ∀ (k : Nat) id pluginId singleton n,
      t.starts[k]? = some ⟨id, .tracked pluginId singleton n⟩ →
      s.starts[k]? = some ⟨id, .tracked pluginId singleton n⟩) : Tracked t where
  entries := by
    intro id g m found
    rw [reapers] at found
    obtain ⟨same, live⟩ := tr.entries id g m found
    exact ⟨same, awaits id m live⟩
  own := by
    intro id n followed
    have before : s.Followed id n := by
      rcases followed with ⟨h, at_id, rfl⟩ | ⟨k, pluginId, singleton, start⟩
      · exact registered id h at_id
      · exact .inr ⟨k, pluginId, singleton, starts k id pluginId singleton n start⟩
    rw [reapers]
    rcases tr.own id n before with own | ⟨taken, gone⟩
    · exact .inl own
    · exact .inr ⟨drains taken, gone⟩

theorem tracked_of_set {k m n : Nat} {id id' pluginId : String} {singleton : Bool}
    {before after : StartStage} (found : s.starts[k]? = some ⟨id, before⟩)
    (untracked : after ≠ .tracked pluginId singleton n)
    (row : (s.starts.set k ⟨id, after⟩)[m]? = some ⟨id', .tracked pluginId singleton n⟩) :
    s.starts[m]? = some ⟨id', .tracked pluginId singleton n⟩ := by
  rcases (row_set found).mp row with ⟨-, here⟩ | ⟨-, old⟩
  · cases here
    exact absurd rfl untracked
  · exact old

theorem tracked (tr : Tracked s) (reg : Registered s) (minted : Minted s) {k n : Nat}
    {id pluginId : String} {singleton : Bool} {run : InstanceRun}
    (found : s.starts[k]? = some ⟨id, .spawned pluginId singleton n⟩)
    (row : s.runs[n]? = some run) :
    Tracked ({ s with reapers := s.reapers.insert id (run.gen, n) }.setStart k id
      (.tracked pluginId singleton n)) := by
  have gen : run.gen = n := minted.gens n run row
  have mine : s.Current id n := .inr ⟨k, _, found, rfl⟩
  constructor
  case entries =>
    intro id' g m tracked
    simp only [setStart, getElem?_insert_eq] at tracked
    split at tracked
    · next same =>
        cases tracked
        exact ⟨gen, same ▸ ((reg.current id n).mp mine).mono (by omega)⟩
    · exact tr.entries id' g m tracked
  case own =>
    intro id' m followed
    simp only [setStart, getElem?_insert_eq]
    split
    · next same =>
        subst same
        have theirs := followed.current
        rw [current_setStart found (.tracked pluginId singleton n) rfl] at theirs
        obtain rfl := reg.unique mine theirs
        exact .inl (by rw [gen])
    · next other =>
        apply tr.own id' m
        rcases followed with registered | ⟨k', pluginId', singleton', start⟩
        · exact .inl registered
        · rcases (row_set found).mp start with ⟨-, here⟩ | ⟨-, old⟩
          · cases here
            exact absurd rfl other
          · exact .inr ⟨k', pluginId', singleton', old⟩

theorem untracked (tr : Tracked s) (reg : Registered s) (minted : Minted s) {n : Nat}
    {run : InstanceRun} (row : s.runs[n]? = some run) (stage : run.reaper = .unregistered) :
    Tracked ((s.untrack run.instanceId run.gen).setReaper n run .done) := by
  have gen : run.gen = n := minted.gens n run row
  have reaped : Reaped s n run _ := .untrack stage
  have frame := untrack_frame s run.instanceId run.gen
  have past : ∀ id m, s.Followed id m → m ≠ n := by
    rintro id m followed rfl
    obtain ⟨run', row', -, rank⟩ := (reg.current id m).mp followed.current
    obtain rfl := Option.some.inj (row.symm.trans row')
    rw [stage] at rank
    exact absurd rank (by decide)
  have kept : ∀ (id : String) g m, g ≠ n →
      s.reapers[id]? = some (g, m) → (s.untrack run.instanceId run.gen).reapers[id]? = some (g, m) := by
    intro id g m other found
    unfold untrack
    split
    · next g' _ at_id =>
        split
        · next mine =>
            simp only [getElem?_erase_eq]
            split
            · next same =>
                subst same
                rw [at_id] at found
                cases found
                exact absurd (mine.trans gen) other
            · exact found
        · exact found
    · exact found
  have less : ∀ (id : String) entry, (s.untrack run.instanceId run.gen).reapers[id]? = some entry →
      s.reapers[id]? = some entry ∧ (run.instanceId = id → entry.1 ≠ n) := by
    intro id entry found
    unfold untrack at found
    split at found
    · next g m at_id =>
        split at found
        · simp only [getElem?_erase_eq] at found
          split at found
          · cases found
          · next other => exact ⟨found, fun same => absurd same other⟩
        · next foreign =>
            refine ⟨found, ?_⟩
            rintro rfl here
            rw [at_id] at found
            cases found
            exact foreign (here.trans gen.symm)
    · next absent =>
        refine ⟨found, ?_⟩
        rintro rfl
        rw [absent] at found
        cases found
  constructor
  case entries =>
    intro id g m found
    obtain ⟨old, foreign⟩ := less id (g, m) found
    obtain ⟨rfl, live⟩ := tr.entries id g m old
    refine ⟨rfl, (reaped.awaits row).mpr ⟨live, ?_⟩⟩
    rintro rfl
    have mine : s.Awaits 5 run.instanceId g := ⟨run, row, rfl, by rw [stage]; decide⟩
    exact absurd rfl (foreign (mine.id_eq live))
  case own =>
    intro id m followed
    have before : s.Followed id m := by
      rw [frame] at followed
      exact followed
    rcases tr.own id m before with own | ⟨taken, gone⟩
    · exact .inl (kept id m m (past id m before) own)
    · refine .inr ⟨by rw [frame]; exact taken, ?_⟩
      rw [Option.eq_none_iff_forall_ne_some]
      intro entry found
      rw [(less id entry found).1] at gone
      cases gone

theorem step (tr : Tracked s) (reg : Registered s) (minted : Minted s) (moved : EngineMoved s t) :
    Tracked t := by
  have listed : ∀ (id : String) h, s.registry.instances[id]? = some h → s.Followed id h.task :=
    fun _ h registered => .inl ⟨h, registered, rfl⟩
  cases moved with
  | started instanceId =>
      refine tr.quiet (fun _ _ old => old) rfl id listed ?_
      intro k id pluginId singleton n start
      rcases row_concat.mp start with old | ⟨_, new⟩
      · exact old
      · have named := congrArg StartCall.stage new
        simp only [beginStart] at named
        split at named
        · cases named
        · split at named <;> cases named
  | refused k id err found =>
      refine tr.quiet (fun _ _ old => old) rfl (fun old => old) listed ?_
      exact fun _ _ _ _ _ => tracked_of_set found nofun
  | locked k id pluginId singleton found free clear =>
      refine tr.quiet (fun _ _ old => old) rfl (fun old => old) listed ?_
      exact fun _ _ _ _ _ => tracked_of_set found nofun
  | spawned k id pluginId singleton found =>
      refine tr.quiet (fun _ _ old => spawn_awaits.mpr (.inl old)) rfl (fun old => old) listed ?_
      exact fun _ _ _ _ _ => tracked_of_set found nofun
  | tracked k id pluginId singleton n run found row => exact tr.tracked reg minted found row
  | inserted k id pluginId singleton n found =>
      refine tr.quiet (fun _ _ old => old) rfl (fun old => old) ?_
        (fun _ _ _ _ _ => tracked_of_set found nofun)
      intro id' h registered
      simp only [EngineState.insert, setStart, RegistryInner.insert, getElem?_insert_eq]
        at registered
      split at registered
      · next same =>
          cases registered
          exact .inr ⟨k, pluginId, singleton, same ▸ found⟩
      · exact listed id' h registered
  | supervised n run _ row supervised =>
      obtain ⟨phase, same⟩ := supervised.frame
      exact tr.quiet (fun _ _ => (supervised.awaits row).mpr) (by rw [same]) (by rw [same]; exact id)
        (by rw [same]; exact listed) (by rw [same]; exact fun _ _ _ _ _ old => old)
  | reaped n run _ row reaped =>
      have live : run.reaper.rank + 1 < 5 → ∀ id m, s.Awaits 5 id m → t.Awaits 5 id m :=
        fun rank id m old => (reaped.awaits row).mpr ⟨old, fun _ => rank⟩
      cases reaped with
      | devices stage =>
          exact tr.quiet (live (by rw [stage]; decide)) rfl id listed (fun _ _ _ _ _ old => old)
      | services stage =>
          exact tr.quiet (live (by rw [stage]; decide)) rfl id listed (fun _ _ _ _ _ old => old)
      | state _ stage =>
          exact tr.quiet (live (by rw [stage]; decide)) rfl id listed (fun _ _ _ _ _ old => old)
      | unregister stage =>
          refine tr.quiet (live (by rw [stage]; decide)) rfl id ?_ (fun _ _ _ _ _ old => old)
          intro id h registered
          simp only [setReaper, RegistryInner.unregister, getElem?_erase_eq] at registered
          split at registered
          · cases registered
          · exact listed id h registered
      | untrack stage => exact tr.untracked reg minted row stage
  | taken =>
      constructor
      · intro id g m found
        simp [takeReaperHandles] at found
      · intro id n _
        exact .inr ⟨by simp [takeReaperHandles], by simp [takeReaperHandles]⟩
  | drained d awaiting found =>
      refine tr.quiet (fun _ _ old => old) rfl ?_ listed (fun _ _ _ _ _ old => old)
      exact fun taken => by simpa using taken
  | _ => exact tr.quiet (fun _ _ old => old) rfl id listed (fun _ _ _ _ _ old => old)

end Tracked

end OxidHome.Engine

import OxidHome.Projection.Mutations
import OxidHome.Engine.Reapers

/-!
# What the instances share

A singleton slot, a device, a service or a fresh projection entry of an instance is there only while
the reaper of one of its runs still has that item of its list ahead.
-/

namespace OxidHome.Engine
open Wit Library Host Projection Services
open Std (TreeMap)
open EngineState

def StartStage.spawnedFor : StartStage → Option (String × Nat)
  | .spawned pluginId _ n | .tracked pluginId _ n => some (pluginId, n)
  | _ => none

structure Slotted (s : EngineState) : Prop where
  starts : ∀ (k : Nat) id stage pluginId n, s.starts[k]? = some ⟨id, stage⟩ →
    stage.spawnedFor = some (pluginId, n) → ∃ run, s.runs[n]? = some run ∧ run.pluginId = pluginId
  slots : ∀ pluginId id : String, s.registry.singletons[pluginId]? = some id →
    ∃ (n : Nat) (run : InstanceRun), s.runs[n]? = some run ∧ run.instanceId = id ∧
      run.pluginId = pluginId ∧ run.reaper.rank < 4

namespace Slotted
variable {s t : EngineState}

theorem replace (sl : Slotted s) {n : Nat} {run : InstanceRun} (run' : InstanceRun)
    (row : s.runs[n]? = some run) (named : run'.instanceId = run.instanceId ∧
    run'.pluginId = run.pluginId) (runs : t.runs = s.runs.set n run') (starts : t.starts = s.starts)
    (slots : ∀ pluginId id : String, t.registry.singletons[pluginId]? = some id →
      s.registry.singletons[pluginId]? = some id ∧
        (run.reaper.rank < 4 → run'.reaper.rank < 4 ∨
          ¬ (run.instanceId = id ∧ run.pluginId = pluginId))) : Slotted t where
  starts := by
    intro k id stage pluginId m found spawned
    rw [starts] at found
    obtain ⟨old, at_m, plugin⟩ := sl.starts k id stage pluginId m found spawned
    rw [runs]
    by_cases here : n = m
    · subst here
      obtain rfl := Option.some.inj (row.symm.trans at_m)
      exact ⟨run', (row_set row).mpr (.inl ⟨rfl, rfl⟩), named.2.trans plugin⟩
    · exact ⟨old, (row_set row).mpr (.inr ⟨here, at_m⟩), plugin⟩
  slots := by
    intro pluginId id slot
    obtain ⟨before, kept⟩ := slots pluginId id slot
    obtain ⟨m, old, at_m, of_id, plugin, rank⟩ := sl.slots pluginId id before
    rw [runs]
    by_cases here : n = m
    · subst here
      obtain rfl := Option.some.inj (row.symm.trans at_m)
      rcases kept rank with below | other
      · exact ⟨n, run', (row_set row).mpr (.inl ⟨rfl, rfl⟩), named.1.trans of_id,
          named.2.trans plugin, below⟩
      · exact absurd ⟨of_id, plugin⟩ other
    · exact ⟨m, old, (row_set row).mpr (.inr ⟨here, at_m⟩), of_id, plugin, rank⟩

theorem restage (sl : Slotted s) {k : Nat} {id : String} {before after : StartStage}
    (found : s.starts[k]? = some ⟨id, before⟩) (starts : t.starts = s.starts.set k ⟨id, after⟩)
    (runs : t.runs = s.runs) (slots : t.registry.singletons = s.registry.singletons)
    (spawned : ∀ entry, after.spawnedFor = some entry → before.spawnedFor = some entry) :
    Slotted t where
  starts := by
    intro m id' stage pluginId n row entry
    rw [starts] at row
    rw [runs]
    rcases (row_set found).mp row with ⟨-, here⟩ | ⟨-, old⟩
    · cases here
      exact sl.starts k id before pluginId n found (spawned _ entry)
    · exact sl.starts m id' stage pluginId n old entry
  slots := by
    rw [slots, runs]
    exact sl.slots

theorem spawned (sl : Slotted s) {k : Nat} {id pluginId : String} {singleton : Bool}
    (found : s.starts[k]? = some ⟨id, .locked pluginId singleton⟩) :
    Slotted (s.spawn k id pluginId singleton) where
  starts := by
    intro m id' stage pluginId' n row entry
    rcases (row_set found).mp row with ⟨-, here⟩ | ⟨-, old⟩
    · cases here
      cases entry
      exact ⟨_, row_concat.mpr (.inr ⟨rfl, rfl⟩), rfl⟩
    · obtain ⟨run, at_n, plugin⟩ := sl.starts m id' stage pluginId' n old entry
      exact ⟨run, row_concat.mpr (.inl at_n), plugin⟩
  slots := by
    intro pluginId' id' slot
    obtain ⟨n, run, at_n, rest⟩ := sl.slots pluginId' id' slot
    exact ⟨n, run, row_concat.mpr (.inl at_n), rest⟩

theorem inserted (sl : Slotted s) (reg : Registered s) {k n : Nat} {id pluginId : String}
    {singleton : Bool} (found : s.starts[k]? = some ⟨id, .tracked pluginId singleton n⟩) :
    Slotted (s.insert k id pluginId singleton n) where
  starts := by
    intro m id' stage pluginId' n' row entry
    rcases (row_set found).mp row with ⟨-, here⟩ | ⟨-, old⟩
    · cases here
      cases entry
    · exact sl.starts m id' stage pluginId' n' old entry
  slots := by
    intro pluginId' id' slot
    simp only [EngineState.insert, setStart, RegistryInner.insert] at slot
    split at slot
    · rw [getElem?_insert_eq] at slot
      split at slot
      · next same =>
          subst same
          cases slot
          obtain ⟨run, row, named, rank⟩ := (reg.current id n).mp (.inr ⟨k, _, found, rfl⟩)
          obtain ⟨run', row', plugin⟩ := sl.starts k id _ pluginId n found rfl
          obtain rfl := Option.some.inj (row.symm.trans row')
          exact ⟨n, run, row, named, plugin, rank⟩
      · exact sl.slots pluginId' id' slot
    · exact sl.slots pluginId' id' slot

theorem step (sl : Slotted s) (reg : Registered s) (moved : EngineMoved s t) : Slotted t := by
  cases moved with
  | started instanceId =>
      refine ⟨?_, sl.slots⟩
      intro k id stage pluginId n start entry
      rcases row_concat.mp start with old | ⟨_, new⟩
      · exact sl.starts k id stage pluginId n old entry
      · have named := congrArg StartCall.stage new
        simp only [beginStart] at named
        split at named
        · rw [← named] at entry
          cases entry
        · split at named <;>
          · rw [← named] at entry
            cases entry
  | refused k id err found => exact sl.restage found rfl rfl rfl fun _ entry => by cases entry
  | locked k id pluginId singleton found free clear => exact sl.restage found rfl rfl rfl fun _ entry => by cases entry
  | spawned k id pluginId singleton found => exact sl.spawned found
  | tracked k id pluginId singleton n run found row =>
      exact sl.restage found rfl rfl rfl fun _ entry => entry
  | inserted k id pluginId singleton n found => exact sl.inserted reg found
  | supervised n run _ row supervised =>
      obtain ⟨phase, same⟩ := supervised.frame
      refine sl.replace { run with phase := phase } row ⟨rfl, rfl⟩ (by rw [same])
        (by rw [same]) ?_
      rw [same]
      exact fun _ _ slot => ⟨slot, .inl⟩
  | reaped n run _ row reaped =>
      obtain ⟨reaper, next, runs⟩ := reaped.advance
      have lower : run.reaper ≠ .sweptState → run.reaper.rank < 4 → reaper.rank < 4 := by
        intro elsewhere below
        have other : run.reaper.rank ≠ 3 := by
          cases stage : run.reaper <;> simp_all [ReaperPhase.rank]
        omega
      cases reaped with
      | unregister stage =>
          refine sl.replace { run with reaper := reaper } row ⟨rfl, rfl⟩ runs rfl ?_
          intro pluginId id slot
          simp only [setReaper, RegistryInner.unregister] at slot
          split at slot
          · next mine =>
              rw [getElem?_erase_eq] at slot
              split at slot
              · cases slot
              · next other => exact ⟨slot, fun _ => .inr fun both => other both.2⟩
          · next foreign =>
              refine ⟨slot, fun _ => .inr ?_⟩
              rintro ⟨rfl, rfl⟩
              exact foreign slot
      | untrack stage =>
          have frame := untrack_frame s run.instanceId run.gen
          refine sl.replace { run with reaper := reaper } row ⟨rfl, rfl⟩ runs
            (by rw [frame]; rfl) ?_
          rw [frame]
          exact fun _ _ slot => ⟨slot, fun below => .inl (lower (by simp [stage]) below)⟩
      | devices stage | services stage | state _ stage =>
          exact sl.replace { run with reaper := reaper } row ⟨rfl, rfl⟩ runs rfl
            fun _ _ slot => ⟨slot, fun below => .inl (lower (by simp [stage]) below)⟩
  | _ => exact ⟨sl.starts, sl.slots⟩

end Slotted

structure Served (s : EngineState) : Prop where
  terminal : ∀ (n : Nat) run, s.runs[n]? = some run → run.reaper ≠ .waiting → run.phase = .terminal
  valid : s.projection.Valid
  devices : ∀ (id : DeviceId) m, s.devices.inner[id]? = some m → ∃ n, s.Awaits 1 m.ownerInstance n
  services : ∀ (id : ServiceId) m, s.services.inner[id]? = some m →
    ∃ n, s.Awaits 2 m.ownerInstance n
  fresh : ∀ (slot : SlotKey) e, s.projection.entries[slot]? = some e → e.quality = .fresh →
    ∃ n, s.Awaits 3 e.ownerInstance n

theorem writes_owner {inner : StoreInner} {slot : SlotKey} {instanceId owner : String}
    {fields : List KeyValue} {m : Mutation}
    (made : madeFor instanceId m = true ∨ ∃ nowMs, m = .restartGeneration instanceId nowMs)
    (written : m.writes inner slot = some (owner, fields)) : owner = instanceId := by
  rcases made with made | ⟨nowMs, rfl⟩
  · cases m with
    | applyDelta d o c f obs recv =>
        simp only [Mutation.writes, Option.ite_none_right_eq_some, Option.some.injEq,
          Prod.mk.injEq] at written
        rw [← written.2.1]
        exact of_decide_eq_true made
    | replaceSnapshot d o c f obs recv =>
        simp only [Mutation.writes, Option.ite_none_right_eq_some, Option.some.injEq,
          Prod.mk.injEq] at written
        rw [← written.2.1]
        exact of_decide_eq_true made
    | resetAndSeedDevice d o seeds obs recv =>
        simp only [Mutation.writes, Option.ite_none_right_eq_some] at written
        obtain ⟨f, -, same⟩ := Option.map_eq_some_iff.mp written.2
        cases same
        exact of_decide_eq_true made
    | _ => cases written
  · cases written

namespace Served
variable {s t : EngineState}

theorem quiet (sv : Served s) (runs : t.runs = s.runs) (devices : t.devices = s.devices)
    (services : t.services = s.services) (projection : t.projection = s.projection) : Served t := by
  have awaits : ∀ bound id n, s.Awaits bound id n → t.Awaits bound id n := by
    intro bound id n
    unfold Awaits
    rw [runs]
    exact fun old => old
  constructor
  · rw [runs]
    exact sv.terminal
  · rw [projection]
    exact sv.valid
  · rw [devices]
    exact fun id m found => (sv.devices id m found).imp fun n => awaits _ _ n
  · rw [services]
    exact fun id m found => (sv.services id m found).imp fun n => awaits _ _ n
  · rw [projection]
    exact fun slot e found fresh => (sv.fresh slot e found fresh).imp fun n => awaits _ _ n

theorem spawned (sv : Served s) (k : Nat) (id pluginId : String) (singleton : Bool) :
    Served (s.spawn k id pluginId singleton) where
  terminal := by
    intro n run row busy
    rcases row_concat.mp row with old | ⟨-, rfl⟩
    · exact sv.terminal n run old busy
    · exact absurd rfl busy
  valid := sv.valid
  devices := fun id m found => (sv.devices id m found).imp fun _ old => spawn_awaits.mpr (.inl old)
  services := fun id m found => (sv.services id m found).imp fun _ old => spawn_awaits.mpr (.inl old)
  fresh := fun slot e found fresh =>
    (sv.fresh slot e found fresh).imp fun _ old => spawn_awaits.mpr (.inl old)

theorem supervised (sv : Served s) {n : Nat} {run : InstanceRun} (row : s.runs[n]? = some run)
    (moved : Supervised s n run t) : Served t := by
  have waiting : run.reaper = .waiting := by
    by_contra busy
    exact moved.alive (sv.terminal n run row busy)
  have mine : ∀ bound, 0 < bound → t.Awaits bound run.instanceId n :=
    fun bound positive => (moved.awaits row).mpr ⟨run, row, rfl, by rw [waiting]; exact positive⟩
  have old : ∀ {bound id}, (∃ m, s.Awaits bound id m) → ∃ m, t.Awaits bound id m :=
    fun awaits => awaits.imp fun _ => (moved.awaits row).mpr
  obtain ⟨phase, same⟩ := moved.frame
  constructor
  case terminal =>
    intro m run' found busy
    rw [same] at found
    rcases (row_set row).mp found with ⟨rfl, rfl⟩ | ⟨-, before⟩
    · exact absurd waiting busy
    · exact sv.terminal m run' before busy
  case valid =>
    rcases moved.projection with unchanged | ⟨m, mutated, -⟩
    · exact unchanged ▸ sv.valid
    · exact mutated ▸ StoreInner.mutate_valid sv.valid m
  case devices =>
    intro id m found
    rcases moved.devices id m found with own | before
    · exact ⟨n, own ▸ mine 1 (by decide)⟩
    · exact old (sv.devices id m before)
  case services =>
    intro id m found
    rcases moved.services id m found with own | before
    · exact ⟨n, own ▸ mine 2 (by decide)⟩
    · exact old (sv.services id m before)
  case fresh =>
    intro slot e found fresh
    rcases moved.projection with unchanged | ⟨m, mutated, made⟩
    · rw [unchanged] at found
      exact old (sv.fresh slot e found fresh)
    · rw [mutated] at found
      rcases StoreInner.mutate_fresh sv.valid found fresh with
        ⟨owner, fields, written, as⟩ | ⟨-, before, -⟩
      · refine ⟨n, ?_⟩
        rw [as.owner, writes_owner made written]
        exact mine 3 (by decide)
      · exact old (sv.fresh slot e before fresh)

theorem reaped (sv : Served s) {n : Nat} {run : InstanceRun} (row : s.runs[n]? = some run)
    (moved : Reaped s n run t) : Served t := by
  have terminal : ∀ (m : Nat) run', t.runs[m]? = some run' → run'.reaper ≠ .waiting →
      run'.phase = .terminal := by
    intro m run' found busy
    obtain ⟨reaper, -, runs⟩ := moved.advance
    rw [runs] at found
    rcases (row_set row).mp found with ⟨rfl, rfl⟩ | ⟨-, before⟩
    · by_cases waiting : run.reaper = .waiting
      · cases moved with
        | devices _ terminal => exact terminal
        | services stage | state _ stage | unregister stage | untrack stage =>
            rw [waiting] at stage
            cases stage
      · exact sv.terminal n run row waiting
    · exact sv.terminal m run' before busy
  -- the item that is struck off the list is that of the bound `rank + 1`
  have old : ∀ {bound id}, (∃ m, s.Awaits bound id m) →
      (bound = run.reaper.rank + 1 → id ≠ run.instanceId) → ∃ m, t.Awaits bound id m := by
    rintro bound id ⟨m, awaits⟩ struck
    refine ⟨m, (moved.awaits row).mpr ⟨awaits, ?_⟩⟩
    rintro rfl
    obtain ⟨run', row', named, below⟩ := awaits
    obtain rfl := Option.some.inj (row.symm.trans row')
    have other : bound ≠ run.reaper.rank + 1 := fun last => struck last named.symm
    omega
  cases moved with
  | devices stage =>
      refine ⟨terminal, sv.valid, ?_, ?_, ?_⟩
      · intro id m found
        obtain ⟨before, other⟩ := removeByOwner_found.mp found
        exact old (sv.devices id m before) fun _ => other
      · exact fun id m found => old (sv.services id m found) (by simp [stage, ReaperPhase.rank])
      · exact fun slot e found fresh =>
          old (sv.fresh slot e found fresh) (by simp [stage, ReaperPhase.rank])
  | services stage =>
      refine ⟨terminal, sv.valid, ?_, ?_, ?_⟩
      · exact fun id m found => old (sv.devices id m found) (by simp [stage, ReaperPhase.rank])
      · intro id m found
        simp only [setReaper, ServiceRegistry.removeByOwner_inner] at found
        obtain ⟨before, other⟩ := Option.filter_eq_some_iff.mp found
        exact old (sv.services id m before) fun _ => of_decide_eq_true other
      · exact fun slot e found fresh =>
          old (sv.fresh slot e found fresh) (by simp [stage, ReaperPhase.rank])
  | state nowMs stage =>
      have mutated : s.projection.markInstanceStale run.instanceId nowMs =
        s.projection.mutate (.markInstanceStale run.instanceId nowMs) := rfl
      refine ⟨terminal, ?_, ?_, ?_, ?_⟩
      · exact StoreInner.mutate_valid sv.valid (.markInstanceStale run.instanceId nowMs)
      · exact fun id m found => old (sv.devices id m found) (by simp [stage, ReaperPhase.rank])
      · exact fun id m found => old (sv.services id m found) (by simp [stage, ReaperPhase.rank])
      · intro slot e found fresh
        simp only [setReaper, mutated] at found
        rcases StoreInner.mutate_fresh sv.valid found fresh with
          ⟨_, _, written, -⟩ | ⟨-, before, unswept⟩
        · cases written
        · refine old (sv.fresh slot e before fresh) fun _ own => ?_
          simp [Mutation.sweeps, own, fresh] at unswept
  | unregister stage =>
      refine ⟨terminal, sv.valid, ?_, ?_, ?_⟩
      · exact fun id m found => old (sv.devices id m found) (by simp [stage, ReaperPhase.rank])
      · exact fun id m found => old (sv.services id m found) (by simp [stage, ReaperPhase.rank])
      · exact fun slot e found fresh =>
          old (sv.fresh slot e found fresh) (by simp [stage, ReaperPhase.rank])
  | untrack stage =>
      have frame := untrack_frame s run.instanceId run.gen
      refine ⟨terminal, by rw [frame]; exact sv.valid, ?_, ?_, ?_⟩
      · intro id m found
        rw [frame] at found
        exact old (sv.devices id m found) (by simp [stage, ReaperPhase.rank])
      · intro id m found
        rw [frame] at found
        exact old (sv.services id m found) (by simp [stage, ReaperPhase.rank])
      · intro slot e found fresh
        rw [frame] at found
        exact old (sv.fresh slot e found fresh) (by simp [stage, ReaperPhase.rank])

theorem step (sv : Served s) (moved : EngineMoved s t) : Served t := by
  cases moved with
  | spawned k id pluginId singleton found => exact sv.spawned k id pluginId singleton
  | supervised n run _ row moved => exact sv.supervised row moved
  | reaped n run _ row moved => exact sv.reaped row moved
  | _ => exact sv.quiet rfl rfl rfl rfl

end Served

end OxidHome.Engine

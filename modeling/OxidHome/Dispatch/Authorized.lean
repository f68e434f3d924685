import OxidHome.Dispatch.Lives

/-!
# Which registration a service call reaches

Ids of services are never minted twice, and a guard keeps its service from being removed, so what
was authorized is still there when the message is read, unless a new life has swept it in between.
-/

namespace OxidHome.Dispatch
open Wit Library Services
open Std (TreeMap)

/-! ## The two ways to call -/

theorem callService_eq (services : ServiceRegistry) (instances : String → Option InstanceHandle)
    (call : ServiceCall) :
    callService services instances call.callStack call.callerInstance call.requested call.granted
        call.target call.command =
      (call.authorize services).bind fun (targetInstance, _, _) =>
        match instances targetInstance with
        | none => .error (ownerNotRunning call.target targetInstance)
        | some handle => (acquireCall services call.target).map fun acquired =>
            (handle, call.callStack ++ [⟨call.callerInstance, targetInstance, call.target⟩],
              acquired) := by
  unfold callService ServiceCall.authorize
  cases getOwnerPluginAndLocalId services call.target with
  | none => rfl
  | some found =>
      obtain ⟨targetInstance, targetPluginId, targetLocalId⟩ := found
      simp only
      split_ifs
      · rfl
      · rfl
      · rfl
      · simp only [Except.bind]
        cases instances targetInstance with
        | none => rfl
        | some handle =>
            simp only
            cases acquireCall services call.target with
            | error err => rfl
            | ok acquired => rfl

/-! ## Authorization -/

def Selects (call : ServiceCall) (pluginId instanceId localId : String) : Prop :=
  anyGrantMatches call.requested call.callerInstance pluginId instanceId localId call.command = true ∧
    anyGrantMatches call.granted call.callerInstance pluginId instanceId localId call.command = true

theorem authorize_eq_ok {call : ServiceCall} {services : ServiceRegistry}
    {targetInstance targetPluginId targetLocalId : String}
    (allowed : call.authorize services = .ok (targetInstance, targetPluginId, targetLocalId)) :
    (∃ m, services.inner[call.target]? = some m ∧ m.ownerInstance = targetInstance ∧
      m.ownerPluginId = targetPluginId ∧ m.info.localId = targetLocalId) ∧
      Selects call targetPluginId targetInstance targetLocalId := by
  unfold ServiceCall.authorize at allowed
  split at allowed
  · cases allowed
  · rename_i found
    simp only at allowed
    split_ifs at allowed with own cycle refused
    cases allowed
    obtain ⟨m, live, same⟩ := Option.map_eq_some_iff.mp found
    cases same
    refine ⟨⟨m, live, rfl, rfl, rfl⟩, ?_⟩
    simpa [Selects] using refused

theorem acquireCall_eq_ok {services acquired : ServiceRegistry} {id : ServiceId}
    (taken : acquireCall services id = .ok acquired) :
    (∃ m, services.inner[id]? = some m) ∧ acquired = services.bumpCall id := by
  unfold acquireCall at taken
  split_ifs at taken with live
  refine ⟨?_, (Except.ok.inj taken).symm⟩
  rw [TreeMap.mem_iff_isSome_getElem?, Option.isSome_iff_exists] at live
  exact live

/-- The reaper has removed what the instance had registered. -/
def Instance.swept (inst : Instance) : Bool :=
  match inst.phase with
  | .reaped => true
  | _ => false

def CallStage.control? : CallStage → Option Nat
  | .routed _ _ handle => some handle.control
  | .sending handle => some handle.control
  | _ => none

def LifeCommand.guards (service : ServiceId) (command : LifeCommand) : Nat :=
  if command.target? = some service then 1 else 0

def LifePhase.guards (service : ServiceId) : LifePhase → Nat
  | .running (.service call) => if call.target = service then 1 else 0
  | _ => 0

def Instance.guards (service : ServiceId) (inst : Instance) : Nat :=
  (inst.mailbox.map (LifeCommand.guards service)).sum + inst.phase.guards service

def CallFuture.guards (service : ServiceId) (future : CallFuture) : Nat :=
  match future.stage with
  | .sending _ => if future.call.target = service then 1 else 0
  | _ => 0

theorem count_targets (mailbox : List LifeCommand) (service : ServiceId) :
    (mailbox.filterMap LifeCommand.target?).count service =
      (mailbox.map (LifeCommand.guards service)).sum := by
  induction mailbox with
  | nil => rfl
  | cons command rest ih =>
      rw [List.map_cons, List.sum_cons, ← ih]
      cases command with
      | execute => simp [List.filterMap_cons, LifeCommand.target?, LifeCommand.guards]
      | shutdown => simp [List.filterMap_cons, LifeCommand.target?, LifeCommand.guards]
      | executeService call =>
          simp only [List.filterMap_cons, LifeCommand.target?, LifeCommand.guards,
            List.count_cons, Option.some.injEq, beq_iff_eq]
          omega

theorem guards_queued {mailbox : List LifeCommand} {call : ServiceCall}
    (queued : .executeService call ∈ mailbox) :
    0 < (mailbox.map (LifeCommand.guards call.target)).sum := by
  apply Nat.lt_of_lt_of_le Nat.zero_lt_one
  apply List.single_le_sum (fun n _ => Nat.zero_le n)
  exact List.mem_map.mpr ⟨_, queued, if_pos rfl⟩

theorem LifeCommand.guards_task (command : LifeCommand) (service : ServiceId) :
    (LifePhase.running command.task).guards service = command.guards service := by
  cases command with
  | execute => rfl
  | shutdown => rfl
  | executeService call => simp [LifeCommand.task, LifePhase.guards, LifeCommand.guards,
      LifeCommand.target?]

namespace Lives

def Authorized (s : Lives) (id : String) (inst : Instance) (call : ServiceCall) : Prop :=
  ∃ m, s.services.inner[call.target]? = some m ∧ m.ownerInstance = id ∧
    s.bornIn[call.target]? = some inst.life ∧ Selects call m.ownerPluginId id m.info.localId

/-- A message for `inst` is unread, or waits for room in its mailbox. -/
def InFlight (s : Lives) (id : String) (inst : Instance) (call : ServiceCall) : Prop :=
  .executeService call ∈ inst.mailbox ∨
    ∃ (n : Nat) (handle : InstanceHandle),
      s.calls[n]? = some ⟨call, .sending handle⟩ ∧ handle = ⟨id, inst.control⟩

/-- A new life begins over messages that were meant for the last one. -/
def SweepsInFlight (s : Lives) (action : LifeAction) : Prop :=
  ∃ id inst call, action = .sweep id ∧ s.instances[id]? = some inst ∧ s.InFlight id inst call

/-! ## Invariants -/

structure Resolved (inner : TreeMap ServiceId ServiceMeta) (bornIn : TreeMap ServiceId Nat)
    (call : ServiceCall) (targetInstance targetPluginId targetLocalId : String) : Prop where
  selects : Selects call targetPluginId targetInstance targetLocalId
  minted : call.target ∈ bornIn
  same : ∀ m, inner[call.target]? = some m → m.ownerInstance = targetInstance ∧
    m.ownerPluginId = targetPluginId ∧ m.info.localId = targetLocalId

def Knows (inner : TreeMap ServiceId ServiceMeta) (bornIn : TreeMap ServiceId Nat)
    (future : CallFuture) : Prop :=
  match future.stage with
  | .begun => True
  | .authorized targetInstance targetPluginId targetLocalId =>
      Resolved inner bornIn future.call targetInstance targetPluginId targetLocalId
  | .routed targetPluginId targetLocalId handle =>
      Resolved inner bornIn future.call handle.instanceId targetPluginId targetLocalId
  | .sending _ => True

structure Core (s : Lives) : Prop where
  minted : ∀ service : ServiceId, service ∈ s.bornIn →
    ∃ k < s.services.nextId, service = ServiceRegistry.mintId k
  owners : ∀ (service : ServiceId) (m : ServiceMeta), s.services.inner[service]? = some m →
    ∃ inst, s.instances[m.ownerInstance]? = some inst ∧ inst.swept = false ∧
      s.bornIn[service]? = some inst.life
  knows : ∀ (n : Nat) (future : CallFuture), s.calls[n]? = some future →
    Knows s.services.inner s.bornIn future
  controls : ∀ (id : String) (inst : Instance), s.instances[id]? = some inst →
    inst.control < s.nextControl
  handles : ∀ (n : Nat) (future : CallFuture), s.calls[n]? = some future →
    ∀ control ∈ CallStage.control? future.stage, control < s.nextControl
  inFlight : ∀ (id : String) (inst : Instance) (call : ServiceCall),
    s.instances[id]? = some inst → inst.listening = true → s.InFlight id inst call →
    s.Authorized id inst call

variable {s s' : Lives} {id : String} {inst : Instance}

theorem Core.instances_set (core : Core s) (here : s.instances[id]? = some inst)
    {after : Instance} (control : after.control = inst.control) (life : after.life = inst.life)
    (swept : after.swept = false) (listening : after.listening = true → inst.listening = true)
    (mail : ∀ call, .executeService call ∈ after.mailbox →
      .executeService call ∈ inst.mailbox ∨ s.Authorized id inst call) : Core (s.set id after) := by
  have found_or : ∀ {x : String} {other : Instance}, (s.set id after).instances[x]? = some other →
      (x = id ∧ other = after) ∨ (x ≠ id ∧ s.instances[x]? = some other) := by
    intro x other found
    rw [set, getElem?_insert_eq] at found
    split_ifs at found with same
    · exact Or.inl ⟨same.symm, (Option.some.inj found).symm⟩
    · exact Or.inr ⟨Ne.symm same, found⟩
  refine ⟨core.minted, ?_, core.knows, ?_, core.handles, ?_⟩
  · intro service m live
    obtain ⟨owner, found, unswept, born⟩ := core.owners service m live
    rw [set, getElem?_insert_eq]
    split_ifs with same
    · rw [← same] at found
      obtain rfl := Option.some.inj (here.symm.trans found)
      exact ⟨after, rfl, swept, by rw [life]; exact born⟩
    · exact ⟨owner, found, unswept, born⟩
  · intro x other found
    rcases found_or found with ⟨rfl, rfl⟩ | ⟨_, found⟩
    · rw [control]
      exact core.controls x inst here
    · exact core.controls x other found
  · intro x other call found hears flying
    rcases found_or found with ⟨rfl, rfl⟩ | ⟨_, found⟩
    · have before : s.Authorized x inst call := by
        rcases flying with queued | ⟨n, handle, calling, same⟩
        · rcases mail call queued with queued | authorized
          · exact core.inFlight x inst call here (listening hears) (Or.inl queued)
          · exact authorized
        · rw [control] at same
          exact core.inFlight x inst call here (listening hears) (Or.inr ⟨n, handle, calling, same⟩)
      rw [Authorized, life]
      exact before
    · exact core.inFlight x other call found hears flying

theorem Core.counts (core : Core s) {services : ServiceRegistry}
    (inner : services.inner = s.services.inner) (nextId : services.nextId = s.services.nextId)
    (dying : List ServiceId) : Core { s with services := services, dying := dying } := by
  refine ⟨?_, ?_, ?_, core.controls, core.handles, ?_⟩
  · show ∀ service ∈ s.bornIn, ∃ k < services.nextId, _
    rw [nextId]
    exact core.minted
  · show ∀ service m, services.inner[service]? = some m → _
    rw [inner]
    exact core.owners
  · show ∀ n future, s.calls[n]? = some future → Knows services.inner _ future
    rw [inner]
    exact core.knows
  · intro x other call found hears flying
    rw [Authorized]
    show ∃ m, services.inner[call.target]? = some m ∧ _
    rw [inner]
    exact core.inFlight x other call found hears flying

theorem Core.release (core : Core s) (service : ServiceId) : Core (s.release service) :=
  core.counts (ServiceRegistry.releaseCall_inner service)
    (ServiceRegistry.releaseCall_nextId service) s.dying

theorem Core.exit (core : Core s) (here : s.instances[id]? = some inst) : Core (s.exit id inst) := by
  have gone : Core (s.set id { inst with mailbox := [], phase := .exited }) := by
    refine core.instances_set here rfl rfl rfl ?_ ?_
    · intro hears
      cases hears
    · intro call queued
      cases queued
  exact gone.counts rfl rfl _

theorem Core.moves (core : Core s) (here : s.instances[id]? = some inst)
    (listening : inst.listening = true) {phase : LifePhase}
    (unswept : ∀ inst : Instance, Instance.swept { inst with phase := phase } = false) :
    Core (s.set id { inst with phase := phase }) :=
  core.instances_set here rfl rfl (unswept inst) (fun _ => listening) fun _ queued => Or.inl queued

theorem Core.after (core : Core s) (here : s.instances[id]? = some inst)
    (listening : inst.listening = true) (next : AfterTask) : Core (s.after id inst next) := by
  cases next with
  | goesOn => exact core.moves here listening fun _ => rfl
  | backsOff => exact core.moves here listening fun _ => rfl
  | exits => exact core.exit here

theorem Core.post (core : Core s) (here : s.instances[id]? = some inst) {command : LifeCommand}
    (sent : s.post id inst command = some s')
    (authorized : ∀ call, command = .executeService call → s.Authorized id inst call) : Core s' := by
  unfold Lives.post at sent
  split_ifs at sent with room
  obtain rfl := Option.some.inj sent
  simp only [Bool.and_eq_true] at room
  refine core.instances_set here rfl rfl ?_ (fun _ => room.1) ?_
  · have hears := room.1
    unfold Instance.listening at hears
    unfold Instance.swept
    cases phase : inst.phase <;> simp_all
  · intro call queued
    rcases List.mem_append.mp queued with queued | last
    · exact Or.inl queued
    · exact Or.inr (authorized call (List.mem_singleton.mp last).symm)

/-! ## Changes of the registry -/

def Narrowed (before after : TreeMap ServiceId ServiceMeta) : Prop :=
  ∀ (service : ServiceId) (m : ServiceMeta), after[service]? = some m →
    ∃ old, before[service]? = some old ∧ m.ownerInstance = old.ownerInstance ∧
      m.ownerPluginId = old.ownerPluginId ∧ m.info.localId = old.info.localId

theorem Resolved.narrowed {before after : TreeMap ServiceId ServiceMeta}
    {bornIn : TreeMap ServiceId Nat} {call : ServiceCall}
    {targetInstance targetPluginId targetLocalId : String}
    (resolved : Resolved before bornIn call targetInstance targetPluginId targetLocalId)
    (narrowed : Narrowed before after) :
    Resolved after bornIn call targetInstance targetPluginId targetLocalId := by
  refine ⟨resolved.selects, resolved.minted, ?_⟩
  intro m found
  obtain ⟨old, live, owner, plugin, localId⟩ := narrowed call.target m found
  rw [owner, plugin, localId]
  exact resolved.same old live

theorem Knows.narrowed {before after : TreeMap ServiceId ServiceMeta}
    {bornIn : TreeMap ServiceId Nat} {future : CallFuture} (knows : Knows before bornIn future)
    (narrowed : Narrowed before after) : Knows after bornIn future := by
  unfold Knows at knows ⊢
  cases stage : future.stage with
  | begun => trivial
  | authorized targetInstance targetPluginId targetLocalId =>
      rw [stage] at knows
      exact Resolved.narrowed knows narrowed
  | routed targetPluginId targetLocalId handle =>
      rw [stage] at knows
      exact Resolved.narrowed knows narrowed
  | sending handle => trivial

theorem Core.narrowed (core : Core s) {services : ServiceRegistry}
    (nextId : services.nextId = s.services.nextId)
    (narrowed : Narrowed s.services.inner services.inner)
    (kept : ∀ (id : String) (inst : Instance) (call : ServiceCall),
      s.instances[id]? = some inst → inst.listening = true → s.InFlight id inst call →
      call.target ∈ services.inner) : Core { s with services := services } := by
  refine ⟨?_, ?_, ?_, core.controls, core.handles, ?_⟩
  · show ∀ service ∈ s.bornIn, ∃ k < services.nextId, _
    rw [nextId]
    exact core.minted
  · intro service m found
    obtain ⟨old, live, owner, _⟩ := narrowed service m found
    rw [owner]
    exact core.owners service old live
  · exact fun n future calling => (core.knows n future calling).narrowed narrowed
  · intro x other call found hears flying
    obtain ⟨m, still⟩ := Option.isSome_iff_exists.mp
      (TreeMap.mem_iff_isSome_getElem?.mp (kept x other call found hears flying))
    obtain ⟨old, live, owner, plugin, localId⟩ := narrowed call.target m still
    obtain ⟨m', live', owned, born, selects⟩ := core.inFlight x other call found hears flying
    obtain rfl := Option.some.inj (live.symm.trans live')
    exact ⟨m, still, owner.trans owned, born, by rw [plugin, localId]; exact selects⟩

theorem Core.fresh (core : Core s) : ServiceRegistry.mintId s.services.nextId ∉ s.bornIn := by
  intro old
  obtain ⟨k, below, same⟩ := core.minted _ old
  exact below.ne' (mintId_injective same)

theorem Core.registered (core : Core s) (here : s.instances[id]? = some inst)
    (unswept : inst.swept = false) {info : ServiceInfo} {service : ServiceId}
    {services : ServiceRegistry}
    (registered : s.services.register id inst.pluginId info = .ok (service, services)) :
    Core { s with services := services, bornIn := s.bornIn.insert service inst.life } := by
  obtain ⟨_, rfl, rfl⟩ := ServiceRegistry.register_eq_ok.mp registered
  have absent := core.fresh
  have kept : ∀ {x : ServiceId} {life : Nat}, s.bornIn[x]? = some life →
      (s.bornIn.insert (ServiceRegistry.mintId s.services.nextId) inst.life)[x]? = some life := by
    intro x life born
    rw [getElem?_insert_ne, born]
    rintro rfl
    apply absent
    rw [TreeMap.mem_iff_isSome_getElem?, born]
    rfl
  have older : ∀ {x : ServiceId} {m : ServiceMeta}, x ∈ s.bornIn →
      (s.services.inner.insert (ServiceRegistry.mintId s.services.nextId)
        ⟨ServiceRegistry.mintId s.services.nextId, id, inst.pluginId, info⟩)[x]? = some m →
      s.services.inner[x]? = some m := by
    intro x m minted found
    rw [getElem?_insert_ne] at found
    · exact found
    · rintro rfl
      exact absent minted
  have resolved : ∀ {call : ServiceCall} {a b c : String},
      Resolved s.services.inner s.bornIn call a b c → Resolved
        (s.services.inner.insert (ServiceRegistry.mintId s.services.nextId)
          ⟨ServiceRegistry.mintId s.services.nextId, id, inst.pluginId, info⟩)
        (s.bornIn.insert (ServiceRegistry.mintId s.services.nextId) inst.life) call a b c := by
    intro call a b c told
    refine ⟨told.selects, TreeMap.mem_insert.mpr (Or.inr told.minted), ?_⟩
    exact fun m found => told.same m (older told.minted found)
  refine ⟨?_, ?_, ?_, core.controls, core.handles, ?_⟩
  · intro x born
    rcases TreeMap.mem_insert.mp born with same | old
    · exact ⟨_, Nat.lt_succ_self _, (Std.LawfulEqCmp.eq_of_compare same).symm⟩
    · obtain ⟨k, below, same⟩ := core.minted x old
      exact ⟨k, Nat.lt_succ_of_lt below, same⟩
  · intro x m found
    dsimp only at found
    rw [getElem?_insert_eq] at found
    split_ifs at found with same
    · cases found
      exact ⟨inst, here, unswept, by rw [← same]; exact getElem?_insert_self _ _ _⟩
    · obtain ⟨owner, running, unswept, born⟩ := core.owners x m found
      exact ⟨owner, running, unswept, kept born⟩
  · intro n future calling
    have told := core.knows n future calling
    unfold Knows at told ⊢
    cases stage : future.stage with
    | begun => trivial
    | authorized targetInstance targetPluginId targetLocalId =>
        rw [stage] at told
        exact resolved told
    | routed targetPluginId targetLocalId handle =>
        rw [stage] at told
        exact resolved told
    | sending handle => trivial
  · intro x other call found hears flying
    obtain ⟨m, live, owned, born, selects⟩ := core.inFlight x other call found hears flying
    refine ⟨m, ?_, owned, kept born, selects⟩
    show (s.services.inner.insert _ _)[call.target]? = some m
    rw [getElem?_insert_ne, live]
    intro same
    apply absent
    rw [same, TreeMap.mem_iff_isSome_getElem?, born]
    rfl

/-! ## Instances and calls that come and go -/

theorem Core.instance (core : Core s) (after : Instance)
    (unowned : ∀ (service : ServiceId) (m : ServiceMeta),
      s.services.inner[service]? = some m → m.ownerInstance ≠ id) {nextControl : Nat} (grows : s.nextControl ≤ nextControl)
    (control : after.control < nextControl)
    (quiet : after.listening = true → ∀ call, ¬ s.InFlight id after call) :
    Core { s.set id after with nextControl := nextControl } := by
  refine ⟨core.minted, ?_, core.knows, ?_, ?_, ?_⟩
  · intro service m live
    obtain ⟨owner, found, unswept, born⟩ := core.owners service m live
    refine ⟨owner, ?_, unswept, born⟩
    show (s.instances.insert id after)[m.ownerInstance]? = some owner
    rw [getElem?_insert_ne _ _ (Ne.symm (unowned service m live))]
    exact found
  · intro x other found
    dsimp only [set] at found
    rw [getElem?_insert_eq] at found
    split_ifs at found with same
    · cases found
      exact control
    · exact lt_of_lt_of_le (core.controls x other found) grows
  · intro n future calling c mem
    exact lt_of_lt_of_le (core.handles n future calling c mem) grows
  · intro x other call found hears flying
    dsimp only [set] at found
    rw [getElem?_insert_eq] at found
    split_ifs at found with same
    · cases found
      subst same
      exact absurd flying (quiet hears call)
    · exact core.inFlight x other call found hears flying

theorem Core.unregistered (core : Core s) (here : s.instances[id]? = some inst)
    (swept : inst.swept = true) : Core { s with instances := s.instances.erase id } := by
  have still : ∀ {x : String} {other : Instance}, (s.instances.erase id)[x]? = some other →
      s.instances[x]? = some other := by
    intro x other found
    rw [getElem?_erase_eq] at found
    split_ifs at found
    exact found
  refine ⟨core.minted, ?_, core.knows, ?_, core.handles, ?_⟩
  · intro service m live
    obtain ⟨owner, found, unswept, born⟩ := core.owners service m live
    refine ⟨owner, ?_, unswept, born⟩
    show (s.instances.erase id)[m.ownerInstance]? = some owner
    rw [getElem?_erase_eq, if_neg]
    · exact found
    · rintro rfl
      obtain rfl := Option.some.inj (here.symm.trans found)
      rw [swept] at unswept
      cases unswept
  · exact fun x other found => core.controls x other (still found)
  · exact fun x other call found => core.inFlight x other call (still found)

theorem Core.hangUp (core : Core s) (n : Nat) : Core (s.hangUp n) := by
  have still : ∀ {k : Nat} {future : CallFuture}, (s.calls.erase n)[k]? = some future →
      s.calls[k]? = some future := by
    intro k future found
    rw [getElem?_erase_eq] at found
    split_ifs at found
    exact found
  refine ⟨core.minted, core.owners, ?_, core.controls, ?_, ?_⟩
  · exact fun k future found => core.knows k future (still found)
  · exact fun k future found => core.handles k future (still found)
  · intro x other call found hears flying
    apply core.inFlight x other call found hears
    rcases flying with queued | ⟨k, handle, calling, same⟩
    · exact Or.inl queued
    · exact Or.inr ⟨k, handle, still calling, same⟩

theorem Core.advance (core : Core s) (n : Nat) {call : ServiceCall} {stage : CallStage}
    (knows : Knows s.services.inner s.bornIn ⟨call, stage⟩)
    (control : ∀ c ∈ stage.control?, c < s.nextControl)
    (sends : ∀ handle inst, stage = .sending handle →
      s.instances[handle.instanceId]? = some inst → s.Authorized handle.instanceId inst call) :
    Core (s.advance n call stage) := by
  have found_or : ∀ {k : Nat} {future : CallFuture},
      (s.calls.insert n ⟨call, stage⟩)[k]? = some future →
      future = ⟨call, stage⟩ ∨ s.calls[k]? = some future := by
    intro k future found
    rw [getElem?_insert_eq] at found
    split_ifs at found with same
    · exact Or.inl (Option.some.inj found).symm
    · exact Or.inr found
  refine ⟨core.minted, core.owners, ?_, core.controls, ?_, ?_⟩
  · intro k future found
    rcases found_or found with rfl | found
    · exact knows
    · exact core.knows k future found
  · intro k future found
    rcases found_or found with rfl | found
    · exact control
    · exact core.handles k future found
  · intro x other called found hears flying
    rcases flying with queued | ⟨k, handle, calling, same⟩
    · exact core.inFlight x other called found hears (Or.inl queued)
    · rcases found_or calling with new | old
      · cases new
        subst same
        exact sends ⟨x, other.control⟩ other rfl found
      · exact core.inFlight x other called found hears (Or.inr ⟨k, handle, old, same⟩)

/-! ## Counting guards -/

def guards (s : Lives) (service : ServiceId) : Nat :=
  weight (fun _ inst => Instance.guards service inst) s.instances +
    weight (fun _ future => CallFuture.guards service future) s.calls + s.dying.count service

structure Counted (s : Lives) : Prop where
  minted : ∀ service : ServiceId, 0 < s.guards service → service ∈ s.bornIn
  active : ∀ service : ServiceId, service ∈ s.services.inner →
    s.guards service ≤ s.services.activeCallCount service

theorem guards_set (here : s.instances[id]? = some inst) (after : Instance)
    (service : ServiceId) :
    (s.set id after).guards service + inst.guards service =
      s.guards service + after.guards service := by
  have moved := weight_insert (fun _ inst => Instance.guards service inst) s.instances id after
  rw [here, Option.elim_some] at moved
  simp only [guards, set]
  omega

theorem guards_advance {n : Nat} {future : CallFuture} (calling : s.calls[n]? = some future)
    (call : ServiceCall) (stage : CallStage) (service : ServiceId) :
    (s.advance n call stage).guards service + future.guards service =
      s.guards service + CallFuture.guards service ⟨call, stage⟩ := by
  have moved := weight_insert (fun _ future => CallFuture.guards service future) s.calls n
    ⟨call, stage⟩
  rw [calling, Option.elim_some] at moved
  simp only [guards, advance]
  omega

theorem guards_hangUp {n : Nat} {future : CallFuture} (calling : s.calls[n]? = some future)
    (service : ServiceId) :
    (s.hangUp n).guards service + future.guards service = s.guards service := by
  have moved := weight_erase (fun _ future => CallFuture.guards service future) s.calls n
  rw [calling, Option.elim_some] at moved
  simp only [guards, hangUp]
  omega

theorem guards_exit (here : s.instances[id]? = some inst) (service : ServiceId) :
    (s.exit id inst).guards service + inst.phase.guards service = s.guards service := by
  have emptied := guards_set here { inst with mailbox := [], phase := .exited } service
  have dying : (s.exit id inst).guards service =
      (s.set id { inst with mailbox := [], phase := .exited }).guards service +
        (inst.mailbox.map (LifeCommand.guards service)).sum := by
    simp only [guards, exit, set, List.count_append, count_targets]
    omega
  have idle : LifePhase.guards service .exited = 0 := rfl
  simp only [Instance.guards, List.map_nil, List.sum_nil, idle] at emptied
  omega

theorem guards_after (here : s.instances[id]? = some inst) (next : AfterTask)
    (service : ServiceId) :
    (s.after id inst next).guards service + inst.phase.guards service = s.guards service := by
  cases next with
  | goesOn =>
      have moved := guards_set here { inst with phase := .idle } service
      have idle : LifePhase.guards service .idle = 0 := rfl
      simp only [Instance.guards, idle] at moved
      show (s.set id { inst with phase := .idle }).guards service + _ = _
      omega
  | backsOff =>
      have moved := guards_set here { inst with phase := .backoff } service
      have idle : LifePhase.guards service .backoff = 0 := rfl
      simp only [Instance.guards, idle] at moved
      show (s.set id { inst with phase := .backoff }).guards service + _ = _
      omega
  | exits => exact guards_exit here service

theorem guards_post (here : s.instances[id]? = some inst) {command : LifeCommand}
    (sent : s.post id inst command = some s') (service : ServiceId) :
    s'.guards service = s.guards service + command.guards service := by
  unfold Lives.post at sent
  split_ifs at sent
  obtain rfl := Option.some.inj sent
  have moved := guards_set here { inst with mailbox := inst.mailbox ++ [command] } service
  simp only [Instance.guards, List.map_append, List.sum_append, List.map_cons, List.map_nil,
    List.sum_cons, List.sum_nil] at moved
  omega

theorem guards_inFlight (here : s.instances[id]? = some inst) {call : ServiceCall}
    (flying : s.InFlight id inst call) : 0 < s.guards call.target := by
  rcases flying with queued | ⟨n, handle, calling, _⟩
  · have held := le_weight (fun _ inst => Instance.guards call.target inst) here
    have one := guards_queued queued
    simp only [Instance.guards] at held
    simp only [guards, Instance.guards]
    omega
  · have held := le_weight (fun _ future => CallFuture.guards call.target future) calling
    simp only [CallFuture.guards, if_pos] at held
    simp only [guards, CallFuture.guards]
    omega

theorem Counted.fewer (counted : Counted s)
    (guards : ∀ service, s'.guards service ≤ s.guards service)
    (born : ∀ service, service ∈ s.bornIn → service ∈ s'.bornIn)
    (active : ∀ service, service ∈ s'.services.inner → 0 < s'.guards service →
      service ∈ s.services.inner ∧
        s.services.activeCallCount service ≤ s'.services.activeCallCount service) :
    Counted s' := by
  refine ⟨?_, ?_⟩
  · intro service some
    exact born service (counted.minted service (Nat.lt_of_lt_of_le some (guards service)))
  · intro service live
    rcases Nat.eq_zero_or_pos (s'.guards service) with none | some
    · rw [none]
      exact Nat.zero_le _
    · obtain ⟨live, count⟩ := active service live some
      exact (guards service).trans ((counted.active service live).trans count)

theorem Counted.same (counted : Counted s) (guards : ∀ service, s'.guards service ≤ s.guards service)
    (born : s'.bornIn = s.bornIn) (services : s'.services = s.services) : Counted s' := by
  apply counted.fewer guards
  · intro service minted
    rw [born]
    exact minted
  · intro service live _
    rw [services] at live ⊢
    exact ⟨live, le_refl _⟩

theorem Counted.released (counted : Counted s) {service : ServiceId}
    (guards : ∀ x, s'.guards x + (if service = x then 1 else 0) ≤ s.guards x)
    (born : s'.bornIn = s.bornIn) (services : s'.services = s.services) :
    Counted (s'.release service) := by
  refine ⟨?_, ?_⟩
  · intro x some
    show x ∈ s'.bornIn
    rw [born]
    have fewer := guards x
    have some : 0 < s'.guards x := some
    exact counted.minted x (by omega)
  · intro x live
    have live : x ∈ (s'.services.releaseCall service).inner := live
    rw [ServiceRegistry.releaseCall_inner, services] at live
    show s'.guards x ≤ (s'.services.releaseCall service).activeCallCount x
    rw [ServiceRegistry.releaseCall_count, services]
    have fewer := guards x
    have before := counted.active x live
    omega

theorem removeByOwner_kept {services : ServiceRegistry} {service : ServiceId} {m : ServiceMeta} :
    (services.removeByOwner id).2.inner[service]? = some m ↔
      services.inner[service]? = some m ∧ m.ownerInstance ≠ id := by
  rw [ServiceRegistry.removeByOwner_inner, Option.filter_eq_some_iff]
  simp

theorem Core.swept (core : Core s)
    (spared : ∀ (inst : Instance) (call : ServiceCall), s.instances[id]? = some inst →
      inst.listening = true → ¬ s.InFlight id inst call) :
    Core { s with services := (s.services.removeByOwner id).2 } := by
  have next : (s.services.removeByOwner id).2.nextId = s.services.nextId := rfl
  apply core.narrowed next
  · intro service m found
    exact ⟨m, (removeByOwner_kept.mp found).1, rfl, rfl, rfl⟩
  · intro x other call found hears flying
    obtain ⟨m, live, owned, _⟩ := core.inFlight x other call found hears flying
    rw [TreeMap.mem_iff_isSome_getElem?, Option.isSome_iff_exists]
    refine ⟨m, removeByOwner_kept.mpr ⟨live, ?_⟩⟩
    rw [owned]
    rintro rfl
    exact spared other call found hears flying

theorem Counted.swept (counted : Counted s) :
    Counted { s with services := (s.services.removeByOwner id).2 } := by
  refine counted.fewer (fun _ => le_refl _) (fun _ minted => minted) ?_
  intro service live _
  obtain ⟨m, found⟩ := Option.isSome_iff_exists.mp (TreeMap.mem_iff_isSome_getElem?.mp live)
  obtain ⟨before, other⟩ := removeByOwner_kept.mp found
  constructor
  · rw [TreeMap.mem_iff_isSome_getElem?, before]
    rfl
  · show _ ≤ ((s.services.removeByOwner id).2.activeCalls[service]?).getD 0
    rw [ServiceRegistry.removeByOwner_activeCalls, if_neg]
    · exact le_refl _
    · rw [before]
      simpa using other

/-! ## Steps -/

structure Sound (s : Lives) : Prop where
  core : Core s
  counted : Counted s

theorem Core.ticks (core : Core s) (nextLife nextCall : Nat) :
    Core { s with nextLife := nextLife, nextCall := nextCall } :=
  ⟨core.minted, core.owners, core.knows, core.controls, core.handles, core.inFlight⟩

theorem sound_new : Sound new := by
  constructor
  · constructor <;> simp [new, ServiceRegistry.new]
  · constructor
    · intro service some
      cases some
    · intro service live
      simp [new, ServiceRegistry.new] at live

theorem Sound.sweep (sound : Sound s) (here : s.instances[id]? = some inst)
    (starting : inst.phase = .starting) (clear : ∀ call, ¬ s.InFlight id inst call) :
    Sound { s.set id { inst with life := s.nextLife, phase := .loading } with
      services := (s.services.removeByOwner id).2, nextLife := s.nextLife + 1 } := by
  have core : Core { s with services := (s.services.removeByOwner id).2 } := by
    apply sound.core.swept
    intro other call found _
    obtain rfl := Option.some.inj (here.symm.trans found)
    exact clear call
  constructor
  · refine (core.instance { inst with life := s.nextLife, phase := .loading } ?_ (le_refl _)
      (core.controls id inst here) ?_).ticks _ _
    · exact fun service m found => (removeByOwner_kept.mp found).2
    · exact fun _ call flying => clear call flying
  · have kept : Counted { s with services := (s.services.removeByOwner id).2 } := sound.counted.swept
    refine kept.same ?_ rfl rfl
    intro service
    have moved := guards_set here { inst with life := s.nextLife, phase := .loading } service
    have before : inst.phase.guards service = 0 := by rw [starting]; rfl
    have after : LifePhase.guards service .loading = 0 := rfl
    simp only [Instance.guards, before, after] at moved
    show (s.set id { inst with life := s.nextLife, phase := .loading }).guards service ≤
      s.guards service
    omega

theorem Sound.reap (sound : Sound s) (here : s.instances[id]? = some inst)
    (exited : inst.phase = .exited) :
    Sound { s.set id { inst with phase := .reaped } with
      services := (s.services.removeByOwner id).2 } := by
  have core : Core { s with services := (s.services.removeByOwner id).2 } := by
    apply sound.core.swept
    intro other call found hears
    obtain rfl := Option.some.inj (here.symm.trans found)
    rw [Instance.listening, exited] at hears
    cases hears
  constructor
  · refine core.instance { inst with phase := .reaped } ?_ (le_refl _)
      (core.controls id inst here) ?_
    · exact fun service m found => (removeByOwner_kept.mp found).2
    · intro hears
      cases hears
  · have kept : Counted { s with services := (s.services.removeByOwner id).2 } := sound.counted.swept
    refine kept.same ?_ rfl rfl
    intro service
    have moved := guards_set here { inst with phase := .reaped } service
    have after : LifePhase.guards service .reaped = 0 := rfl
    simp only [Instance.guards, after] at moved
    show (s.set id { inst with phase := .reaped }).guards service ≤ s.guards service
    omega

theorem Sound.register (sound : Sound s) (here : s.instances[id]? = some inst)
    (unswept : inst.swept = false) {info : ServiceInfo} {service : ServiceId}
    {services : ServiceRegistry}
    (registered : s.services.register id inst.pluginId info = .ok (service, services)) :
    Sound { s with services := services, bornIn := s.bornIn.insert service inst.life } := by
  refine ⟨sound.core.registered here unswept registered, ?_⟩
  obtain ⟨_, rfl, rfl⟩ := ServiceRegistry.register_eq_ok.mp registered
  refine sound.counted.fewer (fun _ => le_refl _) ?_ ?_
  · exact fun x minted => TreeMap.mem_insert.mpr (Or.inr minted)
  · intro x live some
    refine ⟨?_, le_refl _⟩
    rcases TreeMap.mem_insert.mp live with same | old
    · obtain rfl := Std.LawfulEqCmp.eq_of_compare same
      exact absurd (sound.counted.minted _ some) sound.core.fresh
    · exact old

theorem Sound.updated (sound : Sound s) {owner : String} {service : ServiceId}
    {info : ServiceInfo} {services : ServiceRegistry}
    (updated : s.services.update owner service info = .ok services) :
    Sound { s with services := services } := by
  obtain ⟨m, found, _, same, rfl⟩ := ServiceRegistry.update_eq_ok.mp updated
  have there : ∀ x : ServiceId,
      x ∈ s.services.inner.insert service { m with info := info } ↔ x ∈ s.services.inner := by
    intro x
    rw [TreeMap.mem_insert]
    refine ⟨fun live => live.elim (fun here => ?_) id, Or.inr⟩
    obtain rfl := Std.LawfulEqCmp.eq_of_compare here
    rw [TreeMap.mem_iff_isSome_getElem?, found]
    rfl
  constructor
  · refine sound.core.narrowed ?_ ?_ ?_
    · rfl
    · intro x m' now
      dsimp only at now
      rw [getElem?_insert_eq] at now
      split_ifs at now with here
      · cases now
        exact ⟨m, here ▸ found, rfl, rfl, same.symm⟩
      · exact ⟨m', now, rfl, rfl, rfl⟩
    · intro x other call running hears flying
      obtain ⟨old, live, _⟩ := sound.core.inFlight x other call running hears flying
      apply (there call.target).mpr
      rw [TreeMap.mem_iff_isSome_getElem?, live]
      rfl
  · refine sound.counted.fewer (fun _ => le_refl _) (fun _ minted => minted) ?_
    exact fun x live _ => ⟨(there x).mp live, le_refl _⟩

theorem Sound.removed (sound : Sound s) {owner : String} {service : ServiceId}
    {services : ServiceRegistry} (removed : s.services.remove owner service = .ok services) :
    Sound { s with services := services } := by
  obtain ⟨m, found, _, none_active, rfl⟩ := ServiceRegistry.remove_eq_ok.mp removed
  have still : ∀ {x : ServiceId} {m' : ServiceMeta},
      (s.services.inner.erase service)[x]? = some m' →
      service ≠ x ∧ s.services.inner[x]? = some m' := by
    intro x m' now
    rw [getElem?_erase_eq] at now
    split_ifs at now with here
    exact ⟨here, now⟩
  constructor
  · refine sound.core.narrowed ?_ ?_ ?_
    · rfl
    · exact fun x m' now => ⟨m', (still now).2, rfl, rfl, rfl⟩
    · intro x other call running hears flying
      obtain ⟨old, live, _⟩ := sound.core.inFlight x other call running hears flying
      have held := guards_inFlight running flying
      show call.target ∈ s.services.inner.erase service
      rw [TreeMap.mem_iff_isSome_getElem?, getElem?_erase_eq, if_neg, live]
      · rfl
      · rintro rfl
        have bound := sound.counted.active call.target
          (TreeMap.mem_iff_isSome_getElem?.mpr (by rw [live]; rfl))
        omega
  · refine sound.counted.fewer (fun _ => le_refl _) (fun _ minted => minted) ?_
    intro x live _
    obtain ⟨m', now⟩ := Option.isSome_iff_exists.mp (TreeMap.mem_iff_isSome_getElem?.mp live)
    obtain ⟨apart, before⟩ := still now
    refine ⟨TreeMap.mem_iff_isSome_getElem?.mpr (by rw [before]; rfl), ?_⟩
    show _ ≤ ((s.services.activeCalls.erase service)[x]?).getD 0
    rw [getElem?_erase_eq, if_neg apart]
    exact le_refl _

theorem Sound.set (sound : Sound s) (here : s.instances[id]? = some inst) {after : Instance}
    (control : after.control = inst.control) (life : after.life = inst.life)
    (swept : after.swept = false) (listening : after.listening = true → inst.listening = true)
    (mail : ∀ call, .executeService call ∈ after.mailbox → .executeService call ∈ inst.mailbox)
    (guards : ∀ service, after.guards service ≤ inst.guards service) : Sound (s.set id after) := by
  constructor
  · exact sound.core.instances_set here control life swept listening
      fun call queued => Or.inl (mail call queued)
  · refine sound.counted.same ?_ rfl rfl
    intro service
    have moved := guards_set here after service
    have fewer := guards service
    omega

theorem Sound.after (sound : Sound s) (here : s.instances[id]? = some inst)
    (listening : inst.listening = true) (next : AfterTask) : Sound (s.after id inst next) := by
  refine ⟨sound.core.after here listening next, sound.counted.same ?_ ?_ ?_⟩
  · intro service
    have dropped := guards_after here next service
    omega
  · cases next <;> rfl
  · cases next <;> rfl

theorem Sound.exit (sound : Sound s) (here : s.instances[id]? = some inst) :
    Sound (s.exit id inst) := by
  refine ⟨sound.core.exit here, sound.counted.same ?_ rfl rfl⟩
  intro service
  have dropped := guards_exit here service
  omega

theorem Sound.hangUp (sound : Sound s) {n : Nat} {future : CallFuture}
    (calling : s.calls[n]? = some future) : Sound (s.hangUp n) := by
  refine ⟨sound.core.hangUp n, sound.counted.same ?_ rfl rfl⟩
  intro service
  have dropped := guards_hangUp calling service
  omega

theorem Sound.post (sound : Sound s) (here : s.instances[id]? = some inst) {command : LifeCommand}
    (sent : s.post id inst command = some s') (plain : command.target? = none) : Sound s' := by
  constructor
  · apply sound.core.post here sent
    rintro call rfl
    cases plain
  · have grown := guards_post here sent
    have none : ∀ service, command.guards service = 0 := by
      intro service
      rw [LifeCommand.guards, plain, if_neg]
      intro same
      cases same
    unfold Lives.post at sent
    split_ifs at sent
    obtain rfl := Option.some.inj sent
    refine sound.counted.same ?_ rfl rfl
    intro service
    rw [grown, none]
    exact le_refl _

theorem Sound.finished (sound : Sound s) (here : s.instances[id]? = some inst)
    {call : ServiceCall} (running : inst.phase = .running (.service call)) (next : AfterTask) :
    Sound ((s.after id inst next).release call.target) := by
  have listening : inst.listening = true := by
    rw [Instance.listening, running]
  refine ⟨(sound.core.after here listening next).release _, sound.counted.released ?_ ?_ ?_⟩
  · intro service
    have dropped := guards_after here next service
    rw [running] at dropped
    exact le_of_eq dropped
  · cases next <;> rfl
  · cases next <;> rfl

theorem Sound.received (sound : Sound s) (here : s.instances[id]? = some inst)
    {command : LifeCommand} {rest : List LifeCommand} (idle : inst.phase = .idle)
    (queue : inst.mailbox = command :: rest) :
    Sound (s.set id { inst with mailbox := rest, phase := .running command.task }) := by
  refine sound.set here ?_ ?_ ?_ ?_ ?_ ?_
  · rfl
  · rfl
  · rfl
  · intro _
    rw [Instance.listening, idle]
  · intro call queued
    rw [queue]
    exact List.mem_cons_of_mem _ queued
  · intro service
    have before : inst.phase.guards service = 0 := by rw [idle]; rfl
    have task := LifeCommand.guards_task command service
    simp only [Instance.guards, before, task, queue, List.map_cons, List.sum_cons]
    omega

theorem Sound.refused (sound : Sound s) (here : s.instances[id]? = some inst)
    {call : ServiceCall} {rest : List LifeCommand} (waits : inst.phase = .backoff)
    (queue : inst.mailbox = .executeService call :: rest) :
    Sound ((s.set id { inst with mailbox := rest }).release call.target) := by
  constructor
  · apply Core.release
    refine sound.core.instances_set here ?_ ?_ ?_ ?_ ?_
    · rfl
    · rfl
    · rw [Instance.swept, waits]
    · exact fun hears => hears
    · intro call queued
      rw [queue]
      exact Or.inl (List.mem_cons_of_mem _ queued)
  · refine sound.counted.released ?_ rfl rfl
    intro service
    have moved := guards_set here { inst with mailbox := rest } service
    simp only [Instance.guards, queue, List.map_cons, List.sum_cons] at moved
    have head : LifeCommand.guards service (.executeService call) =
        if call.target = service then 1 else 0 := by
      simp [LifeCommand.guards, LifeCommand.target?]
    rw [head] at moved
    omega

theorem Sound.phase (sound : Sound s) (here : s.instances[id]? = some inst) {phase : LifePhase}
    (unswept : Instance.swept { inst with phase := phase } = false)
    (listening : inst.listening = true) (idle : ∀ service, phase.guards service = 0) :
    Sound (s.set id { inst with phase := phase }) := by
  refine sound.set here ?_ ?_ unswept (fun _ => listening) (fun _ queued => queued) ?_
  · rfl
  · rfl
  intro service
  simp only [Instance.guards, idle]
  omega

theorem Sound.stepInstance (sound : Sound s) (here : s.instances[id]? = some inst)
    {action : LifeAction} (clear : ∀ x, action = .sweep x → ∀ call, ¬ s.InFlight id inst call)
    (taken : s.stepInstance id inst action = some s') : Sound s' := by
  cases action with
  | sweep x =>
      simp only [Lives.stepInstance] at taken
      split at taken
      · next starting =>
          cases taken
          exact sound.sweep here starting (clear x rfl)
      · cases taken
  | loaded x next =>
      simp only [Lives.stepInstance] at taken
      split at taken
      · next loading =>
          cases taken
          exact sound.after here (by rw [Instance.listening, loading]) next
      · cases taken
  | register x info =>
      simp only [Lives.stepInstance] at taken
      split at taken
      · next active =>
          split at taken
          · cases taken
            exact sound
          · next service services registered =>
              cases taken
              apply sound.register here _ registered
              unfold Instance.active at active
              unfold Instance.swept
              split at active
              · next loading => rw [loading]
              · next running => rw [running]
              · cases active
      · cases taken
  | update x service info =>
      simp only [Lives.stepInstance] at taken
      split at taken
      · cases taken
        cases updated : s.services.update id service info with
        | error error => exact sound
        | ok services => exact sound.updated updated
      · cases taken
  | remove x service =>
      simp only [Lives.stepInstance] at taken
      split at taken
      · cases taken
        cases removed : s.services.remove id service with
        | error error => exact sound
        | ok services => exact sound.removed removed
      · cases taken
  | enter x =>
      simp only [Lives.stepInstance] at taken
      split at taken
      · next idle =>
          cases taken
          exact sound.phase here rfl (by rw [Instance.listening, idle]) fun _ => rfl
      · cases taken
  | receive x =>
      simp only [Lives.stepInstance] at taken
      split at taken
      · next idle queue =>
          cases taken
          exact sound.received here idle queue
      · cases taken
  | finish x next =>
      simp only [Lives.stepInstance] at taken
      split at taken
      · next running =>
          cases taken
          exact sound.after here (by rw [Instance.listening, running]) next
      · cases taken
        exact sound.exit here
      · next running =>
          cases taken
          exact sound.finished here running next
      · cases taken
  | refuse x =>
      simp only [Lives.stepInstance] at taken
      split at taken
      · cases taken
        exact sound.exit here
      · next waits queue =>
          cases taken
          refine sound.set here ?_ ?_ ?_ ?_ ?_ ?_
          · rfl
          · rfl
          · rw [Instance.swept, waits]
          · exact fun hears => hears
          · intro call queued
            rw [queue]
            exact List.mem_cons_of_mem _ queued
          · intro service
            simp only [Instance.guards, queue, List.map_cons, List.sum_cons]
            omega
      · next waits queue =>
          cases taken
          exact sound.refused here waits queue
      · cases taken
  | elapse x =>
      simp only [Lives.stepInstance] at taken
      split at taken
      · next waits =>
          cases taken
          exact sound.phase here rfl (by rw [Instance.listening, waits]) fun _ => rfl
      · cases taken
  | reap x =>
      simp only [Lives.stepInstance] at taken
      split at taken
      · next exited =>
          cases taken
          exact sound.reap here exited
      · cases taken
  | unregister x =>
      simp only [Lives.stepInstance] at taken
      split at taken
      · next reaped =>
          cases taken
          refine ⟨sound.core.unregistered here (by rw [Instance.swept, reaped]), ?_⟩
          refine sound.counted.same ?_ rfl rfl
          intro service
          have dropped := weight_erase (fun _ inst => Instance.guards service inst) s.instances id
          simp only [guards]
          omega
      · cases taken
  | execute x => exact sound.post here taken rfl
  | stop x => exact sound.post here taken rfl
  | start | dispatch | authorize | route | acquire | send | abandon | dropGuard => cases taken

theorem Sound.advance (sound : Sound s) {n : Nat} {future : CallFuture}
    (calling : s.calls[n]? = some future) {stage : CallStage}
    (knows : Knows s.services.inner s.bornIn ⟨future.call, stage⟩)
    (control : ∀ c ∈ stage.control?, c < s.nextControl)
    (waits : ∀ handle, stage ≠ .sending handle) : Sound (s.advance n future.call stage) := by
  constructor
  · apply sound.core.advance n knows control
    intro handle inst same
    exact absurd same (waits handle)
  · refine sound.counted.same ?_ rfl rfl
    intro service
    have moved := guards_advance calling future.call stage service
    have none : CallFuture.guards service ⟨future.call, stage⟩ = 0 := by
      cases stage with
      | sending handle => exact absurd rfl (waits handle)
      | begun => rfl
      | authorized => rfl
      | routed => rfl
    omega

theorem Sound.acquired (sound : Sound s) {n : Nat} {future : CallFuture}
    (calling : s.calls[n]? = some future) {plugin localId : String} {handle : InstanceHandle}
    (routed : future.stage = .routed plugin localId handle) {services : ServiceRegistry}
    (taken : acquireCall s.services future.call.target = .ok services) :
    Sound { s.advance n future.call (.sending handle) with services := services } := by
  obtain ⟨⟨m, live⟩, rfl⟩ := acquireCall_eq_ok taken
  have told : Resolved s.services.inner s.bornIn future.call handle.instanceId plugin localId := by
    have knows := sound.core.knows n future calling
    rw [Knows, routed] at knows
    exact knows
  obtain ⟨owner, plugin, localId⟩ := told.same m live
  obtain ⟨running, found, _, born⟩ := sound.core.owners _ m live
  constructor
  · have advanced : Core (s.advance n future.call (.sending handle)) := by
      refine sound.core.advance n ?_ ?_ ?_
      · trivial
      · intro c mem
        apply sound.core.handles n future calling c
        rw [routed]
        exact mem
      · intro dest inst same here
        cases same
        rw [owner] at found
        obtain rfl := Option.some.inj (here.symm.trans found)
        refine ⟨m, live, owner, born, ?_⟩
        rw [plugin, localId]
        exact told.selects
    refine advanced.counts ?_ ?_ s.dying
    · rfl
    · rfl
  · have moved := guards_advance calling future.call (.sending handle)
    have before : ∀ service, future.guards service = 0 := by
      intro service
      rw [CallFuture.guards, routed]
    constructor
    · intro service some
      show service ∈ s.bornIn
      have some : 0 < (s.advance n future.call (.sending handle)).guards service := some
      have moved := moved service
      simp only [CallFuture.guards] at moved
      split_ifs at moved with same
      · rw [← same]
        exact told.minted
      · exact sound.counted.minted service (by omega)
    · intro service there
      show (s.advance n future.call (.sending handle)).guards service ≤
        (s.services.bumpCall future.call.target).activeCallCount service
      rw [ServiceRegistry.bumpCall_count]
      have moved := moved service
      have bound := sound.counted.active service there
      simp only [CallFuture.guards] at moved
      omega

theorem Sound.sent (sound : Sound s) {n : Nat} {future : CallFuture}
    (calling : s.calls[n]? = some future) {handle : InstanceHandle}
    (sending : future.stage = .sending handle) (here : s.instances[handle.instanceId]? = some inst)
    (same : inst.control = handle.control) (listening : inst.listening = true)
    (sent : (s.hangUp n).post handle.instanceId inst (.executeService future.call) = some s') :
    Sound s' := by
  have flying : s.InFlight handle.instanceId inst future.call := by
    refine Or.inr ⟨n, handle, ?_, ?_⟩
    · rw [← sending]
      exact calling
    · rw [same]
  have authorized := sound.core.inFlight _ inst future.call here listening flying
  constructor
  · apply (sound.core.hangUp n).post here sent
    intro call command
    cases command
    exact authorized
  · have there : (s.hangUp n).instances[handle.instanceId]? = some inst := here
    have grown := guards_post there sent
    have dropped := guards_hangUp calling
    have moved : ∀ service, s'.guards service = s.guards service := by
      intro service
      have grown := grown service
      have dropped := dropped service
      simp only [CallFuture.guards, sending] at dropped
      simp only [LifeCommand.guards, LifeCommand.target?, Option.some.injEq] at grown
      omega
    unfold Lives.post at sent
    split_ifs at sent
    obtain rfl := Option.some.inj sent
    exact sound.counted.same (fun service => le_of_eq (moved service)) rfl rfl

theorem Sound.abandoned (sound : Sound s) {n : Nat} {future : CallFuture}
    (calling : s.calls[n]? = some future) {handle : InstanceHandle}
    (sending : future.stage = .sending handle) :
    Sound ((s.hangUp n).release future.call.target) := by
  refine ⟨(sound.core.hangUp n).release _, sound.counted.released ?_ rfl rfl⟩
  intro service
  have dropped := guards_hangUp calling service
  rw [CallFuture.guards, sending] at dropped
  exact le_of_eq dropped

theorem Sound.stepCall (sound : Sound s) {n : Nat} {future : CallFuture}
    (calling : s.calls[n]? = some future) {action : LifeAction}
    (taken : s.stepCall n future action = some s') : Sound s' := by
  have hung := sound.hangUp calling
  have knows := sound.core.knows n future calling
  cases action with
  | authorize k =>
      simp only [Lives.stepCall] at taken
      split at taken
      · split at taken
        · cases taken
          exact hung
        · next targetInstance targetPluginId targetLocalId allowed =>
            cases taken
            obtain ⟨⟨m, live, owner, plugin, localId⟩, selects⟩ := authorize_eq_ok allowed
            obtain ⟨_, _, _, born⟩ := sound.core.owners _ m live
            apply sound.advance calling
            · refine ⟨selects, ?_, ?_⟩
              · rw [TreeMap.mem_iff_isSome_getElem?, born]
                rfl
              · intro m' found
                obtain rfl := Option.some.inj (live.symm.trans found)
                exact ⟨owner, plugin, localId⟩
            · intro c mem
              cases mem
            · intro handle same
              cases same
      · cases taken
  | route k =>
      simp only [Lives.stepCall] at taken
      split at taken
      · next targetInstance targetPluginId targetLocalId stage =>
          split at taken
          · cases taken
            exact hung
          · next inst here =>
              cases taken
              rw [Knows, stage] at knows
              apply sound.advance calling
              · exact knows
              · intro c mem
                cases mem
                exact sound.core.controls _ inst here
              · intro handle same
                cases same
      · cases taken
  | acquire k =>
      simp only [Lives.stepCall] at taken
      split at taken
      · next stage =>
          split at taken
          · cases taken
            exact hung
          · next services acquired =>
              cases taken
              exact sound.acquired calling stage acquired
      · cases taken
  | send k =>
      simp only [Lives.stepCall] at taken
      split at taken
      · next handle stage =>
          split at taken
          · cases taken
            exact sound.abandoned calling stage
          · next inst here =>
              split at taken
              · next reachable =>
                  rw [Bool.and_eq_true, decide_eq_true_eq] at reachable
                  exact sound.sent calling stage here reachable.1 reachable.2 taken
              · cases taken
                exact sound.abandoned calling stage
      · cases taken
  | abandon k =>
      simp only [Lives.stepCall] at taken
      split at taken
      · next stage =>
          cases taken
          exact sound.abandoned calling stage
      · cases taken
        exact hung
  | start | sweep | loaded | register | update | remove | enter | receive | finish | refuse
  | elapse | reap | unregister | execute | stop | dispatch | dropGuard => cases taken

theorem Sound.start (sound : Sound s) (absent : id ∉ s.instances) (pluginId : String) :
    Sound { s.set id ⟨s.nextControl, pluginId, s.nextLife, [], .starting⟩ with
      nextControl := s.nextControl + 1, nextLife := s.nextLife + 1 } := by
  constructor
  · refine (sound.core.instance ⟨s.nextControl, pluginId, s.nextLife, [], .starting⟩ ?_
      (Nat.le_succ _) (Nat.lt_succ_self _) ?_).ticks _ _
    · intro service m live
      obtain ⟨owner, found, _⟩ := sound.core.owners service m live
      rintro rfl
      apply absent
      rw [TreeMap.mem_iff_isSome_getElem?, found]
      rfl
    · intro _ call flying
      rcases flying with queued | ⟨n, handle, calling, same⟩
      · cases queued
      · have older := sound.core.handles n _ calling handle.control rfl
        rw [same] at older
        exact lt_irrefl _ older
  · refine sound.counted.same ?_ rfl rfl
    intro service
    have moved := weight_insert (fun _ inst => Instance.guards service inst) s.instances id
      ⟨s.nextControl, pluginId, s.nextLife, [], .starting⟩
    have none : Instance.guards service ⟨s.nextControl, pluginId, s.nextLife, [], .starting⟩ = 0 :=
      rfl
    simp only [guards, Lives.set]
    omega

theorem Sound.dispatch (sound : Sound s) (call : ServiceCall) :
    Sound { s.advance s.nextCall call .begun with nextCall := s.nextCall + 1 } := by
  constructor
  · have advanced : Core (s.advance s.nextCall call .begun) := by
      refine sound.core.advance s.nextCall ?_ ?_ ?_
      · trivial
      · intro c mem
        cases mem
      · intro handle inst same
        cases same
    exact advanced.ticks _ _
  · refine sound.counted.same ?_ rfl rfl
    intro service
    have moved := weight_insert (fun _ future => CallFuture.guards service future) s.calls
      s.nextCall ⟨call, .begun⟩
    have none : CallFuture.guards service ⟨call, .begun⟩ = 0 := rfl
    simp only [guards, Lives.advance]
    omega

theorem Sound.dropGuard (sound : Sound s) {service : ServiceId} (dying : service ∈ s.dying) :
    Sound { s.release service with dying := s.dying.erase service } := by
  have core : Core { s with dying := s.dying.erase service } := sound.core.counts rfl rfl _
  refine ⟨core.release service, ?_⟩
  have dropped : ∀ x, Lives.guards { s with dying := s.dying.erase service } x +
      (if service = x then 1 else 0) ≤ s.guards x := by
    intro x
    simp only [guards]
    split_ifs with same
    · subst same
      have counted := List.count_erase_self (a := service) (l := s.dying)
      have some := List.count_pos_iff.mpr dying
      omega
    · rw [List.count_erase_of_ne (Ne.symm same)]
      omega
  exact sound.counted.released dropped rfl rfl

theorem Sound.step (sound : Sound s) {action : LifeAction} (clear : ¬ s.SweepsInFlight action)
    (taken : s.step action = some s') : Sound s' := by
  cases action with
  | start id pluginId =>
      simp only [Lives.step] at taken
      split_ifs at taken with absent
      cases taken
      exact sound.start absent pluginId
  | dispatch call =>
      cases taken
      exact sound.dispatch call
  | dropGuard service =>
      simp only [Lives.step] at taken
      split_ifs at taken with dying
      cases taken
      exact sound.dropGuard dying
  | authorize n | route n | acquire n | send n | abandon n =>
      simp only [Lives.step] at taken
      split at taken
      · cases taken
      · next future calling => exact sound.stepCall calling taken
  | sweep x =>
      simp only [Lives.step] at taken
      split at taken
      · cases taken
      · next inst here =>
          apply sound.stepInstance here _ taken
          intro y same call flying
          exact clear ⟨x, inst, call, rfl, here, flying⟩
  | loaded x | register x | update x | remove x | enter x | receive x | finish x | refuse x
  | elapse x | reap x | unregister x | execute x | stop x =>
      simp only [Lives.step] at taken
      split at taken
      · cases taken
      · next inst here =>
          apply sound.stepInstance here _ taken
          intro y same
          cases same

/-! ## Runs -/

/-- `execute_service_command` starts. -/
structure Executes (s : Lives) (action : LifeAction) (id : String) (inst : Instance)
    (call : ServiceCall) : Prop where
  receive : action = .receive id
  here : s.instances[id]? = some inst
  idle : inst.phase = .idle
  head : inst.mailbox.head? = some (.executeService call)

theorem exec_sound {actions : List LifeAction} (spared : Spared step SweepsInFlight new actions)
    {before : List LifeAction} (within : before <+: actions) (run : exec step new before = some s) :
    Sound s :=
  exec_spared (fun _ _ _ sound clear taken => sound.step clear taken) sound_new spared within run

theorem executes_authorized {actions : List LifeAction}
    (spared : Spared step SweepsInFlight new actions) {before : List LifeAction}
    {action : LifeAction} (within : before ++ [action] <+: actions)
    (run : exec step new before = some s) {call : ServiceCall}
    (executes : s.Executes action id inst call) : s.Authorized id inst call := by
  have sound := exec_sound spared ((List.prefix_append _ _).trans within) run
  apply sound.core.inFlight id inst call executes.here
  · rw [Instance.listening, executes.idle]
  · exact Or.inl (List.mem_of_mem_head? executes.head)

theorem spared_unswept {actions : List LifeAction}
    (unswept : ∀ action ∈ actions, ∀ id, action ≠ .sweep id) :
    Spared step SweepsInFlight s actions := by
  induction actions generalizing s with
  | nil => trivial
  | cons action rest ih =>
      constructor
      · intro fault
        obtain ⟨id, _, _, sweep, _⟩ := fault
        exact unswept action List.mem_cons_self id sweep
      · exact fun t _ => ih fun a mem => unswept a (List.mem_cons_of_mem _ mem)

def lampCall : ServiceCall :=
  let anyone : ServiceGrant := ⟨"lamps", "a", "lamp", ["toggle"], "*"⟩
  ⟨[], "b", [anyone], [anyone], "svc-0", "toggle", []⟩

def lampHeld : List LifeAction :=
  [.start "a" "lamps", .sweep "a", .register "a" ⟨"lamp", "Lamp", [], []⟩, .loaded "a" .goesOn,
    .dispatch lampCall, .authorize 0, .route 0, .acquire 0]

theorem executes_authorized_lamp :
    ∃ s inst, Spared step SweepsInFlight new (lampHeld ++ [.send 0] ++ [.receive "a"]) ∧
      exec step new (lampHeld ++ [.send 0]) = some s ∧
      s.Executes (.receive "a") "a" inst lampCall ∧ s.Authorized "a" inst lampCall := by
  have spared : Spared step SweepsInFlight new (lampHeld ++ [.send 0] ++ [.receive "a"]) := by
    refine ⟨?_, fun t started => ⟨?_, fun u _ => spared_unswept ?_⟩⟩
    · intro fault
      obtain ⟨id, _, _, sweep, _⟩ := fault
      cases sweep
    · intro fault
      cases started
      obtain ⟨id, inst, call, sweep, here, flying⟩ := fault
      cases sweep
      cases here
      rcases flying with queued | ⟨n, handle, calling, _⟩
      · cases queued
      · simp [set, new] at calling
    · simp
  refine ⟨_, ⟨0, "lamps", 1, [.executeService lampCall], .idle⟩, spared, rfl,
    ⟨rfl, rfl, rfl, rfl⟩, ?_⟩
  exact executes_authorized spared (List.prefix_refl _) rfl ⟨rfl, rfl, rfl, rfl⟩

/-- `a` crashes; the message is sent during the wait and left for the next life, which sweeps. -/
def lampSwept : List LifeAction :=
  lampHeld ++ [.enter "a", .finish "a" .backsOff, .send 0, .elapse "a", .sweep "a",
    .loaded "a" .goesOn]

theorem swept_service_executed :
    ¬ ∀ (before : List LifeAction) (s : Lives) (action : LifeAction) (id : String)
      (inst : Instance) (call : ServiceCall), exec step new before = some s →
      s.Executes action id inst call → s.Authorized id inst call := by
  intro claim
  have gone : ((exec step new lampSwept).bind
      fun s => s.services.inner[lampCall.target]?).isNone = true := by decide +kernel
  obtain ⟨m, live, _⟩ := claim lampSwept _ (.receive "a") "a"
    ⟨0, "lamps", 2, [.executeService lampCall], .idle⟩ lampCall rfl ⟨rfl, rfl, rfl, rfl⟩
  have present := congrArg Option.isNone live
  exact Bool.noConfusion (gone.symm.trans present)

end Lives

end OxidHome.Dispatch

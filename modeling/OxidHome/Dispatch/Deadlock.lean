import OxidHome.Library.WaitGraph
import OxidHome.Dispatch.Dispatcher

/-!
# Cycles of parked supervisors

A call that is being served carries its caller on the chain of the callee, so the chain check keeps
a supervisor from waiting, through served calls only, for itself. A call that is still queued is on
no chain that its target can see: two supervisors can each enqueue to the other.
-/

namespace OxidHome.Dispatch
open Wit Library Relation

/-! ## Who waits for whom -/

def Activity.awaits : Activity → Option String
  | .parked _ _ target => some target
  | _ => none

def Supervisor.Holds (sup : Supervisor) (message : ExecuteService) : Prop :=
  .executeService message ∈ sup.mailbox ∨ sup.activity.serving = some message

structure Sendable (caller : String) (task : Task) (target : String) (message : ExecuteService) :
    Prop where
  reply : message.reply.callerInstance = caller
  chain : message.chain = task.callStack ++ [⟨caller, target, message.service⟩]
  other : caller ≠ target
  offChain : ∀ frame ∈ task.callStack, frame.callerInstance ≠ target

namespace CallSystem

def waitsFor (s : CallSystem) (id : String) : Option String :=
  s.instances[id]?.bind (·.activity.awaits)

def Deadlocked (s : CallSystem) : Prop := WaitCycle s.waitsFor

/-- The names on the chain of whatever `id` is driving. -/
def callers (s : CallSystem) (id : String) : List String :=
  match s.instances[id]?.bind (·.activity.serving) with
  | none => []
  | some message => message.chain.map (·.callerInstance)

def Sound (s : CallSystem) (id : String) (sup : Supervisor) : Prop :=
  match sup.activity with
  | .parked task call target => ∃ callee message, s.instances[target]? = some callee ∧
      callee.Holds message ∧ message.reply = ⟨id, call⟩ ∧
      message.chain = task.callStack ++ [⟨id, target, message.service⟩]
  | .sending task handle message => Sendable id task handle.instanceId message
  | .exited => sup.mailbox = []
  | _ => True

def DispatchInv (s : CallSystem) : Prop :=
  ∀ id sup, s.instances[id]? = some sup → s.Sound id sup

def Queued (s : CallSystem) (caller target : String) : Prop :=
  ∃ sup task call callee message, s.instances[caller]? = some sup ∧
    sup.activity = .parked task call target ∧ s.instances[target]? = some callee ∧
    .executeService message ∈ callee.mailbox ∧ message.reply = ⟨caller, call⟩

def Served (s : CallSystem) (caller target : String) : Prop :=
  s.callers target = s.callers caller ++ [caller]

structure Delivers (s : CallSystem) (caller : String) (sup : Supervisor) (task : Task)
    (handle : InstanceHandle) (message : ExecuteService) : Prop where
  here : s.instances[caller]? = some sup
  sending : sup.activity = .sending task handle message
  reached : s.reachable handle = true

/-- The step enqueues to a supervisor that waits for the sender already, by a path of outstanding
calls of which one is still queued. -/
def Crosses (s : CallSystem) (action : DispatchAction) : Prop :=
  ∃ caller sup task handle message, action = .supervisor caller .enqueue ∧
    s.Delivers caller sup task handle message ∧
    ∃ x y, ReflTransGen (Waits s.waitsFor) handle.instanceId x ∧ s.Queued x y ∧
      ReflTransGen (Waits s.waitsFor) y caller

/-! ## Settling calls -/

@[simp] theorem set_get (s : CallSystem) (id x : String) (sup : Supervisor) :
    (s.set id sup).instances[x]? = if id = x then some sup else s.instances[x]? := by
  simp only [set, getElem?_insert_eq]

end CallSystem

def Supervisor.heard (id : String) (sup : Supervisor) (messages : List ExecuteService) :
    Supervisor :=
  messages.foldl (fun sup message =>
    if message.reply.callerInstance = id then sup.answered message.reply.call else sup) sup

namespace Supervisor

theorem answered_eq (sup : Supervisor) (call : Nat) : sup.answered call = sup ∨
    ∃ task target, sup.activity = .parked task call target ∧
      sup.answered call = { sup with activity := .running task } := by
  unfold answered
  cases shape : sup.activity with
  | parked task awaited target =>
      by_cases same : awaited = call
      · subst same
        exact Or.inr ⟨task, target, rfl, by simp⟩
      · simp [same]
  | _ => exact Or.inl rfl

theorem heard_cons (id : String) (sup : Supervisor) (message : ExecuteService)
    (rest : List ExecuteService) : sup.heard id (message :: rest) =
      (if message.reply.callerInstance = id then sup.answered message.reply.call
        else sup).heard id rest := rfl

theorem heard_eq (id : String) (sup : Supervisor) (messages : List ExecuteService) :
    sup.heard id messages = sup ∨
    ∃ task call target, sup.activity = .parked task call target ∧
      sup.heard id messages = { sup with activity := .running task } := by
  induction messages generalizing sup with
  | nil => exact Or.inl rfl
  | cons message rest ih =>
      rw [heard_cons]
      split_ifs with own
      · rcases sup.answered_eq message.reply.call with same | ⟨task, target, parked, woken⟩
        · rw [same]
          exact ih sup
        · rw [woken]
          rcases ih { sup with activity := .running task } with same | ⟨_, _, _, again, _⟩
          · exact Or.inr ⟨task, _, target, parked, same⟩
          · cases again
      · exact ih sup

theorem heard_of_parked {id : String} {sup : Supervisor} {messages : List ExecuteService}
    {task : Task} {call : Nat} {target : String} (parked : sup.activity = .parked task call target)
    (gone : ∃ message ∈ messages, message.reply = ⟨id, call⟩) :
    (sup.heard id messages).activity = .running task := by
  induction messages with
  | nil =>
      obtain ⟨_, mem, _⟩ := gone
      cases mem
  | cons message rest ih =>
      rw [heard_cons]
      by_cases own : message.reply.callerInstance = id
      · rw [if_pos own]
        rcases sup.answered_eq message.reply.call with same | ⟨task', target', parked', woken⟩
        · rw [same]
          apply ih
          obtain ⟨other, mem, reply⟩ := gone
          rcases List.mem_cons.mp mem with rfl | mem
          · rw [reply, answered, parked] at same
            simp only [if_pos] at same
            rw [← same] at parked
            cases parked
          · exact ⟨other, mem, reply⟩
        · rw [parked] at parked'
          cases parked'
          rw [woken]
          rcases heard_eq id { sup with activity := .running task } rest with same | ⟨_, _, _, again, _⟩
          · rw [same]
          · cases again
      · rw [if_neg own]
        apply ih
        obtain ⟨other, mem, reply⟩ := gone
        rcases List.mem_cons.mp mem with rfl | mem
        · rw [reply] at own
          exact absurd rfl own
        · exact ⟨other, mem, reply⟩

theorem heard_mailbox (id : String) (sup : Supervisor) (messages : List ExecuteService) :
    (sup.heard id messages).mailbox = sup.mailbox := by
  rcases sup.heard_eq id messages with same | ⟨_, _, _, _, same⟩ <;> rw [same]

theorem heard_serving (id : String) (sup : Supervisor) (messages : List ExecuteService) :
    (sup.heard id messages).activity.serving = sup.activity.serving := by
  rcases sup.heard_eq id messages with same | ⟨task, call, target, parked, same⟩
  · rw [same]
  · rw [same, parked]
    rfl

theorem holds_heard {id : String} {sup : Supervisor} {messages : List ExecuteService}
    {message : ExecuteService} : (sup.heard id messages).Holds message ↔ sup.Holds message := by
  rw [Holds, Holds, heard_mailbox, heard_serving]

end Supervisor

namespace CallSystem

@[simp] theorem release_instances (s : CallSystem) (service : ServiceId) :
    (s.release service).instances = s.instances := rfl

theorem settle_get (s : CallSystem) (message : ExecuteService) (x : String) :
    (s.settle message).instances[x]? = s.instances[x]?.map (·.heard x [message]) := by
  unfold settle
  simp only [release_instances]
  cases here : s.instances[message.reply.callerInstance]? with
  | none =>
      by_cases own : message.reply.callerInstance = x
      · rw [← own, release_instances, here]
        rfl
      · rw [release_instances]
        cases s.instances[x]? with
        | none => rfl
        | some sup => simp [Supervisor.heard, own]
  | some caller =>
      rw [set_get, release_instances]
      by_cases own : message.reply.callerInstance = x
      · rw [if_pos own, ← own, here]
        simp [Supervisor.heard]
      · rw [if_neg own]
        cases s.instances[x]? with
        | none => rfl
        | some sup => simp [Supervisor.heard, own]

theorem settleAll_get (s : CallSystem) (messages : List ExecuteService) (x : String) :
    (s.settleAll messages).instances[x]? = s.instances[x]?.map (·.heard x messages) := by
  induction messages generalizing s with
  | nil =>
      rw [settleAll, List.foldl_nil]
      cases s.instances[x]? with
      | none => rfl
      | some sup => rfl
  | cons message rest ih =>
      rw [settleAll, List.foldl_cons, ← settleAll, ih, settle_get, Option.map_map]
      rfl

/-! ## Soundness of parked supervisors -/

/-- As `Sound`, but for calls whose message is among those that are about to be settled. -/
def SoundBut (s : CallSystem) (gone : List ExecuteService) (id : String) (sup : Supervisor) : Prop :=
  match sup.activity with
  | .parked task call target =>
      (∃ message ∈ gone, message.reply = ⟨id, call⟩) ∨
      ∃ callee message, s.instances[target]? = some callee ∧
        callee.Holds message ∧ message.reply = ⟨id, call⟩ ∧
        message.chain = task.callStack ++ [⟨id, target, message.service⟩]
  | .sending task handle message => Sendable id task handle.instanceId message
  | .exited => sup.mailbox = []
  | _ => True

def InvBut (s : CallSystem) (gone : List ExecuteService) : Prop :=
  ∀ id sup, s.instances[id]? = some sup → s.SoundBut gone id sup

theorem DispatchInv.settleAll {s : CallSystem} {gone : List ExecuteService}
    (inv : s.InvBut gone) : (s.settleAll gone).DispatchInv := by
  intro id sup here
  rw [settleAll_get] at here
  obtain ⟨before, found, rfl⟩ := Option.map_eq_some_iff.mp here
  have sound := inv id before found
  unfold SoundBut at sound
  cases shape : before.activity with
  | parked task call target =>
      simp only [shape] at sound
      by_cases lost : ∃ message ∈ gone, message.reply = ⟨id, call⟩
      · rw [Sound, Supervisor.heard_of_parked shape lost]
        trivial
      · obtain ⟨callee, message, there, holds, reply, chain⟩ := sound.resolve_left lost
        rcases before.heard_eq id gone with same | ⟨task', call', target', parked, woken⟩
        · rw [same, Sound, shape]
          refine ⟨callee.heard target gone, message, ?_, Supervisor.holds_heard.mpr holds, reply,
            chain⟩
          rw [settleAll_get, there]
          rfl
        · rw [woken, Sound]
          trivial
  | sending task handle message =>
      rcases before.heard_eq id gone with same | ⟨_, _, _, parked, _⟩
      · rw [same, Sound, shape]
        simpa only [shape] using sound
      · rw [shape] at parked
        cases parked
  | exited =>
      rcases before.heard_eq id gone with same | ⟨_, _, _, parked, _⟩
      · rw [same, Sound, shape]
        simpa only [shape] using sound
      · rw [shape] at parked
        cases parked
  | idle | backoff | running task =>
      rcases before.heard_eq id gone with same | ⟨_, _, _, parked, _⟩
      · rw [same, Sound, shape]
        trivial
      · rw [shape] at parked
        cases parked

theorem InvBut.set {s : CallSystem} (inv : s.DispatchInv) {gone : List ExecuteService} {id : String}
    (after : Supervisor)
    (kept : ∀ before, s.instances[id]? = some before → ∀ message, before.Holds message →
      after.Holds message ∨ message ∈ gone)
    (sound : (s.set id after).SoundBut gone id after) : (s.set id after).InvBut gone := by
  intro x other here
  rw [set_get] at here
  split_ifs at here with same
  · obtain rfl := Option.some.inj here
    rwa [← same]
  · have before := inv x other here
    unfold Sound at before
    unfold SoundBut
    cases shape : other.activity with
    | parked task call target =>
        simp only [shape] at before ⊢
        obtain ⟨callee, message, there, holds, reply, chain⟩ := before
        by_cases target' : id = target
        · subst target'
          rcases kept callee there message holds with still | lost
          · exact Or.inr ⟨after, message, by rw [set_get, if_pos rfl], still, reply, chain⟩
          · exact Or.inl ⟨message, lost, reply⟩
        · exact Or.inr ⟨callee, message, by rw [set_get, if_neg target', there], holds, reply, chain⟩
    | sending task handle message => simpa only [shape] using before
    | exited => simpa only [shape] using before
    | idle | backoff | running task => trivial

theorem InvBut.nil {s : CallSystem} (inv : s.InvBut []) : s.DispatchInv := DispatchInv.settleAll inv

theorem DispatchInv.congr {s s' : CallSystem} (inv : s.DispatchInv)
    (same : s'.instances = s.instances) : s'.DispatchInv := by
  intro id sup here
  rw [same] at here
  have sound := inv id sup here
  unfold Sound at sound ⊢
  simpa only [same] using sound

theorem DispatchInv.set {s : CallSystem} (inv : s.DispatchInv) {id : String} (after : Supervisor)
    (kept : ∀ before, s.instances[id]? = some before → ∀ message, before.Holds message →
      after.Holds message) (sound : (s.set id after).SoundBut [] id after) :
    (s.set id after).DispatchInv :=
  (InvBut.set inv after (fun before here message holds => Or.inl (kept before here message holds))
    sound).nil

theorem DispatchInv.close {s : CallSystem} (inv : s.DispatchInv) {id : String} {sup : Supervisor}
    (here : s.instances[id]? = some sup) (free : sup.activity.serving = none) :
    (s.close id sup).DispatchInv := by
  refine DispatchInv.settleAll (InvBut.set inv _ ?_ ?_)
  · intro before found message holds
    obtain rfl := Option.some.inj (here.symm.trans found)
    rcases holds with queued | serving
    · exact Or.inr (List.mem_filterMap.mpr ⟨_, queued, rfl⟩)
    · rw [free] at serving
      cases serving
  · rfl

theorem post_eq {s posted : CallSystem} {id : String} {command : ControlCommand}
    (sent : s.post id command = some posted) : ∃ sup, s.instances[id]? = some sup ∧
      sup.listening = true ∧ posted = s.set id { sup with mailbox := sup.mailbox ++ [command] } := by
  unfold post at sent
  split at sent
  · cases sent
  · rename_i sup here
    split_ifs at sent with room
    refine ⟨sup, here, ?_, (Option.some.inj sent).symm⟩
    simp only [Bool.and_eq_true] at room
    exact room.1

theorem DispatchInv.post {s posted : CallSystem} (inv : s.DispatchInv) {id : String}
    {command : ControlCommand} (sent : s.post id command = some posted) : posted.DispatchInv := by
  obtain ⟨sup, here, listening, rfl⟩ := post_eq sent
  refine inv.set _ ?_ ?_
  · intro before found message holds
    obtain rfl := Option.some.inj (here.symm.trans found)
    rcases holds with queued | serving
    · exact Or.inl (List.mem_append_left _ queued)
    · exact Or.inr serving
  · have sound := inv id sup here
    unfold Sound at sound
    unfold SoundBut
    cases shape : sup.activity with
    | parked task call target =>
        simp only [shape] at sound ⊢
        obtain ⟨callee, message, there, holds, reply, chain⟩ := sound
        refine Or.inr ?_
        by_cases own : id = target
        · subst own
          obtain rfl := Option.some.inj (here.symm.trans there)
          refine ⟨{ sup with mailbox := sup.mailbox ++ [command] }, message,
            by rw [set_get, if_pos rfl, shape], ?_, reply, chain⟩
          rcases holds with queued | serving
          · exact Or.inl (List.mem_append_left _ queued)
          · exact Or.inr serving
        · exact ⟨callee, message, by rw [set_get, if_neg own, there], holds, reply, chain⟩
    | sending task handle message => simpa only [shape] using sound
    | exited => simp [Supervisor.listening, shape] at listening
    | idle | backoff | running task => trivial

theorem callService_sendable {services services' : Services.ServiceRegistry}
    {instances : String → Option InstanceHandle} {task : Task} {caller : String}
    {requested granted : List ServiceGrant} {target : ServiceId} {command : String}
    {handle : InstanceHandle} {chain : List CallFrame}
    (named : ∀ id handle, instances id = some handle → handle.instanceId = id)
    (sent : callService services instances task.callStack caller requested granted target command =
      .ok (handle, chain, services')) (args : List KeyValue) (call : Nat) :
    Sendable caller task handle.instanceId ⟨chain, target, command, args, ⟨caller, call⟩⟩ := by
  unfold callService at sent
  split at sent
  · cases sent
  · rename_i targetInstance targetPluginId targetLocalId found
    simp only at sent
    split_ifs at sent with own cycle refused
    split at sent
    · cases sent
    · rename_i reached there
      split at sent
      · cases sent
      · obtain ⟨rfl, rfl, rfl⟩ : reached = handle ∧ _ = chain ∧ _ = services' := by
          simpa using sent
        rw [named _ _ there]
        refine ⟨rfl, rfl, own, fun frame mem same => cycle ?_⟩
        exact List.any_eq_true.mpr ⟨frame, mem, by simpa using same⟩

theorem handleOf_named (s : CallSystem) (id : String) (handle : InstanceHandle)
    (found : s.handleOf id = some handle) : handle.instanceId = id := by
  obtain ⟨sup, _, rfl⟩ := Option.map_eq_some_iff.mp found
  rfl

section Supervised

variable {s s' : CallSystem} {id : String} {sup : Supervisor}

theorem DispatchInv.moved (inv : s.DispatchInv) (here : s.instances[id]? = some sup)
    {after : Supervisor} (free : (s.set id after).SoundBut [] id after)
    (kept : ∀ message, sup.Holds message → after.Holds message) : (s.set id after).DispatchInv :=
  inv.set after (fun before found message holds => by
    obtain rfl := Option.some.inj (here.symm.trans found)
    exact kept message holds) free

theorem DispatchInv.lost (inv : s.DispatchInv) (here : s.instances[id]? = some sup)
    {after : Supervisor} {gone : List ExecuteService} (free : (s.set id after).SoundBut gone id after)
    (kept : ∀ message, sup.Holds message → after.Holds message ∨ message ∈ gone) :
    ((s.set id after).settleAll gone).DispatchInv :=
  DispatchInv.settleAll (InvBut.set inv after (fun before found message holds => by
    obtain rfl := Option.some.inj (here.symm.trans found)
    exact kept message holds) free)

theorem DispatchInv.receive (inv : s.DispatchInv) (here : s.instances[id]? = some sup)
    (stepped : s.stepSupervisor id sup .receive = some s') : s'.DispatchInv := by
  simp only [stepSupervisor] at stepped
  split at stepped
  · rename_i command rest idle mailbox
    obtain rfl := Option.some.inj stepped
    refine inv.moved here trivial fun message holds => ?_
    rcases holds with queued | serving
    · rw [mailbox] at queued
      rcases List.mem_cons.mp queued with rfl | queued
      · exact Or.inr rfl
      · exact Or.inl queued
    · rw [idle] at serving
      cases serving
  · cases stepped

theorem DispatchInv.refuse (inv : s.DispatchInv) (here : s.instances[id]? = some sup)
    (stepped : s.stepSupervisor id sup .refuse = some s') : s'.DispatchInv := by
  simp only [stepSupervisor] at stepped
  split at stepped
  · rename_i rest backoff mailbox
    obtain rfl := Option.some.inj stepped
    exact inv.close here (by rw [backoff]; rfl)
  · rename_i command rest _ backoff mailbox
    obtain rfl := Option.some.inj stepped
    refine inv.lost here ?_ fun message holds => ?_
    · rw [SoundBut, backoff]
      trivial
    · rcases holds with queued | serving
      · rw [mailbox] at queued
        rcases List.mem_cons.mp queued with rfl | queued
        · exact Or.inr (by simp [ControlCommand.service?])
        · exact Or.inl (Or.inl queued)
      · exact Or.inl (Or.inr serving)
  · cases stepped

theorem DispatchInv.enqueue (inv : s.DispatchInv) (here : s.instances[id]? = some sup)
    (stepped : s.stepSupervisor id sup .enqueue = some s') : s'.DispatchInv := by
  simp only [stepSupervisor] at stepped
  split at stepped
  · rename_i task handle message sending
    have sendable : Sendable id task handle.instanceId message := by
      have sound := inv id sup here
      rwa [Sound, sending] at sound
    split_ifs at stepped with reached
    · obtain ⟨posted, sent, rfl⟩ := Option.map_eq_some_iff.mp stepped
      obtain ⟨callee, there, _, rfl⟩ := post_eq sent
      have posted := inv.post sent
      let full : Supervisor :=
        { callee with mailbox := callee.mailbox ++ [.executeService message] }
      have mine : (s.set handle.instanceId full).instances[id]? = some sup := by
        rw [set_get, if_neg (Ne.symm sendable.other), here]
      refine posted.moved mine (Or.inr ⟨full, message, ?_, Or.inl ?_, ?_, sendable.chain⟩) ?_
      · rw [set_get, if_neg sendable.other, set_get, if_pos rfl]
      · exact List.mem_append_right _ (List.mem_singleton.mpr rfl)
      · rw [← sendable.reply]
      · intro other holds
        exact holds.imp (fun queued => queued) fun serving => by rwa [sending] at serving
    · obtain rfl := Option.some.inj stepped
      refine DispatchInv.congr (s := s.set id { sup with activity := .running task }) ?_ rfl
      refine inv.moved here trivial fun other holds => ?_
      exact holds.imp (fun queued => queued) fun serving => by rwa [sending] at serving
  · cases stepped

theorem DispatchInv.call (inv : s.DispatchInv) (here : s.instances[id]? = some sup)
    {target : ServiceId} {command : String} {args : List KeyValue}
    (stepped : s.stepSupervisor id sup (.call target command args) = some s') :
    s'.DispatchInv := by
  simp only [stepSupervisor] at stepped
  split at stepped
  · rename_i task running
    split at stepped
    · obtain rfl := Option.some.inj stepped
      exact inv
    · rename_i handle chain services sent
      obtain rfl := Option.some.inj stepped
      let message : ExecuteService := ⟨chain, target, command, args, ⟨id, s.nextCall⟩⟩
      refine DispatchInv.congr (s := s.set id { sup with activity := .sending task handle message })
        ?_ rfl
      refine inv.moved here ?_ fun other holds => ?_
      · exact callService_sendable s.handleOf_named sent args s.nextCall
      · rcases holds with queued | serving
        · exact Or.inl queued
        · rw [running] at serving
          exact Or.inr serving
  · cases stepped

theorem DispatchInv.timeout (inv : s.DispatchInv) (here : s.instances[id]? = some sup)
    (stepped : s.stepSupervisor id sup .timeout = some s') : s'.DispatchInv := by
  simp only [stepSupervisor] at stepped
  split at stepped
  · rename_i task handle message sending
    obtain rfl := Option.some.inj stepped
    refine DispatchInv.congr (s := s.set id { sup with activity := .running task }) ?_ rfl
    refine inv.moved here trivial fun other holds => ?_
    rcases holds with queued | serving
    · exact Or.inl queued
    · rw [sending] at serving
      exact Or.inr serving
  · rename_i task call target parked
    obtain rfl := Option.some.inj stepped
    refine inv.moved here trivial fun other holds => ?_
    rcases holds with queued | serving
    · exact Or.inl queued
    · rw [parked] at serving
      exact Or.inr serving
  · cases stepped

theorem DispatchInv.finish (inv : s.DispatchInv) (here : s.instances[id]? = some sup)
    {trapped : Bool} (stepped : s.stepSupervisor id sup (.finish trapped) = some s') :
    s'.DispatchInv := by
  simp only [stepSupervisor] at stepped
  split at stepped
  · rename_i running
    obtain rfl := Option.some.inj stepped
    exact inv.close here (by rw [running]; rfl)
  · rename_i task _ running
    obtain rfl := Option.some.inj stepped
    refine inv.lost here ?_ fun message holds => ?_
    · cases trapped <;> trivial
    · rcases holds with queued | serving
      · exact Or.inl (Or.inl queued)
      · rw [running] at serving
        exact Or.inr (Option.mem_toList.mpr serving)
  · cases stepped

theorem DispatchInv.enter (inv : s.DispatchInv) (here : s.instances[id]? = some sup)
    (stepped : s.stepSupervisor id sup .enter = some s') : s'.DispatchInv := by
  simp only [stepSupervisor] at stepped
  split at stepped
  · rename_i idle
    obtain rfl := Option.some.inj stepped
    refine inv.moved here trivial fun message holds => ?_
    exact holds.imp (fun queued => queued) fun serving => by simp [idle, Activity.serving] at serving
  · cases stepped

theorem DispatchInv.restart (inv : s.DispatchInv) (here : s.instances[id]? = some sup)
    (stepped : s.stepSupervisor id sup .restart = some s') : s'.DispatchInv := by
  simp only [stepSupervisor] at stepped
  split at stepped
  · rename_i backoff
    obtain rfl := Option.some.inj stepped
    refine inv.moved here trivial fun message holds => ?_
    exact holds.imp (fun queued => queued) fun serving => by
      simp [backoff, Activity.serving] at serving
  · cases stepped

theorem DispatchInv.exit (inv : s.DispatchInv) (here : s.instances[id]? = some sup)
    (stepped : s.stepSupervisor id sup .exit = some s') : s'.DispatchInv := by
  simp only [stepSupervisor] at stepped
  split at stepped
  · rename_i idle
    obtain rfl := Option.some.inj stepped
    exact inv.close here (by rw [idle]; rfl)
  · rename_i backoff
    obtain rfl := Option.some.inj stepped
    exact inv.close here (by rw [backoff]; rfl)
  · cases stepped

theorem DispatchInv.reap (inv : s.DispatchInv) (here : s.instances[id]? = some sup)
    (stepped : s.stepSupervisor id sup .reap = some s') : s'.DispatchInv := by
  simp only [stepSupervisor] at stepped
  split at stepped
  · rename_i exited
    obtain rfl := Option.some.inj stepped
    have empty := inv id sup here
    rw [Sound, exited] at empty
    intro x other found
    simp only [getElem?_erase_eq] at found
    split_ifs at found with gone
    have sound := inv x other found
    unfold Sound at sound ⊢
    cases shape : other.activity with
    | parked task call target =>
        simp only [shape] at sound ⊢
        obtain ⟨callee, message, there, holds, reply, chain⟩ := sound
        refine ⟨callee, message, ?_, holds, reply, chain⟩
        rw [getElem?_erase_eq, if_neg, there]
        intro same
        subst same
        obtain rfl := Option.some.inj (here.symm.trans there)
        rcases holds with queued | serving
        · rw [empty] at queued
          cases queued
        · rw [exited] at serving
          cases serving
    | sending task handle message => simpa only [shape] using sound
    | exited => simpa only [shape] using sound
    | idle | backoff | running task => trivial
  · cases stepped

theorem DispatchInv.stepSupervisor (inv : s.DispatchInv) (here : s.instances[id]? = some sup)
    (action : SupervisorAction) (stepped : s.stepSupervisor id sup action = some s') :
    s'.DispatchInv := by
  cases action with
  | enter => exact inv.enter here stepped
  | receive => exact inv.receive here stepped
  | refuse => exact inv.refuse here stepped
  | restart => exact inv.restart here stepped
  | call target command args => exact inv.call here stepped
  | enqueue => exact inv.enqueue here stepped
  | timeout => exact inv.timeout here stepped
  | finish trapped => exact inv.finish here stepped
  | exit => exact inv.exit here stepped
  | reap => exact inv.reap here stepped

end Supervised

theorem DispatchInv.step {s s' : CallSystem} (inv : s.DispatchInv) (action : DispatchAction)
    (stepped : s.step action = some s') : s'.DispatchInv := by
  cases action with
  | start id requested granted =>
      simp only [CallSystem.step] at stepped
      split_ifs at stepped with present
      obtain rfl := Option.some.inj stepped
      refine DispatchInv.congr (s := s.set id ⟨s.nextControl, [], .running .entry, requested, granted⟩)
        ?_ rfl
      refine inv.set _ ?_ trivial
      intro before found
      rw [Std.TreeMap.getElem?_eq_none present] at found
      cases found
  | services write =>
      obtain rfl := Option.some.inj stepped
      exact inv.congr rfl
  | execute id => exact inv.post stepped
  | stop id => exact inv.post stepped
  | supervisor id action =>
      simp only [CallSystem.step] at stepped
      split at stepped
      · cases stepped
      · rename_i sup here
        exact inv.stepSupervisor here action stepped

theorem dispatchInv_new : new.DispatchInv := by
  intro id sup here
  simp [new] at here

theorem dispatchInv_run {s : CallSystem} {actions : List DispatchAction}
    (run : exec step new actions = some s) : s.DispatchInv :=
  exec_invariant (fun _ action _ inv stepped => inv.step action stepped) dispatchInv_new run

/-! ## Edges of the wait-for graph -/

theorem waitsFor_eq {s : CallSystem} {id : String} {sup : Supervisor}
    (here : s.instances[id]? = some sup) : s.waitsFor id = sup.activity.awaits := by
  rw [waitsFor, here]
  rfl

theorem waitsFor_set (s : CallSystem) (id x : String) (sup : Supervisor) :
    (s.set id sup).waitsFor x = if id = x then sup.activity.awaits else s.waitsFor x := by
  rw [waitsFor, set_get]
  split_ifs <;> rfl

theorem waitsFor_congr {s s' : CallSystem} (same : s'.instances = s.instances) :
    s'.waitsFor = s.waitsFor := by
  funext id
  rw [waitsFor, waitsFor, same]

theorem waitsFor_parked {s : CallSystem} {id target : String} (waits : s.waitsFor id = some target) :
    ∃ sup task call, s.instances[id]? = some sup ∧ sup.activity = .parked task call target := by
  obtain ⟨sup, here, awaits⟩ := Option.bind_eq_some_iff.mp waits
  unfold Activity.awaits at awaits
  split at awaits
  · rename_i task call other parked
    obtain rfl := Option.some.inj awaits
    exact ⟨sup, task, call, here, parked⟩
  · cases awaits

theorem callers_eq {s : CallSystem} {id : String} {sup : Supervisor} {t : Task}
    (here : s.instances[id]? = some sup) (driving : sup.activity.serving = t.service?) :
    s.callers id = t.callStack.map (·.callerInstance) := by
  rw [callers, here, Option.bind_some, driving]
  cases t <;> rfl

theorem queued_or_served {s : CallSystem} (inv : s.DispatchInv) (caller target : String)
    (waits : s.waitsFor caller = some target) : s.Served caller target ∨ s.Queued caller target := by
  obtain ⟨sup, task, call, here, parked⟩ := waitsFor_parked waits
  have sound := inv caller sup here
  rw [Sound, parked] at sound
  obtain ⟨callee, message, there, queued | serving, reply, chain⟩ := sound
  · exact Or.inr ⟨sup, task, call, callee, message, here, parked, there, queued, reply⟩
  · apply Or.inl
    have mine : s.callers caller = task.callStack.map (·.callerInstance) := by
      apply callers_eq here
      rw [parked]
      rfl
    have theirs : s.callers target = message.chain.map (·.callerInstance) :=
      callers_eq there (t := .service message) serving
    rw [Served, mine, theirs]
    rw [chain, List.map_append]
    rfl

theorem callers_grow {s : CallSystem} {a b : String} (path : ReflTransGen s.Served a b) :
    b = a ∨ a ∈ s.callers b := by
  have grown : b = a ∨ ∃ rest, s.callers b = s.callers a ++ a :: rest := by
    induction path with
    | refl => exact Or.inl rfl
    | @tail b c _ served ih =>
        right
        rw [Served] at served
        rcases ih with rfl | ⟨rest, callers⟩
        · exact ⟨[], served⟩
        · exact ⟨rest ++ [b], by rw [served, callers, List.append_assoc, List.cons_append]⟩
  refine grown.imp (fun same => same) fun ⟨rest, callers⟩ => ?_
  rw [callers]
  exact List.mem_append_right _ List.mem_cons_self

theorem not_served_back {s : CallSystem} {id target : String} {sup : Supervisor} {task : Task}
    {message : ExecuteService} (here : s.instances[id]? = some sup)
    (driving : sup.activity.serving = task.service?) (sendable : Sendable id task target message) :
    ¬ ReflTransGen s.Served target id := by
  intro path
  rcases callers_grow path with same | mem
  · exact sendable.other same
  · rw [callers_eq here driving] at mem
    obtain ⟨frame, within, same⟩ := List.mem_map.mp mem
    exact sendable.offChain frame within same

/-! ## Steps -/

def Shrinks (s s' : CallSystem) : Prop := ∀ a b, s'.waitsFor a = some b → s.waitsFor a = some b

theorem Shrinks.of_eq {s s' : CallSystem} (same : s'.instances = s.instances) : s.Shrinks s' := by
  intro a b waits
  rwa [waitsFor_congr same] at waits

theorem Shrinks.trans {s s' s'' : CallSystem} (first : s.Shrinks s') (second : s'.Shrinks s'') :
    s.Shrinks s'' := fun a b waits => first a b (second a b waits)

theorem Shrinks.set {s : CallSystem} {id : String} {after : Supervisor}
    (still : ∀ target, after.activity.awaits = some target → s.waitsFor id = some target) :
    s.Shrinks (s.set id after) := by
  intro a b waits
  rw [waitsFor_set] at waits
  split_ifs at waits with same
  · subst same
    exact still b waits
  · exact waits

theorem Shrinks.settleAll (s : CallSystem) (messages : List ExecuteService) :
    s.Shrinks (s.settleAll messages) := by
  intro a b waits
  obtain ⟨after, task, call, found, parked⟩ := waitsFor_parked waits
  rw [settleAll_get] at found
  obtain ⟨sup, here, rfl⟩ := Option.map_eq_some_iff.mp found
  rw [waitsFor_eq here]
  rcases sup.heard_eq a messages with same | ⟨_, _, _, _, woken⟩
  · rw [same] at parked
    rw [parked]
    rfl
  · rw [woken] at parked
    cases parked

theorem Shrinks.close (s : CallSystem) (id : String) (sup : Supervisor) :
    s.Shrinks (s.close id sup) :=
  (Shrinks.set fun _ waits => by cases waits).trans (Shrinks.settleAll _ _)

theorem Shrinks.post {s posted : CallSystem} {id : String} {command : ControlCommand}
    (sent : s.post id command = some posted) : s.Shrinks posted := by
  obtain ⟨sup, here, _, rfl⟩ := post_eq sent
  exact Shrinks.set fun target waits => by rw [waitsFor_eq here]; exact waits

theorem Shrinks.free {s : CallSystem} {id : String} {after : Supervisor}
    (free : after.activity.awaits = none) : s.Shrinks (s.set id after) :=
  Shrinks.set fun target waits => by rw [free] at waits; cases waits

theorem Shrinks.enqueue {s s' : CallSystem} {id : String} {sup : Supervisor}
    (here : s.instances[id]? = some sup)
    (idle : ∀ task handle message, ¬ s.Delivers id sup task handle message)
    (stepped : s.stepSupervisor id sup .enqueue = some s') : s.Shrinks s' := by
  simp only [stepSupervisor] at stepped
  split at stepped
  · rename_i task handle message sending
    rw [if_neg fun reached => idle task handle message ⟨here, sending, reached⟩] at stepped
    obtain rfl := Option.some.inj stepped
    exact (Shrinks.free rfl).trans (Shrinks.of_eq rfl)
  · cases stepped

theorem Shrinks.stepSupervisor {s s' : CallSystem} {id : String} {sup : Supervisor}
    (here : s.instances[id]? = some sup) {action : SupervisorAction}
    (idle : ∀ task handle message, action = .enqueue → ¬ s.Delivers id sup task handle message)
    (stepped : s.stepSupervisor id sup action = some s') : s.Shrinks s' := by
  cases action with
  | enqueue => exact Shrinks.enqueue here (fun task handle message => idle task handle message rfl) stepped
  | enter | restart =>
      simp only [CallSystem.stepSupervisor] at stepped
      split at stepped
      · obtain rfl := Option.some.inj stepped
        exact Shrinks.free rfl
      · cases stepped
  | receive =>
      simp only [CallSystem.stepSupervisor] at stepped
      split at stepped
      · obtain rfl := Option.some.inj stepped
        exact Shrinks.free rfl
      · cases stepped
  | refuse =>
      simp only [CallSystem.stepSupervisor] at stepped
      split at stepped
      · obtain rfl := Option.some.inj stepped
        exact Shrinks.close s id sup
      · rename_i backoff _
        obtain rfl := Option.some.inj stepped
        refine (Shrinks.free ?_).trans (Shrinks.settleAll _ _)
        show sup.activity.awaits = none
        rw [backoff]
        rfl
      · cases stepped
  | call target command args =>
      simp only [CallSystem.stepSupervisor] at stepped
      split at stepped
      · split at stepped
        · obtain rfl := Option.some.inj stepped
          exact Shrinks.of_eq rfl
        · rename_i task _ _ handle chain services _
          obtain rfl := Option.some.inj stepped
          let message : ExecuteService := ⟨chain, target, command, args, ⟨id, s.nextCall⟩⟩
          let sending : Supervisor := { sup with activity := .sending task handle message }
          have free : s.Shrinks (s.set id sending) := Shrinks.free rfl
          exact free.trans (Shrinks.of_eq rfl)
      · cases stepped
  | timeout =>
      simp only [CallSystem.stepSupervisor] at stepped
      split at stepped
      · obtain rfl := Option.some.inj stepped
        exact (Shrinks.free rfl).trans (Shrinks.of_eq rfl)
      · obtain rfl := Option.some.inj stepped
        exact Shrinks.free rfl
      · cases stepped
  | finish trapped =>
      simp only [CallSystem.stepSupervisor] at stepped
      split at stepped
      · obtain rfl := Option.some.inj stepped
        exact Shrinks.close s id sup
      · obtain rfl := Option.some.inj stepped
        refine (Shrinks.free ?_).trans (Shrinks.settleAll _ _)
        cases trapped <;> rfl
      · cases stepped
  | exit =>
      simp only [CallSystem.stepSupervisor] at stepped
      split at stepped
      · obtain rfl := Option.some.inj stepped
        exact Shrinks.close s id sup
      · obtain rfl := Option.some.inj stepped
        exact Shrinks.close s id sup
      · cases stepped
  | reap =>
      simp only [CallSystem.stepSupervisor] at stepped
      split at stepped
      · obtain rfl := Option.some.inj stepped
        intro a b waits
        simp only [waitsFor, getElem?_erase_eq] at waits ⊢
        split_ifs at waits with gone
        · cases waits
        · exact waits
      · cases stepped

theorem Shrinks.step {s s' : CallSystem} {action : DispatchAction}
    (idle : ∀ caller sup task handle message, action = .supervisor caller .enqueue →
      ¬ s.Delivers caller sup task handle message) (stepped : s.step action = some s') :
    s.Shrinks s' := by
  cases action with
  | start id requested granted =>
      simp only [CallSystem.step] at stepped
      split_ifs at stepped with present
      obtain rfl := Option.some.inj stepped
      let fresh : Supervisor := ⟨s.nextControl, [], .running .entry, requested, granted⟩
      have free : s.Shrinks (s.set id fresh) := Shrinks.free rfl
      exact free.trans (Shrinks.of_eq rfl)
  | services write =>
      obtain rfl := Option.some.inj stepped
      exact Shrinks.of_eq rfl
  | execute id => exact Shrinks.post stepped
  | stop id => exact Shrinks.post stepped
  | supervisor id action =>
      simp only [CallSystem.step] at stepped
      split at stepped
      · cases stepped
      · rename_i sup here
        exact Shrinks.stepSupervisor here
          (fun task handle message same => idle id sup task handle message (by rw [same])) stepped

theorem waitsFor_deliver {s s' : CallSystem} {caller : String}
    {sup : Supervisor} {task : Task} {handle : InstanceHandle} {message : ExecuteService}
    (delivers : s.Delivers caller sup task handle message)
    (stepped : s.step (.supervisor caller .enqueue) = some s') :
    s'.waitsFor caller = some handle.instanceId ∧
      ∀ id, id ≠ caller → s'.waitsFor id = s.waitsFor id := by
  obtain ⟨here, sending, reached⟩ := delivers
  simp only [CallSystem.step, here, CallSystem.stepSupervisor, sending, reached, if_true] at stepped
  obtain ⟨posted, sent, rfl⟩ := Option.map_eq_some_iff.mp stepped
  obtain ⟨callee, there, _, rfl⟩ := post_eq sent
  constructor
  · rw [waitsFor_set, if_pos rfl]
    rfl
  · intro id other
    rw [waitsFor_set, if_neg (Ne.symm other), waitsFor_set]
    split_ifs with same
    · subst same
      exact (waitsFor_eq there).symm
    · rfl

theorem deadlocked_step_iff {s s' : CallSystem} (inv : s.DispatchInv) (clear : ¬ s.Deadlocked)
    {action : DispatchAction} (stepped : s.step action = some s') :
    s'.Deadlocked ↔ s.Crosses action := by
  by_cases delivering : ∃ caller sup task handle message, action = .supervisor caller .enqueue ∧
      s.Delivers caller sup task handle message
  · obtain ⟨caller, sup, task, handle, message, rfl, delivers⟩ := delivering
    have sendable : Sendable caller task handle.instanceId message := by
      have sound := inv caller sup delivers.here
      rwa [Sound, delivers.sending] at sound
    have free : s.waitsFor caller = none := by
      rw [waitsFor_eq delivers.here, delivers.sending]
      rfl
    obtain ⟨added, others⟩ := waitsFor_deliver delivers stepped
    rw [Deadlocked, waitCycle_add free others added]
    rw [Deadlocked] at clear
    rw [or_iff_right clear]
    constructor
    · intro path
      refine ⟨caller, sup, task, handle, message, rfl, delivers, ?_⟩
      refine (reaches_split (queued_or_served inv) path).resolve_left ?_
      exact not_served_back delivers.here (by rw [delivers.sending]; rfl) sendable
    · intro crosses
      obtain ⟨_, _, _, _, _, same, delivers', x, y, first, queued, rest⟩ := crosses
      cases same
      obtain rfl := Option.some.inj (delivers.here.symm.trans delivers'.here)
      have sent := delivers.sending.symm.trans delivers'.sending
      cases sent
      obtain ⟨parked, _, _, _, _, found, activity, _⟩ := queued
      have edge : Waits s.waitsFor x y := by
        rw [Waits, waitsFor_eq found, activity]
        rfl
      exact (first.tail edge).trans rest
  · have fewer : s.Shrinks s' := by
      refine Shrinks.step ?_ stepped
      intro caller sup task handle message same delivers
      exact delivering ⟨caller, sup, task, handle, message, same, delivers⟩
    constructor
    · intro cycle
      exact absurd (WaitCycle.mono fewer cycle) clear
    · intro crosses
      obtain ⟨caller, sup, task, handle, message, same, delivers, _⟩ := crosses
      exact absurd ⟨caller, sup, task, handle, message, same, delivers⟩ delivering

theorem not_deadlocked_new : ¬ new.Deadlocked := by
  intro ⟨id, around⟩
  obtain ⟨other, edge⟩ : ∃ other, Waits new.waitsFor id other := by
    rcases TransGen.head'_iff.mp around with ⟨other, edge, _⟩
    exact ⟨other, edge⟩
  simp [Waits, waitsFor, new] at edge

theorem noDeadlock_iff_noCrossing (actions : List DispatchAction) :
    (∀ before, before <+: actions → ∀ s, exec step new before = some s → ¬ s.Deadlocked) ↔
      ∀ before action, before ++ [action] <+: actions → ∀ s s', exec step new before = some s →
        s.step action = some s' → ¬ s.Crosses action :=
  exec_faultless not_deadlocked_new
    (fun _ _ _ _ run clear stepped => deadlocked_step_iff (dispatchInv_run run) clear stepped)
    actions

/-- Two ticks call each other's service, and each enqueues before the other's mailbox is read. -/
def crossingCalls : List DispatchAction :=
  [.start "lamp" grants grants, .start "scene" grants grants,
    .services (.register "lamp" "lights" ⟨"dim", "Dim", [], []⟩),
    .services (.register "scene" "scenes" ⟨"set", "Set", [], []⟩),
    .supervisor "lamp" (.finish false), .supervisor "scene" (.finish false),
    .supervisor "lamp" .enter, .supervisor "scene" .enter,
    .supervisor "lamp" (.call "svc-1" "run" []), .supervisor "scene" (.call "svc-0" "run" []),
    .supervisor "lamp" .enqueue, .supervisor "scene" .enqueue]
where
  grants : List ServiceGrant :=
    [⟨"lights", "*", "dim", ["*"], "*"⟩, ⟨"scenes", "*", "set", ["*"], "*"⟩]

theorem crossing_calls_deadlock :
    ¬ ∀ actions s, exec step new actions = some s → ¬ s.Deadlocked := by
  intro never
  have reached : (exec step new crossingCalls).any (fun s =>
      s.waitsFor "lamp" = some "scene" && s.waitsFor "scene" = some "lamp") = true := by
    decide +kernel
  obtain ⟨s, run, waits⟩ := (Option.any_eq_true _ _).mp reached
  obtain ⟨there, back⟩ : s.waitsFor "lamp" = some "scene" ∧ s.waitsFor "scene" = some "lamp" := by
    simpa using waits
  exact never crossingCalls s run ⟨"lamp", .tail (.single there) back⟩

end CallSystem

end OxidHome.Dispatch

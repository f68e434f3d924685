import OxidHome.Host.Publish
import OxidHome.Events.Arrivals
import OxidHome.History.Tail

/-!
# Live order and durable order

A call of `publish_event` holds `publish_sequence` from before its commit until its fan-out is
done. So the rows and the publishes of the bus come in one order, and at most one row is committed
and not offered yet.
-/

namespace OxidHome.Host
open Wit Library History Projection Events
open Std (TreeMap)

structure Publication where
  row : EventRow
  event : Event
  stamped : event.rowId = some row.id
  payload : row.payload = EventLog.serializePayload event.payload
  device : row.deviceId = event.device
  instanceId : row.instanceId = event.originInstanceId
  pluginId : row.pluginId = event.originPluginId
  topic : row.topic = EventLog.topicOf event

def stateChanged (ev : Event) : Bool :=
  match ev.payload with
  | .stateChanged _ => true
  | .button _ | .inference _ | .custom _ => false

namespace Publication

/-- What is done for the row before it is offered to the bus. -/
def unoffered (p : Publication) : List Mark :=
  .committed p.row.id :: if stateChanged p.event then [.applied p.row.id] else []

def marks (p : Publication) : List Mark := p.unoffered ++ [.offered p.row.id]

end Publication

inductive Begun : List Publication → List Mark → Prop where
  | nothing : Begun [] []
  | row (p : Publication) : Begun [p] [.committed p.row.id]
  | delta (p : Publication) : Begun [p] p.unoffered

/-- What a step does to the projection. -/
inductive Projects (s : PublishRun) (a : PublishAction) (u : PublishRun) : Prop where
  | others (m : Mutation) : a = .mutate m → u.inner = s.inner.mutate m → u.journal = s.journal →
      Projects s a u
  | nothing : u.inner = s.inner → (∀ id, u.journal ≠ s.journal ++ [.applied id]) → Projects s a u
  /-- The mark is made with the delta of the row. -/
  | delta (p : Publication) (deviceId : DeviceId) (sc : StateChange) (nowMs : Int) :
      p.row ∈ s.log.rows → deltaOf p.event = some (deviceId, sc) →
      u.journal = s.journal ++ [.applied p.row.id] →
      u.inner = s.inner.applyDelta deviceId p.row.instanceId sc.capability sc.fields
        p.event.timestamp nowMs → Projects s a u

/-- In every state the rows since the start have been offered in their order, each with what it
carries, but for the one whose call holds the gate. -/
structure LiveOrder (log : EventLog) (s : PublishRun) : Prop where
  order : ∃ (published pending : List Publication) (begun : List Mark),
    s.log.rows = log.rows ++ (published ++ pending).map (·.row) ∧
    s.run.bus.publishes.map (·.event) = published.map (·.event) ∧
    s.journal = published.flatMap Publication.marks ++ begun ∧
    Begun pending begun ∧ (s.gate = none → pending = [])
  projects : ∀ byteLen a u, publishStep byteLen s a = some u → Projects s a u
  received : ∀ id, ((s.run.receivedBy id).map (·.event)).Sublist
    (s.run.bus.publishes.map (·.event))
  increasing : (∀ row ∈ s.log.rows.dropLast, row.id < I64_MAX) → ∀ id, ∃ ids : List Nat,
    (s.run.receivedBy id).map (·.event.rowId) = ids.map some ∧ ids.Pairwise (· < ·)

/-! ## The log -/

theorem recordPrepared_ok {log log' : EventLog} {nowMs : Int} {event : Event}
    {instanceId pluginId : String} {blob : Json} {pick rowId : Nat}
    (stored : log.recordPrepared nowMs event instanceId pluginId blob pick = .ok (rowId, log')) :
    rowId = log.newRowid pick ∧ log'.rows = log.rows ++ [⟨rowId, nowMs,
      min event.timestamp.toNat I64_MAX, event.device, instanceId, pluginId,
      EventLog.topicOf event, blob⟩] := by
  simp only [EventLog.recordPrepared] at stored
  split at stored
  · cases stored
    exact ⟨rfl, rfl⟩
  · cases stored

theorem lt_newRowid {log : EventLog} (room : ∀ row ∈ log.rows, row.id < I64_MAX) (pick : Nat) :
    ∀ row ∈ log.rows, row.id < log.newRowid pick := by
  intro row mem
  obtain ⟨top, here, largest, le⟩ := LogRun.largest_of_mem mem
  simp only [EventLog.newRowid, largest, Option.getD_some]
  rw [if_pos (room top here)]
  omega

/-- `INTEGER PRIMARY KEY` grows until an id has reached `i64::MAX`. -/
def Ascending (start rows : List EventRow) : Prop :=
  (∀ row ∈ rows.dropLast, row.id < I64_MAX) →
    ∃ new, rows = start ++ new ∧ new.Pairwise (·.id < ·.id)

theorem Ascending.commit {start : List EventRow} {log log' : EventLog} {nowMs : Int} {event : Event}
    {instanceId pluginId : String} {blob : Json} {pick rowId : Nat}
    (ascending : Ascending start log.rows)
    (stored : log.recordPrepared nowMs event instanceId pluginId blob pick = .ok (rowId, log')) :
    Ascending start log'.rows := by
  obtain ⟨given, rows⟩ := recordPrepared_ok stored
  intro room
  rw [rows, List.dropLast_concat] at room
  obtain ⟨new, split, increasing⟩ := ascending fun row mem => room row (List.mem_of_mem_dropLast mem)
  refine ⟨_, rows.trans ((congrArg (· ++ _) split).trans (List.append_assoc _ _ _)), ?_⟩
  apply List.pairwise_append.mpr
  refine ⟨increasing, List.pairwise_singleton _ _, fun row mem last here => ?_⟩
  obtain rfl := List.mem_singleton.mp here
  have below := lt_newRowid room pick row (split ▸ List.mem_append_right start mem)
  exact given ▸ below

/-! ## The stages of a call -/

namespace PublishStage

def holds : PublishStage → Bool
  | .recording | .failed _ | .recorded _ | .projected _ | .fanningOut _ => true
  | .admitting | .checking | .waiting | .returned _ => false

def owing : PublishStage → Bool
  | .recorded _ | .projected _ => true
  | _ => false

def done : PublishStage → Bool
  | .returned _ => true
  | _ => false

end PublishStage

structure PublishCall.Sound (call : PublishCall) : Prop where
  instanceId : call.event.originInstanceId = call.instanceId
  pluginId : call.event.originPluginId = call.pluginId
  attributed : call.stage.done = false → (deltaOf call.event).isSome = stateChanged call.event

def PublishCall.Sound.publication {call : PublishCall} (sound : call.Sound) (nowMs : Int)
    (rowId : Nat) : Publication where
  row := ⟨rowId, nowMs, min call.event.timestamp.toNat I64_MAX, call.event.device,
    call.instanceId, call.pluginId, EventLog.topicOf call.event,
    EventLog.serializePayload call.event.payload⟩
  event := { call.event with rowId := some rowId }
  stamped := rfl
  payload := rfl
  device := rfl
  instanceId := sound.instanceId.symm
  pluginId := sound.pluginId.symm
  topic := rfl

inductive Owed (calls : List PublishCall) : List Publication → List Mark → Prop where
  | nothing : (∀ call ∈ calls, call.stage.owing = false) → Owed calls [] []
  | row (p : Publication) (c : Nat) (call : PublishCall) : calls[c]? = some call →
      call.stage = .recorded p.row.id → p.event = { call.event with rowId := some p.row.id } →
      Owed calls [p] [.committed p.row.id]
  | delta (p : Publication) (c : Nat) (call : PublishCall) : calls[c]? = some call →
      call.stage = .projected p.row.id → p.event = { call.event with rowId := some p.row.id } →
      Owed calls [p] p.unoffered

structure PublishInv (log : EventLog) (s : PublishRun) : Prop where
  bus : BusInv s.run
  inOrder : s.run.InOrder
  ascending : Ascending log.rows s.log.rows
  sound : ∀ call ∈ s.calls, call.Sound
  held : ∀ (c : Nat) call, s.calls[c]? = some call → call.stage.holds = true → s.gate = some c
  newest : ∀ (c : Nat) call p, s.calls[c]? = some call → call.stage = .fanningOut p →
    p + 1 = s.run.bus.publishes.length
  order : ∃ published pending begun,
    s.log.rows = log.rows ++ (published ++ pending).map Publication.row ∧
    s.run.bus.publishes.map (·.event) = published.map Publication.event ∧
    s.journal = published.flatMap Publication.marks ++ begun ∧ Owed s.calls pending begun

theorem PublishInv.start (devices : DeviceRegistry) (log : EventLog) (inner : StoreInner) :
    PublishInv log (.start devices log inner) where
  bus := BusInv.new
  inOrder := BusRun.inOrder_new
  ascending := fun _ => ⟨[], by simp [PublishRun.start], List.Pairwise.nil⟩
  sound := by simp [PublishRun.start]
  held := by simp [PublishRun.start]
  newest := by simp [PublishRun.start]
  order := ⟨[], [], [], by simp [PublishRun.start], rfl, rfl, .nothing (by simp [PublishRun.start])⟩

/-! ## What is owed -/

namespace Owed
variable {calls : List PublishCall} {pending : List Publication} {begun : List Mark} {c : Nat}
  {call : PublishCall}

theorem append (owed : Owed calls pending begun) (idle : call.stage.owing = false) :
    Owed (calls ++ [call]) pending begun := by
  cases owed with
  | nothing all =>
      apply Owed.nothing
      intro other mem
      rcases List.mem_append.mp mem with old | last
      · exact all other old
      · exact List.mem_singleton.mp last ▸ idle
  | row p c other found stage event =>
      have bound := (List.getElem?_eq_some_iff.mp found).1
      exact .row p c other ((List.getElem?_append_left bound).trans found) stage event
  | delta p c other found stage event =>
      have bound := (List.getElem?_eq_some_iff.mp found).1
      exact .delta p c other ((List.getElem?_append_left bound).trans found) stage event

theorem set (owed : Owed calls pending begun) (found : calls[c]? = some call)
    (idle : call.stage.owing = false) {call' : PublishCall} (idle' : call'.stage.owing = false) :
    Owed (calls.set c call') pending begun := by
  have other : ∀ (d : Nat) owner, calls[d]? = some owner → owner.stage.owing = true →
      (calls.set c call')[d]? = some owner := by
    intro d owner at_d owes
    rw [List.getElem?_set_ne]
    · exact at_d
    · rintro rfl
      obtain rfl := Option.some.inj (found.symm.trans at_d)
      rw [idle] at owes
      cases owes
  cases owed with
  | nothing all =>
      apply Owed.nothing
      intro owner mem
      rcases List.mem_or_eq_of_mem_set mem with old | rfl
      · exact all owner old
      · exact idle'
  | row p d owner at_d stage event =>
      exact .row p d owner (other d owner at_d (by rw [stage]; rfl)) stage event
  | delta p d owner at_d stage event =>
      exact .delta p d owner (other d owner at_d (by rw [stage]; rfl)) stage event

end Owed

/-! ## Every step keeps the order -/

namespace PublishInv
variable {log : EventLog} {s : PublishRun} {c : Nat} {call : PublishCall}

theorem holder_idle (inv : PublishInv log s) (found : s.calls[c]? = some call)
    (holds : call.stage.holds = true) {d : Nat} {other : PublishCall}
    (at_d : s.calls[d]? = some other) (owes : other.stage.owing = true) : c = d := by
  have own := inv.held c call found holds
  have held : other.stage.holds = true := by
    cases stage : other.stage <;> simp_all [PublishStage.owing, PublishStage.holds]
  exact Option.some.inj (own.symm.trans (inv.held d other at_d held))

theorem sound_set (inv : PublishInv log s) (found : s.calls[c]? = some call)
    (live : call.stage.done = false) (stage : PublishStage) :
    ∀ other ∈ s.calls.set c { call with stage := stage }, other.Sound := by
  have sound := inv.sound call (List.mem_of_getElem? found)
  intro other mem
  rcases mem_set found mem with rfl | old
  · exact ⟨sound.instanceId, sound.pluginId, fun _ => sound.attributed live⟩
  · exact inv.sound other old

theorem held_set (inv : PublishInv log s) (found : s.calls[c]? = some call)
    (own : s.gate = some c) (stage : PublishStage) :
    ∀ (d : Nat) other, (s.calls.set c { call with stage := stage })[d]? = some other →
      other.stage.holds = true → s.gate = some d := by
  intro d other at_d holds
  rcases (row_set found).mp at_d with ⟨rfl, rfl⟩ | ⟨_, old⟩
  · exact own
  · exact inv.held d other old holds

theorem newest_set (inv : PublishInv log s) (found : s.calls[c]? = some call)
    {stage : PublishStage} (inside : ∀ p, stage ≠ .fanningOut p) :
    ∀ (d : Nat) other p, (s.calls.set c { call with stage := stage })[d]? = some other →
      other.stage = .fanningOut p → p + 1 = s.run.bus.publishes.length := by
  intro d other p at_d fanning
  rcases (row_set found).mp at_d with ⟨rfl, rfl⟩ | ⟨_, old⟩
  · exact absurd fanning (inside p)
  · exact inv.newest d other p old fanning

theorem quiet (inv : PublishInv log s) (found : s.calls[c]? = some call)
    (idle : call.stage.owing = false) {stage : PublishStage} (idle' : stage.owing = false)
    (attributed : stage.done = false → call.stage.done = false)
    (inside : ∀ p, stage ≠ .fanningOut p) (gate : Option Nat)
    (others : ∀ d, d ≠ c → s.gate = some d → gate = some d) (own : stage.holds = true → gate = some c)
    (rateLimiters : TreeMap String RateLimiter) :
    PublishInv log ({ s with gate := gate, rateLimiters := rateLimiters }.setStage c call stage) where
  bus := inv.bus
  inOrder := inv.inOrder
  ascending := inv.ascending
  sound := by
    intro other mem
    rcases mem_set found mem with rfl | old
    · have sound := inv.sound call (List.mem_of_getElem? found)
      exact ⟨sound.instanceId, sound.pluginId, fun live => sound.attributed (attributed live)⟩
    · exact inv.sound other old
  held := by
    intro d other at_d holds
    rcases (row_set found).mp at_d with ⟨rfl, rfl⟩ | ⟨apart, old⟩
    · exact own holds
    · exact others d (Ne.symm apart) (inv.held d other old holds)
  newest := inv.newest_set found inside
  order := by
    obtain ⟨published, pending, begun, rows, events, journal, owed⟩ := inv.order
    exact ⟨published, pending, begun, rows, events, journal, owed.set found idle idle'⟩

theorem onRun (inv : PublishInv log s) {a : BusAction} {run : BusRun}
    (newest : ∀ p, a = .deliver p → p + 1 = s.run.bus.publishes.length)
    (quiet : ∀ event eventId snapshot, a ≠ .beginPublish event eventId snapshot)
    (taken : busStep s.run a = some run) : PublishInv log { s with run := run } := by
  have events : run.bus.publishes.map (·.event) = s.run.bus.publishes.map (·.event) := by
    rcases BusRun.busStep_events taken with same | ⟨event, eventId, snapshot, begin_, _⟩
    · exact same
    · exact absurd begin_ (quiet event eventId snapshot)
  have lengths : run.bus.publishes.length = s.run.bus.publishes.length := by
    simpa using congrArg List.length events
  obtain ⟨published, pending, begun, rows, published_events, journal, owed⟩ := inv.order
  exact { inv with
    bus := inv.bus.step taken
    inOrder := inv.inOrder.step inv.bus newest taken
    newest := fun d other p at_d fanning => (inv.newest d other p at_d fanning).trans lengths.symm
    order := ⟨published, pending, begun, rows, events.trans published_events, journal, owed⟩ }

theorem commit (inv : PublishInv log s) (found : s.calls[c]? = some call)
    (stage : call.stage = .recording) {nowMs : Int} {pick rowId : Nat} {stored : EventLog}
    (recorded : s.log.recordPrepared nowMs call.event call.instanceId call.pluginId
      (EventLog.serializePayload call.event.payload) pick = .ok (rowId, stored)) :
    PublishInv log ({ s with log := stored, journal := s.journal ++ [Mark.committed rowId] }.setStage c
      call (.recorded rowId)) := by
  have own := inv.held c call found (by rw [stage]; rfl)
  have sound := inv.sound call (List.mem_of_getElem? found)
  obtain ⟨_, appended⟩ := recordPrepared_ok recorded
  refine ⟨inv.bus, inv.inOrder, inv.ascending.commit recorded,
    inv.sound_set found (by rw [stage]; rfl) _, inv.held_set found own _,
    inv.newest_set found (by simp), ?_⟩
  · obtain ⟨published, pending, begun, rows, events, journal, owed⟩ := inv.order
    have idle : ∀ {d : Nat} {other : PublishCall}, s.calls[d]? = some other →
        other.stage.owing = false := by
      intro d other at_d
      by_contra owes
      obtain rfl := inv.holder_idle found (by rw [stage]; rfl) at_d (Bool.not_eq_false _ ▸ owes)
      obtain rfl := Option.some.inj (found.symm.trans at_d)
      exact owes (by rw [stage]; rfl)
    obtain ⟨rfl, rfl⟩ : pending = [] ∧ begun = [] := by
      cases owed with
      | nothing => exact ⟨rfl, rfl⟩
      | row p d other at_d staged =>
          have free := idle at_d
          rw [staged] at free
          cases free
      | delta p d other at_d staged =>
          have free := idle at_d
          rw [staged] at free
          cases free
    refine ⟨published, [sound.publication nowMs rowId], [.committed rowId], ?_, events, ?_, ?_⟩
    · rw [List.append_nil] at rows
      simp [PublishRun.setStage, appended, rows, PublishCall.Sound.publication]
    · simp [PublishRun.setStage, journal]
    · apply Owed.row (sound.publication nowMs rowId) c { call with stage := .recorded rowId }
      · exact (row_set found).mpr (.inl ⟨rfl, rfl⟩)
      · rfl
      · rfl

theorem recorded (inv : PublishInv log s) (found : s.calls[c]? = some call) {rowId : Nat}
    (stage : call.stage = .recorded rowId) : ∃ published p,
      s.log.rows = log.rows ++ (published ++ [p]).map Publication.row ∧
      s.run.bus.publishes.map (·.event) = published.map Publication.event ∧
      s.journal = published.flatMap Publication.marks ++ [.committed p.row.id] ∧
      p.row.id = rowId ∧ p.event = { call.event with rowId := some p.row.id } := by
  have holds : call.stage.holds = true := by rw [stage]; rfl
  obtain ⟨published, pending, begun, rows, events, journal, owed⟩ := inv.order
  cases owed with
  | nothing all =>
      have free := all call (List.mem_of_getElem? found)
      rw [stage] at free
      cases free
  | row p d other at_d staged event =>
      obtain rfl := inv.holder_idle found holds at_d (by rw [staged]; rfl)
      obtain rfl := Option.some.inj (found.symm.trans at_d)
      have same := PublishStage.recorded.inj (stage.symm.trans staged)
      exact ⟨published, p, rows, events, journal, same.symm, event⟩
  | delta p d other at_d staged =>
      obtain rfl := inv.holder_idle found holds at_d (by rw [staged]; rfl)
      obtain rfl := Option.some.inj (found.symm.trans at_d)
      rw [stage] at staged
      cases staged

theorem project (inv : PublishInv log s) (found : s.calls[c]? = some call) {rowId : Nat}
    (stage : call.stage = .recorded rowId) (nowMs : Int) :
    PublishInv log (s.project c call rowId nowMs) := by
  have holds : call.stage.holds = true := by rw [stage]; rfl
  have live : call.stage.done = false := by rw [stage]; rfl
  have sound := inv.sound call (List.mem_of_getElem? found)
  obtain ⟨published, p, rows, events, journal, rfl, event⟩ := inv.recorded found stage
  refine ⟨inv.bus, inv.inOrder, inv.ascending, inv.sound_set found live _,
    inv.held_set found (inv.held c call found holds) _,
    inv.newest_set found (by simp), published, [p], p.unoffered, rows, events, ?_, ?_⟩
  · have same : stateChanged p.event = (deltaOf call.event).isSome := by
      rw [event, sound.attributed live]
      rfl
    show s.journal ++ _ = _
    rw [journal, Publication.unoffered, same, List.append_assoc, List.singleton_append]
  · apply Owed.delta p c { call with stage := .projected p.row.id }
    · exact (row_set found).mpr (.inl ⟨rfl, rfl⟩)
    · rfl
    · exact event

theorem project_projects (inv : PublishInv log s) (found : s.calls[c]? = some call) {rowId : Nat}
    (stage : call.stage = .recorded rowId) (a : PublishAction) (nowMs : Int) :
    Projects s a (s.project c call rowId nowMs) := by
  have sound := inv.sound call (List.mem_of_getElem? found)
  obtain ⟨published, p, rows, -, -, rfl, event⟩ := inv.recorded found stage
  have change : deltaOf p.event = deltaOf call.event := by rw [event]; rfl
  have owner : p.row.instanceId = call.instanceId := by
    rw [p.instanceId, event, ← sound.instanceId]
  have timestamp : p.event.timestamp = call.event.timestamp := by rw [event]
  cases delta : deltaOf call.event with
  | none =>
      refine .nothing ?_ ?_
      · simp only [PublishRun.project, PublishRun.setStage, projectDelta, delta]
      · simp [PublishRun.project, PublishRun.setStage, delta]
  | some change' =>
      obtain ⟨deviceId, sc⟩ := change'
      refine .delta p deviceId sc nowMs ?_ (change.trans delta) ?_ ?_
      · rw [rows, List.map_append, List.map_singleton]
        exact List.mem_append_right _ (List.mem_append_right _ (List.mem_singleton_self _))
      · simp only [PublishRun.project, PublishRun.setStage, delta, Option.isSome_some, if_true]
      · simp only [PublishRun.project, PublishRun.setStage, projectDelta, delta, owner, timestamp]

theorem turned_projects (inv : PublishInv log s) (found : s.calls[c]? = some call)
    (a : PublishAction) {u : PublishRun} (turned : Turned s c call u) : Projects s a u := by
  have silent : ∀ id, s.journal ≠ s.journal ++ [.applied id] := by simp
  cases turned with
  | admitted gained stage => exact .nothing rfl silent
  | checked stage =>
      simp only [PublishRun.check]
      split
      · exact .nothing rfl silent
      · exact .nothing rfl silent
  | locked | failed | gaveUp | delivered | signalling | signalled | finished =>
      exact .nothing rfl silent
  | committed => exact .nothing rfl (by simp [PublishRun.setStage])
  | projected rowId nowMs stage => exact inv.project_projects found stage a nowMs
  | offered => exact .nothing rfl (by simp [PublishRun.setStage])

theorem step_projects (inv : PublishInv log s) {byteLen : Json → Nat} {a : PublishAction}
    {u : PublishRun} (taken : publishStep byteLen s a = some u) : Projects s a u := by
  have silent : ∀ id, s.journal ≠ s.journal ++ [.applied id] := by simp
  cases a with
  | begin instanceId pluginId ev =>
      cases taken
      exact .nothing rfl silent
  | move c m =>
      simp only [publishStep] at taken
      split at taken
      · next call found => exact inv.turned_projects found _ (advance_turned taken)
      · cases taken
  | consumer b =>
      simp only [publishStep] at taken
      split at taken
      · obtain ⟨run, -, rfl⟩ := Option.map_eq_some_iff.mp taken
        exact .nothing rfl silent
      · cases taken
  | mutate m =>
      cases taken
      exact .others m rfl rfl rfl
  | register devices =>
      cases taken
      exact .nothing rfl silent

theorem offer (inv : PublishInv log s) (found : s.calls[c]? = some call) {rowId : Nat}
    (stage : call.stage = .projected rowId) {snapshot : List SubscriptionId} {run : BusRun}
    (begun : busStep s.run (.beginPublish call.event (some rowId) snapshot) = some run) :
    PublishInv log ({ s with
      run := run, journal := s.journal ++ [Mark.offered rowId] }.setStage c call
        (.fanningOut s.run.bus.publishes.length)) := by
  have holds : call.stage.holds = true := by rw [stage]; rfl
  have live : call.stage.done = false := by rw [stage]; rfl
  have own := inv.held c call found holds
  have added : run.bus.publishes.map (·.event) =
      s.run.bus.publishes.map (·.event) ++ [{ call.event with rowId := some rowId }] := by
    obtain ⟨bus, snapped, rfl⟩ := Option.map_eq_some_iff.mp begun
    obtain ⟨_, rfl⟩ := EventBus.beginPublish_eq_some.mp snapped
    simp
  have length : s.run.bus.publishes.length + 1 = run.bus.publishes.length := by
    simpa using (congrArg List.length added).symm
  refine ⟨inv.bus.step begun, inv.inOrder.step inv.bus (by simp) begun, inv.ascending,
    inv.sound_set found live _, inv.held_set found own _, ?_, ?_⟩
  · intro d other p at_d fanning
    rcases (row_set found).mp at_d with ⟨rfl, rfl⟩ | ⟨apart, old⟩
    · cases fanning
      exact length
    · have outside := inv.held d other old (by rw [fanning]; rfl)
      exact absurd (Option.some.inj (own.symm.trans outside)) apart
  · obtain ⟨published, pending, before, rows, events, journal, owed⟩ := inv.order
    cases owed with
    | nothing all =>
        have free := all call (List.mem_of_getElem? found)
        rw [stage] at free
        cases free
    | row p d other at_d staged =>
        obtain rfl := inv.holder_idle found holds at_d (by rw [staged]; rfl)
        obtain rfl := Option.some.inj (found.symm.trans at_d)
        rw [stage] at staged
        cases staged
    | delta p d other at_d staged event =>
        obtain rfl := inv.holder_idle found holds at_d (by rw [staged]; rfl)
        obtain rfl := Option.some.inj (found.symm.trans at_d)
        obtain rfl := PublishStage.projected.inj (stage.symm.trans staged)
        refine ⟨published ++ [p], [], [], ?_, ?_, ?_, ?_⟩
        · rw [List.append_nil]
          exact rows
        · show run.bus.publishes.map (·.event) = _
          rw [added, events, List.map_append, List.map_singleton, event]
        · show s.journal ++ _ = _
          rw [journal, List.flatMap_append, List.flatMap_singleton, Publication.marks]
          simp only [List.append_assoc, List.append_nil]
        · apply Owed.nothing
          intro owner mem
          obtain ⟨d, at_d⟩ := List.mem_iff_getElem?.mp mem
          rcases (row_set found).mp at_d with ⟨rfl, rfl⟩ | ⟨apart, old⟩
          · rfl
          · by_contra owes
            exact apart (inv.holder_idle found holds old (Bool.not_eq_false _ ▸ owes))

theorem turned (inv : PublishInv log s) (found : s.calls[c]? = some call) {u : PublishRun}
    (turned : Turned s c call u) : PublishInv log u := by
  have own : call.stage.holds = true → ∀ d, d ≠ c → s.gate = some d → none = some d := by
    intro holds d apart gate
    rw [inv.held c call found holds] at gate
    exact absurd (Option.some.inj gate).symm apart
  cases turned with
  | admitted gained stage =>
      have idle : call.stage.owing = false := by rw [stage]; rfl
      have live : call.stage.done = false := by rw [stage]; rfl
      simp only [PublishRun.admission]
      split
      · exact inv.quiet found idle rfl (fun _ => live) (by simp) s.gate (fun d _ gate => gate)
          (by simp [PublishStage.holds]) _
      · exact inv.quiet found idle rfl (fun _ => live) (by simp) s.gate (fun d _ gate => gate)
          (by simp [PublishStage.holds]) _
  | checked stage =>
      have idle : call.stage.owing = false := by rw [stage]; rfl
      have live : call.stage.done = false := by rw [stage]; rfl
      simp only [PublishRun.check]
      split
      · exact inv.quiet found idle rfl (fun _ => live) (by simp) s.gate (fun d _ gate => gate)
          (by simp [PublishStage.holds]) s.rateLimiters
      · exact inv.quiet found idle rfl (fun _ => live) (by simp) s.gate (fun d _ gate => gate)
          (by simp [PublishStage.holds]) s.rateLimiters
  | locked stage free =>
      exact inv.quiet found (by rw [stage]; rfl) rfl (fun _ => by rw [stage]; rfl) (by simp) (some c)
        (fun d _ gate => by rw [free] at gate; cases gate) (fun _ => rfl) s.rateLimiters
  | failed e stage =>
      exact inv.quiet found (by rw [stage]; rfl) rfl (fun _ => by rw [stage]; rfl) (by simp) s.gate
        (fun d _ gate => gate) (fun _ => inv.held c call found (by rw [stage]; rfl)) s.rateLimiters
  | committed nowMs pick rowId stored stage recorded =>
      exact inv.commit found stage recorded
  | gaveUp e stage =>
      exact inv.quiet found (by rw [stage]; rfl) rfl (fun _ => by rw [stage]; rfl) (by simp) none
        (own (by rw [stage]; rfl)) (by simp [PublishStage.holds]) s.rateLimiters
  | projected rowId nowMs stage => exact inv.project found stage nowMs
  | offered rowId snapshot run stage begun => exact inv.offer found stage begun
  | delivered p run stage delivered =>
      apply inv.onRun _ (by simp) delivered
      rintro q ⟨⟩
      exact inv.newest c call p found stage
  | signalling p order run stage begun => exact inv.onRun (by simp) (by simp) begun
  | signalled p run stage signalled => exact inv.onRun (by simp) (by simp) signalled
  | finished p stage =>
      exact inv.quiet found (by rw [stage]; rfl) rfl (fun _ => by rw [stage]; rfl) (by simp) none
        (own (by rw [stage]; rfl)) (by simp [PublishStage.holds]) s.rateLimiters

end PublishInv

theorem attributed_of_authorized {devices : DeviceRegistry} {instanceId : String} {ev : Event}
    (authorized : requirePublishAuthorized devices instanceId ev = .ok ()) :
    (deltaOf ev).isSome = stateChanged ev := by
  cases device : ev.device <;> cases payload : ev.payload <;>
    simp_all [requirePublishAuthorized, deltaOf, stateChanged]

theorem beginCall_sound (byteLen : Json → Nat) (s : PublishRun) (instanceId pluginId : String)
    (ev : Event) : (s.beginCall byteLen instanceId pluginId ev).Sound ∧
      (s.beginCall byteLen instanceId pluginId ev).stage.holds = false := by
  simp only [PublishRun.beginCall]
  split
  · exact ⟨⟨rfl, rfl, by simp [PublishStage.done]⟩, rfl⟩
  · next authorized =>
      split
      · exact ⟨⟨rfl, rfl, by simp [PublishStage.done]⟩, rfl⟩
      · exact ⟨⟨rfl, rfl, fun _ => attributed_of_authorized authorized⟩, rfl⟩

theorem PublishStage.owing_of_holds {stage : PublishStage} (free : stage.holds = false) :
    stage.owing = false := by
  cases stage <;> simp_all [holds, owing]

theorem PublishInv.step {byteLen : Json → Nat} {log : EventLog} {s u : PublishRun}
    {a : PublishAction} (inv : PublishInv log s) (taken : publishStep byteLen s a = some u) :
    PublishInv log u := by
  cases a with
  | begin instanceId pluginId ev =>
      cases taken
      obtain ⟨sound, free⟩ := beginCall_sound byteLen s instanceId pluginId ev
      obtain ⟨published, pending, begun, rows, events, journal, owed⟩ := inv.order
      refine { inv with sound := ?_, held := ?_, newest := ?_, order := ?_ }
      · intro call mem
        rcases List.mem_append.mp mem with old | last
        · exact inv.sound call old
        · exact List.mem_singleton.mp last ▸ sound
      · intro d other at_d holds
        rcases row_concat.mp at_d with old | ⟨_, rfl⟩
        · exact inv.held d other old holds
        · rw [free] at holds
          cases holds
      · intro d other p at_d fanning
        rcases row_concat.mp at_d with old | ⟨_, rfl⟩
        · exact inv.newest d other p old fanning
        · rw [fanning] at free
          cases free
      · exact ⟨published, pending, begun, rows, events, journal,
          owed.append (PublishStage.owing_of_holds free)⟩
  | move c m =>
      simp only [publishStep] at taken
      split at taken
      · next call found => exact inv.turned found (advance_turned taken)
      · cases taken
  | consumer a =>
      simp only [publishStep] at taken
      split at taken
      · next consumer =>
          obtain ⟨run, moved, rfl⟩ := Option.map_eq_some_iff.mp taken
          refine inv.onRun ?_ ?_ moved
          · rintro p rfl
            cases consumer
          · rintro event eventId snapshot rfl
            cases consumer
      · cases taken
  | mutate m =>
      cases taken
      exact { inv with }
  | register devices =>
      cases taken
      exact { inv with }

theorem PublishInv.liveOrder {log : EventLog} {s : PublishRun} (inv : PublishInv log s) :
    LiveOrder log s := by
  obtain ⟨published, pending, begun, rows, events, journal, owed⟩ := inv.order
  refine ⟨⟨published, pending, begun, rows, events, journal, ?_, ?_⟩,
    fun _ _ _ taken => inv.step_projects taken, inv.inOrder.received_sublist, ?_⟩
  · cases owed with
    | nothing => exact .nothing
    | row p => exact .row p
    | delta p => exact .delta p
  · intro free
    cases owed with
    | nothing => rfl
    | row p c call found stage =>
        have own := inv.held c call found (by rw [stage]; rfl)
        rw [free] at own
        cases own
    | delta p c call found stage =>
        have own := inv.held c call found (by rw [stage]; rfl)
        rw [free] at own
        cases own
  · intro room id
    obtain ⟨new, split, increasing⟩ := inv.ascending room
    obtain rfl : new = (published ++ pending).map Publication.row :=
      List.append_cancel_left (split.symm.trans rows)
    have received := inv.inOrder.received_sublist id
    rw [events] at received
    obtain ⟨got, within, same⟩ := List.sublist_map_iff.mp received
    refine ⟨got.map (·.row.id), ?_, ?_⟩
    · have stamps := congrArg (List.map (·.rowId)) same
      rw [List.map_map, List.map_map] at stamps
      rw [List.map_map]
      refine stamps.trans (List.map_congr_left fun p _ => p.stamped)
    · rw [List.pairwise_map] at increasing ⊢
      exact increasing.sublist (within.trans (List.sublist_append_left _ _))

/-! ## Calls that return an error -/

def PublishAction.actor (s : PublishRun) : PublishAction → Option Nat
  | .begin .. => some s.calls.length
  | .move c _ => some c
  | .consumer _ | .mutate _ | .register _ => none

/-- What a call of `instanceId` that fails may change: only the bucket of its instance. -/
structure Untouched (instanceId : String) (s u : PublishRun) : Prop where
  log : u.log = s.log
  inner : u.inner = s.inner
  run : u.run = s.run
  rateLimiters : ∀ other, other ≠ instanceId → u.rateLimiters[other]? = s.rateLimiters[other]?

def PublishStage.result : PublishStage → Option (Except Error Unit)
  | .returned result => some result
  | _ => none

def PublishStage.landed : PublishStage → Bool
  | .recorded _ | .projected _ | .fanningOut _ | .returned (.ok ()) => true
  | _ => false

structure Continues (call call' : PublishCall) : Prop where
  instanceId : call'.instanceId = call.instanceId
  landed : call.stage.landed = true → call'.stage.landed = true

theorem Turned.call {s u : PublishRun} {c : Nat} {call : PublishCall}
    (found : s.calls[c]? = some call) (turned : Turned s c call u) :
    ∃ call', u.calls = s.calls.set c call' ∧ Continues call call' ∧
      (Untouched call.instanceId s u ∨ call'.stage.landed = true) := by
  have stays : s.calls = s.calls.set c call := by
    have bound := (List.getElem?_eq_some_iff.mp found).1
    rw [← (List.getElem?_eq_some_iff.mp found).2, List.set_getElem_self]
  cases turned with
  | admitted gained stage =>
      simp only [PublishRun.admission]
      refine ⟨_, rfl, ⟨rfl, by simp [stage, PublishStage.landed]⟩, .inl ⟨rfl, rfl, rfl, ?_⟩⟩
      intro other apart
      exact getElem?_insert_ne _ _ (Ne.symm apart)
  | checked stage =>
      simp only [PublishRun.check]
      split
      · exact ⟨_, rfl, ⟨rfl, by simp [stage, PublishStage.landed]⟩, .inl ⟨rfl, rfl, rfl, fun _ _ => rfl⟩⟩
      · exact ⟨_, rfl, ⟨rfl, by simp [stage, PublishStage.landed]⟩, .inl ⟨rfl, rfl, rfl, fun _ _ => rfl⟩⟩
  | locked stage =>
      exact ⟨_, rfl, ⟨rfl, by simp [stage, PublishStage.landed]⟩, .inl ⟨rfl, rfl, rfl, fun _ _ => rfl⟩⟩
  | failed e stage =>
      exact ⟨_, rfl, ⟨rfl, by simp [stage, PublishStage.landed]⟩, .inl ⟨rfl, rfl, rfl, fun _ _ => rfl⟩⟩
  | committed => exact ⟨_, rfl, ⟨rfl, fun _ => rfl⟩, .inr rfl⟩
  | gaveUp e stage =>
      exact ⟨_, rfl, ⟨rfl, by simp [stage, PublishStage.landed]⟩, .inl ⟨rfl, rfl, rfl, fun _ _ => rfl⟩⟩
  | projected => exact ⟨_, rfl, ⟨rfl, fun _ => rfl⟩, .inr rfl⟩
  | offered => exact ⟨_, rfl, ⟨rfl, fun _ => rfl⟩, .inr rfl⟩
  | delivered p run stage => exact ⟨call, stays, ⟨rfl, id⟩, .inr (by rw [stage]; rfl)⟩
  | signalling p order run stage => exact ⟨call, stays, ⟨rfl, id⟩, .inr (by rw [stage]; rfl)⟩
  | signalled p run stage => exact ⟨call, stays, ⟨rfl, id⟩, .inr (by rw [stage]; rfl)⟩
  | finished => exact ⟨_, rfl, ⟨rfl, fun _ => rfl⟩, .inr rfl⟩

theorem publishStep_call {byteLen : Json → Nat} {s u : PublishRun} {a : PublishAction}
    (taken : publishStep byteLen s a = some u) {c : Nat} {call : PublishCall}
    (found : s.calls[c]? = some call) :
    ∃ call', u.calls[c]? = some call' ∧ Continues call call' := by
  cases a with
  | begin instanceId pluginId ev =>
      cases taken
      exact ⟨call, row_concat.mpr (.inl found), rfl, id⟩
  | move d m =>
      simp only [publishStep] at taken
      split at taken
      · next other at_d =>
          obtain ⟨other', calls, continues, _⟩ := (advance_turned taken).call at_d
          rw [calls]
          by_cases here : d = c
          · subst here
            obtain rfl := Option.some.inj (at_d.symm.trans found)
            exact ⟨other', (row_set at_d).mpr (.inl ⟨rfl, rfl⟩), continues⟩
          · exact ⟨call, (row_set at_d).mpr (.inr ⟨here, found⟩), rfl, id⟩
      · cases taken
  | consumer b =>
      simp only [publishStep] at taken
      split at taken
      · obtain ⟨run, _, rfl⟩ := Option.map_eq_some_iff.mp taken
        exact ⟨call, found, rfl, id⟩
      · cases taken
  | mutate m =>
      cases taken
      exact ⟨call, found, rfl, id⟩
  | register devices =>
      cases taken
      exact ⟨call, found, rfl, id⟩

theorem exec_call {byteLen : Json → Nat} {s u : PublishRun} {as : List PublishAction}
    (ran : exec (publishStep byteLen) s as = some u) {c : Nat} {call : PublishCall}
    (found : s.calls[c]? = some call) :
    ∃ call', u.calls[c]? = some call' ∧ Continues call call' := by
  induction as generalizing s call with
  | nil =>
      cases ran
      exact ⟨call, found, rfl, id⟩
  | cons a as ih =>
      obtain ⟨t, taken, rest⟩ := exec_cons.mp ran
      obtain ⟨mid, at_mid, first⟩ := publishStep_call taken found
      obtain ⟨last, at_last, later⟩ := ih rest at_mid
      exact ⟨last, at_last, later.instanceId.trans first.instanceId,
        fun landed => later.landed (first.landed landed)⟩

theorem failed_untouched {byteLen : Json → Nat} {s u v : PublishRun} {a : PublishAction}
    {after : List PublishAction} (taken : publishStep byteLen s a = some u)
    (ran : exec (publishStep byteLen) u after = some v) {c : Nat} (actor : a.actor s = some c)
    {call : PublishCall} {e : Error} (found : v.calls[c]? = some call)
    (failed : call.stage = .returned (.error e)) : Untouched call.instanceId s u := by
  have same : ∀ call', u.calls[c]? = some call' →
      call.instanceId = call'.instanceId ∧ call'.stage.landed = false := by
    intro call' at_c
    obtain ⟨last, at_last, continues⟩ := exec_call ran at_c
    obtain rfl := Option.some.inj (found.symm.trans at_last)
    refine ⟨continues.instanceId, ?_⟩
    by_contra landed
    have stuck := continues.landed (Bool.not_eq_false _ ▸ landed)
    rw [failed] at stuck
    cases stuck
  cases a with
  | begin instanceId pluginId ev =>
      cases taken
      exact ⟨rfl, rfl, rfl, fun _ _ => rfl⟩
  | move d m =>
      cases actor
      simp only [publishStep] at taken
      split at taken
      · next before at_c =>
          obtain ⟨call', calls, continues, untouched | landed⟩ := (advance_turned taken).call at_c
          · have here : u.calls[c]? = some call' := calls ▸ (row_set at_c).mpr (.inl ⟨rfl, rfl⟩)
            rw [(same call' here).1, continues.instanceId]
            exact untouched
          · have here : u.calls[c]? = some call' := calls ▸ (row_set at_c).mpr (.inl ⟨rfl, rfl⟩)
            rw [(same call' here).2] at landed
            cases landed
      · cases taken
  | consumer b => cases actor
  | mutate m => cases actor
  | register devices => cases actor

theorem live_order_durable_order {byteLen : Json → Nat} {devices : DeviceRegistry} {log : EventLog}
    {inner : StoreInner} {as : List PublishAction} {s : PublishRun}
    (ran : exec (publishStep byteLen) (.start devices log inner) as = some s) :
    LiveOrder log s ∧ ∀ before a after, as = before ++ a :: after →
      ∀ t u, exec (publishStep byteLen) (.start devices log inner) before = some t →
        publishStep byteLen t a = some u → ∀ c call e, a.actor t = some c →
          s.calls[c]? = some call → call.stage = .returned (.error e) →
            Untouched call.instanceId t u := by
  constructor
  · have inv : PublishInv log s := exec_invariant (fun _ _ _ inv taken => inv.step taken)
      (PublishInv.start devices log inner) ran
    exact inv.liveOrder
  · intro before a after split t u reached taken c call e actor found failed
    obtain ⟨t', first, rest⟩ := exec_append.mp (split ▸ ran)
    obtain rfl := Option.some.inj (reached.symm.trans first)
    obtain ⟨u', second, rest⟩ := exec_cons.mp rest
    obtain rfl := Option.some.inj (taken.symm.trans second)
    exact failed_untouched taken rest actor found failed

namespace PublishExample

def note : Event where
  device := none
  timestamp := 0
  originPluginId := ""
  originInstanceId := ""
  rowId := none
  payload := .custom ⟨"note", "on"⟩

def projection : StoreInner := .default (Vector.replicate 16 0) (Vector.replicate 32 0)

def calls (c : Nat) (instanceId : String) : List PublishAction :=
  [.begin instanceId "lamp" note, .move c (.admission 0), .move c .check, .move c .lock]

def publishes (c : Nat) (instanceId : String) (pick : Nat) : List PublishAction :=
  calls c instanceId ++ [.move c (.record 0 (.commits pick)), .move c (.project 0), .move c (.fanOut [1]),
    .move c .deliver, .move c (.beginSignal []), .move c .finish, .consumer (.receive 1)]

def fails (c : Nat) (instanceId : String) : List PublishAction :=
  calls c instanceId ++ [.move c (.record 0 (.fails "disk full")), .move c .giveUp]

def listening : PublishAction := .consumer (.subscribe ⟨none, none⟩ "tail")

def fullLog : EventLog where
  rows := [⟨I64_MAX, 0, 0, none, "hall", "lamp", "note", .null⟩]
  distinct := by simp
  positive := by simp [I64_MAX]
  bounded := by simp

end PublishExample

open PublishExample in
theorem live_order_example :
    ∃ s, exec (publishStep fun _ => 0) (.start .new .empty projection)
        (listening :: publishes 0 "hall" 0 ++ fails 1 "attic") = some s ∧
      LiveOrder .empty s ∧ (s.run.receivedBy 1).map (·.event.rowId) = [some 1] := by
  have computed : (exec (publishStep fun _ => 0) (.start .new .empty projection)
      (listening :: publishes 0 "hall" 0 ++ fails 1 "attic")).map
        (fun s => (s.run.receivedBy 1).map (·.event.rowId)) = some [some 1] := by
    decide +kernel
  obtain ⟨s, ran, ids⟩ := Option.map_eq_some_iff.mp computed
  exact ⟨s, ran, (live_order_durable_order ran).1, ids⟩

open PublishExample in
theorem failed_publish_spends_a_token :
    (exec (publishStep fun _ => 0) (.start .new .empty projection) (fails 0 "hall")).map
        (fun s => (s.calls.map (·.stage.result), (s.rateLimiters["hall"]?).map (·.tokens))) =
      some ([some (.error (.internal "event_log: write failed: disk full"))], some 63) ∧
    (exec (publishStep fun _ => 0) (.start .new fullLog projection)
        (listening :: publishes 0 "hall" 7 ++ publishes 1 "attic" 3)).map
        (fun s => (s.run.receivedBy 1).map (·.event.rowId)) = some [some 7, some 3] := by
  decide +kernel

end OxidHome.Host

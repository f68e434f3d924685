import OxidHome.Library.Tables
import OxidHome.Events.Lag

/-!
# The order of arrivals

Where only the newest publish is still visiting subscribers, every subscriber receives its messages
in the order of the publishes.
-/

namespace OxidHome.Events
open Wit Library

namespace BusRun

def queueOf (run : BusRun) (id : SubscriptionId) : List SubscriberMessage :=
  match run.bus.slots[id]? with
  | some sub => sub.queue
  | none => []

def arrivals (run : BusRun) (id : SubscriptionId) : List Event :=
  (run.receivedBy id ++ run.queueOf id).map (·.event)

def reached (id : SubscriptionId) (call : Publish) : List Event :=
  if id ∈ call.visited then [call.event] else []

def reachedEvents (run : BusRun) (id : SubscriptionId) : List Event :=
  (run.bus.publishes.map (reached id)).flatten

def InOrder (run : BusRun) : Prop := ∀ id, (run.arrivals id).Sublist (run.reachedEvents id)

variable {run next : BusRun}

theorem reachedEvents_sublist (run : BusRun) (id : SubscriptionId) :
    (run.reachedEvents id).Sublist (run.bus.publishes.map (·.event)) := by
  unfold reachedEvents
  induction run.bus.publishes with
  | nil => exact List.Sublist.slnil
  | cons call calls ih =>
      simp only [List.map_cons, List.flatten_cons, reached]
      split
      · exact ih.cons_cons call.event
      · exact ih.cons call.event

theorem InOrder.received_sublist (inOrder : run.InOrder) (id : SubscriptionId) :
    ((run.receivedBy id).map (·.event)).Sublist (run.bus.publishes.map (·.event)) := by
  have arrived : ((run.receivedBy id).map (·.event)).Sublist (run.arrivals id) :=
    (List.sublist_append_left _ _).map _
  exact (arrived.trans (inOrder id)).trans (run.reachedEvents_sublist id)

theorem inOrder_new : InOrder .new := by
  intro id
  simp [arrivals, receivedBy, queueOf, BusRun.new, EventBus.new]

theorem InOrder.mono (inOrder : run.InOrder) (received : next.received = run.received)
    (queues : ∀ id, (next.queueOf id).Sublist (run.queueOf id))
    (publishes : ∀ id, next.reachedEvents id = run.reachedEvents id) : next.InOrder := by
  intro id
  have same : next.receivedBy id = run.receivedBy id := by
    simp only [receivedBy, received]
  rw [publishes, arrivals, same]
  apply List.Sublist.trans _ (inOrder id)
  exact ((List.Sublist.refl _).append (queues id)).map _

theorem queueOf_insert (run : BusRun) (id : SubscriptionId) (sub : Subscriber)
    (slots : next.bus.slots = run.bus.slots.insert id sub) (other : SubscriptionId) :
    next.queueOf other = if id = other then sub.queue else run.queueOf other := by
  simp only [queueOf, slots, getElem?_insert_eq]
  by_cases here : id = other
  · simp [here]
  · simp [here]

theorem InOrder.subscribe (inOrder : run.InOrder) (filter : EventFilter) (label : String) :
    InOrder { run with bus := run.bus.subscribeLabeled filter label } := by
  apply inOrder.mono
  · rfl
  · intro id
    rw [queueOf_insert run run.bus.nextSubscription (.new filter label) rfl]
    split
    · exact List.nil_sublist _
    · exact List.Sublist.refl _
  · exact fun id => rfl

theorem InOrder.dropReceiver (inOrder : run.InOrder) (id : SubscriptionId) :
    InOrder { run with bus := run.bus.dropReceiver id } := by
  unfold EventBus.dropReceiver
  cases found : run.bus.slots[id]? with
  | none => exact inOrder
  | some sub =>
      apply inOrder.mono
      · rfl
      · intro other
        rw [queueOf_insert run id { sub with queue := [], closed := true } rfl]
        split
        · exact List.nil_sublist _
        · exact List.Sublist.refl _
      · exact fun other => rfl

theorem InOrder.receive (inOrder : run.InOrder) {id : SubscriptionId} {bus : EventBus}
    {message : SubscriberMessage} (received : run.bus.receive id = some (bus, message)) :
    InOrder { run with bus := bus, received := run.received ++ [(id, message)] } := by
  obtain ⟨sub, rest, found, queue, rfl⟩ := EventBus.receive_eq_some.mp received
  intro other
  have before := inOrder other
  show List.Sublist _ (run.reachedEvents other)
  simp only [arrivals, receivedBy, List.filter_append, List.map_append] at before ⊢
  rw [queueOf_insert run id { sub with queue := rest } rfl]
  by_cases here : id = other
  · subst here
    simpa [queueOf, found, queue] using before
  · simpa [here] using before

theorem InOrder.beginPublish (inOrder : run.InOrder) {event : Event} {eventId : Option Nat}
    {snapshot : List SubscriptionId} {bus : EventBus}
    (begun : run.bus.beginPublish event eventId snapshot = some bus) :
    InOrder { run with bus := bus } := by
  obtain ⟨_, rfl⟩ := EventBus.beginPublish_eq_some.mp begun
  apply inOrder.mono
  · rfl
  · exact fun id => List.Sublist.refl _
  · intro id
    simp [reachedEvents, reached]

theorem InOrder.signals (inOrder : run.InOrder) {p : Nat} {call : Publish}
    (found : run.bus.publishes[p]? = some call) (signals : Option (List WakeId)) :
    InOrder { run with bus := { run.bus with
      publishes := run.bus.publishes.set p { call with signals := signals } } } := by
  apply inOrder.mono
  · rfl
  · exact fun id => List.Sublist.refl _
  · intro id
    show List.flatten ((run.bus.publishes.set p _).map (reached id)) = _
    rw [map_set_same (reached id) { call with signals := signals } found rfl, reachedEvents]

theorem reachedEvents_visit {p : Nat} {call : Publish} {id : SubscriptionId}
    {rest : List SubscriptionId} (found : run.bus.publishes[p]? = some call)
    (last : p + 1 = run.bus.publishes.length) (fresh : id ∉ call.visited) (sent : Bool)
    (publishes : next.bus.publishes = run.bus.publishes.set p (call.visit id rest sent))
    (other : SubscriptionId) :
    next.reachedEvents other =
      run.reachedEvents other ++ if id = other then [call.event] else [] := by
  unfold reachedEvents
  rw [publishes]
  by_cases here : id = other
  · subst here
    obtain ⟨bound, at_p⟩ := List.getElem?_eq_some_iff.mp found
    have split : run.bus.publishes = run.bus.publishes.take p ++ [call] := by
      rw [← at_p, List.take_concat_get' _ p bound, last, List.take_length]
    have small : (run.bus.publishes.take p).length = p := List.length_take_of_le bound.le
    have result : run.bus.publishes.set p (call.visit id rest sent) =
        run.bus.publishes.take p ++ [call.visit id rest sent] := by
      conv_lhs => rw [split]
      rw [List.set_append_right _ _ small.le, small, Nat.sub_self]
      rfl
    rw [result]
    conv_rhs => rw [split]
    simp [reached, Publish.visit, fresh]
  · have same : reached other (call.visit id rest sent) = reached other call := by
      simp [reached, Publish.visit, Ne.symm here]
    rw [map_set_same (reached other) _ found same]
    simp [here]

theorem InOrder.deliver (inOrder : run.InOrder) {p : Nat} {bus : EventBus} {offer : Option Offer}
    (visits : ∀ call ∈ run.bus.publishes, (call.visited ++ call.remaining).Nodup)
    (last : p + 1 = run.bus.publishes.length)
    (delivered : run.bus.deliver p = some (bus, offer)) :
    InOrder { run with bus := bus, offers := run.offers ++ offer.toList } := by
  obtain ⟨call, id, rest, sub, found, remaining, at_id, result⟩ :=
    EventBus.deliver_eq_some.mp delivered
  have fresh : id ∉ call.visited := by
    have nodup := visits call (List.mem_of_getElem? found)
    rw [remaining] at nodup
    intro seen
    exact List.disjoint_of_nodup_append nodup seen List.mem_cons_self
  intro other
  have before := inOrder other
  rcases result with ⟨_, _, rfl⟩ | ⟨_, _, rfl⟩
  · rw [reachedEvents_visit found last fresh false rfl other]
    exact before.trans (List.sublist_append_left _ _)
  · rw [reachedEvents_visit found last fresh (sub.offer call.event).1.sent rfl other]
    simp only [arrivals, receivedBy] at before ⊢
    rw [queueOf_insert run id (sub.offer call.event).2 rfl]
    by_cases here : id = other
    · subst here
      simp only [queueOf, at_id] at before
      rw [if_pos rfl, if_pos rfl]
      rcases sub.offer_queue call.event with ⟨m, _, event, queue⟩ | ⟨_, queue⟩
      · rw [queue, ← List.append_assoc, List.map_append]
        refine before.append ?_
        simp [event]
      · rw [queue]
        exact before.trans (List.sublist_append_left _ _)
    · simpa [here] using before

theorem InOrder.step {a : BusAction} (inOrder : run.InOrder) (inv : BusInv run)
    (newest : ∀ p, a = .deliver p → p + 1 = run.bus.publishes.length)
    (taken : busStep run a = some next) : next.InOrder := by
  cases a with
  | subscribe filter label =>
      cases taken
      exact inOrder.subscribe filter label
  | registerWake filter notify =>
      simp only [busStep] at taken
      split at taken
      · cases taken
      · cases taken
        exact inOrder
  | dropReceiver id =>
      cases taken
      exact inOrder.dropReceiver id
  | dropWake wake =>
      simp only [busStep] at taken
      split at taken
      · cases taken
      · cases taken
        exact inOrder
  | dropSlot id =>
      cases taken
      exact inOrder
  | receive id =>
      obtain ⟨⟨bus, message⟩, received, rfl⟩ := Option.map_eq_some_iff.mp taken
      exact inOrder.receive received
  | beginPublish event eventId snapshot =>
      obtain ⟨bus, begun, rfl⟩ := Option.map_eq_some_iff.mp taken
      exact inOrder.beginPublish begun
  | deliver p =>
      obtain ⟨⟨bus, offer⟩, delivered, rfl⟩ := Option.map_eq_some_iff.mp taken
      exact inOrder.deliver (fun call mem => (inv.visits call mem).1) (newest p rfl) delivered
  | beginSignal p order =>
      obtain ⟨bus, begun, rfl⟩ := Option.map_eq_some_iff.mp taken
      obtain ⟨call, found, _, _, _, rfl⟩ := EventBus.beginSignal_eq_some.mp begun
      exact inOrder.signals found (some order)
  | signal p =>
      obtain ⟨⟨bus, notified⟩, signalled, rfl⟩ := Option.map_eq_some_iff.mp taken
      obtain ⟨call, wake, rest, found, _, _, rfl⟩ := EventBus.signal_eq_some.mp signalled
      exact inOrder.signals found (some rest)

theorem busStep_events {a : BusAction} (taken : busStep run a = some next) :
    next.bus.publishes.map (·.event) = run.bus.publishes.map (·.event) ∨
      ∃ event eventId snapshot, a = .beginPublish event eventId snapshot ∧
        next.bus.publishes.map (·.event) =
          run.bus.publishes.map (·.event) ++ [{ event with rowId := eventId }] := by
  cases a with
  | subscribe filter label =>
      cases taken
      exact Or.inl rfl
  | registerWake filter notify =>
      simp only [busStep] at taken
      split at taken
      · cases taken
      · cases taken
        exact Or.inl rfl
  | dropReceiver id =>
      cases taken
      left
      show (run.bus.dropReceiver id).publishes.map (·.event) = _
      unfold EventBus.dropReceiver
      split <;> rfl
  | dropWake wake =>
      simp only [busStep] at taken
      split at taken
      · cases taken
      · cases taken
        exact Or.inl rfl
  | dropSlot id =>
      cases taken
      exact Or.inl rfl
  | receive id =>
      obtain ⟨⟨bus, message⟩, received, rfl⟩ := Option.map_eq_some_iff.mp taken
      obtain ⟨sub, rest, _, _, rfl⟩ := EventBus.receive_eq_some.mp received
      exact Or.inl rfl
  | beginPublish event eventId snapshot =>
      obtain ⟨bus, begun, rfl⟩ := Option.map_eq_some_iff.mp taken
      obtain ⟨_, rfl⟩ := EventBus.beginPublish_eq_some.mp begun
      right
      exact ⟨event, eventId, snapshot, rfl, by simp⟩
  | deliver p =>
      obtain ⟨⟨bus, offer⟩, delivered, rfl⟩ := Option.map_eq_some_iff.mp taken
      obtain ⟨call, id, rest, sub, found, _, _, ⟨_, _, rfl⟩ | ⟨_, _, rfl⟩⟩ :=
        EventBus.deliver_eq_some.mp delivered
      · exact Or.inl (map_set_same _ (call.visit id rest false) found rfl)
      · exact Or.inl (map_set_same _ (call.visit id rest (sub.offer call.event).1.sent) found rfl)
  | beginSignal p order =>
      obtain ⟨bus, begun, rfl⟩ := Option.map_eq_some_iff.mp taken
      obtain ⟨call, found, _, _, _, rfl⟩ := EventBus.beginSignal_eq_some.mp begun
      exact Or.inl (map_set_same _ { call with signals := some order } found rfl)
  | signal p =>
      obtain ⟨⟨bus, notified⟩, signalled, rfl⟩ := Option.map_eq_some_iff.mp taken
      obtain ⟨call, wake, rest, found, _, _, rfl⟩ := EventBus.signal_eq_some.mp signalled
      exact Or.inl (map_set_same _ { call with signals := some rest } found rfl)

end BusRun

end OxidHome.Events

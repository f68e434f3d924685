import OxidHome.Wit
import OxidHome.Library.TreeMaps

/-!
# The event bus

`EventBus` of `state/events.rs`, one function a critical section. A call of `publish_with_id` is a
record of how far it has come: the snapshot it still has to visit, then the wakes it still has to
signal. Every visit runs under the subscriber's `send_gate`, so it is one step. Counters do not wrap.
-/

namespace OxidHome.Events
open Wit Library
open Std (TreeMap)

abbrev SubscriptionId := Nat
abbrev WakeId := Nat
abbrev NotifyId := Nat

def SUBSCRIBER_CAPACITY : Nat := 256

def topicOf (event : Event) : String :=
  match event.payload with
  | .stateChanged sc => sc.capability
  | .button _ => "button"
  | .inference _ => "inference"
  | .custom c => c.topic

def filterMatches (filter : EventFilter) (event : Event) : Bool :=
  (match filter.device with
    | some device => event.device = some device
    | none => true) &&
  match filter.topic with
  | some topic =>
      match event.payload with
      | .custom c => topic.toList.isPrefixOf c.topic.toList
      | _ => topicOf event = topic
  | none => true

structure SubscriberMessage where
  event : Event
  skippedBefore : Nat
deriving DecidableEq

/-- `Subscriber` with its channel; `closed` once the receiver is dropped. -/
structure Subscriber where
  filter : EventFilter
  label : String
  queue : List SubscriberMessage
  closed : Bool
  dropped : Nat
  pendingLag : Nat

inductive Attempt where
  | enqueued (message : SubscriberMessage)
  | full
  | closed
deriving DecidableEq

def Attempt.sent : Attempt → Bool
  | .enqueued _ => true
  | .full | .closed => false

namespace Subscriber

def new (filter : EventFilter) (label : String) : Subscriber where
  filter := filter
  label := label
  queue := []
  closed := false
  dropped := 0
  pendingLag := 0

def trySend (sub : Subscriber) (message : SubscriberMessage) : Attempt :=
  if sub.closed then .closed
  else if sub.queue.length ≥ SUBSCRIBER_CAPACITY then .full
  else .enqueued message

/-- The section under `send_gate`: claim the pending lag, send, and put it back on a full queue. -/
def offer (sub : Subscriber) (event : Event) : Attempt × Subscriber :=
  let claimed := sub.pendingLag
  let sub := { sub with pendingLag := 0 }
  let attempt := sub.trySend ⟨event, claimed⟩
  match attempt with
  | .enqueued message => (attempt, { sub with queue := sub.queue ++ [message] })
  | .full =>
      (attempt, { sub with
        pendingLag := sub.pendingLag + (claimed + 1), dropped := sub.dropped + 1 })
  | .closed => (attempt, sub)

@[simp] theorem offer_filter (sub : Subscriber) (event : Event) :
    (sub.offer event).2.filter = sub.filter := by
  simp only [offer]
  split <;> rfl

@[simp] theorem offer_closed (sub : Subscriber) (event : Event) :
    (sub.offer event).2.closed = sub.closed := by
  simp only [offer]
  split <;> rfl

theorem offer_queue (sub : Subscriber) (event : Event) :
    (∃ m, (sub.offer event).1 = .enqueued m ∧ m.event = event ∧
        (sub.offer event).2.queue = sub.queue ++ [m]) ∨
      (sub.offer event).1.sent = false ∧ (sub.offer event).2.queue = sub.queue := by
  by_cases closed : sub.closed
  · exact Or.inr (by simp [offer, trySend, closed, Attempt.sent])
  · by_cases full : sub.queue.length ≥ SUBSCRIBER_CAPACITY
    · exact Or.inr (by simp [offer, trySend, closed, full, Attempt.sent])
    · exact Or.inl (by simp [offer, trySend, closed, full])

end Subscriber

structure WakeEntry where
  filter : EventFilter
  notify : NotifyId

/-- A call of `publish_with_id`. `signals` is `none` until `signal_wakes` is reached, then the entries
it has not notified yet. -/
structure Publish where
  event : Event
  visited : List SubscriptionId
  remaining : List SubscriptionId
  delivered : List SubscriptionId
  signals : Option (List WakeId)

/-- One turn of the loop over the snapshot; `delivered` lists what the source only counts. -/
def Publish.visit (call : Publish) (id : SubscriptionId) (rest : List SubscriptionId)
    (sent : Bool) : Publish :=
  { call with
    visited := call.visited ++ [id]
    remaining := rest
    delivered := if sent then call.delivered ++ [id] else call.delivered }

/-- The subscribers live on behind their `Arc` after they leave the registry. -/
structure EventBus where
  slots : TreeMap SubscriptionId Subscriber
  subscribers : List SubscriptionId
  nextSubscription : Nat
  wakes : TreeMap WakeId WakeEntry
  nextWake : Nat
  publishes : List Publish

structure Offer where
  subscription : SubscriptionId
  publish : Nat
  event : Event
  attempt : Attempt
deriving DecidableEq

namespace EventBus

def new : EventBus where
  slots := ∅
  subscribers := []
  nextSubscription := 1
  wakes := ∅
  nextWake := 1
  publishes := []

def subscribeLabeled (bus : EventBus) (filter : EventFilter) (label : String) : EventBus :=
  { bus with
    nextSubscription := bus.nextSubscription + 1
    slots := bus.slots.insert bus.nextSubscription (.new filter label)
    subscribers := bus.nextSubscription :: bus.subscribers }

/-- The first half of `subscribe_with_wake`. -/
def registerWake (bus : EventBus) (filter : EventFilter) (notify : NotifyId) : EventBus :=
  { bus with
    nextWake := bus.nextWake + 1
    wakes := bus.wakes.insert bus.nextWake ⟨filter, notify⟩ }

/-! Dropping an `EventSubscription` drops the receiver, the `WakeToken` and the `SubscriberToken`. -/

def dropReceiver (bus : EventBus) (id : SubscriptionId) : EventBus :=
  match bus.slots[id]? with
  | none => bus
  | some sub => { bus with slots := bus.slots.insert id { sub with queue := [], closed := true } }

def dropWake (bus : EventBus) (wake : WakeId) : EventBus := { bus with wakes := bus.wakes.erase wake }

def dropSlot (bus : EventBus) (id : SubscriptionId) : EventBus :=
  { bus with subscribers := bus.subscribers.erase id }

def receive (bus : EventBus) (id : SubscriptionId) : Option (EventBus × SubscriberMessage) :=
  match bus.slots[id]? with
  | none => none
  | some sub =>
    match sub.queue with
    | [] => none
    | message :: rest =>
      some ({ bus with slots := bus.slots.insert id { sub with queue := rest } }, message)

/-- The snapshot lists the registry in the order of the hash map, which can be any. -/
def beginPublish (bus : EventBus) (event : Event) (eventId : Option Nat)
    (snapshot : List SubscriptionId) : Option EventBus :=
  if snapshot.isPerm bus.subscribers then
    some { bus with
      publishes := bus.publishes ++
        [{ event := { event with rowId := eventId }, visited := [], remaining := snapshot
           delivered := [], signals := none }] }
  else none

def deliver (bus : EventBus) (p : Nat) : Option (EventBus × Option Offer) :=
  match bus.publishes[p]? with
  | none => none
  | some call =>
    match call.remaining with
    | [] => none
    | id :: rest =>
      match bus.slots[id]? with
      | none => none
      | some sub =>
        if filterMatches sub.filter call.event then
          let (attempt, sub) := sub.offer call.event
          some ({ bus with
            slots := bus.slots.insert id sub
            publishes := bus.publishes.set p (call.visit id rest attempt.sent) },
            some ⟨id, p, call.event, attempt⟩)
        else some ({ bus with publishes := bus.publishes.set p (call.visit id rest false) }, none)

/-- `signal_wakes` takes the read lock of the wake registry; the order is again the hash map's. -/
def beginSignal (bus : EventBus) (p : Nat) (order : List WakeId) : Option EventBus :=
  match bus.publishes[p]? with
  | none => none
  | some call =>
    if call.remaining = [] ∧ call.signals = none ∧ order.isPerm bus.wakes.keys then
      some { bus with publishes := bus.publishes.set p { call with signals := some order } }
    else none

def notified (bus : EventBus) (wake : WakeId) (event : Event) : Option NotifyId :=
  match bus.wakes[wake]? with
  | some entry => if filterMatches entry.filter event then some entry.notify else none
  | none => none

def signal (bus : EventBus) (p : Nat) : Option (EventBus × Option NotifyId) :=
  match bus.publishes[p]? with
  | none => none
  | some call =>
    match call.signals with
    | some (wake :: rest) =>
      some ({ bus with publishes := bus.publishes.set p { call with signals := some rest } },
        bus.notified wake call.event)
    | _ => none

/-- Some publish is inside `signal_wakes`, so the wake registry cannot be written. -/
def wakesLocked (bus : EventBus) : Bool :=
  bus.publishes.any fun call => call.signals.any (!·.isEmpty)

variable {bus bus' : EventBus}

theorem receive_eq_some {id : SubscriptionId} {message : SubscriberMessage} :
    bus.receive id = some (bus', message) ↔
      ∃ sub rest, bus.slots[id]? = some sub ∧ sub.queue = message :: rest ∧
        bus' = { bus with slots := bus.slots.insert id { sub with queue := rest } } := by
  unfold receive
  constructor
  · intro received
    split at received
    · cases received
    · next sub found =>
      split at received
      · cases received
      · next m rest queue =>
        cases received
        exact ⟨sub, rest, found, queue, rfl⟩
  · intro ⟨sub, rest, found, queue, result⟩
    simp only [found, queue, result]

theorem receive_eq_none {id : SubscriptionId} :
    bus.receive id = none ↔ ∀ sub, bus.slots[id]? = some sub → sub.queue = [] := by
  unfold receive
  cases found : bus.slots[id]? with
  | none => simp
  | some sub => cases queue : sub.queue <;> simp [queue]

theorem beginPublish_eq_some {event : Event} {eventId : Option Nat}
    {snapshot : List SubscriptionId} :
    bus.beginPublish event eventId snapshot = some bus' ↔
      snapshot.Perm bus.subscribers ∧
        bus' = { bus with
          publishes := bus.publishes ++
            [{ event := { event with rowId := eventId }, visited := [], remaining := snapshot
               delivered := [], signals := none }] } := by
  unfold beginPublish
  rw [Option.ite_none_right_eq_some, List.isPerm_iff]
  exact and_congr_right fun _ => ⟨fun h => (Option.some.inj h).symm, fun h => congrArg some h.symm⟩

theorem deliver_eq_some {p : Nat} {offer : Option Offer} :
    bus.deliver p = some (bus', offer) ↔
      ∃ call id rest sub, bus.publishes[p]? = some call ∧ call.remaining = id :: rest ∧
        bus.slots[id]? = some sub ∧
        (filterMatches sub.filter call.event = false ∧ offer = none ∧
            bus' = { bus with publishes := bus.publishes.set p (call.visit id rest false) } ∨
          filterMatches sub.filter call.event = true ∧
            offer = some ⟨id, p, call.event, (sub.offer call.event).1⟩ ∧
            bus' = { bus with
              slots := bus.slots.insert id (sub.offer call.event).2
              publishes :=
                bus.publishes.set p (call.visit id rest (sub.offer call.event).1.sent) }) := by
  unfold deliver
  constructor
  · intro delivered
    split at delivered
    · cases delivered
    · next call found =>
      split at delivered
      · cases delivered
      · next id rest remaining =>
        split at delivered
        · cases delivered
        · next sub at_id =>
          refine ⟨call, id, rest, sub, found, remaining, at_id, ?_⟩
          split at delivered
          · next hit =>
              cases delivered
              exact Or.inr ⟨hit, rfl, rfl⟩
          · next miss =>
              cases delivered
              exact Or.inl ⟨Bool.not_eq_true _ ▸ miss, rfl, rfl⟩
  · intro ⟨call, id, rest, sub, found, remaining, at_id, result⟩
    simp only [found, remaining, at_id]
    rcases result with ⟨miss, rfl, rfl⟩ | ⟨hit, rfl, rfl⟩
    · simp [miss]
    · simp [hit]

theorem beginSignal_eq_some {p : Nat} {order : List WakeId} :
    bus.beginSignal p order = some bus' ↔
      ∃ call, bus.publishes[p]? = some call ∧ call.remaining = [] ∧ call.signals = none ∧
        order.Perm bus.wakes.keys ∧
        bus' = { bus with publishes := bus.publishes.set p { call with signals := some order } } := by
  unfold beginSignal
  cases found : bus.publishes[p]? with
  | none => simp
  | some call =>
      simp only [Option.ite_none_right_eq_some, Option.some.injEq, List.isPerm_iff, and_assoc,
        exists_eq_left', eq_comm (b := bus')]

theorem signal_eq_some {p : Nat} {notified : Option NotifyId} :
    bus.signal p = some (bus', notified) ↔
      ∃ call wake rest, bus.publishes[p]? = some call ∧ call.signals = some (wake :: rest) ∧
        notified = bus.notified wake call.event ∧
        bus' = { bus with publishes := bus.publishes.set p { call with signals := some rest } } := by
  unfold signal
  constructor
  · intro signalled
    split at signalled
    · cases signalled
    · next call found =>
      split at signalled
      · next wake rest pending =>
          cases signalled
          exact ⟨call, wake, rest, found, pending, rfl, rfl⟩
      · cases signalled
  · intro ⟨call, wake, rest, found, pending, told, result⟩
    simp only [found, pending, told, result]

end EventBus

end OxidHome.Events

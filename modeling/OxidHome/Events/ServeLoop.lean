import OxidHome.Library.Machine
import OxidHome.Events.Bus

/-!
# Supervisors on the event bus

`serve_loop`, `drain_events` and the plugin's `subscribe` and `unsubscribe`, cut at every step that
another task can see. A supervisor has a fresh `Notify` for each life of its instance, and is named
by it. `Hub.holders` says who owns the `EventSubscription` of an id: only its owner can receive
from it or drop it. A `notified()` that `select!` drops hands its permit back, so an arm other than
the wake leaves the permit as it is.
-/

namespace OxidHome.Events
open Wit Library
open Std (TreeMap)

def MAX_SUBSCRIPTIONS_PER_INSTANCE : Nat := 64

structure EventSubscription where
  id : SubscriptionId
  filter : EventFilter
  wakeToken : WakeId

inductive Holder where
  | tail
  | plugin (wake : NotifyId)
deriving DecidableEq

structure Hub where
  bus : EventBus
  holders : TreeMap SubscriptionId Holder

inductive Drop where
  | receiver (id : SubscriptionId)
  | wakeToken (wake : WakeId)
  | slotToken (id : SubscriptionId)

def Drop.run (bus : EventBus) : Drop → Option EventBus
  | .receiver id => some (bus.dropReceiver id)
  | .wakeToken wake => if bus.wakesLocked then none else some (bus.dropWake wake)
  | .slotToken id => some (bus.dropSlot id)

/-- The fields of an `EventSubscription` drop in their order. -/
def EventSubscription.drops (sub : EventSubscription) : List Drop :=
  [.receiver sub.id, .wakeToken sub.wakeToken, .slotToken sub.id]

inductive Phase where
  /-- Inside `init`, `tick` or a control command. -/
  | plugin
  | collecting (remaining : List EventSubscription) (events : List Event)
  | dispatching (events : List Event)
  | parked
  | exited

structure Supervisor where
  subscribesEvents : Bool
  subscriptions : List EventSubscription
  permit : Bool
  subscribing : Option (EventFilter × WakeId)
  dropping : List Drop
  phase : Phase

inductive SupervisorAction where
  | wake
  | enter
  | drain
  | collect
  | dispatch
  | onEvent
  | park
  | subscribe (filter : EventFilter)
  | finishSubscribe
  | unsubscribe (id : SubscriptionId)
  | drop
  | exit

namespace Supervisor

def new (subscribesEvents : Bool) : Supervisor where
  subscribesEvents := subscribesEvents
  subscriptions := []
  permit := false
  subscribing := none
  dropping := []
  phase := .plugin

def idle (sup : Supervisor) : Bool := sup.subscribing.isNone && sup.dropping.isEmpty

def inPlugin (sup : Supervisor) : Bool :=
  match sup.phase with
  | .plugin | .dispatching _ => true
  | _ => false

/-- `subscribe` up to the write of the wake registry; a refused call changes nothing. -/
def subscribe (sup : Supervisor) (n : NotifyId) (hub : Hub) (filter : EventFilter) :
    Option (Hub × Supervisor) :=
  if ¬ sup.subscribesEvents then some (hub, sup)
  else if sup.subscriptions.length ≥ MAX_SUBSCRIPTIONS_PER_INSTANCE then some (hub, sup)
  else if hub.bus.wakesLocked then none
  else some ({ hub with bus := hub.bus.registerWake filter n },
    { sup with subscribing := some (filter, hub.bus.nextWake) })

/-- The rest of `subscribe_with_wake`, and the push of the new subscription. -/
def finishSubscribe (sup : Supervisor) (n : NotifyId) (hub : Hub) : Option (Hub × Supervisor) :=
  match sup.subscribing with
  | none => none
  | some (filter, wake) =>
    let id := hub.bus.nextSubscription
    some ({ bus := hub.bus.subscribeLabeled filter "subscribe_with_wake"
            holders := hub.holders.insert id (.plugin n) },
      { sup with
        subscriptions := sup.subscriptions ++ [⟨id, filter, wake⟩]
        subscribing := none })

def unsubscribe (sup : Supervisor) (id : SubscriptionId) : Supervisor :=
  { sup with
    subscriptions := sup.subscriptions.filter (·.id ≠ id)
    dropping := (sup.subscriptions.filter (·.id = id)).flatMap EventSubscription.drops }

def drop (sup : Supervisor) (hub : Hub) : Option (Hub × Supervisor) :=
  match sup.dropping with
  | [] => none
  | d :: rest => (d.run hub.bus).map fun bus =>
      ({ hub with bus := bus }, { sup with dropping := rest })

/-- One `try_recv` of `collect_pending_events`; an empty queue ends the inner loop. -/
def collect (sup : Supervisor) (hub : Hub) : Option (Hub × Supervisor) :=
  match sup.phase with
  | .collecting (sub :: rest) events =>
      match hub.bus.receive sub.id with
      | none => some (hub, { sup with phase := .collecting rest events })
      | some (bus, message) =>
          let events :=
            if filterMatches sub.filter message.event then events ++ [message.event] else events
          some ({ hub with bus := bus }, { sup with phase := .collecting (sub :: rest) events })
  | _ => none

def step (n : NotifyId) (hub : Hub) (sup : Supervisor) :
    SupervisorAction → Option (Hub × Supervisor)
  | .wake =>
      match sup.phase, sup.permit with
      | .parked, true =>
          some (hub, { sup with permit := false, phase := .collecting sup.subscriptions [] })
      | _, _ => none
  | .enter =>
      match sup.phase with
      | .parked => some (hub, { sup with phase := .plugin })
      | _ => none
  | .drain =>
      match sup.phase, sup.idle with
      | .plugin, true => some (hub, { sup with phase := .collecting sup.subscriptions [] })
      | _, _ => none
  | .collect => sup.collect hub
  | .dispatch =>
      match sup.phase with
      | .collecting [] events => some (hub, { sup with phase := .dispatching events })
      | _ => none
  | .onEvent =>
      match sup.phase, sup.idle with
      | .dispatching (_ :: rest), true => some (hub, { sup with phase := .dispatching rest })
      | _, _ => none
  | .park =>
      match sup.phase, sup.idle with
      | .dispatching [], true => some (hub, { sup with phase := .parked })
      | _, _ => none
  | .subscribe filter =>
      if sup.inPlugin && sup.idle then sup.subscribe n hub filter else none
  | .finishSubscribe => sup.finishSubscribe n hub
  | .unsubscribe id =>
      if sup.inPlugin && sup.idle then some (hub, sup.unsubscribe id) else none
  | .drop => sup.drop hub
  | .exit =>
      if sup.idle then
        some (hub, { sup with
          subscriptions := []
          dropping := sup.subscriptions.flatMap EventSubscription.drops
          phase := .exited })
      else none

end Supervisor

structure System where
  hub : Hub
  supervisors : TreeMap NotifyId Supervisor
  nextNotify : Nat

inductive SystemAction where
  | start (subscribesEvents : Bool)
  | supervisor (n : NotifyId) (action : SupervisorAction)
  | tailSubscribe (filter : EventFilter) (label : String)
  | tailReceive (id : SubscriptionId)
  | tailDropReceiver (id : SubscriptionId)
  | tailDropSlot (id : SubscriptionId)
  | beginPublish (event : Event) (eventId : Option Nat) (snapshot : List SubscriptionId)
  | deliver (p : Nat)
  | beginSignal (p : Nat) (order : List WakeId)
  | signal (p : Nat)

namespace System

def new : System := ⟨⟨.new, ∅⟩, ∅, 0⟩

/-- `Notify::notify_one`: at most one permit is kept. -/
def notifyOne (sys : System) (n : NotifyId) : System :=
  match sys.supervisors[n]? with
  | none => sys
  | some sup => { sys with supervisors := sys.supervisors.insert n { sup with permit := true } }

def withBus (sys : System) (bus : EventBus) : System := { sys with hub := { sys.hub with bus := bus } }

def step (sys : System) : SystemAction → Option System
  | .start subscribesEvents =>
      some { sys with
        supervisors := sys.supervisors.insert sys.nextNotify (.new subscribesEvents)
        nextNotify := sys.nextNotify + 1 }
  | .supervisor n action =>
      match sys.supervisors[n]? with
      | none => none
      | some sup => (sup.step n sys.hub action).map fun (hub, sup) =>
          { sys with hub := hub, supervisors := sys.supervisors.insert n sup }
  | .tailSubscribe filter label =>
      some { sys with
        hub := { bus := sys.hub.bus.subscribeLabeled filter label
                 holders := sys.hub.holders.insert sys.hub.bus.nextSubscription .tail } }
  | .tailReceive id =>
      if sys.hub.holders[id]? = some .tail then
        (sys.hub.bus.receive id).map fun (bus, _) => sys.withBus bus
      else none
  | .tailDropReceiver id =>
      if sys.hub.holders[id]? = some .tail then some (sys.withBus (sys.hub.bus.dropReceiver id))
      else none
  | .tailDropSlot id =>
      if sys.hub.holders[id]? = some .tail then some (sys.withBus (sys.hub.bus.dropSlot id))
      else none
  | .beginPublish event eventId snapshot =>
      (sys.hub.bus.beginPublish event eventId snapshot).map sys.withBus
  | .deliver p => (sys.hub.bus.deliver p).map fun (bus, _) => sys.withBus bus
  | .beginSignal p order => (sys.hub.bus.beginSignal p order).map sys.withBus
  | .signal p => (sys.hub.bus.signal p).map fun (bus, notified) =>
      let sys := sys.withBus bus
      notified.elim sys sys.notifyOne

end System

end OxidHome.Events

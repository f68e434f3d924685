import OxidHome.Events.ServeLoop

/-!
# No lost wake-up

A queued message of a live subscription is always covered: by a stored permit, by a drain that has
still to come to the subscription, or by the publisher that enqueued it and has not signalled yet.
-/

namespace OxidHome.Events
open Wit Library
open Std (TreeMap)

/-! ## The invariant -/

/-- The publish enqueued its event for `sub` and has not come to the wake entry of `sub` yet. -/
def Publish.owes (call : Publish) (sub : EventSubscription) : Prop :=
  sub.id ∈ call.delivered ∧
    (call.signals = none ∨ ∃ rest, call.signals = some rest ∧ sub.wakeToken ∈ rest)

def Supervisor.willDrain (sup : Supervisor) (sub : EventSubscription) : Prop :=
  match sup.phase with
  | .plugin => True
  | .collecting remaining _ => sub ∈ remaining
  | .dispatching _ | .parked | .exited => False

structure Covers (hub : Hub) (sup : Supervisor) (sub : EventSubscription)
    (message : SubscriberMessage) : Prop where
  matching : filterMatches sub.filter message.event = true
  covered : sup.permit = true ∨ sup.willDrain sub ∨
    ∃ call ∈ hub.bus.publishes, call.event = message.event ∧ call.owes sub

structure Live (hub : Hub) (n : NotifyId) (sup : Supervisor) (sub : EventSubscription) : Prop where
  held : hub.holders[sub.id]? = some (.plugin n)
  registered : hub.bus.wakes[sub.wakeToken]? = some ⟨sub.filter, n⟩
  slot : ∃ slot, hub.bus.slots[sub.id]? = some slot ∧ slot.filter = sub.filter ∧
    ∀ message ∈ slot.queue, Covers hub sup sub message

def Drop.owned (hub : Hub) (n : NotifyId) (sup : Supervisor) : Drop → Prop
  | .receiver id => hub.holders[id]? = some (.plugin n) ∧ ∀ sub ∈ sup.subscriptions, sub.id ≠ id
  | .wakeToken wake => wake < hub.bus.nextWake ∧
      (∀ entry, hub.bus.wakes[wake]? = some entry → entry.notify = n) ∧
      ∀ sub ∈ sup.subscriptions, sub.wakeToken ≠ wake
  | .slotToken _ => True

structure Served (hub : Hub) (n : NotifyId) (sup : Supervisor) : Prop where
  live : ∀ sub ∈ sup.subscriptions, Live hub n sup sub
  tokens : (sup.subscriptions.map (·.wakeToken)).Nodup
  dropping : ∀ d ∈ sup.dropping, d.owned hub n sup
  subscribing : ∀ filter wake, sup.subscribing = some (filter, wake) →
    hub.bus.wakes[wake]? = some ⟨filter, n⟩ ∧ sup.dropping = [] ∧
      ∀ sub ∈ sup.subscriptions, sub.wakeToken ≠ wake
  collecting : ∀ remaining events, sup.phase = .collecting remaining events →
    ∀ sub ∈ remaining, hub.holders[sub.id]? = some (.plugin n)

structure HubInv (hub : Hub) : Prop where
  holders : ∀ (id : SubscriptionId) holder, hub.holders[id]? = some holder →
    id < hub.bus.nextSubscription
  wakes : ∀ (wake : WakeId) entry, hub.bus.wakes[wake]? = some entry → wake < hub.bus.nextWake
  publishes : ∀ call ∈ hub.bus.publishes, call.signals ≠ none → call.remaining = []

structure SystemInv (sys : System) : Prop where
  hub : HubInv sys.hub
  served : ∀ (n : NotifyId) sup, sys.supervisors[n]? = some sup → Served sys.hub n sup
  fresh : ∀ (n : NotifyId) sup, sys.supervisors[n]? = some sup → n < sys.nextNotify

/-! ## What the steps of the others leave alone -/

structure Keeps (n : NotifyId) (hub hub' : Hub) : Prop where
  holders : ∀ (id : SubscriptionId), hub.holders[id]? = some (.plugin n) →
    hub'.holders[id]? = some (.plugin n)
  wakes : ∀ (wake : WakeId) entry, hub.bus.wakes[wake]? = some entry → entry.notify = n →
    hub'.bus.wakes[wake]? = some entry
  erased : ∀ (wake : WakeId) entry, wake < hub.bus.nextWake →
    hub'.bus.wakes[wake]? = some entry → hub.bus.wakes[wake]? = some entry
  nextWake : hub.bus.nextWake ≤ hub'.bus.nextWake

structure Frame (n : NotifyId) (hub hub' : Hub) : Prop extends Keeps n hub hub' where
  slots : ∀ (id : SubscriptionId), hub.holders[id]? = some (.plugin n) →
    hub'.bus.slots[id]? = hub.bus.slots[id]?
  publishes : hub'.bus.publishes = hub.bus.publishes

theorem Keeps.refl (n : NotifyId) (hub : Hub) : Keeps n hub hub :=
  ⟨fun _ held => held, fun _ _ found _ => found, fun _ _ _ found => found, Nat.le_refl _⟩

theorem Frame.refl (n : NotifyId) (hub : Hub) : Frame n hub hub :=
  ⟨.refl n hub, fun _ _ => rfl, rfl⟩

theorem Frame.registerWake {hub : Hub} (inv : HubInv hub) (m n : NotifyId) (filter : EventFilter) :
    Frame m hub { hub with bus := hub.bus.registerWake filter n } := by
  have fresh : ∀ (wake : WakeId) entry, hub.bus.wakes[wake]? = some entry →
      hub.bus.nextWake ≠ wake := fun wake entry found => (inv.wakes wake entry found).ne'
  refine ⟨⟨fun _ held => held, fun wake entry found _ => ?_, fun wake entry old found => ?_,
    Nat.le_succ _⟩, fun _ _ => rfl, rfl⟩
  · rw [EventBus.registerWake, getElem?_insert_ne _ _ (fresh wake entry found), found]
  · rwa [EventBus.registerWake, getElem?_insert_ne _ _ old.ne'] at found

theorem Frame.subscribeLabeled {hub : Hub} (inv : HubInv hub) (m : NotifyId)
    (filter : EventFilter) (label : String) (holder : Holder) :
    Frame m hub
      { bus := hub.bus.subscribeLabeled filter label
        holders := hub.holders.insert hub.bus.nextSubscription holder } := by
  have fresh : ∀ (id : SubscriptionId), hub.holders[id]? = some (.plugin m) →
      hub.bus.nextSubscription ≠ id := fun id held => (inv.holders id _ held).ne'
  refine ⟨⟨fun id held => ?_, fun _ _ found _ => found, fun _ _ _ found => found,
    Nat.le_refl _⟩, fun id held => ?_, rfl⟩
  · rw [getElem?_insert_ne _ _ (fresh id held), held]
  · rw [EventBus.subscribeLabeled, getElem?_insert_ne _ _ (fresh id held)]

theorem Frame.receive {hub : Hub} {m : NotifyId} {id : SubscriptionId} {bus : EventBus}
    {message : SubscriberMessage} (others : hub.holders[id]? ≠ some (.plugin m))
    (received : hub.bus.receive id = some (bus, message)) :
    Frame m hub { hub with bus := bus } := by
  obtain ⟨slot, rest, _, _, rfl⟩ := EventBus.receive_eq_some.mp received
  refine ⟨⟨fun _ held => held, fun _ _ found _ => found, fun _ _ _ found => found,
    Nat.le_refl _⟩, fun id' held => getElem?_insert_ne _ _ ?_, rfl⟩
  intro same
  exact others (same ▸ held)

theorem Frame.dropReceiver {hub : Hub} {m : NotifyId} {id : SubscriptionId}
    (others : hub.holders[id]? ≠ some (.plugin m)) :
    Frame m hub { hub with bus := hub.bus.dropReceiver id } := by
  unfold EventBus.dropReceiver
  split
  · exact .refl m hub
  · refine ⟨⟨fun _ held => held, fun _ _ found _ => found, fun _ _ _ found => found,
      Nat.le_refl _⟩, fun id' held => getElem?_insert_ne _ _ ?_, rfl⟩
    intro same
    exact others (same ▸ held)

theorem Frame.dropSlot (m : NotifyId) (hub : Hub) (id : SubscriptionId) :
    Frame m hub { hub with bus := hub.bus.dropSlot id } :=
  ⟨⟨fun _ held => held, fun _ _ found _ => found, fun _ _ _ found => found, Nat.le_refl _⟩,
    fun _ _ => rfl, rfl⟩

theorem Drop.owned.keeps {d : Drop} {hub hub' : Hub} {n : NotifyId} {sup sup' : Supervisor}
    (owned : d.owned hub n sup) (keeps : Keeps n hub hub')
    (subscriptions : ∀ sub ∈ sup'.subscriptions, sub ∈ sup.subscriptions) :
    d.owned hub' n sup' := by
  cases d with
  | receiver id =>
      refine ⟨keeps.holders id owned.1, fun sub mem => ?_⟩
      exact owned.2 sub (subscriptions sub mem)
  | wakeToken wake =>
      obtain ⟨old, ours, apart⟩ := owned
      refine ⟨old.trans_le keeps.nextWake, fun entry found => ?_, fun sub mem => ?_⟩
      · exact ours entry (keeps.erased wake entry old found)
      · exact apart sub (subscriptions sub mem)
  | slotToken id => trivial

namespace Served
variable {hub hub' : Hub} {n : NotifyId} {sup : Supervisor}

theorem keeps (served : Served hub n sup) (keeps : Keeps n hub hub') (permit : Bool)
    (slots : ∀ sub ∈ sup.subscriptions, ∀ slot, hub.bus.slots[sub.id]? = some slot →
      slot.filter = sub.filter → (∀ message ∈ slot.queue, Covers hub sup sub message) →
      ∃ slot', hub'.bus.slots[sub.id]? = some slot' ∧ slot'.filter = sub.filter ∧
        ∀ message ∈ slot'.queue, Covers hub' { sup with permit := permit } sub message) :
    Served hub' n { sup with permit := permit } where
  live := by
    intro sub mem
    obtain ⟨held, registered, slot, found, filter, covers⟩ := served.live sub mem
    exact ⟨keeps.holders _ held, keeps.wakes _ _ registered rfl,
      slots sub mem slot found filter covers⟩
  tokens := served.tokens
  dropping := fun d mem => (served.dropping d mem).keeps keeps fun _ h => h
  subscribing := by
    intro filter wake pending
    obtain ⟨registered, rest⟩ := served.subscribing filter wake pending
    exact ⟨keeps.wakes _ _ registered rfl, rest⟩
  collecting := fun remaining events phase sub mem =>
    keeps.holders _ (served.collecting remaining events phase sub mem)

theorem frame (served : Served hub n sup) (frame : Frame n hub hub') : Served hub' n sup := by
  apply served.keeps frame.toKeeps sup.permit
  intro sub mem slot found filter covers
  refine ⟨slot, ?_, filter, fun message queued => ?_⟩
  · rw [frame.slots _ (served.live sub mem).held, found]
  · obtain ⟨matching, covered⟩ := covers message queued
    refine ⟨matching, ?_⟩
    rw [frame.publishes]
    exact covered

theorem withPublishes (served : Served hub n sup) (permit : Bool) {publishes : List Publish}
    (stored : sup.permit = true → permit = true)
    (pays : ∀ sub ∈ sup.subscriptions, ∀ call ∈ hub.bus.publishes,
      filterMatches sub.filter call.event = true → call.owes sub →
      permit = true ∨ ∃ call' ∈ publishes, call'.event = call.event ∧ call'.owes sub) :
    Served { hub with bus := { hub.bus with publishes := publishes } } n
      { sup with permit := permit } := by
  have same : Keeps n hub { hub with bus := { hub.bus with publishes := publishes } } :=
    ⟨fun _ held => held, fun _ _ found _ => found, fun _ _ _ found => found, Nat.le_refl _⟩
  apply served.keeps same permit
  intro sub mem slot found filter covers
  refine ⟨slot, found, filter, fun message queued => ?_⟩
  obtain ⟨matching, covered⟩ := covers message queued
  refine ⟨matching, ?_⟩
  rcases covered with permitted | drain | ⟨call, in_flight, event, owes⟩
  · exact Or.inl (stored permitted)
  · exact Or.inr (Or.inl drain)
  · rw [← event] at matching
    rcases pays sub mem call in_flight matching owes with permitted | ⟨call', later, same, owes'⟩
    · exact Or.inl permitted
    · exact Or.inr (Or.inr ⟨call', later, same.trans event, owes'⟩)

theorem beginPublish (served : Served hub n sup) {event : Event} {eventId : Option Nat}
    {snapshot : List SubscriptionId} {bus : EventBus}
    (begun : hub.bus.beginPublish event eventId snapshot = some bus) :
    Served { hub with bus := bus } n sup := by
  obtain ⟨_, rfl⟩ := EventBus.beginPublish_eq_some.mp begun
  apply served.withPublishes sup.permit fun permitted => permitted
  intro sub _ call in_flight _ owes
  exact Or.inr ⟨call, List.mem_append_left _ in_flight, rfl, owes⟩

theorem pays_set {publishes : List Publish} {p : Nat} {call : Publish} (call' : Publish)
    {sub : EventSubscription} (found : publishes[p]? = some call)
    (later : call.owes sub → call'.event = call.event ∧ call'.owes sub)
    {other : Publish} (in_flight : other ∈ publishes) (owes : other.owes sub) :
    ∃ after ∈ publishes.set p call', after.event = other.event ∧ after.owes sub := by
  obtain ⟨q, at_q⟩ := List.getElem?_of_mem in_flight
  by_cases here : p = q
  · subst here
    obtain rfl := Option.some.inj (found.symm.trans at_q)
    have bound := (List.getElem?_eq_some_iff.mp found).1
    exact ⟨call', List.mem_set bound _, later owes⟩
  · refine ⟨other, List.mem_of_getElem? (i := q) ?_, rfl, owes⟩
    rw [List.getElem?_set, if_neg here, at_q]

theorem beginSignal (served : Served hub n sup) {p : Nat} {order : List WakeId} {bus : EventBus}
    (begun : hub.bus.beginSignal p order = some bus) : Served { hub with bus := bus } n sup := by
  obtain ⟨call, found, _, _, perm, rfl⟩ := EventBus.beginSignal_eq_some.mp begun
  apply served.withPublishes sup.permit fun permitted => permitted
  intro sub mem other in_flight _ owes
  right
  apply pays_set _ found _ in_flight owes
  intro owed
  refine ⟨rfl, owed.1, Or.inr ⟨order, rfl, ?_⟩⟩
  apply perm.mem_iff.mpr
  have registered := (served.live sub mem).registered
  exact TreeMap.mem_keys.mpr (TreeMap.mem_iff_isSome_getElem?.mpr (by simp [registered]))

theorem signal (served : Served hub n sup) {p : Nat} {bus : EventBus}
    {notified : Option NotifyId} (signalled : hub.bus.signal p = some (bus, notified)) :
    Served { hub with bus := bus } n
      { sup with permit := sup.permit || decide (notified = some n) } := by
  obtain ⟨call, wake, rest, found, pending, told, rfl⟩ := EventBus.signal_eq_some.mp signalled
  apply served.withPublishes
  · intro permitted
    simp [permitted]
  · intro sub mem other in_flight matching owes
    have registered := (served.live sub mem).registered
    by_cases reached : wake = sub.wakeToken ∧ other = call
    · obtain ⟨rfl, rfl⟩ := reached
      left
      simp [told, EventBus.notified, registered, matching]
    · right
      obtain ⟨q, at_q⟩ := List.getElem?_of_mem in_flight
      by_cases here : p = q
      · subst here
        obtain rfl := Option.some.inj (found.symm.trans at_q)
        have apart : wake ≠ sub.wakeToken := fun same => reached ⟨same, rfl⟩
        apply pays_set _ found _ in_flight owes
        intro ⟨delivered, unsignalled⟩
        refine ⟨rfl, delivered, Or.inr ⟨rest, rfl, ?_⟩⟩
        rcases unsignalled with none | ⟨order, at_order, listed⟩
        · rw [pending] at none
          cases none
        · obtain rfl := Option.some.inj (pending.symm.trans at_order)
          exact (List.mem_cons.mp listed).resolve_left apart.symm
      · refine ⟨other, List.mem_of_getElem? (i := q) ?_, rfl, owes⟩
        rw [List.getElem?_set, if_neg here, at_q]

theorem deliver (served : Served hub n sup) (inv : HubInv hub) {p : Nat} {bus : EventBus}
    {offer : Option Offer} (delivered : hub.bus.deliver p = some (bus, offer)) :
    Served { hub with bus := bus } n sup := by
  obtain ⟨call, id, rest, slot, found, remaining, at_id, result⟩ :=
    EventBus.deliver_eq_some.mp delivered
  have unsignalled : call.signals = none := by
    by_contra signals
    have := inv.publishes call (List.mem_of_getElem? found) signals
    rw [remaining] at this
    cases this
  have later : ∀ sub sent, call.owes sub → (call.visit id rest sent).owes sub := by
    intro sub sent owes
    refine ⟨?_, Or.inl unsignalled⟩
    cases sent with
    | true => exact List.mem_append_left _ owes.1
    | false => exact owes.1
  rcases result with ⟨_, rfl, rfl⟩ | ⟨hit, rfl, rfl⟩
  · apply served.withPublishes sup.permit fun permitted => permitted
    intro sub _ other in_flight _ owes
    exact Or.inr (pays_set (call.visit id rest false) found
      (fun owed => ⟨rfl, later sub _ owed⟩) in_flight owes)
  · have same : Keeps n hub { hub with bus := { hub.bus with
        slots := hub.bus.slots.insert id (slot.offer call.event).2
        publishes :=
          hub.bus.publishes.set p (call.visit id rest (slot.offer call.event).1.sent) } } :=
      ⟨fun _ held => held, fun _ _ found _ => found, fun _ _ _ found => found, Nat.le_refl _⟩
    apply served.keeps same sup.permit
    intro sub mem slot' found' filter covers
    have old : ∀ message ∈ slot'.queue, Covers { hub with bus := { hub.bus with
        slots := hub.bus.slots.insert id (slot.offer call.event).2
        publishes :=
          hub.bus.publishes.set p (call.visit id rest (slot.offer call.event).1.sent) } }
        sup sub message := by
      intro message queued
      obtain ⟨matching, covered⟩ := covers message queued
      refine ⟨matching, covered.imp_right fun covered => covered.imp_right ?_⟩
      intro ⟨other, in_flight, event, owes⟩
      obtain ⟨after, mem, same, owes'⟩ :=
        pays_set (call.visit id rest (slot.offer call.event).1.sent) found
          (fun owed => ⟨rfl, later sub _ owed⟩) in_flight owes
      exact ⟨after, mem, same.trans event, owes'⟩
    by_cases here : id = sub.id
    · subst here
      obtain rfl := Option.some.inj (at_id.symm.trans found')
      refine ⟨_, getElem?_insert_self _ _ _, by simpa using filter, fun message queued => ?_⟩
      rcases slot.offer_queue call.event with ⟨m, sent, event, queue⟩ | ⟨_, queue⟩
      · rw [queue] at queued
        rcases List.mem_append.mp queued with before | last
        · exact old message before
        · obtain rfl := List.mem_singleton.mp last
          refine ⟨by rw [event, ← filter]; exact hit, Or.inr (Or.inr ?_)⟩
          have bound := (List.getElem?_eq_some_iff.mp found).1
          refine ⟨_, List.mem_set bound _, event.symm, ?_, Or.inl unsignalled⟩
          simp [Publish.visit, sent, Attempt.sent]
      · rw [queue] at queued
        exact old message queued
    · refine ⟨slot', ?_, filter, old⟩
      rw [getElem?_insert_ne _ _ here, found']

theorem withPhase (served : Served hub n sup) (permit : Bool) (phase : Phase)
    (covers : ∀ sub ∈ sup.subscriptions, ∀ slot, hub.bus.slots[sub.id]? = some slot →
      ∀ message ∈ slot.queue, Covers hub sup sub message →
        Covers hub { sup with permit := permit, phase := phase } sub message)
    (collecting : ∀ remaining events, phase = .collecting remaining events →
      ∀ sub ∈ remaining, hub.holders[sub.id]? = some (.plugin n)) :
    Served hub n { sup with permit := permit, phase := phase } :=
  { served with
    live := fun sub mem =>
      have ⟨held, registered, slot, found, filter, covered⟩ := served.live sub mem
      ⟨held, registered, slot, found, filter, fun message queued =>
        covers sub mem slot found message queued (covered message queued)⟩
    dropping := fun d mem => (served.dropping d mem).keeps (.refl n hub) fun _ h => h
    collecting := collecting }

theorem startDrain (served : Served hub n sup) (permit : Bool) :
    Served hub n
      { sup with permit := permit, phase := .collecting sup.subscriptions [] } := by
  apply served.withPhase
  · intro sub mem slot _ message _ covers
    exact ⟨covers.matching, Or.inr (Or.inl mem)⟩
  · intro remaining events same sub mem
    cases same
    exact (served.live sub mem).held

theorem advance (served : Served hub n sup) (phase : Phase)
    (drains : ∀ sub, sup.willDrain sub → { sup with phase := phase }.willDrain sub)
    (collecting : ∀ remaining events, phase = .collecting remaining events →
      ∀ sub ∈ remaining, hub.holders[sub.id]? = some (.plugin n)) :
    Served hub n { sup with phase := phase } := by
  apply served.withPhase sup.permit phase _ collecting
  intro sub _ slot _ message _ covers
  exact ⟨covers.matching, covers.covered.imp_right (·.imp_left (drains sub))⟩

theorem collect (served : Served hub n sup) {hub' : Hub} {sup' : Supervisor}
    (taken : sup.collect hub = some (hub', sup')) : Served hub' n sup' := by
  unfold Supervisor.collect at taken
  split at taken
  · next sub rest events phase =>
    have held := served.collecting _ _ phase
    split at taken
    · next empty =>
        cases taken
        apply served.withPhase sup.permit (.collecting rest events)
        · intro other mem slot found message queued covers
          refine ⟨covers.matching, covers.covered.imp_right (·.imp_left fun drain => ?_)⟩
          simp only [Supervisor.willDrain, phase] at drain
          apply (List.mem_cons.mp drain).resolve_left
          intro same
          subst same
          have dry := EventBus.receive_eq_none.mp empty slot found
          rw [dry] at queued
          cases queued
        · intro remaining events' same other mem
          cases same
          exact held other (List.mem_cons_of_mem _ mem)
    · next bus message received =>
        cases taken
        obtain ⟨slot, queue, found, popped, rfl⟩ := EventBus.receive_eq_some.mp received
        have taken : Served { hub with bus := { hub.bus with
            slots := hub.bus.slots.insert sub.id { slot with queue := queue } } } n sup := by
          have same : Keeps n hub { hub with bus := { hub.bus with
              slots := hub.bus.slots.insert sub.id { slot with queue := queue } } } :=
            ⟨fun _ held => held, fun _ _ found _ => found, fun _ _ _ found => found, Nat.le_refl _⟩
          apply served.keeps same sup.permit
          intro other mem slot' found' filter covers
          by_cases here : sub.id = other.id
          · rw [here] at found
            obtain rfl := Option.some.inj (found.symm.trans found')
            refine ⟨{ slot with queue := queue }, ?_, filter, fun m queued => ?_⟩
            · rw [here]
              exact getElem?_insert_self _ _ _
            have before : m ∈ slot.queue := by
              rw [popped]
              exact List.mem_cons_of_mem _ queued
            exact ⟨(covers m before).matching, (covers m before).covered⟩
          · refine ⟨slot', ?_, filter, fun m queued => ?_⟩
            · rw [getElem?_insert_ne _ _ here, found']
            · exact ⟨(covers m queued).matching, (covers m queued).covered⟩
        apply taken.advance
        · intro other drain
          simp only [Supervisor.willDrain, phase] at drain
          exact drain
        · intro remaining events' same other mem
          cases same
          exact held other mem
  · cases taken

theorem subscribe (served : Served hub n sup) (inv : HubInv hub) {filter : EventFilter}
    {hub' : Hub} {sup' : Supervisor} (idle : sup.idle = true)
    (taken : sup.subscribe n hub filter = some (hub', sup')) : Served hub' n sup' := by
  unfold Supervisor.subscribe at taken
  split at taken
  · cases taken
    exact served
  · split at taken
    · cases taken
      exact served
    · split at taken
      · cases taken
      · cases taken
        have after := served.frame (.registerWake inv n n filter)
        simp only [Supervisor.idle, Bool.and_eq_true, List.isEmpty_iff] at idle
        refine { after with
          live := fun sub mem => ?_, dropping := fun d mem => ?_, subscribing := ?_
          collecting := after.collecting }
        · obtain ⟨held, registered, slot, found, filter, covers⟩ := after.live sub mem
          exact ⟨held, registered, slot, found, filter, fun m queued =>
            ⟨(covers m queued).matching, (covers m queued).covered⟩⟩
        · rw [show sup.dropping = [] from idle.2] at mem
          cases mem
        · intro filter' wake pending
          cases pending
          refine ⟨getElem?_insert_self _ _ _, idle.2, fun sub mem => ?_⟩
          exact (inv.wakes _ _ (served.live sub mem).registered).ne

theorem finishSubscribe (served : Served hub n sup) (inv : HubInv hub)
    {hub' : Hub} {sup' : Supervisor} (taken : sup.finishSubscribe n hub = some (hub', sup')) :
    Served hub' n sup' := by
  unfold Supervisor.finishSubscribe at taken
  split at taken
  · cases taken
  · next filter wake pending =>
    cases taken
    obtain ⟨registered, no_drops, apart⟩ := served.subscribing filter wake pending
    have after := served.frame (.subscribeLabeled inv n filter "subscribe_with_wake" (.plugin n))
    constructor
    case live =>
      intro sub mem
      rcases List.mem_append.mp mem with old | last
      · obtain ⟨held, registered, slot, found, filter, covers⟩ := after.live sub old
        exact ⟨held, registered, slot, found, filter, fun m queued =>
          ⟨(covers m queued).matching, (covers m queued).covered⟩⟩
      · obtain rfl := List.mem_singleton.mp last
        refine ⟨getElem?_insert_self _ _ _, registered, .new filter "subscribe_with_wake",
          getElem?_insert_self _ _ _, rfl, fun m queued => ?_⟩
        cases queued
    case tokens =>
      rw [List.map_append]
      apply List.nodup_append.mpr
      refine ⟨served.tokens, List.nodup_singleton _, fun token old other last => ?_⟩
      obtain ⟨sub, mem, rfl⟩ := List.mem_map.mp old
      obtain rfl := List.mem_singleton.mp last
      exact apart sub mem
    case dropping =>
      intro d mem
      change d ∈ sup.dropping at mem
      rw [no_drops] at mem
      cases mem
    case subscribing => exact fun _ _ none => by cases none
    case collecting => exact after.collecting

theorem drops_owned (served : Served hub n sup) (inv : HubInv hub) {sub : EventSubscription}
    (mem : sub ∈ sup.subscriptions) {sup' : Supervisor}
    (left : ∀ other ∈ sup'.subscriptions, other ∈ sup.subscriptions ∧ other.id ≠ sub.id) :
    ∀ d ∈ sub.drops, d.owned hub n sup' := by
  obtain ⟨held, registered, _⟩ := served.live sub mem
  intro d dropped
  simp only [EventSubscription.drops, List.mem_cons, List.not_mem_nil, or_false] at dropped
  rcases dropped with rfl | rfl | rfl
  · exact ⟨held, fun other mem' => (left other mem').2⟩
  · refine ⟨inv.wakes _ _ registered, fun entry found => ?_, fun other mem' same => ?_⟩
    · cases registered.symm.trans found
      rfl
    · obtain ⟨old, apart⟩ := left other mem'
      have := List.inj_on_of_nodup_map served.tokens old mem same
      exact apart (congrArg _ this)
  · trivial

theorem shrink (served : Served hub n sup) (sup' : Supervisor)
    (sublist : sup'.subscriptions.Sublist sup.subscriptions)
    (dropping : ∀ d ∈ sup'.dropping, d.owned hub n sup')
    (subscribing : sup'.subscribing = none)
    (covers : ∀ sub ∈ sup'.subscriptions, ∀ m, Covers hub sup sub m → Covers hub sup' sub m)
    (collecting : ∀ remaining events, sup'.phase ≠ .collecting remaining events) :
    Served hub n sup' where
  live := by
    intro sub mem
    obtain ⟨held, registered, slot, found, filter, covered⟩ := served.live sub (sublist.mem mem)
    exact ⟨held, registered, slot, found, filter, fun m queued =>
      covers sub mem m (covered m queued)⟩
  tokens := served.tokens.sublist (sublist.map _)
  dropping := dropping
  subscribing := fun _ _ pending => by
    rw [subscribing] at pending
    cases pending
  collecting := fun remaining events phase => absurd phase (collecting remaining events)

theorem unsubscribe (served : Served hub n sup) (inv : HubInv hub) (id : SubscriptionId)
    (running : sup.inPlugin = true) (idle : sup.idle = true) :
    Served hub n (sup.unsubscribe id) := by
  simp only [Supervisor.idle, Bool.and_eq_true, Option.isNone_iff_eq_none] at idle
  apply served.shrink _ List.filter_sublist
  · intro d mem
    obtain ⟨sub, removed, dropped⟩ := List.mem_flatMap.mp mem
    obtain ⟨listed, same⟩ := List.mem_filter.mp removed
    apply served.drops_owned inv listed (fun other mem' => ?_) d dropped
    obtain ⟨old, apart⟩ := List.mem_filter.mp mem'
    rw [of_decide_eq_true same]
    exact ⟨old, of_decide_eq_true apart⟩
  · exact idle.1
  · exact fun sub _ m covers => ⟨covers.matching, covers.covered⟩
  · intro remaining events phase
    change sup.phase = _ at phase
    simp [Supervisor.inPlugin, phase] at running

theorem exit (served : Served hub n sup) (inv : HubInv hub) (idle : sup.idle = true) :
    Served hub n { sup with
      subscriptions := []
      dropping := sup.subscriptions.flatMap EventSubscription.drops
      phase := .exited } := by
  simp only [Supervisor.idle, Bool.and_eq_true, Option.isNone_iff_eq_none] at idle
  apply served.shrink _ (List.nil_sublist _)
  · intro d mem
    obtain ⟨sub, listed, dropped⟩ := List.mem_flatMap.mp mem
    exact served.drops_owned inv listed (fun _ none => absurd none List.not_mem_nil) d dropped
  · exact idle.1
  · exact fun _ none => absurd none List.not_mem_nil
  · exact fun _ _ phase => by cases phase

theorem drop (served : Served hub n sup) {hub' : Hub} {sup' : Supervisor}
    (taken : sup.drop hub = some (hub', sup')) : Served hub' n sup' := by
  unfold Supervisor.drop at taken
  split at taken
  · cases taken
  · next d rest dropping =>
    obtain ⟨bus, ran, same⟩ := Option.map_eq_some_iff.mp taken
    cases same
    have owned := served.dropping d (dropping ▸ List.mem_cons_self)
    have others : ∀ d' ∈ rest, d'.owned hub n sup := fun d' mem =>
      served.dropping d' (dropping ▸ List.mem_cons_of_mem _ mem)
    have no_subscribe : ∀ filter wake, sup.subscribing ≠ some (filter, wake) := by
      intro filter wake pending
      have := (served.subscribing filter wake pending).2.1
      rw [dropping] at this
      cases this
    have rebuild : ∀ bus : EventBus, (∀ sub ∈ sup.subscriptions,
          bus.slots[sub.id]? = hub.bus.slots[sub.id]? ∧
            bus.wakes[sub.wakeToken]? = hub.bus.wakes[sub.wakeToken]?) →
        (∀ (wake : WakeId) entry, bus.wakes[wake]? = some entry →
          hub.bus.wakes[wake]? = some entry) →
        bus.nextWake = hub.bus.nextWake → bus.publishes = hub.bus.publishes →
        Served { hub with bus := bus } n { sup with dropping := rest } := by
      intro bus kept erased nextWake publishes
      constructor
      case live =>
        intro sub mem
        obtain ⟨held, registered, slot, found, filter, covers⟩ := served.live sub mem
        refine ⟨held, (kept sub mem).2.trans registered, slot, (kept sub mem).1.trans found,
          filter, fun m queued => ?_⟩
        obtain ⟨matching, covered⟩ := covers m queued
        exact ⟨matching, by rw [publishes]; exact covered⟩
      case tokens => exact served.tokens
      case subscribing => exact fun filter wake pending => absurd pending (no_subscribe filter wake)
      case collecting => exact served.collecting
      case dropping =>
        intro d' mem
        have owned' := others d' mem
        cases d' with
        | receiver id => exact owned'
        | wakeToken wake =>
            refine ⟨owned'.1.trans_eq nextWake.symm, fun entry found => ?_, owned'.2.2⟩
            exact owned'.2.1 entry (erased wake entry found)
        | slotToken id => trivial
    cases d with
    | receiver id =>
        cases ran
        have apart : ∀ sub ∈ sup.subscriptions, id ≠ sub.id := fun sub mem same =>
          owned.2 sub mem same.symm
        apply rebuild
        · intro sub mem
          unfold EventBus.dropReceiver
          split
          · exact ⟨rfl, rfl⟩
          · exact ⟨getElem?_insert_ne _ _ (apart sub mem), rfl⟩
        all_goals unfold EventBus.dropReceiver; split <;> first | rfl | exact fun _ _ h => h
    | wakeToken wake =>
        simp only [Drop.run] at ran
        split at ran
        · cases ran
        · cases ran
          apply rebuild
          · intro sub mem
            have apart : wake ≠ sub.wakeToken := fun same => owned.2.2 sub mem same.symm
            refine ⟨rfl, ?_⟩
            rw [EventBus.dropWake, getElem?_erase_eq, if_neg apart]
          · intro wake' entry found
            rw [EventBus.dropWake, getElem?_erase_eq] at found
            split at found
            · cases found
            · exact found
          · rfl
          · rfl
    | slotToken id =>
        cases ran
        exact rebuild _ (fun _ _ => ⟨rfl, rfl⟩) (fun _ _ found => found) rfl rfl

theorem step (served : Served hub n sup) (inv : HubInv hub) {action : SupervisorAction}
    {hub' : Hub} {sup' : Supervisor} (taken : sup.step n hub action = some (hub', sup')) :
    Served hub' n sup' := by
  cases action with
  | wake =>
      simp only [Supervisor.step] at taken
      split at taken
      · cases taken
        exact served.startDrain false
      · cases taken
  | enter =>
      simp only [Supervisor.step] at taken
      split at taken
      · cases taken
        apply served.advance .plugin (fun _ _ => trivial)
        exact fun _ _ phase => by cases phase
      · cases taken
  | drain =>
      simp only [Supervisor.step] at taken
      split at taken
      · cases taken
        exact served.startDrain sup.permit
      · cases taken
  | collect => exact served.collect taken
  | dispatch =>
      simp only [Supervisor.step] at taken
      split at taken
      · next events phase =>
          cases taken
          apply served.advance (.dispatching events)
          · intro sub drain
            simp [Supervisor.willDrain, phase] at drain
          · exact fun _ _ phase => by cases phase
      · cases taken
  | onEvent =>
      simp only [Supervisor.step] at taken
      split at taken
      · next e rest phase _ =>
          cases taken
          apply served.advance (.dispatching rest)
          · intro sub drain
            simp [Supervisor.willDrain, phase] at drain
          · exact fun _ _ phase => by cases phase
      · cases taken
  | park =>
      simp only [Supervisor.step] at taken
      split at taken
      · next phase _ =>
          cases taken
          apply served.advance .parked
          · intro sub drain
            simp [Supervisor.willDrain, phase] at drain
          · exact fun _ _ phase => by cases phase
      · cases taken
  | subscribe filter =>
      simp only [Supervisor.step, Option.ite_none_right_eq_some, Bool.and_eq_true] at taken
      exact served.subscribe inv taken.1.2 taken.2
  | finishSubscribe => exact served.finishSubscribe inv taken
  | unsubscribe id =>
      simp only [Supervisor.step, Option.ite_none_right_eq_some, Bool.and_eq_true] at taken
      obtain ⟨⟨running, idle⟩, same⟩ := taken
      cases same
      exact served.unsubscribe inv id running idle
  | drop => exact served.drop taken
  | exit =>
      simp only [Supervisor.step, Option.ite_none_right_eq_some] at taken
      obtain ⟨idle, same⟩ := taken
      cases same
      exact served.exit inv idle

end Served

/-! ## The steps seen by another supervisor, and by the hub -/

theorem Drop.run_frame {d : Drop} {hub : Hub} {n m : NotifyId} {sup : Supervisor} {bus : EventBus}
    (owned : d.owned hub n sup) (distinct : n ≠ m) (ran : d.run hub.bus = some bus) :
    Frame m hub { hub with bus := bus } := by
  cases d with
  | receiver id =>
      cases ran
      apply Frame.dropReceiver
      rw [owned.1]
      intro same
      cases same
      exact distinct rfl
  | wakeToken wake =>
      simp only [Drop.run] at ran
      split at ran
      · cases ran
      · cases ran
        refine ⟨⟨fun _ held => held, fun wake' entry found notify => ?_,
          fun wake' entry _ found => ?_, Nat.le_refl _⟩, fun _ _ => rfl, rfl⟩
        · rw [EventBus.dropWake, getElem?_erase_eq, if_neg, found]
          rintro rfl
          exact distinct ((owned.2.1 entry found).symm.trans notify)
        · rw [EventBus.dropWake, getElem?_erase_eq] at found
          split at found
          · cases found
          · exact found
  | slotToken id =>
      cases ran
      exact .dropSlot m hub id

theorem Served.step_frame {hub hub' : Hub} {n m : NotifyId} {sup sup' : Supervisor}
    (served : Served hub n sup) (inv : HubInv hub) (distinct : n ≠ m) {action : SupervisorAction}
    (taken : sup.step n hub action = some (hub', sup')) : Frame m hub hub' := by
  cases action with
  | subscribe filter =>
      simp only [Supervisor.step, Option.ite_none_right_eq_some] at taken
      obtain ⟨_, taken⟩ := taken
      unfold Supervisor.subscribe at taken
      split at taken
      · cases taken
        exact .refl m hub
      · split at taken
        · cases taken
          exact .refl m hub
        · split at taken
          · cases taken
          · cases taken
            exact .registerWake inv m n filter
  | finishSubscribe =>
      simp only [Supervisor.step, Supervisor.finishSubscribe] at taken
      split at taken
      · cases taken
      · next filter wake _ =>
        cases taken
        exact .subscribeLabeled inv m filter "subscribe_with_wake" (.plugin n)
  | collect =>
      simp only [Supervisor.step, Supervisor.collect] at taken
      split at taken
      · next sub rest events phase =>
        split at taken
        · cases taken
          exact .refl m hub
        · next bus message received =>
          cases taken
          apply Frame.receive _ received
          rw [served.collecting _ _ phase sub List.mem_cons_self]
          intro same
          cases same
          exact distinct rfl
      · cases taken
  | drop =>
      simp only [Supervisor.step, Supervisor.drop] at taken
      split at taken
      · cases taken
      · next d rest dropping =>
        obtain ⟨bus, ran, same⟩ := Option.map_eq_some_iff.mp taken
        cases same
        have owned := served.dropping d (dropping ▸ List.mem_cons_self)
        exact Drop.run_frame owned distinct ran
  | _ =>
      simp only [Supervisor.step] at taken
      split at taken
      · cases taken
        exact .refl m hub
      · cases taken

namespace HubInv
variable {hub : Hub}

theorem registerWake (inv : HubInv hub) (filter : EventFilter) (n : NotifyId) :
    HubInv { hub with bus := hub.bus.registerWake filter n } :=
  { inv with
    wakes := by
      intro wake entry found
      rw [EventBus.registerWake, getElem?_insert_eq] at found
      split at found
      · next same => exact same ▸ Nat.lt_succ_self _
      · exact Nat.lt_succ_of_lt (inv.wakes wake entry found) }

theorem subscribeLabeled (inv : HubInv hub) (filter : EventFilter) (label : String)
    (holder : Holder) :
    HubInv
      { bus := hub.bus.subscribeLabeled filter label
        holders := hub.holders.insert hub.bus.nextSubscription holder } :=
  { inv with
    holders := by
      intro id holder found
      rw [getElem?_insert_eq] at found
      split at found
      · next same => exact same ▸ Nat.lt_succ_self _
      · exact Nat.lt_succ_of_lt (inv.holders id holder found) }

theorem receive (inv : HubInv hub) {id : SubscriptionId} {bus : EventBus}
    {message : SubscriberMessage} (received : hub.bus.receive id = some (bus, message)) :
    HubInv { hub with bus := bus } := by
  obtain ⟨slot, rest, _, _, rfl⟩ := EventBus.receive_eq_some.mp received
  exact { inv with }

theorem drop (inv : HubInv hub) {d : Drop} {bus : EventBus} (ran : d.run hub.bus = some bus) :
    HubInv { hub with bus := bus } := by
  cases d with
  | receiver id =>
      cases ran
      unfold EventBus.dropReceiver
      split
      · exact inv
      · exact { inv with }
  | wakeToken wake =>
      simp only [Drop.run] at ran
      split at ran
      · cases ran
      · cases ran
        refine { inv with wakes := fun wake' entry found => ?_ }
        rw [EventBus.dropWake, getElem?_erase_eq] at found
        split at found
        · cases found
        · exact inv.wakes wake' entry found
  | slotToken id =>
      cases ran
      exact { inv with }

theorem step (inv : HubInv hub) {n : NotifyId} {sup sup' : Supervisor} {hub' : Hub}
    {action : SupervisorAction} (taken : sup.step n hub action = some (hub', sup')) :
    HubInv hub' := by
  cases action with
  | subscribe filter =>
      simp only [Supervisor.step, Option.ite_none_right_eq_some] at taken
      obtain ⟨_, taken⟩ := taken
      unfold Supervisor.subscribe at taken
      split at taken
      · cases taken
        exact inv
      · split at taken
        · cases taken
          exact inv
        · split at taken
          · cases taken
          · cases taken
            exact inv.registerWake filter n
  | finishSubscribe =>
      simp only [Supervisor.step, Supervisor.finishSubscribe] at taken
      split at taken
      · cases taken
      · next filter wake _ =>
        cases taken
        exact inv.subscribeLabeled filter "subscribe_with_wake" (.plugin n)
  | collect =>
      simp only [Supervisor.step, Supervisor.collect] at taken
      split at taken
      · split at taken
        · cases taken
          exact inv
        · next bus message received =>
          cases taken
          exact inv.receive received
      · cases taken
  | drop =>
      simp only [Supervisor.step, Supervisor.drop] at taken
      split at taken
      · cases taken
      · obtain ⟨bus, ran, same⟩ := Option.map_eq_some_iff.mp taken
        cases same
        exact inv.drop ran
  | _ =>
      simp only [Supervisor.step] at taken
      split at taken
      · cases taken
        exact inv
      · cases taken

theorem withPublish (inv : HubInv hub) {publishes : List Publish}
    (spent : ∀ call ∈ publishes, call ∈ hub.bus.publishes ∨
      (call.signals ≠ none → call.remaining = [])) :
    HubInv { hub with bus := { hub.bus with publishes := publishes } } :=
  { inv with
    publishes := fun call mem signals =>
      (spent call mem).elim (inv.publishes call · signals) (· signals) }

theorem beginPublish (inv : HubInv hub) {event : Event} {eventId : Option Nat}
    {snapshot : List SubscriptionId} {bus : EventBus}
    (begun : hub.bus.beginPublish event eventId snapshot = some bus) :
    HubInv { hub with bus := bus } := by
  obtain ⟨_, rfl⟩ := EventBus.beginPublish_eq_some.mp begun
  apply inv.withPublish
  intro call mem
  apply (List.mem_append.mp mem).imp_right
  intro last
  obtain rfl := List.mem_singleton.mp last
  exact fun signals => absurd rfl signals

theorem deliver (inv : HubInv hub) {p : Nat} {bus : EventBus} {offer : Option Offer}
    (delivered : hub.bus.deliver p = some (bus, offer)) : HubInv { hub with bus := bus } := by
  obtain ⟨call, id, rest, slot, found, remaining, _, result⟩ :=
    EventBus.deliver_eq_some.mp delivered
  have unsignalled : ∀ sent, ∀ other ∈ hub.bus.publishes.set p (call.visit id rest sent),
      other ∈ hub.bus.publishes ∨ (other.signals ≠ none → other.remaining = []) := by
    intro sent other mem
    apply (List.mem_or_eq_of_mem_set mem).imp_right
    rintro rfl signals
    have := inv.publishes call (List.mem_of_getElem? found) signals
    rw [remaining] at this
    cases this
  rcases result with ⟨_, _, rfl⟩ | ⟨_, _, rfl⟩
  · exact inv.withPublish (unsignalled false)
  · exact { inv.withPublish (unsignalled _) with }

theorem beginSignal (inv : HubInv hub) {p : Nat} {order : List WakeId} {bus : EventBus}
    (begun : hub.bus.beginSignal p order = some bus) : HubInv { hub with bus := bus } := by
  obtain ⟨call, _, remaining, _, _, rfl⟩ := EventBus.beginSignal_eq_some.mp begun
  apply inv.withPublish
  intro other mem
  apply (List.mem_or_eq_of_mem_set mem).imp_right
  rintro rfl _
  exact remaining

theorem signal (inv : HubInv hub) {p : Nat} {bus : EventBus} {notified : Option NotifyId}
    (signalled : hub.bus.signal p = some (bus, notified)) : HubInv { hub with bus := bus } := by
  obtain ⟨call, wake, rest, found, pending, _, rfl⟩ := EventBus.signal_eq_some.mp signalled
  apply inv.withPublish
  intro other mem
  apply (List.mem_or_eq_of_mem_set mem).imp_right
  rintro rfl _
  exact inv.publishes call (List.mem_of_getElem? found) (by simp [pending])

end HubInv

/-! ## Every run -/

namespace SystemInv
variable {sys sys' : System}

theorem new : SystemInv .new := by
  refine ⟨⟨?_, ?_, ?_⟩, ?_, ?_⟩ <;> simp [System.new, EventBus.new]

theorem framed (inv : SystemInv sys) {hub : Hub} (hubInv : HubInv hub)
    (frame : ∀ n, Frame n sys.hub hub) : SystemInv { sys with hub := hub } :=
  { inv with
    hub := hubInv
    served := fun n sup found => (inv.served n sup found).frame (frame n) }

theorem start (inv : SystemInv sys) (subscribesEvents : Bool) :
    SystemInv { sys with
      supervisors := sys.supervisors.insert sys.nextNotify (.new subscribesEvents)
      nextNotify := sys.nextNotify + 1 } where
  hub := inv.hub
  served := by
    intro n sup found
    rw [getElem?_insert_eq] at found
    split at found
    · cases found
      constructor <;> simp [Supervisor.new]
    · exact inv.served n sup found
  fresh := by
    intro n sup found
    rw [getElem?_insert_eq] at found
    split at found
    · next same => exact same ▸ Nat.lt_succ_self _
    · exact Nat.lt_succ_of_lt (inv.fresh n sup found)

theorem supervisor (inv : SystemInv sys) {n : NotifyId} {sup sup' : Supervisor} {hub : Hub}
    {action : SupervisorAction} (found : sys.supervisors[n]? = some sup)
    (taken : sup.step n sys.hub action = some (hub, sup')) :
    SystemInv { sys with hub := hub, supervisors := sys.supervisors.insert n sup' } where
  hub := inv.hub.step taken
  served := by
    intro m other at_m
    rw [getElem?_insert_eq] at at_m
    split at at_m
    · next same =>
        subst same
        cases at_m
        exact (inv.served n sup found).step inv.hub taken
    · next distinct =>
        have frame := (inv.served n sup found).step_frame inv.hub distinct taken
        exact (inv.served m other at_m).frame frame
  fresh := by
    intro m other at_m
    rw [getElem?_insert_eq] at at_m
    split at at_m
    · next same => exact same ▸ inv.fresh n sup found
    · exact inv.fresh m other at_m

theorem signal (inv : SystemInv sys) {p : Nat} {bus : EventBus} {notified : Option NotifyId}
    (signalled : sys.hub.bus.signal p = some (bus, notified)) :
    SystemInv (notified.elim (sys.withBus bus) (sys.withBus bus).notifyOne) := by
  have hub := inv.hub.signal signalled
  have after : ∀ n sup, sys.supervisors[n]? = some sup → Served { sys.hub with bus := bus } n
      { sup with permit := sup.permit || decide (notified = some n) } :=
    fun n sup found => (inv.served n sup found).signal signalled
  have unsignalled : ∀ n sup, sys.supervisors[n]? = some sup → notified ≠ some n →
      Served { sys.hub with bus := bus } n sup := by
    intro n sup found other
    have := after n sup found
    rwa [decide_eq_false other, Bool.or_false] at this
  cases notified with
  | none => exact ⟨hub, fun n sup found => unsignalled n sup found (by simp), inv.fresh⟩
  | some n =>
      simp only [Option.elim_some, System.notifyOne, System.withBus]
      split
      · next absent =>
          refine ⟨hub, fun m sup found => unsignalled m sup found fun same => ?_, inv.fresh⟩
          cases same
          rw [absent] at found
          cases found
      · next sup present =>
          refine ⟨hub, fun m other found => ?_, fun m other found => ?_⟩
          · rw [getElem?_insert_eq] at found
            split at found
            · next same =>
                subst same
                cases found
                simpa using after n sup present
            · next distinct =>
                exact unsignalled m other found fun same => distinct (Option.some.inj same)
          · rw [getElem?_insert_eq] at found
            split at found
            · next same => exact same ▸ inv.fresh n sup present
            · exact inv.fresh m other found

theorem step (inv : SystemInv sys) {action : SystemAction} (taken : sys.step action = some sys') :
    SystemInv sys' := by
  cases action with
  | start subscribesEvents =>
      cases taken
      exact inv.start subscribesEvents
  | supervisor n action =>
      simp only [System.step] at taken
      split at taken
      · cases taken
      · next sup found =>
          obtain ⟨⟨hub, sup'⟩, stepped, rfl⟩ := Option.map_eq_some_iff.mp taken
          exact inv.supervisor found stepped
  | tailSubscribe filter label =>
      cases taken
      apply inv.framed (inv.hub.subscribeLabeled filter label .tail)
      exact fun n => .subscribeLabeled inv.hub n filter label .tail
  | tailReceive id =>
      simp only [System.step, Option.ite_none_right_eq_some] at taken
      obtain ⟨tail, taken⟩ := taken
      obtain ⟨⟨bus, message⟩, received, rfl⟩ := Option.map_eq_some_iff.mp taken
      apply inv.framed (inv.hub.receive received)
      exact fun n => .receive (by simp [tail]) received
  | tailDropReceiver id =>
      simp only [System.step, Option.ite_none_right_eq_some] at taken
      obtain ⟨tail, same⟩ := taken
      cases same
      apply inv.framed (inv.hub.drop (d := .receiver id) rfl)
      exact fun n => .dropReceiver (by simp [tail])
  | tailDropSlot id =>
      simp only [System.step, Option.ite_none_right_eq_some] at taken
      obtain ⟨_, same⟩ := taken
      cases same
      apply inv.framed (inv.hub.drop (d := .slotToken id) rfl)
      exact fun n => .dropSlot n sys.hub id
  | beginPublish event eventId snapshot =>
      obtain ⟨bus, begun, rfl⟩ := Option.map_eq_some_iff.mp taken
      exact ⟨inv.hub.beginPublish begun, fun n sup found =>
        (inv.served n sup found).beginPublish begun, inv.fresh⟩
  | deliver p =>
      obtain ⟨⟨bus, offer⟩, delivered, rfl⟩ := Option.map_eq_some_iff.mp taken
      exact ⟨inv.hub.deliver delivered, fun n sup found =>
        (inv.served n sup found).deliver inv.hub delivered, inv.fresh⟩
  | beginSignal p order =>
      obtain ⟨bus, begun, rfl⟩ := Option.map_eq_some_iff.mp taken
      exact ⟨inv.hub.beginSignal begun, fun n sup found =>
        (inv.served n sup found).beginSignal begun, inv.fresh⟩
  | signal p =>
      obtain ⟨⟨bus, notified⟩, signalled, rfl⟩ := Option.map_eq_some_iff.mp taken
      exact inv.signal signalled

end SystemInv

theorem exec_systemInv {as : List SystemAction} {sys : System}
    (ran : exec System.step .new as = some sys) : SystemInv sys :=
  exec_invariant (fun _ _ _ inv taken => inv.step taken) SystemInv.new ran

/-- In particular no queued event of a parked supervisor waits for a later event: once the publishes
in flight have returned, the permit is there. -/
theorem no_lost_wake {as : List SystemAction} {sys : System}
    (ran : exec System.step .new as = some sys) {n : NotifyId} {sup : Supervisor}
    (running : sys.supervisors[n]? = some sup) (parked : sup.phase = .parked)
    {sub : EventSubscription} (live : sub ∈ sup.subscriptions) {slot : Subscriber}
    (found : sys.hub.bus.slots[sub.id]? = some slot) {message : SubscriberMessage}
    (queued : message ∈ slot.queue) :
    (sup.permit = true ∨
      ∃ call ∈ sys.hub.bus.publishes, call.event = message.event ∧ call.owes sub) ∧
    ((∀ call ∈ sys.hub.bus.publishes, call.signals = some []) → sup.permit = true) := by
  obtain ⟨_, _, slot', found', _, covers⟩ := ((exec_systemInv ran).served n sup running).live sub live
  obtain rfl := Option.some.inj (found.symm.trans found')
  have covered : sup.permit = true ∨
      ∃ call ∈ sys.hub.bus.publishes, call.event = message.event ∧ call.owes sub := by
    apply (covers message queued).covered.imp_right
    intro covered
    apply covered.resolve_left
    simp [Supervisor.willDrain, parked]
  refine ⟨covered, fun returned => covered.resolve_right ?_⟩
  intro ⟨call, in_flight, _, _, unsignalled⟩
  have done := returned call in_flight
  rcases unsignalled with none | ⟨rest, at_rest, listed⟩
  · cases done.symm.trans none
  · cases done.symm.trans at_rest
    cases listed

theorem no_lost_wake_unsignalled :
    let event : Event := ⟨none, 5, "plugin", "instance", none, .custom ⟨"scene.on", ""⟩⟩
    let as : List SystemAction := [.start true,
      .supervisor 0 (.subscribe ⟨none, some "scene."⟩), .supervisor 0 .finishSubscribe,
      .supervisor 0 .drain, .supervisor 0 .collect, .supervisor 0 .dispatch, .supervisor 0 .park,
      .beginPublish event (some 1) [1], .deliver 0]
    ∃ sys sup sub slot message, exec System.step .new as = some sys ∧
      sys.supervisors[(0 : NotifyId)]? = some sup ∧ sup.phase = .parked ∧
      sub ∈ sup.subscriptions ∧ sys.hub.bus.slots[sub.id]? = some slot ∧ message ∈ slot.queue ∧
      (sup.permit = true ∨
        ∃ call ∈ sys.hub.bus.publishes, call.event = message.event ∧ call.owes sub) ∧
      ((∀ call ∈ sys.hub.bus.publishes, call.signals = some []) → sup.permit = true) := by
  intro event as
  refine ⟨_, _, _, _, _, rfl, rfl, rfl, List.mem_singleton_self _, rfl,
    List.mem_singleton_self _, ?_⟩
  exact @no_lost_wake as _ rfl 0 _ rfl rfl _ (List.mem_singleton_self _) _ rfl _
    (List.mem_singleton_self _)

end OxidHome.Events

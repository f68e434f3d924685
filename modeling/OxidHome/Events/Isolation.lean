import OxidHome.Events.Lag

/-!
# Isolation of subscribers

`AgreeOff id` relates two runs that differ in what the consumer of `id` did: the queue of `id`, and
which publishes got through to it.
-/

namespace OxidHome.Events
open Wit Library
open Std (TreeMap)

def BusAction.consumes (id : SubscriptionId) : BusAction → Bool
  | .receive id' | .dropReceiver id' => id' = id
  | _ => false

def Publish.undelivered (call : Publish) : Publish := { call with delivered := [] }

structure SameAt (run other : BusRun) (id : SubscriptionId) : Prop where
  slot : run.bus.slots[id]? = other.bus.slots[id]?
  offers : run.offersTo id = other.offersTo id
  received : run.receivedBy id = other.receivedBy id

structure AgreeOff (id : SubscriptionId) (run other : BusRun) : Prop where
  same : ∀ id', id ≠ id' → SameAt run other id'
  filter : run.bus.slots[id]?.map (·.filter) = other.bus.slots[id]?.map (·.filter)
  subscribers : run.bus.subscribers = other.bus.subscribers
  nextSubscription : run.bus.nextSubscription = other.bus.nextSubscription
  wakes : run.bus.wakes = other.bus.wakes
  nextWake : run.bus.nextWake = other.bus.nextWake
  publishes : run.bus.publishes.map Publish.undelivered =
    other.bus.publishes.map Publish.undelivered

namespace SameAt
variable {run other : BusRun} {id : SubscriptionId}

theorem trans {third : BusRun} (first : SameAt run other id) (second : SameAt other third id) :
    SameAt run third id where
  slot := first.slot.trans second.slot
  offers := first.offers.trans second.offers
  received := first.received.trans second.received

theorem symm (same : SameAt run other id) : SameAt other run id where
  slot := same.slot.symm
  offers := same.offers.symm
  received := same.received.symm

theorem write (same : SameAt run other id) (bus bus' : EventBus) (offers : List Offer)
    (received : List (SubscriptionId × SubscriberMessage))
    (slot : bus.slots[id]? = bus'.slots[id]?) :
    SameAt ⟨bus, run.offers ++ offers, run.received ++ received⟩
      ⟨bus', other.offers ++ offers, other.received ++ received⟩ id where
  slot := slot
  offers := by
    have before := same.offers
    unfold BusRun.offersTo at before ⊢
    rw [List.filter_append, List.filter_append, before]
  received := by
    have before := same.received
    unfold BusRun.receivedBy at before ⊢
    rw [List.filter_append, List.filter_append, List.map_append, List.map_append, before]

end SameAt

namespace AgreeOff
variable {id : SubscriptionId} {run other next : BusRun}

theorem refl (id : SubscriptionId) (run : BusRun) : AgreeOff id run run :=
  ⟨fun _ _ => ⟨rfl, rfl, rfl⟩, rfl, rfl, rfl, rfl, rfl, rfl⟩

theorem publish (agree : AgreeOff id run other) {p : Nat} {call : Publish}
    (found : run.bus.publishes[p]? = some call) :
    ∃ call', other.bus.publishes[p]? = some call' ∧ call'.undelivered = call.undelivered := by
  have at_p := congrArg (·[p]?) agree.publishes
  simp only [List.getElem?_map, found, Option.map_some] at at_p
  exact Option.map_eq_some_iff.mp at_p.symm

theorem locked (agree : AgreeOff id run other) : run.bus.wakesLocked = other.bus.wakesLocked := by
  have view : ∀ publishes : List Publish,
      publishes.any (fun call => call.signals.any (!·.isEmpty)) =
        (publishes.map Publish.undelivered).any fun call => call.signals.any (!·.isEmpty) := by
    intro publishes
    rw [List.any_map]
    rfl
  unfold EventBus.wakesLocked
  rw [view, agree.publishes, ← view]

theorem skip {a : BusAction} (agree : AgreeOff id run other) (consumes : a.consumes id = true)
    (taken : busStep run a = some next) : AgreeOff id next other := by
  cases a with
  | receive id' =>
      obtain rfl := of_decide_eq_true consumes
      obtain ⟨⟨bus, message⟩, received, rfl⟩ := Option.map_eq_some_iff.mp taken
      obtain ⟨sub, rest, found, queue, rfl⟩ := EventBus.receive_eq_some.mp received
      have filter := agree.filter
      refine { agree with same := fun id distinct => ?_, filter := ?_ }
      · have same := agree.same id distinct
        refine ⟨?_, same.offers, ?_⟩
        · rw [getElem?_insert_eq, if_neg distinct, same.slot]
        · have := same.received
          unfold BusRun.receivedBy at this ⊢
          simp [distinct, this]
      · rw [getElem?_insert_self, ← filter, found]
        rfl
  | dropReceiver id' =>
      obtain rfl := of_decide_eq_true consumes
      cases taken
      unfold EventBus.dropReceiver
      split
      · exact agree
      · next sub found =>
          have filter := agree.filter
          refine { agree with same := fun id distinct => ?_, filter := ?_ }
          · have same := agree.same id distinct
            refine ⟨?_, same.offers, same.received⟩
            rw [getElem?_insert_eq, if_neg distinct, same.slot]
          · rw [getElem?_insert_self, ← filter, found]
            rfl
  | _ => cases consumes

theorem subscribe (agree : AgreeOff id run other) (filter : EventFilter) (label : String) :
    AgreeOff id { run with bus := run.bus.subscribeLabeled filter label }
      { other with bus := other.bus.subscribeLabeled filter label } := by
  refine { agree with same := fun id' distinct => ?_, filter := ?_, subscribers := ?_
                      nextSubscription := ?_ }
  · have same := agree.same id' distinct
    refine ⟨?_, same.offers, same.received⟩
    simp only [EventBus.subscribeLabeled, getElem?_insert_eq, same.slot, agree.nextSubscription]
  · simp only [EventBus.subscribeLabeled, getElem?_insert_eq, agree.nextSubscription]
    split
    · rfl
    · exact agree.filter
  · simp only [EventBus.subscribeLabeled, agree.subscribers, agree.nextSubscription]
  · simp only [EventBus.subscribeLabeled, agree.nextSubscription]

theorem dropReceiver (agree : AgreeOff id run other) {id' : SubscriptionId} (distinct : id ≠ id') :
    AgreeOff id { run with bus := run.bus.dropReceiver id' }
      { other with bus := other.bus.dropReceiver id' } := by
  have slot := (agree.same id' distinct).slot
  unfold EventBus.dropReceiver
  rw [← slot]
  cases found : run.bus.slots[id']? with
  | none => exact agree
  | some sub =>
      refine { agree with same := fun id'' off => ?_, filter := ?_ }
      · have same := agree.same id'' off
        refine ⟨?_, same.offers, same.received⟩
        simp only [getElem?_insert_eq, same.slot]
      · simp only [getElem?_insert_eq, if_neg distinct.symm]
        exact agree.filter

theorem receive (agree : AgreeOff id run other) {id' : SubscriptionId} (distinct : id ≠ id')
    {bus : EventBus} {message : SubscriberMessage}
    (received : run.bus.receive id' = some (bus, message)) :
    ∃ bus', other.bus.receive id' = some (bus', message) ∧
      AgreeOff id { run with bus := bus, received := run.received ++ [(id', message)] }
        { other with bus := bus', received := other.received ++ [(id', message)] } := by
  have slot := (agree.same id' distinct).slot
  obtain ⟨sub, rest, found, queue, rfl⟩ := EventBus.receive_eq_some.mp received
  refine ⟨_, EventBus.receive_eq_some.mpr ⟨sub, rest, slot ▸ found, queue, rfl⟩,
    { agree with same := fun id'' off => ?_, filter := ?_ }⟩
  · have same := agree.same id'' off
    have next := same.write
      { run.bus with slots := run.bus.slots.insert id' { sub with queue := rest } }
      { other.bus with slots := other.bus.slots.insert id' { sub with queue := rest } }
      [] [(id', message)] (by simp only [getElem?_insert_eq, same.slot])
    simpa using next
  · simp only [getElem?_insert_eq, if_neg distinct.symm]
    exact agree.filter

theorem set_publish (agree : AgreeOff id run other) (p : Nat) {call call' : Publish}
    (same : call.undelivered = call'.undelivered) :
    (run.bus.publishes.set p call).map Publish.undelivered =
      (other.bus.publishes.set p call').map Publish.undelivered := by
  rw [List.map_set, List.map_set, agree.publishes, same]

theorem withPublishes (agree : AgreeOff id run other) {publishes publishes' : List Publish}
    (same : publishes.map Publish.undelivered = publishes'.map Publish.undelivered) :
    AgreeOff id { run with bus := { run.bus with publishes := publishes } }
      { other with bus := { other.bus with publishes := publishes' } } :=
  { agree with
    same := fun id' off =>
      have before := agree.same id' off
      ⟨before.slot, before.offers, before.received⟩
    publishes := same }

theorem deliver (agree : AgreeOff id run other) {p : Nat} {bus : EventBus} {offer : Option Offer}
    (delivered : run.bus.deliver p = some (bus, offer)) :
    ∃ bus' offer', other.bus.deliver p = some (bus', offer') ∧
      AgreeOff id { run with bus := bus, offers := run.offers ++ offer.toList }
        { other with bus := bus', offers := other.offers ++ offer'.toList } := by
  obtain ⟨call, id', rest, sub, found, remaining, at_id, result⟩ :=
    EventBus.deliver_eq_some.mp delivered
  obtain ⟨call', found', undelivered⟩ := agree.publish found
  obtain ⟨event, visited, remaining', _, signals⟩ := Publish.mk.inj undelivered
  replace remaining' := remaining'.trans remaining
  have visit : ∀ sent sent',
      (call.visit id' rest sent).undelivered = (call'.visit id' rest sent').undelivered := by
    intro sent sent'
    change call'.event = call.event at event
    change call'.visited = call.visited at visited
    change call'.signals = call.signals at signals
    simp only [Publish.undelivered, Publish.visit, event, visited, signals]
  have slot : ∃ sub', other.bus.slots[id']? = some sub' ∧ sub'.filter = sub.filter ∧
      (id ≠ id' → sub' = sub) := by
    by_cases own : id = id'
    · subst own
      have filter := agree.filter
      rw [at_id] at filter
      obtain ⟨sub', at_id', same⟩ := Option.map_eq_some_iff.mp filter.symm
      exact ⟨sub', at_id', same, fun off => absurd rfl off⟩
    · exact ⟨sub, (agree.same id' own).slot ▸ at_id, rfl, fun _ => rfl⟩
  obtain ⟨sub', at_id', filter, same_sub⟩ := slot
  rcases result with ⟨miss, rfl, rfl⟩ | ⟨hit, rfl, rfl⟩
  · refine ⟨_, none, EventBus.deliver_eq_some.mpr ⟨call', id', rest, sub', found', remaining',
      at_id', Or.inl ⟨?_, rfl, rfl⟩⟩, ?_⟩
    · exact (congrArg₂ filterMatches filter event).trans miss
    · simpa using agree.withPublishes (agree.set_publish p (visit false false))
  · refine ⟨_, _, EventBus.deliver_eq_some.mpr ⟨call', id', rest, sub', found', remaining',
      at_id', Or.inr ⟨?_, rfl, rfl⟩⟩, ?_⟩
    · exact (congrArg₂ filterMatches filter event).trans hit
    · change call'.event = call.event at event
      refine { agree with same := fun other_id off => ?_, filter := ?_
                          publishes := agree.set_publish p (visit _ _) }
      · have same := agree.same other_id off
        by_cases own : id = id'
        · subst own
          refine ⟨?_, ?_, same.received⟩
          · simp only [getElem?_insert_eq, if_neg off, same.slot]
          · have before := same.offers
            unfold BusRun.offersTo at before ⊢
            simp [off, before]
        · obtain rfl := same_sub own
          refine ⟨?_, ?_, same.received⟩
          · simp only [getElem?_insert_eq, same.slot, event]
          · have before := same.offers
            unfold BusRun.offersTo at before ⊢
            simp [before, event]
      · simp only [getElem?_insert_eq]
        split
        · simp [filter]
        · exact agree.filter

theorem withWakes (agree : AgreeOff id run other) (wakes : TreeMap WakeId WakeEntry) (n : Nat) :
    AgreeOff id { run with bus := { run.bus with wakes := wakes, nextWake := n } }
      { other with bus := { other.bus with wakes := wakes, nextWake := n } } :=
  { agree with
    same := fun id' off =>
      have before := agree.same id' off
      ⟨before.slot, before.offers, before.received⟩
    wakes := rfl
    nextWake := rfl }

theorem move {a : BusAction} (agree : AgreeOff id run other) (elsewhere : a.consumes id = false)
    (taken : busStep run a = some next) :
    ∃ next', busStep other a = some next' ∧ AgreeOff id next next' := by
  cases a with
  | subscribe filter label =>
      cases taken
      exact ⟨_, rfl, agree.subscribe filter label⟩
  | registerWake filter notify =>
      simp only [busStep, EventBus.registerWake, agree.locked, agree.wakes, agree.nextWake]
        at taken ⊢
      split at taken
      · cases taken
      · next free =>
          cases taken
          exact ⟨_, if_neg free, agree.withWakes _ _⟩
  | dropReceiver id' =>
      cases taken
      exact ⟨_, rfl, agree.dropReceiver (of_decide_eq_false elsewhere ∘ Eq.symm)⟩
  | dropWake wake =>
      simp only [busStep, EventBus.dropWake, agree.locked, agree.wakes] at taken ⊢
      split at taken
      · cases taken
      · next free =>
          cases taken
          refine ⟨_, if_neg free, ?_⟩
          rw [agree.nextWake]
          exact agree.withWakes _ _
  | dropSlot id' =>
      cases taken
      refine ⟨_, rfl, { agree with same := fun id'' off => ?_, subscribers := ?_ }⟩
      · have before := agree.same id'' off
        exact ⟨before.slot, before.offers, before.received⟩
      · simp only [EventBus.dropSlot, agree.subscribers]
  | receive id' =>
      obtain ⟨⟨bus, message⟩, received, rfl⟩ := Option.map_eq_some_iff.mp taken
      obtain ⟨bus', received', next⟩ :=
        agree.receive (of_decide_eq_false elsewhere ∘ Eq.symm) received
      exact ⟨_, Option.map_eq_some_iff.mpr ⟨_, received', rfl⟩, next⟩
  | beginPublish event eventId snapshot =>
      obtain ⟨bus, begun, rfl⟩ := Option.map_eq_some_iff.mp taken
      obtain ⟨perm, rfl⟩ := EventBus.beginPublish_eq_some.mp begun
      rw [agree.subscribers] at perm
      refine ⟨_, Option.map_eq_some_iff.mpr
        ⟨_, EventBus.beginPublish_eq_some.mpr ⟨perm, rfl⟩, rfl⟩, agree.withPublishes ?_⟩
      rw [List.map_append, List.map_append, agree.publishes]
  | deliver p =>
      obtain ⟨⟨bus, offer⟩, delivered, rfl⟩ := Option.map_eq_some_iff.mp taken
      obtain ⟨bus', offer', delivered', next⟩ := agree.deliver delivered
      exact ⟨_, Option.map_eq_some_iff.mpr ⟨_, delivered', rfl⟩, next⟩
  | beginSignal p order =>
      obtain ⟨bus, begun, rfl⟩ := Option.map_eq_some_iff.mp taken
      obtain ⟨call, found, remaining, unsignalled, perm, rfl⟩ :=
        EventBus.beginSignal_eq_some.mp begun
      obtain ⟨call', found', same⟩ := agree.publish found
      obtain ⟨event, visited, remaining', _, signals⟩ := Publish.mk.inj same
      rw [agree.wakes] at perm
      refine ⟨_, Option.map_eq_some_iff.mpr ⟨_, EventBus.beginSignal_eq_some.mpr
        ⟨call', found', remaining'.trans remaining, signals.trans unsignalled, perm, rfl⟩, rfl⟩,
        agree.withPublishes (agree.set_publish p ?_)⟩
      exact congrArg (fun call : Publish => { call with signals := some order }) same.symm
  | signal p =>
      obtain ⟨⟨bus, notified⟩, signalled, rfl⟩ := Option.map_eq_some_iff.mp taken
      obtain ⟨call, wake, rest, found, pending, _, rfl⟩ := EventBus.signal_eq_some.mp signalled
      obtain ⟨call', found', same⟩ := agree.publish found
      have signals := (Publish.mk.inj same).2.2.2.2
      refine ⟨_, Option.map_eq_some_iff.mpr ⟨_, EventBus.signal_eq_some.mpr
        ⟨call', wake, rest, found', signals.trans pending, rfl, rfl⟩, rfl⟩,
        agree.withPublishes (agree.set_publish p ?_)⟩
      exact congrArg (fun call : Publish => { call with signals := some rest }) same.symm

end AgreeOff

theorem run_without_consumer {as : List BusAction} {run : BusRun}
    (ran : exec busStep .new as = some run) (id : SubscriptionId) :
    ∃ quiet, exec busStep .new (as.filter (!·.consumes id)) = some quiet ∧
      AgreeOff id run quiet := by
  apply exec_simulation _ _ (AgreeOff.refl id .new) ran
  · exact fun _ _ _ _ agree consumes taken => agree.skip consumes taken
  · exact fun _ _ _ _ agree elsewhere taken => agree.move elsewhere taken

def droppedSince (offers : List Offer) : Nat :=
  (offers.reverse.takeWhile (·.attempt = .full)).length

structure LagAccount (run : BusRun) (id : SubscriptionId) (sub : Subscriber) : Prop where
  matching : ∀ o ∈ run.offersTo id, filterMatches sub.filter o.event = true
  offered : ∀ (p : Nat) call, run.bus.publishes[p]? = some call →
    filterMatches sub.filter call.event = true →
      (id ∈ call.visited ↔ ∃ o ∈ run.offersTo id, o.publish = p ∧ o.event = call.event)
  once : ((run.offersTo id).map Offer.publish).Nodup
  subsequence :
    ((run.enqueuedTo id).map (·.event)).Sublist ((run.offersTo id).map (·.event))
  skipped : ∀ before o after m, run.offersTo id = before ++ o :: after →
    o.attempt = .enqueued m → m = ⟨o.event, droppedSince before⟩
  dropped : sub.dropped = (run.offersTo id).countP (·.attempt = .full)
  balance : ((run.enqueuedTo id).map (·.skippedBefore)).sum + sub.pendingLag = sub.dropped
  queued : run.enqueuedTo id = run.receivedBy id ++ sub.queue

theorem Offer.lost_iff {o : Offer} (stayed : o.attempt ≠ .closed) :
    o.skipped.isNone = decide (o.attempt = .full) := by
  cases at_o : o.attempt with
  | enqueued m => simp [Offer.skipped, Offer.message, at_o]
  | full => simp [Offer.skipped, Offer.message, at_o]
  | closed => exact absurd at_o stayed

theorem lostSince_skipped {offers : List Offer} (stayed : ∀ o ∈ offers, o.attempt ≠ .closed) :
    lostSince Offer.skipped offers = droppedSince offers := by
  induction offers using List.reverseRecOn with
  | nil => rfl
  | append_singleton offers o ih =>
      have last := Offer.lost_iff (stayed o (by simp))
      have before := ih fun o' mem => stayed o' (List.mem_append_left _ mem)
      simp only [lostSince, droppedSince, List.reverse_append, List.reverse_singleton,
        List.singleton_append, List.takeWhile_cons, last] at before ⊢
      split
      · rw [List.length_cons, List.length_cons, before]
      · rfl

theorem BusInv.account {run : BusRun} (inv : BusInv run) {id : SubscriptionId} {sub : Subscriber}
    (found : run.bus.slots[id]? = some sub) (stays : sub.closed = false) :
    LagAccount run id sub := by
  have tally := inv.tally id sub found stays
  have covered := inv.covered id sub found stays
  constructor
  case matching => exact tally.matching
  case once => exact tally.once
  case subsequence => exact tally.sublist
  case balance => exact tally.balance
  case queued => exact tally.queued
  case offered =>
    intro p call at_p hit
    constructor
    · intro seen
      obtain ⟨o, mem, rfl⟩ := covered.visited p call at_p seen hit
      obtain ⟨made, at_o, same, _⟩ := covered.made o mem
      obtain rfl := Option.some.inj (at_p.symm.trans at_o)
      exact ⟨o, mem, rfl, same.symm⟩
    · intro ⟨o, mem, of_p, _⟩
      obtain ⟨made, at_o, _, seen⟩ := covered.made o mem
      obtain rfl := Option.some.inj (at_p.symm.trans (of_p ▸ at_o))
      exact seen
  case skipped =>
    intro before o after m split sent
    have message : o.message = some m := by simp [Offer.message, sent]
    have stayed : ∀ o' ∈ before, o'.attempt ≠ .closed := fun o' mem =>
      tally.stayed o' (split ▸ List.mem_append_left _ mem)
    have skipped := tally.exact before o after m.skippedBefore split (by simp [Offer.skipped, message])
    have event := tally.carried o (split ▸ by simp) m message
    rw [lostSince_skipped stayed] at skipped
    rw [← skipped, ← event]
  case dropped =>
    rw [tally.dropped, lost]
    exact List.countP_congr fun o mem => by rw [Offer.lost_iff (tally.stayed o mem)]

theorem lag_accounting {as : List BusAction} {run : BusRun}
    (ran : exec busStep .new as = some run) :
    (∀ (id : SubscriptionId) sub, run.bus.slots[id]? = some sub → sub.closed = false →
      LagAccount run id sub) ∧
    ∀ id bs run', exec busStep .new bs = some run' →
      bs.filter (!·.consumes id) = as.filter (!·.consumes id) →
      ∀ id', id ≠ id' → SameAt run run' id' := by
  constructor
  · intro id sub found stays
    exact (exec_busInv ran).account found stays
  · intro id bs run' ran' same id' distinct
    obtain ⟨quiet, without, agree⟩ := run_without_consumer ran id
    obtain ⟨quiet', without', agree'⟩ := run_without_consumer ran' id
    rw [same, without] at without'
    obtain rfl := Option.some.inj without'
    exact (agree.same id' distinct).trans (agree'.same id' distinct).symm

theorem lag_accounting_two :
    let event : Event := ⟨none, 5, "plugin", "instance", none, .custom ⟨"scene.on", ""⟩⟩
    let filter : EventFilter := ⟨none, some "scene."⟩
    let as := [BusAction.subscribe filter "tail", .subscribe ⟨none, none⟩ "all",
      .beginPublish event (some 1) [1, 2], .beginPublish event (some 2) [2, 1],
      .deliver 1, .deliver 0, .receive 2, .deliver 1, .deliver 0]
    ∃ run, exec busStep .new as = some run ∧
      (∀ (id : SubscriptionId) sub, run.bus.slots[id]? = some sub → sub.closed = false →
        LagAccount run id sub) ∧
      ∀ id bs run', exec busStep .new bs = some run' →
        bs.filter (!·.consumes id) = as.filter (!·.consumes id) →
        ∀ id', id ≠ id' → SameAt run run' id' :=
  ⟨_, rfl, lag_accounting rfl⟩

end OxidHome.Events

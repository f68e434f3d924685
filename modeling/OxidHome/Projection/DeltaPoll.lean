import OxidHome.Projection.Revisions
import OxidHome.Library.Machine

/-!
# Delta polling converges

A client of `deltas_since_with_revision` that starts empty, overwrites its slots with every page
and moves its cursor to the largest revision received, against any interleaving of mutations.
-/

namespace OxidHome.Projection
open Wit Library Std

def slotted (entries : List DeviceState) : List (SlotKey × DeviceState) :=
  entries.map fun e => (e.slot, e)

namespace StoreInner

def changesSince (inner : StoreInner) (sinceRevision : Nat) : List DeviceState :=
  ((inner.entries.toList.map (·.2)).filter fun m => m.globalRevision > sinceRevision).insertionSort
    fun a b => a.globalRevision ≤ b.globalRevision

theorem deltasSince_reset (inner : StoreInner) (since limit : Nat) :
    (inner.deltasSinceWithRevision since limit).resetRequired = false ↔
      since ≤ inner.globalRevision ∧ inner.evictedThroughRevision ≤ since := by
  unfold deltasSinceWithRevision
  split <;> simp <;> omega

theorem deltasSince_entries {inner : StoreInner} {since limit : Nat}
    (answered : (inner.deltasSinceWithRevision since limit).resetRequired = false) :
    (inner.deltasSinceWithRevision since limit).entries = (inner.changesSince since).take limit := by
  rw [deltasSince_reset] at answered
  unfold deltasSinceWithRevision
  rw [if_neg (by omega)]
  rfl

theorem mem_changesSince {inner : StoreInner} (valid : inner.Valid) {since : Nat}
    {e : DeviceState} :
    e ∈ inner.changesSince since ↔
      inner.entries[e.slot]? = some e ∧ since < e.globalRevision := by
  simp only [changesSince, List.mem_insertionSort, List.mem_filter, List.mem_map,
    decide_eq_true_eq]
  constructor
  · rintro ⟨⟨⟨k, e⟩, mem, rfl⟩, newer⟩
    have h := mem_toList.mp mem
    rw [DeviceState.slot, valid.keyed k e h]
    exact ⟨h, newer⟩
  · rintro ⟨h, newer⟩
    exact ⟨⟨(e.slot, e), mem_toList.mpr h, rfl⟩, newer⟩

theorem changesSince_take_le {inner : StoreInner} {since limit : Nat} {kept cut : DeviceState}
    (hk : kept ∈ (inner.changesSince since).take limit) (hc : cut ∈ inner.changesSince since)
    (out : cut ∉ (inner.changesSince since).take limit) :
    kept.globalRevision ≤ cut.globalRevision := by
  have sorted : (inner.changesSince since).Pairwise fun a b =>
      a.globalRevision ≤ b.globalRevision := by
    have : Std.Total fun a b : DeviceState => a.globalRevision ≤ b.globalRevision :=
      ⟨fun a b => Nat.le_total _ _⟩
    have : IsTrans DeviceState fun a b => a.globalRevision ≤ b.globalRevision :=
      ⟨fun _ _ _ => Nat.le_trans⟩
    exact List.pairwise_insertionSort _ _
  rw [← List.take_append_drop limit (inner.changesSince since), List.pairwise_append] at sorted
  rw [← List.take_append_drop limit (inner.changesSince since), List.mem_append] at hc
  exact sorted.2.2 kept hk cut (hc.resolve_left out)

theorem deltasSince_isPage {inner : StoreInner} (valid : inner.Valid) {since limit : Nat}
    (positive : 0 < limit)
    (answered : (inner.deltasSinceWithRevision since limit).resetRequired = false) :
    IsPage DeviceState.globalRevision inner.view since
      (slotted (inner.deltasSinceWithRevision since limit).entries) := by
  rw [deltasSince_entries answered]
  constructor
  · intro p mem
    obtain ⟨e, he, rfl⟩ := List.mem_map.mp mem
    exact (mem_changesSince valid).mp (List.mem_of_mem_take he)
  · intro k a h newer
    have keyed : a.slot = k := valid.keyed k a h
    have changed : a ∈ inner.changesSince since :=
      (mem_changesSince valid).mpr ⟨by rw [keyed]; exact h, newer⟩
    by_cases kept : a ∈ (inner.changesSince since).take limit
    · exact Or.inl (List.mem_map.mpr ⟨a, kept, by rw [keyed]⟩)
    · refine Or.inr ⟨?_, fun p mem => ?_⟩
      · have : (inner.changesSince since).take limit ≠ [] := by
          simp only [ne_eq, List.take_eq_nil_iff, not_or]
          exact ⟨by omega, List.ne_nil_of_mem changed⟩
        simpa [slotted] using this
      · obtain ⟨b, hb, rfl⟩ := List.mem_map.mp mem
        refine Nat.lt_of_le_of_ne (changesSince_take_le hb changed kept) fun same => kept ?_
        -- revisions are distinct, so equal revisions name one slot
        have hb' := ((mem_changesSince valid).mp (List.mem_of_mem_take hb)).1
        have slots := valid.view_wf.rev_inj _ _ _ _ hb' h same
        rw [slots] at hb'
        exact Option.some.inj (hb'.symm.trans h) ▸ hb

end StoreInner

structure PollState where
  store : DeviceStateStore
  client : Client SlotKey DeviceState

inductive PollStep where
  | mutate (m : Mutation)
  | poll (limit : Nat) (positive : 0 < limit)

/-- A poll answered with `reset_required` ends the run: the client has to resync. -/
def pollStep (state : PollState) : PollStep → Option PollState
  | .mutate m => some { state with store := state.store.mutate m }
  | .poll limit _ =>
      let page := state.store.inner.deltasSinceWithRevision state.client.cursor limit
      if page.resetRequired then none
      else some { state with
        client := state.client.receive DeviceState.globalRevision (slotted page.entries) }

abbrev PollState.InStep (state : PollState) : Prop :=
  Synced DeviceState.globalRevision Retired state.store.inner.view state.client

theorem pollStep_inStep (state : PollState) (step : PollStep) (next : PollState)
    (inStep : state.InStep) (h : pollStep state step = some next) : next.InStep := by
  cases step with
  | mutate m =>
      cases h
      exact inStep.advance (state.store.mutate_advances m)
  | poll limit positive =>
      simp only [pollStep] at h
      split at h
      · cases h
      · rename_i answered
        cases h
        rw [Bool.not_eq_true] at answered
        exact Synced.receive state.store.valid.view_wf inStep
          (StoreInner.deltasSince_isPage state.store.valid positive answered)
          ((StoreInner.deltasSince_reset _ _ _).mp answered).2

/-- Whenever a poll answers an empty page, the client holds exactly the store's entries, and what it
holds besides them is marked stale. -/
theorem delta_poll_converges (nonce : Vector UInt8 16) (secret : Vector UInt8 32)
    (steps : List PollStep) (state : PollState)
    (run : exec pollStep ⟨.new nonce secret, .empty⟩ steps = some state)
    (limit : Nat) (positive : 0 < limit)
    (answered : (state.store.inner.deltasSinceWithRevision state.client.cursor limit).resetRequired
      = false)
    (empty : (state.store.inner.deltasSinceWithRevision state.client.cursor limit).entries = []) :
    (∀ (slot : SlotKey) (e : DeviceState), state.store.inner.entries[slot]? = some e →
      state.client.held slot = some e) ∧
    ∀ (slot : SlotKey) (e : DeviceState), state.client.held slot = some e →
      state.store.inner.entries[slot]? = none → e.quality = .stale := by
  have start : PollState.InStep ⟨.new nonce secret, .empty⟩ :=
    Synced.empty (DeviceStateStore.new nonce secret).valid.view_wf
  have inStep : state.InStep := exec_invariant pollStep_inStep start run
  have page := StoreInner.deltasSince_isPage state.store.valid positive answered
  rw [empty] at page
  exact inStep.of_empty_page page ((StoreInner.deltasSince_reset _ _ _).mp answered).2

def switchSteps : List PollStep :=
  [.mutate (.applyDelta "dev-1" "alpha" "switch" [⟨"state", .boolVal true⟩] 0 1),
    .poll 1 (by decide), .mutate (.markDeviceStale "dev-1" 2), .poll 1 (by decide)]

theorem delta_poll_converges_switch :
    ∃ state, exec pollStep ⟨.new (.replicate 16 0) (.replicate 32 0), .empty⟩ switchSteps =
        some state ∧
      (∀ (slot : SlotKey) (e : DeviceState), state.store.inner.entries[slot]? = some e →
        state.client.held slot = some e) ∧
      ∀ (slot : SlotKey) (e : DeviceState), state.client.held slot = some e →
        state.store.inner.entries[slot]? = none → e.quality = .stale :=
  ⟨_, rfl, delta_poll_converges (.replicate 16 0) (.replicate 32 0) switchSteps _ rfl 1
    (by decide) rfl rfl⟩

end OxidHome.Projection

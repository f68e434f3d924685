import OxidHome.Api.AllDevicesState
import OxidHome.Host.Capability

/-!
# What one resync page holds

A page lists whole devices, the first after the cursor, in order; without a next cursor it lists all
that are left. Capability names must sort below the sentinel, which those of `capability_name` do.
-/

namespace OxidHome.Api
open Wit Library Projection Host
open Std (TreeMap)

theorem capabilityName_lt (spec : CapabilitySpec) : capabilityName spec < MAX_CAP_SENTINEL := by
  cases spec with
  | extension name =>
      rw [String.lt_iff_toList_lt]
      simp only [capabilityName, MAX_CAP_SENTINEL, String.toList_append, String.toList_ofList]
      exact List.Lex.rel (by decide)
  | switch | dimmer | button | videoStream | audioStream => decide
  | colorLight => exact (by decide : "color-light" < MAX_CAP_SENTINEL)
  | sensor => exact (by decide : "sensor" < MAX_CAP_SENTINEL)

def CapabilitiesNamed (inner : StoreInner) : Prop :=
  ∀ (slot : SlotKey) (e : DeviceState), inner.entries[slot]? = some e →
    ∃ spec, capabilityName spec = slot.2

def NamesCapabilities : Mutation → Prop
  | .applyDelta _ _ c _ _ _ => ∃ spec, capabilityName spec = c
  | .replaceSnapshot _ _ c _ _ _ => ∃ spec, capabilityName spec = c
  | .resetAndSeedDevice _ _ initialState _ _ =>
      ∀ seed ∈ initialState, ∃ spec, capabilityName spec = seed.1
  | _ => True

theorem CapabilitiesNamed.mutate {inner : StoreInner} (valid : inner.Valid)
    (named : CapabilitiesNamed inner) {m : Mutation} (names : NamesCapabilities m) :
    CapabilitiesNamed (inner.mutate m) := by
  intro slot e present
  cases writes : m.writes inner slot with
  | none =>
      obtain ⟨e₀, before, _⟩ := StoreInner.mutate_carried valid writes present
      exact named slot e₀ before
  | some w =>
      cases m with
      | applyDelta | replaceSnapshot =>
          simp only [Mutation.writes] at writes
          split at writes
          · subst slot
            exact names
          · cases writes
      | resetAndSeedDevice d o seeds obs recv =>
          simp only [Mutation.writes] at writes
          split at writes
          · obtain ⟨f, last, _⟩ := Option.map_eq_some_iff.mp writes
            obtain ⟨⟨c, f'⟩, last, _⟩ := Option.map_eq_some_iff.mp last
            obtain ⟨mem, same⟩ := mem_of_lastOf last
            obtain ⟨spec, name⟩ := names _ mem
            exact ⟨spec, name.trans same⟩
          · cases writes
      | bumpGeneration | restartGeneration | markInstanceStale | markDeviceStale
      | reconcileCapabilities => cases writes

theorem SlotKey.cmp_lt {k l : SlotKey} :
    SlotKey.cmp k l = .lt ↔ k.1 < l.1 ∨ (k.1 = l.1 ∧ k.2 < l.2) := by
  simp only [SlotKey.cmp, compareLex, compareOn]
  rcases lt_trichotomy k.1 l.1 with h | h | h
  · simp [compare_lt_iff_lt.mpr h, h]
  · simp [h, compare_lt_iff_lt]
  · simp [compare_gt_iff_gt.mpr h, h.not_gt, h.ne']

def Past (after : Option DeviceId) (device : DeviceId) : Prop := ∀ c, after = some c → c < device

theorem mem_entriesAfter {inner : StoreInner} (named : CapabilitiesNamed inner)
    {after : Option DeviceId} {k : SlotKey} {e : DeviceState} :
    (k, e) ∈ entriesAfter inner after ↔ inner.entries[k]? = some e ∧ Past after k.1 := by
  cases after with
  | none => simp [entriesAfter, Past]
  | some cursor =>
      simp only [entriesAfter, List.mem_filter, mem_toList, decide_eq_true_eq, SlotKey.cmp_lt, Past,
        Option.some.injEq, forall_eq']
      refine and_congr_right fun present => or_iff_left fun ⟨_, above⟩ => ?_
      obtain ⟨spec, name⟩ := named k e present
      exact absurd (capabilityName_lt spec) (name ▸ above.not_gt)

theorem entriesAfter_sorted (inner : StoreInner) (after : Option DeviceId) :
    (entriesAfter inner after).Pairwise fun p q => p.1.1 ≤ q.1.1 := by
  have sorted : inner.entries.toList.Pairwise fun p q => p.1.1 ≤ q.1.1 := by
    refine TreeMap.ordered_keys_toList.imp fun {p q} lt => ?_
    rcases SlotKey.cmp_lt.mp lt with h | h
    · exact h.le
    · exact h.1.le
  cases after with
  | none => exact sorted
  | some cursor => exact sorted.filter _

theorem scanDevices_spec (deviceLimit : Nat) (l : List (SlotKey × DeviceState))
    (keyed : ∀ p ∈ l, p.2.deviceId = p.1.1) (sorted : l.Pairwise fun p q => p.1.1 ≤ q.1.1)
    (distinct : Nat) (current : Option DeviceId) (behind : ∀ c ∈ current, ∀ p ∈ l, c ≤ p.1.1) :
    ∃ cut, l.map (·.2) = scanDevices deviceLimit l distinct current ++ cut ∧
      (cut ≠ [] → deviceLimit ≤ distinct +
        (((scanDevices deviceLimit l distinct current).map DeviceState.deviceId).toFinset \
          current.toFinset).card) := by
  induction l generalizing distinct current with
  | nil => exact ⟨[], rfl, fun h => absurd rfl h⟩
  | cons p l ih =>
      obtain ⟨⟨did, cap⟩, entry⟩ := p
      rw [List.pairwise_cons] at sorted
      have device : entry.deviceId = did := keyed _ List.mem_cons_self
      have rest := ih (fun q hq => keyed q (List.mem_cons_of_mem _ hq)) sorted.2
      simp only [scanDevices]
      by_cases same : current = some did
      · subst same
        obtain ⟨cut, split, count⟩ := rest distinct (some did)
          fun c hc q hq => behind c hc q (List.mem_cons_of_mem _ hq)
        refine ⟨cut, by simp [split], fun h => ?_⟩
        have seen := count h
        simpa [device, Finset.insert_sdiff_of_mem] using seen
      · rw [if_pos same]
        by_cases full : distinct ≥ deviceLimit
        · rw [if_pos full]
          exact ⟨_, rfl, fun _ => by omega⟩
        · rw [if_neg full]
          obtain ⟨cut, split, count⟩ := rest (distinct + 1) (some did) fun c hc q hq => by
            cases hc
            exact sorted.1 q hq
          refine ⟨cut, by simp [split], fun h => ?_⟩
          have seen := count h
          generalize scanDevices deviceLimit l (distinct + 1) (some did) = scanned at split seen
          -- nothing scanned is of the device before, which sorts below all that is left
          have apart : Disjoint ((entry :: scanned).map DeviceState.deviceId).toFinset
              current.toFinset := by
            rw [Finset.disjoint_right]
            intro c hc mem
            rw [Option.mem_toFinset] at hc
            simp only [List.map_cons, List.mem_toFinset, List.mem_cons, List.mem_map] at mem
            have below := behind c hc _ List.mem_cons_self
            rcases mem with mem | ⟨e, he, mem⟩
            · exact same (by rw [← device, ← mem]; exact hc)
            · have inside : e ∈ l.map (·.2) := by rw [split]; exact List.mem_append_left _ he
              obtain ⟨q, hq, rfl⟩ := List.mem_map.mp inside
              have above := sorted.1 q hq
              rw [keyed q (List.mem_cons_of_mem _ hq)] at mem
              simp only [mem] at above
              have eq : c = did := le_antisymm below above
              exact same (eq ▸ hc)
          rw [Finset.sdiff_eq_self_of_disjoint apart]
          have grown : (((entry :: scanned).map DeviceState.deviceId).toFinset).card =
              ((scanned.map DeviceState.deviceId).toFinset \ (some did).toFinset).card + 1 := by
            rw [List.map_cons, List.toFinset_cons, device, Option.toFinset_some,
              Finset.sdiff_singleton_eq_erase, ← Finset.card_erase_add_one
                (Finset.mem_insert_self did _), Finset.erase_insert_eq_erase]
          omega

def AllDevicesStateSnapshot.Covers (page : AllDevicesStateSnapshot) (device : DeviceId) : Prop :=
  ∀ raw, page.nextCursor = some raw → ∃ last ∈ page.devices.getLast?, device ≤ last.deviceId

structure IsSnapshotPage (sha256 : Sha256) (inner : StoreInner) (after : Option DeviceId)
    (page : AllDevicesStateSnapshot) : Prop where
  sorted : page.devices.Pairwise fun a b => a.deviceId < b.deviceId
  past : ∀ d ∈ page.devices, Past after d.deviceId
  whole : ∀ d ∈ page.devices, ∀ w, w ∈ d.capabilities ↔
    ∃ c e, inner.entries[((d.deviceId, c) : SlotKey)]? = some e ∧ DeviceStateEntry.fromState e = w
  covered : ∀ (slot : SlotKey) (e : DeviceState), inner.entries[slot]? = some e →
    Past after slot.1 → page.Covers slot.1 → ∃ d ∈ page.devices, d.deviceId = slot.1
  cursor : ∀ raw, page.nextCursor = some raw → ∃ last, page.devices.getLast? = some last ∧
    raw = inner.issueCursor sha256 page.revision last.deviceId

theorem deviceSnapshot_deviceId {epoch : String} {revision : Nat} {g : List DeviceState}
    {a : DeviceState} (mem : a ∈ g) (same : ∀ a ∈ g, ∀ b ∈ g, a.deviceId = b.deviceId) :
    (deviceSnapshot epoch revision g).deviceId = a.deviceId := by
  cases g with
  | nil => cases mem
  | cons b g => exact same b List.mem_cons_self a mem

@[simp] theorem mem_deviceSnapshot {epoch : String} {revision : Nat} {g : List DeviceState}
    {w : DeviceStateEntry} : w ∈ (deviceSnapshot epoch revision g).capabilities ↔
      ∃ e ∈ g, DeviceStateEntry.fromState e = w := by
  simp [deviceSnapshot]

def statesAfter (inner : StoreInner) (after : Option DeviceId) : List DeviceState :=
  (entriesAfter inner after).map (·.2)

abbrev PageGroups (inner : StoreInner) (after : Option DeviceId) (groups : List (List DeviceState))
    (rest : List DeviceState) : Prop :=
  GroupPrefix DeviceState.deviceId (statesAfter inner after) groups rest

theorem mem_statesAfter {inner : StoreInner} (valid : inner.Valid) (named : CapabilitiesNamed inner)
    {after : Option DeviceId} {e : DeviceState} :
    e ∈ statesAfter inner after ↔ inner.entries[e.slot]? = some e ∧ Past after e.deviceId := by
  rw [statesAfter, List.mem_map]
  constructor
  · rintro ⟨⟨k, e⟩, mem, rfl⟩
    obtain ⟨present, past⟩ := (mem_entriesAfter named).mp mem
    obtain rfl : e.slot = k := valid.keyed k e present
    exact ⟨present, past⟩
  · rintro ⟨present, past⟩
    exact ⟨(e.slot, e), (mem_entriesAfter named).mpr ⟨present, past⟩, rfl⟩

theorem fetched_groups {inner : StoreInner} (valid : inner.Valid) (after : Option DeviceId)
    {limit : Nat} (positive : 0 < limit) :
    let b := PageBuilder.build limit (snapshotPageWithRevision inner after (limit + 1)).2.2
    ∃ rest, PageGroups inner after b.retained rest ∧
      (b.capped = true ↔ rest ≠ []) ∧ (rest ≠ [] → b.retained ≠ []) := by
  intro b
  have keyed : ∀ p ∈ entriesAfter inner after, p.2.deviceId = p.1.1 := by
    intro p mem
    have present : inner.entries[p.1]? = some p.2 := by
      cases after with
      | none => exact mem_toList.mp mem
      | some cursor => exact mem_toList.mp (List.mem_of_mem_filter mem)
    exact congrArg Prod.fst (valid.keyed p.1 p.2 present)
  obtain ⟨cut, split, count⟩ := scanDevices_spec (limit + 1) _ keyed (entriesAfter_sorted inner after)
    0 none (by simp)
  have sorted : (statesAfter inner after).Pairwise fun a c => a.deviceId ≤ c.deviceId := by
    rw [statesAfter, List.pairwise_map]
    refine (entriesAfter_sorted inner after).imp_of_mem fun {p q} hp hq le => ?_
    rw [keyed p hp, keyed q hq]
    exact le
  simp only [PageGroups, statesAfter, split] at sorted ⊢
  rw [List.pairwise_append] at sorted
  obtain ⟨le, rest, groups, capped, kept⟩ := PageBuilder.build_spec positive sorted.1
  have all : rest = [] → cut = [] := by
    rintro rfl
    by_contra some
    -- all that was fetched is retained, in at most `limit` devices
    have many := count some
    have few := groups.card_le
    have fetched := groups.split
    rw [List.append_nil] at fetched
    rw [fetched, Option.toFinset_none, Finset.sdiff_empty] at many
    omega
  refine ⟨rest ++ cut, groups.extend fun a ha c hc => ?_, ?_, fun h => kept fun none => ?_⟩
  · obtain ⟨e, he⟩ := List.exists_mem_of_ne_nil rest fun none => by
      rw [all none] at hc
      cases hc
    have fetched : e ∈ scanDevices (limit + 1) (entriesAfter inner after) 0 none := by
      rw [groups.split]
      exact List.mem_append_right _ he
    exact (groups.cut a ha e he).trans_le (sorted.2.2 e fetched c hc)
  · rw [show b.capped = true ↔ rest ≠ [] from capped]
    exact ⟨fun h none => h (List.append_eq_nil_iff.mp none).1,
      fun h none => h (by rw [none, all none]; rfl)⟩
  · rw [none, all none] at h
    exact h rfl

section
variable {inner : StoreInner} {after : Option DeviceId} {groups : List (List DeviceState)}
  {rest : List DeviceState} {epoch : String} {revision : Nat}

theorem PageGroups.listed
    (h : PageGroups inner after groups rest)
    {d : DeviceStateSnapshot} (mem : d ∈ groups.map (deviceSnapshot epoch revision)) :
    ∃ g ∈ groups, ∃ a ∈ g, d = deviceSnapshot epoch revision g ∧ d.deviceId = a.deviceId := by
  obtain ⟨g, hg, rfl⟩ := List.mem_map.mp mem
  obtain ⟨a, ha⟩ := List.exists_mem_of_ne_nil g (h.nonempty g hg)
  exact ⟨g, hg, a, ha, rfl, deviceSnapshot_deviceId ha (h.same g hg)⟩

theorem PageGroups.devices_sorted
    (h : PageGroups inner after groups rest) :
    (groups.map (deviceSnapshot epoch revision)).Pairwise fun a b => a.deviceId < b.deviceId := by
  rw [List.pairwise_map]
  refine h.ordered.imp_of_mem fun {g g'} hg hg' lt => ?_
  obtain ⟨a, ha⟩ := List.exists_mem_of_ne_nil g (h.nonempty g hg)
  obtain ⟨c, hc⟩ := List.exists_mem_of_ne_nil g' (h.nonempty g' hg')
  rw [deviceSnapshot_deviceId ha (h.same g hg), deviceSnapshot_deviceId hc (h.same g' hg')]
  exact lt a ha c hc

theorem PageGroups.device_whole (valid : inner.Valid) (named : CapabilitiesNamed inner)
    (h : PageGroups inner after groups rest)
    {d : DeviceStateSnapshot} (mem : d ∈ groups.map (deviceSnapshot epoch revision))
    (w : DeviceStateEntry) :
    w ∈ d.capabilities ↔ ∃ c e, inner.entries[((d.deviceId, c) : SlotKey)]? = some e ∧
      DeviceStateEntry.fromState e = w := by
  obtain ⟨g, hg, a, ha, rfl, device⟩ := h.listed mem
  have past := ((mem_statesAfter valid named).mp ((h.mem_group hg ha).mp ha).1).2
  rw [mem_deviceSnapshot]
  constructor
  · rintro ⟨e, he, rfl⟩
    obtain ⟨inside, same⟩ := (h.mem_group hg ha).mp he
    refine ⟨e.capability, e, ?_, rfl⟩
    rw [device, ← same]
    exact ((mem_statesAfter valid named).mp inside).1
  · rintro ⟨c, e, present, rfl⟩
    have slot : e.slot = _ := valid.keyed _ e present
    have same : e.deviceId = a.deviceId := (congrArg Prod.fst slot).trans device
    rw [← slot] at present
    exact ⟨e, (h.mem_group hg ha).mpr
      ⟨(mem_statesAfter valid named).mpr ⟨present, same ▸ past⟩, same⟩, rfl⟩

theorem PageGroups.last_device
    (h : PageGroups inner after groups rest)
    (kept : groups ≠ []) :
    ∃ last, (groups.map (deviceSnapshot epoch revision)).getLast? = some last ∧
      ∀ e ∈ rest, last.deviceId < e.deviceId := by
  have nonempty : groups.map (deviceSnapshot epoch revision) ≠ [] := by simpa using kept
  refine ⟨_, List.getLast?_eq_some_getLast nonempty, fun e he => ?_⟩
  obtain ⟨g, hg, a, ha, _, device⟩ := h.listed (List.getLast_mem nonempty)
  rw [device]
  exact h.cut a (List.mem_flatten.mpr ⟨g, hg, ha⟩) e he

end

theorem allDevicesPage_isSnapshotPage (sha256 : Sha256) {inner : StoreInner} (valid : inner.Valid)
    (named : CapabilitiesNamed inner) (cursorFields : Option (String × Nat × DeviceId)) {limit : Nat}
    (positive : 0 < limit) :
    IsSnapshotPage sha256 inner (cursorFields.map (·.2.2))
      (allDevicesPage sha256 inner cursorFields limit) := by
  obtain ⟨rest, groups, capped, kept⟩ :=
    fetched_groups valid (cursorFields.map (·.2.2)) positive
  generalize hb : PageBuilder.build limit
    (snapshotPageWithRevision inner (cursorFields.map (·.2.2)) (limit + 1)).2.2 = b
    at groups capped kept
  generalize hp : allDevicesPage sha256 inner cursorFields limit = page
  have devices : page.devices = b.retained.map (deviceSnapshot inner.epoch page.revision) := by
    rw [← hp, ← hb]
    rfl
  have nextCursor : page.nextCursor = if b.capped then
      page.devices.getLast?.map fun d => inner.issueCursor sha256 page.revision d.deviceId
      else none := by
    rw [← hp, ← hb]
    rfl
  clear hp hb
  rw [devices] at nextCursor
  refine ⟨devices ▸ groups.devices_sorted, fun d hd => ?_, fun d hd w => ?_,
    fun slot e present past covers => ?_, fun raw some => ?_⟩
  · rw [devices] at hd
    obtain ⟨g, hg, a, ha, _, device⟩ := groups.listed hd
    rw [device]
    exact ((mem_statesAfter valid named).mp ((groups.mem_group hg ha).mp ha).1).2
  · rw [devices] at hd
    exact groups.device_whole valid named hd w
  · have slot_eq : e.slot = slot := valid.keyed slot e present
    subst slot_eq
    have mem := (mem_statesAfter valid named).mpr ⟨present, past⟩
    rw [groups.split, List.mem_append] at mem
    rcases mem with mem | cut
    · obtain ⟨g, hg, he⟩ := List.mem_flatten.mp mem
      refine ⟨_, devices ▸ List.mem_map_of_mem hg, ?_⟩
      exact deviceSnapshot_deviceId he (groups.same g hg)
    · -- what is left out lies past the last device, so the page does not cover it
      have some := List.ne_nil_of_mem cut
      obtain ⟨last, isLast, above⟩ := groups.last_device (kept some)
      rw [if_pos (capped.mpr some), isLast, Option.map_some] at nextCursor
      obtain ⟨last', isLast', le⟩ := covers _ nextCursor
      rw [devices, isLast] at isLast'
      cases isLast'
      exact absurd le (above e cut).not_ge
  · split at nextCursor
    · rename_i more
      obtain ⟨last, isLast, _⟩ := groups.last_device (kept (capped.mp more))
      rw [isLast, Option.map_some] at nextCursor
      rw [devices]
      exact ⟨last, isLast, Option.some.inj (some.symm.trans nextCursor)⟩
    · rw [nextCursor] at some
      cases some

end OxidHome.Api

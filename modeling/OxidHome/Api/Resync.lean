import OxidHome.Api.SnapshotPage
import OxidHome.Projection.DeltaPoll

/-!
# The paged resync is lossless

A client walks the pages by their cursors while the store keeps changing. The revision of page one is
pinned: what the walk misses was written after it, and what it holds and the store has lost since
was evicted after it.
-/

namespace OxidHome.Api
open Wit Library Projection Host

structure ResyncWalk where
  store : DeviceStateStore
  pages : List (StoreInner × AllDevicesStateSnapshot)

inductive ResyncStep where
  | mutate (m : Mutation)
  | request (scopes : List String) (limit : Option Nat)

namespace ResyncWalk

def nextRequest (walk : ResyncWalk) : Option (Option String) :=
  match walk.pages.getLast? with
  | none => some none
  | some last => last.2.nextCursor.map some

def finished (walk : ResyncWalk) : Prop :=
  ∃ last ∈ walk.pages.getLast?, last.2.nextCursor = none

def collected (walk : ResyncWalk) : List DeviceStateEntry :=
  walk.pages.flatMap fun p => p.2.devices.flatMap (·.capabilities)

def devices (walk : ResyncWalk) : List DeviceId :=
  walk.pages.flatMap fun p => p.2.devices.map (·.deviceId)

end ResyncWalk

def resyncStep (sha256 : Sha256) (walk : ResyncWalk) : ResyncStep → Option ResyncWalk
  | .mutate m => some { walk with store := walk.store.mutate m }
  | .request scopes limit =>
      match walk.nextRequest with
      | none => none
      | some cursor =>
        match getAllDeviceState sha256 scopes walk.store.inner cursor limit with
        | .ok page => some { walk with pages := walk.pages ++ [(walk.store.inner, page)] }
        | .error _ => none

/-- The pages read so far against the store as it is now, when the devices in `covers` have all been
passed. -/
structure Walked (inner : StoreInner) (revision : Nat) (covers : DeviceId → Prop)
    (pages : List (StoreInner × AllDevicesStateSnapshot)) : Prop where
  echoed : ∀ p ∈ pages, p.2.revision = revision
  pinned : revision ≤ inner.globalRevision
  whole : ∀ p ∈ pages, ∀ d ∈ p.2.devices, ∀ w, w ∈ d.capabilities ↔
    ∃ c e, p.1.entries[((d.deviceId, c) : SlotKey)]? = some e ∧ DeviceStateEntry.fromState e = w
  ordered : (pages.flatMap fun p => p.2.devices.map (·.deviceId)).Pairwise (· < ·)
  progress : ∀ p ∈ pages, p.2.nextCursor.isSome → p.2.devices ≠ []
  passed : ∀ d ∈ pages.flatMap fun p => p.2.devices.map (·.deviceId), covers d
  complete : ∀ (slot : SlotKey) (e : DeviceState), inner.entries[slot]? = some e →
    e.globalRevision ≤ revision → covers slot.1 →
    DeviceStateEntry.fromState e ∈ pages.flatMap fun p => p.2.devices.flatMap (·.capabilities)
  held : ∀ w ∈ pages.flatMap fun p => p.2.devices.flatMap (·.capabilities),
    (∀ e, inner.entries[((w.deviceId, w.capability) : SlotKey)]? = some e →
      DeviceStateEntry.fromState e = w ∨ revision < e.globalRevision) ∧
    (inner.entries[((w.deviceId, w.capability) : SlotKey)]? = none → w.quality = .fresh →
      revision < inner.evictedThroughRevision)

theorem Walked.nil {inner : StoreInner} : Walked inner inner.globalRevision (fun _ => False) [] where
  echoed := fun _ h => by cases h
  pinned := le_rfl
  whole := fun _ h => by cases h
  ordered := .nil
  progress := fun _ h => by cases h
  passed := fun _ h => by cases h
  complete := fun _ _ _ _ h => h.elim
  held := fun _ h => by cases h

theorem Walked.advance {inner next : StoreInner} {revision : Nat} {covers : DeviceId → Prop}
    {pages : List (StoreInner × AllDevicesStateSnapshot)} (h : Walked inner revision covers pages)
    (advances : inner.Advances next) : Walked next revision covers pages where
  echoed := h.echoed
  pinned := h.pinned.trans advances.current_le
  whole := h.whole
  ordered := h.ordered
  progress := h.progress
  passed := h.passed
  complete := fun slot e present old =>
    h.complete slot e (advances.read_current h.pinned present old) old
  held := fun w mem => by
    obtain ⟨kept, lost⟩ := h.held w mem
    constructor
    · intro e present
      rcases advances.written _ e present with before | later
      · exact kept e before
      · exact Or.inr (h.pinned.trans_lt later)
    · intro gone fresh
      cases before : inner.entries[((w.deviceId, w.capability) : SlotKey)]? with
      | none => exact (lost before fresh).trans_le advances.evicted_le
      | some e =>
          rcases advances.dropped _ e before gone with ⟨stale, le⟩ | lt
          · rcases kept e before with same | later
            · -- the entry the client holds is fresh, the one evicted was stale
              have quality : e.quality = .fresh :=
                (congrArg DeviceStateEntry.quality same).trans fresh
              rw [show e.quality = .stale from stale] at quality
              cases quality
            · exact later.trans_le le
          · exact h.pinned.trans_lt lt

theorem Walked.page {sha256 : Sha256} {inner : StoreInner} (valid : inner.Valid) {revision : Nat}
    {covers : DeviceId → Prop} {pages : List (StoreInner × AllDevicesStateSnapshot)}
    (h : Walked inner revision covers pages) {after : Option DeviceId}
    (frontier : ∀ d, covers d ↔ ¬ Past after d) {page : AllDevicesStateSnapshot}
    (isPage : IsSnapshotPage sha256 inner after page) (echoes : page.revision = revision) :
    Walked inner revision page.Covers (pages ++ [(inner, page)]) := by
  have listed_le {last d : DeviceStateSnapshot} (isLast : page.devices.getLast? = some last)
      (mem : d ∈ page.devices) : d.deviceId ≤ last.deviceId := by
    obtain ⟨before, split⟩ := List.getLast?_eq_some_iff.mp isLast
    have sorted := isPage.sorted
    rw [split, List.pairwise_append] at sorted
    rw [split, List.mem_append, List.mem_singleton] at mem
    rcases mem with mem | rfl
    · exact (sorted.2.2 d mem last (List.mem_singleton_self _)).le
    · exact le_rfl
  have passed_lt {d : DeviceId} (covered : covers d) {d' : DeviceStateSnapshot}
      (mem : d' ∈ page.devices) : d < d'.deviceId := by
    have behind := (frontier d).mp covered
    simp only [Past, not_forall] at behind
    obtain ⟨c, isAfter, le⟩ := behind
    exact (not_lt.mp le).trans_lt (isPage.past d' mem c isAfter)
  constructor
  case echoed =>
    intro p mem
    rcases List.mem_append.mp mem with mem | mem
    · exact h.echoed p mem
    · rw [List.mem_singleton.mp mem]
      exact echoes
  case pinned => exact h.pinned
  case whole =>
    intro p mem
    rcases List.mem_append.mp mem with mem | mem
    · exact h.whole p mem
    · rw [List.mem_singleton.mp mem]
      exact isPage.whole
  case ordered =>
    rw [List.flatMap_append, List.flatMap_singleton, List.pairwise_append, List.pairwise_map]
    refine ⟨h.ordered, isPage.sorted, fun d hd d' hd' => ?_⟩
    obtain ⟨s, hs, rfl⟩ := List.mem_map.mp hd'
    exact passed_lt (h.passed d hd) hs
  case progress =>
    intro p mem more
    rcases List.mem_append.mp mem with mem | mem
    · exact h.progress p mem more
    · obtain rfl := List.mem_singleton.mp mem
      obtain ⟨raw, some⟩ := Option.isSome_iff_exists.mp more
      obtain ⟨last, isLast, _⟩ := isPage.cursor raw some
      exact List.ne_nil_of_mem (List.mem_of_getLast? isLast)
  case passed =>
    intro d mem raw some
    obtain ⟨last, isLast, _⟩ := isPage.cursor raw some
    rw [List.flatMap_append, List.flatMap_singleton, List.mem_append] at mem
    refine ⟨last, isLast, ?_⟩
    rcases mem with mem | mem
    · exact (passed_lt (h.passed d mem) (List.mem_of_getLast? isLast)).le
    · obtain ⟨s, hs, rfl⟩ := List.mem_map.mp mem
      exact listed_le isLast hs
  case complete =>
    intro slot e present old covered
    rw [List.flatMap_append, List.flatMap_singleton, List.mem_append]
    by_cases past : Past after slot.1
    · obtain ⟨d, hd, device⟩ := isPage.covered slot e present past covered
      refine Or.inr (List.mem_flatMap.mpr ⟨d, hd, (isPage.whole d hd _).mpr ⟨slot.2, e, ?_, rfl⟩⟩)
      rw [device]
      exact present
    · exact Or.inl (h.complete slot e present old ((frontier _).mpr past))
  case held =>
    intro w mem
    rw [List.flatMap_append, List.flatMap_singleton, List.mem_append] at mem
    rcases mem with mem | mem
    · exact h.held w mem
    · obtain ⟨d, hd, hw⟩ := List.mem_flatMap.mp mem
      obtain ⟨c, e, present, rfl⟩ := (isPage.whole d hd w).mp hw
      have slot : e.slot = _ := valid.keyed _ e present
      rw [← slot] at present
      refine ⟨fun e' present' => Or.inl ?_, fun gone => ?_⟩
      · rw [Option.some.inj (present'.symm.trans present)]
      · exact absurd (present.symm.trans gone) (by simp)

structure Walking (sha256 : Sha256) (walk : ResyncWalk) : Prop where
  named : CapabilitiesNamed walk.store.inner
  walked : ∀ first ∈ walk.pages.head?, ∀ last ∈ walk.pages.getLast?,
    Walked walk.store.inner first.2.revision last.2.Covers walk.pages
  cursor : ∀ first ∈ walk.pages.head?, ∀ last ∈ walk.pages.getLast?, ∀ raw,
    last.2.nextCursor = some raw → ∃ d, last.2.devices.getLast? = some d ∧
      raw = walk.store.inner.issueCursor sha256 first.2.revision d.deviceId

theorem pageLimit_pos (limit : Option Nat) : 0 < pageLimit limit := by
  unfold pageLimit
  cases h : limit.filter (· > 0) with
  | none => decide
  | some n =>
      have : n > 0 := by simpa using (Option.filter_eq_some_iff.mp h).2
      simp only [Option.getD_some, MAX_ALL_DEVICES_STATE_LIMIT]
      omega

theorem getAllDeviceState_ok {sha256 : Sha256} {scopes : List String} {inner : StoreInner}
    {cursor : Option String} {limit : Option Nat} {page : AllDevicesStateSnapshot}
    (h : getAllDeviceState sha256 scopes inner cursor limit = .ok page) :
    (cursor = none ∧ page = allDevicesPage sha256 inner none (pageLimit limit)) ∨
      ∃ raw fields, cursor = some raw ∧ inner.verifyCursor sha256 raw = .ok fields ∧
        page = allDevicesPage sha256 inner (some fields) (pageLimit limit) := by
  unfold getAllDeviceState at h
  split at h
  · cases h
  · split at h
    · cases h
      exact Or.inl ⟨rfl, rfl⟩
    · split at h
      · rename_i raw _ fields verified
        cases h
        exact Or.inr ⟨raw, fields, rfl, verified, rfl⟩
      · cases h
      · cases h

theorem Walking.mutate {sha256 : Sha256} {walk : ResyncWalk} (h : Walking sha256 walk)
    {m : Mutation} (names : NamesCapabilities m) :
    Walking sha256 { walk with store := walk.store.mutate m } where
  named := h.named.mutate walk.store.valid names
  walked := fun first hf last hl =>
    (h.walked first hf last hl).advance (walk.store.mutate_advances m)
  cursor := fun first hf last hl raw some => by
    obtain ⟨d, isLast, issued⟩ := h.cursor first hf last hl raw some
    obtain ⟨epoch, secret⟩ := StoreInner.mutate_identity walk.store.inner m
    exact ⟨d, isLast, issued.trans (StoreInner.issueCursor_congr sha256 epoch secret _ _).symm⟩

theorem Walking.request {sha256 : Sha256} {walk : ResyncWalk} (h : Walking sha256 walk)
    {scopes : List String} {limit : Option Nat} {cursor : Option String}
    (next : walk.nextRequest = some cursor) {page : AllDevicesStateSnapshot}
    (answered : getAllDeviceState sha256 scopes walk.store.inner cursor limit = .ok page) :
    Walking sha256 { walk with pages := walk.pages ++ [(walk.store.inner, page)] } := by
  have isPage (fields : Option (String × Nat × DeviceId)) :=
    allDevicesPage_isSnapshotPage sha256 walk.store.valid h.named fields (pageLimit_pos limit)
  have extended {fields : Option (String × Nat × DeviceId)} {revision : Nat}
      (is : page = allDevicesPage sha256 walk.store.inner fields (pageLimit limit))
      (walked : Walked walk.store.inner revision page.Covers
        (walk.pages ++ [(walk.store.inner, page)])) :
      Walking sha256 { walk with pages := walk.pages ++ [(walk.store.inner, page)] } := by
    have echoes (first) (hf : first ∈ (walk.pages ++ [(walk.store.inner, page)]).head?) :
        first.2.revision = revision := walked.echoed first (List.mem_of_head? hf)
    have last_page (last) (hl : last ∈ (walk.pages ++ [(walk.store.inner, page)]).getLast?) :
        last = (walk.store.inner, page) := by simpa using hl.symm
    refine ⟨h.named, fun first hf last hl => ?_, fun first hf last hl raw some => ?_⟩
    · obtain rfl := last_page last hl
      rw [echoes first hf]
      exact walked
    · obtain rfl := last_page last hl
      rw [echoes first hf, ← walked.echoed (walk.store.inner, page) (by simp)]
      subst is
      exact (isPage fields).cursor raw some
  rcases getAllDeviceState_ok answered with ⟨rfl, is⟩ | ⟨raw, fields, rfl, verified, is⟩
  · -- the first page pins the current revision
    have start : walk.pages = [] := by
      unfold ResyncWalk.nextRequest at next
      split at next
      · rename_i none
        exact List.getLast?_eq_none_iff.mp none
      · simp at next
    have walked : Walked walk.store.inner walk.store.inner.globalRevision page.Covers
        (walk.pages ++ [(walk.store.inner, page)]) := by
      rw [start]
      exact Walked.nil.page walk.store.valid (fun d => by simp [Past]) (is ▸ isPage none)
        (by rw [is]; rfl)
    exact extended is walked
  · have resume : ∃ last, walk.pages.getLast? = some last ∧ last.2.nextCursor = some raw := by
      unfold ResyncWalk.nextRequest at next
      split at next
      · cases next
      · rename_i last isLast
        exact ⟨last, isLast, by simpa using next⟩
    obtain ⟨last, isLast, more⟩ := resume
    obtain ⟨first, isFirst⟩ : ∃ first, walk.pages.head? = some first :=
      ⟨_, List.head?_eq_some_head (List.ne_nil_of_mem (List.mem_of_getLast? isLast))⟩
    obtain ⟨d, lastDevice, issued⟩ := h.cursor first isFirst last isLast raw more
    rw [issued, StoreInner.verifyCursor_issueCursor sha256 walk.store.valid.minted] at verified
    split at verified
    · cases verified
      refine extended is ((h.walked first isFirst last isLast).page walk.store.valid (fun x => ?_)
        (is ▸ isPage _) (by rw [is]; rfl))
      simp only [AllDevicesStateSnapshot.Covers, more, lastDevice, Past, Option.some.injEq,
        forall_eq', Option.mem_def, exists_eq_left', Option.map_some, not_lt]
    · cases verified

theorem run_walking {sha256 : Sha256} {store : DeviceStateStore}
    (named : CapabilitiesNamed store.inner) {steps : List ResyncStep}
    (names : ∀ m, .mutate m ∈ steps → NamesCapabilities m) {walk : ResyncWalk}
    (run : exec (resyncStep sha256) ⟨store, []⟩ steps = some walk) : Walking sha256 walk := by
  have history : (∀ m, .mutate m ∈ steps → NamesCapabilities m) → Walking sha256 walk := by
    apply exec_history (P := fun steps walk =>
      (∀ m, .mutate m ∈ steps → NamesCapabilities m) → Walking sha256 walk) _ _ run
    · exact fun _ => ⟨named, (fun _ h => by cases h), (fun _ h => by cases h)⟩
    · intro steps walk step next _ ih taken names
      have walking := ih fun m mem => names m (List.mem_append_left _ mem)
      cases step with
      | mutate m =>
          cases taken
          exact walking.mutate (names m (by simp))
      | request scopes limit =>
          simp only [resyncStep] at taken
          split at taken
          · cases taken
          · rename_i cursor request
            split at taken
            · rename_i page answered
              cases taken
              exact walking.request request answered
            · cases taken
  exact history names

/-- What a client that has walked the pages may rely on, `revision` being that of page one. -/
structure ResyncWalk.Lossless (walk : ResyncWalk) (revision : Nat) : Prop where
  echoed : ∀ p ∈ walk.pages, p.2.revision = revision
  whole : ∀ p ∈ walk.pages, ∀ d ∈ p.2.devices, ∀ w, w ∈ d.capabilities ↔
    ∃ c e, p.1.entries[((d.deviceId, c) : SlotKey)]? = some e ∧ DeviceStateEntry.fromState e = w
  ordered : walk.devices.Pairwise (· < ·)
  progress : ∀ p ∈ walk.pages, p.2.nextCursor.isSome → p.2.devices ≠ []
  complete : walk.finished → ∀ (slot : SlotKey) (e : DeviceState),
    walk.store.inner.entries[slot]? = some e → DeviceStateEntry.fromState e ∈ walk.collected ∨
      (revision < e.globalRevision ∧ e ∈ walk.store.inner.changesSince revision)
  evicted : ∀ w ∈ walk.collected, w.quality = .fresh →
    walk.store.inner.entries[((w.deviceId, w.capability) : SlotKey)]? = none →
    revision < walk.store.inner.evictedThroughRevision ∧
      ∀ limit, (walk.store.inner.deltasSinceWithRevision revision limit).resetRequired = true

theorem paged_resync_lossless (sha256 : Sha256) (store : DeviceStateStore)
    (named : CapabilitiesNamed store.inner) (steps : List ResyncStep)
    (names : ∀ m, .mutate m ∈ steps → NamesCapabilities m) (walk : ResyncWalk)
    (run : exec (resyncStep sha256) ⟨store, []⟩ steps = some walk)
    (first : StoreInner × AllDevicesStateSnapshot) (isFirst : walk.pages.head? = some first) :
    walk.Lossless first.2.revision := by
  have walking := run_walking named names run
  obtain ⟨last, isLast⟩ : ∃ last, walk.pages.getLast? = some last :=
    ⟨_, List.getLast?_eq_some_getLast (List.ne_nil_of_mem (List.mem_of_head? isFirst))⟩
  have walked := walking.walked first isFirst last isLast
  refine ⟨walked.echoed, walked.whole, walked.ordered, walked.progress, ?_, ?_⟩
  · rintro ⟨last', isLast', done⟩ slot e present
    obtain rfl : last = last' := Option.some.inj (isLast.symm.trans isLast')
    by_cases old : e.globalRevision ≤ first.2.revision
    · refine Or.inl (walked.complete slot e present old fun raw some => ?_)
      rw [done] at some
      cases some
    · have newer := not_le.mp old
      refine Or.inr ⟨newer, (StoreInner.mem_changesSince walk.store.valid).mpr ⟨?_, newer⟩⟩
      rw [show e.slot = slot from walk.store.valid.keyed slot e present]
      exact present
  · intro w mem fresh gone
    have lost := (walked.held w mem).2 gone fresh
    refine ⟨lost, fun limit => ?_⟩
    by_contra noReset
    have := (StoreInner.deltasSince_reset _ _ _).mp (Bool.not_eq_true _ ▸ noReset)
    omega

def twoPages : List ResyncStep :=
  [.mutate (.applyDelta "dev-1" "alpha" "switch" [⟨"state", .boolVal true⟩] 0 1),
    .mutate (.applyDelta "dev-2" "alpha" "switch" [⟨"state", .boolVal true⟩] 0 2),
    .request ["devices:read"] (some 1), .mutate (.markDeviceStale "dev-2" 3),
    .request ["devices:read"] (some 1)]

theorem paged_resync_lossless_two : ∃ walk first,
    exec (resyncStep fun _ => .replicate 32 0)
      ⟨.new (.replicate 16 0) (.replicate 32 0), []⟩ twoPages = some walk ∧
    walk.pages.head? = some first ∧ walk.Lossless first.2.revision :=
  ⟨_, _, rfl, rfl, paged_resync_lossless (fun _ => .replicate 32 0)
    (.new (.replicate 16 0) (.replicate 32 0)) (fun _ _ h => by cases h) twoPages
    (by simp [twoPages, NamesCapabilities]; exact ⟨.switch, rfl⟩) _ rfl _ rfl⟩

end OxidHome.Api

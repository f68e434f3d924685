import OxidHome.History.EventLog

/-!
# Recorded events read back

A query decodes every row that it selects, so one row that does not decode fails it for every
publisher. What a query returns is the history as it was published exactly when every `f64` ever
recorded reads back as it was.
-/

namespace OxidHome.History
open Wit Library

def stored (event : HistoricalEvent) : EventRow :=
  { event with payload := EventLog.serializePayload event.payload }

namespace LogRun

def history (s : LogRun) : List HistoricalEvent := s.published.map Prod.snd

structure LogInv (s : LogRun) : Prop where
  rows : s.log.rows = s.history.map stored
  order : ∀ entry ∈ s.published, s.given.reverse[entry.1]? = some entry.2.id
  positive : ∀ id ∈ s.given, 0 < id
  bounded : ∀ id ∈ s.given, id ≤ I64_MAX

theorem step_record {s t : LogRun} {receivedMs : Int} {event : Event} {instanceId pluginId : String}
    {pick : Nat} (taken : s.step (.record receivedMs event instanceId pluginId pick) = some t) :
    let id := s.log.newRowid pick
    let new := publishedAs id receivedMs event instanceId pluginId
    0 < id ∧ id ≤ I64_MAX ∧ t.log.rows = s.log.rows ++ [stored new] ∧ t.given = id :: s.given ∧
      t.published = s.published ++ [(s.given.length, new)] := by
  simp only [step, EventLog.record, EventLog.recordPrepared] at taken
  split at taken
  · cases taken
  · rename_i id log made
    split at made
    · rename_i free
      cases made
      cases taken
      exact ⟨free.1, free.2.1, rfl, rfl, rfl⟩
    · cases made

theorem LogInv.init : new.LogInv where
  rows := rfl
  order := by simp [new]
  positive := by simp [new]
  bounded := by simp [new]

theorem LogInv.step {s t : LogRun} {a : LogAction} (inv : s.LogInv) (taken : s.step a = some t) :
    t.LogInv := by
  cases a with
  | record receivedMs event instanceId pluginId pick =>
      obtain ⟨low, high, rows, given, published⟩ := step_record taken
      refine ⟨?_, ?_, ?_, ?_⟩
      · simp [rows, history, published, inv.rows]
      · intro entry mem
        rw [published] at mem
        rw [given, List.reverse_cons]
        rcases List.mem_append.mp mem with mem | mem
        · have before := inv.order entry mem
          rw [List.getElem?_append_left (List.getElem?_eq_some_iff.mp before).1, before]
        · rw [List.mem_singleton.mp mem]
          simp [publishedAs]
      · intro id mem
        rw [given] at mem
        rcases List.mem_cons.mp mem with rfl | mem
        · exact low
        · exact inv.positive id mem
      · intro id mem
        rw [given] at mem
        rcases List.mem_cons.mp mem with rfl | mem
        · exact high
        · exact inv.bounded id mem
  | trimOlderThan cutoffMs =>
      cases taken
      refine ⟨?_, ?_, inv.positive, inv.bounded⟩
      · simp only [EventLog.trimOlderThan, inv.rows, history, List.map_map, List.filter_map]
        rfl
      · intro entry mem
        exact inv.order entry (List.mem_of_mem_filter mem)

theorem LogInv.reached {acts : List LogAction} {s : LogRun}
    (run : exec LogRun.step new acts = some s) : s.LogInv :=
  exec_invariant (P := LogInv) (fun _ _ _ inv taken => inv.step taken) .init run

/-- Queries return the events as they were published, newest first. -/
def Faithful (serde : SerdeJson) (s : LogRun) : Prop :=
  ∀ filter limit, s.log.query serde filter limit =
    .ok ((selected filter s.history).take (pageSize limit))

def Survives (serde : SerdeJson) (payload : EventPayload) : Prop :=
  ∀ f ∈ payloadFloats payload, rereadF64 serde f = some f

theorem selected_stored (filter : EventQuery) (events : List HistoricalEvent) :
    selected filter (events.map stored) = (selected filter events).map stored := by
  have order : ∀ a ∈ events.filter filter.selects, ∀ b ∈ events.filter filter.selects,
      newestFirst a b = newestFirst (stored a) (stored b) := fun _ _ _ _ => rfl
  rw [selected, selected, List.map_mergeSort order, List.filter_map]
  rfl

theorem decodeRow_stored {serde : SerdeJson} {event : HistoricalEvent} :
    decodeRow serde (stored event) = .ok event ↔ Survives serde event.payload := by
  unfold Survives
  rw [← rereadPayload_eq_self, ← toPayload_ofPayload]
  cases read : (Json.ofPayload event.payload).toPayload serde with
  | none => simp [decodeRow, stored, EventLog.serializePayload, read]
  | some payload =>
      obtain ⟨id, receivedMs, payloadMs, deviceId, instanceId, pluginId, topic, original⟩ := event
      simp [decodeRow, stored, EventLog.serializePayload, read]

theorem mapM_decodeRow_stored {serde : SerdeJson} {events : List HistoricalEvent} :
    (events.map stored).mapM (decodeRow serde) = .ok events ↔
      ∀ event ∈ events, Survives serde event.payload := by
  induction events with
  | nil => simp [pure, Except.pure]
  | cons event events ih =>
      rw [List.map_cons, List.mapM_cons, List.forall_mem_cons, ← ih, ← decodeRow_stored]
      cases decodeRow serde (stored event) with
      | error err => simp [bind, Except.bind]
      | ok first =>
          cases (events.map stored).mapM (decodeRow serde) <;>
            simp [bind, Except.bind, pure, Except.pure]

theorem faithful_iff {serde : SerdeJson} {s : LogRun} (inv : s.LogInv) :
    s.Faithful serde ↔ ∀ event ∈ s.history, Survives serde event.payload := by
  have page : ∀ filter limit, s.log.query serde filter limit =
      (((selected filter s.history).take (pageSize limit)).map stored).mapM (decodeRow serde) := by
    intro filter limit
    rw [EventLog.query, inv.rows, selected_stored, List.map_take]
  constructor
  · intro faithful event mem
    have whole := faithful .all I64_MAX
    rw [page, mapM_decodeRow_stored] at whole
    apply whole event
    have short : (selected .all s.history).length ≤ pageSize I64_MAX := by
      have := s.log.length_rows_le
      rw [inv.rows, List.length_map] at this
      have := selected_length_le .all s.history
      unfold pageSize
      omega
    rw [List.take_of_length_le short, mem_selected]
    exact ⟨mem, rfl⟩
  · intro survive filter limit
    rw [page, mapM_decodeRow_stored]
    intro event mem
    exact survive event (mem_selected.mp (List.mem_of_mem_take mem)).1

def Poisons (serde : SerdeJson) : LogAction → Prop
  | .record _ event _ _ _ => ¬ Survives serde event.payload
  | .trimOlderThan _ => False

theorem faithful_step {serde : SerdeJson} {s t : LogRun} {a : LogAction} (inv : s.LogInv)
    (faithful : s.Faithful serde) (taken : s.step a = some t) :
    ¬ t.Faithful serde ↔ Poisons serde a := by
  rw [faithful_iff (inv.step taken)]
  rw [faithful_iff inv] at faithful
  cases a with
  | record receivedMs event instanceId pluginId pick =>
      obtain ⟨low, high, rows, given, published⟩ := step_record taken
      have history : t.history = s.history ++
          [publishedAs (s.log.newRowid pick) receivedMs event instanceId pluginId] := by
        simp [LogRun.history, published]
      rw [history, List.forall_mem_append, List.forall_mem_singleton]
      exact not_congr ⟨fun h => h.2, fun new => ⟨faithful, new⟩⟩
  | trimOlderThan cutoffMs =>
      cases taken
      refine iff_of_false ?_ id
      rw [not_not]
      intro event mem
      obtain ⟨entry, kept, rfl⟩ := List.mem_map.mp mem
      exact faithful entry.2 (List.mem_map_of_mem (List.mem_of_mem_filter kept))

end LogRun

open LogRun in
theorem recorded_events_read_back_iff (serde : SerdeJson) (acts : List LogAction) :
    (∀ before, before <+: acts → ∀ s, exec step new before = some s → s.Faithful serde) ↔
      ∀ before a, before ++ [a] <+: acts → ∀ s t, exec step new before = some s →
        step s a = some t → ¬ Poisons serde a := by
  have start : ¬ ¬ new.Faithful serde :=
    not_not.mpr ((faithful_iff .init).mpr (by simp [LogRun.history, new]))
  have first := exec_faultless (B := fun s => ¬ s.Faithful serde) start
    (fun as t a u reached good taken =>
      faithful_step (.reached reached) (not_not.mp good) taken) acts
  simpa only [not_not] using first

theorem nan_reading_poisons_history :
    let nan : Event := ⟨some "dev-1", 0, "", "", none,
      .stateChanged ⟨"sensor", [⟨"value", .floatVal ⟨0x7FF8000000000000⟩⟩]⟩⟩
    let note : Event := ⟨none, 0, "", "", none, .custom ⟨"note", "{}"⟩⟩
    ∃ s, exec LogRun.step .new [.record 10 note "alpha" "example.alpha" 0,
        .record 5 nan "beta" "example.beta" 0] = some s ∧
      s.log.query ⟨some, fun _ => ⟨0⟩⟩ .all 100 = .error (.encode "sensor") := by
  refine ⟨_, rfl, ?_⟩
  rw [EventLog.query, selected, List.mergeSort_of_pairwise (by decide)]
  rfl

end OxidHome.History

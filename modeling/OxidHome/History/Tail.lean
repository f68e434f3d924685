import OxidHome.History.Recorded

/-!
# Resuming a tail

A tail client saves the last id that it saw and asks for `id > after_id` later. Without
`AUTOINCREMENT` a trim that takes the newest row gives its id away again, so the ids of a run
increase exactly when every record finds the row of the largest id ever given still in the table.
-/

namespace OxidHome.History
open Wit Library

namespace LogRun

def NewestPresent (s : LogRun) : Prop :=
  s.given = [] ∨ ∃ row ∈ s.log.rows, (∀ id ∈ s.given, id ≤ row.id) ∧ row.id < I64_MAX

def RecordsAfterGap (s : LogRun) : LogAction → Prop
  | .record .. => ¬ s.NewestPresent
  | .trimOlderThan _ => False

/-- A client that saw `lastSeen` in the state `s` asks again in `t`. -/
def Resumes (s t : LogRun) (lastSeen : Nat) : Prop :=
  ∀ serde limit page, t.log.rows.length ≤ limit →
    t.log.query serde { EventQuery.all with afterId := some lastSeen } limit = .ok page →
    ∀ entry ∈ t.published,
      (s.given.length ≤ entry.1 → entry.2.id ∈ page.map (·.id)) ∧
        (entry ∈ s.published → entry.2.id ≤ lastSeen → entry.2.id ∉ page.map (·.id))

end LogRun

open LogRun in
structure TailSafe (acts : List LogAction) : Prop where
  increasing : ∀ before, before <+: acts → ∀ s, exec LogRun.step new before = some s →
    s.given.Pairwise (· > ·)
  resumes : ∀ before after, before ++ after <+: acts → ∀ s t,
    exec LogRun.step new before = some s → exec LogRun.step s after = some t →
    ∀ entry ∈ s.published, Resumes s t entry.2.id

namespace LogRun

theorem LogInv.id_given {s : LogRun} (inv : s.LogInv) {row : EventRow} (mem : row ∈ s.log.rows) :
    row.id ∈ s.given := by
  rw [inv.rows] at mem
  obtain ⟨event, held, rfl⟩ := List.mem_map.mp mem
  obtain ⟨entry, here, rfl⟩ := List.mem_map.mp held
  exact List.mem_reverse.mp (List.mem_of_getElem? (inv.order entry here))

theorem LogInv.stored_mem {s : LogRun} (inv : s.LogInv) {entry : Nat × HistoricalEvent}
    (mem : entry ∈ s.published) : stored entry.2 ∈ s.log.rows := by
  rw [inv.rows]
  exact List.mem_map_of_mem (List.mem_map_of_mem mem)

theorem largest_of_mem {log : EventLog} {row : EventRow} (mem : row ∈ log.rows) :
    ∃ top ∈ log.rows, (log.rows.map (·.id)).max? = some top.id ∧ row.id ≤ top.id := by
  cases largest : (log.rows.map (·.id)).max? with
  | none => simp_all
  | some id =>
      obtain ⟨inside, above⟩ := List.max?_eq_some_iff.mp largest
      obtain ⟨top, here, rfl⟩ := List.mem_map.mp inside
      exact ⟨top, here, rfl, above _ (List.mem_map_of_mem mem)⟩

theorem newRowid_above_iff {s : LogRun} (inv : s.LogInv) {pick : Nat}
    (valid : s.log.newRowid pick ≤ I64_MAX) :
    (∀ id ∈ s.given, id < s.log.newRowid pick) ↔ s.NewestPresent := by
  constructor
  · intro above
    rcases List.eq_nil_or_concat s.given with none | ⟨older, first, some⟩
    · exact Or.inl none
    · have mem : first ∈ s.given := by simp [some]
      right
      cases largest : (s.log.rows.map (·.id)).max? with
      | none =>
          have one : s.log.newRowid pick = 1 := by simp [EventLog.newRowid, largest, I64_MAX]
          have positive := inv.positive first mem
          have below := above first mem
          omega
      | some id =>
          obtain ⟨inside, highest⟩ := List.max?_eq_some_iff.mp largest
          obtain ⟨top, here, rfl⟩ := List.mem_map.mp inside
          have held := above top.id (inv.id_given here)
          have room : top.id < I64_MAX := by omega
          have next : s.log.newRowid pick = top.id + 1 := by
            simp [EventLog.newRowid, largest, room]
          rw [next] at above
          exact ⟨top, here, fun g mem => Nat.lt_succ_iff.mp (above g mem), room⟩
  · intro present id mem
    rcases present with none | ⟨row, here, highest, room⟩
    · simp [none] at mem
    · obtain ⟨top, inside, largest, le⟩ := largest_of_mem here
      have := highest top.id (inv.id_given inside)
      have := highest id mem
      have next : s.log.newRowid pick = top.id + 1 := by
        simp only [EventLog.newRowid, largest, Option.getD_some]
        rw [if_pos (by omega)]
      omega

theorem increasing_step {s t : LogRun} {a : LogAction} (inv : s.LogInv)
    (increasing : s.given.Pairwise (· > ·)) (taken : s.step a = some t) :
    ¬ t.given.Pairwise (· > ·) ↔ s.RecordsAfterGap a := by
  cases a with
  | record receivedMs event instanceId pluginId pick =>
      obtain ⟨low, high, rows, given, published⟩ := step_record taken
      rw [given, List.pairwise_cons, and_iff_left increasing]
      exact not_congr (newRowid_above_iff inv high)
  | trimOlderThan cutoffMs =>
      cases taken
      exact iff_of_false (not_not.mpr increasing) id

theorem given_suffix {s t : LogRun} {acts : List LogAction}
    (run : exec LogRun.step s acts = some t) : s.given <:+ t.given := by
  apply exec_invariant (P := fun u => s.given <:+ u.given) ?_ List.suffix_rfl run
  intro u a v before taken
  cases a with
  | record receivedMs event instanceId pluginId pick =>
      obtain ⟨low, high, rows, given, published⟩ := step_record taken
      rw [given]
      exact before.trans (List.suffix_cons _ _)
  | trimOlderThan cutoffMs =>
      cases taken
      exact before

theorem later_id_above {s t : LogRun} (inv : t.LogInv) (since : s.given <:+ t.given)
    (increasing : t.given.Pairwise (· > ·)) {entry : Nat × HistoricalEvent}
    (mem : entry ∈ t.published) (later : s.given.length ≤ entry.1) {id : Nat} (seen : id ∈ s.given) :
    id < entry.2.id := by
  obtain ⟨newer, split⟩ := since
  have place := inv.order entry mem
  rw [← split, List.reverse_append, List.getElem?_append_right (by simpa using later)] at place
  rw [← split, List.pairwise_append] at increasing
  exact increasing.2.2 _ (List.mem_reverse.mp (List.mem_of_getElem? place)) id seen

theorem resumes_of_increasing {s t : LogRun} (inv : t.LogInv) {lastSeen : Nat}
    (above : ∀ entry ∈ t.published, s.given.length ≤ entry.1 → lastSeen < entry.2.id) :
    Resumes s t lastSeen := by
  intro serde limit page large answered entry mem
  have short : (selected { EventQuery.all with afterId := some lastSeen } t.log.rows).length ≤
      pageSize limit := by
    have := selected_length_le { EventQuery.all with afterId := some lastSeen } t.log.rows
    have := t.log.length_rows_le
    unfold pageSize
    omega
  rw [EventLog.query, List.take_of_length_le short] at answered
  obtain ⟨decodes, rfl⟩ := mapM_decodeRow.mp answered
  rw [shown_ids]
  constructor
  · intro later
    have clause : min lastSeen I64_MAX < entry.2.id :=
      (Nat.min_le_left _ _).trans_lt (above entry mem later)
    apply List.mem_map_of_mem (f := (·.id)) (a := stored entry.2)
    rw [mem_selected]
    refine ⟨inv.stored_mem mem, ?_⟩
    simp only [EventQuery.selects, EventQuery.all, Option.all_none, Option.all_some,
      Bool.true_and, Bool.and_true, decide_eq_true_eq]
    exact clause
  · intro _ seen listed
    obtain ⟨row, chosen, same⟩ := List.mem_map.mp listed
    have passed := (mem_selected.mp chosen).2
    have known := t.log.bounded row (mem_selected.mp chosen).1
    simp only [EventQuery.selects, EventQuery.all, Option.all_none, Option.all_some,
      Bool.true_and, Bool.and_true, decide_eq_true_eq] at passed
    omega

end LogRun

open LogRun in
theorem tail_safe_iff (acts : List LogAction) :
    TailSafe acts ↔ ∀ before a, before ++ [a] <+: acts → ∀ s t,
      exec LogRun.step new before = some s → LogRun.step s a = some t → ¬ s.RecordsAfterGap a := by
  have ids := exec_faultless (B := fun s : LogRun => ¬ s.given.Pairwise (· > ·))
    (F := RecordsAfterGap) (s := new) (not_not.mpr .nil)
    (fun as t a u reached good taken =>
      increasing_step (.reached reached) (not_not.mp good) taken) acts
  simp only [not_not] at ids
  rw [← ids]
  constructor
  · intro safe
    exact safe.increasing
  · intro increasing
    refine ⟨increasing, ?_⟩
    intro before after within s t first second entry mem
    have whole := exec_append.mpr ⟨s, first, second⟩
    have inv : t.LogInv := .reached whole
    have known : entry.2.id ∈ s.given := by
      have start : s.LogInv := .reached first
      exact start.id_given (start.stored_mem mem)
    apply resumes_of_increasing inv
    intro later here since
    exact later_id_above inv (given_suffix second) (increasing _ within t whole) here since known

theorem trim_reuses_an_id :
    let note : Event := ⟨none, 0, "", "", none, .custom ⟨"note", "{}"⟩⟩
    ¬ TailSafe [.record 10 note "alpha" "example.alpha" 0, .trimOlderThan 11,
      .record 12 note "alpha" "example.alpha" 0] := by
  intro note safe
  have given := safe.increasing _ List.prefix_rfl _ rfl
  exact absurd given (by decide)

end OxidHome.History

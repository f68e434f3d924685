import OxidHome.Library.CursorPages
import OxidHome.History.EventLog

/-!
# Paging through history

A client walks back with `before_id` set to the lowest id of its last page. A page is cut by
`(received_ms DESC, id DESC)` and the cursor by `id` alone, so the walk is complete exactly when
rows on different pages agree in both orders.
-/

namespace OxidHome.History
open Wit Library

/-- The client's calls until a page is empty, `none` where it needs more than `fuel` of them. -/
def EventLog.walkBack (serde : SerdeJson) (log : EventLog) (limit : Nat) :
    Nat → EventQuery → Option (Except EventLogError (List HistoricalEvent))
  | 0, _ => none
  | fuel + 1, filter =>
      match log.query serde filter limit with
      | .error err => some (.error err)
      | .ok page =>
        match (page.map (·.id)).min? with
        | none => some (.ok [])
        | some lowest =>
          (log.walkBack serde limit fuel { filter with beforeId := some lowest }).map
            (·.map (page ++ ·))

def EventLog.CollectsAll (serde : SerdeJson) (log : EventLog) (filter : EventQuery)
    (limit fuel : Nat) : Prop :=
  ∃ collected, log.walkBack serde limit fuel filter = some (.ok collected) ∧
    (collected.map (·.id)).Perm ((log.rows.filter filter.selects).map (·.id))

theorem selects_before {filter : EventQuery} {lowest : Nat} {row : EventRow}
    (bounded : lowest ≤ I64_MAX) (low : filter.beforeId.all fun before => lowest < min before I64_MAX) :
    ({ filter with beforeId := some lowest } : EventQuery).selects row =
      (decide (row.id < lowest) && filter.selects row) := by
  have implied : row.id < lowest → (filter.beforeId.all fun before => row.id < min before I64_MAX) := by
    intro below
    cases h : filter.beforeId with
    | none => rfl
    | some before =>
        rw [h] at low
        simp only [Option.all_some, decide_eq_true_eq] at low ⊢
        omega
  by_cases below : row.id < lowest
  · simp only [EventQuery.selects, Option.all_some, Nat.min_eq_left bounded, below, decide_true,
      Bool.and_true, Bool.true_and, implied below]
  · simp only [EventQuery.selects, Option.all_some, Nat.min_eq_left bounded, below, decide_false,
      Bool.and_false, Bool.false_and]

theorem newestFirst_antisymm {log : EventLog} {a b : EventRow} (ha : a ∈ log.rows)
    (hb : b ∈ log.rows) (ab : newestFirst a b = true) (ba : newestFirst b a = true) : a = b := by
  apply List.inj_on_of_nodup_map log.distinct ha hb
  simp only [newestFirst, Bool.or_eq_true, Bool.and_eq_true, decide_eq_true_eq] at ab ba
  omega

theorem selected_before {log : EventLog} {filter : EventQuery} {lowest : Nat} {row : EventRow}
    (mem : row ∈ selected filter log.rows) (here : row.id = lowest) :
    selected { filter with beforeId := some lowest } log.rows =
      (selected filter log.rows).filter (·.id < lowest) := by
  obtain ⟨stored, chosen⟩ := mem_selected.mp mem
  have bounded : lowest ≤ I64_MAX := here ▸ log.bounded row stored
  have low : filter.beforeId.all fun before => lowest < min before I64_MAX := by
    simp only [EventQuery.selects, Bool.and_eq_true] at chosen
    rw [← here]
    exact chosen.2
  have clause : (({ filter with beforeId := some lowest } : EventQuery).selects : EventRow → Bool) =
      fun r => decide (r.id < lowest) && filter.selects r := by
    funext r
    exact selects_before bounded low
  have sorted (filter : EventQuery) :
      (selected filter log.rows).Pairwise fun a b => newestFirst a b = true :=
    List.pairwise_mergeSort newestFirst_trans newestFirst_total _
  refine List.Perm.eq_of_pairwise ?_ (sorted _) ((sorted filter).filter _) ?_
  · intro a b ha hb ab ba
    exact newestFirst_antisymm (mem_selected.mp ha).1
      (mem_selected.mp (List.mem_of_mem_filter hb)).1 ab ba
  · refine (selected_perm _ _).trans ?_
    rw [clause, ← List.filter_filter]
    exact ((selected_perm filter log.rows).symm).filter _

theorem walkBack_eq_walk {serde : SerdeJson} {log : EventLog} {limit : Nat} (fuel : Nat)
    {filter : EventQuery} (decodes : ∀ row ∈ selected filter log.rows, Decodes serde row) :
    log.walkBack serde limit fuel filter =
      (walk (·.id) (pageSize limit) fuel (selected filter log.rows)).map fun rows =>
        .ok (rows.map (shown serde)) := by
  induction fuel generalizing filter with
  | zero => rfl
  | succ fuel ih =>
      have page : log.query serde filter limit =
          .ok (((selected filter log.rows).take (pageSize limit)).map (shown serde)) :=
        mapM_decodeRow.mpr ⟨fun row mem => decodes row (List.mem_of_mem_take mem), rfl⟩
      rw [EventLog.walkBack, page, walk]
      dsimp only
      rw [shown_ids]
      cases low : (((selected filter log.rows).take (pageSize limit)).map (·.id)).min? with
      | none => rfl
      | some lowest =>
          obtain ⟨row, mem, here⟩ := lowest_mem low
          have next := selected_before (List.mem_of_mem_take mem) here
          dsimp only
          rw [ih, next, Option.map_map, Option.map_map]
          · congr 1
            funext rows
            simp [Except.map]
          · intro row mem
            rw [next] at mem
            exact decodes row (List.mem_of_mem_filter mem)

theorem collected_decodes {serde : SerdeJson} {log : EventLog} {limit fuel : Nat}
    {filter : EventQuery} {collected : List HistoricalEvent}
    (walked : log.walkBack serde limit fuel filter = some (.ok collected)) :
    ∀ event ∈ collected, ∃ row ∈ log.rows, Decodes serde row ∧ row.id = event.id := by
  induction fuel generalizing filter collected with
  | zero => cases walked
  | succ fuel ih =>
      rw [EventLog.walkBack] at walked
      cases queried : log.query serde filter limit with
      | error err => simp [queried] at walked
      | ok page =>
          rw [queried] at walked
          dsimp only at walked
          cases low : (page.map (·.id)).min? with
          | none =>
              rw [low] at walked
              cases walked
              simp
          | some lowest =>
              simp only [low, Option.map_eq_some_iff] at walked
              obtain ⟨outcome, rest, split⟩ := walked
              cases outcome with
              | error err => cases split
              | ok later =>
                  cases split
                  obtain ⟨decodes, same⟩ := mapM_decodeRow.mp queried
                  intro event mem
                  rcases List.mem_append.mp mem with mem | mem
                  · rw [same] at mem
                    obtain ⟨row, chosen, rfl⟩ := List.mem_map.mp mem
                    have stored := (mem_selected.mp (List.mem_of_mem_take chosen)).1
                    exact ⟨row, stored, decodes row chosen, rfl⟩
                  · exact ih rest event mem

theorem EventLog.CollectsAll.decodes {serde : SerdeJson} {log : EventLog} {limit fuel : Nat}
    {filter : EventQuery} (complete : log.CollectsAll serde filter limit fuel) {row : EventRow}
    (mem : row ∈ log.rows) (chosen : filter.selects row = true) : Decodes serde row := by
  obtain ⟨collected, walked, perm⟩ := complete
  have wanted : row.id ∈ (log.rows.filter filter.selects).map (·.id) :=
    List.mem_map_of_mem (List.mem_filter.mpr ⟨mem, chosen⟩)
  obtain ⟨event, found, same⟩ := List.mem_map.mp (perm.mem_iff.mpr wanted)
  obtain ⟨stored, inside, decodes, here⟩ := collected_decodes walked event found
  rwa [List.inj_on_of_nodup_map log.distinct mem inside (same.symm.trans here.symm)]

theorem pagesInOrder_pageSize {log : EventLog} {filter : EventQuery} {limit : Nat} :
    PagesInOrder (·.id) (pageSize limit) (selected filter log.rows) ↔
      PagesInOrder (·.id) limit (selected filter log.rows) := by
  rcases le_total limit I64_MAX with small | large
  · rw [pageSize, Nat.min_eq_left small]
  · have short := (selected_length_le filter log.rows).trans log.length_rows_le
    have onePage : ∀ n, I64_MAX ≤ n → PagesInOrder (·.id) n (selected filter log.rows) := by
      intro n big i j lt hj _
      rw [Nat.div_eq_of_lt (by omega), Nat.div_eq_of_lt (by omega)]
    have whole : pageSize limit = I64_MAX := Nat.min_eq_right large
    rw [whole]
    exact ⟨fun _ => onePage limit large, fun _ => onePage I64_MAX le_rfl⟩

theorem walk_back_complete_iff (serde : SerdeJson) (log : EventLog) (filter : EventQuery)
    (limit fuel : Nat) (pos : 1 ≤ limit) (enough : log.rows.length < fuel) :
    log.CollectsAll serde filter limit fuel ↔
      (∀ row ∈ log.rows, filter.selects row = true → Decodes serde row) ∧
        PagesInOrder (·.id) limit (selected filter log.rows) := by
  have bounded : (selected filter log.rows).length < fuel :=
    (selected_length_le filter log.rows).trans_lt enough
  have distinct : ((selected filter log.rows).map (·.id)).Nodup :=
    ((selected_perm filter log.rows).map _).nodup_iff.mpr
      (log.distinct.sublist (List.filter_sublist.map _))
  have paged : 0 < pageSize limit := by
    unfold pageSize I64_MAX
    omega
  rw [← pagesInOrder_pageSize, ← walk_perm_iff paged distinct bounded]
  constructor
  · intro complete
    have decodes : ∀ row ∈ log.rows, filter.selects row = true → Decodes serde row :=
      fun row => complete.decodes
    refine ⟨decodes, ?_⟩
    obtain ⟨collected, walked, perm⟩ := complete
    have chosen : ∀ row ∈ selected filter log.rows, Decodes serde row :=
      fun row mem => decodes row (mem_selected.mp mem).1 (mem_selected.mp mem).2
    rw [walkBack_eq_walk fuel chosen] at walked
    obtain ⟨all, found, same⟩ := Option.map_eq_some_iff.mp walked
    cases same
    obtain ⟨reached, again, within⟩ := walk_total paged bounded
    cases found.symm.trans again
    refine ⟨all, found, ?_⟩
    rw [shown_ids] at perm
    have sameLength := (perm.trans ((selected_perm filter log.rows).symm.map _)).length_eq
    rw [List.length_map, List.length_map] at sameLength
    rw [within.eq_of_length sameLength]
  · intro ⟨decodes, all, found, perm⟩
    have chosen : ∀ row ∈ selected filter log.rows, Decodes serde row :=
      fun row mem => decodes row (mem_selected.mp mem).1 (mem_selected.mp mem).2
    refine ⟨all.map (shown serde), by rw [walkBack_eq_walk fuel chosen, found, Option.map_some], ?_⟩
    rw [shown_ids]
    exact (perm.trans (selected_perm filter log.rows)).map _

def plainJson : SerdeJson := ⟨some, fun _ => ⟨0⟩⟩

def note (id : Nat) (receivedMs : Int) : EventRow :=
  ⟨id, receivedMs, 0, none, "alpha", "example.alpha", "note",
    EventLog.serializePayload (.custom ⟨"note", "{}"⟩)⟩

def steppedBack : EventLog where
  rows := [note 1 10, note 2 5]
  distinct := by decide
  positive := by decide
  bounded := by decide

theorem steppedBack_selected : selected .all steppedBack.rows = [note 1 10, note 2 5] :=
  List.mergeSort_of_pairwise (by decide)

theorem steppedBack_decodes (row : EventRow) (mem : row ∈ steppedBack.rows) :
    Decodes plainJson row := by
  have stored : row = note 1 10 ∨ row = note 2 5 := by simpa [steppedBack] using mem
  rcases stored with rfl | rfl <;> rfl

theorem walk_back_complete_iff_one_page : steppedBack.CollectsAll plainJson .all 2 3 := by
  refine (walk_back_complete_iff plainJson steppedBack .all 2 3 (by decide) (by decide)).mpr ?_
  refine ⟨fun row mem _ => steppedBack_decodes row mem, ?_⟩
  rw [steppedBack_selected]
  intro i j lt hj _
  have : j < 2 := hj
  rw [Nat.div_eq_of_lt this, Nat.div_eq_of_lt (lt.trans this)]

theorem clock_step_drops_a_row :
    ¬ ∀ (log : EventLog) (filter : EventQuery) (limit fuel : Nat), 1 ≤ limit →
      log.rows.length < fuel → log.CollectsAll plainJson filter limit fuel := by
  intro always
  obtain ⟨collected, walked, perm⟩ := always steppedBack .all 1 3 (by decide) (by decide)
  have decodes : ∀ row ∈ selected .all steppedBack.rows, Decodes plainJson row :=
    fun row mem => steppedBack_decodes row (mem_selected.mp mem).1
  rw [walkBack_eq_walk 3 decodes, steppedBack_selected] at walked
  have first : walk (·.id) (pageSize 1) 3 [note 1 10, note 2 5] = some [note 1 10] := rfl
  rw [first] at walked
  cases walked
  exact absurd perm.length_eq (by decide)

end OxidHome.History

import OxidHome.Audit.AuditLog
import OxidHome.Library.KeysetPages

/-!
# Paging through the audit log

A client passes the `(intent_ms, id)` of the last row of a page as the `before` of its next query.
The cursor is the sort key of the query, and no write changes the key of a row or the columns that a
filter without `decision` reads.
-/

namespace OxidHome.Audit
open Library

def AuditQuery.after (filter : AuditQuery) (last : AuditEntry) : AuditQuery :=
  { filter with before := some (last.intentMs, last.id) }

/-- The client's calls until a page is empty, `none` where the schedule is over before. Each entry of
the schedule holds the writes between a page and the next one. -/
def AuditLog.walk (limit : UInt64) :
    List (List AuditWrite) → AuditLog → AuditQuery → Option (List AuditEntry)
  | [], _, _ => none
  | writes :: later, log, filter =>
      let page := log.query filter limit
      match page.getLast? with
      | none => some []
      | some last =>
        (AuditLog.walk limit later (writes.foldl AuditLog.write log) (filter.after last)).map
          (page ++ ·)

def AuditRow.intent (row : AuditRow) : AuditRow :=
  { row with
    finalizedMs := none
    status := 0
    decision := "pending"
    requiredScope := none
    executionOutcome := none
    domainError := none }

def AuditEntry.intent (entry : AuditEntry) : AuditEntry :=
  { entry with
    finalizedMs := none
    status := 0
    decision := "pending"
    requiredScope := none
    executionOutcome := none
    domainError := none }

/-- Every row that matched at the start is collected, and no row twice. -/
structure Lossless (log : AuditLog) (filter : AuditQuery) (collected : List AuditEntry) : Prop where
  complete : ∀ row ∈ log.rows, filter.selects row = true →
    ∃ entry ∈ collected, entry.intent = decodeRow row.intent
  once : (collected.map (·.id)).Nodup
  descending : collected.Pairwise fun a b =>
    b.intentMs < a.intentMs ∨ (b.intentMs = a.intentMs ∧ b.id < a.id)

section
variable {log : AuditLog} {row : AuditRow}

theorem insert_keeps {added : AuditRow} {id : UInt64} {next : AuditLog}
    (inserted : log.insert added = .ok (id, next)) (mem : row ∈ log.rows) : row ∈ next.rows := by
  unfold AuditLog.insert at inserted
  split at inserted
  · cases inserted
    exact List.mem_append_left _ mem
  · cases inserted

theorem finalize_keeps {now : Int64} {id : UInt64} {status : UInt16} {decision : String}
    {requiredScope executionOutcome domainError : Option String} {next : AuditLog}
    (updated : log.finalize now id status decision requiredScope executionOutcome domainError =
      .ok next) (mem : row ∈ log.rows) : ∃ kept ∈ next.rows, kept.intent = row.intent := by
  unfold AuditLog.finalize at updated
  split at updated
  · cases updated
    refine ⟨_, List.mem_map_of_mem mem, ?_⟩
    split <;> rfl
  · cases updated

theorem write_keeps (write : AuditWrite) (mem : row ∈ log.rows) :
    ∃ kept ∈ (log.write write).rows, kept.intent = row.intent := by
  cases write with
  | recordIntent now entry pick =>
      rw [AuditLog.write]
      cases recorded : log.recordIntent now entry pick with
      | error err => exact ⟨row, mem, rfl⟩
      | ok next => exact ⟨row, insert_keeps recorded mem, rfl⟩
  | recordCompleted now entry pick =>
      rw [AuditLog.write]
      cases recorded : log.recordCompleted now entry pick with
      | error err => exact ⟨row, mem, rfl⟩
      | ok next => exact ⟨row, insert_keeps recorded mem, rfl⟩
  | finalize now id status decision requiredScope executionOutcome domainError =>
      rw [AuditLog.write]
      cases updated : log.finalize now id status decision requiredScope executionOutcome
        domainError with
      | error err => exact ⟨row, mem, rfl⟩
      | ok next => exact finalize_keeps updated mem

theorem writes_keep (writes : List AuditWrite) (mem : row ∈ log.rows) :
    ∃ kept ∈ (writes.foldl AuditLog.write log).rows, kept.intent = row.intent := by
  induction writes generalizing log row with
  | nil => exact ⟨row, mem, rfl⟩
  | cons write writes ih =>
      obtain ⟨kept, here, same⟩ := write_keeps write mem
      obtain ⟨last, there, still⟩ := ih here
      exact ⟨last, there, still.trans same⟩

theorem key_eq_of_intent {a b : AuditRow} (same : a.intent = b.intent) : a.key = b.key :=
  (congrArg AuditRow.key same : a.intent.key = b.intent.key)

theorem id_eq_of_intent {a b : AuditRow} (same : a.intent = b.intent) : a.id = b.id :=
  (congrArg AuditRow.id same : a.intent.id = b.intent.id)

theorem selects_eq_of_intent {filter : AuditQuery} (undecided : filter.decision = none)
    {a b : AuditRow} (same : a.intent = b.intent) : filter.selects a = filter.selects b := by
  have reads (row : AuditRow) : filter.selects row = filter.selects row.intent := by
    simp only [AuditQuery.selects, undecided, Option.all_none]
    rfl
  rw [reads a, reads b, same]

end

section
variable {log : AuditLog} {filter : AuditQuery} {limit : UInt64}

def keysOf (filter : AuditQuery) (log : AuditLog) : Set (ℤ ×ₗ ℤ) :=
  { k | k ∈ (selected filter log.rows).map AuditRow.key }

theorem mem_keysOf {k : ℤ ×ₗ ℤ} :
    k ∈ keysOf filter log ↔ ∃ row ∈ log.rows, filter.selects row = true ∧ row.key = k := by
  refine List.mem_map.trans ?_
  simp only [mem_selected, and_assoc]

def AuditEntry.key (entry : AuditEntry) : ℤ ×ₗ ℤ := cursorKey (entry.intentMs, entry.id)

@[simp] theorem key_decodeRow (row : AuditRow) : (decodeRow row).key = row.key :=
  cursorKey_row row

theorem query_keys (log : AuditLog) (filter : AuditQuery) (limit : UInt64) :
    (log.query filter limit).map AuditEntry.key =
      (limited limit.toInt64 (selected filter log.rows)).map AuditRow.key := by
  simp only [AuditLog.query, List.map_map, Function.comp_def, key_decodeRow]

theorem topOf_query (log : AuditLog) (filter : AuditQuery) (limit : UInt64) :
    TopOf (keysOf filter log) ((log.query filter limit).map AuditEntry.key) := by
  rw [query_keys]
  exact topOf_prefix (selected_keys_descend filter log) ((limited_isPrefix _ _).map _)

theorem keysOf_of_query_nil (pos : 1 ≤ limit) (none : log.query filter limit = []) :
    ∀ k, k ∉ keysOf filter log := by
  intro k mem
  have nothing := limited_eq_nil pos (List.map_eq_nil_iff.mp none)
  rw [keysOf, nothing] at mem
  simp at mem

theorem key_lt_of_selects_after {last : AuditEntry} {row : AuditRow}
    (chosen : (filter.after last).selects row = true) : row.key < last.key := by
  simp only [AuditQuery.selects, AuditQuery.after, Option.all_some, Bool.and_eq_true] at chosen
  exact isBefore_iff.mp chosen.1.2

theorem selects_after {last : AuditEntry} (low : filter.before.all fun before =>
    last.key ≤ cursorKey before) {row : AuditRow} (below : row.key < last.key) :
    (filter.after last).selects row = filter.selects row := by
  have cursor : filter.before.all (isBefore row) = true := by
    rw [Option.all_eq_true] at low ⊢
    intro before given
    exact isBefore_iff.mpr (below.trans_le (of_decide_eq_true (low before given)))
  simp only [AuditQuery.selects, AuditQuery.after, Option.all_some, cursor,
    isBefore_iff.mpr (show row.key < cursorKey (last.intentMs, last.id) from below)]

theorem last_decodes {last : AuditEntry} (ends : (log.query filter limit).getLast? = some last) :
    ∃ row ∈ log.rows, filter.selects row = true ∧ last = decodeRow row := by
  obtain ⟨row, mem, rfl⟩ := List.mem_map.mp (List.mem_of_getLast? ends)
  obtain ⟨stored, chosen⟩ := mem_selected.mp ((limited_isPrefix _ _).subset mem)
  exact ⟨row, stored, chosen, rfl⟩

theorem last_below_cursor {last : AuditEntry}
    (ends : (log.query filter limit).getLast? = some last) :
    filter.before.all fun before => last.key ≤ cursorKey before := by
  obtain ⟨row, -, chosen, rfl⟩ := last_decodes ends
  simp only [AuditQuery.selects, Bool.and_eq_true] at chosen
  rw [Option.all_eq_true]
  intro before given
  rw [key_decodeRow, decide_eq_true_eq]
  exact (isBefore_iff.mp ((Option.all_eq_true _ _).mp chosen.1.2 before given)).le

theorem keysOf_after {last : AuditEntry} (ends : (log.query filter limit).getLast? = some last)
    (undecided : filter.decision = none) (writes : List AuditWrite) {k : ℤ ×ₗ ℤ}
    (mem : k ∈ keysOf filter log) (below : k < last.key) :
    k ∈ keysOf (filter.after last) (writes.foldl AuditLog.write log) := by
  obtain ⟨row, stored, chosen, rfl⟩ := mem_keysOf.mp mem
  obtain ⟨kept, here, same⟩ := writes_keep writes stored
  refine mem_keysOf.mpr ⟨kept, here, ?_, key_eq_of_intent same⟩
  rw [selects_eq_of_intent (by exact undecided) same,
    selects_after (last_below_cursor ends) below, chosen]

end

section
variable {log : AuditLog} {filter : AuditQuery} {limit : UInt64}
  {schedule : List (List AuditWrite)} {collected : List AuditEntry}

theorem keysetWalk_of_walk (pos : 1 ≤ limit) (undecided : filter.decision = none)
    (walked : AuditLog.walk limit schedule log filter = some collected) :
    KeysetWalk (keysOf filter log) (collected.map AuditEntry.key) := by
  induction schedule generalizing log filter collected with
  | nil => cases walked
  | cons writes later ih =>
      simp only [AuditLog.walk] at walked
      cases ends : (log.query filter limit).getLast? with
      | none =>
          rw [ends] at walked
          cases walked
          exact .done (keysOf_of_query_nil pos (List.getLast?_eq_none_iff.mp ends))
      | some last =>
          simp only [ends, Option.map_eq_some_iff] at walked
          obtain ⟨rest, walked, rfl⟩ := walked
          rw [List.map_append]
          refine .next (topOf_query log filter limit) (by rw [List.getLast?_map, ends]; rfl)
            (fun k => keysOf_after ends undecided writes) ?_ (ih undecided walked)
          intro k mem
          obtain ⟨row, -, chosen, rfl⟩ := mem_keysOf.mp mem
          exact key_lt_of_selects_after chosen

theorem walk_settles (walked : AuditLog.walk limit schedule log filter = some collected) :
    ∃ final : AuditLog, (∀ row ∈ log.rows, ∃ kept ∈ final.rows, kept.intent = row.intent) ∧
      ∀ entry ∈ collected, ∃ kept ∈ final.rows, entry.intent = decodeRow kept.intent := by
  induction schedule generalizing log filter collected with
  | nil => cases walked
  | cons writes later ih =>
      simp only [AuditLog.walk] at walked
      cases ends : (log.query filter limit).getLast? with
      | none =>
          rw [ends] at walked
          cases walked
          exact ⟨log, fun row mem => ⟨row, mem, rfl⟩, by simp⟩
      | some last =>
          simp only [ends, Option.map_eq_some_iff] at walked
          obtain ⟨rest, walked, rfl⟩ := walked
          obtain ⟨final, keeps, shows⟩ := ih walked
          have kept : ∀ row ∈ log.rows, ∃ kept ∈ final.rows, kept.intent = row.intent := by
            intro row mem
            obtain ⟨next, here, same⟩ := writes_keep writes mem
            obtain ⟨kept, there, still⟩ := keeps next here
            exact ⟨kept, there, still.trans same⟩
          refine ⟨final, kept, ?_⟩
          intro entry mem
          rcases List.mem_append.mp mem with mem | mem
          · obtain ⟨row, shown, rfl⟩ := List.mem_map.mp mem
            obtain ⟨stored, -⟩ := mem_selected.mp ((limited_isPrefix _ _).subset shown)
            obtain ⟨settled, there, same⟩ := kept row stored
            exact ⟨settled, there, by rw [same]; rfl⟩
          · exact shows entry mem

end

section
variable {limit : UInt64}

theorem filter_after_length_lt {log : AuditLog} {filter : AuditQuery} {last : AuditEntry}
    (ends : (log.query filter limit).getLast? = some last) :
    (log.rows.filter (filter.after last).selects).length <
      (log.rows.filter filter.selects).length := by
  have split : log.rows.filter (filter.after last).selects =
      (log.rows.filter filter.selects).filter (·.key < last.key) := by
    rw [List.filter_filter]
    apply List.filter_congr
    intro row _
    by_cases below : row.key < last.key
    · simp only [selects_after (last_below_cursor ends) below, below, decide_true, Bool.true_and]
    · simp only [below, decide_false, Bool.false_and]
      exact Bool.eq_false_iff.mpr fun chosen => below (key_lt_of_selects_after chosen)
  rw [split]
  obtain ⟨row, stored, chosen, rfl⟩ := last_decodes ends
  apply List.length_filter_lt_length_iff_exists.mpr
  exact ⟨row, List.mem_filter.mpr ⟨stored, chosen⟩, by simp⟩

theorem walk_quiet {log : AuditLog} {filter : AuditQuery} {n : Nat}
    (enough : (log.rows.filter filter.selects).length < n) :
    ∃ collected, AuditLog.walk limit (List.replicate n []) log filter = some collected := by
  induction n generalizing filter with
  | zero => omega
  | succ n ih =>
      simp only [List.replicate_succ, AuditLog.walk, List.foldl_nil]
      cases ends : (log.query filter limit).getLast? with
      | none => exact ⟨[], rfl⟩
      | some last =>
          have fewer := filter_after_length_lt ends
          have remaining : (log.rows.filter (filter.after last).selects).length < n := by omega
          obtain ⟨rest, walked⟩ := ih remaining
          exact ⟨log.query filter limit ++ rest, by dsimp only; rw [walked, Option.map_some]⟩

theorem walk_ends (log : AuditLog) (filter : AuditQuery)
    (schedule : List (List AuditWrite)) :
    ∃ quiet collected,
      AuditLog.walk limit (schedule ++ List.replicate quiet []) log filter = some collected := by
  induction schedule generalizing log filter with
  | nil => exact ⟨_, walk_quiet (Nat.lt_succ_self _)⟩
  | cons writes later ih =>
      simp only [List.cons_append, AuditLog.walk]
      cases ends : (log.query filter limit).getLast? with
      | none => exact ⟨0, [], rfl⟩
      | some last =>
          obtain ⟨quiet, rest, walked⟩ := ih (writes.foldl AuditLog.write log) (filter.after last)
          exact ⟨quiet, log.query filter limit ++ rest, by dsimp only; rw [walked, Option.map_some]⟩

end

theorem newer_of_key {a b : AuditRow} (ha : 0 < a.id) (hb : 0 < b.id) (below : b.key < a.key) :
    b.intentMs < a.intentMs ∨ (b.intentMs = a.intentMs ∧ b.id.toUInt64 < a.id.toUInt64) := by
  rw [Int64.lt_iff_toInt_lt] at ha hb
  have zero : (0 : Int64).toInt = 0 := rfl
  simp only [AuditRow.key, Prod.Lex.toLex_lt_toLex, Int64.toInt_inj] at below
  rcases below with earlier | ⟨same, lower⟩
  · exact .inl (Int64.lt_iff_toInt_lt.mpr earlier)
  · refine .inr ⟨same, ?_⟩
    rw [UInt64.lt_iff_toNat_lt,
      Int64.toNat_toUInt64_of_le (Int64.le_iff_toInt_le.mpr (by omega)),
      Int64.toNat_toUInt64_of_le (Int64.le_iff_toInt_le.mpr (by omega)),
      Int64.toNatClampNeg, Int64.toNatClampNeg]
    omega

theorem audit_pages_lossless (log : AuditLog) (filter : AuditQuery) (limit : UInt64)
    (schedule : List (List AuditWrite)) (undecided : filter.decision = none) (pos : 1 ≤ limit) :
    (∃ quiet collected,
      AuditLog.walk limit (schedule ++ List.replicate quiet []) log filter = some collected) ∧
    ∀ collected, AuditLog.walk limit schedule log filter = some collected →
      Lossless log filter collected := by
  refine ⟨walk_ends log filter schedule, ?_⟩
  intro collected walked
  have keyset := keysetWalk_of_walk pos undecided walked
  obtain ⟨final, keeps, shows⟩ := walk_settles walked
  have keyOf : ∀ entry ∈ collected, ∀ row : AuditRow, entry.intent = decodeRow row.intent →
      entry.key = row.key := by
    intro entry _ row same
    rw [← key_decodeRow]
    exact (congrArg AuditEntry.key same : entry.intent.key = (decodeRow row.intent).key)
  have descending := List.pairwise_map.mp keyset.descending
  refine ⟨?_, ?_, ?_⟩
  · intro row stored chosen
    have wanted := keyset.complete row.key (mem_keysOf.mpr ⟨row, stored, chosen, rfl⟩)
    obtain ⟨entry, mem, sameKey⟩ := List.mem_map.mp wanted
    obtain ⟨shown, there, same⟩ := shows entry mem
    obtain ⟨kept, here, still⟩ := keeps row stored
    have sameId : shown.id = kept.id := by
      rw [id_eq_of_intent still]
      exact AuditRow.id_eq_of_key_eq ((keyOf entry mem shown same).symm.trans sameKey)
    obtain rfl := List.inj_on_of_nodup_map final.distinct there here sameId
    exact ⟨entry, mem, by rw [same, still]⟩
  · refine List.pairwise_map.mpr (descending.imp_of_mem ?_)
    intro a b ha hb below sameId
    obtain ⟨rowA, thereA, sameA⟩ := shows a ha
    obtain ⟨rowB, thereB, sameB⟩ := shows b hb
    have idA : a.id = rowA.id.toUInt64 := congrArg AuditEntry.id sameA
    have idB : b.id = rowB.id.toUInt64 := congrArg AuditEntry.id sameB
    have same : rowA.id = rowB.id := by
      rw [← Int64.toInt64_toUInt64 rowA.id, ← idA, sameId, idB, Int64.toInt64_toUInt64]
    obtain rfl := List.inj_on_of_nodup_map final.distinct thereA thereB same
    rw [keyOf a ha rowA sameA, keyOf b hb rowA sameB] at below
    exact lt_irrefl _ below
  · refine descending.imp_of_mem ?_
    intro a b ha hb below
    obtain ⟨rowA, thereA, sameA⟩ := shows a ha
    obtain ⟨rowB, thereB, sameB⟩ := shows b hb
    rw [keyOf a ha rowA sameA, keyOf b hb rowB sameB] at below
    have newer := newer_of_key (final.positive rowA thereA) (final.positive rowB thereB) below
    rw [show a.intentMs = rowA.intentMs from congrArg AuditEntry.intentMs sameA,
      show b.intentMs = rowB.intentMs from congrArg AuditEntry.intentMs sameB,
      show a.id = rowA.id.toUInt64 from congrArg AuditEntry.id sameA,
      show b.id = rowB.id.toUInt64 from congrArg AuditEntry.id sameB]
    exact newer

def request (id intentMs : Int64) : AuditRow :=
  ⟨id, intentMs, none, "operator", "api", "GET", "/api/v1/devices", 0, "pending", none, none, none,
    none⟩

def steppedBack : AuditLog where
  rows := [request 1 10, request 2 5, request 3 5]
  distinct := by decide
  positive := by decide

def interrupted : List (List AuditWrite) := [[.finalize 11 2 200 "allow" none none none]]

theorem audit_pages_lossless_stepped_back :
    ∃ quiet collected,
      AuditLog.walk 1 (interrupted ++ List.replicate quiet []) steppedBack .default =
        some collected ∧
      Lossless steppedBack .default collected := by
  obtain ⟨quiet, collected, walked⟩ :=
    (audit_pages_lossless steppedBack .default 1 interrupted rfl (by decide)).1
  refine ⟨quiet, collected, walked, ?_⟩
  exact (audit_pages_lossless steppedBack .default 1 (interrupted ++ List.replicate quiet []) rfl
    (by decide)).2 collected walked

end OxidHome.Audit

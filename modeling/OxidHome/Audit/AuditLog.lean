import Mathlib

/-!
# The audit log

`AuditLog` of `state/audit_log.rs` over the `audit_event` table. The database gives a new row the id
after the largest one in the table; once that is `i64::MAX` it picks an unused one, which is a
parameter, as is the reading of the wall clock at each write.
-/

namespace OxidHome.Audit

structure AuditRow where
  id : Int64
  intentMs : Int64
  finalizedMs : Option Int64
  tokenId : String
  actorKind : String
  method : String
  path : String
  status : Int64
  decision : String
  requiredScope : Option String
  executionOutcome : Option String
  domainError : Option String
  credentialFp : Option String
deriving DecidableEq

structure AuditEntry where
  id : UInt64
  intentMs : Int64
  finalizedMs : Option Int64
  tokenId : String
  actorKind : String
  method : String
  path : String
  status : UInt16
  decision : String
  requiredScope : Option String
  executionOutcome : Option String
  domainError : Option String
  credentialFp : Option String
deriving DecidableEq

structure AuditQuery where
  sinceMs : Option Int64
  untilMs : Option Int64
  tokenId : Option String
  decision : Option String
  path : Option String
  before : Option (Int64 × UInt64)
  excludeId : Option UInt64

def AuditQuery.default : AuditQuery := ⟨none, none, none, none, none, none, none⟩

inductive AuditLogError where
  | sql
  | notFound (id : UInt64)

structure AuditLog where
  rows : List AuditRow
  distinct : (rows.map (·.id)).Nodup
  positive : ∀ row ∈ rows, 0 < row.id

def isBefore (row : AuditRow) (before : Int64 × UInt64) : Bool :=
  row.intentMs < before.1 || (row.intentMs = before.1 && row.id < before.2.toInt64)

def AuditQuery.selects (filter : AuditQuery) (row : AuditRow) : Bool :=
  filter.sinceMs.all (· ≤ row.intentMs) && filter.untilMs.all (row.intentMs ≤ ·) &&
    filter.tokenId.all (row.tokenId = ·) && filter.decision.all (row.decision = ·) &&
    filter.path.all (row.path = ·) && filter.before.all (isBefore row) &&
    filter.excludeId.all (row.id ≠ ·.toInt64)

def newestFirst (a b : AuditRow) : Bool :=
  b.intentMs < a.intentMs || (a.intentMs = b.intentMs && b.id ≤ a.id)

def selected (filter : AuditQuery) (rows : List AuditRow) : List AuditRow :=
  (rows.filter filter.selects).mergeSort newestFirst

/-- `LIMIT`, where a negative number is no limit. -/
def limited (limit : Int64) (rows : List AuditRow) : List AuditRow :=
  if limit < 0 then rows else rows.take limit.toNatClampNeg

def decodeRow (row : AuditRow) : AuditEntry :=
  { row with id := row.id.toUInt64, status := row.status.toUInt64.toUInt16 }

namespace AuditLog

def query (log : AuditLog) (filter : AuditQuery) (limit : UInt64) : List AuditEntry :=
  (limited limit.toInt64 (selected filter log.rows)).map decodeRow

def newRowid (log : AuditLog) (pick : Int64) : Int64 :=
  match (log.rows.map (·.id.toInt)).max? with
  | none => 1
  | some largest => if largest < Int64.maxValue.toInt then Int64.ofInt (largest + 1) else pick

def insert (log : AuditLog) (row : AuditRow) : Except AuditLogError (UInt64 × AuditLog) :=
  if free : 0 < row.id ∧ ∀ other ∈ log.rows, other.id ≠ row.id then
    .ok (row.id.toUInt64, {
      rows := log.rows ++ [row]
      distinct := by
        rw [List.map_append, List.map_singleton]
        refine List.Nodup.append log.distinct (List.nodup_singleton _) ?_
        rw [List.disjoint_singleton, List.mem_map]
        intro ⟨other, mem, same⟩
        exact free.2 other mem same
      positive := by
        intro other mem
        rcases List.mem_append.mp mem with mem | mem
        · exact log.positive other mem
        · rw [List.mem_singleton.mp mem]
          exact free.1 })
  else .error .sql

def recordIntent (log : AuditLog) (now : Int64) (entry : AuditEntry) (pick : Int64) :
    Except AuditLogError (UInt64 × AuditLog) :=
  log.insert {
    id := log.newRowid pick
    intentMs := now
    finalizedMs := none
    tokenId := entry.tokenId
    actorKind := entry.actorKind
    method := entry.method
    path := entry.path
    status := 0
    decision := "pending"
    requiredScope := none
    executionOutcome := none
    domainError := none
    credentialFp := entry.credentialFp }

def recordCompleted (log : AuditLog) (now : Int64) (entry : AuditEntry) (pick : Int64) :
    Except AuditLogError (UInt64 × AuditLog) :=
  log.insert {
    id := log.newRowid pick
    intentMs := now
    finalizedMs := some now
    tokenId := entry.tokenId
    actorKind := entry.actorKind
    method := entry.method
    path := entry.path
    status := Int64.ofNat entry.status.toNat
    decision := entry.decision
    requiredScope := entry.requiredScope
    executionOutcome := entry.executionOutcome
    domainError := entry.domainError
    credentialFp := entry.credentialFp }

def finalizeRow (now : Int64) (status : UInt16) (decision : String)
    (requiredScope executionOutcome domainError : Option String) (row : AuditRow) : AuditRow :=
  { row with
    finalizedMs := some now
    status := Int64.ofNat status.toNat
    decision := decision
    requiredScope := requiredScope
    executionOutcome := executionOutcome
    domainError := domainError }

/-- An `UPDATE` of the rows that `chosen` picks, which keeps their ids. -/
def update (log : AuditLog) (chosen : AuditRow → Bool) (change : AuditRow → AuditRow)
    (same : ∀ row, (change row).id = row.id) : AuditLog where
  rows := log.rows.map fun row => if chosen row then change row else row
  distinct := by
    rw [List.map_map]
    convert log.distinct using 2
    funext row
    simp only [Function.comp_apply, apply_ite AuditRow.id, same, ite_self]
  positive := by
    intro row mem
    obtain ⟨old, stored, rfl⟩ := List.mem_map.mp mem
    simp only [apply_ite AuditRow.id, same, ite_self]
    exact log.positive old stored

def finalize (log : AuditLog) (now : Int64) (id : UInt64) (status : UInt16) (decision : String)
    (requiredScope executionOutcome domainError : Option String) : Except AuditLogError AuditLog :=
  if log.rows.any (·.id = id.toInt64) then
    .ok (log.update (·.id = id.toInt64)
      (finalizeRow now status decision requiredScope executionOutcome domainError) fun _ => rfl)
  else .error (.notFound id)

end AuditLog

inductive AuditWrite where
  | recordIntent (now : Int64) (entry : AuditEntry) (pick : Int64)
  | recordCompleted (now : Int64) (entry : AuditEntry) (pick : Int64)
  | finalize (now : Int64) (id : UInt64) (status : UInt16) (decision : String)
      (requiredScope executionOutcome domainError : Option String)

/-- A write that fails leaves the table as it was. -/
def AuditLog.write (log : AuditLog) : AuditWrite → AuditLog
  | .recordIntent now entry pick =>
      match log.recordIntent now entry pick with
      | .error _ => log
      | .ok recorded => recorded.2
  | .recordCompleted now entry pick =>
      match log.recordCompleted now entry pick with
      | .error _ => log
      | .ok recorded => recorded.2
  | .finalize now id status decision requiredScope executionOutcome domainError =>
      match log.finalize now id status decision requiredScope executionOutcome domainError with
      | .error _ => log
      | .ok updated => updated

def AuditRow.key (row : AuditRow) : ℤ ×ₗ ℤ := toLex (row.intentMs.toInt, row.id.toInt)

theorem newestFirst_iff {a b : AuditRow} : newestFirst a b = true ↔ b.key ≤ a.key := by
  simp only [newestFirst, AuditRow.key, Bool.or_eq_true, Bool.and_eq_true, decide_eq_true_eq,
    Prod.Lex.toLex_le_toLex, Int64.lt_iff_toInt_lt, Int64.le_iff_toInt_le, ← Int64.toInt_inj,
    eq_comm (a := b.intentMs.toInt)]

def cursorKey (before : Int64 × UInt64) : ℤ ×ₗ ℤ :=
  toLex (before.1.toInt, before.2.toInt64.toInt)

theorem isBefore_iff {row : AuditRow} {before : Int64 × UInt64} :
    isBefore row before = true ↔ row.key < cursorKey before := by
  simp only [isBefore, AuditRow.key, cursorKey, Bool.or_eq_true, Bool.and_eq_true,
    decide_eq_true_eq, Prod.Lex.toLex_lt_toLex, Int64.lt_iff_toInt_lt, ← Int64.toInt_inj]

@[simp] theorem cursorKey_row (row : AuditRow) :
    cursorKey (row.intentMs, row.id.toUInt64) = row.key := by
  simp only [cursorKey, AuditRow.key, Int64.toInt64_toUInt64]

theorem AuditRow.id_eq_of_key_eq {a b : AuditRow} (same : a.key = b.key) : a.id = b.id :=
  Int64.toInt_inj.mp (congrArg (fun key => (ofLex key).2) same)

theorem newestFirst_trans (a b c : AuditRow) (ab : newestFirst a b = true)
    (bc : newestFirst b c = true) : newestFirst a c = true :=
  newestFirst_iff.mpr ((newestFirst_iff.mp bc).trans (newestFirst_iff.mp ab))

theorem newestFirst_total (a b : AuditRow) : (newestFirst a b || newestFirst b a) = true := by
  rw [Bool.or_eq_true, newestFirst_iff, newestFirst_iff]
  exact le_total _ _

theorem mem_selected {filter : AuditQuery} {rows : List AuditRow} {row : AuditRow} :
    row ∈ selected filter rows ↔ row ∈ rows ∧ filter.selects row = true := by
  rw [selected, (List.mergeSort_perm _ _).mem_iff, List.mem_filter]

theorem selected_keys_descend (filter : AuditQuery) (log : AuditLog) :
    ((selected filter log.rows).map AuditRow.key).Pairwise (· > ·) := by
  have sorted : (selected filter log.rows).Pairwise fun a b => newestFirst a b = true :=
    List.pairwise_mergeSort newestFirst_trans newestFirst_total _
  have distinct : ((selected filter log.rows).map (·.id)).Nodup :=
    ((List.mergeSort_perm _ _).map _).nodup_iff.mpr
      (log.distinct.sublist (List.filter_sublist.map _))
  rw [List.Nodup, List.pairwise_map] at distinct
  refine List.pairwise_map.mpr ((sorted.and distinct).imp ?_)
  intro a b ⟨newer, apart⟩
  refine lt_of_le_of_ne (newestFirst_iff.mp newer) ?_
  intro same
  exact apart (AuditRow.id_eq_of_key_eq same).symm

theorem limited_isPrefix (limit : Int64) (rows : List AuditRow) : limited limit rows <+: rows := by
  unfold limited
  split
  · exact List.prefix_rfl
  · exact List.take_prefix _ _

theorem limited_eq_nil {limit : UInt64} {rows : List AuditRow} (pos : 1 ≤ limit)
    (none : limited limit.toInt64 rows = []) : rows = [] := by
  unfold limited at none
  split at none
  · exact none
  case isFalse nonneg =>
    rcases List.take_eq_nil_iff.mp none with zero | empty
    · have zero : limit.toInt64.toInt = 0 := by
        rw [Int64.lt_iff_toInt_lt] at nonneg
        rw [Int64.toNatClampNeg] at zero
        have : (0 : Int64).toInt = 0 := rfl
        omega
      have none : limit = 0 := by
        rw [← UInt64.toUInt64_toInt64 limit, Int64.toInt_inj.mp (zero.trans rfl : _ = (0 : Int64).toInt)]
        rfl
      rw [none] at pos
      exact absurd pos (by decide)
    · exact empty

end OxidHome.Audit

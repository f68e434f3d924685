import OxidHome.Library.Machine
import OxidHome.History.Payload

/-!
# The event log

`EventLog` of `state/event_log.rs` over the `event_log` table. A row is generic in its payload: it
is JSON in the table and a WIT payload in a `HistoricalEvent`. SQLite gives a new row the id after
the largest one in the table; once that is `i64::MAX` it picks an unused one, which is a parameter.
-/

namespace OxidHome.History
open Wit Library

structure Row (π : Type) where
  id : Nat
  receivedMs : Int
  payloadMs : Nat
  deviceId : Option String
  instanceId : String
  pluginId : String
  topic : String
  payload : π

abbrev EventRow := Row Json
abbrev HistoricalEvent := Row EventPayload

structure EventLog where
  rows : List EventRow
  distinct : (rows.map (·.id)).Nodup
  positive : ∀ row ∈ rows, 0 < row.id
  bounded : ∀ row ∈ rows, row.id ≤ I64_MAX

inductive EventLogError where
  | encode (topic : String)
  | sql

inductive TopicMatch where
  | exact
  | startsWith

structure EventQuery where
  sinceMs : Option Int
  untilMs : Option Int
  deviceId : Option String
  instanceId : Option String
  pluginId : Option String
  topic : Option (String × TopicMatch)
  afterId : Option Nat
  beforeId : Option Nat

def EventQuery.all : EventQuery := ⟨none, none, none, none, none, none, none, none⟩

/-- `length` and `substr` stop at the first NUL. -/
def sqlText (s : String) : List Char := s.toList.takeWhile (· ≠ '\x00')

def topicMatches (topic : String) : String × TopicMatch → Bool
  | (t, .exact) => topic = t
  | (t, .startsWith) => (sqlText topic).take (sqlText t).length = t.toList

def EventQuery.selects {π : Type} (filter : EventQuery) (row : Row π) : Bool :=
  filter.sinceMs.all (· ≤ row.receivedMs) && filter.untilMs.all (row.receivedMs ≤ ·) &&
    filter.deviceId.all (row.deviceId = some ·) && filter.instanceId.all (row.instanceId = ·) &&
    filter.pluginId.all (row.pluginId = ·) && filter.topic.all (topicMatches row.topic) &&
    filter.afterId.all (fun after => min after I64_MAX < row.id) &&
    filter.beforeId.all fun before => row.id < min before I64_MAX

def newestFirst {π : Type} (a b : Row π) : Bool :=
  b.receivedMs < a.receivedMs || (a.receivedMs = b.receivedMs && b.id ≤ a.id)

def selected {π : Type} (filter : EventQuery) (rows : List (Row π)) : List (Row π) :=
  (rows.filter filter.selects).mergeSort newestFirst

def pageSize (limit : Nat) : Nat := min limit I64_MAX

def decodeRow (serde : SerdeJson) (row : EventRow) : Except EventLogError HistoricalEvent :=
  match row.payload.toPayload serde with
  | none => .error (.encode row.topic)
  | some payload => .ok { row with payload := payload }

namespace EventLog

def empty : EventLog where
  rows := []
  distinct := .nil
  positive := by simp
  bounded := by simp

def query (serde : SerdeJson) (log : EventLog) (filter : EventQuery) (limit : Nat) :
    Except EventLogError (List HistoricalEvent) :=
  ((selected filter log.rows).take (pageSize limit)).mapM (decodeRow serde)

def newRowid (log : EventLog) (pick : Nat) : Nat :=
  let largest := (log.rows.map (·.id)).max?.getD 0
  if largest < I64_MAX then largest + 1 else pick

def topicOf (event : Event) : String :=
  match event.payload with
  | .stateChanged change => change.capability
  | .button _ => "button"
  | .inference _ => "inference"
  | .custom event => event.topic

def serializePayload (payload : EventPayload) : Json := .ofPayload payload

def recordPrepared (log : EventLog) (receivedMs : Int) (event : Event) (instanceId pluginId : String)
    (payloadBlob : Json) (pick : Nat) : Except EventLogError (Nat × EventLog) :=
  let id := log.newRowid pick
  if free : 0 < id ∧ id ≤ I64_MAX ∧ ∀ row ∈ log.rows, row.id ≠ id then
    .ok (id, {
      rows := log.rows ++ [⟨id, receivedMs, min event.timestamp.toNat I64_MAX, event.device,
        instanceId, pluginId, topicOf event, payloadBlob⟩]
      distinct := by
        rw [List.map_append, List.map_singleton]
        refine List.Nodup.append log.distinct (List.nodup_singleton _) ?_
        rw [List.disjoint_singleton, List.mem_map]
        intro ⟨row, mem, same⟩
        exact free.2.2 row mem same
      positive := by
        intro row mem
        rcases List.mem_append.mp mem with mem | mem
        · exact log.positive row mem
        · rw [List.mem_singleton.mp mem]
          exact free.1
      bounded := by
        intro row mem
        rcases List.mem_append.mp mem with mem | mem
        · exact log.bounded row mem
        · rw [List.mem_singleton.mp mem]
          exact free.2.1 })
  else .error .sql

def record (log : EventLog) (receivedMs : Int) (event : Event) (instanceId pluginId : String)
    (pick : Nat) : Except EventLogError (Nat × EventLog) :=
  log.recordPrepared receivedMs event instanceId pluginId (serializePayload event.payload) pick

def trimOlderThan (log : EventLog) (cutoffMs : Int) : Nat × EventLog :=
  (log.rows.countP (·.receivedMs < cutoffMs), {
    rows := log.rows.filter fun row => !(row.receivedMs < cutoffMs)
    distinct := log.distinct.sublist (List.filter_sublist.map _)
    positive := fun row mem => log.positive row (List.mem_of_mem_filter mem)
    bounded := fun row mem => log.bounded row (List.mem_of_mem_filter mem) })

end EventLog

/-- The log with every id that it ever gave, newest first, and the events that it still holds as they
were published, each with the number of events recorded before it. -/
structure LogRun where
  log : EventLog
  given : List Nat
  published : List (Nat × HistoricalEvent)

inductive LogAction where
  | record (receivedMs : Int) (event : Event) (instanceId pluginId : String) (pick : Nat)
  | trimOlderThan (cutoffMs : Int)

namespace LogRun

def new : LogRun := ⟨.empty, [], []⟩

def publishedAs (id : Nat) (receivedMs : Int) (event : Event) (instanceId pluginId : String) :
    HistoricalEvent :=
  ⟨id, receivedMs, min event.timestamp.toNat I64_MAX, event.device, instanceId, pluginId,
    EventLog.topicOf event, event.payload⟩

def step (s : LogRun) : LogAction → Option LogRun
  | .record receivedMs event instanceId pluginId pick =>
      match s.log.record receivedMs event instanceId pluginId pick with
      | .error _ => none
      | .ok (id, log) => some ⟨log, id :: s.given, s.published ++
          [(s.given.length, publishedAs id receivedMs event instanceId pluginId)]⟩
  | .trimOlderThan cutoffMs => some { s with
      log := (s.log.trimOlderThan cutoffMs).2
      published := s.published.filter fun entry => !(entry.2.receivedMs < cutoffMs) }

end LogRun

section
variable {π : Type}

theorem newestFirst_trans (a b c : Row π) (ab : newestFirst a b = true)
    (bc : newestFirst b c = true) : newestFirst a c = true := by
  simp only [newestFirst, Bool.or_eq_true, Bool.and_eq_true, decide_eq_true_eq] at *
  omega

theorem newestFirst_total (a b : Row π) : (newestFirst a b || newestFirst b a) = true := by
  simp only [newestFirst, Bool.or_eq_true, Bool.and_eq_true, decide_eq_true_eq]
  omega

theorem selected_perm (filter : EventQuery) (rows : List (Row π)) :
    (selected filter rows).Perm (rows.filter filter.selects) :=
  List.mergeSort_perm _ _

theorem mem_selected {filter : EventQuery} {rows : List (Row π)} {row : Row π} :
    row ∈ selected filter rows ↔ row ∈ rows ∧ filter.selects row = true := by
  rw [(selected_perm filter rows).mem_iff, List.mem_filter]

theorem selected_length_le (filter : EventQuery) (rows : List (Row π)) :
    (selected filter rows).length ≤ rows.length := by
  rw [(selected_perm filter rows).length_eq]
  exact List.length_filter_le _ _

end

theorem EventLog.length_rows_le (log : EventLog) : log.rows.length ≤ I64_MAX := by
  have range : log.rows.map (·.id) ⊆ List.range' 1 I64_MAX := by
    intro id mem
    obtain ⟨row, here, rfl⟩ := List.mem_map.mp mem
    have := log.positive row here
    have := log.bounded row here
    rw [List.mem_range'_1]
    omega
  have := (log.distinct.subperm range).length_le
  rwa [List.length_map, List.length_range'] at this

def Decodes (serde : SerdeJson) (row : EventRow) : Prop := (row.payload.toPayload serde).isSome

section
variable {serde : SerdeJson}

def shown (serde : SerdeJson) (row : EventRow) : HistoricalEvent :=
  { row with payload := (row.payload.toPayload serde).getD (.button .pressed) }

theorem decodeRow_shown {row : EventRow} (decodes : Decodes serde row) :
    decodeRow serde row = .ok (shown serde row) := by
  obtain ⟨payload, read⟩ := Option.isSome_iff_exists.mp decodes
  simp only [decodeRow, shown, read, Option.getD_some]

theorem decodes_of_ok {row : EventRow} {event : HistoricalEvent}
    (decoded : decodeRow serde row = .ok event) : Decodes serde row ∧ event = shown serde row := by
  unfold decodeRow at decoded
  cases read : row.payload.toPayload serde with
  | none => simp [read] at decoded
  | some payload =>
      simp only [read, Except.ok.injEq] at decoded
      exact ⟨by simp [Decodes, read], by simp [shown, read, ← decoded]⟩

theorem mapM_decodeRow {rows : List EventRow} {page : List HistoricalEvent} :
    rows.mapM (decodeRow serde) = .ok page ↔
      (∀ row ∈ rows, Decodes serde row) ∧ page = rows.map (shown serde) := by
  induction rows generalizing page with
  | nil => simp [pure, Except.pure, eq_comm]
  | cons row rows ih =>
      rw [List.mapM_cons, List.forall_mem_cons]
      constructor
      · intro decoded
        cases first : decodeRow serde row with
        | error err => simp [first, bind, Except.bind] at decoded
        | ok event =>
            cases rest : rows.mapM (decodeRow serde) with
            | error err => simp [first, rest, bind, Except.bind] at decoded
            | ok events =>
                obtain ⟨decodes, same⟩ := decodes_of_ok first
                obtain ⟨others, sameRest⟩ := ih.mp rest
                simp only [first, rest, bind, Except.bind, pure, Except.pure, Except.ok.injEq]
                  at decoded
                exact ⟨⟨decodes, others⟩, by rw [← decoded, same, sameRest, List.map_cons]⟩
      · intro ⟨⟨decodes, others⟩, same⟩
        rw [decodeRow_shown decodes, ih.mpr ⟨others, rfl⟩, same]
        rfl

theorem shown_ids (rows : List EventRow) :
    (rows.map (shown serde)).map (·.id) = rows.map (·.id) := by
  rw [List.map_map]
  rfl

end

end OxidHome.History

import OxidHome.History.EventLog

/-!
# Log rows

`SqliteLayer::on_event`, the insert of `writer_loop` and `LogStore::query` of `state/log_store.rs`.
A field reaches its visitor as the value of its `record_*` method, with the text of `{:?}` where it
has no method of its own. `fields_blob` is the JSON of the fields, `none` where it is empty.
-/

namespace OxidHome.History.Logs
open Wit Library

inductive Level where
  | TRACE
  | DEBUG
  | INFO
  | WARN
  | ERROR
deriving DecidableEq

inductive LogLevel where
  | trace
  | debug
  | info
  | warn
  | error
deriving DecidableEq

def LEVEL_TRACE : Int := 0
def LEVEL_DEBUG : Int := 1
def LEVEL_INFO : Int := 2
def LEVEL_WARN : Int := 3
def LEVEL_ERROR : Int := 4

def levelToInt : Level → Int
  | .TRACE => LEVEL_TRACE
  | .DEBUG => LEVEL_DEBUG
  | .INFO => LEVEL_INFO
  | .WARN => LEVEL_WARN
  | .ERROR => LEVEL_ERROR

def intToLevel (level : Int) : Option LogLevel :=
  if level = LEVEL_TRACE then some .trace
  else if level = LEVEL_DEBUG then some .debug
  else if level = LEVEL_INFO then some .info
  else if level = LEVEL_WARN then some .warn
  else if level = LEVEL_ERROR then some .error
  else none

def levelInt : LogLevel → Int
  | .trace => LEVEL_TRACE
  | .debug => LEVEL_DEBUG
  | .info => LEVEL_INFO
  | .warn => LEVEL_WARN
  | .error => LEVEL_ERROR

inductive LogValue where
  | bool (b : Bool)
  | int (i : Int64)
  | uint (u : UInt64)
  | float (f : F64)
  | string (s : String)
  | debug (s : String)
deriving DecidableEq

inductive FieldValue where
  | bool (b : Bool)
  | i64 (i : Int64)
  | u64 (u : UInt64)
  | f64 (f : F64)
  | str (s : String)
  | debug (formatted : String)

/-- A span's visitor has a method of its own for strings only. -/
inductive SpanValue where
  | str (s : String)
  | debug (formatted : String)

/-- Without the quotes that `{:?}` puts around a string. -/
def stripQuotes (formatted : String) : String :=
  if formatted.toList.head? = some '"' ∧ formatted.toList.getLast? = some '"' ∧
      2 ≤ formatted.utf8ByteSize then
    String.ofList formatted.toList.dropLast.tail
  else formatted

/-- `{}` of an `f64` that is not finite. -/
def displayNonFinite (f : F64) : String :=
  if f.bits <<< 12 ≠ 0 then "NaN" else if f.bits >>> 63 = 0 then "inf" else "-inf"

structure SpanFields where
  instanceId : Option String
  pluginId : Option String
  deviceId : Option String

def SpanFields.default : SpanFields := ⟨none, none, none⟩

def SpanFields.recordAttribution (fields : SpanFields) (name value : String) : SpanFields :=
  if name = "instance_id" then { fields with instanceId := some value }
  else if name = "plugin_id" then { fields with pluginId := some value }
  else if name = "device_id" then { fields with deviceId := some value }
  else fields

def SpanFields.visit (fields : SpanFields) (field : String × SpanValue) : SpanFields :=
  match field.2 with
  | .str s => fields.recordAttribution field.1 s
  | .debug formatted => fields.recordAttribution field.1 (stripQuotes formatted)

structure EventFields where
  message : Option String
  instanceId : Option String
  pluginId : Option String
  deviceId : Option String
  extra : List (String × LogValue)

def EventFields.default : EventFields := ⟨none, none, none, none, []⟩

def LogValue.text : LogValue → Option String
  | .string s | .debug s => some s
  | _ => none

def EventFields.record (fields : EventFields) (name : String) (value : LogValue) : EventFields :=
  let pushed := { fields with extra := fields.extra ++ [(name, value)] }
  match value.text with
  | none => pushed
  | some s =>
      if name = "message" then { fields with message := some s }
      else if name = "instance_id" then { fields with instanceId := some s }
      else if name = "plugin_id" then { fields with pluginId := some s }
      else if name = "device_id" then { fields with deviceId := some s }
      else pushed

def EventFields.visit (fields : EventFields) (field : String × FieldValue) : EventFields :=
  match field.2 with
  | .bool b => fields.record field.1 (.bool b)
  | .i64 i => fields.record field.1 (.int i)
  | .u64 u => fields.record field.1 (.uint u)
  | .f64 f => fields.record field.1 (if finite f then .float f else .debug (displayNonFinite f))
  | .str s => fields.record field.1 (.string s)
  | .debug formatted => fields.record field.1 (.debug (stripQuotes formatted))

namespace LogValue

def toJson : LogValue → Json
  | .bool b => .tagged "Bool" (.bool b)
  | .int i => .tagged "Int" (.int i.toInt)
  | .uint u => .tagged "UInt" (.int u.toNat)
  | .float f => .tagged "Float" (.ofF64 f)
  | .string s => .tagged "String" (.str s)
  | .debug s => .tagged "Debug" (.str s)

def ofJson (serde : SerdeJson) (json : Json) : Option LogValue :=
  match json.untag with
  | some ("Bool", .bool b) => some (.bool b)
  | some ("Int", .int i) =>
      if Int64.minValue.toInt ≤ i ∧ i ≤ Int64.maxValue.toInt then some (.int (Int64.ofInt i))
      else none
  | some ("UInt", .int i) =>
      if 0 ≤ i ∧ i < 2 ^ 64 then some (.uint (UInt64.ofNat i.toNat)) else none
  | some ("Float", content) => (content.toF64 serde).map .float
  | some ("String", .str s) => some (.string s)
  | some ("Debug", .str s) => some (.debug s)
  | _ => none

end LogValue

def pairToJson (pair : String × LogValue) : Json := .arr [.str pair.1, pair.2.toJson]

def pairOfJson (serde : SerdeJson) : Json → Option (String × LogValue)
  | .arr [.str name, value] => (LogValue.ofJson serde value).map fun v => (name, v)
  | _ => none

/-- `serde_json::to_vec`, which fails on no list of pairs. -/
def fieldsToVec (extra : List (String × LogValue)) : Option Json := some (.arr (extra.map pairToJson))

def fieldsFromSlice (serde : SerdeJson) : Json → Option (List (String × LogValue))
  | .arr items => items.mapM (pairOfJson serde)
  | _ => none

structure Span where
  name : String
  recorded : List (String × SpanValue)

def Span.fields (span : Span) : SpanFields := span.recorded.foldl SpanFields.visit .default

/-- An event with its span chain from the root, and the reading of the clock. -/
structure LogEvent where
  nowMs : Int
  level : Level
  target : String
  fields : List (String × FieldValue)
  spans : List Span

structure LogRow where
  id : Nat
  tsUnixMs : Int
  level : Int
  instanceId : Option String
  pluginId : Option String
  deviceId : Option String
  target : String
  spanPath : Option String
  message : String
  fieldsBlob : Option Json

def SpanFields.over (inner outer : SpanFields) : SpanFields where
  instanceId := inner.instanceId.or outer.instanceId
  pluginId := inner.pluginId.or outer.pluginId
  deviceId := inner.deviceId.or outer.deviceId

def LogEvent.collected (event : LogEvent) : EventFields :=
  event.fields.foldl EventFields.visit .default

/-- The row that `on_event` sends, under the id that the insert gives it. -/
def onEvent (event : LogEvent) (id : Nat) : LogRow :=
  let eventFields := event.collected
  let inherited := event.spans.foldl (fun outer span => span.fields.over outer) .default
  let own : SpanFields := ⟨eventFields.instanceId, eventFields.pluginId, eventFields.deviceId⟩
  let attribution := own.over inherited
  let spanNames := event.spans.map (·.name)
  { id := id
    tsUnixMs := event.nowMs
    level := levelToInt event.level
    instanceId := attribution.instanceId
    pluginId := attribution.pluginId
    deviceId := attribution.deviceId
    target := event.target
    spanPath := if spanNames.isEmpty then none else some ("/".intercalate spanNames)
    message := eventFields.message.getD ""
    fieldsBlob := if eventFields.extra.isEmpty then none else fieldsToVec eventFields.extra }

structure LogQuery where
  sinceMs : Option Int
  untilMs : Option Int
  minLevel : Option LogLevel
  instanceId : Option String
  pluginId : Option String
  deviceId : Option String
  target : Option String
  targetPrefix : Option String
  spanPathPrefix : Option String

/-- `substr(col, 1, length(?)) = ?` -/
def hasPrefix (column wanted : String) : Bool := topicMatches column (wanted, .startsWith)

def LogQuery.selects (filter : LogQuery) (row : LogRow) : Bool :=
  filter.sinceMs.all (· ≤ row.tsUnixMs) && filter.untilMs.all (row.tsUnixMs ≤ ·) &&
    filter.minLevel.all (levelInt · ≤ row.level) &&
    filter.instanceId.all (row.instanceId = some ·) &&
    filter.pluginId.all (row.pluginId = some ·) && filter.deviceId.all (row.deviceId = some ·) &&
    filter.target.all (row.target = ·) && filter.targetPrefix.all (hasPrefix row.target) &&
    filter.spanPathPrefix.all fun wanted => row.spanPath.any (hasPrefix · wanted)

def newestFirst (a b : LogRow) : Bool :=
  b.tsUnixMs < a.tsUnixMs || (a.tsUnixMs = b.tsUnixMs && b.id ≤ a.id)

structure HistoricalLogEvent where
  id : Nat
  tsUnixMs : Int
  level : LogLevel
  instanceId : Option String
  pluginId : Option String
  deviceId : Option String
  target : String
  spanPath : Option String
  message : String
  fields : List (String × LogValue)

inductive LogStoreError where
  | sql
  | decode (id : Nat)

def decodeRow (serde : SerdeJson) (row : LogRow) : Except LogStoreError HistoricalLogEvent :=
  match intToLevel row.level with
  | none => .error .sql
  | some level =>
    match row.fieldsBlob.elim (some []) (fieldsFromSlice serde) with
    | none => .error (.decode row.id)
    | some fields => .ok {
        id := row.id
        tsUnixMs := row.tsUnixMs
        level := level
        instanceId := row.instanceId
        pluginId := row.pluginId
        deviceId := row.deviceId
        target := row.target
        spanPath := row.spanPath
        message := row.message
        fields := fields }

def query (serde : SerdeJson) (rows : List LogRow) (filter : LogQuery) (limit : Nat) :
    Except LogStoreError (List HistoricalLogEvent) :=
  (((rows.filter filter.selects).mergeSort newestFirst).take (pageSize limit)).mapM (decodeRow serde)

/-- The rows of `log_event`, and the event that each was written for. -/
structure LogTable where
  rows : List LogRow
  observed : List (Nat × LogEvent)

inductive LogAction where
  | commit (event : LogEvent) (pick : Nat)
  | trimOlderThan (cutoffMs : Int)

def newRowid (rows : List LogRow) (pick : Nat) : Nat :=
  let largest := (rows.map (·.id)).max?.getD 0
  if largest < I64_MAX then largest + 1 else pick

namespace LogTable

def empty : LogTable := ⟨[], []⟩

/-- `none` where the insert fails. -/
def step (s : LogTable) : LogAction → Option LogTable
  | .commit event pick =>
      let id := newRowid s.rows pick
      if 0 < id ∧ id ≤ I64_MAX ∧ ∀ row ∈ s.rows, row.id ≠ id then
        some ⟨s.rows ++ [onEvent event id], s.observed ++ [(id, event)]⟩
      else none
  | .trimOlderThan cutoffMs => some {
      rows := s.rows.filter fun row => !(row.tsUnixMs < cutoffMs)
      observed := s.observed.filter fun entry => !(entry.2.nowMs < cutoffMs) }

end LogTable
end OxidHome.History.Logs

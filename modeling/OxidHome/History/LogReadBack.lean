import OxidHome.History.LogRows

/-!
# Log rows read back

Every row that the writer commits decodes, so no event can make a query fail. What a query returns
is the events as they were observed.
-/

namespace OxidHome.History.Logs
open Wit Library

def LogLevel.ofLevel : Level → LogLevel
  | .TRACE => .trace
  | .DEBUG => .debug
  | .INFO => .info
  | .WARN => .warn
  | .ERROR => .error

def innermost (slot : SpanFields → Option String) (spans : List Span) : Option String :=
  spans.reverse.findSome? fun span => slot span.fields

def LogEvent.spanPath (event : LogEvent) : Option String :=
  match event.spans with
  | [] => none
  | spans => some ("/".intercalate (spans.map (·.name)))

/-- The event as it was observed: its own attribution over that of its spans, and every pair that
its visitor collected. -/
def LogEvent.asObserved (event : LogEvent) (id : Nat) : HistoricalLogEvent where
  id := id
  tsUnixMs := event.nowMs
  level := .ofLevel event.level
  instanceId := event.collected.instanceId.or (innermost (·.instanceId) event.spans)
  pluginId := event.collected.pluginId.or (innermost (·.pluginId) event.spans)
  deviceId := event.collected.deviceId.or (innermost (·.deviceId) event.spans)
  target := event.target
  spanPath := event.spanPath
  message := event.collected.message.getD ""
  fields := event.collected.extra

def LogQuery.accepts (filter : LogQuery) (event : HistoricalLogEvent) : Bool :=
  filter.sinceMs.all (· ≤ event.tsUnixMs) && filter.untilMs.all (event.tsUnixMs ≤ ·) &&
    filter.minLevel.all (levelInt · ≤ levelInt event.level) &&
    filter.instanceId.all (event.instanceId = some ·) &&
    filter.pluginId.all (event.pluginId = some ·) &&
    filter.deviceId.all (event.deviceId = some ·) &&
    filter.target.all (event.target = ·) && filter.targetPrefix.all (hasPrefix event.target) &&
    filter.spanPathPrefix.all fun wanted => event.spanPath.any (hasPrefix · wanted)

def newerFirst (a b : HistoricalLogEvent) : Bool :=
  b.tsUnixMs < a.tsUnixMs || (a.tsUnixMs = b.tsUnixMs && b.id ≤ a.id)

def LogTable.history (s : LogTable) : List HistoricalLogEvent :=
  s.observed.map fun entry => entry.2.asObserved entry.1

section
variable {serde : SerdeJson}

def LogValue.Storable : LogValue → Prop
  | .float f => finite f = true
  | _ => True

theorem ofJson_toJson (exact : ∀ f, finite f = true → serde.reread f = some f) {value : LogValue}
    (storable : value.Storable) : LogValue.ofJson serde value.toJson = some value := by
  cases value with
  | bool b => simp [LogValue.toJson, LogValue.ofJson, untag_tagged]
  | int i =>
      have bounds : Int64.minValue.toInt ≤ i.toInt ∧ i.toInt ≤ Int64.maxValue.toInt :=
        ⟨i.minValue_le_toInt, i.toInt_le⟩
      simp only [LogValue.toJson, LogValue.ofJson, untag_tagged, if_pos bounds, Int64.ofInt_toInt]
  | uint u =>
      have bounds : 0 ≤ (u.toNat : Int) ∧ (u.toNat : Int) < 2 ^ 64 := by
        have := u.toNat_lt
        omega
      simp only [LogValue.toJson, LogValue.ofJson, untag_tagged, if_pos bounds, Int.toNat_natCast,
        UInt64.ofNat_toNat]
  | float f =>
      have read : (Json.ofF64 f).toF64 serde = some f := by
        rw [toF64_ofF64, rereadF64, if_pos (show finite f = true from storable), exact f storable]
      simp only [LogValue.toJson, LogValue.ofJson, untag_tagged, read, Option.map_some]
  | string s => simp [LogValue.toJson, LogValue.ofJson, untag_tagged]
  | debug s => simp [LogValue.toJson, LogValue.ofJson, untag_tagged]

theorem pairOfJson_pairToJson (exact : ∀ f, finite f = true → serde.reread f = some f)
    {pair : String × LogValue} (storable : pair.2.Storable) :
    pairOfJson serde (pairToJson pair) = some pair := by
  simp only [pairToJson, pairOfJson, ofJson_toJson exact storable, Option.map_some]

theorem fieldsFromSlice_fieldsToVec (exact : ∀ f, finite f = true → serde.reread f = some f)
    {extra : List (String × LogValue)} (storable : ∀ pair ∈ extra, pair.2.Storable) :
    (fieldsToVec extra).elim (some []) (fieldsFromSlice serde) = some extra := by
  simp only [fieldsToVec, Option.elim_some, fieldsFromSlice, List.mapM_map]
  exact mapM_eq_self.mpr fun pair mem => pairOfJson_pairToJson exact (storable pair mem)

end

/-- What a visitor pushes for a field. -/
def FieldValue.logged : FieldValue → LogValue
  | .bool b => .bool b
  | .i64 i => .int i
  | .u64 u => .uint u
  | .f64 f => if finite f then .float f else .debug (displayNonFinite f)
  | .str s => .string s
  | .debug formatted => .debug (stripQuotes formatted)

theorem visit_eq (fields : EventFields) (field : String × FieldValue) :
    fields.visit field = fields.record field.1 field.2.logged := by
  obtain ⟨name, value⟩ := field
  cases value <;> rfl

theorem logged_storable (value : FieldValue) : value.logged.Storable := by
  cases value with
  | bool | i64 | u64 | str | debug => trivial
  | f64 f =>
      rw [FieldValue.logged]
      split
      case isTrue finite => exact finite
      case isFalse => trivial

def ATTRIBUTES : List String := ["message", "instance_id", "plugin_id", "device_id"]

/-- The last text that a field of that name holds. -/
def lastText (name : String) (fields : List (String × FieldValue)) : Option String :=
  fields.reverse.findSome? fun field => if field.1 = name then field.2.logged.text else none

def isExtra (field : String × FieldValue) : Bool :=
  field.2.logged.text.isNone || field.1 ∉ ATTRIBUTES

theorem lastText_concat (name : String) (fields : List (String × FieldValue))
    (field : String × FieldValue) : lastText name (fields ++ [field]) =
      (if field.1 = name then field.2.logged.text else none).or (lastText name fields) := by
  rw [lastText, lastText, List.reverse_concat, List.findSome?_cons]
  cases (if field.1 = name then field.2.logged.text else none) <;> rfl

/-- A text under the name of an attribute is that attribute, the last one where there are several;
every other field is pushed, in its order. -/
theorem collected_eq (event : LogEvent) : event.collected =
    { message := lastText "message" event.fields
      instanceId := lastText "instance_id" event.fields
      pluginId := lastText "plugin_id" event.fields
      deviceId := lastText "device_id" event.fields
      extra := (event.fields.filter isExtra).map fun field => (field.1, field.2.logged) } := by
  rw [LogEvent.collected]
  induction event.fields using List.reverseRecOn with
  | nil => rfl
  | append_singleton fields field ih =>
      rw [List.foldl_concat, ih, visit_eq, EventFields.record]
      simp only [lastText_concat, List.filter_append, List.map_append]
      cases text : field.2.logged.text with
      | none => simp [isExtra, text]
      | some s =>
          by_cases own : field.1 ∈ ATTRIBUTES
          · simp only [ATTRIBUTES, List.mem_cons, List.not_mem_nil, or_false] at own
            rcases own with name | name | name | name <;>
              simp [isExtra, text, name, ATTRIBUTES]
          · have extra : isExtra field = true := by simp [isExtra, own]
            simp only [ATTRIBUTES, List.mem_cons, List.not_mem_nil, or_false, not_or] at own
            obtain ⟨message, instanceId, pluginId, deviceId⟩ := own
            simp [extra, message, instanceId, pluginId, deviceId]

theorem collected_storable (event : LogEvent) :
    ∀ pair ∈ event.collected.extra, pair.2.Storable := by
  rw [collected_eq]
  intro pair mem
  obtain ⟨field, -, rfl⟩ := List.mem_map.mp mem
  exact logged_storable field.2

def Inherits (slot : SpanFields → Option String) : Prop :=
  slot .default = none ∧ ∀ inner outer : SpanFields,
    slot (inner.over outer) = (slot inner).or (slot outer)

theorem inherited_innermost (slot : SpanFields → Option String) (inherits : Inherits slot)
    (spans : List Span) :
    slot (spans.foldl (fun outer span => span.fields.over outer) .default) =
      innermost slot spans := by
  induction spans using List.reverseRecOn with
  | nil => exact inherits.1
  | append_singleton spans span ih =>
      rw [List.foldl_concat, inherits.2, ih, innermost, innermost, List.reverse_concat,
        List.findSome?_cons]
      cases slot span.fields <;> rfl

theorem onEvent_spanPath (event : LogEvent) (id : Nat) :
    (onEvent event id).spanPath = event.spanPath := by
  unfold LogEvent.spanPath
  cases spans : event.spans <;> simp [onEvent, spans]

theorem intToLevel_levelToInt (level : Level) :
    intToLevel (levelToInt level) = some (.ofLevel level) := by
  cases level <;> rfl

theorem levelInt_ofLevel (level : Level) : levelInt (.ofLevel level) = levelToInt level := by
  cases level <;> rfl

theorem onEvent_attribution (event : LogEvent) (id : Nat) :
    (onEvent event id).instanceId = (event.asObserved id).instanceId ∧
    (onEvent event id).pluginId = (event.asObserved id).pluginId ∧
    (onEvent event id).deviceId = (event.asObserved id).deviceId := by
  refine ⟨?_, ?_, ?_⟩
  · exact congrArg event.collected.instanceId.or
      (inherited_innermost (·.instanceId) ⟨rfl, fun _ _ => rfl⟩ event.spans)
  · exact congrArg event.collected.pluginId.or
      (inherited_innermost (·.pluginId) ⟨rfl, fun _ _ => rfl⟩ event.spans)
  · exact congrArg event.collected.deviceId.or
      (inherited_innermost (·.deviceId) ⟨rfl, fun _ _ => rfl⟩ event.spans)

theorem decodeRow_onEvent {serde : SerdeJson}
    (exact : ∀ f, finite f = true → serde.reread f = some f) (event : LogEvent) (id : Nat) :
    decodeRow serde (onEvent event id) = .ok (event.asObserved id) := by
  have level : intToLevel (onEvent event id).level = some (.ofLevel event.level) :=
    intToLevel_levelToInt event.level
  have fields : (onEvent event id).fieldsBlob.elim (some []) (fieldsFromSlice serde) =
      some event.collected.extra := by
    simp only [onEvent]
    split
    case isTrue empty => rw [List.isEmpty_iff.mp empty]; rfl
    case isFalse => exact fieldsFromSlice_fieldsToVec exact (collected_storable event)
  obtain ⟨instanceId, pluginId, deviceId⟩ := onEvent_attribution event id
  simp only [decodeRow, level, fields, instanceId, pluginId, deviceId, onEvent_spanPath]
  rfl

theorem selects_onEvent (filter : LogQuery) (event : LogEvent) (id : Nat) :
    filter.selects (onEvent event id) = filter.accepts (event.asObserved id) := by
  obtain ⟨instanceId, pluginId, deviceId⟩ := onEvent_attribution event id
  have level : levelInt (event.asObserved id).level = (onEvent event id).level :=
    levelInt_ofLevel event.level
  simp only [LogQuery.selects, LogQuery.accepts, instanceId, pluginId, deviceId, level,
    onEvent_spanPath]
  rfl

def Written (s : LogTable) : Prop := s.rows = s.observed.map fun entry => onEvent entry.2 entry.1

theorem step_written {s t : LogTable} {a : LogAction} (written : Written s)
    (taken : s.step a = some t) : Written t := by
  cases a with
  | commit event pick =>
      simp only [LogTable.step, Option.ite_none_right_eq_some, Option.some.injEq] at taken
      obtain ⟨-, rfl⟩ := taken
      simp [Written, written.symm]
  | trimOlderThan cutoffMs =>
      cases taken
      unfold Written at written ⊢
      dsimp only
      rw [written, List.filter_map]
      rfl

theorem mapM_decodeRow {serde : SerdeJson}
    (exact : ∀ f, finite f = true → serde.reread f = some f) (entries : List (Nat × LogEvent)) :
    (entries.map fun entry => onEvent entry.2 entry.1).mapM (decodeRow serde) =
      .ok (entries.map fun entry => entry.2.asObserved entry.1) := by
  induction entries with
  | nil => rfl
  | cons entry entries ih =>
      rw [List.map_cons, List.mapM_cons, decodeRow_onEvent exact, ih]
      rfl

def LogTable.selected (s : LogTable) (filter : LogQuery) : List (Nat × LogEvent) :=
  (s.observed.filter fun entry => filter.accepts (entry.2.asObserved entry.1)).mergeSort
    fun a b => newerFirst (a.2.asObserved a.1) (b.2.asObserved b.1)

theorem history_selected (s : LogTable) (filter : LogQuery) :
    (s.history.filter filter.accepts).mergeSort newerFirst =
      (s.selected filter).map fun entry => entry.2.asObserved entry.1 := by
  have sorted (entries : List (Nat × LogEvent)) :
      (entries.mergeSort fun a b => newerFirst (a.2.asObserved a.1) (b.2.asObserved b.1)).map
        (fun entry => entry.2.asObserved entry.1) =
      (entries.map fun entry => entry.2.asObserved entry.1).mergeSort newerFirst :=
    List.map_mergeSort fun _ _ _ _ => rfl
  rw [LogTable.selected, LogTable.history, List.filter_map, sorted]
  rfl

theorem rows_selected {s : LogTable} (written : Written s) (filter : LogQuery) :
    (s.rows.filter filter.selects).mergeSort newestFirst =
      (s.selected filter).map fun entry => onEvent entry.2 entry.1 := by
  have same : (filter.selects ∘ fun entry : Nat × LogEvent => onEvent entry.2 entry.1) =
      fun entry => filter.accepts (entry.2.asObserved entry.1) := by
    funext entry
    exact selects_onEvent filter entry.2 entry.1
  have sorted (entries : List (Nat × LogEvent)) :
      (entries.mergeSort fun a b => newerFirst (a.2.asObserved a.1) (b.2.asObserved b.1)).map
        (fun entry => onEvent entry.2 entry.1) =
      (entries.map fun entry => onEvent entry.2 entry.1).mergeSort newestFirst :=
    List.map_mergeSort fun _ _ _ _ => rfl
  rw [LogTable.selected, written, List.filter_map, same, sorted]

theorem query_written {serde : SerdeJson}
    (exact : ∀ f, finite f = true → serde.reread f = some f) {s : LogTable} (written : Written s)
    (filter : LogQuery) (limit : Nat) :
    query serde s.rows filter limit =
      .ok (((s.history.filter filter.accepts).mergeSort newerFirst).take (pageSize limit)) := by
  rw [query, rows_selected written, history_selected, ← List.map_take, ← List.map_take,
    mapM_decodeRow exact]

def exactJson : SerdeJson := ⟨some, fun _ => ⟨0⟩⟩

def ratioEvent : LogEvent where
  nowMs := 10
  level := .WARN
  target := "oxidhome_core::runtime"
  fields := [("message", .debug "\"slow\""), ("ratio", .f64 ⟨0x7FF8000000000000⟩),
    ("bytes", .u64 0xFFFFFFFFFFFFFFFF), ("device_id", .str "d-1")]
  spans := [⟨"plugin.init", [("instance_id", .str "alpha")]⟩]

end OxidHome.History.Logs

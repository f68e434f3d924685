import OxidHome.Wit

/-!
# Stored event payloads

The JSON in which `event_log` and `kv` keep WIT values. The `Stored*` mirrors are the same trees as
the WIT types, so the derived encodings are written on these. A non-finite `f64` is written as
`null`, which does not read back as a number.
-/

namespace OxidHome.History
open Wit

inductive Json where
  | null
  | bool (b : Bool)
  | int (i : Int)
  | float (f : F64)
  | str (s : String)
  | arr (items : List Json)
  | obj (fields : List (String × Json))

/-- How `serde_json` reads numbers back: `reread` is the value of the text that it writes for a
finite `f64`, or nothing where that text is out of range. -/
structure SerdeJson where
  reread : F64 → Option F64
  ofInt : Int → F64

def finite (f : F64) : Bool := (f.bits >>> 52) &&& 0x7FF ≠ 0x7FF

namespace Json

def ofF64 (f : F64) : Json := if finite f then .float f else .null

def tagged (tag : String) (content : Json) : Json := .obj [("t", .str tag), ("v", content)]

def ofValue : Value → Json
  | .boolVal b => tagged "Bool" (.bool b)
  | .intVal i => tagged "Int" (.int i.toInt)
  | .floatVal f => tagged "Float" (ofF64 f)
  | .stringVal s => tagged "String" (.str s)
  | .bytesVal b => tagged "Bytes" (.arr (b.map fun byte => .int byte.toNat))
  | .jsonVal s => tagged "Json" (.str s)

def ofKeyValue (kv : KeyValue) : Json := .obj [("key", .str kv.key), ("value", ofValue kv.value)]

def ofButtonEvent : ButtonEvent → Json
  | .pressed => .str "Pressed"
  | .released => .str "Released"
  | .singlePress => .str "SinglePress"
  | .doublePress => .str "DoublePress"
  | .longPress => .str "LongPress"
  | .rotated delta => .obj [("Rotated", ofF64 delta)]

def ofTimestamp : Option UInt64 → Json
  | none => .null
  | some ms => .int ms.toNat

def ofPayload : EventPayload → Json
  | .stateChanged change => tagged "StateChanged" (.obj
      [("capability", .str change.capability), ("fields", .arr (change.fields.map ofKeyValue))])
  | .button event => tagged "Button" (ofButtonEvent event)
  | .inference result => tagged "Inference" (.obj [("model", .str result.model),
      ("payload", .str result.payload), ("frame_timestamp", ofTimestamp result.frameTimestamp)])
  | .custom event => tagged "Custom" (.obj
      [("topic", .str event.topic), ("payload", .str event.payload)])

/-- A derived struct refuses a missing field and a duplicate one, and ignores unknown ones. -/
def field (fields : List (String × Json)) (name : String) : Option Json :=
  match fields.filter fun f => f.1 = name with
  | [(_, content)] => some content
  | _ => none

def toStr : Json → Option String
  | .str s => some s
  | _ => none

def toF64 (serde : SerdeJson) : Json → Option F64
  | .float f => serde.reread f
  | .int i => some (serde.ofInt i)
  | _ => none

def toByte : Json → Option UInt8
  | .int i => if 0 ≤ i ∧ i < 256 then some (UInt8.ofNat i.toNat) else none
  | _ => none

def untag : Json → Option (String × Json)
  | .obj fields => do
      let tag ← (field fields "t").bind toStr
      let content ← field fields "v"
      some (tag, content)
  | _ => none

def toValue (serde : SerdeJson) (json : Json) : Option Value :=
  match untag json with
  | some ("Bool", .bool b) => some (.boolVal b)
  | some ("Int", .int i) =>
      if Int64.minValue.toInt ≤ i ∧ i ≤ Int64.maxValue.toInt then some (.intVal (Int64.ofInt i))
      else none
  | some ("Float", content) => (content.toF64 serde).map .floatVal
  | some ("String", .str s) => some (.stringVal s)
  | some ("Bytes", .arr items) => (items.mapM toByte).map .bytesVal
  | some ("Json", .str s) => some (.jsonVal s)
  | _ => none

def toKeyValue (serde : SerdeJson) : Json → Option KeyValue
  | .obj fields => do
      let key ← (field fields "key").bind toStr
      let value ← (field fields "value").bind (toValue serde)
      some ⟨key, value⟩
  | _ => none

def toButtonEvent (serde : SerdeJson) : Json → Option ButtonEvent
  | .str "Pressed" => some .pressed
  | .str "Released" => some .released
  | .str "SinglePress" => some .singlePress
  | .str "DoublePress" => some .doublePress
  | .str "LongPress" => some .longPress
  | .obj [("Rotated", content)] => (content.toF64 serde).map .rotated
  | _ => none

def toTimestamp : Json → Option (Option UInt64)
  | .null => some none
  | .int i => if 0 ≤ i ∧ i < 2 ^ 64 then some (some (UInt64.ofNat i.toNat)) else none
  | _ => none

def toStateChange (serde : SerdeJson) : Json → Option StateChange
  | .obj fields => do
      let capability ← (field fields "capability").bind toStr
      match ← field fields "fields" with
      | .arr items => (items.mapM (toKeyValue serde)).map (⟨capability, ·⟩)
      | _ => none
  | _ => none

/-- An absent `frame_timestamp` reads as `None`. -/
def toInferenceResult : Json → Option InferenceResult
  | .obj fields => do
      let model ← (field fields "model").bind toStr
      let payload ← (field fields "payload").bind toStr
      let frameTimestamp ←
        if fields.any fun f => f.1 = "frame_timestamp" then
          (field fields "frame_timestamp").bind toTimestamp
        else some none
      some ⟨model, payload, frameTimestamp⟩
  | _ => none

def toCustomEvent : Json → Option CustomEvent
  | .obj fields => do
      let topic ← (field fields "topic").bind toStr
      let payload ← (field fields "payload").bind toStr
      some ⟨topic, payload⟩
  | _ => none

def toPayload (serde : SerdeJson) (json : Json) : Option EventPayload :=
  match untag json with
  | some ("StateChanged", content) => (content.toStateChange serde).map .stateChanged
  | some ("Button", content) => (content.toButtonEvent serde).map .button
  | some ("Inference", content) => content.toInferenceResult.map .inference
  | some ("Custom", content) => content.toCustomEvent.map .custom
  | _ => none

end Json

def rereadF64 (serde : SerdeJson) (f : F64) : Option F64 :=
  if finite f then serde.reread f else none

def rereadValue (serde : SerdeJson) : Value → Option Value
  | .floatVal f => (rereadF64 serde f).map .floatVal
  | value => some value

def rereadKeyValue (serde : SerdeJson) (kv : KeyValue) : Option KeyValue :=
  (rereadValue serde kv.value).map (⟨kv.key, ·⟩)

def rereadPayload (serde : SerdeJson) : EventPayload → Option EventPayload
  | .stateChanged change =>
      (change.fields.mapM (rereadKeyValue serde)).map fun fields =>
        .stateChanged ⟨change.capability, fields⟩
  | .button (.rotated delta) => (rereadF64 serde delta).map fun d => .button (.rotated d)
  | payload => some payload

section
variable (serde : SerdeJson)

theorem toF64_ofF64 (f : F64) : (Json.ofF64 f).toF64 serde = rereadF64 serde f := by
  unfold Json.ofF64 rereadF64
  split <;> rfl

theorem untag_tagged (tag : String) (content : Json) :
    (Json.tagged tag content).untag = some (tag, content) := by
  simp [Json.tagged, Json.untag, Json.field, Json.toStr]

theorem toByte_toNat (byte : UInt8) : Json.toByte (.int byte.toNat) = some byte := by
  have small := byte.toNat_lt
  simp only [Json.toByte, Int.toNat_natCast, UInt8.ofNat_toNat]
  rw [if_pos]
  omega

theorem mapM_eq_self {α : Type} {f : α → Option α} {xs : List α} :
    xs.mapM f = some xs ↔ ∀ a ∈ xs, f a = some a := by
  induction xs with
  | nil => simp
  | cons a xs ih =>
      rw [List.forall_mem_cons, ← ih]
      cases first : f a with
      | none => simp [List.mapM_cons, first]
      | some b => cases rest : xs.mapM f <;> simp [List.mapM_cons, first, rest]

theorem toValue_ofValue (value : Value) :
    (Json.ofValue value).toValue serde = rereadValue serde value := by
  cases value with
  | boolVal b => simp [Json.ofValue, Json.toValue, untag_tagged, rereadValue]
  | intVal i =>
      have bounds : Int64.minValue.toInt ≤ i.toInt ∧ i.toInt ≤ Int64.maxValue.toInt :=
        ⟨i.minValue_le_toInt, i.toInt_le⟩
      simp only [Json.ofValue, Json.toValue, untag_tagged, if_pos bounds, Int64.ofInt_toInt,
        rereadValue]
  | floatVal f => simp [Json.ofValue, Json.toValue, untag_tagged, rereadValue, toF64_ofF64]
  | stringVal s => simp [Json.ofValue, Json.toValue, untag_tagged, rereadValue]
  | bytesVal b =>
      have bytes : (b.mapM fun byte => Json.toByte (.int byte.toNat)) = some b :=
        mapM_eq_self.mpr fun byte _ => toByte_toNat byte
      simp [Json.ofValue, Json.toValue, untag_tagged, rereadValue, Function.comp_def, bytes]
  | jsonVal s => simp [Json.ofValue, Json.toValue, untag_tagged, rereadValue]

theorem toKeyValue_ofKeyValue (kv : KeyValue) :
    (Json.ofKeyValue kv).toKeyValue serde = rereadKeyValue serde kv := by
  cases read : rereadValue serde kv.value <;>
    simp [Json.ofKeyValue, Json.toKeyValue, Json.field, Json.toStr, toValue_ofValue,
      rereadKeyValue, read]

theorem toButtonEvent_ofButtonEvent (event : ButtonEvent) :
    ((Json.ofButtonEvent event).toButtonEvent serde).map .button =
      rereadPayload serde (.button event) := by
  cases event <;> simp [Json.ofButtonEvent, Json.toButtonEvent, rereadPayload, toF64_ofF64,
    Option.map_map, Function.comp_def]

theorem toTimestamp_ofTimestamp (ms : Option UInt64) :
    (Json.ofTimestamp ms).toTimestamp = some ms := by
  cases ms with
  | none => rfl
  | some ms =>
      have bounds : 0 ≤ (ms.toNat : Int) ∧ (ms.toNat : Int) < 2 ^ 64 := by
        have := ms.toNat_lt
        omega
      simp only [Json.ofTimestamp, Json.toTimestamp, if_pos bounds, Int.toNat_natCast,
        UInt64.ofNat_toNat]

theorem toPayload_ofPayload (payload : EventPayload) :
    (Json.ofPayload payload).toPayload serde = rereadPayload serde payload := by
  cases payload with
  | stateChanged change =>
      have fields : ((change.fields.map Json.ofKeyValue).mapM (Json.toKeyValue serde)) =
          change.fields.mapM (rereadKeyValue serde) := by
        simp only [List.mapM_map, Function.comp_def, toKeyValue_ofKeyValue]
      simp only [Json.ofPayload, Json.toPayload, untag_tagged, rereadPayload]
      cases read : change.fields.mapM (rereadKeyValue serde) <;>
        simp [Json.toStateChange, Json.field, Json.toStr, Function.comp_def, toKeyValue_ofKeyValue,
          read]
  | button event =>
      simp only [Json.ofPayload, Json.toPayload, untag_tagged]
      exact toButtonEvent_ofButtonEvent serde event
  | inference result =>
      simp [Json.ofPayload, Json.toPayload, untag_tagged, Json.toInferenceResult, Json.field,
        Json.toStr, toTimestamp_ofTimestamp, rereadPayload]
  | custom event =>
      simp [Json.ofPayload, Json.toPayload, untag_tagged, Json.toCustomEvent, Json.field,
        Json.toStr, rereadPayload]

def valueFloats : Value → List F64
  | .floatVal f => [f]
  | _ => []

def payloadFloats : EventPayload → List F64
  | .stateChanged change => change.fields.flatMap fun kv => valueFloats kv.value
  | .button (.rotated delta) => [delta]
  | _ => []

theorem rereadValue_eq_self {value : Value} :
    rereadValue serde value = some value ↔ ∀ f ∈ valueFloats value, rereadF64 serde f = some f := by
  cases value <;> simp [rereadValue, valueFloats]

theorem rereadKeyValue_eq_self {kv : KeyValue} :
    rereadKeyValue serde kv = some kv ↔
      ∀ f ∈ valueFloats kv.value, rereadF64 serde f = some f := by
  obtain ⟨key, value⟩ := kv
  rw [← rereadValue_eq_self]
  cases read : rereadValue serde value <;> simp [rereadKeyValue, read]

theorem rereadPayload_eq_self {payload : EventPayload} :
    rereadPayload serde payload = some payload ↔
      ∀ f ∈ payloadFloats payload, rereadF64 serde f = some f := by
  cases payload with
  | stateChanged change =>
      have fields : change.fields.mapM (rereadKeyValue serde) = some change.fields ↔
          ∀ kv ∈ change.fields, rereadKeyValue serde kv = some kv := mapM_eq_self
      simp only [rereadKeyValue_eq_self] at fields
      have floats : (∀ kv ∈ change.fields, ∀ f ∈ valueFloats kv.value, rereadF64 serde f = some f) ↔
          ∀ f ∈ payloadFloats (.stateChanged change), rereadF64 serde f = some f := by
        simp only [payloadFloats, List.mem_flatMap]
        grind
      rw [← floats, ← fields]
      cases read : change.fields.mapM (rereadKeyValue serde) with
      | none => simp [rereadPayload, read]
      | some kept =>
          obtain ⟨capability, fields⟩ := change
          simp only [rereadPayload, read, Option.map_some, Option.some.injEq,
            EventPayload.stateChanged.injEq, StateChange.mk.injEq, true_and]
  | button event => cases event <;> simp [rereadPayload, payloadFloats]
  | inference result => simp [rereadPayload, payloadFloats]
  | custom event => simp [rereadPayload, payloadFloats]

end

end OxidHome.History

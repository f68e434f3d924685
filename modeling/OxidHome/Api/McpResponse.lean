import OxidHome.Api.McpReasons
import OxidHome.Api.ResourceUri
import OxidHome.Engine.Registry
import OxidHome.Projection.AdmittedWrites
import OxidHome.Storage.Blobs

/-!
# Responses of the MCP mount

What `resources/read` and `tools/call` come to in `api/mcp/resources.rs` and `api/mcp/tools.rs`, and
what is sent of it. A read or a call is given here by the last thing that it found; the objects of
`serde_json` are in the order of their keys.
-/

namespace OxidHome.Api.Mcp
open Wit Library History Projection

def MAX_RESPONSE_BODY_BYTES : Nat := 8 * 1024 * 1024
def MAX_TEXT_BODY_BYTES : Nat := 3670016
def MAX_BLOB_BODY_BYTES : Nat := 5767168
def BLOB_ENVELOPE_OVERHEAD_BYTES : Nat := 1024
def TOOL_ENVELOPE_HEADROOM_BYTES : Nat := 256 * 1024
def MAX_TOOL_BODY_BYTES : Nat :=
  (MAX_RESPONSE_BODY_BYTES - MAX_REQUEST_BODY_BYTES - TOOL_ENVELOPE_HEADROOM_BYTES) / 3
def MAX_PLUGIN_ERROR_MESSAGE_BYTES : Nat := 4 * 1024

theorem peak_le : 3 * MAX_TOOL_BODY_BYTES + MAX_REQUEST_BODY_BYTES + TOOL_ENVELOPE_HEADROOM_BYTES ≤
    MAX_RESPONSE_BODY_BYTES := by decide

def SCOPE_DENIED_CODE : Int := -32001
def RESOURCE_TOO_LARGE_CODE : Int := -32003
def RESOURCE_BUSY_CODE : Int := -32004
def RESOURCE_NOT_FOUND : Int := -32002
def METHOD_NOT_FOUND : Int := -32601
def INVALID_PARAMS : Int := -32602
def INTERNAL_ERROR : Int := -32603

/-- A tree that a `Value` holds, with numbers that are a `u64`, an `i64` or a finite `f64`. -/
inductive Held : Json → Prop
  | null : Held .null
  | bool (b : Bool) : Held (.bool b)
  | int {i : Int} (low : -2 ^ 63 ≤ i) (high : i < 2 ^ 64) : Held (.int i)
  | float {f : F64} (finite : finite f = true) : Held (.float f)
  | str (s : String) : Held (.str s)
  | arr {items : List Json} (held : ∀ item ∈ items, Held item) : Held (.arr items)
  | obj {fields : List (String × Json)} (held : ∀ field ∈ fields, Held field.2) : Held (.obj fields)

/-- `serde_json` with `float_roundtrip`, and the `STANDARD` engine of `base64`. -/
structure TextCrates extends SerdeText where
  rereads : ∀ value v, Held value → fromSlice (render toSerdeText value) = some v →
    (render toSerdeText v).length ≤ (render toSerdeText value).length
  base64 : List UInt8 → List UInt8
  alphabet : ∀ bytes, ∀ b ∈ base64 bytes, (Char.ofNat b.toNat).isAlphanum ∨ b ∈ utf8 "+/="

instance : Coe TextCrates SerdeText := ⟨TextCrates.toSerdeText⟩

/-- What `rmcp` is given to answer with: contents of a resource, a tool's result or an error. -/
inductive Response where
  | contents (uri : String) (body : List UInt8) (mimeType : Option String)
  | result (text : List UInt8) (structuredContent : Option Json) (isError : Bool)
      (metadata : Option Json)
  | error (code : Int) (message : String) (data : Option Json)

def Response.shipped (crates : TextCrates) : Response → List UInt8
  | .contents uri body mimeType => quote uri ++ quoted body ++ (mimeType.map quote).getD []
  | .result text structuredContent _ metadata =>
      quoted text ++ (structuredContent.map (render crates)).getD [] ++
        (metadata.map (render crates)).getD []
  | .error code message data =>
      utf8 (String.ofList (integer code)) ++ quote message ++ (data.map (render crates)).getD []

/-- `rmcp` under `axum`: the frames of a response hold its texts and an envelope around them, the
names of the members, the JSON-RPC object and the SSE framing. -/
structure Rmcp (crates : TextCrates) where
  frames : RequestId → Response → List (List UInt8)
  envelope : Response → Nat
  carries : ∀ id response, ((frames id response).map List.length).sum =
    id.text.length + (response.shipped crates).length + envelope response
  light : ∀ response, envelope response ≤ BLOB_ENVELOPE_OVERHEAD_BYTES

structure CappedWriter where
  buf : List UInt8
  cap : Nat

namespace CappedWriter

def withCap (cap : Nat) : CappedWriter := ⟨[], cap⟩

def write (writer : CappedWriter) (chunk : List UInt8) : Option CappedWriter :=
  if writer.cap < writer.buf.length + chunk.length then none
  else some { writer with buf := writer.buf ++ chunk }

def writeAll (writer : CappedWriter) : List (List UInt8) → Option CappedWriter
  | [] => some writer
  | chunk :: rest => (writer.write chunk).bind (writeAll · rest)

theorem writeAll_eq (writer : CappedWriter) (chunks : List (List UInt8))
    (within : writer.buf.length ≤ writer.cap) :
    writer.writeAll chunks = if writer.cap < writer.buf.length + chunks.flatten.length then none
      else some { writer with buf := writer.buf ++ chunks.flatten } := by
  induction chunks generalizing writer with
  | nil =>
      rw [writeAll, if_neg (by simpa using within)]
      simp
  | cons chunk rest ih =>
      rw [writeAll, write]
      by_cases past : writer.cap < writer.buf.length + chunk.length
      · rw [if_pos past, if_pos (by simp only [List.flatten_cons, List.length_append]; omega)]
        rfl
      · rw [if_neg past, Option.bind_some, ih]
        · simp only [List.length_append, List.flatten_cons, List.append_assoc, Nat.add_assoc]
        · simpa using past

end CappedWriter

variable (crates : TextCrates)

/-- `serde_json::to_writer`, which writes piece by piece. -/
def toWriter (cap : Nat) (value : Json) : Option (List UInt8) :=
  ((CappedWriter.withCap cap).writeAll ((render crates value).map fun b => [b])).map (·.buf)

theorem toWriter_eq (cap : Nat) (value : Json) :
    toWriter crates cap value =
      if cap < (render crates value).length then none else some (render crates value) := by
  have whole : ((render crates value).map fun b => [b]).flatten = render crates value := by
    rw [← List.flatMap_def, List.flatMap_singleton']
  rw [toWriter, CappedWriter.writeAll_eq _ _ (Nat.zero_le _), whole]
  simp only [CappedWriter.withCap, List.length_nil, Nat.zero_add, List.nil_append]
  split_ifs <;> rfl

def TOO_LARGE : List Hole := [
  .lit "MCP `", .arg, .lit "` body exceeds the per-response cap (", .num,
  .lit " bytes). Narrow the query (smaller `limit`, tighter filter) and retry."]

def tooLarge (what : String) (cap : Nat) : String := fill TOO_LARGE [.ofNat cap] [what]

namespace ReadOutcome

def intoResult (uri : String) : ReadOutcome → Response
  | .okText body mime => .contents uri body (some mime)
  | .okBlob blobB64 mime => .contents uri blobB64 mime
  | .notFound reason => .error RESOURCE_NOT_FOUND reason none
  | .invalidParams reason => .error INVALID_PARAMS reason none
  | .tooLarge reason => .error RESOURCE_TOO_LARGE_CODE reason none
  | .busy reason => .error RESOURCE_BUSY_CODE reason none
  | .denied _ => .error SCOPE_DENIED_CODE "scope denied for MCP resource" none
  | .internal reason => .error INTERNAL_ERROR reason none

def status : ReadOutcome → Nat
  | .okText .. | .okBlob .. => 200
  | .notFound _ => 404
  | .invalidParams _ => 400
  | .tooLarge _ => 413
  | .busy _ => 503
  | .denied _ => 403
  | .internal _ => 500

def decision : ReadOutcome → String
  | .okText .. | .okBlob .. => "allow"
  | .notFound _ | .denied _ | .invalidParams _ | .tooLarge _ => "deny"
  | .internal _ | .busy _ => "error"

end ReadOutcome

def ENCODED : List String :=
  ["devices list", "device detail", "plugins list", "plugin detail", "events", "logs", "status"]

def encode (value : Json) (what : String) : ReadOutcome :=
  match toWriter crates MAX_TEXT_BODY_BYTES value with
  | some body => .okText body "application/json"
  | none => .tooLarge (tooLarge what MAX_TEXT_BODY_BYTES)

def BLOB_TOO_LARGE : List Hole := [
  .lit "blob response (", .num, .lit " B projected: ", .num, .lit " b64 + ", .num,
  .lit " mime + framing) exceeds the per-response cap (5767168 B)"]

/-- The end of `blob_read`, with what `read_with_info` returned. -/
def blobRead (bytes : List UInt8) (mime : Option String) : ReadOutcome :=
  let blobB64 := crates.base64 bytes
  let mimeLen := (mime.map (·.utf8ByteSize)).getD 0
  let projected := blobB64.length + mimeLen + BLOB_ENVELOPE_OVERHEAD_BYTES
  if MAX_BLOB_BODY_BYTES < projected then
    .tooLarge (fill BLOB_TOO_LARGE
      [.ofNat projected, .ofNat blobB64.length, .ofNat mimeLen] [])
  else .okBlob blobB64 mime

inductive Refusal where
  | notFound
  | invalidParams
  | tooLarge
  | busy
  | internal

def Refusal.read (reason : String) : Refusal → ReadOutcome
  | .notFound => .notFound reason
  | .invalidParams => .invalidParams reason
  | .tooLarge => .tooLarge reason
  | .busy => .busy reason
  | .internal => .internal reason

/-- `read_with_info` has no mime above the cap. -/
inductive ReadPath (request : Request) where
  | text (value : Json) (what : String) (known : what ∈ ENCODED)
  | blob (bytes : List UInt8) (mime : Option String)
      (capped : ∀ m ∈ mime, m.utf8ByteSize ≤ Storage.MAX_BLOB_MIME_BYTES)
  | refused (refusal : Refusal) (reason : Reason request)
  | denied (required : String)

def ReadPath.outcome {request : Request} : ReadPath request → ReadOutcome
  | .text value what _ => encode crates value what
  | .blob bytes mime _ => blobRead crates bytes mime
  | .refused refusal reason => refusal.read reason.text
  | .denied required => .denied required

inductive EncodedBody where
  | value (v : Json)
  | tooLarge (reason : String)
  | serializeFailed (reason : String)

def encodeBodyCapped (value : Json) (what : String) (cap : Nat) : EncodedBody :=
  match toWriter crates cap value with
  | some bytes =>
      match crates.fromSlice bytes with
      | some v => .value v
      | none => .serializeFailed ("failed to re-parse " ++ what)
  | none => .tooLarge (tooLarge what cap)

inductive ToolOutcome where
  | ok (value : Json) (pluginReached : Bool)
  | execErr (message : String) (structured : Option Json) (domainKind : Option String)
  | invalidParams (reason : String)
  | tooLarge (reason : String)
  | busy (reason : String)
  | unknownTool (reason : String)
  | denied (required : String)
  | internal (reason : String)

namespace ToolOutcome

def intoResult : ToolOutcome → Response
  | .ok value _ => .result (render crates value) (some value) false none
  | .execErr _ (some structured) _ => .result (render crates structured) (some structured) true none
  | .execErr message none _ => .result (utf8 message) none true none
  | .invalidParams reason => .error INVALID_PARAMS reason none
  | .tooLarge reason => .error RESOURCE_TOO_LARGE_CODE reason none
  | .busy reason => .error RESOURCE_BUSY_CODE reason none
  | .unknownTool reason => .error METHOD_NOT_FOUND reason none
  | .denied _ => .error SCOPE_DENIED_CODE "scope denied for MCP tool" none
  | .internal reason => .error INTERNAL_ERROR reason none

def status : ToolOutcome → Nat
  | .ok .. | .execErr .. => 200
  | .unknownTool _ => 404
  | .invalidParams _ => 400
  | .tooLarge _ => 413
  | .busy _ => 503
  | .denied _ => 403
  | .internal _ => 500

def decision : ToolOutcome → String
  | .ok .. | .execErr .. => "allow"
  | .unknownTool _ | .denied _ | .invalidParams _ | .tooLarge _ => "deny"
  | .internal _ | .busy _ => "error"

end ToolOutcome

def truncate : Nat → List Char → List Char
  | _, [] => []
  | cap, c :: rest => if c.utf8Size ≤ cap then c :: truncate (cap - c.utf8Size) rest else []

def capMessage (m : String) : String :=
  if MAX_PLUGIN_ERROR_MESSAGE_BYTES < m.utf8ByteSize then
    String.ofList (truncate MAX_PLUGIN_ERROR_MESSAGE_BYTES m.toList) ++ "… [truncated by host]"
  else m

def truncatePluginError : CommandResult → CommandResult
  | .err (.notFound m) => .err (.notFound (capMessage m))
  | .err (.invalidArgument m) => .err (.invalidArgument (capMessage m))
  | .err (.permissionDenied m) => .err (.permissionDenied (capMessage m))
  | .err (.unavailable m) => .err (.unavailable (capMessage m))
  | .err (.internal m) => .err (.internal (capMessage m))
  | result => result

def witErrorKind : Error → String
  | .notFound _ => "not_found"
  | .invalidArgument _ => "invalid_argument"
  | .permissionDenied _ => "permission_denied"
  | .unavailable _ => "unavailable"
  | .internal _ => "internal"

def messageOf : Error → String
  | .notFound m | .invalidArgument m | .permissionDenied m | .unavailable m | .internal m => m

/-- `WireCommandResult`. A `WireValue` is written as the stored value is. -/
def commandResultToWire : CommandResult → Json
  | .ok => .obj [("kind", .str "ok")]
  | .okWithState fields => .obj [("kind", .str "ok_with_state"),
      ("state", .obj (fields.map fun kv => (kv.key, Json.ofValue kv.value)))]
  | .err e => .obj [("error", .obj [("kind", .str (witErrorKind e)), ("message", .str (messageOf e))]),
      ("kind", .str "err")]

/-- The end of `device_send_command_call`, with what `execute_command` returned. -/
def deviceSendCommand (result : CommandResult) : ToolOutcome :=
  let result := truncatePluginError result
  let structured := commandResultToWire result
  match result with
  | .err e => .execErr ("device.send_command failed: " ++ witErrorKind e ++ " — " ++ messageOf e)
      (some structured) (some (witErrorKind e))
  | _ => .ok structured true

/-- What `execute_command` does to a result of the plugin before it returns it: the fields of a state
pass the check for one slot, or the result becomes an error, and the last value of a key stands. -/
def ReturnedByExecute : CommandResult → Prop
  | .okWithState fields => ∃ sent, checkSnapshotAdmission sent = .ok () ∧
      fields = mergeFieldsUnbounded [] sent
  | _ => True

def instancesRunning (pluginId : String) (running : List String) : ToolOutcome :=
  .execErr ("plugin `" ++ pluginId ++ "` has running instances: " ++ ", ".intercalate running ++
      " — call plugins.stop first")
    (some (.obj [("kind", .str "instances_running"), ("plugin_id", .str pluginId),
      ("running", .arr (running.map .str))])) none

def PRECONDITIONS : List (String × Option String) := [
  ("not_installed", some "plugin_id"), ("no_plugins_root", some "plugin_id"),
  ("source_missing", some "source_dir"), ("bad_manifest", none), ("no_plugins_root", none)]

structure Precondition (request : Request) where
  message : String
  kind : String
  named : Option (String × String)
  known : (kind, named.map Prod.fst) ∈ PRECONDITIONS
  drawn : ∀ member ∈ named, member.2 ∈ request.texts

def Precondition.structured {request : Request} (unmet : Precondition request) : Json :=
  .obj (("kind", .str unmet.kind) ::
    unmet.named.toList.map fun member => (member.1, .str member.2))

def Precondition.outcome {request : Request} (unmet : Precondition request) : ToolOutcome :=
  .execErr unmet.message (some unmet.structured) none

/-- The id stands in the manifest of the source, which no cap bounds. -/
def alreadyInstalled (pluginId : String) : ToolOutcome :=
  .execErr ("plugin `" ++ pluginId ++ "` is already installed")
    (some (.obj [("kind", .str "already_installed"), ("plugin_id", .str pluginId)])) none

def TOOLS : List String :=
  ["device.send_command", "logs.query", "events.history", "plugins.list", "plugins.show",
    "plugins.stop", "plugins.uninstall", "plugins.start", "plugins.install"]

inductive CallRefusal where
  | execErr
  | invalidParams
  | busy
  | unknownTool
  | internal

def CallRefusal.call (reason : String) : CallRefusal → ToolOutcome
  | .execErr => .execErr reason none none
  | .invalidParams => .invalidParams reason
  | .busy => .busy reason
  | .unknownTool => .unknownTool reason
  | .internal => .internal reason

inductive CallPath (request : Request) where
  | body (value : Json) (held : Held value) (what : String) (known : what ∈ TOOLS)
  | command (result : CommandResult) (returned : ReturnedByExecute result)
  | running (pluginId : String) (named : pluginId ∈ request.texts)
      (instances : List Engine.InstanceHandle)
      (safe : ∀ handle ∈ instances, Storage.isSafeInstanceId handle.instanceId = true)
      (distinct : (instances.map (·.instanceId)).Nodup)
      (nonempty : ∃ handle ∈ instances, handle.pluginId = pluginId)
  | alreadyInstalled (pluginId : String)
  | precondition (unmet : Precondition request)
  | refused (refusal : CallRefusal) (reason : Reason request)
  | denied (required : String)

def runningIds (pluginId : String) (instances : List Engine.InstanceHandle) : List String :=
  (instances.filter (·.pluginId = pluginId)).map (·.instanceId)

def CallPath.outcome {request : Request} : CallPath request → ToolOutcome
  | .body value _ what _ =>
      match encodeBodyCapped crates value what MAX_TOOL_BODY_BYTES with
      | .value v => .ok v false
      | .tooLarge reason => .tooLarge reason
      | .serializeFailed reason => .internal reason
  | .command result _ => deviceSendCommand result
  | .running pluginId _ instances _ _ _ => instancesRunning pluginId (runningIds pluginId instances)
  | .alreadyInstalled pluginId => Mcp.alreadyInstalled pluginId
  | .precondition unmet => unmet.outcome
  | .refused refusal reason => refusal.call reason.text
  | .denied required => .denied required

structure AuditNote where
  intentId : UInt64
  family : String
  known : family ∈ TOOLS

def auditMetaValue (note : AuditNote) : Json :=
  .obj [("oxidhome.audit", .obj [("intent_id", .int note.intentId.toNat),
    ("path", .str ("mcp.tool." ++ note.family))])]

/-- `attach_audit_meta` and `attach_audit_meta_to_error` -/
def Response.attachAuditMeta (note : AuditNote) : Response → Response
  | .result text structuredContent isError _ =>
      .result text structuredContent isError (some (auditMetaValue note))
  | .error code message _ => .error code message (some (auditMetaValue note))
  | response => response

inductive Exchange (request : Request) where
  | read (uri : String) (named : uri ∈ request.texts) (path : ReadPath request)
  | call (note : Option AuditNote) (path : CallPath request)

namespace Exchange

variable {request : Request}

def response : Exchange request → Response
  | .read uri _ path => (path.outcome crates).intoResult uri
  | .call none path => (path.outcome crates).intoResult crates
  | .call (some note) path => ((path.outcome crates).intoResult crates).attachAuditMeta note

def audited : Exchange request → Nat × String
  | .read _ _ path => ((path.outcome crates).status, (path.outcome crates).decision)
  | .call _ path => ((path.outcome crates).status, (path.outcome crates).decision)

end Exchange

inductive Frame where
  | data (bytes : List UInt8)
  | trailers

structure PermitBody where
  bytesSeen : Nat
  maxBytes : Nat
  truncated : Bool

namespace PermitBody

/-- `attach_permit_to_body` -/
def attach : PermitBody := ⟨0, MAX_RESPONSE_BODY_BYTES, false⟩

/-- A poll, with the frame of the inner body or its end. -/
def pollFrame (this : PermitBody) (inner : Option Frame) :
    PermitBody × Option (Except Unit Frame) :=
  if this.truncated then (this, none)
  else
    match inner with
    | none => (this, none)
    | some .trailers => (this, some (.ok .trailers))
    | some (.data bytes) =>
        let next := min (this.bytesSeen + bytes.length) (2 ^ 64 - 1)
        if this.maxBytes < next then ({ this with truncated := true }, some (.error ()))
        else ({ this with bytesSeen := next }, some (.ok (.data bytes)))

def run (this : PermitBody) : List Frame → List (Except Unit Frame)
  | [] => []
  | frame :: rest =>
      match this.pollFrame (some frame) with
      | (next, some out) => out :: run next rest
      | (_, none) => []

end PermitBody

end OxidHome.Api.Mcp

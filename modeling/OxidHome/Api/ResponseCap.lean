import OxidHome.Api.McpResponse

/-!
# The cap of an MCP response

`PermitBody` lets a response through whole just when it is within the cap. The caps on bodies and
the room that they leave keep every response within it, but for three: a text resource, whose cap
leaves no room for the envelope, the list of running instances of a refused uninstall and the id of a
refused install, which have no cap.
-/

namespace OxidHome.Api.Mcp
open Wit Library History Projection

variable {crates : TextCrates}

/-! ## `PermitBody` -/

theorem PermitBody.run_eq_iff {this : PermitBody} (open_ : this.truncated = false)
    (small : this.maxBytes < 2 ^ 64 - 1) (within : this.bytesSeen ≤ this.maxBytes)
    (frames : List (List UInt8)) :
    this.run (frames.map .data) = (frames.map fun bytes => .ok (.data bytes)) ↔
      this.bytesSeen + (frames.map List.length).sum ≤ this.maxBytes := by
  induction frames generalizing this with
  | nil => simpa [PermitBody.run] using within
  | cons bytes rest ih =>
      rw [List.map_cons, List.map_cons, List.map_cons, List.sum_cons, PermitBody.run,
        PermitBody.pollFrame, if_neg (by simp [open_])]
      by_cases past : this.maxBytes < min (this.bytesSeen + bytes.length) (2 ^ 64 - 1)
      · simp only [if_pos past, List.cons.injEq, reduceCtorEq, false_and, false_iff]
        omega
      · have next : min (this.bytesSeen + bytes.length) (2 ^ 64 - 1) =
            this.bytesSeen + bytes.length := by omega
        simp only [if_neg past, List.cons.injEq, true_and]
        rw [@ih { this with bytesSeen := min (this.bytesSeen + bytes.length) (2 ^ 64 - 1) }
          open_ small (Nat.not_lt.mp past), next, Nat.add_assoc]

namespace Exchange

variable {request : Request}

/-- The response is within the cap, and the consumer of its body gets all of it. -/
def NeverCut (rmcp : Rmcp crates) (exchange : Exchange request) : Prop :=
  let frames := rmcp.frames request.id (exchange.response crates)
  (frames.map List.length).sum ≤ MAX_RESPONSE_BODY_BYTES ∧
    PermitBody.attach.run (frames.map .data) = frames.map fun bytes => .ok (.data bytes)

theorem neverCut_iff (rmcp : Rmcp crates) (exchange : Exchange request) :
    exchange.NeverCut rmcp ↔
      request.id.text.length + ((exchange.response crates).shipped crates).length +
        rmcp.envelope (exchange.response crates) ≤ MAX_RESPONSE_BODY_BYTES := by
  rw [NeverCut, PermitBody.run_eq_iff rfl (by decide) (Nat.zero_le _), rmcp.carries]
  simp only [PermitBody.attach, Nat.zero_add, and_self]

end Exchange

/-! ## What a response takes -/

def mirrored (text : List UInt8) : Nat := text.length + (quoted text).length

theorem mirrored_render (json : Json) : mirrored (render crates json) =
    2 * (render crates json).length + marks (render crates json) + 2 := by
  rw [mirrored, length_quoted_of_printable (printable_render crates json)]
  omega

theorem mirrored_render_le (json : Json) :
    mirrored (render crates json) ≤ 3 * (render crates json).length + 2 := by
  have := marks_le_length (render crates json)
  rw [mirrored_render]
  omega

def noteBytes (crates : TextCrates) : Option AuditNote → Nat
  | none => 0
  | some note => (render crates (auditMetaValue note)).length

theorem length_path_le : ∀ family ∈ TOOLS, (quote ("mcp.tool." ++ family)).length ≤ 40 := by
  decide

theorem noteBytes_le (note : Option AuditNote) : noteBytes crates note ≤ 128 := by
  cases note with
  | none => exact Nat.zero_le _
  | some note =>
      have path := length_path_le note.family note.known
      have id := length_integer_le note.intentId.toNat_lt
      have names : (quote "oxidhome.audit").length = 16 ∧ (quote "intent_id").length = 11 ∧
          (quote "path").length = 6 := by decide
      obtain ⟨audit, intent, path'⟩ := names
      have number := length_utf8_integer note.intentId.toNat
      simp only [noteBytes, auditMetaValue, length_render_obj, List.map_cons, List.map_nil,
        List.sum_cons, List.sum_nil, List.length_cons, List.length_nil, audit, intent, path',
        render_str, render_int, number]
      omega

theorem length_quote_fill {template : List Hole} (own : ownBytes template ≤ 2048)
    (numbers : List UInt64) (args : List String) :
    (quote (fill template numbers args)).length ≤ textBytes args + 2050 := by
  have filled := length_escape_fill template numbers args
  rw [quote, length_quoted]
  omega

theorem length_quote_reason {request : Request} (reason : Reason request) :
    (quote reason.text).length ≤ 7 * textBytes request.texts + 3074 := by
  have filled := length_quote_fill (ownBytes_le reason.template reason.listed) reason.numbers
    reason.args
  have drawn := reason.drawn
  rw [Reason.text]
  omega

theorem error_within {request : Request} {reasonBytes : Nat} (note : Option AuditNote)
    (reason : reasonBytes ≤ 7 * textBytes request.texts + 3074) :
    request.id.text.length + (20 + reasonBytes + noteBytes crates note) +
      BLOB_ENVELOPE_OVERHEAD_BYTES ≤ MAX_RESPONSE_BODY_BYTES := by
  have carries := request.carries
  have admitted := request.admitted
  have := @noteBytes_le crates note
  simp only [MAX_REQUEST_BODY_BYTES, MAX_RESPONSE_BODY_BYTES, BLOB_ENVELOPE_OVERHEAD_BYTES] at *
  omega

theorem value_within {request : Request} {text : List UInt8} (note : Option AuditNote)
    (capped : mirrored text ≤ 3 * MAX_TOOL_BODY_BYTES + 2) :
    request.id.text.length + (mirrored text + noteBytes crates note) +
      BLOB_ENVELOPE_OVERHEAD_BYTES ≤ MAX_RESPONSE_BODY_BYTES := by
  have carries := request.carries
  have admitted := request.admitted
  have note := @noteBytes_le crates note
  have peak := peak_le
  have headroom : 2 + 128 + BLOB_ENVELOPE_OVERHEAD_BYTES ≤ TOOL_ENVELOPE_HEADROOM_BYTES := by decide
  omega

theorem base64_plain (bytes : List UInt8) :
    ∀ b ∈ crates.base64 bytes, 32 ≤ b ∧ b ≠ 34 ∧ b ≠ 92 := by
  have plain : ∀ b : Fin 256, (Char.ofNat b.val).isAlphanum ∨ UInt8.ofNat b.val ∈ utf8 "+/=" →
      32 ≤ UInt8.ofNat b.val ∧ UInt8.ofNat b.val ≠ 34 ∧ UInt8.ofNat b.val ≠ 92 := by
    decide +kernel
  intro b mem
  have letter := plain ⟨b.toNat, b.toNat_lt⟩
  rw [UInt8.ofNat_toNat] at letter
  exact letter (crates.alphabet bytes b mem)

theorem length_quoted_base64 (bytes : List UInt8) :
    (quoted (crates.base64 bytes)).length = (crates.base64 bytes).length + 2 := by
  rw [length_quoted_of_printable fun b mem => (base64_plain bytes b mem).1,
    marks_eq_zero fun b mem => (base64_plain bytes b mem).2]

/-! ## Results of a command -/

theorem length_integer_int64 (i : Int64) : (integer i.toInt).length ≤ 20 := by
  have low := i.le_toInt
  have high := i.toInt_lt
  cases value : i.toInt with
  | ofNat n =>
      rw [value, Int.ofNat_eq_natCast] at high
      exact length_integer_le (by omega)
  | negSucc n =>
      have digits : (Nat.toDigits 10 (n + 1)).length ≤ 19 := by
        rw [Nat.length_toDigits_le_iff (by decide) (by decide)]
        rw [value] at low
        omega
      exact Nat.succ_le_succ digits

theorem length_integer_byte (b : UInt8) : (integer (b.toNat : Int)).length ≤ 3 := by
  have small := b.toNat_lt
  change (Nat.toDigits 10 b.toNat).length ≤ 3
  rw [Nat.length_toDigits_le_iff (by decide) (by decide)]
  omega

theorem length_render_tagged {tag : String} (known : (quote tag).length ≤ 8) (content : Json) :
    (render crates (Json.tagged tag content)).length ≤ (render crates content).length + 19 := by
  have names : (quote "t").length = 3 ∧ (quote "v").length = 3 := by decide
  simp only [Json.tagged, length_render_obj, List.map_cons, List.map_nil, List.sum_cons,
    List.sum_nil, List.length_cons, List.length_nil, names, render_str]
  omega

theorem length_render_bytes (b : List UInt8) :
    (render crates (.arr (b.map fun byte => .int byte.toNat))).length ≤ 4 * b.length + 2 := by
  have digits : ((b.map fun byte => (render crates (.int byte.toNat)).length)).sum ≤
      (b.map fun _ => 3).sum := by
    refine List.sum_le_sum fun byte _ => ?_
    rw [render_int, length_utf8_integer]
    exact length_integer_byte byte
  rw [List.map_const', List.sum_replicate, smul_eq_mul] at digits
  rw [length_render_arr, List.map_map, List.length_map]
  simp only [Function.comp_def]
  omega

theorem length_render_ofValue (v : Value) :
    (render crates (Json.ofValue v)).length ≤ 6 * valueByteEstimate v + 48 := by
  have tags : ∀ tag ∈ ["Bool", "Int", "Float", "String", "Bytes", "Json"], (quote tag).length ≤ 8 := by
    decide
  have bound (tag : String) (known : tag ∈ ["Bool", "Int", "Float", "String", "Bytes", "Json"])
      (content : Json) := @length_render_tagged crates tag (tags tag known) content
  cases v with
  | boolVal b =>
      have := bound "Bool" (by simp) (.bool b)
      have short : (render crates (.bool b)).length ≤ 5 := by
        cases b <;> rw [render] <;> decide
      rw [Json.ofValue]
      omega
  | intVal i =>
      have := bound "Int" (by simp) (.int i.toInt)
      have short := length_integer_int64 i
      rw [Json.ofValue]
      rw [render_int, length_utf8_integer] at this
      omega
  | floatVal f =>
      have := bound "Float" (by simp) (Json.ofF64 f)
      have short : (render crates (Json.ofF64 f)).length ≤ 24 := by
        rw [Json.ofF64]
        split_ifs
        · rw [render]
          exact crates.short f
        · rw [render]
          decide
      rw [Json.ofValue]
      omega
  | stringVal s =>
      have := bound "String" (by simp) (.str s)
      have text := length_quoted_le (utf8 s)
      rw [length_utf8] at text
      rw [Json.ofValue, valueByteEstimate]
      rw [render_str, quote] at this
      omega
  | bytesVal b =>
      have := bound "Bytes" (by simp) (.arr (b.map fun byte => .int byte.toNat))
      have := @length_render_bytes crates b
      rw [Json.ofValue, valueByteEstimate]
      omega
  | jsonVal s =>
      have := bound "Json" (by simp) (.str s)
      have text := length_quoted_le (utf8 s)
      rw [length_utf8] at text
      rw [Json.ofValue, valueByteEstimate]
      rw [render_str, quote] at this
      omega

theorem admitted_state {sent : List KeyValue} (passed : checkSnapshotAdmission sent = .ok ()) :
    (mergeFieldsUnbounded [] sent).length ≤ MAX_FIELDS_PER_SLOT ∧
      fieldsByteEstimate (mergeFieldsUnbounded [] sent) ≤ MAX_BYTES_PER_SLOT := by
  have distinct : DistinctKeys ([] : List KeyValue) := by simp [DistinctKeys]
  have spec := (projectedSlotSize_spec distinct sent).2
  by_contra outside
  obtain ⟨n, b, refused⟩ := spec (by omega)
  rw [checkSnapshotAdmission, refused] at passed
  exact absurd passed (by simp [Except.map])

theorem length_render_state (fields : List KeyValue) :
    (render crates (.obj (fields.map fun kv => (kv.key, Json.ofValue kv.value)))).length ≤
      6 * fieldsByteEstimate fields + 52 * fields.length + 2 := by
  have member (kv : KeyValue) : (quote kv.key).length + 1 +
      (render crates (Json.ofValue kv.value)).length ≤ 6 * keyValueByteEstimate kv + 51 := by
    have key := length_quoted_le (utf8 kv.key)
    have value := @length_render_ofValue crates kv.value
    rw [length_utf8] at key
    rw [quote, keyValueByteEstimate]
    omega
  have total : (fields.map fun kv => (quote kv.key).length + 1 +
      (render crates (Json.ofValue kv.value)).length).sum ≤
      6 * fieldsByteEstimate fields + 51 * fields.length := by
    induction fields with
    | nil => exact Nat.zero_le _
    | cons kv rest ih =>
        have := member kv
        simp only [fieldsByteEstimate, List.map_cons, List.sum_cons, List.length_cons] at ih ⊢
        omega
  rw [length_render_obj, List.map_map, List.length_map]
  simp only [Function.comp_def]
  omega

theorem length_truncate_le (cap : Nat) (chars : List Char) :
    ((truncate cap chars).map Char.utf8Size).sum ≤ cap := by
  induction chars generalizing cap with
  | nil => exact Nat.zero_le _
  | cons c rest ih =>
      rw [truncate]
      split_ifs with fits
      · have := ih (cap - c.utf8Size)
        rw [List.map_cons, List.sum_cons]
        omega
      · exact Nat.zero_le _

theorem capMessage_le (m : String) :
    (capMessage m).utf8ByteSize ≤ MAX_PLUGIN_ERROR_MESSAGE_BYTES + 32 := by
  rw [capMessage]
  split_ifs with large
  · have suffix : "… [truncated by host]".utf8ByteSize ≤ 32 := by decide
    have kept := length_truncate_le MAX_PLUGIN_ERROR_MESSAGE_BYTES m.toList
    rw [← length_utf8_ofList, length_utf8] at kept
    rw [String.utf8ByteSize_append]
    exact Nat.add_le_add kept suffix
  · exact (Nat.not_lt.mp large).trans (Nat.le_add_right _ _)

theorem truncatePluginError_err {e : Error} :
    ∃ kept, truncatePluginError (.err e) = .err kept ∧
      (messageOf kept).utf8ByteSize ≤ MAX_PLUGIN_ERROR_MESSAGE_BYTES + 32 := by
  cases e with
  | notFound m => exact ⟨_, rfl, capMessage_le m⟩
  | invalidArgument m => exact ⟨_, rfl, capMessage_le m⟩
  | permissionDenied m => exact ⟨_, rfl, capMessage_le m⟩
  | unavailable m => exact ⟨_, rfl, capMessage_le m⟩
  | internal m => exact ⟨_, rfl, capMessage_le m⟩

theorem length_witErrorKind (e : Error) : (quote (witErrorKind e)).length ≤ 19 := by
  cases e <;> rw [witErrorKind] <;> decide

theorem length_render_command {result : CommandResult} (returned : ReturnedByExecute result) :
    (render crates (commandResultToWire (truncatePluginError result))).length ≤
      MAX_TOOL_BODY_BYTES := by
  have names : (quote "kind").length = 6 ∧ (quote "state").length = 7 ∧ (quote "error").length = 7 ∧
      (quote "message").length = 9 ∧ (quote "ok").length = 4 ∧ (quote "err").length = 5 ∧
      (quote "ok_with_state").length = 15 := by decide
  have cap : MAX_TOOL_BODY_BYTES = 2359296 := by decide
  cases result with
  | ok =>
      simp only [truncatePluginError, commandResultToWire, length_render_obj, List.map_cons,
        List.map_nil, List.sum_cons, List.sum_nil, List.length_cons, List.length_nil, names,
        render_str, cap]
      omega
  | okWithState fields =>
      obtain ⟨sent, passed, rfl⟩ := returned
      obtain ⟨count, bytes⟩ := admitted_state passed
      have state := @length_render_state crates (mergeFieldsUnbounded [] sent)
      rw [MAX_FIELDS_PER_SLOT] at count
      rw [MAX_BYTES_PER_SLOT] at bytes
      rw [truncatePluginError, commandResultToWire, length_render_obj]
      · simp only [List.map_cons, List.map_nil, List.sum_cons, List.sum_nil, List.length_cons,
          List.length_nil, names, render_str, cap]
        omega
      all_goals simp
  | err e =>
      obtain ⟨kept, truncated, short⟩ := @truncatePluginError_err e
      have kind := length_witErrorKind kept
      have message := length_quoted_le (utf8 (messageOf kept))
      rw [length_utf8, ← quote] at message
      rw [MAX_PLUGIN_ERROR_MESSAGE_BYTES] at short
      simp only [truncated, commandResultToWire, length_render_obj, List.map_cons, List.map_nil,
        List.sum_cons, List.sum_nil, List.length_cons, List.length_nil, names, render_str, cap]
      omega

theorem length_preconditions : ∀ entry ∈ PRECONDITIONS, (quote entry.1).length ≤ 20 ∧
    ∀ name ∈ entry.2, (quote name).length ≤ 12 := by
  decide

theorem length_render_precondition {request : Request} (unmet : Precondition request) :
    (render crates unmet.structured).length ≤ MAX_TOOL_BODY_BYTES := by
  have kind : (quote "kind").length = 6 := by decide
  have cap : MAX_TOOL_BODY_BYTES = 2359296 := by decide
  obtain ⟨(short : (quote unmet.kind).length ≤ 20), names⟩ := length_preconditions _ unmet.known
  have drawn := unmet.drawn
  cases member : unmet.named with
  | none =>
      simp only [Precondition.structured, member, Option.toList_none, List.map_nil,
        length_render_obj, List.map_cons, List.sum_cons, List.sum_nil, List.length_cons,
        List.length_nil, kind, render_str, cap]
      omega
  | some member' =>
      rw [member] at names drawn
      have name := names member'.1 rfl
      have text : (quote member'.2).length ≤ MAX_REQUEST_BODY_BYTES := by
        have := textBytes_of_mem (drawn member' rfl)
        have carries := request.carries
        have admitted := request.admitted
        omega
      rw [MAX_REQUEST_BODY_BYTES] at text
      simp only [Precondition.structured, member, Option.toList_some, List.map_cons, List.map_nil,
        length_render_obj, List.sum_cons, List.sum_nil, List.length_cons, List.length_nil, kind,
        render_str, cap]
      omega

/-! ## Answers without a cap -/

def twice (s : String) : Nat := 2 * (quote s).length + marks (quote s)

theorem mirrored_alreadyInstalled (pluginId : String) :
    mirrored (render crates (.obj [("kind", .str "already_installed"),
      ("plugin_id", .str pluginId)])) = 90 + twice pluginId := by
  have names : (quote "kind").length = 6 ∧ (quote "already_installed").length = 19 ∧
      (quote "plugin_id").length = 11 ∧ marks (quote "kind") = 2 ∧
      marks (quote "already_installed") = 2 ∧ marks (quote "plugin_id") = 2 := by decide
  rw [mirrored_render]
  simp only [length_render_obj, marks_render_obj, List.map_cons, List.map_nil, List.sum_cons,
    List.sum_nil, List.length_cons, List.length_nil, render_str, names, twice]
  omega

theorem mirrored_instancesRunning {pluginId : String} {running : List String}
    (nonempty : running ≠ []) :
    mirrored (render crates (.obj [("kind", .str "instances_running"), ("plugin_id", .str pluginId),
      ("running", .arr (running.map .str))])) =
      116 + twice pluginId + (running.map twice).sum + 2 * running.length := by
  have names : (quote "kind").length = 6 ∧ (quote "instances_running").length = 19 ∧
      (quote "plugin_id").length = 11 ∧ (quote "running").length = 9 ∧
      marks (quote "kind") = 2 ∧ marks (quote "instances_running") = 2 ∧
      marks (quote "plugin_id") = 2 ∧ marks (quote "running") = 2 := by decide
  have ids : (running.map twice).sum = 2 * (running.map fun s => (quote s).length).sum +
      (running.map fun s => marks (quote s)).sum := by
    clear nonempty
    induction running with
    | nil => rfl
    | cons s rest ih =>
        simp only [List.map_cons, List.sum_cons, ih, twice]
        omega
  have some_ : 1 ≤ running.length := List.length_pos_iff.mpr nonempty
  rw [mirrored_render]
  simp only [length_render_obj, marks_render_obj, length_render_arr, marks_render_arr, List.map_cons,
    List.map_nil, List.sum_cons, List.sum_nil, List.length_cons, List.length_nil, List.map_map,
    List.length_map, Function.comp_def, render_str, names, ids, twice]
  omega

theorem length_quote_what : ∀ what ∈ ENCODED ++ TOOLS, (quote what).length ≤ 24 ∧
    (quote ("failed to re-parse " ++ what)).length ≤ 40 := by
  decide

theorem length_quote_tooLarge {what : String} (known : what ∈ ENCODED ++ TOOLS) (cap : Nat) :
    (quote (tooLarge what cap)).length ≤ 3074 := by
  have short := (length_quote_what what known).1
  have filled := length_quote_fill (by decide : ownBytes TOO_LARGE ≤ 2048) [.ofNat cap] [what]
  have named : textBytes [what] = (quote what).length := by simp [textBytes]
  rw [tooLarge]
  omega

theorem length_quote_blobTooLarge (numbers : List UInt64) :
    (quote (fill BLOB_TOO_LARGE numbers [])).length ≤ 3074 := by
  have filled := length_quote_fill (by decide : ownBytes BLOB_TOO_LARGE ≤ 2048) numbers []
  have none : textBytes [] = 0 := rfl
  omega

theorem length_code (code : Int) (known : code ∈ [SCOPE_DENIED_CODE, RESOURCE_TOO_LARGE_CODE,
    RESOURCE_BUSY_CODE, RESOURCE_NOT_FOUND, METHOD_NOT_FOUND, INVALID_PARAMS, INTERNAL_ERROR]) :
    (utf8 (String.ofList (integer code))).length ≤ 20 := by
  revert code
  decide

namespace Exchange

variable {request : Request}

/-- Whether a response is within the cap where no cap on its body makes it so: the text of a resource,
the running instances and the id of the manifest that an install refuses. -/
def Fits (rmcp : Rmcp crates) (exchange : Exchange request) : Prop :=
  let overhead := request.id.text.length + rmcp.envelope (exchange.response crates)
  match exchange with
  | .read uri _ (.text value _ _) =>
      (render crates value).length ≤ MAX_TEXT_BODY_BYTES →
        overhead + (quote uri).length + (render crates value).length + marks (render crates value) +
          (quote "application/json").length + 2 ≤ MAX_RESPONSE_BODY_BYTES
  | .call note (.running pluginId _ instances _ _ _) =>
      overhead + 116 + twice pluginId + ((runningIds pluginId instances).map twice).sum +
        2 * (runningIds pluginId instances).length + noteBytes crates note ≤ MAX_RESPONSE_BODY_BYTES
  | .call note (.alreadyInstalled pluginId) =>
      overhead + 90 + twice pluginId + noteBytes crates note ≤ MAX_RESPONSE_BODY_BYTES
  | _ => True

theorem length_call_value (note : Option AuditNote) {path : CallPath request} {value : Json}
    {isError : Bool} (shape : (path.outcome crates).intoResult crates =
      .result (render crates value) (some value) isError none) :
    (((Exchange.call note path).response crates).shipped crates).length =
      mirrored (render crates value) + noteBytes crates note := by
  cases note with
  | none =>
      simp only [response, shape, Response.shipped, noteBytes, Option.map_some, Option.map_none,
        Option.getD_some, Option.getD_none, List.length_append, List.length_nil, mirrored]
      omega
  | some note =>
      simp only [response, shape, Response.attachAuditMeta, Response.shipped, noteBytes,
        Option.map_some, Option.getD_some, List.length_append, mirrored]
      omega

theorem length_call_text (note : Option AuditNote) {path : CallPath request} {text : String}
    {isError : Bool} (shape : (path.outcome crates).intoResult crates =
      .result (utf8 text) none isError none) :
    (((Exchange.call note path).response crates).shipped crates).length =
      (quote text).length + noteBytes crates note := by
  cases note with
  | none =>
      simp only [response, shape, Response.shipped, noteBytes, Option.map_none, Option.getD_none,
        List.length_append, List.length_nil, quote]
  | some note =>
      simp only [response, shape, Response.attachAuditMeta, Response.shipped, noteBytes,
        Option.map_some, Option.map_none, Option.getD_some, Option.getD_none, List.length_append,
        List.length_nil, quote]
      omega

theorem length_call_error (note : Option AuditNote) {path : CallPath request} {code : Int}
    {message : String} (shape : (path.outcome crates).intoResult crates = .error code message none) :
    (((Exchange.call note path).response crates).shipped crates).length =
      (utf8 (String.ofList (integer code))).length + (quote message).length +
        noteBytes crates note := by
  cases note with
  | none =>
      simp only [response, shape, Response.shipped, noteBytes, Option.map_none, Option.getD_none,
        List.length_append, List.length_nil]
  | some note =>
      simp only [response, shape, Response.attachAuditMeta, Response.shipped, noteBytes,
        Option.map_some, Option.getD_some, List.length_append]

variable (rmcp : Rmcp crates)

theorem neverCut_value_iff (note : Option AuditNote) {path : CallPath request} {value : Json}
    {isError : Bool} (shape : (path.outcome crates).intoResult crates =
      .result (render crates value) (some value) isError none) :
    (Exchange.call note path).NeverCut rmcp ↔
      request.id.text.length + (mirrored (render crates value) + noteBytes crates note) +
        rmcp.envelope ((Exchange.call note path).response crates) ≤ MAX_RESPONSE_BODY_BYTES := by
  rw [neverCut_iff, length_call_value note shape]

theorem neverCut_value (note : Option AuditNote) {path : CallPath request} {value : Json}
    {isError : Bool} (shape : (path.outcome crates).intoResult crates =
      .result (render crates value) (some value) isError none)
    (capped : (render crates value).length ≤ MAX_TOOL_BODY_BYTES) :
    (Exchange.call note path).NeverCut rmcp := by
  have light := rmcp.light ((Exchange.call note path).response crates)
  have peak : mirrored (render crates value) ≤ 3 * MAX_TOOL_BODY_BYTES + 2 :=
    (mirrored_render_le value).trans (by omega)
  have := @value_within crates request (render crates value) note peak
  rw [neverCut_value_iff rmcp note shape]
  omega

theorem neverCut_error (note : Option AuditNote) {path : CallPath request} {code : Int}
    {message : String} (shape : (path.outcome crates).intoResult crates = .error code message none)
    (known : code ∈ [SCOPE_DENIED_CODE, RESOURCE_TOO_LARGE_CODE, RESOURCE_BUSY_CODE,
      RESOURCE_NOT_FOUND, METHOD_NOT_FOUND, INVALID_PARAMS, INTERNAL_ERROR])
    (short : (quote message).length ≤ 7 * textBytes request.texts + 3074) :
    (Exchange.call note path).NeverCut rmcp := by
  have light := rmcp.light ((Exchange.call note path).response crates)
  have digits := length_code code known
  have := @error_within crates request _ note short
  rw [neverCut_iff, length_call_error note shape]
  omega

theorem neverCut_refused (note : Option AuditNote) (refusal : CallRefusal)
    (reason : Reason request) : (Exchange.call note (.refused refusal reason)).NeverCut rmcp := by
  have short := length_quote_reason reason
  cases refusal with
  | execErr =>
      have light := rmcp.light ((Exchange.call note (.refused .execErr reason)).response crates)
      have := @error_within crates request _ note short
      rw [neverCut_iff, length_call_text note rfl]
      omega
  | invalidParams => exact neverCut_error rmcp note rfl (by decide) short
  | busy => exact neverCut_error rmcp note rfl (by decide) short
  | unknownTool => exact neverCut_error rmcp note rfl (by decide) short
  | internal => exact neverCut_error rmcp note rfl (by decide) short

theorem neverCut_read_error {uri : String} {named : uri ∈ request.texts} {path : ReadPath request}
    {code : Int} {message : String}
    (shape : (path.outcome crates).intoResult uri = .error code message none)
    (known : code ∈ [SCOPE_DENIED_CODE, RESOURCE_TOO_LARGE_CODE, RESOURCE_BUSY_CODE,
      RESOURCE_NOT_FOUND, METHOD_NOT_FOUND, INVALID_PARAMS, INTERNAL_ERROR])
    (short : (quote message).length ≤ 7 * textBytes request.texts + 3074) :
    (Exchange.read uri named path).NeverCut rmcp := by
  have light := rmcp.light ((Exchange.read uri named path).response crates)
  have digits := length_code code known
  have room := @error_within crates request _ none short
  rw [neverCut_iff]
  simp only [response, shape, Response.shipped, Option.map_none, Option.getD_none,
    List.length_append, List.length_nil, noteBytes] at light room ⊢
  omega

theorem neverCut_read_refused {uri : String} (named : uri ∈ request.texts) (refusal : Refusal)
    (reason : Reason request) : (Exchange.read uri named (.refused refusal reason)).NeverCut rmcp := by
  have short := length_quote_reason reason
  cases refusal with
  | notFound => exact neverCut_read_error rmcp rfl (by decide) short
  | invalidParams => exact neverCut_read_error rmcp rfl (by decide) short
  | tooLarge => exact neverCut_read_error rmcp rfl (by decide) short
  | busy => exact neverCut_read_error rmcp rfl (by decide) short
  | internal => exact neverCut_read_error rmcp rfl (by decide) short

theorem neverCut_blob {uri : String} (named : uri ∈ request.texts) (bytes : List UInt8)
    (mime : Option String) (capped : ∀ m ∈ mime, m.utf8ByteSize ≤ Storage.MAX_BLOB_MIME_BYTES) :
    (Exchange.read uri named (.blob bytes mime capped)).NeverCut rmcp := by
  by_cases large : MAX_BLOB_BODY_BYTES <
      (crates.base64 bytes).length + (mime.map (·.utf8ByteSize)).getD 0 + BLOB_ENVELOPE_OVERHEAD_BYTES
  · have shape : ((ReadPath.blob bytes mime capped : ReadPath request).outcome
        crates).intoResult uri = .error RESOURCE_TOO_LARGE_CODE (fill BLOB_TOO_LARGE
          [.ofNat ((crates.base64 bytes).length + (mime.map (·.utf8ByteSize)).getD 0 +
            BLOB_ENVELOPE_OVERHEAD_BYTES), .ofNat (crates.base64 bytes).length,
            .ofNat ((mime.map (·.utf8ByteSize)).getD 0)] []) none := by
      rw [ReadPath.outcome, blobRead, if_pos large]
      rfl
    exact neverCut_read_error rmcp shape (by decide)
      ((length_quote_blobTooLarge _).trans (Nat.le_add_left _ _))
  · have light := rmcp.light ((Exchange.read uri named (.blob bytes mime capped)).response crates)
    have shape : (Exchange.read uri named (.blob bytes mime capped)).response crates =
        .contents uri (crates.base64 bytes) mime := by
      rw [response, ReadPath.outcome, blobRead, if_neg large, ReadOutcome.intoResult]
    have carries := request.carries
    have admitted := request.admitted
    have echoed := textBytes_of_mem named
    have mimeBytes : ((mime.map quote).getD []).length ≤
        6 * Storage.MAX_BLOB_MIME_BYTES + 2 := by
      cases mime with
      | none => exact Nat.zero_le _
      | some m =>
          have := length_quoted_le (utf8 m)
          have := capped m rfl
          rw [length_utf8, ← quote] at *
          simp only [Option.map_some, Option.getD_some]
          omega
    rw [neverCut_iff]
    simp only [shape, Response.shipped, List.length_append, length_quoted_base64] at light ⊢
    simp only [MAX_REQUEST_BODY_BYTES, MAX_RESPONSE_BODY_BYTES, MAX_BLOB_BODY_BYTES,
      BLOB_ENVELOPE_OVERHEAD_BYTES, Storage.MAX_BLOB_MIME_BYTES] at *
    omega

theorem neverCut_text_iff {uri : String} (named : uri ∈ request.texts) (value : Json)
    (what : String) (known : what ∈ ENCODED) :
    (Exchange.read uri named (.text value what known)).NeverCut rmcp ↔
      (Exchange.read uri named (.text value what known)).Fits rmcp := by
  by_cases large : MAX_TEXT_BODY_BYTES < (render crates value).length
  · refine iff_of_true ?_ fun within => absurd large (Nat.not_lt.mpr within)
    have shape : ((ReadPath.text value what known : ReadPath request).outcome
        crates).intoResult uri =
          .error RESOURCE_TOO_LARGE_CODE (tooLarge what MAX_TEXT_BODY_BYTES) none := by
      rw [ReadPath.outcome, encode, toWriter_eq, if_pos large]
      rfl
    exact neverCut_read_error rmcp shape (by decide)
      ((length_quote_tooLarge (List.mem_append_left _ known) _).trans (Nat.le_add_left _ _))
  · have shape : (Exchange.read uri named (.text value what known)).response crates =
        .contents uri (render crates value) (some "application/json") := by
      rw [response, ReadPath.outcome, encode, toWriter_eq, if_neg large]
      rfl
    rw [neverCut_iff, Fits, shape]
    simp only [Response.shipped, Option.map_some, Option.getD_some, List.length_append,
      length_quoted_of_printable (printable_render crates value), Nat.not_lt.mp large,
      forall_const]
    omega

theorem neverCut_body (note : Option AuditNote) {value : Json} (held : Held value) (what : String)
    (known : what ∈ TOOLS) :
    (Exchange.call note (.body value held what known) : Exchange request).NeverCut rmcp := by
  by_cases large : MAX_TOOL_BODY_BYTES < (render crates value).length
  · have shape : ((CallPath.body value held what known : CallPath request).outcome
        crates).intoResult crates =
          .error RESOURCE_TOO_LARGE_CODE (tooLarge what MAX_TOOL_BODY_BYTES) none := by
      rw [CallPath.outcome, encodeBodyCapped, toWriter_eq, if_pos large]
      rfl
    exact neverCut_error rmcp note shape (by decide)
      ((length_quote_tooLarge (List.mem_append_right _ known) _).trans (Nat.le_add_left _ _))
  · have written : toWriter crates MAX_TOOL_BODY_BYTES value = some (render crates value) := by
      rw [toWriter_eq, if_neg large]
    cases read : crates.fromSlice (render crates value) with
    | none =>
        have shape : ((CallPath.body value held what known : CallPath request).outcome
            crates).intoResult crates =
              .error INTERNAL_ERROR ("failed to re-parse " ++ what) none := by
          rw [CallPath.outcome, encodeBodyCapped, written]
          simp only [read]
          rfl
        have short := (length_quote_what what (List.mem_append_right _ known)).2
        exact neverCut_error rmcp note shape (by decide) (by omega)
    | some v =>
        have shape : ((CallPath.body value held what known : CallPath request).outcome
            crates).intoResult crates = .result (render crates v) (some v) false none := by
          rw [CallPath.outcome, encodeBodyCapped, written]
          simp only [read]
          rfl
        exact neverCut_value rmcp note shape
          ((crates.rereads value v held read).trans (Nat.not_lt.mp large))

theorem neverCut_running_iff (note : Option AuditNote) {pluginId : String}
    (named : pluginId ∈ request.texts) {instances : List Engine.InstanceHandle}
    (safe : ∀ handle ∈ instances, Storage.isSafeInstanceId handle.instanceId = true)
    (distinct : (instances.map (·.instanceId)).Nodup)
    (nonempty : ∃ handle ∈ instances, handle.pluginId = pluginId) :
    (Exchange.call note (.running pluginId named instances safe distinct nonempty)).NeverCut rmcp ↔
      (Exchange.call note (.running pluginId named instances safe distinct nonempty)).Fits rmcp := by
  have some_ : runningIds pluginId instances ≠ [] := by
    obtain ⟨handle, mem, owned⟩ := nonempty
    exact List.ne_nil_of_mem (List.mem_map_of_mem (List.mem_filter.mpr ⟨mem, by simpa using owned⟩))
  have shape : ((CallPath.running pluginId named instances safe distinct nonempty).outcome
      crates).intoResult crates = .result _ (some _) true none := rfl
  rw [neverCut_value_iff rmcp note shape, mirrored_instancesRunning some_, Fits]
  omega

theorem neverCut_alreadyInstalled_iff (note : Option AuditNote) (pluginId : String) :
    (Exchange.call note (.alreadyInstalled pluginId) : Exchange request).NeverCut rmcp ↔
      (Exchange.call note (.alreadyInstalled pluginId) : Exchange request).Fits rmcp := by
  have shape : ((CallPath.alreadyInstalled pluginId : CallPath request).outcome
      crates).intoResult crates = .result _ (some _) true none := rfl
  rw [neverCut_value_iff rmcp note shape, mirrored_alreadyInstalled, Fits]
  omega

/-- A plugin id that names a directory has at most 255 bytes. -/
theorem fits_alreadyInstalled (note : Option AuditNote) {pluginId : String}
    (short : pluginId.utf8ByteSize ≤ 255) :
    (Exchange.call note (.alreadyInstalled pluginId) : Exchange request).Fits rmcp := by
  have light := rmcp.light
    ((Exchange.call note (.alreadyInstalled pluginId) : Exchange request).response crates)
  have written := length_quoted_le (utf8 pluginId)
  have marked := marks_le_length (quote pluginId)
  have carries := request.carries
  have admitted := request.admitted
  have noted := @noteBytes_le crates note
  rw [length_utf8, ← quote] at written
  simp only [Fits, twice, MAX_REQUEST_BODY_BYTES, MAX_RESPONSE_BODY_BYTES,
    BLOB_ENVELOPE_OVERHEAD_BYTES] at *
  omega

end Exchange

/-! ## The cap -/

/-- A response is never cut unless the text of a resource leaves no room for what stands around it,
too many instances are running or the id that an install refuses is too long. -/
theorem response_neverCut_iff (crates : TextCrates) (rmcp : Rmcp crates) (request : Request)
    (exchange : Exchange request) : exchange.NeverCut rmcp ↔ exchange.Fits rmcp := by
  cases exchange with
  | read uri named path =>
      cases path with
      | text value what known => exact Exchange.neverCut_text_iff rmcp named value what known
      | blob bytes mime capped =>
          exact iff_of_true (Exchange.neverCut_blob rmcp named bytes mime capped) trivial
      | refused refusal reason =>
          exact iff_of_true (Exchange.neverCut_read_refused rmcp named refusal reason) trivial
      | denied required =>
          refine iff_of_true (Exchange.neverCut_read_error rmcp rfl (by decide) ?_) trivial
          exact (by decide : _ ≤ 3074).trans (Nat.le_add_left _ _)
  | call note path =>
      cases path with
      | body value held what known =>
          exact iff_of_true (Exchange.neverCut_body rmcp note held what known) trivial
      | command result returned =>
          refine iff_of_true ?_ trivial
          have capped := @length_render_command crates result returned
          cases sent : truncatePluginError result with
          | ok =>
              rw [sent] at capped
              exact Exchange.neverCut_value rmcp note
                (by rw [CallPath.outcome, deviceSendCommand, sent]; rfl) capped
          | okWithState fields =>
              rw [sent] at capped
              exact Exchange.neverCut_value rmcp note
                (by rw [CallPath.outcome, deviceSendCommand, sent]; rfl) capped
          | err e =>
              rw [sent] at capped
              exact Exchange.neverCut_value rmcp note
                (by rw [CallPath.outcome, deviceSendCommand, sent]; rfl) capped
      | running pluginId named instances safe distinct nonempty =>
          exact Exchange.neverCut_running_iff rmcp note named safe distinct nonempty
      | alreadyInstalled pluginId => exact Exchange.neverCut_alreadyInstalled_iff rmcp note pluginId
      | precondition unmet =>
          exact iff_of_true (Exchange.neverCut_value rmcp note rfl
            (length_render_precondition unmet)) trivial
      | refused refusal reason =>
          exact iff_of_true (Exchange.neverCut_refused rmcp note refusal reason) trivial
      | denied required =>
          refine iff_of_true (Exchange.neverCut_error rmcp note rfl (by decide) ?_) trivial
          exact (by decide : _ ≤ 3074).trans (Nat.le_add_left _ _)

def longId (i : Nat) : String := String.ofList (List.replicate 120 'a' ++ hexPad 5 i)

theorem longId_injective : Function.Injective longId := by
  intro i j same
  have digits := List.append_cancel_left (String.ofList_injective same)
  rw [← hexNumber_hexPad 5 i, digits, hexNumber_hexPad]

theorem mem_longId {i : Nat} {c : Char} (mem : c ∈ (longId i).toList) : c.isAlphanum := by
  rw [longId, String.toList_ofList] at mem
  rcases List.mem_append.mp mem with mem | mem
  · rw [List.eq_of_mem_replicate mem]
    decide
  · exact mem_hexPad mem

theorem utf8ByteSize_longId {i : Nat} (small : i < 65536) :
    120 ≤ (longId i).utf8ByteSize ∧ (longId i).utf8ByteSize ≤ 125 := by
  have digits : (Nat.toDigits 16 i).length ≤ 4 := by
    rw [Nat.length_toDigits_le_iff (by decide) (by decide)]
    exact small
  have ascii : Ascii (List.replicate 120 'a' ++ hexPad 5 i) := fun c mem =>
    ascii_of_isAlphanum (@mem_longId i c (by rwa [longId, String.toList_ofList]))
  rw [← length_utf8, longId, utf8_ascii ascii, List.length_map, List.length_append,
    List.length_replicate, hexPad, List.length_append, List.length_replicate]
  omega

theorem safe_longId {i : Nat} (small : i < 65536) : Storage.isSafeInstanceId (longId i) = true := by
  have size := utf8ByteSize_longId small
  have plain (c : Char) (odd : c.isAlphanum = false) : (longId i).toList.contains c = false := by
    rw [List.contains_eq_mem, decide_eq_false_iff_not]
    intro mem
    rw [mem_longId mem] at odd
    cases odd
  have dotless : '.' ∉ (longId i).toList := by
    have := plain '.' (by decide)
    rwa [List.contains_eq_mem, decide_eq_false_iff_not] at this
  have nonempty : longId i ≠ "" := fun empty => by
    rw [empty] at size
    exact absurd size.1 (by decide)
  have single : longId i ≠ "*" := fun star => by
    rw [star] at size
    exact absurd size.1 (by decide)
  have dots : ((longId i).toList.tails.any fun rest => ['.', '.'].isPrefixOf rest) = false := by
    rw [List.any_eq_false]
    intro rest mem dotted
    have begins := List.isPrefixOf_iff_prefix.mp dotted
    exact dotless (((List.mem_tails _ _).mp mem).subset (begins.subset List.mem_cons_self))
  have first : (longId i).toList.head? ≠ some '.' := fun head =>
    dotless (List.mem_of_mem_head? head)
  have short : (longId i).utf8ByteSize ≤ Storage.MAX_INSTANCE_ID_BYTES := size.2.trans (by decide)
  simp only [Storage.isSafeInstanceId, plain '/' (by decide), plain '\\' (by decide),
    plain '\x00' (by decide), dots, nonempty, single, first, short, ne_eq, not_false_eq_true,
    decide_true, Bool.not_false, Bool.and_self]

def crowded : List Engine.InstanceHandle :=
  (List.range 40000).map fun i => ⟨longId i, "com.example.hub", i⟩

theorem runningIds_crowded : runningIds "com.example.hub" crowded = (List.range 40000).map longId := by
  have all : crowded.filter (·.pluginId = "com.example.hub") = crowded := by
    refine List.filter_eq_self.mpr fun handle mem => ?_
    obtain ⟨i, _, rfl⟩ := List.mem_map.mp mem
    exact decide_eq_true rfl
  rw [runningIds, all, crowded, List.map_map]
  rfl

theorem crowded_bytes : 40000 * 244 ≤ (((List.range 40000).map longId).map twice).sum := by
  have each : ∀ n ∈ ((List.range 40000).map longId).map twice, 244 ≤ n := by
    intro n mem
    obtain ⟨s, listed, rfl⟩ := List.mem_map.mp mem
    obtain ⟨i, within, rfl⟩ := List.mem_map.mp listed
    have size := utf8ByteSize_longId ((List.mem_range.mp within).trans (by decide))
    have text := length_lt_quoted (utf8 (longId i))
    rw [length_utf8, ← quote] at text
    rw [twice]
    omega
  have := List.card_nsmul_le_sum _ 244 each
  rwa [List.length_map, List.length_map, List.length_range, smul_eq_mul] at this

def uninstallRequest : Request where
  id := .number 1
  texts := ["plugins.uninstall", "com.example.hub"]
  body := 1024
  carries := by decide
  admitted := by decide

def uninstallCrowded : Exchange uninstallRequest :=
  .call (some ⟨1, "plugins.uninstall", by decide⟩)
    (.running "com.example.hub" (by decide) crowded
      (fun handle mem => by
        obtain ⟨i, here, rfl⟩ := List.mem_map.mp mem
        exact safe_longId ((List.mem_range.mp here).trans (by decide)))
      (by
        rw [crowded, List.map_map]
        exact List.nodup_range.map longId_injective)
      ⟨⟨longId 0, "com.example.hub", 0⟩, List.mem_map.mpr ⟨0, by simp, rfl⟩, rfl⟩)

def plainCrates : TextCrates where
  number := fun _ => [48]
  fromSlice := fun _ => none
  printable := fun _ => by simp [Printable]
  short := fun _ => by simp
  rereads := fun _ _ _ read => by cases read
  base64 := fun _ => []
  alphabet := fun _ _ mem => by cases mem

def jsonRpcMember : Response → String × List UInt8
  | .contents uri body mimeType =>
      ("result", object [("contents", 91 :: (object (("uri", quote uri) ::
        (mimeType.toList.map fun mime => ("mimeType", quote mime)) ++ [("text", quoted body)]) ++
          [93]))])
  | .result text structuredContent isError metadata =>
      ("result", object (("content", 91 :: (object [("type", quote "text"), ("text", quoted text)] ++
          [93])) ::
        (structuredContent.toList.map fun value => ("structuredContent", render plainCrates value)) ++
        ("isError", utf8 (if isError then "true" else "false")) ::
        metadata.toList.map fun value => ("_meta", render plainCrates value)))
  | .error code message data =>
      ("error", object (("code", utf8 (String.ofList (integer code))) :: ("message", quote message) ::
        data.toList.map fun value => ("data", render plainCrates value)))

def plainEnvelope : Response → Nat
  | .contents _ _ mimeType => 72 + 12 * mimeType.isSome.toNat
  | .result _ structuredContent isError metadata =>
      94 - isError.toNat + 21 * structuredContent.isSome.toNat + 9 * metadata.isSome.toNat
  | .error _ _ data => 60 + 8 * data.isSome.toNat

def plainFrames (id : RequestId) (response : Response) : List (List UInt8) :=
  [utf8 "data: ", object [("jsonrpc", quote "2.0"), ("id", id.text), jsonRpcMember response],
    utf8 "\n\n"]

theorem length_plainFrames (id : RequestId) (response : Response) :
    ((plainFrames id response).map List.length).sum =
      id.text.length + (response.shipped plainCrates).length + plainEnvelope response := by
  have framing : (utf8 "data: ").length = 6 ∧ (utf8 "\n\n").length = 2 ∧
      (utf8 "true").length = 4 ∧ (utf8 "false").length = 5 := by decide
  have names : (quote "jsonrpc").length = 9 ∧ (quote "2.0").length = 5 ∧ (quote "id").length = 4 ∧
      (quote "result").length = 8 ∧ (quote "error").length = 7 ∧ (quote "contents").length = 10 ∧
      (quote "uri").length = 5 ∧ (quote "mimeType").length = 10 ∧ (quote "text").length = 6 ∧
      (quote "content").length = 9 ∧ (quote "type").length = 6 ∧
      (quote "structuredContent").length = 19 ∧ (quote "isError").length = 9 ∧
      (quote "_meta").length = 7 ∧ (quote "code").length = 6 ∧ (quote "message").length = 9 ∧
      (quote "data").length = 6 := by decide
  cases response with
  | contents uri body mimeType =>
      cases mimeType <;>
        simp [plainFrames, jsonRpcMember, plainEnvelope, Response.shipped, length_object, framing,
          names] <;> omega
  | result text structuredContent isError metadata =>
      cases structuredContent <;> cases metadata <;> cases isError <;>
        simp [plainFrames, jsonRpcMember, plainEnvelope, Response.shipped, length_object, framing,
          names] <;> omega
  | error code message data =>
      cases data <;>
        simp [plainFrames, jsonRpcMember, plainEnvelope, Response.shipped, length_object, framing,
          names] <;> omega

theorem plainEnvelope_le (response : Response) :
    plainEnvelope response ≤ BLOB_ENVELOPE_OVERHEAD_BYTES := by
  have bit (b : Bool) : b.toNat ≤ 1 := b.toNat_le
  cases response with
  | contents uri body mimeType =>
      have := bit mimeType.isSome
      rw [plainEnvelope, BLOB_ENVELOPE_OVERHEAD_BYTES]
      omega
  | result text structuredContent isError metadata =>
      have := bit structuredContent.isSome
      have := bit metadata.isSome
      rw [plainEnvelope, BLOB_ENVELOPE_OVERHEAD_BYTES]
      omega
  | error code message data =>
      have := bit data.isSome
      rw [plainEnvelope, BLOB_ENVELOPE_OVERHEAD_BYTES]
      omega

def plainRmcp : Rmcp plainCrates := ⟨plainFrames, plainEnvelope, length_plainFrames, plainEnvelope_le⟩

theorem uninstall_of_crowded_is_cut : ∃ (crates : TextCrates) (rmcp : Rmcp crates) (request : Request)
    (exchange : Exchange request),
    exchange.audited crates = (200, "allow") ∧ ¬ exchange.NeverCut rmcp := by
  refine ⟨plainCrates, plainRmcp, uninstallRequest, uninstallCrowded, rfl, fun whole => ?_⟩
  have fits := (Exchange.neverCut_running_iff plainRmcp _ _ _ _ _).mp whole
  have large := crowded_bytes
  rw [← runningIds_crowded] at large
  simp only [Exchange.Fits, MAX_RESPONSE_BODY_BYTES] at fits
  omega

end OxidHome.Api.Mcp

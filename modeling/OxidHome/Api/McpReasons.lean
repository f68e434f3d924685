import OxidHome.Api.JsonText

/-!
# Reasons

The texts with which `api/mcp/resources.rs` and `api/mcp/tools.rs` refuse. Each is a text of the
host around texts of the request, as they came, percent-decoded, or in an error of `serde` that
shows one with `Debug`.
-/

namespace OxidHome.Api.Mcp
open Library

def MAX_REQUEST_BODY_BYTES : Nat := 1024 * 1024

inductive RequestId where
  | number (n : Int)
  | string (s : String)

def RequestId.text : RequestId → List UInt8
  | .number n => utf8 (String.ofList (integer n))
  | .string s => quote s

def textBytes (texts : List String) : Nat := (texts.map fun s => (quote s).length).sum

theorem textBytes_of_mem {texts : List String} {s : String} (mem : s ∈ texts) :
    (quote s).length ≤ textBytes texts :=
  List.single_le_sum (fun _ _ => Nat.zero_le _) _ (List.mem_map_of_mem mem)

/-- An admitted request: its id and its texts, the uri of a read or the tool's name and the texts of
its arguments. No JSON is shorter than what `serde_json` writes for the texts that it reads there. -/
structure Request where
  id : RequestId
  texts : List String
  body : Nat
  carries : id.text.length + textBytes texts ≤ body
  admitted : body ≤ MAX_REQUEST_BODY_BYTES

inductive Hole where
  | lit (text : String)
  | num
  | arg

open Hole

def DURATION_ERRORS : List (List Hole) := [
  [lit "empty duration"],
  [lit "`", arg, lit "` — unknown unit `", arg, lit "`; expected s|m|h|d"],
  [lit "`", arg, lit "` — expected digits followed by s|m|h|d"],
  [lit "`", arg, lit "` — duration must be non-negative"],
  [lit "`", arg, lit "` — duration overflows i64 milliseconds"]]

def PERCENT_ERRORS : List (List Hole) := [
  [lit "truncated %-escape"],
  [lit "invalid hex digit `", arg, lit "` in %-escape"],
  [lit "decoded bytes are not valid UTF-8: ", arg]]

def QUERY_ERRORS : List (List Hole) := [
  [lit "malformed URI query: ", arg],
  [lit "unknown filter `", arg, lit "`; allowed: after_id, before_id, device, instance, limit, ",
    lit "plugin, since, topic, topic_prefix, until"],
  [lit "unknown filter `", arg, lit "`; allowed: device, instance, level, limit, plugin, since, ",
    lit "span_path_prefix, target, target_prefix, until"],
  [lit "invalid `limit` value `", arg, lit "`; expected unsigned integer"],
  [lit "invalid `after_id` value `", arg, lit "`; expected unsigned integer"],
  [lit "invalid `before_id` value `", arg, lit "`; expected unsigned integer"],
  [lit "unknown level `", arg, lit "`; expected Trace|Debug|Info|Warn|Error"]] ++
  DURATION_ERRORS.map (lit "invalid `since` value: " :: ·) ++
  DURATION_ERRORS.map (lit "invalid `until` value: " :: ·)

def READ_REASONS : List (List Hole) := [
  [lit "URI ", arg, lit " does not use the oxidhome:// scheme"],
  [lit "blobs URI must be oxidhome://blobs/<instance_id>/<name>; got ", arg],
  [lit "no MCP resource is registered for ", arg],
  [lit "device ", arg, lit " is not registered with the host"],
  [lit "plugin ", arg, lit " is not installed and has no running instances"],
  [lit "instance `", arg, lit "` is not running"],
  [lit "instance `", arg, lit "` is not yet loaded; retry once its state is `Running`"],
  [lit "blob not found: name `", arg, lit "` for instance `", arg, lit "` (installation `", arg,
    lit "`)"],
  [lit "blob name `", arg, lit "` for instance `", arg, lit "` (installation `", arg, lit "`) is ",
    num, lit " bytes; the MCP inline cap is ", num,
    lit ". Reduce the blob size or fetch it via a plugin-owned tool that streams it."],
  [lit "MCP blob concurrency cap reached (4 in-flight reads); retry shortly"],
  [lit "MCP store-query queue saturated; retry shortly"],
  [lit "failed to serialize ", arg],
  [lit "event query failed"], [lit "event query task panicked"],
  [lit "log query failed"], [lit "log query task panicked"],
  [lit "status db-ping task panicked"],
  [lit "blob concurrency gate closed"], [lit "blob read failed"], [lit "blob read task panicked"]] ++
  QUERY_ERRORS ++
  PERCENT_ERRORS.map ([lit "malformed `instance_id` segment `", arg, lit "`: "] ++ ·) ++
  PERCENT_ERRORS.map ([lit "malformed `name` segment `", arg, lit "`: "] ++ ·)

def CALL_REASONS : List (List Hole) := [
  [lit "no MCP tool named `", arg, lit "`"],
  [lit "MCP tool `", arg, lit "` routed without a body impl"],
  [arg, lit " arguments do not match the input schema: ", arg],
  [lit "device.send_command requires `device_id`, `capability`, and `action`"],
  [arg, lit " requires a `plugin_id` argument"],
  [lit "plugins.install requires a `source_dir` argument"],
  [lit "`plugin_id` must not be empty"],
  [lit "`instance_id`, when supplied, must not be empty"],
  [lit "`instance_id` `", arg, lit "` is not a safe filesystem segment"],
  [lit "`source_dir` must not be empty"],
  [lit "`source_dir` must be an absolute path; got `", arg, lit "`"],
  [lit "invalid `after_id` value `", num, lit "`; must be <= 9223372036854775807"],
  [lit "invalid `before_id` value `", num, lit "`; must be <= 9223372036854775807"],
  [lit "device `", arg, lit "` not found or not running"],
  [lit "plugin `", arg, lit "` is not installed and has no running instances"],
  [lit "MCP store-query queue saturated (8 in-flight); retry shortly"],
  [lit "device command dispatch failed"], [lit "failed to serialise command result"],
  [lit "log query failed"], [lit "log query task panicked"],
  [lit "event query failed"], [lit "event query task panicked"],
  [lit "uninstall failed; see server logs"], [lit "uninstall task panicked"],
  [lit "start failed; see server logs for details"],
  [lit "instance failed to reach Running; see server logs for details"],
  [lit "install task panicked"], [lit "install failed; see server logs for details"],
  [lit "failed to re-parse ", arg], [lit "failed to serialize ", arg]] ++
  DURATION_ERRORS.map (lit "invalid `since` value: " :: ·) ++
  DURATION_ERRORS.map (lit "invalid `until` value: " :: ·)

def fill : List Hole → List UInt64 → List String → String
  | [], _, _ => ""
  | lit text :: rest, numbers, args => text ++ fill rest numbers args
  | num :: rest, n :: numbers, args =>
      String.ofList (integer n.toNat) ++ fill rest numbers args
  | num :: rest, [], args => fill rest [] args
  | arg :: rest, numbers, a :: args => a ++ fill rest numbers args
  | arg :: rest, numbers, [] => fill rest numbers []

/-- `Debug` writes a DEL in six bytes, the first of which is a backslash. What else is in the holes,
a tool's name, an installation's uuid, the words of an error of `serde`, is short. -/
structure Reason (request : Request) where
  template : List Hole
  listed : template ∈ READ_REASONS ++ CALL_REASONS
  numbers : List UInt64
  args : List String
  drawn : textBytes args ≤ 7 * textBytes request.texts + 1024

def Reason.text {request : Request} (reason : Reason request) : String :=
  fill reason.template reason.numbers reason.args

def ownBytes : List Hole → Nat
  | [] => 0
  | lit text :: rest => 6 * text.utf8ByteSize + ownBytes rest
  | num :: rest => 20 + ownBytes rest
  | arg :: rest => ownBytes rest

theorem ownBytes_le : ∀ template ∈ READ_REASONS ++ CALL_REASONS, ownBytes template ≤ 2048 := by
  decide +kernel

theorem length_escape_fill (template : List Hole) (numbers : List UInt64) (args : List String) :
    (escape (utf8 (fill template numbers args))).length ≤ ownBytes template + textBytes args := by
  induction template generalizing numbers args with
  | nil => exact Nat.zero_le _
  | cons hole rest ih =>
      cases hole with
      | lit text =>
          have own := length_escape_le (utf8 text)
          have := ih numbers args
          rw [fill, utf8_append, escape_append, List.length_append, ownBytes]
          rw [length_utf8] at own
          omega
      | num =>
          cases numbers with
          | nil =>
              have := ih [] args
              rw [fill, ownBytes]
              omega
          | cons n numbers =>
              have := ih numbers args
              have digits := length_integer_le n.toNat_lt
              have plain := length_escape_of_printable (printable_integer n.toNat)
              rw [marks_integer, length_utf8_integer] at plain
              rw [fill, utf8_append, escape_append, List.length_append, ownBytes]
              omega
      | arg =>
          cases args with
          | nil =>
              have := ih numbers []
              rw [fill, ownBytes]
              exact this
          | cons a args =>
              have := ih numbers args
              have total : textBytes (a :: args) = (quote a).length + textBytes args := rfl
              have own := length_quoted (utf8 a)
              rw [fill, utf8_append, escape_append, List.length_append, ownBytes, total, quote, own]
              omega

end OxidHome.Api.Mcp

import OxidHome.Api.McpResponse
import OxidHome.Host.Histories
import OxidHome.Installed.Registry

/-!
# Outcomes of the MCP mount

The functions that refuse a read or a call, and `execute_command` over a run of the host: whatever
they answer is the outcome of a path.
-/

namespace OxidHome.Api.Mcp
open Wit Library Projection

variable {request : Request}

/-! ## Texts out of a request -/

/-- A text of the request, percent-decoded perhaps, or a few words of the host. -/
def Drawn (request : Request) (text : String) : Prop :=
  (quote text).length ≤ 2 * textBytes request.texts + 340

theorem drawn_of_mem {text : String} (mem : text ∈ request.texts) : Drawn request text := by
  have := textBytes_of_mem mem
  rw [Drawn]
  omega

theorem length_quote_within {part whole : String} (within : part.toList <:+: whole.toList) :
    (quote part).length ≤ (quote whole).length := by
  obtain ⟨before, after, same⟩ := within
  have parts : whole = String.ofList before ++ part ++ String.ofList after := by
    apply String.toList_injective
    simp only [String.toList_append, String.toList_ofList, same]
  rw [parts, quote, quote, length_quoted, length_quoted, utf8_append, utf8_append, escape_append,
    escape_append, List.length_append, List.length_append]
  omega

theorem Drawn.part {part whole : String} (drawn : Drawn request whole)
    (within : part.toList <:+: whole.toList) : Drawn request part :=
  (length_quote_within within).trans drawn

theorem length_escape_decodes {raw out : List UInt8} (decodes : Decodes raw out) :
    (escape out).length ≤ 2 * (escape raw).length := by
  induction decodes with
  | nil => exact Nat.zero_le _
  | literal _ _ ih =>
      rw [length_escape_cons, length_escape_cons]
      omega
  | @escape first second b raw out _ _ _ ih =>
      have own := length_escapeByte_le b
      have percent := length_escapeByte_pos '%'.toUInt8
      have high := length_escapeByte_pos first
      have low := length_escapeByte_pos second
      rw [length_escape_cons, length_escape_cons, length_escape_cons, length_escape_cons]
      omega

theorem drawn_decoded {uri raw text : String} (named : uri ∈ request.texts)
    (within : raw.toList <:+: uri.toList) (decoded : percentDecodeSegment raw = .ok text) :
    Drawn request text := by
  have carried := (length_quote_within within).trans (textBytes_of_mem named)
  have grown := length_escape_decodes (percentDecodeSegment_eq_ok.mp decoded)
  rw [quote, length_quoted] at carried
  rw [Drawn, quote, length_quoted]
  omega

theorem textBytes_drawn {args : List String} (drawn : ∀ text ∈ args, Drawn request text) :
    textBytes args ≤ args.length * (2 * textBytes request.texts + 340) := by
  have := List.sum_le_card_nsmul (args.map fun text => (quote text).length)
    (2 * textBytes request.texts + 340) fun n mem => by
      obtain ⟨text, here, rfl⟩ := List.mem_map.mp mem
      exact drawn text here
  rwa [List.length_map, smul_eq_mul] at this

/-- No template takes more than three texts of a request. -/
def Reason.of (template : List Hole) (listed : template ∈ READ_REASONS ++ CALL_REASONS)
    (numbers : List UInt64) (args : List String) (drawn : ∀ text ∈ args, Drawn request text)
    (few : args.length ≤ 3) : Reason request where
  template := template
  listed := listed
  numbers := numbers
  args := args
  drawn := by
    have total := textBytes_drawn drawn
    have := Nat.mul_le_mul_right (2 * textBytes request.texts + 340) few
    omega

theorem fill_before (before text : String) : fill [.lit before, .arg] [] [text] = before ++ text := by
  simp only [fill, String.append_empty]

theorem fill_around (before after text : String) :
    fill [.lit before, .arg, .lit after] [] [text] = before ++ text ++ after := by
  simp only [fill, String.append_empty, String.append_assoc]

/-! ## Durations -/

/-- `i64::from_str` -/
def parseI64 : List Char → Option Int
  | ['-'] => none
  | '-' :: digits => (parseDigits (2 ^ 63 + 1) 0 digits).map fun n => -Int.ofNat n
  | num => (parseUnsigned (2 ^ 63) num).map Int.ofNat

def perUnitMs : Char → Option Int
  | 's' => some 1000
  | 'm' => some (60 * 1000)
  | 'h' => some (60 * 60 * 1000)
  | 'd' => some (24 * 60 * 60 * 1000)
  | _ => none

def unknownUnit (raw : String) (unit : Char) : String :=
  "`" ++ raw ++ "` — unknown unit `" ++ String.ofList [unit] ++ "`; expected s|m|h|d"

def parseDurationMs (raw : String) : Except String Int :=
  match raw.toList.getLast? with
  | none => .error "empty duration"
  | some unit =>
      if 128 ≤ unit.toNat then .error (unknownUnit raw unit)
      else match parseI64 raw.toList.dropLast with
      | none => .error ("`" ++ raw ++ "` — expected digits followed by s|m|h|d")
      | some n =>
      if n < 0 then .error ("`" ++ raw ++ "` — duration must be non-negative")
      else match perUnitMs unit with
      | none => .error (unknownUnit raw unit)
      | some perUnit =>
      if n * perUnit < 2 ^ 63 then .ok (n * perUnit)
      else .error ("`" ++ raw ++ "` — duration overflows i64 milliseconds")

/-- `parse_since`, and what `logs.query` and `events.history` do with the same two arguments. -/
def parseSince (nowMs : Int) (key : String) : Option String → Except String (Option Int)
  | none => .ok none
  | some raw =>
      match parseDurationMs raw with
      | .error text => .error ("invalid `" ++ key ++ "` value: " ++ text)
      | .ok ms => .ok (some (max (-2 ^ 63) (nowMs - ms)))

/-- One of `DURATION_ERRORS` around parts of what was read. -/
def DurationError (raw text : String) : Prop :=
  ∃ template ∈ DURATION_ERRORS, ∃ args : List String, args.length ≤ 2 ∧
    (∀ arg ∈ args, arg.toList <:+: raw.toList) ∧ text = fill template [] args

theorem parseDurationMs_error {raw text : String} (refused : parseDurationMs raw = .error text) :
    DurationError raw text := by
  unfold parseDurationMs at refused
  split at refused
  · cases refused
    exact ⟨_, .head _, [], by simp, by simp, rfl⟩
  next unit last =>
  have unknown (same : unknownUnit raw unit = text) : DurationError raw text := by
    refine ⟨_, .tail _ (.head _), [raw, String.ofList [unit]], by simp, ?_, ?_⟩
    · simp only [List.forall_mem_cons, List.not_mem_nil, false_implies, implies_true, and_true,
        String.toList_ofList, List.singleton_infix_iff]
      exact ⟨List.infix_rfl, List.mem_of_getLast? last⟩
    · rw [← same]
      simp only [unknownUnit, fill, String.append_assoc, String.append_empty]
  have named (after : String) (listed : [.lit "`", .arg, .lit after] ∈ DURATION_ERRORS)
      (same : "`" ++ raw ++ after = text) : DurationError raw text :=
    ⟨_, listed, [raw], by simp, by simp, by rw [fill_around, same]⟩
  split_ifs at refused with wide
  · exact unknown (Except.error.inj refused)
  split at refused
  · exact named _ (.tail _ (.tail _ (.head _))) (Except.error.inj refused)
  split_ifs at refused with negative
  · exact named _ (.tail _ (.tail _ (.tail _ (.head _)))) (Except.error.inj refused)
  split at refused
  · exact unknown (Except.error.inj refused)
  split_ifs at refused with small
  exact named _ (.tail _ (.tail _ (.tail _ (.tail _ (.head _))))) (Except.error.inj refused)

theorem listed_duration {template : List Hole} (listed : template ∈ DURATION_ERRORS) :
    .lit "invalid `since` value: " :: template ∈ READ_REASONS ++ CALL_REASONS ∧
      .lit "invalid `until` value: " :: template ∈ READ_REASONS ++ CALL_REASONS := by
  constructor
  · refine List.mem_append_right _ (List.mem_append_left _ (List.mem_append_right _ ?_))
    exact List.mem_map_of_mem listed
  · refine List.mem_append_right _ (List.mem_append_right _ ?_)
    exact List.mem_map_of_mem listed

theorem parseSince_reason {nowMs : Int} {key raw text : String} (drawn : Drawn request raw)
    (known : key = "since" ∨ key = "until") (refused : parseSince nowMs key (some raw) = .error text) :
    ∃ reason : Reason request, reason.text = text := by
  rw [parseSince] at refused
  split at refused
  · next words failed =>
      cases refused
      obtain ⟨template, listed, args, few, parts, rfl⟩ := parseDurationMs_error failed
      have drawn (arg : String) (mem : arg ∈ args) : Drawn request arg := drawn.part (parts arg mem)
      rcases known with rfl | rfl
      · exact ⟨.of _ (listed_duration listed).1 [] args drawn (few.trans (by decide)), rfl⟩
      · exact ⟨.of _ (listed_duration listed).2 [] args drawn (few.trans (by decide)), rfl⟩
  · cases refused

/-! ## Reads -/

variable (crates : TextCrates)

theorem routeOf_terminal {uri head family : String} {tail : Option (List Char)}
    {outcome : ReadOutcome} (routed : routeOf uri head tail = some (.terminal family outcome)) :
    outcome = .notFound ("blobs URI must be oxidhome://blobs/<instance_id>/<name>; got " ++ uri) := by
  unfold routeOf at routed
  split at routed
  case h_8 =>
    dsimp only at routed
    split at routed
    · split_ifs at routed
      · cases routed
      · cases routed
        rfl
    · cases routed
      rfl
  case h_2 | h_4 =>
    split_ifs at routed
    cases routed
  all_goals cases routed

def routedTexts : Kind → List String
  | .devicesDetail id | .pluginsDetail id => [id]
  | .blob instanceId name => [instanceId, name]
  | .devicesList | .pluginsList | .events | .logs | .status => []

theorem routeOf_texts {uri head family required : String} {tail : Option (List Char)} {kind : Kind}
    (routed : routeOf uri head tail = some (.dispatch family required kind)) :
    ∀ text ∈ routedTexts kind, ∃ whole ∈ tail, text.toList <:+: whole := by
  unfold routeOf at routed
  split at routed
  case h_8 tail =>
    dsimp only at routed
    split at routed
    · next instanceId name cut =>
        split_ifs at routed
        · cases routed
          obtain ⟨-, rfl⟩ := splitOnce_eq_some.mp cut
          simp only [routedTexts, List.forall_mem_cons, List.not_mem_nil, false_implies, implies_true,
            and_true, Option.mem_some_iff, exists_eq_left', String.toList_ofList]
          exact ⟨(List.prefix_append _ _).isInfix,
            ((List.suffix_cons _ _).trans (List.suffix_append _ _)).isInfix⟩
        · cases routed
    · cases routed
  case h_2 | h_4 =>
    split_ifs at routed
    cases routed
    simp [routedTexts]
  all_goals cases routed <;> simp [routedTexts]

theorem resolveRoute_terminal {uri family : String} {outcome : ReadOutcome}
    (resolved : resolveRoute uri = .terminal family outcome) :
    ∃ template ∈ READ_REASONS, outcome = .notFound (fill template [] [uri]) := by
  unfold resolveRoute at resolved
  split at resolved
  · cases resolved
    exact ⟨[.lit "URI ", .arg, .lit " does not use the oxidhome:// scheme"], by simp [READ_REASONS],
      by rw [fill_around]⟩
  · dsimp only at resolved
    generalize routed : routeOf uri _ _ = route at resolved
    cases route with
    | none =>
        cases resolved
        exact ⟨[.lit "no MCP resource is registered for ", .arg], by simp [READ_REASONS],
          by rw [fill_before]⟩
    | some route =>
        rw [Option.getD_some] at resolved
        rw [resolved] at routed
        rw [routeOf_terminal routed]
        exact ⟨[.lit "blobs URI must be oxidhome://blobs/<instance_id>/<name>; got ", .arg],
          by simp [READ_REASONS], by rw [fill_before]⟩

theorem notFound_path {template : List Hole} {text : String} (listed : template ∈ READ_REASONS)
    (drawn : Drawn request text) :
    ∃ path : ReadPath request, path.outcome crates = .notFound (fill template [] [text]) := by
  refine ⟨.refused .notFound (.of template (List.mem_append_left _ listed) [] [text] ?_ (by simp)),
    rfl⟩
  simpa using drawn

theorem terminal_path {uri family : String} {outcome : ReadOutcome} (named : uri ∈ request.texts)
    (resolved : resolveRoute uri = .terminal family outcome) :
    ∃ path : ReadPath request, path.outcome crates = outcome := by
  obtain ⟨template, listed, rfl⟩ := resolveRoute_terminal resolved
  exact notFound_path crates listed (drawn_of_mem named)

theorem resolveRoute_texts {uri family required : String} {kind : Kind}
    (resolved : resolveRoute uri = .dispatch family required kind) :
    ∀ text ∈ routedTexts kind, text.toList <:+: uri.toList := by
  unfold resolveRoute at resolved
  split at resolved
  · cases resolved
  next rest cut =>
  obtain ⟨scheme, same, -⟩ := List.dropPrefix?_eq_some_iff.mp cut
  dsimp only at resolved
  generalize routed : routeOf uri _ _ = route at resolved
  cases route with
  | none => cases resolved
  | some route =>
      rw [Option.getD_some] at resolved
      rw [resolved] at routed
      intro text mem
      obtain ⟨whole, tail, within⟩ := routeOf_texts routed text mem
      rw [same]
      refine within.trans ((?_ : whole <:+: rest).trans (List.suffix_append _ _).isInfix)
      split at tail
      · next parts found =>
          cases tail
          have path := (splitOnce_eq_some.mp found).2
          have cut : parts.2 <:+ parts.1 ++ '/' :: parts.2 :=
            (List.suffix_cons _ _).trans (List.suffix_append _ _)
          split at path
          · next asked split =>
              rw [(splitOnce_eq_some.mp split).2, path]
              exact cut.isInfix.trans (List.prefix_append _ _).isInfix
          · rw [path]
            exact cut.isInfix
      · cases tail

/-- The start of `blob_read`. -/
def blobSegments (utf8Error : List UInt8 → String) (instanceIdRaw nameRaw : String) :
    Except ReadOutcome (String × String) := do
  let instanceId ← (percentDecodeSegment instanceIdRaw).mapError fun err => .invalidParams
    ("malformed `instance_id` segment `" ++ instanceIdRaw ++ "`: " ++ err.display utf8Error)
  let name ← (percentDecodeSegment nameRaw).mapError fun err => .invalidParams
    ("malformed `name` segment `" ++ nameRaw ++ "`: " ++ err.display utf8Error)
  .ok (instanceId, name)

theorem blobSegments_ok {utf8Error : List UInt8 → String}
    {instanceIdRaw nameRaw instanceId name : String}
    (read : blobSegments utf8Error instanceIdRaw nameRaw = .ok (instanceId, name)) :
    percentDecodeSegment instanceIdRaw = .ok instanceId ∧ percentDecodeSegment nameRaw = .ok name := by
  unfold blobSegments at read
  obtain ⟨_, first, read⟩ := bind_eq_ok.mp read
  obtain ⟨_, second, read⟩ := bind_eq_ok.mp read
  cases read
  exact ⟨mapError_eq_ok.mp first, mapError_eq_ok.mp second⟩

theorem length_escapeAscii (b : UInt8) : (quote (escapeAscii b)).length ≤ 8 := by
  have all : ∀ n : Fin 256, (quote (escapeAscii (UInt8.ofNat n))).length ≤ 8 := by decide +kernel
  have here := all ⟨b.toNat, b.toNat_lt⟩
  rwa [UInt8.ofNat_toNat] at here

theorem display_eq_fill (utf8Error : List UInt8 → String)
    (worded : ∀ bytes, (quote (utf8Error bytes)).length ≤ 340) (err : SegmentError) :
    ∃ template ∈ PERCENT_ERRORS, ∃ args : List String, args.length ≤ 1 ∧
      (∀ arg ∈ args, Drawn request arg) ∧ err.display utf8Error = fill template [] args := by
  cases err with
  | truncated => exact ⟨_, .head _, [], by simp, by simp, rfl⟩
  | invalidHexDigit digit =>
      refine ⟨_, .tail _ (.head _), [escapeAscii digit], by simp, ?_, (fill_around _ _ _).symm⟩
      have := length_escapeAscii digit
      simp only [List.forall_mem_singleton, Drawn]
      omega
  | notUtf8 decoded =>
      refine ⟨_, .tail _ (.tail _ (.head _)), [utf8Error decoded], by simp, ?_,
        (fill_before _ _).symm⟩
      have := worded decoded
      simp only [List.forall_mem_singleton, Drawn]
      omega

theorem segment_reason {utf8Error : List UInt8 → String}
    (worded : ∀ bytes, (quote (utf8Error bytes)).length ≤ 340) {before raw : String}
    (listed : ∀ template ∈ PERCENT_ERRORS,
      [.lit before, .arg, .lit "`: "] ++ template ∈ READ_REASONS ++ CALL_REASONS)
    (drawn : Drawn request raw) (err : SegmentError) :
    ∃ reason : Reason request, reason.text = before ++ raw ++ "`: " ++ err.display utf8Error := by
  obtain ⟨template, mem, args, few, short, words⟩ := @display_eq_fill request utf8Error worded err
  refine ⟨.of _ (listed template mem) [] (raw :: args) (List.forall_mem_cons.mpr ⟨drawn, short⟩)
    (by rw [List.length_cons]; omega), ?_⟩
  rw [words, Reason.text, Reason.of]
  simp only [List.cons_append, List.nil_append, fill, String.append_assoc]

theorem listed_segment {template : List Hole} (mem : template ∈ PERCENT_ERRORS) :
    [.lit "malformed `instance_id` segment `", .arg, .lit "`: "] ++ template ∈
        READ_REASONS ++ CALL_REASONS ∧
      [.lit "malformed `name` segment `", .arg, .lit "`: "] ++ template ∈
        READ_REASONS ++ CALL_REASONS := by
  constructor
  · refine List.mem_append_left _ (List.mem_append_left _ (List.mem_append_right _ ?_))
    exact List.mem_map_of_mem mem
  · refine List.mem_append_left _ (List.mem_append_right _ ?_)
    exact List.mem_map_of_mem mem

theorem blobSegments_path {uri instanceIdRaw nameRaw : String} {outcome : ReadOutcome}
    {utf8Error : List UInt8 → String} (worded : ∀ bytes, (quote (utf8Error bytes)).length ≤ 340)
    (named : uri ∈ request.texts) (routed : ∀ text ∈ [instanceIdRaw, nameRaw],
      text.toList <:+: uri.toList)
    (refused : blobSegments utf8Error instanceIdRaw nameRaw = .error outcome) :
    ∃ path : ReadPath request, path.outcome crates = outcome := by
  have drawn (text : String) (mem : text ∈ [instanceIdRaw, nameRaw]) : Drawn request text :=
    (drawn_of_mem named).part (routed text mem)
  unfold blobSegments at refused
  cases instance_ : percentDecodeSegment instanceIdRaw with
  | error err =>
      rw [instance_] at refused
      cases refused
      obtain ⟨reason, same⟩ := segment_reason worded (fun _ mem => (listed_segment mem).1)
        (drawn _ (.head _)) err
      exact ⟨.refused .invalidParams reason, congrArg _ same⟩
  | ok instanceId =>
      cases name : percentDecodeSegment nameRaw with
      | error err =>
          rw [instance_, name] at refused
          cases refused
          obtain ⟨reason, same⟩ := segment_reason worded (fun _ mem => (listed_segment mem).2)
            (drawn _ (.tail _ (.head _))) err
          exact ⟨.refused .invalidParams reason, congrArg _ same⟩
      | ok name' =>
          rw [instance_, name] at refused
          cases refused

/-- The answer to a routed read where the host has nothing of what the uri names. -/
def missing (utf8Error : List UInt8 → String) : Kind → Option ReadOutcome
  | .devicesDetail id => some (.notFound ("device " ++ id ++ " is not registered with the host"))
  | .pluginsDetail id =>
      some (.notFound ("plugin " ++ id ++ " is not installed and has no running instances"))
  | .blob instanceIdRaw nameRaw =>
      match blobSegments utf8Error instanceIdRaw nameRaw with
      | .error outcome => some outcome
      | .ok (instanceId, _) => some (.notFound ("instance `" ++ instanceId ++ "` is not running"))
  | .devicesList | .pluginsList | .events | .logs | .status => none

theorem absent_path {before after text : String}
    (listed : [.lit before, .arg, .lit after] ∈ READ_REASONS) (drawn : Drawn request text) :
    ∃ path : ReadPath request, path.outcome crates = .notFound (before ++ text ++ after) := by
  rw [← fill_around]
  exact notFound_path crates listed drawn

theorem missing_path {uri family required : String} {kind : Kind} {outcome : ReadOutcome}
    {utf8Error : List UInt8 → String} (worded : ∀ bytes, (quote (utf8Error bytes)).length ≤ 340)
    (named : uri ∈ request.texts) (resolved : resolveRoute uri = .dispatch family required kind)
    (gone : missing utf8Error kind = some outcome) :
    ∃ path : ReadPath request, path.outcome crates = outcome := by
  have routed := resolveRoute_texts resolved
  have drawn (text : String) (mem : text ∈ routedTexts kind) : Drawn request text :=
    (drawn_of_mem named).part (routed text mem)
  cases kind with
  | devicesList | pluginsList | events | logs | status => cases gone
  | devicesDetail id =>
      cases gone
      exact absent_path crates (by simp [READ_REASONS]) (drawn id (.head _))
  | pluginsDetail id =>
      cases gone
      exact absent_path crates (by simp [READ_REASONS]) (drawn id (.head _))
  | blob instanceIdRaw nameRaw =>
      rw [missing] at gone
      split at gone
      · next outcome' refused =>
          cases gone
          exact blobSegments_path crates worded named routed refused
      · next instanceId name read =>
          cases gone
          have decoded := blobSegments_ok read
          exact absent_path crates (by simp [READ_REASONS])
            (drawn_decoded named (routed _ (.head _)) decoded.1)

/-! ## Calls -/

open Installed in
/-- The arms of `plugins_uninstall_call` for a failed uninstall; `none` is `NoPluginsRoot`. -/
def uninstallFailed (pluginId : String) : Option UninstallError → ToolOutcome
  | none => .execErr "uninstall requires a state-dir-backed engine"
      (some (.obj [("kind", .str "no_plugins_root"), ("plugin_id", .str pluginId)])) none
  | some (.notInstalled _) => .execErr ("plugin `" ++ pluginId ++ "` is not installed")
      (some (.obj [("kind", .str "not_installed"), ("plugin_id", .str pluginId)])) none
  | some .io | some .persistence => .internal "uninstall failed; see server logs"

open Installed in
/-- The arms of `plugins_install_call` for a failed install. -/
def installFailed (sourceDir : String) : Option InstallError → ToolOutcome
  | none => .execErr "install requires a state-dir-backed engine"
      (some (.obj [("kind", .str "no_plugins_root")])) none
  | some .sourceMissing => .execErr ("source dir is missing or has no manifest.toml: " ++ sourceDir)
      (some (.obj [("kind", .str "source_missing"), ("source_dir", .str sourceDir)])) none
  | some (.alreadyInstalled pluginId) => alreadyInstalled pluginId
  | some (.badManifest _) => .execErr "bad manifest; see server logs for details"
      (some (.obj [("kind", .str "bad_manifest")])) none
  | some (.constraintDenied _ required) => .denied required
  | some .io | some .persistence => .internal "install failed; see server logs for details"

theorem internal_path {text : String} (listed : [.lit text] ∈ CALL_REASONS) :
    ∃ path : CallPath request, path.outcome crates = .internal text := by
  refine ⟨.refused .internal (.of _ (List.mem_append_right _ listed) [] [] (by simp) (by simp)), ?_⟩
  exact congrArg _ (String.append_empty (s := text))

theorem precondition_path {message kind : String} {named : Option (String × String)}
    (known : (kind, named.map Prod.fst) ∈ PRECONDITIONS)
    (drawn : ∀ member ∈ named, member.2 ∈ request.texts) :
    ∃ path : CallPath request, path.outcome crates = .execErr message
      (some (.obj (("kind", .str kind) ::
        named.toList.map fun member => (member.1, .str member.2)))) none :=
  ⟨.precondition ⟨message, kind, named, known, drawn⟩, rfl⟩

theorem uninstallFailed_path {pluginId : String} (named : pluginId ∈ request.texts)
    (err : Option Installed.UninstallError) :
    ∃ path : CallPath request, path.outcome crates = uninstallFailed pluginId err := by
  have drawn : ∀ member ∈ some ("plugin_id", pluginId), member.2 ∈ request.texts := by
    simpa using named
  match err with
  | none => exact precondition_path crates (by simp [PRECONDITIONS]) drawn
  | some (.notInstalled _) => exact precondition_path crates (by simp [PRECONDITIONS]) drawn
  | some .io | some .persistence => exact internal_path crates (by simp [CALL_REASONS])

theorem installFailed_path {sourceDir : String} (named : sourceDir ∈ request.texts)
    (err : Option Installed.InstallError) :
    ∃ path : CallPath request, path.outcome crates = installFailed sourceDir err := by
  have drawn : ∀ member ∈ some ("source_dir", sourceDir), member.2 ∈ request.texts := by
    simpa using named
  have none_ : ∀ member ∈ (none : Option (String × String)), member.2 ∈ request.texts := by simp
  match err with
  | none => exact precondition_path crates (by simp [PRECONDITIONS]) none_
  | some .sourceMissing => exact precondition_path crates (by simp [PRECONDITIONS]) drawn
  | some (.alreadyInstalled pluginId) => exact ⟨.alreadyInstalled pluginId, rfl⟩
  | some (.badManifest _) => exact precondition_path crates (by simp [PRECONDITIONS]) none_
  | some (.constraintDenied _ required) => exact ⟨.denied required, rfl⟩
  | some .io | some .persistence => exact internal_path crates (by simp [CALL_REASONS])

end OxidHome.Api.Mcp

/-! ## Commands -/

namespace OxidHome.Host
open Wit Library History Projection Api.Mcp

/-- The fields have passed the check for one slot. -/
def CallStage.Checked : CallStage → Prop
  | .answering _ _ fields | .projecting _ _ fields => checkSnapshotAdmission fields = .ok ()
  | .registering .. | .seeding .. | .reconciling .. | .removing _ | .authorized _
  | .recording _ => True

def HostAnswer.Returned : HostAnswer → Prop
  | .command result => ReturnedByExecute result
  | .registered _ | .done _ => True

namespace HostStores

def Checked (s : HostStores) : Prop :=
  ∀ (a : String) (stage : CallStage), s.calls[a]? = some stage → stage.Checked

/-- What a turn comes to: the calls that wait are checked, and so is what it answers. -/
structure Answers (next : HostStores × Option HostAnswer) : Prop where
  checked : next.1.Checked
  returned : ∀ answer ∈ next.2, answer.Returned

variable {sha256 : Sha256} {byteLen : Json → Nat} {s t : HostStores} {a : String}
  {stage : CallStage} {answer : HostAnswer}

theorem Checked.answers (checked : s.Checked) (returned : answer.Returned) :
    Answers (s, some answer) :=
  ⟨checked, fun _ mem => Option.mem_some_iff.mp mem ▸ returned⟩

theorem Checked.silent (checked : s.Checked) : Answers (s, none) :=
  ⟨checked, fun _ mem => by cases mem⟩

theorem Checked.await (checked : s.Checked) (here : stage.Checked) : (s.await a stage).Checked := by
  intro o other calling
  by_cases same : o = a
  · rw [same, await_self] at calling
    cases calling
    exact here
  · exact checked o other ((await_other same).symm.trans calling)

theorem Checked.returned (checked : s.Checked) : (s.returned a).Checked := by
  intro o other calling
  by_cases same : o = a
  · rw [same, returned_self] at calling
    cases calling
  · exact checked o other ((returned_other same).symm.trans calling)

theorem Checked.projected {inner : StoreInner} (checked : s.Checked) (returned : answer.Returned) :
    Answers ({ s.returned a with inner := inner }, some answer) :=
  Checked.answers (s := { s.returned a with inner := inner }) checked.returned returned

theorem Checked.registered {devices : DeviceRegistry} (checked : s.Checked) (here : stage.Checked) :
    Answers ({ s with devices := devices }.await a stage, none) :=
  Checked.silent (Checked.await (s := { s with devices := devices }) checked here)

theorem returned_canonical {fields : List KeyValue} (passed : checkSnapshotAdmission fields = .ok ()) :
    (HostAnswer.command (.okWithState (canonicalizeSnapshotFields fields))).Returned :=
  ⟨fields, passed, canonicalizeSnapshotFields_eq fields⟩

theorem call_answers (checked : s.Checked) (caller : Caller) (request : HostRequest) :
    Answers (s.call sha256 byteLen caller request) := by
  cases request with
  | registerDevice info =>
      dsimp only [HostStores.call]
      unfold registerDevice
      split
      · exact checked.answers trivial
      dsimp only
      split
      · exact checked.answers trivial
      · exact Checked.silent (checked.await trivial)
  | updateDevice id info =>
      dsimp only [HostStores.call]
      unfold updateDevice
      split
      · exact checked.answers trivial
      split
      · exact checked.answers trivial
      · exact checked.registered trivial
  | removeDevice id =>
      dsimp only [HostStores.call]
      unfold removeDevice
      split
      · exact checked.answers trivial
      · exact checked.registered trivial
  | publishEvent ev admitted =>
      dsimp only [HostStores.call]
      unfold publishEvent
      split
      · exact checked.answers trivial
      dsimp only
      split_ifs
      · exact checked.answers trivial
      · exact checked.answers trivial
      · exact Checked.silent (checked.await trivial)
  | executed deviceId capability result =>
      dsimp only [HostStores.call]
      cases result with
      | ok => exact checked.answers trivial
      | err _ => exact checked.answers trivial
      | okWithState fields =>
          dsimp only [executed]
          split
          · exact checked.answers trivial
          next passed =>
          split
          · exact checked.answers (returned_canonical passed)
          split_ifs
          · exact Checked.silent (checked.await passed)
          · exact checked.answers (returned_canonical passed)

theorem resume_answers (checked : s.Checked) (nowMs : Int) (writeError : Option Error)
    (calling : s.calls[a]? = some stage) :
    Answers (s.resume sha256 a nowMs writeError stage) := by
  have here := checked a stage calling
  cases stage with
  | registering uuid info =>
      dsimp only [HostStores.resume]
      split
      · exact checked.returned.answers trivial
      · exact checked.registered trivial
  | seeding id seedState => exact checked.projected trivial
  | reconciling id live => exact checked.projected trivial
  | removing id => exact checked.projected trivial
  | authorized ev =>
      dsimp only [HostStores.resume]
      split
      · exact checked.returned.answers trivial
      · exact Checked.silent (checked.await trivial)
  | recording ev =>
      dsimp only [HostStores.resume]
      split
      · exact checked.returned.answers trivial
      · exact checked.projected trivial
  | answering d c fields =>
      dsimp only [HostStores.resume]
      split
      · exact checked.returned.answers trivial
      · exact Checked.silent (checked.await (show CallStage.Checked (.projecting d c fields) from here))
  | projecting d c fields =>
      exact checked.projected (returned_canonical here)

theorem turn_answers (checked : s.Checked) {action : HostAction}
    {next : HostStores × Option HostAnswer}
    (turned : s.turn sha256 byteLen action = some next) : Answers next := by
  cases action with
  | call caller request =>
      rw [turn] at turned
      split_ifs at turned
      cases turned
      exact call_answers checked caller request
  | resume instanceId nowMs writeError =>
      rw [turn] at turned
      obtain ⟨stage, calling, rfl⟩ := Option.map_eq_some_iff.mp turned
      exact resume_answers checked nowMs writeError calling
  | drop instanceId =>
      rw [turn] at turned
      split at turned
      · cases turned
        exact checked.returned.silent
      · cases turned
  | sweepLife instanceId nowMs =>
      rw [turn] at turned
      split_ifs at turned
      cases turned
      exact Checked.silent (s := s.sweepLife instanceId nowMs) checked
  | sweepTerminal instanceId nowMs =>
      rw [turn] at turned
      split_ifs at turned
      cases turned
      exact Checked.silent (s := s.sweepTerminal instanceId nowMs) checked

/-- Whatever a run answers to a command was checked before it was projected. -/
theorem command_returned {nonce : Vector UInt8 16} {cursorSecret : Vector UInt8 32}
    {actions : List HostAction} {action : HostAction} {result : CommandResult}
    (run : exec (step sha256 byteLen) (.start nonce cursorSecret) actions = some s)
    (turned : s.turn sha256 byteLen action = some (t, some (.command result))) :
    ReturnedByExecute result := by
  have idle : (HostStores.start nonce cursorSecret).Checked := by
    intro a stage calling
    simp [start] at calling
  have checked : s.Checked := by
    refine exec_invariant (P := Checked) (fun s action t checked moved => ?_) idle run
    obtain ⟨next, turned, rfl⟩ := Option.map_eq_some_iff.mp moved
    exact (turn_answers checked turned).checked
  exact (turn_answers checked turned).returned _ rfl

theorem command_path {request : Request} (crates : TextCrates) {nonce : Vector UInt8 16}
    {cursorSecret : Vector UInt8 32} {actions : List HostAction} {action : HostAction}
    {result : CommandResult}
    (run : exec (step sha256 byteLen) (.start nonce cursorSecret) actions = some s)
    (turned : s.turn sha256 byteLen action = some (t, some (.command result))) :
    ∃ path : CallPath request, path.outcome crates = deviceSendCommand result :=
  ⟨.command result (command_returned run turned), rfl⟩

end HostStores

end OxidHome.Host

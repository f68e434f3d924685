import OxidHome.Api.Scopes
import OxidHome.Library.Fallible
import OxidHome.Library.Framing
import OxidHome.Library.TextBytes

/-!
# Resource URIs

`resolve_route` and `percent_decode_segment` of `api/mcp/resources.rs`. How the standard library words
an invalid UTF-8 sequence is left open.
-/

namespace OxidHome.Api
open Library

def SCHEME : String := "oxidhome://"

inductive Mcp.ReadOutcome where
  | okText (body : List UInt8) (mime : String)
  | okBlob (blobB64 : List UInt8) (mime : Option String)
  | notFound (reason : String)
  | invalidParams (reason : String)
  | tooLarge (reason : String)
  | busy (reason : String)
  | denied (required : Scope)
  | internal (reason : String)
deriving DecidableEq

inductive Kind where
  | devicesList
  | devicesDetail (id : String)
  | pluginsList
  | pluginsDetail (id : String)
  | events
  | logs
  | status
  | blob (instanceId name : String)
deriving DecidableEq

inductive Route where
  | dispatch (family : String) (required : Scope) (kind : Kind)
  | terminal (family : String) (outcome : Mcp.ReadOutcome)
deriving DecidableEq

/-- The arms of `resolve_route`; `none` is the last one. -/
def routeOf (uri : String) : String → Option (List Char) → Option Route
  | "devices", none => some (.dispatch "devices" DEVICES_LIST .devicesList)
  | "devices", some id =>
      if id ≠ [] ∧ '/' ∉ id then
        some (.dispatch "devices.detail" DEVICES_LIST (.devicesDetail (String.ofList id)))
      else none
  | "plugins", none => some (.dispatch "plugins" PLUGINS_LIST .pluginsList)
  | "plugins", some id =>
      if id ≠ [] ∧ '/' ∉ id then
        some (.dispatch "plugins.detail" PLUGINS_LIST (.pluginsDetail (String.ofList id)))
      else none
  | "events", none => some (.dispatch "events" EVENTS_READ .events)
  | "logs", none => some (.dispatch "logs" LOGS_READ .logs)
  | "status", none => some (.dispatch "status" STATUS_READ .status)
  | "blobs", some tail =>
      let shape := Mcp.ReadOutcome.notFound
        ("blobs URI must be oxidhome://blobs/<instance_id>/<name>; got " ++ uri)
      match splitOnce '/' tail with
      | some (instanceId, name) =>
          if instanceId ≠ [] ∧ name ≠ [] then
            some (.dispatch "blobs" BLOBS_READ
              (.blob (String.ofList instanceId) (String.ofList name)))
          else some (.terminal "blobs" shape)
      | none => some (.terminal "blobs" shape)
  | _, _ => none

def resolveRoute (uri : String) : Route :=
  match uri.toList.dropPrefix? SCHEME.toList with
  | none =>
      .terminal "unknown" (.notFound ("URI " ++ uri ++ " does not use the oxidhome:// scheme"))
  | some rest =>
      let path := match splitOnce '?' rest with
        | some parts => parts.1
        | none => rest
      let segments := match splitOnce '/' path with
        | some parts => (parts.1, some parts.2)
        | none => (path, none)
      (routeOf uri (String.ofList segments.1) segments.2).getD
        (.terminal "unknown" (.notFound ("no MCP resource is registered for " ++ uri)))

/-! ## Percent-decoding -/

inductive SegmentError where
  | truncated
  | invalidHexDigit (digit : UInt8)
  | notUtf8 (decoded : List UInt8)
deriving DecidableEq

def escapeAscii (b : UInt8) : String :=
  if b = 9 then "\\t"
  else if b = 13 then "\\r"
  else if b = 10 then "\\n"
  else if b = 39 then "\\'"
  else if b = 34 then "\\\""
  else if b = 92 then "\\\\"
  else if 0x20 ≤ b ∧ b < 0x7f then String.ofList [Char.ofNat b.toNat]
  else "\\x" ++ String.ofList (hexByte b)

/-- `utf8Error` words the error of `String::from_utf8`. -/
def SegmentError.display (utf8Error : List UInt8 → String) : SegmentError → String
  | .truncated => "truncated %-escape"
  | .invalidHexDigit digit => "invalid hex digit `" ++ escapeAscii digit ++ "` in %-escape"
  | .notUtf8 decoded => "decoded bytes are not valid UTF-8: " ++ utf8Error decoded

def decodeHex (b : UInt8) : Except SegmentError UInt8 :=
  if '0'.toUInt8 ≤ b ∧ b ≤ '9'.toUInt8 then .ok (b - '0'.toUInt8)
  else if 'a'.toUInt8 ≤ b ∧ b ≤ 'f'.toUInt8 then .ok (b - 'a'.toUInt8 + 10)
  else if 'A'.toUInt8 ≤ b ∧ b ≤ 'F'.toUInt8 then .ok (b - 'A'.toUInt8 + 10)
  else .error (.invalidHexDigit b)

def percentDecodeBytes : List UInt8 → Except SegmentError (List UInt8)
  | [] => .ok []
  | b :: rest =>
      if b = '%'.toUInt8 then
        match rest with
        | first :: second :: rest => do
            let hi ← decodeHex first
            let lo ← decodeHex second
            let out ← percentDecodeBytes rest
            .ok (((hi <<< 4) ||| lo) :: out)
        | _ => .error .truncated
      else do
        let out ← percentDecodeBytes rest
        .ok (b :: out)

def percentDecodeSegment (raw : String) : Except SegmentError String := do
  let out ← percentDecodeBytes (utf8 raw)
  match String.fromUTF8? ⟨out.toArray⟩ with
  | some text => .ok text
  | none => .error (.notUtf8 out)

/-! ## What an encoding stands for -/

def HexDigit (b : UInt8) (v : Nat) : Prop := hexValue (Char.ofNat b.toNat) = some v

/-- The bytes that escapes and bytes standing for themselves are read as. -/
inductive Decodes : List UInt8 → List UInt8 → Prop where
  | nil : Decodes [] []
  | literal {b : UInt8} {raw out : List UInt8} (plain : b ≠ '%'.toUInt8) :
      Decodes raw out → Decodes (b :: raw) (b :: out)
  | escape {first second b : UInt8} {raw out : List UInt8}
      (high : HexDigit first (b.toNat / 16)) (low : HexDigit second (b.toNat % 16)) :
      Decodes raw out → Decodes ('%'.toUInt8 :: first :: second :: raw) (b :: out)

theorem decodeHex_eq_ok {b v : UInt8} : decodeHex b = .ok v ↔ HexDigit b v.toNat := by
  have all : ∀ n : Fin 256, decodeHex (UInt8.ofNat n) =
      ((hexValue (Char.ofNat n)).elim (.error (.invalidHexDigit (UInt8.ofNat n)))
        fun v => .ok (UInt8.ofNat v)) ∧ ∀ v ∈ hexValue (Char.ofNat n), v < 256 := by
    decide +kernel
  obtain ⟨here, small⟩ := all ⟨b.toNat, b.toNat_lt⟩
  rw [UInt8.ofNat_toNat] at here
  unfold HexDigit
  rw [here]
  cases value : hexValue (Char.ofNat b.toNat) with
  | none => simp
  | some w =>
      have bound := small w value
      simp only [Option.elim_some, Except.ok.injEq, Option.some.injEq]
      constructor
      · rintro rfl
        exact (Nat.mod_eq_of_lt bound).symm
      · intro same
        rw [same, UInt8.ofNat_toNat]

theorem HexDigit.lt {b : UInt8} {v : Nat} (digit : HexDigit b v) : v < 16 := by
  have all : ∀ n : Fin 256, ∀ v ∈ hexValue (Char.ofNat n), v < 16 := by decide +kernel
  exact all ⟨b.toNat, b.toNat_lt⟩ v digit

theorem nibbles {hi lo : UInt8} (h : hi.toNat < 16) (l : lo.toNat < 16) :
    ((hi <<< 4) ||| lo).toNat = hi.toNat * 16 + lo.toNat := by
  have shifted : (hi <<< 4).toNat = hi.toNat <<< 4 := by
    simp only [UInt8.toNat_shiftLeft, Nat.shiftLeft_eq, UInt8.reduceToNat, Nat.reduceMod,
      Nat.reducePow]
    exact Nat.mod_eq_of_lt (by omega)
  rw [UInt8.toNat_or, shifted, ← Nat.shiftLeft_add_eq_or_of_lt (show lo.toNat < 2 ^ 4 from l),
    Nat.shiftLeft_eq]

theorem percentDecodeBytes_literal {b : UInt8} (plain : b ≠ '%'.toUInt8) (rest : List UInt8) :
    percentDecodeBytes (b :: rest) = (percentDecodeBytes rest).map (b :: ·) := by
  match rest with
  | [] => simp [percentDecodeBytes, plain, bind, Except.bind, Except.map]
  | [_] => simp [percentDecodeBytes, plain, bind, Except.bind, Except.map]
  | _ :: _ :: _ =>
      rw [percentDecodeBytes, if_neg plain]
      rfl

theorem percentDecodeBytes_escape (first second : UInt8) (rest : List UInt8) :
    percentDecodeBytes ('%'.toUInt8 :: first :: second :: rest) =
      decodeHex first >>= fun hi => decodeHex second >>= fun lo =>
        percentDecodeBytes rest >>= fun out => .ok (((hi <<< 4) ||| lo) :: out) := by
  rw [percentDecodeBytes, if_pos rfl]

theorem percentDecodeBytes_eq_ok {raw out : List UInt8} :
    percentDecodeBytes raw = .ok out ↔ Decodes raw out := by
  constructor
  · intro decoded
    induction raw using percentDecodeBytes.induct generalizing out with
    | case1 =>
        cases decoded
        exact .nil
    | case2 first second rest ih =>
        rw [percentDecodeBytes_escape] at decoded
        obtain ⟨hi, high, decoded⟩ := bind_eq_ok.mp decoded
        obtain ⟨lo, low, decoded⟩ := bind_eq_ok.mp decoded
        obtain ⟨more, inner, decoded⟩ := bind_eq_ok.mp decoded
        cases decoded
        rw [decodeHex_eq_ok] at high low
        have number := nibbles high.lt low.lt
        have below := low.lt
        refine .escape ?_ ?_ (ih inner)
        · have upper : (hi.toNat * 16 + lo.toNat) / 16 = hi.toNat := by omega
          rwa [number, upper]
        · have lower : (hi.toNat * 16 + lo.toNat) % 16 = lo.toNat := by omega
          rwa [number, lower]
    | case3 rest short =>
        match rest with
        | [] | [_] => cases decoded
        | first :: second :: rest => exact absurd rfl (short first second rest)
    | case4 b rest plain ih =>
        rw [percentDecodeBytes_literal plain] at decoded
        obtain ⟨more, inner, rfl⟩ := map_eq_ok.mp decoded
        exact .literal plain (ih inner)
  · intro decodes
    induction decodes with
    | nil => rfl
    | literal plain _ ih =>
        rw [percentDecodeBytes_literal plain, ih]
        rfl
    | @escape first second b raw out high low _ ih =>
        have small := b.toNat_lt
        have hi_toNat : (UInt8.ofNat (b.toNat / 16)).toNat = b.toNat / 16 := by
          rw [UInt8.toNat_ofNat']
          omega
        have lo_toNat : (UInt8.ofNat (b.toNat % 16)).toNat = b.toNat % 16 := by
          rw [UInt8.toNat_ofNat']
          omega
        have hi : decodeHex first = .ok (UInt8.ofNat (b.toNat / 16)) := by
          rwa [decodeHex_eq_ok, hi_toNat]
        have lo : decodeHex second = .ok (UInt8.ofNat (b.toNat % 16)) := by
          rwa [decodeHex_eq_ok, lo_toNat]
        have byte : (UInt8.ofNat (b.toNat / 16) <<< 4) ||| UInt8.ofNat (b.toNat % 16) = b := by
          apply UInt8.toNat_inj.mp
          rw [nibbles (by omega) (by omega), hi_toNat, lo_toNat]
          omega
        rw [percentDecodeBytes_escape, hi, lo, ih]
        exact congrArg (fun c => Except.ok (c :: out)) byte

theorem fromUTF8?_eq_some {bytes : List UInt8} {s : String} :
    String.fromUTF8? ⟨bytes.toArray⟩ = some s ↔ utf8 s = bytes := by
  unfold String.fromUTF8?
  constructor
  · intro read
    split at read
    · next valid =>
        cases read
        rfl
    · cases read
  · rintro rfl
    have valid : (⟨(utf8 s).toArray⟩ : ByteArray).IsValidUTF8 := s.isValidUTF8
    rw [dif_pos valid]
    rfl

theorem percentDecodeSegment_eq_ok {raw s : String} :
    percentDecodeSegment raw = .ok s ↔ Decodes (utf8 raw) (utf8 s) := by
  unfold percentDecodeSegment
  rw [bind_eq_ok]
  constructor
  · rintro ⟨out, decoded, read⟩
    split at read
    · next text valid =>
        cases read
        rw [fromUTF8?_eq_some.mp valid]
        exact percentDecodeBytes_eq_ok.mp decoded
    · cases read
  · intro decodes
    refine ⟨utf8 s, percentDecodeBytes_eq_ok.mpr decodes, ?_⟩
    rw [fromUTF8?_eq_some.mpr rfl]

theorem percentDecodeSegment_notUtf8 {raw : String} {bytes : List UInt8}
    (decodes : Decodes (utf8 raw) bytes) (invalid : ∀ s, utf8 s ≠ bytes) :
    percentDecodeSegment raw = .error (.notUtf8 bytes) := by
  have unread : String.fromUTF8? ⟨bytes.toArray⟩ = none := by
    rw [Option.eq_none_iff_forall_ne_some]
    exact fun s read => invalid s (fromUTF8?_eq_some.mp read)
  unfold percentDecodeSegment
  rw [percentDecodeBytes_eq_ok.mpr decodes]
  simp only [bind, Except.bind, unread]

def EscapeDigits (rest : List UInt8) : Prop :=
  ∃ (first second : UInt8) (high low : Nat) (more : List UInt8),
    rest = first :: second :: more ∧ HexDigit first high ∧ HexDigit second low

theorem HexDigit.ne_percent {b : UInt8} {v : Nat} (digit : HexDigit b v) : b ≠ '%'.toUInt8 := by
  rintro rfl
  exact absurd digit (by simp [HexDigit, show hexValue (Char.ofNat '%'.toUInt8.toNat) = none by decide])

theorem Decodes.escapeDigits {raw out before rest : List UInt8} (decodes : Decodes raw out)
    (here : raw = before ++ '%'.toUInt8 :: rest) : EscapeDigits rest := by
  induction decodes generalizing before with
  | nil => simp at here
  | literal plain _ ih =>
      cases before with
      | nil => exact absurd (List.cons.inj here).1 plain
      | cons b before => exact ih (List.cons.inj here).2
  | escape high low _ ih =>
      match before with
      | [] =>
          have rest_eq := (List.cons.inj here).2
          exact ⟨_, _, _, _, _, rest_eq.symm, high, low⟩
      | [_] =>
          simp only [List.cons_append, List.nil_append, List.cons.injEq] at here
          exact absurd here.2.1 high.ne_percent
      | [_, _] =>
          simp only [List.cons_append, List.nil_append, List.cons.injEq] at here
          exact absurd here.2.2.1 low.ne_percent
      | _ :: _ :: _ :: before =>
          simp only [List.cons_append, List.cons.injEq] at here
          exact ih here.2.2.2

theorem percentDecodeSegment_escapes {raw : String} {before rest : List UInt8}
    (here : utf8 raw = before ++ '%'.toUInt8 :: rest) (broken : ¬ EscapeDigits rest) :
    ∃ err, percentDecodeSegment raw = .error err := by
  cases decoded : percentDecodeSegment raw with
  | error err => exact ⟨err, rfl⟩
  | ok s => exact absurd ((percentDecodeSegment_eq_ok.mp decoded).escapeDigits here) broken

/-! ## Encodings of a segment -/

def rawInSegment (c : Char) : Bool :=
  c.isAlphanum || c = '-' || c = '.' || c = '_' || c = '~'

def rawInName (c : Char) : Bool := rawInSegment c || c = '/'

/-- A text for `bytes`, each written raw or as an escape with digits of either case. -/
inductive PercentEncodes (raw : Char → Bool) : List UInt8 → List Char → Prop where
  | nil : PercentEncodes raw [] []
  | raw {c : Char} {bytes : List UInt8} {text : List Char} (allowed : raw c = true) :
      PercentEncodes raw bytes text →
      PercentEncodes raw (UInt8.ofNat c.toNat :: bytes) (c :: text)
  | escape {first second : Char} {b : UInt8} {bytes : List UInt8} {text : List Char}
      (high : hexValue first = some (b.toNat / 16)) (low : hexValue second = some (b.toNat % 16)) :
      PercentEncodes raw bytes text →
      PercentEncodes raw (b :: bytes) ('%' :: first :: second :: text)

theorem plain_of_rawInName {c : Char} (raw : rawInName c = true) :
    c.toNat < 128 ∧ c ≠ '%' ∧ c ≠ '?' := by
  refine ⟨?_, ?_, ?_⟩
  · simp only [rawInName, rawInSegment, Bool.or_eq_true, decide_eq_true_eq] at raw
    rcases raw with ((((letter | rfl) | rfl) | rfl) | rfl) | rfl
    · exact ascii_of_isAlphanum letter
    all_goals decide
  · rintro rfl
    exact absurd raw (by decide)
  · rintro rfl
    exact absurd raw (by decide)

theorem plain_of_hexValue {c : Char} {v : Nat} (value : hexValue c = some v) :
    c.toNat < 128 ∧ c ≠ '?' ∧ c ≠ '/' := by
  refine ⟨ascii_of_hexValue value, ?_, ?_⟩
  · rintro rfl
    exact absurd value (by simp [hexValue])
  · rintro rfl
    exact absurd value (by simp [hexValue])

theorem rawInName_of_segment {c : Char} (raw : rawInSegment c = true) :
    rawInName c = true ∧ c ≠ '/' := by
  refine ⟨by simp [rawInName, raw], ?_⟩
  rintro rfl
  exact absurd raw (by decide)

namespace PercentEncodes
variable {raw : Char → Bool} {bytes : List UInt8} {text : List Char}

theorem decodes (encodes : PercentEncodes raw bytes text)
    (plain : ∀ c, raw c = true → rawInName c = true) :
    Decodes (utf8 (String.ofList text)) bytes := by
  induction encodes with
  | nil => exact .nil
  | @raw c bytes text allowed _ ih =>
      obtain ⟨ascii, other, -⟩ := plain_of_rawInName (plain c allowed)
      rw [utf8_ofList_cons, utf8EncodeChar_ascii ascii]
      refine .literal ?_ ih
      intro same
      have number := congrArg UInt8.toNat same
      rw [UInt8.toNat_ofNat', Nat.mod_eq_of_lt (by omega)] at number
      exact other (Char.toNat_inj.mp number)
  | @escape first second b bytes text high low _ ih =>
      have first_ascii := (plain_of_hexValue high).1
      have second_ascii := (plain_of_hexValue low).1
      rw [utf8_ofList_cons, utf8_ofList_cons, utf8_ofList_cons, utf8EncodeChar_ascii first_ascii,
        utf8EncodeChar_ascii second_ascii, utf8EncodeChar_ascii (show '%'.toNat < 128 by decide)]
      have digit (c : Char) (v : Nat) (ascii : c.toNat < 128) (value : hexValue c = some v) :
          HexDigit (UInt8.ofNat c.toNat) v := by
        rwa [HexDigit, UInt8.toNat_ofNat', Nat.mod_eq_of_lt (by omega), Char.ofNat_toNat]
      exact .escape (digit first _ first_ascii high) (digit second _ second_ascii low) ih

theorem avoids (encodes : PercentEncodes raw bytes text) {sep : Char}
    (unraw : ∀ c, raw c = true → c ≠ sep) (percent : sep ≠ '%')
    (digits : ∀ (c : Char) v, hexValue c = some v → c ≠ sep) : sep ∉ text := by
  induction encodes with
  | nil => exact List.not_mem_nil
  | raw allowed _ ih =>
      rw [List.mem_cons, not_or]
      exact ⟨(unraw _ allowed).symm, ih⟩
  | escape high low _ ih =>
      simp only [List.mem_cons, not_or]
      exact ⟨percent, (digits _ _ high).symm, (digits _ _ low).symm, ih⟩

theorem ne_nil (encodes : PercentEncodes raw bytes text) (some_ : bytes ≠ []) : text ≠ [] := by
  cases encodes with
  | nil => exact absurd rfl some_
  | raw _ _ => exact List.cons_ne_nil _ _
  | escape _ _ _ => exact List.cons_ne_nil _ _

end PercentEncodes

theorem utf8_ne_nil {s : String} (some_ : s ≠ "") : utf8 s ≠ [] := by
  intro none_
  exact some_ (utf8_injective none_)

theorem resolveRoute_blob {instanceId name query : List Char} (qi : '?' ∉ instanceId)
    (qn : '?' ∉ name) (slash : '/' ∉ instanceId) (some_i : instanceId ≠ []) (some_n : name ≠ [])
    (tail : query = [] ∨ query.head? = some '?') :
    resolveRoute (String.ofList
        (SCHEME.toList ++ "blobs".toList ++ '/' :: instanceId ++ '/' :: name ++ query)) =
      .dispatch "blobs" BLOBS_READ (.blob (String.ofList instanceId) (String.ofList name)) := by
  have family : '?' ∉ "blobs".toList ∧ '/' ∉ "blobs".toList := by simp
  have unquestioned : '?' ∉ "blobs".toList ++ '/' :: instanceId ++ '/' :: name := by
    simp [qi, qn]
  have path : splitOnce '?' ("blobs".toList ++ '/' :: instanceId ++ '/' :: name ++ query) = none ∧
        query = [] ∨ ∃ rest, splitOnce '?' ("blobs".toList ++ '/' :: instanceId ++ '/' :: name ++ query) =
          some ("blobs".toList ++ '/' :: instanceId ++ '/' :: name, rest) := by
    rcases tail with rfl | asked
    · exact .inl ⟨splitOnce_eq_none.mpr (by simpa using unquestioned), rfl⟩
    · obtain ⟨rest, rfl⟩ : ∃ rest, query = '?' :: rest := by
        cases query with
        | nil => cases asked
        | cons c rest =>
            cases asked
            exact ⟨rest, rfl⟩
      exact .inr ⟨rest, splitOnce_append unquestioned rest⟩
  have cut : (SCHEME.toList ++ "blobs".toList ++ '/' :: instanceId ++ '/' :: name ++ query).dropPrefix?
      SCHEME.toList = some ("blobs".toList ++ '/' :: instanceId ++ '/' :: name ++ query) := by
    simp only [List.append_assoc]
    exact List.dropPrefix?_append_of_beq _ (beq_self_eq_true _)
  have head : splitOnce '/' ("blobs".toList ++ '/' :: instanceId ++ '/' :: name) =
      some ("blobs".toList, instanceId ++ '/' :: name) := by
    rw [List.append_assoc]
    exact splitOnce_append family.2 _
  have segments : splitOnce '/' (instanceId ++ '/' :: name) = some (instanceId, name) :=
    splitOnce_append slash name
  unfold resolveRoute
  rw [String.toList_ofList, cut]
  rcases path with ⟨whole, rfl⟩ | ⟨rest, whole⟩
  · rw [List.append_nil] at whole ⊢
    simp only [whole, head, String.ofList_toList, routeOf, segments, some_i, some_n, ne_eq,
      not_false_eq_true, and_self, if_true, Option.getD_some]
  · simp only [whole, head, String.ofList_toList, routeOf, segments, some_i, some_n, ne_eq,
      not_false_eq_true, and_self, if_true, Option.getD_some]

theorem blob_uri_routes_back :
    (∀ (instanceId name : String) (instanceText nameText query : List Char),
      instanceId ≠ "" → name ≠ "" →
      PercentEncodes rawInSegment (utf8 instanceId) instanceText →
      PercentEncodes rawInName (utf8 name) nameText →
      (query = [] ∨ query.head? = some '?') →
      resolveRoute (String.ofList
          (SCHEME.toList ++ "blobs".toList ++ '/' :: instanceText ++ '/' :: nameText ++ query)) =
        .dispatch "blobs" BLOBS_READ
          (.blob (String.ofList instanceText) (String.ofList nameText)) ∧
      percentDecodeSegment (String.ofList instanceText) = .ok instanceId ∧
      percentDecodeSegment (String.ofList nameText) = .ok name) ∧
    (∀ raw s : String, percentDecodeSegment raw = .ok s ↔ Decodes (utf8 raw) (utf8 s)) ∧
    (∀ (raw : String) (before rest : List UInt8), utf8 raw = before ++ '%'.toUInt8 :: rest →
      ¬ EscapeDigits rest → ∃ err, percentDecodeSegment raw = .error err) ∧
    ∀ (raw : String) (bytes : List UInt8), Decodes (utf8 raw) bytes → (∀ s, utf8 s ≠ bytes) →
      percentDecodeSegment raw = .error (.notUtf8 bytes) := by
  refine ⟨?_, fun raw s => percentDecodeSegment_eq_ok,
    fun raw before rest here broken => percentDecodeSegment_escapes here broken,
    fun raw bytes decodes invalid => percentDecodeSegment_notUtf8 decodes invalid⟩
  intro instanceId name instanceText nameText query some_i some_n encodes_i encodes_n tail
  have instance_raw (c : Char) (raw : rawInSegment c = true) : rawInName c = true :=
    (rawInName_of_segment raw).1
  have digits (c : Char) (v : Nat) (value : hexValue c = some v) := plain_of_hexValue value
  refine ⟨?_, ?_, ?_⟩
  · apply resolveRoute_blob
    · exact encodes_i.avoids (fun c raw => (plain_of_rawInName (instance_raw c raw)).2.2) (by decide)
        (fun c v value => (digits c v value).2.1)
    · exact encodes_n.avoids (fun c raw => (plain_of_rawInName raw).2.2) (by decide)
        (fun c v value => (digits c v value).2.1)
    · exact encodes_i.avoids (fun c raw => (rawInName_of_segment raw).2) (by decide)
        (fun c v value => (digits c v value).2.2)
    · exact encodes_i.ne_nil (utf8_ne_nil some_i)
    · exact encodes_n.ne_nil (utf8_ne_nil some_n)
    · exact tail
  · exact percentDecodeSegment_eq_ok.mpr (encodes_i.decodes instance_raw)
  · exact percentDecodeSegment_eq_ok.mpr (encodes_n.decodes fun c raw => raw)

theorem blob_uri_routes_back_escaped :
    resolveRoute "oxidhome://blobs/cam/a%2fb%3F?x=1" =
      .dispatch "blobs" BLOBS_READ (.blob "cam" "a%2fb%3F") ∧
    percentDecodeSegment "a%2fb%3F" = .ok "a/b?" := by
  have i : PercentEncodes rawInSegment (utf8 "cam") ['c', 'a', 'm'] :=
    .raw (by decide) (.raw (by decide) (.raw (by decide) .nil))
  have n : PercentEncodes rawInName (utf8 "a/b?") ['a', '%', '2', 'f', 'b', '%', '3', 'F'] :=
    .raw (by decide) (.escape (by decide) (by decide) (.raw (by decide)
      (.escape (by decide) (by decide) .nil)))
  obtain ⟨route, -, name⟩ := blob_uri_routes_back.1 "cam" "a/b?" _ _ ['?', 'x', '=', '1']
    (by decide) (by decide) i n (.inr rfl)
  exact ⟨route, name⟩
end OxidHome.Api

import OxidHome.Library.TextBytes
import OxidHome.Projection.Cursor

/-!
# UI tickets

`ui_ticket.rs`, the wrapper URL and `TicketQuery` of `server.rs`, and the checks of the two UI
handlers. A verifier that would index outside of an array is `none`.
-/

namespace OxidHome.Api
open Library Projection

structure Duration where
  secs : Nat
  nanos : Nat
  subsecond : nanos < 10 ^ 9

def Duration.fromMins (mins : Nat) : Duration := ⟨60 * mins, 0, by decide⟩

def Duration.asMillis (d : Duration) : Nat := d.secs * 1000 + d.nanos / 10 ^ 6

/-- Seconds are an `i64`. -/
structure SystemTime where
  secs : Int
  nanos : Nat
  representable : -2 ^ 63 ≤ secs ∧ secs < 2 ^ 63
  subsecond : nanos < 10 ^ 9

namespace SystemTime

def checkedAdd (t : SystemTime) (d : Duration) : Option SystemTime :=
  let nanos := t.nanos + d.nanos
  let secs := t.secs + d.secs + (nanos / 10 ^ 9 : Nat)
  if h : -2 ^ 63 ≤ secs ∧ secs < 2 ^ 63 then
    some ⟨secs, nanos % 10 ^ 9, h, Nat.mod_lt _ (by decide)⟩
  else none

/-- `duration_since(UNIX_EPOCH)` -/
def sinceEpoch (t : SystemTime) : Option Duration :=
  if 0 ≤ t.secs then some ⟨t.secs.toNat, t.nanos, t.subsecond⟩ else none

def millis (t : SystemTime) : Int := t.secs * 1000 + (t.nanos / 10 ^ 6 : Nat)

end SystemTime

def TICKET_TTL : Duration := Duration.fromMins 5
def MAX_TICKET_LEN : Nat := 512

structure DecodedTicket where
  pluginId : String
  installationUuid : String
deriving DecidableEq

inductive TicketError where
  | bad
  | expired
deriving DecidableEq

def ticketMac (sha256 : Sha256) (secret : Vector UInt8 32) (payload : String) : List UInt8 :=
  (hmacSha256 sha256 secret (utf8 payload)).toList.take 16

def expiryMs (now : SystemTime) : Nat :=
  match (now.checkedAdd TICKET_TTL).bind SystemTime.sinceEpoch with
  | none => 0
  | some d => if d.asMillis < 2 ^ 64 then d.asMillis else 2 ^ 64 - 1

def ticketPayload (pluginId installationUuid : String) (now : SystemTime) : String :=
  toString (expiryMs now) ++ "~" ++ pluginId ++ "~" ++ installationUuid

def issue (sha256 : Sha256) (secret : Vector UInt8 32) (pluginId installationUuid : String)
    (now : SystemTime) : String :=
  let payload := ticketPayload pluginId installationUuid now
  payload ++ "~" ++ String.ofList (hexEncode (ticketMac sha256 secret payload))

def nowMs (now : SystemTime) : Nat :=
  match now.sinceEpoch with
  | none => 0
  | some d => if d.asMillis < 2 ^ 64 then d.asMillis else 0

def verify (sha256 : Sha256) (secret : Vector UInt8 32) (raw : String) (now : SystemTime) :
    Option (Except TicketError DecodedTicket) :=
  if raw.utf8ByteSize > MAX_TICKET_LEN then some (.error .bad)
  else
    match rsplitOnce '~' raw.toList with
    | none => some (.error .bad)
    | some (payload, macHex) =>
      match splitOnce '~' payload with
      | none => some (.error .bad)
      | some (expiryMsStr, rest) =>
        match splitOnce '~' rest with
        | none => some (.error .bad)
        | some (pluginId, installationUuid) =>
          if expiryMsStr = [] ∨ pluginId = [] ∨ installationUuid = [] ∨
              (utf8 (String.ofList macHex)).length ≠ 32 then
            some (.error .bad)
          else
            match parseUnsigned (2 ^ 64) expiryMsStr with
            | none => some (.error .bad)
            | some expiryMs =>
              match hexArray 16 (utf8 (String.ofList macHex)) with
              | none => none
              | some none => some (.error .bad)
              | some (some supplied) =>
                if !constantTimeEq (ticketMac sha256 secret (String.ofList payload)) supplied then
                  some (.error .bad)
                else if nowMs now ≥ expiryMs then some (.error .expired)
                else some (.ok ⟨String.ofList pluginId, String.ofList installationUuid⟩)

def isUrlUnreserved (b : UInt8) : Bool :=
  let c := Char.ofNat b.toNat
  b.toNat < 128 && (c.isAlphanum || c = '-' || c = '.' || c = '_' || c = '~')

def percentEncodePathSegment (input : String) : List Char :=
  (utf8 input).flatMap fun b =>
    if isUrlUnreserved b then [Char.ofNat b.toNat]
    else '%' :: (hexByte b).map Char.toUpper

def percentEncodeQueryValue (input : String) : List Char := percentEncodePathSegment input

def uiSessionUrl (pluginId ticket : String) : List Char :=
  "/api/v1/plugins/".toList ++ percentEncodePathSegment pluginId ++ "/ui?tk=".toList ++
    percentEncodeQueryValue ticket

/-- `Uri::query()` of the `http` crate, whose longest `Uri` has 65534 bytes. -/
structure UriQuery where
  query : List Char → Option (List Char)
  after : ∀ path rest, (∀ c ∈ path ++ rest, c.isAlphanum ∨ c ∈ "/=-._~".toList) →
    path.length + rest.length + 2 ≤ 65534 → query ('/' :: path ++ '?' :: rest) = some rest

def MAX_UI_QUERY_LEN : Nat := MAX_TICKET_LEN + 3

inductive PluginUiError where
  | notFound
  | ticketBad
  | ticketExpired
deriving DecidableEq

/-- The last `tk` wins. -/
def ticketQuery (query : Option (List Char)) : Except PluginUiError (Option String) :=
  let query := query.getD []
  if (utf8 (String.ofList query)).length > MAX_UI_QUERY_LEN then .error .ticketBad
  else
    .ok ((query.splitOn '&').foldl (fun tk pair =>
      if ['t', 'k', '='].isPrefixOf pair then some (String.ofList (pair.drop 3)) else tk) none)

/-- What `get_plugin_ui` and `get_plugin_ui_frame` check before they serve the installation. -/
def servedInstallation (sha256 : Sha256) (secret : Vector UInt8 32)
    (installed : String → Option String) (pluginId : String) (tk : Option String)
    (now : SystemTime) : Option (Except PluginUiError String) :=
  match tk with
  | none => some (.error .ticketBad)
  | some ticketRaw =>
      match verify sha256 secret ticketRaw now with
      | none => none
      | some (.error .bad) => some (.error .ticketBad)
      | some (.error .expired) => some (.error .ticketExpired)
      | some (.ok decoded) =>
          if decoded.pluginId ≠ pluginId then some (.error .notFound)
          else
            match installed pluginId with
            | none => some (.error .notFound)
            | some uuid =>
                if decoded.installationUuid ≠ uuid then some (.error .notFound) else some (.ok uuid)

def isValidLabel : List Char → Bool
  | [] => false
  | first :: chars =>
      (first.isLower || first.isDigit) && chars.all fun c => c.isLower || c.isDigit || c = '-'

/-- Plugin ids that `validate` accepts. -/
def isReverseDns (s : String) : Bool :=
  s.toList.contains '.' && (s.toList.splitOn '.').all isValidLabel

def mintInstallationUuid (bytes : Vector UInt8 16) : String :=
  String.ofList ("inst-".toList ++ hexEncode bytes.toList)

end OxidHome.Api

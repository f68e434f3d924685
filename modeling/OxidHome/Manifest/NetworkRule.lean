import OxidHome.Manifest.Capabilities
import OxidHome.Library.Fallible
import OxidHome.Library.Text

/-!
# Network rules as text

`FromStr` and `Display` of `NetworkRule` in `network.rs`, on texts as lists of characters. How
`std::net` and `ipnet` read and write addresses is a parameter.
-/

namespace OxidHome.Manifest
open Library

inductive IpAddr where
  | v4 (addr : BitVec 32)
  | v6 (addr : BitVec 128)
deriving DecidableEq

def IpAddr.isIpv6 : IpAddr → Bool
  | .v4 _ => false
  | .v6 _ => true

def IpNet.isIpv6 : IpNet → Bool
  | .v4 .. => false
  | .v6 .. => true

structure IpText where
  parseAddr : List Char → Option IpAddr
  parseNet : List Char → Option IpNet
  addr : IpAddr → List Char
  net : IpNet → List Char

inductive NetworkRuleParseError where
  | missingScheme (raw : List Char)
  | unknownProto (token : List Char)
  | emptyHost (full : List Char)
  | invalidCidr (host : List Char)
  | invalidWildcard (host : List Char)
  | invalidPort (token : List Char)
  | invalidPortRange (full : List Char)
  | missingPort (proto : List Char)
  | invalidHost (host : List Char)
  | whitespaceInToken (token raw : List Char)

namespace Proto

def asStr : Proto → List Char
  | .tcp => ['t', 'c', 'p']
  | .udp => ['u', 'd', 'p']
  | .https => ['h', 't', 't', 'p', 's']
  | .any => ['a', 'n', 'y']

def ofStr : List Char → Option Proto
  | ['t', 'c', 'p'] => some .tcp
  | ['u', 'd', 'p'] => some .udp
  | ['h', 't', 't', 'p', 's'] => some .https
  | ['a', 'n', 'y'] => some .any
  | _ => none

end Proto

def rejectWhitespace (token raw : List Char) : Except NetworkRuleParseError Unit :=
  if token.any isWhitespace then .error (.whitespaceInToken token raw) else .ok ()

def splitHostPort (rest : List Char) : List Char × Option (List Char) :=
  match rsplitOnce ':' rest with
  | none => (rest, none)
  | some (host, port) => if ':' ∈ host ∨ '/' ∈ port then (rest, none) else (host, some port)

structure Authority where
  host : List Char
  port : Option (List Char)
  bracketed : Bool

def splitAuthority (rest : List Char) : Except NetworkRuleParseError Authority :=
  match rest with
  | '[' :: afterOpen =>
      match splitOnce ']' afterOpen with
      | none => .error (.invalidHost rest)
      | some (host, []) => .ok ⟨host, none, true⟩
      | some (host, ':' :: port) => .ok ⟨host, some port, true⟩
      | some _ => .error (.invalidHost rest)
  | _ => .ok ⟨(splitHostPort rest).1, (splitHostPort rest).2, false⟩

section
variable (ip : IpText)

def parseBracketed (host : List Char) : Except NetworkRuleParseError HostMatch :=
  if '/' ∈ host then
    match ip.parseNet host with
    | none => .error (.invalidCidr host)
    | some net => if net.isIpv6 then .ok (.cidr net) else .error (.invalidHost host)
  else
    match ip.parseAddr host with
    | none => .error (.invalidHost host)
    | some addr =>
      if addr.isIpv6 then .ok (.exact (.ofList (ip.addr addr))) else .error (.invalidHost host)

def parseUnbracketed (host : List Char) : Except NetworkRuleParseError HostMatch :=
  match host with
  | '*' :: '.' :: suffix =>
      if suffix = [] ∨ suffix.head? = some '.' then .error (.invalidWildcard host)
      else .ok (.suffixWildcard (.ofList ('.' :: suffix)))
  | _ =>
    if '/' ∈ host then
      match ip.parseNet host with
      | none => .error (.invalidCidr host)
      | some net => .ok (.cidr net)
    else
      match ip.parseAddr host with
      | some addr => .ok (.exact (.ofList (ip.addr addr)))
      | none => if ':' ∈ host then .error (.invalidHost host) else .ok (.exact (.ofList host))

def parseHost (host full : List Char) (bracketed : Bool) : Except NetworkRuleParseError HostMatch :=
  if host = [] then .error (.emptyHost full)
  else if bracketed then parseBracketed ip host
  else parseUnbracketed ip host

def parseU16 (token : List Char) : Except NetworkRuleParseError UInt16 :=
  match parseUnsigned (2 ^ 16) token with
  | none => .error (.invalidPort token)
  | some n => .ok (.ofNat n)

def parsePort (port full : List Char) : Except NetworkRuleParseError PortMatch :=
  if port = ['*'] then .ok .any
  else
    match splitOnce '-' port with
    | some (lo, hi) => do
        let lo ← parseU16 lo
        let hi ← parseU16 hi
        if lo > hi then .error (.invalidPortRange full) else .ok (.range lo hi)
    | none => (parseU16 port).map .exact

def defaultPort : Proto → Except NetworkRuleParseError PortMatch
  | .https => .ok (.exact 443)
  | proto => .error (.missingPort proto.asStr)

def parseAuthority (proto : Proto) (rest raw : List Char) :
    Except NetworkRuleParseError NetworkRule := do
  let authority ← splitAuthority rest
  rejectWhitespace authority.host raw
  match authority.port with
  | some port =>
    rejectWhitespace port raw
    let host ← parseHost ip authority.host raw authority.bracketed
    let port ← parsePort port raw
    .ok ⟨proto, host, port⟩
  | none =>
    let host ← parseHost ip authority.host raw authority.bracketed
    let port ← defaultPort proto
    .ok ⟨proto, host, port⟩

def parseRule (raw : List Char) : Except NetworkRuleParseError NetworkRule :=
  match splitOnText [':', '/', '/'] raw with
  | none => .error (.missingScheme raw)
  | some (protoStr, rest) =>
    match Proto.ofStr protoStr with
    | none => .error (.unknownProto protoStr)
    | some proto => parseAuthority ip proto rest raw

def NetworkRule.fromStr (raw : String) : Except NetworkRuleParseError NetworkRule :=
  parseRule ip (trim raw.toList)

def HostMatch.text : HostMatch → List Char
  | .exact host => host.toList
  | .suffixWildcard suffix => '*' :: suffix.toList
  | .cidr net => ip.net net

def PortMatch.text : PortMatch → List Char
  | .any => ['*']
  | .exact port => Nat.toDigits 10 port.toNat
  | .range lo hi => Nat.toDigits 10 lo.toNat ++ '-' :: Nat.toDigits 10 hi.toNat

def authorityText (rule : NetworkRule) : List Char :=
  let host := rule.host.text ip
  if rule.proto = .https ∧ rule.port = .exact 443 then host
  else if ':' ∈ host then '[' :: (host ++ ']' :: ':' :: rule.port.text)
  else host ++ ':' :: rule.port.text

def NetworkRule.display (rule : NetworkRule) : String :=
  .ofList (rule.proto.asStr ++ [':', '/', '/'] ++ authorityText ip rule)

end

theorem Proto.ofStr_asStr (proto : Proto) : Proto.ofStr proto.asStr = some proto := by
  cases proto <;> rfl

theorem Proto.ofStr_eq_some {s : List Char} {proto : Proto} :
    Proto.ofStr s = some proto ↔ s = proto.asStr := by
  constructor
  · intro read
    unfold Proto.ofStr at read
    split at read
    all_goals cases read
    all_goals rfl
  · rintro rfl
    exact Proto.ofStr_asStr proto

theorem splitOnText_rule (proto : Proto) (rest : List Char) :
    splitOnText [':', '/', '/'] (proto.asStr ++ [':', '/', '/'] ++ rest) =
      some (proto.asStr, rest) := by
  cases proto <;> simp [Proto.asStr, splitOnText]

def NoWhitespace (token : List Char) : Prop := ∀ c ∈ token, isWhitespace c = false

theorem rejectWhitespace_eq_ok {token raw : List Char} :
    rejectWhitespace token raw = .ok () ↔ NoWhitespace token := by
  simp [rejectWhitespace, NoWhitespace]

theorem parseRule_eq_ok {ip : IpText} {raw : List Char} {rule : NetworkRule} :
    parseRule ip raw = .ok rule ↔ ∃ proto rest, raw = proto.asStr ++ [':', '/', '/'] ++ rest ∧
      parseAuthority ip proto rest raw = .ok rule := by
  constructor
  · intro parsed
    unfold parseRule at parsed
    split at parsed
    · cases parsed
    · next protoStr rest split_ =>
        split at parsed
        · cases parsed
        · next proto read =>
            refine ⟨proto, rest, ?_, parsed⟩
            rw [eq_append_of_splitOnText split_, Proto.ofStr_eq_some.mp read]
  · rintro ⟨proto, rest, rfl, parsed⟩
    simp only [parseRule, splitOnText_rule, Proto.ofStr_asStr, parsed]

/-- The port of a rule, and the default of one without. -/
def ReadsPort (proto : Proto) (full : List Char) : Option (List Char) → PortMatch → Prop
  | some port, result => NoWhitespace port ∧ parsePort port full = .ok result
  | none, result => proto = .https ∧ result = .exact 443

theorem defaultPort_eq_ok {proto : Proto} {port : PortMatch} :
    defaultPort proto = .ok port ↔ proto = .https ∧ port = .exact 443 := by
  cases proto <;> simp [defaultPort, eq_comm]

theorem parseAuthority_eq_ok {ip : IpText} {proto : Proto} {rest raw : List Char}
    {rule : NetworkRule} :
    parseAuthority ip proto rest raw = .ok rule ↔ rule.proto = proto ∧
      ∃ authority, splitAuthority rest = .ok authority ∧ NoWhitespace authority.host ∧
        parseHost ip authority.host raw authority.bracketed = .ok rule.host ∧
        ReadsPort proto raw authority.port rule.port := by
  unfold parseAuthority
  simp only [bind_eq_ok]
  constructor
  · rintro ⟨⟨host, port, bracketed⟩, split_, ⟨⟩, clean, parsed⟩
    cases port with
    | some port =>
        simp only [bind_eq_ok] at parsed
        obtain ⟨⟨⟩, cleanPort, result, readHost, match_, readPort, same⟩ := parsed
        cases same
        exact ⟨rfl, _, split_, rejectWhitespace_eq_ok.mp clean, readHost,
          rejectWhitespace_eq_ok.mp cleanPort, readPort⟩
    | none =>
        simp only [bind_eq_ok] at parsed
        obtain ⟨result, readHost, match_, readPort, same⟩ := parsed
        cases same
        exact ⟨rfl, _, split_, rejectWhitespace_eq_ok.mp clean, readHost,
          defaultPort_eq_ok.mp readPort⟩
  · obtain ⟨proto', host', port'⟩ := rule
    rintro ⟨rfl, ⟨host, port, bracketed⟩, split_, clean, readHost, readPort⟩
    refine ⟨_, split_, (), rejectWhitespace_eq_ok.mpr clean, ?_⟩
    cases port with
    | some port =>
        simp only [bind_eq_ok]
        exact ⟨(), rejectWhitespace_eq_ok.mpr readPort.1, host', readHost, port', readPort.2, rfl⟩
    | none =>
        simp only [bind_eq_ok]
        exact ⟨host', readHost, port', defaultPort_eq_ok.mpr readPort, rfl⟩

end OxidHome.Manifest

import OxidHome.Manifest.NetworkRule

/-!
# The canonical text of a network rule

What a rule is printed as reads back as that rule.
-/

namespace OxidHome.Manifest
open Library

def addrChars : List Char :=
  ['0', '1', '2', '3', '4', '5', '6', '7', '8', '9', 'a', 'b', 'c', 'd', 'e', 'f',
    'A', 'B', 'C', 'D', 'E', 'F', '.', ':']

def netChars : List Char := '/' :: addrChars

/-- What the parser relies on of addresses as text. -/
structure IpText.Lawful (ip : IpText) : Prop where
  addr_text : ∀ t addr, ip.parseAddr t = some addr → ip.parseAddr (ip.addr addr) = some addr
  net_text : ∀ t net, ip.parseNet t = some net → ip.parseNet (ip.net net) = some net
  addr_chars : ∀ t addr, ip.parseAddr t = some addr → t ≠ [] ∧ t ⊆ addrChars
  net_chars : ∀ t net, ip.parseNet t = some net → '/' ∈ t ∧ t ⊆ netChars
  addr_colons : ∀ t addr, ip.parseAddr t = some addr →
    if addr.isIpv6 then 2 ≤ t.count ':' else ':' ∉ t
  net_colons : ∀ t net, ip.parseNet t = some net →
    if net.isIpv6 then 2 ≤ t.count ':' else ':' ∉ t

theorem netChars_plain : ∀ c ∈ netChars, isWhitespace c = false ∧ c ≠ '[' ∧ c ≠ ']' ∧ c ≠ '*' := by
  simp [netChars, addrChars, isWhitespace]

theorem addrChars_plain : ∀ c ∈ addrChars, c ∈ netChars ∧ c ≠ '/' := by
  simp [netChars, addrChars]

def IsWildcard (t : List Char) : Prop := ['*', '.'] <+: t

instance (t : List Char) : Decidable (IsWildcard t) := inferInstanceAs (Decidable (_ <+: _))

theorem not_isWildcard {t : List Char} (plain : t ⊆ netChars) : ¬ IsWildcard t := by
  intro wild
  have star : '*' ∈ t := wild.subset (by decide)
  exact (netChars_plain '*' (plain star)).2.2.2 rfl

section
variable {ip : IpText}

theorem IpText.Lawful.addr_plain (lawful : ip.Lawful) {t : List Char} {addr : IpAddr}
    (read : ip.parseAddr t = some addr) : t ⊆ netChars ∧ '/' ∉ t := by
  obtain ⟨_, chars⟩ := lawful.addr_chars t addr read
  exact ⟨fun c mem => (addrChars_plain c (chars mem)).1,
    fun slash => (addrChars_plain '/' (chars slash)).2 rfl⟩

/-! ## Hosts -/

inductive HostText (ip : IpText) : Bool → List Char → HostMatch → Prop where
  | wildcard {suffix : List Char} : suffix ≠ [] → suffix.head? ≠ some '.' →
      HostText ip false ('*' :: '.' :: suffix) (.suffixWildcard (.ofList ('.' :: suffix)))
  | cidr {bracketed : Bool} {t : List Char} {net : IpNet} : ip.parseNet t = some net →
      (bracketed = true → net.isIpv6 = true) → HostText ip bracketed t (.cidr net)
  | addr {bracketed : Bool} {t : List Char} {addr : IpAddr} : ip.parseAddr t = some addr →
      (bracketed = true → addr.isIpv6 = true) →
      HostText ip bracketed t (.exact (.ofList (ip.addr addr)))
  | name {t : List Char} : t ≠ [] → ¬ IsWildcard t → '/' ∉ t → ':' ∉ t → ip.parseAddr t = none →
      HostText ip false t (.exact (.ofList t))

theorem parseBracketed_eq_ok (lawful : ip.Lawful) {t : List Char} {host : HostMatch} :
    parseBracketed ip t = .ok host ↔ HostText ip true t host := by
  constructor
  · intro parsed
    unfold parseBracketed at parsed
    split at parsed
    · cases read : ip.parseNet t with
      | none => simp [read] at parsed
      | some net =>
          simp only [read] at parsed
          split at parsed
          · next v6 =>
              cases parsed
              exact .cidr read fun _ => v6
          · cases parsed
    · cases read : ip.parseAddr t with
      | none => simp [read] at parsed
      | some addr =>
          simp only [read] at parsed
          split at parsed
          · next v6 =>
              cases parsed
              exact .addr read fun _ => v6
          · cases parsed
  · intro text
    generalize bracket : true = bracketed at text
    cases text with
    | wildcard => cases bracket
    | name => cases bracket
    | cidr read v6 =>
        rw [parseBracketed, if_pos (lawful.net_chars _ _ read).1, read]
        exact if_pos (v6 bracket.symm)
    | addr read v6 =>
        rw [parseBracketed, if_neg (lawful.addr_plain read).2, read]
        exact if_pos (v6 bracket.symm)

theorem parseUnbracketed_of_plain {t : List Char} (plain : ¬ IsWildcard t) :
    parseUnbracketed ip t =
      if '/' ∈ t then
        match ip.parseNet t with
        | none => .error (.invalidCidr t)
        | some net => .ok (.cidr net)
      else
        match ip.parseAddr t with
        | some addr => .ok (.exact (.ofList (ip.addr addr)))
        | none => if ':' ∈ t then .error (.invalidHost t) else .ok (.exact (.ofList t)) := by
  unfold parseUnbracketed
  split
  · next suffix => exact absurd ⟨suffix, rfl⟩ plain
  · rfl

theorem parseUnbracketed_eq_ok (lawful : ip.Lawful) {t : List Char} {host : HostMatch}
    (nonempty : t ≠ []) : parseUnbracketed ip t = .ok host ↔ HostText ip false t host := by
  constructor
  · intro parsed
    by_cases wild : IsWildcard t
    · obtain ⟨suffix, rfl⟩ := wild
      simp only [List.cons_append, List.nil_append, parseUnbracketed] at parsed
      split at parsed
      · cases parsed
      · next ok =>
          rw [not_or] at ok
          cases parsed
          exact .wildcard ok.1 ok.2
    · rw [parseUnbracketed_of_plain wild] at parsed
      split at parsed
      · cases read : ip.parseNet t with
        | none => simp [read] at parsed
        | some net =>
            simp only [read, Except.ok.injEq] at parsed
            subst parsed
            exact .cidr read (by simp)
      · next slashless =>
          cases read : ip.parseAddr t with
          | some addr =>
              simp only [read, Except.ok.injEq] at parsed
              subst parsed
              exact .addr read (by simp)
          | none =>
              simp only [read] at parsed
              split at parsed
              · cases parsed
              · next colonless =>
                  cases parsed
                  exact .name nonempty wild slashless colonless read
  · intro text
    generalize bracket : false = bracketed at text
    cases text with
    | wildcard some_ undotted =>
        exact if_neg (not_or.mpr ⟨some_, undotted⟩)
    | cidr read v6 =>
        obtain ⟨slash, chars⟩ := lawful.net_chars _ _ read
        rw [parseUnbracketed_of_plain (not_isWildcard chars), if_pos slash, read]
    | addr read v6 =>
        obtain ⟨chars, slashless⟩ := lawful.addr_plain read
        rw [parseUnbracketed_of_plain (not_isWildcard chars), if_neg slashless, read]
    | name some_ plain slashless colonless read =>
        rw [parseUnbracketed_of_plain plain, if_neg slashless, read]
        exact if_neg colonless

theorem HostText.nonempty (lawful : ip.Lawful) {bracketed : Bool} {t : List Char}
    {host : HostMatch} (text : HostText ip bracketed t host) : t ≠ [] := by
  cases text with
  | wildcard => simp
  | cidr read => exact List.ne_nil_of_mem (lawful.net_chars _ _ read).1
  | addr read => exact (lawful.addr_chars _ _ read).1
  | name some_ => exact some_

theorem parseHost_eq_ok (lawful : ip.Lawful) {t full : List Char} {bracketed : Bool}
    {host : HostMatch} :
    parseHost ip t full bracketed = .ok host ↔ HostText ip bracketed t host := by
  unfold parseHost
  by_cases empty : t = []
  · rw [if_pos empty]
    exact iff_of_false (by simp) fun text => text.nonempty lawful empty
  · rw [if_neg empty]
    cases bracketed with
    | true => exact parseBracketed_eq_ok lawful
    | false => exact parseUnbracketed_eq_ok lawful empty

structure IsLiteral (ip : IpText) (t : List Char) (host : HostMatch) : Prop where
  chars : t ⊆ netChars
  text : HostText ip false t host
  colons : ':' ∈ t → HostText ip true t host ∧ 2 ≤ t.count ':'

theorem IsLiteral.of_net (lawful : ip.Lawful) {t : List Char} {net : IpNet}
    (read : ip.parseNet t = some net) : IsLiteral ip t (.cidr net) where
  chars := (lawful.net_chars _ _ read).2
  text := .cidr read (by simp)
  colons := by
    intro colon
    have colons := lawful.net_colons _ _ read
    cases v6 : net.isIpv6 with
    | true =>
        rw [v6, if_pos rfl] at colons
        exact ⟨.cidr read fun _ => v6, colons⟩
    | false =>
        rw [v6, if_neg (by decide)] at colons
        exact absurd colon colons

theorem IsLiteral.of_addr (lawful : ip.Lawful) {t : List Char} {addr : IpAddr}
    (read : ip.parseAddr t = some addr) : IsLiteral ip t (.exact (.ofList (ip.addr addr))) where
  chars := (lawful.addr_plain read).1
  text := .addr read (by simp)
  colons := by
    intro colon
    have colons := lawful.addr_colons _ _ read
    cases v6 : addr.isIpv6 with
    | true =>
        rw [v6, if_pos rfl] at colons
        exact ⟨.addr read fun _ => v6, colons⟩
    | false =>
        rw [v6, if_neg (by decide)] at colons
        exact absurd colon colons

theorem HostText.printed (lawful : ip.Lawful) {bracketed : Bool} {t : List Char} {host : HostMatch}
    (text : HostText ip bracketed t host) :
    IsLiteral ip (host.text ip) host ∨
      bracketed = false ∧ host.text ip = t ∧ HostText ip false t host := by
  cases text with
  | wildcard some_ undotted =>
      refine .inr ⟨rfl, ?_, .wildcard some_ undotted⟩
      simp [HostMatch.text]
  | cidr read => exact .inl (.of_net lawful (lawful.net_text _ _ read))
  | addr read =>
      left
      simp only [HostMatch.text, String.toList_ofList]
      exact .of_addr lawful (lawful.addr_text _ _ read)
  | name some_ plain slashless colonless read =>
      refine .inr ⟨rfl, ?_, .name some_ plain slashless colonless read⟩
      simp [HostMatch.text]

/-! ## Ports -/

theorem digit_plain {c : Char} (digit : c.isDigit) :
    isWhitespace c = false ∧ c ≠ ':' ∧ c ≠ '/' ∧ c ≠ '-' ∧ c ≠ '*' ∧ c ≠ '+' := by
  have bounds : 48 ≤ c.toNat ∧ c.toNat ≤ 57 := by
    simpa [Char.isDigit, UInt32.le_iff_toNat_le] using digit
  have apart (d : Char) (other : d.toNat < 48 ∨ 57 < d.toNat) : c ≠ d := by
    rintro rfl
    omega
  refine ⟨?_, apart _ (by decide), apart _ (by decide), apart _ (by decide), apart _ (by decide),
    apart _ (by decide)⟩
  simp only [isWhitespace, List.mem_cons, List.not_mem_nil, or_false, Bool.or_eq_false_iff,
    Bool.and_eq_false_iff, decide_eq_false_iff_not]
  omega

theorem decimal_toDigits (port : UInt16) :
    Decimal (2 ^ 16) (Nat.toDigits 10 port.toNat) port.toNat where
  nonempty := Nat.toDigits_ne_nil
  digits := fun c mem => Nat.isDigit_of_mem_toDigits (by decide) (by decide) mem
  value := Nat.ofDigitChars_ten_toDigits
  small := port.toNat_lt

theorem parseU16_eq_ok {t : List Char} {port : UInt16} :
    parseU16 t = .ok port ↔ parseUnsigned (2 ^ 16) t = some port.toNat := by
  unfold parseU16
  cases read : parseUnsigned (2 ^ 16) t with
  | none => simp
  | some n =>
      have small : n < 2 ^ 16 := by
        rcases (parseUnsigned_eq_some (by decide)).mp read with decimal | ⟨digits, _, decimal⟩
        · exact decimal.small
        · exact decimal.small
      simp only [Except.ok.injEq, Option.some.injEq]
      constructor
      · rintro rfl
        exact (UInt16.toNat_ofNat_of_lt' small).symm
      · rintro rfl
        exact UInt16.ofNat_toNat

theorem parseU16_toDigits (port : UInt16) : parseU16 (Nat.toDigits 10 port.toNat) = .ok port :=
  parseU16_eq_ok.mpr ((parseUnsigned_eq_some (by decide)).mpr (.inl (decimal_toDigits port)))

theorem decimal_plain {bound n : Nat} {t : List Char} (decimal : Decimal bound t n) {c : Char}
    (mem : c ∈ t) : isWhitespace c = false ∧ c ≠ ':' ∧ c ≠ '/' ∧ c ≠ '-' ∧ c ≠ '*' ∧ c ≠ '+' :=
  digit_plain (decimal.digits c mem)

theorem PortMatch.text_plain (port : PortMatch) :
    ∀ c ∈ port.text, isWhitespace c = false ∧ c ≠ ':' ∧ c ≠ '/' := by
  have digits (p : UInt16) : ∀ c ∈ Nat.toDigits 10 p.toNat,
      isWhitespace c = false ∧ c ≠ ':' ∧ c ≠ '/' := by
    intro c mem
    obtain ⟨clean, colon, slash, _⟩ := decimal_plain (decimal_toDigits p) mem
    exact ⟨clean, colon, slash⟩
  cases port with
  | any => simp [PortMatch.text, isWhitespace]
  | exact p => exact digits p
  | range lo hi =>
      intro c mem
      rcases List.mem_append.mp mem with first | last
      · exact digits lo c first
      · rcases List.mem_cons.mp last with rfl | last
        · simp [isWhitespace]
        · exact digits hi c last

theorem not_star {bound n : Nat} {t : List Char} (decimal : Decimal bound t n) : t ≠ ['*'] := by
  rintro rfl
  exact (decimal_plain decimal (List.mem_singleton.mpr rfl)).2.2.2.2.1 rfl

theorem dashless {bound n : Nat} {t : List Char} (decimal : Decimal bound t n) : '-' ∉ t :=
  fun mem => (decimal_plain decimal mem).2.2.2.1 rfl

theorem parsePort_text {port : PortMatch} {full : List Char}
    (ordered : ∀ lo hi, port = .range lo hi → lo ≤ hi) : parsePort port.text full = .ok port := by
  cases port with
  | any => rfl
  | exact p =>
      have decimal := decimal_toDigits p
      rw [PortMatch.text, parsePort, if_neg (not_star decimal),
        splitOnce_eq_none.mpr (dashless decimal), parseU16_toDigits]
      rfl
  | range lo hi =>
      have decimal := decimal_toDigits lo
      have stars : Nat.toDigits 10 lo.toNat ++ '-' :: Nat.toDigits 10 hi.toNat ≠ ['*'] := by
        intro same
        have dash : '-' ∈ ['*'] := same ▸ List.mem_append_right _ List.mem_cons_self
        exact absurd dash (by decide)
      rw [PortMatch.text, parsePort, if_neg stars, splitOnce_append (dashless decimal)]
      simp only [parseU16_toDigits, bind, Except.bind]
      exact if_neg (UInt16.not_lt.mpr (ordered lo hi rfl))

theorem parsePort_ordered {t full : List Char} {lo hi : UInt16}
    (parsed : parsePort t full = .ok (.range lo hi)) : lo ≤ hi := by
  unfold parsePort at parsed
  split at parsed
  · cases parsed
  · split at parsed
    · simp only [bind_eq_ok] at parsed
      obtain ⟨lo', _, hi', _, parsed⟩ := parsed
      split at parsed
      · cases parsed
      · next ordered =>
          cases parsed
          exact UInt16.not_lt.mp ordered
    · cases read : parseU16 t <;> simp [read, Except.map] at parsed

/-! ## Authorities -/

theorem splitHostPort_ported {t p : List Char} (colonless : ':' ∉ t) (plain : ':' ∉ p)
    (slashless : '/' ∉ p) : splitHostPort (t ++ ':' :: p) = (t, some p) := by
  rw [splitHostPort, rsplitOnce_append t plain]
  exact if_neg (not_or.mpr ⟨colonless, slashless⟩)

theorem splitHostPort_whole {t : List Char} (colons : ':' ∈ t → 2 ≤ t.count ':') :
    splitHostPort t = (t, none) := by
  unfold splitHostPort
  cases split_ : rsplitOnce ':' t with
  | none => rfl
  | some parts =>
      obtain ⟨host, port⟩ := parts
      obtain ⟨plain, rfl⟩ := rsplitOnce_eq_some.mp split_
      have two := colons (List.mem_append_right _ List.mem_cons_self)
      rw [List.count_append, List.count_cons_self, List.count_eq_zero_of_not_mem plain] at two
      have another : ':' ∈ host := List.count_pos_iff.mp (by omega)
      exact if_pos (.inl another)

theorem splitHostPort_cases (rest : List Char) :
    splitHostPort rest = (rest, none) ∨ ∃ t p, rest = t ++ ':' :: p ∧ ':' ∉ t ∧ ':' ∉ p ∧ '/' ∉ p ∧
      splitHostPort rest = (t, some p) := by
  unfold splitHostPort
  cases split_ : rsplitOnce ':' rest with
  | none => exact .inl rfl
  | some parts =>
      obtain ⟨host, port⟩ := parts
      obtain ⟨plain, same⟩ := rsplitOnce_eq_some.mp split_
      by_cases whole : ':' ∈ host ∨ '/' ∈ port
      · exact .inl (if_pos whole)
      · obtain ⟨colonless, slashless⟩ := not_or.mp whole
        exact .inr ⟨host, port, same, colonless, plain, slashless, if_neg whole⟩

inductive AuthorityText : List Char → Authority → Prop where
  | whole {t : List Char} : t.head? ≠ some '[' → splitHostPort t = (t, none) →
      AuthorityText t ⟨t, none, false⟩
  | ported {t p : List Char} : t.head? ≠ some '[' → ':' ∉ t → ':' ∉ p → '/' ∉ p →
      AuthorityText (t ++ ':' :: p) ⟨t, some p, false⟩
  | bracketed {t : List Char} : ']' ∉ t → AuthorityText ('[' :: (t ++ [']'])) ⟨t, none, true⟩
  | bracketedPort {t p : List Char} : ']' ∉ t →
      AuthorityText ('[' :: (t ++ ']' :: ':' :: p)) ⟨t, some p, true⟩

theorem splitAuthority_unbracketed {rest : List Char} (plain : rest.head? ≠ some '[') :
    splitAuthority rest = .ok ⟨(splitHostPort rest).1, (splitHostPort rest).2, false⟩ := by
  unfold splitAuthority
  split
  · exact absurd rfl plain
  · rfl

theorem head?_append_cons {t p : List Char} (plain : t.head? ≠ some '[') :
    (t ++ ':' :: p).head? ≠ some '[' := by
  cases t with
  | nil => simp
  | cons c t => simpa using plain

theorem splitAuthority_eq_ok {rest : List Char} {authority : Authority} :
    splitAuthority rest = .ok authority ↔ AuthorityText rest authority := by
  constructor
  · intro ok
    by_cases open_ : rest.head? = some '['
    · obtain ⟨after, rfl⟩ := List.head?_eq_some_iff.mp open_
      simp only [splitAuthority] at ok
      split at ok
      · cases ok
      · next host split_ =>
          obtain ⟨absent, rfl⟩ := splitOnce_eq_some.mp split_
          cases ok
          exact .bracketed absent
      · next host port split_ =>
          obtain ⟨absent, rfl⟩ := splitOnce_eq_some.mp split_
          cases ok
          exact .bracketedPort absent
      · cases ok
    · rw [splitAuthority_unbracketed open_] at ok
      cases ok
      rcases splitHostPort_cases rest with whole | ⟨t, p, rfl, colonless, plain, slashless, ported⟩
      · rw [whole]
        exact .whole open_ whole
      · rw [ported]
        refine .ported ?_ colonless plain slashless
        intro first
        obtain ⟨tail, rfl⟩ := List.head?_eq_some_iff.mp first
        exact open_ rfl
  · intro text
    cases text with
    | whole plain whole => rw [splitAuthority_unbracketed plain, whole]
    | ported open_ colonless plain slashless =>
        rw [splitAuthority_unbracketed (head?_append_cons open_),
          splitHostPort_ported colonless plain slashless]
    | bracketed absent => simp only [splitAuthority, splitOnce_append absent]
    | bracketedPort absent => simp only [splitAuthority, splitOnce_append absent]

/-! ## Printing and reading back -/

structure ReadsRule (ip : IpText) (rest raw : List Char) (rule : NetworkRule)
    (authority : Authority) : Prop where
  text : AuthorityText rest authority
  clean : NoWhitespace authority.host
  host : HostText ip authority.bracketed authority.host rule.host
  port : ReadsPort rule.proto raw authority.port rule.port

theorem parseAuthority_reads (lawful : ip.Lawful) {rest raw : List Char} {rule : NetworkRule} :
    parseAuthority ip rule.proto rest raw = .ok rule ↔ ∃ authority, ReadsRule ip rest raw rule authority := by
  rw [parseAuthority_eq_ok]
  constructor
  · rintro ⟨_, authority, split_, clean, host, port⟩
    exact ⟨authority, splitAuthority_eq_ok.mp split_, clean, (parseHost_eq_ok lawful).mp host, port⟩
  · rintro ⟨authority, text, clean, host, port⟩
    exact ⟨rfl, authority, splitAuthority_eq_ok.mpr text, clean, (parseHost_eq_ok lawful).mpr host,
      port⟩

theorem ReadsPort.ordered {proto : Proto} {full : List Char} {token : Option (List Char)}
    {port : PortMatch} (reads : ReadsPort proto full token port) (lo hi : UInt16)
    (same : port = .range lo hi) : lo ≤ hi := by
  subst same
  cases token with
  | none => cases reads.2
  | some t => exact parsePort_ordered reads.2

theorem ReadsPort.printed {proto : Proto} {full raw : List Char} {token : Option (List Char)}
    {port : PortMatch} (reads : ReadsPort proto full token port) :
    ReadsPort proto raw (some port.text) port :=
  ⟨fun c mem => (port.text_plain c mem).1, parsePort_text reads.ordered⟩

theorem IsLiteral.clean {t : List Char} {host : HostMatch} (literal : IsLiteral ip t host) :
    NoWhitespace t := fun c mem => (netChars_plain c (literal.chars mem)).1

theorem IsLiteral.head {t : List Char} {host : HostMatch} (literal : IsLiteral ip t host) :
    t.head? ≠ some '[' := by
  intro first
  have mem := List.mem_of_head? first
  exact (netChars_plain '[' (literal.chars mem)).2.1 rfl

theorem IsLiteral.close {t : List Char} {host : HostMatch} (literal : IsLiteral ip t host) :
    ']' ∉ t := fun mem => (netChars_plain ']' (literal.chars mem)).2.2.1 rfl

theorem PortMatch.text_ported (port : PortMatch) : ':' ∉ port.text ∧ '/' ∉ port.text :=
  ⟨fun mem => (port.text_plain ':' mem).2.1 rfl, fun mem => (port.text_plain '/' mem).2.2 rfl⟩

theorem authorityText_reads (lawful : ip.Lawful) {rest full raw : List Char} {rule : NetworkRule}
    {authority : Authority} (reads : ReadsRule ip rest full rule authority) :
    ∃ authority', ReadsRule ip (authorityText ip rule) raw rule authority' := by
  obtain ⟨text, clean, host, port⟩ := reads
  have noColon (colonless : ':' ∉ rule.host.text ip) (open_ : (rule.host.text ip).head? ≠ some '[')
      (clean : NoWhitespace (rule.host.text ip)) (host : HostText ip false (rule.host.text ip) rule.host) :
      ReadsRule ip (rule.host.text ip ++ ':' :: rule.port.text) raw rule
        ⟨rule.host.text ip, some rule.port.text, false⟩ :=
    ⟨.ported open_ colonless rule.port.text_ported.1 rule.port.text_ported.2, clean, host,
      port.printed⟩
  unfold authorityText
  rcases host.printed lawful with literal | ⟨bare, same, host'⟩
  · by_cases default : rule.proto = .https ∧ rule.port = .exact 443
    · rw [if_pos default]
      have whole := splitHostPort_whole fun colon => (literal.colons colon).2
      exact ⟨_, .whole literal.head whole, literal.clean, literal.text, default⟩
    · rw [if_neg default]
      by_cases colon : ':' ∈ rule.host.text ip
      · rw [if_pos colon]
        exact ⟨_, .bracketedPort literal.close, literal.clean, (literal.colons colon).1, port.printed⟩
      · rw [if_neg colon]
        exact ⟨_, noColon colon literal.head literal.clean literal.text⟩
  · rw [same] at noColon ⊢
    cases text with
    | whole open_ whole =>
        have default : rule.proto = .https ∧ rule.port = .exact 443 := port
        rw [if_pos default]
        exact ⟨_, .whole open_ whole, clean, host', port⟩
    | ported open_ colonless =>
        by_cases default : rule.proto = .https ∧ rule.port = .exact 443
        · rw [if_pos default]
          have whole := splitHostPort_whole fun colon => absurd colon colonless
          exact ⟨_, .whole open_ whole, clean, host', default⟩
        · rw [if_neg default, if_neg colonless]
          exact ⟨_, noColon colonless open_ clean host'⟩
    | bracketed => cases bare
    | bracketedPort => cases bare

theorem authorityText_clean (lawful : ip.Lawful) {rest full : List Char} {rule : NetworkRule}
    {authority : Authority} (reads : ReadsRule ip rest full rule authority) :
    NoWhitespace (authorityText ip rule) := by
  have hostClean : NoWhitespace (rule.host.text ip) := by
    rcases reads.host.printed lawful with literal | ⟨_, same, _⟩
    · exact literal.clean
    · rw [same]
      exact reads.clean
  have portClean : NoWhitespace rule.port.text := fun c mem => (rule.port.text_plain c mem).1
  have marks : NoWhitespace [':', '[', ']'] := by simp [NoWhitespace, isWhitespace]
  intro c mem
  have sources : c ∈ rule.host.text ip ∨ c ∈ rule.port.text ∨ c ∈ [':', '[', ']'] := by
    unfold authorityText at mem
    dsimp only at mem
    split at mem
    · exact .inl mem
    · split at mem
      · simp only [List.mem_cons, List.mem_append] at mem ⊢
        tauto
      · simp only [List.mem_cons, List.mem_append] at mem ⊢
        tauto
  rcases sources with host | port | mark
  · exact hostClean c host
  · exact portClean c port
  · exact marks c mark

theorem scheme_clean (proto : Proto) : NoWhitespace (proto.asStr ++ [':', '/', '/']) := by
  cases proto <;> simp [NoWhitespace, Proto.asStr, isWhitespace]

theorem fromStr_display (lawful : ip.Lawful) {s : String} {rule : NetworkRule}
    (parsed : NetworkRule.fromStr ip s = .ok rule) :
    NetworkRule.fromStr ip (rule.display ip) = .ok rule := by
  obtain ⟨proto, rest, _, parsed⟩ := parseRule_eq_ok.mp parsed
  obtain ⟨rfl, _⟩ := parseAuthority_eq_ok.mp parsed
  obtain ⟨authority, reads⟩ := (parseAuthority_reads lawful).mp parsed
  have clean : NoWhitespace (rule.proto.asStr ++ [':', '/', '/'] ++ authorityText ip rule) := by
    intro c mem
    rcases List.mem_append.mp mem with scheme | mem
    · exact scheme_clean rule.proto c scheme
    · exact authorityText_clean lawful reads c mem
  rw [NetworkRule.fromStr, NetworkRule.display, String.toList_ofList, trim_of_none clean]
  refine parseRule_eq_ok.mpr ⟨rule.proto, authorityText ip rule, rfl, ?_⟩
  exact (parseAuthority_reads lawful).mpr (authorityText_reads lawful reads)

end

/-! ## Stored grants -/

def serializeRules (ip : IpText) (rules : List NetworkRule) : List String :=
  rules.map (NetworkRule.display ip)

def deserializeRules (ip : IpText) (texts : List String) :
    Except NetworkRuleParseError (List NetworkRule) :=
  texts.mapM (NetworkRule.fromStr ip)

theorem network_rules_round_trip (ip : IpText) (lawful : ip.Lawful) :
    (∀ s rule, NetworkRule.fromStr ip s = .ok rule →
      NetworkRule.fromStr ip (rule.display ip) = .ok rule) ∧
    ∀ texts rules, deserializeRules ip texts = .ok rules →
      deserializeRules ip (serializeRules ip rules) = .ok rules := by
  refine ⟨fun s rule => fromStr_display lawful, fun texts rules read => ?_⟩
  have each := mapM_eq_ok.mp read
  apply mapM_eq_ok.mpr
  rw [serializeRules, List.forall₂_map_left_iff, List.forall₂_same]
  intro rule mem
  obtain ⟨s, parsed⟩ : ∃ s, NetworkRule.fromStr ip s = .ok rule := by
    clear read
    induction each with
    | nil => cases mem
    | cons first _ ih =>
        rcases List.mem_cons.mp mem with rfl | mem
        · exact ⟨_, first⟩
        · exact ih mem
  exact fromStr_display lawful parsed

def documentationIp : IpText where
  parseAddr t :=
    if t = "2001:db8::1".toList then some (.v6 0x20010db8000000000000000000000001)
    else if t = "192.0.2.1".toList then some (.v4 0xc0000201)
    else none
  parseNet t := if t = "192.0.2.0/24".toList then some (.v4 0xc0000200 24) else none
  addr
    | .v6 _ => "2001:db8::1".toList
    | .v4 _ => "192.0.2.1".toList
  net _ := "192.0.2.0/24".toList

theorem documentationIp_addr {t : List Char} {addr : IpAddr}
    (read : documentationIp.parseAddr t = some addr) :
    t = "2001:db8::1".toList ∧ addr = .v6 0x20010db8000000000000000000000001 ∨
      t = "192.0.2.1".toList ∧ addr = .v4 0xc0000201 := by
  simp only [documentationIp] at read
  split_ifs at read with v6 v4
  · exact .inl ⟨v6, (Option.some.inj read).symm⟩
  · exact .inr ⟨v4, (Option.some.inj read).symm⟩

theorem documentationIp_net {t : List Char} {net : IpNet}
    (read : documentationIp.parseNet t = some net) :
    t = "192.0.2.0/24".toList ∧ net = .v4 0xc0000200 24 := by
  simp only [documentationIp, Option.ite_none_right_eq_some, Option.some.injEq] at read
  exact ⟨read.1, read.2.symm⟩

theorem documentationIp_lawful : documentationIp.Lawful where
  addr_text := by
    intro t addr read
    obtain ⟨_, rfl⟩ | ⟨_, rfl⟩ := documentationIp_addr read
    · rfl
    · rfl
  net_text := by
    intro t net read
    obtain ⟨_, rfl⟩ := documentationIp_net read
    rfl
  addr_chars := by
    intro t addr read
    obtain ⟨rfl, _⟩ | ⟨rfl, _⟩ := documentationIp_addr read
    · exact ⟨by decide, by simp [addrChars]⟩
    · exact ⟨by decide, by simp [addrChars]⟩
  net_chars := by
    intro t net read
    obtain ⟨rfl, _⟩ := documentationIp_net read
    exact ⟨by decide, by simp [netChars, addrChars]⟩
  addr_colons := by
    intro t addr read
    obtain ⟨rfl, rfl⟩ | ⟨rfl, rfl⟩ := documentationIp_addr read
    · decide
    · decide
  net_colons := by
    intro t net read
    obtain ⟨rfl, rfl⟩ := documentationIp_net read
    decide

theorem network_rules_round_trip_ipv6 :
    deserializeRules documentationIp (serializeRules documentationIp
        [⟨.tcp, .exact "2001:db8::1", .exact 1883⟩, ⟨.https, .suffixWildcard ".example.com", .exact 443⟩]) =
      .ok [⟨.tcp, .exact "2001:db8::1", .exact 1883⟩, ⟨.https, .suffixWildcard ".example.com", .exact 443⟩] :=
  (network_rules_round_trip documentationIp documentationIp_lawful).2
    ["tcp://[2001:db8::1]:01883", "https://*.example.com:443"] _ rfl

end OxidHome.Manifest

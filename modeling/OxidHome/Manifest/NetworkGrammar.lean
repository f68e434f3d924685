import OxidHome.Manifest.NetworkText

/-!
# The grammar of network rules

The grammar of the module documentation of `network.rs`, and the texts that the parser accepts beyond
it: wildcards with a colon in the suffix, names with a bracket, and port numbers with a plus sign.
What the grammar leaves open, such as the characters of a name, is left open here.
-/

namespace OxidHome.Manifest
open Library

/-! ## Tokens -/

def Digits (t : List Char) (n : Nat) : Prop := Decimal (2 ^ 16) t n

def SignedDigits (t : List Char) (n : Nat) : Prop :=
  Digits t n ∨ ∃ digits, t = '+' :: digits ∧ Digits digits n

inductive PortText (number : List Char → Nat → Prop) : List Char → Prop where
  | one {t : List Char} {n : Nat} : number t n → PortText number t
  | range {lo hi : List Char} {m n : Nat} : number lo m → number hi n → m ≤ n →
      PortText number (lo ++ '-' :: hi)
  | any : PortText number ['*']

section
variable (ip : IpText)

inductive PlainHost : List Char → Prop where
  | name {t : List Char} : t ≠ [] → NoWhitespace t → ¬ IsWildcard t → '/' ∉ t → ':' ∉ t → PlainHost t
  | wildcard {suffix : List Char} : suffix ≠ [] → suffix.head? ≠ some '.' → NoWhitespace suffix →
      ':' ∉ suffix → PlainHost ('*' :: '.' :: suffix)
  | address {t : List Char} {addr : IpAddr} : ip.parseAddr t = some addr → addr.isIpv6 = false →
      PlainHost t
  | cidr {t : List Char} {net : IpNet} : ip.parseNet t = some net → net.isIpv6 = false → PlainHost t

inductive Ipv6Host : List Char → Prop where
  | address {t : List Char} {addr : IpAddr} : ip.parseAddr t = some addr → addr.isIpv6 = true →
      Ipv6Host t
  | cidr {t : List Char} {net : IpNet} : ip.parseNet t = some net → net.isIpv6 = true → Ipv6Host t

end

/-! ## Rules -/

/-- The forms of an authority, by what may stand as its host and port. -/
inductive AuthorityRule (plain ipv6 : List Char → Option (List Char) → Prop) : List Char → Prop where
  | host {t : List Char} : plain t none → AuthorityRule plain ipv6 t
  | hostPort {t p : List Char} : plain t (some p) → AuthorityRule plain ipv6 (t ++ ':' :: p)
  | ipv6 {t : List Char} : ipv6 t none → AuthorityRule plain ipv6 t
  | bracketed {t : List Char} : ipv6 t none → AuthorityRule plain ipv6 ('[' :: (t ++ [']']))
  | bracketedPort {t p : List Char} : ipv6 t (some p) →
      AuthorityRule plain ipv6 ('[' :: (t ++ ']' :: ':' :: p))

/-- Only `https` has a port without one being given. -/
def PortRule (number : List Char → Nat → Prop) (proto : Proto) : Option (List Char) → Prop
  | some p => PortText number p
  | none => proto = .https

def HasBracket (t : List Char) : Prop := '[' ∈ t ∨ ']' ∈ t

def HasPlus (port : Option (List Char)) : Prop := ∃ p, port = some p ∧ '+' ∈ p

section
variable (ip : IpText)

def DerivesAuthority (proto : Proto) : List Char → Prop :=
  AuthorityRule (fun t p => PlainHost ip t ∧ ¬ HasBracket t ∧ PortRule Digits proto p)
    fun t p => Ipv6Host ip t ∧ PortRule Digits proto p

/-- The grammar of the documentation, on a trimmed text. -/
def Derives (s : List Char) : Prop :=
  ∃ proto rest, s = Proto.asStr proto ++ [':', '/', '/'] ++ rest ∧ DerivesAuthority ip proto rest

/-- A wildcard whose last colon does not set off a port. -/
structure ColonWildcard (suffix : List Char) : Prop where
  nonempty : suffix ≠ []
  undotted : suffix.head? ≠ some '.'
  clean : NoWhitespace suffix
  colon : ':' ∈ suffix
  unported : ∀ t p, suffix = t ++ ':' :: p → ':' ∉ p → ':' ∈ t ∨ '/' ∈ p

/-- A bracket in a name, or a plus sign in a port. -/
def SlipsToken (proto : Proto) : List Char → Prop :=
  AuthorityRule
    (fun t p => (PlainHost ip t ∧ t.head? ≠ some '[' ∧ PortRule SignedDigits proto p) ∧
      (HasBracket t ∨ HasPlus p))
    fun t p => (Ipv6Host ip t ∧ PortRule SignedDigits proto p) ∧ HasPlus p

def SlipsAuthority (proto : Proto) (rest : List Char) : Prop :=
  SlipsToken ip proto rest ∨
    proto = .https ∧ ∃ suffix, rest = '*' :: '.' :: suffix ∧ ColonWildcard suffix

def Slips (s : List Char) : Prop :=
  ∃ proto rest, s = Proto.asStr proto ++ [':', '/', '/'] ++ rest ∧ SlipsAuthority ip proto rest

def Accepts (proto : Proto) : List Char → Prop :=
  AuthorityRule (fun t p => PlainHost ip t ∧ t.head? ≠ some '[' ∧ PortRule SignedDigits proto p)
    fun t p => Ipv6Host ip t ∧ PortRule SignedDigits proto p

end

theorem AuthorityRule.mono {plain plain' ipv6 ipv6' : List Char → Option (List Char) → Prop}
    (hosts : ∀ t p, plain t p → plain' t p) (literals : ∀ t p, ipv6 t p → ipv6' t p)
    {rest : List Char} (rule : AuthorityRule plain ipv6 rest) : AuthorityRule plain' ipv6' rest := by
  cases rule with
  | host ok => exact .host (hosts _ _ ok)
  | hostPort ok => exact .hostPort (hosts _ _ ok)
  | ipv6 ok => exact .ipv6 (literals _ _ ok)
  | bracketed ok => exact .bracketed (literals _ _ ok)
  | bracketedPort ok => exact .bracketedPort (literals _ _ ok)

/-! ## Ports -/

theorem SignedDigits.plain {t : List Char} {n : Nat} (signed : SignedDigits t n) :
    ∀ c ∈ t, isWhitespace c = false ∧ c ≠ ':' ∧ c ≠ '/' ∧ c ≠ '-' ∧ c ≠ '*' := by
  have digits {t : List Char} (decimal : Digits t n) :
      ∀ c ∈ t, isWhitespace c = false ∧ c ≠ ':' ∧ c ≠ '/' ∧ c ≠ '-' ∧ c ≠ '*' := by
    intro c mem
    obtain ⟨clean, colon, slash, dash, star, _⟩ := decimal_plain decimal mem
    exact ⟨clean, colon, slash, dash, star⟩
  rcases signed with decimal | ⟨digits_, rfl, decimal⟩
  · exact digits decimal
  · rw [List.forall_mem_cons]
    exact ⟨by simp [isWhitespace], digits decimal⟩

theorem parseU16_signed {t : List Char} {port : UInt16} :
    parseU16 t = .ok port ↔ SignedDigits t port.toNat := by
  rw [parseU16_eq_ok, parseUnsigned_eq_some (by decide)]
  rfl

theorem SignedDigits.parsed {t : List Char} {n : Nat} (signed : SignedDigits t n) :
    ∃ port : UInt16, port.toNat = n ∧ parseU16 t = .ok port := by
  have small : n < 2 ^ 16 := by
    rcases signed with decimal | ⟨_, _, decimal⟩
    · exact decimal.small
    · exact decimal.small
  have same : (UInt16.ofNat n).toNat = n := UInt16.toNat_ofNat_of_lt' small
  exact ⟨.ofNat n, same, parseU16_signed.mpr (same.symm ▸ signed)⟩

theorem parsePort_isOk {t full : List Char} :
    (∃ port, parsePort t full = .ok port) ↔ PortText SignedDigits t := by
  constructor
  · rintro ⟨port, parsed⟩
    unfold parsePort at parsed
    split at parsed
    · next star =>
        subst star
        exact .any
    · split at parsed
      · next lo hi split_ =>
          simp only [bind_eq_ok] at parsed
          obtain ⟨first, readLo, last, readHi, parsed⟩ := parsed
          split at parsed
          · cases parsed
          · next ordered =>
              obtain ⟨_, rfl⟩ := splitOnce_eq_some.mp split_
              exact .range (parseU16_signed.mp readLo) (parseU16_signed.mp readHi)
                (UInt16.le_iff_toNat_le.mp (UInt16.not_lt.mp ordered))
      · cases read : parseU16 t with
        | error err => simp [read, Except.map] at parsed
        | ok port => exact .one (parseU16_signed.mp read)
  · intro text
    cases text with
    | any => exact ⟨.any, rfl⟩
    | one signed =>
        obtain ⟨port, _, read⟩ := signed.parsed
        have star : t ≠ ['*'] := by
          rintro rfl
          exact (signed.plain '*' List.mem_cons_self).2.2.2.2 rfl
        have dashes : splitOnce '-' t = none :=
          splitOnce_eq_none.mpr fun mem => (signed.plain '-' mem).2.2.2.1 rfl
        refine ⟨.exact port, ?_⟩
        rw [parsePort, if_neg star, dashes, read]
        rfl
    | range lo hi ordered =>
        next lo_ hi_ m n =>
        obtain ⟨first, rfl, readLo⟩ := lo.parsed
        obtain ⟨last, rfl, readHi⟩ := hi.parsed
        have star : lo_ ++ '-' :: hi_ ≠ ['*'] := by
          intro same
          have dash : '-' ∈ ['*'] := same ▸ List.mem_append_right _ List.mem_cons_self
          exact absurd dash (by decide)
        have dashes : '-' ∉ lo_ := fun mem => (lo.plain '-' mem).2.2.2.1 rfl
        refine ⟨.range first last, ?_⟩
        rw [parsePort, if_neg star, splitOnce_append dashes]
        simp only [readLo, readHi, bind, Except.bind]
        exact if_neg (UInt16.not_lt.mpr (UInt16.le_iff_toNat_le.mpr ordered))

theorem PortText.plain {t : List Char} (text : PortText SignedDigits t) :
    ∀ c ∈ t, isWhitespace c = false ∧ c ≠ ':' ∧ c ≠ '/' := by
  have number {t : List Char} {n : Nat} (signed : SignedDigits t n) :
      ∀ c ∈ t, isWhitespace c = false ∧ c ≠ ':' ∧ c ≠ '/' := by
    intro c mem
    obtain ⟨clean, colon, slash, _⟩ := signed.plain c mem
    exact ⟨clean, colon, slash⟩
  cases text with
  | any => simp [isWhitespace]
  | one signed => exact number signed
  | range lo hi =>
      intro c mem
      rcases List.mem_append.mp mem with mem | mem
      · exact number lo c mem
      · rcases List.mem_cons.mp mem with rfl | mem
        · simp [isWhitespace]
        · exact number hi c mem

theorem portRule_signed {proto : Proto} {full : List Char} {port : Option (List Char)} :
    (∃ result, ReadsPort proto full port result) ↔ PortRule SignedDigits proto port := by
  cases port with
  | none => exact ⟨fun ⟨_, https, _⟩ => https, fun https => ⟨_, https, rfl⟩⟩
  | some p =>
      constructor
      · rintro ⟨result, _, parsed⟩
        exact parsePort_isOk.mp ⟨result, parsed⟩
      · intro text
        have read : ∃ result, parsePort p full = .ok result := parsePort_isOk.mpr text
        obtain ⟨result, parsed⟩ := read
        exact ⟨result, fun c mem => (text.plain c mem).1, parsed⟩

theorem digits_iff {t : List Char} :
    PortText Digits t ↔ PortText SignedDigits t ∧ '+' ∉ t := by
  have unsigned {t : List Char} {n : Nat} (decimal : Digits t n) : '+' ∉ t :=
    fun mem => (decimal_plain decimal mem).2.2.2.2.2 rfl
  have number {t : List Char} {n : Nat} (signed : SignedDigits t n) (plus : '+' ∉ t) : Digits t n := by
    rcases signed with decimal | ⟨digits, rfl, _⟩
    · exact decimal
    · exact absurd List.mem_cons_self plus
  constructor
  · intro text
    cases text with
    | any => exact ⟨.any, by decide⟩
    | one decimal => exact ⟨.one (.inl decimal), unsigned decimal⟩
    | range lo hi ordered =>
        refine ⟨.range (.inl lo) (.inl hi) ordered, ?_⟩
        rw [List.mem_append, List.mem_cons, not_or, not_or]
        exact ⟨unsigned lo, by decide, unsigned hi⟩
  · rintro ⟨text, plus⟩
    cases text with
    | any => exact .any
    | one signed => exact .one (number signed plus)
    | range lo hi ordered =>
        rw [List.mem_append, List.mem_cons, not_or, not_or] at plus
        exact .range (number lo plus.1) (number hi plus.2.2) ordered

theorem portRule_digits {proto : Proto} {port : Option (List Char)} :
    PortRule Digits proto port ↔ PortRule SignedDigits proto port ∧ ¬ HasPlus port := by
  cases port with
  | none => simp [PortRule, HasPlus]
  | some p =>
      simp only [PortRule, HasPlus, Option.some.injEq, exists_eq_left', digits_iff]

/-! ## Hosts -/

theorem colonWildcard_iff {suffix : List Char} (undotted : suffix.head? ≠ some '.')
    (clean : NoWhitespace suffix) (colon : ':' ∈ suffix) :
    ColonWildcard suffix ↔
      splitHostPort ('*' :: '.' :: suffix) = ('*' :: '.' :: suffix, none) := by
  constructor
  · intro wildcard
    rcases splitHostPort_cases ('*' :: '.' :: suffix) with whole | ⟨t, p, same, bare, plain, slash, _⟩
    · exact whole
    · obtain ⟨t, rfl⟩ : ∃ t', t = '*' :: '.' :: t' := by
        match t, same with
        | [], same => simp at same
        | [_], same => simp at same
        | _ :: _ :: t, same =>
            simp only [List.cons_append, List.cons.injEq] at same
            exact ⟨t, by rw [← same.1, ← same.2.1]⟩
      simp only [List.cons_append, List.cons.injEq, true_and] at same
      rcases wildcard.unported t p same plain with colon | slashed
      · exact absurd (List.mem_cons_of_mem _ (List.mem_cons_of_mem _ colon)) bare
      · exact absurd slashed slash
  · intro whole
    refine ⟨List.ne_nil_of_mem colon, undotted, clean, colon, fun t p same plain => ?_⟩
    by_contra neither
    obtain ⟨bare, slash⟩ := not_or.mp neither
    have split_ := splitHostPort_ported (t := '*' :: '.' :: t) (by simpa using bare) plain slash
    rw [List.cons_append, List.cons_append, ← same, whole] at split_
    cases split_

section
variable {ip : IpText} (lawful : ip.Lawful)
include lawful

theorem PlainHost.plain {t : List Char} (host : PlainHost ip t) : ':' ∉ t ∧ NoWhitespace t := by
  cases host with
  | name some_ clean wild slashless colonless => exact ⟨colonless, clean⟩
  | wildcard some_ undotted clean colonless =>
      constructor
      · simpa using colonless
      · rw [NoWhitespace, List.forall_mem_cons, List.forall_mem_cons]
        exact ⟨by simp [isWhitespace], by simp [isWhitespace], clean⟩
  | address read v4 =>
      have colons := lawful.addr_colons _ _ read
      rw [v4, if_neg (by decide)] at colons
      exact ⟨colons, (IsLiteral.of_addr lawful read).clean⟩
  | cidr read v4 =>
      have colons := lawful.net_colons _ _ read
      rw [v4, if_neg (by decide)] at colons
      exact ⟨colons, (IsLiteral.of_net lawful read).clean⟩

theorem Ipv6Host.literal {t : List Char} (host : Ipv6Host ip t) :
    ∃ result, HostText ip true t result ∧ IsLiteral ip t result := by
  cases host with
  | address read v6 => exact ⟨_, .addr read fun _ => v6, .of_addr lawful read⟩
  | cidr read v6 => exact ⟨_, .cidr read fun _ => v6, .of_net lawful read⟩

theorem Ipv6Host.colons {t : List Char} (host : Ipv6Host ip t) : 2 ≤ t.count ':' := by
  cases host with
  | address read v6 =>
      have colons := lawful.addr_colons _ _ read
      rwa [v6, if_pos rfl] at colons
  | cidr read v6 =>
      have colons := lawful.net_colons _ _ read
      rwa [v6, if_pos rfl] at colons

theorem Ipv6Host.colon {t : List Char} (host : Ipv6Host ip t) : ':' ∈ t :=
  List.count_pos_iff.mp (Nat.lt_of_lt_of_le (by decide) (host.colons lawful))

theorem bracketedHost_iff {t : List Char} :
    (∃ result, HostText ip true t result) ↔ Ipv6Host ip t := by
  constructor
  · rintro ⟨result, text⟩
    generalize bracket : true = bracketed at text
    cases text with
    | wildcard => cases bracket
    | name => cases bracket
    | cidr read v6 => exact .cidr read (v6 bracket.symm)
    | addr read v6 => exact .address read (v6 bracket.symm)
  · intro host
    obtain ⟨result, text, _⟩ := host.literal lawful
    exact ⟨result, text⟩

theorem unbracketedHost_iff {t : List Char} (clean : NoWhitespace t) :
    (∃ result, HostText ip false t result) ↔ PlainHost ip t ∨ Ipv6Host ip t ∨
      ∃ suffix, t = '*' :: '.' :: suffix ∧ suffix.head? ≠ some '.' ∧ ':' ∈ suffix := by
  constructor
  · rintro ⟨result, text⟩
    generalize false = bracketed at text
    cases text with
    | wildcard some_ undotted =>
        next suffix =>
        by_cases colon : ':' ∈ suffix
        · exact .inr (.inr ⟨suffix, rfl, undotted, colon⟩)
        · exact .inl (.wildcard some_ undotted (fun c mem => clean c (by simp [mem])) colon)
    | cidr read =>
        next net _ =>
        cases v6 : net.isIpv6 with
        | true => exact .inr (.inl (.cidr read v6))
        | false => exact .inl (.cidr read v6)
    | addr read =>
        next addr _ =>
        cases v6 : addr.isIpv6 with
        | true => exact .inr (.inl (.address read v6))
        | false => exact .inl (.address read v6)
    | name some_ wild slashless colonless _ => exact .inl (.name some_ clean wild slashless colonless)
  · rintro (host | host | ⟨suffix, rfl, undotted, colon⟩)
    · cases host with
      | name some_ _ wild slashless colonless =>
          cases read : ip.parseAddr t with
          | some addr => exact ⟨_, .addr read (by simp)⟩
          | none => exact ⟨_, .name some_ wild slashless colonless read⟩
      | wildcard some_ undotted => exact ⟨_, .wildcard some_ undotted⟩
      | address read => exact ⟨_, .addr read (by simp)⟩
      | cidr read => exact ⟨_, .cidr read (by simp)⟩
    · obtain ⟨result, _, literal⟩ := host.literal lawful
      exact ⟨result, literal.text⟩
    · exact ⟨_, .wildcard (List.ne_nil_of_mem colon) undotted⟩

/-! ## What is accepted -/

theorem authorityRule_iff {plain ipv6 : List Char → Option (List Char) → Prop}
    (hosts : ∀ t p, plain t p → PlainHost ip t ∧ t.head? ≠ some '[')
    (ports : ∀ t p, plain t (some p) → PortText SignedDigits p)
    (literals : ∀ t p, ipv6 t p → Ipv6Host ip t) {rest : List Char} :
    AuthorityRule plain ipv6 rest ↔ ∃ authority, AuthorityText rest authority ∧
      (authority.bracketed = false ∧ plain authority.host authority.port ∨
        (authority.bracketed = true ∨ authority.port = none) ∧ ipv6 authority.host authority.port) := by
  constructor
  · intro rule
    cases rule with
    | host ok =>
        obtain ⟨host, open_⟩ := hosts _ _ ok
        have whole := splitHostPort_whole fun colon => absurd colon (host.plain lawful).1
        exact ⟨_, .whole open_ whole, .inl ⟨rfl, ok⟩⟩
    | hostPort ok =>
        obtain ⟨host, open_⟩ := hosts _ _ ok
        have port := (ports _ _ ok).plain
        exact ⟨_, .ported open_ (host.plain lawful).1 (fun mem => (port _ mem).2.1 rfl)
          fun mem => (port _ mem).2.2 rfl, .inl ⟨rfl, ok⟩⟩
    | ipv6 ok =>
        have host := literals _ _ ok
        obtain ⟨result, _, literal⟩ := host.literal lawful
        have whole := splitHostPort_whole fun _ => host.colons lawful
        exact ⟨_, .whole literal.head whole, .inr ⟨.inr rfl, ok⟩⟩
    | bracketed ok =>
        obtain ⟨result, _, literal⟩ := (literals _ _ ok).literal lawful
        exact ⟨_, .bracketed literal.close, .inr ⟨.inl rfl, ok⟩⟩
    | bracketedPort ok =>
        obtain ⟨result, _, literal⟩ := (literals _ _ ok).literal lawful
        exact ⟨_, .bracketedPort literal.close, .inr ⟨.inl rfl, ok⟩⟩
  · rintro ⟨authority, text, ok⟩
    cases text with
    | whole =>
        rcases ok with ⟨_, ok⟩ | ⟨_, ok⟩
        · exact .host ok
        · exact .ipv6 ok
    | ported _ colonless =>
        rcases ok with ⟨_, ok⟩ | ⟨bare, ok⟩
        · exact .hostPort ok
        · simp at bare
    | bracketed =>
        rcases ok with ⟨bare, _⟩ | ⟨_, ok⟩
        · cases bare
        · exact .bracketed ok
    | bracketedPort =>
        rcases ok with ⟨bare, _⟩ | ⟨_, ok⟩
        · cases bare
        · exact .bracketedPort ok

theorem accepts_iff {proto : Proto} {rest : List Char} :
    Accepts ip proto rest ↔ ∃ authority, AuthorityText rest authority ∧
      (authority.bracketed = false ∧ PlainHost ip authority.host ∧ authority.host.head? ≠ some '[' ∧
          PortRule SignedDigits proto authority.port ∨
        (authority.bracketed = true ∨ authority.port = none) ∧ Ipv6Host ip authority.host ∧
          PortRule SignedDigits proto authority.port) :=
  authorityRule_iff lawful (fun _ _ ok => ⟨ok.1, ok.2.1⟩) (fun _ _ ok => ok.2.2) fun _ _ ok => ok.1

theorem parseAuthority_isOk {proto : Proto} {rest raw : List Char} :
    (∃ rule, parseAuthority ip proto rest raw = .ok rule) ↔ Accepts ip proto rest ∨
      proto = .https ∧ ∃ suffix, rest = '*' :: '.' :: suffix ∧ ColonWildcard suffix := by
  have parts : (∃ rule, parseAuthority ip proto rest raw = .ok rule) ↔
      ∃ authority, AuthorityText rest authority ∧ NoWhitespace authority.host ∧
        (∃ host, HostText ip authority.bracketed authority.host host) ∧
        PortRule SignedDigits proto authority.port := by
    constructor
    · rintro ⟨rule, parsed⟩
      obtain ⟨rfl, authority, split_, clean, host, port⟩ := parseAuthority_eq_ok.mp parsed
      exact ⟨authority, splitAuthority_eq_ok.mp split_, clean, ⟨_, (parseHost_eq_ok lawful).mp host⟩,
        portRule_signed.mp ⟨_, port⟩⟩
    · rintro ⟨authority, text, clean, ⟨host, hostText⟩, port⟩
      have read : ∃ result, ReadsPort proto raw authority.port result := portRule_signed.mpr port
      obtain ⟨result, port⟩ := read
      exact ⟨⟨proto, host, result⟩, parseAuthority_eq_ok.mpr ⟨rfl, authority,
        splitAuthority_eq_ok.mpr text, clean, (parseHost_eq_ok lawful).mpr hostText, port⟩⟩
  rw [parts, accepts_iff lawful]
  constructor
  · rintro ⟨authority, text, clean, host, port⟩
    cases text with
    | whole open_ whole =>
        rcases (unbracketedHost_iff lawful clean).mp host with
          plain | literal | ⟨suffix, rfl, undotted, colon⟩
        · exact .inl ⟨_, .whole open_ whole, .inl ⟨rfl, plain, open_, port⟩⟩
        · exact .inl ⟨_, .whole open_ whole, .inr ⟨.inr rfl, literal, port⟩⟩
        · refine .inr ⟨port, suffix, rfl, ?_⟩
          exact (colonWildcard_iff undotted (fun c mem => clean c (by simp [mem])) colon).mpr whole
    | ported open_ colonless plain slashless =>
        rcases (unbracketedHost_iff lawful clean).mp host with
          plainHost | literal | ⟨suffix, rfl, _, colon⟩
        · exact .inl ⟨_, .ported open_ colonless plain slashless, .inl ⟨rfl, plainHost, open_, port⟩⟩
        · exact absurd (literal.colon lawful) colonless
        · exact absurd (List.mem_cons_of_mem _ (List.mem_cons_of_mem _ colon)) colonless
    | bracketed close =>
        exact .inl ⟨_, .bracketed close, .inr ⟨.inl rfl, (bracketedHost_iff lawful).mp host, port⟩⟩
    | bracketedPort close =>
        exact .inl ⟨_, .bracketedPort close, .inr ⟨.inl rfl, (bracketedHost_iff lawful).mp host, port⟩⟩
  · rintro (⟨authority, text, ok⟩ | ⟨https, suffix, rfl, wildcard⟩)
    · refine ⟨authority, text, ?_⟩
      obtain ⟨host, port, bracketed⟩ := authority
      rcases ok with ⟨rfl, plain, open_, port⟩ | ⟨shape, literal, port⟩
      · exact ⟨(plain.plain lawful).2,
          (unbracketedHost_iff lawful (plain.plain lawful).2).mpr (.inl plain), port⟩
      · obtain ⟨result, bracketText, isLiteral⟩ := literal.literal lawful
        refine ⟨isLiteral.clean, ?_, port⟩
        cases bracketed with
        | true => exact ⟨result, bracketText⟩
        | false => exact ⟨result, isLiteral.text⟩
    · have whole :=
        (colonWildcard_iff wildcard.undotted wildcard.clean wildcard.colon).mp wildcard
      refine ⟨_, .whole (by simp) whole, ?_, ⟨_, .wildcard wildcard.nonempty wildcard.undotted⟩, https⟩
      rw [NoWhitespace, List.forall_mem_cons, List.forall_mem_cons]
      exact ⟨by simp [isWhitespace], by simp [isWhitespace], wildcard.clean⟩

/-! ## The grammar and what lies beyond it -/

omit lawful in
theorem AuthorityRule.split {plain ipv6 : List Char → Option (List Char) → Prop}
    (slip slip' : List Char → Option (List Char) → Prop) {rest : List Char}
    (rule : AuthorityRule plain ipv6 rest) :
    AuthorityRule (fun t p => plain t p ∧ ¬ slip t p) (fun t p => ipv6 t p ∧ ¬ slip' t p) rest ∨
      AuthorityRule (fun t p => plain t p ∧ slip t p) (fun t p => ipv6 t p ∧ slip' t p) rest := by
  cases rule with
  | host ok =>
      by_cases slips : slip rest none
      · exact .inr (.host ⟨ok, slips⟩)
      · exact .inl (.host ⟨ok, slips⟩)
  | @hostPort t p ok =>
      by_cases slips : slip t (some p)
      · exact .inr (.hostPort ⟨ok, slips⟩)
      · exact .inl (.hostPort ⟨ok, slips⟩)
  | ipv6 ok =>
      by_cases slips : slip' rest none
      · exact .inr (.ipv6 ⟨ok, slips⟩)
      · exact .inl (.ipv6 ⟨ok, slips⟩)
  | @bracketed t ok =>
      by_cases slips : slip' t none
      · exact .inr (.bracketed ⟨ok, slips⟩)
      · exact .inl (.bracketed ⟨ok, slips⟩)
  | @bracketedPort t p ok =>
      by_cases slips : slip' t (some p)
      · exact .inr (.bracketedPort ⟨ok, slips⟩)
      · exact .inl (.bracketedPort ⟨ok, slips⟩)

omit lawful in
theorem derivesAuthority_iff {proto : Proto} {rest : List Char} :
    DerivesAuthority ip proto rest ↔ AuthorityRule
      (fun t p => (PlainHost ip t ∧ t.head? ≠ some '[' ∧ PortRule SignedDigits proto p) ∧
        ¬ (HasBracket t ∨ HasPlus p))
      (fun t p => (Ipv6Host ip t ∧ PortRule SignedDigits proto p) ∧ ¬ HasPlus p) rest := by
  constructor
  · refine .mono (fun t p ok => ?_) fun t p ok => ?_
    · obtain ⟨host, names, port⟩ := ok
      obtain ⟨signed, unsigned⟩ := portRule_digits.mp port
      exact ⟨⟨host, fun first => names (.inl (List.mem_of_head? first)), signed⟩,
        not_or.mpr ⟨names, unsigned⟩⟩
    · obtain ⟨signed, unsigned⟩ := portRule_digits.mp ok.2
      exact ⟨⟨ok.1, signed⟩, unsigned⟩
  · refine .mono (fun t p ok => ?_) fun t p ok => ?_
    · obtain ⟨names, unsigned⟩ := not_or.mp ok.2
      exact ⟨ok.1.1, names, portRule_digits.mpr ⟨ok.1.2.2, unsigned⟩⟩
    · exact ⟨ok.1.1, portRule_digits.mpr ⟨ok.1.2, ok.2⟩⟩

omit lawful in
theorem accepts_iff_derives_or_slips {proto : Proto} {rest : List Char} :
    Accepts ip proto rest ↔ DerivesAuthority ip proto rest ∨ SlipsToken ip proto rest := by
  rw [derivesAuthority_iff]
  constructor
  · exact fun rule => rule.split (fun t p => HasBracket t ∨ HasPlus p) fun t p => HasPlus p
  · rintro (derives | slips)
    · exact derives.mono (fun t p ok => ok.1) fun t p ok => ok.1
    · exact slips.mono (fun t p ok => ok.1) fun t p ok => ok.1

theorem not_derives_of_slips {proto : Proto} {rest : List Char}
    (slips : SlipsAuthority ip proto rest) : ¬ DerivesAuthority ip proto rest := by
  intro derives
  obtain ⟨authority, text, parts⟩ := (authorityRule_iff lawful (fun _ _ ok => ⟨ok.1.1, ok.1.2.1⟩)
    (fun _ _ ok => ok.1.2.2) fun _ _ ok => ok.1.1).mp (derivesAuthority_iff.mp derives)
  rcases slips with slips | ⟨https, suffix, rfl, wildcard⟩
  · obtain ⟨authority', text', parts'⟩ := (authorityRule_iff lawful
      (fun _ _ ok => ⟨ok.1.1, ok.1.2.1⟩) (fun _ _ ok => ok.1.2.2) fun _ _ ok => ok.1.1).mp slips
    have same := (splitAuthority_eq_ok.mpr text).symm.trans (splitAuthority_eq_ok.mpr text')
    cases same
    rcases parts with ⟨_, ⟨plain, _⟩, fine⟩ | ⟨_, ⟨literal, _⟩, fine⟩
    · rcases parts' with ⟨_, _, slip⟩ | ⟨_, ⟨literal, _⟩, _⟩
      · exact fine slip
      · exact (plain.plain lawful).1 (literal.colon lawful)
    · rcases parts' with ⟨_, ⟨plain, _⟩, _⟩ | ⟨_, _, slip⟩
      · exact (plain.plain lawful).1 (literal.colon lawful)
      · exact fine slip
  · have whole := (colonWildcard_iff wildcard.undotted wildcard.clean wildcard.colon).mp wildcard
    have split_ := splitAuthority_eq_ok.mpr (AuthorityText.whole (by simp) whole)
    have same := split_.symm.trans (splitAuthority_eq_ok.mpr text)
    cases same
    rcases parts with ⟨_, ⟨plain, _⟩, _⟩ | ⟨_, ⟨literal, _⟩, _⟩
    · exact (plain.plain lawful).1 (List.mem_cons_of_mem _ (List.mem_cons_of_mem _ wildcard.colon))
    · obtain ⟨result, _, isLiteral⟩ := literal.literal lawful
      exact (netChars_plain '*' (isLiteral.chars List.mem_cons_self)).2.2.2 rfl

theorem fromStr_isOk {s : String} :
    (∃ rule, NetworkRule.fromStr ip s = .ok rule) ↔
      Derives ip (trim s.toList) ∨ Slips ip (trim s.toList) := by
  constructor
  · rintro ⟨rule, parsed⟩
    obtain ⟨proto, rest, same, parsed⟩ := parseRule_eq_ok.mp parsed
    rcases (parseAuthority_isOk lawful).mp ⟨rule, parsed⟩ with accepts | wildcard
    · rcases accepts_iff_derives_or_slips.mp accepts with derives | slips
      · exact .inl ⟨proto, rest, same, derives⟩
      · exact .inr ⟨proto, rest, same, .inl slips⟩
    · exact .inr ⟨proto, rest, same, .inr wildcard⟩
  · rintro (⟨proto, rest, same, derives⟩ | ⟨proto, rest, same, slips⟩)
    · have accepts := accepts_iff_derives_or_slips.mpr (.inl derives)
      have read : ∃ rule, parseAuthority ip proto rest (trim s.toList) = .ok rule :=
        (parseAuthority_isOk lawful).mpr (.inl accepts)
      obtain ⟨rule, parsed⟩ := read
      exact ⟨rule, parseRule_eq_ok.mpr ⟨proto, rest, same, parsed⟩⟩
    · have accepts := slips.imp_left fun slips => accepts_iff_derives_or_slips.mpr (.inr slips)
      have read : ∃ rule, parseAuthority ip proto rest (trim s.toList) = .ok rule :=
        (parseAuthority_isOk lawful).mpr accepts
      obtain ⟨rule, parsed⟩ := read
      exact ⟨rule, parseRule_eq_ok.mpr ⟨proto, rest, same, parsed⟩⟩

theorem not_derives {s : List Char} (slips : Slips ip s) : ¬ Derives ip s := by
  obtain ⟨proto, rest, rfl, slips⟩ := slips
  rintro ⟨proto', rest', same, derives⟩
  have split_ := splitOnText_rule proto rest
  rw [same, splitOnText_rule, Option.some.injEq, Prod.mk.injEq] at split_
  obtain ⟨protos, rfl⟩ := split_
  have protos := Proto.ofStr_eq_some.mpr protos
  rw [Proto.ofStr_asStr] at protos
  cases protos
  exact not_derives_of_slips lawful slips derives

end

theorem network_rule_accepted_iff (ip : IpText) (lawful : ip.Lawful) (s : String) :
    ((∃ rule, NetworkRule.fromStr ip s = .ok rule) ↔ Derives ip (trim s.toList)) ↔
      ¬ Slips ip (trim s.toList) := by
  rw [fromStr_isOk lawful]
  constructor
  · intro agree slips
    exact not_derives lawful slips (agree.mp (.inr slips))
  · exact fun fine => or_iff_left fine

theorem network_rule_accepted_iff_wildcard :
    ((∃ rule, NetworkRule.fromStr documentationIp "https://*.example.com:8443" = .ok rule) ↔
        Derives documentationIp (trim "https://*.example.com:8443".toList)) ↔
      ¬ Slips documentationIp (trim "https://*.example.com:8443".toList) :=
  network_rule_accepted_iff documentationIp documentationIp_lawful _

theorem double_port_accepted :
    ¬ ∀ (ip : IpText) (s : String), ip.Lawful →
      ((∃ rule, NetworkRule.fromStr ip s = .ok rule) ↔ Derives ip (trim s.toList)) := by
  intro claim
  have agree := claim documentationIp "https://*.example.com:80:90" documentationIp_lawful
  have clean : NoWhitespace "example.com:80:90".toList := by simp [NoWhitespace, isWhitespace]
  have slips : Slips documentationIp (trim "https://*.example.com:80:90".toList) :=
    ⟨.https, "*.example.com:80:90".toList, rfl, .inr ⟨rfl, "example.com:80:90".toList, rfl,
      (colonWildcard_iff (by decide) clean (by decide)).mpr (by decide)⟩⟩
  have derives := agree.mp ((fromStr_isOk documentationIp_lawful).mpr (.inr slips))
  exact not_derives documentationIp_lawful slips derives

end OxidHome.Manifest

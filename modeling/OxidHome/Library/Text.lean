import Mathlib

/-!
# Separators, decimal numbers and hex

Text as a list of characters: splitting at a separator, reading an unsigned decimal with an upper
bound, writing and reading bytes in hex, and hex numbers padded to a width.
-/

namespace OxidHome.Library

def splitOnce (sep : Char) : List Char → Option (List Char × List Char)
  | [] => none
  | c :: rest =>
      if c = sep then some ([], rest)
      else (splitOnce sep rest).map fun parts => (c :: parts.1, parts.2)

def rsplitOnce (sep : Char) : List Char → Option (List Char × List Char)
  | [] => none
  | c :: rest =>
      match rsplitOnce sep rest with
      | some parts => some (c :: parts.1, parts.2)
      | none => if c = sep then some ([], rest) else none

theorem splitOnce_append {sep : Char} {before : List Char} (h : sep ∉ before) (after : List Char) :
    splitOnce sep (before ++ sep :: after) = some (before, after) := by
  induction before with
  | nil => simp [splitOnce]
  | cons c before ih =>
      rw [List.mem_cons, not_or] at h
      rw [List.cons_append, splitOnce, if_neg (Ne.symm h.1), ih h.2, Option.map_some]

theorem rsplitOnce_eq_none {sep : Char} {s : List Char} (h : sep ∉ s) : rsplitOnce sep s = none := by
  induction s with
  | nil => rfl
  | cons c s ih =>
      rw [List.mem_cons, not_or] at h
      simp only [rsplitOnce, ih h.2, if_neg (Ne.symm h.1)]

theorem rsplitOnce_append {sep : Char} (before : List Char) {after : List Char} (h : sep ∉ after) :
    rsplitOnce sep (before ++ sep :: after) = some (before, after) := by
  induction before with
  | nil => simp [rsplitOnce, rsplitOnce_eq_none h]
  | cons c before ih => simp only [List.cons_append, rsplitOnce, ih]

theorem splitOnce_eq_none {sep : Char} {s : List Char} : splitOnce sep s = none ↔ sep ∉ s := by
  induction s with
  | nil => simp [splitOnce]
  | cons c s ih =>
      rw [splitOnce, List.mem_cons, not_or, ← ih]
      by_cases here : c = sep
      · simp [here]
      · rw [if_neg here, Option.map_eq_none_iff]
        exact ⟨fun none => ⟨Ne.symm here, none⟩, fun h => h.2⟩

theorem splitOnce_eq_some {sep : Char} {s before after : List Char} :
    splitOnce sep s = some (before, after) ↔ sep ∉ before ∧ s = before ++ sep :: after := by
  constructor
  · intro split
    induction s generalizing before with
    | nil => simp [splitOnce] at split
    | cons c s ih =>
        rw [splitOnce] at split
        split at split
        · next here =>
            cases split
            exact ⟨List.not_mem_nil, by rw [here, List.nil_append]⟩
        · next other =>
            obtain ⟨⟨first, last⟩, rest, same⟩ := Option.map_eq_some_iff.mp split
            cases same
            obtain ⟨absent, rfl⟩ := ih rest
            refine ⟨?_, rfl⟩
            rw [List.mem_cons, not_or]
            exact ⟨Ne.symm other, absent⟩
  · rintro ⟨absent, rfl⟩
    exact splitOnce_append absent after

theorem rsplitOnce_eq_none_iff {sep : Char} {s : List Char} : rsplitOnce sep s = none ↔ sep ∉ s := by
  refine ⟨fun none mem => ?_, rsplitOnce_eq_none⟩
  induction s with
  | nil => exact List.not_mem_nil mem
  | cons c s ih =>
      rw [rsplitOnce] at none
      cases rest : rsplitOnce sep s with
      | some parts => simp [rest] at none
      | none =>
          simp only [rest, ite_eq_right_iff, reduceCtorEq, imp_false] at none
          exact ih rest ((List.mem_cons.mp mem).resolve_left (Ne.symm none))

theorem rsplitOnce_eq_some {sep : Char} {s before after : List Char} :
    rsplitOnce sep s = some (before, after) ↔ sep ∉ after ∧ s = before ++ sep :: after := by
  constructor
  · intro split
    induction s generalizing before with
    | nil => simp [rsplitOnce] at split
    | cons c s ih =>
        rw [rsplitOnce] at split
        cases rest : rsplitOnce sep s with
        | some parts =>
            simp only [rest, Option.some.injEq, Prod.mk.injEq] at split
            obtain ⟨rfl, rfl⟩ := split
            obtain ⟨absent, rfl⟩ := ih rest
            exact ⟨absent, rfl⟩
        | none =>
            simp only [rest, Option.ite_none_right_eq_some, Option.some.injEq, Prod.mk.injEq] at split
            obtain ⟨here, rfl, rfl⟩ := split
            exact ⟨rsplitOnce_eq_none_iff.mp rest, by rw [here, List.nil_append]⟩
  · rintro ⟨absent, rfl⟩
    exact rsplitOnce_append before absent

def splitOnText (sep : List Char) : List Char → Option (List Char × List Char)
  | [] => none
  | c :: rest =>
      if sep.isPrefixOf (c :: rest) then some ([], (c :: rest).drop sep.length)
      else (splitOnText sep rest).map fun parts => (c :: parts.1, parts.2)

theorem eq_append_of_splitOnText {sep s before after : List Char}
    (split : splitOnText sep s = some (before, after)) : s = before ++ sep ++ after := by
  induction s generalizing before with
  | nil => simp [splitOnText] at split
  | cons c s ih =>
      rw [splitOnText] at split
      split at split
      · next here =>
          cases split
          obtain ⟨rest, same⟩ := List.isPrefixOf_iff_prefix.mp here
          rw [← same, List.drop_left, List.nil_append]
      · obtain ⟨⟨first, last⟩, rest, same⟩ := Option.map_eq_some_iff.mp split
        cases same
        rw [ih rest]
        rfl

/-- The Unicode property `White_Space`. -/
def isWhitespace (c : Char) : Bool :=
  (0x9 ≤ c.toNat && c.toNat ≤ 0xD) || c.toNat ∈ [0x20, 0x85, 0xA0, 0x1680] ||
    (0x2000 ≤ c.toNat && c.toNat ≤ 0x200A) || c.toNat ∈ [0x2028, 0x2029, 0x202F, 0x205F, 0x3000]

def trim (s : List Char) : List Char :=
  ((s.dropWhile isWhitespace).reverse.dropWhile isWhitespace).reverse

theorem trim_of_none {s : List Char} (none : ∀ c ∈ s, isWhitespace c = false) : trim s = s := by
  have kept : ∀ l : List Char, (∀ c ∈ l, isWhitespace c = false) → l.dropWhile isWhitespace = l := by
    intro l all
    cases l with
    | nil => rfl
    | cons c l => rw [List.dropWhile_cons, all c List.mem_cons_self, if_neg (by decide)]
  rw [trim, kept s none, kept _ (fun c mem => none c (List.mem_reverse.mp mem)), List.reverse_reverse]

def parseDigits (bound : Nat) : Nat → List Char → Option Nat
  | value, [] => some value
  | value, c :: rest =>
      if c.isDigit then
        let value := 10 * value + (c.toNat - '0'.toNat)
        if value < bound then parseDigits bound value rest else none
      else none

/-- A decimal below `bound`, with an optional plus sign. -/
def parseUnsigned (bound : Nat) : List Char → Option Nat
  | [] => none
  | ['+'] => none
  | '+' :: digits => parseDigits bound 0 digits
  | digits => parseDigits bound 0 digits

theorem le_ofDigitChars (digits : List Char) (value : Nat) :
    value ≤ Nat.ofDigitChars 10 digits value := by
  induction digits generalizing value with
  | nil => exact le_rfl
  | cons c digits ih =>
      have := ih (10 * value + (c.toNat - '0'.toNat))
      rw [Nat.ofDigitChars_cons]
      omega

theorem parseDigits_eq {bound : Nat} {digits : List Char} (h : ∀ c ∈ digits, c.isDigit)
    {value : Nat} (small : value < bound) :
    parseDigits bound value digits =
      if Nat.ofDigitChars 10 digits value < bound then some (Nat.ofDigitChars 10 digits value)
      else none := by
  induction digits generalizing value with
  | nil => simp [parseDigits, small]
  | cons c digits ih =>
      rw [parseDigits, if_pos (h c List.mem_cons_self), Nat.ofDigitChars_cons]
      by_cases fits : 10 * value + (c.toNat - '0'.toNat) < bound
      · rw [if_pos fits, ih (fun d hd => h d (List.mem_cons_of_mem _ hd)) fits]
      · have := le_ofDigitChars digits (10 * value + (c.toNat - '0'.toNat))
        rw [if_neg fits, if_neg (by omega)]

theorem digits_of_parseDigits {bound value n : Nat} {digits : List Char}
    (parsed : parseDigits bound value digits = some n) : ∀ c ∈ digits, c.isDigit := by
  induction digits generalizing value with
  | nil => exact fun c mem => absurd mem List.not_mem_nil
  | cons c digits ih =>
      rw [parseDigits] at parsed
      split at parsed
      · next digit =>
          simp only [Option.ite_none_right_eq_some] at parsed
          rw [List.forall_mem_cons]
          exact ⟨digit, ih parsed.2⟩
      · cases parsed

structure Decimal (bound : Nat) (s : List Char) (n : Nat) : Prop where
  nonempty : s ≠ []
  digits : ∀ c ∈ s, c.isDigit
  value : Nat.ofDigitChars 10 s 0 = n
  small : n < bound

theorem parseDigits_eq_some {bound n : Nat} (positive : 0 < bound) {digits : List Char}
    (nonempty : digits ≠ []) :
    parseDigits bound 0 digits = some n ↔ Decimal bound digits n := by
  constructor
  · intro parsed
    have all := digits_of_parseDigits parsed
    rw [parseDigits_eq all positive, Option.ite_none_right_eq_some, Option.some.injEq] at parsed
    obtain ⟨small, same⟩ := parsed
    exact ⟨nonempty, all, same, same ▸ small⟩
  · intro decimal
    rw [parseDigits_eq decimal.digits positive, decimal.value, if_pos decimal.small]

theorem parseUnsigned_eq_some {bound n : Nat} (positive : 0 < bound) {s : List Char} :
    parseUnsigned bound s = some n ↔
      Decimal bound s n ∨ ∃ digits, s = '+' :: digits ∧ Decimal bound digits n := by
  have unsigned (digits : List Char) : ¬ Decimal bound ('+' :: digits) n := fun decimal =>
    absurd (decimal.digits '+' List.mem_cons_self) (by decide)
  unfold parseUnsigned
  split
  · simp only [reduceCtorEq, false_and, exists_false, or_false, false_iff]
    exact fun decimal => decimal.nonempty rfl
  · simp only [unsigned, false_or, List.cons.injEq, true_and, exists_eq_left', reduceCtorEq,
      false_iff]
    exact fun decimal => decimal.nonempty rfl
  · next digits more =>
      have nonempty : digits ≠ [] := fun empty => more (by rw [empty])
      simp only [unsigned, false_or, List.cons.injEq, true_and, exists_eq_left']
      exact parseDigits_eq_some positive nonempty
  · next nonempty lone signed =>
      rw [parseDigits_eq_some positive nonempty, or_iff_left]
      rintro ⟨digits, rfl, _⟩
      exact signed digits rfl

theorem parseUnsigned_toDigits {bound : Nat} (positive : 0 < bound) (n : Nat) :
    parseUnsigned bound (Nat.toDigits 10 n) = if n < bound then some n else none := by
  have digits : ∀ c ∈ Nat.toDigits 10 n, c.isDigit := fun c hc =>
    Nat.isDigit_of_mem_toDigits (by decide) (by decide) hc
  have unsigned : parseUnsigned bound (Nat.toDigits 10 n) =
      parseDigits bound 0 (Nat.toDigits 10 n) := by
    unfold parseUnsigned
    split
    · rename_i h
      exact absurd h Nat.toDigits_ne_nil
    all_goals
      first
        | rfl
        | rename_i h
          exact absurd (digits '+' (h ▸ List.mem_cons_self)) (by decide)
  rw [unsigned, parseDigits_eq digits positive, Nat.ofDigitChars_ten_toDigits]

def hexByte (b : UInt8) : List Char := [Nat.digitChar (b.toNat / 16), Nat.digitChar (b.toNat % 16)]

def hexEncode (bytes : List UInt8) : List Char := bytes.flatMap hexByte

def hexValue (c : Char) : Option Nat :=
  if '0' ≤ c ∧ c ≤ '9' then some (c.toNat - '0'.toNat)
  else if 'a' ≤ c ∧ c ≤ 'f' then some (c.toNat - 'a'.toNat + 10)
  else if 'A' ≤ c ∧ c ≤ 'F' then some (c.toNat - 'A'.toNat + 10)
  else none

def parseHexByte (a b : Char) : Option UInt8 :=
  if a = '+' then (hexValue b).map UInt8.ofNat
  else (hexValue a).bind fun high => (hexValue b).map fun low => UInt8.ofNat (16 * high + low)

def hexDecode : List Char → Option (List UInt8)
  | [] => some []
  | [_] => none
  | a :: b :: rest => (parseHexByte a b).bind fun byte => (hexDecode rest).map (byte :: ·)

theorem hexValue_digitChar : ∀ n < 16, hexValue (Nat.digitChar n) = some n := by decide

theorem digitChar_alnum :
    ∀ n < 16, (Nat.digitChar n).isAlphanum ∧ (Nat.digitChar n).utf8Size = 1 := by
  decide

theorem parseHexByte_hexByte (b : UInt8) :
    parseHexByte (Nat.digitChar (b.toNat / 16)) (Nat.digitChar (b.toNat % 16)) = some b := by
  have high : b.toNat / 16 < 16 := by have := b.toNat_lt; omega
  have low : b.toNat % 16 < 16 := Nat.mod_lt _ (by decide)
  have unsigned : Nat.digitChar (b.toNat / 16) ≠ '+' := fun h =>
    absurd (h ▸ (digitChar_alnum _ high).1) (by decide)
  rw [parseHexByte, if_neg unsigned, hexValue_digitChar _ high, hexValue_digitChar _ low,
    Option.bind_some, Option.map_some, Nat.div_add_mod, UInt8.ofNat_toNat]

theorem hexDecode_hexEncode (bytes : List UInt8) : hexDecode (hexEncode bytes) = some bytes := by
  induction bytes with
  | nil => rfl
  | cons b bytes ih =>
      have split : hexEncode (b :: bytes) =
          Nat.digitChar (b.toNat / 16) :: Nat.digitChar (b.toNat % 16) :: hexEncode bytes := rfl
      rw [split, hexDecode, parseHexByte_hexByte, ih]
      rfl

theorem mem_hexEncode {bytes : List UInt8} {c : Char} (h : c ∈ hexEncode bytes) :
    c.isAlphanum ∧ c.utf8Size = 1 := by
  obtain ⟨b, _, h⟩ := List.mem_flatMap.mp h
  have := b.toNat_lt
  simp only [hexByte, List.mem_cons, List.not_mem_nil, or_false] at h
  rcases h with rfl | rfl
  · exact digitChar_alnum _ (by omega)
  · exact digitChar_alnum _ (by omega)

theorem length_hexEncode (bytes : List UInt8) : (hexEncode bytes).length = 2 * bytes.length := by
  induction bytes with
  | nil => rfl
  | cons b bytes ih =>
      rw [hexEncode, List.flatMap_cons, List.length_append, ← hexEncode, ih, List.length_cons]
      simp only [hexByte, List.length_cons, List.length_nil]
      omega

theorem utf8Size_hexEncode (bytes : List UInt8) :
    ((hexEncode bytes).map Char.utf8Size).sum = 2 * bytes.length := by
  have ones : (hexEncode bytes).map Char.utf8Size = (hexEncode bytes).map fun _ => 1 :=
    List.map_inj_left.mpr fun c hc => (mem_hexEncode hc).2
  rw [ones, List.map_const', List.sum_replicate, length_hexEncode]
  simp

def hexPad (width n : Nat) : List Char :=
  let digits := Nat.toDigits 16 n
  List.replicate (width - digits.length) '0' ++ digits

def hexNumber (digits : List Char) : Nat :=
  digits.foldl (fun value c => 16 * value + (hexValue c).getD 0) 0

theorem hexNumber_toDigits (n : Nat) : hexNumber (Nat.toDigits 16 n) = n := by
  induction n using Nat.strongRecOn with
  | ind n ih =>
      rw [Nat.toDigits_eq_if (by decide)]
      split
      · rename_i small
        simp [hexNumber, hexValue_digitChar n small]
      · have rest := ih (n / 16) (by omega)
        rw [hexNumber] at rest ⊢
        rw [List.foldl_concat, rest, hexValue_digitChar _ (Nat.mod_lt n (by decide)),
          Option.getD_some, Nat.div_add_mod]

theorem hexNumber_hexPad (width n : Nat) : hexNumber (hexPad width n) = n := by
  have zeros : ∀ k, (List.replicate k '0').foldl
      (fun value c => 16 * value + (hexValue c).getD 0) 0 = 0 := by
    intro k
    induction k with
    | zero => rfl
    | succ k ih => exact ih
  have digits := hexNumber_toDigits n
  rw [hexNumber] at digits ⊢
  rw [hexPad, List.foldl_append, zeros, digits]

theorem mem_hexPad {width n : Nat} {c : Char} (h : c ∈ hexPad width n) : c.isAlphanum := by
  have digits : ∀ n, ∀ c ∈ Nat.toDigits 16 n, c.isAlphanum := by
    intro n
    induction n using Nat.strongRecOn with
    | ind n ih =>
        intro c mem
        rw [Nat.toDigits_eq_if (by decide)] at mem
        split at mem
        · rename_i small
          rw [List.mem_singleton.mp mem]
          exact (digitChar_alnum n small).1
        · rcases List.mem_append.mp mem with mem | mem
          · exact ih (n / 16) (by omega) c mem
          · rw [List.mem_singleton.mp mem]
            exact (digitChar_alnum _ (Nat.mod_lt n (by decide))).1
  rcases List.mem_append.mp h with mem | mem
  · rw [(List.mem_replicate.mp mem).2]
    decide
  · exact digits n c mem

end OxidHome.Library

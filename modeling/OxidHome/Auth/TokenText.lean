import OxidHome.Library.Framing
import OxidHome.Library.Positional
import OxidHome.Library.TextBytes

/-!
# Token text

The text form of a token secret in `state/auth_token.rs`: base64url without padding, written in
groups of three bytes and read with a streaming accumulator of 32 bits. The decoder with an
accumulator that loses nothing is `base64urlNoPadDecodeWide`.
-/

namespace OxidHome.Auth
open Library

def TOKEN_PREFIX : String := "oxh_"
def TOKEN_BYTES : Nat := 32

def B64URL : Vector Char 64 := #v[
  'A', 'B', 'C', 'D', 'E', 'F', 'G', 'H', 'I', 'J', 'K', 'L', 'M', 'N', 'O', 'P',
  'Q', 'R', 'S', 'T', 'U', 'V', 'W', 'X', 'Y', 'Z', 'a', 'b', 'c', 'd', 'e', 'f',
  'g', 'h', 'i', 'j', 'k', 'l', 'm', 'n', 'o', 'p', 'q', 'r', 's', 't', 'u', 'v',
  'w', 'x', 'y', 'z', '0', '1', '2', '3', '4', '5', '6', '7', '8', '9', '-', '_']

theorem mask_lt (n : UInt32) : (n &&& 0x3F).toNat < 64 := by
  rw [UInt32.toNat_and]
  exact Nat.and_lt_two_pow _ (n := 6) (by decide)

def b64urlChar (n : UInt32) : Char := B64URL.get ⟨(n &&& 0x3F).toNat, mask_lt n⟩

def base64urlNoPadChars : List UInt8 → List Char
  | a :: b :: c :: rest =>
      let n := (a.toUInt32 <<< 16) ||| (b.toUInt32 <<< 8) ||| c.toUInt32
      b64urlChar (n >>> 18) :: b64urlChar (n >>> 12) :: b64urlChar (n >>> 6) :: b64urlChar n ::
        base64urlNoPadChars rest
  | [a, b] =>
      let n := (a.toUInt32 <<< 16) ||| (b.toUInt32 <<< 8)
      [b64urlChar (n >>> 18), b64urlChar (n >>> 12), b64urlChar (n >>> 6)]
  | [a] =>
      let n := a.toUInt32 <<< 16
      [b64urlChar (n >>> 18), b64urlChar (n >>> 12)]
  | [] => []

def base64urlNoPad (input : List UInt8) : String := String.ofList (base64urlNoPadChars input)

def b64urlValue (c : UInt8) : Option UInt8 :=
  if 'A'.toUInt8 ≤ c ∧ c ≤ 'Z'.toUInt8 then some (c - 'A'.toUInt8)
  else if 'a'.toUInt8 ≤ c ∧ c ≤ 'z'.toUInt8 then some (c - 'a'.toUInt8 + 26)
  else if '0'.toUInt8 ≤ c ∧ c ≤ '9'.toUInt8 then some (c - '0'.toUInt8 + 52)
  else if c = '-'.toUInt8 then some 62
  else if c = '_'.toUInt8 then some 63
  else none

structure Accumulator where
  out : List UInt8
  buf : UInt32
  bits : UInt32

def Accumulator.push (acc : Accumulator) (v : UInt8) : Accumulator :=
  let buf := (acc.buf <<< 6) ||| v.toUInt32
  let bits := acc.bits + 6
  if 8 ≤ bits then
    let bits := bits - 8
    ⟨acc.out ++ [((buf >>> bits) &&& 0xFF).toUInt8], buf, bits⟩
  else ⟨acc.out, buf, bits⟩

def decodeBytes (acc : Accumulator) : List UInt8 → Option Accumulator
  | [] => some acc
  | c :: rest =>
      match b64urlValue c with
      | none => none
      | some v => decodeBytes (acc.push v) rest

def base64urlNoPadDecode (input : String) : Option (List UInt8) :=
  if input = "" then some []
  else if input.utf8ByteSize % 4 = 1 then none
  else
    match decodeBytes ⟨[], 0, 0⟩ (utf8 input) with
    | none => none
    | some acc => if acc.buf &&& ((1 <<< acc.bits) - 1) ≠ 0 then none else some acc.out

def formatToken (secret : Vector UInt8 TOKEN_BYTES) : String :=
  TOKEN_PREFIX ++ base64urlNoPad secret.toList

def parseToken (presented : String) : Option (Vector UInt8 TOKEN_BYTES) :=
  match presented.toList.dropPrefix? TOKEN_PREFIX.toList with
  | none => none
  | some body =>
      match base64urlNoPadDecode (String.ofList body) with
      | none => none
      | some bytes => if h : bytes.length = TOKEN_BYTES then some ⟨bytes.toArray, h⟩ else none

/-! ## The decoder with an unbounded accumulator -/

structure WideAccumulator where
  out : List UInt8
  buf : Nat
  bits : Nat

def WideAccumulator.push (acc : WideAccumulator) (v : UInt8) : WideAccumulator :=
  let buf := (acc.buf <<< 6) ||| v.toNat
  let bits := acc.bits + 6
  if 8 ≤ bits then
    let bits := bits - 8
    ⟨acc.out ++ [UInt8.ofNat ((buf >>> bits) &&& 0xFF)], buf, bits⟩
  else ⟨acc.out, buf, bits⟩

def decodeBytesWide (acc : WideAccumulator) : List UInt8 → Option WideAccumulator
  | [] => some acc
  | c :: rest =>
      match b64urlValue c with
      | none => none
      | some v => decodeBytesWide (acc.push v) rest

def base64urlNoPadDecodeWide (input : String) : Option (List UInt8) :=
  if input = "" then some []
  else if input.utf8ByteSize % 4 = 1 then none
  else
    match decodeBytesWide ⟨[], 0, 0⟩ (utf8 input) with
    | none => none
    | some acc => if acc.buf &&& ((1 <<< acc.bits) - 1) ≠ 0 then none else some acc.out

def b64urlByte (v : Fin 64) : UInt8 := UInt8.ofNat (B64URL.get v).toNat

theorem alphabet_ascii (v : Fin 64) : (B64URL.get v).toNat < 128 := by
  revert v
  decide

theorem b64urlValue_byte (v : Fin 64) : b64urlValue (b64urlByte v) = some (UInt8.ofNat v) := by
  revert v
  decide

theorem byte_of_b64urlValue {c v : UInt8} (value : b64urlValue c = some v) :
    ∃ i : Fin 64, v = UInt8.ofNat i ∧ c = b64urlByte i := by
  have all : ∀ n : Fin 256, (b64urlValue (UInt8.ofNat n)).all fun v =>
      decide (v.toNat < 64 ∧ UInt8.ofNat n = b64urlByte (Fin.ofNat 64 v.toNat)) := by
    decide +kernel
  have here := all ⟨c.toNat, c.toNat_lt⟩
  rw [UInt8.ofNat_toNat, value, Option.all_some, decide_eq_true_eq] at here
  refine ⟨Fin.ofNat 64 v.toNat, ?_, here.2⟩
  rw [Fin.val_ofNat, Nat.mod_eq_of_lt here.1, UInt8.ofNat_toNat]

/-! ## The encoder -/

theorem mask_toNat (n : UInt32) : (n &&& 0x3F).toNat = n.toNat % 64 := by
  rw [UInt32.toNat_and]
  exact Nat.and_two_pow_sub_one_eq_mod n.toNat 6

theorem b64urlChar_eq (n : UInt32) :
    b64urlChar n = B64URL.get ⟨n.toNat % 64, Nat.mod_lt _ (by decide)⟩ := by
  simp only [b64urlChar, mask_toNat]

theorem shift_left_toNat (a : UInt8) : (a.toUInt32 <<< 16).toNat = a.toNat * 65536 ∧
    (a.toUInt32 <<< 8).toNat = a.toNat * 256 := by
  have small := a.toNat_lt
  simp only [UInt32.toNat_shiftLeft, UInt8.toNat_toUInt32, Nat.shiftLeft_eq,
    UInt32.reduceToNat, Nat.reduceMod, Nat.reducePow]
  constructor
  · exact Nat.mod_eq_of_lt (by omega)
  · exact Nat.mod_eq_of_lt (by omega)

theorem pair_toNat (a b : UInt8) : ((a.toUInt32 <<< 16) ||| (b.toUInt32 <<< 8)).toNat =
    a.toNat * 65536 + b.toNat * 256 := by
  have small := b.toNat_lt
  have low : b.toNat * 256 < 2 ^ 16 := by omega
  have high : a.toNat * 65536 = a.toNat <<< 16 := by rw [Nat.shiftLeft_eq]
  rw [UInt32.toNat_or, (shift_left_toNat a).1, (shift_left_toNat b).2, high,
    Nat.shiftLeft_add_eq_or_of_lt low]

theorem group_toNat (a b c : UInt8) :
    ((a.toUInt32 <<< 16) ||| (b.toUInt32 <<< 8) ||| c.toUInt32).toNat =
      a.toNat * 65536 + b.toNat * 256 + c.toNat := by
  have low : c.toNat < 2 ^ 8 := c.toNat_lt
  have high : a.toNat * 65536 + b.toNat * 256 = (a.toNat * 256 + b.toNat) <<< 8 := by
    rw [Nat.shiftLeft_eq]
    omega
  rw [UInt32.toNat_or, pair_toNat, UInt8.toNat_toUInt32, high, Nat.shiftLeft_add_eq_or_of_lt low]

/-- The sextets write the number of `bytes`, shifted by the slack of the last group. -/
structure Writes (bytes : List UInt8) (sextets : List (Fin 64)) (slack : Nat) : Prop where
  value : bigEndian 64 (sextets.map Fin.val) =
    bigEndian 256 (bytes.map UInt8.toNat) * 2 ^ slack
  length : 6 * sextets.length = 8 * bytes.length + slack
  slack_le : slack ≤ 4

theorem Writes.group {bytes : List UInt8} {sextets : List (Fin 64)} {slack : Nat}
    (writes : Writes bytes sextets slack) {a b c : UInt8} {u v w x : Fin 64}
    (value : ((u.val * 64 + v.val) * 64 + w.val) * 64 + x.val =
      (a.toNat * 256 + b.toNat) * 256 + c.toNat) :
    Writes (a :: b :: c :: bytes) (u :: v :: w :: x :: sextets) slack where
  value := by
    have scale : 64 ^ sextets.length = 256 ^ bytes.length * 2 ^ slack := by
      have six : 64 ^ sextets.length = 2 ^ (6 * sextets.length) := Nat.pow_mul 2 6 _ |>.symm
      rw [six, writes.length, Nat.pow_add, Nat.pow_mul]
    simp only [List.map_cons, bigEndian_cons, List.length_cons, List.length_map, writes.value,
      Nat.pow_succ, scale]
    linear_combination 256 ^ bytes.length * 2 ^ slack * value
  length := by
    simp only [List.length_cons]
    have := writes.length
    omega
  slack_le := writes.slack_le

theorem encoder_writes (bytes : List UInt8) : ∃ (sextets : List (Fin 64)) (slack : Nat),
    base64urlNoPadChars bytes = sextets.map B64URL.get ∧ Writes bytes sextets slack := by
  induction bytes using base64urlNoPadChars.induct with
  | case1 a b c rest ih =>
      obtain ⟨sextets, slack, chars, writes⟩ := ih
      have number := group_toNat a b c
      have small := a.toNat_lt
      have small' := b.toNat_lt
      have small'' := c.toNat_lt
      simp only [base64urlNoPadChars, b64urlChar_eq, UInt32.toNat_shiftRight,
        Nat.shiftRight_eq_div_pow, number, chars]
      refine ⟨_ :: _ :: _ :: _ :: sextets, slack, rfl, writes.group ?_⟩
      simp
      omega
  | case2 a b =>
      have number := pair_toNat a b
      have small := a.toNat_lt
      have small' := b.toNat_lt
      simp only [base64urlNoPadChars, b64urlChar_eq, UInt32.toNat_shiftRight,
        Nat.shiftRight_eq_div_pow, number]
      refine ⟨[_, _, _], 2, rfl, ?_, rfl, by decide⟩
      simp [bigEndian_cons]
      omega
  | case3 a =>
      have number := (shift_left_toNat a).1
      have small := a.toNat_lt
      simp only [base64urlNoPadChars, b64urlChar_eq, UInt32.toNat_shiftRight,
        Nat.shiftRight_eq_div_pow, number]
      refine ⟨[_, _], 4, rfl, ?_, rfl, by decide⟩
      simp [bigEndian_cons]
      omega
  | case4 => exact ⟨[], 0, rfl, rfl, rfl, by decide⟩

/-! ## The unbounded decoder -/

/-- What the decoder holds after some sextets: their number, and its high bits as bytes. -/
structure Reads (sextets : List (Fin 64)) (acc : WideAccumulator) : Prop where
  buf : acc.buf = bigEndian 64 (sextets.map Fin.val)
  out : bigEndian 256 (acc.out.map UInt8.toNat) = acc.buf / 2 ^ acc.bits
  length : 6 * sextets.length = 8 * acc.out.length + acc.bits
  bits : acc.bits < 8

theorem Reads.new : Reads [] ⟨[], 0, 0⟩ := ⟨rfl, rfl, rfl, by decide⟩

theorem Reads.push {sextets : List (Fin 64)} {acc : WideAccumulator} (reads : Reads sextets acc)
    (v : Fin 64) : Reads (sextets ++ [v]) (acc.push (UInt8.ofNat v)) := by
  have byte : (UInt8.ofNat v.val).toNat = v.val := by
    rw [UInt8.toNat_ofNat']
    omega
  have shifted : (acc.buf <<< 6) ||| v.val = acc.buf * 64 + v.val := by
    rw [← Nat.shiftLeft_add_eq_or_of_lt (show v.val < 2 ^ 6 from v.isLt), Nat.shiftLeft_eq]
  have number : acc.buf * 64 + v.val = bigEndian 64 ((sextets ++ [v]).map Fin.val) := by
    rw [List.map_append, List.map_singleton, bigEndian_concat, reads.buf]
  have before : acc.buf = (acc.buf * 64 + v.val) / 2 ^ 6 := by omega
  have count := reads.length
  have bound := reads.bits
  unfold WideAccumulator.push
  simp only [byte, shifted]
  split
  · next full =>
      have cut : acc.bits = acc.bits + 6 - 8 + 2 := by omega
      have high : acc.buf / 2 ^ acc.bits =
          (acc.buf * 64 + v.val) / 2 ^ (acc.bits + 6 - 8) / 256 := by
        rw [before, Nat.div_div_eq_div_mul, Nat.div_div_eq_div_mul, ← before, ← Nat.pow_add,
          show (256 : Nat) = 2 ^ 8 from rfl, ← Nat.pow_add]
        congr 2
        omega
      refine ⟨number, ?_, ?_, by simp only; omega⟩
      · simp only [List.map_append, List.map_singleton, bigEndian_concat, reads.out, high,
          Nat.shiftRight_eq_div_pow, UInt8.toNat_ofNat',
          show ∀ n : Nat, n &&& 0xFF = n % 256 from fun n => Nat.and_two_pow_sub_one_eq_mod n 8,
          Nat.mod_mod]
        omega
      · simp only [List.length_append, List.length_singleton]
        omega
  · next short =>
      refine ⟨number, ?_, ?_, by simp only; omega⟩
      · have high : acc.buf / 2 ^ acc.bits = (acc.buf * 64 + v.val) / 2 ^ (acc.bits + 6) := by
          rw [before, Nat.div_div_eq_div_mul, ← before, ← Nat.pow_add, Nat.add_comm 6]
        simp only [reads.out, high]
      · simp only [List.length_append, List.length_singleton]
        omega

theorem decodeBytesWide_bytes (sextets : List (Fin 64)) {before : List (Fin 64)}
    {acc : WideAccumulator} (reads : Reads before acc) :
    ∃ acc', decodeBytesWide acc (sextets.map b64urlByte) = some acc' ∧
      Reads (before ++ sextets) acc' := by
  induction sextets generalizing before acc with
  | nil => exact ⟨acc, rfl, by rwa [List.append_nil]⟩
  | cons v sextets ih =>
      obtain ⟨acc', decoded, after⟩ := ih (reads.push v)
      refine ⟨acc', ?_, by rwa [List.append_assoc] at after⟩
      rw [List.map_cons, decodeBytesWide, b64urlValue_byte]
      exact decoded

theorem bytes_of_decodeBytesWide {bytes : List UInt8} {acc acc' : WideAccumulator}
    (decoded : decodeBytesWide acc bytes = some acc') :
    ∃ sextets : List (Fin 64), bytes = sextets.map b64urlByte := by
  induction bytes generalizing acc with
  | nil => exact ⟨[], rfl⟩
  | cons c bytes ih =>
      simp only [decodeBytesWide] at decoded
      split at decoded
      · cases decoded
      · next v value =>
          obtain ⟨i, -, same⟩ := byte_of_b64urlValue value
          obtain ⟨sextets, rest⟩ := ih decoded
          exact ⟨i :: sextets, by rw [same, rest, List.map_cons]⟩

theorem utf8_chars (sextets : List (Fin 64)) :
    utf8 (String.ofList (sextets.map B64URL.get)) = sextets.map b64urlByte := by
  have ascii : Ascii (sextets.map B64URL.get) := by
    intro c mem
    obtain ⟨v, -, rfl⟩ := List.mem_map.mp mem
    exact alphabet_ascii v
  rw [utf8_ascii ascii, List.map_map]
  rfl

theorem slack_eq (n bits : Nat) : n &&& ((1 <<< bits) - 1) = n % 2 ^ bits := by
  rw [Nat.one_shiftLeft, Nat.and_two_pow_sub_one_eq_mod]

theorem small_of_map {sextets : List (Fin 64)} : ∀ d ∈ sextets.map Fin.val, d < 64 := by
  intro d mem
  obtain ⟨v, -, rfl⟩ := List.mem_map.mp mem
  exact v.isLt

theorem small_of_bytes {bytes : List UInt8} : ∀ d ∈ bytes.map UInt8.toNat, d < 256 := by
  intro d mem
  obtain ⟨b, -, rfl⟩ := List.mem_map.mp mem
  exact b.toNat_lt

theorem Reads.canonical {read written : List (Fin 64)} {acc : WideAccumulator} {slack : Nat}
    (reads : Reads read acc) (writes : Writes acc.out written slack)
    (whole : read.length % 4 ≠ 1) (zero : acc.buf % 2 ^ acc.bits = 0) : read = written := by
  have long := reads.length
  have bits := reads.bits
  have long' := writes.length
  have slack_le := writes.slack_le
  have short : acc.bits ≠ 6 := by omega
  have lengths : read.length = written.length := by omega
  obtain rfl : slack = acc.bits := by omega
  apply List.map_injective_iff.mpr Fin.val_injective
  apply bigEndian_inj (b := 64) (by decide) (by simpa using lengths) small_of_map small_of_map
  calc bigEndian 64 (read.map Fin.val)
      = acc.buf := reads.buf.symm
    _ = acc.buf / 2 ^ acc.bits * 2 ^ acc.bits := (Nat.div_mul_cancel (Nat.dvd_of_mod_eq_zero zero)).symm
    _ = bigEndian 64 (written.map Fin.val) := by rw [writes.value, reads.out]

theorem Reads.written {written : List (Fin 64)} {acc : WideAccumulator} {bytes : List UInt8}
    {slack : Nat} (reads : Reads written acc) (writes : Writes bytes written slack) :
    acc.buf % 2 ^ acc.bits = 0 ∧ acc.out = bytes := by
  have long := reads.length
  have bits := reads.bits
  have long' := writes.length
  have slack_le := writes.slack_le
  have lengths : acc.out.length = bytes.length := by omega
  obtain rfl : slack = acc.bits := by omega
  have buf : acc.buf = bigEndian 256 (bytes.map UInt8.toNat) * 2 ^ acc.bits := by
    rw [reads.buf, writes.value]
  constructor
  · rw [buf, Nat.mul_mod_left]
  · apply List.map_injective_iff.mpr (fun _ _ => UInt8.toNat_inj.mp)
    apply bigEndian_inj (b := 256) (by decide) (by simpa using lengths) small_of_bytes small_of_bytes
    rw [reads.out, buf, Nat.mul_div_cancel _ (Nat.two_pow_pos _)]

theorem base64urlNoPadDecodeWide_eq_some {s : String} {bytes : List UInt8} :
    base64urlNoPadDecodeWide s = some bytes ↔ s = base64urlNoPad bytes := by
  constructor
  · intro decoded
    unfold base64urlNoPadDecodeWide at decoded
    split at decoded
    · next empty =>
        cases decoded
        exact empty
    · split at decoded
      · cases decoded
      · next whole =>
          split at decoded
          · cases decoded
          · next acc all =>
              obtain ⟨read, at_s⟩ := bytes_of_decodeBytesWide all
              obtain ⟨acc', again, reads⟩ := decodeBytesWide_bytes read Reads.new
              rw [← at_s, all] at again
              cases again
              simp only [Option.ite_none_left_eq_some, ne_eq, not_not, slack_eq,
                Option.some.injEq] at decoded
              obtain ⟨zero, rfl⟩ := decoded
              obtain ⟨written, slack, chars, writes⟩ := encoder_writes acc.out
              rw [← length_utf8, at_s, List.length_map] at whole
              obtain rfl := reads.canonical writes whole zero
              apply utf8_injective
              rw [at_s, base64urlNoPad, chars, utf8_chars]
              rfl
  · rintro rfl
    obtain ⟨written, slack, chars, writes⟩ := encoder_writes bytes
    have text : utf8 (base64urlNoPad bytes) = written.map b64urlByte := by
      rw [base64urlNoPad, chars, utf8_chars]
    obtain ⟨acc, decoded, reads⟩ := decodeBytesWide_bytes written Reads.new
    obtain ⟨zero, out⟩ := Reads.written reads writes
    have count := writes.length
    have most := writes.slack_le
    have whole : (base64urlNoPad bytes).utf8ByteSize % 4 ≠ 1 := by
      rw [← length_utf8, text, List.length_map]
      omega
    unfold base64urlNoPadDecodeWide
    split
    · next empty =>
        have none_ : written = [] := by
          rw [empty] at text
          exact List.map_eq_nil_iff.mp text.symm
        rw [none_, List.length_nil] at count
        rw [List.eq_nil_of_length_eq_zero (show bytes.length = 0 by omega)]
    · rw [text, decoded]
      simp only [slack_eq, zero, ne_eq, not_true, if_false, out]

/-! ## The accumulator of 32 bits -/

/-- The bits that the short accumulator has lost are above its window. -/
structure Narrows (acc : Accumulator) (wide : WideAccumulator) : Prop where
  out : acc.out = wide.out
  buf : acc.buf.toNat = wide.buf % 2 ^ 32
  bits : acc.bits.toNat = wide.bits
  small : wide.bits < 8

theorem Narrows.push {acc : Accumulator} {wide : WideAccumulator} (narrows : Narrows acc wide)
    (v : UInt8) : Narrows (acc.push v) (wide.push v) := by
  have small := narrows.small
  have bits := narrows.bits
  have byte := v.toNat_lt
  have buf : ((acc.buf <<< 6) ||| v.toUInt32).toNat = ((wide.buf <<< 6) ||| v.toNat) % 2 ^ 32 := by
    rw [UInt32.toNat_or, UInt32.toNat_shiftLeft, narrows.buf, UInt8.toNat_toUInt32,
      Nat.or_mod_two_pow, Nat.mod_eq_of_lt (show v.toNat < 2 ^ 32 by omega)]
    congr 1
    simp only [Nat.shiftLeft_eq, UInt32.reduceToNat, Nat.reduceMod]
    rw [Nat.mod_mul_mod]
  have six : (acc.bits + 6).toNat = wide.bits + 6 := by
    rw [UInt32.toNat_add, bits]
    exact Nat.mod_eq_of_lt (by simp only [UInt32.reduceToNat]; omega)
  have full : 8 ≤ acc.bits + 6 ↔ 8 ≤ wide.bits + 6 := by
    rw [UInt32.le_iff_toNat_le, six]
    rfl
  unfold Accumulator.push WideAccumulator.push
  by_cases enough : 8 ≤ wide.bits + 6
  · have left : (acc.bits + 6 - 8).toNat = wide.bits + 6 - 8 := by
      rw [UInt32.toNat_sub_of_le _ _ (full.mpr enough), six]
      rfl
    simp only [if_pos enough, if_pos (full.mpr enough)]
    refine ⟨?_, buf, left, by simp only; omega⟩
    simp only [narrows.out]
    congr 2
    apply UInt8.toNat_inj.mp
    have shift : (acc.bits + 6 - 8).toNat % 32 = wide.bits + 6 - 8 := by
      rw [left]
      omega
    have byte_mask (n : Nat) : n &&& 0xFF = n % 2 ^ 8 := Nat.and_two_pow_sub_one_eq_mod n 8
    have byte_mask32 (n : Nat) : n &&& (0xFF : UInt32).toNat = n % 2 ^ 8 := byte_mask n
    rw [UInt32.toNat_toUInt8, UInt32.toNat_and, UInt32.toNat_shiftRight, shift, buf,
      UInt8.toNat_ofNat', byte_mask32, byte_mask, Nat.shiftRight_eq_div_pow,
      Nat.shiftRight_eq_div_pow, window_mod (by omega)]
  · simp only [if_neg enough, if_neg (full.not.mpr enough)]
    exact ⟨narrows.out, buf, six, by simp only; omega⟩

theorem decodeBytes_narrows {bytes : List UInt8} {acc : Accumulator} {wide : WideAccumulator}
    (narrows : Narrows acc wide) :
    Option.Rel Narrows (decodeBytes acc bytes) (decodeBytesWide wide bytes) := by
  induction bytes generalizing acc wide with
  | nil => exact .some narrows
  | cons c bytes ih =>
      simp only [decodeBytes, decodeBytesWide]
      cases b64urlValue c with
      | none => exact .none
      | some v => exact ih (narrows.push v)

theorem base64urlNoPadDecode_eq_wide (s : String) :
    base64urlNoPadDecode s = base64urlNoPadDecodeWide s := by
  unfold base64urlNoPadDecode base64urlNoPadDecodeWide
  have related : Option.Rel Narrows (decodeBytes ⟨[], 0, 0⟩ (utf8 s))
      (decodeBytesWide ⟨[], 0, 0⟩ (utf8 s)) := decodeBytes_narrows ⟨rfl, rfl, rfl, by decide⟩
  generalize decodeBytes ⟨[], 0, 0⟩ (utf8 s) = narrow at related
  generalize decodeBytesWide ⟨[], 0, 0⟩ (utf8 s) = wide at related
  cases related with
  | none => rfl
  | @some acc wide narrows =>
      have below := narrows.small
      have one : ((1 : UInt32) <<< acc.bits).toNat = 2 ^ wide.bits := by
        have unit : (1 : UInt32).toNat = 1 := rfl
        rw [UInt32.toNat_shiftLeft, narrows.bits, Nat.mod_eq_of_lt (show wide.bits < 32 by omega),
          unit, Nat.one_shiftLeft]
        exact Nat.mod_eq_of_lt (Nat.pow_lt_pow_right (by decide) (by omega))
      have mask : ((1 : UInt32) <<< acc.bits - 1).toNat = 2 ^ wide.bits - 1 := by
        rw [UInt32.toNat_sub_of_le, one]
        · rfl
        · rw [UInt32.le_iff_toNat_le, one]
          exact Nat.one_le_two_pow
      have slack : acc.buf &&& ((1 <<< acc.bits) - 1) = 0 ↔
          wide.buf &&& ((1 <<< wide.bits) - 1) = 0 := by
        rw [slack_eq, ← UInt32.toNat_inj, UInt32.toNat_and, mask, Nat.and_two_pow_sub_one_eq_mod,
          narrows.buf, Nat.mod_mod_of_dvd _ (Nat.pow_dvd_pow 2 (by omega : wide.bits ≤ 32))]
        rfl
      simp only [ne_eq, slack, narrows.out]

/-! ## Tokens -/

theorem parseToken_eq_some {presented : String} {secret : Vector UInt8 TOKEN_BYTES} :
    parseToken presented = some secret ↔ presented = formatToken secret := by
  have whole (body : List Char) :
      String.ofList (TOKEN_PREFIX.toList ++ body) = TOKEN_PREFIX ++ String.ofList body := by
    rw [String.ofList_append, String.ofList_toList]
  unfold parseToken
  constructor
  · intro parsed
    split at parsed
    · cases parsed
    · next body cut =>
        split at parsed
        · cases parsed
        · next bytes decoded =>
            split at parsed
            · next length =>
                cases parsed
                rw [base64urlNoPadDecode_eq_wide, base64urlNoPadDecodeWide_eq_some] at decoded
                obtain ⟨lead, same, lead_eq⟩ := List.dropPrefix?_eq_some_iff.mp cut
                rw [eq_of_beq lead_eq] at same
                rw [formatToken, ← String.ofList_toList (s := presented), same, whole, decoded]
                rfl
            · cases parsed
  · rintro rfl
    have cut : (formatToken secret).toList.dropPrefix? TOKEN_PREFIX.toList =
        some (base64urlNoPad secret.toList).toList := by
      rw [formatToken, String.toList_append]
      exact List.dropPrefix?_append_of_beq _ (beq_self_eq_true _)
    have decoded : base64urlNoPadDecode (base64urlNoPad secret.toList) = some secret.toList := by
      rw [base64urlNoPadDecode_eq_wide, base64urlNoPadDecodeWide_eq_some]
    simp only [cut, String.ofList_toList, decoded]
    simp [Vector.toList]

theorem token_text_bijective :
    (∀ (s : String) (bytes : List UInt8),
      base64urlNoPadDecode s = some bytes ↔ s = base64urlNoPad bytes) ∧
    (∀ (presented : String) (secret : Vector UInt8 TOKEN_BYTES),
      parseToken presented = some secret ↔ presented = formatToken secret) ∧
    ∀ s : String, base64urlNoPadDecode s = base64urlNoPadDecodeWide s := by
  refine ⟨?_, fun presented secret => parseToken_eq_some, base64urlNoPadDecode_eq_wide⟩
  intro s bytes
  rw [base64urlNoPadDecode_eq_wide, base64urlNoPadDecodeWide_eq_some]

end OxidHome.Auth

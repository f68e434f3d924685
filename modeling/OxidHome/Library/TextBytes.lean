import OxidHome.Library.Framing
import OxidHome.Library.Text

/-!
# Bytes of texts

The UTF-8 bytes of a text, and the loop that reads hex out of them two bytes at a time into an array
of a fixed size.
-/

namespace OxidHome.Library

def Ascii (s : List Char) : Prop := ∀ c ∈ s, c.toNat < 128

theorem ascii_of_isAlphanum {c : Char} (h : c.isAlphanum) : c.toNat < 128 := by
  simp only [Char.isAlphanum, Char.isAlpha, Char.isUpper, Char.isLower, Char.isDigit,
    Bool.or_eq_true, Bool.and_eq_true, decide_eq_true_eq, UInt32.le_iff_toNat_le] at h
  have : c.toNat = c.val.toNat := rfl
  rcases h with (⟨_, h⟩ | ⟨_, h⟩) | ⟨_, h⟩
  all_goals
    simp at h
    omega

theorem utf8_ofList_cons (c : Char) (s : List Char) :
    utf8 (String.ofList (c :: s)) = String.utf8EncodeChar c ++ utf8 (String.ofList s) := by
  have first : [c].utf8Encode.data.toList = String.utf8EncodeChar c := by
    rw [List.utf8Encode_singleton, List.toList_data_toByteArray]
  have bytes (cs : List Char) : utf8 (String.ofList cs) = cs.utf8Encode.data.toList := by
    simp [utf8]
  rw [bytes, bytes, List.utf8Encode_cons, ByteArray.toList_data_append, first]

theorem utf8EncodeChar_ascii {c : Char} (h : c.toNat < 128) :
    String.utf8EncodeChar c = [UInt8.ofNat c.toNat] :=
  if_pos (Nat.le_of_lt_succ h)

theorem exists_utf8EncodeChar_high {c : Char} (h : 128 ≤ c.toNat) :
    ∃ b ∈ String.utf8EncodeChar c, 128 ≤ b.toNat := by
  have outside : ¬ c.val.toNat ≤ 0x7f := by
    intro small
    exact absurd (show c.toNat ≤ 0x7f from small) (by omega)
  unfold String.utf8EncodeChar
  simp only [if_neg outside]
  split
  · refine ⟨_, List.mem_cons_self, ?_⟩
    rw [UInt8.toNat_ofNat']
    omega
  · split
    · refine ⟨_, List.mem_cons_self, ?_⟩
      rw [UInt8.toNat_ofNat']
      omega
    · refine ⟨_, List.mem_cons_self, ?_⟩
      rw [UInt8.toNat_ofNat']
      omega

theorem utf8_ascii {s : List Char} (h : Ascii s) :
    utf8 (String.ofList s) = s.map fun c => UInt8.ofNat c.toNat := by
  induction s with
  | nil => rfl
  | cons c s ih =>
      rw [utf8_ofList_cons, utf8EncodeChar_ascii (h c List.mem_cons_self),
        ih fun c mem => h c (List.mem_cons_of_mem _ mem)]
      rfl

theorem ascii_iff {s : List Char} : Ascii s ↔ ∀ b ∈ utf8 (String.ofList s), b.toNat < 128 := by
  constructor
  · intro ascii b mem
    rw [utf8_ascii ascii] at mem
    obtain ⟨c, here, rfl⟩ := List.mem_map.mp mem
    have := ascii c here
    rw [UInt8.toNat_ofNat']
    omega
  · induction s with
    | nil => exact fun _ => by simp [Ascii]
    | cons c s ih =>
        intro low
        rw [utf8_ofList_cons] at low
        intro d mem
        rcases List.mem_cons.mp mem with rfl | mem
        · by_contra high
          obtain ⟨b, here, high⟩ := exists_utf8EncodeChar_high (not_lt.mp high)
          exact absurd (low b (List.mem_append_left _ here)) (not_lt.mpr high)
        · exact ih (fun b mem => low b (List.mem_append_right _ mem)) d mem

theorem length_utf8_ofList (s : List Char) :
    (utf8 (String.ofList s)).length = (s.map Char.utf8Size).sum := by
  induction s with
  | nil => rfl
  | cons c s ih =>
      rw [utf8_ofList_cons, List.length_append, ih, String.length_utf8EncodeChar]
      rfl

def chunks2 {α : Type*} : List α → List (List α)
  | [] => []
  | [a] => [[a]]
  | a :: b :: rest => [a, b] :: chunks2 rest

/-- `from_utf8` and then `u8::from_str_radix(_, 16)`. A byte above ASCII fails one of them. -/
def parseHexChunk : List UInt8 → Option UInt8
  | [a, b] =>
      if a.toNat < 128 ∧ b.toNat < 128 then parseHexByte (Char.ofNat a.toNat) (Char.ofNat b.toNat)
      else none
  | [a] => if a.toNat < 128 then (hexValue (Char.ofNat a.toNat)).map UInt8.ofNat else none
  | _ => none

/-- The loop `supplied[i] = parse(chunk)?`. An index outside of the array is a panic, which is `none`;
a chunk that does not parse is `some none`. -/
def fillFrom : List (List UInt8) → Nat → List UInt8 → Option (Option (List UInt8))
  | [], _, supplied => some (some supplied)
  | chunk :: rest, i, supplied =>
      match parseHexChunk chunk with
      | none => some none
      | some byte => if i < supplied.length then fillFrom rest (i + 1) (supplied.set i byte) else none

def hexArray (size : Nat) (hex : List UInt8) : Option (Option (List UInt8)) :=
  fillFrom (chunks2 hex) 0 (List.replicate size 0)

theorem length_chunks2 {α : Type*} (s : List α) : (chunks2 s).length = (s.length + 1) / 2 := by
  induction s using chunks2.induct with
  | case1 => simp [chunks2]
  | case2 a => simp [chunks2]
  | case3 a b rest ih =>
      simp only [chunks2, List.length_cons, ih]
      omega

theorem fillFrom_eq {chunks : List (List UInt8)} {i : Nat} {supplied : List UInt8}
    (fits : i + chunks.length ≤ supplied.length) :
    fillFrom chunks i supplied =
      some ((chunks.mapM parseHexChunk).map fun bytes =>
        supplied.take i ++ bytes ++ supplied.drop (i + bytes.length)) := by
  induction chunks generalizing i supplied with
  | nil => simp [fillFrom]
  | cons chunk chunks ih =>
      rw [List.length_cons] at fits
      cases parsed : parseHexChunk chunk with
      | none => simp [fillFrom, parsed]
      | some byte =>
          have inside : i < supplied.length := by omega
          have rest : i + 1 + chunks.length ≤ (supplied.set i byte).length := by
            rw [List.length_set]
            omega
          simp only [fillFrom, parsed, if_pos inside, ih rest, List.mapM_cons]
          cases others : chunks.mapM parseHexChunk with
          | none => simp
          | some bytes =>
              have first : (supplied.set i byte).take (i + 1) = supplied.take i ++ [byte] := by
                rw [List.take_add_one, List.take_set_of_le (by omega)]
                simp [inside]
              have last : (supplied.set i byte).drop (i + 1 + bytes.length) =
                  supplied.drop (i + (bytes.length + 1)) := by
                rw [List.drop_set_of_lt (by omega), Nat.add_right_comm i 1, Nat.add_assoc]
              simp [first, last]

theorem low_of_parseHexChunk {chunk : List UInt8} {byte : UInt8}
    (parsed : parseHexChunk chunk = some byte) : ∀ b ∈ chunk, b.toNat < 128 := by
  match chunk with
  | [] => simp
  | [a] =>
      simp only [parseHexChunk, Option.ite_none_right_eq_some] at parsed
      simpa using parsed.1
  | [a, b] =>
      simp only [parseHexChunk, Option.ite_none_right_eq_some] at parsed
      simpa using parsed.1
  | _ :: _ :: _ :: _ => simp [parseHexChunk] at parsed

theorem low_of_mapM {hex bytes : List UInt8}
    (parsed : (chunks2 hex).mapM parseHexChunk = some bytes) : ∀ b ∈ hex, b.toNat < 128 := by
  induction hex using chunks2.induct generalizing bytes with
  | case1 => simp
  | case2 a =>
      simp only [chunks2, List.mapM_cons, Option.bind_eq_bind, Option.bind_eq_some_iff] at parsed
      obtain ⟨byte, first, -⟩ := parsed
      exact low_of_parseHexChunk first
  | case3 a b rest ih =>
      simp only [chunks2, List.mapM_cons, Option.bind_eq_bind, Option.bind_eq_some_iff] at parsed
      obtain ⟨byte, first, others, more, -⟩ := parsed
      intro c mem
      rcases List.mem_append.mp (show c ∈ [a, b] ++ rest from mem) with mem | mem
      · exact low_of_parseHexChunk first c mem
      · exact ih more c mem

theorem ascii_of_hexValue {c : Char} {n : Nat} (value : hexValue c = some n) : c.toNat < 128 := by
  unfold hexValue at value
  split_ifs at value with digit lower upper
  · exact lt_of_le_of_lt (show c.toNat ≤ '9'.toNat from digit.2) (by decide)
  · exact lt_of_le_of_lt (show c.toNat ≤ 'f'.toNat from lower.2) (by decide)
  · exact lt_of_le_of_lt (show c.toNat ≤ 'F'.toNat from upper.2) (by decide)

theorem ascii_of_parseHexByte {a b : Char} {byte : UInt8} (parsed : parseHexByte a b = some byte) :
    a.toNat < 128 ∧ b.toNat < 128 := by
  unfold parseHexByte at parsed
  split at parsed
  · next sign =>
      obtain ⟨n, value, -⟩ := Option.map_eq_some_iff.mp parsed
      exact ⟨by rw [sign]; decide, ascii_of_hexValue value⟩
  · obtain ⟨high, first, more⟩ := Option.bind_eq_some_iff.mp parsed
    obtain ⟨low, second, -⟩ := Option.map_eq_some_iff.mp more
    exact ⟨ascii_of_hexValue first, ascii_of_hexValue second⟩

theorem ascii_of_hexDecode {s : List Char} {bytes : List UInt8} (decoded : hexDecode s = some bytes) :
    Ascii s := by
  induction s using hexDecode.induct generalizing bytes with
  | case1 => simp [Ascii]
  | case2 a => simp [hexDecode] at decoded
  | case3 a b rest ih =>
      obtain ⟨byte, first, more⟩ := Option.bind_eq_some_iff.mp decoded
      obtain ⟨others, second, -⟩ := Option.map_eq_some_iff.mp more
      obtain ⟨ha, hb⟩ := ascii_of_parseHexByte first
      intro c mem
      simp only [List.mem_cons] at mem
      rcases mem with rfl | rfl | mem
      · exact ha
      · exact hb
      · exact ih second c mem

theorem length_of_hexDecode {s : List Char} {bytes : List UInt8}
    (decoded : hexDecode s = some bytes) : s.length = 2 * bytes.length := by
  induction s using hexDecode.induct generalizing bytes with
  | case1 =>
      cases decoded
      rfl
  | case2 a => simp [hexDecode] at decoded
  | case3 a b rest ih =>
      obtain ⟨byte, -, more⟩ := Option.bind_eq_some_iff.mp decoded
      obtain ⟨others, second, rfl⟩ := Option.map_eq_some_iff.mp more
      simp only [List.length_cons, ih second]
      omega

theorem parseHexChunk_ascii {a b : Char} (ha : a.toNat < 128) (hb : b.toNat < 128) :
    parseHexChunk [UInt8.ofNat a.toNat, UInt8.ofNat b.toNat] = parseHexByte a b := by
  have same (c : Char) (h : c.toNat < 128) : (UInt8.ofNat c.toNat).toNat = c.toNat := by
    rw [UInt8.toNat_ofNat']
    omega
  simp only [parseHexChunk, same a ha, same b hb, ha, hb, and_self, if_true, Char.ofNat_toNat]

theorem mapM_chunks_ascii {s : List Char} (ascii : Ascii s) (even : s.length % 2 = 0) :
    (chunks2 (s.map fun c => UInt8.ofNat c.toNat)).mapM parseHexChunk = hexDecode s := by
  induction s using hexDecode.induct with
  | case1 => rfl
  | case2 a => simp at even
  | case3 a b rest ih =>
      have ha := ascii a (by simp)
      have hb := ascii b (by simp)
      rw [List.length_cons, List.length_cons] at even
      have others := ih (fun c mem => ascii c (by simp [mem])) (by omega)
      simp only [List.map_cons, chunks2, List.mapM_cons, parseHexChunk_ascii ha hb, others, hexDecode]
      cases parseHexByte a b <;> cases hexDecode rest <;> rfl

theorem hexArray_utf8 {size : Nat} {s : List Char} (exact_ : (s.map Char.utf8Size).sum = 2 * size) :
    hexArray size (utf8 (String.ofList s)) = some (hexDecode s) := by
  have length : (utf8 (String.ofList s)).length = 2 * size := by rw [length_utf8_ofList, exact_]
  have all : 0 + (chunks2 (utf8 (String.ofList s))).length ≤
      (List.replicate size (0 : UInt8)).length := by
    rw [length_chunks2, List.length_replicate]
    omega
  rw [hexArray, fillFrom_eq all]
  congr 1
  by_cases ascii : Ascii s
  · have even : s.length % 2 = 0 := by
      rw [utf8_ascii ascii, List.length_map] at length
      omega
    rw [utf8_ascii ascii, mapM_chunks_ascii ascii even]
    cases decoded : hexDecode s with
    | none => rfl
    | some bytes =>
        have count : bytes.length = size := by
          have := length_of_hexDecode decoded
          rw [utf8_ascii ascii, List.length_map] at length
          omega
        simp [count]
  · have left : (chunks2 (utf8 (String.ofList s))).mapM parseHexChunk = none := by
      by_contra some_
      obtain ⟨bytes, parsed⟩ := Option.ne_none_iff_exists'.mp some_
      exact ascii (ascii_iff.mpr (low_of_mapM parsed))
    have right : hexDecode s = none := by
      by_contra some_
      obtain ⟨bytes, decoded⟩ := Option.ne_none_iff_exists'.mp some_
      exact ascii (ascii_of_hexDecode decoded)
    rw [left, right]
    rfl

end OxidHome.Library

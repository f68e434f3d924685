import OxidHome.Library.TextBytes

/-!
# Escaped texts

A text quoted inside of another: a quote and a backslash take a backslash more, a control byte is
written in two bytes or in six. What is written this way has no control byte, so it takes at most
twice its length when it is quoted again.
-/

namespace OxidHome.Library

def hexDigitByte (n : UInt8) : UInt8 := if n < 10 then 48 + n else 87 + n

def escapeByte (b : UInt8) : List UInt8 :=
  if b = 34 then [92, 34]
  else if b = 92 then [92, 92]
  else if b = 8 then [92, 98]
  else if b = 9 then [92, 116]
  else if b = 10 then [92, 110]
  else if b = 12 then [92, 102]
  else if b = 13 then [92, 114]
  else if b < 32 then [92, 117, 48, 48, hexDigitByte (b / 16), hexDigitByte (b % 16)]
  else [b]

def escape (bytes : List UInt8) : List UInt8 := bytes.flatMap escapeByte

def quoted (bytes : List UInt8) : List UInt8 := 34 :: (escape bytes ++ [34])

def marks (bytes : List UInt8) : Nat := bytes.countP fun b => b = 34 || b = 92

def Printable (bytes : List UInt8) : Prop := ∀ b ∈ bytes, 32 ≤ b

instance (bytes : List UInt8) : Decidable (Printable bytes) :=
  inferInstanceAs (Decidable (∀ b ∈ bytes, 32 ≤ b))

theorem Printable.nil : Printable [] := fun _ mem => absurd mem List.not_mem_nil

theorem printable_cons {b : UInt8} {bytes : List UInt8} :
    Printable (b :: bytes) ↔ 32 ≤ b ∧ Printable bytes := List.forall_mem_cons

theorem printable_singleton {b : UInt8} (visible : 32 ≤ b) : Printable [b] :=
  printable_cons.mpr ⟨visible, .nil⟩

theorem printable_append {first second : List UInt8} :
    Printable (first ++ second) ↔ Printable first ∧ Printable second := List.forall_mem_append

theorem hexDigitByte_printable : ∀ n < 16, 32 ≤ hexDigitByte (UInt8.ofNat n) := by decide

theorem printable_hexDigitByte {n : UInt8} (small : n.toNat < 16) : 32 ≤ hexDigitByte n := by
  have := hexDigitByte_printable n.toNat small
  rwa [UInt8.ofNat_toNat] at this

theorem printable_escapeByte (b : UInt8) : Printable (escapeByte b) := by
  have high : 32 ≤ hexDigitByte (b / 16) := printable_hexDigitByte (by
    have := b.toNat_lt
    simp only [UInt8.toNat_div, UInt8.reduceToNat]
    omega)
  have low : 32 ≤ hexDigitByte (b % 16) := printable_hexDigitByte (by
    simp only [UInt8.toNat_mod, UInt8.reduceToNat]
    omega)
  have two {c : UInt8} (visible : 32 ≤ c) : Printable [92, c] :=
    printable_cons.mpr ⟨by decide, printable_singleton visible⟩
  unfold escapeByte
  split_ifs with _ _ _ _ _ _ _ control
  · exact two (by decide)
  · exact two (by decide)
  · exact two (by decide)
  · exact two (by decide)
  · exact two (by decide)
  · exact two (by decide)
  · exact two (by decide)
  · simp only [printable_cons, high, low, Printable.nil, and_true]
    decide
  · exact printable_singleton (UInt8.not_lt.mp control)

theorem printable_escape (bytes : List UInt8) : Printable (escape bytes) := by
  intro c mem
  obtain ⟨b, _, mem⟩ := List.mem_flatMap.mp mem
  exact printable_escapeByte b c mem

theorem printable_quoted (bytes : List UInt8) : Printable (quoted bytes) :=
  printable_cons.mpr ⟨by decide, printable_append.mpr ⟨printable_escape bytes,
    printable_singleton (by decide)⟩⟩

theorem length_escapeByte_pos (b : UInt8) : 1 ≤ (escapeByte b).length := by
  unfold escapeByte
  split_ifs <;> simp

theorem length_escapeByte_le (b : UInt8) : (escapeByte b).length ≤ 6 := by
  unfold escapeByte
  split_ifs <;> simp

theorem length_escapeByte_of_printable (b : UInt8) (printable : 32 ≤ b) :
    (escapeByte b).length = 1 + marks [b] := by
  have visible {c : UInt8} (control : c < 32) : b ≠ c := fun same =>
    absurd (same ▸ printable) (UInt8.not_le.mpr control)
  by_cases quote : b = 34
  · rw [quote]
    rfl
  by_cases backslash : b = 92
  · rw [backslash]
    rfl
  rw [escapeByte, if_neg quote, if_neg backslash, if_neg (visible (by decide)),
    if_neg (visible (by decide)), if_neg (visible (by decide)), if_neg (visible (by decide)),
    if_neg (visible (by decide)), if_neg (UInt8.not_lt.mpr printable)]
  simp [marks, quote, backslash]

theorem escape_append (first second : List UInt8) :
    escape (first ++ second) = escape first ++ escape second := List.flatMap_append

theorem length_escape_cons (b : UInt8) (bytes : List UInt8) :
    (escape (b :: bytes)).length = (escapeByte b).length + (escape bytes).length := by
  rw [escape, List.flatMap_cons, List.length_append]
  rfl

theorem length_le_escape (bytes : List UInt8) : bytes.length ≤ (escape bytes).length := by
  induction bytes with
  | nil => rfl
  | cons b bytes ih =>
      have := length_escapeByte_pos b
      rw [length_escape_cons, List.length_cons]
      omega

theorem length_escape_le (bytes : List UInt8) : (escape bytes).length ≤ 6 * bytes.length := by
  induction bytes with
  | nil => rfl
  | cons b bytes ih =>
      have := length_escapeByte_le b
      rw [length_escape_cons, List.length_cons]
      omega

theorem marks_le_length (bytes : List UInt8) : marks bytes ≤ bytes.length :=
  List.countP_le_length

theorem marks_append (first second : List UInt8) :
    marks (first ++ second) = marks first + marks second := List.countP_append

theorem marks_cons {b : UInt8} (plain : marks [b] = 0) (bytes : List UInt8) :
    marks (b :: bytes) = marks bytes := by
  rw [← List.singleton_append, marks_append, plain, Nat.zero_add]

theorem marks_eq_zero {bytes : List UInt8} (plain : ∀ b ∈ bytes, b ≠ 34 ∧ b ≠ 92) :
    marks bytes = 0 := by
  refine List.countP_eq_zero.mpr fun b mem => ?_
  simp [(plain b mem).1, (plain b mem).2]

theorem length_escape_of_printable {bytes : List UInt8} (printable : Printable bytes) :
    (escape bytes).length = bytes.length + marks bytes := by
  induction bytes with
  | nil => rfl
  | cons b bytes ih =>
      obtain ⟨visible, printable⟩ := printable_cons.mp printable
      have split : marks (b :: bytes) = marks [b] + marks bytes := by
        rw [← List.singleton_append, marks_append]
      rw [length_escape_cons, ih printable, length_escapeByte_of_printable b visible, split,
        List.length_cons]
      omega

theorem length_quoted (bytes : List UInt8) : (quoted bytes).length = (escape bytes).length + 2 := by
  rw [quoted, List.length_cons, List.length_append]
  rfl

theorem length_quoted_le (bytes : List UInt8) : (quoted bytes).length ≤ 6 * bytes.length + 2 := by
  have := length_escape_le bytes
  rw [length_quoted]
  omega

theorem length_lt_quoted (bytes : List UInt8) : bytes.length + 2 ≤ (quoted bytes).length := by
  have := length_le_escape bytes
  rw [length_quoted]
  omega

theorem length_quoted_of_printable {bytes : List UInt8} (printable : Printable bytes) :
    (quoted bytes).length = bytes.length + marks bytes + 2 := by
  rw [length_quoted, length_escape_of_printable printable]

theorem length_intercalate {sep : List UInt8} (one : sep.length = 1) (texts : List (List UInt8)) :
    (sep.intercalate texts).length = (texts.map List.length).sum + (texts.length - 1) := by
  induction texts with
  | nil => rfl
  | cons text rest ih =>
      cases rest with
      | nil => simp
      | cons next rest =>
          rw [List.intercalate_cons_cons, List.length_append, List.length_append, ih, one]
          simp only [List.map_cons, List.sum_cons, List.length_cons]
          omega

theorem marks_intercalate {sep : List UInt8} (plain : marks sep = 0) (texts : List (List UInt8)) :
    marks (sep.intercalate texts) = (texts.map marks).sum := by
  induction texts with
  | nil => rfl
  | cons text rest ih =>
      cases rest with
      | nil => simp
      | cons next rest =>
          rw [List.intercalate_cons_cons, List.map_cons, List.sum_cons, ← ih, marks, marks,
            List.countP_append, List.countP_append, ← marks, ← marks, ← marks, plain]
          omega

theorem printable_intercalate {sep : List UInt8} (plain : Printable sep)
    {texts : List (List UInt8)} (printable : ∀ text ∈ texts, Printable text) :
    Printable (sep.intercalate texts) := by
  induction texts with
  | nil => exact .nil
  | cons text rest ih =>
      obtain ⟨first, others⟩ := List.forall_mem_cons.mp printable
      cases rest with
      | nil => rwa [List.intercalate_singleton]
      | cons next rest =>
          rw [List.intercalate_cons_cons]
          exact printable_append.mpr ⟨printable_append.mpr ⟨first, plain⟩, ih others⟩

end OxidHome.Library

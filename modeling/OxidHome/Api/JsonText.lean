import OxidHome.History.Payload
import OxidHome.Library.EscapedText

/-!
# JSON texts

The compact text that `serde_json` writes for a tree, as bytes. The texts of floats and the reader
are those of the package: `number` is what it writes for a finite `f64`, and `fromSlice` is what it
reads back into a `Value`.
-/

namespace OxidHome.Api.Mcp
open Wit Library History

structure SerdeText where
  number : F64 → List UInt8
  fromSlice : List UInt8 → Option Json
  printable : ∀ f, Printable (number f)
  short : ∀ f, (number f).length ≤ 24

def integer : Int → List Char
  | .ofNat n => Nat.toDigits 10 n
  | .negSucc n => '-' :: Nat.toDigits 10 (n + 1)

def quote (text : String) : List UInt8 := quoted (utf8 text)

variable (serde : SerdeText)

mutual

def render : Json → List UInt8
  | .null => utf8 "null"
  | .bool true => utf8 "true"
  | .bool false => utf8 "false"
  | .int i => utf8 (String.ofList (integer i))
  | .float f => serde.number f
  | .str s => quote s
  | .arr items => 91 :: ([44].intercalate (renderItems items) ++ [93])
  | .obj fields => 123 :: ([44].intercalate (renderFields fields) ++ [125])

def renderItems : List Json → List (List UInt8)
  | [] => []
  | item :: rest => render item :: renderItems rest

def renderFields : List (String × Json) → List (List UInt8)
  | [] => []
  | field :: rest => renderField field :: renderFields rest

def renderField : String × Json → List UInt8
  | (name, content) => quote name ++ 58 :: render content

end

@[simp] theorem render_str (s : String) : render serde (.str s) = quote s := by rw [render]

@[simp] theorem render_int (i : Int) :
    render serde (.int i) = utf8 (String.ofList (integer i)) := by rw [render]

theorem renderItems_eq (items : List Json) : renderItems serde items = items.map (render serde) := by
  induction items with
  | nil => rw [renderItems, List.map_nil]
  | cons item rest ih => rw [renderItems, ih, List.map_cons]

theorem renderFields_eq (fields : List (String × Json)) :
    renderFields serde fields = fields.map fun f => quote f.1 ++ 58 :: render serde f.2 := by
  induction fields with
  | nil => rw [renderFields, List.map_nil]
  | cons f rest ih => rw [renderFields, ih, List.map_cons, renderField]

theorem mem_toDigits {n : Nat} {c : Char} (mem : c ∈ Nat.toDigits 10 n) :
    48 ≤ c.toNat ∧ c.toNat ≤ 57 := by
  have digit := Nat.isDigit_of_mem_toDigits (by decide) (by decide) mem
  simp only [Char.isDigit, Bool.and_eq_true, decide_eq_true_eq, ge_iff_le, UInt32.le_iff_toNat_le]
    at digit
  exact digit

theorem mem_integer {i : Int} {c : Char} (mem : c ∈ integer i) : 45 ≤ c.toNat ∧ c.toNat ≤ 57 := by
  cases i with
  | ofNat n =>
      have := mem_toDigits mem
      omega
  | negSucc n =>
      rcases List.mem_cons.mp mem with rfl | mem
      · decide
      · have := mem_toDigits mem
        omega

theorem mem_utf8_integer {i : Int} {b : UInt8} (mem : b ∈ utf8 (String.ofList (integer i))) :
    45 ≤ b.toNat ∧ b.toNat ≤ 57 := by
  have ascii : Ascii (integer i) := fun _ mem => by
    have := mem_integer mem
    omega
  rw [utf8_ascii ascii] at mem
  obtain ⟨c, here, rfl⟩ := List.mem_map.mp mem
  have := mem_integer here
  rw [UInt8.toNat_ofNat']
  omega

theorem printable_integer (i : Int) : Printable (utf8 (String.ofList (integer i))) := by
  intro b mem
  have := mem_utf8_integer mem
  rw [UInt8.le_iff_toNat_le]
  exact (by decide : (32 : UInt8).toNat ≤ 45).trans this.1

theorem marks_integer (i : Int) : marks (utf8 (String.ofList (integer i))) = 0 := by
  refine marks_eq_zero fun b mem => ?_
  have range := mem_utf8_integer mem
  exact ⟨fun same => absurd range (by rw [same]; decide),
    fun same => absurd range (by rw [same]; decide)⟩

theorem length_utf8_integer (i : Int) :
    (utf8 (String.ofList (integer i))).length = (integer i).length := by
  have ascii : Ascii (integer i) := fun _ mem => by
    have := mem_integer mem
    omega
  rw [utf8_ascii ascii, List.length_map]

theorem length_integer_le {n : Nat} (small : n < 2 ^ 64) : (integer n).length ≤ 20 := by
  change (Nat.toDigits 10 n).length ≤ 20
  rw [Nat.length_toDigits_le_iff (by decide) (by decide)]
  omega

theorem printable_words :
    Printable (utf8 "null") ∧ Printable (utf8 "true") ∧ Printable (utf8 "false") := by
  have null : utf8 "null" = [110, 117, 108, 108] := rfl
  have yes : utf8 "true" = [116, 114, 117, 101] := rfl
  have no : utf8 "false" = [102, 97, 108, 115, 101] := rfl
  simp only [null, yes, no, printable_cons, Printable.nil, and_true]
  decide

mutual

theorem printable_render : (json : Json) → Printable (render serde json)
  | .null => by rw [render]; exact printable_words.1
  | .bool true => by rw [render]; exact printable_words.2.1
  | .bool false => by rw [render]; exact printable_words.2.2
  | .int i => by rw [render]; exact printable_integer i
  | .float f => by rw [render]; exact serde.printable f
  | .str s => by rw [render]; exact printable_quoted _
  | .arr items => by
      rw [render]
      exact printable_cons.mpr ⟨by decide, printable_append.mpr
        ⟨printable_intercalate (printable_singleton (by decide)) (printable_renderItems items),
          printable_singleton (by decide)⟩⟩
  | .obj fields => by
      rw [render]
      exact printable_cons.mpr ⟨by decide, printable_append.mpr
        ⟨printable_intercalate (printable_singleton (by decide)) (printable_renderFields fields),
          printable_singleton (by decide)⟩⟩

theorem printable_renderItems : (items : List Json) → ∀ text ∈ renderItems serde items,
    Printable text
  | [] => by rw [renderItems]; simp
  | item :: rest => by
      rw [renderItems]
      exact List.forall_mem_cons.mpr ⟨printable_render item, printable_renderItems rest⟩

theorem printable_renderFields : (fields : List (String × Json)) →
    ∀ text ∈ renderFields serde fields, Printable text
  | [] => by rw [renderFields]; simp
  | field :: rest => by
      rw [renderFields]
      exact List.forall_mem_cons.mpr ⟨printable_renderField field, printable_renderFields rest⟩

theorem printable_renderField : (field : String × Json) → Printable (renderField serde field)
  | (name, content) => by
      rw [renderField]
      exact printable_append.mpr ⟨printable_quoted _,
        printable_cons.mpr ⟨by decide, printable_render content⟩⟩

end

theorem length_render_arr (items : List Json) : (render serde (.arr items)).length =
    2 + (items.map fun item => (render serde item).length).sum + (items.length - 1) := by
  rw [render, List.length_cons, List.length_append, length_intercalate rfl, renderItems_eq,
    List.map_map, List.length_map]
  simp only [Function.comp_def, List.length_cons, List.length_nil]
  omega

def object (members : List (String × List UInt8)) : List UInt8 :=
  123 :: ([44].intercalate (members.map fun member => quote member.1 ++ 58 :: member.2) ++ [125])

theorem length_object (members : List (String × List UInt8)) : (object members).length =
    2 + (members.map fun member => (quote member.1).length + 1 + member.2.length).sum +
      (members.length - 1) := by
  rw [object, List.length_cons, List.length_append, length_intercalate rfl, List.map_map,
    List.length_map]
  have each (member : String × List UInt8) : (quote member.1 ++ 58 :: member.2).length =
      (quote member.1).length + 1 + member.2.length := by
    rw [List.length_append, List.length_cons]
    omega
  simp only [Function.comp_def, each, List.length_cons, List.length_nil]
  omega

theorem length_render_obj (fields : List (String × Json)) : (render serde (.obj fields)).length =
    2 + (fields.map fun f => (quote f.1).length + 1 + (render serde f.2).length).sum +
      (fields.length - 1) := by
  have members : render serde (.obj fields) =
      object (fields.map fun f => (f.1, render serde f.2)) := by
    rw [render, renderFields_eq, object, List.map_map]
    rfl
  rw [members, length_object, List.map_map, List.length_map]
  rfl

theorem marks_render_arr (items : List Json) : marks (render serde (.arr items)) =
    (items.map fun item => marks (render serde item)).sum := by
  rw [render, marks_cons rfl, marks_append, marks_intercalate rfl, renderItems_eq, List.map_map]
  rfl

theorem marks_render_obj (fields : List (String × Json)) : marks (render serde (.obj fields)) =
    (fields.map fun f => marks (quote f.1) + marks (render serde f.2)).sum := by
  rw [render, marks_cons rfl, marks_append, marks_intercalate rfl, renderFields_eq, List.map_map]
  simp only [Function.comp_def, marks_append, marks_cons (b := 58) rfl]
  rfl

end OxidHome.Api.Mcp

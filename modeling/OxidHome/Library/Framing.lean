import Mathlib

/-!
# Length-prefixed frames

A frame is a byte string behind the four big-endian bytes of its length modulo `2 ^ 32`. A
concatenation of short frames can be split in one way only, also when a text follows it.
-/

namespace OxidHome.Library

def be32 (n : Nat) : List UInt8 :=
  [UInt8.ofNat (n / 2 ^ 24), UInt8.ofNat (n / 2 ^ 16), UInt8.ofNat (n / 2 ^ 8), UInt8.ofNat n]

def frame (bytes : List UInt8) : List UInt8 := be32 bytes.length ++ bytes

def Short (bytes : List UInt8) : Prop := bytes.length < 2 ^ 32

@[simp] theorem length_be32 (n : Nat) : (be32 n).length = 4 := rfl

theorem be32_inj {m n : Nat} (hm : m < 2 ^ 32) (hn : n < 2 ^ 32) : be32 m = be32 n ↔ m = n := by
  constructor
  · intro same
    simp only [be32, List.cons.injEq, and_true, ← UInt8.toNat_inj, UInt8.toNat_ofNat'] at same
    omega
  · rintro rfl
    rfl

theorem frame_append_inj {a b s t : List UInt8} (ha : Short a) (hb : Short b) :
    frame a ++ s = frame b ++ t ↔ a = b ∧ s = t := by
  constructor
  · intro same
    simp only [frame, List.append_assoc] at same
    obtain ⟨lengths, rest⟩ := List.append_inj same rfl
    exact List.append_inj rest ((be32_inj ha hb).mp lengths)
  · rintro ⟨rfl, rfl⟩
    rfl

theorem flatMap_frame_inj {as bs : List (List UInt8)} (ha : ∀ a ∈ as, Short a)
    (hb : ∀ b ∈ bs, Short b) : as.flatMap frame = bs.flatMap frame ↔ as = bs := by
  induction as generalizing bs with
  | nil =>
      cases bs with
      | nil => simp
      | cons b bs => simp [frame, be32]
  | cons a as ih =>
      cases bs with
      | nil => simp [frame, be32]
      | cons b bs =>
          rw [List.forall_mem_cons] at ha hb
          rw [List.flatMap_cons, List.flatMap_cons, frame_append_inj ha.1 hb.1, ih ha.2 hb.2,
            List.cons.injEq]

def utf8 (text : String) : List UInt8 := text.toByteArray.data.toList

theorem length_utf8 (text : String) : (utf8 text).length = text.utf8ByteSize := by
  simp [utf8]

theorem utf8_append (first second : String) : utf8 (first ++ second) = utf8 first ++ utf8 second := by
  simp [utf8]

theorem utf8_injective : Function.Injective utf8 := by
  intro s t same
  apply String.toByteArray_inj.mp
  exact ByteArray.ext (Array.toList_inj.mp same)

def fields (entries : List (String × List UInt8)) : List (List UInt8) :=
  entries.flatMap fun entry => [utf8 entry.1, entry.2]

theorem fields_injective : Function.Injective fields := by
  intro as
  induction as with
  | nil =>
      intro bs same
      cases bs with
      | nil => rfl
      | cons b bs => simp [fields] at same
  | cons a as ih =>
      intro bs same
      cases bs with
      | nil => simp [fields] at same
      | cons b bs =>
          simp only [fields, List.flatMap_cons, List.cons_append, List.nil_append,
            List.cons.injEq] at same
          obtain ⟨labels, contents, rest⟩ := same
          rw [ih rest, Prod.ext (utf8_injective labels) contents]

end OxidHome.Library

import Mathlib

/-!
# Positional notation

Numbers written with the most significant digit first, and what is left of a number when a shift
and a truncation to a machine word cut it.
-/

namespace OxidHome.Library

/-- The number that `digits` write in base `b`, most significant first. -/
def bigEndian (b : Nat) (digits : List Nat) : Nat := Nat.ofDigits b digits.reverse

variable {b : Nat}

@[simp] theorem bigEndian_nil : bigEndian b [] = 0 := rfl

theorem bigEndian_append (digits more : List Nat) :
    bigEndian b (digits ++ more) = bigEndian b digits * b ^ more.length + bigEndian b more := by
  simp only [bigEndian, List.reverse_append, Nat.ofDigits_append, List.length_reverse]
  ring

theorem bigEndian_cons (d : Nat) (digits : List Nat) :
    bigEndian b (d :: digits) = d * b ^ digits.length + bigEndian b digits := by
  simp only [bigEndian, Nat.ofDigits_reverse_cons]
  ring

theorem bigEndian_concat (digits : List Nat) (d : Nat) :
    bigEndian b (digits ++ [d]) = bigEndian b digits * b + d := by
  rw [bigEndian_append, bigEndian_cons]
  simp

theorem bigEndian_inj (one_lt : 1 < b) {digits more : List Nat}
    (length : digits.length = more.length) (small : ∀ d ∈ digits, d < b) (small' : ∀ d ∈ more, d < b)
    (same : bigEndian b digits = bigEndian b more) : digits = more := by
  apply List.reverse_injective
  apply Nat.ofDigits_inj_of_len_eq one_lt
  · rw [List.length_reverse, List.length_reverse, length]
  · exact fun d mem => small d (List.mem_reverse.mp mem)
  · exact fun d mem => small' d (List.mem_reverse.mp mem)
  · exact same

theorem window_mod {word shift width : Nat} (fits : shift + width ≤ word) (n : Nat) :
    n % 2 ^ word / 2 ^ shift % 2 ^ width = n / 2 ^ shift % 2 ^ width := by
  obtain ⟨rest, rfl⟩ := Nat.exists_eq_add_of_le fits
  rw [Nat.add_assoc, Nat.pow_add, Nat.mod_mul_right_div_self, Nat.pow_add,
    Nat.mod_mul_right_mod]

end OxidHome.Library

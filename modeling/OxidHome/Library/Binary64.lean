import Mathlib

/-!
# Binary64 numbers

An IEEE 754 double as its bit pattern: finite values, the order, and the value nearest to an integer.
-/

namespace OxidHome.Library.Binary64

def infinity : Nat := 0x7FF0000000000000

def magnitude (bits : UInt64) : Nat := bits.toNat % 2 ^ 63

def isFinite (bits : UInt64) : Bool := magnitude bits < infinity

def isNan (bits : UInt64) : Bool := infinity < magnitude bits

/-- Orders the values other than NaN, with one zero. -/
def rank (bits : UInt64) : Int :=
  if 2 ^ 63 ≤ bits.toNat then -(magnitude bits) else magnitude bits

def lt (a b : UInt64) : Bool := !isNan a && !isNan b && rank a < rank b

def le (a b : UInt64) : Bool := !isNan a && !isNan b && rank a ≤ rank b

theorem not_isNan_of_isFinite {bits : UInt64} (finite : isFinite bits = true) :
    isNan bits = false := by
  simp only [isFinite, decide_eq_true_eq] at finite
  simp only [isNan, decide_eq_false_iff_not]
  omega

theorem lt_eq_false_iff {a b : UInt64} (numberA : isNan a = false) (numberB : isNan b = false) :
    lt a b = false ↔ le b a = true := by
  simp [lt, le, numberA, numberB]

/-- Rounded to nearest, ties to even. -/
def ofMagnitude (m : Nat) : Nat :=
  if m = 0 then 0
  else
    let e := m.log2
    if e ≤ 52 then (e + 1022) * 2 ^ 52 + m * 2 ^ (52 - e)
    else
      let unit := 2 ^ (e - 52)
      let q := m / unit
      let r := m % unit
      let up := if unit < 2 * r ∨ (2 * r = unit ∧ q % 2 = 1) then 1 else 0
      -- A carry out of the significand moves on into the exponent.
      (e + 1022) * 2 ^ 52 + q + up

def ofInt (n : Int) : UInt64 :=
  .ofNat (ofMagnitude n.natAbs + if n < 0 then 2 ^ 63 else 0)

example : ofInt 1 = 0x3FF0000000000000 ∧ ofInt (-2) = 0xC000000000000000 ∧
    ofInt (2 ^ 53 + 1) = 0x4340000000000000 ∧ ofInt (2 ^ 53 + 3) = 0x4340000000000002 ∧
    ofInt (2 ^ 63 - 1) = 0x43E0000000000000 := by
  decide +kernel

end OxidHome.Library.Binary64

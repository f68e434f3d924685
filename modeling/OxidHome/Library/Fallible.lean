import Mathlib

/-!
# Fallible results

When a composition of fallible steps succeeds.
-/

namespace OxidHome.Library
variable {ε ε' α β : Type}

theorem bind_eq_ok {x : Except ε α} {f : α → Except ε β} {b : β} :
    (x >>= f) = .ok b ↔ ∃ a, x = .ok a ∧ f a = .ok b := by
  cases x <;> simp [bind, Except.bind]

theorem mapError_eq_ok {x : Except ε α} {f : ε → ε'} {a : α} :
    x.mapError f = .ok a ↔ x = .ok a := by
  cases x <;> simp [Except.mapError]

theorem map_eq_ok {x : Except ε α} {f : α → β} {b : β} :
    x.map f = .ok b ↔ ∃ a, x = .ok a ∧ f a = b := by
  cases x <;> simp [Except.map]

theorem mapM_eq_ok {f : α → Except ε β} {xs : List α} {ys : List β} :
    xs.mapM f = .ok ys ↔ List.Forall₂ (fun a b => f a = .ok b) xs ys := by
  induction xs generalizing ys with
  | nil => simp [pure, Except.pure, eq_comm]
  | cons a xs ih =>
      rw [List.mapM_cons, bind_eq_ok]
      simp only [bind_eq_ok, ih, List.forall₂_cons_left_iff, pure, Except.pure, Except.ok.injEq]
      constructor
      · rintro ⟨b, first, rest, others, rfl⟩
        exact ⟨b, rest, first, others, rfl⟩
      · rintro ⟨b, rest, first, others, rfl⟩
        exact ⟨b, first, rest, others, rfl⟩

end OxidHome.Library

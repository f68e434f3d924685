import Mathlib

/-!
# Budgets that are given back

Some entries of a trace spend from a budget, some give all of it back.
-/

namespace OxidHome.Library
variable {α : Type*} (spends restores : α → Bool)

def spent (start : Nat) (trace : List α) : Nat :=
  trace.foldl (fun n a => if restores a then 0 else if spends a then n + 1 else n) start

def WithinBudget (limit start : Nat) (trace : List α) : Prop :=
  ∀ before after, trace = before ++ after → spent spends restores start before ≤ limit

variable {spends restores} {limit start : Nat}

theorem spent_append (before after : List α) :
    spent spends restores start (before ++ after) =
      spent spends restores (spent spends restores start before) after := by
  simp [spent]

theorem spent_quiet {trace : List α}
    (quiet : ∀ a ∈ trace, spends a = false ∧ restores a = false) :
    spent spends restores start trace = start := by
  induction trace generalizing start with
  | nil => rfl
  | cons a trace ih =>
      obtain ⟨free, kept⟩ := quiet a List.mem_cons_self
      simp only [spent, List.foldl_cons, free, kept, Bool.false_eq_true, if_false]
      exact ih fun b mem => quiet b (List.mem_cons_of_mem a mem)

theorem spent_segment {segment : List α} (kept : ∀ a ∈ segment, restores a = false) :
    spent spends restores start segment = start + segment.countP spends := by
  induction segment generalizing start with
  | nil => rfl
  | cons a segment ih =>
      have tail := fun n => @ih n fun b mem => kept b (List.mem_cons_of_mem a mem)
      simp only [spent, List.foldl_cons, kept a List.mem_cons_self, Bool.false_eq_true, if_false,
        List.countP_cons] at tail ⊢
      cases spends a with
      | true => rw [if_pos rfl, if_pos rfl, tail]; omega
      | false => rw [if_neg (by simp), if_neg (by simp), tail]; omega

theorem withinBudget_nil (start_le : start ≤ limit) :
    WithinBudget spends restores limit start ([] : List α) := by
  intro before after split
  obtain ⟨rfl, rfl⟩ := List.append_eq_nil_iff.mp split.symm
  exact start_le

theorem withinBudget_cons {a : α} {trace : List α} (start_le : start ≤ limit)
    (rest : WithinBudget spends restores limit
      (if restores a then 0 else if spends a then start + 1 else start) trace) :
    WithinBudget spends restores limit start (a :: trace) := by
  intro before after split
  cases before with
  | nil => exact start_le
  | cons b before =>
      obtain ⟨rfl, rfl⟩ := List.cons.inj split
      exact rest before after rfl

theorem withinBudget_append {first second : List α}
    (left : WithinBudget spends restores limit start first)
    (right : WithinBudget spends restores limit (spent spends restores start first) second) :
    WithinBudget spends restores limit start (first ++ second) := by
  intro before after split
  rcases List.append_eq_append_iff.mp split with ⟨more, rfl, rest⟩ | ⟨more, rest, rfl⟩
  · rw [spent_append]
    exact right more after rest
  · exact left before more rest

theorem withinBudget_quiet {trace : List α} (start_le : start ≤ limit)
    (quiet : ∀ a ∈ trace, spends a = false ∧ restores a = false) :
    WithinBudget spends restores limit start trace := by
  intro before after split
  rw [spent_quiet fun a mem => quiet a (split ▸ List.mem_append_left _ mem)]
  exact start_le

theorem WithinBudget.segment {before segment after : List α}
    (within : WithinBudget spends restores limit start (before ++ segment ++ after))
    (kept : ∀ a ∈ segment, restores a = false) : segment.countP spends ≤ limit := by
  have total := within (before ++ segment) after rfl
  rw [spent_append, spent_segment kept] at total
  omega

end OxidHome.Library

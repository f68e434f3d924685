import Mathlib

/-!
# Tables

A list whose rows are addressed by their position: a new row goes at the end, a row changes in
place and no row is removed. A process that numbers its tasks keeps such a table of them.
-/

namespace OxidHome.Library
variable {α : Type*} {table : List α} {a b c : α} {m n : Nat}

theorem row_concat :
    (table ++ [a])[n]? = some b ↔ table[n]? = some b ∨ n = table.length ∧ a = b := by
  rcases lt_trichotomy n table.length with old | rfl | beyond
  · have other : n ≠ table.length := by omega
    simp [List.getElem?_append_left old, other]
  · simp
  · have other : n ≠ table.length := by omega
    have before : table[n]? = none := List.getElem?_eq_none (by omega)
    have after : (table ++ [a])[n]? = none := by
      apply List.getElem?_eq_none
      rw [List.length_append, List.length_singleton]
      omega
    simp [before, after, other]

theorem row_set (found : table[n]? = some c) :
    (table.set n a)[m]? = some b ↔ n = m ∧ a = b ∨ n ≠ m ∧ table[m]? = some b := by
  have bound : n < table.length := (List.getElem?_eq_some_iff.mp found).1
  rw [List.getElem?_set]
  by_cases same : n = m
  · simp [same, same ▸ bound]
  · simp [same]

theorem row_lt (found : table[n]? = some a) : n < table.length :=
  (List.getElem?_eq_some_iff.mp found).1

theorem mem_set (found : table[n]? = some c) (mem : b ∈ table.set n a) : b = a ∨ b ∈ table := by
  obtain ⟨m, row⟩ := List.mem_iff_getElem?.mp mem
  rcases (row_set found).mp row with ⟨-, rfl⟩ | ⟨-, row⟩
  · exact .inl rfl
  · exact .inr (List.mem_of_getElem? row)

theorem countP_row_set (p : α → Bool) (found : table[n]? = some c) :
    (table.set n a).countP p + (if p c then 1 else 0) = table.countP p + if p a then 1 else 0 := by
  obtain ⟨bound, rfl⟩ := List.getElem?_eq_some_iff.mp found
  rw [List.countP_set bound]
  have positive : p table[n] = true → 0 < table.countP p :=
    fun hit => List.countP_pos_iff.mpr ⟨_, List.getElem_mem bound, hit⟩
  split <;> split <;> grind

theorem countP_lt_bound {p : α → Bool} {bound : Nat}
    (early : ∀ (m : Nat) b, table[m]? = some b → p b = true → m < bound)
    (found : table[n]? = some a) (below : n < bound) (unmarked : p a = false) :
    table.countP p < bound := by
  have rest : (table.drop bound).countP p = 0 := by
    rw [List.countP_eq_zero]
    intro b mem marked
    obtain ⟨i, row⟩ := List.mem_iff_getElem?.mp mem
    rw [List.getElem?_drop] at row
    exact absurd (early _ b row marked) (by omega)
  have first : (table.take bound).countP p ≠ (table.take bound).length := by
    rw [ne_eq, List.countP_eq_length]
    intro all
    have mem : a ∈ table.take bound := by
      apply List.mem_of_getElem? (i := n)
      rw [List.getElem?_take, if_pos below, found]
    rw [all a mem] at unmarked
    cases unmarked
  have split : table.countP p = (table.take bound).countP p + (table.drop bound).countP p := by
    rw [← List.countP_append, List.take_append_drop]
  have most := List.countP_le_length (p := p) (l := table.take bound)
  have short := List.length_take_le bound table
  omega

theorem map_set_same {β : Type*} (f : α → β) (row' : α) (found : table[n]? = some a)
    (same : f row' = f a) : (table.set n row').map f = table.map f := by
  obtain ⟨bound, at_n⟩ := List.getElem?_eq_some_iff.mp found
  rw [List.map_set, same]
  apply List.ext_getElem?
  intro m
  rw [List.getElem?_set]
  split
  · next here =>
      subst here
      simp [bound, at_n]
  · rfl

end OxidHome.Library

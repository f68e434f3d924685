import Mathlib

/-!
# Paging by a cursor that is not the sort key

A list is read page by page from the front, `n` elements at a time, and after each page only the
elements whose key is below the lowest key of the page are left. Nothing is read twice. Everything
is read exactly when no two elements on different pages have their keys out of order.
-/

namespace OxidHome.Library
variable {α : Type*} (key : α → Nat) (n : Nat)

def walk : Nat → List α → Option (List α)
  | 0, _ => none
  | fuel + 1, xs =>
      match ((xs.take n).map key).min? with
      | none => some []
      | some lowest => (walk fuel (xs.filter (key · < lowest))).map (xs.take n ++ ·)

/-- Any later element with a higher key is on the same page. -/
def PagesInOrder (xs : List α) : Prop :=
  ∀ i j (_ : i < j) (hj : j < xs.length), key xs[i] < key xs[j] → i / n = j / n

variable {key n}

theorem walk_nil (fuel : Nat) : walk key n (fuel + 1) [] = some [] := by simp [walk]

theorem walk_cons {xs : List α} {lowest : Nat} (fuel : Nat)
    (low : ((xs.take n).map key).min? = some lowest) :
    walk key n (fuel + 1) xs = (walk key n fuel (xs.filter (key · < lowest))).map (xs.take n ++ ·) := by
  simp only [walk, low]

theorem exists_lowest {xs : List α} (pos : 0 < n) (nonempty : xs ≠ []) :
    ∃ lowest, ((xs.take n).map key).min? = some lowest := by
  obtain ⟨x, rest, rfl⟩ := List.exists_cons_of_ne_nil nonempty
  obtain ⟨m, rfl⟩ := Nat.exists_eq_succ_of_ne_zero pos.ne'
  rw [List.take_succ_cons, List.map_cons, List.min?_cons]
  exact ⟨_, rfl⟩

section
variable {xs : List α} {lowest : Nat}

theorem lowest_le (low : ((xs.take n).map key).min? = some lowest) {a : α}
    (mem : a ∈ xs.take n) : lowest ≤ key a :=
  (List.min?_eq_some_iff.mp low).2 _ (List.mem_map_of_mem mem)

theorem lowest_mem (low : ((xs.take n).map key).min? = some lowest) :
    ∃ a ∈ xs.take n, key a = lowest :=
  List.mem_map.mp (List.min?_eq_some_iff.mp low).1

theorem filter_below (low : ((xs.take n).map key).min? = some lowest) :
    xs.filter (key · < lowest) = (xs.drop n).filter (key · < lowest) := by
  have none : (xs.take n).filter (key · < lowest) = [] := by
    apply List.filter_eq_nil_iff.mpr
    intro a mem
    simpa using lowest_le low mem
  conv_lhs => rw [← List.take_append_drop n xs, List.filter_append, none, List.nil_append]

theorem length_filter_below (low : ((xs.take n).map key).min? = some lowest) :
    (xs.filter (key · < lowest)).length < xs.length := by
  obtain ⟨a, mem, same⟩ := lowest_mem low
  apply List.length_filter_lt_length_iff_exists.mpr
  exact ⟨a, List.mem_of_mem_take mem, by simp [same]⟩

end

theorem walk_total (pos : 0 < n) {fuel : Nat} {xs : List α} (enough : xs.length < fuel) :
    ∃ all, walk key n fuel xs = some all ∧ all.Sublist xs := by
  induction fuel generalizing xs with
  | zero => omega
  | succ fuel ih =>
      by_cases empty : xs = []
      · subst empty
        exact ⟨[], walk_nil fuel, .slnil⟩
      · obtain ⟨lowest, low⟩ : ∃ lowest, ((xs.take n).map key).min? = some lowest :=
          exists_lowest pos empty
        have shorter := length_filter_below low
        have fewer : (xs.filter (key · < lowest)).length < fuel := by omega
        obtain ⟨all, rest, within⟩ := ih fewer
        refine ⟨xs.take n ++ all, by rw [walk_cons fuel low, rest, Option.map_some], ?_⟩
        rw [filter_below low] at within
        conv_rhs => rw [← List.take_append_drop n xs]
        exact (List.Sublist.refl _).append (within.trans List.filter_sublist)

theorem pagesInOrder_nil : PagesInOrder key n ([] : List α) := by
  intro i j _ hj
  simp at hj

theorem pagesInOrder_iff (pos : 0 < n) {xs : List α} :
    PagesInOrder key n xs ↔
      (∀ a ∈ xs.take n, ∀ b ∈ xs.drop n, key b ≤ key a) ∧ PagesInOrder key n (xs.drop n) := by
  constructor
  · intro order
    constructor
    · intro a ha b hb
      obtain ⟨i, hi, rfl⟩ := List.mem_iff_getElem.mp ha
      obtain ⟨j, hj, rfl⟩ := List.mem_iff_getElem.mp hb
      rw [List.length_take] at hi
      rw [List.length_drop] at hj
      rw [List.getElem_take, List.getElem_drop]
      by_contra above
      have same := order i (n + j) (by omega) (by omega) (by omega)
      rw [Nat.div_eq_of_lt (by omega), Nat.add_div_left j pos] at same
      exact Nat.succ_ne_zero _ same.symm
    · intro i j lt hj above
      rw [List.length_drop] at hj
      rw [List.getElem_drop, List.getElem_drop] at above
      have same := order (n + i) (n + j) (by omega) (by omega) above
      rw [Nat.add_div_left i pos, Nat.add_div_left j pos] at same
      exact Nat.succ.inj same
  · intro ⟨first, rest⟩ i j lt hj above
    by_cases inside : j < n
    · rw [Nat.div_eq_of_lt inside, Nat.div_eq_of_lt (lt.trans inside)]
    · obtain ⟨k, rfl⟩ := Nat.exists_eq_add_of_le (Nat.le_of_not_lt inside)
      by_cases before : i < n
      · have below := first xs[i] (List.mem_take_iff_getElem.mpr ⟨i, by omega, rfl⟩)
          xs[n + k] (List.mem_drop_iff_getElem.mpr ⟨k, by omega, rfl⟩)
        omega
      · obtain ⟨m, rfl⟩ := Nat.exists_eq_add_of_le (Nat.le_of_not_lt before)
        have same := rest m k (by omega) (by rw [List.length_drop]; omega)
          (by rw [List.getElem_drop, List.getElem_drop]; exact above)
        rw [Nat.add_div_left m pos, Nat.add_div_left k pos, same]

theorem walk_eq_iff (pos : 0 < n) {fuel : Nat} {xs : List α} (distinct : (xs.map key).Nodup)
    (enough : xs.length < fuel) :
    walk key n fuel xs = some xs ↔ PagesInOrder key n xs := by
  induction fuel generalizing xs with
  | zero => omega
  | succ fuel ih =>
      by_cases empty : xs = []
      · subst empty
        exact ⟨fun _ => pagesInOrder_nil, fun _ => walk_nil fuel⟩
      · obtain ⟨lowest, low⟩ : ∃ lowest, ((xs.take n).map key).min? = some lowest :=
          exists_lowest pos empty
        have shorter : (xs.drop n).length < fuel := by
          have := List.length_pos_iff.mpr empty
          rw [List.length_drop]
          omega
        have rest := ih (distinct.sublist ((List.drop_sublist n xs).map key)) shorter
        rw [walk_cons fuel low, filter_below low, pagesInOrder_iff pos, ← rest]
        constructor
        · intro complete
          obtain ⟨all, found, split⟩ := Option.map_eq_some_iff.mp complete
          have same : all = xs.drop n := by
            have whole : xs.take n ++ all = xs.take n ++ xs.drop n := by
              rw [split, List.take_append_drop]
            exact List.append_cancel_left whole
          subst same
          have fewer : ((xs.drop n).filter (key · < lowest)).length < fuel :=
            (List.length_filter_le _ _).trans_lt shorter
          obtain ⟨reached, again, within⟩ := walk_total pos fewer
          obtain rfl := Option.some.inj (found.symm.trans again)
          have kept : (xs.drop n).filter (key · < lowest) = xs.drop n :=
            List.filter_sublist.eq_of_length_le within.length_le
          refine ⟨fun a ha b hb => ?_, by rwa [kept] at found⟩
          have below : key b < lowest := by simpa using List.filter_eq_self.mp kept b hb
          exact below.le.trans (lowest_le low ha)
        · intro ⟨first, complete⟩
          have kept : (xs.drop n).filter (key · < lowest) = xs.drop n := by
            apply List.filter_eq_self.mpr
            intro b hb
            obtain ⟨a, ha, rfl⟩ := lowest_mem low
            have apart : key b ≠ key a := by
              intro same
              have := (List.nodup_append.mp
                (by rwa [← List.map_append, List.take_append_drop] :
                  ((xs.take n).map key ++ (xs.drop n).map key).Nodup)).2.2
              exact this _ (List.mem_map_of_mem ha) _ (List.mem_map_of_mem hb) same.symm
            simpa using lt_of_le_of_ne (first a ha b hb) apart
          rw [kept, complete, Option.map_some, List.take_append_drop]

theorem walk_perm_iff (pos : 0 < n) {fuel : Nat} {xs : List α} (distinct : (xs.map key).Nodup)
    (enough : xs.length < fuel) :
    (∃ all, walk key n fuel xs = some all ∧ all.Perm xs) ↔ PagesInOrder key n xs := by
  rw [← walk_eq_iff pos distinct enough]
  constructor
  · intro ⟨all, found, perm⟩
    obtain ⟨reached, again, within⟩ := walk_total pos enough
    obtain rfl := Option.some.inj (found.symm.trans again)
    rw [found, within.eq_of_length perm.length_eq]
  · intro found
    exact ⟨xs, found, .refl xs⟩

end OxidHome.Library

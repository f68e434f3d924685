import Mathlib

/-!
# Cutting a sorted list into groups

A list sorted by a key is cut after some whole groups of equal keys: `GroupPrefix key l groups rest`
says that `groups` are the first groups of `l` and `rest` is what comes after them.
-/

namespace OxidHome.Library
variable {α κ : Type*} [LinearOrder κ] {key : α → κ}

structure GroupPrefix (key : α → κ) (l : List α) (groups : List (List α)) (rest : List α) :
    Prop where
  split : l = groups.flatten ++ rest
  nonempty : ∀ g ∈ groups, g ≠ []
  same : ∀ g ∈ groups, ∀ a ∈ g, ∀ b ∈ g, key a = key b
  ordered : groups.Pairwise fun g h => ∀ a ∈ g, ∀ b ∈ h, key a < key b
  cut : ∀ a ∈ groups.flatten, ∀ b ∈ rest, key a < key b

theorem GroupPrefix.nil (l : List α) : GroupPrefix key l [] l where
  split := rfl
  nonempty := fun _ h => by cases h
  same := fun _ h => by cases h
  ordered := .nil
  cut := fun _ h => by cases h

theorem GroupPrefix.push {l rest pending : List α} {groups : List (List α)}
    (h : GroupPrefix key l groups (pending ++ rest)) (nonempty : pending ≠ [])
    (same : ∀ a ∈ pending, ∀ b ∈ pending, key a = key b)
    (cut : ∀ a ∈ pending, ∀ b ∈ rest, key a < key b) :
    GroupPrefix key l (groups ++ [pending]) rest where
  split := by simpa using h.split
  nonempty := fun g mem => by
    rcases List.mem_append.mp mem with mem | mem
    · exact h.nonempty g mem
    · rwa [List.mem_singleton.mp mem]
  same := fun g mem => by
    rcases List.mem_append.mp mem with mem | mem
    · exact h.same g mem
    · rwa [List.mem_singleton.mp mem]
  ordered := by
    rw [List.pairwise_append]
    refine ⟨h.ordered, List.pairwise_singleton _ _, fun g hg p hp a ha b hb => ?_⟩
    obtain rfl := List.mem_singleton.mp hp
    exact h.cut a (List.mem_flatten.mpr ⟨g, hg, ha⟩) b (List.mem_append_left _ hb)
  cut := fun a ha b hb => by
    simp only [List.flatten_append, List.flatten_singleton, List.mem_append] at ha
    rcases ha with ha | ha
    · exact h.cut a ha b (List.mem_append_right _ hb)
    · exact cut a ha b hb

theorem GroupPrefix.extend {l rest more : List α} {groups : List (List α)}
    (h : GroupPrefix key l groups rest) (cut : ∀ a ∈ groups.flatten, ∀ b ∈ more, key a < key b) :
    GroupPrefix key (l ++ more) groups (rest ++ more) where
  split := by rw [h.split, List.append_assoc]
  nonempty := h.nonempty
  same := h.same
  ordered := h.ordered
  cut := fun a ha b hb => (List.mem_append.mp hb).elim (h.cut a ha b) (cut a ha b)

theorem GroupPrefix.mem_group {l rest g : List α} {groups : List (List α)} {a b : α}
    (h : GroupPrefix key l groups rest) (hg : g ∈ groups) (ha : a ∈ g) :
    b ∈ g ↔ b ∈ l ∧ key b = key a := by
  constructor
  · intro hb
    refine ⟨?_, h.same g hg b hb a ha⟩
    rw [h.split]
    exact List.mem_append_left _ (List.mem_flatten.mpr ⟨g, hg, hb⟩)
  · rintro ⟨hb, eq⟩
    rw [h.split, List.mem_append] at hb
    rcases hb with hb | hb
    · obtain ⟨g', hg', hb⟩ := List.mem_flatten.mp hb
      by_contra out
      have other : g ≠ g' := fun e => out (e ▸ hb)
      have : Std.Symm fun g g' : List α => ∀ a ∈ g, ∀ b ∈ g', key a ≠ key b :=
        ⟨fun _ _ h a ha b hb => (h b hb a ha).symm⟩
      have apart : groups.Pairwise fun g g' => ∀ a ∈ g, ∀ b ∈ g', key a ≠ key b :=
        h.ordered.imp fun lt a ha b hb => (lt a ha b hb).ne
      exact apart.forall hg hg' other a ha b hb eq.symm
    · exact absurd eq.symm (h.cut a (List.mem_flatten.mpr ⟨g, hg, ha⟩) b hb).ne

theorem GroupPrefix.card_le {l rest : List α} {groups : List (List α)}
    (h : GroupPrefix key l groups rest) :
    (groups.flatten.map key).toFinset.card ≤ groups.length := by
  have same := h.same
  clear h
  induction groups with
  | nil => simp
  | cons g groups ih =>
      have one : (g.map key).toFinset.card ≤ 1 := by
        rw [Finset.card_le_one]
        simp only [List.mem_toFinset, List.mem_map, forall_exists_index, and_imp,
          forall_apply_eq_imp_iff₂]
        exact same g List.mem_cons_self
      have rest := ih fun g' hg' => same g' (List.mem_cons_of_mem _ hg')
      rw [List.flatten_cons, List.map_append, List.toFinset_append, List.length_cons]
      have := Finset.card_union_le (g.map key).toFinset (groups.flatten.map key).toFinset
      omega

end OxidHome.Library

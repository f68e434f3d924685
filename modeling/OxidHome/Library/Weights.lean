import OxidHome.Library.TreeMaps

/-!
# Comparing the weights of two maps

Binding by binding. A map that differs from another at one key, or at the keys of one kind, has a
weight that differs by what is stored there.
-/

namespace OxidHome.Library
open Std
variable {κ β γ : Type*} {cmp : κ → κ → Ordering}

theorem weight_split (f : κ → β → Nat) (p : κ → Prop) [DecidablePred p] (t : TreeMap κ β cmp) :
    weight f t = weight (fun k v => if p k then f k v else 0) t +
      weight (fun k v => if p k then 0 else f k v) t := by
  unfold weight
  rw [← List.sum_map_add]
  congr 1
  apply List.map_congr_left
  intro entry _
  dsimp only
  split_ifs
  · rw [Nat.add_zero]
  · rw [Nat.zero_add]

theorem sum_filter_map (t : TreeMap κ β cmp) (p : κ × β → Bool) (g : κ × β → Nat) :
    ((t.toList.filter p).map g).sum = weight (fun k v => if p (k, v) then g (k, v) else 0) t := by
  unfold weight
  induction t.toList with
  | nil => rfl
  | cons entry rest ih =>
      rw [List.filter_cons, List.map_cons, List.sum_cons, ← ih]
      dsimp only
      split_ifs
      · rw [List.map_cons, List.sum_cons]
      · rw [Nat.zero_add]

variable [TransCmp cmp] [LawfulEqCmp cmp]

theorem keys_nodup (t : TreeMap κ β cmp) : (t.toList.map Prod.fst).Nodup := by
  rw [List.nodup_map_iff_inj_on (toList_nodup t)]
  rintro ⟨k, v⟩ here ⟨k', v'⟩ there same
  obtain rfl : k = k' := same
  rw [mem_toList] at here there
  rw [here] at there
  cases there
  rfl

variable [DecidableEq κ]

theorem weight_eq_sum (f : κ → β → Nat) (t : TreeMap κ β cmp) (S : Finset κ)
    (all : ∀ k v, t[k]? = some v → k ∈ S) : weight f t = ∑ k ∈ S, t[k]?.elim 0 (f k) := by
  have listed : weight f t = ((t.toList.map Prod.fst).map fun k => t[k]?.elim 0 (f k)).sum := by
    unfold weight
    rw [List.map_map]
    congr 1
    apply List.map_congr_left
    rintro ⟨k, v⟩ mem
    rw [Function.comp_apply, mem_toList.mp mem]
    rfl
  rw [listed, ← List.sum_toFinset _ (keys_nodup t)]
  apply Finset.sum_subset
  · intro k mem
    obtain ⟨⟨k', v⟩, listed, rfl⟩ := List.mem_map.mp (List.mem_toFinset.mp mem)
    exact all k' v (mem_toList.mp listed)
  · intro k _ absent
    cases found : t[k]? with
    | none => rfl
    | some v =>
        apply absurd _ absent
        exact List.mem_toFinset.mpr (List.mem_map.mpr ⟨(k, v), mem_toList.mpr found, rfl⟩)

theorem weight_le_weight {f : κ → β → Nat} {g : κ → γ → Nat} {u : TreeMap κ β cmp}
    {t : TreeMap κ γ cmp} (le : ∀ k, u[k]?.elim 0 (f k) ≤ t[k]?.elim 0 (g k)) :
    weight f u ≤ weight g t := by
  let S := (u.toList.map Prod.fst).toFinset ∪ (t.toList.map Prod.fst).toFinset
  have left : weight f u = ∑ k ∈ S, u[k]?.elim 0 (f k) := by
    apply weight_eq_sum
    intro k v found
    apply Finset.mem_union_left
    exact List.mem_toFinset.mpr (List.mem_map.mpr ⟨(k, v), mem_toList.mpr found, rfl⟩)
  have right : weight g t = ∑ k ∈ S, t[k]?.elim 0 (g k) := by
    apply weight_eq_sum
    intro k v found
    apply Finset.mem_union_right
    exact List.mem_toFinset.mpr (List.mem_map.mpr ⟨(k, v), mem_toList.mpr found, rfl⟩)
  rw [left, right]
  exact Finset.sum_le_sum fun k _ => le k

theorem weight_eq_weight {f : κ → β → Nat} {g : κ → γ → Nat} {u : TreeMap κ β cmp}
    {t : TreeMap κ γ cmp} (same : ∀ k, u[k]?.elim 0 (f k) = t[k]?.elim 0 (g k)) :
    weight f u = weight g t :=
  Nat.le_antisymm (weight_le_weight fun k => (same k).le) (weight_le_weight fun k => (same k).ge)

theorem weight_replaced {f : κ → β → Nat} {t u : TreeMap κ β cmp} {key : κ} {n : Nat}
    (others : ∀ k, key ≠ k → u[k]?.elim 0 (f k) ≤ t[k]?.elim 0 (f k))
    (here : u[key]?.elim 0 (f key) ≤ n) :
    weight f u + t[key]?.elim 0 (f key) ≤ weight f t + n := by
  have rest : weight f (u.erase key) ≤ weight f (t.erase key) := by
    apply weight_le_weight
    intro k
    rw [getElem?_erase_eq, getElem?_erase_eq]
    split_ifs with same
    · exact le_rfl
    · exact others k same
  have before := weight_erase f t key
  have after := weight_erase f u key
  omega

theorem weight_le_sum {f : κ → β → Nat} {t : TreeMap κ β cmp} {paid : List (κ × Nat)}
    (covered : ∀ k v, t[k]? = some v → 0 < f k v → ∃ n, (k, n) ∈ paid ∧ f k v ≤ n) :
    weight f t ≤ (paid.map Prod.snd).sum := by
  induction paid generalizing t with
  | nil =>
      rw [List.map_nil, List.sum_nil, Nat.le_zero, weight, List.sum_eq_zero_iff]
      intro n mem
      obtain ⟨⟨k, v⟩, listed, rfl⟩ := List.mem_map.mp mem
      by_contra positive
      obtain ⟨_, paid, _⟩ := covered k v (mem_toList.mp listed) (Nat.pos_of_ne_zero positive)
      cases paid
  | cons first rest ih =>
      obtain ⟨key, n⟩ := first
      rw [List.map_cons, List.sum_cons]
      by_cases small : t[key]?.elim 0 (f key) ≤ n
      · have others : weight f (t.erase key) ≤ (rest.map Prod.snd).sum := by
          apply ih
          intro k v found positive
          rw [getElem?_erase_eq] at found
          split_ifs at found with same
          obtain ⟨m, mem, le⟩ := covered k v found positive
          rcases List.mem_cons.mp mem with head | tail
          · cases head
            exact absurd rfl same
          · exact ⟨m, tail, le⟩
        have split := weight_erase f t key
        omega
      · -- another entry of the list pays for the first key
        have all : weight f t ≤ (rest.map Prod.snd).sum := by
          apply ih
          intro k v found positive
          obtain ⟨m, mem, le⟩ := covered k v found positive
          rcases List.mem_cons.mp mem with head | tail
          · cases head
            rw [found] at small
            exact absurd le small
          · exact ⟨m, tail, le⟩
        omega

end OxidHome.Library

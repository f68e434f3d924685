import Mathlib

/-!
# Ordered maps: weights and folds

Support for programs that keep their state in an ordered map. `weight f t` adds a measure of
every binding; an insertion or a deletion changes it by the binding it touches. The comparison
functions of this development are lawful (`compare a b = .eq ↔ a = b`).
-/

namespace OxidHome.Library
open Std
variable {κ β : Type*} {cmp : κ → κ → Ordering}

instance compareLex_lawful {α γ : Type*} [Ord α] [Ord γ] [LawfulEqOrd α] [LawfulEqOrd γ] :
    LawfulEqCmp (compareLex (compareOn Prod.fst) (compareOn Prod.snd) :
      α × γ → α × γ → Ordering) where
  compare_self := by simp [compareLex, compareOn]
  eq_of_compare := by
    intro a b h
    obtain ⟨h₁, h₂⟩ := compareLex_eq_eq.mp h
    exact Prod.ext (LawfulEqCmp.eq_of_compare h₁) (LawfulEqCmp.eq_of_compare h₂)

section
variable [TransCmp cmp] [LawfulEqCmp cmp]

theorem getElem?_insert_self (t : TreeMap κ β cmp) (k : κ) (v : β) :
    (t.insert k v)[k]? = some v := by
  simp

theorem getElem?_insert_ne (t : TreeMap κ β cmp) {k a : κ} (v : β) (h : k ≠ a) :
    (t.insert k v)[a]? = t[a]? := by
  rw [TreeMap.getElem?_insert, if_neg]
  exact fun e => h (LawfulEqCmp.eq_of_compare e)

theorem getElem?_insert_eq [DecidableEq κ] (t : TreeMap κ β cmp) (k a : κ) (v : β) :
    (t.insert k v)[a]? = if k = a then some v else t[a]? := by
  by_cases h : k = a
  · simp [h]
  · rw [getElem?_insert_ne t v h, if_neg h]

theorem getElem?_erase_eq [DecidableEq κ] (t : TreeMap κ β cmp) (k a : κ) :
    (t.erase k)[a]? = if k = a then none else t[a]? := by
  by_cases h : k = a
  · simp [h]
  · rw [TreeMap.getElem?_erase, if_neg h, if_neg]
    exact fun e => h (LawfulEqCmp.eq_of_compare e)

theorem getElem?_foldl_erase [DecidableEq κ] (keys : List κ) (t : TreeMap κ β cmp) (a : κ) :
    (keys.foldl (·.erase ·) t)[a]? = if a ∈ keys then none else t[a]? := by
  induction keys generalizing t with
  | nil => simp
  | cons k keys ih =>
      rw [List.foldl_cons, ih, getElem?_erase_eq]
      by_cases same : k = a
      · simp [same]
      · simp [same, Ne.symm same]

theorem mem_toList {t : TreeMap κ β cmp} {k : κ} {v : β} : (k, v) ∈ t.toList ↔ t[k]? = some v :=
  TreeMap.mem_toList_iff_getElem?_eq_some

theorem toList_nodup (t : TreeMap κ β cmp) : t.toList.Nodup :=
  t.distinct_keys_toList.imp fun h e => h (by rw [e]; exact ReflCmp.compare_self)

end

def weight (f : κ → β → Nat) (t : TreeMap κ β cmp) : Nat :=
  (t.toList.map fun p => f p.1 p.2).sum

section
variable [TransCmp cmp] [LawfulEqCmp cmp]

theorem toList_perm_of_mem {u : TreeMap κ β cmp} {l : List (κ × β)}
    (nodup : l.Nodup) (h : ∀ k v, (k, v) ∈ l ↔ u[k]? = some v) : u.toList.Perm l :=
  (List.perm_ext_iff_of_nodup (toList_nodup u) nodup).mpr fun p => by
    rw [h p.1 p.2, mem_toList]

theorem toList_erase_perm [DecidableEq κ] (t : TreeMap κ β cmp) (k : κ) :
    (t.erase k).toList.Perm (t.toList.filter fun p => k ≠ p.1) := by
  refine toList_perm_of_mem ((toList_nodup t).filter _) fun a v => ?_
  rw [getElem?_erase_eq, List.mem_filter, mem_toList]
  by_cases h : k = a <;> simp [h]

theorem toList_present_perm [DecidableEq κ] {t : TreeMap κ β cmp} {k : κ} {v : β}
    (h : t[k]? = some v) : t.toList.Perm ((k, v) :: t.toList.filter fun p => k ≠ p.1) := by
  refine toList_perm_of_mem ?_ fun a w => ?_
  · refine List.nodup_cons.mpr ⟨?_, (toList_nodup t).filter _⟩
    simp [List.mem_filter]
  · simp only [List.mem_cons, Prod.mk.injEq, List.mem_filter, mem_toList, ne_eq,
      decide_not, Bool.not_eq_true', decide_eq_false_iff_not]
    constructor
    · rintro (⟨rfl, rfl⟩ | ⟨h', _⟩)
      · exact h
      · exact h'
    · intro h'
      by_cases e : k = a
      · subst e
        exact Or.inl ⟨rfl, Option.some.inj (h'.symm.trans h)⟩
      · exact Or.inr ⟨h', e⟩

theorem weight_erase [DecidableEq κ] (f : κ → β → Nat) (t : TreeMap κ β cmp) (k : κ) :
    weight f (t.erase k) + (t[k]?.elim 0 (f k)) = weight f t := by
  rw [weight, ((toList_erase_perm t k).map _).sum_eq]
  cases h : t[k]? with
  | none =>
      rw [weight, List.filter_eq_self.mpr]
      · simp
      · rintro ⟨a, v⟩ mem
        have : k ≠ a := by
          rintro rfl
          rw [mem_toList, h] at mem
          cases mem
        simpa using this
  | some v =>
      rw [weight, ((toList_present_perm h).map _).sum_eq]
      simp [Nat.add_comm]

theorem weight_insert [DecidableEq κ] (f : κ → β → Nat) (t : TreeMap κ β cmp) (k : κ) (v : β) :
    weight f (t.insert k v) + (t[k]?.elim 0 (f k)) = weight f t + f k v := by
  have erased := weight_erase f t k
  rw [weight, ((toList_erase_perm t k).map _).sum_eq] at erased
  rw [weight, ((TreeMap.toList_insert_perm (t := t) (k := k) (v := v)).map _).sum_eq]
  simp only [List.map_cons, List.sum_cons, beq_iff_eq]
  simp only [ne_eq] at erased
  omega

theorem le_weight [DecidableEq κ] (f : κ → β → Nat) {t : TreeMap κ β cmp} {k : κ} {v : β}
    (here : t[k]? = some v) : f k v ≤ weight f t := by
  have split := weight_erase f t k
  rw [here, Option.elim_some] at split
  omega

theorem weight_mono {f g : κ → β → Nat} {t : TreeMap κ β cmp}
    (h : ∀ k v, t[k]? = some v → f k v ≤ g k v) : weight f t ≤ weight g t :=
  List.sum_le_sum fun p mem => h p.1 p.2 (mem_toList.mp mem)

theorem weight_congr {f g : κ → β → Nat} {t : TreeMap κ β cmp}
    (h : ∀ k v, t[k]? = some v → f k v = g k v) : weight f t = weight g t := by
  unfold weight
  congr 1
  exact List.map_congr_left fun p mem => h p.1 p.2 (mem_toList.mp mem)

end
end OxidHome.Library

import Mathlib

/-!
# Keyed lists

A list whose elements carry a key, at most one element a key: the shape of a last-wins merge.
`replaceKey?` overwrites the element that has the key of `a`, `upsert` adds `a` at the end where
there is none.
-/

namespace OxidHome.Library
variable {α κ : Type*} [DecidableEq κ] (key : α → κ)

def replaceKey? : List α → α → Option (List α)
  | [], _ => none
  | b :: rest, a => if key b = key a then some (a :: rest) else (replaceKey? rest a).map (b :: ·)

def upsert (l : List α) (a : α) : List α := (replaceKey? key l a).getD (l ++ [a])

variable {key}

theorem upsert_nil (a : α) : upsert key [] a = [a] := rfl

theorem upsert_cons (b : α) (l : List α) (a : α) :
    upsert key (b :: l) a = if key b = key a then a :: l else b :: upsert key l a := by
  unfold upsert
  rw [replaceKey?]
  split
  · rfl
  · cases replaceKey? key l a <;> rfl

theorem replaceKey?_eq_none {l : List α} {a : α} :
    replaceKey? key l a = none ↔ ∀ b ∈ l, key b ≠ key a := by
  induction l with
  | nil => simp [replaceKey?]
  | cons b l ih => by_cases h : key b = key a <;> simp [replaceKey?, h, ih]

theorem replaceKey?_keys {l l' : List α} {a : α} (h : replaceKey? key l a = some l') :
    l'.map key = l.map key := by
  induction l generalizing l' with
  | nil => cases h
  | cons b l ih =>
      by_cases e : key b = key a
      · simp only [replaceKey?, e, if_true, Option.some.injEq] at h
        simp [← h, e]
      · simp only [replaceKey?, e, if_false, Option.map_eq_some_iff] at h
        obtain ⟨m, hm, rfl⟩ := h
        simp [ih hm]

theorem upsert_of_none {l : List α} {a : α} (h : replaceKey? key l a = none) :
    upsert key l a = l ++ [a] := by
  simp [upsert, h]

theorem upsert_of_some {l l' : List α} {a : α} (h : replaceKey? key l a = some l') :
    upsert key l a = l' := by
  simp [upsert, h]

theorem mem_upsert {l : List α} {a b : α} (h : b ∈ upsert key l a) : b = a ∨ b ∈ l := by
  induction l with
  | nil => exact Or.inl (List.mem_singleton.mp h)
  | cons c l ih =>
      rw [upsert_cons] at h
      split at h
      · rcases List.mem_cons.mp h with rfl | h
        · exact Or.inl rfl
        · exact Or.inr (List.mem_cons_of_mem _ h)
      · rcases List.mem_cons.mp h with rfl | h
        · exact Or.inr List.mem_cons_self
        · exact (ih h).imp_right (List.mem_cons_of_mem _)

theorem upsert_nodup {l : List α} (a : α) (h : (l.map key).Nodup) :
    ((upsert key l a).map key).Nodup := by
  cases found : replaceKey? key l a with
  | some l' => rwa [upsert_of_some found, replaceKey?_keys found]
  | none =>
      rw [upsert_of_none found, List.map_append, List.map_singleton]
      refine List.Nodup.append h (List.nodup_singleton _) ?_
      rw [List.disjoint_singleton, List.mem_map]
      rintro ⟨b, mem, e⟩
      exact replaceKey?_eq_none.mp found b mem e

theorem find?_upsert (l : List α) (a : α) (k : κ) :
    (upsert key l a).find? (key · = k) = if key a = k then some a else l.find? (key · = k) := by
  induction l with
  | nil => by_cases h : key a = k <;> simp [upsert_nil, h]
  | cons b l ih =>
      rw [upsert_cons]
      by_cases e : key b = key a
      · by_cases h : key a = k <;> simp [e, h]
      · rw [if_neg e]
        by_cases h : key a = k
        · have hb : key b ≠ k := h ▸ e
          simp [hb, ih, h]
        · by_cases hb : key b = k <;> simp [hb, ih, h]

theorem sum_upsert (w : α → Nat) (l : List α) (a : α) :
    ((upsert key l a).map w).sum + ((l.find? (key · = key a)).map w).getD 0 =
      (l.map w).sum + w a := by
  induction l with
  | nil => simp [upsert_nil]
  | cons b l ih =>
      rw [upsert_cons]
      by_cases e : key b = key a
      · simp [e]
        omega
      · simp only [e, if_false, List.map_cons, List.sum_cons, decide_false, List.find?_cons]
        omega

theorem length_upsert (l : List α) (a : α) :
    (upsert key l a).length =
      if (l.find? (key · = key a)).isSome then l.length else l.length + 1 := by
  induction l with
  | nil => simp [upsert_nil]
  | cons b l ih =>
      rw [upsert_cons]
      by_cases e : key b = key a
      · simp [e]
      · simp only [e, if_false, List.length_cons, ih, List.find?_cons, decide_false]
        split <;> rfl

variable (key) in
/-- The last-wins merge: every update in turn replaces the element of its key, or is added. -/
def merge (prev updates : List α) : List α := updates.foldl (upsert key) prev

@[simp] theorem merge_nil (prev : List α) : merge key prev [] = prev := rfl

@[simp] theorem merge_cons (prev : List α) (a : α) (updates : List α) :
    merge key prev (a :: updates) = merge key (upsert key prev a) updates := rfl

theorem merge_append (prev first second : List α) :
    merge key prev (first ++ second) = merge key (merge key prev first) second :=
  List.foldl_append

theorem merge_nodup {prev : List α} (updates : List α) (h : (prev.map key).Nodup) :
    ((merge key prev updates).map key).Nodup := by
  induction updates generalizing prev with
  | nil => exact h
  | cons a updates ih => exact ih (upsert_nodup a h)

theorem mem_merge {prev updates : List α} {b : α} (h : b ∈ merge key prev updates) :
    b ∈ updates ∨ b ∈ prev := by
  induction updates generalizing prev with
  | nil => exact Or.inr h
  | cons a updates ih =>
      rcases ih h with h | h
      · exact Or.inl (List.mem_cons_of_mem _ h)
      · rcases mem_upsert h with rfl | h
        · exact Or.inl List.mem_cons_self
        · exact Or.inr h

theorem merge_of_nodup {prev updates : List α} (h : ((prev ++ updates).map key).Nodup) :
    merge key prev updates = prev ++ updates := by
  induction updates generalizing prev with
  | nil => simp
  | cons a updates ih =>
      have fresh : replaceKey? key prev a = none := by
        rw [replaceKey?_eq_none]
        intro b mem e
        rw [List.map_append, List.map_cons] at h
        exact (List.nodup_append.mp h).2.2 _ (List.mem_map_of_mem mem) _ List.mem_cons_self e
      rw [merge_cons, upsert_of_none fresh, ih (by simpa using h)]
      simp

/-! ## The merge of one list with itself

Its keys stand in the order they first appear, each with the last element that carries it. -/

variable (key) in
def lastOf (l : List α) (k : κ) : Option α := (l.filter fun a => key a = k).getLast?

theorem lastOf_cons (a : α) (l : List α) (k : κ) :
    lastOf key (a :: l) k = (lastOf key l k).or (if key a = k then some a else none) := by
  unfold lastOf
  by_cases same : key a = k
  · rw [List.filter_cons_of_pos (by simpa using same), List.getLast?_cons, if_pos same]
    cases (l.filter fun a => key a = k).getLast? <;> rfl
  · rw [List.filter_cons_of_neg (by simpa using same), if_neg same, Option.or_none]

theorem lastOf_concat (l : List α) (a : α) (k : κ) :
    lastOf key (l ++ [a]) k = if key a = k then some a else lastOf key l k := by
  unfold lastOf
  by_cases same : key a = k <;> simp [List.filter_append, same]

theorem mem_of_lastOf {l : List α} {k : κ} {a : α} (h : lastOf key l k = some a) :
    a ∈ l ∧ key a = k := by
  have mem := List.mem_filter.mp (List.mem_of_getLast? h)
  exact ⟨mem.1, by simpa using mem.2⟩

theorem eraseDups_concat (ks : List κ) (k : κ) :
    (ks ++ [k]).eraseDups = if k ∈ ks then ks.eraseDups else ks.eraseDups ++ [k] := by
  have rest : [k].removeAll ks = if k ∈ ks then [] else [k] := by
    by_cases mem : k ∈ ks <;> simp [List.removeAll, mem]
  rw [List.eraseDups_append, rest]
  split
  · simp
  · simp [List.eraseDups_cons]

theorem merge_keys (l : List α) : (merge key [] l).map key = (l.map key).eraseDups := by
  induction l using List.reverseRecOn with
  | nil => rfl
  | append_singleton l a ih =>
      have mem_keys : key a ∈ l.map key ↔ ∃ b ∈ merge key [] l, key b = key a := by
        rw [← List.mem_eraseDups, ← ih, List.mem_map]
      rw [merge_append, merge_cons, merge_nil, List.map_append, List.map_singleton,
        eraseDups_concat]
      cases found : replaceKey? key (merge key [] l) a with
      | some l' =>
          have mem : ∃ b ∈ merge key [] l, key b = key a := by
            by_contra out
            rw [replaceKey?_eq_none.mpr fun b hb e => out ⟨b, hb, e⟩] at found
            cases found
          rw [if_pos (mem_keys.mpr mem), upsert_of_some found, replaceKey?_keys found, ih]
      | none =>
          have out : ¬ ∃ b ∈ merge key [] l, key b = key a := fun ⟨b, hb, e⟩ =>
            replaceKey?_eq_none.mp found b hb e
          rw [if_neg (mt mem_keys.mp out), upsert_of_none found, List.map_append, List.map_singleton,
            ih]

theorem find?_merge (l : List α) (k : κ) :
    (merge key [] l).find? (key · = k) = lastOf key l k := by
  induction l using List.reverseRecOn with
  | nil => rfl
  | append_singleton l a ih =>
      rw [merge_append, merge_cons, merge_nil, find?_upsert, ih, lastOf_concat]

theorem filter_of_nodup {l : List α} (h : (l.map key).Nodup) (k : κ) :
    l.filter (key · = k) = (l.find? (key · = k)).toList := by
  induction l with
  | nil => rfl
  | cons a l ih =>
      rw [List.map_cons, List.nodup_cons] at h
      by_cases here : key a = k
      · have rest : l.filter (key · = k) = [] := by
          rw [List.filter_eq_nil_iff]
          intro b mem
          have apart : key b ≠ k := fun same =>
            h.1 (List.mem_map.mpr ⟨b, mem, same.trans here.symm⟩)
          simpa using apart
        simp [here, rest]
      · simpa [here] using ih h.2

theorem map_of_nodup {β : Type*} {l : List α} (h : (l.map key).Nodup) (f : Option α → β) :
    (l.map fun a => f (some a)) = (l.map key).map fun k => f (l.find? (key · = k)) := by
  rw [List.map_map, List.map_inj_left]
  intro a mem
  obtain ⟨b, hb⟩ : ∃ b, l.find? (key · = key a) = some b := by
    rw [← Option.isSome_iff_exists, List.find?_isSome]
    exact ⟨a, mem, by simp⟩
  have same : key b = key a := by simpa using List.find?_some hb
  rw [Function.comp_apply, hb, List.inj_on_of_nodup_map h (List.mem_of_find?_eq_some hb) mem same]

end OxidHome.Library

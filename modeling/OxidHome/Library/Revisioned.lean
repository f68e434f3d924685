import Mathlib

/-!
# Polling a revisioned map

A map whose writes stamp each value with the next revision of one counter, and whose retired values
may be evicted. `Advance` says what any number of writes and evictions can do between two reads; a
client that polls by revision stays `Synced` through it. Eviction is safe because it raises
`evictedThrough` past every revision it loses, and a poll below that watermark asks for a reset.
-/

namespace OxidHome.Library
variable {κ α : Type*}

structure View (κ α : Type*) where
  entry : κ → Option α
  current : Nat
  evictedThrough : Nat

structure View.WellFormed (rev : α → Nat) (v : View κ α) : Prop where
  rev_pos : ∀ k a, v.entry k = some a → 0 < rev a
  rev_le : ∀ k a, v.entry k = some a → rev a ≤ v.current
  rev_inj : ∀ k l a b, v.entry k = some a → v.entry l = some b → rev a = rev b → k = l
  evicted_le : v.evictedThrough ≤ v.current

/-- What writes and evictions can do: a value is kept or replaced at a later revision, and a key is
lost only when its last value was retired and the watermark covers it. -/
structure Advance (rev : α → Nat) (retired : α → Prop) (v w : View κ α) : Prop where
  current_le : v.current ≤ w.current
  evicted_le : v.evictedThrough ≤ w.evictedThrough
  written : ∀ k a, w.entry k = some a → v.entry k = some a ∨ v.current < rev a
  dropped : ∀ k a, v.entry k = some a → w.entry k = none →
    (retired a ∧ rev a ≤ w.evictedThrough) ∨ v.current < w.evictedThrough

section
variable {rev : α → Nat} {retired : α → Prop}

theorem Advance.refl (v : View κ α) : Advance rev retired v v where
  current_le := le_rfl
  evicted_le := le_rfl
  written := fun _ _ h => Or.inl h
  dropped := fun _ _ h h' => by rw [h] at h'; cases h'

theorem Advance.trans {u v w : View κ α} (first : Advance rev retired u v)
    (second : Advance rev retired v w) : Advance rev retired u w where
  current_le := first.current_le.trans second.current_le
  evicted_le := first.evicted_le.trans second.evicted_le
  written := fun k a h => by
    rcases second.written k a h with kept | later
    · exact first.written k a kept
    · exact Or.inr (first.current_le.trans_lt later)
  dropped := fun k a h gone => by
    cases between : v.entry k with
    | none =>
        refine (first.dropped k a h between).imp ?_ ?_
        · exact fun ⟨ret, le⟩ => ⟨ret, le.trans second.evicted_le⟩
        · exact fun lt => lt.trans_le second.evicted_le
    | some b =>
        rcases second.dropped k b between gone with ⟨ret, le⟩ | lt
        · rcases first.written k b between with kept | later
          · obtain rfl : a = b := Option.some.inj (h.symm.trans kept)
            exact Or.inl ⟨ret, le⟩
          · exact Or.inr (later.trans_le le)
        · exact Or.inr (first.current_le.trans_lt lt)

theorem Advance.read_current {v w : View κ α} (advance : Advance rev retired v w) {anchor : Nat}
    (le : anchor ≤ v.current) {k : κ} {a : α} (h : w.entry k = some a) (old : rev a ≤ anchor) :
    v.entry k = some a := by
  rcases advance.written k a h with kept | later
  · exact kept
  · omega

/-- A page of the changes after `cursor`: what it omits is later than all it holds. -/
structure IsPage (rev : α → Nat) (v : View κ α) (cursor : Nat) (page : List (κ × α)) : Prop where
  sound : ∀ p ∈ page, v.entry p.1 = some p.2 ∧ cursor < rev p.2
  complete : ∀ k a, v.entry k = some a → cursor < rev a →
    (k, a) ∈ page ∨ (page ≠ [] ∧ ∀ p ∈ page, rev p.2 < rev a)

structure Client (κ α : Type*) where
  held : κ → Option α
  cursor : Nat

def Client.empty : Client κ α := ⟨fun _ => none, 0⟩

def overwrite [DecidableEq κ] (held : κ → Option α) (page : List (κ × α)) : κ → Option α :=
  page.foldl (fun held p => Function.update held p.1 (some p.2)) held

def Client.receive [DecidableEq κ] (rev : α → Nat) (client : Client κ α) (page : List (κ × α)) :
    Client κ α where
  held := overwrite client.held page
  cursor := if page = [] then client.cursor else (page.map fun p => rev p.2).foldr max 0

structure Synced (rev : α → Nat) (retired : α → Prop) (v : View κ α) (client : Client κ α) :
    Prop where
  cursor_le : client.cursor ≤ v.current
  current : ∀ k a, v.entry k = some a → rev a ≤ client.cursor → client.held k = some a
  absent : ∀ k a, client.held k = some a → v.entry k = none →
    retired a ∨ client.cursor < v.evictedThrough

theorem Synced.empty {v : View κ α} (wf : v.WellFormed rev) : Synced rev retired v Client.empty where
  cursor_le := Nat.zero_le _
  current := fun k a h le => absurd (wf.rev_pos k a h) (Nat.not_lt.mpr le)
  absent := fun _ _ h => by cases h

theorem Synced.advance {v w : View κ α} {client : Client κ α} (synced : Synced rev retired v client)
    (advance : Advance rev retired v w) : Synced rev retired w client where
  cursor_le := synced.cursor_le.trans advance.current_le
  current := fun k a h le =>
    synced.current k a (advance.read_current synced.cursor_le h le) le
  absent := fun k a held gone => by
    cases before : v.entry k with
    | none => exact (synced.absent k a held before).imp_right fun lt => lt.trans_le advance.evicted_le
    | some b =>
        rcases advance.dropped k b before gone with ⟨ret, le⟩ | lt
        · by_cases seen : rev b ≤ client.cursor
          · have same := synced.current k b before seen
            obtain rfl : a = b := Option.some.inj (held.symm.trans same)
            exact Or.inl ret
          · exact Or.inr ((Nat.lt_of_not_le seen).trans_le le)
        · exact Or.inr (synced.cursor_le.trans_lt lt)

theorem overwrite_of_not_mem [DecidableEq κ] {page : List (κ × α)} {held : κ → Option α} {k : κ}
    (h : ∀ p ∈ page, p.1 ≠ k) : overwrite held page k = held k := by
  induction page generalizing held with
  | nil => rfl
  | cons p page ih =>
      have rest := @ih (Function.update held p.1 (some p.2)) fun q mem =>
        h q (List.mem_cons_of_mem _ mem)
      rw [Function.update_of_ne (h p List.mem_cons_self).symm] at rest
      exact rest

theorem overwrite_of_mem [DecidableEq κ] {page : List (κ × α)} {held : κ → Option α} {k : κ}
    {a : α} (mem : (k, a) ∈ page) (unique : ∀ b, (k, b) ∈ page → b = a) :
    overwrite held page k = some a := by
  induction page generalizing held with
  | nil => cases mem
  | cons p page ih =>
      change overwrite (Function.update held p.1 (some p.2)) page k = some a
      by_cases later : (k, a) ∈ page
      · exact ih later fun b hb => unique b (List.mem_cons_of_mem _ hb)
      · have head : p = (k, a) := ((List.mem_cons.mp mem).resolve_right later).symm
        rw [overwrite_of_not_mem, head, Function.update_self]
        rintro ⟨l, b⟩ hb rfl
        rw [unique b (List.mem_cons_of_mem _ hb)] at hb
        exact later hb

theorem foldr_max_le {page : List (κ × α)} {bound : Nat} (h : ∀ p ∈ page, rev p.2 ≤ bound) :
    (page.map fun p => rev p.2).foldr max 0 ≤ bound := by
  induction page with
  | nil => exact Nat.zero_le _
  | cons q page ih =>
      rw [List.map_cons, List.foldr_cons]
      exact max_le (h q List.mem_cons_self) (ih fun p mem => h p (List.mem_cons_of_mem _ mem))

variable [DecidableEq κ]

theorem receive_held_of_mem {v : View κ α} {client : Client κ α} {page : List (κ × α)}
    (isPage : IsPage rev v client.cursor page) {k : κ} {a : α} (mem : (k, a) ∈ page) :
    (client.receive rev page).held k = some a :=
  overwrite_of_mem mem fun b hb => by
    have h := (isPage.sound _ hb).1
    rw [(isPage.sound _ mem).1] at h
    exact (Option.some.inj h).symm

theorem receive_held_of_not_mem {client : Client κ α} {page : List (κ × α)} {k : κ}
    (h : ∀ p ∈ page, p.1 ≠ k) : (client.receive rev page).held k = client.held k :=
  overwrite_of_not_mem h

theorem Synced.receive {v : View κ α} {client : Client κ α} {page : List (κ × α)}
    (wf : v.WellFormed rev) (synced : Synced rev retired v client)
    (isPage : IsPage rev v client.cursor page) (noReset : v.evictedThrough ≤ client.cursor) :
    Synced rev retired v (client.receive rev page) where
  cursor_le := by
    simp only [Client.receive]
    split
    · exact synced.cursor_le
    · exact foldr_max_le fun p mem => wf.rev_le _ _ (isPage.sound p mem).1
  current := fun k a h le => by
    by_cases seen : rev a ≤ client.cursor
    · rw [receive_held_of_not_mem, synced.current k a h seen]
      rintro ⟨l, b⟩ mem rfl
      obtain ⟨hb, newer⟩ := isPage.sound _ mem
      obtain rfl : a = b := Option.some.inj (h.symm.trans hb)
      exact absurd seen (Nat.not_le.mpr newer)
    · rcases isPage.complete k a h (Nat.lt_of_not_le seen) with mem | ⟨nonempty, later⟩
      · exact receive_held_of_mem isPage mem
      · -- the new cursor is the largest revision of the page, below `rev a`
        simp only [Client.receive, nonempty, if_false] at le
        obtain ⟨p, mem⟩ := List.exists_mem_of_ne_nil page nonempty
        have bound : (page.map fun p => rev p.2).foldr max 0 ≤ rev a - 1 :=
          foldr_max_le fun q hq => Nat.le_sub_one_of_lt (later q hq)
        have := later p mem
        omega
  absent := fun k a held gone => by
    have notIn : ∀ p ∈ page, p.1 ≠ k := by
      rintro p mem rfl
      rw [(isPage.sound p mem).1] at gone
      cases gone
    rw [receive_held_of_not_mem notIn] at held
    rcases synced.absent k a held gone with ret | lt
    · exact Or.inl ret
    · omega

omit [DecidableEq κ] in
theorem Synced.of_empty_page {v : View κ α} {client : Client κ α}
    (synced : Synced rev retired v client)
    (isPage : IsPage rev v client.cursor []) (noReset : v.evictedThrough ≤ client.cursor) :
    (∀ k a, v.entry k = some a → client.held k = some a) ∧
      ∀ k a, client.held k = some a → v.entry k = none → retired a := by
  constructor
  · intro k a h
    apply synced.current k a h
    by_contra newer
    rcases isPage.complete k a h (Nat.lt_of_not_le newer) with mem | ⟨nonempty, _⟩
    · cases mem
    · exact nonempty rfl
  · intro k a held gone
    rcases synced.absent k a held gone with ret | lt
    · exact ret
    · omega

end
end OxidHome.Library

import Mathlib

/-!
# Paging by the sort key

A reader takes pages of a set of keys, largest first, and asks each time for what is below the last
key it has seen. Between two pages the set may gain keys anywhere, but loses none. The reader sees
every key of the set it began with, and its keys only go down.
-/

namespace OxidHome.Library
variable {κ : Type*} [LinearOrder κ]

structure TopOf (s : Set κ) (page : List κ) : Prop where
  descending : page.Pairwise (· > ·)
  inside : ∀ k ∈ page, k ∈ s
  above : ∀ k ∈ s, k ∉ page → ∀ seen ∈ page, k < seen

/-- Each page is followed by a page of what is then below its last key, until a page is empty. -/
inductive KeysetWalk : Set κ → List κ → Prop
  | done {s : Set κ} (empty : ∀ k, k ∉ s) : KeysetWalk s []
  | next {s later : Set κ} {page rest : List κ} {last : κ} (top : TopOf s page)
      (ends : page.getLast? = some last) (kept : ∀ k ∈ s, k < last → k ∈ later)
      (below : ∀ k ∈ later, k < last) (walk : KeysetWalk later rest) : KeysetWalk s (page ++ rest)

variable {s : Set κ} {page all : List κ} {last : κ}

theorem TopOf.last_le (top : TopOf s page) (ends : page.getLast? = some last) {k : κ}
    (mem : k ∈ page) : last ≤ k := by
  obtain ⟨front, rfl⟩ := List.getLast?_eq_some_iff.mp ends
  rcases List.mem_append.mp mem with mem | mem
  · exact ((List.pairwise_append.mp top.descending).2.2 k mem last (by simp)).le
  · exact (List.mem_singleton.mp mem).ge

theorem TopOf.last_mem (top : TopOf s page) (ends : page.getLast? = some last) : last ∈ s :=
  top.inside last (List.mem_of_getLast? ends)

namespace KeysetWalk

theorem lt_bound (walk : KeysetWalk s all) {bound : κ} (low : ∀ k ∈ s, k < bound) :
    ∀ k ∈ all, k < bound := by
  induction walk with
  | done empty => simp
  | next top ends kept below walk ih =>
      intro k mem
      rcases List.mem_append.mp mem with mem | mem
      · exact low k (top.inside k mem)
      · exact ih (fun k mem => (below k mem).trans (low _ (top.last_mem ends))) k mem

theorem descending (walk : KeysetWalk s all) : all.Pairwise (· > ·) := by
  induction walk with
  | done empty => exact .nil
  | next top ends kept below walk ih =>
      refine List.pairwise_append.mpr ⟨top.descending, ih, ?_⟩
      intro seen first k later
      exact (walk.lt_bound below k later).trans_le (top.last_le ends first)

theorem complete (walk : KeysetWalk s all) : ∀ k ∈ s, k ∈ all := by
  induction walk with
  | done empty =>
      intro k mem
      exact absurd mem (empty k)
  | @next _ _ page _ last top ends kept below walk ih =>
      intro k mem
      by_cases here : k ∈ page
      · exact List.mem_append_left _ here
      · have lower : k < last := top.above k mem here last (List.mem_of_getLast? ends)
        exact List.mem_append_right _ (ih k (kept k mem lower))

end KeysetWalk

theorem topOf_prefix {sorted : List κ} (order : sorted.Pairwise (· > ·)) (within : page <+: sorted) :
    TopOf { k | k ∈ sorted } page := by
  obtain ⟨rest, rfl⟩ := within
  obtain ⟨first, -, apart⟩ := List.pairwise_append.mp order
  refine ⟨first, fun k mem => List.mem_append_left _ mem, ?_⟩
  intro k mem unseen seen shown
  rcases List.mem_append.mp mem with mem | mem
  · exact absurd mem unseen
  · exact apart seen shown k mem

end OxidHome.Library

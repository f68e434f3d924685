import Mathlib

/-!
# Wait-for graphs

Every node waits for at most one other. A cycle can only come with a new edge, and then exactly when
the target already waits, directly or not, for the source.
-/

namespace OxidHome.Library
open Relation
variable {α : Type*}

def Waits (next : α → Option α) (a b : α) : Prop := next a = some b

def WaitCycle (next : α → Option α) : Prop := ∃ a, TransGen (Waits next) a a

theorem WaitCycle.mono {next next' : α → Option α}
    (fewer : ∀ a b, next' a = some b → next a = some b) (cycle : WaitCycle next') :
    WaitCycle next := by
  obtain ⟨a, around⟩ := cycle
  exact ⟨a, TransGen.mono fewer _ _ around⟩

theorem reaches_split {r p q : α → α → Prop} (split : ∀ a b, r a b → p a b ∨ q a b) {a b : α}
    (path : ReflTransGen r a b) :
    ReflTransGen p a b ∨ ∃ x y, ReflTransGen r a x ∧ q x y ∧ ReflTransGen r y b := by
  induction path with
  | refl => exact Or.inl .refl
  | @tail b c before edge ih =>
      rcases ih with path | ⟨x, y, first, special, rest⟩
      · rcases split b c edge with plain | special
        · exact Or.inl (path.tail plain)
        · exact Or.inr ⟨b, c, before, special, .refl⟩
      · exact Or.inr ⟨x, y, first, special, rest.tail edge⟩

section
variable {next next' : α → Option α} {source target : α}

theorem reaches_source (others : ∀ a, a ≠ source → next' a = next a) {a : α}
    (path : ReflTransGen (Waits next') target a) :
    ReflTransGen (Waits next) target a ∨ ReflTransGen (Waits next) target source := by
  induction path with
  | refl => exact Or.inl .refl
  | @tail b c _ edge ih =>
      rcases ih with path | path
      · by_cases here : b = source
        · exact Or.inr (here ▸ path)
        · apply Or.inl (path.tail _)
          exact (others b here).symm.trans edge
      · exact Or.inr path

theorem uses_edge (others : ∀ a, a ≠ source → next' a = next a)
    (added : next' source = some target) {a b : α} (path : TransGen (Waits next') a b) :
    TransGen (Waits next) a b ∨
      ReflTransGen (Waits next') a source ∧ ReflTransGen (Waits next') target b := by
  induction path with
  | @single c edge =>
      by_cases here : a = source
      · subst here
        obtain rfl := Option.some.inj (edge.symm.trans added)
        exact Or.inr ⟨.refl, .refl⟩
      · exact Or.inl (.single ((others a here).symm.trans edge))
  | @tail c d before edge ih =>
      by_cases here : c = source
      · subst here
        obtain rfl := Option.some.inj (edge.symm.trans added)
        exact Or.inr ⟨before.to_reflTransGen, .refl⟩
      · rcases ih with path | ⟨first, rest⟩
        · exact Or.inl (path.tail ((others c here).symm.trans edge))
        · exact Or.inr ⟨first, rest.tail edge⟩

theorem waitCycle_add (free : next source = none) (others : ∀ a, a ≠ source → next' a = next a)
    (added : next' source = some target) :
    WaitCycle next' ↔ WaitCycle next ∨ ReflTransGen (Waits next) target source := by
  have kept : ∀ a b, Waits next a b → Waits next' a b := by
    intro a b edge
    have distinct : a ≠ source := by
      intro here
      rw [Waits, here, free] at edge
      cases edge
    exact (others a distinct).trans edge
  constructor
  · intro ⟨a, around⟩
    rcases uses_edge others added around with path | ⟨first, rest⟩
    · exact Or.inl ⟨a, path⟩
    · right
      exact (reaches_source others (rest.trans first)).elim (fun path => path) fun path => path
  · intro closed
    rcases closed with cycle | path
    · exact cycle.mono kept
    · exact ⟨source, .head' added (ReflTransGen.mono kept _ _ path)⟩

end
end OxidHome.Library

import Mathlib

/-!
# Traces

A trace is the list of what has happened so far. `Justified P` says that every event of it was
right when it happened, given the events before.
-/

namespace OxidHome.Library
variable {ε : Type*} {P : List ε → ε → Prop}

def Justified (P : List ε → ε → Prop) (trace : List ε) : Prop :=
  ∀ before e after, trace = before ++ e :: after → P before e

theorem justified_nil : Justified P [] := by
  intro before e after same
  cases List.append_ne_nil_of_right_ne_nil before (List.cons_ne_nil e after) same.symm

theorem justified_concat {trace : List ε} {e : ε} :
    Justified P (trace ++ [e]) ↔ Justified P trace ∧ P trace e := by
  constructor
  · intro all
    constructor
    · intro before e' after same
      apply all before e' (after ++ [e])
      rw [same, List.append_assoc, List.cons_append]
    · exact all trace e [] rfl
  · intro ⟨all, last⟩ before e' after same
    induction after using List.reverseRecOn with
    | nil =>
        obtain ⟨rfl, rfl⟩ : trace = before ∧ e = e' := by
          have := List.append_inj' same rfl
          exact ⟨this.1, List.singleton_inj.mp this.2⟩
        exact last
    | append_singleton after e'' =>
        rw [← List.cons_append, ← List.append_assoc] at same
        have := List.append_inj' same rfl
        exact all before e' after this.1

theorem Justified.append {trace events : List ε} (all : Justified P trace)
    (next : events = [] ∨ ∃ e, events = [e] ∧ P trace e) : Justified P (trace ++ events) := by
  rcases next with rfl | ⟨e, rfl, right⟩
  · rwa [List.append_nil]
  · exact justified_concat.mpr ⟨all, right⟩

theorem Justified.of_mem {trace : List ε} {e : ε} (all : Justified P trace) (mem : e ∈ trace) :
    ∃ before after, trace = before ++ e :: after ∧ P before e := by
  obtain ⟨before, after, same⟩ := List.append_of_mem mem
  exact ⟨before, after, same, all before e after same⟩

end OxidHome.Library

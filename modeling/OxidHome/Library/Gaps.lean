import Mathlib

/-!
# Gap reports

A sender whose entries can be lost reports with each entry that gets through how many were lost
since the one before. `report` is `none` for a lost entry.
-/

namespace OxidHome.Library
variable {α : Type*} (report : α → Option Nat)

def lostSince (entries : List α) : Nat :=
  (entries.reverse.takeWhile fun a => (report a).isNone).length

def lost (entries : List α) : Nat := entries.countP fun a => (report a).isNone

def ExactReports (entries : List α) : Prop :=
  ∀ before a after n, entries = before ++ a :: after → report a = some n → n = lostSince report before

variable {report}

@[simp] theorem lostSince_nil : lostSince report [] = 0 := rfl

theorem lostSince_concat_lost {entries : List α} {a : α} (h : report a = none) :
    lostSince report (entries ++ [a]) = lostSince report entries + 1 := by
  simp [lostSince, h]

theorem lostSince_concat_through {entries : List α} {a : α} {n : Nat} (h : report a = some n) :
    lostSince report (entries ++ [a]) = 0 := by
  simp [lostSince, h]

theorem exactReports_nil : ExactReports report [] := by
  intro before a after n split
  simp at split

theorem exactReports_concat {entries : List α} {a : α} :
    ExactReports report (entries ++ [a]) ↔
      ExactReports report entries ∧ ∀ n, report a = some n → n = lostSince report entries := by
  constructor
  · intro exact
    refine ⟨fun before b after n split => ?_, fun n => ?_⟩
    · apply exact before b (after ++ [a]) n
      simp [split]
    · apply exact entries a [] n
      rfl
  · intro ⟨exact, last⟩ before b after n split reported
    cases after using List.reverseRecOn with
    | nil =>
        obtain ⟨rfl, rfl⟩ := List.append_inj' split rfl |>.imp_right (List.head_eq_of_cons_eq ·)
        exact last n reported
    | append_singleton after c =>
        rw [← List.cons_append, ← List.append_assoc] at split
        have initial := (List.append_inj' split rfl).1
        exact exact before b after n initial reported

theorem ExactReports.balance {entries : List α} (exact : ExactReports report entries) :
    (entries.filterMap report).sum + lostSince report entries = lost report entries := by
  induction entries using List.reverseRecOn with
  | nil => rfl
  | append_singleton entries a ih =>
      obtain ⟨earlier, last⟩ := exactReports_concat.mp exact
      have balance := ih earlier
      cases reported : report a with
      | none =>
          rw [lostSince_concat_lost reported]
          simp [lost, reported] at balance ⊢
          omega
      | some n =>
          rw [lostSince_concat_through reported]
          have := last n reported
          simp [lost, reported] at balance ⊢
          omega

end OxidHome.Library

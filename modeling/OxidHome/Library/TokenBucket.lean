import OxidHome.Library.Machine

/-!
# Token buckets

A bucket earns `rate` tokens for each unit of time up to its capacity, and a request takes one. As
long as its clock does not run backwards, the bucket admits no more in a window than its capacity
and what it earns there: what it can still admit is an allowance that every admission uses up.
-/

namespace OxidHome.Library

structure Bucket (K : Type*) where
  tokens : K
  lastObserved : K
deriving DecidableEq

section
variable {K : Type*} [Field K] [LinearOrder K] [IsStrictOrderedRing K]

namespace Bucket
variable (capacity rate : K) (b : Bucket K)

def refilled (now : K) : K := min (b.tokens + max 0 (now - b.lastObserved) * rate) capacity

def Admits (now : K) : Prop := 1 ≤ b.refilled capacity rate now

instance (now : K) : Decidable (b.Admits capacity rate now) :=
  inferInstanceAs (Decidable (1 ≤ b.refilled capacity rate now))

def take (now : K) : Bucket K where
  tokens := b.refilled capacity rate now - if b.Admits capacity rate now then 1 else 0
  lastObserved := now

/-- The most that requests at `opens` to `closes` can still be admitted. -/
def allowance (opens closes : K) : K :=
  if b.lastObserved < opens then capacity + rate * (closes - opens)
  else if b.lastObserved ≤ closes then b.tokens + rate * (closes - b.lastObserved)
  else 0

structure Holds : Prop where
  nonneg : 0 ≤ b.tokens
  le_capacity : b.tokens ≤ capacity

variable {capacity rate b} {now opens closes : K}

omit [IsStrictOrderedRing K] in
theorem refilled_le : b.refilled capacity rate now ≤ capacity := min_le_right _ _

theorem refilled_nonneg (holds : b.Holds capacity) (earns : 0 ≤ rate) :
    0 ≤ b.refilled capacity rate now := by
  refine le_min ?_ (holds.nonneg.trans holds.le_capacity)
  have earned : 0 ≤ max 0 (now - b.lastObserved) * rate :=
    mul_nonneg (le_max_left _ _) earns
  linarith [holds.nonneg]

theorem take_holds (holds : b.Holds capacity) (earns : 0 ≤ rate) :
    (b.take capacity rate now).Holds capacity := by
  have low : 0 ≤ b.refilled capacity rate now := refilled_nonneg holds earns
  have high : b.refilled capacity rate now ≤ capacity := refilled_le
  by_cases admits : b.Admits capacity rate now
  · have whole : 1 ≤ b.refilled capacity rate now := admits
    constructor <;> simp only [take, admits, if_true] <;> linarith
  · constructor <;> simp only [take, admits, if_false] <;> linarith

omit [IsStrictOrderedRing K] in
theorem full_holds (pos : 0 ≤ capacity) : (Bucket.mk capacity now).Holds capacity :=
  ⟨pos, le_rfl⟩

theorem allowance_nonneg (holds : b.Holds capacity) (earns : 0 ≤ rate) (window : opens ≤ closes) :
    0 ≤ b.allowance capacity rate opens closes := by
  have pos := holds.nonneg.trans holds.le_capacity
  have tokens := holds.nonneg
  unfold allowance
  split
  · have := mul_nonneg earns (sub_nonneg.mpr window)
    linarith
  · split
    case isTrue within =>
      have := mul_nonneg earns (sub_nonneg.mpr within)
      linarith
    case isFalse => exact le_rfl

theorem allowance_le (holds : b.Holds capacity) (earns : 0 ≤ rate) (window : opens ≤ closes) :
    b.allowance capacity rate opens closes ≤ capacity + rate * (closes - opens) := by
  have pos := holds.nonneg.trans holds.le_capacity
  unfold allowance
  split
  · exact le_rfl
  case isFalse inside =>
    split
    · have earned : rate * (closes - b.lastObserved) ≤ rate * (closes - opens) :=
        mul_le_mul_of_nonneg_left (by linarith) earns
      linarith [holds.le_capacity]
    · have := mul_nonneg earns (sub_nonneg.mpr window)
      linarith

theorem take_allowance (holds : b.Holds capacity) (earns : 0 ≤ rate) (window : opens ≤ closes)
    (order : b.lastObserved ≤ now) :
    (if b.Admits capacity rate now ∧ opens ≤ now ∧ now ≤ closes then 1 else 0) +
      (b.take capacity rate now).allowance capacity rate opens closes ≤
        b.allowance capacity rate opens closes := by
  rcases lt_or_ge now opens with early | opened
  · have before : b.lastObserved < opens := order.trans_lt early
    simp [allowance, take, before, early, early.not_ge]
  rcases lt_or_ge closes now with late | open_
  · have nothing : (b.take capacity rate now).allowance capacity rate opens closes = 0 := by
      simp only [allowance, take, opened.not_gt, late.not_ge, if_false]
    rw [nothing, if_neg (fun inside => late.not_ge inside.2.2), add_zero]
    exact allowance_nonneg holds earns window
  · have spent : (if b.Admits capacity rate now ∧ opens ≤ now ∧ now ≤ closes then 1 else 0) +
        (b.take capacity rate now).allowance capacity rate opens closes =
          b.refilled capacity rate now + rate * (closes - now) := by
      simp only [allowance, take, opened.not_gt, open_, opened, and_self, and_true, if_true,
        if_false]
      ring
    rw [spent, allowance]
    have capped : b.refilled capacity rate now ≤ capacity := refilled_le
    have earned : b.refilled capacity rate now ≤ b.tokens + (now - b.lastObserved) * rate := by
      refine (min_le_left _ _).trans ?_
      rw [max_eq_right (sub_nonneg.mpr order)]
    split
    · have : rate * (closes - now) ≤ rate * (closes - opens) :=
        mul_le_mul_of_nonneg_left (by linarith) earns
      linarith
    · rw [if_pos (order.trans open_)]
      linarith

end Bucket
end

section
variable {σ α β K : Type*} {step : σ → α → Option σ} {out : σ → α → List β}

variable (step out) in
def outputs : σ → List α → List β
  | _, [] => []
  | s, a :: rest => out s a ++ ((step s a).map fun t => outputs t rest).getD []

theorem countP_outputs_le [Field K] [LinearOrder K] [IsStrictOrderedRing K] {p : β → Bool}
    {P : σ → Prop} {F : σ → α → Prop} {allowance : σ → K} (nonneg : ∀ s, P s → 0 ≤ allowance s)
    (preserved : ∀ s a t, P s → step s a = some t → P t)
    (uses : ∀ s a t, P s → ¬ F s a → step s a = some t →
      ((out s a).countP p : K) + allowance t ≤ allowance s)
    {s t : σ} {as : List α} (start : P s) (spared : Spared step F s as)
    (run : exec step s as = some t) :
    ((outputs step out s as).countP p : K) ≤ allowance s := by
  induction as generalizing s with
  | nil => simpa [outputs] using nonneg s start
  | cons a as ih =>
      obtain ⟨u, taken, rest⟩ := exec_cons.mp run
      have later := ih (preserved s a u start taken) (spared.2 u taken) rest
      have now := uses s a u start spared.1 taken
      simp only [outputs, taken, Option.map_some, Option.getD_some, List.countP_append,
        Nat.cast_add]
      linarith

end

end OxidHome.Library

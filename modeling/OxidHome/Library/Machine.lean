import Mathlib

/-!
# Runs of a machine with partial steps

A machine is a step function `σ → α → Option σ`: `none` where the action is not enabled. `exec`
runs a list of actions. The two induction rules carry an invariant of one step, or an invariant
that also reads the actions taken so far, to every run.
-/

namespace OxidHome.Library
variable {σ α : Type*}

def exec (step : σ → α → Option σ) : σ → List α → Option σ
  | s, [] => some s
  | s, a :: rest => (step s a).bind fun t => exec step t rest

variable {step : σ → α → Option σ}

@[simp] theorem exec_nil (s : σ) : exec step s [] = some s := rfl

theorem exec_cons {s u : σ} {a : α} {rest : List α} :
    exec step s (a :: rest) = some u ↔ ∃ t, step s a = some t ∧ exec step t rest = some u := by
  simp only [exec, Option.bind_eq_some_iff]

theorem exec_append {s u : σ} {before after : List α} :
    exec step s (before ++ after) = some u ↔
      ∃ t, exec step s before = some t ∧ exec step t after = some u := by
  induction before generalizing s with
  | nil => simp
  | cons a before ih =>
      simp only [List.cons_append, exec_cons, ih]
      constructor
      · rintro ⟨t, ht, v, hv, hu⟩
        exact ⟨v, ⟨t, ht, hv⟩, hu⟩
      · rintro ⟨v, ⟨t, ht, hv⟩, hu⟩
        exact ⟨t, ht, v, hv, hu⟩

theorem exec_concat {s u : σ} {as : List α} {a : α} :
    exec step s (as ++ [a]) = some u ↔ ∃ t, exec step s as = some t ∧ step t a = some u := by
  simp [exec_append, exec_cons]

theorem exec_invariant {P : σ → Prop} (preserved : ∀ s a t, P s → step s a = some t → P t)
    {s t : σ} {as : List α} (start : P s) (run : exec step s as = some t) : P t := by
  induction as generalizing s with
  | nil => cases run; exact start
  | cons a as ih =>
      obtain ⟨u, hu, rest⟩ := exec_cons.mp run
      exact ih (preserved s a u start hu) rest

theorem exec_history {P : List α → σ → Prop} {s : σ} (start : P [] s)
    (preserved : ∀ as t a u, exec step s as = some t → P as t → step t a = some u →
      P (as ++ [a]) u)
    {as : List α} {t : σ} (run : exec step s as = some t) : P as t := by
  induction as using List.reverseRecOn generalizing t with
  | nil => cases run; exact start
  | append_singleton as a ih =>
      obtain ⟨u, hu, last⟩ := exec_concat.mp run
      exact preserved as u a t hu (ih hu) last

theorem exec_simulation {τ : Type*} {other : τ → α → Option τ} {R : σ → τ → Prop}
    {skips : α → Bool}
    (skip : ∀ s t a u, R s t → skips a = true → step s a = some u → R u t)
    (move : ∀ s t a u, R s t → skips a = false → step s a = some u →
      ∃ v, other t a = some v ∧ R u v)
    {s u : σ} {t : τ} {as : List α} (start : R s t) (run : exec step s as = some u) :
    ∃ v, exec other t (as.filter (!skips ·)) = some v ∧ R u v := by
  induction as generalizing s t with
  | nil => cases run; exact ⟨t, rfl, start⟩
  | cons a as ih =>
      obtain ⟨s', first, rest⟩ := exec_cons.mp run
      cases skipped : skips a with
      | true =>
          simpa [skipped] using ih (skip s t a s' start skipped first) rest
      | false =>
          obtain ⟨t', taken, related⟩ := move s t a s' start skipped first
          obtain ⟨v, reached, final⟩ := ih related rest
          refine ⟨v, ?_, final⟩
          simpa [skipped, exec_cons] using ⟨t', taken, reached⟩

theorem exec_faultless {B : σ → Prop} {F : σ → α → Prop} {s : σ} (start : ¬ B s)
    (fault : ∀ as t a u, exec step s as = some t → ¬ B t → step t a = some u →
      (B u ↔ F t a)) (as : List α) :
    (∀ before, before <+: as → ∀ t, exec step s before = some t → ¬ B t) ↔
      ∀ before a, before ++ [a] <+: as → ∀ t u, exec step s before = some t →
        step t a = some u → ¬ F t a := by
  constructor
  · intro clear before a within t u reached taken wrong
    have good := clear before ((List.prefix_append _ _).trans within) t reached
    apply clear (before ++ [a]) within u (exec_concat.mpr ⟨t, reached, taken⟩)
    exact (fault before t a u reached good taken).mpr wrong
  · intro faultless before
    induction before using List.reverseRecOn with
    | nil =>
        intro _ t reached
        cases reached
        exact start
    | append_singleton before a ih =>
        intro within u reached bad
        obtain ⟨t, first, taken⟩ := exec_concat.mp reached
        have good := ih ((List.prefix_append _ _).trans within) t first
        apply faultless before a within t u first taken
        exact (fault before t a u first good taken).mp bad

/-- No step of the run from `s` is at fault. -/
def Spared (step : σ → α → Option σ) (F : σ → α → Prop) : σ → List α → Prop
  | _, [] => True
  | s, a :: rest => ¬ F s a ∧ ∀ t, step s a = some t → Spared step F t rest

variable {F : σ → α → Prop}

instance Spared.decidable [∀ s a, Decidable (F s a)] :
    (s : σ) → (as : List α) → Decidable (Spared step F s as)
  | _, [] => isTrue trivial
  | s, a :: rest =>
      have _ (t : σ) : Decidable (Spared step F t rest) := Spared.decidable t rest
      inferInstanceAs (Decidable (¬ F s a ∧ ∀ t ∈ step s a, Spared step F t rest))

theorem spared_iff {s : σ} {as : List α} :
    Spared step F s as ↔ ∀ before a, before ++ [a] <+: as →
      ∀ t, exec step s before = some t → ¬ F t a := by
  induction as generalizing s with
  | nil => simp [Spared]
  | cons first rest ih =>
      simp only [Spared, ih]
      constructor
      · intro ⟨now, later⟩ before a within t run
        cases before with
        | nil =>
            obtain ⟨rfl, -⟩ := List.cons_prefix_cons.mp within
            cases run
            exact now
        | cons b before =>
            obtain ⟨rfl, shorter⟩ := List.cons_prefix_cons.mp within
            obtain ⟨u, taken, run⟩ := exec_cons.mp run
            exact later u taken before a shorter t run
      · intro all
        constructor
        · exact all [] first (List.cons_prefix_cons.mpr ⟨rfl, List.nil_prefix⟩) s rfl
        · intro u taken before a within t run
          exact all (first :: before) a (List.cons_prefix_cons.mpr ⟨rfl, within⟩) t
            (exec_cons.mpr ⟨u, taken, run⟩)

theorem exec_spared {P : σ → Prop}
    (preserved : ∀ s a t, P s → ¬ F s a → step s a = some t → P t) {s : σ} (start : P s)
    {as : List α} (spared : Spared step F s as) {before : List α} (within : before <+: as)
    {t : σ} (run : exec step s before = some t) : P t := by
  induction before generalizing s as with
  | nil => cases run; exact start
  | cons a before ih =>
      obtain ⟨u, taken, rest⟩ := exec_cons.mp run
      obtain ⟨after, rfl⟩ := within
      obtain ⟨clear, later⟩ := spared
      exact ih (preserved s a u start clear taken) (later u taken) (List.prefix_append _ _) rest

end OxidHome.Library

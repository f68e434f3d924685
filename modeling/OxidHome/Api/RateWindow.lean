import OxidHome.Api.RateLimit

/-!
# What the rate limiter admits

In a window of any length a key is admitted at most as often as its capacity and what its bucket
earns there, as long as its bucket stays in the map and no reading of it is earlier than the one
before. A key that was evicted starts again with a full bucket.
-/

namespace OxidHome.Api.RateLimit
open Library

structure Bounded (limits : RateLimits) (s : RateLimiter) : Prop where
  room : s.buckets.length ≤ limits.maxKeys
  tokens : ∀ entry ∈ s.buckets, entry.2.Holds (limits.capacity : ℚ)
  ingress : s.ingress.Holds (limits.ingressCapacity : ℚ)

def Late (key : Option String) (s : RateLimiter) : LimiterCall → Prop
  | .tryConsumeIngress now => key = none ∧ now < s.ingress.lastObserved
  | .tryConsume called now _ _ =>
      key = some called ∧ ∃ bucket, s.bucket? called = some bucket ∧ now < bucket.lastObserved

def Evicts (limits : RateLimits) (key : Option String) (s : RateLimiter) (call : LimiterCall) :
    Prop :=
  ∃ k t, key = some k ∧ step limits s call = some t ∧ (s.bucket? k).isSome ∧ (t.bucket? k).isNone

def Disturbs (limits : RateLimits) (key : Option String) (s : RateLimiter) (call : LimiterCall) :
    Prop :=
  Late key s call ∨ Evicts limits key s call

instance Late.decidable (key : Option String) (s : RateLimiter) :
    (call : LimiterCall) → Decidable (Late key s call)
  | .tryConsumeIngress now => inferInstanceAs (Decidable (key = none ∧ now < s.ingress.lastObserved))
  | .tryConsume called now _ _ => inferInstanceAs (Decidable (key = some called ∧
      ∃ bucket ∈ s.bucket? called, now < bucket.lastObserved))

theorem evicts_iff {limits : RateLimits} {key : Option String} {s : RateLimiter}
    {call : LimiterCall} : Evicts limits key s call ↔ ∃ k ∈ key, ∃ t ∈ step limits s call,
      (s.bucket? k).isSome ∧ (t.bucket? k).isNone := by
  constructor
  · rintro ⟨k, t, same, taken, there, gone⟩
    exact ⟨k, same, t, taken, there, gone⟩
  · rintro ⟨k, same, t, taken, there, gone⟩
    exact ⟨k, t, same, taken, there, gone⟩

instance Evicts.decidable (limits : RateLimits) (key : Option String) (s : RateLimiter)
    (call : LimiterCall) : Decidable (Evicts limits key s call) :=
  decidable_of_iff _ evicts_iff.symm

instance Disturbs.decidable (limits : RateLimits) (key : Option String) (s : RateLimiter)
    (call : LimiterCall) : Decidable (Disturbs limits key s call) :=
  inferInstanceAs (Decidable (Late key s call ∨ Evicts limits key s call))

section
variable {capacity refill now : ℚ} {bucket : TokenBucket}

theorem consume_bucket : (consume capacity refill now bucket).2 = bucket.take capacity refill now := by
  by_cases admits : bucket.Admits capacity refill now
  · have whole : 1 ≤ min (bucket.tokens + durationSince now bucket.lastObserved * refill) capacity :=
      admits
    simp only [consume, whole, if_true, Bucket.take, admits]
    rfl
  · have short :
        ¬ 1 ≤ min (bucket.tokens + durationSince now bucket.lastObserved * refill) capacity := admits
    simp only [consume, short, if_false, Bucket.take, admits, sub_zero]
    rfl

theorem consume_isOk :
    (consume capacity refill now bucket).1.isOk = decide (bucket.Admits capacity refill now) := by
  by_cases admits : bucket.Admits capacity refill now
  · have whole : 1 ≤ min (bucket.tokens + durationSince now bucket.lastObserved * refill) capacity :=
      admits
    simp only [consume, whole, if_true, admits, decide_true]
    rfl
  · have short :
        ¬ 1 ≤ min (bucket.tokens + durationSince now bucket.lastObserved * refill) capacity := admits
    simp only [consume, short, if_false, admits, decide_false]
    rfl

end

theorem find?_filter_ne (l : List (String × TokenBucket)) (gone key : String) :
    (l.filter (·.1 ≠ gone)).find? (·.1 = key) =
      if key = gone then none else l.find? (·.1 = key) := by
  induction l with
  | nil => simp
  | cons entry l ih =>
      by_cases out : entry.1 = gone
      · rw [List.filter_cons_of_neg (by simpa using out), ih, List.find?_cons]
        by_cases same : key = gone
        · simp [same]
        · have other : entry.1 ≠ key := fun here => same (here.symm.trans out)
          simp [same, other]
      · rw [List.filter_cons_of_pos (by simpa using out), List.find?_cons, List.find?_cons, ih]
        by_cases here : entry.1 = key
        · have same : key ≠ gone := fun eq => out (here.trans eq)
          simp [here, same]
        · simp [here]

theorem lruVictim_mem {order : List (String × TokenBucket)} {sweepNow : ℚ}
    {victim : String × TokenBucket} (chosen : lruVictim order sweepNow = some victim) :
    victim ∈ order ∧ victim.1 ≠ UNAUTHENTICATED_KEY := by
  have evictable : victim ∈ order.filter (·.1 ≠ UNAUTHENTICATED_KEY) := by
    rcases Option.or_eq_some_iff.mp chosen with idle | ⟨-, oldest⟩
    · exact List.mem_of_find?_eq_some idle
    · exact List.argmin_mem oldest
  simpa using evictable

theorem lruVictim_isSome {order : List (String × TokenBucket)} (sweepNow : ℚ)
    {entry : String × TokenBucket} (mem : entry ∈ order) (evictable : entry.1 ≠ UNAUTHENTICATED_KEY) :
    ∃ victim, lruVictim order sweepNow = some victim := by
  have nonempty : order.filter (·.1 ≠ UNAUTHENTICATED_KEY) ≠ [] :=
    List.ne_nil_of_mem (List.mem_filter.mpr ⟨mem, by simpa using evictable⟩)
  rw [← Option.isSome_iff_exists, lruVictim, Option.isSome_or, Bool.or_eq_true]
  refine .inr (Option.isSome_iff_ne_none.mpr ?_)
  exact mt List.argmin_eq_none.mp nonempty

section
variable {limits : RateLimits} {s t : RateLimiter} {key : String} {now sweepNow : ℚ}
  {order : List (String × TokenBucket)}

theorem exists_evictable (two : 2 ≤ s.buckets.length) :
    ∃ entry ∈ s.buckets, entry.1 ≠ UNAUTHENTICATED_KEY := by
  by_contra none
  push Not at none
  have shared : s.buckets.map Prod.fst ⊆ [UNAUTHENTICATED_KEY] := by
    intro k mem
    obtain ⟨entry, here, rfl⟩ := List.mem_map.mp mem
    exact List.mem_singleton.mpr (none entry here)
  have := (s.distinct.subperm shared).length_le
  rw [List.length_map, List.length_singleton] at this
  omega

theorem bucket?_mem {bucket : TokenBucket} (found : s.bucket? key = some bucket) :
    (key, bucket) ∈ s.buckets := by
  obtain ⟨entry, here, rfl⟩ := Option.map_eq_some_iff.mp found
  have same : entry.1 = key := by simpa using List.find?_some here
  rw [← same]
  exact List.mem_of_find?_eq_some here

theorem withRoom_of_some (there : (s.bucket? key).isSome) :
    s.withRoom limits key sweepNow order = s.buckets := by
  simp only [RateLimiter.withRoom, Option.isNone_iff_eq_none, Option.isSome_iff_ne_none.mp there,
    Bool.and_eq_true, false_and, if_false]

theorem withRoom_subset : s.withRoom limits key sweepNow order ⊆ s.buckets := by
  unfold RateLimiter.withRoom evictOneLru
  split
  · split
    · exact List.Subset.refl _
    · exact List.filter_sublist.subset
  · exact List.Subset.refl _

theorem find?_withRoom (limits : RateLimits) (s : RateLimiter) (key : String) (sweepNow : ℚ)
    (order : List (String × TokenBucket)) (other : String) :
    (s.withRoom limits key sweepNow order).find? (·.1 = other) = s.buckets.find? (·.1 = other) ∨
    ((s.withRoom limits key sweepNow order).find? (·.1 = other) = none ∧
      other ≠ UNAUTHENTICATED_KEY) := by
  unfold RateLimiter.withRoom evictOneLru
  split
  · split
    · exact .inl rfl
    case h_2 victim chosen =>
      rw [find?_filter_ne]
      by_cases gone : other = victim.1
      · rw [if_pos gone]
        exact .inr ⟨rfl, fun shared => (lruVictim_mem chosen).2 (gone.symm.trans shared)⟩
      · rw [if_neg gone]
        exact .inl rfl
  · exact .inl rfl

theorem bucket?_tryConsume (other : String) :
    (s.tryConsume limits key now sweepNow order).2.bucket? other =
      if key = other then
        some (((s.bucket? key).getD ⟨limits.capacity, now⟩).take (limits.capacity : ℚ)
          limits.refillPerSecond now)
      else ((s.withRoom limits key sweepNow order).find? (·.1 = other)).map Prod.snd := by
  rw [RateLimiter.bucket?, RateLimiter.tryConsume]
  dsimp only
  rw [find?_upsert, consume_bucket]
  split <;> rfl

theorem tryConsume_of_none (limits : RateLimits) (now sweepNow : ℚ)
    (order : List (String × TokenBucket)) (gone : s.bucket? key = none) :
    (s.tryConsume limits key now sweepNow order).1 =
        (consume limits.capacity limits.refillPerSecond now ⟨limits.capacity, now⟩).1 ∧
      (s.tryConsume limits key now sweepNow order).2.bucket? key =
        some (consume limits.capacity limits.refillPerSecond now ⟨limits.capacity, now⟩).2 := by
  constructor
  · rw [RateLimiter.tryConsume]
    dsimp only
    rw [gone, Option.getD_none]
  · rw [bucket?_tryConsume, if_pos rfl, gone, Option.getD_none, consume_bucket]

theorem length_withRoom (two : 2 ≤ limits.maxKeys) (room : s.buckets.length ≤ limits.maxKeys)
    (new : s.bucket? key = none) (iterated : order.Perm s.buckets) :
    (s.withRoom limits key sweepNow order).length < limits.maxKeys := by
  simp only [RateLimiter.withRoom, new, Option.isNone_none, Bool.true_and, decide_eq_true_eq]
  split
  case isTrue full =>
    obtain ⟨entry, mem, evictable⟩ := exists_evictable (two.trans full)
    obtain ⟨victim, chosen⟩ :=
      lruVictim_isSome sweepNow (iterated.mem_iff.mpr mem) evictable
    have inside := iterated.mem_iff.mp (lruVictim_mem chosen).1
    rw [evictOneLru, chosen]
    refine lt_of_lt_of_le ?_ room
    exact List.length_filter_lt_length_iff_exists.mpr ⟨victim, inside, by simp⟩
  case isFalse spare => omega

theorem find?_withRoom_key : ((s.withRoom limits key sweepNow order).find? (·.1 = key)).isSome =
    (s.bucket? key).isSome := by
  cases there : s.bucket? key with
  | some bucket =>
      rw [withRoom_of_some (by rw [there]; rfl), ← Option.isSome_map (f := Prod.snd)]
      exact congrArg Option.isSome there
  | none =>
      have nothing : s.buckets.find? (·.1 = key) = none := Option.map_eq_none_iff.mp there
      rcases find?_withRoom limits s key sweepNow order key with same | ⟨gone, -⟩
      · rw [same, nothing]
        rfl
      · rw [gone]
        rfl

theorem step_cases {call : LimiterCall} (taken : step limits s call = some t) :
    (∃ now, call = .tryConsumeIngress now ∧ t = { s with
      ingress := s.ingress.take (limits.ingressCapacity : ℚ) limits.ingressRefillPerSecond now }) ∨
    ∃ key now sweepNow order, call = .tryConsume key now sweepNow order ∧ order.Perm s.buckets ∧
      t = (s.tryConsume limits key now sweepNow order).2 := by
  cases call with
  | tryConsumeIngress now =>
      simp only [step, Option.some.injEq, RateLimiter.tryConsumeIngress, consume_bucket] at taken
      exact .inl ⟨now, rfl, taken.symm⟩
  | tryConsume key now sweepNow order =>
      simp only [step, Option.ite_none_right_eq_some, Option.some.injEq] at taken
      exact .inr ⟨key, now, sweepNow, order, rfl, taken.1, taken.2.symm⟩

end

section
variable {limits : RateLimits} {s t : RateLimiter}

theorem found_holds (bounded : Bounded limits s) (key : String) (now : ℚ) :
    ((s.bucket? key).getD ⟨limits.capacity, now⟩).Holds (limits.capacity : ℚ) := by
  cases found : s.bucket? key with
  | none => exact Bucket.full_holds (Nat.cast_nonneg _)
  | some bucket => exact bounded.tokens _ (bucket?_mem found)

theorem withAll_bounded (limits : RateLimits) (created : ℚ) :
    Bounded limits (withAll limits created) :=
  ⟨Nat.zero_le _, by simp [withAll], Bucket.full_holds (Nat.cast_nonneg _)⟩

theorem step_bounded (two : 2 ≤ limits.maxKeys) (earns : 0 ≤ limits.refillPerSecond)
    (ingressEarns : 0 ≤ limits.ingressRefillPerSecond) {call : LimiterCall}
    (bounded : Bounded limits s) (taken : step limits s call = some t) : Bounded limits t := by
  rcases step_cases taken with ⟨now, -, rfl⟩ | ⟨key, now, sweepNow, order, -, iterated, rfl⟩
  · exact ⟨bounded.room, bounded.tokens, Bucket.take_holds bounded.ingress ingressEarns⟩
  · refine ⟨?_, ?_, bounded.ingress⟩
    · rw [RateLimiter.tryConsume, length_upsert, find?_withRoom_key]
      cases there : s.bucket? key with
      | some bucket =>
          rw [withRoom_of_some (by rw [there]; rfl)]
          exact bounded.room
      | none => exact length_withRoom two bounded.room there iterated
    · intro entry mem
      rcases mem_upsert mem with rfl | mem
      · rw [consume_bucket]
        exact Bucket.take_holds (found_holds bounded key now) earns
      · exact bounded.tokens entry (withRoom_subset mem)

theorem step_keeps_shared {call : LimiterCall} (taken : step limits s call = some t)
    (there : (s.bucket? UNAUTHENTICATED_KEY).isSome) :
    (t.bucket? UNAUTHENTICATED_KEY).isSome := by
  rcases step_cases taken with ⟨now, -, rfl⟩ | ⟨key, now, sweepNow, order, -, -, rfl⟩
  · exact there
  · rw [bucket?_tryConsume]
    split
    · rfl
    · rcases find?_withRoom limits s key sweepNow order UNAUTHENTICATED_KEY with same | ⟨-, apart⟩
      · rw [same]
        exact there
      · exact absurd rfl apart

def allowance (limits : RateLimits) (key : Option String) (opens T : ℚ) (s : RateLimiter) : ℚ :=
  match key with
  | none => s.ingress.allowance (limits.ingressCapacity : ℚ) limits.ingressRefillPerSecond opens
      (opens + T)
  | some k => match s.bucket? k with
    | none => limits.capacity + limits.refillPerSecond * T
    | some bucket =>
        bucket.allowance (limits.capacity : ℚ) limits.refillPerSecond opens (opens + T)

def fullAllowance (limits : RateLimits) (T : ℚ) : Option String → ℚ
  | none => limits.ingressCapacity + limits.ingressRefillPerSecond * T
  | some _ => limits.capacity + limits.refillPerSecond * T

theorem allowance_le_full (bounded : Bounded limits s) (earns : 0 ≤ limits.refillPerSecond)
    (ingressEarns : 0 ≤ limits.ingressRefillPerSecond) (key : Option String) (opens : ℚ) {T : ℚ}
    (window : 0 ≤ T) : allowance limits key opens T s ≤ fullAllowance limits T key := by
  have order : opens ≤ opens + T := by linarith
  cases key with
  | none =>
      have full := Bucket.allowance_le bounded.ingress ingressEarns order
      rwa [add_sub_cancel_left] at full
  | some k =>
      rw [allowance, fullAllowance]
      cases found : s.bucket? k with
      | none => exact le_rfl
      | some bucket =>
          have full := Bucket.allowance_le (bounded.tokens _ (bucket?_mem found)) earns order
          rwa [add_sub_cancel_left] at full

theorem allowance_nonneg (bounded : Bounded limits s) (earns : 0 ≤ limits.refillPerSecond)
    (ingressEarns : 0 ≤ limits.ingressRefillPerSecond) (key : Option String) (opens : ℚ) {T : ℚ}
    (window : 0 ≤ T) : 0 ≤ allowance limits key opens T s := by
  have order : opens ≤ opens + T := by linarith
  cases key with
  | none => exact Bucket.allowance_nonneg bounded.ingress ingressEarns order
  | some k =>
      rw [allowance]
      cases found : s.bucket? k with
      | none =>
          have earned := mul_nonneg earns window
          have : (0 : ℚ) ≤ limits.capacity := Nat.cast_nonneg _
          dsimp only
          linarith
      | some bucket => exact Bucket.allowance_nonneg (bounded.tokens _ (bucket?_mem found)) earns order

theorem admittedIn_ite {key other : Option String} {opens T now : ℚ} {admits : Prop}
    [Decidable admits] :
    (admittedIn key opens T (if admits then [⟨other, now⟩] else []) : ℚ) =
      if other = key then if admits ∧ opens ≤ now ∧ now ≤ opens + T then 1 else 0 else 0 := by
  by_cases h : admits <;> by_cases same : other = key <;> simp [admittedIn, h, same]

theorem answer_uses (bounded : Bounded limits s) (earns : 0 ≤ limits.refillPerSecond)
    {key : String} {opens T now : ℚ} (window : 0 ≤ T)
    (onTime : ∀ bucket, s.bucket? key = some bucket → bucket.lastObserved ≤ now) :
    (if ((s.bucket? key).getD ⟨limits.capacity, now⟩).Admits (limits.capacity : ℚ)
          limits.refillPerSecond now ∧ opens ≤ now ∧ now ≤ opens + T then 1 else 0) +
      (((s.bucket? key).getD ⟨limits.capacity, now⟩).take (limits.capacity : ℚ)
        limits.refillPerSecond now).allowance (limits.capacity : ℚ) limits.refillPerSecond opens
          (opens + T) ≤ allowance limits (some key) opens T s := by
  have order : opens ≤ opens + T := by linarith
  have observed : ((s.bucket? key).getD ⟨limits.capacity, now⟩).lastObserved ≤ now := by
    cases found : s.bucket? key with
    | none => exact le_rfl
    | some bucket => exact onTime bucket found
  have used := Bucket.take_allowance (found_holds bounded key now) earns order observed
  refine used.trans ?_
  rw [allowance]
  cases found : s.bucket? key with
  | none =>
      have full := Bucket.allowance_le (found_holds bounded key now) earns order
      rwa [found, add_sub_cancel_left] at full
  | some bucket => exact le_rfl

theorem step_uses (bounded : Bounded limits s) (earns : 0 ≤ limits.refillPerSecond)
    (ingressEarns : 0 ≤ limits.ingressRefillPerSecond) {key : Option String} {opens T : ℚ}
    (window : 0 ≤ T) {call : LimiterCall} (clear : ¬ Disturbs limits key s call)
    (taken : step limits s call = some t) :
    (admittedIn key opens T (admissions limits s call) : ℚ) + allowance limits key opens T t ≤
      allowance limits key opens T s := by
  have order : opens ≤ opens + T := by linarith
  rcases step_cases taken with ⟨now, rfl, rfl⟩ | ⟨called, now, sweepNow, iter, rfl, -, rfl⟩
  · rw [admissions, RateLimiter.tryConsumeIngress, consume_isOk]
    simp only [decide_eq_true_eq]
    rw [admittedIn_ite]
    cases key with
    | some k => simp [allowance, RateLimiter.bucket?]
    | none =>
        have onTime : s.ingress.lastObserved ≤ now := by
          by_contra late
          exact clear (.inl ⟨rfl, not_le.mp late⟩)
        rw [if_pos rfl]
        exact Bucket.take_allowance bounded.ingress ingressEarns order onTime
  · have answered : (s.tryConsume limits called now sweepNow iter).1.isOk = _ := consume_isOk
    rw [admissions, answered]
    simp only [decide_eq_true_eq]
    rw [admittedIn_ite]
    cases key with
    | none => simp [allowance, RateLimiter.tryConsume]
    | some k =>
        have after : (s.tryConsume limits called now sweepNow iter).2.bucket? k = _ :=
          bucket?_tryConsume k
        by_cases same : called = k
        · subst same
          have onTime : ∀ bucket, s.bucket? called = some bucket → bucket.lastObserved ≤ now := by
            intro bucket found
            by_contra late
            exact clear (.inl ⟨rfl, bucket, found, not_le.mp late⟩)
          rw [if_pos rfl] at after ⊢
          simp only [allowance, after]
          exact answer_uses bounded earns window onTime
        · rw [if_neg (by simpa using same), zero_add]
          rw [if_neg same] at after
          rcases find?_withRoom limits s called sweepNow iter k with kept | ⟨gone, -⟩
          · have unchanged : (s.tryConsume limits called now sweepNow iter).2.bucket? k =
                s.bucket? k := by rw [after, kept]; rfl
            simp only [allowance, unchanged]
            exact le_rfl
          · have absent : (s.tryConsume limits called now sweepNow iter).2.bucket? k = none := by
              rw [after, gone]
              rfl
            cases there : s.bucket? k with
            | none =>
                simp only [allowance, absent, there]
                exact le_rfl
            | some bucket =>
                refine absurd (.inr ⟨k, _, rfl, taken, ?_, ?_⟩) clear
                · rw [there]
                  rfl
                · rw [absent]
                  rfl

end

theorem rate_limits_hold (limits : RateLimits) (created : ℚ) (before during : List LimiterCall)
    (s t : RateLimiter) (two : 2 ≤ limits.maxKeys) (earns : 0 ≤ limits.refillPerSecond)
    (ingressEarns : 0 ≤ limits.ingressRefillPerSecond)
    (reached : exec (step limits) (withAll limits created) before = some s)
    (run : exec (step limits) s during = some t) :
    Bounded limits s ∧
    ((s.bucket? UNAUTHENTICATED_KEY).isSome → (t.bucket? UNAUTHENTICATED_KEY).isSome) ∧
    (∀ key opens T, 0 ≤ T → Spared (step limits) (Disturbs limits key) s during →
      (admittedIn key opens T (outputs (step limits) (admissions limits) s during) : ℚ) ≤
        fullAllowance limits T key) ∧
    ∀ key now sweepNow order, (s.bucket? key).isSome → t.bucket? key = none →
      let full : TokenBucket := ⟨limits.capacity, now⟩
      (t.tryConsume limits key now sweepNow order).1 =
          (consume limits.capacity limits.refillPerSecond now full).1 ∧
        (t.tryConsume limits key now sweepNow order).2.bucket? key =
          some (consume limits.capacity limits.refillPerSecond now full).2 := by
  have bounded : Bounded limits s := by
    refine exec_invariant ?_ (withAll_bounded limits created) reached
    intro _ _ _ bounded taken
    exact step_bounded two earns ingressEarns bounded taken
  refine ⟨bounded, ?_, ?_, ?_⟩
  · intro there
    exact exec_invariant (fun _ _ _ there taken => step_keeps_shared taken there) there run
  · intro key opens T window spared
    refine le_trans ?_ (allowance_le_full bounded earns ingressEarns key opens window)
    refine countP_outputs_le (P := Bounded limits) ?_ ?_ ?_ bounded spared run
    · intro s bounded
      exact allowance_nonneg bounded earns ingressEarns key opens window
    · intro s call t bounded taken
      exact step_bounded two earns ingressEarns bounded taken
    · intro s call t bounded clear taken
      exact step_uses bounded earns ingressEarns window clear taken
  · intro key now sweepNow order _ gone
    exact tryConsume_of_none limits now sweepNow order gone

def oneASecond : RateLimits := ⟨1, 1, 2, 0, 0⟩

def evicting : List LimiterCall :=
  [.tryConsume "a" 0 0 [], .tryConsume "b" 1 1 [("a", ⟨0, 0⟩)],
    .tryConsume "c" 2 2 [("b", ⟨0, 1⟩), ("a", ⟨0, 0⟩)],
    .tryConsume "a" 3 3 [("c", ⟨0, 2⟩), ("b", ⟨0, 1⟩)]]

def returning : List LimiterCall :=
  [.tryConsume "a" 3 3 [("c", ⟨0, 2⟩), ("b", ⟨0, 1⟩)],
    .tryConsume "a" 4 4 [("c", ⟨0, 2⟩), ("a", ⟨0, 3⟩)],
    .tryConsume "a" 4 4 [("c", ⟨0, 2⟩), ("a", ⟨0, 4⟩)],
    .tryConsume "c" 5 5 [("c", ⟨0, 2⟩), ("a", ⟨0, 4⟩)]]

theorem rate_limits_hold_one_a_second :
    ∃ s t, exec (step oneASecond) (withAll oneASecond 0) (evicting.take 3) = some s ∧
      exec (step oneASecond) s returning = some t ∧ Bounded oneASecond s ∧
      (admittedIn (some "a") 3 1
        (outputs (step oneASecond) (admissions oneASecond) s returning) : ℚ) ≤
          fullAllowance oneASecond 1 (some "a") ∧
      (t.tryConsume oneASecond "b" 5 5 []).1 = (consume 1 1 5 ⟨1, 5⟩).1 := by
  have runs : (exec (step oneASecond) (withAll oneASecond 0)
      (evicting.take 3 ++ returning)).isSome = true := by decide +kernel
  obtain ⟨t, run⟩ := Option.isSome_iff_exists.mp runs
  obtain ⟨s, reached, rest⟩ := exec_append.mp run
  have spared : ∀ u ∈ exec (step oneASecond) (withAll oneASecond 0) (evicting.take 3),
      Spared (step oneASecond) (Disturbs oneASecond (some "a")) u returning ∧
        (u.bucket? "b").isSome := by decide +kernel
  have gone : ∀ u ∈ exec (step oneASecond) (withAll oneASecond 0) (evicting.take 3 ++ returning),
      u.bucket? "b" = none := by decide +kernel
  obtain ⟨bounded, -, windows, restarts⟩ := rate_limits_hold oneASecond 0 (evicting.take 3) returning
    s t (by decide) (by decide) (by decide) reached rest
  obtain ⟨quiet, there⟩ := spared s reached
  exact ⟨s, t, reached, rest, bounded, windows (some "a") 3 1 (by decide) quiet,
    by simpa [oneASecond] using (restarts "b" 5 5 [] there (gone t run)).1⟩

def twoKeys : RateLimits := ⟨1, 0, 2, 0, 0⟩

theorem eviction_refills_a_bucket :
    ¬ ∀ (limits : RateLimits) (created : ℚ) (calls : List LimiterCall) (t : RateLimiter),
      2 ≤ limits.maxKeys → 0 ≤ limits.refillPerSecond → 0 ≤ limits.ingressRefillPerSecond →
      exec (step limits) (withAll limits created) calls = some t →
      ∀ key opens T, 0 ≤ T →
        (admittedIn key opens T
          (outputs (step limits) (admissions limits) (withAll limits created) calls) : ℚ) ≤
            fullAllowance limits T key := by
  intro always
  have runs : (exec (step twoKeys) (withAll twoKeys 0) evicting).isSome = true := by decide +kernel
  obtain ⟨t, run⟩ := Option.isSome_iff_exists.mp runs
  have bound := always twoKeys 0 evicting t (by decide) (by decide) (by decide) run (some "a") 0 3
    (by decide)
  have twice : admittedIn (some "a") 0 3
      (outputs (step twoKeys) (admissions twoKeys) (withAll twoKeys 0) evicting) = 2 := by
    decide +kernel
  rw [twice] at bound
  norm_num [fullAllowance, twoKeys] at bound

def late : List LimiterCall :=
  [.tryConsume "a" 1 1 [], .tryConsume "a" 0 0 [("a", ⟨0, 1⟩)],
    .tryConsume "a" 1 1 [("a", ⟨0, 0⟩)]]

theorem late_reading_refills_a_bucket :
    ¬ ∀ (limits : RateLimits) (created : ℚ) (calls : List LimiterCall) (t : RateLimiter),
      2 ≤ limits.maxKeys → 0 ≤ limits.refillPerSecond → 0 ≤ limits.ingressRefillPerSecond →
      exec (step limits) (withAll limits created) calls = some t →
      ∀ key opens T, 0 ≤ T →
        Spared (step limits) (Evicts limits key) (withAll limits created) calls →
        (admittedIn key opens T
          (outputs (step limits) (admissions limits) (withAll limits created) calls) : ℚ) ≤
            fullAllowance limits T key := by
  intro always
  have runs : (exec (step oneASecond) (withAll oneASecond 0) late).isSome = true := by decide +kernel
  obtain ⟨t, run⟩ := Option.isSome_iff_exists.mp runs
  have spared : Spared (step oneASecond) (Evicts oneASecond (some "a")) (withAll oneASecond 0) late :=
    by decide +kernel
  have bound := always oneASecond 0 late t (by decide) (by decide) (by decide) run (some "a") 1 0
    le_rfl spared
  have twice : admittedIn (some "a") 1 0
      (outputs (step oneASecond) (admissions oneASecond) (withAll oneASecond 0) late) = 2 := by
    decide +kernel
  rw [twice] at bound
  norm_num [fullAllowance, oneASecond] at bound

end OxidHome.Api.RateLimit

import OxidHome.Library.Keyed
import OxidHome.Library.TokenBucket

/-!
# The rate limiter of the MCP mount

`RateLimiterState` of `api/mcp/rate_limit.rs`, with rationals for its `f64`s and for its `Instant`s,
in seconds. A call reads the clock before it takes the lock, so readings come in any order. The
order in which the map iterates is a parameter of a call, as is the reading that an eviction takes.
-/

namespace OxidHome.Api.RateLimit
open Library

def UNAUTHENTICATED_KEY : String := "unauthenticated"

def IDLE_EVICTION_WINDOW : ℚ := 5 * 60

abbrev TokenBucket := Bucket ℚ

structure RateLimits where
  capacity : Nat
  refillPerSecond : ℚ
  maxKeys : Nat
  ingressCapacity : Nat
  ingressRefillPerSecond : ℚ

structure RateLimiter where
  buckets : List (String × TokenBucket)
  distinct : (buckets.map Prod.fst).Nodup
  ingress : TokenBucket

theorem nodup_no_buckets : (([] : List (String × TokenBucket)).map Prod.fst).Nodup := .nil

def withAll (limits : RateLimits) (created : ℚ) : RateLimiter where
  buckets := []
  distinct := nodup_no_buckets
  ingress := ⟨limits.ingressCapacity, created⟩

/-- `Instant::duration_since`, zero where `earlier` is later. -/
def durationSince (now earlier : ℚ) : ℚ := max 0 (now - earlier)

/-- The `u64` that `as` makes of the quotient, infinite where nothing refills. -/
def waitSecs (tokens refill : ℚ) : Nat :=
  if refill = 0 then 2 ^ 64 - 1 else min ⌈(1 - tokens) / refill⌉₊ (2 ^ 64 - 1)

def consume (capacity refill now : ℚ) (bucket : TokenBucket) :
    Except Nat Unit × TokenBucket :=
  let elapsedSecs := durationSince now bucket.lastObserved
  let tokens := min (bucket.tokens + elapsedSecs * refill) capacity
  if 1 ≤ tokens then (.ok (), ⟨tokens - 1, now⟩)
  else (.error (max (waitSecs tokens refill) 1), ⟨tokens, now⟩)

/-- The entry that goes: one that is idle, else the one observed first. -/
def lruVictim (order : List (String × TokenBucket)) (sweepNow : ℚ) :
    Option (String × TokenBucket) :=
  let evictable := order.filter (·.1 ≠ UNAUTHENTICATED_KEY)
  (evictable.find? fun entry =>
      IDLE_EVICTION_WINDOW ≤ durationSince sweepNow entry.2.lastObserved).or
    (evictable.argmin (·.2.lastObserved))

def evictOneLru (order : List (String × TokenBucket)) (sweepNow : ℚ)
    (buckets : List (String × TokenBucket)) : List (String × TokenBucket) :=
  match lruVictim order sweepNow with
  | none => buckets
  | some victim => buckets.filter (·.1 ≠ victim.1)

namespace RateLimiter

def bucket? (s : RateLimiter) (key : String) : Option TokenBucket :=
  (s.buckets.find? (·.1 = key)).map Prod.snd

def tryConsumeIngress (limits : RateLimits) (s : RateLimiter) (now : ℚ) :
    Except Nat Unit × RateLimiter :=
  let consumed := consume limits.ingressCapacity limits.ingressRefillPerSecond now s.ingress
  (consumed.1, { s with ingress := consumed.2 })

def withRoom (limits : RateLimits) (s : RateLimiter) (key : String) (sweepNow : ℚ)
    (order : List (String × TokenBucket)) : List (String × TokenBucket) :=
  if (s.bucket? key).isNone && limits.maxKeys ≤ s.buckets.length then
    evictOneLru order sweepNow s.buckets
  else s.buckets

theorem withRoom_nodup (limits : RateLimits) (s : RateLimiter) (key : String) (sweepNow : ℚ)
    (order : List (String × TokenBucket)) :
    ((s.withRoom limits key sweepNow order).map Prod.fst).Nodup := by
  have filtered (p : String × TokenBucket → Bool) : ((s.buckets.filter p).map Prod.fst).Nodup :=
    s.distinct.sublist (List.filter_sublist.map _)
  unfold withRoom evictOneLru
  split
  · split
    · exact s.distinct
    · exact filtered _
  · exact s.distinct

def tryConsume (limits : RateLimits) (s : RateLimiter) (key : String) (now sweepNow : ℚ)
    (order : List (String × TokenBucket)) : Except Nat Unit × RateLimiter :=
  let found := (s.bucket? key).getD ⟨limits.capacity, now⟩
  let consumed := consume limits.capacity limits.refillPerSecond now found
  (consumed.1, {
    buckets := upsert Prod.fst (s.withRoom limits key sweepNow order) (key, consumed.2)
    distinct := upsert_nodup _ (s.withRoom_nodup limits key sweepNow order)
    ingress := s.ingress })

end RateLimiter

inductive LimiterCall where
  | tryConsumeIngress (now : ℚ)
  | tryConsume (key : String) (now sweepNow : ℚ) (order : List (String × TokenBucket))

/-- An admitted call with its clock reading, without a key at the ingress bucket. -/
structure Admission where
  key : Option String
  now : ℚ
deriving DecidableEq

/-- `none` where the map does not iterate in that order. -/
def step (limits : RateLimits) (s : RateLimiter) : LimiterCall → Option RateLimiter
  | .tryConsumeIngress now => some (s.tryConsumeIngress limits now).2
  | .tryConsume key now sweepNow order =>
      if order.Perm s.buckets then some (s.tryConsume limits key now sweepNow order).2 else none

def admissions (limits : RateLimits) (s : RateLimiter) : LimiterCall → List Admission
  | .tryConsumeIngress now =>
      if (s.tryConsumeIngress limits now).1.isOk then [⟨none, now⟩] else []
  | .tryConsume key now sweepNow order =>
      if (s.tryConsume limits key now sweepNow order).1.isOk then [⟨some key, now⟩] else []

def admittedIn (key : Option String) (opens T : ℚ) (admitted : List Admission) : Nat :=
  admitted.countP fun call => call.key = key ∧ opens ≤ call.now ∧ call.now ≤ opens + T

end OxidHome.Api.RateLimit

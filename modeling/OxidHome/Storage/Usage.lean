import OxidHome.Wit
import OxidHome.Library.Keyed

/-!
# Byte accounting

The `kv_usage` and `blob_usage` tables and the triggers that keep them. Rows of a stored table
belong to an `(installation_uuid, instance_id)` tuple and have a size. The table is balanced when
each usage row holds the size of the rows of its tuple. Byte counts stay below `i64::MAX`.
-/

namespace OxidHome.Storage
open Wit Library

abbrev Tuple := String × String

structure UsageRow where
  installationUuid : String
  instanceId : String
  bytesUsed : Int
  bytesQuota : Int

def UsageRow.tuple (u : UsageRow) : Tuple := (u.installationUuid, u.instanceId)

abbrev Usage := List UsageRow

namespace Usage

def find (usage : Usage) (t : Tuple) : Option UsageRow := usage.find? (·.tuple = t)

/-- `INSERT … ON CONFLICT DO UPDATE SET bytes_quota` -/
def register (usage : Usage) (installationUuid instanceId : String) (quotaBytes : Nat) : Usage :=
  upsert UsageRow.tuple usage ⟨installationUuid, instanceId,
    ((usage.find (installationUuid, instanceId)).map (·.bytesUsed)).getD 0,
    (min quotaBytes I64_MAX : Nat)⟩

/-- The `UPDATE` of a trigger. -/
def charge (usage : Usage) (t : Tuple) (delta : Int) : Usage :=
  usage.map fun u => if u.tuple = t then { u with bytesUsed := u.bytesUsed + delta } else u

def purge (usage : Usage) (installationUuid : String) : Usage :=
  usage.filter fun u => u.installationUuid ≠ installationUuid

theorem find_charge (usage : Usage) (t t' : Tuple) (delta : Int) :
    (usage.charge t delta).find t' = (usage.find t').map fun u =>
      if t' = t then { u with bytesUsed := u.bytesUsed + delta } else u := by
  induction usage with
  | nil => rfl
  | cons u usage ih =>
      have same : (if u.tuple = t then { u with bytesUsed := u.bytesUsed + delta } else u).tuple =
          u.tuple := by split <;> rfl
      unfold find at ih ⊢
      rw [charge, List.map_cons, List.find?_cons, List.find?_cons, same]
      by_cases here : u.tuple = t'
      · simp only [here, decide_true, Option.map_some]
      · simp only [here, decide_false]
        exact ih

theorem find_register (usage : Usage) (uuid inst : String) (quota : Nat) (t : Tuple) :
    (usage.register uuid inst quota).find t = if (uuid, inst) = t then
      some ⟨uuid, inst, ((usage.find (uuid, inst)).map (·.bytesUsed)).getD 0,
        (min quota I64_MAX : Nat)⟩ else usage.find t :=
  find?_upsert usage _ t

theorem find_purge (usage : Usage) (uuid : String) (t : Tuple) :
    (usage.purge uuid).find t = if t.1 = uuid then none else usage.find t := by
  induction usage with
  | nil => simp [purge, find]
  | cons u usage ih =>
      unfold purge find at ih ⊢
      by_cases here : u.tuple = t
      · subst here
        by_cases gone : u.installationUuid = uuid
        · simpa [gone, UsageRow.tuple] using ih
        · simp [gone, UsageRow.tuple]
      · by_cases gone : u.installationUuid = uuid
        · simpa [gone, here] using ih
        · simpa [gone, here] using ih

end Usage

variable {ρ : Type} (tuple : ρ → Tuple) (size : ρ → Nat)

def bytesOf (rows : List ρ) (t : Tuple) : Nat :=
  ((rows.filter fun r => tuple r = t).map size).sum

/-- The `AFTER DELETE` trigger, once for each deleted row. -/
def refund (usage : Usage) (deleted : List ρ) : Usage :=
  deleted.foldl (fun usage r => usage.charge (tuple r) (-size r)) usage

structure Balanced (rows : List ρ) (usage : Usage) : Prop where
  used : ∀ t u, usage.find t = some u → u.bytesUsed = bytesOf tuple size rows t
  registered : ∀ r ∈ rows, (usage.find (tuple r)).isSome

variable {tuple size}

@[simp] theorem bytesOf_nil (t : Tuple) : bytesOf tuple size [] t = 0 := rfl

theorem bytesOf_cons (r : ρ) (rows : List ρ) (t : Tuple) :
    bytesOf tuple size (r :: rows) t =
      (if tuple r = t then size r else 0) + bytesOf tuple size rows t := by
  by_cases here : tuple r = t <;> simp [bytesOf, here]

theorem bytesOf_append (rows more : List ρ) (t : Tuple) :
    bytesOf tuple size (rows ++ more) t = bytesOf tuple size rows t + bytesOf tuple size more t := by
  simp [bytesOf]

theorem bytesOf_split (p : ρ → Bool) (rows : List ρ) (t : Tuple) :
    bytesOf tuple size rows t =
      bytesOf tuple size (rows.filter p) t + bytesOf tuple size (rows.filter (!p ·)) t := by
  induction rows with
  | nil => rfl
  | cons r rows ih =>
      cases keep : p r <;> simp only [List.filter_cons, keep, bytesOf_cons, ih, Bool.not_true,
        Bool.not_false, if_true, Bool.false_eq_true, if_false] <;> omega

theorem bytesOf_eq_zero {rows : List ρ} {t : Tuple} (none : ∀ r ∈ rows, tuple r ≠ t) :
    bytesOf tuple size rows t = 0 := by
  have empty : rows.filter (fun r => tuple r = t) = [] :=
    List.filter_eq_nil_iff.mpr fun r mem => by simpa using none r mem
  simp [bytesOf, empty]

theorem bytesOf_eq_sum (rows : List ρ) (t : Tuple) :
    bytesOf tuple size rows t = (rows.map fun r => if tuple r = t then size r else 0).sum := by
  induction rows with
  | nil => rfl
  | cons r rows ih => rw [bytesOf_cons, ih, List.map_cons, List.sum_cons]

theorem bytesOf_upsert (size : ρ → Nat) {κ : Type} [DecidableEq κ] {key : ρ → κ}
    (determines : ∀ a b, key a = key b → tuple a = tuple b) (rows : List ρ) (r : ρ) (t : Tuple) :
    bytesOf tuple size (upsert key rows r) t +
        (if tuple r = t then ((rows.find? (key · = key r)).map size).getD 0 else 0) =
      bytesOf tuple size rows t + if tuple r = t then size r else 0 := by
  have sums := @sum_upsert ρ κ _ key (fun a => if tuple a = t then size a else 0) rows r
  rw [← bytesOf_eq_sum, ← bytesOf_eq_sum] at sums
  rw [← sums]
  cases old : rows.find? (key · = key r) with
  | none => simp
  | some b =>
      have same : tuple b = tuple r := determines b r (by simpa using List.find?_some old)
      simp [same]

theorem find_refund (usage : Usage) (deleted : List ρ) (t : Tuple) :
    (refund tuple size usage deleted).find t = (usage.find t).map fun u =>
      { u with bytesUsed := u.bytesUsed - bytesOf tuple size deleted t } := by
  induction deleted generalizing usage with
  | nil => simp [refund]
  | cons r deleted ih =>
      have head : refund tuple size usage (r :: deleted) =
          refund tuple size (usage.charge (tuple r) (-size r)) deleted := rfl
      rw [head, ih, Usage.find_charge, Option.map_map, bytesOf_cons]
      congr 1
      funext u
      by_cases here : t = tuple r
      · simp [here]
        omega
      · simp [here, Ne.symm here]

theorem Balanced.nil {usage : Usage} (zero : ∀ t u, usage.find t = some u → u.bytesUsed = 0) :
    Balanced tuple size ([] : List ρ) usage where
  used := zero
  registered := by simp

section
variable {rows : List ρ} {usage : Usage} (balanced : Balanced tuple size rows usage)
include balanced

theorem Balanced.register (uuid inst : String) (quota : Nat) :
    Balanced tuple size rows (usage.register uuid inst quota) where
  used := by
    intro t u found
    rw [Usage.find_register] at found
    split at found
    · rename_i here
      cases found
      dsimp only
      rw [here]
      cases known : usage.find t with
      | some u => exact balanced.used t u known
      | none =>
          rw [bytesOf_eq_zero]
          · rfl
          · intro r mem same
            have := balanced.registered r mem
            rw [same, known] at this
            cases this
    · exact balanced.used t u found
  registered := by
    intro r mem
    rw [Usage.find_register]
    split
    · rfl
    · exact balanced.registered r mem

theorem Balanced.insert {r : ρ} (known : (usage.find (tuple r)).isSome) :
    Balanced tuple size (rows ++ [r]) (usage.charge (tuple r) (size r)) where
  used := by
    intro t u found
    rw [Usage.find_charge, Option.map_eq_some_iff] at found
    obtain ⟨before, here, rfl⟩ := found
    have := balanced.used t before here
    rw [bytesOf_append, bytesOf_cons, bytesOf_nil]
    by_cases same : tuple r = t
    · simp [same, this]
    · simp [same, Ne.symm same, this]
  registered := by
    intro other mem
    rw [Usage.find_charge, Option.isSome_map]
    rcases List.mem_append.mp mem with mem | mem
    · exact balanced.registered other mem
    · rwa [List.mem_singleton.mp mem]

theorem Balanced.upsert {κ : Type} [DecidableEq κ] {key : ρ → κ}
    (determines : ∀ a b, key a = key b → tuple a = tuple b) {r : ρ}
    (known : (usage.find (tuple r)).isSome) :
    Balanced tuple size (upsert key rows r) (usage.charge (tuple r)
      (size r - ((rows.find? (key · = key r)).map size).getD 0)) where
  used := by
    intro t u found
    rw [Usage.find_charge, Option.map_eq_some_iff] at found
    obtain ⟨before, here, rfl⟩ := found
    have := balanced.used t before here
    have sums := bytesOf_upsert size determines rows r t
    by_cases same : tuple r = t
    · simp only [same, if_true] at sums ⊢
      omega
    · simp only [same, Ne.symm same, if_false] at sums ⊢
      omega
  registered := by
    intro other mem
    rw [Usage.find_charge, Option.isSome_map]
    rcases mem_upsert mem with rfl | mem
    · exact known
    · exact balanced.registered other mem

theorem Balanced.delete (p : ρ → Bool) :
    Balanced tuple size (rows.filter (!p ·)) (refund tuple size usage (rows.filter p)) where
  used := by
    intro t u found
    rw [find_refund, Option.map_eq_some_iff] at found
    obtain ⟨before, here, rfl⟩ := found
    have := balanced.used t before here
    rw [bytesOf_split p] at this
    simp only [this]
    omega
  registered := by
    intro r mem
    rw [find_refund, Option.isSome_map]
    exact balanced.registered r (List.mem_of_mem_filter mem)

theorem Balanced.purge (uuid : String) :
    Balanced tuple size (rows.filter fun r => (tuple r).1 ≠ uuid)
      (refund tuple size (usage.purge uuid) (rows.filter fun r => (tuple r).1 = uuid)) where
  used := by
    intro t u found
    rw [find_refund, Option.map_eq_some_iff] at found
    obtain ⟨before, here, rfl⟩ := found
    rw [Usage.find_purge] at here
    split at here
    · cases here
    · rename_i kept
      have gone : bytesOf tuple size (rows.filter fun r => (tuple r).1 = uuid) t = 0 := by
        apply bytesOf_eq_zero
        intro r mem same
        have : (tuple r).1 = uuid := by simpa using List.of_mem_filter mem
        exact kept (same ▸ this)
      have := balanced.used t before here
      rw [bytesOf_split fun r => (tuple r).1 = uuid, gone] at this
      simp only [gone, this]
      simp
  registered := by
    intro r mem
    have kept : (tuple r).1 ≠ uuid := by simpa using List.of_mem_filter mem
    rw [find_refund, Option.isSome_map, Usage.find_purge, if_neg kept]
    exact balanced.registered r (List.mem_of_mem_filter mem)

end

end OxidHome.Storage

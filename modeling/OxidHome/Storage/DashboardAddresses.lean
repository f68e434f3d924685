import OxidHome.Storage.Dashboards

/-!
# Dashboard addresses

The table with its history: `made` lists the id and the owner that each create returned, `maker`
says which create made the row that has an id now.
-/

namespace OxidHome.Storage
open Library DashboardTable

def Accepts (rows : DashboardTable) : DashboardRequest → Prop
  | .create disk _ input => disk = true ∧ checkCaps input = .ok () ∧
      rows.ownedBy input.ownerUserId < MAX_DASHBOARDS_PER_OWNER
  | _ => False

inductive Performed (rows : DashboardTable) :
    DashboardRequest → DashboardAnswer → DashboardTable → Prop where
  | refused (request : DashboardRequest) (err : DashboardError) (fails : ¬ Accepts rows request) :
      Performed rows request (.refused err) rows
  | created (now : Int) (input : DashboardInput) (row : Dashboard)
      (accepted : Accepts rows (.create true now input))
      (id : row.id = rows.nextRowid) (owner : row.ownerUserId = input.ownerUserId) :
      Performed rows (.create true now input) (.written row) (rows ++ [row])
  | read (id : Int) (owner : String) :
      Performed rows (.get true id owner) (.read (rows.find? (addressed id owner))) rows
  | updated (now id : Int) (owner : String) (input : DashboardInput) (row : Dashboard)
      (found : rows.find? (addressed id owner) = some row) :
      Performed rows (.update true now id owner input) (.written (rewrite now input row))
        (rows.map fun row => if addressed id owner row then rewrite now input row else row)
  | deleted (id : Int) (owner : String) :
      Performed rows (.delete true id owner) (.deleted (rows.any (addressed id owner)))
        (rows.filter (!addressed id owner ·))

theorem perform_spec (rows : DashboardTable) (request : DashboardRequest) :
    Performed rows request (request.perform rows).1 (request.perform rows).2 := by
  cases request with
  | create disk now input =>
      cases caps : checkCaps input with
      | error err =>
          simp only [DashboardRequest.perform, create, caps]
          exact .refused _ err (by simp [Accepts, caps])
      | ok _ =>
          simp only [DashboardRequest.perform, create, caps]
          cases disk with
          | false => exact .refused _ _ (by simp [Accepts])
          | true =>
              by_cases full : rows.ownedBy input.ownerUserId ≥ MAX_DASHBOARDS_PER_OWNER
              · simp only [Bool.not_true, Bool.false_eq_true, if_false, if_pos full]
                exact .refused _ _ fun accepted => Nat.not_lt.mpr full accepted.2.2
              · simp only [Bool.not_true, Bool.false_eq_true, if_false, if_neg full]
                exact .created now input _ ⟨rfl, caps, Nat.not_le.mp full⟩ rfl rfl
  | get disk id owner =>
      cases disk with
      | false => exact .refused _ _ fun accepted => accepted
      | true => exact .read id owner
  | update disk now id owner input =>
      cases caps : checkCaps input with
      | error err =>
          simp only [DashboardRequest.perform, updateOwned, caps]
          exact .refused _ err fun accepted => accepted
      | ok _ =>
          simp only [DashboardRequest.perform, updateOwned, caps]
          cases disk with
          | false => exact .refused _ _ fun accepted => accepted
          | true =>
              cases found : rows.find? (addressed id owner) with
              | none => exact .refused _ _ fun accepted => accepted
              | some row => exact .updated now id owner input row found
  | delete disk id owner =>
      cases disk with
      | false => exact .refused _ _ fun accepted => accepted
      | true => exact .deleted id owner

structure Dashboards where
  rows : DashboardTable
  made : List (Int × String)
  maker : Int → Option Nat

namespace Dashboards

def new : Dashboards := ⟨[], [], fun _ => none⟩

def step (s : Dashboards) (request : DashboardRequest) : Option Dashboards :=
  let (answer, rows) := request.perform s.rows
  match request, answer with
  | .create _ _ _, .written row => some ⟨rows, s.made ++ [(row.id, row.ownerUserId)],
      Function.update s.maker row.id (some s.made.length)⟩
  | .delete _ id _, .deleted true => some ⟨rows, s.made, Function.update s.maker id none⟩
  | _, _ => some { s with rows := rows }

/-- What clients may rely on. `own`: an operation with the address that create `k` returned meets
the row of `k` or no row, and leaves every other row as it was. -/
structure Correct (s : Dashboards) : Prop where
  own : ∀ k id owner, s.made[k]? = some (id, owner) →
    ∀ request : DashboardRequest, request.address = some (id, owner) →
      (s.maker id ≠ some k → (request.perform s.rows).1.MetNone) ∧
      ∀ row, s.maker row.id ≠ some k → (row ∈ (request.perform s.rows).2 ↔ row ∈ s.rows)
  others : ∀ (request : DashboardRequest) owner, owner ≠ request.owner →
    (request.perform s.rows).2.filter (·.ownerUserId = owner) =
      s.rows.filter (·.ownerUserId = owner)
  quota : ∀ owner, s.rows.ownedBy owner ≤ MAX_DASHBOARDS_PER_OWNER
  refused : ∀ (request : DashboardRequest), (request.perform s.rows).1.MetNone →
    (request.perform s.rows).2 = s.rows

/-- An accepted create whose rowid was returned to the same owner before. -/
def Recycles (s : Dashboards) (request : DashboardRequest) : Prop :=
  Accepts s.rows request ∧ (s.rows.nextRowid, request.owner) ∈ s.made

structure Kept (s : Dashboards) : Prop where
  ids : (s.rows.map Dashboard.id).Nodup
  makers : ∀ row ∈ s.rows, ∃ k, s.maker row.id = some k ∧
    s.made[k]? = some (row.id, row.ownerUserId)
  quota : ∀ owner, s.rows.ownedBy owner ≤ MAX_DASHBOARDS_PER_OWNER

def Unambiguous (s : Dashboards) : Prop :=
  ∀ k id owner, s.made[k]? = some (id, owner) →
    ∀ row ∈ s.rows, addressed id owner row = true → s.maker id = some k

theorem not_addressed {s : Dashboards} (clear : s.Unambiguous) {k : Nat} {id : Int} {owner : String}
    (made : s.made[k]? = some (id, owner)) {row : Dashboard} (mem : row ∈ s.rows)
    (other : s.maker row.id ≠ some k) : addressed id owner row = false := by
  cases hit : addressed id owner row with
  | false => rfl
  | true =>
      have here := clear k id owner made row mem hit
      rw [(addressed_iff.mp hit).1] at other
      exact absurd here other

theorem unambiguous_own {s : Dashboards} (clear : s.Unambiguous) {k : Nat} {id : Int} {owner : String}
    (made : s.made[k]? = some (id, owner)) {request : DashboardRequest}
    (address : request.address = some (id, owner)) :
    (s.maker id ≠ some k → (request.perform s.rows).1.MetNone) ∧
    ∀ row, s.maker row.id ≠ some k → (row ∈ (request.perform s.rows).2 ↔ row ∈ s.rows) := by
  have missing : s.maker id ≠ some k → ∀ row ∈ s.rows, addressed id owner row = false := by
    intro other row mem
    cases hit : addressed id owner row with
    | false => rfl
    | true => exact absurd (clear k id owner made row mem hit) other
  have spec := perform_spec s.rows request
  generalize request.perform s.rows = result at spec ⊢
  obtain ⟨answer, after⟩ := result
  cases spec with
  | refused request err fails => exact ⟨fun _ => trivial, fun _ _ => Iff.rfl⟩
  | created => cases address
  | read id' owner' =>
      cases address
      refine ⟨fun other => ?_, fun _ _ => Iff.rfl⟩
      exact List.find?_eq_none.mpr fun row mem => by simp [missing other row mem]
  | updated now id' owner' input row found =>
      cases address
      constructor
      · intro other
        have mem := List.mem_of_find?_eq_some found
        have hit := List.find?_some found
        rw [missing other row mem] at hit
        cases hit
      · intro kept other
        rw [List.mem_map]
        constructor
        · rintro ⟨before, mem, rfl⟩
          cases hit : addressed id owner before with
          | false => simpa [hit] using mem
          | true =>
              rw [if_pos hit] at other
              exact absurd (not_addressed clear made mem other) (by simp [hit])
        · intro mem
          exact ⟨kept, mem, by simp [not_addressed clear made mem other]⟩
  | deleted id' owner' =>
      cases address
      constructor
      · intro other
        exact List.any_eq_false.mpr fun row mem => by simp [missing other row mem]
      · intro kept other
        rw [List.mem_filter]
        constructor
        · exact And.left
        · intro mem
          exact ⟨mem, by simp [not_addressed clear made mem other]⟩

theorem filter_rewritten (rows : DashboardTable) (now id : Int) (input : DashboardInput)
    {owner other : String} (apart : other ≠ owner) :
    (rows.map fun row => if addressed id owner row then rewrite now input row else row).filter
      (·.ownerUserId = other) = rows.filter (·.ownerUserId = other) := by
  induction rows with
  | nil => rfl
  | cons row rows ih =>
      rw [List.map_cons]
      cases hit : addressed id owner row with
      | false => simp only [Bool.false_eq_true, if_false, List.filter_cons, ih]
      | true =>
          have owned : row.ownerUserId ≠ other := by
            rw [(addressed_iff.mp hit).2]
            exact apart.symm
          simpa [rewrite, owned] using ih

theorem filter_kept (rows : DashboardTable) (id : Int) {owner other : String}
    (apart : other ≠ owner) :
    (rows.filter (!addressed id owner ·)).filter (·.ownerUserId = other) =
      rows.filter (·.ownerUserId = other) := by
  rw [List.filter_filter]
  apply List.filter_congr
  intro row mem
  by_cases owned : row.ownerUserId = other
  · have : row.ownerUserId ≠ owner := by rw [owned]; exact apart
    simp [addressed, this]
  · simp [owned]

theorem perform_others (rows : DashboardTable) (request : DashboardRequest) (owner : String)
    (apart : owner ≠ request.owner) :
    (request.perform rows).2.filter (·.ownerUserId = owner) =
      rows.filter (·.ownerUserId = owner) := by
  have spec := perform_spec rows request
  generalize request.perform rows = result at spec ⊢
  obtain ⟨answer, after⟩ := result
  dsimp only at spec ⊢
  cases spec with
  | refused => rfl
  | created now input row accepted id owned =>
      have other : row.ownerUserId ≠ owner := by rw [owned]; exact apart.symm
      simp [other]
  | read => rfl
  | updated now id owner' input row found => exact filter_rewritten rows now id input apart
  | deleted id owner' => exact filter_kept rows id apart

theorem perform_refused (rows : DashboardTable) (request : DashboardRequest)
    (none : (request.perform rows).1.MetNone) : (request.perform rows).2 = rows := by
  have spec := perform_spec rows request
  generalize request.perform rows = result at spec none ⊢
  obtain ⟨answer, after⟩ := result
  dsimp only at spec none ⊢
  cases spec with
  | refused => rfl
  | created => cases none
  | read => rfl
  | updated => cases none
  | deleted id owner =>
      apply List.filter_eq_self.mpr
      intro row mem
      simp [List.any_eq_false.mp none row mem]

theorem correct_iff {s : Dashboards} (kept : s.Kept) : s.Correct ↔ s.Unambiguous := by
  constructor
  · intro correct k id owner made row mem hit
    by_contra other
    have none : s.rows.find? (addressed id owner) = none :=
      (correct.own k id owner made (.get true id owner) rfl).1 other
    exact List.find?_eq_none.mp none row mem hit
  · intro clear
    exact {
      own := fun k id owner made request address => unambiguous_own clear made address
      others := perform_others s.rows
      quota := kept.quota
      refused := perform_refused s.rows }

/-! ## Runs -/

inductive Moved (s : Dashboards) : DashboardRequest → Dashboards → Prop where
  | same (request : DashboardRequest) (fails : ¬ Accepts s.rows request) : Moved s request s
  | created (now : Int) (input : DashboardInput) (row : Dashboard)
      (accepted : Accepts s.rows (.create true now input))
      (rowid : row.id = s.rows.nextRowid) (owned : row.ownerUserId = input.ownerUserId) :
      Moved s (.create true now input) ⟨s.rows ++ [row], s.made ++ [(row.id, row.ownerUserId)],
        Function.update s.maker row.id (some s.made.length)⟩
  | updated (now id : Int) (owner : String) (input : DashboardInput) :
      Moved s (.update true now id owner input)
        ⟨s.rows.map fun row => if addressed id owner row then rewrite now input row else row,
          s.made, s.maker⟩
  | deleted (id : Int) (owner : String) (row : Dashboard) (mem : row ∈ s.rows)
      (hit : addressed id owner row = true) :
      Moved s (.delete true id owner) ⟨s.rows.filter (!addressed id owner ·), s.made,
        Function.update s.maker id none⟩

theorem step_moved {s t : Dashboards} {request : DashboardRequest}
    (taken : s.step request = some t) : Moved s request t := by
  have spec := perform_spec s.rows request
  unfold step at taken
  generalize request.perform s.rows = result at spec taken
  obtain ⟨answer, after⟩ := result
  dsimp only at spec taken
  cases spec with
  | refused request err fails =>
      have same : some s = some t := by
        cases request <;> exact taken
      cases same
      exact .same request fails
  | created now input row accepted id owned =>
      cases taken
      exact .created now input row accepted id owned
  | read id owner =>
      cases taken
      exact .same _ fun accepted => accepted
  | updated now id owner input row found =>
      cases taken
      exact .updated now id owner input
  | deleted id owner =>
      cases found : s.rows.any (addressed id owner) with
      | true =>
          rw [found] at taken
          cases taken
          obtain ⟨row, mem, hit⟩ := List.any_eq_true.mp found
          exact .deleted id owner row mem hit
      | false =>
          rw [found] at taken
          have untouched : s.rows.filter (!addressed id owner ·) = s.rows := by
            apply List.filter_eq_self.mpr
            intro row mem
            simp [List.any_eq_false.mp found row mem]
          rw [untouched] at taken
          cases taken
          exact .same _ fun accepted => accepted

theorem ids_rewritten (rows : DashboardTable) (now id : Int) (owner : String)
    (input : DashboardInput) :
    (rows.map fun row => if addressed id owner row = true then rewrite now input row else row).map
      Dashboard.id = rows.map Dashboard.id := by
  rw [List.map_map]
  apply List.map_congr_left
  intro row mem
  show (if addressed id owner row = true then rewrite now input row else row).id = row.id
  split <;> rfl

theorem owned_rewritten (rows : DashboardTable) (now id : Int) (owner other : String)
    (input : DashboardInput) :
    ownedBy (rows.map fun row => if addressed id owner row = true then rewrite now input row else row)
      other = rows.ownedBy other := by
  rw [ownedBy, List.countP_map]
  apply List.countP_congr
  intro row mem
  show _ ↔ _
  simp only [Function.comp_apply]
  split <;> rfl

theorem new_kept : new.Kept where
  ids := List.nodup_nil
  makers := by simp [new]
  quota := by simp [new, ownedBy]

theorem other_id {s : Dashboards} (kept : s.Kept) {id : Int} {owner : String} {row other : Dashboard}
    (mem : row ∈ s.rows) (hit : addressed id owner row = true) (memOther : other ∈ s.rows)
    (missed : addressed id owner other = false) : other.id ≠ id := by
  intro same
  have named := (addressed_iff.mp hit).1
  obtain rfl := List.inj_on_of_nodup_map kept.ids memOther mem (same.trans named.symm)
  rw [hit] at missed
  cases missed

theorem step_kept {s t : Dashboards} {request : DashboardRequest} (kept : s.Kept)
    (moved : Moved s request t) : t.Kept := by
  cases moved with
  | same => exact kept
  | created now input row accepted rowid owned =>
      have fresh : ∀ old ∈ s.rows, old.id ≠ row.id := by
        intro old mem
        rw [rowid]
        exact (lt_nextRowid mem).ne
      constructor
      case ids =>
        rw [List.map_append, List.map_singleton]
        refine List.Nodup.append kept.ids (List.nodup_singleton _) ?_
        rw [List.disjoint_singleton, List.mem_map]
        intro ⟨old, mem, same⟩
        exact fresh old mem same
      case makers =>
        intro found mem
        rcases List.mem_append.mp mem with old | new
        · obtain ⟨k, maker, made⟩ := kept.makers found old
          refine ⟨k, ?_, row_concat.mpr (.inl made)⟩
          rw [← maker]
          exact Function.update_of_ne (fresh found old) _ _
        · obtain rfl := List.mem_singleton.mp new
          exact ⟨s.made.length, Function.update_self _ _ _, row_concat.mpr (.inr ⟨rfl, rfl⟩)⟩
      case quota =>
        intro owner
        have before := kept.quota owner
        have room := accepted.2.2
        simp only [ownedBy, List.countP_append, List.countP_singleton] at before room ⊢
        by_cases same : row.ownerUserId = owner
        · rw [← owned, same] at room
          simp only [same, decide_true, if_true]
          exact room
        · simpa [same] using before
  | updated now id owner input =>
      constructor
      case ids => rw [ids_rewritten]; exact kept.ids
      case makers =>
        intro found mem
        obtain ⟨row, before, rfl⟩ := List.mem_map.mp mem
        have made := kept.makers row before
        split <;> exact made
      case quota =>
        intro other
        rw [owned_rewritten]
        exact kept.quota other
  | deleted id owner row mem hit =>
      constructor
      case ids => exact kept.ids.sublist (List.filter_sublist.map _)
      case makers =>
        intro found left
        obtain ⟨memFound, missed⟩ := List.mem_filter.mp left
        obtain ⟨k, maker, made⟩ := kept.makers found memFound
        refine ⟨k, ?_, made⟩
        rw [← maker]
        exact Function.update_of_ne (other_id kept mem hit memFound (by simpa using missed)) _ _
      case quota =>
        intro other
        exact List.filter_sublist.countP_le.trans (kept.quota other)

theorem step_unambiguous {s t : Dashboards} {request : DashboardRequest} (kept : s.Kept)
    (clear : s.Unambiguous) (moved : Moved s request t) : t.Unambiguous ↔ ¬ s.Recycles request := by
  cases moved with
  | same request fails => exact ⟨fun _ recycles => fails recycles.1, fun _ => clear⟩
  | created now input row accepted rowid owned =>
      constructor
      · intro still recycles
        obtain ⟨k, made⟩ := List.mem_iff_getElem?.mp recycles.2
        have again : addressed s.rows.nextRowid input.ownerUserId row = true :=
          addressed_iff.mpr ⟨rowid, owned⟩
        have maker := still k _ _ (row_concat.mpr (.inl made)) row (by simp) again
        have latest : Function.update s.maker row.id (some s.made.length) s.rows.nextRowid =
            some s.made.length := by
          rw [← rowid]
          exact Function.update_self _ _ _
        have same : s.made.length = k := Option.some.inj (latest.symm.trans maker)
        exact absurd (row_lt made) (by omega)
      · intro fresh k id owner made found mem hit
        obtain ⟨named, of_owner⟩ := addressed_iff.mp hit
        rcases List.mem_append.mp mem with old | new
        · have apart : id ≠ row.id := by
            rw [← named, rowid]
            exact (lt_nextRowid old).ne
          rcases row_concat.mp made with before | ⟨rfl, same⟩
          · show Function.update s.maker row.id (some s.made.length) id = some k
            rw [Function.update_of_ne apart]
            exact clear k id owner before found old hit
          · exact absurd (congrArg Prod.fst same).symm apart
        · obtain rfl := List.mem_singleton.mp new
          rcases row_concat.mp made with before | ⟨rfl, -⟩
          · have again : (s.rows.nextRowid, input.ownerUserId) ∈ s.made := by
              rw [← rowid, ← owned, named, of_owner]
              exact List.mem_iff_getElem?.mpr ⟨k, before⟩
            exact absurd ⟨accepted, again⟩ fresh
          · rw [← named]
            exact Function.update_self _ _ _
  | updated now id owner input =>
      refine ⟨fun _ recycles => recycles.1, fun _ => ?_⟩
      intro k id' owner' made found mem hit
      obtain ⟨row, before, rfl⟩ := List.mem_map.mp mem
      refine clear k id' owner' made row before ?_
      split at hit <;> exact hit
  | deleted id owner row mem hit =>
      refine ⟨fun _ recycles => recycles.1, fun _ => ?_⟩
      intro k id' owner' made found left hit'
      obtain ⟨memFound, missed⟩ := List.mem_filter.mp left
      have maker := clear k id' owner' made found memFound hit'
      have apart : id' ≠ id := by
        rw [← (addressed_iff.mp hit').1]
        exact other_id kept mem hit memFound (by simpa using missed)
      show Function.update s.maker id none id' = some k
      rwa [Function.update_of_ne apart]

theorem exec_kept {s : Dashboards} {requests : List DashboardRequest}
    (run : exec step new requests = some s) : s.Kept :=
  exec_invariant (fun _ _ _ kept taken => step_kept kept (step_moved taken)) new_kept run

theorem dashboard_addresses (requests : List DashboardRequest) :
    (∀ before, before <+: requests → ∀ s, exec step new before = some s → s.Correct) ↔
      ∀ before request, before ++ [request] <+: requests → ∀ s t,
        exec step new before = some s → s.step request = some t → ¬ s.Recycles request := by
  have start : ¬ ¬ new.Correct := by
    rw [not_not, correct_iff new_kept]
    intro k id owner made
    cases made
  have fault : ∀ before s request t, exec step new before = some s → ¬ ¬ s.Correct →
      step s request = some t → (¬ t.Correct ↔ s.Recycles request) := by
    intro before s request t run correct taken
    have kept := exec_kept run
    have moved := step_moved taken
    rw [not_not, correct_iff kept] at correct
    rw [correct_iff (step_kept kept moved), step_unambiguous kept correct moved, not_not]
  simpa only [not_not] using
    exec_faultless (B := fun s : Dashboards => ¬ s.Correct) start fault requests

def home : DashboardInput := ⟨"home", "admin", [], 1⟩

theorem recycled_address :
    ¬ ∀ requests s, exec step new requests = some s → s.Correct := by
  intro stable
  have reused : ∃ s, exec step new [.create true 0 home, .delete true 1 "admin",
      .create true 0 home] = some s ∧ s.made[0]? = some (1, "admin") ∧ s.maker 1 = some 1 ∧
      (s.rows.getOwned true 1 "admin").toOption.join.map Dashboard.id = some 1 :=
    ⟨_, rfl, rfl, rfl, rfl⟩
  obtain ⟨s, run, made, maker, met⟩ := reused
  have correct := stable _ s run
  have missed := (correct.own 0 1 "admin" made (.get true 1 "admin") rfl).1 (by simp [maker])
  have absent : s.rows.find? (addressed 1 "admin") = none := missed
  simp [getOwned, absent, Except.toOption] at met

end Dashboards
end OxidHome.Storage

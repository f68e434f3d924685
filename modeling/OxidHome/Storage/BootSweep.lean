import OxidHome.Library.Machine

/-!
# Migrations and the blob sweep

`Db::initialize`, `apply_migrations` and the sweep of `Engine::with_state_dir`, over what outlives a
process: the database and the entries of `<state_dir>/blobs/`. Every migration transaction and every
removed directory is a step, and a boot can fail or crash between any two.
-/

namespace OxidHome.Storage
open Library

/-! ## Boots -/

def migrationCount : Nat := 15

def MIGRATION_14 : Int := 14

structure BlobEntry where
  name : String
  /-- `remove_dir_all` fails on what is not a directory. -/
  isFile : Bool
  /-- The entry was there when migration 14 was committed. -/
  legacy : Bool
  /-- `BlobStore::write` has put a blob under it since. -/
  written : Bool
deriving DecidableEq

structure StateDir where
  userVersion : Int
  /-- The migrations in the order in which they took effect. -/
  applied : List Nat
  /-- `none` where there is no `blobs` directory. -/
  blobs : Option (List BlobEntry)

namespace StateDir

def entries (d : StateDir) : List BlobEntry := d.blobs.getD []

/-- The transaction of `MIGRATIONS[next]`. -/
def migrate (d : StateDir) (next : Nat) : StateDir :=
  { userVersion := (next + 1 : Nat)
    applied := d.applied ++ [next]
    blobs :=
      if ((next + 1 : Nat) : Int) = MIGRATION_14 then
        d.blobs.map fun entries => entries.map fun e => { e with legacy := true }
      else d.blobs }

def remove (d : StateDir) (name : String) : StateDir :=
  { d with blobs := d.blobs.map fun entries => entries.filter (·.name ≠ name) }

/-- `BlobStore::write` creates the directory of the installation where it is missing. -/
def write (d : StateDir) (installationUuid : String) : StateDir :=
  if d.entries.any (·.name = installationUuid) then
    { d with blobs := d.blobs.map fun entries => entries.map fun e =>
        if e.name = installationUuid then { e with written := true } else e }
  else { d with blobs := some (d.entries ++ [⟨installationUuid, false, false, true⟩]) }

end StateDir

inductive Boot where
  | down
  | migrating (preOpenUserVersion : Int) (next : Nat)
  | sweeping (todo : List String)
  | scanning
  | running

structure BootState where
  disk : StateDir
  boot : Boot

inductive BootAction where
  | open_
  | migrate
  | migrated
  | remove (name : String)
  | swept
  | scanned
  | fail
  | write (installationUuid : String)
  | purge (installationUuid : String)

/-- A negative `user_version` fails the boot. -/
def initialize_ (d : StateDir) : Boot :=
  if 0 ≤ d.userVersion then .migrating d.userVersion d.userVersion.toNat else .down

/-- The guard of the sweep, and `read_dir`. -/
def sweepAllBlobDirs (d : StateDir) (preOpenUserVersion : Int) : Boot :=
  if preOpenUserVersion < MIGRATION_14 then
    match d.blobs with
    | none => .scanning
    | some entries => .sweeping (entries.map BlobEntry.name)
  else .scanning

def bootStep (s : BootState) : BootAction → Option BootState
  | .open_ =>
      match s.boot with
      | .down => some ⟨s.disk, initialize_ s.disk⟩
      | _ => none
  | .migrate =>
      match s.boot with
      | .migrating pre next =>
          if next < migrationCount then some ⟨s.disk.migrate next, .migrating pre (next + 1)⟩
          else none
      | _ => none
  | .migrated =>
      match s.boot with
      | .migrating pre next =>
          if next < migrationCount then none else some ⟨s.disk, sweepAllBlobDirs s.disk pre⟩
      | _ => none
  | .remove name =>
      match s.boot with
      | .sweeping todo =>
          if name ∈ todo ∧ ∀ e ∈ s.disk.entries, e.name = name → e.isFile = false then
            some ⟨s.disk.remove name, .sweeping (todo.filter (· ≠ name))⟩
          else none
      | _ => none
  | .swept =>
      match s.boot with
      | .sweeping [] => some ⟨s.disk, .scanning⟩
      | _ => none
  | .scanned =>
      match s.boot with
      | .scanning => some ⟨s.disk, .running⟩
      | _ => none
  | .fail => some ⟨s.disk, .down⟩
  | .write uuid =>
      match s.boot with
      | .running => some ⟨s.disk.write uuid, .running⟩
      | _ => none
  | .purge uuid =>
      match s.boot with
      | .running => some ⟨s.disk.remove uuid, .running⟩
      | _ => none

/-- What a first boot can find. -/
structure StateDir.Found (d : StateDir) : Prop where
  applied : d.applied = List.range d.userVersion.toNat
  legacy : ∀ e ∈ d.entries, e.legacy = false
  written : d.userVersion < MIGRATION_14 → ∀ e ∈ d.entries, e.written = false

/-! ## What a step does -/

section
variable {s t : BootState}

/-- The boot has seen a version before migration 14, and has not finished the sweep. -/
def Boot.Sweeps : Boot → Prop
  | .migrating pre _ => pre < MIGRATION_14
  | .sweeping _ => True
  | _ => False

inductive BootMoved (s : BootState) : BootAction → BootState → Prop
  | opened (down : s.boot = .down) : BootMoved s .open_ ⟨s.disk, initialize_ s.disk⟩
  | migrate {pre next} (boot : s.boot = .migrating pre next) (pending : next < migrationCount) :
      BootMoved s .migrate ⟨s.disk.migrate next, .migrating pre (next + 1)⟩
  | migrated {pre next} (boot : s.boot = .migrating pre next) (done : migrationCount ≤ next) :
      BootMoved s .migrated ⟨s.disk, sweepAllBlobDirs s.disk pre⟩
  | removed {name todo} (boot : s.boot = .sweeping todo) (mem : name ∈ todo) :
      BootMoved s (.remove name) ⟨s.disk.remove name, .sweeping (todo.filter (· ≠ name))⟩
  | swept (boot : s.boot = .sweeping []) : BootMoved s .swept ⟨s.disk, .scanning⟩
  | scanned (boot : s.boot = .scanning) : BootMoved s .scanned ⟨s.disk, .running⟩
  | failed : BootMoved s .fail ⟨s.disk, .down⟩
  | wrote {uuid} (boot : s.boot = .running) : BootMoved s (.write uuid) ⟨s.disk.write uuid, .running⟩
  | purged {uuid} (boot : s.boot = .running) :
      BootMoved s (.purge uuid) ⟨s.disk.remove uuid, .running⟩

theorem bootStep_moved {a : BootAction} (h : bootStep s a = some t) : BootMoved s a t := by
  cases a with
  | fail =>
      cases h
      exact .failed
  | open_ =>
      simp only [bootStep] at h
      split at h
      · rename_i boot
        cases h
        exact .opened boot
      · cases h
  | migrate =>
      simp only [bootStep] at h
      split at h
      · rename_i pre next boot
        split_ifs at h with pending
        cases h
        exact .migrate boot pending
      · cases h
  | migrated =>
      simp only [bootStep] at h
      split at h
      · rename_i pre next boot
        split_ifs at h with pending
        cases h
        exact .migrated boot (not_lt.mp pending)
      · cases h
  | remove name =>
      simp only [bootStep] at h
      split at h
      · rename_i todo boot
        split_ifs at h with listed
        cases h
        exact .removed boot listed.1
      · cases h
  | swept =>
      simp only [bootStep] at h
      split at h
      · rename_i boot
        cases h
        exact .swept boot
      · cases h
  | scanned =>
      simp only [bootStep] at h
      split at h
      · rename_i boot
        cases h
        exact .scanned boot
      · cases h
  | write uuid =>
      simp only [bootStep] at h
      split at h
      · rename_i boot
        cases h
        exact .wrote boot
      · cases h
  | purge uuid =>
      simp only [bootStep] at h
      split at h
      · rename_i boot
        cases h
        exact .purged boot
      · cases h

end

namespace StateDir
variable {d : StateDir} {e : BlobEntry}

theorem mem_entries_remove {name : String} :
    e ∈ (d.remove name).entries ↔ e ∈ d.entries ∧ e.name ≠ name := by
  cases blobs : d.blobs <;> simp [entries, remove, blobs]

theorem entries_migrate {next : Nat} :
    (d.migrate next).entries =
      if ((next + 1 : Nat) : Int) = MIGRATION_14 then
        d.entries.map fun e => { e with legacy := true }
      else d.entries := by
  cases blobs : d.blobs <;> simp only [entries, migrate, blobs] <;> split <;> rfl

theorem written_migrate {next : Nat} (unwritten : ∀ e ∈ d.entries, e.written = false) :
    ∀ e ∈ (d.migrate next).entries, e.written = false := by
  intro e mem
  rw [entries_migrate] at mem
  split at mem
  · obtain ⟨e', before, rfl⟩ := List.mem_map.mp mem
    exact unwritten e' before
  · exact unwritten e mem

theorem legacy_write {uuid : String} (clear : ∀ e ∈ d.entries, e.legacy = false) :
    ∀ e ∈ (d.write uuid).entries, e.legacy = false := by
  intro e mem
  unfold write at mem
  split at mem
  · cases blobs : d.blobs with
    | none => simp [entries, blobs] at mem
    | some found =>
        simp only [entries, blobs, Option.map_some, Option.getD_some, List.mem_map] at mem clear
        obtain ⟨e', mem, rfl⟩ := mem
        split
        all_goals exact clear e' mem
  · simp only [entries, Option.getD_some, List.mem_append, List.mem_singleton] at mem clear
    rcases mem with mem | rfl
    · exact clear e mem
    · rfl

@[simp] theorem userVersion_write {uuid : String} :
    (d.write uuid).userVersion = d.userVersion := by
  unfold write
  split <;> rfl

@[simp] theorem applied_write {uuid : String} : (d.write uuid).applied = d.applied := by
  unfold write
  split <;> rfl

end StateDir

/-! ## Every migration once and in order -/

def Boot.Settled : Boot → Prop
  | .down | .migrating .. => False
  | .sweeping _ | .scanning | .running => True

structure Sound (s : BootState) : Prop where
  applied : s.disk.applied = List.range s.disk.userVersion.toNat
  migrating : ∀ pre next, s.boot = .migrating pre next → s.disk.userVersion = next ∧ pre ≤ next
  settled : s.boot.Settled → (migrationCount : Int) ≤ s.disk.userVersion
  written : s.boot.Sweeps ∨ s.disk.userVersion < MIGRATION_14 →
    ∀ e ∈ s.disk.entries, e.written = false
  legacy : s.disk.userVersion < MIGRATION_14 → ∀ e ∈ s.disk.entries, e.legacy = false

theorem sweepAllBlobDirs_sweeps {d : StateDir} {pre : Int}
    (sweeps : (sweepAllBlobDirs d pre).Sweeps) : pre < MIGRATION_14 := by
  unfold sweepAllBlobDirs at sweeps
  split at sweeps
  · assumption
  · cases sweeps

theorem sweepAllBlobDirs_not_migrating {d : StateDir} {pre pre' : Int} {next : Nat} :
    sweepAllBlobDirs d pre ≠ .migrating pre' next := by
  unfold sweepAllBlobDirs
  split
  · split <;> exact Boot.noConfusion
  · exact Boot.noConfusion

theorem initialize_sweeps {d : StateDir} (sweeps : (initialize_ d).Sweeps) :
    d.userVersion < MIGRATION_14 := by
  unfold initialize_ at sweeps
  split at sweeps
  · exact sweeps
  · cases sweeps

theorem Sound.moved {s t : BootState} {a : BootAction} (sound : Sound s) (moved : BootMoved s a t) :
    Sound t := by
  cases moved with
  | opened down =>
      refine ⟨sound.applied, fun pre next boot => ?_, fun settled => ?_, fun may => ?_, sound.legacy⟩
      · simp only [initialize_] at boot
        split at boot
        · cases boot
          simp only
          omega
        · cases boot
      · simp only [initialize_] at settled
        split at settled
        all_goals cases settled
      · exact sound.written (.inr (may.elim initialize_sweeps id))
  | @migrate pre next boot pending =>
      obtain ⟨version, lower⟩ := sound.migrating pre next boot
      refine ⟨?_, fun pre' next' same => ?_, fun settled => settled.elim, fun may => ?_,
        fun early => ?_⟩
      · simp only [StateDir.migrate, sound.applied, version, Int.toNat_natCast, List.range_succ]
      · cases same
        exact ⟨rfl, by push_cast; omega⟩
      · apply StateDir.written_migrate
        apply sound.written
        rcases may with sweeps | early
        · left
          rw [boot]
          exact sweeps
        · right
          simp only [StateDir.migrate] at early
          rw [version]
          push_cast at early
          omega
      · have before : s.disk.userVersion < MIGRATION_14 := by
          simp only [StateDir.migrate] at early
          rw [version]
          push_cast at early
          omega
        simp only at early ⊢
        rw [StateDir.entries_migrate, if_neg (by simpa [StateDir.migrate] using early.ne)]
        exact sound.legacy before
  | @migrated pre next boot done =>
      obtain ⟨version, lower⟩ := sound.migrating pre next boot
      refine ⟨sound.applied, fun pre' next' same => ?_, fun _ => ?_, fun may => ?_, sound.legacy⟩
      · exact absurd same sweepAllBlobDirs_not_migrating
      · simp only [version]
        exact_mod_cast done
      · apply sound.written
        rcases may with sweeps | early
        · left
          rw [boot]
          exact sweepAllBlobDirs_sweeps sweeps
        · exact .inr early
  | @removed name todo boot mem =>
      refine ⟨sound.applied, nofun, fun _ => ?_, fun _ e mem => ?_,
        fun early e mem => ?_⟩
      · exact sound.settled (by rw [boot]; trivial)
      · exact sound.written (.inl (by rw [boot]; trivial)) e (StateDir.mem_entries_remove.mp mem).1
      · exact sound.legacy early e (StateDir.mem_entries_remove.mp mem).1
  | swept boot =>
      have version := sound.settled (by rw [boot]; trivial)
      exact ⟨sound.applied, nofun, fun _ => version,
        fun may => sound.written (.inr (may.resolve_left id)), sound.legacy⟩
  | scanned boot =>
      have version := sound.settled (by rw [boot]; trivial)
      exact ⟨sound.applied, nofun, fun _ => version,
        fun may => sound.written (.inr (may.resolve_left id)), sound.legacy⟩
  | failed =>
      exact ⟨sound.applied, nofun, fun settled => settled.elim,
        fun may => sound.written (.inr (may.resolve_left id)), sound.legacy⟩
  | @wrote uuid boot =>
      have version := sound.settled (by rw [boot]; trivial)
      have late : ¬ s.disk.userVersion < MIGRATION_14 := by
        simp only [migrationCount, MIGRATION_14] at version ⊢
        omega
      refine ⟨?_, nofun, fun _ => ?_, fun may => ?_, fun early => ?_⟩
      · simpa using sound.applied
      · simpa using version
      · exact absurd (by simpa using may.resolve_left id) late
      · exact absurd (by simpa using early) late
  | @purged uuid boot =>
      have version := sound.settled (by rw [boot]; trivial)
      have late : ¬ s.disk.userVersion < MIGRATION_14 := by
        simp only [migrationCount, MIGRATION_14] at version ⊢
        omega
      exact ⟨sound.applied, nofun, fun _ => version,
        fun may => absurd (may.resolve_left id) late, fun early => absurd early late⟩

theorem Sound.run {d : StateDir} (found : d.Found) {acts : List BootAction} {t : BootState}
    (reached : exec bootStep ⟨d, .down⟩ acts = some t) : Sound t := by
  apply exec_invariant (fun s a t sound step => sound.moved (bootStep_moved step)) _ reached
  exact ⟨found.applied, nofun, nofun, fun may => found.written (may.resolve_left id),
    fun _ => found.legacy⟩

theorem applied_extends {s t : BootState} {acts : List BootAction}
    (run : exec bootStep s acts = some t) : s.disk.applied <+: t.disk.applied := by
  apply exec_invariant (P := fun t => s.disk.applied <+: t.disk.applied) _ List.prefix_rfl run
  intro t a u extends_ step
  cases bootStep_moved step with
  | migrate => exact extends_.trans (List.prefix_append _ _)
  | wrote => simpa using extends_
  | _ => exact extends_

/-! ## What the sweep leaves -/

def StateDir.HasLegacy (d : StateDir) : Prop := ∃ e ∈ d.entries, e.legacy = true

/-- Migration 14 is committed, and the sweep that reclaims what was there is not at its end. -/
def BootState.Exposed (s : BootState) : Prop := s.disk.HasLegacy ∧ s.boot.Sweeps

def BootState.Swept (s : BootState) : Prop :=
  s.disk.HasLegacy → s.boot.Sweeps ∧
    ∀ todo, s.boot = .sweeping todo → ∀ e ∈ s.disk.entries, e.legacy = true → e.name ∈ todo

/-- Legacy entries that no later boot sweeps. -/
def BootState.Stranded (s : BootState) : Prop :=
  s.disk.HasLegacy ∧ ¬ s.boot.Sweeps ∧ s.boot ≠ .running

theorem sweepAllBlobDirs_of_lt {d : StateDir} {pre : Int} (early : pre < MIGRATION_14)
    (legacy : d.HasLegacy) : sweepAllBlobDirs d pre = .sweeping (d.entries.map BlobEntry.name) := by
  unfold sweepAllBlobDirs
  rw [if_pos early]
  cases blobs : d.blobs with
  | none =>
      obtain ⟨e, mem, -⟩ := legacy
      simp [StateDir.entries, blobs] at mem
  | some found => simp [StateDir.entries, blobs]

theorem hasLegacy_of_remove {d : StateDir} {name : String} (legacy : (d.remove name).HasLegacy) :
    d.HasLegacy := by
  obtain ⟨e, mem, old⟩ := legacy
  exact ⟨e, (StateDir.mem_entries_remove.mp mem).1, old⟩

theorem hasLegacy_of_write {d : StateDir} {uuid : String} (legacy : (d.write uuid).HasLegacy) :
    d.HasLegacy := by
  by_contra none_
  obtain ⟨e, mem, old⟩ := legacy
  have clear : ∀ e ∈ d.entries, e.legacy = false := by
    intro e mem
    by_contra old
    exact none_ ⟨e, mem, by simpa using old⟩
  simp [StateDir.legacy_write clear e mem] at old

theorem hasLegacy_migrate {s : BootState} {pre : Int} {next : Nat} (sound : Sound s)
    (boot : s.boot = .migrating pre next) (legacy : (s.disk.migrate next).HasLegacy) :
    s.disk.HasLegacy ∨ pre < MIGRATION_14 := by
  obtain ⟨e, mem, old⟩ := legacy
  rw [StateDir.entries_migrate] at mem
  split at mem
  · rename_i fourteenth
    right
    have := (sound.migrating pre next boot).2
    rw [← fourteenth]
    push_cast
    omega
  · exact .inl ⟨e, mem, old⟩

theorem BootState.Swept.moved {s t : BootState} {a : BootAction} (sound : Sound s) (swept : s.Swept)
    (spared : ¬ (a = .fail ∧ s.Exposed)) (moved : BootMoved s a t) : t.Swept := by
  cases moved with
  | opened down =>
      intro legacy
      have sweeps := (swept legacy).1
      rw [down] at sweeps
      exact sweeps.elim
  | @migrate pre next boot pending =>
      intro legacy
      refine ⟨?_, nofun⟩
      rcases hasLegacy_migrate sound boot legacy with before | early
      · have sweeps := (swept before).1
        rw [boot] at sweeps
        exact sweeps
      · exact early
  | @migrated pre next boot done =>
      intro legacy
      have early := (swept legacy).1
      rw [boot] at early
      simp only [sweepAllBlobDirs_of_lt early legacy]
      refine ⟨trivial, fun todo same e mem _ => ?_⟩
      cases same
      exact List.mem_map_of_mem mem
  | @removed name todo boot mem =>
      intro legacy
      refine ⟨trivial, fun todo' same e mem old => ?_⟩
      cases same
      obtain ⟨before, other⟩ := StateDir.mem_entries_remove.mp mem
      have listed := (swept (hasLegacy_of_remove legacy)).2 todo boot e before old
      exact List.mem_filter.mpr ⟨listed, by simpa using other⟩
  | swept boot =>
      intro ⟨e, mem, old⟩
      have listed := (swept ⟨e, mem, old⟩).2 [] boot e mem old
      cases listed
  | scanned boot =>
      intro legacy
      have sweeps := (swept legacy).1
      rw [boot] at sweeps
      exact sweeps.elim
  | failed =>
      intro legacy
      exact absurd ⟨rfl, legacy, (swept legacy).1⟩ spared
  | wrote boot =>
      intro legacy
      have sweeps := (swept (hasLegacy_of_write legacy)).1
      rw [boot] at sweeps
      exact sweeps.elim
  | purged boot =>
      intro legacy
      have sweeps := (swept (hasLegacy_of_remove legacy)).1
      rw [boot] at sweeps
      exact sweeps.elim

theorem StateDir.HasLegacy.migrate {d : StateDir} {next : Nat} (legacy : d.HasLegacy) :
    (d.migrate next).HasLegacy := by
  obtain ⟨e, mem, old⟩ := legacy
  unfold StateDir.HasLegacy
  rw [StateDir.entries_migrate]
  split
  · exact ⟨{ e with legacy := true }, List.mem_map.mpr ⟨e, mem, rfl⟩, rfl⟩
  · exact ⟨e, mem, old⟩

theorem not_early_of_hasLegacy {s : BootState} (sound : Sound s) (legacy : s.disk.HasLegacy) :
    ¬ s.disk.userVersion < MIGRATION_14 := by
  intro early
  obtain ⟨e, mem, old⟩ := legacy
  simp [sound.legacy early e mem] at old

theorem BootState.Stranded.moved {s t : BootState} {a : BootAction} (sound : Sound s) (lost : s.Stranded)
    (moved : BootMoved s a t) : t.Stranded ∨ t.boot = .running ∧ t.disk.HasLegacy := by
  obtain ⟨legacy, unswept, idle⟩ := lost
  have late := not_early_of_hasLegacy sound legacy
  cases moved with
  | opened down =>
      refine .inl ⟨legacy, fun sweeps => late (initialize_sweeps sweeps), ?_⟩
      simp only [initialize_]
      split <;> exact Boot.noConfusion
  | @migrate pre next boot pending =>
      rw [boot] at unswept
      exact .inl ⟨legacy.migrate, unswept, Boot.noConfusion⟩
  | @migrated pre next boot done =>
      rw [boot] at unswept
      have scans : sweepAllBlobDirs s.disk pre = .scanning := if_neg unswept
      simp only [scans]
      exact .inl ⟨legacy, id, Boot.noConfusion⟩
  | removed boot mem =>
      rw [boot] at unswept
      exact absurd trivial unswept
  | swept boot =>
      rw [boot] at unswept
      exact absurd trivial unswept
  | scanned boot => exact .inr ⟨rfl, legacy⟩
  | failed => exact .inl ⟨legacy, id, Boot.noConfusion⟩
  | wrote boot => exact absurd boot idle
  | purged boot => exact absurd boot idle

theorem BootState.Stranded.completed {s u : BootState} {acts : List BootAction} (sound : Sound s)
    (lost : s.Stranded) (run : exec bootStep s acts = some u) (completed : u.boot = .running) :
    ∃ before, before <+: acts ∧ ∃ t, exec bootStep s before = some t ∧ t.boot = .running ∧
      t.disk.HasLegacy := by
  induction acts generalizing s with
  | nil =>
      cases run
      exact absurd completed lost.2.2
  | cons a acts ih =>
      obtain ⟨v, step, rest⟩ := exec_cons.mp run
      have moved := bootStep_moved step
      rcases lost.moved sound moved with lost | ⟨running, legacy⟩
      · obtain ⟨before, within, t, reached, done⟩ := ih (sound.moved moved) lost rest
        exact ⟨a :: before, List.cons_prefix_cons.mpr ⟨rfl, within⟩, t,
          exec_cons.mpr ⟨v, step, reached⟩, done⟩
      · refine ⟨[a], List.cons_prefix_cons.mpr ⟨rfl, List.nil_prefix⟩, v, ?_, running, legacy⟩
        exact exec_cons.mpr ⟨v, step, rfl⟩

theorem boot_sweep_unless_interrupted {d : StateDir} (found : d.Found) (acts : List BootAction) :
    (∀ t, exec bootStep ⟨d, .down⟩ acts = some t →
      t.disk.applied = List.range t.disk.userVersion.toNat ∧ d.applied <+: t.disk.applied ∧
        (t.boot = .running → (migrationCount : Int) ≤ t.disk.userVersion) ∧
        ∀ name u, bootStep t (.remove name) = some u →
          ∀ e ∈ t.disk.entries, e.name = name → e.written = false) ∧
    ((∀ before, before ++ [.fail] <+: acts → ∀ t, exec bootStep ⟨d, .down⟩ before = some t →
        ¬ t.Exposed) →
      ∀ before, before <+: acts → ∀ t, exec bootStep ⟨d, .down⟩ before = some t →
        t.boot = .running → ¬ t.disk.HasLegacy) ∧
    ∀ before t, exec bootStep ⟨d, .down⟩ before = some t → t.Exposed →
      ∀ after u, exec bootStep t (.fail :: after) = some u → u.boot = .running →
        ∃ p, p <+: .fail :: after ∧ ∃ v, exec bootStep t p = some v ∧ v.boot = .running ∧
          v.disk.HasLegacy := by
  refine ⟨fun t reached => ?_, fun spared before within t reached completed legacy => ?_,
    fun before t reached exposed after u run completed => ?_⟩
  · have sound := Sound.run found reached
    refine ⟨sound.applied, applied_extends reached, fun completed => ?_,
      fun name u step e mem _ => ?_⟩
    · exact sound.settled (by rw [completed]; trivial)
    · cases bootStep_moved step with
      | removed boot _ => exact sound.written (.inl (by rw [boot]; trivial)) e mem
  · have faultless : Spared bootStep (fun s a => a = .fail ∧ s.Exposed) ⟨d, .down⟩ acts := by
      rw [spared_iff]
      rintro before a within t reached ⟨rfl, exposed⟩
      exact spared before within t reached exposed
    have both : Sound t ∧ t.Swept := by
      refine exec_spared (P := fun s => Sound s ∧ s.Swept) ?_ ?_ faultless within reached
      · intro s a u ⟨sound, swept⟩ clear step
        have moved := bootStep_moved step
        exact ⟨sound.moved moved, swept.moved sound clear moved⟩
      · have start : exec bootStep ⟨d, .down⟩ [] = some ⟨d, .down⟩ := rfl
        refine ⟨Sound.run found start, fun ⟨e, mem, old⟩ => ?_⟩
        simp [found.legacy e mem] at old
    have sweeps := (both.2 legacy).1
    rw [completed] at sweeps
    exact sweeps
  · obtain ⟨v, step, rest⟩ := exec_cons.mp run
    have moved := bootStep_moved step
    have lost : v.Stranded := by
      cases moved
      exact ⟨exposed.1, id, Boot.noConfusion⟩
    have sound := (Sound.run found reached).moved moved
    obtain ⟨p, within, w, reached, done⟩ := lost.completed sound rest completed
    exact ⟨.fail :: p, List.cons_prefix_cons.mpr ⟨rfl, within⟩, w,
      exec_cons.mpr ⟨v, step, reached⟩, done⟩

def beforeRekey : StateDir := ⟨13, List.range 13, some [⟨"thermostat", false, false, false⟩]⟩

theorem beforeRekey_found : beforeRekey.Found :=
  ⟨rfl, by simp [beforeRekey, StateDir.entries], by simp [beforeRekey, StateDir.entries]⟩

theorem boot_sweep_uninterrupted :
    ∃ t, exec bootStep ⟨beforeRekey, .down⟩
        [.open_, .migrate, .migrate, .migrated, .remove "thermostat", .swept, .scanned] = some t ∧
      t.boot = .running ∧ ¬ t.disk.HasLegacy := by
  have sweep := boot_sweep_unless_interrupted beforeRekey_found
    [.open_, .migrate, .migrate, .migrated, .remove "thermostat", .swept, .scanned]
  refine ⟨_, rfl, rfl, sweep.2.1 (fun before within => ?_) _ List.prefix_rfl _ rfl rfl⟩
  have mem := within.subset (List.mem_append_right _ (List.mem_singleton_self _))
  simp at mem

theorem crashed_upgrade_keeps_blobs :
    ∃ t, exec bootStep ⟨beforeRekey, .down⟩
        [.open_, .migrate, .fail, .open_, .migrate, .migrated, .scanned] = some t ∧
      t.boot = .running ∧ ∃ e ∈ t.disk.entries, e.name = "thermostat" ∧ e.legacy = true := by
  refine ⟨_, rfl, rfl, ⟨"thermostat", false, true, false⟩, ?_, rfl, rfl⟩
  exact List.mem_singleton_self _

end OxidHome.Storage

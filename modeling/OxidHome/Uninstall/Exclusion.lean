import OxidHome.Uninstall.Requests
import OxidHome.Uninstall.Purged
import OxidHome.Library.Tables

/-!
# Uninstall excludes running code

A guard of `plugin_lifecycle_lock` belongs to one request or job at a time. A job found its plugin
without instances when it had the guard already, and no start gets past the lock before it is gone.
-/

namespace OxidHome.Uninstall
open Wit Library Engine Storage History
open Std (TreeMap)

def JobStage.isUninstall : JobStage → Bool
  | .verifying => false
  | _ => true

def JobStage.uuid? : JobStage → Option String
  | .found uuid | .kvPurged uuid | .purged uuid => some uuid
  | _ => none

def JobStage.KvGone : JobStage → Prop
  | .kvPurged _ | .purged _ => True
  | _ => False

def JobStage.BlobsGone : JobStage → Prop
  | .purged _ => True
  | _ => False

namespace UninstallSystem

/-! ## The invariants -/

def ClientOf (s : UninstallSystem) (r : Nat) (pluginId : String) (holds : Bool) : Prop :=
  ∃ mutex, s.locks.clients[r]? = some ⟨pluginId, mutex, holds⟩

structure LockInv (s : UninstallSystem) : Prop where
  locks : s.locks.Sound
  fresh : ∀ r, s.nextRequest ≤ r →
    s.locks.clients[r]? = none ∧ s.requests[r]? = none ∧ s.jobs[r]? = none
  request : ∀ (r : Nat) (future : RequestFuture), s.requests[r]? = some future →
    s.ClientOf r future.pluginId (future.stage.guarded || decide (r ∈ s.jobs))
  job : ∀ (r : Nat) (job : BlockingJob), s.jobs[r]? = some job → s.ClientOf r job.pluginId true
  joining : ∀ (r : Nat) (future : RequestFuture), s.requests[r]? = some future → r ∈ s.jobs →
    future.stage = .joining

structure Registering (s : UninstallSystem) (r : Nat) (future : RequestFuture) (n : Nat)
    (run : InstanceRun) : Prop where
  here : s.requests[r]? = some future
  stage : ∃ singleton, future.stage = .spawned n singleton
  mutex : s.registering = some r
  request : future.request = .start run.instanceId
  plugin : future.pluginId = run.pluginId
  absent : s.registry.instances[run.instanceId]? = none

structure RegistryInv (s : UninstallSystem) : Prop where
  entries : ∀ (id : String) (handle : InstanceHandle), s.registry.instances[id]? = some handle →
    ∃ run, s.runs[handle.task]? = some run ∧ run.instanceId = id ∧
      run.pluginId = handle.pluginId ∧ run.unregistered = false
  listed : ∀ (n : Nat) (run : InstanceRun), s.runs[n]? = some run → run.unregistered = false →
    (∃ r future, s.Registering r future n run) ∨
      ∃ handle, s.registry.instances[run.instanceId]? = some handle ∧ handle.task = n
  spawned : ∀ (r : Nat) (future : RequestFuture) (n : Nat) (singleton : Bool),
    s.requests[r]? = some future → future.stage = .spawned n singleton →
    ∃ run, s.runs[n]? = some run ∧ run.unregistered = false ∧ s.Registering r future n run
  ended : ∀ (n : Nat) (run : InstanceRun), s.runs[n]? = some run → run.unregistered = true →
    run.phase = .terminal

structure IdentityInv (s : UninstallSystem) : Prop where
  minted : ∀ (pluginId : String) (package : InstalledPackage),
    s.installed[pluginId]? = some package → package.installationUuid ∈ s.minted
  distinct : ∀ (p q : String) (package other : InstalledPackage), s.installed[p]? = some package →
    s.installed[q]? = some other → package.installationUuid = other.installationUuid → p = q
  running : ∀ (n : Nat) (run : InstanceRun), s.runs[n]? = some run → run.phase ≠ .terminal →
    ∃ package, s.installed[run.pluginId]? = some package ∧ package.installationUuid = run.expected
  reading : ∀ (r : Nat) (future : RequestFuture) (uuid : String) (singleton : Bool),
    s.requests[r]? = some future → future.stage = .reading uuid singleton →
    ∃ package, s.installed[future.pluginId]? = some package ∧ package.installationUuid = uuid

def Idle (s : UninstallSystem) (pluginId : String) : Prop :=
  ∀ (n : Nat) (run : InstanceRun), s.runs[n]? = some run → run.pluginId = pluginId →
    run.unregistered = true

structure JobInv (s : UninstallSystem) : Prop where
  clear : ∀ (r : Nat) (future : RequestFuture), s.requests[r]? = some future →
    future.stage = .clear → s.Idle future.pluginId
  idle : ∀ (r : Nat) (job : BlockingJob), s.jobs[r]? = some job → job.stage.isUninstall = true →
    s.Idle job.pluginId
  identity : ∀ (r : Nat) (job : BlockingJob), s.jobs[r]? = some job →
    ∀ uuid ∈ job.stage.uuid?, ∃ package, s.installed[job.pluginId]? = some package ∧
      package.installationUuid = uuid
  kv : ∀ (r : Nat) (job : BlockingJob), s.jobs[r]? = some job → job.stage.KvGone →
    ∀ uuid ∈ job.stage.uuid?, KvClean s.kv uuid
  blobs : ∀ (r : Nat) (job : BlockingJob), s.jobs[r]? = some job → job.stage.BlobsGone →
    ∀ uuid ∈ job.stage.uuid?, IndexClean s.blobs.index uuid

structure Inv (s : UninstallSystem) : Prop where
  lock : s.LockInv
  registry : s.RegistryInv
  identity : s.IdentityInv
  job : s.JobInv

variable {s t : UninstallSystem} {r n : Nat} {future : RequestFuture}

/-! ## What a guard excludes -/

theorem LockInv.exclusive (inv : s.LockInv) {r r' : Nat} {pluginId : String}
    (holds : s.ClientOf r pluginId true) (holds' : s.ClientOf r' pluginId true) : r = r' := by
  obtain ⟨mutex, found⟩ := holds
  obtain ⟨mutex', found'⟩ := holds'
  exact inv.locks.exclusive found found' rfl rfl rfl

theorem LockInv.guard (inv : s.LockInv) (here : s.requests[r]? = some future)
    (guarded : future.stage.guarded = true) : s.ClientOf r future.pluginId true := by
  have client := inv.request r future here
  rw [guarded, Bool.true_or] at client
  exact client

theorem LockInv.no_job (inv : s.LockInv) (here : s.requests[r]? = some future)
    (apart : future.stage ≠ .joining) : s.jobs[r]? = none := by
  cases found : s.jobs[r]? with
  | none => rfl
  | some job =>
      apply absurd (inv.joining r future here _) apart
      rw [TreeMap.mem_iff_isSome_getElem?, found]
      rfl

theorem LockInv.alone (inv : s.LockInv) (here : s.requests[r]? = some future)
    (guarded : future.stage.guarded = true) {r' : Nat} {job : BlockingJob}
    (working : s.jobs[r']? = some job) : job.pluginId ≠ future.pluginId := by
  intro same
  have holds := inv.job r' job working
  rw [same] at holds
  obtain rfl := inv.exclusive (inv.guard here guarded) holds
  have none := inv.no_job here (by rintro stage; rw [stage] at guarded; cases guarded)
  rw [none] at working
  cases working

theorem LockInv.only (inv : s.LockInv) (here : s.requests[r]? = some future)
    (guarded : future.stage.guarded = true) {r' : Nat} {other : RequestFuture}
    (there : s.requests[r']? = some other) (guarded' : other.stage.guarded = true)
    (same : other.pluginId = future.pluginId) : r' = r := by
  have holds := inv.guard there guarded'
  rw [same] at holds
  exact inv.exclusive holds (inv.guard here guarded)

theorem setStage_requests (stage : Stage) (x : Nat) : (s.setStage r future stage).requests[x]? =
    if r = x then some { future with stage := stage } else s.requests[x]? := by
  rw [setStage, getElem?_insert_eq]

theorem finish_requests (x : Nat) :
    (s.finish r).requests[x]? = if r = x then none else s.requests[x]? := by
  rw [finish, getElem?_erase_eq]

theorem setJob_jobs {job : BlockingJob} (stage : JobStage) (x : Nat) :
    (s.setJob r job stage).jobs[x]? =
      if r = x then some { job with stage := stage } else s.jobs[x]? := by
  rw [setJob, getElem?_insert_eq]

theorem jobDone_jobs (x : Nat) : (s.jobDone r).jobs[x]? = if r = x then none else s.jobs[x]? := by
  rw [jobDone, getElem?_erase_eq]

/-! ## The lock -/

theorem LockInv.moved (inv : s.LockInv) (locks : t.locks = s.locks)
    (next : t.nextRequest = s.nextRequest)
    (requests : ∀ (x : Nat) (after : RequestFuture), t.requests[x]? = some after →
      ∃ before, s.requests[x]? = some before ∧ after.pluginId = before.pluginId ∧
        (after.stage.guarded || decide (x ∈ t.jobs)) =
          (before.stage.guarded || decide (x ∈ s.jobs)) ∧
        (x ∈ t.jobs → after.stage = .joining))
    (jobs : ∀ (x : Nat) (job : BlockingJob), t.jobs[x]? = some job →
      s.ClientOf x job.pluginId true) : t.LockInv := by
  refine ⟨?_, ?_, ?_, ?_, ?_⟩
  · rw [locks]
    exact inv.locks
  · intro x beyond
    rw [next] at beyond
    obtain ⟨client, request, job⟩ := inv.fresh x beyond
    refine ⟨by rw [locks]; exact client, ?_, ?_⟩
    · apply Option.eq_none_iff_forall_ne_some.mpr
      intro after found
      obtain ⟨before, old, _⟩ := requests x after found
      rw [request] at old
      cases old
    · apply Option.eq_none_iff_forall_ne_some.mpr
      intro job found
      obtain ⟨mutex, held⟩ := jobs x job found
      rw [client] at held
      cases held
  · intro x after found
    obtain ⟨before, old, plugin, holds, _⟩ := requests x after found
    rw [ClientOf, locks, plugin, holds]
    exact inv.request x before old
  · intro x job found
    rw [ClientOf, locks]
    exact jobs x job found
  · intro x after found working
    obtain ⟨before, old, _, _, joining⟩ := requests x after found
    exact joining working

theorem LockInv.setStage (inv : s.LockInv) (here : s.requests[r]? = some future)
    (guarded : future.stage.guarded = true) {stage : Stage} (still : stage.guarded = true) :
    (s.setStage r future stage).LockInv := by
  have none := inv.no_job here (by rintro same; rw [same] at guarded; cases guarded)
  refine inv.moved rfl rfl ?_ inv.job
  intro x after found
  rw [setStage_requests] at found
  split_ifs at found with same
  · subst same
    cases found
    refine ⟨future, here, rfl, ?_, ?_⟩
    · rw [guarded, still]
      rfl
    · intro working
      have working : r ∈ s.jobs := working
      rw [TreeMap.mem_iff_isSome_getElem?, none] at working
      cases working
  · exact ⟨after, found, rfl, rfl, inv.joining x after found⟩

theorem LockInv.spawned (inv : s.LockInv) (here : s.requests[r]? = some future)
    (guarded : future.stage.guarded = true) (stage : JobStage) :
    LockInv { s.setStage r future .joining with
      jobs := s.jobs.insert r ⟨future.pluginId, stage⟩ } := by
  refine inv.moved rfl rfl ?_ ?_
  · intro x after found
    dsimp only at found ⊢
    rw [setStage_requests] at found
    split_ifs at found with same
    · subst same
      cases found
      refine ⟨future, here, rfl, ?_, fun _ => rfl⟩
      rw [guarded]
      simp
    · have kept : x ∈ s.jobs.insert r ⟨future.pluginId, stage⟩ ↔ x ∈ s.jobs := by
        simp [TreeMap.mem_insert, same]
      refine ⟨after, found, rfl, ?_, ?_⟩
      · simp only [kept]
      · exact fun working => inv.joining x after found (kept.mp working)
  · intro x job found
    dsimp only at found
    rw [getElem?_insert_eq] at found
    split_ifs at found with same
    · subst same
      cases found
      exact inv.guard here guarded
    · exact inv.job x job found

theorem LockInv.setJob (inv : s.LockInv) {job : BlockingJob} (working : s.jobs[r]? = some job)
    (stage : JobStage) : (s.setJob r job stage).LockInv := by
  have kept : ∀ x, x ∈ (s.setJob r job stage).jobs ↔ x ∈ s.jobs := by
    intro x
    rw [TreeMap.mem_iff_isSome_getElem?, TreeMap.mem_iff_isSome_getElem?, setJob_jobs]
    split_ifs with same
    · rw [← same, working]
      rfl
    · rfl
  refine inv.moved rfl rfl ?_ ?_
  · intro x after found
    refine ⟨after, found, rfl, ?_, ?_⟩
    · simp only [kept]
    · exact fun there => inv.joining x after found ((kept x).mp there)
  · intro x other found
    rw [setJob_jobs] at found
    split_ifs at found with same
    · subst same
      cases found
      exact inv.job r job working
    · exact inv.job x other found

theorem LockInv.verified (inv : s.LockInv) (here : s.requests[r]? = some future)
    {job : BlockingJob} (working : s.jobs[r]? = some job) :
    LockInv { s.setStage r future .verified with jobs := s.jobs.erase r } := by
  have there : r ∈ s.jobs := by
    rw [TreeMap.mem_iff_isSome_getElem?, working]
    rfl
  refine inv.moved rfl rfl ?_ ?_
  · intro x after found
    dsimp only at found ⊢
    rw [setStage_requests] at found
    split_ifs at found with same
    · subst same
      cases found
      refine ⟨future, here, rfl, ?_, ?_⟩
      · simp [there, Stage.guarded]
      · intro gone
        simp at gone
    · have kept : x ∈ s.jobs.erase r ↔ x ∈ s.jobs := by
        simp [TreeMap.mem_erase, same]
      refine ⟨after, found, rfl, ?_, ?_⟩
      · simp only [kept]
      · exact fun working => inv.joining x after found (kept.mp working)
  · intro x other found
    dsimp only at found
    rw [getElem?_erase_eq] at found
    split_ifs at found with same
    exact inv.job x other found

theorem LockInv.acquired (inv : s.LockInv) (here : s.requests[r]? = some future)
    (waiting : future.stage = .waiting) {locks : WeakLocks String}
    (taken : s.locks.take r = some locks) :
    LockInv { s.setStage r future .locked with locks := locks } := by
  have sound := inv.locks.take taken
  obtain ⟨client, mine, _, rfl⟩ := WeakLocks.take_eq_some taken
  have none := inv.no_job here (by rw [waiting]; intro same; cases same)
  have clients : ∀ x : Nat, (s.locks.clients.insert r { client with holds := true })[x]? =
      if r = x then some { client with holds := true } else s.locks.clients[x]? :=
    fun x => getElem?_insert_eq _ _ _ _
  have plugin : client.key = future.pluginId := by
    obtain ⟨mutex, found⟩ := inv.request r future here
    rw [found] at mine
    cases mine
    rfl
  have other : ∀ {x : Nat} {pluginId : String} {holds : Bool}, r ≠ x → s.ClientOf x pluginId holds →
      ∃ mutex, (s.locks.clients.insert r { client with holds := true })[x]? =
        some ⟨pluginId, mutex, holds⟩ := by
    intro x pluginId holds apart ⟨mutex, found⟩
    exact ⟨mutex, by rw [clients, if_neg apart]; exact found⟩
  refine ⟨sound, ?_, ?_, ?_, ?_⟩
  · intro x beyond
    obtain ⟨absent, request, job⟩ := inv.fresh x beyond
    have apart : r ≠ x := by
      rintro rfl
      rw [here] at request
      cases request
    refine ⟨?_, ?_, job⟩
    · dsimp only
      rw [clients, if_neg apart]
      exact absent
    · dsimp only
      rw [setStage_requests, if_neg apart]
      exact request
  · intro x after found
    dsimp only at found
    rw [setStage_requests] at found
    split_ifs at found with same
    · subst same
      cases found
      refine ⟨client.mutex, ?_⟩
      dsimp only
      rw [clients, if_pos rfl, ← plugin]
      rfl
    · exact other same (inv.request x after found)
  · intro x job found
    have apart : r ≠ x := by
      rintro rfl
      have found : s.jobs[r]? = some job := found
      rw [none] at found
      cases found
    exact other apart (inv.job x job found)
  · intro x after found working
    dsimp only at found
    rw [setStage_requests] at found
    split_ifs at found with same
    · subst same
      have working : r ∈ s.jobs := working
      rw [TreeMap.mem_iff_isSome_getElem?, none] at working
      cases working
    · exact inv.joining x after found working

theorem LockInv.finish (inv : s.LockInv) : (s.finish r).LockInv := by
  have clients : ∀ x, r ≠ x → (s.finish r).locks.clients[x]? = s.locks.clients[x]? := by
    intro x apart
    rw [UninstallSystem.finish]
    split_ifs
    · rfl
    · rw [WeakLocks.leave_clients, if_neg apart]
  have sound : (s.finish r).locks.Sound := by
    rw [UninstallSystem.finish]
    split_ifs
    · exact inv.locks
    · exact inv.locks.leave
  refine ⟨sound, ?_, ?_, ?_, ?_⟩
  · intro x beyond
    obtain ⟨absent, request, job⟩ := inv.fresh x beyond
    refine ⟨?_, ?_, job⟩
    · by_cases same : r = x
      · subst same
        rw [UninstallSystem.finish]
        split_ifs
        · exact absent
        · rw [WeakLocks.leave_clients, if_pos rfl]
      · rw [clients x same]
        exact absent
    · rw [finish_requests]
      split_ifs
      · rfl
      · exact request
  · intro x after found
    rw [finish_requests] at found
    split_ifs at found with same
    rw [ClientOf, clients x same]
    exact inv.request x after found
  · intro x job found
    by_cases same : r = x
    · subst same
      have working : r ∈ s.jobs := by
        rw [TreeMap.mem_iff_isSome_getElem?]
        exact Option.isSome_iff_exists.mpr ⟨job, found⟩
      rw [ClientOf, UninstallSystem.finish, if_pos working]
      exact inv.job r job found
    · rw [ClientOf, clients x same]
      exact inv.job x job found
  · intro x after found working
    rw [finish_requests] at found
    split_ifs at found
    exact inv.joining x after found working

theorem LockInv.jobDone (inv : s.LockInv) {job : BlockingJob} (working : s.jobs[r]? = some job) :
    (s.jobDone r).LockInv := by
  have clients : ∀ x, r ≠ x → (s.jobDone r).locks.clients[x]? = s.locks.clients[x]? := by
    intro x apart
    rw [UninstallSystem.jobDone]
    split_ifs
    · rw [WeakLocks.unlock_clients, if_neg apart]
    · rw [WeakLocks.leave_clients, if_neg apart]
  have sound : (s.jobDone r).locks.Sound := by
    rw [UninstallSystem.jobDone]
    split_ifs
    · exact inv.locks.unlock
    · exact inv.locks.leave
  have there : r ∈ s.jobs := by
    rw [TreeMap.mem_iff_isSome_getElem?, working]
    rfl
  have kept : ∀ x, r ≠ x → (x ∈ (s.jobDone r).jobs ↔ x ∈ s.jobs) := by
    intro x apart
    rw [TreeMap.mem_iff_isSome_getElem?, TreeMap.mem_iff_isSome_getElem?, jobDone_jobs, if_neg apart]
  refine ⟨sound, ?_, ?_, ?_, ?_⟩
  · intro x beyond
    obtain ⟨absent, request, none⟩ := inv.fresh x beyond
    have apart : r ≠ x := by
      rintro rfl
      rw [working] at none
      cases none
    refine ⟨by rw [clients x apart]; exact absent, request, ?_⟩
    rw [jobDone_jobs, if_neg apart]
    exact none
  · intro x after found
    by_cases same : r = x
    · subst same
      have present : r ∈ s.requests := by
        rw [TreeMap.mem_iff_isSome_getElem?]
        exact Option.isSome_iff_exists.mpr ⟨after, found⟩
      have joining := inv.joining r after found there
      obtain ⟨mutex, held⟩ := inv.request r after found
      refine ⟨mutex, ?_⟩
      rw [UninstallSystem.jobDone, if_pos present, WeakLocks.unlock_clients, if_pos rfl, held, joining]
      simp [Stage.guarded]
    · rw [ClientOf, clients x same]
      have client := inv.request x after found
      simp only [kept x same]
      exact client
  · intro x other found
    rw [jobDone_jobs] at found
    split_ifs at found with same
    rw [ClientOf, clients x same]
    exact inv.job x other found
  · intro x after found gone
    by_cases same : r = x
    · subst same
      rw [TreeMap.mem_iff_isSome_getElem?, jobDone_jobs, if_pos rfl] at gone
      cases gone
    · exact inv.joining x after found ((kept x same).mp gone)

theorem LockInv.requested (inv : s.LockInv) (pluginId : String) (request : LifecycleRequest) :
    LockInv { s with
      locks := s.locks.ask s.nextRequest pluginId
      requests := s.requests.insert s.nextRequest ⟨pluginId, request, .waiting⟩
      nextRequest := s.nextRequest + 1 } := by
  obtain ⟨absent, _, none⟩ := inv.fresh s.nextRequest (le_refl _)
  have old : ∀ {x : Nat} {key : String} {holds : Bool}, s.nextRequest ≠ x → s.ClientOf x key holds →
      ∃ mutex, (s.locks.ask s.nextRequest pluginId).clients[x]? = some ⟨key, mutex, holds⟩ := by
    intro x key holds apart ⟨mutex, found⟩
    exact ⟨mutex, by rw [WeakLocks.ask_clients, if_neg apart]; exact found⟩
  refine ⟨inv.locks.ask pluginId absent, ?_, ?_, ?_, ?_⟩
  · intro x beyond
    have beyond : s.nextRequest + 1 ≤ x := beyond
    have apart : s.nextRequest ≠ x := by omega
    obtain ⟨client, request, job⟩ := inv.fresh x (by omega)
    refine ⟨?_, ?_, job⟩
    · dsimp only
      rw [WeakLocks.ask_clients, if_neg apart]
      exact client
    · dsimp only
      rw [getElem?_insert_ne _ _ apart]
      exact request
  · intro x after found
    dsimp only at found
    rw [getElem?_insert_eq] at found
    split_ifs at found with same
    · subst same
      cases found
      obtain ⟨mutex, mine⟩ := WeakLocks.ask_self (s := s.locks) (n := s.nextRequest) pluginId
      refine ⟨mutex, ?_⟩
      dsimp only
      rw [mine]
      simp [Stage.guarded, TreeMap.mem_iff_isSome_getElem?, none]
    · exact old same (inv.request x after found)
  · intro x job found
    have apart : s.nextRequest ≠ x := by
      rintro rfl
      have found : s.jobs[s.nextRequest]? = some job := found
      rw [none] at found
      cases found
    exact old apart (inv.job x job found)
  · intro x after found working
    dsimp only at found
    rw [getElem?_insert_eq] at found
    split_ifs at found with same
    · subst same
      have working : s.nextRequest ∈ s.jobs := working
      rw [TreeMap.mem_iff_isSome_getElem?, none] at working
      cases working
    · exact inv.joining x after found working

/-! ## The registry -/

theorem RegistryInv.frame (inv : s.RegistryInv) (registry : t.registry = s.registry)
    (registering : t.registering = s.registering) (runs : t.runs = s.runs)
    (requests : ∀ (r : Nat) (future : RequestFuture) (n : Nat) (singleton : Bool),
      future.stage = .spawned n singleton →
      (t.requests[r]? = some future ↔ s.requests[r]? = some future)) : t.RegistryInv := by
  have moved : ∀ {r : Nat} {future : RequestFuture} {n : Nat} {run : InstanceRun},
      s.Registering r future n run → t.Registering r future n run := by
    intro r future n run starting
    obtain ⟨singleton, stage⟩ := starting.stage
    refine ⟨(requests r future n singleton stage).mpr starting.here, ⟨singleton, stage⟩, ?_,
      starting.request, starting.plugin, ?_⟩
    · rw [registering]
      exact starting.mutex
    · rw [registry]
      exact starting.absent
  refine ⟨?_, ?_, ?_, ?_⟩
  · rw [registry, runs]
    exact inv.entries
  · intro n run found pending
    rw [runs] at found
    rw [registry]
    rcases inv.listed n run found pending with ⟨r, future, starting⟩ | listed
    · exact Or.inl ⟨r, future, moved starting⟩
    · exact Or.inr listed
  · intro r future n singleton here stage
    obtain ⟨run, found, pending, starting⟩ := inv.spawned r future n singleton
      ((requests r future n singleton stage).mp here) stage
    exact ⟨run, by rw [runs]; exact found, pending, moved starting⟩
  · rw [runs]
    exact inv.ended

theorem setStage_spawned {stage : Stage} (here : s.requests[r]? = some future)
    (before : ∀ n singleton, future.stage ≠ .spawned n singleton)
    (after : ∀ n singleton, stage ≠ .spawned n singleton) (x : Nat) (other : RequestFuture)
    (n : Nat) (singleton : Bool) (spawned : other.stage = .spawned n singleton) :
    (s.setStage r future stage).requests[x]? = some other ↔ s.requests[x]? = some other := by
  rw [setStage_requests]
  split_ifs with same
  · subst same
    constructor
    · intro found
      cases found
      exact absurd spawned (after n singleton)
    · intro found
      rw [here] at found
      cases found
      exact absurd spawned (before n singleton)
  · rfl

theorem finish_spawned (here : s.requests[r]? = some future)
    (before : ∀ n singleton, future.stage ≠ .spawned n singleton) (x : Nat)
    (other : RequestFuture) (n : Nat) (singleton : Bool)
    (spawned : other.stage = .spawned n singleton) :
    (s.finish r).requests[x]? = some other ↔ s.requests[x]? = some other := by
  rw [finish_requests]
  split_ifs with same
  · subst same
    constructor
    · intro found
      cases found
    · intro found
      rw [here] at found
      cases found
      exact absurd spawned (before n singleton)
  · rfl

theorem RegistryInv.finish (inv : s.RegistryInv) (here : s.requests[r]? = some future)
    (before : ∀ n singleton, future.stage ≠ .spawned n singleton) : (s.finish r).RegistryInv :=
  inv.frame rfl rfl rfl (finish_spawned here before)

theorem RegistryInv.idle (inv : s.RegistryInv) (free : s.registering = none) {n : Nat}
    {run : InstanceRun} (found : s.runs[n]? = some run) (pending : run.unregistered = false) :
    ∃ handle, s.registry.instances[run.instanceId]? = some handle ∧ handle.task = n := by
  rcases inv.listed n run found pending with ⟨r, future, starting⟩ | listed
  · have mutex := starting.mutex
    rw [free] at mutex
    cases mutex
  · exact listed

theorem RegistryInv.registered (inv : s.RegistryInv)
    {instanceId : String} (request : future.request = .start instanceId) {uuid : String}
    {singleton : Bool} (free : s.registering = none)
    (clear : s.registry.refusal instanceId future.pluginId singleton = none) :
    RegistryInv { s.setStage r future (.spawned s.runs.length singleton) with
      registering := some r
      runs := s.runs ++ [⟨instanceId, future.pluginId, uuid, .loading, false⟩] } := by
  have absent : s.registry.instances[instanceId]? = none :=
    (RegistryInner.refusal_eq_none.mp clear).2.1
  have starting : Registering { s.setStage r future (.spawned s.runs.length singleton) with
      registering := some r
      runs := s.runs ++ [⟨instanceId, future.pluginId, uuid, .loading, false⟩] } r
      { future with stage := .spawned s.runs.length singleton } s.runs.length
      ⟨instanceId, future.pluginId, uuid, .loading, false⟩ := by
    refine ⟨?_, ⟨singleton, rfl⟩, rfl, request, rfl, absent⟩
    dsimp only
    rw [setStage_requests, if_pos rfl]
  refine ⟨?_, ?_, ?_, ?_⟩
  · intro id handle found
    obtain ⟨run, row, rest⟩ := inv.entries id handle found
    exact ⟨run, row_concat.mpr (Or.inl row), rest⟩
  · intro n run found pending
    rcases row_concat.mp found with old | ⟨rfl, rfl⟩
    · exact Or.inr (inv.idle free old pending)
    · exact Or.inl ⟨r, _, starting⟩
  · intro x other n flag there stage
    dsimp only at there
    rw [setStage_requests] at there
    split_ifs at there with same
    · subst same
      cases there
      cases stage
      exact ⟨_, row_concat.mpr (Or.inr ⟨rfl, rfl⟩), rfl, starting⟩
    · obtain ⟨_, _, _, older⟩ := inv.spawned x other n flag there stage
      have mutex := older.mutex
      rw [free] at mutex
      cases mutex
  · intro n run found gone
    rcases row_concat.mp found with old | ⟨rfl, rfl⟩
    · exact inv.ended n run old gone
    · cases gone

theorem RegistryInv.inserted (inv : s.RegistryInv) (here : s.requests[r]? = some future)
    {instanceId : String} (request : future.request = .start instanceId) {n : Nat}
    {singleton : Bool} (stage : future.stage = .spawned n singleton) :
    RegistryInv { s.setStage r future .awaiting with
      registering := none
      registry := s.registry.insert instanceId future.pluginId singleton
        ⟨instanceId, future.pluginId, n⟩ } := by
  obtain ⟨run, row, pending, starting⟩ := inv.spawned r future n singleton here stage
  have named : run.instanceId = instanceId := by
    have same := starting.request
    rw [request] at same
    cases same
    rfl
  have absent := starting.absent
  rw [named] at absent
  refine ⟨?_, ?_, ?_, inv.ended⟩
  · intro id handle found
    dsimp only [RegistryInner.insert] at found
    rw [getElem?_insert_eq] at found
    split_ifs at found with same
    · cases found
      exact ⟨run, row, named.trans same, starting.plugin.symm, pending⟩
    · exact inv.entries id handle found
  · intro m other found waits
    right
    dsimp only [RegistryInner.insert]
    rcases inv.listed m other found waits with ⟨x, future', older⟩ | ⟨handle, listed, task⟩
    · have mutex := older.mutex
      rw [starting.mutex] at mutex
      cases mutex
      have there := older.here
      rw [here] at there
      cases there
      obtain ⟨_, spawned⟩ := older.stage
      rw [stage] at spawned
      cases spawned
      obtain rfl := Option.some.inj (row.symm.trans found)
      rw [named]
      exact ⟨_, getElem?_insert_self _ _ _, rfl⟩
    · refine ⟨handle, ?_, task⟩
      rw [getElem?_insert_ne]
      · exact listed
      · rintro rfl
        rw [absent] at listed
        cases listed
  · intro x other m flag there spawned
    dsimp only at there
    rw [setStage_requests] at there
    split_ifs at there with same
    · cases there
      cases spawned
    · obtain ⟨_, _, _, older⟩ := inv.spawned x other m flag there spawned
      have mutex := older.mutex
      rw [starting.mutex] at mutex
      cases mutex
      exact absurd rfl same

theorem RegistryInv.reaped (inv : s.RegistryInv) {run : InstanceRun} (row : s.runs[n]? = some run)
    (ended : run.phase = .terminal) (pending : run.unregistered = false)
    (free : s.registering = none) :
    RegistryInv { s with
      registry := s.registry.unregister run.instanceId run.pluginId
      runs := s.runs.set n { run with unregistered := true } } := by
  obtain ⟨handle, mine, task⟩ := inv.idle free row pending
  refine ⟨?_, ?_, ?_, ?_⟩
  · intro id other found
    dsimp only [RegistryInner.unregister] at found
    rw [getElem?_erase_eq] at found
    split_ifs at found with same
    obtain ⟨run', row', named, rest⟩ := inv.entries id other found
    refine ⟨run', (row_set row).mpr (Or.inr ⟨?_, row'⟩), named, rest⟩
    rintro rfl
    rw [row] at row'
    cases row'
    exact same named
  · intro m other found waits
    right
    rcases (row_set row).mp found with ⟨_, rfl⟩ | ⟨apart, old⟩
    · cases waits
    · obtain ⟨handle', listed, task'⟩ := inv.idle free old waits
      refine ⟨handle', ?_, task'⟩
      dsimp only [RegistryInner.unregister]
      rw [getElem?_erase_eq, if_neg]
      · exact listed
      · intro same
        rw [same, listed] at mine
        cases mine
        exact apart (task.symm.trans task')
  · intro x other m flag there spawned
    obtain ⟨_, _, _, older⟩ := inv.spawned x other m flag there spawned
    have mutex := older.mutex
    rw [free] at mutex
    cases mutex
  · intro m other found gone
    rcases (row_set row).mp found with ⟨_, rfl⟩ | ⟨_, old⟩
    · exact ended
    · exact inv.ended m other old gone

theorem RegistryInv.phase (inv : s.RegistryInv) {run : InstanceRun} (row : s.runs[n]? = some run)
    (alive : run.phase ≠ .terminal) (phase : RunPhase) : (s.setPhase n run phase).RegistryInv := by
  have before : ∀ {m : Nat} {after : InstanceRun},
      (s.runs.set n { run with phase := phase })[m]? = some after →
      ∃ old, s.runs[m]? = some old ∧ after.instanceId = old.instanceId ∧
        after.pluginId = old.pluginId ∧ after.unregistered = old.unregistered ∧
        (after.unregistered = true → after.phase = .terminal) := by
    intro m after found
    rcases (row_set row).mp found with ⟨rfl, rfl⟩ | ⟨_, old⟩
    · exact ⟨run, row, rfl, rfl, rfl, fun gone => absurd (inv.ended n run row gone) alive⟩
    · exact ⟨after, old, rfl, rfl, rfl, inv.ended m after old⟩
  have later : ∀ {m : Nat} {old : InstanceRun}, s.runs[m]? = some old →
      ∃ after, (s.runs.set n { run with phase := phase })[m]? = some after ∧
        after.instanceId = old.instanceId ∧ after.pluginId = old.pluginId ∧
        after.unregistered = old.unregistered := by
    intro m old found
    by_cases same : n = m
    · subst same
      rw [row] at found
      cases found
      exact ⟨_, (row_set row).mpr (Or.inl ⟨rfl, rfl⟩), rfl, rfl, rfl⟩
    · exact ⟨old, (row_set row).mpr (Or.inr ⟨same, found⟩), rfl, rfl, rfl⟩
  have moved : ∀ {r : Nat} {future : RequestFuture} {m : Nat} {old after : InstanceRun},
      after.instanceId = old.instanceId → after.pluginId = old.pluginId →
      s.Registering r future m old → (s.setPhase n run phase).Registering r future m after := by
    intro r future m old after named plugin starting
    refine ⟨starting.here, starting.stage, starting.mutex, ?_, ?_, ?_⟩
    · rw [named]
      exact starting.request
    · rw [plugin]
      exact starting.plugin
    · rw [named]
      exact starting.absent
  refine ⟨?_, ?_, ?_, ?_⟩
  · intro id handle found
    obtain ⟨old, there, named, plugin, pending⟩ := inv.entries id handle found
    obtain ⟨after, now, named', plugin', same⟩ := later there
    exact ⟨after, now, named'.trans named, plugin'.trans plugin, same.trans pending⟩
  · intro m after found pending
    obtain ⟨old, there, named, plugin, same, _⟩ := before found
    rcases inv.listed m old there (same.symm.trans pending) with ⟨r, future, starting⟩ | listed
    · exact Or.inl ⟨r, future, moved named plugin starting⟩
    · rw [named]
      exact Or.inr listed
  · intro r future m flag here stage
    obtain ⟨old, there, pending, starting⟩ := inv.spawned r future m flag here stage
    obtain ⟨after, now, named, plugin, same⟩ := later there
    exact ⟨after, now, same.trans pending, moved named plugin starting⟩
  · intro m after found gone
    obtain ⟨_, _, _, _, _, ended⟩ := before found
    exact ended gone

/-! ## Installations -/

theorem IdentityInv.frame (inv : s.IdentityInv) (installed : t.installed = s.installed)
    (minted : t.minted = s.minted) (runs : t.runs = s.runs)
    (requests : ∀ (r : Nat) (future : RequestFuture) (uuid : String) (singleton : Bool),
      future.stage = .reading uuid singleton → t.requests[r]? = some future →
      s.requests[r]? = some future) : t.IdentityInv := by
  refine ⟨?_, ?_, ?_, ?_⟩
  · rw [installed, minted]
    exact inv.minted
  · rw [installed]
    exact inv.distinct
  · rw [installed, runs]
    exact inv.running
  · intro r future uuid singleton here stage
    rw [installed]
    exact inv.reading r future uuid singleton (requests r future uuid singleton stage here) stage

theorem setStage_other (s : UninstallSystem) (r : Nat) (future : RequestFuture) (stage : Stage)
    {x : Nat} {other : RequestFuture}
    (found : (s.setStage r future stage).requests[x]? = some other) (apart : other.stage ≠ stage) :
    s.requests[x]? = some other := by
  rw [setStage_requests] at found
  split_ifs at found
  · cases found
    exact absurd rfl apart
  · exact found

theorem finish_other {x : Nat} {other : RequestFuture}
    (found : (s.finish r).requests[x]? = some other) : s.requests[x]? = some other := by
  rw [finish_requests] at found
  split_ifs at found
  exact found

theorem IdentityInv.finish (inv : s.IdentityInv) : (s.finish r).IdentityInv :=
  inv.frame rfl rfl rfl fun _ _ _ _ _ found => finish_other found

theorem IdentityInv.phase (inv : s.IdentityInv) {run : InstanceRun} (row : s.runs[n]? = some run)
    (alive : run.phase ≠ .terminal) (phase : RunPhase) : (s.setPhase n run phase).IdentityInv := by
  refine ⟨inv.minted, inv.distinct, ?_, inv.reading⟩
  intro m after found waits
  rcases (row_set row).mp found with ⟨_, rfl⟩ | ⟨_, old⟩
  · exact inv.running n run row alive
  · exact inv.running m after old waits

theorem IdentityInv.installed (inv : s.IdentityInv) {pluginId : String}
    {package : InstalledPackage} (absent : pluginId ∉ s.installed)
    (unseen : package.installationUuid ∉ s.minted) :
    IdentityInv { s with
      installed := s.installed.insert pluginId package
      minted := package.installationUuid :: s.minted } := by
  have kept : ∀ {p : String} {old : InstalledPackage}, s.installed[p]? = some old →
      (s.installed.insert pluginId package)[p]? = some old := by
    intro p old found
    rw [getElem?_insert_ne]
    · exact found
    · rintro rfl
      apply absent
      rw [TreeMap.mem_iff_isSome_getElem?, found]
      rfl
  have cases_of : ∀ {p : String} {after : InstalledPackage},
      (s.installed.insert pluginId package)[p]? = some after →
      pluginId = p ∧ after = package ∨ s.installed[p]? = some after := by
    intro p after found
    rw [getElem?_insert_eq] at found
    split_ifs at found with same
    · exact Or.inl ⟨same, (Option.some.inj found).symm⟩
    · exact Or.inr found
  refine ⟨?_, ?_, ?_, ?_⟩
  · intro p after found
    rcases cases_of found with ⟨_, rfl⟩ | old
    · exact List.mem_cons_self
    · exact List.mem_cons_of_mem _ (inv.minted p after old)
  · intro p q after other found found' same
    rcases cases_of found with ⟨here, rfl⟩ | old
    · rcases cases_of found' with ⟨here', _⟩ | old'
      · exact here.symm.trans here'
      · apply absurd (inv.minted q other old')
        rw [← same]
        exact unseen
    · rcases cases_of found' with ⟨_, rfl⟩ | old'
      · apply absurd (inv.minted p after old)
        rw [same]
        exact unseen
      · exact inv.distinct p q after other old old' same
  · intro m run row alive
    obtain ⟨old, found, uuid⟩ := inv.running m run row alive
    exact ⟨old, kept found, uuid⟩
  · intro x other uuid singleton here stage
    obtain ⟨old, found, same⟩ := inv.reading x other uuid singleton here stage
    exact ⟨old, kept found, same⟩

/-! ## Jobs -/

theorem Inv.not_terminal (inv : s.Inv) {run : InstanceRun} (row : s.runs[n]? = some run)
    (alive : run.phase ≠ .terminal) : run.unregistered = false := by
  cases gone : run.unregistered with
  | false => rfl
  | true => exact absurd (inv.registry.ended n run row gone) alive

theorem Inv.apart (inv : s.Inv) {run : InstanceRun} (row : s.runs[n]? = some run)
    (alive : run.phase ≠ .terminal) {job : BlockingJob} (working : s.jobs[r]? = some job)
    {uuid : String} (known : uuid ∈ job.stage.uuid?) : run.expected ≠ uuid := by
  intro same
  obtain ⟨mine, here, uuidHere⟩ := inv.identity.running n run row alive
  obtain ⟨its, there, uuidThere⟩ := inv.job.identity r job working uuid known
  have plugin := inv.identity.distinct _ _ mine its here there
    (uuidHere.trans (same.trans uuidThere.symm))
  have uninstalls : job.stage.isUninstall = true := by
    cases stage : job.stage with
    | verifying => rw [stage] at known; cases known
    | _ => rfl
  have gone := inv.job.idle r job working uninstalls n run row plugin
  rw [inv.not_terminal row alive] at gone
  cases gone

theorem Idle.phase {pluginId : String} (idle : s.Idle pluginId) {run : InstanceRun}
    (row : s.runs[n]? = some run) (phase : RunPhase) : (s.setPhase n run phase).Idle pluginId := by
  intro m after found plugin
  rcases (row_set row).mp found with ⟨_, rfl⟩ | ⟨_, old⟩
  · exact idle n run row plugin
  · exact idle m after old plugin

theorem JobInv.frame (inv : s.JobInv) (runs : t.runs = s.runs) (installed : t.installed = s.installed)
    (kv : t.kv = s.kv) (blobs : t.blobs = s.blobs)
    (requests : ∀ (r : Nat) (future : RequestFuture), future.stage = .clear →
      t.requests[r]? = some future → s.requests[r]? = some future)
    (jobs : ∀ (r : Nat) (job : BlockingJob), t.jobs[r]? = some job → s.jobs[r]? = some job) :
    t.JobInv := by
  refine ⟨?_, ?_, ?_, ?_, ?_⟩
  · intro r future here stage
    rw [Idle, runs]
    exact inv.clear r future (requests r future stage here) stage
  · intro r job working
    rw [Idle, runs]
    exact inv.idle r job (jobs r job working)
  · intro r job working
    rw [installed]
    exact inv.identity r job (jobs r job working)
  · intro r job working
    rw [kv]
    exact inv.kv r job (jobs r job working)
  · intro r job working
    rw [blobs]
    exact inv.blobs r job (jobs r job working)

theorem JobInv.finish (inv : s.JobInv) : (s.finish r).JobInv :=
  inv.frame rfl rfl rfl rfl (fun _ _ _ found => finish_other found) fun _ _ found => found

theorem JobInv.jobDone (inv : s.JobInv) : (s.jobDone r).JobInv := by
  refine inv.frame rfl rfl rfl rfl (fun _ _ _ found => found) ?_
  intro x job found
  rw [jobDone_jobs] at found
  split_ifs at found
  exact found

theorem JobInv.setStage (inv : s.JobInv) {stage : Stage} (stage_ne : stage ≠ .clear) :
    (s.setStage r future stage).JobInv := by
  refine inv.frame rfl rfl rfl rfl ?_ fun _ _ found => found
  intro x other clear found
  exact setStage_other s r future stage found (by rw [clear]; exact stage_ne.symm)

theorem JobInv.phase (inv : s.JobInv) {run : InstanceRun} (row : s.runs[n]? = some run)
    (phase : RunPhase) : (s.setPhase n run phase).JobInv :=
  ⟨fun r future here stage => (inv.clear r future here stage).phase row phase,
    fun r job working uninstalls => (inv.idle r job working uninstalls).phase row phase,
    inv.identity, inv.kv, inv.blobs⟩

theorem JobInv.setJob (inv : s.JobInv) {job : BlockingJob} (working : s.jobs[r]? = some job)
    (uninstalls : job.stage.isUninstall = true) {stage : JobStage}
    (identity : ∀ uuid ∈ stage.uuid?, ∃ package, s.installed[job.pluginId]? = some package ∧
      package.installationUuid = uuid)
    (kv : stage.KvGone → ∀ uuid ∈ stage.uuid?, KvClean s.kv uuid)
    (blobs : stage.BlobsGone → ∀ uuid ∈ stage.uuid?, IndexClean s.blobs.index uuid) :
    (s.setJob r job stage).JobInv := by
  have cases_of : ∀ {x : Nat} {other : BlockingJob}, (s.setJob r job stage).jobs[x]? = some other →
      other = { job with stage := stage } ∨ s.jobs[x]? = some other := by
    intro x other found
    rw [setJob_jobs] at found
    split_ifs at found
    · exact Or.inl (Option.some.inj found).symm
    · exact Or.inr found
  refine ⟨inv.clear, ?_, ?_, ?_, ?_⟩
  · intro x other found flag
    rcases cases_of found with rfl | old
    · exact inv.idle r job working uninstalls
    · exact inv.idle x other old flag
  · intro x other found
    rcases cases_of found with rfl | old
    · exact identity
    · exact inv.identity x other old
  · intro x other found
    rcases cases_of found with rfl | old
    · exact kv
    · exact inv.kv x other old
  · intro x other found
    rcases cases_of found with rfl | old
    · exact blobs
    · exact inv.blobs x other old

theorem JobInv.stored (inv : s.JobInv) {kv : KvStore} {blobs : BlobStore}
    (kvKept : ∀ (r : Nat) (job : BlockingJob), s.jobs[r]? = some job → ∀ uuid ∈ job.stage.uuid?,
      KvClean s.kv uuid → KvClean kv uuid)
    (blobsKept : ∀ (r : Nat) (job : BlockingJob), s.jobs[r]? = some job →
      ∀ uuid ∈ job.stage.uuid?, IndexClean s.blobs.index uuid → IndexClean blobs.index uuid) :
    JobInv { s with kv := kv, blobs := blobs } :=
  ⟨inv.clear, inv.idle, inv.identity,
    fun r job working gone uuid known =>
      kvKept r job working uuid known (inv.kv r job working gone uuid known),
    fun r job working gone uuid known =>
      blobsKept r job working uuid known (inv.blobs r job working gone uuid known)⟩

theorem JobInv.spawned (inv : s.JobInv) {pluginId : String} {stage : JobStage}
    (idle : stage.isUninstall = true → s.Idle pluginId) (fresh : stage.uuid? = none) :
    JobInv { s with jobs := s.jobs.insert r ⟨pluginId, stage⟩ } := by
  have cases_of : ∀ {x : Nat} {other : BlockingJob},
      (s.jobs.insert r ⟨pluginId, stage⟩)[x]? = some other →
      other = ⟨pluginId, stage⟩ ∨ s.jobs[x]? = some other := by
    intro x other found
    rw [getElem?_insert_eq] at found
    split_ifs at found
    · exact Or.inl (Option.some.inj found).symm
    · exact Or.inr found
  refine ⟨inv.clear, ?_, ?_, ?_, ?_⟩
  · intro x other found flag
    rcases cases_of found with rfl | old
    · exact idle flag
    · exact inv.idle x other old flag
  · intro x other found uuid known
    rcases cases_of found with rfl | old
    · rw [fresh] at known
      cases known
    · exact inv.identity x other old uuid known
  · intro x other found gone uuid known
    rcases cases_of found with rfl | old
    · rw [fresh] at known
      cases known
    · exact inv.kv x other old gone uuid known
  · intro x other found gone uuid known
    rcases cases_of found with rfl | old
    · rw [fresh] at known
      cases known
    · exact inv.blobs x other old gone uuid known

/-! ## Steps of requests -/

theorem Inv.finish (inv : s.Inv) (here : s.requests[r]? = some future)
    (stage : ∀ n singleton, future.stage ≠ .spawned n singleton) : (s.finish r).Inv :=
  ⟨inv.lock.finish, inv.registry.finish here stage, inv.identity.finish, inv.job.finish⟩

theorem Inv.acquired (inv : s.Inv) (here : s.requests[r]? = some future)
    (taken : s.acquire r future = some t) : t.Inv := by
  unfold UninstallSystem.acquire at taken
  split at taken
  · next waiting =>
      obtain ⟨locks, took, rfl⟩ := Option.map_eq_some_iff.mp taken
      refine ⟨inv.lock.acquired here waiting took, ?_, ?_, ?_⟩
      · refine inv.registry.frame rfl rfl rfl (setStage_spawned here ?_ ?_)
        · rw [waiting]
          nofun
        · nofun
      · refine inv.identity.frame rfl rfl rfl ?_
        intro x other uuid singleton stage found
        exact setStage_other s r future .locked found (by rw [stage]; nofun)
      · refine inv.job.frame rfl rfl rfl rfl ?_ fun _ _ found => found
        intro x other stage found
        exact setStage_other s r future .locked found (by rw [stage]; nofun)
  · cases taken

theorem installedGet_eq_some {pluginId : String} {package : InstalledPackage}
    (found : s.installedGet pluginId = some package) : s.installed[pluginId]? = some package :=
  (Option.filter_eq_some_iff.mp found).1

theorem Inv.resolved (inv : s.Inv) (here : s.requests[r]? = some future)
    (taken : s.resolve r future = some t) : t.Inv := by
  unfold UninstallSystem.resolve at taken
  split at taken
  · next locked _ =>
      have guarded : future.stage.guarded = true := by rw [locked]; rfl
      have unspawned : ∀ n singleton, future.stage ≠ .spawned n singleton := by rw [locked]; nofun
      split at taken
      · cases taken
        exact inv.finish here unspawned
      · next package found =>
          cases taken
          refine ⟨inv.lock.setStage here guarded rfl, ?_, ?_, inv.job.setStage nofun⟩
          · exact inv.registry.frame rfl rfl rfl (setStage_spawned here unspawned nofun)
          · refine ⟨inv.identity.minted, inv.identity.distinct, inv.identity.running, ?_⟩
            intro x other uuid singleton there stage
            rw [setStage_requests] at there
            split_ifs at there
            · cases there
              cases stage
              exact ⟨package, installedGet_eq_some found, rfl⟩
            · exact inv.identity.reading x other uuid singleton there stage
  · next locked _ =>
      have guarded : future.stage.guarded = true := by rw [locked]; rfl
      have unspawned : ∀ n singleton, future.stage ≠ .spawned n singleton := by rw [locked]; nofun
      split at taken
      · cases taken
        exact inv.finish here unspawned
      · cases taken
        refine ⟨inv.lock.spawned here guarded .verifying, ?_, ?_, ?_⟩
        · exact inv.registry.frame rfl rfl rfl (setStage_spawned here unspawned nofun)
        · refine inv.identity.frame rfl rfl rfl ?_
          intro x other uuid singleton stage found
          exact setStage_other s r future .joining found (by rw [stage]; nofun)
        · have moved : (s.setStage r future .joining).JobInv := inv.job.setStage nofun
          exact moved.spawned nofun rfl
  · cases taken

theorem Inv.registered (inv : s.Inv) (here : s.requests[r]? = some future)
    (taken : s.register r future = some t) : t.Inv := by
  unfold UninstallSystem.register at taken
  split at taken
  · next uuid singleton instanceId stage request free =>
      have guarded : future.stage.guarded = true := by rw [stage]; rfl
      have unspawned : ∀ n singleton, future.stage ≠ .spawned n singleton := by rw [stage]; nofun
      split at taken
      · cases taken
        exact inv.finish here unspawned
      · next clear =>
          cases taken
          obtain ⟨package, found, same⟩ := inv.identity.reading r future uuid singleton here stage
          -- the guard of this start keeps every other user of the lock off the plugin
          have idle : ∀ {pluginId : String}, pluginId ≠ future.pluginId → s.Idle pluginId →
              ∀ (n : Nat) (run : InstanceRun),
                (s.runs ++ [⟨instanceId, future.pluginId, uuid, .loading, false⟩])[n]? = some run →
                run.pluginId = pluginId → run.unregistered = true := by
            intro pluginId other idle n run row plugin
            rcases row_concat.mp row with old | ⟨_, rfl⟩
            · exact idle n run old plugin
            · exact absurd plugin.symm other
          refine ⟨?_, inv.registry.registered request free clear, ?_, ?_⟩
          · have moved : (s.setStage r future (.spawned s.runs.length singleton)).LockInv :=
              inv.lock.setStage here guarded rfl
            refine moved.moved rfl rfl ?_ inv.lock.job
            exact fun x after found => ⟨after, found, rfl, rfl, moved.joining x after found⟩
          · refine ⟨inv.identity.minted, inv.identity.distinct, ?_, ?_⟩
            · intro m run row alive
              rcases row_concat.mp row with old | ⟨_, rfl⟩
              · exact inv.identity.running m run old alive
              · exact ⟨package, found, same⟩
            · intro x other uuid' flag there reading
              apply inv.identity.reading x other uuid' flag _ reading
              exact setStage_other s r future (.spawned s.runs.length singleton) there
                (by rw [reading]; nofun)
          · refine ⟨?_, ?_, inv.job.identity, inv.job.kv, inv.job.blobs⟩
            · intro x other there stage'
              have old : s.requests[x]? = some other :=
                setStage_other s r future (.spawned s.runs.length singleton) there
                  (by rw [stage']; nofun)
              apply idle _ (inv.job.clear x other old stage')
              intro plugin
              have holds : other.stage.guarded = true := by rw [stage']; rfl
              obtain rfl := inv.lock.only here guarded old holds plugin
              rw [here] at old
              cases old
              rw [stage] at stage'
              cases stage'
            · intro x job working uninstalls
              exact idle (inv.lock.alone here guarded working) (inv.job.idle x job working uninstalls)
  · cases taken

theorem Inv.inserted (inv : s.Inv) (here : s.requests[r]? = some future)
    (taken : s.insert r future = some t) : t.Inv := by
  unfold UninstallSystem.insert at taken
  split at taken
  · next n singleton instanceId stage request =>
      cases taken
      have guarded : future.stage.guarded = true := by rw [stage]; rfl
      have moved : (s.setStage r future .awaiting).LockInv := inv.lock.setStage here guarded rfl
      refine ⟨?_, inv.registry.inserted here request stage, ?_, ?_⟩
      · refine moved.moved rfl rfl ?_ inv.lock.job
        exact fun x after found => ⟨after, found, rfl, rfl, moved.joining x after found⟩
      · refine inv.identity.frame rfl rfl rfl ?_
        intro x other uuid flag reading found
        exact setStage_other s r future .awaiting found (by rw [reading]; nofun)
      · refine inv.job.frame rfl rfl rfl rfl ?_ fun _ _ found => found
        intro x other clear found
        exact setStage_other s r future .awaiting found (by rw [clear]; nofun)
  · cases taken

theorem RegistryInv.idle_of_unlisted (inv : s.RegistryInv) (free : s.registering = none)
    {pluginId : String}
    (unlisted : (s.registry.list.any fun handle => handle.pluginId = pluginId) = false) :
    s.Idle pluginId := by
  intro n run row plugin
  cases pending : run.unregistered with
  | true => rfl
  | false =>
      obtain ⟨handle, listed, task⟩ := inv.idle free row pending
      obtain ⟨run', row', _, same, _⟩ := inv.entries run.instanceId handle listed
      rw [task] at row'
      obtain rfl := Option.some.inj (row.symm.trans row')
      have member := RegistryInner.mem_list.mpr ⟨run.instanceId, listed⟩
      have refused := List.any_eq_false.mp unlisted handle member
      rw [← same, plugin] at refused
      exact absurd (decide_eq_true rfl) refused

theorem Inv.checked (inv : s.Inv) (here : s.requests[r]? = some future)
    (taken : s.check r future = some t) : t.Inv := by
  unfold UninstallSystem.check at taken
  split at taken
  · next locked _ free =>
      have guarded : future.stage.guarded = true := by rw [locked]; rfl
      have unspawned : ∀ n singleton, future.stage ≠ .spawned n singleton := by rw [locked]; nofun
      split_ifs at taken with listed
      · cases taken
        exact inv.finish here unspawned
      · cases taken
        refine ⟨inv.lock.setStage here guarded rfl, ?_, ?_, ?_⟩
        · exact inv.registry.frame rfl rfl rfl (setStage_spawned here unspawned nofun)
        · refine inv.identity.frame rfl rfl rfl ?_
          intro x other uuid flag reading found
          exact setStage_other s r future .clear found (by rw [reading]; nofun)
        · refine ⟨?_, inv.job.idle, inv.job.identity, inv.job.kv, inv.job.blobs⟩
          intro x other there clear
          rw [setStage_requests] at there
          split_ifs at there
          · cases there
            exact inv.registry.idle_of_unlisted free (Bool.eq_false_of_not_eq_true listed)
          · exact inv.job.clear x other there clear
  · cases taken

theorem Inv.spawned (inv : s.Inv) (here : s.requests[r]? = some future)
    (taken : s.spawn r future = some t) : t.Inv := by
  unfold UninstallSystem.spawn at taken
  split at taken
  · next clear =>
      cases taken
      have guarded : future.stage.guarded = true := by rw [clear]; rfl
      have unspawned : ∀ n singleton, future.stage ≠ .spawned n singleton := by rw [clear]; nofun
      refine ⟨inv.lock.spawned here guarded .begun, ?_, ?_, ?_⟩
      · exact inv.registry.frame rfl rfl rfl (setStage_spawned here unspawned nofun)
      · refine inv.identity.frame rfl rfl rfl ?_
        intro x other uuid flag reading found
        exact setStage_other s r future .joining found (by rw [reading]; nofun)
      · have moved : (s.setStage r future .joining).JobInv := inv.job.setStage nofun
        exact moved.spawned (fun _ => inv.job.clear r future here clear) rfl
  · cases taken

theorem Inv.returned (inv : s.Inv) (here : s.requests[r]? = some future)
    (taken : s.return_ r future = some t) : t.Inv := by
  unfold UninstallSystem.return_ at taken
  split at taken
  · next stage =>
      cases taken
      exact inv.finish here (by rw [stage]; nofun)
  · next stage =>
      cases taken
      exact inv.finish here (by rw [stage]; nofun)
  · next stage =>
      cases taken
      exact inv.finish here (by rw [stage]; nofun)
  · next stage =>
      split_ifs at taken
      cases taken
      exact inv.finish here (by rw [stage]; nofun)
  · cases taken

theorem Inv.dropped (inv : s.Inv) (here : s.requests[r]? = some future)
    (taken : s.drop r future = some t) : t.Inv := by
  unfold UninstallSystem.drop at taken
  split_ifs at taken with awaits
  cases taken
  apply inv.finish here
  intro n singleton stage
  rw [stage] at awaits
  cases awaits

theorem Inv.requested (inv : s.Inv) (pluginId : String) (request : LifecycleRequest) :
    Inv { s with
      locks := s.locks.ask s.nextRequest pluginId
      requests := s.requests.insert s.nextRequest ⟨pluginId, request, .waiting⟩
      nextRequest := s.nextRequest + 1 } := by
  obtain ⟨_, none, _⟩ := inv.lock.fresh s.nextRequest (le_refl _)
  have old : ∀ {P : Stage → Prop}, ¬ P .waiting → ∀ {x : Nat} {other : RequestFuture},
      P other.stage →
      ((s.requests.insert s.nextRequest ⟨pluginId, request, .waiting⟩)[x]? = some other ↔
        s.requests[x]? = some other) := by
    intro P plain x other kept
    rw [getElem?_insert_eq]
    split_ifs with same
    · subst same
      constructor
      · intro found
        cases found
        exact absurd kept plain
      · intro found
        rw [none] at found
        cases found
    · rfl
  refine ⟨inv.lock.requested pluginId request, ?_, ?_, ?_⟩
  · refine inv.registry.frame rfl rfl rfl ?_
    exact fun x other n flag stage => old (P := (· = .spawned n flag)) nofun stage
  · refine inv.identity.frame rfl rfl rfl ?_
    exact fun x other uuid flag stage => (old (P := (· = .reading uuid flag)) nofun stage).mp
  · refine inv.job.frame rfl rfl rfl rfl ?_ fun _ _ found => found
    exact fun x other stage => (old (P := (· = .clear)) nofun stage).mp

theorem Inv.stepRequest (inv : s.Inv) (here : s.requests[r]? = some future)
    {action : UninstallAction} (taken : s.stepRequest r future action = some t) : t.Inv := by
  cases action with
  | acquire x => exact inv.acquired here taken
  | resolve x => exact inv.resolved here taken
  | register x => exact inv.registered here taken
  | insert x => exact inv.inserted here taken
  | check x => exact inv.checked here taken
  | spawn x => exact inv.spawned here taken
  | return_ x => exact inv.returned here taken
  | drop x => exact inv.dropped here taken
  | install | request | job | run | reap => cases taken

end UninstallSystem

end OxidHome.Uninstall

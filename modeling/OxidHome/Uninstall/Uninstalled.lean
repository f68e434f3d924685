import OxidHome.Uninstall.Exclusion
import OxidHome.Library.Machine

/-!
# Uninstalled identities

The steps of jobs, supervisors and reapers keep the invariants of the requests. What a job purges
stays purged: its installation is gone before a start can get the guard, and no install mints its
uuid again.
-/

namespace OxidHome.Uninstall
open Wit Library Engine Storage History
open Std (TreeMap)

namespace UninstallSystem
variable {s t : UninstallSystem} {r n : Nat} {job : BlockingJob} {run : InstanceRun}

/-! ## Steps of jobs -/

theorem Inv.stored (inv : s.Inv) {kv : KvStore} {blobs : BlobStore}
    (kvKept : ∀ (r : Nat) (job : BlockingJob), s.jobs[r]? = some job → ∀ uuid ∈ job.stage.uuid?,
      KvClean s.kv uuid → KvClean kv uuid)
    (blobsKept : ∀ (r : Nat) (job : BlockingJob), s.jobs[r]? = some job →
      ∀ uuid ∈ job.stage.uuid?, IndexClean s.blobs.index uuid → IndexClean blobs.index uuid) :
    Inv { s with kv := kv, blobs := blobs } := by
  refine ⟨?_, ?_, ?_, inv.job.stored kvKept blobsKept⟩
  · exact ⟨inv.lock.locks, inv.lock.fresh, inv.lock.request, inv.lock.job, inv.lock.joining⟩
  · exact inv.registry.frame rfl rfl rfl fun _ _ _ _ _ => Iff.rfl
  · exact inv.identity.frame rfl rfl rfl fun _ _ _ _ _ found => found

theorem Inv.jobDone (inv : s.Inv) (working : s.jobs[r]? = some job) : (s.jobDone r).Inv := by
  refine ⟨inv.lock.jobDone working, ?_, ?_, inv.job.jobDone⟩
  · exact inv.registry.frame rfl rfl rfl fun _ _ _ _ _ => Iff.rfl
  · exact inv.identity.frame rfl rfl rfl fun _ _ _ _ _ found => found

theorem Inv.setJob (inv : s.Inv) (working : s.jobs[r]? = some job)
    (uninstalls : job.stage.isUninstall = true) {stage : JobStage}
    (identity : ∀ uuid ∈ stage.uuid?, ∃ package, s.installed[job.pluginId]? = some package ∧
      package.installationUuid = uuid)
    (kv : stage.KvGone → ∀ uuid ∈ stage.uuid?, KvClean s.kv uuid)
    (blobs : stage.BlobsGone → ∀ uuid ∈ stage.uuid?, IndexClean s.blobs.index uuid) :
    (s.setJob r job stage).Inv := by
  refine ⟨inv.lock.setJob working stage, ?_, ?_, inv.job.setJob working uninstalls identity kv blobs⟩
  · exact inv.registry.frame rfl rfl rfl fun _ _ _ _ _ => Iff.rfl
  · exact inv.identity.frame rfl rfl rfl fun _ _ _ _ _ found => found

theorem Inv.verified (inv : s.Inv) (working : s.jobs[r]? = some job) {future : RequestFuture}
    (here : s.requests[r]? = some future) :
    Inv { s.setStage r future .verified with jobs := s.jobs.erase r } := by
  have joining : future.stage = .joining := by
    apply inv.lock.joining r future here
    rw [TreeMap.mem_iff_isSome_getElem?, working]
    rfl
  refine ⟨inv.lock.verified here working, ?_, ?_, ?_⟩
  · refine inv.registry.frame rfl rfl rfl (setStage_spawned here ?_ nofun)
    rw [joining]
    nofun
  · refine inv.identity.frame rfl rfl rfl ?_
    intro x other uuid flag reading found
    exact setStage_other s r future .verified found (by rw [reading]; nofun)
  · refine inv.job.frame rfl rfl rfl rfl ?_ ?_
    · intro x other clear found
      exact setStage_other s r future .verified found (by rw [clear]; nofun)
    · intro x other found
      dsimp only at found
      rw [getElem?_erase_eq] at found
      split_ifs at found
      exact found

theorem mem_erase_installed {installed : TreeMap String InstalledPackage} {p q : String}
    {package : InstalledPackage} :
    (installed.erase p)[q]? = some package ↔ p ≠ q ∧ installed[q]? = some package := by
  rw [getElem?_erase_eq]
  split_ifs with same
  · simp [same]
  · simp [same]

theorem Inv.uninstalled (inv : s.Inv) (working : s.jobs[r]? = some job)
    (uninstalls : job.stage.isUninstall = true) :
    Inv { s.jobDone r with installed := s.installed.erase job.pluginId } := by
  have done := inv.jobDone working
  have idle := inv.job.idle r job working uninstalls
  refine ⟨?_, ?_, ⟨?_, ?_, ?_, ?_⟩, ⟨done.job.clear, done.job.idle, ?_, done.job.kv, done.job.blobs⟩⟩
  · exact ⟨done.lock.locks, done.lock.fresh, done.lock.request, done.lock.job, done.lock.joining⟩
  · exact done.registry.frame rfl rfl rfl fun _ _ _ _ _ => Iff.rfl
  · intro p package found
    exact inv.identity.minted p package (mem_erase_installed.mp found).2
  · intro p q package other found found'
    exact inv.identity.distinct p q package other (mem_erase_installed.mp found).2
      (mem_erase_installed.mp found').2
  · intro n run row alive
    obtain ⟨package, found, same⟩ := inv.identity.running n run row alive
    refine ⟨package, mem_erase_installed.mpr ⟨?_, found⟩, same⟩
    intro plugin
    have gone := idle n run row plugin.symm
    rw [inv.not_terminal row alive] at gone
    cases gone
  · intro x future uuid singleton here reading
    obtain ⟨package, found, same⟩ := inv.identity.reading x future uuid singleton here reading
    refine ⟨package, mem_erase_installed.mpr ⟨?_, found⟩, same⟩
    exact inv.lock.alone here (by rw [reading]; rfl) working
  · intro x other found uuid known
    obtain ⟨package, installed, same⟩ := done.job.identity x other found uuid known
    refine ⟨package, mem_erase_installed.mpr ⟨?_, installed⟩, same⟩
    intro plugin
    have found : (s.jobDone r).jobs[x]? = some other := found
    rw [jobDone_jobs] at found
    split_ifs at found with apart
    have holds := inv.lock.job x other found
    rw [← plugin] at holds
    exact apart (inv.lock.exclusive (inv.lock.job r job working) holds)

theorem Inv.stepJob (inv : s.Inv) (working : s.jobs[r]? = some job) (failed : Bool)
    (fault : Option PurgeFault) : (s.stepJob r job failed fault).Inv := by
  have keep : ∀ {stage : JobStage}, job.stage = stage → stage.isUninstall = true →
      job.stage.isUninstall = true := by
    intro stage here uninstalls
    rw [here]
    exact uninstalls
  unfold UninstallSystem.stepJob
  split
  · split
    · exact inv.jobDone working
    · next future here => exact inv.verified working here
  · next begun =>
      split
      · exact inv.setJob working (keep begun rfl) nofun nofun nofun
      · next package found =>
          refine inv.setJob working (keep begun rfl) ?_ nofun nofun
          rintro _ ⟨⟩
          exact ⟨package, found, rfl⟩
  · next unknown =>
      split_ifs
      · exact inv.jobDone working
      · exact inv.uninstalled working (keep unknown rfl)
  · next uuid purged =>
      split_ifs
      · exact inv.jobDone working
      · exact inv.uninstalled working (keep purged rfl)
  · next uuid found =>
      split_ifs
      · exact inv.jobDone working
      · have stored : Inv { s with kv := s.kv.purgeInstallation uuid } :=
          inv.stored (fun _ _ _ _ _ clean => clean.purged uuid) fun _ _ _ _ _ clean => clean
        refine stored.setJob working (keep found rfl) ?_ ?_ nofun
        · rintro _ ⟨⟩
          exact inv.job.identity r job working uuid (by rw [found]; rfl)
        · rintro _ _ ⟨⟩
          exact kvClean_purged s.kv uuid
  · next uuid kvPurged =>
      have kept : ∀ (blobs : BlobStore) (result : Except BlobError Unit),
          s.blobs.purgeInstallation uuid fault = (blobs, result) →
          Inv { s with blobs := blobs } := by
        intro blobs result purged
        apply inv.stored (fun _ _ _ _ _ clean => clean)
        intro _ _ _ other _ clean
        have after := clean.purgeInstallation uuid fault
        rw [purged] at after
        exact after
      split
      · next blobs err purged => exact (kept blobs _ purged).jobDone working
      · next blobs purged =>
          refine (kept blobs _ purged).setJob working (keep kvPurged rfl) ?_ ?_ ?_
          · rintro _ ⟨⟩
            exact inv.job.identity r job working uuid (by rw [kvPurged]; rfl)
          · rintro _ _ ⟨⟩
            exact inv.job.kv r job working (by rw [kvPurged]; trivial) uuid (by rw [kvPurged]; rfl)
          · rintro _ _ ⟨⟩
            exact purgeInstallation_ok purged

/-! ## Steps of supervisors and reapers -/

theorem Inv.phase (inv : s.Inv) (row : s.runs[n]? = some run) (alive : run.phase ≠ .terminal)
    (phase : RunPhase) : (s.setPhase n run phase).Inv := by
  refine ⟨?_, inv.registry.phase row alive phase, inv.identity.phase row alive phase,
    inv.job.phase row phase⟩
  exact ⟨inv.lock.locks, inv.lock.fresh, inv.lock.request, inv.lock.job, inv.lock.joining⟩

variable (toVec : Json → List UInt8)

theorem Inv.hostCall (inv : s.Inv) (row : s.runs[n]? = some run) (alive : run.phase ≠ .terminal)
    (call : StorageCall) : (s.hostCall toVec run call).Inv := by
  cases call with
  | set key value now =>
      refine inv.stored ?_ fun _ _ _ _ _ clean => clean
      exact fun r job working uuid known clean =>
        clean.set (inv.apart row alive working known) toVec run.instanceId key value now
  | delete key =>
      refine inv.stored ?_ fun _ _ _ _ _ clean => clean
      exact fun r job working uuid known clean => clean.delete toVec run.instanceId key
  | writeBlob call =>
      refine inv.stored (fun _ _ _ _ _ clean => clean) ?_
      exact fun r job working uuid known clean => clean.write (inv.apart row alive working known)
  | deleteBlob name failed =>
      refine inv.stored (fun _ _ _ _ _ clean => clean) ?_
      exact fun r job working uuid known clean => clean.delete run.expected run.instanceId name failed

theorem hostCall_runs (s : UninstallSystem) (run : InstanceRun) (call : StorageCall) :
    (s.hostCall toVec run call).runs = s.runs := by
  cases call <;> rfl

theorem Inv.stepRun (inv : s.Inv) (row : s.runs[n]? = some run) {move : RunMove}
    (taken : s.stepRun toVec n run move = some t) : t.Inv := by
  have alive : ∀ {phase : RunPhase}, run.phase = phase → phase ≠ .terminal →
      run.phase ≠ .terminal := by
    intro phase here apart
    rw [here]
    exact apart
  cases move with
  | identify quotaBytes blobQuotaBytes =>
      unfold UninstallSystem.stepRun at taken
      dsimp only at taken
      split at taken
      · next loading =>
          split_ifs at taken
          · cases taken
            exact inv.phase row (alive loading nofun) _
          · cases taken
            exact inv.phase row (alive loading nofun) _
      · cases taken
  | registerKv =>
      unfold UninstallSystem.stepRun at taken
      dsimp only at taken
      split at taken
      · next quotaBytes blobQuotaBytes identified =>
          cases taken
          have stored : Inv { s with
              kv := s.kv.registerInstance run.expected run.instanceId quotaBytes } := by
            refine inv.stored ?_ fun _ _ _ _ _ clean => clean
            exact fun r job working uuid known clean => clean.registered
              (inv.apart row (alive identified nofun) working known) run.instanceId quotaBytes
          exact stored.phase row (alive identified nofun) _
      · cases taken
  | registerBlobs =>
      unfold UninstallSystem.stepRun at taken
      dsimp only at taken
      split at taken
      · next blobQuotaBytes registered =>
          cases taken
          have stored : Inv { s with
              blobs := (s.blobs.registerInstance run.expected run.instanceId blobQuotaBytes).1 } := by
            refine inv.stored (fun _ _ _ _ _ clean => clean) ?_
            exact fun r job working uuid known clean => clean.registered
              (inv.apart row (alive registered nofun) working known) run.instanceId blobQuotaBytes
          exact stored.phase row (alive registered nofun) _
      · cases taken
  | call call =>
      unfold UninstallSystem.stepRun at taken
      dsimp only at taken
      split at taken
      · next live =>
          cases taken
          exact inv.phase row (alive live nofun) _
      · cases taken
  | answer =>
      unfold UninstallSystem.stepRun at taken
      dsimp only at taken
      split at taken
      · next call calling =>
          cases taken
          have stored := inv.hostCall toVec row (alive calling nofun) call
          apply stored.phase _ (alive calling nofun)
          rw [hostCall_runs]
          exact row
      · cases taken
  | crash =>
      unfold UninstallSystem.stepRun at taken
      dsimp only at taken
      split at taken
      · next live =>
          cases taken
          exact inv.phase row (alive live nofun) _
      · cases taken
  | retry =>
      unfold UninstallSystem.stepRun at taken
      dsimp only at taken
      split at taken
      · next backoff =>
          cases taken
          exact inv.phase row (alive backoff nofun) _
      · cases taken
  | stop =>
      unfold UninstallSystem.stepRun at taken
      dsimp only at taken
      split at taken
      · cases taken
      · cases taken
      · next running =>
          cases taken
          exact inv.phase row running _

theorem Inv.reaped (inv : s.Inv) (row : s.runs[n]? = some run)
    (taken : s.reap n run = some t) : t.Inv := by
  unfold UninstallSystem.reap at taken
  split_ifs at taken with ready
  cases taken
  simp only [Bool.and_eq_true, Bool.not_eq_true', Option.isNone_iff_eq_none] at ready
  obtain ⟨⟨terminal, pending⟩, free⟩ := ready
  have ended : run.phase = .terminal := by
    cases phase : run.phase with
    | terminal => rfl
    | _ => rw [phase] at terminal; cases terminal
  have idle : ∀ {pluginId : String}, s.Idle pluginId →
      ∀ (m : Nat) (after : InstanceRun),
        (s.runs.set n { run with unregistered := true })[m]? = some after →
        after.pluginId = pluginId → after.unregistered = true := by
    intro pluginId idle m after found plugin
    rcases (row_set row).mp found with ⟨_, rfl⟩ | ⟨_, old⟩
    · rfl
    · exact idle m after old plugin
  refine ⟨?_, inv.registry.reaped row ended pending free, ?_, ?_⟩
  · exact ⟨inv.lock.locks, inv.lock.fresh, inv.lock.request, inv.lock.job, inv.lock.joining⟩
  · refine ⟨inv.identity.minted, inv.identity.distinct, ?_, inv.identity.reading⟩
    intro m after found waits
    rcases (row_set row).mp found with ⟨_, rfl⟩ | ⟨_, old⟩
    · exact absurd ended waits
    · exact inv.identity.running m after old waits
  · exact ⟨fun x other here clear => idle (inv.job.clear x other here clear),
      fun x other working uninstalls => idle (inv.job.idle x other working uninstalls),
      inv.job.identity, inv.job.kv, inv.job.blobs⟩

/-! ## Runs -/

theorem Inv.installed (inv : s.Inv) {pluginId : String} {package : InstalledPackage}
    (absent : pluginId ∉ s.installed) (unseen : package.installationUuid ∉ s.minted) :
    Inv { s with
      installed := s.installed.insert pluginId package
      minted := package.installationUuid :: s.minted } := by
  refine ⟨?_, ?_, inv.identity.installed absent unseen,
    ⟨inv.job.clear, inv.job.idle, ?_, inv.job.kv, inv.job.blobs⟩⟩
  · exact ⟨inv.lock.locks, inv.lock.fresh, inv.lock.request, inv.lock.job, inv.lock.joining⟩
  · exact inv.registry.frame rfl rfl rfl fun _ _ _ _ _ => Iff.rfl
  · intro x job working uuid known
    obtain ⟨old, found, same⟩ := inv.job.identity x job working uuid known
    refine ⟨old, ?_, same⟩
    dsimp only
    rw [getElem?_insert_ne]
    · exact found
    · rintro rfl
      apply absent
      rw [TreeMap.mem_iff_isSome_getElem?, found]
      rfl

theorem Inv.step (inv : s.Inv) {action : UninstallAction}
    (taken : s.step toVec action = some t) : t.Inv := by
  cases action with
  | install pluginId package =>
      unfold UninstallSystem.step at taken
      dsimp only at taken
      split_ifs at taken with refused
      cases taken
      obtain ⟨absent, unseen⟩ := not_or.mp refused
      exact inv.installed absent unseen
  | request pluginId request =>
      cases taken
      exact inv.requested pluginId request
  | job x failed fault =>
      unfold UninstallSystem.step at taken
      dsimp only at taken
      split at taken
      · cases taken
      · next job working =>
          cases taken
          exact inv.stepJob working failed fault
  | run n move =>
      unfold UninstallSystem.step at taken
      dsimp only at taken
      split at taken
      · cases taken
      · next run row => exact inv.stepRun toVec row taken
  | reap n =>
      unfold UninstallSystem.step at taken
      dsimp only at taken
      split at taken
      · cases taken
      · next run row => exact inv.reaped row taken
  | acquire x | resolve x | register x | insert x | check x | spawn x | return_ x | drop x =>
      unfold UninstallSystem.step at taken
      dsimp only at taken
      split at taken
      · cases taken
      · next future here => exact inv.stepRequest here taken

theorem inv_new (blobsRoot : Bool) (idCounterSeed : Nat) : (new blobsRoot idCounterSeed).Inv := by
  refine ⟨⟨WeakLocks.sound_new, ?_, ?_, ?_, ?_⟩, ⟨?_, ?_, ?_, ?_⟩, ⟨?_, ?_, ?_, ?_⟩, ⟨?_, ?_, ?_, ?_, ?_⟩⟩ <;>
    simp [new, RegistryInner.new, WeakLocks.new]

/-! ## Who has written -/

def expecteds (s : UninstallSystem) : List String := s.runs.map InstanceRun.expected

structure StorageInv (s : UninstallSystem) : Prop where
  minted : ∀ uuid ∈ s.expecteds, uuid ∈ s.minted
  unused : ∀ uuid, uuid ∉ s.expecteds → KvClean s.kv uuid ∧ IndexClean s.blobs.index uuid
  unknown : ∀ (r : Nat) (job : BlockingJob), s.jobs[r]? = some job → job.stage = .unknown →
    ∀ package : InstalledPackage, s.installed[job.pluginId]? = some package →
      package.installationUuid ∉ s.expecteds

structure Dead (s : UninstallSystem) (uuid : String) : Prop where
  minted : uuid ∈ s.minted
  gone : ∀ (pluginId : String) (package : InstalledPackage),
    s.installed[pluginId]? = some package → package.installationUuid ≠ uuid
  kv : KvClean s.kv uuid
  blobs : IndexClean s.blobs.index uuid

structure Advance (s t : UninstallSystem) : Prop where
  minted : ∀ uuid ∈ s.minted, uuid ∈ t.minted
  installed : ∀ (pluginId : String) (package : InstalledPackage),
    t.installed[pluginId]? = some package →
    s.installed[pluginId]? = some package ∨ package.installationUuid ∉ s.minted
  kv : ∀ uuid, (∀ (n : Nat) (run : InstanceRun), s.runs[n]? = some run → run.phase ≠ .terminal →
    run.expected ≠ uuid) → KvClean s.kv uuid → KvClean t.kv uuid
  blobs : ∀ uuid, (∀ (n : Nat) (run : InstanceRun), s.runs[n]? = some run →
    run.phase ≠ .terminal → run.expected ≠ uuid) →
    IndexClean s.blobs.index uuid → IndexClean t.blobs.index uuid
  kept : ∀ uuid ∈ s.expecteds, uuid ∈ t.expecteds
  started : ∀ uuid ∈ t.expecteds, uuid ∈ s.expecteds ∨
    ∃ (r : Nat) (future : RequestFuture) (singleton : Bool),
    s.requests[r]? = some future ∧ future.stage = .reading uuid singleton ∧ t.jobs = s.jobs
  unknown : ∀ (x : Nat) (job : BlockingJob), t.jobs[x]? = some job → job.stage = .unknown →
    s.jobs[x]? = some job ∨ t.installed[job.pluginId]? = none

theorem advance_of_same (minted : t.minted = s.minted) (installed : t.installed = s.installed)
    (kv : t.kv = s.kv) (blobs : t.blobs = s.blobs) (expecteds : t.expecteds = s.expecteds)
    (unknown : ∀ (x : Nat) (job : BlockingJob), t.jobs[x]? = some job → job.stage = .unknown →
      s.jobs[x]? = some job) : s.Advance t := by
  refine ⟨?_, ?_, ?_, ?_, ?_, ?_, ?_⟩
  · rw [minted]
    exact fun _ mem => mem
  · rw [installed]
    exact fun _ _ found => Or.inl found
  · rw [kv]
    exact fun _ _ clean => clean
  · rw [blobs]
    exact fun _ _ clean => clean
  · rw [expecteds]
    exact fun _ mem => mem
  · rw [expecteds]
    exact fun _ mem => Or.inl mem
  · exact fun x job found stage => Or.inl (unknown x job found stage)

theorem insert_job_unknown {jobs : TreeMap Nat BlockingJob} (apart : job.stage ≠ .unknown) (x : Nat)
    (other : BlockingJob) (found : (jobs.insert r job)[x]? = some other)
    (stage : other.stage = .unknown) : jobs[x]? = some other := by
  rw [getElem?_insert_eq] at found
  split_ifs at found
  · cases found
    exact absurd stage apart
  · exact found

theorem erase_job {jobs : TreeMap Nat BlockingJob} (x : Nat) (other : BlockingJob)
    (found : (jobs.erase r)[x]? = some other) : jobs[x]? = some other := by
  rw [getElem?_erase_eq] at found
  split_ifs at found
  exact found

theorem advance_finish : s.Advance (s.finish r) :=
  advance_of_same rfl rfl rfl rfl rfl fun _ _ found _ => found

theorem advance_setStage {future : RequestFuture} (stage : Stage) :
    s.Advance (s.setStage r future stage) :=
  advance_of_same rfl rfl rfl rfl rfl fun _ _ found _ => found

theorem register_advance {future : RequestFuture} (taken : s.register r future = some t)
    (here : s.requests[r]? = some future) : s.Advance t := by
  unfold UninstallSystem.register at taken
  split at taken
  · next uuid singleton instanceId stage _ _ =>
      split at taken
      · cases taken
        exact advance_finish
      · cases taken
        refine ⟨fun _ mem => mem, fun _ _ found => Or.inl found, fun _ _ clean => clean,
          fun _ _ clean => clean, ?_, ?_, fun _ _ found _ => Or.inl found⟩
        · intro known mem
          rw [expecteds, List.map_append]
          exact List.mem_append_left _ mem
        · intro known mem
          rw [expecteds, List.map_append] at mem
          rcases List.mem_append.mp mem with old | last
          · exact Or.inl old
          · right
            refine ⟨r, future, singleton, here, ?_, rfl⟩
            rw [List.mem_singleton.mp last]
            exact stage
  · cases taken

theorem stepRequest_advance {future : RequestFuture} {action : UninstallAction}
    (here : s.requests[r]? = some future) (taken : s.stepRequest r future action = some t) :
    s.Advance t := by
  cases action with
  | acquire x =>
      dsimp only [stepRequest] at taken
      unfold UninstallSystem.acquire at taken
      split at taken
      · obtain ⟨locks, _, rfl⟩ := Option.map_eq_some_iff.mp taken
        exact advance_of_same rfl rfl rfl rfl rfl fun _ _ found _ => found
      · cases taken
  | resolve x =>
      dsimp only [stepRequest] at taken
      unfold UninstallSystem.resolve at taken
      split at taken
      · split at taken
        · cases taken
          exact advance_finish
        · cases taken
          exact advance_setStage _
      · split at taken
        · cases taken
          exact advance_finish
        · cases taken
          exact advance_of_same rfl rfl rfl rfl rfl (insert_job_unknown nofun)
      · cases taken
  | register x => exact register_advance taken here
  | insert x =>
      dsimp only [stepRequest] at taken
      unfold UninstallSystem.insert at taken
      split at taken
      · cases taken
        exact advance_of_same rfl rfl rfl rfl rfl fun _ _ found _ => found
      · cases taken
  | check x =>
      dsimp only [stepRequest] at taken
      unfold UninstallSystem.check at taken
      split at taken
      · split_ifs at taken
        · cases taken
          exact advance_finish
        · cases taken
          exact advance_setStage _
      · cases taken
  | spawn x =>
      dsimp only [stepRequest] at taken
      unfold UninstallSystem.spawn at taken
      split at taken
      · cases taken
        exact advance_of_same rfl rfl rfl rfl rfl (insert_job_unknown nofun)
      · cases taken
  | return_ x =>
      dsimp only [stepRequest] at taken
      unfold UninstallSystem.return_ at taken
      split at taken
      · cases taken
        exact advance_finish
      · cases taken
        exact advance_finish
      · cases taken
        exact advance_finish
      · split_ifs at taken
        cases taken
        exact advance_finish
      · cases taken
  | drop x =>
      dsimp only [stepRequest] at taken
      unfold UninstallSystem.drop at taken
      split_ifs at taken
      cases taken
      exact advance_finish
  | install | request | job | run | reap => cases taken

theorem advance_jobDone : s.Advance (s.jobDone r) :=
  advance_of_same rfl rfl rfl rfl rfl fun x other found _ => erase_job x other found

theorem advance_uninstalled (pluginId : String) :
    s.Advance { s.jobDone r with installed := s.installed.erase pluginId } :=
  ⟨fun _ mem => mem, fun _ _ found => Or.inl (mem_erase_installed.mp found).2,
    fun _ _ clean => clean, fun _ _ clean => clean, fun _ mem => mem, fun _ mem => Or.inl mem,
    fun x other found _ => Or.inl (erase_job x other found)⟩

theorem stepJob_advance (failed : Bool) (fault : Option PurgeFault) :
    s.Advance (s.stepJob r job failed fault) := by
  unfold UninstallSystem.stepJob
  split
  · split
    · exact advance_jobDone
    · exact advance_of_same rfl rfl rfl rfl rfl fun x other found _ => erase_job x other found
  · split
    · next absent =>
        refine ⟨fun _ mem => mem, fun _ _ found => Or.inl found, fun _ _ clean => clean,
          fun _ _ clean => clean, fun _ mem => mem, fun _ mem => Or.inl mem, ?_⟩
        intro x other found stage
        rw [setJob_jobs] at found
        split_ifs at found
        · cases found
          exact Or.inr absent
        · exact Or.inl found
    · exact advance_of_same rfl rfl rfl rfl rfl (insert_job_unknown nofun)
  · split_ifs
    · exact advance_jobDone
    · exact advance_uninstalled job.pluginId
  · split_ifs
    · exact advance_jobDone
    · exact advance_uninstalled job.pluginId
  · next uuid _ =>
      split_ifs
      · exact advance_jobDone
      · refine ⟨fun _ mem => mem, fun _ _ found => Or.inl found, ?_,
          fun _ _ clean => clean, fun _ mem => mem, fun _ mem => Or.inl mem, ?_⟩
        · exact fun _ _ clean => clean.purged uuid
        · intro x other found stage
          exact Or.inl (insert_job_unknown (by nofun) x other found stage)
  · next uuid _ =>
      have kept : ∀ {blobs : BlobStore} {result : Except BlobError Unit},
          s.blobs.purgeInstallation uuid fault = (blobs, result) → ∀ other : String,
          IndexClean s.blobs.index other → IndexClean blobs.index other := by
        intro blobs result purged other clean
        have after := clean.purgeInstallation uuid fault
        rw [purged] at after
        exact after
      split
      · next blobs err purged =>
          exact ⟨fun _ mem => mem, fun _ _ found => Or.inl found, fun _ _ clean => clean,
            fun other _ clean => kept purged other clean, fun _ mem => mem,
            fun _ mem => Or.inl mem, fun x other found _ => Or.inl (erase_job x other found)⟩
      · next blobs purged =>
          refine ⟨fun _ mem => mem, fun _ _ found => Or.inl found, fun _ _ clean => clean,
            fun other _ clean => kept purged other clean, fun _ mem => mem,
            fun _ mem => Or.inl mem, ?_⟩
          intro x other found stage
          exact Or.inl (insert_job_unknown (by nofun) x other found stage)

theorem setPhase_expecteds (row : s.runs[n]? = some run) (phase : RunPhase) :
    (s.setPhase n run phase).expecteds = s.expecteds :=
  map_set_same InstanceRun.expected _ row rfl

theorem advance_setPhase (row : s.runs[n]? = some run) (phase : RunPhase) :
    s.Advance (s.setPhase n run phase) :=
  advance_of_same rfl rfl rfl rfl (setPhase_expecteds row phase) fun _ _ found _ => found

theorem advance_stored (row : s.runs[n]? = some run) (alive : run.phase ≠ .terminal)
    (phase : RunPhase) {kv : KvStore} {blobs : BlobStore}
    (kvKept : ∀ uuid, run.expected ≠ uuid → KvClean s.kv uuid → KvClean kv uuid)
    (blobsKept : ∀ uuid, run.expected ≠ uuid → IndexClean s.blobs.index uuid →
      IndexClean blobs.index uuid) :
    s.Advance { s.setPhase n run phase with kv := kv, blobs := blobs } := by
  have same := setPhase_expecteds row phase
  refine ⟨fun _ mem => mem, fun _ _ found => Or.inl found, ?_, ?_, ?_, ?_,
    fun _ _ found _ => Or.inl found⟩
  · exact fun uuid quiet => kvKept uuid (quiet n run row alive)
  · exact fun uuid quiet => blobsKept uuid (quiet n run row alive)
  · exact fun uuid mem => same ▸ mem
  · exact fun uuid mem => Or.inl (same ▸ mem)

theorem stepRun_advance (row : s.runs[n]? = some run) {move : RunMove}
    (taken : s.stepRun toVec n run move = some t) : s.Advance t := by
  have alive : ∀ {phase : RunPhase}, run.phase = phase → phase ≠ .terminal →
      run.phase ≠ .terminal := by
    intro phase here apart
    rw [here]
    exact apart
  cases move with
  | identify quotaBytes blobQuotaBytes =>
      unfold UninstallSystem.stepRun at taken
      dsimp only at taken
      split at taken
      · split_ifs at taken <;> cases taken <;> exact advance_setPhase row _
      · cases taken
  | registerKv =>
      unfold UninstallSystem.stepRun at taken
      dsimp only at taken
      split at taken
      · next quotaBytes blobQuotaBytes identified =>
          cases taken
          refine advance_stored row (alive identified nofun) _ ?_ fun _ _ clean => clean
          exact fun uuid apart clean => clean.registered apart run.instanceId quotaBytes
      · cases taken
  | registerBlobs =>
      unfold UninstallSystem.stepRun at taken
      dsimp only at taken
      split at taken
      · next blobQuotaBytes registered =>
          cases taken
          refine advance_stored row (alive registered nofun) _ (fun _ _ clean => clean) ?_
          exact fun uuid apart clean => clean.registered apart run.instanceId blobQuotaBytes
      · cases taken
  | answer =>
      unfold UninstallSystem.stepRun at taken
      dsimp only at taken
      split at taken
      · next call calling =>
          cases taken
          cases call with
          | set key value now =>
              refine advance_stored row (alive calling nofun) _ ?_ fun _ _ clean => clean
              exact fun uuid apart clean => clean.set apart toVec run.instanceId key value now
          | delete key =>
              refine advance_stored row (alive calling nofun) _ ?_ fun _ _ clean => clean
              exact fun uuid apart clean => clean.delete toVec run.instanceId key
          | writeBlob call =>
              refine advance_stored row (alive calling nofun) _ (fun _ _ clean => clean) ?_
              exact fun uuid apart clean => clean.write apart
          | deleteBlob name failed =>
              refine advance_stored row (alive calling nofun) _ (fun _ _ clean => clean) ?_
              exact fun uuid apart clean => clean.delete run.expected run.instanceId name failed
      · cases taken
  | call call | crash | retry =>
      unfold UninstallSystem.stepRun at taken
      dsimp only at taken
      split at taken
      · cases taken
        exact advance_setPhase row _
      · cases taken
  | stop =>
      unfold UninstallSystem.stepRun at taken
      dsimp only at taken
      split at taken
      · cases taken
      · cases taken
      · cases taken
        exact advance_setPhase row _

theorem reap_advance (row : s.runs[n]? = some run) (taken : s.reap n run = some t) :
    s.Advance t := by
  unfold UninstallSystem.reap at taken
  split_ifs at taken
  cases taken
  exact advance_of_same rfl rfl rfl rfl (map_set_same InstanceRun.expected _ row rfl)
    fun _ _ found _ => found

theorem step_advance {action : UninstallAction} (taken : s.step toVec action = some t) :
    s.Advance t := by
  cases action with
  | install pluginId package =>
      unfold UninstallSystem.step at taken
      dsimp only at taken
      split_ifs at taken with refused
      cases taken
      obtain ⟨_, unseen⟩ := not_or.mp refused
      refine ⟨fun _ mem => List.mem_cons_of_mem _ mem, ?_, fun _ _ clean => clean,
        fun _ _ clean => clean, fun _ mem => mem, fun _ mem => Or.inl mem,
        fun _ _ found _ => Or.inl found⟩
      intro p after found
      dsimp only at found
      rw [getElem?_insert_eq] at found
      split_ifs at found
      · cases found
        exact Or.inr unseen
      · exact Or.inl found
  | request pluginId request =>
      cases taken
      exact advance_of_same rfl rfl rfl rfl rfl fun _ _ found _ => found
  | job x failed fault =>
      unfold UninstallSystem.step at taken
      dsimp only at taken
      split at taken
      · cases taken
      · cases taken
        exact stepJob_advance failed fault
  | run n move =>
      unfold UninstallSystem.step at taken
      dsimp only at taken
      split at taken
      · cases taken
      · next run row => exact stepRun_advance toVec row taken
  | reap n =>
      unfold UninstallSystem.step at taken
      dsimp only at taken
      split at taken
      · cases taken
      · next run row => exact reap_advance row taken
  | acquire x | resolve x | register x | insert x | check x | spawn x | return_ x | drop x =>
      unfold UninstallSystem.step at taken
      dsimp only at taken
      split at taken
      · cases taken
      · next future here => exact stepRequest_advance here taken

theorem Dead.step {uuid : String} (dead : s.Dead uuid) (inv : s.Inv) (advance : s.Advance t) :
    t.Dead uuid := by
  have quiet : ∀ (n : Nat) (run : InstanceRun), s.runs[n]? = some run → run.phase ≠ .terminal →
      run.expected ≠ uuid := by
    intro n run row alive same
    obtain ⟨package, found, mine⟩ := inv.identity.running n run row alive
    exact dead.gone run.pluginId package found (mine.trans same)
  refine ⟨advance.minted uuid dead.minted, ?_, advance.kv uuid quiet dead.kv,
    advance.blobs uuid quiet dead.blobs⟩
  intro pluginId package found same
  rcases advance.installed pluginId package found with old | unseen
  · exact dead.gone pluginId package old same
  · rw [same] at unseen
    exact unseen dead.minted

theorem StorageInv.step (storage : s.StorageInv) (inv : s.Inv) (advance : s.Advance t) :
    t.StorageInv := by
  have minted : ∀ uuid ∈ t.expecteds, uuid ∈ s.minted := by
    intro uuid mem
    rcases advance.started uuid mem with old | ⟨r, future, singleton, here, reading, _⟩
    · exact storage.minted uuid old
    · obtain ⟨package, found, rfl⟩ := inv.identity.reading r future uuid singleton here reading
      exact inv.identity.minted _ package found
  refine ⟨fun uuid mem => advance.minted uuid (minted uuid mem), ?_, ?_⟩
  · intro uuid unused
    have before : uuid ∉ s.expecteds := fun mem => unused (advance.kept uuid mem)
    have quiet : ∀ (n : Nat) (run : InstanceRun), s.runs[n]? = some run →
        run.phase ≠ .terminal → run.expected ≠ uuid := by
      intro n run row _ same
      apply before
      rw [← same]
      exact List.mem_map_of_mem (List.mem_of_getElem? row)
    obtain ⟨kv, blobs⟩ := storage.unused uuid before
    exact ⟨advance.kv uuid quiet kv, advance.blobs uuid quiet blobs⟩
  · intro x job working unknown package found mem
    rcases advance.unknown x job working unknown with before | absent
    · rcases advance.installed job.pluginId package found with old | unseen
      · rcases advance.started _ mem with ran | ⟨r, future, singleton, here, reading, _⟩
        · exact storage.unknown x job before unknown package old ran
        · -- a start that has read this row holds the guard of its plugin, and so does the job
          obtain ⟨read, row, same⟩ := inv.identity.reading r future _ singleton here reading
          have plugin := inv.identity.distinct _ _ _ _ old row same.symm
          exact inv.lock.alone here (by rw [reading]; rfl) before plugin
      · exact unseen (minted _ mem)
    · rw [absent] at found
      cases found

theorem storage_new (blobsRoot : Bool) (idCounterSeed : Nat) :
    (new blobsRoot idCounterSeed).StorageInv := by
  refine ⟨by simp [new, expecteds], ?_, by simp [new]⟩
  intro uuid _
  exact ⟨⟨nofun, nofun⟩, ⟨nofun, nofun⟩⟩

/-! ## Uninstall excludes running code -/

def Uses (s : UninstallSystem) (r : Nat) (pluginId : String) : Prop :=
  (∃ future, s.requests[r]? = some future ∧ future.pluginId = pluginId) ∨
    ∃ job, s.jobs[r]? = some job ∧ job.pluginId = pluginId

def Holds (s : UninstallSystem) (r : Nat) (pluginId : String) : Prop :=
  (∃ future, s.requests[r]? = some future ∧ future.pluginId = pluginId ∧
    future.stage.guarded = true) ∨
    ∃ job, s.jobs[r]? = some job ∧ job.pluginId = pluginId

structure Excludes (s : UninstallSystem) : Prop where
  holder : ∀ r r' pluginId, s.Holds r pluginId → s.Holds r' pluginId → r = r'
  mutex : ∀ r r' pluginId, s.Uses r pluginId → s.Uses r' pluginId → ∃ mutex holds holds',
    s.locks.clients[r]? = some ⟨pluginId, mutex, holds⟩ ∧
      s.locks.clients[r']? = some ⟨pluginId, mutex, holds'⟩
  unlisted : ∀ (r : Nat) (job : BlockingJob), s.jobs[r]? = some job →
    job.stage.isUninstall = true → ∀ (id : String) (handle : InstanceHandle),
      s.registry.instances[id]? = some handle → handle.pluginId ≠ job.pluginId
  unloaded : ∀ (r : Nat) (job : BlockingJob), s.jobs[r]? = some job →
    job.stage.isUninstall = true → ∀ (n : Nat) (run : InstanceRun), s.runs[n]? = some run →
      run.phase ≠ .terminal → run.pluginId ≠ job.pluginId ∧
        ∀ package : InstalledPackage, s.installed[job.pluginId]? = some package →
          run.expected ≠ package.installationUuid
  purged : ∀ (r : Nat) (job : BlockingJob) (fault : Option PurgeFault)
    (package : InstalledPackage), s.jobs[r]? = some job →
    job.stage = .unknown ∨ (∃ uuid, job.stage = .purged uuid) →
    s.installed[job.pluginId]? = some package →
    ∀ (later : List UninstallAction) (t : UninstallSystem),
      exec (step toVec) s (.job r false fault :: later) = some t →
      KvClean t.kv package.installationUuid ∧ IndexClean t.blobs.index package.installationUuid

theorem LockInv.uses (inv : s.LockInv) {pluginId : String} (uses : s.Uses r pluginId) :
    ∃ holds, s.ClientOf r pluginId holds := by
  rcases uses with ⟨future, here, rfl⟩ | ⟨job, working, rfl⟩
  · exact ⟨_, inv.request r future here⟩
  · exact ⟨true, inv.job r job working⟩

theorem LockInv.holds (inv : s.LockInv) {pluginId : String} (holds : s.Holds r pluginId) :
    s.ClientOf r pluginId true := by
  rcases holds with ⟨future, here, rfl, guarded⟩ | ⟨job, working, rfl⟩
  · exact inv.guard here guarded
  · exact inv.job r job working

theorem Inv.unlisted (inv : s.Inv) (working : s.jobs[r]? = some job)
    (uninstalls : job.stage.isUninstall = true) {id : String} {handle : InstanceHandle}
    (listed : s.registry.instances[id]? = some handle) : handle.pluginId ≠ job.pluginId := by
  intro same
  obtain ⟨run, row, _, plugin, pending⟩ := inv.registry.entries id handle listed
  have gone := inv.job.idle r job working uninstalls _ run row (plugin.trans same)
  rw [pending] at gone
  cases gone

theorem Inv.unloaded (inv : s.Inv) (working : s.jobs[r]? = some job)
    (uninstalls : job.stage.isUninstall = true) (row : s.runs[n]? = some run)
    (alive : run.phase ≠ .terminal) : run.pluginId ≠ job.pluginId := by
  intro same
  have gone := inv.job.idle r job working uninstalls n run row same
  rw [inv.not_terminal row alive] at gone
  cases gone

theorem Inv.purged (inv : s.Inv) (storage : s.StorageInv) (working : s.jobs[r]? = some job)
    (stage : job.stage = .unknown ∨ ∃ uuid, job.stage = .purged uuid) {package : InstalledPackage}
    (found : s.installed[job.pluginId]? = some package) :
    KvClean s.kv package.installationUuid ∧ IndexClean s.blobs.index package.installationUuid := by
  rcases stage with unknown | ⟨uuid, purged⟩
  · exact storage.unused _ (storage.unknown r job working unknown package found)
  · have known : uuid ∈ job.stage.uuid? := by rw [purged]; rfl
    obtain ⟨its, there, rfl⟩ := inv.job.identity r job working uuid known
    obtain rfl := Option.some.inj (found.symm.trans there)
    exact ⟨inv.job.kv r job working (by rw [purged]; trivial) _ known,
      inv.job.blobs r job working (by rw [purged]; trivial) _ known⟩

theorem Inv.dead (inv : s.Inv) (storage : s.StorageInv) (working : s.jobs[r]? = some job)
    (stage : job.stage = .unknown ∨ ∃ uuid, job.stage = .purged uuid) {package : InstalledPackage}
    (found : s.installed[job.pluginId]? = some package) (fault : Option PurgeFault) :
    (s.stepJob r job false fault).Dead package.installationUuid := by
  obtain ⟨kv, blobs⟩ := inv.purged storage working stage found
  have erased : s.stepJob r job false fault =
      { s.jobDone r with installed := s.installed.erase job.pluginId } := by
    unfold UninstallSystem.stepJob
    rcases stage with unknown | ⟨uuid, purged⟩
    · rw [unknown]
      rfl
    · rw [purged]
      rfl
  rw [erased]
  refine ⟨inv.identity.minted _ package found, ?_, kv, blobs⟩
  intro pluginId other there same
  obtain ⟨apart, there⟩ := mem_erase_installed.mp there
  exact apart (inv.identity.distinct _ _ package other found there same.symm)

theorem uninstall_excludes_running_code (blobsRoot : Bool) (idCounterSeed : Nat)
    (actions : List UninstallAction)
    (ran : exec (step toVec) (new blobsRoot idCounterSeed) actions = some s) :
    s.Excludes toVec := by
  have advanced : ∀ (u : UninstallSystem) (action : UninstallAction) (v : UninstallSystem),
      u.Inv ∧ u.StorageInv → u.step toVec action = some v → v.Inv ∧ v.StorageInv := by
    intro u action v both taken
    obtain ⟨inv, storage⟩ := both
    exact ⟨inv.step toVec taken, storage.step inv (step_advance toVec taken)⟩
  obtain ⟨inv, storage⟩ :=
    exec_invariant advanced ⟨inv_new blobsRoot idCounterSeed, storage_new blobsRoot idCounterSeed⟩ ran
  refine ⟨?_, ?_, ?_, ?_, ?_⟩
  · intro r r' pluginId here there
    exact inv.lock.exclusive (inv.lock.holds here) (inv.lock.holds there)
  · intro r r' pluginId here there
    obtain ⟨holds, mutex, client⟩ := inv.lock.uses here
    obtain ⟨holds', mutex', client'⟩ := inv.lock.uses there
    have same : mutex = mutex' := inv.lock.locks.one_mutex client client' rfl
    rw [← same] at client'
    exact ⟨mutex, holds, holds', client, client'⟩
  · exact fun r job working uninstalls id handle => inv.unlisted working uninstalls
  · intro r job working uninstalls n run row alive
    refine ⟨inv.unloaded working uninstalls row alive, ?_⟩
    intro package found same
    obtain ⟨mine, here, uuid⟩ := inv.identity.running n run row alive
    apply inv.unloaded working uninstalls row alive
    exact inv.identity.distinct _ _ mine package here found (uuid.trans same)
  · intro r job fault package working stage found later t rest
    obtain ⟨u, taken, rest⟩ := exec_cons.mp rest
    have taken' : s.stepJob r job false fault = u := by
      unfold step at taken
      dsimp only at taken
      rw [working] at taken
      exact Option.some.inj taken
    have dead : u.Dead package.installationUuid := by
      rw [← taken']
      exact inv.dead storage working stage found fault
    have kept : ∀ (u : UninstallSystem) (action : UninstallAction) (v : UninstallSystem),
        u.Inv ∧ u.Dead package.installationUuid → u.step toVec action = some v →
        v.Inv ∧ v.Dead package.installationUuid := by
      intro u action v both taken
      obtain ⟨inv, dead⟩ := both
      exact ⟨inv.step toVec taken, dead.step inv (step_advance toVec taken)⟩
    obtain ⟨_, dead⟩ := exec_invariant kept ⟨inv.step toVec taken, dead⟩ rest
    exact ⟨dead.kv, dead.blobs⟩

/-- `lamp` has run and stored a value. -/
def lampRun : List UninstallAction :=
  [.install "lamp" ⟨"i", false, false⟩, .request "lamp" (.start "a"), .acquire 0, .resolve 0,
    .register 0, .insert 0, .run 0 (.identify 100 100), .run 0 .registerKv, .run 0 .registerBlobs,
    .return_ 0, .run 0 (.call (.set "on" (.boolVal true) 5)), .run 0 .answer]

/-- Its uninstall has purged both stores. -/
def lampRemoval : List UninstallAction :=
  [.request "lamp" .uninstall, .run 0 .stop, .reap 0, .acquire 1, .check 1, .spawn 1,
    .job 1 false none, .job 1 false none, .job 1 false none]

def oneByte : Json → List UInt8 := fun _ => [1]

theorem uninstall_excludes_running_code_lamp :
    (exec (step oneByte) (new false 0) lampRun).map (fun s => s.kv.kv.map (·.value)) =
      some [[1]] ∧
    ∃ (s : UninstallSystem) (job : BlockingJob),
      exec (step oneByte) (new false 0) (lampRun ++ lampRemoval) = some s ∧
      s.jobs[1]? = some job ∧ job.stage = .purged "i" ∧ s.kv.kv = [] ∧ s.Excludes oneByte :=
  ⟨rfl, _, ⟨"lamp", .purged "i"⟩, rfl, rfl, rfl, rfl,
    uninstall_excludes_running_code oneByte false 0 (lampRun ++ lampRemoval) rfl⟩

end UninstallSystem

end OxidHome.Uninstall

import OxidHome.Library.Machine
import OxidHome.Library.WeakLocks
import OxidHome.Engine.Registry
import OxidHome.Storage.Kv
import OxidHome.Storage.Blobs

/-!
# Start, stop and uninstall requests

The handlers behind `plugin_lifecycle_lock`, with supervisors and reapers. The manifest of an
installed package names its own plugin. A stretch without an await cannot be dropped; a blocking job
runs on. A supervisor that is inside a host call waits for the call's blocking job. Stop requests
need no state of their own: a supervisor may end whenever it is not inside a host call.
-/

namespace OxidHome.Uninstall
open Wit Library Engine Storage History
open Std (TreeMap)

structure InstalledPackage where
  installationUuid : String
  singleton : Bool
  /-- `get` does not see it; `installation_uuid_for` does. -/
  quarantined : Bool

inductive StorageCall where
  | set (key : String) (value : Value) (now : Int)
  | delete (key : String)
  | writeBlob (call : WriteCall)
  | deleteBlob (name : String) (failed : Bool)

inductive RunPhase where
  | loading
  /-- `installation_uuid` is known to be that of the live row. -/
  | identified (quotaBytes blobQuotaBytes : Nat)
  | kvRegistered (blobQuotaBytes : Nat)
  | live
  | calling (call : StorageCall)
  | backoff
  | terminal

def RunPhase.isTerminal : RunPhase → Bool
  | .terminal => true
  | _ => false

structure InstanceRun where
  instanceId : String
  pluginId : String
  /-- `LoadMode::Installed` -/
  expected : String
  phase : RunPhase
  unregistered : Bool

inductive RunMove where
  | identify (quotaBytes blobQuotaBytes : Nat)
  | registerKv
  | registerBlobs
  | call (call : StorageCall)
  | answer
  | crash
  | retry
  /-- A failed load, an exhausted restart policy, a stop. -/
  | stop

inductive LifecycleRequest where
  | start (instanceId : String)
  | uninstall
  | schema

inductive Stage where
  | waiting
  | locked
  /-- The manifest is being read. -/
  | reading (installationUuid : String) (singleton : Bool)
  /-- Inside `register`, whose factory has spawned the supervisor. -/
  | spawned (run : Nat) (singleton : Bool)
  | awaiting
  | clear
  /-- The blocking job has the guard. -/
  | joining
  /-- The guard came back with the result of the job. -/
  | verified

def Stage.guarded : Stage → Bool
  | .waiting | .joining => false
  | _ => true

def Stage.awaits : Stage → Bool
  | .waiting | .reading .. | .awaiting | .joining => true
  | _ => false

structure RequestFuture where
  pluginId : String
  request : LifecycleRequest
  stage : Stage

inductive JobStage where
  | verifying
  | begun
  /-- `installation_uuid_for` found nothing. -/
  | unknown
  | found (installationUuid : String)
  | kvPurged (installationUuid : String)
  | purged (installationUuid : String)

structure BlockingJob where
  pluginId : String
  stage : JobStage

inductive UninstallAction where
  | install (pluginId : String) (package : InstalledPackage)
  | request (pluginId : String) (request : LifecycleRequest)
  | acquire (r : Nat)
  | resolve (r : Nat)
  | register (r : Nat)
  | insert (r : Nat)
  | check (r : Nat)
  | spawn (r : Nat)
  | return_ (r : Nat)
  | drop (r : Nat)
  | job (r : Nat) (failed : Bool) (fault : Option PurgeFault)
  | run (n : Nat) (move : RunMove)
  | reap (n : Nat)

structure UninstallSystem where
  locks : WeakLocks String
  registry : RegistryInner
  /-- The start that holds the mutex of the registry. -/
  registering : Option Nat
  installed : TreeMap String InstalledPackage
  /-- Every uuid that an install has had. -/
  minted : List String
  kv : KvStore
  blobs : BlobStore
  runs : List InstanceRun
  requests : TreeMap Nat RequestFuture
  jobs : TreeMap Nat BlockingJob
  nextRequest : Nat

namespace UninstallSystem

def new (blobsRoot : Bool) (idCounterSeed : Nat) : UninstallSystem :=
  ⟨.new, .new, none, ∅, [], .new, .new blobsRoot idCounterSeed, [], ∅, ∅, 0⟩

def setStage (s : UninstallSystem) (r : Nat) (future : RequestFuture) (stage : Stage) :
    UninstallSystem :=
  { s with requests := s.requests.insert r { future with stage := stage } }

/-- The future is gone. The guard stays with its job. -/
def finish (s : UninstallSystem) (r : Nat) : UninstallSystem :=
  { s with
    requests := s.requests.erase r
    locks := if r ∈ s.jobs then s.locks else s.locks.leave r }

def jobDone (s : UninstallSystem) (r : Nat) : UninstallSystem :=
  { s with
    jobs := s.jobs.erase r
    locks := if r ∈ s.requests then s.locks.unlock r else s.locks.leave r }

def acquire (s : UninstallSystem) (r : Nat) (future : RequestFuture) : Option UninstallSystem :=
  match future.stage with
  | .waiting => (s.locks.take r).map fun locks => { s.setStage r future .locked with locks := locks }
  | _ => none

/-- `installed_plugins().get` -/
def installedGet (s : UninstallSystem) (pluginId : String) : Option InstalledPackage :=
  s.installed[pluginId]?.filter (!·.quarantined)

def resolve (s : UninstallSystem) (r : Nat) (future : RequestFuture) : Option UninstallSystem :=
  match future.stage, future.request with
  | .locked, .start _ =>
      match s.installedGet future.pluginId with
      | none => some (s.finish r)
      | some package =>
          some (s.setStage r future (.reading package.installationUuid package.singleton))
  | .locked, .schema =>
      match s.installedGet future.pluginId with
      | none => some (s.finish r)
      | some _ =>
          some { s.setStage r future .joining with
            jobs := s.jobs.insert r ⟨future.pluginId, .verifying⟩ }
  | _, _ => none

def register (s : UninstallSystem) (r : Nat) (future : RequestFuture) : Option UninstallSystem :=
  match future.stage, future.request, s.registering with
  | .reading installationUuid singleton, .start instanceId, none =>
      match s.registry.refusal instanceId future.pluginId singleton with
      | some _ => some (s.finish r)
      | none =>
          some { s.setStage r future (.spawned s.runs.length singleton) with
            registering := some r
            runs := s.runs ++ [⟨instanceId, future.pluginId, installationUuid, .loading, false⟩] }
  | _, _, _ => none

def insert (s : UninstallSystem) (r : Nat) (future : RequestFuture) : Option UninstallSystem :=
  match future.stage, future.request with
  | .spawned n singleton, .start instanceId =>
      some { s.setStage r future .awaiting with
        registering := none
        registry := s.registry.insert instanceId future.pluginId singleton
          ⟨instanceId, future.pluginId, n⟩ }
  | _, _ => none

def check (s : UninstallSystem) (r : Nat) (future : RequestFuture) : Option UninstallSystem :=
  match future.stage, future.request, s.registering with
  | .locked, .uninstall, none =>
      if s.registry.list.any fun handle => handle.pluginId = future.pluginId then some (s.finish r)
      else some (s.setStage r future .clear)
  | _, _, _ => none

def spawn (s : UninstallSystem) (r : Nat) (future : RequestFuture) : Option UninstallSystem :=
  match future.stage with
  | .clear =>
      some { s.setStage r future .joining with
        jobs := s.jobs.insert r ⟨future.pluginId, .begun⟩ }
  | _ => none

/-- The handler returns: a start that failed or saw its instance, a job that was joined. -/
def return_ (s : UninstallSystem) (r : Nat) (future : RequestFuture) : Option UninstallSystem :=
  match future.stage with
  | .reading .. | .awaiting | .verified => some (s.finish r)
  | .joining => if r ∈ s.jobs then none else some (s.finish r)
  | _ => none

def drop (s : UninstallSystem) (r : Nat) (future : RequestFuture) : Option UninstallSystem :=
  if future.stage.awaits then some (s.finish r) else none

def setJob (s : UninstallSystem) (r : Nat) (job : BlockingJob) (stage : JobStage) :
    UninstallSystem :=
  { s with jobs := s.jobs.insert r { job with stage := stage } }

/-- A purge of blobs that fails may have removed the rows. -/
def stepJob (s : UninstallSystem) (r : Nat) (job : BlockingJob) (failed : Bool)
    (fault : Option PurgeFault) : UninstallSystem :=
  match job.stage with
  | .verifying =>
      match s.requests[r]? with
      | none => s.jobDone r
      | some future => { s.setStage r future .verified with jobs := s.jobs.erase r }
  | .begun =>
      match s.installed[job.pluginId]? with
      | none => s.setJob r job .unknown
      | some package => s.setJob r job (.found package.installationUuid)
  | .unknown | .purged _ =>
      -- an install may have come after the lookup that found nothing
      if failed then s.jobDone r
      else { s.jobDone r with installed := s.installed.erase job.pluginId }
  | .found uuid =>
      if failed then s.jobDone r
      else { s.setJob r job (.kvPurged uuid) with kv := s.kv.purgeInstallation uuid }
  | .kvPurged uuid =>
      match s.blobs.purgeInstallation uuid fault with
      | (blobs, .error _) => { s.jobDone r with blobs := blobs }
      | (blobs, .ok ()) => { s.setJob r job (.purged uuid) with blobs := blobs }

variable (toVec : Json → List UInt8)

def hostCall (s : UninstallSystem) (run : InstanceRun) : StorageCall → UninstallSystem
  | .set key value now =>
      { s with kv := s.kv.apply toVec (.set run.expected run.instanceId key value now) }
  | .delete key => { s with kv := s.kv.apply toVec (.delete run.expected run.instanceId key) }
  | .writeBlob call =>
      { s with blobs := (s.blobs.write { call with
          installationUuid := run.expected, instanceId := run.instanceId }).1 }
  | .deleteBlob name failed =>
      { s with blobs := (s.blobs.delete run.expected run.instanceId name failed).1 }

def setPhase (s : UninstallSystem) (n : Nat) (run : InstanceRun) (phase : RunPhase) :
    UninstallSystem :=
  { s with runs := s.runs.set n { run with phase := phase } }

def stepRun (s : UninstallSystem) (n : Nat) (run : InstanceRun) :
    RunMove → Option UninstallSystem
  | .identify quotaBytes blobQuotaBytes =>
      match run.phase with
      | .loading =>
          if (s.installedGet run.pluginId).any (·.installationUuid = run.expected) then
            some (s.setPhase n run (.identified quotaBytes blobQuotaBytes))
          else some (s.setPhase n run .terminal)
      | _ => none
  | .registerKv =>
      match run.phase with
      | .identified quotaBytes blobQuotaBytes =>
          some { s.setPhase n run (.kvRegistered blobQuotaBytes) with
            kv := s.kv.registerInstance run.expected run.instanceId quotaBytes }
      | _ => none
  | .registerBlobs =>
      match run.phase with
      | .kvRegistered blobQuotaBytes =>
          some { s.setPhase n run .live with
            blobs := (s.blobs.registerInstance run.expected run.instanceId blobQuotaBytes).1 }
      | _ => none
  | .call call =>
      match run.phase with
      | .live => some (s.setPhase n run (.calling call))
      | _ => none
  | .answer =>
      match run.phase with
      | .calling call => some ((s.hostCall toVec run call).setPhase n run .live)
      | _ => none
  | .crash =>
      match run.phase with
      | .live => some (s.setPhase n run .backoff)
      | _ => none
  | .retry =>
      match run.phase with
      | .backoff => some (s.setPhase n run .loading)
      | _ => none
  | .stop =>
      match run.phase with
      | .calling _ | .terminal => none
      | _ => some (s.setPhase n run .terminal)

def reap (s : UninstallSystem) (n : Nat) (run : InstanceRun) : Option UninstallSystem :=
  if run.phase.isTerminal && !run.unregistered && s.registering.isNone then
    some { s with
      registry := s.registry.unregister run.instanceId run.pluginId
      runs := s.runs.set n { run with unregistered := true } }
  else none

def stepRequest (s : UninstallSystem) (r : Nat) (future : RequestFuture) :
    UninstallAction → Option UninstallSystem
  | .acquire _ => s.acquire r future
  | .resolve _ => s.resolve r future
  | .register _ => s.register r future
  | .insert _ => s.insert r future
  | .check _ => s.check r future
  | .spawn _ => s.spawn r future
  | .return_ _ => s.return_ r future
  | .drop _ => s.drop r future
  | _ => none

def step (s : UninstallSystem) (action : UninstallAction) : Option UninstallSystem :=
  match action with
  | .install pluginId package =>
      if pluginId ∈ s.installed ∨ package.installationUuid ∈ s.minted then none
      else some { s with
        installed := s.installed.insert pluginId package
        minted := package.installationUuid :: s.minted }
  | .request pluginId request =>
      some { s with
        locks := s.locks.ask s.nextRequest pluginId
        requests := s.requests.insert s.nextRequest ⟨pluginId, request, .waiting⟩
        nextRequest := s.nextRequest + 1 }
  | .acquire r | .resolve r | .register r | .insert r | .check r | .spawn r | .return_ r
  | .drop r =>
      match s.requests[r]? with
      | none => none
      | some future => s.stepRequest r future action
  | .job r failed fault =>
      match s.jobs[r]? with
      | none => none
      | some job => some (s.stepJob r job failed fault)
  | .run n move =>
      match s.runs[n]? with
      | none => none
      | some run => s.stepRun toVec n run move
  | .reap n =>
      match s.runs[n]? with
      | none => none
      | some run => s.reap n run

end UninstallSystem

end OxidHome.Uninstall

import OxidHome.Audit.TwoPhase
import OxidHome.Library.Traces
import OxidHome.Library.TreeMaps

/-!
# What the two phases cover

Every step of a request is one of a few effects on the ledger and on the trace (`Effect`), and the
permits it takes or gives back are those of its future and its job. The rest is derived from that.
-/

namespace OxidHome.Audit
open Library
open Api.Mcp (ToolOutcome ReadOutcome)

/-! ## One request -/

/-- The pending row that the job, or the request that awaits it, may still finalize. -/
def Job.owner (job : Job) : Option UInt64 :=
  match job.write, job.state with
  | .finalize id _, .queued => some id
  | .recordIntent _, .written (.ok id) => some id
  | .recordIntent _, .returned (some (.ok id)) => some id
  | _, _ => none

def Thread.owner (t : Thread) : Option UInt64 :=
  match t.job with
  | some job => job.owner
  | none =>
      match t.future with
      | some ⟨.running id, _⟩ => some id
      | _ => none

theorem Thread.owner_job {t : Thread} {job : Job} (left : t.job = some job) :
    t.owner = job.owner := by
  rw [Thread.owner, left]

def Thread.Unrecorded (t : Thread) : Prop :=
  (∃ permit, t.future = some ⟨.arrived, permit⟩) ∨
    ∃ entry permit, t.job = some ⟨.recordIntent entry, permit, .queued⟩

/-- The completed row that the request has been told of, or is about to be. -/
def Job.confirmed (job : Job) : Option UInt64 :=
  match job.write, job.state with
  | .recordCompleted _, .written (.ok id) => some id
  | .recordCompleted _, .returned (some (.ok id)) => some id
  | _, _ => none

def Thread.confirmed (t : Thread) : Option UInt64 := t.job.bind (·.confirmed)

def Future.permits (future : Future) : Nat := future.permit.toNat

def Job.permits (job : Job) : Nat := job.permit.toNat

def Thread.permits (t : Thread) : Nat :=
  t.future.elim 0 Future.permits + t.job.elim 0 Job.permits

def Stage.Fits (call : Call) (permit : Bool) (job : Option Job) : Stage → Prop
  | .arrived | .passed => permit = false ∧ job = none
  | .running _ => permit = call.isQueued ∧ job = none
  | .reading => permit = true ∧ call.isQueued = true ∧ job = none
  | .intending => permit = false ∧ ∃ entry held state, job = some ⟨.recordIntent entry, held, state⟩
  | .recording | .completing _ =>
      permit = false ∧ ∃ entry held state, job = some ⟨.recordCompleted entry, held, state⟩
  | .finalizing =>
      permit = false ∧ ∃ id input held state, job = some ⟨.finalize id input, held, state⟩

def Job.Fits (t : Thread) (job : Job) : Prop :=
  match job.state with
  | .queued | .written _ => job.permit = t.call.isQueued
  | .returned output =>
      t.future.isSome = true ∧
        job.permit = (output.isSome && Job.handsBack ⟨job.write, t.call.isQueued, job.state⟩ t)

def Call.intentEntry : Call → Option AuditEntry
  | .http request =>
      match request.verified with
      | .admitted tokenId actorKind => some (request.intent tokenId actorKind)
      | _ => none
  | .tool request =>
      (toolRoute request.name).map fun (family, _) => newPendingAuditEntry request.tokenId family
  | .resource _ => none

/-- The one row of what is refused before it runs, and of a resource read. -/
def Call.Completes (call : Call) (entry : AuditEntry) : Prop :=
  match call with
  | .http request =>
      match request.verified with
      | .denied fp => entry = request.probe fp
      | .constrained tokenId actorKind sentinel =>
          entry = request.denial tokenId actorKind sentinel
      | _ => False
  | .tool request => ∃ family outcome, entry = newCompletedAuditEntry request.tokenId family outcome
  | .resource request => ∃ family outcome, entry = newAuditEntry request.tokenId family outcome

def Call.Writes (call : Call) : BlockingWrite → Prop
  | .recordIntent entry => call.intentEntry = some entry
  | .recordCompleted entry => call.Completes entry
  | .finalize _ _ => True

structure Thread.Wf (t : Thread) : Prop where
  stage : ∀ stage permit, t.future = some ⟨stage, permit⟩ → stage.Fits t.call permit t.job
  job : ∀ job, t.job = some job → job.Fits t
  writes : ∀ job, t.job = some job → t.call.Writes job.write

/-- Nothing is gained without the ledger. -/
structure Quiet (t t' : Thread) : Prop where
  call : t'.call = t.call
  owner : ∀ id, t'.owner = some id → t.owner = some id
  unrecorded : t'.Unrecorded → t.Unrecorded
  confirmed : ∀ id, t'.confirmed = some id → t.confirmed = some id

inductive Announces (n : Nat) (t : Thread) : List Event → Prop
  | nothing : Announces n t []
  | passed (anonymous : t.call.isAnonymous = true) : Announces n t [.started n t.call]
  | started {id : UInt64} (owner : t.owner = some id) : Announces n t [.started n t.call]
  | served {id : UInt64} (confirmed : t.confirmed = some id) : Announces n t [.served n]

inductive Effect (n : Nat) (t : Thread) (ledger : AuditLog) (t' : Thread) :
    AuditLog → List Event → Prop
  | still {events : List Event} (quiet : Quiet t t') (announces : Announces n t events) :
      Effect n t ledger t' ledger events
  | intent {id : UInt64} {ledger' : AuditLog} {now pick : Int64} {entry : AuditEntry}
      (call : t'.call = t.call) (fresh : t.Unrecorded) (own : t.call.intentEntry = some entry)
      (owner : t'.owner = some id) (recorded : ¬ t'.Unrecorded) (confirmed : t'.confirmed = none)
      (wrote : ledger.recordIntent now entry pick = .ok (id, ledger')) :
      Effect n t ledger t' ledger' [.intent n id]
  | completed {id : UInt64} {ledger' : AuditLog} {now pick : Int64} {entry : AuditEntry}
      (call : t'.call = t.call) (own : t.call.Completes entry) (owner : t'.owner = none)
      (recorded : ¬ t'.Unrecorded) (confirmed : t'.confirmed = some id)
      (wrote : ledger.recordCompleted now entry pick = .ok (id, ledger')) :
      Effect n t ledger t' ledger' [.completed n id]
  | finalized {id : UInt64} {ledger' : AuditLog} {now : Int64} {input : FinalizeInput}
      {permit : Bool} (call : t'.call = t.call)
      (mine : t.job = some ⟨.finalize id input, permit, .queued⟩) (owner : t'.owner = none)
      (recorded : ¬ t'.Unrecorded) (confirmed : t'.confirmed = none)
      (wrote : ledger.finalize now id input.status input.decision input.requiredScope
        input.executionOutcome input.domainError = .ok ledger') :
      Effect n t ledger t' ledger' [.finalized n id]

structure Moved (s : AuditSystem) (n : Nat) (t : Thread) (s' : AuditSystem) (t' : Thread)
    (events : List Event) : Prop where
  threads : s'.threads = s.threads.insert n t'
  trace : s'.trace = s.trace ++ events
  nextRequest : s'.nextRequest = s.nextRequest
  effect : Effect n t s.ledger t' s'.ledger events
  wf : t'.Wf
  permits : s'.available + t'.permits = s.available + t.permits

def Thread.ended (t : Thread) : Thread := { t with future := none, job := none }

theorem Thread.ended_wf (t : Thread) : t.ended.Wf where
  stage := by
    intro stage permit running
    cases running
  job := by
    intro job left
    cases left
  writes := by
    intro job left
    cases left

theorem Thread.ended_quiet (t : Thread) : Quiet t t.ended where
  call := rfl
  owner := by
    intro id owner
    cases owner
  unrecorded := by
    intro fresh
    rcases fresh with ⟨_, arrived⟩ | ⟨_, _, queued⟩
    · cases arrived
    · cases queued
  confirmed := by
    intro id confirmed
    cases confirmed

def Thread.spawned (t : Thread) (stage : Stage) (write : BlockingWrite) (permit : Bool) : Thread :=
  { t with future := some ⟨stage, false⟩, job := some ⟨write, permit, .queued⟩ }

theorem Thread.spawned_permits (t : Thread) (stage : Stage) (write : BlockingWrite) (permit : Bool) :
    (t.spawned stage write permit).permits = permit.toNat := by
  show (false : Bool).toNat + permit.toNat = permit.toNat
  exact Nat.zero_add _

theorem Thread.spawned_wf {t : Thread} {stage : Stage} {write : BlockingWrite} {permit : Bool}
    (fits : stage.Fits t.call false (some ⟨write, permit, .queued⟩))
    (held : permit = t.call.isQueued) (writes : t.call.Writes write) :
    (t.spawned stage write permit).Wf where
  stage := by
    intro stage' permit' running
    obtain ⟨rfl, rfl⟩ : stage = stage' ∧ false = permit' := by simpa [spawned] using running
    exact fits
  job := by
    intro job left
    obtain rfl := Option.some.inj left
    exact held
  writes := by
    intro job left
    obtain rfl := Option.some.inj left
    exact writes

theorem Thread.spawned_unrecorded {t : Thread} {stage : Stage} {write : BlockingWrite}
    {permit : Bool} (there : stage ≠ .arrived)
    (fresh : (t.spawned stage write permit).Unrecorded) : ∃ entry, write = .recordIntent entry := by
  rcases fresh with ⟨_, arrived⟩ | ⟨entry, _, queued⟩
  · obtain ⟨rfl, _⟩ : stage = .arrived ∧ _ := by simpa [spawned] using arrived
    exact absurd rfl there
  · obtain ⟨rfl, _⟩ : write = .recordIntent entry ∧ _ := by simpa [spawned] using queued
    exact ⟨entry, rfl⟩

theorem Thread.spawned_quiet {t : Thread} {stage : Stage} {write : BlockingWrite} {permit : Bool}
    (there : stage ≠ .arrived)
    (owner : ∀ id input, write = .finalize id input → t.owner = some id)
    (fresh : ∀ entry, write = .recordIntent entry → t.Unrecorded) :
    Quiet t (t.spawned stage write permit) where
  call := rfl
  owner := by
    intro id owns
    cases write with
    | finalize id' input =>
        obtain rfl : id' = id := Option.some.inj owns
        exact owner id' input rfl
    | recordIntent entry => cases owns
    | recordCompleted entry => cases owns
  unrecorded := by
    intro unrecorded
    obtain ⟨entry, intends⟩ := spawned_unrecorded there unrecorded
    exact fresh entry intends
  confirmed := by
    intro id confirmed
    cases write <;> cases confirmed

theorem Thread.Wf.plain {t : Thread} {stage : Stage} {permit : Bool} (wf : t.Wf)
    (here : t.future = some ⟨stage, permit⟩) (plain : stage = .arrived ∨ stage = .passed) :
    t.permits = 0 ∧ t.job = none := by
  have fits := wf.stage stage permit here
  rcases plain with rfl | rfl
  all_goals
    obtain ⟨rfl, idle⟩ := fits
    rw [Thread.permits, here, idle]
    exact ⟨rfl, rfl⟩

def Thread.moved (t : Thread) (future : Future) : Thread := { t with future := some future, job := none }

theorem Thread.moved_wf {t : Thread} {future : Future}
    (fits : future.stage.Fits t.call future.permit none) : (t.moved future).Wf where
  stage := by
    intro stage permit running
    obtain rfl := Option.some.inj running
    exact fits
  job := by
    intro job left
    cases left
  writes := by
    intro job left
    cases left

theorem Thread.moved_quiet {t : Thread} {future : Future}
    (there : future.stage ≠ .arrived)
    (owner : ∀ id, future.stage = .running id → t.owner = some id) : Quiet t (t.moved future) where
  call := rfl
  owner := by
    intro id owns
    cases future with
    | mk stage permit =>
        cases stage with
        | running id' =>
            obtain rfl : id' = id := Option.some.inj owns
            exact owner id' rfl
        | _ => cases owns
  unrecorded := by
    intro fresh
    rcases fresh with ⟨_, arrived⟩ | ⟨_, _, queued⟩
    · obtain rfl := Option.some.inj arrived
      exact absurd rfl there
    · cases queued
  confirmed := by
    intro id confirmed
    cases confirmed

namespace AuditSystem
variable {s : AuditSystem} {n : Nat} {t : Thread}

theorem moved_spawn {a : Nat} {stage : Stage} {write : BlockingWrite} {permit : Bool}
    (there : stage ≠ .arrived)
    (owner : ∀ id input, write = .finalize id input → t.owner = some id)
    (fresh : ∀ entry, write = .recordIntent entry → t.Unrecorded)
    (wf : (t.spawned stage write permit).Wf)
    (permits : a + permit.toNat = s.available + t.permits) :
    Moved s n t ({ s with available := a }.spawn n t stage write permit)
      (t.spawned stage write permit) [] where
  threads := rfl
  trace := (List.append_nil _).symm
  nextRequest := rfl
  effect := .still (Thread.spawned_quiet there owner fresh) .nothing
  wf := wf
  permits := by
    rw [Thread.spawned_permits]
    exact permits

theorem moved_first {a : Nat} {stage : Stage} {write : BlockingWrite} {permit : Bool}
    {held : Bool} (wf : t.Wf) (here : t.future = some ⟨.arrived, held⟩)
    (first : (stage = .intending ∧ ∃ entry, write = .recordIntent entry) ∨
      ((stage = .recording ∨ ∃ body, stage = .completing body) ∧
        ∃ entry, write = .recordCompleted entry))
    (queued : permit = t.call.isQueued) (writes : t.call.Writes write)
    (permits : a + permit.toNat = s.available) :
    Moved s n t ({ s with available := a }.spawn n t stage write permit)
      (t.spawned stage write permit) [] := by
  obtain ⟨zero, idle⟩ := wf.plain here (Or.inl rfl)
  refine moved_spawn ?_ ?_ (fun _ _ => Or.inl ⟨held, here⟩) ?_ (by rw [zero, permits, Nat.add_zero])
  · rcases first with ⟨rfl, _⟩ | ⟨rfl | ⟨_, rfl⟩, _⟩ <;> simp
  · rcases first with ⟨_, entry, rfl⟩ | ⟨_, entry, rfl⟩ <;> simp
  · refine Thread.spawned_wf ?_ queued writes
    rcases first with ⟨rfl, entry, rfl⟩ | ⟨rfl | ⟨_, rfl⟩, entry, rfl⟩
    all_goals exact ⟨rfl, entry, permit, .queued, rfl⟩

theorem moved_respond {p : Bool} (permits : p.toNat = t.permits) :
    Moved s n t ((s.respond n t).release p) t.ended [] where
  threads := rfl
  trace := (List.append_nil _).symm
  nextRequest := rfl
  effect := .still t.ended_quiet .nothing
  wf := t.ended_wf
  permits := by
    show s.available + p.toNat + 0 = _
    rw [permits, Nat.add_zero]

theorem moved_ends (zero : t.permits = 0) : Moved s n t (s.respond n t) t.ended [] :=
  moved_respond (p := false) zero.symm

theorem moved_requireToken {permit : Bool} (wf : t.Wf) (here : t.future = some ⟨.arrived, permit⟩)
    {request : HttpRequest} (call : t.call = .http request) :
    ∃ t' events, Moved s n t (s.requireToken n t request) t' events := by
  obtain ⟨zero, idle⟩ := wf.plain here (Or.inl rfl)
  have unqueued : false = t.call.isQueued := by rw [call]; rfl
  unfold requireToken
  split_ifs with anonymous
  · have same : { t with future := some ⟨.passed, false⟩ } = t.moved ⟨.passed, false⟩ := by
      rw [Thread.moved, ← idle]
    rw [same]
    refine ⟨t.moved ⟨.passed, false⟩, [.started n t.call], rfl, rfl, rfl, ?_, ?_, ?_⟩
    · refine .still (Thread.moved_quiet (by simp) (by simp)) (.passed ?_)
      rw [call]
      exact anonymous
    · exact Thread.moved_wf ⟨rfl, rfl⟩
    · rw [zero]
      rfl
  · cases verified : request.verified with
    | internal => exact ⟨_, _, moved_ends zero⟩
    | denied fp =>
        refine ⟨_, _, moved_first (a := s.available) wf here
          (Or.inr ⟨Or.inl rfl, _, rfl⟩) unqueued ?_ rfl⟩
        simp only [Call.Writes, call, Call.Completes, verified]
    | constrained tokenId actorKind sentinel =>
        refine ⟨_, _, moved_first (a := s.available) wf here
          (Or.inr ⟨Or.inl rfl, _, rfl⟩) unqueued ?_ rfl⟩
        simp only [Call.Writes, call, Call.Completes, verified]
    | admitted tokenId actorKind =>
        refine ⟨_, _, moved_first (a := s.available) wf here
          (Or.inl ⟨rfl, _, rfl⟩) unqueued ?_ rfl⟩
        simp only [Call.Writes, call, Call.intentEntry, verified]

theorem moved_toolCall {permit : Bool} (wf : t.Wf) (here : t.future = some ⟨.arrived, permit⟩)
    {request : ToolCall} (call : t.call = .tool request) :
    ∃ t' events, Moved s n t (s.toolCall n t request) t' events := by
  have queued : true = t.call.isQueued := by rw [call]; rfl
  unfold toolCall
  cases free : s.available with
  | zero => exact ⟨_, _, moved_ends (wf.plain here (Or.inl rfl)).1⟩
  | succ available =>
      simp only
      cases route : toolRoute request.name with
      | none =>
          refine ⟨_, _, moved_first wf here (Or.inr ⟨Or.inr ⟨_, rfl⟩, _, rfl⟩) queued ?_ free.symm⟩
          rw [Call.Writes, call]
          exact ⟨_, _, rfl⟩
      | some routed =>
          obtain ⟨family, required⟩ := routed
          simp only
          split_ifs
          · refine ⟨_, _, moved_first wf here (Or.inl ⟨rfl, _, rfl⟩) queued ?_ free.symm⟩
            rw [Call.Writes, call, Call.intentEntry, route]
            rfl
          · refine ⟨_, _, moved_first wf here (Or.inr ⟨Or.inr ⟨_, rfl⟩, _, rfl⟩) queued ?_
              free.symm⟩
            rw [Call.Writes, call]
            exact ⟨_, _, rfl⟩

theorem moved_resourceRead {permit : Bool} (wf : t.Wf) (here : t.future = some ⟨.arrived, permit⟩)
    {request : ResourceRead} (call : t.call = .resource request) :
    ∃ t' events, Moved s n t (s.resourceRead n t) t' events := by
  obtain ⟨zero, idle⟩ := wf.plain here (Or.inl rfl)
  unfold resourceRead
  cases free : s.available with
  | zero => exact ⟨_, _, moved_ends zero⟩
  | succ available =>
      have same : { t with future := some ⟨.reading, true⟩ } = t.moved ⟨.reading, true⟩ := by
        rw [Thread.moved, ← idle]
      simp only [same]
      refine ⟨t.moved ⟨.reading, true⟩, [], rfl, (List.append_nil _).symm, rfl, ?_, ?_, ?_⟩
      · exact .still (Thread.moved_quiet (by simp) (by simp)) .nothing
      · exact Thread.moved_wf ⟨rfl, by rw [call]; rfl, rfl⟩
      · rw [zero, free]
        rfl

theorem fits_state {stage : Stage} {call : Call} {permit : Bool} {write : BlockingWrite}
    {held held' : Bool} {state state' : JobState}
    (fits : stage.Fits call permit (some ⟨write, held, state⟩)) :
    stage.Fits call permit (some ⟨write, held', state'⟩) := by
  cases stage with
  | arrived | passed | running id =>
      obtain ⟨_, left⟩ := fits
      cases left
  | reading =>
      obtain ⟨_, _, left⟩ := fits
      cases left
  | intending | recording | completing body =>
      obtain ⟨free, entry, _, _, same⟩ := fits
      cases same
      exact ⟨free, entry, held', state', rfl⟩
  | finalizing =>
      obtain ⟨free, id, input, _, _, same⟩ := fits
      cases same
      exact ⟨free, id, input, held', state', rfl⟩

theorem wf_state {write : BlockingWrite} {held held' : Bool} {state state' : JobState} (wf : t.Wf)
    (job : t.job = some ⟨write, held, state⟩)
    (fits : Job.Fits { t with job := some ⟨write, held', state'⟩ } ⟨write, held', state'⟩) :
    Thread.Wf { t with job := some ⟨write, held', state'⟩ } where
  stage := by
    intro stage permit here
    have before := wf.stage stage permit here
    rw [job] at before
    exact fits_state before
  job := by
    intro job' left
    obtain rfl := Option.some.inj left
    exact fits
  writes := by
    intro job' left
    obtain rfl := Option.some.inj left
    exact wf.writes ⟨write, held, state⟩ job

theorem recorded_state {write : BlockingWrite} {held held' : Bool} {state state' : JobState}
    (wf : t.Wf) (job : t.job = some ⟨write, held, state⟩) (done : state' ≠ .queued) :
    ¬ Thread.Unrecorded { t with job := some ⟨write, held', state'⟩ } := by
  intro fresh
  rcases fresh with ⟨permit, arrived⟩ | ⟨_, _, queued⟩
  · have idle := (wf.plain arrived (Or.inl rfl)).2
    rw [job] at idle
    cases idle
  · cases queued
    exact done rfl

theorem moved_write {write : BlockingWrite} {permit : Bool} (wf : t.Wf)
    (job : t.job = some ⟨write, permit, .queued⟩) (fails : Bool) (now pick : Int64) :
    ∃ t' events, Moved s n t (s.write n t ⟨write, permit, .queued⟩ fails now pick) t' events := by
  have held : permit = t.call.isQueued := wf.job _ job
  have after : ∀ result, Thread.Wf { t with job := some ⟨write, permit, .written result⟩ } :=
    fun result => wf_state wf job held
  have recorded : ∀ result,
      ¬ Thread.Unrecorded { t with job := some ⟨write, permit, .written result⟩ } :=
    fun result => recorded_state wf job (by simp)
  have permits : ∀ result,
      Thread.permits { t with job := some ⟨write, permit, .written result⟩ } = t.permits := by
    intro result
    rw [Thread.permits, Thread.permits, job]
    rfl
  have refused : ∀ err, Moved s n t
      (s.put n { t with job := some ⟨write, permit, .written (.error err)⟩ })
      { t with job := some ⟨write, permit, .written (.error err)⟩ } [] := by
    intro err
    refine ⟨rfl, (List.append_nil _).symm, rfl, .still ⟨rfl, ?_, ?_, ?_⟩ .nothing, after _, ?_⟩
    · intro id owner
      cases write <;> cases owner
    · intro fresh
      exact absurd fresh (recorded _)
    · intro id confirmed
      cases write <;> cases confirmed
    · rw [permits]
      rfl
  unfold AuditSystem.write
  split_ifs
  · exact ⟨_, _, refused .sql⟩
  · cases write with
    | recordIntent entry =>
        simp only
        split
        · exact ⟨_, _, refused _⟩
        · rename_i id ledger wrote
          refine ⟨_, [.intent n id], rfl, rfl, rfl, ?_, after (.ok id), ?_⟩
          · exact .intent rfl (Or.inr ⟨entry, permit, job⟩) (wf.writes _ job) rfl (recorded _) rfl
              wrote
          · rw [permits]
            rfl
    | recordCompleted entry =>
        simp only
        split
        · exact ⟨_, _, refused _⟩
        · rename_i id ledger wrote
          refine ⟨_, [.completed n id], rfl, rfl, rfl, ?_, after (.ok id), ?_⟩
          · exact .completed rfl (wf.writes _ job) rfl (recorded _) rfl wrote
          · rw [permits]
            rfl
    | finalize id input =>
        simp only
        split
        · exact ⟨_, _, refused _⟩
        · rename_i ledger wrote
          refine ⟨_, [.finalized n id], rfl, rfl, rfl, ?_, after (.ok id), ?_⟩
          · exact .finalized rfl job rfl (recorded _) rfl wrote
          · rw [permits]
            rfl

theorem moved_complete {write : BlockingWrite} {permit : Bool}
    {result : Except AuditLogError UInt64} (wf : t.Wf)
    (job : t.job = some ⟨write, permit, .written result⟩) :
    ∃ t' events, Moved s n t (s.complete n t ⟨write, permit, .written result⟩ result) t' events := by
  have held : permit = t.call.isQueued := wf.job _ job
  unfold complete
  cases here : t.future with
  | none =>
      refine ⟨t.ended, [], moved_respond ?_⟩
      rw [Thread.permits, here, job]
      exact (Nat.zero_add _).symm
  | some future =>
      simp only
      generalize kept_eq : Job.handsBack ⟨write, permit, .written result⟩ t = kept
      have kept_le : kept = true → permit = true := by
        intro given
        subst given
        unfold Job.handsBack at kept_eq
        split at kept_eq
        · exact kept_eq
        · cases kept_eq
      rw [← here]
      refine ⟨{ t with job := some ⟨write, kept, .returned (some result)⟩ }, [], rfl,
        (List.append_nil _).symm, rfl, .still ⟨rfl, ?_, ?_, ?_⟩ .nothing, wf_state wf job ?_, ?_⟩
      · intro id owner
        rw [Thread.owner, job]
        cases write <;> cases result <;> exact owner
      · intro fresh
        exact absurd fresh (recorded_state wf job (by simp))
      · intro id confirmed
        rw [Thread.confirmed, job]
        cases write <;> cases result <;> exact confirmed
      · refine ⟨by simp [here], ?_⟩
        rw [← kept_eq, held]
        rfl
      · rw [Thread.permits, Thread.permits, job]
        show s.available + (permit && !kept).toNat + (t.future.elim 0 Future.permits + kept.toNat) =
          s.available + (t.future.elim 0 Future.permits + permit.toNat)
        cases kept with
        | false =>
            rw [Bool.not_false, Bool.and_true, Bool.toNat_false]
            omega
        | true =>
            rw [kept_le rfl]
            simp

theorem moved_panicked {job : Job} (wf : t.Wf) (left : t.job = some job) :
    ∃ t' events, Moved s n t (s.panicked n t job) t' events := by
  unfold panicked
  cases here : t.future with
  | none =>
      refine ⟨t.ended, [], moved_respond ?_⟩
      rw [Thread.permits, here, left]
      exact (Nat.zero_add _).symm
  | some future =>
      simp only [Option.map_some]
      rw [← here]
      refine ⟨{ t with job := some ⟨job.write, false, .returned none⟩ }, [], rfl,
        (List.append_nil _).symm, rfl, .still ⟨rfl, ?_, ?_, ?_⟩ .nothing, wf_state wf left ?_, ?_⟩
      · intro id owner
        cases write : job.write <;> rw [write] at owner <;> cases owner
      · intro fresh
        exact absurd fresh (recorded_state wf left (by simp))
      · intro id confirmed
        cases write : job.write <;> rw [write] at confirmed <;> cases confirmed
      · exact ⟨by simp [here], rfl⟩
      · rw [Thread.permits, Thread.permits, left]
        show s.available + job.permit.toNat + (t.future.elim 0 Future.permits + 0) =
          s.available + (t.future.elim 0 Future.permits + job.permit.toNat)
        omega

theorem permits_awaiting {g : Stage} {permit : Bool} {job : Job} (wf : t.Wf)
    (here : t.future = some ⟨g, permit⟩) (left : t.job = some job) :
    permit = false ∧ t.permits = job.permit.toNat := by
  have free : permit = false := by
    have fits := wf.stage g permit here
    rw [left] at fits
    cases g with
    | arrived | passed | running id =>
        obtain ⟨_, idle⟩ := fits
        cases idle
    | reading =>
        obtain ⟨_, _, idle⟩ := fits
        cases idle
    | intending | recording | completing body | finalizing => exact fits.1
  subst free
  rw [Thread.permits, here, left]
  exact ⟨rfl, Nat.zero_add _⟩

theorem moved_resume {stage : Stage} {free held : Bool} {write : BlockingWrite}
    {output : Option (Except AuditLogError UInt64)} {s' : AuditSystem} (wf : t.Wf)
    (here : t.future = some ⟨stage, free⟩) (left : t.job = some ⟨write, held, .returned output⟩)
    (stepped : s.resume n t stage ⟨write, held, .returned output⟩ output = some s') :
    ∃ t' events, Moved s n t s' t' events := by
  obtain ⟨rfl, permits⟩ := permits_awaiting wf here left
  have fits := wf.stage stage false here
  have ends : Moved s n t ((s.respond n t).release held) t.ended [] := moved_respond permits.symm
  rw [left] at fits
  unfold resume at stepped
  split at stepped
  · rename_i id
    obtain ⟨_, entry, _, _, same⟩ := fits
    cases same
    obtain rfl := Option.some.inj stepped
    have owner : t.owner = some id := Thread.owner_job left
    refine ⟨t.moved ⟨.running id, held⟩, [.started n t.call], rfl, rfl, rfl, ?_, ?_, ?_⟩
    · refine .still (Thread.moved_quiet (by simp) ?_) (.started owner)
      intro id' same
      cases same
      exact owner
    · refine Thread.moved_wf ⟨?_, rfl⟩
      have given : held = Job.handsBack ⟨.recordIntent entry, t.call.isQueued,
          .returned (some (.ok id))⟩ t := (wf.job _ left).2
      have own : t.call.intentEntry = some entry := wf.writes _ left
      show held = t.call.isQueued
      rw [given]
      cases call : t.call with
      | http request | tool request => simp [Job.handsBack, call, Call.isQueued]
      | resource request =>
          rw [call] at own
          cases own
    · rw [permits]
      rfl
  · rename_i id
    obtain ⟨_, entry, _, _, same⟩ := fits
    cases same
    obtain rfl := Option.some.inj stepped
    have confirmed : t.confirmed = some id := by
      rw [Thread.confirmed, left]
      rfl
    exact ⟨t.ended, [.served n], rfl, rfl, rfl,
      .still t.ended_quiet (.served confirmed), t.ended_wf, ends.permits⟩
  all_goals first
    | obtain rfl := Option.some.inj stepped
      exact ⟨_, _, ends⟩
    | cases stepped

theorem running_of {id : UInt64} {permit : Bool} (wf : t.Wf)
    (here : t.future = some ⟨.running id, permit⟩) :
    t.owner = some id ∧ permit = t.call.isQueued ∧ t.permits = permit.toNat := by
  obtain ⟨held, idle⟩ := wf.stage _ permit here
  refine ⟨?_, held, ?_⟩
  · rw [Thread.owner, idle, here]
  · rw [Thread.permits, here, idle]
    rfl

theorem moved_finalize {id : UInt64} {permit : Bool} (wf : t.Wf)
    (here : t.future = some ⟨.running id, permit⟩) (input : FinalizeInput) :
    Moved s n t (s.spawn n t .finalizing (.finalize id input) permit)
      (t.spawned .finalizing (.finalize id input) permit) [] := by
  obtain ⟨owner, held, permits⟩ := running_of wf here
  refine moved_spawn (a := s.available) (by simp) ?_ (by simp) ?_ (by rw [permits])
  · intro id' input' same
    cases same
    exact owner
  · exact Thread.spawned_wf ⟨rfl, id, input, permit, .queued, rfl⟩ held trivial

theorem moved_read {permit : Bool} (wf : t.Wf) (here : t.future = some ⟨.reading, permit⟩)
    (body : Bool) {entry : AuditEntry} (completes : t.call.Completes entry) :
    Moved s n t (s.spawn n t (.completing body) (.recordCompleted entry) permit)
      (t.spawned (.completing body) (.recordCompleted entry) permit) [] := by
  obtain ⟨rfl, held, idle⟩ := wf.stage _ permit here
  refine moved_spawn (a := s.available) (by simp) (by simp) (by simp) ?_ ?_
  · exact Thread.spawned_wf ⟨rfl, entry, true, .queued, rfl⟩ held.symm completes
  · rw [Thread.permits, here, idle]
    rfl

theorem moved_drop {future : Future} (wf : t.Wf) (here : t.future = some future) :
    ∃ t' events, Moved s n t (s.drop n t future) t' events := by
  unfold drop
  cases left : t.job with
  | none =>
      refine ⟨t.ended, [], moved_respond ?_⟩
      rw [Thread.permits, here, left]
      rfl
  | some job =>
      obtain ⟨free, permits⟩ := permits_awaiting (g := future.stage) wf here left
      simp only
      split_ifs with outstanding
      · rw [free, ← left]
        refine ⟨{ t with future := none }, [], rfl, (List.append_nil _).symm, rfl,
          .still ⟨rfl, ?_, ?_, ?_⟩ .nothing, ⟨?_, ?_, wf.writes⟩, ?_⟩
        · intro id owner
          have dropped : Thread.owner { t with future := none } = job.owner := Thread.owner_job left
          rw [Thread.owner_job left, ← dropped]
          exact owner
        · intro fresh
          rcases fresh with ⟨_, arrived⟩ | queued
          · cases arrived
          · exact Or.inr queued
        · intro id confirmed
          exact confirmed
        · intro stage permit running
          cases running
        · intro job' same
          have fits := wf.job job' same
          obtain rfl := Option.some.inj (left.symm.trans same)
          unfold Job.Fits at fits ⊢
          unfold Job.isOutstanding at outstanding
          split at fits
          · exact fits
          · exact fits
          · simp_all
        · rw [permits]
          show s.available + 0 + (0 + t.job.elim 0 Job.permits) = _
          rw [left]
          show s.available + 0 + (0 + job.permit.toNat) = _
          omega
      · have ends : Moved s n t ((s.respond n t).release job.permit) t.ended [] :=
          moved_respond permits.symm
        rw [free]
        exact ⟨_, _, ends⟩

theorem moved_stepRequest {s' : AuditSystem} (wf : t.Wf) (action : RequestAction)
    (stepped : s.stepRequest n t action = some s') : ∃ t' events, Moved s n t s' t' events := by
  cases action with
  | start =>
      simp only [stepRequest] at stepped
      split at stepped
      · rename_i permit here
        obtain rfl := Option.some.inj stepped
        unfold start
        split
        · rename_i request call
          exact moved_requireToken wf here call
        · rename_i request call
          exact moved_toolCall wf here call
        · rename_i request call
          exact moved_resourceRead wf here call
      · cases stepped
  | saturated =>
      simp only [stepRequest] at stepped
      split at stepped
      · rename_i request permit call here
        split_ifs at stepped
        obtain rfl := Option.some.inj stepped
        exact ⟨_, _, moved_ends (wf.plain here (Or.inl rfl)).1⟩
      · cases stepped
  | write fails now pick =>
      simp only [stepRequest] at stepped
      split at stepped
      · rename_i write permit job
        obtain rfl := Option.some.inj stepped
        exact moved_write wf job fails now pick
      · cases stepped
  | complete =>
      simp only [stepRequest] at stepped
      split at stepped
      · rename_i write permit result job
        obtain rfl := Option.some.inj stepped
        exact moved_complete wf job
      · cases stepped
  | panicked =>
      simp only [stepRequest] at stepped
      split at stepped
      · rename_i job left
        split_ifs at stepped
        obtain rfl := Option.some.inj stepped
        exact moved_panicked wf left
      · cases stepped
  | resume =>
      simp only [stepRequest] at stepped
      split at stepped
      · rename_i stage free write held output here left
        exact moved_resume wf here left stepped
      · cases stepped
  | respond answer =>
      simp only [stepRequest] at stepped
      split at stepped
      · rename_i request id permit call here
        obtain rfl := Option.some.inj stepped
        have unqueued : permit = false := by
          rw [(running_of wf here).2.1, call]
          rfl
        rw [← unqueued]
        exact ⟨_, _, moved_finalize wf here _⟩
      · rename_i here
        obtain rfl := Option.some.inj stepped
        exact ⟨_, _, moved_ends (wf.plain here (Or.inr rfl)).1⟩
      · cases stepped
  | dispatched outcome =>
      simp only [stepRequest] at stepped
      split at stepped
      · rename_i here
        obtain rfl := Option.some.inj stepped
        exact ⟨_, _, moved_finalize wf here _⟩
      · cases stepped
  | read family outcome =>
      simp only [stepRequest] at stepped
      split at stepped
      · rename_i request permit call here
        obtain rfl := Option.some.inj stepped
        refine ⟨_, _, moved_read wf here _ ?_⟩
        rw [call]
        exact ⟨family, outcome, rfl⟩
      · cases stepped
  | drop =>
      obtain ⟨future, here, rfl⟩ := Option.map_eq_some_iff.mp stepped
      exact moved_drop wf here

end AuditSystem

/-! ## The ledger -/

structure AuditRow.PendingOf (row : AuditRow) (entry : AuditEntry) : Prop where
  finalizedMs : row.finalizedMs = none
  decision : row.decision = "pending"
  tokenId : row.tokenId = entry.tokenId
  actorKind : row.actorKind = entry.actorKind
  method : row.method = entry.method
  path : row.path = entry.path

structure AuditRow.CompletedOf (row : AuditRow) (entry : AuditEntry) : Prop where
  finalizedMs : row.finalizedMs = some row.intentMs
  tokenId : row.tokenId = entry.tokenId
  actorKind : row.actorKind = entry.actorKind
  method : row.method = entry.method
  path : row.path = entry.path
  status : row.status = Int64.ofNat entry.status.toNat
  decision : row.decision = entry.decision
  requiredScope : row.requiredScope = entry.requiredScope

namespace AuditLog

theorem insert_eq_ok {ledger ledger' : AuditLog} {row : AuditRow} {id : UInt64}
    (wrote : ledger.insert row = .ok (id, ledger')) :
    id.toInt64 = row.id ∧ ledger'.rows = ledger.rows ++ [row] ∧
      ∀ other ∈ ledger.rows, other.id ≠ row.id := by
  unfold insert at wrote
  split_ifs at wrote with free
  obtain ⟨rfl, rfl⟩ : row.id.toUInt64 = id ∧ _ = ledger' := by simpa using wrote
  exact ⟨Int64.toInt64_toUInt64 row.id, rfl, free.2⟩

theorem recordIntent_eq_ok {ledger ledger' : AuditLog} {now pick : Int64} {entry : AuditEntry}
    {id : UInt64} (wrote : ledger.recordIntent now entry pick = .ok (id, ledger')) :
    ∃ row : AuditRow, row.PendingOf entry ∧ id.toInt64 = row.id ∧ ledger'.rows = ledger.rows ++ [row] ∧
      ∀ other ∈ ledger.rows, other.id ≠ row.id :=
  ⟨_, ⟨rfl, rfl, rfl, rfl, rfl, rfl⟩, insert_eq_ok wrote⟩

theorem recordCompleted_eq_ok {ledger ledger' : AuditLog} {now pick : Int64} {entry : AuditEntry}
    {id : UInt64} (wrote : ledger.recordCompleted now entry pick = .ok (id, ledger')) :
    ∃ row : AuditRow, row.CompletedOf entry ∧ id.toInt64 = row.id ∧
      ledger'.rows = ledger.rows ++ [row] ∧ ∀ other ∈ ledger.rows, other.id ≠ row.id :=
  ⟨_, ⟨rfl, rfl, rfl, rfl, rfl, rfl, rfl, rfl⟩, insert_eq_ok wrote⟩

theorem finalize_eq_ok {ledger ledger' : AuditLog} {now : Int64} {id : UInt64} {status : UInt16}
    {decision : String} {requiredScope executionOutcome domainError : Option String}
    (wrote : ledger.finalize now id status decision requiredScope executionOutcome domainError =
      .ok ledger') :
    (∃ row ∈ ledger.rows, row.id = id.toInt64) ∧ ledger'.rows = ledger.rows.map fun row =>
      if row.id = id.toInt64 then
        finalizeRow now status decision requiredScope executionOutcome domainError row
      else row := by
  unfold finalize at wrote
  split_ifs at wrote with there
  obtain rfl := Except.ok.inj wrote
  refine ⟨by simpa using there, ?_⟩
  simp [update]

end AuditLog

/-! ## The system -/

/-- What must have happened before an event. -/
def Event.Right (before : List Event) : Event → Prop
  | .started n call => call.isAnonymous = true ∨ ∃ id, .intent n id ∈ before
  | .served n => ∃ id, .completed n id ∈ before
  | .finalized n id => .intent n id ∈ before ∧ ∀ m, .finalized m id ∉ before
  | .intent n id => (∀ m, .intent m id ∉ before) ∧ ∀ other, .intent n other ∉ before
  | .completed _ _ => True

def AuditSystem.Intends (s : AuditSystem) (n : Nat) (entry : AuditEntry) : Prop :=
  ∃ t, s.threads[n]? = some t ∧ t.call.intentEntry = some entry

def AuditSystem.Completes (s : AuditSystem) (n : Nat) (entry : AuditEntry) : Prop :=
  ∃ t, s.threads[n]? = some t ∧ t.call.Completes entry

structure Covered (s : AuditSystem) : Prop where
  wf : ∀ (n : Nat) (t : Thread), s.threads[n]? = some t → t.Wf
  next : ∀ (n : Nat) (t : Thread), s.threads[n]? = some t → n < s.nextRequest
  right : Justified Event.Right s.trace
  known : ∀ (n : Nat) (id : UInt64), .intent n id ∈ s.trace →
    ∃ t, s.threads[n]? = some t ∧ ¬ t.Unrecorded
  unique : ∀ (n m : Nat) (id : UInt64), .intent n id ∈ s.trace → .intent m id ∈ s.trace → n = m
  stored : ∀ (n : Nat) (id : UInt64), .intent n id ∈ s.trace →
    ∃ row ∈ s.ledger.rows, row.id = id.toInt64
  owned : ∀ (n : Nat) (t : Thread) (id : UInt64), s.threads[n]? = some t → t.owner = some id →
    .intent n id ∈ s.trace ∧ ∀ m, .finalized m id ∉ s.trace
  pending : ∀ (n : Nat) (id : UInt64), .intent n id ∈ s.trace → (∀ m, .finalized m id ∉ s.trace) →
    ∀ row ∈ s.ledger.rows, row.id = id.toInt64 → ∃ entry, s.Intends n entry ∧ row.PendingOf entry
  confirmed : ∀ (n : Nat) (t : Thread) (id : UInt64), s.threads[n]? = some t →
    t.confirmed = some id → .completed n id ∈ s.trace
  finished : ∀ (n : Nat) (id : UInt64), .completed n id ∈ s.trace → (∀ m, .intent m id ∉ s.trace) ∧
    ∃ row ∈ s.ledger.rows, row.id = id.toInt64 ∧
      ∃ entry, s.Completes n entry ∧ row.CompletedOf entry
  permits : s.available + weight (fun _ t => t.permits) s.threads = AUDIT_QUEUE_MAX

theorem Announces.silent {n : Nat} {t : Thread} {events : List Event}
    (announces : Announces n t events) (m : Nat) (id : UInt64) :
    .intent m id ∉ events ∧ .completed m id ∉ events ∧ .finalized m id ∉ events := by
  cases announces <;> simp

namespace Covered
variable {s s' : AuditSystem} {n : Nat} {t t' : Thread} {events : List Event}

theorem thread_moved (moved : Moved s n t s' t' events) (m : Nat) :
    s'.threads[m]? = if n = m then some t' else s.threads[m]? := by
  rw [moved.threads, getElem?_insert_eq]

theorem of_moved {P Q : Nat → Thread → Prop} (moved : Moved s n t s' t' events)
    (before : ∀ m u, s.threads[m]? = some u → P m u) (others : ∀ m u, P m u → Q m u)
    (mine : Q n t') (m : Nat) (u : Thread) (found : s'.threads[m]? = some u) : Q m u := by
  rw [thread_moved moved] at found
  split_ifs at found with same
  · obtain rfl := Option.some.inj found
    exact same ▸ mine
  · exact others m u (before m u found)

theorem wf_moved (inv : Covered s) (moved : Moved s n t s' t' events) (m : Nat) (u : Thread)
    (found : s'.threads[m]? = some u) : u.Wf :=
  of_moved (P := fun _ u => u.Wf) (Q := fun _ u => u.Wf) moved inv.wf (fun _ _ same => same)
    moved.wf m u found

theorem next_moved (inv : Covered s) (here : s.threads[n]? = some t)
    (moved : Moved s n t s' t' events) (m : Nat) (u : Thread)
    (found : s'.threads[m]? = some u) : m < s'.nextRequest := by
  rw [moved.nextRequest]
  exact of_moved (P := fun m _ => m < s.nextRequest) (Q := fun m _ => m < s.nextRequest) moved
    inv.next (fun _ _ same => same) (inv.next n t here) m u found

theorem permits_moved (inv : Covered s) (here : s.threads[n]? = some t)
    (moved : Moved s n t s' t' events) :
    s'.available + weight (fun _ t => t.permits) s'.threads = AUDIT_QUEUE_MAX := by
  have weighed := weight_insert (fun _ t => Thread.permits t) s.threads n t'
  rw [here, ← moved.threads] at weighed
  have balance := moved.permits
  have before := inv.permits
  simp only [Option.elim_some] at weighed
  omega

theorem known_moved (inv : Covered s) (here : s.threads[n]? = some t)
    (moved : Moved s n t s' t' events) (recorded : ¬ t.Unrecorded → ¬ t'.Unrecorded) {m : Nat}
    {id : UInt64} (mem : .intent m id ∈ s.trace) :
    ∃ u, s'.threads[m]? = some u ∧ ¬ u.Unrecorded := by
  obtain ⟨u, found, asked⟩ := inv.known m id mem
  rw [thread_moved moved]
  split_ifs with same
  · subst same
    obtain rfl := Option.some.inj (here.symm.trans found)
    exact ⟨t', rfl, recorded asked⟩
  · exact ⟨u, found, asked⟩

theorem call_moved {P : Call → Prop} (here : s.threads[n]? = some t)
    (moved : Moved s n t s' t' events) (call : t'.call = t.call) {m : Nat}
    (own : ∃ u, s.threads[m]? = some u ∧ P u.call) :
    ∃ u, s'.threads[m]? = some u ∧ P u.call := by
  obtain ⟨u, found, own⟩ := own
  rw [thread_moved moved]
  split_ifs with same
  · subst same
    obtain rfl := Option.some.inj (here.symm.trans found)
    exact ⟨t', rfl, by rwa [call]⟩
  · exact ⟨u, found, own⟩

theorem intends_moved (here : s.threads[n]? = some t) (moved : Moved s n t s' t' events)
    (call : t'.call = t.call) {m : Nat} {entry : AuditEntry} (intends : s.Intends m entry) :
    s'.Intends m entry :=
  call_moved (P := (·.intentEntry = some entry)) here moved call intends

theorem pending_moved (inv : Covered s) (here : s.threads[n]? = some t)
    (moved : Moved s n t s' t' events) (call : t'.call = t.call) {m : Nat} {id : UInt64}
    (mem : .intent m id ∈ s.trace) (unfinished : ∀ m, .finalized m id ∉ s.trace) {row : AuditRow}
    (stored : row ∈ s.ledger.rows) (taken : row.id = id.toInt64) :
    ∃ entry, s'.Intends m entry ∧ row.PendingOf entry := by
  obtain ⟨entry, intends, pending⟩ := inv.pending m id mem unfinished row stored taken
  exact ⟨entry, intends_moved here moved call intends, pending⟩

theorem finished_moved (inv : Covered s) (here : s.threads[n]? = some t)
    (moved : Moved s n t s' t' events) (call : t'.call = t.call)
    (fresh : ∀ (m k : Nat) id, .intent m id ∈ events → .completed k id ∉ s.trace)
    (kept : ∀ row ∈ s.ledger.rows, (∀ m, .intent m row.id.toUInt64 ∉ s.trace) →
      row ∈ s'.ledger.rows) {m : Nat} {id : UInt64} (mem : .completed m id ∈ s.trace) :
    (∀ m, .intent m id ∉ s'.trace) ∧ ∃ row ∈ s'.ledger.rows, row.id = id.toInt64 ∧
      ∃ entry, s'.Completes m entry ∧ row.CompletedOf entry := by
  obtain ⟨unintended, row, stored, taken, entry, completes, completed⟩ := inv.finished m id mem
  refine ⟨?_, row, kept row stored ?_, taken, entry, ?_, completed⟩
  · intro k intended
    rw [moved.trace] at intended
    rcases List.mem_append.mp intended with before | now
    · exact unintended k before
    · exact fresh k m id now mem
  · rwa [taken, UInt64.toUInt64_toInt64]
  · exact call_moved (P := (·.Completes entry)) here moved call completes

theorem still (inv : Covered s) (here : s.threads[n]? = some t)
    (moved : Moved s n t s' t' events) (quiet : Quiet t t') (announces : Announces n t events)
    (ledger : s'.ledger = s.ledger) : Covered s' := by
  have intents : ∀ {m id}, .intent m id ∈ s'.trace ↔ .intent m id ∈ s.trace := by
    intro m id
    rw [moved.trace, List.mem_append, or_iff_left (announces.silent m id).1]
  have finals : ∀ {m id}, .finalized m id ∈ s'.trace ↔ .finalized m id ∈ s.trace := by
    intro m id
    rw [moved.trace, List.mem_append, or_iff_left (announces.silent m id).2.2]
  refine ⟨inv.wf_moved moved, inv.next_moved here moved, ?_, ?_, ?_, ?_, ?_, ?_, ?_, ?_,
    inv.permits_moved here moved⟩
  · rw [moved.trace]
    apply inv.right.append
    cases announces with
    | nothing => exact Or.inl rfl
    | passed anonymous => exact Or.inr ⟨_, rfl, Or.inl anonymous⟩
    | started owner => exact Or.inr ⟨_, rfl, Or.inr ⟨_, (inv.owned n t _ here owner).1⟩⟩
    | served confirmed => exact Or.inr ⟨_, rfl, _, inv.confirmed n t _ here confirmed⟩
  · intro m id mem
    exact inv.known_moved here moved (fun asked fresh => asked (quiet.unrecorded fresh))
      (intents.mp mem)
  · intro m m' id mem mem'
    exact inv.unique m m' id (intents.mp mem) (intents.mp mem')
  · intro m id mem
    rw [ledger]
    exact inv.stored m id (intents.mp mem)
  · intro m u id found owner
    rw [intents]
    simp only [finals]
    exact of_moved (P := fun m u => ∀ id, u.owner = some id →
        .intent m id ∈ s.trace ∧ ∀ m, .finalized m id ∉ s.trace)
      moved (fun m u found id => inv.owned m u id found) (fun _ _ same => same)
      (fun id owner => inv.owned n t id here (quiet.owner id owner)) m u found id owner
  · intro m id mem unfinished row stored
    rw [ledger] at stored
    simp only [finals] at unfinished
    exact inv.pending_moved here moved quiet.call (intents.mp mem) unfinished stored
  · intro m u id found confirmed
    rw [moved.trace]
    apply List.mem_append_left
    exact of_moved (P := fun m u => ∀ id, u.confirmed = some id → .completed m id ∈ s.trace)
      moved (fun m u found id => inv.confirmed m u id found) (fun _ _ same => same)
      (fun id confirmed => inv.confirmed n t id here (quiet.confirmed id confirmed)) m u found id
      confirmed
  · intro m id mem
    rw [moved.trace, List.mem_append, or_iff_left (announces.silent m id).2.1] at mem
    refine inv.finished_moved here moved quiet.call ?_ ?_ mem
    · intro k _ id intended
      exact absurd intended (announces.silent k id).1
    · intro row stored _
      rwa [ledger]

theorem intent (inv : Covered s) (here : s.threads[n]? = some t) {id : UInt64}
    (moved : Moved s n t s' t' [.intent n id]) (fresh : t.Unrecorded) (owner : t'.owner = some id)
    (recorded : ¬ t'.Unrecorded) (confirmed : t'.confirmed = none) (call : t'.call = t.call)
    {entry : AuditEntry} (own : t.call.intentEntry = some entry) {row : AuditRow}
    (pending : row.PendingOf entry) (same : id.toInt64 = row.id)
    (rows : s'.ledger.rows = s.ledger.rows ++ [row])
    (free : ∀ other ∈ s.ledger.rows, other.id ≠ row.id) : Covered s' := by
  have unused : ∀ m, .intent m id ∉ s.trace := by
    intro m mem
    obtain ⟨other, stored, taken⟩ := inv.stored m id mem
    exact free other stored (taken.trans same)
  have silent : ∀ other, .intent n other ∉ s.trace := by
    intro other mem
    obtain ⟨u, found, asked⟩ := inv.known n other mem
    obtain rfl := Option.some.inj (here.symm.trans found)
    exact asked fresh
  have intents : ∀ {m other}, .intent m other ∈ s'.trace ↔
      .intent m other ∈ s.trace ∨ (m = n ∧ other = id) := by
    intro m other
    rw [moved.trace, List.mem_append, List.mem_singleton, Event.intent.injEq]
  have finals : ∀ {m other}, .finalized m other ∈ s'.trace ↔ .finalized m other ∈ s.trace := by
    intro m other
    simp [moved.trace]
  have unfinished : ∀ m, .finalized m id ∉ s.trace := by
    intro m mem
    obtain ⟨before, after, split, earlier, _⟩ := inv.right.of_mem mem
    apply unused m
    rw [split]
    exact List.mem_append_left _ earlier
  refine ⟨inv.wf_moved moved, inv.next_moved here moved, ?_, ?_, ?_, ?_, ?_, ?_, ?_, ?_,
    inv.permits_moved here moved⟩
  · rw [moved.trace]
    exact inv.right.append (Or.inr ⟨_, rfl, unused, silent⟩)
  · intro m other mem
    rcases intents.mp mem with mem | ⟨rfl, rfl⟩
    · exact inv.known_moved here moved (fun _ => recorded) mem
    · exact ⟨t', by rw [thread_moved moved, if_pos rfl], recorded⟩
  · intro m m' other mem mem'
    rcases intents.mp mem with mem | ⟨rfl, rfl⟩
    · rcases intents.mp mem' with mem' | ⟨rfl, rfl⟩
      · exact inv.unique m m' other mem mem'
      · exact absurd mem (unused m)
    · rcases intents.mp mem' with mem' | ⟨rfl, _⟩
      · exact absurd mem' (unused m')
      · rfl
  · intro m other mem
    rw [rows]
    rcases intents.mp mem with mem | ⟨rfl, rfl⟩
    · obtain ⟨old, stored, taken⟩ := inv.stored m other mem
      exact ⟨old, List.mem_append_left _ stored, taken⟩
    · exact ⟨row, List.mem_append_right _ (List.mem_singleton.mpr rfl), same.symm⟩
  · intro m u other found owns
    simp only [intents, finals]
    revert other
    refine of_moved (P := fun m u => ∀ other, u.owner = some other →
        .intent m other ∈ s.trace ∧ ∀ m, .finalized m other ∉ s.trace)
      (Q := fun m u => ∀ other, u.owner = some other →
        (.intent m other ∈ s.trace ∨ m = n ∧ other = id) ∧ ∀ m, .finalized m other ∉ s.trace)
      moved (fun m u found other => inv.owned m u other found) ?_ ?_ m u found
    · intro m u before other owns
      exact ⟨Or.inl (before other owns).1, (before other owns).2⟩
    · intro other owns
      obtain rfl := Option.some.inj (owner.symm.trans owns)
      exact ⟨Or.inr ⟨rfl, rfl⟩, unfinished⟩
  · intro m other mem open' found stored taken
    simp only [finals] at open'
    rw [rows, List.mem_append, List.mem_singleton] at stored
    rcases intents.mp mem with mem | ⟨rfl, rfl⟩
    · rcases stored with stored | rfl
      · exact inv.pending_moved here moved call mem open' stored taken
      · obtain ⟨old, before, again⟩ := inv.stored m other mem
        exact absurd (again.trans taken.symm) (free old before)
    · rcases stored with stored | rfl
      · exact absurd (taken.trans same) (free found stored)
      · exact ⟨entry, intends_moved here moved call ⟨t, here, own⟩, pending⟩
  · intro m u other found known
    rw [moved.trace]
    apply List.mem_append_left
    refine of_moved (P := fun m u => ∀ other, u.confirmed = some other →
        .completed m other ∈ s.trace)
      moved (fun m u found other => inv.confirmed m u other found) (fun _ _ same => same) ?_ m u
      found other known
    intro other known
    rw [confirmed] at known
    cases known
  · intro m other mem
    rw [moved.trace, List.mem_append, or_iff_left (by simp)] at mem
    refine inv.finished_moved here moved call ?_ ?_ mem
    · intro k k' other' intended finished
      obtain ⟨rfl, rfl⟩ : k = n ∧ other' = id := by simpa using intended
      obtain ⟨_, old, stored, taken, _⟩ := inv.finished k' other' finished
      exact free old stored (taken.trans same)
    · intro old stored _
      rw [rows]
      exact List.mem_append_left _ stored

theorem completed (inv : Covered s) (here : s.threads[n]? = some t) {id : UInt64}
    (moved : Moved s n t s' t' [.completed n id]) (call : t'.call = t.call) (owner : t'.owner = none)
    (recorded : ¬ t'.Unrecorded) (confirmed : t'.confirmed = some id) {entry : AuditEntry}
    (own : t.call.Completes entry) {row : AuditRow} (completed : row.CompletedOf entry)
    (same : id.toInt64 = row.id) (rows : s'.ledger.rows = s.ledger.rows ++ [row])
    (free : ∀ other ∈ s.ledger.rows, other.id ≠ row.id) : Covered s' := by
  have intents : ∀ {m other}, .intent m other ∈ s'.trace ↔ .intent m other ∈ s.trace := by
    intro m other
    simp [moved.trace]
  have finals : ∀ {m other}, .finalized m other ∈ s'.trace ↔ .finalized m other ∈ s.trace := by
    intro m other
    simp [moved.trace]
  refine ⟨inv.wf_moved moved, inv.next_moved here moved, ?_, ?_, ?_, ?_, ?_, ?_, ?_, ?_,
    inv.permits_moved here moved⟩
  · rw [moved.trace]
    exact inv.right.append (Or.inr ⟨_, rfl, trivial⟩)
  · intro m other mem
    exact inv.known_moved here moved (fun _ => recorded) (intents.mp mem)
  · intro m m' other mem mem'
    exact inv.unique m m' other (intents.mp mem) (intents.mp mem')
  · intro m other mem
    obtain ⟨old, stored, taken⟩ := inv.stored m other (intents.mp mem)
    rw [rows]
    exact ⟨old, List.mem_append_left _ stored, taken⟩
  · intro m u other found owns
    simp only [intents, finals]
    refine of_moved (P := fun m u => ∀ other, u.owner = some other →
        .intent m other ∈ s.trace ∧ ∀ m, .finalized m other ∉ s.trace)
      moved (fun m u found other => inv.owned m u other found) (fun _ _ same => same) ?_ m u
      found other owns
    intro other owns
    rw [owner] at owns
    cases owns
  · intro m other mem open' found stored taken
    simp only [finals] at open'
    rw [rows, List.mem_append, List.mem_singleton] at stored
    rcases stored with stored | rfl
    · exact inv.pending_moved here moved call (intents.mp mem) open' stored taken
    · obtain ⟨old, before, same⟩ := inv.stored m other (intents.mp mem)
      exact absurd (same.trans taken.symm) (free old before)
  · intro m u other found known
    revert other
    refine of_moved (P := fun m u => ∀ other, u.confirmed = some other →
        .completed m other ∈ s.trace)
      (Q := fun m u => ∀ other, u.confirmed = some other → .completed m other ∈ s'.trace)
      moved (fun m u found other => inv.confirmed m u other found) ?_ ?_ m u found
    · intro m u before other known
      rw [moved.trace]
      exact List.mem_append_left _ (before other known)
    · intro other known
      obtain rfl := Option.some.inj (confirmed.symm.trans known)
      rw [moved.trace]
      exact List.mem_append_right _ (List.mem_singleton.mpr rfl)
  · intro m other mem
    have kept : ∀ old ∈ s.ledger.rows, old ∈ s'.ledger.rows := by
      intro old stored
      rw [rows]
      exact List.mem_append_left _ stored
    rw [moved.trace, List.mem_append, List.mem_singleton, Event.completed.injEq] at mem
    rcases mem with mem | ⟨rfl, rfl⟩
    · exact inv.finished_moved here moved call (by simp) (fun old stored _ => kept old stored) mem
    · refine ⟨?_, row, ?_, same.symm, entry, ?_, completed⟩
      · intro k intended
        obtain ⟨old, stored, taken⟩ := inv.stored k other (intents.mp intended)
        exact free old stored (taken.trans same)
      · rw [rows]
        exact List.mem_append_right _ (List.mem_singleton.mpr rfl)
      · exact call_moved (P := (·.Completes entry)) here moved call ⟨t, here, own⟩

theorem finalized (inv : Covered s) (here : s.threads[n]? = some t) {id : UInt64}
    (moved : Moved s n t s' t' [.finalized n id]) (call : t'.call = t.call)
    (mine : t.owner = some id)
    (owner : t'.owner = none) (recorded : ¬ t'.Unrecorded) (confirmed : t'.confirmed = none)
    {change : AuditRow → AuditRow} (same : ∀ row, (change row).id = row.id)
    (rows : s'.ledger.rows = s.ledger.rows.map fun row =>
      if row.id = id.toInt64 then change row else row) : Covered s' := by
  obtain ⟨committed, unfinished⟩ := inv.owned n t id here mine
  have intents : ∀ {m other}, .intent m other ∈ s'.trace ↔ .intent m other ∈ s.trace := by
    intro m other
    simp [moved.trace]
  have finals : ∀ {m other}, .finalized m other ∈ s'.trace ↔
      .finalized m other ∈ s.trace ∨ (m = n ∧ other = id) := by
    intro m other
    rw [moved.trace, List.mem_append, List.mem_singleton, Event.finalized.injEq]
  refine ⟨inv.wf_moved moved, inv.next_moved here moved, ?_, ?_, ?_, ?_, ?_, ?_, ?_, ?_,
    inv.permits_moved here moved⟩
  · rw [moved.trace]
    exact inv.right.append (Or.inr ⟨_, rfl, committed, unfinished⟩)
  · intro m other mem
    exact inv.known_moved here moved (fun _ => recorded) (intents.mp mem)
  · intro m m' other mem mem'
    exact inv.unique m m' other (intents.mp mem) (intents.mp mem')
  · intro m other mem
    obtain ⟨old, stored, taken⟩ := inv.stored m other (intents.mp mem)
    rw [rows]
    refine ⟨_, List.mem_map_of_mem stored, ?_⟩
    split_ifs
    · rw [same, taken]
    · exact taken
  · intro m u other found owns
    simp only [intents, finals]
    rw [thread_moved moved] at found
    split_ifs at found with own
    · obtain rfl := Option.some.inj found
      rw [owner] at owns
      cases owns
    · obtain ⟨promised, open'⟩ := inv.owned m u other found owns
      refine ⟨promised, ?_⟩
      rintro m' (done | ⟨rfl, rfl⟩)
      · exact open' m' done
      · exact own (inv.unique _ _ _ committed promised)
  · intro m other mem open' found stored taken
    simp only [finals, not_or] at open'
    rw [rows] at stored
    obtain ⟨old, before, rfl⟩ := List.mem_map.mp stored
    split_ifs at taken ⊢ with here'
    · rw [same, here'] at taken
      have again := congrArg Int64.toUInt64 taken
      rw [UInt64.toUInt64_toInt64, UInt64.toUInt64_toInt64] at again
      exact absurd ⟨rfl, again.symm⟩ (open' n).2
    · exact inv.pending_moved here moved call (intents.mp mem) (fun m' => (open' m').1) before taken
  · intro m u other found known
    rw [moved.trace]
    apply List.mem_append_left
    refine of_moved (P := fun m u => ∀ other, u.confirmed = some other →
        .completed m other ∈ s.trace)
      moved (fun m u found other => inv.confirmed m u other found) (fun _ _ same => same) ?_ m u
      found other known
    intro other known
    rw [confirmed] at known
    cases known
  · intro m other mem
    rw [moved.trace, List.mem_append, or_iff_left (by simp)] at mem
    refine inv.finished_moved here moved call (by simp) ?_ mem
    intro old stored unintended
    rw [rows]
    refine List.mem_map.mpr ⟨old, stored, if_neg ?_⟩
    intro taken
    rw [taken, UInt64.toUInt64_toInt64] at unintended
    exact unintended n committed

theorem moved (inv : Covered s) (here : s.threads[n]? = some t)
    (moved : Moved s n t s' t' events) : Covered s' := by
  have effect := moved.effect
  generalize ledger_eq : s'.ledger = ledger' at effect
  cases effect with
  | still quiet announces => exact inv.still here moved quiet announces ledger_eq
  | intent call fresh own owner recorded confirmed wrote =>
      obtain ⟨row, pending, same, rows, free⟩ := AuditLog.recordIntent_eq_ok wrote
      rw [← ledger_eq] at rows
      exact inv.intent here moved fresh owner recorded confirmed call own pending same rows free
  | completed call own owner recorded confirmed wrote =>
      obtain ⟨row, completed, same, rows, free⟩ := AuditLog.recordCompleted_eq_ok wrote
      rw [← ledger_eq] at rows
      exact inv.completed here moved call owner recorded confirmed own completed same rows free
  | finalized call mine owner recorded confirmed wrote =>
      obtain ⟨_, rows⟩ := AuditLog.finalize_eq_ok wrote
      rw [← ledger_eq] at rows
      refine inv.finalized here moved call (Thread.owner_job mine) owner recorded confirmed ?_ rows
      intro row
      rfl

theorem arrive (inv : Covered s) (call : Call) :
    Covered { s.put s.nextRequest ⟨call, some ⟨.arrived, false⟩, none⟩ with
      nextRequest := s.nextRequest + 1 } := by
  have fresh : s.threads[s.nextRequest]? = none := by
    cases found : s.threads[s.nextRequest]? with
    | none => rfl
    | some t => exact absurd (inv.next _ t found) (Nat.lt_irrefl _)
  have found_or : ∀ {m u}, (s.threads.insert s.nextRequest
      ⟨call, some ⟨.arrived, false⟩, none⟩)[m]? = some u →
      (m = s.nextRequest ∧ u = ⟨call, some ⟨.arrived, false⟩, none⟩) ∨ s.threads[m]? = some u := by
    intro m u found
    rw [getElem?_insert_eq] at found
    split_ifs at found with same
    · exact Or.inl ⟨same.symm, (Option.some.inj found).symm⟩
    · exact Or.inr found
  have kept : ∀ {m : Nat} {u : Thread}, s.threads[m]? = some u → (s.threads.insert s.nextRequest
      ⟨call, some ⟨.arrived, false⟩, none⟩)[m]? = some u := by
    intro m u found
    rw [getElem?_insert_eq, if_neg, found]
    rintro rfl
    rw [fresh] at found
    cases found
  refine ⟨?_, ?_, inv.right, ?_, inv.unique, inv.stored, ?_, ?_, ?_, ?_, ?_⟩
  · intro m u found
    rcases found_or found with ⟨rfl, rfl⟩ | found
    · exact Thread.moved_wf (t := ⟨call, none, none⟩) ⟨rfl, rfl⟩
    · exact inv.wf m u found
  · intro m u found
    rcases found_or found with ⟨rfl, rfl⟩ | found
    · exact Nat.lt_succ_self _
    · exact Nat.lt_succ_of_lt (inv.next m u found)
  · intro m id mem
    obtain ⟨u, found, asked⟩ := inv.known m id mem
    exact ⟨u, kept found, asked⟩
  · intro m u id found owner
    rcases found_or found with ⟨rfl, rfl⟩ | found
    · cases owner
    · exact inv.owned m u id found owner
  · intro m id mem unfinished row stored taken
    obtain ⟨entry, ⟨u, found, own⟩, pending⟩ := inv.pending m id mem unfinished row stored taken
    exact ⟨entry, ⟨u, kept found, own⟩, pending⟩
  · intro m u id found confirmed
    rcases found_or found with ⟨rfl, rfl⟩ | found
    · cases confirmed
    · exact inv.confirmed m u id found confirmed
  · intro m id mem
    obtain ⟨unintended, row, stored, taken, entry, ⟨u, found, own⟩, completed⟩ :=
      inv.finished m id mem
    exact ⟨unintended, row, stored, taken, entry, ⟨u, kept found, own⟩, completed⟩
  · have weighed := weight_insert (fun _ t => Thread.permits t) s.threads s.nextRequest
      ⟨call, some ⟨.arrived, false⟩, none⟩
    rw [fresh] at weighed
    show s.available + weight _ (s.threads.insert s.nextRequest _) = _
    rw [Option.elim_none, Nat.add_zero] at weighed
    rw [weighed]
    exact inv.permits

theorem step (inv : Covered s) {action : AuditAction} (stepped : s.step action = some s') :
    Covered s' := by
  cases action with
  | arrive call =>
      obtain rfl := Option.some.inj stepped
      exact inv.arrive call
  | request n action =>
      simp only [AuditSystem.step] at stepped
      split at stepped
      · cases stepped
      · rename_i t here
        obtain ⟨t', events, moved⟩ :=
          AuditSystem.moved_stepRequest (inv.wf n t here) action stepped
        exact inv.moved here moved

theorem boot (ledger : AuditLog) : Covered (.boot ledger) where
  wf := by
    intro n t found
    simp [AuditSystem.boot] at found
  next := by
    intro n t found
    simp [AuditSystem.boot] at found
  right := justified_nil
  known := by
    intro n id mem
    cases mem
  unique := by
    intro n m id mem
    cases mem
  stored := by
    intro n id mem
    cases mem
  owned := by
    intro n t id found
    simp [AuditSystem.boot] at found
  pending := by
    intro n id mem
    cases mem
  confirmed := by
    intro n t id found
    simp [AuditSystem.boot] at found
  finished := by
    intro n id mem
    cases mem
  permits := rfl

theorem run {ledger : AuditLog} {actions : List AuditAction}
    (run : exec AuditSystem.step (.boot ledger) actions = some s) : Covered s :=
  exec_invariant (fun _ _ _ inv stepped => inv.step stepped) (boot ledger) run

end Covered

/-! ## Guarantees -/

namespace AuditSystem
variable {s s' : AuditSystem}

def outstanding (s : AuditSystem) : Nat :=
  weight (fun _ t => (t.call.isQueued && t.job.any (·.isOutstanding)).toNat) s.threads

/-- The request ended or was dropped before it had its row finalized. -/
def Abandoned (s : AuditSystem) (n : Nat) : Prop :=
  ∃ t, s.threads[n]? = some t ∧ t.future = none ∧
    ∀ job, t.job = some job → ∀ id input, job.write ≠ .finalize id input

structure TwoPhase (s : AuditSystem) : Prop where
  intended : ∀ before n call after, s.trace = before ++ .started n call :: after →
    call.isAnonymous = false → ∃ id, .intent n id ∈ before
  running : ∀ (n : Nat) (t : Thread) (id : UInt64) (permit : Bool), s.threads[n]? = some t →
    t.future = some ⟨.running id, permit⟩ → ∃ row ∈ s.ledger.rows, row.id = id.toInt64 ∧
      ∃ entry, t.call.intentEntry = some entry ∧ row.PendingOf entry
  served : ∀ before n after, s.trace = before ++ .served n :: after →
    ∃ id, .completed n id ∈ before ∧ ∃ row ∈ s.ledger.rows, row.id = id.toInt64 ∧
      ∃ t entry, s.threads[n]? = some t ∧ t.call.Completes entry ∧ row.CompletedOf entry
  changed : ∀ action s', s.step action = some s' → ∀ row ∈ s.ledger.rows, row ∈ s'.ledger.rows ∨
    ∃ n, .intent n row.id.toUInt64 ∈ s.trace ∧ (∀ m, .finalized m row.id.toUInt64 ∉ s.trace) ∧
      .finalized n row.id.toUInt64 ∈ s'.trace
  abandoned : ∀ n id, s.Abandoned n → .intent n id ∈ s.trace → (∀ m, .finalized m id ∉ s.trace) →
    ∃ row ∈ s.ledger.rows, row.id = id.toInt64 ∧ row.decision = "pending" ∧
      ∀ more s', exec step s more = some s' → row ∈ s'.ledger.rows
  bounded : s.available + s.outstanding ≤ AUDIT_QUEUE_MAX

theorem running_row (inv : Covered s) {n : Nat} {t : Thread} {id : UInt64} {permit : Bool}
    (here : s.threads[n]? = some t) (running : t.future = some ⟨.running id, permit⟩) :
    ∃ row ∈ s.ledger.rows, row.id = id.toInt64 ∧
      ∃ entry, t.call.intentEntry = some entry ∧ row.PendingOf entry := by
  obtain ⟨mem, unfinished⟩ := inv.owned n t id here (running_of (inv.wf n t here) running).1
  obtain ⟨row, stored, taken⟩ := inv.stored n id mem
  obtain ⟨entry, ⟨u, found, own⟩, pending⟩ := inv.pending n id mem unfinished row stored taken
  obtain rfl := Option.some.inj (here.symm.trans found)
  exact ⟨row, stored, taken, entry, own, pending⟩

theorem row_moved {n : Nat} {t t' : Thread} {events : List Event} (moved : Moved s n t s' t' events) {row : AuditRow}
    (stored : row ∈ s.ledger.rows) : row ∈ s'.ledger.rows ∨
      ∃ input permit, t.job = some ⟨.finalize row.id.toUInt64 input, permit, .queued⟩ ∧
        events = [.finalized n row.id.toUInt64] := by
  have effect := moved.effect
  generalize ledger_eq : s'.ledger = ledger' at effect
  cases effect with
  | still quiet announces => exact Or.inl stored
  | intent call fresh own owner recorded confirmed wrote =>
      obtain ⟨_, _, _, rows, _⟩ := AuditLog.recordIntent_eq_ok wrote
      rw [rows]
      exact Or.inl (List.mem_append_left _ stored)
  | completed call own owner recorded confirmed wrote =>
      obtain ⟨_, _, _, rows, _⟩ := AuditLog.recordCompleted_eq_ok wrote
      rw [rows]
      exact Or.inl (List.mem_append_left _ stored)
  | @finalized id _ _ input permit call mine owner recorded confirmed wrote =>
      obtain ⟨_, rows⟩ := AuditLog.finalize_eq_ok wrote
      by_cases same : row.id = id.toInt64
      · obtain rfl : row.id.toUInt64 = id := by rw [same, UInt64.toUInt64_toInt64]
        exact Or.inr ⟨input, permit, mine, rfl⟩
      · left
        rw [rows]
        exact List.mem_map.mpr ⟨row, stored, if_neg same⟩

theorem row_step (inv : Covered s) {action : AuditAction} (stepped : s.step action = some s')
    {row : AuditRow} (stored : row ∈ s.ledger.rows) : row ∈ s'.ledger.rows ∨
      ∃ n t input permit, s.threads[n]? = some t ∧
        t.job = some ⟨.finalize row.id.toUInt64 input, permit, .queued⟩ ∧
        s'.trace = s.trace ++ [.finalized n row.id.toUInt64] := by
  cases action with
  | arrive call =>
      obtain rfl := Option.some.inj stepped
      exact Or.inl stored
  | request n action =>
      simp only [step] at stepped
      split at stepped
      · cases stepped
      · rename_i t here
        obtain ⟨t', events, moved⟩ := moved_stepRequest (inv.wf n t here) action stepped
        refine (row_moved moved stored).imp_right ?_
        intro ⟨input, permit, job, same⟩
        exact ⟨n, t, input, permit, here, job, by rw [moved.trace, same]⟩

theorem write_gone (n : Nat) (t : Thread) (job : Job) (fails : Bool) (now pick : Int64) :
    ∃ result, (s.write n t job fails now pick).threads =
      s.threads.insert n { t with job := some { job with state := .written result } } := by
  unfold write
  split_ifs
  · exact ⟨_, rfl⟩
  · cases job.write with
    | recordIntent entry =>
        simp only
        split <;> exact ⟨_, rfl⟩
    | recordCompleted entry =>
        simp only
        split <;> exact ⟨_, rfl⟩
    | finalize id input =>
        simp only
        split <;> exact ⟨_, rfl⟩

theorem stepRequest_gone {n : Nat} {t : Thread} (gone : t.future = none) {action : RequestAction}
    (stepped : s.stepRequest n t action = some s') :
    ∃ t', s'.threads = s.threads.insert n t' ∧ t'.future = none ∧
      ∀ job', t'.job = some job' → ∃ job, t.job = some job ∧ job'.write = job.write := by
  cases action with
  | write fails now pick =>
      simp only [stepRequest] at stepped
      split at stepped
      · rename_i write permit job
        obtain rfl := Option.some.inj stepped
        obtain ⟨result, threads⟩ := write_gone n t ⟨write, permit, .queued⟩ fails now pick
        refine ⟨_, threads, gone, ?_⟩
        intro job' same
        obtain rfl := Option.some.inj same
        exact ⟨_, job, rfl⟩
      · cases stepped
  | complete =>
      simp only [stepRequest] at stepped
      split at stepped
      · obtain rfl := Option.some.inj stepped
        simp only [complete, gone]
        refine ⟨{ t with job := none }, ?_, gone, ?_⟩
        · rw [← gone]
          rfl
        · intro job' same
          cases same
      · cases stepped
  | panicked =>
      simp only [stepRequest] at stepped
      split at stepped
      · split_ifs at stepped
        obtain rfl := Option.some.inj stepped
        simp only [panicked, gone, Option.map_none]
        refine ⟨{ t with job := none }, ?_, gone, ?_⟩
        · rw [← gone]
          rfl
        · intro job' same
          cases same
      · cases stepped
  | start | saturated | resume | respond answer | dispatched outcome | read family outcome | drop =>
      simp [stepRequest, gone] at stepped

theorem Abandoned.step (inv : Covered s) {n : Nat} (gone : s.Abandoned n) {action : AuditAction}
    (stepped : s.step action = some s') : s'.Abandoned n := by
  obtain ⟨t, here, ended, unwritten⟩ := gone
  cases action with
  | arrive call =>
      obtain rfl := Option.some.inj stepped
      refine ⟨t, ?_, ended, unwritten⟩
      show (s.threads.insert s.nextRequest _)[n]? = some t
      rw [getElem?_insert_eq, if_neg (Nat.ne_of_gt (inv.next n t here)), here]
  | request m action =>
      simp only [AuditSystem.step] at stepped
      split at stepped
      · cases stepped
      · rename_i u found
        by_cases same : m = n
        · subst same
          obtain rfl := Option.some.inj (here.symm.trans found)
          obtain ⟨t', threads, over', kept⟩ := stepRequest_gone ended stepped
          refine ⟨t', by rw [threads, getElem?_insert_self], over', ?_⟩
          intro job' left id input
          obtain ⟨job, before, write⟩ := kept job' left
          rw [write]
          exact unwritten job before id input
        · obtain ⟨t', events, moved⟩ := moved_stepRequest (inv.wf m u found) action stepped
          refine ⟨t, ?_, ended, unwritten⟩
          rw [Covered.thread_moved moved, if_neg same, here]

theorem abandoned_step (inv : Covered s) {n : Nat} {id : UInt64} (gone : s.Abandoned n)
    (mem : .intent n id ∈ s.trace) {action : AuditAction} (stepped : s.step action = some s')
    {row : AuditRow} (stored : row ∈ s.ledger.rows) (taken : row.id = id.toInt64) :
    row ∈ s'.ledger.rows := by
  refine (row_step inv stepped stored).resolve_right ?_
  intro ⟨m, u, input, permit, found, job, _⟩
  have owner : u.owner = some id := by
    rw [Thread.owner_job job, taken, UInt64.toUInt64_toInt64]
    rfl
  obtain rfl := inv.unique m n id (inv.owned m u id found owner).1 mem
  obtain ⟨t, here, _, unwritten⟩ := gone
  obtain rfl := Option.some.inj (here.symm.trans found)
  exact unwritten _ job _ input rfl

theorem trace_step (inv : Covered s) {action : AuditAction} (stepped : s.step action = some s')
    {event : Event} (mem : event ∈ s.trace) : event ∈ s'.trace := by
  cases action with
  | arrive call =>
      obtain rfl := Option.some.inj stepped
      exact mem
  | request n action =>
      simp only [step] at stepped
      split at stepped
      · cases stepped
      · rename_i t here
        obtain ⟨t', events, moved⟩ := moved_stepRequest (inv.wf n t here) action stepped
        rw [moved.trace]
        exact List.mem_append_left _ mem

theorem abandoned_run (inv : Covered s) {n : Nat} {id : UInt64} (gone : s.Abandoned n)
    (mem : .intent n id ∈ s.trace) {more : List AuditAction}
    (run : exec step s more = some s') {row : AuditRow} (stored : row ∈ s.ledger.rows)
    (taken : row.id = id.toInt64) : row ∈ s'.ledger.rows := by
  have kept := exec_invariant
    (P := fun s => Covered s ∧ s.Abandoned n ∧ .intent n id ∈ s.trace ∧ row ∈ s.ledger.rows)
    (fun s action s' before stepped => ?_) ⟨inv, gone, mem, stored⟩ run
  · exact kept.2.2.2
  · obtain ⟨inv, gone, mem, stored⟩ := before
    exact ⟨inv.step stepped, gone.step inv stepped, trace_step inv stepped mem,
      abandoned_step inv gone mem stepped stored taken⟩

theorem outstanding_le (inv : Covered s) : s.available + s.outstanding ≤ AUDIT_QUEUE_MAX := by
  rw [← inv.permits]
  apply Nat.add_le_add_left
  refine weight_mono fun n t here => ?_
  cases left : t.job with
  | none => simp
  | some job =>
      rw [Option.any_some]
      by_cases busy : job.isOutstanding = true
      · have fits := (inv.wf n t here).job job left
        have held : job.permit = t.call.isQueued := by
          unfold Job.Fits at fits
          unfold Job.isOutstanding at busy
          cases state : job.state with
          | queued | written result =>
              rw [state] at fits
              exact fits
          | returned output =>
              rw [state] at busy
              cases busy
        rw [busy, Bool.and_true, ← held, Thread.permits, left]
        exact Nat.le_add_left _ _
      · rw [Bool.not_eq_true] at busy
        rw [busy, Bool.and_false]
        exact Nat.zero_le _

theorem two_phase_audit (ledger : AuditLog) (actions : List AuditAction) (s : AuditSystem)
    (run : exec step (boot ledger) actions = some s) : s.TwoPhase := by
  have inv := Covered.run run
  refine ⟨?_, fun n t id permit here running => running_row inv here running, ?_, ?_, ?_,
    outstanding_le inv⟩
  · intro before n call after split audited
    have right := inv.right before _ after split
    rw [Event.Right, audited] at right
    exact right.resolve_left (by simp)
  · intro before n after split
    obtain ⟨id, mem⟩ := inv.right before _ after split
    have traced : .completed n id ∈ s.trace := by
      rw [split]
      exact List.mem_append_left _ mem
    obtain ⟨-, row, stored, taken, entry, ⟨t, here, own⟩, completed⟩ := inv.finished n id traced
    exact ⟨id, mem, row, stored, taken, t, entry, here, own, completed⟩
  · intro action s' stepped row stored
    refine (row_step inv stepped stored).imp_right ?_
    intro ⟨n, t, input, permit, here, job, trace⟩
    obtain ⟨mem, unfinished⟩ := inv.owned n t _ here (Thread.owner_job job)
    refine ⟨n, mem, unfinished, ?_⟩
    rw [trace]
    exact List.mem_append_right _ (List.mem_singleton.mpr rfl)
  · intro n id gone mem unfinished
    obtain ⟨row, stored, taken⟩ := inv.stored n id mem
    obtain ⟨entry, _, pending⟩ := inv.pending n id mem unfinished row stored taken
    refine ⟨row, stored, taken, pending.decision, ?_⟩
    intro more s' run
    exact abandoned_run inv gone mem run stored taken

theorem no_rows_positive : ∀ row ∈ ([] : List AuditRow), 0 < row.id := by
  intro row mem
  cases mem

def emptyLedger : AuditLog := ⟨[], List.nodup_nil, no_rows_positive⟩

def listing : List AuditAction :=
  [.arrive (.tool ⟨"plugins.list", "tok-1", ["plugins:list"]⟩), .request 0 .start,
    .arrive (.http ⟨.connect, "POST", "/oxidhome.v1.HealthService/Check", .denied none⟩),
    .request 1 .start, .request 0 (.write false 7 0), .request 0 .complete, .request 0 .resume,
    .request 0 (.dispatched (.busy "")), .request 0 (.write false 9 0), .request 0 .complete,
    .request 0 .resume]

theorem two_phase_audit_listing :
    ∃ s, exec step (boot emptyLedger) listing = some s ∧ s.TwoPhase := by
  have runs : (exec step (boot emptyLedger) listing).isSome = true := by decide +kernel
  obtain ⟨s, run⟩ := Option.isSome_iff_exists.mp runs
  exact ⟨s, run, two_phase_audit emptyLedger listing s run⟩

theorem anonymous_handler_unrecorded :
    ¬ ∀ ledger actions s, exec step (boot ledger) actions = some s →
      ∀ before n call after, s.trace = before ++ .started n call :: after →
        ∃ id, .intent n id ∈ before := by
  intro always
  let check : Call :=
    .http ⟨.connect, "POST", "/oxidhome.v1.HealthService/Check", .denied none⟩
  have run : exec step (boot emptyLedger) [.arrive check, .request 0 .start] =
      some ⟨emptyLedger, (∅ : Std.TreeMap Nat Thread).insert 0 ⟨check, some ⟨.arrived, false⟩, none⟩
        |>.insert 0 ⟨check, some ⟨.passed, false⟩, none⟩, 1, 32, [.started 0 check]⟩ := rfl
  obtain ⟨id, mem⟩ := always _ _ _ run [] 0 check [] rfl
  cases mem

end AuditSystem

end OxidHome.Audit

import OxidHome.Api.McpResponse
import OxidHome.Audit.AuditLog
import OxidHome.Library.Machine

/-!
# Two-phase audit

`require_token`, `connect_auth_middleware`, the MCP `call` and the MCP `read`, as far as the ledger
goes. A request is a future that may be dropped wherever it is suspended; the write that it has
handed to the blocking pool runs on, and may fail. `trace` is what has happened so far, and no step
reads it. The first row of a request is that of its own layer: an MCP tool call has one besides
that of the HTTP request it came in.
-/

namespace OxidHome.Audit
open Library
open Api (satisfiedBy)
open Api.Mcp (ToolOutcome ReadOutcome)
open Std (TreeMap)

/-- The routers of `build_router`. -/
inductive Mount where
  | authenticated
  /-- `GET /api/v1/readyz` -/
  | publicly
  /-- `/ui` and `/ui/frame` of a plugin -/
  | ticketGated
  | connect
  | mcp
deriving DecidableEq

inductive Verified where
  | admitted (tokenId actorKind : String)
  | constrained (tokenId actorKind sentinel : String)
  | denied (credentialFp : Option String)
  | internal
deriving DecidableEq

structure HttpRequest where
  mount : Mount
  method : String
  path : String
  verified : Verified
deriving DecidableEq

structure ToolCall where
  name : String
  tokenId : String
  scopes : List String
deriving DecidableEq

structure ResourceRead where
  uri : String
  tokenId : String
deriving DecidableEq

inductive Call where
  | http (request : HttpRequest)
  | tool (request : ToolCall)
  | resource (request : ResourceRead)
deriving DecidableEq

def ANONYMOUS_CONNECT_PATHS : List String := ["/oxidhome.v1.HealthService/Check"]

/-- No audit middleware stands before the handler. -/
def HttpRequest.isAnonymous (request : HttpRequest) : Bool :=
  match request.mount with
  | .publicly | .ticketGated => true
  | .connect => ANONYMOUS_CONNECT_PATHS.any (· = request.path)
  | .authenticated | .mcp => false

def Call.isAnonymous : Call → Bool
  | .http request => request.isAnonymous
  | .tool _ | .resource _ => false

/-- Tool calls and resource reads draw on `AUDIT_QUEUE_SEMAPHORE`. -/
def Call.isQueued : Call → Bool
  | .http _ => false
  | .tool _ | .resource _ => true

def toolRoute (name : String) : Option (String × String) :=
  match name with
  | "device.send_command" => some (name, "devices:command")
  | "logs.query" => some (name, "logs:read")
  | "events.history" => some (name, "events:read")
  | "plugins.list" => some (name, "plugins:list")
  | "plugins.show" => some (name, "plugins:list")
  | "plugins.stop" => some (name, "plugins:stop")
  | "plugins.uninstall" => some (name, "plugins:uninstall")
  | "plugins.start" => some (name, "plugins:start")
  | "plugins.install" => some (name, "plugins:install")
  | _ => none

def ANONYMOUS_TOKEN_ID : String := "anonymous"
def MCP_ACTOR_KIND : String := "mcp"

def entryOf (tokenId actorKind method path : String) (status : UInt16) (decision : String)
    (requiredScope credentialFp : Option String) : AuditEntry where
  id := 0
  intentMs := 0
  finalizedMs := none
  tokenId := tokenId
  actorKind := actorKind
  method := method
  path := path
  status := status
  decision := decision
  requiredScope := requiredScope
  executionOutcome := none
  domainError := none
  credentialFp := credentialFp

def HttpRequest.intent (request : HttpRequest) (tokenId actorKind : String) : AuditEntry :=
  entryOf tokenId actorKind request.method request.path 0 "pending" none none

def HttpRequest.probe (request : HttpRequest) (credentialFp : Option String) : AuditEntry :=
  entryOf ANONYMOUS_TOKEN_ID ANONYMOUS_TOKEN_ID request.method request.path 401 "deny" none
    credentialFp

def HttpRequest.denial (request : HttpRequest) (tokenId actorKind sentinel : String) : AuditEntry :=
  entryOf tokenId actorKind request.method request.path 403 "deny" (some sentinel) none

def newPendingAuditEntry (tokenId family : String) : AuditEntry :=
  entryOf tokenId MCP_ACTOR_KIND "MCP" ("mcp.tool." ++ family) 0 "pending" none none

def requiredScope : ToolOutcome → Option String
  | .denied required => some required
  | _ => none

def newCompletedAuditEntry (tokenId family : String) (outcome : ToolOutcome) : AuditEntry :=
  entryOf tokenId MCP_ACTOR_KIND "MCP" ("mcp.tool." ++ family) (.ofNat outcome.status)
    outcome.decision (requiredScope outcome) none

def readRequiredScope : ReadOutcome → Option String
  | .denied required => some required
  | _ => none

def newAuditEntry (tokenId family : String) (outcome : ReadOutcome) : AuditEntry :=
  entryOf tokenId MCP_ACTOR_KIND "MCP" ("mcp.resource." ++ family) (.ofNat outcome.status)
    outcome.decision (readRequiredScope outcome) none

/-- The resource has contents, so `into_result` is `Ok`. -/
def hasBody : ReadOutcome → Bool
  | .okText .. | .okBlob .. => true
  | _ => false

structure FinalizeInput where
  status : UInt16
  decision : String
  requiredScope : Option String
  executionOutcome : Option String
  domainError : Option String
deriving DecidableEq

/-- What the middleware reads off the response, or out of Connect's outcome slot. -/
structure Answer where
  status : UInt16
  deniedScope : Option String
  domainError : Option String

def isSuccess (status : UInt16) : Bool := 200 ≤ status && status < 300

def isServerError (status : UInt16) : Bool := 500 ≤ status && status < 600

def finalizeAudit (answer : Answer) : FinalizeInput where
  status := answer.status
  decision :=
    if isSuccess answer.status then "allow"
    else if isServerError answer.status then "error"
    else "deny"
  requiredScope := answer.deniedScope
  executionOutcome :=
    if isSuccess answer.status then answer.domainError.map fun _ => "failed" else none
  domainError := if isSuccess answer.status then answer.domainError else none

def fromOutcome (outcome : ToolOutcome) : FinalizeInput where
  status := .ofNat outcome.status
  decision := outcome.decision
  requiredScope := requiredScope outcome
  executionOutcome :=
    match outcome with
    | .ok _ true => some "success"
    | .execErr _ _ (some _) => some "failed"
    | _ => none
  domainError :=
    match outcome with
    | .execErr _ _ (some kind) => some kind
    | _ => none

inductive BlockingWrite where
  | recordIntent (entry : AuditEntry)
  | recordCompleted (entry : AuditEntry)
  | finalize (id : UInt64) (input : FinalizeInput)

inductive JobState where
  | queued
  /-- The ledger has answered and the closure has not returned. -/
  | written (result : Except AuditLogError UInt64)
  /-- The output waits in the `JoinHandle`; `none` is a `JoinError`. -/
  | returned (output : Option (Except AuditLogError UInt64))

/-- A closure of `spawn_blocking`, with the audit permit that was moved into it. -/
structure Job where
  write : BlockingWrite
  permit : Bool
  state : JobState

def Job.isOutstanding (job : Job) : Bool :=
  match job.state with
  | .queued | .written _ => true
  | .returned _ => false

inductive Stage where
  | arrived
  /-- Awaits a row that decides nothing. -/
  | recording
  | intending
  | running (id : UInt64)
  | passed
  | reading
  | finalizing
  /-- Awaits the one row of a refused tool call or of a resource read. -/
  | completing (body : Bool)

structure Future where
  stage : Stage
  permit : Bool

/-- What is left of a request: its future unless that has ended or was dropped, and its job. -/
structure Thread where
  call : Call
  future : Option Future
  job : Option Job

/-- The intent of a tool call hands its permit back with the result. -/
def Job.handsBack (job : Job) (thread : Thread) : Bool :=
  match thread.call, job.write with
  | .tool _, .recordIntent _ => job.permit
  | _, _ => false

inductive Event where
  | intent (request : Nat) (id : UInt64)
  | completed (request : Nat) (id : UInt64)
  | finalized (request : Nat) (id : UInt64)
  | started (request : Nat) (call : Call)
  | served (request : Nat)
deriving DecidableEq

structure AuditSystem where
  ledger : AuditLog
  threads : TreeMap Nat Thread
  nextRequest : Nat
  /-- Free permits of `AUDIT_QUEUE_SEMAPHORE`. -/
  available : Nat
  trace : List Event

inductive RequestAction where
  | start
  /-- The pre-admission gate of the MCP mount is full. -/
  | saturated
  | write (fails : Bool) (now pick : Int64)
  | complete
  | panicked
  /-- The awaited `JoinHandle` is ready. -/
  | resume
  | respond (answer : Answer)
  | dispatched (outcome : ToolOutcome)
  | read (family : String) (outcome : ReadOutcome)
  | drop

inductive AuditAction where
  | arrive (call : Call)
  | request (n : Nat) (action : RequestAction)

def AUDIT_QUEUE_MAX : Nat := 32

namespace AuditSystem

def boot (ledger : AuditLog) : AuditSystem := ⟨ledger, ∅, 0, AUDIT_QUEUE_MAX, []⟩

def put (s : AuditSystem) (n : Nat) (thread : Thread) : AuditSystem :=
  { s with threads := s.threads.insert n thread }

def release (s : AuditSystem) (permit : Bool) : AuditSystem :=
  { s with available := s.available + permit.toNat }

def record (s : AuditSystem) (event : Event) : AuditSystem :=
  { s with trace := s.trace ++ [event] }

/-- `spawn_blocking`, awaited at `stage`. -/
def spawn (s : AuditSystem) (n : Nat) (thread : Thread) (stage : Stage) (write : BlockingWrite)
    (permit : Bool) : AuditSystem :=
  s.put n { thread with future := some ⟨stage, false⟩, job := some ⟨write, permit, .queued⟩ }

/-- The future ends, and what it took out of its `JoinHandle` with it. -/
def respond (s : AuditSystem) (n : Nat) (thread : Thread) : AuditSystem :=
  s.put n { thread with future := none, job := none }

def requireToken (s : AuditSystem) (n : Nat) (thread : Thread) (request : HttpRequest) :
    AuditSystem :=
  if request.isAnonymous then
    (s.put n { thread with future := some ⟨.passed, false⟩ }).record (.started n thread.call)
  else match request.verified with
    | .internal => s.respond n thread
    | .denied fp => s.spawn n thread .recording (.recordCompleted (request.probe fp)) false
    | .constrained tokenId actorKind sentinel =>
        s.spawn n thread .recording
          (.recordCompleted (request.denial tokenId actorKind sentinel)) false
    | .admitted tokenId actorKind =>
        s.spawn n thread .intending (.recordIntent (request.intent tokenId actorKind)) false

def toolCall (s : AuditSystem) (n : Nat) (thread : Thread) (request : ToolCall) : AuditSystem :=
  match s.available with
  | 0 => s.respond n thread
  | available + 1 =>
    let s := { s with available := available }
    match toolRoute request.name with
    | none =>
        let outcome := ToolOutcome.unknownTool ("no MCP tool named `" ++ request.name ++ "`")
        s.spawn n thread (.completing false)
          (.recordCompleted (newCompletedAuditEntry request.tokenId "unknown" outcome)) true
    | some (family, required) =>
        if satisfiedBy required request.scopes then
          s.spawn n thread .intending
            (.recordIntent (newPendingAuditEntry request.tokenId family)) true
        else
          s.spawn n thread (.completing false) (.recordCompleted
            (newCompletedAuditEntry request.tokenId family (.denied required))) true

def resourceRead (s : AuditSystem) (n : Nat) (thread : Thread) : AuditSystem :=
  match s.available with
  | 0 => s.respond n thread
  | available + 1 =>
    { s with available := available }.put n { thread with future := some ⟨.reading, true⟩ }

def start (s : AuditSystem) (n : Nat) (thread : Thread) : AuditSystem :=
  match thread.call with
  | .http request => s.requireToken n thread request
  | .tool request => s.toolCall n thread request
  | .resource _ => s.resourceRead n thread

def write (s : AuditSystem) (n : Nat) (thread : Thread) (job : Job) (fails : Bool)
    (now pick : Int64) : AuditSystem :=
  let answer (s : AuditSystem) (result : Except AuditLogError UInt64) : AuditSystem :=
    s.put n { thread with job := some { job with state := .written result } }
  if fails then answer s (.error .sql)
  else match job.write with
    | .recordIntent entry =>
        match s.ledger.recordIntent now entry pick with
        | .error err => answer s (.error err)
        | .ok (id, ledger) => answer ({ s with ledger := ledger }.record (.intent n id)) (.ok id)
    | .recordCompleted entry =>
        match s.ledger.recordCompleted now entry pick with
        | .error err => answer s (.error err)
        | .ok (id, ledger) => answer ({ s with ledger := ledger }.record (.completed n id)) (.ok id)
    | .finalize id input =>
        match s.ledger.finalize now id input.status input.decision input.requiredScope
            input.executionOutcome input.domainError with
        | .error err => answer s (.error err)
        | .ok ledger => answer ({ s with ledger := ledger }.record (.finalized n id)) (.ok id)

def complete (s : AuditSystem) (n : Nat) (thread : Thread) (job : Job)
    (result : Except AuditLogError UInt64) : AuditSystem :=
  match thread.future with
  | none => (s.put n { thread with job := none }).release job.permit
  | some _ =>
      let kept := job.handsBack thread
      (s.put n { thread with job := some ⟨job.write, kept, .returned (some result)⟩ }).release
        (job.permit && !kept)

def panicked (s : AuditSystem) (n : Nat) (thread : Thread) (job : Job) : AuditSystem :=
  let left := thread.future.map fun _ => Job.mk job.write false (.returned none)
  (s.put n { thread with job := left }).release job.permit

def run (s : AuditSystem) (n : Nat) (thread : Thread) (id : UInt64) (permit : Bool) : AuditSystem :=
  (s.put n { thread with future := some ⟨.running id, permit⟩, job := none }).record
    (.started n thread.call)

def resume (s : AuditSystem) (n : Nat) (thread : Thread) (stage : Stage) (job : Job)
    (output : Option (Except AuditLogError UInt64)) : Option AuditSystem :=
  match stage, output with
  | .intending, some (.ok id) => some (s.run n thread id job.permit)
  | .completing true, some (.ok _) =>
      some (((s.respond n thread).release job.permit).record (.served n))
  | .intending, _ | .recording, _ | .finalizing, _ | .completing _, _ =>
      some ((s.respond n thread).release job.permit)
  | _, _ => none

def drop (s : AuditSystem) (n : Nat) (thread : Thread) (future : Future) : AuditSystem :=
  let s := s.release future.permit
  match thread.job with
  | some job =>
      if job.isOutstanding then s.put n { thread with future := none }
      else (s.respond n thread).release job.permit
  | none => s.put n { thread with future := none }

def stepRequest (s : AuditSystem) (n : Nat) (thread : Thread) :
    RequestAction → Option AuditSystem
  | .start =>
      match thread.future with
      | some ⟨.arrived, _⟩ => some (s.start n thread)
      | _ => none
  | .saturated =>
      match thread.call, thread.future with
      | .http request, some ⟨.arrived, _⟩ =>
          if request.mount = .mcp then some (s.respond n thread) else none
      | _, _ => none
  | .write fails now pick =>
      match thread.job with
      | some ⟨write, permit, .queued⟩ =>
          some (s.write n thread ⟨write, permit, .queued⟩ fails now pick)
      | _ => none
  | .complete =>
      match thread.job with
      | some ⟨write, permit, .written result⟩ =>
          some (s.complete n thread ⟨write, permit, .written result⟩ result)
      | _ => none
  | .panicked =>
      match thread.job with
      | some job => if job.isOutstanding then some (s.panicked n thread job) else none
      | none => none
  | .resume =>
      match thread.future, thread.job with
      | some ⟨stage, _⟩, some ⟨write, permit, .returned output⟩ =>
          s.resume n thread stage ⟨write, permit, .returned output⟩ output
      | _, _ => none
  | .respond answer =>
      match thread.call, thread.future with
      | .http _, some ⟨.running id, _⟩ =>
          some (s.spawn n thread .finalizing (.finalize id (finalizeAudit answer)) false)
      | .http _, some ⟨.passed, _⟩ => some (s.respond n thread)
      | _, _ => none
  | .dispatched outcome =>
      match thread.call, thread.future with
      | .tool _, some ⟨.running id, permit⟩ =>
          some (s.spawn n thread .finalizing (.finalize id (fromOutcome outcome)) permit)
      | _, _ => none
  | .read family outcome =>
      match thread.call, thread.future with
      | .resource request, some ⟨.reading, permit⟩ =>
          some (s.spawn n thread (.completing (hasBody outcome))
            (.recordCompleted (newAuditEntry request.tokenId family outcome)) permit)
      | _, _ => none
  | .drop => thread.future.map (s.drop n thread)

def step (s : AuditSystem) : AuditAction → Option AuditSystem
  | .arrive call =>
      some { s.put s.nextRequest ⟨call, some ⟨.arrived, false⟩, none⟩ with
        nextRequest := s.nextRequest + 1 }
  | .request n action =>
      match s.threads[n]? with
      | none => none
      | some thread => s.stepRequest n thread action

end AuditSystem

end OxidHome.Audit

import Mathlib

/-!
# The supervisor

`run_supervisor` of `runtime/lifecycle.rs` and the loops under it. What the outside decides is the
input: the results of plugin calls, which arm of a `select!` completes and with what message, and
the time an attempt stayed `Running`. A list that ends early is a supervisor that is still there.
The output is the trace of what the supervisor did.
-/

namespace OxidHome.Lifecycle

structure SupervisorTuning where
  maxRestarts : Nat
  healthyReset : Nat

inductive RestartPolicy where
  | always
  | onTrap
  | never
deriving DecidableEq

def RestartPolicy.asStr : RestartPolicy → String
  | .always => "always"
  | .onTrap => "on-trap"
  | .never => "never"

inductive InstanceState where
  | loading
  | inited
  | running
  | crashed (reason : String) (restarts : Nat)
  | restarting (attempt : Nat)
  | stopping
  | stopped
  | failed (error : String)
deriving DecidableEq

def InstanceState.isTerminal : InstanceState → Bool
  | .stopped | .failed _ => true
  | _ => false

inductive TrapReason where
  | trap (message : String)
  | initFailed (message : String)
  | unresponsive (message : String)
deriving DecidableEq

def TrapReason.display : TrapReason → String
  | .trap m => "trap: " ++ m
  | .initFailed m => "init failed: " ++ m
  | .unresponsive m => "unresponsive (watchdog): " ++ m

inductive InitError where
  | plugin (message : String)
  | trap (message : String)
  | unresponsive (message : String)

/-- The error of a host entry point; `watchdog` is what `is_watchdog_trap` finds in it. -/
structure CallError where
  message : String
  watchdog : Bool

abbrev CallResult := Except CallError Unit

def classifyPostInitTrap (err : CallError) : TrapReason :=
  if err.watchdog then .unresponsive err.message else .trap err.message

inductive ControlCommand where
  | execute
  | executeService
  | shutdown
deriving DecidableEq

inductive Event where
  | loadAttempt
  | transition (next : InstanceState)
  | dequeued (command : ControlCommand)
  | loadFailed (message : String)
  | ranFor (elapsed : Nat)
  | crash (policy : RestartPolicy) (reason : TrapReason)
deriving DecidableEq

inductive RestartDecision where
  | restart
  | giveUp
deriving DecidableEq

def restartDecision (policy : RestartPolicy) (reason : TrapReason)
    (restartsDone maxRestarts : Nat) : RestartDecision :=
  let policyAllows := match policy with
    | .never => false
    | .always => true
    | .onTrap => match reason with
      | .trap _ | .unresponsive _ => true
      | .initFailed _ => false
  if policyAllows && restartsDone < maxRestarts then .restart else .giveUp

inductive LoopAction where
  | continue
  | stop
  | stopFailed (reason : String)

inductive ServeOutcome where
  | stopped
  | stoppedFailed (reason : String)
  | crashed (reason : TrapReason)

/-- `ctrl` is `none` when every handle is dropped; `call` is how the plugin call it leads to ends. -/
def handleControl (ctrl : Option ControlCommand) (call : CallResult) :
    List Event × Except CallError LoopAction :=
  match ctrl with
  | none => ([.transition .stopping], call.map fun _ => .stop)
  | some .shutdown =>
      ([.dequeued .shutdown, .transition .stopping],
        match call with
        | .ok _ => .ok .stop
        | .error err => .ok (.stopFailed ("shutdown trapped: " ++ err.message)))
  | some command => ([.dequeued command], call.map fun _ => .continue)

inductive Arm where
  | control (ctrl : Option ControlCommand)
  | tick
  | wake

structure ServeTurn where
  arm : Arm
  call : CallResult
  drain : CallResult

def serveTurn (turn : ServeTurn) : List Event × Except CallError LoopAction :=
  match turn.arm with
  | .control ctrl => handleControl ctrl turn.call
  | .tick => ([], turn.call.map fun _ => .continue)
  | .wake => ([], .ok .continue)

def serveLoop : List ServeTurn → List Event × Option ServeOutcome
  | [] => ([], none)
  | turn :: rest =>
    let (events, outcome) := serveTurn turn
    match outcome with
    | .ok .continue =>
        match turn.drain with
        | .ok _ =>
            let (more, outcome) := serveLoop rest
            (events ++ more, outcome)
        | .error e => (events, some (.crashed (classifyPostInitTrap e)))
    | .ok .stop => (events ++ [.transition .stopped], some .stopped)
    | .ok (.stopFailed reason) => (events, some (.stoppedFailed reason))
    | .error e => (events, some (.crashed (classifyPostInitTrap e)))

inductive BackoffOutcome where
  | elapsed
  | shutdown

inductive BackoffTurn where
  | elapsed
  | control (ctrl : Option ControlCommand)

def backoffWait : List BackoffTurn → List Event × Option BackoffOutcome
  | [] => ([], none)
  | .elapsed :: _ => ([], some .elapsed)
  | .control none :: _ => ([], some .shutdown)
  | .control (some .shutdown) :: _ => ([.dequeued .shutdown], some .shutdown)
  | .control (some command) :: rest =>
      let (more, outcome) := backoffWait rest
      (.dequeued command :: more, outcome)

inductive LifecycleOutcome where
  | stopped
  | stoppedFailed (reason : String)
  | loadFailed (message : String)
  | crashed (policy : RestartPolicy) (reason : TrapReason) (ranHealthy : Bool)

/-- What an attempt meets; a successful load gives the `restart` policy of the manifest. -/
structure Attempt where
  load : Except String RestartPolicy
  init : Except InitError Unit
  drain : CallResult
  serve : List ServeTurn
  elapsed : Nat
  backoff : List BackoffTurn

def runOneLifecycle (healthyReset : Nat) (attempt : Attempt) :
    List Event × Option LifecycleOutcome :=
  let loading := [.loadAttempt, .transition .loading]
  match attempt.load with
  | .error message => (loading ++ [.loadFailed message], some (.loadFailed message))
  | .ok policy =>
    match attempt.init with
    | .error e =>
        let reason := match e with
          | .plugin m => .initFailed m
          | .trap m => .trap m
          | .unresponsive m => .unresponsive m
        (loading ++ [.crash policy reason], some (.crashed policy reason false))
    | .ok _ =>
      let inited := loading ++ [.transition .inited]
      match attempt.drain with
      | .error e =>
          let reason := classifyPostInitTrap e
          (inited ++ [.crash policy reason], some (.crashed policy reason false))
      | .ok _ =>
        let running := inited ++ [.transition .running]
        let (events, outcome) := serveLoop attempt.serve
        match outcome with
        | none => (running ++ events, none)
        | some .stopped => (running ++ events, some .stopped)
        | some (.stoppedFailed reason) => (running ++ events, some (.stoppedFailed reason))
        | some (.crashed reason) =>
            (running ++ events ++ [.ranFor attempt.elapsed, .crash policy reason],
              some (.crashed policy reason (decide (attempt.elapsed ≥ healthyReset))))

def giveUpError (tuning : SupervisorTuning) (policy : RestartPolicy) (reason : TrapReason)
    (restarts : Nat) : String :=
  if restarts ≥ tuning.maxRestarts then
    "gave up after " ++ toString tuning.maxRestarts ++ " consecutive restarts; last crash: " ++
      reason.display
  else "not restarting under `" ++ policy.asStr ++ "` policy: " ++ reason.display

/-- The `Crashed` arm of `run_supervisor`; `again` is the next turn of its loop. -/
def afterCrash (tuning : SupervisorTuning) (policy : RestartPolicy) (reason : TrapReason)
    (restarts : Nat) (backoff : List BackoffTurn) (again : Nat → List Event) : List Event :=
  match restartDecision policy reason restarts tuning.maxRestarts with
  | .giveUp => [.transition (.failed (giveUpError tuning policy reason restarts))]
  | .restart =>
    let crashed : List Event := [.transition (.crashed reason.display restarts),
      .transition (.restarting (restarts + 1))]
    let (waited, outcome) := backoffWait backoff
    match outcome with
    | none => crashed ++ waited
    | some .shutdown => crashed ++ waited ++ [.transition .stopped]
    | some .elapsed => crashed ++ waited ++ again (restarts + 1)

/-- The loop of `run_supervisor`, entered with the restarts counted so far. -/
def superviseFrom (tuning : SupervisorTuning) : Nat → List Attempt → List Event
  | _, [] => []
  | restarts, attempt :: rest =>
    let (events, outcome) := runOneLifecycle tuning.healthyReset attempt
    match outcome with
    | none => events
    | some .stopped => events
    | some (.stoppedFailed reason) => events ++ [.transition (.failed reason)]
    | some (.loadFailed m) => events ++ [.transition (.failed ("load failed: " ++ m))]
    | some (.crashed policy reason ranHealthy) =>
        let restarts := if ranHealthy then 0 else restarts
        events ++ afterCrash tuning policy reason restarts attempt.backoff fun restarts =>
          superviseFrom tuning restarts rest

def runSupervisor (tuning : SupervisorTuning) (attempts : List Attempt) : List Event :=
  superviseFrom tuning 0 attempts

end OxidHome.Lifecycle

import OxidHome.Library.Budget
import OxidHome.Lifecycle.Supervisor

/-!
# Restart discipline

The traces of the loops are described by their shape: quiet events, which a supervisor can go on
after, and what an outcome adds at the end.
-/

namespace OxidHome.Lifecycle
open Library

def Event.quiet : Event → Bool
  | .dequeued command => command ≠ .shutdown
  | .transition next => !next.isTerminal
  | _ => false

def Event.isFinal : Event → Bool
  | .dequeued command => command = .shutdown
  | .transition next => next.isTerminal
  | .loadFailed _ => true
  | .crash .onTrap (.initFailed _) => true
  | _ => false

def Event.isTerminal : Event → Bool
  | .transition next => next.isTerminal
  | _ => false

def Event.isTransition : Event → Bool
  | .transition _ => true
  | _ => false

def Event.isLoad (e : Event) : Bool := e = .loadAttempt

def Event.healthy (tuning : SupervisorTuning) : Event → Bool
  | .ranFor elapsed => elapsed ≥ tuning.healthyReset
  | _ => false

theorem Event.quiet_isFinal {e : Event} (quiet : e.quiet = true) : e.isFinal = false := by
  cases e <;> simp_all [Event.quiet, Event.isFinal]

theorem Event.quiet_costs (tuning : SupervisorTuning) {e : Event} (quiet : e.quiet = true) :
    e.isLoad = false ∧ e.healthy tuning = false := by
  cases e <;> simp_all [Event.quiet, Event.isLoad, Event.healthy]

/-! ## Shapes -/

inductive ServeShape : List Event → Option ServeOutcome → Prop where
  | serving (events : List Event) (quiet : ∀ e ∈ events, e.quiet = true) : ServeShape events none
  | closed (events : List Event) (quiet : ∀ e ∈ events, e.quiet = true) :
      ServeShape (events ++ [.transition .stopped]) (some .stopped)
  | stopped (events : List Event) (quiet : ∀ e ∈ events, e.quiet = true) :
      ServeShape (events ++ [.dequeued .shutdown, .transition .stopping, .transition .stopped])
        (some .stopped)
  | stoppedFailed (events : List Event) (quiet : ∀ e ∈ events, e.quiet = true) (reason : String) :
      ServeShape (events ++ [.dequeued .shutdown, .transition .stopping])
        (some (.stoppedFailed reason))
  | crashed (events : List Event) (quiet : ∀ e ∈ events, e.quiet = true) (reason : TrapReason) :
      ServeShape events (some (.crashed reason))

theorem ServeShape.after {events : List Event} {outcome : Option ServeOutcome}
    (shape : ServeShape events outcome) {before : List Event}
    (quiet : ∀ e ∈ before, e.quiet = true) : ServeShape (before ++ events) outcome := by
  have both : ∀ {events : List Event}, (∀ e ∈ events, e.quiet = true) →
      ∀ e ∈ before ++ events, e.quiet = true := by
    intro events more e mem
    exact (List.mem_append.mp mem).elim (quiet e) (more e)
  cases shape with
  | serving _ more => exact .serving _ (both more)
  | closed _ more =>
      rw [← List.append_assoc]
      exact .closed _ (both more)
  | stopped _ more =>
      rw [← List.append_assoc]
      exact .stopped _ (both more)
  | stoppedFailed _ more reason =>
      rw [← List.append_assoc]
      exact .stoppedFailed _ (both more) reason
  | crashed _ more reason => exact .crashed _ (both more) reason

theorem serveTurn_cases (turn : ServeTurn) :
    (∃ events, (∀ e ∈ events, e.quiet = true) ∧
      (serveTurn turn = (events, .ok .continue) ∨ serveTurn turn = (events, .ok .stop) ∨
        ∃ err, serveTurn turn = (events, .error err))) ∨
    serveTurn turn = ([.dequeued .shutdown, .transition .stopping], .ok .stop) ∨
    ∃ reason, serveTurn turn =
      ([.dequeued .shutdown, .transition .stopping], .ok (.stopFailed reason)) := by
  obtain ⟨arm, call, drain⟩ := turn
  cases arm with
  | tick =>
      refine Or.inl ⟨[], by simp, ?_⟩
      cases call <;> simp [serveTurn, Except.map]
  | wake => exact Or.inl ⟨[], by simp, Or.inl rfl⟩
  | control ctrl =>
      cases ctrl with
      | none =>
          refine Or.inl ⟨[.transition .stopping], by simp [Event.quiet, InstanceState.isTerminal], ?_⟩
          cases call <;> simp [serveTurn, handleControl, Except.map]
      | some command =>
          cases command with
          | shutdown => cases call <;> simp [serveTurn, handleControl]
          | execute =>
              refine Or.inl ⟨[.dequeued .execute], by simp [Event.quiet], ?_⟩
              cases call <;> simp [serveTurn, handleControl, Except.map]
          | executeService =>
              refine Or.inl ⟨[.dequeued .executeService], by simp [Event.quiet], ?_⟩
              cases call <;> simp [serveTurn, handleControl, Except.map]

theorem serveLoop_shape (turns : List ServeTurn) :
    ServeShape (serveLoop turns).1 (serveLoop turns).2 := by
  induction turns with
  | nil => exact .serving [] (by simp)
  | cons turn rest ih =>
      rcases serveTurn_cases turn with ⟨events, quiet, same | same | ⟨err, same⟩⟩ | same | ⟨r, same⟩
      · cases drained : turn.drain with
        | ok _ =>
            simp only [serveLoop, same, drained]
            exact ih.after quiet
        | error err =>
            simp only [serveLoop, same, drained]
            exact .crashed _ quiet _
      · simp only [serveLoop, same]
        exact .closed _ quiet
      · simp only [serveLoop, same]
        exact .crashed _ quiet _
      · simp only [serveLoop, same]
        exact .stopped [] (by simp)
      · simp only [serveLoop, same]
        exact .stoppedFailed [] (by simp) r

inductive BackoffShape : List Event → Option BackoffOutcome → Prop where
  | waiting (events : List Event) (quiet : ∀ e ∈ events, e.quiet = true) :
      BackoffShape events none
  | elapsed (events : List Event) (quiet : ∀ e ∈ events, e.quiet = true) :
      BackoffShape events (some .elapsed)
  | closed (events : List Event) (quiet : ∀ e ∈ events, e.quiet = true) :
      BackoffShape events (some .shutdown)
  | shutdown (events : List Event) (quiet : ∀ e ∈ events, e.quiet = true) :
      BackoffShape (events ++ [.dequeued .shutdown]) (some .shutdown)

theorem BackoffShape.cons {events : List Event} {outcome : Option BackoffOutcome}
    (shape : BackoffShape events outcome) {e : Event} (quiet : e.quiet = true) :
    BackoffShape (e :: events) outcome := by
  have both : ∀ {events : List Event}, (∀ e ∈ events, e.quiet = true) →
      ∀ e' ∈ e :: events, e'.quiet = true := by
    intro events more e' mem
    rcases List.mem_cons.mp mem with rfl | mem
    · exact quiet
    · exact more e' mem
  cases shape with
  | waiting _ more => exact .waiting _ (both more)
  | elapsed _ more => exact .elapsed _ (both more)
  | closed _ more => exact .closed _ (both more)
  | shutdown _ more => exact .shutdown _ (both more)

theorem backoffWait_shape (turns : List BackoffTurn) :
    BackoffShape (backoffWait turns).1 (backoffWait turns).2 := by
  induction turns with
  | nil => exact .waiting [] (by simp)
  | cons turn rest ih =>
      cases turn with
      | elapsed => exact .elapsed [] (by simp)
      | control ctrl =>
          cases ctrl with
          | none => exact .closed [] (by simp)
          | some command =>
              cases command with
              | shutdown => exact .shutdown [] (by simp)
              | execute => exact ih.cons rfl
              | executeService => exact ih.cons rfl

inductive AttemptShape (tuning : SupervisorTuning) :
    List Event → Option LifecycleOutcome → Prop where
  | serving (events : List Event) (quiet : ∀ e ∈ events, e.quiet = true) :
      AttemptShape tuning (.loadAttempt :: events) none
  | closed (events : List Event) (quiet : ∀ e ∈ events, e.quiet = true) :
      AttemptShape tuning (.loadAttempt :: (events ++ [.transition .stopped])) (some .stopped)
  | stopped (events : List Event) (quiet : ∀ e ∈ events, e.quiet = true) :
      AttemptShape tuning (.loadAttempt :: (events ++
        [.dequeued .shutdown, .transition .stopping, .transition .stopped])) (some .stopped)
  | stoppedFailed (events : List Event) (quiet : ∀ e ∈ events, e.quiet = true) (reason : String) :
      AttemptShape tuning (.loadAttempt :: (events ++
        [.dequeued .shutdown, .transition .stopping])) (some (.stoppedFailed reason))
  | loadFailed (events : List Event) (quiet : ∀ e ∈ events, e.quiet = true) (m : String) :
      AttemptShape tuning (.loadAttempt :: (events ++ [.loadFailed m])) (some (.loadFailed m))
  | unserved (events : List Event) (quiet : ∀ e ∈ events, e.quiet = true)
      (policy : RestartPolicy) (reason : TrapReason) :
      AttemptShape tuning (.loadAttempt :: (events ++ [.crash policy reason]))
        (some (.crashed policy reason false))
  | served (events : List Event) (quiet : ∀ e ∈ events, e.quiet = true)
      (policy : RestartPolicy) (reason : TrapReason) (elapsed : Nat) :
      AttemptShape tuning (.loadAttempt :: (events ++ [.ranFor elapsed, .crash policy reason]))
        (some (.crashed policy reason (decide (elapsed ≥ tuning.healthyReset))))

theorem runOneLifecycle_shape (tuning : SupervisorTuning) (attempt : Attempt) :
    AttemptShape tuning (runOneLifecycle tuning.healthyReset attempt).1
      (runOneLifecycle tuning.healthyReset attempt).2 := by
  unfold runOneLifecycle
  cases attempt.load with
  | error m => exact .loadFailed [.transition .loading] (by simp [Event.quiet, InstanceState.isTerminal]) m
  | ok policy =>
      cases attempt.init with
      | error e =>
          exact .unserved [.transition .loading]
            (by simp [Event.quiet, InstanceState.isTerminal]) policy _
      | ok _ =>
          cases attempt.drain with
          | error e =>
              exact .unserved [.transition .loading, .transition .inited]
                (by simp [Event.quiet, InstanceState.isTerminal]) policy _
          | ok _ =>
              have shape := serveLoop_shape attempt.serve
              generalize serveLoop attempt.serve = served at shape ⊢
              obtain ⟨events, outcome⟩ := served
              have running : ∀ e ∈ [Event.transition .loading, .transition .inited,
                  .transition .running], e.quiet = true := by
                simp [Event.quiet, InstanceState.isTerminal]
              have started : ∀ {quiets : List Event}, (∀ e ∈ quiets, e.quiet = true) →
                  ∀ e ∈ [Event.transition .loading, .transition .inited, .transition .running] ++
                    quiets, e.quiet = true := by
                intro quiets quiet e mem
                exact (List.mem_append.mp mem).elim (running e) (quiet e)
              cases shape with
              | serving _ quiet => exact .serving _ (started quiet)
              | closed _ quiet => exact .closed _ (started quiet)
              | stopped _ quiet => exact .stopped _ (started quiet)
              | stoppedFailed _ quiet reason => exact .stoppedFailed _ (started quiet) reason
              | crashed _ quiet reason =>
                  exact .served _ (started quiet) policy reason attempt.elapsed

/-! ## What may follow what -/

def Event.follows (a b : Event) : Prop :=
  (a.isFinal = true → b.isLoad = false) ∧ (a.isTerminal = true → b.isTransition = false)

theorem Event.isFinal_of_isTerminal {e : Event} (terminal : e.isTerminal = true) :
    e.isFinal = true := by
  cases e <;> simp_all [Event.isTerminal, Event.isFinal]

theorem pairwise_unfinished {before after : List Event}
    (unfinished : ∀ e ∈ before, e.isFinal = false) (rest : after.Pairwise Event.follows) :
    (before ++ after).Pairwise Event.follows := by
  have free : ∀ a ∈ before, ∀ b, a.follows b := by
    intro a mem b
    have none := unfinished a mem
    refine ⟨fun final => ?_, fun terminal => ?_⟩
    · rw [none] at final
      cases final
    · rw [Event.isFinal_of_isTerminal terminal] at none
      cases none
  apply List.pairwise_append.mpr
  refine ⟨List.pairwise_of_forall_mem_list fun a mem b _ => free a mem b, rest,
    fun a mem b _ => free a mem b⟩

theorem restartDecision_restart {policy : RestartPolicy} {reason : TrapReason} {done most : Nat}
    (restart : restartDecision policy reason done most = .restart) :
    done < most ∧ (Event.crash policy reason).isFinal = false := by
  cases policy <;> cases reason <;> simp_all [restartDecision, Event.isFinal]

theorem afterCrash_cases (tuning : SupervisorTuning) (policy : RestartPolicy)
    (reason : TrapReason) (restarts : Nat) (backoff : List BackoffTurn)
    (again : Nat → List Event) :
    (∃ error, afterCrash tuning policy reason restarts backoff again =
      [.transition (.failed error)]) ∨
    restartDecision policy reason restarts tuning.maxRestarts = .restart ∧
      ∃ quiets last, (∀ e ∈ quiets, e.quiet = true) ∧
        afterCrash tuning policy reason restarts backoff again = quiets ++ last ∧
        (last = [] ∨ last = [.transition .stopped] ∨
          last = [.dequeued .shutdown, .transition .stopped] ∨ last = again (restarts + 1)) := by
  unfold afterCrash
  cases restartDecision policy reason restarts tuning.maxRestarts with
  | giveUp => exact Or.inl ⟨_, rfl⟩
  | restart =>
      refine Or.inr ⟨rfl, ?_⟩
      have shape := backoffWait_shape backoff
      generalize backoffWait backoff = waited at shape ⊢
      obtain ⟨events, outcome⟩ := waited
      have noted : ∀ e ∈ [Event.transition (.crashed reason.display restarts),
          .transition (.restarting (restarts + 1))], e.quiet = true := by
        simp [Event.quiet, InstanceState.isTerminal]
      have crashed : ∀ {quiets : List Event}, (∀ e ∈ quiets, e.quiet = true) →
          ∀ e ∈ [Event.transition (.crashed reason.display restarts),
            .transition (.restarting (restarts + 1))] ++ quiets, e.quiet = true := by
        intro quiets quiet e mem
        exact (List.mem_append.mp mem).elim (noted e) (quiet e)
      cases shape with
      | waiting _ quiet => exact ⟨_, [], crashed quiet, (List.append_nil _).symm, Or.inl rfl⟩
      | elapsed _ quiet =>
          exact ⟨_, again (restarts + 1), crashed quiet, rfl, Or.inr (Or.inr (Or.inr rfl))⟩
      | closed _ quiet => exact ⟨_, [_], crashed quiet, rfl, Or.inr (Or.inl rfl)⟩
      | shutdown quiets quiet =>
          refine ⟨_, [_, _], crashed quiet, ?_, Or.inr (Or.inr (Or.inl rfl))⟩
          simp

theorem afterCrash_pairwise (tuning : SupervisorTuning) (policy : RestartPolicy)
    (reason : TrapReason) (restarts : Nat) (backoff : List BackoffTurn) {again : Nat → List Event}
    (later : ∀ n, (again n).Pairwise Event.follows) :
    (.crash policy reason :: afterCrash tuning policy reason restarts backoff again).Pairwise
      Event.follows := by
  rcases afterCrash_cases tuning policy reason restarts backoff again with
    ⟨error, same⟩ | ⟨decision, quiets, last, quiet, same, ends⟩
  · rw [same]
    simp [Event.follows, Event.isLoad, Event.isTerminal]
  · rw [same, ← List.cons_append]
    apply pairwise_unfinished
    · intro e mem
      rcases List.mem_cons.mp mem with rfl | mem
      · exact (restartDecision_restart decision).2
      · exact Event.quiet_isFinal (quiet e mem)
    · rcases ends with rfl | rfl | rfl | rfl
      · exact List.Pairwise.nil
      · exact List.pairwise_singleton _ _
      · simp [Event.follows, Event.isLoad, Event.isTerminal]
      · exact later _

theorem superviseFrom_pairwise (tuning : SupervisorTuning) (restarts : Nat)
    (attempts : List Attempt) : (superviseFrom tuning restarts attempts).Pairwise Event.follows := by
  induction attempts generalizing restarts with
  | nil => exact List.Pairwise.nil
  | cons attempt rest ih =>
      have begun : ∀ {events : List Event}, (∀ e ∈ events, e.quiet = true) →
          ∀ e ∈ Event.loadAttempt :: events, e.isFinal = false := by
        intro events quiet e mem
        rcases List.mem_cons.mp mem with rfl | mem
        · rfl
        · exact Event.quiet_isFinal (quiet e mem)
      have shape := runOneLifecycle_shape tuning attempt
      unfold superviseFrom
      generalize runOneLifecycle tuning.healthyReset attempt = ran at shape ⊢
      obtain ⟨events, outcome⟩ := ran
      cases shape with
      | serving quiets quiet => simpa using pairwise_unfinished (begun quiet) List.Pairwise.nil
      | closed quiets quiet =>
          exact pairwise_unfinished (begun quiet) (by simp)
      | stopped quiets quiet =>
          exact pairwise_unfinished (begun quiet) (by
            simp [Event.follows, Event.isFinal, Event.isTerminal, Event.isLoad,
              InstanceState.isTerminal])
      | stoppedFailed quiets quiet reason =>
          simp only [List.cons_append, List.append_assoc]
          exact pairwise_unfinished (begun quiet) (by
            simp [Event.follows, Event.isFinal, Event.isTerminal, Event.isLoad,
              InstanceState.isTerminal])
      | loadFailed quiets quiet m =>
          simp only [List.cons_append, List.append_assoc]
          exact pairwise_unfinished (begun quiet) (by
            simp [Event.follows, Event.isFinal, Event.isTerminal, Event.isLoad])
      | unserved quiets quiet policy reason =>
          simp only [List.cons_append, List.append_assoc]
          exact pairwise_unfinished (begun quiet)
            (afterCrash_pairwise tuning policy reason _ attempt.backoff fun n => ih n)
      | served quiets quiet policy reason elapsed =>
          simp only [List.cons_append, List.append_assoc]
          apply pairwise_unfinished (begun quiet)
          have ran : ∀ e ∈ [Event.ranFor elapsed], e.isFinal = false := by simp [Event.isFinal]
          exact pairwise_unfinished ran
            (afterCrash_pairwise tuning policy reason _ attempt.backoff fun n => ih n)

/-! ## The restart budget -/

abbrev WithinRestarts (tuning : SupervisorTuning) (restarts : Nat) (trace : List Event) : Prop :=
  WithinBudget Event.isLoad (Event.healthy tuning) tuning.maxRestarts restarts trace

theorem quiet_within {tuning : SupervisorTuning} {restarts : Nat} {events : List Event}
    (start : restarts ≤ tuning.maxRestarts)
    (free : ∀ e ∈ events, e.isLoad = false ∧ e.healthy tuning = false) :
    WithinRestarts tuning restarts events :=
  withinBudget_quiet start free

theorem within_after {tuning : SupervisorTuning} {restarts : Nat} {events rest : List Event}
    (start : restarts ≤ tuning.maxRestarts)
    (free : ∀ e ∈ events, e.isLoad = false ∧ e.healthy tuning = false)
    (later : WithinRestarts tuning restarts rest) :
    WithinRestarts tuning restarts (events ++ rest) := by
  apply withinBudget_append (quiet_within start free)
  rw [spent_quiet free]
  exact later

theorem afterCrash_within (tuning : SupervisorTuning) (policy : RestartPolicy)
    (reason : TrapReason) (restarts : Nat) (backoff : List BackoffTurn) {again : Nat → List Event}
    (start : restarts ≤ tuning.maxRestarts)
    (later : ∀ n ≤ tuning.maxRestarts, again n = [] ∨
      ∃ rest, again n = .loadAttempt :: rest ∧ WithinRestarts tuning n rest) :
    WithinRestarts tuning restarts (afterCrash tuning policy reason restarts backoff again) := by
  rcases afterCrash_cases tuning policy reason restarts backoff again with
    ⟨error, same⟩ | ⟨decision, quiets, last, quiet, same, ends⟩
  · rw [same]
    exact quiet_within start (by simp [Event.isLoad, Event.healthy])
  · rw [same]
    apply within_after start (fun e mem => Event.quiet_costs tuning (quiet e mem))
    rcases ends with rfl | rfl | rfl | rfl
    · exact withinBudget_nil start
    · exact quiet_within start (by simp [Event.isLoad, Event.healthy])
    · exact quiet_within start (by simp [Event.isLoad, Event.healthy])
    · have room := (restartDecision_restart decision).1
      rcases later (restarts + 1) room with none | ⟨rest, next, within⟩
      · rw [none]
        exact withinBudget_nil start
      · rw [next]
        exact withinBudget_cons start within

theorem superviseFrom_within (tuning : SupervisorTuning) (attempts : List Attempt) :
    ∀ restarts ≤ tuning.maxRestarts, superviseFrom tuning restarts attempts = [] ∨
      ∃ rest, superviseFrom tuning restarts attempts = .loadAttempt :: rest ∧
        WithinRestarts tuning restarts rest := by
  induction attempts with
  | nil => exact fun _ _ => Or.inl rfl
  | cons attempt rest ih =>
      intro restarts start
      have shape := runOneLifecycle_shape tuning attempt
      unfold superviseFrom
      generalize runOneLifecycle tuning.healthyReset attempt = ran at shape ⊢
      obtain ⟨events, outcome⟩ := ran
      have quiets_free : ∀ {quiets : List Event}, (∀ e ∈ quiets, e.quiet = true) →
          ∀ e ∈ quiets, e.isLoad = false ∧ e.healthy tuning = false :=
        fun quiet e mem => Event.quiet_costs tuning (quiet e mem)
      have crash_free : ∀ policy reason, ∀ e ∈ [Event.crash policy reason],
          e.isLoad = false ∧ e.healthy tuning = false := by
        simp [Event.isLoad, Event.healthy]
      right
      cases shape with
      | serving quiets quiet => exact ⟨_, rfl, quiet_within start (quiets_free quiet)⟩
      | closed quiets quiet =>
          refine ⟨_, rfl, within_after start (quiets_free quiet) (quiet_within start ?_)⟩
          simp [Event.isLoad, Event.healthy]
      | stopped quiets quiet =>
          refine ⟨_, rfl, within_after start (quiets_free quiet) (quiet_within start ?_)⟩
          simp [Event.isLoad, Event.healthy]
      | stoppedFailed quiets quiet reason =>
          simp only [List.cons_append, List.append_assoc]
          refine ⟨_, rfl, within_after start (quiets_free quiet) (quiet_within start ?_)⟩
          simp [Event.isLoad, Event.healthy]
      | loadFailed quiets quiet m =>
          simp only [List.cons_append, List.append_assoc]
          refine ⟨_, rfl, within_after start (quiets_free quiet) (quiet_within start ?_)⟩
          simp [Event.isLoad, Event.healthy]
      | unserved quiets quiet policy reason =>
          simp only [List.cons_append, List.append_assoc]
          refine ⟨_, rfl, within_after start (quiets_free quiet) ?_⟩
          apply within_after start (crash_free policy reason)
          exact afterCrash_within tuning policy reason restarts attempt.backoff start ih
      | served quiets quiet policy reason elapsed =>
          simp only [List.cons_append, List.append_assoc]
          refine ⟨_, rfl, within_after start (quiets_free quiet) ?_⟩
          have counted : (if decide (elapsed ≥ tuning.healthyReset) = true then 0 else restarts) ≤
              tuning.maxRestarts := by
            split
            · exact Nat.zero_le _
            · exact start
          apply withinBudget_cons start
          exact within_after counted (crash_free policy reason)
            (afterCrash_within tuning policy reason _ attempt.backoff counted ih)

/-! ## The discipline -/

structure RestartDiscipline (tuning : SupervisorTuning) (trace : List Event) : Prop where
  shutdown : trace.Pairwise fun a b => a = .dequeued .shutdown → b ≠ .loadAttempt
  terminal : trace.Pairwise fun a b => ∀ state, a = .transition state → state.isTerminal = true →
    b ≠ .loadAttempt ∧ ∀ next, b ≠ .transition next
  loadFailed : trace.Pairwise fun a b => ∀ m, a = .loadFailed m → b ≠ .loadAttempt
  initFailed : trace.Pairwise fun a b => ∀ m, a = .crash .onTrap (.initFailed m) →
    b ≠ .loadAttempt
  restarts : ∀ before segment after, trace = before ++ segment ++ after → before ≠ [] →
    (∀ elapsed, .ranFor elapsed ∈ segment → elapsed < tuning.healthyReset) →
    segment.countP (· = .loadAttempt) ≤ tuning.maxRestarts

theorem restart_discipline (tuning : SupervisorTuning) (attempts : List Attempt) :
    RestartDiscipline tuning (runSupervisor tuning attempts) := by
  have pairwise := superviseFrom_pairwise tuning 0 attempts
  have last : ∀ {a b : Event}, a.follows b → a.isFinal = true → b ≠ .loadAttempt := by
    intro a b follows final load
    have := follows.1 final
    simp [Event.isLoad, load] at this
  constructor
  case shutdown =>
    apply pairwise.imp
    intro a b follows here
    exact last follows (here ▸ rfl)
  case terminal =>
    apply pairwise.imp
    intro a b follows state here terminal
    subst here
    refine ⟨last follows terminal, fun next same => ?_⟩
    have := follows.2 terminal
    simp [Event.isTransition, same] at this
  case loadFailed =>
    apply pairwise.imp
    intro a b follows m here
    exact last follows (here ▸ rfl)
  case initFailed =>
    apply pairwise.imp
    intro a b follows m here
    exact last follows (here ▸ rfl)
  case restarts =>
    intro before segment after split begun short
    have kept : ∀ e ∈ segment, e.healthy tuning = false := by
      intro e mem
      cases e with
      | ranFor elapsed => simpa [Event.healthy] using short elapsed mem
      | _ => rfl
    rcases superviseFrom_within tuning attempts 0 (Nat.zero_le _) with none | ⟨rest, first, within⟩
    · rw [runSupervisor, none] at split
      have := (List.append_eq_nil_iff.mp split.symm).1
      exact absurd (List.append_eq_nil_iff.mp this).1 begun
    · rw [runSupervisor, first] at split
      cases before with
      | nil => exact absurd rfl begun
      | cons e before =>
          obtain ⟨rfl, rfl⟩ := List.cons.inj split
          exact within.segment kept

end OxidHome.Lifecycle

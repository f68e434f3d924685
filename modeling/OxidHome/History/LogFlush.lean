import OxidHome.History.LogStore

/-!
# Flushes of the log store

The sum of the counters vouches for the events before a snapshot as long as no later event is
counted ahead of one of them.
-/

namespace OxidHome.History
open Library

namespace LogStore

def isCounted (event : LoggedEvent) : Bool := event.phase = .counted

def processedSum (s : LogStore) : Nat := s.written + s.writeErrors + s.dropped

def LoadedWithin (s : LogStore) (call : FlushCall) : Prop :=
  match call.stage with
  | .loadWriteErrors => call.processed ≤ s.written
  | .loadDropped => call.processed ≤ s.written + s.writeErrors
  | .compare => call.processed ≤ s.processedSum
  | _ => True

/-- A pending call that waits for an event has seen none counted from its target on. -/
def InOrder (s : LogStore) (call : FlushCall) : Prop :=
  call.stage.pending = true → (∃ m < call.target, ¬ s.Ended m) →
    ∀ n event, s.events[n]? = some event → isCounted event = true → n < call.target

structure Sound (s : LogStore) : Prop where
  sent : s.sent = s.events.length
  counted : s.processedSum = s.events.countP isCounted
  targets : ∀ call ∈ s.calls, call.target ≤ s.sent
  reads : ∀ call ∈ s.calls, s.LoadedWithin call
  ordered : ∀ call ∈ s.calls, s.InOrder call
  exact : s.Exact

structure Advanced (s t : LogStore) (n : Nat) (event : LoggedEvent) (phase : EventPhase) : Prop where
  found : s.events[n]? = some event
  forward : event.phase.ended = true → phase.ended = true
  events : t.events = s.events.set n { event with phase := phase }
  calls : t.calls = s.calls
  sent : t.sent = s.sent
  written : s.written ≤ t.written
  writeErrors : s.writeErrors ≤ t.writeErrors
  dropped : s.dropped ≤ t.dropped
  uncounted : isCounted event = false
  sum : t.processedSum = s.processedSum + if phase = .counted then 1 else 0
  rows : ∀ row ∈ t.rows, row ∈ s.rows ∨ row.1 = n ∧ event.phase.ended = false
  timely : phase = .counted → ¬ s.Late n

variable {s t : LogStore} {n : Nat} {event : LoggedEvent} {phase : EventPhase}

theorem Advanced.ended (moved : Advanced s t n event phase) {m : Nat} (ended : s.Ended m) :
    t.Ended m := by
  obtain ⟨e, row, done⟩ := ended
  unfold Ended
  rw [moved.events]
  by_cases same : n = m
  · subst same
    obtain rfl : event = e := Option.some.inj (moved.found.symm.trans row)
    exact ⟨_, (row_set moved.found).mpr (.inl ⟨rfl, rfl⟩), moved.forward done⟩
  · exact ⟨e, (row_set moved.found).mpr (.inr ⟨same, row⟩), done⟩

theorem Advanced.inOrder (moved : Advanced s t n event phase) {call : FlushCall}
    (mem : call ∈ s.calls) (ordered : s.InOrder call) : t.InOrder call := by
  intro pending ⟨m, below, waiting⟩ i e row marked
  have waits : ¬ s.Ended m := fun ended => waiting (moved.ended ended)
  rw [moved.events] at row
  rcases (row_set moved.found).mp row with ⟨rfl, rfl⟩ | ⟨-, row⟩
  · have now : phase = .counted := by simpa [isCounted] using marked
    by_contra late
    exact moved.timely now ⟨call, mem, pending, Nat.not_lt.mp late, m, below, waits⟩
  · exact ordered pending ⟨m, below, waits⟩ i e row marked

theorem Advanced.reads (moved : Advanced s t n event phase) {call : FlushCall}
    (reads : s.LoadedWithin call) : t.LoadedWithin call := by
  have written := moved.written
  have writeErrors := moved.writeErrors
  have dropped := moved.dropped
  unfold LoadedWithin at reads ⊢
  cases stage : call.stage <;> simp only [stage, processedSum] at reads ⊢ <;> omega

theorem Advanced.sound (moved : Advanced s t n event phase) (sound : s.Sound) : t.Sound := by
  constructor
  case sent => rw [moved.sent, moved.events, List.length_set]; exact sound.sent
  case counted =>
    have marks := countP_row_set (a := { event with phase := phase }) isCounted moved.found
    rw [moved.uncounted] at marks
    rw [moved.sum, moved.events, sound.counted]
    by_cases now : phase = .counted
    · simpa [isCounted, now] using marks.symm
    · simpa [isCounted, now] using marks.symm
  case targets => rw [moved.calls, moved.sent]; exact sound.targets
  case reads =>
    rw [moved.calls]
    exact fun call mem => moved.reads (sound.reads call mem)
  case ordered =>
    rw [moved.calls]
    exact fun call mem => moved.inOrder mem (sound.ordered call mem)
  case exact =>
    constructor
    · rw [moved.calls]
      intro call mem done m below
      exact moved.ended (sound.exact.flushed call mem done m below)
    · rw [moved.calls]
      intro call mem done cutoff trim row present below
      rcases moved.rows row present with old | ⟨named, open'⟩
      · exact sound.exact.trimmed call mem done cutoff trim row old below
      · -- A row can only come from an event that had not ended.
        obtain ⟨e, at_n, ended⟩ := sound.exact.flushed call mem (.inr done) row.1 below
        rw [named, moved.found] at at_n
        cases at_n
        rw [open'] at ended
        cases ended

theorem observe_sound (sound : s.Sound) (record : LogRecord) :
    Sound { s with sent := s.sent + 1, events := s.events ++ [⟨record, .observed⟩] } := by
  have grown : ∀ m, s.Ended m → Ended { s with
      sent := s.sent + 1, events := s.events ++ [⟨record, .observed⟩] } m := by
    intro m ⟨e, row, done⟩
    exact ⟨e, row_concat.mpr (.inl row), done⟩
  constructor
  case sent => simp [sound.sent]
  case counted =>
    have sum := sound.counted
    simpa [processedSum, isCounted, List.countP_append] using sum
  case targets => exact fun call mem => (sound.targets call mem).trans (Nat.le_succ _)
  case reads => exact sound.reads
  case ordered =>
    intro call mem pending ⟨m, below, waiting⟩ i e row marked
    rcases row_concat.mp row with old | ⟨rfl, rfl⟩
    · exact sound.ordered call mem pending ⟨m, below, fun ended => waiting (grown m ended)⟩
        i e old marked
    · cases marked
  case exact =>
    constructor
    · exact fun call mem done m below => grown m (sound.exact.flushed call mem done m below)
    · exact sound.exact.trimmed

theorem call_sound (sound : s.Sound) (cutoff : Option Int) :
    Sound { s with calls := s.calls ++ [⟨cutoff, s.sent, 0, .loadWritten⟩] } := by
  constructor
  case sent => exact sound.sent
  case counted => exact sound.counted
  case targets =>
    intro call mem
    rcases List.mem_append.mp mem with old | new
    · exact sound.targets call old
    · cases List.mem_singleton.mp new
      exact le_rfl
  case reads =>
    intro call mem
    rcases List.mem_append.mp mem with old | new
    · exact sound.reads call old
    · cases List.mem_singleton.mp new
      trivial
  case ordered =>
    intro call mem
    rcases List.mem_append.mp mem with old | new
    · exact sound.ordered call old
    · cases List.mem_singleton.mp new
      intro _ _ i e row _
      show i < s.sent
      rw [sound.sent]
      exact row_lt row
  case exact =>
    constructor
    · intro call mem done
      rcases List.mem_append.mp mem with old | new
      · exact sound.exact.flushed call old done
      · cases List.mem_singleton.mp new
        rcases done with done | done <;> cases done
    · intro call mem done
      rcases List.mem_append.mp mem with old | new
      · exact sound.exact.trimmed call old done
      · cases List.mem_singleton.mp new
        cases done

theorem set_call_sound (sound : s.Sound) {c : Nat} {before after : FlushCall}
    (rows : List (Nat × LogRecord)) (found : s.calls[c]? = some before)
    (target : after.target = before.target) (reads : s.LoadedWithin after)
    (pending : after.stage.pending = true → before.stage.pending = true)
    (flushed : after.stage = .returned true ∨ after.stage = .deleted true →
      ∀ n < after.target, s.Ended n)
    (kept : ∀ row ∈ rows, row ∈ s.rows)
    (trimmed : after.stage = .deleted true → ∀ cutoff, after.cutoff = some cutoff →
      ∀ row ∈ rows, row.1 < after.target → cutoff ≤ row.2.tsUnixMs) :
    Sound { s with rows := rows, calls := s.calls.set c after } := by
  have present := List.mem_of_getElem? found
  constructor
  case sent => exact sound.sent
  case counted => exact sound.counted
  case targets =>
    intro call mem
    rcases mem_set found mem with rfl | old
    · rw [target]
      exact sound.targets before present
    · exact sound.targets call old
  case reads =>
    intro call mem
    rcases mem_set found mem with rfl | old
    · exact reads
    · exact sound.reads call old
  case ordered =>
    intro call mem
    rcases mem_set found mem with rfl | old
    · intro still
      rw [target]
      exact sound.ordered before present (pending still)
    · exact sound.ordered call old
  case exact =>
    constructor
    · intro call mem done
      rcases mem_set found mem with rfl | old
      · exact flushed done
      · exact sound.exact.flushed call old done
    · intro call mem done cutoff trim row left below
      rcases mem_set found mem with rfl | old
      · exact trimmed done cutoff trim row left below
      · exact sound.exact.trimmed call old done cutoff trim row (kept row left) below

theorem drained (sound : s.Sound) {call : FlushCall} (mem : call ∈ s.calls)
    (stage : call.stage = .compare) (reached : call.processed ≥ call.target) :
    ∀ n < call.target, s.Ended n := by
  intro n below
  by_contra waiting
  have sum : call.processed ≤ s.processedSum := by
    simpa [LoadedWithin, stage] using sound.reads call mem
  have known : n < s.events.length := by
    rw [← sound.sent]
    exact below.trans_le (sound.targets call mem)
  obtain ⟨event, found⟩ : ∃ event, s.events[n]? = some event :=
    ⟨_, List.getElem?_eq_getElem known⟩
  have unmarked : isCounted event = false := by
    by_contra marked
    apply waiting
    refine ⟨event, found, ?_⟩
    have phase : event.phase = .counted := by simpa [isCounted] using marked
    rw [phase]
    rfl
  have early := sound.ordered call mem (by rw [stage]; rfl) ⟨n, below, waiting⟩
  have few : s.events.countP isCounted < call.target :=
    countP_lt_bound early found below unmarked
  have total := sound.counted
  omega

theorem advance_uncounted (queue : List Nat) (writer : Option Nat) (rows : List (Nat × LogRecord))
    (found : s.events[n]? = some event) (uncounted : isCounted event = false)
    (forward : event.phase.ended = true → phase.ended = true) (onItsWay : phase ≠ .counted)
    (kept : ∀ row ∈ rows, row ∈ s.rows ∨ row.1 = n ∧ event.phase.ended = false) :
    Advanced s { s.advance n event phase with queue := queue, writer := writer, rows := rows }
      n event phase where
  found := found
  forward := forward
  events := rfl
  calls := rfl
  sent := rfl
  written := le_rfl
  writeErrors := le_rfl
  dropped := le_rfl
  uncounted := uncounted
  sum := by rw [if_neg onItsWay]; rfl
  rows := kept
  timely := fun counted => absurd counted onItsWay

theorem advance_counted (writer : Option Nat) {written writeErrors dropped : Nat}
    (found : s.events[n]? = some event) (uncounted : isCounted event = false)
    (timely : ¬ s.Late n) (more : s.written ≤ written) (moreErrors : s.writeErrors ≤ writeErrors)
    (moreDropped : s.dropped ≤ dropped)
    (sum : written + writeErrors + dropped = s.processedSum + 1) :
    Advanced s { s.advance n event .counted with
      written := written, writeErrors := writeErrors, dropped := dropped, writer := writer }
      n event .counted where
  found := found
  forward := fun _ => rfl
  events := rfl
  calls := rfl
  sent := rfl
  written := more
  writeErrors := moreErrors
  dropped := moreDropped
  uncounted := uncounted
  sum := sum
  rows := fun _ mem => .inl mem
  timely := fun _ => timely

theorem load_sound (sound : s.Sound) {c : Nat} {before after : FlushCall}
    (found : s.calls[c]? = some before) (moved : s.loaded before = some after) :
    Sound { s with calls := s.calls.set c after } := by
  have reads := sound.reads before (List.mem_of_getElem? found)
  unfold LoadedWithin at reads
  cases stage : before.stage <;> simp only [loaded, stage] at moved reads
  case loadWritten =>
    cases moved
    exact set_call_sound sound s.rows found rfl le_rfl (by simp [stage, FlushStage.pending])
      (by simp) (fun _ mem => mem) (by simp)
  case loadWriteErrors =>
    cases moved
    exact set_call_sound sound s.rows found rfl (Nat.add_le_add_right reads _)
      (by simp [stage, FlushStage.pending]) (by simp) (fun _ mem => mem) (by simp)
  case loadDropped =>
    cases moved
    exact set_call_sound sound s.rows found rfl (Nat.add_le_add_right reads _)
      (by simp [stage, FlushStage.pending]) (by simp) (fun _ mem => mem) (by simp)
  all_goals cases moved

theorem compare_sound (sound : s.Sound) {c : Nat} {before after : FlushCall} {timedOut : Bool}
    (found : s.calls[c]? = some before) (moved : compared before timedOut = some after) :
    Sound { s with calls := s.calls.set c after } := by
  have mem := List.mem_of_getElem? found
  cases stage : before.stage <;> simp only [compared, stage] at moved
  case compare =>
    split at moved
    case isTrue reached =>
      cases moved
      have all := drained sound mem stage reached
      exact set_call_sound sound s.rows found rfl trivial (by simp [FlushStage.pending])
        (fun _ => all) (fun _ mem => mem) (by simp)
    case isFalse =>
      split at moved
      · cases moved
        exact set_call_sound sound s.rows found rfl trivial (by simp [FlushStage.pending])
          (by simp) (fun _ mem => mem) (by simp)
      · cases moved
        exact set_call_sound sound s.rows found rfl trivial
          (by simp [stage, FlushStage.pending]) (by simp) (fun _ mem => mem) (by simp)
  all_goals cases moved

theorem delete_sound (sound : s.Sound) {c target processed : Nat} {cutoff : Int} {drained : Bool}
    (found : s.calls[c]? = some ⟨some cutoff, target, processed, .returned drained⟩) :
    Sound { s with
      rows := s.rows.filter (cutoff ≤ ·.2.tsUnixMs)
      calls := s.calls.set c ⟨some cutoff, target, processed, .deleted drained⟩ } := by
  have mem := List.mem_of_getElem? found
  refine set_call_sound sound _ found rfl trivial (by simp [FlushStage.pending]) ?flushed
    (fun row left => (List.mem_filter.mp left).1) ?trimmed
  case flushed =>
    intro done
    have answered : drained = true := by simpa using done
    have all := sound.exact.flushed _ mem (.inl (congrArg FlushStage.returned answered))
    exact all
  case trimmed =>
    intro _ bound same row left _
    cases same
    simpa using (List.mem_filter.mp left).2

theorem step_sound {action : LoggingAction} (sound : s.Sound) (clear : ¬ s.Overtakes action)
    (taken : s.step action = some t) : t.Sound := by
  cases action with
  | observe record =>
      cases taken
      exact observe_sound sound record
  | trySend n =>
      simp only [step] at taken
      split at taken
      case h_1 record found =>
        split at taken
        · cases taken
          have moved : Advanced s _ n ⟨record, .observed⟩ .queued :=
            advance_uncounted (s.queue ++ [n]) s.writer s.rows found rfl id (by simp) fun _ mem => .inl mem
          exact moved.sound sound
        · cases taken
          have moved : Advanced s _ n ⟨record, .observed⟩ .refused :=
            advance_uncounted s.queue s.writer s.rows found rfl (fun _ => rfl) (by simp) fun _ mem => .inl mem
          exact moved.sound sound
      case h_2 => cases taken
  | countDropped n =>
      simp only [step] at taken
      split at taken
      case h_1 record found =>
        cases taken
        have moved : Advanced s _ n ⟨record, .refused⟩ .counted :=
          advance_counted s.writer found rfl clear le_rfl le_rfl (Nat.le_succ _) rfl
        exact moved.sound sound
      case h_2 => cases taken
  | recv =>
      simp only [step] at taken
      split at taken
      case h_1 n rest _ _ =>
        split at taken
        case h_1 record found =>
          cases taken
          have moved : Advanced s _ n ⟨record, .queued⟩ .received :=
            advance_uncounted rest (some n) s.rows found rfl id (by simp) fun _ mem => .inl mem
          exact moved.sound sound
        case h_2 => cases taken
      case h_2 => cases taken
  | write ok =>
      simp only [step] at taken
      split at taken
      case h_1 => cases taken
      case h_2 n _ =>
        split at taken
        case h_1 record found =>
          split at taken
          · cases taken
            have moved : Advanced s _ n ⟨record, .received⟩ .committed :=
              advance_uncounted s.queue s.writer (s.rows ++ [(n, record)]) found rfl (fun _ => rfl) (by simp) fun row mem => by
                rcases List.mem_append.mp mem with old | new
                · exact .inl old
                · rw [List.mem_singleton.mp new]
                  exact .inr ⟨rfl, rfl⟩
            exact moved.sound sound
          · cases taken
            have moved : Advanced s _ n ⟨record, .received⟩ .failed :=
              advance_uncounted s.queue s.writer s.rows found rfl (fun _ => rfl) (by simp) fun _ mem => .inl mem
            exact moved.sound sound
        case h_2 => cases taken
  | countWrite =>
      simp only [step] at taken
      split at taken
      case h_1 => cases taken
      case h_2 n held =>
        have timely : ¬ s.Late n := fun late => clear ⟨n, held, late⟩
        split at taken
        case h_1 record found =>
          cases taken
          have moved : Advanced s _ n ⟨record, .committed⟩ .counted :=
            advance_counted none found rfl timely (Nat.le_succ _) le_rfl le_rfl
              (by unfold processedSum; omega)
          exact moved.sound sound
        case h_2 record found =>
          cases taken
          have moved : Advanced s _ n ⟨record, .failed⟩ .counted :=
            advance_counted none found rfl timely le_rfl (Nat.le_succ _) le_rfl
              (by unfold processedSum; omega)
          exact moved.sound sound
        case h_3 => cases taken
  | call cutoff =>
      cases taken
      exact call_sound sound cutoff
  | load c =>
      obtain ⟨after, moved, rfl⟩ := Option.map_eq_some_iff.mp taken
      obtain ⟨before, found, moved⟩ := Option.bind_eq_some_iff.mp moved
      exact load_sound sound found moved
  | compare c timedOut =>
      obtain ⟨after, moved, rfl⟩ := Option.map_eq_some_iff.mp taken
      obtain ⟨before, found, moved⟩ := Option.bind_eq_some_iff.mp moved
      exact compare_sound sound found moved
  | delete c =>
      simp only [step] at taken
      split at taken
      case h_1 cutoff target processed drained found =>
        cases taken
        exact delete_sound sound found
      case h_2 => cases taken

theorem new_sound (capacity : Nat) : (new capacity).Sound where
  sent := rfl
  counted := rfl
  targets := by simp [new]
  reads := by simp [new]
  ordered := by simp [new]
  exact := ⟨by simp [new], by simp [new]⟩

theorem flush_exact {capacity : Nat} {actions : List LoggingAction}
    (clear : ∀ before action, before ++ [action] <+: actions →
      ∀ s, exec step (new capacity) before = some s → ¬ s.Overtakes action)
    {before : List LoggingAction} (within : before <+: actions) {s : LogStore}
    (run : exec step (new capacity) before = some s) : s.Exact := by
  have sound : s.Sound := exec_spared (fun _ _ _ sound clear taken => step_sound sound clear taken)
    (new_sound capacity) (spared_iff.mpr clear) within run
  exact sound.exact

def recordAt (ts : Int) : LogRecord := ⟨ts, 2, none, none, none, "host", none, "", []⟩

def orderly : List LoggingAction :=
  [.observe (recordAt 0), .trySend 0, .call (some 10), .recv, .write true, .countWrite, .load 0,
    .load 0, .load 0, .compare 0 false, .delete 0]

theorem flush_exact_orderly : ∃ s, exec step (new 1) orderly = some s ∧
    s.calls.map FlushCall.stage = [.deleted true] ∧ s.Exact := by
  obtain ⟨s, run, stages⟩ : ∃ s, exec step (new 1) orderly = some s ∧
      s.calls.map FlushCall.stage = [.deleted true] := ⟨_, rfl, rfl⟩
  refine ⟨s, run, stages, flush_exact (spared_iff.mp ?_) (List.prefix_refl _) run⟩
  -- Only `countWrite` could be at fault, and its event came before the snapshot.
  iterate 5
    refine ⟨id, ?_⟩
    rintro _ ⟨⟩
  constructor
  · rintro ⟨n, held, call, mem, -, late, -⟩
    cases held
    cases List.mem_singleton.mp mem
    exact absurd late (by decide)
  rintro _ ⟨⟩
  iterate 5
    refine ⟨id, ?_⟩
    rintro _ ⟨⟩
  trivial

def overtaken : List LoggingAction :=
  [.observe (recordAt 0), .trySend 0, .call (some 10), .observe (recordAt 20), .trySend 1,
    .countDropped 1, .load 0, .load 0, .load 0, .compare 0 false, .delete 0, .recv, .write true]

theorem drop_overtakes : ¬ ∀ capacity actions s, 0 < capacity →
    exec step (new capacity) actions = some s → s.Exact := by
  intro exact
  obtain ⟨s, run, calls, rows⟩ : ∃ s, exec step (new 1) overtaken = some s ∧
      s.calls = [⟨some 10, 1, 1, .deleted true⟩] ∧ s.rows = [(0, recordAt 0)] :=
    ⟨_, rfl, rfl, rfl⟩
  have kept := (exact 1 overtaken s (by decide) run).trimmed _ (by rw [calls]; exact .head _)
    rfl 10 rfl (0, recordAt 0) (by rw [rows]; exact .head _) (by decide)
  exact absurd kept (by decide)

end LogStore
end OxidHome.History

import OxidHome.Library.Machine
import OxidHome.Library.Tables

/-!
# The log store

`SqliteLayer::on_event`, `writer_loop`, `LogStore::flush` and `LogStore::trim_older_than` of
`state/log_store.rs` as steps of the threads they run on. An event is numbered by its increment of
`sent`. The channel has room for at least one record.
-/

namespace OxidHome.History
open Library

structure LogRecord where
  tsUnixMs : Int
  level : Int
  instanceId : Option String
  pluginId : Option String
  deviceId : Option String
  target : String
  spanPath : Option String
  message : String
  fieldsBlob : List UInt8

/-- How far an event got. `refused` is `TrySendError` before the increment of `dropped`. -/
inductive EventPhase where
  | observed
  | queued
  | received
  | committed
  | failed
  | refused
  | counted
  deriving DecidableEq

def EventPhase.ended : EventPhase → Bool
  | .observed | .queued | .received => false
  | .committed | .failed | .refused | .counted => true

structure LoggedEvent where
  record : LogRecord
  phase : EventPhase

/-- Where a call of `flush` is: the three loads of one turn, its comparison, or the answer it
returned. `deleted` is a trim after its `DELETE`. -/
inductive FlushStage where
  | loadWritten
  | loadWriteErrors
  | loadDropped
  | compare
  | returned (drained : Bool)
  | deleted (drained : Bool)
  deriving DecidableEq

def FlushStage.pending : FlushStage → Bool
  | .loadWritten | .loadWriteErrors | .loadDropped | .compare => true
  | .returned _ | .deleted _ => false

/-- A call of `flush`; `cutoff` when `trim_older_than` made it. -/
structure FlushCall where
  cutoff : Option Int
  target : Nat
  processed : Nat
  stage : FlushStage

structure LogStore where
  capacity : Nat
  sent : Nat
  written : Nat
  writeErrors : Nat
  dropped : Nat
  events : List LoggedEvent
  queue : List Nat
  writer : Option Nat
  rows : List (Nat × LogRecord)
  calls : List FlushCall

inductive LoggingAction where
  | observe (record : LogRecord)
  | trySend (event : Nat)
  | countDropped (event : Nat)
  | recv
  | write (ok : Bool)
  | countWrite
  | call (cutoff : Option Int)
  | load (call : Nat)
  | compare (call : Nat) (timedOut : Bool)
  | delete (call : Nat)

namespace LogStore

def new (capacity : Nat) : LogStore := ⟨capacity, 0, 0, 0, 0, [], [], none, [], []⟩

def advance (s : LogStore) (n : Nat) (event : LoggedEvent) (phase : EventPhase) : LogStore :=
  { s with events := s.events.set n { event with phase := phase } }

def loaded (s : LogStore) (call : FlushCall) : Option FlushCall :=
  match call.stage with
  | .loadWritten => some { call with processed := s.written, stage := .loadWriteErrors }
  | .loadWriteErrors =>
      some { call with processed := call.processed + s.writeErrors, stage := .loadDropped }
  | .loadDropped => some { call with processed := call.processed + s.dropped, stage := .compare }
  | _ => none

def compared (call : FlushCall) (timedOut : Bool) : Option FlushCall :=
  match call.stage with
  | .compare =>
      if call.processed ≥ call.target then some { call with stage := .returned true }
      else if timedOut then some { call with stage := .returned false }
      else some { call with stage := .loadWritten }
  | _ => none

def step (s : LogStore) : LoggingAction → Option LogStore
  | .observe record =>
      some { s with sent := s.sent + 1, events := s.events ++ [⟨record, .observed⟩] }
  | .trySend n =>
      match s.events[n]? with
      | some ⟨record, .observed⟩ =>
          if s.queue.length < s.capacity then
            some { s.advance n ⟨record, .observed⟩ .queued with queue := s.queue ++ [n] }
          else some (s.advance n ⟨record, .observed⟩ .refused)
      | _ => none
  | .countDropped n =>
      match s.events[n]? with
      | some ⟨record, .refused⟩ =>
          some { s.advance n ⟨record, .refused⟩ .counted with dropped := s.dropped + 1 }
      | _ => none
  | .recv =>
      match s.writer, s.queue with
      | none, n :: rest =>
          match s.events[n]? with
          | some ⟨record, .queued⟩ =>
              some { s.advance n ⟨record, .queued⟩ .received with queue := rest, writer := some n }
          | _ => none
      | _, _ => none
  | .write ok =>
      match s.writer with
      | none => none
      | some n =>
          match s.events[n]? with
          | some ⟨record, .received⟩ =>
              if ok then
                some { s.advance n ⟨record, .received⟩ .committed with
                  rows := s.rows ++ [(n, record)] }
              else some (s.advance n ⟨record, .received⟩ .failed)
          | _ => none
  | .countWrite =>
      match s.writer with
      | none => none
      | some n =>
          match s.events[n]? with
          | some ⟨record, .committed⟩ =>
              some { s.advance n ⟨record, .committed⟩ .counted with
                written := s.written + 1, writer := none }
          | some ⟨record, .failed⟩ =>
              some { s.advance n ⟨record, .failed⟩ .counted with
                writeErrors := s.writeErrors + 1, writer := none }
          | _ => none
  | .call cutoff => some { s with calls := s.calls ++ [⟨cutoff, s.sent, 0, .loadWritten⟩] }
  | .load c =>
      (s.calls[c]?.bind s.loaded).map fun call => { s with calls := s.calls.set c call }
  | .compare c timedOut =>
      (s.calls[c]?.bind (compared · timedOut)).map fun call =>
        { s with calls := s.calls.set c call }
  | .delete c =>
      match s.calls[c]? with
      | some ⟨some cutoff, target, processed, .returned drained⟩ =>
          some { s with
            rows := s.rows.filter (cutoff ≤ ·.2.tsUnixMs)
            calls := s.calls.set c ⟨some cutoff, target, processed, .deleted drained⟩ }
      | _ => none

def Ended (s : LogStore) (n : Nat) : Prop :=
  ∃ event, s.events[n]? = some event ∧ event.phase.ended = true

/-- A flush that returned `true` left no earlier event on its way, and a trim behind it left no
earlier row below its cutoff. -/
structure Exact (s : LogStore) : Prop where
  flushed : ∀ call ∈ s.calls, call.stage = .returned true ∨ call.stage = .deleted true →
    ∀ n < call.target, s.Ended n
  trimmed : ∀ call ∈ s.calls, call.stage = .deleted true → ∀ cutoff, call.cutoff = some cutoff →
    ∀ row ∈ s.rows, row.1 < call.target → cutoff ≤ row.2.tsUnixMs

def Late (s : LogStore) (n : Nat) : Prop :=
  ∃ call ∈ s.calls, call.stage.pending = true ∧ call.target ≤ n ∧ ∃ m < call.target, ¬ s.Ended m

def Overtakes (s : LogStore) : LoggingAction → Prop
  | .countDropped n => s.Late n
  | .countWrite => ∃ n, s.writer = some n ∧ s.Late n
  | _ => False

end LogStore
end OxidHome.History

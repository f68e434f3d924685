import OxidHome.Host.Histories

/-!
# Refused calls

A call that has written to a store is answered without an error, so the steps of a refused call
leave both stores as they were. With the invariant of `Histories` this is the consistency of the
registry, the projection and the quotas under any interleaving of the instances' calls.
-/

namespace OxidHome.Host
open Wit Library History Projection
open Std (TreeMap)

def HostAction.begins : HostAction → Option String
  | .call caller _ => some caller.instanceId
  | _ => none

def Derives (actions : List HostAction) (triple : DeviceTriple) : Prop :=
  ∃ action ∈ actions, action.triple = some triple

namespace HostStores

def SameStores (s t : HostStores) : Prop := t.devices = s.devices ∧ t.inner = s.inner

section
variable (sha256 : Sha256) (byteLen : Json → Nat)

def Writes (o : String) (s : HostStores) (action : HostAction) : Prop :=
  action.actor = o ∧ ∃ t, s.step sha256 byteLen action = some t ∧ ¬ s.SameStores t

def Refuses (o : String) (s : HostStores) (action : HostAction) : Prop :=
  action.actor = o ∧ ∃ t answer, s.turn sha256 byteLen action = some (t, some answer) ∧
    answer.refused = true

end

variable {sha256 : Sha256} {byteLen : Json → Nat} {s t u : HostStores} {a o : String}
  {stage : CallStage} {action last : HostAction} {before rest : List HostAction}

/-! ## One turn -/

structure Turned (s : HostStores) (a : String) (result : HostStores × Option HostAnswer) : Prop where
  others : ∀ o, o ≠ a → result.1.calls[o]? = s.calls[o]?
  answered : ∀ answer, result.2 = some answer → result.1.calls[a]? = none
  refused : ∀ answer, result.2 = some answer → answer.refused = true → s.SameStores result.1
  waits : result.2 = none → ∃ stage, result.1.calls[a]? = some stage ∧
    (stage.written = false → s.SameStores result.1)

theorem Turned.at_once (idle : s.calls[a]? = none) (answer : HostAnswer) :
    Turned s a (s, some answer) where
  others := fun _ _ => rfl
  answered := fun _ _ => idle
  refused := fun _ _ _ => ⟨rfl, rfl⟩
  waits := nofun

theorem Turned.await (s : HostStores) (a : String) (stage : CallStage) :
    Turned s a (s.await a stage, none) where
  others := fun _ apart => await_other apart
  answered := nofun
  refused := nofun
  waits := fun _ => ⟨stage, await_self, fun _ => ⟨rfl, rfl⟩⟩

theorem Turned.write (s : HostStores) (a : String) (devices : DeviceRegistry)
    (written : stage.written = true) :
    Turned s a (({ s with devices := devices } : HostStores).await a stage, none) where
  others := fun _ apart => await_other (s := { s with devices := devices }) apart
  answered := nofun
  refused := nofun
  waits := by
    intro _
    refine ⟨stage, await_self, ?_⟩
    rw [written]
    nofun

theorem Turned.returned (s : HostStores) (a : String) (answer : HostAnswer) :
    Turned s a (s.returned a, some answer) where
  others := fun _ apart => returned_other apart
  answered := fun _ _ => returned_self
  refused := fun _ _ _ => ⟨rfl, rfl⟩
  waits := nofun

theorem Turned.done (s : HostStores) (a : String) (inner : StoreInner) {answer : HostAnswer}
    (granted : answer.refused = false) :
    Turned s a ({ s.returned a with inner := inner }, some answer) where
  others := fun _ apart => returned_other apart
  answered := fun _ _ => returned_self (s := s)
  refused := by
    intro other same refused
    cases same
    rw [granted] at refused
    cases refused
  waits := nofun

theorem call_turned (sha256 : Sha256) (byteLen : Json → Nat) {caller : Caller}
    (request : HostRequest) (idle : s.calls[caller.instanceId]? = none) :
    Turned s caller.instanceId (s.call sha256 byteLen caller request) := by
  cases request with
  | registerDevice info =>
      dsimp only [HostStores.call]
      unfold registerDevice
      split
      · exact .at_once idle _
      dsimp only
      split
      · exact .at_once idle _
      · exact .await ..
  | updateDevice id info =>
      dsimp only [HostStores.call]
      unfold updateDevice
      split
      · exact .at_once idle _
      split
      · exact .at_once idle _
      · exact .write _ _ _ rfl
  | removeDevice id =>
      dsimp only [HostStores.call]
      unfold removeDevice
      split
      · exact .at_once idle _
      · exact .write _ _ _ rfl
  | publishEvent ev admitted =>
      dsimp only [HostStores.call]
      unfold publishEvent
      split
      · exact .at_once idle _
      dsimp only
      split_ifs
      · exact .at_once idle _
      · exact .at_once idle _
      · exact .await ..
  | executed deviceId capability result =>
      dsimp only [HostStores.call]
      unfold executed
      split
      · split
        · exact .at_once idle _
        split
        · exact .at_once idle _
        split_ifs
        · exact .await ..
        · exact .at_once idle _
      · exact .at_once idle _

theorem resume_turned (sha256 : Sha256) (s : HostStores) (a : String) (nowMs : Int)
    (writeError : Option Error) (stage : CallStage) :
    Turned s a (s.resume sha256 a nowMs writeError stage) := by
  cases stage with
  | registering uuid info =>
      dsimp only [HostStores.resume]
      split
      · exact .returned ..
      · exact .write _ _ _ rfl
  | seeding | reconciling | removing | projecting => exact .done _ _ _ rfl
  | authorized ev =>
      dsimp only [HostStores.resume]
      split
      · exact .returned ..
      · exact .await ..
  | recording ev =>
      dsimp only [HostStores.resume]
      split
      · exact .returned ..
      · exact .done _ _ _ rfl
  | answering d c fields =>
      dsimp only [HostStores.resume]
      split
      · exact .returned ..
      · exact .await ..

theorem resume_written (sha256 : Sha256) (s : HostStores) (a : String) (nowMs : Int)
    (writeError : Option Error) (written : stage.written = true) :
    ∃ answer, (s.resume sha256 a nowMs writeError stage).2 = some answer ∧
      answer.refused = false := by
  cases stage with
  | seeding | reconciling | removing => exact ⟨_, rfl, rfl⟩
  | registering | authorized | recording | answering | projecting => cases written

/-! ## One step -/

theorem step_idle (idle : s.calls[o]? = none) (own : action.begins ≠ some o)
    (taken : s.step sha256 byteLen action = some t) : t.calls[o]? = none := by
  obtain ⟨result, turned, rfl⟩ := Option.map_eq_some_iff.mp taken
  cases action with
  | call caller request =>
      have apart : o ≠ caller.instanceId := fun same => own (congrArg some same.symm)
      dsimp only [turn] at turned
      split_ifs at turned with busy
      cases turned
      rw [(call_turned sha256 byteLen request (TreeMap.getElem?_eq_none busy)).others o apart]
      exact idle
  | resume instanceId nowMs writeError =>
      obtain ⟨stage, calling, same⟩ := Option.map_eq_some_iff.mp turned
      cases same
      have apart : o ≠ instanceId := by
        rintro rfl
        rw [idle] at calling
        cases calling
      rw [(resume_turned sha256 s instanceId nowMs writeError stage).others o apart]
      exact idle
  | drop instanceId =>
      dsimp only [turn] at turned
      split at turned
      · cases turned
        by_cases same : o = instanceId
        · rw [same]
          exact returned_self
        · rw [returned_other same]
          exact idle
      · cases turned
  | sweepLife instanceId nowMs | sweepTerminal instanceId nowMs =>
      dsimp only [turn] at turned
      split_ifs at turned
      cases turned
      exact idle

theorem step_elsewhere (apart : action.actor ≠ o) (taken : s.step sha256 byteLen action = some t) :
    t.calls[o]? = s.calls[o]? := by
  obtain ⟨result, turned, rfl⟩ := Option.map_eq_some_iff.mp taken
  cases action with
  | call caller request =>
      dsimp only [turn] at turned
      split_ifs at turned with busy
      cases turned
      exact (call_turned sha256 byteLen request (TreeMap.getElem?_eq_none busy)).others o apart.symm
  | resume instanceId nowMs writeError =>
      obtain ⟨stage, calling, same⟩ := Option.map_eq_some_iff.mp turned
      cases same
      exact (resume_turned sha256 s instanceId nowMs writeError stage).others o apart.symm
  | drop instanceId =>
      dsimp only [turn] at turned
      split at turned
      · cases turned
        exact returned_other apart.symm
      · cases turned
  | sweepLife instanceId nowMs | sweepTerminal instanceId nowMs =>
      dsimp only [turn] at turned
      split_ifs at turned
      cases turned
      rfl

theorem step_in_flight (calling : s.calls[o]? = some stage) (own : action.begins ≠ some o)
    (actor : action.actor = o) (taken : s.step sha256 byteLen action = some t) :
    t.calls[o]? = none ∨ stage.written = false ∧
      ∃ next, t.calls[o]? = some next ∧ (next.written = false → s.SameStores t) := by
  obtain ⟨result, turned, rfl⟩ := Option.map_eq_some_iff.mp taken
  have busy : o ∈ s.calls := by
    rw [TreeMap.mem_iff_isSome_getElem?, calling]
    rfl
  cases action with
  | call caller request =>
      subst actor
      exact absurd rfl own
  | resume instanceId nowMs writeError =>
      subst actor
      obtain ⟨stage', again, same⟩ := Option.map_eq_some_iff.mp turned
      rw [show s.calls[instanceId]? = _ from calling] at again
      cases again
      cases same
      have spec := resume_turned sha256 s instanceId nowMs writeError stage
      cases answer : (s.resume sha256 instanceId nowMs writeError stage).2 with
      | some given => exact Or.inl (spec.answered given answer)
      | none =>
          right
          constructor
          · by_contra written
            obtain ⟨given, some, _⟩ := resume_written sha256 s instanceId nowMs writeError
              (Bool.eq_true_of_not_eq_false written)
            rw [answer] at some
            cases some
          · exact spec.waits answer
  | drop instanceId =>
      subst actor
      dsimp only [turn] at turned
      split at turned
      · cases turned
        exact Or.inl returned_self
      · cases turned
  | sweepLife instanceId nowMs | sweepTerminal instanceId nowMs =>
      subst actor
      dsimp only [turn] at turned
      split_ifs at turned with idle
      exact absurd busy idle

/-! ## The steps of a refused call -/

theorem step_of_turn {answer : Option HostAnswer}
    (turned : s.turn sha256 byteLen action = some (t, answer)) :
    s.step sha256 byteLen action = some t := by
  rw [step, turned]
  rfl

theorem spared_cons (taken : s.step sha256 byteLen action = some t)
    (same : action.actor = o → s.SameStores t)
    (spared : Spared (step sha256 byteLen) (Writes sha256 byteLen o) t rest) :
    Spared (step sha256 byteLen) (Writes sha256 byteLen o) s (action :: rest) := by
  constructor
  · rintro ⟨actor, t', again, changed⟩
    rw [taken] at again
    cases again
    exact changed (same actor)
  · intro t' again
    rw [taken] at again
    cases again
    exact spared

theorem not_refused_of_idle (idle : s.calls[o]? = none)
    (own : ∀ action ∈ before ++ [last], action.begins ≠ some o)
    (run : exec (step sha256 byteLen) s before = some u) : ¬ Refuses sha256 byteLen o u last := by
  induction before generalizing s with
  | nil =>
      cases run
      rintro ⟨rfl, t, answer, turned, _⟩
      cases last with
      | call caller request => exact own _ List.mem_cons_self rfl
      | resume instanceId nowMs writeError =>
          obtain ⟨stage, calling, _⟩ := Option.map_eq_some_iff.mp turned
          rw [show u.calls[instanceId]? = _ from idle] at calling
          cases calling
      | drop instanceId =>
          dsimp only [turn] at turned
          split at turned
          · cases turned
          · cases turned
      | sweepLife | sweepTerminal =>
          dsimp only [turn] at turned
          split_ifs at turned
          cases turned
  | cons action before ih =>
      obtain ⟨t, taken, run⟩ := exec_cons.mp run
      apply ih _ (fun other mem => own other (List.mem_cons_of_mem _ mem)) run
      exact step_idle idle (own action List.mem_cons_self) taken

theorem refused_in_flight (calling : s.calls[o]? = some stage)
    (own : ∀ action ∈ before ++ [last], action.begins ≠ some o)
    (run : exec (step sha256 byteLen) s before = some u)
    (refused : Refuses sha256 byteLen o u last) :
    stage.written = false ∧ Spared (step sha256 byteLen) (Writes sha256 byteLen o) s (before ++ [last])
    := by
  induction before generalizing s stage with
  | nil =>
      cases run
      obtain ⟨rfl, t, answer, turned, error⟩ := refused
      cases last with
      | call caller request => exact absurd rfl (own _ List.mem_cons_self)
      | resume instanceId nowMs writeError =>
          obtain ⟨stage', again, same⟩ := Option.map_eq_some_iff.mp turned
          rw [show u.calls[instanceId]? = _ from calling] at again
          cases again
          have spec := resume_turned sha256 u instanceId nowMs writeError stage
          rw [same] at spec
          constructor
          · by_contra written
            obtain ⟨given, granted, fine⟩ := resume_written sha256 u instanceId nowMs writeError
              (Bool.eq_true_of_not_eq_false written)
            rw [same] at granted
            cases granted
            rw [error] at fine
            cases fine
          · have ended : Spared (step sha256 byteLen) (Writes sha256 byteLen instanceId) t [] :=
              trivial
            apply spared_cons (step_of_turn turned) _ ended
            intro _
            exact spec.refused answer rfl error
      | drop instanceId =>
          dsimp only [turn] at turned
          split at turned
          · cases turned
          · cases turned
      | sweepLife | sweepTerminal =>
          dsimp only [turn] at turned
          split_ifs at turned
          cases turned
  | cons action before ih =>
      obtain ⟨t, taken, run⟩ := exec_cons.mp run
      have later : ∀ other ∈ before ++ [last], other.begins ≠ some o :=
        fun other mem => own other (List.mem_cons_of_mem _ mem)
      by_cases actor : action.actor = o
      · rcases step_in_flight calling (own action List.mem_cons_self) actor taken with
          idle | ⟨unwritten, next, waits, same⟩
        · exact absurd refused (not_refused_of_idle idle later run)
        · obtain ⟨nothing, spared⟩ := ih waits later run
          exact ⟨unwritten, spared_cons taken (fun _ => same nothing) spared⟩
      · have same := step_elsewhere actor taken
        obtain ⟨nothing, spared⟩ := ih (same.trans calling) later run
        exact ⟨nothing, spared_cons taken (fun own => absurd own actor) spared⟩

theorem refused_call_spares {caller : Caller} {request : HostRequest}
    (own : ∀ action ∈ rest, action.begins ≠ some caller.instanceId)
    (whole : .call caller request :: rest = before ++ [last])
    (run : exec (step sha256 byteLen) s before = some u)
    (refused : Refuses sha256 byteLen caller.instanceId u last) :
    Spared (step sha256 byteLen) (Writes sha256 byteLen caller.instanceId) s
      (.call caller request :: rest) := by
  cases before with
  | nil =>
      cases whole
      cases run
      obtain ⟨_, t, answer, turned, error⟩ := refused
      have ended : Spared (step sha256 byteLen) (Writes sha256 byteLen caller.instanceId) t [] :=
        trivial
      apply spared_cons (step_of_turn turned) _ ended
      intro _
      dsimp only [turn] at turned
      split_ifs at turned with busy
      have spec := call_turned sha256 byteLen request (TreeMap.getElem?_eq_none busy)
      rw [Option.some.inj turned] at spec
      exact spec.refused answer rfl error
  | cons first before =>
      obtain ⟨rfl, rfl⟩ := List.cons.inj whole
      obtain ⟨t, taken, run⟩ := exec_cons.mp run
      obtain ⟨result, turned, rfl⟩ := Option.map_eq_some_iff.mp taken
      dsimp only [turn] at turned
      split_ifs at turned with busy
      cases turned
      have spec := call_turned sha256 byteLen request (TreeMap.getElem?_eq_none busy)
      cases answer : (s.call sha256 byteLen caller request).2 with
      | some given =>
          exact absurd refused (not_refused_of_idle (spec.answered given answer) own run)
      | none =>
          obtain ⟨stage, calling, same⟩ := spec.waits answer
          obtain ⟨nothing, spared⟩ := refused_in_flight calling own run refused
          exact spared_cons taken (fun _ => same nothing) spared

/-! ## Every history -/

theorem sound_of_run {nonce : Vector UInt8 16} {secret : Vector UInt8 32}
    {actions : List HostAction} (free : CollisionFree sha256 (Derives actions))
    (run : exec (step sha256 byteLen) (start nonce secret) actions = some s) :
    s.Sound sha256 (Derives actions) := by
  have along : ∀ taken, taken <+: actions → ∀ t, exec (step sha256 byteLen) (start nonce secret)
      taken = some t → t.Sound sha256 (Derives actions) := by
    intro taken
    induction taken using List.reverseRecOn with
    | nil =>
        intro _ t reached
        cases reached
        exact sound_start nonce secret
    | append_singleton taken action ih =>
        intro within t reached
        obtain ⟨u, first, last⟩ := exec_concat.mp reached
        have sound := ih ((List.prefix_append _ _).trans within) u first
        apply sound.step free byteLen _ last
        intro triple derives
        exact ⟨action, within.subset (by simp), derives⟩
  exact along actions List.prefix_rfl s run

theorem registry_and_projection_agree (sha256 : Sha256) (byteLen : Json → Nat) :
    (∀ (nonce : Vector UInt8 16) (secret : Vector UInt8 32) (actions : List HostAction)
      (s : HostStores), CollisionFree sha256 (Derives actions) →
      exec (step sha256 byteLen) (start nonce secret) actions = some s →
      (∀ (slot : SlotKey) (e : DeviceState), s.inner.entries[slot]? = some e →
        e.quality = .fresh → ¬ s.Between e.ownerInstance slot.1 →
        ∃ m, s.devices.get e.ownerInstance slot.1 = .ok m ∧ declares m.info slot.2 = true) ∧
      (∀ o, s.inner.ownerTotal o ≤ MAX_PROJECTED_BYTES_PER_INSTANCE) ∧
      (∀ (slot : SlotKey) (e : DeviceState), s.inner.entries[slot]? = some e →
        WithinSlotCaps e.fields) ∧
      ∀ o, s.devices.owned o ≤ MAX_DEVICES_PER_INSTANCE) ∧
    ∀ (s u : HostStores) (caller : Caller) (request : HostRequest)
      (rest before : List HostAction) (last : HostAction),
      (∀ action ∈ rest, action.begins ≠ some caller.instanceId) →
      .call caller request :: rest = before ++ [last] →
      exec (step sha256 byteLen) s before = some u →
      Refuses sha256 byteLen caller.instanceId u last →
      Spared (step sha256 byteLen) (Writes sha256 byteLen caller.instanceId) s
        (.call caller request :: rest) := by
  constructor
  · intro nonce secret actions s free run
    have sound := sound_of_run free run
    refine ⟨?_, sound.total, sound.within, sound.owned⟩
    intro slot e found fresh settled
    obtain ⟨m, there, own, declared⟩ := (sound.declared slot e found fresh).resolve_left settled
    exact ⟨m, DeviceRegistry.get_eq_ok.mpr ⟨there, own⟩, declared⟩
  · intro s u caller request rest before last own whole run refused
    exact refused_call_spares own whole run refused

def cam : Caller := ⟨"u", "cam", "camera", ["switch"]⟩

def switchDoor : DeviceInfo :=
  ⟨"door", "Door", none, none, none, [.switch], [.switch ⟨true⟩], []⟩

def registering : List HostAction :=
  [.call cam (.registerDevice switchDoor), .resume "cam" 0 none, .resume "cam" 1 none]

def stray : HostRequest := .removeDevice "dev-0"

theorem registering_free : CollisionFree doorSha (Derives registering) := by
  have only : ∀ triple, Derives registering triple → triple = camDoor := by
    rintro triple ⟨action, mem, derives⟩
    simp only [registering, List.mem_cons, List.not_mem_nil, or_false] at mem
    rcases mem with rfl | rfl | rfl
    · exact (Option.some.inj derives).symm
    · cases derives
    · cases derives
  intro x y hx hy _
  rw [only x hx, only y hy]

theorem registry_and_projection_agree_door :
    (∃ s, exec (step doorSha fun _ => 0) (start (.replicate 16 0) (.replicate 32 0)) registering =
        some s ∧
      (∀ (slot : SlotKey) (e : DeviceState), s.inner.entries[slot]? = some e →
        e.quality = .fresh → e.ownerInstance = "cam" →
        ∃ m, s.devices.get "cam" slot.1 = .ok m ∧ declares m.info slot.2 = true) ∧
      s.devices.owned "cam" ≤ MAX_DEVICES_PER_INSTANCE) ∧
    Spared (step doorSha fun _ => 0) (Writes doorSha (fun _ => 0) "cam")
      (start (.replicate 16 0) (.replicate 32 0)) [.call cam stray] := by
  obtain ⟨agree, spared⟩ := registry_and_projection_agree doorSha fun _ => 0
  constructor
  · refine ⟨_, rfl, ?_⟩
    obtain ⟨owned, _, _, quota⟩ :=
      agree (.replicate 16 0) (.replicate 32 0) registering _ registering_free rfl
    constructor
    · intro slot e found fresh own
      have here := owned slot e found fresh
      rw [own] at here
      exact here (settled_of_none rfl slot.1)
    · exact quota "cam"
  · exact spared _ _ cam stray [] [] (.call cam stray) nofun rfl rfl ⟨rfl, _, _, rfl, rfl⟩

end HostStores

end OxidHome.Host

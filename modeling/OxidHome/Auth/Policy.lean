import OxidHome.Api.Scopes
import OxidHome.Library.TreeMaps

/-!
# Token policies

A decoded policy of `auth/policy.rs`, the `Actor` of a token, `require_scope` and the gate that the
transports apply to the constraints of an actor.
-/

namespace OxidHome.Auth
open Library
open Api (Scope satisfiedBy)
open Std (TreeMap)

structure ToolConstraint where
  devices : Option (List String)
  plugins : Option (List String)

def matchPattern (pattern id : String) : Bool :=
  if pattern.toList.getLast? = some '*' then pattern.toList.dropLast.isPrefixOf id.toList
  else pattern = id

namespace ToolConstraint

def allows : Option (List String) → String → Bool
  | none, _ => true
  | some patterns, id => patterns.any fun p => matchPattern p id

def allowsDevice (cx : ToolConstraint) (id : String) : Bool := allows cx.devices id

def allowsPlugin (cx : ToolConstraint) (id : String) : Bool := allows cx.plugins id

end ToolConstraint

structure TokenPolicy where
  scopes : List String
  constraints : TreeMap String ToolConstraint

structure Actor where
  id : String
  scopes : List String
  constraints : TreeMap String ToolConstraint

namespace Actor

def apiWithPolicy (tokenId : String) (policy : TokenPolicy) : Actor :=
  ⟨tokenId, policy.scopes, policy.constraints⟩

def constraint (actor : Actor) (toolName : String) : Option ToolConstraint :=
  actor.constraints[toolName]?

end Actor

def requireScope (actor : Actor) (required : Scope) : Bool := satisfiedBy required actor.scopes

structure EnforcedConstraint where
  key : String
  enforceDevices : Bool
  enforcePlugins : Bool

def EnforcedConstraint.firstUnenforcedField (entry : EnforcedConstraint) (cx : ToolConstraint) :
    Option String :=
  if cx.devices.isSome && !entry.enforceDevices then some "devices"
  else if cx.plugins.isSome && !entry.enforcePlugins then some "plugins"
  else none

inductive ConstraintRefusal where
  | keyNotEnforced (key : String)
  | fieldNotEnforced (key field : String)
deriving DecidableEq

/-- A `HashMap` is walked in no particular order; here it is that of the keys. -/
def firstConstraintRefusal (actor : Actor) (enforced : List EnforcedConstraint) :
    Option ConstraintRefusal :=
  actor.constraints.toList.findSome? fun (key, cx) =>
    match enforced.find? (·.key = key) with
    | none => some (.keyNotEnforced key)
    | some entry => (entry.firstUnenforcedField cx).map (.fieldNotEnforced key)

inductive Transport where
  | rest
  | connect
  | mcp
deriving DecidableEq

def enforcedConstraints : Transport → List EnforcedConstraint
  | .rest => []
  | .connect => []
  | .mcp => [
      ⟨"device.send_command", true, false⟩,
      ⟨"plugins.show", false, true⟩,
      ⟨"plugins.stop", false, true⟩,
      ⟨"plugins.uninstall", false, true⟩,
      ⟨"plugins.start", false, true⟩,
      ⟨"plugins.install", false, true⟩]

def admits (transport : Transport) (actor : Actor) : Bool :=
  (firstConstraintRefusal actor (enforcedConstraints transport)).isNone

/-- The entry for the key enforces every field that the constraint sets. -/
def Enforces (enforced : List EnforcedConstraint) (key : String) (cx : ToolConstraint) : Prop :=
  ∃ entry ∈ enforced, entry.key = key ∧
    (cx.devices.isSome = true → entry.enforceDevices = true) ∧
    (cx.plugins.isSome = true → entry.enforcePlugins = true)

theorem firstUnenforcedField_eq_none {entry : EnforcedConstraint} {cx : ToolConstraint} :
    entry.firstUnenforcedField cx = none ↔
      (cx.devices.isSome = true → entry.enforceDevices = true) ∧
        (cx.plugins.isSome = true → entry.enforcePlugins = true) := by
  unfold EnforcedConstraint.firstUnenforcedField
  cases cx.devices.isSome with
  | true => cases entry.enforceDevices <;> cases cx.plugins.isSome <;> cases entry.enforcePlugins <;>
      simp
  | false => cases cx.plugins.isSome <;> cases entry.enforcePlugins <;> simp

theorem find?_key {enforced : List EnforcedConstraint} (distinct : (enforced.map (·.key)).Nodup)
    {entry : EnforcedConstraint} (mem : entry ∈ enforced) :
    enforced.find? (·.key = entry.key) = some entry := by
  induction enforced with
  | nil => cases mem
  | cons first rest ih =>
      rw [List.map_cons, List.nodup_cons] at distinct
      rcases List.mem_cons.mp mem with rfl | tail
      · simp
      · have apart : first.key ≠ entry.key := by
          intro same
          apply distinct.1
          rw [same]
          exact List.mem_map_of_mem tail
        rw [List.find?_cons_of_neg (by simpa using apart)]
        exact ih distinct.2 tail

theorem firstConstraintRefusal_eq_none {actor : Actor} {enforced : List EnforcedConstraint}
    (distinct : (enforced.map (·.key)).Nodup) :
    firstConstraintRefusal actor enforced = none ↔
      ∀ (key : String) (cx : ToolConstraint), actor.constraints[key]? = some cx →
        Enforces enforced key cx := by
  unfold firstConstraintRefusal
  rw [List.findSome?_eq_none_iff]
  constructor
  · intro none key cx found
    have here := none (key, cx) (mem_toList.mpr found)
    dsimp only at here
    split at here
    · cases here
    · next entry listed =>
        have fields := firstUnenforcedField_eq_none.mp (Option.map_eq_none_iff.mp here)
        have same : entry.key = key := by simpa using List.find?_some listed
        exact ⟨entry, List.mem_of_find?_eq_some listed, same, fields⟩
  · rintro all ⟨key, cx⟩ mem
    obtain ⟨entry, listed, rfl, fields⟩ := all key cx (mem_toList.mp mem)
    dsimp only
    rw [find?_key distinct listed]
    exact Option.map_eq_none_iff.mpr (firstUnenforcedField_eq_none.mpr fields)

theorem enforcedConstraints_distinct (transport : Transport) :
    ((enforcedConstraints transport).map (·.key)).Nodup := by
  cases transport <;> decide

theorem admits_iff {transport : Transport} {actor : Actor} : admits transport actor = true ↔
    ∀ (key : String) (cx : ToolConstraint), actor.constraint key = some cx →
      Enforces (enforcedConstraints transport) key cx := by
  unfold admits
  rw [Option.isNone_iff_eq_none]
  exact firstConstraintRefusal_eq_none (enforcedConstraints_distinct transport)

theorem unconstrained_of_admits {transport : Transport} {actor : Actor}
    (none : enforcedConstraints transport = []) (admitted : admits transport actor = true)
    (key : String) : actor.constraint key = Option.none := by
  by_contra constrained
  obtain ⟨cx, found⟩ := Option.ne_none_iff_exists'.mp constrained
  obtain ⟨entry, listed, _⟩ := admits_iff.mp admitted key cx found
  rw [none] at listed
  cases listed

end OxidHome.Auth

import OxidHome.Library.Machine
import OxidHome.Library.Tables

/-!
# The dashboard store

`DashboardStore` of `state/dashboards.rs`; each operation is one transaction. `id` is an
`INTEGER PRIMARY KEY` without `AUTOINCREMENT`. `disk` says whether SQLite gets through the
operation.
-/

namespace OxidHome.Storage

def MAX_DASHBOARD_NAME_BYTES : Nat := 256
def MAX_DASHBOARD_LAYOUT_BYTES : Nat := 128 * 1024
def MAX_DASHBOARDS_PER_OWNER : Nat := 128

structure Dashboard where
  id : Int
  name : String
  ownerUserId : String
  layoutJson : List UInt8
  schemaVersion : Int
  createdMs : Int
  updatedMs : Int
  deriving DecidableEq

structure DashboardInput where
  name : String
  ownerUserId : String
  layoutJson : List UInt8
  schemaVersion : Int

inductive DashboardError where
  | notFound (id : Int)
  | tooLarge (field : String) (size max : Nat)
  | quotaExceeded (existing max : Nat)
  | persistence
  deriving DecidableEq

def checkCaps (input : DashboardInput) : Except DashboardError Unit :=
  if input.name.utf8ByteSize > MAX_DASHBOARD_NAME_BYTES then
    .error (.tooLarge "name" input.name.utf8ByteSize MAX_DASHBOARD_NAME_BYTES)
  else if input.layoutJson.length > MAX_DASHBOARD_LAYOUT_BYTES then
    .error (.tooLarge "layout" input.layoutJson.length MAX_DASHBOARD_LAYOUT_BYTES)
  else .ok ()

abbrev DashboardTable := List Dashboard

namespace DashboardTable

def maxRowid (rows : DashboardTable) : Int := (rows.map Dashboard.id).foldr max 0

def nextRowid (rows : DashboardTable) : Int := rows.maxRowid + 1

def ownedBy (rows : DashboardTable) (owner : String) : Nat :=
  rows.countP (·.ownerUserId = owner)

def create (rows : DashboardTable) (disk : Bool) (now : Int) (input : DashboardInput) :
    Except DashboardError Dashboard × DashboardTable :=
  match checkCaps input with
  | .error err => (.error err, rows)
  | .ok () =>
    if !disk then (.error .persistence, rows)
    else if rows.ownedBy input.ownerUserId ≥ MAX_DASHBOARDS_PER_OWNER then
      (.error (.quotaExceeded (rows.ownedBy input.ownerUserId) MAX_DASHBOARDS_PER_OWNER), rows)
    else
      let row := ⟨rows.nextRowid, input.name, input.ownerUserId, input.layoutJson,
        input.schemaVersion, now, now⟩
      (.ok row, rows ++ [row])

def addressed (id : Int) (owner : String) (row : Dashboard) : Bool :=
  row.id = id && row.ownerUserId = owner

def rewrite (now : Int) (input : DashboardInput) (row : Dashboard) : Dashboard :=
  { row with
    name := input.name
    layoutJson := input.layoutJson
    schemaVersion := input.schemaVersion
    updatedMs := now }

def updateOwned (rows : DashboardTable) (disk : Bool) (now id : Int) (owner : String)
    (input : DashboardInput) : Except DashboardError Dashboard × DashboardTable :=
  match checkCaps input with
  | .error err => (.error err, rows)
  | .ok () =>
    if !disk then (.error .persistence, rows)
    else match rows.find? (addressed id owner) with
      | none => (.error (.notFound id), rows)
      | some row => (.ok (rewrite now input row),
          rows.map fun row => if addressed id owner row then rewrite now input row else row)

def deleteOwned (rows : DashboardTable) (disk : Bool) (id : Int) (owner : String) :
    Except DashboardError Bool × DashboardTable :=
  if !disk then (.error .persistence, rows)
  else (.ok (rows.any (addressed id owner)), rows.filter (!addressed id owner ·))

def getOwned (rows : DashboardTable) (disk : Bool) (id : Int) (owner : String) :
    Except DashboardError (Option Dashboard) :=
  if !disk then .error .persistence else .ok (rows.find? (addressed id owner))

variable {rows : DashboardTable}

theorem lt_nextRowid {row : Dashboard} (mem : row ∈ rows) : row.id < rows.nextRowid := by
  have bound : row.id ≤ rows.maxRowid := by
    unfold maxRowid
    induction rows with
    | nil => cases mem
    | cons first rest ih =>
        rcases List.mem_cons.mp mem with rfl | mem
        · exact le_max_left _ _
        · exact (ih mem).trans (le_max_right _ _)
  exact Int.lt_add_one_of_le bound

theorem addressed_iff {id : Int} {owner : String} {row : Dashboard} :
    addressed id owner row = true ↔ row.id = id ∧ row.ownerUserId = owner := by
  simp [addressed]

end DashboardTable

inductive DashboardRequest where
  | create (disk : Bool) (now : Int) (input : DashboardInput)
  | get (disk : Bool) (id : Int) (owner : String)
  | update (disk : Bool) (now id : Int) (owner : String) (input : DashboardInput)
  | delete (disk : Bool) (id : Int) (owner : String)

inductive DashboardAnswer where
  | written (row : Dashboard)
  | read (row : Option Dashboard)
  | deleted (found : Bool)
  | refused (err : DashboardError)
  deriving DecidableEq

namespace DashboardRequest

def owner : DashboardRequest → String
  | .create _ _ input => input.ownerUserId
  | .get _ _ owner => owner
  | .update _ _ _ owner _ => owner
  | .delete _ _ owner => owner

def address : DashboardRequest → Option (Int × String)
  | .create _ _ _ => none
  | .get _ id owner => some (id, owner)
  | .update _ _ id owner _ => some (id, owner)
  | .delete _ id owner => some (id, owner)

def perform (rows : DashboardTable) : DashboardRequest → DashboardAnswer × DashboardTable
  | .create disk now input =>
      match rows.create disk now input with
      | (.ok row, rows) => (.written row, rows)
      | (.error err, rows) => (.refused err, rows)
  | .get disk id owner =>
      match rows.getOwned disk id owner with
      | .ok row => (.read row, rows)
      | .error err => (.refused err, rows)
  | .update disk now id owner input =>
      match rows.updateOwned disk now id owner input with
      | (.ok row, rows) => (.written row, rows)
      | (.error err, rows) => (.refused err, rows)
  | .delete disk id owner =>
      match rows.deleteOwned disk id owner with
      | (.ok found, rows) => (.deleted found, rows)
      | (.error err, rows) => (.refused err, rows)

end DashboardRequest

def DashboardAnswer.MetNone : DashboardAnswer → Prop
  | .written _ => False
  | .read row => row = none
  | .deleted found => found = false
  | .refused _ => True

end OxidHome.Storage

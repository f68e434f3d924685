import OxidHome.Wit
import OxidHome.Library.Binary64

/-!
# The config schema and its merge with overrides

`merge` of `config.rs` and the checks that `validate` makes of `[config]`. A `BTreeMap` is the list
of its entries in key order; `showF64` is how an `f64` is printed.
-/

namespace OxidHome.Manifest
open Wit Library

inductive Toml where
  | string (s : String)
  | integer (n : Int64)
  | float (f : F64)
  | boolean (b : Bool)
  | datetime
  | array
  | table (entries : List (String × Toml))

inductive ConfigField where
  | bool (default : Option Bool)
  | int (default min max : Option Int64)
  | float (default min max : Option F64)
  | string (default : Option String)
  | enum (values : List String) (default : Option String)
  | nested (fields : List (String × ConfigField))

inductive ConfigValue where
  | bool (b : Bool)
  | int (n : Int64)
  | float (f : F64)
  | string (s : String)
  | nested (entries : List (String × ConfigValue))

abbrev ConfigFields := List (String × ConfigField)
abbrev Table := List (String × Toml)
abbrev InstanceConfig := List (String × ConfigValue)

inductive ValidationError where
  | configEnumDefaultOutOfRange (path got : String) (allowed : List String)
  | configIntDefaultOutOfRange (path : String) (got : Int64) (min max : Option Int64)
  | configFloatDefaultOutOfRange (path : String) (got : F64) (min max : Option F64)
  | configEnumEmpty (path : String)
  | configFieldNameContainsDot (parent name : String)
  | configIntRangeInvalid (path : String) (min max : Int64)
  | configFloatRangeInvalid (path : String) (min max : F64)
  | configFloatNotFinite (path role : String) (got : F64)
  | unknownConfigKey (key : String)
  | configRequired (path : String)
  | configTypeMismatch (path expected got : String)
  | configOutOfRange (path bound got : String)
  | configEnumOutOfRange (path got : String) (allowed : List String)
  | configOverrideShape (path : String)

inductive ValueSource where
  | default
  | override

namespace Toml

def typeName : Toml → String
  | .string _ => "string"
  | .integer _ => "int"
  | .float _ => "float"
  | .boolean _ => "bool"
  | .datetime => "datetime"
  | .array => "array"
  | .table _ => "table"

def asBool : Toml → Option Bool
  | .boolean b => some b
  | _ => none

def asInteger : Toml → Option Int64
  | .integer n => some n
  | _ => none

/-- An integer literal is read as a float. -/
def asFloat : Toml → Option F64
  | .float f => some f
  | .integer n => some ⟨Binary64.ofInt n.toInt⟩
  | _ => none

def asStr : Toml → Option String
  | .string s => some s
  | _ => none

end Toml

/-- `BTreeMap::get` -/
def get {α : Type} (entries : List (String × α)) (key : String) : Option α :=
  (entries.find? fun entry => entry.1 = key).map Prod.snd

def isFinite (f : F64) : Bool := Binary64.isFinite f.bits
def intLt (a b : Int64) : Bool := a < b
def floatLt (a b : F64) : Bool := Binary64.lt a.bits b.bits

section
variable {α : Type} (lt : α → α → Bool)

def invertedBounds : Option α → Option α → Option (α × α)
  | some min, some max => if lt max min then some (min, max) else none
  | _, _ => none

def outsideErrors (val : α) (min max : Option α) (error : ValidationError) : List ValidationError :=
  (if min.any (lt val ·) then [error] else []) ++ if max.any (lt · val) then [error] else []

/-- `>= min` or `<= max` -/
def boundText (show_ : α → String) (val : α) (min max : Option α) : String :=
  match min.filter (lt val ·), max with
  | some min, _ => ">= " ++ show_ min
  | none, some max => "<= " ++ show_ max
  | none, none => "(unspecified)"

end

def showInt (n : Int64) : String := toString n.toInt

def intOutOfRange (path : String) (val : Int64) (min max : Option Int64) :
    ValueSource → ValidationError
  | .default => .configIntDefaultOutOfRange path val min max
  | .override => .configOutOfRange path (boundText intLt showInt val min max) (showInt val)

def checkRange (path : String) (val : Int64) (min max : Option Int64) (source : ValueSource) :
    List ValidationError :=
  match invertedBounds intLt min max with
  | some (min, max) => [.configIntRangeInvalid path min max]
  | none => outsideErrors intLt val min max (intOutOfRange path val min max source)

def checkFloatFinite (path : String) (v : Option F64) (role : String) : List ValidationError :=
  match v with
  | some v => if isFinite v then [] else [.configFloatNotFinite path role v]
  | none => []

section
variable (showF64 : F64 → String)

def floatOutOfRange (path : String) (val : F64) (min max : Option F64) :
    ValueSource → ValidationError
  | .default => .configFloatDefaultOutOfRange path val min max
  | .override => .configOutOfRange path (boundText floatLt showF64 val min max) (showF64 val)

def checkRangeF (path : String) (val : F64) (min max : Option F64) (source : ValueSource) :
    List ValidationError :=
  let broken := checkFloatFinite path min "min" ++ checkFloatFinite path max "max"
  if broken ≠ [] then broken
  else
    match invertedBounds floatLt min max with
    | some (min, max) => [.configFloatRangeInvalid path min max]
    | none => outsideErrors floatLt val min max (floatOutOfRange showF64 path val min max source)

abbrev Resolved := List ValidationError × Option ConfigValue

def resolveLeaf {α : Type} (path expected : String) (read : Toml → Option α) (default : Option α)
    (override : Option Toml) (check : α → ValueSource → Resolved) : Resolved :=
  match override with
  | some v =>
    match read v with
    | some a => check a .override
    | none => ([.configTypeMismatch path expected v.typeName], none)
  | none =>
    match default with
    | some a => check a .default
    | none => ([.configRequired path], none)

def resolveBool (path : String) (default : Option Bool) (override : Option Toml) : Resolved :=
  resolveLeaf path "bool" Toml.asBool default override fun b _ => ([], some (.bool b))

def resolveInt (path : String) (default min max : Option Int64) (override : Option Toml) :
    Resolved :=
  resolveLeaf path "int" Toml.asInteger default override fun n source =>
    (checkRange path n min max source, some (.int n))

def ValueSource.role : ValueSource → String
  | .default => "default"
  | .override => "override"

def resolveFloat (path : String) (default min max : Option F64) (override : Option Toml) :
    Resolved :=
  resolveLeaf path "float" Toml.asFloat default override fun f source =>
    if isFinite f then (checkRangeF showF64 path f min max source, some (.float f))
    else ([.configFloatNotFinite path source.role f], none)

def resolveString (path : String) (default : Option String) (override : Option Toml) : Resolved :=
  resolveLeaf path "string" Toml.asStr default override fun s _ => ([], some (.string s))

def enumOutOfRange (path got : String) (allowed : List String) : ValueSource → ValidationError
  | .default => .configEnumDefaultOutOfRange path got allowed
  | .override => .configEnumOutOfRange path got allowed

def resolveEnum (path : String) (values : List String) (default : Option String)
    (override : Option Toml) : Resolved :=
  if values = [] then ([.configEnumEmpty path], none)
  else
    resolveLeaf path "string" Toml.asStr default override fun s source =>
      if s ∈ values then ([], some (.string s))
      else ([enumOutOfRange path s values source], none)

def unknownKeys (pathOf : String → String) (fields : ConfigFields) (table : Table) :
    List ValidationError :=
  (table.filter fun entry => entry.1 ∉ fields.map Prod.fst).map fun entry =>
    .unknownConfigKey (pathOf entry.1)

def subPath (path name : String) : String := path ++ "." ++ name

mutual

def resolveField (path : String) (field : ConfigField) (override : Option Toml) : Resolved :=
  match field with
  | .bool default => resolveBool path default override
  | .int default min max => resolveInt path default min max override
  | .float default min max => resolveFloat showF64 path default min max override
  | .string default => resolveString path default override
  | .enum values default => resolveEnum path values default override
  | .nested fields =>
    match override.getD (.table []) with
    | .table table =>
      let (errors, entries) := resolveFields (subPath path) fields table
      (unknownKeys (subPath path) fields table ++ errors, some (.nested entries))
    | v => ([.configTypeMismatch path "table" v.typeName], none)

def resolveFields (pathOf : String → String) (fields : ConfigFields) (table : Table) :
    List ValidationError × InstanceConfig :=
  match fields with
  | [] => ([], [])
  | (name, field) :: fields =>
    let (errors, value) := resolveField (pathOf name) field (get table name)
    let (more, entries) := resolveFields pathOf fields table
    (errors ++ more, match value with
      | some value => (name, value) :: entries
      | none => entries)

end

def merge (config : ConfigFields) (overrides : Toml) :
    Except (List ValidationError) InstanceConfig :=
  match overrides with
  | .table table =>
    let (errors, out) := resolveFields showF64 id config table
    let errors := unknownKeys id config table ++ errors
    if errors = [] then .ok out else .error errors
  | _ => .error [.configOverrideShape "<root>"]

end

def validateIntField (path : String) (default min max : Option Int64) : List ValidationError :=
  match invertedBounds intLt min max with
  | some (min, max) => [.configIntRangeInvalid path min max]
  | none =>
    match default with
    | none => []
    | some d => outsideErrors intLt d min max (.configIntDefaultOutOfRange path d min max)

def validateFloatField (path : String) (default min max : Option F64) : List ValidationError :=
  let finite := checkFloatFinite path default "default" ++ checkFloatFinite path min "min" ++
    checkFloatFinite path max "max"
  let min' := min.filter isFinite
  let max' := max.filter isFinite
  finite ++
    match invertedBounds floatLt min' max' with
    | some (min, max) => [.configFloatRangeInvalid path min max]
    | none =>
      match default.filter isFinite with
      | none => []
      | some d => outsideErrors floatLt d min' max' (.configFloatDefaultOutOfRange path d min max)

def validateEnumField (path : String) (values : List String) (default : Option String) :
    List ValidationError :=
  (if values = [] then [.configEnumEmpty path] else []) ++
    match default with
    | some d =>
      if values ≠ [] ∧ d ∉ values then [.configEnumDefaultOutOfRange path d values] else []
    | none => []

def checkFieldName (parent name : String) : List ValidationError :=
  if '.' ∈ name.toList then [.configFieldNameContainsDot parent name] else []

mutual

def validateConfigField (path : String) : ConfigField → List ValidationError
  | .bool _ => []
  | .string _ => []
  | .int default min max => validateIntField path default min max
  | .float default min max => validateFloatField path default min max
  | .enum values default => validateEnumField path values default
  | .nested fields => validateConfigFields ("[config." ++ path ++ ".fields]") (subPath path) fields

def validateConfigFields (parent : String) (pathOf : String → String) :
    ConfigFields → List ValidationError
  | [] => []
  | (name, field) :: fields =>
    checkFieldName parent name ++ validateConfigField (pathOf name) field ++
      validateConfigFields parent pathOf fields

end

/-- `others` are the findings of the other sections of the manifest. -/
def validate (others : List ValidationError) (config : ConfigFields) :
    Except (List ValidationError) Unit :=
  let errors := others ++ validateConfigFields "[config]" id config
  if errors = [] then .ok () else .error errors

end OxidHome.Manifest

import OxidHome.Manifest.ConfigMerge

/-!
# Listing and looking up config values

`host_config` of `runtime/state.rs`: `list_config` joins the names on the way to a leaf with dots and
`get_config` splits a key at its dots. The prefix of the root is the empty text, and so is that of a
top-level field whose name is empty.
-/

namespace OxidHome.Host
open Wit Manifest

def configValueToWit : ConfigValue → Option Value
  | .bool b => some (.boolVal b)
  | .int n => some (.intVal n)
  | .float f => some (.floatVal f)
  | .string s => some (.stringVal s)
  | .nested _ => none

def walk : ConfigValue → List String → Option ConfigValue
  | current, [] => some current
  | .nested inner, next :: parts => (Manifest.get inner next).bind (walk · parts)
  | _, _ :: _ => none

def lookupLeaf (cfg : InstanceConfig) : List String → Option ConfigValue
  | [] => none
  | first :: parts => (Manifest.get cfg first).bind (walk · parts)

def splitKey (key : String) : List String := (key.toList.splitOn '.').map String.ofList

def getConfig (cfg : InstanceConfig) (key : String) : Option Value :=
  (lookupLeaf cfg (splitKey key)).bind configValueToWit

def joinKey (before name : String) : String := if before = "" then name else subPath before name

mutual

def flattenValue (key : String) : ConfigValue → List KeyValue
  | .nested inner => flattenConfig key inner
  | .bool b => [⟨key, .boolVal b⟩]
  | .int n => [⟨key, .intVal n⟩]
  | .float f => [⟨key, .floatVal f⟩]
  | .string s => [⟨key, .stringVal s⟩]

def flattenConfig (before : String) : InstanceConfig → List KeyValue
  | [] => []
  | (k, v) :: cfg => flattenValue (joinKey before k) v ++ flattenConfig before cfg

end

def listConfig (cfg : InstanceConfig) : List KeyValue := flattenConfig "" cfg

/-! ## The leaves of a config -/

mutual

def valueLeaves : ConfigValue → List (List String × Value)
  | .nested entries => leaves entries
  | .bool b => [([], .boolVal b)]
  | .int n => [([], .intVal n)]
  | .float f => [([], .floatVal f)]
  | .string s => [([], .stringVal s)]

def leaves : InstanceConfig → List (List String × Value)
  | [] => []
  | (k, v) :: entries => (valueLeaves v).map (fun leaf => (k :: leaf.1, leaf.2)) ++ leaves entries

end

mutual

/-- Names have no dot, and differ within a table. -/
def PlainValue : ConfigValue → Prop
  | .nested entries => PlainEntries entries
  | .bool _ | .int _ | .float _ | .string _ => True

def PlainEntries : InstanceConfig → Prop
  | [] => True
  | (k, v) :: entries => '.' ∉ k.toList ∧ k ∉ entries.map Prod.fst ∧ PlainValue v ∧ PlainEntries entries

end

theorem leaves_path (entries : InstanceConfig) :
    ∀ leaf ∈ leaves entries, ∃ k p, leaf.1 = k :: p ∧ k ∈ entries.map Prod.fst := by
  induction entries with
  | nil => exact fun leaf mem => absurd mem List.not_mem_nil
  | cons entry entries ih =>
      intro leaf mem
      rw [leaves] at mem
      rcases List.mem_append.mp mem with mem | mem
      · obtain ⟨inner, _, rfl⟩ := List.mem_map.mp mem
        exact ⟨_, _, rfl, List.mem_cons_self⟩
      · obtain ⟨k, p, path, here⟩ := ih leaf mem
        exact ⟨k, p, path, List.mem_cons_of_mem _ here⟩

theorem get_cons {α : Type} (k : String) (v : α) (entries : List (String × α)) (key : String) :
    Manifest.get ((k, v) :: entries) key = if k = key then some v else Manifest.get entries key := by
  unfold Manifest.get
  rw [List.find?_cons]
  by_cases here : k = key <;> simp [here]

theorem PlainEntries.get {entries : InstanceConfig} (plain : PlainEntries entries) {key : String}
    {v : ConfigValue} (found : Manifest.get entries key = some v) : PlainValue v := by
  induction entries with
  | nil => simp [Manifest.get] at found
  | cons entry entries ih =>
      rw [PlainEntries] at plain
      rw [get_cons] at found
      split at found
      · cases found
        exact plain.2.2.1
      · exact ih plain.2.2.2 found

mutual

theorem walk_iff (v : ConfigValue) (plain : PlainValue v) (path : List String) (value : Value) :
    (walk v path).bind configValueToWit = some value ↔ (path, value) ∈ valueLeaves v := by
  match v with
  | .nested entries =>
      rw [PlainValue] at plain
      rw [valueLeaves]
      cases path with
      | nil =>
          refine iff_of_false (by simp [walk, configValueToWit]) fun mem => ?_
          obtain ⟨k, p, path, _⟩ := leaves_path entries _ mem
          cases path
      | cons next parts =>
          have lookup := lookup_iff entries plain next parts value
          rw [walk]
          exact lookup
  | .bool b => cases path <;> simp [walk, configValueToWit, valueLeaves, eq_comm]
  | .int n => cases path <;> simp [walk, configValueToWit, valueLeaves, eq_comm]
  | .float f => cases path <;> simp [walk, configValueToWit, valueLeaves, eq_comm]
  | .string s => cases path <;> simp [walk, configValueToWit, valueLeaves, eq_comm]

theorem lookup_iff (entries : InstanceConfig) (plain : PlainEntries entries) (first : String)
    (parts : List String) (value : Value) :
    ((Manifest.get entries first).bind (walk · parts)).bind configValueToWit = some value ↔
      (first :: parts, value) ∈ leaves entries := by
  match entries with
  | [] => simp [Manifest.get, leaves]
  | (k, v) :: entries =>
      rw [PlainEntries] at plain
      obtain ⟨_, absent, plainValue, plainEntries⟩ := plain
      rw [get_cons, leaves, List.mem_append]
      by_cases here : k = first
      · subst here
        rw [if_pos rfl, Option.bind_some, walk_iff v plainValue parts value]
        have others : (k :: parts, value) ∉ leaves entries := by
          intro mem
          obtain ⟨k', p, path, known⟩ := leaves_path entries _ mem
          cases path
          exact absent known
        simp [others]
      · rw [if_neg here, lookup_iff entries plainEntries first parts value]
        simp [here]

end

mutual

theorem valueLeaves_nodup (v : ConfigValue) (plain : PlainValue v) :
    ((valueLeaves v).map Prod.fst).Nodup := by
  match v with
  | .nested entries =>
      rw [PlainValue] at plain
      rw [valueLeaves]
      exact leaves_nodup entries plain
  | .bool b => simp [valueLeaves]
  | .int n => simp [valueLeaves]
  | .float f => simp [valueLeaves]
  | .string s => simp [valueLeaves]

theorem leaves_nodup (entries : InstanceConfig) (plain : PlainEntries entries) :
    ((leaves entries).map Prod.fst).Nodup := by
  match entries with
  | [] => simp [leaves]
  | (k, v) :: entries =>
      rw [PlainEntries] at plain
      obtain ⟨_, absent, plainValue, plainEntries⟩ := plain
      rw [leaves, List.map_append, List.map_map]
      refine List.Nodup.append ?_ (leaves_nodup entries plainEntries) ?_
      · have inner := valueLeaves_nodup v plainValue
        have heads : ((valueLeaves v).map Prod.fst).map (k :: ·) =
            (valueLeaves v).map (Prod.fst ∘ fun leaf => (k :: leaf.1, leaf.2)) := by
          rw [List.map_map]
          rfl
        rw [← heads]
        exact inner.map fun a b same => (List.cons.inj same).2
      · intro path first rest
        obtain ⟨leaf, _, rfl⟩ := List.mem_map.mp first
        obtain ⟨other, mem, same⟩ := List.mem_map.mp rest
        obtain ⟨k', p, path, known⟩ := leaves_path entries other mem
        rw [path] at same
        cases same
        exact absent known

end

/-! ## Keys -/

def joinPath (before : String) (path : List String) : String := path.foldl joinKey before

mutual

theorem flattenValue_eq (key : String) (v : ConfigValue) :
    flattenValue key v = (valueLeaves v).map fun leaf => ⟨joinPath key leaf.1, leaf.2⟩ := by
  match v with
  | .nested entries =>
      rw [flattenValue, valueLeaves]
      exact flattenConfig_eq key entries
  | .bool b => simp [flattenValue, valueLeaves, joinPath]
  | .int n => simp [flattenValue, valueLeaves, joinPath]
  | .float f => simp [flattenValue, valueLeaves, joinPath]
  | .string s => simp [flattenValue, valueLeaves, joinPath]

theorem flattenConfig_eq (before : String) (entries : InstanceConfig) :
    flattenConfig before entries =
      (leaves entries).map fun leaf => ⟨joinPath before leaf.1, leaf.2⟩ := by
  match entries with
  | [] => simp [flattenConfig, leaves]
  | (k, v) :: entries =>
      rw [flattenConfig, leaves, flattenValue_eq, flattenConfig_eq, List.map_append, List.map_map]
      rfl

end

def Dotless (path : List String) : Prop := ∀ name ∈ path, '.' ∉ name.toList

mutual

theorem valueLeaves_dotless (v : ConfigValue) (plain : PlainValue v) :
    ∀ leaf ∈ valueLeaves v, Dotless leaf.1 := by
  match v with
  | .nested entries =>
      rw [PlainValue] at plain
      rw [valueLeaves]
      exact leaves_dotless entries plain
  | .bool b => simp [valueLeaves, Dotless]
  | .int n => simp [valueLeaves, Dotless]
  | .float f => simp [valueLeaves, Dotless]
  | .string s => simp [valueLeaves, Dotless]

theorem leaves_dotless (entries : InstanceConfig) (plain : PlainEntries entries) :
    ∀ leaf ∈ leaves entries, Dotless leaf.1 := by
  match entries with
  | [] => simp [leaves]
  | (k, v) :: entries =>
      rw [PlainEntries] at plain
      obtain ⟨dotless, _, plainValue, plainEntries⟩ := plain
      intro leaf mem
      rw [leaves] at mem
      rcases List.mem_append.mp mem with mem | mem
      · obtain ⟨inner, here, rfl⟩ := List.mem_map.mp mem
        rw [Dotless, List.forall_mem_cons]
        exact ⟨dotless, valueLeaves_dotless v plainValue inner here⟩
      · exact leaves_dotless entries plainEntries leaf mem

end

theorem splitKey_join {path : List String} (dotless : Dotless path) (nonempty : path ≠ []) :
    splitKey (String.intercalate "." path) = path := by
  have parts : (String.intercalate "." path).toList = ['.'].intercalate (path.map String.toList) :=
    String.toList_intercalate
  have names : ∀ l ∈ path.map String.toList, '.' ∉ l := by
    intro l mem
    obtain ⟨name, here, rfl⟩ := List.mem_map.mp mem
    exact dotless name here
  have some_ : path.map String.toList ≠ [] := by simpa using nonempty
  rw [splitKey, parts, List.splitOn_intercalate _ names some_, List.map_map]
  simp [Function.comp_def]

theorem join_splitKey (key : String) : String.intercalate "." (splitKey key) = key := by
  apply String.toList_injective
  have chars : (splitKey key).map String.toList = key.toList.splitOn '.' := by
    simp [splitKey, List.map_map, Function.comp_def]
  have dot : ".".toList = ['.'] := rfl
  rw [String.toList_intercalate, chars, dot, List.intercalate_splitOn]

theorem joinPath_eq {key : String} (named : key ≠ "") (path : List String) :
    joinPath key path = String.intercalate "." (key :: path) := by
  induction path generalizing key with
  | nil => exact String.intercalate_singleton.symm
  | cons name path ih =>
      have step : joinPath key (name :: path) = joinPath (subPath key name) path := by
        rw [joinPath, List.foldl_cons, joinKey, if_neg named, ← joinPath]
      have more : subPath key name ≠ "" := by
        intro empty
        have size := congrArg (fun s => s.toList.length) empty
        simp [subPath] at size
      rw [step, ih more, String.intercalate_cons_cons]
      cases path with
      | nil => simp [subPath, String.append_assoc]
      | cons next path =>
          rw [String.intercalate_cons_cons, String.intercalate_cons_cons]
          simp [subPath, String.append_assoc]

/-- The path does not start below a top-level field without a name. -/
def Rooted : List String → Prop
  | [] => False
  | [_] => True
  | first :: _ => first ≠ ""

theorem joinPath_rooted {path : List String} (rooted : Rooted path) :
    joinPath "" path = String.intercalate "." path := by
  match path with
  | [] => exact rooted.elim
  | [name] => simp [joinPath, joinKey]
  | first :: second :: path =>
      have named : first ≠ "" := rooted
      have step : joinPath "" (first :: second :: path) = joinPath first (second :: path) := rfl
      rw [step, joinPath_eq named]

theorem joinPath_head {key : String} (plain : key.toList.head? ≠ some '.') {path : List String}
    (dotless : Dotless path) : (joinPath key path).toList.head? ≠ some '.' := by
  induction path generalizing key with
  | nil => exact plain
  | cons name path ih =>
      obtain ⟨here, rest⟩ := List.forall_mem_cons.mp dotless
      have step : joinPath key (name :: path) = joinPath (joinKey key name) path := rfl
      rw [step]
      apply ih ?_ rest
      unfold joinKey
      split
      · exact fun first => here (List.mem_of_head? first)
      · next named =>
          have nonempty : key.toList ≠ [] := fun nil => named (String.toList_eq_nil_iff.mp nil)
          rw [subPath, String.toList_append, String.toList_append, List.append_assoc,
            List.head?_append_of_ne_nil _ nonempty]
          exact plain

/-! ## When listing and lookup agree -/

structure ListingAgrees (c : InstanceConfig) : Prop where
  agrees : ∀ key value, ⟨key, value⟩ ∈ listConfig c ↔ getConfig c key = some value
  distinct : ((listConfig c).map KeyValue.key).Nodup
  reachable : ∀ path leaf, lookupLeaf c path = some leaf → (configValueToWit leaf).isSome →
    ∃! key, key ∈ (listConfig c).map KeyValue.key ∧ splitKey key = path

theorem mem_listConfig {c : InstanceConfig} {key : String} {value : Value} :
    ⟨key, value⟩ ∈ listConfig c ↔ ∃ path, (path, value) ∈ leaves c ∧ joinPath "" path = key := by
  rw [listConfig, flattenConfig_eq, List.mem_map]
  constructor
  · rintro ⟨⟨path, v⟩, mem, same⟩
    cases same
    exact ⟨path, mem, rfl⟩
  · rintro ⟨path, mem, rfl⟩
    exact ⟨(path, value), mem, rfl⟩

theorem mem_listedKeys {c : InstanceConfig} {key : String} :
    key ∈ (listConfig c).map KeyValue.key ↔
      ∃ path value, (path, value) ∈ leaves c ∧ joinPath "" path = key := by
  rw [List.mem_map]
  constructor
  · rintro ⟨⟨key, value⟩, mem, rfl⟩
    obtain ⟨path, here, same⟩ := mem_listConfig.mp mem
    exact ⟨path, value, here, same⟩
  · rintro ⟨path, value, mem, same⟩
    exact ⟨⟨key, value⟩, mem_listConfig.mpr ⟨path, mem, same⟩, rfl⟩

theorem lookupLeaf_iff {c : InstanceConfig} (plain : PlainEntries c) (path : List String)
    (value : Value) :
    (lookupLeaf c path).bind configValueToWit = some value ↔ (path, value) ∈ leaves c := by
  cases path with
  | nil =>
      refine iff_of_false (by simp [lookupLeaf]) fun mem => ?_
      obtain ⟨k, p, path, _⟩ := leaves_path c _ mem
      cases path
  | cons first parts => exact lookup_iff c plain first parts value

section
variable {c : InstanceConfig} (plain : PlainEntries c)
include plain

theorem agrees_of_rooted (rooted : ∀ leaf ∈ leaves c, Rooted leaf.1) : ListingAgrees c := by
  have split_ (path : List String) (value : Value) (mem : (path, value) ∈ leaves c) :
      splitKey (joinPath "" path) = path := by
    have root := rooted _ mem
    have nonempty : path ≠ [] := by
      rintro rfl
      exact root
    rw [joinPath_rooted root, splitKey_join (leaves_dotless c plain _ mem) nonempty]
  refine ⟨fun key value => ?_, ?_, fun path leaf found isLeaf => ?_⟩
  · rw [mem_listConfig, getConfig, lookupLeaf_iff plain]
    constructor
    · rintro ⟨path, mem, rfl⟩
      rwa [split_ path value mem]
    · intro mem
      exact ⟨splitKey key, mem, by rw [joinPath_rooted (rooted _ mem), join_splitKey]⟩
  · have keys : (listConfig c).map KeyValue.key =
        ((leaves c).map Prod.fst).map (joinPath "") := by
      rw [listConfig, flattenConfig_eq, List.map_map, List.map_map]
      rfl
    rw [keys]
    apply (leaves_nodup c plain).map_on
    intro a memA b memB same
    obtain ⟨⟨first, x⟩, leafA, rfl⟩ := List.mem_map.mp memA
    obtain ⟨⟨second, y⟩, leafB, rfl⟩ := List.mem_map.mp memB
    show first = second
    rw [← split_ first x leafA, ← split_ second y leafB, same]
  · obtain ⟨value, isValue⟩ := Option.isSome_iff_exists.mp isLeaf
    have mem : (path, value) ∈ leaves c := by
      rw [← lookupLeaf_iff plain, found, Option.bind_some, isValue]
    refine ⟨joinPath "" path, ⟨mem_listedKeys.mpr ⟨path, value, mem, rfl⟩, split_ path value mem⟩, ?_⟩
    rintro key ⟨listed, same⟩
    obtain ⟨path', value', mem', rfl⟩ := mem_listedKeys.mp listed
    rw [split_ path' value' mem'] at same
    rw [same]

theorem rooted_of_agrees (agrees : ListingAgrees c) : ∀ leaf ∈ leaves c, Rooted leaf.1 := by
  rintro ⟨path, value⟩ mem
  match path, mem with
  | [], mem =>
      obtain ⟨k, p, path, _⟩ := leaves_path c _ mem
      cases path
  | [_], _ => trivial
  | first :: second :: rest, mem =>
      show first ≠ ""
      rintro rfl
      have dotless := leaves_dotless c plain _ mem
      have parts : splitKey (String.intercalate "." ("" :: second :: rest)) = "" :: second :: rest :=
        splitKey_join dotless (by simp)
      have found : getConfig c (String.intercalate "." ("" :: second :: rest)) = some value := by
        rw [getConfig, parts, lookupLeaf_iff plain]
        exact mem
      obtain ⟨path, listed, same⟩ := mem_listConfig.mp ((agrees.agrees _ value).mpr found)
      have undotted : "".toList.head? ≠ some '.' := by simp
      have head := joinPath_head undotted (leaves_dotless c plain _ listed)
      rw [same] at head
      apply head
      rw [String.intercalate_cons_cons]
      simp

theorem rooted_iff : (∀ leaf ∈ leaves c, Rooted leaf.1) ↔
    ∀ inner, Manifest.get c "" = some (.nested inner) → leaves inner = [] := by
  constructor
  · intro rooted inner found
    by_contra some_
    obtain ⟨⟨path, value⟩, mem⟩ := List.exists_mem_of_ne_nil _ some_
    obtain ⟨k, p, rfl, _⟩ := leaves_path inner _ mem
    have plainInner : PlainValue (.nested inner) := by
      have below := PlainEntries.get plain found
      exact below
    rw [PlainValue] at plainInner
    have reached : ("" :: k :: p, value) ∈ leaves c := by
      rw [← lookup_iff c plain, found, Option.bind_some, walk_iff _ (by rwa [PlainValue]), valueLeaves]
      exact mem
    exact rooted _ reached rfl
  · intro empty leaf mem
    obtain ⟨path, value⟩ := leaf
    match path, mem with
    | [], mem =>
        obtain ⟨k, p, path, _⟩ := leaves_path c _ mem
        cases path
    | [_], _ => trivial
    | first :: second :: rest, mem =>
        show first ≠ ""
        rintro rfl
        rw [← lookup_iff c plain] at mem
        cases found : Manifest.get c "" with
        | none => simp [found] at mem
        | some v =>
            have plainValue := PlainEntries.get plain found
            rw [found, Option.bind_some, walk_iff v plainValue] at mem
            cases v with
            | nested inner =>
                rw [valueLeaves, empty inner found] at mem
                cases mem
            | _ => simp [valueLeaves] at mem

end

/-! ## Merged configs -/

mutual

def FieldOrdered : ConfigField → Prop
  | .nested fields => FieldsOrdered fields
  | .bool _ | .int .. | .float .. | .string _ | .enum .. => True

def FieldsOrdered : ConfigFields → Prop
  | [] => True
  | (name, field) :: fields =>
    (∀ other ∈ fields.map Prod.fst, name < other) ∧ FieldOrdered field ∧ FieldsOrdered fields

end

structure ConfigSchema where
  fields : ConfigFields
  ordered : FieldsOrdered fields

theorem resolvesAll_names {fields : ConfigFields} {table : Table} {entries : InstanceConfig}
    (all : ResolvesAll fields table entries) : entries.map Prod.fst = fields.map Prod.fst := by
  induction fields generalizing entries with
  | nil =>
      cases all
      rfl
  | cons field fields ih =>
      cases all with
      | cons _ rest => rw [List.map_cons, List.map_cons, ih rest]

theorem dotless_of_checked {parent name : String} (checked : checkFieldName parent name = []) :
    '.' ∉ name.toList := by
  intro dot
  simp [checkFieldName, dot] at checked

mutual

theorem resolves_plain (path : String) (field : ConfigField) (override : Option Toml)
    (value : ConfigValue) (valid : validateConfigField path field = []) (ordered : FieldOrdered field)
    (resolves : Resolves field override value) : PlainValue value := by
  match field with
  | .bool _ | .int .. | .float .. | .string _ | .enum .. =>
      cases resolves
      all_goals
        rw [PlainValue]
        trivial
  | .nested fields =>
      rw [validateConfigField] at valid
      rw [FieldOrdered] at ordered
      cases resolves with
      | nested _ _ all =>
          rw [PlainValue]
          exact resolvesAll_plain _ _ fields _ _ valid ordered all

theorem resolvesAll_plain (parent : String) (pathOf : String → String) (fields : ConfigFields)
    (table : Table) (entries : InstanceConfig)
    (valid : validateConfigFields parent pathOf fields = []) (ordered : FieldsOrdered fields)
    (all : ResolvesAll fields table entries) : PlainEntries entries := by
  match fields with
  | [] =>
      cases all
      rw [PlainEntries]
      trivial
  | (name, field) :: fields =>
      rw [validateConfigFields, List.append_eq_nil_iff, List.append_eq_nil_iff] at valid
      rw [FieldsOrdered] at ordered
      cases all with
      | cons first rest =>
          rw [PlainEntries]
          refine ⟨dotless_of_checked valid.1.1, ?_, resolves_plain _ field _ _ valid.1.2 ordered.2.1 first,
            resolvesAll_plain parent pathOf fields table _ valid.2 ordered.2.2 rest⟩
          rw [resolvesAll_names rest]
          exact fun again => lt_irrefl _ (ordered.1 name again)

end

theorem config_listing_agrees_iff (showF64 : F64 → String) (schema : ConfigSchema)
    (others : List ValidationError) (overrides : Toml) (c : InstanceConfig)
    (valid : validate others schema.fields = .ok ())
    (merged : merge showF64 schema.fields overrides = .ok c) :
    ListingAgrees c ↔ ∀ inner, Manifest.get c "" = some (.nested inner) → leaves inner = [] := by
  obtain ⟨_, valid⟩ := validate_eq_ok.mp valid
  obtain ⟨table, _, _, all⟩ := merge_eq_ok.mp merged
  have plain := resolvesAll_plain _ id schema.fields table c valid schema.ordered all
  rw [← rooted_iff plain]
  exact ⟨rooted_of_agrees plain, agrees_of_rooted plain⟩

theorem config_listing_agrees_broker :
    ListingAgrees [("broker", .nested [("host", .string "localhost"), ("port", .int 1883)])] ↔
      ∀ inner, Manifest.get [("broker", ConfigValue.nested [("host", .string "localhost"),
        ("port", .int 1883)])] "" = some (.nested inner) → leaves inner = [] :=
  config_listing_agrees_iff (fun _ => "")
    ⟨[("broker", .nested [("host", .string (some "localhost")), ("port", .int none (some 1) none)])], by
      simp only [FieldsOrdered, FieldOrdered]
      decide⟩
    [] (.table [("broker", .table [("port", .integer 1883)])]) _ rfl rfl

theorem unnamed_table_is_listed_elsewhere :
    ¬ ∀ (showF64 : F64 → String) (schema : ConfigSchema) (others : List ValidationError)
      (overrides : Toml) (c : InstanceConfig), validate others schema.fields = .ok () →
      merge showF64 schema.fields overrides = .ok c → ListingAgrees c := by
  intro claim
  have agrees := claim (fun _ => "")
    ⟨[("", .nested [("host", .string (some "localhost"))])], by simp [FieldsOrdered, FieldOrdered]⟩
    [] (.table []) [("", .nested [("host", .string "localhost")])] rfl rfl
  have listed := (agrees.agrees "host" (.stringVal "localhost")).mp (by simp [listConfig, flattenConfig,
    flattenValue, joinKey])
  have parts : splitKey "host" = ["host"] := by decide
  simp [getConfig, parts, lookupLeaf, Manifest.get] at listed

end OxidHome.Host

import OxidHome.Manifest.Config

/-!
# What a merged config holds

`merge` succeeds exactly when every field has a legal effective value, and then holds these values
under the keys of the schema. After `validate`, only overrides and missing values make it fail.
-/

namespace OxidHome.Manifest
open Wit Library

/-! ## Effective values -/

def Effective {α : Type} (read : Toml → Option α) (default : Option α) (override : Option Toml)
    (a : α) : Prop :=
  match override with
  | some v => read v = some a
  | none => default = some a

structure IntBounds (min max : Option Int64) (n : Int64) : Prop where
  consistent : ∀ a b, min = some a → max = some b → a ≤ b
  above : ∀ a, min = some a → a ≤ n
  below : ∀ b, max = some b → n ≤ b

def floatLe (a b : F64) : Prop := Binary64.le a.bits b.bits = true

structure FloatBounds (min max : Option F64) (f : F64) : Prop where
  finite : ∀ a, min = some a ∨ max = some a → isFinite a = true
  consistent : ∀ a b, min = some a → max = some b → floatLe a b
  above : ∀ a, min = some a → floatLe a f
  below : ∀ b, max = some b → floatLe f b

def Declared (fields : ConfigFields) (table : Table) : Prop :=
  ∀ key ∈ table.map Prod.fst, key ∈ fields.map Prod.fst

mutual

/-- A field and its override have a legal effective value. -/
inductive Resolves : ConfigField → Option Toml → ConfigValue → Prop where
  | bool {default override b} : Effective Toml.asBool default override b →
      Resolves (.bool default) override (.bool b)
  | int {default min max override n} : Effective Toml.asInteger default override n →
      IntBounds min max n → Resolves (.int default min max) override (.int n)
  | float {default min max override f} : Effective Toml.asFloat default override f →
      isFinite f = true → FloatBounds min max f →
      Resolves (.float default min max) override (.float f)
  | string {default override s} : Effective Toml.asStr default override s →
      Resolves (.string default) override (.string s)
  | enum {values default override s} : Effective Toml.asStr default override s → s ∈ values →
      Resolves (.enum values default) override (.string s)
  | nested {fields table entries} {override : Option Toml} :
      override = some (.table table) ∨ override = none ∧ table = [] →
      Declared fields table → ResolvesAll fields table entries →
      Resolves (.nested fields) override (.nested entries)

inductive ResolvesAll : ConfigFields → Table → InstanceConfig → Prop where
  | nil {table} : ResolvesAll [] table []
  | cons {name field fields table value entries} : Resolves field (get table name) value →
      ResolvesAll fields table entries →
      ResolvesAll ((name, field) :: fields) table ((name, value) :: entries)

end

/-! ## Leaves -/

section
variable {α : Type} {path expected : String} {read : Toml → Option α} {default : Option α}
  {override : Option Toml} {check : α → ValueSource → Resolved}

def sourceOf : Option Toml → ValueSource
  | some _ => .override
  | none => .default

theorem resolveLeaf_eq {value : ConfigValue} :
    resolveLeaf path expected read default override check = ([], some value) ↔
      ∃ a, Effective read default override a ∧ check a (sourceOf override) = ([], some value) := by
  unfold resolveLeaf Effective sourceOf
  cases override with
  | some v => cases parsed : read v <;> simp [parsed]
  | none => cases default <;> simp

end

section
variable {α : Type} {lt : α → α → Bool} {min max : Option α}

theorem invertedBounds_eq_none :
    invertedBounds lt min max = none ↔ ∀ a b, min = some a → max = some b → lt b a = false := by
  cases min with
  | none => simp [invertedBounds]
  | some a => cases max <;> simp [invertedBounds]

theorem outsideErrors_eq_nil {val : α} {error : ValidationError} :
    outsideErrors lt val min max error = [] ↔
      (∀ a, min = some a → lt val a = false) ∧ ∀ b, max = some b → lt b val = false := by
  cases min <;> cases max <;> simp [outsideErrors]

theorem mem_outsideErrors {val : α} {error e : ValidationError}
    (mem : e ∈ outsideErrors lt val min max error) : e = error := by
  unfold outsideErrors at mem
  rcases List.mem_append.mp mem with mem | mem
  · split at mem <;> simp_all
  · split at mem <;> simp_all

end

theorem intLt_eq_false {a b : Int64} : intLt a b = false ↔ b ≤ a := by
  rw [intLt, decide_eq_false_iff_not, Int64.not_lt]

theorem floatLt_eq_false {a b : F64} (finiteA : isFinite a = true) (finiteB : isFinite b = true) :
    floatLt a b = false ↔ floatLe b a :=
  Binary64.lt_eq_false_iff (Binary64.not_isNan_of_isFinite finiteA)
    (Binary64.not_isNan_of_isFinite finiteB)

theorem checkRange_eq_nil {path : String} {val : Int64} {min max : Option Int64}
    {source : ValueSource} : checkRange path val min max source = [] ↔ IntBounds min max val := by
  unfold checkRange
  cases inverted : invertedBounds intLt min max with
  | some bounds =>
      refine iff_of_false (by simp) fun within => ?_
      have none : invertedBounds intLt min max = none :=
        invertedBounds_eq_none.mpr fun a b isMin isMax =>
          intLt_eq_false.mpr (within.consistent a b isMin isMax)
      rw [inverted] at none
      cases none
  | none =>
      simp only [outsideErrors_eq_nil, intLt_eq_false]
      have consistent := invertedBounds_eq_none.mp inverted
      exact ⟨fun ⟨above, below⟩ => ⟨fun a b isMin isMax => intLt_eq_false.mp (consistent a b isMin isMax),
        above, below⟩, fun within => ⟨within.above, within.below⟩⟩

theorem checkFloatFinite_eq_nil {path role : String} {v : Option F64} :
    checkFloatFinite path v role = [] ↔ ∀ a, v = some a → isFinite a = true := by
  cases v <;> simp [checkFloatFinite]

section
variable {showF64 : F64 → String}

theorem checkRangeF_eq_nil {path : String} {val : F64} (finite : isFinite val = true)
    {min max : Option F64} {source : ValueSource} :
    checkRangeF showF64 path val min max source = [] ↔ FloatBounds min max val := by
  unfold checkRangeF
  dsimp only
  by_cases broken : checkFloatFinite path min "min" ++ checkFloatFinite path max "max" = []
  · rw [if_neg (not_not_intro broken)]
    obtain ⟨minFinite, maxFinite⟩ := List.append_eq_nil_iff.mp broken
    rw [checkFloatFinite_eq_nil] at minFinite maxFinite
    have bounds : ∀ a, min = some a ∨ max = some a → isFinite a = true := by
      rintro a (isMin | isMax)
      · exact minFinite a isMin
      · exact maxFinite a isMax
    have order (a b : F64) (isMin : min = some a) (isMax : max = some b) :
        floatLt b a = false ↔ floatLe a b :=
      floatLt_eq_false (maxFinite b isMax) (minFinite a isMin)
    cases inverted : invertedBounds floatLt min max with
    | some pair =>
        refine iff_of_false (by simp) fun within => ?_
        have none : invertedBounds floatLt min max = none :=
          invertedBounds_eq_none.mpr fun a b isMin isMax =>
            (order a b isMin isMax).mpr (within.consistent a b isMin isMax)
        rw [inverted] at none
        cases none
    | none =>
        have consistent := invertedBounds_eq_none.mp inverted
        simp only [outsideErrors_eq_nil]
        constructor
        · rintro ⟨above, below⟩
          exact ⟨bounds, fun a b isMin isMax => (order a b isMin isMax).mp (consistent a b isMin isMax),
            fun a isMin => (floatLt_eq_false finite (minFinite a isMin)).mp (above a isMin),
            fun b isMax => (floatLt_eq_false (maxFinite b isMax) finite).mp (below b isMax)⟩
        · intro within
          exact ⟨fun a isMin => (floatLt_eq_false finite (minFinite a isMin)).mpr (within.above a isMin),
            fun b isMax => (floatLt_eq_false (maxFinite b isMax) finite).mpr (within.below b isMax)⟩
  · rw [if_pos broken]
    refine iff_of_false broken fun within => broken ?_
    rw [List.append_eq_nil_iff, checkFloatFinite_eq_nil, checkFloatFinite_eq_nil]
    exact ⟨fun a isMin => within.finite a (.inl isMin), fun a isMax => within.finite a (.inr isMax)⟩

/-! ## Fields -/

theorem unknownKeys_eq_nil {pathOf : String → String} {fields : ConfigFields} {table : Table} :
    unknownKeys pathOf fields table = [] ↔ Declared fields table := by
  unfold unknownKeys Declared
  rw [List.map_eq_nil_iff, List.filter_eq_nil_iff, List.forall_mem_map]
  simp

theorem resolves_bool {path : String} {default : Option Bool} {override : Option Toml}
    {value : ConfigValue} : resolveBool path default override = ([], some value) ↔
      Resolves (.bool default) override value := by
  rw [resolveBool, resolveLeaf_eq]
  constructor
  · rintro ⟨b, effective, same⟩
    cases same
    exact .bool effective
  · intro resolves
    cases resolves with
    | bool effective => exact ⟨_, effective, rfl⟩

theorem resolves_int {path : String} {default min max : Option Int64} {override : Option Toml}
    {value : ConfigValue} : resolveInt path default min max override = ([], some value) ↔
      Resolves (.int default min max) override value := by
  rw [resolveInt, resolveLeaf_eq]
  constructor
  · rintro ⟨n, effective, same⟩
    simp only [Prod.mk.injEq, Option.some.injEq] at same
    obtain ⟨fine, rfl⟩ := same
    exact .int effective (checkRange_eq_nil.mp fine)
  · intro resolves
    cases resolves with
    | int effective within =>
        refine ⟨_, effective, ?_⟩
        rw [checkRange_eq_nil.mpr within]

theorem resolves_float {path : String} {default min max : Option F64} {override : Option Toml}
    {value : ConfigValue} :
    resolveFloat showF64 path default min max override = ([], some value) ↔
      Resolves (.float default min max) override value := by
  rw [resolveFloat, resolveLeaf_eq]
  constructor
  · rintro ⟨f, effective, same⟩
    split at same
    · next finite =>
        simp only [Prod.mk.injEq, Option.some.injEq] at same
        obtain ⟨fine, rfl⟩ := same
        exact .float effective finite ((checkRangeF_eq_nil finite).mp fine)
    · simp at same
  · intro resolves
    cases resolves with
    | float effective finite within =>
        refine ⟨_, effective, ?_⟩
        rw [if_pos finite, (checkRangeF_eq_nil finite).mpr within]

theorem resolves_string {path : String} {default : Option String} {override : Option Toml}
    {value : ConfigValue} : resolveString path default override = ([], some value) ↔
      Resolves (.string default) override value := by
  rw [resolveString, resolveLeaf_eq]
  constructor
  · rintro ⟨s, effective, same⟩
    cases same
    exact .string effective
  · intro resolves
    cases resolves with
    | string effective => exact ⟨_, effective, rfl⟩

theorem resolves_enum {path : String} {values : List String} {default : Option String}
    {override : Option Toml} {value : ConfigValue} :
    resolveEnum path values default override = ([], some value) ↔
      Resolves (.enum values default) override value := by
  unfold resolveEnum
  by_cases empty : values = []
  · rw [if_pos empty]
    refine iff_of_false (by simp) fun resolves => ?_
    cases resolves with
    | enum _ allowed => exact List.ne_nil_of_mem allowed empty
  · rw [if_neg empty, resolveLeaf_eq]
    constructor
    · rintro ⟨s, effective, same⟩
      split at same
      · next allowed =>
          cases same
          exact .enum effective allowed
      · simp at same
    · intro resolves
      cases resolves with
      | enum effective allowed => exact ⟨_, effective, if_pos allowed⟩

def Settled (resolved : Resolved) : Prop := resolved.2 = none → resolved.1 ≠ []

theorem resolveLeaf_settled {α : Type} {path expected : String} {read : Toml → Option α}
    {default : Option α} {override : Option Toml} {check : α → ValueSource → Resolved}
    (settled : ∀ a source, Settled (check a source)) :
    Settled (resolveLeaf path expected read default override check) := by
  unfold resolveLeaf
  split
  · split
    · exact settled _ _
    · exact fun _ => List.cons_ne_nil _ _
  · split
    · exact settled _ _
    · exact fun _ => List.cons_ne_nil _ _

theorem resolveField_settled (path : String) (field : ConfigField) (override : Option Toml) :
    Settled (resolveField showF64 path field override) := by
  cases field with
  | bool default =>
      rw [resolveField]
      exact resolveLeaf_settled fun _ _ none => nomatch none
  | int default min max =>
      rw [resolveField]
      exact resolveLeaf_settled fun _ _ none => nomatch none
  | float default min max =>
      rw [resolveField]
      apply resolveLeaf_settled
      intro f source
      split
      · exact fun none => nomatch none
      · exact fun _ => List.cons_ne_nil _ _
  | string default =>
      rw [resolveField]
      exact resolveLeaf_settled fun _ _ none => nomatch none
  | enum values default =>
      rw [resolveField, resolveEnum]
      split
      · exact fun _ => List.cons_ne_nil _ _
      · apply resolveLeaf_settled
        intro s source
        split
        · exact fun none => nomatch none
        · exact fun _ => List.cons_ne_nil _ _
  | nested fields =>
      rw [resolveField]
      cases override.getD (.table []) with
      | table table => exact fun none => nomatch none
      | _ => exact fun _ => List.cons_ne_nil _ _

theorem getD_table {override : Option Toml} {table : Table} :
    override.getD (.table []) = .table table ↔
      override = some (.table table) ∨ override = none ∧ table = [] := by
  cases override with
  | some v => simp
  | none =>
      simp only [Option.getD_none, Toml.table.injEq, reduceCtorEq, true_and, false_or]
      exact eq_comm

mutual

theorem resolves_field (path : String) (field : ConfigField) (override : Option Toml)
    (value : ConfigValue) : resolveField showF64 path field override = ([], some value) ↔
      Resolves field override value := by
  match field with
  | .bool default =>
      rw [resolveField]
      exact resolves_bool
  | .int default min max =>
      rw [resolveField]
      exact resolves_int
  | .float default min max =>
      rw [resolveField]
      exact resolves_float
  | .string default =>
      rw [resolveField]
      exact resolves_string
  | .enum values default =>
      rw [resolveField]
      exact resolves_enum
  | .nested fields =>
      rw [resolveField]
      constructor
      · intro resolved
        cases shape : override.getD (.table []) with
        | table table =>
            simp only [shape, Prod.mk.injEq, List.append_eq_nil_iff, Option.some.injEq] at resolved
            obtain ⟨⟨declared, fine⟩, rfl⟩ := resolved
            exact .nested (getD_table.mp shape) (unknownKeys_eq_nil.mp declared)
              ((resolves_fields (subPath path) fields table _).mp (Prod.ext fine rfl))
        | _ => simp [shape] at resolved
      · intro resolves
        cases resolves with
        | nested shape declared all =>
            have fine := (resolves_fields (subPath path) fields _ _).mpr all
            simp only [getD_table.mpr shape, fine, unknownKeys_eq_nil.mpr declared, List.append_nil]

theorem resolves_fields (pathOf : String → String) (fields : ConfigFields) (table : Table)
    (entries : InstanceConfig) : resolveFields showF64 pathOf fields table = ([], entries) ↔
      ResolvesAll fields table entries := by
  match fields with
  | [] =>
      rw [resolveFields]
      constructor
      · intro same
        cases same
        exact .nil
      · intro all
        cases all
        rfl
  | (name, field) :: fields =>
      rw [resolveFields]
      constructor
      · intro resolved
        simp only [Prod.mk.injEq, List.append_eq_nil_iff] at resolved
        obtain ⟨⟨fine, rest⟩, same⟩ := resolved
        cases found : (resolveField showF64 (pathOf name) field (get table name)).2 with
        | none => exact absurd fine (resolveField_settled _ _ _ found)
        | some value =>
            rw [found] at same
            subst same
            exact .cons ((resolves_field (pathOf name) field _ value).mp (Prod.ext fine found))
              ((resolves_fields pathOf fields table _).mp (Prod.ext rest rfl))
      · intro all
        cases all with
        | cons first rest =>
            have value := (resolves_field (pathOf name) field _ _).mpr first
            have others := (resolves_fields pathOf fields table _).mpr rest
            simp only [value, others, List.append_nil]

end

theorem merge_eq_ok {config : ConfigFields} {overrides : Toml} {c : InstanceConfig} :
    merge showF64 config overrides = .ok c ↔ ∃ table, overrides = .table table ∧
      Declared config table ∧ ResolvesAll config table c := by
  unfold merge
  cases overrides with
  | table table =>
      dsimp only
      by_cases fine : unknownKeys id config table ++ (resolveFields showF64 id config table).1 = []
      · rw [if_pos fine, Except.ok.injEq]
        obtain ⟨declared, rest⟩ := List.append_eq_nil_iff.mp fine
        have all : resolveFields showF64 id config table = ([], c) ↔ ResolvesAll config table c :=
          resolves_fields id config table c
        simp only [Toml.table.injEq, exists_eq_left', ← all, unknownKeys_eq_nil.mp declared, true_and]
        exact ⟨fun same => Prod.ext rest same, fun same => congrArg Prod.snd same⟩
      · rw [if_neg fine]
        refine iff_of_false (by simp) ?_
        rintro ⟨_, same, declared, all⟩
        cases same
        have resolved : resolveFields showF64 id config table = ([], c) :=
          (resolves_fields id config table c).mpr all
        exact fine (by rw [unknownKeys_eq_nil.mpr declared, resolved, List.nil_append])
  | _ => simp

/-! ## Findings after validation -/

/-- The findings about an override, or about a value that is missing. -/
def ValidationError.AboutOverrides : ValidationError → Prop
  | .unknownConfigKey _ | .configRequired _ | .configTypeMismatch .. | .configOutOfRange ..
  | .configEnumOutOfRange .. | .configOverrideShape _ => True
  | .configFloatNotFinite _ role _ => role = "override"
  | .configEnumDefaultOutOfRange .. | .configIntDefaultOutOfRange .. | .configFloatDefaultOutOfRange ..
  | .configEnumEmpty _ | .configFieldNameContainsDot .. | .configIntRangeInvalid ..
  | .configFloatRangeInvalid .. => False

def Blameless (errors : List ValidationError) : Prop := ∀ e ∈ errors, e.AboutOverrides

theorem Blameless.nil : Blameless [] := fun _ mem => absurd mem List.not_mem_nil

theorem Blameless.append {errors more : List ValidationError} (first : Blameless errors)
    (rest : Blameless more) : Blameless (errors ++ more) := by
  intro e mem
  rcases List.mem_append.mp mem with mem | mem
  · exact first e mem
  · exact rest e mem

theorem Blameless.singleton {e : ValidationError} (about : e.AboutOverrides) : Blameless [e] := by
  intro e' mem
  rw [List.mem_singleton.mp mem]
  exact about

theorem resolveLeaf_blameless {α : Type} {path expected : String} {read : Toml → Option α}
    {default : Option α} {override : Option Toml} {check : α → ValueSource → Resolved}
    (overrides : ∀ a, Blameless (check a .override).1)
    (defaults : ∀ a, default = some a → Blameless (check a .default).1) :
    Blameless (resolveLeaf path expected read default override check).1 := by
  unfold resolveLeaf
  cases override with
  | some v =>
      cases parsed : read v with
      | some a => simpa only [parsed] using overrides a
      | none =>
          simp only [parsed]
          exact .singleton trivial
  | none =>
      cases default with
      | some a => exact defaults a rfl
      | none => exact Blameless.singleton trivial

theorem int_blameless {path path' : String} {default min max : Option Int64}
    {override : Option Toml} (valid : validateIntField path default min max = []) :
    Blameless (resolveInt path' default min max override).1 := by
  unfold validateIntField at valid
  cases inverted : invertedBounds intLt min max with
  | some bounds => simp [inverted] at valid
  | none =>
      simp only [inverted] at valid
      apply resolveLeaf_blameless
      · intro n
        simp only [checkRange, inverted]
        intro e mem
        rw [mem_outsideErrors mem]
        trivial
      · rintro d rfl
        simp only [checkRange, inverted]
        have within := outsideErrors_eq_nil.mp valid
        rw [outsideErrors_eq_nil.mpr within]
        exact .nil

theorem filter_of_finite {v : Option F64} (finite : ∀ a, v = some a → isFinite a = true) :
    v.filter isFinite = v := by
  cases v with
  | none => rfl
  | some a => simp [finite a rfl]

theorem float_blameless {path path' : String} {default min max : Option F64}
    {override : Option Toml} (valid : validateFloatField path default min max = []) :
    Blameless (resolveFloat showF64 path' default min max override).1 := by
  unfold validateFloatField at valid
  simp only [List.append_eq_nil_iff, checkFloatFinite_eq_nil] at valid
  obtain ⟨⟨⟨defaultFinite, minFinite⟩, maxFinite⟩, valid⟩ := valid
  rw [filter_of_finite defaultFinite, filter_of_finite minFinite, filter_of_finite maxFinite] at valid
  have unbroken : ∀ path : String,
      checkFloatFinite path min "min" ++ checkFloatFinite path max "max" = [] := by
    intro path
    rw [List.append_eq_nil_iff, checkFloatFinite_eq_nil, checkFloatFinite_eq_nil]
    exact ⟨minFinite, maxFinite⟩
  cases inverted : invertedBounds floatLt min max with
  | some bounds => simp [inverted] at valid
  | none =>
      simp only [inverted] at valid
      apply resolveLeaf_blameless
      · intro f
        split
        · simp only [checkRangeF, unbroken, inverted, ne_eq, not_true_eq_false, if_false]
          intro e mem
          rw [mem_outsideErrors mem]
          trivial
        · exact .singleton rfl
      · rintro d rfl
        rw [if_pos (defaultFinite d rfl)]
        simp only [checkRangeF, unbroken, inverted, ne_eq, not_true_eq_false, if_false]
        have within := outsideErrors_eq_nil.mp valid
        rw [outsideErrors_eq_nil.mpr within]
        exact .nil

theorem enum_blameless {path path' : String} {values : List String} {default : Option String}
    {override : Option Toml} (valid : validateEnumField path values default = []) :
    Blameless (resolveEnum path' values default override).1 := by
  unfold validateEnumField at valid
  obtain ⟨some_, allowed⟩ := List.append_eq_nil_iff.mp valid
  have nonempty : values ≠ [] := by
    rintro rfl
    simp at some_
  unfold resolveEnum
  rw [if_neg nonempty]
  apply resolveLeaf_blameless
  · intro s
    split
    · exact .nil
    · exact .singleton trivial
  · rintro d rfl
    have member : d ∈ values := by
      by_contra absent
      simp [nonempty, absent] at allowed
    rw [if_pos member]
    exact .nil

theorem unknownKeys_blameless (pathOf : String → String) (fields : ConfigFields) (table : Table) :
    Blameless (unknownKeys pathOf fields table) := by
  intro e mem
  obtain ⟨_, _, rfl⟩ := List.mem_map.mp mem
  trivial

mutual

theorem field_blameless (path path' : String) (field : ConfigField) (override : Option Toml)
    (valid : validateConfigField path field = []) :
    Blameless (resolveField showF64 path' field override).1 := by
  match field with
  | .bool default =>
      rw [resolveField]
      exact resolveLeaf_blameless (fun _ => .nil) fun _ _ => .nil
  | .int default min max =>
      rw [validateConfigField] at valid
      rw [resolveField]
      exact int_blameless valid
  | .float default min max =>
      rw [validateConfigField] at valid
      rw [resolveField]
      exact float_blameless valid
  | .string default =>
      rw [resolveField]
      exact resolveLeaf_blameless (fun _ => .nil) fun _ _ => .nil
  | .enum values default =>
      rw [validateConfigField] at valid
      rw [resolveField]
      exact enum_blameless valid
  | .nested fields =>
      rw [validateConfigField] at valid
      rw [resolveField]
      cases override.getD (.table []) with
      | table table =>
          exact .append (unknownKeys_blameless _ _ _)
            (fields_blameless _ _ (subPath path') fields table valid)
      | _ => exact .singleton trivial

theorem fields_blameless (parent : String) (pathOf pathOf' : String → String)
    (fields : ConfigFields) (table : Table) (valid : validateConfigFields parent pathOf fields = []) :
    Blameless (resolveFields showF64 pathOf' fields table).1 := by
  match fields with
  | [] =>
      rw [resolveFields]
      exact .nil
  | (name, field) :: fields =>
      rw [validateConfigFields, List.append_eq_nil_iff, List.append_eq_nil_iff] at valid
      rw [resolveFields]
      exact .append (field_blameless (pathOf name) (pathOf' name) field _ valid.1.2)
        (fields_blameless parent pathOf pathOf' fields table valid.2)

end

theorem validate_eq_ok {others : List ValidationError} {config : ConfigFields} :
    validate others config = .ok () ↔ others = [] ∧ validateConfigFields "[config]" id config = [] := by
  unfold validate
  rw [← List.append_eq_nil_iff]
  dsimp only
  split
  · next fine => simp [fine]
  · next found => simp [found]

end

theorem config_merge_exact (showF64 : F64 → String) (config : ConfigFields) (overrides : Toml) :
    (∀ c, merge showF64 config overrides = .ok c ↔ ∃ table, overrides = .table table ∧
      Declared config table ∧ ResolvesAll config table c) ∧
    ∀ others errors, validate others config = .ok () →
      merge showF64 config overrides = .error errors → ∀ e ∈ errors, e.AboutOverrides := by
  refine ⟨fun c => merge_eq_ok, fun others errors valid failed => ?_⟩
  obtain ⟨_, valid⟩ := validate_eq_ok.mp valid
  unfold merge at failed
  cases overrides with
  | table table =>
      dsimp only at failed
      split at failed
      · cases failed
      · cases failed
        exact Blameless.append (unknownKeys_blameless id config table)
          (fields_blameless _ id id config table valid)
  | _ =>
      cases failed
      exact Blameless.singleton trivial

end OxidHome.Manifest

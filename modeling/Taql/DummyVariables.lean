import Mathlib.Data.Fintype.Card
import Mathlib.Data.Set.Finite.List
import Mathlib.Logic.Relation
import Taql.GraphQL
import Taql.JavaScript

/-! `getDummyVariable` of `packages/caching/src/execution.ts`. The value of an input
object is built from those of its fields, and nothing stops where a field leads back to
it; only a list cuts the way short. Enums have the values of their own definitions,
without those of their extensions. -/
namespace Taql.DummyVariables
open GraphQL JavaScript Relation

/-- A value for a variable. -/
inductive Dummy where
  | undefined
  | string (text : String)
  | number (value : Int)
  | boolean (value : Bool)
  | emptyList
  | object (properties : List (String × Dummy))

/-- What a call without any stack left throws. -/
def callStackExceeded : JsError := ⟨"RangeError", "Maximum call stack size exceeded"⟩

/-- What `values?.[0].name` throws for an empty list of values. -/
def nameOfUndefined : JsError := ⟨"TypeError", "Cannot read properties of undefined (reading 'name')"⟩

/-- `astNode` is an object, and is printed as one. -/
def unsupported : JsError := ⟨"Error", "Unsupported type definition [object Object]"⟩

/-- The values of the types that are known by their names. -/
def named : String → Option Dummy
  | "String" | "ID" => some (.string "dummy")
  | "Int" | "Long" | "Float" => some (.number 1)
  | "Boolean" => some (.boolean true)
  | _ => none

def getDummyVariableForNamedType (schema : Schema) (getDummyVariable : TypeNode → Except JsError Dummy)
    (name : String) : Except JsError Dummy :=
  match named name with
  | some value => .ok value
  | none =>
    match schema.astNode name with
    | none => .ok .undefined
    | some (.enum none) => .ok .undefined
    | some (.enum (some [])) => .error nameOfUndefined
    | some (.enum (some (value :: _))) => .ok (.string value)
    | some (.inputObject fields) =>
      ((fields.getD []).mapM fun field => (getDummyVariable field.2).map (field.1, ·)).map .object
    | some .scalar => .ok (.number 1)
    | some .output => .error unsupported

/-- A call with as much of the stack left as there may be calls inside it. -/
def getDummyVariable (schema : Schema) : Nat → TypeNode → Except JsError Dummy
  | 0, _ => .error callStackExceeded
  | stack + 1, .nonNull type => getDummyVariable schema stack type
  | _ + 1, .list _ => .ok .emptyList
  | stack + 1, .named name => getDummyVariableForNamedType schema (getDummyVariable schema stack) name

/-- A stack that is large enough gives the value. -/
def Builds (schema : Schema) (type : TypeNode) : Prop :=
  ∃ enough value, ∀ stack ≥ enough, getDummyVariable schema stack type = .ok value

/-! ### Where a call goes on -/

/-- The type a value is built for, if it is not a list. -/
def base : TypeNode → Option String
  | .named name => some name
  | .nonNull type => base type
  | .list _ => none

/-- The fields whose values are built for a type. -/
def inputFields (schema : Schema) (name : String) : List (String × TypeNode) :=
  if (named name).isSome then []
  else
    match schema.astNode name with
    | some (.inputObject (some fields)) => fields
    | _ => []

/-- The type is that of a field of the other. -/
def Descends (schema : Schema) (name next : String) : Prop :=
  ∃ field ∈ inputFields schema name, base field.2 = some next

/-- A type that no value is built for: an enum whose own definition has no values, or
a type that is not for input. -/
def Unsupported (schema : Schema) (name : String) : Prop :=
  named name = none ∧ (schema.astNode name = some (.enum (some [])) ∨ schema.astNode name = some .output)

/-- No type on the way leads back to itself, and none is unsupported. -/
def Buildable (schema : Schema) (type : TypeNode) : Prop :=
  ∀ name, base type = some name → ∀ reached, ReflTransGen (Descends schema) name reached →
    ¬TransGen (Descends schema) reached reached ∧ ¬Unsupported schema reached

section Relations
variable {α : Type} {r : α → α → Prop} {start : α}

/-- Where finitely many are reached and none from itself, what holds of each that it
holds of all after holds of all reached. -/
theorem induction_of_acyclic (finite : {reached | ReflTransGen r start reached}.Finite)
    (acyclic : ∀ reached, ReflTransGen r start reached → ¬TransGen r reached reached) {P : α → Prop}
    (step : ∀ reached, ReflTransGen r start reached → (∀ next, r reached next → P next) → P reached) :
    ∀ reached, ReflTransGen r start reached → P reached := by
  have : Finite {reached // ReflTransGen r start reached} := finite.to_subtype
  have : IsTrans {reached // ReflTransGen r start reached} fun after before => TransGen r before.1 after.1 :=
    ⟨fun _ _ _ later earlier => earlier.trans later⟩
  have : Std.Irrefl fun after before : {reached // ReflTransGen r start reached} => TransGen r before.1 after.1 :=
    ⟨fun reached => acyclic reached.1 reached.2⟩
  have wellFounded := Finite.wellFounded_of_trans_of_irrefl
    fun after before : {reached // ReflTransGen r start reached} => TransGen r before.1 after.1
  suffices all : ∀ reached : {reached // ReflTransGen r start reached}, P reached.1 from
    fun reached reaches => all ⟨reached, reaches⟩
  intro reached
  induction reached using wellFounded.induction with
  | _ reached ih =>
    exact step reached.1 reached.2 fun next goes => ih ⟨next, reached.2.tail goes⟩ (.single goes)

/-- Bounds that each hold from some point on all hold from one point on. -/
theorem exists_enough {P : Nat → α → Prop} {items : List α}
    (each : ∀ item ∈ items, ∃ enough, ∀ bound ≥ enough, P bound item) :
    ∃ enough, ∀ bound ≥ enough, ∀ item ∈ items, P bound item := by
  induction items with
  | nil => exact ⟨0, fun _ _ _ member => absurd member List.not_mem_nil⟩
  | cons item rest ih =>
    obtain ⟨enough, holds⟩ := each item List.mem_cons_self
    obtain ⟨enough', others⟩ := ih fun other member => each other (List.mem_cons_of_mem _ member)
    refine ⟨max enough enough', fun bound larger other member => ?_⟩
    rcases List.mem_cons.mp member with rfl | member
    · exact holds bound (le_trans (le_max_left _ _) larger)
    · exact others bound (le_trans (le_max_right _ _) larger) other member

end Relations

section Build
variable {schema : Schema}

theorem exists_map_ok {α β : Type} {result : Except JsError α} {f : α → β} :
    (∃ value, result.map f = .ok value) ↔ ∃ value, result = .ok value := by
  cases result <;> simp [Except.map]

theorem mem_inputFields {name : String} {field : String × TypeNode} :
    field ∈ inputFields schema name ↔ named name = none ∧
      ∃ fields, schema.astNode name = some (.inputObject (some fields)) ∧ field ∈ fields := by
  unfold inputFields
  cases known : named name with
  | some value => simp
  | none =>
    rcases found : schema.astNode name with _ | (_ | _ | (_ | fields) | _) <;> simp

/-- A type that is not an unsupported one has a value as soon as its fields have theirs. -/
theorem getDummyVariableForNamedType_ok {call : TypeNode → Except JsError Dummy} {name : String} :
    (∃ value, getDummyVariableForNamedType schema call name = .ok value) ↔
      ¬Unsupported schema name ∧ ∀ field ∈ inputFields schema name, ∃ value, call field.2 = .ok value := by
  unfold getDummyVariableForNamedType Unsupported inputFields
  cases known : named name with
  | some value => simp
  | none =>
    cases found : schema.astNode name with
    | none => simp
    | some node =>
      cases node with
      | scalar | output => simp
      | enum values => rcases values with _ | (_ | ⟨value, rest⟩) <;> simp
      | inputObject fields =>
        rw [exists_map_ok, exists_mapM_ok]
        simp only [exists_map_ok]
        cases fields <;> simp

theorem getDummyVariableForNamedType_mono {call call' : TypeNode → Except JsError Dummy} {name : String} {value : Dummy}
    (agree : ∀ type value, call type = .ok value → call' type = .ok value)
    (built : getDummyVariableForNamedType schema call name = .ok value) :
    getDummyVariableForNamedType schema call' name = .ok value := by
  unfold getDummyVariableForNamedType at built ⊢
  cases known : named name with
  | some value' => rwa [known] at built
  | none =>
    rw [known] at built
    cases found : schema.astNode name with
    | none => rwa [found] at built
    | some node =>
      rw [found] at built
      cases node with
      | scalar | output => exact built
      | enum values => rcases values with _ | (_ | ⟨value', rest⟩) <;> exact built
      | inputObject fields =>
        obtain ⟨properties, mapped, rfl⟩ := map_eq_ok.mp built
        refine map_eq_ok.mpr ⟨properties, mapM_ok_mono ?_ mapped, rfl⟩
        intro field property is
        obtain ⟨inner, built, rfl⟩ := map_eq_ok.mp is
        exact map_eq_ok.mpr ⟨inner, agree _ _ built, rfl⟩

/-- More stack changes no value. -/
theorem getDummyVariable_mono {stack stack' : Nat} {type : TypeNode} {value : Dummy} (larger : stack ≤ stack')
    (built : getDummyVariable schema stack type = .ok value) : getDummyVariable schema stack' type = .ok value := by
  induction stack generalizing stack' type value with
  | zero => cases built
  | succ stack ih =>
    obtain ⟨stack', rfl⟩ := Nat.exists_eq_add_of_le' (Nat.one_le_of_lt larger)
    have less : stack ≤ stack' := Nat.le_of_succ_le_succ larger
    cases type with
    | list => exact built
    | nonNull type =>
      rw [getDummyVariable] at built ⊢
      exact ih less built
    | named name => exact getDummyVariableForNamedType_mono (fun _ _ => ih less) built

theorem builds_iff_exists {type : TypeNode} :
    Builds schema type ↔ ∃ stack value, getDummyVariable schema stack type = .ok value := by
  constructor
  · rintro ⟨enough, value, built⟩
    exact ⟨enough, value, built enough le_rfl⟩
  · rintro ⟨stack, value, built⟩
    exact ⟨stack, value, fun _ larger => getDummyVariable_mono larger built⟩

theorem builds_nonNull {type : TypeNode} : Builds schema (.nonNull type) ↔ Builds schema type := by
  simp only [builds_iff_exists]
  constructor
  · rintro ⟨_ | stack, value, built⟩
    · cases built
    · exact ⟨stack, value, built⟩
  · rintro ⟨stack, value, built⟩
    exact ⟨stack + 1, value, built⟩

/-- Of the wrappers, only a list changes what has to be built. -/
theorem builds_iff_base {type : TypeNode} :
    Builds schema type ↔ ∀ name, base type = some name → Builds schema (.named name) := by
  induction type with
  | named name => simp [base]
  | nonNull type ih => rw [builds_nonNull, ih, base]
  | list type =>
    simp only [base]
    exact iff_of_true (builds_iff_exists.mpr ⟨1, .emptyList, rfl⟩) (fun _ never => absurd never (by simp))

/-! ### The stack a type needs -/

/-- The stack is enough for the type. -/
def Suffices (schema : Schema) (stack : Nat) (name : String) : Prop :=
  ∃ value, getDummyVariable schema stack (.named name) = .ok value

theorem suffices_succ {stack : Nat} {name : String} : Suffices schema (stack + 1) name ↔
    ¬Unsupported schema name ∧
      ∀ field ∈ inputFields schema name, ∃ value, getDummyVariable schema stack field.2 = .ok value :=
  getDummyVariableForNamedType_ok

theorem suffices_base {stack : Nat} {type : TypeNode} {name : String} {value : Dummy} (is : base type = some name)
    (built : getDummyVariable schema stack type = .ok value) : ∃ less ≤ stack, Suffices schema less name := by
  induction type generalizing stack with
  | named own =>
    cases is
    exact ⟨stack, le_rfl, value, built⟩
  | list => cases is
  | nonNull type ih =>
    cases stack with
    | zero => cases built
    | succ stack =>
      obtain ⟨less, le, enough⟩ := ih is built
      exact ⟨less, le.trans (Nat.le_succ stack), enough⟩

/-- A field needs less than what it is a field of. -/
theorem suffices_of_descends {stack : Nat} {name next : String} (enough : Suffices schema stack name)
    (descends : Descends schema name next) : ∃ less < stack, Suffices schema less next := by
  cases stack with
  | zero =>
    obtain ⟨value, built⟩ := enough
    cases built
  | succ stack =>
    obtain ⟨field, member, is⟩ := descends
    obtain ⟨value, built⟩ := (suffices_succ.mp enough).2 field member
    obtain ⟨less, le, enough⟩ := suffices_base is built
    exact ⟨less, Nat.lt_succ_of_le le, enough⟩

theorem suffices_of_transGen {stack : Nat} {name reached : String} (enough : Suffices schema stack name)
    (goes : TransGen (Descends schema) name reached) : ∃ less < stack, Suffices schema less reached := by
  induction goes with
  | single descends => exact suffices_of_descends enough descends
  | tail _ descends ih =>
    obtain ⟨less, lt, enough⟩ := ih
    obtain ⟨less', lt', enough'⟩ := suffices_of_descends enough descends
    exact ⟨less', lt'.trans lt, enough'⟩

/-- No stack is enough for a type that leads back to itself. -/
theorem not_suffices_of_cycle {name : String} (cycle : TransGen (Descends schema) name name) (stack : Nat) :
    ¬Suffices schema stack name := by
  induction stack using Nat.strong_induction_on with
  | _ stack ih =>
    intro enough
    obtain ⟨less, lt, enough'⟩ := suffices_of_transGen enough cycle
    exact ih less lt enough'

theorem not_suffices_of_unsupported {name : String} (refused : Unsupported schema name) (stack : Nat) :
    ¬Suffices schema stack name := by
  intro enough
  cases stack with
  | zero =>
    obtain ⟨value, built⟩ := enough
    cases built
  | succ stack => exact (suffices_succ.mp enough).1 refused

/-- The types that have fields are among those of the schema. -/
theorem finite_reached (schema : Schema) (name : String) :
    {reached | ReflTransGen (Descends schema) name reached}.Finite := by
  refine ((List.finite_toSet (name :: ((schema.typeMap.map Prod.fst).flatMap (inputFields schema)).filterMap
    fun field => base field.2))).subset ?_
  intro reached goes
  rcases ReflTransGen.cases_tail goes with same | ⟨before, _, field, member, is⟩
  · simp [same]
  · obtain ⟨_, own, found, _⟩ := mem_inputFields.mp member
    refine List.mem_cons_of_mem _ (List.mem_filterMap.mpr ⟨field, ?_, is⟩)
    exact List.mem_flatMap.mpr ⟨before, List.mem_map_of_mem (Schema.mem_typeMap found), member⟩

/-- A value is built exactly where no type on the way leads back to itself or is
unsupported. -/
theorem builds_iff (schema : Schema) (type : TypeNode) : Builds schema type ↔ Buildable schema type := by
  rw [builds_iff_base]
  constructor
  · intro builds name is reached goes
    obtain ⟨stack, value, built⟩ := builds_iff_exists.mp (builds name is)
    have enough : ∃ less, Suffices schema less reached := by
      rcases reflTransGen_iff_eq_or_transGen.mp goes with rfl | goes
      · exact ⟨stack, value, built⟩
      · obtain ⟨less, _, enough⟩ := suffices_of_transGen ⟨value, built⟩ goes
        exact ⟨less, enough⟩
    obtain ⟨less, enough⟩ := enough
    exact ⟨fun cycle => not_suffices_of_cycle cycle less enough,
      fun refused => not_suffices_of_unsupported refused less enough⟩
  · intro buildable name is
    refine induction_of_acyclic (P := fun reached => Builds schema (.named reached)) (finite_reached schema name)
      (fun reached goes => (buildable name is reached goes).1) ?_ name .refl
    intro reached goes after
    have fields : ∀ field ∈ inputFields schema reached, ∃ enough, ∀ stack ≥ enough,
        ∃ value, getDummyVariable schema stack field.2 = .ok value := by
      intro field member
      obtain ⟨enough, value, built⟩ := builds_iff_base.mpr fun next is' => after next ⟨field, member, is'⟩
      exact ⟨enough, fun stack larger => ⟨value, built stack larger⟩⟩
    obtain ⟨enough, all⟩ := exists_enough fields
    have suffices_ := suffices_succ.mpr ⟨(buildable name is reached goes).2, all enough le_rfl⟩
    exact builds_iff_exists.mpr ⟨_, suffices_⟩

end Build

/-! ### Valid schemas -/

/-- The type inside all wrappers. -/
def namedType : TypeNode → String
  | .named name => name
  | .list type | .nonNull type => namedType type

/-- `isInputType`. -/
def IsInputType (schema : Schema) (type : TypeNode) : Prop := schema.astNode (namedType type) ≠ some .output

/-- What a valid schema has to have for its input objects; it may have them lead back to
themselves. -/
def InputFields (schema : Schema) : Prop :=
  ∀ name fields, schema.astNode name = some (.inputObject (some fields)) → ∀ field ∈ fields, IsInputType schema field.2

/-- The types that are built do not contain themselves, unless in a list, and their
enums have values of their own. -/
structure Finishes (schema : Schema) (type : TypeNode) : Prop where
  acyclic : ∀ name, base type = some name → ∀ reached, ReflTransGen (Descends schema) name reached →
    ¬TransGen (Descends schema) reached reached
  valued : ∀ name, base type = some name → ∀ reached, ReflTransGen (Descends schema) name reached →
    named reached = none → schema.astNode reached ≠ some (.enum (some []))

theorem namedType_of_base {type : TypeNode} {name : String} (is : base type = some name) : namedType type = name := by
  induction type with
  | named own => exact Option.some.inj is
  | nonNull type ih => exact ih is
  | list => cases is

/-- From a type for input only such types are reached. -/
theorem ne_output_of_reached {schema : Schema} {type : TypeNode} (fields : InputFields schema)
    (input : IsInputType schema type) {name reached : String} (is : base type = some name)
    (goes : ReflTransGen (Descends schema) name reached) : schema.astNode reached ≠ some .output := by
  rcases ReflTransGen.cases_tail goes with rfl | ⟨before, _, field, member, is'⟩
  · rw [← namedType_of_base is]
    exact input
  · obtain ⟨_, own, found, held⟩ := mem_inputFields.mp member
    rw [← namedType_of_base is']
    exact fields before own found field held

/-- The dummy variable of an input type is built, on any stack that is large enough,
exactly where the types finish. -/
theorem getDummyVariable_iff {schema : Schema} (fields : InputFields schema) {type : TypeNode}
    (input : IsInputType schema type) : Builds schema type ↔ Finishes schema type := by
  rw [builds_iff]
  constructor
  · intro buildable
    refine ⟨fun name is reached goes => (buildable name is reached goes).1, ?_⟩
    intro name is reached goes unknown empty
    exact (buildable name is reached goes).2 ⟨unknown, .inl empty⟩
  · rintro ⟨acyclic, valued⟩ name is reached goes
    refine ⟨acyclic name is reached goes, ?_⟩
    rintro ⟨unknown, empty | output⟩
    · exact valued name is reached goes unknown empty
    · exact ne_output_of_reached fields input is goes output

/-- A filter that holds others in a list. -/
def filters : Schema where
  typeMap := [("Query", some .output), ("Filter", some (.inputObject (some
    [("text", .nonNull (.named "String")), ("any", .list (.nonNull (.named "Filter")))])))]
  rootType
    | .query => some "Query"
    | _ => none
  possibleTypes _ := []

theorem getDummyVariable_filter : Builds filters (.nonNull (.named "Filter")) := by
  have only : ∀ name fields, filters.astNode name = some (.inputObject (some fields)) → name = "Filter" ∧
      fields = [("text", .nonNull (.named "String")), ("any", .list (.nonNull (.named "Filter")))] := by
    intro name fields found
    simpa [filters] using Schema.mem_typeMap found
  have next : ∀ name name', Descends filters name name' → name' = "String" := by
    rintro name name' ⟨field, member, is⟩
    obtain ⟨_, own, found, held⟩ := mem_inputFields.mp member
    obtain ⟨rfl, rfl⟩ := only name own found
    rcases List.mem_cons.mp held with rfl | held
    · exact (Option.some.inj is).symm
    · cases List.mem_singleton.mp held
      cases is
  have last : ∀ name, ¬Descends filters "String" name := by
    rintro name ⟨field, member, _⟩
    cases (mem_inputFields.mp member).1
  have input : ∀ type, namedType type ≠ "Query" → IsInputType filters type := by
    intro type differs output
    exact differs (by simpa [filters] using Schema.mem_typeMap output)
  apply (getDummyVariable_iff _ _).mpr
  · constructor
    · intro name _ reached _ cycle
      obtain ⟨before, _, descends⟩ := TransGen.tail'_iff.mp cycle
      cases next before reached descends
      obtain ⟨after, descends', _⟩ := TransGen.head'_iff.mp cycle
      exact last after descends'
    · intro name _ reached _ _ empty
      simpa [filters] using Schema.mem_typeMap empty
  · intro name fields found field member
    obtain ⟨rfl, rfl⟩ := only name fields found
    rcases List.mem_cons.mp member with rfl | member
    · exact input _ (by decide)
    · cases List.mem_singleton.mp member
      exact input _ (by decide)
  · exact input _ (by decide)

/-- A list whose rest is nullable. -/
def nodes : Schema where
  typeMap := [("Query", some .output), ("Node", some (.inputObject (some [("next", .named "Node")])))]
  rootType
    | .query => some "Query"
    | _ => none
  possibleTypes _ := []

/-- No stack is enough for a type that holds itself, though it is valid. -/
theorem getDummyVariable_node : InputFields nodes ∧ IsInputType nodes (.named "Node") ∧
    ∀ stack, getDummyVariable nodes stack (.named "Node") = .error callStackExceeded := by
  have input : IsInputType nodes (.named "Node") := by
    intro output
    simpa [nodes, namedType] using Schema.mem_typeMap output
  refine ⟨?_, input, fun stack => ?_⟩
  · intro name fields found field member
    obtain ⟨rfl, rfl⟩ : name = "Node" ∧ fields = [("next", .named "Node")] := by
      simpa [nodes] using Schema.mem_typeMap found
    cases List.mem_singleton.mp member
    exact input
  · induction stack with
    | zero => rfl
    | succ stack ih =>
      have found : nodes.astNode "Node" = some (.inputObject (some [("next", .named "Node")])) := rfl
      have unknown : named "Node" = none := rfl
      simp [getDummyVariable, getDummyVariableForNamedType, unknown, found, ih, Except.map]

end Taql.DummyVariables

import Taql.Context

/-! `packages/yogaUtils/src/index.ts` and `packages/deadlines/src/index.ts`: the
extensions of requests and how they are merged, and the deadline of a request,
which a merged request keeps in its extensions. -/
namespace Taql.Deadlines
open Context JavaScript

/-- The value of an extension. Of an object, which an array is too, two
properties are read and written, and only as far as they are arrays; `rest`, its
text, stands for everything else in it. -/
inductive ExtensionValue where
  | undefined
  | null
  | boolean (value : Bool)
  | number (value : JsNumber)
  | string (value : String)
  | object (preregisteredQueries operationNames : Option (List ExtensionValue)) (rest : String)

def ExtensionValue.truthy : ExtensionValue → Bool
  | .undefined | .null => false
  | .boolean value => value
  | .number value => value.truthy
  | .string value => value ≠ ""
  | .object _ _ _ => true

/-- Own properties, under strings and under the symbol for deadlines. -/
structure Extensions where
  own : String → Option ExtensionValue
  deadline : Option JsNumber

/-- `{}`. -/
def Extensions.empty : Extensions := ⟨fun _ => none, none⟩

/-- A property that is neither undefined nor null. -/
def Extensions.get (extensions : Extensions) (key : String) : Option ExtensionValue :=
  match extensions.own key with
  | none | some .undefined | some .null => none
  | some value => some value

def Extensions.set (extensions : Extensions) (key : String) (value : ExtensionValue) : Extensions :=
  { extensions with own := Function.update extensions.own key (some value) }

/-- `Object.assign`, which copies every own property there is. -/
def Extensions.assign (extensions : Extensions) : Option Extensions → Extensions
  | none => extensions
  | some next => ⟨fun key => (next.own key).or (extensions.own key), next.deadline.or extensions.deadline⟩

/-- The parameters of the request that is served. -/
structure ServedParams where
  extensions : Option Extensions
  operationName : Option String

structure TaqlState where
  params : Option ServedParams
  taql : Option TaqlContext

/-- A request to a subgraph. -/
structure ExecutionRequest where
  extensions : Option Extensions
  context : Option TaqlState

abbrev ExtensionsReducer := Extensions → ExecutionRequest → Except JsError Extensions

def defaultExtensionsReducer : ExtensionsReducer := fun extensions next => .ok (extensions.assign next.extensions)

/-- The deadline in the extensions overrides the one in the context. -/
def getDeadline (request : ExecutionRequest) : Option JsNumber :=
  (request.extensions.bind Extensions.deadline).or
    ((request.context.bind TaqlState.taql).map TaqlContext.deadline)

/-- The earlier of two; one alone counts unless it is falsy and comes first. -/
def reduceDeadlines : Option JsNumber → Option JsNumber → Option JsNumber
  | some acc, some next => some (.min acc next)
  | some acc, none => if acc.truthy then some acc else none
  | none, next => next

/-- The deadline so far is read before the inner reducer runs, and written after. -/
def wrapReducer (reducer : ExtensionsReducer) : ExtensionsReducer := fun extensions nextRequest => do
  let cur := extensions.deadline
  let next := getDeadline nextRequest
  let result ← reducer extensions nextRequest
  return { result with deadline := reduceDeadlines cur next }

def reduceOfEmpty : JsError := ⟨"TypeError", "Reduce of empty array with no initial value"⟩

def pickDeadline (requests : List ExecutionRequest) : Except JsError (Option JsNumber) :=
  match requests.map getDeadline with
  | [] => .error reduceOfEmpty
  | first :: rest => .ok (rest.foldl reduceDeadlines first)

/-- A fold from undefined is a fold from the first deadline. -/
theorem pickDeadline_eq_ok {requests : List ExecutionRequest} (filled : requests ≠ []) :
    pickDeadline requests = .ok ((requests.map getDeadline).foldl reduceDeadlines none) := by
  cases requests with
  | nil => exact absurd rfl filled
  | cons first rest => rfl

/-- The milliseconds of a deadline that is a number. -/
def millis : Option JsNumber → Option Int
  | some (.num value) => some value
  | _ => none

/-- A deadline that is not a number is picked whatever the others are. -/
theorem foldl_reduceDeadlines_nan (deadlines : List JsNumber) :
    (deadlines.map some).foldl reduceDeadlines none = some .nan ↔ .nan ∈ deadlines := by
  induction deadlines using List.reverseRecOn with
  | nil => simp
  | append_singleton earlier last ih =>
    rw [List.map_append, List.foldl_append, List.mem_append, List.map_singleton, List.mem_singleton, ← ih]
    cases (earlier.map some).foldl reduceDeadlines none with
    | none => cases last <;> simp [reduceDeadlines]
    | some acc => cases acc <;> cases last <;> simp [reduceDeadlines, JsNumber.min]

theorem foldl_reduceDeadlines_some (first : JsNumber) (rest : List JsNumber) :
    ∃ picked, ((first :: rest).map some).foldl reduceDeadlines none = some picked := by
  rw [List.map_cons, List.foldl_cons]
  simp only [reduceDeadlines]
  induction rest generalizing first with
  | nil => exact ⟨first, rfl⟩
  | cons next rest ih => exact ih (.min first next)

/-- Undefined, or a positive number. -/
def Positive (deadline : Option JsNumber) : Prop :=
  ∀ value, deadline = some value → ∃ time, value = .num time ∧ 0 < time

private theorem min?_snoc (values : List Int) (value : Int) :
    (values ++ [value]).min? = some (values.min?.elim value fun least => Min.min least value) := by
  cases values with
  | nil => rfl
  | cons first rest =>
    rw [List.cons_append, List.min?_cons', List.foldl_append, List.min?_cons']
    rfl

theorem min?_perm {values values' : List Int} (permuted : values'.Perm values) : values'.min? = values.min? := by
  cases least : values.min? with
  | none =>
    rw [List.min?_eq_none_iff] at least ⊢
    rwa [least, List.perm_nil] at permuted
  | some value =>
    obtain ⟨member, below⟩ := List.min?_eq_some_iff.mp least
    exact List.min?_eq_some_iff.mpr ⟨permuted.mem_iff.mpr member,
      fun other among => below other (permuted.mem_iff.mp among)⟩

/-- The least of some numbers is picked. -/
theorem foldl_reduceDeadlines_num (times : List Int) :
    (times.map fun time => some (JsNumber.num time)).foldl reduceDeadlines none = times.min?.map .num := by
  induction times using List.reverseRecOn with
  | nil => rfl
  | append_singleton earlier last ih =>
    rw [List.map_append, List.foldl_append, ih, min?_snoc]
    cases earlier.min? <;> rfl

/-- The least of the deadlines that are defined. -/
theorem foldl_reduceDeadlines {deadlines : List (Option JsNumber)}
    (positive : ∀ deadline ∈ deadlines, Positive deadline) :
    deadlines.foldl reduceDeadlines none = (deadlines.filterMap millis).min?.map .num := by
  induction deadlines using List.reverseRecOn with
  | nil => rfl
  | append_singleton earlier last ih =>
    have before := ih fun deadline member => positive deadline (List.mem_append_left _ member)
    rw [List.foldl_append, List.filterMap_append, List.foldl_cons, List.foldl_nil, before]
    cases last with
    | none =>
      simp only [List.filterMap_cons, List.filterMap_nil, millis, List.append_nil]
      cases least : (earlier.filterMap millis).min? with
      | none => rfl
      | some value =>
        obtain ⟨deadline, member, is⟩ := List.mem_filterMap.mp (List.min?_mem least)
        have above : 0 < value := by
          cases deadline with
          | none => cases is
          | some number =>
            obtain ⟨time, rfl, above⟩ := positive _ (List.mem_append_left _ member) number rfl
            cases is
            exact above
        simp [reduceDeadlines, JsNumber.truthy, Int.ne_of_gt above]
    | some number =>
      obtain ⟨time, rfl, _⟩ := positive _ (List.mem_append_right _ List.mem_cons_self) number rfl
      simp only [List.filterMap_cons, List.filterMap_nil, millis, min?_snoc]
      cases (earlier.filterMap millis).min? <;> rfl

end Taql.Deadlines

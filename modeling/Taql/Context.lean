import Taql.Headers

/-! `packages/context/src`: the context built from the headers of a request,
and the headers of it that are forwarded to a subgraph. The allow-list of the latter
asks an object, the compiled enum, for a name the client chose. -/
namespace Taql.Context
open JavaScript Headers

/-- `enum ForwardHeader`. -/
def forwardHeader : List String :=
  ["x-guid", "x-request-id", "x-unique-id", "x-ta-unique-dec", "x-ua", "x-service-overrides", "x-txip",
    "authorization", "x-trip-iat",
    -- testing & debug headers
    "lt", "x-test-fields", "x-loadtest", "x-swedwig-feed-viewer", "x-tripadvisor-graphql-debug"]

/-- Anything the compiled enum answers for, which includes its own numbers and
what it inherits. -/
def forwardable (pair : String × Option String) : Option (String × String) :=
  if enumHas forwardHeader pair.1 then pair.2.map fun value => (pair.1, value) else none

def forwardableHeaders (headers : GenericHeaders) : Except JsError TaqlHeaders := copyHeaders headers forwardable

@[ext] structure LegacyContext where
  locale : String
  debugToolEnabled : Bool
  uniqueId : Option String
  userClientIP : Option String
  deriving DecidableEq, Repr

/-- `ref` tells context objects apart, so that equality of records is identity
of objects. -/
structure TaqlContext where
  ref : Nat
  forwardHeaders : TaqlHeaders
  deadline : JsNumber
  legacyContext : LegacyContext
  SVCO : Option String
  client : String
  deriving DecidableEq, Repr

/-- The first client of an `x-forwarded-for` value. -/
def clientFromXff (xff : Option String) : Option String :=
  xff.map fun xff => trim (String.ofList (xff.toList.takeWhile fun char => char ≠ ','))

def legacyContextFromHeaders (headers : GenericHeaders) : LegacyContext where
  locale := getHeaderOrDefault id headers "x-tripadvisor-locale" "en-US"
  debugToolEnabled := getHeaderOrDefault id headers "x-tripadvisor-graphql-debug" "false" = "true"
  uniqueId := getHeaderOrDefault some headers "x-unique-id" none
  userClientIP := clientFromXff (getHeaderOrDefault some headers "x-forwarded-for" none)

/-- `EXECUTION_TIMEOUT_PARAMS`. -/
structure ExecutionTimeoutParams where
  defaultExecutionTimeoutMillis : Nat
  maxExecutionTimeoutMillis : Nat

/-- `now` is what `Date.now()` answers. -/
def deadline (params : ExecutionTimeoutParams) (now : Int) (headers : GenericHeaders) : JsNumber :=
  .add (.num now) (.min
    (parseInt (getHeaderOrDefault id headers "x-timeout" (toString params.defaultExecutionTimeoutMillis)))
    (.num params.maxExecutionTimeoutMillis))

def getClientName (headers : GenericHeaders) : String :=
  (getHeaderOrDefault some headers "x-app-name" none).getD (getHeaderOrDefault id headers "user-agent" "unknown")

/-- `buildContext(headers)`, the new object being `ref`. -/
def buildContext (params : ExecutionTimeoutParams) (now : Int) (ref : Nat) (headers : GenericHeaders) :
    Except JsError TaqlContext := do
  let forwardHeaders ← forwardableHeaders headers
  return {
    ref
    forwardHeaders
    deadline := deadline params now headers
    legacyContext := legacyContextFromHeaders headers
    SVCO := none
    client := getClientName headers }

/-! ### What is forwarded

The enum answers for more than the names it declares: for its own numbers, which are
then forwarded, and for what every object inherits, which is then no list to push to. -/

/-- The numbers of an enum, which it maps back to its names. -/
def indices (names : List String) : List String := (List.range names.length).map toString

theorem enumHas_iff {names : List String} {name : String} :
    enumHas names name = true ↔ name ∈ names ∨ name ∈ indices names ∨ name ∈ objectMembers := by
  simp only [enumHas, indices, Bool.or_eq_true, List.contains_iff_mem, List.any_eq_true, beq_iff_eq, List.mem_map,
    or_assoc]

/-- The values a collection has under a name, undefined ones left out. -/
def definedValues (headers : GenericHeaders) (name : String) : List String :=
  headers.pairs.filterMap fun pair => if pair.1 = name then pair.2 else none

theorem mem_definedValues {headers : GenericHeaders} {name value : String} :
    value ∈ definedValues headers name ↔ (name, some value) ∈ headers.pairs := by
  rw [definedValues, List.mem_filterMap]
  constructor
  · rintro ⟨⟨name', value'⟩, member, found⟩
    split at found
    · rename_i same
      simp only at same found
      rwa [same, found] at member
    · cases found
  · exact fun member => ⟨_, member, if_pos rfl⟩

/-- The declared names that are present, each with all of its values in order. -/
structure Forwarded (headers : GenericHeaders) (result : TaqlHeaders) : Prop where
  distinct : (result.map Prod.fst).Nodup
  values : ∀ name values, (name, values) ∈ result ↔
    name ∈ forwardHeader ∧ values = definedValues headers name ∧ values ≠ []

theorem declared_plain : ∀ name ∈ forwardHeader, name ∉ indices forwardHeader ∧ name ∉ objectMembers := by decide

theorem mem_forwardable {pairs : List (String × Option String)} {name value : String} :
    (name, value) ∈ pairs.filterMap forwardable ↔ (name, some value) ∈ pairs ∧ enumHas forwardHeader name = true := by
  rw [List.mem_filterMap]
  constructor
  · rintro ⟨⟨name', value'⟩, member, passed⟩
    unfold forwardable at passed
    split at passed
    · rename_i answers
      obtain ⟨defined, rfl, same⟩ := Option.map_eq_some_iff.mp passed
      cases same
      exact ⟨member, answers⟩
    · cases passed
  · rintro ⟨member, answers⟩
    exact ⟨_, member, by simp [forwardable, answers]⟩

/-- What is copied under a name, when the enum answers for it. -/
theorem valuesOf_forwardable (headers : GenericHeaders) (name : String) :
    valuesOf (headers.pairs.filterMap forwardable) name =
      if enumHas forwardHeader name = true then definedValues headers name else [] := by
  unfold valuesOf definedValues
  induction headers.pairs with
  | nil => simp
  | cons pair pairs ih =>
    obtain ⟨name', value⟩ := pair
    by_cases answers : enumHas forwardHeader name' = true
    · cases value with
      | none => simpa [forwardable, List.filterMap_cons] using ih
      | some value =>
        by_cases same : name' = name
        · subst same
          simp only [answers, if_true] at ih
          simp [forwardable, answers, ih]
        · simpa [forwardable, List.filterMap_cons, answers, same] using ih
    · by_cases same : name' = name
      · subst same
        simpa [forwardable, List.filterMap_cons, answers] using ih
      · simpa [forwardable, List.filterMap_cons, answers, same] using ih

theorem mem_valuesOf {pairs : List (String × String)} {name value : String} :
    value ∈ valuesOf pairs name ↔ (name, value) ∈ pairs := by
  simp [valuesOf]

/-- Whatever the enum answers for among plain names is declared. -/
theorem forwarded_of_copied {headers : GenericHeaders} {result : TaqlHeaders}
    (copied : forwardableHeaders headers = .ok result)
    (plain : ∀ name value, (name, some value) ∈ headers.pairs → name ∉ indices forwardHeader ∧ name ∉ objectMembers) :
    Forwarded headers result := by
  have pairs : (some headers).elim [] GenericHeaders.pairs = headers.pairs := rfl
  have collects := copyHeaders_collects copied
  rw [pairs] at collects
  refine ⟨collects.distinct, fun name values => ?_⟩
  rw [collects.values, valuesOf_forwardable]
  split
  · rename_i answers
    constructor
    · rintro ⟨rfl, filled⟩
      obtain ⟨value, member⟩ := List.exists_mem_of_ne_nil _ filled
      obtain ⟨noIndex, own⟩ := plain name value (mem_definedValues.mp member)
      rcases enumHas_iff.mp answers with declared | index | inherited
      · exact ⟨declared, rfl, filled⟩
      · exact absurd index noIndex
      · exact absurd inherited own
    · exact fun declared => declared.2
  · rename_i silent
    refine ⟨fun none => absurd none.1 none.2, fun declared => ?_⟩
    exact absurd (enumHas_iff.mpr (.inl declared.1)) silent

/-- The headers of a request are forwarded as declared exactly when none that has
a value is named by a number of the enum or by what every object inherits. -/
theorem forwardableHeaders_iff (headers : GenericHeaders) :
    (∃ result, forwardableHeaders headers = .ok result ∧ Forwarded headers result) ↔
      ∀ name value, (name, some value) ∈ headers.pairs →
        name ∉ indices forwardHeader ∧ name ∉ objectMembers := by
  have pairs : (some headers).elim [] GenericHeaders.pairs = headers.pairs := rfl
  constructor
  · rintro ⟨result, copied, forwarded⟩ name value member
    have answers (unlisted : name ∈ indices forwardHeader ∨ name ∈ objectMembers) :
        (name, value) ∈ headers.pairs.filterMap forwardable :=
      mem_forwardable.mpr ⟨member, enumHas_iff.mpr (.inr unlisted)⟩
    refine ⟨fun index => ?_, fun inherited => ?_⟩
    · have passes := answers (.inl index)
      have filled : valuesOf (headers.pairs.filterMap forwardable) name ≠ [] :=
        List.ne_nil_of_mem (mem_valuesOf.mpr passes)
      have entry := ((copyHeaders_collects copied).values name _).mpr ⟨rfl, filled⟩
      exact (declared_plain name ((forwarded.values name _).mp entry).1).1 index
    · exact copyHeaders_ok_iff.mp ⟨result, copied⟩ _ (answers (.inr inherited)) inherited
  · intro plain
    have copies : ∃ result, forwardableHeaders headers = .ok result := by
      refine copyHeaders_ok_iff.mpr fun pair passes => ?_
      rw [pairs] at passes
      exact (plain pair.1 pair.2 (mem_forwardable.mp passes).1).2
    obtain ⟨result, copied⟩ := copies
    exact ⟨result, copied, forwarded_of_copied copied plain⟩

/-- A header named by a number is forwarded, and one named as a member of every
object makes the call fail. -/
theorem forwardableHeaders_unlisted :
    (¬∃ result, forwardableHeaders (.plain [("7", .one "Bearer token")]) = .ok result ∧
      Forwarded (.plain [("7", .one "Bearer token")]) result) ∧
    forwardableHeaders (.plain [("constructor", .one "1")]) = .error notPush := by
  refine ⟨?_, rfl⟩
  rintro ⟨result, copied, forwarded⟩
  cases copied
  exact absurd ((forwarded.values "7" ["Bearer token"]).mp (.head _)).1 (by decide)

end Taql.Context

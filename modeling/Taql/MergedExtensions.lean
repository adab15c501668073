import Taql.Deadlines

/-! `packages/extensions/src/index.ts`, what a request to a subgraph is made on behalf
of, and the extensions of a query that is merged from several, in the Single style of
`packages/batching/src/executors.ts`. Both wrappers read what they keep before the
requests' own extensions are copied over it and write it back after, so it is what
the requests before had, whatever those extensions hold. -/
namespace Taql.MergedExtensions
open Context Deadlines JavaScript

def getPreregisteredQueryId (request : ExecutionRequest) : Option ExtensionValue :=
  (request.extensions.bind fun extensions => extensions.get "preRegisteredQueryId").or
    (request.context.bind fun context => context.params.bind fun params => params.extensions.bind fun extensions =>
      extensions.get "preRegisteredQueryId")

def getOperationName (request : ExecutionRequest) : Option String :=
  request.context.bind fun context => context.params.bind ServedParams.operationName

/-- An id is pushed if it is truthy. -/
def servicedId (request : ExecutionRequest) : List ExtensionValue :=
  (getPreregisteredQueryId request).toList.filter ExtensionValue.truthy

/-- A name is pushed if it is not empty. -/
def servicedName (request : ExecutionRequest) : List ExtensionValue :=
  ((getOperationName request).toList.filter fun name => name ≠ "").map .string

def readOfNull : JsError := ⟨"TypeError", "Cannot read properties of null (reading 'preregisteredQueries')"⟩

/-- The `servicing` object so far: anything that is no object is replaced, and so
is a list that is no array. -/
def servicing : Option ExtensionValue →
    Except JsError (List ExtensionValue × List ExtensionValue × String)
  | some (.object preregisteredQueries operationNames rest) =>
    .ok (preregisteredQueries.getD [], operationNames.getD [], rest)
  -- `typeof null` is 'object'
  | some .null => .error readOfNull
  | _ => .ok ([], [], "")

/-- `servicing` is read before the inner reducer runs, and written after. -/
def wrapReducer (reducer : ExtensionsReducer) : ExtensionsReducer := fun extensions nextRequest => do
  let (preregisteredQueries, operationNames, rest) ← servicing (extensions.own "servicing")
  let acc : ExtensionValue :=
    .object (some (preregisteredQueries ++ servicedId nextRequest))
      (some (operationNames ++ servicedName nextRequest)) rest
  let result ← reducer extensions nextRequest
  return result.set "servicing" acc

/-! ### In the headers of a request -/

/-- A value as it is written in a header. -/
def render : ExtensionValue → String
  | .undefined => "undefined"
  | .null => "null"
  | .boolean value => toString value
  | .number value => value.render
  | .string value => value
  | .object _ _ rest => rest

def upstreamHeadersFromContext (request : ExecutionRequest) : List (String × String) :=
  (servicedId request).map (fun id => ("x-taql-servicing-query-ids", render id)) ++
    (servicedName request).map fun name => ("x-taql-servicing-operation-names", render name)

/-- Each header with its different values, in the order they were met. -/
def mergeUpstreamHeaders (requests : List ExecutionRequest) : List (String × String) :=
  let pairs := requests.flatMap upstreamHeadersFromContext
  (pairs.map Prod.fst).eraseDups.map fun name => (name, ",".intercalate (Headers.valuesOf pairs name).eraseDups)

/-! ### A merged request -/

/-- `wrapReducerWithDeadlineHandling(wrapReducerWithAttribution())`. -/
def reducer : ExtensionsReducer := Deadlines.wrapReducer (wrapReducer defaultExtensionsReducer)

/-- The extensions of a merged request, reduced from an empty object. -/
def mergeExtensions (requests : List ExecutionRequest) : Except JsError Extensions :=
  requests.foldlM reducer .empty

/-- The merged request, which has the context of the first. -/
def mergeRequests (first : ExecutionRequest) (rest : List ExecutionRequest) : Except JsError ExecutionRequest := do
  let extensions ← mergeExtensions (first :: rest)
  return ⟨some extensions, first.context⟩

/-- What some requests were made on behalf of. -/
def serviced (requests : List ExecutionRequest) : ExtensionValue :=
  .object (some (requests.flatMap servicedId)) (some (requests.flatMap servicedName)) ""

/-- What the fold keeps of the requests it has seen. -/
structure Keeps (requests : List ExecutionRequest) (extensions : Extensions) : Prop where
  deadline : extensions.deadline = (requests.map getDeadline).foldl reduceDeadlines none
  servicing : servicing (extensions.own "servicing") =
    .ok (requests.flatMap servicedId, requests.flatMap servicedName, "")

theorem keeps_empty : Keeps [] .empty := ⟨rfl, rfl⟩

/-- A step adds the next request, and what it keeps is what it wrote. -/
theorem keeps_reducer {requests : List ExecutionRequest} {extensions : Extensions} (keeps : Keeps requests extensions)
    (next : ExecutionRequest) :
    ∃ merged, reducer extensions next = .ok merged ∧ Keeps (requests ++ [next]) merged ∧
      merged.own "servicing" = some (serviced (requests ++ [next])) := by
  refine ⟨⟨Function.update (extensions.assign next.extensions).own "servicing" (some (serviced (requests ++ [next]))),
    reduceDeadlines extensions.deadline (getDeadline next)⟩, ?_, ⟨?_, ?_⟩, ?_⟩
  · unfold reducer Deadlines.wrapReducer wrapReducer
    rw [keeps.servicing]
    simp only [serviced, List.flatMap_append, List.flatMap_singleton]
    rfl
  · rw [List.map_append, List.foldl_append, ← keeps.deadline]
    rfl
  · simp only [Function.update_self]
    rfl
  · simp only [Function.update_self]

theorem mergeExtensions_keeps (requests : List ExecutionRequest) :
    ∃ merged, mergeExtensions requests = .ok merged ∧ Keeps requests merged ∧
      (requests ≠ [] → merged.own "servicing" = some (serviced requests)) := by
  unfold mergeExtensions
  induction requests using List.reverseRecOn with
  | nil => exact ⟨.empty, rfl, keeps_empty, fun filled => absurd rfl filled⟩
  | append_singleton requests next ih =>
    obtain ⟨earlier, reduced, keeps, _⟩ := ih
    obtain ⟨merged, step, keeps', written⟩ := keeps_reducer keeps next
    refine ⟨merged, ?_, keeps', fun _ => written⟩
    rw [List.foldlM_append, reduced]
    simp only [bind, Except.bind, List.foldlM_cons, step, List.foldlM_nil, pure, Except.pure]

/-- A merged request has the deadline that is picked for a batch of the same
requests, unless that is none. -/
theorem getDeadline_merged {first : ExecutionRequest} {rest : List ExecutionRequest} {merged : ExecutionRequest}
    (made : mergeRequests first rest = .ok merged) :
    getDeadline merged = (((first :: rest).map getDeadline).foldl reduceDeadlines none).or
      ((first.context.bind TaqlState.taql).map TaqlContext.deadline) := by
  obtain ⟨extensions, reduced, keeps, _⟩ := mergeExtensions_keeps (first :: rest)
  unfold mergeRequests at made
  rw [reduced] at made
  cases made
  rw [← keeps.deadline]
  rfl

/-- The Single style times a batch as the other styles do: by the least of the
deadlines that are defined. -/
theorem getDeadline_least {first : ExecutionRequest} {rest : List ExecutionRequest} {merged : ExecutionRequest}
    (positive : ∀ request ∈ first :: rest, Positive (getDeadline request))
    (made : mergeRequests first rest = .ok merged) :
    getDeadline merged = (((first :: rest).map getDeadline).filterMap millis).min?.map .num := by
  have least : ((first :: rest).map getDeadline).foldl reduceDeadlines none =
      (((first :: rest).map getDeadline).filterMap millis).min?.map .num :=
    foldl_reduceDeadlines (List.forall_mem_map.mpr positive)
  rw [getDeadline_merged made, least]
  cases none_ : (((first :: rest).map getDeadline).filterMap millis).min? with
  | some value => rfl
  | none =>
    rw [List.min?_eq_none_iff, List.filterMap_eq_nil_iff] at none_
    have undefined : getDeadline first = none := by
      have noTime := none_ _ (List.mem_map_of_mem List.mem_cons_self)
      cases own : getDeadline first with
      | none => rfl
      | some value =>
        obtain ⟨time, rfl, _⟩ := positive first List.mem_cons_self value own
        rw [own] at noTime
        cases noTime
    exact (Option.or_eq_none_iff.mp undefined).2

/-- Requests merged in the Single style have the deadline a batch of them has in
the other styles, which is the least that is defined in whatever order they come,
and are attributed to every id and every operation they serve. -/
theorem merged_agrees (first : ExecutionRequest) (rest : List ExecutionRequest)
    (positive : ∀ request ∈ first :: rest, Positive (getDeadline request)) :
    ∃ merged extensions, mergeRequests first rest = .ok merged ∧ merged.extensions = some extensions ∧
      pickDeadline (first :: rest) = .ok (getDeadline merged) ∧
      getDeadline merged = (((first :: rest).map getDeadline).filterMap millis).min?.map .num ∧
      (∀ first' rest' merged', (first' :: rest').Perm (first :: rest) → mergeRequests first' rest' = .ok merged' →
        getDeadline merged' = getDeadline merged) ∧
      extensions.own "servicing" = some (serviced (first :: rest)) := by
  obtain ⟨extensions, reduced, keeps, written⟩ := mergeExtensions_keeps (first :: rest)
  have made : mergeRequests first rest = .ok ⟨some extensions, first.context⟩ := by
    unfold mergeRequests
    rw [reduced]
    rfl
  have least := getDeadline_least positive made
  refine ⟨_, extensions, made, rfl, ?_, least, ?_, written (List.cons_ne_nil _ _)⟩
  · rw [pickDeadline_eq_ok (List.cons_ne_nil _ _), least]
    exact congrArg _ (foldl_reduceDeadlines (List.forall_mem_map.mpr positive))
  · intro first' rest' merged' permuted made'
    have positive' : ∀ request ∈ first' :: rest', Positive (getDeadline request) :=
      fun request member => positive request (permuted.mem_iff.mp member)
    rw [getDeadline_least positive' made', least]
    exact congrArg _ (min?_perm ((permuted.map getDeadline).filterMap millis))

/-- A request of an operation, with an extension of its own. -/
def named (operationName : String) (taql : Option TaqlContext) (servicing : ExtensionValue) : ExecutionRequest where
  extensions := some ⟨Function.update (fun _ => none) "servicing" (some servicing), none⟩
  context := some ⟨some ⟨none, some operationName⟩, taql⟩

def timedContext : TaqlContext where
  ref := 0
  forwardHeaders := []
  deadline := .num 1700000000000
  legacyContext := ⟨"en-US", false, none, none⟩
  SVCO := none
  client := "web"

/-- A request without a deadline, and one that says it serves somebody else. -/
theorem merged_agrees_named : ∃ merged extensions,
    mergeRequests (named "Hotels" none .null) [named "Reviews" (some timedContext) (.string "everyone")] =
      .ok merged ∧ merged.extensions = some extensions ∧ getDeadline merged = some (.num 1700000000000) ∧
    extensions.own "servicing" = some (.object (some []) (some [.string "Hotels", .string "Reviews"]) "") := by
  have positive : ∀ request ∈ [named "Hotels" none .null, named "Reviews" (some timedContext) (.string "everyone")],
      Positive (getDeadline request) := by
    rintro request (_ | ⟨_, _ | ⟨_, ⟨⟩⟩⟩) value ⟨⟩
    exact ⟨_, rfl, by decide⟩
  obtain ⟨merged, extensions, made, own, _, least, _, written⟩ := merged_agrees _ _ positive
  exact ⟨merged, extensions, made, own, least, written⟩

end Taql.MergedExtensions

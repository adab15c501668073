import Taql.GatewayTokens
import Taql.Redis
import Taql.Runs

/-! `useSchema` of `packages/server/src/useSchema.ts`, over `makeSchema` and
`overrideSupergraphWithSvco` of `packages/schema/src/schema.ts`: the schema for the
overrides of a request is built when it is first asked for, and kept for others. A schema
is told by the subgraphs it is stitched from. -/
namespace Taql.SchemaSelection
open BatchingExecutors GatewayTokens JavaScript Runs Strategies Urls

/-- The URL of a subgraph is text in a supergraph that was parsed. -/
inductive UrlValue where
  | text (href : String)
  | object (url : Url)

/-- `legacyTransforms`, or what a manifest has in their place. -/
inductive Transforms where
  | absent
  | legacyTransforms
  | other
  deriving DecidableEq

structure Batching where
  style : Option BatchStyle
  strategy : Option BatchingStrategy
  maxSize : Option Nat
  waitMillis : Option Nat

structure ExecutorConfig where
  url : UrlValue
  oidcLiteAuthorizationDomain : Option String
  maxTimeoutMillis : Option Nat
  batching : Option Batching

/-- `space` is the `namespace`. -/
structure Subgraph where
  name : String
  space : String
  sdl : String
  executorConfig : ExecutorConfig
  transforms : Transforms

/-- What is used of a supergraph; the subgraphs are objects, known by their places. -/
structure Supergraph where
  manifest : List Nat
  legacyDigest : Option String

structure Schema where
  subgraphs : List Subgraph

/-- `new URL(text)`, `url.href`, the reading of hosts, and the digest of an SDL. -/
structure Outside where
  hosts : Url.HostParser
  parse : String → Except JsError Url
  href : Url → String
  digest : String → String

/-! ### Building a schema -/

def isLegacy (subgraph : Subgraph) : Bool := subgraph.name = "legacy-graphql"

/-- The subgraphs of a manifest, as they are. -/
def read (objects : List Subgraph) (manifest : List Nat) : List Subgraph :=
  manifest.filterMap fun place => objects[place]?

/-- What `makeSchema` does to the objects of a manifest before it stitches them. -/
def makeSchema (objects : List Subgraph) (manifest : List Nat) : List Subgraph :=
  match (manifest.filter fun place => (objects[place]?).any isLegacy).getLast? with
  | none => objects
  | some place => objects.modify place fun subgraph => { subgraph with transforms := .legacyTransforms }

/-- The arguments for the schema of an override, by the subgraph it overrides. -/
def legacyArgs (outside : Outside) (legacySubgraph : Subgraph) (legacySVCO : String) : Except JsError LegacyArgs := do
  let legacyHost ← match legacySubgraph.executorConfig.url with
    | .text href => outside.parse href
    | .object url => .ok url
  .ok ⟨legacyHost, legacySubgraph.executorConfig.oidcLiteAuthorizationDomain, some legacySVCO⟩

/-- The subgraph `getLegacySubgraph` makes of an SDL: it is configured as the one it
overrides, as far as that says anything. -/
def legacyOverride (outside : Outside) (legacySubgraph : Subgraph) (args : LegacyArgs) (sdl : String) : Subgraph where
  name := "legacy-graphql"
  space := "Global"
  sdl := sdl
  executorConfig :=
    let config := legacySubgraph.executorConfig
    { url := .object (joined (rootUrl outside.hosts args) "v1/graphqlBatched")
      oidcLiteAuthorizationDomain := args.oidcLiteAuthorizationDomain
      maxTimeoutMillis := some (config.maxTimeoutMillis.getD 5000)
      batching := some {
        style := some ((config.batching.bind Batching.style).getD .Legacy)
        strategy := some ((config.batching.bind Batching.strategy).getD .Headers)
        maxSize := some ((config.batching.bind Batching.maxSize).getD 250)
        waitMillis := some ((config.batching.bind Batching.waitMillis).getD 200) } }
  transforms := .legacyTransforms

/-- `==` of the URL of a subgraph that was just made and another: an object is equal to a
text that it is written as, and to no other object. -/
def looseEq (outside : Outside) : UrlValue → UrlValue → Bool
  | .object url, .text href | .text href, .object url => outside.href url = href
  | .text href, .text href' => href = href'
  | .object _, .object _ => false

/-- `overrideSupergraphWithSvco` up to `makeSchema`, with what the schema of the override
loads as: the subgraph that is added, if anything changes. -/
def overrideSupergraphWithSvco (outside : Outside) (objects : List Subgraph) (supergraph : Supergraph)
    (legacySVCO : String) (sdl : Except JsError String) : Except JsError (Option Subgraph) :=
  match (read objects supergraph.manifest).find? isLegacy with
  | none => .ok none
  | some legacySubgraph => do
    let args ← legacyArgs outside legacySubgraph legacySVCO
    let sdl ← sdl
    let override := legacyOverride outside legacySubgraph args sdl
    .ok (if some (outside.digest sdl) = supergraph.legacyDigest &&
        looseEq outside override.executorConfig.url legacySubgraph.executorConfig.url then none
      else some override)

/-! ### The requests -/

/-- How far a build for some overrides has come. -/
inductive Phase where
  | loading
  | stitching (subgraphs : List Subgraph)
  | settled

structure Build where
  svco : String
  phase : Phase

/-- An entry of `schemaForSVCOCache`. While a build takes the place of a schema that is
out of date, that one is served. -/
inductive Entry where
  | schema (schema : Schema)
  | building (build : Nat) (stale : Option Schema)

/-- How far the parsing of a request has come; the hooks may wait for a build. -/
inductive Status where
  | unknown
  | parsing
  | waiting (build : Nat)
  | ready
  | failed
  deriving DecidableEq

structure State where
  objects : List Subgraph
  builds : List Build
  schemaForSVCOCache : String → Option Entry
  status : Nat → Status
  schemaByRequest : Nat → Option Schema

/-- What stitching comes to: a schema, whole or partial, errors alone, or an exception. -/
inductive StitchResult where
  | schema
  | error
  | thrown
  deriving DecidableEq

/-- Requests go through the hooks, builds go on, and entries are dropped, in any order.
Whether an entry is out of date is said when it is asked for. -/
inductive Event where
  | onRequestParse (request : Nat)
  | onRequestParseDone (request : Nat) (outOfDate : Bool)
  | onEnveloped (request : Nat)
  | loaded (build : Nat) (sdl : Except JsError String)
  | stitched (build : Nat) (result : StitchResult)
  | evict (svco : String)

/-- The schema an operation of a request is executed with. -/
structure Served where
  request : Nat
  schema : Option Schema

def Entry.isOf (build : Nat) : Entry → Bool
  | .building build' _ => build' = build
  | .schema _ => false

namespace State
variable (state : State)

def setPhase (build : Nat) (phase : Phase) : State :=
  { state with builds := state.builds.modify build fun building => { building with phase } }

/-- A request goes on with a schema. -/
def choose (request : Nat) (schema : Schema) : State :=
  { state with
    status := Function.update state.status request .ready
    schemaByRequest := Function.update state.schemaByRequest request (some schema) }

def wait (request build : Nat) : State :=
  { state with status := Function.update state.status request (.waiting build) }

/-- The build that is started for some overrides is the next one. -/
def fetch (svco : String) (stale : Option Schema) : State :=
  { state with
    builds := state.builds ++ [⟨svco, .loading⟩]
    schemaForSVCOCache := Function.update state.schemaForSVCOCache svco (some (.building state.builds.length stale)) }

/-- The entry of a build that is over, unless another has taken its place. -/
def setEntry (svco : String) (build : Nat) (entry : Option Entry) : State :=
  { state with
    schemaForSVCOCache :=
      if (state.schemaForSVCOCache svco).any (Entry.isOf build) then
        Function.update state.schemaForSVCOCache svco entry
      else state.schemaForSVCOCache }

/-- A build answers: those that wait for it go on. -/
def resolve (svco : String) (build : Nat) (schema : Schema) : State :=
  let entered := state.setEntry svco build (some (.schema schema))
  { entered with
    status := fun request => if state.status request = .waiting build then .ready else state.status request
    schemaByRequest := fun request =>
      if state.status request = .waiting build then some schema else state.schemaByRequest request }

/-- Those that wait for a build fail with it. -/
def reject (svco : String) (build : Nat) : State :=
  let dropped := state.setEntry svco build none
  { dropped with
    status := fun request => if state.status request = .waiting build then .failed else state.status request }

end State

section Machine
variable (outside : Outside) (supergraph : Supergraph) (defaultSchema : Schema) (svco : Nat → Option String)

/-- `schemaForSVCOCache.lruCache.fetch(svco, { allowStale: true })`, for a request. -/
def lruFetch (state : State) (request : Nat) (svco : String) (outOfDate : Bool) : State :=
  match state.schemaForSVCOCache svco with
  | none => (state.fetch svco none).wait request state.builds.length
  | some (.schema schema) =>
    if outOfDate then (state.fetch svco (some schema)).choose request schema else state.choose request schema
  | some (.building _ (some stale)) => state.choose request stale
  | some (.building build none) => state.wait request build

/-- What a build does once the schema of the override is loaded, or cannot be. -/
def load (state : State) (build : Nat) (own : String) (sdl : Except JsError String) : State :=
  match overrideSupergraphWithSvco outside state.objects supergraph own sdl with
  | .error _ => (state.setPhase build .settled).reject own build
  | .ok none => (state.setPhase build .settled).resolve own build defaultSchema
  | .ok (some override) =>
    let manifest := supergraph.manifest ++ [state.objects.length]
    let objects := makeSchema (state.objects ++ [override]) manifest
    { state.setPhase build (.stitching (read objects manifest)) with objects }

def stitched (state : State) (build : Nat) (own : String) (subgraphs : List Subgraph) : StitchResult → State
  | .schema => (state.setPhase build .settled).resolve own build ⟨subgraphs⟩
  | .error => (state.setPhase build .settled).resolve own build defaultSchema
  | .thrown => (state.setPhase build .settled).reject own build

/-- `svco` says what the context of a request has as its overrides. -/
def step (state : State) : Event → State × List Served
  | .onRequestParse request =>
    match state.status request with
    | .unknown =>
      if svco request = none || svco request = some "" then (state.choose request defaultSchema, [])
      else ({ state with status := Function.update state.status request .parsing }, [])
    | _ => (state, [])
  | .onRequestParseDone request outOfDate =>
    match state.status request, svco request with
    | .parsing, some own => (lruFetch state request own outOfDate, [])
    | _, _ => (state, [])
  | .onEnveloped request =>
    if state.status request = .ready then (state, [⟨request, state.schemaByRequest request⟩]) else (state, [])
  | .loaded build sdl =>
    match state.builds[build]? with
    | some ⟨own, .loading⟩ => (load outside supergraph defaultSchema state build own sdl, [])
    | _ => (state, [])
  | .stitched build result =>
    match state.builds[build]? with
    | some ⟨own, .stitching subgraphs⟩ => (stitched defaultSchema state build own subgraphs result, [])
    | _ => (state, [])
  | .evict own =>
    match state.schemaForSVCOCache own with
    | some (.building build _) => (state.reject own build, [])
    | _ => ({ state with schemaForSVCOCache := Function.update state.schemaForSVCOCache own none }, [])

end Machine

/-- A server whose supergraph is made of some subgraphs, each its own object. -/
def initial (subgraphs : List Subgraph) : State where
  objects := makeSchema subgraphs (List.range subgraphs.length)
  builds := []
  schemaForSVCOCache := fun _ => none
  status := fun _ => .unknown
  schemaByRequest := fun _ => none

/-- The plugin, in a server that starts with these subgraphs. -/
def useSchema (outside : Outside) (subgraphs : List Subgraph) (legacyDigest : Option String)
    (svco : Nat → Option String) : Machine State Event Served where
  start := initial subgraphs
  step := step outside ⟨List.range subgraphs.length, legacyDigest⟩ ⟨(initial subgraphs).objects⟩ svco

/-! ### The objects -/

theorem length_makeSchema (objects : List Subgraph) (manifest : List Nat) :
    (makeSchema objects manifest).length = objects.length := by
  unfold makeSchema
  split
  · rfl
  · exact List.length_modify ..

theorem read_range (objects : List Subgraph) (count : Nat) : read objects (List.range count) = objects.take count := by
  unfold read
  induction count with
  | zero => rfl
  | succ count ih =>
    have last : [count].filterMap (fun place => objects[place]?) = objects[count]?.toList := by
      cases held : objects[count]? <;> simp [held]
    rw [List.range_succ, List.filterMap_append, ih, last, List.take_add_one]

theorem read_append (objects : List Subgraph) (manifest more : List Nat) :
    read objects (manifest ++ more) = read objects manifest ++ read objects more := List.filterMap_append

/-- The transforms are given to the subgraph that was just added, and to no other. -/
theorem makeSchema_override (objects : List Subgraph) (manifest : List Nat) {override : Subgraph}
    (legacy : isLegacy override = true) (transforms : override.transforms = .legacyTransforms) :
    makeSchema (objects ++ [override]) (manifest ++ [objects.length]) = objects ++ [override] := by
  have added : (objects ++ [override])[objects.length]? = some override := List.getElem?_concat_length
  have last :
      ((manifest ++ [objects.length]).filter fun place => ((objects ++ [override])[place]?).any isLegacy).getLast? =
      some objects.length := by
    rw [List.filter_append, List.filter_singleton, added, Option.any_some, legacy, cond_true, List.getLast?_concat]
  unfold makeSchema
  rw [last]
  dsimp only
  refine List.ext_getElem? fun place => ?_
  rw [List.getElem?_modify]
  by_cases same : objects.length = place
  · subst same
    rw [added]
    simp [← transforms]
  · simp [same]

/-! ### Whose schema it is -/

section Spec
variable (outside : Outside) (defaults : List Subgraph) (Loaded : String → String → Prop)

/-- What a schema for some overrides is stitched from: the subgraphs of the default, and
with them the legacy subgraph as it was loaded for these overrides, if it was. -/
inductive SchemaFor (svco : String) : Schema → Prop where
  | unchanged : SchemaFor svco ⟨defaults⟩
  | overridden {legacySubgraph : Subgraph} {args : LegacyArgs} {sdl : String}
      (found : defaults.find? isLegacy = some legacySubgraph) (read : legacyArgs outside legacySubgraph svco = .ok args)
      (loaded : Loaded svco sdl) : SchemaFor svco ⟨defaults ++ [legacyOverride outside legacySubgraph args sdl]⟩

/-- A request without overrides gets the default, any other one its own schema. -/
def Right (svco : Option String) (schema : Schema) : Prop :=
  (svco = none ∨ svco = some "") ∧ schema = ⟨defaults⟩ ∨
    ∃ own, svco = some own ∧ own ≠ "" ∧ SchemaFor outside defaults Loaded own schema

variable {outside defaults Loaded}

theorem SchemaFor.mono {Loaded' : String → String → Prop} (more : ∀ svco sdl, Loaded svco sdl → Loaded' svco sdl)
    {svco : String} {schema : Schema} (own : SchemaFor outside defaults Loaded svco schema) :
    SchemaFor outside defaults Loaded' svco schema := by
  cases own with
  | unchanged => exact .unchanged
  | overridden found read loaded => exact .overridden found read (more _ _ loaded)

theorem Right.mono {Loaded' : String → String → Prop} (more : ∀ svco sdl, Loaded svco sdl → Loaded' svco sdl)
    {svco : Option String} {schema : Schema} (right : Right outside defaults Loaded svco schema) :
    Right outside defaults Loaded' svco schema := by
  rcases right with plain | ⟨own, is, named, schemaFor⟩
  · exact .inl plain
  · exact .inr ⟨own, is, named, schemaFor.mono more⟩

end Spec

/-- The overrides a build is for. -/
def State.svcoOf (state : State) (build : Nat) : Option String := (state.builds[build]?).map Build.svco

section Invariant
variable (outside : Outside) (defaults : List Subgraph) (Loaded : String → String → Prop) (svco : Nat → Option String)

/-- An entry is for the overrides it is kept under. -/
def EntryRight (svcoOf : Nat → Option String) (own : String) : Entry → Prop
  | .schema schema => SchemaFor outside defaults Loaded own schema
  | .building build stale => svcoOf build = some own ∧ ∀ schema ∈ stale, SchemaFor outside defaults Loaded own schema

/-- A request waits for a build for its own overrides, and goes on with the right schema. -/
def RequestRight (svcoOf : Nat → Option String) (request : Nat) (chosen : Option Schema) : Status → Prop
  | .unknown | .failed => True
  | .parsing => ∃ own, svco request = some own ∧ own ≠ ""
  | .waiting build => ∃ own, svco request = some own ∧ own ≠ "" ∧ svcoOf build = some own
  | .ready => ∃ schema, chosen = some schema ∧ Right outside defaults Loaded (svco request) schema

/-- The objects of the default are as they were, and all that is kept, built or waited for
stays with the overrides it is for. -/
structure Apart (state : State) : Prop where
  objects : ∃ more, state.objects = defaults ++ more
  stitching : ∀ (build : Nat) (svco : String) (subgraphs : List Subgraph),
    state.builds[build]? = some ⟨svco, .stitching subgraphs⟩ → SchemaFor outside defaults Loaded svco ⟨subgraphs⟩
  entries : ∀ svco entry, state.schemaForSVCOCache svco = some entry →
    EntryRight outside defaults Loaded state.svcoOf svco entry
  requests : ∀ request, RequestRight outside defaults Loaded svco state.svcoOf request
    (state.schemaByRequest request) (state.status request)

variable {outside defaults Loaded svco} {state : State}

theorem Apart.mono {Loaded' : String → String → Prop} (more : ∀ svco sdl, Loaded svco sdl → Loaded' svco sdl)
    (apart : Apart outside defaults Loaded svco state) : Apart outside defaults Loaded' svco state := by
  refine ⟨apart.objects, fun build svco subgraphs held => (apart.stitching build svco subgraphs held).mono more, ?_, ?_⟩
  · intro svco entry held
    have right := apart.entries svco entry held
    cases entry with
    | schema schema => exact SchemaFor.mono more right
    | building build stale => exact ⟨right.1, fun schema member => (right.2 schema member).mono more⟩
  · intro request
    have right := apart.requests request
    cases is : state.status request with
    | unknown => trivial
    | failed => trivial
    | parsing => rwa [is] at right
    | waiting build => rwa [is] at right
    | ready =>
      rw [is] at right
      obtain ⟨schema, chosen, fits⟩ := right
      exact ⟨schema, chosen, fits.mono more⟩

theorem svcoOf_setPhase (build : Nat) (phase : Phase) : (state.setPhase build phase).svcoOf = state.svcoOf := by
  funext other
  unfold State.svcoOf State.setPhase
  rw [List.getElem?_modify]
  cases state.builds[other]? with
  | none => rfl
  | some building => by_cases same : build = other <;> simp [same]

theorem Apart.setPhase (apart : Apart outside defaults Loaded svco state) {build : Nat} {phase : Phase}
    (fits : ∀ svco subgraphs, state.svcoOf build = some svco → phase = .stitching subgraphs →
      SchemaFor outside defaults Loaded svco ⟨subgraphs⟩) :
    Apart outside defaults Loaded svco (state.setPhase build phase) := by
  have entries := apart.entries
  have requests := apart.requests
  rw [← svcoOf_setPhase build phase] at entries requests
  refine ⟨apart.objects, fun other svco subgraphs held => ?_, entries, requests⟩
  unfold State.setPhase at held
  rw [List.getElem?_modify] at held
  by_cases same : build = other
  · subst same
    simp only [↓reduceIte] at held
    obtain ⟨building, was, is⟩ := Option.map_eq_some_iff.mp held
    refine fits svco subgraphs ?_ (congrArg Build.phase is)
    have named : building.svco = svco := congrArg Build.svco is
    rw [State.svcoOf, was, Option.map_some, named]
  · simp only [if_neg same] at held
    exact apart.stitching other svco subgraphs (by simpa using held)

/-- What happens to one request only. -/
theorem Apart.update (apart : Apart outside defaults Loaded svco state) {request : Nat}
    {chosen : Option Schema} {status : Status}
    (right : RequestRight outside defaults Loaded svco state.svcoOf request chosen status) :
    Apart outside defaults Loaded svco { state with
      status := Function.update state.status request status
      schemaByRequest := Function.update state.schemaByRequest request chosen } := by
  refine ⟨apart.objects, apart.stitching, apart.entries, fun other => ?_⟩
  change RequestRight outside defaults Loaded svco state.svcoOf _ _ _
  by_cases same : other = request
  · subst same
    simpa only [Function.update_self] using right
  · simpa only [Function.update_of_ne same] using apart.requests other

theorem Apart.choose (apart : Apart outside defaults Loaded svco state) {request : Nat} {schema : Schema}
    (right : Right outside defaults Loaded (svco request) schema) :
    Apart outside defaults Loaded svco (state.choose request schema) := by
  have ready : RequestRight outside defaults Loaded svco state.svcoOf request (some schema) .ready :=
    ⟨schema, rfl, right⟩
  exact apart.update ready

theorem Apart.wait (apart : Apart outside defaults Loaded svco state) {request build : Nat} {own : String}
    (its : svco request = some own) (named : own ≠ "") (built : state.svcoOf build = some own) :
    Apart outside defaults Loaded svco (state.wait request build) := by
  have waits : RequestRight outside defaults Loaded svco state.svcoOf request (state.schemaByRequest request)
      (.waiting build) := ⟨own, its, named, built⟩
  have updated := apart.update waits
  rwa [Function.update_eq_self] at updated

theorem svcoOf_append {builds : List Build} {svco : String} {other : Nat} {next : Build}
    (built : (builds[other]?).map Build.svco = some svco) :
    ((builds ++ [next])[other]?).map Build.svco = some svco := by
  obtain ⟨building, held, is⟩ := Option.map_eq_some_iff.mp built
  rw [List.getElem?_append_left (List.getElem?_eq_some_iff.mp held).1, held, Option.map_some, is]

theorem Apart.fetch (apart : Apart outside defaults Loaded svco state) {overrides : String} {stale : Option Schema}
    (old : ∀ schema ∈ stale, SchemaFor outside defaults Loaded overrides schema) :
    Apart outside defaults Loaded svco (state.fetch overrides stale) := by
  have last : (state.fetch overrides stale).svcoOf state.builds.length = some overrides := by
    unfold State.svcoOf State.fetch
    rw [List.getElem?_concat_length]
    rfl
  refine ⟨apart.objects, fun build own subgraphs held => ?_, fun own entry held => ?_, fun request => ?_⟩
  · unfold State.fetch at held
    rw [List.getElem?_append] at held
    split at held
    · exact apart.stitching build own subgraphs held
    · obtain ⟨_, is⟩ := List.getElem?_eq_some_iff.mp held
      rw [List.getElem_singleton] at is
      cases is
  · by_cases same : own = overrides
    · subst same
      have is : entry = .building state.builds.length stale := by
        simpa [State.fetch] using held.symm
      subst is
      exact ⟨last, old⟩
    · have right := apart.entries own entry (by simpa [State.fetch, same] using held)
      cases entry with
      | schema schema => exact right
      | building build stale => exact ⟨svcoOf_append right.1, right.2⟩
  · have right := apart.requests request
    change RequestRight _ _ _ _ _ _ _ (state.status request)
    cases is : state.status request with
    | unknown => trivial
    | failed => trivial
    | parsing => rwa [is] at right
    | ready => rwa [is] at right
    | waiting build =>
      rw [is] at right
      obtain ⟨own, its, named, built⟩ := right
      exact ⟨own, its, named, svcoOf_append built⟩

theorem Apart.setEntry (apart : Apart outside defaults Loaded svco state) {overrides : String} {build : Nat}
    {entry : Option Entry}
    (right : ∀ entry' ∈ entry, EntryRight outside defaults Loaded state.svcoOf overrides entry') :
    Apart outside defaults Loaded svco (state.setEntry overrides build entry) := by
  refine ⟨apart.objects, apart.stitching, fun own entry' held => ?_, apart.requests⟩
  unfold State.setEntry at held
  dsimp only at held
  split at held
  · by_cases same : own = overrides
    · subst same
      rw [Function.update_self] at held
      exact right entry' held
    · rw [Function.update_of_ne same] at held
      exact apart.entries own entry' held
  · exact apart.entries own entry' held

/-- Those that wait for a build wait for their own overrides. -/
theorem Apart.own (apart : Apart outside defaults Loaded svco state) {request build : Nat} {overrides : String}
    (waits : state.status request = .waiting build) (built : state.svcoOf build = some overrides) :
    svco request = some overrides ∧ overrides ≠ "" := by
  have right := apart.requests request
  rw [waits] at right
  obtain ⟨own, its, named, built'⟩ := right
  cases built.symm.trans built'
  exact ⟨its, named⟩

theorem Apart.resolve (apart : Apart outside defaults Loaded svco state) {overrides : String} {build : Nat}
    {schema : Schema} (built : state.svcoOf build = some overrides)
    (fits : SchemaFor outside defaults Loaded overrides schema) :
    Apart outside defaults Loaded svco (state.resolve overrides build schema) := by
  have entered : Apart outside defaults Loaded svco (state.setEntry overrides build (some (.schema schema))) := by
    refine apart.setEntry ?_
    rintro _ ⟨⟩
    exact fits
  refine ⟨entered.objects, entered.stitching, entered.entries, fun request => ?_⟩
  unfold State.resolve
  dsimp only
  by_cases waits : state.status request = .waiting build
  · obtain ⟨its, named⟩ := apart.own waits built
    rw [if_pos waits, if_pos waits]
    exact ⟨schema, rfl, .inr ⟨overrides, its, named, fits⟩⟩
  · rw [if_neg waits, if_neg waits]
    exact apart.requests request

theorem Apart.reject (apart : Apart outside defaults Loaded svco state) (overrides : String) (build : Nat) :
    Apart outside defaults Loaded svco (state.reject overrides build) := by
  have dropped : Apart outside defaults Loaded svco (state.setEntry overrides build none) := by
    refine apart.setEntry ?_
    rintro _ ⟨⟩
  refine ⟨dropped.objects, dropped.stitching, dropped.entries, fun request => ?_⟩
  unfold State.reject
  dsimp only
  by_cases waits : state.status request = .waiting build
  · rw [if_pos waits]
    trivial
  · rw [if_neg waits]
    exact apart.requests request

end Invariant

/-! ### The steps -/

section Steps
variable {outside : Outside} {supergraph : Supergraph} {defaults : List Subgraph} {Loaded : String → String → Prop}
  {svco : Nat → Option String} {state : State}

/-- What an override adds is the legacy subgraph of the default, as loaded for it. -/
theorem override_eq {objects : List Subgraph} {overrides : String} {sdl : Except JsError String} {override : Subgraph}
    (added : overrideSupergraphWithSvco outside objects supergraph overrides sdl = .ok (some override)) :
    ∃ legacySubgraph args text, (read objects supergraph.manifest).find? isLegacy = some legacySubgraph ∧
      legacyArgs outside legacySubgraph overrides = .ok args ∧ sdl = .ok text ∧
      override = legacyOverride outside legacySubgraph args text := by
  unfold overrideSupergraphWithSvco at added
  cases found : (read objects supergraph.manifest).find? isLegacy with
  | none =>
    rw [found] at added
    cases added
  | some legacySubgraph =>
    rw [found] at added
    cases asked : legacyArgs outside legacySubgraph overrides with
    | error error =>
      simp only [asked, bind, Except.bind] at added
      cases added
    | ok args =>
      cases sdl with
      | error error =>
        simp only [asked, bind, Except.bind] at added
        cases added
      | ok text =>
        simp only [asked, bind, Except.bind, Except.ok.injEq] at added
        split at added
        · cases added
        · exact ⟨legacySubgraph, args, text, rfl, asked, rfl, (Option.some.inj added).symm⟩

theorem Apart.lruFetch (apart : Apart outside defaults Loaded svco state) {request : Nat} {own : String}
    (its : svco request = some own) (named : own ≠ "") (outOfDate : Bool) :
    Apart outside defaults Loaded svco (lruFetch state request own outOfDate) := by
  have right {schema : Schema} (fits : SchemaFor outside defaults Loaded own schema) :
      Right outside defaults Loaded (svco request) schema := .inr ⟨own, its, named, fits⟩
  unfold SchemaSelection.lruFetch
  cases held : state.schemaForSVCOCache own with
  | none =>
    have fetched : Apart outside defaults Loaded svco (state.fetch own none) := apart.fetch (by simp)
    refine fetched.wait its named ?_
    unfold State.svcoOf State.fetch
    rw [List.getElem?_concat_length]
    rfl
  | some entry =>
    have fits := apart.entries own entry held
    cases entry with
    | schema schema =>
      dsimp only
      split
      · have fetched : Apart outside defaults Loaded svco (state.fetch own (some schema)) := by
          refine apart.fetch ?_
          rintro _ ⟨⟩
          exact fits
        exact fetched.choose (right fits)
      · exact apart.choose (right fits)
    | building build stale =>
      cases stale with
      | none => exact apart.wait its named fits.1
      | some schema => exact apart.choose (right (fits.2 schema rfl))

theorem Apart.load (apart : Apart outside defaults Loaded svco state)
    (manifest : supergraph.manifest = List.range defaults.length) {build : Nat} {own : String}
    {sdl : Except JsError String} (built : state.svcoOf build = some own)
    (loaded : ∀ text, sdl = .ok text → Loaded own text) :
    Apart outside defaults Loaded svco (load outside supergraph ⟨defaults⟩ state build own sdl) := by
  have settled : Apart outside defaults Loaded svco (state.setPhase build .settled) := apart.setPhase (by simp)
  have still : (state.setPhase build .settled).svcoOf build = some own := by rwa [svcoOf_setPhase]
  obtain ⟨more, objects⟩ := apart.objects
  have whole : read state.objects supergraph.manifest = defaults := by
    rw [manifest, read_range, objects, List.take_left]
  unfold SchemaSelection.load
  cases added : overrideSupergraphWithSvco outside state.objects supergraph own sdl with
  | error error => exact settled.reject own build
  | ok override =>
    cases override with
    | none => exact settled.resolve still .unchanged
    | some override =>
      obtain ⟨legacySubgraph, args, text, found, asked, answer, rfl⟩ := override_eq added
      rw [whole] at found
      generalize made : legacyOverride outside legacySubgraph args text = override
      have kept : makeSchema (state.objects ++ [override]) (supergraph.manifest ++ [state.objects.length]) =
          state.objects ++ [override] := by
        refine makeSchema_override _ _ ?_ ?_
        · rw [← made]
          rfl
        · rw [← made]
          rfl
      have first : read (state.objects ++ [override]) supergraph.manifest = defaults := by
        rw [manifest, read_range, objects, List.append_assoc, List.take_left]
      have last : read (state.objects ++ [override]) [state.objects.length] = [override] := by simp [read]
      have phased :
          Apart outside defaults Loaded svco (state.setPhase build (.stitching (defaults ++ [override]))) := by
        refine apart.setPhase fun other subgraphs its is => ?_
        cases its.symm.trans built
        cases is
        rw [← made]
        exact .overridden found asked (loaded text answer)
      dsimp only
      rw [kept, read_append, first, last]
      refine ⟨⟨more ++ [override], ?_⟩, phased.stitching, phased.entries, phased.requests⟩
      rw [objects, List.append_assoc]

/-- A request without overrides gets the default schema; another waits for its entry. -/
theorem Apart.receive (apart : Apart outside defaults Loaded svco state) (request : Nat) :
    Apart outside defaults Loaded svco
      (SchemaSelection.step outside supergraph ⟨defaults⟩ svco state (.onRequestParse request)).1 := by
  unfold SchemaSelection.step
  dsimp only
  cases is : state.status request with
  | parsing | ready | failed => exact apart
  | waiting build => exact apart
  | unknown =>
    dsimp only
    by_cases plain : (svco request = none || svco request = some "") = true
    · rw [if_pos plain]
      exact apart.choose (.inl ⟨by simpa using plain, rfl⟩)
    · rw [if_neg plain]
      have named : ∃ own, svco request = some own ∧ own ≠ "" := by
        cases its : svco request with
        | none => simp [its] at plain
        | some own => exact ⟨own, rfl, by simpa [its] using plain⟩
      have right : RequestRight outside defaults Loaded svco state.svcoOf request (state.schemaByRequest request)
          .parsing := named
      have updated := apart.update right
      rwa [Function.update_eq_self] at updated

/-- A build whose subgraphs are those of its overrides ends as it was stitched. -/
theorem Apart.stitched (apart : Apart outside defaults Loaded svco state) {build : Nat} {own : String}
    {subgraphs : List Subgraph} (held : state.builds[build]? = some ⟨own, .stitching subgraphs⟩)
    (result : StitchResult) :
    Apart outside defaults Loaded svco (SchemaSelection.stitched ⟨defaults⟩ state build own subgraphs result) := by
  have built : state.svcoOf build = some own := congrArg (Option.map Build.svco) held
  have settled : Apart outside defaults Loaded svco (state.setPhase build .settled) := apart.setPhase (by simp)
  have still : (state.setPhase build .settled).svcoOf build = some own := by rwa [svcoOf_setPhase]
  cases result with
  | schema => exact settled.resolve still (apart.stitching build own subgraphs held)
  | error => exact settled.resolve still .unchanged
  | thrown => exact settled.reject own build

theorem Apart.evict (apart : Apart outside defaults Loaded svco state) (own : String) :
    Apart outside defaults Loaded svco
      { state with schemaForSVCOCache := Function.update state.schemaForSVCOCache own none } := by
  refine ⟨apart.objects, apart.stitching, fun other entry held => ?_, apart.requests⟩
  dsimp only at held
  by_cases same : other = own
  · subst same
    rw [Function.update_self] at held
    cases held
  · rw [Function.update_of_ne same] at held
    exact apart.entries other entry held

/-- A step keeps everything apart, when what it loads is loaded for the overrides of the
build that waits for it. -/
theorem Apart.step (apart : Apart outside defaults Loaded svco state)
    (manifest : supergraph.manifest = List.range defaults.length) {event : Event}
    (loaded : ∀ build own text, event = .loaded build (.ok text) → state.builds[build]? = some ⟨own, .loading⟩ →
      Loaded own text) :
    Apart outside defaults Loaded svco (step outside supergraph ⟨defaults⟩ svco state event).1 := by
  cases event with
  | onRequestParse request => exact apart.receive request
  | onRequestParseDone request outOfDate =>
    have right := apart.requests request
    unfold SchemaSelection.step
    dsimp only
    split
    · rename_i own is its
      rw [is] at right
      obtain ⟨own, its', named⟩ := right
      cases its.symm.trans its'
      exact apart.lruFetch its named outOfDate
    · exact apart
  | onEnveloped request =>
    unfold SchemaSelection.step
    dsimp only
    split <;> exact apart
  | loaded build sdl =>
    unfold SchemaSelection.step
    dsimp only
    split
    · rename_i own held
      have built : state.svcoOf build = some own := congrArg (Option.map Build.svco) held
      exact apart.load manifest built fun text is => loaded build own text (by rw [is]) held
    · exact apart
  | stitched build result =>
    unfold SchemaSelection.step
    dsimp only
    split
    · rename_i own subgraphs held
      exact apart.stitched held result
    · exact apart
  | evict own =>
    unfold SchemaSelection.step
    dsimp only
    split
    · exact apart.reject own _
    · exact apart.evict own

/-- What is served is what a request that is ready was given. -/
theorem served_of_step {event : Event} {defaultSchema : Schema} {served : Served}
    (member : served ∈ (SchemaSelection.step outside supergraph defaultSchema svco state event).2) :
    ∃ request, state.status request = .ready ∧ served = ⟨request, state.schemaByRequest request⟩ := by
  cases event with
  | onEnveloped request =>
    unfold SchemaSelection.step at member
    dsimp only at member
    split at member
    · rename_i ready
      exact ⟨request, ready, List.mem_singleton.mp member⟩
    · cases member
  | _ =>
    unfold SchemaSelection.step at member
    dsimp only at member
    repeat' split at member
    all_goals cases member

end Steps

/-! ### The runs -/

section Server
variable (outside : Outside) (subgraphs : List Subgraph) (legacyDigest : Option String) (svco : Nat → Option String)

/-- An SDL that a build for some overrides waited for and took, in the course of a run. -/
def LoadedFor (events : List Event) (own sdl : String) : Prop :=
  ∃ past build rest, events = past ++ .loaded build (.ok sdl) :: rest ∧
    ((useSchema outside subgraphs legacyDigest svco).exec past).1.builds[build]? = some ⟨own, .loading⟩

variable {outside subgraphs legacyDigest svco} in
theorem loadedFor_snoc {past : List Event} {event : Event} (own sdl : String)
    (loaded : LoadedFor outside subgraphs legacyDigest svco past own sdl) :
    LoadedFor outside subgraphs legacyDigest svco (past ++ [event]) own sdl := by
  obtain ⟨before, build, rest, rfl, waits⟩ := loaded
  exact ⟨before, build, rest ++ [event], by simp, waits⟩

theorem apart_exec (events : List Event) :
    Apart outside (initial subgraphs).objects (LoadedFor outside subgraphs legacyDigest svco events) svco
      ((useSchema outside subgraphs legacyDigest svco).exec events).1 := by
  refine (useSchema outside subgraphs legacyDigest svco).exec_invariant (fun events state =>
    Apart outside (initial subgraphs).objects
      (LoadedFor outside subgraphs legacyDigest svco events) svco state) ?_ ?_ events
  · refine ⟨⟨[], (List.append_nil _).symm⟩, fun _ _ _ held => ?_, fun _ _ held => ?_, fun _ => trivial⟩
    · cases held
    · cases held
  · intro past event apart
    refine (apart.mono loadedFor_snoc).step ?_ ?_
    · exact congrArg List.range (length_makeSchema ..).symm
    · rintro build own text rfl waits
      exact ⟨past, build, [], rfl, waits⟩

/-- In every run of a server, whatever requests, builds and evictions come between, each
operation is executed with a schema, that of its own request: the default without
overrides; with overrides the default or one that has the legacy subgraph as it was loaded
for these very overrides. The subgraphs of the default are at every time what they were. -/
theorem schema_own (events : List Event) :
    (∀ served ∈ ((useSchema outside subgraphs legacyDigest svco).exec events).2,
      ∃ schema, served.schema = some schema ∧ Right outside (initial subgraphs).objects
        (LoadedFor outside subgraphs legacyDigest svco events) (svco served.request) schema) ∧
    ((useSchema outside subgraphs legacyDigest svco).exec events).1.objects.take subgraphs.length =
      (initial subgraphs).objects := by
  constructor
  · induction events using List.reverseRecOn with
    | nil => simp
    | append_singleton past event ih =>
      intro served member
      rw [Machine.exec_snoc, List.mem_append] at member
      rcases member with member | member
      · obtain ⟨schema, is, right⟩ := ih served member
        exact ⟨schema, is, right.mono loadedFor_snoc⟩
      · obtain ⟨request, ready, rfl⟩ := served_of_step member
        have right := (apart_exec outside subgraphs legacyDigest svco past).requests request
        rw [ready] at right
        obtain ⟨schema, chosen, right⟩ := right
        exact ⟨schema, chosen, right.mono loadedFor_snoc⟩
  · obtain ⟨more, objects⟩ := (apart_exec outside subgraphs legacyDigest svco events).objects
    have length : (initial subgraphs).objects.length = subgraphs.length := length_makeSchema ..
    rw [objects, ← length, List.take_left]

end Server

/-- A legacy subgraph, as a supergraph that was parsed has it. -/
def legacyHotels : Subgraph :=
  ⟨"legacy-graphql", "Global", "type Query", ⟨.text "https://hotels/v1/graphqlBatched", none, none, none⟩, .other⟩

def hotelsOutside : Outside where
  hosts := ServiceOverrides.literalHosts
  parse _ := .ok hotelsConfig.url
  href _ := "https://hotels/v1/graphqlBatched"
  digest sdl := sdl

/-- Two requests whose overrides are loaded in the other order, one whose override changes
nothing, and one without. -/
example : (((useSchema hotelsOutside [legacyHotels] (some "type Query")
      fun request => ["graphql*a", "graphql*b", "taql*c"][request]?).exec
    [.onRequestParse 0, .onRequestParse 1, .onRequestParseDone 0 false, .onRequestParseDone 1 false, .onRequestParse 2,
      .onRequestParseDone 2 false, .onRequestParse 3, .loaded 1 (.ok "type B"), .loaded 2 (.ok "type Query"),
      .stitched 1 .schema, .loaded 0 (.ok "type A"), .stitched 0 .schema, .onEnveloped 0, .onEnveloped 1,
      .onEnveloped 2, .onEnveloped 3]).2.map fun served =>
        served.schema.map fun schema => schema.subgraphs.map Subgraph.sdl) =
    [some ["type Query", "type A"], some ["type Query", "type B"], some ["type Query"], some ["type Query"]] := rfl

end Taql.SchemaSelection

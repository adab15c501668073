import Taql.DocumentTransparency
import Taql.Jit
import Taql.Validation

/-! The three caches of `packages/caching/src/useUnifiedCaching.ts` at work in one worker.
Documents are objects: one that is evicted and parsed again is another document to the
caches behind, whatever it holds. A request is parsed and validated at once, waits for its
context and is executed, while others come between. -/
namespace Taql.UnifiedCaching
open DocumentTransparency Documents JavaScript Jit Prereg Runs Stores Validation

variable {Number Schema Document Operation Rule Issue Input Result : Type} {hash : String → String}

/-- A `DocumentNode`, and what tells it from every other. -/
structure Node (Document : Type) where
  ref : Nat
  document : Document
  deriving DecidableEq

/-- The GraphQL library and the compiler, the database, and the rules plugins registered. -/
structure Worker (Number Schema Document Operation Rule Issue Input Result : Type) where
  texts : Texts Number Document
  validator : Validator Schema Document Rule Issue
  registered : List Rule
  engine : Engine Schema Document Operation Input Result
  useJit : Bool

/-- Whatever is parsed in a step is a new object. -/
def fresh (texts : Texts Number Document) (clock : Nat) : Texts Number (Node Document) where
  parse source := (texts.parse source).map (Node.mk clock)
  registered := texts.registered

/-- The libraries look at what a document holds. -/
def validatorOnNodes (validator : Validator Schema Document Rule Issue) :
    Validator Schema (Node Document) Rule Issue where
  validate schema node rules := validator.validate schema node.document rules
  specifiedRules := validator.specifiedRules

def contents (args : CompileArgs Schema (Node Document)) : CompileArgs Schema Document :=
  ⟨args.schema, args.document.document, args.operationName⟩

def engineOnNodes (engine : Engine Schema Document Operation Input Result) :
    Engine Schema (Node Document) Operation Input Result where
  getOperationAST node := engine.getOperationAST node.document
  name := engine.name
  executeOperation schema node := engine.executeOperation schema node.document
  selectionError node := engine.selectionError node.document
  compileQuery args := engine.compileQuery (contents args)

/-- What only the later stages read of a request: the schema it is served with, and the
rest of its parameters. -/
structure Rest (Schema Input : Type) where
  schema : Schema
  operationName : Option String
  input : Input

structure Request (Number Schema Input : Type) [DecidableEq Number] [One Number] (hash : String → String) where
  params : Params Number hash
  rest : Rest Schema Input

/-- Syntax errors, the outcome of validation, or what the execution function returned. -/
inductive Response (Issue Result : Type) where
  | failed (error : JsError)
  | invalid (issues : List Issue)
  | returned (returned : Returned Result)
  deriving DecidableEq

inductive WorkerAnswer (Number Schema Issue Input Result : Type) [DecidableEq Number] [One Number]
    (hash : String → String) where
  | answered (request : Request Number Schema Input hash) (response : Response Issue Result)
  | rejected (params : Params Number hash) (error : RequestError)

/-- A request that was validated. -/
structure Waiting (Number Schema Document Input : Type) [DecidableEq Number] [One Number] (hash : String → String) where
  request : Request Number Schema Input hash
  node : Node Document

def Waiting.args [DecidableEq Number] [One Number] (waiting : Waiting Number Schema Document Input hash) :
    ExecutionArgs Schema (Node Document) Input :=
  ⟨⟨waiting.request.rest.schema, waiting.node, waiting.request.rest.operationName⟩, waiting.request.rest.input⟩

structure WorkerState (Number Schema Document Issue Input Result : Type) [DecidableEq Number] [One Number]
    (hash : String → String) where
  clock : Nat
  server : ServerState Number (Node Document) hash
  parsedDocuments : List (Node Document)
  validation : ValidationCache Schema (Node Document) Issue
  executing : List (Waiting Number Schema Document Input hash)
  jit : JitState Schema (Node Document) Input Result

/-- What happens to the plugins up to the parser, prewarming of the document cache included,
with the rest of the request that is parsed; prewarming of the other caches, with a document
that was prewarmed; requests are executed, and executions end. -/
inductive WorkerEvent (Number Schema Input : Type) [DecidableEq Number] [One Number] (hash : String → String) where
  | serve (event : ServerEvent Number hash) (rest : Rest Schema Input)
  | prewarmValidation (schema : Schema) (index : Nat)
  | prewarmJit (schema : Schema) (index : Nat)
  | execute (index : Nat)
  | executeDone (index : Nat)
  | timer (index : Nat)

variable [DecidableEq Number] [Zero Number] [One Number]

/-- The document that prewarming parses. -/
def warmed (texts : Texts Number Document) (clock : Nat) : ServerEvent Number hash → List (Node Document)
  | .prewarm _ _ query => ((fresh texts clock).parse query).toOption.toList
  | _ => []

variable [DecidableEq Schema] [DecidableEq Document]

/-- `validate`, behind the validation cache, for a request that was parsed. -/
def validateRequest (worker : Worker Number Schema Document Operation Rule Issue Input Result)
    (state : WorkerState Number Schema Document Issue Input Result hash) (request : Request Number Schema Input hash)
    (node : Node Document) :
    WorkerState Number Schema Document Issue Input Result hash ×
      List (WorkerAnswer Number Schema Issue Input Result hash) :=
  let validated := onValidate (validatorOnNodes worker.validator) worker.registered state.validation
    request.rest.schema node
  match validated.2 with
  | [] => ({ state with validation := validated.1, executing := state.executing ++ [⟨request, node⟩] }, [])
  | issues => ({ state with validation := validated.1 }, [.answered request (.invalid issues)])

/-- The worker after a step of the plugins up to the parser. -/
def advance (worker : Worker Number Schema Document Operation Rule Issue Input Result)
    (state : WorkerState Number Schema Document Issue Input Result hash) (event : ServerEvent Number hash) :
    WorkerState Number Schema Document Issue Input Result hash :=
  { state with
    clock := state.clock + 1
    server := ((Documents.machine (fresh worker.texts state.clock) hash).step state.server event).1
    parsedDocuments := state.parsedDocuments ++ warmed worker.texts state.clock event }

/-- Such a step, and what follows for the request it parsed. -/
def serve (worker : Worker Number Schema Document Operation Rule Issue Input Result)
    (state : WorkerState Number Schema Document Issue Input Result hash) (event : ServerEvent Number hash)
    (rest : Rest Schema Input) :
    WorkerState Number Schema Document Issue Input Result hash ×
      List (WorkerAnswer Number Schema Issue Input Result hash) :=
  let served := advance worker state event
  match ((Documents.machine (fresh worker.texts state.clock) hash).step state.server event).2 with
  | .parsed params (.ok node) :: _ => validateRequest worker served ⟨params, rest⟩ node
  | .parsed params (.error error) :: _ => (served, [.answered ⟨params, rest⟩ (.failed error)])
  | .rejected params error :: _ => (served, [.rejected params error])
  | [] => (served, [])

/-- `execute`, behind the cache of compiled queries where there is one. -/
def executeRequest (worker : Worker Number Schema Document Operation Rule Issue Input Result)
    (jit : JitState Schema (Node Document) Input Result) (args : ExecutionArgs Schema (Node Document) Input) :
    JitState Schema (Node Document) Input Result × Returned Result :=
  if worker.useJit then onExecute (engineOnNodes worker.engine) jit args
  else (jit, .result ((engineOnNodes worker.engine).execute args))

def step (worker : Worker Number Schema Document Operation Rule Issue Input Result)
    (state : WorkerState Number Schema Document Issue Input Result hash) :
    WorkerEvent Number Schema Input hash → WorkerState Number Schema Document Issue Input Result hash ×
      List (WorkerAnswer Number Schema Issue Input Result hash)
  | .serve event rest => serve worker state event rest
  | .prewarmValidation schema index =>
    match state.parsedDocuments[index]? with
    | none => (state, [])
    | some node =>
      ({ state with
          validation := Validation.prewarm (validatorOnNodes worker.validator) state.validation schema node }, [])
  | .prewarmJit schema index =>
    match state.parsedDocuments[index]? with
    | none => (state, [])
    | some node =>
      if worker.useJit then
        ({ state with
            jit := ((Jit.machine (engineOnNodes worker.engine)).step state.jit (.prewarm schema node)).1 }, [])
      else (state, [])
  | .execute index =>
    match state.executing[index]? with
    | none => (state, [])
    | some waiting =>
      let executed := executeRequest worker state.jit waiting.args
      ({ state with executing := state.executing.eraseIdx index, jit := executed.1 },
        [.answered waiting.request (.returned executed.2)])
  | .executeDone index =>
    ({ state with jit := ((Jit.machine (engineOnNodes worker.engine)).step state.jit (.executeDone index)).1 }, [])
  | .timer index =>
    ({ state with jit := ((Jit.machine (engineOnNodes worker.engine)).step state.jit (.timer index)).1 }, [])

/-- The caches of a worker are empty at first. -/
def machine (worker : Worker Number Schema Document Operation Rule Issue Input Result) (hash : String → String) :
    Machine (WorkerState Number Schema Document Issue Input Result hash) (WorkerEvent Number Schema Input hash)
      (WorkerAnswer Number Schema Issue Input Result hash) where
  start := ⟨0, ⟨.empty, [], [], fun _ => .empty⟩, [], .empty, [], ⟨.empty, [], []⟩⟩
  step := step worker

@[simp] theorem machine_step (worker : Worker Number Schema Document Operation Rule Issue Input Result) :
    (machine worker hash).step = step worker := rfl

/-! ### A worker without caches -/

/-- What a request that has a text is answered where nothing is cached. -/
def plain (worker : Worker Number Schema Document Operation Rule Issue Input Result)
    (request : Request Number Schema Input hash) : Option (Response Issue Result) :=
  (resolvedText worker.texts.registered request.params).map fun text =>
    match worker.texts.parse text with
    | .error error => .failed error
    | .ok document =>
      match worker.validator.uncached worker.registered request.rest.schema document with
      | [] =>
        .returned (.result (worker.engine.execute
          ⟨⟨request.rest.schema, document, request.rest.operationName⟩, request.rest.input⟩))
      | issues => .invalid issues

/-- What is asked of a document: by the requests that are parsed. -/
def askedBy (worker : Worker Number Schema Document Operation Rule Issue Input Result)
    (state : WorkerState Number Schema Document Issue Input Result hash) :
    WorkerEvent Number Schema Input hash → List (CompileArgs Schema Document)
  | .serve (.parse index) rest =>
    (state.server.parsing[index]?.bind fun waiting => (worker.texts.parse waiting.query).toOption).toList.map
      fun document => ⟨rest.schema, document, rest.operationName⟩
  | .serve _ _ | .prewarmValidation _ _ | .prewarmJit _ _ | .execute _ | .executeDone _ | .timer _ => []

/-- What a step compiles. -/
def compiledBy (worker : Worker Number Schema Document Operation Rule Issue Input Result)
    (state : WorkerState Number Schema Document Issue Input Result hash) :
    WorkerEvent Number Schema Input hash → List (CompileArgs Schema Document)
  | .prewarmJit schema index =>
    state.parsedDocuments[index]?.toList.map fun node => prewarmArgs worker.engine schema node.document
  | .timer index => state.jit.timers[index]?.toList.map contents
  | .serve _ _ | .prewarmValidation _ _ | .execute _ | .executeDone _ => []

/-- What a step validates ahead of the requests. -/
def prevalidatedBy (state : WorkerState Number Schema Document Issue Input Result hash) :
    WorkerEvent Number Schema Input hash → List (Schema × Document)
  | .prewarmValidation schema index => state.parsedDocuments[index]?.toList.map fun node => (schema, node.document)
  | .serve _ _ | .prewarmJit _ _ | .execute _ | .executeDone _ | .timer _ => []

/-- The events of the plugins up to the parser. -/
def WorkerEvent.inner : WorkerEvent Number Schema Input hash → Option (ServerEvent Number hash)
  | .serve event _ => some event
  | _ => none

/-- A run that gives no cache cause to err: every text is parsed under a key that was checked
to stand for it, and no two have one digest; what is validated ahead passes the standard rules
as it passes them all; and what is compiled gave a query, which executes as every request for
that document asks. -/
structure Harmless (worker : Worker Number Schema Document Operation Rule Issue Input Result)
    (events : List (WorkerEvent Number Schema Input hash)) : Prop where
  checked : ∀ use ∈ uses worker.texts (events.filterMap WorkerEvent.inner), use.verified = true
  collisionFree : ∀ first ∈ uses worker.texts (events.filterMap WorkerEvent.inner),
    ∀ second ∈ uses worker.texts (events.filterMap WorkerEvent.inner),
      hash first.text = hash second.text → first.text = second.text
  rules : ∀ pair ∈ (machine worker hash).trace prevalidatedBy events,
    worker.validator.validate pair.1 pair.2 worker.validator.specifiedRules =
      worker.validator.uncached worker.registered pair.1 pair.2
  operations : ∀ compiled ∈ (machine worker hash).trace (compiledBy worker) events,
    ∀ args ∈ (machine worker hash).trace (askedBy worker) events,
      compiled.schema = args.schema → compiled.document = args.document →
        (∃ query, worker.engine.compileQuery compiled = .compiledQuery query) ∧
          ∀ input, worker.engine.execute ⟨compiled, input⟩ = worker.engine.execute ⟨args, input⟩

/-! ### The plugins up to the parser -/

/-- Outcomes, without what tells one object from another. -/
def erase (outcome : Except JsError (Node Document)) : Except JsError Document := outcome.map Node.document

omit [DecidableEq Number] [Zero Number] [One Number] [DecidableEq Document] in
@[simp] theorem erase_fresh (texts : Texts Number Document) (clock : Nat) (source : String) :
    erase ((fresh texts clock).parse source) = texts.parse source := by
  simp only [erase, fresh]
  cases texts.parse source <;> rfl

/-- Two servers that differ in the identity of their documents alone. -/
structure Erases (server : ServerState Number (Node Document) hash) (plainServer : ServerState Number Document hash) :
    Prop where
  cache : server.cache = plainServer.cache
  looking : server.looking = plainServer.looking
  parsing : server.parsing = plainServer.parsing
  documents : ∀ store key, ((server.documents store).get key).map erase = (plainServer.documents store).get key

omit [DecidableEq Document] [Zero Number] in
theorem Erases.route {server : ServerState Number (Node Document) hash} {plainServer : ServerState Number Document hash}
    (erases : Erases server plainServer) (params : Params Number hash) (resolution : Resolution Number) :
    Erases (route server params resolution).1 (Documents.route plainServer params resolution).1 := by
  obtain ⟨cache, looking, parsing, documents⟩ := erases
  match resolution with
  | .resolved none => exact ⟨cache, looking, parsing, documents⟩
  | .rejected error => exact ⟨cache, looking, parsing, documents⟩
  | .resolved (some query) => exact ⟨cache, looking, by simp only [Documents.route, parsing], documents⟩
  | .lookup id => exact ⟨cache, by simp only [Documents.route, looking], parsing, documents⟩

omit [DecidableEq Document] [Zero Number] [One Number] in
theorem erase_set {stores : DocumentStores Number (Node Document)} {plainStores : DocumentStores Number Document}
    (erases : ∀ store key, ((stores store).get key).map erase = (plainStores store).get key) (store : StoreName)
    (key : Option (Key Number)) {outcome : Except JsError (Node Document)} {plainOutcome : Except JsError Document}
    (same : erase outcome = plainOutcome) (store' : StoreName) (key' : Option (Key Number)) :
    ((stores.set store key outcome store').get key').map erase =
      (plainStores.set store key plainOutcome store').get key' := by
  cases key' with
  | none => rfl
  | some key' =>
    rw [DocumentStores.get_set, DocumentStores.get_set]
    split
    · exact congrArg some same
    · exact erases store' (some key')

omit [DecidableEq Document] [Zero Number] [One Number] in
theorem erase_evict {stores : DocumentStores Number (Node Document)} {plainStores : DocumentStores Number Document}
    (erases : ∀ store key, ((stores store).get key).map erase = (plainStores store).get key) (store : StoreName)
    (key : Key Number) (store' : StoreName) (key' : Option (Key Number)) :
    ((stores.evict store key store').get key').map erase = (plainStores.evict store key store').get key' := by
  cases key' with
  | none => rfl
  | some key' =>
    rw [DocumentStores.get_evict, DocumentStores.get_evict]
    split
    · rfl
    · exact erases store' (some key')

omit [DecidableEq Document] [Zero Number] [One Number] in
/-- A request is given an object that holds what it would be given. -/
theorem erase_onParse {stores : DocumentStores Number (Node Document)} {plainStores : DocumentStores Number Document}
    (erases : ∀ store key, ((stores store).get key).map erase = (plainStores store).get key)
    (texts : Texts Number Document) (clock : Nat) (extensions : Extensions Number) (source : String) :
    (∀ store key, (((onParse (fresh texts clock).parse stores extensions source).1 store).get key).map erase =
        ((onParse texts.parse plainStores extensions source).1 store).get key) ∧
      erase (onParse (fresh texts clock).parse stores extensions source).2 =
        (onParse texts.parse plainStores extensions source).2 := by
  have same := (erases (pickDocumentCache extensions source).1 (pickDocumentCache extensions source).2).symm
  cases known : (stores (pickDocumentCache extensions source).1).get (pickDocumentCache extensions source).2 with
  | some cached =>
    rw [known, Option.map_some] at same
    simp only [onParse, known, same]
    exact ⟨erases, trivial⟩
  | none =>
    rw [known, Option.map_none] at same
    simp only [onParse, known, same]
    exact ⟨erase_set erases _ _ (erase_fresh texts clock source), erase_fresh texts clock source⟩

omit [DecidableEq Document] in
theorem Erases.step {server : ServerState Number (Node Document) hash} {plainServer : ServerState Number Document hash}
    (erases : Erases server plainServer) (texts : Texts Number Document) (clock : Nat)
    (event : ServerEvent Number hash) :
    Erases ((Documents.machine (fresh texts clock) hash).step server event).1
      ((Documents.machine texts hash).step plainServer event).1 := by
  have kept := erases
  obtain ⟨cache, looking, parsing, documents⟩ := erases
  cases event with
  | receive params knownQueries =>
    simp only [Documents.machine, cache]
    exact kept.route params _
  | lookedUp index found =>
    simp only [Documents.machine, looking, cache]
    cases plainServer.looking[index]? with
    | none => exact kept
    | some waiting =>
      apply Erases.route
      exact ⟨rfl, rfl, parsing, documents⟩
  | parse index =>
    simp only [Documents.machine, parsing]
    cases plainServer.parsing[index]? with
    | none => exact kept
    | some waiting =>
      exact ⟨cache, looking, rfl, (erase_onParse documents texts clock waiting.params.extensions waiting.query).1⟩
  | preload id =>
    simp only [Documents.machine, fresh]
    cases texts.registered (.string id) with
    | none => exact kept
    | some code => exact ⟨by simp only [cache], looking, parsing, documents⟩
  | prewarm store id query =>
    exact ⟨cache, looking, parsing, erase_set documents store _ (erase_fresh texts clock query)⟩
  | evictQuery key => exact ⟨by simp only [Documents.machine, cache], looking, parsing, documents⟩
  | evictDocument store key => exact ⟨cache, looking, parsing, erase_evict documents store key⟩

/-! ### The caches together -/

section Runs
variable {worker : Worker Number Schema Document Operation Rule Issue Input Result}

/-- The request of a step is parsed, or there is none. -/
theorem serve_cases (worker : Worker Number Schema Document Operation Rule Issue Input Result)
    (state : WorkerState Number Schema Document Issue Input Result hash) (event : ServerEvent Number hash)
    (rest : Rest Schema Input) :
    ((serve worker state event rest).1 = advance worker state event ∧
      ∀ request response, .answered request response ∉ (serve worker state event rest).2) ∨
    ∃ index waiting, event = .parse index ∧ state.server.parsing[index]? = some waiting ∧
      serve worker state event rest =
        match (onParse (fresh worker.texts state.clock).parse state.server.documents waiting.params.extensions
          waiting.query).2 with
        | .ok node => validateRequest worker (advance worker state event) ⟨waiting.params, rest⟩ node
        | .error error =>
          (advance worker state event, [.answered ⟨waiting.params, rest⟩ (.failed error)]) := by
  unfold serve
  cases gave : ((Documents.machine (fresh worker.texts state.clock) hash).step state.server event).2 with
  | nil => exact .inl ⟨rfl, by simp⟩
  | cons answer others =>
    cases answer with
    | rejected params error => exact .inl ⟨rfl, by simp⟩
    | parsed params outcome =>
      obtain ⟨index, waiting, rfl, at_, rfl, rfl⟩ := parsed_step (gave ▸ List.mem_cons_self)
      refine .inr ⟨index, waiting, rfl, at_, ?_⟩
      cases (onParse (fresh worker.texts state.clock).parse state.server.documents waiting.params.extensions
        waiting.query).2 <;> rfl

omit [Zero Number] in
@[simp] theorem validateRequest_server (state : WorkerState Number Schema Document Issue Input Result hash)
    (request : Request Number Schema Input hash) (node : Node Document) :
    (validateRequest worker state request node).1.server = state.server := by
  unfold validateRequest
  simp only
  split <;> rfl

omit [Zero Number] in
@[simp] theorem validateRequest_jit (state : WorkerState Number Schema Document Issue Input Result hash)
    (request : Request Number Schema Input hash) (node : Node Document) :
    (validateRequest worker state request node).1.jit = state.jit := by
  unfold validateRequest
  simp only
  split <;> rfl

/-- The queries that are cached were compiled earlier, from what their documents hold. -/
def Compiled (worker : Worker Number Schema Document Operation Rule Issue Input Result)
    (compiled : List (CompileArgs Schema Document)) (cache : CompiledQueryCache Schema (Node Document) Input Result) :
    Prop :=
  ∀ schema node compilation, cache.get schema node = some (.compiled compilation) →
    ∃ args ∈ compiled, args.schema = schema ∧ args.document = node.document ∧
      compilation = worker.engine.compileQuery args

omit [DecidableEq Number] [Zero Number] [One Number] in
/-- A step of the cache of compiled queries keeps what was compiled, and adds what it compiles. -/
theorem Compiled.step {compiled : List (CompileArgs Schema Document)}
    {jit : JitState Schema (Node Document) Input Result} (holds : Compiled worker compiled jit.compiledQueryCache)
    (event : JitEvent Schema (Node Document) Input) :
    Compiled worker (compiled ++ (Jit.compiledBy (engineOnNodes worker.engine) jit event).map contents)
      ((Jit.machine (engineOnNodes worker.engine)).step jit event).1.compiledQueryCache := by
  intro schema node compilation found
  rcases Jit.step_cases (engineOnNodes worker.engine) jit event with ⟨args, compiles, stored⟩ | ⟨compiles, kept⟩
  · rw [stored, compile_get] at found
    rw [compiles]
    split at found
    · rename_i same
      cases found
      exact ⟨contents args, by simp, same.1, congrArg Node.document same.2, rfl⟩
    · obtain ⟨args, member, rest⟩ := holds schema node compilation found
      exact ⟨args, List.mem_append_left _ member, rest⟩
  · rw [compiles, List.map_nil, List.append_nil]
    rcases kept schema node with kept | ⟨_, compiling⟩
    · exact holds schema node compilation (kept.symm.trans found)
    · rw [compiling] at found
      cases found

omit [DecidableEq Number] [Zero Number] [One Number] [DecidableEq Schema] [DecidableEq Document] in
theorem Compiled.mono {compiled more : List (CompileArgs Schema Document)}
    {cache : CompiledQueryCache Schema (Node Document) Input Result} (holds : Compiled worker compiled cache)
    (subset : compiled ⊆ more) : Compiled worker more cache := by
  intro schema node compilation known
  obtain ⟨args, member, rest⟩ := holds schema node compilation known
  exact ⟨args, subset member, rest⟩

/-- The plugins up to the parser take the steps of their events. -/
theorem step_server (worker : Worker Number Schema Document Operation Rule Issue Input Result)
    (state : WorkerState Number Schema Document Issue Input Result hash)
    (event : WorkerEvent Number Schema Input hash) :
    (step worker state event).1.server = event.inner.elim state.server fun served =>
      ((Documents.machine (fresh worker.texts state.clock) hash).step state.server served).1 := by
  cases event with
  | serve event rest =>
    simp only [step, WorkerEvent.inner, Option.elim_some]
    rcases serve_cases worker state event rest with ⟨same, _⟩ | ⟨index, waiting, rfl, _, same⟩ <;> rw [same]
    · rfl
    · split
      · rw [validateRequest_server]
        rfl
      · rfl
  | prewarmValidation schema index =>
    simp only [step]
    split <;> rfl
  | prewarmJit schema index =>
    simp only [step]
    split
    · rfl
    · split <;> rfl
  | execute index =>
    simp only [step]
    split <;> rfl
  | executeDone index | timer index => rfl

/-- Up to the identity of documents, the plugins up to the parser run by themselves. -/
theorem erases_exec (worker : Worker Number Schema Document Operation Rule Issue Input Result)
    (events : List (WorkerEvent Number Schema Input hash)) :
    Erases ((machine worker hash).exec events).1.server
      ((Documents.machine worker.texts hash).exec (events.filterMap WorkerEvent.inner)).1 := by
  refine (machine worker hash).exec_invariant (fun past state => Erases state.server
    ((Documents.machine worker.texts hash).exec (past.filterMap WorkerEvent.inner)).1) ?_ ?_ events
  · refine ⟨rfl, rfl, rfl, fun store key => ?_⟩
    simp [machine, Documents.machine]
  · intro past event erases
    rw [machine_step, step_server, List.filterMap_append]
    cases inner : event.inner with
    | none => simpa [inner] using erases
    | some served =>
      simp only [List.filterMap_cons_some inner, List.filterMap_nil, Option.elim_some]
      rw [Machine.exec_snoc]
      exact erases.step worker.texts _ served

theorem serve_jit (worker : Worker Number Schema Document Operation Rule Issue Input Result)
    (state : WorkerState Number Schema Document Issue Input Result hash) (event : ServerEvent Number hash)
    (rest : Rest Schema Input) : (serve worker state event rest).1.jit = state.jit := by
  rcases serve_cases worker state event rest with ⟨same, _⟩ | ⟨index, waiting, rfl, _, same⟩ <;> rw [same]
  · rfl
  · split
    · rw [validateRequest_jit]
      rfl
    · rfl

/-- A step keeps what was compiled, and adds what it compiles. -/
theorem step_compiled {compiled : List (CompileArgs Schema Document)}
    {state : WorkerState Number Schema Document Issue Input Result hash}
    (holds : Compiled worker compiled state.jit.compiledQueryCache) (event : WorkerEvent Number Schema Input hash) :
    Compiled worker (compiled ++ compiledBy worker state event) (step worker state event).1.jit.compiledQueryCache := by
  have still : Compiled worker (compiled ++ []) state.jit.compiledQueryCache := by
    rw [List.append_nil]
    exact holds
  cases event with
  | serve event rest =>
    simp only [step, serve_jit]
    exact still
  | prewarmValidation schema index =>
    simp only [step]
    split <;> exact still
  | prewarmJit schema index =>
    simp only [step, compiledBy]
    cases at_ : state.parsedDocuments[index]? with
    | none => exact still
    | some node =>
      dsimp only
      split
      · exact holds.step (.prewarm schema node)
      · exact holds.mono (List.subset_append_left _ _)
  | execute index =>
    simp only [step, compiledBy]
    split
    · exact still
    · rename_i waiting at_
      unfold executeRequest
      split
      · exact holds.step (.execute waiting.args)
      · exact still
  | executeDone index => exact holds.step (.executeDone index)
  | timer index => exact holds.step (.timer index)

theorem compiled_exec (worker : Worker Number Schema Document Operation Rule Issue Input Result)
    (events : List (WorkerEvent Number Schema Input hash)) :
    Compiled worker ((machine worker hash).trace (compiledBy worker) events)
      ((machine worker hash).exec events).1.jit.compiledQueryCache := by
  refine (machine worker hash).exec_invariant (fun past state => Compiled worker
    ((machine worker hash).trace (compiledBy worker) past) state.jit.compiledQueryCache) ?_ ?_ events
  · intro schema node compilation known
    simp [machine] at known
  · intro past event compiled
    rw [Machine.trace_snoc]
    exact step_compiled compiled event

/-! ### Runs without harm -/

/-- A request that waits to be executed is one a worker without caches would execute. -/
structure Admitted (worker : Worker Number Schema Document Operation Rule Issue Input Result)
    (past : List (WorkerEvent Number Schema Input hash)) (waiting : Waiting Number Schema Document Input hash) :
    Prop where
  asked : contents waiting.args.toCompileArgs ∈ (machine worker hash).trace (askedBy worker) past
  plain : plain worker waiting.request =
    some (.returned (.result (worker.engine.execute ⟨contents waiting.args.toCompileArgs, waiting.args.input⟩)))

/-- The outcomes that are cached are those under all rules. -/
def Outcomes (worker : Worker Number Schema Document Operation Rule Issue Input Result)
    (cache : ValidationCache Schema (Node Document) Issue) : Prop :=
  ∀ schema node outcome, cache.get schema node = some outcome →
    outcome = worker.validator.uncached worker.registered schema node.document

structure Sound (worker : Worker Number Schema Document Operation Rule Issue Input Result)
    (past : List (WorkerEvent Number Schema Input hash))
    (state : WorkerState Number Schema Document Issue Input Result hash) : Prop where
  validation : Outcomes worker state.validation
  executing : ∀ waiting ∈ state.executing, Admitted worker past waiting

theorem harmless_past {past : List (WorkerEvent Number Schema Input hash)}
    {event : WorkerEvent Number Schema Input hash}
    (harmless : Harmless worker (past ++ [event])) :
    Harmless worker past := by
  obtain ⟨checked, collisionFree, rules, operations⟩ := harmless
  have earlier : ∀ use ∈ uses worker.texts (past.filterMap WorkerEvent.inner),
      use ∈ uses worker.texts ((past ++ [event]).filterMap WorkerEvent.inner) := by
    intro use member
    rw [List.filterMap_append]
    exact uses_append member
  rw [Machine.trace_snoc] at rules operations
  rw [Machine.trace_snoc] at operations
  refine ⟨fun use member => checked use (earlier use member), ?_, ?_, ?_⟩
  · intro first left second right
    exact collisionFree first (earlier first left) second (earlier second right)
  · intro pair member
    exact rules pair (List.mem_append_left _ member)
  · intro compiled member args asked
    exact operations compiled (List.mem_append_left _ member) args (List.mem_append_left _ asked)

theorem harmless_prefix {past rest : List (WorkerEvent Number Schema Input hash)}
    (harmless : Harmless worker (past ++ rest)) : Harmless worker past := by
  induction rest using List.reverseRecOn with
  | nil => rwa [List.append_nil] at harmless
  | append_singleton rest event ih =>
    rw [← List.append_assoc] at harmless
    exact ih (harmless_past harmless)

theorem Admitted.later {past : List (WorkerEvent Number Schema Input hash)}
    {waiting : Waiting Number Schema Document Input hash} (admitted : Admitted worker past waiting)
    (event : WorkerEvent Number Schema Input hash) : Admitted worker (past ++ [event]) waiting := by
  refine ⟨?_, admitted.plain⟩
  rw [Machine.trace_snoc]
  exact List.mem_append_left _ admitted.asked

omit [DecidableEq Number] [Zero Number] [One Number] in
/-- A request is given the outcome under all rules, and that is what is cached. -/
theorem Outcomes.onValidate {cache : ValidationCache Schema (Node Document) Issue} (outcomes : Outcomes worker cache)
    (schema : Schema) (node : Node Document) :
    Outcomes worker (onValidate (validatorOnNodes worker.validator) worker.registered cache schema node).1 ∧
      (Validation.onValidate (validatorOnNodes worker.validator) worker.registered cache schema node).2 =
        worker.validator.uncached worker.registered schema node.document := by
  constructor
  · intro schema' node' outcome found
    rcases onValidate_get (validatorOnNodes worker.validator) worker.registered cache schema node schema' node'
      with kept | ⟨_, computed⟩
    · exact outcomes schema' node' outcome (kept.symm.trans found)
    · exact (Option.some.inj (computed.symm.trans found)).symm
  · unfold Validation.onValidate
    cases known : cache.get schema node with
    | some cached => exact outcomes schema node cached known
    | none => rfl

omit [DecidableEq Number] [Zero Number] [One Number] in
theorem Outcomes.prewarm {cache : ValidationCache Schema (Node Document) Issue} (outcomes : Outcomes worker cache)
    {schema : Schema} {node : Node Document}
    (agrees : worker.validator.validate schema node.document worker.validator.specifiedRules =
      worker.validator.uncached worker.registered schema node.document) :
    Outcomes worker (Validation.prewarm (validatorOnNodes worker.validator) cache schema node) := by
  intro schema' node' outcome found
  simp only [Validation.prewarm, BiWeakMap.get_set] at found
  split at found
  · rename_i same
    obtain ⟨rfl, rfl⟩ := same
    exact (Option.some.inj found).symm.trans agrees
  · exact outcomes schema' node' outcome found

/-- A request that was parsed to its own document is answered as it would be, or waits to be. -/
theorem validateRequest_sound (state : WorkerState Number Schema Document Issue Input Result hash)
    (outcomes : Outcomes worker state.validation) (request : Request Number Schema Input hash) {node : Node Document}
    {query : String} (text : resolvedText worker.texts.registered request.params = some query)
    (parses : worker.texts.parse query = .ok node.document) :
    Outcomes worker (validateRequest worker state request node).1.validation ∧
      (∀ waiting ∈ (validateRequest worker state request node).1.executing, waiting ∈ state.executing ∨
        waiting = ⟨request, node⟩ ∧ plain worker request = some (.returned (.result
          (worker.engine.execute ⟨contents waiting.args.toCompileArgs, waiting.args.input⟩)))) ∧
      ∀ request' response, .answered request' response ∈ (validateRequest worker state request node).2 →
        plain worker request' = some response := by
  obtain ⟨kept, outcome⟩ := outcomes.onValidate request.rest.schema node
  cases issues : worker.validator.uncached worker.registered request.rest.schema node.document with
  | nil =>
    rw [issues] at outcome
    simp only [validateRequest, outcome]
    refine ⟨kept, fun waiting member => ?_, by simp⟩
    rcases List.mem_append.mp member with member | member
    · exact .inl member
    · cases List.mem_singleton.mp member
      refine .inr ⟨rfl, ?_⟩
      simp only [plain, text, parses, issues, Option.map_some]
      rfl
  | cons issue others =>
    rw [issues] at outcome
    simp only [validateRequest, outcome]
    refine ⟨kept, fun waiting member => .inl member, fun request' response given => ?_⟩
    cases List.mem_singleton.mp given
    simp only [plain, text, parses, issues, Option.map_some]

/-- What a step of the plugins up to the parser comes to, in a run that is harmless so far. -/
theorem serve_sound {past : List (WorkerEvent Number Schema Input hash)} {event : ServerEvent Number hash}
    {rest : Rest Schema Input} (harmless : Harmless worker (past ++ [.serve event rest]))
    (sound : Sound worker past ((machine worker hash).exec past).1) :
    Sound worker (past ++ [.serve event rest]) (serve worker ((machine worker hash).exec past).1 event rest).1 ∧
      ∀ request response, .answered request response ∈ (serve worker ((machine worker hash).exec past).1 event rest).2 →
        plain worker request = some response := by
  have executing : ∀ waiting ∈ ((machine worker hash).exec past).1.executing,
      Admitted worker (past ++ [.serve event rest]) waiting :=
    fun waiting member => (sound.executing waiting member).later _
  rcases serve_cases worker ((machine worker hash).exec past).1 event rest with
    ⟨same, silent⟩ | ⟨index, waiting, rfl, at_, served⟩
  · rw [same]
    exact ⟨⟨sound.validation, executing⟩, fun request response given => absurd given (silent request response)⟩
  · have checked := harmless.checked
    have collisionFree := harmless.collisionFree
    have run : (past ++ [WorkerEvent.serve (.parse index) rest]).filterMap WorkerEvent.inner =
        past.filterMap WorkerEvent.inner ++ [.parse index] := by
      rw [List.filterMap_append]
      rfl
    rw [run] at checked collisionFree
    have erases := erases_exec worker past
    rw [erases.parsing] at at_
    obtain ⟨text, own⟩ := served_own at_ checked collisionFree
    have outcome := (erase_onParse erases.documents worker.texts ((machine worker hash).exec past).1.clock
      waiting.params.extensions waiting.query).2
    rw [own] at outcome
    rw [served]
    cases got : (onParse (fresh worker.texts ((machine worker hash).exec past).1.clock).parse
        ((machine worker hash).exec past).1.server.documents waiting.params.extensions waiting.query).2 with
    | error error =>
      rw [got] at outcome
      refine ⟨⟨sound.validation, executing⟩, fun request response given => ?_⟩
      cases List.mem_singleton.mp given
      simp only [plain, text, Option.map_some, ← outcome]
      rfl
    | ok node =>
      rw [got] at outcome
      obtain ⟨kept, admits, answers⟩ :=
        validateRequest_sound (advance worker ((machine worker hash).exec past).1 (.parse index)) sound.validation
          ⟨waiting.params, rest⟩ text outcome.symm
      refine ⟨⟨kept, fun other member => ?_⟩, answers⟩
      rcases admits other member with earlier | ⟨rfl, own⟩
      · exact executing other earlier
      · refine ⟨?_, own⟩
        rw [Machine.trace_snoc]
        apply List.mem_append_right
        rw [askedBy, erases.parsing, at_, Option.bind_some, ← outcome]
        exact List.mem_singleton_self _

/-- What is executed is executed plainly, compiled or not. -/
theorem executeRequest_own (compilesPlainly : worker.engine.CompilesPlainly)
    {past : List (WorkerEvent Number Schema Input hash)} (harmless : Harmless worker past)
    {waiting : Waiting Number Schema Document Input hash} (admitted : Admitted worker past waiting) :
    (executeRequest worker ((machine worker hash).exec past).1.jit waiting.args).2 =
      .result (worker.engine.execute ⟨contents waiting.args.toCompileArgs, waiting.args.input⟩) := by
  unfold executeRequest
  split
  · unfold onExecute
    split
    · rfl
    · rename_i query known
      obtain ⟨args, compiled, schema, document, gave⟩ := compiled_exec worker past _ _ _ known
      obtain ⟨_, same⟩ := harmless.operations args compiled _ admitted.asked schema document
      rw [← same, compilesPlainly args query gave.symm]
    · rename_i cached known
      obtain ⟨args, compiled, schema, document, gave⟩ := compiled_exec worker past _ _ _ known
      obtain ⟨⟨query, gaveQuery⟩, _⟩ :=
        harmless.operations args compiled _ admitted.asked schema document
      rw [gaveQuery] at gave
      cases gave
    · rfl
  · rfl

/-- Every step of a harmless run keeps the caches sound. -/
theorem sound_step {past : List (WorkerEvent Number Schema Input hash)} {event : WorkerEvent Number Schema Input hash}
    (harmless : Harmless worker (past ++ [event])) (sound : Sound worker past ((machine worker hash).exec past).1) :
    Sound worker (past ++ [event]) (step worker ((machine worker hash).exec past).1 event).1 := by
  have executing : ∀ waiting ∈ ((machine worker hash).exec past).1.executing,
      Admitted worker (past ++ [event]) waiting := fun waiting member => (sound.executing waiting member).later _
  cases event with
  | serve event rest => exact (serve_sound harmless sound).1
  | prewarmValidation schema index =>
    have ahead := harmless.rules
    rw [Machine.trace_snoc] at ahead
    cases at_ : ((machine worker hash).exec past).1.parsedDocuments[index]? with
    | none =>
      simp only [step, at_]
      exact ⟨sound.validation, executing⟩
    | some node =>
      have agrees := ahead (schema, node.document) (List.mem_append_right _ (by simp [prevalidatedBy, at_]))
      simp only [step, at_]
      exact ⟨sound.validation.prewarm agrees, executing⟩
  | prewarmJit schema index =>
    simp only [step]
    split
    · exact ⟨sound.validation, executing⟩
    · split <;> exact ⟨sound.validation, executing⟩
  | execute index =>
    simp only [step]
    split
    · exact ⟨sound.validation, executing⟩
    · exact ⟨sound.validation, fun waiting member => executing waiting (List.mem_of_mem_eraseIdx member)⟩
  | executeDone index | timer index => exact ⟨sound.validation, executing⟩

theorem sound_exec {events : List (WorkerEvent Number Schema Input hash)} (harmless : Harmless worker events) :
    Sound worker events ((machine worker hash).exec events).1 := by
  refine (machine worker hash).exec_invariant
    (fun past state => Harmless worker past → Sound worker past state) ?_ ?_ events harmless
  · intro _
    constructor
    · intro schema node outcome known
      simp [machine] at known
    · intro waiting member
      simp [machine] at member
  · intro past event sound harmless
    exact sound_step harmless (sound (harmless_past harmless))

end Runs

/-- Every request of a harmless run is answered as by a worker without caches. -/
theorem caching_transparent (worker : Worker Number Schema Document Operation Rule Issue Input Result)
    (compilesPlainly : worker.engine.CompilesPlainly) {events : List (WorkerEvent Number Schema Input hash)}
    (harmless : Harmless worker events) {request : Request Number Schema Input hash} {response : Response Issue Result}
    (answered : .answered request response ∈ ((machine worker hash).exec events).2) :
    plain worker request = some response := by
  obtain ⟨past, event, rest, rfl, given⟩ := (machine worker hash).mem_answers_iff.mp answered
  rw [List.append_cons] at harmless
  have sofar : Harmless worker (past ++ [event]) := harmless_prefix harmless
  have sound : Sound worker past ((machine worker hash).exec past).1 := sound_exec (harmless_past sofar)
  cases event with
  | serve event rest => exact (serve_sound sofar sound).2 request response given
  | prewarmValidation schema index =>
    simp only [machine, step] at given
    split at given <;> cases given
  | prewarmJit schema index =>
    simp only [machine, step] at given
    split at given
    · cases given
    · split at given <;> cases given
  | execute index =>
    simp only [machine, step] at given
    split at given
    · cases given
    · rename_i waiting at_
      have member := List.mem_of_getElem? at_
      have own := executeRequest_own compilesPlainly (harmless_past sofar) (sound.executing waiting member)
      obtain ⟨rfl, rfl⟩ := WorkerAnswer.answered.inj (List.mem_singleton.mp given)
      exact (sound.executing waiting member).plain.trans (congrArg (some ∘ Response.returned) own.symm)
  | executeDone index => cases given
  | timer index => cases given

/-- A worker with a rule against documents of two operations. -/
def namingWorker : Worker Nat Unit (List String) String Bool Unit Unit String where
  texts :=
    { parse text := .ok (if text = "Hotels" then ["Hotels"] else ["Hotels", "Reviews"])
      registered id := if id = .string "hotels" then some "Hotels" else none }
  validator := ⟨fun _ document rules => if rules.contains true && document.length ≠ 1 then [()] else [], [false]⟩
  registered := [true]
  engine := namingEngine
  useJit := true

/-- A request by the id of a registered query. -/
def hotels : Params Nat id := ⟨none, ⟨some (.string "hotels"), none, none⟩, by simp [Extensions.digest]⟩

def byText (query : String) : Params Nat id := ⟨some query, ⟨none, none, none⟩, by simp [Extensions.digest]⟩

def named (operationName : String) : Rest Unit Unit := ⟨(), some operationName, ()⟩

/-- A registered query is prewarmed and requested, and then a text with two operations. -/
def prewarmedRun : List (WorkerEvent Nat Unit Unit id) :=
  [.serve (.prewarm .preregistered "hotels" "Hotels") (named "Hotels"), .prewarmValidation () 0, .prewarmJit () 0,
    .serve (.receive hotels ["hotels"]) (named "Hotels"), .serve (.lookedUp 0 true) (named "Hotels"),
    .serve (.parse 0) (named "Hotels"), .execute 0,
    .serve (.receive (byText "Hotels Reviews") []) (named "Reviews"), .serve (.parse 0) (named "Reviews")]

theorem prewarmedRun_harmless : Harmless namingWorker prewarmedRun where
  checked := by decide
  collisionFree _ _ _ _ same := same
  rules := by decide
  operations := by
    have compiles : (machine namingWorker id).trace (compiledBy namingWorker) prewarmedRun =
        [⟨(), ["Hotels"], some "Hotels"⟩] := rfl
    have asks : (machine namingWorker id).trace (askedBy namingWorker) prewarmedRun =
        [⟨(), ["Hotels"], some "Hotels"⟩, ⟨(), ["Hotels", "Reviews"], some "Reviews"⟩] := rfl
    intro compiled member args asked _ document
    rw [compiles, List.mem_singleton] at member
    rw [asks, List.mem_pair] at asked
    subst member
    rcases asked with rfl | rfl
    · exact ⟨⟨_, rfl⟩, fun _ => rfl⟩
    · cases document

/-- The compiled query is executed as it would be, and the other request refused. -/
theorem caching_transparent_prewarmed :
    plain namingWorker ⟨hotels, named "Hotels"⟩ = some (.returned (.result "Hotels")) ∧
      plain namingWorker ⟨byText "Hotels Reviews", named "Reviews"⟩ = some (.invalid [()]) := by
  constructor
  · apply caching_transparent namingWorker namingEngine_compiles prewarmedRun_harmless
    exact .head _
  · apply caching_transparent namingWorker namingEngine_compiles prewarmedRun_harmless
    exact .tail _ (.head _)

end Taql.UnifiedCaching

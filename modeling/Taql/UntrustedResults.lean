import Taql.UnifiedCaching
import Taql.UntrustedOperations

/-! What an untrusted client can be answered, by a worker whose caches it shares with clients
that are trusted: whatever those put there, its answer is of the text registered under the id
it sent. The caches behind the parser tell documents apart as objects, so nothing cached for
one document is served for another. -/
namespace Taql.UntrustedResults
open DocumentTransparency JavaScript Prereg Runs Stores UnifiedCaching UntrustedOperations
open Documents hiding machine
open Jit hiding machine
open Security hiding machine Request
open Validation hiding machine

variable {Number Schema Document Operation Rule Issue Input Result : Type} [DecidableEq Number] [Zero Number]
  [One Number] [DecidableEq Schema] [DecidableEq Document] {hash : String → String}
  {worker : Worker Number Schema Document Operation Rule Issue Input Result}

/-! ### Where an answer comes from -/

/-- A request was parsed, to this. -/
def ParsedAs (worker : Worker Number Schema Document Operation Rule Issue Input Result)
    (past : List (WorkerEvent Number Schema Input hash)) (request : Request Number Schema Input hash)
    (outcome : Except JsError Document) : Prop :=
  ∃ before index parsing after, past = before ++ .serve (.parse index) request.rest :: after ∧
    ((Documents.machine worker.texts hash).exec (before.filterMap WorkerEvent.inner)).1.parsing[index]? = some parsing ∧
    parsing.params = request.params ∧
    (onParse worker.texts.parse
      ((Documents.machine worker.texts hash).exec (before.filterMap WorkerEvent.inner)).1.documents
      parsing.params.extensions parsing.query).2 = outcome

/-- An outcome of validating a document, ahead of requests or for one. -/
def Judged (worker : Worker Number Schema Document Operation Rule Issue Input Result) (schema : Schema)
    (document : Document) (issues : List Issue) : Prop :=
  issues = worker.validator.validate schema document worker.validator.specifiedRules ∨
    issues = worker.validator.uncached worker.registered schema document

/-- A response that is of what was parsed: its error, an outcome of validating it, or what it
gives under some operation name, executed or, where it did not compile, by the compiler. -/
inductive ComesFrom (worker : Worker Number Schema Document Operation Rule Issue Input Result)
    (rest : Rest Schema Input) :
    Except JsError Document → Response Issue Result → Prop where
  | failed (error : JsError) : ComesFrom worker rest (.error error) (.failed error)
  | invalid (document : Document) (issues : List Issue) (judged : Judged worker rest.schema document issues) :
      ComesFrom worker rest (.ok document) (.invalid issues)
  | executed (document : Document) (operationName : Option String) :
      ComesFrom worker rest (.ok document)
        (.returned (.result (worker.engine.execute ⟨⟨rest.schema, document, operationName⟩, rest.input⟩)))
  | uncompiled (document : Document) (operationName : Option String) (result : Result)
      (gave : worker.engine.compileQuery ⟨rest.schema, document, operationName⟩ = .executionResult result) :
      ComesFrom worker rest (.ok document) (.returned (.function result))

/-- What is cached of a document is of it, and what waits was parsed to what it holds. -/
structure Kept (worker : Worker Number Schema Document Operation Rule Issue Input Result)
    (past : List (WorkerEvent Number Schema Input hash))
    (state : WorkerState Number Schema Document Issue Input Result hash) : Prop where
  validation : ∀ schema node outcome, state.validation.get schema node = some outcome →
    Judged worker schema node.document outcome
  executing : ∀ waiting ∈ state.executing, ParsedAs worker past waiting.request (.ok waiting.node.document)

omit [DecidableEq Schema] [DecidableEq Document] in
theorem ParsedAs.later {past : List (WorkerEvent Number Schema Input hash)} {request : Request Number Schema Input hash}
    {outcome : Except JsError Document} (parsed : ParsedAs worker past request outcome)
    (rest : List (WorkerEvent Number Schema Input hash)) : ParsedAs worker (past ++ rest) request outcome := by
  obtain ⟨before, index, parsing, after, rfl, parses⟩ := parsed
  exact ⟨before, index, parsing, after ++ rest, by simp, parses⟩

/-- The request of a step is parsed to what the object it is given holds. -/
theorem parsedAs_of_serve {past : List (WorkerEvent Number Schema Input hash)} {index : Nat}
    {parsing : Parsing Number hash}
    (at_ : ((machine worker hash).exec past).1.server.parsing[index]? = some parsing) (rest : Rest Schema Input) :
    ParsedAs worker (past ++ [.serve (.parse index) rest]) ⟨parsing.params, rest⟩
      (erase (onParse (fresh worker.texts ((machine worker hash).exec past).1.clock).parse
        ((machine worker hash).exec past).1.server.documents parsing.params.extensions parsing.query).2) := by
  have erases := erases_exec worker past
  rw [erases.parsing] at at_
  exact ⟨past, index, parsing, [], rfl, at_, rfl, (erase_onParse erases.documents worker.texts _ _ _).2.symm⟩

omit [DecidableEq Number] [Zero Number] [One Number] in
theorem judged_onValidate {cache : ValidationCache Schema (Node Document) Issue}
    (kept : ∀ schema node outcome, cache.get schema node = some outcome → Judged worker schema node.document outcome)
    (schema : Schema) (node : Node Document) :
    Judged worker schema node.document
        (onValidate (validatorOnNodes worker.validator) worker.registered cache schema node).2 ∧
      ∀ schema' node' outcome,
        (onValidate (validatorOnNodes worker.validator) worker.registered cache schema node).1.get schema' node' =
          some outcome → Judged worker schema' node'.document outcome := by
  constructor
  · unfold onValidate
    cases known : cache.get schema node with
    | some cached => exact kept schema node cached known
    | none => exact .inr rfl
  · intro schema' node' outcome found
    rcases onValidate_get (validatorOnNodes worker.validator) worker.registered cache schema node schema' node'
      with same | ⟨_, computed⟩
    · exact kept schema' node' outcome (same.symm.trans found)
    · exact .inr (Option.some.inj (computed.symm.trans found)).symm

/-- A step of the plugins up to the parser answers what is of the text that is parsed in it. -/
theorem kept_serve {past : List (WorkerEvent Number Schema Input hash)} {event : ServerEvent Number hash}
    {rest : Rest Schema Input} (kept : Kept worker past ((machine worker hash).exec past).1) :
    Kept worker (past ++ [.serve event rest]) (serve worker ((machine worker hash).exec past).1 event rest).1 ∧
      ∀ request response, .answered request response ∈ (serve worker ((machine worker hash).exec past).1 event rest).2 →
        ∃ outcome, ParsedAs worker (past ++ [.serve event rest]) request outcome ∧
          ComesFrom worker request.rest outcome response := by
  have executing : ∀ waiting ∈ ((machine worker hash).exec past).1.executing,
      ParsedAs worker (past ++ [.serve event rest]) waiting.request (.ok waiting.node.document) :=
    fun waiting member => (kept.executing waiting member).later _
  rcases serve_cases worker ((machine worker hash).exec past).1 event rest with
    ⟨same, silent⟩ | ⟨index, parsing, rfl, at_, served⟩
  · rw [same]
    exact ⟨⟨kept.validation, executing⟩, fun request response given => absurd given (silent request response)⟩
  · have parsed := parsedAs_of_serve at_ rest
    rw [served]
    cases got : (onParse (fresh worker.texts ((machine worker hash).exec past).1.clock).parse
        ((machine worker hash).exec past).1.server.documents parsing.params.extensions parsing.query).2 with
    | error error =>
      rw [got] at parsed
      refine ⟨⟨kept.validation, executing⟩, fun request response given => ?_⟩
      cases List.mem_singleton.mp given
      exact ⟨.error error, parsed, .failed error⟩
    | ok node =>
      rw [got] at parsed
      obtain ⟨judged, entries⟩ := judged_onValidate kept.validation rest.schema node
      cases issues : (onValidate (validatorOnNodes worker.validator) worker.registered
          ((machine worker hash).exec past).1.validation rest.schema node).2 with
      | nil =>
        simp only [validateRequest, advance, issues]
        refine ⟨⟨entries, fun waiting member => ?_⟩, by simp⟩
        rcases List.mem_append.mp member with member | member
        · exact executing waiting member
        · rw [List.mem_singleton.mp member]
          exact parsed
      | cons issue others =>
        rw [issues] at judged
        simp only [validateRequest, advance, issues]
        refine ⟨⟨entries, executing⟩, fun request response given => ?_⟩
        cases List.mem_singleton.mp given
        exact ⟨.ok node.document, parsed, .invalid node.document _ judged⟩

theorem kept_step {past : List (WorkerEvent Number Schema Input hash)} (event : WorkerEvent Number Schema Input hash)
    (kept : Kept worker past ((machine worker hash).exec past).1) :
    Kept worker (past ++ [event]) (step worker ((machine worker hash).exec past).1 event).1 := by
  have executing : ∀ waiting ∈ ((machine worker hash).exec past).1.executing,
      ParsedAs worker (past ++ [event]) waiting.request (.ok waiting.node.document) :=
    fun waiting member => (kept.executing waiting member).later _
  cases event with
  | serve event rest => exact (kept_serve kept).1
  | prewarmValidation schema index =>
    simp only [step]
    split
    · exact ⟨kept.validation, executing⟩
    · refine ⟨fun schema' node' outcome found => ?_, executing⟩
      simp only [Validation.prewarm, BiWeakMap.get_set] at found
      split at found
      · rename_i same
        obtain ⟨rfl, rfl⟩ := same
        exact .inl (Option.some.inj found).symm
      · exact kept.validation schema' node' outcome found
  | prewarmJit schema index =>
    simp only [step]
    split
    · exact ⟨kept.validation, executing⟩
    · split <;> exact ⟨kept.validation, executing⟩
  | execute index =>
    simp only [step]
    split
    · exact ⟨kept.validation, executing⟩
    · exact ⟨kept.validation, fun waiting member => executing waiting (List.mem_of_mem_eraseIdx member)⟩
  | executeDone index | timer index => exact ⟨kept.validation, executing⟩

theorem kept_exec (worker : Worker Number Schema Document Operation Rule Issue Input Result)
    (events : List (WorkerEvent Number Schema Input hash)) :
    Kept worker events ((machine worker hash).exec events).1 := by
  refine (machine worker hash).exec_invariant (Kept worker) ?_ (fun _ event => kept_step event) events
  constructor
  · intro schema node outcome known
    simp [machine] at known
  · intro waiting member
    simp [machine] at member

/-- What is executed is an operation of the document it waits with. -/
theorem executed_from (compilesPlainly : worker.engine.CompilesPlainly)
    {past : List (WorkerEvent Number Schema Input hash)} (waiting : Waiting Number Schema Document Input hash) :
    ComesFrom worker waiting.request.rest (.ok waiting.node.document)
      (.returned (executeRequest worker ((machine worker hash).exec past).1.jit waiting.args).2) := by
  unfold executeRequest
  split
  · unfold onExecute
    split
    · exact .executed waiting.node.document waiting.request.rest.operationName
    · rename_i query known
      obtain ⟨⟨schema, document, operationName⟩, _, rfl, rfl, gave⟩ := compiled_exec worker past _ _ _ known
      dsimp only
      rw [compilesPlainly _ query gave.symm]
      exact .executed waiting.node.document operationName
    · rename_i cached known
      obtain ⟨⟨schema, document, operationName⟩, _, rfl, rfl, gave⟩ := compiled_exec worker past _ _ _ known
      exact .uncompiled waiting.node.document operationName cached gave.symm
    · exact .executed waiting.node.document waiting.request.rest.operationName
  · exact .executed waiting.node.document waiting.request.rest.operationName

/-- Every answer is of what its request was parsed to. -/
theorem answers_parsed (compilesPlainly : worker.engine.CompilesPlainly)
    {events : List (WorkerEvent Number Schema Input hash)} {request : Request Number Schema Input hash}
    {response : Response Issue Result}
    (answered : .answered request response ∈ ((machine worker hash).exec events).2) :
    ∃ outcome, ParsedAs worker events request outcome ∧ ComesFrom worker request.rest outcome response := by
  obtain ⟨past, event, rest, rfl, given⟩ := (machine worker hash).mem_answers_iff.mp answered
  have kept : Kept worker past _ := kept_exec worker past
  rw [List.append_cons]
  cases event with
  | serve event extra =>
    obtain ⟨outcome, parsed, comes⟩ := (kept_serve kept).2 request response given
    exact ⟨outcome, parsed.later rest, comes⟩
  | prewarmValidation schema index =>
    simp only [machine_step, step] at given
    split at given <;> cases given
  | prewarmJit schema index =>
    simp only [machine_step, step] at given
    split at given
    · cases given
    · split at given <;> cases given
  | execute index =>
    simp only [machine_step, step] at given
    split at given
    · cases given
    · rename_i waiting at_
      obtain ⟨rfl, rfl⟩ := WorkerAnswer.answered.inj (List.mem_singleton.mp given)
      have parsed := kept.executing waiting (List.mem_of_getElem? at_)
      rw [List.append_assoc]
      exact ⟨_, parsed.later _, executed_from compilesPlainly waiting⟩
  | executeDone index => cases given
  | timer index => cases given

/-! ### What untrusted clients are answered -/

/-- Without a query, what is resolved is registered under the id that was sent. -/
theorem resolved_registered {registered : Value Number → Option String} {params : Params Number hash}
    (noQuery : params.query = none) {query : String} (resolved : resolvedText registered params = some query) :
    ∃ id, params.extensions.preRegisteredQueryId = some id ∧ id.truthy = true ∧ registered id = some query := by
  rw [resolvedText, noQuery] at resolved
  cases sent : params.extensions.preRegisteredQueryId with
  | none =>
    rw [sent] at resolved
    cases resolved
  | some id =>
    rw [sent] at resolved
    by_cases truthy : id.truthy = true
    · simp only [truthy, if_true] at resolved
      exact ⟨id, rfl, truthy, resolved⟩
    · simp only [truthy] at resolved
      cases resolved

omit [DecidableEq Document] in
/-- A registered text is what is parsed under its id, also where the cache held the id before. -/
theorem onParse_registered {security : SecurityConfig} {texts : Texts Number Document}
    {past : List (ClientEvent Number)}
    {stores : DocumentStores Number Document}
    (held : HeldBy texts (touches texts (past.filterMap (ClientEvent.inner security texts hash))) stores)
    (parsing : Parsing Number hash) {id : Value Number}
    (sent : parsing.params.extensions.preRegisteredQueryId = some id)
    (truthy : id.truthy = true) (registered : texts.registered id = some parsing.query) :
    (onParse texts.parse stores parsing.params.extensions parsing.query).2 = texts.parse parsing.query := by
  rw [onParse_outcome held parsing]
  apply congrArg texts.parse
  have picked : parsing.use.store = .preregistered ∧ parsing.use.key = id.key := by
    simp only [Parsing.use, pickDocumentCache, sent, and_self]
  rw [picked.1, picked.2]
  cases isKey : id.key with
  | none => rfl
  | some key =>
    cases kept : holder (touches texts (past.filterMap (ClientEvent.inner security texts hash))) .preregistered key with
    | none =>
      rw [Option.bind_some, kept]
      rfl
    | some use =>
      rw [Option.bind_some, kept, Option.getD_some]
      obtain ⟨member, store, useKey⟩ := holder_mem kept
      exact held_registered member store truthy isKey useKey registered

omit [DecidableEq Document] in
/-- An untrusted request is parsed to what the text of its id parses to. -/
theorem untrusted_served {security : SecurityConfig} (off : security.runUntrustedOperations = false)
    {texts : Texts Number Document} {past : List (ClientEvent Number)} {request : Security.Request Number}
    (untrusted : trustClient security (some request.headers) = false) {stored : Option String}
    {params : Params Number hash} (passed : admitted security hash stored request = some params) {index : Nat}
    {parsing : Parsing Number hash} (own : parsing.params = params)
    (at_ : ((Documents.machine texts hash).exec
      (past.filterMap (ClientEvent.inner security texts hash))).1.parsing[index]? =
      some parsing) :
    ∃ id code, request.extensions.preRegisteredQueryId = some id ∧ texts.registered id = some code ∧
      (onParse texts.parse
        ((Documents.machine texts hash).exec (past.filterMap (ClientEvent.inner security texts hash))).1.documents
        parsing.params.extensions parsing.query).2 = texts.parse code := by
  subst own
  obtain ⟨noQuery, onlyId⟩ := admitted_untrusted off untrusted passed
  have holds : ServerHolds texts (touches texts (past.filterMap (ClientEvent.inner security texts hash))) _ :=
    serverHolds_exec _
  have resolved := holds.parsing parsing (List.mem_of_getElem? at_)
  obtain ⟨id, sent, truthy, registered⟩ := resolved_registered noQuery resolved
  refine ⟨id, parsing.query, ?_, registered, onParse_registered holds.documents parsing sent truthy registered⟩
  rw [onlyId] at sent
  exact sent

/-- Clients send requests to a worker, each with what only the later stages read of it; whatever
else goes on in the worker goes on between. -/
inductive Event (Number Schema Input : Type) where
  | client (event : ClientEvent Number) (rest : Rest Schema Input)
  | prewarmValidation (schema : Schema) (index : Nat)
  | prewarmJit (schema : Schema) (index : Nat)
  | execute (index : Nat)
  | executeDone (index : Nat)
  | timer (index : Nat)

/-- What the plugins behind the persisted queries see. -/
def Event.inner (security : SecurityConfig) (texts : Texts Number Document) (hash : String → String) :
    Event Number Schema Input → Option (WorkerEvent Number Schema Input hash)
  | .client event rest => (event.inner security texts hash).map fun served => .serve served rest
  | .prewarmValidation schema index => some (.prewarmValidation schema index)
  | .prewarmJit schema index => some (.prewarmJit schema index)
  | .execute index => some (.execute index)
  | .executeDone index => some (.executeDone index)
  | .timer index => some (.timer index)

def Event.client? : Event Number Schema Input → Option (ClientEvent Number)
  | .client event _ => some event
  | _ => none

/-- A worker behind the plugin for security. -/
def served (security : SecurityConfig) (worker : Worker Number Schema Document Operation Rule Issue Input Result)
    (hash : String → String) :
    Machine (WorkerState Number Schema Document Issue Input Result hash) (Event Number Schema Input)
      (WorkerAnswer Number Schema Issue Input Result hash) :=
  (machine worker hash).behind (Event.inner security worker.texts hash)

omit [Zero Number] [DecidableEq Schema] [DecidableEq Document] in
/-- The plugins up to the parser see what the clients send. -/
theorem inner_inner (security : SecurityConfig) (texts : Texts Number Document)
    (events : List (Event Number Schema Input)) :
    (events.filterMap (Event.inner security texts hash)).filterMap WorkerEvent.inner =
      (events.filterMap Event.client?).filterMap (ClientEvent.inner security texts hash) := by
  rw [List.filterMap_filterMap, List.filterMap_filterMap]
  congr 1
  funext event
  cases event with
  | client event rest =>
    simp only [Event.inner, Event.client?, Option.bind_some]
    cases event.inner security texts hash <;> rfl
  | prewarmValidation | prewarmJit | execute | executeDone | timer => rfl

/-- Where untrusted operations may not run, whatever an untrusted client is answered is of the
text registered under the id it sent: a syntax error of it, an outcome of validating it, or what
it gives, executed or compiled, under some operation name. -/
theorem untrusted_answered_registered {security : SecurityConfig} (off : security.runUntrustedOperations = false)
    (worker : Worker Number Schema Document Operation Rule Issue Input Result)
    (compilesPlainly : worker.engine.CompilesPlainly) {events : List (Event Number Schema Input)}
    {request : Security.Request Number} (untrusted : trustClient security (some request.headers) = false)
    {stored : Option String} {params : Params Number hash}
    (passed : admitted security hash stored request = some params)
    {rest : Rest Schema Input} {response : Response Issue Result}
    (answered : .answered ⟨params, rest⟩ response ∈ ((served security worker hash).exec events).2) :
    ∃ id code, request.extensions.preRegisteredQueryId = some id ∧ worker.texts.registered id = some code ∧
      ComesFrom worker rest (worker.texts.parse code) response := by
  rw [served, Machine.behind_exec] at answered
  obtain ⟨_, ⟨before, index, parsing, after, split, at_, own, rfl⟩, comes⟩ := answers_parsed compilesPlainly answered
  obtain ⟨earlier, later, rfl, rfl, _⟩ := List.filterMap_eq_append_iff.mp split
  rw [inner_inner] at at_ comes
  obtain ⟨id, code, sent, registered, outcome⟩ := untrusted_served off untrusted passed own at_
  rw [outcome] at comes
  exact ⟨id, code, sent, registered, comes⟩

/-- A trusted client sends a text of two operations; an untrusted one is served its own. -/
def sharedRun : List (Event Nat Unit Unit) :=
  [.client (.receive ⟨.plain [], some "Hotels Reviews", ⟨none, none, none⟩⟩ none []) (named "Reviews"),
    .client (.parse 0) (named "Reviews"), .client (.receive untrustedHotels none ["hotels"]) (named "Hotels"),
    .client (.lookedUp 0 true) (named "Hotels"), .client (.parse 0) (named "Hotels"), .execute 0]

theorem untrusted_answered_registered_hotels :
    ∃ id code, untrustedHotels.extensions.preRegisteredQueryId = some id ∧
      namingWorker.texts.registered id = some code ∧
      ComesFrom namingWorker (named "Hotels") (namingWorker.texts.parse code) (.returned (.result "Hotels")) := by
  have off : (⟨true, false⟩ : SecurityConfig).runUntrustedOperations = false := rfl
  have passed : admitted ⟨true, false⟩ id none untrustedHotels = some _ := rfl
  have answered : .answered ⟨_, named "Hotels"⟩ (.returned (.result "Hotels")) ∈
      ((served ⟨true, false⟩ namingWorker id).exec sharedRun).2 := .tail _ (.head _)
  exact untrusted_answered_registered off namingWorker namingEngine_compiles rfl passed answered

end Taql.UntrustedResults

import Taql.DummyVariables
import Taql.PrewarmStages

/-! `prewarmExecutionCache` of `packages/caching/src/execution.ts` with the dummy
variables it builds. Every document is looked at, and executed where it has its
variables; but what one of them throws rejects the promise for all. -/
namespace Taql.ExecutionPrewarming
open Async DummyVariables GraphQL JavaScript Prewarming PrewarmStages

variable {Number Schema Ast Rule Issue Operation Input Result Variables : Type} {maxCacheSize : Nat}

def getVariableDefinitions (document : Document) : List VariableDefinitionNode :=
  document.definitions.flatMap fun
    | .operation definition => definition.variableDefinitions
    | _ => []

/-- `variableValues`, by the names of the variables. -/
def dummyVariables (schema : GraphQL.Schema) (stack : Nat) (document : Document) :
    Except JsError (List (String × Dummy)) :=
  (getVariableDefinitions document).mapM fun definition =>
    (getDummyVariable schema stack definition.type).map (definition.name, ·)

/-- The libraries, where so much of the stack is left when the variables are built. -/
def onStack (libraries : Libraries GraphQL.Schema Document Rule Issue Operation Input Result (List (String × Dummy)))
    (stack : Nat) : Libraries GraphQL.Schema Document Rule Issue Operation Input Result (List (String × Dummy)) :=
  { libraries with dummyVariables := fun schema document => dummyVariables schema stack document.ast }

section Calls
variable (libraries : Libraries Schema Ast Rule Issue Operation Input Result Variables) (prewarm : Prewarm Schema)
  (caches : Caches Number Schema Ast Issue Input Result Variables maxCacheSize)

/-- The promise of the call for a document. -/
def executionPromise {σ : Type} (document : DocumentNode Ast) : Promise σ JsError :=
  match libraries.dummyVariables prewarm.schema document with
  | .error error => .settled (.error error)
  | .ok _ => .waiting [.settled (.ok ())] id fun _ => .settled (.ok ())

theorem executionCall_snd (document : DocumentNode Ast) :
    (executionCall libraries prewarm document caches).2 = .ok (executionPromise libraries prewarm document) := by
  cases built : libraries.dummyVariables prewarm.schema document <;>
    simp [executionCall, executionPromise, async, built, awaitAll, callAll, plain, Except.map]

/-- The promise of a document is rejected where its variables are not built. -/
theorem quiet_executionPromise {σ : Type} {document : DocumentNode Ast} :
    Quiet (executionPromise libraries prewarm document : Promise σ JsError) ↔
      ∃ variableValues, libraries.dummyVariables prewarm.schema document = .ok variableValues := by
  unfold executionPromise
  cases libraries.dummyVariables prewarm.schema document with
  | error error =>
    constructor
    · intro quiet
      cases quiet
    · rintro ⟨_, built⟩
      cases built
  | ok variableValues =>
    refine iff_of_true (.waiting fun promise member => ?_) ⟨variableValues, rfl⟩
    rw [List.mem_singleton.mp member]
    exact .settled

/-- What `logPrewarm` returns, where its calls return promises known before. -/
theorem logPrewarm_snd {σ α : Type} (entries : σ → List α) {call : α → Call σ JsError} {promise : α → Promise σ JsError}
    (state : σ) (each : ∀ entry state, (call entry state).2 = .ok (promise entry)) :
    ∃ returned, (logPrewarm entries call state).2 = .ok returned ∧
      (Quiet returned ↔ ∀ entry ∈ entries state, Quiet (promise entry)) := by
  by_cases none : (entries state).isEmpty = true
  · refine ⟨.settled (.ok ()), by simp [logPrewarm, async, plain, none], ?_⟩
    rw [List.isEmpty_iff.mp none]
    exact iff_of_true .settled (List.forall_mem_nil _)
  · have calls := callAll_map (fun entry (_ : entry ∈ entries state) => each entry) state
    refine ⟨.waiting ((entries state).map promise) id fun _ => .settled (.ok ()), ?_, ?_⟩
    · simp [logPrewarm, async, awaitAll, none, calls, Except.map]
    · rw [quiet_waiting, List.forall_mem_map]

theorem prewarmExecutionCache_snd :
    ∃ returned, (prewarmExecutionCache libraries prewarm caches).2 = .ok returned ∧
      (Quiet returned ↔ ∀ document ∈ caches.documents,
        ∃ variableValues, libraries.dummyVariables prewarm.schema document = .ok variableValues) := by
  obtain ⟨returned, is, quiet⟩ := logPrewarm_snd Caches.documents (caches.read .execute)
    fun document caches => executionCall_snd libraries prewarm caches document
  have called : logPrewarm Caches.documents (executionCall libraries prewarm) (caches.read .execute) =
      ((logPrewarm Caches.documents (executionCall libraries prewarm) (caches.read .execute)).1, .ok returned) := by
    rw [← is]
  refine ⟨.waiting [returned] id fun _ => .settled (.ok ()), ?_, ?_⟩
  · rw [prewarmExecutionCache, async, awaitAll, callAll, called]
    rfl
  · rw [quiet_waiting, List.forall_mem_singleton, quiet]
    simp only [quiet_executionPromise]
    rfl

/-- The call runs to its end, and whatever is thrown in it is caught there. -/
theorem spent_prewarmExecutionCache :
    Gives Spent (prewarmExecutionCache libraries prewarm :
      CacheCall Number Schema Ast Issue Input Result Variables maxCacheSize) ∧
      (prewarmExecutionCache libraries prewarm caches).1 =
        { caches.read .execute with
          executed := caches.documents.foldl (execute libraries prewarm) caches.executed } :=
  prewarmExecutionCache_of_closed caches closed_spent fun _ error _ => .settled (.error error)

theorem mem_execute {executed : List (DocumentNode Ast × Variables)} {documents : List (DocumentNode Ast)}
    {document : DocumentNode Ast} {variableValues : Variables} :
    (document, variableValues) ∈ documents.foldl (execute libraries prewarm) executed ↔
      (document, variableValues) ∈ executed ∨
        document ∈ documents ∧ libraries.dummyVariables prewarm.schema document = .ok variableValues := by
  induction documents generalizing executed with
  | nil => simp
  | cons first rest ih =>
    rw [List.foldl_cons, ih, execute]
    cases built : libraries.dummyVariables prewarm.schema first with
    | error error =>
      grind
    | ok variableValues' =>
      grind

/-- Whatever the others throw, a document that has its variables is executed. -/
theorem executed_of_built {document : DocumentNode Ast} (member : document ∈ caches.documents)
    {variableValues : Variables} (built : libraries.dummyVariables prewarm.schema document = .ok variableValues) :
    (document, variableValues) ∈ (prewarmExecutionCache libraries prewarm caches).1.executed := by
  rw [(spent_prewarmExecutionCache libraries prewarm caches).2]
  exact (mem_execute libraries prewarm).mpr (.inr ⟨member, built⟩)

end Calls

/-- Prewarming resolves, in some order and against none, and has then executed the
documents that have their variables. -/
structure Prewarms (libraries : Libraries Schema Ast Rule Issue Operation Input Result Variables)
    (prewarm : Prewarm Schema) (caches : Caches Number Schema Ast Issue Input Result Variables maxCacheSize) :
    Prop where
  resolves : ∃ finish, Resolves (prewarmExecutionCache libraries prewarm) caches finish ∧
    ∀ document ∈ caches.documents, ∀ variableValues,
      libraries.dummyVariables prewarm.schema document = .ok variableValues →
        (document, variableValues) ∈ finish.executed
  kept : ¬Rejects (prewarmExecutionCache libraries prewarm) caches

/-- The promise resolves where all documents have their variables. -/
theorem resolves_iff_built {libraries : Libraries Schema Ast Rule Issue Operation Input Result Variables}
    {prewarm : Prewarm Schema} {caches : Caches Number Schema Ast Issue Input Result Variables maxCacheSize} :
    (∃ finish, Resolves (prewarmExecutionCache libraries prewarm) caches finish) ↔ ∀ document ∈ caches.documents,
      ∃ variableValues, libraries.dummyVariables prewarm.schema document = .ok variableValues := by
  obtain ⟨returned, is, quiet⟩ := prewarmExecutionCache_snd libraries prewarm caches
  obtain ⟨returned', is', spent⟩ := (spent_prewarmExecutionCache libraries prewarm caches).1 caches
  obtain rfl : returned = returned' := Except.ok.inj (is.symm.trans is')
  rw [← quiet]
  exact resolves_iff_quiet spent is

theorem prewarms_iff_built {libraries : Libraries Schema Ast Rule Issue Operation Input Result Variables}
    {prewarm : Prewarm Schema} {caches : Caches Number Schema Ast Issue Input Result Variables maxCacheSize} :
    Prewarms libraries prewarm caches ↔ ∀ document ∈ caches.documents,
      ∃ variableValues, libraries.dummyVariables prewarm.schema document = .ok variableValues := by
  constructor
  · rintro ⟨⟨finish, resolves, _⟩, _⟩
    exact resolves_iff_built.mp ⟨finish, resolves⟩
  · intro all
    obtain ⟨returned, is, quiet⟩ := prewarmExecutionCache_snd libraries prewarm caches
    obtain ⟨finish, resolves⟩ := resolves_iff_built.mpr all
    refine ⟨⟨finish, resolves, ?_⟩, not_rejects_of_quiet (quiet.mpr all) is⟩
    rw [resolves.finish (spent_prewarmExecutionCache libraries prewarm caches).1]
    intro document member variableValues
    exact executed_of_built libraries prewarm caches member

theorem dummyVariables_ok {schema : GraphQL.Schema} {stack : Nat} {document : Document} :
    (∃ variableValues, dummyVariables schema stack document = .ok variableValues) ↔
      ∀ definition ∈ getVariableDefinitions document,
        ∃ value, getDummyVariable schema stack definition.type = .ok value := by
  rw [dummyVariables, exists_mapM_ok]
  simp only [exists_map_ok]

/-- With a stack that is large enough, prewarming resolves and executes all documents
that have their variables, exactly where none of them declares a variable of a type that
no value is built for. -/
theorem prewarmExecutionCache_iff
    (libraries : Libraries GraphQL.Schema Document Rule Issue Operation Input Result (List (String × Dummy)))
    (prewarm : Prewarm GraphQL.Schema)
    (caches : Caches Number GraphQL.Schema Document Issue Input Result (List (String × Dummy)) maxCacheSize) :
    (∃ enough, ∀ stack ≥ enough, Prewarms (onStack libraries stack) prewarm caches) ↔
      ∀ document ∈ caches.documents, ∀ definition ∈ getVariableDefinitions document.ast,
        Buildable prewarm.schema definition.type := by
  simp only [prewarms_iff_built, onStack, dummyVariables_ok]
  constructor
  · rintro ⟨enough, all⟩ document listed definition declared
    rw [← builds_iff, builds_iff_exists]
    exact ⟨enough, all enough le_rfl document listed definition declared⟩
  · intro all
    apply exists_enough
    intro document listed
    apply exists_enough
    intro definition declared
    obtain ⟨enough, value, built⟩ :=
      (builds_iff prewarm.schema definition.type).mpr (all document listed definition declared)
    exact ⟨enough, fun stack larger => ⟨value, built stack larger⟩⟩

/-- A schema with one field, and parts of the libraries that do nothing. -/
def posts : Prewarm GraphQL.Schema where
  schema :=
    { typeMap := [("Query", some .output)]
      rootType
        | .query => some "Query"
        | _ => none
      possibleTypes := fun _ => [] }
  preregistered := []
  persisted := []

def idle : Libraries GraphQL.Schema Document Unit Unit Unit Unit Unit (List (String × Dummy)) where
  parse _ := .error ⟨"GraphQLError", "Syntax Error"⟩
  validator := ⟨fun _ _ _ => [], []⟩
  compiler := ⟨fun _ _ => none, fun _ => none, fun _ _ _ _ => (), fun _ _ => (), fun _ => .executionResult ()⟩
  dummyVariables _ _ := .ok []

/-- Two documents; the second declares a variable of an output type. -/
def parsed : Caches Unit GraphQL.Schema Document Unit Unit Unit (List (String × Dummy)) 1 :=
  { Caches.new false with
    documents := [⟨0, ⟨[.operation ⟨.query, [], [.field "posts"]⟩]⟩⟩,
      ⟨1, ⟨[.operation ⟨.query, [⟨"query", .named "Query"⟩], [.field "posts"]⟩]⟩⟩] }

/-- One document rejects the promise for both, on any stack. -/
theorem prewarmExecutionCache_aborted :
    ¬∃ stack finish, Resolves (prewarmExecutionCache (onStack idle stack) posts) parsed finish := by
  rintro ⟨stack, resolves⟩
  have output : Unsupported posts.schema "Query" := ⟨rfl, .inr rfl⟩
  have built := dummyVariables_ok.mp (resolves_iff_built.mp resolves _ (List.mem_cons_of_mem _ List.mem_cons_self))
  exact not_suffices_of_unsupported output stack (built ⟨"query", .named "Query"⟩ List.mem_cons_self)

end Taql.ExecutionPrewarming

import Taql.Prewarming

/-! What `useUnifiedCaching` has done when its first await returns: all of it. Each
stage is over before the next is called, and so finds all documents; what is left
to run only logs. -/
namespace Taql.PrewarmStages
open Async Documents JavaScript Lru Prewarming Validation

variable {Number Schema Ast Rule Issue Operation Input Result Variables : Type} {maxCacheSize : Nat}

section LogPrewarm
variable {σ α : Type} {Kind : Promise σ JsError → Prop}

/-- A kind of promises that has those without anything left to run, if it has all
they wait for. -/
structure Closed (Kind : Promise σ JsError → Prop) : Prop where
  settled : Kind (.settled (.ok ()))
  waiting : ∀ promises, (∀ promise ∈ promises, Kind promise) →
    Kind (.waiting promises id fun _ => .settled (.ok ()))

theorem closed_spent : Closed (Spent : Promise σ JsError → Prop) := ⟨.settled _, fun _ all => .waiting all⟩

theorem closed_quiet : Closed (Quiet : Promise σ JsError → Prop) := ⟨.settled, fun _ all => .waiting all⟩

/-- `logPrewarm` makes all its calls before it returns. -/
theorem logPrewarm_of_gives (closed : Closed Kind) (entries : σ → List α) (call : α → Call σ JsError)
    (each : ∀ state, ∀ entry ∈ entries state, Gives Kind (call entry)) :
    Gives Kind (logPrewarm entries call) ∧
      ∀ state, (logPrewarm entries call state).1 =
        (entries state).foldl (fun state entry => (call entry state).1) state := by
  have calls : ∀ state, ∀ call' ∈ (entries state).map call, Gives Kind call' := by
    intro state call' member
    obtain ⟨entry, listed, rfl⟩ := List.mem_map.mp member
    exact each state entry listed
  have body : Gives Kind fun state : σ =>
      if (entries state).isEmpty then plain id state else awaitAll ((entries state).map call) state := by
    intro state
    by_cases none : (entries state).isEmpty = true
    · simpa [none] using gives_plain closed.settled id state
    · simpa [none] using gives_awaitAll (calls state) closed.waiting state
  rw [logPrewarm, async_of_gives body]
  refine ⟨body, fun state => ?_⟩
  by_cases none : (entries state).isEmpty = true
  · simp [List.isEmpty_iff.mp none, plain]
  · simp only [none]
    rw [if_neg (by simp), awaitAll_fst (calls state), List.foldl_map]

/-- Calls of a plain function for each entry. -/
theorem logPrewarm_of_plain (closed : Closed Kind) (entries : σ → List α) (effect : α → σ → σ) :
    Gives Kind (logPrewarm entries fun entry => plain (effect entry)) ∧
      ∀ state, (logPrewarm entries (fun entry => plain (effect entry)) state).1 =
        (entries state).foldl (fun state entry => effect entry state) state :=
  logPrewarm_of_gives closed entries _ fun _ entry _ => gives_plain closed.settled (effect entry)

/-- Calls of functions that are the entries themselves. -/
theorem logPrewarm_calls (closed : Closed Kind) {calls : List (Call σ JsError)}
    (each : ∀ call ∈ calls, Gives Kind call) :
    Gives Kind (logPrewarm (fun _ => calls) id) ∧
      ∀ state, (logPrewarm (fun _ => calls) id state).1 = calls.foldl (fun state call => (call state).1) state :=
  logPrewarm_of_gives closed (fun _ => calls) id fun _ call member => each call member

end LogPrewarm

/-- What is prewarmed, in the order it is parsed. -/
def prewarmEntries (prewarm : Prewarm Schema) : List (StoreName × Entry) :=
  prewarm.preregistered.map (fun entry => (.preregistered, entry)) ++
    prewarm.persisted.map (fun entry => (.persisted, entry)) ++
    prewarm.queries.map fun query => (.default, ⟨query, query⟩)

variable {libraries : Libraries Schema Ast Rule Issue Operation Input Result Variables} {prewarm : Prewarm Schema}
  {Kind : Promise (Caches Number Schema Ast Issue Input Result Variables maxCacheSize) JsError → Prop}
  (caches : Caches Number Schema Ast Issue Input Result Variables maxCacheSize)

section Execution

/-- A document is executed where it has variables. -/
def execute (libraries : Libraries Schema Ast Rule Issue Operation Input Result Variables) (prewarm : Prewarm Schema)
    (executed : List (DocumentNode Ast × Variables)) (document : DocumentNode Ast) :
    List (DocumentNode Ast × Variables) :=
  match libraries.dummyVariables prewarm.schema document with
  | .error _ => executed
  | .ok variableValues => executed ++ [(document, variableValues)]

/-- A document whose variables cannot be built rejects its promise, and nothing more. -/
theorem executionCall_of_closed (closed : Closed Kind) (document : DocumentNode Ast)
    (rejected : ∀ error, libraries.dummyVariables prewarm.schema document = .error error →
      Kind (.settled (.error error))) :
    Gives Kind (executionCall libraries prewarm document) ∧
      (executionCall libraries prewarm document caches).1 =
        { caches with executed := execute libraries prewarm caches.executed document } := by
  cases built : libraries.dummyVariables prewarm.schema document with
  | error error =>
    refine ⟨fun caches => ⟨.settled (.error error), ?_, rejected error built⟩, ?_⟩
    · simp [executionCall, async, built]
    · simp [executionCall, execute, async, built]
  | ok variableValues =>
    refine ⟨fun caches => ⟨.waiting [.settled (.ok ())] id fun _ => .settled (.ok ()), ?_,
      closed.waiting _ (by simpa using closed.settled)⟩, ?_⟩
    · simp [executionCall, async, built, awaitAll, callAll, plain, Except.map]
    · simp [executionCall, execute, executeDocument, async, built, awaitAll, callAll, plain, Except.map]

theorem foldl_execute (documents : List (DocumentNode Ast)) :
    documents.foldl (fun caches document =>
        { caches with executed := execute libraries prewarm caches.executed document }) caches =
      { caches with executed := documents.foldl (execute libraries prewarm) caches.executed } := by
  induction documents generalizing caches with
  | nil => rfl
  | cons document rest ih => exact ih _

theorem prewarmExecutionCache_of_closed (closed : Closed Kind)
    (rejected : ∀ document error, libraries.dummyVariables prewarm.schema document = .error error →
      Kind (.settled (.error error))) :
    Gives Kind (prewarmExecutionCache libraries prewarm) ∧
      (prewarmExecutionCache libraries prewarm caches).1 =
        { caches.read .execute with
          executed := caches.documents.foldl (execute libraries prewarm) caches.executed } := by
  have each := fun document caches => executionCall_of_closed caches closed document (rejected document)
  obtain ⟨gives, runs⟩ := logPrewarm_of_gives closed Caches.documents (executionCall libraries prewarm)
    fun caches document _ => (each document caches).1
  have stage := List.forall_mem_cons.mpr ⟨gives, List.forall_mem_nil _⟩
  have body : Gives Kind fun caches => awaitAll [logPrewarm Caches.documents (executionCall libraries prewarm)]
      (caches.read .execute) :=
    fun caches => gives_awaitAll stage closed.waiting (caches.read .execute)
  rw [prewarmExecutionCache, async_of_gives body]
  refine ⟨body, ?_⟩
  simp only [awaitAll_fst stage, List.foldl_cons, List.foldl_nil, runs, (each _ _).2]
  exact foldl_execute (caches.read .execute) caches.documents

end Execution

section Caches
variable [DecidableEq Schema] [DecidableEq Ast]

theorem foldl_validateDocument (documents : List (DocumentNode Ast)) :
    documents.foldl (fun caches document => validateDocument libraries caches prewarm.schema document) caches =
      { caches with
        validationCache := documents.foldl (fun cache document =>
          Validation.prewarm libraries.validator cache prewarm.schema document) caches.validationCache } := by
  induction documents generalizing caches with
  | nil => rfl
  | cons document rest ih => exact ih _

theorem foldl_compileDocument (documents : List (DocumentNode Ast)) :
    documents.foldl (fun caches document => compileDocument libraries caches prewarm.schema document) caches =
      { caches with
        jitCache := caches.jitCache.map fun cache => documents.foldl (fun cache document =>
          Jit.compile libraries.compiler cache (Jit.prewarmArgs libraries.compiler prewarm.schema document))
          cache } := by
  induction documents generalizing caches with
  | nil => simp
  | cons document rest ih =>
    rw [List.foldl_cons, ih, compileDocument, Option.map_map]
    rfl

theorem validationPrewarm_of_closed (closed : Closed Kind) :
    Gives Kind (validationPrewarm libraries prewarm) ∧
      (validationPrewarm libraries prewarm caches).1 =
        { caches.read .validation with
          validationCache := caches.documents.foldl (fun cache document =>
            Validation.prewarm libraries.validator cache prewarm.schema document) caches.validationCache } := by
  obtain ⟨gives, runs⟩ := logPrewarm_of_plain closed Caches.documents fun document caches =>
    validateDocument libraries caches prewarm.schema document
  refine ⟨fun caches => gives (caches.read .validation), (runs (caches.read .validation)).trans ?_⟩
  exact foldl_validateDocument (caches.read .validation) caches.documents

/-- The stages that read the documents. -/
def stages (useJit : Bool) : List Stage :=
  if useJit then [.validation, .jit, .execute] else [.validation, .execute]

theorem jitPrewarm_of_closed (closed : Closed Kind) :
    Gives Kind (jitPrewarm libraries prewarm) ∧
      (jitPrewarm libraries prewarm caches).1 =
        { caches with
          jitCache := caches.jitCache.map fun cache => caches.documents.foldl (fun cache document =>
            Jit.compile libraries.compiler cache (Jit.prewarmArgs libraries.compiler prewarm.schema document))
            cache
          reads := if caches.jitCache.isSome then caches.reads ++ [(.jit, caches.documents)] else caches.reads } := by
  obtain ⟨gives, runs⟩ := logPrewarm_of_plain closed Caches.documents fun document caches =>
    compileDocument libraries caches prewarm.schema document
  constructor
  · intro caches
    unfold jitPrewarm
    split
    · exact gives (caches.read .jit)
    · exact gives_plain closed.settled id caches
  · unfold jitPrewarm
    split
    · exact (runs (caches.read .jit)).trans (foldl_compileDocument (caches.read .jit) caches.documents)
    · rename_i none
      rw [Option.not_isSome_iff_eq_none] at none
      cases caches
      cases none
      rfl

end Caches

section Whole
variable [DecidableEq Number]

/-- The caches once all entries are parsed. -/
def load (libraries : Libraries Schema Ast Rule Issue Operation Input Result Variables) (prewarm : Prewarm Schema)
    (caches : Caches Number Schema Ast Issue Input Result Variables maxCacheSize) :
    Caches Number Schema Ast Issue Input Result Variables maxCacheSize :=
  (prewarmEntries prewarm).foldl
    (fun caches entry => parseDocument libraries caches entry.1 entry.2.id entry.2.query) caches

omit caches in
/-- Parsing touches nothing but the stores and the documents. -/
theorem parseDocument_frame (libraries : Libraries Schema Ast Rule Issue Operation Input Result Variables)
    (caches : Caches Number Schema Ast Issue Input Result Variables maxCacheSize) (store : StoreName)
    (id query : String) :
    (parseDocument libraries caches store id query).jitCache = caches.jitCache ∧
      (parseDocument libraries caches store id query).reads = caches.reads := by
  unfold parseDocument instrumentedParse
  cases libraries.parse query <;> exact ⟨rfl, rfl⟩

omit caches in
theorem load_frame (libraries : Libraries Schema Ast Rule Issue Operation Input Result Variables)
    (prewarm : Prewarm Schema) (caches : Caches Number Schema Ast Issue Input Result Variables maxCacheSize) :
    (load libraries prewarm caches).jitCache = caches.jitCache ∧
      (load libraries prewarm caches).reads = caches.reads := by
  unfold load
  induction prewarmEntries prewarm generalizing caches with
  | nil => exact ⟨rfl, rfl⟩
  | cons entry rest ih =>
    obtain ⟨jitCache, reads⟩ := ih (parseDocument libraries caches entry.1 entry.2.id entry.2.query)
    obtain ⟨jitCache', reads'⟩ := parseDocument_frame libraries caches entry.1 entry.2.id entry.2.query
    exact ⟨jitCache.trans jitCache', reads.trans reads'⟩

/-- The documents are all parsed when the first stage returns. -/
theorem documentPrewarm_of_closed (closed : Closed Kind) :
    Gives Kind (documentPrewarm libraries prewarm) ∧
      (documentPrewarm libraries prewarm caches).1 = load libraries prewarm caches := by
  have preregistered := logPrewarm_of_plain closed (fun _ => prewarm.preregistered)
    fun entry caches => parseDocument libraries caches .preregistered entry.id entry.query
  have persisted := logPrewarm_of_plain closed (fun _ => prewarm.persisted)
    fun entry caches => parseDocument libraries caches .persisted entry.id entry.query
  have others := logPrewarm_of_plain closed (fun _ => prewarm.queries)
    fun query caches => parseDocument libraries caches .default query query
  obtain ⟨gives, runs⟩ := logPrewarm_calls closed <| List.forall_mem_cons.mpr ⟨preregistered.1,
    List.forall_mem_cons.mpr ⟨persisted.1, List.forall_mem_cons.mpr ⟨others.1, List.forall_mem_nil _⟩⟩⟩
  refine ⟨gives, ?_⟩
  rw [documentPrewarm, runs]
  simp only [List.foldl_cons, List.foldl_nil, preregistered.2, persisted.2, others.2]
  simp only [load, prewarmEntries, List.foldl_append, List.foldl_map]

variable [DecidableEq Schema] [DecidableEq Ast]

/-- The caches when all stages have returned. -/
def prewarmed (libraries : Libraries Schema Ast Rule Issue Operation Input Result Variables)
    (prewarm : Prewarm Schema) (caches : Caches Number Schema Ast Issue Input Result Variables maxCacheSize) :
    Caches Number Schema Ast Issue Input Result Variables maxCacheSize :=
  let loaded := load libraries prewarm caches
  { loaded with
    validationCache := loaded.documents.foldl (fun cache document =>
      Validation.prewarm libraries.validator cache prewarm.schema document) loaded.validationCache
    jitCache := loaded.jitCache.map fun cache => loaded.documents.foldl (fun cache document =>
      Jit.compile libraries.compiler cache (Jit.prewarmArgs libraries.compiler prewarm.schema document)) cache
    reads := loaded.reads ++ (stages loaded.jitCache.isSome).map fun stage => (stage, loaded.documents)
    executed := loaded.documents.foldl (execute libraries prewarm) loaded.executed }

/-- All is done when `useUnifiedCaching` comes to its first await, and every stage
found all the documents. -/
theorem useUnifiedCaching_of_closed (closed : Closed Kind)
    (rejected : ∀ document error, libraries.dummyVariables prewarm.schema document = .error error →
      Kind (.settled (.error error))) :
    Gives Kind (useUnifiedCaching libraries (some prewarm)) ∧
      (useUnifiedCaching libraries (some prewarm) caches).1 = prewarmed libraries prewarm caches := by
  have documents : Gives Kind (documentPrewarm libraries prewarm) := (documentPrewarm_of_closed caches closed).1
  have validation : Gives Kind (validationPrewarm libraries prewarm) := (validationPrewarm_of_closed caches closed).1
  have jit : Gives Kind (jitPrewarm libraries prewarm) := (jitPrewarm_of_closed caches closed).1
  have execution : Gives Kind (prewarmExecutionCache libraries prewarm) :=
    (prewarmExecutionCache_of_closed caches closed rejected).1
  obtain ⟨gives, runs⟩ := logPrewarm_calls closed <| List.forall_mem_cons.mpr ⟨documents,
    List.forall_mem_cons.mpr ⟨validation, List.forall_mem_cons.mpr ⟨jit, List.forall_mem_cons.mpr ⟨execution,
      List.forall_mem_nil _⟩⟩⟩⟩
  have whole := List.forall_mem_cons.mpr ⟨gives, List.forall_mem_nil _⟩
  have body := gives_awaitAll whole closed.waiting
  have same : useUnifiedCaching libraries (some prewarm) = _ := async_of_gives body
  rw [same]
  refine ⟨body, ?_⟩
  rw [awaitAll_fst whole]
  simp only [List.foldl_cons, List.foldl_nil, runs, (documentPrewarm_of_closed _ closed).2,
    (validationPrewarm_of_closed _ closed).2, (jitPrewarm_of_closed _ closed).2,
    (prewarmExecutionCache_of_closed _ closed rejected).2]
  simp only [prewarmed, Caches.read, stages]
  by_cases has : (load libraries prewarm caches).jitCache.isSome = true
  · simp [has]
  · simp [has]

end Whole

end Taql.PrewarmStages

import Taql.Runs
import Taql.Stores

/-! `packages/caching/src/jit.ts`: what the compiler gave, cached by schema and
document. The entry of a pair goes from absent to compiling when the pair is
first executed, and to what the compiler gives when that execution has ended and
a timer has run; prewarming compiles at once. Nothing in an entry says under
which name it was compiled. -/
namespace Taql.Jit
open Runs Stores

variable {Schema Document Operation Input Result : Type}

/-- What `compileQuery` gives: a compiled query, or an execution result with its
errors; `isCompiledQuery` tells them apart. -/
inductive Compilation (Input Result : Type) where
  | compiledQuery (query : Input → Result)
  | executionResult (result : Result)

/-- What is compiled. `args.operationName ?? undefined` is one missing name. -/
structure CompileArgs (Schema Document : Type) where
  schema : Schema
  document : Document
  operationName : Option String
  deriving DecidableEq

/-- What is executed, with its root value, context and variables. -/
structure ExecutionArgs (Schema Document Input : Type) extends CompileArgs Schema Document where
  input : Input
  deriving DecidableEq

/-- The GraphQL library and the compiler. `getOperationAST` without a name finds
the operation of a document that has only one. -/
structure Engine (Schema Document Operation Input Result : Type) where
  getOperationAST : Document → Option String → Option Operation
  name : Operation → Option String
  executeOperation : Schema → Document → Operation → Input → Result
  selectionError : Document → Option String → Result
  compileQuery : CompileArgs Schema Document → Compilation Input Result

/-- Plain execution, of the operation that the document and the name select. -/
def Engine.execute (engine : Engine Schema Document Operation Input Result)
    (args : ExecutionArgs Schema Document Input) : Result :=
  match engine.getOperationAST args.document args.operationName with
  | some operation => engine.executeOperation args.schema args.document operation args.input
  | none => engine.selectionError args.document args.operationName

/-- A query the compiler gives is equivalent to plain execution under the name
it was compiled for. -/
def Engine.CompilesPlainly (engine : Engine Schema Document Operation Input Result) : Prop :=
  ∀ args query, engine.compileQuery args = .compiledQuery query → ∀ input, query input = engine.execute ⟨args, input⟩

/-- `COMPILING`, or what the compiler gave. -/
inductive CacheValue (Input Result : Type) where
  | compiling
  | compiled (compilation : Compilation Input Result)

abbrev CompiledQueryCache (Schema Document Input Result : Type) := BiWeakMap Schema Document (CacheValue Input Result)

/-- The cache, the executions whose end starts a timer, and the timers. -/
structure JitState (Schema Document Input Result : Type) where
  compiledQueryCache : CompiledQueryCache Schema Document Input Result
  executing : List (CompileArgs Schema Document)
  timers : List (CompileArgs Schema Document)

/-- What an execution function returns: a result, or a function of no arguments
that would. -/
inductive Returned (Result : Type) where
  | result (result : Result)
  | function (result : Result)
  deriving DecidableEq

structure Served (Schema Document Input Result : Type) where
  args : ExecutionArgs Schema Document Input
  returned : Returned Result
  deriving DecidableEq

inductive JitEvent (Schema Document Input : Type) where
  | prewarm (schema : Schema) (document : Document)
  | execute (args : ExecutionArgs Schema Document Input)
  | executeDone (index : Nat)
  | timer (index : Nat)
  deriving DecidableEq

/-- The arguments `prewarm` compiles a document with. -/
def prewarmArgs (engine : Engine Schema Document Operation Input Result) (schema : Schema) (document : Document) :
    CompileArgs Schema Document :=
  ⟨schema, document, (engine.getOperationAST document none).bind engine.name⟩

/-- The arguments an event compiles, if any. -/
def compiledBy (engine : Engine Schema Document Operation Input Result)
    (state : JitState Schema Document Input Result) :
    JitEvent Schema Document Input → List (CompileArgs Schema Document)
  | .prewarm schema document => [prewarmArgs engine schema document]
  | .execute _ => []
  | .executeDone _ => []
  | .timer index => state.timers[index]?.toList

variable [DecidableEq Schema] [DecidableEq Document]

def compile (engine : Engine Schema Document Operation Input Result)
    (cache : CompiledQueryCache Schema Document Input Result) (args : CompileArgs Schema Document) :
    CompiledQueryCache Schema Document Input Result :=
  cache.set args.schema args.document (.compiled (engine.compileQuery args))

theorem compile_get (engine : Engine Schema Document Operation Input Result)
    (cache : CompiledQueryCache Schema Document Input Result) (args : CompileArgs Schema Document) (schema : Schema)
    (document : Document) :
    (compile engine cache args).get schema document =
      if args.schema = schema ∧ args.document = document then some (.compiled (engine.compileQuery args))
      else cache.get schema document := by
  simp only [compile, BiWeakMap.get_set, eq_comm]

/-- `onExecute`, with the execution it leads to. -/
def onExecute (engine : Engine Schema Document Operation Input Result) (state : JitState Schema Document Input Result)
    (args : ExecutionArgs Schema Document Input) : JitState Schema Document Input Result × Returned Result :=
  match state.compiledQueryCache.get args.schema args.document with
  | some .compiling => (state, .result (engine.execute args))
  | some (.compiled (.compiledQuery query)) => (state, .result (query args.input))
  | some (.compiled (.executionResult cached)) => (state, .function cached)
  | none =>
    ({ state with
        compiledQueryCache := state.compiledQueryCache.set args.schema args.document .compiling
        executing := state.executing ++ [args.toCompileArgs] },
      .result (engine.execute args))

/-- Executions end and timers run in any order; an index without one is no event. -/
def machine (engine : Engine Schema Document Operation Input Result) :
    Machine (JitState Schema Document Input Result) (JitEvent Schema Document Input)
      (Served Schema Document Input Result) where
  start := ⟨.empty, [], []⟩
  step
    | state, .prewarm schema document =>
      ({ state with
          compiledQueryCache := compile engine state.compiledQueryCache (prewarmArgs engine schema document) },
        [])
    | state, .execute args =>
      let executed := onExecute engine state args
      (executed.1, [⟨args, executed.2⟩])
    | state, .executeDone index =>
      match state.executing[index]? with
      | none => (state, [])
      | some args => ({ state with executing := state.executing.eraseIdx index, timers := state.timers ++ [args] }, [])
    | state, .timer index =>
      match state.timers[index]? with
      | none => (state, [])
      | some args =>
        ({ state with
            compiledQueryCache := compile engine state.compiledQueryCache args
            timers := state.timers.eraseIdx index },
          [])

/-- What was compiled in a run, in its order. -/
def compilations (engine : Engine Schema Document Operation Input Result)
    (events : List (JitEvent Schema Document Input)) : List (CompileArgs Schema Document) :=
  (machine engine).trace (compiledBy engine) events

def lastCompiled (compiled : List (CompileArgs Schema Document)) (schema : Schema) (document : Document) :
    Option (CompileArgs Schema Document) :=
  compiled.reverse.find? fun args => args.schema = schema ∧ args.document = document

theorem lastCompiled_snoc (compiled : List (CompileArgs Schema Document)) (args : CompileArgs Schema Document)
    (schema : Schema) (document : Document) :
    lastCompiled (compiled ++ [args]) schema document =
      if args.schema = schema ∧ args.document = document then some args else lastCompiled compiled schema document := by
  unfold lastCompiled
  rw [List.reverse_append, List.reverse_singleton, List.singleton_append, List.find?_cons]
  split <;> simp_all

section Runs
variable {engine : Engine Schema Document Operation Input Result}

/-- An event compiles one thing, or the entries stay but for one that was absent
and is now compiling. -/
theorem step_cases (engine : Engine Schema Document Operation Input Result)
    (state : JitState Schema Document Input Result) (event : JitEvent Schema Document Input) :
    (∃ args, compiledBy engine state event = [args] ∧
      ((machine engine).step state event).1.compiledQueryCache = compile engine state.compiledQueryCache args) ∨
    compiledBy engine state event = [] ∧ ∀ schema document,
      ((machine engine).step state event).1.compiledQueryCache.get schema document =
        state.compiledQueryCache.get schema document ∨
      state.compiledQueryCache.get schema document = none ∧
        ((machine engine).step state event).1.compiledQueryCache.get schema document = some .compiling := by
  cases event with
  | prewarm schema document => exact .inl ⟨_, rfl, rfl⟩
  | execute args =>
    refine .inr ⟨rfl, fun schema document => ?_⟩
    simp only [machine, onExecute]
    split
    · exact .inl rfl
    · exact .inl rfl
    · exact .inl rfl
    · rename_i absent
      simp only [BiWeakMap.get_set]
      split
      · rename_i same
        exact .inr ⟨by rw [same.1, same.2, absent], rfl⟩
      · exact .inl rfl
  | executeDone index =>
    refine .inr ⟨rfl, fun schema document => .inl ?_⟩
    simp only [machine]
    split <;> rfl
  | timer index =>
    simp only [machine, compiledBy]
    cases state.timers[index]? with
    | none => exact .inr ⟨rfl, fun schema document => .inl rfl⟩
    | some args => exact .inl ⟨args, rfl, rfl⟩

/-- The entry of a pair is what the compiler gave for it last; a pair that was
never compiled is absent or compiling. -/
structure CacheHolds (engine : Engine Schema Document Operation Input Result)
    (past : List (JitEvent Schema Document Input)) (state : JitState Schema Document Input Result) : Prop where
  compiled : ∀ schema document args, lastCompiled (compilations engine past) schema document = some args →
    state.compiledQueryCache.get schema document = some (.compiled (engine.compileQuery args))
  uncompiled : ∀ schema document, lastCompiled (compilations engine past) schema document = none →
    state.compiledQueryCache.get schema document = none ∨
      state.compiledQueryCache.get schema document = some .compiling

theorem cacheHolds_step (past : List (JitEvent Schema Document Input)) (event : JitEvent Schema Document Input)
    (held : CacheHolds engine past ((machine engine).exec past).1) :
    CacheHolds engine (past ++ [event]) ((machine engine).step ((machine engine).exec past).1 event).1 := by
  have seen : compilations engine (past ++ [event]) =
      compilations engine past ++ compiledBy engine ((machine engine).exec past).1 event :=
    (machine engine).trace_snoc _ past event
  rcases step_cases engine ((machine engine).exec past).1 event with ⟨args, compiles, stored⟩ | ⟨compiles, kept⟩
  · simp only [compiles] at seen
    constructor
    · intro schema document args' last
      simp only [seen, lastCompiled_snoc] at last
      simp only [stored, compile_get]
      split at last
      · rename_i same
        cases last
        exact if_pos same
      · rename_i other
        exact (if_neg other).trans (held.compiled schema document args' last)
    · intro schema document last
      simp only [seen, lastCompiled_snoc] at last
      simp only [stored, compile_get]
      split at last
      · cases last
      · rename_i other
        simp only [if_neg other]
        exact held.uncompiled schema document last
  · simp only [compiles, List.append_nil] at seen
    constructor
    · intro schema document args last
      have before := held.compiled schema document args (seen ▸ last)
      rcases kept schema document with kept | ⟨absent, _⟩
      · exact kept.trans before
      · cases absent.symm.trans before
    · intro schema document last
      rcases kept schema document with kept | ⟨_, compiling⟩
      · simp only [kept]
        exact held.uncompiled schema document (seen ▸ last)
      · exact .inr compiling

theorem cacheHolds_exec (events : List (JitEvent Schema Document Input)) :
    CacheHolds engine events ((machine engine).exec events).1 :=
  (machine engine).exec_invariant (CacheHolds engine) ⟨by simp [compilations, lastCompiled], fun _ _ _ => .inl rfl⟩
    cacheHolds_step events

/-- What a request is returned after `past`: what the compiler gave last for its
pair is run on its input, or handed out as a function. -/
theorem returned_after (past : List (JitEvent Schema Document Input)) (args : ExecutionArgs Schema Document Input) :
    (onExecute engine ((machine engine).exec past).1 args).2 =
      match lastCompiled (compilations engine past) args.schema args.document with
      | none => .result (engine.execute args)
      | some compiled =>
        match engine.compileQuery compiled with
        | .compiledQuery query => .result (query args.input)
        | .executionResult cached => .function cached := by
  have held : CacheHolds engine past _ := cacheHolds_exec past
  unfold onExecute
  cases last : lastCompiled (compilations engine past) args.schema args.document with
  | none =>
    rcases held.uncompiled args.schema args.document last with absent | compiling
    · rw [absent]
    · rw [compiling]
  | some compiled =>
    rw [held.compiled args.schema args.document compiled last]
    cases gave : engine.compileQuery compiled <;> simp only [gave]

end Runs

/-- Every request of a run is answered with the plain execution of its own
operation exactly when, for every request whose pair was compiled before, the
compiler gave a query the last time and plain execution under the name it was
given gives this request what its own name does. -/
theorem jit_transparent_iff (engine : Engine Schema Document Operation Input Result)
    (compiles : engine.CompilesPlainly) (events : List (JitEvent Schema Document Input)) :
    (∀ served ∈ ((machine engine).exec events).2, served.returned = .result (engine.execute served.args)) ↔
      ∀ past args rest compiled, events = past ++ .execute args :: rest →
        lastCompiled (compilations engine past) args.schema args.document = some compiled →
          (∃ query, engine.compileQuery compiled = .compiledQuery query) ∧
            engine.execute ⟨compiled, args.input⟩ = engine.execute args := by
  constructor
  · intro transparent past args rest compiled split last
    have given : ⟨args, _⟩ ∈ ((machine engine).exec events).2 :=
      ((machine engine).mem_answers_iff).mpr ⟨past, .execute args, rest, split, List.mem_singleton_self _⟩
    have returned := transparent _ given
    simp only [returned_after, last] at returned
    cases given : engine.compileQuery compiled with
    | compiledQuery query =>
      rw [given] at returned
      exact ⟨⟨query, rfl⟩, (compiles compiled query given args.input).symm.trans (Returned.result.inj returned)⟩
    | executionResult cached =>
      rw [given] at returned
      cases returned
  · intro agrees served given
    obtain ⟨past, event, rest, split, given⟩ := (machine engine).mem_answers_iff.mp given
    cases event with
    | prewarm schema document => cases given
    | execute args =>
      rw [List.mem_singleton.mp given]
      simp only [returned_after]
      cases last : lastCompiled (compilations engine past) args.schema args.document with
      | none => rfl
      | some compiled =>
        obtain ⟨⟨query, gave⟩, same⟩ := agrees past args rest compiled split last
        simp only [gave]
        rw [compiles compiled query gave args.input, same]
    | executeDone index =>
      simp only [machine] at given
      split at given <;> cases given
    | timer index =>
      simp only [machine] at given
      split at given <;> cases given

/-- An engine whose documents are the names of their operations, and whose
executions give the name of the operation executed. -/
def namingEngine : Engine Unit (List String) String Unit String where
  getOperationAST
    | [only], none => some only
    | _, none => none
    | names, some name => names.find? (· = name)
  name := some
  executeOperation _ _ operation _ := operation
  selectionError _ _ := "Must provide operation name"
  compileQuery args :=
    match args.document, args.operationName with
    | [only], none => .compiledQuery fun _ => only
    | _, none => .executionResult "Must provide operation name"
    | names, some name =>
      match names.find? (· = name) with
      | some operation => .compiledQuery fun _ => operation
      | none => .executionResult "Must provide operation name"

def naming (name : String) : ExecutionArgs Unit (List String) Unit := ⟨⟨(), ["Hotels", "Reviews"], some name⟩, ()⟩

theorem namingEngine_compiles : namingEngine.CompilesPlainly := by
  rintro ⟨schema, document, operationName⟩ query given input
  simp only [namingEngine] at given
  unfold Engine.execute
  simp only [namingEngine]
  split at given
  · cases given
    rfl
  · cases given
  · split at given
    · rename_i found
      cases given
      simp only [found]
    · cases given

/-- One operation of a document, executed before and after it is compiled. -/
theorem jit_transparent_repeated :
    namingEngine.CompilesPlainly ∧
      ∀ served ∈ ((machine namingEngine).exec
          [.execute (naming "Hotels"), .executeDone 0, .timer 0, .execute (naming "Hotels")]).2,
        served.returned = .result (namingEngine.execute served.args) := by
  refine ⟨namingEngine_compiles, (jit_transparent_iff namingEngine namingEngine_compiles _).mpr ?_⟩
  intro past args rest compiled split last
  rcases past with _ | ⟨_, _ | ⟨_, _ | ⟨_, _ | ⟨_, past⟩⟩⟩⟩
  · cases split
    cases last
  · cases split
  · cases split
  · cases split
    cases last
    exact ⟨⟨_, rfl⟩, rfl⟩
  · simp at split

/-- Once one operation of a document is compiled, a request for the other is
answered with it; and once the document is prewarmed, under no name, a request
for one of its operations is returned a function. -/
theorem jit_answers_other_operation :
    namingEngine.CompilesPlainly ∧
      namingEngine.execute (naming "Reviews") = "Reviews" ∧
      ((machine namingEngine).exec
        [.execute (naming "Hotels"), .executeDone 0, .timer 0, .execute (naming "Reviews")]).2 =
          [⟨naming "Hotels", .result "Hotels"⟩, ⟨naming "Reviews", .result "Hotels"⟩] ∧
      ((machine namingEngine).exec [.prewarm () ["Hotels", "Reviews"], .execute (naming "Reviews")]).2 =
        [⟨naming "Reviews", .function "Must provide operation name"⟩] :=
  ⟨namingEngine_compiles, rfl, rfl, rfl⟩

end Taql.Jit

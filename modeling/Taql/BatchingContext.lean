import Mathlib.Logic.Function.Basic
import Taql.Context

/-! `packages/batching/src/context.ts`: the private state a context gets when
it is first batched, with the memoised getters over it. -/
namespace Taql.BatchingContext
open JavaScript Headers Context

/-- What the platform supplies: a sort, a collation and a digest. The digest
stands for `md5` and may collide. -/
structure Runtime where
  sorting : ArraySort
  localeCompare : String → String → Int
  md5 : String → String

/-- Headers that differ from request to request. -/
def batchIgnoreHeaders : List String := ["x-guid", "x-request-id"]

abbrev BatchHeaders := List (String × String)

/-- The pairs of the forwarded headers that requests are batched on. -/
def batchPairs (forwardHeaders : TaqlHeaders) : BatchHeaders :=
  ((entries forwardHeaders).filter fun entry => !batchIgnoreHeaders.contains entry.1).flatMap fun entry =>
    entry.2.map fun val => (entry.1, val)

/-- `lhs[0].localeCompare(rhs[0]) || lhs[1].localeCompare(rhs[1])`. -/
def Runtime.comparePairs (runtime : Runtime) (lhs rhs : String × String) : JsNumber :=
  if runtime.localeCompare lhs.1 rhs.1 = 0 then .num (runtime.localeCompare lhs.2 rhs.2)
  else .num (runtime.localeCompare lhs.1 rhs.1)

/-- What the getter `batchByHeaders` computes. -/
def Runtime.batchByHeaders (runtime : Runtime) (ctx : TaqlContext) : BatchHeaders :=
  runtime.sorting.sort runtime.comparePairs (batchPairs ctx.forwardHeaders)

/-- The digest of names and values written one after the other. -/
def Runtime.hashHeaders (runtime : Runtime) (headers : BatchHeaders) : String :=
  runtime.md5 (String.join (headers.map fun tuple => tuple.1 ++ tuple.2))

/-- What the getter `batchByHeadersHash` computes. -/
def Runtime.batchByHeadersHash (runtime : Runtime) (ctx : TaqlContext) : String :=
  runtime.hashHeaders (runtime.batchByHeaders ctx)

/-- The state of one context. A getter that has run has replaced itself by its
value, and nothing else is ever stored there. -/
structure BatchingState (runtime : Runtime) (ctx : TaqlContext) where
  requestUnique : Nat
  batchByHeaders : Option { headers // headers = runtime.batchByHeaders ctx }
  batchByHeadersHash : Option { hash // hash = runtime.batchByHeadersHash ctx }

/-- `PRIVATE_STATE`, with the number of symbols drawn so far: a symbol is the
number of those drawn before it. -/
structure PrivateState (runtime : Runtime) where
  states : (ctx : TaqlContext) → Option (BatchingState runtime ctx)
  symbols : Nat
  drawn : ∀ ctx state, states ctx = some state → state.requestUnique < symbols
  unique : ∀ ctx state ctx' state', states ctx = some state → states ctx' = some state' →
    state.requestUnique = state'.requestUnique → ctx = ctx'

namespace PrivateState

variable {runtime : Runtime}

def empty : PrivateState runtime where
  states _ := none
  symbols := 0
  drawn _ _ held := by cases held
  unique _ _ _ _ held := by cases held

/-- `Symbol()`. -/
def drawSymbol (state : PrivateState runtime) : Nat × PrivateState runtime :=
  (state.symbols, { state with
    symbols := state.symbols + 1
    drawn := fun ctx existing held => Nat.lt_succ_of_lt (state.drawn ctx existing held) })

/-- A state in which no getter has run, `requestUnique` being a new symbol. -/
def computed (state : PrivateState runtime) (ctx : TaqlContext) : BatchingState runtime ctx :=
  ⟨state.symbols, none, none⟩

/-- `PRIVATE_STATE.set(ctx, computed)`. -/
def set (state : PrivateState runtime) (ctx : TaqlContext) : PrivateState runtime where
  states := Function.update state.states ctx (some (state.computed ctx))
  symbols := state.symbols + 1
  drawn other existing held := by
    by_cases same : other = ctx
    · subst same
      rw [Function.update_self] at held
      cases held
      exact Nat.lt_succ_self _
    · rw [Function.update_of_ne same] at held
      exact Nat.lt_succ_of_lt (state.drawn other existing held)
  unique left existing right other leftHeld rightHeld equal := by
    by_cases leftSame : left = ctx <;> by_cases rightSame : right = ctx
    · rw [leftSame, rightSame]
    · subst leftSame
      rw [Function.update_self] at leftHeld
      rw [Function.update_of_ne rightSame] at rightHeld
      cases leftHeld
      exact absurd equal (Nat.ne_of_gt (state.drawn right other rightHeld))
    · subst rightSame
      rw [Function.update_self] at rightHeld
      rw [Function.update_of_ne leftSame] at leftHeld
      cases rightHeld
      exact absurd equal (Nat.ne_of_lt (state.drawn left existing leftHeld))
    · rw [Function.update_of_ne leftSame] at leftHeld
      rw [Function.update_of_ne rightSame] at rightHeld
      exact state.unique left existing right other leftHeld rightHeld equal

/-- `loadState(ctx)`. -/
def loadState (state : PrivateState runtime) (ctx : TaqlContext) : BatchingState runtime ctx × PrivateState runtime :=
  match state.states ctx with
  | some existing => (existing, state)
  | none => (state.computed ctx, state.set ctx)

/-- A getter replaces itself by its value, which leaves the symbol. -/
def memoize (state : PrivateState runtime) (ctx : TaqlContext)
    (change : (ctx : TaqlContext) → BatchingState runtime ctx → BatchingState runtime ctx)
    (keeps : ∀ ctx existing, (change ctx existing).requestUnique = existing.requestUnique) :
    PrivateState runtime where
  states other := (state.states other).map fun existing => if other = ctx then change other existing else existing
  symbols := state.symbols
  drawn other existing held := by
    obtain ⟨before, found, rfl⟩ := Option.map_eq_some_iff.mp held
    split
    · rw [keeps]
      exact state.drawn other before found
    · exact state.drawn other before found
  unique left existing right other leftHeld rightHeld equal := by
    obtain ⟨leftBefore, leftFound, rfl⟩ := Option.map_eq_some_iff.mp leftHeld
    obtain ⟨rightBefore, rightFound, rfl⟩ := Option.map_eq_some_iff.mp rightHeld
    apply state.unique left leftBefore right rightBefore leftFound rightFound
    split at equal <;> split at equal <;> simpa only [keeps] using equal

/-- `loadState(ctx).requestUnique`. -/
def requestUnique (state : PrivateState runtime) (ctx : TaqlContext) : Nat × PrivateState runtime :=
  let loaded := state.loadState ctx
  (loaded.1.requestUnique, loaded.2)

/-- `loadState(ctx).batchByHeaders`. -/
def batchByHeaders (state : PrivateState runtime) (ctx : TaqlContext) : BatchHeaders × PrivateState runtime :=
  let loaded := state.loadState ctx
  match loaded.1.batchByHeaders with
  | some memo => (memo, loaded.2)
  | none =>
    (runtime.batchByHeaders ctx,
      loaded.2.memoize ctx (fun _ existing => { existing with batchByHeaders := some ⟨_, rfl⟩ }) fun _ _ => rfl)

/-- `loadState(ctx).batchByHeadersHash`, which reads `batchByHeaders`. -/
def batchByHeadersHash (state : PrivateState runtime) (ctx : TaqlContext) : String × PrivateState runtime :=
  let loaded := state.loadState ctx
  match loaded.1.batchByHeadersHash with
  | some memo => (memo, loaded.2)
  | none =>
    let headers := loaded.2.batchByHeaders ctx
    (runtime.hashHeaders headers.1,
      headers.2.memoize ctx (fun _ existing => { existing with batchByHeadersHash := some ⟨_, rfl⟩ }) fun _ _ => rfl)

/-- Whether or not it has run before, a getter answers what it computes. -/
@[simp] theorem batchByHeaders_fst (state : PrivateState runtime) (ctx : TaqlContext) :
    (state.batchByHeaders ctx).1 = runtime.batchByHeaders ctx := by
  unfold batchByHeaders
  dsimp only
  split
  · rename_i memo _
    exact memo.2
  · rfl

@[simp] theorem batchByHeadersHash_fst (state : PrivateState runtime) (ctx : TaqlContext) :
    (state.batchByHeadersHash ctx).1 = runtime.batchByHeadersHash ctx := by
  unfold batchByHeadersHash
  dsimp only
  split
  · rename_i memo _
    exact memo.2
  · simp only [batchByHeaders_fst, Runtime.batchByHeadersHash]

end PrivateState

/-- Forwarded headers as pairs, apart from those batching ignores: what
requests must share to be batched by headers. -/
theorem batchByHeaders_perm (runtime : Runtime) (ctx : TaqlContext) :
    (runtime.batchByHeaders ctx).Perm (batchPairs ctx.forwardHeaders) :=
  runtime.sorting.permutes _ _

end Taql.BatchingContext

import Mathlib.Data.Multiset.Filter
import Taql.SubBatches

/-! Whose headers a sub-batch is sent with. Under the strategies that look at
the context the members of a sub-batch carry the same headers, whatever the
digest: it only narrows the candidates, and the lists are compared in full. -/
namespace Taql.HeaderIsolation
open JavaScript Headers Context BatchingContext BatchByKey Strategies GroupingProofs ClusteringProofs SubBatches

/-- Forwarded headers as a multiset of names and values, without those that
differ from request to request. -/
def sharedHeaders (forwardHeaders : TaqlHeaders) : Multiset (String × String) :=
  Multiset.filter (fun pair => pair.1 ≠ "x-guid" ∧ pair.1 ≠ "x-request-id") (headerPairs forwardHeaders)

private theorem filter_pairs (forwardHeaders : TaqlHeaders) :
    (forwardHeaders.filter fun entry => !batchIgnoreHeaders.contains entry.1).flatMap
        (fun entry => entry.2.map fun value => (entry.1, value)) =
      (headerPairs forwardHeaders).filter fun pair => pair.1 ≠ "x-guid" ∧ pair.1 ≠ "x-request-id" := by
  induction forwardHeaders with
  | nil => rfl
  | cons entry rest ih =>
    rw [headerPairs_cons, List.filter_append, ← ih, List.filter_cons, List.filter_map]
    by_cases ignored : entry.1 = "x-guid" ∨ entry.1 = "x-request-id"
    · rcases ignored with same | same <;> simp [same, batchIgnoreHeaders, Function.comp_def]
    · rw [not_or] at ignored
      simp [ignored, batchIgnoreHeaders, Function.comp_def]

/-- The list batching compares has the same pairs. -/
theorem batchPairs_coe (forwardHeaders : TaqlHeaders) :
    (batchPairs forwardHeaders : Multiset (String × String)) = sharedHeaders forwardHeaders := by
  have ordered : (batchPairs forwardHeaders).Perm _ := ((entries_perm forwardHeaders).filter _).flatMap_right _
  rw [Multiset.coe_eq_coe.mpr ordered, sharedHeaders, Multiset.filter_coe, filter_pairs]

theorem headersEqual_iff (lhs rhs : Option BatchHeaders) : headersEqual lhs rhs = true ↔ lhs = rhs := by
  cases lhs with
  | none => cases rhs <;> simp [headersEqual]
  | some lhs =>
    cases rhs with
    | none => simp [headersEqual]
    | some rhs =>
      simp only [headersEqual, Bool.and_eq_true, beq_iff_eq, Option.some.injEq]
      induction lhs generalizing rhs with
      | nil => cases rhs <;> simp
      | cons first lhs ih =>
        cases rhs with
        | nil => simp
        | cons other rhs =>
          have tails := ih rhs
          simp only [List.length_cons, Nat.add_right_cancel_iff, List.zip_cons_cons, List.all_cons,
            Bool.and_eq_true, beq_iff_eq, List.cons.injEq, ← tails, Prod.ext_iff]
          tauto

section Symbols
variable {runtime : Runtime}

theorem loadState_symbols_le (state : PrivateState runtime) (ctx : TaqlContext) :
    state.symbols ≤ (state.loadState ctx).2.symbols := by
  unfold PrivateState.loadState
  split
  · exact Nat.le_refl _
  · exact Nat.le_succ _

theorem batchByHeaders_symbols_le (state : PrivateState runtime) (ctx : TaqlContext) :
    state.symbols ≤ (state.batchByHeaders ctx).2.symbols := by
  have loaded := loadState_symbols_le state ctx
  unfold PrivateState.batchByHeaders
  dsimp only
  split
  · exact loaded
  · exact loaded

theorem batchByHeadersHash_symbols_le (state : PrivateState runtime) (ctx : TaqlContext) :
    state.symbols ≤ (state.batchByHeadersHash ctx).2.symbols := by
  have loaded := loadState_symbols_le state ctx
  unfold PrivateState.batchByHeadersHash
  dsimp only
  split
  · exact loaded
  · exact loaded.trans (batchByHeaders_symbols_le _ ctx)

private theorem related_of_ne {α : Type} {related : α → α → Prop} {items : List α} {index k : Nat} {item other : α}
    (apart : items.Pairwise related) (here : items[index]? = some item) (there : items[k]? = some other)
    (differ : k ≠ index) : related item other ∨ related other item := by
  obtain ⟨inside, rfl⟩ := List.getElem?_eq_some_iff.mp here
  obtain ⟨kInside, rfl⟩ := List.getElem?_eq_some_iff.mp there
  rcases Nat.lt_or_gt_of_ne differ with before | after
  · exact .inr (List.pairwise_iff_getElem.mp apart k index kInside inside before)
  · exact .inl (List.pairwise_iff_getElem.mp apart index k inside kInside after)

/-- No symbol is used as the id of two requests, and a request without context
has a symbol. -/
structure SymbolsApart (done : List (TaqlRequest × SubBatchId)) (state : PrivateState runtime) : Prop where
  drawn : ∀ item ∈ done, ∀ number, item.2 = .symbol number → number < state.symbols
  apart : done.Pairwise fun first second => ∀ number, first.2 = .symbol number → second.2 ≠ .symbol number
  stateless : ∀ item ∈ done, item.1.taql = none → ∃ number, item.2 = .symbol number

private theorem SymbolsApart.draw {done : List (TaqlRequest × SubBatchId)} {state later : PrivateState runtime}
    (held : SymbolsApart done state) (after : state.symbols ≤ later.symbols) (request : TaqlRequest) :
    SymbolsApart (done ++ [(request, (freshId later).1)]) (freshId later).2 where
  drawn := by
    intro item member number is_symbol
    rcases List.mem_append.mp member with member | member
    · exact Nat.lt_succ_of_lt ((held.drawn item member number is_symbol).trans_le after)
    · rw [List.mem_singleton.mp member] at is_symbol
      cases is_symbol
      exact Nat.lt_succ_self _
  apart := by
    refine List.pairwise_append.mpr ⟨held.apart, List.pairwise_singleton _ _, ?_⟩
    intro first member second last number first_symbol second_symbol
    rw [List.mem_singleton.mp last] at second_symbol
    cases second_symbol
    exact absurd (held.drawn first member _ first_symbol) (Nat.not_lt.mpr after)
  stateless := by
    intro item member none_
    rcases List.mem_append.mp member with member | member
    · exact held.stateless item member none_
    · rw [List.mem_singleton.mp member]
      exact ⟨_, rfl⟩

theorem symbolsApart_keyAll (state : PrivateState runtime) (requests : List TaqlRequest) :
    SymbolsApart (keyAll byHeadersId state requests).1 (keyAll byHeadersId state requests).2 := by
  refine keyAll_run SymbolsApart ?_ state requests ⟨by simp, List.Pairwise.nil, by simp⟩
  intro done state request held
  unfold byHeadersId
  cases known : request.taql with
  | none => exact held.draw (Nat.le_refl _) request
  | some ctx =>
    dsimp only
    have after := batchByHeadersHash_symbols_le state ctx
    split
    · exact held.draw after request
    · refine ⟨?_, ?_, ?_⟩
      · intro item member number is_symbol
        rcases List.mem_append.mp member with member | member
        · exact (held.drawn item member number is_symbol).trans_le after
        · rw [List.mem_singleton.mp member] at is_symbol
          cases is_symbol
      · refine List.pairwise_append.mpr ⟨held.apart, List.pairwise_singleton _ _, ?_⟩
        intro first member second last number _ second_symbol
        rw [List.mem_singleton.mp last] at second_symbol
        cases second_symbol
      · intro item member none_
        rcases List.mem_append.mp member with member | member
        · exact held.stateless item member none_
        · rw [List.mem_singleton.mp member, known] at none_
          cases none_

private theorem SymbolsApart.unmatched {done : List (TaqlRequest × SubBatchId)} {state : PrivateState runtime}
    (held : SymbolsApart done state) (here : done[index]? = some item) (none_ : item.1.taql = none) :
    ∀ k, k ≠ index → keyAt done k ≠ keyAt done index := by
  intro k differ same
  obtain ⟨number, is_symbol⟩ := held.stateless item (List.mem_of_getElem? here) none_
  simp only [keyAt, here, Option.map_some, is_symbol] at same
  obtain ⟨other, there, other_symbol⟩ := Option.map_eq_some_iff.mp same
  rcases related_of_ne held.apart here there differ with apart | apart
  · exact apart number is_symbol other_symbol
  · exact apart number other_symbol is_symbol

end Symbols

/-! ### The Headers strategy -/

section Headers
variable {runtime : Runtime} {V : Type} {config : BatchingConfig} {state : PrivateState runtime}
  {requests : List TaqlRequest}

/-- What batching compares of a request. -/
def comparedHeaders (runtime : Runtime) (request : TaqlRequest) : Option BatchHeaders :=
  request.taql.map runtime.batchByHeaders

theorem byHeadersEq_eq {state : PrivateState runtime} (equal : byHeadersEq state lhs rhs = true) :
    comparedHeaders runtime lhs = comparedHeaders runtime rhs := by
  simp only [byHeadersEq, PrivateState.batchByHeaders_fst, Bool.or_eq_true, decide_eq_true_eq, headersEqual_iff]
    at equal
  rcases equal with rfl | equal
  · rfl
  · exact equal

/-- Requests that are handed over together compare alike. -/
theorem compared_alike (within : WithinCap config.maxSize requests.length)
    (member : subBatch ∈ subBatches .Headers config state requests) (oneIn : one ∈ subBatch)
    (otherIn : other ∈ subBatch) :
    comparedHeaders runtime one.val = comparedHeaders runtime other.val := by
  obtain ⟨batch, batchIn, partIn⟩ := (mem_subBatches .Headers config state requests).mp member
  obtain ⟨after, agrees⟩ := batches_agree (byHeadersOptions config) rfl state within batch batchIn
  cases batch with
  | nil => cases mem_of_mem_replacement partIn oneIn
  | cons first rest =>
    have alike : ∀ entry ∈ first :: rest, comparedHeaders runtime first.val = comparedHeaders runtime entry.val := by
      intro entry held
      rcases List.mem_cons.mp held with rfl | held
      · rfl
      · exact byHeadersEq_eq (agrees first rest rfl entry held)
    rw [← alike one (mem_of_mem_replacement partIn oneIn), ← alike other (mem_of_mem_replacement partIn otherIn)]

theorem stateless_alone (member : subBatch ∈ subBatches .Headers config state requests) (held : entry ∈ subBatch)
    (stateless : entry.val.taql = none) : subBatch = [entry] := by
  obtain ⟨batch, batchIn, partIn⟩ := (mem_subBatches .Headers config state requests).mp member
  have inBatch := mem_of_mem_replacement partIn held
  have sound := (batches_sound (byHeadersOptions config) state requests).2 batch batchIn
  have known := mem_handed .Headers config state requests (List.mem_flatten.mpr ⟨subBatch, member, held⟩)
  rw [← keyAll_vals byHeadersId state requests, List.getElem?_map] at known
  obtain ⟨item, here, same⟩ := Option.map_eq_some_iff.mp known
  have alone := sound.alone inBatch
    ((symbolsApart_keyAll state requests).unmatched here (by rw [same]; exact stateless))
  subst alone
  exact mem_replacement_singleton partIn

/-- A call under which no request is sent with another's headers: its members
forward the same headers apart from those that are ignored, those of the first
are sent, and a request without context is alone. -/
structure HeadersShared (call : LoaderArgs) : Prop where
  alike : ∀ one ∈ call.request, ∀ other ∈ call.request, ∀ ctx ctx', one.taql = some ctx → other.taql = some ctx' →
    sharedHeaders ctx.forwardHeaders = sharedHeaders ctx'.forwardHeaders
  sent : ∀ one ∈ call.request, ∀ ctx, one.taql = some ctx →
    ∃ forwardHeaders, call.forwardHeaders = some forwardHeaders ∧
      sharedHeaders ctx.forwardHeaders = sharedHeaders forwardHeaders
  alone : ∀ one ∈ call.request, one.taql = none → call.request = [one]

theorem shared_of_compared {one other : TaqlRequest}
    (same : comparedHeaders runtime one = comparedHeaders runtime other) (oneHas : one.taql = some ctx)
    (otherHas : other.taql = some ctx') : sharedHeaders ctx.forwardHeaders = sharedHeaders ctx'.forwardHeaders := by
  simp only [comparedHeaders, oneHas, otherHas, Option.map_some, Option.some.injEq] at same
  rw [← batchPairs_coe, ← batchPairs_coe, Multiset.coe_eq_coe]
  exact ((batchByHeaders_perm runtime ctx).symm.trans (same ▸ .refl _)).trans (batchByHeaders_perm runtime ctx')

/-- The headers sent with a sub-batch are every member's own. -/
theorem calls_headers_shared (executor : TaqlBatchLoader V) (within : WithinCap config.maxSize requests.length) :
    ∀ call ∈ (STRATEGIES .Headers executor config state requests).calls, HeadersShared call := by
  intro call member
  rw [calls_eq] at member
  obtain ⟨subBatch, listed, rfl⟩ := List.mem_map.mp member
  refine ⟨?_, ?_, ?_⟩
  · intro one oneIn other otherIn ctx ctx' oneHas otherHas
    obtain ⟨oneEntry, oneHeld, rfl⟩ := (mem_toArgs ..).mp oneIn
    obtain ⟨otherEntry, otherHeld, rfl⟩ := (mem_toArgs ..).mp otherIn
    exact shared_of_compared (compared_alike within listed oneHeld otherHeld) oneHas otherHas
  · intro one oneIn ctx oneHas
    obtain ⟨oneEntry, oneHeld, rfl⟩ := (mem_toArgs ..).mp oneIn
    cases subBatch with
    | nil => cases oneHeld
    | cons first rest =>
      have same := compared_alike within listed oneHeld List.mem_cons_self
      cases firstHas : first.val.taql with
      | none =>
        rw [comparedHeaders, comparedHeaders, oneHas, firstHas] at same
        cases same
      | some firstCtx =>
        refine ⟨firstCtx.forwardHeaders, ?_, shared_of_compared same oneHas firstHas⟩
        simp [BatchingStrategy.toArgs, firstArgs, firstHas]
  · intro one oneIn oneStateless
    obtain ⟨oneEntry, oneHeld, rfl⟩ := (mem_toArgs ..).mp oneIn
    rw [toArgs_request, stateless_alone listed oneHeld oneStateless]
    rfl

/-- Two users, and one digest for all headers: they are handed over apart. -/
theorem calls_headers_shared_collision :
    (STRATEGIES .Headers (answering TaqlRequest.ref) ⟨10, some 2⟩ plainState
      [userRequest 0 "alice", userRequest 1 "bob"]).calls.length = 2 ∧
    ∀ call ∈ (STRATEGIES .Headers (answering TaqlRequest.ref) ⟨10, some 2⟩ plainState
      [userRequest 0 "alice", userRequest 1 "bob"]).calls, HeadersShared call := by
  refine ⟨by decide, calls_headers_shared _ ?_⟩
  rintro cap ⟨⟩
  decide

end Headers

/-! ### The Request strategy -/

section Request
variable {runtime : Runtime} {config : BatchingConfig} {state : PrivateState runtime} {requests : List TaqlRequest}

/-- The id of a request is the symbol of its context, or one that no context
and no other request has. -/
structure SymbolsOwned (done : List (TaqlRequest × SubBatchId)) (state : PrivateState runtime) : Prop where
  owned : ∀ item ∈ done, ∀ ctx, item.1.taql = some ctx →
    ∃ existing, state.states ctx = some existing ∧ item.2 = .symbol existing.requestUnique
  unowned : ∀ item ∈ done, item.1.taql = none → ∃ number, item.2 = .symbol number ∧ number < state.symbols ∧
    ∀ ctx existing, state.states ctx = some existing → existing.requestUnique ≠ number
  apart : done.Pairwise fun first second => first.1.taql = none ∨ second.1.taql = none → first.2 ≠ second.2

private theorem SymbolsOwned.bounded {done : List (TaqlRequest × SubBatchId)} {state : PrivateState runtime}
    (held : SymbolsOwned done state) (member : item ∈ done) :
    ∃ number, item.2 = .symbol number ∧ number < state.symbols := by
  cases known : item.1.taql with
  | none =>
    obtain ⟨number, is_symbol, below, _⟩ := held.unowned item member known
    exact ⟨number, is_symbol, below⟩
  | some ctx =>
    obtain ⟨existing, has, is_symbol⟩ := held.owned item member ctx known
    exact ⟨_, is_symbol, state.drawn ctx existing has⟩

private theorem SymbolsOwned.draw {done : List (TaqlRequest × SubBatchId)} {state : PrivateState runtime}
    (held : SymbolsOwned done state) {request : TaqlRequest} (stateless : request.taql = none) :
    SymbolsOwned (done ++ [(request, (freshId state).1)]) (freshId state).2 where
  owned := by
    intro item member ctx known
    rcases List.mem_append.mp member with member | member
    · exact held.owned item member ctx known
    · rw [List.mem_singleton.mp member, stateless] at known
      cases known
  unowned := by
    intro item member none_
    rcases List.mem_append.mp member with member | member
    · obtain ⟨number, is_symbol, below, unmatched⟩ := held.unowned item member none_
      exact ⟨number, is_symbol, Nat.lt_succ_of_lt below, unmatched⟩
    · rw [List.mem_singleton.mp member]
      exact ⟨_, rfl, Nat.lt_succ_self _, fun ctx existing has => Nat.ne_of_lt (state.drawn ctx existing has)⟩
  apart := by
    refine List.pairwise_append.mpr ⟨held.apart, List.pairwise_singleton _ _, ?_⟩
    intro first member second last _ same
    obtain ⟨number, is_symbol, below⟩ := held.bounded member
    rw [List.mem_singleton.mp last, is_symbol] at same
    cases same
    exact absurd below (Nat.lt_irrefl _)

/-- The state of a context is there once it is loaded, and loading it leaves
the symbols of the others. -/
theorem loadState_spec (state : PrivateState runtime) (ctx : TaqlContext) :
    (state.loadState ctx).2.states ctx = some (state.loadState ctx).1 ∧
      (∀ other existing, state.states other = some existing → (state.loadState ctx).2.states other = some existing) ∧
      ∀ other existing, (state.loadState ctx).2.states other = some existing →
        state.states other = some existing ∨ existing.requestUnique = state.symbols := by
  unfold PrivateState.loadState
  cases known : state.states ctx with
  | some existing => exact ⟨known, fun _ _ has => has, fun _ _ has => .inl has⟩
  | none =>
    refine ⟨Function.update_self .., ?_, ?_⟩
    · intro other existing has
      have differ : other ≠ ctx := by
        rintro rfl
        rw [known] at has
        cases has
      exact (Function.update_of_ne differ _ _).trans has
    · intro other existing has
      by_cases same : other = ctx
      · subst same
        refine .inr ?_
        simp only [PrivateState.set, Function.update_self, Option.some.injEq] at has
        rw [← has]
        rfl
      · refine .inl ?_
        simpa only [PrivateState.set, Function.update_of_ne same] using has

private theorem SymbolsOwned.load {done : List (TaqlRequest × SubBatchId)} {state : PrivateState runtime}
    (held : SymbolsOwned done state) {request : TaqlRequest} (known : request.taql = some ctx) :
    SymbolsOwned (done ++ [(request, .symbol (state.requestUnique ctx).1)]) (state.requestUnique ctx).2 := by
  obtain ⟨there, keeps, gains⟩ := loadState_spec state ctx
  have unmatched : ∀ number, number < state.symbols →
      (∀ ctx existing, state.states ctx = some existing → existing.requestUnique ≠ number) →
        ∀ other existing, (state.loadState ctx).2.states other = some existing → existing.requestUnique ≠ number := by
    intro number below apart other existing has
    rcases gains other existing has with before | drawn
    · exact apart other existing before
    · rw [drawn]
      exact (Nat.ne_of_lt below).symm
  refine ⟨?_, ?_, ?_⟩
  · intro item member other has
    rcases List.mem_append.mp member with member | member
    · obtain ⟨existing, before, is_symbol⟩ := held.owned item member other has
      exact ⟨existing, keeps other existing before, is_symbol⟩
    · rw [List.mem_singleton.mp member, known] at has
      cases has
      exact ⟨_, there, by rw [List.mem_singleton.mp member]; rfl⟩
  · intro item member none_
    rcases List.mem_append.mp member with member | member
    · obtain ⟨number, is_symbol, below, apart⟩ := held.unowned item member none_
      exact ⟨number, is_symbol, below.trans_le (loadState_symbols_le state ctx), unmatched number below apart⟩
    · rw [List.mem_singleton.mp member, known] at none_
      cases none_
  · refine List.pairwise_append.mpr ⟨held.apart, List.pairwise_singleton _ _, ?_⟩
    intro first member second last stateless same
    rw [List.mem_singleton.mp last] at stateless same
    rcases stateless with stateless | stateless
    · obtain ⟨number, is_symbol, below, apart⟩ := held.unowned first member stateless
      rw [is_symbol] at same
      cases same
      exact unmatched _ below apart ctx _ there rfl
    · rw [known] at stateless
      cases stateless

theorem symbolsOwned_keyAll (state : PrivateState runtime) (requests : List TaqlRequest) :
    SymbolsOwned (keyAll byRequestId state requests).1 (keyAll byRequestId state requests).2 := by
  refine keyAll_run SymbolsOwned ?_ state requests ⟨by simp, by simp, List.Pairwise.nil⟩
  intro done state request held
  unfold byRequestId
  cases known : request.taql with
  | none => exact held.draw known
  | some ctx => exact held.load known

private theorem SymbolsOwned.unmatched {done : List (TaqlRequest × SubBatchId)} {state : PrivateState runtime}
    (held : SymbolsOwned done state) (here : done[index]? = some item) (none_ : item.1.taql = none) :
    ∀ k, k ≠ index → keyAt done k ≠ keyAt done index := by
  intro k differ same
  simp only [keyAt, here, Option.map_some] at same
  obtain ⟨other, there, sameId⟩ := Option.map_eq_some_iff.mp same
  rcases related_of_ne held.apart here there differ with apart | apart
  · exact apart (.inl none_) sameId.symm
  · exact apart (.inr none_) sameId

private theorem keyed_of_mem (member : subBatch ∈ subBatches .Request config state requests) (held : entry ∈ subBatch) :
    ∃ item, (keyAll byRequestId state requests).1[entry.idx]? = some item ∧ item.1 = entry.val := by
  have known := entry_handed .Request config state requests member held
  rw [← keyAll_vals byRequestId state requests, List.getElem?_map] at known
  exact Option.map_eq_some_iff.mp known

theorem request_stateless_alone (member : subBatch ∈ subBatches .Request config state requests)
    (held : entry ∈ subBatch) (stateless : entry.val.taql = none) : subBatch = [entry] := by
  obtain ⟨batch, batchIn, partIn⟩ := (mem_subBatches .Request config state requests).mp member
  have sound := (batches_sound (byRequestOptions config) state requests).2 batch batchIn
  obtain ⟨item, here, same⟩ := keyed_of_mem member held
  have alone := sound.alone (mem_of_mem_replacement partIn held)
    ((symbolsOwned_keyAll state requests).unmatched here (by rw [same]; exact stateless))
  subst alone
  exact mem_replacement_singleton partIn

/-- Requests that are handed over together share one context, or there is one
request without any. -/
theorem contexts_shared (member : subBatch ∈ subBatches .Request config state requests) (oneIn : one ∈ subBatch)
    (otherIn : other ∈ subBatch) : one.val.taql = other.val.taql := by
  by_cases stateless : one.val.taql = none ∨ other.val.taql = none
  · rcases stateless with stateless | stateless
    · rw [request_stateless_alone member oneIn stateless] at otherIn
      rw [List.mem_singleton.mp otherIn]
    · rw [request_stateless_alone member otherIn stateless] at oneIn
      rw [List.mem_singleton.mp oneIn]
  · obtain ⟨batch, batchIn, partIn⟩ := (mem_subBatches .Request config state requests).mp member
    have sound := (batches_sound (byRequestOptions config) state requests).2 batch batchIn
    have symbols := symbolsOwned_keyAll state requests
    obtain ⟨oneItem, oneAt, oneSame⟩ := keyed_of_mem member oneIn
    obtain ⟨otherItem, otherAt, otherSame⟩ := keyed_of_mem member otherIn
    have same := sound.oneKey one (mem_of_mem_replacement partIn oneIn) other (mem_of_mem_replacement partIn otherIn)
    simp only [keyAt, byRequestOptions] at same
    rw [oneAt, otherAt] at same
    have sameId : oneItem.2 = otherItem.2 := Option.some.inj same
    rw [← oneSame, ← otherSame] at stateless ⊢
    rw [not_or] at stateless
    obtain ⟨ctx, oneHas⟩ := Option.ne_none_iff_exists'.mp stateless.1
    obtain ⟨ctx', otherHas⟩ := Option.ne_none_iff_exists'.mp stateless.2
    obtain ⟨existing, has, oneSymbol⟩ := symbols.owned _ (List.mem_of_getElem? oneAt) ctx oneHas
    obtain ⟨existing', has', otherSymbol⟩ := symbols.owned _ (List.mem_of_getElem? otherAt) ctx' otherHas
    rw [oneSymbol, otherSymbol] at sameId
    have unique := (keyAll byRequestId state requests).2.unique ctx existing ctx' existing' has has'
      (SubBatchId.symbol.inj sameId)
    rw [oneHas, otherHas, unique]

/-- A call under which all requests are of one context, whose headers and client are
sent, and a request without one is alone. -/
structure ContextShared (call : LoaderArgs) : Prop where
  shared : ∀ one ∈ call.request, ∀ other ∈ call.request, one.taql = other.taql
  forwardHeaders : ∀ one ∈ call.request, call.forwardHeaders = one.taql.map TaqlContext.forwardHeaders
  clientName : ∀ one ∈ call.request, call.clientName = one.taql.map TaqlContext.client
  alone : ∀ one ∈ call.request, one.taql = none → call.request = [one]

/-- Whatever symbols the contexts were given before, a call is made for one context. -/
theorem calls_context_shared {V : Type} (executor : TaqlBatchLoader V) (config : BatchingConfig)
    (state : PrivateState runtime) (requests : List TaqlRequest) :
    ∀ call ∈ (STRATEGIES .Request executor config state requests).calls, ContextShared call := by
  intro call member
  rw [calls_eq] at member
  obtain ⟨subBatch, listed, rfl⟩ := List.mem_map.mp member
  have first {one : BatchEntry TaqlRequest} (held : one ∈ subBatch) :
      (subBatch.head?.bind fun sub => sub.val.taql) = one.val.taql := by
    cases subBatch with
    | nil => cases held
    | cons head rest => exact contexts_shared listed List.mem_cons_self held
  refine ⟨?_, ?_, ?_, ?_⟩
  · intro one oneIn other otherIn
    obtain ⟨oneEntry, oneHeld, rfl⟩ := (mem_toArgs ..).mp oneIn
    obtain ⟨otherEntry, otherHeld, rfl⟩ := (mem_toArgs ..).mp otherIn
    exact contexts_shared listed oneHeld otherHeld
  · intro one oneIn
    obtain ⟨oneEntry, oneHeld, rfl⟩ := (mem_toArgs ..).mp oneIn
    exact congrArg (Option.map TaqlContext.forwardHeaders) (first oneHeld)
  · intro one oneIn
    obtain ⟨oneEntry, oneHeld, rfl⟩ := (mem_toArgs ..).mp oneIn
    exact congrArg (Option.map TaqlContext.client) (first oneHeld)
  · intro one oneIn oneStateless
    obtain ⟨oneEntry, oneHeld, rfl⟩ := (mem_toArgs ..).mp oneIn
    rw [toArgs_request, request_stateless_alone listed oneHeld oneStateless]
    rfl

/-- Two requests of one context, one of another, and one of none. -/
theorem calls_context_shared_users :
    let requests :=
      [userRequest 0 "alice", userRequest 1 "bob", ⟨2, .query, none⟩, { userRequest 0 "alice" with ref := 3 }]
    (STRATEGIES .Request (answering TaqlRequest.ref) ⟨10, none⟩ plainState requests).calls.length = 3 ∧
    ∀ call ∈ (STRATEGIES .Request (answering TaqlRequest.ref) ⟨10, none⟩ plainState requests).calls,
      ContextShared call :=
  ⟨by decide, calls_context_shared _ _ _ _⟩

end Request

end Taql.HeaderIsolation

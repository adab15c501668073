import Taql.DocumentTransparency
import Taql.Security

/-! An untrusted client keeps nothing of its request but an id. The entry of an
id that is truthy is only ever written with the text registered under it, also by
clients that are trusted, and a request without a truthy id has no text. -/
namespace Taql.UntrustedOperations
open DocumentTransparency Documents JavaScript Prereg Security Runs Stores

variable {Number Document : Type} [DecidableEq Number] [Zero Number] [One Number] {hash : String → String}
  {texts : Texts Number Document} {security : SecurityConfig}

/-- The plugins behind the persisted queries see a run of their own. -/
theorem exec_inner (events : List (ClientEvent Number)) :
    (Security.machine security texts hash).exec events =
      (Documents.machine texts hash).exec (events.filterMap (ClientEvent.inner security texts hash)) := by
  induction events using List.reverseRecOn with
  | nil => rfl
  | append_singleton past event ih =>
    rw [Machine.exec_snoc, List.filterMap_append, ih]
    cases inner : event.inner security texts hash with
    | none => simp [Security.machine, inner]
    | some served =>
      simp only [Security.machine, inner, List.filterMap_cons, List.filterMap_nil]
      rw [Machine.exec_snoc]
      rfl

omit [Zero Number] in
/-- An untrusted request goes on with its id alone. -/
theorem admitted_untrusted (off : security.runUntrustedOperations = false) {request : Request Number}
    (untrusted : trustClient security (some request.headers) = false) {stored : Option String}
    {params : Params Number hash} (passed : admitted security hash stored request = some params) :
    params.query = none ∧ params.extensions = ⟨request.extensions.preRegisteredQueryId, none, none⟩ := by
  unfold admitted useTaqlSecurity at passed
  rw [off, untrusted] at passed
  simp only [Bool.or_self, Bool.false_eq_true, if_false] at passed
  split at passed
  · cases passed
  · cases passed
    exact ⟨rfl, rfl⟩

omit [Zero Number] in
/-- Prewarming wrote an entry of a preregistered query from the database. -/
private theorem prewarm_registered {events : List (ClientEvent Number)} {id query : String}
    (member : .prewarm .preregistered id query ∈ events.filterMap (ClientEvent.inner security texts hash)) :
    texts.registered (.string id) = some query := by
  obtain ⟨event, _, is⟩ := List.mem_filterMap.mp member
  cases event with
  | prewarmPreregistered id' =>
    obtain ⟨text, known, same⟩ := Option.map_eq_some_iff.mp is
    cases same
    exact known
  | receive request stored knownQueries =>
    obtain ⟨params, _, same⟩ := Option.map_eq_some_iff.mp is
    cases same
  | lookedUp | parse | preload | prewarmPersisted | evictQuery | evictDocument => cases is

/-- Whoever writes the entry of a truthy id looked the id up. -/
theorem use_verified {events : List (ClientEvent Number)} {use : Use Number}
    (member : use ∈ uses texts (events.filterMap (ClientEvent.inner security texts hash)))
    (store : use.store = .preregistered) {id : Value Number} (truthy : id.truthy = true) {key : Key Number}
    (isId : id.key = some key) (isKey : use.key = some key) : use.verified = true := by
  obtain ⟨touch, touched, is⟩ := List.mem_filterMap.mp member
  obtain ⟨past, event, rest, split, seen⟩ := (Documents.machine texts hash).mem_trace_iff.mp touched
  cases event with
  | parse index =>
    obtain ⟨waiting, at_, rfl⟩ := List.mem_map.mp seen
    cases is
    simp only [Parsing.use, pickDocumentCache] at store isKey ⊢
    cases sent : waiting.params.extensions.preRegisteredQueryId with
    | none =>
      rw [sent] at store
      simp only at store
      split at store <;> cases store
    | some id' =>
      rw [sent] at isKey
      rw [Extensions.verified, sent, Value.key_injective isKey isId]
      exact truthy
  | prewarm store' id' query =>
    rw [List.mem_singleton.mp seen] at is
    cases is
    cases store
    exact decide_eq_true (prewarm_registered (split ▸ List.mem_append_right _ List.mem_cons_self))
  | evictDocument store' key' =>
    rw [List.mem_singleton.mp seen] at is
    cases is
  | receive | lookedUp | preload | evictQuery => cases seen

/-- The entry of a registered id was parsed from its text. -/
theorem held_registered {events : List (ClientEvent Number)} {use : Use Number}
    (member : use ∈ uses texts (events.filterMap (ClientEvent.inner security texts hash)))
    (store : use.store = .preregistered) {id : Value Number} (truthy : id.truthy = true) {key : Key Number}
    (isId : id.key = some key) (isKey : use.key = some key) {text : String}
    (registered : texts.registered id = some text) :
    use.text = text := by
  have stands := stands_of_mem member (use_verified member store truthy isId isKey) key isKey
  rw [store] at stands
  obtain ⟨id', isId', registered'⟩ := stands
  rw [Value.key_injective isId' isId, registered] at registered'
  exact (Option.some.inj registered').symm

/-- Where untrusted operations may not run, whatever is parsed for the request of
an untrusted client is the text registered under the id it sent. -/
theorem untrusted_parses_registered (off : security.runUntrustedOperations = false)
    (events : List (ClientEvent Number)) {request : Request Number}
    (untrusted : trustClient security (some request.headers) = false) {stored : Option String}
    {params : Params Number hash} (passed : admitted security hash stored request = some params)
    {outcome : Except JsError Document}
    (parsed : .parsed params outcome ∈ ((Security.machine security texts hash).exec events).2) :
    ∃ id code, request.extensions.preRegisteredQueryId = some id ∧ texts.registered id = some code ∧
      outcome = texts.parse code := by
  obtain ⟨noQuery, onlyId⟩ := admitted_untrusted off untrusted passed
  rw [exec_inner] at parsed
  obtain ⟨past, event, rest, split, given⟩ := (Documents.machine texts hash).mem_answers_iff.mp parsed
  obtain ⟨index, waiting, rfl, at_, rfl, rfl⟩ := parsed_step given
  have holds : ServerHolds texts (touches texts past) _ := serverHolds_exec past
  have text := holds.parsing waiting (List.mem_of_getElem? at_)
  rw [resolvedText, onlyId, noQuery] at text
  cases sent : request.extensions.preRegisteredQueryId with
  | none =>
    rw [sent] at text
    cases text
  | some id =>
    rw [sent] at text
    by_cases truthy : id.truthy = true
    · simp only [truthy, if_true] at text
      refine ⟨id, waiting.query, rfl, text, ?_⟩
      rw [onParse_outcome holds.documents waiting]
      refine congrArg texts.parse ?_
      have picked : waiting.use.store = .preregistered ∧ waiting.use.key = id.key := by
        simp only [Parsing.use, onlyId, pickDocumentCache, sent, and_self]
      rw [picked.1, picked.2]
      cases isKey : id.key with
      | none => rfl
      | some key =>
        cases held : holder (touches texts past) .preregistered key with
        | none =>
          rw [Option.bind_some, held]
          rfl
        | some use =>
          simp only [Option.bind_some, held, Option.getD_some]
          obtain ⟨member, store, useKey⟩ := holder_mem held
          exact held_registered (uses_mono split member) store truthy isKey useKey text
    · simp only [truthy] at text
      cases text

/-- A library that parses every text to itself, and a database with one query. -/
def hotelsTexts : Texts Nat String where
  parse := .ok
  registered id := if id = .string "hotels" then some "{ hotels }" else none

/-- A client behind a proxy that says not to trust it; it repeats the id as its query. -/
def untrustedHotels : Request Nat where
  headers := .plain [("x-taql-trust-client", .one "false")]
  query := some "hotels"
  extensions := ⟨some (.string "hotels"), none, none⟩

/-- The text of a registered id, on an empty cache. -/
theorem untrusted_parses_registered_hotels :
    ∃ id code, untrustedHotels.extensions.preRegisteredQueryId = some id ∧ hotelsTexts.registered id = some code ∧
      (.ok "{ hotels }" : Except JsError String) = hotelsTexts.parse code := by
  have off : (⟨true, false⟩ : SecurityConfig).runUntrustedOperations = false := rfl
  have passed : admitted ⟨true, false⟩ id none untrustedHotels = some _ := rfl
  exact untrusted_parses_registered off [.receive untrustedHotels none ["hotels"], .lookedUp 0 true, .parse 0]
    rfl passed (.head _)

end Taql.UntrustedOperations

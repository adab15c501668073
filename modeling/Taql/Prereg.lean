import Taql.Stores

/-! `packages/prereg/src/index.ts`: a request that names a preregistered query
gets its text, from a cache or from the database. What reaches the plugin has
passed the plugin for automatic persisted queries, which checks the digest of
an extension it knows the form of and lets any other through. -/
namespace Taql.Prereg
open Stores

variable {Number : Type} {hash : String → String}

/-- `extensions?.preRegisteredQueryId`, `extensions?.persistedQuery?.version` and
`extensions?.persistedQuery?.sha256Hash`. -/
structure Extensions (Number : Type) where
  preRegisteredQueryId : Option (Value Number)
  version : Option (Value Number)
  sha256Hash : Option (Value Number)
  deriving DecidableEq

/-- The digest of an extension whose form the persisted queries know. -/
def Extensions.digest [DecidableEq Number] [One Number] (extensions : Extensions Number) : Option String :=
  match extensions.version, extensions.sha256Hash with
  | some (.number version), some (.string digest) => if version = 1 then some digest else none
  | _, _ => none

/-- The key of a request stands for its text if it is an id that was looked up,
a digest that was compared, or the text. -/
def Extensions.verified [DecidableEq Number] [Zero Number] [One Number] (extensions : Extensions Number) : Bool :=
  match extensions.preRegisteredQueryId with
  | some preregisteredId => preregisteredId.truthy
  | none => extensions.sha256Hash.isNone || extensions.digest.isSome

/-- The parameters of a request that passed the persisted queries: where they
knew the digest, it is the digest of the query. -/
structure Params (Number : Type) [DecidableEq Number] [One Number] (hash : String → String) where
  query : Option String
  extensions : Extensions Number
  checked : ∀ digest, extensions.digest = some digest → query.map hash = some digest

structure RequestError where
  message : String
  status : Nat
  deriving DecidableEq, Repr

/-- Where a request goes on: to the parser (with its query, if it has one), to
the database, or back with an error. -/
inductive Resolution (Number : Type) where
  | resolved (query : Option String)
  | lookup (queryId : Value Number)
  | rejected (error : RequestError)
  deriving DecidableEq

/-- `knownQueries.has`, of a set of strings. -/
def knows (knownQueries : List String) : Value Number → Bool
  | .string id => knownQueries.contains id
  | _ => false

variable [DecidableEq Number] [Zero Number] [One Number]

/-- `onParams`, up to the database. -/
def onParams (cache : MemoryStore Number String) (knownQueries : List String) (params : Params Number hash) :
    Resolution Number :=
  match params.extensions.preRegisteredQueryId with
  | none => .resolved params.query
  | some maybePreregisteredId =>
    if maybePreregisteredId.truthy then
      if knows knownQueries maybePreregisteredId || knownQueries.isEmpty then
        match cache.get maybePreregisteredId.key with
        | none => .lookup maybePreregisteredId
        | some cached => if cached = "" then .lookup maybePreregisteredId else .resolved (some cached)
      else .rejected ⟨"PreregisteredQueryNotFound", 404⟩
    else .resolved params.query

/-- `onParams`, from what `lookupQuery` found. -/
def onLookup (cache : MemoryStore Number String) (queryId : Value Number) (preregisteredQuery : Option String) :
    MemoryStore Number String × Resolution Number :=
  match preregisteredQuery with
  | none => (cache, .rejected ⟨"PreregisteredQueryNotResolved", 503⟩)
  | some text =>
    if text = "" then (cache, .rejected ⟨"PreregisteredQueryNotResolved", 503⟩)
    else (cache.set queryId.key text, .resolved (some text))

/-- The text of a request: the one registered under an id that is truthy, and
otherwise its own. -/
def resolvedText (registered : Value Number → Option String) (params : Params Number hash) : Option String :=
  match params.extensions.preRegisteredQueryId with
  | none => params.query
  | some id => if id.truthy then registered id else params.query

/-- A cache of registered texts. -/
def Registered (registered : Value Number → Option String) (cache : MemoryStore Number String) : Prop :=
  ∀ id key text, id.key = some key → cache.get (some key) = some text → registered id = some text

omit [Zero Number] [One Number] in
theorem Registered.set {registered : Value Number → Option String} {cache : MemoryStore Number String}
    (holds : Registered registered cache) {id : Value Number} {text : String} (known : registered id = some text) :
    Registered registered (cache.set id.key text) := by
  intro id' key text' is found
  rw [MemoryStore.get_set] at found
  split at found
  · rename_i same
    rw [Value.key_injective is same, known]
    exact found
  · exact holds id' key text' is found

omit [Zero Number] [One Number] in
theorem Registered.evict {registered : Value Number → Option String} {cache : MemoryStore Number String}
    (holds : Registered registered cache) (key : Key Number) : Registered registered (cache.evict key) := by
  intro id key' text is found
  rw [MemoryStore.get_evict] at found
  split at found
  · cases found
  · exact holds id key' text is found

/-- A request that goes on to the parser has its text; one that goes to the
database has an id that is truthy. -/
theorem onParams_resolves {registered : Value Number → Option String} {cache : MemoryStore Number String}
    (holds : Registered registered cache) (knownQueries : List String) (params : Params Number hash) :
    (∀ query, onParams cache knownQueries params = .resolved (some query) →
      resolvedText registered params = some query) ∧
    ∀ id, onParams cache knownQueries params = .lookup id →
      params.extensions.preRegisteredQueryId = some id ∧ id.truthy = true := by
  unfold onParams resolvedText
  cases params.extensions.preRegisteredQueryId with
  | none => exact ⟨fun query went => Resolution.resolved.inj went, nofun⟩
  | some id =>
    by_cases truthy : id.truthy = true
    · simp only [truthy, if_true]
      split
      · split
        · exact ⟨nofun,
            fun id' went => ⟨congrArg some (Resolution.lookup.inj went), Resolution.lookup.inj went ▸ truthy⟩⟩
        · rename_i cached found
          split
          · exact ⟨nofun,
              fun id' went => ⟨congrArg some (Resolution.lookup.inj went), Resolution.lookup.inj went ▸ truthy⟩⟩
          · refine ⟨fun query went => ?_, nofun⟩
            cases is : id.key with
            | none =>
              rw [is] at found
              cases found
            | some key =>
              rw [is] at found
              exact (holds id key cached is found).trans (Resolution.resolved.inj went)
      · exact ⟨nofun, nofun⟩
    · simp only [truthy]
      exact ⟨fun query went => Resolution.resolved.inj went, nofun⟩

omit [Zero Number] [One Number] in
/-- A request comes back from the database with the text of its id, or not at all. -/
theorem onLookup_resolves {registered : Value Number → Option String} {cache : MemoryStore Number String}
    (holds : Registered registered cache) {id : Value Number} {found : Option String}
    (answered : ∀ text, found = some text → registered id = some text) :
    Registered registered (onLookup cache id found).1 ∧
      (∀ query, (onLookup cache id found).2 = .resolved (some query) → registered id = some query) ∧
      ∀ id', (onLookup cache id found).2 ≠ .lookup id' := by
  unfold onLookup
  cases found with
  | none => exact ⟨holds, nofun, nofun⟩
  | some text =>
    simp only
    split
    · exact ⟨holds, nofun, nofun⟩
    · exact ⟨holds.set (answered text rfl), fun query went => (answered text rfl).trans (Resolution.resolved.inj went),
        nofun⟩

end Taql.Prereg

import Taql.Stores
import Taql.Runs

/-! `packages/caching/src/validation.ts`: the outcome of validation, cached by
schema and document. A request that finds no entry is validated with the rules
the plugins registered; prewarming validates with the standard rules only, and
nothing in an entry tells the two apart. -/
namespace Taql.Validation
open Stores Runs

variable {Schema Document Rule Issue : Type}

/-- `validate` of the GraphQL library, and the rules it takes by default. -/
structure Validator (Schema Document Rule Issue : Type) where
  validate : Schema → Document → List Rule → List Issue
  specifiedRules : List Rule

/-- Outside the cache a document is validated with the standard rules and those
the plugins registered. -/
def Validator.uncached (validator : Validator Schema Document Rule Issue) (registered : List Rule) (schema : Schema)
    (document : Document) : List Issue :=
  validator.validate schema document (validator.specifiedRules ++ registered)

abbrev ValidationCache (Schema Document Issue : Type) := BiWeakMap Schema Document (List Issue)

inductive ValidationEvent (Schema Document : Type) where
  | prewarm (schema : Schema) (document : Document)
  | request (schema : Schema) (document : Document)
  deriving DecidableEq

/-- The outcome a request is given. -/
structure Validated (Schema Document Issue : Type) where
  schema : Schema
  document : Document
  outcome : List Issue
  deriving DecidableEq

variable [DecidableEq Schema] [DecidableEq Document]

/-- `prewarm`, for one of its documents. -/
def prewarm (validator : Validator Schema Document Rule Issue) (cache : ValidationCache Schema Document Issue)
    (schema : Schema) (document : Document) : ValidationCache Schema Document Issue :=
  cache.set schema document (validator.validate schema document validator.specifiedRules)

/-- `onValidate`: a cached outcome is set as the result, and then the rules are
not looked at; an outcome computed is stored by the hook that runs after. -/
def onValidate (validator : Validator Schema Document Rule Issue) (registered : List Rule)
    (cache : ValidationCache Schema Document Issue) (schema : Schema) (document : Document) :
    ValidationCache Schema Document Issue × List Issue :=
  match cache.get schema document with
  | some cached => (cache, cached)
  | none =>
    let result := validator.uncached registered schema document
    (cache.set schema document result, result)

def machine (validator : Validator Schema Document Rule Issue) (registered : List Rule) :
    Machine (ValidationCache Schema Document Issue) (ValidationEvent Schema Document)
      (Validated Schema Document Issue) where
  start := .empty
  step
    | cache, .prewarm schema document => (Validation.prewarm validator cache schema document, [])
    | cache, .request schema document =>
      let validated := onValidate validator registered cache schema document
      (validated.1, [⟨schema, document, validated.2⟩])

/-- What is cached for a pair: the outcome of prewarming once it was prewarmed,
and otherwise, if anything, the outcome of a request. -/
structure CacheHolds (validator : Validator Schema Document Rule Issue) (registered : List Rule)
    (past : List (ValidationEvent Schema Document)) (cache : ValidationCache Schema Document Issue) : Prop where
  prewarmed : ∀ schema document, .prewarm schema document ∈ past →
    cache.get schema document = some (validator.validate schema document validator.specifiedRules)
  requested : ∀ schema document outcome, .prewarm schema document ∉ past →
    cache.get schema document = some outcome → outcome = validator.uncached registered schema document

section Runs
variable {validator : Validator Schema Document Rule Issue} {registered : List Rule}

theorem onValidate_get (validator : Validator Schema Document Rule Issue) (registered : List Rule)
    (cache : ValidationCache Schema Document Issue) (schema : Schema) (document : Document)
    (schema' : Schema) (document' : Document) :
    (onValidate validator registered cache schema document).1.get schema' document' =
      cache.get schema' document' ∨
    cache.get schema' document' = none ∧
      (onValidate validator registered cache schema document).1.get schema' document' =
        some (validator.uncached registered schema' document') := by
  unfold onValidate
  cases known : cache.get schema document with
  | some cached => exact .inl rfl
  | none =>
    by_cases same : schema' = schema ∧ document' = document
    · obtain ⟨rfl, rfl⟩ := same
      exact .inr ⟨known, by simp⟩
    · exact .inl (by simp [same])

theorem cacheHolds_step (past : List (ValidationEvent Schema Document)) (event : ValidationEvent Schema Document)
    (cache : ValidationCache Schema Document Issue) (held : CacheHolds validator registered past cache) :
    CacheHolds validator registered (past ++ [event]) ((machine validator registered).step cache event).1 := by
  cases event with
  | prewarm schema document =>
    constructor
    · intro schema' document' member
      simp only [machine, Validation.prewarm, BiWeakMap.get_set]
      split
      · rename_i same
        rw [same.1, same.2]
      · rename_i differ
        apply held.prewarmed schema' document'
        rcases List.mem_append.mp member with member | member
        · exact member
        · cases List.mem_singleton.mp member
          exact absurd ⟨rfl, rfl⟩ differ
    · intro schema' document' outcome absent known
      rw [List.mem_append, not_or, List.mem_singleton] at absent
      simp only [machine, Validation.prewarm, BiWeakMap.get_set] at known
      split at known
      · rename_i same
        exact absurd (by rw [same.1, same.2]) absent.2
      · exact held.requested schema' document' outcome absent.1 known
  | request schema document =>
    constructor
    · intro schema' document' member
      have before := held.prewarmed schema' document' (by simpa using member)
      rcases onValidate_get validator registered cache schema document schema' document'
        with kept | ⟨missing, _⟩
      · exact kept.trans before
      · rw [missing] at before
        cases before
    · intro schema' document' outcome absent known
      rcases onValidate_get validator registered cache schema document schema' document'
        with kept | ⟨_, computed⟩
      · exact held.requested schema' document' outcome (by simpa using absent) (kept.symm.trans known)
      · exact (Option.some.inj (computed.symm.trans known)).symm

theorem cacheHolds_exec (events : List (ValidationEvent Schema Document)) :
    CacheHolds validator registered events ((machine validator registered).exec events).1 :=
  (machine validator registered).exec_invariant (CacheHolds validator registered) ⟨by simp, by simp [machine]⟩
    (fun past event held => cacheHolds_step past event _ held) events

/-- The outcome a request is served after `past`. -/
theorem served_after (past : List (ValidationEvent Schema Document)) (schema : Schema) (document : Document) :
    (onValidate validator registered ((machine validator registered).exec past).1 schema document).2 =
      if .prewarm schema document ∈ past then validator.validate schema document validator.specifiedRules
      else validator.uncached registered schema document := by
  have held : CacheHolds validator registered past _ := cacheHolds_exec past
  unfold onValidate
  split
  · rename_i cached known
    split
    · rename_i warmed
      exact Option.some.inj (known.symm.trans (held.prewarmed schema document warmed))
    · rename_i cold
      exact held.requested schema document cached cold known
  · rename_i missing
    rw [if_neg]
    intro warmed
    rw [held.prewarmed schema document warmed] at missing
    cases missing

end Runs

/-- Every request of a run is served the uncached outcome exactly when every
pair that was prewarmed before it was requested passes the standard rules as it
passes all of them. -/
theorem validation_transparent_iff (validator : Validator Schema Document Rule Issue) (registered : List Rule)
    (events : List (ValidationEvent Schema Document)) :
    (∀ served ∈ ((machine validator registered).exec events).2,
        served.outcome = validator.uncached registered served.schema served.document) ↔
      ∀ past schema document rest, events = past ++ .request schema document :: rest →
        .prewarm schema document ∈ past →
          validator.validate schema document validator.specifiedRules =
            validator.uncached registered schema document := by
  constructor
  · intro transparent past schema document rest split warmed
    have given : ⟨schema, document, _⟩ ∈ ((machine validator registered).exec events).2 :=
      ((machine validator registered).mem_answers_iff).mpr
        ⟨past, .request schema document, rest, split, List.mem_singleton_self _⟩
    have served := transparent _ given
    rw [served_after, if_pos warmed] at served
    exact served
  · intro agrees served given
    obtain ⟨past, event, rest, split, given⟩ := (machine validator registered).mem_answers_iff.mp given
    cases event with
    | prewarm schema document => cases given
    | request schema document =>
      rw [List.mem_singleton.mp given]
      simp only
      rw [served_after]
      split
      · rename_i warmed
        exact agrees past schema document rest split warmed
      · rfl

/-- A document with an introspection query is prewarmed, and then accepted
although the rule against introspection was registered. -/
theorem validation_opens_introspection :
    let validator : Validator Unit Bool Bool String :=
      { validate _ introspects rules := if introspects && rules.contains true then ["introspection"] else [],
        specifiedRules := [false] }
    let run := (machine validator [true]).exec [.prewarm () true, .request () true]
    validator.uncached [true] () true = ["introspection"] ∧ run.2 = [⟨(), true, []⟩] := by
  decide

end Taql.Validation

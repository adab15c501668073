import Mathlib.Data.List.ReduceOption
import Taql.JavaScript

/-! `packages/headers/src/index.ts`: header collections of several kinds, the
copy of those a filter lets through, and the lookup of one value. -/
namespace Taql.Headers
open JavaScript

/-- A property of a plain header object. -/
inductive HeaderValue where
  | absent
  | one (value : String)
  | many (values : List String)
  deriving DecidableEq, Repr

/-- `[value].flat()`, undefined standing for an absent value. -/
def HeaderValue.flat : HeaderValue → List (Option String)
  | absent => [none]
  | one value => [some value]
  | many values => values.map some

/-- A collection with `forEach` and `get`, or a plain object. Both list their
pairs in the order they are enumerated. -/
inductive GenericHeaders where
  | collection (pairs : List (String × String))
  | plain (properties : List (String × HeaderValue))
  deriving DecidableEq, Repr

/-- What the server hands over: names are distinct, and the values of a
repeated header are joined in one string, `set-cookie` excepted. -/
structure IncomingHttpHeaders where
  properties : List (String × HeaderValue)
  distinct : (properties.map Prod.fst).Nodup
  joined : ∀ name values, (name, .many values) ∈ properties → name = "set-cookie"

/-- Header names with their values, in the order the names were first set. -/
abbrev TaqlHeaders := List (String × List String)

/-- `list.push` on what an object inherits under the name of a header. -/
def notPush : JsError := ⟨"TypeError", "list.push is not a function"⟩

/-- `existing[name] ?? []` finds an inherited member when the name is one of
those, and no member of `Object.prototype` has a `push`. -/
def merge (existing : TaqlHeaders) (pair : String × String) : Except JsError TaqlHeaders :=
  if existing.any fun entry => entry.1 = pair.1 then
    .ok (existing.map fun entry => if entry.1 = pair.1 then (entry.1, entry.2 ++ [pair.2]) else entry)
  else if objectMembers.contains pair.1 then .error notPush
  else .ok (existing ++ [(pair.1, [pair.2])])

/-- The pairs `copyHeaders` offers to its filter. -/
def GenericHeaders.pairs : GenericHeaders → List (String × Option String)
  | collection pairs => pairs.map fun pair => (pair.1, some pair.2)
  | plain properties => properties.flatMap fun property => property.2.flat.map fun value => (property.1, value)

/-- `copyHeaders(headers, filter)`. A pair the filter lets through is narrowed
to one whose value is defined. -/
def copyHeaders (headers : Option GenericHeaders) (filter : String × Option String → Option (String × String)) :
    Except JsError TaqlHeaders :=
  ((headers.elim [] GenericHeaders.pairs).filterMap filter).foldlM merge []

/-- `headers.get(key)` joins the values of a repeated name; a plain object
answers with the first value that is not empty. -/
def GenericHeaders.find (headers : GenericHeaders) (key : String) : Option String :=
  match headers with
  | collection pairs =>
    match (pairs.filter fun pair => pair.1 = key).map Prod.snd with
    | [] => none
    | values => some (", ".intercalate values)
  | plain properties =>
    (properties.find? fun property => property.1 = key).bind fun property =>
      property.2.flat.reduceOption.find? fun value => value ≠ ""

/-- `getHeaderOrDefault(headers, key, defaultV)`, an empty value counting as
none. `inject` is the inclusion of strings in the result type. -/
def getHeaderOrDefault (inject : String → α) (headers : Option GenericHeaders) (key : String) (defaultV : α) : α :=
  match headers.bind fun headers => headers.find key with
  | some value => if value = "" then defaultV else inject value
  | none => defaultV

/-! ### What is copied -/

/-- Header lists as pairs of a name and one value. -/
def headerPairs (headers : TaqlHeaders) : List (String × String) :=
  headers.flatMap fun entry => entry.2.map fun value => (entry.1, value)

theorem headerPairs_cons (entry : String × List String) (rest : TaqlHeaders) :
    headerPairs (entry :: rest) = (entry.2.map fun value => (entry.1, value)) ++ headerPairs rest := rfl

theorem merge_names {existing next : TaqlHeaders} (merged : merge existing pair = .ok next)
    (distinct : (existing.map Prod.fst).Nodup) : (next.map Prod.fst).Nodup := by
  unfold merge at merged
  split at merged
  · cases merged
    have names : existing.map (Prod.fst ∘ fun entry : String × List String =>
        if entry.1 = pair.1 then (entry.1, entry.2 ++ [pair.2]) else entry) = existing.map Prod.fst := by
      refine List.map_congr_left fun entry _ => ?_
      simp only [Function.comp_apply]
      split <;> rfl
    rwa [List.map_map, names]
  · rename_i absent
    split at merged
    · cases merged
    · cases merged
      rw [List.map_append, List.nodup_append]
      refine ⟨distinct, List.nodup_singleton _, ?_⟩
      intro name member other last same
      obtain ⟨entry, held, rfl⟩ := List.mem_map.mp member
      rw [List.map_singleton, List.mem_singleton] at last
      exact absent (List.any_eq_true.mpr ⟨entry, held, by simp [same, last]⟩)

private theorem pairs_merged {existing : TaqlHeaders} (pair : String × String)
    (distinct : (existing.map Prod.fst).Nodup) (present : pair.1 ∈ existing.map Prod.fst) :
    (headerPairs (existing.map fun entry => if entry.1 = pair.1 then (entry.1, entry.2 ++ [pair.2]) else entry)).Perm
      (headerPairs existing ++ [pair]) := by
  induction existing with
  | nil => cases present
  | cons entry rest ih =>
    rw [List.map_cons, List.nodup_cons] at distinct
    rw [List.map_cons, headerPairs_cons, headerPairs_cons, List.append_assoc]
    by_cases same : entry.1 = pair.1
    · have others :
          (rest.map fun entry => if entry.1 = pair.1 then (entry.1, entry.2 ++ [pair.2]) else entry) = rest := by
        refine (List.map_congr_left fun other held => if_neg fun again => distinct.1 ?_).trans (List.map_id _)
        rw [same, ← again]
        exact List.mem_map_of_mem held
      rw [others, if_pos same, List.map_append, List.append_assoc, same]
      exact (List.perm_append_comm).append_left _
    · rw [if_neg same]
      rw [List.map_cons, List.mem_cons] at present
      exact (ih distinct.2 (present.resolve_left (Ne.symm same))).append_left _

theorem merge_pairs {existing next : TaqlHeaders} (merged : merge existing pair = .ok next)
    (distinct : (existing.map Prod.fst).Nodup) : (headerPairs next).Perm (headerPairs existing ++ [pair]) := by
  unfold merge at merged
  split at merged
  · rename_i present
    cases merged
    obtain ⟨entry, held, same⟩ := List.any_eq_true.mp present
    exact pairs_merged pair distinct (List.mem_map.mpr ⟨entry, held, by simpa using same⟩)
  · split at merged
    · cases merged
    · cases merged
      simp [headerPairs]

/-- A copy has the pairs its filter let through, in some order. -/
theorem copyHeaders_pairs {headers : Option GenericHeaders}
    {filter : String × Option String → Option (String × String)} (copied : copyHeaders headers filter = .ok copy) :
    (headerPairs copy).Perm ((headers.elim [] GenericHeaders.pairs).filterMap filter) := by
  unfold copyHeaders at copied
  generalize (headers.elim [] GenericHeaders.pairs).filterMap filter = pairs at copied ⊢
  suffices ∀ existing : TaqlHeaders, (existing.map Prod.fst).Nodup → pairs.foldlM merge existing = .ok copy →
      (headerPairs copy).Perm (headerPairs existing ++ pairs) by
    simpa [headerPairs] using this [] List.nodup_nil copied
  clear copied
  induction pairs with
  | nil =>
    intro existing _ copied
    cases copied
    simp
  | cons pair pairs ih =>
    intro existing distinct copied
    rw [List.foldlM_cons] at copied
    cases merged : merge existing pair with
    | error error =>
      rw [merged] at copied
      cases copied
    | ok next =>
      rw [merged] at copied
      apply (ih next (merge_names merged distinct) copied).trans
      have one := (merge_pairs merged distinct).append_right pairs
      rwa [List.append_assoc] at one

/-- The values of a name, in order. -/
def valuesOf (pairs : List (String × String)) (name : String) : List String :=
  (pairs.filter fun pair => pair.1 = name).map Prod.snd

theorem valuesOf_snoc (pairs : List (String × String)) (pair : String × String) (name : String) :
    valuesOf (pairs ++ [pair]) name = valuesOf pairs name ++ if pair.1 = name then [pair.2] else [] := by
  unfold valuesOf
  rw [List.filter_append, List.map_append]
  by_cases same : pair.1 = name <;> simp [same]

/-- An object with the names of some pairs, each with all of its values in order. -/
structure Collects (pairs : List (String × String)) (headers : TaqlHeaders) : Prop where
  distinct : (headers.map Prod.fst).Nodup
  values : ∀ name values, (name, values) ∈ headers ↔ values = valuesOf pairs name ∧ values ≠ []

theorem collects_merge {existing next : TaqlHeaders} (collects : Collects pairs existing)
    (merged : merge existing pair = .ok next) : Collects (pairs ++ [pair]) next := by
  refine ⟨merge_names merged collects.distinct, fun name values => ?_⟩
  rw [valuesOf_snoc]
  unfold merge at merged
  split at merged
  · rename_i present
    cases merged
    obtain ⟨⟨name', held⟩, member, same⟩ := List.any_eq_true.mp present
    obtain rfl : name' = pair.1 := by simpa using same
    have own := (collects.values _ _).mp member
    simp only [List.mem_map]
    constructor
    · rintro ⟨⟨name', values'⟩, member', is⟩
      have values' := (collects.values _ _).mp member'
      by_cases same : name' = pair.1
      · simp only [same, if_true, Prod.mk.injEq] at is
        obtain ⟨rfl, rfl⟩ := is
        simp [values'.1, same]
      · simp only [same, if_false, Prod.mk.injEq] at is
        obtain ⟨rfl, rfl⟩ := is
        simpa [Ne.symm same] using values'
    · rintro ⟨rfl, filled⟩
      by_cases same : pair.1 = name
      · subst same
        exact ⟨(pair.1, held), member, by simp [own.1]⟩
      · simp only [if_neg same, List.append_nil] at filled ⊢
        exact ⟨(name, _), (collects.values _ _).mpr ⟨rfl, filled⟩, if_neg (Ne.symm same)⟩
  · rename_i absent
    split at merged
    · cases merged
    · cases merged
      have fresh : valuesOf pairs pair.1 = [] := by
        by_contra filled
        have member := (collects.values _ _).mpr ⟨rfl, filled⟩
        exact absent (List.any_eq_true.mpr ⟨_, member, by simp⟩)
      rw [List.mem_append, List.mem_singleton, collects.values, Prod.mk.injEq]
      by_cases same : pair.1 = name
      · subst same
        simp only [fresh, if_true, List.nil_append, true_and]
        constructor
        · rintro (⟨rfl, filled⟩ | rfl)
          · exact absurd rfl filled
          · exact ⟨rfl, List.cons_ne_nil _ _⟩
        · exact fun both => .inr both.1
      · simp only [if_neg same, List.append_nil, Ne.symm same, false_and, or_false]

theorem copyHeaders_collects {headers : Option GenericHeaders}
    {filter : String × Option String → Option (String × String)} (copied : copyHeaders headers filter = .ok copy) :
    Collects ((headers.elim [] GenericHeaders.pairs).filterMap filter) copy := by
  unfold copyHeaders at copied
  generalize (headers.elim [] GenericHeaders.pairs).filterMap filter = pairs at copied ⊢
  induction pairs using List.reverseRecOn generalizing copy with
  | nil =>
    cases copied
    exact ⟨List.nodup_nil, fun name values => by simp [valuesOf]⟩
  | append_singleton pairs pair ih =>
    rw [List.foldlM_append] at copied
    cases earlier : pairs.foldlM merge [] with
    | error error =>
      rw [earlier] at copied
      cases copied
    | ok existing =>
      rw [earlier] at copied
      simp only [bind, Except.bind, List.foldlM_cons, List.foldlM_nil, pure, Except.pure] at copied
      cases merged : merge existing pair with
      | error error =>
        rw [merged] at copied
        cases copied
      | ok next =>
        rw [merged] at copied
        cases copied
        exact collects_merge (ih earlier) merged

theorem merge_eq_ok {existing : TaqlHeaders} (own : ∀ name ∈ existing.map Prod.fst, name ∉ objectMembers)
    (pair : String × String) :
    (pair.1 ∈ objectMembers ∧ merge existing pair = .error notPush) ∨
      pair.1 ∉ objectMembers ∧ ∃ next, merge existing pair = .ok next ∧
        ∀ name ∈ next.map Prod.fst, name ∉ objectMembers := by
  unfold merge
  by_cases present : (existing.any fun entry => entry.1 = pair.1) = true
  · right
    obtain ⟨entry, member, same⟩ := List.any_eq_true.mp present
    have known : pair.1 ∈ existing.map Prod.fst := List.mem_map.mpr ⟨entry, member, by simpa using same⟩
    refine ⟨own _ known, _, if_pos present, fun name named => own name ?_⟩
    rw [List.map_map] at named
    obtain ⟨other, held, rfl⟩ := List.mem_map.mp named
    refine List.mem_map.mpr ⟨other, held, ?_⟩
    simp only [Function.comp_apply]
    split <;> rfl
  · rw [if_neg present]
    by_cases inherited : pair.1 ∈ objectMembers
    · exact .inl ⟨inherited, by simp [inherited]⟩
    · refine .inr ⟨inherited, _, by simp only [List.contains_iff_mem, inherited, if_false]; rfl, fun name named => ?_⟩
      rw [List.map_append, List.map_singleton, List.mem_append, List.mem_singleton] at named
      rcases named with named | rfl
      · exact own name named
      · exact inherited

/-- A copy is made unless a name that passes the filter is one that every object inherits. -/
theorem copyHeaders_ok_iff {headers : Option GenericHeaders}
    {filter : String × Option String → Option (String × String)} :
    (∃ copy, copyHeaders headers filter = .ok copy) ↔
      ∀ pair ∈ (headers.elim [] GenericHeaders.pairs).filterMap filter, pair.1 ∉ objectMembers := by
  unfold copyHeaders
  generalize (headers.elim [] GenericHeaders.pairs).filterMap filter = pairs
  suffices ∀ existing : TaqlHeaders, (∀ name ∈ existing.map Prod.fst, name ∉ objectMembers) →
      ((∃ copy, pairs.foldlM merge existing = .ok copy) ↔ ∀ pair ∈ pairs, pair.1 ∉ objectMembers) from
    this [] nofun
  induction pairs with
  | nil => exact fun existing _ => ⟨fun _ => nofun, fun _ => ⟨existing, rfl⟩⟩
  | cons pair pairs ih =>
    intro existing own
    rw [List.foldlM_cons, List.forall_mem_cons]
    rcases merge_eq_ok own pair with ⟨inherited, thrown⟩ | ⟨fresh, next, merged, own'⟩
    · rw [thrown]
      exact ⟨nofun, fun all => absurd inherited all.1⟩
    · rw [merged]
      exact (ih next own').trans ⟨fun all => ⟨fresh, all⟩, fun all => all.2⟩

end Taql.Headers

import Mathlib.Logic.Function.Basic
import Taql.GraphQL

/-! `mutatedFieldsExtensionPlugin` of `packages/prereg/src/index.ts`, against the fields
that executing an operation collects. The plugin looks at the fields that stand directly
in the mutations of the document, whichever of them is executed. -/
namespace Taql.MutatedFields
open GraphQL

/-- The value of an extension. -/
inductive ExtensionValue where
  | names (fields : List String)
  | other (text : String)

/-- A result; `extensions` may be undefined. -/
structure ExecutionResult where
  extensions : Option (String → Option ExtensionValue)

/-- `result.extensions?.[name]`. -/
def ExecutionResult.extension (result : ExecutionResult) (name : String) : Option ExtensionValue :=
  result.extensions.bind fun extensions => extensions name

/-- No other definition has an `operation`. -/
def mutatedFields (document : Document) : List String :=
  document.definitions.flatMap fun
    | .operation d =>
      if d.operation = .mutation then
        d.selections.filterMap fun
          | .field name => some name
          | _ => none
      else []
    | _ => []

/-- `onExecute`: the hook for every result, if there is one. -/
def onExecute (document : Document) : Option (ExecutionResult → ExecutionResult) :=
  if (mutatedFields document).length = 0 then none
  else some fun result => { result with
    extensions := some (Function.update (result.extensions.getD fun _ => none) "mutatedFields"
      (some (.names (mutatedFields document)))) }

/-- A result once the hooks have run. -/
def done (document : Document) (result : ExecutionResult) : ExecutionResult :=
  (onExecute document).elim result fun onExecuteDone => onExecuteDone result

/-- The extension is there for a mutation only, and names the root fields it collects. -/
structure Reports (schema : Schema) (document : Document) (operation : OperationDefinitionNode) : Prop where
  added : ∀ result, result.extension "mutatedFields" = none →
    ((done document result).extension "mutatedFields" ≠ none ↔ operation.operation = .mutation)
  listed : operation.operation = .mutation → ∀ result, ∃ names,
    (done document result).extension "mutatedFields" = some (.names names) ∧
      ∀ name, name ∈ names ↔ name ∈ rootFields schema document operation

/-- The field stands directly in a mutation of the document. -/
def Direct (document : Document) (name : String) : Prop :=
  ∃ mutation ∈ document.operations, mutation.operation = .mutation ∧ .field name ∈ mutation.selections

/-- The root fields an operation collects through fragments. -/
def fragmentFields (schema : Schema) (document : Document) (operation : OperationDefinitionNode) : List String :=
  rootFields schema document { operation with
    selections := operation.selections.filter fun
      | .field _ => false
      | _ => true }

/-- The executed operation is a mutation with the fields of all of them, and without any
of its own that are only in fragments; or there is no mutation with a field. -/
structure Flat (schema : Schema) (document : Document) (operation : OperationDefinitionNode) : Prop where
  some_ : operation.operation = .mutation → ∃ name, Direct document name
  fragments : operation.operation = .mutation →
    ∀ name ∈ fragmentFields schema document operation, Direct document name
  others : operation.operation = .mutation → ∀ other ∈ document.operations, other.operation = .mutation →
    other ≠ operation → ∀ name, .field name ∈ other.selections → name ∈ rootFields schema document operation
  none_ : operation.operation ≠ .mutation → ∀ name, ¬Direct document name

section Fields
variable {schema : Schema} {document : Document} {operation : OperationDefinitionNode}

theorem mem_mutatedFields {name : String} : name ∈ mutatedFields document ↔ Direct document name := by
  unfold mutatedFields Direct Document.operations
  simp only [List.mem_flatMap, List.mem_filterMap]
  constructor
  · rintro ⟨definition, listed, member⟩
    cases definition with
    | operation d =>
      dsimp only at member
      split at member
      · rename_i isMutation
        obtain ⟨selection, held, is⟩ := List.mem_filterMap.mp member
        cases selection with
        | field own =>
          cases is
          exact ⟨d, ⟨_, listed, rfl⟩, isMutation, held⟩
        | fragmentSpread | inlineFragment => cases is
      · cases member
    | fragment | typeSystem => cases member
  · rintro ⟨d, ⟨definition, listed, is⟩, isMutation, held⟩
    cases definition with
    | operation own =>
      cases is
      refine ⟨_, listed, ?_⟩
      dsimp only
      rw [if_pos isMutation]
      exact List.mem_filterMap.mpr ⟨_, held, rfl⟩
    | fragment | typeSystem => cases is

theorem onExecute_of_direct {name : String} (direct : Direct document name) (result : ExecutionResult) :
    (done document result).extension "mutatedFields" = some (.names (mutatedFields document)) := by
  have filled : (mutatedFields document).length ≠ 0 := by
    have member := mem_mutatedFields.mpr direct
    exact Nat.ne_of_gt (List.length_pos_of_mem member)
  simp [done, onExecute, filled, ExecutionResult.extension]

theorem done_of_none (none_ : ∀ name, ¬Direct document name) (result : ExecutionResult) :
    done document result = result := by
  have empty : mutatedFields document = [] :=
    List.eq_nil_iff_forall_not_mem.mpr fun name member => none_ name (mem_mutatedFields.mp member)
  simp [done, onExecute, empty]

/-- The root fields are those that stand in the operation, and those of its fragments. -/
theorem mem_rootFields {type : String} (rooted : schema.rootType operation.operation = some type) {name : String} :
    name ∈ rootFields schema document operation ↔
      .field name ∈ operation.selections ∨ name ∈ fragmentFields schema document operation := by
  unfold fragmentFields rootFields
  simp only [rooted, mem_collectFields]
  constructor
  · intro collects
    cases collects with
    | field member => exact .inl member
    | inlineFragment member matches_ within =>
      exact .inr (.inlineFragment (List.mem_filter.mpr ⟨member, rfl⟩) matches_ within)
    | fragmentSpread member new found matches_ within =>
      exact .inr (.fragmentSpread (List.mem_filter.mpr ⟨member, rfl⟩) new found matches_ within)
  · rintro (member | collects)
    · exact .field member
    · exact collects.mono (List.filter_subset_self _)

theorem flat_of_reports {type : String} (rooted : schema.rootType operation.operation = some type)
    (reports : Reports schema document operation) : Flat schema document operation := by
  obtain ⟨added, listed⟩ := reports
  have empty : (⟨none⟩ : ExecutionResult).extension "mutatedFields" = none := rfl
  have direct (isMutation : operation.operation = .mutation) : ∃ name, Direct document name := by
    by_contra none_
    rw [not_exists] at none_
    have has := (added ⟨none⟩ empty).mpr isMutation
    rw [done_of_none none_] at has
    exact has empty
  have all (isMutation : operation.operation = .mutation) (name : String) :
      Direct document name ↔ name ∈ rootFields schema document operation := by
    obtain ⟨some_, is⟩ := direct isMutation
    obtain ⟨names, lists, same⟩ := listed isMutation ⟨none⟩
    rw [onExecute_of_direct is] at lists
    cases lists
    rw [← mem_mutatedFields, same]
  refine ⟨direct, ?_, ?_, ?_⟩
  · intro isMutation name member
    exact (all isMutation name).mpr ((mem_rootFields rooted).mpr (.inr member))
  · intro isMutation other listed' mutates _ name member
    exact (all isMutation name).mp ⟨other, listed', mutates, member⟩
  · intro differs name is
    have has := onExecute_of_direct is ⟨none⟩
    refine differs ((added ⟨none⟩ empty).mp ?_)
    rw [has]
    simp

theorem reports_of_flat {type : String} (rooted : schema.rootType operation.operation = some type)
    (selected : operation ∈ document.operations) (flat : Flat schema document operation) :
    Reports schema document operation := by
  obtain ⟨some_, fragments, others, none_⟩ := flat
  constructor
  · intro result empty
    by_cases isMutation : operation.operation = .mutation
    · obtain ⟨name, direct⟩ := some_ isMutation
      rw [onExecute_of_direct direct]
      simp [isMutation]
    · rw [done_of_none (none_ isMutation), empty]
      simp [isMutation]
  · intro isMutation result
    obtain ⟨name, direct⟩ := some_ isMutation
    refine ⟨_, onExecute_of_direct direct result, fun name => ?_⟩
    rw [mem_mutatedFields]
    constructor
    · rintro ⟨other, listed, mutates, member⟩
      by_cases own : other = operation
      · subst own
        exact (mem_rootFields rooted).mpr (.inl member)
      · exact others isMutation other listed mutates own name member
    · intro member
      rcases (mem_rootFields rooted).mp member with own | within
      · exact ⟨operation, selected, isMutation, own⟩
      · exact fragments isMutation name within

end Fields

/-- The plugin reports the executed mutation exactly where it is flat. -/
theorem mutatedFields_iff (schema : Schema) (document : Document) {operation : OperationDefinitionNode}
    (selected : operation ∈ document.operations) {type : String}
    (rooted : schema.rootType operation.operation = some type) :
    Reports schema document operation ↔ Flat schema document operation := by
  constructor
  · exact flat_of_reports rooted
  · exact reports_of_flat rooted selected

/-- A schema that has its roots and nothing else. -/
def roots : Schema where
  typeMap := []
  rootType
    | .query => some "Query"
    | .mutation => some "Mutation"
    | .subscription => none
  possibleTypes _ := []

/-- A mutation with a field that it has in a fragment as well, and a fragment of another type. -/
def upvote : OperationDefinitionNode :=
  ⟨.mutation, [], [.fragmentSpread "Upvote", .field "upvotePost", .inlineFragment (some "Query") [.field "posts"]]⟩

/-- Next to it are a query and another mutation of its field. -/
def posts : Document where
  definitions := [.operation ⟨.query, [], [.field "posts"]⟩, .operation upvote,
    .fragment ⟨"Upvote", "Mutation", [.field "upvotePost"]⟩, .operation ⟨.mutation, [], [.field "upvotePost"]⟩]

theorem mutatedFields_upvote : Reports roots posts upvote := by
  have selected : upvote ∈ posts.operations := .tail _ (.head _)
  have direct : Direct posts "upvotePost" := ⟨upvote, selected, rfl, .tail _ (.head _)⟩
  apply (mutatedFields_iff roots posts selected rfl).mpr
  refine ⟨fun _ => ⟨"upvotePost", direct⟩, ?_, ?_, fun differs => absurd rfl differs⟩
  · intro _ name member
    rcases collects_cons.mp (mem_collectFields.mp member) with spread | inline
    · obtain ⟨_, fragment, found, _, within⟩ := collects_fragmentSpread.mp spread
      cases found
      exact collects_field.mp within ▸ direct
    · obtain ⟨applies, _⟩ := collects_inlineFragment.mp inline
      cases applies
  · intro _ other listed mutates differs name member
    rcases List.mem_cons.mp listed with rfl | listed
    · cases mutates
    rcases List.mem_cons.mp listed with rfl | listed
    · exact absurd rfl differs
    cases List.mem_singleton.mp listed
    cases List.mem_singleton.mp member
    exact mem_collectFields.mpr (.field (.tail _ (.head _)))

/-- A mutation of a fragment is not reported. -/
theorem mutatedFields_spread :
    let upvote : OperationDefinitionNode := ⟨.mutation, [], [.fragmentSpread "Upvote"]⟩
    ¬Reports roots ⟨[.operation upvote, .fragment ⟨"Upvote", "Mutation", [.field "upvotePost"]⟩]⟩ upvote := by
  rintro upvote ⟨added, _⟩
  exact (added ⟨none⟩ rfl).mpr rfl rfl

end Taql.MutatedFields

import Mathlib.Data.List.Basic

/-! GraphQL documents and schemas, as far as operations, their variables and their root
fields tell, and the collection of the fields a selection set asks of an object. A
fragment is collected once, which changes nothing of what is collected in all. Nothing
here names a service. -/
namespace Taql.GraphQL

inductive TypeNode where
  | named (name : String)
  | list (type : TypeNode)
  | nonNull (type : TypeNode)
  deriving DecidableEq

inductive OperationTypeNode where
  | query
  | mutation
  | subscription
  deriving DecidableEq

/-- What a field selects is asked of another object, and left out. -/
inductive SelectionNode where
  | field (name : String)
  | fragmentSpread (name : String)
  | inlineFragment (typeCondition : Option String) (selections : List SelectionNode)

structure VariableDefinitionNode where
  name : String
  type : TypeNode

structure OperationDefinitionNode where
  operation : OperationTypeNode
  variableDefinitions : List VariableDefinitionNode
  selections : List SelectionNode

structure FragmentDefinitionNode where
  name : String
  typeCondition : String
  selections : List SelectionNode

/-- A definition; those of a type system parse but are not executed. -/
inductive DefinitionNode where
  | operation (node : OperationDefinitionNode)
  | fragment (node : FragmentDefinitionNode)
  | typeSystem

structure Document where
  definitions : List DefinitionNode

def Document.operations (document : Document) : List OperationDefinitionNode :=
  document.definitions.filterMap fun
    | .operation node => some node
    | _ => none

def Document.fragments (document : Document) : List FragmentDefinitionNode :=
  document.definitions.filterMap fun
    | .fragment node => some node
    | _ => none

/-- The definition of a type. Only the parts of an enum and of an input object are
looked at; objects, interfaces and unions are for output. -/
inductive TypeDefinitionNode where
  | scalar
  | enum (values : Option (List String))
  | inputObject (fields : Option (List (String × TypeNode)))
  | output

/-- The types by their names, each with its definition if it was made from one; the
types of the roots; and the object types each abstract type stands for. -/
structure Schema where
  typeMap : List (String × Option TypeDefinitionNode)
  rootType : OperationTypeNode → Option String
  possibleTypes : String → List String

/-- `schema.getType(name)?.astNode`. -/
def Schema.astNode (schema : Schema) (name : String) : Option TypeDefinitionNode :=
  (schema.typeMap.lookup name).join

theorem Schema.mem_typeMap {schema : Schema} {name : String} {node : TypeDefinitionNode}
    (found : schema.astNode name = some node) : (name, some node) ∈ schema.typeMap := by
  rw [Schema.astNode, Option.join_eq_some_iff, List.lookup_eq_some_iff] at found
  obtain ⟨before, after, held, _⟩ := found
  rw [held]
  exact List.mem_append_right _ List.mem_cons_self

/-! ### Field collection -/

/-- Whether a fragment applies to an object of a type. -/
def Schema.applies (schema : Schema) (type : String) : Option String → Bool
  | none => true
  | some condition => condition = type || (schema.possibleTypes condition).contains type

/-- The last fragment of the name counts. -/
def fragmentNamed (fragments : List FragmentDefinitionNode) (name : String) : Option FragmentDefinitionNode :=
  (fragments.filter fun fragment => fragment.name = name).getLast?

def unvisited (fragments : List FragmentDefinitionNode) (visited : List String) : Nat :=
  (fragments.filter fun fragment => fragment.name ∉ visited).length

section Collect
variable (applies : Option String → Bool) (fragments : List FragmentDefinitionNode)

theorem sizeOf_append (first second : List SelectionNode) :
    sizeOf (first ++ second) + 1 = sizeOf first + sizeOf second := by
  induction first with
  | nil => simp [Nat.add_comm]
  | cons selection rest ih =>
    simp only [List.cons_append, List.cons.sizeOf_spec]
    omega

theorem sizeOf_rest (selection : SelectionNode) (rest : List SelectionNode) :
    sizeOf rest < sizeOf (selection :: rest) := by
  simp only [List.cons.sizeOf_spec]
  omega

theorem unvisited_le (visited : List String) (name : String) :
    unvisited fragments (name :: visited) ≤ unvisited fragments visited := by
  unfold unvisited
  apply List.Sublist.length_le
  apply List.monotone_filter_right
  intro fragment new
  simp only [List.mem_cons, not_or, decide_eq_true_eq] at new ⊢
  exact new.2

theorem unvisited_lt {visited : List String} {name : String} (new : name ∉ visited) {fragment : FragmentDefinitionNode}
    (found : fragmentNamed fragments name = some fragment) :
    unvisited fragments (name :: visited) < unvisited fragments visited := by
  have member := List.mem_of_getLast? found
  rw [List.mem_filter, decide_eq_true_eq] at member
  obtain ⟨before, after, rfl⟩ := List.append_of_mem member.1
  have less := unvisited_le before visited name
  have less' := unvisited_le after visited name
  simp only [unvisited, List.filter_append, List.filter_cons, List.length_append, member.2] at less less' ⊢
  simp only [List.mem_cons, true_or, not_true, decide_false, new, not_false_eq_true, decide_true, if_true,
    List.length_cons] at less less' ⊢
  simp only [Bool.false_eq_true, if_false]
  omega

private theorem decreases (visited : List String) (name : String) (rest : List SelectionNode) :
    Prod.Lex (· < ·) (· < ·) (unvisited fragments (name :: visited), sizeOf rest)
      (unvisited fragments visited, sizeOf (SelectionNode.fragmentSpread name :: rest)) := by
  rcases Nat.lt_or_eq_of_le (unvisited_le fragments visited name) with fewer | same
  · exact .left _ _ fewer
  · rw [same]
    exact .right _ (sizeOf_rest _ rest)

/-- The names of the fields collected, one fragment after another. -/
def collectFields : List SelectionNode → List String → List String
  | [], _ => []
  | .field name :: rest, visited => name :: collectFields rest visited
  | .inlineFragment typeCondition selections :: rest, visited =>
    if applies typeCondition then collectFields (selections ++ rest) visited else collectFields rest visited
  | .fragmentSpread name :: rest, visited =>
    if name ∈ visited then collectFields rest visited
    else
      match _found : fragmentNamed fragments name with
      | none => collectFields rest (name :: visited)
      | some fragment =>
        if applies (some fragment.typeCondition) then collectFields (fragment.selections ++ rest) (name :: visited)
        else collectFields rest (name :: visited)
termination_by selections visited => (unvisited fragments visited, sizeOf selections)
decreasing_by
  · exact .right _ (sizeOf_rest _ rest)
  · have := sizeOf_append selections rest
    right
    simp only [List.cons.sizeOf_spec, SelectionNode.inlineFragment.sizeOf_spec]
    omega
  · exact .right _ (sizeOf_rest _ rest)
  · exact .right _ (sizeOf_rest _ rest)
  · exact decreases fragments visited name rest
  · left
    exact unvisited_lt fragments ‹_› _found
  · exact decreases fragments visited name rest

/-- The fields that some selections ask of the object, not counting the fragments in `visited`. -/
inductive Collects (visited : List String) : List SelectionNode → String → Prop where
  | field {selections : List SelectionNode} {name : String} (member : .field name ∈ selections) :
      Collects visited selections name
  | inlineFragment {selections inner : List SelectionNode} {name : String} {typeCondition : Option String}
      (member : .inlineFragment typeCondition inner ∈ selections) (matches_ : applies typeCondition = true)
      (within : Collects visited inner name) : Collects visited selections name
  | fragmentSpread {selections : List SelectionNode} {name spread : String} {fragment : FragmentDefinitionNode}
      (member : .fragmentSpread spread ∈ selections) (new : spread ∉ visited)
      (found : fragmentNamed fragments spread = some fragment) (matches_ : applies (some fragment.typeCondition) = true)
      (within : Collects visited fragment.selections name) : Collects visited selections name

variable {applies fragments}

theorem Collects.mono {visited : List String} {selections more : List SelectionNode} {name : String}
    (collects : Collects applies fragments visited selections name) (subset : selections ⊆ more) :
    Collects applies fragments visited more name := by
  cases collects with
  | field member => exact .field (subset member)
  | inlineFragment member matches_ within => exact .inlineFragment (subset member) matches_ within
  | fragmentSpread member new found matches_ within => exact .fragmentSpread (subset member) new found matches_ within

theorem collects_append {visited : List String} {first second : List SelectionNode} {name : String} :
    Collects applies fragments visited (first ++ second) name ↔
      Collects applies fragments visited first name ∨ Collects applies fragments visited second name := by
  constructor
  · intro collects
    cases collects with
    | field member => exact (List.mem_append.mp member).imp .field .field
    | inlineFragment member matches_ within =>
      exact (List.mem_append.mp member).imp (.inlineFragment · matches_ within) (.inlineFragment · matches_ within)
    | fragmentSpread member new found matches_ within =>
      exact (List.mem_append.mp member).imp (.fragmentSpread · new found matches_ within)
        (.fragmentSpread · new found matches_ within)
  · rintro (collects | collects)
    · exact collects.mono (List.subset_append_left _ _)
    · exact collects.mono (List.subset_append_right _ _)

/-- Fewer fragments to visit ask for no more. -/
theorem Collects.of_cons {visited : List String} {selections : List SelectionNode} {spread name : String}
    (collects : Collects applies fragments (spread :: visited) selections name) :
    Collects applies fragments visited selections name := by
  induction collects with
  | field member => exact .field member
  | inlineFragment member matches_ _ ih => exact .inlineFragment member matches_ ih
  | fragmentSpread member new found matches_ _ ih =>
    exact .fragmentSpread member (fun old => new (List.mem_cons_of_mem _ old)) found matches_ ih

/-- What is reached at all is reached without going through a fragment twice: what
comes after its last spread does without it. -/
theorem Collects.avoid {visited : List String} {selections : List SelectionNode} {spread name : String}
    (collects : Collects applies fragments visited selections name) :
    Collects applies fragments (spread :: visited) selections name ∨
      ∃ fragment, fragmentNamed fragments spread = some fragment ∧ applies (some fragment.typeCondition) = true ∧
        Collects applies fragments (spread :: visited) fragment.selections name := by
  induction collects with
  | field member => exact .inl (.field member)
  | inlineFragment member matches_ _ ih => exact ih.imp_left fun within => .inlineFragment member matches_ within
  | @fragmentSpread _ _ other fragment member new found matches_ _ ih =>
    rcases ih with within | later
    · by_cases same : other = spread
      · subst same
        exact .inr ⟨fragment, found, matches_, within⟩
      · refine .inl (.fragmentSpread member ?_ found matches_ within)
        simp [same, new]
    · exact .inr later

theorem collects_nil {visited : List String} {name : String} : ¬Collects applies fragments visited [] name := by
  intro collects
  cases collects <;> contradiction

theorem collects_cons {visited : List String} {selection : SelectionNode} {rest : List SelectionNode} {name : String} :
    Collects applies fragments visited (selection :: rest) name ↔
      Collects applies fragments visited [selection] name ∨ Collects applies fragments visited rest name :=
  @collects_append applies fragments visited [selection] rest name

theorem collects_field {visited : List String} {own name : String} :
    Collects applies fragments visited [.field own] name ↔ own = name := by
  constructor
  · intro collects
    cases collects with
    | field member =>
      cases List.mem_singleton.mp member
      rfl
    | inlineFragment member | fragmentSpread member => cases List.mem_singleton.mp member
  · rintro rfl
    exact .field List.mem_cons_self

theorem collects_inlineFragment {visited : List String} {typeCondition : Option String} {inner : List SelectionNode}
    {name : String} : Collects applies fragments visited [.inlineFragment typeCondition inner] name ↔
      applies typeCondition = true ∧ Collects applies fragments visited inner name := by
  constructor
  · intro collects
    cases collects with
    | inlineFragment member matches_ within =>
      cases List.mem_singleton.mp member
      exact ⟨matches_, within⟩
    | field member | fragmentSpread member => cases List.mem_singleton.mp member
  · rintro ⟨matches_, within⟩
    exact .inlineFragment List.mem_cons_self matches_ within

theorem collects_fragmentSpread {visited : List String} {spread name : String} :
    Collects applies fragments visited [.fragmentSpread spread] name ↔
      spread ∉ visited ∧ ∃ fragment, fragmentNamed fragments spread = some fragment ∧
        applies (some fragment.typeCondition) = true ∧ Collects applies fragments visited fragment.selections name := by
  constructor
  · intro collects
    cases collects with
    | fragmentSpread member new found matches_ within =>
      cases List.mem_singleton.mp member
      exact ⟨new, _, found, matches_, within⟩
    | field member | inlineFragment member => cases List.mem_singleton.mp member
  · rintro ⟨new, fragment, found, matches_, within⟩
    exact .fragmentSpread List.mem_cons_self new found matches_ within

/-- A fragment to visit asks for what its selections ask for, and need not be visited again. -/
theorem collects_visit {visited : List String} {spread name : String} {rest : List SelectionNode}
    {fragment : FragmentDefinitionNode} (new : spread ∉ visited)
    (found : fragmentNamed fragments spread = some fragment)
    (matches_ : applies (some fragment.typeCondition) = true) :
    Collects applies fragments visited (.fragmentSpread spread :: rest) name ↔
      Collects applies fragments (spread :: visited) (fragment.selections ++ rest) name := by
  rw [collects_cons, collects_fragmentSpread]
  constructor
  · intro collects
    have either : Collects applies fragments visited (fragment.selections ++ rest) name := by
      rcases collects with ⟨_, _, found', _, within⟩ | later
      · cases found.symm.trans found'
        exact collects_append.mpr (.inl within)
      · exact collects_append.mpr (.inr later)
    rcases either.avoid with within | ⟨_, found', _, within⟩
    · exact within
    · cases found.symm.trans found'
      exact collects_append.mpr (.inl within)
  · intro collects
    rcases collects_append.mp collects.of_cons with within | later
    · exact .inl ⟨new, fragment, found, matches_, within⟩
    · exact .inr later

/-- A fragment that is there for nobody changes nothing when it is visited. -/
theorem collects_skip {visited : List String} {spread name : String} {rest : List SelectionNode}
    (missing : ∀ fragment, fragmentNamed fragments spread = some fragment →
      applies (some fragment.typeCondition) ≠ true) :
    Collects applies fragments visited (.fragmentSpread spread :: rest) name ↔
      Collects applies fragments (spread :: visited) rest name := by
  rw [collects_cons, collects_fragmentSpread]
  constructor
  · rintro (⟨_, fragment, found, matches_, _⟩ | later)
    · exact absurd matches_ (missing fragment found)
    · rcases later.avoid with within | ⟨fragment, found, matches_, _⟩
      · exact within
      · exact absurd matches_ (missing fragment found)
  · intro collects
    exact .inr collects.of_cons

/-- The collection finds everything that is asked for, and nothing else. -/
theorem mem_collectFields {selections : List SelectionNode} {visited : List String} {name : String} :
    name ∈ collectFields applies fragments selections visited ↔ Collects applies fragments visited selections name := by
  fun_induction collectFields applies fragments selections visited with
  | case1 visited => simp [collects_nil]
  | case2 visited own rest ih => rw [List.mem_cons, ih, collects_cons, collects_field, eq_comm]
  | case3 visited typeCondition inner rest matches_ ih =>
    rw [ih, collects_append, collects_cons, collects_inlineFragment, and_iff_right matches_]
  | case4 visited typeCondition inner rest differs ih =>
    rw [ih, collects_cons, collects_inlineFragment, or_iff_right fun both => differs both.1]
  | case5 visited spread rest old ih =>
    rw [ih, collects_cons, collects_fragmentSpread, or_iff_right fun both => both.1 old]
  | case6 visited spread rest new missing ih =>
    rw [ih, collects_skip]
    intro fragment found
    rw [missing] at found
    cases found
  | case7 visited spread rest new fragment found matches_ ih => rw [ih, collects_visit new found matches_]
  | case8 visited spread rest new fragment found differs ih =>
    rw [ih, collects_skip]
    intro fragment' found'
    cases found.symm.trans found'
    exact differs

end Collect

/-- The names of the root fields that executing an operation collects. -/
def rootFields (schema : Schema) (document : Document) (operation : OperationDefinitionNode) : List String :=
  match schema.rootType operation.operation with
  | none => []
  | some type => collectFields (schema.applies type) document.fragments operation.selections []

end Taql.GraphQL

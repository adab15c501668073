import Taql.DigestPatches
import Taql.YamlTables

/-! Whether the update of a digest is all or nothing. The patch is written before the
values are read, so that it takes a patch that needs no writing or values that can be
updated. -/
namespace Taql.DigestUpdates
open DigestPatches Gitops JavaScript Yaml YamlTables

variable {N : Type} (numbers : Numbers N) (yaml : Library N) (envVarToInject digest : String)

/-! ### The values -/

/-- Values without a section `taql` that a digest can be compared in. -/
def Broken (text : String) : Prop :=
  ∀ values address, yaml.load text = .ok values → values.get values.root "taql" = .ok (some (.ref address)) →
    ∃ error, values.looselyEquals numbers ((values.node address).get "schemaDigest") digest = .error error

/-- Values with a mapping `taql`, whose digest differs, and no date that would not be read
again, or whose digest is the same. -/
def Fit (text : String) : Prop :=
  ∃ values address, yaml.load text = .ok values ∧ values.get values.root "taql" = .ok (some (.ref address)) ∧
    values.isObject address = true ∧
      (values.looselyEquals numbers ((values.node address).get "schemaDigest") digest = .ok false ∧
          (values.overwrite [address] "schemaDigest" (.string digest)).Writable ∨
        (values.node address).get "schemaDigest" = some (.string digest))

/-- The digest in `taql` is the new one, and the values are the old ones but for it. -/
def ValuesUpdated (text updated : String) : Prop :=
  ∃ before after address beside, yaml.load text = .ok before ∧ yaml.load updated = .ok after ∧
    before.get before.root "taql" = .ok (some (.ref address)) ∧
    (before.overwrite [address] "schemaDigest" (.string digest)).Alike after ∧
    after.get after.root "taql" = .ok (some (.ref beside)) ∧
    (after.node beside).get "schemaDigest" = some (.string digest)

/-- The update of values with a section that is an object of any kind. -/
theorem updateValues_ref {valuesFilePath text : String} {values : Document N} {address : Nat}
    (load : yaml.load text = .ok values) (held : values.get values.root "taql" = .ok (some (.ref address))) :
    updateValues numbers yaml valuesFilePath digest text =
      (values.looselyEquals numbers ((values.node address).get "schemaDigest") digest).map fun equal =>
        if equal then none else some (yaml.dump (values.overwrite [address] "schemaDigest" (.string digest))) := by
  simp only [updateValues, load, held, bind, Except.bind, truthy, if_true, Document.get_ref]
  cases values.looselyEquals numbers ((values.node address).get "schemaDigest") digest with
  | error error => rfl
  | ok equal => cases equal <;> rfl

/-- No digest can be assigned to a section that is not an object of any kind. -/
theorem ref_of_updateValues {valuesFilePath text : String} {valued : Option String}
    (ran : updateValues numbers yaml valuesFilePath digest text = .ok valued) :
    ∃ values address, yaml.load text = .ok values ∧ values.get values.root "taql" = .ok (some (.ref address)) := by
  obtain ⟨values, load, rest⟩ := bind_eq_ok.mp ran
  obtain ⟨taql, held, rest⟩ := bind_eq_ok.mp rest
  refine ⟨values, ?_⟩
  rcases taql with _ | (_ | _ | _ | _ | address)
  case some.ref => exact ⟨address, load, held⟩
  all_goals
    split at rest
    · cases rest
    · cases rest

theorem updateValues_error_iff {valuesFilePath text : String} :
    (∃ error, updateValues numbers yaml valuesFilePath digest text = .error error) ↔
      Broken numbers yaml digest text := by
  constructor
  · rintro ⟨error, thrown⟩ values address load held
    rw [updateValues_ref numbers yaml digest load held] at thrown
    cases compared : values.looselyEquals numbers ((values.node address).get "schemaDigest") digest with
    | error error => exact ⟨error, rfl⟩
    | ok equal =>
      rw [compared] at thrown
      cases thrown
  · intro broken
    cases ran : updateValues numbers yaml valuesFilePath digest text with
    | error error => exact ⟨error, rfl⟩
    | ok valued =>
      obtain ⟨values, address, load, held⟩ := ref_of_updateValues numbers yaml digest ran
      obtain ⟨error, thrown⟩ := broken values address load held
      rw [updateValues_ref numbers yaml digest load held, thrown] at ran
      cases ran

/-- Values that have the digest are left. -/
theorem updateValues_again {valuesFilePath text updated : String}
    (complete : ValuesUpdated yaml digest text updated) :
    updateValues numbers yaml valuesFilePath digest updated = .ok none := by
  obtain ⟨_, after, _, beside, _, load, _, _, held, current⟩ := complete
  rw [updateValues_ref numbers yaml digest load held, current, Document.looselyEquals_string]
  rfl

/-- A section that was overwritten has the digest where it is a mapping. -/
theorem section_alike {values after : Document N} {address : Nat}
    (held : values.get values.root "taql" = .ok (some (.ref address)))
    (alike : (values.overwrite [address] "schemaDigest" (.string digest)).Alike after) :
    ∃ beside, after.get after.root "taql" = .ok (some (.ref beside)) ∧
      ((after.node beside).get "schemaDigest" = some (.string digest) ↔ values.isObject address = true) := by
  obtain ⟨same, matching⟩ := alike
  have read := (Document.get_overwrite_of_ne values [address] "schemaDigest" (.string digest) (by decide)
    values.root).trans held
  obtain ⟨_, readBeside, related⟩ := matching.get matching.root read
  cases related with
  | some related =>
    cases related with
    | ref related =>
      refine ⟨_, readBeside, ?_⟩
      rw [← matching.get_string_iff related, Document.get_node_overwrite]
      by_cases isObject : values.isObject address = true
      · simp [isObject]
      · rw [if_neg fun both => isObject both.2]
        exact iff_of_false (fun current => isObject (Document.isObject_of_get current)) isObject

theorem valuesUpdated_iff {valuesFilePath text : String} {valued : Option String}
    (ran : updateValues numbers yaml valuesFilePath digest text = .ok valued) :
    ValuesUpdated yaml digest text (valued.getD text) ↔ Fit numbers yaml digest text := by
  obtain ⟨values, address, load, held⟩ := ref_of_updateValues numbers yaml digest ran
  rw [updateValues_ref numbers yaml digest load held] at ran
  obtain ⟨equal, compared, outcome⟩ := map_eq_ok.mp ran
  have sound : (values.overwrite [address] "schemaDigest" (.string digest)).Sound :=
    (yaml.sound text values load).overwrite rfl
  constructor
  · rintro ⟨before, after, address', beside, loadBefore, loadAfter, heldBefore, alike, heldAfter, complete⟩
    cases load.symm.trans loadBefore
    cases held.symm.trans heldBefore
    obtain ⟨beside', heldAfter', isObject⟩ := section_alike digest held alike
    cases heldAfter.symm.trans heldAfter'
    refine ⟨values, address, load, held, isObject.mp complete, ?_⟩
    cases equal with
    | false =>
      cases outcome
      exact .inl ⟨compared, alike.writable (yaml.writable _ _ sound loadAfter)⟩
    | true =>
      -- The text was left, and what is read of it has the digest.
      cases outcome
      cases load.symm.trans loadAfter
      cases held.symm.trans heldAfter
      exact .inr complete
  · rintro ⟨values', address', load', held', isObject, fresh⟩
    cases load.symm.trans load'
    cases held.symm.trans held'
    cases equal with
    | false =>
      cases outcome
      have writable : (values.overwrite [address] "schemaDigest" (.string digest)).Writable := by
        rcases fresh with ⟨_, writable⟩ | current
        · exact writable
        · rw [current, Document.looselyEquals_string] at compared
          cases compared
      obtain ⟨after, loadAfter, alike⟩ := yaml.load_dump _ sound writable
      obtain ⟨beside, heldAfter, complete⟩ := section_alike digest held alike
      exact ⟨values, after, address, beside, load, loadAfter, held, alike, heldAfter, complete.mpr isObject⟩
    | true =>
      cases outcome
      have current := fresh.resolve_left fun differs => by cases compared.symm.trans differs.1
      refine ⟨values, values, address, address, load, load, held, ?_, held, current⟩
      rw [Document.overwrite_of_get current]
      exact values.alike_self

/-! ### Some texts -/

/-- `NaN` is none. -/
def wholeNumbers : Numbers (Option Int) where
  ofString text := text.toInt?
  ofBoolean value := some (if value then 1 else 0)
  render value := value.elim "NaN" toString
  equal left right := left.isSome && left = right
  truthy value := value.isSome && value ≠ some 0
  ofDate time := toString time

def patchText (digest : String) : String :=
  "- op: add\n  path: /spec/template/spec/containers/0/env/-\n  value:\n    name: SCHEMA_DIGEST\n    value: " ++
    digest ++ "\n"

def patchDocument (digest : String) : Document (Option Int) where
  root := some (.ref 0)
  nodes := [.array [.ref 1],
    .object [("op", .string "add"), ("path", .string "/spec/template/spec/containers/0/env/-"), ("value", .ref 2)],
    .object [("name", .string "SCHEMA_DIGEST"), ("value", .string digest)]]

def valuesText (digest : String) : String := "taql:\n  schemaDigest: " ++ digest ++ "\n"

def valuesDocument (digest : String) : Document (Option Int) where
  root := some (.ref 0)
  nodes := [.object [("taql", .ref 1)], .object [("schemaDigest", .string digest)]]

def bareText : String := "replicas: 2\n"

def bareDocument : Document (Option Int) where
  root := some (.ref 0)
  nodes := [.object [("replicas", .number (some 2))]]

def written : List (String × Document (Option Int)) :=
  [(patchText "foo", patchDocument "foo"), (patchText "YWJj", patchDocument "YWJj"),
    (valuesText "foo", valuesDocument "foo"), (valuesText "YWJj", valuesDocument "YWJj"), (bareText, bareDocument)]

theorem find_written : ∀ pair ∈ written, (written.find? fun other => other.1 = pair.1) = some pair := by
  intro pair held
  simp only [written, List.mem_cons, List.not_mem_nil, or_false] at held
  rcases held with rfl | rfl | rfl | rfl | rfl <;> rfl

theorem head_written :
    (written.map fun pair => pair.1.toList.head?) = [some '-', some '-', some 't', some 't', some 'r'] := by
  rfl

theorem unmarked_written : ∀ pair ∈ written, pair.1.toList.head? ≠ some '!' := by
  intro pair held same
  have first : pair.1.toList.head? ∈ written.map fun pair => pair.1.toList.head? := List.mem_map_of_mem held
  rw [same, head_written] at first
  revert first
  decide

theorem plain_written : ∀ pair ∈ written, Plain pair.2 := by decide

def library : Library (Option Int) := Table.library ⟨written, find_written, unmarked_written, plain_written⟩

/-! ### Both files -/

/-- Either it throws and leaves both files as they were, or both have the digest and
nothing else of them is changed, and a second run writes neither. -/
def AllOrNothing (valuesFilePath : String) (schema : Except JsError (Option String)) (files : Files) : Prop :=
  let run := updateSchemaDigest numbers yaml valuesFilePath envVarToInject schema files
  (∃ error, run.outcome = .error error ∧ run.files = files) ∨
  ∃ id, schema = .ok (some id) ∧ run.outcome = .ok ⟨id, makeDigest id⟩ ∧
    Option.Rel (PatchUpdated numbers yaml envVarToInject (makeDigest id)) files.patch run.files.patch ∧
    ValuesUpdated yaml (makeDigest id) files.values run.files.values ∧
    (updateSchemaDigest numbers yaml valuesFilePath envVarToInject schema run.files).writes = []

/-- A patch that cannot be read or whose items cannot be gone through. -/
def Refused (patch : Option String) : Prop :=
  ∃ text, patch = some text ∧ ∃ error, readPatch numbers yaml envVarToInject digest text = .error error

/-- There is no patch, or none of its objects is to be overwritten. -/
def Unwritten (patch : Option String) : Prop :=
  ∀ text, patch = some text → ∃ document, readPatch numbers yaml envVarToInject digest text = .ok (document, [])

section patchStep
variable {numbers yaml envVarToInject digest} {patch patched : Option String}

theorem patchStep_error_iff :
    (∃ error, patch.elim (.ok none) (updatePatch numbers yaml envVarToInject digest) = .error error) ↔
      Refused numbers yaml envVarToInject digest patch := by
  cases patch with
  | none => exact iff_of_false nofun nofun
  | some text =>
    rw [Option.elim_some, updatePatch_eq]
    unfold Refused
    cases read : readPatch numbers yaml envVarToInject digest text with
    | error error => exact iff_of_true ⟨error, rfl⟩ ⟨text, rfl, error, read⟩
    | ok pair =>
      refine iff_of_false nofun ?_
      rintro ⟨text', same, error, thrown⟩
      cases same
      cases read.symm.trans thrown

variable (ran : patch.elim (.ok none) (updatePatch numbers yaml envVarToInject digest) = .ok patched)
include ran

theorem patchStep_kept_iff : patched.or patch = patch ↔ Unwritten numbers yaml envVarToInject digest patch := by
  cases patch with
  | none =>
    cases ran
    exact iff_of_true rfl nofun
  | some text =>
    rw [Option.elim_some] at ran
    obtain ⟨document, addresses, read, outcome⟩ := read_of_updatePatch ran
    cases addresses with
    | nil =>
      cases outcome
      refine iff_of_true rfl fun text' same => ?_
      cases same
      exact ⟨document, read⟩
    | cons address rest =>
      cases outcome
      refine iff_of_false (fun same => updatePatch_differs ran (Option.some.inj same)) fun unwritten => ?_
      obtain ⟨document', read'⟩ := unwritten text rfl
      cases read.symm.trans read'

theorem patchStep_updated_iff :
    Option.Rel (PatchUpdated numbers yaml envVarToInject digest) patch (patched.or patch) ↔
      ∀ text, patch = some text →
        ¬ Stuck numbers yaml envVarToInject digest text ∧ Rewritable numbers yaml envVarToInject digest text := by
  cases patch with
  | none =>
    cases ran
    exact iff_of_true .none nofun
  | some text =>
    rw [Option.elim_some] at ran
    have updated := patchUpdated_iff ran
    have written : patched.or (some text) = some (patched.getD text) := by cases patched <;> rfl
    rw [written]
    constructor
    · rintro (complete | _) _ same
      cases same
      exact updated.mp complete
    · exact fun free => .some (updated.mpr (free text rfl))

theorem patchStep_again
    (updated : Option.Rel (PatchUpdated numbers yaml envVarToInject digest) patch (patched.or patch)) :
    (patched.or patch).elim (.ok none) (updatePatch numbers yaml envVarToInject digest) = .ok none := by
  cases patch with
  | none =>
    cases ran
    rfl
  | some text =>
    have rewritable := ((patchStep_updated_iff ran).mp updated text rfl).2
    rw [Option.elim_some] at ran
    have again := updatePatch_again rewritable ran
    cases patched with
    | none => exact again
    | some updated => exact again

end patchStep

theorem not_broken_of_fit {text : String} (fit : Fit numbers yaml digest text) : ¬ Broken numbers yaml digest text := by
  obtain ⟨values, address, load, held, _, fresh⟩ := fit
  intro broken
  obtain ⟨error, thrown⟩ := broken values address load held
  rcases fresh with ⟨differs, _⟩ | current
  · cases thrown.symm.trans differs
  · rw [current, Document.looselyEquals_string] at thrown
    cases thrown

/-- A call that throws for its values has written the patch. -/
theorem allOrNothing_throws {valuesFilePath id : String} {files : Files} {patched : Option String} {error : JsError}
    (stepped : files.patch.elim (.ok none) (updatePatch numbers yaml envVarToInject (makeDigest id)) = .ok patched)
    (thrown : updateValues numbers yaml valuesFilePath (makeDigest id) files.values = .error error) :
    AllOrNothing numbers yaml envVarToInject valuesFilePath (.ok (some id)) files ↔
      patched.or files.patch = files.patch := by
  have run : updateSchemaDigest numbers yaml valuesFilePath envVarToInject (.ok (some id)) files =
      ⟨.error error, { files with patch := patched.or files.patch }, patched.elim [] fun _ => [Target.patch]⟩ := by
    simp only [updateSchemaDigest, stepped, thrown]
  simp only [AllOrNothing, run]
  constructor
  · rintro (⟨_, _, same⟩ | ⟨_, _, finished, _⟩)
    · exact congrArg Files.patch same
    · cases finished
  · intro same
    exact .inl ⟨error, rfl, by rw [same]⟩

/-- A call that completes is all there if both files are: the second run follows. -/
theorem allOrNothing_completes {valuesFilePath id : String} {files : Files} {patched valued : Option String}
    (stepped : files.patch.elim (.ok none) (updatePatch numbers yaml envVarToInject (makeDigest id)) = .ok patched)
    (ran : updateValues numbers yaml valuesFilePath (makeDigest id) files.values = .ok valued) :
    AllOrNothing numbers yaml envVarToInject valuesFilePath (.ok (some id)) files ↔
      Option.Rel (PatchUpdated numbers yaml envVarToInject (makeDigest id)) files.patch (patched.or files.patch) ∧
        ValuesUpdated yaml (makeDigest id) files.values (valued.getD files.values) := by
  have run : updateSchemaDigest numbers yaml valuesFilePath envVarToInject (.ok (some id)) files =
      ⟨.ok ⟨id, makeDigest id⟩, ⟨patched.or files.patch, valued.getD files.values⟩,
        (patched.elim [] fun _ => [Target.patch]) ++ valued.elim [] fun _ => [Target.values]⟩ := by
    simp only [updateSchemaDigest, stepped, ran]
  simp only [AllOrNothing, run]
  constructor
  · rintro (⟨_, thrown, _⟩ | ⟨_, same, _, patchUpdated, valuesUpdated, _⟩)
    · cases thrown
    · cases same
      exact ⟨patchUpdated, valuesUpdated⟩
  · rintro ⟨patchUpdated, valuesUpdated⟩
    refine .inr ⟨id, rfl, rfl, patchUpdated, valuesUpdated, ?_⟩
    simp only [updateSchemaDigest, patchStep_again stepped patchUpdated,
      updateValues_again numbers yaml _ valuesUpdated]
    rfl

/-- It is all or nothing exactly if the patch is refused, or the values are broken and
the patch needs no writing, or both files can be updated. -/
theorem all_or_nothing_iff (valuesFilePath : String) (schema : Except JsError (Option String)) (files : Files) :
    AllOrNothing numbers yaml envVarToInject valuesFilePath schema files ↔
      ∀ id, schema = .ok (some id) →
        Refused numbers yaml envVarToInject (makeDigest id) files.patch ∨
        (Broken numbers yaml (makeDigest id) files.values ∧
          Unwritten numbers yaml envVarToInject (makeDigest id) files.patch) ∨
        (Fit numbers yaml (makeDigest id) files.values ∧
          ∀ text, files.patch = some text → ¬ Stuck numbers yaml envVarToInject (makeDigest id) text ∧
            Rewritable numbers yaml envVarToInject (makeDigest id) text) := by
  rcases schema with error | _ | id
  · exact iff_of_true (.inl ⟨error, rfl, rfl⟩) nofun
  · exact iff_of_true (.inl ⟨noSchema, rfl, rfl⟩) nofun
  simp only [Except.ok.injEq, Option.some.injEq, forall_eq']
  cases stepped : files.patch.elim (.ok none) (updatePatch numbers yaml envVarToInject (makeDigest id)) with
  | error error =>
    refine iff_of_true (.inl ⟨error, ?_, ?_⟩) (.inl (patchStep_error_iff.mp ⟨error, stepped⟩))
    all_goals simp only [updateSchemaDigest, stepped]
  | ok patched =>
    have accepted : ¬ Refused numbers yaml envVarToInject (makeDigest id) files.patch := fun refused => by
      obtain ⟨error, thrown⟩ := patchStep_error_iff.mpr refused
      cases stepped.symm.trans thrown
    rw [or_iff_right accepted, ← patchStep_kept_iff stepped, ← patchStep_updated_iff stepped]
    cases ran : updateValues numbers yaml valuesFilePath (makeDigest id) files.values with
    | error error =>
      have broken := (updateValues_error_iff numbers yaml (makeDigest id)).mp ⟨error, ran⟩
      have unfit : ¬ Fit numbers yaml (makeDigest id) files.values := fun fit =>
        not_broken_of_fit numbers yaml _ fit broken
      rw [allOrNothing_throws numbers yaml envVarToInject stepped ran, or_iff_left fun both => unfit both.1,
        and_iff_right broken]
    | ok valued =>
      have whole : ¬ Broken numbers yaml (makeDigest id) files.values := fun broken => by
        obtain ⟨error, thrown⟩ := (updateValues_error_iff numbers yaml (makeDigest id)).mpr broken
        cases ran.symm.trans thrown
      rw [allOrNothing_completes numbers yaml envVarToInject stepped ran, or_iff_right fun both => whole both.1,
        ← valuesUpdated_iff numbers yaml _ ran, and_comm]

/-- Both files have the digest then. -/
theorem all_or_nothing_both :
    AllOrNothing wholeNumbers library "SCHEMA_DIGEST" "values.yaml" (.ok (some "abc"))
      ⟨some (patchText "foo"), valuesText "foo"⟩ := by
  refine (all_or_nothing_iff wholeNumbers library "SCHEMA_DIGEST" "values.yaml" (.ok (some "abc")) _).mpr ?_
  rintro id ⟨⟩
  have digest : makeDigest "abc" = "YWJj" := by decide
  have reads : readPatch wholeNumbers library "SCHEMA_DIGEST" "YWJj" (patchText "foo") =
      .ok (patchDocument "foo", [2]) := rfl
  rw [digest]
  have rewritten : ((patchDocument "foo").overwrite [2] "value" (.string "YWJj")).Writable :=
    (plain_written (patchText "YWJj", patchDocument "YWJj") (.tail _ (.head _))).writable
  have valuesWritten : ((valuesDocument "foo").overwrite [1] "schemaDigest" (.string "YWJj")).Writable :=
    (plain_written (valuesText "YWJj", valuesDocument "YWJj") (.tail _ (.tail _ (.tail _ (.head _))))).writable
  refine .inr (.inr ⟨⟨valuesDocument "foo", 1, rfl, rfl, rfl, .inl ⟨rfl, valuesWritten⟩⟩, ?_⟩)
  rintro text ⟨⟩
  constructor
  · rintro ⟨patch, addresses, items, read, listed, item, here, _, address, named, equal, _⟩
    cases reads.symm.trans read
    cases listed
    cases List.mem_singleton.mp here
    cases named
    cases equal
  · intro patch addresses read _
    cases reads.symm.trans read
    exact rewritten

/-- The patch is written before the values turn out to have no section. -/
theorem all_or_nothing_bare :
    ¬ AllOrNothing wholeNumbers library "SCHEMA_DIGEST" "values.yaml" (.ok (some "abc"))
      ⟨some (patchText "foo"), bareText⟩ := by
  have run : updateSchemaDigest wholeNumbers library "values.yaml" "SCHEMA_DIGEST" (.ok (some "abc"))
      ⟨some (patchText "foo"), bareText⟩ =
        ⟨.error (noTaql "values.yaml"), ⟨some (patchText "YWJj"), bareText⟩, [.patch]⟩ := rfl
  unfold AllOrNothing
  rw [run]
  rintro (⟨_, _, same⟩ | ⟨_, _, finished, _⟩)
  · have patched : patchText "YWJj" = patchText "foo" := Option.some.inj (congrArg Files.patch same)
    revert patched
    decide
  · cases finished

end Taql.DigestUpdates

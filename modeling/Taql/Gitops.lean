import Taql.YamlWriting

/-! `packages/gitops/src/index.ts`: the digest of a schema is written into a patch, where
there is one, and then into a values file. Reading and writing the files does not fail
here. -/
namespace Taql.Gitops
open JavaScript Yaml

/-! ### The digest -/

def base64Alphabet : List Char := "ABCDEFGHIJKLMNOPQRSTUVWXYZabcdefghijklmnopqrstuvwxyz0123456789+/".toList

/-- The characters of some bytes, three at a time. -/
def base64 : List Nat → List Char
  | [] => []
  | [first] => [char (first / 4), char (first % 4 * 16), '=', '=']
  | [first, second] => [char (first / 4), char (first % 4 * 16 + second / 16), char (second % 16 * 4), '=']
  | first :: second :: third :: rest =>
    [char (first / 4), char (first % 4 * 16 + second / 16), char (second % 16 * 4 + third / 64), char (third % 64)] ++
      base64 rest
where
  char (value : Nat) : Char := (base64Alphabet[value]?).getD '='

/-- `Buffer.from(schema.id).toString('base64')`. -/
def makeDigest (id : String) : String :=
  String.ofList (base64 ((id.toList.flatMap String.utf8EncodeChar).map UInt8.toNat))

/-! ### The files -/

/-- The files as they are read; no patch if its path is not set or is not that of a file. -/
structure Files where
  patch : Option String
  values : String
  deriving DecidableEq, Repr

inductive Target where
  | patch
  | values
  deriving DecidableEq, Repr

structure Updated where
  schemaId : String
  digest : String
  deriving DecidableEq, Repr

/-- What a call does: how it ends, what it leaves behind and which files it wrote. -/
structure Run where
  outcome : Except JsError Updated
  files : Files
  writes : List Target

variable {N : Type} (numbers : Numbers N) (yaml : Library N)

def notAFunction (name : String) : JsError := ⟨"TypeError", name ++ " is not a function"⟩

/-- What `patch.forEach` goes through; binary data has it as well. -/
def forEachItems (patch : Document N) : Except JsError (List (Value N)) :=
  match patch.root with
  | none => .error (readOf "undefined" "forEach")
  | some .null => .error (readOf "null" "forEach")
  | some (.ref address) =>
    match patch.node address with
    | .array items => .ok items
    | .binary bytes => .ok (bytes.map fun byte => .number (numbers.ofString (toString byte)))
    | _ => .error (notAFunction "patch.forEach")
  | _ => .error (notAFunction "patch.forEach")

/-- The body of the loop over the items, with `patchChanged`. -/
def updateItem (envVarToInject digest : String) (state : Document N × Bool) (item : Value N) :
    Except JsError (Document N × Bool) := do
  let (patch, patchChanged) := state
  let value ← patch.get (some item) "value"
  let name ← patch.get value "name"
  if ← patch.looselyEquals numbers name envVarToInject then
    let current ← patch.get value "value"
    if ← patch.looselyEquals numbers current digest then return (patch, patchChanged)
    else return (← patch.assign numbers value "value" (.string digest), true)
  else return (patch, patchChanged)

/-- The patch with the digest, none if it is not to be written. -/
def updatePatch (envVarToInject digest text : String) : Except JsError (Option String) := do
  let patch ← yaml.load text
  let items ← forEachItems numbers patch
  let (patch, patchChanged) ← items.foldlM (updateItem numbers envVarToInject digest) (patch, false)
  return if patchChanged then some (yaml.dump patch) else none

def noTaql (valuesFilePath : String) : JsError :=
  ⟨"Error", "values file " ++ valuesFilePath ++ " seems to be structured wrong; no 'taql' section found"⟩

/-- The values with the digest, none if they are not to be written. -/
def updateValues (valuesFilePath digest text : String) : Except JsError (Option String) := do
  let values ← yaml.load text
  let taql ← values.get values.root "taql"
  if truthy numbers taql then
    let current ← values.get taql "schemaDigest"
    if ← values.looselyEquals numbers current digest then return none
    else return some (yaml.dump (← values.assign numbers taql "schemaDigest" (.string digest)))
  else throw (noTaql valuesFilePath)

def noSchema : JsError := ⟨"Error", "Failed to build schema"⟩

/-- `updateSchemaDigest`, with what the schema provider comes to. -/
def updateSchemaDigest (valuesFilePath envVarToInject : String) (schema : Except JsError (Option String))
    (files : Files) : Run :=
  match schema with
  | .error error => ⟨.error error, files, []⟩
  | .ok none => ⟨.error noSchema, files, []⟩
  | .ok (some id) =>
    let digest := makeDigest id
    match files.patch.elim (.ok none) (updatePatch numbers yaml envVarToInject digest) with
    | .error error => ⟨.error error, files, []⟩
    | .ok patched =>
      let files := { files with patch := patched.or files.patch }
      let writes := patched.elim [] fun _ => [Target.patch]
      match updateValues numbers yaml valuesFilePath digest files.values with
      | .error error => ⟨.error error, files, writes⟩
      | .ok valued =>
        ⟨.ok ⟨id, digest⟩, { files with values := valued.getD files.values },
          writes ++ valued.elim [] fun _ => [Target.values]⟩

end Taql.Gitops

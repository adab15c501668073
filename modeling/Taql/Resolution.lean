import Mathlib.Data.Int.Log
import Mathlib.Data.Rat.Floor
import Taql.JavaScript

/-! `packages/config/src/resolution.ts`: a configuration is declared property by property,
and resolved from the environment when it is loaded. -/
namespace Taql.Resolution
open JavaScript

/-! ### Numbers from text -/

/-- The number that digits of a radix spell, none for no digits or other signs. -/
def digits (radix : Nat) (chars : List Char) : Option Nat :=
  if chars.isEmpty || !chars.all fun char => digitValue char < radix then none
  else some (chars.foldl (fun value digit => value * radix + digitValue digit) 0)

/-- An exponent with its sign, zero where there is none. -/
def exponent : List Char → Option Int
  | [] => some 0
  | sign :: rest =>
    if sign ≠ 'e' && sign ≠ 'E' then none
    else match rest with
      | '-' :: rest => (digits 10 rest).map fun value => -(value : Int)
      | '+' :: rest => (digits 10 rest).map fun value => (value : Int)
      | rest => (digits 10 rest).map fun value => (value : Int)

/-- A decimal literal without a sign. -/
def decimal (chars : List Char) : Option ℚ := do
  let (whole, rest) := chars.span Char.isDigit
  let (fraction, rest) := match rest with
    | '.' :: rest => rest.span Char.isDigit
    | rest => ([], rest)
  let value ← digits 10 (whole ++ fraction)
  let power ← exponent rest
  return value * (10 : ℚ) ^ (power - fraction.length)

/-- To the nearest integer, and to the even one of two. -/
def roundHalfEven (value : ℚ) : Int :=
  let down := ⌊value⌋
  if value - down < 1 / 2 then down
  else if 1 / 2 < value - down then down + 1
  else if down % 2 = 0 then down else down + 1

/-- The nearest double, none where that is infinite. -/
def toDouble (value : ℚ) : Option ℚ :=
  if value = 0 then some 0
  else
    let unit := (2 : ℚ) ^ max (Int.log 2 |value| - 52) (-1074)
    let rounded := roundHalfEven (value / unit) * unit
    if |rounded| < 2 ^ 1024 then some rounded else none

/-- `Number(text)`, none where it is NaN or infinite. -/
def Number (text : String) : Option ℚ :=
  match (trim text).toList with
  | [] => some 0
  | '0' :: 'x' :: chars | '0' :: 'X' :: chars => (digits 16 chars).bind fun value => toDouble value
  | '0' :: 'o' :: chars | '0' :: 'O' :: chars => (digits 8 chars).bind fun value => toDouble value
  | '0' :: 'b' :: chars | '0' :: 'B' :: chars => (digits 2 chars).bind fun value => toDouble value
  | '-' :: chars => (decimal chars).bind fun value => toDouble (-value)
  | '+' :: chars => (decimal chars).bind toDouble
  | chars => (decimal chars).bind toDouble

/-! ### Declarations -/

inductive Value where
  | undefined
  | string (text : String)
  | number (value : Nat)
  | boolean (value : Bool)
  | url (href : String)
  | object (entries : List (String × Value))

def Value.isDefined : Value → Bool
  | .undefined => false
  | _ => true

/-- An error, with its `cause` if it has one. -/
inductive ConfigError where
  | error (message : String)
  | caused (message : String) (cause : ConfigError)

/-- `process.env`. -/
abbrev Env := String → Option String

abbrev Resolver := Option String → Except ConfigError Value

/-- What a property resolves to without a resolver. -/
def rawVal : Resolver := fun val => .ok (val.elim .undefined .string)

/-- `[decl.property].flat()`, its resolver, and its default where it has one. -/
structure EnvVal where
  property : List String
  resolver : Resolver := rawVal
  defaultTo : Value := .undefined

/-- A resolver that throws, with the property it was given. -/
def resolveProperty (env : Env) (decl : EnvVal) (prop : String) : Except ConfigError Value :=
  (decl.resolver (env prop)).mapError (ConfigError.caused ("error resolving property " ++ prop))

/-- Every property is resolved, before the first that is defined is taken. -/
def resolveSingle (env : Env) (decl : EnvVal) : Except ConfigError Value := do
  let values ← decl.property.mapM (resolveProperty env decl)
  let resolved := (values.find? Value.isDefined).getD .undefined
  .ok (if resolved.isDefined then resolved else decl.defaultTo)

def resolveEntry (env : Env) (entry : String × EnvVal) : Except ConfigError (String × Value) :=
  (resolveSingle env entry.2).map fun value => (entry.1, value)

def resolve (env : Env) (conf : List (String × EnvVal)) : Except ConfigError (List (String × Value)) :=
  conf.mapM (resolveEntry env)

/-! ### Resolvers -/

/-- `readFile` answers with the contents of a file. -/
def fileContents (readFile : String → Except ConfigError String) : Resolver
  | none => .ok .undefined
  | some file => ((readFile file).mapError (ConfigError.caused ("Cannot read file " ++ file))).map .string

def nonNegativeInteger : Resolver
  | none => .ok .undefined
  | some raw =>
    match Number raw with
    | some number =>
      if number.isInt && 0 ≤ number then .ok (.number number.num.toNat)
      else .error (.error ("\"" ++ raw ++ "\" is not a non-negative integer"))
    | none => .error (.error ("\"" ++ raw ++ "\" is not a non-negative integer"))

/-- No letter outside ASCII has one of these as its lower case. -/
def booleanFromString : Resolver
  | none => .ok .undefined
  | some value => .ok (.boolean (value.toList.map Char.toLower = "true".toList))

/-- `newUrl` answers with the `href` of a URL that parses. -/
def urlFromString (newUrl : String → Except ConfigError String) : Resolver
  | none => .ok .undefined
  | some value => (newUrl value).map .url

def options (options : List String) : Resolver
  | none => .ok .undefined
  | some value =>
    if options.contains value then .ok (.string value)
    else if value ≠ "" then .error (.error (value ++ " is not one of " ++ ",".intercalate options))
    else .ok .undefined

/-! ### What a configuration depends on -/

section Lemmas
variable {env env' : Env} {conf : List (String × EnvVal)}

theorem mapM_congr_ok {α β ε : Type} {f g : α → Except ε β} {items : List α} (same : ∀ item ∈ items, f item = g item) :
    items.mapM f = items.mapM g := by
  induction items with
  | nil => rfl
  | cons item items ih =>
    rw [List.forall_mem_cons] at same
    rw [List.mapM_cons, List.mapM_cons, same.1, ih same.2]

/-- A configuration is resolved from the properties it names. -/
theorem resolve_congr (same : ∀ entry ∈ conf, ∀ prop ∈ entry.2.property, env prop = env' prop) :
    resolve env conf = resolve env' conf := by
  apply mapM_congr_ok
  intro entry member
  have values : entry.2.property.mapM (resolveProperty env entry.2) =
      entry.2.property.mapM (resolveProperty env' entry.2) := by
    apply mapM_congr_ok
    intro prop named
    rw [resolveProperty, resolveProperty, same entry member prop named]
  rw [resolveEntry, resolveEntry, resolveSingle, resolveSingle, values]

/-- What is done entry by entry. -/
theorem mapM_map_ok {α β ε : Type} {f g : α → Except ε β} {change : β → β} {items : List α} {results : List β}
    (each : ∀ item ∈ items, ∀ result, f item = .ok result → g item = .ok (change result))
    (done : items.mapM f = .ok results) : items.mapM g = .ok (results.map change) := by
  induction items generalizing results with
  | nil =>
    cases done
    rfl
  | cons item items ih =>
    rw [List.forall_mem_cons] at each
    rw [List.mapM_cons] at done ⊢
    cases first : f item with
    | error error =>
      rw [first] at done
      cases done
    | ok result =>
      cases others : items.mapM f with
      | error error =>
        rw [first, others] at done
        cases done
      | ok rest =>
        rw [first, others] at done
        cases done
        rw [each.1 result first, ih each.2 others]
        rfl

/-- What has a name comes of what has the name. -/
theorem find?_mapM {α β ε : Type} {f : α → Except ε β} {named : α → Bool} {named' : β → Bool}
    (keeps : ∀ item result, f item = .ok result → named' result = named item) {items : List α} {results : List β}
    (done : items.mapM f = .ok results) {item : α} (found : items.find? named = some item) :
    ∃ result, results.find? named' = some result ∧ f item = .ok result := by
  induction items generalizing results with
  | nil => cases found
  | cons head rest ih =>
    rw [List.mapM_cons] at done
    cases first : f head with
    | error error =>
      rw [first] at done
      cases done
    | ok result =>
      cases others : rest.mapM f with
      | error error =>
        rw [first, others] at done
        cases done
      | ok more =>
        rw [first, others] at done
        cases done
        rw [List.find?_cons] at found
        rw [List.find?_cons, keeps head result first]
        cases is : named head with
        | true =>
          rw [is] at found
          cases found
          exact ⟨result, rfl, first⟩
        | false =>
          rw [is] at found
          exact ih others found

end Lemmas

end Taql.Resolution

import Mathlib.Data.List.Induction
import Mathlib.Data.List.Perm.Subperm
import Mathlib.Data.List.Sort
import Mathlib.Tactic.Common

/-! The language runtime under the services: numbers with NaN, `Array.sort`
with a comparator, and arrays with holes. Nothing here names a service; each
definition follows the documented behaviour of the language. -/
namespace Taql.JavaScript

/-- An integer-valued number, or NaN. -/
inductive JsNumber where
  | num (value : Int)
  | nan
  deriving DecidableEq, Repr

namespace JsNumber

/-- NaN propagates through arithmetic. -/
def sub : JsNumber → JsNumber → JsNumber
  | num left, num right => num (left - right)
  | _, _ => nan

def add : JsNumber → JsNumber → JsNumber
  | num left, num right => num (left + right)
  | _, _ => nan

/-- `Math.min` of two numbers. -/
def min : JsNumber → JsNumber → JsNumber
  | num left, num right => num (Min.min left right)
  | _, _ => nan

/-- `Math.max` of two numbers. -/
def max : JsNumber → JsNumber → JsNumber
  | num left, num right => num (Max.max left right)
  | _, _ => nan

/-- Zero and NaN are falsy. -/
def truthy : JsNumber → Bool
  | num value => value ≠ 0
  | nan => false

/-- `${value}`. -/
def render : JsNumber → String
  | num value => toString value
  | nan => "NaN"

/-- Every comparison with NaN is false. -/
def lt : JsNumber → JsNumber → Bool
  | num left, num right => left < right
  | _, _ => false

@[simp] theorem sub_num (left right : Int) : sub (num left) (num right) = num (left - right) := rfl
@[simp] theorem lt_num (left right : Int) : lt (num left) (num right) = decide (left < right) := rfl

end JsNumber

/-- An `Error` instance, as far as a caller can tell errors apart. -/
structure JsError where
  name : String
  message : String
  deriving DecidableEq, Repr

/-! ### Strings and object keys -/

/-- White space and line terminators, which `trim` and `parseInt` skip. -/
def isSpace (char : Char) : Bool :=
  [0x9, 0xA, 0xB, 0xC, 0xD, 0x20, 0xA0, 0x1680, 0x2028, 0x2029, 0x202F, 0x205F, 0x3000, 0xFEFF].contains char.toNat ||
    (0x2000 ≤ char.toNat && char.toNat ≤ 0x200A)

/-- `text.trim()`. -/
def trim (text : String) : String :=
  String.ofList ((text.toList.dropWhile isSpace).reverse.dropWhile isSpace).reverse

/-- `text.split(separator)` for a separator of one character. -/
def split (separator : Char) (text : String) : List String := (text.toList.splitOn separator).map String.ofList

def startsWith (text opening : String) : Bool := opening.toList.isPrefixOf text.toList

theorem startsWith_iff {text opening : String} :
    startsWith text opening = true ↔ ∃ rest, text.toList = opening.toList ++ rest := by
  rw [startsWith, List.isPrefixOf_iff_prefix]
  exact ⟨fun ⟨rest, is⟩ => ⟨rest, is.symm⟩, fun ⟨rest, is⟩ => ⟨rest, is.symm⟩⟩

/-- A text without the separator is one part. -/
theorem split_of_notMem {separator : Char} {text : String} (absent : separator ∉ text.toList) :
    split separator text = [text] := by
  rw [split, List.splitOn_eq_singleton absent, List.map_singleton, String.ofList_toList]

/-- The first separator ends the first part. -/
theorem split_append_cons {separator : Char} {text first : String} {rest : List Char}
    (parts : text.toList = first.toList ++ separator :: rest) (absent : separator ∉ first.toList) :
    split separator text = first :: split separator (String.ofList rest) := by
  rw [split, parts, List.splitOn_append_cons_self_of_not_mem absent, List.map_cons, String.ofList_toList, split,
    String.toList_ofList]

theorem head?_split (separator : Char) (text : String) :
    (split separator text).head? = some (String.ofList (text.toList.takeWhile fun char => char ≠ separator)) := by
  rw [split, List.head?_map]
  induction text.toList with
  | nil => rfl
  | cons char rest ih =>
    rw [List.splitOn_cons_eq_if_modifyHead, List.takeWhile_cons]
    by_cases same : char = separator
    · simp [same]
    · obtain ⟨first, others, are⟩ := List.exists_cons_of_ne_nil (List.splitOn_ne_nil separator rest)
      rw [are] at ih ⊢
      simpa [same] using ih

def digitValue (char : Char) : Nat :=
  if '0' ≤ char && char ≤ '9' then char.toNat - '0'.toNat
  else if 'a' ≤ char && char ≤ 'f' then char.toNat - 'a'.toNat + 10
  else if 'A' ≤ char && char ≤ 'F' then char.toNat - 'A'.toNat + 10
  else 16

/-- The longest run of digits, NaN when there is none. -/
def parseDigits (radix : Nat) (chars : List Char) : JsNumber :=
  match chars.takeWhile fun char => digitValue char < radix with
  | [] => .nan
  | digits => .num (digits.foldl (fun value digit => value * radix + digitValue digit) 0)

/-- What follows the sign: a hexadecimal prefix changes the radix. -/
def parseMagnitude : List Char → JsNumber
  | '0' :: 'x' :: chars | '0' :: 'X' :: chars => parseDigits 16 chars
  | chars => parseDigits 10 chars

/-- `parseInt(text)`. -/
def parseInt (text : String) : JsNumber :=
  match text.toList.dropWhile isSpace with
  | '-' :: chars => JsNumber.sub (.num 0) (parseMagnitude chars)
  | '+' :: chars => parseMagnitude chars
  | chars => parseMagnitude chars

/-- The names every object inherits from `Object.prototype`. -/
def objectMembers : List String :=
  ["constructor", "__defineGetter__", "__defineSetter__", "hasOwnProperty", "__lookupGetter__", "__lookupSetter__",
    "isPrototypeOf", "propertyIsEnumerable", "toString", "valueOf", "__proto__", "toLocaleString"]

/-- `E[key] != undefined` for a numeric enum `E`: it compiles to an object from
each name to its number and from each number back to its name. -/
def enumHas (names : List String) (key : String) : Bool :=
  names.contains key || (List.range names.length).any (fun value => toString value == key) || objectMembers.contains key

/-- The array index a property name spells, in the one spelling it has; indices
are less than `2 ^ 32 - 1`. -/
def arrayIndex (key : String) : Option Nat :=
  match parseDigits 10 key.toList with
  | .num value => if toString value.toNat = key && value < 4294967295 then some value.toNat else none
  | .nan => none

/-- `Object.entries` of properties listed in the order they were made: array
indices come first, in ascending order. -/
def entries (properties : List (String × α)) : List (String × α) :=
  (properties.filter fun property => (arrayIndex property.1).isSome).insertionSort
      (fun left right => (arrayIndex left.1).getD 0 ≤ (arrayIndex right.1).getD 0) ++
    properties.filter fun property => (arrayIndex property.1).isNone

theorem entries_perm (properties : List (String × α)) : (entries properties).Perm properties := by
  unfold entries
  apply ((List.perm_insertionSort _ _).append_right _).trans
  simpa using List.filter_append_perm (fun property => (arrayIndex property.1).isSome) properties

/-! ### Sorting -/

/-- The comparator puts `left` no later than `right`. -/
def notAfter (comparator : α → α → JsNumber) (left right : α) : Bool :=
  match comparator left right with
  | .num value => value ≤ 0
  | .nan => false

/-- What the language asks of a comparator before it promises any order: its
answers on the items are numbers, have opposite signs when swapped, and are
transitive. -/
structure ConsistentOn (comparator : α → α → JsNumber) (items : List α) : Prop where
  defined : ∀ left ∈ items, ∀ right ∈ items, ∃ value, comparator left right = .num value
  opposite : ∀ left ∈ items, ∀ right ∈ items, ∀ value, comparator left right = .num value →
    0 < value → notAfter comparator right left = true
  transitive : ∀ first ∈ items, ∀ second ∈ items, ∀ third ∈ items,
    notAfter comparator first second = true → notAfter comparator second third = true →
      notAfter comparator first third = true

/-- `Array.prototype.sort`. With an inconsistent comparator the order is left
to the implementation, but no item is ever lost or repeated. -/
structure ArraySort where
  sort : {α : Type} → (α → α → JsNumber) → List α → List α
  permutes : ∀ {α : Type} (comparator : α → α → JsNumber) (items : List α),
    (sort comparator items).Perm items
  sorts : ∀ {α : Type} (comparator : α → α → JsNumber) (items : List α),
    ConsistentOn comparator items →
      (sort comparator items).Pairwise fun left right => notAfter comparator left right = true

theorem ConsistentOn.mono {comparator : α → α → JsNumber} (consistent : ConsistentOn comparator items)
    (included : ∀ item ∈ part, item ∈ items) : ConsistentOn comparator part where
  defined left leftIn right rightIn := consistent.defined left (included left leftIn) right (included right rightIn)
  opposite left leftIn right rightIn :=
    consistent.opposite left (included left leftIn) right (included right rightIn)
  transitive first firstIn second secondIn third thirdIn :=
    consistent.transitive first (included first firstIn) second (included second secondIn)
      third (included third thirdIn)

/-- Subtracting integer keys, the usual numeric comparator, is consistent. -/
theorem consistentOn_of_key {comparator : α → α → JsNumber} {items : List α} (key : α → Int)
    (subtracts : ∀ left ∈ items, ∀ right ∈ items, comparator left right = .num (key left - key right)) :
    ConsistentOn comparator items where
  defined left leftIn right rightIn := ⟨_, subtracts left leftIn right rightIn⟩
  opposite left leftIn right rightIn value answer positive := by
    rw [subtracts left leftIn right rightIn] at answer
    cases answer
    simp only [notAfter, subtracts right rightIn left leftIn, decide_eq_true_eq]
    omega
  transitive first firstIn second secondIn third thirdIn before after := by
    simp only [notAfter, subtracts first firstIn second secondIn, subtracts second secondIn third thirdIn,
      subtracts first firstIn third thirdIn, decide_eq_true_eq] at before after ⊢
    omega

private theorem orderedInsert_pairwise {comparator : α → α → JsNumber} (item : α) (items : List α)
    (consistent : ConsistentOn comparator (item :: items))
    (sorted : items.Pairwise fun left right => notAfter comparator left right = true) :
    (items.orderedInsert (fun left right => notAfter comparator left right = true) item).Pairwise
      fun left right => notAfter comparator left right = true := by
  induction items with
  | nil => simp
  | cons next rest ih =>
    obtain ⟨nextFirst, restSorted⟩ := List.pairwise_cons.mp sorted
    by_cases before : notAfter comparator item next = true
    · rw [List.orderedInsert, if_pos before]
      refine List.pairwise_cons.mpr ⟨?_, sorted⟩
      intro later member
      rcases List.mem_cons.mp member with rfl | member
      · exact before
      · exact consistent.transitive item (by simp) next (by simp) later (by simp [member]) before
          (nextFirst later member)
    · rw [List.orderedInsert, if_neg before]
      have after : notAfter comparator next item = true := by
        obtain ⟨value, answer⟩ := consistent.defined item (by simp) next (by simp)
        apply consistent.opposite item (by simp) next (by simp) value answer
        simpa [notAfter, answer] using before
      refine List.pairwise_cons.mpr ⟨?_, ih (consistent.mono (by simp +contextual)) restSorted⟩
      intro later member
      rcases List.mem_cons.mp ((List.perm_orderedInsert _ item rest).mem_iff.mp member) with rfl | member
      · exact after
      · exact nextFirst later member

/-- A concrete stable sort, by insertion. -/
def insertionSort : ArraySort where
  sort comparator items := items.insertionSort fun left right => notAfter comparator left right = true
  permutes _ items := List.perm_insertionSort _ items
  sorts comparator items consistent := by
    induction items with
    | nil => simp
    | cons item rest ih =>
      have permuted : (item :: rest.insertionSort fun left right =>
          notAfter comparator left right = true).Perm (item :: rest) :=
        (List.perm_insertionSort _ rest).cons item
      exact orderedInsert_pairwise item _ (consistent.mono fun _ member => permuted.mem_iff.mp member)
        (ih (consistent.mono fun _ member => List.mem_cons_of_mem item member))

/-! ### Promises -/

/-- A promise that settles: when, and how. -/
structure Settling (α : Type) where
  time : Nat
  outcome : Except JsError α

/-- The rejection that comes first, which is the only one the combined promise
sees. -/
def firstRejection (promises : List (Settling α)) : Option (Nat × JsError) :=
  promises.foldl (fun first promise =>
    match promise.outcome, first with
    | .ok _, _ => first
    | .error error, none => some (promise.time, error)
    | .error error, some (time, earlier) =>
      some (if promise.time < time then (promise.time, error) else (time, earlier)))
    none

/-- `Promise.all`: the values in the order of the promises, or the first
rejection. -/
def promiseAll (promises : List (Settling α)) : Except JsError (List α) :=
  match firstRejection promises with
  | some (_, error) => .error error
  | none => .ok (promises.filterMap fun promise => promise.outcome.toOption)

private theorem firstRejection_snoc (promises : List (Settling α)) (promise : Settling α) :
    (firstRejection (promises ++ [promise])).isSome =
      ((firstRejection promises).isSome || !promise.outcome.isOk) := by
  unfold firstRejection
  rw [List.foldl_append]
  generalize promises.foldl _ _ = first
  cases first <;> rcases promise with ⟨_, _ | _⟩ <;> rfl

private theorem firstRejection_eq_none {promises : List (Settling α)} :
    firstRejection promises = none ↔ ∀ promise ∈ promises, promise.outcome.isOk = true := by
  rw [← Option.not_isSome_iff_eq_none, Bool.not_eq_true]
  induction promises using List.reverseRecOn with
  | nil => simp [firstRejection]
  | append_singleton promises promise ih =>
    simp only [firstRejection_snoc, Bool.or_eq_false_iff, ih, List.mem_append, List.mem_singleton, or_imp,
      forall_and, forall_eq, Bool.not_eq_eq_eq_not, Bool.not_false]

/-- The combined promise resolves exactly when every promise does, to their
values in order. -/
theorem promiseAll_eq_ok {promises : List (Settling α)} {values : List α} :
    promiseAll promises = .ok values ↔ promises.map Settling.outcome = values.map .ok := by
  constructor
  · intro resolved
    unfold promiseAll at resolved
    cases none_rejected : firstRejection promises with
    | some rejection => rw [none_rejected] at resolved; cases resolved
    | none =>
      rw [none_rejected] at resolved
      cases resolved
      have all_ok := firstRejection_eq_none.mp none_rejected
      clear none_rejected
      induction promises with
      | nil => rfl
      | cons promise rest ih =>
        obtain ⟨time, error | value⟩ := promise
        · exact absurd (all_ok _ List.mem_cons_self) (by simp [Except.isOk, Except.toBool])
        · simpa [Except.toOption] using ih fun other member => all_ok other (List.mem_cons_of_mem _ member)
  · intro outcomes
    have all_ok : ∀ promise ∈ promises, promise.outcome.isOk = true := by
      intro promise member
      have listed : promise.outcome ∈ values.map .ok := outcomes ▸ List.mem_map_of_mem member
      obtain ⟨value, _, same⟩ := List.mem_map.mp listed
      rw [← same]
      rfl
    unfold promiseAll
    rw [firstRejection_eq_none.mpr all_ok]
    have toOptions := congrArg (List.filterMap Except.toOption) outcomes
    simpa [List.filterMap_map, Function.comp_def, Except.toOption] using toOptions

theorem promiseAll_eq_error {promises : List (Settling α)} {error : JsError}
    (rejected : promiseAll promises = .error error) :
    ∃ promise ∈ promises, promise.outcome.isOk = false := by
  unfold promiseAll at rejected
  cases none_rejected : firstRejection promises with
  | none => rw [none_rejected] at rejected; cases rejected
  | some rejection =>
    by_contra all_ok
    have none_rejected' : firstRejection promises = none := by
      refine firstRejection_eq_none.mpr fun promise member => ?_
      by_contra refused
      exact all_ok ⟨promise, member, by simpa using refused⟩
    rw [none_rejected] at none_rejected'
    cases none_rejected'

/-! ### Functions that throw -/

section Throwing
variable {ε : Type} {f g : α → Except ε β} {items : List α} {values : List β}

theorem map_eq_ok {result : Except ε α} {wrap : α → β} {value : β} :
    result.map wrap = .ok value ↔ ∃ inner, result = .ok inner ∧ wrap inner = value := by
  cases result <;> simp [Except.map]

theorem bind_eq_ok {result : Except ε α} {next : α → Except ε β} {value : β} :
    result >>= next = .ok value ↔ ∃ inner, result = .ok inner ∧ next inner = .ok value := by
  cases result <;> simp [bind, Except.bind]

/-- A `map` with a function that throws nothing on the items. -/
theorem mapM_eq_ok : items.mapM f = .ok values ↔ List.Forall₂ (fun item value => f item = .ok value) items values := by
  induction items generalizing values with
  | nil =>
    rw [List.forall₂_nil_left_iff]
    constructor
    · intro mapped
      exact (Except.ok.inj mapped).symm
    · rintro rfl
      rfl
  | cons item rest ih =>
    rw [List.mapM_cons, List.forall₂_cons_left_iff]
    constructor
    · intro mapped
      cases first : f item with
      | error error => rw [first] at mapped; cases mapped
      | ok value =>
        cases others : rest.mapM f with
        | error error => rw [first, others] at mapped; cases mapped
        | ok values' =>
          rw [first, others] at mapped
          cases mapped
          exact ⟨value, values', rfl, ih.mp others, rfl⟩
    · rintro ⟨value, values', first, others, rfl⟩
      rw [first, ih.mpr others]
      rfl

theorem exists_mapM_ok : (∃ values, items.mapM f = .ok values) ↔ ∀ item ∈ items, ∃ value, f item = .ok value := by
  constructor
  · rintro ⟨values, mapped⟩
    rw [mapM_eq_ok] at mapped
    induction mapped with
    | nil => exact List.forall_mem_nil _
    | cons is _ ih => exact List.forall_mem_cons.mpr ⟨⟨_, is⟩, ih⟩
  · intro each
    induction items with
    | nil => exact ⟨[], rfl⟩
    | cons item rest ih =>
      obtain ⟨value, first⟩ := each item List.mem_cons_self
      obtain ⟨values, others⟩ := ih fun other member => each other (List.mem_cons_of_mem _ member)
      exact ⟨value :: values, mapM_eq_ok.mpr (.cons first (mapM_eq_ok.mp others))⟩

theorem mapM_ok_mono (agree : ∀ item value, f item = .ok value → g item = .ok value)
    (mapped : items.mapM f = .ok values) : items.mapM g = .ok values :=
  mapM_eq_ok.mpr ((mapM_eq_ok.mp mapped).imp agree)

end Throwing

/-! ### Arrays with holes -/

/-- `items[index] = value`: writing past the end lengthens the array, and the
positions skipped are holes. -/
def assign (items : List (Option α)) (index : Nat) (value : α) : List (Option α) :=
  (items ++ List.replicate (index + 1 - items.length) none).set index (some value)

/-- `items[index]`: undefined at a hole and past the end. -/
def readAt (items : List (Option α)) (index : Nat) : Option α := items[index]?.join

/-- Each write in turn. -/
def assignAll (items : List (Option α)) (writes : List (Nat × α)) : List (Option α) :=
  writes.foldl (fun items write => assign items write.1 write.2) items

theorem lt_length_assign (items : List (Option α)) (index : Nat) (value : α) (position : Nat) :
    position < (assign items index value).length ↔ position < items.length ∨ position ≤ index := by
  simp only [assign, List.length_set, List.length_append, List.length_replicate]
  omega

@[simp] theorem read_assign (items : List (Option α)) (index : Nat) (value : α) (position : Nat) :
    readAt (assign items index value) position = if position = index then some value else readAt items position := by
  by_cases same : position = index
  · subst position
    have inside : index < (items ++ List.replicate (index + 1 - items.length) (none : Option α)).length := by
      simp only [List.length_append, List.length_replicate]
      omega
    simp [readAt, assign, List.getElem?_set_self inside]
  · simp only [readAt, assign, List.getElem?_set_ne (Ne.symm same), if_neg same, List.getElem?_append]
    split
    · rfl
    · rename_i past
      have absent : items[position]? = none := List.getElem?_eq_none (by omega)
      simp only [absent, List.getElem?_replicate]
      split <;> rfl

theorem lt_length_assignAll (items : List (Option α)) (writes : List (Nat × α)) (position : Nat) :
    position < (assignAll items writes).length ↔
      position < items.length ∨ ∃ write ∈ writes, position ≤ write.1 := by
  induction writes generalizing items with
  | nil => simp [assignAll]
  | cons write rest ih =>
    rw [show assignAll items (write :: rest) = assignAll (assign items write.1 write.2) rest from rfl, ih,
      lt_length_assign]
    simp only [List.mem_cons, exists_eq_or_imp, or_assoc]

/-- A position no write names keeps what it held. -/
theorem read_assignAll_of_notMem (items : List (Option α)) (writes : List (Nat × α)) (position : Nat)
    (absent : position ∉ writes.map Prod.fst) :
    readAt (assignAll items writes) position = readAt items position := by
  induction writes generalizing items with
  | nil => rfl
  | cons write rest ih =>
    simp only [List.map_cons, List.mem_cons, not_or] at absent
    rw [show assignAll items (write :: rest) = assignAll (assign items write.1 write.2) rest from rfl,
      ih _ absent.2, read_assign, if_neg absent.1]

/-- When no two writes name one position, each position holds what was
written to it. -/
theorem read_assignAll_of_mem (items : List (Option α)) (writes : List (Nat × α))
    (distinct : (writes.map Prod.fst).Nodup) (member : (position, value) ∈ writes) :
    readAt (assignAll items writes) position = some value := by
  induction writes generalizing items with
  | nil => cases member
  | cons write rest ih =>
    simp only [List.map_cons, List.nodup_cons] at distinct
    rw [show assignAll items (write :: rest) = assignAll (assign items write.1 write.2) rest from rfl]
    rcases List.mem_cons.mp member with rfl | member
    · rw [read_assignAll_of_notMem _ _ _ distinct.1, read_assign, if_pos rfl]
    · exact ih _ distinct.2 member

/-- An array with no holes is known by its length and what is read at each
position. -/
theorem eq_map_some_of_read {items : List (Option α)} {values : List α}
    (sameLength : items.length = values.length)
    (reads : ∀ position, position < values.length → readAt items position = values[position]?) :
    items = values.map some := by
  apply List.ext_getElem?
  intro position
  by_cases inside : position < values.length
  · have held := reads position inside
    have here : position < items.length := sameLength ▸ inside
    simp only [readAt, List.getElem?_eq_getElem here, List.getElem?_eq_getElem inside,
      Option.join_some] at held
    simp [List.getElem?_eq_getElem here, List.getElem?_eq_getElem inside, held]
  · simp [List.getElem?_eq_none (show items.length ≤ position by omega),
      List.getElem?_eq_none (show values.length ≤ position by omega)]

end Taql.JavaScript

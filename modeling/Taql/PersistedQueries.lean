import Mathlib.Data.Multiset.Basic
import Taql.JavaScript
import Taql.Redis

/-! `packages/server/src/apq.ts`: the queries a redis holds, read page by page. One
page without keys, or one value that is no JSON, ends the reading, and whoever
gathers the queries is not told. -/
namespace Taql.PersistedQueries
open JavaScript Redis

/-- What `JSON.parse` answers, as far as it is looked at. -/
inductive JsonValue where
  | null
  | string (value : String)
  | other (text : String)
  deriving DecidableEq

/-- `JSON.parse`, which takes anything that is no text for the text of it. -/
structure JSON where
  parse : String → Except JsError JsonValue
  parse_null : parse "null" = .ok .null

/-- A value that is read is taken for a query whatever it is. -/
structure PersistedQuery where
  id : String
  query : JsonValue
  deriving DecidableEq

/-- What SCAN answers, with what the server holds when the keys are read. -/
structure Page where
  cursor : String
  keys : List String
  store : Store

/-- What a generator has yielded, and how it ended if it has. -/
structure Generated where
  yielded : List PersistedQuery
  ended : Option (Except JsError Unit)

def wrongNumberOfArguments : JsError := ⟨"ReplyError", "ERR wrong number of arguments for 'mget' command"⟩

/-- `redis.mget(...keys)`. -/
def mget (store : Store) (keys : List String) : Except JsError (List (Option String)) :=
  if keys = [] then .error wrongNumberOfArguments else .ok (keys.map store.get)

/-- The loop over the keys and values of a page. -/
def readAll (json : JSON) : List (String × Option String) → List PersistedQuery × Except JsError Unit
  | [] => ([], .ok ())
  | (key, val) :: rest =>
    match json.parse (val.getD "null") with
    | .error error => ([], .error error)
    | .ok .null => readAll json rest
    | .ok query => (⟨key, query⟩ :: (readAll json rest).1, (readAll json rest).2)

def readPage (json : JSON) (page : Page) : List PersistedQuery × Except JsError Unit :=
  match mget page.store page.keys with
  | .error error => ([], .error error)
  | .ok vals => readAll json (page.keys.zip vals)

/-- `nodePersistedQueries(redis)`, given what each call of `scan` answers. -/
def nodePersistedQueries (json : JSON) : List (Option Page) → Generated
  | [] => ⟨[], none⟩
  | none :: _ => ⟨[], some (.ok ())⟩
  | some page :: later =>
    match readPage json page with
    | (read, .error error) => ⟨read, some (.error error)⟩
    | (read, .ok ()) =>
      if page.cursor ≠ "0" then
        ⟨read ++ (nodePersistedQueries json later).yielded, (nodePersistedQueries json later).ended⟩
      else ⟨read, some (.ok ())⟩

/-- `loadPersistedQueries`, in no order as the nodes are read at a time. How a node
ended makes no difference. -/
def loadPersistedQueries (json : JSON) (connected : Bool) (nodes : List (List (Option Page))) :
    Multiset PersistedQuery :=
  if connected then nodes.flatMap fun replies => (nodePersistedQueries json replies).yielded else 0

section Reading
variable {json : JSON}

/-- A value that is not there, or is JSON. -/
def Readable (json : JSON) (val : Option String) : Prop :=
  ∀ text, val = some text → ∃ value, json.parse text = .ok value

/-- A page the loop gets to the end of. -/
structure ReadablePage (json : JSON) (page : Page) : Prop where
  filled : page.keys ≠ []
  readable : ∀ key ∈ page.keys, Readable json (page.store.get key)

/-- The page has a query under the key. -/
structure Holds (json : JSON) (page : Page) (key query : String) : Prop where
  listed : key ∈ page.keys
  live : ∃ text, page.store.get key = some text ∧ json.parse text = .ok (.string query)

theorem parse_of_readable {val : Option String} (readable : Readable json val) :
    ∃ value, json.parse (val.getD "null") = .ok value := by
  cases val with
  | none => exact ⟨.null, json.parse_null⟩
  | some text => exact readable text rfl

theorem readAll_ok_iff (pairs : List (String × Option String)) :
    (readAll json pairs).2 = .ok () ↔ ∀ pair ∈ pairs, Readable json pair.2 := by
  induction pairs with
  | nil => simp [readAll]
  | cons pair rest ih =>
    obtain ⟨key, val⟩ := pair
    rw [List.forall_mem_cons]
    constructor
    · intro done
      unfold readAll at done
      cases parsed : json.parse (val.getD "null") with
      | error error =>
        rw [parsed] at done
        cases done
      | ok value =>
        have rest_ : (readAll json rest).2 = .ok () := by
          rw [parsed] at done
          cases value <;> exact done
        refine ⟨fun text is => ⟨value, ?_⟩, ih.mp rest_⟩
        rwa [show val = some text from is] at parsed
    · rintro ⟨here, there⟩
      obtain ⟨value, parsed⟩ := parse_of_readable here
      unfold readAll
      rw [parsed]
      cases value <;> exact ih.mpr there

theorem mem_readAll {pairs : List (String × Option String)} (readable : ∀ pair ∈ pairs, Readable json pair.2)
    {key text query : String} (listed : (key, some text) ∈ pairs) (parsed : json.parse text = .ok (.string query)) :
    ⟨key, .string query⟩ ∈ (readAll json pairs).1 := by
  induction pairs with
  | nil => cases listed
  | cons pair rest ih =>
    rw [List.forall_mem_cons] at readable
    unfold readAll
    rcases List.mem_cons.mp listed with rfl | listed
    · simp only [Option.getD_some, parsed]
      exact List.mem_cons_self
    · have later := ih readable.2 listed
      obtain ⟨value, is⟩ := parse_of_readable readable.1
      rw [is]
      cases value with
      | null => exact later
      | string _ | other _ => exact List.mem_cons_of_mem _ later

private theorem zip_live (page : Page) :
    page.keys.zip (page.keys.map page.store.get) = page.keys.map fun key => (key, page.store.get key) := by
  rw [List.zip_map_right, List.zip_eq_zipWith, List.zipWith_self, List.map_map]
  rfl

theorem readPage_ok_iff (page : Page) : (readPage json page).2 = .ok () ↔ ReadablePage json page := by
  unfold readPage mget
  by_cases empty : page.keys = []
  · simp only [empty, if_true]
    constructor
    · intro never
      cases never
    · rintro ⟨filled, _⟩
      exact absurd empty filled
  · rw [if_neg empty]
    simp only [zip_live, readAll_ok_iff, List.forall_mem_map]
    exact ⟨fun readable => ⟨empty, readable⟩, ReadablePage.readable⟩

theorem mem_readPage {page : Page} (readable : ReadablePage json page) {key query : String}
    (holds : Holds json page key query) : ⟨key, .string query⟩ ∈ (readPage json page).1 := by
  obtain ⟨listed, text, live, parsed⟩ := holds
  unfold readPage mget
  rw [if_neg readable.filled]
  simp only [zip_live]
  apply mem_readAll
  · simpa using readable.readable
  · rw [← live]
    exact List.mem_map_of_mem (f := fun key => (key, page.store.get key)) listed
  · exact parsed

/-- What a page does to the reading of those after it. -/
theorem nodePersistedQueries_cons (page : Page) (later : List (Option Page)) :
    nodePersistedQueries json (some page :: later) =
      match (readPage json page).2 with
      | .error error => ⟨(readPage json page).1, some (.error error)⟩
      | .ok () =>
        if page.cursor = "0" then ⟨(readPage json page).1, some (.ok ())⟩
        else ⟨(readPage json page).1 ++ (nodePersistedQueries json later).yielded,
          (nodePersistedQueries json later).ended⟩ := by
  rw [nodePersistedQueries]
  rcases readPage json page with ⟨read, _ | _⟩
  · rfl
  · by_cases last : page.cursor = "0" <;> simp [last]

end Reading

/-! ### A whole scan -/

/-- A scan is the pages up to the first with cursor `0`. -/
structure IsScan (earlier : List Page) (last : Page) : Prop where
  goes_on : ∀ page ∈ earlier, page.cursor ≠ "0"
  ends : last.cursor = "0"

/-- The generator ends as the scan does, and has yielded every query on a page. -/
structure Exhausts (json : JSON) (pages : List Page) (generated : Generated) : Prop where
  ended : generated.ended = some (.ok ())
  yielded : ∀ page ∈ pages, ∀ key query, Holds json page key query → ⟨key, .string query⟩ ∈ generated.yielded

/-- The generator ends as the scan does when it gets to the end of every page. -/
theorem ended_iff (json : JSON) {earlier : List Page} {last : Page} (scan : IsScan earlier last) :
    (nodePersistedQueries json ((earlier ++ [last]).map some)).ended = some (.ok ()) ↔
      ∀ page ∈ earlier ++ [last], ReadablePage json page := by
  obtain ⟨goes_on, ends⟩ := scan
  induction earlier with
  | nil =>
    simp only [List.nil_append, List.map_singleton, nodePersistedQueries_cons, if_pos ends, List.forall_mem_singleton,
      ← readPage_ok_iff]
    cases (readPage json last).2 <;> simp
  | cons page earlier ih =>
    rw [List.forall_mem_cons] at goes_on
    rw [List.cons_append, List.map_cons, List.forall_mem_cons, ← ih goes_on.2, nodePersistedQueries_cons,
      if_neg goes_on.1, ← readPage_ok_iff]
    cases (readPage json page).2 <;> simp

/-- What is on a page is yielded if all of them can be read. -/
theorem mem_yielded (json : JSON) {earlier : List Page} {last : Page} (scan : IsScan earlier last)
    (readable : ∀ page ∈ earlier ++ [last], ReadablePage json page) {page : Page} (member : page ∈ earlier ++ [last])
    {key query : String} (holds : Holds json page key query) :
    ⟨key, .string query⟩ ∈ (nodePersistedQueries json ((earlier ++ [last]).map some)).yielded := by
  obtain ⟨goes_on, ends⟩ := scan
  induction earlier with
  | nil =>
    obtain rfl := List.mem_singleton.mp member
    rw [List.nil_append, List.map_singleton, nodePersistedQueries_cons, if_pos ends,
      (readPage_ok_iff page).mpr (readable page member)]
    exact mem_readPage (readable page member) holds
  | cons first earlier ih =>
    rw [List.forall_mem_cons] at goes_on
    rw [List.cons_append, List.forall_mem_cons] at readable
    rw [List.cons_append, List.map_cons, nodePersistedQueries_cons, if_neg goes_on.1,
      (readPage_ok_iff first).mpr readable.1]
    rcases List.mem_cons.mp member with rfl | member
    · exact List.mem_append_left _ (mem_readPage readable.1 holds)
    · exact List.mem_append_right _ (ih readable.2 member goes_on.2)

/-- What a node holds is loaded if its pages can be read, however the other nodes end. -/
theorem mem_loadPersistedQueries (json : JSON) {earlier : List Page} {last : Page} (scan : IsScan earlier last)
    (readable : ∀ page ∈ earlier ++ [last], ReadablePage json page) {page : Page} (member : page ∈ earlier ++ [last])
    {key query : String} (holds : Holds json page key query) {nodes : List (List (Option Page))}
    (node : (earlier ++ [last]).map some ∈ nodes) :
    ⟨key, .string query⟩ ∈ loadPersistedQueries json true nodes := by
  rw [loadPersistedQueries, if_pos rfl, Multiset.mem_coe, List.mem_flatMap]
  exact ⟨_, node, mem_yielded json scan readable member holds⟩

/-- A scan is read to its end, and every query found, exactly when each page has keys
and each value on it is JSON. -/
theorem scan_exhausted_iff (json : JSON) {earlier : List Page} {last : Page} (scan : IsScan earlier last) :
    Exhausts json (earlier ++ [last]) (nodePersistedQueries json ((earlier ++ [last]).map some)) ↔
      ∀ page ∈ earlier ++ [last], ReadablePage json page := by
  constructor
  · rintro ⟨ended, _⟩
    exact (ended_iff json scan).mp ended
  · intro readable
    exact ⟨(ended_iff json scan).mpr readable, fun page member key query holds =>
      mem_yielded json scan readable member holds⟩

/-- JSON as far as `null` and strings without escapes. -/
def plainJSON : JSON where
  parse text :=
    match text.toList with
    | ['n', 'u', 'l', 'l'] => .ok .null
    | '"' :: rest =>
      if rest.getLast? = some '"' then .ok (.string (String.ofList rest.dropLast))
      else .error ⟨"SyntaxError", "Unterminated string in JSON"⟩
    | _ => .error ⟨"SyntaxError", "Unexpected token in JSON"⟩
  parse_null := by decide

/-- A server that holds one query. -/
def oneQuery : Store := Store.empty.set "hash" "\"query\""

/-- The query is met twice, once next to a key that has expired. -/
theorem scan_exhausted_twice :
    Exhausts plainJSON [⟨"17", ["hash", "gone"], oneQuery⟩, ⟨"0", ["hash"], oneQuery⟩]
      (nodePersistedQueries plainJSON [some ⟨"17", ["hash", "gone"], oneQuery⟩, some ⟨"0", ["hash"], oneQuery⟩]) := by
  have scan : IsScan [⟨"17", ["hash", "gone"], oneQuery⟩] ⟨"0", ["hash"], oneQuery⟩ := ⟨by simp, rfl⟩
  apply (scan_exhausted_iff plainJSON scan).mpr
  intro page member
  have held : page.store = oneQuery ∧ page.keys ≠ [] := by
    rcases List.mem_append.mp member with member | member <;> rw [List.mem_singleton.mp member] <;>
      exact ⟨rfl, List.cons_ne_nil _ _⟩
  refine ⟨held.2, fun key _ text live => ?_⟩
  rw [held.1, oneQuery, Store.get_set, Store.get_empty] at live
  split at live
  · cases live
    exact ⟨.string "query", by decide⟩
  · cases live

/-- The queries after an empty page are not found. -/
theorem scan_stops_at_empty :
    let pages : List Page := [⟨"17", [], oneQuery⟩, ⟨"0", ["hash"], oneQuery⟩]
    ¬Exhausts plainJSON pages (nodePersistedQueries plainJSON (pages.map some)) := by
  intro pages exhausts
  have held : Holds plainJSON ⟨"0", ["hash"], oneQuery⟩ "hash" "query" :=
    ⟨List.mem_cons_self, "\"query\"", by simp [oneQuery], by decide⟩
  cases exhausts.yielded _ (List.mem_cons_of_mem _ List.mem_cons_self) _ _ held

end Taql.PersistedQueries

import Mathlib.Algebra.GroupWithZero.Nat
import Taql.Documents

/-! Which document a request gets. Every cached outcome is that of a text parsed
under its key earlier in the run. A key that was checked stands for one text, so
only a key that nothing checked, such as an id that is no id for one plugin and a
key for the other, can serve one request the document of another. -/
namespace Taql.DocumentTransparency
open Documents JavaScript Prereg Runs Stores

variable {Number Document : Type} [DecidableEq Number] [Zero Number] [One Number] {hash : String → String}
  {texts : Texts Number Document}

omit [Zero Number] [One Number] in
theorem holder_snoc (touched : List (Touch Number)) (touch : Touch Number) (store : StoreName) (key : Key Number) :
    holder (touched ++ [touch]) store key =
      match touch with
      | .parsed use =>
        if use.store = store ∧ use.key = some key then some ((holder touched store key).getD use)
        else holder touched store key
      | .prewarmed use => if use.store = store ∧ use.key = some key then some use else holder touched store key
      | .evicted store' key' => if store' = store ∧ key' = key then none else holder touched store key := by
  rw [holder, List.foldl_append]
  rfl

omit [Zero Number] [One Number] in
/-- An entry is from a use under its key. -/
theorem holder_mem {touched : List (Touch Number)} {store : StoreName} {key : Key Number} {use : Use Number}
    (held : holder touched store key = some use) :
    use ∈ touched.filterMap Touch.use? ∧ use.store = store ∧ use.key = some key := by
  induction touched using List.reverseRecOn with
  | nil => cases held
  | append_singleton touched touch ih =>
    have kept (earlier : holder touched store key = some use) :
        use ∈ (touched ++ [touch]).filterMap Touch.use? ∧ use.store = store ∧ use.key = some key := by
      obtain ⟨member, under⟩ := ih earlier
      exact ⟨by rw [List.filterMap_append]; exact List.mem_append_left _ member, under⟩
    rw [holder_snoc] at held
    cases touch with
    | parsed other =>
      simp only at held
      split at held
      · rename_i under
        cases earlier : holder touched store key with
        | none =>
          rw [earlier] at held
          cases held
          exact ⟨by simp [Touch.use?], under⟩
        | some first =>
          rw [earlier] at held
          exact kept (earlier.trans held)
      · exact kept held
    | prewarmed other =>
      simp only at held
      split at held
      · rename_i under
        cases held
        exact ⟨by simp [Touch.use?], under⟩
      · exact kept held
    | evicted store' key' =>
      simp only at held
      split at held
      · cases held
      · exact kept held

/-- Every entry is what the text of its holder parses to. -/
def HeldBy (texts : Texts Number Document) (touched : List (Touch Number)) (stores : DocumentStores Number Document) :
    Prop :=
  ∀ store key, (stores store).get (some key) = (holder touched store key).map fun use => texts.parse use.text

/-- What a state keeps: registered texts, requests with their own texts, and in
every entry what the text of its holder parses to. -/
structure ServerHolds (texts : Texts Number Document) (touched : List (Touch Number))
    (state : ServerState Number Document hash) : Prop where
  cached : Registered texts.registered state.cache
  looking : ∀ waiting ∈ state.looking,
    waiting.params.extensions.preRegisteredQueryId = some waiting.queryId ∧ waiting.queryId.truthy = true
  parsing : ∀ waiting ∈ state.parsing, resolvedText texts.registered waiting.params = some waiting.query
  documents : HeldBy texts touched state.documents

theorem ServerHolds.route {touched : List (Touch Number)} {state : ServerState Number Document hash}
    (holds : ServerHolds texts touched state) {params : Params Number hash} {resolution : Resolution Number}
    (resolves : ∀ query, resolution = .resolved (some query) → resolvedText texts.registered params = some query)
    (looks : ∀ id, resolution = .lookup id → params.extensions.preRegisteredQueryId = some id ∧ id.truthy = true) :
    ServerHolds texts touched (route state params resolution).1 := by
  obtain ⟨cached, looking, parsing, documents⟩ := holds
  match resolution with
  | .resolved none => exact ⟨cached, looking, parsing, documents⟩
  | .rejected error => exact ⟨cached, looking, parsing, documents⟩
  | .resolved (some query) =>
    refine ⟨cached, looking, fun waiting member => ?_, documents⟩
    rcases List.mem_append.mp member with member | member
    · exact parsing waiting member
    · rw [List.mem_singleton.mp member]
      exact resolves query rfl
  | .lookup id =>
    refine ⟨cached, fun waiting member => ?_, parsing, documents⟩
    rcases List.mem_append.mp member with member | member
    · exact looking waiting member
    · rw [List.mem_singleton.mp member]
      exact looks id rfl

section Stores
variable {stores : DocumentStores Number Document} {touched : List (Touch Number)}

omit [Zero Number] [One Number] in
/-- A prewarmed entry has a new holder. -/
theorem prewarm_stores (held : HeldBy texts touched stores) (use : Use Number) :
    HeldBy texts (touched ++ [.prewarmed use]) (stores.set use.store use.key (texts.parse use.text)) := by
  intro store key
  rw [DocumentStores.get_set, holder_snoc, held]
  simp only
  split <;> rfl

omit [Zero Number] [One Number] in
/-- An evicted entry has none. -/
theorem evict_stores (held : HeldBy texts touched stores) (store : StoreName) (key : Key Number) :
    HeldBy texts (touched ++ [.evicted store key]) (stores.evict store key) := by
  intro store' key'
  rw [DocumentStores.get_evict, holder_snoc, held]
  simp only
  split <;> rfl

/-- A request gets its entry, or makes one. -/
theorem onParse_cases (parse : String → Except JsError Document) (stores : DocumentStores Number Document)
    (waiting : Parsing Number hash) :
    (∃ cached, (stores waiting.use.store).get waiting.use.key = some cached ∧
        onParse parse stores waiting.params.extensions waiting.query = (stores, cached)) ∨
      (stores waiting.use.store).get waiting.use.key = none ∧
        onParse parse stores waiting.params.extensions waiting.query =
          (stores.set waiting.use.store waiting.use.key (parse waiting.query), parse waiting.query) := by
  simp only [onParse]
  split
  · rename_i cached known
    exact .inl ⟨cached, known, rfl⟩
  · rename_i known
    exact .inr ⟨known, rfl⟩

/-- A request that is parsed holds its entry unless another does. -/
theorem onParse_stores (held : HeldBy texts touched stores) (waiting : Parsing Number hash) :
    HeldBy texts (touched ++ [.parsed waiting.use])
      (onParse texts.parse stores waiting.params.extensions waiting.query).1 := by
  intro store key
  rw [holder_snoc]
  rcases onParse_cases texts.parse stores waiting with ⟨cached, picked, same⟩ | ⟨picked, same⟩ <;>
    simp only [same]
  · split
    · rename_i under
      obtain ⟨rfl, isKey⟩ := under
      have found := held waiting.use.store key
      rw [← isKey, picked] at found
      obtain ⟨use, earlier, _⟩ := Option.map_eq_some_iff.mp found.symm
      rw [held, earlier]
      rfl
    · exact held store key
  · rw [DocumentStores.get_set]
    split
    · rename_i under
      obtain ⟨rfl, isKey⟩ := under
      have found := held waiting.use.store key
      rw [← isKey, picked] at found
      rw [Option.map_eq_none_iff.mp found.symm]
      rfl
    · exact held store key

/-- A request gets what the holder of its entry parses to, if there is one. -/
theorem onParse_outcome (held : HeldBy texts touched stores) (waiting : Parsing Number hash) :
    (onParse texts.parse stores waiting.params.extensions waiting.query).2 =
      texts.parse (((waiting.use.key.bind (holder touched waiting.use.store)).getD waiting.use).text) := by
  have found : (stores waiting.use.store).get waiting.use.key =
      (waiting.use.key.bind (holder touched waiting.use.store)).map fun use => texts.parse use.text := by
    cases waiting.use.key with
    | none => rfl
    | some key => exact held waiting.use.store key
  rcases onParse_cases texts.parse stores waiting with ⟨cached, picked, same⟩ | ⟨picked, same⟩ <;>
    rw [found] at picked <;> rw [same]
  · obtain ⟨use, earlier, rfl⟩ := Option.map_eq_some_iff.mp picked
    rw [earlier]
    rfl
  · rw [Option.map_eq_none_iff.mp picked]
    rfl

end Stores

omit [DecidableEq Number] [Zero Number] [One Number] in
private theorem answer_registered (texts : Texts Number Document) (found : Bool) (id : Value Number) (text : String)
    (known : (if found then texts.registered id else none) = some text) : texts.registered id = some text := by
  split at known
  · exact known
  · cases known

theorem serverHolds_step {touched : List (Touch Number)} {state : ServerState Number Document hash}
    (holds : ServerHolds texts touched state) (event : ServerEvent Number hash) :
    ServerHolds texts (touched ++ touchedBy texts state event) ((machine texts hash).step state event).1 := by
  cases event with
  | receive params knownQueries =>
    rw [touchedBy, List.append_nil]
    have resolves := onParams_resolves holds.cached knownQueries params
    exact holds.route resolves.1 resolves.2
  | lookedUp index found =>
    rw [touchedBy, List.append_nil]
    simp only [machine]
    split
    · exact holds
    · rename_i waiting at_
      have looked := holds.looking waiting (List.mem_of_getElem? at_)
      obtain ⟨cached, answered, ended⟩ :=
        onLookup_resolves holds.cached (answer_registered texts found waiting.queryId)
      have kept : ServerHolds texts touched { state with
          cache := (onLookup state.cache waiting.queryId (if found then texts.registered waiting.queryId else none)).1
          looking := state.looking.eraseIdx index } :=
        ⟨cached, fun other member => holds.looking other (List.mem_of_mem_eraseIdx member), holds.parsing,
          holds.documents⟩
      apply kept.route
      · intro query went
        rw [resolvedText, looked.1]
        simp only [looked.2, if_true]
        exact answered query went
      · intro id went
        exact absurd went (ended id)
  | parse index =>
    simp only [machine, touchedBy]
    cases at_ : state.parsing[index]? with
    | none => simpa using holds
    | some waiting =>
      exact ⟨holds.cached, holds.looking, fun other member => holds.parsing other (List.mem_of_mem_eraseIdx member),
        onParse_stores holds.documents waiting⟩
  | preload id =>
    rw [touchedBy, List.append_nil]
    simp only [machine]
    split
    · exact holds
    · rename_i code known
      exact ⟨holds.cached.set known, holds.looking, holds.parsing, holds.documents⟩
  | prewarm store id query =>
    exact ⟨holds.cached, holds.looking, holds.parsing,
      prewarm_stores holds.documents (prewarmUse texts hash store id query)⟩
  | evictQuery key =>
    rw [touchedBy, List.append_nil]
    exact ⟨holds.cached.evict key, holds.looking, holds.parsing, holds.documents⟩
  | evictDocument store key =>
    exact ⟨holds.cached, holds.looking, holds.parsing, evict_stores holds.documents store key⟩

theorem serverHolds_start : ServerHolds texts [] (machine texts hash).start where
  cached id key text is known := by simp [machine] at known
  looking waiting member := absurd member List.not_mem_nil
  parsing waiting member := absurd member List.not_mem_nil
  documents store key := by simp [machine, holder]

theorem serverHolds_exec (events : List (ServerEvent Number hash)) :
    ServerHolds texts (touches texts events) ((machine texts hash).exec events).1 := by
  refine (machine texts hash).exec_invariant (fun past => ServerHolds texts (touches texts past)) serverHolds_start
    (fun past event holds => ?_) events
  unfold touches
  rw [Machine.trace_snoc]
  exact serverHolds_step holds event

/-- What a checked key stands for. -/
def Stands (texts : Texts Number Document) (hash : String → String) (use : Use Number) : Prop :=
  use.verified = true → ∀ key, use.key = some key →
    match use.store with
    | .preregistered => ∃ id, id.key = some key ∧ texts.registered id = some use.text
    | .persisted => key = .string (hash use.text)
    | .default => key = .string use.text

theorem stands_parsing {waiting : Parsing Number hash}
    (known : resolvedText texts.registered waiting.params = some waiting.query) : Stands texts hash waiting.use := by
  obtain ⟨⟨query, ⟨id, version, sha256Hash⟩, checked⟩, text⟩ := waiting
  intro verified key is
  cases id with
  | some id =>
    simp only [Parsing.use, Extensions.verified, pickDocumentCache] at verified is ⊢
    simp only [resolvedText, verified, if_true] at known
    exact ⟨id, is, known⟩
  | none =>
    simp only [resolvedText] at known
    subst known
    cases sha256Hash with
    | none =>
      simp only [Parsing.use, pickDocumentCache, Option.some.injEq] at is ⊢
      exact is.symm
    | some persisted =>
      simp only [Parsing.use, Extensions.verified, pickDocumentCache, Option.isNone_some, Bool.false_or]
        at verified is ⊢
      obtain ⟨digest, wellFormed⟩ := Option.isSome_iff_exists.mp verified
      have compared := Option.some.inj (checked digest wellFormed)
      unfold Extensions.digest at wellFormed
      split at wellFormed
      · rename_i number digest' versioned hashed
        cases hashed
        split at wellFormed
        · cases wellFormed
          cases is
          rw [compared]
        · cases wellFormed
      · cases wellFormed

omit [DecidableEq Number] [Zero Number] [One Number] in
theorem stands_prewarm (store : StoreName) (id query : String) :
    Stands texts hash (prewarmUse texts hash store id query) := by
  intro verified key is
  cases is
  cases store with
  | preregistered => exact ⟨.string id, rfl, of_decide_eq_true verified⟩
  | persisted => rw [prewarmUse, of_decide_eq_true verified]
  | default => rw [prewarmUse, of_decide_eq_true verified]

theorem stands_of_mem {events : List (ServerEvent Number hash)} {use : Use Number}
    (member : use ∈ uses texts events) : Stands texts hash use := by
  obtain ⟨touch, touched, is⟩ := List.mem_filterMap.mp member
  obtain ⟨past, event, rest, split, seen⟩ := (machine texts hash).mem_trace_iff.mp touched
  cases event with
  | parse index =>
    obtain ⟨waiting, at_, rfl⟩ := List.mem_map.mp seen
    cases is
    have holds : ServerHolds texts (touches texts past) _ := serverHolds_exec past
    exact stands_parsing (holds.parsing waiting (List.mem_of_getElem? (Option.mem_toList.mp at_)))
  | prewarm store id query =>
    rw [List.mem_singleton.mp seen] at is
    cases is
    exact stands_prewarm store id query
  | evictDocument store key =>
    rw [List.mem_singleton.mp seen] at is
    cases is
  | receive | lookedUp | preload | evictQuery => cases seen

omit [DecidableEq Number] [Zero Number] [One Number] in
/-- Two checked uses of one entry parse one text, unless their digests collide. -/
theorem Stands.agree {first second : Use Number} (left : Stands texts hash first) (right : Stands texts hash second)
    (checkedLeft : first.verified = true) (checkedRight : second.verified = true) {key : Key Number}
    (isLeft : first.key = some key) (isRight : second.key = some key) (store : first.store = second.store)
    (collisionFree : hash first.text = hash second.text → first.text = second.text) : first.text = second.text := by
  have left := left checkedLeft key isLeft
  have right := right checkedRight key isRight
  rw [store] at left
  cases at_ : second.store with
  | preregistered =>
    rw [at_] at left right
    obtain ⟨id, isId, text⟩ := left
    obtain ⟨id', isId', text'⟩ := right
    rw [Value.key_injective isId' isId] at text'
    exact Option.some.inj (text.symm.trans text')
  | persisted =>
    rw [at_] at left right
    exact collisionFree (Key.string.inj (left.symm.trans right))
  | default =>
    rw [at_] at left right
    exact Key.string.inj (left.symm.trans right)

theorem uses_append {past rest : List (ServerEvent Number hash)} {use : Use Number} (member : use ∈ uses texts past) :
    use ∈ uses texts (past ++ rest) := by
  obtain ⟨touch, touched, is⟩ := List.mem_filterMap.mp member
  obtain ⟨earlier, other, between, rfl, seen⟩ := (machine texts hash).mem_trace_iff.mp touched
  refine List.mem_filterMap.mpr ⟨touch, (machine texts hash).mem_trace_iff.mpr ?_, is⟩
  exact ⟨earlier, other, between ++ rest, by simp, seen⟩

theorem uses_mono {events past rest : List (ServerEvent Number hash)} {event : ServerEvent Number hash}
    (split : events = past ++ event :: rest) {use : Use Number} (member : use ∈ uses texts past) :
    use ∈ uses texts events :=
  split ▸ uses_append member

omit [Zero Number] in
theorem route_answers {state : ServerState Number Document hash} {params params' : Params Number hash}
    {resolution : Resolution Number} {outcome : Except JsError Document} :
    .parsed params outcome ∉ (route state params' resolution).2 := by
  match resolution with
  | .resolved none | .resolved (some query) | .lookup id => exact nofun
  | .rejected error => simp [route]

/-- A document is given by a step that parses a request. -/
theorem parsed_step {state : ServerState Number Document hash} {event : ServerEvent Number hash}
    {params : Params Number hash} {outcome : Except JsError Document}
    (given : .parsed params outcome ∈ ((machine texts hash).step state event).2) :
    ∃ index waiting, event = .parse index ∧ state.parsing[index]? = some waiting ∧ waiting.params = params ∧
      (onParse texts.parse state.documents waiting.params.extensions waiting.query).2 = outcome := by
  cases event with
  | receive params' knownQueries => exact absurd given route_answers
  | lookedUp index found =>
    simp only [machine] at given
    split at given
    · cases given
    · exact absurd given route_answers
  | parse index =>
    simp only [machine] at given
    split at given
    · cases given
    · rename_i waiting at_
      obtain ⟨same, got⟩ := Answer.parsed.inj (List.mem_singleton.mp given)
      exact ⟨index, waiting, rfl, at_, same.symm, got.symm⟩
  | preload id =>
    simp only [machine] at given
    split at given <;> cases given
  | prewarm store id query => cases given
  | evictQuery key => cases given
  | evictDocument store key => cases given

theorem parse_answers {state : ServerState Number Document hash} {index : Nat} {waiting : Parsing Number hash}
    (at_ : state.parsing[index]? = some waiting) :
    .parsed waiting.params (onParse texts.parse state.documents waiting.params.extensions waiting.query).2 ∈
      ((machine texts hash).step state (.parse index)).2 := by
  simp only [machine, at_]
  exact List.mem_singleton_self _

theorem uses_of_parse {events past rest : List (ServerEvent Number hash)} {index : Nat}
    {waiting : Parsing Number hash} (split : events = past ++ .parse index :: rest)
    (at_ : ((machine texts hash).exec past).1.parsing[index]? = some waiting) : waiting.use ∈ uses texts events := by
  refine List.mem_filterMap.mpr ⟨.parsed waiting.use, (machine texts hash).mem_trace_iff.mpr ?_, rfl⟩
  exact ⟨past, .parse index, rest, split, by simp [touchedBy, at_]⟩

/-- Where every key was checked, a request is served what its own text parses to. -/
theorem served_own {past : List (ServerEvent Number hash)} {index : Nat}
    {waiting : Parsing Number hash} (at_ : ((machine texts hash).exec past).1.parsing[index]? = some waiting)
    (checked : ∀ use ∈ uses texts (past ++ [.parse index]), use.verified = true)
    (collisionFree : ∀ first ∈ uses texts (past ++ [.parse index]), ∀ second ∈ uses texts (past ++ [.parse index]),
      hash first.text = hash second.text → first.text = second.text) :
    resolvedText texts.registered waiting.params = some waiting.query ∧
      (onParse texts.parse ((machine texts hash).exec past).1.documents waiting.params.extensions
        waiting.query).2 = texts.parse waiting.query := by
  have holds : ServerHolds texts (touches texts past) _ := serverHolds_exec past
  have own : waiting.use ∈ uses texts (past ++ [.parse index]) := uses_of_parse rfl at_
  refine ⟨holds.parsing waiting (List.mem_of_getElem? at_), ?_⟩
  rw [onParse_outcome holds.documents waiting]
  apply congrArg texts.parse
  cases isKey : waiting.use.key with
  | none => rfl
  | some key =>
    cases held : holder (touches texts past) waiting.use.store key with
    | none =>
      rw [Option.bind_some, held]
      rfl
    | some use =>
      rw [Option.bind_some, held, Option.getD_some]
      obtain ⟨earlier, store, useKey⟩ := holder_mem held
      have member : use ∈ uses texts (past ++ [.parse index]) := uses_mono rfl earlier
      exact (stands_of_mem member).agree (stands_of_mem own) (checked use member) (checked _ own) useKey isKey store
        (collisionFree use member _ own)

/-- Every request of a run gets what its own text parses to exactly when,
whenever a request is parsed while its entry is from another use and the key was
not checked for both, the two texts parse to the same. -/
theorem documents_transparent_iff (texts : Texts Number Document) (events : List (ServerEvent Number hash))
    (collisionFree : ∀ first ∈ uses texts events, ∀ second ∈ uses texts events,
      hash first.text = hash second.text → first.text = second.text) :
    (∀ params outcome, .parsed params outcome ∈ ((machine texts hash).exec events).2 →
        (resolvedText texts.registered params).map texts.parse = some outcome) ↔
      ∀ past index rest waiting key use, events = past ++ .parse index :: rest →
        ((machine texts hash).exec past).1.parsing[index]? = some waiting → waiting.use.key = some key →
          holder (touches texts past) waiting.use.store key = some use →
            ¬(use.verified = true ∧ waiting.use.verified = true) →
              texts.parse use.text = texts.parse waiting.query := by
  constructor
  · intro transparent past index rest waiting key use split at_ isKey held _
    have holds : ServerHolds texts (touches texts past) _ := serverHolds_exec past
    have outcome := onParse_outcome holds.documents waiting
    rw [isKey, Option.bind_some, held, Option.getD_some] at outcome
    have given := (machine texts hash).mem_answers_iff.mpr ⟨past, .parse index, rest, split, parse_answers at_⟩
    have own := transparent _ _ given
    rw [holds.parsing waiting (List.mem_of_getElem? at_), Option.map_some, Option.some.injEq, outcome] at own
    exact own.symm
  · intro agrees params outcome given
    obtain ⟨past, event, rest, split, given⟩ := (machine texts hash).mem_answers_iff.mp given
    have holds : ServerHolds texts (touches texts past) _ := serverHolds_exec past
    obtain ⟨index, waiting, rfl, at_, rfl, rfl⟩ := parsed_step given
    rw [holds.parsing waiting (List.mem_of_getElem? at_), onParse_outcome holds.documents waiting, Option.map_some]
    refine congrArg some ?_
    cases isKey : waiting.use.key with
    | none => rfl
    | some key =>
      cases held : holder (touches texts past) waiting.use.store key with
      | none =>
        rw [Option.bind_some, held]
        rfl
      | some use =>
        simp only [Option.bind_some, held, Option.getD_some]
        obtain ⟨member, store, useKey⟩ := holder_mem held
        have member : use ∈ uses texts events := uses_mono split member
        have own : waiting.use ∈ uses texts events := uses_of_parse split at_
        by_cases both : use.verified = true ∧ waiting.use.verified = true
        · exact congrArg texts.parse ((stands_of_mem own).agree (stands_of_mem member) both.2 both.1 isKey useKey
            store.symm (collisionFree _ own _ member))
        · exact (agrees past index rest waiting key use split at_ isKey held both).symm

/-- A library that parses every text to itself, and a database without texts. -/
def plainTexts : Texts Nat String := ⟨.ok, fun _ => none⟩

/-- SHA-256, on one text. -/
def hotelsHash (text : String) : String :=
  if text = "{ hotels }" then "27bbe48b635eadce0177b0d3e47d8536cf3fc6245d45c0c1ad831c4f9ee2b8ea" else text

def persistedHotels : Params Nat hotelsHash where
  query := some "{ hotels }"
  extensions := ⟨none, some (.number 1), some (.string (hotelsHash "{ hotels }"))⟩
  checked _ known := known

/-- A persisted query, sent twice. -/
theorem documents_transparent_persisted :
    .parsed persistedHotels (.ok "{ hotels }") ∈ ((machine plainTexts hotelsHash).exec
      [.receive persistedHotels [], .parse 0, .receive persistedHotels [], .parse 0]).2 ∧
    (resolvedText plainTexts.registered persistedHotels).map plainTexts.parse = some (.ok "{ hotels }") := by
  have served : .parsed persistedHotels (.ok "{ hotels }") ∈ ((machine plainTexts hotelsHash).exec
      [.receive persistedHotels [], .parse 0, .receive persistedHotels [], .parse 0]).2 := .tail _ (.head _)
  have verified : ∀ use ∈ uses plainTexts
      [.receive persistedHotels [], .parse 0, .receive persistedHotels [], .parse 0], use.verified = true := by decide
  refine ⟨served, (documents_transparent_iff plainTexts _ (by decide)).mpr ?_ _ _ served⟩
  intro past index rest waiting key use split at_ isKey held unchecked
  exact absurd ⟨verified use (uses_mono split (holder_mem held).1), verified waiting.use (uses_of_parse split at_)⟩
    unchecked

/-- A request whose id is the empty string: no id for the plugin, and a key for
the cache. -/
def emptyId (query : String) : Params Nat hotelsHash where
  query := some query
  extensions := ⟨some (.string ""), none, none⟩
  checked _ known := nomatch known

/-- A request whose digest is of a form the persisted queries do not know. -/
def unknownForm (query : String) : Params Nat hotelsHash where
  query := some query
  extensions := ⟨none, some (.number 2), some (.string "digest")⟩
  checked _ known := nomatch known

/-- A query for the reviews gets the document of the query for the hotels that
was sent before it under the same empty id, or the same unchecked digest. -/
theorem documents_poisoned :
    (¬∀ params outcome, .parsed params outcome ∈ ((machine plainTexts hotelsHash).exec
      [.receive (emptyId "{ hotels }") [], .parse 0, .receive (emptyId "{ reviews }") [], .parse 0]).2 →
        (resolvedText plainTexts.registered params).map plainTexts.parse = some outcome) ∧
    ¬∀ params outcome, .parsed params outcome ∈ ((machine plainTexts hotelsHash).exec
      [.receive (unknownForm "{ hotels }") [], .parse 0, .receive (unknownForm "{ reviews }") [], .parse 0]).2 →
        (resolvedText plainTexts.registered params).map plainTexts.parse = some outcome := by
  constructor
  · intro transparent
    have own := transparent (emptyId "{ reviews }") (.ok "{ hotels }") (.tail _ (.head _))
    exact absurd (Except.ok.inj (Option.some.inj own)) (by decide)
  · intro transparent
    have own := transparent (unknownForm "{ reviews }") (.ok "{ hotels }") (.tail _ (.head _))
    exact absurd (Except.ok.inj (Option.some.inj own)) (by decide)

end Taql.DocumentTransparency

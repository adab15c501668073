import Taql.JavaScript
import Taql.SchemaRotation

/-! `loadSupergraph` of `packages/schema/src/schema.ts`, command by command: processes
load side by side, and any command to Redis may fail, carried out or not. -/
namespace Taql.SupergraphLoads
open JavaScript Redis Runs SchemaCache

variable {R : Type}

/-- A subgraph of a manifest, with what a load hands on of it as it is. -/
structure Subgraph (R : Type) where
  sdl : String
  rest : R

structure Supergraph (R : Type) where
  id : String
  manifest : List (Subgraph R)
  supergraph : String
  legacyDigest : Option String

/-- What a load finds besides Redis: the file, the GSR's id and manifest, what
`getLegacySubgraph` gives, and `optimizeSdl` and `stitch`, the latter with its SDL. -/
structure Outside (R : Type) where
  file : Except String (Supergraph R)
  gsr : Except String (String × List (Subgraph R))
  legacy : Except String (Subgraph R × String)
  optimizeSdl : String → Settling String
  stitch : List (Subgraph R) → Except String String

/-- A command that writes to the cache; after some the size of what is cached is measured. -/
inductive Command where
  | set (key value : String) (measured : Bool)
  | expire (key : String) (seconds : Nat)
  deriving DecidableEq

def Command.measured : Command → Bool
  | .set _ _ measured => measured
  | .expire _ _ => false

def Command.run : Command → Store → Store
  | .set key value _, redis => redis.set key value
  | .expire key seconds, redis => redis.expire key seconds

/-- What becomes of a command: it is answered, or it fails before or after the server
carried it out. -/
inductive Reply where
  | answered
  | refused (error : String)
  | lost (error : String)
  deriving DecidableEq

/-- What a load awaits: the cached schema, with the error of the GSR where it stands in
for it; the last digest; or the first of the commands that are left. -/
inductive Phase (R : Type) where
  | fallback (gsrError : Option String)
  | lastDigest (id : String) (manifest : List (Subgraph R))
  | caching (id : String) (manifest : List (Subgraph R)) (command : Command) (rest : List Command)
  | settled (result : Except String (Supergraph R))

/-- A command that a load awaits; `memory` of `updateSubgraphCacheSizeMetric`, which it
does not wait for, and whose callback only logs and sets a gauge. -/
inductive ClientCall where
  | connect
  | command
  | memory
  | disconnect
  deriving DecidableEq

/-- A command, and `memory` after it. -/
def ClientCall.sent (measured : Bool) : List ClientCall := .command :: if measured then [.memory] else []

/-- A call of `loadSupergraph`, with what it did to its `redisClient`. -/
structure Load (R : Type) where
  schema : SCHEMA
  options : Options
  outside : Outside R
  phase : Phase R
  client : List ClientCall

/-- What follows once a manifest is pulled. -/
def finish (schema : SCHEMA) (outside : Outside R) (id : String) (manifest : List (Subgraph R)) :
    Except String (Supergraph R) := do
  let (manifest, legacyDigest) ←
    if schema.legacySchemaFromGsr then pure (manifest, none)
    else do
      let (subgraph, digest) ← outside.legacy
      pure (manifest ++ [subgraph], some digest)
  let subgraphs ← (promiseAll (manifest.map fun subgraph =>
    let optimized := outside.optimizeSdl subgraph.sdl
    ⟨optimized.time, optimized.outcome.map fun sdl => { subgraph with sdl }⟩)).mapError JsError.message
  let reprintedSdl ← outside.stitch subgraphs
  return ⟨id, subgraphs, reprintedSdl, legacyDigest⟩

namespace Load
variable (load : Load R)

/-- The `finally` of a load, and the rest of it. -/
def leave (outcome : Except String (String × List (Subgraph R))) : Load R :=
  { load with
      client := if load.options.redisClient load.schema then load.client ++ [.disconnect] else load.client
      phase := .settled (outcome.bind fun pulled => finish load.schema load.outside pulled.1 pulled.2) }

/-- A load up to the first command it awaits. -/
def start (schema : SCHEMA) (options : Options) (outside : Outside R) : Load R :=
  let client := options.redisClient schema
  let load : Load R := ⟨schema, options, outside, .fallback none, if client then [.connect] else []⟩
  match options.source with
  | .file => { load with phase := .settled outside.file, client := [] }
  | .cache =>
    if client then load
    else load.leave (.error "Schema source is set to 'cache' but there is no configured default redis cache")
  | .gsr =>
    match outside.gsr with
    | .ok (id, manifest) =>
      if options.updatesCache && client then { load with phase := .lastDigest id manifest }
      else load.leave (.ok (id, manifest))
    | .error err =>
      if schema.legacySchemaFromGsr || !options.usesCacheOnFailure schema || !client then load.leave (.error err)
      else { load with phase := .fallback (some err) }

/-- The commands that cache a manifest, once the last digest is known. -/
def commands (lastSchemaDigest : Option String) (stringifiedManifest : String) : List Command :=
  match truthy load.schema.schemaDigest with
  | none => []
  | some schemaDigest =>
    .set schemaDigest stringifiedManifest true ::
      match truthy lastSchemaDigest with
      | none => []
      | some lastSchemaDigest =>
        if lastSchemaDigest ≠ schemaDigest then
          [.set (load.options.lastDigestKey load.schema) schemaDigest false,
            .expire lastSchemaDigest (2 * 24 * 60 * 60)]
        else []

/-- `loadSchemaFromCache`, by the reply to its command. -/
def read (json : Json (List (Subgraph R))) (redis : Store) : Reply → Except String (List (Subgraph R))
  | .answered => loadSchemaFromCache json load.schema (load.options.cacheKey load.schema) redis
  | .refused error | .lost error => .error error

/-- What a load does with the reply to its command, and what the command did. -/
def receive (json : Json (List (Subgraph R))) (redis : Store) (reply : Reply) : Load R × Store :=
  let called (measured : Bool) := { load with client := load.client ++ ClientCall.sent measured }
  match load.phase with
  | .fallback gsrError =>
    let read := load.read json redis reply
    ((called read.toBool).leave (match read with
      | .ok manifest => .ok ("unknown", manifest)
      | .error redisErr => .error (gsrError.getD redisErr)), redis)
  | .lastDigest id manifest =>
    match reply with
    | .answered =>
      let text := json.stringify manifest
      let lastSchemaDigest := redis.get (load.options.lastDigestKey load.schema)
      ({ called false with
          phase := .caching id manifest (.set (load.options.cacheKey load.schema) text true)
            (load.commands lastSchemaDigest text) }, redis)
    | .refused _ | .lost _ => ((called false).leave (.ok (id, manifest)), redis)
  | .caching id manifest command rest =>
    match reply with
    | .answered =>
      match rest with
      | [] => ((called command.measured).leave (.ok (id, manifest)), command.run redis)
      | next :: rest => ({ called command.measured with phase := .caching id manifest next rest }, command.run redis)
    | .refused _ => ((called false).leave (.ok (id, manifest)), redis)
    | .lost _ => ((called false).leave (.ok (id, manifest)), command.run redis)
  | .settled _ => (load, redis)

end Load

/-- Redis, the loads so far, and the manifest last cached under the key of the
configuration, which no load reads. -/
structure State (R : Type) where
  redis : Store
  loads : List (Load R)
  cached : Option (List (Subgraph R))

/-- A process with a digest or without one starts a load, a command gets its reply, or
time passes. -/
inductive Event (schema : SCHEMA) (R : Type) where
  | start (digest : Option (Digest schema)) (options : Options) (outside : Outside R)
  | reply (index : Nat) (reply : Reply)
  | pass (seconds : Nat)

/-- The configuration of a process. -/
def configured (schema : SCHEMA) (digest : Option (Digest schema)) : SCHEMA :=
  { schema with schemaDigest := digest.map Digest.name }

/-- What a command of a load that pulled a manifest leaves cached. -/
def Command.caches (schema : SCHEMA) (manifest : List (Subgraph R)) (cached : Option (List (Subgraph R))) :
    Command → Option (List (Subgraph R))
  | .set key _ _ => if key = schema.schemaCacheKey then some manifest else cached
  | .expire _ _ => cached

/-- What a reply to a load's command leaves cached. -/
def Load.caches (schema : SCHEMA) (load : Load R) (reply : Reply) (cached : Option (List (Subgraph R))) :
    Option (List (Subgraph R)) :=
  match load.phase, reply with
  | .caching _ manifest command _, .answered | .caching _ manifest command _, .lost _ =>
    command.caches schema manifest cached
  | _, _ => cached

/-- What a load answers once it has settled. -/
def Load.result (load : Load R) : List (Except String (Supergraph R)) :=
  match load.phase with
  | .settled result => [result]
  | _ => []

/-- An event, and what a load that settles by it answers, with its number. -/
def State.next {schema : SCHEMA} (json : Json (List (Subgraph R))) (state : State R) :
    Event schema R → State R × List (Nat × Except String (Supergraph R))
  | .start digest options outside =>
    let load := Load.start (configured schema digest) options outside
    ({ state with loads := state.loads ++ [load] }, load.result.map fun result => (state.loads.length, result))
  | .reply index reply =>
    match state.loads[index]? with
    | none => (state, [])
    | some load =>
      match load.phase with
      | .settled _ => (state, [])
      | _ =>
        let received := load.receive json state.redis reply
        (⟨received.2, state.loads.set index received.1, load.caches schema reply state.cached⟩,
          received.1.result.map fun result => (index, result))
  | .pass seconds => ({ state with redis := state.redis.pass seconds }, [])

/-- The loads of any processes of one configuration, on a server that may have a manifest cached. -/
def machine {schema : SCHEMA} (json : Json (List (Subgraph R))) (redis : Store) (cached : Option (List (Subgraph R))) :
    Machine (State R) (Event schema R) (Nat × Except String (Supergraph R)) where
  start := ⟨redis, [], cached⟩
  step state event := state.next json event

variable {schema : SCHEMA} {json : Json (List (Subgraph R))} {load : Load R} {redis : Store}

/-- Options that name no keys of their own, as those of every caller. -/
def Plain (options : Options) : Prop := options.schemaCacheKey = none ∧ options.lastSchemaDigestKey = none

/-- A command that writes nothing else under the key of the cache than a manifest's text. -/
def Command.Writes (schema : SCHEMA) (text : String) : Command → Prop
  | .set key value _ => key = schema.schemaCacheKey → value = text
  | .expire _ _ => True

/-- What a load awaits was brought about by what it found outside. -/
inductive Awaits (schema : SCHEMA) (json : Json (List (Subgraph R))) (source : Source) (outside : Outside R) :
    Phase R → Prop where
  | cache (cache : source = .cache) : Awaits schema json source outside (.fallback none)
  | fallback {err : String} (gsr : source = .gsr) (failed : outside.gsr = .error err) :
      Awaits schema json source outside (.fallback (some err))
  | lastDigest {id : String} {manifest : List (Subgraph R)} (gsr : source = .gsr)
      (answered : outside.gsr = .ok (id, manifest)) : Awaits schema json source outside (.lastDigest id manifest)
  | caching {id : String} {manifest : List (Subgraph R)} {command : Command} {rest : List Command} (gsr : source = .gsr)
      (answered : outside.gsr = .ok (id, manifest))
      (writes : ∀ other ∈ command :: rest, other.Writes schema (json.stringify manifest)) :
      Awaits schema json source outside (.caching id manifest command rest)
  | settled (result : Except String (Supergraph R)) : Awaits schema json source outside (.settled result)

/-- A load of a process of the configuration. -/
structure Fits (schema : SCHEMA) (json : Json (List (Subgraph R))) (load : Load R) : Prop where
  configured : ∃ digest : Option (Digest schema), load.schema = configured schema digest
  plain : Plain load.options
  written : ∀ id manifest, load.outside.gsr = .ok (id, manifest) → json.parse (json.stringify manifest) = .ok manifest
  awaits : Awaits schema json load.options.source load.outside load.phase

theorem Fits.key (fits : Fits schema json load) : load.options.cacheKey load.schema = schema.schemaCacheKey := by
  obtain ⟨digest, is⟩ := fits.configured
  rw [Options.cacheKey, fits.plain.1, Option.getD_none, is]
  rfl

theorem Fits.lastDigestKey (fits : Fits schema json load) :
    load.options.lastDigestKey load.schema = schema.lastSchemaDigestKey := by
  obtain ⟨digest, is⟩ := fits.configured
  rw [Options.lastDigestKey, fits.plain.2, Option.getD_none, is]
  rfl

theorem writes_commands (fits : Fits schema json load) (last : Option String) (text : String) :
    ∀ command ∈ load.commands last text, command.Writes schema text := by
  obtain ⟨digest, is⟩ := fits.configured
  intro command member
  unfold Load.commands at member
  split at member
  · simp at member
  · next name named =>
    rw [is] at named
    cases digest with
    | none => cases named
    | some digest =>
      cases (truthy_name digest).symm.trans named
      have other : digest.name ≠ schema.schemaCacheKey := digest.notCacheKey
      rcases List.mem_cons.mp member with rfl | later
      · exact fun _ => rfl
      · split at later
        · simp at later
        · split at later
          · rcases List.mem_cons.mp later with rfl | last
            · intro same
              rw [fits.lastDigestKey] at same
              exact absurd same schema.distinct.symm
            · rw [List.mem_singleton.mp last]
              trivial
          · simp at later

/-- What is read under the key of the cache is the manifest last cached. -/
def Kept (schema : SCHEMA) (json : Json (List (Subgraph R))) (redis : Store) (cached : Option (List (Subgraph R))) :
    Prop :=
  ∀ text, redis.get schema.schemaCacheKey = some text →
    ∃ manifest, cached = some manifest ∧ json.parse text = .ok manifest

theorem Load.receive_same (load : Load R) (json : Json (List (Subgraph R))) (redis : Store) (reply : Reply) :
    (load.receive json redis reply).1.schema = load.schema ∧ (load.receive json redis reply).1.options = load.options ∧
      (load.receive json redis reply).1.outside = load.outside := by
  unfold Load.receive
  split
  · exact ⟨rfl, rfl, rfl⟩
  · cases reply <;> exact ⟨rfl, rfl, rfl⟩
  · cases reply with
    | answered =>
      dsimp only
      split <;> exact ⟨rfl, rfl, rfl⟩
    | refused | lost => exact ⟨rfl, rfl, rfl⟩
  · exact ⟨rfl, rfl, rfl⟩

theorem awaits_receive (fits : Fits schema json load) (redis : Store) (reply : Reply) :
    Awaits schema json load.options.source load.outside (load.receive json redis reply).1.phase := by
  have awaits := fits.awaits
  unfold Load.receive
  generalize is : load.phase = phase at awaits
  cases awaits with
  | cache | fallback => exact .settled _
  | lastDigest gsr answered =>
    cases reply with
    | answered =>
      refine .caching gsr answered fun command member => ?_
      rcases List.mem_cons.mp member with rfl | later
      · exact fun _ => rfl
      · exact writes_commands fits _ _ command later
    | refused | lost => exact .settled _
  | @caching _ _ command rest gsr answered writes =>
    cases reply with
    | answered =>
      cases rest with
      | nil => exact .settled _
      | cons next rest => exact .caching gsr answered fun other member => writes other (List.mem_cons_of_mem _ member)
    | refused | lost => exact .settled _
  | settled result =>
    change Awaits schema json load.options.source load.outside load.phase
    rw [is]
    exact .settled result

theorem fits_receive (fits : Fits schema json load) (redis : Store) (reply : Reply) :
    Fits schema json (load.receive json redis reply).1 := by
  obtain ⟨sameSchema, sameOptions, sameOutside⟩ := load.receive_same json redis reply
  refine ⟨?_, ?_, ?_, ?_⟩
  · rw [sameSchema]
    exact fits.configured
  · rw [sameOptions]
    exact fits.plain
  · rw [sameOutside]
    exact fits.written
  · rw [sameOptions, sameOutside]
    exact awaits_receive fits redis reply

theorem kept_run {cached : Option (List (Subgraph R))} {manifest : List (Subgraph R)}
    (kept : Kept schema json redis cached)
    (written : json.parse (json.stringify manifest) = .ok manifest)
    {command : Command} (writes : command.Writes schema (json.stringify manifest)) :
    Kept schema json (command.run redis) (command.caches schema manifest cached) := by
  intro text held
  cases command with
  | expire key seconds =>
    rw [Command.run, Store.get_expire] at held
    exact kept text held
  | set key value measured =>
    rw [Command.run, Store.get_set] at held
    by_cases same : key = schema.schemaCacheKey
    · rw [if_pos same.symm] at held
      cases held
      exact ⟨manifest, if_pos same, writes same ▸ written⟩
    · rw [if_neg (Ne.symm same)] at held
      rw [Command.caches, if_neg same]
      exact kept text held

/-- A reply leaves under the key of the cache what was cached last. -/
theorem kept_receive {cached : Option (List (Subgraph R))} (fits : Fits schema json load)
    (kept : Kept schema json redis cached) (reply : Reply) :
    Kept schema json (load.receive json redis reply).2 (load.caches schema reply cached) := by
  have awaits := fits.awaits
  unfold Load.receive Load.caches
  generalize load.phase = phase at awaits
  cases awaits with
  | cache | fallback | settled => exact kept
  | lastDigest => cases reply <;> exact kept
  | @caching id manifest command rest gsr answered writes =>
    have ran := kept_run kept (fits.written id manifest answered) (writes command List.mem_cons_self)
    cases reply with
    | answered => cases rest <;> exact ran
    | refused => exact kept
    | lost => exact ran

/-- What a load may answer, as it is given what it finds outside, when a manifest is cached. -/
inductive Answers (cached : Option (List (Subgraph R))) (own : SCHEMA) (outside : Outside R) :
    Source → Except String (Supergraph R) → Prop where
  | file : Answers cached own outside .file outside.file
  | gsr {id : String} {manifest : List (Subgraph R)} (answered : outside.gsr = .ok (id, manifest)) :
      Answers cached own outside .gsr (finish own outside id manifest)
  | gsrError {err : String} (failed : outside.gsr = .error err) : Answers cached own outside .gsr (.error err)
  | fallback {err : String} {manifest : List (Subgraph R)} (failed : outside.gsr = .error err)
      (last : cached = some manifest) : Answers cached own outside .gsr (finish own outside "unknown" manifest)
  | cacheError (err : String) : Answers cached own outside .cache (.error err)
  | cache {manifest : List (Subgraph R)} (last : cached = some manifest) :
      Answers cached own outside .cache (finish own outside "unknown" manifest)

def Load.Answers (cached : Option (List (Subgraph R))) (load : Load R) : Except String (Supergraph R) → Prop :=
  SupergraphLoads.Answers cached load.schema load.outside load.options.source

/-- A load that can be served by the cache only. -/
def Load.Reads (load : Load R) : Prop :=
  load.options.source = .cache ∨ load.options.source = .gsr ∧ ∃ err, load.outside.gsr = .error err

theorem awaits_start (own : SCHEMA) (options : Options) (outside : Outside R) :
    Awaits schema json options.source outside (Load.start own options outside).phase := by
  unfold Load.start
  cases source : options.source with
  | file => exact .settled _
  | cache =>
    dsimp only
    split
    · exact .cache rfl
    · exact .settled _
  | gsr =>
    cases gsr : outside.gsr with
    | ok pulled =>
      dsimp only
      split
      · exact .lastDigest rfl gsr
      · exact .settled _
    | error err =>
      dsimp only
      split
      · exact .settled _
      · exact .fallback rfl gsr

theorem start_same (own : SCHEMA) (options : Options) (outside : Outside R) :
    (Load.start own options outside).schema = own ∧ (Load.start own options outside).options = options ∧
      (Load.start own options outside).outside = outside := by
  unfold Load.start
  cases source : options.source with
  | file => exact ⟨rfl, rfl, rfl⟩
  | cache =>
    dsimp only
    split <;> exact ⟨rfl, rfl, rfl⟩
  | gsr =>
    cases outside.gsr <;> dsimp only <;> split <;> exact ⟨rfl, rfl, rfl⟩

/-! ### Whole runs -/

structure Holds (schema : SCHEMA) (json : Json (List (Subgraph R))) (state : State R) : Prop where
  loads : ∀ load ∈ state.loads, Fits schema json load
  kept : Kept schema json state.redis state.cached

/-- A load that is started is given no keys of its own, and a manifest that can be
written as a text and read back. -/
def Event.Plain (json : Json (List (Subgraph R))) : Event schema R → Prop
  | .start _ options outside => SupergraphLoads.Plain options ∧
      ∀ id manifest, outside.gsr = .ok (id, manifest) → json.parse (json.stringify manifest) = .ok manifest
  | .reply _ _ | .pass _ => True

theorem kept_pass {cached : Option (List (Subgraph R))} (kept : Kept schema json redis cached) (seconds : Nat) :
    Kept schema json (redis.pass seconds) cached := by
  intro text held
  apply kept text
  obtain ⟨entry, left, rfl⟩ := Option.map_eq_some_iff.mp held
  obtain ⟨earlier, found, lasts⟩ := Option.bind_eq_some_iff.mp left
  have same : entry.value = earlier.value := by
    unfold Entry.after at lasts
    split at lasts
    · cases lasts
      rfl
    · split at lasts <;> cases lasts
      rfl
  rw [same, Store.get, found]
  rfl

variable {state : State R}

/-- A reply reaches a load that has not settled, or is none to anything. -/
theorem next_reply (json : Json (List (Subgraph R))) (state : State R) (index : Nat) (reply : Reply) :
    (∃ load, state.loads[index]? = some load ∧ load.result = [] ∧
      state.next json (.reply index reply : Event schema R) =
        (⟨(load.receive json state.redis reply).2, state.loads.set index (load.receive json state.redis reply).1,
            load.caches schema reply state.cached⟩,
          (load.receive json state.redis reply).1.result.map fun result => (index, result))) ∨
      state.next json (.reply index reply : Event schema R) = (state, []) := by
  cases at_ : state.loads[index]? with
  | none => exact .inr (by simp only [State.next, at_])
  | some load =>
    cases phase : load.phase with
    | settled result => exact .inr (by simp only [State.next, at_, phase])
    | fallback | lastDigest | caching =>
      exact .inl ⟨load, rfl, by simp only [Load.result, phase], by simp only [State.next, at_, phase]⟩

theorem holds_next (holds : Holds schema json state) {event : Event schema R} (plain : event.Plain json) :
    Holds schema json (state.next json event).1 := by
  cases event with
  | start digest options outside =>
    refine ⟨fun load member => ?_, holds.kept⟩
    rcases List.mem_append.mp member with earlier | new
    · exact holds.loads load earlier
    · rw [List.mem_singleton.mp new]
      obtain ⟨sameSchema, sameOptions, sameOutside⟩ := start_same (configured schema digest) options outside
      refine ⟨⟨digest, sameSchema⟩, ?_, ?_, ?_⟩
      · rw [sameOptions]
        exact plain.1
      · rw [sameOutside]
        exact plain.2
      · rw [sameOptions, sameOutside]
        exact awaits_start _ options outside
  | reply index reply =>
    rcases next_reply json state index reply with ⟨load, at_, unsettled, is⟩ | nothing
    · rw [is]
      have fits := holds.loads load (List.mem_of_getElem? at_)
      refine ⟨fun other member => ?_, kept_receive fits holds.kept reply⟩
      rcases List.mem_or_eq_of_mem_set member with earlier | rfl
      · exact holds.loads other earlier
      · exact fits_receive fits state.redis reply
    · rwa [nothing]
  | pass seconds => exact ⟨holds.loads, kept_pass holds.kept seconds⟩

theorem holds_exec {cached : Option (List (Subgraph R))} (kept : Kept schema json redis cached)
    (events : List (Event schema R)) (plain : ∀ event ∈ events, event.Plain json) :
    Holds schema json ((machine json redis cached).exec events).1 := by
  refine (machine json redis cached).exec_invariant
    (fun past state => (∀ event ∈ past, event.Plain json) → Holds schema json state)
    (fun _ => ⟨List.forall_mem_nil _, kept⟩) (fun past event held plain => ?_) events plain
  have before := held fun earlier member => plain earlier (List.mem_append_left _ member)
  generalize ((machine json redis cached).exec past).1 = state at before
  exact holds_next before (plain event (by simp))

/-- A manifest of one subgraph, and texts as far as they are about it. -/
def queries : List (Subgraph Unit) := [⟨"type Query", ()⟩]

def found (gsr : Except String (String × List (Subgraph Unit))) : Outside Unit where
  file := .error "no schema file specified"
  gsr := gsr
  legacy := .ok (⟨"type Query", ()⟩, "9e107d9d372bb6826bd81d3542a419d6")
  optimizeSdl sdl := ⟨0, .ok sdl⟩
  stitch _ := .ok "type Query"

/-- How many commands a load may still await. -/
def Load.left (load : Load R) : Nat :=
  match load.phase with
  | .fallback _ => 1
  | .lastDigest _ _ => 5
  | .caching _ _ _ rest => rest.length + 1
  | .settled _ => 0

/-- How often a load may still measure what is cached. -/
def Load.measures (load : Load R) : Nat :=
  match load.phase with
  | .fallback _ => 1
  | .lastDigest _ _ => 2
  | .caching _ _ command rest => (command :: rest).countP Command.measured
  | .settled _ => 0

/-- What a load that may still do so much sends between the two ends of its client. -/
structure Sends (calls : List ClientCall) (left measures : Nat) : Prop where
  only : ∀ call ∈ calls, call = .command ∨ call = .memory
  command : calls.count .command + left ≤ 5
  memory : calls.count .memory + measures ≤ 2

theorem Sends.sent {calls : List ClientCall} {left measures less fewer : Nat} (sends : Sends calls left measures)
    {measured : Bool} (shorter : less + 1 ≤ left) (fewer' : fewer + measured.toNat ≤ measures) :
    Sends (calls ++ ClientCall.sent measured) less fewer := by
  obtain ⟨only, command, memory⟩ := sends
  refine ⟨fun call member => ?_, ?_, ?_⟩
  · rcases List.mem_append.mp member with earlier | new
    · exact only call earlier
    · cases measured with
      | false => exact .inl (List.mem_singleton.mp new)
      | true => simpa [ClientCall.sent] using new
  · cases measured <;> simp [ClientCall.sent] <;> omega
  · cases measured <;> simp [ClientCall.sent] at fewer' ⊢ <;> omega

theorem length_commands (load : Load R) (last : Option String) (text : String) :
    (load.commands last text).length ≤ 3 := by
  unfold Load.commands
  split
  · simp
  · split
    · simp
    · split <;> simp

/-- A load whose commands are answered, one after another, with nothing in between. -/
def undisturbed (json : Json (List (Subgraph R))) : Nat → Load R × Store → Load R × Store
  | 0, run => run
  | replies + 1, (load, redis) => undisturbed json replies (load.receive json redis .answered)

theorem undisturbed_settled {result : Except String (Supergraph R)} (settled : load.phase = .settled result)
    (json : Json (List (Subgraph R))) (redis : Store) (replies : Nat) :
    undisturbed json replies (load, redis) = (load, redis) := by
  induction replies with
  | zero => rfl
  | succ replies ih =>
    have received : load.receive json redis .answered = (load, redis) := by
      simp only [Load.receive, settled]
    rw [undisturbed, received, ih]

theorem undisturbed_caching {id : String} {manifest : List (Subgraph R)} {command : Command} {rest : List Command}
    (phase : load.phase = .caching id manifest command rest) (json : Json (List (Subgraph R))) (redis : Store)
    {replies : Nat} (enough : rest.length < replies) :
    (undisturbed json replies (load, redis)).1.phase = .settled (finish load.schema load.outside id manifest) ∧
      (undisturbed json replies (load, redis)).2 =
        (command :: rest).foldl (fun redis command => command.run redis) redis := by
  induction rest generalizing load command redis replies with
  | nil =>
    obtain ⟨replies, rfl⟩ := Nat.exists_eq_add_of_lt enough
    simp only [List.length_nil, Nat.zero_add, undisturbed, Load.receive, phase]
    rw [undisturbed_settled rfl]
    exact ⟨rfl, rfl⟩
  | cons next rest ih =>
    cases replies with
    | zero => exact absurd enough (Nat.not_lt_zero _)
    | succ replies =>
      simp only [undisturbed, Load.receive, phase]
      exact ih rfl (command.run redis) (Nat.lt_of_succ_lt_succ enough)

theorem foldl_commands (load : Load R) (text : String) (redis : Store) :
    (Command.set (load.options.cacheKey load.schema) text true ::
        load.commands (redis.get (load.options.lastDigestKey load.schema)) text).foldl
      (fun redis command => command.run redis) redis =
      cacheManifest load.schema (load.options.cacheKey load.schema) (load.options.lastDigestKey load.schema)
        text redis := by
  unfold Load.commands cacheManifest
  cases truthy load.schema.schemaDigest with
  | none => rfl
  | some digest =>
    cases truthy (redis.get (load.options.lastDigestKey load.schema)) with
    | none => rfl
    | some last =>
      dsimp only
      split <;> rfl

/-- The id a load gives the supergraph. -/
def Outside.id (outside : Outside R) : Source → String
  | .gsr =>
    match outside.gsr with
    | .ok pulled => pulled.1
    | .error _ => "unknown"
  | .file | .cache => "unknown"

theorem undisturbed_fallback {gsrError : Option String} (phase : load.phase = .fallback gsrError)
    (json : Json (List (Subgraph R))) (redis : Store) (replies : Nat) :
    (undisturbed json (replies + 1) (load, redis)).1.phase =
        .settled (match loadSchemaFromCache json load.schema (load.options.cacheKey load.schema) redis with
          | .ok manifest => finish load.schema load.outside "unknown" manifest
          | .error redisErr => .error (gsrError.getD redisErr)) ∧
      (undisturbed json (replies + 1) (load, redis)).2 = redis := by
  simp only [undisturbed, Load.receive, phase, Load.read]
  rw [undisturbed_settled rfl]
  cases loadSchemaFromCache json load.schema (load.options.cacheKey load.schema) redis <;> exact ⟨rfl, rfl⟩

theorem undisturbed_lastDigest {id : String} {manifest : List (Subgraph R)}
    (phase : load.phase = .lastDigest id manifest)
    (json : Json (List (Subgraph R))) (redis : Store) :
    (undisturbed json 5 (load, redis)).1.phase = .settled (finish load.schema load.outside id manifest) ∧
      (undisturbed json 5 (load, redis)).2 = cacheManifest load.schema (load.options.cacheKey load.schema)
        (load.options.lastDigestKey load.schema) (json.stringify manifest) redis := by
  have few := length_commands load (redis.get (load.options.lastDigestKey load.schema)) (json.stringify manifest)
  rw [← foldl_commands]
  simp only [undisturbed.eq_2 json 4, Load.receive, phase]
  exact undisturbed_caching rfl json redis (Nat.lt_succ_of_le few)

/-- A load that is not disturbed does what `loadSupergraph` does in one step. -/
theorem undisturbed_eq (json : Json (List (Subgraph R))) (own : SCHEMA) (options : Options) (outside : Outside R)
    (other : options.source ≠ .file) (file : Except String (List (Subgraph R))) (redis : Store) :
    (undisturbed json 5 (Load.start own options outside, redis)).1.phase =
        .settled ((loadSupergraph json own options file (outside.gsr.map Prod.snd) redis).1.bind
          (finish own outside (outside.id options.source))) ∧
      (undisturbed json 5 (Load.start own options outside, redis)).2 =
        (loadSupergraph json own options file (outside.gsr.map Prod.snd) redis).2 := by
  unfold loadSupergraph pull Load.start
  rw [if_neg other]
  cases source : options.source with
  | file => exact absurd source other
  | cache =>
    cases client : options.redisClient own with
    | true =>
      simp only [if_true]
      obtain ⟨phase, same⟩ := undisturbed_fallback
        (rfl : Load.phase ⟨own, options, outside, .fallback none, [.connect]⟩ = _) json redis 4
      rw [phase, same]
      cases loadSchemaFromCache json own (options.cacheKey own) redis <;> exact ⟨rfl, rfl⟩
    | false =>
      simp only [Bool.false_eq_true, if_false]
      rw [undisturbed_settled rfl]
      exact ⟨rfl, rfl⟩
  | gsr =>
    cases gsr : outside.gsr with
    | ok pulled =>
      simp only [Outside.id, gsr, Except.map, Bool.not_false, Bool.true_and]
      split
      · next updates =>
        obtain ⟨phase, same⟩ := undisturbed_lastDigest
          (rfl : Load.phase ⟨own, options, outside, .lastDigest pulled.1 pulled.2, _⟩ = _) json redis
        rw [phase, same]
        exact ⟨rfl, rfl⟩
      · rw [undisturbed_settled rfl]
        exact ⟨rfl, rfl⟩
    | error err =>
      simp only [Outside.id, gsr, Except.map]
      split
      · rw [undisturbed_settled rfl]
        exact ⟨rfl, rfl⟩
      · obtain ⟨phase, same⟩ := undisturbed_fallback
          (rfl : Load.phase ⟨own, options, outside, .fallback (some err), _⟩ = _) json redis 4
        rw [phase, same]
        cases loadSchemaFromCache json own (options.cacheKey own) redis <;> exact ⟨rfl, rfl⟩

end Taql.SupergraphLoads

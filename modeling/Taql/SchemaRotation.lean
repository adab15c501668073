import Taql.SchemaCache

/-! Which cached schemas persist. Once the digest of the last process is recorded,
each process leaves its own and lets the others expire; but a process records its
digest only where it finds another one recorded, and no process is the first. -/
namespace Taql.SchemaRotation
open Redis Runs SchemaCache

variable {Manifest : Type} {schema : SCHEMA} {json : Json Manifest}

section Commands

variable (digest : Digest schema) (text : String) (redis : Store)

/-- The server after a process. -/
abbrev deployed : Store :=
  cacheManifest (schema.deployed digest) schema.schemaCacheKey schema.lastSchemaDigestKey text redis

/-- The key a process names by its digest persists: what it lets expire is another. -/
theorem persists_deployed : (deployed digest text redis).Persists digest.name := by
  rw [deployed, cacheManifest_deployed]
  cases truthy (redis.get schema.lastSchemaDigestKey) with
  | none => simp
  | some last =>
    by_cases changed : last ≠ digest.name
    · simp [changed, Ne.symm changed]
    · simp [changed]

variable {redis}

/-- Where no digest is recorded, a process records none and lets nothing expire. -/
theorem deployed_of_none (unrecorded : redis.get schema.lastSchemaDigestKey = none) :
    (deployed digest text redis).get schema.lastSchemaDigestKey = none ∧
      ∀ other : Digest schema, redis.Persists other.name → (deployed digest text redis).Persists other.name := by
  rw [deployed, cacheManifest_deployed, unrecorded, truthy_none]
  constructor
  · simp [unrecorded, digest.notDigestKey.symm, schema.distinct.symm]
  · intro other persists
    simp [persists]

/-- Where a digest is recorded, a process records its own. -/
theorem deployed_records {recorded : Digest schema}
    (last : redis.get schema.lastSchemaDigestKey = some recorded.name)
    (lasts : redis.Persists schema.lastSchemaDigestKey) :
    (deployed digest text redis).get schema.lastSchemaDigestKey = some digest.name ∧
      (deployed digest text redis).Persists schema.lastSchemaDigestKey := by
  rw [deployed, cacheManifest_deployed, last, truthy_name]
  by_cases same : recorded.name = digest.name
  · simp [last, lasts, same, digest.notDigestKey.symm, schema.distinct.symm]
  · simp [same, recorded.notDigestKey.symm]

/-- Of the keys other digests name, it lets the one recorded expire, and touches no other. -/
theorem persists_deployed_of_ne {recorded other : Digest schema}
    (last : redis.get schema.lastSchemaDigestKey = some recorded.name) (different : other ≠ digest) :
    (deployed digest text redis).Persists other.name ↔ other ≠ recorded ∧ redis.Persists other.name := by
  have names : other.name ≠ digest.name := name_ne different
  rw [deployed, cacheManifest_deployed, last, truthy_name]
  by_cases same : recorded = digest
  · simp [same, different, names, other.notCacheKey]
  · have apart : other.name ≠ recorded.name ↔ other ≠ recorded :=
      ⟨fun ne => fun eq => ne (congrArg Digest.name eq), name_ne⟩
    simp [name_ne same, names, ← apart, other.notCacheKey, other.notDigestKey]

end Commands

/-- The digest of the last process is recorded, and every other process's key has
an expiry or is gone. -/
structure Rotating (state : State schema) : Prop where
  superseded : Superseded state
  recorded : ∃ last, state.written.head? = some last ∧
    state.redis.get schema.lastSchemaDigestKey = some last.name
  lasts : state.redis.Persists schema.lastSchemaDigestKey

/-- Once a digest is recorded the rotation goes on through any further processes,
rollbacks included. -/
theorem rotating_exec {start : State schema} (rotating : Rotating start) (events : List (Event schema Manifest)) :
    Rotating ((machine json start).exec events).1 := by
  refine (machine json start).exec_invariant (fun _ => Rotating) rotating ?_ events
  rintro past (⟨digest, manifest⟩ | ⟨seconds⟩) ⟨superseded, ⟨last, head, recorded⟩, lasts⟩
  · rw [step_run]
    refine ⟨?_, ⟨digest, rfl, (deployed_records digest _ recorded lasts).1⟩,
      (deployed_records digest _ recorded lasts).2⟩
    intro other written
    by_cases same : other = digest
    · subst same
      simpa using persists_deployed other _ _
    · have earlier : other ∈ ((machine json start).exec past).1.written := by simpa [same] using written
      have before := superseded other earlier
      rw [head] at before
      rw [persists_deployed_of_ne digest _ recorded same, before]
      simp [Ne.symm same, eq_comm]
  · rw [step_pass]
    refine ⟨fun other written => ?_, ⟨last, head, ?_⟩, ?_⟩
    · simpa using superseded other written
    · simpa [Store.get_pass_of_persists lasts] using recorded
    · simpa using lasts

/-- No digest is recorded, and no key named by one was let expire. -/
structure Unrecorded (past : List (Event schema Manifest)) (state : State schema) : Prop where
  none : state.redis.get schema.lastSchemaDigestKey = none
  written : ∀ digest, digest ∈ state.written ↔ digest ∈ digests past
  persist : ∀ digest ∈ state.written, state.redis.Persists digest.name

@[simp] theorem digests_snoc_run (past : List (Event schema Manifest)) (digest : Digest schema)
    (manifest : Manifest) : digests (past ++ [.run digest manifest]) = digests past ++ [digest] := by
  simp [digests]

@[simp] theorem digests_snoc_pass (past : List (Event schema Manifest)) (seconds : Nat) :
    digests (past ++ [.pass seconds]) = digests past := by
  simp [digests]

/-- From an empty server no process ever records a digest. -/
theorem bootstrap_unrecorded (events : List (Event schema Manifest)) :
    Unrecorded events ((machine json bootstrap).exec events).1 := by
  refine (machine json bootstrap).exec_invariant Unrecorded ⟨rfl, fun _ => by simp [digests, machine, bootstrap],
    by simp [machine, bootstrap]⟩ ?_ events
  rintro past (⟨digest, manifest⟩ | ⟨seconds⟩) ⟨none, written, persist⟩
  · rw [step_run]
    refine ⟨(deployed_of_none digest _ none).1, fun other => ?_, fun other member => ?_⟩
    · simp [written, or_comm]
    · rcases List.mem_cons.mp member with rfl | earlier
      · exact persists_deployed other _ _
      · exact (deployed_of_none digest _ none).2 other (persist other earlier)
  · rw [step_pass]
    refine ⟨Store.get_pass_of_none none seconds, fun other => ?_, fun other member => ?_⟩
    · simp [written]
    · simpa using persist other member

/-- So every key named by a digest persists, and there should be one only. -/
theorem superseded_bootstrap_iff (past : List (Event schema Manifest)) (digest : Digest schema)
    (manifest : Manifest) :
    Superseded ((machine json bootstrap).exec (past ++ [.run digest manifest])).1 ↔
      ∀ earlier ∈ digests past, earlier = digest := by
  have unrecorded : Unrecorded (past ++ [.run digest manifest])
      ((machine json bootstrap).exec (past ++ [.run digest manifest])).1 := bootstrap_unrecorded _
  have head : ((machine json bootstrap).exec (past ++ [.run digest manifest])).1.written.head? = some digest := by
    rw [Machine.exec_snoc, step_run]
    rfl
  constructor
  · intro superseded earlier written
    have member := (unrecorded.written earlier).mpr (by simp [written])
    have current := (superseded earlier member).mp (unrecorded.persist earlier member)
    exact Option.some.inj (current.symm.trans head)
  · intro same other member
    have only : other = digest := by
      have written := (unrecorded.written other).mp member
      simp only [digests_snoc_run, List.mem_append, List.mem_singleton] at written
      exact written.elim (same other) id
    rw [head, only]
    exact iff_of_true (unrecorded.persist digest (only ▸ member)) rfl

/-- From an empty server, after every process its own key persists and every other
one written so far has an expiry or is gone, exactly where all have one digest. -/
theorem superseded_iff (events : List (Event schema Manifest)) :
    (∀ past digest manifest rest, events = past ++ .run digest manifest :: rest →
      Superseded ((machine json bootstrap).exec (past ++ [.run digest manifest])).1) ↔
    ∀ first ∈ digests events, ∀ second ∈ digests events, first = second := by
  constructor
  · induction events using List.reverseRecOn with
    | nil =>
      intro _ first none
      cases none
    | append_singleton past event ih =>
      intro superseded
      cases event with
      | pass seconds =>
        rw [digests_snoc_pass]
        refine ih fun before digest manifest rest split => ?_
        exact superseded before digest manifest (rest ++ [.pass seconds]) (by simp [split])
      | run digest manifest =>
        have earlier := superseded_bootstrap_iff past digest manifest |>.mp (superseded past digest manifest [] rfl)
        have all : ∀ other ∈ digests (past ++ [.run digest manifest]), other = digest := by
          simpa [or_imp, forall_and] using earlier
        intro first one second two
        rw [all first one, all second two]
  · rintro same past digest manifest rest rfl
    refine (superseded_bootstrap_iff past digest manifest).mpr fun earlier written => ?_
    apply same earlier _ digest
    · simp [digests]
    · simp only [digests, List.filterMap_append, List.mem_append]
      exact .inl written

/-- `SCHEMA` as its defaults have it. -/
def defaults : SCHEMA where
  schemaDigest := none
  legacySchemaFromGsr := false
  trySchemaFromCache := true
  schemaCacheKey := "SCHEMA_CACHE"
  lastSchemaDigestKey := "LAST_SCHEMA_DIGEST"
  distinct := by decide

/-- The digest of a schema whose id is 1, and of one whose id is 2. -/
def one : Digest defaults := ⟨"MQ==", by decide, by decide, by decide⟩

def two : Digest defaults := ⟨"Mg==", by decide, by decide, by decide⟩

/-- After the second of two deployments the first one's key still persists. -/
theorem superseded_lingers : ¬ Superseded
    ((machine (⟨id, .ok⟩ : Json String) bootstrap).exec [.run one "[]", .run two "[]"]).1 := by
  intro superseded
  have same : one = two := by
    refine (superseded_bootstrap_iff [.run one "[]"] two "[]").mp superseded one ?_
    simp [digests]
  exact absurd (congrArg Digest.name same) (by decide)

/-- Where the first digest was recorded by hand, the same two deployments rotate. -/
example : Superseded ((machine (⟨id, .ok⟩ : Json String)
    ⟨(Store.empty.set "MQ==" "[]").set "LAST_SCHEMA_DIGEST" "MQ==", [one]⟩).exec [.run two "[]"]).1 := by
  refine (rotating_exec ⟨?_, ⟨one, rfl, rfl⟩, ⟨_, rfl⟩⟩ _).superseded
  intro digest written
  rw [List.mem_singleton.mp written]
  exact iff_of_true ⟨_, rfl⟩ rfl

end Taql.SchemaRotation

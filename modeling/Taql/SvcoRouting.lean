import Taql.ClusterSupervision
import Taql.Headers
import Taql.ServiceOverrides

/-! `packages/server/src/useSvco.ts` in the workers of a cluster: a request with
overrides that may change the schema is sent on to the worker its text picks, which
serves it under them; every other request is served where it comes in, without. -/
namespace Taql.SvcoRouting
open JavaScript Headers ServiceOverrides Cluster ClusterSupervision

/-- What is used of `SERVER_PARAMS`. -/
structure ServerParams where
  port : Int
  clusterParallelism : Nat

/-- What is used of a request: `protocol` and `url` go into the target. -/
structure Request where
  protocol : String
  url : String
  headers : GenericHeaders

/-- `${protocol}://127.0.0.1:${port}${url}`. -/
structure Target where
  protocol : String
  port : Int
  url : String

/-- What `proxy.web` makes of a request: it is answered, or the callback is called. -/
inductive Proxied where
  | answered
  | called (error : Option JsError)

/-- What comes of a request in a worker: where it is sent on to, what
`ctx.state.taql.SVCO` is each time the middlewares after this one run, and what the
promise is rejected with. -/
structure Outcome where
  forwarded : Option Target
  handled : List (Option String)
  rejected : Option JsError

/-- `koa-compose` runs what follows a middleware once. -/
def nextTwice : JsError := ⟨"Error", "next() called multiple times"⟩

/-- `length` of a string, in UTF-16 code units. -/
def svcoLength (svco : String) : Nat :=
  svco.toList.foldl (fun length char => length + if char.toNat < 0x10000 then 1 else 2) 0

def expectedWorkerId (params : ServerParams) (svco : String) : Nat :=
  svcoLength svco % params.clusterParallelism + 1

/-- Where a worker listens for the others. -/
def svcoPort (params : ServerParams) (id : Nat) : Int := params.port - id

def svcoHeader (request : Request) : Option String :=
  getHeaderOrDefault some (some request.headers) "x-service-overrides" none

/-- The overrides a request is served under, if any. -/
def overriding (nonstitchedRoles : List String) (request : Request) : Option String :=
  (svcoHeader request).filter fun svco => svco ≠ "" && isOverriddenBy svco nonstitchedRoles

/-- After a target has answered nothing follows: its promise never settles. -/
def forward (target : Target) : Proxied → Outcome
  | .answered => ⟨some target, [], none⟩
  | .called (some error) => ⟨some target, [], some error⟩
  | .called none => ⟨some target, [none], some nextTwice⟩

/-- `useSvco`, in the worker with this id. -/
def useSvco (params : ServerParams) (nonstitchedRoles : List String) (id : Nat) (request : Request)
    (proxied : Proxied) : Outcome :=
  match overriding nonstitchedRoles request with
  | none => ⟨none, [none], none⟩
  | some svco =>
    let expected := expectedWorkerId params svco
    if expected ≠ id then
      forward ⟨request.protocol, params.port - expected, request.url⟩ proxied
    else ⟨none, [some svco], none⟩

/-- `createSvcoMiddleware`. -/
def svcoMiddleware (params : ServerParams) (manifest : List Subgraph) (id : Nat) (request : Request)
    (proxied : Proxied) : Outcome :=
  match getNonStitchedRoles manifest with
  | none => ⟨none, [none], none⟩
  | some nonstitchedRoles => useSvco params nonstitchedRoles id request proxied

/-! ### Where a request is served -/

variable {params : ServerParams} {manifest : List Subgraph} {request : Request} {proxied : Nat → Proxied}

/-- A request that comes in at one worker gets to another. -/
inductive Reaches (params : ServerParams) (manifest : List Subgraph) (request : Request) (proxied : Nat → Proxied) :
    Nat → Nat → Prop where
  | here (id : Nat) : Reaches params manifest request proxied id id
  | sent {id next last : Nat} {target : Target}
      (sends : (svcoMiddleware params manifest id request (proxied id)).forwarded = some target)
      (answered : proxied id = .answered) (listens : svcoPort params next = target.port)
      (rest : Reaches params manifest request proxied next last) : Reaches params manifest request proxied id last

/-- The overrides that count, from the manifest the worker has. -/
def overrides (manifest : List Subgraph) (request : Request) : Option String :=
  (getNonStitchedRoles manifest).bind fun roles => overriding roles request

/-- The worker that serves a request that comes in at one. -/
def serving (params : ServerParams) (manifest : List Subgraph) (request : Request) (id : Nat) : Nat :=
  (overrides manifest request).elim id (expectedWorkerId params)

theorem svcoMiddleware_none (none : overrides manifest request = none) (id : Nat) (proxied : Proxied) :
    svcoMiddleware params manifest id request proxied = ⟨Option.none, [Option.none], Option.none⟩ := by
  unfold svcoMiddleware
  unfold overrides at none
  cases roles : getNonStitchedRoles manifest with
  | none => rfl
  | some roles' =>
    rw [roles, Option.bind_some] at none
    simp only [useSvco, none]

theorem svcoMiddleware_some {svco : String} (some : overrides manifest request = some svco) (id : Nat)
    (proxied : Proxied) :
    svcoMiddleware params manifest id request proxied =
      if expectedWorkerId params svco ≠ id then
        forward ⟨request.protocol, params.port - expectedWorkerId params svco, request.url⟩ proxied
      else ⟨none, [Option.some svco], none⟩ := by
  unfold svcoMiddleware
  unfold overrides at some
  cases roles : getNonStitchedRoles manifest with
  | none => simp [roles] at some
  | some roles' =>
    rw [roles, Option.bind_some] at some
    simp only [useSvco, some]

/-- The worker that serves a request keeps it, and the others send it there. -/
theorem forwarded_eq_some {id : Nat} {proxied : Proxied} {target : Target} :
    (svcoMiddleware params manifest id request proxied).forwarded = some target ↔
      serving params manifest request id ≠ id ∧
        target = ⟨request.protocol, svcoPort params (serving params manifest request id), request.url⟩ := by
  unfold serving
  cases overridden : overrides manifest request with
  | none => simp [svcoMiddleware_none overridden]
  | some svco =>
    rw [svcoMiddleware_some overridden, Option.elim_some]
    split
    next other =>
      have sent :
          (forward ⟨request.protocol, params.port - expectedWorkerId params svco, request.url⟩ proxied).forwarded =
          some ⟨request.protocol, svcoPort params (expectedWorkerId params svco), request.url⟩ := by
        cases proxied with
        | answered => rfl
        | called error => cases error <;> rfl
      rw [sent, Option.some.injEq, and_iff_right other, eq_comm]
    next own => simp [not_not.mp own]

theorem serving_serving (id : Nat) :
    serving params manifest request (serving params manifest request id) = serving params manifest request id := by
  unfold serving
  cases overrides manifest request <;> rfl

/-- A request is sent on at most once, to the worker that serves it. -/
theorem reaches_iff (id last : Nat) : Reaches params manifest request proxied id last ↔
    last = id ∨ proxied id = .answered ∧ last = serving params manifest request id := by
  constructor
  · intro reaches
    induction reaches with
    | here id => exact .inl rfl
    | @sent id next last target sends answered listens rest ih =>
      obtain ⟨_, rfl⟩ := forwarded_eq_some.mp sends
      have there : next = serving params manifest request id := by
        simp only [svcoPort] at listens
        omega
      rw [there, serving_serving] at ih
      exact .inr ⟨answered, ih.elim (fun here => here) And.right⟩
  · rintro (rfl | ⟨answered, rfl⟩)
    · exact .here last
    · by_cases own : serving params manifest request id = id
      · rw [own]
        exact .here id
      · exact .sent (forwarded_eq_some.mpr ⟨own, rfl⟩) answered rfl (.here _)

/-- The worker that serves a request runs what follows once, under the overrides; any
other worker does not run it. -/
theorem handled_eq {id : Nat} (errorsOnly : proxied id ≠ .called none) :
    (svcoMiddleware params manifest id request (proxied id)).handled =
      if serving params manifest request id = id then [overrides manifest request] else [] := by
  unfold serving
  cases overridden : overrides manifest request with
  | none => simp [svcoMiddleware_none overridden]
  | some svco =>
    rw [svcoMiddleware_some overridden, Option.elim_some]
    split
    next other =>
      cases called : proxied id with
      | answered => rfl
      | called error =>
        cases error with
        | none => exact absurd called errorsOnly
        | some error => rfl
    next own => rw [if_pos (not_not.mp own)]

/-- In a cluster whose primary runs, a request that comes in at any worker gets to no
other than the one that serves it, which there is; that one runs what follows once,
under the overrides that count, and the same one for all such requests. -/
theorem served_once {Supergraph : Type} {config : Config} {files : String → Option Supergraph}
    (events : List (Event Supergraph)) (enabled : config.serviceOverrides = true)
    (running : (reached config files events).stage = .running)
    (configured : params.clusterParallelism = config.clusterParallelism)
    (errorsOnly : ∀ id, proxied id ≠ .called none)
    (id : Nat) (first : 1 ≤ id) (forked : id ≤ (reached config files events).workers.length) :
    let server := serving params manifest request id
    (1 ≤ server ∧ server ≤ (reached config files events).workers.length) ∧
      ((overrides manifest request).isSome → ∀ other, serving params manifest request other = server) ∧
      (∀ last, Reaches params manifest request proxied id last → (last = id ∨ last = server) ∧
        (svcoMiddleware params manifest last request (proxied last)).handled =
          if last = server then [overrides manifest request] else []) ∧
      (proxied id = .answered → Reaches params manifest request proxied id server) := by
  intro server
  refine ⟨?_, fun overridden other => ?_, fun last reaches => ⟨?_, ?_⟩, fun answered => ?_⟩
  · have length := length_of_overrides enabled running
    unfold server serving
    cases overrides manifest request with
    | none => exact ⟨first, forked⟩
    | some svco =>
      have positive : 0 < params.clusterParallelism := by omega
      have small := Nat.mod_lt (svcoLength svco) positive
      simp only [Option.elim_some, expectedWorkerId]
      omega
  · unfold server serving
    obtain ⟨svco, is⟩ := Option.isSome_iff_exists.mp overridden
    rw [is, Option.elim_some, Option.elim_some]
  · exact ((reaches_iff id last).mp reaches).imp_right And.right
  · rw [handled_eq (errorsOnly last)]
    have same : serving params manifest request last = server := by
      rcases (reaches_iff id last).mp reaches with rfl | ⟨_, rfl⟩
      · rfl
      · exact serving_serving id
    rw [same]
    exact if_congr eq_comm rfl rfl
  · exact (reaches_iff id server).mpr (.inr ⟨answered, rfl⟩)

theorem served_once_overridden :
    let legacy : Subgraph :=
      ⟨"legacy-graphql", ⟨"http", some "legacy", none, false, false, "/", rfl, by simp, by simp⟩⟩
    let request : Request := ⟨"http", "/graphql", .plain [("x-service-overrides", .one "graphql*dev")]⟩
    Reaches ⟨4000, 2⟩ [legacy] request (fun _ => .answered) 1 (serving ⟨4000, 2⟩ [legacy] request 1) :=
  (@served_once ⟨4000, 2⟩ _ _ (fun _ => .answered) Unit ⟨2, true, .file, none⟩ (fun _ => some ())
    [.loaded (.error ""), .timer, .timer] rfl rfl rfl (by simp) 1 (Nat.le_refl 1) (Nat.le_succ 1)).2.2.2 rfl

end Taql.SvcoRouting

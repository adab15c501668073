import Taql.JavaScript
import Taql.Utf8

/-! `packages/server/src/useCompose.ts`: the body of a request is put together from the
chunks it comes in, each of which becomes a string of its own. -/
namespace Taql.ComposeBodies
open JavaScript Utf8

variable {Value Body : Type}

/-- What an `IncomingMessage` emits. -/
inductive BodyEvent where
  | data (chunk : List UInt8)
  | error (err : JsError)
  | finished
  deriving DecidableEq

/-- The variable and the promise of `parseBody`. -/
structure Reading (Value : Type) where
  data : String
  promise : Option (Except JsError Value)

/-- A promise settles once. -/
def Reading.settle (reading : Reading Value) (outcome : Except JsError Value) : Reading Value :=
  { reading with promise := some (reading.promise.getD outcome) }

/-- `data += chunk`, and what settles the promise. -/
def Reading.on (parse : String → Except JsError Value) (reading : Reading Value) : BodyEvent → Reading Value
  | .data chunk => { reading with data := reading.data ++ String.ofList (decode chunk) }
  | .error err => reading.settle (.error err)
  | .finished => reading.settle (parse reading.data)

/-- What `parseBody` settles with, if it does. -/
def parseBody (parse : String → Except JsError Value) (events : List BodyEvent) : Option (Except JsError Value) :=
  (events.foldl (Reading.on parse) ⟨"", none⟩).promise

structure Request where
  method : String
  path : String
  events : List BodyEvent

/-- What becomes of a request: it is handed on, waits for its body, or is answered. -/
inductive Handled (Body : Type) where
  | next
  | pending
  | answered (status : JsNumber) (body : Body)

/-- `useCompose`. The GSR answers with a status and a body, or the call fails. -/
def useCompose (parse : String → Except JsError Value) (compose : Value → Except JsError (String × Body))
    (text : JsError → Body) (request : Request) : Handled Body :=
  if request.method = "POST" ∧ request.path = "/compose" then
    match parseBody parse request.events with
    | none => .pending
    | some parsed =>
      match parsed.bind compose with
      | .ok (statusCode, body) => .answered (parseInt statusCode) body
      | .error err => .answered (.num 500) (text err)
  else .next

variable {parse : String → Except JsError Value}

theorem foldl_settled {reading : Reading Value} {outcome : Except JsError Value}
    (settled : reading.promise = some outcome)
    (events : List BodyEvent) : (events.foldl (Reading.on parse) reading).promise = some outcome := by
  induction events generalizing reading with
  | nil => exact settled
  | cons event rest ih =>
    apply ih
    cases event with
    | data chunk => exact settled
    | error | finished => simp [Reading.on, Reading.settle, settled]

theorem foldl_data (reading : Reading Value) (chunks : List (List UInt8)) :
    (chunks.map BodyEvent.data).foldl (Reading.on parse) reading =
      { reading with data := reading.data ++ String.ofList (chunks.flatMap decode) } := by
  induction chunks generalizing reading with
  | nil => simp
  | cons chunk chunks ih =>
    rw [List.map_cons, List.foldl_cons, ih, List.flatMap_cons, String.ofList_append]
    simp only [Reading.on, String.append_assoc]

/-- What is parsed is what the chunks before the end are decoded to, one by one. -/
theorem parseBody_finished (chunks : List (List UInt8)) (later : List BodyEvent) :
    parseBody parse (chunks.map .data ++ .finished :: later) =
      some (parse (String.ofList (chunks.flatMap decode))) := by
  rw [parseBody, List.foldl_append, foldl_data, List.foldl_cons]
  apply foldl_settled
  simp [Reading.on, Reading.settle]

/-- However a text's bytes are cut into chunks, the endpoint hands a text on to be parsed, which
is the one that was sent exactly when each chunk ends between two characters. -/
theorem text_received_iff (parse : String → Except JsError Value) (compose : Value → Except JsError (String × Body))
    (errorText : JsError → Body) (text : String) (chunks : List (List UInt8)) (later : List BodyEvent)
    (sent : chunks.flatten = encode text.toList) :
    ∃ received : String,
      useCompose parse compose errorText ⟨"POST", "/compose", chunks.map .data ++ .finished :: later⟩ =
        (match (parse received).bind compose with
        | .ok (statusCode, body) => .answered (parseInt statusCode) body
        | .error err => .answered (.num 500) (errorText err)) ∧
      (received = text ↔
        ∀ before rest, chunks = before ++ rest → ∃ count, before.flatten = encode (text.toList.take count)) := by
  refine ⟨String.ofList (chunks.flatMap decode), ?_, ?_⟩
  · rw [useCompose, if_pos ⟨rfl, rfl⟩, parseBody_finished]
  · rw [← decode_chunks_encode text.toList sent]
    constructor
    · intro same
      rw [← same, String.toList_ofList]
    · intro same
      rw [same, String.ofList_toList]

/-- A letter of two bytes that come in two chunks. -/
theorem text_received_iff_cut :
    ∃ received : String,
      useCompose (fun text => .ok text) (fun _ : String => .ok ("200", "")) JsError.message
          ⟨"POST", "/compose", [[0x22, 0xC3], [0xA9, 0x22]].map .data ++ .finished :: []⟩ =
        (match (Except.ok received : Except JsError String).bind fun _ => .ok ("200", "") with
        | .ok (statusCode, body) => .answered (parseInt statusCode) body
        | .error err => .answered (.num 500) err.message) ∧
      (received = "\"é\"" ↔ ∀ before rest, [[0x22, 0xC3], [0xA9, 0x22]] = before ++ rest →
        ∃ count, before.flatten = encode ("\"é\"".toList.take count)) :=
  text_received_iff (fun text => .ok text) (fun _ => .ok ("200", "")) JsError.message "\"é\"" _ [] (by decide)

end Taql.ComposeBodies

import Mathlib.Data.List.Basic

/-! Decoding UTF-8, each ill-formed sequence as U+FFFD. Bytes that are decoded in pieces
give what they give as a whole exactly when no piece ends within a sequence that the
next one goes on with; of a text, when every piece ends between two characters. -/
namespace Taql.Utf8

/-- A sequence that has begun: its value so far, how many bytes are needed after the next
one, and the bounds of that. -/
structure Pending where
  value : Nat
  needed : Nat
  lower : Nat
  upper : Nat
  tail : 0x80 ≤ lower ∧ upper ≤ 0xBF

def replacement : Char := Char.ofNat 0xFFFD

/-- What a byte begins, and the characters that it makes. -/
def start (byte : UInt8) : Option Pending × List Char :=
  if byte.toNat ≤ 0x7F then (none, [Char.ofNat byte.toNat])
  else if 0xC2 ≤ byte.toNat ∧ byte.toNat ≤ 0xDF then (some ⟨byte.toNat - 0xC0, 0, 0x80, 0xBF, by decide⟩, [])
  else if 0xE0 ≤ byte.toNat ∧ byte.toNat ≤ 0xEF then
    (some ⟨byte.toNat - 0xE0, 1, if byte.toNat = 0xE0 then 0xA0 else 0x80, if byte.toNat = 0xED then 0x9F else 0xBF,
      by split <;> split <;> omega⟩, [])
  else if 0xF0 ≤ byte.toNat ∧ byte.toNat ≤ 0xF4 then
    (some ⟨byte.toNat - 0xF0, 2, if byte.toNat = 0xF0 then 0x90 else 0x80, if byte.toNat = 0xF4 then 0x8F else 0xBF,
      by split <;> split <;> omega⟩, [])
  else (none, [replacement])

/-- A byte that goes on with what has begun. -/
def Pending.continues (pending : Pending) (byte : UInt8) : Prop :=
  pending.lower ≤ byte.toNat ∧ byte.toNat ≤ pending.upper

instance (pending : Pending) (byte : UInt8) : Decidable (pending.continues byte) :=
  inferInstanceAs (Decidable (_ ∧ _))

def Pending.next (pending : Pending) (byte : UInt8) : Option Pending × List Char :=
  let value := pending.value * 64 + (byte.toNat - 0x80)
  match pending.needed with
  | 0 => (none, [Char.ofNat value])
  | needed + 1 => (some ⟨value, needed, 0x80, 0xBF, by decide⟩, [])

def step : Option Pending → UInt8 → Option Pending × List Char
  | none, byte => start byte
  | some pending, byte =>
    if pending.continues byte then pending.next byte
    else ((start byte).1, replacement :: (start byte).2)

/-- A sequence that is never finished. -/
def flush (state : Option Pending) : List Char := if state.isSome then [replacement] else []

def run : Option Pending → List UInt8 → List Char
  | state, [] => flush state
  | state, byte :: rest => (step state byte).2 ++ run (step state byte).1 rest

def after (state : Option Pending) (bytes : List UInt8) : Option Pending :=
  bytes.foldl (fun state byte => (step state byte).1) state

def decode (bytes : List UInt8) : List Char := run none bytes

/-- What is made on the way to a state. -/
def emitted : Option Pending → List UInt8 → List Char
  | _, [] => []
  | state, byte :: rest => (step state byte).2 ++ emitted (step state byte).1 rest

theorem run_append (state : Option Pending) (before rest : List UInt8) :
    run state (before ++ rest) = emitted state before ++ run (after state before) rest := by
  induction before generalizing state with
  | nil => rfl
  | cons byte before ih =>
    rw [List.cons_append, run, emitted, ih, List.append_assoc]
    rfl

theorem run_eq (state : Option Pending) (bytes : List UInt8) :
    run state bytes = emitted state bytes ++ flush (after state bytes) := by
  have whole := run_append state bytes []
  rwa [List.append_nil] at whole

theorem after_append (state : Option Pending) (before rest : List UInt8) :
    after state (before ++ rest) = after (after state before) rest := List.foldl_append

/-- A byte that goes on with a sequence begins none. -/
theorem start_of_continues {pending : Pending} {byte : UInt8} (continues : pending.continues byte) :
    start byte = (none, [replacement]) := by
  obtain ⟨low, high⟩ := continues
  obtain ⟨low', high'⟩ := pending.tail
  unfold start
  rw [if_neg (by omega), if_neg (by omega), if_neg (by omega), if_neg (by omega)]

/-- The second part goes on with what the first has begun. -/
def Splits (before rest : List UInt8) : Prop :=
  ∃ pending byte more, after none before = some pending ∧ rest = byte :: more ∧ pending.continues byte

theorem run_of_not_continues {pending : Pending} {bytes : List UInt8}
    (other : ∀ byte more, bytes = byte :: more → ¬pending.continues byte) :
    run (some pending) bytes = replacement :: run none bytes := by
  cases bytes with
  | nil => rfl
  | cons byte more => simp only [run, step, if_neg (other byte more rfl), List.cons_append]

/-- Two parts of which the second does not go on with the first are decoded apart. -/
theorem decode_append {before rest : List UInt8} (apart : ¬Splits before rest) :
    decode (before ++ rest) = decode before ++ decode rest := by
  unfold decode
  rw [run_append, run_eq none before, List.append_assoc]
  congr 1
  cases state : after none before with
  | none => rfl
  | some pending =>
    rw [run_of_not_continues fun byte more is continues => apart ⟨pending, byte, more, state, is, continues⟩]
    rfl

/-- What has begun ends as one character at most that is not there without it. -/
theorem length_run_some (pending : Pending) (bytes : List UInt8) :
    (run (some pending) bytes).length ≤ (run none bytes).length + 1 := by
  induction bytes generalizing pending with
  | nil => exact Nat.le_refl _
  | cons byte rest ih =>
    by_cases continues : pending.continues byte
    · simp only [run, step, if_pos continues, start_of_continues continues, List.length_append, List.length_singleton]
      unfold Pending.next
      cases pending.needed with
      | zero => simp
      | succ needed =>
        have bound := ih ⟨pending.value * 64 + (byte.toNat - 0x80), needed, 0x80, 0xBF, by decide⟩
        simp only [List.length_nil]
        omega
    · rw [run_of_not_continues fun other more is => by cases is; exact continues]
      simp

/-- Two parts of which the second goes on with the first make more characters apart. -/
theorem length_decode_splits {before rest : List UInt8} (splits : Splits before rest) :
    (decode (before ++ rest)).length < (decode before).length + (decode rest).length := by
  obtain ⟨pending, byte, more, state, rfl, continues⟩ := splits
  have flushed : (flush (some pending)).length = 1 := rfl
  unfold decode
  rw [run_append, run_eq none before, state, List.length_append, List.length_append, flushed]
  simp only [run, step, if_pos continues, start_of_continues continues, List.length_append, List.length_singleton]
  unfold Pending.next
  cases pending.needed with
  | zero => simp
  | succ needed =>
    have bound := length_run_some ⟨pending.value * 64 + (byte.toNat - 0x80), needed, 0x80, 0xBF, by decide⟩ more
    simp only [List.length_nil]
    omega

/-- Past its first byte a second part that does not go on with the first leaves the state it
leaves alone. -/
theorem after_of_apart {before rest : List UInt8} (apart : ¬Splits before rest) (some : rest ≠ []) :
    after none (before ++ rest) = after none rest := by
  cases rest with
  | nil => exact absurd rfl some
  | cons byte more =>
    rw [after_append]
    cases state : after none before with
    | none => rfl
    | some pending =>
      have other : ¬pending.continues byte := fun continues => apart ⟨pending, byte, more, state, rfl, continues⟩
      simp only [after, List.foldl_cons, step, if_neg other]

theorem not_splits_nil (before : List UInt8) : ¬Splits before [] := by
  rintro ⟨_, _, _, _, is, _⟩
  cases is

theorem not_nil_splits (rest : List UInt8) : ¬Splits [] rest := by
  rintro ⟨_, _, _, state, _⟩
  cases state

/-- No piece ends within a sequence that the next one goes on with. -/
def Whole (chunks : List (List UInt8)) : Prop :=
  ∀ before rest, chunks = before ++ rest → ¬Splits before.flatten rest.flatten

theorem whole_cons {chunk : List UInt8} {chunks : List (List UInt8)} :
    Whole (chunk :: chunks) ↔ ¬Splits chunk chunks.flatten ∧ Whole chunks := by
  -- Within the rest, a first piece it does not go on with changes no state.
  have within (apart : ¬Splits chunk chunks.flatten) (before rest : List (List UInt8))
      (split : chunks = before ++ rest) :
      Splits (chunk ++ before.flatten) rest.flatten ↔ Splits before.flatten rest.flatten := by
    subst split
    by_cases empty : before.flatten = []
    · rw [empty, List.append_nil]
      rw [List.flatten_append, empty, List.nil_append] at apart
      exact iff_of_false apart (not_nil_splits _)
    · have unsplit : ¬Splits chunk before.flatten := by
        rintro ⟨pending, byte, more, state, is, continues⟩
        refine apart ⟨pending, byte, more ++ rest.flatten, state, ?_, continues⟩
        rw [List.flatten_append, is, List.cons_append]
      unfold Splits
      rw [after_of_apart unsplit empty]
  constructor
  · intro whole
    have apart : ¬Splits chunk chunks.flatten := by simpa using whole [chunk] chunks rfl
    refine ⟨apart, fun before rest split splits => whole (chunk :: before) rest (by rw [split]; rfl) ?_⟩
    exact (within apart before rest split).mpr splits
  · rintro ⟨apart, whole⟩ before rest split
    cases before with
    | nil => exact not_nil_splits _
    | cons first before =>
      obtain ⟨rfl, same⟩ := List.cons.inj split
      rw [List.flatten_cons, within apart before rest same]
      exact whole before rest same

/-- Pieces are decoded as the whole they make exactly when they are whole; if not, there are
more characters. -/
theorem decode_chunks (chunks : List (List UInt8)) :
    (chunks.flatMap decode = decode chunks.flatten ↔ Whole chunks) ∧
      (decode chunks.flatten).length ≤ (chunks.flatMap decode).length ∧
      (¬Whole chunks → (decode chunks.flatten).length < (chunks.flatMap decode).length) := by
  induction chunks with
  | nil =>
    have whole : Whole [] := fun before rest split => by
      obtain ⟨rfl, rfl⟩ := List.append_eq_nil_iff.mp split.symm
      exact not_nil_splits _
    exact ⟨iff_of_true rfl whole, Nat.le_refl _, fun not => absurd whole not⟩
  | cons chunk chunks ih =>
    obtain ⟨same, fewer, less⟩ := ih
    rw [whole_cons, List.flatMap_cons, List.flatten_cons, List.length_append]
    by_cases apart : Splits chunk chunks.flatten
    · have short := length_decode_splits apart
      have strict :
          (decode (chunk ++ chunks.flatten)).length < (decode chunk).length + (chunks.flatMap decode).length := by
        omega
      refine ⟨iff_of_false (fun equal => ?_) fun both => both.1 apart, Nat.le_of_lt strict, fun _ => strict⟩
      rw [← equal, List.length_append] at strict
      omega
    · rw [decode_append apart, List.length_append, List.append_cancel_left_eq, same]
      refine ⟨(and_iff_right apart).symm, by omega, fun not => ?_⟩
      have strict := less fun whole => not ⟨apart, whole⟩
      omega

/-! ### Texts -/

def encode (text : List Char) : List UInt8 := text.flatMap String.utf8EncodeChar

theorem encode_cons (char : Char) (text : List Char) :
    encode (char :: text) = String.utf8EncodeChar char ++ encode text := rfl

/-- What a byte of a character's encoding is, by its value. -/
theorem toNat_ofNat {value : Nat} (small : value < 256) : (UInt8.ofNat value).toNat = value := by
  rw [UInt8.toNat_ofNat', Nat.mod_eq_of_lt small]

theorem char_cases (char : Char) : char.toNat < 0xD800 ∨ 0xDFFF < char.toNat ∧ char.toNat < 0x110000 := char.valid

/-- Bytes that end what has begun as a character, each of which goes on with those before. -/
structure Finishes (pending : Pending) (char : Char) (bytes : List UInt8) : Prop where
  after : after (some pending) bytes = none
  emitted : emitted (some pending) bytes = [char]
  continues : ∀ before rest, bytes = before ++ rest → rest ≠ [] → ∃ pending' byte more,
    Utf8.after (some pending) before = some pending' ∧ rest = byte :: more ∧ pending'.continues byte

theorem finishes_last {pending : Pending} {char : Char} {byte : UInt8} (needed : pending.needed = 0)
    (continues : pending.continues byte) (value : Char.ofNat (pending.value * 64 + (byte.toNat - 0x80)) = char) :
    Finishes pending char [byte] where
  after := by simp [Utf8.after, step, continues, Pending.next, needed]
  emitted := by simp [Utf8.emitted, step, continues, Pending.next, needed, value]
  continues before rest split more := by
    cases before with
    | nil => exact ⟨pending, byte, [], rfl, split.symm, continues⟩
    | cons first before =>
      have tail := (List.cons.inj split).2
      exact absurd (List.append_eq_nil_iff.mp tail.symm).2 more

theorem finishes_more {pending : Pending} {char : Char} {byte : UInt8} {bytes : List UInt8} {needed : Nat}
    (more : pending.needed = needed + 1) (continues : pending.continues byte)
    (rest : Finishes ⟨pending.value * 64 + (byte.toNat - 0x80), needed, 0x80, 0xBF, by decide⟩ char bytes) :
    Finishes pending char (byte :: bytes) := by
  have stepped : step (some pending) byte =
      (some ⟨pending.value * 64 + (byte.toNat - 0x80), needed, 0x80, 0xBF, by decide⟩, []) := by
    simp [step, continues, Pending.next, more]
  refine ⟨?_, ?_, fun before last split some => ?_⟩
  · simp only [Utf8.after, List.foldl_cons, stepped]
    exact rest.after
  · simp only [Utf8.emitted, stepped, List.nil_append]
    exact rest.emitted
  · cases before with
    | nil => exact ⟨pending, byte, bytes, rfl, split.symm, continues⟩
    | cons first before =>
      obtain ⟨rfl, same⟩ := List.cons.inj split
      obtain ⟨pending', next, others, state, is, goes⟩ := rest.continues before last same some
      refine ⟨pending', next, others, ?_, is, goes⟩
      simp only [Utf8.after, List.foldl_cons, stepped]
      exact state

/-- The encoding of a character is decoded to it, and each of its bytes but the first goes on
with those before it. -/
structure Encodes (char : Char) (bytes : List UInt8) : Prop where
  some : bytes ≠ []
  after : after none bytes = none
  emitted : emitted none bytes = [char]
  splits : ∀ before rest, bytes = before ++ rest → before ≠ [] → rest ≠ [] → Splits before rest

theorem encodes_of_finishes {pending : Pending} {char : Char} {byte : UInt8} {bytes : List UInt8}
    (begun : start byte = (some pending, [])) (finishes : Finishes pending char bytes) :
    Encodes char (byte :: bytes) where
  some := List.cons_ne_nil _ _
  after := by
    simp only [Utf8.after, List.foldl_cons, step, begun]
    exact finishes.after
  emitted := by
    simp only [Utf8.emitted, step, begun, List.nil_append]
    exact finishes.emitted
  splits before rest split some more := by
    cases before with
    | nil => exact absurd rfl some
    | cons first before =>
      obtain ⟨rfl, same⟩ := List.cons.inj split
      obtain ⟨pending', next, others, state, is, goes⟩ := finishes.continues before rest same more
      refine ⟨pending', next, others, ?_, is, goes⟩
      simp only [Utf8.after, List.foldl_cons, step, begun]
      exact state

/-- A byte of a later part of an encoding, of the six bits it has. -/
theorem toNat_tail (value : Nat) : (UInt8.ofNat (value % 64 + 0x80)).toNat = value % 64 + 0x80 :=
  toNat_ofNat (by omega)

theorem start_two {value : Nat} (least : 2 ≤ value) (most : value < 0x20) :
    start (UInt8.ofNat (value + 0xC0)) = (some ⟨value, 0, 0x80, 0xBF, by decide⟩, []) := by
  have byte := toNat_ofNat (show value + 0xC0 < 256 by omega)
  simp only [start, byte]
  rw [if_neg (by omega), if_pos (by omega)]
  simp

theorem start_three {value : Nat} (most : value < 0x10) :
    start (UInt8.ofNat (value + 0xE0)) = (some ⟨value, 1, if value = 0 then 0xA0 else 0x80,
      if value = 0xD then 0x9F else 0xBF, by split <;> split <;> omega⟩, []) := by
  have byte := toNat_ofNat (show value + 0xE0 < 256 by omega)
  simp only [start, byte]
  rw [if_neg (by omega), if_neg (by omega), if_pos (by omega)]
  simp

theorem start_four {value : Nat} (most : value ≤ 4) :
    start (UInt8.ofNat (value + 0xF0)) = (some ⟨value, 2, if value = 0 then 0x90 else 0x80,
      if value = 4 then 0x8F else 0xBF, by split <;> split <;> omega⟩, []) := by
  have byte := toNat_ofNat (show value + 0xF0 < 256 by omega)
  simp only [start, byte]
  rw [if_neg (by omega), if_neg (by omega), if_neg (by omega), if_pos (by omega)]
  simp

/-- A byte of a later part of an encoding goes on with a sequence of any value. -/
theorem continues_tail (value needed bits : Nat) (tail : 0x80 ≤ 0x80 ∧ 0xBF ≤ 0xBF) :
    Pending.continues ⟨value, needed, 0x80, 0xBF, tail⟩ (UInt8.ofNat (bits % 64 + 0x80)) := by
  simp only [Pending.continues, toNat_tail]
  omega

theorem encodes_utf8EncodeChar (char : Char) : Encodes char (String.utf8EncodeChar char) := by
  have valid := char_cases char
  have value : char.val.toNat = char.toNat := rfl
  unfold String.utf8EncodeChar
  rw [value]
  simp only
  split
  · next one =>
    have byte := toNat_ofNat (show char.toNat < 256 by omega)
    have begun : start (UInt8.ofNat char.toNat) = (none, [char]) := by
      simp only [start, byte]
      rw [if_pos one, Char.ofNat_toNat]
    refine ⟨List.cons_ne_nil _ _, ?_, ?_, fun before rest split some more => ?_⟩
    · simp only [after, List.foldl_cons, step, begun, List.foldl_nil]
    · simp only [emitted, step, begun, List.append_nil]
    · cases before with
      | nil => exact absurd rfl some
      | cons first before =>
        have tail := (List.cons.inj split).2
        exact absurd (List.append_eq_nil_iff.mp tail.symm).2 more
  split
  · next many two =>
    refine encodes_of_finishes (start_two (by omega) (by omega)) (finishes_last rfl (continues_tail ..) ?_)
    rw [toNat_tail, show char.toNat / 64 % 32 * 64 + (char.toNat % 64 + 0x80 - 0x80) = char.toNat by omega,
      Char.ofNat_toNat]
  split
  · next many' three =>
    refine encodes_of_finishes (start_three (by omega))
      (finishes_more rfl ?_ (finishes_last rfl (continues_tail ..) ?_))
    · simp only [Pending.continues, toNat_tail]
      split <;> split <;> omega
    · rw [toNat_tail, toNat_tail]
      dsimp only
      rw [show (char.toNat / 4096 % 16 * 64 + (char.toNat / 64 % 64 + 0x80 - 0x80)) * 64 +
        (char.toNat % 64 + 0x80 - 0x80) = char.toNat by omega, Char.ofNat_toNat]
  · next four =>
    refine encodes_of_finishes (start_four (by omega)) (finishes_more rfl ?_
      (finishes_more rfl (continues_tail ..) (finishes_last rfl (continues_tail ..) ?_)))
    · simp only [Pending.continues, toNat_tail]
      split <;> split <;> omega
    · rw [toNat_tail, toNat_tail, toNat_tail]
      dsimp only
      rw [show ((char.toNat / 262144 % 8 * 64 + (char.toNat / 4096 % 64 + 0x80 - 0x80)) * 64 +
        (char.toNat / 64 % 64 + 0x80 - 0x80)) * 64 + (char.toNat % 64 + 0x80 - 0x80) = char.toNat by omega,
        Char.ofNat_toNat]

/-- A text is decoded as it was before it was encoded. -/
theorem decode_encode (text : List Char) : decode (encode text) = text := by
  induction text with
  | nil => rfl
  | cons char text ih =>
    have encodes := encodes_utf8EncodeChar char
    rw [encode_cons, decode, run_append, encodes.after, encodes.emitted]
    exact congrArg (char :: ·) ih

/-- Past a character, what goes on with a part goes on with it and the character before it. -/
theorem splits_append {char : Char} {bytes before rest : List UInt8} (encodes : Encodes char bytes) :
    Splits (bytes ++ before) rest ↔ Splits before rest := by
  unfold Splits
  rw [after_append, encodes.after]

/-- Two parts of a text's encoding are apart exactly when the first encodes its first
characters. -/
theorem splits_encode_iff {text : List Char} {before rest : List UInt8} (split : encode text = before ++ rest) :
    Splits before rest ↔ ∀ count, before ≠ encode (text.take count) := by
  induction text generalizing before with
  | nil =>
    obtain ⟨rfl, rfl⟩ := List.append_eq_nil_iff.mp split.symm
    exact iff_of_false (not_splits_nil _) fun other => other 0 rfl
  | cons char text ih =>
    have encodes := encodes_utf8EncodeChar char
    rw [encode_cons] at split
    have first (count : Nat) :
        encode ((char :: text).take (count + 1)) = String.utf8EncodeChar char ++ encode (text.take count) := rfl
    generalize String.utf8EncodeChar char = bytes at encodes split first
    rcases List.append_eq_append_iff.mp split with ⟨tail, rfl, same⟩ | ⟨others, cut, rfl⟩
    · rw [splits_append encodes, ih same]
      constructor
      · intro other count
        cases count with
        | zero => simp [encode, encodes.some]
        | succ count =>
          rw [first]
          exact fun equal => other count (List.append_cancel_left equal)
      · intro other count equal
        refine other (count + 1) ?_
        rw [first, equal]
    · by_cases none : before = []
      · subst none
        exact iff_of_false (not_nil_splits _) fun other => other 0 rfl
      by_cases all : others = []
      · subst all
        refine iff_of_false ?_ fun other => other 1 ?_
        · rw [List.append_nil] at cut
          subst cut
          rintro ⟨pending, byte, more, state, _⟩
          cases encodes.after.symm.trans state
        · rw [first 0, cut]
          simp [encode]
      · obtain ⟨pending, byte, more, state, is, continues⟩ := encodes.splits before others cut none all
        refine iff_of_true ⟨pending, byte, more ++ encode text, state, by rw [is, List.cons_append], continues⟩ ?_
        intro count equal
        cases count with
        | zero => exact none equal
        | succ count =>
          have longer := congrArg List.length (equal.trans (first count))
          have shorter := congrArg List.length cut
          have some := List.length_pos_iff.mpr all
          simp only [List.length_append] at longer shorter
          omega

/-- Pieces of a text's encoding are decoded to the text exactly when each of them ends
between two of its characters. -/
theorem decode_chunks_encode (text : List Char) {chunks : List (List UInt8)} (body : chunks.flatten = encode text) :
    chunks.flatMap decode = text ↔
      ∀ before rest, chunks = before ++ rest → ∃ count, before.flatten = encode (text.take count) := by
  have whole := (decode_chunks chunks).1
  rw [body, decode_encode] at whole
  rw [whole, Whole]
  refine forall₃_congr fun before rest split => ?_
  have parts : encode text = before.flatten ++ rest.flatten := by rw [← body, split, List.flatten_append]
  rw [splits_encode_iff parts]
  push Not
  rfl

end Taql.Utf8

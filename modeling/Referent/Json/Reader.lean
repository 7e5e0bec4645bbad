import Referent.Json.Token

/-!
# Reading JSON text

The reader is a machine that takes one token at a time. Its state holds the containers that
are open, innermost first, and what may come next; nothing else decides whether a token is
allowed, so a trailing comma or a missing colon is simply a state without that step. Only blank
characters may follow the document.
-/

namespace Referent.Json

/-- A key, unless it is a string that denotes no text. -/
abbrev Key := Option String

namespace Value

/-- The key that a string is. -/
def key? : Value → Option Key
  | .string text => some (some text)
  | .unpaired => some none
  | _ => none

/-- The object with these fields. A key that denotes no text leaves nothing of it. -/
def ofFields (fields : List (Key × Value)) : Value :=
  match fields.mapM fun (key, value) => key.map fun key => (key, value) with
  | some fields => .object fields
  | none => .unpaired

theorem ofFields_map_some (fields : List (String × Value)) :
    ofFields (fields.map fun (key, value) => (some key, value)) = .object fields := by
  have h : (fields.map fun (key, value) => (some key, value)).mapM
      (fun ((key, value) : Key × Value) => key.map fun key => (key, value)) = some fields := by
    induction fields with
    | nil => rfl
    | cons field fields ih =>
      rw [List.map_cons, List.mapM_cons, ih]
      rfl
  rw [ofFields, h]

end Value

/-- An open container, with what has been read of it, last first. -/
inductive Frame
  | array (done : List Value)
  /-- The value of `key` is being read. -/
  | object (done : List (Key × Value)) (key : Key)
  deriving Repr

/-- What the reader waits for. -/
inductive State
  /-- A value. -/
  | due (frames : List Frame)
  /-- The first item of an array, or its end. -/
  | firstItem (frames : List Frame)
  /-- The first key of an object, or its end. -/
  | firstKey (frames : List Frame)
  /-- A key, after a comma. -/
  | nextKey (done : List (Key × Value)) (frames : List Frame)
  /-- The colon behind a key. -/
  | colon (done : List (Key × Value)) (key : Key) (frames : List Frame)
  /-- What may follow a value: a comma, the end of its container or the end of the text. -/
  | complete (value : Value) (frames : List Frame)
  deriving Repr

namespace State

/-- Take the first token of a value. -/
def enter (frames : List Frame) : Token → Option State
  | .scalar v => some (.complete v frames)
  | .openArray => some (.firstItem frames)
  | .openObject => some (.firstKey frames)
  | _ => none

/-- Take one token. -/
def step : State → Token → Option State
  | .due frames, token => enter frames token
  | .firstItem frames, .closeArray => some (.complete (.array []) frames)
  | .firstItem frames, token => enter (.array [] :: frames) token
  | .firstKey frames, .closeObject => some (.complete (.object []) frames)
  | .firstKey frames, .scalar v => v.key?.map fun key => .colon [] key frames
  | .nextKey done frames, .scalar v => v.key?.map fun key => .colon done key frames
  | .colon done key frames, .colon => some (.due (.object done key :: frames))
  | .complete v (.array done :: frames), .comma => some (.due (.array (v :: done) :: frames))
  | .complete v (.array done :: frames), .closeArray =>
    some (.complete (.array (v :: done).reverse) frames)
  | .complete v (.object done key :: frames), .comma => some (.nextKey ((key, v) :: done) frames)
  | .complete v (.object done key :: frames), .closeObject =>
    some (.complete (.ofFields ((key, v) :: done).reverse) frames)
  | _, _ => none

/-- The document, if the text may end here. -/
def result? : State → Option Value
  | .complete v [] => some v
  | _ => none

theorem length_rest_lt {cs rest : List Char} {token : Token}
    (h : readToken (cs.dropWhile isSpace) = some (token, rest)) : rest.length < cs.length :=
  Nat.lt_of_lt_of_le (length_readToken_lt h) (List.dropWhile_suffix isSpace).length_le

/-- Read the rest of the text. -/
def run (state : State) (cs : List Char) : Option Value :=
  if (cs.dropWhile isSpace).isEmpty then state.result?
  else match h : readToken (cs.dropWhile isSpace) with
    | none => none
    | some (token, rest) =>
      have := length_rest_lt h
      match state.step token with
      | none => none
      | some next => next.run rest
termination_by cs.length

end State

/-- The document that a text denotes. -/
def Value.ofText? (text : String) : Option Value :=
  (State.due []).run text.toList

end Referent.Json

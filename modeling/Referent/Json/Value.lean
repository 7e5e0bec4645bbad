/-!
# JSON documents

The tree that a JSON text denotes, kept close to the text in three places where something
depends on it. A number is its spelling, because `1.0` is no id although it equals one. The
fields of an object keep their order and may repeat, because a repeated field is an error
where the field is known and nothing where it is not. A string whose escapes leave half of a
surrogate pair denotes no text, and an object with such a string for a key has a field without
a name; both are well formed and may stand wherever the value is ignored, but since nothing
can be read out of them nothing of them is kept.
-/

namespace Referent.Json

/-- A JSON document. -/
inductive Value
  | null
  | bool (b : Bool)
  /-- A number, as it is spelled. -/
  | number (spelling : String)
  | string (text : String)
  /-- A string with an unpaired surrogate escape, or an object with such a key. -/
  | unpaired
  | array (items : List Value)
  | object (fields : List (String × Value))
  deriving Repr, Inhabited

namespace Value

/-- The document for a natural number. -/
def nat (n : Nat) : Value :=
  .number (toString n)

/-- The document for a 32-bit word. -/
def word (w : UInt32) : Value :=
  .nat w.toNat

/-- The document for an optional value, with `null` for none. -/
def orNull (encode : α → Value) (x : Option α) : Value :=
  x.elim .null encode

/-- The field called `name`, or no field at all if there is no value for it. -/
def field? (name : String) (encode : α → Value) (x : Option α) : List (String × Value) :=
  x.elim [] fun a => [(name, encode a)]

end Value

end Referent.Json

import Referent.Vocabulary
import Referent.Json.Token

/-!
# Reading values out of documents

A document is read into a type of the library by one function per type, which either accepts
it or does not. The rules that all types share are here: a number has to be spelled with digits
alone; a name of an enumeration is a string, or an object whose one field has that name and
holds `null`; and a record is an object with known fields, or an array of the values of those
fields in their fixed order.
-/

namespace Referent.Json.Value

/-- A natural number. -/
def nat? : Value → Option Nat
  | .number spelling => Text.digitsValue spelling.toList
  | _ => none

/-- A 32-bit word. -/
def word? (value : Value) : Option UInt32 :=
  value.nat? >>= Text.narrow

/-- A string. -/
def text? : Value → Option String
  | .string text => some text
  | _ => none

/-- An array of things that `item?` reads. -/
def list? (item? : Value → Option α) : Value → Option (List α)
  | .array items => items.mapM item?
  | _ => none

/-- A member of an enumeration. -/
def member? (ofName? : String → Option α) : Value → Option α
  | .string name => ofName? name
  | .object [(name, .null)] => ofName? name
  | _ => none

/-! ## Records -/

/-- The values that a record gives to the fields called `names`, in that order. A known field
may be given once; whether other fields are passed over or refused is up to the record. -/
def columns? (names : List String) (closed : Bool) : Value → Option (List (Option Value))
  | .array items =>
    if items.length ≤ names.length then
      some (items.map some ++ List.replicate (names.length - items.length) none)
    else none
  | .object fields =>
    if names.all (fun name => fields.countP (·.1 == name) ≤ 1) &&
        (!closed || fields.all fun field => names.contains field.1) then
      some (names.map fun name => fields.lookup name)
    else none
  | _ => none

/-- A field that has to be given. -/
def required (read? : Value → Option α) (column : Option Value) : Option α :=
  column >>= read?

/-- A field that may be left out or be `null`. -/
def optional (read? : Value → Option α) : Option Value → Option (Option α)
  | none | some .null => some none
  | some value => (read? value).map some

/-- A field that may be left out, but not be `null`. -/
def withDefault (default : α) (read? : Value → Option α) : Option Value → Option α
  | none => some default
  | some value => read? value

end Referent.Json.Value

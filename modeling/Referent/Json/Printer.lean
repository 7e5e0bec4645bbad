import Referent.Json.Value

/-!
# Writing JSON text

One printer with two layouts. Files and reports are indented by two spaces with every item on
its own line, an empty container stays on one line, and characters stand as they are apart
from quotes, backslashes and control characters. A channel that carries one document a line
takes the other layout: no space at all, and ASCII alone, with surrogate pairs for characters
beyond 16 bits. What denotes nothing is written as half of a surrogate pair, which denotes
nothing either.
-/

namespace Referent.Json

/-- How a document is laid out. -/
structure Layout where
  /-- Every item on a line of its own, indented; otherwise all on one line without spaces. -/
  indented : Bool
  /-- Characters beyond ASCII are escaped. -/
  ascii : Bool

/-- The layout of files and reports. -/
def Layout.page : Layout := ⟨true, false⟩

/-- The layout of a document that has to fit one line of ASCII. -/
def Layout.line : Layout := ⟨false, true⟩

/-- The text between the start of a line and an item at `depth`. -/
def Layout.break (layout : Layout) (depth : Nat) : String :=
  if layout.indented then "\n" ++ String.ofList (List.replicate (2 * depth) ' ') else ""

/-- The text between a key and its value. -/
def Layout.colon (layout : Layout) : String :=
  if layout.indented then ": " else ":"

/-! ## Strings -/

/-- A hexadecimal digit, in lower case. -/
def hexDigit (n : Nat) : Char :=
  if n < 10 then Char.ofNat ('0'.toNat + n) else Char.ofNat ('a'.toNat + (n - 10))

/-- A 16-bit unit as an escape of four digits. -/
def unitEscape (u : Nat) : List Char :=
  ['\\', 'u', hexDigit (u / 4096 % 16), hexDigit (u / 256 % 16), hexDigit (u / 16 % 16),
   hexDigit (u % 16)]

/-- The spelling of one character in a string. -/
def writeChar (layout : Layout) (c : Char) : List Char :=
  if c = '"' then ['\\', '"']
  else if c = '\\' then ['\\', '\\']
  else if c = '\x08' then ['\\', 'b']
  else if c = '\t' then ['\\', 't']
  else if c = '\n' then ['\\', 'n']
  else if c = '\x0c' then ['\\', 'f']
  else if c = '\r' then ['\\', 'r']
  else if c.toNat < 0x20 then unitEscape c.toNat
  else if !layout.ascii || c.toNat < 0x80 then [c]
  else if c.toNat < 0x10000 then unitEscape c.toNat
  else
    let offset := c.toNat - 0x10000
    unitEscape (0xd800 + offset / 1024) ++ unitEscape (0xdc00 + offset % 1024)

/-- A string with its quotes. -/
def writeString (layout : Layout) (text : String) : String :=
  "\"" ++ String.ofList (text.toList.flatMap (writeChar layout)) ++ "\""

/-! ## Documents -/

/-- The items of a container between its brackets, each on a line of its own if lines are
used. -/
def enclose (layout : Layout) (depth : Nat) (opening closing : String) (items : List String) :
    String :=
  if items.isEmpty then opening ++ closing
  else
    let separator := "," ++ layout.break (depth + 1)
    opening ++ layout.break (depth + 1) ++ separator.intercalate items ++
      layout.break depth ++ closing

namespace Value

/-- The text of a document that stands at `depth`. -/
def write (layout : Layout) (depth : Nat) : Value → String
  | null => "null"
  | bool true => "true"
  | bool false => "false"
  | number spelling => spelling
  | string text => writeString layout text
  | unpaired => "\"\\ud800\""
  | array items =>
    enclose layout depth "[" "]" (items.map fun item => item.write layout (depth + 1))
  | object fields =>
    enclose layout depth "\x7b" "\x7d" (fields.map fun field =>
      writeString layout field.1 ++ layout.colon ++ field.2.write layout (depth + 1))
termination_by value => sizeOf value
decreasing_by
  · have := List.sizeOf_lt_of_mem ‹_›
    simp only [array.sizeOf_spec]
    omega
  · have hmem := List.sizeOf_lt_of_mem ‹field ∈ fields›
    have : sizeOf field.2 < sizeOf field := by cases field; simp only [Prod.mk.sizeOf_spec]; omega
    simp only [object.sizeOf_spec]
    omega

/-- The text of a document on a page. -/
def page (value : Value) : String :=
  value.write .page 0

/-- The text of a document on one line. -/
def line (value : Value) : String :=
  value.write .line 0

end Value

end Referent.Json

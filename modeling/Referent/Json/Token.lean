import Referent.Json.Value
import Referent.Text.Ends

/-!
# Tokens of JSON text

`readToken` takes one token off the front of the text. Strictness that is lexical lives here:
numbers have neither leading zeros nor a plus sign, strings hold no raw control characters, and
only the eight short escapes and `\u` with four hexadecimal digits are known. A token is never
empty (`length_readToken_lt`), which is why reading a text ends.
-/

namespace Referent.Json

/-- A token. Every value without inner structure is a single one. -/
inductive Token
  | scalar (value : Value)
  | openArray | closeArray
  | openObject | closeObject
  | comma | colon
  deriving Repr

/-- White space between tokens. -/
def isSpace (c : Char) : Bool :=
  c = ' ' || c = '\t' || c = '\n' || c = '\r'

/-! ## Strings -/

/-- The value of a hexadecimal digit. -/
def hexValue (c : Char) : Option Nat :=
  if '0' ≤ c ∧ c ≤ '9' then some (c.toNat - '0'.toNat)
  else if 'a' ≤ c ∧ c ≤ 'f' then some (c.toNat - 'a'.toNat + 10)
  else if 'A' ≤ c ∧ c ≤ 'F' then some (c.toNat - 'A'.toNat + 10)
  else none

/-- The character that a short escape stands for. -/
def shortEscape : Char → Option Char
  | '"' => some '"'
  | '\\' => some '\\'
  | '/' => some '/'
  | 'b' => some '\x08'
  | 'f' => some '\x0c'
  | 'n' => some '\n'
  | 'r' => some '\r'
  | 't' => some '\t'
  | _ => none

/-- What a string is spelled with: characters, and 16-bit units written in hexadecimal. -/
inductive Piece
  | char (c : Char)
  | unit (u : Nat)

/-- A 16-bit unit from its four hexadecimal digits. -/
def readUnit (a b c d : Char) : Option Nat := do
  return 4096 * (← hexValue a) + 256 * (← hexValue b) + 16 * (← hexValue c) + (← hexValue d)

/-- Put a piece in front of the pieces read after it. -/
def prepend (piece : Piece) : List Piece × List Char → List Piece × List Char :=
  fun (pieces, rest) => (piece :: pieces, rest)

/-- The pieces up to the closing quote, and what follows the quote. -/
def readPieces : List Char → Option (List Piece × List Char)
  | [] => none
  | '"' :: cs => some ([], cs)
  | '\\' :: 'u' :: a :: b :: c :: d :: cs =>
    match readUnit a b c d with
    | none => none
    | some u => (readPieces cs).map (prepend (.unit u))
  | '\\' :: e :: cs =>
    match shortEscape e with
    | none => none
    | some c => (readPieces cs).map (prepend (.char c))
  | c :: cs =>
    -- A backslash gets here only as the last character of the text.
    if c.toNat < 0x20 ∨ c = '\\' then none else (readPieces cs).map (prepend (.char c))

/-- The first unit of a surrogate pair. -/
def isHighSurrogate (u : Nat) : Bool :=
  0xd800 ≤ u && u < 0xdc00

/-- The second unit of a surrogate pair. -/
def isLowSurrogate (u : Nat) : Bool :=
  0xdc00 ≤ u && u < 0xe000

/-- The text that pieces denote, unless a surrogate lacks its partner. -/
def textOfPieces : List Piece → Option (List Char)
  | [] => some []
  | .char c :: pieces => (textOfPieces pieces).map (c :: ·)
  | .unit high :: .unit low :: pieces =>
    if isHighSurrogate high && isLowSurrogate low then
      let c := Char.ofNat (0x10000 + 1024 * (high - 0xd800) + (low - 0xdc00))
      (textOfPieces pieces).map (c :: ·)
    else if isHighSurrogate high || isLowSurrogate high then none
    else (textOfPieces (.unit low :: pieces)).map (Char.ofNat high :: ·)
  | .unit u :: pieces =>
    if isHighSurrogate u || isLowSurrogate u then none
    else (textOfPieces pieces).map (Char.ofNat u :: ·)

/-- A string, from behind its opening quote. -/
def readString (cs : List Char) : Option (Value × List Char) :=
  (readPieces cs).map fun (pieces, rest) =>
    match textOfPieces pieces with
    | some text => (.string (String.ofList text), rest)
    | none => (.unpaired, rest)

/-! ## Numbers -/

/-- An ASCII digit. -/
def isDigit (c : Char) : Bool :=
  '0' ≤ c && c ≤ '9'

/-- One digit or more, and what follows them. -/
def readDigits (cs : List Char) : Option (List Char × List Char) :=
  if (cs.takeWhile isDigit).isEmpty then none
  else some (cs.takeWhile isDigit, cs.dropWhile isDigit)

/-- A whole number without leading zeros. -/
def readWhole : List Char → Option (List Char × List Char)
  | '0' :: cs => some (['0'], cs)
  | cs => readDigits cs

/-- A point with its digits, or nothing. -/
def readFraction : List Char → Option (List Char × List Char)
  | '.' :: cs => (readDigits cs).map fun (digits, rest) => ('.' :: digits, rest)
  | cs => some ([], cs)

/-- A sign, or nothing. -/
def readSign : List Char → List Char × List Char
  | '+' :: cs => (['+'], cs)
  | '-' :: cs => (['-'], cs)
  | cs => ([], cs)

/-- An exponent, or nothing. -/
def readExponent : List Char → Option (List Char × List Char)
  | [] => some ([], [])
  | e :: cs =>
    if e = 'e' ∨ e = 'E' then
      let (sign, cs) := readSign cs
      (readDigits cs).map fun (digits, rest) => (e :: sign ++ digits, rest)
    else some ([], e :: cs)

/-- A number: its spelling, and what follows it. -/
def readNumber (cs : List Char) : Option (List Char × List Char) := do
  let (minus, cs) := match cs with
    | '-' :: rest => (['-'], rest)
    | _ => ([], cs)
  let (whole, cs) ← readWhole cs
  let (fraction, cs) ← readFraction cs
  let (exponent, cs) ← readExponent cs
  return (minus ++ whole ++ fraction ++ exponent, cs)

/-! ## Tokens -/

/-- The words and what they mean. -/
def words : List (List Char × Value) :=
  [("null".toList, .null), ("true".toList, .bool true), ("false".toList, .bool false)]

/-- The word at the front of the text. -/
def readWord (cs : List Char) : Option (Value × List Char) :=
  words.findSome? fun (word, value) => (Text.dropFront? word cs).map fun rest => (value, rest)

/-- The token at the front of the text, and what follows it. -/
def readToken : List Char → Option (Token × List Char)
  | '[' :: cs => some (.openArray, cs)
  | ']' :: cs => some (.closeArray, cs)
  | '{' :: cs => some (.openObject, cs)
  | '}' :: cs => some (.closeObject, cs)
  | ',' :: cs => some (.comma, cs)
  | ':' :: cs => some (.colon, cs)
  | '"' :: cs => (readString cs).map fun (value, rest) => (.scalar value, rest)
  | cs => match readWord cs with
    | some (value, rest) => some (.scalar value, rest)
    | none => (readNumber cs).map fun (spelling, rest) =>
      (.scalar (.number (String.ofList spelling)), rest)

/-! ## A token is never empty -/

theorem length_prepend {piece : Piece} {cs : List Char} {read : Option (List Piece × List Char)}
    {pieces : List Piece} {rest : List Char} (h : read.map (prepend piece) = some (pieces, rest))
    (ih : ∀ {pieces rest}, read = some (pieces, rest) → rest.length < cs.length) :
    rest.length < cs.length := by
  obtain ⟨⟨p, r⟩, hread, heq⟩ := Option.map_eq_some_iff.1 h
  obtain ⟨-, rfl⟩ := Prod.mk.inj heq
  exact ih hread

theorem length_readPieces_lt {cs rest : List Char} {pieces : List Piece}
    (h : readPieces cs = some (pieces, rest)) : rest.length < cs.length := by
  fun_induction readPieces cs generalizing pieces rest with
  | case1 => simp at h
  | case2 cs => simp_all
  | case3 => simp at h
  | case4 a b c d cs u hu ih =>
    have := length_prepend h ih
    simp only [List.length_cons]
    omega
  | case5 => simp at h
  | case6 e cs _ c hc ih =>
    have := length_prepend h ih
    simp only [List.length_cons]
    omega
  | case7 => simp at h
  | case8 c cs _ _ _ _ ih =>
    have := length_prepend h ih
    simp only [List.length_cons]
    omega

theorem length_readString_lt {cs rest : List Char} {value : Value}
    (h : readString cs = some (value, rest)) : rest.length < cs.length := by
  obtain ⟨⟨pieces, r⟩, hread, heq⟩ := Option.map_eq_some_iff.1 h
  have hlen := length_readPieces_lt hread
  simp only at heq
  split at heq
  all_goals
    obtain ⟨-, rfl⟩ := Prod.mk.inj heq
    exact hlen

theorem length_readDigits_lt {cs digits rest : List Char}
    (h : readDigits cs = some (digits, rest)) : rest.length < cs.length := by
  unfold readDigits at h
  split at h
  · simp at h
  · rename_i hne
    obtain ⟨rfl, rfl⟩ := Prod.mk.inj (Option.some.inj h)
    have hsplit := congrArg List.length (List.takeWhile_append_dropWhile (p := isDigit) (l := cs))
    have hpos : 0 < (cs.takeWhile isDigit).length :=
      List.length_pos_iff.2 fun hnil => hne (by rw [hnil]; rfl)
    rw [List.length_append] at hsplit
    omega

theorem length_readWhole_lt {cs whole rest : List Char}
    (h : readWhole cs = some (whole, rest)) : rest.length < cs.length := by
  unfold readWhole at h
  split at h
  · simp_all
  · exact length_readDigits_lt h

theorem length_readFraction_le {cs fraction rest : List Char}
    (h : readFraction cs = some (fraction, rest)) : rest.length ≤ cs.length := by
  unfold readFraction at h
  split at h
  · obtain ⟨⟨digits, r⟩, hread, heq⟩ := Option.map_eq_some_iff.1 h
    obtain ⟨-, rfl⟩ := Prod.mk.inj heq
    exact Nat.le_succ_of_le (Nat.le_of_lt (length_readDigits_lt hread))
  · simp_all

theorem length_readSign_le (cs : List Char) : (readSign cs).2.length ≤ cs.length := by
  unfold readSign
  split <;> simp

theorem length_readExponent_le {cs exponent rest : List Char}
    (h : readExponent cs = some (exponent, rest)) : rest.length ≤ cs.length := by
  unfold readExponent at h
  split at h
  · simp_all
  · rename_i e cs
    split at h
    · obtain ⟨⟨digits, r⟩, hread, heq⟩ := Option.map_eq_some_iff.1 h
      obtain ⟨-, rfl⟩ := Prod.mk.inj heq
      exact Nat.le_succ_of_le
        (Nat.le_trans (Nat.le_of_lt (length_readDigits_lt hread)) (length_readSign_le cs))
    · simp_all

theorem length_readNumber_lt {cs spelling rest : List Char}
    (h : readNumber cs = some (spelling, rest)) : rest.length < cs.length := by
  simp only [readNumber, Option.bind_eq_bind, Option.bind_eq_some_iff, Option.pure_def,
    Option.some.injEq, Prod.mk.injEq] at h
  obtain ⟨⟨whole, r1⟩, hwhole, ⟨fraction, r2⟩, hfraction, ⟨exponent, r3⟩, hexponent, -, rfl⟩ := h
  have hminus : ∀ r, (match cs with
      | '-' :: rest => (['-'], rest)
      | _ => ([], cs)).2 = r → r.length ≤ cs.length := by
    rintro r rfl
    split <;> simp
  have h0 := hminus _ rfl
  have h1 := length_readWhole_lt hwhole
  have h2 := length_readFraction_le hfraction
  have h3 := length_readExponent_le hexponent
  simp only at *
  omega

theorem length_readWord_lt {cs rest : List Char} {value : Value}
    (h : readWord cs = some (value, rest)) : rest.length < cs.length := by
  obtain ⟨⟨word, v⟩, hword, h⟩ := List.exists_of_findSome?_eq_some h
  obtain ⟨r, hprefix, heq⟩ := Option.map_eq_some_iff.1 h
  obtain ⟨-, rfl⟩ := Prod.mk.inj heq
  have hlen := Text.length_of_dropFront? hprefix
  have hpos : 0 < word.length := by
    revert hword
    simp only [words, List.mem_cons, Prod.mk.injEq, List.not_mem_nil, or_false]
    rintro (⟨rfl, -⟩ | ⟨rfl, -⟩ | ⟨rfl, -⟩) <;> decide
  omega

/-- Reading a token makes the text shorter. -/
theorem length_readToken_lt {cs rest : List Char} {token : Token}
    (h : readToken cs = some (token, rest)) : rest.length < cs.length := by
  unfold readToken at h
  split at h
  case h_7 cs =>
    obtain ⟨⟨value, r⟩, hread, heq⟩ := Option.map_eq_some_iff.1 h
    obtain ⟨-, rfl⟩ := Prod.mk.inj heq
    exact Nat.lt_succ_of_lt (length_readString_lt hread)
  case h_8 =>
    split at h
    · rename_i hread
      obtain ⟨-, rfl⟩ := Prod.mk.inj (Option.some.inj h)
      exact length_readWord_lt hread
    · obtain ⟨⟨spelling, r⟩, hread, heq⟩ := Option.map_eq_some_iff.1 h
      obtain ⟨-, rfl⟩ := Prod.mk.inj heq
      exact length_readNumber_lt hread
  all_goals simp_all

end Referent.Json

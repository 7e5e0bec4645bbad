import Referent.Text.Blank

/-!
# Decimal numerals of 32 bits

Ids and dimensions are 32-bit, and they are written in decimal in three places with three
grammars: the environment allows a leading `+` and leading zeros, the command line allows
either sign, and JSON text allows none of these (its reader has already refused them). All
come down to `digitsValue`, which is unbounded, followed by the range check `narrow`.
-/

namespace Referent.Text

/-- The value of one ASCII digit. -/
def digitValue (c : Char) : Option Nat :=
  if '0' ≤ c ∧ c ≤ '9' then some (c.toNat - '0'.toNat) else none

/-- The value of a run of digits read after a number `high`; nothing if any character is no
digit. -/
def digitsFrom (high : Nat) : List Char → Option Nat
  | [] => some high
  | c :: cs => do digitsFrom (10 * high + (← digitValue c)) cs

/-- The value of a numeral: at least one digit and nothing else. -/
def digitsValue (cs : List Char) : Option Nat :=
  if cs.isEmpty then none else digitsFrom 0 cs

/-- A number as a 32-bit word, if it is one. -/
def narrow (n : Nat) : Option UInt32 :=
  if n < UInt32.size then some (UInt32.ofNat n) else none

/-- A 32-bit numeral as people write it: one `+` may stand in front, zeros may lead. -/
def readWord (cs : List Char) : Option UInt32 :=
  let digits := match cs with
    | '+' :: rest => rest
    | _ => cs
  digitsValue digits >>= narrow

/-- A 32-bit numeral with either sign. Behind a minus only zero is in range. -/
def readSigned : List Char → Option UInt32
  | '-' :: digits => digitsValue digits >>= fun n => if n = 0 then some 0 else none
  | cs => readWord cs

end Referent.Text

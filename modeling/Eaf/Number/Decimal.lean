import Eaf.Number.Binary64
import Eaf.Text.Numeral

/-!
# Decimal numbers as they are written

A decimal number is written with an optional sign, digits with an optional point among them, and
an optional exponent of ten. At least one digit stands before the exponent, on either side of the
point, and nothing else is allowed: no blanks, no separators between digits, no names of numbers.

## Main definitions

* `Eaf.Decimal` — an exact decimal number.
* `Eaf.Decimal.Written.read?` — the parts of a number that a text writes.
* `Eaf.Decimal.read?` — the number that a text writes.
* `Eaf.Decimal.toBinary64?` — the nearest finite binary64 number.
-/

namespace Eaf

/-- The decimal number `coefficient * 10 ^ exponent`, or its negative. -/
structure Decimal where
  negative : Bool
  coefficient : Nat
  exponent : Int
  deriving DecidableEq, Repr, Inhabited

namespace Decimal

/-- The exponent of ten at the end of a number; no exponent stands for zero. -/
def readExponent? : List Char → Option Int
  | [] => some 0
  | c :: cs =>
    if c = 'e' || c = 'E' then
      match cs with
      | '-' :: digits => (Numeral.read? digits).map fun n => -(n : Int)
      | '+' :: digits => (Numeral.read? digits).map Int.ofNat
      | digits => (Numeral.read? digits).map Int.ofNat
    else
      none

/-- A number as it is written: its sign, the digits on either side of the point, and the exponent
of ten. -/
structure Written where
  negative : Bool
  whole : List Char
  fraction : List Char
  exponent : Int
  deriving DecidableEq, Repr

/-- The parts of a number without a sign. -/
def Written.readUnsigned? (negative : Bool) (cs : List Char) : Option Written :=
  let whole := cs.takeWhile Char.isDigit
  let rest := cs.dropWhile Char.isDigit
  let (fraction, rest) :=
    match rest with
    | '.' :: cs => (cs.takeWhile Char.isDigit, cs.dropWhile Char.isDigit)
    | cs => ([], cs)
  if whole = [] ∧ fraction = [] then
    none
  else
    (readExponent? rest).map fun exponent => { negative, whole, fraction, exponent }

/-- The parts of a number. -/
def Written.read? : List Char → Option Written
  | '-' :: cs => readUnsigned? true cs
  | '+' :: cs => readUnsigned? false cs
  | cs => readUnsigned? false cs

/-- The number with given parts. Every digit behind the point lowers the exponent by one. -/
def ofWritten (written : Written) : Decimal :=
  { negative := written.negative
    coefficient := Nat.ofDigitChars 10 (written.whole ++ written.fraction) 0
    exponent := written.exponent - written.fraction.length }

/-- The number that a text writes. -/
def read? (cs : List Char) : Option Decimal :=
  (Written.read? cs).map ofWritten

/-- The number of places in front of the point: `10 ^ (places - 1)` is at most the size of a
number that is not zero, and `10 ^ places` is above it. -/
def places (x : Decimal) : Int :=
  (Numeral.write x.coefficient).length + x.exponent

/-- A power of ten. -/
def powerOfTen (exponent : Nat) : Nat :=
  Nat.pow 10 exponent

/-- The nearest finite binary64 number. There is none if the number is too large. The size is
compared with `10 ^ 310` and `10 ^ (-330)` first, beyond which every number overflows or rounds
to zero, so that no power of ten that is formed is huge. -/
def toBinary64? (x : Decimal) : Option Binary64 :=
  if x.coefficient = 0 ∨ x.places < -330 then
    some (Binary64.zero x.negative)
  else if x.places > 310 then
    none
  else if x.exponent < 0 then
    Binary64.ofRatio? x.negative x.coefficient (powerOfTen x.exponent.natAbs)
  else
    Binary64.ofRatio? x.negative (x.coefficient * powerOfTen x.exponent.natAbs) 1

end Decimal

end Eaf

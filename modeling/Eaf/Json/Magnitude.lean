import Eaf.Number.Decimal

/-!
# The size of JSON numbers

A JSON number can have any number of digits. It is held as a significand of 64 bits and a power of
ten: the significand is made of the first digits, as many as it has room for, and digits that come
after these count for their places only. The two are rounded to binary64 each and then multiplied,
so that a number near the largest finite one can be too large although its exact value is not, and
the other way round.

## Main definitions

* `Eaf.Json.Magnitude` — a significand of 64 bits with an exponent of ten.
* `Eaf.Json.Magnitude.ofWritten` — the magnitude of a number that is written in digits.
* `Eaf.Json.Magnitude.isFinite` — whether the product of significand and power is finite.
-/

namespace Eaf.Json

/-- A significand of 64 bits with an exponent of ten. -/
structure Magnitude where
  significand : Nat
  exponent : Int
  deriving DecidableEq, Repr

namespace Magnitude

/-- A word continued by the digits of a list up to the first one for which there is no room, and
the digits from there on. -/
def appendDigits (word : Nat) : List Char → Nat × List Char
  | [] => (word, [])
  | digit :: digits =>
    let longer := Nat.ofDigitChars 10 [digit] word
    if longer < UInt64.size then appendDigits longer digits else (word, digit :: digits)

/-- The magnitude of a number that is written in digits. A whole digit that is left out raises the
exponent, and a digit behind the point that is not left out lowers it. -/
def ofWritten (written : Decimal.Written) : Magnitude :=
  let (word, wholeLeft) := appendDigits 0 written.whole
  let (word, fractionLeft) := appendDigits word written.fraction
  { significand := word
    exponent :=
      written.exponent + wholeLeft.length - (written.fraction.length - fractionLeft.length) }

/-- The largest exponent of a power of ten that is finite in binary64. -/
def maxExponent : Nat := 308

/-- Whether the product of significand and power of ten, each of them in binary64, is finite. -/
def isFinite (x : Magnitude) : Bool :=
  if x.significand = 0 ∨ x.exponent ≤ 0 then
    true
  else if (maxExponent : Int) < x.exponent then
    false
  else
    match Binary64.ofInt? x.significand,
      Binary64.ofInt? (Decimal.powerOfTen x.exponent.toNat) with
    | some significand, some power => (significand.mul? power).isSome
    | _, _ => false

end Magnitude

end Eaf.Json

/-!
# Binary floating-point numbers of 64 bits

The finite numbers of the binary64 format, in exact integer arithmetic. Such a number is a
significand below `2 ^ 53` times a power of two; the smallest positive one, `2 ^ (-1074)`, serves
as the unit, so that every finite number is an integer multiple of it. An operation computes its
exact result as a ratio of units and rounds once, to the nearest number and, between two nearest
ones, to the one with an even significand.

## Main definitions

* `Eaf.Binary64` — a finite number of the format.
* `Eaf.Binary64.round?` — the nearest number to a ratio of units, unless it is too large.
* `Eaf.Binary64.ofRatio?`, `Eaf.Binary64.ofInt?` — the nearest number to a ratio or an integer.
* `Eaf.Binary64.mul?` — a product.
* `Eaf.Binary64.mulNat?`, `Eaf.Binary64.divNat?` — a product and a quotient by a natural number.
* `Eaf.Binary64.floor` — the largest integer that is not above a number.
* `Eaf.Binary64.toBits` — the bits of a number.
-/

namespace Eaf

/-- A finite number of the binary64 format. Its size is `significand * 2 ^ scale` units of
`2 ^ (-1074)`. -/
structure Binary64 where
  negative : Bool
  significand : Nat
  scale : Nat
  deriving DecidableEq, Repr, Inhabited

namespace Binary64

/-- A power of two. -/
def powerOfTwo (exponent : Nat) : Nat :=
  Nat.pow 2 exponent

/-- The number of units in one. -/
def one : Nat :=
  powerOfTwo 1074

/-- The largest scale of the format. -/
def maxScale : Nat :=
  2045

/-- The number zero. -/
def zero (negative : Bool) : Binary64 :=
  { negative, significand := 0, scale := 0 }

/-- The number of units in the size of a number. -/
def units (x : Binary64) : Nat :=
  x.significand * powerOfTwo x.scale

/-- The integer nearest to a ratio; between two nearest ones, the even one. -/
def nearest (numerator denominator : Nat) : Nat :=
  let quotient := numerator / denominator
  let twice := 2 * (numerator % denominator)
  if twice > denominator || (twice == denominator && quotient % 2 == 1) then quotient + 1
  else quotient

/-- The scale at which a size is rounded: significands have 53 bits, or the scale is zero. -/
def scaleOf (size : Nat) : Nat :=
  if size < powerOfTwo 53 then 0 else size.log2 - 52

/-- The number nearest to a ratio of units. There is none if the ratio rounds to a size beyond
the largest finite number. -/
def round? (negative : Bool) (numerator denominator : Nat) : Option Binary64 :=
  let scale := scaleOf (numerator / denominator)
  let significand := nearest numerator (denominator * powerOfTwo scale)
  -- A significand that rounds up to `2 ^ 53` has one bit too many.
  let x : Binary64 :=
    if significand = powerOfTwo 53 then
      { negative, significand := powerOfTwo 52, scale := scale + 1 }
    else
      { negative, significand, scale }
  if x.scale ≤ maxScale then some x else none

/-- The number nearest to a ratio. -/
def ofRatio? (negative : Bool) (numerator denominator : Nat) : Option Binary64 :=
  round? negative (numerator * one) denominator

/-- The number nearest to an integer. -/
def ofInt? (n : Int) : Option Binary64 :=
  ofRatio? (n < 0) n.natAbs 1

/-- The number nearest to a product. -/
def mul? (x y : Binary64) : Option Binary64 :=
  round? (x.negative != y.negative) (x.units * y.units) one

/-- The number nearest to the product with a natural number. -/
def mulNat? (x : Binary64) (factor : Nat) : Option Binary64 :=
  round? x.negative (x.units * factor) 1

/-- The number nearest to the quotient by a positive natural number. -/
def divNat? (x : Binary64) (divisor : Nat) : Option Binary64 :=
  round? x.negative x.units divisor

/-- The largest integer that is not above a number. -/
def floor (x : Binary64) : Int :=
  let size : Int := x.units
  (if x.negative then -size else size) / (one : Int)

/-- The bits of a number: sign, eleven bits of exponent and 52 bits of fraction. -/
def toBits (x : Binary64) : UInt64 :=
  let sign := if x.negative then powerOfTwo 63 else 0
  let size :=
    if x.significand < powerOfTwo 52 then x.significand
    else (x.scale + 1) * powerOfTwo 52 + (x.significand - powerOfTwo 52)
  UInt64.ofNat (sign + size)

end Binary64

end Eaf

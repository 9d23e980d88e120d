import Eaf.Number.Decimal
import Eaf.Text.Blank

/-!
# Times as they are written

A file gives the time of a slot as a decimal number of milliseconds or of seconds. The number is
read as binary64, seconds are multiplied by a thousand in binary64, and the result is rounded down
to an integer of 64 bits; a result out of their range becomes the nearest one in it.

## Main definitions

* `Eaf.TimeUnit` — the unit in which a file gives times.
* `Eaf.saturate` — the nearest 64-bit integer.
* `Eaf.TimeUnit.read?` — the time that a text writes, in milliseconds.
* `Eaf.secondsOf` — a time as a binary64 number of seconds.
-/

namespace Eaf

/-- The 64-bit integer that is nearest to an integer. -/
def saturate (n : Int) : Int64 :=
  if n < Int64.minValue.toInt then Int64.minValue
  else if Int64.maxValue.toInt < n then Int64.maxValue
  else Int64.ofInt n

/-- The unit in which a file gives times. -/
inductive TimeUnit
  | milliseconds
  | seconds
  deriving DecidableEq, Repr

namespace TimeUnit

/-- A finite number of units in milliseconds, rounded down. A product too large for a finite
number is as large as can be. -/
def toMillis (unit : TimeUnit) (x : Binary64) : Int64 :=
  match unit with
  | milliseconds => saturate x.floor
  | seconds =>
    match x.mulNat? 1000 with
    | some product => saturate product.floor
    | none => if x.negative then Int64.minValue else Int64.maxValue

/-- The time that a text writes, in milliseconds. Blanks around the number are ignored. A text
that is no decimal number, or whose number is too large to be finite, writes no time. -/
def read? (unit : TimeUnit) (text : String) : Option Int64 :=
  ((Decimal.read? (Text.trim text.toList)).bind Decimal.toBinary64?).map unit.toMillis

end TimeUnit

/-- A time in milliseconds as a number of seconds: the nearest binary64 number to the time,
divided by a thousand. Every 64-bit integer is near a finite number, so there always is one. -/
def secondsOf (value : Int64) : Binary64 :=
  ((Binary64.ofInt? value.toInt).bind (·.divNat? 1000)).getD (Binary64.zero false)

end Eaf

/-!
# Numerals

A decimal numeral is a nonempty run of ASCII digits. Leading zeros are allowed when it is read and
never written. Numerals of 64-bit words are refused when their value does not fit. In other bases
only the values of digits are needed.

## Main definitions

* `Eaf.Numeral.write`, `Eaf.Numeral.writeInt` — the shortest numeral of a number.
* `Eaf.Numeral.read?`, `Eaf.Numeral.readWord?` — the value of a numeral.
* `Eaf.Numeral.digitsValue` — the value of digits of any base up to sixteen.

## Main results

* `Eaf.Numeral.read?_write`, `Eaf.Numeral.readWord?_write` — what is written reads back.
-/

namespace Eaf.Numeral

/-- The decimal digits of a number, without leading zeros. -/
def write (n : Nat) : List Char :=
  Nat.toDigits 10 n

/-- The decimal numeral of an integer, with a minus sign if it is negative. -/
def writeInt : Int → List Char
  | .ofNat n => write n
  | .negSucc n => '-' :: write (n + 1)

/-- The value of a nonempty run of ASCII digits. -/
def read? (cs : List Char) : Option Nat :=
  if cs ≠ [] ∧ cs.all Char.isDigit then some (Nat.ofDigitChars 10 cs 0) else none

/-- The value of a numeral that fits a 64-bit word. -/
def readWord? (cs : List Char) : Option UInt64 :=
  (read? cs).bind fun n => if h : n < UInt64.size then some (UInt64.ofNatLT n h) else none

/-- The value of a numeral that fits a 64-bit word and may follow one plus sign. -/
def readSignedWord? : List Char → Option UInt64
  | '+' :: cs => readWord? cs
  | cs => readWord? cs

/-! ### Other bases -/

/-- The value of a hexadecimal digit. -/
def hexValue? (c : Char) : Option Nat :=
  let n := c.toNat
  if 0x30 ≤ n ∧ n ≤ 0x39 then some (n - 0x30)
  else if 0x41 ≤ n ∧ n ≤ 0x46 then some (n - 0x41 + 10)
  else if 0x61 ≤ n ∧ n ≤ 0x66 then some (n - 0x61 + 10)
  else none

/-- The value of a run of digits of a given base. -/
def digitsValue (base : Nat) (digits : List Char) : Nat :=
  digits.foldl (fun value c => base * value + (hexValue? c).getD 0) 0

/-! ### Reading back -/

theorem write_ne_nil (n : Nat) : write n ≠ [] := by
  rw [write, Nat.toDigits_eq_if (by decide)]
  split <;> simp

theorem isDigit_of_mem_write {n : Nat} {c : Char} (h : c ∈ write n) : c.isDigit = true :=
  Nat.isDigit_of_mem_toDigits (by decide) (by decide) h

theorem read?_write (n : Nat) : read? (write n) = some n := by
  rw [read?, if_pos ⟨write_ne_nil n, List.all_eq_true.2 fun _ h => isDigit_of_mem_write h⟩]
  simp [write, Nat.ofDigitChars_toDigits]

theorem readWord?_write (w : UInt64) : readWord? (write w.toNat) = some w := by
  simp [readWord?, read?_write, w.toNat_lt_size]

end Eaf.Numeral

import Eaf.Json.Magnitude

/-!
# JSON values

A value is null, a truth value, a number, a text, a list or a record. Numbers keep the numeral they
are written with, and records keep their fields in order, also those whose key stood before.

A text may be written with escapes that name one half of a pair of 16-bit units. Such a text
stands for no string. It is a value all the same, since nobody need look at it.

## Main definitions

* `Eaf.Json.Value` — a value.
* `Eaf.Json.Value.fits` — whether a value can be held with texts that are strings, numbers in
  binary64 and a bounded number of levels.
-/

namespace Eaf.Json

/-- A JSON value. -/
inductive Value
  | null
  | bool (value : Bool)
  | number (numeral : String)
  /-- A text; nothing if it stands for no string. -/
  | text (content : Option String)
  | list (items : List Value)
  | record (fields : List (Option String × Value))
  deriving Repr, Inhabited

namespace Value

/-- The value that writes a natural number. -/
def ofNat (n : Nat) : Value :=
  number (String.ofList (Numeral.write n))

/-- The value that writes a string. -/
def ofString (s : String) : Value :=
  text (some s)

/-- The value that writes a string or, if there is none, null. -/
def ofString? : Option String → Value
  | some s => ofString s
  | none => null

/-- The record with the given fields. -/
def ofFields (fields : List (String × Value)) : Value :=
  record (fields.map fun (key, value) => (some key, value))

mutual

/-- Whether a value fits into memory with the given number of levels of lists and records: its
texts and keys are strings and its numbers are finite in binary64. -/
def fits (levels : Nat) : Value → Bool
  | null => true
  | bool _ => true
  | number numeral =>
    (Decimal.Written.read? numeral.toList).any fun written =>
      (Magnitude.ofWritten written).isFinite
  | text content => content.isSome
  | list items => levels ≠ 0 && allFit (levels - 1) items
  | record fields => levels ≠ 0 && allFieldsFit (levels - 1) fields

/-- Whether all values of a list fit. -/
def allFit (levels : Nat) : List Value → Bool
  | [] => true
  | item :: items => item.fits levels && allFit levels items

/-- Whether all fields of a record fit. -/
def allFieldsFit (levels : Nat) : List (Option String × Value) → Bool
  | [] => true
  | (key, value) :: fields => key.isSome && value.fits levels && allFieldsFit levels fields

end

end Value

end Eaf.Json

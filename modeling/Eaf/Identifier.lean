import Eaf.Text.Numeral
import Eaf.Text.Scan

/-!
# Numbered identifiers

Tiers, annotations and time slots carry ids. An id that the library makes up is the stem of its
family followed by a decimal number: `tier0`, `an17`, `ts4`. An id read from a file may be any
text; it counts as numbered when it has this form, whatever object carries it.

## Main definitions

* `Eaf.IdFamily` — the three families of ids, with their stems and nouns.
* `Eaf.IdFamily.number` — the id of a family with a given number.
* `Eaf.IdFamily.numbered?` — the family and number of a numbered id.

## Main results

* `Eaf.IdFamily.numbered?_number` — a made-up id decodes to its family and number.
-/

namespace Eaf

/-- The three families of ids in an annotation document. -/
inductive IdFamily
  | tier
  | note
  | timeSlot
  deriving DecidableEq, Repr, Inhabited

namespace IdFamily

/-- What every numbered id of a family begins with. -/
def stem : IdFamily → String
  | tier => "tier"
  | note => "an"
  | timeSlot => "ts"

/-- What an object of the family is called in messages. -/
def noun : IdFamily → String
  | tier => "tier"
  | note => "annotation"
  | timeSlot => "time slot"

/-- All families; no stem of one begins the stem of another. -/
def all : List IdFamily :=
  [tier, note, timeSlot]

/-- The id of a family with a given number. -/
def number (family : IdFamily) (n : UInt64) : String :=
  String.ofList (family.stem.toList ++ Numeral.write n.toNat)

/-- The number of an id of the family: the stem, then at least one ASCII digit and nothing else,
with a value that fits a 64-bit word. -/
def numberOf? (family : IdFamily) (id : String) : Option UInt64 :=
  (Text.after? family.stem.toList id.toList).bind Numeral.readWord?

/-- The family and number of an id that has the form of a numbered one. -/
def numbered? (id : String) : Option (IdFamily × UInt64) :=
  all.findSome? fun family => (family.numberOf? id).map (family, ·)

/-! ### Reading back -/

theorem numberOf?_number (family : IdFamily) (n : UInt64) :
    family.numberOf? (family.number n) = some n := by
  simp [numberOf?, number, Numeral.readWord?_write]

/-- An id of one family is no id of another. -/
theorem numberOf?_number_of_ne {family other : IdFamily} (h : other ≠ family) (n : UInt64) :
    other.numberOf? (family.number n) = none := by
  cases family <;> cases other <;> first
    | exact absurd rfl h
    | simp [numberOf?, number, stem, Text.after?]

theorem numbered?_number (family : IdFamily) (n : UInt64) :
    numbered? (family.number n) = some (family, n) := by
  cases family <;>
    simp [numbered?, all, numberOf?_number, numberOf?_number_of_ne]

theorem number_injective (family : IdFamily) {m n : UInt64}
    (h : family.number m = family.number n) : m = n :=
  Option.some.inj <| (numberOf?_number family m).symm.trans <|
    (congrArg family.numberOf? h).trans (numberOf?_number family n)

end IdFamily

end Eaf

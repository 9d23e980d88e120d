import Eaf.Json.Value

/-!
# Records with known keys

Settings are read from records whose keys are known. A known key may stand in the record at most
once; other keys are passed over, however often they stand there. In place of a record, a list may
give the values of the keys in order, and leave out values at its end.

## Main definitions

* `Eaf.Json.Entries` — the values that are given for the known keys.
* `Eaf.Json.Value.entries?` — the values that a record or a list gives.
* `Eaf.Json.Entries.read?` — what is given for a key, or a default.
-/

namespace Eaf.Json

/-- The values that are given for some of the known keys. -/
abbrev Entries :=
  List (String × Value)

/-- The values that a record or a list gives for known keys. -/
def Value.entries? (keys : List String) : Value → Option Entries
  | .list items => if items.length ≤ keys.length then some (keys.zip items) else none
  | .record fields => do
    let named ← fields.mapM fun (key, value) => key.map (·, value)
    let known := named.filter fun entry => keys.contains entry.1
    if (known.map (·.1)).Nodup then some known else none
  | _ => none

/-- What is read from the value that is given for a key. If none is given, it is the default. -/
def Entries.read? {α : Type} (entries : Entries) (key : String) (read? : Value → Option α)
    (default : α) : Option α :=
  match entries.lookup key with
  | some value => read? value
  | none => some default

namespace Value

/-- The truth value that a value is. -/
def toBool? : Value → Option Bool
  | bool value => some value
  | _ => none

/-- The string that a value is. -/
def toString? : Value → Option String
  | text content => content
  | _ => none

/-- The string that a value is, or the absence of one. -/
def toOptionalString? : Value → Option (Option String)
  | null => some none
  | value => value.toString?.map some

/-- The 64-bit word that a value is. It is written with digits alone. -/
def toWord? : Value → Option UInt64
  | number numeral => Numeral.readWord? numeral.toList
  | _ => none

end Value

end Eaf.Json

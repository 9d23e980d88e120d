import Eaf.Json.Token
import Eaf.Json.Value

/-!
# Reading JSON

A text is read as one value, with nothing behind it. Commas stand between the items of a list and
between the fields of a record, and nowhere else.

## Main definitions

* `Eaf.Json.Value.read?` — the value that a text writes.
-/

namespace Eaf.Json.Value

mutual

/-- The value at the front of a list of tokens, and the tokens behind it. The first argument bounds
the number of steps. -/
def take? : Nat → List Token → Option (Value × List Token)
  | 0, _ => none
  | _, [] => none
  | steps + 1, token :: tokens =>
    match token with
    | .null => some (.null, tokens)
    | .bool value => some (.bool value, tokens)
    | .number numeral => some (.number (String.ofList numeral), tokens)
    | .text content => some (.text (content.map String.ofList), tokens)
    | .openList =>
      match tokens with
      | .closeList :: rest => some (.list [], rest)
      | _ => (takeItems? steps tokens).map fun (items, rest) => (.list items, rest)
    | .openRecord =>
      match tokens with
      | .closeRecord :: rest => some (.record [], rest)
      | _ => (takeFields? steps tokens).map fun (fields, rest) => (.record fields, rest)
    | _ => none

/-- The items of a list that has been opened, and what follows its closing bracket. -/
def takeItems? : Nat → List Token → Option (List Value × List Token)
  | 0, _ => none
  | steps + 1, tokens =>
    match take? steps tokens with
    | some (item, .comma :: rest) =>
      (takeItems? steps rest).map fun (items, rest) => (item :: items, rest)
    | some (item, .closeList :: rest) => some ([item], rest)
    | _ => none

/-- The fields of a record that has been opened, and what follows its closing bracket. -/
def takeFields? : Nat → List Token → Option (List (Option String × Value) × List Token)
  | steps + 1, .text key :: .colon :: tokens =>
    match take? steps tokens with
    | some (value, .comma :: rest) =>
      (takeFields? steps rest).map fun (fields, rest) =>
        ((key.map String.ofList, value) :: fields, rest)
    | some (value, .closeRecord :: rest) => some ([(key.map String.ofList, value)], rest)
    | _ => none
  | _, _ => none

end

/-- The value that a text writes. A value and an item of a list take one step each, and every value
begins with a token of its own, so that there are at least as many steps as needed. -/
def read? (text : String) : Option Value :=
  (tokens? text.toList).bind fun tokens =>
    match take? (2 * tokens.length + 1) tokens with
    | some (value, []) => some value
    | _ => none

end Eaf.Json.Value

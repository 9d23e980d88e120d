import Eaf.Xml.Character
import Eaf.Text.Numeral
import Eaf.Text.Scan

/-!
# References in character data

A text or an attribute value is written with references in it: `&lt;` and its like for the five
characters that mark up a document, and `&#65;` or `&#x41;` for any character. Reading replaces
references and settles line ends; writing escapes the five characters.

## Main definitions

* `Eaf.Xml.escape` — character data with the five characters escaped.
* `Eaf.Xml.units?` — character data as a list of characters, each plain or written as a reference.
* `Eaf.Xml.decodeText?`, `Eaf.Xml.decodeValue?` — what the character data of a text and of an
  attribute value stand for.

## Main results

* `Eaf.Xml.units?_escape` — escaped data hold the characters that were escaped.
-/

namespace Eaf.Xml

/-! ### Writing -/

/-- How a character is written in character data. -/
def escapeChar : Char → List Char
  | '<' => "&lt;".toList
  | '>' => "&gt;".toList
  | '&' => "&amp;".toList
  | '\x27' => "&apos;".toList
  | '\x22' => "&quot;".toList
  | c => [c]

/-- Character data with the five markup characters escaped. -/
def escape (cs : List Char) : List Char :=
  cs.flatMap escapeChar

/-! ### Reading one reference -/

/-- The characters that have a name of their own. -/
def named? (name : List Char) : Option Char :=
  if name = "lt".toList then some '<'
  else if name = "gt".toList then some '>'
  else if name = "amp".toList then some '&'
  else if name = "apos".toList then some '\x27'
  else if name = "quot".toList then some '\x22'
  else none

/-- The character with a given number. A number that fits 32 bits and is no character stands for
the replacement character; a larger one stands for nothing, and so does a character that may not
occur. -/
def numbered? (n : Nat) : Option Char :=
  if n < UInt32.size then
    let c := if n.isValidChar then Char.ofNat n else '\uFFFD'
    if isAllowed c then some c else none
  else
    none

/-- The character that a reference stands for, by what is written between its marks. -/
def referred? : List Char → Option Char
  | '#' :: 'x' :: digits =>
    if digits ≠ [] ∧ digits.all (fun c => (Numeral.hexValue? c).isSome) then
      numbered? (Numeral.digitsValue 16 digits)
    else
      none
  | '#' :: digits =>
    if digits ≠ [] ∧ digits.all Char.isDigit then
      numbered? (Numeral.digitsValue 10 digits)
    else
      none
  | name => named? name

/-- The character that a reference stands for, with the rest of the data. The ampersand that
begins the reference has been read. -/
def reference? (cs : List Char) : Option (Char × List Char) :=
  match cs.dropWhile (· ≠ ';') with
  | [] => none
  | _ :: rest => (referred? (cs.takeWhile (· ≠ ';'))).map (·, rest)

theorem length_of_reference? {cs rest : List Char} {c : Char}
    (h : reference? cs = some (c, rest)) : rest.length < cs.length := by
  unfold reference? at h
  split at h
  · cases h
  next hd =>
    simp only [Option.map_eq_some_iff, Prod.mk.injEq] at h
    obtain ⟨_, _, rfl, rfl⟩ := h
    have := Text.length_dropWhile_le (· ≠ ';') cs
    rw [hd] at this
    simp only [List.length_cons] at this
    omega

/-! ### Reading character data -/

/-- A character of character data, and whether it is written as a reference. -/
structure Datum where
  char : Char
  referred : Bool
  deriving DecidableEq, Repr

/-- The characters of character data. There are none if a reference is malformed. -/
def units? : List Char → Option (List Datum)
  | [] => some []
  | c :: cs =>
    if c = '&' then
      match _h : reference? cs with
      | none => none
      | some (d, rest) => (units? rest).map ({ char := d, referred := true } :: ·)
    else
      (units? cs).map ({ char := c, referred := false } :: ·)
termination_by cs => cs.length
decreasing_by
  · have := length_of_reference? _h
    simp only [List.length_cons]
    omega
  · simp

/-- The characters of a text, with its line ends settled: a line feed, a carriage return, or both
in this order end a line, which is one line feed in the result. A carriage return that is written
as a reference is no line end. Nor is one that a reference follows, or that stands between a
reference and the end of the text. -/
def settleLines : (afterReference : Bool) → List Datum → List Char
  | _, [] => []
  | afterReference, u :: us =>
    if u.referred then u.char :: settleLines true us
    else if u.char = '\r' then
      match us with
      | [] => if afterReference then ['\r'] else ['\n']
      | next :: _ =>
        if next.referred then '\r' :: settleLines false us
        else if next.char = '\n' then settleLines false us
        else '\n' :: settleLines false us
    else u.char :: settleLines false us

/-- The characters of an attribute value. A tab or a line end is one space, unless it is written
as a reference. -/
def settleValue : List Datum → List Char
  | [] => []
  | u :: us =>
    if u.referred then u.char :: settleValue us
    else if u.char = '\r' ∧ us.head? = some { char := '\n', referred := false } then settleValue us
    else if u.char = '\t' ∨ u.char = '\n' ∨ u.char = '\r' then ' ' :: settleValue us
    else u.char :: settleValue us

/-- What the character data of a text stand for. -/
def decodeText? (cs : List Char) : Option (List Char) :=
  (units? cs).map (settleLines false)

/-- What the character data of an attribute value stand for. -/
def decodeValue? (cs : List Char) : Option (List Char) :=
  (units? cs).map settleValue

/-- What a section of unmarked character data stands for: references have no meaning in it, and
its line ends are settled. -/
def decodeSection (cs : List Char) : List Char :=
  settleLines false (cs.map fun c => { char := c, referred := false })

/-! ### Reading back -/

/-- Whether a character is escaped when it is written. -/
def isMarkup (c : Char) : Bool :=
  c == '<' || c == '>' || c == '&' || c == '\x27' || c == '\x22'

theorem reference?_append {name cs : List Char} {c : Char} (hname : ∀ d ∈ name, d ≠ ';')
    (h : referred? name = some c) : reference? (name ++ ';' :: cs) = some (c, cs) := by
  have hp : ∀ d ∈ name, decide (d ≠ ';') = true := fun d hd => decide_eq_true (hname d hd)
  have hdrop : (name ++ ';' :: cs).dropWhile (fun d => decide (d ≠ ';')) = ';' :: cs := by
    rw [List.dropWhile_append_of_pos hp, List.dropWhile_cons_of_neg (by simp)]
  have htake : (name ++ ';' :: cs).takeWhile (fun d => decide (d ≠ ';')) = name := by
    rw [List.takeWhile_append_of_pos hp, List.takeWhile_cons_of_neg (by simp), List.append_nil]
  rw [reference?, hdrop, htake, h]
  rfl

theorem units?_reference {name : List Char} {c : Char} (hname : ∀ d ∈ name, d ≠ ';')
    (h : referred? name = some c) (cs : List Char) :
    units? ('&' :: (name ++ ';' :: cs)) =
      (units? cs).map ({ char := c, referred := true } :: ·) := by
  rw [units?, if_pos rfl]
  split
  next h' => simp [reference?_append hname h] at h'
  next h' =>
    rw [reference?_append hname h] at h'
    cases h'
    rfl

theorem units?_escapeChar_append (c : Char) (cs : List Char) :
    units? (escapeChar c ++ cs) =
      (units? cs).map ({ char := c, referred := isMarkup c } :: ·) := by
  unfold escapeChar
  split
  · exact @units?_reference ['l', 't'] _ (by simp) (by decide) cs
  · exact @units?_reference ['g', 't'] _ (by simp) (by decide) cs
  · exact @units?_reference ['a', 'm', 'p'] _ (by simp) (by decide) cs
  · exact @units?_reference ['a', 'p', 'o', 's'] _ (by simp) (by decide) cs
  · exact @units?_reference ['q', 'u', 'o', 't'] _ (by simp) (by decide) cs
  next h1 h2 h3 h4 h5 =>
    have hc : isMarkup c = false := by
      simp only [isMarkup, Bool.or_eq_false_iff, beq_eq_false_iff_ne]
      exact ⟨⟨⟨⟨h1, h2⟩, h3⟩, h4⟩, h5⟩
    rw [List.singleton_append, units?, if_neg h3, hc]

theorem units?_escape (cs : List Char) :
    units? (escape cs) = some (cs.map fun c => { char := c, referred := isMarkup c }) := by
  induction cs with
  | nil => simp [escape, units?]
  | cons c cs ih =>
    have : escape (c :: cs) = escapeChar c ++ escape cs := rfl
    rw [this, units?_escapeChar_append, ih]
    rfl

end Eaf.Xml

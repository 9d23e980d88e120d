import Eaf.Text.Numeral
import Eaf.Text.Scan

/-!
# The tokens of a JSON text

A JSON text is a sequence of brackets, commas, colons, words, numerals and quoted texts, with white
space between them. Nothing else may stand in it, neither a comment nor a byte order mark.

## Main definitions

* `Eaf.Json.numeral?` — the numeral at the front of a text.
* `Eaf.Json.marks?`, `Eaf.Json.characters?` — what a quoted text is written with, and the
  characters that it stands for.
* `Eaf.Json.tokens?` — all tokens of a text.
-/

namespace Eaf.Json

/-- A token of a JSON text. -/
inductive Token
  | openList
  | closeList
  | openRecord
  | closeRecord
  | comma
  | colon
  | null
  | bool (value : Bool)
  | number (numeral : List Char)
  /-- A quoted text; nothing if it stands for no string. -/
  | text (content : Option (List Char))
  deriving DecidableEq, Repr

/-- The characters of a text up to the first one of another kind, and the rest of the text. There
must be at least one of them. -/
def digits? (cs : List Char) : Option (List Char × List Char) :=
  let digits := cs.takeWhile Char.isDigit
  if digits = [] then none else some (digits, cs.dropWhile Char.isDigit)

/-! ### Numerals -/

/-- The whole part of a numeral: a zero alone, or digits that begin with another one. -/
def whole? : List Char → Option (List Char × List Char)
  | '0' :: cs => some (['0'], cs)
  | cs => digits? cs

/-- The part of a numeral behind the point, with the point. There need not be one. -/
def fraction? : List Char → Option (List Char × List Char)
  | '.' :: cs => (digits? cs).map fun (digits, rest) => ('.' :: digits, rest)
  | cs => some ([], cs)

/-- The sign of an exponent, of which there need be none. -/
def exponentSign : List Char → List Char × List Char
  | '+' :: cs => (['+'], cs)
  | '-' :: cs => (['-'], cs)
  | cs => ([], cs)

/-- The exponent of a numeral, with its letter. There need not be one. -/
def exponent? : List Char → Option (List Char × List Char)
  | [] => some ([], [])
  | c :: cs =>
    if c = 'e' ∨ c = 'E' then
      let (sign, cs) := exponentSign cs
      (digits? cs).map fun (digits, rest) => (c :: sign ++ digits, rest)
    else
      some ([], c :: cs)

/-- The numeral without a sign at the front of a text, and the rest of the text. -/
def unsigned? (cs : List Char) : Option (List Char × List Char) := do
  let (whole, cs) ← whole? cs
  let (fraction, cs) ← fraction? cs
  let (exponent, cs) ← exponent? cs
  return (whole ++ fraction ++ exponent, cs)

/-- The numeral at the front of a text, and the rest of the text. -/
def numeral? : List Char → Option (List Char × List Char)
  | '-' :: cs => (unsigned? cs).map fun (numeral, rest) => ('-' :: numeral, rest)
  | cs => unsigned? cs

/-! ### Quoted texts -/

/-- What a quoted text is written with: a character, or the number of a 16-bit unit. -/
inductive Mark
  | char (c : Char)
  | unit (number : Nat)
  deriving DecidableEq, Repr

/-- The character that a letter behind a backslash stands for. -/
def escaped? : Char → Option Char
  | '\x22' => some '\x22'
  | '\\' => some '\\'
  | '/' => some '/'
  | 'b' => some '\x08'
  | 'f' => some '\x0c'
  | 'n' => some '\n'
  | 'r' => some '\r'
  | 't' => some '\t'
  | _ => none

/-- The unit that four hexadecimal digits name. -/
def unit? (digits : List Char) : Option Mark :=
  if digits.all fun c => (Numeral.hexValue? c).isSome then
    some (.unit (Numeral.digitsValue 16 digits))
  else
    none

/-- The marks of a quoted text whose opening quote has been read, and what follows its closing
quote. Control characters must be escaped. -/
def marks? : List Char → Option (List Mark × List Char)
  | [] => none
  | '\\' :: 'u' :: a :: b :: c :: d :: cs =>
    match unit? [a, b, c, d], marks? cs with
    | some mark, some (marks, rest) => some (mark :: marks, rest)
    | _, _ => none
  | '\\' :: c :: cs =>
    match escaped? c, marks? cs with
    | some c, some (marks, rest) => some (.char c :: marks, rest)
    | _, _ => none
  | c :: cs =>
    if c = '\x22' then some ([], cs)
    else if c.toNat < 0x20 then none
    else (marks? cs).map fun (marks, rest) => (.char c :: marks, rest)

/-- Whether a unit is the first half of a pair. -/
def isHigh (unit : Nat) : Bool :=
  0xD800 ≤ unit && unit < 0xDC00

/-- Whether a unit is the second half of a pair. -/
def isLow (unit : Nat) : Bool :=
  0xDC00 ≤ unit && unit < 0xE000

/-- The characters that marks stand for. A unit is a character, or half of one. -/
def characters? : List Mark → Option (List Char)
  | [] => some []
  | .char c :: marks => (characters? marks).map (c :: ·)
  | [.unit n] => if isHigh n || isLow n then none else some [Char.ofNat n]
  | .unit n :: .unit m :: marks =>
    if isHigh n then
      if isLow m then
        (characters? marks).map
          (Char.ofNat (0x10000 + (n - 0xD800) * 0x400 + (m - 0xDC00)) :: ·)
      else
        none
    else if isLow n then none
    else (characters? (.unit m :: marks)).map (Char.ofNat n :: ·)
  | .unit n :: marks =>
    if isHigh n || isLow n then none else (characters? marks).map (Char.ofNat n :: ·)

/-! ### Tokens -/

/-- Whether a character is white space. -/
def isSpace (c : Char) : Bool :=
  c == ' ' || c == '\t' || c == '\n' || c == '\r'

namespace Token

/-- The token that a bracket, a comma or a colon makes. -/
def ofChar? : Char → Option Token
  | '[' => some openList
  | ']' => some closeList
  | '\x7b' => some openRecord
  | '\x7d' => some closeRecord
  | ',' => some comma
  | ':' => some colon
  | _ => none

/-- The token that a word makes, and what follows the word. -/
def word? (cs : List Char) : Option (Token × List Char) :=
  (((Text.after? "null".toList cs).map (null, ·)).or
    ((Text.after? "true".toList cs).map (bool true, ·))).or
    ((Text.after? "false".toList cs).map (bool false, ·))

/-- The token at the front of a text that begins with a given character, and the rest of the
text. -/
def next? (c : Char) (cs : List Char) : Option (Token × List Char) :=
  match ofChar? c with
  | some token => some (token, cs)
  | none =>
    if c = '\x22' then
      (marks? cs).map fun (marks, rest) => (text (characters? marks), rest)
    else if c = '-' ∨ c.isDigit then
      (numeral? (c :: cs)).map fun (numeral, rest) => (number numeral, rest)
    else
      word? (c :: cs)

end Token

/-- All tokens of a text, found with as many steps as are allowed. Every step reads at least one
character. -/
def tokensWithin? : Nat → List Char → Option (List Token)
  | _, [] => some []
  | 0, _ :: _ => none
  | steps + 1, c :: cs =>
    if isSpace c then tokensWithin? steps cs
    else
      match Token.next? c cs with
      | some (token, rest) => (tokensWithin? steps rest).map (token :: ·)
      | none => none

/-- All tokens of a text, in order. -/
def tokens? (cs : List Char) : Option (List Token) :=
  tokensWithin? cs.length cs

end Eaf.Json

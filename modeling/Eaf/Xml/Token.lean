import Eaf.Xml.Reference

/-!
# The marks of an XML document

A document is a sequence of marks: tags, sections of unmarked text, comments and processing
instructions, with runs of text between them. Character data are kept as written; they are read
when the place of the mark in the document is known.

## Main definitions

* `Eaf.Xml.QName` — a name with an optional qualifier.
* `Eaf.Xml.Token` — a mark, or a run of text between two marks.
* `Eaf.Xml.Token.next?` — the first mark of a text.
* `Eaf.Xml.tokens?` — all marks of a text.
* `Eaf.Xml.afterDeclaration?` — what follows the declaration at the start of a document.
-/

namespace Eaf.Xml

/-! ### Names -/

/-- A name with a qualifier, which is empty if none is written. -/
structure QName where
  qualifier : List Char
  localName : List Char
  deriving DecidableEq, Repr, Inhabited

namespace QName

/-- Whether a part of a name begins as a name must. -/
def startsName : List Char → Bool
  | [] => false
  | c :: _ => isNameStart c

/-- The name that a run of name characters writes. At most one colon stands in it, and what
follows the colon is not empty. -/
def ofRun? (run : List Char) : Option QName :=
  let front := run.takeWhile (· ≠ ':')
  let name : QName :=
    match run.dropWhile (· ≠ ':') with
    | [] => { qualifier := [], localName := front }
    | _ :: back => { qualifier := front, localName := back }
  if startsName name.localName && !name.localName.contains ':' &&
      (name.qualifier.isEmpty || startsName name.qualifier) then
    some name
  else
    none

/-- The name at the front of a text, with the rest of the text. -/
def read? (cs : List Char) : Option (QName × List Char) :=
  (ofRun? (cs.takeWhile isNameChar)).map (·, cs.dropWhile isNameChar)

end QName

/-! ### Attributes -/

/-- A text without the white space at its front. -/
def skipSpace (cs : List Char) : List Char :=
  cs.dropWhile isSpace

/-- An attribute as it is written. -/
structure RawAttribute where
  name : QName
  value : List Char
  deriving DecidableEq, Repr, Inhabited

/-- The quoted value at the front of a text, with the rest of the text. Either quote will do, and
the mark that opens a tag may not occur between them. -/
def quoted? : List Char → Option (List Char × List Char)
  | [] => none
  | quote :: cs =>
    if quote = '\x22' ∨ quote = '\x27' then
      let value := cs.takeWhile fun c => c ≠ quote && c ≠ '<'
      match cs.dropWhile fun c => c ≠ quote && c ≠ '<' with
      | c :: rest => if c = quote ∧ value.all isAllowed then some (value, rest) else none
      | [] => none
    else
      none

/-- The attribute at the front of a text, with the rest of the text. -/
def RawAttribute.read? (cs : List Char) : Option (RawAttribute × List Char) :=
  match QName.read? cs with
  | none => none
  | some (name, rest) =>
    match skipSpace rest with
    | '=' :: rest => (quoted? (skipSpace rest)).map fun (value, rest) => ({ name, value }, rest)
    | _ => none

/-! ### Lengths -/

theorem length_skipSpace_le (cs : List Char) : (skipSpace cs).length ≤ cs.length :=
  Text.length_dropWhile_le isSpace cs

theorem QName.length_of_read? {cs rest : List Char} {name : QName}
    (h : QName.read? cs = some (name, rest)) : rest.length ≤ cs.length := by
  simp only [QName.read?, Option.map_eq_some_iff, Prod.mk.injEq] at h
  obtain ⟨_, _, _, rfl⟩ := h
  exact Text.length_dropWhile_le isNameChar cs

theorem length_of_quoted? {cs value rest : List Char} (h : quoted? cs = some (value, rest)) :
    rest.length < cs.length := by
  cases cs with
  | nil => simp [quoted?] at h
  | cons quote cs =>
    simp only [quoted?] at h
    split at h
    · split at h
      next hd =>
        split at h
        · cases h
          have := Text.length_dropWhile_le (fun c => c ≠ quote && c ≠ '<') cs
          rw [hd] at this
          simp only [List.length_cons] at this ⊢
          omega
        · cases h
      · cases h
    · cases h

theorem RawAttribute.length_of_read? {cs rest : List Char} {a : RawAttribute}
    (h : RawAttribute.read? cs = some (a, rest)) : rest.length < cs.length := by
  unfold RawAttribute.read? at h
  split at h
  · cases h
  next afterName hname =>
    split at h
    next afterEquals hs =>
      simp only [Option.map_eq_some_iff, Prod.mk.injEq, Prod.exists] at h
      obtain ⟨_, _, hq, _, rfl⟩ := h
      have h1 := QName.length_of_read? hname
      have h2 := length_of_quoted? hq
      have h3 := congrArg List.length hs
      have h4 := length_skipSpace_le afterName
      have h5 := length_skipSpace_le afterEquals
      simp only [List.length_cons] at h3
      omega
    · cases h

/-! ### Tags -/

/-- What is left of a tag after its name: its attributes, whether the tag closes itself, and the
rest of the text. White space stands in front of every attribute. -/
def tagEnd? (cs : List Char) : Option (List RawAttribute × Bool × List Char) :=
  match skipSpace cs with
  | '>' :: rest => some ([], false, rest)
  | '/' :: '>' :: rest => some ([], true, rest)
  | rest =>
    if rest.length < cs.length then
      match _h : RawAttribute.read? rest with
      | none => none
      | some (a, rest') =>
        (tagEnd? rest').map fun (attributes, closed, rest) => (a :: attributes, closed, rest)
    else
      none
termination_by cs.length
decreasing_by
  have := RawAttribute.length_of_read? _h
  omega

theorem length_of_tagEnd? {cs rest : List Char} {attributes : List RawAttribute} {closed : Bool}
    (h : tagEnd? cs = some (attributes, closed, rest)) : rest.length < cs.length := by
  fun_induction tagEnd? cs generalizing attributes with
  | case1 cs _ hs =>
    cases h
    have := length_skipSpace_le cs
    rw [hs] at this
    simp only [List.length_cons] at this
    omega
  | case2 cs _ hs =>
    cases h
    have := length_skipSpace_le cs
    rw [hs] at this
    simp only [List.length_cons] at this
    omega
  | case3 => cases h
  | case4 cs _ _ hlt a rest' ha ih =>
    simp only [Option.map_eq_some_iff, Prod.mk.injEq, Prod.exists] at h
    obtain ⟨_, _, _, h, _, rfl, rfl⟩ := h
    have := RawAttribute.length_of_read? ha
    have := ih h
    omega
  | case5 => cases h

/-! ### Marks -/

/-- A mark of a document, or a run of text between two marks. -/
inductive Token
  /-- A tag that opens an element and, if `closed`, closes it again. -/
  | opening (name : QName) (attributes : List RawAttribute) (closed : Bool)
  /-- A tag that closes an element. -/
  | closing (name : QName)
  /-- Character data between two marks. -/
  | text (data : List Char)
  /-- A section of unmarked text. -/
  | unmarked (data : List Char)
  /-- A comment or a processing instruction. -/
  | remark
  deriving DecidableEq, Repr, Inhabited

namespace Token

/-- Whether a mark occurs in a text. -/
def occursIn (mark cs : List Char) : Bool :=
  (Text.splitAt? mark cs).isSome

/-- The rest of a text after a comment whose opening has been read. A comment holds no two hyphens
in a row and does not end in a hyphen. -/
def comment? (cs : List Char) : Option (List Char) :=
  ((Text.splitAt? "-->".toList cs).filter fun (content, _) =>
    content.all isAllowed && !occursIn "--".toList content && content.getLast? != some '-').map
      Prod.snd

/-- The content of a section of unmarked text whose opening has been read, and the rest. -/
def section? (cs : List Char) : Option (List Char × List Char) :=
  (Text.splitAt? "]]>".toList cs).filter fun (content, _) => content.all isAllowed

/-- The rest of a text after a processing instruction whose opening has been read. A declaration
is none. -/
def instruction? (cs : List Char) : Option (List Char) :=
  if (Text.after? "xml ".toList cs).isSome then
    none
  else if QName.startsName cs then
    ((Text.splitAt? "?>".toList (skipSpace (cs.dropWhile isNameChar))).filter fun (content, _) =>
      content.all isAllowed).map Prod.snd
  else
    none

/-- A closing tag whose opening has been read, and the rest of the text. -/
def closingTag? (cs : List Char) : Option (Token × List Char) :=
  match QName.read? cs with
  | none => none
  | some (name, rest) =>
    match skipSpace rest with
    | '>' :: rest => some (closing name, rest)
    | _ => none

/-- An opening tag whose first character has been read, and the rest of the text. -/
def openingTag? (cs : List Char) : Option (Token × List Char) :=
  match QName.read? cs with
  | none => none
  | some (name, rest) =>
    (tagEnd? rest).map fun (attributes, closed, rest) => (opening name attributes closed, rest)

/-- The run of text at the front of a text, and the rest. The end of a section of unmarked text
does not occur in it. -/
def textRun? (cs : List Char) : Option (Token × List Char) :=
  let data := cs.takeWhile (· ≠ '<')
  if data.all isAllowed && !occursIn "]]>".toList data then
    some (text data, cs.dropWhile (· ≠ '<'))
  else
    none

/-- The first mark of a text, or the run of text before it, and the rest of the text. -/
def next? : List Char → Option (Token × List Char)
  | '<' :: '/' :: cs => closingTag? cs
  | '<' :: '?' :: cs => (instruction? cs).map (remark, ·)
  | '<' :: '!' :: '-' :: '-' :: cs => (comment? cs).map (remark, ·)
  | '<' :: '!' :: cs =>
    (Text.after? "[CDATA[".toList cs).bind fun cs =>
      (section? cs).map fun (content, rest) => (unmarked content, rest)
  | '<' :: cs => openingTag? cs
  | cs => textRun? cs

/-! ### Lengths -/

theorem length_of_splitAt? {mark cs content rest : List Char}
    (h : Text.splitAt? mark cs = some (content, rest)) : rest.length ≤ cs.length := by
  rw [Text.eq_of_splitAt? h]
  simp only [List.length_append]
  omega

theorem length_of_filter_splitAt? {mark cs content rest : List Char}
    {p : List Char × List Char → Bool}
    (h : (Text.splitAt? mark cs).filter p = some (content, rest)) : rest.length ≤ cs.length :=
  length_of_splitAt? (Option.filter_eq_some_iff.1 h).1

theorem length_of_comment? {cs rest : List Char} (h : comment? cs = some rest) :
    rest.length ≤ cs.length := by
  obtain ⟨⟨_, _⟩, hs, rfl⟩ := Option.map_eq_some_iff.1 h
  exact length_of_filter_splitAt? hs

theorem length_of_instruction? {cs rest : List Char} (h : instruction? cs = some rest) :
    rest.length ≤ cs.length := by
  unfold instruction? at h
  split at h
  · cases h
  · split at h
    · obtain ⟨⟨_, _⟩, hs, rfl⟩ := Option.map_eq_some_iff.1 h
      exact Nat.le_trans (length_of_filter_splitAt? hs) <|
        Nat.le_trans (length_skipSpace_le _) (Text.length_dropWhile_le isNameChar cs)
    · cases h

theorem length_of_closingTag? {cs rest : List Char} {token : Token}
    (h : closingTag? cs = some (token, rest)) : rest.length ≤ cs.length := by
  unfold closingTag? at h
  split at h
  · cases h
  next afterName hname =>
    split at h
    next hs =>
      cases h
      have h1 := QName.length_of_read? hname
      have h2 := congrArg List.length hs
      have h3 := length_skipSpace_le afterName
      simp only [List.length_cons] at h2
      omega
    · cases h

theorem length_of_openingTag? {cs rest : List Char} {token : Token}
    (h : openingTag? cs = some (token, rest)) : rest.length ≤ cs.length := by
  unfold openingTag? at h
  split at h
  · cases h
  next hname =>
    simp only [Option.map_eq_some_iff, Prod.mk.injEq, Prod.exists] at h
    obtain ⟨_, _, _, ht, _, rfl⟩ := h
    have h1 := QName.length_of_read? hname
    have h2 := length_of_tagEnd? ht
    omega

theorem length_of_next? {cs rest : List Char} {token : Token} (hne : cs ≠ [])
    (h : next? cs = some (token, rest)) : rest.length < cs.length := by
  unfold next? at h
  split at h
  next cs =>
    have := length_of_closingTag? h
    simp only [List.length_cons]
    omega
  next cs =>
    simp only [Option.map_eq_some_iff, Prod.mk.injEq] at h
    obtain ⟨_, h, _, rfl⟩ := h
    have := length_of_instruction? h
    simp only [List.length_cons]
    omega
  next cs =>
    simp only [Option.map_eq_some_iff, Prod.mk.injEq] at h
    obtain ⟨_, h, _, rfl⟩ := h
    have := length_of_comment? h
    simp only [List.length_cons]
    omega
  next cs _ =>
    obtain ⟨cs', ha, h⟩ := Option.bind_eq_some_iff.1 h
    simp only [Option.map_eq_some_iff, Prod.mk.injEq, Prod.exists] at h
    obtain ⟨_, _, hs, _, rfl⟩ := h
    have h1 := length_of_filter_splitAt? hs
    have h2 := congrArg List.length (Text.after?_eq_some_iff.1 ha)
    simp only [List.length_append] at h2
    simp only [List.length_cons]
    omega
  next cs _ _ _ _ =>
    have := length_of_openingTag? h
    simp only [List.length_cons]
    omega
  next hopen =>
    simp only [textRun?] at h
    split at h
    · cases h
      cases cs with
      | nil => exact absurd rfl hne
      | cons c cs =>
        have hc : c ≠ '<' := fun hc => hopen cs (by rw [hc])
        rw [List.dropWhile_cons_of_pos (by simpa using hc)]
        have := Text.length_dropWhile_le (fun c => decide (c ≠ '<')) cs
        simp only [List.length_cons]
        omega
    · cases h

end Token

/-- All marks of a text and the runs of text between them, in order. -/
def tokens? : List Char → Option (List Token)
  | [] => some []
  | c :: cs =>
    match _h : Token.next? (c :: cs) with
    | none => none
    | some (token, rest) => (tokens? rest).map (token :: ·)
termination_by cs => cs.length
decreasing_by
  exact Token.length_of_next? (List.cons_ne_nil c cs) _h

/-! ### The declaration -/

/-- A text after white space, which must be there unless the declaration ends or the text does. -/
def declarationSpace? (cs : List Char) : Option (List Char) :=
  let rest := skipSpace cs
  if rest.length < cs.length || rest.isEmpty || (Text.after? "?>".toList rest).isSome then
    some rest
  else
    none

/-- What follows an attribute of a declaration. Its value is not looked at. -/
def afterAttribute? (cs : List Char) : Option (List Char) :=
  (RawAttribute.read? cs).map Prod.snd

/-- What follows an attribute of a declaration whose name begins in the given way, and the white
space after it; the text itself if no such attribute is there. -/
def afterOptional? (name cs : List Char) : Option (List Char) :=
  if (Text.after? name cs).isSome then (afterAttribute? cs).bind declarationSpace? else some cs

/-- What follows a declaration whose opening has been read. A version is required; an encoding and
a remark on whether the document stands alone may follow, in this order. -/
def declaration? (cs : List Char) : Option (List Char) :=
  (declarationSpace? cs).bind fun cs =>
    if (Text.after? "version".toList cs).isSome then
      ((afterAttribute? cs).bind declarationSpace?).bind fun cs =>
        (afterOptional? "encoding".toList cs).bind fun cs =>
          let rest :=
            if (Text.after? "standalone".toList cs).isSome then afterAttribute? cs else some cs
          rest.bind fun cs => Text.after? "?>".toList (skipSpace cs)
    else
      none

/-- A text without the byte order mark at its front. -/
def skipByteOrderMark : List Char → List Char
  | '\uFEFF' :: cs => cs
  | cs => cs

/-- What follows the byte order mark and the declaration at the start of a document, of which
neither need be there. -/
def afterDeclaration? (cs : List Char) : Option (List Char) :=
  let cs := skipByteOrderMark cs
  match Text.after? "<?xml ".toList cs with
  | some rest => declaration? (' ' :: rest)
  | none => some cs

end Eaf.Xml

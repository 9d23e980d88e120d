import Eaf.Proofs.Resync
import Eaf.Proofs.Times

/-!
# Texts of decimal numbers

A text writes a number with digits, with a point among them or none, with a sign in front or none,
and with an exponent of ten behind or none. There are digits in front of the point or behind it. The
grammar of these texts carries the number that each of them writes, and it is apart from the reader,
which goes through a text from the left. The reader reads just the texts of the grammar.

## Main definitions

* `Eaf.Decimal.Writes` — the texts that write a decimal number.

## Main results

* `Eaf.Decimal.readExponent?_eq_some_iff` — what texts are read as exponents of ten.
* `Eaf.Decimal.readUnsigned?_eq_some_iff` — what texts are read as numbers without a sign.
* `Eaf.Decimal.read?_eq_some_iff` — what texts are read as numbers.
-/

namespace Eaf

namespace Decimal

/-! ### The grammar -/

/-- A sign in front of a number, or none. -/
inductive WritesSign : List Char → Bool → Prop
  | none : WritesSign [] false
  | plus : WritesSign ['+'] false
  | minus : WritesSign ['-'] true

/-- A run of digits. -/
def IsDigits (digits : List Char) : Prop :=
  digits ≠ [] ∧ ∀ c ∈ digits, c.isDigit = true

/-- Digits with a point among them or none, and how many of them stand behind the point. -/
inductive WritesDigits : List Char → List Char → Nat → Prop
  | whole {digits : List Char} (hdigits : IsDigits digits) : WritesDigits digits digits 0
  | point {whole fraction : List Char} (hdigits : IsDigits (whole ++ fraction)) :
    WritesDigits (whole ++ '.' :: fraction) (whole ++ fraction) fraction.length

/-- An exponent of ten behind a number, or none. -/
inductive WritesExponent : List Char → Int → Prop
  | none : WritesExponent [] 0
  | mark {mark : Char} {sign digits : List Char} {negative : Bool} (hmark : mark = 'e' ∨ mark = 'E')
      (hsign : WritesSign sign negative) (hdigits : IsDigits digits) :
    WritesExponent (mark :: (sign ++ digits))
      (if negative then -(Nat.ofDigitChars 10 digits 0 : Int) else Nat.ofDigitChars 10 digits 0)

/-- Digits and an exponent of ten. Every digit behind the point lowers the exponent by one. -/
inductive WritesUnsigned (negative : Bool) : List Char → Decimal → Prop
  | parts {text digits exponent : List Char} {behind : Nat} {n : Int}
      (htext : WritesDigits text digits behind) (hexponent : WritesExponent exponent n) :
    WritesUnsigned negative (text ++ exponent)
      { negative, coefficient := Nat.ofDigitChars 10 digits 0, exponent := n - behind }

/-- The texts of decimal numbers, with a sign or without one. -/
inductive Writes : List Char → Decimal → Prop
  | signed {sign cs : List Char} {negative : Bool} {x : Decimal} (hsign : WritesSign sign negative)
      (h : WritesUnsigned negative cs x) : Writes (sign ++ cs) x

/-! ### The reader -/

variable {cs text digits : List Char} {n : Int} {x : Decimal} {negative : Bool} {behind : Nat}

theorem ne_signs_of_isDigit {c : Char} (h : c.isDigit = true) : c ≠ '-' ∧ c ≠ '+' := by
  refine ⟨?_, ?_⟩ <;>
    · rintro rfl
      exact absurd h (by decide)

/-- Exactly these texts are read as exponents. -/
theorem readExponent?_eq_some_iff : readExponent? cs = some n ↔ WritesExponent cs n := by
  constructor
  · intro h
    unfold readExponent? at h
    split at h
    next => exact Option.some.inj h ▸ .none
    next mark rest =>
      obtain ⟨hmark, h⟩ := Option.ite_none_right_eq_some.1 h
      have hmark : mark = 'e' ∨ mark = 'E' := by simpa using hmark
      split at h
      next digits =>
        obtain ⟨signed, hsigned, rfl⟩ := Option.map_eq_some_iff.1 h
        obtain ⟨value, hvalue, hcast⟩ := Option.bind_eq_some_iff.1 hsigned
        obtain rfl := Option.some.inj hcast
        obtain ⟨hne, hdigits, rfl⟩ := Numeral.read?_eq_some_iff.1 hvalue
        exact .mark hmark .minus ⟨hne, hdigits⟩
      next digits =>
        obtain ⟨value, hvalue, rfl⟩ := Option.map_eq_some_iff.1 h
        obtain ⟨hne, hdigits, rfl⟩ := Numeral.read?_eq_some_iff.1 hvalue
        exact .mark hmark .plus ⟨hne, hdigits⟩
      next =>
        obtain ⟨value, hvalue, rfl⟩ := Option.map_eq_some_iff.1 h
        obtain ⟨hne, hdigits, rfl⟩ := Numeral.read?_eq_some_iff.1 hvalue
        exact .mark hmark .none ⟨hne, hdigits⟩
  · intro h
    cases h with
    | none => rfl
    | @mark mark sign digits negative hmark hsign hdigits =>
      have hread := Numeral.read?_eq_some_iff.2 ⟨hdigits.1, hdigits.2, rfl⟩
      have hmark : (mark = 'e' || mark = 'E') = true := by simpa using hmark
      cases hsign with
      | minus =>
        rw [List.singleton_append, readExponent?, if_pos hmark, hread]
        rfl
      | plus =>
        rw [List.singleton_append, readExponent?, if_pos hmark, hread]
        rfl
      | none =>
        rw [List.nil_append, readExponent?, if_pos hmark, hread]
        · rfl
        · rintro rest rfl
          exact absurd rfl (ne_signs_of_isDigit (hdigits.2 '-' List.mem_cons_self)).1
        · rintro rest rfl
          exact absurd rfl (ne_signs_of_isDigit (hdigits.2 '+' List.mem_cons_self)).2

/-- An exponent begins with neither a digit nor a point. -/
theorem WritesExponent.head (h : WritesExponent cs n) :
    ∀ c ∈ cs.head?, c.isDigit = false ∧ c ≠ '.' := by
  cases h with
  | none => exact nofun
  | mark hmark =>
    intro c hc
    obtain rfl := Option.some.inj hc
    rcases hmark with rfl | rfl <;> decide

/-- Exactly these texts are read as numbers without a sign. -/
theorem readUnsigned?_eq_some_iff :
    (Written.readUnsigned? negative cs).map ofWritten = some x ↔ WritesUnsigned negative cs x := by
  constructor
  · intro h
    obtain ⟨written, hwritten, rfl⟩ := Option.map_eq_some_iff.1 h
    have hdigits (cs : List Char) : ∀ c ∈ cs.takeWhile Char.isDigit, c.isDigit = true :=
      List.all_eq_true.1 List.all_takeWhile
    have hsplit (cs : List Char) : cs.takeWhile Char.isDigit ++ cs.dropWhile Char.isDigit = cs :=
      List.takeWhile_append_dropWhile
    simp only [Written.readUnsigned?] at hwritten
    split at hwritten
    next rest hpoint =>
      obtain ⟨hne, hwritten⟩ := Option.ite_none_left_eq_some.1 hwritten
      obtain ⟨n, hn, rfl⟩ := Option.map_eq_some_iff.1 hwritten
      have hrun : IsDigits (cs.takeWhile Char.isDigit ++ rest.takeWhile Char.isDigit) :=
        ⟨fun hnil => hne (List.append_eq_nil_iff.1 hnil),
          List.forall_mem_append.2 ⟨hdigits cs, hdigits rest⟩⟩
      have hparts : WritesUnsigned negative _ _ :=
        .parts (.point hrun) (readExponent?_eq_some_iff.1 hn)
      rwa [List.append_assoc, List.cons_append, hsplit rest, ← hpoint, hsplit cs] at hparts
    next =>
      obtain ⟨hne, hwritten⟩ := Option.ite_none_left_eq_some.1 hwritten
      obtain ⟨n, hn, rfl⟩ := Option.map_eq_some_iff.1 hwritten
      have hrun : IsDigits (cs.takeWhile Char.isDigit) :=
        ⟨fun hnil => hne ⟨hnil, rfl⟩, hdigits cs⟩
      have hparts : WritesUnsigned negative _ _ :=
        .parts (.whole hrun) (readExponent?_eq_some_iff.1 hn)
      rw [hsplit cs] at hparts
      simpa [ofWritten] using hparts
  · rintro @⟨text, digits, exponent, behind, n, htext, hexponent⟩
    have hhead := hexponent.head
    have hread := readExponent?_eq_some_iff.2 hexponent
    cases htext with
    | whole hdigits =>
      obtain ⟨htake, hdrop⟩ :=
        takeWhile_isDigit_append exponent hdigits.2 fun c hc => (hhead c hc).1
      cases hexponent with
      | none =>
        rw [List.append_nil] at htake hdrop
        simp [Written.readUnsigned?, htake, hdrop, hdigits.1, ofWritten, readExponent?]
      | mark hmark =>
        have hpoint := (hhead _ rfl).2
        simp [Written.readUnsigned?, htake, hdrop, hdigits.1, ofWritten, hread, hpoint]
    | @point whole fraction hdigits =>
      obtain ⟨hwhole, hfraction⟩ := List.forall_mem_append.1 hdigits.2
      obtain ⟨htake, hdrop⟩ :=
        takeWhile_isDigit_append ('.' :: (fraction ++ exponent)) hwhole (by simp)
      obtain ⟨htake', hdrop'⟩ :=
        takeWhile_isDigit_append exponent hfraction fun c hc => (hhead c hc).1
      have hne : ¬ (whole = [] ∧ fraction = []) := fun h => hdigits.1 (by rw [h.1, h.2]; rfl)
      simp [Written.readUnsigned?, htake, hdrop, htake', hdrop', hne, ofWritten, hread]

/-- A number without a sign begins with a digit or a point. -/
theorem WritesUnsigned.head (h : WritesUnsigned negative cs x) :
    ∃ c rest, cs = c :: rest ∧ (c.isDigit = true ∨ c = '.') := by
  obtain ⟨htext, -⟩ := h
  cases htext with
  | whole hdigits =>
    obtain ⟨c, rest, rfl⟩ := List.exists_cons_of_ne_nil hdigits.1
    exact ⟨c, _, rfl, Or.inl (hdigits.2 c List.mem_cons_self)⟩
  | @point whole fraction hdigits =>
    cases whole with
    | nil => exact ⟨'.', _, rfl, Or.inr rfl⟩
    | cons c rest => exact ⟨c, _, rfl, Or.inl (hdigits.2 c List.mem_cons_self)⟩

/-- Exactly these texts are read as decimal numbers. -/
theorem read?_eq_some_iff : read? cs = some x ↔ Writes cs x := by
  rw [read?]
  constructor
  · intro h
    unfold Written.read? at h
    split at h
    · exact .signed .minus (readUnsigned?_eq_some_iff.1 h)
    · exact .signed .plus (readUnsigned?_eq_some_iff.1 h)
    · exact .signed .none (readUnsigned?_eq_some_iff.1 h)
  · rintro ⟨hsign, h⟩
    cases hsign with
    | minus => exact readUnsigned?_eq_some_iff.2 h
    | plus => exact readUnsigned?_eq_some_iff.2 h
    | none =>
      obtain ⟨c, rest, rfl, hc⟩ := h.head
      have hsigns : c ≠ '-' ∧ c ≠ '+' := by
        rcases hc with hdigit | rfl
        · exact ne_signs_of_isDigit hdigit
        · decide
      rw [List.nil_append, Written.read?]
      · exact readUnsigned?_eq_some_iff.2 h
      · exact fun _ heq => hsigns.1 (List.cons.inj heq).1
      · exact fun _ heq => hsigns.2 (List.cons.inj heq).1

end Decimal

end Eaf

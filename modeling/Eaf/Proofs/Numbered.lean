import Mathlib.Data.List.Induction
import Mathlib.Data.Nat.Digits.Defs
import Eaf.Proofs.Resync
import Eaf.Proofs.Search

/-!
# Numbered ids

The counters follow every id that looks like one that was made up: the stem of a family, then a
decimal numeral. The reader of such ids and the writer of new ones meet in one grammar. The numeral
may have any length and zeros in front, but its value fits a 64-bit word; its digits are those of
ASCII. The ids with a given family and number are then the one that is made up for this number and
those that differ from it by zeros behind the stem.

An id can also be decoded in two steps, by its form and then by its parts. The form takes any
digits, also those of other scripts, and the reader of words by itself would take a plus sign. Each
step refuses what the other one lets through, so that both ways decode the same ids, whatever other
characters count as digits.

## Main definitions

* `Eaf.Numeral.placeValue` — the value of digits by their places.
* `Eaf.IdFamily.behindStem` — what is found behind the stem of an id.
* `Eaf.IdFamily.captured?` — the stem and the digits of an id that has the form of a numbered one.
* `Eaf.IdFamily.decode?` — the family and number of an id, by its form and then by its parts.

## Main results

* `Eaf.Numeral.read?_eq_some_iff_zeros` — the numerals of a number are the shortest one and those
  with zeros in front of it.
* `Eaf.IdFamily.numbered?_iff_digits`, `Eaf.IdFamily.numbered?_iff_zeros` — the ids with a given
  family and number.
* `Eaf.IdFamily.decode?_eq_numbered?` — both ways to decode an id agree.
* `Eaf.IdFamily.numbered_iff_form` — exactly the ids of the grammar decode, as they are written.
-/

namespace Eaf

namespace Numeral

/-! ### Numerals with zeros in front -/

/-- The value of digits by their places: the last one counts once, the one in front of it ten times,
and so on. -/
def placeValue (digits : List Char) : Nat :=
  Nat.ofDigits 10 (digits.reverse.map fun c => c.toNat - '0'.toNat)

variable {cs : List Char} {c : Char} {n : Nat}

theorem isDigit_iff : c.isDigit = true ↔ '0' ≤ c ∧ c ≤ '9' := by
  simp [Char.isDigit, Char.le_def]

/-- Digits have the same value when they are read from the front. -/
theorem ofDigitChars_eq_placeValue (cs : List Char) :
    Nat.ofDigitChars 10 cs 0 = placeValue cs := by
  induction cs using List.reverseRecOn with
  | nil => rfl
  | append_singleton cs c ih =>
    rw [Nat.ofDigitChars_append, Nat.ofDigitChars_cons, Nat.ofDigitChars_nil, ih, Nat.add_comm]
    simp [placeValue, Nat.ofDigits_cons]

theorem digitValue_lt (h : c.isDigit = true) : c.toNat - '0'.toNat < 10 := by
  have hnine : c.toNat ≤ '9'.toNat := (Char.isDigit_iff_toNat.1 h).2
  have hdistance : '9'.toNat = '0'.toNat + 9 := rfl
  omega

/-- A digit is the numeral of its value. -/
theorem write_digitValue (h : c.isDigit = true) : write (c.toNat - '0'.toNat) = [c] := by
  have hchar : (c.toNat - '0'.toNat).digitChar = c := by
    have hzero : '0'.toNat ≤ c.toNat := (Char.isDigit_iff_toNat.1 h).1
    rw [← Char.toNat_inj, Nat.toNat_digitChar_of_lt_ten (digitValue_lt h)]
    exact Nat.add_sub_cancel' hzero
  rw [write, Nat.toDigits_of_lt_base (digitValue_lt h), hchar]

/-- A numeral that does not begin with zero goes on with digits as the numeral of a number. -/
theorem write_append (hn : 0 < n) (hcs : ∀ c ∈ cs, c.isDigit = true) :
    write n ++ cs = write (Nat.ofDigitChars 10 cs n) := by
  -- The number takes up the digits one by one, so it is not fixed in the induction.
  induction cs generalizing n with
  | nil => rw [List.append_nil, Nat.ofDigitChars_nil]
  | cons c cs ih =>
    obtain ⟨hc, hrest⟩ := List.forall_mem_cons.1 hcs
    have hlonger : write n ++ [c] = write (10 * n + (c.toNat - '0'.toNat)) := by
      rw [← write_digitValue hc]
      exact Nat.toDigits_append_toDigits (by decide) hn (digitValue_lt hc)
    calc
      write n ++ c :: cs = (write n ++ [c]) ++ cs := by
        rw [List.append_assoc, List.singleton_append]
      _ = write (Nat.ofDigitChars 10 (c :: cs) n) := by
        rw [hlonger, ih (by omega) hrest, Nat.ofDigitChars_cons]

/-- Digits are the numeral of their value with zeros in front. -/
theorem exists_zeros (hne : cs ≠ []) (hcs : ∀ c ∈ cs, c.isDigit = true) :
    ∃ zeros, cs = List.replicate zeros '0' ++ write (Nat.ofDigitChars 10 cs 0) := by
  induction cs with
  | nil => exact absurd rfl hne
  | cons c cs ih =>
    obtain ⟨hc, hrest⟩ := List.forall_mem_cons.1 hcs
    by_cases hzero : c = '0'
    · subst hzero
      -- A zero that nothing follows is the numeral of zero and does not stand in front of one.
      cases cs with
      | nil => exact ⟨0, rfl⟩
      | cons d ds =>
        obtain ⟨zeros, hzeros⟩ := ih (List.cons_ne_nil d ds) hrest
        exact ⟨zeros + 1, congrArg ('0' :: ·) hzeros⟩
    · have hpos : 0 < c.toNat - '0'.toNat := by
        have hle : '0'.toNat ≤ c.toNat := (Char.isDigit_iff_toNat.1 hc).1
        have hne : c.toNat ≠ '0'.toNat := fun h => hzero (Char.toNat_inj.1 h)
        omega
      refine ⟨0, ?_⟩
      rw [Nat.ofDigitChars_cons, Nat.mul_zero, Nat.zero_add, ← write_append hpos hrest,
        write_digitValue hc]
      rfl

/-- The texts that are read as a number are its shortest numeral and this one with zeros in
front. -/
theorem read?_eq_some_iff_zeros :
    read? cs = some n ↔ ∃ zeros, cs = List.replicate zeros '0' ++ write n := by
  rw [read?_eq_some_iff]
  constructor
  · rintro ⟨hne, hcs, rfl⟩
    exact exists_zeros hne hcs
  · rintro ⟨zeros, rfl⟩
    refine ⟨fun h => write_ne_nil n (List.append_eq_nil_iff.1 h).2, fun c hc => ?_, ?_⟩
    · rcases List.mem_append.1 hc with hzero | hdigit
      · rw [List.eq_of_mem_replicate hzero]
        rfl
      · exact isDigit_of_mem_write hdigit
    · rw [Nat.ofDigitChars_append, Nat.ofDigitChars_replicate_zero, Nat.mul_zero, write,
        Nat.ofDigitChars_toDigits (by decide) (by decide)]

/-- A reader of words that takes a plus sign is as good as one that does not where only digits are
let through, and it refuses the digits of other scripts. -/
theorem readWord?_eq_ite {isDigit : Char → Bool}
    (hascii : ∀ c, c.isDigit = true → isDigit c = true) (hplus : isDigit '+' = false)
    (cs : List Char) :
    readWord? cs = if cs ≠ [] ∧ cs.all isDigit then readSignedWord? cs else none := by
  split
  next h =>
    have hsign : '+' ∉ cs := by
      intro hmem
      have hpassed := List.all_eq_true.1 h.2 '+' hmem
      rw [hplus] at hpassed
      cases hpassed
    unfold readSignedWord?
    split
    next => exact absurd List.mem_cons_self hsign
    next => rfl
  next h =>
    rw [Option.eq_none_iff_forall_ne_some]
    intro word hword
    obtain ⟨hne, hdigits, -⟩ := read?_eq_some_iff.1 (readWord?_eq_some_iff.1 hword)
    exact h ⟨hne, List.all_eq_true.2 fun c hc => hascii c (hdigits c hc)⟩

end Numeral

namespace IdFamily

/-! ### Decoding by the form of an id -/

/-- The family with a given stem. -/
def ofStem? : String → Option IdFamily
  | "tier" => some tier
  | "an" => some note
  | "ts" => some timeSlot
  | _ => none

/-- The parts of an id that has the form of a numbered one: a stem and, up to the end of the id, at
least one digit and nothing else. Which characters are digits is left open. -/
def captured? (isDigit : Char → Bool) (id : String) : Option (String × List Char) :=
  ["tier", "an", "ts"].findSome? fun stem =>
    (Text.after? stem.toList id.toList).bind fun digits =>
      if digits ≠ [] ∧ digits.all isDigit then some (stem, digits) else none

/-- The family and number of an id that has the form of a numbered one: the family is that of the
stem, and the digits are read as a word. -/
def decode? (isDigit : Char → Bool) (id : String) : Option (IdFamily × UInt64) :=
  (captured? isDigit id).bind fun (stem, digits) =>
    (ofStem? stem).bind fun family => (Numeral.readSignedWord? digits).map (family, ·)

variable {family other : IdFamily} {id : String} {rest : List Char} {word : UInt64}

theorem ofStem?_stem (family : IdFamily) : ofStem? family.stem = some family := by
  cases family <;> rfl

/-- No stem begins another one, so that an id shows where its stem ends. -/
theorem stem_append_inj {digits : List Char}
    (h : family.stem.toList ++ rest = other.stem.toList ++ digits) :
    family = other ∧ rest = digits := by
  cases family <;> cases other <;> simp_all [stem]

/-- What is found behind the stem of an id, which may depend on the family of the stem. -/
def behindStem {β : Type} (find : IdFamily → List Char → Option β) (id : String) : Option β :=
  all.findSome? fun family => (Text.after? family.stem.toList id.toList).bind (find family)

section BehindStem

variable {β : Type} (find : IdFamily → List Char → Option β)

theorem behindStem_of_stem (h : id.toList = family.stem.toList ++ rest) :
    behindStem find id = find family rest := by
  have hown : Text.after? family.stem.toList id.toList = some rest := Text.after?_eq_some_iff.2 h
  have hothers : ∀ other, other ≠ family → Text.after? other.stem.toList id.toList = none := by
    intro other hne
    rw [Option.eq_none_iff_forall_ne_some]
    intro digits hdigits
    exact hne (stem_append_inj ((Text.after?_eq_some_iff.1 hdigits).symm.trans h)).1
  cases hfound : find family rest <;> cases family <;>
    simp [behindStem, all, hown, hothers, hfound]

theorem behindStem_eq_some_iff {b : β} :
    behindStem find id = some b ↔
      ∃ family rest, id.toList = family.stem.toList ++ rest ∧ find family rest = some b := by
  constructor
  · intro h
    obtain ⟨family, -, hfamily⟩ := List.exists_of_findSome?_eq_some h
    obtain ⟨rest, hrest, hfound⟩ := Option.bind_eq_some_iff.1 hfamily
    exact ⟨family, rest, Text.after?_eq_some_iff.1 hrest, hfound⟩
  · rintro ⟨family, rest, hid, hfound⟩
    rw [behindStem_of_stem find hid, hfound]

theorem behindStem_of_no_stem
    (h : ∀ family : IdFamily, ∀ rest, id.toList ≠ family.stem.toList ++ rest) :
    behindStem find id = none := by
  rw [Option.eq_none_iff_forall_ne_some]
  intro b hb
  obtain ⟨family, rest, hid, -⟩ := (behindStem_eq_some_iff find).1 hb
  exact h family rest hid

end BehindStem

/-- An id is numbered by what is read behind its stem. -/
theorem numbered?_eq_behindStem (id : String) :
    numbered? id =
      behindStem (fun family digits => (Numeral.readWord? digits).map (family, ·)) id := by
  simp only [numbered?, numberOf?, behindStem, Option.map_bind]
  rfl

/-- The stems in the form of a numbered id are those of the families. -/
theorem captured?_eq_behindStem (isDigit : Char → Bool) (id : String) :
    captured? isDigit id =
      behindStem (fun family digits =>
        if digits ≠ [] ∧ digits.all isDigit then some (family.stem, digits) else none) id :=
  rfl

/-- An id decodes in two steps as it does in one. -/
theorem decode?_eq_numbered? {isDigit : Char → Bool}
    (hascii : ∀ c, c.isDigit = true → isDigit c = true) (hplus : isDigit '+' = false)
    (id : String) : decode? isDigit id = numbered? id := by
  rw [decode?, captured?_eq_behindStem, numbered?_eq_behindStem]
  by_cases hstem : ∃ family : IdFamily, ∃ rest, id.toList = family.stem.toList ++ rest
  · obtain ⟨family, rest, h⟩ := hstem
    rw [behindStem_of_stem _ h, behindStem_of_stem _ h,
      Numeral.readWord?_eq_ite hascii hplus rest]
    split
    next =>
      rw [Option.bind_some]
      dsimp only
      rw [ofStem?_stem, Option.bind_some]
    next => rfl
  · have hno : ∀ family : IdFamily, ∀ rest, id.toList ≠ family.stem.toList ++ rest :=
      fun family rest h => hstem ⟨family, rest, h⟩
    rw [behindStem_of_no_stem _ hno, behindStem_of_no_stem _ hno]
    rfl

/-! ### The ids of a family and a number -/

theorem toList_eq_stem_append {digits : String} :
    id.toList = family.stem.toList ++ digits.toList ↔ id = family.stem ++ digits := by
  rw [← String.toList_append, String.toList_inj]

theorem numbered?_eq_some_iff :
    numbered? id = some (family, word) ↔
      ∃ digits, id.toList = family.stem.toList ++ digits ∧
        Numeral.read? digits = some word.toNat := by
  rw [numbered?_eq_behindStem, behindStem_eq_some_iff]
  constructor
  · rintro ⟨_, digits, hid, hfound⟩
    obtain ⟨_, hread, heq⟩ := Option.map_eq_some_iff.1 hfound
    obtain ⟨rfl, rfl⟩ := Prod.mk.inj heq
    exact ⟨digits, hid, Numeral.readWord?_eq_some_iff.1 hread⟩
  · rintro ⟨digits, hid, hread⟩
    refine ⟨family, digits, hid, ?_⟩
    rw [Numeral.readWord?_eq_some_iff.2 hread, Option.map_some]

/-- Behind the stem of a numbered id there are digits whose value is its number. -/
theorem numbered?_iff_digits {n : Nat} :
    (∃ word, numbered? id = some (family, word) ∧ word.toNat = n) ↔
      ∃ digits : String, id = family.stem ++ digits ∧ digits ≠ "" ∧
        (∀ c ∈ digits.toList, '0' ≤ c ∧ c ≤ '9') ∧
        Numeral.placeValue digits.toList = n ∧ n ≤ 2 ^ 64 - 1 := by
  simp only [numbered?_eq_some_iff, Numeral.read?_eq_some_iff, Numeral.ofDigitChars_eq_placeValue,
    Numeral.isDigit_iff]
  constructor
  · rintro ⟨word, ⟨digits, hid, hne, hdigits, hvalue⟩, rfl⟩
    refine ⟨String.ofList digits, ?_, ?_, ?_, ?_, Nat.le_sub_one_of_lt word.toNat_lt⟩
    · rwa [← toList_eq_stem_append, String.toList_ofList]
    · rwa [Ne, ← String.toList_inj, String.toList_ofList]
    · rwa [String.toList_ofList]
    · rwa [String.toList_ofList]
  · rintro ⟨digits, hid, hne, hdigits, hvalue, hfits⟩
    have hword : (UInt64.ofNat n).toNat = n :=
      UInt64.toNat_ofNat_of_lt' (Nat.lt_of_le_sub_one (by decide) hfits)
    refine ⟨UInt64.ofNat n, ⟨digits.toList, toList_eq_stem_append.2 hid, ?_, hdigits, ?_⟩, hword⟩
    · rwa [Ne, ← String.toList_inj] at hne
    · rw [hvalue, hword]

example : numbered? "an007" = some (.note, 7) := by decide

/-- Between the stem of a numbered id and the shortest numeral of its number there are zeros. -/
theorem numbered?_iff_zeros :
    numbered? id = some (family, word) ↔
      ∃ zeros, id = family.stem ++ String.ofList (List.replicate zeros '0') ++
        toString word.toNat := by
  have htext (zeros : Nat) :
      (family.stem ++ String.ofList (List.replicate zeros '0') ++ toString word.toNat).toList =
        family.stem.toList ++ (List.replicate zeros '0' ++ Numeral.write word.toNat) := by
    rw [String.append_assoc, Nat.toString_eq_ofList_toDigits, ← String.ofList_append,
      String.toList_append, String.toList_ofList, Numeral.write]
  simp only [numbered?_eq_some_iff, Numeral.read?_eq_some_iff_zeros]
  constructor
  · rintro ⟨_, hid, zeros, rfl⟩
    exact ⟨zeros, String.toList_inj.1 (hid.trans (htext zeros).symm)⟩
  · rintro ⟨zeros, rfl⟩
    exact ⟨_, htext zeros, zeros, rfl⟩

/-- A numbered id consists of small letters and digits of ASCII. -/
theorem mem_of_numbered? (h : numbered? id = some (family, word)) {c : Char} (hc : c ∈ id.toList) :
    ('a' ≤ c ∧ c ≤ 'z') ∨ '0' ≤ c ∧ c ≤ '9' := by
  have hstem : ∀ c ∈ family.stem.toList, 'a' ≤ c ∧ c ≤ 'z' := by cases family <;> decide
  obtain ⟨digits, hid, hread⟩ := numbered?_eq_some_iff.1 h
  rw [hid, List.mem_append] at hc
  exact hc.imp (hstem c) fun hmem =>
    Numeral.isDigit_iff.1 ((Numeral.read?_eq_some_iff.1 hread).2.1 c hmem)

/-- Digits that count too much for a word make no numbered id. -/
theorem numbered?_of_large {digits : String} (hid : id = family.stem ++ digits)
    (hlarge : 2 ^ 64 ≤ Numeral.placeValue digits.toList) : numbered? id = none := by
  rw [numbered?_eq_behindStem, behindStem_of_stem _ (toList_eq_stem_append.2 hid),
    Option.map_eq_none_iff, Option.eq_none_iff_forall_ne_some]
  intro word hword
  obtain ⟨-, -, hvalue⟩ := Numeral.read?_eq_some_iff.1 (Numeral.readWord?_eq_some_iff.1 hword)
  rw [Numeral.ofDigitChars_eq_placeValue] at hvalue
  exact absurd (hvalue ▸ word.toNat_lt) (Nat.not_lt_of_le hlarge)

/-- The ids that can be made up for a family are those of all words. -/
theorem exists_mint?_iff :
    (∃ counters taken mint, Counters.mint? counters family taken = some mint ∧ mint.id = id) ↔
      ∃ n < 2 ^ 64, id = family.stem ++ toString n := by
  constructor
  · rintro ⟨counters, taken, mint, hmint, rfl⟩
    obtain ⟨word, hword⟩ := Counters.mint?_number hmint
    exact ⟨word.toNat, word.toNat_lt, hword.trans (number_eq family word)⟩
  · rintro ⟨n, hn, rfl⟩
    let counters := Counters.set {} (UInt64.ofNat n) family
    let taken (_ : String) : Bool := false
    have hfree : taken (family.number (counters.get family)) = false := rfl
    obtain ⟨notices, hmint⟩ := Counters.mint?_of_free hfree
    refine ⟨counters, taken, _, hmint, ?_⟩
    rw [Counters.get_set_self, number_eq, UInt64.toNat_ofNat_of_lt' hn]

/-- **Exactly the ids of the grammar decode, as they are written.** An id decodes to a family and a
number if and only if it is the stem of the family and then at least one digit of ASCII, and nothing
else, whose decimal value is the number and at most `2 ^ 64 - 1`. In other words it is the shortest
such id with zeros in front of the number.

The ids that can be made up are those of the families with the shortest numerals of all numbers
below `2 ^ 64`, and each of them decodes to its family and number. Nothing decodes that has a
character other than the small letters and the digits of ASCII, so no sign, no line break at the
end and no digit of another script; nor does an id whose number is too large for a word.

All of this also holds when the form of the id is tested first and then its digits are read, by a
reader that takes a plus sign. In the form other characters may count as digits too, only not the
plus sign. -/
theorem numbered_iff_form (id : String) :
    (∀ family n, (∃ word, numbered? id = some (family, word) ∧ word.toNat = n) ↔
      ∃ digits : String, id = family.stem ++ digits ∧ digits ≠ "" ∧
        (∀ c ∈ digits.toList, '0' ≤ c ∧ c ≤ '9') ∧
        Numeral.placeValue digits.toList = n ∧ n ≤ 2 ^ 64 - 1) ∧
    (∀ family word, numbered? id = some (family, word) ↔
      ∃ zeros, id = family.stem ++ String.ofList (List.replicate zeros '0') ++
        toString word.toNat) ∧
    (∀ family,
      (∃ counters taken mint, Counters.mint? counters family taken = some mint ∧ mint.id = id) ↔
        ∃ n < 2 ^ 64, id = family.stem ++ toString n) ∧
    (∀ family, ∀ n < 2 ^ 64, id = family.stem ++ toString n →
      numbered? id = some (family, UInt64.ofNat n)) ∧
    (∀ c ∈ id.toList, ¬('a' ≤ c ∧ c ≤ 'z') → ¬('0' ≤ c ∧ c ≤ '9') → numbered? id = none) ∧
    (∀ (family : IdFamily) (digits : String), id = family.stem ++ digits →
      (∀ c ∈ digits.toList, '0' ≤ c ∧ c ≤ '9') → 2 ^ 64 ≤ Numeral.placeValue digits.toList →
      numbered? id = none) ∧
    ∀ isDigit : Char → Bool, (∀ c, '0' ≤ c ∧ c ≤ '9' → isDigit c = true) → isDigit '+' = false →
      decode? isDigit id = numbered? id := by
  refine ⟨fun _ _ => numbered?_iff_digits, fun _ _ => numbered?_iff_zeros,
    fun _ => exists_mint?_iff, ?_, ?_, fun _ _ hid _ hlarge => numbered?_of_large hid hlarge, ?_⟩
  · rintro family n hn rfl
    refine numbered?_iff_zeros.2 ⟨0, ?_⟩
    rw [UInt64.toNat_ofNat_of_lt' hn, List.replicate_zero, String.ofList_nil, String.append_empty]
  · intro c hc hletter hdigit
    rw [Option.eq_none_iff_forall_ne_some]
    rintro ⟨family, word⟩ h
    exact (mem_of_numbered? h hc).elim hletter hdigit
  · intro isDigit hascii hplus
    exact decode?_eq_numbered? (fun c hc => hascii c (Numeral.isDigit_iff.1 hc)) hplus id

/-- The largest number decodes and the one behind it does not. A digit of another script is captured
and not read, and signs and line breaks are not even captured. -/
theorem numbered_iff_form_at_edges :
    let isDigit (c : Char) : Bool := c.isDigit || (0x660 ≤ c.toNat && c.toNat ≤ 0x669)
    (18446744073709551615 < 2 ^ 64 ∧
      "tier18446744073709551615" = tier.stem ++ toString 18446744073709551615 ∧
      numbered? "tier18446744073709551615" = some (tier, 18446744073709551615)) ∧
    ("ts18446744073709551616" = timeSlot.stem ++ "18446744073709551616" ∧
      (∀ c ∈ "18446744073709551616".toList, '0' ≤ c ∧ c ≤ '9') ∧
      2 ^ 64 ≤ Numeral.placeValue "18446744073709551616".toList ∧
      numbered? "ts18446744073709551616" = none) ∧
    numbered? "an+5" = none ∧ numbered? "an5\n" = none ∧ numbered? "ts\u0663" = none ∧
    ((∀ c, '0' ≤ c ∧ c ≤ '9' → isDigit c = true) ∧ isDigit '+' = false ∧
      captured? isDigit "ts\u0663" = some ("ts", ['\u0663']) ∧
      captured? isDigit "an+5" = none ∧ captured? isDigit "an5\n" = none ∧
      decode? isDigit "ts\u0663" = none) := by
  intro isDigit
  have hlargest : "tier18446744073709551615" = tier.stem ++ toString 18446744073709551615 := by
    decide
  have htext : "ts18446744073709551616" = timeSlot.stem ++ "18446744073709551616" := by decide
  have hdigits : ∀ c ∈ "18446744073709551616".toList, '0' ≤ c ∧ c ≤ '9' := by decide
  have hlarge : 2 ^ 64 ≤ Numeral.placeValue "18446744073709551616".toList := by decide
  have hascii : ∀ c, '0' ≤ c ∧ c ≤ '9' → isDigit c = true := fun c hc =>
    Bool.or_eq_true_iff.2 (Or.inl (Numeral.isDigit_iff.2 hc))
  obtain ⟨-, -, -, hmade, -⟩ := numbered_iff_form "tier18446744073709551615"
  obtain ⟨-, -, -, -, -, hrefused, -⟩ := numbered_iff_form "ts18446744073709551616"
  obtain ⟨-, -, -, -, hsign, -⟩ := numbered_iff_form "an+5"
  obtain ⟨-, -, -, -, hbreak, -⟩ := numbered_iff_form "an5\n"
  obtain ⟨-, -, -, -, hscript, -, hsteps⟩ := numbered_iff_form "ts\u0663"
  have hnone : numbered? "ts\u0663" = none := hscript '\u0663' (by decide) (by decide) (by decide)
  exact ⟨⟨by decide, hlargest, hmade tier _ (by decide) hlargest⟩,
    ⟨htext, hdigits, hlarge, hrefused timeSlot _ htext hdigits hlarge⟩,
    hsign '+' (by decide) (by decide) (by decide), hbreak '\n' (by decide) (by decide) (by decide),
    hnone, hascii, by decide, by decide, by decide, by decide,
    (hsteps isDigit hascii (by decide)).trans hnone⟩

end IdFamily

end Eaf

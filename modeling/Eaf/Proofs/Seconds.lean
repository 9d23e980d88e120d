import Eaf.Proofs.DecimalTexts
import Eaf.Proofs.Elements
import Eaf.Proofs.Representation
import Eaf.Proofs.Thousandths

/-!
# Times in seconds

A file in seconds gives a time with a point among its digits, or none. With at most three digits
behind the point the text writes a whole number of milliseconds, and this is the time of the slot,
unless the number falls short: then the slot is one millisecond earlier. What decides is the number
alone, not how it is written: zeros and a plus sign in front, zeros behind and blanks around do not
matter.

## Main definitions

* `Eaf.WritesThousandths` — the texts that write a number of thousandths.
* `Eaf.SlotEntry.slot?` — the slot of an entry that has an id and a time.

## Main results

* `Eaf.Decimal.exists_read?` — how such a text is read as a decimal number.
* `Eaf.TimeUnit.exists_read?_thousandths` — how it is read as a time in seconds.
* `Eaf.SlotEntry.slots?_eq_filterMap` — the slots of a file are those of its entries.
* `Eaf.Document.seconds_of_importTree` — the slot that a file in seconds adds to a document.
* `Eaf.Document.thousandth_read_too_small` — a millisecond is lost.
-/

namespace Eaf

/-! ### Texts of thousandths -/

/-- Digits write a number of thousandths of their value, and so do digits around a point with at
most three of them behind it. -/
inductive WritesSize : List Char → Nat → Prop
  | whole (digits : List Char) (hne : digits ≠ []) (hdigits : ∀ c ∈ digits, c.isDigit = true) :
    WritesSize digits (Nat.ofDigitChars 10 digits 0 * 1000)
  | point (whole fraction : List Char) (hne : whole ++ fraction ≠ [])
      (hdigits : ∀ c ∈ whole ++ fraction, c.isDigit = true) (hplaces : fraction.length ≤ 3) :
    WritesSize (whole ++ '.' :: fraction)
      (Nat.ofDigitChars 10 (whole ++ fraction) 0 * 10 ^ (3 - fraction.length))

/-- Texts that write a number of thousandths, with or without a sign. -/
inductive WritesThousandths : List Char → Int → Prop
  | unsigned {cs : List Char} {n : Nat} (h : WritesSize cs n) : WritesThousandths cs n
  | plus {cs : List Char} {n : Nat} (h : WritesSize cs n) : WritesThousandths ('+' :: cs) n
  | minus {cs : List Char} {n : Nat} (h : WritesSize cs n) : WritesThousandths ('-' :: cs) (-n)

namespace Decimal

/-- A size in thousandths is written with at most three places behind the point. -/
theorem exists_writesUnsigned {cs : List Char} {n : Nat} (negative : Bool) (h : WritesSize cs n) :
    ∃ coefficient behind : Nat, behind ≤ 3 ∧ coefficient * 10 ^ (3 - behind) = n ∧
      WritesUnsigned negative cs { negative, coefficient, exponent := -(behind : Int) } := by
  cases h with
  | whole digits hne hdigits =>
    have hparts : WritesUnsigned negative _ _ := .parts (.whole ⟨hne, hdigits⟩) .none
    rw [List.append_nil] at hparts
    exact ⟨_, 0, Nat.zero_le 3, rfl, hparts⟩
  | point whole fraction hne hdigits hplaces =>
    have hparts : WritesUnsigned negative _ _ := .parts (.point ⟨hne, hdigits⟩) .none
    rw [List.append_nil, Int.zero_sub] at hparts
    exact ⟨_, fraction.length, hplaces, rfl, hparts⟩

/-- A number of thousandths is read with at most three places behind the point. A number that is
not zero is negative if it is written with a minus sign. -/
theorem exists_read? {cs : List Char} {n : Int} (h : WritesThousandths cs n) :
    ∃ (negative : Bool) (coefficient behind : Nat), behind ≤ 3 ∧
      coefficient * 10 ^ (3 - behind) = n.natAbs ∧ (n ≠ 0 → negative = decide (n < 0)) ∧
      read? cs = some { negative, coefficient, exponent := -(behind : Int) } := by
  have hpositive (size : Nat) (_ : (size : Int) ≠ 0) : false = decide ((size : Int) < 0) := by simp
  cases h with
  | unsigned h =>
    obtain ⟨coefficient, behind, hbehind, hn, hwrites⟩ := exists_writesUnsigned false h
    exact ⟨false, coefficient, behind, hbehind, hn, hpositive _,
      read?_eq_some_iff.2 (.signed .none hwrites)⟩
  | plus h =>
    obtain ⟨coefficient, behind, hbehind, hn, hwrites⟩ := exists_writesUnsigned false h
    exact ⟨false, coefficient, behind, hbehind, hn, hpositive _,
      read?_eq_some_iff.2 (.signed .plus hwrites)⟩
  | @minus cs size h =>
    obtain ⟨coefficient, behind, hbehind, hn, hwrites⟩ := exists_writesUnsigned true h
    refine ⟨true, coefficient, behind, hbehind, by rw [Int.natAbs_neg]; exact hn, ?_,
      read?_eq_some_iff.2 (.signed .minus hwrites)⟩
    intro hne
    have hneg : -(size : Int) < 0 := by omega
    exact (decide_eq_true hneg).symm

/-- A size in thousandths is rounded as a ratio. -/
theorem toBinary64?_thousandths {negative : Bool} {coefficient behind size : Nat}
    (hbehind : behind ≤ 3) (hsize : coefficient * 10 ^ (3 - behind) = size) (hne : size ≠ 0)
    (hbound : size ≤ 10 ^ 12) :
    toBinary64? { negative, coefficient, exponent := -(behind : Int) } =
      Binary64.round? negative (size * Binary64.one) 1000 := by
  have hcoefficient : coefficient ≠ 0 := by
    rintro rfl
    exact hne (hsize.symm.trans (Nat.zero_mul _))
  have hle : coefficient ≤ size := hsize ▸ Nat.le_mul_of_pos_right _ (Nat.pow_pos (by decide))
  have hlength : (Numeral.write coefficient).length ≤ 13 :=
    (Nat.length_toDigits_le_iff (by decide) (by decide)).2
      (Nat.lt_of_le_of_lt (Nat.le_trans hle hbound) (by decide))
  have hplaces : ¬ places { negative, coefficient, exponent := -(behind : Int) } < -330 ∧
      ¬ places { negative, coefficient, exponent := -(behind : Int) } > 310 := by
    simp only [places]
    omega
  have hround : Binary64.round? negative (coefficient * Binary64.one) (10 ^ behind) =
      Binary64.round? negative (size * Binary64.one) 1000 := by
    have hpos : 0 < 10 ^ (3 - behind) := Nat.pow_pos (by decide)
    rw [← Binary64.round?_mul_right _ _ _ hpos, ← Nat.pow_add, Nat.add_sub_cancel' hbehind,
      Nat.mul_right_comm, hsize]
  rw [toBinary64?, if_neg (not_or.2 ⟨hcoefficient, hplaces.1⟩), if_neg hplaces.2]
  dsimp only
  rw [Int.natAbs_neg, Int.natAbs_natCast, powerOfTen, Nat.pow_eq]
  split
  next => exact hround
  next hnot =>
    obtain rfl : behind = 0 := by omega
    rw [Nat.pow_zero, Nat.mul_one]
    exact hround

end Decimal

/-! ### Times in seconds -/

/-- An integer of 64 bits is its own nearest one. -/
theorem toInt_saturate {n : Int} (hlow : -2 ^ 63 ≤ n) (hhigh : n < 2 ^ 63) :
    (saturate n).toInt = n := by
  have hmin := Int64.toInt_minValue
  have hmax := Int64.toInt_maxValue
  rw [saturate, if_neg (by omega), if_neg (by omega),
    Int64.toInt_ofInt_of_le (by omega) (by omega)]

/-- A text of thousandths is read in seconds as their number, or as the next smaller one if the
number falls short. -/
theorem TimeUnit.exists_read?_thousandths {text : String} {n : Int}
    (h : WritesThousandths (Text.trim text.toList) n) (hbound : n.natAbs ≤ 10 ^ 12) :
    ∃ time, seconds.read? text = some time ∧ time.toInt = if FallsShort n then n - 1 else n := by
  obtain ⟨negative, coefficient, behind, hbehind, hn, hnegative, hread⟩ := Decimal.exists_read? h
  rw [read?, hread, Option.bind_some]
  by_cases hne : n = 0
  · subst hne
    have hcoefficient : coefficient = 0 :=
      (Nat.mul_eq_zero.1 hn).resolve_right (Nat.ne_of_gt (Nat.pow_pos (by decide)))
    have hzero : seconds.toMillis (Binary64.zero negative) = 0 := by
      cases negative <;> decide +kernel
    rw [Decimal.toBinary64?, if_pos (Or.inl hcoefficient)]
    exact ⟨0, congrArg some hzero, by decide⟩
  · obtain ⟨x, y, hx, hy, hfloor⟩ := Binary64.exists_floor_mulNat hne hbound
    rw [Decimal.toBinary64?_thousandths hbehind hn (Int.natAbs_ne_zero.2 hne) hbound,
      hnegative hne, hx]
    refine ⟨saturate y.floor, by rw [Option.map_some, toMillis, hy], ?_⟩
    have hrange : -2 ^ 63 ≤ y.floor ∧ y.floor < 2 ^ 63 := by
      rw [hfloor]
      split <;> omega
    rw [toInt_saturate hrange.1 hrange.2, hfloor]

/-! ### Slots of files -/

namespace SlotEntry

/-- The slot of an entry that has an id and a time. -/
def slot? : SlotEntry → Option TimeSlot
  | aligned slot => some slot
  | _ => none

/-- The slots of entries are those of the entries that have one. -/
theorem slots?_eq_filterMap {entries : List SlotEntry} {slots : List TimeSlot}
    (h : slots? entries = .ok slots) : slots = entries.filterMap slot? := by
  fun_induction slots? entries generalizing slots with
  | case1 =>
    cases h
    rfl
  | case2 rest ih => exact ih h
  | case3 id rest ih => exact ih h
  | case4 => cases h
  | case5 slot rest ih =>
    cases hrest : slots? rest with
    | error fault =>
      rw [hrest] at h
      cases h
    | ok others =>
      rw [hrest] at h
      cases h
      rw [ih hrest]
      rfl

/-- An element without the id or without a time has no slot with the id. -/
theorem slot?_ofElement_of_ne {unit : TimeUnit} {element : Xml.Node} {id : String}
    (h : element.attribute? "TIME_SLOT_ID" = some id → element.attribute? "TIME_VALUE" = none) :
    ∀ slot ∈ (ofElement unit element).slot?, slot.id ≠ id := by
  intro slot hslot
  unfold ofElement at hslot
  split at hslot
  · cases hslot
  next own hown =>
    split at hslot
    · cases hslot
    next value hvalue =>
      split at hslot
      · cases hslot
      next time =>
        obtain rfl := Option.some.inj hslot
        rintro rfl
        rw [h hown] at hvalue
        cases hvalue

end SlotEntry

/-- The times of a file are in seconds unless its header says that they are in milliseconds. -/
theorem Header.timeUnit_eq_seconds {root element : Xml.Node} {header : Header}
    (h : ofRoot? root = .ok header) (helement : root.child? "HEADER" = some element)
    (hunit : element.attribute? "TIME_UNITS" ≠ some "milliseconds") :
    header.timeUnit = .seconds := by
  obtain rfl : header.element = element :=
    Option.some.inj ((ofRoot?_ok h).2.1.symm.trans helement)
  exact if_neg hunit

namespace Document

variable {document : Document} {root header element : Xml.Node} {before after : List Xml.Node}
  {id text : String} {n : Int}

/-- **Times in seconds.** Let an element of a file in seconds give a slot a time with at most three
digits behind the point, of at most a thousand million seconds. The time is read as its number of
milliseconds, or as the next smaller one if this number falls short, which eighths of a second never
do. If the file joins a document in which the id is free, and no element in front of this one gives
the slot a time, then the slot with the id is at this time. -/
theorem seconds_of_importTree (hreachable : document.Reachable)
    (hheader : root.child? "HEADER" = some header)
    (hunit : header.attribute? "TIME_UNITS" ≠ some "milliseconds")
    (helements : SlotEntry.elements root = before ++ element :: after)
    (hid : element.attribute? "TIME_SLOT_ID" = some id)
    (htext : element.attribute? "TIME_VALUE" = some text)
    (hwrites : WritesThousandths (Text.trim text.toList) n) (hbound : n.natAbs ≤ 10 ^ 12) :
    ∃ value, TimeUnit.seconds.read? text = some value ∧
      value.toInt = (if FallsShort n then n - 1 else n) ∧ (125 ∣ n → value.toInt = n) ∧
      ∀ (options : ReadOptions) (imported : Imported),
        (document.importTree options root).result = .ok imported →
        document.slot? id = none →
        (∀ earlier ∈ before, earlier.attribute? "TIME_SLOT_ID" = some id →
          earlier.attribute? "TIME_VALUE" = none) →
        imported.document.slot? id = some { id, value } := by
  obtain ⟨value, hread, hvalue⟩ := TimeUnit.exists_read?_thousandths hwrites hbound
  refine ⟨value, hread, hvalue, fun heighths => ?_, fun options imported himport hnew hfirst => ?_⟩
  · rw [hvalue, if_neg (not_fallsShort_of_dvd heighths)]
  obtain ⟨content, hcontent, hdocument, -⟩ := importTree_ok himport
  obtain ⟨own, hown, -, -, hread', -⟩ := Content.ofRoot?_ok hcontent
  have hslots := SlotEntry.slots?_eq_filterMap hread'
  rw [Header.timeUnit_eq_seconds hown hheader hunit, SlotEntry.ofRoot, helements, List.map_append,
    List.map_cons, List.filterMap_append] at hslots
  have hentry : SlotEntry.ofElement .seconds element = .aligned { id, value } := by
    simp [SlotEntry.ofElement, hid, htext, hread]
  have hbefore : ((before.map (SlotEntry.ofElement .seconds)).filterMap SlotEntry.slot?).find?
      (·.id == id) = none := by
    refine List.find?_eq_none.2 fun slot hslot heq => ?_
    obtain ⟨entry, hentry, hslot⟩ := List.mem_filterMap.1 hslot
    obtain ⟨earlier, hearlier, rfl⟩ := List.mem_map.1 hentry
    exact SlotEntry.slot?_ofElement_of_ne (hfirst earlier hearlier) slot hslot (by simpa using heq)
  have hfound : content.slots.find? (·.id == id) = some { id, value } := by
    rw [hslots, List.find?_append, hbefore, hentry]
    simp [SlotEntry.slot?]
  have hjoined : imported.document.slot? id =
      (document.slot? id).or (content.slots.find? (·.id == id)) := by
    rw [hdocument]
    exact hreachable.faithful.find?_insertNew content.slots id
  rw [hjoined, hnew, hfound, Option.none_or]

/-- A file in seconds with nothing but given slots. -/
def fileOfSlots (slots : List (String × Option String)) : Xml.Node :=
  Outline.root { unit := some "seconds", slots }

/-- A slot that stands without a time first, then at a time of which one millisecond is lost, and
then at another time. -/
theorem seconds_of_importTree_negative :
    let document := empty.run [.createTier "text" "en", .createNote "tier0" "word" 0 100]
    let root := fileOfSlots [("a", none), ("a", some " -2.007\n"), ("a", some "1")]
    FallsShort (-2007) ∧ ∃ imported, (document.importTree {} root).result = .ok imported ∧
      imported.document.slot? "a" = some { id := "a", value := -2008 } := by
  intro document root
  have hreachable : document.Reachable := ⟨_, rfl⟩
  have hshort : FallsShort (-2007) := by decide
  have helements : SlotEntry.elements root = [slotElement "a" none] ++
      slotElement "a" (some " -2.007\n") :: [slotElement "a" (some "1")] := rfl
  have hid : (slotElement "a" (some " -2.007\n")).attribute? "TIME_SLOT_ID" = some "a" := rfl
  have htext : (slotElement "a" (some " -2.007\n")).attribute? "TIME_VALUE" =
      some " -2.007\n" := rfl
  have hwrites : WritesThousandths (Text.trim " -2.007\n".toList) (-2007) := by
    have htrim : Text.trim " -2.007\n".toList = '-' :: (['2'] ++ '.' :: ['0', '0', '7']) := by
      decide +kernel
    rw [htrim]
    exact .minus (.point ['2'] ['0', '0', '7'] (by decide) (by decide) (by decide))
  obtain ⟨imported, himport⟩ : ∃ imported, (document.importTree {} root).result = .ok imported :=
    exists_ok_of_isOk (by decide +kernel)
  obtain ⟨value, -, hvalue, -, hslot⟩ := seconds_of_importTree hreachable rfl (by decide)
    helements hid htext hwrites (by decide)
  rw [if_pos hshort] at hvalue
  obtain rfl : value = -2008 := Int64.toInt_inj.1 (hvalue.trans (by decide))
  exact ⟨hshort, imported, himport, hslot {} imported himport (by decide +kernel) (by decide)⟩

/-- **A thousandth that is read too small.** The text writes 1001 thousandths of a second, and no
part of a millisecond. -/
theorem thousandth_read_too_small :
    WritesThousandths (Text.trim "1.001".toList) 1001 ∧
      ∃ imported slot,
        (empty.importTree {} (fileOfSlots [("a", some "1.001")])).result = .ok imported ∧
        imported.document.slot? "a" = some slot ∧ slot.value.toInt = 1000 := by
  refine ⟨.unsigned (.point ['1'] ['0', '0', '1'] (by decide) (by decide) (by decide)), ?_⟩
  obtain ⟨imported, himport⟩ : ∃ imported,
      (empty.importTree {} (fileOfSlots [("a", some "1.001")])).result = .ok imported :=
    exists_ok_of_isOk (by decide +kernel)
  have hslot : ((empty.importTree {} (fileOfSlots [("a", some "1.001")])).result.toOption.bind
      (·.document.slot? "a")) = some { id := "a", value := 1000 } := by
    decide +kernel
  rw [himport] at hslot
  exact ⟨imported, _, himport, hslot, by decide⟩

end Document

end Eaf

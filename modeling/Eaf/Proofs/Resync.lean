import Mathlib.Order.Bounds.Basic
import Eaf.Proofs.Absorption

/-!
# Counters after reading

When a file is read, the counter of annotation ids is raised to the number that the file records,
and then every counter is moved past the ids of the slots, tiers and annotations that were added,
if it is to follow them. So each counter becomes the greatest of a few numbers: its own, those right
behind the numbers of added ids of its family, whatever carries them, and the recorded one. Ids that
the file repeats or shares with the document do not matter unless they were added elsewhere, nor
does the order of the ids.

## Main definitions

* `Eaf.Numeral.WritesWord` — numerals of words.
* `Eaf.RecordsCounter` — the number that a file records for annotation ids.
* `Eaf.Counters.Candidate` — the numbers from which a counter takes its value.

## Main results

* `Eaf.Counters.get_observeAll_eq` — where a counter stands that was moved past ids.
* `Eaf.Counters.observeAll_perm` — the order of the ids does not matter.
* `Eaf.Content.lastUsed_eq_some_iff` — the recorded number.
* `Eaf.Document.counters_of_importTree` — the counters after a file was read.
-/

namespace Eaf

/-! ### Counters that follow ids -/

namespace Counters

/-- The successor of a word is its number plus one, but for the largest word. -/
theorem toNat_successor (n : UInt64) : (successor n).toNat = min (n.toNat + 1) (2 ^ 64 - 1) := by
  have hnext : (n + 1).toNat = (n.toNat + 1) % 18446744073709551616 := UInt64.toNat_add n 1
  have hword := n.toNat_lt
  unfold successor
  split
  next hzero =>
    rw [hzero, UInt64.toNat_zero] at hnext
    omega
  next hne =>
    have hne' : (n + 1).toNat ≠ 0 := fun h => hne (UInt64.toNat_inj.1 h)
    rw [hnext] at hne' ⊢
    omega

/-- Counters are the same if they are for every family. -/
theorem eq_of_get {counters other : Counters}
    (h : ∀ family, counters.get family = other.get family) : counters = other := by
  have htier : counters.tier = other.tier := h .tier
  have hnote : counters.note = other.note := h .note
  have hslot : counters.timeSlot = other.timeSlot := h .timeSlot
  cases counters
  cases other
  rw [Counters.mk.injEq]
  exact ⟨htier, hnote, hslot⟩

variable {counters : Counters} {family : IdFamily} {ids order : List String}

/-- A counter that is raised keeps its value or takes the new one. -/
theorem get_raise_eq (counters : Counters) (family other : IdFamily) (value : UInt64) :
    (counters.raise family value).get other = counters.get other ∨
      other = family ∧ (counters.raise family value).get other = value := by
  unfold raise
  split
  · by_cases hother : other = family
    · exact Or.inr ⟨hother, by rw [hother, get_set_self]⟩
    · exact Or.inl (get_set_of_ne counters family other value hother)
  · exact Or.inl rfl

/-- A counter that was moved past ids keeps its value or stands right behind one of them. -/
theorem get_observeAll_eq (counters : Counters) (ids : List String) (family : IdFamily) :
    (counters.observeAll ids).get family = counters.get family ∨
      ∃ id ∈ ids, ∃ n, IdFamily.numbered? id = some (family, n) ∧
        (counters.observeAll ids).get family = successor n := by
  induction ids generalizing counters with
  | nil => exact Or.inl rfl
  | cons id ids ih =>
    rcases ih (counters.observe id) with hkept | ⟨other, hother, n, hn, hmoved⟩
    · have hstep : (counters.observeAll (id :: ids)).get family =
          (counters.observe id).get family := hkept
      rw [hstep]
      unfold observe
      split
      next own n hn =>
        rcases get_raise_eq counters own family (successor n) with hsame | ⟨rfl, hmoved⟩
        · exact Or.inl hsame
        · exact Or.inr ⟨id, List.mem_cons_self, n, hn, hmoved⟩
      next => exact Or.inl rfl
    · exact Or.inr ⟨other, List.mem_cons_of_mem _ hother, n, hn, hmoved⟩

/-- More ids move a counter at least as far. -/
theorem get_observeAll_le_of_subset (h : order ⊆ ids) :
    (counters.observeAll order).get family ≤ (counters.observeAll ids).get family := by
  rcases get_observeAll_eq counters order family with hkept | ⟨id, hid, n, hn, hmoved⟩
  · rw [hkept]
    exact get_le_observeAll counters ids family
  · rw [hmoved]
    exact successor_le_observeAll counters (h hid) hn

/-- The order of the ids past which counters are moved does not matter. -/
theorem observeAll_perm (h : order.Perm ids) :
    counters.observeAll order = counters.observeAll ids :=
  eq_of_get fun _ => UInt64.le_antisymm (get_observeAll_le_of_subset h.subset)
    (get_observeAll_le_of_subset h.symm.subset)

end Counters

/-! ### The number that a file records -/

namespace Numeral

/-- Digits, perhaps behind a plus sign, write the word of their value. -/
def WritesWord (cs : List Char) (value : UInt64) : Prop :=
  ∃ digits, (cs = digits ∨ cs = '+' :: digits) ∧ digits ≠ [] ∧
    (∀ c ∈ digits, c.isDigit = true) ∧ Nat.ofDigitChars 10 digits 0 = value.toNat

theorem read?_eq_some_iff {cs : List Char} {n : Nat} :
    read? cs = some n ↔
      cs ≠ [] ∧ (∀ c ∈ cs, c.isDigit = true) ∧ Nat.ofDigitChars 10 cs 0 = n := by
  rw [read?, Option.ite_none_right_eq_some, List.all_eq_true, Option.some_inj, and_assoc]

theorem readWord?_eq_some_iff {cs : List Char} {value : UInt64} :
    readWord? cs = some value ↔ read? cs = some value.toNat := by
  unfold readWord?
  constructor
  · intro h
    obtain ⟨n, hn, hvalue⟩ := Option.bind_eq_some_iff.1 h
    split at hvalue
    · cases hvalue
      rw [hn, UInt64.toNat_ofNatLT]
    · cases hvalue
  · intro h
    rw [h, Option.bind_some, dif_pos value.toNat_lt_size, UInt64.ofNatLT_toNat]

/-- Exactly these texts are read as a word. -/
theorem readSignedWord?_eq_some_iff {cs : List Char} {value : UInt64} :
    readSignedWord? cs = some value ↔ WritesWord cs value := by
  constructor
  · intro h
    unfold readSignedWord? at h
    split at h
    next digits => exact ⟨digits, Or.inr rfl, read?_eq_some_iff.1 (readWord?_eq_some_iff.1 h)⟩
    next => exact ⟨cs, Or.inl rfl, read?_eq_some_iff.1 (readWord?_eq_some_iff.1 h)⟩
  · rintro ⟨digits, hcs, hdigits⟩
    have hread : readWord? digits = some value :=
      readWord?_eq_some_iff.2 (read?_eq_some_iff.2 hdigits)
    rcases hcs with rfl | rfl
    · unfold readSignedWord?
      split
      next => exact absurd (hdigits.2.1 '+' List.mem_cons_self) (by decide)
      next => exact hread
    · exact hread

end Numeral

/-- A file records a number for annotation ids: the first property of the name in its header begins
with a numeral of the number, blanks around it aside. -/
def RecordsCounter (root : Xml.Node) (value : UInt64) : Prop :=
  ∃ header before property after text,
    root.child? "HEADER" = some header ∧
    header.childrenNamed "PROPERTY" = before ++ property :: after ∧
    (∀ earlier ∈ before, earlier.attribute? "NAME" ≠ some "lastUsedAnnotationId") ∧
    property.attribute? "NAME" = some "lastUsedAnnotationId" ∧
    property.leadingText? = some text ∧ Numeral.WritesWord (Text.trim text.toList) value

/-- The number in the content of a file is the one that the file records. -/
theorem Content.lastUsed_eq_some_iff {options : ReadOptions} {root : Xml.Node} {content : Content}
    (h : ofRoot? options root = .ok content) {value : UInt64} :
    content.lastUsed = some value ↔ RecordsCounter root value := by
  obtain ⟨header, hheader, -, hlast, -⟩ := ofRoot?_ok h
  obtain ⟨-, helement, -⟩ := Header.ofRoot?_ok hheader
  rw [hlast, Header.lastUsed?]
  constructor
  · intro hvalue
    obtain ⟨text, htext, hread⟩ := Option.bind_eq_some_iff.1 hvalue
    obtain ⟨property, hproperty, htext⟩ := Option.bind_eq_some_iff.1 htext
    obtain ⟨hname, before, after, hsplit, hbefore⟩ := List.find?_eq_some_iff_append.1 hproperty
    have hothers : ∀ earlier ∈ before,
        earlier.attribute? "NAME" ≠ some Header.lastUsedProperty := by
      intro earlier hearlier
      have hother := hbefore earlier hearlier
      rw [Bool.not_eq_true'] at hother
      exact of_decide_eq_false hother
    exact ⟨_, before, property, after, text, helement, hsplit, hothers, of_decide_eq_true hname,
      htext, Numeral.readSignedWord?_eq_some_iff.1 hread⟩
  · rintro ⟨own, before, property, after, text, hown, hsplit, hbefore, hname, htext, hwrites⟩
    obtain rfl : header.element = own := Option.some.inj (helement.symm.trans hown)
    have hfind : (header.element.childrenNamed "PROPERTY").find?
        (fun p => p.attribute? "NAME" = some Header.lastUsedProperty) = some property := by
      refine List.find?_eq_some_iff_append.2
        ⟨decide_eq_true hname, before, after, hsplit, fun earlier hearlier => ?_⟩
      rw [Bool.not_eq_true']
      exact decide_eq_false (hbefore earlier hearlier)
    rw [hfind, Option.bind_some, htext, Option.bind_some]
    exact Numeral.readSignedWord?_eq_some_iff.2 hwrites

/-! ### Counters after reading -/

namespace Counters

/-- The numbers from which the counter of a family takes its value when a file is read and counters
follow the given ids. -/
inductive Candidate (counters : Counters) (ids : List String) (root : Xml.Node)
    (family : IdFamily) : Nat → Prop
  /-- The counter may stay where it is. -/
  | kept : Candidate counters ids root family (counters.get family).toNat
  /-- It may move right behind the number of an id of its family, but not past the largest word. -/
  | follows {id : String} {n : UInt64} (hid : id ∈ ids)
      (hn : IdFamily.numbered? id = some (family, n)) :
      Candidate counters ids root family (min (n.toNat + 1) (2 ^ 64 - 1))
  /-- The counter of annotation ids may take the number that the file records. -/
  | recorded {value : UInt64} (hfamily : family = .note) (hvalue : RecordsCounter root value) :
      Candidate counters ids root family value.toNat

end Counters

namespace Content

variable {options : ReadOptions} {root : Xml.Node} {content : Content}

/-- A counter that is raised to the number in a file keeps its value, or it is that of annotation
ids and takes the number. -/
theorem get_raise_eq (content : Content) (counters : Counters) (family : IdFamily) :
    (content.raise counters).get family = counters.get family ∨
      family = .note ∧ content.lastUsed = some ((content.raise counters).get family) := by
  unfold raise
  split
  next value hvalue =>
    rcases Counters.get_raise_eq counters .note family value with hkept | ⟨hfamily, hraised⟩
    · exact Or.inl hkept
    · exact Or.inr ⟨hfamily, by rw [hvalue, hraised]⟩
  next => exact Or.inl rfl

/-- A counter that is raised to the number in a file and moved past ids becomes the greatest of its
candidates. -/
theorem isGreatest_candidate (h : ofRoot? options root = .ok content) (counters : Counters)
    (ids : List String) (family : IdFamily) :
    IsGreatest {n | counters.Candidate ids root family n}
      (((content.raise counters).observeAll ids).get family).toNat := by
  constructor
  · rcases Counters.get_observeAll_eq (content.raise counters) ids family with
      hraised | ⟨id, hid, n, hn, hmoved⟩
    · rw [hraised]
      rcases content.get_raise_eq counters family with hkept | ⟨hfamily, hvalue⟩
      · rw [hkept]
        exact .kept
      · exact .recorded hfamily ((lastUsed_eq_some_iff h).1 hvalue)
    · rw [hmoved, Counters.toNat_successor]
      exact .follows hid hn
  · intro n hn
    have hraised := (content.raise counters).get_le_observeAll ids family
    cases hn with
    | kept => exact UInt64.le_iff_toNat_le.1 (UInt64.le_trans (content.get_le_raise _ _) hraised)
    | @follows id n hid hn =>
      rw [← Counters.toNat_successor]
      exact UInt64.le_iff_toNat_le.1 (Counters.successor_le_observeAll _ hid hn)
    | recorded hfamily hvalue =>
      subst hfamily
      have hle := lastUsed_le_raise ((lastUsed_eq_some_iff h).2 hvalue) counters
      exact UInt64.le_iff_toNat_le.1 (UInt64.le_trans hle hraised)

end Content

namespace Document

variable {document : Document} {options : ReadOptions} {root : Xml.Node} {imported : Imported}

/-- **Counters after reading.** A file that is read adds some of its slots and tiers behind those of
the document. Each counter then is the greatest of its candidates: what it was, what follows the
numbers of its family among the ids of the added slots, the added tiers and their annotations if
counters are to follow ids, and for annotation ids what the file records. In whatever order the
counters are moved past the added ids, the outcome is the same. -/
theorem counters_of_importTree (h : (document.importTree options root).result = .ok imported) :
    ∃ content slots tiers, Content.ofRoot? options root = .ok content ∧
      slots.Sublist content.slots ∧ tiers.Sublist content.tiers ∧
      imported.document.timeline.toList = document.timeline.toList ++ slots ∧
      imported.document.tiers = document.tiers ++ tiers ∧
      let added := if options.resyncCounters then slots.map (·.id) ++ idsOf tiers else []
      (∀ family, IsGreatest {n | document.counters.Candidate added root family n}
        (imported.document.counters.get family).toNat) ∧
      ∀ order : List String, order.Perm added →
        (content.raise document.counters).observeAll order = imported.document.counters := by
  obtain ⟨content, hcontent, hdocument, -⟩ := importTree_ok h
  refine ⟨content, (document.timeline.insertNew content.slots).2,
    (splitNew document.tierIds content.tiers).1, hcontent, Timeline.insertNew_sublist _ _,
    splitNew_sublist _ _, by rw [hdocument]; exact Timeline.toList_insertNew _ _,
    by rw [hdocument]; rfl, ?_⟩
  intro added
  have hcounters : imported.document.counters =
      (content.raise document.counters).observeAll added := by
    rw [hdocument, absorb_counters]
    cases hresync : options.resyncCounters with
    | true => simp only [added, hresync, if_true]
    | false => simp only [added, hresync]; rfl
  refine ⟨fun family => ?_, fun order horder => ?_⟩
  · rw [hcounters]
    exact Content.isGreatest_candidate hcontent _ _ _
  · rw [hcounters]
    exact Counters.observeAll_perm horder

/-- A file with one slot and one tier. -/
def smallFile : Xml.Node :=
  Outline.root { slots := [("ts90", some "9")], tiers := [tierElement "words" none []] }

/-- A file that repeats the slot and the tier, gives ids of one family to objects of another, and
records two counters. -/
def entangledFile : Xml.Node :=
  Outline.root
    { counters := [" +12 ", "77"]
      slots := [("ts90", some "1"), ("tier6", some "2"), ("an3", some "3")]
      tiers :=
        [ tierElement "words" none [referringElement "an80" none],
          tierElement "tier2" none [referringElement "ts18446744073709551615" none] ] }

/-- Slots move the counters of tiers and of annotations, an annotation moves that of slots to the
largest word, and neither the repeated slot nor the annotation of the repeated tier counts. -/
theorem counters_of_importTree_entangled :
    let document := empty.run [.readTree { resyncCounters := false } smallFile]
    ∃ imported, (document.importTree {} entangledFile).result = .ok imported ∧
      imported.document.counters =
        { tier := 7, note := 12, timeSlot := 18446744073709551615 } ∧
      ∀ family, IsGreatest {n | document.counters.Candidate
          ["tier6", "an3", "tier2", "ts18446744073709551615"] entangledFile family n}
        (imported.document.counters.get family).toNat := by
  intro document
  obtain ⟨imported, himport⟩ :
      ∃ imported, (document.importTree {} entangledFile).result = .ok imported :=
    exists_ok_of_isOk (by decide +kernel)
  have hslots : document.timeline.toList.map (·.id) = ["ts90"] := by decide +kernel
  have htiers : idsOf document.tiers = ["words"] := by decide +kernel
  have hview : (document.importTree {} entangledFile).result.toOption.map (fun imported =>
      (imported.document.timeline.toList.map (·.id), idsOf imported.document.tiers,
        imported.document.counters)) =
      some (["ts90", "tier6", "an3"], ["words", "tier2", "ts18446744073709551615"],
        { tier := 7, note := 12, timeSlot := 18446744073709551615 }) := by
    decide +kernel
  rw [himport] at hview
  obtain ⟨hslots', hview⟩ := Prod.mk.inj (Option.some.inj hview)
  obtain ⟨htiers', hcounters⟩ := Prod.mk.inj hview
  refine ⟨imported, himport, hcounters, ?_⟩
  obtain ⟨content, slots, tiers, -, -, -, htimeline, hjoined, hgreatest, -⟩ :=
    counters_of_importTree himport
  rw [htimeline, List.map_append, hslots] at hslots'
  rw [hjoined, idsOf, List.flatMap_append, ← idsOf, htiers] at htiers'
  have hadded : slots.map (·.id) ++ idsOf tiers =
      ["tier6", "an3", "tier2", "ts18446744073709551615"] := by
    rw [List.append_cancel_left hslots', idsOf, List.append_cancel_left htiers']
    rfl
  rw [← hadded]
  exact hgreatest

end Document

end Eaf

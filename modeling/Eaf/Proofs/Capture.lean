import Eaf.Proofs.Chain
import Eaf.Proofs.Elements
import Eaf.Proofs.Representation

/-!
# Growth and dangling references

A document may hold references to ids that no object carries: to a slot that a file left unaligned,
to an annotation or a parent tier that is not there. An operation that makes an object takes an id
that is free, that is, carried by no object; it does not look at references. So every reference
resolves afterwards as before, but for a dangling one that spells the very id that was taken: it
names the new object from then on.

## Main definitions

* `Eaf.Minted` — the ids that an operation took.
* `Eaf.Document.GrowsBy` — look-ups in a document and in one that grew from it.
* `Eaf.Document.Captured` — an annotation whose chain ends in a reference that spells a taken id.

## Main results

* `Eaf.Document.GrowsBy.interval?_eq` — the extents of annotations that are not captured.
* `Eaf.Document.resolution_of_growth` — what every creation does to every reference.
* `Eaf.Document.dangling_references_are_captured` — references that do not stay as they were.
-/

namespace Eaf

/-- The ids that an operation took for new objects. -/
structure Minted where
  tiers : List String := []
  notes : List String := []
  slots : List String := []

namespace Document

/-- A document grows to another by objects under minted ids: these ids were free and are in use,
and every other id names what it named. -/
structure GrowsBy (document grown : Document) (minted : Minted) : Prop where
  tierMinted : ∀ id ∈ minted.tiers, document.tier? id = none ∧ (grown.tier? id).isSome
  noteMinted : ∀ id ∈ minted.notes, document.note? id = none ∧ (grown.note? id).isSome
  slotMinted : ∀ id ∈ minted.slots, document.slot? id = none ∧ (grown.slot? id).isSome
  tierKept : ∀ id ∉ minted.tiers, (grown.tier? id).isSome = (document.tier? id).isSome
  noteKept : ∀ id ∉ minted.notes, grown.note? id = document.note? id
  slotKept : ∀ id ∉ minted.slots, grown.slot? id = document.slot? id
  /-- No new annotation refers to another. -/
  next : grown.next? = document.next?

/-- The chain of an id comes to a dangling reference that spells a minted id: to a reference to a
minted annotation, or to an annotation that is aligned at a minted slot. -/
def Captured (document : Document) (minted : Minted) (id : String) : Prop :=
  ∃ links last, document.Follows links id last ∧
    (last ∈ minted.notes ∨ ∃ note start stop, document.note? last = some note ∧
      note.anchor = .aligned start stop ∧ (start ∈ minted.slots ∨ stop ∈ minted.slots))

variable {document grown : Document} {minted : Minted} {created : Created} {id : String}

/-! ### Extents in a document that grew -/

theorem Follows.congr {links : Nat} {last : String} (hnext : grown.next? = document.next?)
    (h : document.Follows links id last) : grown.Follows links id last := by
  induction h with
  | here id => exact .here id
  | link hlink _ ih => exact .link (by rwa [hnext]) ih

/-- Two documents in which the slots of an annotation are the same give it the same extent. -/
theorem alignedInterval?_congr {note : Note}
    (h : ∀ start stop, note.anchor = .aligned start stop →
      grown.slot? start = document.slot? start ∧ grown.slot? stop = document.slot? stop) :
    grown.alignedInterval? note = document.alignedInterval? note := by
  unfold alignedInterval? endpoints? Note.slotRefs?
  cases hanchor : note.anchor with
  | aligned start stop => simp [h start stop hanchor]
  | refers target => rfl

/-- A slot that was found is found again. -/
theorem GrowsBy.slot?_eq_some (h : document.GrowsBy grown minted) {slot : TimeSlot}
    (hslot : document.slot? id = some slot) : grown.slot? id = some slot := by
  rw [h.slotKept id fun hmem => by simp [(h.slotMinted id hmem).1] at hslot, hslot]

/-- An annotation that was found is found again. -/
theorem GrowsBy.note?_eq_some (h : document.GrowsBy grown minted) {note : Note}
    (hnote : document.note? id = some note) : grown.note? id = some note := by
  rw [h.noteKept id fun hmem => by simp [(h.noteMinted id hmem).1] at hnote, hnote]

/-- An extent that was found is found again. -/
theorem GrowsBy.interval?_eq_some (h : document.GrowsBy grown minted) {extent : Int64 × Int64}
    (hextent : document.interval? id = some extent) : grown.interval? id = some extent :=
  interval?_eq_some_of_mono (fun _ _ => h.slot?_eq_some) (fun _ _ => h.note?_eq_some) hextent

/-- The extent of an annotation that is not captured is unchanged, found or not. -/
theorem GrowsBy.interval?_eq (h : document.GrowsBy grown minted)
    (hfree : ¬ document.Captured minted id) : grown.interval? id = document.interval? id := by
  cases hextent : document.interval? id with
  | some extent => exact h.interval?_eq_some hextent
  | none =>
    refine Option.eq_none_iff_forall_ne_some.2 fun extent hgrown => ?_
    obtain ⟨links, last, note, hfollows, hnote, haligned⟩ := interval?_eq_some_iff.1 hgrown
    have hfollows' : document.Follows links id last := hfollows.congr h.next.symm
    have hlast : last ∉ minted.notes := fun hmem => hfree ⟨links, last, hfollows', Or.inl hmem⟩
    rw [h.noteKept last hlast] at hnote
    have hsame : grown.alignedInterval? note = document.alignedInterval? note := by
      refine alignedInterval?_congr fun start stop hanchor => ?_
      have hkept (ref : String) (href : ref = start ∨ ref = stop) :
          grown.slot? ref = document.slot? ref := by
        refine h.slotKept ref fun hmem => hfree ⟨links, last, hfollows', Or.inr ?_⟩
        refine ⟨note, start, stop, hnote, hanchor, ?_⟩
        rcases href with rfl | rfl
        · exact Or.inl hmem
        · exact Or.inr hmem
      exact ⟨hkept start (Or.inl rfl), hkept stop (Or.inr rfl)⟩
    rw [hsame] at haligned
    simp [interval?_eq_some_iff.2 ⟨links, last, note, hfollows', hnote, haligned⟩] at hextent

/-! ### A new tier -/

theorem note?_eq_find? (document : Document) (id : String) :
    document.note? id = document.notes.find? (·.id == id) := by
  rw [note?, located?, notes, List.find?_flatMap, List.map_findSome?]
  refine congrArg (List.findSome? · document.tiers) (funext fun tier => ?_)
  simp [Tier.find?, Function.comp_def]

theorem tier?_eq_none_iff : document.tier? id = none ↔ document.hasTier id = false := by
  simp [tier?, hasTier]

theorem tier?_isSome_iff : (document.tier? id).isSome = true ↔ id ∈ document.tierIds := by
  simp [tier?, tierIds]

theorem note?_eq_none_iff : document.note? id = none ↔ document.hasNote id = false := by
  rw [note?_eq_find?]
  simp [notes, hasNote]

/-- Among annotations one more with a new id is found under its id, and the others as before. -/
theorem find?_insert_note {before rest : List Note} {note : Note}
    (hfree : (before ++ rest).find? (·.id == note.id) = none) (id : String) :
    (before ++ note :: rest).find? (·.id == id) =
      if id = note.id then some note else (before ++ rest).find? (·.id == id) := by
  simp only [List.find?_append, Option.or_eq_none_iff] at hfree ⊢
  by_cases hid : id = note.id
  · rw [if_pos hid, hid, hfree.1, Option.none_or, List.find?_cons_of_pos (by simp)]
  · have hne : (note.id == id) = false := by simpa using Ne.symm hid
    simp only [if_neg hid, List.find?_cons, hne]

theorem createTier_growsBy {linguisticType locale : String}
    (h : document.createTier linguisticType locale = .ok created) :
    document.GrowsBy created.document { tiers := [created.id] } := by
  obtain ⟨-, hfree, counters, hdocument⟩ := createTier_ok h
  have htier (id : String) : created.document.tier? id =
      (document.tier? id).or
        (if created.id = id then
          some { id := created.id, linguisticType, locale := some locale } else none) := by
    by_cases hid : created.id = id <;>
      simp [hdocument, tier?, List.find?_append, hid]
  have hnote : created.document.note? = document.note? := by
    funext id
    rw [note?_eq_find?, note?_eq_find?]
    simp [hdocument, notes]
  refine ⟨?_, by simp, by simp, ?_, fun id _ => by rw [hnote], fun id _ => by rw [hdocument]; rfl,
    by funext id; rw [next?, next?, hnote]⟩
  · rintro id hid
    obtain rfl := List.mem_singleton.1 hid
    exact ⟨tier?_eq_none_iff.2 hfree, by simp [htier]⟩
  · intro id hid
    have hne : created.id ≠ id := fun heq => hid (by simp [heq])
    simp [htier, hne]

/-! ### A new annotation -/

/-- The slot for a time is there already, or it is the one new slot. -/
theorem slotForTime_slot? {value : Int64} (h : document.timeline.Faithful)
    (hcreate : document.slotForTime value = .ok created) :
    created.document.slot? created.id = some { id := created.id, value } ∧
      ∃ slots : List String,
        (∀ ref ∈ slots, document.slot? ref = none ∧ (created.document.slot? ref).isSome) ∧
        ∀ ref ∉ slots, created.document.slot? ref = document.slot? ref := by
  obtain ⟨hdocument, hmem⟩ | ⟨-, hfree, timeline, counters, hinsert, hdocument⟩ :=
    slotForTime_ok hcreate
  · rw [hdocument]
    exact ⟨h.find?_eq_some_iff.2 ⟨hmem, rfl⟩, [], by simp, fun _ _ => rfl⟩
  · have hslot (ref : String) : created.document.slot? ref =
        if ref = created.id then some { id := created.id, value } else document.slot? ref := by
      rw [hdocument]
      exact h.find?_insert? hinsert ref
    refine ⟨by simp [hslot], [created.id], ?_, ?_⟩
    · intro ref href
      obtain rfl := List.mem_singleton.1 href
      exact ⟨h.find?_eq_none_iff.2 hfree, by simp [hslot]⟩
    · intro ref href
      have hne : ref ≠ created.id := fun heq => href (by simp [heq])
      rw [hslot, if_neg hne]

/-- Two growths of the timeline one after the other are one. -/
theorem slots_trans {middle : Document} {slots more : List String}
    (hslots : ∀ ref ∈ slots, document.slot? ref = none ∧ (middle.slot? ref).isSome)
    (hkept : ∀ ref ∉ slots, middle.slot? ref = document.slot? ref)
    (hmore : ∀ ref ∈ more, middle.slot? ref = none ∧ (grown.slot? ref).isSome)
    (hkept' : ∀ ref ∉ more, grown.slot? ref = middle.slot? ref) :
    (∀ ref ∈ slots ++ more, document.slot? ref = none ∧ (grown.slot? ref).isSome) ∧
      ∀ ref ∉ slots ++ more, grown.slot? ref = document.slot? ref := by
  constructor
  · intro ref href
    rcases List.mem_append.1 href with href | href
    · have hnot : ref ∉ more := by
        intro hmem
        have := (hslots ref href).2
        simp [(hmore ref hmem).1] at this
      rw [hkept' ref hnot]
      exact hslots ref href
    · have hnot : ref ∉ slots := by
        intro hmem
        have := (hslots ref hmem).2
        simp [(hmore ref href).1] at this
      rw [← hkept ref hnot]
      exact hmore ref href
  · intro ref href
    rw [List.mem_append, not_or] at href
    rw [hkept' ref href.2, hkept ref href.1]

/-- Among the annotations the new one stands somewhere, and no other has its id. -/
theorem createNote_note? {tierId value : String} {start stop : Int64}
    (hcreate : document.createNote tierId value start stop = .ok created) :
    ∃ first last : Created, document.slotForTime start = .ok first ∧
      first.document.slotForTime stop = .ok last ∧
      created.document.slot? = last.document.slot? ∧ document.note? created.id = none ∧
      ∀ id, created.document.note? id =
        if id = created.id then
          some { id := created.id, value, anchor := .aligned first.id last.id }
        else document.note? id := by
  obtain ⟨first, last, hfirst, hlast, htimeline, hfree, before, rest, hold, hnew⟩ :=
    createNote_notes hcreate
  have hslot : created.document.slot? = last.document.slot? := by
    funext ref
    rw [slot?, slot?, htimeline]
  have hnone := note?_eq_none_iff.2 hfree
  refine ⟨first, last, hfirst, hlast, hslot, hnone, fun id => ?_⟩
  rw [note?_eq_find?, hold] at hnone
  rw [note?_eq_find?, note?_eq_find?, hold, hnew]
  exact find?_insert_note hnone id

theorem createNote_growsBy {tierId value : String} {start stop : Int64}
    (h : document.timeline.Faithful)
    (hcreate : document.createNote tierId value start stop = .ok created) :
    ∃ slots, document.GrowsBy created.document { notes := [created.id], slots } := by
  obtain ⟨first, last, hfirst, hlast, hslot, hnone, hnote⟩ := createNote_note? hcreate
  obtain ⟨-, slots, hslots, hkept⟩ := slotForTime_slot? h hfirst
  obtain ⟨-, more, hmore, hkept'⟩ := slotForTime_slot? (slotForTime_faithful h hfirst) hlast
  obtain ⟨hminted, hsame⟩ := slots_trans hslots hkept hmore hkept'
  have htier (id : String) : (created.document.tier? id).isSome = (document.tier? id).isSome := by
    rw [Bool.eq_iff_iff, tier?_isSome_iff, tier?_isSome_iff, createNote_tierIds hcreate]
  refine ⟨slots ++ more, by simp, ?_, by rwa [hslot], fun id _ => htier id, ?_, by rwa [hslot], ?_⟩
  · intro id hid
    obtain rfl := List.mem_singleton.1 hid
    exact ⟨hnone, by simp [hnote]⟩
  · intro id hid
    have hne : id ≠ created.id := fun heq => hid (by simp [heq])
    rw [hnote, if_neg hne]
  · funext id
    rw [next?, next?, hnote]
    split
    next heq =>
      rw [heq, hnone]
      rfl
    next => rfl

/-- A new annotation extends between the two times that were asked for. -/
theorem createNote_interval? {tierId value : String} {start stop : Int64}
    (h : document.timeline.Faithful)
    (hcreate : document.createNote tierId value start stop = .ok created) :
    created.document.interval? created.id = some (start, stop) := by
  obtain ⟨first, last, hfirst, hlast, hslot, -, hnote⟩ := createNote_note? hcreate
  obtain ⟨hstart, -⟩ := slotForTime_slot? h hfirst
  obtain ⟨hstop, more, hmore, hkept⟩ := slotForTime_slot? (slotForTime_faithful h hfirst) hlast
  have hold : first.id ∉ more := fun hmem => by simp [(hmore _ hmem).1] at hstart
  refine interval?_eq_some_iff.2 ⟨0, created.id, _, .here _, by rw [hnote, if_pos rfl], ?_⟩
  simp [alignedInterval?, endpoints?, Note.slotRefs?, hslot, hkept _ hold, hstart, hstop]

/-- A new annotation stands among the others, between slots at the two times that were asked
for. -/
theorem createNote_alignedInterval? {tierId value : String} {start stop : Int64}
    (h : document.timeline.Faithful)
    (hcreate : document.createNote tierId value start stop = .ok created) :
    ∃ note before rest, note.id = created.id ∧
      created.document.alignedInterval? note = some (start, stop) ∧
      document.notes = before ++ rest ∧ created.document.notes = before ++ note :: rest := by
  obtain ⟨first, last, -, -, -, hfree, before, rest, hold, hgrown⟩ := createNote_notes hcreate
  let note : Note := { id := created.id, value, anchor := .aligned first.id last.id }
  rw [← note?_eq_none_iff, note?_eq_find?, hold] at hfree
  have hfound : created.document.note? created.id = some note := by
    rw [note?_eq_find?, hgrown]
    exact (find?_insert_note hfree created.id).trans (if_pos rfl)
  have hextent := createNote_interval? h hcreate
  rw [interval?_of_target?_eq_none hfound rfl] at hextent
  exact ⟨note, before, rest, rfl, hextent, hold, hgrown⟩

/-! ### What every creation does -/

/-- **Every reference resolves after a creation as before, but for a dangling one that spells an id
that the creation took.** A new tier takes one id and changes the extent of no annotation. A new
annotation takes an id and the ids of some slots, all of them free. Every extent that was found is
found again; one that was not is still not found, unless the chain of the annotation comes to a
reference that spells a taken id; and a chain that dangled at the id of the new annotation has the
extent of the new annotation. -/
theorem resolution_of_growth (h : document.Reachable) :
    (∀ linguisticType locale created, document.createTier linguisticType locale = .ok created →
      document.GrowsBy created.document { tiers := [created.id] } ∧
        ∀ id, created.document.interval? id = document.interval? id) ∧
    ∀ tierId value start stop created,
      document.createNote tierId value start stop = .ok created →
      ∃ slots, document.GrowsBy created.document { notes := [created.id], slots } ∧
        (∀ id extent, document.interval? id = some extent →
          created.document.interval? id = some extent) ∧
        (∀ id, ¬ document.Captured { notes := [created.id], slots } id →
          created.document.interval? id = document.interval? id) ∧
        ∀ id links, document.Follows links id created.id →
          created.document.interval? id = some (start, stop) := by
  refine ⟨fun linguisticType locale created hcreate => ?_,
    fun tierId value start stop created hcreate => ?_⟩
  · have hgrows := createTier_growsBy hcreate
    exact ⟨hgrows, fun id => hgrows.interval?_eq (by simp [Captured])⟩
  · obtain ⟨slots, hgrows⟩ := createNote_growsBy h.faithful hcreate
    refine ⟨slots, hgrows, fun _ _ => hgrows.interval?_eq_some, fun _ => hgrows.interval?_eq, ?_⟩
    intro id links hfollows
    rw [(hfollows.congr hgrows.next).interval?_eq, createNote_interval? h.faithful hcreate]

/-- A second annotation behind a first one on the same tier, which keeps its extent. -/
theorem resolution_of_growth_second_note :
    let document := empty.run [.createTier "text" "en", .createNote "tier0" "word" 0 100]
    document.Reachable ∧ ∃ created, document.createNote "tier0" "next" 100 200 = .ok created ∧
      document.interval? "an0" = some (0, 100) ∧
      created.document.interval? "an0" = some (0, 100) := by
  intro document
  have hreachable : document.Reachable := ⟨_, rfl⟩
  obtain ⟨created, hcreate⟩ : ∃ created, document.createNote "tier0" "next" 100 200 = .ok created :=
    exists_ok_of_isOk (by decide +kernel)
  have hextent : document.interval? "an0" = some (0, 100) := by decide +kernel
  obtain ⟨_, -, hfound, -⟩ := (resolution_of_growth hreachable).2 _ _ _ _ created hcreate
  exact ⟨hreachable, created, hcreate, hextent, hfound _ _ hextent⟩

/-! ### References that do not stay as they were -/

/-- A file with three dangling references: its tier has no parent, one of its annotations stands at
a slot without a time, and the other refers to an annotation that is not there. -/
def danglingFile : Xml.Node :=
  Outline.root
    { slots := [("ts0", none)]
      tiers := [tierElement "words" (some "tier0")
        [alignedElement "a" "ts0" "ts0" none, referringElement "r" (some "an0")]] }

/-- **Dangling references are captured.** After a file is read, a new tier becomes the parent that
a tier named in vain, a new annotation becomes the target that another named in vain, and a new
slot gives a time to an annotation that had none. -/
theorem dangling_references_are_captured :
    let document := empty.run [.readTree {} danglingFile]
    let tiered := document.after (.createTier "text" defaultLocale)
    let noted := tiered.after (.createNote "words" "new" 100 200)
    (document.tier? "tier0" = none ∧ (tiered.tier? "tier0").isSome) ∧
      (tiered.note? "an0" = none ∧ (noted.note? "an0").isSome) ∧
      (tiered.interval? "r" = none ∧ noted.interval? "r" = some (100, 200)) ∧
      tiered.interval? "a" = none ∧ noted.interval? "a" = some (100, 100) := by
  decide +kernel

end Document

end Eaf

import Mathlib.Data.List.Perm.Subperm
import Mathlib.Data.List.Nodup
import Eaf.Document.Interval

/-!
# Chains of references

An annotation that refers to another begins a chain: each link is the look-up of the annotation
with the id that the last one names. The extent of an annotation is that of the aligned annotation
at the end of its chain. A chain that ends visits no id twice, so that it has fewer links than the
document has annotations, and the bounded walk of the document follows it to its end. A document
whose look-ups find what they find in another one has the extents of the other.

## Main definitions

* `Eaf.Document.next?` — the id that the annotation with an id refers to.
* `Eaf.Document.Follows` — a number of links leads from one id to another.

## Main results

* `Eaf.Document.Follows.lt_length` — a chain to an aligned annotation is short.
* `Eaf.Document.interval?_eq_some_iff` — the extent is that at the end of the chain.
* `Eaf.Document.endpoints?_eq_some_iff` — the two slots of an aligned annotation.
* `Eaf.Document.interval?_eq_some_of_mono` — extents where look-ups find what they found.
-/

namespace Eaf.Document

/-- The id that the annotation with a given id refers to. -/
def next? (document : Document) (id : String) : Option String :=
  (document.note? id).bind Note.target?

/-- A number of links leads from one id to another. -/
inductive Follows (document : Document) : Nat → String → String → Prop
  /-- No link leads from an id to itself. -/
  | here (id : String) : Follows document 0 id id
  /-- The annotation with the first id refers to an id from which the others lead on. -/
  | link {links : Nat} {id target last : String} (hnext : document.next? id = some target)
      (hrest : Follows document links target last) : Follows document (links + 1) id last

variable {document : Document} {links more : Nat} {id last other : String}

theorem next?_eq_target? {note : Note} (h : document.note? id = some note) :
    document.next? id = note.target? := by
  rw [next?, h, Option.bind_some]

/-- Chains that end are determined by their beginning. -/
theorem Follows.end_unique (h : document.Follows links id last)
    (hother : document.Follows more id other) (hlast : document.next? last = none)
    (hend : document.next? other = none) : links = more ∧ last = other := by
  induction h generalizing more with
  | here id =>
    cases hother with
    | here => exact ⟨rfl, rfl⟩
    | link hnext => simp [hlast] at hnext
  | link hnext hrest ih =>
    cases hother with
    | here => simp [hend] at hnext
    | link hnext' hrest' =>
      obtain rfl := Option.some.inj (hnext.symm.trans hnext')
      obtain ⟨rfl, rfl⟩ := ih hrest' hlast
      exact ⟨rfl, rfl⟩

/-- The ids on a chain that ends at an annotation: there is one more than there are links, none
occurs twice, each is the id of an annotation, and from each the end is not farther away. -/
theorem Follows.path (h : document.Follows links id last) (hlast : document.next? last = none)
    (hnote : (document.note? last).isSome) :
    ∃ path : List String, path.length = links + 1 ∧ path.Nodup ∧
      (∀ step ∈ path, (document.note? step).isSome) ∧
      ∀ step ∈ path, ∃ left ≤ links, document.Follows left step last := by
  induction h with
  | here id =>
    exact ⟨[id], rfl, List.nodup_singleton id, by simpa using hnote, by simp [Follows.here]⟩
  | @link links id target last hnext hrest ih =>
    obtain ⟨path, hlength, hnodup, hsome, hfollows⟩ := ih hlast hnote
    refine ⟨id :: path, by rw [List.length_cons, hlength],
      List.nodup_cons.2 ⟨fun hmem => ?_, hnodup⟩,
      List.forall_mem_cons.2 ⟨?_, hsome⟩, List.forall_mem_cons.2 ⟨?_, ?_⟩⟩
    -- An id that is met again would be at two distances from the end.
    · obtain ⟨left, hle, hleft⟩ := hfollows id hmem
      have := (hleft.end_unique (.link hnext hrest) hlast hlast).1
      omega
    · obtain ⟨note, hfound, -⟩ := Option.bind_eq_some_iff.1 hnext
      rw [hfound]
      rfl
    · exact ⟨links + 1, Nat.le_refl _, .link hnext hrest⟩
    · intro step hstep
      obtain ⟨left, hle, hleft⟩ := hfollows step hstep
      exact ⟨left, by omega, hleft⟩

theorem note?_eq_some {note : Note} (h : document.note? id = some note) :
    note ∈ document.notes ∧ note.id = id := by
  obtain ⟨⟨tier, found⟩, hlocated, rfl⟩ := Option.map_eq_some_iff.1 h
  obtain ⟨tier', htier, hfind⟩ := List.exists_of_findSome?_eq_some hlocated
  obtain ⟨_, hfound, heq⟩ := Option.map_eq_some_iff.1 hfind
  obtain ⟨rfl, rfl⟩ := Prod.mk.inj heq
  refine ⟨List.mem_flatMap.2 ⟨tier', htier, List.mem_of_find?_eq_some hfound⟩, ?_⟩
  simpa using List.find?_some hfound

/-- A chain that ends at an annotation has fewer links than the document has annotations. -/
theorem Follows.lt_length (h : document.Follows links id last)
    (hlast : document.next? last = none) (hnote : (document.note? last).isSome) :
    links < document.notes.length := by
  obtain ⟨path, hlength, hnodup, hsome, -⟩ := h.path hlast hnote
  have hsubset : path ⊆ document.notes.map (·.id) := by
    intro step hstep
    obtain ⟨note, hfound⟩ := Option.isSome_iff_exists.1 (hsome step hstep)
    obtain ⟨hmem, rfl⟩ := note?_eq_some hfound
    exact List.mem_map_of_mem hmem
  have hle := (List.subperm_of_subset hnodup hsubset).length_le
  rw [List.length_map] at hle
  omega

/-! ### Extents -/

/-- An annotation with an extent of its own is aligned. -/
theorem target?_of_alignedInterval? {note : Note} {extent : Int64 × Int64}
    (h : document.alignedInterval? note = some extent) : note.target? = none := by
  obtain ⟨_, hendpoints, -⟩ := Option.map_eq_some_iff.1 h
  unfold endpoints? Note.slotRefs? at hendpoints
  unfold Note.target?
  split at hendpoints
  · cases hendpoints
  next hrefs => cases hanchor : note.anchor <;> simp_all

/-- A bounded walk finds an extent exactly if it is at the end of a chain within the bound. -/
theorem intervalWithin?_eq_some_iff {bound : Nat} {extent : Int64 × Int64} :
    document.intervalWithin? bound id = some extent ↔
      ∃ links < bound, ∃ last note, document.Follows links id last ∧
        document.note? last = some note ∧ document.alignedInterval? note = some extent := by
  induction bound generalizing id with
  | zero => simp [intervalWithin?]
  | succ bound ih =>
    rw [intervalWithin?]
    constructor
    · intro h
      split at h
      · cases h
      next note hnote =>
        split at h
        · exact ⟨0, Nat.succ_pos bound, id, note, .here id, hnote, h⟩
        next target hanchor =>
          obtain ⟨links, hlt, last, note', hfollows, hrest⟩ := ih.1 h
          have hnext : document.next? id = some target := by
            simp [next?, hnote, Note.target?, hanchor]
          exact ⟨links + 1, Nat.succ_lt_succ hlt, last, note', .link hnext hfollows, hrest⟩
    · rintro ⟨links, hlt, last, note, hfollows, hnote, hextent⟩
      cases hfollows with
      | here =>
        have htarget := target?_of_alignedInterval? hextent
        cases hanchor : note.anchor with
        | aligned start stop => simpa only [hnote, hanchor] using hextent
        | refers target => simp [Note.target?, hanchor] at htarget
      | @link links _ target _ hnext hrest =>
        obtain ⟨first, hfirst, htarget⟩ := Option.bind_eq_some_iff.1 hnext
        cases hanchor : first.anchor with
        | aligned start stop => simp [Note.target?, hanchor] at htarget
        | refers named =>
          obtain rfl : named = target := by simpa [Note.target?, hanchor] using htarget
          simp only [hfirst, hanchor]
          exact ih.2 ⟨links, Nat.lt_of_succ_lt_succ hlt, last, note, hrest, hnote, hextent⟩

/-- The extent of an annotation is that of the aligned annotation at the end of its chain. -/
theorem interval?_eq_some_iff {extent : Int64 × Int64} :
    document.interval? id = some extent ↔
      ∃ links last note, document.Follows links id last ∧
        document.note? last = some note ∧ document.alignedInterval? note = some extent := by
  rw [interval?, intervalWithin?_eq_some_iff]
  constructor
  · rintro ⟨links, -, last, note, h⟩
    exact ⟨links, last, note, h⟩
  · rintro ⟨links, last, note, hfollows, hnote, hextent⟩
    have hlast : document.next? last = none := by
      simp [next?, hnote, target?_of_alignedInterval? hextent]
    exact ⟨links, hfollows.lt_length hlast (by simp [hnote]), last, note, hfollows, hnote, hextent⟩

/-- The extent of an annotation that refers to none is its own. -/
theorem interval?_of_target?_eq_none {note : Note} (hnote : document.note? id = some note)
    (htarget : note.target? = none) : document.interval? id = document.alignedInterval? note := by
  have hend : document.next? id = none := (next?_eq_target? hnote).trans htarget
  refine Option.ext fun extent => ?_
  rw [interval?_eq_some_iff]
  constructor
  · rintro ⟨links, last, found, hfollows, hfound, hextent⟩
    cases hfollows with
    | here =>
      obtain rfl := Option.some.inj (hnote.symm.trans hfound)
      exact hextent
    | link hnext _ => simp [hend] at hnext
  · exact fun hextent => ⟨0, id, note, .here id, hnote, hextent⟩

/-- An id that no annotation has leads to no extent. -/
theorem interval?_of_note?_eq_none (h : document.note? id = none) :
    document.interval? id = none := by
  refine Option.eq_none_iff_forall_ne_some.2 fun extent hextent => ?_
  obtain ⟨links, last, note, hfollows, hnote, -⟩ := interval?_eq_some_iff.1 hextent
  cases hfollows with
  | here => simp [h] at hnote
  | link hnext _ => simp [next?, h] at hnext

/-- All annotations on a chain have the extent that its end has. -/
theorem Follows.interval?_eq (h : document.Follows links id last) :
    document.interval? id = document.interval? last := by
  induction h with
  | here => rfl
  | @link links id target last hnext hrest ih =>
    rw [← ih]
    refine Option.ext fun extent => ?_
    rw [interval?_eq_some_iff, interval?_eq_some_iff]
    constructor
    · rintro ⟨links', last', note, hfollows, hnote, hextent⟩
      cases hfollows with
      | here =>
        simp [next?, hnote, target?_of_alignedInterval? hextent] at hnext
      | link hnext' hrest' =>
        obtain rfl := Option.some.inj (hnext.symm.trans hnext')
        exact ⟨_, last', note, hrest', hnote, hextent⟩
    · rintro ⟨links', last', note, hfollows, h⟩
      exact ⟨links' + 1, last', note, .link hnext hfollows, h⟩

/-! ### Slots of an annotation -/

theorem endpoints?_eq_some_iff {note : Note} {first last : TimeSlot} :
    document.endpoints? note = some (first, last) ↔
      ∃ start stop, note.anchor = .aligned start stop ∧ document.slot? start = some first ∧
        document.slot? stop = some last := by
  unfold endpoints? Note.slotRefs?
  cases hanchor : note.anchor with
  | refers target => simp
  | aligned start stop =>
    cases hstart : document.slot? start <;> cases hstop : document.slot? stop <;>
      simp [hstart, hstop]

/-! ### Look-ups that find what they found -/

section Mono

variable {grown : Document}
  (hslots : ∀ id slot, document.slot? id = some slot → grown.slot? id = some slot)
  (hnotes : ∀ id note, document.note? id = some note → grown.note? id = some note)

include hslots in
/-- Where slots that are found are found again, an annotation has its two slots again. -/
theorem endpoints?_eq_some_of_mono {note : Note} {ends : TimeSlot × TimeSlot}
    (h : document.endpoints? note = some ends) : grown.endpoints? note = some ends := by
  obtain ⟨first, last⟩ := ends
  obtain ⟨start, stop, hanchor, hfirst, hlast⟩ := endpoints?_eq_some_iff.1 h
  exact endpoints?_eq_some_iff.2 ⟨start, stop, hanchor, hslots _ _ hfirst, hslots _ _ hlast⟩

include hnotes in
/-- Where annotations that are found are found again, a chain of references leads where it led. -/
theorem Follows.mono (h : document.Follows links id last) : grown.Follows links id last := by
  induction h with
  | here id => exact .here id
  | link hnext _ ih =>
    obtain ⟨note, hnote, htarget⟩ := Option.bind_eq_some_iff.1 hnext
    exact .link ((next?_eq_target? (hnotes _ _ hnote)).trans htarget) ih

include hslots hnotes in
/-- Where slots and annotations that are found are found again, so are extents. -/
theorem interval?_eq_some_of_mono {extent : Int64 × Int64}
    (h : document.interval? id = some extent) : grown.interval? id = some extent := by
  obtain ⟨links, last, note, hfollows, hnote, haligned⟩ := interval?_eq_some_iff.1 h
  obtain ⟨ends, hends, rfl⟩ := Option.map_eq_some_iff.1 haligned
  refine interval?_eq_some_iff.2 ⟨links, last, note, hfollows.mono hnotes, hnotes _ _ hnote, ?_⟩
  exact Option.map_eq_some_iff.2 ⟨ends, endpoints?_eq_some_of_mono hslots hends, rfl⟩

end Mono

end Eaf.Document

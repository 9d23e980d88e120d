import Mathlib.Data.Finset.Card
import Mathlib.Data.Finset.SDiff
import Eaf.Proofs.Counting
import Eaf.Proofs.Extension

/-!
# New annotations are as they were asked for

A new annotation comes to stand at the end of the first tier of the id that was named, and it is the
one that its id leads to, whatever ids other tiers and annotations have. Its slots are found by
their times or made for them, so that exactly the times that no slot held are added, each once, also
if the annotation ends where it starts or before.

## Main results

* `Eaf.Document.createNote_size` — by how much a new annotation makes the timeline grow.
* `Eaf.Document.createNote_located?` — where a new annotation stands and is found.
* `Eaf.Document.createNote_delivers` — a new annotation is as it was asked for, and nothing else
  changes.
-/

namespace Eaf.Document

variable {document : Document} {created : Created} {tierId value : String} {start stop : Int64}

/-! ### Slots -/

/-- The number of slots grows by the number of times that no slot held. -/
theorem createNote_size (hcreate : document.createNote tierId value start stop = .ok created) :
    created.document.timeline.size = document.timeline.size +
      (({start, stop} : Finset Int64) \ document.timeline.times.toFinset).card := by
  obtain ⟨added, htimeline, htimes⟩ := createNote_times hcreate
  have hset : ({start, stop} : Finset Int64) \ document.timeline.times.toFinset =
      (added.map (·.value)).toFinset := by
    ext time
    simp [htimes]
  have hnodup : (added.map (·.value)).Nodup := htimes ▸ (List.nodup_dedup _).filter _
  rw [Timeline.size_of_append htimeline, hset, List.toFinset_card_of_nodup hnodup, List.length_map]

/-! ### Places -/

/-- On no tier there is an annotation with an id that no annotation has. -/
theorem find?_eq_none_of_hasNote {id : String} {tier : Tier} (h : document.hasNote id = false)
    (htier : tier ∈ document.tiers) : tier.find? id = none := by
  have hnotes := List.any_eq_false.1 h tier htier
  exact List.find?_eq_none.2 fun note hnote heq =>
    hnotes (List.any_eq_true.2 ⟨note, hnote, heq⟩)

/-- A new annotation stands at the end of the first tier of the id, and its id leads to it. -/
theorem createNote_located?
    (hcreate : document.createNote tierId value start stop = .ok created) :
    ∃ note before tier rest, note.id = created.id ∧ note.value = value ∧ note.isAligned ∧
      document.tiers = before ++ tier :: rest ∧ tier.id = tierId ∧
      (∀ other ∈ before, other.id ≠ tierId) ∧
      created.document.tiers = before ++ tier.append note :: rest ∧
      created.document.located? created.id = some (tier.append note, note) := by
  obtain ⟨first, last, -, -, -, hfree, before, tier, rest, counters, hsplit, hid, hbefore,
    hdocument⟩ := createNote_ok hcreate
  let note : Note := { id := created.id, value, anchor := .aligned first.id last.id }
  have htiers : created.document.tiers = before ++ tier.append note :: rest := by rw [hdocument]
  refine ⟨note, before, tier, rest, rfl, rfl, rfl, hsplit, hid, hbefore, htiers, ?_⟩
  -- No annotation in front of the new one has its id.
  have hfront : before.findSome? (fun other => (other.find? created.id).map (other, ·)) = none :=
    List.findSome?_eq_none_iff.2 fun other hother => by
      rw [find?_eq_none_of_hasNote hfree (by simp [hsplit, hother]), Option.map_none]
  have hfound : (tier.append note).find? created.id = some note := by
    have hold : tier.notes.find? (·.id == created.id) = none :=
      find?_eq_none_of_hasNote hfree (by simp [hsplit])
    rw [Tier.find?, Tier.append, List.find?_append, hold]
    simp [note]
  rw [located?, htiers, List.findSome?_append, hfront, Option.none_or, List.findSome?_cons, hfound,
    Option.map_some]

/-! ### New annotations -/

/-- **A new annotation is as it was asked for, and nothing else changes.** On every tier of a
reachable document an annotation is made between any two times, whether or not the second one is
later. It stands at the end of the first tier of the id, its id leads to it, and it extends from the
one time to the other. Slots are added behind the others, one for each of the two times that no slot
held. All other tiers, the annotations in front of it, the media and the counter of tiers stay as
they were. -/
theorem createNote_delivers (h : document.Reachable) (hnotes : document.notes.length < 2 ^ 63)
    (hslots : document.timeline.size < 2 ^ 63) (htier : document.hasTier tierId = true)
    (value : String) (start stop : Int64) :
    ∃ created note before tier rest added,
      document.createNote tierId value start stop = .ok created ∧
      created.document.interval? created.id = some (start, stop) ∧
      created.document.located? created.id = some (tier.append note, note) ∧
      note.id = created.id ∧ note.value = value ∧ note.isAligned ∧
      document.tiers = before ++ tier :: rest ∧ tier.id = tierId ∧
      (∀ other ∈ before, other.id ≠ tierId) ∧
      created.document.tiers = before ++ tier.append note :: rest ∧
      created.document.timeline.toList = document.timeline.toList ++ added ∧
      added.map (·.value) = [start, stop].dedup.filter (· ∉ document.timeline.times) ∧
      created.document.timeline.size = document.timeline.size +
        (({start, stop} : Finset Int64) \ document.timeline.times.toFinset).card ∧
      created.document.media = document.media ∧
      created.document.counters.tier = document.counters.tier := by
  have hsize : 2 ^ 63 < UInt64.size := by decide
  have hfew : document.notes.length < UInt64.size := Nat.lt_trans hnotes hsize
  have hroom : document.timeline.size + 1 < UInt64.size := Nat.lt_of_le_of_lt hslots hsize
  obtain ⟨created, hcreate⟩ := exists_createNote h.faithful hfew hroom htier value start stop
  obtain ⟨note, before, tier, rest, hid, hvalue, haligned, hsplit, hfirst, hbefore, htiers,
    hlocated⟩ := createNote_located? hcreate
  obtain ⟨added, htimeline, htimes⟩ := createNote_times hcreate
  exact ⟨created, note, before, tier, rest, added, hcreate,
    createNote_interval? h.faithful hcreate, hlocated, hid, hvalue, haligned, hsplit, hfirst,
    hbefore, htiers, htimeline, htimes, createNote_size hcreate, createNote_media hcreate,
    createNote_tier hcreate⟩

/-- Two tiers share an id, the counters are behind the ids of a slot and of an annotation that were
read, and another annotation refers to the id that is free: an annotation that ends where there is a
slot and begins later stands on the first of the tiers, and one slot is made for it. -/
theorem createNote_delivers_inverted :
    let document := empty.run
      [ .readTree { resyncCounters := false } collidingFile, .createTier "text" "en",
        .editTier "tier0" fun tier => { tier with id := "words" } ]
    document.Reachable ∧ document.notes.length < 2 ^ 63 ∧ document.timeline.size < 2 ^ 63 ∧
      document.hasTier "words" = true ∧ document.tierIds = ["tier1", "words", "words"] ∧
      document.timeline.toList = [{ id := "ts0", value := 9000 }] ∧
      ∃ created note tier, document.createNote "words" "back" 9500 9000 = .ok created ∧
        created.document.interval? created.id = some (9500, 9000) ∧
        created.document.located? created.id = some (Tier.append tier note, note) ∧
        note.id = created.id ∧ tier.id = "words" ∧ created.document.timeline.size = 2 := by
  intro document
  have hreachable : document.Reachable := ⟨_, rfl⟩
  have hnotes : document.notes.length < 2 ^ 63 := by decide +kernel
  have hslots : document.timeline.size < 2 ^ 63 := by decide +kernel
  have htier : document.hasTier "words" = true := by decide +kernel
  have htimeline : document.timeline.toList = [{ id := "ts0", value := 9000 }] := by decide +kernel
  obtain ⟨created, note, _, tier, _, _, hcreate, hextent, hlocated, hid, -, -, -, htierId, -, -, -,
    -, hsize, -⟩ := createNote_delivers hreachable hnotes hslots htier "back" 9500 9000
  have hgrowth : document.timeline.size +
      (({9500, 9000} : Finset Int64) \ document.timeline.times.toFinset).card = 2 := by
    decide +kernel
  exact ⟨hreachable, hnotes, hslots, htier, by decide +kernel, htimeline, created, note, tier,
    hcreate, hextent, hlocated, hid, htierId, hsize.trans hgrowth⟩

end Eaf.Document

import Eaf.Proofs.Counting
import Eaf.Proofs.Elements
import Eaf.Proofs.Readable

/-!
# Annotation ids in histories

A document has a history: it is worked on, and now and then it is saved, and what is read of its
file takes its place. The file records the counter of annotation ids, so that the counter does not
fall there, and work does not move it back unless it starts over. So the numbers of new annotations
increase through the history, and no id is given twice: not for an annotation that was removed, nor
for one that was left out of the file.

## Main definitions

* `Eaf.Stage` — one stage of a history: an act of work, or saving and opening again.
* `Eaf.Document.reopened` — a document that is saved and opened again.
* `Eaf.Document.newNotes` — the new annotations of a history.

## Main results

* `Eaf.Document.note_le_reopened` — the counter of annotation ids survives saving and opening.
* `Eaf.Document.note_le_through` — no stage without a restart moves the counter back.
* `Eaf.Document.ids_increase` — the ids of new annotations through a history.
-/

namespace Eaf

/-- One stage of the history of a document. -/
inductive Stage
  /-- The document is worked on. -/
  | work (act : Act)
  /-- The document is saved, and its file is opened again. -/
  | reopen (writing : WriteOptions) (now : String) (reading : ReadOptions)

namespace Document

variable {document : Document} {stage : Stage}

/-- A document that is saved and opened again: what is read of its file into the empty document, or
the document itself if the file cannot be read. -/
def reopened (document : Document) (writing : WriteOptions) (now : String)
    (reading : ReadOptions) : Document :=
  document.orKeep Imported.document (empty.importText reading (document.toText writing now)).result

/-- The document after one stage of its history. -/
def through (document : Document) : Stage → Document
  | .work act => document.after act
  | .reopen writing now reading => document.reopened writing now reading

/-- The annotation that a stage makes, if it makes one. -/
def newNote? (document : Document) : Stage → Option Created
  | .work (.createNote tierId value start stop) =>
    (document.createNote tierId value start stop).toOption
  | _ => none

/-- The annotations that a history makes, one after another. -/
def newNotes (document : Document) : List Stage → List Created
  | [] => []
  | stage :: stages =>
    (document.newNote? stage).toList ++ (document.through stage).newNotes stages

/-! ### One stage -/

theorem newNote?_eq_some {created : Created} (h : document.newNote? stage = some created) :
    ∃ tierId value start stop, stage = .work (.createNote tierId value start stop) ∧
      document.createNote tierId value start stop = .ok created := by
  unfold newNote? at h
  split at h
  next tierId value start stop =>
    refine ⟨tierId, value, start, stop, rfl, ?_⟩
    cases hcreate : document.createNote tierId value start stop with
    | error refusal =>
      rw [hcreate] at h
      cases h
    | ok other =>
      rw [hcreate] at h
      exact congrArg Except.ok (Option.some.inj h)
  next => cases h

/-- What is opened again is what the file says, if the file is legible. -/
theorem reopened_eq {writing : WriteOptions} {now : String}
    (hlegible : ∀ piece ∈ document.pieces writing now, piece.Legible) (reading : ReadOptions) :
    document.reopened writing now reading =
      (empty.absorb reading.resyncCounters (document.rounded reading writing)).document := by
  obtain ⟨hauthor, hdate, hbody⟩ := legible_pieces_iff.1 hlegible
  obtain ⟨imported, himported, hdocument, -⟩ :=
    exists_importText_toText empty reading hauthor hdate hbody
  rw [reopened, himported, orKeep, hdocument]

/-- Saving and opening again does not move the counter of annotation ids back: the file records the
counter. -/
theorem note_le_reopened (document : Document) (writing : WriteOptions) (now : String)
    (reading : ReadOptions) :
    document.counters.note ≤ (document.reopened writing now reading).counters.note := by
  by_cases hlegible : ∀ piece ∈ document.pieces writing now, piece.Legible
  · rw [reopened_eq hlegible]
    exact lastUsed_le_absorb empty reading.resyncCounters rfl
  · rw [reopened, importText_of_not_legible empty reading hlegible]
    exact UInt64.le_refl _

/-- No stage moves the counter of annotation ids back, unless the counter starts over. -/
theorem note_le_through
    (hsteady : ∀ created ∈ document.newNote? stage, .counterRestarted .note ∉ created.notices) :
    document.counters.note ≤ (document.through stage).counters.note := by
  cases stage with
  | reopen writing now reading => exact document.note_le_reopened writing now reading
  | work act =>
    refine after_induction (P := fun d => document.counters.note ≤ d.counters.note)
      (UInt64.le_refl _) document.note_le_absorb ?_ ?_ ?_ ?_
    · intro linguisticType locale created hcreate
      exact UInt64.le_of_eq (createTier_note hcreate).symm
    · rintro tierId value start stop created rfl hcreate
      have hnew : created ∈ document.newNote? (.work (.createNote tierId value start stop)) := by
        rw [newNote?, hcreate]
        rfl
      obtain ⟨n, -, hle, hlt⟩ := createNote_number hcreate (hsteady created hnew)
      exact UInt64.le_of_lt (UInt64.lt_of_le_of_lt hle hlt)
    · exact fun _ => UInt64.le_refl _
    · intro tierId change edited _ hedit
      obtain ⟨_, _, _, -, -, -, rfl⟩ := modifyTier?_eq_some hedit
      exact UInt64.le_refl _

/-! ### Histories -/

theorem newNotes_reopen (document : Document) (writing : WriteOptions) (now : String)
    (reading : ReadOptions) (stages : List Stage) :
    document.newNotes (.reopen writing now reading :: stages) =
      (document.reopened writing now reading).newNotes stages :=
  rfl

/-- The new annotations of a history that goes on. -/
theorem newNotes_append (stages more : List Stage) (document : Document) :
    document.newNotes (stages ++ more) =
      document.newNotes stages ++ (stages.foldl through document).newNotes more := by
  induction stages generalizing document with
  | nil => rfl
  | cons stage stages ih =>
    rw [List.cons_append, newNotes, newNotes, ih, List.append_assoc, List.foldl_cons]

/-- The ids of new annotations are those of increasing numbers from the counter on. -/
theorem exists_numbers {stages : List Stage} (document : Document)
    (hsteady : ∀ created ∈ document.newNotes stages, .counterRestarted .note ∉ created.notices) :
    ∃ numbers : List UInt64,
      (document.newNotes stages).map (·.id) = numbers.map IdFamily.note.number ∧
        (∀ n ∈ numbers, document.counters.note ≤ n) ∧ numbers.Pairwise (· < ·) := by
  induction stages generalizing document with
  | nil => exact ⟨[], rfl, List.forall_mem_nil _, .nil⟩
  | cons stage stages ih =>
    simp only [newNotes, List.forall_mem_append, Option.mem_toList] at hsteady
    obtain ⟨hfirst, hrest⟩ := hsteady
    obtain ⟨numbers, hids, hfrom, hincreasing⟩ := ih (document.through stage) hrest
    cases hnew : document.newNote? stage with
    | none =>
      have hcounter := note_le_through hfirst
      refine ⟨numbers, ?_, fun n hn => UInt64.le_trans hcounter (hfrom n hn), hincreasing⟩
      rw [newNotes, hnew]
      exact hids
    | some created =>
      obtain ⟨tierId, value, start, stop, rfl, hcreate⟩ := newNote?_eq_some hnew
      obtain ⟨n, hid, hle, hlt⟩ := createNote_number hcreate (hfirst created hnew)
      have hthrough : document.through (.work (.createNote tierId value start stop)) =
          created.document := by
        rw [through, after, hcreate, orKeep]
      rw [hthrough] at hids hfrom
      -- All later numbers are at least the counter that the new annotation leaves, past its own.
      have hlater : ∀ m ∈ numbers, n < m := fun m hm => UInt64.lt_of_lt_of_le hlt (hfrom m hm)
      refine ⟨n :: numbers, ?_, ?_, List.pairwise_cons.2 ⟨hlater, hincreasing⟩⟩
      · rw [newNotes, hnew, hthrough, List.map_append, hids, List.map_cons, ← hid]
        rfl
      · exact List.forall_mem_cons.2
          ⟨hle, fun m hm => UInt64.le_of_lt (UInt64.lt_of_le_of_lt hle (hlater m hm))⟩

/-- **Ids of annotations are never given twice.** Through any history in which the counter of
annotation ids does not start over (`restarts_iff` says when it does), whatever is made, edited,
removed and read, and however often the document is saved and opened again, the numbers of the ids
of new annotations increase from one to the next. So no two of these ids are equal, even if one
annotation was removed before the other was made. -/
theorem ids_increase (document : Document) (stages : List Stage)
    (hsteady : ∀ created ∈ document.newNotes stages, .counterRestarted .note ∉ created.notices) :
    (∃ numbers : List UInt64,
      (document.newNotes stages).map (·.id) = numbers.map IdFamily.note.number ∧
        numbers.Pairwise (· < ·)) ∧
      ((document.newNotes stages).map (·.id)).Nodup := by
  obtain ⟨numbers, hids, -, hincreasing⟩ := document.exists_numbers hsteady
  refine ⟨⟨numbers, hids, hincreasing⟩, ?_⟩
  rw [hids]
  refine List.Nodup.map (fun m n => IdFamily.note.number_injective) ?_
  exact hincreasing.imp UInt64.ne_of_lt

/-- A restart can give an id twice. An annotation gets the largest number, so that the counter
starts over. It is removed, and once a file has moved the counter up again, another annotation gets
its id. -/
example :
    let file := Outline.root { counters := ["18446744073709551615"] }
    let stages : List Stage :=
      [ .work (.createTier "text" "en"), .work (.readTree {} file),
        .work (.createNote "tier0" "word" 0 100),
        .work (.editTier "tier0" fun tier => { tier with notes := [] }),
        .work (.readTree {} file), .work (.createNote "tier0" "next" 0 100) ]
    (empty.newNotes stages).map (·.id) = ["an18446744073709551615", "an18446744073709551615"] ∧
      ∃ created ∈ empty.newNotes stages, .counterRestarted .note ∈ created.notices := by
  decide +kernel

/-- An annotation is removed before its document is saved, so that the file does not have it, and
the next one gets another id still. -/
theorem ids_increase_after_removal :
    let stages : List Stage :=
      [ .work (.createTier "text" "en"), .work (.createNote "tier0" "word" 0 100),
        .work (.editTier "tier0" fun tier => { tier with notes := [] }),
        .reopen {} "2024-01-01" {}, .work (.createNote "tier0" "next" 0 100) ]
    (∀ created ∈ empty.newNotes stages, .counterRestarted .note ∉ created.notices) ∧
      (empty.newNotes stages).map (·.id) = ["an0", "an1"] ∧
      ((empty.newNotes stages).map (·.id)).Nodup := by
  intro stages
  let work : List Stage := stages.take 3
  let edited := work.foldl through empty
  have hbody : ∀ piece ∈ edited.bodyPieces {}, piece.Legible :=
    legible_of_allowed (by decide +kernel) (by decide +kernel)
  have hreopened : edited.reopened {} "2024-01-01" {} =
      (empty.absorb true (edited.rounded {} {})).document :=
    reopened_eq (legible_pieces_iff.2 ⟨by decide, by decide, hbody⟩) {}
  have hnotes : empty.newNotes stages = empty.newNotes work ++
      (empty.absorb true (edited.rounded {} {})).document.newNotes
        [.work (.createNote "tier0" "next" 0 100)] := by
    rw [← hreopened, ← newNotes_reopen, ← newNotes_append]
    rfl
  have hsteady : ∀ created ∈ empty.newNotes stages,
      .counterRestarted .note ∉ created.notices := by
    rw [hnotes]
    decide +kernel
  refine ⟨hsteady, ?_, (ids_increase empty stages hsteady).2⟩
  rw [hnotes]
  decide +kernel

end Document

end Eaf

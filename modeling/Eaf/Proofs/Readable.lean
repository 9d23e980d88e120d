import Eaf.Proofs.Built
import Eaf.Proofs.Xml.Passage

/-!
# Files that can be read

Writing escapes markup and nothing else, so that a character that may not occur in a document
stands in the file as it is, and the file is no document. Where all texts are of allowed characters
the file is read. So a file can be read exactly if its pieces are legible, and of a document that
was built exactly if its texts are of allowed characters.

## Main results

* `Eaf.Xml.legible_of_read?_write` — the pieces of a file that is a document are legible.
* `Eaf.Document.exists_importText_of_legible`, `Eaf.Document.importText_of_not_legible` — the files
  that can be read and those that cannot.
* `Eaf.Document.readable_iff_of_builds` — the files of documents that were built.
-/

namespace Eaf

open Xml (Allowed Piece)

/-! ### What a file shows of its pieces -/

namespace Xml

variable {c : Char} {s : String}

theorem isAllowed_of_isMarkup (h : isMarkup c = true) : isAllowed c = true := by
  simp only [isMarkup, Bool.or_eq_true, beq_iff_eq] at h
  rcases h with (((rfl | rfl) | rfl) | rfl) | rfl <;> decide

theorem escapeChar_of_not_isMarkup (h : isMarkup c = false) : escapeChar c = [c] := by
  unfold escapeChar
  split <;> first | rfl | exact absurd h (by decide)

/-- A text whose escaped form is of allowed characters is of allowed characters. -/
theorem allowed_of_escape (h : ∀ d ∈ escape s.toList, isAllowed d = true) : Allowed s := by
  intro c hc
  cases hmarkup : isMarkup c with
  | true => exact isAllowed_of_isMarkup hmarkup
  | false =>
    refine h c (List.mem_flatMap.2 ⟨c, hc, ?_⟩)
    rw [escapeChar_of_not_isMarkup hmarkup]
    exact List.mem_singleton_self c

namespace Piece

variable {piece : Piece} {pieces : List Piece} {indent depth : Nat} {broken : Bool}

theorem allowed_of_writeAttributes {attributes : List (String × String)}
    (h : ∀ c ∈ writeAttributes attributes, isAllowed c = true) :
    ∀ pair ∈ attributes, Allowed pair.2 := by
  intro pair hpair
  refine allowed_of_escape fun d hd => h d (List.mem_flatMap.2 ⟨pair, hpair, ?_⟩)
  simp [hd]

/-- A piece that is of allowed characters as it is written is legible. -/
theorem legible_of_write (h : ∀ c ∈ piece.write, isAllowed c = true) : piece.Legible := by
  cases piece with
  | declaration => exact ⟨List.forall_mem_nil _, nofun⟩
  | openTag name attributes =>
    refine ⟨allowed_of_writeAttributes fun c hc => h c ?_, nofun⟩
    exact List.mem_append_left _ (List.mem_append_right _ hc)
  | emptyTag name attributes =>
    refine ⟨allowed_of_writeAttributes fun c hc => h c ?_, nofun⟩
    exact List.mem_append_left _ (List.mem_append_right _ hc)
  | closeTag name => exact ⟨List.forall_mem_nil _, nofun⟩
  | text content =>
    refine ⟨List.forall_mem_nil _, ?_⟩
    rintro _ ⟨⟩
    exact allowed_of_escape h

/-- What is written of a piece stands in the file. -/
theorem mem_layout (hpiece : piece ∈ pieces) (hc : c ∈ piece.write) :
    c ∈ layout indent depth broken pieces := by
  induction pieces generalizing depth broken with
  | nil => cases hpiece
  | cons first others ih =>
    rw [layout]
    rcases List.mem_cons.1 hpiece with rfl | hothers
    · exact List.mem_append_left _ (List.mem_append_right _ hc)
    · exact List.mem_append_right _ (ih hothers)

end Piece

/-- The pieces of a file that is a document are legible. -/
theorem legible_of_read?_write {indent : Nat} {pieces : List Piece} {root : Node}
    (h : read? (write indent pieces) = some root) : ∀ piece ∈ pieces, piece.Legible := by
  intro piece hpiece
  refine Piece.legible_of_write fun c hc => allowed_of_read? h c ?_
  rw [write, String.toList_ofList]
  exact Piece.mem_layout hpiece hc

end Xml

namespace Document

variable {document : Document} {writing : WriteOptions} {now : String}

/-! ### Files that can be read -/

/-- The pieces of a file are legible if those of its root element are and those in it. -/
theorem legible_pieces_iff :
    (∀ piece ∈ document.pieces writing now, piece.Legible) ↔
      Allowed writing.author ∧ Allowed (writing.date.getD now) ∧
        ∀ piece ∈ document.bodyPieces writing, piece.Legible := by
  have hroot : (Piece.openTag "ANNOTATION_DOCUMENT" (rootAttributes writing now)).Legible ↔
      Allowed writing.author ∧ Allowed (writing.date.getD now) := by
    have hfixed : Allowed formatNumber ∧ Allowed schemaInstance ∧ Allowed schemaPlace := by decide
    simp [Piece.Legible, Piece.attributes, rootAttributes, hfixed]
  have hdeclaration : Piece.declaration.Legible := by simp [Piece.Legible, Piece.attributes]
  have hclose : (Piece.closeTag "ANNOTATION_DOCUMENT").Legible := by
    simp [Piece.Legible, Piece.attributes]
  rw [pieces_eq, Xml.Markup.pieces, piecesOf_body, List.forall_mem_cons, List.forall_mem_cons,
    List.forall_mem_append, List.forall_mem_singleton, hroot]
  simp [hdeclaration, hclose, and_assoc]

/-- A file whose pieces are legible is read. -/
theorem exists_importText_of_legible (other : Document) (reading : ReadOptions)
    (h : ∀ piece ∈ document.pieces writing now, piece.Legible) :
    ∃ imported, (other.importText reading (document.toText writing now)).result = .ok imported := by
  obtain ⟨hauthor, hdate, hbody⟩ := legible_pieces_iff.1 h
  obtain ⟨imported, himported, -⟩ := exists_importText_toText other reading hauthor hdate hbody
  exact ⟨imported, himported⟩

/-- A file with a piece that is not legible is no document. -/
theorem importText_of_not_legible (other : Document) (reading : ReadOptions)
    (h : ¬ ∀ piece ∈ document.pieces writing now, piece.Legible) :
    (other.importText reading (document.toText writing now)).result = .error .notXml := by
  cases hread : Xml.read? (document.toText writing now) with
  | none => rw [importText, hread]
  | some root => exact absurd (Xml.legible_of_read?_write hread) h

/-! ### Documents that were built -/

/-- A document that was built is legible in its file if its texts are of allowed characters. -/
theorem Built.legible_bodyPieces (h : document.Built)
    (htexts : ∀ text ∈ document.texts, Allowed text) :
    ∀ piece ∈ document.bodyPieces writing, piece.Legible := by
  simp only [texts, Media.texts, List.forall_mem_append, Option.mem_toList,
    List.forall_mem_flatMap, List.forall_mem_map] at htexts
  obtain ⟨⟨⟨⟨hurl, hmime⟩, hfile⟩, htiers⟩, hvalues⟩ := htexts
  have hspells : ∀ tier ∈ document.tiers, tier.Spells Allowed Allowed := by
    intro tier htier
    obtain ⟨hid, hparent⟩ := h.tiers tier htier
    obtain ⟨htype, hlocale⟩ := List.forall_mem_cons.1 (htiers tier htier)
    refine ⟨?_, by simp [hparent], fun note hnote => ?_⟩
    · simp only [Tier.attributes, Tier.optional, hparent, List.forall_mem_append,
        List.forall_mem_cons]
      refine ⟨⟨⟨hid.allowed, htype, List.forall_mem_nil _⟩, fun pair hpair => ?_⟩,
        List.forall_mem_nil _⟩
      obtain ⟨s, hs, rfl⟩ := Option.map_eq_some_iff.1 (Option.mem_toList.1 hpair)
      exact hlocale s (Option.mem_toList.2 hs)
    · have hmem : note ∈ document.notes := List.mem_flatMap.2 ⟨tier, htier, hnote⟩
      exact ⟨fun pair hpair => (h.attributes_unbroken hmem pair hpair).allowed, hvalues note hmem⟩
  refine legible_of_allowed (attributes_bodyPieces (fun _ hs => hs.allowed) hurl hmime hfile
    (fun slot hslot => ?_) hspells) fun tier htier note hnote => ?_
  · exact (h.slots slot (mem_timeline_of_mem_validSlots h.faithful hslot)).allowed
  · exact ((hspells tier htier).notes note (List.mem_filter.1 hnote).1).value

/-- The texts of a document that was built are of allowed characters if it is legible in its
file. -/
theorem Built.allowed_texts (h : document.Built)
    (hbody : ∀ piece ∈ document.bodyPieces writing, piece.Legible) :
    ∀ text ∈ document.texts, Allowed text := by
  have hheader := (hbody (.openTag "HEADER"
    [("MEDIA_FILE", document.media.file.getD ""), ("TIME_UNITS", "milliseconds")])
    (mem_bodyPieces_of_header (by simp [headerPieces]))).1
  have hdescriptor := (hbody (.emptyTag "MEDIA_DESCRIPTOR" document.descriptorAttributes)
    (mem_bodyPieces_of_header (by simp [headerPieces, descriptorAttributes]))).1
  simp only [texts, Media.texts, List.forall_mem_append, Option.mem_toList,
    List.forall_mem_flatMap, List.forall_mem_map]
  refine ⟨⟨⟨⟨fun s hs => ?_, fun s hs => ?_⟩, fun s hs => ?_⟩, fun tier htier => ?_⟩,
    fun note hnote => ?_⟩
  · exact hdescriptor ("MEDIA_URL", s)
      (by simp [Xml.Piece.attributes, descriptorAttributes, hs])
  · exact hdescriptor ("MIME_TYPE", s)
      (by simp [Xml.Piece.attributes, descriptorAttributes, Tier.optional, hs])
  · exact hheader ("MEDIA_FILE", s) (by simp [Xml.Piece.attributes, hs])
  · have hopen := (hbody _ (mem_bodyPieces_of_tier htier List.mem_cons_self)).1
    refine List.forall_mem_cons.2 ⟨?_, fun s hs => ?_⟩
    · exact hopen ("LINGUISTIC_TYPE_REF", tier.linguisticType)
        (by simp [Xml.Piece.attributes, Tier.attributes])
    · exact hopen ("DEFAULT_LOCALE", s)
        (by simp [Xml.Piece.attributes, Tier.attributes, Tier.optional, Option.mem_toList.1 hs])
  · obtain ⟨tier, htier, hnote⟩ := List.mem_flatMap.1 hnote
    rw [← h.written_eq writing htier] at hnote
    exact (hbody (.text note.value)
      (mem_bodyPieces_of_note htier hnote (by simp [Note.pieces]))).2 _ rfl

/-- **The file of a document that was built is read exactly if the texts in it are of allowed
characters**; otherwise it is no document. The texts are the types and locales of tiers, the values
of annotations and the fields of media, all of them given to the acts that built the document. -/
theorem readable_iff_of_builds {acts : List Act} (hbuilds : ∀ act ∈ acts, act.Builds)
    (reading : ReadOptions) (writing : WriteOptions) (now : String)
    (hauthor : Allowed writing.author) (hdate : Allowed (writing.date.getD now)) :
    let document := empty.run acts
    let outcome := (empty.importText reading (document.toText writing now)).result
    ((∃ imported, outcome = .ok imported) ↔ ∀ text ∈ document.texts, Allowed text) ∧
      (outcome = .error .notXml ↔ ∃ text ∈ document.texts, ¬ Allowed text) ∧
      ∀ text ∈ document.texts, ∃ act ∈ acts, text ∈ act.texts := by
  intro document outcome
  have hbuilt : document.Built := built_of_builds hbuilds
  have hlegible : (∀ piece ∈ document.pieces writing now, piece.Legible) ↔
      ∀ text ∈ document.texts, Allowed text := by
    rw [legible_pieces_iff]
    exact ⟨fun h => hbuilt.allowed_texts h.2.2,
      fun h => ⟨hauthor, hdate, hbuilt.legible_bodyPieces h⟩⟩
  rcases em (∀ text ∈ document.texts, Allowed text) with hall | hnot
  · obtain ⟨imported, himported⟩ : ∃ imported, outcome = .ok imported :=
      exists_importText_of_legible empty reading (hlegible.2 hall)
    refine ⟨iff_of_true ⟨imported, himported⟩ hall, iff_of_false ?_ ?_, texts_of_builds hbuilds⟩
    · rw [himported]
      exact nofun
    · rintro ⟨text, htext, hnot⟩
      exact hnot (hall text htext)
  · have hfault : outcome = .error .notXml :=
      importText_of_not_legible empty reading fun h => hnot (hlegible.1 h)
    refine ⟨iff_of_false ?_ hnot, iff_of_true hfault ?_, texts_of_builds hbuilds⟩
    · rw [hfault]
      exact nofun
    · simpa using hnot

/-- Markup, blanks and line ends in the texts of a document do not keep its file from being read. -/
theorem readable_with_markup :
    let acts : List Act :=
      [.createTier "a<b" "\"en\"", .createNote "tier0" " R&D\r\n" 500 250,
        .assignMedia { url := some "", file := some "\t" }]
    let document := empty.run acts
    (∀ act ∈ acts, act.Builds) ∧ Allowed "<author>" ∧ Allowed "2024-01-01" ∧
      ∃ imported, (empty.importText {} (document.toText { author := "<author>" }
        "2024-01-01")).result = .ok imported := by
  intro acts document
  have hbuilds : ∀ act ∈ acts, act.Builds := by simp [acts, Act.Builds]
  have hauthor : Allowed "<author>" := by decide
  have hdate : Allowed "2024-01-01" := by decide
  have hreadable :=
    readable_iff_of_builds hbuilds {} { author := "<author>" } "2024-01-01" hauthor hdate
  exact ⟨hbuilds, hauthor, hdate, hreadable.1.2 (by decide +kernel)⟩

/-- **A control character in a text makes the file unreadable.** The type of a tier is a control
character; it stands in the file as it is, and the file is no document. -/
theorem unreadable_with_control_character :
    let acts : List Act := [.createTier "\x01" "en"]
    (∀ act ∈ acts, act.Builds) ∧ Allowed "" ∧ Allowed "2024-01-01" ∧
      (empty.importText {} ((empty.run acts).toText {} "2024-01-01")).result =
        .error .notXml := by
  intro acts
  have hbuilds : ∀ act ∈ acts, act.Builds := by simp [acts, Act.Builds]
  refine ⟨hbuilds, by decide, by decide, importText_of_not_legible empty {} fun h => ?_⟩
  have hallowed : Allowed "\x01" :=
    (built_of_builds hbuilds).allowed_texts (legible_pieces_iff.1 h).2.2 _ (by decide +kernel)
  exact absurd hallowed (by decide)

end Document

end Eaf

import Eaf.Program.Command
import Eaf.Proofs.Absorption
import Eaf.Proofs.Normal
import Eaf.Proofs.Performed
import Eaf.Proofs.Problems
import Eaf.Proofs.Stored

/-!
# Files that are written anew

The command that writes the document in a file anew judges the document and not the text: it
complains of references to slots that are not written. What it promises holds of the text all the
same. The id of a slot and the references to it are written and read alike, so that where no
reference goes unwritten, the text holds every slot that its annotations name, also where ids are
read as others than they were or two of them become one.

## Main results

* `Eaf.Document.slot?_absorb_rounded` — slots that a file names and holds.
* `Eaf.normalize_ok`, `Eaf.exists_normalize` — when a file is written anew without complaint.
* `Eaf.normalized_file_misses_no_slot` — a file that was written anew without complaint.
-/

namespace Eaf

variable {before after : Task.State} {settings : Settings} {input : Path} {output : Option Path}
  {overwrite : Bool}

namespace Document

open Xml (Allowed rereadValue)

variable {document : Document} {note : Note} {start stop : String} {reading : ReadOptions}
  {writing : WriteOptions}

/-! ### Slots that are found again -/

/-- Where no reference to a slot goes unwritten, aligned annotations stand between valid slots. -/
theorem mem_validSlots_of_unwrittenSlotRefs (h : document.unwrittenSlotRefs = [])
    (hnote : note ∈ document.notes) (hanchor : note.anchor = .aligned start stop) :
    start ∈ document.validSlots.map (·.id) ∧ stop ∈ document.validSlots.map (·.id) := by
  have hnone := List.flatMap_eq_nil_iff.1 h note hnote
  simpa [Note.slotRefs?, hanchor] using hnone

/-- Where the slots of all aligned annotations exist, a report misses no slot. -/
theorem missingTimeSlot_notMem (h : ∀ note ∈ document.notes, ∀ start stop,
    note.anchor = .aligned start stop →
      (document.slot? start).isSome = true ∧ (document.slot? stop).isSome = true)
    (id slot : String) : .missingTimeSlot id slot ∉ document.report.issues := by
  intro hissue
  obtain ⟨tier, -, hissue⟩ | ⟨note, hnote, hissue⟩ | ⟨_, -, hissue⟩ := mem_issues_iff.1 hissue
  · unfold parentIssues at hissue
    split at hissue
    · cases hissue
    · split at hissue <;> simp at hissue
  · unfold anchorIssues at hissue
    cases hanchor : note.anchor with
    | refers target =>
      rw [hanchor] at hissue
      dsimp only [referringIssues] at hissue
      split at hissue
      · simp at hissue
      · split at hissue <;> simp at hissue
    | aligned start stop =>
      obtain ⟨hstart, hstop⟩ := h note hnote start stop hanchor
      obtain ⟨first, hfirst⟩ := Option.isSome_iff_exists.1 hstart
      obtain ⟨last, hlast⟩ := Option.isSome_iff_exists.1 hstop
      rw [hanchor] at hissue
      simp [alignedIssues, hfirst, hlast] at hissue
  · cases hissue

/-- Of the slots of a file that is read into the empty document each is found by its id. -/
theorem slot?_absorb_empty (resync : Bool) (content : Content) : ∀ slot ∈ content.slots,
    ((empty.absorb resync content).document.slot? slot.id).isSome = true := by
  intro slot hslot
  have hfaithful : (empty.absorb resync content).document.timeline.Faithful :=
    absorb_faithful Timeline.faithful_empty _ _
  have hcontains := Timeline.contains_insertNew {} content.slots slot hslot
  rw [Option.isSome_iff_ne_none]
  intro hnone
  have hnot := hfaithful.find?_eq_none_iff.1 hnone
  cases hcontains.symm.trans hnot

/-- The annotations of a file that is read into the empty document are those of its tiers. -/
theorem exists_of_mem_notes_absorb_empty {resync : Bool} {content : Content}
    (hnote : note ∈ (empty.absorb resync content).document.notes) :
    ∃ tier ∈ content.tiers, note ∈ tier.notes := by
  obtain ⟨tier, htier, hnote⟩ := List.mem_flatMap.1 hnote
  exact ⟨tier, (splitNew_sublist [] content.tiers).subset htier, hnote⟩

/-- Where no reference to a slot goes unwritten, the file of a document holds all slots that its
annotations stand between, whatever the ids read as. -/
theorem slot?_absorb_rounded (h : document.unwrittenSlotRefs = []) (resync : Bool)
    (hnote : note ∈ (empty.absorb resync (document.rounded reading writing)).document.notes)
    (hanchor : note.anchor = .aligned start stop) :
    ((empty.absorb resync (document.rounded reading writing)).document.slot? start).isSome = true ∧
      ((empty.absorb resync (document.rounded reading writing)).document.slot? stop).isSome =
        true := by
  have hfound (ref : String) (href : ref ∈ document.validSlots.map (·.id)) :
      ((empty.absorb resync (document.rounded reading writing)).document.slot?
        (rereadValue ref)).isSome = true := by
    obtain ⟨slot, hslot, rfl⟩ := List.mem_map.1 href
    have hread : slot.rounded ∈ (document.rounded reading writing).slots :=
      List.mem_map_of_mem hslot
    exact slot?_absorb_empty resync _ slot.rounded hread
  obtain ⟨_, hread, hnote⟩ := exists_of_mem_notes_absorb_empty hnote
  obtain ⟨tier, htier, rfl⟩ := List.mem_map.1 hread
  obtain ⟨other, hother, rfl⟩ := List.mem_map.1 hnote
  have hother : other ∈ document.notes :=
    List.mem_flatMap.2 ⟨tier, htier, (List.mem_filter.1 hother).1⟩
  cases hkind : other.anchor with
  | refers target => simp [Note.reread, Anchor.reread, hkind] at hanchor
  | aligned first last =>
    obtain ⟨hfirst, hlast⟩ := mem_validSlots_of_unwrittenSlotRefs h hother hkind
    obtain ⟨rfl, rfl⟩ : rereadValue first = start ∧ rereadValue last = stop := by
      simpa [Note.reread, Anchor.reread, hkind] using hanchor
    exact ⟨hfound first hfirst, hfound last hlast⟩

/-- The text of a document that a file alone makes, and none of whose references to slots goes
unwritten, is read under any options, and the report on what is read misses no slot. -/
theorem FromFile.exists_without_missing (h : document.FromFile reading)
    (hrefs : document.unwrittenSlotRefs = []) (now : String) (hauthor : Allowed writing.author)
    (hdate : Allowed (writing.date.getD now)) (other : ReadOptions) :
    ∃ imported, (empty.importText other (document.toText writing now)).result = .ok imported ∧
      ∀ id slot, .missingTimeSlot id slot ∉ imported.document.report.issues := by
  obtain ⟨imported, hread, hdocument, -⟩ :=
    exists_importText_toText empty other hauthor hdate h.legible_bodyPieces
  refine ⟨imported, hread, missingTimeSlot_notMem ?_⟩
  rw [hdocument]
  exact fun note hnote start stop => slot?_absorb_rounded hrefs _ hnote

end Document

/-! ### The command -/

/-- A file that is written anew without complaint was read without problems, refers to slots that
are written, and ends as the text of its document in the file asked for. -/
theorem normalize_ok
    (hnormalize : Task.Answers (normalize settings input output overwrite) before true after) :
    ∃ text imported, before.2.files.read input = .ok text ∧
      (Document.empty.importText settings.reading text).result = .ok imported ∧
      imported.issues = [] ∧ imported.document.unwrittenSlotRefs = [] ∧
      ∃ tree : FileTree, tree.write (output.getD (normalizedPath input))
        (imported.document.toText settings.writing before.2.now) = .ok after.2.files := by
  obtain ⟨present, start, hisFile, hpresent⟩ := Task.answers_bind.1 hnormalize
  obtain ⟨-, rfl⟩ := Task.answers_isFile.1 hisFile
  dsimp only at hpresent
  split at hpresent
  case isFalse =>
    obtain ⟨_, _, hthrow, -⟩ := Task.answers_bind.1 hpresent
    exact absurd hthrow Task.answers_throw
  obtain ⟨taken, start, htaken, hfree⟩ := Task.answers_bind.1 hpresent
  obtain ⟨-, rfl⟩ := Task.answers_leadsAnywhere.1 htaken
  split at hfree
  · obtain ⟨_, _, -, hfalse⟩ := Task.answers_bind.1 hfree
    cases (Task.answers_pure.1 hfalse).1
  · obtain ⟨imported, loaded, hload, hdangling⟩ := Task.answers_bind.1 hfree
    obtain ⟨hloaded, text, hread, himport⟩ := Files.load_ok hload
    obtain ⟨_, warned, hwarn, hsave⟩ := Task.answers_bind.1 hdangling
    have hwarned := (Task.onlySpeaks_forM fun _ _ => Task.onlySpeaks_remark _ _).sameFiles hwarn
    obtain ⟨_, saved, hsave, hwrote⟩ := Task.answers_bind.1 hsave
    obtain ⟨tree, hwrite⟩ := Files.save_ok hsave
    obtain ⟨_, last, hremark, hanswer⟩ := Task.answers_bind.1 hwrote
    have hlast := (Task.onlySpeaks_remark _ _).sameFiles hremark
    obtain ⟨hclean, rfl⟩ := Task.answers_pure.1 hanswer
    obtain ⟨hissues, hrefs⟩ := Bool.and_eq_true_iff.1 hclean.symm
    refine ⟨text, imported, hread, himport, List.isEmpty_iff.1 hissues, List.isEmpty_iff.1 hrefs,
      tree, ?_⟩
    rw [(hloaded.trans hwarned).now] at hwrite
    rw [hlast.files]
    exact hwrite

/-- A file is written anew without complaint if it is read without problems, refers to slots that
are written, and can be written where it is asked for. -/
theorem exists_normalize {text : String} {imported : Imported} {files : FileTree} {path : Path}
    (hpath : output.getD (normalizedPath input) = path)
    (hfile : before.2.files.kind? input = some .file)
    (hfree : overwrite = true ∨ before.2.files.kind? path = none)
    (hread : before.2.files.read input = .ok text)
    (himport : (Document.empty.importText settings.reading text).result = .ok imported)
    (hissues : imported.issues = []) (hrefs : imported.document.unwrittenSlotRefs = [])
    (hparent : Files.ParentReady before.2.files path)
    (hwrite : before.2.files.write path
      (imported.document.toText settings.writing before.2.now) = .ok files) :
    ∃ after, Task.Answers (normalize settings input output overwrite) before true after := by
  subst hpath
  refine Task.exists_bind (Task.answers_isFile.2 ⟨rfl, rfl⟩) ?_
  rw [if_pos (decide_eq_true hfile)]
  refine Task.exists_bind (Task.answers_leadsAnywhere.2 ⟨rfl, rfl⟩) ?_
  rw [if_neg (by rcases hfree with h | h <;> simp [h])]
  obtain ⟨loaded, hload⟩ := Files.exists_load hread himport
  have hsame := (Files.load_ok hload).1
  refine Task.exists_bind hload ?_
  dsimp only
  rw [hrefs]
  refine Task.onlySpeaks_pure.exists_bind fun middle hmiddle => ?_
  rw [← (hsame.trans hmiddle).files] at hparent hwrite
  rw [← (hsame.trans hmiddle).now] at hwrite
  obtain ⟨saved, hsave⟩ := Files.exists_save hparent hwrite
  refine Task.exists_bind hsave ?_
  refine (Task.onlySpeaks_remark _ _).exists_bind fun after _ => ⟨after, ?_⟩
  rw [hissues]
  exact Task.answers_pure.2 ⟨rfl, rfl⟩

open Xml (Allowed) in
/-- **A file that is written anew without complaint misses no slot.** Whatever the file, the
settings, whose author and date are of allowed characters, and the file tree: if the command that
writes the file anew answers that it found nothing to complain about, then the text that is in the
end in the file asked for is read into the empty document under any options, and the report on what
is read misses no time slot. -/
theorem normalized_file_misses_no_slot {includeReferring : Bool} {level : Severity}
    {workspace workspace' : Workspace} (hauthor : Allowed settings.writing.author)
    (hdate : Allowed (settings.writing.date.getD workspace.now))
    (hperform : workspace.perform level
      ((Command.normalize input output overwrite includeReferring).perform settings) =
        (.ok true, workspace')) :
    ∃ text, workspace'.files.read (output.getD (normalizedPath input)) = .ok text ∧
      ∀ reading, ∃ imported, (Document.empty.importText reading text).result = .ok imported ∧
        ∀ id slot, .missingTimeSlot id slot ∉ imported.document.report.issues := by
  obtain ⟨level', hanswers⟩ := Task.perform_eq_ok_iff.1 hperform
  rw [Command.perform] at hanswers
  obtain ⟨_, imported, -, himport, -, hrefs, tree, hwrite⟩ := normalize_ok hanswers
  refine ⟨_, FileTree.read_write hwrite, fun reading => ?_⟩
  have hfile := Document.fromFile_of_importText himport
  refine hfile.exists_without_missing hrefs workspace.now ?_ ?_ reading
  · exact hauthor
  · exact hdate

/-- A file with a slot whose id holds a tab and at which an annotation stands, and another one at
which none does. -/
def fileWithTab : String :=
  "<ANNOTATION_DOCUMENT><HEADER><MEDIA_DESCRIPTOR/></HEADER><TIME_ORDER>
    <TIME_SLOT TIME_SLOT_ID='&#9;' TIME_VALUE='5'/><TIME_SLOT TIME_SLOT_ID='c' TIME_VALUE='7'/>
    </TIME_ORDER><TIER TIER_ID='words'>
    <ALIGNABLE_ANNOTATION ANNOTATION_ID='n' TIME_SLOT_REF1='&#9;' TIME_SLOT_REF2='&#9;'/>
    </TIER></ANNOTATION_DOCUMENT>"

set_option maxRecDepth 2000 in
/-- A file in which a tab and an idle slot get lost is written anew beside itself. -/
theorem normalized_file_misses_no_slot_with_tab :
    let files := FileTree.empty.put ["a.eaf"] (.ofText fileWithTab)
    let workspace : Workspace := { files, now := "2024-01-01" }
    let settings : Settings := { reading := { strict := true } }
    let command := Command.normalize ⟨"a.eaf"⟩ none false false
    ∃ workspace', workspace.perform .info (command.perform settings) = (.ok true, workspace') ∧
      ∃ text, workspace'.files.read ⟨"a.normalized.eaf"⟩ = .ok text ∧
        ∀ reading, ∃ imported, (Document.empty.importText reading text).result = .ok imported ∧
          ∀ id slot, .missingTimeSlot id slot ∉ imported.document.report.issues := by
  intro files workspace settings command
  have hwritten : FileTree.empty.write ⟨"a.eaf"⟩ fileWithTab = .ok files :=
    FileTree.write_of_free rfl (by decide +kernel) rfl _
  have hread : files.read ⟨"a.eaf"⟩ = .ok fileWithTab := FileTree.read_write hwritten
  have hfile : files.kind? ⟨"a.eaf"⟩ = some .file := by decide +kernel
  have hfree : files.kind? ⟨"a.normalized.eaf"⟩ = none := by decide +kernel
  have hpath : (none : Option Path).getD (normalizedPath ⟨"a.eaf"⟩) = ⟨"a.normalized.eaf"⟩ := by
    decide +kernel
  obtain ⟨imported, himport, hclean⟩ :
      ∃ imported, (Document.empty.importText settings.reading fileWithTab).result = .ok imported ∧
        (imported.issues.isEmpty && imported.document.unwrittenSlotRefs.isEmpty) = true :=
    Document.exists_importText_of_any (show String.ofList _ = fileWithTab from rfl)
      (by decide +kernel)
  obtain ⟨hissues, hrefs⟩ := Bool.and_eq_true_iff.1 hclean
  have hwrite : files.write ⟨"a.normalized.eaf"⟩
      (imported.document.toText settings.writing workspace.now) = .ok _ :=
    FileTree.write_of_free rfl (by decide +kernel) rfl _
  have hparent : Files.ParentReady files ⟨"a.normalized.eaf"⟩ := by
    unfold Files.ParentReady
    decide +kernel
  obtain ⟨after, hafter⟩ : ∃ after,
      Task.Answers (normalize settings ⟨"a.eaf"⟩ none false) (.info, workspace) true after :=
    exists_normalize hpath hfile (Or.inr hfree) hread himport (List.isEmpty_iff.1 hissues)
      (List.isEmpty_iff.1 hrefs) hparent hwrite
  have hperform : workspace.perform .info (command.perform settings) = (.ok true, after.2) :=
    Task.perform_eq_ok_iff.2 ⟨_, hafter⟩
  refine ⟨after.2, hperform, ?_⟩
  have hmisses := normalized_file_misses_no_slot (by decide +kernel) (by decide +kernel) hperform
  rwa [hpath] at hmisses

end Eaf

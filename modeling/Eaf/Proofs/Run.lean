import Eaf.Document.Import
import Eaf.Proofs.Growth

/-!
# Runs of work on a document

A document is worked on in acts: a file is read into it, a tier or an annotation is made, the
media are assigned, or a tier is edited in any way at all. An act that is refused leaves the
document as it was. What every act preserves holds of every document that work can reach.

## Main definitions

* `Eaf.Act` — one act of work on a document.
* `Eaf.Document.after`, `Eaf.Document.run` — the document after one act and after a list of them.
* `Eaf.Document.Reachable` — documents that work on the empty document reaches.

## Main results

* `Eaf.Content.ofRoot?_ok` — where the content of a file comes from.
* `Eaf.Document.run_induction` — what every act of a run preserves holds at its end.
* `Eaf.Document.after_induction` — what an act can do to a document.
* `Eaf.Document.build_induction` — the same for runs that only make objects and assign media.
-/

namespace Eaf

/-- One act of work on a document. -/
inductive Act
  /-- A file is read into the document. -/
  | read (options : ReadOptions) (text : String)
  /-- A file whose XML tree is at hand is read into the document. -/
  | readTree (options : ReadOptions) (root : Xml.Node)
  /-- A tier is made. -/
  | createTier (linguisticType locale : String)
  /-- An annotation is made on a tier. -/
  | createNote (tierId value : String) (start stop : Int64)
  /-- The media are assigned. -/
  | assignMedia (media : Media)
  /-- The first tier of an id is edited. -/
  | editTier (tierId : String) (change : Tier → Tier)

/-- Whether an act builds on a document without reading a file or editing a tier. -/
def Act.Builds : Act → Prop
  | .createTier _ _ => True
  | .createNote _ _ _ _ => True
  | .assignMedia _ => True
  | _ => False

instance (act : Act) : Decidable act.Builds := by
  cases act <;> unfold Act.Builds <;> infer_instance

/-- Whether an act adds to a document without an edit of what is in it. -/
def Act.Grows : Act → Prop
  | .editTier _ _ => False
  | _ => True

instance (act : Act) : Decidable act.Grows := by
  cases act <;> unfold Act.Grows <;> infer_instance

/-- Whether an act leaves the ids of all tiers alone. -/
def Act.KeepsTierIds : Act → Prop
  | .editTier _ change => ∀ tier, (change tier).id = tier.id
  | _ => True

theorem Act.Grows.keepsTierIds {act : Act} (h : act.Grows) : act.KeepsTierIds := by
  cases act <;> trivial

/-! ### Files opened once -/

/-- The header of a file and its media descriptor are the first ones of their names. -/
theorem Header.ofRoot?_ok {root : Xml.Node} {header : Header} (h : ofRoot? root = .ok header) :
    root.isElement "ANNOTATION_DOCUMENT" = true ∧ root.child? "HEADER" = some header.element ∧
      header.element.child? "MEDIA_DESCRIPTOR" = some header.media := by
  unfold ofRoot? at h
  split at h
  next hroot =>
    split at h
    · cases h
    next element helement =>
      split at h
      · cases h
      next media hmedia =>
        cases h
        exact ⟨hroot, helement, hmedia⟩
  · cases h

/-- Where the content of a file comes from. -/
theorem Content.ofRoot?_ok {options : ReadOptions} {root : Xml.Node} {content : Content}
    (h : ofRoot? options root = .ok content) :
    ∃ header, Header.ofRoot? root = .ok header ∧ content.media = header.mediaInfo ∧
      content.lastUsed = header.lastUsed? ∧
      SlotEntry.slots? (SlotEntry.ofRoot header.timeUnit root) = .ok content.slots ∧
      (root.descendantsNamed "TIER").mapM (Tier.ofElement? options) = .ok content.tiers := by
  obtain ⟨header, hheader, h⟩ := exceptBind_ok h
  obtain ⟨slots, hslots, h⟩ := exceptBind_ok h
  obtain ⟨tiers, htiers, h⟩ := exceptBind_ok h
  cases h
  exact ⟨header, hheader, rfl, rfl, hslots, htiers⟩

namespace Document

/-- The document in an answer, or the given one if there is no answer. -/
def orKeep {ε α : Type} (document : Document) (view : α → Document) : Except ε α → Document
  | .ok answer => view answer
  | .error _ => document

/-- The document after one act. An act that is refused leaves it as it was. -/
def after (document : Document) : Act → Document
  | .read options text =>
    document.orKeep Imported.document (document.importText options text).result
  | .readTree options root =>
    document.orKeep Imported.document (document.importTree options root).result
  | .createTier linguisticType locale =>
    document.orKeep Created.document (document.createTier linguisticType locale)
  | .createNote tierId value start stop =>
    document.orKeep Created.document (document.createNote tierId value start stop)
  | .assignMedia media => { document with media }
  | .editTier tierId change => (document.modifyTier? tierId change).getD document

/-- The document after a list of acts. -/
def run (document : Document) (acts : List Act) : Document :=
  acts.foldl after document

/-- A document is reachable if work on the empty document leads to it. -/
def Reachable (document : Document) : Prop :=
  ∃ acts : List Act, empty.run acts = document

/-- What every act of a run preserves holds at its end. -/
theorem run_induction {P : Document → Prop} {document : Document} {acts : List Act}
    (start : P document) (step : ∀ d, ∀ act ∈ acts, P d → P (d.after act)) :
    P (document.run acts) := by
  induction acts generalizing document with
  | nil => exact start
  | cons act acts ih =>
    refine ih (step document act List.mem_cons_self start) ?_
    exact fun d a ha => step d a (List.mem_cons_of_mem _ ha)

theorem run_append (document : Document) (acts more : List Act) :
    document.run (acts ++ more) = (document.run acts).run more :=
  List.foldl_append

theorem Reachable.after {document : Document} (h : document.Reachable) (act : Act) :
    (document.after act).Reachable := by
  obtain ⟨acts, rfl⟩ := h
  exact ⟨acts ++ [act], run_append _ _ _⟩

theorem Reachable.run {document : Document} (h : document.Reachable) (acts : List Act) :
    (document.run acts).Reachable := by
  obtain ⟨before, rfl⟩ := h
  exact ⟨before ++ acts, run_append _ _ _⟩

/-- What holds of the empty document and is preserved by every act holds of every reachable
document. -/
theorem Reachable.induction {P : Document → Prop} {document : Document} (h : document.Reachable)
    (start : P empty) (step : ∀ d act, P d → P (d.after act)) : P document := by
  obtain ⟨acts, rfl⟩ := h
  exact run_induction start fun d act _ => step d act

/-! ### Reading opened once -/

/-- A file that is read joins the document: the outcome is the document that its content has
joined. -/
theorem importTree_ok {document : Document} {options : ReadOptions} {root : Xml.Node}
    {imported : Imported} (h : (document.importTree options root).result = .ok imported) :
    ∃ content, Content.ofRoot? options root = .ok content ∧
      imported.document = (document.absorb options.resyncCounters content).document ∧
      imported.tally = (document.absorb options.resyncCounters content).tally := by
  unfold importTree at h
  split at h
  · cases h
  next content hcontent =>
    refine ⟨content, hcontent, ?_⟩
    dsimp only at h
    split at h <;> cases h <;> exact ⟨rfl, rfl⟩

theorem importTree_of_content {options : ReadOptions} {root : Xml.Node} {content : Content}
    (h : Content.ofRoot? options root = .ok content) (document : Document) :
    ∃ imported, (document.importTree options root).result = .ok imported ∧
      imported.document = (document.absorb options.resyncCounters content).document ∧
      imported.tally = (document.absorb options.resyncCounters content).tally := by
  unfold importTree
  rw [h]
  dsimp only
  split
  · exact ⟨_, rfl, rfl, rfl⟩
  · exact ⟨_, rfl, rfl, rfl⟩

theorem importText_ok {document : Document} {options : ReadOptions} {text : String}
    {imported : Imported} (h : (document.importText options text).result = .ok imported) :
    ∃ root, Xml.read? text = some root ∧
      (document.importTree options root).result = .ok imported := by
  unfold importText at h
  split at h
  · cases h
  next root hroot => exact ⟨root, hroot, h⟩

theorem importText_of_read? {text : String} {root : Xml.Node} (h : Xml.read? text = some root)
    (document : Document) (options : ReadOptions) :
    document.importText options text = document.importTree options root := by
  rw [importText, h]

/-! ### What one act can do -/

/-- A file that is read joins its content to the document, or leaves the document as it was. -/
theorem after_readTree (document : Document) (options : ReadOptions) (root : Xml.Node) :
    document.after (.readTree options root) = document ∨
      ∃ content, document.after (.readTree options root) =
        (document.absorb options.resyncCounters content).document := by
  simp only [after]
  cases h : (document.importTree options root).result with
  | error => exact Or.inl rfl
  | ok imported =>
    obtain ⟨content, -, hdocument, -⟩ := importTree_ok h
    exact Or.inr ⟨content, hdocument⟩

theorem after_read (document : Document) (options : ReadOptions) (text : String) :
    document.after (.read options text) = document ∨
      ∃ content, document.after (.read options text) =
        (document.absorb options.resyncCounters content).document := by
  cases h : Xml.read? text with
  | none => exact Or.inl (by simp only [after, importText, h, orKeep])
  | some root =>
    have hsame : document.after (.read options text) = document.after (.readTree options root) := by
      simp only [after, importText_of_read? h]
    rw [hsame]
    exact document.after_readTree options root

/-- What every way in which an act can change a document preserves holds after the act. -/
theorem after_induction {P : Document → Prop} {document : Document} {act : Act}
    (start : P document)
    (absorb : ∀ resync content, P (document.absorb resync content).document)
    (newTier : ∀ linguisticType locale created,
      document.createTier linguisticType locale = .ok created → P created.document)
    (newNote : ∀ tierId value start stop created, act = .createNote tierId value start stop →
      document.createNote tierId value start stop = .ok created → P created.document)
    (assign : ∀ media, P { document with media })
    (edit : ∀ tierId change edited, act = .editTier tierId change →
      document.modifyTier? tierId change = some edited → P edited) : P (document.after act) := by
  cases act with
  | read options text =>
    obtain hsame | ⟨content, hjoined⟩ := document.after_read options text
    · rwa [hsame]
    · rw [hjoined]
      exact absorb _ content
  | readTree options root =>
    obtain hsame | ⟨content, hjoined⟩ := document.after_readTree options root
    · rwa [hsame]
    · rw [hjoined]
      exact absorb _ content
  | createTier linguisticType locale =>
    simp only [after]
    cases hcreate : document.createTier linguisticType locale with
    | error => exact start
    | ok created => exact newTier _ _ created hcreate
  | createNote tierId value start' stop =>
    simp only [after]
    cases hcreate : document.createNote tierId value start' stop with
    | error => exact start
    | ok created => exact newNote _ _ _ _ created rfl hcreate
  | assignMedia media => exact assign media
  | editTier tierId change =>
    simp only [after]
    cases hedit : document.modifyTier? tierId change with
    | none => exact start
    | some edited => exact edit tierId change edited rfl hedit

/-- What every new tier, every new annotation and every assignment of media of a run preserve holds
at its end, if nothing else is done in it. -/
theorem build_induction {P : Document → Prop} {document : Document} {acts : List Act}
    (hbuilds : ∀ act ∈ acts, act.Builds) (start : P document)
    (newTier : ∀ d linguisticType locale created, .createTier linguisticType locale ∈ acts → P d →
      d.createTier linguisticType locale = .ok created → P created.document)
    (newNote : ∀ d tierId value start stop created, .createNote tierId value start stop ∈ acts →
      P d → d.createNote tierId value start stop = .ok created → P created.document)
    (assign : ∀ d media, .assignMedia media ∈ acts → P d → P { d with media }) :
    P (document.run acts) := by
  refine run_induction start fun d act hact hd => ?_
  have hbuilds := hbuilds act hact
  cases act with
  | read options text => cases hbuilds
  | readTree options root => cases hbuilds
  | createTier linguisticType locale =>
    simp only [after]
    cases hcreate : d.createTier linguisticType locale with
    | error => exact hd
    | ok created => exact newTier d _ _ created hact hd hcreate
  | createNote tierId value start stop =>
    simp only [after]
    cases hcreate : d.createNote tierId value start stop with
    | error => exact hd
    | ok created => exact newNote d _ _ _ _ created hact hd hcreate
  | assignMedia media => exact assign d media hact hd
  | editTier tierId change => cases hbuilds

end Document

end Eaf

import Eaf.Document.Written
import Eaf.Proofs.Discovery
import Eaf.Proofs.Xml.Markup

/-!
# Linguistic types that are declared

A file declares the linguistic types of its tiers behind them, and says of each whether annotations
of the type are aligned in time. The tiers themselves show which annotations the file holds: going
through its pieces, one knows inside the tier of which type one stands, and so the type of every
annotation element. What a declaration says is compared with that. Only a type with annotations in
the file, all of which refer to others, is declared as not aligned.

## Main definitions

* `Eaf.typeDeclarations` — the tags that declare linguistic types.
* `Eaf.notesWithTypes` — the annotation elements of a file, each with the type of its tier.

## Main results

* `Eaf.pairwise_idxOf_distinctBy` — distinct elements stand in the order of their first places.
* `Eaf.Document.notesWithTypes_pieces` — the annotation elements are those of the tiers.
* `Eaf.Document.typeDeclarations_pieces` — the declared types are those of the tiers.
* `Eaf.Document.declarations_of_file` — what a file declares agrees with what it holds.
-/

namespace Eaf

open Xml (Piece)

/-! ### Going through a file -/

/-- The name of the element that a piece begins. -/
def Xml.Piece.begins? : Piece → Option String
  | openTag name _ => some name
  | emptyTag name _ => some name
  | _ => none

/-- The attributes of the tags that declare linguistic types. -/
def typeDeclarations (pieces : List Piece) : List (List (String × String)) :=
  (pieces.filter (·.begins? == some "LINGUISTIC_TYPE")).map (·.attributes)

/-- The linguistic type of the tier inside which one stands behind a piece, given that in front of
it. There is none outside of tiers. -/
def tierTypeBehind (type : Option String) : Piece → Option String
  | .openTag name attributes =>
    if name = "TIER" then attributes.lookup "LINGUISTIC_TYPE_REF" else type
  | .closeTag name => if name = "TIER" then none else type
  | _ => type

/-- Whether an element of a name is an annotation. -/
def isNoteName (name : String) : Bool :=
  name == "ALIGNABLE_ANNOTATION" || name == "REF_ANNOTATION"

/-- The names of the annotation elements that pieces begin, each with the linguistic type of the
tier inside which the element stands. -/
def notesWithTypes : (type : Option String) → List Piece → List (Option String × String)
  | _, [] => []
  | type, piece :: rest =>
    (piece.begins?.toList.filter isNoteName).map (type, ·) ++
      notesWithTypes (tierTypeBehind type piece) rest

/-- Pieces behind which one stands inside a tier of a given type, with the annotation elements that
they begin. -/
def Shows (type : Option String) (pieces : List Piece) (notes : List (Option String × String))
    (behind : Option String) : Prop :=
  notesWithTypes type pieces = notes ∧ pieces.foldl tierTypeBehind type = behind

variable {type behind last : Option String} {pieces more : List Piece}
  {notes others : List (Option String × String)}

theorem Shows.append (h : Shows type pieces notes behind) (hmore : Shows behind more others last) :
    Shows type (pieces ++ more) (notes ++ others) last := by
  obtain ⟨rfl, rfl⟩ := h
  obtain ⟨rfl, rfl⟩ := hmore
  refine ⟨?_, List.foldl_append⟩
  induction pieces generalizing type with
  | nil => rfl
  | cons piece rest ih =>
    rw [List.cons_append, notesWithTypes, notesWithTypes, ih, List.append_assoc, List.foldl_cons]

/-- What pieces show that are made of parts is what the parts show. -/
theorem Shows.flatMap {α : Type} {f : α → List Piece} {g : α → List (Option String × String)}
    {xs : List α} (h : ∀ x ∈ xs, Shows type (f x) (g x) type) :
    Shows type (xs.flatMap f) (xs.flatMap g) type := by
  induction xs with
  | nil => exact ⟨rfl, rfl⟩
  | cons x xs ih =>
    obtain ⟨hx, hxs⟩ := List.forall_mem_cons.1 h
    rw [List.flatMap_cons, List.flatMap_cons]
    exact hx.append (ih hxs)

/-- Elements without content that are no annotations show nothing. -/
theorem shows_emptyTags {α : Type} {name : String} {attributes : α → List (String × String)}
    (hname : isNoteName name = false) (xs : List α) :
    Shows type (xs.map fun x => .emptyTag name (attributes x)) [] type := by
  have hnone : xs.flatMap (fun _ => ([] : List (Option String × String))) = [] := by simp
  rw [List.map_eq_flatMap, ← hnone]
  refine Shows.flatMap fun x _ => ⟨?_, rfl⟩
  simp [notesWithTypes, Piece.begins?, hname]

/-! ### Annotations of a file -/

theorem Note.isNoteName_elementName (note : Note) : isNoteName note.elementName = true := by
  unfold elementName
  split <;> decide

theorem Note.elementName_eq_iff (note : Note) :
    note.elementName = "ALIGNABLE_ANNOTATION" ↔ note.isAligned = true := by
  cases hanchor : note.anchor <;> simp [elementName, isAligned, slotRefs?, hanchor]

theorem Note.elementName_ne {name : String} (note : Note) (h : isNoteName name = false) :
    note.elementName ≠ name := by
  rintro rfl
  rw [note.isNoteName_elementName] at h
  cases h

/-- The pieces of an annotation show the annotation. -/
theorem Note.shows_pieces (note : Note) :
    Shows type note.pieces [(type, note.elementName)] type := by
  have hname := note.isNoteName_elementName
  have hne : note.elementName ≠ "TIER" := note.elementName_ne (by decide)
  have houter : isNoteName "ANNOTATION" = false := by decide
  have hvalue : isNoteName "ANNOTATION_VALUE" = false := by decide
  constructor <;>
    simp [pieces, notesWithTypes, Piece.begins?, tierTypeBehind, hname, hne, houter, hvalue]

/-- The pieces of a tier show its written annotations, under its linguistic type. -/
theorem Tier.shows_pieces (options : WriteOptions) (tier : Tier) :
    Shows type (tier.pieces options)
      ((tier.written options).map fun note => (some tier.linguisticType, note.elementName))
      none := by
  have hopen : Shows type [.openTag "TIER" tier.attributes] [] (some tier.linguisticType) := by
    constructor
    · simp [notesWithTypes, Piece.begins?, isNoteName]
    · simp [tierTypeBehind, attributes, List.lookup_cons]
  have hnotes : Shows (some tier.linguisticType) ((tier.written options).flatMap Note.pieces)
      ((tier.written options).map fun note => (some tier.linguisticType, note.elementName))
      (some tier.linguisticType) := by
    rw [List.map_eq_flatMap]
    exact Shows.flatMap fun note _ => note.shows_pieces
  have hclose : Shows (some tier.linguisticType) [.closeTag "TIER"] [] none := by
    constructor <;> simp [notesWithTypes, Piece.begins?, tierTypeBehind]
  have hall := hopen.append (hnotes.append hclose)
  rwa [List.append_nil, List.nil_append] at hall

namespace Document

variable (document : Document) (options : WriteOptions) (now : String)

/-- The annotation elements of a file are those of its tiers. -/
theorem notesWithTypes_pieces :
    notesWithTypes none (document.pieces options now) =
      document.tiers.flatMap fun tier =>
        (tier.written options).map fun note => (some tier.linguisticType, note.elementName) := by
  have hroot : Shows none
      [.declaration, .openTag "ANNOTATION_DOCUMENT" (rootAttributes options now)] [] none := by
    constructor <;> simp [notesWithTypes, Piece.begins?, tierTypeBehind, isNoteName]
  have hheader : Shows none document.headerPieces [] none := by
    constructor <;>
      simp [headerPieces, propertyPieces, notesWithTypes, Piece.begins?, tierTypeBehind, isNoteName]
  have horder : Shows none document.timeOrderPieces [] none := by
    have hopen : Shows none [.openTag "TIME_ORDER" []] [] none := by
      constructor <;> simp [notesWithTypes, Piece.begins?, tierTypeBehind, isNoteName]
    have hclose : Shows none [.closeTag "TIME_ORDER"] [] none := by
      constructor <;> simp [notesWithTypes, Piece.begins?, tierTypeBehind]
    exact hopen.append ((shows_emptyTags (by decide) document.validSlots).append hclose)
  have htypes : Shows none (document.typePieces options) [] none := by
    unfold typePieces
    split
    · exact shows_emptyTags (by decide) document.declaredTypes
    · exact ⟨rfl, rfl⟩
  have hclose : Shows none [.closeTag "ANNOTATION_DOCUMENT"] [] none := by
    constructor <;> simp [notesWithTypes, Piece.begins?, tierTypeBehind]
  have htiers : Shows none (document.tiers.flatMap (·.pieces options))
      (document.tiers.flatMap fun tier =>
        (tier.written options).map fun note => (some tier.linguisticType, note.elementName)) none :=
    Shows.flatMap fun tier _ => tier.shows_pieces options
  have hall := ((((hroot.append hheader).append horder).append htiers).append htypes).append hclose
  rw [pieces, hall.1, List.nil_append, List.append_nil, List.append_nil]
  rfl

end Document

/-! ### Declarations of a file -/

theorem typeDeclarations_append :
    typeDeclarations (pieces ++ more) = typeDeclarations pieces ++ typeDeclarations more := by
  rw [typeDeclarations, List.filter_append, List.map_append]
  rfl

theorem typeDeclarations_eq_nil (h : ∀ piece ∈ pieces, piece.begins? ≠ some "LINGUISTIC_TYPE") :
    typeDeclarations pieces = [] := by
  rw [typeDeclarations, List.map_eq_nil_iff, List.filter_eq_nil_iff]
  simpa using h

/-- Tags that declare types declare just these. -/
theorem typeDeclarations_emptyTags {α : Type} (attributes : α → List (String × String))
    (xs : List α) :
    typeDeclarations (xs.map fun x => .emptyTag "LINGUISTIC_TYPE" (attributes x)) =
      xs.map attributes := by
  simp [typeDeclarations, List.filter_map, Function.comp_def, Piece.begins?, Piece.attributes]

/-- Nothing is declared inside a tier. -/
theorem Tier.begins?_ne {options : WriteOptions} {tier : Tier} {piece : Piece}
    (h : piece ∈ tier.pieces options) : piece.begins? ≠ some "LINGUISTIC_TYPE" := by
  simp only [pieces, List.mem_cons, List.mem_append, List.mem_flatMap, List.not_mem_nil,
    or_false] at h
  rcases h with rfl | ⟨note, -, hpiece⟩ | rfl
  · simp [Piece.begins?]
  · have hne : note.elementName ≠ "LINGUISTIC_TYPE" := note.elementName_ne (by decide)
    simp only [Note.pieces, List.mem_cons, List.not_mem_nil, or_false] at hpiece
    rcases hpiece with rfl | rfl | rfl | rfl | rfl | rfl | rfl <;> simp [Piece.begins?, hne]
  · simp [Piece.begins?]

/-- Distinct elements stand in the order of their first places in a list. -/
theorem pairwise_idxOf_distinctBy {α : Type} [DecidableEq α] (xs : List α) :
    (distinctBy (fun x => x) xs).Pairwise fun a b => xs.idxOf a < xs.idxOf b := by
  refine (pairwise_distinctBy (fun x => x) xs).imp fun {a b} h => ?_
  obtain ⟨before, after, rfl, hbefore⟩ := h
  have hfirst : b ∉ before ++ [a] := fun hmem => hbefore b hmem rfl
  have hmem : a ∈ before ++ [a] := by simp
  rw [List.append_cons, List.idxOf_append_of_mem hmem, List.idxOf_append_of_notMem hfirst]
  exact Nat.lt_add_right _ (List.idxOf_lt_length_of_mem hmem)

namespace Document

variable (document : Document) (options : WriteOptions) (now : String)

/-- What a file says of a linguistic type. -/
def declaration (type : String) (aligned : Bool) : List (String × String) :=
  [ ("LINGUISTIC_TYPE_ID", type), ("TIME_ALIGNABLE", if aligned then "true" else "false"),
    ("GRAPHIC_REFERENCES", "false") ]

/-- A file declares the types that it is to declare. -/
theorem typeDeclarations_pieces (hdeclare : options.declareTypes = true) :
    typeDeclarations (document.pieces options now) =
      document.declaredTypes.map fun type =>
        declaration type (document.isTypeAligned options type) := by
  have hroot : typeDeclarations
      [.declaration, .openTag "ANNOTATION_DOCUMENT" (rootAttributes options now)] = [] :=
    typeDeclarations_eq_nil (by simp [Piece.begins?])
  have hheader : typeDeclarations document.headerPieces = [] :=
    typeDeclarations_eq_nil (by simp [headerPieces, propertyPieces, Piece.begins?])
  have horder : typeDeclarations document.timeOrderPieces = [] := by
    refine typeDeclarations_eq_nil fun piece hpiece => ?_
    simp only [timeOrderPieces, List.mem_cons, List.mem_append, List.mem_map, List.not_mem_nil,
      or_false] at hpiece
    rcases hpiece with rfl | ⟨slot, -, rfl⟩ | rfl <;> simp [Piece.begins?, slotPiece]
  have htiers : typeDeclarations (document.tiers.flatMap (·.pieces options)) = [] := by
    refine typeDeclarations_eq_nil fun piece hpiece => ?_
    obtain ⟨tier, -, hpiece⟩ := List.mem_flatMap.1 hpiece
    exact Tier.begins?_ne hpiece
  have htypes : typeDeclarations (document.typePieces options) =
      document.declaredTypes.map fun type =>
        declaration type (document.isTypeAligned options type) := by
    rw [typePieces, if_pos hdeclare]
    exact typeDeclarations_emptyTags _ _
  have hclose : typeDeclarations [.closeTag "ANNOTATION_DOCUMENT"] = [] :=
    typeDeclarations_eq_nil (by simp [Piece.begins?])
  simp only [pieces, typeDeclarations_append, hroot, hheader, horder, htiers, htypes, hclose,
    List.nil_append, List.append_nil]

variable {document options}

/-- The annotation elements of a type in a file are those that are written for the type. -/
theorem mem_notesWithTypes_iff {type name : String} :
    (some type, name) ∈ notesWithTypes none (document.pieces options now) ↔
      ∃ note ∈ document.writtenOfType options type, note.elementName = name := by
  rw [notesWithTypes_pieces, writtenOfType]
  simp only [List.mem_flatMap, List.mem_map, List.mem_filter, Prod.mk.injEq, Option.some.injEq,
    beq_iff_eq]
  constructor
  · rintro ⟨tier, htier, note, hnote, htype, hname⟩
    exact ⟨note, ⟨tier, ⟨htier, htype⟩, hnote⟩, hname⟩
  · rintro ⟨note, ⟨tier, ⟨htier, htype⟩, hnote⟩, hname⟩
    exact ⟨tier, htier, note, hnote, htype, hname⟩

/-- A type is declared as not aligned exactly if there are annotation elements of the type in the
file and none of them is aligned. -/
theorem isTypeAligned_eq_false_iff {type : String} :
    document.isTypeAligned options type = false ↔
      (∃ name, (some type, name) ∈ notesWithTypes none (document.pieces options now)) ∧
        (some type, "ALIGNABLE_ANNOTATION") ∉
          notesWithTypes none (document.pieces options now) := by
  simp only [mem_notesWithTypes_iff, Note.elementName_eq_iff]
  rw [isTypeAligned, Bool.or_eq_false_iff, List.isEmpty_eq_false_iff_exists_mem,
    List.any_eq_false]
  constructor
  · rintro ⟨⟨note, hnote⟩, hnone⟩
    exact ⟨⟨_, note, hnote, rfl⟩, fun ⟨other, hother, haligned⟩ => hnone other hother haligned⟩
  · rintro ⟨⟨_, note, hnote, -⟩, hnone⟩
    exact ⟨⟨note, hnote⟩, fun other hother haligned => hnone ⟨other, hother, haligned⟩⟩

/-- Without the annotations that refer to others every type is declared as aligned. -/
theorem isTypeAligned_of_not_includeReferring (h : options.includeReferring = false)
    (type : String) : document.isTypeAligned options type = true := by
  have haligned : ∀ note ∈ document.writtenOfType options type, note.isAligned = true := by
    intro note hnote
    obtain ⟨tier, -, hnote⟩ := List.mem_flatMap.1 hnote
    simpa [h] using (List.mem_filter.1 hnote).2
  unfold isTypeAligned
  cases hnotes : document.writtenOfType options type with
  | nil => rfl
  | cons note rest => simp [haligned note (hnotes ▸ List.mem_cons_self)]

theorem mem_declaredTypes_iff {type : String} :
    type ∈ document.declaredTypes ↔ type ∈ document.tiers.map (·.linguisticType) := by
  refine ⟨mem_of_mem_distinctBy _, fun htype => ?_⟩
  obtain ⟨other, hother, rfl⟩ := exists_mem_distinctBy (fun x => x) htype
  exact hother

/-- The types that a file is to declare, each with whether it is declared as aligned. -/
def declaredAlignments (document : Document) (options : WriteOptions) : List (String × Bool) :=
  document.declaredTypes.map fun type => (type, document.isTypeAligned options type)

theorem map_fst_declaredAlignments :
    (document.declaredAlignments options).map Prod.fst = document.declaredTypes := by
  rw [declaredAlignments, List.map_map]
  exact List.map_id _

theorem mem_declaredAlignments_iff {type : String} {aligned : Bool} :
    (type, aligned) ∈ document.declaredAlignments options ↔
      type ∈ document.tiers.map (·.linguisticType) ∧
        document.isTypeAligned options type = aligned := by
  rw [← mem_declaredTypes_iff, declaredAlignments, List.mem_map]
  constructor
  · rintro ⟨other, hother, heq⟩
    obtain ⟨rfl, haligned⟩ := Prod.mk.inj heq
    exact ⟨hother, haligned⟩
  · rintro ⟨htype, rfl⟩
    exact ⟨type, htype, rfl⟩

/-- **What a file declares agrees with what it holds.** Let linguistic types be declared in the file
of a document. Every type of a tier is declared once, in the order of the first tier of each, and no
other type is. It is declared as not aligned in time exactly if the file has annotation elements
inside tiers of the type, none of which is aligned. So inside no tier whose type is declared as not
aligned there is an aligned annotation, and without the annotations that refer to others every type
is declared as aligned. -/
theorem declarations_of_file (document : Document) (options : WriteOptions) (now : String)
    (hdeclare : options.declareTypes = true) :
    let file := document.pieces options now
    let types := document.tiers.map (·.linguisticType)
    document.toText options now = Xml.write options.indent.toNat file ∧
    ∃ declared : List (String × Bool),
      typeDeclarations file = declared.map (fun (type, aligned) => declaration type aligned) ∧
      (∀ type, type ∈ declared.map Prod.fst ↔ type ∈ types) ∧
      (declared.map Prod.fst).Pairwise (fun a b => types.idxOf a < types.idxOf b) ∧
      (∀ type aligned, (type, aligned) ∈ declared →
        (aligned = false ↔ (∃ name, (some type, name) ∈ notesWithTypes none file) ∧
          (some type, "ALIGNABLE_ANNOTATION") ∉ notesWithTypes none file)) ∧
      (∀ type, (some type, "ALIGNABLE_ANNOTATION") ∈ notesWithTypes none file →
        (type, true) ∈ declared ∧ (type, false) ∉ declared) ∧
      (options.includeReferring = false → ∀ pair ∈ declared, pair.2 = true) := by
  intro file types
  refine ⟨rfl, document.declaredAlignments options, ?_, fun type => ?_, ?_, ?_, ?_, ?_⟩
  · rw [declaredAlignments, List.map_map]
    exact typeDeclarations_pieces document options now hdeclare
  · rw [map_fst_declaredAlignments]
    exact mem_declaredTypes_iff
  · rw [map_fst_declaredAlignments]
    exact pairwise_idxOf_distinctBy types
  · intro type aligned hdeclared
    rw [← (mem_declaredAlignments_iff.1 hdeclared).2]
    exact isTypeAligned_eq_false_iff now
  · intro type hwritten
    obtain ⟨note, hnote, hname⟩ := (mem_notesWithTypes_iff now).1 hwritten
    obtain ⟨tier, htier, -⟩ := List.mem_flatMap.1 hnote
    obtain ⟨htier, htype⟩ := List.mem_filter.1 htier
    have hheld : type ∈ types := List.mem_map.2 ⟨tier, htier, by simpa using htype⟩
    have haligned : document.isTypeAligned options type = true := by
      rw [← Bool.not_eq_false, isTypeAligned_eq_false_iff now]
      exact fun hfalse => hfalse.2 hwritten
    refine ⟨mem_declaredAlignments_iff.2 ⟨hheld, haligned⟩, fun hfalse => ?_⟩
    exact Bool.noConfusion (haligned.symm.trans (mem_declaredAlignments_iff.1 hfalse).2)
  · rintro hleft ⟨type, aligned⟩ hdeclared
    rw [← (mem_declaredAlignments_iff.1 hdeclared).2]
    exact isTypeAligned_of_not_includeReferring hleft type

/-- A document with two tiers of one linguistic type, of which one is empty and the other has only
annotations that refer to others, and a tier of another type with annotations of both kinds. -/
def glossed : Document where
  tiers :=
    [ { id := "empty", linguisticType := "gloss" },
      { id := "words", linguisticType := "text"
        notes :=
          [ { id := "a", value := "see", anchor := .refers "b" },
            { id := "b", value := "word", anchor := .aligned "ts0" "ts1" } ] },
      { id := "glosses", linguisticType := "gloss"
        notes := [{ id := "c", value := "noun", anchor := .refers "b" }] } ]

/-- The type of two tiers is declared once and as not aligned, as no annotation of it is. -/
theorem declarations_of_file_glossed :
    let options : WriteOptions := { includeReferring := true }
    let file := glossed.pieces options "2024-01-01"
    options.declareTypes = true ∧ ∃ declared : List (String × Bool),
      typeDeclarations file = declared.map (fun (type, aligned) => declaration type aligned) ∧
      (∀ type, type ∈ declared.map Prod.fst ↔ type ∈ ["gloss", "text", "gloss"]) ∧
      ("gloss", false) ∈ declared ∧ ("text", true) ∈ declared := by
  intro options file
  have hdeclare : options.declareTypes = true := rfl
  obtain ⟨-, declared, hdeclared, htypes, -, haligned, hholds, -⟩ :=
    declarations_of_file glossed options "2024-01-01" hdeclare
  have hgloss : "gloss" ∈ declared.map Prod.fst := (htypes "gloss").2 (by decide)
  obtain ⟨⟨type, aligned⟩, hmem, rfl⟩ := List.mem_map.1 hgloss
  have hwritten : (∃ name, (some "gloss", name) ∈ notesWithTypes none file) ∧
      (some "gloss", "ALIGNABLE_ANNOTATION") ∉ notesWithTypes none file :=
    ⟨⟨"REF_ANNOTATION", by decide⟩, by decide⟩
  have hfalse : aligned = false := (haligned _ _ hmem).2 hwritten
  exact ⟨hdeclare, declared, hdeclared, htypes, hfalse ▸ hmem, (hholds "text" (by decide)).1⟩

end Document

end Eaf

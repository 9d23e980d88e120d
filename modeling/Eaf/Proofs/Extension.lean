import Eaf.Proofs.Capture
import Eaf.Proofs.Fresh

/-!
# Growth at the ends

Reading files and making objects only adds to a document: slots behind the slots, tiers behind the
tiers, and annotations behind those of a tier. An annotation that joins a tier in front of others
has an id that none had, so that it hides no annotation from a search for the first one with an id.
Hence what a look-up found before is found again, along chains of references of any length.

## Main definitions

* `Eaf.Tier.extend` — a tier with further annotations at its end.
* `Eaf.Document.Extends` — a document that begins with another.
* `Eaf.Document.Answers` — what look-ups in one document find is found again in another.

## Main results

* `Eaf.Document.Extends.after`, `Eaf.Document.Extends.run` — acts that edit no tier extend.
* `Eaf.Document.Extends.answers` — look-ups in a document that extends another.
* `Eaf.Document.growth_at_ends` — what every act of growth adds, and what look-ups find afterwards.
-/

namespace Eaf

/-- A tier with further annotations at its end. -/
def Tier.extend (tier : Tier) (more : List Note) : Tier :=
  { tier with notes := tier.notes ++ more }

theorem Tier.extend_nil (tier : Tier) : tier.extend [] = tier := by
  rw [extend, List.append_nil]

theorem Tier.extend_extend (tier : Tier) (more others : List Note) :
    (tier.extend more).extend others = tier.extend (more ++ others) := by
  simp only [extend, List.append_assoc]

theorem Tier.find?_extend (tier : Tier) (more : List Note) (id : String) :
    (tier.extend more).find? id = (tier.find? id).or (more.find? (·.id == id)) :=
  List.find?_append

/-- A search answers at the first place that has an answer. -/
theorem findSome?_eq_some_iff_getElem? {α β : Type} {f : α → Option β} {xs : List α} {b : β} :
    xs.findSome? f = some b ↔
      ∃ (i : Nat) (x : α), xs[i]? = some x ∧ f x = some b ∧
        ∀ j < i, ∀ y, xs[j]? = some y → f y = none := by
  induction xs with
  | nil => simp
  | cons x xs ih =>
    rw [List.findSome?_cons]
    cases hx : f x with
    | some answer =>
      dsimp only
      constructor
      · rintro ⟨⟩
        exact ⟨0, x, rfl, hx, fun j hj => absurd hj (Nat.not_lt_zero j)⟩
      · rintro ⟨_ | i, y, hy, hanswer, hbefore⟩
        · obtain rfl := Option.some.inj hy
          exact hx.symm.trans hanswer
        · have hnone := hbefore 0 (Nat.succ_pos i) x rfl
          rw [hx] at hnone
          cases hnone
    | none =>
      dsimp only
      rw [ih]
      constructor
      · rintro ⟨i, y, hy, hanswer, hbefore⟩
        refine ⟨i + 1, y, hy, hanswer, ?_⟩
        rintro (_ | j) hj z hz
        · obtain rfl := Option.some.inj hz
          exact hx
        · exact hbefore j (Nat.lt_of_succ_lt_succ hj) z hz
      · rintro ⟨_ | i, y, hy, hanswer, hbefore⟩
        · obtain rfl := Option.some.inj hy
          rw [hx] at hanswer
          cases hanswer
        · exact ⟨i, y, hy, hanswer, fun j hj => hbefore (j + 1) (Nat.succ_lt_succ hj)⟩

namespace Document

/-- A document extends another: it begins with the slots of the other, and every tier of the other
is at its place, with further annotations at its end. The ids of the further annotations are none
that an annotation of the other has. -/
structure Extends (document grown : Document) : Prop where
  slots : document.timeline.toList <+: grown.timeline.toList
  tiers : ∀ (i : Nat) (tier : Tier), document.tiers[i]? = some tier →
    ∃ more, grown.tiers[i]? = some (tier.extend more) ∧
      ∀ note ∈ more, document.hasNote note.id = false

/-- What look-ups in a document find is found in another: the same slot, the same tier and the same
annotation at the same place, and the same extent. -/
structure Answers (document grown : Document) : Prop where
  slot : ∀ id slot, document.slot? id = some slot → grown.slot? id = some slot
  tier : ∀ id tier, document.tier? id = some tier →
    ∃ (i : Nat) (more : List Note), document.tiers[i]? = some tier ∧
      grown.tiers[i]? = some (tier.extend more) ∧
      (∀ j < i, ∀ other : Tier, grown.tiers[j]? = some other → other.id ≠ id) ∧
      grown.tier? id = some (tier.extend more)
  located : ∀ id tier note, document.located? id = some (tier, note) →
    ∃ (i : Nat) (more : List Note), document.tiers[i]? = some tier ∧
      grown.tiers[i]? = some (tier.extend more) ∧
      grown.located? id = some (tier.extend more, note)
  extent : ∀ id extent, document.interval? id = some extent → grown.interval? id = some extent

variable {document middle grown : Document} {created : Created}

/-! ### Extending twice -/

theorem Extends.refl (document : Document) : document.Extends document where
  slots := List.prefix_refl _
  tiers := fun i tier hi => ⟨[], by rwa [Tier.extend_nil], nofun⟩

/-- An id of an annotation stays one. -/
theorem Extends.hasNote (h : document.Extends grown) {id : String}
    (hid : document.hasNote id = true) : grown.hasNote id = true := by
  rw [hasNote_iff] at hid ⊢
  obtain ⟨note, hnote, rfl⟩ := List.mem_map.1 hid
  obtain ⟨tier, htier, hmem⟩ := List.mem_flatMap.1 hnote
  obtain ⟨i, hi⟩ := List.mem_iff_getElem?.1 htier
  obtain ⟨more, hmore, -⟩ := h.tiers i tier hi
  exact List.mem_map_of_mem (List.mem_flatMap.2
    ⟨_, List.mem_of_getElem? hmore, List.mem_append_left more hmem⟩)

theorem Extends.trans (h : document.Extends middle) (h' : middle.Extends grown) :
    document.Extends grown where
  slots := h.slots.trans h'.slots
  tiers := by
    intro i tier hi
    obtain ⟨more, hmore, hfresh⟩ := h.tiers i tier hi
    obtain ⟨others, hothers, hfresh'⟩ := h'.tiers i _ hmore
    refine ⟨more ++ others, by rw [← Tier.extend_extend, hothers], ?_⟩
    refine List.forall_mem_append.2 ⟨hfresh, fun note hnote => ?_⟩
    rw [← Bool.not_eq_true]
    intro hold
    have hmiddle := h.hasNote hold
    rw [hfresh' note hnote] at hmiddle
    cases hmiddle

/-! ### Acts that extend -/

/-- A document to which whole tiers are added extends what it was. -/
theorem Extends.of_tiers_append {added : List Tier}
    (hslots : document.timeline.toList <+: grown.timeline.toList)
    (htiers : grown.tiers = document.tiers ++ added) : document.Extends grown where
  slots := hslots
  tiers := by
    intro i tier hi
    have hlt : i < document.tiers.length := (List.getElem?_eq_some_iff.1 hi).1
    exact ⟨[], by rw [htiers, List.getElem?_append_left hlt, hi, Tier.extend_nil], nofun⟩

theorem absorb_extends (document : Document) (resync : Bool) (content : Content) :
    document.Extends (document.absorb resync content).document :=
  .of_tiers_append ⟨_, (Timeline.toList_insertNew _ _).symm⟩ rfl

theorem createTier_extends {linguisticType locale : String}
    (hcreate : document.createTier linguisticType locale = .ok created) :
    document.Extends created.document := by
  obtain ⟨-, -, counters, hdocument⟩ := createTier_ok hcreate
  rw [hdocument]
  exact .of_tiers_append (List.prefix_refl _) rfl

/-- A new annotation stands at the end of its tier, and no other tier changes. -/
theorem createNote_extends {tierId value : String} {start stop : Int64}
    (hcreate : document.createNote tierId value start stop = .ok created) :
    document.Extends created.document where
  slots := by
    obtain ⟨added, htimeline, -⟩ := createNote_times hcreate
    exact ⟨added, htimeline.symm⟩
  tiers := by
    obtain ⟨first, last, -, -, -, hfree, before, changed, rest, counters, hsplit, -, -,
      hdocument⟩ := createNote_ok hcreate
    intro i tier hi
    rw [hsplit] at hi
    rw [hdocument]
    rcases Nat.lt_trichotomy i before.length with hlt | rfl | hgt
    · rw [List.getElem?_append_left hlt] at hi
      exact ⟨[], by rw [List.getElem?_append_left hlt, hi, Tier.extend_nil], nofun⟩
    · obtain rfl : changed = tier := by simpa using hi
      refine ⟨[{ id := created.id, value, anchor := .aligned first.id last.id }], ?_,
        List.forall_mem_singleton.2 hfree⟩
      simp [Tier.extend, Tier.append]
    · obtain ⟨k, rfl⟩ := Nat.exists_eq_add_of_lt hgt
      refine ⟨[], ?_, nofun⟩
      simpa [List.getElem?_append, Nat.add_assoc, Tier.extend_nil] using hi

/-- An act that edits no tier extends the document. -/
theorem Extends.after (document : Document) {act : Act} (hgrows : act.Grows) :
    document.Extends (document.after act) := by
  refine after_induction (P := document.Extends) (.refl document) (absorb_extends document)
    (fun _ _ _ => createTier_extends) (fun _ _ _ _ _ _ => createNote_extends) ?_ ?_
  · exact fun media => .of_tiers_append (List.prefix_refl _) (List.append_nil _).symm
  · rintro tierId change edited rfl -
    exact hgrows.elim

/-- Acts that edit no tier extend the document, however many they are. -/
theorem Extends.run (document : Document) {acts : List Act} (hgrows : ∀ act ∈ acts, act.Grows) :
    document.Extends (document.run acts) :=
  run_induction (P := document.Extends) (.refl document)
    fun d act hact hd => hd.trans (.after d (hgrows act hact))

/-! ### Look-ups -/

/-- A slot that is found is found again. -/
theorem Extends.slot?_eq_some (h : document.Extends grown) (hfaithful : document.timeline.Faithful)
    (hfaithful' : grown.timeline.Faithful) {id : String} {slot : TimeSlot}
    (hslot : document.slot? id = some slot) : grown.slot? id = some slot := by
  rw [slot?, hfaithful.find?_eq] at hslot
  rw [slot?, hfaithful'.find?_eq]
  exact h.slots.find?_eq_some hslot

/-- The tier that is found under an id is found again, at its place. -/
theorem Extends.tier?_eq_some (h : document.Extends grown) {id : String} {tier : Tier}
    (htier : document.tier? id = some tier) :
    ∃ (i : Nat) (more : List Note), document.tiers[i]? = some tier ∧
      grown.tiers[i]? = some (tier.extend more) ∧
      (∀ j < i, ∀ other : Tier, grown.tiers[j]? = some other → other.id ≠ id) ∧
      grown.tier? id = some (tier.extend more) := by
  rw [tier?, List.find?_eq_findSome?_guard, findSome?_eq_some_iff_getElem?] at htier
  obtain ⟨i, found, hi, hfound, hbefore⟩ := htier
  obtain ⟨rfl, hid⟩ := Option.guard_eq_some_iff.1 hfound
  obtain ⟨more, hmore, -⟩ := h.tiers i found hi
  have hlt : i < document.tiers.length := (List.getElem?_eq_some_iff.1 hi).1
  have hothers : ∀ j < i, ∀ other, grown.tiers[j]? = some other →
      Option.guard (·.id == id) other = none := by
    intro j hj other hother
    obtain ⟨others, hothers, -⟩ := h.tiers j _ (List.getElem?_eq_getElem (Nat.lt_trans hj hlt))
    obtain rfl := Option.some.inj (hothers.symm.trans hother)
    have hnone := hbefore j hj _ (List.getElem?_eq_getElem (Nat.lt_trans hj hlt))
    rw [Option.guard_eq_none_iff] at hnone ⊢
    exact hnone
  refine ⟨i, more, hi, hmore, fun j hj other hother => ?_, ?_⟩
  · simpa [Option.guard_eq_none_iff] using hothers j hj other hother
  · rw [tier?, List.find?_eq_findSome?_guard, findSome?_eq_some_iff_getElem?]
    exact ⟨i, _, hmore, Option.guard_eq_some_iff.2 ⟨rfl, hid⟩, hothers⟩

/-- The annotation that is found under an id is found again, on the tier at its place. -/
theorem Extends.located?_eq_some (h : document.Extends grown) {id : String} {tier : Tier}
    {note : Note} (hlocated : document.located? id = some (tier, note)) :
    ∃ (i : Nat) (more : List Note), document.tiers[i]? = some tier ∧
      grown.tiers[i]? = some (tier.extend more) ∧
      grown.located? id = some (tier.extend more, note) := by
  have hhas : document.hasNote id = true := by
    rw [← Bool.not_eq_false, ← note?_eq_none_iff, note?, hlocated]
    simp
  rw [located?, findSome?_eq_some_iff_getElem?] at hlocated
  obtain ⟨i, found, hi, hfound, hbefore⟩ := hlocated
  obtain ⟨_, hfind, heq⟩ := Option.map_eq_some_iff.1 hfound
  obtain ⟨rfl, rfl⟩ := Prod.mk.inj heq
  obtain ⟨more, hmore, -⟩ := h.tiers i found hi
  have hlt : i < document.tiers.length := (List.getElem?_eq_some_iff.1 hi).1
  refine ⟨i, more, hi, hmore, ?_⟩
  rw [located?, findSome?_eq_some_iff_getElem?]
  refine ⟨i, _, hmore, by rw [Tier.find?_extend, hfind]; rfl, fun j hj other hother => ?_⟩
  have hj' := List.getElem?_eq_getElem (Nat.lt_trans hj hlt)
  obtain ⟨others, hothers, hfresh⟩ := h.tiers j _ hj'
  obtain rfl := Option.some.inj (hothers.symm.trans hother)
  have hold := Option.map_eq_none_iff.1 (hbefore j hj _ hj')
  -- What stands in front of the annotation and is new has another id.
  have hnew : others.find? (·.id == id) = none := by
    refine List.find?_eq_none.2 fun other hmem heq => ?_
    have hfree := hfresh other hmem
    rw [beq_iff_eq.1 heq, hhas] at hfree
    cases hfree
  rw [Tier.find?_extend, hold, hnew]
  rfl

theorem Extends.note?_eq_some (h : document.Extends grown) {id : String} {note : Note}
    (hnote : document.note? id = some note) : grown.note? id = some note := by
  obtain ⟨⟨tier, found⟩, hlocated, rfl⟩ := Option.map_eq_some_iff.1 hnote
  obtain ⟨_, _, -, -, hgrown⟩ := h.located?_eq_some hlocated
  rw [note?, hgrown]
  rfl

/-- Look-ups in a document that extends another find what they found there. -/
theorem Extends.answers (h : document.Extends grown) (hfaithful : document.timeline.Faithful)
    (hfaithful' : grown.timeline.Faithful) : document.Answers grown where
  slot := fun _ _ => h.slot?_eq_some hfaithful hfaithful'
  tier := fun _ _ => h.tier?_eq_some
  located := fun _ _ _ => h.located?_eq_some
  extent := fun _ _ => interval?_eq_some_of_mono
    (fun _ _ => h.slot?_eq_some hfaithful hfaithful') fun _ _ => h.note?_eq_some

/-! ### What every act of growth does -/

/-- A file that is read adds slots and tiers behind those of the document. -/
theorem importTree_prefix {options : ReadOptions} {root : Xml.Node} {imported : Imported}
    (h : (document.importTree options root).result = .ok imported) :
    document.timeline.toList <+: imported.document.timeline.toList ∧
      document.tiers <+: imported.document.tiers := by
  obtain ⟨content, -, hdocument, -⟩ := importTree_ok h
  rw [hdocument]
  exact ⟨(document.absorb_extends _ content).slots, List.prefix_append _ _⟩

/-- **Growth is append-only.** A file that is read adds slots behind the slots and tiers behind the
tiers. A new tier stands behind the others. A new annotation stands at the end of the first tier of
the id, no other tier changes, and new slots stand behind the others. Hence, whatever mix of files
is read and objects are made, every slot and every tier stays where it is, a tier gains annotations
at its end only, and whatever slot, tier, annotation or extent a look-up found is found again. -/
theorem growth_at_ends (h : document.Reachable) (htiers : document.tiers.length < 2 ^ 63)
    (hnotes : document.notes.length < 2 ^ 63) (hslots : document.timeline.size < 2 ^ 63) :
    (∀ options root imported, (document.importTree options root).result = .ok imported →
      document.timeline.toList <+: imported.document.timeline.toList ∧
        document.tiers <+: imported.document.tiers) ∧
    (∀ options text imported, (document.importText options text).result = .ok imported →
      document.timeline.toList <+: imported.document.timeline.toList ∧
        document.tiers <+: imported.document.tiers) ∧
    (∀ linguisticType locale, ∃ created,
      document.createTier linguisticType locale = .ok created ∧
        created.document.timeline = document.timeline ∧
        created.document.tiers =
          document.tiers ++ [{ id := created.id, linguisticType, locale := some locale }]) ∧
    (∀ tierId value start stop, document.hasTier tierId = true → ∃ created,
      document.createNote tierId value start stop = .ok created ∧
        document.timeline.toList <+: created.document.timeline.toList ∧
        ∃ before tier rest note, document.tiers = before ++ tier :: rest ∧ tier.id = tierId ∧
          (∀ other ∈ before, other.id ≠ tierId) ∧ note.id = created.id ∧ note.value = value ∧
          created.document.tiers = before ++ tier.append note :: rest) ∧
    ∀ acts : List Act, (∀ act ∈ acts, act.Grows) →
      document.Extends (document.run acts) ∧ document.Answers (document.run acts) := by
  have hsize : 2 ^ 63 < UInt64.size := by decide
  refine ⟨fun _ _ _ => importTree_prefix, fun options text imported himport => ?_,
    fun linguisticType locale => ?_, fun tierId value start stop htier => ?_,
    fun acts hgrows => ?_⟩
  · obtain ⟨root, -, htree⟩ := importText_ok himport
    exact importTree_prefix htree
  · obtain ⟨created, hcreate⟩ :=
      exists_createTier (Nat.lt_trans htiers hsize) linguisticType locale
    obtain ⟨-, -, counters, hdocument⟩ := createTier_ok hcreate
    exact ⟨created, hcreate, by rw [hdocument], by rw [hdocument]⟩
  · obtain ⟨created, hcreate⟩ := exists_createNote h.faithful (Nat.lt_trans hnotes hsize)
      (Nat.lt_of_le_of_lt hslots hsize) htier value start stop
    obtain ⟨first, last, -, -, -, -, before, tier, rest, counters, hsplit, hid, hbefore,
      hdocument⟩ := createNote_ok hcreate
    exact ⟨created, hcreate, (createNote_extends hcreate).slots, before, tier, rest, _, hsplit, hid,
      hbefore, rfl, rfl, by rw [hdocument]⟩
  · have hextends : document.Extends (document.run acts) := .run document hgrows
    exact ⟨hextends, hextends.answers h.faithful (h.run acts).faithful⟩

/-- A file with a slot, a tier and two annotations whose ids may be taken. -/
def collidingFile : Xml.Node :=
  Outline.root
    { slots := [("ts0", some "9")]
      tiers :=
        [ tierElement "tier1" none [],
          tierElement "words" none [referringElement "an0" (some "an1")] ] }

/-- An annotation joins a tier in front of the one whose extent is looked up, and a file is read
that has a slot, a tier and annotations of the same ids. -/
theorem growth_at_ends_in_front :
    let document := empty.run
      [.createTier "text" "en", .createTier "gloss" "en", .createNote "tier1" "word" 0 100]
    let acts : List Act :=
      [.createNote "tier0" "in front" 100 250, .readTree {} collidingFile]
    document.Reachable ∧ document.tiers.length < 2 ^ 63 ∧ document.notes.length < 2 ^ 63 ∧
      document.timeline.size < 2 ^ 63 ∧ (∀ act ∈ acts, act.Grows) ∧
      document.interval? "an0" = some (0, 100) ∧
      (document.run acts).interval? "an0" = some (0, 100) ∧
      document.Extends (document.run acts) := by
  intro document acts
  have hreachable : document.Reachable := ⟨_, rfl⟩
  have htiers : document.tiers.length < 2 ^ 63 := by decide +kernel
  have hnotes : document.notes.length < 2 ^ 63 := by decide +kernel
  have hslots : document.timeline.size < 2 ^ 63 := by decide +kernel
  have hgrows : ∀ act ∈ acts, act.Grows := by decide
  have hextent : document.interval? "an0" = some (0, 100) := by decide +kernel
  obtain ⟨hextends, hanswers⟩ :=
    (growth_at_ends hreachable htiers hnotes hslots).2.2.2.2 acts hgrows
  exact ⟨hreachable, htiers, hnotes, hslots, hgrows, hextent, hanswers.extent _ _ hextent, hextends⟩

end Document

end Eaf

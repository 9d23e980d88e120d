import Eaf.Proofs.Circle
import Eaf.Proofs.Representation

/-!
# Walks that remember where they were

A chain of references can be followed with an eye on the ids that were visited: the walk is over as
soon as it comes to one of them again. It needs no bound, since each turn adds the id of an
annotation to those that were visited. Nothing is lost by stopping: a chain that ends visits no id
twice, and one that comes back to an id never ends. Hence the walk finds the extent of every
annotation that has one, and a walk that looks for the id at which it began finds out whether that
id is on a circle.

## Main definitions

* `Eaf.Document.Turns` — one turn of a walk that remembers where it was.
* `Eaf.Document.Walks` — the walk to the extent of an annotation, with what it comes to.
* `Eaf.Document.Seeks` — the walk that looks for an id, with its answer.

## Main results

* `Eaf.Document.wellFounded_turns` — every walk comes to an end.
* `Eaf.Document.walks_iff` — the walk to an extent comes to what the bounded one finds.
* `Eaf.Document.seeks_iff` — the walk back to an id finds the circles that the bounded one finds.
* `Eaf.Document.extent_of_walk` — when there is an extent, and when there is none.
-/

namespace Eaf.Document

variable {document : Document} {visited : List String} {links : Nat} {id last goal : String}
  {outcome : Option (Int64 × Int64)} {answer : Bool}

/-! ### Walks end -/

/-- A turn of a walk that remembers where it was: from an id at which it was not before to the one
that the annotation with this id refers to. -/
def Turns (document : Document) (after before : List String × String) : Prop :=
  before.2 ∉ before.1 ∧ document.next? before.2 = some after.2 ∧ after.1 = before.2 :: before.1

/-- Every walk comes to an end: each turn leaves fewer ids of annotations that were not visited. -/
theorem wellFounded_turns (document : Document) : WellFounded document.Turns := by
  refine Subrelation.wf ?_ (measure fun walk : List String × String =>
    ((document.notes.map (·.id)).toFinset \ walk.1.toFinset).card).wf
  rintro ⟨_, target⟩ ⟨visited, id⟩ ⟨hnew, hnext, rfl⟩
  have hid : id ∈ document.notes.map (·.id) := (Follows.single hnext).mem_ids Nat.one_pos
  change (_ \ (id :: visited).toFinset).card < (_ \ visited.toFinset).card
  rw [List.toFinset_cons, Finset.sdiff_insert]
  refine Finset.card_erase_lt_of_mem (Finset.mem_sdiff.2 ⟨List.mem_toFinset.2 hid, ?_⟩)
  rwa [List.mem_toFinset]

/-- What holds of a walk if it holds of the walk after the next turn holds of every walk. -/
theorem walk_induction (document : Document) {P : List String → String → Prop}
    (turn : ∀ visited id,
      (∀ target, id ∉ visited → document.next? id = some target → P (id :: visited) target) →
      P visited id) (visited : List String) (id : String) : P visited id := by
  refine document.wellFounded_turns.induction (C := fun walk => P walk.1 walk.2) (visited, id) ?_
  rintro ⟨visited, id⟩ ih
  exact turn visited id fun target hnew hnext => ih (id :: visited, target) ⟨hnew, hnext, rfl⟩

/-! ### The walk to an extent -/

/-- The walk from an id to an extent when some ids were visited before. It comes to nothing at an
id that was visited and at one that no annotation has. At an aligned annotation it comes to the
extent of that annotation, which has none if a slot is missing. -/
inductive Walks (document : Document) : List String → String → Option (Int64 × Int64) → Prop
  | again {visited : List String} {id : String} (hvisited : id ∈ visited) :
      Walks document visited id none
  | astray {visited : List String} {id : String} (hnew : id ∉ visited)
      (hnone : document.note? id = none) : Walks document visited id none
  | arrives {visited : List String} {id : String} {note : Note} (hnew : id ∉ visited)
      (hnote : document.note? id = some note) (haligned : note.target? = none) :
      Walks document visited id (document.alignedInterval? note)
  | on {visited : List String} {id target : String} {outcome : Option (Int64 × Int64)}
      (hnew : id ∉ visited) (hnext : document.next? id = some target)
      (hrest : Walks document (id :: visited) target outcome) : Walks document visited id outcome

/-- Every walk comes to something. -/
theorem exists_walks (document : Document) (visited : List String) (id : String) :
    ∃ outcome, document.Walks visited id outcome := by
  refine document.walk_induction
    (P := fun visited id => ∃ outcome, document.Walks visited id outcome)
    (fun visited id ih => ?_) visited id
  by_cases hvisited : id ∈ visited
  · exact ⟨none, .again hvisited⟩
  cases hnote : document.note? id with
  | none => exact ⟨none, .astray hvisited hnote⟩
  | some note =>
    cases htarget : note.target? with
    | none => exact ⟨_, .arrives hvisited hnote htarget⟩
    | some target =>
      have hnext : document.next? id = some target := (next?_eq_target? hnote).trans htarget
      obtain ⟨outcome, hrest⟩ := ih target hvisited hnext
      exact ⟨outcome, .on hvisited hnext hrest⟩

/-- An id on a circle has no extent. -/
theorem interval?_eq_none_of_onCycle (h : document.onCycle id = true) :
    document.interval? id = none := by
  refine Option.eq_none_iff_forall_ne_some.2 fun extent hextent => ?_
  obtain ⟨links, last, note, hfollows, hnote, haligned⟩ := interval?_eq_some_iff.1 hextent
  have hend : document.next? last = none :=
    (next?_eq_target? hnote).trans (target?_of_alignedInterval? haligned)
  rw [hfollows.onCycle_eq_false hend] at h
  cases h

/-- A walk comes to the extent, if all ids that were visited lead to where it is. -/
theorem Walks.eq_interval? (h : document.Walks visited id outcome)
    (hvisited : ∀ v ∈ visited, ∃ links, 0 < links ∧ document.Follows links v id) :
    outcome = document.interval? id := by
  induction h with
  | again hmet => exact (interval?_eq_none_of_onCycle (onCycle_iff.2 (hvisited _ hmet))).symm
  | astray _ hnone => exact (interval?_of_note?_eq_none hnone).symm
  | arrives _ hnote haligned => exact (interval?_of_target?_eq_none hnote haligned).symm
  | on _ hnext _ ih =>
    have hlink := Follows.single hnext
    rw [hlink.interval?_eq]
    refine ih (List.forall_mem_cons.2 ⟨⟨1, Nat.one_pos, hlink⟩, fun v hv => ?_⟩)
    obtain ⟨links, hpos, hfollows⟩ := hvisited v hv
    exact ⟨links + 1, Nat.succ_pos links, hfollows.trans hlink⟩

/-- The walk to an extent comes to what the bounded walk finds, and to nothing else. -/
theorem walks_iff : document.Walks [] id outcome ↔ outcome = document.interval? id := by
  constructor
  · exact fun h => h.eq_interval? (List.forall_mem_nil _)
  · rintro rfl
    obtain ⟨outcome, h⟩ := document.exists_walks [] id
    rwa [← h.eq_interval? (List.forall_mem_nil _)]

/-! ### The walk back to an id -/

/-- The walk along references that looks for an id, when some ids were visited before. It does not
find the id if it comes to an id that no annotation has, to one that was visited or to an aligned
annotation. -/
inductive Seeks (document : Document) (goal : String) : List String → String → Bool → Prop
  | astray {visited : List String} {id : String} (hnone : document.note? id = none) :
      Seeks document goal visited id false
  | again {visited : List String} {id : String} (hnote : (document.note? id).isSome)
      (hvisited : id ∈ visited) : Seeks document goal visited id false
  | found {visited : List String} {id : String} (hnew : id ∉ visited)
      (hnext : document.next? id = some goal) : Seeks document goal visited id true
  | ends {visited : List String} {id : String} {note : Note} (hnew : id ∉ visited)
      (hnote : document.note? id = some note) (haligned : note.target? = none) :
      Seeks document goal visited id false
  | on {visited : List String} {id target : String} {answer : Bool} (hnew : id ∉ visited)
      (hnext : document.next? id = some target) (hother : target ≠ goal)
      (hrest : Seeks document goal (id :: visited) target answer) :
      Seeks document goal visited id answer

/-- Every walk that looks for an id has an answer. -/
theorem exists_seeks (document : Document) (goal : String) (visited : List String) (id : String) :
    ∃ answer, document.Seeks goal visited id answer := by
  refine document.walk_induction
    (P := fun visited id => ∃ answer, document.Seeks goal visited id answer)
    (fun visited id ih => ?_) visited id
  cases hnote : document.note? id with
  | none => exact ⟨false, .astray hnote⟩
  | some note =>
    by_cases hvisited : id ∈ visited
    · exact ⟨false, .again (by rw [hnote]; rfl) hvisited⟩
    cases htarget : note.target? with
    | none => exact ⟨false, .ends hvisited hnote htarget⟩
    | some target =>
      have hnext : document.next? id = some target := (next?_eq_target? hnote).trans htarget
      by_cases hgoal : target = goal
      · exact ⟨true, .found hvisited (hgoal ▸ hnext)⟩
      · obtain ⟨answer, hrest⟩ := ih target hvisited hnext
        exact ⟨answer, .on hvisited hnext hgoal hrest⟩

/-- References among some ids that lead to none but these, and not to a goal, never lead to it. -/
theorem Follows.ne_of_closed (h : document.Follows links id last) (hlinks : 0 < links)
    (hid : id ∈ visited)
    (hclosed : ∀ v ∈ visited, ∃ target, document.next? v = some target ∧ target ≠ goal ∧
      target ∈ visited) : last ≠ goal := by
  induction h with
  | here => exact absurd hlinks (Nat.lt_irrefl 0)
  | @link links id target last hnext hrest ih =>
    obtain ⟨target', hnext', hother, htarget⟩ := hclosed id hid
    obtain rfl := Option.some.inj (hnext.symm.trans hnext')
    cases links with
    | zero =>
      cases hrest
      exact hother
    | succ links => exact ih (Nat.succ_pos links) htarget

/-- A walk finds what it looks for exactly if references lead there, if none of the ids that were
visited refers to it and each refers to another of them or to where the walk is. -/
theorem Seeks.eq_true_iff (h : document.Seeks goal visited id answer)
    (hvisited : ∀ v ∈ visited, ∃ target, document.next? v = some target ∧ target ≠ goal ∧
      (target = id ∨ target ∈ visited)) :
    answer = true ↔ ∃ links, 0 < links ∧ document.Follows links id goal := by
  have hstuck {id : String} (hend : document.next? id = none) :
      ¬ ∃ links, 0 < links ∧ document.Follows links id goal := by
    rintro ⟨links, hpos, hfollows⟩
    cases hfollows with
    | here => exact Nat.lt_irrefl 0 hpos
    | link hnext _ => simp [hend] at hnext
  induction h with
  | astray hnone => exact iff_of_false Bool.false_ne_true (hstuck (by rw [next?, hnone]; rfl))
  | ends _ hnote haligned =>
    exact iff_of_false Bool.false_ne_true (hstuck ((next?_eq_target? hnote).trans haligned))
  | found _ hnext => exact iff_of_true rfl ⟨1, Nat.one_pos, .single hnext⟩
  | again _ hmet =>
    -- All that was visited lies on the circle, from which no reference leads to the goal.
    refine iff_of_false Bool.false_ne_true ?_
    rintro ⟨links, hpos, hfollows⟩
    refine hfollows.ne_of_closed hpos hmet (fun v hv => ?_) rfl
    obtain ⟨target, hnext, hother, rfl | htarget⟩ := hvisited v hv
    · exact ⟨target, hnext, hother, hmet⟩
    · exact ⟨target, hnext, hother, htarget⟩
  | @on visited id target answer _ hnext hother _ ih =>
    have hclosed : ∀ v ∈ id :: visited, ∃ named, document.next? v = some named ∧ named ≠ goal ∧
        (named = target ∨ named ∈ id :: visited) := by
      refine List.forall_mem_cons.2 ⟨⟨target, hnext, hother, Or.inl rfl⟩, fun v hv => ?_⟩
      obtain ⟨named, hnamed, hne, rfl | hmem⟩ := hvisited v hv
      · exact ⟨named, hnamed, hne, Or.inr List.mem_cons_self⟩
      · exact ⟨named, hnamed, hne, Or.inr (List.mem_cons_of_mem _ hmem)⟩
    refine (ih hclosed).trans ⟨?_, ?_⟩
    · rintro ⟨links, -, hfollows⟩
      exact ⟨links + 1, Nat.succ_pos links, .link hnext hfollows⟩
    · rintro ⟨links, hpos, hfollows⟩
      cases hfollows with
      | here => exact absurd hpos (Nat.lt_irrefl 0)
      | @link links _ _ _ hnext' hrest =>
        obtain rfl := Option.some.inj (hnext.symm.trans hnext')
        cases links with
        | zero =>
          cases hrest
          exact absurd rfl hother
        | succ links => exact ⟨links + 1, Nat.succ_pos links, hrest⟩

/-- The walk from an id that looks for the same id answers whether it is on a circle. -/
theorem seeks_iff : document.Seeks id [] id answer ↔ answer = document.onCycle id := by
  have hanswer {answer : Bool} (h : document.Seeks id [] id answer) :
      answer = document.onCycle id := by
    rw [Bool.eq_iff_iff, h.eq_true_iff (List.forall_mem_nil _), onCycle_iff]
  constructor
  · exact hanswer
  · rintro rfl
    obtain ⟨answer, h⟩ := document.exists_seeks id [] id
    rwa [← hanswer h]

/-! ### Extents -/

/-- The extent of an aligned annotation is between the times of the slots that it names. -/
theorem alignedInterval?_eq_some_iff (h : document.timeline.Faithful) {note : Note}
    {start stop : Int64} :
    document.alignedInterval? note = some (start, stop) ↔
      ∃ ref ref', note.anchor = .aligned ref ref' ∧
        { id := ref, value := start } ∈ document.timeline.toList ∧
        { id := ref', value := stop } ∈ document.timeline.toList := by
  rw [alignedInterval?, Option.map_eq_some_iff]
  constructor
  · rintro ⟨⟨first, last⟩, hends, heq⟩
    obtain ⟨rfl, rfl⟩ := Prod.mk.inj heq
    obtain ⟨ref, ref', hanchor, hfirst, hlast⟩ := endpoints?_eq_some_iff.1 hends
    obtain ⟨hstart, rfl⟩ := h.find?_eq_some_iff.1 hfirst
    obtain ⟨hstop, rfl⟩ := h.find?_eq_some_iff.1 hlast
    exact ⟨first.id, last.id, hanchor, hstart, hstop⟩
  · rintro ⟨ref, ref', hanchor, hfirst, hlast⟩
    refine ⟨(⟨ref, start⟩, ⟨ref', stop⟩),
      endpoints?_eq_some_iff.2 ⟨ref, ref', hanchor, ?_, ?_⟩, rfl⟩
    · exact h.find?_eq_some_iff.2 ⟨hfirst, rfl⟩
    · exact h.find?_eq_some_iff.2 ⟨hlast, rfl⟩

theorem slot?_eq_none_iff (h : document.timeline.Faithful) {ref : String} :
    document.slot? ref = none ↔ ref ∉ document.timeline.toList.map (·.id) := by
  rw [slot?, h.find?_eq_none_iff, ← Bool.not_eq_true, h.contains_iff]

/-- An aligned annotation has no extent exactly if one of the slots that it names is missing. -/
theorem alignedInterval?_eq_none_iff {note : Note} {ref ref' : String}
    (hanchor : note.anchor = .aligned ref ref') :
    document.alignedInterval? note = none ↔
      document.slot? ref = none ∨ document.slot? ref' = none := by
  rw [alignedInterval?, Option.map_eq_none_iff]
  unfold endpoints? Note.slotRefs?
  cases hfirst : document.slot? ref <;> cases hlast : document.slot? ref' <;>
    simp [hanchor, hfirst, hlast]

/-- An annotation refers to none exactly if it is aligned. -/
theorem target?_eq_none_iff {note : Note} :
    note.target? = none ↔ ∃ ref ref', note.anchor = .aligned ref ref' := by
  unfold Note.target?
  cases hanchor : note.anchor with
  | aligned ref ref' => exact iff_of_true rfl ⟨ref, ref', rfl⟩
  | refers target => exact iff_of_false nofun nofun

/-- There is no extent exactly if the references run in a circle, or come to an id that no
annotation has or to an aligned annotation that lacks a slot. -/
theorem interval?_eq_none_iff :
    document.interval? id = none ↔ ∃ links last, document.Follows links id last ∧
      (document.onCycle last = true ∨ document.note? last = none ∨
        ∃ note ref ref', document.note? last = some note ∧ note.anchor = .aligned ref ref' ∧
          (document.slot? ref = none ∨ document.slot? ref' = none)) := by
  constructor
  · intro hnone
    rcases document.exists_end_or_circle id with
      ⟨links, last, hfollows, hend⟩ | ⟨links, last, hfollows, hcircle⟩
    · refine ⟨links, last, hfollows, Or.inr ?_⟩
      cases hnote : document.note? last with
      | none => exact Or.inl rfl
      | some note =>
        have htarget : note.target? = none := by rwa [next?, hnote] at hend
        obtain ⟨ref, ref', hanchor⟩ := target?_eq_none_iff.1 htarget
        rw [hfollows.interval?_eq, interval?_of_target?_eq_none hnote htarget,
          alignedInterval?_eq_none_iff hanchor] at hnone
        exact Or.inr ⟨note, ref, ref', rfl, hanchor, hnone⟩
    · exact ⟨links, last, hfollows, Or.inl hcircle⟩
  · rintro ⟨links, last, hfollows, hcircle | hnote | ⟨note, ref, ref', hnote, hanchor, hslot⟩⟩
    · rw [hfollows.interval?_eq, interval?_eq_none_of_onCycle hcircle]
    · rw [hfollows.interval?_eq, interval?_of_note?_eq_none hnote]
    · have htarget := target?_eq_none_iff.2 ⟨ref, ref', hanchor⟩
      rw [hfollows.interval?_eq, interval?_of_target?_eq_none hnote htarget,
        alignedInterval?_eq_none_iff hanchor]
      exact hslot

/-- **The extent of an annotation is what its references lead to.** No walk that remembers where it
was goes on for ever, and the one from an id comes to its extent and to nothing else. The extent is
from one time to another exactly if the references lead, in any number of links, to an aligned
annotation that names slots with these times; the walk is never stopped on the way to an aligned
annotation. There is no extent exactly if the references run into a circle, come to an id that no
annotation has, or come to an aligned annotation that names a slot which does not exist. -/
theorem extent_of_walk (h : document.Reachable) (id : String) :
    WellFounded document.Turns ∧
    (∀ outcome, document.Walks [] id outcome ↔ outcome = document.interval? id) ∧
    (∀ start stop, document.interval? id = some (start, stop) ↔
      ∃ links last note ref ref', document.Follows links id last ∧
        document.note? last = some note ∧ note.anchor = .aligned ref ref' ∧
        { id := ref, value := start } ∈ document.timeline.toList ∧
        { id := ref', value := stop } ∈ document.timeline.toList) ∧
    (∀ links last note ref ref', document.Follows links id last →
      document.note? last = some note → note.anchor = .aligned ref ref' →
      document.Walks [] id (document.alignedInterval? note)) ∧
    (document.interval? id = none ↔ ∃ links last, document.Follows links id last ∧
      ((∃ more, 0 < more ∧ document.Follows more last last) ∨ document.note? last = none ∨
        ∃ note ref ref', document.note? last = some note ∧ note.anchor = .aligned ref ref' ∧
          (ref ∉ document.timeline.toList.map (·.id) ∨
            ref' ∉ document.timeline.toList.map (·.id)))) := by
  refine ⟨document.wellFounded_turns, fun outcome => walks_iff, fun start stop => ?_,
    fun links last note ref ref' hfollows hnote hanchor => ?_, ?_⟩
  · rw [interval?_eq_some_iff]
    constructor
    · rintro ⟨links, last, note, hfollows, hnote, hextent⟩
      obtain ⟨ref, ref', hanchor, hslots⟩ := (alignedInterval?_eq_some_iff h.faithful).1 hextent
      exact ⟨links, last, note, ref, ref', hfollows, hnote, hanchor, hslots⟩
    · rintro ⟨links, last, note, ref, ref', hfollows, hnote, hanchor, hslots⟩
      exact ⟨links, last, note, hfollows, hnote,
        (alignedInterval?_eq_some_iff h.faithful).2 ⟨ref, ref', hanchor, hslots⟩⟩
  · have htarget := target?_eq_none_iff.2 ⟨ref, ref', hanchor⟩
    exact walks_iff.2
      (hfollows.interval?_eq.trans (interval?_of_target?_eq_none hnote htarget)).symm
  · simp only [interval?_eq_none_iff, onCycle_iff, slot?_eq_none_iff h.faithful]

/-- A chain of two references across tiers leads to an extent, and one that runs into a circle leads
to none, although it began outside. -/
theorem extent_of_walk_across_tiers :
    let document := empty.run
      [ .createTier "text" "en", .createNote "tier0" "word" 100 250, .createTier "gloss" "en",
        .editTier "tier1" fun tier =>
          { tier with
            notes :=
              [ { id := "first", value := "noun", anchor := .refers "second" },
                { id := "second", value := "word", anchor := .refers "an0" },
                { id := "into", value := "noun", anchor := .refers "round" },
                { id := "round", value := "word", anchor := .refers "round" } ] } ]
    document.Reachable ∧ document.Follows 2 "first" "an0" ∧
      document.Walks [] "first" (some (100, 250)) ∧ document.interval? "first" = some (100, 250) ∧
      document.Walks [] "into" none ∧ document.interval? "into" = none := by
  intro document
  have hreachable : document.Reachable := ⟨_, rfl⟩
  let word : Note := { id := "an0", value := "word", anchor := .aligned "ts0" "ts1" }
  have hword : document.note? "an0" = some word := by decide +kernel
  have hextent : document.alignedInterval? word = some (100, 250) := by decide +kernel
  have hfirst : document.next? "first" = some "second" := by decide +kernel
  have hsecond : document.next? "second" = some "an0" := by decide +kernel
  have hfollows : document.Follows 2 "first" "an0" := .link hfirst (.single hsecond)
  have hnone : document.interval? "into" = none := by decide +kernel
  obtain ⟨-, hfinds, -, harrives, -⟩ := extent_of_walk hreachable "first"
  obtain ⟨-, hfinds', -⟩ := extent_of_walk hreachable "into"
  have hwalk := harrives 2 "an0" word _ _ hfollows hword rfl
  rw [hextent] at hwalk
  exact ⟨hreachable, hfollows, hwalk, ((hfinds _).1 hwalk).symm, (hfinds' _).2 hnone.symm, hnone⟩

end Eaf.Document

import Eaf.Proofs.Counting
import Eaf.Proofs.Elements

/-!
# Counters in the lead

While every file that is read moves the counters past the ids that it adds, and nothing else brings
ids in but making objects, each counter is above all numbers of its family that stand anywhere in
the document. It does not matter what carries the id: an annotation of a file may be called `tier5`,
and the next tier is `tier6` all the same. So the first number that is tried for a new id is free.
A counter at the largest word could not lead, so that none may come to stand there, not even between
the two slots of a new annotation.

## Main definitions

* `Eaf.Document.carried`, `Eaf.Document.takes` — the ids that the objects of one kind carry.
* `Eaf.Document.states` — the documents in the course of a run.
* `Eaf.Document.CountersLead` — documents whose counters are above all numbers of their families.

## Main results

* `Eaf.Counters.mint?_of_ahead` — a counter that leads is the number of the next new id.
* `Eaf.Document.CountersLead.between`, `Eaf.Document.CountersLead.after` — what an act preserves.
* `Eaf.Document.counters_lead` — the counters in every state of a run.
-/

namespace Eaf

/-- A word that is not the largest is below the next one. -/
theorem lt_add_one_of_ne {n : UInt64} (h : n ≠ 18446744073709551615) : n < n + 1 := by
  have hnext : (n + 1).toNat = (n.toNat + 1) % 18446744073709551616 := UInt64.toNat_add n 1
  have hne : n.toNat ≠ 18446744073709551615 := fun heq => h (UInt64.toNat_inj.1 heq)
  have hword := n.toNat_lt
  rw [UInt64.lt_iff_toNat_lt, hnext]
  omega

namespace Counters

/-- No counter stands at the largest word. -/
def HasRoom (counters : Counters) : Prop :=
  ∀ family, counters.get family ≠ 18446744073709551615

instance (counters : Counters) : Decidable counters.HasRoom :=
  decidable_of_iff (∀ family ∈ IdFamily.all, counters.get family ≠ 18446744073709551615)
    ⟨fun h family => h family (by cases family <;> decide), fun h family _ => h family⟩

/-- The counters are ahead of an id: if it is numbered, the counter of its family is above its
number. -/
def Ahead (counters : Counters) (id : String) : Prop :=
  ∀ family n, IdFamily.numbered? id = some (family, n) → n < counters.get family

variable {counters more : Counters} {family : IdFamily} {id : String} {ids : List String}

theorem Ahead.mono (h : counters.Ahead id)
    (hle : ∀ family, counters.get family ≤ more.get family) : more.Ahead id :=
  fun family n hn => UInt64.lt_of_lt_of_le (h family n hn) (hle family)

/-- Counters that were moved past an id are ahead of it, unless one stands at the largest word. -/
theorem ahead_observeAll (counters : Counters) (hroom : (counters.observeAll ids).HasRoom)
    (h : id ∈ ids) : (counters.observeAll ids).Ahead id := by
  intro family n hn
  have hle := successor_le_observeAll counters h hn
  by_cases hlargest : n = 18446744073709551615
  · -- The largest word is its own successor, and the counter would stand there.
    subst hlargest
    have hsame : successor 18446744073709551615 = 18446744073709551615 := by decide
    rw [hsame] at hle
    refine absurd (UInt64.le_antisymm ?_ hle) (hroom family)
    rw [UInt64.le_iff_toNat_le]
    exact Nat.le_of_lt_succ (UInt64.toNat_lt _)
  · have hlt := lt_add_one_of_ne hlargest
    have hnext : successor n = n + 1 := by
      refine if_neg fun hzero => ?_
      rw [hzero] at hlt
      exact UInt64.not_lt_zero hlt
    rw [hnext] at hle
    exact UInt64.lt_of_lt_of_le hlt hle

theorem get_le_set_succ (hroom : counters.HasRoom) (family other : IdFamily) :
    counters.get other ≤ (counters.set (counters.get family + 1) family).get other := by
  by_cases hother : other = family
  · rw [hother, get_set_self]
    exact UInt64.le_of_lt (lt_add_one_of_ne (hroom family))
  · rw [get_set_of_ne counters family other _ hother]
    exact UInt64.le_refl _

/-- Counters that were moved by one step are ahead of the id that this step passed. -/
theorem ahead_number (hroom : counters.HasRoom) (family : IdFamily) :
    (counters.set (counters.get family + 1) family).Ahead
      (family.number (counters.get family)) := by
  intro other n hn
  rw [IdFamily.numbered?_number] at hn
  obtain ⟨rfl, rfl⟩ := Prod.mk.inj (Option.some.inj hn)
  rw [get_set_self]
  exact lt_add_one_of_ne (hroom family)

/-- **A counter that is ahead of all ids in use is the number of the next new id**: no candidate is
skipped, and the counter moves by one step. -/
theorem mint?_of_ahead {taken : String → Bool} (hroom : counters.HasRoom)
    (h : ∀ id, taken id = true → counters.Ahead id) :
    counters.mint? family taken =
      some
        { id := family.number (counters.get family)
          counters := counters.set (counters.get family + 1) family
          notices := [] } := by
  have hfree : taken (family.number (counters.get family)) = false := by
    rw [← Bool.not_eq_true]
    intro htaken
    exact UInt64.lt_irrefl _ (h _ htaken family _ (IdFamily.numbered?_number family _))
  have hsteady : ¬ counters.get family + 1 ≤ counters.get family :=
    UInt64.not_le.2 (lt_add_one_of_ne (hroom family))
  rw [mint?, firstFree_of_free (by decide) hfree, Option.map_some, if_neg hsteady]

end Counters

/-- Whether an act moves the counters past all ids that it brings into a document: files are read
with the counters following their ids, and nothing is edited. -/
def Act.Resyncs : Act → Prop
  | .read options _ => options.resyncCounters = true
  | .readTree options _ => options.resyncCounters = true
  | .editTier _ _ => False
  | _ => True

instance : DecidablePred Act.Resyncs
  | .read options _ => instDecidableEqBool options.resyncCounters true
  | .readTree options _ => instDecidableEqBool options.resyncCounters true
  | .createTier _ _ => instDecidableTrue
  | .createNote _ _ _ _ => instDecidableTrue
  | .assignMedia _ => instDecidableTrue
  | .editTier _ _ => instDecidableFalse

namespace Document

variable {document grown : Document} {created : Created} {family object : IdFamily} {id : String}

/-! ### Ids in use -/

/-- The ids that the objects of one kind carry. -/
def carried (document : Document) : IdFamily → List String
  | .tier => document.tierIds
  | .note => document.notes.map (·.id)
  | .timeSlot => document.timeline.toList.map (·.id)

/-- Whether an object of one kind carries an id, as it is asked for a new id. -/
def takes (document : Document) : IdFamily → String → Bool
  | .tier => document.hasTier
  | .note => document.hasNote
  | .timeSlot => document.timeline.contains

theorem takes_iff (h : document.timeline.Faithful) :
    document.takes object id = true ↔ id ∈ document.carried object := by
  cases object with
  | tier => exact hasTier_iff
  | note => exact hasNote_iff
  | timeSlot => exact h.contains_iff

/-! ### The states of a run -/

/-- The documents in the course of an act, between the one before it and the one after it: a new
annotation finds or makes its slots one after the other. -/
def between (document : Document) : Act → List Document
  | .createNote tierId _ start stop =>
    if document.hasTier tierId then
      match document.slotForTime start with
      | .error _ => []
      | .ok first =>
        match first.document.slotForTime stop with
        | .error _ => [first.document]
        | .ok last => [first.document, last.document]
    else []
  | _ => []

/-- The documents in the course of a run, from the first to the last. -/
def states (document : Document) : List Act → List Document
  | [] => [document]
  | act :: acts => document :: (document.between act ++ (document.after act).states acts)

theorem mem_states_self (document : Document) (acts : List Act) :
    document ∈ document.states acts := by
  cases acts <;> exact List.mem_cons_self

/-! ### Counters that lead -/

/-- The counters of a document are ahead of all ids in it, whatever carries them. -/
structure CountersLead (document : Document) : Prop where
  faithful : document.timeline.Faithful
  ahead : ∀ object, ∀ id ∈ document.carried object, document.counters.Ahead id

theorem CountersLead.mint? (h : document.CountersLead) (hroom : document.counters.HasRoom)
    (family : IdFamily) :
    document.counters.mint? family (document.takes family) =
      some
        { id := family.number (document.counters.get family)
          counters := document.counters.set (document.counters.get family + 1) family
          notices := [] } :=
  Counters.mint?_of_ahead hroom fun _ htaken => h.ahead family _ ((takes_iff h.faithful).1 htaken)

/-- The counters lead after an object was made under the number of its counter. -/
theorem CountersLead.grow (h : document.CountersLead) (hroom : document.counters.HasRoom)
    (family : IdFamily) (hfaithful : grown.timeline.Faithful)
    (hcounters : grown.counters = document.counters.set (document.counters.get family + 1) family)
    (hcarried : ∀ object, ∀ id ∈ grown.carried object,
      id = family.number (document.counters.get family) ∨ id ∈ document.carried object) :
    grown.CountersLead where
  faithful := hfaithful
  ahead := by
    intro object id hid
    rw [hcounters]
    rcases hcarried object id hid with rfl | hold
    · exact Counters.ahead_number hroom family
    · exact (h.ahead object id hold).mono (Counters.get_le_set_succ hroom family)

theorem CountersLead.createTier {linguisticType locale : String} (h : document.CountersLead)
    (hroom : document.counters.HasRoom)
    (hcreate : document.createTier linguisticType locale = .ok created) :
    created.document.CountersLead := by
  have hmint := h.mint? hroom .tier
  rw [takes] at hmint
  rw [Document.createTier, hmint] at hcreate
  cases hcreate
  refine h.grow hroom .tier h.faithful rfl fun object id hid => ?_
  cases object with
  | tier =>
    simp only [carried, tierIds, List.map_append, List.mem_append] at hid
    exact (hid.imp_right List.mem_singleton.1).symm
  | note => exact Or.inr (by simpa [carried, notes] using hid)
  | timeSlot => exact Or.inr hid

theorem CountersLead.slotForTime {value : Int64} (h : document.CountersLead)
    (hroom : document.counters.HasRoom) (hcreate : document.slotForTime value = .ok created) :
    created.document.CountersLead := by
  have hfaithful := slotForTime_faithful h.faithful hcreate
  have hmint := h.mint? hroom .timeSlot
  rw [takes] at hmint
  rw [Document.slotForTime, hmint] at hcreate
  split at hcreate
  next =>
    cases hcreate
    exact h
  next =>
    cases hcreate
    refine h.grow hroom .timeSlot hfaithful rfl fun object id hid => ?_
    cases object with
    | tier => exact Or.inr hid
    | note => exact Or.inr hid
    | timeSlot =>
      simp only [carried] at hid ⊢
      cases hinsert : document.timeline.insert?
          { id := IdFamily.timeSlot.number (document.counters.get .timeSlot), value } with
      | none => exact Or.inr (by simpa [hinsert] using hid)
      | some timeline =>
        rw [hinsert, Option.getD_some, Timeline.toList_insert? hinsert, List.map_append,
          List.mem_append] at hid
        exact (hid.imp_right List.mem_singleton.1).symm

theorem mem_between {tierId value : String} {start stop : Int64} {first last : Created}
    (hcreate : document.createNote tierId value start stop = .ok created)
    (hfirst : document.slotForTime start = .ok first)
    (hlast : first.document.slotForTime stop = .ok last) :
    first.document ∈ document.between (.createNote tierId value start stop) ∧
      last.document ∈ document.between (.createNote tierId value start stop) := by
  have htier : document.hasTier tierId = true := by
    obtain ⟨_, _, -, -, -, -, _, tier, _, _, hsplit, hid, -, -⟩ := createNote_ok hcreate
    rw [hasTier_iff, ← hid, tierIds, hsplit]
    simp
  simp [between, htier, hfirst, hlast]

theorem CountersLead.createNote {tierId value : String} {start stop : Int64}
    (h : document.CountersLead) (hroom : document.counters.HasRoom)
    (hbetween : ∀ state ∈ document.between (.createNote tierId value start stop),
      state.counters.HasRoom)
    (hcreate : document.createNote tierId value start stop = .ok created) :
    created.document.CountersLead := by
  obtain ⟨first, last, mint, hfirst, hlast, htiers, hmint, hid, hcounters, htimeline, -⟩ :=
    createNote_minted hcreate
  obtain ⟨hmem, hmem'⟩ := mem_between hcreate hfirst hlast
  have hlead := h.slotForTime hroom hfirst
  have hlead' := hlead.slotForTime (hbetween _ hmem) hlast
  have hmint' := hlead'.mint? (hbetween _ hmem') .note
  rw [takes, hmint] at hmint'
  obtain rfl := Option.some.inj hmint'
  obtain ⟨_, _, -, -, -, -, before, rest, hold, hgrown⟩ := createNote_notes hcreate
  refine hlead'.grow (hbetween _ hmem') .note (createNote_faithful h.faithful hcreate) hcounters ?_
  intro object id hmem
  cases object with
  | tier =>
    rw [carried, createNote_tierIds hcreate] at hmem
    exact Or.inr (by rwa [carried, tierIds, htiers])
  | note =>
    have hsame : last.document.notes = document.notes := by rw [notes, htiers, ← notes]
    simp only [carried, hgrown, hsame, hold, List.map_append, List.map_cons, List.mem_append,
      List.mem_cons, hid] at hmem ⊢
    exact or_left_comm.1 hmem
  | timeSlot => exact Or.inr (by rwa [carried, htimeline] at hmem)

/-- The ids of a document that a file has joined are its own and those that the file added. -/
theorem mem_carried_absorb {resync : Bool} {content : Content}
    (h : id ∈ (document.absorb resync content).document.carried object) :
    id ∈ document.carried object ∨
      id ∈ (document.timeline.insertNew content.slots).2.map (·.id) ++
        idsOf (splitNew document.tierIds content.tiers).1 := by
  rw [List.mem_append]
  cases object with
  | tier =>
    simp only [carried, absorb, tierIds, List.map_append, List.mem_append] at h
    refine h.imp_right fun hid => Or.inr ?_
    obtain ⟨tier, htier, rfl⟩ := List.mem_map.1 hid
    exact List.mem_flatMap.2 ⟨tier, htier, List.mem_cons_self⟩
  | note =>
    simp only [carried, absorb, notes, List.flatMap_append, List.map_append, List.mem_append] at h
    refine h.imp_right fun hid => Or.inr ?_
    obtain ⟨note, hnote, rfl⟩ := List.mem_map.1 hid
    obtain ⟨tier, htier, hnote⟩ := List.mem_flatMap.1 hnote
    exact List.mem_flatMap.2 ⟨tier, htier, List.mem_cons_of_mem _ (List.mem_map_of_mem hnote)⟩
  | timeSlot =>
    simp only [carried, absorb, Timeline.toList_insertNew, List.map_append, List.mem_append] at h
    exact h.imp_right Or.inl

/-- A file that is read with the counters following its ids keeps them ahead. -/
theorem CountersLead.absorb (h : document.CountersLead) (content : Content)
    (hroom : (document.absorb true content).document.counters.HasRoom) :
    (document.absorb true content).document.CountersLead where
  faithful := absorb_faithful h.faithful true content
  ahead := by
    intro object id hid
    rw [absorb_counters, if_pos rfl] at hroom ⊢
    rcases mem_carried_absorb hid with hold | hadded
    · refine (h.ahead object id hold).mono fun family => ?_
      exact UInt64.le_trans (content.get_le_raise document.counters family)
        (Counters.get_le_observeAll _ _ family)
    · exact Counters.ahead_observeAll _ hroom hadded

/-! ### Acts and runs -/

/-- The counters lead in the course of an act. -/
theorem CountersLead.between (h : document.CountersLead) (hroom : document.counters.HasRoom)
    {act : Act} (hbetween : ∀ state ∈ document.between act, state.counters.HasRoom) :
    ∀ state ∈ document.between act, state.CountersLead := by
  unfold Document.between at hbetween ⊢
  split
  next tierId value start stop =>
    dsimp only at hbetween
    split
    next htier =>
      rw [if_pos htier] at hbetween
      cases hfirst : document.slotForTime start with
      | error => exact List.forall_mem_nil _
      | ok first =>
        have hlead := h.slotForTime hroom hfirst
        rw [hfirst] at hbetween
        dsimp only at hbetween ⊢
        cases hlast : first.document.slotForTime stop with
        | error => exact List.forall_mem_singleton.2 hlead
        | ok last =>
          rw [hlast] at hbetween
          have hlead' := hlead.slotForTime (hbetween _ List.mem_cons_self) hlast
          exact List.forall_mem_cons.2 ⟨hlead, List.forall_mem_singleton.2 hlead'⟩
    next => exact List.forall_mem_nil _
  next => exact List.forall_mem_nil _

/-- The counters lead after an act that moves them past all ids that it brings in. -/
theorem CountersLead.after (h : document.CountersLead) (hroom : document.counters.HasRoom)
    {act : Act} (hresyncs : act.Resyncs)
    (hbetween : ∀ state ∈ document.between act, state.counters.HasRoom)
    (hafter : (document.after act).counters.HasRoom) : (document.after act).CountersLead := by
  cases act with
  | read options text =>
    obtain hsame | ⟨content, hjoined⟩ := document.after_read options text
    · rwa [hsame]
    · rw [hjoined, show options.resyncCounters = true from hresyncs] at hafter ⊢
      exact h.absorb content hafter
  | readTree options root =>
    obtain hsame | ⟨content, hjoined⟩ := document.after_readTree options root
    · rwa [hsame]
    · rw [hjoined, show options.resyncCounters = true from hresyncs] at hafter ⊢
      exact h.absorb content hafter
  | createTier linguisticType locale =>
    simp only [Document.after]
    cases hcreate : document.createTier linguisticType locale with
    | error => exact h
    | ok created => exact h.createTier hroom hcreate
  | createNote tierId value start stop =>
    simp only [Document.after]
    cases hcreate : document.createNote tierId value start stop with
    | error => exact h
    | ok created => exact h.createNote hroom hbetween hcreate
  | assignMedia media => exact ⟨h.faithful, h.ahead⟩
  | editTier => cases hresyncs

/-- The counters lead in every state of a run that begins where they lead. -/
theorem CountersLead.states {acts : List Act} (h : document.CountersLead)
    (hresyncs : ∀ act ∈ acts, act.Resyncs)
    (hroom : ∀ state ∈ document.states acts, state.counters.HasRoom) :
    ∀ state ∈ document.states acts, state.CountersLead := by
  induction acts generalizing document with
  | nil => exact List.forall_mem_singleton.2 h
  | cons act acts ih =>
    obtain ⟨hact, hacts⟩ := List.forall_mem_cons.1 hresyncs
    rw [Document.states, List.forall_mem_cons, List.forall_mem_append] at hroom ⊢
    obtain ⟨hhere, hbetween, hlater⟩ := hroom
    have hafter := h.after hhere hact hbetween (hlater _ (mem_states_self _ acts))
    exact ⟨h, h.between hhere hbetween, ih hafter hacts hlater⟩

/-- **Counters that follow the ids of all files are ahead of every id.** Let files be read into the
empty document with the counters following their ids, and let tiers and annotations be made, such
that no counter ever comes to the largest word. In every state of this work, also between the slots
of a new annotation, every id of a slot, a tier or an annotation that is numbered, in whatever
family, has a number below the counter of that family. So whenever an id is to be made up it is the
one with the number of the counter, which moves by one step. -/
theorem counters_lead {acts : List Act} (hresyncs : ∀ act ∈ acts, act.Resyncs)
    (hroom : ∀ state ∈ empty.states acts, state.counters.HasRoom) :
    ∀ state ∈ empty.states acts,
      (∀ object, ∀ id ∈ state.carried object, ∀ family n,
        IdFamily.numbered? id = some (family, n) → n < state.counters.get family) ∧
      ∀ family, state.counters.mint? family (state.takes family) =
        some
          { id := family.number (state.counters.get family)
            counters := state.counters.set (state.counters.get family + 1) family
            notices := [] } := by
  have hempty : empty.CountersLead :=
    ⟨Timeline.faithful_empty, fun object => by cases object <;> exact List.forall_mem_nil _⟩
  intro state hstate
  have hlead : state.CountersLead := hempty.states hresyncs hroom state hstate
  exact ⟨hlead.ahead, hlead.mint? (hroom state hstate)⟩

/-- A file whose ids are numbered in families that are not their own, one of them with zeros in
front, and that records a counter behind its ids. -/
def crossedFile : Xml.Node :=
  Outline.root
    { counters := ["2"]
      slots := [("an007", some "9")]
      tiers := [tierElement "ts3" none [alignedElement "tier5" "an007" "ts20" none]] }

/-- The counters follow the ids of such a file, whatever they stand on. -/
theorem counters_lead_crossed :
    let acts : List Act :=
      [ .createTier "text" "en", .readTree {} crossedFile, .createTier "gloss" "en",
        .createNote "ts3" "word" 100 9000 ]
    let document := empty.run acts
    (∀ act ∈ acts, act.Resyncs) ∧ (∀ state ∈ empty.states acts, state.counters.HasRoom) ∧
      document.tierIds = ["tier0", "ts3", "tier6"] ∧
      document.notes.map (·.id) = ["tier5", "an8"] ∧
      document.timeline.toList.map (·.id) = ["an007", "ts4"] ∧
      (document.counters.mint? .note (document.takes .note)).map (·.id) = some "an9" := by
  intro acts document
  have hresyncs : ∀ act ∈ acts, act.Resyncs := by decide
  have hroom : ∀ state ∈ empty.states acts, state.counters.HasRoom := by decide +kernel
  have hdocument : document ∈ empty.states acts := by simp [document, acts, states, run]
  have hmint := (counters_lead hresyncs hroom document hdocument).2 .note
  refine ⟨hresyncs, hroom, by decide +kernel, by decide +kernel, by decide +kernel, ?_⟩
  rw [hmint]
  decide +kernel

end Document

end Eaf

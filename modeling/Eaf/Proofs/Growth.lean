import Eaf.Document.Growth
import Eaf.Proofs.Timeline

/-!
# What making an object does

Each of the operations that make a tier, a slot or an annotation is opened here once. The lemmas
say all that an operation does when it succeeds: which ids it takes, what it adds and where, and
that the rest of the document stays as it was. The ids that are taken were free.

## Main results

* `Eaf.Counters.mint?_fresh`, `Eaf.Counters.mint?_number` — a minted id is numbered and not taken.
* `Eaf.Document.createTier_ok` — a new tier stands behind the others.
* `Eaf.Document.slotForTime_ok` — a slot at a time is found or made.
* `Eaf.Document.createNote_ok` — a new annotation stands at the end of its tier.
* `Eaf.Document.createNote_notes` — a new annotation stands among the others.
-/

namespace Eaf

/-- Where two steps succeed together, the first does, and the second does on its answer. -/
theorem exceptBind_ok {ε α β : Type} {first : Except ε α} {next : α → Except ε β} {answer : β}
    (h : (first >>= next) = .ok answer) : ∃ a, first = .ok a ∧ next a = .ok answer := by
  cases first with
  | error => cases h
  | ok a => exact ⟨a, rfl, h⟩

theorem exists_ok_of_isOk {ε α : Type} {answer : Except ε α} (h : answer.isOk = true) :
    ∃ a, answer = .ok a := by
  cases answer with
  | error => cases h
  | ok a => exact ⟨a, rfl⟩

/-- A list is worked through if every item can be. -/
theorem mapM_eq_ok {α β ε : Type} {f : α → Except ε β} {g : α → β} {xs : List α}
    (h : ∀ x ∈ xs, f x = .ok (g x)) : xs.mapM f = .ok (xs.map g) := by
  induction xs with
  | nil => rfl
  | cons x xs ih =>
    obtain ⟨hx, hxs⟩ := List.forall_mem_cons.1 h
    rw [List.mapM_cons, hx, ih hxs]
    rfl

/-! ### Minting -/

theorem firstFree_free {taken : UInt64 → Bool} {count : Nat} {start n : UInt64}
    (h : firstFree taken count start = some n) : taken n = false := by
  induction count generalizing start with
  | zero => cases h
  | succ count ih =>
    rw [firstFree] at h
    split at h
    next => exact ih h
    next hfree =>
      obtain rfl := Option.some.inj h
      simpa using hfree

theorem Counters.mint?_fresh {counters : Counters} {family : IdFamily} {taken : String → Bool}
    {mint : Mint} (h : counters.mint? family taken = some mint) : taken mint.id = false := by
  obtain ⟨n, hn, rfl⟩ := Option.map_eq_some_iff.1 h
  exact firstFree_free hn

theorem Counters.mint?_number {counters : Counters} {family : IdFamily} {taken : String → Bool}
    {mint : Mint} (h : counters.mint? family taken = some mint) :
    ∃ n, mint.id = family.number n := by
  obtain ⟨n, -, rfl⟩ := Option.map_eq_some_iff.1 h
  exact ⟨n, rfl⟩

/-- Minting moves the counter of its family only. -/
theorem Counters.get_of_mint? {counters : Counters} {family other : IdFamily}
    {taken : String → Bool} {mint : Mint} (h : counters.mint? family taken = some mint)
    (hother : other ≠ family) : mint.counters.get other = counters.get other := by
  obtain ⟨n, -, rfl⟩ := Option.map_eq_some_iff.1 h
  exact counters.get_set_of_ne family other (n + 1) hother

namespace Document

variable {document : Document} {created : Created}

/-! ### Editing the first tier of an id -/

/-- A tier that is found splits the tiers: those before it have other ids, and the change applies
to it alone. -/
theorem modifyFirst_eq_some {id : String} {change : Tier → Tier} {tiers changed : List Tier}
    (h : modifyFirst id change tiers = some changed) :
    ∃ before tier rest, tiers = before ++ tier :: rest ∧ tier.id = id ∧
      (∀ other ∈ before, other.id ≠ id) ∧ changed = before ++ change tier :: rest := by
  induction tiers generalizing changed with
  | nil => cases h
  | cons tier rest ih =>
    rw [modifyFirst] at h
    split at h
    next hid =>
      obtain rfl := Option.some.inj h
      exact ⟨[], tier, rest, rfl, hid, by simp, rfl⟩
    next hid =>
      obtain ⟨_, hrest, rfl⟩ := Option.map_eq_some_iff.1 h
      obtain ⟨before, found, behind, rfl, hfound, hbefore, rfl⟩ := ih hrest
      refine ⟨tier :: before, found, behind, rfl, hfound, ?_, rfl⟩
      exact List.forall_mem_cons.2 ⟨hid, hbefore⟩

/-- An edit keeps media, timeline and counters and changes one tier, the first with the id. -/
theorem modifyTier?_eq_some {id : String} {change : Tier → Tier} {edited : Document}
    (h : document.modifyTier? id change = some edited) :
    ∃ before tier rest, document.tiers = before ++ tier :: rest ∧ tier.id = id ∧
      (∀ other ∈ before, other.id ≠ id) ∧
      edited = { document with tiers := before ++ change tier :: rest } := by
  obtain ⟨_, htiers, rfl⟩ := Option.map_eq_some_iff.1 h
  obtain ⟨before, tier, rest, hsplit, hid, hbefore, rfl⟩ := modifyFirst_eq_some htiers
  exact ⟨before, tier, rest, hsplit, hid, hbefore, rfl⟩

/-! ### New tiers -/

/-- A new tier stands behind the others, under a numbered id that no tier had. -/
theorem createTier_ok {linguisticType locale : String}
    (h : document.createTier linguisticType locale = .ok created) :
    (∃ n, created.id = IdFamily.tier.number n) ∧ document.hasTier created.id = false ∧
      ∃ counters, created.document =
        { document with
          tiers := document.tiers ++ [{ id := created.id, linguisticType, locale := some locale }]
          counters } := by
  unfold createTier at h
  split at h
  · cases h
  next mint hmint =>
    cases h
    exact ⟨Counters.mint?_number hmint, Counters.mint?_fresh hmint, mint.counters, rfl⟩

/-! ### Slots for times -/

/-- A slot at a time is the first one there is, or a new one behind the others, under a numbered id
that no slot had. -/
theorem slotForTime_ok {value : Int64} (h : document.slotForTime value = .ok created) :
    (created.document = document ∧ { id := created.id, value } ∈ document.timeline.toList) ∨
      ((∃ n, created.id = IdFamily.timeSlot.number n) ∧
        document.timeline.contains created.id = false ∧
        ∃ timeline counters, document.timeline.insert? { id := created.id, value } = some timeline ∧
          created.document = { document with timeline, counters }) := by
  unfold slotForTime at h
  split at h
  next slot hslot =>
    cases h
    refine Or.inl ⟨rfl, ?_⟩
    rw [Timeline.findAt?, ← Array.find?_toList] at hslot
    have hvalue : slot.value = value := by simpa using List.find?_some hslot
    rw [← hvalue]
    exact List.mem_of_find?_eq_some hslot
  next =>
    split at h
    · cases h
    next mint hmint =>
      cases h
      have hfree := Counters.mint?_fresh hmint
      obtain ⟨timeline, hinsert⟩ := Timeline.insert?_of_not_contains { id := mint.id, value } hfree
      exact Or.inr ⟨Counters.mint?_number hmint, hfree, timeline, mint.counters, hinsert,
        by simp only [hinsert, Option.getD_some]⟩

/-- Finding or making a slot leaves media and tiers alone. -/
theorem slotForTime_frame {value : Int64} (h : document.slotForTime value = .ok created) :
    created.document.media = document.media ∧ created.document.tiers = document.tiers := by
  obtain ⟨hdocument, -⟩ | ⟨-, -, _, _, -, hdocument⟩ := slotForTime_ok h <;>
    rw [hdocument] <;> exact ⟨rfl, rfl⟩

/-- Finding or making a slot moves the counter of slots only. -/
theorem slotForTime_get {value : Int64} {family : IdFamily} (hfamily : family ≠ .timeSlot)
    (h : document.slotForTime value = .ok created) :
    created.document.counters.get family = document.counters.get family := by
  unfold slotForTime at h
  split at h
  · cases h
    rfl
  · split at h
    · cases h
    next mint hmint =>
      cases h
      exact Counters.get_of_mint? hmint hfamily

/-! ### New annotations -/

/-- How an annotation is made: slots for the two times are found or made one after the other, and
the annotation stands at the end of the first tier of the id, under a numbered id that no annotation
had. -/
theorem createNote_ok {tierId value : String} {start stop : Int64}
    (h : document.createNote tierId value start stop = .ok created) :
    ∃ first last : Created, document.slotForTime start = .ok first ∧
      first.document.slotForTime stop = .ok last ∧
      (∃ n, created.id = IdFamily.note.number n) ∧ document.hasNote created.id = false ∧
      ∃ before tier rest counters, document.tiers = before ++ tier :: rest ∧ tier.id = tierId ∧
        (∀ other ∈ before, other.id ≠ tierId) ∧
        created.document =
          { last.document with
            tiers := before ++
              tier.append { id := created.id, value, anchor := .aligned first.id last.id } :: rest
            counters } := by
  unfold createNote at h
  split at h
  · obtain ⟨first, hfirst, h⟩ := exceptBind_ok h
    obtain ⟨last, hlast, h⟩ := exceptBind_ok h
    have htiers : last.document.tiers = document.tiers :=
      (slotForTime_frame hlast).2.trans (slotForTime_frame hfirst).2
    refine ⟨first, last, hfirst, hlast, ?_⟩
    split at h
    · cases h
    next mint hmint =>
      have hfree := Counters.mint?_fresh hmint
      rw [hasNote, htiers, ← hasNote] at hfree
      dsimp only at h
      split at h
      · cases h
      next grown hgrown =>
        cases h
        obtain ⟨before, tier, rest, hsplit, hid, hbefore, rfl⟩ := modifyTier?_eq_some hgrown
        exact ⟨Counters.mint?_number hmint, hfree, before, tier, rest, mint.counters,
          htiers ▸ hsplit, hid, hbefore, rfl⟩
  · cases h

/-- A new annotation leaves the media alone. -/
theorem createNote_media {tierId value : String} {start stop : Int64}
    (h : document.createNote tierId value start stop = .ok created) :
    created.document.media = document.media := by
  obtain ⟨first, last, hfirst, hlast, -, -, _, _, _, _, -, -, -, hdocument⟩ := createNote_ok h
  rw [hdocument]
  exact (slotForTime_frame hlast).1.trans (slotForTime_frame hfirst).1

/-- A new annotation is aligned at the slots for the two times, has an id that no annotation had and
stands among the others, which stay as they were. -/
theorem createNote_notes {tierId value : String} {start stop : Int64}
    (h : document.createNote tierId value start stop = .ok created) :
    ∃ first last : Created, document.slotForTime start = .ok first ∧
      first.document.slotForTime stop = .ok last ∧
      created.document.timeline = last.document.timeline ∧ document.hasNote created.id = false ∧
      ∃ before rest, document.notes = before ++ rest ∧
        created.document.notes = before ++
          { id := created.id, value, anchor := .aligned first.id last.id } :: rest := by
  obtain ⟨first, last, hfirst, hlast, -, hfree, before, tier, rest, counters, hsplit, -, -,
    hdocument⟩ := createNote_ok h
  refine ⟨first, last, hfirst, hlast, by rw [hdocument], hfree,
    before.flatMap (·.notes) ++ tier.notes, rest.flatMap (·.notes), ?_, ?_⟩
  · simp [notes, hsplit]
  · simp [hdocument, notes, Tier.append]

end Document

end Eaf

import Eaf.Document.Import
import Eaf.Proofs.Fresh

/-!
# Counters that never go back

The counter of annotation ids moves forward only. Files that are read raise it past the ids that
join the document and past the counter that they record; making tiers and slots leaves it alone; and
a new annotation takes a number at or after it and leaves it behind this number, unless the search
passes the largest word. That it does is noticed, and happens exactly if no smaller number from the
counter on is free.

## Main definitions

* `Eaf.Counters.Covers` — counters whose counter of annotation ids is past an id.
* `Eaf.Content.raise` — counters after the counter that a file records.

## Main results

* `Eaf.Document.note_le_absorb`, `Eaf.Document.lastUsed_le_absorb` — the counter after reading.
* `Eaf.Document.createNote_minted` — how a new annotation takes its id.
* `Eaf.Document.createNote_mint`, `Eaf.Document.createNote_number` — the id of a new annotation.
* `Eaf.Document.restarts_iff` — when the counter starts over.
-/

namespace Eaf

/-! ### Counters that are ahead -/

namespace Counters

/-- The counter of annotation ids is past an id, if the id is one of an annotation at all. -/
def Covers (counters : Counters) (id : String) : Prop :=
  ∀ n, IdFamily.numbered? id = some (.note, n) → successor n ≤ counters.note

variable {counters : Counters} {id : String} {ids : List String}

theorem get_le_raise (counters : Counters) (family other : IdFamily) (value : UInt64) :
    counters.get other ≤ (counters.raise family value).get other := by
  unfold raise
  split
  next h =>
    by_cases hother : other = family
    · rw [hother, get_set_self]
      exact UInt64.le_of_lt h
    · rw [get_set_of_ne counters family other value hother]
      exact UInt64.le_refl _
  next => exact UInt64.le_refl _

theorem get_le_observe (counters : Counters) (id : String) (family : IdFamily) :
    counters.get family ≤ (counters.observe id).get family := by
  unfold observe
  split
  · exact get_le_raise _ _ _ _
  · exact UInt64.le_refl _

/-- No counter is moved back past ids. -/
theorem get_le_observeAll (counters : Counters) (ids : List String) (family : IdFamily) :
    counters.get family ≤ (counters.observeAll ids).get family := by
  induction ids generalizing counters with
  | nil => exact UInt64.le_refl _
  | cons id ids ih => exact UInt64.le_trans (get_le_observe counters id family) (ih _)

/-- A counter is past every number that it was moved past. -/
theorem successor_le_observeAll {family : IdFamily} {n : UInt64} (counters : Counters)
    (h : id ∈ ids) (hn : IdFamily.numbered? id = some (family, n)) :
    successor n ≤ (counters.observeAll ids).get family := by
  induction ids generalizing counters with
  | nil => cases h
  | cons first ids ih =>
    rcases List.mem_cons.1 h with rfl | h
    · refine UInt64.le_trans ?_ (get_le_observeAll (counters.observe id) ids family)
      rw [observe, hn]
      exact le_get_raise counters family (successor n)
    · exact ih _ h

theorem covers_observeAll (counters : Counters) (h : id ∈ ids) :
    (counters.observeAll ids).Covers id :=
  fun _ => successor_le_observeAll counters h

/-- A counter that is past an id is not moved past it. -/
theorem Covers.note_observe (h : counters.Covers id) :
    (counters.observe id).note = counters.note := by
  unfold observe
  split
  next family n hn =>
    cases family with
    | note =>
      have hle : ¬ counters.get .note < successor n := UInt64.not_lt.2 (h n hn)
      rw [raise, if_neg hle]
    | tier =>
      unfold raise
      split <;> rfl
    | timeSlot =>
      unfold raise
      split <;> rfl
  next => rfl

theorem note_observeAll_of_covers (h : ∀ id ∈ ids, counters.Covers id) :
    (counters.observeAll ids).note = counters.note := by
  induction ids generalizing counters with
  | nil => rfl
  | cons id ids ih =>
    obtain ⟨hid, hids⟩ := List.forall_mem_cons.1 h
    have hsame := hid.note_observe
    refine (ih fun other hother n hn => ?_).trans hsame
    rw [hsame]
    exact hids other hother n hn

theorem note_raise_empty (value : UInt64) : (({} : Counters).raise .note value).note = value := by
  unfold raise
  split
  next => rfl
  next h => exact UInt64.le_antisymm (UInt64.zero_le) (UInt64.not_lt.1 h)

theorem raise_of_le {counters : Counters} {family : IdFamily} {value : UInt64}
    (h : value ≤ counters.get family) : counters.raise family value = counters :=
  if_neg (UInt64.not_lt.2 h)

end Counters

/-! ### The counter that a file records -/

namespace Content

/-- The counters, with that of annotation ids moved to the one that a file records if it is
ahead. -/
def raise (content : Content) (counters : Counters) : Counters :=
  match content.lastUsed with
  | some value => counters.raise .note value
  | none => counters

theorem get_le_raise (content : Content) (counters : Counters) (family : IdFamily) :
    counters.get family ≤ (content.raise counters).get family := by
  unfold raise
  split
  · exact Counters.get_le_raise _ _ _ _
  · exact UInt64.le_refl _

theorem lastUsed_le_raise {content : Content} {value : UInt64} (h : content.lastUsed = some value)
    (counters : Counters) : value ≤ (content.raise counters).note := by
  rw [raise, h]
  exact Counters.le_get_raise counters .note value

/-- A counter that is not behind the recorded one is not moved. -/
theorem raise_of_le {content : Content} {counters : Counters}
    (h : ∀ value, content.lastUsed = some value → value ≤ counters.note) :
    content.raise counters = counters := by
  unfold raise
  split
  next value hvalue => exact Counters.raise_of_le (h value hvalue)
  next => rfl

end Content

/-! ### Searches that start over -/

/-- A word below the successor of another is not above the other, and the other is not the largest
word. -/
theorem le_of_lt_add_one {m n : UInt64} (h : m < n + 1) : m ≤ n ∧ n < n + 1 := by
  have hnext : (n + 1).toNat = (n.toNat + 1) % 18446744073709551616 := UInt64.toNat_add n 1
  rw [UInt64.lt_iff_toNat_lt, hnext] at h
  rw [UInt64.le_iff_toNat_le, UInt64.lt_iff_toNat_lt, hnext]
  have hword := n.toNat_lt
  omega

/-- A search for a free word passes the largest word, or ends there, exactly if no smaller word from
its start on is free. -/
theorem restarts_iff_of_firstFree {taken : UInt64 → Bool} {start n : UInt64}
    (h : firstFree taken UInt64.size start = some n) :
    n + 1 ≤ start ↔ ∀ m, start ≤ m → m.toNat + 1 < UInt64.size → taken m = true := by
  obtain ⟨k, hk, hn, hfree, hbefore⟩ := firstFree_eq_some_iff.1 h
  have hsize : UInt64.size = 18446744073709551616 := rfl
  have hsum : n.toNat = (start.toNat + k) % 18446744073709551616 := by
    rw [hn, UInt64.toNat_add, UInt64.toNat_ofNat_of_lt' hk]
  have hnext : (n + 1).toNat = (n.toNat + 1) % 18446744073709551616 := UInt64.toNat_add n 1
  rw [UInt64.le_iff_toNat_le, hnext]
  rw [hsize] at hk
  constructor
  · intro hle m hm hsmall
    have hword : start + UInt64.ofNat (m.toNat - start.toNat) = m := by
      rw [UInt64.ofNat_sub (UInt64.le_iff_toNat_le.1 hm), UInt64.ofNat_toNat, UInt64.ofNat_toNat,
        UInt64.add_comm, UInt64.sub_add_cancel]
    rw [UInt64.le_iff_toNat_le] at hm
    rw [hsize] at hsmall
    -- The search passed as many words as there are up to the largest, so that it tried this one.
    have hpassed := hbefore (m.toNat - start.toNat) (by omega)
    rwa [hword] at hpassed
  · intro hall
    by_contra hlt
    have hle : start ≤ n := by
      rw [UInt64.le_iff_toNat_le]
      omega
    have htaken := hall n hle (by omega)
    rw [hfree] at htaken
    cases htaken

namespace Document

variable {document : Document} {created : Created}

/-! ### Reading -/

/-- The counters of a document that a file has joined. -/
theorem absorb_counters (document : Document) (resync : Bool) (content : Content) :
    (document.absorb resync content).document.counters =
      if resync then
        (content.raise document.counters).observeAll
          ((document.timeline.insertNew content.slots).2.map (·.id) ++
            idsOf (splitNew document.tierIds content.tiers).1)
      else content.raise document.counters :=
  rfl

theorem raise_le_absorb (document : Document) (resync : Bool) (content : Content) :
    (content.raise document.counters).note ≤
      (document.absorb resync content).document.counters.note := by
  rw [absorb_counters]
  cases resync with
  | false => exact UInt64.le_refl _
  | true => exact Counters.get_le_observeAll _ _ .note

/-- Reading a file does not move the counter of annotation ids back. -/
theorem note_le_absorb (document : Document) (resync : Bool) (content : Content) :
    document.counters.note ≤ (document.absorb resync content).document.counters.note :=
  UInt64.le_trans (content.get_le_raise _ .note) (raise_le_absorb document resync content)

/-- After a file was read, the counter of annotation ids is at least the one that it records. -/
theorem lastUsed_le_absorb (document : Document) (resync : Bool) {content : Content}
    {value : UInt64} (h : content.lastUsed = some value) :
    value ≤ (document.absorb resync content).document.counters.note :=
  UInt64.le_trans (Content.lastUsed_le_raise h _) (raise_le_absorb document resync content)

/-! ### New objects -/

theorem createTier_note {linguisticType locale : String}
    (hcreate : document.createTier linguisticType locale = .ok created) :
    created.document.counters.note = document.counters.note := by
  unfold createTier at hcreate
  split at hcreate
  · cases hcreate
  next mint hmint =>
    cases hcreate
    exact Counters.get_of_mint? hmint (by decide : IdFamily.note ≠ .tier)

/-- Finding or making a slot leaves the counter of annotation ids alone. -/
theorem slotForTime_note {value : Int64} (hcreate : document.slotForTime value = .ok created) :
    created.document.counters.note = document.counters.note ∧
      .counterRestarted .note ∉ created.notices := by
  refine ⟨slotForTime_get (by decide : IdFamily.note ≠ .timeSlot) hcreate, ?_⟩
  unfold slotForTime at hcreate
  split at hcreate
  · cases hcreate
    exact List.not_mem_nil
  · split at hcreate
    · cases hcreate
    next mint hmint =>
      cases hcreate
      obtain ⟨n, -, rfl⟩ := Option.map_eq_some_iff.1 hmint
      dsimp only
      split <;> simp

/-- How a new annotation takes its id: once slots for the two times are found or made, the counters
mint it, and no other slot is made. -/
theorem createNote_minted {tierId value : String} {start stop : Int64}
    (hcreate : document.createNote tierId value start stop = .ok created) :
    ∃ (first last : Created) (mint : Mint), document.slotForTime start = .ok first ∧
      first.document.slotForTime stop = .ok last ∧ last.document.tiers = document.tiers ∧
      last.document.counters.mint? .note last.document.hasNote = some mint ∧
      created.id = mint.id ∧ created.document.counters = mint.counters ∧
      created.document.timeline = last.document.timeline ∧
      created.notices = first.notices ++ last.notices ++ mint.notices := by
  unfold createNote at hcreate
  split at hcreate
  · obtain ⟨first, hfirst, hcreate⟩ := exceptBind_ok hcreate
    obtain ⟨last, hlast, hcreate⟩ := exceptBind_ok hcreate
    have htiers : last.document.tiers = document.tiers :=
      (slotForTime_frame hlast).2.trans (slotForTime_frame hfirst).2
    split at hcreate
    · cases hcreate
    next mint hmint =>
      dsimp only at hcreate
      split at hcreate
      · cases hcreate
      next grown hgrown =>
        cases hcreate
        obtain ⟨_, _, _, -, -, -, rfl⟩ := modifyTier?_eq_some hgrown
        exact ⟨first, last, mint, hfirst, hlast, htiers, hmint, rfl, rfl, rfl, rfl⟩
  · cases hcreate

/-- A new annotation leaves the counter of tiers alone. -/
theorem createNote_tier {tierId value : String} {start stop : Int64}
    (hcreate : document.createNote tierId value start stop = .ok created) :
    created.document.counters.tier = document.counters.tier := by
  obtain ⟨first, last, mint, hfirst, hlast, -, hmint, -, hcounters, -⟩ := createNote_minted hcreate
  have htier : IdFamily.tier ≠ .timeSlot := by decide
  calc created.document.counters.get .tier
    _ = mint.counters.get .tier := by rw [hcounters]
    _ = last.document.counters.get .tier := Counters.get_of_mint? hmint (by decide)
    _ = first.document.counters.get .tier := slotForTime_get htier hlast
    _ = document.counters.get .tier := slotForTime_get htier hfirst

/-- A new annotation takes the first free number from the counter on, which is left behind it; a
restart of the counter is noticed if the number behind is not above the counter. -/
theorem createNote_mint {tierId value : String} {start stop : Int64}
    (hcreate : document.createNote tierId value start stop = .ok created) :
    ∃ n, firstFree (fun n => document.hasNote (IdFamily.note.number n)) UInt64.size
        document.counters.note = some n ∧
      created.id = IdFamily.note.number n ∧ created.document.counters.note = n + 1 ∧
      (.counterRestarted .note ∈ created.notices ↔ n + 1 ≤ document.counters.note) := by
  obtain ⟨first, last, mint, hfirst, hlast, htiers, hmint, hid, hcounters, -, hnotices⟩ :=
    createNote_minted hcreate
  obtain ⟨hcounter, hquiet⟩ := slotForTime_note hfirst
  obtain ⟨hcounter', hquiet'⟩ := slotForTime_note hlast
  have hhas : last.document.hasNote = document.hasNote := by
    funext id
    rw [hasNote, htiers, ← hasNote]
  obtain ⟨n, hn, rfl⟩ := Option.map_eq_some_iff.1 hmint
  have hget : last.document.counters.get .note = document.counters.note :=
    hcounter'.trans hcounter
  rw [hget, hhas] at hn
  refine ⟨n, hn, hid, congrArg Counters.note hcounters, ?_⟩
  rw [hnotices, List.mem_append, List.mem_append]
  dsimp only
  rw [hget]
  by_cases hle : n + 1 ≤ document.counters.note
  · simp [hle]
  · simp [hle, hquiet, hquiet']

/-- A new annotation takes a number from the counter on and leaves the counter past it, unless the
counter starts over. -/
theorem createNote_number {tierId value : String} {start stop : Int64}
    (hcreate : document.createNote tierId value start stop = .ok created)
    (hsteady : .counterRestarted .note ∉ created.notices) :
    ∃ n, created.id = IdFamily.note.number n ∧ document.counters.note ≤ n ∧
      n < created.document.counters.note := by
  obtain ⟨n, -, hid, hcounter, hrestart⟩ := createNote_mint hcreate
  have hahead : document.counters.note < n + 1 :=
    UInt64.not_le.1 fun hle => hsteady (hrestart.2 hle)
  obtain ⟨hle, hlt⟩ := le_of_lt_add_one hahead
  exact ⟨n, hid, hle, by rwa [hcounter]⟩

/-- The counter of annotation ids starts over at a new annotation exactly if all numbers from it on
are taken, but perhaps for the largest word. -/
theorem restarts_iff {tierId value : String} {start stop : Int64}
    (hcreate : document.createNote tierId value start stop = .ok created) :
    .counterRestarted .note ∈ created.notices ↔
      ∀ n, document.counters.note ≤ n → n.toNat + 1 < UInt64.size →
        document.hasNote (IdFamily.note.number n) = true := by
  obtain ⟨n, hn, -, -, hrestart⟩ := createNote_mint hcreate
  rw [hrestart, restarts_iff_of_firstFree hn]

end Document

end Eaf

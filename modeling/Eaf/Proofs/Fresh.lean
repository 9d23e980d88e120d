import Mathlib.Algebra.Group.Nat.Defs
import Mathlib.Data.List.Dedup
import Mathlib.Data.List.Perm.Subperm
import Eaf.Proofs.Representation

/-!
# New ids

A new object takes the first numbered id of its family that is free, and the search for it goes
through all words. There are more words than a document of any real size has ids, so that a free
one is found, wherever the counter stands: counters may be behind the ids of the document, far ahead
of them or about to wrap around to zero. The ids of a document that is built on are distinct at the
end if they were at the beginning.

## Main definitions

* `Eaf.IdFamily.numbers` — the ids of a family, numbered from zero.

## Main results

* `Eaf.firstFree_eq_none_iff`, `Eaf.firstFree_eq_some_iff` — when a search fails and what it finds.
* `Eaf.Counters.mint?_of_free` — a new id has the number at the counter if that is free.
* `Eaf.Counters.exists_mint?_of_free`, `Eaf.Counters.exists_mint?` — a new id is found if one is
  free, so if fewer ids are taken than there are words.
* `Eaf.Document.slotForTime_times` — a slot is made exactly for a time that no slot holds.
* `Eaf.Document.createNote_times` — the times that a new annotation adds.
* `Eaf.Document.fresh_of_creation` — creations succeed and take ids that were free.
-/

namespace Eaf

/-! ### The search for a free word -/

theorem word_add_succ (start : UInt64) (k : Nat) :
    start + 1 + UInt64.ofNat k = start + UInt64.ofNat (k + 1) := by
  rw [UInt64.ofNat_add, UInt64.add_assoc, UInt64.add_comm 1]
  rfl

/-- A search for a free word fails exactly if all words that it tries are taken. -/
theorem firstFree_eq_none_iff {taken : UInt64 → Bool} {count : Nat} {start : UInt64} :
    firstFree taken count start = none ↔
      ∀ k < count, taken (start + UInt64.ofNat k) = true := by
  induction count generalizing start with
  | zero => simp [firstFree]
  | succ count ih =>
    rw [firstFree]
    split
    next htaken =>
      rw [ih]
      simp only [word_add_succ]
      constructor
      · rintro h (_ | k) hk
        · simpa using htaken
        · exact h k (Nat.lt_of_succ_lt_succ hk)
      · exact fun h k hk => h (k + 1) (Nat.succ_lt_succ hk)
    next hfree =>
      refine iff_of_false (by simp) fun h => hfree ?_
      simpa using h 0 (Nat.succ_pos count)

/-- A search for a free word finds the first one in cyclic order. -/
theorem firstFree_eq_some_iff {taken : UInt64 → Bool} {count : Nat} {start n : UInt64} :
    firstFree taken count start = some n ↔
      ∃ k < count, n = start + UInt64.ofNat k ∧ taken n = false ∧
        ∀ j < k, taken (start + UInt64.ofNat j) = true := by
  induction count generalizing start with
  | zero => simp [firstFree]
  | succ count ih =>
    have hstart : start + UInt64.ofNat 0 = start := UInt64.add_zero start
    rw [firstFree]
    split
    next htaken =>
      rw [ih]
      simp only [word_add_succ]
      constructor
      · rintro ⟨k, hk, hn, hfree, hbefore⟩
        refine ⟨k + 1, Nat.succ_lt_succ hk, hn, hfree, ?_⟩
        rintro (_ | j) hj
        · rwa [hstart]
        · exact hbefore j (Nat.lt_of_succ_lt_succ hj)
      · rintro ⟨_ | k, hk, hn, hfree, hbefore⟩
        · rw [hn, hstart, htaken] at hfree
          cases hfree
        · exact ⟨k, Nat.lt_of_succ_lt_succ hk, hn, hfree,
            fun j hj => hbefore (j + 1) (Nat.succ_lt_succ hj)⟩
    next hfree =>
      constructor
      · rintro ⟨⟩
        exact ⟨0, Nat.succ_pos count, hstart.symm, by simpa using hfree,
          fun j hj => absurd hj (Nat.not_lt_zero j)⟩
      · rintro ⟨_ | k, -, hn, -, hbefore⟩
        · rw [hn, hstart]
        · have htaken := hbefore 0 (Nat.succ_pos k)
          rw [hstart] at htaken
          exact absurd htaken hfree

/-- A search for a free word ends where it starts if that word is free. -/
theorem firstFree_of_free {taken : UInt64 → Bool} {count : Nat} {start : UInt64}
    (hcount : 0 < count) (hfree : taken start = false) :
    firstFree taken count start = some start :=
  firstFree_eq_some_iff.2 ⟨0, hcount, (UInt64.add_zero start).symm, hfree,
    fun j hj => absurd hj (Nat.not_lt_zero j)⟩

/-! ### Ids numbered from zero -/

namespace IdFamily

/-- The ids of a family with the numbers from zero up to a given one. -/
def numbers (family : IdFamily) (count : Nat) : List String :=
  (List.range count).map fun n => family.number (UInt64.ofNat n)

variable {family : IdFamily} {count : Nat} {n : UInt64}

@[simp] theorem length_numbers : (family.numbers count).length = count := by
  rw [numbers, List.length_map, List.length_range]

/-- The number behind the others is one more. -/
theorem numbers_succ (hn : n.toNat = count) :
    family.numbers (count + 1) = family.numbers count ++ [family.number n] := by
  rw [numbers, List.range_succ, List.map_append, List.map_singleton, ← hn, UInt64.ofNat_toNat]
  rfl

/-- As many ids as there are words are distinct. -/
theorem nodup_numbers (hcount : count ≤ UInt64.size) : (family.numbers count).Nodup := by
  refine List.Nodup.map_on (fun i hi j hj h => ?_) List.nodup_range
  have hword := congrArg UInt64.toNat (family.number_injective h)
  rwa [UInt64.toNat_ofNat_of_lt' (Nat.lt_of_lt_of_le (List.mem_range.1 hi) hcount),
    UInt64.toNat_ofNat_of_lt' (Nat.lt_of_lt_of_le (List.mem_range.1 hj) hcount)] at hword

theorem number_notMem_numbers (hn : n.toNat = count) : family.number n ∉ family.numbers count := by
  have hnodup : (family.numbers (count + 1)).Nodup := nodup_numbers (hn ▸ n.toNat_lt)
  rw [numbers_succ hn, List.nodup_append_comm] at hnodup
  exact (List.nodup_cons.1 hnodup).1

/-- A list that holds all numbered ids of a family is as long as there are words. -/
theorem size_le_length (family : IdFamily) {used : List String}
    (h : ∀ n, family.number n ∈ used) : UInt64.size ≤ used.length := by
  have hsubset : family.numbers UInt64.size ⊆ used := by
    intro id hid
    obtain ⟨k, -, rfl⟩ := List.mem_map.1 hid
    exact h _
  have hle := (List.subperm_of_subset (nodup_numbers (Nat.le_refl _)) hsubset).length_le
  rwa [length_numbers] at hle

end IdFamily

/-! ### New ids are found -/

/-- A new id is that of the number at the counter if no object has it. -/
theorem Counters.mint?_of_free {counters : Counters} {family : IdFamily} {taken : String → Bool}
    (hfree : taken (family.number (counters.get family)) = false) :
    ∃ notices, counters.mint? family taken =
      some
        { id := family.number (counters.get family)
          counters := counters.set (counters.get family + 1) family
          notices } := by
  rw [mint?, firstFree_of_free (by decide) hfree]
  exact ⟨_, rfl⟩

/-- A new id is found if some id of the family is free. -/
theorem Counters.exists_mint?_of_free (counters : Counters) {family : IdFamily}
    {taken : String → Bool} {n : UInt64} (hfree : taken (family.number n) = false) :
    ∃ mint, counters.mint? family taken = some mint := by
  rw [← Option.ne_none_iff_exists', mint?, Ne, Option.map_eq_none_iff, firstFree_eq_none_iff]
  intro hall
  -- Every word is tried: it lies as many steps behind the counter as their difference says.
  have hstep := hall (n - counters.get family).toNat (UInt64.toNat_lt _)
  rw [UInt64.ofNat_toNat, UInt64.add_comm, UInt64.sub_add_cancel, hfree] at hstep
  cases hstep

/-- A new id is found if fewer ids are taken than there are words. -/
theorem Counters.exists_mint? (counters : Counters) (family : IdFamily) {taken : String → Bool}
    {used : List String} (htaken : ∀ id, taken id = true → id ∈ used)
    (hlength : used.length < UInt64.size) : ∃ mint, counters.mint? family taken = some mint := by
  by_cases hfree : ∃ n, taken (family.number n) = false
  · obtain ⟨n, hn⟩ := hfree
    exact counters.exists_mint?_of_free hn
  · refine absurd (family.size_le_length fun n => htaken _ ?_) (Nat.not_le_of_lt hlength)
    rw [← Bool.not_eq_false]
    exact fun hn => hfree ⟨n, hn⟩

namespace Document

variable {document : Document} {created : Created}

theorem hasNote_iff {id : String} :
    document.hasNote id = true ↔ id ∈ document.notes.map (·.id) := by
  rw [notes, List.map_flatMap]
  simp [hasNote]

/-! ### Creations succeed -/

/-- A tier is made if there are fewer tiers than words. -/
theorem exists_createTier (h : document.tiers.length < UInt64.size)
    (linguisticType locale : String) :
    ∃ created, document.createTier linguisticType locale = .ok created := by
  obtain ⟨mint, hmint⟩ := document.counters.exists_mint? .tier (fun _ => hasTier_iff.1)
    (by rwa [tierIds, List.length_map])
  rw [createTier, hmint]
  exact ⟨_, rfl⟩

/-- A slot is found or made if there are fewer slots than words. -/
theorem exists_slotForTime (hfaithful : document.timeline.Faithful)
    (h : document.timeline.size < UInt64.size) (value : Int64) :
    ∃ created, document.slotForTime value = .ok created := by
  unfold slotForTime
  split
  · exact ⟨_, rfl⟩
  · obtain ⟨mint, hmint⟩ := document.counters.exists_mint? .timeSlot
      (fun _ => hfaithful.contains_iff.1) (by rwa [List.length_map, Timeline.length_toList])
    rw [hmint]
    exact ⟨_, rfl⟩

/-- A slot is made exactly for a time that no slot holds, and it stands behind the others. -/
theorem slotForTime_times {time : Int64} (hcreate : document.slotForTime time = .ok created) :
    ∃ added : List TimeSlot,
      created.document.timeline.toList = document.timeline.toList ++ added ∧
      added.map (·.value) = [time].filter (· ∉ document.timeline.times) := by
  by_cases hheld : time ∈ document.timeline.times
  · have hfound : document.timeline.findAt? time ≠ none :=
      fun hnone => Timeline.findAt?_eq_none_iff.1 hnone hheld
    obtain ⟨slot, hslot⟩ := Option.ne_none_iff_exists'.1 hfound
    rw [slotForTime, hslot] at hcreate
    cases hcreate
    exact ⟨[], (List.append_nil _).symm, by simp [hheld]⟩
  · obtain ⟨-, hmem⟩ | ⟨-, -, timeline, counters, hinsert, hdocument⟩ := slotForTime_ok hcreate
    · exact absurd (List.mem_map_of_mem hmem) hheld
    · refine ⟨[{ id := created.id, value := time }], ?_, by simp [hheld]⟩
      rw [hdocument]
      exact Timeline.toList_insert? hinsert

/-- A tier that is there can be changed. -/
theorem exists_modifyFirst {id : String} {tiers : List Tier} (h : ∃ tier ∈ tiers, tier.id = id)
    (change : Tier → Tier) : ∃ changed, modifyFirst id change tiers = some changed := by
  induction tiers with
  | nil => simp at h
  | cons tier rest ih =>
    rw [modifyFirst]
    split
    next => exact ⟨_, rfl⟩
    next hne =>
      obtain ⟨other, hmem, hid⟩ := h
      obtain ⟨changed, hchanged⟩ :=
        ih ⟨other, (List.mem_cons.1 hmem).resolve_left fun heq => hne (heq ▸ hid), hid⟩
      exact ⟨tier :: changed, by rw [hchanged, Option.map_some]⟩

/-- An annotation is made on every tier that is there if there are fewer annotations than words and
fewer slots, also after a slot was made for its start. -/
theorem exists_createNote (hfaithful : document.timeline.Faithful)
    (hnotes : document.notes.length < UInt64.size)
    (hslots : document.timeline.size + 1 < UInt64.size) {tierId : String}
    (htier : document.hasTier tierId = true) (value : String) (start stop : Int64) :
    ∃ created, document.createNote tierId value start stop = .ok created := by
  obtain ⟨first, hfirst⟩ := exists_slotForTime hfaithful (Nat.lt_of_succ_lt hslots) start
  obtain ⟨added, htimeline, htimes⟩ := slotForTime_times hfirst
  have hsize : first.document.timeline.size < UInt64.size := by
    have hadded : added.length ≤ 1 := by
      rw [← List.length_map TimeSlot.value, htimes]
      exact List.length_filter_le _ _
    rw [Timeline.size_of_append htimeline]
    omega
  obtain ⟨last, hlast⟩ := exists_slotForTime (slotForTime_faithful hfaithful hfirst) hsize stop
  have htiers : last.document.tiers = document.tiers :=
    (slotForTime_frame hlast).2.trans (slotForTime_frame hfirst).2
  have hids : last.document.notes = document.notes := by rw [notes, htiers, ← notes]
  obtain ⟨mint, hmint⟩ := last.document.counters.exists_mint? .note (fun _ => hasNote_iff.1)
    (by rwa [hids, List.length_map])
  obtain ⟨tier, hmem, hid⟩ := List.mem_map.1 (hasTier_iff.1 htier)
  obtain ⟨changed, hchanged⟩ := exists_modifyFirst ⟨tier, htiers ▸ hmem, hid⟩
    (·.append { id := mint.id, value, anchor := .aligned first.id last.id })
  refine ⟨{ id := mint.id
            document := { last.document with tiers := changed, counters := mint.counters }
            notices := first.notices ++ last.notices ++ mint.notices }, ?_⟩
  simp [createNote, htier, hfirst, hlast, hmint, modifyTier?, hchanged, bind, Except.bind]

/-! ### What creations add -/

/-- Of two elements, those that are missing when they are added to a list one after the other are
the distinct ones that are not in it. -/
theorem filter_notMem_append_filter {α : Type} [DecidableEq α] (xs : List α) (a b : α) :
    [a].filter (· ∉ xs) ++ [b].filter (· ∉ xs ++ [a].filter (· ∉ xs)) =
      [a, b].dedup.filter (· ∉ xs) := by
  by_cases hab : a = b
  · subst hab
    by_cases ha : a ∈ xs <;> simp [ha]
  · by_cases ha : a ∈ xs <;> by_cases hb : b ∈ xs <;> simp [ha, hb, hab, Ne.symm hab]

/-- A new annotation adds the distinct ones of its two times that no slot held, behind the slots
that there are. -/
theorem createNote_times {tierId value : String} {start stop : Int64}
    (hcreate : document.createNote tierId value start stop = .ok created) :
    ∃ added : List TimeSlot,
      created.document.timeline.toList = document.timeline.toList ++ added ∧
      added.map (·.value) = [start, stop].dedup.filter (· ∉ document.timeline.times) := by
  obtain ⟨first, last, hfirst, hlast, hsame, -⟩ := createNote_notes hcreate
  obtain ⟨added, htimeline, htimes⟩ := slotForTime_times hfirst
  obtain ⟨more, htimeline', htimes'⟩ := slotForTime_times hlast
  refine ⟨added ++ more, by rw [hsame, htimeline', htimeline, List.append_assoc], ?_⟩
  have hheld : first.document.timeline.times =
      document.timeline.times ++ [start].filter (· ∉ document.timeline.times) := by
    rw [Timeline.times, htimeline, List.map_append, htimes, ← Timeline.times]
  rw [List.map_append, htimes, htimes', hheld, filter_notMem_append_filter]

/-- A new annotation keeps the ids of annotations distinct. -/
theorem createNote_ids_nodup {tierId value : String} {start stop : Int64}
    (h : (document.notes.map (·.id)).Nodup)
    (hcreate : document.createNote tierId value start stop = .ok created) :
    (created.document.notes.map (·.id)).Nodup := by
  obtain ⟨_, _, -, -, -, hfree, before, rest, hold, hgrown⟩ := createNote_notes hcreate
  have hnew : created.id ∉ document.notes.map (·.id) := by
    rw [← hasNote_iff, hfree]
    exact Bool.false_ne_true
  rw [hgrown, (List.perm_middle.map _).nodup_iff, ← hold]
  exact List.nodup_cons.2 ⟨hnew, h⟩

/-- Distinct ids of tiers and distinct ids of annotations stay distinct while a document is built
on. -/
theorem ids_nodup_of_builds {acts : List Act} (hbuilds : ∀ act ∈ acts, act.Builds)
    (h : document.tierIds.Nodup ∧ (document.notes.map (·.id)).Nodup) :
    (document.run acts).tierIds.Nodup ∧ ((document.run acts).notes.map (·.id)).Nodup := by
  refine build_induction
    (P := fun d => d.tierIds.Nodup ∧ (d.notes.map (·.id)).Nodup) hbuilds h ?_ ?_ ?_
  · rintro d linguisticType locale created - ⟨htiers, hnotes⟩ hcreate
    refine ⟨createTier_tierIds_nodup htiers hcreate, ?_⟩
    obtain ⟨-, -, counters, hdocument⟩ := createTier_ok hcreate
    simpa [hdocument, notes] using hnotes
  · rintro d tierId value start stop created - ⟨htiers, hnotes⟩ hcreate
    exact ⟨(createNote_tierIds hcreate).symm ▸ htiers, createNote_ids_nodup hnotes hcreate⟩
  · exact fun d media _ hd => hd

/-! ### New ids never collide -/

/-- **New ids are free ids.** Let a document be reachable, its counters stand anywhere, and its
tiers, annotations and slots be fewer than half the words. Then a tier is made, under an id that no
tier had, and on every tier an annotation is made, under an id that no annotation had; the slots
that it adds have distinct ids that no slot had. Hence no sequence of creations makes two tiers or
two annotations share an id. -/
theorem fresh_of_creation {base : Document} (h : base.Reachable) (counters : Counters)
    (htiers : base.tiers.length < 2 ^ 63) (hnotes : base.notes.length < 2 ^ 63)
    (hslots : base.timeline.size < 2 ^ 63) :
    let document := { base with counters }
    (∀ linguisticType locale, ∃ created,
      document.createTier linguisticType locale = .ok created ∧
        created.id ∉ document.tierIds) ∧
    (∀ tierId value start stop, document.hasTier tierId = true → ∃ created added,
      document.createNote tierId value start stop = .ok created ∧
        created.id ∉ document.notes.map (·.id) ∧
        created.document.timeline.toList = document.timeline.toList ++ added ∧
        (∀ slot ∈ added, slot.id ∉ document.timeline.toList.map (·.id)) ∧
        (added.map (·.id)).Nodup) ∧
    ∀ acts : List Act, (∀ act ∈ acts, act.Builds) → document.tierIds.Nodup →
      (document.notes.map (·.id)).Nodup →
      (document.run acts).tierIds.Nodup ∧ ((document.run acts).notes.map (·.id)).Nodup := by
  intro document
  have hfaithful : document.timeline.Faithful := h.faithful
  have hsize : 2 ^ 63 < UInt64.size := by decide
  refine ⟨fun linguisticType locale => ?_, fun tierId value start stop htier => ?_,
    fun acts hbuilds htierIds hnoteIds => ids_nodup_of_builds hbuilds ⟨htierIds, hnoteIds⟩⟩
  · have hfew : document.tiers.length < UInt64.size := Nat.lt_trans htiers hsize
    obtain ⟨created, hcreate⟩ := exists_createTier hfew linguisticType locale
    refine ⟨created, hcreate, ?_⟩
    rw [← hasTier_iff, (createTier_ok hcreate).2.1]
    exact Bool.false_ne_true
  · have hfew : document.notes.length < UInt64.size := Nat.lt_trans hnotes hsize
    have hroom : document.timeline.size + 1 < UInt64.size := Nat.lt_of_le_of_lt hslots hsize
    obtain ⟨created, hcreate⟩ := exists_createNote hfaithful hfew hroom htier value start stop
    obtain ⟨_, _, -, -, -, hfree, -⟩ := createNote_notes hcreate
    obtain ⟨added, htimeline, -⟩ := createNote_times hcreate
    refine ⟨created, added, hcreate, ?_, htimeline, ?_⟩
    · rw [← hasNote_iff, hfree]
      exact Bool.false_ne_true
    · have hnodup := (createNote_faithful hfaithful hcreate).nodup
      rw [htimeline, List.map_append, List.nodup_append] at hnodup
      refine ⟨fun slot hslot hold => ?_, hnodup.2.1⟩
      exact hnodup.2.2 _ hold _ (List.mem_map_of_mem hslot) rfl

/-- The counter of slots stands at the largest word and that of annotations at an id in use: the
search for the second slot goes on at zero, where ids are taken. -/
theorem fresh_of_creation_at_largest_word :
    let base := empty.run [.createTier "text" "en", .createNote "tier0" "word" 0 100]
    let document := { base with counters := { note := 0, timeSlot := 18446744073709551615 } }
    base.Reachable ∧ base.tiers.length < 2 ^ 63 ∧ base.notes.length < 2 ^ 63 ∧
      base.timeline.size < 2 ^ 63 ∧ document.hasTier "tier0" = true ∧
      ∃ created added, document.createNote "tier0" "next" 200 300 = .ok created ∧
        created.id ∉ document.notes.map (·.id) ∧
        created.document.timeline.toList = document.timeline.toList ++ added ∧
        (∀ slot ∈ added, slot.id ∉ document.timeline.toList.map (·.id)) ∧
        (added.map (·.id)).Nodup := by
  intro base document
  have hreachable : base.Reachable := ⟨_, rfl⟩
  have htiers : base.tiers.length < 2 ^ 63 := by decide +kernel
  have hnotes : base.notes.length < 2 ^ 63 := by decide +kernel
  have hslots : base.timeline.size < 2 ^ 63 := by decide +kernel
  have htier : document.hasTier "tier0" = true := by decide +kernel
  refine ⟨hreachable, htiers, hnotes, hslots, htier, ?_⟩
  exact (fresh_of_creation hreachable _ htiers hnotes hslots).2.1 "tier0" "next" 200 300 htier

end Document

end Eaf

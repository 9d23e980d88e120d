import Eaf.Proofs.Fresh

/-!
# The search for a new id

A new id is searched try by try. The id at the counter is tried, the counter moves to the next word,
and the search goes on from there while the id is taken. The largest word is followed by zero, so
the counter neither grows nor shrinks along a search; what grows is the number of words that were
tried. As long as one numbered id of the family is free, the search comes to the first one in cyclic
order before a word is tried twice.

## Main definitions

* `Eaf.Counters.Searches` — a search, try by try.

## Main results

* `Eaf.IdFamily.number_eq` — a numbered id as a text.
* `Eaf.Counters.searches_iff_passes` — a search passes the taken ids up to the first free one.
* `Eaf.Counters.searches_iff_mint?` — what searches come to is the new id with its counters.
* `Eaf.Counters.mint_of_search` — a search ends at the first free number in cyclic order.
-/

namespace Eaf

/-- A numbered id is its stem and the shortest decimal numeral of its number. -/
theorem IdFamily.number_eq (family : IdFamily) (n : UInt64) :
    family.number n = family.stem ++ toString n.toNat := by
  rw [number, Numeral.write, String.ofList_append, String.ofList_toList,
    Nat.toString_eq_ofList_toDigits]

/-- The word some steps behind another, counted modulo the number of words. -/
theorem toNat_add_ofNat (start : UInt64) (k : Nat) :
    (start + UInt64.ofNat k).toNat = (start.toNat + k) % 2 ^ 64 := by
  rw [UInt64.toNat_add, UInt64.toNat_ofNat', Nat.add_mod_mod]

namespace Counters

/-- The counters after the id at the counter of a family was tried. Zero follows the largest
word. -/
def passed (counters : Counters) (family : IdFamily) : Counters :=
  counters.set (counters.get family + 1) family

/-- What is noticed when the counter of a family moves to the next word. -/
def passingNotices (counters : Counters) (family : IdFamily) : List Notice :=
  if counters.get family + 1 = 0 then [.counterRestarted family] else []

/-- A search for a new id, try by try. The id at the counter is tried and the counter moves on. The
search ends with this id if it is free, and goes on from the next word if it is taken. -/
inductive Searches (family : IdFamily) (taken : String → Bool) : Counters → Mint → Prop
  | ends {counters : Counters} (hfree : taken (family.number (counters.get family)) = false) :
    Searches family taken counters
      { id := family.number (counters.get family)
        counters := counters.passed family
        notices := counters.passingNotices family }
  | goesOn {counters : Counters} {mint : Mint}
      (htaken : taken (family.number (counters.get family)) = true)
      (hrest : Searches family taken (counters.passed family) mint) :
    Searches family taken counters
      { mint with notices := counters.passingNotices family ++ mint.notices }

variable {counters : Counters} {family : IdFamily} {taken : String → Bool} {mint : Mint}

@[simp] theorem get_passed : (counters.passed family).get family = counters.get family + 1 := by
  rw [passed, get_set_self]

@[simp] theorem set_passed (value : UInt64) :
    (counters.passed family).set value family = counters.set value family := by
  cases family <;> rfl

/-- A notice is given each time that the counter comes to the number of words. -/
theorem passingNotices_eq :
    counters.passingNotices family =
      List.replicate (((counters.get family).toNat + 1) / 2 ^ 64) (.counterRestarted family) := by
  have hword := (counters.get family).toNat_lt
  have hnext : (counters.get family + 1).toNat = ((counters.get family).toNat + 1) % 2 ^ 64 :=
    UInt64.toNat_add _ _
  unfold passingNotices
  split
  next hzero =>
    rw [hzero, UInt64.toNat_zero] at hnext
    have hcount : ((counters.get family).toNat + 1) / 2 ^ 64 = 1 := by omega
    rw [hcount]
    rfl
  next hne =>
    have hne' : (counters.get family + 1).toNat ≠ 0 := fun h => hne (UInt64.toNat_inj.1 h)
    have hcount : ((counters.get family).toNat + 1) / 2 ^ 64 = 0 := by omega
    rw [hcount]
    rfl

/-- What a search comes to that passes a number of taken ids. -/
def mintBehind (counters : Counters) (family : IdFamily) (passes : Nat) : Mint where
  id := family.number (counters.get family + UInt64.ofNat passes)
  counters := counters.set (counters.get family + UInt64.ofNat passes + 1) family
  notices := List.replicate (((counters.get family).toNat + passes + 1) / 2 ^ 64)
    (.counterRestarted family)

theorem mintBehind_zero :
    counters.mintBehind family 0 =
      { id := family.number (counters.get family)
        counters := counters.passed family
        notices := counters.passingNotices family } := by
  have hstart : counters.get family + UInt64.ofNat 0 = counters.get family := UInt64.add_zero _
  rw [mintBehind, hstart, passingNotices_eq, passed, Nat.add_zero]

/-- One more id is passed in front of a search. -/
theorem mintBehind_succ (passes : Nat) :
    counters.mintBehind family (passes + 1) =
      { (counters.passed family).mintBehind family passes with
        notices := counters.passingNotices family ++
          ((counters.passed family).mintBehind family passes).notices } := by
  have hnext : (counters.get family + 1).toNat = ((counters.get family).toNat + 1) % 2 ^ 64 :=
    UInt64.toNat_add _ _
  have hcount : ((counters.get family).toNat + (passes + 1) + 1) / 2 ^ 64 =
      ((counters.get family).toNat + 1) / 2 ^ 64 +
        ((counters.get family + 1).toNat + passes + 1) / 2 ^ 64 := by
    omega
  simp only [mintBehind, get_passed, set_passed, word_add_succ, passingNotices_eq, hcount,
    List.replicate_add]

/-- A search passes taken ids up to one that is free. -/
theorem searches_iff_passes :
    Searches family taken counters mint ↔
      ∃ k, taken (family.number (counters.get family + UInt64.ofNat k)) = false ∧
        (∀ j < k, taken (family.number (counters.get family + UInt64.ofNat j)) = true) ∧
        mint = counters.mintBehind family k := by
  have hstart (counters : Counters) :
      counters.get family + UInt64.ofNat 0 = counters.get family := UInt64.add_zero _
  constructor
  · intro h
    induction h with
    | ends hfree => exact ⟨0, by rwa [hstart], nofun, mintBehind_zero.symm⟩
    | goesOn htaken _ ih =>
      obtain ⟨k, hfree, hbefore, rfl⟩ := ih
      simp only [get_passed, word_add_succ] at hfree hbefore
      refine ⟨k + 1, hfree, ?_, (mintBehind_succ k).symm⟩
      rintro (_ | j) hj
      · rwa [hstart]
      · exact hbefore j (Nat.lt_of_succ_lt_succ hj)
  · rintro ⟨k, hfree, hbefore, rfl⟩
    induction k generalizing counters with
    | zero =>
      rw [hstart] at hfree
      rw [mintBehind_zero]
      exact .ends hfree
    | succ k ih =>
      have htaken := hbefore 0 (Nat.succ_pos k)
      rw [hstart] at htaken
      rw [mintBehind_succ]
      refine .goesOn htaken (ih ?_ fun j hj => ?_)
      · rwa [get_passed, word_add_succ]
      · rw [get_passed, word_add_succ]
        exact hbefore (j + 1) (Nat.succ_lt_succ hj)

/-- A counter that does not pass the largest word is behind where it was. -/
theorem notices_mint? {start : UInt64} {k : Nat} (hk : k < 2 ^ 64) :
    (if start + UInt64.ofNat k + 1 ≤ start then [Notice.counterRestarted family] else []) =
      List.replicate ((start.toNat + k + 1) / 2 ^ 64) (.counterRestarted family) := by
  have hword := start.toNat_lt
  have hstop : (start + UInt64.ofNat k + 1).toNat = (start.toNat + k + 1) % 2 ^ 64 := by
    rw [UInt64.toNat_add, toNat_add_ofNat]
    exact Nat.mod_add_mod _ _ _
  by_cases hround : start.toNat + k + 1 < 2 ^ 64
  · have hcount : (start.toNat + k + 1) / 2 ^ 64 = 0 := by omega
    rw [if_neg (by rw [UInt64.le_iff_toNat_le]; omega), hcount]
    rfl
  · have hcount : (start.toNat + k + 1) / 2 ^ 64 = 1 := by omega
    rw [if_pos (by rw [UInt64.le_iff_toNat_le]; omega), hcount]
    rfl

/-- What searches come to is the new id with the counters behind it. In particular no search goes
on for longer than there are words. -/
theorem searches_iff_mint? :
    Searches family taken counters mint ↔ counters.mint? family taken = some mint := by
  rw [searches_iff_passes, mint?, Option.map_eq_some_iff]
  simp only [firstFree_eq_some_iff]
  constructor
  · rintro ⟨k, hfree, hbefore, rfl⟩
    -- The word that is tried after all words were is the first one again, and it is taken.
    have hk : k < 2 ^ 64 := by
      by_contra hlarge
      have hsame : UInt64.ofNat (k % 2 ^ 64) = UInt64.ofNat k := by
        rw [← UInt64.toNat_inj, UInt64.toNat_ofNat', UInt64.toNat_ofNat', Nat.mod_mod]
      have htaken := hbefore (k % 2 ^ 64) (by omega)
      rw [hsame, hfree] at htaken
      cases htaken
    refine ⟨_, ⟨k, hk, rfl, hfree, hbefore⟩, ?_⟩
    rw [mintBehind, notices_mint? hk]
  · rintro ⟨n, ⟨k, hk, rfl, hfree, hbefore⟩, rfl⟩
    refine ⟨k, hfree, hbefore, ?_⟩
    rw [mintBehind, notices_mint? hk]

/-- **A new id has the first free number in cyclic order.** Let an id of a family be free: its stem
with some number below `2 ^ 64`. Counting from the counter of the family modulo `2 ^ 64`, there is a
first number whose id is free. The search for a new id ends, and it can end with nothing but this
id; the counter is then one number further, modulo `2 ^ 64`, and the others are as they were. -/
theorem mint_of_search (counters : Counters) (family : IdFamily) (taken : String → Bool)
    (hfree : ∃ n : Nat, n < 2 ^ 64 ∧ taken (family.stem ++ toString n) = false) :
    let numberAt (k : Nat) : Nat := ((counters.get family).toNat + k) % 2 ^ 64
    let idAt (k : Nat) : String := family.stem ++ toString (numberAt k)
    ∃ k < 2 ^ 64, taken (idAt k) = false ∧ (∀ j < k, taken (idAt j) = true) ∧
      ∃ mint, counters.mint? family taken = some mint ∧
        (∀ other, Searches family taken counters other ↔ other = mint) ∧
        mint.id = idAt k ∧ (mint.counters.get family).toNat = (numberAt k + 1) % 2 ^ 64 ∧
        ∀ other, other ≠ family → mint.counters.get other = counters.get other := by
  intro numberAt idAt
  have hid (k : Nat) : family.number (counters.get family + UInt64.ofNat k) = idAt k := by
    rw [IdFamily.number_eq, toNat_add_ofNat]
  obtain ⟨n, hn, hfree⟩ := hfree
  have hword : (UInt64.ofNat n).toNat = n := UInt64.toNat_ofNat_of_lt' hn
  obtain ⟨mint, hmint⟩ := counters.exists_mint?_of_free (n := UInt64.ofNat n)
    (by rwa [IdFamily.number_eq, hword])
  obtain ⟨found, hfound, rfl⟩ := Option.map_eq_some_iff.1 hmint
  obtain ⟨k, hk, rfl, hnew, hbefore⟩ := firstFree_eq_some_iff.1 hfound
  refine ⟨k, hk, hid k ▸ hnew, fun j hj => hid j ▸ hbefore j hj, _, hmint, fun other => ?_, hid k,
    ?_, fun other hother => get_set_of_ne _ _ _ _ hother⟩
  · rw [searches_iff_mint?, hmint, Option.some_inj, eq_comm]
  · rw [get_set_self, UInt64.toNat_add, toNat_add_ofNat]
    rfl

/-- The counter stands at the largest word, whose id is taken, as is the id of zero. -/
theorem mint_of_search_at_largest_word :
    let counters : Counters := { tier := 18446744073709551615, note := 7, timeSlot := 5 }
    let taken (id : String) : Bool := id == "tier18446744073709551615" || id == "tier0"
    (∃ n : Nat, n < 2 ^ 64 ∧ taken (IdFamily.tier.stem ++ toString n) = false) ∧
      ∃ mint, counters.mint? .tier taken = some mint ∧
        (∀ other, Searches .tier taken counters other ↔ other = mint) ∧ mint.id = "tier1" ∧
        mint.counters.tier = 2 ∧ mint.counters.note = 7 ∧ mint.counters.timeSlot = 5 := by
  intro counters taken
  have hfree : ∃ n : Nat, n < 2 ^ 64 ∧ taken (IdFamily.tier.stem ++ toString n) = false :=
    ⟨1, by decide, by decide⟩
  obtain ⟨k, -, hnew, hbefore, mint, hmint, honly, hid, hcounter, hothers⟩ :=
    mint_of_search counters .tier taken hfree
  obtain rfl : k = 2 := by
    rcases Nat.lt_trichotomy k 2 with hlt | heq | hgt
    · rcases (by omega : k = 0 ∨ k = 1) with rfl | rfl
      · exact absurd hnew (by decide)
      · exact absurd hnew (by decide)
    · exact heq
    · exact absurd (hbefore 2 hgt) (by decide)
  have hname : IdFamily.tier.stem ++ toString ((18446744073709551615 + 2) % 2 ^ 64) = "tier1" := by
    decide
  refine ⟨hfree, mint, hmint, honly, hid.trans hname, ?_, ?_, ?_⟩
  · have hvalue : ((18446744073709551615 + 2) % 2 ^ 64 + 1) % 2 ^ 64 = (2 : UInt64).toNat := by
      decide
    exact UInt64.toNat_inj.1 (hcounter.trans hvalue)
  · exact hothers .note (by decide)
  · exact hothers .timeSlot (by decide)

end Counters

end Eaf

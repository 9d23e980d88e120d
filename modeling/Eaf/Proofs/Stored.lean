import Eaf.Proofs.Growth
import Eaf.Storage.FileTree

/-!
# What is written to a file tree is read from it

A path is followed from directory to directory, and where it leads depends only on which places
are directories. What is put at a place that is none takes no directory away, so that every path
still leads where it led, and what was put is found at its end.

## Main definitions

* `Eaf.FileTree.DirectoryAt` — places at which a directory stands.
* `Eaf.FileTree.trailTo` — the trail to a place.
* `Eaf.FileTree.HasParent` — places whose last step begins in a directory.

## Main results

* `Eaf.FileTree.follow_mono` — a tree with the directories of another leads along the same paths.
* `Eaf.FileTree.atPlace_put` — what is put at a place stands there.
* `Eaf.FileTree.read_write` — a text that was written is read.
-/

namespace Eaf.FileTree

variable {tree other old new : FileTree} {entries : List (String × FileTree)}
  {place names : List String} {name : String} {step : Step} {steps : List Step} {path : Path}
  {text : String}

/-! ### Places -/

/-- A directory stands at a place. -/
def DirectoryAt (tree : FileTree) (place : List String) : Prop :=
  ∃ entries, tree.atPlace place = .ok (directory entries)

theorem atPlace_cons (tree : FileTree) (name : String) (place : List String) :
    tree.atPlace (name :: place) = tree.lookUp name >>= fun here => here.atPlace place :=
  rfl

theorem atPlace_concat (tree : FileTree) (place : List String) (name : String) :
    tree.atPlace (place ++ [name]) = tree.atPlace place >>= fun here => here.lookUp name := by
  simp only [atPlace, List.foldlM_append, List.foldlM_cons, List.foldlM_nil, bind_pure]

/-- What stands below a place stands in a directory. -/
theorem directoryAt_of_concat (h : tree.atPlace (place ++ [name]) = .ok old) :
    tree.DirectoryAt place := by
  rw [atPlace_concat] at h
  obtain ⟨here, hhere, hname⟩ := exceptBind_ok h
  cases here with
  | file => cases hname
  | directory entries => exact ⟨entries, hhere⟩

/-! ### Putting -/

theorem lookup_alterEntry_self (name : String) (change : Option FileTree → FileTree)
    (entries : List (String × FileTree)) :
    (alterEntry name change entries).lookup name = some (change (entries.lookup name)) := by
  induction entries with
  | nil => simp [alterEntry]
  | cons entry entries ih =>
    obtain ⟨first, tree⟩ := entry
    rw [alterEntry]
    split
    next h => simp [h]
    next h => simp [List.lookup_cons, beq_false_of_ne (Ne.symm h), ih]

theorem lookup_alterEntry_of_ne {key : String} (h : key ≠ name)
    (change : Option FileTree → FileTree) (entries : List (String × FileTree)) :
    (alterEntry name change entries).lookup key = entries.lookup key := by
  induction entries with
  | nil => simp [alterEntry, List.lookup_cons, beq_false_of_ne h]
  | cons entry entries ih =>
    obtain ⟨first, tree⟩ := entry
    rw [alterEntry]
    split
    next hfirst => simp [List.lookup_cons, hfirst, beq_false_of_ne h]
    next => rw [List.lookup_cons, ih, List.lookup_cons]

/-- What is put below an entry is put into what stands there, if the name can be looked up. -/
theorem lookUp_put_self (h : (directory entries).lookUp name ≠ .error .nameTooLong)
    (place : List String) (new : FileTree) :
    ((directory entries).put (name :: place) new).lookUp name =
      .ok (alter (fun _ => new) place (entries.lookup name)) := by
  rw [put, alter, lookUp, lookup_alterEntry_self]
  split
  next hlong => exact absurd (by rw [lookUp, if_pos hlong]) h
  next => rfl

theorem lookUp_put_of_ne {key : String} (h : key ≠ name) (entries : List (String × FileTree))
    (place : List String) (new : FileTree) :
    ((directory entries).put (name :: place) new).lookUp key = (directory entries).lookUp key := by
  rw [put, alter, lookUp, lookUp, lookup_alterEntry_of_ne h]

theorem lookup_eq_some_of_lookUp (h : (directory entries).lookUp name = .ok old) :
    entries.lookup name = some old := by
  rw [lookUp] at h
  split at h
  · cases h
  · split at h
    next found => cases h; assumption
    next => cases h

/-- What is put below an entry is found below it. -/
theorem atPlace_put_below (h : (directory entries).lookUp name = .ok old)
    (place names : List String) (new : FileTree) :
    ((directory entries).put (name :: place) new).atPlace (name :: names) =
      (old.put place new).atPlace names := by
  have hname : (directory entries).lookUp name ≠ .error .nameTooLong := by simp [h]
  rw [atPlace_cons, lookUp_put_self hname, lookup_eq_some_of_lookUp h]
  rfl

/-- What is put at a place in a directory stands there. -/
theorem atPlace_put (hplace : tree.DirectoryAt place)
    (hname : tree.atPlace (place ++ [name]) ≠ .error .nameTooLong) (new : FileTree) :
    (tree.put (place ++ [name]) new).atPlace (place ++ [name]) = .ok new := by
  induction place generalizing tree with
  | nil =>
    obtain ⟨entries, htree⟩ := hplace
    obtain rfl : tree = directory entries := Except.ok.inj htree
    rw [atPlace_concat] at hname
    rw [List.nil_append, atPlace_cons, lookUp_put_self hname]
    rfl
  | cons first place ih =>
    obtain ⟨entries, hentries⟩ := hplace
    rw [atPlace_cons] at hentries
    obtain ⟨here, hhere, hrest⟩ := exceptBind_ok hentries
    cases tree with
    | file => cases hhere
    | directory above =>
      rw [List.cons_append, atPlace_put_below hhere]
      refine ih ⟨entries, hrest⟩ fun hlong => hname ?_
      rw [List.cons_append, atPlace_cons, hhere]
      exact hlong

theorem not_directoryAt_file (bytes : ByteArray) (place : List String) :
    ¬ (file bytes).DirectoryAt place := by
  rintro ⟨entries, hentries⟩
  cases place <;> cases hentries

/-- What is put at a place that is no directory takes no directory away. -/
theorem directoryAt_put (hplace : ¬ tree.DirectoryAt place) (h : tree.DirectoryAt names)
    (new : FileTree) : (tree.put place new).DirectoryAt names := by
  induction place generalizing tree names with
  | nil =>
    cases tree with
    | file bytes => exact absurd h (not_directoryAt_file bytes names)
    | directory entries => exact absurd ⟨entries, rfl⟩ hplace
  | cons name place ih =>
    cases tree with
    | file bytes => exact absurd h (not_directoryAt_file bytes names)
    | directory entries =>
      cases names with
      | nil => exact ⟨_, rfl⟩
      | cons key names =>
        obtain ⟨inside, hinside⟩ := h
        rw [atPlace_cons] at hinside
        obtain ⟨here, hhere, hrest⟩ := exceptBind_ok hinside
        by_cases hkey : key = name
        · subst hkey
          have hhere' : ¬ here.DirectoryAt place := by
            rintro ⟨below, hbelow⟩
            refine hplace ⟨below, ?_⟩
            rw [atPlace_cons, hhere]
            exact hbelow
          rw [DirectoryAt, atPlace_put_below hhere]
          exact ih hhere' ⟨inside, hrest⟩
        · refine ⟨inside, ?_⟩
          rw [atPlace_cons, lookUp_put_of_ne hkey, hhere]
          exact hrest

/-! ### Following paths -/

/-- The trail to a place, which the names lead to from the last one on. -/
def trailTo (tree : FileTree) : List String → List Stop
  | [] => []
  | name :: names => ⟨name, tree.atPlace (name :: names).reverse⟩ :: tree.trailTo names

theorem endOf_trailTo (tree : FileTree) (names : List String) :
    tree.endOf (tree.trailTo names) = tree.atPlace names.reverse := by
  cases names <;> rfl

theorem names_trailTo (tree : FileTree) (names : List String) :
    (tree.trailTo names).map (·.name) = names := by
  induction names with
  | nil => rfl
  | cons name names ih => rw [trailTo, List.map_cons, ih]

/-- A step along a trail leads to the trail of another place. -/
theorem apply_trailTo (h : tree.atPlace names.reverse = .ok old) (step : Step) :
    step.apply (fun name => ⟨name, old.lookUp name⟩) (tree.trailTo names) =
      tree.trailTo (step.apply (fun name => name) names) := by
  cases step with
  | stay => rfl
  | up => cases names <;> rfl
  | down name =>
    have hfound : tree.atPlace (name :: names).reverse = old.lookUp name := by
      rw [List.reverse_cons, atPlace_concat, h]
      rfl
    rw [Step.apply, Step.apply, trailTo, hfound]

/-- A path is followed step by step, and each step begins in a directory. -/
theorem follow_cons_iff : tree.follow (tree.trailTo names) (step :: steps) = .ok place ↔
    tree.DirectoryAt names.reverse ∧
      tree.follow (tree.trailTo (step.apply (fun name => name) names)) steps = .ok place := by
  rw [follow, endOf_trailTo]
  constructor
  · intro h
    obtain ⟨here, hhere, hrest⟩ := exceptBind_ok h
    cases here with
    | file => cases hrest
    | directory entries =>
      refine ⟨⟨entries, hhere⟩, ?_⟩
      rw [← apply_trailTo hhere]
      exact hrest
  · rintro ⟨⟨entries, hentries⟩, hrest⟩
    rw [← apply_trailTo hentries] at hrest
    rw [hentries]
    exact hrest

/-- A tree in which all directories of another stand leads along the same paths to the same
places. -/
theorem follow_mono (hkeeps : ∀ names, tree.DirectoryAt names → other.DirectoryAt names)
    (h : tree.follow (tree.trailTo names) steps = .ok place) :
    other.follow (other.trailTo names) steps = .ok place := by
  induction steps generalizing names with
  | nil => rwa [follow, List.map_reverse, names_trailTo] at h ⊢
  | cons step steps ih =>
    obtain ⟨hdirectory, hrest⟩ := follow_cons_iff.1 h
    exact follow_cons_iff.2 ⟨hkeeps _ hdirectory, ih hrest⟩

/-- The last step to a place begins in a directory. -/
def HasParent (tree : FileTree) : List String → Prop
  | [] => True
  | _ :: names => tree.DirectoryAt names.reverse

theorem HasParent.apply (hdirectory : tree.DirectoryAt names.reverse) (h : tree.HasParent names)
    (step : Step) : tree.HasParent (step.apply (fun name => name) names) := by
  cases step with
  | stay => exact h
  | down name => exact hdirectory
  | up =>
    match names, hdirectory with
    | [], _ => trivial
    | [_], _ => trivial
    | last :: name :: names, ⟨entries, hentries⟩ =>
      rw [List.reverse_cons] at hentries
      obtain ⟨above, habove⟩ := directoryAt_of_concat hentries
      rw [List.reverse_cons] at habove
      exact directoryAt_of_concat habove

theorem hasParent_of_follow (hnames : tree.HasParent names)
    (h : tree.follow (tree.trailTo names) steps = .ok place) :
    tree.HasParent place.reverse := by
  induction steps generalizing names with
  | nil =>
    rw [follow, List.map_reverse, names_trailTo] at h
    rw [← Except.ok.inj h, List.reverse_reverse]
    exact hnames
  | cons step steps ih =>
    obtain ⟨hdirectory, hrest⟩ := follow_cons_iff.1 h
    exact ih (hnames.apply hdirectory step) hrest

/-! ### Writing and reading -/

theorem placeOf_eq_ok_iff : tree.placeOf path = .ok place ↔
    path.refusal? = none ∧ tree.follow (tree.trailTo []) (stepsOf path) = .ok place := by
  rw [placeOf, trailTo]
  cases path.refusal? <;> simp

/-- What is put where a path leads, and no directory is, is found at the end of the path. -/
theorem entry_put {bytes : ByteArray} (hplace : tree.placeOf path = .ok place)
    (hdirectory : ¬ tree.DirectoryAt place) (hname : tree.atPlace place ≠ .error .nameTooLong)
    (hopen : endsOpen path = false) :
    (tree.put place (file bytes)).entry path = .ok (file bytes) := by
  obtain ⟨hrefusal, hfollow⟩ := placeOf_eq_ok_iff.1 hplace
  have hkeeps (names : List String) (h : tree.DirectoryAt names) :
      (tree.put place (file bytes)).DirectoryAt names := directoryAt_put hdirectory h _
  have hsame : (tree.put place (file bytes)).placeOf path = .ok place :=
    placeOf_eq_ok_iff.2 ⟨hrefusal, follow_mono hkeeps hfollow⟩
  have hstands : (tree.put place (file bytes)).atPlace place = .ok (file bytes) := by
    have hroot : tree.HasParent [] := trivial
    have hparent := hasParent_of_follow hroot hfollow
    obtain rfl | ⟨names, name, rfl⟩ := List.eq_nil_or_concat' place
    · rfl
    · rw [List.reverse_concat, HasParent, List.reverse_reverse] at hparent
      exact atPlace_put hparent hname _
  rw [entry, hsame]
  simp only [bind, Except.bind, hstands, hopen]
  rfl

/-- A text is written where the path leads, to a file or where nothing stands yet. -/
theorem write_ok (h : tree.write path text = .ok new) :
    ∃ place, tree.placeOf path = .ok place ∧ endsOpen path = false ∧ ¬ tree.DirectoryAt place ∧
      tree.atPlace place ≠ .error .nameTooLong ∧ new = tree.put place (ofText text) := by
  obtain ⟨place, hplace, h⟩ := exceptBind_ok h
  refine ⟨place, hplace, ?_⟩
  cases hopen : endsOpen path with
  | true => simp [hopen, throw, throwThe, MonadExceptOf.throw, bind, Except.bind] at h
  | false =>
    refine ⟨rfl, ?_⟩
    simp only [hopen] at h
    unfold DirectoryAt
    cases hstands : tree.atPlace place with
    | error error =>
      rw [hstands] at h
      obtain rfl : error = .noEntry := by cases error <;> first | rfl | cases h
      cases h
      simp
    | ok here =>
      rw [hstands] at h
      cases here <;> cases h
      simp

/-- A text is written where a path leads and nothing stands yet. -/
theorem write_of_free (hplace : tree.placeOf path = .ok place) (hopen : endsOpen path = false)
    (hfree : tree.atPlace place = .error .noEntry) (text : String) :
    tree.write path text = .ok (tree.put place (ofText text)) := by
  rw [write, hplace]
  simp only [bind, Except.bind, hopen, hfree]
  rfl

/-- **A text that was written is read**, wherever the path leads. -/
theorem read_write (h : tree.write path text = .ok new) : new.read path = .ok text := by
  obtain ⟨place, hplace, hopen, hdirectory, hname, rfl⟩ := write_ok h
  have htext : String.fromUTF8? text.toUTF8 = some text := dif_pos text.isValidUTF8
  rw [read, ofText, entry_put hplace hdirectory hname hopen]
  simp only [bind, Except.bind, htext]
  rfl

end Eaf.FileTree

import Eaf.Program.Files
import Eaf.Program.Workspace

/-!
# What tasks do to a workspace

A task on a workspace answers or runs into trouble. Tasks that answer are opened here step by step:
what a task of two parts answers is what the second answers on the answer of the first. Remarks and
lines that are printed leave the files and the clock alone.

## Main definitions

* `Eaf.Task.Answers` — what a task answers, and the level and the workspace after it.
* `Eaf.SameFiles` — states that only lines and remarks set apart.
* `Eaf.Task.OnlySpeaks` — tasks that print lines and make remarks.
* `Eaf.Task.Keeps` — tasks that leave a part of the state as it is.

## Main results

* `Eaf.Task.answers_bind` — a task of two parts.
* `Eaf.Files.load_ok`, `Eaf.Files.exists_load` — when a document is loaded.
* `Eaf.Files.save_ok`, `Eaf.Files.exists_save` — when a document is saved, and what is written.
-/

namespace Eaf

/-- The level of the remarks that are made, and the workspace. -/
abbrev Task.State := Severity × Workspace

variable {α β : Type} {before after middle : Task.State} {answer : α}

namespace Task

/-- What a task answers or runs into, and the state after it. -/
def outcome (task : Task (StateM Workspace) α) (before : State) : Except Trouble α × State :=
  let ((answer, level), workspace) := (task.run.run before.1).run before.2
  (answer, (level, workspace))

/-- A task that begins in one state answers and leaves another behind. -/
def Answers (task : Task (StateM Workspace) α) (before : State) (answer : α) (after : State) :
    Prop :=
  task.outcome before = (.ok answer, after)

theorem perform_eq (workspace : Workspace) (level : Severity) (task : Task (StateM Workspace) α) :
    workspace.perform level task =
      ((task.outcome (level, workspace)).1, (task.outcome (level, workspace)).2.2) :=
  rfl

theorem perform_eq_ok_iff {task : Task (StateM Workspace) α} {level : Severity}
    {workspace workspace' : Workspace} :
    workspace.perform level task = (.ok answer, workspace') ↔
      ∃ level', task.Answers (level, workspace) answer (level', workspace') := by
  rw [perform_eq]
  constructor
  · intro h
    obtain ⟨hanswer, rfl⟩ := Prod.mk.inj h
    exact ⟨_, Prod.ext hanswer rfl⟩
  · rintro ⟨level', h⟩
    rw [Answers] at h
    rw [h]

/-! ### The parts of tasks -/

theorem answers_pure {value : α} :
    Answers (pure value) before answer after ↔
      answer = value ∧ after = before := by
  show (Except.ok value, before) = (Except.ok answer, after) ↔ _
  rw [Prod.mk.injEq, Except.ok.injEq, eq_comm, @eq_comm _ before]

theorem answers_throw {trouble : Trouble} :
    ¬ Answers (α := α) (throw trouble) before answer after := by
  intro h
  cases h

theorem outcome_bind (first : Task (StateM Workspace) β) (next : β → Task (StateM Workspace) α)
    (before : State) :
    (first >>= next).outcome before =
      match first.outcome before with
      | (.ok value, middle) => (next value).outcome middle
      | (.error trouble, middle) => (.error trouble, middle) := by
  unfold outcome
  rw [ExceptT.run_bind, StateT.run_bind, StateT.run_bind]
  generalize (first.run.run before.1).run before.2 = outcome
  obtain ⟨⟨result, level⟩, workspace⟩ := outcome
  cases result <;> rfl

/-- A task of two parts answers what the second part answers on the answer of the first. -/
theorem answers_bind {first : Task (StateM Workspace) β} {next : β → Task (StateM Workspace) α} :
    (first >>= next).Answers before answer after ↔
      ∃ value middle, first.Answers before value middle ∧
        (next value).Answers middle answer after := by
  simp only [Answers, outcome_bind]
  obtain ⟨result, middle⟩ := first.outcome before
  cases result with
  | error trouble => simp
  | ok value =>
    refine ⟨fun h => ⟨value, middle, rfl, h⟩, ?_⟩
    rintro ⟨_, _, hfirst, h⟩
    cases hfirst
    exact h

theorem exists_bind {first : Task (StateM Workspace) β} {next : β → Task (StateM Workspace) α}
    {value : β} (hfirst : first.Answers before value middle)
    (hnext : ∃ after, (next value).Answers middle answer after) :
    ∃ after, (first >>= next).Answers before answer after := by
  obtain ⟨after, hafter⟩ := hnext
  exact ⟨after, answers_bind.2 ⟨value, middle, hfirst, hafter⟩⟩

/-- What is asked of the workspace, or done to it, has an answer whatever the level. -/
theorem answers_lift {action : StateM Workspace α} :
    Answers (liftM action) before answer after ↔
      answer = (action.run before.2).1 ∧ after = (before.1, (action.run before.2).2) := by
  show (Except.ok (action.run before.2).1, (before.1, (action.run before.2).2)) =
    (Except.ok answer, after) ↔ _
  rw [Prod.mk.injEq, Except.ok.injEq, eq_comm, @eq_comm _ after]

theorem answers_get {level : Severity} :
    Answers get before level after ↔
      level = before.1 ∧ after = before := by
  show (Except.ok before.1, before) = (Except.ok level, after) ↔ _
  rw [Prod.mk.injEq, Except.ok.injEq, eq_comm, @eq_comm _ after]

theorem answers_orTrouble {trouble : StorageError → Trouble} {result : Except StorageError α} :
    Answers (orTrouble trouble result) before answer after ↔
      result = .ok answer ∧ after = before := by
  cases result with
  | error error => exact iff_of_false answers_throw nofun
  | ok value => rw [orTrouble, answers_pure, Except.ok.injEq, eq_comm]

/-! ### Questions -/

section Questions

variable {path : Path} {found : Bool}

theorem answers_now {now : String} :
    Answers (liftM (Terminal.now : StateM Workspace String)) before now after ↔
      now = before.2.now ∧ after = before :=
  answers_lift

theorem answers_leadsAnywhere :
    Answers (liftM (Storage.leadsAnywhere path : StateM Workspace Bool)) before found after ↔
      found = (before.2.files.kind? path).isSome ∧ after = before :=
  answers_lift

theorem answers_isFile :
    Answers (liftM (Storage.isFile path : StateM Workspace Bool)) before found after ↔
      found = decide (before.2.files.kind? path = some .file) ∧ after = before :=
  answers_lift

end Questions

end Task

/-! ### Lines and remarks -/

/-- States that only lines and remarks set apart: the files and the clock are the same. -/
structure SameFiles (before after : Task.State) : Prop where
  files : after.2.files = before.2.files
  now : after.2.now = before.2.now

theorem SameFiles.refl (state : Task.State) : SameFiles state state :=
  ⟨rfl, rfl⟩

theorem SameFiles.trans (h : SameFiles before middle) (h' : SameFiles middle after) :
    SameFiles before after :=
  ⟨h'.files.trans h.files, h'.now.trans h.now⟩

namespace Task

/-- A task that does no more than print lines and make remarks. -/
def OnlySpeaks (task : Task (StateM Workspace) Unit) : Prop :=
  ∀ before, ∃ after, task.Answers before () after ∧ SameFiles before after

theorem Answers.unique {task : Task (StateM Workspace) α} {answer' : α} {after' : State}
    (h : task.Answers before answer after) (h' : task.Answers before answer' after') :
    answer' = answer ∧ after' = after := by
  cases h.symm.trans h'
  exact ⟨rfl, rfl⟩

theorem OnlySpeaks.sameFiles {task : Task (StateM Workspace) Unit} (h : task.OnlySpeaks)
    {answer : Unit} (hanswers : task.Answers before answer after) : SameFiles before after := by
  obtain ⟨after', hanswers', hsame⟩ := h before
  obtain ⟨-, rfl⟩ := hanswers'.unique hanswers
  exact hsame

/-- After a task that only speaks another answers if it does in any state with the same files. -/
theorem OnlySpeaks.exists_bind {speak : Task (StateM Workspace) Unit} (h : speak.OnlySpeaks)
    {next : Unit → Task (StateM Workspace) α}
    (hnext : ∀ middle, SameFiles before middle → ∃ after, (next ()).Answers middle answer after) :
    ∃ after, (speak >>= next).Answers before answer after := by
  obtain ⟨middle, hspeak, hsame⟩ := h before
  exact Task.exists_bind hspeak (hnext middle hsame)

theorem onlySpeaks_pure : OnlySpeaks (pure ()) :=
  fun before => ⟨before, answers_pure.2 ⟨rfl, rfl⟩, .refl before⟩

theorem OnlySpeaks.bind {first second : Task (StateM Workspace) Unit} (h : first.OnlySpeaks)
    (hsecond : second.OnlySpeaks) : OnlySpeaks (first >>= fun _ => second) := by
  intro before
  obtain ⟨middle, hfirst, hmiddle⟩ := h before
  obtain ⟨after, hafter, hsame⟩ := hsecond middle
  exact ⟨after, answers_bind.2 ⟨(), middle, hfirst, hafter⟩, hmiddle.trans hsame⟩

/-- A remark is made unless the level keeps it back. -/
theorem answers_remark {severity : Severity} {text : String} :
    Answers (remark severity text) before () after ↔
      after = (before.1, if severity.rank ≤ before.1.rank then
        { before.2 with remarks := (severity, text) :: before.2.remarks } else before.2) := by
  rw [remark, answers_bind]
  constructor
  · rintro ⟨level, middle, hlevel, h⟩
    obtain ⟨rfl, rfl⟩ := answers_get.1 hlevel
    by_cases hmade : severity.rank ≤ middle.1.rank
    · rw [if_pos hmade] at h ⊢
      exact (answers_lift.1 h).2
    · rw [if_neg hmade] at h ⊢
      exact (answers_pure.1 h).2
  · rintro rfl
    refine ⟨before.1, before, answers_get.2 ⟨rfl, rfl⟩, ?_⟩
    split
    · exact answers_lift.2 ⟨rfl, rfl⟩
    · exact answers_pure.2 ⟨rfl, rfl⟩

theorem remarks_remark {severity : Severity} {text : String}
    (h : Answers (remark severity text) before () after) :
    after.2.remarks =
      (if severity.rank ≤ before.1.rank then [(severity, text)] else []) ++ before.2.remarks := by
  rw [answers_remark.1 h]
  dsimp only
  split <;> rfl

theorem onlySpeaks_remark (severity : Severity) (text : String) :
    OnlySpeaks (remark severity text) := by
  refine fun before => ⟨_, answers_remark.2 rfl, ?_, ?_⟩ <;> split <;> rfl

theorem onlySpeaks_forM {items : List β} {speak : β → Task (StateM Workspace) Unit}
    (h : ∀ item ∈ items, (speak item).OnlySpeaks) : OnlySpeaks (items.forM speak) := by
  induction items with
  | nil => exact onlySpeaks_pure
  | cons item items ih =>
    obtain ⟨hitem, hitems⟩ := List.forall_mem_cons.1 h
    exact hitem.bind (ih hitems)

theorem onlySpeaks_remarkAll (notices : List Notice) : OnlySpeaks (remarkAll notices) :=
  onlySpeaks_forM fun notice _ => onlySpeaks_remark notice.severity notice.message

/-! ### What tasks keep -/

section Keeps

variable {σ : Type} {view : State → σ}

/-- A task that answers keeps what a view of the state shows. -/
def Keeps (view : State → σ) (task : Task (StateM Workspace) α) : Prop :=
  ∀ before answer after, task.Answers before answer after → view after = view before

theorem keeps_pure {value : α} : Keeps view (pure value) := by
  intro before answer after h
  rw [(answers_pure.1 h).2]

theorem Keeps.bind {first : Task (StateM Workspace) β} {next : β → Task (StateM Workspace) α}
    (h : first.Keeps view) (hnext : ∀ value, (next value).Keeps view) :
    Keeps view (first >>= next) := by
  intro before answer after hanswers
  obtain ⟨value, middle, hfirst, hlast⟩ := answers_bind.1 hanswers
  exact (hnext value _ _ _ hlast).trans (h _ _ _ hfirst)

theorem keeps_forM {items : List β} {task : β → Task (StateM Workspace) Unit}
    (h : ∀ item ∈ items, (task item).Keeps view) : Keeps view (items.forM task) := by
  induction items with
  | nil => exact keeps_pure
  | cons item items ih =>
    obtain ⟨hitem, hitems⟩ := List.forall_mem_cons.1 h
    exact hitem.bind fun _ => ih hitems

/-- Remarks do not change the level. -/
theorem keeps_remark (severity : Severity) (text : String) :
    Keeps Prod.fst (remark severity text) := by
  intro before answer after h
  rw [answers_remark.1 h]

end Keeps

end Task

/-! ### Documents in files -/

namespace Files

variable {path : Path} {text : String} {imported : Imported} {document : Document}
  {reading : ReadOptions} {writing : WriteOptions}

theorem answers_read : Task.Answers (read path) before text after ↔
    before.2.files.read path = .ok text ∧ after = before := by
  rw [read, Task.answers_bind]
  constructor
  · rintro ⟨result, middle, hread, h⟩
    obtain ⟨rfl, rfl⟩ := Task.answers_lift.1 hread
    exact Task.answers_orTrouble.1 h
  · rintro ⟨hread, rfl⟩
    exact ⟨_, _, Task.answers_lift.2 ⟨rfl, rfl⟩, Task.answers_orTrouble.2 ⟨hread, rfl⟩⟩

/-- A document is loaded if the file is read and holds one. -/
theorem load_ok (hload : Task.Answers (load path reading) before imported after) :
    SameFiles before after ∧ ∃ text, before.2.files.read path = .ok text ∧
      (Document.empty.importText reading text).result = .ok imported := by
  obtain ⟨text, start, hread, htext⟩ := Task.answers_bind.1 hload
  obtain ⟨hread, rfl⟩ := answers_read.1 hread
  obtain ⟨_, middle, hnotices, hresult⟩ := Task.answers_bind.1 htext
  have hmiddle := (Task.onlySpeaks_remarkAll _).sameFiles hnotices
  dsimp only at hresult
  split at hresult
  next => exact absurd hresult Task.answers_throw
  next himport =>
    obtain ⟨_, last, hremark, hlast⟩ := Task.answers_bind.1 hresult
    obtain ⟨rfl, rfl⟩ := Task.answers_pure.1 hlast
    exact ⟨hmiddle.trans ((Task.onlySpeaks_remark _ _).sameFiles hremark), text, hread, himport⟩

theorem run_change (command : FileTree → Except StorageError FileTree) (workspace : Workspace) :
    (Workspace.change command).run workspace =
      match command workspace.files with
      | .ok files => (.ok (), { workspace with files })
      | .error error => (.error error, workspace) := by
  simp only [Workspace.change, StateT.run_bind, StateT.run_get]
  cases h : command workspace.files <;> simp [h] <;> rfl

/-- Where the files can be changed, they are, and nothing else is. -/
theorem answers_change (command : FileTree → Except StorageError FileTree)
    (trouble : StorageError → Trouble) :
    Task.Answers (liftM (Workspace.change command) >>= orTrouble trouble) before () after ↔
      ∃ files, command before.2.files = .ok files ∧
        after = (before.1, { before.2 with files }) := by
  rw [Task.answers_bind]
  constructor
  · rintro ⟨result, middle, hchange, hresult⟩
    obtain ⟨rfl, rfl⟩ := Task.answers_lift.1 hchange
    obtain ⟨hok, rfl⟩ := Task.answers_orTrouble.1 hresult
    rw [run_change] at hok ⊢
    cases hfiles : command before.2.files with
    | error error => simp [hfiles] at hok
    | ok files => exact ⟨files, rfl, rfl⟩
  · rintro ⟨files, hfiles, rfl⟩
    refine ⟨.ok (), _, Task.answers_lift.2 ⟨?_, ?_⟩, Task.answers_orTrouble.2 ⟨rfl, rfl⟩⟩
    · rw [run_change, hfiles]
    · rw [run_change, hfiles]

theorem exists_load (hread : before.2.files.read path = .ok text)
    (himport : (Document.empty.importText reading text).result = .ok imported) :
    ∃ after, Task.Answers (load path reading) before imported after := by
  refine Task.exists_bind (answers_read.2 ⟨hread, rfl⟩) ?_
  refine (Task.onlySpeaks_remarkAll _).exists_bind fun middle _ => ?_
  rw [himport]
  refine (Task.onlySpeaks_remark _ _).exists_bind fun after _ => ?_
  exact ⟨after, Task.answers_pure.2 ⟨rfl, rfl⟩⟩

/-- Loading a document does not change the level. -/
theorem keeps_load : (load path reading).Keeps Prod.fst := by
  refine Task.Keeps.bind (fun before text after h => ?_) fun text => ?_
  · rw [(answers_read.1 h).2]
  refine (Task.keeps_forM fun notice _ => Task.keeps_remark _ _).bind fun _ => ?_
  split
  · exact fun _ _ _ h => absurd h Task.answers_throw
  · exact (Task.keeps_remark _ _).bind fun _ => Task.keeps_pure

/-- The directory in which a path ends is there, so that none needs to be made. -/
def ParentReady (files : FileTree) (path : Path) : Prop :=
  ∀ parent ∈ path.parent?, parent.text.isEmpty = true ∨ (files.kind? parent).isSome = true

/-- A directory is not made where the path leads somewhere, or is empty. -/
theorem answers_ensureDirectory
    (h : path.text.isEmpty = true ∨ (before.2.files.kind? path).isSome = true) :
    Task.Answers (ensureDirectory path) before () before := by
  unfold ensureDirectory
  split
  · exact Task.answers_pure.2 ⟨rfl, rfl⟩
  next hnonempty =>
    have hfound := h.resolve_left (by simpa using hnonempty)
    refine Task.answers_bind.2 ⟨true, before, Task.answers_leadsAnywhere.2 ⟨hfound.symm, rfl⟩, ?_⟩
    exact Task.answers_pure.2 ⟨rfl, rfl⟩

/-- A text is written to a file once the directories above it are there. -/
theorem write_ok (hwrite : Task.Answers (write path text) before () after) :
    ∃ tree : FileTree, tree.write path text = .ok after.2.files := by
  unfold write at hwrite
  dsimp only at hwrite
  split at hwrite
  next parent _ =>
    obtain ⟨_, middle, -, hlast⟩ := Task.answers_bind.1 hwrite
    obtain ⟨files, hfiles, rfl⟩ := (answers_change _ _).1 hlast
    exact ⟨_, hfiles⟩
  next =>
    obtain ⟨files, hfiles, rfl⟩ := (answers_change _ _).1 hwrite
    exact ⟨_, hfiles⟩

theorem answers_write {files : FileTree}
    (hparent : ParentReady before.2.files path)
    (hwrite : before.2.files.write path text = .ok files) :
    Task.Answers (write path text) before () (before.1, { before.2 with files }) := by
  have hlast := (answers_change (·.write path text) (.unwritable path)).2 ⟨files, hwrite, rfl⟩
  unfold write
  dsimp only
  split
  next parent hsome =>
    exact Task.answers_bind.2 ⟨(), before, answers_ensureDirectory (hparent _ hsome), hlast⟩
  next => exact hlast

/-- A document is saved in the end by a text that is written to its file. -/
theorem save_ok (hsave : Task.Answers (save document path writing) before () after) :
    ∃ tree : FileTree,
      tree.write path (document.toText writing before.2.now) = .ok after.2.files := by
  obtain ⟨now, start, hnow, hwrite⟩ := Task.answers_bind.1 hsave
  obtain ⟨rfl, rfl⟩ := Task.answers_now.1 hnow
  obtain ⟨_, middle, -, hwrite⟩ := Task.answers_bind.1 hwrite
  exact write_ok hwrite

theorem exists_save {files : FileTree}
    (hparent : ParentReady before.2.files path)
    (hwrite : before.2.files.write path (document.toText writing before.2.now) = .ok files) :
    ∃ after, Task.Answers (save document path writing) before () after := by
  refine Task.exists_bind (Task.answers_now.2 ⟨rfl, rfl⟩) ?_
  refine (Task.onlySpeaks_remarkAll _).exists_bind fun middle hsame => ?_
  rw [← hsame.files] at hparent hwrite
  exact ⟨_, answers_write hparent hwrite⟩

end Files

end Eaf

import DocIndex.Main
import DocIndex.Proofs.Store.Replacement

/-!
# What a run prints and leaves behind

A run ends with an answer of its command, or with a code that says why there is none (`run_outcome`). The
commands that may write are changes of views (`runCommand_of_change`), so a run has the guarantees of the
file store: it replaces the bytes of the store file by those of the changed documents if it prints a
revision, and keeps them otherwise (`run_replaces_or_keeps`). Beside the store file and its temporary one a
run leaves every place of the file system as it was (`entry?_run`).
-/

namespace DocIndex.CommandLine

open Documents (idOf stamp)
open Manager (Change)

/-! ### Changes -/

/-- The change that a command makes, if it makes one and its view can be read. -/
def changeOf? (fs : FileSystem) : Command → Option Change
  | .add group name view _ => (readView fs view).toOption.map fun view => .add group name view
  | .put group name view _ => (readView fs view).toOption.map fun view => .put group name view
  | .remove group name _ => some (.remove group name)
  | .check _ | .rows _ _ | .list _ _ => none

variable {settings : Settings} {situation : Situation} {command : Command} {fs : FileSystem}

theorem managed_written (result : Except ManagerError String × FileSystem) :
    managed putLine (Manager.written result) = managed line result := by
  obtain ⟨answer, after⟩ := result
  cases answer <;> rfl

theorem managed_snd {α : Type} (lineOf : α → String) (result : Except ManagerError α × FileSystem) :
    (managed lineOf result).2 = result.2 := by
  obtain ⟨answer, after⟩ := result
  cases answer <;> rfl

/-- A command whose change is known makes it to its store file. -/
theorem runCommand_of_change {change : Change} (hchange : changeOf? fs command = some change) :
    ∃ path, Program.storeOf? settings command = some path ∧
      runCommand settings situation command fs =
        managed putLine (change.run (Backend.file path .none) situation.suffix fs) := by
  cases command with
  | check view => cases hchange
  | rows view documents => cases hchange
  | list group store => cases hchange
  | add group name view store =>
    refine ⟨_, rfl, ?_⟩
    rw [changeOf?] at hchange
    cases hview : readView fs view with
    | error error =>
      rw [hview] at hchange
      cases hchange
    | ok found =>
      rw [hview] at hchange
      obtain rfl := Option.some.inj hchange
      unfold runCommand
      simp only [hview, Change.run, managed_written]
  | put group name view store =>
    refine ⟨_, rfl, ?_⟩
    rw [changeOf?] at hchange
    cases hview : readView fs view with
    | error error =>
      rw [hview] at hchange
      cases hchange
    | ok found =>
      rw [hview] at hchange
      obtain rfl := Option.some.inj hchange
      unfold runCommand
      simp only [hview, Change.run]
  | remove group name store =>
    obtain rfl := Option.some.inj hchange
    exact ⟨_, rfl, (managed_written _).symm⟩

/-- A command that only reads, or whose view cannot be read, leaves the files as they are. -/
theorem runCommand_of_no_change (hchange : changeOf? fs command = none) :
    (runCommand settings situation command fs).2 = fs := by
  have hview : ∀ (view : String) (make : View → Change),
      ((readView fs view).toOption.map make) = none → ∃ error, readView fs view = .error error := by
    intro view make hnone
    cases hview : readView fs view with
    | error error => exact ⟨error, rfl⟩
    | ok found =>
      rw [hview] at hnone
      cases hnone
  cases command with
  | check view => rfl
  | rows view documents => rfl
  | list group store => exact managed_snd _ _
  | add group name view store | put group name view store =>
    obtain ⟨error, herror⟩ := hview view _ hchange
    unfold runCommand
    simp only [herror]
  | remove group name store => cases hchange

/-- A run leaves the files as they are, or makes the change of its command to the store file that its
settings or its arguments name. -/
theorem run_cases (situation : Situation) (fs : FileSystem) :
    (run situation fs).2 = fs ∨
      ∃ invocation settings change path, Request.ofArguments situation.arguments = .run invocation ∧
        Settings.load fs situation.environment invocation.settingsFile = .ok settings ∧
        settings.fault? = none ∧ changeOf? fs invocation.command = some change ∧
        Program.storeOf? settings invocation.command = some path ∧
        run situation fs = managed putLine (change.run (Backend.file path .none) situation.suffix fs) := by
  unfold run
  split
  · rename_i invocation harguments
    unfold runInvocation
    split
    · exact .inl rfl
    · exact .inl rfl
    · rename_i settings hsettings
      split
      · exact .inl rfl
      · rename_i hfault
        dsimp only
        cases hchange : changeOf? fs invocation.command with
        | none => exact .inl (runCommand_of_no_change hchange)
        | some change =>
          obtain ⟨path, hpath, hrun⟩ := @runCommand_of_change
            { settings with legacyMinute := settings.legacyMinute || invocation.legacyMinute } situation
            invocation.command fs change hchange
          exact .inr ⟨invocation, settings, change, path, harguments, hsettings, hfault, hchange, hpath, hrun⟩
  · exact .inl rfl
  · exact .inl rfl
  · exact .inl rfl

/-! ### Outcomes -/

/-- An outcome of a command: it succeeds without a report, or fails without an output. -/
def Outcome.IsAnswer (outcome : Outcome) : Prop :=
  (∃ output, outcome = .success output) ∨ ∃ error, outcome = .failure error

theorem isAnswer_managed {α : Type} (lineOf : α → String) (result : Except ManagerError α × FileSystem) :
    (managed lineOf result).1.IsAnswer := by
  obtain ⟨_ | answer, after⟩ := result
  · exact .inr ⟨_, rfl⟩
  · exact .inl ⟨lineOf answer, rfl⟩

theorem isAnswer_printed (result : Except RunError String) : (printed result).IsAnswer := by
  cases result with
  | error error => exact .inr ⟨error, rfl⟩
  | ok output => exact .inl ⟨output, rfl⟩

theorem isAnswer_runCommand (settings : Settings) (situation : Situation) (command : Command)
    (fs : FileSystem) : (runCommand settings situation command fs).1.IsAnswer := by
  cases command with
  | check view => exact isAnswer_printed _
  | rows view documents => exact isAnswer_printed _
  | add group name view store | put group name view store =>
    unfold runCommand
    dsimp only
    cases readView fs view with
    | error error => exact .inr ⟨_, rfl⟩
    | ok view => exact isAnswer_managed _ _
  | remove group name store => exact isAnswer_managed _ _
  | list group store => exact isAnswer_managed _ _

/-- The exit code tells how a run went: with 0 it has printed all there is to say, with 1 nothing but a
report, with 2 its arguments asked for nothing that can be done, and with 101 its settings ended it. -/
theorem run_outcome (situation : Situation) (fs : FileSystem) :
    (run situation fs).1.IsAnswer ∨
      (run situation fs).1 = ⟨2, "", helpText⟩ ∧ Request.ofArguments situation.arguments = .invalid ∨
      (run situation fs).1 = .aborted ∧ ∃ invocation,
        Request.ofArguments situation.arguments = .run invocation ∧
          Settings.load fs situation.environment invocation.settingsFile = .error .aborted := by
  unfold run
  split
  · rename_i invocation harguments
    unfold runInvocation
    split
    · rename_i hsettings
      exact .inr (.inr ⟨rfl, invocation, harguments, hsettings⟩)
    · exact .inl (.inr ⟨_, rfl⟩)
    · split
      · exact .inl (.inr ⟨_, rfl⟩)
      · exact .inl (isAnswer_runCommand _ _ _ _)
  · exact .inl (.inl ⟨_, rfl⟩)
  · exact .inl (.inl ⟨_, rfl⟩)
  · rename_i harguments
    exact .inr (.inl ⟨rfl, harguments⟩)

/-! ### Files -/

/-- **A run replaces its store file as a whole, if it prints a revision, and keeps it otherwise.** A run
either leaves all files as they are, or makes a change to a store file. If that answers a revision, this
is what the run prints, and the store file then holds the printed form of the documents that were loaded
from it, with the changed one in place under that revision. In any other case the run fails or prints that
nothing has changed, and the bytes of the store file are those of before, or as absent as before. -/
theorem run_replaces_or_keeps (situation : Situation) (fs : FileSystem) :
    (run situation fs).2 = fs ∨
      ∃ path, ((run situation fs).1 = .success (line "unchanged") ∨
            ∃ error, (run situation fs).1 = .failure (.manager error)) ∧
          (run situation fs).2.read path = fs.read path ∨
        ∃ rev documents document id, (run situation fs).1 = .success (line rev) ∧
          FileStore.load path .none fs = .ok documents ∧ idOf document = .ok id ∧
          (run situation fs).2.read path =
            .ok (FileStore.encode (Dict.insert id (stamp rev document) documents)) := by
  rcases run_cases situation fs with hsame | ⟨_, _, change, path, -, -, -, -, -, hrun⟩
  · exact .inl hsame
  · refine .inr ⟨path, ?_⟩
    have hread := change.read_run path .none .none situation.suffix fs
    rw [Backend.failing_none] at hread
    rw [hrun, managed_snd]
    rcases hchange : change.run (Backend.file path .none) situation.suffix fs with ⟨_ | outcome, after⟩
    · rename_i error
      rw [hchange] at hread
      exact .inl ⟨.inr ⟨error, rfl⟩, hread⟩
    · rw [hchange] at hread
      cases outcome with
      | unchanged => exact .inl ⟨.inl rfl, hread⟩
      | written rev =>
        obtain ⟨documents, document, written, hload, -, hwrite, hafter⟩ := hread
        obtain ⟨id, hid, -, -, rfl⟩ := Documents.write_eq_ok_iff.mp hwrite
        exact .inr ⟨rev, documents, document, id, rfl, hload, hid, hafter⟩

/-- **A run touches no other file.** A place that neither the store file of a run nor its temporary file
leads to holds afterwards what it held before. -/
theorem entry?_run (situation : Situation) {fs : FileSystem} {found : Place}
    (hstore : ∀ invocation settings path, Request.ofArguments situation.arguments = .run invocation →
      Settings.load fs situation.environment invocation.settingsFile = .ok settings →
      Program.storeOf? settings invocation.command = some path →
      fs.resolve path ≠ .ok found ∧ fs.resolve (FileStore.temporary path) ≠ .ok found) :
    FileSystem.entry? (run situation fs).2 found = fs.entry? found := by
  rcases run_cases situation fs with
    hsame | ⟨invocation, settings, change, path, harguments, hsettings, -, -, hpath, hrun⟩
  · rw [hsame]
  · obtain ⟨hplace, htemporary⟩ := hstore invocation settings path harguments hsettings hpath
    rw [hrun, managed_snd]
    exact change.entry?_run path .none situation.suffix hplace htemporary

end DocIndex.CommandLine

import DocIndex.Proofs.Store.Mirror
import DocIndex.Proofs.Store.TemporaryFile

/-!
# A store file is replaced as a whole or not at all

Whatever the store file holds, and whichever of its file operations fail, an operation that issues no
revision leaves the bytes of the file as they were, and one that does replaces them by those of the
documents that were loaded, with one of them written (`Operation.replaces_or_keeps`).
-/

namespace DocIndex

open Documents (idOf stamp)

/-- The store in the file at a path, with failures of their own for its reads and for its writes. -/
def Backend.failing (path : String) (reading writing : FileFaults) : Backend FileSystem where
  get := FileStore.get path reading
  put := FileStore.put path writing

theorem Backend.failing_none (path : String) : Backend.failing path .none .none = Backend.file path .none :=
  rfl

namespace Manager

/-- The revision that a reply issues. -/
def Reply.rev? : Reply → Option String
  | .put (.ok rev) => some rev
  | .request (.change (.ok (.written rev))) => some rev
  | _ => none

/-- The document that an operation hands to the store, if it gets as far as that. -/
def Operation.document? {σ : Type} (store : Backend σ) (state : σ) : Operation → Option Json
  | put _ document => some document
  | request (.change _ change) =>
    match change.plan (store.get change.target state) with
    | .ok document => document
    | .error _ => none
  | _ => none

/-- A change either leaves the store file as it is, or writes what it planned. -/
theorem Change.read_run (path : String) (reading writing : FileFaults) (suffix : String) (change : Change)
    (fs : FileSystem) :
    match (change.run (Backend.failing path reading writing) suffix fs).1 with
    | .ok (.written rev) => ∃ documents document written, FileStore.load path writing fs = .ok documents ∧
        change.plan (FileStore.get path reading change.target fs) = .ok (some document) ∧
        documents.write suffix document = .ok (rev, written) ∧
        (change.run (Backend.failing path reading writing) suffix fs).2.read path =
          .ok (FileStore.encode written)
    | _ => (change.run (Backend.failing path reading writing) suffix fs).2.read path = fs.read path := by
  rw [run_eq_finish]
  simp only [Backend.failing]
  cases hplan : change.plan (FileStore.get path reading change.target fs) with
  | error error => rfl
  | ok document =>
    cases document with
    | none => rfl
    | some document =>
      simp only [finish, written, save_fst, save_snd]
      have hread := FileStore.read_put path writing suffix document fs
      cases hput : (FileStore.put path writing suffix document fs).1 with
      | error error =>
        rw [hput] at hread
        exact hread
      | ok rev =>
        rw [hput] at hread
        obtain ⟨documents, written, hload, hwrite, hafter⟩ := hread
        exact ⟨documents, document, written, hload, rfl, hwrite, hafter⟩

/-- A change touches no place but those of the store file and its temporary file. -/
theorem Change.entry?_run (path : String) (faults : FileFaults) (suffix : String) (change : Change)
    {fs : FileSystem} {found : Place} (hpath : fs.resolve path ≠ .ok found)
    (htemporary : fs.resolve (FileStore.temporary path) ≠ .ok found) :
    FileSystem.entry? (change.run (Backend.file path faults) suffix fs).2 found = fs.entry? found := by
  rw [run_eq_finish]
  cases change.plan ((Backend.file path faults).get change.target fs) with
  | error error => rfl
  | ok document =>
    cases document with
    | none => rfl
    | some document =>
      simp only [finish, written, save_snd]
      exact FileStore.entry?_put path faults suffix document hpath htemporary

/-- **A store file is replaced as a whole or not at all.** Let the file system hold anything and any of
the file operations fail. An operation of a store or of a manager that issues no revision leaves the
bytes of the store file, or their absence, as they were. One that issues a revision leaves the printed
form of the documents that it loaded, with the document that it wrote in place, under this revision. -/
theorem Operation.replaces_or_keeps (path : String) (reading writing : FileFaults) (options : Options)
    (operation : Operation) (fs : FileSystem) :
    match (operation.run (Backend.failing path reading writing) options fs).1.rev? with
    | none => (operation.run (Backend.failing path reading writing) options fs).2.read path = fs.read path
    | some rev => ∃ documents document id, FileStore.load path writing fs = .ok documents ∧
        operation.document? (Backend.failing path reading writing) fs = some document ∧
        idOf document = .ok id ∧
        (operation.run (Backend.failing path reading writing) options fs).2.read path =
          .ok (FileStore.encode (Dict.insert id (stamp rev document) documents)) := by
  cases operation with
  | get id => rfl
  | put suffix document =>
    have hread := FileStore.read_put path writing suffix document fs
    simp only [run, Backend.failing]
    cases hput : (FileStore.put path writing suffix document fs).1 with
    | error error =>
      rw [hput] at hread
      exact hread
    | ok rev =>
      rw [hput] at hread
      obtain ⟨documents, written, hload, hwrite, hafter⟩ := hread
      obtain ⟨id, hid, -, -, rfl⟩ := Documents.write_eq_ok_iff.mp hwrite
      exact ⟨documents, document, id, hload, rfl, hid, hafter⟩
  | request call =>
    cases call with
    | view group name => rfl
    | list group => rfl
    | change suffix change =>
      have hread := change.read_run path reading writing suffix fs
      simp only [run, Request.run]
      cases hrun : (change.run (Backend.failing path reading writing) suffix fs).1 with
      | error error =>
        rw [hrun] at hread
        exact hread
      | ok outcome =>
        rw [hrun] at hread
        cases outcome with
        | unchanged => exact hread
        | written rev =>
          obtain ⟨documents, document, written, hload, hplan, hwrite, hafter⟩ := hread
          obtain ⟨id, hid, -, -, rfl⟩ := Documents.write_eq_ok_iff.mp hwrite
          refine ⟨documents, document, id, hload, ?_, hid, hafter⟩
          simp only [document?, Backend.failing, hplan]

end Manager

end DocIndex

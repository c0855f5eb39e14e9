import DocIndex.Proofs.Design.Document
import DocIndex.Store.Manager

/-!
# Changes of views

The three operations of a manager that may write, as one type. A change reads the design document of
its group, revises it, and writes the outcome unless that is an error or nothing new; `run_eq_finish`
says so of the operations themselves, which is what lets other writers come between the read and the
write.
-/

namespace DocIndex.Manager

open Documents (currentRev UnderOwnId)

/-- An operation that may change a view. -/
inductive Change where
  /-- Add a view that must not be there yet. -/
  | add (group name : String) (view : View)
  /-- Add or replace a view. -/
  | put (group name : String) (view : View)
  /-- Remove a view that must be there. -/
  | remove (group name : String)

variable {σ : Type}

/-- The answer of an operation that always writes, as that of one that may find nothing to do. -/
def written (result : Except ManagerError String × σ) : Except ManagerError PutOutcome × σ :=
  (result.1.map .written, result.2)

/-- What follows the read of a change: nothing, or a write of the planned document. -/
def finish (store : Backend σ) (suffix : String) (plan : Except ManagerError (Option Json))
    (state : σ) : Except ManagerError PutOutcome × σ :=
  match plan with
  | .error error => (.error error, state)
  | .ok none => (.ok .unchanged, state)
  | .ok (some document) => written (save store suffix document state)

namespace Change

/-- The group that is changed. -/
def group : Change → String
  | add group _ _ | put group _ _ | remove group _ => group

/-- The id of the design document that is changed. -/
def target (change : Change) : String := DesignDocument.idOf change.group

/-- What is to be written, if anything, given what reading the design document answered. -/
def plan : Change → Except StoreError Json → Except ManagerError (Option Json)
  | add group name view, read => (planAdd group name view read).map some
  | put group name view, read => planPut group name view read
  | remove group name, read => (planRemove group name read).map some

/-- The operation on a store, all in one piece. -/
def run (store : Backend σ) (suffix : String) : Change → σ → Except ManagerError PutOutcome × σ
  | add group name view, state => Manager.written (Manager.add store suffix group name view state)
  | put group name view, state => Manager.put store suffix group name view state
  | remove group name, state => Manager.written (Manager.remove store suffix group name state)

/-- The design document with the change made, if there is anything to change. -/
def revise : Change → DesignDocument → Except ManagerError (Option DesignDocument)
  | add group name view, design =>
    if design.hasView name then .error (.duplicateView group name)
    else .ok (some (withView design name view))
  | put _ name view, design =>
    if (Dict.find? name design.views).any (· == view.toDefinition) then .ok none
    else .ok (some (withView design name view))
  | remove group name, design =>
    if design.hasView name then
      .ok (some { design with views := Dict.erase name design.views })
    else .error (.missingView group name)

/-- A plan reads the design document and writes the revised one. -/
theorem plan_eq (change : Change) (read : Except StoreError Json) :
    change.plan read = (designOf change.group read).bind fun design =>
      (change.revise design).map (Option.map DesignDocument.toJson) := by
  cases change with
  | add group name view =>
    simp only [plan, planAdd, Change.group, revise, bind, Except.bind]
    cases designOf group read with
    | error error => rfl
    | ok design =>
      simp only []
      split <;> rfl
  | put group name view =>
    simp only [plan, planPut, Change.group, revise, bind, Except.bind]
    cases designOf group read with
    | error error => rfl
    | ok design =>
      simp only []
      cases Dict.find? name design.views with
      | none => rfl
      | some stored =>
        simp only [Option.any_some]
        split <;> rfl
  | remove group name =>
    simp only [plan, planRemove, Change.group, revise, bind, Except.bind]
    cases designOf group read with
    | error error => rfl
    | ok design =>
      simp only []
      split <;> rfl

theorem plan_eq_ok_some_iff {change : Change} {read : Except StoreError Json} {document : Json} :
    change.plan read = .ok (some document) ↔
      ∃ design revised, designOf change.group read = .ok design ∧
        change.revise design = .ok (some revised) ∧ revised.toJson = document := by
  rw [plan_eq]
  cases designOf change.group read with
  | error error => simp [Except.bind]
  | ok design =>
    cases hrevise : change.revise design with
    | error error => simp [Except.bind, Except.map, hrevise]
    | ok revised => cases revised <;> simp [Except.bind, Except.map, hrevise]

/-- The name of the view that is changed. -/
def name : Change → String
  | add _ name _ | put _ name _ | remove _ name => name

/-- What the name is bound to by the change; a removed view is bound to nothing. -/
def definition? : Change → Option Json
  | add _ _ view | put _ _ view => some view.toDefinition
  | remove _ _ => none

/-- The views with the change made. -/
def edit (change : Change) (views : List (String × Json)) : List (String × Json) :=
  match change.definition? with
  | some definition => Dict.insert change.name definition views
  | none => Dict.erase change.name views

theorem find?_edit_self (change : Change) (views : List (String × Json)) :
    Dict.find? change.name (change.edit views) = change.definition? := by
  rw [edit]
  cases change.definition? with
  | none => exact Dict.find?_erase_self change.name views
  | some definition => exact Dict.find?_insert_self change.name definition views

theorem find?_edit_of_ne {change : Change} {other : String} (h : other ≠ change.name)
    (views : List (String × Json)) :
    Dict.find? other (change.edit views) = Dict.find? other views := by
  rw [edit]
  cases change.definition? with
  | none => exact Dict.find?_erase_of_ne h views
  | some definition => exact Dict.find?_insert_of_ne h definition views

/-- A change that is made is made to the views. -/
theorem revised_eq {change : Change} {design revised : DesignDocument}
    (h : change.revise design = .ok (some revised)) :
    revised = { design with views := change.edit design.views } := by
  cases change with
  | add group name view =>
    simp only [revise] at h
    split at h <;> cases h
    rfl
  | put group name view =>
    simp only [revise] at h
    split at h <;> cases h
    rfl
  | remove group name =>
    simp only [revise] at h
    split at h <;> cases h
    rfl

/-- A change touches the views of a design document and nothing else. -/
theorem revise_eq_ok_some {change : Change} {design revised : DesignDocument}
    (h : change.revise design = .ok (some revised)) :
    revised = { design with views := revised.views } := by
  rw [revised_eq h]

theorem separate_of_revise {change : Change} {design revised : DesignDocument}
    (h : change.revise design = .ok (some revised)) (hdesign : design.Separate) :
    revised.Separate := by
  rw [revise_eq_ok_some h]
  exact hdesign

/-- An operation is its read followed by what is left to do. -/
theorem run_eq_finish (store : Backend σ) (suffix : String) (change : Change) (state : σ) :
    change.run store suffix state =
      finish store suffix (change.plan (store.get change.target state)) state := by
  cases change with
  | add group name view =>
    simp only [run, Manager.add, plan, target, Change.group]
    cases planAdd group name view (store.get (DesignDocument.idOf group) state) <;> rfl
  | put group name view =>
    simp only [run, Manager.put, plan, target, Change.group]
    cases planPut group name view (store.get (DesignDocument.idOf group) state) with
    | error error => rfl
    | ok document =>
      cases document with
      | none => rfl
      | some document =>
        simp only [finish, written]
        rcases save store suffix document state with ⟨_ | _, _⟩ <;> rfl
  | remove group name =>
    simp only [run, Manager.remove, plan, target, Change.group]
    cases planRemove group name (store.get (DesignDocument.idOf group) state) <;> rfl

end Change

/-! ### The design document of a group -/

theorem designOf_eq_ok_iff {group : String} {read : Except StoreError Json}
    {design : DesignDocument} :
    designOf group read = .ok design ↔
      (∃ document, read = .ok document ∧ DesignDocument.ofJson document = .ok design) ∨
      (∃ id, read = .error (.notFound id)) ∧ design = .new group := by
  cases read with
  | ok document => cases h : DesignDocument.ofJson document <;> simp [designOf, h]
  | error error => cases error <;> simp [designOf, eq_comm]

theorem separate_of_designOf {group : String} {read : Except StoreError Json}
    {design : DesignDocument} (h : designOf group read = .ok design) : design.Separate := by
  rcases designOf_eq_ok_iff.mp h with ⟨document, -, hdocument⟩ | ⟨-, rfl⟩
  · exact DesignDocument.separate_of_ofJson hdocument
  · exact DesignDocument.separate_new group

/-- What a manager reads of a group has the stored revision, and the group's id if it lies under its own
id. -/
theorem id_and_rev_of_designOf {documents : Documents} {group : String}
    (hown : UnderOwnId (DesignDocument.idOf group) documents) {design : DesignDocument}
    (h : designOf group (documents.read (DesignDocument.idOf group)) = .ok design) :
    design.id = DesignDocument.idOf group ∧
      design.rev = currentRev (DesignDocument.idOf group) documents := by
  rcases designOf_eq_ok_iff.mp h with ⟨document, hread, hdocument⟩ | ⟨⟨id, hread⟩, rfl⟩
  · have hfind := Documents.read_eq_ok_iff.mp hread
    have hid := hown document hfind
    rw [DesignDocument.idOf_of_ofJson hdocument, Except.ok.injEq] at hid
    refine ⟨hid, ?_⟩
    rw [currentRev, hfind, Option.bind_some, DesignDocument.revOf_of_ofJson hdocument]
  · refine ⟨rfl, ?_⟩
    rw [currentRev, Documents.find?_eq_none_of_read hread]
    rfl

/-- What a manager sees of a memory store. -/
theorem design_memory (group : String) (documents : Documents) :
    design Backend.memory group documents =
      designOf group (documents.read (DesignDocument.idOf group)) := rfl

/-! ### Single writes -/

/-- A put into the memory store succeeds as the write does, and changes nothing if it fails. -/
theorem written_save_cases (suffix : String) (document : Json) (documents : Documents) :
    (∃ rev after, documents.write suffix document = .ok (rev, after) ∧
      written (save Backend.memory suffix document documents) = (.ok (.written rev), after)) ∨
    (∃ error, written (save Backend.memory suffix document documents) =
      (.error (.store error), documents)) := by
  cases h : documents.write suffix document with
  | ok result =>
    exact .inl ⟨result.1, result.2, rfl, by simp [written, save, Backend.memory, h, Except.map]⟩
  | error error => exact .inr ⟨error, by simp [written, save, Backend.memory, h, Except.map]⟩

theorem written_save_eq {suffix rev : String} {document : Json} {documents after : Documents}
    (h : documents.write suffix document = .ok (rev, after)) :
    written (save Backend.memory suffix document documents) = (.ok (.written rev), after) := by
  simp [written, save, Backend.memory, h, Except.map]

end DocIndex.Manager

import DocIndex.Proofs.Store.Change

/-!
# Requests to a manager

The operations of a manager as one type, with their answers, and runs of any number of them. In a memory
store whose documents lie under their own ids, what a change does is read off the design document alone
(`Change.run_memory`).
-/

namespace DocIndex.Manager

open Documents (currentRev stamp UnderOwnId)

variable {σ : Type}

/-- A call of a manager's operation. -/
inductive Request where
  /-- Change a view; a revision that this makes ends in the suffix. -/
  | change (suffix : String) (change : Change)
  /-- Load a view. -/
  | view (group name : String)
  /-- List the views of a group. -/
  | list (group : String)

/-- What a request answers. -/
inductive Answer where
  /-- The answer of a change. -/
  | change (result : Except ManagerError PutOutcome)
  /-- The view, if there is one. -/
  | view (result : Except ManagerError (Option CompiledView))
  /-- The names of the views. -/
  | list (result : Except ManagerError (List String))

/-- A request on a store. -/
def Request.run (store : Backend σ) (options : Options) (state : σ) : Request → Answer × σ
  | change suffix operation =>
    let result := operation.run store suffix state
    (.change result.1, result.2)
  | view group name => (.view (Manager.view store options group name state), state)
  | list group => (.list (Manager.list store group state), state)

/-- Requests one after another: their answers, and the state afterwards. -/
def serve (store : Backend σ) (options : Options) : List Request → σ → List Answer × σ
  | [], state => ([], state)
  | request :: requests, state =>
    let next := request.run store options state
    let rest := serve store options requests next.2
    (next.1 :: rest.1, rest.2)

/-! ### Changes of a memory store -/

/-- A revised design document carries the stored revision, so that writing it succeeds. -/
theorem Change.write_revised {documents : Documents} {change : Change}
    (hown : UnderOwnId change.target documents) {design revised : DesignDocument}
    (hdesign : designOf change.group (documents.read change.target) = .ok design)
    (hrevise : change.revise design = .ok (some revised)) (suffix : String) :
    documents.write suffix revised.toJson =
      .ok (Revision.next design.rev suffix, Dict.insert change.target
        (stamp (Revision.next design.rev suffix) revised.toJson) documents) := by
  obtain ⟨hid, hrev⟩ := id_and_rev_of_designOf hown hdesign
  have hrevised := revise_eq_ok_some hrevise
  have hseparate := separate_of_revise hrevise (separate_of_designOf hdesign)
  have hrevOf : Documents.revOf revised.toJson = design.rev := by
    rw [DesignDocument.revOf_toJson hseparate, hrevised]
  have hidOf : Documents.idOf revised.toJson = .ok change.target := by
    rw [DesignDocument.idOf_toJson, hrevised, target, ← hid]
  refine Documents.write_eq_ok_iff.mpr ⟨change.target, hidOf, ?_, ?_, rfl⟩
  · rw [hrevOf, hrev, target]
  · rw [hrevOf]

/-- A change of a memory store whose document of the group lies under its own id: the design document is
revised, and stored with the next revision if there is anything new. -/
theorem Change.run_memory {documents : Documents} {change : Change}
    (hown : UnderOwnId change.target documents) {design : DesignDocument}
    (hdesign : designOf change.group (documents.read change.target) = .ok design)
    (suffix : String) :
    change.run Backend.memory suffix documents =
      match change.revise design with
      | .error error => (.error error, documents)
      | .ok none => (.ok .unchanged, documents)
      | .ok (some revised) =>
        (.ok (.written (Revision.next design.rev suffix)),
          Dict.insert change.target (stamp (Revision.next design.rev suffix) revised.toJson) documents) := by
  have hplan : change.plan (Backend.memory.get change.target documents) =
      (change.revise design).map (Option.map DesignDocument.toJson) := by
    rw [change.plan_eq, Backend.memory, hdesign]
    rfl
  rw [run_eq_finish, hplan]
  cases hrevise : change.revise design with
  | error error => simp [Except.map, finish]
  | ok revised =>
    cases revised with
    | none => simp [Except.map, finish]
    | some revised =>
      simp only [Except.map, Option.map_some, finish]
      exact written_save_eq (write_revised hown hdesign hrevise suffix)

/-- A change either plans a document that is written, or leaves the documents as they are and answers no
revision. -/
theorem Change.run_memory_cases (change : Change) (suffix : String) (documents : Documents) :
    (∃ rev after document, change.plan (documents.read change.target) = .ok (some document) ∧
      documents.write suffix document = .ok (rev, after) ∧
      change.run Backend.memory suffix documents = (.ok (.written rev), after)) ∨
    ∃ result, change.run Backend.memory suffix documents = (result, documents) ∧
      ∀ rev, result ≠ .ok (.written rev) := by
  rw [run_eq_finish, Backend.memory]
  cases hplan : change.plan (documents.read change.target) with
  | error error => exact .inr ⟨_, rfl, by simp⟩
  | ok plan =>
    cases plan with
    | none => exact .inr ⟨_, rfl, by simp⟩
    | some document =>
      rcases written_save_cases suffix document documents with
        ⟨rev, after, hwrite, hresult⟩ | ⟨error, hresult⟩
      · exact .inl ⟨rev, after, document, rfl, hwrite, hresult⟩
      · exact .inr ⟨_, hresult, by simp⟩

/-- A change that is written has planned a document, and this was written. -/
theorem Change.exists_write_of_written {documents after : Documents} {change : Change}
    {suffix rev : String}
    (hrun : change.run Backend.memory suffix documents = (.ok (.written rev), after)) :
    ∃ document, change.plan (documents.read change.target) = .ok (some document) ∧
      documents.write suffix document = .ok (rev, after) := by
  rcases change.run_memory_cases suffix documents with
    ⟨_, _, document, hplan, hwrite, hresult⟩ | ⟨_, hresult, hnot⟩
  · obtain ⟨⟨⟩, rfl⟩ := Prod.mk.inj (hresult.symm.trans hrun)
    exact ⟨document, hplan, hwrite⟩
  · obtain ⟨rfl, -⟩ := Prod.mk.inj (hresult.symm.trans hrun)
    exact absurd rfl (hnot rev)

/-- A change that is written stores the design document that was read of the group, with the change made
and the new revision, under the id that stands in it. -/
theorem Change.exists_design_of_written {documents after : Documents} {change : Change}
    {suffix rev : String}
    (hrun : change.run Backend.memory suffix documents = (.ok (.written rev), after)) :
    ∃ design, designOf change.group (documents.read change.target) = .ok design ∧
      after = Dict.insert design.id
        (stamp rev { design with views := change.edit design.views }.toJson) documents := by
  obtain ⟨document, hplan, hwrite⟩ := exists_write_of_written hrun
  obtain ⟨design, revised, hdesign, hrevise, rfl⟩ := plan_eq_ok_some_iff.mp hplan
  obtain ⟨id, hid, -, -, rfl⟩ := Documents.write_eq_ok_iff.mp hwrite
  rw [DesignDocument.idOf_toJson, Except.ok.injEq] at hid
  rw [revised_eq hrevise] at hid ⊢
  exact ⟨design, hdesign, by rw [← hid]⟩

/-- What is read of the group afterwards, if its document had the group's id. -/
theorem designOf_insert {change : Change} {design : DesignDocument} {documents : Documents}
    (hdesign : designOf change.group (documents.read change.target) = .ok design)
    (hid : design.id = change.target) (views : List (String × Json)) (rev : String) :
    designOf change.group (Documents.read change.target
        (Dict.insert design.id (stamp rev { design with views := views }.toJson) documents)) =
      .ok { design with rev := some rev, views := views } := by
  have hseparate : DesignDocument.Separate { design with views := views } :=
    fun member hmem => separate_of_designOf hdesign member hmem
  refine designOf_eq_ok_iff.mpr (.inl ⟨_, ?_, DesignDocument.ofJson_stamp_toJson hseparate rev⟩)
  rw [hid, Documents.read_eq_ok_iff, Dict.find?_insert_self]

end DocIndex.Manager

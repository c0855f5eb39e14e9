import DocIndex.Proofs.Dict
import DocIndex.Proofs.Store.Write

/-!
# Writes in place

A write once more, as steps on documents that it changes in place (`Documents.writeInPlace`), where whatever was
done before a failure stays done. Both ways give the same answer and leave the same documents, because the only
step that changes anything is the last one (`Documents.run_writeInPlace`). A write ends in one of three ways
(`Documents.put_cases`): it replaces the entry of the document's id and no other, or it is refused for one of two
reasons and has changed nothing (`Documents.put_exact_and_atomic`).
-/

namespace DocIndex.Documents

/-- Puts a document with a revision under its id, as a step on the documents themselves. -/
def stampInPlace (id rev : String) : Json → ExceptT StoreError (StateM Documents) String
  | .obj members => do
    modify (Dict.insert id (.obj (Dict.insert "_rev" (.str rev) members)))
    return rev
  | _ => throw (.invalidDocument (.notObject id))

/-- The write as steps on the documents themselves. -/
def writeInPlace (suffix : String) (document : Json) : ExceptT StoreError (StateM Documents) String := do
  let id ← ExceptT.mk (pure (idOf document))
  let current := currentRev id (← get)
  if current = revOf document then stampInPlace id (Revision.next current suffix) document
  else throw (.conflict id)

theorem idOf_of_no_id {document : Json} (h : ∀ id, document.member? "_id" ≠ some (.str id)) :
    idOf document = .error (.invalidDocument .noId) := by
  unfold idOf
  split
  · rename_i id hid
    exact absurd hid (h id)
  · rfl

/-- What is stored has the members of the document, but for its revision. -/
theorem member?_stamp {document : Json} {id : String} (h : idOf document = .ok id) (rev key : String) :
    (stamp rev document).member? key = if key = "_rev" then some (.str rev) else document.member? key := by
  obtain ⟨members, rfl⟩ := exists_members_of_idOf h
  exact Dict.find?_insert "_rev" (.str rev) members key

/-! ### The outcomes of a write -/

section

variable (suffix : String) (document : Json) (documents : Documents)

theorem put_of_current {id : String} (hid : idOf document = .ok id)
    (hrev : currentRev id documents = revOf document) : Backend.memory.put suffix document documents =
      (.ok (Revision.next (revOf document) suffix),
        Dict.insert id (stamp (Revision.next (revOf document) suffix) document) documents) := by
  simp only [Backend.memory, write_eq_ok_iff.mpr ⟨id, hid, hrev, rfl, rfl⟩]

theorem put_of_stale {id : String} (hid : idOf document = .ok id)
    (hrev : currentRev id documents ≠ revOf document) :
    Backend.memory.put suffix document documents = (.error (.conflict id), documents) := by
  simp only [Backend.memory, write, hid, bind, Except.bind, if_neg hrev]

theorem put_of_no_id (h : ∀ id, document.member? "_id" ≠ some (.str id)) :
    Backend.memory.put suffix document documents = (.error (.invalidDocument .noId), documents) := by
  simp only [Backend.memory, write, idOf_of_no_id h, bind, Except.bind]

/-- A write succeeds, is in conflict or has no id to write to. -/
theorem put_cases :
    (∃ id, idOf document = .ok id ∧ currentRev id documents = revOf document ∧
      Backend.memory.put suffix document documents =
        (.ok (Revision.next (revOf document) suffix),
          Dict.insert id (stamp (Revision.next (revOf document) suffix) document) documents)) ∨
    (∃ id, idOf document = .ok id ∧ currentRev id documents ≠ revOf document ∧
      Backend.memory.put suffix document documents = (.error (.conflict id), documents)) ∨
    (∀ id, document.member? "_id" ≠ some (.str id)) ∧
      Backend.memory.put suffix document documents = (.error (.invalidDocument .noId), documents) := by
  by_cases h : ∃ id, document.member? "_id" = some (.str id)
  · obtain ⟨id, hmember⟩ := h
    have hid := idOf_eq_ok_iff.mpr hmember
    by_cases hrev : currentRev id documents = revOf document
    · exact .inl ⟨id, hid, hrev, put_of_current suffix document documents hid hrev⟩
    · exact .inr (.inl ⟨id, hid, hrev, put_of_stale suffix document documents hid hrev⟩)
  · have hnone := not_exists.mp h
    exact .inr (.inr ⟨hnone, put_of_no_id suffix document documents hnone⟩)

theorem run_writeInPlace_of_id {id : String} (hid : idOf document = .ok id) :
    (writeInPlace suffix document).run.run documents =
      (if currentRev id documents = revOf document then
        stampInPlace id (Revision.next (currentRev id documents) suffix) document
      else throw (.conflict id)).run.run documents := by
  rw [writeInPlace, hid]
  rfl

/-- In place or not, a write gives the same answer and the same documents. -/
theorem run_writeInPlace :
    (writeInPlace suffix document).run.run documents = Backend.memory.put suffix document documents := by
  rcases put_cases suffix document documents with ⟨id, hid, hrev, hput⟩ | ⟨id, hid, hrev, hput⟩ | ⟨hnone, hput⟩
  · rw [run_writeInPlace_of_id suffix document documents hid, if_pos hrev, hput, hrev]
    obtain ⟨members, rfl⟩ := exists_members_of_idOf hid
    rfl
  · rw [run_writeInPlace_of_id suffix document documents hid, if_neg hrev, hput]
    rfl
  · rw [hput, writeInPlace, idOf_of_no_id hnone]
    rfl

/-- **A write is exact and atomic.** Done in place or not, it succeeds exactly if the document has a text as its
id and has as its revision, a missing one included, the one that is stored under that id. Then the entry of the
id holds the document with the answered revision and its other members as they were, and every other entry is as
before. Otherwise no entry has changed, and the document has no id or its id is in conflict; that it is no
object is never the reason. -/
theorem put_exact_and_atomic :
    (writeInPlace suffix document).run.run documents = Backend.memory.put suffix document documents ∧
      ((∃ rev, (Backend.memory.put suffix document documents).1 = .ok rev) ↔
        ∃ id, document.member? "_id" = some (.str id) ∧ currentRev id documents = revOf document) ∧
      (∀ rev, (Backend.memory.put suffix document documents).1 = .ok rev →
        ∃ id stored, document.member? "_id" = some (.str id) ∧
          (∀ key, stored.member? key = if key = "_rev" then some (.str rev) else document.member? key) ∧
          ∀ other, Dict.find? other (Backend.memory.put suffix document documents).2 =
            if other = id then some stored else Dict.find? other documents) ∧
      (∀ error, (Backend.memory.put suffix document documents).1 = .error error →
        (Backend.memory.put suffix document documents).2 = documents ∧
          ((error = .invalidDocument .noId ∧ ∀ id, document.member? "_id" ≠ some (.str id)) ∨
            ∃ id, document.member? "_id" = some (.str id) ∧ error = .conflict id)) ∧
      ∀ id, (Backend.memory.put suffix document documents).1 ≠ .error (.invalidDocument (.notObject id)) := by
  refine ⟨run_writeInPlace suffix document documents, ?_⟩
  rcases put_cases suffix document documents with ⟨id, hid, hrev, hput⟩ | ⟨id, hid, hrev, hput⟩ | ⟨hnone, hput⟩
  · have hmember := idOf_eq_ok_iff.mp hid
    rw [hput]
    refine ⟨iff_of_true ⟨_, rfl⟩ ⟨id, hmember, hrev⟩, ?_, nofun, nofun⟩
    rintro rev ⟨⟩
    exact ⟨id, _, hmember, member?_stamp hid _, Dict.find?_insert id _ documents⟩
  · have hmember := idOf_eq_ok_iff.mp hid
    rw [hput]
    refine ⟨iff_of_false nofun ?_, nofun, ?_, nofun⟩
    · rintro ⟨other, hother, hcurrent⟩
      obtain rfl : other = id := by simpa [hmember] using hother.symm
      exact hrev hcurrent
    · rintro error ⟨⟩
      exact ⟨rfl, .inr ⟨id, hmember, rfl⟩⟩
  · rw [hput]
    refine ⟨iff_of_false nofun fun ⟨id, hid, _⟩ => hnone id hid, nofun, ?_, nofun⟩
    rintro error ⟨⟩
    exact ⟨rfl, .inl ⟨rfl, hnone⟩⟩

end

/-- Documents of which one is no object and one has a number as its revision. -/
def mixedDocuments : Documents :=
  [("a", .num (.int 7)), ("b", .obj [("_id", .str "b"), ("_rev", .num (.int 1))])]

/-- Neither of them has a revision, so a document without one takes their place, and one with a revision is in
conflict. -/
theorem put_mixedDocuments :
    (Backend.memory.put "x" (.obj [("_id", .str "a")]) mixedDocuments).1 = .ok "1-x" ∧
      Dict.find? "b" (Backend.memory.put "x" (.obj [("_id", .str "a")]) mixedDocuments).2 =
        Dict.find? "b" mixedDocuments ∧
      (Backend.memory.put "x" (.obj [("_id", .str "b"), ("_rev", .str "1-y")]) mixedDocuments).1 =
        .error (.conflict "b") ∧
      (Backend.memory.put "x" (.obj [("_id", .str "b"), ("_rev", .str "1-y")]) mixedDocuments).2 =
        mixedDocuments := by
  have hwritten : (Backend.memory.put "x" (.obj [("_id", .str "a")]) mixedDocuments).1 = .ok "1-x" := rfl
  have hstale : (Backend.memory.put "x" (.obj [("_id", .str "b"), ("_rev", .str "1-y")]) mixedDocuments).1 =
      .error (.conflict "b") := rfl
  obtain ⟨-, -, hexact, -⟩ := put_exact_and_atomic "x" (.obj [("_id", .str "a")]) mixedDocuments
  obtain ⟨-, -, -, hatomic, -⟩ :=
    put_exact_and_atomic "x" (.obj [("_id", .str "b"), ("_rev", .str "1-y")]) mixedDocuments
  obtain ⟨id, stored, hid, -, hothers⟩ := hexact _ hwritten
  obtain rfl : "a" = id := by
    cases hid
    rfl
  exact ⟨hwritten, hothers "b", hstale, (hatomic _ hstale).1⟩

end DocIndex.Documents

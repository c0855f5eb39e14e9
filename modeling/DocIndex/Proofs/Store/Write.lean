import DocIndex.Proofs.Store.Revision
import DocIndex.Store.Basic

/-!
# What a write does

A write succeeds on a document that has an id and carries the revision stored under that id, and
then binds the id to the document with the next revision. `WellKept` says of a store that every
document lies under its own id and carries a revision that spells a generation; writes keep it.
-/

namespace DocIndex.Documents

/-- A document with a revision in place of any that it had; only objects take one. -/
def stamp (rev : String) : Json → Json
  | .obj members => .obj (Dict.insert "_rev" (.str rev) members)
  | other => other

theorem idOf_eq_ok_iff {document : Json} {id : String} :
    idOf document = .ok id ↔ document.member? "_id" = some (.str id) := by
  unfold idOf
  split
  · rename_i h
    simp [h]
  · rename_i hnot
    simp only [reduceCtorEq, false_iff]
    exact hnot id

theorem revOf_eq_some_iff {document : Json} {rev : String} :
    revOf document = some rev ↔ document.member? "_rev" = some (.str rev) := by
  unfold revOf
  split
  · rename_i h
    simp [h]
  · rename_i hnot
    simp only [reduceCtorEq, false_iff]
    exact hnot rev

/-- Only an object has an id. -/
theorem exists_members_of_idOf {document : Json} {id : String} (h : idOf document = .ok id) :
    ∃ members, document = .obj members := by
  rw [idOf_eq_ok_iff] at h
  cases document with
  | obj members => exact ⟨members, rfl⟩
  | _ => cases h

theorem member?_stamp_of_ne {key : String} (h : key ≠ "_rev") (rev : String) (document : Json) :
    (stamp rev document).member? key = document.member? key := by
  cases document with
  | obj members => exact Dict.find?_insert_of_ne h (.str rev) members
  | _ => rfl

theorem idOf_stamp (rev : String) (document : Json) : idOf (stamp rev document) = idOf document := by
  unfold idOf
  rw [member?_stamp_of_ne (by decide)]

theorem revOf_stamp {document : Json} {id : String} (h : idOf document = .ok id) (rev : String) :
    revOf (stamp rev document) = some rev := by
  obtain ⟨members, rfl⟩ := exists_members_of_idOf h
  rw [revOf_eq_some_iff]
  exact Dict.find?_insert_self "_rev" (.str rev) members

/-! ### One write -/

/-- A write succeeds if the document has an id and carries the revision stored under it. -/
theorem write_eq_ok_iff {suffix rev : String} {document : Json} {documents written : Documents} :
    documents.write suffix document = .ok (rev, written) ↔
      ∃ id, idOf document = .ok id ∧ currentRev id documents = revOf document ∧
        rev = Revision.next (revOf document) suffix ∧
        written = Dict.insert id (stamp rev document) documents := by
  unfold write
  cases hid : idOf document with
  | error error => simp [bind, Except.bind]
  | ok id =>
    obtain ⟨members, rfl⟩ := exists_members_of_idOf hid
    by_cases hrev : currentRev id documents = revOf (.obj members)
    · simp only [bind, Except.bind, hrev, if_pos, pure, Except.pure, Except.ok.injEq, Prod.mk.injEq,
        stamp]
      constructor
      · rintro ⟨rfl, rfl⟩
        exact ⟨id, rfl, hrev, rfl, rfl⟩
      · rintro ⟨_, rfl, -, rfl, rfl⟩
        exact ⟨rfl, rfl⟩
    · simp only [bind, Except.bind, hrev, if_false, reduceCtorEq, false_iff, Except.ok.injEq]
      rintro ⟨_, rfl, h, -⟩
      exact hrev h

/-- The same for a document whose id is known. -/
theorem write_eq_ok_iff_of_idOf {suffix rev id : String} {document : Json}
    {documents written : Documents} (hid : idOf document = .ok id) :
    documents.write suffix document = .ok (rev, written) ↔
      currentRev id documents = revOf document ∧ rev = Revision.next (revOf document) suffix ∧
        written = Dict.insert id (stamp rev document) documents := by
  simp only [write_eq_ok_iff, hid, Except.ok.injEq, exists_eq_left']

theorem read_eq_ok_iff {id : String} {documents : Documents} {document : Json} :
    documents.read id = .ok document ↔ Dict.find? id documents = some document := by
  unfold read
  split
  · rename_i h
    simp [h]
  · rename_i h
    simp [h]

theorem find?_eq_none_of_read {id other : String} {documents : Documents}
    (h : documents.read id = .error (.notFound other)) : Dict.find? id documents = none := by
  unfold read at h
  split at h
  · cases h
  · assumption

theorem read_eq_of_find? {id : String} {documents others : Documents}
    (h : Dict.find? id documents = Dict.find? id others) : documents.read id = others.read id := by
  rw [read, read, h]

theorem currentRev_insert_self (id : String) (document : Json) (documents : Documents) :
    currentRev id (Dict.insert id document documents) = revOf document := by
  rw [currentRev, Dict.find?_insert_self, Option.bind_some]

theorem currentRev_insert_of_ne {id other : String} (h : other ≠ id) (document : Json)
    (documents : Documents) :
    currentRev other (Dict.insert id document documents) = currentRev other documents := by
  rw [currentRev, Dict.find?_insert_of_ne h, currentRev]

/-! ### Stores that are well kept -/

/-- A document lies under its own id and carries a revision that spells a generation. -/
structure Kept (id : String) (document : Json) : Prop where
  /-- The document's id is the one that it is stored under. -/
  idOf_eq : idOf document = .ok id
  /-- The document's revision is a text with a generation. -/
  revOf_eq : ∃ rev n, revOf document = some rev ∧ Revision.generation? rev = some n

/-- What is stored under an id, if anything, is a document with this id. -/
def UnderOwnId (id : String) (documents : Documents) : Prop :=
  ∀ document, Dict.find? id documents = some document → idOf document = .ok id

/-- Every document of a store lies under its own id and carries a proper revision. -/
def WellKept (documents : Documents) : Prop :=
  ∀ id document, Dict.find? id documents = some document → Kept id document

theorem WellKept.underOwnId {documents : Documents} (hkept : WellKept documents) (id : String) :
    UnderOwnId id documents :=
  fun document hfind => (hkept id document hfind).idOf_eq

theorem wellKept_nil : WellKept [] := by
  intro id document h
  cases h

theorem kept_stamp {id : String} {document : Json} (h : idOf document = .ok id)
    (previous : Option String) (suffix : String) :
    Kept id (stamp (Revision.next previous suffix) document) :=
  ⟨(idOf_stamp _ document).trans h, _, _, revOf_stamp h _, Revision.generation?_next previous suffix⟩

theorem WellKept.write {suffix rev : String} {document : Json} {documents written : Documents}
    (hkept : WellKept documents) (hwrite : documents.write suffix document = .ok (rev, written)) :
    WellKept written := by
  obtain ⟨id, hid, -, rfl, rfl⟩ := write_eq_ok_iff.mp hwrite
  intro other found hfound
  by_cases h : other = id
  · subst h
    rw [Dict.find?_insert_self, Option.some.injEq] at hfound
    exact hfound ▸ kept_stamp hid _ suffix
  · rw [Dict.find?_insert_of_ne h] at hfound
    exact hkept other found hfound

/-- In a well kept store there is no document where there is no revision. -/
theorem WellKept.find?_eq_none {documents : Documents} (hkept : WellKept documents) {id : String}
    (h : currentRev id documents = none) : Dict.find? id documents = none := by
  cases hfind : Dict.find? id documents with
  | none => rfl
  | some document =>
    obtain ⟨rev, -, hrev, -⟩ := (hkept id document hfind).revOf_eq
    rw [currentRev, hfind, Option.bind_some, hrev] at h
    cases h

end DocIndex.Documents

import DocIndex.Design.Document
import DocIndex.Proofs.Dict
import DocIndex.Proofs.Store.Write

/-!
# Design documents, read back

Reading a design document takes its id and revision to be those that the store sees, and a design
document that was written with a new revision is read back as it was, with that revision.
-/

namespace DocIndex.DesignDocument

open Documents (idOf_eq_ok_iff revOf_eq_some_iff revOf stamp)

/-- The members carried along are none of those with a meaning. -/
def Separate (doc : DesignDocument) : Prop := ∀ member ∈ doc.other, member.1 ∉ fields

theorem separate_new (group : String) : (new group).Separate := by
  intro member h
  cases h

theorem idOf_injective {group other : String} (h : idOf group = idOf other) : group = other :=
  String.append_right_inj idStart |>.mp h

/-! ### Reading -/

theorem readId_eq_ok_some_iff {value : Option Json} {id : String} :
    readId value = .ok (some id) ↔ value = some (.str id) := by
  cases value with
  | none => simp [readId]
  | some value => cases value <;> simp [readId, Json.asText, Except.map]

/-- The revision that is read is the one that the store sees. -/
theorem revOf_eq_of_readRev {document : Json} {rev : Option String}
    (h : readRev (document.member? "_rev") = .ok rev) : revOf document = rev := by
  unfold revOf
  split
  · rename_i hmember
    simpa [readRev, hmember, Json.asText, Except.map] using h
  · rename_i hnot
    cases hmember : document.member? "_rev" with
    | none => simpa [readRev, hmember] using h
    | some value =>
      cases value with
      | null => simpa [readRev, hmember] using h
      | str found => exact absurd hmember (hnot found)
      | _ => simp [readRev, hmember, Json.asText, Except.map] at h

/-- What reading a design document looks at. -/
theorem ofJson_eq_ok_iff {members : List (String × Json)} {doc : DesignDocument} :
    ofJson (.obj members) = .ok doc ↔
      Dict.find? "_id" members = some (.str doc.id) ∧
      readRev (Dict.find? "_rev" members) = .ok doc.rev ∧
      readViews (Dict.find? "views" members) = .ok doc.views ∧
      doc.other = members.filter fun member => !fields.contains member.1 := by
  rw [← readId_eq_ok_some_iff]
  obtain ⟨docId, docRev, docViews, docOther⟩ := doc
  simp only [ofJson, bind, Except.bind]
  cases readId (Dict.find? "_id" members) with
  | error error => simp
  | ok id =>
    cases readRev (Dict.find? "_rev" members) with
    | error error => simp
    | ok rev =>
      cases readViews (Dict.find? "views" members) with
      | error error => simp
      | ok views =>
        cases id with
        | none => simp
        | some id =>
          simp only [Except.ok.injEq, DesignDocument.mk.injEq, Option.some.injEq]
          constructor
          · rintro ⟨rfl, rfl, rfl, rfl⟩
            exact ⟨rfl, rfl, rfl, rfl⟩
          · rintro ⟨rfl, rfl, rfl, rfl⟩
            exact ⟨rfl, rfl, rfl, rfl⟩

theorem exists_members_of_ofJson {document : Json} {doc : DesignDocument}
    (h : ofJson document = .ok doc) : ∃ members, document = .obj members := by
  cases document with
  | obj members => exact ⟨members, rfl⟩
  | _ => cases h

theorem idOf_of_ofJson {document : Json} {doc : DesignDocument} (h : ofJson document = .ok doc) :
    Documents.idOf document = .ok doc.id := by
  obtain ⟨members, rfl⟩ := exists_members_of_ofJson h
  exact idOf_eq_ok_iff.mpr (ofJson_eq_ok_iff.mp h).1

theorem revOf_of_ofJson {document : Json} {doc : DesignDocument} (h : ofJson document = .ok doc) :
    revOf document = doc.rev := by
  obtain ⟨members, rfl⟩ := exists_members_of_ofJson h
  exact revOf_eq_of_readRev (ofJson_eq_ok_iff.mp h).2.1

theorem separate_of_ofJson {document : Json} {doc : DesignDocument} (h : ofJson document = .ok doc) :
    doc.Separate := by
  obtain ⟨members, rfl⟩ := exists_members_of_ofJson h
  obtain ⟨-, -, -, hother⟩ := ofJson_eq_ok_iff.mp h
  intro member hmem
  rw [hother, List.mem_filter] at hmem
  simpa using hmem.2

/-! ### Writing -/

theorem idOf_toJson (doc : DesignDocument) : Documents.idOf doc.toJson = .ok doc.id :=
  idOf_eq_ok_iff.mpr (Dict.find?_insert_self "_id" (Json.str doc.id) _)

theorem find?_other {doc : DesignDocument} (h : doc.Separate) {name : String} (hname : name ∈ fields) :
    Dict.find? name doc.other = none :=
  Dict.find?_eq_none fun member hmem heq => h member hmem (heq ▸ hname)

theorem find?_insertRev_of_ne {key : String} (h : key ≠ "_rev") (rev : Option String)
    (members : List (String × Json)) :
    Dict.find? key (insertRev rev members) = Dict.find? key members := by
  cases rev with
  | none => rfl
  | some rev => exact Dict.find?_insert_of_ne h (.str rev) members

theorem revOf_toJson {doc : DesignDocument} (h : doc.Separate) : revOf doc.toJson = doc.rev := by
  have hrev : doc.toJson.member? "_rev" = doc.rev.map Json.str := by
    simp only [toJson, Json.member?]
    rw [Dict.find?_insert_of_ne (by decide)]
    cases doc.rev with
    | none =>
      simp only [insertRev, Option.map_none]
      rw [Dict.find?_insert_of_ne (by decide), find?_other h (by decide)]
    | some rev => exact Dict.find?_insert_self "_rev" (Json.str rev) _
  rw [revOf, hrev]
  cases doc.rev <;> rfl

theorem find?_views_toJson (doc : DesignDocument) :
    doc.toJson.member? "views" = some (.obj doc.views) := by
  simp only [toJson, Json.member?]
  rw [Dict.find?_insert_of_ne (by decide), find?_insertRev_of_ne (by decide), Dict.find?_insert_self]

theorem filter_toJson {doc : DesignDocument} (h : doc.Separate) (rev : String) :
    (Dict.insert "_rev" (Json.str rev) (Dict.insert "_id" (.str doc.id)
      (insertRev doc.rev (Dict.insert "views" (.obj doc.views) doc.other)))).filter
        (fun member => !fields.contains member.1) = doc.other := by
  have hfilter := fun key hkey => @Dict.filter_insert Json key (fun name => !fields.contains name) hkey
  rw [hfilter "_rev" (by decide), hfilter "_id" (by decide)]
  have hother : doc.other.filter (fun member => !fields.contains member.1) = doc.other := by
    rw [List.filter_eq_self]
    intro member hmem
    simpa using h member hmem
  cases doc.rev with
  | none => simp only [insertRev]; rw [hfilter "views" (by decide), hother]
  | some old => simp only [insertRev]; rw [hfilter "_rev" (by decide), hfilter "views" (by decide), hother]

/-- A design document that the store has written is read back with its new revision. -/
theorem ofJson_stamp_toJson {doc : DesignDocument} (h : doc.Separate) (rev : String) :
    ofJson (stamp rev doc.toJson) = .ok { doc with rev := some rev } := by
  have hid : (stamp rev doc.toJson).member? "_id" = some (.str doc.id) := by
    rw [Documents.member?_stamp_of_ne (by decide), idOf_eq_ok_iff.mp (idOf_toJson doc)]
  have hviews : (stamp rev doc.toJson).member? "views" = some (.obj doc.views) := by
    rw [Documents.member?_stamp_of_ne (by decide), find?_views_toJson]
  have hrev := revOf_eq_some_iff.mp (Documents.revOf_stamp (idOf_toJson doc) rev)
  simp only [toJson, stamp, Json.member?] at hid hviews hrev ⊢
  rw [ofJson_eq_ok_iff]
  refine ⟨hid, ?_, ?_, (filter_toJson h rev).symm⟩
  · rw [hrev]
    rfl
  · rw [hviews]
    rfl

end DocIndex.DesignDocument

import DocIndex.Proofs.Store.History

/-!
# What a change of a view leaves alone

A change that writes replaces the revision of its group's design document and one view in it; all other
members, all other views and all other documents stay (`change_history_touches_one_view`). The document
goes through the form in which a manager reads it, so the members that the manager knows nothing of have
to come back out of it as they went in (`DesignDocument.stamp_toJson_of_ofJson`).
-/

namespace DocIndex

open Documents (stamp UnderOwnId WellKept)

/-! ### Through a design document and back -/

namespace DesignDocument

theorem readViews_eq_ok_iff {value : Option Json} {views : List (String × Json)} :
    readViews value = .ok views ↔ value = some (.obj views) ∨ value = none ∧ views = [] := by
  cases value with
  | none => simp [readViews, eq_comm]
  | some value => cases value <;> simp [readViews, Json.asMap]

/-- A group without a document has the design document of one without views. -/
theorem ofJson_of_new (group : String) :
    ofJson (.obj [("_id", .str (idOf group)), ("views", .obj [])]) = .ok (new group) := by
  rw [ofJson_eq_ok_iff]
  exact ⟨rfl, rfl, rfl, rfl⟩

/-- Reading a design document and writing it with other views and a revision binds those two members
and keeps all others. -/
theorem stamp_toJson_of_ofJson {members : List (String × Json)} (hsorted : Dict.Sorted members)
    {doc : DesignDocument} (h : ofJson (.obj members) = .ok doc) (views : List (String × Json))
    (rev : String) :
    stamp rev { doc with views := views }.toJson =
      .obj (Dict.insert "views" (.obj views) (Dict.insert "_rev" (.str rev) members)) := by
  obtain ⟨hid, -, -, hother⟩ := ofJson_eq_ok_iff.mp h
  have hothers : Dict.Sorted doc.other := by
    rw [hother]
    exact hsorted.filter _
  have hwritten : Dict.Sorted (insertRev doc.rev (Dict.insert "views" (.obj views) doc.other)) := by
    cases doc.rev with
    | none => exact hothers.insert _ _
    | some old => exact (hothers.insert _ _).insert _ _
  refine congrArg Json.obj (Dict.Sorted.ext ((hwritten.insert _ _).insert _ _)
    ((hsorted.insert _ _).insert _ _) fun key => ?_)
  by_cases hrev : key = "_rev"
  · subst hrev
    rw [Dict.find?_insert_self, Dict.find?_insert_of_ne (by decide), Dict.find?_insert_self]
  rw [Dict.find?_insert_of_ne hrev]
  by_cases hkey : key = "_id"
  · subst hkey
    rw [Dict.find?_insert_self, Dict.find?_insert_of_ne (by decide), Dict.find?_insert_of_ne hrev, hid]
  rw [Dict.find?_insert_of_ne hkey, find?_insertRev_of_ne hrev]
  by_cases hviews : key = "views"
  · subst hviews
    rw [Dict.find?_insert_self, Dict.find?_insert_self]
  rw [Dict.find?_insert_of_ne hviews, Dict.find?_insert_of_ne hviews, Dict.find?_insert_of_ne hrev, hother]
  have hkeep : (!fields.contains key) = true := by simp [fields, hrev, hkey, hviews]
  exact @Dict.find?_filter Json key (fun name => !fields.contains name) hkeep members

end DesignDocument

namespace Manager

/-! ### Documents under a change -/

/-- The design document that a manager sees of a group is the stored one, or one without views. -/
theorem exists_members_of_designOf {documents : Documents}
    (hform : (Json.obj documents).wellFormed = true) {group : String} {design : DesignDocument}
    (h : designOf group (documents.read (DesignDocument.idOf group)) = .ok design) :
    ∃ members, Dict.Sorted members ∧ DesignDocument.ofJson (.obj members) = .ok design ∧
      (Dict.find? (DesignDocument.idOf group) documents = some (.obj members) ∨
        Dict.find? (DesignDocument.idOf group) documents = none ∧
          members = [("_id", .str (DesignDocument.idOf group)), ("views", .obj [])]) := by
  rcases designOf_eq_ok_iff.mp h with ⟨document, hread, hdocument⟩ | ⟨⟨id, hread⟩, rfl⟩
  · obtain ⟨members, rfl⟩ := DesignDocument.exists_members_of_ofJson hdocument
    have hfind := Documents.read_eq_ok_iff.mp hread
    exact ⟨members, (Json.wellFormed_obj_iff.mp (wellFormed_of_find? hform hfind)).1, hdocument,
      .inl hfind⟩
  · refine ⟨_, ?_, DesignDocument.ofJson_of_new group, .inr ⟨Documents.find?_eq_none_of_read hread, rfl⟩⟩
    refine List.pairwise_cons.mpr ⟨fun member hmem => ?_, List.pairwise_singleton _ _⟩
    obtain rfl := List.mem_singleton.mp hmem
    show precedes "_id".toList "views".toList = true
    decide

/-- A change that writes binds one view and the revision, in the design document of its group. -/
theorem Change.run_memory_eq_written {documents after : Documents} {change : Change}
    (hown : UnderOwnId change.target documents) (hform : (Json.obj documents).wellFormed = true)
    {suffix rev : String}
    (hrun : change.run Backend.memory suffix documents = (.ok (.written rev), after)) :
    ∃ members views,
      (Dict.find? change.target documents = some (.obj members) ∨
        Dict.find? change.target documents = none ∧
          members = [("_id", .str change.target), ("views", .obj [])]) ∧
      (Dict.find? "views" members = some (.obj views) ∨
        Dict.find? "views" members = none ∧ views = []) ∧
      after = Dict.insert change.target (.obj (Dict.insert "views" (.obj (change.edit views))
        (Dict.insert "_rev" (.str rev) members))) documents := by
  obtain ⟨design, hdesign, rfl⟩ := exists_design_of_written hrun
  obtain ⟨members, hsorted, hmembers, hstored⟩ := exists_members_of_designOf hform hdesign
  obtain ⟨-, -, hviews, -⟩ := DesignDocument.ofJson_eq_ok_iff.mp hmembers
  refine ⟨members, design.views, hstored, DesignDocument.readViews_eq_ok_iff.mp hviews, ?_⟩
  rw [DesignDocument.stamp_toJson_of_ofJson hsorted hmembers, (id_and_rev_of_designOf hown hdesign).1, target]

/-! ### Runs -/

/-- Well-formed operations on an empty store leave it well kept and well formed. -/
theorem wellKept_and_wellFormed_history (options : Options) {operations : List Operation}
    (hform : ∀ operation ∈ operations, operation.wellFormed = true) :
    WellKept (history options operations []).2 ∧
      (Json.obj (history options operations []).2).wellFormed = true := by
  refine @history_induction options
    (fun _ documents => WellKept documents ∧ (Json.obj documents).wellFormed = true) operations
    (fun operation hmem _ documents h => ⟨?_, Operation.wellFormed_run (hform operation hmem) h.2 options⟩)
    [] [] ⟨Documents.wellKept_nil, rfl⟩
  rcases operation.run_cases options documents with ⟨-, hsame⟩ | ⟨write, document, -, hwrite, -⟩
  · rw [hsame]
    exact h.1
  · exact h.1.write hwrite

/-- **A change touches one view.** Let a memory store have been filled by any operations. A change that
answers a revision leaves its group's design document (that of a group without one has no views) as it
was, but for the revision and the view of its name; all other members and views are the same values,
and so are all other documents. -/
theorem change_history_touches_one_view (options : Options) (operations : List Operation)
    (hform : ∀ operation ∈ operations, operation.wellFormed = true) {change : Change}
    {suffix rev : String} {documents after : Documents}
    (hdocuments : documents = (history options operations []).2)
    (hrun : change.run Backend.memory suffix documents = (.ok (.written rev), after)) :
    ∃ members views changed,
      (Dict.find? change.target documents = some (.obj members) ∨
        Dict.find? change.target documents = none ∧
          members = [("_id", .str change.target), ("views", .obj [])]) ∧
      (Dict.find? "views" members = some (.obj views) ∨
        Dict.find? "views" members = none ∧ views = []) ∧
      after = Dict.insert change.target (.obj changed) documents ∧
      changed = Dict.insert "views" (.obj (change.edit views)) (Dict.insert "_rev" (.str rev) members) ∧
      Dict.find? change.name (change.edit views) = change.definition? ∧
      (∀ other, other ≠ change.name →
        Dict.find? other (change.edit views) = Dict.find? other views) ∧
      (∀ key, key ≠ "_rev" → key ≠ "views" → Dict.find? key changed = Dict.find? key members) ∧
      ∀ id, id ≠ change.target → Dict.find? id after = Dict.find? id documents := by
  obtain ⟨hkept, hwellFormed⟩ := wellKept_and_wellFormed_history options hform
  rw [← hdocuments] at hkept hwellFormed
  obtain ⟨members, views, hstored, hviews, hafter⟩ :=
    Change.run_memory_eq_written (hkept.underOwnId _) hwellFormed hrun
  refine ⟨members, views, _, hstored, hviews, hafter, rfl, change.find?_edit_self views,
    fun other hother => Change.find?_edit_of_ne hother views, fun key hrev hkey => ?_, fun id hid => ?_⟩
  · rw [Dict.find?_insert_of_ne hkey, Dict.find?_insert_of_ne hrev]
  · rw [hafter, Dict.find?_insert_of_ne hid]

/-- A design document with a member of its own and views that no manager has written, and one more
document. -/
def foreignOperations : List Operation :=
  [.put "a" (.obj [("_id", .str "_design/g"), ("language", .str "javascript"),
      ("views", .obj [("js", .obj [("map", .str "emit(doc._id, 1)")]), ("n", .num (.int 1)), ("z", .null)])]),
    .put "b" (.obj [("_id", .str "d")])]

/-- A view between the foreign ones. -/
def addedView : Change := .add "g" "v" ⟨.single (.path ⟨"t"⟩), none, none⟩

/-- A view is added between foreign ones, which stay. -/
theorem change_foreignOperations :
    (addedView.run Backend.memory "c" (history .default foreignOperations []).2).1 =
        .ok (.written "2-c") ∧
      ∃ members views,
        Dict.find? "_design/g" (history .default foreignOperations []).2 = some (.obj members) ∧
        Dict.find? "views" members = some (.obj views) ∧
        (addedView.run Backend.memory "c" (history .default foreignOperations []).2).2 =
          Dict.insert "_design/g" (.obj (Dict.insert "views" (.obj (addedView.edit views))
              (Dict.insert "_rev" (.str "2-c") members)))
            (history .default foreignOperations []).2 ∧
        Dict.find? "js" (addedView.edit views) = Dict.find? "js" views := by
  have hrev : (addedView.run Backend.memory "c" (history .default foreignOperations []).2).1 =
      .ok (.written "2-c") := by rfl
  obtain ⟨members, views, changed, hstored, hviews, hafter, rfl, -, hothers, -⟩ :=
    change_history_touches_one_view .default foreignOperations (by decide +kernel) rfl (Prod.ext hrev rfl)
  have hfound : ∃ members views,
      Dict.find? "_design/g" (history .default foreignOperations []).2 = some (.obj members) ∧
      Dict.find? "views" members = some (.obj views) := ⟨_, _, rfl, rfl⟩
  obtain ⟨members', views', hfound, hfound'⟩ := hfound
  rcases hstored with hstored | ⟨hnone, -⟩
  · obtain rfl : members = members' := Json.obj.inj (Option.some.inj (hstored.symm.trans hfound))
    rcases hviews with hviews | ⟨hnone, -⟩
    · exact ⟨hrev, members, views, hstored, hviews, hafter, hothers "js" (by decide)⟩
    · cases hnone.symm.trans hfound'
  · cases hnone.symm.trans hfound

end Manager

end DocIndex

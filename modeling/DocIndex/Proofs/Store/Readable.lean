import DocIndex.Proofs.Pattern.Depth
import DocIndex.Proofs.Store.Frame
import DocIndex.Proofs.Store.Replacement

/-!
# A store file after a change

A change of a view is written to the file as to the memory (`Change.run_file`). A document map is written
whatever its depth but read only down to a limit, and the stored form of a view lies inside three objects:
so it is the depth of that form that decides whether the file can be loaded again (`load_after_change`).
What is loaded then has been written and read, as a whole: a document that the change does not touch is the
same as before exactly if its doubles are read back.
-/

namespace DocIndex

open Documents (stamp UnderOwnId)
open Json (depthMembers)

namespace Manager

/-! ### The depth of the documents -/

/-- The depth of a stored view that leaves room for the objects around it: the views, the design
document and the documents. -/
def definitionLimit : Nat := 124

/-- Whether what a change stores, if anything, is not too deep to be loaded again. -/
def Change.isShallow (change : Change) : Bool :=
  change.definition?.all fun definition => decide (definition.depth ≤ definitionLimit)

theorem Change.depthMembers_edit_le_iff {views : List (String × Json)}
    (h : depthMembers views ≤ definitionLimit) (change : Change) :
    depthMembers (change.edit views) ≤ definitionLimit ↔ change.isShallow = true := by
  rw [edit, isShallow]
  cases change.definition? with
  | none =>
    refine iff_of_true (Json.depthMembers_le_iff.mpr fun member hmem => ?_) rfl
    exact Json.depthMembers_le_iff.mp h member (List.mem_filter.mp hmem).1
  | some definition =>
    rw [depthMembers_insert_le_iff h, Option.all_some, decide_eq_true_iff]

/-- Where the documents can be loaded, a change that is written to them leaves documents that can be
loaded exactly when what it stores is not too deep. -/
theorem depth_written_le_iff {documents : Documents} (hform : (Json.obj documents).wellFormed = true)
    (hdepth : (Json.obj documents).depth ≤ Json.depthLimit) {change : Change} {design : DesignDocument}
    (hdesign : designOf change.group (documents.read change.target) = .ok design) (rev : String) :
    (Json.obj (Dict.insert design.id
        (stamp rev { design with views := change.edit design.views }.toJson) documents)).depth ≤
      Json.depthLimit ↔ change.isShallow = true := by
  obtain ⟨members, hsorted, hmembers, hstored⟩ := exists_members_of_designOf hform hdesign
  have hdocuments : depthMembers documents ≤ definitionLimit + 2 := Nat.le_of_succ_le_succ hdepth
  have hdocument : depthMembers members ≤ definitionLimit + 1 := by
    rcases hstored with hfind | ⟨-, rfl⟩
    · exact Nat.le_of_succ_le_succ (depth_le_of_find? hdocuments hfind)
    · exact (by decide : 1 ≤ definitionLimit + 1)
  have hviews : depthMembers design.views ≤ definitionLimit := by
    obtain ⟨-, -, hviews, -⟩ := DesignDocument.ofJson_eq_ok_iff.mp hmembers
    rcases DesignDocument.readViews_eq_ok_iff.mp hviews with hfind | ⟨-, hnone⟩
    · exact Nat.le_of_succ_le_succ (depth_le_of_find? hdocument hfind)
    · rw [hnone]
      exact Nat.zero_le _
  have hrevised : depthMembers (Dict.insert "_rev" (.str rev) members) ≤ definitionLimit + 1 :=
    (depthMembers_insert_le_iff hdocument "_rev" (.str rev)).mpr (Nat.zero_le _)
  rw [DesignDocument.stamp_toJson_of_ofJson hsorted hmembers, ← change.depthMembers_edit_le_iff hviews]
  -- one object after another, from the documents down to the views
  refine Nat.succ_le_succ_iff.trans ((depthMembers_insert_le_iff hdocuments _ _).trans ?_)
  refine Nat.succ_le_succ_iff.trans ((depthMembers_insert_le_iff hrevised _ _).trans ?_)
  exact Nat.succ_le_succ_iff

/-! ### Design documents, read again -/

theorem readRev_map_reread {value : Option Json} {rev : Option String}
    (h : DesignDocument.readRev value = .ok rev) : DesignDocument.readRev (value.map Json.reread) = .ok rev := by
  cases value with
  | none => exact h
  | some value =>
    cases value with
    | null => exact h
    | str text => exact h
    | _ => cases h

theorem exists_ofJson_reread {document : Json} {doc : DesignDocument}
    (h : DesignDocument.ofJson document = .ok doc) :
    ∃ again, DesignDocument.ofJson document.reread = .ok again ∧
      again.views = Dict.mapValues Json.reread doc.views := by
  obtain ⟨members, rfl⟩ := DesignDocument.exists_members_of_ofJson h
  obtain ⟨hid, hrev, hviews, -⟩ := DesignDocument.ofJson_eq_ok_iff.mp h
  rw [Json.reread_obj]
  refine ⟨⟨doc.id, doc.rev, Dict.mapValues Json.reread doc.views, _⟩,
    DesignDocument.ofJson_eq_ok_iff.mpr ⟨?_, ?_, ?_, rfl⟩, rfl⟩
  · rw [Dict.find?_mapValues, hid]
    rfl
  · rw [Dict.find?_mapValues]
    exact readRev_map_reread hrev
  · rw [Dict.find?_mapValues, DesignDocument.readViews_eq_ok_iff]
    refine (DesignDocument.readViews_eq_ok_iff.mp hviews).imp (fun hfind => ?_) fun hnone => ?_
    · rw [hfind, Option.map_some, Json.reread_obj]
    · rw [hnone.1, hnone.2]
      exact ⟨rfl, rfl⟩

/-- What a manager sees of a group are the views of before, with their doubles read again. -/
theorem exists_designOf_reread {group id : String} {documents : Documents} {design : DesignDocument}
    (h : designOf group (documents.read id) = .ok design) :
    ∃ again, designOf group ((FileStore.reread documents).read id) = .ok again ∧
      again.views = Dict.mapValues Json.reread design.views := by
  rcases designOf_eq_ok_iff.mp h with ⟨document, hread, hdocument⟩ | ⟨⟨other, hread⟩, rfl⟩
  · obtain ⟨again, hagain, hviews⟩ := exists_ofJson_reread hdocument
    refine ⟨again, designOf_eq_ok_iff.mpr (.inl ⟨document.reread, ?_, hagain⟩), hviews⟩
    rw [Documents.read_eq_ok_iff, FileStore.find?_reread, Documents.read_eq_ok_iff.mp hread, Option.map_some]
  · refine ⟨.new group, designOf_eq_ok_iff.mpr (.inr ⟨⟨id, ?_⟩, rfl⟩), rfl⟩
    rw [Documents.read, FileStore.find?_reread, Documents.find?_eq_none_of_read hread, Option.map_none]

/-! ### The file after a change -/

section File

variable {path suffix rev : String} {documents : Documents} {fs after : FileSystem} {change : Change}

/-- A change of a file that answers a revision is made to the documents in it, and these are printed. -/
theorem Change.run_file (hload : FileStore.load path .none fs = .ok documents)
    (hrun : change.run (Backend.file path .none) suffix fs = (.ok (.written rev), after)) :
    ∃ written, change.run Backend.memory suffix documents = (.ok (.written rev), written) ∧
      after.read path = .ok (FileStore.encode written) := by
  have hread := change.read_run path .none .none suffix fs
  rw [Backend.failing_none, hrun] at hread
  obtain ⟨_, document, written, hsame, hplan, hwrite, hafter⟩ := hread
  obtain rfl : documents = _ := Except.ok.inj (hload.symm.trans hsame)
  have hget : FileStore.get path .none change.target fs = documents.read change.target :=
    FileStore.get_of_load hload change.target
  rw [hget] at hplan
  refine ⟨written, ?_, hafter⟩
  rw [run_eq_finish, Backend.memory, hplan]
  exact written_save_eq hwrite

/-- And conversely, if the file can be replaced. -/
theorem Change.exists_run_file (hload : FileStore.load path .none fs = .ok documents)
    (hwritable : FileStore.Writable path fs) {written : Documents}
    (hrun : change.run Backend.memory suffix documents = (.ok (.written rev), written)) :
    ∃ after, change.run (Backend.file path .none) suffix fs = (.ok (.written rev), after) := by
  obtain ⟨document, hplan, hwrite⟩ := exists_write_of_written hrun
  obtain ⟨after, hsave, -⟩ := hwritable.exists_save written
  refine ⟨after, ?_⟩
  rw [run_eq_finish, FileStore.get_of_load hload, hplan]
  simp only [finish, Manager.written, save, Backend.file, FileStore.put, hload, hwrite, hsave, Except.map]

/-- Whether the file can be loaded again after a change that answers a revision depends on the depth of
what is stored; what is loaded is what was written, with its doubles read again. -/
theorem load_after_change (hload : FileStore.load path .none fs = .ok documents)
    (hform : change.wellFormed = true)
    (hrun : change.run (Backend.file path .none) suffix fs = (.ok (.written rev), after)) :
    ∃ written, change.run Backend.memory suffix documents = (.ok (.written rev), written) ∧
      FileStore.load path .none after =
        if change.isShallow = true then .ok (FileStore.reread written)
        else .error (.storage (.notDocumentMap path)) := by
  obtain ⟨written, hmemory, hafter⟩ := Change.run_file hload hrun
  obtain ⟨hdocuments, hdepth⟩ := FileStore.wellFormed_and_depth_of_load hload
  have hwritten := Change.wellFormed_run hform hdocuments suffix
  rw [hmemory] at hwritten
  obtain ⟨design, hdesign, rfl⟩ := Change.exists_design_of_written hmemory
  refine ⟨_, hmemory, ?_⟩
  rw [FileStore.load_of_read_encode hafter hwritten]
  simp only [depth_written_le_iff hdocuments hdepth hdesign rev]

theorem design_of_load (hload : FileStore.load path .none fs = .ok documents) (group : String) :
    design (Backend.file path .none) group fs =
      designOf group (documents.read (DesignDocument.idOf group)) := by
  rw [design, FileStore.get_of_load hload]

theorem list_of_designOf (hload : FileStore.load path .none fs = .ok documents) {group : String}
    {doc : DesignDocument} (h : designOf group (documents.read (DesignDocument.idOf group)) = .ok doc) :
    list (Backend.file path .none) group fs = .ok (Dict.keys doc.views) := by
  rw [list, design_of_load hload, h]
  rfl

/-- A document that has not been written is loaded with its doubles read again, and hence is the same
exactly if they are read back. -/
theorem find?_reread_insert_of_ne {id other : String} (h : other ≠ id) (document : Json)
    (documents : Documents) :
    let loaded := FileStore.reread (Dict.insert id document documents)
    Dict.find? other loaded = (Dict.find? other documents).map Json.reread ∧
      (Dict.find? other loaded = Dict.find? other documents ↔
        (Dict.find? other documents).all Json.doublesReadBack = true) := by
  dsimp only
  rw [FileStore.find?_reread, Dict.find?_insert_of_ne h]
  exact ⟨rfl, Json.map_reread_eq_self_iff _⟩

/-- A view is loaded where its stored form is found, unless its reduce is `null`. -/
theorem view_of_find? {σ : Type} {store : Backend σ} {group name : String} {state : σ}
    {doc : DesignDocument} {view : View} (hdesign : design store group state = .ok doc)
    (hfind : Dict.find? name doc.views = some view.toDefinition) (hnull : view.reduce ≠ some .null)
    (options : Options) :
    Manager.view store options group name state = .ok (some (view.compile options)) := by
  rw [Manager.view, hdesign]
  simp only [bind, Except.bind, DesignDocument.view?, hfind, Option.map_some,
    View.ofDefinition_toDefinition, View.decodeReduce_eq_self hnull, pure, Except.pure]

/-- **A view can be read after it was written, unless it is too deep.** Let a store file be loaded, its
document of a group lie under its own id, and a view be read from a text and added or replaced, which
answers a revision. If the stored form of the view is not too deep, as that of every text that nests less
than `definitionLimit` deep, the file is loaded again. Every other document is then the one of before with
its doubles read again, so unchanged exactly if these are read back, and the view is read as it was written
if those of its stored form are. If the stored form is too deep, the file cannot be loaded any more. -/
theorem view_after_change {text group name : String} {json : Json} {view : View}
    (hload : FileStore.load path .none fs = .ok documents)
    (hown : UnderOwnId (DesignDocument.idOf group) documents) (hparse : Json.parse? text = some json)
    (hjson : View.ofJson json = .ok view)
    (hchange : change = .add group name view ∨ change = .put group name view)
    (hrun : change.run (Backend.file path .none) suffix fs = (.ok (.written rev), after)) :
    (view.toDefinition.depth ≤ definitionLimit →
      (∃ loaded, FileStore.load path .none after = .ok loaded ∧
        ∀ id, id ≠ DesignDocument.idOf group →
          Dict.find? id loaded = (Dict.find? id documents).map Json.reread ∧
          (Dict.find? id loaded = Dict.find? id documents ↔
            (Dict.find? id documents).all Json.doublesReadBack = true)) ∧
      (view.toDefinition.doublesReadBack = true → ∀ options,
        Manager.view (Backend.file path .none) options group name after =
          .ok (some (view.compile options)))) ∧
    (definitionLimit < view.toDefinition.depth →
      FileStore.load path .none after = .error (.storage (.notDocumentMap path))) ∧
    (json.depth < definitionLimit → view.toDefinition.depth ≤ definitionLimit) := by
  have hwellFormed := Json.wellFormed_of_parse? hparse
  have hform := View.wellFormed_of_ofJson hwellFormed hjson
  obtain ⟨hgroup, hname, hdefinition, hchangeForm⟩ : change.group = group ∧ change.name = name ∧
      change.definition? = some view.toDefinition ∧ change.wellFormed = true := by
    rcases hchange with rfl | rfl <;> exact ⟨rfl, rfl, rfl, hform⟩
  subst hgroup hname
  obtain ⟨written, hmemory, hafter⟩ := load_after_change hload hchangeForm hrun
  rw [Change.isShallow, hdefinition] at hafter
  refine ⟨fun hdepth => ?_, fun hdepth => ?_, fun hdepth => ?_⟩
  · rw [if_pos (by simpa using hdepth)] at hafter
    obtain ⟨design, hdesign, rfl⟩ := Change.exists_design_of_written hmemory
    have hid := (id_and_rev_of_designOf hown hdesign).1
    refine ⟨⟨_, hafter, fun id hother => find?_reread_insert_of_ne (hid ▸ hother) _ documents⟩,
      fun hview => ?_⟩
    obtain ⟨again, hagain, hviews⟩ :=
      exists_designOf_reread (designOf_insert hdesign hid (change.edit design.views) rev)
    have hfind : Dict.find? change.name again.views = some view.toDefinition := by
      rw [hviews, Dict.find?_mapValues, change.find?_edit_self, hdefinition, Option.map_some,
        (Json.reread_eq_self_iff _).mpr hview]
    exact view_of_find? ((design_of_load hafter change.group).trans hagain) hfind
      (View.reduce_ne_null_of_ofJson hjson)
  · rw [if_neg (by simpa using hdepth)] at hafter
    exact hafter
  · exact Nat.le_trans (View.depth_toDefinition_le hwellFormed hjson) hdepth

theorem load_storeFile (documents : Documents) (h : FileStore.Storable documents) :
    FileStore.load "store.json" .none (storeFile (FileStore.encode documents)) = .ok documents :=
  FileStore.load_of_read (read_storeFile _) (FileStore.decode?_encode h)

/-- One document that has no views. -/
def plainDocuments : Documents := [("d", .obj [("_id", .str "d"), ("_rev", .str "1-a")])]

/-- A view that counts. -/
def countedView : Json := .obj [("key", .str "t"), ("reduce", .str "_count")]

/-- The view is read as it was written, and the other document is still there. -/
theorem view_countedView : ∃ view after loaded, View.ofJson countedView = .ok view ∧
    (Change.add "g" "v" view).run (Backend.file "store.json" .none) "b"
      (storeFile (FileStore.encode plainDocuments)) = (.ok (.written "1-b"), after) ∧
    FileStore.load "store.json" .none after = .ok loaded ∧
    Dict.find? "d" loaded = Dict.find? "d" plainDocuments ∧
    Manager.view (Backend.file "store.json" .none) .default "g" "v" after =
      .ok (some (view.compile .default)) := by
  have hload := load_storeFile plainDocuments ⟨by decide +kernel, by decide +kernel⟩
  have hparse : Json.parse? (Json.compact countedView) = some countedView :=
    Json.parse?_compact (by decide) (by decide)
  have hjson : View.ofJson countedView = .ok ⟨.single (.path ⟨"t"⟩), none, some (.str "_count")⟩ := rfl
  have hmemory : (Change.add "g" "v" ⟨.single (.path ⟨"t"⟩), none, some (.str "_count")⟩).run
      Backend.memory "b" plainDocuments = (.ok (.written "1-b"), _) := rfl
  obtain ⟨after, hrun⟩ := Change.exists_run_file hload (writable_storeFile _) hmemory
  have hown : UnderOwnId (DesignDocument.idOf "g") plainDocuments := by
    intro document h
    cases h
  obtain ⟨hsafe, -, hshallow⟩ := view_after_change hload hown hparse hjson (.inl rfl) hrun
  obtain ⟨⟨loaded, hafter, hothers⟩, hview⟩ := hsafe (hshallow (by decide))
  exact ⟨_, after, loaded, hjson, hrun, hafter, (hothers "d" (by decide)).2.mpr (by decide),
    hview (by decide) .default⟩

/-- Arrays, one inside the other. -/
def nested : Nat → Json
  | 0 => .arr []
  | n + 1 => .arr [nested n]

/-- A view whose reduce is as deep as a text can be. -/
def nestedView : Json := .obj [("key", .str "a"), ("reduce", nested 125)]

/-- The text of that view is read, but once it is stored the file cannot be loaded. -/
theorem load_nestedView : ∃ text view after,
    Json.parse? text = some nestedView ∧ View.ofJson nestedView = .ok view ∧
    FileStore.load "store.json" .none blankFile = .ok [] ∧
    (Change.add "g" "v" view).run (Backend.file "store.json" .none) "a" blankFile =
      (.ok (.written "1-a"), after) ∧
    FileStore.load "store.json" .none after = .error (.storage (.notDocumentMap "store.json")) := by
  have hparse : Json.parse? (Json.compact nestedView) = some nestedView := by
    rw [Json.parse?_compact (by decide +kernel) (by decide +kernel),
      (Json.reread_eq_self_iff nestedView).mpr (by decide +kernel)]
  have hjson : View.ofJson nestedView = .ok ⟨.single (.path ⟨"a"⟩), none, some (nested 125)⟩ := rfl
  have hload : FileStore.load "store.json" .none blankFile = .ok [] :=
    FileStore.load_of_empty (.inr ⟨_, read_storeFile _, by decide +kernel⟩)
  have hmemory : (Change.add "g" "v" ⟨.single (.path ⟨"a"⟩), none, some (nested 125)⟩).run
      Backend.memory "a" [] = (.ok (.written "1-a"), _) := rfl
  obtain ⟨after, hrun⟩ := Change.exists_run_file hload writable_blankFile hmemory
  obtain ⟨written, -, hafter⟩ := load_after_change hload (by decide +kernel) hrun
  rw [if_neg (by decide +kernel)] at hafter
  exact ⟨_, _, after, hparse, hjson, hload, hrun, hafter⟩

/-- **A change acts on the document of its group, if this lies under its own id.** Let a store file be
loaded and a change answer a revision. The file can be loaded again exactly if the view that the change
stores, if any, is not too deep. The document that is written then lies under the id that stands in the
document of the group. Every other one is that of before with its doubles read again, so unchanged exactly
if these are read back. If the id is that of the group, the view's name is listed afterwards exactly if
the change has bound it; otherwise the list stays as it was. -/
theorem list_after_change (hload : FileStore.load path .none fs = .ok documents)
    (hform : change.wellFormed = true)
    (hrun : change.run (Backend.file path .none) suffix fs = (.ok (.written rev), after)) :
    ∃ design, designOf change.group (documents.read change.target) = .ok design ∧
      (change.isShallow = false →
        FileStore.load path .none after = .error (.storage (.notDocumentMap path))) ∧
      (change.isShallow = true →
        (∃ loaded, FileStore.load path .none after = .ok loaded ∧
          ∀ id, id ≠ design.id →
            Dict.find? id loaded = (Dict.find? id documents).map Json.reread ∧
            (Dict.find? id loaded = Dict.find? id documents ↔
              (Dict.find? id documents).all Json.doublesReadBack = true)) ∧
        (design.id = change.target →
          ∃ names, list (Backend.file path .none) change.group after = .ok names ∧
            (change.name ∈ names ↔ change.definition?.isSome = true)) ∧
        (design.id ≠ change.target → list (Backend.file path .none) change.group after =
          list (Backend.file path .none) change.group fs)) := by
  obtain ⟨written, hmemory, hafter⟩ := load_after_change hload hform hrun
  obtain ⟨design, hdesign, rfl⟩ := Change.exists_design_of_written hmemory
  refine ⟨design, hdesign, fun hdeep => ?_, fun hshallow => ?_⟩
  · rw [if_neg (by simp [hdeep])] at hafter
    exact hafter
  · rw [if_pos hshallow] at hafter
    refine ⟨⟨_, hafter, fun id hother => find?_reread_insert_of_ne hother _ documents⟩,
      fun hid => ?_, fun hid => ?_⟩
    · obtain ⟨again, hagain, hviews⟩ :=
        exists_designOf_reread (designOf_insert hdesign hid (change.edit design.views) rev)
      refine ⟨Dict.keys (change.edit design.views), ?_, ?_⟩
      · rw [list_of_designOf hafter hagain, hviews, Dict.keys_mapValues]
      · rw [Dict.mem_keys_iff, Dict.contains, Change.find?_edit_self]
    · have hsame := Documents.read_eq_of_find? (Dict.find?_insert_of_ne (Ne.symm hid)
        (stamp rev { design with views := change.edit design.views }.toJson) documents)
      obtain ⟨again, hagain, hviews⟩ := exists_designOf_reread (hsame ▸ hdesign)
      rw [list_of_designOf hafter hagain, list_of_designOf hload hdesign, hviews, Dict.keys_mapValues]

/-- A design document under the id of its group, with two views. -/
def designDocuments : Documents :=
  [("_design/g", .obj [("_id", .str "_design/g"), ("_rev", .str "1-a"),
      ("views", .obj [("v", .null), ("w", .null)])]),
    ("d", .obj [("_id", .str "d")])]

/-- A view is removed, and nothing else. -/
theorem list_designDocuments : ∃ after loaded names,
    (Change.remove "g" "v").run (Backend.file "store.json" .none) "b"
      (storeFile (FileStore.encode designDocuments)) = (.ok (.written "2-b"), after) ∧
    FileStore.load "store.json" .none after = .ok loaded ∧
    Dict.find? "d" loaded = Dict.find? "d" designDocuments ∧
    list (Backend.file "store.json" .none) "g" after = .ok names ∧ "v" ∉ names := by
  have hload := load_storeFile designDocuments ⟨by decide +kernel, by decide +kernel⟩
  have hmemory : (Change.remove "g" "v").run Backend.memory "b" designDocuments =
      (.ok (.written "2-b"), _) := rfl
  obtain ⟨after, hrun⟩ := Change.exists_run_file hload (writable_storeFile _) hmemory
  obtain ⟨design, hdesign, -, hshallow⟩ := list_after_change hload rfl hrun
  obtain ⟨⟨loaded, hafter, hothers⟩, hlist, -⟩ := hshallow rfl
  have hid : design.id = "_design/g" := by
    cases hdesign
    rfl
  obtain ⟨names, hnames, hmem⟩ := hlist hid
  refine ⟨after, loaded, names, hrun, hafter, (hothers "d" (by rw [hid]; decide)).2.mpr (by decide), hnames,
    fun h => ?_⟩
  cases hmem.mp h

/-- A design document under the id of another group. -/
def misplacedDocuments : Documents :=
  [("_design/g", .obj [("_id", .str "_design/h"), ("views", .obj [])])]

/-- A view is added to one group, which answers a revision, and is in the other group afterwards. -/
theorem list_misplacedDocuments : ∃ after loaded,
    FileStore.load "store.json" .none (storeFile (FileStore.encode misplacedDocuments)) =
      .ok misplacedDocuments ∧
    (Change.add "g" "v" ⟨.single (.path ⟨"a"⟩), none, none⟩).run (Backend.file "store.json" .none) "a"
      (storeFile (FileStore.encode misplacedDocuments)) = (.ok (.written "1-a"), after) ∧
    list (Backend.file "store.json" .none) "g" after = .ok [] ∧
    list (Backend.file "store.json" .none) "h" after = .ok ["v"] ∧
    FileStore.load "store.json" .none after = .ok loaded ∧
    Dict.find? "_design/h" misplacedDocuments = none ∧
    (Dict.find? "_design/h" loaded).isSome = true := by
  have hload := load_storeFile misplacedDocuments ⟨by decide +kernel, by decide +kernel⟩
  have hmemory : (Change.add "g" "v" ⟨.single (.path ⟨"a"⟩), none, none⟩).run
      Backend.memory "a" misplacedDocuments = (.ok (.written "1-a"), _) := rfl
  obtain ⟨after, hrun⟩ := Change.exists_run_file hload (writable_storeFile _) hmemory
  obtain ⟨written, hsame, hafter⟩ := load_after_change hload (by decide +kernel) hrun
  rw [if_pos (by decide +kernel)] at hafter
  obtain rfl : _ = written := congrArg Prod.snd (hmemory.symm.trans hsame)
  refine ⟨after, _, hload, hrun, ?_, ?_, hafter, rfl, rfl⟩
  · rw [list, design_of_load hafter]
    rfl
  · rw [list, design_of_load hafter]
    rfl

end File

end Manager

end DocIndex

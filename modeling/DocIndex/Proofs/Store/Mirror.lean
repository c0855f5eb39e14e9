import DocIndex.Proofs.Design.WellFormed
import DocIndex.Proofs.Store.FileStore
import DocIndex.Proofs.Store.Request
import Mathlib.Data.List.Forall2

/-!
# A store file mirrors a store in memory

Calls of a store and of a manager over it are answered by a file as they are by the memory, one after
another, and the file holds the documents of the memory after each of them (`trace_file_mirrors_memory`).
The file has to be missing or blank at first, the file system must let it be replaced, and the documents
have to fit. That they stay well formed need not be asked for, it follows from the calls
(`Operation.wellFormed_run`).
-/

namespace DocIndex.Manager

open FileStore (Holds Storable)

variable {σ : Type}

/-! ### Operations -/

/-- A call of a store, or of a manager over it. -/
inductive Operation where
  /-- Read a document. -/
  | get (id : String)
  /-- Store a document; its revision ends in the suffix. -/
  | put (suffix : String) (document : Json)
  /-- Ask the manager. -/
  | request (request : Request)

/-- What an operation answers. -/
inductive Reply where
  /-- The document. -/
  | get (result : Except StoreError Json)
  /-- The revision of the stored document. -/
  | put (result : Except StoreError String)
  /-- The answer of the manager. -/
  | request (answer : Answer)

/-- An operation on a store. -/
def Operation.run (store : Backend σ) (options : Options) (state : σ) : Operation → Reply × σ
  | get id => (.get (store.get id state), state)
  | put suffix document =>
    let result := store.put suffix document state
    (.put result.1, result.2)
  | request call =>
    let result := call.run store options state
    (.request result.1, result.2)

/-- The answers of operations one after another, each with the state that the operation leaves. -/
def trace (store : Backend σ) (options : Options) : List Operation → σ → List (Reply × σ)
  | [], _ => []
  | operation :: operations, state =>
    let next := operation.run store options state
    next :: trace store options operations next.2

/-! ### Well-formed operations -/

/-- Whether the view that a change brings, if any, is well formed. -/
def Change.wellFormed : Change → Bool
  | add _ _ view | put _ _ view => view.wellFormed
  | remove _ _ => true

/-- Whether an operation brings only well-formed values. -/
def Operation.wellFormed : Operation → Bool
  | put _ document => document.wellFormed
  | request (.change _ change) => change.wellFormed
  | _ => true

theorem wellFormed_withView {design : DesignDocument} (h : design.WellFormed) (name : String) {view : View}
    (hview : view.wellFormed = true) : (withView design name view).WellFormed :=
  ⟨wellFormed_insert h.views name (View.wellFormed_toDefinition hview), h.other⟩

theorem wellFormed_designOf {documents : Documents} (h : (Json.obj documents).wellFormed = true)
    {group id : String} {design : DesignDocument}
    (hdesign : designOf group (documents.read id) = .ok design) :
    design.WellFormed := by
  rcases designOf_eq_ok_iff.mp hdesign with ⟨document, hread, hdocument⟩ | ⟨-, rfl⟩
  · exact DesignDocument.wellFormed_of_ofJson hdocument
      (wellFormed_of_find? h (Documents.read_eq_ok_iff.mp hread))
  · exact DesignDocument.wellFormed_new group

theorem Change.wellFormed_revise {change : Change} (hchange : change.wellFormed = true)
    {design revised : DesignDocument} (h : design.WellFormed)
    (hrevise : change.revise design = .ok (some revised)) : revised.WellFormed := by
  cases change with
  | add group name view =>
    simp only [revise] at hrevise
    split at hrevise <;> cases hrevise
    exact wellFormed_withView h name hchange
  | put group name view =>
    simp only [revise] at hrevise
    split at hrevise <;> cases hrevise
    exact wellFormed_withView h name hchange
  | remove group name =>
    simp only [revise] at hrevise
    split at hrevise <;> cases hrevise
    exact ⟨wellFormed_filter h.views _, h.other⟩

/-- What a change plans to write is well formed. -/
theorem Change.wellFormed_plan {change : Change} (hchange : change.wellFormed = true)
    {documents : Documents} (h : (Json.obj documents).wellFormed = true) {document : Json}
    (hplan : change.plan (documents.read change.target) = .ok (some document)) :
    document.wellFormed = true := by
  obtain ⟨design, revised, hdesign, hrevise, rfl⟩ := Change.plan_eq_ok_some_iff.mp hplan
  exact (Change.wellFormed_revise hchange (wellFormed_designOf h hdesign) hrevise).toJson

theorem wellFormed_write {documents after : Documents} (h : (Json.obj documents).wellFormed = true)
    {document : Json} (hdocument : document.wellFormed = true) {suffix rev : String}
    (hwrite : documents.write suffix document = .ok (rev, after)) :
    (Json.obj after).wellFormed = true := by
  obtain ⟨id, hid, -, -, rfl⟩ := Documents.write_eq_ok_iff.mp hwrite
  obtain ⟨members, rfl⟩ := Documents.exists_members_of_idOf hid
  exact wellFormed_insert h id (wellFormed_insert hdocument "_rev" rfl)

theorem wellFormed_memory_put {documents : Documents} (h : (Json.obj documents).wellFormed = true)
    {document : Json} (hdocument : document.wellFormed = true) (suffix : String) :
    (Json.obj (Backend.memory.put suffix document documents).2).wellFormed = true := by
  simp only [Backend.memory]
  cases hwrite : documents.write suffix document with
  | error error => exact h
  | ok result => exact wellFormed_write h hdocument hwrite

/-! ### Managers on any store -/

theorem save_fst (store : Backend σ) (suffix : String) (document : Json) (state : σ) :
    (save store suffix document state).1 = (store.put suffix document state).1.mapError .store := by
  unfold save
  rcases store.put suffix document state with ⟨_ | _, _⟩ <;> rfl

theorem save_snd (store : Backend σ) (suffix : String) (document : Json) (state : σ) :
    (save store suffix document state).2 = (store.put suffix document state).2 := by
  unfold save
  rcases store.put suffix document state with ⟨_ | _, _⟩ <;> rfl

section Calls

variable {path : String} {documents : Documents} {fs : FileSystem}

theorem design_file (h : Holds path documents fs) (group : String) :
    design (Backend.file path .none) group fs = design Backend.memory group documents := by
  rw [design, design, h.get]

theorem change_file (h : Holds path documents fs) (change : Change) (suffix : String)
    (hstorable : Storable (change.run Backend.memory suffix documents).2) :
    (change.run (Backend.file path .none) suffix fs).1 = (change.run Backend.memory suffix documents).1 ∧
      Holds path (change.run Backend.memory suffix documents).2
        (change.run (Backend.file path .none) suffix fs).2 := by
  rw [Change.run_eq_finish] at hstorable ⊢
  rw [Change.run_eq_finish, h.get]
  cases hplan : change.plan (Backend.memory.get change.target documents) with
  | error error => exact ⟨rfl, h⟩
  | ok plan =>
    cases plan with
    | none => exact ⟨rfl, h⟩
    | some document =>
      simp only [hplan, finish, written, save_fst, save_snd] at hstorable ⊢
      obtain ⟨hanswer, hholds⟩ := h.put suffix document hstorable
      exact ⟨by rw [hanswer], hholds⟩

/-- An operation is answered by the file as by the memory, and the file holds the documents of the memory
afterwards. -/
theorem Operation.run_file (h : Holds path documents fs) (options : Options) {operation : Operation}
    (hstorable : Storable (operation.run Backend.memory options documents).2) :
    (operation.run (Backend.file path .none) options fs).1 =
        (operation.run Backend.memory options documents).1 ∧
      Holds path (operation.run Backend.memory options documents).2
        (operation.run (Backend.file path .none) options fs).2 := by
  cases operation with
  | get id => exact ⟨congrArg Reply.get (h.get id), h⟩
  | put suffix document =>
    obtain ⟨hanswer, hholds⟩ := h.put suffix document hstorable
    exact ⟨congrArg Reply.put hanswer, hholds⟩
  | request call =>
    cases call with
    | change suffix change =>
      obtain ⟨hanswer, hholds⟩ := change_file h change suffix hstorable
      exact ⟨congrArg (fun answer => Reply.request (.change answer)) hanswer, hholds⟩
    | view group name =>
      refine ⟨congrArg (fun answer => Reply.request (.view answer)) ?_, h⟩
      rw [Manager.view, Manager.view, design_file h]
    | list group =>
      refine ⟨congrArg (fun answer => Reply.request (.list answer)) ?_, h⟩
      rw [Manager.list, Manager.list, design_file h]

end Calls

theorem Change.wellFormed_run {change : Change} (hchange : change.wellFormed = true)
    {documents : Documents} (h : (Json.obj documents).wellFormed = true) (suffix : String) :
    (Json.obj (change.run Backend.memory suffix documents).2).wellFormed = true := by
  rcases change.run_memory_cases suffix documents with
    ⟨rev, after, document, hplan, hwrite, hresult⟩ | ⟨result, hresult, -⟩
  · rw [hresult]
    exact wellFormed_write h (wellFormed_plan hchange h hplan) hwrite
  · rw [hresult]
    exact h

/-- Well-formed operations leave well-formed documents. -/
theorem Operation.wellFormed_run {operation : Operation} (hoperation : operation.wellFormed = true)
    {documents : Documents} (h : (Json.obj documents).wellFormed = true) (options : Options) :
    (Json.obj (operation.run Backend.memory options documents).2).wellFormed = true := by
  cases operation with
  | get id => exact h
  | put suffix document => exact wellFormed_memory_put h hoperation suffix
  | request call =>
    cases call with
    | view group name => exact h
    | list group => exact h
    | change suffix change =>
      exact Change.wellFormed_run hoperation h suffix

/-! ### Runs -/

theorem trace_file {path : String} {documents : Documents} {fs : FileSystem} (h : Holds path documents fs)
    (hdocuments : (Json.obj documents).wellFormed = true) (options : Options) {operations : List Operation}
    (hform : ∀ operation ∈ operations, operation.wellFormed = true)
    (hfits : ∀ entry ∈ trace Backend.memory options operations documents,
      ∀ binding ∈ entry.2, FileStore.fits binding.2 = true) :
    List.Forall₂ (fun file memory => file.1 = memory.1 ∧ FileStore.load path .none file.2 = .ok memory.2)
      (trace (Backend.file path .none) options operations fs)
      (trace Backend.memory options operations documents) := by
  induction operations generalizing documents fs with
  | nil => exact .nil
  | cons operation operations ih =>
    have hnext := Operation.wellFormed_run (hform operation List.mem_cons_self) hdocuments options
    have hstorable : Storable (operation.run Backend.memory options documents).2 :=
      ⟨hnext, hfits _ List.mem_cons_self⟩
    obtain ⟨hanswer, hholds⟩ := Operation.run_file h options hstorable
    exact .cons ⟨hanswer, hholds.load_eq⟩ (ih hholds hnext
      (fun other hmem => hform other (List.mem_cons_of_mem _ hmem))
      fun entry hmem => hfits entry (List.mem_cons_of_mem _ hmem))

/-- **A store file mirrors the memory.** If the file is missing or blank at first and can be replaced,
and every document that is ever stored fits, operations on the file are answered one after another as
by the memory, and what is loaded from the file after each of them are the documents of the memory. -/
theorem trace_file_mirrors_memory {path : String} {fs : FileSystem}
    (hwritable : FileStore.Writable path fs)
    (hempty : fs.read path = .error .notFound ∨
      ∃ bytes, fs.read path = .ok bytes ∧ bytes.data.all FileStore.isBlankByte = true)
    (options : Options) {operations : List Operation}
    (hform : ∀ operation ∈ operations, operation.wellFormed = true)
    (hfits : ∀ entry ∈ trace Backend.memory options operations [],
      ∀ binding ∈ entry.2, FileStore.fits binding.2 = true) :
    List.Forall₂ (fun file memory => file.1 = memory.1 ∧ FileStore.load path .none file.2 = .ok memory.2)
      (trace (Backend.file path .none) options operations fs)
      (trace Backend.memory options operations []) :=
  trace_file ⟨hwritable, FileStore.load_of_empty hempty⟩ rfl options hform hfits

/-- A store file in the working directory, and nothing else. -/
def storeFile (bytes : ByteArray) : FileSystem := ⟨[(["store.json"], .file bytes)]⟩

theorem resolve_storeFile (bytes : ByteArray) :
    (storeFile bytes).resolve "store.json" = .ok ["store.json"] :=
  FileSystem.resolve_of_stepsOf (by decide +kernel) (by decide) (by decide) (by decide) _

theorem read_storeFile (bytes : ByteArray) : (storeFile bytes).read "store.json" = .ok bytes :=
  FileSystem.read_eq_ok_iff.mpr ⟨_, resolve_storeFile bytes, rfl⟩

theorem writable_storeFile (bytes : ByteArray) : FileStore.Writable "store.json" (storeFile bytes) := by
  have htemporary :
      (storeFile bytes).resolve (FileStore.temporary "store.json") = .ok ["store.json.tmp"] :=
    FileSystem.resolve_of_stepsOf (by decide +kernel) (by decide) (by decide) (by decide) _
  refine FileStore.writable_iff.mpr ⟨_, _, resolve_storeFile bytes, ?_, htemporary, ?_⟩
  · rintro ⟨⟩
  · rintro ⟨⟩

/-- A file of blanks in the working directory. -/
def blankFile : FileSystem := ⟨[(["store.json"], .file ⟨#[0x20, 0xA]⟩)]⟩

/-- A document with a double and characters that are escaped is stored, read and not stored again
without its revision; a view is added, loaded and listed, another one is not there. -/
def mirrorOperations : List Operation :=
  [.put "a" (.obj [("_id", .str "d"),
      ("n", .arr [.num (.int (-3)), .num (.double ⟨false, 1022 * Nat.pow 2 52, by decide⟩), .obj [], .arr []]),
      ("t", .str "\"\\\x01\n")]),
    .get "d", .put "b" (.obj [("_id", .str "d")]),
    .request (.change "c" (.add "g" "v" ⟨.single (.path ⟨"t"⟩), none, some (.str "_count")⟩)),
    .request (.view "g" "v"), .request (.list "g"), .request (.change "d" (.remove "g" "w"))]

theorem resolve_blankFile : blankFile.resolve "store.json" = .ok ["store.json"] :=
  resolve_storeFile _

theorem writable_blankFile : FileStore.Writable "store.json" blankFile := writable_storeFile _

/-- Two documents are stored in the end, and the file mirrors the memory all along. -/
theorem trace_mirrorOperations :
    (trace Backend.memory .default mirrorOperations []).map (fun entry => entry.2.length) =
        [1, 1, 1, 2, 2, 2, 2] ∧
      List.Forall₂ (fun file memory =>
          file.1 = memory.1 ∧ FileStore.load "store.json" .none file.2 = .ok memory.2)
        (trace (Backend.file "store.json" .none) .default mirrorOperations blankFile)
        (trace Backend.memory .default mirrorOperations []) := by
  have hread : blankFile.read "store.json" = .ok ⟨#[0x20, 0xA]⟩ :=
    FileSystem.read_eq_ok_iff.mpr ⟨_, resolve_blankFile, rfl⟩
  exact ⟨by decide +kernel, trace_file_mirrors_memory writable_blankFile
    (.inr ⟨_, hread, by decide +kernel⟩) .default (by decide +kernel) (by decide +kernel)⟩

end DocIndex.Manager

import DocIndex.Proofs.Json.Read
import DocIndex.Proofs.Store.FileSystem
import DocIndex.Proofs.Text.Order
import DocIndex.Store.FileStore

/-!
# What a store file holds

The depth of documents decides whether they are read from the file they have been written to at all, and then
only their doubles can be others (`decode?_encode_eq`). Documents that a file can hold are read back as they
are (`decode?_encode`), so as long as the file system does not refuse, what has been saved is what is loaded
next (`Writable.save`).
-/

namespace DocIndex.FileStore

open FileSystem (SameDirectories)

/-! ### The content of a file -/

/-- The depth of documents that leaves room for the object around them. -/
def depthLimit : Nat := 126

/-- Whether a document can be stored in a file: it is not too deep, and its doubles are read back. -/
def fits (document : Json) : Bool := decide (document.depth ≤ depthLimit) && document.doublesReadBack

/-- Whether the documents can be stored in a file: they are in order, and each of them fits. -/
structure Storable (documents : Documents) : Prop where
  /-- The ids are in order, and the documents are values that their type allows. -/
  wellFormed : (Json.obj documents).wellFormed = true
  /-- Each document fits. -/
  fits_of_mem : ∀ binding ∈ documents, FileStore.fits binding.2 = true

theorem Storable.depth_le {documents : Documents} (h : Storable documents) :
    (Json.obj documents).depth ≤ Json.depthLimit := by
  refine Nat.succ_le_succ (Json.depthMembers_le_iff.mpr fun binding hmem => ?_)
  have hfits := h.fits_of_mem binding hmem
  rw [FileStore.fits, Bool.and_eq_true, decide_eq_true_iff] at hfits
  exact hfits.1

theorem Storable.doublesReadBack {documents : Documents} (h : Storable documents) :
    (Json.obj documents).doublesReadBack = true := by
  refine Json.everywhere_obj_iff.mpr ⟨rfl, fun binding hmem => ?_⟩
  have hfits := h.fits_of_mem binding hmem
  rw [FileStore.fits, Bool.and_eq_true] at hfits
  exact hfits.2

theorem fromUTF8?_toUTF8 (text : String) : String.fromUTF8? text.toUTF8 = some text := by
  rw [String.fromUTF8?, String.toUTF8_eq_toByteArray, dif_pos text.isValidUTF8]
  rfl

/-- A store file is not blank. -/
theorem all_isBlankByte_encode (documents : Documents) :
    (encode documents).data.all isBlankByte = false := by
  have hbrace : ∃ chars, Json.prettyChars 0 (.obj documents) = '{' :: chars := by
    cases documents with
    | nil => exact ⟨_, rfl⟩
    | cons binding documents => exact ⟨_, rfl⟩
  obtain ⟨chars, hchars⟩ := hbrace
  have hbytes : (encode documents).data.toList = 0x7B :: utf8Bytes chars := by
    rw [encode, toList_toUTF8, Json.pretty, String.toList_ofList, hchars]
    rfl
  rw [← Array.all_toList, hbytes]
  rfl

/-- Documents after they have been written to a file and read from it. -/
def reread (documents : Documents) : Documents := Dict.mapValues Json.reread documents

theorem find?_reread (id : String) (documents : Documents) :
    Dict.find? id (reread documents) = (Dict.find? id documents).map Json.reread :=
  Dict.find?_mapValues Json.reread id documents

theorem Storable.reread_eq {documents : Documents} (h : Storable documents) : reread documents = documents := by
  have hsame := (Json.reread_eq_self_iff _).mpr h.doublesReadBack
  rw [Json.reread_obj, Json.obj.injEq] at hsame
  exact hsame

/-- What the depth of documents decides is whether they are read from their file at all. -/
theorem decode?_encode_eq {documents : Documents} (hform : (Json.obj documents).wellFormed = true) :
    decode? (encode documents) =
      if (Json.obj documents).depth ≤ Json.depthLimit then some (reread documents) else none := by
  rw [decode?, all_isBlankByte_encode, if_neg (by decide), encode, fromUTF8?_toUTF8]
  simp only [Json.parse?_pretty_eq hform, Json.reread_obj]
  by_cases hdepth : (Json.obj documents).depth ≤ Json.depthLimit
  · rw [if_pos hdepth, if_pos hdepth, reread]
  · rw [if_neg hdepth, if_neg hdepth]

/-- Documents that can be stored are read back from their file. -/
theorem decode?_encode {documents : Documents} (h : Storable documents) :
    decode? (encode documents) = some documents := by
  rw [decode?_encode_eq h.wellFormed, if_pos h.depth_le, h.reread_eq]

/-- Documents that are read from a file are well formed, and the object of them is not too deep. -/
theorem wellFormed_and_depth_of_decode? {bytes : ByteArray} {documents : Documents}
    (h : decode? bytes = some documents) :
    (Json.obj documents).wellFormed = true ∧ (Json.obj documents).depth ≤ Json.depthLimit := by
  unfold decode? at h
  split at h
  · cases h
    exact ⟨rfl, by decide⟩
  · split at h
    · cases h
    · split at h
      · rename_i hparse
        cases h
        exact ⟨Json.wellFormed_of_parse? hparse, Json.depth_le_of_parse? hparse⟩
      · cases h

/-! ### Saving and loading -/

/-- The file system lets the store file be replaced: its temporary file can be written and renamed. -/
def Writable (path : String) (fs : FileSystem) : Prop :=
  ∀ bytes, ∃ written renamed, fs.write (temporary path) bytes = .ok written ∧
    written.rename (temporary path) path = .ok renamed

theorem Writable.of_sameDirectories {path : String} {fs other : FileSystem} (h : Writable path fs)
    (hsame : SameDirectories fs other) : Writable path other := by
  intro bytes
  obtain ⟨written, renamed, hwrite, hrename⟩ := h bytes
  obtain ⟨written', hwrite'⟩ := hsame.write hwrite
  obtain ⟨hread', hsame'⟩ := FileSystem.read_of_write hwrite'
  have hboth := ((FileSystem.read_of_write hwrite).2.symm.trans hsame).trans hsame'
  obtain ⟨renamed', hrename'⟩ := hboth.rename hrename hread'
  exact ⟨written', renamed', hwrite', hrename'⟩

/-- The store file can be replaced if its name and that of the temporary file lead somewhere, and not to
a directory. -/
theorem writable_iff {path : String} {fs : FileSystem} : Writable path fs ↔
    ∃ place temporaryPlace, fs.resolve path = .ok place ∧ fs.entry? place ≠ some .directory ∧
      fs.resolve (temporary path) = .ok temporaryPlace ∧ fs.entry? temporaryPlace ≠ some .directory := by
  constructor
  · intro h
    obtain ⟨written, renamed, hwrite, hrename⟩ := h ByteArray.empty
    have hsame := (FileSystem.read_of_write hwrite).2.symm
    obtain ⟨temporaryPlace, htemporary, hnofile, -⟩ := FileSystem.write_eq_ok_iff.mp hwrite
    obtain ⟨_, _, place, -, -, hplace, hentry, -⟩ := FileSystem.rename_eq_ok_iff.mp hrename
    exact ⟨place, temporaryPlace, hsame.resolve hplace, fun hdirectory =>
      hentry ((hsame place).mpr hdirectory), htemporary, hnofile⟩
  · rintro ⟨place, temporaryPlace, hplace, hentry, htemporary, hnofile⟩ bytes
    have hwrite := FileSystem.write_eq_ok_iff.mpr
      ⟨temporaryPlace, htemporary, hnofile, @rfl _ (fs.insert temporaryPlace (.file bytes))⟩
    obtain ⟨hread, hsame⟩ := FileSystem.read_of_write hwrite
    exact ⟨_, _, hwrite, FileSystem.rename_eq_ok_iff.mpr ⟨bytes, temporaryPlace, place, hread,
      hsame.resolve htemporary, hsame.resolve hplace, fun hdirectory =>
      hentry ((hsame place).mpr hdirectory), rfl⟩⟩

/-- A store file holds documents, and can be replaced. -/
structure Holds (path : String) (documents : Documents) (fs : FileSystem) : Prop where
  /-- The store file can be replaced. -/
  writable : Writable path fs
  /-- The store file is loaded as these documents. -/
  load_eq : load path .none fs = .ok documents

theorem load_of_read {path : String} {documents : Documents} {fs : FileSystem} {bytes : ByteArray}
    (hread : fs.read path = .ok bytes) (hdecode : decode? bytes = some documents) :
    load path .none fs = .ok documents := by
  simp only [load, FileFaults.none, hread, hdecode]

/-- What is loaded from a file that has been written depends on the depth of the documents in it. -/
theorem load_of_read_encode {path : String} {documents : Documents} {fs : FileSystem}
    (hread : fs.read path = .ok (encode documents)) (hform : (Json.obj documents).wellFormed = true) :
    load path .none fs =
      if (Json.obj documents).depth ≤ Json.depthLimit then .ok (reread documents)
      else .error (.storage (.notDocumentMap path)) := by
  simp only [load, FileFaults.none, hread, decode?_encode_eq hform]
  by_cases hdepth : (Json.obj documents).depth ≤ Json.depthLimit
  · rw [if_pos hdepth, if_pos hdepth]
  · rw [if_neg hdepth, if_neg hdepth]

theorem wellFormed_and_depth_of_load {path : String} {documents : Documents} {fs : FileSystem}
    (h : load path .none fs = .ok documents) :
    (Json.obj documents).wellFormed = true ∧ (Json.obj documents).depth ≤ Json.depthLimit := by
  simp only [load, FileFaults.none] at h
  split at h
  · cases h
    exact ⟨rfl, by decide⟩
  · cases h
  · split at h
    · rename_i hdecode
      cases h
      exact wellFormed_and_depth_of_decode? hdecode
    · cases h

/-- A file that is missing or blank holds no documents. -/
theorem load_of_empty {path : String} {fs : FileSystem}
    (h : fs.read path = .error .notFound ∨
      ∃ bytes, fs.read path = .ok bytes ∧ bytes.data.all isBlankByte = true) :
    load path .none fs = .ok [] := by
  rcases h with hread | ⟨bytes, hread, hblank⟩
  · simp only [load, FileFaults.none, hread]
  · exact load_of_read hread (if_pos hblank)

/-- A store file that can be replaced is replaced by the bytes of the documents, whether these are read
back or not. -/
theorem Writable.exists_save {path : String} {fs : FileSystem} (h : Writable path fs)
    (documents : Documents) : ∃ after, save path .none documents fs = (.ok (), after) ∧
      Writable path after ∧ after.read path = .ok (encode documents) := by
  obtain ⟨written, renamed, hwrite, hrename⟩ := h (encode documents)
  obtain ⟨hread, hwritten⟩ := FileSystem.read_of_write hwrite
  obtain ⟨hkept, hrenamed⟩ := FileSystem.read_of_rename hrename
  refine ⟨renamed, ?_, h.of_sameDirectories (hwritten.trans hrenamed), hkept.trans hread⟩
  simp only [save, FileFaults.none, hwrite, hrename]

/-- What is saved is what is loaded next. -/
theorem Writable.save {path : String} {documents : Documents} {fs : FileSystem} (h : Writable path fs)
    (hstorable : Storable documents) :
    (save path .none documents fs).1 = .ok () ∧ Holds path documents (save path .none documents fs).2 := by
  obtain ⟨after, hsave, hwritable, hread⟩ := h.exists_save documents
  rw [hsave]
  exact ⟨rfl, hwritable, load_of_read hread (decode?_encode hstorable)⟩

/-! ### One call -/

theorem get_of_load {path : String} {documents : Documents} {fs : FileSystem}
    (h : load path .none fs = .ok documents) (id : String) :
    (Backend.file path .none).get id fs = documents.read id := by
  show (load path .none fs).bind (Documents.read id) = documents.read id
  rw [h]
  rfl

namespace Holds

variable {path : String} {documents : Documents} {fs : FileSystem}

theorem get (h : Holds path documents fs) (id : String) :
    (Backend.file path .none).get id fs = Backend.memory.get id documents := get_of_load h.load_eq id

/-- A put is answered as by the memory, and the file holds what the memory holds afterwards. -/
theorem put (h : Holds path documents fs) (suffix : String) (document : Json)
    (hstorable : Storable (Backend.memory.put suffix document documents).2) :
    ((Backend.file path .none).put suffix document fs).1 =
        (Backend.memory.put suffix document documents).1 ∧
      Holds path (Backend.memory.put suffix document documents).2
        ((Backend.file path .none).put suffix document fs).2 := by
  simp only [Backend.file, Backend.memory, FileStore.put, h.load_eq] at hstorable ⊢
  cases hwrite : documents.write suffix document with
  | error error => exact ⟨rfl, h⟩
  | ok result =>
    simp only [hwrite] at hstorable ⊢
    obtain ⟨hsaved, hholds⟩ := h.writable.save hstorable
    cases hsave : FileStore.save path .none result.2 fs with
    | mk answer after =>
      rw [hsave] at hsaved hholds
      obtain rfl : answer = .ok () := hsaved
      exact ⟨rfl, hholds⟩

end Holds

end DocIndex.FileStore

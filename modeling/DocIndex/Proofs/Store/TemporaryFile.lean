import DocIndex.Proofs.Store.FileStore

/-!
# The temporary file

The temporary file is a sibling of the store file: the two paths share all steps but the last, so they
lead to different places (`resolve_of_temporary`), and what happens to the temporary file leaves the
store file as it is. A save that fails at any of its operations therefore changes nothing, and one that
succeeds puts the new content in place as a whole (`read_save`).
-/

namespace DocIndex

namespace FileSystem

/-! ### The last name of a path -/

theorem splitNames_of_not_mem {name : List Char} (h : '/' ∉ name) : splitNames name = [name] := by
  induction name with
  | nil => rfl
  | cons c name ih =>
    obtain ⟨hc, hname⟩ := List.ne_and_not_mem_of_not_mem_cons h
    rw [splitNames, if_neg hc.symm, ih hname]

theorem splitNames_ne_nil (chars : List Char) : splitNames chars ≠ [] := by
  cases chars with
  | nil => simp [splitNames]
  | cons c chars =>
    rw [splitNames]
    split
    · simp
    · split <;> simp

theorem splitNames_append {last : List Char} (h : '/' ∉ last) (front : List Char) :
    splitNames (front ++ '/' :: last) = splitNames front ++ [last] := by
  induction front with
  | nil => simp [splitNames, splitNames_of_not_mem h]
  | cons c front ih =>
    rw [List.cons_append, splitNames, splitNames, ih]
    by_cases hc : c = '/'
    · rw [if_pos hc, if_pos hc, List.cons_append]
    · rw [if_neg hc, if_neg hc]
      obtain ⟨name, names, hnames⟩ := List.exists_cons_of_ne_nil (splitNames_ne_nil front)
      rw [hnames]
      rfl

/-- A path with a slash has a last one. -/
theorem exists_last_slash {chars : List Char} (h : '/' ∈ chars) :
    ∃ front last, chars = front ++ '/' :: last ∧ '/' ∉ last := by
  obtain ⟨back, front, hsplit, hback⟩ := List.eq_append_cons_of_mem (List.mem_reverse.mpr h)
  refine ⟨front.reverse, back.reverse, ?_, by simpa using hback⟩
  rw [← List.reverse_reverse chars, hsplit]
  simp

/-- A path has a last name, which is empty where the path ends in a slash; characters without a slash
make it longer. -/
theorem exists_last_name (chars : List Char) : ∃ names last,
    (chars.getLast? = some '/' → last = []) ∧
    ∀ suffix, '/' ∉ suffix → splitNames (chars ++ suffix) = names ++ [last ++ suffix] := by
  have hmem : ∀ {last suffix : List Char}, '/' ∉ last → '/' ∉ suffix → '/' ∉ last ++ suffix :=
    fun hlast hsuffix h => (List.mem_append.mp h).elim hlast hsuffix
  by_cases hslash : '/' ∈ chars
  · obtain ⟨front, last, rfl, hlast⟩ := exists_last_slash hslash
    refine ⟨splitNames front, last, fun hend => ?_, fun suffix hsuffix => ?_⟩
    · cases last with
      | nil => rfl
      | cons c last =>
        rw [List.getLast?_append, List.getLast?_cons_cons] at hend
        exact absurd (List.mem_of_getLast? (by simpa using hend)) hlast
    · rw [List.append_assoc, List.cons_append, splitNames_append (hmem hlast hsuffix)]
  · refine ⟨[], chars, fun hend => absurd (List.mem_of_getLast? hend) hslash, fun suffix hsuffix => ?_⟩
    exact splitNames_of_not_mem (hmem hslash hsuffix)

/-- The store file and its temporary file share all steps but the last. -/
theorem stepsOf_temporary (path : String) : ∃ steps last rest,
    stepsOf (FileStore.temporary path) = steps ++ [last ++ ".tmp"] ∧ stepsOf path = steps ++ rest ∧
      (rest = [] ∨ rest = ["."] ∨ rest = [last]) := by
  obtain ⟨names, last, hend, hsplit⟩ := exists_last_name path.toList
  have hpath : splitNames path.toList = names ++ [last] := by
    simpa using hsplit [] (by simp)
  have htemporary : splitNames (FileStore.temporary path).toList = names ++ [last ++ ".tmp".toList] := by
    rw [FileStore.temporary, String.toList_append]
    exact hsplit _ (by decide)
  have hnoslash : endsInSlash (FileStore.temporary path) = false := by
    simp [endsInSlash, FileStore.temporary, String.toList_append, List.getLast?_append]
  refine ⟨(names.filter fun name => name != []).map String.ofList, String.ofList last,
    (if last = [] then [] else [String.ofList last]) ++ if endsInSlash path then ["."] else [], ?_, ?_, ?_⟩
  · simp [stepsOf, namesOf, htemporary, hnoslash, List.filter_append, String.ofList_append]
  · rw [stepsOf, namesOf, hpath, List.filter_append, List.map_append, List.append_assoc]
    by_cases hlast : last = [] <;> simp [hlast]
  · by_cases hslash : endsInSlash path = true
    · rw [if_pos (hend (by simpa [endsInSlash] using hslash)), if_pos hslash]
      exact .inr (.inl rfl)
    · rw [if_neg hslash]
      by_cases hlast : last = [] <;> simp [hlast]

theorem startOf_temporary (path : String) : startOf (FileStore.temporary path) = startOf path := by
  have hiff : (FileStore.temporary path).startsWith "/" = true ↔ path.startsWith "/" = true := by
    rw [String.startsWith_string_iff, String.startsWith_string_iff, FileStore.temporary,
      String.toList_append]
    cases path.toList <;> simp
  rw [startOf, startOf]
  simp only [hiff]

/-! ### Two places -/

variable {fs : FileSystem}

theorem append_temporary_ne (name : String) : name ++ ".tmp" ≠ name := by
  intro h
  have hlength := congrArg String.length h
  simp at hlength

/-- The last step of a path goes down from the directory that the steps before it lead to. -/
theorem follow_append {name : String} (hname : name ≠ "." ∧ name ≠ "..") {steps : List String}
    {place found : Place} (h : fs.follow place (steps ++ [name]) = .ok found) :
    ∃ directory, found = directory ++ [name] ∧ name.utf8ByteSize ≤ nameLimit ∧
      ∀ rest, fs.follow place (steps ++ rest) = fs.follow directory rest := by
  induction steps generalizing place with
  | nil =>
    rw [List.nil_append, follow, if_neg hname.1, if_neg hname.2] at h
    split at h
    · cases h
    · rename_i hshort
      cases h
      exact ⟨place, rfl, Nat.not_lt.mp hshort, fun _ => rfl⟩
  | cons step steps ih =>
    rw [List.cons_append, follow] at h
    by_cases hstay : step = "."
    · rw [if_pos hstay] at h
      obtain ⟨directory, hfound, hshort, hrest⟩ := ih h
      refine ⟨directory, hfound, hshort, fun rest => ?_⟩
      rw [List.cons_append, follow, if_pos hstay, hrest]
    rw [if_neg hstay] at h
    by_cases hup : step = ".."
    · rw [if_pos hup] at h
      obtain ⟨directory, hfound, hshort, hrest⟩ := ih h
      refine ⟨directory, hfound, hshort, fun rest => ?_⟩
      rw [List.cons_append, follow, if_neg hstay, if_pos hup, hrest]
    rw [if_neg hup] at h
    by_cases hlong : nameLimit < step.utf8ByteSize
    · rw [if_pos hlong] at h
      cases h
    rw [if_neg hlong, if_neg (by simp)] at h
    split at h
    · cases h
    · cases h
    · rename_i hentry
      obtain ⟨directory, hfound, hshort, hrest⟩ := ih h
      refine ⟨directory, hfound, hshort, fun rest => ?_⟩
      rw [List.cons_append, follow, if_neg hstay, if_neg hup, if_neg hlong, hentry]
      split
      · rename_i hend
        rw [List.isEmpty_iff] at hend
        rw [← hrest rest, hend]
        rfl
      · exact hrest rest

theorem parent_ne_append {place : Place} {name : String} (h : name ≠ "..") :
    parent place ≠ place ++ [name] := by
  intro heq
  rw [parent] at heq
  split at heq
  · simp [Ne.symm h] at heq
  · simp [Ne.symm h] at heq
  · simp at heq
  · have hlength := congrArg List.length heq
    simp at hlength

/-- Where the temporary file has a place, the store file has another one. -/
theorem resolve_of_temporary {path : String} {temporaryPlace : Place}
    (h : fs.resolve (FileStore.temporary path) = .ok temporaryPlace) :
    ∃ place, fs.resolve path = .ok place ∧ place ≠ temporaryPlace := by
  obtain ⟨steps, last, rest, htemporary, hsteps, hrest⟩ := stepsOf_temporary path
  have hlength : 4 ≤ (last ++ ".tmp").length := by
    rw [String.length_append]
    exact Nat.le_add_left 4 last.length
  have hname : last ++ ".tmp" ≠ "." ∧ last ++ ".tmp" ≠ ".." :=
    ⟨fun h => absurd (h ▸ hlength) (by decide), fun h => absurd (h ▸ hlength) (by decide)⟩
  rw [resolve, startOf_temporary, htemporary] at h
  split at h
  · cases h
  split at h
  · cases h
  rename_i hnull hlong
  obtain ⟨directory, rfl, hshort, hfollow⟩ := follow_append hname h
  have hresolve : fs.resolve path = fs.follow directory rest := by
    rw [FileStore.temporary, String.utf8ByteSize_append] at hlong
    rw [FileStore.temporary, String.toList_append, List.contains_append, Bool.or_eq_true, not_or] at hnull
    rw [resolve, if_neg hnull.1, if_neg (by omega), hsteps, hfollow]
  rw [hresolve]
  rcases hrest with rfl | rfl | rfl
  · exact ⟨directory, rfl, by simp⟩
  · exact ⟨directory, rfl, by simp⟩
  · rw [follow]
    split
    · exact ⟨directory, rfl, by simp⟩
    split
    · exact ⟨parent directory, rfl, parent_ne_append hname.2⟩
    rw [String.utf8ByteSize_append] at hshort
    rw [if_neg (by omega)]
    refine ⟨_, rfl, fun heq => append_temporary_ne last ?_⟩
    exact (List.singleton_inj.mp (List.append_cancel_left heq)).symm

/-- Writing the temporary file leaves the store file as it is. -/
theorem read_of_write_temporary {path : String} {bytes : ByteArray} {written : FileSystem}
    (h : fs.write (FileStore.temporary path) bytes = .ok written) : written.read path = fs.read path := by
  obtain ⟨temporaryPlace, htemporary, hentry, rfl⟩ := write_eq_ok_iff.mp h
  obtain ⟨place, hplace, hne⟩ := resolve_of_temporary htemporary
  have hstill := (SameDirectories.insert hentry bytes).resolve hplace
  have hfound : entry? (fs.insert temporaryPlace (.file bytes)) place = fs.entry? place := by
    rw [entry?_insert, if_neg hne]
    split
    · rename_i habove
      rw [ entry?, if_pos habove]
    · rfl
  simp only [read, hplace, hstill, bind, Except.bind, hfound]

end FileSystem

namespace FileStore

/-! ### Replacing the content -/

theorem read_writePartly (path : String) (bytes : ByteArray) (count : Nat) (fs : FileSystem) :
    (writePartly (temporary path) bytes count fs).read path = fs.read path := by
  unfold writePartly
  split
  · rename_i written hwrite
    exact FileSystem.read_of_write_temporary hwrite
  · rfl

/-- After a save the store file holds the documents if the save succeeded, and what it held before if
any of its operations failed. -/
theorem read_save (path : String) (faults : FileFaults) (documents : Documents) (fs : FileSystem) :
    (save path faults documents fs).2.read path =
      match (save path faults documents fs).1 with
      | .ok () => .ok (encode documents)
      | .error _ => fs.read path := by
  unfold save
  dsimp only
  split
  · exact read_writePartly path _ _ fs
  · split
    · rfl
    · rename_i written hwrite
      have hkept := FileSystem.read_of_write_temporary hwrite
      split
      · exact hkept
      · split
        · exact hkept
        · rename_i renamed hrename
          rw [(FileSystem.read_of_rename hrename).1, (FileSystem.read_of_write hwrite).1]

/-- A save touches no place but those of the store file and the temporary file. -/
theorem entry?_save (path : String) (faults : FileFaults) (documents : Documents) {fs : FileSystem}
    {found : Place} (hpath : fs.resolve path ≠ .ok found)
    (htemporary : fs.resolve (temporary path) ≠ .ok found) :
    FileSystem.entry? (save path faults documents fs).2 found = fs.entry? found := by
  unfold save
  dsimp only
  split
  · unfold writePartly
    split
    · rename_i written hwrite
      exact FileSystem.entry?_of_write hwrite htemporary
    · rfl
  · split
    · rfl
    · rename_i written hwrite
      have hkept := FileSystem.entry?_of_write hwrite htemporary
      have hsame := (FileSystem.read_of_write hwrite).2.symm
      split
      · exact hkept
      · split
        · exact hkept
        · rename_i renamed hrename
          rw [FileSystem.entry?_of_rename hrename (fun h => htemporary (hsame.resolve h))
            (fun h => hpath (hsame.resolve h)), hkept]

theorem entry?_put (path : String) (faults : FileFaults) (suffix : String) (document : Json)
    {fs : FileSystem} {found : Place} (hpath : fs.resolve path ≠ .ok found)
    (htemporary : fs.resolve (temporary path) ≠ .ok found) :
    FileSystem.entry? (put path faults suffix document fs).2 found = fs.entry? found := by
  cases hload : load path faults fs with
  | error error => simp only [put, hload]
  | ok documents =>
    cases hwrite : documents.write suffix document with
    | error error => simp only [put, hload, hwrite]
    | ok result =>
      have hkept := entry?_save path faults result.2 hpath htemporary
      simp only [put, hload, hwrite]
      rcases hsave : save path faults result.2 fs with ⟨_ | _, after⟩
      · rwa [hsave] at hkept
      · rwa [hsave] at hkept

/-- After a put the store file is what it was, or, if the put answers a revision, the documents that it
was loaded as with the document written to them. -/
theorem read_put (path : String) (faults : FileFaults) (suffix : String) (document : Json)
    (fs : FileSystem) :
    match (put path faults suffix document fs).1 with
    | .ok rev => ∃ documents written, load path faults fs = .ok documents ∧
        documents.write suffix document = .ok (rev, written) ∧
        (put path faults suffix document fs).2.read path = .ok (encode written)
    | .error _ => (put path faults suffix document fs).2.read path = fs.read path := by
  cases hload : load path faults fs with
  | error error => simp only [put, hload]
  | ok documents =>
    cases hwrite : documents.write suffix document with
    | error error => simp only [put, hload, hwrite]
    | ok result =>
      obtain ⟨rev, written⟩ := result
      have hread := read_save path faults written fs
      simp only [put, hload, hwrite]
      rcases hsave : save path faults written fs with ⟨_ | _, after⟩
      · rwa [hsave] at hread
      · rw [hsave] at hread
        exact ⟨documents, written, rfl, hwrite, hread⟩

end FileStore

end DocIndex

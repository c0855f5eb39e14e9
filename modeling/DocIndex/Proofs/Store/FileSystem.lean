import DocIndex.Store.FileSystem

/-!
# Files after a change

Where a path leads depends on the directories alone, and writing or renaming a file leaves these as
they are (`SameDirectories`). So what has been written is read back, under the name that it was written
or renamed to, and what could be written once can be written again.
-/

namespace DocIndex.FileSystem

variable {fs other : FileSystem}

/-! ### Entries -/

theorem lookup_cons (place found : Place) (entry : FileEntry) (entries : List (Place × FileEntry)) :
    ((place, entry) :: entries).lookup found =
      if found = place then some entry else entries.lookup found := by
  by_cases h : found = place
  · simp [h]
  · rw [List.lookup_cons, if_neg h, beq_eq_false_iff_ne.mpr h]

theorem lookup_filter (place found : Place) (entries : List (Place × FileEntry)) :
    (entries.filter fun entry => entry.1 != place).lookup found =
      if found = place then none else entries.lookup found := by
  induction entries with
  | nil => simp
  | cons entry entries ih =>
    obtain ⟨p, e⟩ := entry
    rw [lookup_cons]
    by_cases hp : p = place
    · subst hp
      rw [List.filter_cons_of_neg (by simp), ih]
      split <;> rfl
    · rw [List.filter_cons_of_pos (by simpa using hp), lookup_cons, ih]
      by_cases hfound : found = p
      · rw [if_pos hfound, if_pos hfound, if_neg (hfound ▸ hp)]
      · rw [if_neg hfound, if_neg hfound]

theorem entry?_erase (fs : FileSystem) (place found : Place) :
    entry? (fs.erase place) found =
      if isAbove found then some .directory else if found = place then none else fs.entry? found := by
  simp only [ entry?, erase, lookup_filter]
  split <;> rfl

theorem entry?_insert (fs : FileSystem) (place found : Place) (entry : FileEntry) :
    entry? (fs.insert place entry) found =
      if isAbove found then some .directory else if found = place then some entry else fs.entry? found := by
  simp only [ entry?, insert, erase, lookup_cons, lookup_filter]
  split
  · rfl
  · split <;> rfl

/-! ### Directories -/

/-- Two file systems have the same directories. -/
def SameDirectories (fs other : FileSystem) : Prop :=
  ∀ place, fs.entry? place = some .directory ↔ other.entry? place = some .directory

theorem SameDirectories.trans {third : FileSystem} (h : SameDirectories fs other)
    (hthird : SameDirectories other third) : SameDirectories fs third :=
  fun place => (h place).trans (hthird place)

theorem SameDirectories.symm (h : SameDirectories fs other) : SameDirectories other fs :=
  fun place => (h place).symm

theorem SameDirectories.insert {place : Place} (h : fs.entry? place ≠ some .directory)
    (bytes : ByteArray) : SameDirectories fs (fs.insert place (.file bytes)) := by
  intro found
  rw [entry?_insert]
  by_cases habove : isAbove found = true
  · simp [ entry?, habove]
  · by_cases hfound : found = place
    · subst hfound
      simp [habove, h]
    · simp [habove, hfound]

theorem SameDirectories.erase {place : Place} (h : fs.entry? place ≠ some .directory) :
    SameDirectories fs (fs.erase place) := by
  intro found
  rw [entry?_erase]
  by_cases habove : isAbove found = true
  · simp [ entry?, habove]
  · by_cases hfound : found = place
    · subst hfound
      simp [habove, h]
    · simp [habove, hfound]

theorem SameDirectories.follow (h : SameDirectories fs other) {place found : Place} {names : List String}
    (hfollow : fs.follow place names = .ok found) : other.follow place names = .ok found := by
  induction names generalizing place with
  | nil => exact hfollow
  | cons name names ih =>
    rw [FileSystem.follow] at hfollow ⊢
    by_cases hstay : name = "."
    · rw [if_pos hstay] at hfollow ⊢
      exact ih hfollow
    rw [if_neg hstay] at hfollow ⊢
    by_cases hup : name = ".."
    · rw [if_pos hup] at hfollow ⊢
      exact ih hfollow
    rw [if_neg hup] at hfollow ⊢
    by_cases hlong : nameLimit < name.utf8ByteSize
    · rw [if_pos hlong] at hfollow
      cases hfollow
    rw [if_neg hlong] at hfollow ⊢
    by_cases hlast : names.isEmpty = true
    · rwa [if_pos hlast] at hfollow ⊢
    rw [if_neg hlast] at hfollow ⊢
    -- only a directory lets a path go on
    split at hfollow
    · cases hfollow
    · cases hfollow
    · rename_i hentry
      rw [(h _).mp hentry]
      exact ih hfollow

/-- A path leads to the same place where the directories are the same. -/
theorem SameDirectories.resolve (h : SameDirectories fs other) {path : String} {place : Place}
    (hresolve : fs.resolve path = .ok place) : other.resolve path = .ok place := by
  rw [FileSystem.resolve] at hresolve ⊢
  by_cases hnull : path.toList.contains '\x00' = true
  · rw [if_pos hnull] at hresolve
    cases hresolve
  rw [if_neg hnull] at hresolve ⊢
  by_cases hlong : pathLimit ≤ path.utf8ByteSize
  · rw [if_pos hlong] at hresolve
    cases hresolve
  rw [if_neg hlong] at hresolve ⊢
  exact h.follow hresolve

/-- A plain name leads to its place in the working directory, whatever there is. -/
theorem resolve_of_stepsOf {path : String} (hsteps : startOf path = [] ∧ stepsOf path = [path])
    (hnull : path.toList.contains '\x00' = false) (hshort : path.utf8ByteSize ≤ nameLimit)
    (hname : path ≠ "." ∧ path ≠ "..") (fs : FileSystem) : fs.resolve path = .ok [path] := by
  have hpath : ¬pathLimit ≤ path.utf8ByteSize := by
    simp only [pathLimit, nameLimit] at hshort ⊢
    omega
  rw [FileSystem.resolve, hnull, if_neg (by decide), if_neg hpath, hsteps.1, hsteps.2, FileSystem.follow,
    if_neg hname.1, if_neg hname.2, if_neg (Nat.not_lt.mpr hshort)]
  rfl

/-! ### Reading, writing and renaming -/

theorem isAbove_of_entry? {place : Place} (h : fs.entry? place ≠ some .directory) :
    isAbove place = false := by
  rw [← Bool.not_eq_true]
  intro habove
  exact h (if_pos habove)

theorem read_eq_ok_iff {path : String} {bytes : ByteArray} : fs.read path = .ok bytes ↔
    ∃ place, fs.resolve path = .ok place ∧ fs.entry? place = some (.file bytes) := by
  simp only [read, bind, Except.bind]
  cases fs.resolve path with
  | error error => simp
  | ok place =>
    simp only [Except.ok.injEq, exists_eq_left']
    cases fs.entry? place with
    | none => simp
    | some entry => cases entry <;> simp

theorem write_eq_ok_iff {path : String} {bytes : ByteArray} {written : FileSystem} :
    fs.write path bytes = .ok written ↔
      ∃ place, fs.resolve path = .ok place ∧ fs.entry? place ≠ some .directory ∧
        written = fs.insert place (.file bytes) := by
  simp only [write, bind, Except.bind]
  cases fs.resolve path with
  | error error => simp
  | ok place =>
    simp only [Except.ok.injEq, exists_eq_left']
    cases fs.entry? place with
    | none => simp [eq_comm]
    | some entry => cases entry <;> simp [eq_comm]

theorem rename_eq_ok_iff {source target : String} {renamed : FileSystem} :
    fs.rename source target = .ok renamed ↔
      ∃ bytes start stop, fs.read source = .ok bytes ∧ fs.resolve source = .ok start ∧
        fs.resolve target = .ok stop ∧ fs.entry? stop ≠ some .directory ∧
        renamed = (fs.erase start).insert stop (.file bytes) := by
  simp only [rename, bind, Except.bind]
  cases fs.read source with
  | error error => simp
  | ok bytes =>
    cases fs.resolve source with
    | error error => simp
    | ok start =>
      cases fs.resolve target with
      | error error => simp
      | ok stop =>
        simp only [Except.ok.injEq, exists_eq_left', exists_and_left]
        cases fs.entry? stop with
        | none => simp [eq_comm]
        | some entry => cases entry <;> simp [eq_comm]

/-- A file that was written holds what was written. -/
theorem read_of_write {path : String} {bytes : ByteArray} {written : FileSystem}
    (h : fs.write path bytes = .ok written) :
    written.read path = .ok bytes ∧ SameDirectories fs written := by
  obtain ⟨place, hresolve, hentry, rfl⟩ := write_eq_ok_iff.mp h
  have hsame := SameDirectories.insert hentry bytes
  refine ⟨read_eq_ok_iff.mpr ⟨place, hsame.resolve hresolve, ?_⟩, hsame⟩
  rw [entry?_insert, isAbove_of_entry? hentry]
  simp

/-- A file that was renamed holds what it held under its old name. -/
theorem read_of_rename {source target : String} {renamed : FileSystem}
    (h : fs.rename source target = .ok renamed) :
    renamed.read target = fs.read source ∧ SameDirectories fs renamed := by
  obtain ⟨bytes, start, stop, hread, hstart, hstop, hentry, rfl⟩ := rename_eq_ok_iff.mp h
  obtain ⟨place, hplace, hfile⟩ := read_eq_ok_iff.mp hread
  obtain rfl : start = place := Except.ok.inj (hstart.symm.trans hplace)
  have herase : SameDirectories fs (fs.erase start) := .erase (by simp [hfile])
  have hstill : entry? (fs.erase start) stop ≠ some .directory := fun hdirectory =>
    hentry ((herase stop).mpr hdirectory)
  have hsame := herase.trans (SameDirectories.insert hstill bytes)
  refine ⟨?_, hsame⟩
  rw [hread, read_eq_ok_iff]
  refine ⟨stop, hsame.resolve hstop, ?_⟩
  rw [entry?_insert, isAbove_of_entry? hentry]
  simp

/-- A write changes no other place than the one that its path leads to. -/
theorem entry?_of_write {path : String} {bytes : ByteArray} {written : FileSystem}
    (h : fs.write path bytes = .ok written) {found : Place} (hfound : fs.resolve path ≠ .ok found) :
    written.entry? found = fs.entry? found := by
  obtain ⟨place, hplace, hentry, rfl⟩ := write_eq_ok_iff.mp h
  have hne : found ≠ place := fun heq => hfound (heq ▸ hplace)
  rw [entry?_insert, if_neg hne]
  split
  · rename_i habove
    rw [ entry?, if_pos habove]
  · rfl

/-- A rename changes no other places than those that its paths lead to. -/
theorem entry?_of_rename {source target : String} {renamed : FileSystem}
    (h : fs.rename source target = .ok renamed) {found : Place} (hsource : fs.resolve source ≠ .ok found)
    (htarget : fs.resolve target ≠ .ok found) : renamed.entry? found = fs.entry? found := by
  obtain ⟨bytes, start, stop, -, hstart, hstop, -, rfl⟩ := rename_eq_ok_iff.mp h
  have hneStart : found ≠ start := fun heq => hsource (heq ▸ hstart)
  have hneStop : found ≠ stop := fun heq => htarget (heq ▸ hstop)
  rw [entry?_insert, if_neg hneStop, entry?_erase, if_neg hneStart]
  split
  · rename_i habove
    rw [ entry?, if_pos habove]
  · rfl

theorem SameDirectories.write (h : SameDirectories fs other) {path : String} {bytes : ByteArray}
    {written : FileSystem} (hwrite : fs.write path bytes = .ok written) :
    ∃ written', other.write path bytes = .ok written' := by
  obtain ⟨place, hresolve, hentry, -⟩ := write_eq_ok_iff.mp hwrite
  exact ⟨_, write_eq_ok_iff.mpr ⟨place, h.resolve hresolve, fun hdirectory =>
    hentry ((h place).mpr hdirectory), rfl⟩⟩

theorem SameDirectories.rename (h : SameDirectories fs other) {source target : String}
    {bytes : ByteArray} {renamed : FileSystem} (hrename : fs.rename source target = .ok renamed)
    (hread : other.read source = .ok bytes) : ∃ renamed', other.rename source target = .ok renamed' := by
  obtain ⟨_, start, stop, -, hstart, hstop, hentry, -⟩ := rename_eq_ok_iff.mp hrename
  exact ⟨_, rename_eq_ok_iff.mpr ⟨bytes, start, stop, hread, h.resolve hstart, h.resolve hstop,
    fun hdirectory => hentry ((h stop).mpr hdirectory), rfl⟩⟩

end DocIndex.FileSystem

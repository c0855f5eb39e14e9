import DocIndex.CommandLine.Arguments
import Mathlib.Data.List.Nodup

/-!
# What arguments can ask for

Arguments ask for an invocation exactly if none of its paths is empty (`exists_ofArguments_iff`). Every
option that is read has been checked, which the options read so far keep as an invariant
(`Progress.Named`); and each invocation has a spelling, with its options after the subcommand and their
values behind equals signs, that is read as that invocation (`ofArguments_spell`).
-/

namespace DocIndex.CommandLine

/-! ### Paths -/

/-- The paths that a command is given. -/
def Command.paths : Command → List String
  | check view => [view]
  | rows view documents => view :: documents.toList
  | add _ _ view store | put _ _ view store => view :: store.toList
  | remove _ _ store | list _ store => store.toList

/-- The paths that an invocation is given. -/
def Invocation.paths (invocation : Invocation) : List String :=
  invocation.settingsFile.toList ++ invocation.command.paths

/-- The paths among the options of one place are not empty. -/
def Given.Named (given : Given) : Prop :=
  ∀ option value, given.value? option = some value → option.isPath = true → value ≠ ""

/-- The paths among the options read so far are not empty. -/
structure Progress.Named (progress : Progress) : Prop where
  /-- Those before the subcommand. -/
  outer : progress.outer.Named
  /-- Those after it. -/
  inner : progress.inner.Named

theorem Given.named_none : Given.none.Named := by
  intro option value h
  cases h

theorem Given.Named.add? {given added : Given} (h : given.Named) {option : ValueOption} {value : String}
    (hadd : given.add? option value = some added) : added.Named := by
  unfold Given.add? at hadd
  split at hadd
  · cases hadd
  · rename_i hok
    obtain rfl := Option.some.inj hadd
    intro other found hfound hpath
    simp only [Given.value?, List.lookup_cons] at hfound
    split at hfound
    · rename_i heq
      obtain rfl := Option.some.inj hfound
      obtain rfl : other = option := by simpa using heq
      rintro rfl
      exact hok (by simp [hpath])
    · exact h other found hfound hpath

theorem Given.Named.addLegacy? {given added : Given} (h : given.Named)
    (hadd : given.addLegacy? = some added) : added.Named := by
  unfold Given.addLegacy? at hadd
  split at hadd
  · cases hadd
  · obtain rfl := Option.some.inj hadd
    exact h

namespace Progress

theorem named_start : start.Named := ⟨Given.named_none, Given.named_none⟩

theorem Named.update {progress updated : Progress} (h : progress.Named) {change : Given → Option Given}
    (hchange : ∀ {given added : Given}, given.Named → change given = some added → added.Named)
    (hupdate : progress.update change = some updated) : updated.Named := by
  unfold Progress.update at hupdate
  split at hupdate
  · obtain ⟨inner, hinner, rfl⟩ := Option.map_eq_some_iff.mp hupdate
    exact ⟨h.outer, hchange h.inner hinner⟩
  · obtain ⟨outer, houter, rfl⟩ := Option.map_eq_some_iff.mp hupdate
    exact ⟨hchange h.outer houter, h.inner⟩

theorem Named.add? {progress added : Progress} (h : progress.Named) {option : ValueOption} {value : String}
    (hadd : progress.add? option value = some added) : added.Named := by
  unfold Progress.add? at hadd
  split at hadd
  · exact h.update (fun hgiven hadded => hgiven.add? hadded) hadd
  · cases hadd

/-- A command is given no path but those of its options. -/
theorem ne_of_mem_paths {verb : Verb} {given : Given} (h : given.Named) {command : Command}
    (hcommand : commandOf? verb given = some command) : ∀ path ∈ command.paths, path ≠ "" := by
  have hoptional : ∀ option : ValueOption, option.isPath = true →
      ∀ path ∈ (given.value? option).toList, path ≠ "" := fun option hpath path hmem =>
    h option path (Option.mem_toList.mp hmem) hpath
  have hfound : ∀ (option : ValueOption) (value : String), option.isPath = true →
      given.value? option = some value → value ≠ "" := fun option value hpath hvalue =>
    h option value hvalue hpath
  cases verb <;>
    simp only [commandOf?, bind, pure, Option.bind_eq_some_iff, Option.some.injEq] at hcommand
  case check =>
    obtain ⟨view, hview, rfl⟩ := hcommand
    exact List.forall_mem_singleton.mpr (hfound .view view rfl hview)
  case rows =>
    obtain ⟨view, hview, rfl⟩ := hcommand
    exact List.forall_mem_cons.mpr ⟨hfound .view view rfl hview, hoptional .docs rfl⟩
  case add | put =>
    obtain ⟨group, -, name, -, view, hview, rfl⟩ := hcommand
    exact List.forall_mem_cons.mpr ⟨hfound .view view rfl hview, hoptional .store rfl⟩
  case remove =>
    obtain ⟨group, -, name, -, rfl⟩ := hcommand
    exact hoptional .store rfl
  case list =>
    obtain ⟨group, -, rfl⟩ := hcommand
    exact hoptional .store rfl

theorem Named.request {progress : Progress} (h : progress.Named) {invocation : Invocation}
    (hrequest : progress.request = .run invocation) : ∀ path ∈ invocation.paths, path ≠ "" := by
  unfold Progress.request at hrequest
  split at hrequest
  · cases hrequest
  · split at hrequest
    · cases hrequest
    · rename_i command hcommand
      obtain rfl := Request.run.inj hrequest
      rw [Invocation.paths, List.forall_mem_append]
      refine ⟨fun path hmem => ?_, ne_of_mem_paths h.inner hcommand⟩
      rcases Option.or_eq_some_iff.mp (Option.mem_toList.mp hmem) with hinner | ⟨-, houter⟩
      · exact h.inner .config path hinner rfl
      · exact h.outer .config path houter rfl

/-- Whatever is read, the invocation that comes out of it has no empty path. -/
theorem Named.read {progress : Progress} (h : progress.Named) {arguments : List String}
    {invocation : Invocation} (hread : progress.read arguments = .run invocation) :
    ∀ path ∈ invocation.paths, path ≠ "" := by
  -- the cases in which something is read or the arguments end; all others ask for no command
  fun_induction Progress.read progress arguments
  case case1 => exact h.request hread
  case case5 hupdate ih => exact ih (h.update (fun hgiven hadded => hgiven.addLegacy? hadded) hupdate) hread
  case case7 hadd ih => exact ih (h.add? hadd) hread
  case case10 hadd ih => exact ih (h.add? hadd) hread
  case case13 => exact h.request hread
  case case15 ih => exact ih ⟨h.outer, h.inner⟩ hread
  case case16 =>
    unfold helpRequest at hread
    split at hread
    · cases hread
    · split at hread <;> cases hread
    · cases hread
  all_goals cases hread

end Progress

/-! ### Spellings -/

/-- The name of an option. -/
def ValueOption.text : ValueOption → String
  | view => "view"
  | docs => "docs"
  | group => "group"
  | ValueOption.name => "name"
  | store => "store"
  | config => "config"

/-- An option and its value as one argument. -/
def ValueOption.spell (option : ValueOption) (value : String) : String :=
  "--" ++ option.text ++ "=" ++ value

/-- The name of a subcommand. -/
def Verb.text : Verb → String
  | check => "check"
  | rows => "rows"
  | add => "add"
  | put => "put"
  | remove => "remove"
  | list => "list"

/-- The subcommand of a command. -/
def Command.verb : Command → Verb
  | check _ => .check
  | rows _ _ => .rows
  | add _ _ _ _ => .add
  | put _ _ _ _ => .put
  | remove _ _ _ => .remove
  | list _ _ => .list

/-- An option that need not be given. -/
def optional (option : ValueOption) (value : Option String) : List (ValueOption × String) :=
  value.toList.map fun text => (option, text)

/-- The options of a command. -/
def Command.options : Command → List (ValueOption × String)
  | check view => [(.view, view)]
  | rows view documents => (.view, view) :: optional .docs documents
  | add group name view store | put group name view store =>
    (.group, group) :: (.name, name) :: (.view, view) :: optional .store store
  | remove group name store => (.group, group) :: (.name, name) :: optional .store store
  | list group store => (.group, group) :: optional .store store

/-- Arguments that ask for an invocation. -/
def Invocation.spell (invocation : Invocation) : List String :=
  invocation.command.verb.text ::
    ((if invocation.legacyMinute then ["--legacy-minute"] else []) ++
      (invocation.command.options ++ optional .config invocation.settingsFile).map fun given =>
        given.1.spell given.2)

theorem splitEquals_append {name : List Char} (h : '=' ∉ name) (value : List Char) :
    splitEquals (name ++ '=' :: value) = (name, some value) := by
  induction name with
  | nil => rfl
  | cons c name ih =>
    rw [List.mem_cons, not_or] at h
    rw [List.cons_append, splitEquals, if_neg (Ne.symm h.1), ih h.2]

theorem tokenOf_spell (option : ValueOption) (value : String) :
    tokenOf (option.spell value) = .optionWith option value := by
  have hchars : (option.spell value).toList = '-' :: '-' :: (option.text.toList ++ '=' :: value.toList) := by
    simp [ValueOption.spell, String.toList_append]
  have hname : '=' ∉ option.text.toList := by cases option <;> decide
  have hoption : ValueOption.ofName? option.text = some option := by cases option <;> decide
  have htoken : tokenOf (option.spell value) = longToken (option.text.toList ++ '=' :: value.toList) := by
    unfold tokenOf
    rw [hchars]
    cases option <;> rfl
  rw [htoken, longToken, splitEquals_append hname]
  simp only [String.ofList_toList, hoption]

theorem tokenOf_verb (verb : Verb) :
    tokenOf verb.text = .word verb.text ∧ Verb.ofName? verb.text = some verb := by
  cases verb <;> exact ⟨rfl, rfl⟩

section

variable {outer : Given} {verb : Verb} {values : List (ValueOption × String)} {legacyMinute : Bool}

/-- An option that is new where it stands, and whose path is not empty, is added. -/
theorem Progress.add?_eq_some {option : ValueOption} {value : String}
    (hgoes : option.goesWith (some verb) = true) (hpath : option.isPath = true → value ≠ "")
    (hnew : option ∉ values.map Prod.fst) :
    Progress.add? ⟨outer, some verb, ⟨values, legacyMinute⟩⟩ option value =
      some ⟨outer, some verb, ⟨(option, value) :: values, legacyMinute⟩⟩ := by
  have hnone : Given.value? ⟨values, legacyMinute⟩ option = none := by
    refine List.lookup_eq_none_iff.mpr fun bound hmem => bne_iff_ne.mpr ?_
    rintro rfl
    exact hnew (List.mem_map_of_mem hmem)
  have hadd : Given.add? ⟨values, legacyMinute⟩ option value =
      some ⟨(option, value) :: values, legacyMinute⟩ := by
    refine if_neg ?_
    simpa [hnone] using hpath
  rw [add?, if_pos hgoes, update, Option.isSome_some, if_pos rfl, hadd]
  rfl

/-- Options after the subcommand are read one by one. -/
theorem Progress.read_spell {given : List (ValueOption × String)}
    (hgoes : ∀ option ∈ given, option.1.goesWith (some verb) = true)
    (hpaths : ∀ option ∈ given, option.1.isPath = true → option.2 ≠ "")
    (hnew : ((given ++ values).map Prod.fst).Nodup) :
    Progress.read ⟨outer, some verb, ⟨values, legacyMinute⟩⟩ (given.map fun option => option.1.spell option.2) =
      Progress.request ⟨outer, some verb, ⟨given.reverse ++ values, legacyMinute⟩⟩ := by
  induction given generalizing values with
  | nil => rfl
  | cons first given ih =>
    obtain ⟨option, value⟩ := first
    rw [List.cons_append, List.map_cons, List.map_append, List.nodup_cons, List.mem_append, not_or] at hnew
    have hadd := @add?_eq_some outer verb values legacyMinute option value (hgoes _ List.mem_cons_self)
      (hpaths _ List.mem_cons_self) hnew.1.2
    rw [List.map_cons, read, tokenOf_spell]
    simp only [hadd]
    rw [ih (fun other hmem => hgoes other (List.mem_cons_of_mem _ hmem))
      (fun other hmem => hpaths other (List.mem_cons_of_mem _ hmem)), List.reverse_cons, List.append_assoc]
    · rfl
    · rw [List.map_append, List.map_cons, List.nodup_middle, List.nodup_cons, List.mem_append, not_or]
      exact hnew

end

/-- A command is given each of its options once, none of them the settings file. -/
theorem Command.options_own (command : Command) :
    (command.options.map Prod.fst).Nodup ∧
      ∀ option ∈ command.options, option.1 ≠ .config ∧ option.1.goesWith (some command.verb) = true ∧
        (option.1.isPath = true → option.2 ∈ command.paths) := by
  cases command with
  | check view => simp [options, verb, paths, ValueOption.goesWith, ValueOption.isPath]
  | rows view documents =>
    cases documents <;> simp [options, optional, verb, paths, ValueOption.goesWith, ValueOption.isPath]
  | add group name view store | put group name view store =>
    cases store <;> simp [options, optional, verb, paths, ValueOption.goesWith, ValueOption.isPath]
  | remove group name store =>
    cases store <;> simp [options, optional, verb, paths, ValueOption.goesWith, ValueOption.isPath]
  | list group store =>
    cases store <;> simp [options, optional, verb, paths, ValueOption.goesWith, ValueOption.isPath]

/-- No option is given twice, each goes with the subcommand, and its value is among the paths if it is a
path. -/
theorem Command.options_spec (command : Command) (settingsFile : Option String) :
    ((command.options ++ optional .config settingsFile).map Prod.fst).Nodup ∧
      ∀ option ∈ command.options ++ optional .config settingsFile,
        option.1.goesWith (some command.verb) = true ∧
          (option.1.isPath = true → option.2 ∈ settingsFile.toList ++ command.paths) := by
  obtain ⟨hnew, hown⟩ := command.options_own
  cases settingsFile with
  | none =>
    rw [optional, Option.toList_none, List.map_nil, List.append_nil]
    exact ⟨hnew, fun option hmem => (hown option hmem).2⟩
  | some file =>
    rw [optional, Option.toList_some, List.map_singleton]
    have hconfig : ValueOption.config ∉ command.options.map Prod.fst := fun hmem =>
      have ⟨option, hoption, heq⟩ := List.mem_map.mp hmem
      (hown option hoption).1 heq
    constructor
    · rw [List.map_append, List.map_singleton, ← List.concat_eq_append]
      exact hnew.concat hconfig
    · intro option hmem
      rcases List.mem_append.mp hmem with hmem | hmem
      · exact ⟨(hown option hmem).2.1, fun hpath => List.mem_cons_of_mem _ ((hown option hmem).2.2 hpath)⟩
      · obtain rfl := List.mem_singleton.mp hmem
        exact ⟨rfl, fun _ => List.mem_cons_self⟩

/-- The options of a command give the command back. -/
theorem commandOf?_options (command : Command) (settingsFile : Option String) (legacyMinute : Bool) :
    commandOf? command.verb ⟨(command.options ++ optional .config settingsFile).reverse, legacyMinute⟩ =
      some command := by
  cases settingsFile <;> cases command with
  | check view => rfl
  | rows view documents => cases documents <;> rfl
  | add group name view store | put group name view store => cases store <;> rfl
  | remove group name store => cases store <;> rfl
  | list group store => cases store <;> rfl

theorem value?_config_options (command : Command) (settingsFile : Option String) (legacyMinute : Bool) :
    Given.value? ⟨(command.options ++ optional .config settingsFile).reverse, legacyMinute⟩ .config =
      settingsFile := by
  cases settingsFile <;> cases command with
  | check view => rfl
  | rows view documents => cases documents <;> rfl
  | add group name view store | put group name view store => cases store <;> rfl
  | remove group name store => cases store <;> rfl
  | list group store => cases store <;> rfl

/-- Each invocation without an empty path is read from its spelling. -/
theorem ofArguments_spell {invocation : Invocation} (h : ∀ path ∈ invocation.paths, path ≠ "") :
    Request.ofArguments invocation.spell = .run invocation := by
  obtain ⟨command, settingsFile, legacyMinute⟩ := invocation
  obtain ⟨hnew, hoptions⟩ := command.options_spec settingsFile
  obtain ⟨hword, hverb⟩ := tokenOf_verb command.verb
  have hswitch : Progress.read ⟨.none, some command.verb, .none⟩
        ((if legacyMinute then ["--legacy-minute"] else []) ++
          (command.options ++ optional .config settingsFile).map fun option => option.1.spell option.2) =
      Progress.read ⟨.none, some command.verb, ⟨[], legacyMinute⟩⟩
        ((command.options ++ optional .config settingsFile).map fun option => option.1.spell option.2) := by
    cases legacyMinute <;> rfl
  rw [Request.ofArguments, Invocation.spell, Progress.read, hword]
  simp only [Progress.start, hverb]
  rw [hswitch, Progress.read_spell (fun option hmem => (hoptions option hmem).1)
    (fun option hmem hpath => h option.2 ((hoptions option hmem).2 hpath)) (by rwa [List.append_nil]),
    List.append_nil, Progress.request]
  simp only [commandOf?_options, value?_config_options]
  cases settingsFile <;> cases legacyMinute <;> rfl

/-- **Arguments can ask for exactly the invocations without an empty path.** -/
theorem exists_ofArguments_iff {invocation : Invocation} :
    (∃ arguments, Request.ofArguments arguments = .run invocation) ↔
      ∀ path ∈ invocation.paths, path ≠ "" :=
  ⟨fun ⟨_, hread⟩ => Progress.named_start.read hread, fun h => ⟨_, ofArguments_spell h⟩⟩

end DocIndex.CommandLine

import DocIndex.Proofs.Environment.File
import DocIndex.Proofs.Settings.Merge
import DocIndex.Settings.Load
import Mathlib.Data.List.Induction
import Mathlib.Data.List.Nodup

/-!
# Which source decides

Each setting of a run is the value of the variable for it, or else that of the settings file, or else the
default (`takes_of_load`), as long as no source gives something else on the way to it. Of a variable of the
environment and one of the file `.env` with the same name, that of the environment counts
(`variableValue?_addFile`). Where nothing is given, the settings are the default ones (`load_eq_default`),
and these are valid.
-/

namespace DocIndex.Settings

open SettingPath (ofText ofNames)
open SettingTree (Clear Apart)

/-! ### Variables -/

/-- The value that variables give for a path: that of the last one for it. -/
def variableValue? (vars : Environment.Variables) (path : String) : Option SettingValue :=
  (vars.reverse.find? fun binding => pathOfVariable? binding.1 = some path).map fun binding =>
    .ofVariable binding.2

theorem ofVariables_concat (vars : Environment.Variables) (binding : String × String) :
    ofVariables (vars ++ [binding]) =
      match pathOfVariable? binding.1 with
      | some path => Dict.insert path (.leaf (SettingValue.ofVariable binding.2)) (ofVariables vars)
      | none => ofVariables vars := by
  rw [ofVariables, List.foldl_append, ← ofVariables]
  cases hpath : pathOfVariable? binding.1 <;> simp only [List.foldl_cons, List.foldl_nil, hpath]

theorem sorted_ofVariables (vars : Environment.Variables) : Dict.Sorted (ofVariables vars) := by
  induction vars using List.reverseRecOn with
  | nil => exact Dict.sorted_nil
  | append_singleton vars binding ih =>
    rw [ofVariables_concat]
    split
    · exact ih.insert _ _
    · exact ih

theorem mem_ofVariables {vars : Environment.Variables} {member : String × SettingTree}
    (h : member ∈ ofVariables vars) :
    (∃ content, member.2 = .leaf content) ∧ ∃ binding ∈ vars, pathOfVariable? binding.1 = some member.1 := by
  induction vars using List.reverseRecOn with
  | nil => cases h
  | append_singleton vars binding ih =>
    have hold : ∀ {p : String × String → Prop}, (∃ b ∈ vars, p b) → ∃ b ∈ vars ++ [binding], p b :=
      fun ⟨b, hmem, hb⟩ => ⟨b, List.mem_append_left _ hmem, hb⟩
    rw [ofVariables_concat] at h
    split at h
    · rename_i path hpath
      rcases Dict.mem_insert h with rfl | h
      · exact ⟨⟨_, rfl⟩, binding, List.mem_append_right _ List.mem_cons_self, hpath⟩
      · exact (ih h).imp_right hold
    · exact (ih h).imp_right hold

theorem find?_ofVariables (vars : Environment.Variables) (path : String) :
    Dict.find? path (ofVariables vars) = (variableValue? vars path).map .leaf := by
  induction vars using List.reverseRecOn with
  | nil => rfl
  | append_singleton vars binding ih =>
    rw [ofVariables_concat, variableValue?, List.reverse_concat, List.find?_cons]
    by_cases hpath : pathOfVariable? binding.1 = some path
    · simp only [hpath, decide_true, Option.map_some]
      exact Dict.find?_insert_self _ _ _
    · simp only [hpath, decide_false]
      rw [← variableValue?, ← ih]
      split
      · rename_i other hother
        refine Dict.find?_insert_of_ne ?_ _ _
        rintro rfl
        exact hpath hother
      · rfl

/-- Where one name alone is for a path, the value is that of the variable with this name. -/
theorem variableValue?_eq {vars : Environment.Variables} (hnodup : (vars.map Prod.fst).Nodup)
    {name path : String} (hname : pathOfVariable? name = some path)
    (honly : ∀ binding ∈ vars, pathOfVariable? binding.1 = some path → binding.1 = name) :
    variableValue? vars path = (Dict.find? name vars).map .ofVariable := by
  cases hlast : vars.reverse.find? fun binding => pathOfVariable? binding.1 = some path with
  | none =>
    have hunset : Dict.find? name vars = none := by
      refine Dict.find?_eq_none fun binding hmem hbinding => ?_
      have hnot := List.find?_eq_none.mp hlast binding (List.mem_reverse.mpr hmem)
      exact hnot (decide_eq_true (hbinding ▸ hname))
    rw [variableValue?, hlast, hunset]
    rfl
  | some last =>
    have hmem := List.mem_reverse.mp (List.mem_of_find?_eq_some hlast)
    have hpath : pathOfVariable? last.1 = some path := by simpa using List.find?_some hlast
    obtain rfl := honly last hmem hpath
    obtain ⟨value, hvalue⟩ := Option.isSome_iff_exists.mp
      (Dict.mem_keys_iff.mp (List.mem_map_of_mem hmem) : Dict.contains last.1 vars = true)
    have hsame : (last.1, value) = last :=
      List.inj_on_of_nodup_map hnodup (Dict.mem_of_find? hvalue) hmem rfl
    rw [variableValue?, hlast, hvalue, ← hsame]
    rfl

/-- **A variable of the environment goes before one of the file `.env`** with the same name. -/
theorem variableValue?_addFile {vars after : Environment.Variables} {bytes : List UInt8}
    (h : Environment.addFile vars bytes = some after) (hnodup : (vars.map Prod.fst).Nodup)
    {name path : String} (hname : pathOfVariable? name = some path)
    (honly : ∀ binding ∈ after, pathOfVariable? binding.1 = some path → binding.1 = name)
    (hset : Dict.contains name vars = true) :
    variableValue? after path = (Dict.find? name vars).map .ofVariable := by
  have hfind := Environment.find?_addFile h hset
  obtain ⟨added, rfl, hadds⟩ := Environment.addFile_spec h
  have hafter : ((vars ++ added).map Prod.fst).Nodup := by
    rw [List.map_append, List.nodup_append]
    refine ⟨hnodup, hadds.nodup, fun key hkey other hother heq => ?_⟩
    obtain ⟨binding, hmem, rfl⟩ := List.mem_map.mp hother
    rw [heq, ← Dict.keys, Dict.mem_keys_iff, hadds.fresh binding hmem] at hkey
    cases hkey
  rw [variableValue?_eq hafter hname honly, hfind]

/-! ### Sources -/

/-- The tree of the given settings at names: the variable that spells them decides before the settings file
and that before the default. -/
theorem value?_treeOf? {file environment : List (String × SettingTree)} {given tree : SettingTree} {text : String}
    {names : List String} (htext : ofText text = ofNames names)
    (hgiven : (SettingTree.table []).overlay? file = some given) (hclear : Clear names given)
    (hsorted : Dict.Sorted environment) (hleaves : ∀ member ∈ environment, ∃ content, member.2 = .leaf content)
    (hapart : ∀ member ∈ environment, member.1 ≠ text → Apart (ofText member.1) (ofNames names))
    (h : treeOf? file environment = some tree) :
    tree.value? (ofNames names) =
      (((Dict.find? text environment).bind (SettingTree.value? [])).or (given.value? (ofNames names))).or
        (defaultTree.value? (ofNames names)) := by
  obtain ⟨first, hfirst, h⟩ := Option.bind_eq_some_iff.mp h
  obtain rfl := Option.some.inj (hgiven.symm.trans hfirst)
  obtain ⟨all, hall, h⟩ := Option.bind_eq_some_iff.mp h
  have hmerged := (SettingTree.merged_empty.overlay? hgiven).overlay? hall
  have hway : Clear names all := SettingTree.clear_overlay? (fun member hmem => by
    by_cases hmember : member.1 = text
    · exact .inl ⟨hmember ▸ htext, hleaves member hmem⟩
    · exact .inr (hapart member hmem hmember)) hclear hall
  have hdecides := SettingTree.value?_overlay? hsorted (htext.symm ▸ hapart) hleaves hall
  rw [htext] at hdecides
  cases names with
  | nil =>
    obtain ⟨name, rest, hpath, -⟩ := SettingPath.exists_ofText_eq text
    cases hpath.symm.trans htext
  | cons name names => rw [SettingTree.value?_overlay?_merged hmerged hway h, hdecides]

/-! ### Settings -/

/-- A setting. -/
inductive Field where
  /-- The level of the log. -/
  | level
  /-- Whether the log is written as JSON. -/
  | json
  /-- The store file. -/
  | storePath
  /-- Whether the transform `minute` gives the hour. -/
  | legacyMinute

namespace Field

/-- The names on the way to a setting. -/
def names : Field → List String
  | level => ["logging", "level"]
  | json => ["logging", "json"]
  | storePath => ["store", "path"]
  | legacyMinute => ["compile", "legacy_minute"]

/-- The path of a setting. -/
def path (field : Field) : String := ".".intercalate field.names

/-- The value of a setting that holds unless another is given. -/
def default : Field → SettingValue
  | level => .string Settings.default.level
  | json => .bool Settings.default.json
  | storePath => .string Settings.default.storePath
  | legacyMinute => .bool Settings.default.legacyMinute

/-- Settings take a setting from a value. -/
def Takes (settings : Settings) (value : SettingValue) : Field → Prop
  | level => settings.level = value.asText
  | json => value.asBool? = some settings.json
  | storePath => settings.storePath = value.asText
  | legacyMinute => value.asBool? = some settings.legacyMinute

theorem ofText_path (field : Field) : ofText field.path = ofNames field.names := by
  cases field <;> decide +kernel

theorem value?_defaultTree (field : Field) :
    defaultTree.value? (ofNames field.names) = some field.default := by
  cases field <;> rfl

end Field

/-- A value at two names is the part of a group, wherever lists would have it. -/
theorem part?_of_value? {tree : SettingTree} {group name : String} {value : SettingValue}
    (h : tree.value? (ofNames [group, name]) = some value) :
    ∃ inner, tree.member? (Text.lowercase group) = some inner ∧
      ∀ place, part? (Text.lowercase name) place inner = some (.leaf value) := by
  obtain ⟨inner, hinner, h⟩ := Option.bind_eq_some_iff.mp h
  obtain ⟨found, hfound, h⟩ := Option.bind_eq_some_iff.mp h
  refine ⟨inner, hinner, fun place => ?_⟩
  cases found with
  | leaf content =>
    obtain rfl := Option.some.inj h
    cases inner with
    | table members => exact hfound
    | _ => cases hfound
  | _ => cases h

theorem takes_of_ofTree? {tree : SettingTree} {settings : Settings} (h : ofTree? tree = some settings)
    {field : Field} {value : SettingValue} (hvalue : tree.value? (ofNames field.names) = some value) :
    field.Takes settings value := by
  simp only [ofTree?, Option.bind_eq_bind, Option.bind_eq_some_iff] at h
  obtain ⟨logging, hlogging, store, hstore, compile, hcompile, level, ⟨levelTree, hlevelTree, hlevel⟩,
    json, ⟨jsonTree, hjsonTree, hjson⟩, path, ⟨pathTree, hpathTree, hpath⟩, minute, hminute, h⟩ := h
  obtain rfl := Option.some.inj h
  cases field with
  | level =>
    obtain ⟨inner, hinner, hpart⟩ := part?_of_value? hvalue
    obtain rfl := Option.some.inj (hinner.symm.trans hlogging)
    obtain rfl := Option.some.inj ((hpart 0).symm.trans hlevelTree)
    exact (Option.some.inj hlevel).symm
  | json =>
    obtain ⟨inner, hinner, hpart⟩ := part?_of_value? hvalue
    obtain rfl := Option.some.inj (hinner.symm.trans hlogging)
    obtain rfl := Option.some.inj ((hpart 1).symm.trans hjsonTree)
    exact hjson
  | storePath =>
    obtain ⟨inner, hinner, hpart⟩ := part?_of_value? hvalue
    obtain rfl := Option.some.inj (hinner.symm.trans hstore)
    obtain rfl := Option.some.inj ((hpart 0).symm.trans hpathTree)
    exact (Option.some.inj hpath).symm
  | legacyMinute =>
    obtain ⟨inner, hinner, hpart⟩ := part?_of_value? hvalue
    obtain rfl := Option.some.inj (hinner.symm.trans hcompile)
    unfold legacyMinuteOf? at hminute
    rwa [show part? "legacy_minute" 0 inner = some (.leaf value) from hpart 0] at hminute

theorem exists_of_orFail_bind {α β : Type} {error : LoadError} {content : Option α} {f : α → Except LoadError β}
    {result : β} (h : (orFail error content >>= f) = .ok result) :
    ∃ inner, content = some inner ∧ f inner = .ok result := by
  cases content with
  | none => cases h
  | some inner => exact ⟨inner, rfl, h⟩

/-- **A variable decides before the settings file, and this before the default.** -/
theorem takes_of_load {fs : FileSystem} {vars : Environment.Variables} {named : Option String}
    {settings : Settings} (h : load fs vars named = .ok settings) :
    ∃ after members, variablesOf? fs vars = some after ∧ fileMembers? fs named = some members ∧
      ∀ (field : Field) (given : SettingTree), (SettingTree.table []).overlay? members = some given →
        Clear field.names given →
        (∀ binding ∈ after, ∀ path, pathOfVariable? binding.1 = some path → path ≠ field.path →
          Apart (ofText path) (ofNames field.names)) →
        field.Takes settings
          (((variableValue? after field.path).or (given.value? (ofNames field.names))).getD field.default) := by
  obtain ⟨after, hafter, h⟩ := exists_of_orFail_bind h
  obtain ⟨members, hmembers, h⟩ := exists_of_orFail_bind h
  obtain ⟨tree, htree, h⟩ := exists_of_orFail_bind h
  refine ⟨after, members, hafter, hmembers, fun field given hgiven hclear hothers => ?_⟩
  have hvalue := value?_treeOf? field.ofText_path hgiven hclear (sorted_ofVariables after)
    (fun member hmem => (mem_ofVariables hmem).1) (fun member hmem hne => by
      obtain ⟨binding, hbinding, hpath⟩ := (mem_ofVariables hmem).2
      exact hothers binding hbinding _ hpath hne) htree
  have hvariable : ((variableValue? after field.path).map SettingTree.leaf).bind (SettingTree.value? []) =
      variableValue? after field.path := by
    cases variableValue? after field.path <;> rfl
  rw [find?_ofVariables, hvariable, field.value?_defaultTree, Option.or_some] at hvalue
  cases htaken : ofTree? tree with
  | none => rw [htaken] at h; cases h
  | some taken =>
    rw [htaken] at h
    obtain rfl := Except.ok.inj h
    exact takes_of_ofTree? htaken hvalue

example : (treeOf? [("logging", .table [("level", .leaf (.string "warn")), ("json", .leaf (.bool true))])]
    (ofVariables [("JSONVIEWS__LOGGING__LEVEL", "debug")])).bind ofTree? =
      some { default with level := "debug", json := true } := by decide +kernel

/-! ### Runs without variables -/

/-- Where no variable gives a setting, the settings file alone decides. -/
theorem load_of_no_variables {fs : FileSystem} {vars : Environment.Variables} {named : Option String}
    {members : List (String × SettingTree)} (henvironment : environmentFile? fs = none)
    (hvars : ∀ binding ∈ vars, pathOfVariable? binding.1 = none) (hmembers : fileMembers? fs named = some members)
    {tree : SettingTree} (htree : treeOf? members [] = some tree) :
    load fs vars named = orFail .unreadable (ofTree? tree) := by
  have hnone : ofVariables vars = [] := List.eq_nil_iff_forall_not_mem.mpr fun member hmem => by
    obtain ⟨binding, hbinding, hpath⟩ := (mem_ofVariables hmem).2
    rw [hvars binding hbinding] at hpath
    cases hpath
  rw [load, variablesOf?, henvironment, hmembers]
  show (orFail _ (treeOf? members (ofVariables vars)) >>= fun tree => orFail _ (ofTree? tree)) = _
  rw [hnone, htree]
  rfl

theorem ofTree?_defaultTree : ofTree? defaultTree = some default := by decide +kernel

theorem fault?_default : default.fault? = none := by decide

/-- **Where nothing is given, the default settings hold.** -/
theorem load_eq_default {fs : FileSystem} {vars : Environment.Variables}
    (hfile : textAt? fs "jsonviews" = none) (henvironment : environmentFile? fs = none)
    (hvars : ∀ binding ∈ vars, pathOfVariable? binding.1 = none) : load fs vars none = .ok default := by
  have hmembers : fileMembers? fs none = some [] := by
    unfold fileMembers?
    rw [Option.getD_none, hfile]
    rfl
  have htree : treeOf? [] [] = some defaultTree := rfl
  rw [load_of_no_variables henvironment hvars hmembers htree, ofTree?_defaultTree]
  rfl

end DocIndex.Settings

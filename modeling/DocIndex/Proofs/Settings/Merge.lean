import DocIndex.Proofs.Settings.Path
import DocIndex.Proofs.Settings.Value

/-!
# Trees of settings laid over one another

A tree into which settings have been put is `Merged`: the names in its tables ascend, they are in small
letters, and each is read as itself. When such a tree is laid over another, its value at names counts, and
the value of the other tree if it says nothing there (`value?_overlay?_merged`). It has to leave the way
to these names free (`Clear`): a value or a list on the way takes all that the other tree has behind it.
-/

namespace DocIndex

/-- The path along names. -/
def SettingPath.ofNames (names : List String) : SettingPath := names.map .member

namespace SettingTree

open SettingPath (ofText ofNames)

/-! ### Merged trees -/

/-- The names in the tables of a tree ascend and are in small letters. What a list holds is not looked at. -/
inductive Normal : SettingTree → Prop
  | blank : Normal blank
  | leaf (content : SettingValue) : Normal (leaf content)
  | list (items : List SettingTree) : Normal (list items)
  | table {members : List (String × SettingTree)} (sorted : Dict.Sorted members)
      (small : ∀ member ∈ members, Text.lowercase member.1 = member.1)
      (parts : ∀ member ∈ members, Normal member.2) : Normal (table members)

namespace Normal

variable {tree inner incoming new : SettingTree}

theorem empty : Normal (SettingTree.table []) :=
  table Dict.sorted_nil (fun _ hmem => absurd hmem List.not_mem_nil) fun _ hmem => absurd hmem List.not_mem_nil

theorem insert (htree : Normal tree) (name : String) (hinner : Normal inner) :
    Normal (.table (Dict.insert (Text.lowercase name) inner tree.members)) := by
  have hmembers : Normal (.table tree.members) := by
    cases htree with
    | table hsorted hsmall hparts => exact table hsorted hsmall hparts
    | _ => exact empty
  cases hmembers with
  | table hsorted hsmall hparts =>
    refine table (hsorted.insert _ _) (fun member hmem => ?_) fun member hmem => ?_
    · rcases Dict.mem_insert hmem with rfl | hold
      · exact Text.lowercase_lowercase name
      · exact hsmall member hold
    · rcases Dict.mem_insert hmem with rfl | hold
      · exact hinner
      · exact hparts member hold

theorem of_member? {name : String} (htree : Normal tree) (h : tree.member? name = some inner) : Normal inner := by
  have hmem := Dict.mem_of_find? h
  cases htree with
  | table hsorted hsmall hparts => exact hparts _ hmem
  | _ => cases hmem

theorem getD_member? (htree : Normal tree) (name : String) {other : SettingTree} (hother : Normal other) :
    Normal ((tree.member? name).getD other) := by
  cases h : tree.member? name with
  | none => exact hother
  | some inner => exact htree.of_member? h

mutual

theorem put {base : SettingTree} (hbase : Normal base) (name : String) (incoming : SettingTree) :
    Normal (base.put name incoming) := by
  cases incoming with
  | blank => exact hbase.insert name .blank
  | leaf content => exact hbase.insert name (.leaf content)
  | list items => exact hbase.insert name (.list items)
  | table members => exact hbase.insert name (putAll (hbase.getD_member? _ empty) members)
termination_by structural incoming

theorem putAll {base : SettingTree} (hbase : Normal base) (incoming : List (String × SettingTree)) :
    Normal (base.putAll incoming) := by
  cases incoming with
  | nil => exact hbase
  | cons member rest => exact putAll (put hbase member.1 member.2) rest
termination_by structural incoming

end

theorem putAt? {path : SettingPath} (hne : path ≠ []) (htree : Normal tree)
    (h : SettingTree.putAt? incoming path tree = some new) : Normal new := by
  induction path generalizing tree new with
  | nil => exact absurd rfl hne
  | cons step path ih =>
    cases step with
    | member name =>
      cases path with
      | nil =>
        obtain rfl := Option.some.inj h
        exact htree.put name incoming
      | cons next path =>
        obtain ⟨inner, hinner, rfl⟩ := Option.map_eq_some_iff.mp h
        exact htree.insert name (ih (List.cons_ne_nil _ _) (htree.getD_member? _ .blank) hinner)
    | element index =>
      obtain ⟨place, -, hput⟩ := Option.bind_eq_some_iff.mp h
      obtain ⟨inner, -, rfl⟩ := Option.map_eq_some_iff.mp hput
      exact list _

end Normal

/-- A tree that laying settings over one another makes. -/
structure Merged (tree : SettingTree) : Prop where
  /-- The names in its tables ascend and are in small letters. -/
  normal : Normal tree
  /-- A name at its top is the path to the member with this name. -/
  plain : ∀ member ∈ tree.members, ofText member.1 = [.member member.1]

/-- Putting a tree at a path that starts with a name binds that name. -/
theorem exists_members_putAt? {incoming tree new : SettingTree} {name : String} {path : SettingPath}
    (h : putAt? incoming (.member name :: path) tree = some new) :
    ∃ inner, new = table (Dict.insert (Text.lowercase name) inner tree.members) := by
  cases path with
  | nil =>
    obtain rfl := Option.some.inj h
    cases incoming <;> exact ⟨_, rfl⟩
  | cons next path =>
    obtain ⟨inner, -, rfl⟩ := Option.map_eq_some_iff.mp h
    exact ⟨inner, rfl⟩

theorem merged_empty : Merged (table []) := ⟨Normal.empty, fun _ hmem => absurd hmem List.not_mem_nil⟩

theorem Merged.putAt? {tree incoming new : SettingTree} (htree : Merged tree) {text : String}
    (h : SettingTree.putAt? incoming (ofText text) tree = some new) : Merged new := by
  obtain ⟨name, rest, hpath, hname⟩ := SettingPath.exists_ofText_eq text
  rw [hpath] at h
  refine ⟨htree.normal.putAt? (List.cons_ne_nil _ _) h, ?_⟩
  obtain ⟨inner, rfl⟩ := exists_members_putAt? h
  intro member hmem
  rcases Dict.mem_insert hmem with rfl | hold
  · rw [SettingPath.ofText_lowercase, hname]
    rfl
  · exact htree.plain member hold

theorem Merged.overlay? {members : List (String × SettingTree)} {tree new : SettingTree} (htree : Merged tree)
    (h : tree.overlay? members = some new) : Merged new := by
  induction members generalizing tree with
  | nil =>
    obtain rfl := Option.some.inj h
    exact htree
  | cons member members ih =>
    rw [SettingTree.overlay?, List.foldlM_cons] at h
    obtain ⟨next, hnext, hrest⟩ := Option.bind_eq_some_iff.mp h
    exact ih (htree.putAt? hnext) hrest

/-! ### Clear ways -/

/-- A tree has a value at names, or a table on the way there that does not have the next name. -/
def Clear : List String → SettingTree → Prop
  | [], leaf _ => True
  | name :: names, table members =>
    ∀ inner, Dict.find? (Text.lowercase name) members = some inner → Clear names inner
  | _, _ => False

/-- A value that is put at names has a clear way there. -/
theorem clear_putAt?_self {content : SettingValue} {names : List String} {tree new : SettingTree}
    (h : putAt? (leaf content) (ofNames names) tree = some new) : Clear names new := by
  induction names generalizing tree new with
  | nil =>
    obtain rfl := Option.some.inj h
    trivial
  | cons name names ih =>
    cases names with
    | nil =>
      obtain rfl := Option.some.inj h
      intro inner hinner
      obtain rfl := Option.some.inj ((member?_put_leaf tree name content).symm.trans hinner)
      trivial
    | cons next names =>
      obtain ⟨inner, hinner, rfl⟩ := Option.map_eq_some_iff.mp h
      intro found hfound
      obtain rfl := Option.some.inj ((Dict.find?_insert_self _ _ _).symm.trans hfound)
      exact ih hinner

/-- The way to names stays clear when something is put at a path that parts from it. -/
theorem clear_putAt?_of_apart {incoming : SettingTree} {path : SettingPath} {names : List String}
    {tree new : SettingTree} (hapart : Apart path (ofNames names)) (hclear : tree = blank ∨ Clear names tree)
    (h : putAt? incoming path tree = some new) : Clear names new := by
  induction names generalizing path tree new with
  | nil =>
    cases path with
    | nil => cases hapart
    | cons step path => cases step <;> cases hapart
  | cons name names ih =>
    cases path with
    | nil => cases hapart
    | cons step path =>
      cases step with
      | element index => cases hapart
      | member other =>
        have hold : ∀ inner, tree.member? (Text.lowercase name) = some inner → Clear names inner := by
          intro inner hinner
          rcases hclear with rfl | hclear
          · cases hinner
          · cases tree with
            | table members => exact hclear inner hinner
            | _ => cases hinner
        by_cases hname : Text.lowercase name = Text.lowercase other
        · have hrest := hapart.resolve_left (not_not_intro hname.symm)
          cases path with
          | nil => cases hrest
          | cons next path =>
            obtain ⟨inner, hinner, rfl⟩ := Option.map_eq_some_iff.mp h
            intro found hfound
            rw [hname, Dict.find?_insert_self] at hfound
            obtain rfl := Option.some.inj hfound
            refine ih hrest ?_ hinner
            rw [← hname]
            cases hmember : tree.member? (Text.lowercase name) with
            | none => exact .inl rfl
            | some inner => exact .inr (hold inner hmember)
        · obtain ⟨inner, rfl⟩ := exists_members_putAt? h
          intro found hfound
          rw [Dict.find?_insert_of_ne hname] at hfound
          exact hold found hfound

theorem clear_overlay? {members : List (String × SettingTree)} {names : List String}
    (hmembers : ∀ member ∈ members, (ofText member.1 = ofNames names ∧ ∃ content, member.2 = leaf content) ∨
      Apart (ofText member.1) (ofNames names))
    {tree new : SettingTree} (hclear : Clear names tree) (h : tree.overlay? members = some new) :
    Clear names new := by
  induction members generalizing tree with
  | nil =>
    obtain rfl := Option.some.inj h
    exact hclear
  | cons member members ih =>
    rw [overlay?, List.foldlM_cons] at h
    obtain ⟨next, hnext, hrest⟩ := Option.bind_eq_some_iff.mp h
    refine ih (fun other hmem => hmembers other (List.mem_cons_of_mem _ hmem)) ?_ hrest
    rcases hmembers member List.mem_cons_self with ⟨hpath, content, hcontent⟩ | hapart
    · rw [hpath, hcontent] at hnext
      exact clear_putAt?_self hnext
    · exact clear_putAt?_of_apart hapart (.inr hclear) hnext

/-! ### Merging -/

/-- What stands at a name after a tree has been put there. -/
def merge (old : Option SettingTree) : SettingTree → SettingTree
  | table incoming => (old.getD (table [])).putAll incoming
  | incoming => incoming

theorem member?_put_self (tree : SettingTree) (name : String) (incoming : SettingTree) :
    (tree.put name incoming).member? (Text.lowercase name) =
      some (merge (tree.member? (Text.lowercase name)) incoming) := by
  cases incoming <;> exact Dict.find?_insert_self _ _ _

/-- A table is merged member by member. -/
theorem member?_putAll {members : List (String × SettingTree)} (hsorted : Dict.Sorted members)
    (hsmall : ∀ member ∈ members, Text.lowercase member.1 = member.1) (tree : SettingTree) (key : String) :
    (tree.putAll members).member? key =
      ((Dict.find? key members).map (merge (tree.member? key))).or (tree.member? key) := by
  induction members generalizing tree with
  | nil => rw [putAll_nil]; rfl
  | cons member members ih =>
    obtain ⟨name, incoming⟩ := member
    obtain ⟨hfirst, hrest⟩ := List.pairwise_cons.mp hsorted
    have hname : Text.lowercase name = name := hsmall (name, incoming) List.mem_cons_self
    rw [putAll, ih hrest fun other hmem => hsmall other (List.mem_cons_of_mem _ hmem), Dict.find?]
    by_cases hkey : name = key
    · subst hkey
      have hnone : Dict.find? name members = none :=
        Dict.find?_eq_none fun other hmem => (Dict.key_ne_of_precedes (hfirst other hmem)).symm
      have hself := member?_put_self tree name incoming
      rw [hname] at hself
      rw [hnone, if_pos rfl, hself]
      rfl
    · rw [if_neg hkey, member?_put_of_ne (hname.symm ▸ Ne.symm hkey)]

theorem value?_getD_table (tree : Option SettingTree) (step : SettingStep) (path : SettingPath) :
    (tree.getD (table [])).value? (step :: path) = tree.bind (value? (step :: path)) := by
  cases tree with
  | none => exact value?_blank (step :: path)
  | some tree => rfl

/-- **A value at names counts before that of the tree below.** -/
theorem value?_putAll {members : List (String × SettingTree)} {names : List String}
    (hnormal : Normal (table members)) (hclear : Clear names (table members)) (tree : SettingTree) :
    (tree.putAll members).value? (ofNames names) =
      ((table members).value? (ofNames names)).or (tree.value? (ofNames names)) := by
  induction names generalizing members tree with
  | nil => cases hclear
  | cons name names ih =>
    cases hnormal with
    | table hsorted hsmall hparts =>
      show ((tree.putAll members).member? _).bind _ = Option.or ((Dict.find? _ members).bind _) ((tree.member? _).bind _)
      rw [member?_putAll hsorted hsmall]
      cases hfind : Dict.find? (Text.lowercase name) members with
      | none => rfl
      | some inner =>
        have hinner := hclear inner hfind
        show (merge _ inner).value? (ofNames names) = (inner.value? (ofNames names)).or _
        cases inner with
        | blank => cases names <;> cases hinner
        | list items => cases names <;> cases hinner
        | leaf content =>
          cases names with
          | nil => rfl
          | cons next names => cases hinner
        | table inner =>
          cases names with
          | nil => cases hinner
          | cons next names =>
            rw [merge, ih (hparts _ (Dict.mem_of_find? hfind)) hinner]
            exact congrArg _ (value?_getD_table _ _ _)

theorem overlay?_eq_putAll {members : List (String × SettingTree)}
    (hplain : ∀ member ∈ members, ofText member.1 = [.member member.1]) (tree : SettingTree) :
    tree.overlay? members = some (tree.putAll members) := by
  induction members generalizing tree with
  | nil => rfl
  | cons member members ih =>
    rw [overlay?, List.foldlM_cons, hplain member List.mem_cons_self]
    exact ih (fun other hmem => hplain other (List.mem_cons_of_mem _ hmem)) _

/-- A merged tree can be laid over any other, and its values at names count. -/
theorem value?_overlay?_merged {given tree new : SettingTree} {name : String} {names : List String}
    (hgiven : Merged given) (hclear : Clear (name :: names) given) (h : tree.overlay? given.members = some new) :
    new.value? (ofNames (name :: names)) =
      (given.value? (ofNames (name :: names))).or (tree.value? (ofNames (name :: names))) := by
  obtain rfl := Option.some.inj ((overlay?_eq_putAll hgiven.plain tree).symm.trans h)
  cases given with
  | table members => exact value?_putAll hgiven.normal hclear tree
  | _ => cases hclear

end SettingTree

end DocIndex

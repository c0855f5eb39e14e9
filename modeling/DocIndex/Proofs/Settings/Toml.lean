import DocIndex.Settings.Toml.Document

/-!
# What a settings file has bound stays

Each statement of a settings file only adds to what those before it have built. A value is bound under the
header above it and its key (`exists_at?_add`), and it is still there at the end of the text
(`exists_at?_foldlM`), whatever statements follow; a second value for the key is refused
(`add_binding_twice`).
-/

namespace DocIndex.Toml

/-! ### Paths through a document -/

/-- A step from a node to one in it. -/
inductive Step where
  /-- To the member with a name. -/
  | member (name : String)
  /-- To one table of a row. -/
  | row (index : Nat)

/-- The names on a path. -/
def names (path : List Step) : Key :=
  path.filterMap fun step =>
    match step with
    | .member name => some name
    | .row _ => none

namespace Node

/-- The node that a step leads to. -/
def part? : Step → Node → Option Node
  | .member name, .table _ members => Dict.find? name members
  | .row index, .tables earlier last =>
    (earlier.reverse ++ [last])[index]?.map (.table .written)
  | _, _ => none

/-- The node that a path leads to. -/
def at? : List Step → Node → Option Node
  | [], node => some node
  | step :: steps, node => (node.part? step).bind (at? steps)

theorem at?_append (path others : List Step) (node : Node) :
    node.at? (path ++ others) = (node.at? path).bind (at? others) := by
  induction path generalizing node with
  | nil => rfl
  | cons step path ih =>
    rw [List.cons_append, at?, at?, Option.bind_assoc]
    exact Option.bind_congr fun part _ => ih part

/-- What stands at a name that has just been bound is found behind that name. -/
theorem at?_member_set (opening : Opening) (name : String) (node : Node) (members : Table) (path : List Step) :
    (table opening (Table.set name node members)).at? (.member name :: path) = node.at? path := by
  rw [at?, part?, Table.find?_set_self]
  rfl

/-- The last table of a row is at the place that the number of the others gives. -/
theorem part?_row_last (earlier : List Table) (last : Table) :
    (tables earlier last).part? (.row earlier.length) = some (table .written last) := by
  rw [part?, List.getElem?_append_right (Nat.le_of_eq (List.length_reverse)), List.length_reverse, Nat.sub_self]
  rfl

/-- Whether a node is a value, which nothing is added to. -/
def isValue : Node → Bool
  | leaf _ | date _ | array _ | table .closed _ => true
  | table _ _ | tables _ _ => false

/-- Another node has all the values of a node, in the same places. -/
def Keeps (node other : Node) : Prop :=
  ∀ path value, node.at? path = some value → value.isValue = true → other.at? path = some value

theorem Keeps.refl (node : Node) : Keeps node node := fun _ _ h _ => h

theorem Keeps.trans {node other third : Node} (h : Keeps node other) (hthird : Keeps other third) :
    Keeps node third :=
  fun path value hvalue hisValue => hthird path value (h path value hvalue hisValue) hisValue

/-- A node that is no value itself is kept where its parts are. -/
theorem keeps_of_parts {node other : Node} (hvalue : node.isValue = false)
    (h : ∀ step part, node.part? step = some part → ∃ new, other.part? step = some new ∧ Keeps part new) :
    Keeps node other := by
  intro path value hpath hisValue
  cases path with
  | nil =>
    obtain rfl := Option.some.inj hpath
    rw [hvalue] at hisValue
    cases hisValue
  | cons step path =>
    obtain ⟨part, hpart, hrest⟩ := Option.bind_eq_some_iff.mp hpath
    obtain ⟨new, hnew, hkeeps⟩ := h step part hpart
    exact Option.bind_eq_some_iff.mpr ⟨new, hnew, hkeeps path value hrest hisValue⟩

variable {opening opened : Opening} {members others : Table}

theorem keeps_table (hopening : opening ≠ .closed)
    (h : ∀ name node, Dict.find? name members = some node →
      ∃ new, Dict.find? name others = some new ∧ Keeps node new) :
    Keeps (table opening members) (table opened others) := by
  refine keeps_of_parts (by cases opening <;> first | rfl | exact absurd rfl hopening) fun step part hpart => ?_
  cases step with
  | member name => exact h name part hpart
  | row index => cases hpart

/-- A table in which a name is bound keeps its values if the binding keeps those of the one before. -/
theorem keeps_set (hopening : opening ≠ .closed) {name : String} {node : Node}
    (h : ∀ old, Dict.find? name members = some old → Keeps old node) :
    Keeps (table opening members) (table opened (Table.set name node members)) := by
  refine keeps_table hopening fun other found hfound => ?_
  by_cases hsame : other = name
  · subst hsame
    exact ⟨node, Table.find?_set_self other node members, h found hfound⟩
  · exact ⟨found, (Table.find?_set_of_ne hsame node members).trans hfound, .refl found⟩

theorem keeps_last {earlier : List Table} {last changed : Table}
    (h : Keeps (table .written last) (table .written changed)) :
    Keeps (tables earlier last) (tables earlier changed) := by
  refine keeps_of_parts rfl fun step part hpart => ?_
  cases step with
  | member name => cases hpart
  | row index =>
    simp only [part?, Option.map_eq_some_iff] at hpart ⊢
    obtain ⟨found, hfound, rfl⟩ := hpart
    by_cases hearlier : index < earlier.reverse.length
    · rw [List.getElem?_append_left hearlier] at hfound ⊢
      exact ⟨_, ⟨found, hfound, rfl⟩, .refl _⟩
    · rw [List.getElem?_append_right (Nat.le_of_not_lt hearlier)] at hfound ⊢
      rw [List.getElem?_singleton] at hfound ⊢
      split at hfound
      · obtain rfl := Option.some.inj hfound
        exact ⟨_, ⟨changed, if_pos ‹_›, rfl⟩, h⟩
      · cases hfound

theorem keeps_next (earlier : List Table) (last : Table) :
    Keeps (tables earlier last) (tables (last :: earlier) []) := by
  refine keeps_of_parts rfl fun step part hpart => ?_
  cases step with
  | member name => cases hpart
  | row index =>
    refine ⟨part, ?_, .refl part⟩
    simp only [part?, Option.map_eq_some_iff] at hpart ⊢
    obtain ⟨found, hfound, rfl⟩ := hpart
    refine ⟨found, ?_, rfl⟩
    rw [List.reverse_cons, List.getElem?_append_left (List.getElem?_eq_some_iff.mp hfound).1, hfound]

end Node

/-! ### Statements -/

namespace Table

open Node (Keeps)

/-- A change to the members of a table that keeps the values in it. -/
def Change.Keeps (change : Change) : Prop :=
  ∀ opening members changed, opening ≠ .closed → change opening members = some changed →
    Node.Keeps (.table opening members) (.table opening changed)

theorem keeps_changeAt {change : Change} (h : change.Keeps) (isDotted : Bool) (path : Key) :
    Change.Keeps (changeAt isDotted change path) := by
  induction path with
  | nil => exact h
  | cons name path ih =>
    intro opening members changed hopening hchange
    rw [changeAt] at hchange
    split at hchange
    · rename_i hnone
      obtain ⟨inner, -, rfl⟩ := Option.map_eq_some_iff.mp hchange
      exact Node.keeps_set hopening fun old hold => by rw [hnone] at hold; cases hold
    · rename_i inner inside hfind
      split at hchange
      · cases hchange
      · rename_i hopen
        rw [not_or] at hopen
        obtain ⟨new, hnew, rfl⟩ := Option.map_eq_some_iff.mp hchange
        refine Node.keeps_set hopening fun old hold => ?_
        obtain rfl := Option.some.inj (hfind.symm.trans hold)
        exact ih _ _ _ hopen.1 hnew
    · rename_i earlier last hfind
      obtain ⟨new, hnew, rfl⟩ := Option.map_eq_some_iff.mp hchange
      refine Node.keeps_set hopening fun old hold => ?_
      obtain rfl := Option.some.inj (hfind.symm.trans hold)
      exact Node.keeps_last (ih _ _ _ (by decide) hnew)
    · cases hchange

theorem keeps_bindNew (name : String) (node : Node) :
    Change.Keeps fun _ members => bindNew name node members := by
  intro opening members changed hopening hbind
  dsimp only at hbind
  have hnew : Dict.contains name members = false := by
    rw [← Bool.not_eq_true]
    intro hbound
    rw [bindNew_eq_none hbound] at hbind
    cases hbind
  simp only [bindNew, hnew, Bool.false_eq_true, if_false, Option.some.injEq] at hbind
  subst hbind
  refine Node.keeps_set hopening fun old hold => ?_
  rw [Dict.contains, hold] at hnew
  cases hnew

theorem keeps_bind (key : Key) (node : Node) : Change.Keeps (bind key node) := by
  refine keeps_changeAt (fun opening members changed hopening hchange => ?_) _ _
  split at hchange
  · cases hchange
  · exact keeps_bindNew _ _ opening members changed hopening hchange

/-- A table that a header has led through and now writes out comes to stand behind the others. -/
theorem keeps_openTable (key : Key) : Change.Keeps (openTable key) := by
  refine keeps_changeAt (fun opening members changed hopening hchange => ?_) _ _
  split at hchange
  · rename_i hnone
    obtain rfl := Option.some.inj hchange
    exact Node.keeps_set hopening fun old hold => by rw [hnone] at hold; cases hold
  · rename_i inner hfind
    obtain rfl := Option.some.inj hchange
    refine Node.keeps_table hopening fun other found hfound => ?_
    by_cases hsame : other = key.getLast?.getD ""
    · subst hsame
      obtain rfl := Option.some.inj (hfind.symm.trans hfound)
      exact ⟨_, find?_set_self _ _ _, Node.keeps_table (by decide) fun name node hnode => ⟨node, hnode, .refl node⟩⟩
    · exact ⟨found, by rw [find?_set_of_ne hsame, Dict.find?_erase_of_ne hsame, hfound], .refl found⟩
  · cases hchange

theorem keeps_openNext (key : Key) : Change.Keeps (openNext key) := by
  refine keeps_changeAt (fun opening members changed hopening hchange => ?_) _ _
  split at hchange
  · rename_i hnone
    obtain rfl := Option.some.inj hchange
    exact Node.keeps_set hopening fun old hold => by rw [hnone] at hold; cases hold
  · rename_i earlier last hfind
    obtain rfl := Option.some.inj hchange
    refine Node.keeps_set hopening fun old hold => ?_
    obtain rfl := Option.some.inj (hfind.symm.trans hold)
    exact Node.keeps_next earlier last
  · cases hchange

/-- A change at the end of a path is one to a table that the names on the path lead to. -/
theorem exists_at?_changeAt {change : Change} {isDotted : Bool} {path : Key} {opening : Opening}
    {members changed : Table} (h : changeAt isDotted change path opening members = some changed) :
    ∃ steps opened before after, names steps = path ∧
      (Node.table opening changed).at? steps = some (.table opened after) ∧
      change opened before = some after := by
  induction path generalizing opening members changed with
  | nil => exact ⟨[], opening, members, changed, rfl, rfl, h⟩
  | cons name path ih =>
    rw [changeAt] at h
    split at h
    · obtain ⟨inner, hinner, rfl⟩ := Option.map_eq_some_iff.mp h
      obtain ⟨steps, opened, before, after, hnames, hat, hafter⟩ := ih hinner
      exact ⟨.member name :: steps, opened, before, after, congrArg (name :: ·) hnames,
        (Node.at?_member_set _ _ _ _ _).trans hat, hafter⟩
    · split at h
      · cases h
      · obtain ⟨inner, hinner, rfl⟩ := Option.map_eq_some_iff.mp h
        obtain ⟨steps, opened, before, after, hnames, hat, hafter⟩ := ih hinner
        exact ⟨.member name :: steps, opened, before, after, congrArg (name :: ·) hnames,
          (Node.at?_member_set _ _ _ _ _).trans hat, hafter⟩
    · rename_i earlier last _
      obtain ⟨new, hnew, rfl⟩ := Option.map_eq_some_iff.mp h
      obtain ⟨steps, opened, before, after, hnames, hat, hafter⟩ := ih hnew
      refine ⟨.member name :: .row earlier.length :: steps, opened, before, after,
        congrArg (name :: ·) hnames, ?_, hafter⟩
      rw [Node.at?_member_set, Node.at?, Node.part?_row_last]
      exact hat
    · cases h

/-- A node that is bound to a key is found under it. -/
theorem exists_at?_bind {key : Key} (hkey : key ≠ []) {node : Node} {opening : Opening} {members changed : Table}
    (h : bind key node opening members = some changed) :
    ∃ steps, names steps = key ∧ (Node.table opening changed).at? steps = some node := by
  obtain ⟨steps, opened, before, after, hnames, hat, hafter⟩ := exists_at?_changeAt h
  have hfind : Dict.find? (key.getLast hkey) after = some node := by
    rw [List.getLast?_eq_some_getLast hkey, Option.getD_some] at hafter
    split at hafter
    · cases hafter
    · unfold bindNew at hafter
      split at hafter
      · cases hafter
      · obtain rfl := Option.some.inj hafter
        exact find?_set_self _ _ _
  refine ⟨steps ++ [.member (key.getLast hkey)], ?_, ?_⟩
  · rw [names, List.filterMap_append, ← names, hnames]
    exact List.dropLast_concat_getLast hkey
  · rw [Node.at?_append, hat, Option.bind_some, Node.at?, Node.part?, hfind]
    rfl

/-- A change that refuses whatever another has made refuses it at the end of a path as well. -/
theorem changeAt_eq_none {change again : Change}
    (h : ∀ opening members changed, change opening members = some changed →
      ∀ opening, again opening changed = none)
    {isDotted : Bool} {path : Key} {opening : Opening} {members changed : Table}
    (hchange : changeAt isDotted change path opening members = some changed) (opened : Opening) :
    changeAt isDotted again path opened changed = none := by
  induction path generalizing opening members changed opened with
  | nil => exact h _ _ _ hchange opened
  | cons name path ih =>
    rw [changeAt] at hchange
    split at hchange
    · obtain ⟨inner, hinner, rfl⟩ := Option.map_eq_some_iff.mp hchange
      rw [changeAt, find?_set_self]
      simp [ih hinner]
    · split at hchange
      · cases hchange
      · obtain ⟨inner, hinner, rfl⟩ := Option.map_eq_some_iff.mp hchange
        rw [changeAt, find?_set_self]
        simp [ih hinner]
    · obtain ⟨last, hlast, rfl⟩ := Option.map_eq_some_iff.mp hchange
      rw [changeAt, find?_set_self]
      simp [ih hlast]
    · cases hchange

theorem bind_twice {key : Key} {node : Node} {opening : Opening} {members changed : Table}
    (h : bind key node opening members = some changed) (other : Node) (opened : Opening) :
    bind key other opened changed = none := by
  refine changeAt_eq_none (fun opening members changed hchange opened => ?_) h opened
  split at hchange
  · cases hchange
  · have hbound : Dict.contains (key.getLast?.getD "") changed = true := by
      unfold bindNew at hchange
      split at hchange
      · cases hchange
      · obtain rfl := Option.some.inj hchange
        rw [Dict.contains, find?_set_self]
        rfl
    split
    · rfl
    · exact bindNew_eq_none hbound other

end Table

namespace Document

/-- The outermost table of a document. -/
def root (document : Document) : Node := .table .written document.members

/-- A binding puts its value under the header above it and its key. -/
theorem exists_at?_add {document next : Document} {key : Key} (hkey : key ≠ []) {node : Node}
    (h : document.add (.binding key node) = some next) :
    ∃ steps, names steps = document.current ++ key ∧ next.root.at? steps = some node := by
  obtain ⟨members, hmembers, rfl⟩ := Option.map_eq_some_iff.mp h
  obtain ⟨steps, opened, before, after, hnames, hat, hafter⟩ := Table.exists_at?_changeAt hmembers
  obtain ⟨others, hothers, hnode⟩ := Table.exists_at?_bind hkey hafter
  refine ⟨steps ++ others, ?_, ?_⟩
  · rw [names, List.filterMap_append, ← names, ← names, hnames, hothers]
  · rw [root, Node.at?_append, hat]
    exact hnode

/-- **A statement keeps all values.** -/
theorem keeps_add {document next : Document} {statement : Statement}
    (h : document.add statement = some next) : Node.Keeps document.root next.root := by
  cases statement with
  | binding key node =>
    obtain ⟨members, hmembers, rfl⟩ := Option.map_eq_some_iff.mp h
    exact Table.keeps_changeAt (Table.keeps_bind key node) _ _ _ _ _ (by decide) hmembers
  | header key =>
    obtain ⟨members, hmembers, rfl⟩ := Option.map_eq_some_iff.mp h
    exact Table.keeps_openTable key _ _ _ (by decide) hmembers
  | rowHeader key =>
    obtain ⟨members, hmembers, rfl⟩ := Option.map_eq_some_iff.mp h
    exact Table.keeps_openNext key _ _ _ (by decide) hmembers

/-- So do any number of statements. -/
theorem keeps_foldlM {statements : List Statement} {document last : Document}
    (h : statements.foldlM add document = some last) : Node.Keeps document.root last.root := by
  induction statements generalizing document with
  | nil =>
    obtain rfl := Option.some.inj h
    exact .refl _
  | cons statement statements ih =>
    rw [List.foldlM_cons] at h
    obtain ⟨next, hnext, hrest⟩ := Option.bind_eq_some_iff.mp h
    exact (keeps_add hnext).trans (ih hrest)

/-- **Every value of a text is in its document,** under the header above it and its key. -/
theorem exists_at?_foldlM {before after : List Statement} {document last : Document} {key : Key} (hkey : key ≠ [])
    {node : Node} (hvalue : node.isValue = true)
    (h : (before ++ .binding key node :: after).foldlM add document = some last) :
    ∃ above steps, before.foldlM add document = some above ∧ names steps = above.current ++ key ∧
      last.root.at? steps = some node := by
  rw [List.foldlM_append] at h
  obtain ⟨above, habove, h⟩ := Option.bind_eq_some_iff.mp h
  rw [List.foldlM_cons] at h
  obtain ⟨next, hnext, hrest⟩ := Option.bind_eq_some_iff.mp h
  obtain ⟨steps, hnames, hat⟩ := exists_at?_add hkey hnext
  exact ⟨above, steps, habove, hnames, keeps_foldlM hrest steps node hat hvalue⟩

/-- **A key is bound once.** Under the same header a second value for it is refused. -/
theorem add_binding_twice {document next : Document} {key : Key} {node : Node}
    (h : document.add (.binding key node) = some next) (other : Node) :
    next.add (.binding key other) = none := by
  obtain ⟨members, hmembers, rfl⟩ := Option.map_eq_some_iff.mp h
  rw [add, Table.changeAt_eq_none (fun _ _ _ hbind opened => Table.bind_twice hbind other opened) hmembers]
  rfl

end Document

end DocIndex.Toml

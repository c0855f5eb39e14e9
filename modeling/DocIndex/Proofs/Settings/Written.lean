import DocIndex.Proofs.Json.Text
import DocIndex.Proofs.Settings.Load
import DocIndex.Settings.Toml.Document

/-!
# Settings files that are written

Lines of bare names and of strings between double marks are read as the statements that they spell
(`readStatements_lines`), whatever characters the strings have. All settings can therefore be given in a
settings file, and are then loaded as they are if no variable gives another value (`load_fileText`).
-/

namespace DocIndex.Toml

/-! ### Strings -/

/-- A character between double marks. -/
def escapeChar (c : Char) : List Char :=
  if c = '"' ∨ c = '\\' then ['\\', c]
  else if isVisible c then [c]
  else ['\\', 'u', '0', '0', Json.hexDigit (c.toNat / 16), Json.hexDigit (c.toNat % 16)]

/-- A text between double marks. -/
def quote (text : List Char) : List Char := '"' :: (text.flatMap escapeChar ++ ['"'])

theorem toNat_lt_of_not_isVisible {c : Char} (h : ¬isVisible c = true) : c.toNat < 128 := by
  simp only [isVisible, Bool.or_eq_true, Bool.and_eq_true, Nat.ble_eq, bne_iff_ne, not_or, not_and,
    ne_eq, not_not] at h
  omega

/-- The code of a character below 128 is read as that character. -/
theorem readCode_hexDigits {c : Char} (h : c.toNat < 128) (rest : List Char) :
    readCode 4 ('0' :: '0' :: Json.hexDigit (c.toNat / 16) :: Json.hexDigit (c.toNat % 16) :: rest) =
      some ([c], rest) := by
  have hhigh := Json.hexValue?_hexDigit (c.toNat / 16) (by omega)
  have hlow := Json.hexValue?_hexDigit (c.toNat % 16) (by omega)
  have hdigits : (['0', '0', Json.hexDigit (c.toNat / 16), Json.hexDigit (c.toNat % 16)].mapM Json.hexValue?) =
      some [0, 0, c.toNat / 16, c.toNat % 16] := by
    simp [hhigh, hlow, show Json.hexValue? '0' = some 0 from rfl]
  have hcode : (((0 * 16 + 0) * 16 + 0) * 16 + c.toNat / 16) * 16 + c.toNat % 16 = c.toNat := by omega
  have hvalid : c.toNat.isValidChar := .inl (by omega)
  have htake : List.take 4 ('0' :: '0' :: Json.hexDigit (c.toNat / 16) :: Json.hexDigit (c.toNat % 16) :: rest) =
      ['0', '0', Json.hexDigit (c.toNat / 16), Json.hexDigit (c.toNat % 16)] := rfl
  rw [readCode, htake, hdigits]
  simp only [Option.bind_eq_bind, Option.bind_some, List.foldl_cons, List.foldl_nil, hcode]
  rw [if_pos ⟨rfl, hvalid⟩, Char.ofNat_toNat]
  rfl

/-- A character between double marks is read as itself. -/
theorem basicPiece_escapeChar (c : Char) (rest : List Char) :
    basicPiece (escapeChar c ++ rest) = some ([c], rest) := by
  unfold escapeChar
  split
  · rename_i h
    rcases h with rfl | rfl <;> rfl
  · rename_i h
    rw [not_or] at h
    split
    · rename_i hvisible
      rw [List.singleton_append, basicPiece, literalPiece, if_pos hvisible]
      exact fun _ heq => h.2 (List.cons.inj heq).1
    · rename_i hvisible
      exact readCode_hexDigits (toNat_lt_of_not_isVisible hvisible) rest

theorem exists_cons_escapeChar (c : Char) : ∃ d more, escapeChar c = d :: more ∧ d ≠ '"' := by
  unfold escapeChar
  split
  · exact ⟨_, _, rfl, by decide⟩
  · rename_i h
    split
    · exact ⟨_, _, rfl, (not_or.mp h).1⟩
    · exact ⟨_, _, rfl, by decide⟩

theorem length_le_length_flatMap {α β : Type} {f : α → List β} (h : ∀ a, f a ≠ []) (l : List α) :
    l.length ≤ (l.flatMap f).length := by
  induction l with
  | nil => exact Nat.le_refl 0
  | cons a l ih =>
    rw [List.flatMap_cons, List.length_append, List.length_cons, Nat.add_comm]
    exact Nat.add_le_add (List.length_pos_of_ne_nil (h a)) ih

theorem readPieces_flatMap (text rest : List Char) {steps : List Char} (h : text.length < steps.length) :
    readPieces basicPiece '"' steps (text.flatMap escapeChar ++ '"' :: rest) = some (text, rest) := by
  induction text generalizing steps with
  | nil =>
    cases steps with
    | nil => cases h
    | cons step steps => rfl
  | cons c text ih =>
    cases steps with
    | nil => cases h
    | cons step steps =>
      obtain ⟨d, more, hd, hne⟩ := exists_cons_escapeChar c
      have hhead : (escapeChar c ++ (text.flatMap escapeChar ++ '"' :: rest)).head? ≠ some '"' := by
        rw [hd]
        exact fun heq => hne (Option.some.inj heq)
      rw [List.flatMap_cons, List.append_assoc, readPieces, if_neg hhead, basicPiece_escapeChar]
      simp only [ih (Nat.lt_of_succ_lt_succ h), Option.map_some, List.singleton_append]

/-- **Any text is the string that it is between double marks.** -/
theorem readString_quote (text : List Char) {rest : List Char} (hrest : rest.head? ≠ some '"') :
    readString (quote text ++ rest) = some (text, rest) := by
  have hlength : text.length ≤ (text.flatMap escapeChar).length := by
    refine length_le_length_flatMap (fun c => ?_) text
    obtain ⟨d, more, hd, -⟩ := exists_cons_escapeChar c
    rw [hd]
    exact List.cons_ne_nil d more
  have hread : readQuoted (quote text ++ rest) = some (text, rest) := by
    rw [quote, List.cons_append, List.append_assoc]
    refine readPieces_flatMap text rest ?_
    rw [List.length_append, List.singleton_append, List.length_cons]
    omega
  unfold readString
  split
  · rename_i heq
    cases text with
    | nil => exact absurd (congrArg List.head? (List.cons.inj (List.cons.inj heq).2).2) hrest
    | cons c text =>
      obtain ⟨d, more, hd, hne⟩ := exists_cons_escapeChar c
      rw [quote, List.flatMap_cons, hd] at heq
      exact absurd (List.cons.inj (List.cons.inj heq).2).1 hne
  · rename_i heq
    cases heq
  · exact hread

/-! ### Lines -/

/-- Whether a text can stand for itself as a name. -/
def isBare (name : String) : Bool := !name.toList.isEmpty && name.toList.all isBareChar

/-- A line of a settings file. -/
inductive Line where
  /-- The header of a table. -/
  | header (name : String)
  /-- A name has a text. -/
  | text (name content : String)
  /-- A name has a truth value. -/
  | flag (name : String) (value : Bool)

/-- A truth value. -/
def flagChars : Bool → List Char
  | true => ['t', 'r', 'u', 'e']
  | false => ['f', 'a', 'l', 's', 'e']

namespace Line

/-- The name in a line. -/
def name : Line → String
  | header name | text name _ | flag name _ => name

/-- The characters of a line and its end. -/
def chars : Line → List Char
  | header name => '[' :: (name.toList ++ [']', '\n'])
  | text name content => name.toList ++ ([' ', '=', ' '] ++ (quote content.toList ++ ['\n']))
  | flag name value => name.toList ++ ([' ', '=', ' '] ++ (flagChars value ++ ['\n']))

/-- The statement that a line spells. -/
def statement : Line → Statement
  | header name => .header [name]
  | text name content => .binding [name] (.leaf (.string content))
  | flag name value => .binding [name] (.leaf (.bool value))

end Line

theorem exists_cons_of_isBare {name : String} (h : isBare name = true) :
    ∃ c more, name.toList = c :: more ∧ isBareChar c = true ∧ ∀ d ∈ name.toList, isBareChar d = true := by
  rw [isBare, Bool.and_eq_true, List.all_eq_true] at h
  obtain ⟨hne, hall⟩ := h
  cases hchars : name.toList with
  | nil =>
    rw [hchars] at hne
    cases hne
  | cons c more =>
    rw [hchars] at hall
    exact ⟨c, more, rfl, hall c List.mem_cons_self, hall⟩

/-- A character of a bare name is not one that stands for something else. -/
theorem ne_of_isBareChar {c mark : Char} (hc : isBareChar c = true) (hmark : isBareChar mark = false) : c ≠ mark := by
  rintro rfl
  rw [hmark] at hc
  cases hc

theorem isSpace_of_isBareChar {c : Char} (hc : isBareChar c = true) : isSpace c = false := by
  rw [isSpace, beq_false_of_ne (ne_of_isBareChar hc rfl), beq_false_of_ne (ne_of_isBareChar hc rfl)]
  rfl

/-- A bare name is taken off the front of a text. -/
theorem readKey_bare {name : String} (hname : isBare name = true) {rest : List Char}
    (hrest : ∀ c ∈ rest.head?, isBareChar c = false) (hpoint : (skipSpaces rest).head? ≠ some '.') :
    readKey (name.toList ++ rest) = some ([name], skipSpaces rest) := by
  obtain ⟨c, more, hchars, hc, hall⟩ := exists_cons_of_isBare hname
  have htake : (name.toList ++ rest).takeWhile isBareChar = name.toList := by
    rw [List.takeWhile_append_of_pos hall]
    cases rest with
    | nil => exact List.append_nil _
    | cons d rest => rw [List.takeWhile_cons_of_neg (by simp [hrest d rfl]), List.append_nil]
  have hdrop : (name.toList ++ rest).dropWhile isBareChar = rest := by
    rw [List.dropWhile_append_of_pos hall]
    cases rest with
    | nil => rfl
    | cons d rest => exact List.dropWhile_cons_of_neg (by simp [hrest d rfl])
  have hspaces : skipSpaces (name.toList ++ rest) = name.toList ++ rest := by
    rw [hchars]
    exact List.dropWhile_cons_of_neg (by simp [isSpace_of_isBareChar hc])
  have hread : readName (name.toList ++ rest) = some (name, rest) := by
    unfold readName
    split
    · rename_i heq
      rw [hchars] at heq
      exact absurd (List.cons.inj heq).1 (ne_of_isBareChar hc rfl)
    · rename_i heq
      rw [hchars] at heq
      exact absurd (List.cons.inj heq).1 (ne_of_isBareChar hc rfl)
    · rw [htake, hdrop]
      split
      · rename_i heq
        cases hchars.symm.trans heq
      · rw [String.ofList_toList]
  have hkey : readKey (name.toList ++ rest) = readNames (78 + 1) (name.toList ++ rest) := rfl
  rw [hkey, readNames, hspaces, hread]
  dsimp only
  split
  · rename_i heq
    rw [heq] at hpoint
    exact absurd rfl hpoint
  · rfl

/-- A name, an equals sign and a value on a line are read as a binding. -/
theorem readStatement_binding {name : String} (hname : isBare name = true) {value rest : List Char} {node : Node}
    (hvalue : readValue depthLimit (skipSpaces (' ' :: (value ++ '\n' :: rest))) = some (node, '\n' :: rest)) :
    readStatement (name.toList ++ ([' ', '=', ' '] ++ (value ++ '\n' :: rest))) =
      some (.binding [name] node, '\n' :: rest) := by
  obtain ⟨c, more, hchars, hc, -⟩ := exists_cons_of_isBare hname
  have hbracket : c ≠ '[' := ne_of_isBareChar hc rfl
  have hkey : readKey (name.toList ++ ([' ', '=', ' '] ++ (value ++ '\n' :: rest))) =
      some ([name], '=' :: ' ' :: (value ++ '\n' :: rest)) :=
    readKey_bare hname (by rintro d ⟨⟩; rfl) (by simp [skipSpaces, isSpace])
  unfold readStatement
  split
  · rename_i heq
    rw [hchars] at heq
    exact absurd (List.cons.inj heq).1 hbracket
  · rename_i heq
    rw [hchars] at heq
    exact absurd (List.cons.inj heq).1 hbracket
  · rw [readBinding, hkey]
    simp only [Option.bind_eq_bind, Option.bind_some, hvalue]
    rfl

theorem readStatement_header {name : String} (hname : isBare name = true) (rest : List Char) :
    readStatement ('[' :: (name.toList ++ ']' :: rest)) = some (.header [name], rest) := by
  obtain ⟨c, more, hchars, hc, -⟩ := exists_cons_of_isBare hname
  have hkey : readKey (name.toList ++ ']' :: rest) = some ([name], ']' :: rest) :=
    readKey_bare hname (by rintro d ⟨⟩; rfl) (by simp [skipSpaces, isSpace])
  unfold readStatement
  split
  · rename_i heq
    rw [hchars] at heq
    exact absurd (List.cons.inj (List.cons.inj heq).2).1 (ne_of_isBareChar hc rfl)
  · rename_i heq
    obtain rfl := (List.cons.inj heq).2
    rw [hkey]
    rfl
  · rename_i hother
    exact absurd rfl (hother _)

/-- A line is read as the statement that it spells, up to its end. -/
theorem readStatement_chars {line : Line} (hname : isBare line.name = true) (rest : List Char) :
    readStatement (line.chars ++ rest) = some (line.statement, '\n' :: rest) := by
  cases line with
  | header name =>
    rw [Line.chars, List.cons_append, List.append_assoc]
    exact readStatement_header hname ('\n' :: rest)
  | text name content =>
    rw [Line.chars, List.append_assoc, List.append_assoc, List.append_assoc]
    refine readStatement_binding hname ?_
    show (readString (quote content.toList ++ '\n' :: rest)).map _ = _
    rw [readString_quote content.toList (by simp), Option.map_some, String.ofList_toList]
    rfl
  | flag name value =>
    rw [Line.chars, List.append_assoc, List.append_assoc, List.append_assoc]
    refine readStatement_binding hname ?_
    cases value <;> rfl

/-- A line starts with a character of a name or with a bracket. -/
theorem exists_cons_chars {line : Line} (hname : isBare line.name = true) :
    ∃ c more, line.chars = c :: more ∧ ∀ mark, isBareChar mark = false → mark ≠ '[' → c ≠ mark := by
  cases line with
  | header name => exact ⟨_, _, rfl, fun mark _ hbracket => hbracket.symm⟩
  | _ =>
    obtain ⟨c, more, hchars, hc, -⟩ := exists_cons_of_isBare hname
    rw [Line.name] at hchars
    exact ⟨c, _, by rw [Line.chars, hchars]; rfl, fun mark hmark _ => ne_of_isBareChar hc hmark⟩

theorem skipSpaces_chars {line : Line} (hname : isBare line.name = true) (rest : List Char) :
    skipSpaces (line.chars ++ rest) = line.chars ++ rest := by
  obtain ⟨c, more, hchars, hne⟩ := exists_cons_chars hname
  rw [hchars]
  refine List.dropWhile_cons_of_neg ?_
  simp [isSpace, hne ' ' rfl (by decide), hne '\t' rfl (by decide)]

/-- No line is an empty one. -/
theorem readLineEnd_chars {line : Line} (hname : isBare line.name = true) (rest : List Char) :
    readLineEnd (line.chars ++ rest) = none := by
  obtain ⟨c, more, hchars, hne⟩ := exists_cons_chars hname
  rw [readLineEnd, skipSpaces_chars hname, hchars, List.cons_append]
  simp [skipComment, hne '#' rfl (by decide), readNewline, hne '\n' rfl (by decide), hne '\r' rfl (by decide)]

/-- **Lines are read as the statements that they spell.** -/
theorem readStatements_lines {lines : List Line} (hnames : ∀ line ∈ lines, isBare line.name = true) {fuel : Nat}
    (hfuel : lines.length < fuel) :
    readStatements fuel (lines.flatMap Line.chars) = some (lines.map Line.statement) := by
  induction lines generalizing fuel with
  | nil =>
    cases fuel with
    | zero => cases hfuel
    | succ fuel => rfl
  | cons line lines ih =>
    cases fuel with
    | zero => cases hfuel
    | succ fuel =>
      have hname := hnames line List.mem_cons_self
      have hend : readLineEnd ('\n' :: lines.flatMap Line.chars) = some (lines.flatMap Line.chars) := rfl
      rw [List.flatMap_cons, readStatements, readLineEnd_chars hname]
      simp only [skipSpaces_chars hname, readStatement_chars hname, Option.bind_eq_bind, Option.bind_some, hend,
        ih (fun other hmem => hnames other (List.mem_cons_of_mem _ hmem)) (Nat.lt_of_succ_lt_succ hfuel)]
      rfl

/-- A file of lines has the members that their statements build. -/
theorem parse?_lines {lines : List Line} (hnames : ∀ line ∈ lines, isBare line.name = true) :
    parse? (lines.flatMap Line.chars) =
      ((lines.map Line.statement).foldlM Document.add .empty).bind fun document =>
        rootMembers? document.members := by
  have hmark : dropByteOrderMark (lines.flatMap Line.chars) = lines.flatMap Line.chars := by
    cases lines with
    | nil => rfl
    | cons line lines =>
      obtain ⟨c, more, hchars, hne⟩ := exists_cons_chars (hnames line List.mem_cons_self)
      rw [List.flatMap_cons, hchars, List.cons_append]
      simp [dropByteOrderMark, hne '\uFEFF' rfl (by decide)]
  have hlength : lines.length < (lines.flatMap Line.chars).length + 1 :=
    Nat.lt_succ_of_le (length_le_length_flatMap (fun line => by cases line <;> simp [Line.chars]) lines)
  rw [parse?, hmark]
  simp only [readStatements_lines hnames hlength, Option.bind_eq_bind, Option.bind_some]

end DocIndex.Toml

namespace DocIndex.Settings

/-- The lines of a settings file that gives all settings. -/
def lines (settings : Settings) : List Toml.Line :=
  [.header "compile", .flag "legacy_minute" settings.legacyMinute,
    .header "logging", .flag "json" settings.json, .text "level" settings.level,
    .header "store", .text "path" settings.storePath]

/-- The text of a settings file that gives all settings. -/
def fileText (settings : Settings) : String := String.ofList (settings.lines.flatMap Toml.Line.chars)

/-- The groups of settings with their values. -/
def groups (settings : Settings) : List (String × SettingTree) :=
  [("compile", .table [("legacy_minute", .leaf (.bool settings.legacyMinute))]),
    ("logging", .table [("json", .leaf (.bool settings.json)), ("level", .leaf (.string settings.level))]),
    ("store", .table [("path", .leaf (.string settings.storePath))])]

theorem isBare_lines (settings : Settings) : ∀ line ∈ settings.lines, Toml.isBare line.name = true := by
  have hnames : ∀ name ∈ ["compile", "legacy_minute", "logging", "json", "level", "store", "path"],
      Toml.isBare name = true := by decide +kernel
  exact fun line hmem => hnames line.name (List.mem_map_of_mem hmem)

theorem parse?_fileText (settings : Settings) : Toml.parse? settings.fileText.toList = some settings.groups := by
  rw [fileText, String.toList_ofList, Toml.parse?_lines settings.isBare_lines]
  rfl

theorem plain_groups (settings : Settings) :
    ∀ member ∈ settings.groups, SettingPath.ofText member.1 = [.member member.1] := by
  have hnames : ∀ name ∈ ["compile", "logging", "store"], SettingPath.ofText name = [.member name] := by
    decide +kernel
  exact fun member hmem => hnames member.1 (List.mem_map_of_mem hmem)

/-- Groups with all settings leave nothing of the defaults. -/
theorem treeOf?_groups (settings : Settings) : treeOf? settings.groups [] = some (.table settings.groups) := by
  have hgiven : (SettingTree.table []).putAll settings.groups = .table settings.groups := rfl
  have hdefault : defaultTree.putAll settings.groups = .table settings.groups := rfl
  have hnothing : (SettingTree.table settings.groups).overlay? [] = some (.table settings.groups) := rfl
  rw [treeOf?, SettingTree.overlay?_eq_putAll settings.plain_groups, hgiven]
  simp only [Option.bind_eq_bind, Option.bind_some, hnothing, SettingTree.members,
    SettingTree.overlay?_eq_putAll settings.plain_groups, hdefault]

/-- **All settings can be given in a settings file,** whatever characters their texts have. -/
theorem load_fileText {fs : FileSystem} {vars : Environment.Variables} {named : Option String}
    (settings : Settings) (hfile : textAt? fs (named.getD "jsonviews") = some settings.fileText)
    (henvironment : environmentFile? fs = none) (hvars : ∀ binding ∈ vars, pathOfVariable? binding.1 = none) :
    load fs vars named = .ok settings := by
  have hmembers : fileMembers? fs named = some settings.groups := by
    unfold fileMembers?
    rw [hfile]
    exact settings.parse?_fileText
  have hsettings : ofTree? (.table settings.groups) = some settings := rfl
  rw [load_of_no_variables henvironment hvars hmembers settings.treeOf?_groups, hsettings]
  rfl

end DocIndex.Settings

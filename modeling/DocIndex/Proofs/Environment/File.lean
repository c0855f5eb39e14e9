import DocIndex.Environment.File
import DocIndex.Proofs.Dict
import DocIndex.Proofs.Text.Blank

/-!
# What an environment file adds

An environment file only adds variables that are not set yet, each once, behind those that are
(`addFile_spec`), so it changes no variable that a run is started with. Any text can be given as a value,
between double marks with its marks, backslashes and dollar signs escaped (`readLine_lineOf`), and a name
in braces stands for the value that is set under it (`readValue_braced`).
-/

namespace DocIndex.Environment

/-! ### Look-ups -/

theorem after?_eq_some_iff {start text rest : List Char} :
    after? start text = some rest ↔ text = start ++ rest := by
  constructor
  · intro h
    induction start generalizing text with
    | nil => exact Option.some.inj h
    | cons c start ih =>
      cases text with
      | nil => cases h
      | cons d text =>
        unfold after? at h
        split at h
        · rename_i heq
          rw [heq, ih h, List.cons_append]
        · cases h
  · rintro rfl
    exact after?_append start rest

theorem name_eq_of_append {name other value rest : List Char} (hname : '=' ∉ name) (hother : '=' ∉ other)
    (h : name ++ '=' :: value = other ++ '=' :: rest) : name = other := by
  have htake : ∀ {front : List Char}, '=' ∉ front → ∀ back,
      (front ++ '=' :: back).takeWhile (· != '=') = front := by
    intro front hfront back
    have hall : ∀ c ∈ front, (c != '=') = true := fun c hmem =>
      bne_iff_ne.mpr fun heq => hfront (heq ▸ hmem)
    rw [List.takeWhile_append_of_pos hall, List.takeWhile_cons_of_neg (by decide), List.append_nil]
  rw [← htake hname value, h, htake hother rest]

/-- Among variables whose names hold no equals sign, a look-up finds the value of its name. -/
theorem valueOf_eq_find? {vars : Variables} (hvars : ∀ binding ∈ vars, '=' ∉ binding.1.toList)
    {name : String} (hname : '=' ∉ name.toList) :
    valueOf vars name.toList = ((Dict.find? name vars).getD "").toList := by
  induction vars with
  | nil => rfl
  | cons binding vars ih =>
    obtain ⟨other, value⟩ := binding
    by_cases hsame : other = name
    · subst hsame
      rw [valueOf_cons_self, Dict.find?, if_pos rfl, Option.getD_some]
    · have hnone : after? (name.toList ++ ['=']) (other.toList ++ '=' :: value.toList) = none := by
        rw [Option.eq_none_iff_forall_ne_some]
        intro rest h
        rw [after?_eq_some_iff, List.append_assoc] at h
        exact hsame (String.toList_inj.mp
          (name_eq_of_append (hvars _ List.mem_cons_self) hname h))
      have hrest := ih fun binding hmem => hvars binding (List.mem_cons_of_mem _ hmem)
      rw [Dict.find?, if_neg hsame, ← hrest, valueOf, List.findSome?_cons, hnone]
      rfl

/-! ### Adding variables -/

/-- Variables that are added to others: they are not among these, each is there once, and their values can
be stored. -/
structure Adds (vars added : Variables) : Prop where
  /-- None of them was set. -/
  fresh : ∀ binding ∈ added, Dict.contains binding.1 vars = false
  /-- No two of them have the same name. -/
  nodup : (added.map Prod.fst).Nodup
  /-- Their values can be stored. -/
  storable : ∀ binding ∈ added, isStorable binding.2 = true

theorem adds_nil (vars : Variables) : Adds vars [] :=
  ⟨fun _ hmem => absurd hmem List.not_mem_nil, List.nodup_nil, fun _ hmem => absurd hmem List.not_mem_nil⟩

theorem contains_append (name : String) (vars added : Variables) :
    Dict.contains name (vars ++ added) = (Dict.contains name vars || Dict.contains name added) := by
  rw [Dict.contains, Dict.find?_append, Option.isSome_or, Dict.contains, Dict.contains]

theorem Adds.cons {vars added : Variables} {name value : String} (hname : Dict.contains name vars = false)
    (hvalue : isStorable value = true) (h : Adds (vars ++ [(name, value)]) added) :
    Adds vars ((name, value) :: added) := by
  have hfresh : ∀ binding ∈ added, Dict.contains binding.1 vars = false ∧ binding.1 ≠ name := by
    intro binding hmem
    have hnone := h.fresh binding hmem
    rw [contains_append, Bool.or_eq_false_iff] at hnone
    refine ⟨hnone.1, ?_⟩
    rintro rfl
    simp [Dict.contains, Dict.find?] at hnone
  refine ⟨List.forall_mem_cons.mpr ⟨hname, fun binding hmem => (hfresh binding hmem).1⟩,
    List.nodup_cons.mpr ⟨fun hmem => ?_, h.nodup⟩, List.forall_mem_cons.mpr ⟨hvalue, h.storable⟩⟩
  obtain ⟨binding, hbinding, heq⟩ := List.mem_map.mp hmem
  exact (hfresh binding hbinding).2 heq

theorem addLines_spec {lines : List (Option (List Char))} {vars after : Variables}
    (h : addLines vars lines = some after) : ∃ added, after = vars ++ added ∧ Adds vars added := by
  have hstop : ∀ {vars : Variables}, some vars = some after →
      ∃ added, after = vars ++ added ∧ Adds vars added := by
    rintro vars ⟨⟩
    exact ⟨[], (List.append_nil _).symm, adds_nil _⟩
  induction lines generalizing vars with
  | nil => exact hstop h
  | cons line lines ih =>
    cases line with
    | none => exact hstop h
    | some line =>
      unfold addLines at h
      split at h
      · exact hstop h
      · exact ih h
      · rename_i name value _
        split at h
        · cases h
        · rename_i hstorable
          by_cases hset : Dict.contains name vars = true
          · rw [setDefault_of_contains hset] at h
            exact ih h
          · rw [Bool.not_eq_true] at hset
            rw [setDefault, if_neg (by simp [hset])] at h
            obtain ⟨added, rfl, hadded⟩ := ih h
            refine ⟨(name, value) :: added, by rw [List.append_assoc, List.singleton_append], ?_⟩
            exact hadded.cons hset (by simpa [hset] using hstorable)

/-- **An environment file adds variables and changes none.** The variables that are set stay in front, as
they are, and the new ones have other names, each of them once. -/
theorem addFile_spec {vars after : Variables} {bytes : List UInt8}
    (h : addFile vars bytes = some after) : ∃ added, after = vars ++ added ∧ Adds vars added :=
  addLines_spec h

/-- A variable that is set keeps its value. -/
theorem find?_addFile {vars after : Variables} {bytes : List UInt8} (h : addFile vars bytes = some after)
    {name : String} (hset : Dict.contains name vars = true) :
    Dict.find? name after = Dict.find? name vars := by
  obtain ⟨added, rfl, -⟩ := addFile_spec h
  obtain ⟨value, hvalue⟩ := Option.isSome_iff_exists.mp hset
  rw [Dict.find?_append, hvalue]
  rfl

/-! ### Values -/

/-- A character between double marks. -/
def quoteChar (c : Char) : List Char := if c = '$' ∨ c = '\\' ∨ c = '"' then ['\\', c] else [c]

/-- A text between double marks. -/
def quote (text : List Char) : List Char := '"' :: (text.flatMap quoteChar ++ ['"'])

variable {vars : Variables}

theorem readFrom_of_step {place next : Place} {c : Char} {content : List Char}
    (h : step vars place c = some (content, next)) (rest : List Char) :
    readFrom vars place (c :: rest) = (readFrom vars next rest).map (content ++ ·) := by
  rw [readFrom, h]

/-- A character between double marks is read as itself. -/
theorem readFrom_quoteChar (c : Char) (rest : List Char) :
    readFrom vars (.text true) (quoteChar c ++ rest) =
      (readFrom vars (.text true) rest).map (c :: ·) := by
  unfold quoteChar
  split
  · rename_i hspecial
    have hescape : escape? c = some c := by rcases hspecial with rfl | rfl | rfl <;> decide
    have hbackslash : step vars (.text true) '\\' = some ([], .escape true) := rfl
    have hread : step vars (.escape true) c = some ([c], .text true) := by
      rw [step, hescape]
      rfl
    rw [List.cons_append, readFrom_of_step hbackslash, List.singleton_append, readFrom_of_step hread,
      Option.map_map]
    rfl
  · rename_i hplain
    rw [not_or, not_or] at hplain
    have hread : step vars (.text true) c = some ([c], .text true) := by
      rw [step, if_neg hplain.1, if_neg hplain.2.1, if_neg hplain.2.2, if_pos rfl]
    rw [List.singleton_append, readFrom_of_step hread]
    rfl

/-- Any text is the value of what it is between double marks. -/
theorem readValue_quote (text : List Char) : readValue vars (quote text) = some text := by
  have hclose : readFrom vars (.text true) ['"'] = some [] := rfl
  have htext : readFrom vars (.text true) (text.flatMap quoteChar ++ ['"']) = some text := by
    induction text with
    | nil => exact hclose
    | cons c text ih =>
      rw [List.flatMap_cons, List.append_assoc, readFrom_quoteChar, ih]
      rfl
  have hopen : step vars (.text false) '"' = some ([], .text true) := rfl
  rw [readValue, quote, readFrom_of_step hopen, htext]
  rfl

/-- A name in braces stands for its value. -/
theorem readValue_braced {name : List Char} (hname : '}' ∉ name) :
    readValue vars ('$' :: '{' :: (name ++ ['}'])) = some (valueOf vars name) := by
  have hdollar : step vars (.text false) '$' = some ([], .name false []) := rfl
  have hopen : step vars (.name false []) '{' = some ([], .braced false []) := by
    rw [step, show Text.isAlphanumeric '{' = false by decide +kernel]
    rfl
  have hclose : ∀ taken, step vars (.braced false taken) '}' = some (valueOf vars taken, .text false) :=
    fun taken => rfl
  have htaken : ∀ taken, readFrom vars (.braced false taken) (name ++ ['}']) =
      some (valueOf vars (taken ++ name)) := by
    induction name with
    | nil =>
      intro taken
      rw [List.nil_append, readFrom_of_step (hclose taken), List.append_nil]
      exact congrArg some (List.append_nil _)
    | cons c name ih =>
      intro taken
      rw [List.mem_cons, not_or] at hname
      have hread : step vars (.braced false taken) c = some ([], .braced false (taken ++ [c])) :=
        if_neg (Ne.symm hname.1)
      rw [List.cons_append, readFrom_of_step hread, ih hname.2, List.append_assoc]
      rfl
  rw [readValue, readFrom_of_step hdollar, readFrom_of_step hopen, htaken]
  rfl

/-! ### Lines -/

/-- Whether a text can be the name of a variable. -/
def isName : List Char → Bool
  | [] => false
  | c :: rest => isNameStart c && rest.all isNameChar

/-- The line of a variable. -/
def lineOf (binding : String × String) : List Char :=
  binding.1.toList ++ '=' :: quote binding.2.toList

theorem isBlank_of_isNameStart {c : Char} (h : isNameStart c = true) : Text.isBlank c = false := by
  rw [← Bool.not_eq_true]
  simp only [isNameStart, Text.isBlank, Bool.or_eq_true, Bool.and_eq_true, Nat.ble_eq, beq_iff_eq] at h ⊢
  rcases h with (hsmall | hcapital) | rfl
  · omega
  · omega
  · decide

/-- A name and its equals sign are taken off the front of a line. -/
theorem readName_append {name : List Char} (hname : isName name = true) (rest : List Char) :
    readName (name ++ '=' :: rest) = some (name, '=' :: rest) := by
  cases name with
  | nil => cases hname
  | cons c name =>
    rw [isName, Bool.and_eq_true] at hname
    have hall : ∀ d ∈ c :: name, isNameChar d = true :=
      List.forall_mem_cons.mpr ⟨by rw [isNameChar, hname.1]; rfl, List.all_eq_true.mp hname.2⟩
    have htake : (c :: name ++ '=' :: rest).takeWhile isNameChar = c :: name := by
      rw [List.takeWhile_append_of_pos hall, List.takeWhile_cons_of_neg (by decide), List.append_nil]
    have hdrop : (c :: name ++ '=' :: rest).dropWhile isNameChar = '=' :: rest := by
      rw [List.dropWhile_append_of_pos hall, List.dropWhile_cons_of_neg (by decide)]
    rw [List.cons_append] at htake hdrop ⊢
    rw [readName, if_pos hname.1, htake, hdrop, Text.trimStart_of_head (by simp; decide)]

theorem exists_cons_lineOf {binding : String × String} (hname : isName binding.1.toList = true) :
    ∃ c text, lineOf binding = c :: (text ++ ['"']) ∧ isNameStart c = true := by
  unfold lineOf quote
  cases hchars : binding.1.toList with
  | nil =>
    rw [hchars] at hname
    cases hname
  | cons c name =>
    rw [hchars, isName, Bool.and_eq_true] at hname
    exact ⟨c, name ++ '=' :: '"' :: binding.2.toList.flatMap quoteChar, by simp, hname.1⟩

/-- The line of a variable is read as that variable. -/
theorem readLine_lineOf {binding : String × String} (hname : isName binding.1.toList = true) :
    readLine vars (lineOf binding) = some (some binding) := by
  obtain ⟨c, text, hline, hc⟩ := exists_cons_lineOf hname
  have hend : Text.trimEnd (text ++ ['"']) = text ++ ['"'] := by
    rw [Text.trimEnd, List.reverse_append, List.reverse_singleton, List.singleton_append,
      List.dropWhile_cons_of_neg (by decide), List.reverse_cons, List.reverse_reverse]
  have htrim : Text.trim (lineOf binding) = lineOf binding := by
    rw [hline, Text.trim_cons (isBlank_of_isNameStart hc), hend]
  have hbinding : readBinding (lineOf binding) = some (binding.1.toList, quote binding.2.toList) := by
    rw [readBinding, lineOf, readName_append hname]
    rfl
  unfold readLine
  rw [htrim]
  split
  · rename_i hnil
    cases hline.symm.trans hnil
  · rename_i hcomment
    obtain ⟨rfl, -⟩ := List.cons.inj (hline.symm.trans hcomment)
    cases hc
  · rw [hbinding]
    show ((readValue vars (quote binding.2.toList)).bind fun value =>
      some (some (String.ofList binding.1.toList, String.ofList value))) = _
    rw [readValue_quote, Option.bind_some, String.ofList_toList, String.ofList_toList]

/-- **All variables can be given in lines.** Lines of variables, whose names are names and whose values
can be stored, set those that are not set yet. -/
theorem addLines_lineOf {bindings : List (String × String)}
    (hnames : ∀ binding ∈ bindings, isName binding.1.toList = true)
    (hvalues : ∀ binding ∈ bindings, isStorable binding.2 = true) :
    addLines vars (bindings.map fun binding => some (lineOf binding)) =
      some (bindings.foldl (fun vars binding => setDefault vars binding.1 binding.2) vars) := by
  induction bindings generalizing vars with
  | nil => rfl
  | cons binding bindings ih =>
    rw [List.map_cons, addLines, readLine_lineOf (hnames _ List.mem_cons_self)]
    simp only [hvalues _ List.mem_cons_self, Bool.not_true, Bool.and_false, Bool.false_eq_true, if_false]
    exact ih (fun other hmem => hnames other (List.mem_cons_of_mem _ hmem))
      fun other hmem => hvalues other (List.mem_cons_of_mem _ hmem)

end DocIndex.Environment

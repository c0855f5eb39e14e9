import DocIndex.Interpreted.Apply
import DocIndex.Proofs.Text.Blank
import DocIndex.Proofs.Text.Case
import Mathlib.Logic.ExistsUnique

/-!
# Words as maximal runs

There is one way to take a text apart into runs of the characters of words and the gaps between them
(`exists_parts`, `Parts.Proper.unique`), and its words are these runs in small letters (`words_maximal_runs`). The
scan goes from the end of the text to its front, so what carries the proof is that a character of no word parts the
runs on its two sides (`runsOf_append`).
-/

namespace DocIndex.Text

/-! ### Texts taken apart -/

/-- Whether a text has no character of a word. -/
def IsGap (text : List Char) : Prop := ∀ c ∈ text, isWordChar c = false

/-- Whether a text is a run of characters of a word. -/
def IsRun (text : List Char) : Prop := text ≠ [] ∧ ∀ c ∈ text, isWordChar c = true

/-- Whether runs, each with what follows it, alternate with gaps: only the last gap may be empty. -/
def Alternates : List (List Char × List Char) → Prop
  | [] => True
  | (run, gap) :: others => IsRun run ∧ IsGap gap ∧ (gap = [] → others = []) ∧ Alternates others

instance (text : List Char) : Decidable (IsGap text) := List.decidableBAll _ text

instance (text : List Char) : Decidable (IsRun text) := @instDecidableAnd _ _ _ (List.decidableBAll _ text)

instance decidableAlternates : (runs : List (List Char × List Char)) → Decidable (Alternates runs)
  | [] => .isTrue trivial
  | (run, gap) :: others =>
    have := decidableAlternates others
    inferInstanceAs (Decidable (IsRun run ∧ IsGap gap ∧ (gap = [] → others = []) ∧ Alternates others))

/-- Runs and the gaps behind them, put together. -/
def together (runs : List (List Char × List Char)) : List Char := runs.flatMap fun part => part.1 ++ part.2

theorem together_cons (run gap : List Char) (others : List (List Char × List Char)) :
    together ((run, gap) :: others) = run ++ (gap ++ together others) :=
  List.append_assoc run gap _

/-- A text taken apart: the gap in front of the first run, and the runs, each with the gap behind it. -/
structure Parts where
  /-- The gap in front, which may be empty. -/
  front : List Char
  /-- The runs, each with the gap behind it. -/
  runs : List (List Char × List Char)

namespace Parts

/-- The parts put together. -/
def text (parts : Parts) : List Char := parts.front ++ together parts.runs

/-- The parts are gaps and maximal runs in turn. -/
structure Proper (parts : Parts) : Prop where
  /-- In front is a gap. -/
  front : IsGap parts.front
  /-- Runs and gaps alternate behind it. -/
  runs : Alternates parts.runs

end Parts

/-! ### Runs -/

/-- The runs of a text. -/
def runsOf (text : List Char) : List (List Char) := consRun (splitRuns text).1 (splitRuns text).2

theorem consRun_append (run : List Char) (runs more : List (List Char)) :
    consRun run (runs ++ more) = consRun run runs ++ more := by
  cases run <;> rfl

theorem splitRuns_append {c : Char} (hc : isWordChar c = false) (a b : List Char) :
    splitRuns (a ++ c :: b) = ((splitRuns a).1, (splitRuns a).2 ++ runsOf b) := by
  induction a with
  | nil => simp [splitRuns, hc, runsOf]
  | cons d a ih =>
    rw [List.cons_append, splitRuns, ih, splitRuns]
    cases isWordChar d with
    | true => rfl
    | false => simp [consRun_append]

/-- A character that stands in no word parts the runs. -/
theorem runsOf_append {c : Char} (hc : isWordChar c = false) (a b : List Char) :
    runsOf (a ++ c :: b) = runsOf a ++ runsOf b := by
  rw [runsOf, splitRuns_append hc]
  exact consRun_append _ _ _

theorem runsOf_gap_append {gap : List Char} (h : IsGap gap) (text : List Char) :
    runsOf (gap ++ text) = runsOf text := by
  induction gap with
  | nil => rfl
  | cons c gap ih =>
    obtain ⟨hc, hgap⟩ := List.forall_mem_cons.mp h
    exact (runsOf_append hc [] (gap ++ text)).trans (ih hgap)

theorem splitRuns_of_forall {run : List Char} (h : ∀ c ∈ run, isWordChar c = true) :
    splitRuns run = (run, []) := by
  induction run with
  | nil => rfl
  | cons c run ih =>
    obtain ⟨hc, hrun⟩ := List.forall_mem_cons.mp h
    simp [splitRuns, ih hrun, hc]

theorem runsOf_run {run : List Char} (h : IsRun run) : runsOf run = [run] := by
  rw [runsOf, splitRuns_of_forall h.2]
  cases run with
  | nil => exact absurd rfl h.1
  | cons c run => rfl

theorem runsOf_alternating {runs : List (List Char × List Char)} (h : Alternates runs) :
    runsOf (together runs) = runs.map Prod.fst := by
  induction runs with
  | nil => rfl
  | cons part runs ih =>
    obtain ⟨run, gap⟩ := part
    obtain ⟨hrun, hgap, hlast, hothers⟩ := h
    rw [together_cons, List.map_cons]
    cases gap with
    | nil =>
      obtain rfl := hlast rfl
      exact (congrArg runsOf (List.append_nil run)).trans (runsOf_run hrun)
    | cons c gap =>
      obtain ⟨hc, hrest⟩ := List.forall_mem_cons.mp hgap
      rw [List.cons_append, runsOf_append hc, runsOf_run hrun, runsOf_gap_append hrest, ih hothers]
      rfl

theorem Parts.Proper.runsOf_text {parts : Parts} (h : parts.Proper) :
    runsOf parts.text = parts.runs.map Prod.fst := by
  rw [Parts.text, runsOf_gap_append h.front, runsOf_alternating h.runs]

/-! ### One way to take a text apart -/

theorem exists_parts (text : List Char) : ∃ parts : Parts, parts.Proper ∧ parts.text = text := by
  induction text with
  | nil => exact ⟨⟨[], []⟩, ⟨List.forall_mem_nil _, trivial⟩, rfl⟩
  | cons c text ih =>
    obtain ⟨⟨front, runs⟩, ⟨hfront, hruns⟩, rfl⟩ := ih
    cases hc : isWordChar c with
    | false => exact ⟨⟨c :: front, runs⟩, ⟨List.forall_mem_cons.mpr ⟨hc, hfront⟩, hruns⟩, rfl⟩
    | true =>
      have hsingle : IsRun [c] := ⟨List.cons_ne_nil c [], fun d hd => List.mem_singleton.mp hd ▸ hc⟩
      cases front with
      | cons d front =>
        exact ⟨⟨[], ([c], d :: front) :: runs⟩, ⟨List.forall_mem_nil _, hsingle, hfront, nofun, hruns⟩, rfl⟩
      | nil =>
        cases runs with
        | nil => exact ⟨⟨[], [([c], [])]⟩, ⟨List.forall_mem_nil _, hsingle, hfront, fun _ => rfl, hruns⟩, rfl⟩
        | cons part runs =>
          obtain ⟨run, gap⟩ := part
          obtain ⟨hrun, hgap, hlast, hothers⟩ := hruns
          exact ⟨⟨[], (c :: run, gap) :: runs⟩, ⟨List.forall_mem_nil _,
            ⟨List.cons_ne_nil c run, List.forall_mem_cons.mpr ⟨hc, hrun.2⟩⟩, hgap, hlast, hothers⟩, rfl⟩

theorem append_inj_of_head? {p : Char → Bool} {front front' rest rest' : List Char}
    (hfront : ∀ c ∈ front, p c = true) (hfront' : ∀ c ∈ front', p c = true)
    (hrest : ∀ c ∈ rest.head?, p c = false) (hrest' : ∀ c ∈ rest'.head?, p c = false)
    (h : front ++ rest = front' ++ rest') : front = front' ∧ rest = rest' := by
  have heq : rest = rest' := by
    rw [← dropWhile_append_of_all hfront hrest, h, dropWhile_append_of_all hfront' hrest']
  exact ⟨List.append_cancel_right (heq ▸ h), heq⟩

/-- Runs with their gaps start with a character of a word. -/
theorem Alternates.head? {runs : List (List Char × List Char)} (h : Alternates runs) :
    ∀ c ∈ (together runs).head?, isWordChar c = true := by
  cases runs with
  | nil => exact nofun
  | cons part runs =>
    obtain ⟨run, gap⟩ := part
    obtain ⟨⟨hne, hrun⟩, -⟩ := h
    cases run with
    | nil => exact absurd rfl hne
    | cons c run =>
      rintro d ⟨⟩
      exact hrun c List.mem_cons_self

theorem Alternates.isRun_of_mem {runs : List (List Char × List Char)} (h : Alternates runs)
    {part : List Char × List Char} (hmem : part ∈ runs) : IsRun part.1 := by
  induction runs with
  | nil => cases hmem
  | cons first runs ih =>
    obtain ⟨hrun, -, -, hothers⟩ := h
    rcases List.mem_cons.mp hmem with rfl | hothermem
    · exact hrun
    · exact ih hothers hothermem

/-- What follows a run does not start with a character of a word. -/
theorem head?_gap_append {gap : List Char} {others : List (List Char × List Char)} (hgap : IsGap gap)
    (hlast : gap = [] → others = []) : ∀ c ∈ (gap ++ together others).head?, isWordChar c = false := by
  cases gap with
  | nil =>
    obtain rfl := hlast rfl
    exact nofun
  | cons c gap =>
    rintro d ⟨⟩
    exact hgap c List.mem_cons_self

theorem gap_append_inj {front front' : List Char} {runs runs' : List (List Char × List Char)}
    (hfront : IsGap front) (hfront' : IsGap front') (hruns : Alternates runs) (hruns' : Alternates runs')
    (h : front ++ together runs = front' ++ together runs') :
    front = front' ∧ together runs = together runs' := by
  refine @append_inj_of_head? (fun c => !isWordChar c) _ _ _ _ ?_ ?_ ?_ ?_ h
  · exact fun c hc => by simp [hfront c hc]
  · exact fun c hc => by simp [hfront' c hc]
  · exact fun c hc => by simp [hruns.head? c hc]
  · exact fun c hc => by simp [hruns'.head? c hc]

theorem Alternates.unique {runs runs' : List (List Char × List Char)} (hruns : Alternates runs)
    (hruns' : Alternates runs') (h : together runs = together runs') : runs = runs' := by
  induction runs generalizing runs' with
  | nil =>
    cases runs' with
    | nil => rfl
    | cons part' others' =>
      obtain ⟨run', gap'⟩ := part'
      rw [together_cons] at h
      exact absurd (List.append_eq_nil_iff.mp h.symm).1 hruns'.1.1
  | cons part others ih =>
    obtain ⟨run, gap⟩ := part
    obtain ⟨hrun, hgap, hlast, hothers⟩ := hruns
    cases runs' with
    | nil =>
      rw [together_cons] at h
      exact absurd (List.append_eq_nil_iff.mp h).1 hrun.1
    | cons part' others' =>
      obtain ⟨run', gap'⟩ := part'
      obtain ⟨hrun', hgap', hlast', hothers'⟩ := hruns'
      rw [together_cons, together_cons] at h
      obtain ⟨rfl, hrest⟩ := append_inj_of_head? hrun.2 hrun'.2 (head?_gap_append hgap hlast)
        (head?_gap_append hgap' hlast') h
      obtain ⟨rfl, htogether⟩ := gap_append_inj hgap hgap' hothers hothers' hrest
      rw [ih hothers hothers' htogether]

/-- There is one way to take a text apart. -/
theorem Parts.Proper.unique {parts parts' : Parts} (h : parts.Proper) (h' : parts'.Proper)
    (htext : parts.text = parts'.text) : parts = parts' := by
  obtain ⟨front, runs⟩ := parts
  obtain ⟨front', runs'⟩ := parts'
  obtain ⟨hfront, htogether⟩ := gap_append_inj h.front h'.front h.runs h'.runs htext
  obtain rfl : front = front' := hfront
  obtain rfl : runs = runs' := h.runs.unique h'.runs htogether
  rfl

/-! ### Characters -/

theorem isAlphanum_iff {c : Char} : c.isAlphanum = true ↔
    (97 ≤ c.toNat ∧ c.toNat ≤ 122) ∨ (65 ≤ c.toNat ∧ c.toNat ≤ 90) ∨ (48 ≤ c.toNat ∧ c.toNat ≤ 57) := by
  have hcases : c.isAlphanum = (decide (65 ≤ c.val ∧ c.val ≤ 90) || (decide (97 ≤ c.val) && decide (c.val ≤ 122)) ||
      (decide (48 ≤ c.val) && decide (c.val ≤ 57))) := rfl
  rw [hcases]
  simp only [Bool.or_eq_true, Bool.and_eq_true, decide_eq_true_eq, UInt32.le_iff_toNat_le]
  exact (or_congr_left or_comm).trans or_assoc

theorem isWordChar_iff {c : Char} :
    isWordChar c = true ↔ c.isAlphanum = true ∨ c = '_' ∨ c = '\'' ∨ c = '-' := by
  simp only [isAlphanum_iff, isWordChar, Bool.or_eq_true, Bool.and_eq_true, Nat.ble_eq, beq_iff_eq, or_assoc]

/-- The small letter of a character of a word is one, and its own small letter. -/
theorem lower_of_isWordChar {c : Char} (h : isWordChar c = true) :
    isWordChar (lower c) = true ∧ lower (lower c) = lower c :=
  ⟨(map_lower (by decide) c).trans h, lower_lower c⟩

/-! ### Words -/

theorem words_eq (text : String) :
    words text = (runsOf text.toList).map fun run => String.ofList (run.map lower) := by
  rw [words, wordsOf, List.map_map]
  rfl

/-- A character that stands in no word parts the words. -/
theorem words_append {c : Char} (hc : isWordChar c = false) (a b : String) :
    words (a ++ String.singleton c ++ b) = words a ++ words b := by
  have htext : (a ++ String.singleton c ++ b).toList = a.toList ++ c :: b.toList := by simp
  rw [words_eq, htext, runsOf_append hc, List.map_append, words_eq, words_eq]

theorem isRun_of_mem_runsOf {text run : List Char} (h : run ∈ runsOf text) : IsRun run := by
  obtain ⟨parts, hproper, rfl⟩ := exists_parts text
  rw [hproper.runsOf_text, List.mem_map] at h
  obtain ⟨part, hmem, rfl⟩ := h
  exact hproper.runs.isRun_of_mem hmem

/-- A word is the only word of itself. -/
theorem words_of_mem {text word : String} (h : word ∈ words text) : words word = [word] := by
  rw [words_eq, List.mem_map] at h
  obtain ⟨run, hmem, rfl⟩ := h
  obtain ⟨hne, hrun⟩ := isRun_of_mem_runsOf hmem
  have hlower : IsRun (run.map lower) :=
    ⟨mt List.map_eq_nil_iff.mp hne, List.forall_mem_map.mpr fun c hc => (lower_of_isWordChar (hrun c hc)).1⟩
  have htwice : (run.map lower).map lower = run.map lower := by
    rw [List.map_map]
    exact List.map_congr_left fun c hc => (lower_of_isWordChar (hrun c hc)).2
  rw [words_eq, String.toList_ofList, runsOf_run hlower, List.map_singleton, htwice]

/-- Words with a character between any two, the one after the word of index `i` being `separator i`. -/
def joined (separator : Nat → Char) : List String → String
  | [] => ""
  | [word] => word
  | word :: next :: others =>
    word ++ String.singleton (separator 0) ++ joined (fun i => separator (i + 1)) (next :: others)

theorem words_joined {separator : Nat → Char} (hseparator : ∀ i, isWordChar (separator i) = false)
    {tokens : List String} (htokens : ∀ token ∈ tokens, words token = [token]) :
    words (joined separator tokens) = tokens := by
  induction tokens generalizing separator with
  | nil => rfl
  | cons token others ih =>
    obtain ⟨htoken, hothers⟩ := List.forall_mem_cons.mp htokens
    cases others with
    | nil => exact htoken
    | cons next others =>
      rw [joined, words_append (hseparator 0), htoken, ih (fun i => hseparator (i + 1)) hothers]
      rfl

/-! ### The transform -/

theorem wordsOf?_eq_none_iff {value : Json} :
    Transform.wordsOf? value = none ↔ ∀ text, value = .str text → words text = [] := by
  cases value with
  | str text =>
    rw [Transform.wordsOf?]
    cases hwords : words text with
    | nil => simp [hwords]
    | cons first others => simp [hwords]
  | _ => simp [Transform.wordsOf?]

/-- The words of a value that is there cannot be read if it is no string or has none. -/
theorem apply_words_eq_failed_iff {options : Options} {input : Interpreted} :
    Transform.words.apply options input = .failed ↔
      input ≠ .missing ∧ ∀ text, input.payload = .str text → words text = [] := by
  have hwords : Transform.words.onValue? options input.payload = Transform.wordsOf? input.payload := rfl
  rw [← wordsOf?_eq_none_iff, Transform.apply, hwords]
  by_cases habsent : input.isAbsent = true
  · rw [if_pos habsent]
    cases input with
    | missing => simp
    | failed => simp [Interpreted.payload, Transform.wordsOf?]
    | _ => cases habsent
  · have hpresent : input ≠ .missing := by
      rintro rfl
      exact habsent rfl
    rw [if_neg habsent]
    cases Transform.wordsOf? input.payload with
    | none => simp [hpresent]
    | some words => simp

/-- **The words of a text are its maximal runs of word characters.** These are the ASCII letters, the digits, `_`,
`'` and `-`. There is one way to take a text apart into runs of them and gaps, with a gap between any two runs, and
the words are the runs in order, in small letters. So a character of no word parts the words in front of it from
those behind it, and words with any such characters put between them are read back. The transform fails on all
values that are there but the strings with a word. -/
theorem words_maximal_runs :
    (∀ c, isWordChar c = true ↔ c.isAlphanum = true ∨ c = '_' ∨ c = '\'' ∨ c = '-') ∧
    (∀ text : String, (∃! parts : Parts, parts.Proper ∧ parts.text = text.toList) ∧
      ∀ parts : Parts, parts.Proper → parts.text = text.toList →
        words text = parts.runs.map fun part => String.ofList (part.1.map lower)) ∧
    (∀ c, isWordChar c = false → ∀ a b, words (a ++ String.singleton c ++ b) = words a ++ words b) ∧
    (∀ separator : Nat → Char, (∀ i, isWordChar (separator i) = false) →
      ∀ text, words (joined separator (words text)) = words text) ∧
    ∀ options input, Transform.words.apply options input = .failed ↔
      input ≠ .missing ∧ ∀ text, input.payload = .str text → words text = [] := by
  refine ⟨fun _ => isWordChar_iff, fun text => ⟨?_, ?_⟩, fun _ => words_append, ?_,
    fun _ _ => apply_words_eq_failed_iff⟩
  · obtain ⟨parts, hproper, htext⟩ := exists_parts text.toList
    exact ⟨parts, ⟨hproper, htext⟩, fun other hother => hother.1.unique hproper (hother.2.trans htext.symm)⟩
  · intro parts hproper htext
    rw [words_eq, ← htext, hproper.runsOf_text, List.map_map]
    rfl
  · intro separator hseparator text
    exact words_joined hseparator fun _ => words_of_mem

/-- A text with an accented letter in front of a word, and a long dash. -/
def motto : String := "«Élan», O'Neil_2 \u2014 WELL-being"

/-- Its parts. The accented letter is in a gap, and so is the long dash. -/
def mottoParts : Parts where
  front := "«É".toList
  runs := [("lan".toList, "», ".toList), ("O'Neil_2".toList, " \u2014 ".toList), ("WELL-being".toList, [])]

/-- It has three words, also next to another text and with other characters between them. -/
theorem words_motto :
    words motto = ["lan", "o'neil_2", "well-being"] ∧
      words (motto ++ String.singleton 'é' ++ motto) = words motto ++ words motto ∧
      words (joined (fun i => if i = 0 then 'é' else '.') (words motto)) = words motto ∧
      Transform.words.apply .default (.plain (.str "?! ...")) = .failed := by
  obtain ⟨-, hparts, happend, hjoined, hfailed⟩ := words_maximal_runs
  have hproper : mottoParts.Proper := ⟨by decide +kernel, by decide +kernel⟩
  have htext : mottoParts.text = motto.toList := by decide +kernel
  have hwords : words motto = ["lan", "o'neil_2", "well-being"] :=
    ((hparts motto).2 mottoParts hproper htext).trans (by decide +kernel)
  refine ⟨hwords, happend 'é' (by decide) motto motto, hjoined _ (fun i => ?_) motto, (hfailed _ _).mpr ⟨nofun, ?_⟩⟩
  · by_cases h : i = 0 <;> simp only [h] <;> decide
  · rintro text ⟨⟩
    decide +kernel

end DocIndex.Text

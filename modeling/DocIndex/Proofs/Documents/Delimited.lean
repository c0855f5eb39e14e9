import DocIndex.Documents
import DocIndex.Proofs.Json.Compact
import DocIndex.Proofs.Text.Blank
import Mathlib.Data.List.TakeWhile

/-!
# Values delimited by lines

A text with one value on a line, lines ended in either way and blank lines anywhere, is read value by value
(`read_delimited`). The reader looks at the whole text first. A second value is not blank, so that a text with two
of them is no value as a whole (`Delimited.trimStart_eq`), and the reader goes on to the lines, of which each is a
value or blank (`Delimited.readLines_eq`). A text that starts with a bracket never comes that far.
-/

namespace DocIndex.DocumentText

open Json (compactChars)

/-! ### Lines and their ends -/

theorem splitLines_append {line : List Char} (h : '\n' ∉ line) (rest : List Char) :
    splitLines (line ++ '\n' :: rest) = line :: splitLines rest := by
  induction line with
  | nil => rw [List.nil_append, splitLines, if_pos rfl]
  | cons c line ih =>
    obtain ⟨hc, hline⟩ := not_or.mp (mt List.mem_cons.mpr h)
    rw [List.cons_append, splitLines, if_neg (Ne.symm hc), ih hline]

theorem splitLines_of_notMem {line : List Char} (h : '\n' ∉ line) (hne : line ≠ []) : splitLines line = [line] := by
  induction line with
  | nil => exact absurd rfl hne
  | cons c line ih =>
    obtain ⟨hc, hline⟩ := not_or.mp (mt List.mem_cons.mpr h)
    rw [splitLines, if_neg (Ne.symm hc)]
    cases line with
    | nil => rfl
    | cons d line => rw [ih hline (List.cons_ne_nil d line)]

/-- The end of a line. -/
inductive LineEnd where
  /-- A line feed. -/
  | lf
  /-- A carriage return and a line feed. -/
  | crlf

/-- What stands in front of the line feed. -/
def LineEnd.carriage : LineEnd → List Char
  | lf => []
  | crlf => ['\r']

/-- Values, each in compact form on a line of its own, with blank lines anywhere. The last line may have no end. -/
inductive Delimited : List Json → List Char → Prop where
  /-- Blanks at the end, or nothing. -/
  | blanks {line : List Char} : '\n' ∉ line → isBlankLine line = true → Delimited [] line
  /-- A value at the end. -/
  | last (x : Json) : Delimited [x] (compactChars x)
  /-- A blank line. -/
  | blank {line rest : List Char} {values : List Json} (lineEnd : LineEnd) : '\n' ∉ line →
      isBlankLine line = true → Delimited values rest →
      Delimited values (line ++ (lineEnd.carriage ++ '\n' :: rest))
  /-- A line with a value. -/
  | value {rest : List Char} {values : List Json} (x : Json) (lineEnd : LineEnd) : Delimited values rest →
      Delimited (x :: values) (compactChars x ++ (lineEnd.carriage ++ '\n' :: rest))

/-- A carriage return stays on its line. -/
theorem splitLines_ended {line : List Char} (h : '\n' ∉ line) (lineEnd : LineEnd) (rest : List Char) :
    splitLines (line ++ (lineEnd.carriage ++ '\n' :: rest)) = (line ++ lineEnd.carriage) :: splitLines rest := by
  have hended : '\n' ∉ line ++ lineEnd.carriage := by
    rw [List.mem_append, not_or]
    exact ⟨h, by cases lineEnd <;> decide⟩
  rw [← List.append_assoc, splitLines_append hended]

theorem isBlankLine_ended (line : List Char) (lineEnd : LineEnd) :
    isBlankLine (line ++ lineEnd.carriage) = isBlankLine line := by
  have hcarriage : lineEnd.carriage.all Text.isBlank = true := by cases lineEnd <;> decide
  rw [isBlankLine, List.all_append, hcarriage, Bool.and_true, isBlankLine]

/-! ### Line by line -/

theorem isBlankLine_compactChars {x : Json} (h : x.IsReadable) : isBlankLine (compactChars x) = false := by
  obtain ⟨c, chars, hcons, hblank, -⟩ := h.exists_cons
  rw [hcons, isBlankLine, List.all_cons, hblank, Bool.false_and]

theorem readLines_blank {line : List Char} (h : isBlankLine line = true) (number : Nat)
    (lines : List (List Char)) : readLines number (line :: lines) = readLines (number + 1) lines := by
  rw [readLines, if_pos h]

theorem readLines_value {x : Json} (h : x.IsReadable) (lineEnd : LineEnd) (number : Nat)
    (lines : List (List Char)) : readLines number ((compactChars x ++ lineEnd.carriage) :: lines) =
      (readLines (number + 1) lines).map (x :: ·) := by
  have hstops : Numeral.Stops lineEnd.carriage := by
    cases lineEnd with
    | lf => exact Numeral.stops_nil
    | crlf => exact Json.stops_cons (by decide) []
  have hblanks : (Json.skipBlanks lineEnd.carriage).isEmpty = true := by cases lineEnd <;> rfl
  have hparse := h.parseWithin?_append hstops
  rw [if_pos hblanks] at hparse
  rw [readLines, isBlankLine_ended, isBlankLine_compactChars h, hparse, if_neg Bool.false_ne_true]

/-- The lines are read as the values, in order. -/
theorem Delimited.readLines_eq {values : List Json} {text : List Char} (h : Delimited values text)
    (hreadable : ∀ x ∈ values, x.IsReadable) (number : Nat) :
    readLines number (splitLines text) = .ok values := by
  induction h generalizing number with
  | @blanks line hline hblank =>
    by_cases hne : line = []
    · rw [hne]
      rfl
    · rw [splitLines_of_notMem hline hne, readLines_blank hblank]
      rfl
  | last x =>
    have hx := hreadable x List.mem_cons_self
    obtain ⟨c, chars, hcons, -, -⟩ := hx.exists_cons
    have hvalue := readLines_value hx .lf number []
    rw [LineEnd.carriage, List.append_nil] at hvalue
    rw [splitLines_of_notMem (Json.newline_notMem_compactChars x) (by simp [hcons]), hvalue]
    rfl
  | @blank line rest values lineEnd hline hblank hrest ih =>
    have hended : isBlankLine (line ++ lineEnd.carriage) = true := (isBlankLine_ended line lineEnd).trans hblank
    rw [splitLines_ended hline, readLines_blank hended, ih hreadable]
  | @value rest values x lineEnd hrest ih =>
    obtain ⟨hx, hothers⟩ := List.forall_mem_cons.mp hreadable
    rw [splitLines_ended (Json.newline_notMem_compactChars x), readLines_value hx, ih hothers]
    rfl

/-! ### The whole text -/

theorem trimStart_blank_line {line : List Char} (h : isBlankLine line = true) (lineEnd : LineEnd)
    (rest : List Char) : Text.trimStart (line ++ (lineEnd.carriage ++ '\n' :: rest)) = Text.trimStart rest := by
  have hend : (lineEnd.carriage ++ ['\n']).all Text.isBlank = true := by cases lineEnd <;> decide
  have hblanks : (line ++ (lineEnd.carriage ++ ['\n'])).all Text.isBlank = true := by
    rw [List.all_append, hend, Bool.and_true]
    exact h
  have happend : line ++ (lineEnd.carriage ++ '\n' :: rest) = (line ++ (lineEnd.carriage ++ ['\n'])) ++ rest := by
    simp
  rw [happend, Text.trimStart, List.dropWhile_append_of_pos (List.all_eq_true.mp hblanks), Text.trimStart]

/-- A text without values is blank. -/
theorem Delimited.trimStart_eq_nil {text : List Char} (h : Delimited [] text) : Text.trimStart text = [] := by
  generalize hnone : ([] : List Json) = values at h
  induction h with
  | blanks _ hblank => exact List.dropWhile_eq_nil_iff.mpr (List.all_eq_true.mp hblank)
  | last => cases hnone
  | blank lineEnd _ hblank _ ih => rw [trimStart_blank_line hblank, ih hnone]
  | value => cases hnone

/-- A text with a value in it is not blank. -/
theorem Delimited.exists_not_blank {values : List Json} {text : List Char} (h : Delimited values text)
    (hreadable : ∀ x ∈ values, x.IsReadable) (hne : values ≠ []) : ∃ c ∈ text, Text.isBlank c = false := by
  induction h with
  | blanks => exact absurd rfl hne
  | last x =>
    obtain ⟨c, chars, hcons, hblank, -⟩ := (hreadable x List.mem_cons_self).exists_cons
    exact ⟨c, hcons ▸ List.mem_cons_self, hblank⟩
  | blank lineEnd _ _ _ ih =>
    obtain ⟨c, hmem, hblank⟩ := ih hreadable hne
    exact ⟨c, List.mem_append_right _ (List.mem_append_right _ (List.mem_cons_of_mem _ hmem)), hblank⟩
  | value x lineEnd _ _ =>
    obtain ⟨c, chars, hcons, hblank, -⟩ := (hreadable x List.mem_cons_self).exists_cons
    exact ⟨c, List.mem_append_left _ (hcons ▸ List.mem_cons_self), hblank⟩

theorem isEmpty_skipBlanks_of_not_blank {text : List Char} (h : ∃ c ∈ text, Text.isBlank c = false) :
    (Json.skipBlanks text).isEmpty = false := by
  obtain ⟨c, hmem, hblank⟩ := h
  rw [List.isEmpty_eq_false_iff, Json.skipBlanks, ne_eq, List.dropWhile_eq_nil_iff]
  intro hall
  exact Bool.false_ne_true ((Json.isBlank_of_not_textBlank hblank).symm.trans (hall c hmem))

/-- Without the blanks in front of it a text starts with its first value. If nothing but blanks follows, there is no
other value. -/
theorem Delimited.trimStart_eq {x : Json} {values : List Json} (hreadable : ∀ y ∈ x :: values, y.IsReadable)
    {text : List Char} (h : Delimited (x :: values) text) :
    ∃ more, Text.trimStart text = compactChars x ++ more ∧ Numeral.Stops more ∧
      ((Json.skipBlanks more).isEmpty = true → values = []) := by
  have htrimmed : ∀ more, Text.trimStart (compactChars x ++ more) = compactChars x ++ more := fun more => by
    obtain ⟨c, chars, hcons, hblank, -⟩ := (hreadable x List.mem_cons_self).exists_cons
    exact Text.trimStart_of_head (by simpa [hcons] using hblank)
  generalize hall : x :: values = all at h
  induction h with
  | blanks => cases hall
  | last y =>
    obtain ⟨rfl, rfl⟩ := List.cons.inj hall
    have hwhole := htrimmed []
    rw [List.append_nil] at hwhole
    exact ⟨[], hwhole.trans (List.append_nil _).symm, Numeral.stops_nil, fun _ => rfl⟩
  | blank lineEnd _ hblank _ ih =>
    rw [trimStart_blank_line hblank]
    exact ih hall
  | @value rest others y lineEnd hrest _ =>
    obtain ⟨rfl, rfl⟩ := List.cons.inj hall
    refine ⟨_, htrimmed _, by cases lineEnd <;> exact Json.stops_cons (by decide) _, fun hempty => ?_⟩
    by_contra hne
    obtain ⟨c, hmem, hblank⟩ := hrest.exists_not_blank (List.forall_mem_cons.mp hreadable).2 hne
    rw [isEmpty_skipBlanks_of_not_blank
      ⟨c, List.mem_append_right _ (List.mem_cons_of_mem _ hmem), hblank⟩] at hempty
    cases hempty

/-- However many values there are, they are read if the first one is no array. -/
theorem Delimited.read_eq {values : List Json} {text : List Char} (h : Delimited values text)
    (hreadable : ∀ x ∈ values, x.IsReadable) (hfirst : ∀ items, values.head? ≠ some (.arr items)) :
    read text = .ok values := by
  have hlines := h.readLines_eq hreadable 1
  cases values with
  | nil =>
    rw [read, h.trimStart_eq_nil]
    exact hlines
  | cons x values =>
    have hx := hreadable x List.mem_cons_self
    obtain ⟨more, htrim, hstops, hlast⟩ := h.trimStart_eq hreadable
    obtain ⟨c, chars, hcons, -, hbracket⟩ := hx.exists_cons
    have hc : c ≠ '[' := fun heq => by
      obtain ⟨items, rfl⟩ := hbracket heq
      exact hfirst items rfl
    have hparse := hx.parseWithin?_append hstops
    rw [hcons, List.cons_append] at htrim hparse
    rw [read, htrim]
    split
    · rename_i heq
      exact absurd (List.cons.inj heq).1 hc
    · rw [hparse]
      by_cases hempty : (Json.skipBlanks more).isEmpty = true
      · rw [if_pos hempty, hlast hempty]
      · rw [if_neg hempty]
        exact hlines

/-- An array with another value behind it is taken for an array that is not closed properly. -/
theorem Delimited.read_eq_error {items values : List Json} {text : List Char}
    (h : Delimited (.arr items :: values) text) (hreadable : ∀ x ∈ Json.arr items :: values, x.IsReadable)
    (hne : values ≠ []) : read text = .error .notArray := by
  obtain ⟨more, htrim, hstops, hlast⟩ := h.trimStart_eq hreadable
  have hparse := (hreadable _ List.mem_cons_self).parseWithin?_append hstops
  rw [if_neg (mt hlast hne)] at hparse
  obtain ⟨chars, hcons⟩ : ∃ chars, compactChars (.arr items) = '[' :: chars := by
    cases items <;> exact ⟨_, rfl⟩
  rw [hcons, List.cons_append] at htrim hparse
  rw [read, htrim, hparse]
  rfl

/-- **Values on lines are read value by value.** Let a text have two or more values, each in compact form on a
line of its own, with either line end and any blank lines. If each of them nests no deeper than the reader goes and
their doubles are read back, then the text is read as the values, in order. Only if the first one is an array, the
text is refused. -/
theorem read_delimited {values : List Json} {text : List Char} (h : Delimited values text)
    (htwo : 2 ≤ values.length) (hreadable : ∀ x ∈ values, x.IsReadable) :
    ((∀ items, values.head? ≠ some (.arr items)) → read text = .ok values) ∧
      ∀ items, values.head? = some (.arr items) → read text = .error .notArray := by
  refine ⟨h.read_eq hreadable, fun items hfirst => ?_⟩
  cases values with
  | nil => cases hfirst
  | cons x values =>
    obtain rfl := Option.some.inj hfirst
    have hne : values ≠ [] := by
      rintro rfl
      simp at htwo
    exact h.read_eq_error hreadable hne

/-- A text, an array and an object. -/
def delimitedValues : List Json := [.str "a\nb\u2028", .arr [.num (.int 1), .arr []], .obj [("k", .null)]]

/-- They stand on lines of both ends, between lines of blanks, and the last one has no end. -/
def delimitedText : List Char := "\r\n\u2003\t\n\"a\\nb\u2028\"\r\n\n[1,[]]\n\x7b\"k\":null\x7d".toList

/-- They are read from these lines. -/
theorem read_delimitedValues : read delimitedText = .ok delimitedValues := by
  have htext : delimitedText =
      [] ++ (LineEnd.crlf.carriage ++ '\n' :: (['\u2003', '\t'] ++ (LineEnd.lf.carriage ++ '\n' ::
        (compactChars (.str "a\nb\u2028") ++ (LineEnd.crlf.carriage ++ '\n' ::
          ([] ++ (LineEnd.lf.carriage ++ '\n' :: (compactChars (.arr [.num (.int 1), .arr []]) ++
            (LineEnd.lf.carriage ++ '\n' :: compactChars (.obj [("k", .null)])))))))))) := by
    decide +kernel
  have hdelimited : Delimited delimitedValues delimitedText := by
    rw [htext]
    exact .blank .crlf (by decide) (by decide) (.blank .lf (by decide) (by decide)
      (.value _ .crlf (.blank .lf (by decide) (by decide) (.value _ .lf (.last _)))))
  have hreadable : ∀ x ∈ delimitedValues, x.IsReadable := by
    simp only [delimitedValues, List.forall_mem_cons]
    exact ⟨⟨by decide +kernel, by decide +kernel, by decide⟩, ⟨by decide +kernel, by decide +kernel, by decide⟩,
      ⟨by decide +kernel, by decide +kernel, by decide⟩, nofun⟩
  exact (read_delimited hdelimited (by decide) hreadable).1 (by rintro items ⟨⟩)

/-- The double nearest to `1e-23`, which is not read back from this text. -/
def inexact : Binary64 := ⟨false, 4262707295203537489, by decide⟩

/-- Not all values are read from their lines. If the first one is an array, the text is taken for an array as a
whole; and a double may be read as the next one. -/
theorem read_delimited_refused :
    (Delimited [.arr [.num (.int 1)], .null] "[1]\nnull\n".toList ∧
      read "[1]\nnull\n".toList = .error .notArray) ∧
    Delimited [.num (.double inexact), .null] "1e-23\nnull\n".toList ∧
      read "1e-23\nnull\n".toList ≠ .ok [.num (.double inexact), .null] := by
  have harray : "[1]\nnull\n".toList = compactChars (.arr [.num (.int 1)]) ++ (LineEnd.lf.carriage ++ '\n' ::
      (compactChars .null ++ (LineEnd.lf.carriage ++ ['\n']))) := by decide +kernel
  have hdouble : "1e-23\nnull\n".toList = compactChars (.num (.double inexact)) ++ (LineEnd.lf.carriage ++ '\n' ::
      (compactChars .null ++ (LineEnd.lf.carriage ++ ['\n']))) := by decide +kernel
  refine ⟨⟨?_, rfl⟩, ?_, fun hread => ?_⟩
  · rw [harray]
    exact .value _ .lf (.value _ .lf (.blanks (by decide) (by decide)))
  · rw [hdouble]
    exact .value _ .lf (.value _ .lf (.blanks (by decide) (by decide)))
  · have hfirst : ((read "1e-23\nnull\n".toList).toOption.bind List.head?).map Json.compact =
        some "1.0000000000000001e-23" := by decide +kernel
    rw [hread] at hfirst
    exact absurd hfirst (by decide +kernel)

end DocIndex.DocumentText

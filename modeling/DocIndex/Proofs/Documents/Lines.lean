import DocIndex.Proofs.Documents.Delimited
import DocIndex.Proofs.Row.WellFormed

/-!
# Rows as lines, read back

Values that are written one on a line are delimited by line feeds (`delimited_ofValues`), and so they are read back
one by one (`read_ofValues`). This holds of the rows of a view on any documents, and what is written is as many
lines as there are rows (`read_write`).
-/

namespace DocIndex.DocumentText

open Json (compactChars)

/-! ### Lines -/

/-- Values, each on a line. -/
def ofValues (values : List Json) : List Char := values.flatMap fun x => compactChars x ++ ['\n']

theorem ofValues_cons (x : Json) (values : List Json) :
    ofValues (x :: values) = compactChars x ++ '\n' :: ofValues values := by
  rw [ofValues, List.flatMap_cons, List.append_assoc, List.singleton_append, ofValues]

/-- No value breaks its line. -/
theorem splitLines_ofValues (values : List Json) : splitLines (ofValues values) = values.map compactChars := by
  induction values with
  | nil => rfl
  | cons x values ih =>
    rw [ofValues_cons, splitLines_append (Json.newline_notMem_compactChars x), ih, List.map_cons]

theorem delimited_ofValues (values : List Json) : Delimited values (ofValues values) := by
  induction values with
  | nil => exact .blanks List.not_mem_nil rfl
  | cons x values ih =>
    rw [ofValues_cons]
    exact .value x .lf ih

/-- **Values on lines are read back**, unless the first one is an array, which the reader takes for the whole
text. -/
theorem read_ofValues {values : List Json} (h : ∀ x ∈ values, x.IsReadable)
    (hfirst : ∀ items, values.head? ≠ some (.arr items)) : read (ofValues values) = .ok values :=
  (delimited_ofValues values).read_eq h hfirst

/-! ### Rows on lines -/

theorem ofRows_eq (rows : List Row) : ofRows rows = ofValues (rows.map Row.toJson) := by
  rw [ofRows, ofValues, List.flatMap_map]

theorem foldl_addRow (rows : List Row) (written : Written) :
    rows.foldl Written.addRow written =
      ⟨written.text ++ String.ofList (ofRows rows), written.count + rows.length⟩ := by
  induction rows generalizing written with
  | nil =>
    show written = ⟨written.text ++ "", written.count⟩
    rw [String.append_empty]
  | cons row rows ih =>
    have hlines : ofRows (row :: rows) = (compactChars row.toJson ++ ['\n']) ++ ofRows rows := rfl
    rw [List.foldl_cons, ih, hlines, String.ofList_append, List.length_cons, Nat.add_comm rows.length,
      ← Nat.add_assoc, ← String.append_assoc]
    rfl

theorem foldl_documents (view : CompiledView) (documents : List Json) (written : Written) :
    documents.foldl (fun written document => (view.rows document).foldl Written.addRow written) written =
      (view.allRows documents).foldl Written.addRow written := by
  rw [CompiledView.allRows, List.foldl_flatMap]

/-- What is written are the rows of all documents in order, and their number. -/
theorem write_eq (view : CompiledView) (documents : List Json) :
    write view documents =
      ⟨String.ofList (ofRows (view.allRows documents)), (view.allRows documents).length⟩ := by
  rw [write, foldl_documents, foldl_addRow, String.empty_append, Nat.zero_add]

/-- **What is written is read back.** The rows of any number of documents are counted, and each of them is
written on a line of its own. If the documents are well formed, and the rows nest no deeper than the reader goes
and their doubles are read back, then the text is read as the rows, in order. -/
theorem read_write (view : View) (options : Options) (documents : List Json) :
    let rows := (view.compile options).allRows documents
    let written := write (view.compile options) documents
    written.count = rows.length ∧
      splitLines written.text.toList = rows.map (fun row => compactChars row.toJson) ∧
      ((∀ document ∈ documents, document.wellFormed = true) →
        (∀ row ∈ rows, row.toJson.depth ≤ Json.depthLimit ∧ row.toJson.doublesReadBack = true) →
        read written.text.toList = .ok (rows.map Row.toJson)) := by
  dsimp only
  rw [write_eq, String.toList_ofList, ofRows_eq]
  refine ⟨rfl, ?_, fun hform hrows => read_ofValues (fun x hmem => ?_) (fun items heq => ?_)⟩
  · rw [splitLines_ofValues, List.map_map]
    rfl
  · obtain ⟨row, hrow, rfl⟩ := List.mem_map.mp hmem
    obtain ⟨document, hdocument, hof⟩ := List.mem_flatMap.mp hrow
    exact ⟨view.wellFormed_rows options (hform document hdocument) row hof, (hrows row hrow).2, (hrows row hrow).1⟩
  · rw [List.head?_map] at heq
    obtain ⟨row, -, hrow⟩ := Option.map_eq_some_iff.mp heq
    cases hrow

/-- The tags of a document, a row for each, with its number. -/
def tagLines : View := ⟨.single (.access (.path ⟨"tags"⟩) { Descriptor.none with splay := true }),
  some (.path ⟨"n"⟩), none⟩

/-- Three documents, of which the second has no tags, with line breaks of all kinds in those of the first. -/
def taggedDocuments : List Json :=
  [.obj [("n", .num (.int 1)), ("tags", .arr [.str "a\nb\r\n", .str "\u2028\"\x01"])], .obj [("tags", .arr [])],
    .obj [("n", .null), ("tags", .arr [.arr []])]]

/-- The two rows of the first document and the one of the last are read back from three lines. -/
theorem read_taggedDocuments :
    (write (tagLines.compile .default) taggedDocuments).count = 3 ∧
      (splitLines (write (tagLines.compile .default) taggedDocuments).text.toList).length = 3 ∧
      read (write (tagLines.compile .default) taggedDocuments).text.toList =
        .ok [.obj [("key", .str "a\nb\r\n"), ("value", .num (.int 1))],
          .obj [("key", .str "\u2028\"\x01"), ("value", .num (.int 1))],
          .obj [("key", .arr []), ("value", .null)]] := by
  obtain ⟨hcount, hlines, hread⟩ := read_write tagLines .default taggedDocuments
  have hform : ∀ document ∈ taggedDocuments, document.wellFormed = true := by decide +kernel
  have hrows : ∀ row ∈ (tagLines.compile .default).allRows taggedDocuments,
      row.toJson.depth ≤ Json.depthLimit ∧ row.toJson.doublesReadBack = true := by decide +kernel
  exact ⟨hcount.trans rfl, (congrArg List.length hlines).trans rfl, (hread hform hrows).trans rfl⟩

end DocIndex.DocumentText

import DocIndex.Row

/-!
# Compiled views

A view together with the options it is compiled under: a function from documents to rows, and the
reduce.
-/

namespace DocIndex

/-- A view ready to be run on documents. -/
structure CompiledView where
  /-- The rows of a document, in order. -/
  rows : Json → List Row
  /-- The reduce of the view. -/
  reduce : Option Json

/-- Compiles a view. -/
def View.compile (options : Options) (view : View) : CompiledView where
  rows := view.rows options
  reduce := view.reduce

/-- The rows of several documents, one document after another. -/
def CompiledView.allRows (view : CompiledView) (documents : List Json) : List Row :=
  documents.flatMap view.rows

end DocIndex

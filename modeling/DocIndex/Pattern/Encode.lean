import DocIndex.Pattern.Basic

/-!
# Writing views

The JSON form of patterns, keys and views. Everything that is at its default is left out; a tested
value is written also when it is `null`.
-/

namespace DocIndex

/-- The binding of a switch, if it is on. -/
def flagMember (name : String) (on : Bool) : List (String × Json) :=
  if on then [(name, .bool true)] else []

/-- The binding of a value, if there is one. -/
def optionalMember (name : String) : Option Json → List (String × Json)
  | some value => [(name, value)]
  | none => []

/-- The members of an access object, in order of their keys, with its inner pattern. -/
def Descriptor.members (d : Descriptor) (inner : Json) : List (String × Json) :=
  ("access", inner) :: (flagMember "emit" d.emit ++ optionalMember "equals" d.equals ++
    flagMember "flatten" d.flatten ++ flagMember "invert" d.invert ++
    flagMember "splay" d.splay ++
    optionalMember "transform" (d.transform.map fun transform => .str transform.name))

/-- The JSON form of a pattern. -/
def Pattern.toJson : Pattern → Json
  | path p => .str p.raw
  | access inner descriptor => .obj (descriptor.members inner.toJson)

/-- The JSON form of a key. -/
def KeyPattern.toJson : KeyPattern → Json
  | single pattern => pattern.toJson
  | composite parts => .arr (parts.map Pattern.toJson)

/-- The JSON form of a view's patterns, without its reduce. -/
def View.patternsToJson (view : View) : Json :=
  .obj (("key", view.key.toJson) :: optionalMember "value" (view.value.map Pattern.toJson))

/-- The JSON form of a view. -/
def View.toJson (view : View) : Json :=
  .obj (("key", view.key.toJson) :: (optionalMember "reduce" view.reduce ++
    optionalMember "value" (view.value.map Pattern.toJson)))

end DocIndex

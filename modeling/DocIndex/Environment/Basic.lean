import DocIndex.Dict

/-!
# Environment variables

The variables that a run is started with, in their order. Each is kept as one text, its name, an
equals sign and its value, and a look-up takes the first text that starts with the name and an
equals sign. A name that holds an equals sign itself therefore finds the end of a value.
-/

namespace DocIndex.Environment

/-- Variables and their values, in the order in which they were set. -/
abbrev Variables := List (String × String)

/-- What follows a text at the front of another. -/
def after? : List Char → List Char → Option (List Char)
  | [], text => some text
  | c :: start, d :: text => if c = d then after? start text else none
  | _ :: _, [] => none

/-- The value that a look-up of a name finds; it is empty if there is none. -/
def valueOf (vars : Variables) (name : List Char) : List Char :=
  (vars.findSome? fun binding =>
    after? (name ++ ['=']) (binding.1.toList ++ '=' :: binding.2.toList)).getD []

/-- Sets a variable unless it is set. -/
def setDefault (vars : Variables) (name value : String) : Variables :=
  if Dict.contains name vars then vars else vars ++ [(name, value)]

theorem after?_append (start text : List Char) : after? start (start ++ text) = some text := by
  induction start with
  | nil => rfl
  | cons c start ih => simpa [after?] using ih

/-- The value of the first variable is found under its name. -/
theorem valueOf_cons_self (name value : String) (vars : Variables) :
    valueOf ((name, value) :: vars) name.toList = value.toList := by
  have h := after?_append (name.toList ++ ['=']) value.toList
  simp only [List.append_assoc, List.singleton_append] at h
  simp [valueOf, h]

theorem setDefault_of_contains {vars : Variables} {name : String}
    (h : Dict.contains name vars = true) (value : String) : setDefault vars name value = vars := by
  simp [setDefault, h]

end DocIndex.Environment

import DocIndex.Pattern.Location
import DocIndex.Proofs.Text.Digit

/-!
# Places and their texts

A place goes on from where another leads, and its text tells it from all others: the points in the text cut it
into the starting point and the names of the members (`Location.eq_of_append_pointed`), and these are the
place's (`Location.text_injective`).
-/

namespace DocIndex.Location

/-! ### Following a place -/

theorem descend_add_one (depth : Nat) (value : Json) :
    descend (depth + 1) value = (descend depth value).bind (Json.member? "access") := by
  induction depth generalizing value with
  | zero =>
    rw [descend, descend, Option.bind_some]
    exact Option.bind_fun_some _
  | succ depth ih =>
    rw [descend, descend, Option.bind_assoc]
    exact congrArg _ (funext ih)

variable {location : Location}

theorem follow_access (h : location.field = none) (view : Json) :
    location.access.follow view = (location.follow view).bind (Json.member? "access") := by
  obtain ⟨root, depth, field⟩ := location
  obtain rfl : field = none := h
  simp only [follow, access, Option.bind_assoc]
  exact congrArg _ (funext fun value => descend_add_one depth value)

theorem follow_member (h : location.field = none) (field : Field) (view : Json) :
    (location.member field).follow view = (location.follow view).bind (Json.member? field.name) := by
  obtain ⟨root, depth, inside⟩ := location
  obtain rfl : inside = none := h
  rfl

/-! ### The text of a place -/

/-- The names that a place may end with. -/
def Field.names : List String := ["transform", "splay", "emit", "invert", "flatten"]

theorem Field.name_mem_names (field : Field) : field.name ∈ names := by
  cases field with
  | transform => decide
  | flag switch => cases switch <;> decide

theorem Field.name_injective {field field' : Field} (h : field.name = field'.name) : field = field' := by
  cases field with
  | transform =>
    cases field' with
    | transform => rfl
    | flag switch' => cases switch' <;> exact absurd h (by decide)
  | flag switch =>
    cases field' with
    | transform => cases switch <;> exact absurd h (by decide)
    | flag switch' => cases switch <;> cases switch' <;> first | rfl | exact absurd h (by decide)

theorem Root.point_not_mem_text (root : Root) : '.' ∉ root.text.toList := by
  cases root with
  | keyPart index =>
    have hdigits : '.' ∉ Text.ofNat index := fun h => absurd (Text.isDigit_of_mem_ofNat h) (by decide)
    simp [text, hdigits]
  | _ => decide

theorem Root.text_injective {root root' : Root} (h : root.text = root'.text) : root = root' := by
  have hchars := congrArg String.toList h
  cases root with
  | keyPart index =>
    cases root' with
    | keyPart index' =>
      have hdigits : Text.ofNat index = Text.ofNat index' := by simpa [text] using hchars
      have hread := Text.natural?_ofNat index
      rw [hdigits, Text.natural?_ofNat] at hread
      rw [Option.some.inj hread]
    | _ => simp [text] at hchars
  | _ => cases root' <;> first | rfl | simp [text] at hchars

/-- The names of the members that a place leads through. -/
def steps (location : Location) : List String :=
  List.replicate location.depth "access" ++ (location.field.map Field.name).toList

theorem count_steps (location : Location) : location.steps.count "access" = location.depth := by
  obtain ⟨root, depth, field⟩ := location
  cases field with
  | none => simp [steps]
  | some field =>
    have hne : field.name ≠ "access" := fun h => absurd (h ▸ field.name_mem_names) (by decide)
    simp [steps, hne]

theorem point_not_mem_steps (location : Location) : ∀ name ∈ location.steps, '.' ∉ name.toList := by
  obtain ⟨root, depth, field⟩ := location
  intro name hname
  rcases List.mem_append.mp hname with haccess | hfield
  · rw [List.eq_of_mem_replicate haccess]
    decide
  · cases field with
    | none => cases hfield
    | some field =>
      rw [List.mem_singleton.mp hfield]
      have hnames : ∀ name ∈ Field.names, '.' ∉ name.toList := by decide
      exact hnames _ field.name_mem_names

/-- Names, each behind a point. -/
def pointed (names : List String) : List Char := names.flatMap fun name => '.' :: name.toList

theorem takeWhile_append_pointed {front : List Char} (h : '.' ∉ front) (names : List String) :
    (front ++ pointed names).takeWhile (· != '.') = front := by
  have hfront : ∀ c ∈ front, (c != '.') = true := fun c hc => bne_iff_ne.mpr fun hpoint => h (hpoint ▸ hc)
  rw [List.takeWhile_append_of_pos hfront]
  cases names <;> simp [pointed]

/-- A text is cut in one way into a front and names behind points, if there is no other point in it. -/
theorem eq_of_append_pointed {front front' : List Char} {names names' : List String}
    (hfront : '.' ∉ front) (hfront' : '.' ∉ front')
    (hnames : ∀ name ∈ names, '.' ∉ name.toList) (hnames' : ∀ name ∈ names', '.' ∉ name.toList)
    (h : front ++ pointed names = front' ++ pointed names') : front = front' ∧ names = names' := by
  induction names generalizing front front' names' with
  | nil =>
    have hsame : front = front' := by
      rw [← takeWhile_append_pointed hfront [], h, takeWhile_append_pointed hfront']
    rw [hsame, List.append_cancel_left_eq] at h
    cases names' with
    | nil => exact ⟨hsame, rfl⟩
    | cons name' names' => cases h
  | cons name names ih =>
    have hsame : front = front' := by
      rw [← takeWhile_append_pointed hfront (name :: names), h, takeWhile_append_pointed hfront']
    rw [hsame, List.append_cancel_left_eq] at h
    cases names' with
    | nil => cases h
    | cons name' names' =>
      -- the next name is the front of what is left
      obtain ⟨hname, hrest⟩ := List.forall_mem_cons.mp hnames
      obtain ⟨hname', hrest'⟩ := List.forall_mem_cons.mp hnames'
      obtain ⟨heq, rfl⟩ := ih hname hname' hrest hrest' (List.cons.inj h).2
      exact ⟨hsame, congrArg (· :: names) (String.toList_inj.mp heq)⟩

theorem accessText_toList (depth : Nat) :
    (accessText depth).toList = pointed (List.replicate depth "access") := by
  induction depth with
  | zero => rfl
  | succ depth ih =>
    rw [accessText, String.toList_append, ih, List.replicate_succ', pointed, pointed, List.flatMap_append]
    rfl

theorem text_toList (location : Location) :
    location.text.toList = location.root.text.toList ++ pointed location.steps := by
  obtain ⟨root, depth, field⟩ := location
  rw [text, String.toList_append, String.toList_append, accessText_toList, List.append_assoc, steps,
    pointed, pointed, List.flatMap_append]
  congr 2
  cases field with
  | none => rfl
  | some field => simp

/-- A text is that of one place. -/
theorem text_injective {location location' : Location} (h : location.text = location'.text) :
    location = location' := by
  have hchars := congrArg String.toList h
  rw [text_toList, text_toList] at hchars
  obtain ⟨hroot, hsteps⟩ := eq_of_append_pointed (Root.point_not_mem_text _) (Root.point_not_mem_text _)
    location.point_not_mem_steps location'.point_not_mem_steps hchars
  have hdepth : location.depth = location'.depth := by rw [← count_steps, hsteps, count_steps]
  obtain ⟨root, depth, field⟩ := location
  obtain ⟨root', depth', field'⟩ := location'
  obtain rfl : depth = depth' := hdepth
  obtain rfl : root = root' := Root.text_injective (String.toList_inj.mp hroot)
  have hfields : (field.map Field.name).toList = (field'.map Field.name).toList :=
    List.append_cancel_left hsteps
  cases field with
  | none =>
    cases field' with
    | none => rfl
    | some field' => cases hfields
  | some field =>
    cases field' with
    | none => cases hfields
    | some field' => rw [Field.name_injective (List.cons.inj hfields).1]

/-- A place inside a view starts from its key, from a part of its key or from its value. -/
def IsInside (location : Location) : Prop :=
  location.root = .key ∨ location.root = .value ∨ ∃ index, location.root = .keyPart index

/-- The text of a place inside a view is not that of the view. -/
theorem text_ne_view {location : Location} (h : location.IsInside) : location.text ≠ "view" := by
  intro htext
  obtain rfl : location = .ofRoot .view := text_injective (htext.trans (by decide))
  rcases h with h | h | ⟨index, h⟩ <;> cases h

/-- How a place inside a view is written. -/
theorem text_eq_of_isInside {location : Location} (h : location.IsInside) :
    ∃ start depth tail, location.text = start ++ accessText depth ++ tail ∧
      (start = "key" ∨ start = "value" ∨
        ∃ index, start = "key[" ++ String.ofList (Text.ofNat index) ++ "]") ∧
      (tail = "" ∨ ∃ name ∈ Field.names, tail = "." ++ name) := by
  obtain ⟨root, depth, field⟩ := location
  refine ⟨root.text, depth, _, rfl, ?_, ?_⟩
  · rcases h with h | h | ⟨index, h⟩
    · exact .inl (congrArg Root.text h)
    · exact .inr (.inl (congrArg Root.text h))
    · exact .inr (.inr ⟨index, congrArg Root.text h⟩)
  · cases field with
    | none => exact .inl rfl
    | some field => exact .inr ⟨field.name, field.name_mem_names, rfl⟩

end DocIndex.Location

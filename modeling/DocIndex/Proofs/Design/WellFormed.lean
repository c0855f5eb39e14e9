import DocIndex.Proofs.Design.Document
import DocIndex.Proofs.Json.Everywhere
import DocIndex.Proofs.Pattern.Decode
import DocIndex.Proofs.Pattern.Equality

/-!
# Well-formed views and design documents

A stored view is well formed as a JSON value if the values inside the view are, and reading, changing
and writing a design document lead from well-formed values to well-formed ones.
-/

namespace DocIndex

open Json (depthMembers depthMembers_le_iff everywhere_obj_iff wellFormed_obj_iff)

/-! ### Dictionaries -/

theorem wellFormed_insert {members : List (String × Json)} (h : (Json.obj members).wellFormed = true)
    (key : String) {value : Json} (hvalue : value.wellFormed = true) :
    (Json.obj (Dict.insert key value members)).wellFormed = true := by
  obtain ⟨hsorted, hmembers⟩ := wellFormed_obj_iff.mp h
  refine wellFormed_obj_iff.mpr ⟨hsorted.insert key value, fun member hmem => ?_⟩
  rcases Dict.mem_insert hmem with rfl | hmem
  · exact hvalue
  · exact hmembers member hmem

theorem wellFormed_filter {members : List (String × Json)} (h : (Json.obj members).wellFormed = true)
    (keep : String × Json → Bool) : (Json.obj (members.filter keep)).wellFormed = true := by
  obtain ⟨hsorted, hmembers⟩ := wellFormed_obj_iff.mp h
  exact wellFormed_obj_iff.mpr
    ⟨hsorted.filter keep, fun member hmem => hmembers member (List.mem_filter.mp hmem).1⟩

theorem wellFormed_of_find? {members : List (String × Json)} (h : (Json.obj members).wellFormed = true)
    {key : String} {value : Json} (hfind : Dict.find? key members = some value) :
    value.wellFormed = true :=
  (wellFormed_obj_iff.mp h).2 (key, value) (Dict.mem_of_find? hfind)

theorem wellFormed_find? {members : List (String × Json)} (h : (Json.obj members).wellFormed = true)
    (key : String) : (Dict.find? key members).all Json.wellFormed = true := by
  cases hfind : Dict.find? key members with
  | none => rfl
  | some value => exact wellFormed_of_find? h hfind

/-- Where all other members are within a limit, a new one decides whether all are. -/
theorem depthMembers_insert_le_iff {members : List (String × Json)} {limit : Nat}
    (h : depthMembers members ≤ limit) (key : String) (value : Json) :
    depthMembers (Dict.insert key value members) ≤ limit ↔ value.depth ≤ limit := by
  rw [depthMembers_le_iff] at h ⊢
  constructor
  · intro hall
    exact hall (key, value) (Dict.mem_of_find? (Dict.find?_insert_self key value members))
  · intro hvalue member hmem
    rcases Dict.mem_insert hmem with rfl | hmem
    · exact hvalue
    · exact h member hmem

theorem depth_le_of_find? {members : List (String × Json)} {limit : Nat}
    (h : depthMembers members ≤ limit) {key : String} {value : Json}
    (hfind : Dict.find? key members = some value) : value.depth ≤ limit :=
  depthMembers_le_iff.mp h (key, value) (Dict.mem_of_find? hfind)

theorem mem_of_mem_present {names : List String} {values : List (Option Json)} {member : String × Json}
    (h : member ∈ present names values) : some member.2 ∈ values := by
  induction names generalizing values with
  | nil => cases h
  | cons name names ih =>
    cases values with
    | nil => cases h
    | cons value values =>
      rcases List.mem_append.mp h with hfirst | hrest
      · cases value with
        | none => cases hfirst
        | some value =>
          obtain rfl := List.mem_singleton.mp hfirst
          exact List.mem_cons_self
      · exact List.mem_cons_of_mem _ (ih hrest)

theorem sorted_present {names : List String}
    (h : names.Pairwise fun a b => precedes a.toList b.toList = true) (values : List (Option Json)) :
    Dict.Sorted (present names values) := by
  induction names generalizing values with
  | nil => exact Dict.sorted_nil
  | cons name names ih =>
    obtain ⟨hname, hnames⟩ := List.pairwise_cons.mp h
    cases values with
    | nil => exact Dict.sorted_nil
    | cons value values =>
      cases value with
      | none => exact ih hnames values
      | some value =>
        exact List.pairwise_cons.mpr
          ⟨fun member hmem => hname member.1 (mem_names_of_mem_present hmem), ih hnames values⟩

/-- Members under names in order are well formed if their values are. -/
theorem wellFormed_present {names : List String}
    (h : names.Pairwise fun a b => precedes a.toList b.toList = true) {values : List (Option Json)}
    (hvalues : values.all (Option.all Json.wellFormed) = true) :
    (Json.obj (present names values)).wellFormed = true := by
  refine wellFormed_obj_iff.mpr ⟨sorted_present h values, fun member hmem => ?_⟩
  exact List.all_eq_true.mp hvalues _ (mem_of_mem_present hmem)

/-! ### Views -/

/-- Whether the values inside a pattern are well formed. -/
def Pattern.wellFormed : Pattern → Bool
  | path _ => true
  | access inner descriptor => inner.wellFormed && descriptor.equals.all Json.wellFormed

/-- Whether the values inside a key are well formed. -/
def KeyPattern.wellFormed : KeyPattern → Bool
  | single pattern => pattern.wellFormed
  | composite parts => parts.all Pattern.wellFormed

/-- Whether the values inside a view are well formed. -/
def View.wellFormed (view : View) : Bool :=
  view.key.wellFormed && view.value.all Pattern.wellFormed && view.reduce.all Json.wellFormed

theorem Pattern.wellFormed_toJson {pattern : Pattern} (h : pattern.wellFormed = true) :
    pattern.toJson.wellFormed = true := by
  induction pattern with
  | path p => rfl
  | access inner d ih =>
    rw [Pattern.wellFormed, Bool.and_eq_true] at h
    have hflag : ∀ on : Bool,
        (if on = true then some (Json.bool true) else none).all Json.wellFormed = true := by
      intro on
      cases on <;> rfl
    have htransform :
        (d.transform.map fun transform => Json.str transform.name).all Json.wellFormed = true := by
      cases d.transform <;> rfl
    rw [toJson, Descriptor.members_eq_present]
    refine wellFormed_present (by decide) ?_
    simp [Descriptor.values, hflag, htransform, h.2, ih h.1]

theorem KeyPattern.wellFormed_toJson {key : KeyPattern} (h : key.wellFormed = true) :
    key.toJson.wellFormed = true := by
  cases key with
  | single pattern => exact Pattern.wellFormed_toJson h
  | composite parts =>
    refine Json.everywhere_arr_iff.mpr ⟨rfl, fun value hmem => ?_⟩
    obtain ⟨part, hpart, rfl⟩ := List.mem_map.mp hmem
    exact Pattern.wellFormed_toJson (List.all_eq_true.mp h part hpart)

theorem View.wellFormed_toDefinition {view : View} (h : view.wellFormed = true) :
    view.toDefinition.wellFormed = true := by
  rw [View.wellFormed, Bool.and_eq_true, Bool.and_eq_true] at h
  obtain ⟨⟨hkey, hvalue⟩, hreduce⟩ := h
  have hmap : (view.value.map Pattern.toJson).all Json.wellFormed = true := by
    cases hpattern : view.value with
    | none => rfl
    | some pattern =>
      rw [hpattern] at hvalue
      exact Pattern.wellFormed_toJson hvalue
  have hpatterns : view.patternsToJson.wellFormed = true := by
    rw [patternsToJson_eq]
    refine wellFormed_present (by decide) ?_
    simp [KeyPattern.wellFormed_toJson hkey, hmap]
  rw [toDefinition_eq]
  refine wellFormed_present (by decide) ?_
  simp [hpatterns, hreduce]

theorem Pattern.wellFormed_of_decodeAt {location : Location} {json : Json}
    (hform : json.wellFormed = true) {pattern : Pattern}
    (h : decodeAt location json = .ok pattern) : pattern.wellFormed = true := by
  induction pattern generalizing location json with
  | path p => rfl
  | access inner d ih =>
    obtain ⟨raw, -, hpath⟩ | ⟨members, value, part, read, rfl, -, haccess, hpart, hread, heq⟩ :=
      decodeAt_eq_ok_iff.mp h
    · cases hpath
    · cases heq
      obtain ⟨-, -, -, hequals, -, -⟩ := decodeDescriptor_eq_ok_iff.mp hread
      rw [Pattern.wellFormed, Bool.and_eq_true]
      refine ⟨ih (wellFormed_of_find? hform haccess) hpart, ?_⟩
      rw [← hequals]
      exact wellFormed_find? hform "equals"

theorem KeyPattern.wellFormed_of_decodeParts {items : List Json}
    (hform : ∀ item ∈ items, item.wellFormed = true) {index : Nat} {parts : List Pattern}
    (h : decodeParts index items = .ok parts) : ∀ part ∈ parts, part.wellFormed = true := by
  induction items generalizing index parts with
  | nil =>
    obtain rfl := decodeParts_eq_ok_nil_iff.mp h
    intro part hmem
    cases hmem
  | cons item items ih =>
    obtain ⟨part, rest, hpart, hrest, rfl⟩ := decodeParts_eq_ok_cons_iff.mp h
    have hitem := Pattern.wellFormed_of_decodeAt (hform item List.mem_cons_self) hpart
    have hitems := ih (fun other hmem => hform other (List.mem_cons_of_mem _ hmem)) hrest
    exact List.forall_mem_cons.mpr ⟨hitem, hitems⟩

theorem KeyPattern.wellFormed_of_ofJson {json : Json} (hform : json.wellFormed = true)
    {key : KeyPattern} (h : ofJson json = .ok key) : key.wellFormed = true := by
  rcases ofJson_eq_ok_iff.mp h with ⟨items, parts, rfl, hparts, rfl⟩ | ⟨pattern, hpattern, rfl⟩
  · exact List.all_eq_true.mpr (wellFormed_of_decodeParts (Json.everywhere_arr_iff.mp hform).2 hparts)
  · exact Pattern.wellFormed_of_decodeAt hform hpattern

/-- A view that is read from a well-formed value is well formed. -/
theorem View.wellFormed_of_ofJson {json : Json} (hform : json.wellFormed = true) {view : View}
    (h : View.ofJson json = .ok view) : view.wellFormed = true := by
  obtain ⟨members, key, rfl, -, hkey, hread, hvalue, hreduce⟩ := ofJson_eq_ok_iff.mp h
  rw [View.wellFormed, Bool.and_eq_true, Bool.and_eq_true]
  refine ⟨⟨KeyPattern.wellFormed_of_ofJson (wellFormed_of_find? hform hkey) hread, ?_⟩, ?_⟩
  · obtain ⟨-, hnone⟩ | ⟨x, pattern, hfind, -, hpattern, hsome⟩ := decodeValue_eq_ok_iff.mp hvalue
    · rw [hnone]
      rfl
    · rw [hsome]
      exact Pattern.wellFormed_of_decodeAt (wellFormed_of_find? hform hfind) hpattern
  · have hfound := wellFormed_find? hform "reduce"
    rw [← hreduce, decodeReduce]
    cases hfind : Dict.find? "reduce" members with
    | none => rfl
    | some value =>
      rw [hfind] at hfound
      rw [Option.filter_some]
      split
      · exact hfound
      · rfl

/-! ### Design documents -/

/-- The views and the other members of a design document are well formed. -/
structure DesignDocument.WellFormed (doc : DesignDocument) : Prop where
  /-- The views are. -/
  views : (Json.obj doc.views).wellFormed = true
  /-- The other members are. -/
  other : (Json.obj doc.other).wellFormed = true

namespace DesignDocument

theorem wellFormed_new (group : String) : (new group).WellFormed := ⟨rfl, rfl⟩

theorem wellFormed_of_ofJson {document : Json} {doc : DesignDocument} (h : ofJson document = .ok doc)
    (hdocument : document.wellFormed = true) : doc.WellFormed := by
  obtain ⟨members, rfl⟩ := exists_members_of_ofJson h
  obtain ⟨-, -, hviews, hother⟩ := ofJson_eq_ok_iff.mp h
  refine ⟨?_, hother ▸ wellFormed_filter hdocument _⟩
  cases hfind : Dict.find? "views" members with
  | none =>
    rw [hfind, readViews, Except.ok.injEq] at hviews
    rw [← hviews]
    rfl
  | some value =>
    have hvalue := wellFormed_of_find? hdocument hfind
    rw [hfind, readViews] at hviews
    cases value with
    | obj views =>
      rw [Json.asMap, Except.ok.injEq] at hviews
      rw [← hviews]
      exact hvalue
    | _ => cases hviews

theorem WellFormed.toJson {doc : DesignDocument} (h : doc.WellFormed) : doc.toJson.wellFormed = true := by
  have hviews := wellFormed_insert h.other "views" h.views
  refine wellFormed_insert ?_ "_id" rfl
  cases doc.rev with
  | none => exact hviews
  | some rev => exact wellFormed_insert hviews "_rev" rfl

end DesignDocument

end DocIndex

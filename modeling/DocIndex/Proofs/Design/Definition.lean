import DocIndex.Design.Definition
import DocIndex.Proofs.Pattern.Normal

/-!
# Stored views, written back

A stored view that was read is written with its `map` in normal form and its `reduce`, if that is not `null`
(`definition_written_back`). The `map` is read as a whole view, so that a `reduce` in it is accepted as well; it is
the one member that is neither kept nor refused.
-/

namespace DocIndex.View

/-- What is left of a member of a `map`: a value that is `null` says nothing. -/
def normalMapMember (name : String) (value : Json) : Option Json :=
  if name = "reduce" then some value else normalMember name value

/-- A `map` without the members that spell out a default. -/
def normalMap : Json → Json
  | .obj members => .obj (Dict.filterMap normalMapMember members)
  | value => value

/-- Without a reduce, a `map` has the normal form of a view. -/
theorem normalMap_eq_normal {map : List (String × Json)} (h : Dict.Sorted map)
    (hreduce : Dict.find? "reduce" map = none) : normalMap (.obj map) = normal (.obj map) := by
  rw [normalMap, normal]
  congr 1
  refine (h.filterMap _).ext (h.filterMap _) fun name => ?_
  rw [Dict.find?_filterMap h, Dict.find?_filterMap h]
  by_cases hname : name = "reduce"
  · rw [hname, hreduce]
    rfl
  · cases Dict.find? name map with
    | none => rfl
    | some value => exact if_neg hname

/-- A view is read without its reduce when that is left out. -/
theorem ofJson_erase_reduce {map : List (String × Json)} {view : View} (h : View.ofJson (.obj map) = .ok view) :
    View.ofJson (.obj (Dict.erase "reduce" map)) = .ok { view with reduce := none } := by
  obtain ⟨_, key, ⟨⟩, hknown, hkey, hread, hvalue, -⟩ := ofJson_eq_ok_iff.mp h
  refine ofJson_eq_ok_iff.mpr ⟨_, key, rfl, ?_, ?_, hread, ?_, ?_⟩
  · exact firstUnknown_eq_none fun member hmem =>
      mem_of_firstUnknown hknown (List.mem_filter.mp hmem).1
  · rw [Dict.find?_erase_of_ne (by decide), hkey]
  · rw [Dict.find?_erase_of_ne (by decide), hvalue]
  · rw [Dict.find?_erase_self]
    rfl

/-- The patterns of a `map` are written in normal form, without its reduce. -/
theorem patternsToJson_of_ofJson {map : List (String × Json)} (hform : (Json.obj map).wellFormed = true)
    {view : View} (h : View.ofJson (.obj map) = .ok view) :
    view.patternsToJson = normalMap (.obj (Dict.erase "reduce" map)) := by
  have hwritten : view.patternsToJson = normal (.obj (Dict.erase "reduce" map)) :=
    toJson_of_ofJson (wellFormed_filter hform _) (ofJson_erase_reduce h)
  rw [hwritten, normalMap_eq_normal ((Json.wellFormed_obj_iff.mp hform).1.erase "reduce")
    (Dict.find?_erase_self "reduce" map)]

/-- It is the reduce of a `map` that its normal form loses when that is left out. -/
theorem normalMap_erase_reduce_eq_iff {map : List (String × Json)} (h : Dict.Sorted map) :
    normalMap (.obj (Dict.erase "reduce" map)) = normalMap (.obj map) ↔ Dict.find? "reduce" map = none := by
  constructor
  · intro heq
    have hfind := congrArg (Json.member? "reduce") heq
    simp only [normalMap, Json.member?] at hfind
    rw [Dict.find?_filterMap (h.erase "reduce"), Dict.find?_filterMap h, Dict.find?_erase_self] at hfind
    cases hreduce : Dict.find? "reduce" map with
    | none => rfl
    | some reduce =>
      rw [hreduce] at hfind
      cases hfind
  · intro hreduce
    have hsame : Dict.erase "reduce" map = map := (h.erase "reduce").ext h fun name => by
      by_cases hname : name = "reduce"
      · rw [hname, hreduce, Dict.find?_erase_self]
      · rw [Dict.find?_erase_of_ne hname]
    rw [hsame]

/-- An object is read as a stored view if its `map` is read as a view, of which the reduce is then the one beside
the `map`. -/
theorem ofDefinition_obj_eq_ok_iff {members : List (String × Json)} {view : View} :
    ofDefinition (.obj members) = .ok view ↔
      ∃ map read, Dict.find? "map" members = some map ∧ View.ofJson map = .ok read ∧
        view = { read with reduce := decodeReduce (Dict.find? "reduce" members) } := by
  simp only [ofDefinition]
  cases Dict.find? "map" members with
  | none => simp
  | some map =>
    simp only [ofMap]
    cases hread : View.ofJson map with
    | error error => simp [hread]
    | ok read => simp [hread, eq_comm]

/-- **A stored view is written back as it was read, but for a reduce inside its `map`.** Let an object be read as
a stored view. Its `map` is an object that has no other members than a key, a value and a reduce. What is written
has the key and the value of the `map` in normal form, and the reduce that stands beside the `map`, unless this is
`null`. So all of the `map` is there but the defaults, exactly if it has no reduce. -/
theorem definition_written_back {members : List (String × Json)} (hform : (Json.obj members).wellFormed = true)
    {view : View} (h : ofDefinition (.obj members) = .ok view) :
    ∃ map, Dict.find? "map" members = some (.obj map) ∧
      (∀ name ∈ Dict.keys map, name ∈ ["key", "value", "reduce"]) ∧
      view.toDefinition = .obj (("map", normalMap (.obj (Dict.erase "reduce" map))) ::
        optionalMember "reduce" ((Dict.find? "reduce" members).filter fun reduce => !reduce.isNull)) ∧
      (view.toDefinition.member? "map" = some (normalMap (.obj map)) ↔ "reduce" ∉ Dict.keys map) := by
  obtain ⟨json, read, hmap, hread, rfl⟩ := ofDefinition_obj_eq_ok_iff.mp h
  obtain ⟨map, _, rfl, hknown, -⟩ := ofJson_eq_ok_iff.mp hread
  have hmapForm := wellFormed_of_find? hform hmap
  have hwritten := patternsToJson_of_ofJson hmapForm hread
  refine ⟨map, hmap, fun name hname => ?_, ?_, ?_⟩
  · obtain ⟨member, hmem, rfl⟩ := List.mem_map.mp hname
    exact mem_of_firstUnknown hknown hmem
  · rw [← hwritten]
    rfl
  · have hmember : (View.toDefinition
        { read with reduce := decodeReduce (Dict.find? "reduce" members) }).member? "map" =
        some read.patternsToJson := rfl
    rw [hmember, hwritten, Option.some_inj,
      normalMap_erase_reduce_eq_iff (Json.wellFormed_obj_iff.mp hmapForm).1, Dict.mem_keys_iff, Dict.contains]
    simp

/-- A stored view that spells out defaults, with a reduce beside its `map`. -/
def wordyDefinition : List (String × Json) :=
  [("map", .obj [("key", .arr [.obj [("access", .str "a"), ("emit", .bool true), ("equals", .null),
      ("flatten", .bool false)]]), ("value", .null)]), ("note", .num (.int 1)), ("reduce", .str "_count")]

/-- Its defaults go, and the reduce and the tested `null` stay. -/
theorem written_wordyDefinition : ∃ view, ofDefinition (.obj wordyDefinition) = .ok view ∧
    view.toDefinition = .obj [("map", .obj [("key", .arr [.obj [("access", .str "a"), ("emit", .bool true),
      ("equals", .null)]])]), ("reduce", .str "_count")] := by
  have hform : (Json.obj wordyDefinition).wellFormed = true := by decide +kernel
  have hread : ofDefinition (.obj wordyDefinition) = .ok ⟨.composite [.access (.path ⟨"a"⟩)
      { Descriptor.none with emit := true, equals := some .null }], none, some (.str "_count")⟩ := rfl
  obtain ⟨map, hmap, -, hwritten, -⟩ := definition_written_back hform hread
  obtain rfl := Json.obj.inj (Option.some.inj hmap)
  exact ⟨_, hread, hwritten.trans rfl⟩

/-- A reduce inside the `map` is taken without complaint, and is gone afterwards. -/
theorem written_reduce_in_map : ∃ view,
    ofDefinition (.obj [("map", .obj [("key", .str "a"), ("reduce", .str "_count")])]) = .ok view ∧
      view.toDefinition = .obj [("map", .obj [("key", .str "a")])] :=
  ⟨⟨.single (.path ⟨"a"⟩), none, none⟩, rfl, rfl⟩

end DocIndex.View

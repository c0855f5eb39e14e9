import DocIndex.Proofs.Pattern.Normal

/-!
# How deep a stored view nests

Leaving defaults out makes no value deeper, and the stored form of a view puts one object around its
patterns. So a view that was read is stored at most one level deeper than it was (`depth_toDefinition_le`).
-/

namespace DocIndex

open Json (depthMembers depthMembers_le_iff depthItems_le_iff)

/-! ### Normal forms -/

namespace Pattern

mutual

theorem depth_normal_le : ∀ json : Json, (normal json).depth ≤ json.depth
  | .obj members => by
    rw [normal, Json.depth, Json.depth]
    exact Nat.succ_le_succ (depthMembers_normalMembers_le members)
  | .null | .bool _ | .num _ | .str _ | .arr _ => Nat.le_refl _

theorem depthMembers_normalMembers_le :
    ∀ members : List (String × Json), depthMembers (normalMembers members) ≤ depthMembers members
  | [] => Nat.le_refl _
  | (name, value) :: members => by
    have hvalue := depth_normal_le value
    have hmembers := depthMembers_normalMembers_le members
    rw [normalMembers, depthMembers]
    split
    · exact Nat.le_trans hmembers (Nat.le_max_right _ _)
    · rw [depthMembers]
      split <;> omega

end

end Pattern

theorem KeyPattern.depth_normal_le (json : Json) : (normal json).depth ≤ json.depth := by
  cases json with
  | arr items =>
    refine Nat.succ_le_succ (depthItems_le_iff.mpr fun x hmem => ?_)
    obtain ⟨item, hitem, rfl⟩ := List.mem_map.mp hmem
    exact Nat.le_trans (Pattern.depth_normal_le item) (depthItems_le_iff.mp (Nat.le_refl _) item hitem)
  | _ => exact Pattern.depth_normal_le _

namespace View

theorem depth_le_of_normalMember {name : String} {value left : Json}
    (h : normalMember name value = some left) : left.depth ≤ value.depth := by
  unfold normalMember at h
  split at h
  · cases h
  split at h
  · obtain rfl := Option.some.inj h
    exact KeyPattern.depth_normal_le value
  split at h
  · obtain rfl := Option.some.inj h
    exact Pattern.depth_normal_le value
  · obtain rfl := Option.some.inj h
    exact Nat.le_refl _

theorem depth_normal_le (json : Json) : (normal json).depth ≤ json.depth := by
  cases json with
  | obj members =>
    refine Nat.succ_le_succ (depthMembers_le_iff.mpr fun member hmem => ?_)
    obtain ⟨value, hvalue, hleft⟩ := Dict.mem_filterMap hmem
    exact Nat.le_trans (depth_le_of_normalMember hleft)
      (depthMembers_le_iff.mp (Nat.le_refl _) (member.1, value) hvalue)
  | _ => exact Nat.le_refl _

/-! ### Stored forms -/

/-- The stored form of a view is at most one level deeper than its JSON form. -/
theorem depth_toDefinition_le_succ (view : View) : view.toDefinition.depth ≤ view.toJson.depth + 1 := by
  obtain ⟨key, value, reduce⟩ := view
  cases value <;> cases reduce <;>
    simp only [toDefinition, patternsToJson, toJson, optionalMember, Json.depth, depthMembers,
      List.cons_append, List.nil_append, Option.map] <;> omega

/-- A view that was read is stored at most one level deeper than it was. -/
theorem depth_toDefinition_le {json : Json} (hform : json.wellFormed = true) {view : View}
    (h : View.ofJson json = .ok view) : view.toDefinition.depth ≤ json.depth + 1 := by
  have hwritten := depth_normal_le json
  rw [← toJson_of_ofJson hform h] at hwritten
  exact Nat.le_trans view.depth_toDefinition_le_succ (Nat.succ_le_succ hwritten)

end View

end DocIndex

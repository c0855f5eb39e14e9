import DocIndex.Proofs.Text.Order

/-!
# Dictionaries under updates

What the updates of a dictionary do to its bindings as a list: which keys are bound, which bindings a
selection by key picks out, and that the keys stay in ascending order. Of two dictionaries in order
that bind the same values the lists are the same (`Sorted.ext`).
-/

namespace DocIndex.Dict

universe u

variable {α : Type u}

theorem find?_eq_none {key : String} {bindings : List (String × α)}
    (h : ∀ binding ∈ bindings, binding.1 ≠ key) : find? key bindings = none := by
  induction bindings with
  | nil => rfl
  | cons binding rest ih =>
    obtain ⟨k, v⟩ := binding
    rw [find?, if_neg (h (k, v) List.mem_cons_self)]
    exact ih fun b hb => h b (List.mem_cons_of_mem _ hb)

theorem find?_append (key : String) (bindings others : List (String × α)) :
    find? key (bindings ++ others) = (find? key bindings).or (find? key others) := by
  induction bindings with
  | nil => rfl
  | cons binding rest ih =>
    obtain ⟨k, v⟩ := binding
    rw [List.cons_append, find?, find?]
    split
    · rfl
    · exact ih

/-- The value of a key is the value of a binding. -/
theorem mem_of_find? {key : String} {value : α} {bindings : List (String × α)}
    (h : find? key bindings = some value) : (key, value) ∈ bindings := by
  induction bindings with
  | nil => cases h
  | cons binding rest ih =>
    obtain ⟨k, v⟩ := binding
    unfold find? at h
    split at h
    · rename_i hk
      rw [Option.some.injEq] at h
      exact hk ▸ h ▸ List.mem_cons_self
    · exact List.mem_cons_of_mem _ (ih h)

/-- After an update the key has its new value, and every other key the one that it had. -/
theorem find?_insert (key : String) (value : α) (bindings : List (String × α)) (other : String) :
    find? other (insert key value bindings) = if other = key then some value else find? other bindings := by
  split
  · rename_i h
    rw [h, find?_insert_self]
  · rename_i h
    exact find?_insert_of_ne h value bindings

/-- Binding a key changes no selection that leaves the key out. -/
theorem filter_insert {key : String} {keep : String → Bool} (h : keep key = false) (value : α)
    (bindings : List (String × α)) :
    (insert key value bindings).filter (fun binding => keep binding.1) =
      bindings.filter fun binding => keep binding.1 := by
  induction bindings with
  | nil => simp [insert, h]
  | cons binding rest ih =>
    obtain ⟨k, v⟩ := binding
    unfold insert
    split
    · rename_i hk
      subst hk
      simp [h]
    · split
      · simp [h]
      · simp [List.filter_cons, ih]

/-- A selection by key that keeps a key keeps its value. -/
theorem find?_filter {key : String} {keep : String → Bool} (h : keep key = true)
    (bindings : List (String × α)) :
    find? key (bindings.filter fun binding => keep binding.1) = find? key bindings := by
  induction bindings with
  | nil => rfl
  | cons binding rest ih =>
    obtain ⟨k, v⟩ := binding
    by_cases hk : k = key
    · subst hk
      simp only [List.filter_cons, h, if_true, find?]
    · rw [find?, if_neg hk, ← ih, List.filter_cons]
      split
      · rw [find?, if_neg hk]
      · rfl

/-! ### Order -/

/-- The keys ascend, so that each is bound once. -/
def Sorted (bindings : List (String × α)) : Prop :=
  bindings.Pairwise fun a b => precedes a.1.toList b.1.toList = true

instance (bindings : List (String × α)) : Decidable (Sorted bindings) :=
  inferInstanceAs (Decidable (bindings.Pairwise fun a b => precedes a.1.toList b.1.toList = true))

theorem sorted_nil : Sorted ([] : List (String × α)) := List.Pairwise.nil

theorem key_ne_of_precedes {a b : String} (h : precedes a.toList b.toList = true) : a ≠ b := by
  rintro rfl
  rw [precedes_irrefl] at h
  cases h

theorem Sorted.nodup {bindings : List (String × α)} (h : Sorted bindings) : bindings.Nodup :=
  List.Pairwise.imp (fun hlt heq => key_ne_of_precedes hlt (congrArg Prod.fst heq)) h

theorem mem_insert {key : String} {value : α} {bindings : List (String × α)} {binding : String × α}
    (h : binding ∈ insert key value bindings) : binding = (key, value) ∨ binding ∈ bindings := by
  induction bindings with
  | nil => exact .inl (List.mem_singleton.mp h)
  | cons first rest ih =>
    obtain ⟨k, v⟩ := first
    unfold insert at h
    split at h
    · exact (List.mem_cons.mp h).imp_right (List.mem_cons_of_mem _)
    · split at h
      · exact List.mem_cons.mp h
      · rcases List.mem_cons.mp h with rfl | hrest
        · exact .inr List.mem_cons_self
        · exact (ih hrest).imp_right (List.mem_cons_of_mem _)

theorem Sorted.insert {bindings : List (String × α)} (h : Sorted bindings) (key : String) (value : α) :
    Sorted (insert key value bindings) := by
  induction bindings with
  | nil => exact List.pairwise_singleton _ _
  | cons binding rest ih =>
    obtain ⟨k, v⟩ := binding
    obtain ⟨hfirst, hrest⟩ := List.pairwise_cons.mp h
    unfold Dict.insert
    split
    · rename_i hk
      subst hk
      exact List.pairwise_cons.mpr ⟨hfirst, hrest⟩
    · rename_i hk
      split
      · rename_i hlt
        refine List.pairwise_cons.mpr ⟨fun other hmem => ?_, h⟩
        rcases List.mem_cons.mp hmem with rfl | hmem
        · exact hlt
        · exact precedes_trans hlt (hfirst other hmem)
      · rename_i hnlt
        refine List.pairwise_cons.mpr ⟨fun other hmem => ?_, ih hrest⟩
        rcases mem_insert hmem with rfl | hmem
        · rcases precedes_trichotomy key.toList k.toList with hlt | heq | hgt
          · exact absurd hlt hnlt
          · exact absurd (String.toList_inj.mp heq).symm hk
          · exact hgt
        · exact hfirst other hmem

theorem Sorted.erase {bindings : List (String × α)} (h : Sorted bindings) (key : String) :
    Sorted (erase key bindings) := h.filter _

theorem insert_eq_append {key : String} {bindings : List (String × α)}
    (h : ∀ binding ∈ bindings, precedes binding.1.toList key.toList = true) (value : α) :
    Dict.insert key value bindings = bindings ++ [(key, value)] := by
  induction bindings with
  | nil => rfl
  | cons binding rest ih =>
    obtain ⟨k, v⟩ := binding
    have hlt := h (k, v) List.mem_cons_self
    have hnlt : precedes key.toList k.toList ≠ true := fun hgt =>
      key_ne_of_precedes (precedes_trans hlt hgt) rfl
    rw [Dict.insert, if_neg (key_ne_of_precedes hlt), if_neg hnlt,
      ih fun b hb => h b (List.mem_cons_of_mem _ hb), List.cons_append]

/-- Bindings in order are the dictionary that they give. -/
theorem Sorted.ofList_eq {bindings : List (String × α)} (h : Sorted bindings) :
    ofList bindings = bindings := by
  have hfold : ∀ dict : List (String × α), Sorted (dict ++ bindings) →
      bindings.foldl (fun dict binding => Dict.insert binding.1 binding.2 dict) dict =
        dict ++ bindings := by
    clear h
    induction bindings with
    | nil => exact fun dict _ => (List.append_nil dict).symm
    | cons binding rest ih =>
      intro dict hsorted
      have hbefore : ∀ other ∈ dict, precedes other.1.toList binding.1.toList = true :=
        fun other hmem => (List.pairwise_append.mp hsorted).2.2 other hmem binding List.mem_cons_self
      rw [List.foldl_cons, insert_eq_append hbefore, ih, List.append_assoc]
      · rfl
      · rwa [List.append_assoc]
  exact hfold [] h

/-- In order, every binding is found under its key. -/
theorem Sorted.find?_eq_some_iff {bindings : List (String × α)} (h : Sorted bindings) {key : String}
    {value : α} : find? key bindings = some value ↔ (key, value) ∈ bindings := by
  refine ⟨mem_of_find?, fun hmem => ?_⟩
  induction bindings with
  | nil => cases hmem
  | cons binding rest ih =>
    obtain ⟨k, v⟩ := binding
    obtain ⟨hfirst, hrest⟩ := List.pairwise_cons.mp h
    rcases List.mem_cons.mp hmem with heq | hmem
    · obtain ⟨rfl, rfl⟩ := Prod.mk.inj heq
      exact if_pos rfl
    · rw [find?, if_neg (key_ne_of_precedes (hfirst _ hmem))]
      exact ih hrest hmem

theorem mem_keys_iff {key : String} {bindings : List (String × α)} :
    key ∈ keys bindings ↔ contains key bindings = true := by
  induction bindings with
  | nil => simp [keys, contains]
  | cons binding rest ih =>
    obtain ⟨k, v⟩ := binding
    simp only [keys, contains, List.map_cons, List.mem_cons, find?] at ih ⊢
    by_cases hk : k = key
    · simp [hk]
    · simp [hk, Ne.symm hk, ih]

/-- Dictionaries that bind the same values to the same keys are the same list. -/
theorem Sorted.ext {xs ys : List (String × α)} (hxs : Sorted xs) (hys : Sorted ys)
    (h : ∀ key, find? key xs = find? key ys) : xs = ys := by
  have hmem : ∀ binding, binding ∈ xs ↔ binding ∈ ys := fun binding => by
    rw [← hxs.find?_eq_some_iff, h, hys.find?_eq_some_iff]
  have hperm : xs.Perm ys := (List.perm_ext_iff_of_nodup hxs.nodup hys.nodup).mpr hmem
  exact hperm.eq_of_pairwise (fun a b _ _ hab hba =>
    absurd rfl (key_ne_of_precedes (precedes_trans hab hba))) hxs hys

/-! ### Bindings left out or given another value -/

section FilterMap

variable {β : Type u} {f : String → α → Option β}

/-- The bindings with the values that a function gives them; those without one are left out. -/
def filterMap (f : String → α → Option β) (bindings : List (String × α)) : List (String × β) :=
  bindings.filterMap fun binding => (f binding.1 binding.2).map fun value => (binding.1, value)

theorem mem_filterMap {bindings : List (String × α)} {binding : String × β}
    (h : binding ∈ filterMap f bindings) :
    ∃ value, (binding.1, value) ∈ bindings ∧ f binding.1 value = some binding.2 := by
  obtain ⟨⟨key, value⟩, hmem, hvalue⟩ := List.mem_filterMap.mp h
  obtain ⟨found, hfound, rfl⟩ := Option.map_eq_some_iff.mp hvalue
  exact ⟨value, hmem, hfound⟩

theorem Sorted.filterMap {bindings : List (String × α)} (h : Sorted bindings)
    (f : String → α → Option β) : Sorted (Dict.filterMap f bindings) := by
  refine List.pairwise_filterMap.mpr (List.Pairwise.imp ?_ h)
  intro a b hlt x hx y hy
  obtain ⟨v, -, rfl⟩ := Option.map_eq_some_iff.mp hx
  obtain ⟨w, -, rfl⟩ := Option.map_eq_some_iff.mp hy
  exact hlt

theorem find?_filterMap {bindings : List (String × α)} (h : Sorted bindings) (key : String) :
    find? key (filterMap f bindings) = (find? key bindings).bind (f key) := by
  refine Option.ext fun value => ?_
  rw [(h.filterMap f).find?_eq_some_iff, Option.bind_eq_some_iff]
  constructor
  · intro hmem
    obtain ⟨found, hfound, hvalue⟩ := mem_filterMap hmem
    exact ⟨found, h.find?_eq_some_iff.mpr hfound, hvalue⟩
  · rintro ⟨found, hfound, hvalue⟩
    refine List.mem_filterMap.mpr ⟨(key, found), mem_of_find? hfound, ?_⟩
    exact Option.map_eq_some_iff.mpr ⟨value, hvalue, rfl⟩

end FilterMap

section MapValues

variable {β : Type u} (f : α → β)

/-- The bindings with every value replaced. -/
def mapValues (bindings : List (String × α)) : List (String × β) :=
  bindings.map fun binding => (binding.1, f binding.2)

theorem find?_mapValues (key : String) (bindings : List (String × α)) :
    find? key (mapValues f bindings) = (find? key bindings).map f := by
  induction bindings with
  | nil => rfl
  | cons binding rest ih =>
    obtain ⟨k, v⟩ := binding
    rw [mapValues, List.map_cons, find?, find?]
    split
    · rfl
    · exact ih

theorem keys_mapValues (bindings : List (String × α)) : keys (mapValues f bindings) = keys bindings :=
  List.map_map

theorem Sorted.mapValues {bindings : List (String × α)} (h : Sorted bindings) :
    Sorted (mapValues f bindings) :=
  List.pairwise_map.mpr h

end MapValues

/-! ### Dictionaries of lists -/

theorem mem_ofList {bindings : List (String × α)} {binding : String × α}
    (h : binding ∈ ofList bindings) : binding ∈ bindings := by
  have hfold : ∀ dict : List (String × α),
      binding ∈ bindings.foldl (fun dict binding => Dict.insert binding.1 binding.2 dict) dict →
        binding ∈ dict ∨ binding ∈ bindings := by
    clear h
    induction bindings with
    | nil => exact fun dict h => .inl h
    | cons first rest ih =>
      intro dict h
      rcases ih _ h with hdict | hrest
      · rcases mem_insert hdict with rfl | hold
        · exact .inr List.mem_cons_self
        · exact .inl hold
      · exact .inr (List.mem_cons_of_mem _ hrest)
  rcases hfold [] h with hnil | hmem
  · cases hnil
  · exact hmem

theorem sorted_ofList (bindings : List (String × α)) : Sorted (ofList bindings) := by
  have hfold : ∀ dict : List (String × α), Sorted dict →
      Sorted (bindings.foldl (fun dict binding => Dict.insert binding.1 binding.2 dict) dict) := by
    induction bindings with
    | nil => exact fun dict h => h
    | cons first rest ih => exact fun dict h => ih _ (h.insert first.1 first.2)
  exact hfold [] sorted_nil

end DocIndex.Dict

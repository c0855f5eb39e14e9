import DocIndex.Proofs.Pattern.Equality
import DocIndex.Proofs.Store.Request

/-!
# A manager as a table of views

Seen from outside, a manager over a memory store is a finite map from groups and names to views:
`Table.next` says what a change does to the map and `Table.Answers` what a request answers on it. The
store represents the map by one design document for each group that was ever written (`Represents`);
every request keeps that up and answers as the map does (`serve_answers`).
-/

namespace DocIndex.Manager

open Documents (stamp WellKept)

/-! ### The table -/

/-- The views by their groups and names. -/
abbrev Table := String → String → Option View

namespace Table

/-- The table without views. -/
def empty : Table := fun _ _ => none

/-- The table with a name of a group bound to a view, or to none. -/
def set (table : Table) (group name : String) (view : Option View) : Table :=
  fun g n => if g = group ∧ n = name then view else table g n

/-- The table after a change. -/
def next (table : Table) : Change → Table
  | .add group name view =>
    if (table group name).isSome then table else table.set group name (some view)
  | .put group name view =>
    if (table group name).any (· == view) then table else table.set group name (some view)
  | .remove group name => table.set group name none

/-- What a change answers. -/
def Changes (table : Table) : Change → Except ManagerError PutOutcome → Prop
  | .add group name _, result =>
    if (table group name).isSome then result = .error (.duplicateView group name)
    else ∃ rev, result = .ok (.written rev)
  | .put group name view, result =>
    if (table group name).any (· == view) then result = .ok .unchanged
    else ∃ rev, result = .ok (.written rev)
  | .remove group name, result =>
    if (table group name).isSome then ∃ rev, result = .ok (.written rev)
    else result = .error (.missingView group name)

/-- What loading a view answers when this is bound: none if nothing is, and else a view that gives the
rows and the reduce of the bound one. -/
def Views (options : Options) (bound : Option View) (result : Except ManagerError (Option CompiledView)) :
    Prop :=
  match bound with
  | none => result = .ok none
  | some view => ∃ compiled, result = .ok (some compiled) ∧
      (∀ document, compiled.rows document = (view.compile options).rows document) ∧
      compiled.reduce = (view.compile options).reduce

/-- What listing a group answers: the bound names, in the order of their bytes. -/
def Lists (table : Table) (group : String) (result : Except ManagerError (List String)) : Prop :=
  ∃ names, result = .ok names ∧
    names.Pairwise (fun a b => a.toUTF8.data.toList < b.toUTF8.data.toList) ∧
    ∀ name, name ∈ names ↔ (table group name).isSome = true

/-- Whether an answer is that of the table. -/
def Answers (options : Options) (table : Table) : Request → Answer → Prop
  | .change _ change, .change result => table.Changes change result
  | .view group name, .view result => Views options (table group name) result
  | .list group, .list result => table.Lists group result
  | _, _ => False

/-- The table after a request. -/
def after (table : Table) : Request → Table
  | .change _ change => table.next change
  | _ => table

/-- Whether answers are those of the table, one request after another. -/
def AnswersAll (options : Options) : Table → List Request → List Answer → Prop
  | _, [], [] => True
  | table, request :: requests, answer :: answers =>
    table.Answers options request answer ∧ (table.after request).AnswersAll options requests answers
  | _, _, _ => False

theorem set_eq_self {table : Table} {group name : String} (h : table group name = none) :
    table.set group name none = table := by
  funext g n
  by_cases hboth : g = group ∧ n = name
  · obtain ⟨rfl, rfl⟩ := hboth
    simp [set, h]
  · simp [set, hboth]

theorem next_of_ne {table : Table} {change : Change} {group : String} (h : group ≠ change.group) :
    table.next change group = table group := by
  funext name
  cases change with
  | add _ _ _ => simp only [next]; split <;> simp_all [set, Change.group]
  | put _ _ _ => simp only [next]; split <;> simp_all [set, Change.group]
  | remove _ _ => simp_all [next, set, Change.group]

end Table

/-- The view that a change brings, if any, has no reduce that is an explicit `null`, which would be
stored as none. -/
def Change.Proper : Change → Prop
  | add _ _ view | put _ _ view => view.reduce ≠ some .null
  | remove _ _ => True

/-- No view of a table has a reduce that is an explicit `null`. -/
def Table.Proper (table : Table) : Prop :=
  ∀ group name view, table group name = some view → view.reduce ≠ some .null

theorem Table.Proper.set {table : Table} (h : table.Proper) {view : Option View}
    (hview : ∀ v, view = some v → v.reduce ≠ some .null) (group name : String) :
    (table.set group name view).Proper := by
  intro g n v hv
  unfold Table.set at hv
  split at hv
  · exact hview v hv
  · exact h g n v hv

theorem Table.Proper.next {table : Table} (h : table.Proper) {change : Change} (hchange : change.Proper) :
    (table.next change).Proper := by
  have hview : ∀ view : View, view.reduce ≠ some .null →
      ∀ v, some view = some v → v.reduce ≠ some .null := by
    intro view hproper v hv
    exact Option.some.inj hv ▸ hproper
  cases change with
  | add group name view =>
    simp only [Table.next]
    split
    · exact h
    · exact h.set (hview view hchange) group name
  | put group name view =>
    simp only [Table.next]
    split
    · exact h
    · exact h.set (hview view hchange) group name
  | remove group name => exact h.set (by simp) group name

/-- Any change that a request makes is proper. -/
def Request.Proper : Request → Prop
  | change _ operation => operation.Proper
  | _ => True

/-! ### Revising a design document -/

/-- A design document keeps the views of a group. -/
structure Keeps (design : DesignDocument) (views : String → Option View) : Prop where
  /-- The names are in order. -/
  sorted : Dict.Sorted design.views
  /-- Each name has the stored form of its view. -/
  find? : ∀ name, Dict.find? name design.views = (views name).map View.toDefinition

namespace Keeps

variable {design : DesignDocument} {table : Table} {group : String}

theorem hasView_eq {views : String → Option View} (h : Keeps design views) (name : String) :
    design.hasView name = (views name).isSome := by
  rw [DesignDocument.hasView, Dict.contains, h.find?, Option.isSome_map]

theorem any_eq {views : String → Option View} (h : Keeps design views) (name : String) (view : View) :
    (Dict.find? name design.views).any (· == view.toDefinition) = (views name).any (· == view) := by
  rw [h.find?]
  cases views name with
  | none => rfl
  | some found => exact View.toDefinition_beq found view

theorem withView (h : Keeps design (table group)) (name : String) (view : View) :
    Keeps (withView design name view) (table.set group name (some view) group) := by
  refine ⟨h.sorted.insert name _, fun other => ?_⟩
  by_cases hname : other = name
  · subst hname
    simp [Manager.withView, Table.set, Dict.find?_insert_self]
  · simp [Manager.withView, Table.set, hname, Dict.find?_insert_of_ne hname, h.find?]

theorem erase (h : Keeps design (table group)) (name : String) :
    Keeps { design with views := Dict.erase name design.views } (table.set group name none group) := by
  refine ⟨h.sorted.erase name, fun other => ?_⟩
  by_cases hname : other = name
  · subst hname
    simp [Table.set, Dict.find?_erase_self]
  · simp [Table.set, hname, Dict.find?_erase_of_ne hname, h.find?]

/-- Revising answers as the table does, and leaves a design document that keeps the next views. -/
theorem revise {change : Change} (h : Keeps design (table change.group)) :
    match change.revise design with
    | .error error => table.Changes change (.error error) ∧ table.next change = table
    | .ok none => table.Changes change (.ok .unchanged) ∧ table.next change = table
    | .ok (some revised) => (∀ rev, table.Changes change (.ok (.written rev))) ∧
        Keeps revised (table.next change change.group) := by
  cases change with
  | add group name view =>
    simp only [Change.revise, h.hasView_eq, Change.group, Table.Changes, Table.next]
    by_cases hbound : (table group name).isSome = true
    · simp [hbound]
    · have hset := @withView design table group h name view
      simpa [hbound] using hset
  | put group name view =>
    simp only [Change.revise, h.any_eq, Change.group, Table.Changes, Table.next]
    by_cases hequal : (table group name).any (· == view) = true
    · simp [hequal]
    · have hset := @withView design table group h name view
      simpa [hequal] using hset
  | remove group name =>
    simp only [Change.revise, h.hasView_eq, Change.group, Table.Changes, Table.next]
    by_cases hbound : (table group name).isSome = true
    · have herase := @erase design table group h name
      simpa [hbound] using herase
    · have hnone : table group name = none := by simpa using hbound
      simpa [hbound] using Table.set_eq_self hnone

end Keeps

/-! ### Steps -/

/-- A store represents a table: the design document of each group keeps the group's views. -/
structure Represents (documents : Documents) (table : Table) : Prop where
  /-- The store is well kept. -/
  kept : WellKept documents
  /-- Every group has a design document with its views, stored or not yet. -/
  keeps : ∀ group, ∃ design,
    designOf group (documents.read (DesignDocument.idOf group)) = .ok design ∧ Keeps design (table group)
  /-- The table is proper. -/
  proper : table.Proper

theorem represents_nil : Represents [] Table.empty where
  kept := Documents.wellKept_nil
  keeps group := ⟨.new group, rfl, Dict.sorted_nil, fun _ => rfl⟩
  proper _ _ _ h := nomatch h

namespace Represents

variable {documents : Documents} {table : Table}

theorem change (h : Represents documents table) {change : Change} (hproper : change.Proper)
    (suffix : String) :
    table.Changes change (change.run Backend.memory suffix documents).1 ∧
      Represents (change.run Backend.memory suffix documents).2 (table.next change) := by
  obtain ⟨design, hdesign, hkeeps⟩ := h.keeps change.group
  have hrun := Change.run_memory (h.kept.underOwnId _) hdesign suffix
  have hrevise := hkeeps.revise
  cases hrevised : change.revise design with
  | error error =>
    simp only [hrevised] at hrun hrevise
    rw [hrun, hrevise.2]
    exact ⟨hrevise.1, h⟩
  | ok revised =>
    cases revised with
    | none =>
      simp only [hrevised] at hrun hrevise
      rw [hrun, hrevise.2]
      exact ⟨hrevise.1, h⟩
    | some revised =>
      simp only [hrevised] at hrun hrevise
      rw [hrun]
      refine ⟨hrevise.1 _, h.kept.write (Change.write_revised (h.kept.underOwnId _) hdesign hrevised suffix), ?_,
        h.proper.next hproper⟩
      intro group
      by_cases hgroup : group = change.group
      · subst hgroup
        have hseparate := Change.separate_of_revise hrevised (separate_of_designOf hdesign)
        have hread : Documents.read change.target (Dict.insert change.target
            (stamp (Revision.next design.rev suffix) revised.toJson) documents) =
            .ok (stamp (Revision.next design.rev suffix) revised.toJson) :=
          Documents.read_eq_ok_iff.mpr (Dict.find?_insert_self _ _ _)
        exact ⟨_, designOf_eq_ok_iff.mpr (.inl ⟨_, hread, DesignDocument.ofJson_stamp_toJson hseparate _⟩),
          hrevise.2.sorted, hrevise.2.find?⟩
      · have hother : DesignDocument.idOf group ≠ change.target :=
          fun heq => hgroup (DesignDocument.idOf_injective heq)
        rw [Table.next_of_ne hgroup, Documents.read_eq_of_find? (Dict.find?_insert_of_ne hother _ documents)]
        exact h.keeps group

theorem view (h : Represents documents table) (options : Options) (group name : String) :
    Table.Views options (table group name)
      (Manager.view Backend.memory options group name documents) := by
  obtain ⟨design, hdesign, hkeeps⟩ := h.keeps group
  have hview : design.view? name = (table group name).map fun view => .ok view := by
    rw [DesignDocument.view?, hkeeps.find?, Option.map_map]
    cases hbound : table group name with
    | none => rfl
    | some view =>
      simp only [Option.map_some, Function.comp, View.ofDefinition_toDefinition]
      rw [View.decodeReduce_eq_self (h.proper group name view hbound)]
  simp only [Manager.view, design_memory, hdesign, bind, Except.bind, hview]
  cases table group name with
  | none => rfl
  | some view => exact ⟨view.compile options, rfl, fun _ => rfl, rfl⟩

theorem list (h : Represents documents table) (group : String) :
    table.Lists group (Manager.list Backend.memory group documents) := by
  obtain ⟨design, hdesign, hkeeps⟩ := h.keeps group
  refine ⟨Dict.keys design.views, ?_, ?_, fun name => ?_⟩
  · rw [Manager.list, design_memory, hdesign]
    rfl
  · exact List.pairwise_map.mpr (hkeeps.sorted.imp fun hlt => (precedes_iff_bytes_lt _ _).mp hlt)
  · rw [Dict.mem_keys_iff, ← hkeeps.hasView_eq, DesignDocument.hasView]

/-- One request answers as the table does and leaves a store that represents the next table. -/
theorem run (h : Represents documents table) (options : Options) {request : Request}
    (hproper : request.Proper) :
    table.Answers options request (request.run Backend.memory options documents).1 ∧
      Represents (request.run Backend.memory options documents).2 (table.after request) := by
  cases request with
  | change suffix operation => exact h.change hproper suffix
  | view group name => exact ⟨h.view options group name, h⟩
  | list group => exact ⟨h.list group, h⟩

theorem serve (h : Represents documents table) (options : Options) {requests : List Request}
    (hproper : ∀ request ∈ requests, request.Proper) :
    table.AnswersAll options requests (Manager.serve Backend.memory options requests documents).1 := by
  induction requests generalizing documents table with
  | nil => trivial
  | cons request requests ih =>
    obtain ⟨hanswer, hnext⟩ := h.run options (hproper request List.mem_cons_self)
    exact ⟨hanswer, ih hnext fun other hmem => hproper other (List.mem_cons_of_mem _ hmem)⟩

end Represents

/-! ### Runs -/

/-- The failure that an answer reports, if it does. -/
def Answer.error? : Answer → Option ManagerError
  | change (.error error) | view (.error error) | list (.error error) => some error
  | _ => none

/-- A change of the table fails for one of two reasons. -/
theorem Table.Changes.error {table : Table} {change : Change} {error : ManagerError}
    (h : table.Changes change (.error error)) :
    ∃ group name, error = .duplicateView group name ∨ error = .missingView group name := by
  cases change with
  | add group name view =>
    simp only [Table.Changes] at h
    split at h
    · exact ⟨group, name, .inl (Except.error.inj h)⟩
    · obtain ⟨rev, ⟨⟩⟩ := h
  | put group name view =>
    simp only [Table.Changes] at h
    split at h
    · cases h
    · obtain ⟨rev, ⟨⟩⟩ := h
  | remove group name =>
    simp only [Table.Changes] at h
    split at h
    · obtain ⟨rev, ⟨⟩⟩ := h
    · exact ⟨group, name, .inr (Except.error.inj h)⟩

/-- Loading and listing do not fail, and a change only for one of two reasons. -/
theorem Table.Answers.error {options : Options} {table : Table} {request : Request} {answer : Answer}
    (h : table.Answers options request answer) {error : ManagerError}
    (herror : answer.error? = some error) :
    ∃ group name, error = .duplicateView group name ∨ error = .missingView group name := by
  cases answer with
  | change result =>
    cases result with
    | ok outcome => cases herror
    | error found =>
      obtain rfl := Option.some.inj herror
      cases request with
      | change suffix operation => exact Table.Changes.error h
      | _ => cases h
  | view result =>
    cases request with
    | view group name =>
      simp only [Table.Answers, Table.Views] at h
      split at h
      · subst h
        cases herror
      · obtain ⟨compiled, rfl, -⟩ := h
        cases herror
    | _ => cases h
  | list result =>
    cases request with
    | list group =>
      obtain ⟨names, rfl, -⟩ := h
      cases herror
    | _ => cases h

theorem Table.AnswersAll.error {options : Options} {table : Table} {requests : List Request}
    {answers : List Answer} (h : table.AnswersAll options requests answers) {answer : Answer}
    (hmem : answer ∈ answers) {error : ManagerError} (herror : answer.error? = some error) :
    ∃ group name, error = .duplicateView group name ∨ error = .missingView group name := by
  induction requests generalizing table answers with
  | nil =>
    cases answers with
    | nil => cases hmem
    | cons => cases h
  | cons request requests ih =>
    cases answers with
    | nil => cases hmem
    | cons first answers =>
      rcases List.mem_cons.mp hmem with rfl | hrest
      · exact h.1.error herror
      · exact ih h.2 hrest

/-- **A manager is a table.** Whatever is requested of a manager over an empty memory store, every
answer is that of the table of the views bound so far, under either compile option; a request fails
only because it adds a view that is there or removes one that is not. -/
theorem serve_answers (options : Options) (requests : List Request)
    (hproper : ∀ request ∈ requests, request.Proper) :
    Table.empty.AnswersAll options requests (serve Backend.memory options requests []).1 ∧
      ∀ answer ∈ (serve Backend.memory options requests []).1, ∀ error, answer.error? = some error →
        ∃ group name, error = .duplicateView group name ∨ error = .missingView group name := by
  have hanswers := represents_nil.serve options hproper
  exact ⟨hanswers, fun _ hmem _ herror => hanswers.error hmem herror⟩

/-- A view that tests a value against zero of either sign. -/
def zeroView (negative : Bool) : View :=
  ⟨.single (.access (.path ⟨"a"⟩)
    { Descriptor.none with emit := true, equals := some (.num (.double (.zero negative))) }), none, none⟩

/-- Requests for a view without a name, in a group named like a design document: it is added twice,
then replaced by an equal one and by another one, then removed twice. -/
def zeroRequests : List Request :=
  [.change "s" (.add "_design/g" "" (zeroView false)), .change "s" (.add "_design/g" "" (zeroView false)),
    .change "s" (.put "_design/g" "" (zeroView true)),
    .change "t" (.put "_design/g" "" ⟨.composite [], none, some (.str "_count")⟩),
    .view "_design/g" "", .list "_design/g", .change "t" (.remove "_design/g" ""),
    .change "t" (.remove "_design/g" "")]

/-- The second and the last request fail, and all answers are those of the table. -/
theorem serve_zeroRequests :
    (serve Backend.memory .default zeroRequests []).1.map (fun answer => answer.error?.isSome) =
        [false, true, false, false, false, false, false, true] ∧
      Table.empty.AnswersAll .default zeroRequests (serve Backend.memory .default zeroRequests []).1 :=
  ⟨by decide +kernel, (serve_answers .default zeroRequests
    (by simp [zeroRequests, Request.Proper, Change.Proper, zeroView])).1⟩

end DocIndex.Manager

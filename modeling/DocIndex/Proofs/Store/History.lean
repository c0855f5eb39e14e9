import Mathlib.Data.List.Nodup
import DocIndex.Proofs.Store.Mirror

/-!
# Histories of a store

The writes that operations on a memory store have made are read off their replies. The store follows
this history: each document carries the revision of the last write to it, and the generation of that
revision is the number of writes to the document (`Follows`). One write keeps this up (`Follows.write`),
and so does a run of any operations (`history_follows`).
-/

namespace DocIndex.Manager

open Documents (idOf revOf currentRev stamp WellKept)

/-! ### Writes -/

/-- A write that has been made. -/
structure Write where
  /-- The id of the document. -/
  id : String
  /-- What the revision ends in. -/
  suffix : String
  /-- The revision that was answered. -/
  rev : String

/-- The write that an operation has made, as its reply tells. -/
def Operation.write? : Operation → Reply → Option Write
  | put suffix document, .put (.ok rev) => (idOf document).toOption.map fun id => ⟨id, suffix, rev⟩
  | request (.change suffix change), .request (.change (.ok (.written rev))) =>
    some ⟨change.target, suffix, rev⟩
  | _, _ => none

/-- Operations on a memory store one after another: the writes that they make, and the documents
afterwards. -/
def history (options : Options) : List Operation → Documents → List Write × Documents
  | [], documents => ([], documents)
  | operation :: operations, documents =>
    let next := operation.run Backend.memory options documents
    let rest := history options operations next.2
    ((operation.write? next.1).toList ++ rest.1, rest.2)

/-- The writes to a document, the first one first. -/
def writesOf (id : String) (log : List Write) : List Write := log.filter fun write => write.id == id

/-- An operation either makes no write and changes nothing, or it writes one document. -/
theorem Operation.run_cases (operation : Operation) (options : Options) (documents : Documents) :
    (operation.write? (operation.run Backend.memory options documents).1 = none ∧
      (operation.run Backend.memory options documents).2 = documents) ∨
    ∃ write document, operation.write? (operation.run Backend.memory options documents).1 = some write ∧
      documents.write write.suffix document =
        .ok (write.rev, (operation.run Backend.memory options documents).2) ∧
      (WellKept documents → idOf document = .ok write.id) := by
  cases operation with
  | get id => exact .inl ⟨rfl, rfl⟩
  | put suffix document =>
    simp only [Operation.run, Backend.memory]
    cases hwrite : documents.write suffix document with
    | error error => exact .inl ⟨rfl, rfl⟩
    | ok result =>
      obtain ⟨rev, after⟩ := result
      obtain ⟨id, hid, -, -, -⟩ := Documents.write_eq_ok_iff.mp hwrite
      refine .inr ⟨⟨id, suffix, rev⟩, document, ?_, hwrite, fun _ => hid⟩
      simp [Operation.write?, hid, Except.toOption]
  | request call =>
    cases call with
    | view group name => exact .inl ⟨rfl, rfl⟩
    | list group => exact .inl ⟨rfl, rfl⟩
    | change suffix change =>
      simp only [Operation.run, Request.run]
      rcases change.run_memory_cases suffix documents with
        ⟨rev, after, document, hplan, hwrite, hresult⟩ | ⟨result, hresult, hnot⟩
      · rw [hresult]
        refine .inr ⟨⟨change.target, suffix, rev⟩, document, rfl, hwrite, fun hkept => ?_⟩
        obtain ⟨design, revised, hdesign, hrevise, rfl⟩ := Change.plan_eq_ok_some_iff.mp hplan
        rw [DesignDocument.idOf_toJson, Change.revise_eq_ok_some hrevise]
        exact congrArg Except.ok (id_and_rev_of_designOf (hkept.underOwnId _) hdesign).1
      · rw [hresult]
        refine .inl ⟨?_, rfl⟩
        cases result with
        | error error => rfl
        | ok outcome =>
          cases outcome with
          | unchanged => rfl
          | written rev => exact absurd rfl (hnot rev)

/-- What every operation of a run keeps holds of the history of the whole run. -/
theorem history_induction {options : Options} {Good : List Write → Documents → Prop}
    {operations : List Operation}
    (hstep : ∀ operation ∈ operations, ∀ log documents, Good log documents →
      Good (log ++ (operation.write? (operation.run Backend.memory options documents).1).toList)
        (operation.run Backend.memory options documents).2)
    {log : List Write} {documents : Documents} (h : Good log documents) :
    Good (log ++ (history options operations documents).1) (history options operations documents).2 := by
  induction operations generalizing log documents with
  | nil => rwa [history, List.append_nil]
  | cons operation operations ih =>
    have hnext := hstep operation List.mem_cons_self log documents h
    rw [history, ← List.append_assoc]
    exact ih (fun other hmem => hstep other (List.mem_cons_of_mem _ hmem)) hnext

/-! ### The invariant -/

theorem writesOf_append (id : String) (log log' : List Write) :
    writesOf id (log ++ log') = writesOf id log ++ writesOf id log' := List.filter_append ..

theorem writesOf_singleton (id : String) (write : Write) :
    writesOf id [write] = if write.id = id then [write] else [] := by
  by_cases h : write.id = id <;> simp [writesOf, h]

/-- The documents are what a history of writes has left. -/
structure Follows (documents : Documents) (log : List Write) : Prop where
  /-- The store is well kept. -/
  kept : WellKept documents
  /-- A document carries the revision of the last write to it. -/
  currentRev_eq : ∀ id, currentRev id documents = (writesOf id log).getLast?.map Write.rev
  /-- The writes to a document are numbered by the generations of their revisions. -/
  rev_eq : ∀ id n write, (writesOf id log)[n]? = some write →
    write.rev = Revision.ofGeneration (n + 1) write.suffix

theorem follows_nil : Follows [] [] where
  kept := Documents.wellKept_nil
  currentRev_eq _ := rfl
  rev_eq _ _ _ h := by cases h

namespace Follows

variable {documents : Documents} {log : List Write}

/-- The last write to a document has the number of all of them as its generation. -/
theorem rev_of_getLast? (h : Follows documents log) {id : String} {write : Write}
    (hlast : (writesOf id log).getLast? = some write) :
    write.rev = Revision.ofGeneration (writesOf id log).length write.suffix := by
  rw [List.getLast?_eq_getElem?] at hlast
  have hlt : (writesOf id log).length - 1 < (writesOf id log).length :=
    (List.getElem?_eq_some_iff.mp hlast).1
  rw [h.rev_eq id _ write hlast]
  congr 1
  omega

/-- The generation of a stored document is the number of writes to it. -/
theorem generation_eq (h : Follows documents log) {id : String}
    (hroom : (writesOf id log).length < Range.unsigned64) :
    Revision.generation (currentRev id documents) = (writesOf id log).length := by
  rw [h.currentRev_eq]
  cases hlast : (writesOf id log).getLast? with
  | none =>
    rw [List.getLast?_eq_none_iff] at hlast
    rw [hlast]
    rfl
  | some write =>
    rw [Option.map_some, h.rev_of_getLast? hlast, Revision.generation, Option.bind_some,
      Revision.generation?_ofGeneration hroom, Option.getD_some]

/-- A document is stored exactly if it has been written. -/
theorem isSome_find?_iff (h : Follows documents log) (id : String) :
    (Dict.find? id documents).isSome = true ↔ writesOf id log ≠ [] := by
  have hrev := h.currentRev_eq id
  constructor
  · intro hfind hnil
    rw [hnil, List.getLast?_nil, Option.map_none] at hrev
    rw [h.kept.find?_eq_none hrev] at hfind
    cases hfind
  · intro hwrites
    cases hfind : Dict.find? id documents with
    | some document => rfl
    | none =>
      rw [currentRev, hfind, Option.bind_none, eq_comm, Option.map_eq_none_iff,
        List.getLast?_eq_none_iff] at hrev
      exact absurd hrev hwrites

/-- A stored document has its own id and the revision of the last write to it. -/
theorem exists_members (h : Follows documents log) {id : String} {document : Json}
    (hfind : Dict.find? id documents = some document) :
    ∃ members write, document = .obj members ∧ Dict.find? "_id" members = some (.str id) ∧
      (writesOf id log).getLast? = some write ∧ Dict.find? "_rev" members = some (.str write.rev) := by
  have hid := (h.kept id document hfind).idOf_eq
  obtain ⟨members, rfl⟩ := Documents.exists_members_of_idOf hid
  obtain ⟨rev, -, hrev, -⟩ := (h.kept id _ hfind).revOf_eq
  have hcurrent := h.currentRev_eq id
  rw [currentRev, hfind, Option.bind_some, hrev, eq_comm, Option.map_eq_some_iff] at hcurrent
  obtain ⟨write, hlast, rfl⟩ := hcurrent
  exact ⟨members, write, rfl, Documents.idOf_eq_ok_iff.mp hid, hlast,
    Documents.revOf_eq_some_iff.mp hrev⟩

/-- One write keeps the store behind its history, as long as the generation has room. -/
theorem write (h : Follows documents log) {suffix rev id : String} {document : Json} {after : Documents}
    (hwrite : documents.write suffix document = .ok (rev, after)) (hid : idOf document = .ok id)
    (hroom : (writesOf id log).length + 1 < Range.unsigned64) :
    Follows after (log ++ [⟨id, suffix, rev⟩]) := by
  obtain ⟨hcurrent, hrev, hafter⟩ := (Documents.write_eq_ok_iff_of_idOf hid).mp hwrite
  have hnext : rev = Revision.ofGeneration ((writesOf id log).length + 1) suffix := by
    rw [hrev, ← hcurrent, Revision.next, h.generation_eq (Nat.lt_of_succ_lt hroom),
      Nat.mod_eq_of_lt hroom]
  refine ⟨h.kept.write hwrite, fun other => ?_, fun other n found hfound => ?_⟩
  · rw [writesOf_append, writesOf_singleton, hafter]
    by_cases hother : id = other
    · subst hother
      rw [if_pos rfl, Documents.currentRev_insert_self, Documents.revOf_stamp hid, List.getLast?_concat]
      rfl
    · rw [if_neg hother, List.append_nil, Documents.currentRev_insert_of_ne (Ne.symm hother)]
      exact h.currentRev_eq other
  · rw [writesOf_append, writesOf_singleton] at hfound
    by_cases hother : id = other
    · subst hother
      rw [if_pos rfl] at hfound
      rcases Nat.lt_trichotomy n (writesOf id log).length with hlt | rfl | hgt
      · rw [List.getElem?_append_left hlt] at hfound
        exact h.rev_eq id n found hfound
      · rw [List.getElem?_concat_length, Option.some.injEq] at hfound
        rw [← hfound]
        exact hnext
      · have hpast : (writesOf id log ++ [(⟨id, suffix, rev⟩ : Write)]).length ≤ n := by
          simp only [List.length_append, List.length_singleton]
          omega
        rw [List.getElem?_eq_none hpast] at hfound
        cases hfound
    · rw [if_neg hother, List.append_nil] at hfound
      exact h.rev_eq other n found hfound

/-- An operation keeps the store behind its history. -/
theorem run (h : Follows documents log) {options : Options} (operation : Operation)
    (hroom : ∀ id, (writesOf id
      (log ++ (operation.write? (operation.run Backend.memory options documents).1).toList)).length <
        Range.unsigned64) :
    Follows (operation.run Backend.memory options documents).2
      (log ++ (operation.write? (operation.run Backend.memory options documents).1).toList) := by
  rcases operation.run_cases options documents with ⟨hidle, hsame⟩ | ⟨made, document, hmade, hwrite, hid⟩
  · rw [hidle, hsame, Option.toList_none, List.append_nil]
    exact h
  · have hlimit := hroom made.id
    rw [hmade, Option.toList_some] at hlimit ⊢
    rw [writesOf_append, writesOf_singleton, if_pos rfl, List.length_append] at hlimit
    exact h.write hwrite (hid h.kept) hlimit

/-- Two writes to one document never get the same revision. -/
theorem nodup_revs (h : Follows documents log) {id : String}
    (hroom : (writesOf id log).length < Range.unsigned64) :
    ((writesOf id log).map Write.rev).Nodup := by
  have hgenerations : (writesOf id log).map (fun write => Revision.generation? write.rev) =
      (List.range (writesOf id log).length).map fun n => some (n + 1) := by
    refine List.ext_getElem? fun n => ?_
    rw [List.getElem?_map, List.getElem?_map]
    cases hwrite : (writesOf id log)[n]? with
    | none =>
      rw [List.getElem?_eq_none_iff] at hwrite
      rw [List.getElem?_eq_none (by simpa using hwrite)]
      rfl
    | some write =>
      have hlt := (List.getElem?_eq_some_iff.mp hwrite).1
      rw [List.getElem?_range hlt, Option.map_some, Option.map_some, h.rev_eq id n write hwrite,
        Revision.generation?_ofGeneration (by omega)]
  refine List.Nodup.of_map Revision.generation? ?_
  rw [List.map_map, Function.comp_def, hgenerations]
  exact List.nodup_range.map fun a b hab => by simpa using hab

end Follows

/-! ### Runs -/

theorem length_writesOf_le (id : String) (log log' : List Write) :
    (writesOf id log).length ≤ (writesOf id (log ++ log')).length := by
  rw [writesOf_append, List.length_append]
  exact Nat.le_add_right _ _

/-- A run of operations leaves what its history says. -/
theorem follows_history {options : Options} {operations : List Operation}
    (hroom : ∀ id, (writesOf id (history options operations []).1).length < Range.unsigned64) :
    Follows (history options operations []).2 (history options operations []).1 := by
  have hrun := @history_induction options
    (fun log documents => (∀ id, (writesOf id log).length < Range.unsigned64) → Follows documents log)
    operations
    (fun operation _ log documents h hnext => (h fun id =>
      Nat.lt_of_le_of_lt (length_writesOf_le id log _) (hnext id)).run operation hnext)
    [] [] fun _ => follows_nil
  rw [List.nil_append] at hrun
  exact hrun hroom

/-- An operation takes no document away. -/
theorem isSome_find?_run (operation : Operation) (options : Options) {documents : Documents} {id : String}
    (h : (Dict.find? id documents).isSome = true) :
    (Dict.find? id (operation.run Backend.memory options documents).2).isSome = true := by
  rcases operation.run_cases options documents with ⟨-, hsame⟩ | ⟨made, document, -, hwrite, -⟩
  · rw [hsame]
    exact h
  · obtain ⟨target, -, -, -, hafter⟩ := Documents.write_eq_ok_iff.mp hwrite
    rw [hafter, Dict.find?_insert]
    split
    · rfl
    · exact h

/-- **Revisions count the writes.** Whatever is asked of an empty memory store, as long as no document
is written so often that its generation overflows: every entry is an object under its own id, whose
revision is the one that the last write to it has answered, made of the number of writes to it and the
suffix of that last write; the revisions of one document all differ, and the documents that are stored
are those that have been written. In any state, no operation takes a document away, and one that makes
no write leaves all of them as they are. -/
theorem history_follows (options : Options) (operations : List Operation)
    (hroom : ∀ id, (writesOf id (history options operations []).1).length < Range.unsigned64) :
    (∀ id document, Dict.find? id (history options operations []).2 = some document →
      ∃ members write, document = .obj members ∧ Dict.find? "_id" members = some (.str id) ∧
        Dict.find? "_rev" members = some (.str write.rev) ∧
        (writesOf id (history options operations []).1).getLast? = some write ∧
        write.rev = Revision.ofGeneration
          (writesOf id (history options operations []).1).length write.suffix) ∧
    (∀ id, ((writesOf id (history options operations []).1).map Write.rev).Nodup) ∧
    (∀ id, (Dict.find? id (history options operations []).2).isSome = true ↔
      writesOf id (history options operations []).1 ≠ []) ∧
    ∀ (operation : Operation) (documents : Documents),
      (∀ id, (Dict.find? id documents).isSome = true →
        (Dict.find? id (operation.run Backend.memory options documents).2).isSome = true) ∧
      (operation.write? (operation.run Backend.memory options documents).1 = none →
        (operation.run Backend.memory options documents).2 = documents) := by
  have hfollows := follows_history hroom
  refine ⟨fun id document hfind => ?_, fun id => hfollows.nodup_revs (hroom id),
    hfollows.isSome_find?_iff, fun operation documents => ⟨fun id => isSome_find?_run operation options, ?_⟩⟩
  · obtain ⟨members, write, hdocument, hid, hlast, hrev⟩ := hfollows.exists_members hfind
    exact ⟨members, write, hdocument, hid, hrev, hlast, hfollows.rev_of_getLast? hlast⟩
  · intro hidle
    rcases operation.run_cases options documents with ⟨-, hsame⟩ | ⟨made, -, hmade, -, -⟩
    · exact hsame
    · rw [hidle] at hmade
      cases hmade

/-- A document is written twice with one suffix, and not by the two calls between that have a stale
revision or none at all; a view is added to it, and taken from a group that is not stored. -/
def repeatedSuffixes : List Operation :=
  [.put "a" (.obj [("_id", .str "_design/g")]),
    .put "b" (.obj [("_id", .str "_design/g"), ("_rev", .str "1-b")]),
    .put "b" (.arr [.str "_design/g"]),
    .put "a" (.obj [("_id", .str "_design/g"), ("_rev", .str "1-a"), ("n", .num (.int 1))]),
    .request (.change "a" (.add "g" "v" ⟨.single (.path ⟨"t"⟩), none, none⟩)),
    .request (.change "a" (.remove "h" "v"))]

/-- The three writes have three revisions, and the store follows them. -/
theorem history_repeatedSuffixes :
    (history .default repeatedSuffixes []).1.map (fun write => (write.id, write.rev)) =
        [("_design/g", "1-a"), ("_design/g", "2-a"), ("_design/g", "3-a")] ∧
      ∀ id document, Dict.find? id (history .default repeatedSuffixes []).2 = some document →
        ∃ members write, document = .obj members ∧ Dict.find? "_id" members = some (.str id) ∧
          Dict.find? "_rev" members = some (.str write.rev) ∧
          (writesOf id (history .default repeatedSuffixes []).1).getLast? = some write ∧
          write.rev = Revision.ofGeneration
            (writesOf id (history .default repeatedSuffixes []).1).length write.suffix := by
  refine ⟨by decide +kernel, (history_follows .default repeatedSuffixes fun id => ?_).1⟩
  have hlength : (history .default repeatedSuffixes []).1.length = 3 := by decide +kernel
  have hle : (writesOf id (history .default repeatedSuffixes []).1).length ≤ 3 :=
    hlength ▸ List.length_filter_le ..
  have hlimit : 3 < Range.unsigned64 := by decide
  omega

end DocIndex.Manager

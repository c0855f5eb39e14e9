import DocIndex.Proofs.Store.Change

/-!
# Changes from several callers

Any number of callers share one store. A change is two atomic steps, the read of its design document
and the write of what it has planned from that, and steps of other callers may come between; a put
of a document is one step. A read may answer any failure instead of the document that is there.

The invariant `Shared.Sound` says of every planned document that is not yet written: either the store
has moved on to a higher generation, so that its write is refused, or the same change would plan the
same document from the store as it is now. So each write that succeeds might as well have been a
whole change at that moment (`run_eq_serially`).
-/

namespace DocIndex.Manager

open Documents (idOf revOf currentRev stamp WellKept)

/-! ### The shared store -/

/-- What a caller does to the store. -/
inductive Work where
  /-- Change a view. -/
  | change (change : Change)
  /-- Put a document, whatever it is. -/
  | put (document : Json)

/-- A caller's work, and the suffix of the revision that it may make. -/
structure Task where
  /-- What is to be done. -/
  work : Work
  /-- The suffix of the revision. -/
  suffix : String

/-- The id of the document that a task writes, if it can write any. -/
def Task.target? (task : Task) : Option String :=
  match task.work with
  | .change change => some change.target
  | .put document => (idOf document).toOption

/-- The task in one piece and without faults. -/
def Task.run (task : Task) (documents : Documents) : Except ManagerError PutOutcome × Documents :=
  match task.work with
  | .change change => change.run Backend.memory task.suffix documents
  | .put document => written (save Backend.memory task.suffix document documents)

/-- Tasks one after another, each in one piece: their answers, and the store afterwards. -/
def serially : List Task → Documents → List (Except ManagerError PutOutcome) × Documents
  | [], documents => ([], documents)
  | task :: tasks, documents =>
    let next := task.run documents
    let rest := serially tasks next.2
    (next.1 :: rest.1, rest.2)

/-- A change that has been planned and not yet written. -/
structure Pending where
  /-- The change. -/
  change : Change
  /-- The suffix of the revision. -/
  suffix : String
  /-- The document that it is going to write. -/
  document : Json

/-- The store, and the changes that are on their way. -/
structure Shared where
  /-- The documents of the store. -/
  documents : Documents
  /-- The planned changes. -/
  pending : List Pending

/-- An atomic step of some caller. -/
inductive Step where
  /-- Begin a change with its read, which may fail. -/
  | read (change : Change) (suffix : String) (fault : Option StoreError)
  /-- End the planned change of this number with its write. -/
  | write (index : Nat)
  /-- Put a document. -/
  | put (document : Json) (suffix : String)

/-- A task that has come to its end, and its answer. -/
structure Finished where
  /-- The task. -/
  task : Task
  /-- Its answer. -/
  answer : Except ManagerError PutOutcome

/-- Whether a finished task has written. -/
def Finished.isWrite (finished : Finished) : Bool :=
  match finished.answer with
  | .ok (.written _) => true
  | _ => false

/-- What a read sees. -/
def seen (fault : Option StoreError) (id : String) (documents : Documents) : Except StoreError Json :=
  match fault with
  | some error => .error error
  | none => documents.read id

namespace Shared

/-- One step, and the task that it ends, if it ends one. -/
def step (shared : Shared) : Step → Shared × Option Finished
  | .read change suffix fault =>
    match change.plan (seen fault change.target shared.documents) with
    | .error error => (shared, some ⟨⟨.change change, suffix⟩, .error error⟩)
    | .ok none => (shared, some ⟨⟨.change change, suffix⟩, .ok .unchanged⟩)
    | .ok (some document) =>
      ({ shared with pending := shared.pending ++ [⟨change, suffix, document⟩] }, none)
  | .write index =>
    match shared.pending[index]? with
    | none => (shared, none)
    | some pending =>
      let result := written (save Backend.memory pending.suffix pending.document shared.documents)
      (⟨result.2, shared.pending.eraseIdx index⟩,
        some ⟨⟨.change pending.change, pending.suffix⟩, result.1⟩)
  | .put document suffix =>
    let result := written (save Backend.memory suffix document shared.documents)
    ({ shared with documents := result.2 }, some ⟨⟨.put document, suffix⟩, result.1⟩)

/-- A run of steps, and the tasks that end in it, in order. -/
def run (shared : Shared) : List Step → Shared × List Finished
  | [] => (shared, [])
  | step :: steps =>
    let next := shared.step step
    let rest := next.1.run steps
    (rest.1, next.2.toList ++ rest.2)

end Shared

/-- The tasks that have written. -/
def writes (log : List Finished) : List Finished := log.filter Finished.isWrite

/-- How often a document has been written. -/
def writesTo (id : String) (log : List Finished) : Nat :=
  (writes log).countP fun finished => finished.task.target? == some id

/-! ### Single writes -/

/-- A write raises the generation of its document by one and leaves that of the others. -/
theorem generation_of_write {suffix rev id : String} {document : Json} {documents after : Documents}
    (hwrite : documents.write suffix document = .ok (rev, after)) (hid : idOf document = .ok id)
    (hroom : Revision.generation (currentRev id documents) + 1 < Range.unsigned64) (other : String) :
    Revision.generation (currentRev other after) =
      Revision.generation (currentRev other documents) + if id = other then 1 else 0 := by
  obtain ⟨hrev, rfl, rfl⟩ := (Documents.write_eq_ok_iff_of_idOf hid).mp hwrite
  by_cases h : id = other
  · subst h
    rw [if_pos rfl, Documents.currentRev_insert_self, Documents.revOf_stamp hid, ← hrev,
      Revision.generation_next hroom]
  · rw [if_neg h, Documents.currentRev_insert_of_ne (Ne.symm h), Nat.add_zero]

/-! ### Planned changes -/

/-- A planned document is still what its change would plan, unless the store has moved on. -/
structure Pending.Fresh (pending : Pending) (documents : Documents) : Prop where
  /-- The planned document goes where the change says. -/
  idOf_eq : idOf pending.document = .ok pending.change.target
  /-- It carries no later revision than the stored one. -/
  generation_le : Revision.generation (revOf pending.document) ≤
    Revision.generation (currentRev pending.change.target documents)
  /-- If it carries the stored one, planning again gives the same document. -/
  plan_eq : currentRev pending.change.target documents = revOf pending.document →
    pending.change.plan (documents.read pending.change.target) = .ok (some pending.document)

/-- What has just been planned is fresh, also after a read that said wrongly that there is no
document. -/
theorem fresh_of_plan {documents : Documents} (hkept : WellKept documents) {pending : Pending}
    {fault : Option StoreError}
    (hplan : pending.change.plan (seen fault pending.change.target documents) =
      .ok (some pending.document)) :
    pending.Fresh documents := by
  obtain ⟨design, revised, hdesign, hrevise, htoJson⟩ := Change.plan_eq_ok_some_iff.mp hplan
  have hrevised := Change.revise_eq_ok_some hrevise
  have hseparate := Change.separate_of_revise hrevise (separate_of_designOf hdesign)
  have hid : idOf pending.document = .ok design.id := by
    rw [← htoJson, DesignDocument.idOf_toJson, hrevised]
  have hrev : revOf pending.document = design.rev := by
    rw [← htoJson, DesignDocument.revOf_toJson hseparate, hrevised]
  rcases designOf_eq_ok_iff.mp hdesign with ⟨document, hseen, -⟩ | ⟨⟨id, -⟩, rfl⟩
  · -- the read has answered the stored document
    cases fault with
    | some error => cases hseen
    | none =>
      obtain ⟨hstored, hcurrent⟩ := id_and_rev_of_designOf (hkept.underOwnId _) hdesign
      exact ⟨hid.trans (congrArg _ hstored), by rw [hrev, hcurrent]; exact Nat.le_refl _, fun _ => hplan⟩
  · -- the read has answered that there is none, which need not be true
    refine ⟨hid, by rw [hrev]; exact Nat.zero_le _, fun hcurrent => ?_⟩
    have hnone := hkept.find?_eq_none (hcurrent.trans hrev)
    rw [Change.plan_eq_ok_some_iff]
    refine ⟨_, revised, designOf_eq_ok_iff.mpr (.inr ⟨⟨pending.change.target, ?_⟩, rfl⟩), hrevise, htoJson⟩
    rw [Documents.read, hnone]

/-- A planned document stays fresh under every write to the store. -/
theorem Pending.Fresh.write {pending : Pending} {documents after : Documents} {suffix rev : String}
    {document : Json} (hfresh : pending.Fresh documents)
    (hwrite : documents.write suffix document = .ok (rev, after))
    (hroom : ∀ id, idOf document = .ok id →
      Revision.generation (currentRev id documents) + 1 < Range.unsigned64) :
    pending.Fresh after := by
  obtain ⟨id, hid, -, -, hafter⟩ := Documents.write_eq_ok_iff.mp hwrite
  by_cases htarget : pending.change.target = id
  · -- the stored document has moved on by one generation
    have hgeneration := generation_of_write hwrite hid (hroom id hid) id
    rw [if_pos rfl] at hgeneration
    have hle := hfresh.generation_le
    rw [htarget] at hle
    refine ⟨hfresh.idOf_eq, ?_, fun hcurrent => ?_⟩
    · rw [htarget]
      omega
    · rw [htarget] at hcurrent
      rw [hcurrent] at hgeneration
      omega
  · have hcurrent : currentRev pending.change.target after =
        currentRev pending.change.target documents :=
      hafter ▸ Documents.currentRev_insert_of_ne htarget _ documents
    have hread : after.read pending.change.target = documents.read pending.change.target :=
      Documents.read_eq_of_find? (hafter ▸ Dict.find?_insert_of_ne htarget _ documents)
    refine ⟨hfresh.idOf_eq, hcurrent ▸ hfresh.generation_le, fun h => ?_⟩
    rw [hread]
    exact hfresh.plan_eq (hcurrent ▸ h)

/-! ### Steps -/

namespace Shared

/-- The store is well kept and every planned document is fresh. -/
structure Sound (shared : Shared) : Prop where
  /-- The store is well kept. -/
  kept : WellKept shared.documents
  /-- The planned documents are fresh. -/
  fresh : ∀ pending ∈ shared.pending, pending.Fresh shared.documents

/-- Everything that a step can do: leave the store as it is, with perhaps one more document planned,
or write one document, that of a put or that of a planned change. -/
theorem step_cases (shared : Shared) (step : Step) :
    ((shared.step step).1.documents = shared.documents ∧
      (∀ finished ∈ (shared.step step).2, finished.isWrite = false) ∧
      ∀ pending ∈ (shared.step step).1.pending, pending ∈ shared.pending ∨
        ∃ fault, pending.change.plan (seen fault pending.change.target shared.documents) =
          .ok (some pending.document)) ∨
    (∃ task document rev, (shared.step step).2 = some ⟨task, .ok (.written rev)⟩ ∧
      shared.documents.write task.suffix document = .ok (rev, (shared.step step).1.documents) ∧
      (task.work = .put document ∨
        ∃ pending ∈ shared.pending, task.work = .change pending.change ∧ pending.document = document) ∧
      ∀ pending ∈ (shared.step step).1.pending, pending ∈ shared.pending) := by
  cases step with
  | read change suffix fault =>
    left
    simp only [Shared.step]
    cases hplan : change.plan (seen fault change.target shared.documents) with
    | error error => exact ⟨rfl, by simp [Finished.isWrite], fun _ h => .inl h⟩
    | ok document =>
      cases document with
      | none => exact ⟨rfl, by simp [Finished.isWrite], fun _ h => .inl h⟩
      | some document =>
        refine ⟨rfl, by simp, fun pending hmem => ?_⟩
        rcases List.mem_append.mp hmem with hold | hnew
        · exact .inl hold
        · rw [List.mem_singleton] at hnew
          subst hnew
          exact .inr ⟨fault, hplan⟩
  | write index =>
    simp only [Shared.step]
    cases hpending : shared.pending[index]? with
    | none => exact .inl ⟨rfl, by simp, fun _ h => .inl h⟩
    | some pending =>
      have hmem := List.mem_of_getElem? hpending
      have hsub : ∀ other ∈ shared.pending.eraseIdx index, other ∈ shared.pending :=
        fun _ h => List.mem_of_mem_eraseIdx h
      rcases written_save_cases pending.suffix pending.document shared.documents with
        ⟨rev, after, hwrite, hresult⟩ | ⟨error, hresult⟩
      · dsimp only
        rw [hresult]
        exact .inr ⟨_, pending.document, rev, rfl, hwrite, .inr ⟨pending, hmem, rfl, rfl⟩, hsub⟩
      · dsimp only
        rw [hresult]
        exact .inl ⟨rfl, by simp [Finished.isWrite], fun _ h => .inl (hsub _ h)⟩
  | put document suffix =>
    simp only [Shared.step]
    rcases written_save_cases suffix document shared.documents with
      ⟨rev, after, hwrite, hresult⟩ | ⟨error, hresult⟩
    · rw [hresult]
      exact .inr ⟨_, document, rev, rfl, hwrite, .inl rfl, fun _ h => h⟩
    · rw [hresult]
      exact .inl ⟨rfl, by simp [Finished.isWrite], fun _ h => .inl h⟩

/-- A step that ends no task with a write leaves the store as it is. -/
theorem step_documents {shared : Shared} {step : Step}
    (h : ∀ finished ∈ (shared.step step).2, finished.isWrite = false) :
    (shared.step step).1.documents = shared.documents := by
  rcases step_cases shared step with ⟨hsame, -, -⟩ | ⟨task, document, rev, hfinished, -⟩
  · exact hsame
  · cases h _ hfinished

/-- In a sound state a task that writes goes for the document that it says. -/
theorem Sound.target?_eq {shared : Shared} (hsound : shared.Sound) {task : Task} {document : Json}
    {rev : String} {after : Documents}
    (hwrite : shared.documents.write task.suffix document = .ok (rev, after))
    (hwork : task.work = .put document ∨
      ∃ pending ∈ shared.pending, task.work = .change pending.change ∧ pending.document = document) :
    ∃ id, task.target? = some id ∧ idOf document = .ok id := by
  rcases hwork with hput | ⟨pending, hmem, hchange, rfl⟩
  · obtain ⟨id, hid, -⟩ := Documents.write_eq_ok_iff.mp hwrite
    exact ⟨id, by rw [Task.target?, hput]; simp [hid, Except.toOption], hid⟩
  · exact ⟨pending.change.target, by rw [Task.target?, hchange], (hsound.fresh pending hmem).idOf_eq⟩

/-- A step keeps the state sound, as long as its write counts the generation up. -/
theorem Sound.step {shared : Shared} (hsound : shared.Sound) {step : Step}
    (hroom : ∀ finished ∈ (shared.step step).2, finished.isWrite = true →
      ∀ id, finished.task.target? = some id →
        Revision.generation (currentRev id shared.documents) + 1 < Range.unsigned64) :
    (shared.step step).1.Sound := by
  rcases step_cases shared step with
    ⟨hsame, -, hpending⟩ | ⟨task, document, rev, hfinished, hwrite, hwork, hpending⟩
  · refine ⟨hsame ▸ hsound.kept, fun pending hmem => ?_⟩
    rw [hsame]
    rcases hpending pending hmem with hold | ⟨fault, hplan⟩
    · exact hsound.fresh pending hold
    · exact fresh_of_plan hsound.kept hplan
  · obtain ⟨id, htarget, hid⟩ := hsound.target?_eq hwrite hwork
    refine ⟨hsound.kept.write hwrite, fun pending hmem => ?_⟩
    refine (hsound.fresh pending (hpending pending hmem)).write hwrite fun id' hid' => ?_
    obtain rfl : id = id' := Except.ok.inj (hid.symm.trans hid')
    exact hroom _ hfinished rfl id htarget

/-- A task that ends with a write might as well have been done in one piece at that step. -/
theorem Sound.run_eq {shared : Shared} (hsound : shared.Sound) {step : Step} {finished : Finished}
    (hfinished : finished ∈ (shared.step step).2) (hwrites : finished.isWrite = true) :
    finished.task.run shared.documents = (finished.answer, (shared.step step).1.documents) := by
  rcases step_cases shared step with
    ⟨-, hidle, -⟩ | ⟨task, document, rev, hfinished', hwrite, hwork, -⟩
  · rw [hidle finished hfinished] at hwrites
    cases hwrites
  · rw [hfinished', Option.mem_some_iff] at hfinished
    subst hfinished
    rcases hwork with hput | ⟨pending, hmem, hchange, rfl⟩
    · simp only [Task.run, hput]
      exact written_save_eq hwrite
    · have hfresh := hsound.fresh pending hmem
      have hrev := ((Documents.write_eq_ok_iff_of_idOf hfresh.idOf_eq).mp hwrite).1
      simp only [Task.run, hchange, Change.run_eq_finish]
      rw [show Backend.memory.get = Documents.read from rfl, hfresh.plan_eq hrev]
      exact written_save_eq hwrite

/-! ### Runs -/

theorem writesTo_le_length (id : String) (log : List Finished) : writesTo id log ≤ log.length :=
  Nat.le_trans List.countP_le_length (List.length_filter_le ..)

theorem writes_append_of_idle {finished : Option Finished} (h : ∀ f ∈ finished, f.isWrite = false)
    (log : List Finished) : writes (finished.toList ++ log) = writes log := by
  cases finished with
  | none => rfl
  | some f => simp [writes, h f rfl]

theorem writes_cons_of_write (task : Task) (rev : String) (log : List Finished) :
    writes (⟨task, .ok (.written rev)⟩ :: log) = ⟨task, .ok (.written rev)⟩ :: writes log :=
  List.filter_cons_of_pos rfl

theorem writesTo_cons_of_write {task : Task} {id : String} (htarget : task.target? = some id) (rev : String)
    (log : List Finished) (other : String) :
    writesTo other (⟨task, .ok (.written rev)⟩ :: log) = writesTo other log + if id = other then 1 else 0 := by
  rw [writesTo, writes_cons_of_write, List.countP_cons, writesTo]
  simp [htarget]

/-- From a sound state, the tasks that write leave the same store and give the same answers when
they are done one after another in the order of their writes. -/
theorem Sound.serially_writes {shared : Shared} (hsound : shared.Sound) (steps : List Step)
    (hroom : ∀ id, Revision.generation (currentRev id shared.documents) +
      writesTo id (shared.run steps).2 < Range.unsigned64) :
    serially ((writes (shared.run steps).2).map Finished.task) shared.documents =
      ((writes (shared.run steps).2).map Finished.answer, (shared.run steps).1.documents) := by
  induction steps generalizing shared with
  | nil => rfl
  | cons step steps ih =>
    simp only [Shared.run] at hroom ⊢
    rcases step_cases shared step with
      ⟨hsame, hidle, -⟩ | ⟨task, document, rev, hfinished, hwrite, hwork, -⟩
    · have hnext : (shared.step step).1.Sound := hsound.step fun finished hmem hwrites => by
        rw [hidle finished hmem] at hwrites
        cases hwrites
      simp only [writesTo] at hroom
      rw [writes_append_of_idle hidle, ← hsame] at hroom ⊢
      exact ih hnext hroom
    · obtain ⟨id, htarget, hid⟩ := hsound.target?_eq hwrite hwork
      have hrun := hsound.run_eq hfinished rfl
      rw [hfinished, Option.toList_some, List.singleton_append] at hroom ⊢
      have hstep : Revision.generation (currentRev id shared.documents) + 1 < Range.unsigned64 := by
        have := hroom id
        rw [writesTo_cons_of_write htarget, if_pos rfl] at this
        omega
      have hnext : (shared.step step).1.Sound := hsound.step fun finished hmem _ id' hid' => by
        rw [hfinished, Option.mem_some_iff] at hmem
        subst hmem
        rw [htarget, Option.some.injEq] at hid'
        exact hid' ▸ hstep
      -- what the write adds to the generation it takes from the writes that are left
      have hrest := ih hnext fun other => by
        have := hroom other
        rw [writesTo_cons_of_write htarget] at this
        rw [generation_of_write hwrite hid hstep]
        omega
      rw [writes_cons_of_write, List.map_cons, List.map_cons, serially, hrun]
      simp only [hrest]

/-- **No lost update.** However the steps of the callers follow one another and whichever reads
fail, from a well kept store the tasks that write leave the store that they would leave one after
another, each in one piece and without faults, in the order of their writes and with the same
answers; and no other step changes the store, so that a task with any other answer leaves no trace.
Only the generations have to stay below their limit, for each document by itself. -/
theorem run_eq_serially (start : Documents) (steps : List Step) (hkept : WellKept start)
    (hroom : ∀ id, Revision.generation (currentRev id start) +
      writesTo id (run ⟨start, []⟩ steps).2 < Range.unsigned64) :
    serially ((writes (run ⟨start, []⟩ steps).2).map Finished.task) start =
        ((writes (run ⟨start, []⟩ steps).2).map Finished.answer, (run ⟨start, []⟩ steps).1.documents) ∧
      ∀ (shared : Shared) (step : Step),
        (∀ finished ∈ (shared.step step).2, finished.isWrite = false) →
          (shared.step step).1.documents = shared.documents := by
  have hsound : Sound ⟨start, []⟩ := ⟨hkept, fun _ hmem => absurd hmem List.not_mem_nil⟩
  exact ⟨hsound.serially_writes steps hroom, fun _ _ => step_documents⟩

/-- A store with one design document, which has one view. -/
def raceStart : Documents :=
  [("_design/g", .obj [("_id", .str "_design/g"), ("_rev", .str "1-a"), ("views", .obj [("v", .null)])])]

/-- Two callers plan from the same document, a third has been told wrongly that there is none, and
after the first of them has written, the others are refused; then a view is removed. -/
def raceSteps : List Step :=
  [.read (.add "g" "x" ⟨.single (.path ⟨"a"⟩), none, none⟩) "s" none,
   .read (.put "g" "v" ⟨.single (.path ⟨"b"⟩), none, none⟩) "t" none,
   .read (.add "g" "v" ⟨.single (.path ⟨"c"⟩), none, none⟩) "u" (some (.notFound "elsewhere")),
   .write 0, .write 0, .write 0, .read (.remove "g" "v") "s" none, .write 0]

theorem wellKept_raceStart : WellKept raceStart := by
  intro id document hfind
  obtain ⟨rfl, rfl⟩ : id = "_design/g" ∧ _ = document := by
    simpa [raceStart, Dict.find?, eq_comm] using hfind
  exact ⟨by rfl, "1-a", 1, by rfl, by decide +kernel⟩

theorem room_raceStart (id : String) : Revision.generation (currentRev id raceStart) +
    writesTo id (run ⟨raceStart, []⟩ raceSteps).2 < Range.unsigned64 := by
  have hgeneration : Revision.generation (currentRev id raceStart) ≤ 1 := by
    by_cases h : id = "_design/g"
    · subst h
      decide +kernel
    · simp [currentRev, raceStart, Dict.find?, Ne.symm h, Revision.generation]
  have hlength : (run ⟨raceStart, []⟩ raceSteps).2.length = 4 := by decide +kernel
  have hle := writesTo_le_length id (run ⟨raceStart, []⟩ raceSteps).2
  have hlimit : 5 < Range.unsigned64 := by decide
  omega

/-- Of the four changes the first and the last write, and the two alone leave the same store. -/
theorem serially_race :
    (run ⟨raceStart, []⟩ raceSteps).2.map Finished.isWrite = [true, false, false, true] ∧
    serially ((writes (run ⟨raceStart, []⟩ raceSteps).2).map Finished.task) raceStart =
      ((writes (run ⟨raceStart, []⟩ raceSteps).2).map Finished.answer,
        (run ⟨raceStart, []⟩ raceSteps).1.documents) :=
  ⟨by decide +kernel, (run_eq_serially raceStart raceSteps wellKept_raceStart room_raceStart).1⟩

end Shared

end DocIndex.Manager

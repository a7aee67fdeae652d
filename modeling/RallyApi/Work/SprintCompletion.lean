import RallyApi.Work.CallRuns

/-!
# Completing a sprint

`completeSprint` checks the sprint and the one that takes over its unfinished items, moves the items in one
statement and completes the sprint in another. The first statement is skipped when the project has no
status in the category `done`, and the sprint that takes over only has to be one of the project.

`completeSprint_post_iff` says from which stores a successful completion leaves every unfinished item in
its new place. `completeSprint_atomic_iff` says from which stores the two statements cannot be told apart
from one: those where the first has nothing to move.
-/

set_option autoImplicit false
set_option relaxedAutoImplicit false

namespace RallyApi.Work

open Concurrency Platform Store

variable {db after seen : Db} {tenantId id : Uuid} {moveToSprintId : Option Uuid} {sprint : Sprint}

/-! ### The call, run alone -/

/-- What `completeSprint` checks: the sprint is an active one of the tenant, and the sprint that takes over
is one of the tenant in the same project. -/
structure Completable (db : Db) (tenantId id : Uuid) (moveToSprintId : Option Uuid) (sprint : Sprint) :
    Prop where
  found : db.sprints.find? (fun row ↦ row.id = id) = some sprint
  tenant : sprint.tenantId = tenantId
  active : sprint.status = .active
  target : ∀ targetId ∈ moveToSprintId, ∃ target,
    db.sprints.find? (fun row ↦ row.id = targetId) = some target ∧ target.tenantId = tenantId ∧
      target.projectId = sprint.projectId

/-- The identifiers of the `done` statuses of a project. -/
def Db.doneStatusIds (db : Db) (projectId : Uuid) : List Uuid :=
  (db.workflowStatuses.filter fun status ↦
    status.projectId = projectId ∧ status.category = .done).map WorkflowStatus.id

/-- The store after the first of the two writes of `completeSprint`. -/
def Db.moveUnfinished (db : Db) (tenantId id : Uuid) (doneStatusIds : List Uuid)
    (moveToSprintId : Option Uuid) : Db :=
  if doneStatusIds ≠ [] then db.carryOver tenantId id doneStatusIds moveToSprintId else db

/-- `completeSprint` up to its writes. -/
def completeChecks (tenantId id : Uuid) (moveToSprintId : Option Uuid) :
    WorkCall (Sprint × List Uuid) := do
  let sprint ← getSprint tenantId id
  Call.ensure (sprint.status = .active) (preconditionFailedException .sprintAlreadyActive
    "Only active sprints can be completed")
  assertSameProject tenantId sprint moveToSprintId
  let doneStatusIds ← findDoneStatusIds sprint.projectId
  pure (sprint, doneStatusIds)

/-- The writes of `completeSprint`. -/
def completeWrites (tenantId id : Uuid) (moveToSprintId : Option Uuid) (doneStatusIds : List Uuid) :
    WorkCall (Option Sprint) := do
  if doneStatusIds ≠ [] then carryOver tenantId id doneStatusIds moveToSprintId else pure ()
  let completedAt ← Call.query .other fun db ↦ db.now
  updateSprintRow id { status := .completed, completedAt }

theorem completeSprint_eq (tenantId id : Uuid) (moveToSprintId : Option Uuid) :
    completeSprint tenantId id moveToSprintId =
      completeChecks tenantId id moveToSprintId >>= fun checked ↦
        completeWrites tenantId id moveToSprintId checked.2 := by
  simp only [completeSprint, completeChecks, completeWrites, Call.bind_assoc, Call.pure_bind]

theorem findDoneStatusIds_reads (projectId : Uuid) : (findDoneStatusIds projectId).Only Reads := by
  simp [findDoneStatusIds]

theorem completeChecks_reads (tenantId id : Uuid) (moveToSprintId : Option Uuid) :
    (completeChecks tenantId id moveToSprintId).Only Reads := by
  simp [completeChecks, findDoneStatusIds_reads]

/-- The checks return the sprint and the `done` statuses of its project. -/
theorem completeChecks_ok_iff {doneStatusIds : List Uuid} :
    ((completeChecks tenantId id moveToSprintId).run db).1 = .ok (sprint, doneStatusIds) ↔
      Completable db tenantId id moveToSprintId sprint ∧
        doneStatusIds = db.doneStatusIds sprint.projectId := by
  simp only [completeChecks, ok_bind_iff (getSprint_reads _ _), ok_bind_iff (Call.only_ensure _ _),
    ok_bind_iff (assertSameProject_reads _ _ _), ok_bind_iff (findDoneStatusIds_reads _),
    getSprint_ok_iff, Call.run_ensure, assertSameProject_ok_iff]
  constructor
  · rintro ⟨found, ⟨hfound, htenant⟩, _, hactive, _, htarget, ids, hids, hresult⟩
    obtain ⟨rfl, rfl⟩ := Prod.mk.inj (Except.ok.inj hresult)
    exact ⟨⟨hfound, htenant, hactive, htarget⟩, (Except.ok.inj hids).symm⟩
  · rintro ⟨⟨hfound, htenant, hactive, htarget⟩, rfl⟩
    exact ⟨sprint, ⟨hfound, htenant⟩, (), hactive, (), htarget, _, rfl, rfl⟩

/-- The writes of `completeSprint` leave the items moved and the sprint completed. -/
theorem completeWrites_run (doneStatusIds : List Uuid) :
    ∃ result, (completeWrites tenantId id moveToSprintId doneStatusIds).run db =
      (.ok result, (db.moveUnfinished tenantId id doneStatusIds moveToSprintId).updateSprint id
        { status := .completed, completedAt := some db.now }) := by
  unfold completeWrites Db.moveUnfinished
  split_ifs
  · exact ⟨_, rfl⟩
  · exact ⟨_, rfl⟩

/-- The writes of `completeSprint` find the store as it was, or with the items moved. -/
theorem mem_found_completeWrites {doneStatusIds : List Uuid} :
    seen ∈ (completeWrites tenantId id moveToSprintId doneStatusIds).found db ↔
      seen = db ∨ seen = db.moveUnfinished tenantId id doneStatusIds moveToSprintId := by
  unfold completeWrites Db.moveUnfinished
  split_ifs
  · simp [carryOver, updateSprintRow, Call.query, Call.atomically, Call.found]
  · simp [updateSprintRow, Call.query, Call.atomically, Call.found]

/-- A completion that cannot start fails, and leaves the store alone throughout. -/
theorem completeSprint_refused
    (hrefused : ∀ sprint, ¬ Completable db tenantId id moveToSprintId sprint) :
    (∃ failure, (completeSprint tenantId id moveToSprintId).run db = (.error failure, db)) ∧
      ∀ seen ∈ (completeSprint tenantId id moveToSprintId).found db, seen = db := by
  have hreads := completeChecks_reads tenantId id moveToSprintId
  have hrun := run_of_reads hreads db
  cases hchecks : ((completeChecks tenantId id moveToSprintId).run db).1 with
  | ok checked => exact absurd (completeChecks_ok_iff.mp hchecks).1 (hrefused _)
  | error failure =>
    rw [hchecks] at hrun
    rw [completeSprint_eq, Call.run_bind, Call.found_bind, hrun, List.append_nil]
    exact ⟨⟨failure, rfl⟩, fun _ hseen ↦ eq_of_mem_found_of_reads hreads hseen⟩

/-- A completion that can start returns. Its steps find the store as it was, or with the items moved. -/
theorem completeSprint_returns (hsprint : Completable db tenantId id moveToSprintId sprint) :
    (∃ result, (completeSprint tenantId id moveToSprintId).run db = (.ok result,
      (db.moveUnfinished tenantId id (db.doneStatusIds sprint.projectId) moveToSprintId).updateSprint id
        { status := .completed, completedAt := some db.now })) ∧
      ∀ seen, seen ∈ (completeSprint tenantId id moveToSprintId).found db ↔ seen = db ∨
        seen = db.moveUnfinished tenantId id (db.doneStatusIds sprint.projectId) moveToSprintId := by
  have hreads := completeChecks_reads tenantId id moveToSprintId
  have hrun := run_of_reads hreads db
  rw [completeChecks_ok_iff.mpr ⟨hsprint, rfl⟩] at hrun
  rw [completeSprint_eq, Call.run_bind, Call.found_bind, hrun]
  refine ⟨completeWrites_run _, fun seen ↦ ?_⟩
  rw [List.mem_append, mem_found_completeWrites]
  constructor
  · rintro (hchecks | hwrites)
    · exact .inl (eq_of_mem_found_of_reads hreads hchecks)
    · exact hwrites
  · exact .inr

/-- A completion that returns could start. -/
theorem completeSprint_ok {result : Option Sprint}
    (hrun : (completeSprint tenantId id moveToSprintId).run db = (.ok result, after)) :
    ∃ sprint, Completable db tenantId id moveToSprintId sprint ∧
      after = (db.moveUnfinished tenantId id (db.doneStatusIds sprint.projectId)
        moveToSprintId).updateSprint id { status := .completed, completedAt := some db.now } := by
  by_contra hnone
  simp only [not_exists, not_and] at hnone
  have hrefused : ∀ sprint, ¬ Completable db tenantId id moveToSprintId sprint := by
    intro sprint hsprint
    obtain ⟨⟨_, hreturns⟩, _⟩ := completeSprint_returns hsprint
    exact hnone sprint hsprint (Prod.mk.inj (hrun.symm.trans hreturns)).2
  obtain ⟨⟨failure, hfailure⟩, _⟩ := completeSprint_refused hrefused
  cases (Prod.mk.inj (hrun.symm.trans hfailure)).1

/-- A completion that throws has left the store alone. -/
theorem completeSprint_error {failure : Failure}
    (hrun : (completeSprint tenantId id moveToSprintId).run db = (.error failure, after)) :
    after = db := by
  by_cases hsprint : ∃ sprint, Completable db tenantId id moveToSprintId sprint
  · obtain ⟨sprint, hsprint⟩ := hsprint
    obtain ⟨⟨_, hreturns⟩, _⟩ := completeSprint_returns hsprint
    cases (Prod.mk.inj (hrun.symm.trans hreturns)).1
  · obtain ⟨⟨_, hfailure⟩, _⟩ := completeSprint_refused (not_exists.mp hsprint)
    exact (Prod.mk.inj (hrun.symm.trans hfailure)).2

/-! ### What a completion should leave -/

/-- The item is live, in the sprint, and in none of the statuses. -/
def WorkItem.unfinishedIn (item : WorkItem) (id : Uuid) (doneStatusIds : List Uuid) : Bool :=
  item.iterationId = some id ∧ item.deletedAt = none ∧ item.statusId ∉ doneStatusIds

/-- The `done` statuses of the project of a sprint. -/
def Db.doneStatusIdsOf (db : Db) (id : Uuid) : List Uuid :=
  match db.sprints.find? fun row ↦ row.id = id with
  | some sprint => db.doneStatusIds sprint.projectId
  | none => []

/-- The sprint that takes over is another one, and not completed. -/
def CanTakeOver (db : Db) (id : Uuid) (moveToSprintId : Option Uuid) : Prop :=
  ∀ targetId ∈ moveToSprintId, targetId ≠ id ∧
    ∀ target ∈ db.sprints, target.id = targetId → target.status ≠ .completed

/-- What a completion should leave of a store: the sprint is completed, its unfinished items are where they
should go, its done items are still there, and the items of other sprints are unchanged. -/
structure CompletedInto (db : Db) (id : Uuid) (moveToSprintId : Option Uuid) (after : Db) : Prop where
  completed : (∃ sprint ∈ after.sprints, sprint.id = id) ∧
    ∀ sprint ∈ after.sprints, sprint.id = id → sprint.status = .completed
  target : CanTakeOver db id moveToSprintId
  unfinished : ∀ (index : ℕ), ∀ item ∈ db.workItems[index]?,
    item.unfinishedIn id (db.doneStatusIdsOf id) = true →
      after.workItems[index]? = some { item with iterationId := moveToSprintId }
  done : ∀ (index : ℕ), ∀ item ∈ db.workItems[index]?, item.iterationId = some id →
    item.statusId ∈ db.doneStatusIdsOf id → after.workItems[index]? = some item
  others : ∀ (index : ℕ), ∀ item ∈ db.workItems[index]?, item.iterationId ≠ some id →
    after.workItems[index]? = some item

/-- The condition: the sprint that takes over is another one and not completed, and an unfinished item of
the sprint is one of the tenant, in a project that has a `done` status. -/
def MovesUnfinished (db : Db) (tenantId id : Uuid) (moveToSprintId : Option Uuid) : Prop :=
  CanTakeOver db id moveToSprintId ∧
    ∀ item ∈ db.workItems, item.unfinishedIn id (db.doneStatusIdsOf id) = true →
      item.tenantId = tenantId ∧ db.doneStatusIdsOf id ≠ []

/-- The items after the moves: an unfinished item of the tenant has moved, if there is a `done` status. -/
theorem workItems_moveUnfinished (db : Db) (tenantId id : Uuid) (doneStatusIds : List Uuid)
    (moveToSprintId : Option Uuid) :
    (db.moveUnfinished tenantId id doneStatusIds moveToSprintId).workItems =
      db.workItems.map fun item ↦
        if item.unfinishedIn id doneStatusIds = true ∧ item.tenantId = tenantId ∧ doneStatusIds ≠ [] then
          { item with iterationId := moveToSprintId }
        else item := by
  unfold Db.moveUnfinished
  split_ifs with hdone
  · simp only [Db.carryOver, updateWhere]
    congr 1
    ext1 item
    congr 1
    simp only [WorkItem.unfinishedIn, decide_eq_true_eq, eq_iff_iff]
    tauto
  · simp only [hdone, and_false, if_false, List.map_id']

/-- An item that is not an unfinished one of the sprint stays as it is. -/
theorem getElem?_moveUnfinished_of_not {doneStatusIds : List Uuid} {index : ℕ} {item : WorkItem}
    (hindex : db.workItems[index]? = some item)
    (hstays : item.unfinishedIn id doneStatusIds = false) :
    (db.moveUnfinished tenantId id doneStatusIds moveToSprintId).workItems[index]? = some item := by
  rw [workItems_moveUnfinished, List.getElem?_map, hindex, Option.map_some, if_neg (by simp [hstays])]

theorem Completable.doneStatusIdsOf (hsprint : Completable db tenantId id moveToSprintId sprint) :
    db.doneStatusIdsOf id = db.doneStatusIds sprint.projectId := by
  rw [Db.doneStatusIdsOf, hsprint.found]

/-- The sprints do not change when items move. -/
theorem sprints_moveUnfinished (doneStatusIds : List Uuid) :
    (db.moveUnfinished tenantId id doneStatusIds moveToSprintId).sprints = db.sprints := by
  unfold Db.moveUnfinished
  split_ifs <;> rfl

/-- The sprint is completed after both writes. -/
theorem Completable.completed (hsprint : Completable db tenantId id moveToSprintId sprint)
    (doneStatusIds : List Uuid) {input : UpdateSprintInput} (hstatus : input.status = .completed) :
    let after := (db.moveUnfinished tenantId id doneStatusIds moveToSprintId).updateSprint id input
    (∃ sprint ∈ after.sprints, sprint.id = id) ∧
      ∀ sprint ∈ after.sprints, sprint.id = id → sprint.status = .completed := by
  have hmem := List.mem_of_find?_eq_some hsprint.found
  have hid : sprint.id = id := by simpa using List.find?_some hsprint.found
  simp only [Db.updateSprint, sprints_moveUnfinished]
  constructor
  · exact ⟨input.set sprint, set_mem_updateWhere hmem (decide_eq_true hid), hid⟩
  · intro row hrow hrowId
    obtain ⟨old, _, rfl⟩ := mem_updateWhere.mp hrow
    split_ifs at hrowId ⊢ with hold
    · exact hstatus
    · exact absurd (decide_eq_true hrowId) hold

/-- Assumes: the sprint that takes over is another one. The moves leave every unfinished item where it
should go exactly when all of them are of the tenant and the project has a `done` status. -/
theorem moveUnfinished_moves_iff {doneStatusIds : List Uuid}
    (htarget : CanTakeOver db id moveToSprintId) :
    (∀ (index : ℕ), ∀ item ∈ db.workItems[index]?, item.unfinishedIn id doneStatusIds = true →
      (db.moveUnfinished tenantId id doneStatusIds moveToSprintId).workItems[index]? =
        some { item with iterationId := moveToSprintId }) ↔
      ∀ item ∈ db.workItems, item.unfinishedIn id doneStatusIds = true →
        item.tenantId = tenantId ∧ doneStatusIds ≠ [] := by
  rw [workItems_moveUnfinished]
  constructor
  · intro hunfinished item hitem hin
    obtain ⟨index, hindex⟩ := List.mem_iff_getElem?.mp hitem
    have hafter := hunfinished index item hindex hin
    rw [List.getElem?_map, hindex, Option.map_some, Option.some_inj] at hafter
    by_contra hstays
    rw [if_neg fun h ↦ hstays h.2] at hafter
    have hself : moveToSprintId = some id :=
      (congrArg WorkItem.iterationId hafter).symm.trans (of_decide_eq_true hin).1
    exact (htarget id hself).1 rfl
  · intro hmoves index item hindex hin
    have hitem := List.mem_of_getElem? (Option.mem_def.mp hindex)
    rw [List.getElem?_map, Option.mem_def.mp hindex, Option.map_some,
      if_pos ⟨hin, hmoves item hitem hin⟩]

/-- Assumes: a completion has returned. It has left what it should exactly when the condition holds. -/
theorem completeSprint_post_iff {result : Option Sprint}
    (hrun : (completeSprint tenantId id moveToSprintId).run db = (.ok result, after)) :
    CompletedInto db id moveToSprintId after ↔ MovesUnfinished db tenantId id moveToSprintId := by
  obtain ⟨sprint, hsprint, rfl⟩ := completeSprint_ok hrun
  have hids := hsprint.doneStatusIdsOf
  constructor
  · intro hpost
    have hunfinished := hpost.unfinished
    rw [hids] at hunfinished
    exact ⟨hpost.target, hids ▸ (moveUnfinished_moves_iff hpost.target).mp hunfinished⟩
  · rintro ⟨htarget, hmoves⟩
    rw [hids] at hmoves
    have hunfinished := (moveUnfinished_moves_iff htarget).mpr hmoves
    rw [← hids] at hunfinished
    refine ⟨hsprint.completed _ rfl, htarget, hids ▸ hunfinished, ?_, ?_⟩
    · intro index item hindex _ hdone
      rw [hids] at hdone
      exact getElem?_moveUnfinished_of_not hindex (by simp [WorkItem.unfinishedIn, hdone])
    · intro index item hindex hother
      exact getElem?_moveUnfinished_of_not hindex (by simp [WorkItem.unfinishedIn, hother])

/-- A project with the active sprint 114, which the item 112 is in. -/
def startedSprint : List WorkRequest :=
  twoProjects ++ [.createSprint founder 100 "Sprint 1" {}, .startSprint 2 114,
    .updateWorkItem founder 112 { iterationId := some (some 114) }]

/-- The sprint of `startedSprint`. -/
def firstSprint : Sprint :=
  { id := 114, tenantId := 2, projectId := 100, name := "Sprint 1", status := .active, createdAt := 0 }

/-- A witness that the condition can be met: the unfinished item goes back to the backlog. -/
theorem completeSprint_post_iff_witness :
    ∃ result after, (completeSprint 2 114 none).run (runCalls emptyDb startedSprint) =
      (.ok result, after) ∧ CompletedInto (runCalls emptyDb startedSprint) 114 none after := by
  have hsprint : Completable (runCalls emptyDb startedSprint) 2 114 none firstSprint :=
    ⟨by decide +kernel, rfl, rfl, by simp⟩
  obtain ⟨⟨result, hrun⟩, _⟩ := completeSprint_returns hsprint
  refine ⟨result, _, hrun, (completeSprint_post_iff hrun).mpr ⟨by simp [CanTakeOver], ?_⟩⟩
  decide +kernel

/-- Without a `done` status the item stays in the completed sprint. -/
theorem unmovedItem :
    ¬ ∀ (db : Db) (tenantId id : Uuid) (moveToSprintId : Option Uuid) (result : Option Sprint)
      (after : Db), (completeSprint tenantId id moveToSprintId).run db = (.ok result, after) →
        CompletedInto db id moveToSprintId after := by
  intro halways
  have hsprint : Completable (runCalls emptyDb
      (startedSprint ++ [.deleteStatus 2 100 104, .deleteStatus 2 100 105])) 2 114 none firstSprint :=
    ⟨by decide +kernel, rfl, rfl, by simp⟩
  obtain ⟨⟨result, hrun⟩, _⟩ := completeSprint_returns hsprint
  have hpost := halways _ _ _ _ _ _ hrun
  have hmoved := hpost.unfinished 0 _ rfl (by decide +kernel)
  exact absurd hmoved (by decide +kernel)

/-! ### One write or two -/

/-- The sprint each item is in. -/
def Db.iterations (db : Db) : List (Uuid × Option Uuid) :=
  db.workItems.map fun item ↦ (item.id, item.iterationId)

/-- The status of each sprint. -/
def Db.sprintStatuses (db : Db) : List (Uuid × SprintStatus) :=
  db.sprints.map fun sprint ↦ (sprint.id, sprint.status)

/-- A completion is atomic, whichever of its steps fails: where it throws nothing has moved and no status
has changed, where it returns both writes are there, and no step finds items moved and the sprint still
active. -/
structure CompletesAtomically (db : Db) (tenantId id : Uuid) (moveToSprintId : Option Uuid) : Prop where
  thrown : ∀ steps failure thrown after,
    ((completeSprint tenantId id moveToSprintId).interrupted failure steps).run db =
      (.error thrown, after) →
        after.iterations = db.iterations ∧ after.sprintStatuses = db.sprintStatuses
  returned : ∀ steps failure result after,
    ((completeSprint tenantId id moveToSprintId).interrupted failure steps).run db =
      (.ok result, after) →
        after.workItems = (db.moveUnfinished tenantId id (db.doneStatusIdsOf id) moveToSprintId).workItems ∧
        (∃ sprint ∈ after.sprints, sprint.id = id) ∧
        ∀ sprint ∈ after.sprints, sprint.id = id → sprint.status = .completed
  observed : ∀ steps failure,
    ∀ seen ∈ ((completeSprint tenantId id moveToSprintId).interrupted failure steps).found db,
      seen.iterations ≠ db.iterations → ∀ sprint ∈ seen.sprints, sprint.id = id → sprint.status ≠ .active

/-- The condition: the completion is refused, or its first write has nothing to move. -/
def NothingToMove (db : Db) (tenantId id : Uuid) (moveToSprintId : Option Uuid) : Prop :=
  ∀ sprint, Completable db tenantId id moveToSprintId sprint →
    db.doneStatusIdsOf id = [] ∨ moveToSprintId = some id ∨
      ∀ item ∈ db.workItems, item.unfinishedIn id (db.doneStatusIdsOf id) = true →
        item.tenantId ≠ tenantId

/-- The first write moves nothing when it is skipped, when the items stay in the sprint, or when there are
none. -/
theorem iterations_moveUnfinished_iff {doneStatusIds : List Uuid} :
    (db.moveUnfinished tenantId id doneStatusIds moveToSprintId).iterations = db.iterations ↔
      doneStatusIds = [] ∨ moveToSprintId = some id ∨
        ∀ item ∈ db.workItems, item.unfinishedIn id doneStatusIds = true → item.tenantId ≠ tenantId := by
  rw [Db.iterations, workItems_moveUnfinished, List.map_map, Db.iterations, List.map_inj_left]
  constructor
  · intro hsame
    by_contra hmoves
    simp only [not_or, not_forall, not_not] at hmoves
    obtain ⟨hdone, hother, item, hitem, hin, htenant⟩ := hmoves
    have hitem := hsame item hitem
    rw [Function.comp_apply, if_pos ⟨hin, htenant, hdone⟩] at hitem
    exact hother ((congrArg Prod.snd hitem).trans (of_decide_eq_true hin).1)
  · intro hstays item hitem
    rw [Function.comp_apply]
    split_ifs with hmoves
    · obtain ⟨hin, htenant, hdone⟩ := hmoves
      rcases hstays with hempty | hself | hnone
      · exact absurd hempty hdone
      · rw [hself, (of_decide_eq_true hin).1]
      · exact absurd htenant (hnone item hitem hin)
    · rfl

/-- The statuses of the sprints do not change when items move. -/
theorem sprintStatuses_moveUnfinished (doneStatusIds : List Uuid) :
    (db.moveUnfinished tenantId id doneStatusIds moveToSprintId).sprintStatuses = db.sprintStatuses := by
  rw [Db.sprintStatuses, sprints_moveUnfinished, Db.sprintStatuses]

/-- What the steps of a completion find when there is nothing to move. -/
theorem NothingToMove.found (hnothing : NothingToMove db tenantId id moveToSprintId)
    (hseen : seen ∈ (completeSprint tenantId id moveToSprintId).found db) :
    seen.iterations = db.iterations ∧ seen.sprintStatuses = db.sprintStatuses := by
  by_cases hsprint : ∃ sprint, Completable db tenantId id moveToSprintId sprint
  · obtain ⟨sprint, hsprint⟩ := hsprint
    have hids := hsprint.doneStatusIdsOf
    rcases ((completeSprint_returns hsprint).2 seen).mp hseen with rfl | rfl
    · exact ⟨rfl, rfl⟩
    · exact ⟨iterations_moveUnfinished_iff.mpr (hids ▸ hnothing sprint hsprint),
        sprintStatuses_moveUnfinished _⟩
  · obtain rfl := (completeSprint_refused (not_exists.mp hsprint)).2 seen hseen
    exact ⟨rfl, rfl⟩

/-- A completion is atomic exactly when it is refused or has nothing to move. -/
theorem completeSprint_atomic_iff :
    CompletesAtomically db tenantId id moveToSprintId ↔
      NothingToMove db tenantId id moveToSprintId := by
  constructor
  · intro hatomic sprint hsprint
    have hmoved := ((completeSprint_returns hsprint).2 _).mpr (.inr rfl)
    obtain ⟨steps, hrun⟩ := Call.exists_interrupted hmoved .typeError
    have hsame := (hatomic.thrown steps _ _ _ hrun).1
    exact hsprint.doneStatusIdsOf ▸ iterations_moveUnfinished_iff.mp hsame
  · intro hnothing
    refine ⟨fun steps failure thrown after hrun ↦ ?_, fun steps failure result after hrun ↦ ?_,
      fun steps failure seen hseen hmoved ↦ ?_⟩
    · rcases Call.interrupted_run _ failure steps db with hsame | ⟨seen, hseen, hfail⟩
      · obtain rfl := completeSprint_error (hsame.symm.trans hrun)
        exact ⟨rfl, rfl⟩
      · obtain ⟨_, rfl⟩ := Prod.mk.inj (hfail.symm.trans hrun)
        exact hnothing.found hseen
    · rcases Call.interrupted_run _ failure steps db with hsame | ⟨seen, hseen, hfail⟩
      · obtain ⟨sprint, hsprint, rfl⟩ := completeSprint_ok (hsame.symm.trans hrun)
        rw [hsprint.doneStatusIdsOf]
        exact ⟨rfl, hsprint.completed _ rfl⟩
      · cases (Prod.mk.inj (hfail.symm.trans hrun)).1
    · exact absurd (hnothing.found (Call.found_interrupted _ steps db hseen)).1 hmoved

/-- The item has moved, and the sprint is still active when the second write fails. -/
theorem interruptedCompletion :
    ¬ ∀ (db : Db) (tenantId id : Uuid) (moveToSprintId : Option Uuid),
      CompletesAtomically db tenantId id moveToSprintId := by
  intro halways
  have hsprint : Completable (runCalls emptyDb startedSprint) 2 114 none firstSprint :=
    ⟨by decide +kernel, rfl, rfl, by simp⟩
  have hmoved := ((completeSprint_returns hsprint).2 _).mpr (.inr rfl)
  obtain ⟨steps, hrun⟩ := Call.exists_interrupted hmoved .typeError
  exact absurd ((halways _ 2 114 none).thrown steps _ _ _ hrun).1 (by decide +kernel)

end RallyApi.Work

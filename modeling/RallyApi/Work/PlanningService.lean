import RallyApi.Work.ProjectsService

/-!
# Sprints

The methods of `PlanningService` that create, start, complete and delete sprints, with the methods
of `SprintDrizzleRepository` they call. The index `ix_sprints_active` is not unique, so the database
accepts any number of active sprints of a project.
-/

set_option autoImplicit false
set_option relaxedAutoImplicit false

namespace RallyApi.Work

open Concurrency Platform Store

/-! ### `SprintDrizzleRepository` -/

/-- `findById`. -/
def findSprintById (id : Uuid) : WorkCall (Option Sprint) :=
  Call.query .other fun db ↦ db.sprints.find? fun sprint ↦ sprint.id = id

/-- The sprint is an active one of the project. -/
def Sprint.isActiveIn (sprint : Sprint) (projectId : Uuid) : Bool :=
  sprint.projectId = projectId ∧ sprint.status = .active

/-- `findActive`. -/
def findActive (projectId : Uuid) : WorkCall (Option Sprint) :=
  Call.query .other fun db ↦ db.sprints.find? fun sprint ↦ sprint.isActiveIn projectId

/-- `create`, against the primary key. -/
def insertSprint (sprint : Sprint) : WorkCall Sprint :=
  transaction .createSprint fun db ↦ do
    let created := { sprint with createdAt := db.now }
    checkPrimaryKey "sprints_pkey" Sprint.id db.sprints created.id
    .ok (created, { db with sprints := db.sprints ++ [created] })

/-- The part of `UpdateSprintInput` that starting and completing a sprint use. -/
structure UpdateSprintInput where
  status : SprintStatus
  completedAt : Option Timestamp := none

/-- The `SET` clause of `update` on one row. -/
def UpdateSprintInput.set (input : UpdateSprintInput) (sprint : Sprint) : Sprint :=
  { sprint with
    status := input.status
    completedAt := input.completedAt.or sprint.completedAt }

/-- The store after `update`. -/
def Db.updateSprint (db : Db) (id : Uuid) (input : UpdateSprintInput) : Db :=
  { db with sprints := updateWhere (fun sprint ↦ sprint.id = id) input.set db.sprints }

/-- `update`: the row afterwards, if there is one. -/
def updateSprintRow (id : Uuid) (input : UpdateSprintInput) : WorkCall (Option Sprint) :=
  Call.atomically (fun _ ↦ .updateSprint id input.status) fun db ↦
    ((db.updateSprint id input).sprints.find? fun sprint ↦ sprint.id = id,
      db.updateSprint id input)

/-- The store after `delete`. -/
def Db.deleteSprint (db : Db) (id : Uuid) : Db :=
  { db with sprints := deleteWhere (fun sprint ↦ sprint.id = id) db.sprints }

/-- `delete`. -/
def removeSprint (id : Uuid) : WorkCall Unit :=
  Call.atomically (fun _ ↦ .deleteSprint id) fun db ↦ ((), db.deleteSprint id)

/-! ### `PlanningService` -/

/-- The options of `createSprint`. -/
structure CreateSprintOpts where
  goal : Option String := none
  startDate : Option String := none
  endDate : Option String := none

/-- `createSprint`. -/
def createSprint (actor : Actor) (projectId : Uuid) (name : String) (opts : CreateSprintOpts) :
    WorkCall Sprint := do
  let _ ← getProject actor.tenantId projectId
  let id ← uuidv7
  insertSprint
    { id, tenantId := actor.tenantId, projectId, name, goal := opts.goal,
      startDate := opts.startDate, endDate := opts.endDate, createdAt := 0 }

/-- `getSprint`. -/
def getSprint (tenantId id : Uuid) : WorkCall Sprint := do
  let notFound := notFoundException .sprintNotFound "Sprint not found"
  let found ← findSprintById id
  let sprint ← Call.require found notFound
  Call.ensure (sprint.tenantId = tenantId) notFound
  pure sprint

/-- `deleteSprint`. -/
def deleteSprint (tenantId id : Uuid) : WorkCall Unit := do
  let sprint ← getSprint tenantId id
  Call.ensure (sprint.status = .planned) (preconditionFailedException .sprintAlreadyActive
    "Only planned sprints can be deleted")
  removeSprint id

/-- `startSprint`. -/
def startSprint (tenantId id : Uuid) : WorkCall (Option Sprint) := do
  let sprint ← getSprint tenantId id
  Call.ensure (sprint.status = .planned) (preconditionFailedException .sprintAlreadyActive
    "Sprint is not in planned state")
  let active ← findActive sprint.projectId
  Call.ensure active.isNone (conflictException .sprintAlreadyActive
    "Another sprint is already active for this project")
  updateSprintRow id { status := .active }

/-- The check of `completeSprint` on the sprint that takes over the unfinished items. -/
def assertSameProject (tenantId : Uuid) (sprint : Sprint) (moveToSprintId : Option Uuid) :
    WorkCall Unit :=
  match moveToSprintId with
  | none => pure ()
  | some moveToSprintId => do
    let target ← getSprint tenantId moveToSprintId
    Call.ensure (target.projectId = sprint.projectId) (preconditionFailedException
      .sprintProjectMismatch "Target sprint must belong to the same project")

/-- The identifiers of the statuses of a project in the category `done`. -/
def findDoneStatusIds (projectId : Uuid) : WorkCall (List Uuid) :=
  Call.query .other fun db ↦
    (db.workflowStatuses.filter fun status ↦
      status.projectId = projectId ∧ status.category = .done).map WorkflowStatus.id

/-- The store after the unfinished items of a sprint have moved: those in no `done` status. -/
def Db.carryOver (db : Db) (tenantId id : Uuid) (doneStatusIds : List Uuid)
    (moveToSprintId : Option Uuid) : Db :=
  { db with
    workItems := updateWhere
      (fun item ↦ item.iterationId = some id ∧ item.tenantId = tenantId ∧ item.deletedAt = none ∧
        item.statusId ∉ doneStatusIds)
      (fun item ↦ { item with iterationId := moveToSprintId }) db.workItems }

/-- The `UPDATE` of `completeSprint` on the work items. -/
def carryOver (tenantId id : Uuid) (doneStatusIds : List Uuid) (moveToSprintId : Option Uuid) :
    WorkCall Unit :=
  Call.atomically (fun _ ↦ .carryOver id moveToSprintId) fun db ↦
    ((), db.carryOver tenantId id doneStatusIds moveToSprintId)

/-- `completeSprint`. -/
def completeSprint (tenantId id : Uuid) (moveToSprintId : Option Uuid) :
    WorkCall (Option Sprint) := do
  let sprint ← getSprint tenantId id
  Call.ensure (sprint.status = .active) (preconditionFailedException .sprintAlreadyActive
    "Only active sprints can be completed")
  assertSameProject tenantId sprint moveToSprintId
  let doneStatusIds ← findDoneStatusIds sprint.projectId
  if doneStatusIds ≠ [] then carryOver tenantId id doneStatusIds moveToSprintId else pure ()
  let completedAt ← Call.query .other fun db ↦ db.now
  updateSprintRow id { status := .completed, completedAt }

end RallyApi.Work

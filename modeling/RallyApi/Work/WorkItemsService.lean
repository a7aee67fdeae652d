import RallyApi.Work.ActivityDiff
import RallyApi.Work.ProjectsService

/-!
# Work items

The methods of `WorkItemsService` that create, update, move and delete work items. An item and its
activity entries are written in one transaction; what a method checks before that, and the snapshot
an update is diffed against, it reads in separate statements.
-/

set_option autoImplicit false
set_option relaxedAutoImplicit false

namespace RallyApi.Work

open Concurrency Platform Store

/-! ### Activity -/

/-- `buildActivityInput`. A task is anchored to its parent. -/
def buildActivityInput (id : Uuid) (item : WorkItem) (entityType : ActivityEntityType)
    (actorId : Uuid) (action : ActivityAction) (changes : Option ActivityChange) : ActivityLog :=
  { id, tenantId := item.tenantId, projectId := item.projectId
    workItemId := match entityType with
      | .task => item.parentId.getD item.id
      | .workItem => item.id
    entityType, entityId := item.id, actorId, action, changes }

/-- The entries of an update, with identifiers counted from the given one. -/
def activityInputs (firstId : Uuid) (item : WorkItem) (entityType : ActivityEntityType)
    (actorId : Uuid) (entries : List ActivityDiffEntry) : List ActivityLog :=
  entries.zipIdx.map fun (entry, index) ↦
    buildActivityInput (firstId + index) item entityType actorId entry.action (some entry.change)

/-- The entries of an update belong to the item and carry the changes of the diff, in its order. -/
theorem activityInputs_changes (firstId : Uuid) (item : WorkItem) (entityType : ActivityEntityType)
    (actorId : Uuid) (entries : List ActivityDiffEntry) :
    (activityInputs firstId item entityType actorId entries).map
        (fun log ↦ (log.entityId, log.changes)) =
      entries.map fun entry ↦ (item.id, some entry.change) := by
  conv_rhs => rw [← List.zipIdx_map_fst 0 entries]
  rw [activityInputs, List.map_map, List.map_map]
  rfl

/-! ### Reading and checking -/

/-- `getWorkItem`. -/
def getWorkItem (tenantId id : Uuid) : WorkCall WorkItem := do
  let notFound := notFoundException .workItemNotFound "Work item not found"
  let found ← findWorkItemById id
  let item ← Call.require found notFound
  Call.ensure (item.tenantId = tenantId) notFound
  pure item

/-- What `resolveStatusId` picks from the statuses of the project. -/
def pickStatus (statuses : List WorkflowStatus) (requested : Option Uuid) : WorkCall Uuid :=
  match requested with
  | some requested => do
    let _ ← Call.require (statuses.find? fun status ↦ status.id = requested)
      (notFoundException .workflowStatusNotFound "Status not found for this project")
    pure requested
  | none => do
    let default ← Call.require ((statuses.find? fun status ↦ status.isDefault).or statuses.head?)
      (preconditionFailedException .workflowStatusNotFound
        "No workflow status configured for this project")
    pure default.id

/-- `resolveStatusId`. -/
def resolveStatusId (tenantId projectId : Uuid) (requested : Option Uuid) : WorkCall Uuid := do
  let statuses ← listStatuses tenantId projectId
  pickStatus statuses requested

/-- `assertTeamLinked`. -/
def assertTeamLinked (tenantId projectId teamId : Uuid) : WorkCall Unit := do
  let links ← listProjectTeams tenantId projectId
  Call.ensure (links.any fun link ↦ link.teamId = teamId ∧ link.status = .active)
    (preconditionFailedException .projectTeamLinkNotFound "Team is not linked to this project")

/-- The check of the parent in `createWorkItem`. -/
def assertParentInProject (tenantId projectId parentId : Uuid) : WorkCall Unit := do
  let parent ← getWorkItem tenantId parentId
  Call.ensure (parent.projectId = projectId) (preconditionFailedException
    .workItemParentScopeMismatch "Parent work item does not belong to the same project")

/-- Runs a check when its subject is there. -/
def whenPresent {α : Type} (subject : Option α) (check : α → WorkCall Unit) : WorkCall Unit :=
  match subject with
  | some subject => check subject
  | none => pure ()

/-! ### Creation -/

/-- `CreateWorkItemOpts`. -/
structure CreateWorkItemOpts where
  description : Option String := none
  statusId : Option Uuid := none
  scheduleState : Option ScheduleState := none
  priority : Option Priority := none
  assigneeId : Option Uuid := none
  reporterId : Option Uuid := none
  parentId : Option Uuid := none
  teamId : Option Uuid := none
  storyPoints : Option ℕ := none
  estimateHours : Option Hours := none
  todoHours : Option Hours := none
  actualHours : Option Hours := none
  acceptanceCriteria : Option String := none
  notes : Option String := none
  releaseNotes : Option String := none

/-- The row `createWorkItem` inserts. -/
def newWorkItem (actor : Actor) (projectId : Uuid) (type : WorkItemType) (title : String)
    (opts : CreateWorkItemOpts) (statusId : Uuid) (itemKey : String) (id : Uuid)
    (createdAt : Timestamp) : WorkItem :=
  { id, tenantId := actor.tenantId, projectId, itemKey, type, title,
    description := opts.description, statusId,
    scheduleState := opts.scheduleState.getD .defined, priority := opts.priority.getD .none,
    assigneeId := opts.assigneeId, reporterId := opts.reporterId.getD actor.sub,
    parentId := opts.parentId, teamId := opts.teamId, storyPoints := opts.storyPoints,
    estimateHours := opts.estimateHours, todoHours := opts.todoHours,
    actualHours := opts.actualHours, acceptanceCriteria := opts.acceptanceCriteria,
    notes := opts.notes, releaseNotes := opts.releaseNotes, createdBy := actor.sub, createdAt }

/-- The entry `createWorkItem` leaves in the activity log. -/
def creationEntry (id : Uuid) (item : WorkItem) (actorId : Uuid) : ActivityLog :=
  match item.type with
  | .task => buildActivityInput id item .task actorId .taskCreated none
  | _ => buildActivityInput id item .workItem actorId .workItemCreated none

/-- The transaction of `createWorkItem`. -/
def commitWorkItem (newItem : Uuid → Timestamp → WorkItem) (actorId : Uuid) (db : Db) :
    Except Failure (WorkItem × Db) := do
  let created := newItem db.nextUuid db.now
  let withItem ← insertWorkItem created db
  let withActivity ← appendMany [creationEntry (db.nextUuid + 1) created actorId] withItem
  pure (created, { withActivity with nextUuid := db.nextUuid + 2 })

/-- A committed creation has appended the item, whose identifier was new, and its entry. -/
theorem commitWorkItem_ok {newItem : Uuid → Timestamp → WorkItem} {actorId : Uuid} {db after : Db}
    {created : WorkItem} (hcommit : commitWorkItem newItem actorId db = .ok (created, after)) :
    created = newItem db.nextUuid db.now ∧ created.id ∉ db.workItems.map WorkItem.id ∧
      after = { db with
        workItems := db.workItems ++ [created]
        activityLogs := db.activityLogs ++ [creationEntry (db.nextUuid + 1) created actorId]
        nextUuid := db.nextUuid + 2 } := by
  obtain ⟨withItem, hitem, hcommit⟩ := bind_eq_ok.mp hcommit
  obtain ⟨withActivity, hactivity, hcommit⟩ := bind_eq_ok.mp hcommit
  obtain ⟨hfresh, rfl⟩ := insertWorkItem_ok hitem
  obtain rfl := appendMany_ok hactivity
  obtain ⟨rfl, rfl⟩ := Prod.mk.inj (Except.ok.inj hcommit)
  exact ⟨rfl, hfresh, rfl⟩

/-- `createWorkItem`. -/
def createWorkItem (actor : Actor) (projectId : Uuid) (type : WorkItemType) (title : String)
    (opts : CreateWorkItemOpts) : WorkCall WorkItem := do
  let project ← getProject actor.tenantId projectId
  whenPresent opts.assigneeId (assertWorkspaceMember project.workspaceId)
  whenPresent opts.parentId (assertParentInProject actor.tenantId projectId)
  let statusId ← resolveStatusId actor.tenantId projectId opts.statusId
  whenPresent opts.teamId (assertTeamLinked actor.tenantId projectId)
  let itemKey ← generateItemKey actor.tenantId projectId
  transaction .createWorkItem
    (commitWorkItem (newWorkItem actor projectId type title opts statusId itemKey) actor.sub)

/-- `createTask`. -/
def createTask (actor : Actor) (parentId : Uuid) (title : String) (opts : CreateWorkItemOpts) :
    WorkCall WorkItem := do
  let parent ← getWorkItem actor.tenantId parentId
  Call.ensure (parent.type ≠ .task) (preconditionFailedException .workItemInvalidParentType
    "A task cannot be created under another task")
  createWorkItem actor parent.projectId .task title
    { opts with parentId := some parent.id, assigneeId := opts.assigneeId.or parent.assigneeId }

/-! ### Update, move and deletion -/

/-- The checks of `updateWorkItem` on a new assignee. -/
def assertAssignable (tenantId : Uuid) (item : WorkItem) (assigneeId : UuidText) : WorkCall Unit := do
  if some assigneeId ≠ item.assigneeId.map .canonical then
    let project ← getProject tenantId item.projectId
    assertWorkspaceMember project.workspaceId assigneeId.value
  else pure ()

/-- The check of `updateWorkItem` on a new status. -/
def assertStatusReachable (item : WorkItem) (statusId : UuidText) : WorkCall Unit :=
  if statusId ≠ item.statusId then
    assertTransitionAllowed item.projectId item.statusId statusId.value
  else pure ()

/-- The transaction of `updateWorkItem`: the row and the entries of the diff. Rows are never removed,
but where there is none the update returns nothing, and an entry cannot be built from that. -/
def commitUpdate (actorId : Uuid) (item : WorkItem) (input : UpdateWorkItemInput) (db : Db) :
    Except Failure (Option WorkItem × Db) :=
  let isTask := item.type = .task
  let entries := diffWorkItem item input isTask
  let workItems := updateWorkItemRows item.id { input with updatedBy := some actorId } db.workItems
  match workItems.find? fun row ↦ row.id = item.id with
  | none => if entries.isEmpty then .ok (none, db) else .error .typeError
  | some updated => do
    let entityType := if isTask then .task else .workItem
    let withActivity ← appendMany
      (activityInputs db.nextUuid updated entityType actorId entries) { db with workItems }
    pure (some updated, { withActivity with nextUuid := db.nextUuid + entries.length })

/-- A committed update has set the row and appended one entry for each entry of the diff. -/
theorem commitUpdate_ok {actorId : Uuid} {item : WorkItem} {input : UpdateWorkItemInput}
    {db after : Db} {updated : Option WorkItem}
    (hcommit : commitUpdate actorId item input db = .ok (updated, after)) :
    ∃ logs nextUuid,
      after = { db with
        workItems := updateWorkItemRows item.id { input with updatedBy := some actorId }
          db.workItems
        activityLogs := db.activityLogs ++ logs
        nextUuid } ∧
      logs.map (fun log ↦ (log.entityId, log.changes)) =
        (diffWorkItem item input (item.type = .task)).map
          fun entry ↦ (item.id, some entry.change) := by
  unfold commitUpdate at hcommit
  dsimp only at hcommit
  split at hcommit
  next hnone =>
    split_ifs at hcommit with hempty
    obtain ⟨rfl, rfl⟩ := Prod.mk.inj (Except.ok.inj hcommit)
    have habsent : ∀ row ∈ db.workItems, decide (row.id = item.id) = false := by
      refine fun row hrow ↦ decide_eq_false fun hid ↦ ?_
      refine List.find?_eq_none.mp hnone _ (set_mem_updateWhere hrow (decide_eq_true hid)) ?_
      exact decide_eq_true hid
    refine ⟨[], db.nextUuid, ?_, by simp [List.isEmpty_iff.mp hempty]⟩
    rw [updateWorkItemRows, updateWhere_of_none habsent, List.append_nil]
  next row hrow =>
    obtain ⟨withActivity, hactivity, hcommit⟩ := bind_eq_ok.mp hcommit
    obtain rfl := appendMany_ok hactivity
    obtain ⟨rfl, rfl⟩ := Prod.mk.inj (Except.ok.inj hcommit)
    refine ⟨_, _, rfl, ?_⟩
    have hid : row.id = item.id := by simpa using List.find?_some hrow
    rw [activityInputs_changes, hid]

/-- `updateWorkItem`. -/
def updateWorkItem (actor : Actor) (id : Uuid) (input : UpdateWorkItemInput) :
    WorkCall (Option WorkItem) := do
  let item ← getWorkItem actor.tenantId id
  whenPresent input.assigneeId.join (assertAssignable actor.tenantId item)
  whenPresent input.statusId (assertStatusReachable item)
  transaction (fun _ ↦ .updateWorkItem item input) (commitUpdate actor.sub item input)

/-- `moveWorkItem`. -/
def moveWorkItem (actor : Actor) (id : Uuid) (toStatusId : UuidText) : WorkCall (Option WorkItem) :=
  updateWorkItem actor id { statusId := some toStatusId }

/-- `deleteWorkItem`. -/
def deleteWorkItem (tenantId id : Uuid) : WorkCall Unit := do
  let _ ← getWorkItem tenantId id
  softDeleteWorkItem id

end RallyApi.Work

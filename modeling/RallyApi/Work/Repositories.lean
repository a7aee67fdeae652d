import Mathlib.Data.List.Sort
import RallyApi.Platform.UuidSource
import RallyApi.Store.Table
import RallyApi.Work.Schema

/-!
# Repositories of the work store

One definition per repository method that the services of projects and work items call. A method
that commits by itself is an atomic step. A method that runs inside a transaction of a service is
given on the store (`Db → …`), and the service puts them together in one step.

There are no foreign keys: a write is only refused by a primary key, a unique index or the range of
a column.
-/

set_option autoImplicit false
set_option relaxedAutoImplicit false

namespace RallyApi.Work

open Concurrency Platform Store

/-! ### Identifiers and transactions -/

/-- The identifiers of the store. -/
def uuidSource : UuidSource Db :=
  .counter (fun db ↦ db.nextUuid) (fun nextUuid db ↦ { db with nextUuid }) fun _ _ ↦ rfl

/-- `uuidv7()`. -/
def uuidv7 : WorkCall Uuid := uuidSource.uuidv7 fun _ ↦ .other

/-- The step of `uuidv7`. -/
theorem uuidv7_eq : uuidv7 = Call.atomically (fun _ ↦ .other)
    fun db ↦ (db.nextUuid, { db with nextUuid := db.nextUuid + 1 }) := rfl

/-- `UnitOfWork.run`, or a single statement: what it writes commits together, under a label that
tells what it was. -/
def transaction {α : Type} (label : α → WorkStep) (statements : Db → Except Failure (α × Db)) :
    WorkCall α :=
  Call.transaction .other label statements

/-- A primary key: no row of the table has the identifier yet. -/
def checkPrimaryKey {Row : Type} (index : String) (id : Row → Uuid) (rows : List Row) (new : Uuid) :
    Except Failure Unit :=
  if rows.any fun row ↦ id row = new then .error (.uniqueViolation index) else .ok ()

/-! ### `ProjectDrizzleRepository` -/

/-- `findById`. -/
def findProjectById (id : Uuid) : WorkCall (Option Project) :=
  Call.query .other fun db ↦ db.projects.find? fun project ↦ project.id = id

/-- The project holds a key of a tenant, in the sense of `uq_projects_key`: it is not deleted. -/
def Project.occupies (project : Project) (tenantId : Uuid) (key : String) : Bool :=
  project.tenantId = tenantId ∧ project.key = key ∧ project.deletedAt = none

/-- `findByKey`. -/
def findProjectByKey (tenantId : Uuid) (key : String) : WorkCall (Option Project) :=
  Call.query .other fun db ↦ db.projects.find? fun project ↦ project.occupies tenantId key

/-- `create`, in a transaction, against the primary key and the partial index `uq_projects_key`. -/
def insertProject (project : Project) (db : Db) : Except Failure Db := do
  checkPrimaryKey "projects_pkey" Project.id db.projects project.id
  if project.deletedAt = none ∧ db.projects.any fun row ↦ row.occupies project.tenantId project.key
  then .error (.uniqueViolation "uq_projects_key")
  else .ok { db with projects := db.projects ++ [project] }

/-- The store after `softDelete`. -/
def Db.deleteProject (db : Db) (id : Uuid) : Db :=
  { db with
    projects := updateWhere (fun project ↦ project.id = id)
      (fun project ↦ { project with deletedAt := some db.now }) db.projects }

/-- `softDelete`. -/
def softDeleteProject (id : Uuid) : WorkCall Unit :=
  Call.atomically (fun _ ↦ .deleteProject id) fun db ↦ ((), db.deleteProject id)

/-- `initCounter`, in a transaction: an existing counter is left as it is. -/
def initCounter (projectId tenantId : Uuid) (counters : List ProjectCounter) :
    List ProjectCounter :=
  if counters.any fun counter ↦ counter.projectId = projectId then counters
  else counters ++ [{ projectId, tenantId : ProjectCounter }]

/-- The largest value of an `integer` column. -/
def maxInteger : ℕ := 2147483647

/-- The store after `incrementCounter`. -/
def Db.incrementCounter (db : Db) (projectId : Uuid) : Db :=
  { db with
    projectCounters := updateWhere (fun counter ↦ counter.projectId = projectId)
      (fun counter ↦ { counter with lastItemNumber := counter.lastItemNumber + 1 })
      db.projectCounters }

/-- The statement of `incrementCounter`: one `UPDATE … RETURNING`. A project without a counter has no
row to read the number from. -/
def nextItemNumber (projectId : Uuid) (db : Db) : Except Failure (ℕ × Db) :=
  match db.projectCounters.find? fun counter ↦ counter.projectId = projectId with
  | none => .error .typeError
  | some counter =>
    if counter.lastItemNumber < maxInteger then
      .ok (counter.lastItemNumber + 1, db.incrementCounter projectId)
    else .error .numericValueOutOfRange

/-- `incrementCounter`. -/
def incrementCounter (projectId : Uuid) : WorkCall ℕ :=
  transaction (fun seq ↦ .incrementCounter projectId seq) (nextItemNumber projectId)

/-! ### `ProjectMemberDrizzleRepository`, `ProjectTeamDrizzleRepository`,
`WorkspaceMemberDrizzleRepository` -/

/-- `addMember`, in a transaction, against the primary key and `uq_project_member`. -/
def addProjectMember (member : ProjectMember) (db : Db) : Except Failure Db := do
  checkPrimaryKey "project_members_pkey" ProjectMember.id db.projectMembers member.id
  if db.projectMembers.any fun row ↦
      row.projectId = member.projectId ∧ row.userId = member.userId then
    .error (.uniqueViolation "uq_project_member")
  else .ok { db with projectMembers := db.projectMembers ++ [member] }

/-- `listByProject`: the active links. -/
def listTeamLinks (projectId : Uuid) : WorkCall (List ProjectTeamLink) :=
  Call.query .other fun db ↦
    db.projectTeams.filter fun link ↦ link.projectId = projectId ∧ link.status = .active

/-- `WorkspaceMemberDrizzleRepository.findMember`. -/
def findWorkspaceMember (workspaceId userId : Uuid) : WorkCall (Option WorkspaceMember) :=
  Call.query .other fun db ↦
    db.workspaceMembers.find? fun member ↦ member.workspaceId = workspaceId ∧ member.userId = userId

/-! ### `WorkflowStatusDrizzleRepository` -/

/-- `findById`. -/
def findStatusById (id : Uuid) : WorkCall (Option WorkflowStatus) :=
  Call.query .other fun db ↦ db.workflowStatuses.find? fun status ↦ status.id = id

/-- The rows of `listByProject`, by position. -/
def statusesOf (projectId : Uuid) (statuses : List WorkflowStatus) : List WorkflowStatus :=
  (statuses.filter fun status ↦ status.projectId = projectId).insertionSort
    fun a b ↦ a.position ≤ b.position

/-- `listByProject`. -/
def listStatusesByProject (projectId : Uuid) : WorkCall (List WorkflowStatus) :=
  Call.query .other fun db ↦ statusesOf projectId db.workflowStatuses

/-- `create`, against the primary key. -/
def insertStatus (status : WorkflowStatus) (db : Db) : Except Failure Db := do
  checkPrimaryKey "workflow_statuses_pkey" WorkflowStatus.id db.workflowStatuses status.id
  .ok { db with workflowStatuses := db.workflowStatuses ++ [status] }

/-- The store after `delete`. -/
def Db.deleteStatus (db : Db) (id : Uuid) : Db :=
  { db with
    workflowStatuses := deleteWhere (fun status ↦ status.id = id) db.workflowStatuses }

/-- `delete`. -/
def removeStatus (id : Uuid) : WorkCall Unit :=
  Call.atomically (fun _ ↦ .deleteStatus id) fun db ↦ ((), db.deleteStatus id)

/-- What `canTransition` computes from the transitions: a project without transitions is an open
workflow. -/
def transitionAllowed (transitions : List WorkflowTransition)
    (projectId fromStatusId toStatusId : Uuid) : Bool :=
  let allTransitions := transitions.filter fun transition ↦ transition.projectId = projectId
  allTransitions.isEmpty || allTransitions.any fun transition ↦
    transition.toStatusId = toStatusId ∧
      (transition.fromStatusId = none ∨ transition.fromStatusId = some fromStatusId)

/-- `canTransition`. -/
def canTransition (projectId fromStatusId toStatusId : Uuid) : WorkCall Bool :=
  Call.query .other fun db ↦
    transitionAllowed db.workflowTransitions projectId fromStatusId toStatusId

/-- `findTransitionById`. -/
def findTransitionById (id : Uuid) : WorkCall (Option WorkflowTransition) :=
  Call.query .other fun db ↦ db.workflowTransitions.find? fun transition ↦ transition.id = id

/-- `createTransition`, against the primary key. -/
def insertTransition (transition : WorkflowTransition) : WorkCall WorkflowTransition :=
  transaction .createTransition fun db ↦ do
    checkPrimaryKey "workflow_transitions_pkey" WorkflowTransition.id db.workflowTransitions
      transition.id
    .ok (transition, { db with workflowTransitions := db.workflowTransitions ++ [transition] })

/-- The store after `deleteTransition`. -/
def Db.deleteTransition (db : Db) (id : Uuid) : Db :=
  { db with
    workflowTransitions := deleteWhere (fun transition ↦ transition.id = id)
      db.workflowTransitions }

/-- `deleteTransition`. -/
def removeTransition (id : Uuid) : WorkCall Unit :=
  Call.atomically (fun _ ↦ .deleteTransition id) fun db ↦ ((), db.deleteTransition id)

/-! ### `WorkItemDrizzleRepository` -/

/-- `findById`: a deleted item is not found. -/
def findWorkItemById (id : Uuid) : WorkCall (Option WorkItem) :=
  Call.query .other fun db ↦ db.workItems.find? fun item ↦ item.id = id ∧ item.deletedAt = none

/-- `create`, in a transaction, against the primary key and `uq_wi_item_key`. -/
def insertWorkItem (item : WorkItem) (db : Db) : Except Failure Db := do
  checkPrimaryKey "work_items_pkey" WorkItem.id db.workItems item.id
  if db.workItems.any fun row ↦ row.projectId = item.projectId ∧ row.itemKey = item.itemKey then
    .error (.uniqueViolation "uq_wi_item_key")
  else .ok { db with workItems := db.workItems ++ [item] }

/-- The `SET` clause of `update` on one row. -/
def UpdateWorkItemInput.set (input : UpdateWorkItemInput) (item : WorkItem) : WorkItem :=
  { item with
    title := input.title.getD item.title
    description := input.description.getD item.description
    statusId := (input.statusId.map UuidText.value).getD item.statusId
    scheduleState := input.scheduleState.getD item.scheduleState
    priority := input.priority.getD item.priority
    assigneeId := (input.assigneeId.map (Option.map UuidText.value)).getD item.assigneeId
    reporterId := input.reporterId.getD item.reporterId
    parentId := input.parentId.getD item.parentId
    teamId := (input.teamId.map (Option.map UuidText.value)).getD item.teamId
    iterationId := (input.iterationId.map (Option.map UuidText.value)).getD item.iterationId
    releaseId := (input.releaseId.map (Option.map UuidText.value)).getD item.releaseId
    storyPoints := input.storyPoints.getD item.storyPoints
    estimateHours := input.estimateHours.getD item.estimateHours
    todoHours := input.todoHours.getD item.todoHours
    actualHours := input.actualHours.getD item.actualHours
    acceptanceCriteria := input.acceptanceCriteria.getD item.acceptanceCriteria
    notes := input.notes.getD item.notes
    releaseNotes := input.releaseNotes.getD item.releaseNotes
    isBlocked := input.isBlocked.getD item.isBlocked
    blockedReason := input.blockedReason.getD item.blockedReason
    rank := input.rank.getD item.rank
    customFields := input.customFields.getD item.customFields
    updatedBy := input.updatedBy.or item.updatedBy }

/-- `update`, in a transaction: the table afterwards. A deleted item is updated too. -/
def updateWorkItemRows (id : Uuid) (input : UpdateWorkItemInput) (items : List WorkItem) :
    List WorkItem :=
  updateWhere (fun item ↦ item.id = id) input.set items

/-- The store after `softDelete`. -/
def Db.deleteWorkItem (db : Db) (id : Uuid) : Db :=
  { db with
    workItems := updateWhere (fun item ↦ item.id = id)
      (fun item ↦ { item with deletedAt := some db.now }) db.workItems }

/-- `softDelete`. -/
def softDeleteWorkItem (id : Uuid) : WorkCall Unit :=
  Call.atomically (fun _ ↦ .deleteWorkItem id) fun db ↦ ((), db.deleteWorkItem id)

/-! ### `ActivityLogDrizzleRepository` -/

/-- `appendMany`, in a transaction, against the primary key. -/
def appendMany (inputs : List ActivityLog) (db : Db) : Except Failure Db :=
  if inputs.any fun input ↦ db.activityLogs.any fun row ↦ row.id = input.id then
    .error (.uniqueViolation "activity_logs_pkey")
  else .ok { db with activityLogs := db.activityLogs ++ inputs }

/-! ### What the writes do -/

@[simp]
theorem checkPrimaryKey_ok {Row : Type} {index : String} {id : Row → Uuid} {rows : List Row}
    {new : Uuid} {result : Unit} :
    checkPrimaryKey index id rows new = .ok result ↔ new ∉ rows.map id := by
  unfold checkPrimaryKey
  split_ifs with hany <;> simpa using hany

/-- A number is handed out from a counter of the project. -/
theorem nextItemNumber_ok {projectId : Uuid} {db after : Db} {seq : ℕ}
    (hnext : nextItemNumber projectId db = .ok (seq, after)) :
    (∃ counter ∈ db.projectCounters,
      counter.projectId = projectId ∧ seq = counter.lastItemNumber + 1) ∧
      after = db.incrementCounter projectId := by
  unfold nextItemNumber at hnext
  split at hnext
  · cases hnext
  next counter hcounter =>
    split_ifs at hnext
    obtain ⟨rfl, rfl⟩ := Prod.mk.inj (Except.ok.inj hnext)
    exact ⟨⟨counter, List.mem_of_find?_eq_some hcounter,
      by simpa using List.find?_some hcounter, rfl⟩, rfl⟩

/-- A successful insertion of a project appends it; its identifier was new, and so was its key among
the projects of the tenant that are not deleted. -/
theorem insertProject_ok {project : Project} {db after : Db}
    (hinsert : insertProject project db = .ok after) :
    project.id ∉ db.projects.map Project.id ∧
      (project.deletedAt = none →
        ∀ row ∈ db.projects, row.occupies project.tenantId project.key = false) ∧
      after = { db with projects := db.projects ++ [project] } := by
  obtain ⟨_, hprimary, hrest⟩ := bind_eq_ok.mp hinsert
  split_ifs at hrest with hkey
  refine ⟨checkPrimaryKey_ok.mp hprimary, fun hlive row hrow ↦ ?_, (Except.ok.inj hrest).symm⟩
  rw [Bool.eq_false_iff]
  exact fun hoccupies ↦ hkey ⟨hlive, List.any_eq_true.mpr ⟨row, hrow, hoccupies⟩⟩

theorem addProjectMember_ok {member : ProjectMember} {db after : Db}
    (hinsert : addProjectMember member db = .ok after) :
    after = { db with projectMembers := db.projectMembers ++ [member] } := by
  obtain ⟨_, _, hrest⟩ := bind_eq_ok.mp hinsert
  split_ifs at hrest
  exact (Except.ok.inj hrest).symm

theorem insertStatus_ok {status : WorkflowStatus} {db after : Db}
    (hinsert : insertStatus status db = .ok after) :
    after = { db with workflowStatuses := db.workflowStatuses ++ [status] } := by
  obtain ⟨_, _, hrest⟩ := bind_eq_ok.mp hinsert
  exact (Except.ok.inj hrest).symm

theorem insertStatuses_ok {statuses : List WorkflowStatus} {db after : Db}
    (hinsert : statuses.foldlM (fun store status ↦ insertStatus status store) db = .ok after) :
    after = { db with workflowStatuses := db.workflowStatuses ++ statuses } := by
  induction statuses generalizing db with
  | nil =>
    obtain rfl := Except.ok.inj hinsert
    rw [List.append_nil]
  | cons status rest ih =>
    rw [List.foldlM_cons] at hinsert
    obtain ⟨middle, hstatus, hrest⟩ := bind_eq_ok.mp hinsert
    rw [ih hrest, insertStatus_ok hstatus, List.append_assoc, List.singleton_append]

/-- A successful insertion of a work item appends it, and its identifier was new. -/
theorem insertWorkItem_ok {item : WorkItem} {db after : Db}
    (hinsert : insertWorkItem item db = .ok after) :
    item.id ∉ db.workItems.map WorkItem.id ∧
      after = { db with workItems := db.workItems ++ [item] } := by
  obtain ⟨_, hprimary, hrest⟩ := bind_eq_ok.mp hinsert
  split_ifs at hrest
  exact ⟨checkPrimaryKey_ok.mp hprimary, (Except.ok.inj hrest).symm⟩

theorem appendMany_ok {inputs : List ActivityLog} {db after : Db}
    (hinsert : appendMany inputs db = .ok after) :
    after = { db with activityLogs := db.activityLogs ++ inputs } := by
  unfold appendMany at hinsert
  split_ifs at hinsert
  exact (Except.ok.inj hinsert).symm

/-- A row of the table after an update was there before, and is set by the update when it is the row
of the item the update is about. -/
theorem exists_of_mem_updateWorkItemRows {id : Uuid} {input : UpdateWorkItemInput}
    {items : List WorkItem} {row : WorkItem} (hrow : row ∈ updateWorkItemRows id input items) :
    ∃ old ∈ items, old.id = row.id ∧ row = if row.id = id then input.set old else old := by
  obtain ⟨old, hold, rfl⟩ := mem_updateWhere.mp hrow
  refine ⟨old, hold, ?_⟩
  simp only [decide_eq_true_eq]
  by_cases hid : old.id = id
  · rw [if_pos hid]
    exact ⟨rfl, (if_pos hid).symm⟩
  · rw [if_neg hid]
    exact ⟨rfl, (if_neg hid).symm⟩

end RallyApi.Work

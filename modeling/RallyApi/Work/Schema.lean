import RallyApi.Concurrency.Call
import RallyApi.Platform.Errors
import RallyApi.Platform.Scalars

/-!
# The work store

The tables of projects, workflows, work items, sprints and the activity log (`db/schema/work.ts`),
with the workspace members that the services check assignees and leads against. A row keeps the
columns a modelled function reads or writes. There are no foreign keys in the database.

`WorkStep` labels the atomic steps of the services by the write they make.
-/

set_option autoImplicit false
set_option relaxedAutoImplicit false

namespace RallyApi.Work

open Platform

/-! ### Projects -/

/-- `project_status`. -/
inductive ProjectStatus
  | active
  | archived
  deriving DecidableEq, Repr

/-- A row of `work.projects`. -/
structure Project where
  id : Uuid
  tenantId : Uuid
  workspaceId : Uuid
  key : String
  name : String
  description : Option String := none
  leadId : Option Uuid := none
  status : ProjectStatus := .active
  createdAt : Timestamp
  deletedAt : Option Timestamp := none
  deriving DecidableEq, Repr

/-- A row of `work.project_counters`. -/
structure ProjectCounter where
  projectId : Uuid
  tenantId : Uuid
  lastItemNumber : ℕ := 0
  deriving DecidableEq, Repr

/-- The status of a membership: `active`, or ended. -/
inductive MemberStatus
  | active
  | ended
  deriving DecidableEq, Repr

/-- A row of `work.project_members`. -/
structure ProjectMember where
  id : Uuid
  tenantId : Uuid
  projectId : Uuid
  userId : Uuid
  status : MemberStatus := .active
  deriving DecidableEq, Repr

/-- A row of `work.project_teams`. -/
structure ProjectTeamLink where
  projectId : Uuid
  teamId : Uuid
  status : MemberStatus := .active
  deriving DecidableEq, Repr

/-- A row of `tenancy.workspace_members`. -/
structure WorkspaceMember where
  workspaceId : Uuid
  userId : Uuid
  status : MemberStatus := .active
  deriving DecidableEq, Repr

/-! ### Workflows -/

/-- `workflow_status_category`. -/
inductive WorkflowStatusCategory
  | toDo
  | inProgress
  | done
  deriving DecidableEq, Repr

/-- A row of `work.workflow_statuses`. -/
structure WorkflowStatus where
  id : Uuid
  tenantId : Uuid
  projectId : Uuid
  name : String
  category : WorkflowStatusCategory
  color : Option String := none
  position : ℤ
  isDefault : Bool := false
  deriving DecidableEq, Repr

/-- A row of `work.workflow_transitions`. A transition without a source starts at any status. -/
structure WorkflowTransition where
  id : Uuid
  tenantId : Uuid
  projectId : Uuid
  fromStatusId : Option Uuid := none
  toStatusId : Uuid
  name : Option String := none
  deriving DecidableEq, Repr

/-! ### Work items -/

/-- `work_item_type`. -/
inductive WorkItemType
  | initiative
  | feature
  | story
  | task
  | defect
  deriving DecidableEq, Repr

/-- `work_item_schedule_state`. -/
inductive ScheduleState
  | idea
  | defined
  | inProgress
  | completed
  | accepted
  | released
  deriving DecidableEq, Repr

/-- `work_item_priority`. -/
inductive Priority
  | none
  | low
  | normal
  | high
  | urgent
  deriving DecidableEq, Repr

/-- A number of hours with two decimals, `numeric(8, 2)`. Requests carry it as the string that
`toFixed(2)` gives. -/
structure Hours where
  hundredths : ℕ
  deriving DecidableEq, Repr

/-- A row of `work.work_items`. `customFields` is the text of the JSON document. -/
structure WorkItem where
  id : Uuid
  tenantId : Uuid
  projectId : Uuid
  itemKey : String
  type : WorkItemType
  title : String
  description : Option String := none
  statusId : Uuid
  scheduleState : ScheduleState := .defined
  priority : Priority := .none
  assigneeId : Option Uuid := none
  reporterId : Option Uuid := none
  parentId : Option Uuid := none
  teamId : Option Uuid := none
  iterationId : Option Uuid := none
  releaseId : Option Uuid := none
  storyPoints : Option ℕ := none
  estimateHours : Option Hours := none
  todoHours : Option Hours := none
  actualHours : Option Hours := none
  acceptanceCriteria : Option String := none
  notes : Option String := none
  releaseNotes : Option String := none
  isBlocked : Bool := false
  blockedReason : Option String := none
  rank : String := ""
  customFields : String := "{}"
  createdBy : Uuid
  updatedBy : Option Uuid := none
  createdAt : Timestamp
  deletedAt : Option Timestamp := none
  deriving DecidableEq, Repr

/-- `UpdateWorkItemInput`: a field that is absent stays as it is, and a nullable field may be set to
`null`. An identifier is the text of the request where the services compare it with a column. -/
structure UpdateWorkItemInput where
  title : Option String := none
  description : Option (Option String) := none
  statusId : Option UuidText := none
  scheduleState : Option ScheduleState := none
  priority : Option Priority := none
  assigneeId : Option (Option UuidText) := none
  reporterId : Option (Option Uuid) := none
  parentId : Option (Option Uuid) := none
  teamId : Option (Option UuidText) := none
  iterationId : Option (Option UuidText) := none
  releaseId : Option (Option UuidText) := none
  storyPoints : Option (Option ℕ) := none
  estimateHours : Option (Option Hours) := none
  todoHours : Option (Option Hours) := none
  actualHours : Option (Option Hours) := none
  acceptanceCriteria : Option (Option String) := none
  notes : Option (Option String) := none
  releaseNotes : Option (Option String) := none
  isBlocked : Option Bool := none
  blockedReason : Option (Option String) := none
  rank : Option String := none
  customFields : Option String := none
  updatedBy : Option Uuid := none
  deriving DecidableEq, Repr

/-! ### The activity log -/

/-- `ActivityAction`. -/
inductive ActivityAction
  | workItemCreated
  | workItemUpdated
  | workItemScheduleStateChanged
  | workItemFlowStateChanged
  | workItemPriorityChanged
  | workItemAssigned
  | workItemEstimateUpdated
  | taskCreated
  | taskUpdated
  | taskStateChanged
  | taskEstimateUpdated
  | taskTodoUpdated
  | taskActualUpdated
  deriving DecidableEq, Repr

/-- The fields of a work item whose changes the activity log records. -/
inductive Field
  | title
  | description
  | notes
  | releaseNotes
  | acceptanceCriteria
  | isBlocked
  | blockedReason
  | teamId
  | iterationId
  | releaseId
  | statusId
  | scheduleState
  | priority
  | assigneeId
  | storyPoints
  | estimateHours
  | todoHours
  | actualHours
  deriving DecidableEq, Repr

/-- A value the activity log compares and stores: `null`, or a value of the type of its field. -/
inductive Value
  | null
  | text (text : String)
  | uuid (id : UuidText)
  | number (number : ℕ)
  | hours (hours : Hours)
  | flag (flag : Bool)
  | scheduleState (state : ScheduleState)
  | priority (priority : Priority)
  deriving DecidableEq, Repr

/-- `ActivityChange`. -/
structure ActivityChange where
  field : Field
  old : Value
  new : Value
  deriving DecidableEq, Repr

/-- `ActivityEntityType`, for items and tasks. -/
inductive ActivityEntityType
  | workItem
  | task
  deriving DecidableEq, Repr

/-- A row of `work.activity_logs`. -/
structure ActivityLog where
  id : Uuid
  tenantId : Uuid
  projectId : Uuid
  workItemId : Uuid
  entityType : ActivityEntityType
  entityId : Uuid
  actorId : Uuid
  action : ActivityAction
  changes : Option ActivityChange
  deriving DecidableEq, Repr

/-! ### Sprints -/

/-- `sprint_status`. -/
inductive SprintStatus
  | planned
  | active
  | completed
  deriving DecidableEq, Repr

/-- A row of `work.sprints`. -/
structure Sprint where
  id : Uuid
  tenantId : Uuid
  projectId : Uuid
  name : String
  goal : Option String := none
  status : SprintStatus := .planned
  startDate : Option String := none
  endDate : Option String := none
  completedAt : Option Timestamp := none
  createdAt : Timestamp
  deriving DecidableEq, Repr

/-! ### The store and its steps -/

/-- The store, with the clock and the source of fresh identifiers. -/
structure Db where
  now : Timestamp := 0
  nextUuid : ℕ := 0
  projects : List Project := []
  projectCounters : List ProjectCounter := []
  projectMembers : List ProjectMember := []
  projectTeams : List ProjectTeamLink := []
  workspaceMembers : List WorkspaceMember := []
  workflowStatuses : List WorkflowStatus := []
  workflowTransitions : List WorkflowTransition := []
  workItems : List WorkItem := []
  activityLogs : List ActivityLog := []
  sprints : List Sprint := []

/-- What an atomic step does. `other` reads, draws identifiers or lets time pass. An update of a
work item carries the item as the call has read it and the change set. -/
inductive WorkStep
  | other
  | createProject (project : Project)
  | deleteProject (id : Uuid)
  | incrementCounter (projectId : Uuid) (seq : ℕ)
  | createStatus (status : WorkflowStatus)
  | deleteStatus (id : Uuid)
  | createTransition (transition : WorkflowTransition)
  | deleteTransition (id : Uuid)
  | createWorkItem (item : WorkItem)
  | updateWorkItem (snapshot : WorkItem) (input : UpdateWorkItemInput)
  | deleteWorkItem (id : Uuid)
  | carryOver (sprintId : Uuid) (target : Option Uuid)
  | createSprint (sprint : Sprint)
  | updateSprint (id : Uuid) (status : SprintStatus)
  | deleteSprint (id : Uuid)
  deriving DecidableEq, Repr

/-- A call of the services of the work store. -/
abbrev WorkCall := Concurrency.Call Db WorkStep Failure

/-- The claims of the access token the services read. -/
structure Actor where
  sub : Uuid
  tenantId : Uuid
  deriving DecidableEq, Repr

end RallyApi.Work

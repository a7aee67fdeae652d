import Mathlib.Algebra.Order.Ring.Nat
import Mathlib.Data.Prod.Lex
import RallyApi.CrossTenant.Services
import RallyApi.Listing.OldestFirst
import RallyApi.Store.Snapshot
import RallyApi.Work.PlanningService
import RallyApi.Work.WorkItemLists

/-!
# Lists and single rows

The list and get methods of `TeamService`, as `TeamController` calls them, of `ProjectsService`,
`PlanningService`, `ReleasesService` and `WorkItemsService`, on a snapshot of the tables they read.

Each takes the tenant of the actor. Most look the parent row up and check its tenant first; some of their
queries then ask for the tenant again, and some do not.
-/

set_option autoImplicit false
set_option relaxedAutoImplicit false

namespace RallyApi.CrossTenant

open Listing Paging Platform Store Work

/-! ### Rows -/

/-- A row of `work.labels`. -/
structure Label where
  id : Uuid
  tenantId : Uuid
  projectId : Uuid
  name : String
  color : String := "#6b7280"
  deriving DecidableEq, Repr

/-- A row of `work.work_item_labels`. It has no tenant. -/
structure WorkItemLabel where
  workItemId : Uuid
  labelId : Uuid
  deriving DecidableEq, Repr

/-- `release_status`. -/
inductive ReleaseStatus
  | planned
  | released
  | archived
  deriving DecidableEq, Repr

/-- A row of `work.releases`. -/
structure Release where
  id : Uuid
  tenantId : Uuid
  projectId : Uuid
  name : String
  description : Option String := none
  status : ReleaseStatus := .planned
  targetDate : Option String := none
  releasedAt : Option Timestamp := none
  createdAt : Timestamp
  deriving DecidableEq, Repr

/-- A row of `work.activity_logs`, as the revision history shows it. -/
structure ActivityRow where
  id : Uuid
  tenantId : Uuid
  projectId : Uuid
  workItemId : Uuid
  entityType : String
  entityId : Uuid
  actorId : Option Uuid
  action : String
  changes : Option String := none
  createdAt : Timestamp
  deriving DecidableEq, Repr

/-- A row of `work.time_logs`; `loggedDate` counts days. -/
structure TimeLog where
  id : Uuid
  tenantId : Uuid
  workItemId : Uuid
  userId : Uuid
  loggedDate : ℤ
  hours : Hours
  description : Option String := none
  createdAt : Timestamp
  deletedAt : Option Timestamp := none
  deriving DecidableEq, Repr

/-- A row of `work.work_item_watchers`. -/
structure Watcher where
  workItemId : Uuid
  userId : Uuid
  tenantId : Uuid
  watchedAt : Timestamp
  deriving DecidableEq, Repr

/-- The status of an attachment. -/
inductive AttachmentStatus
  | pending
  | completed
  deriving DecidableEq, Repr

/-- A row of `work.attachments`. -/
structure Attachment where
  id : Uuid
  tenantId : Uuid
  workItemId : Uuid
  uploadedBy : Uuid
  filename : String
  mimeType : String
  sizeBytes : ℕ
  storageKey : String
  status : AttachmentStatus := .pending
  deletedAt : Option Timestamp := none
  createdAt : Timestamp
  deriving DecidableEq, Repr

/-! ### The snapshot -/

/-- The tables that the reading methods look at, with the primary keys that rows are looked up by. -/
structure Tables where
  users : List Identity.User := []
  teams : List Team := []
  teamMembers : List TeamMember := []
  projects : List Project := []
  projectMembers : List ProjectMemberRow := []
  projectTeams : List ProjectTeam := []
  workflowStatuses : List WorkflowStatus := []
  workflowTransitions : List WorkflowTransition := []
  labels : List Label := []
  sprints : List Sprint := []
  releases : List Release := []
  workItems : List WorkItem := []
  workItemLabels : List WorkItemLabel := []
  activityLogs : List ActivityRow := []
  timeLogs : List TimeLog := []
  watchers : List Watcher := []
  attachments : List Attachment := []
  teams_nodup : (teams.map Team.id).Nodup := by decide
  projects_nodup : (projects.map Project.id).Nodup := by decide
  sprints_nodup : (sprints.map Sprint.id).Nodup := by decide
  releases_nodup : (releases.map Release.id).Nodup := by decide
  workItems_nodup : (workItems.map WorkItem.id).Nodup := by decide

/-- The tables, as a store of the work services. -/
def Tables.work (db : Tables) : Work.Db where
  projects := db.projects
  projectMembers := db.projectMembers.map ProjectMemberRow.toProjectMember
  projectTeams := db.projectTeams.map ProjectTeam.toProjectTeamLink
  workflowStatuses := db.workflowStatuses
  workflowTransitions := db.workflowTransitions
  workItems := db.workItems
  sprints := db.sprints

/-- The tables, as a store of the team service. -/
def Tables.tenancy (db : Tables) : Db where
  work := db.work
  teams := db.teams
  teamMembers := db.teamMembers
  projectTeams := db.projectTeams
  links := rfl

/-- What the repository leaves to others: the collation, the orders of the queries, where two rows that
compare equal may come in any order, the text search, and the URLs that the object store signs. -/
structure Externals (Collated : Type) [LinearOrder Collated] where
  collate : String → Collated
  teams : OrderBy Team (Ascending fun team ↦ collate team.name)
  teamMembers : OrderBy TeamMember (Ascending TeamMember.joinedAt)
  projects : OrderBy Project (Ascending Project.createdAt)
  transitions : OrderBy WorkflowTransition fun _ _ ↦ True
  labels : OrderBy Label (Ascending fun label ↦ collate label.name)
  projectTeams : OrderBy ProjectTeam (Ascending ProjectTeam.linkedAt)
  projectMembers : OrderBy ProjectMemberRow (Ascending ProjectMemberRow.joinedAt)
  sprints : OrderBy Sprint (Ascending Sprint.createdAt)
  releases : OrderBy Release (Ascending Release.createdAt)
  workItems : OrderBy WorkItem (Descending WorkItem.createdAt)
  tasks : OrderBy WorkItem (Ascending fun item ↦ toLex (collate item.rank, item.createdAt))
  activityLogs : OrderBy ActivityRow (Descending ActivityRow.createdAt)
  timeLogs : OrderBy TimeLog (Descending fun log ↦ toLex (log.loggedDate, log.createdAt))
  watchers : OrderBy Watcher fun _ _ ↦ True
  attachments : OrderBy Attachment (Ascending Attachment.createdAt)
  matchesTerm : String → WorkItem → Bool
  presignGet : String → String

/-- A request that reads the tables. -/
abbrev TenantRead := Reading Tables Failure

section Services

variable {Collated : Type} [LinearOrder Collated] (env : Externals Collated)

/-! ### `TeamService` -/

/-- `listTeams`. The controller passes the workspace only. -/
def listTeams (workspaceId : Uuid) : TenantRead (List Team) :=
  select fun db ↦ env.teams.arrange
    (db.teams.filter fun team ↦ team.workspaceId = workspaceId ∧ team.status = .active)

/-- `getTeam`, with the tenant that the controller passes. -/
def readTeam (tenantId id : Uuid) : TenantRead Team := ofCall Tables.tenancy (getTeam id (some tenantId))

/-- `listTeamMembers`. -/
def listTeamMembers (tenantId teamId : Uuid) : TenantRead (List TeamMember) := do
  let _ ← readTeam tenantId teamId
  select fun db ↦ env.teamMembers.arrange
    (db.teamMembers.filter fun member ↦ member.teamId = teamId ∧ member.status = .active)

/-! ### `ProjectsService` -/

/-- `listProjects`. -/
def listProjects (tenantId workspaceId : Uuid) (args : PageArgs) :
    TenantRead (PagedResult ProjectWithStats) := fun db ↦
  listByWorkspaceWithStats db.work.projectMembers db.work.projectTeams db.users env.projects workspaceId
    tenantId args db.projects

/-- `getProject`. -/
def readProject (tenantId projectId : Uuid) : TenantRead Project :=
  ofCall Tables.work (getProject tenantId projectId)

/-- `listStatuses`. -/
def readStatuses (tenantId projectId : Uuid) : TenantRead (List WorkflowStatus) := do
  let _ ← readProject tenantId projectId
  ofCall Tables.work (listStatusesByProject projectId)

/-- `listTransitions`. -/
def listTransitions (tenantId projectId : Uuid) : TenantRead (List WorkflowTransition) := do
  let _ ← readProject tenantId projectId
  select fun db ↦ env.transitions.arrange
    (db.workflowTransitions.filter fun transition ↦ transition.projectId = projectId)

/-- `listLabels`. -/
def listLabels (tenantId projectId : Uuid) : TenantRead (List Label) := do
  let _ ← readProject tenantId projectId
  select fun db ↦ env.labels.arrange
    (db.labels.filter fun label ↦ label.projectId = projectId ∧ label.tenantId = tenantId)

/-- `listProjectTeams`. -/
def listProjectTeams (tenantId projectId : Uuid) : TenantRead (List ProjectTeam) := do
  let _ ← readProject tenantId projectId
  select fun db ↦ env.projectTeams.arrange
    (db.projectTeams.filter fun link ↦ link.projectId = projectId ∧ link.status = .active)

/-- `listProjectMembers`. -/
def listProjectMembers (tenantId projectId : Uuid) : TenantRead (List ProjectMemberRow) := do
  let _ ← readProject tenantId projectId
  select fun db ↦ env.projectMembers.arrange
    (db.projectMembers.filter fun member ↦ member.projectId = projectId ∧ member.status = .active)

/-! ### `PlanningService` -/

/-- `listSprints`. -/
def listSprints (tenantId projectId : Uuid) (args : PageArgs) : TenantRead (PagedResult Sprint) := do
  let _ ← readProject tenantId projectId
  fun db ↦ listSprintsByProject env.sprints projectId tenantId args db.sprints

/-- `getSprint`. -/
def readSprint (tenantId id : Uuid) : TenantRead Sprint := ofCall Tables.work (getSprint tenantId id)

/-! ### `ReleasesService` -/

/-- `listReleases`. -/
def listReleases (tenantId projectId : Uuid) (args : PageArgs) : TenantRead (PagedResult Release) := do
  let _ ← readProject tenantId projectId
  fun db ↦ listPage env.releases Release.createdAt Release.id
    (fun release ↦ release.projectId = projectId ∧ release.tenantId = tenantId) args db.releases

/-- `getRelease`. -/
def getRelease (tenantId id : Uuid) : TenantRead Release := fun db ↦
  checked (db.releases.find? fun release ↦ release.id = id) (fun release ↦ release.tenantId = tenantId)
    (notFoundException .releaseNotFound "Release not found")

/-! ### `WorkItemsService` -/

/-- `listWorkItems`. -/
def listWorkItems (tenantId projectId : Uuid) (filters : WorkItemFilters) (args : PageArgs) :
    TenantRead (PagedResult WorkItem) := do
  let _ ← readProject tenantId projectId
  fun db ↦ WorkItem.listByProject env.matchesTerm env.workItems projectId tenantId filters args
    db.workItems

/-- `listBacklog`. -/
def listBacklog (tenantId projectId : Uuid) (filters : WorkItemFilters) (args : PageArgs) :
    TenantRead (PagedResult WorkItem) := do
  let _ ← readProject tenantId projectId
  fun db ↦ WorkItem.listBacklog env.matchesTerm env.workItems projectId tenantId filters args
    db.workItems

/-- `getWorkItem`. -/
def readWorkItem (tenantId id : Uuid) : TenantRead WorkItem :=
  ofCall Tables.work (getWorkItem tenantId id)

/-- The conditions of `listTasksByParent` and `getTaskTotals`. -/
def isTaskOf (parentId tenantId : Uuid) (item : WorkItem) : Bool :=
  item.parentId = some parentId ∧ item.tenantId = tenantId ∧ item.type = .task ∧ item.deletedAt = none

/-- `listTasks`. -/
def listTasks (tenantId parentId : Uuid) : TenantRead (List WorkItem) := do
  let _ ← readWorkItem tenantId parentId
  select fun db ↦ env.tasks.arrange (db.workItems.filter (isTaskOf parentId tenantId))

/-- `TaskTotals`, the hours in hundredths. -/
structure TaskTotals where
  taskCount : ℕ
  estimateHours : ℕ
  todoHours : ℕ
  actualHours : ℕ
  deriving DecidableEq, Repr

/-- `coalesce(sum(…), 0)` over a column of hours. -/
def sumHours (column : WorkItem → Option Hours) (items : List WorkItem) : ℕ :=
  ((items.filterMap column).map Hours.hundredths).sum

/-- `getTaskTotals`. -/
def getTaskTotals (tenantId parentId : Uuid) : TenantRead TaskTotals := do
  let _ ← readWorkItem tenantId parentId
  select fun db ↦
    let tasks := db.workItems.filter (isTaskOf parentId tenantId)
    { taskCount := tasks.length
      estimateHours := sumHours WorkItem.estimateHours tasks
      todoHours := sumHours WorkItem.todoHours tasks
      actualHours := sumHours WorkItem.actualHours tasks }

/-- One window of a list, and how many entries the list has. -/
structure Window (Entry : Type) where
  items : List Entry
  total : ℕ
  deriving DecidableEq, Repr

/-- `LIMIT … OFFSET …`, with a count of all. -/
def window {Entry : Type} (limit offset : ℕ) (entries : List Entry) : Window Entry where
  items := (entries.drop offset).take limit
  total := entries.length

/-- An activity entry with the name of its actor. -/
structure ActivityView extends ActivityRow where
  actorName : Option String
  deriving DecidableEq, Repr

/-- The join with the users. -/
def withActor (users : List Identity.User) (row : ActivityRow) : ActivityView where
  toActivityRow := row
  actorName := row.actorId.bind fun actorId ↦
    (users.find? fun user ↦ user.id = actorId).map Identity.User.displayName

/-- `getActivity`. -/
def getActivity (tenantId workItemId : Uuid) (limit offset : ℕ) : TenantRead (Window ActivityView) := do
  let _ ← readWorkItem tenantId workItemId
  select fun db ↦ window limit offset ((env.activityLogs.arrange (db.activityLogs.filter fun log ↦
    log.workItemId = workItemId ∧ log.tenantId = tenantId)).map (withActor db.users))

/-- The columns of a label that `listLabels` of the work items selects. -/
structure LabelView where
  id : Uuid
  name : String
  color : String
  deriving DecidableEq, Repr

/-- The labels joined to the rows of a work item. -/
def labelsOf (workItemId : Uuid) (workItemLabels : List WorkItemLabel) (labels : List Label) :
    List Label :=
  (workItemLabels.filter fun row ↦ row.workItemId = workItemId).flatMap fun row ↦
    labels.filter fun label ↦ label.id = row.labelId

/-- `getWorkItemLabels`. -/
def getWorkItemLabels (tenantId id : Uuid) : TenantRead (List LabelView) := do
  let _ ← readWorkItem tenantId id
  select fun db ↦ (env.labels.arrange (labelsOf id db.workItemLabels db.labels)).map fun label ↦
    { id := label.id, name := label.name, color := label.color }

/-- `listTimeLogs`. Pages are counted from one. -/
def listTimeLogs (tenantId workItemId : Uuid) (page pageSize : ℕ) : TenantRead (Window TimeLog) := do
  let _ ← readWorkItem tenantId workItemId
  select fun db ↦ window pageSize ((page - 1) * pageSize) (env.timeLogs.arrange
    (db.timeLogs.filter fun log ↦
      log.workItemId = workItemId ∧ log.tenantId = tenantId ∧ log.deletedAt = none))

/-- `listWatchers`. -/
def listWatchers (tenantId workItemId : Uuid) : TenantRead (List Watcher) := do
  let _ ← readWorkItem tenantId workItemId
  select fun db ↦ env.watchers.arrange (db.watchers.filter fun watcher ↦
    watcher.workItemId = workItemId ∧ watcher.tenantId = tenantId)

/-- `listAttachments`. -/
def listAttachments (tenantId workItemId : Uuid) : TenantRead (List Attachment) := do
  let _ ← readWorkItem tenantId workItemId
  select fun db ↦ env.attachments.arrange (db.attachments.filter fun attachment ↦
    attachment.workItemId = workItemId ∧ attachment.tenantId = tenantId ∧
      attachment.status = .completed ∧ attachment.deletedAt = none)

/-- `getAttachmentDownloadUrl`. -/
def getAttachmentDownloadUrl (tenantId workItemId attachmentId : Uuid) : TenantRead String := do
  let _ ← readWorkItem tenantId workItemId
  let attachment ← fun db ↦ checked
    (db.attachments.find? fun attachment ↦
      attachment.id = attachmentId ∧ attachment.tenantId = tenantId ∧ attachment.deletedAt = none)
    (fun attachment ↦ attachment.workItemId = workItemId ∧ attachment.status = .completed)
    (notFoundException .attachmentNotFound "Attachment not found")
  pure (env.presignGet attachment.storageKey)

/-! ### Requests -/

/-- The list and get requests, by what they return. -/
inductive ReadRequest : Type → Type
  | listTeams (workspaceId : Uuid) : ReadRequest (List Team)
  | getTeam (id : Uuid) : ReadRequest Team
  | listTeamMembers (teamId : Uuid) : ReadRequest (List TeamMember)
  | listProjects (workspaceId : Uuid) (args : PageArgs) : ReadRequest (PagedResult ProjectWithStats)
  | getProject (projectId : Uuid) : ReadRequest Project
  | listStatuses (projectId : Uuid) : ReadRequest (List WorkflowStatus)
  | listTransitions (projectId : Uuid) : ReadRequest (List WorkflowTransition)
  | listLabels (projectId : Uuid) : ReadRequest (List Label)
  | listProjectTeams (projectId : Uuid) : ReadRequest (List ProjectTeam)
  | listProjectMembers (projectId : Uuid) : ReadRequest (List ProjectMemberRow)
  | listSprints (projectId : Uuid) (args : PageArgs) : ReadRequest (PagedResult Sprint)
  | getSprint (id : Uuid) : ReadRequest Sprint
  | listReleases (projectId : Uuid) (args : PageArgs) : ReadRequest (PagedResult Release)
  | getRelease (id : Uuid) : ReadRequest Release
  | listWorkItems (projectId : Uuid) (filters : WorkItemFilters) (args : PageArgs) :
    ReadRequest (PagedResult WorkItem)
  | listBacklog (projectId : Uuid) (filters : WorkItemFilters) (args : PageArgs) :
    ReadRequest (PagedResult WorkItem)
  | getWorkItem (id : Uuid) : ReadRequest WorkItem
  | listTasks (parentId : Uuid) : ReadRequest (List WorkItem)
  | getTaskTotals (parentId : Uuid) : ReadRequest TaskTotals
  | getActivity (workItemId : Uuid) (limit offset : ℕ) : ReadRequest (Window ActivityView)
  | getWorkItemLabels (id : Uuid) : ReadRequest (List LabelView)
  | listTimeLogs (workItemId : Uuid) (page pageSize : ℕ) : ReadRequest (Window TimeLog)
  | listWatchers (workItemId : Uuid) : ReadRequest (List Watcher)
  | listAttachments (workItemId : Uuid) : ReadRequest (List Attachment)
  | getAttachmentDownloadUrl (workItemId attachmentId : Uuid) : ReadRequest String

/-- The method that serves a request of an actor of the tenant. -/
def ReadRequest.serve (tenantId : Uuid) {α : Type} : ReadRequest α → TenantRead α
  | .listTeams workspaceId => CrossTenant.listTeams env workspaceId
  | .getTeam id => readTeam tenantId id
  | .listTeamMembers teamId => CrossTenant.listTeamMembers env tenantId teamId
  | .listProjects workspaceId args => CrossTenant.listProjects env tenantId workspaceId args
  | .getProject projectId => readProject tenantId projectId
  | .listStatuses projectId => readStatuses tenantId projectId
  | .listTransitions projectId => CrossTenant.listTransitions env tenantId projectId
  | .listLabels projectId => CrossTenant.listLabels env tenantId projectId
  | .listProjectTeams projectId => CrossTenant.listProjectTeams env tenantId projectId
  | .listProjectMembers projectId => CrossTenant.listProjectMembers env tenantId projectId
  | .listSprints projectId args => CrossTenant.listSprints env tenantId projectId args
  | .getSprint id => readSprint tenantId id
  | .listReleases projectId args => CrossTenant.listReleases env tenantId projectId args
  | .getRelease id => CrossTenant.getRelease tenantId id
  | .listWorkItems projectId filters args =>
    CrossTenant.listWorkItems env tenantId projectId filters args
  | .listBacklog projectId filters args => CrossTenant.listBacklog env tenantId projectId filters args
  | .getWorkItem id => readWorkItem tenantId id
  | .listTasks parentId => CrossTenant.listTasks env tenantId parentId
  | .getTaskTotals parentId => CrossTenant.getTaskTotals tenantId parentId
  | .getActivity workItemId limit offset => CrossTenant.getActivity env tenantId workItemId limit offset
  | .getWorkItemLabels id => CrossTenant.getWorkItemLabels env tenantId id
  | .listTimeLogs workItemId page pageSize =>
    CrossTenant.listTimeLogs env tenantId workItemId page pageSize
  | .listWatchers workItemId => CrossTenant.listWatchers env tenantId workItemId
  | .listAttachments workItemId => CrossTenant.listAttachments env tenantId workItemId
  | .getAttachmentDownloadUrl workItemId attachmentId =>
    CrossTenant.getAttachmentDownloadUrl env tenantId workItemId attachmentId

/-- The tenants of the rows in a result, for those that show their tenant. -/
def ReadRequest.tenants {α : Type} : ReadRequest α → α → List Uuid
  | .listTeams _, teams => teams.map Team.tenantId
  | .getTeam _, team => [team.tenantId]
  | .listTeamMembers _, members => members.map TeamMember.tenantId
  | .listProjects _ _, page => page.data.map fun project ↦ project.tenantId
  | .getProject _, project => [project.tenantId]
  | .listStatuses _, statuses => statuses.map WorkflowStatus.tenantId
  | .listTransitions _, transitions => transitions.map WorkflowTransition.tenantId
  | .listLabels _, labels => labels.map Label.tenantId
  | .listProjectTeams _, links => links.map ProjectTeam.tenantId
  | .listProjectMembers _, members => members.map fun member ↦ member.tenantId
  | .listSprints _ _, page => page.data.map Sprint.tenantId
  | .getSprint _, sprint => [sprint.tenantId]
  | .listReleases _ _, page => page.data.map Release.tenantId
  | .getRelease _, release => [release.tenantId]
  | .listWorkItems _ _ _, page => page.data.map WorkItem.tenantId
  | .listBacklog _ _ _, page => page.data.map WorkItem.tenantId
  | .getWorkItem _, item => [item.tenantId]
  | .listTasks _, tasks => tasks.map WorkItem.tenantId
  | .getTaskTotals _, _ => []
  | .getActivity _ _ _, entries => entries.items.map fun entry ↦ entry.tenantId
  | .getWorkItemLabels _, _ => []
  | .listTimeLogs _ _ _, entries => entries.items.map TimeLog.tenantId
  | .listWatchers _, watchers => watchers.map Watcher.tenantId
  | .listAttachments _, attachments => attachments.map Attachment.tenantId
  | .getAttachmentDownloadUrl _ _, _ => []

end Services

end RallyApi.CrossTenant

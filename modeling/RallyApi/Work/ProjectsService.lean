import RallyApi.Platform.Duration
import RallyApi.Work.Repositories

/-!
# Projects and workflows

The methods of `ProjectsService` that create and delete projects, hand out item keys and change the
workflow of a project.
-/

set_option autoImplicit false
set_option relaxedAutoImplicit false

namespace RallyApi.Work

open Concurrency Platform Store

/-! ### Keys -/

/-- The pattern of `CreateProjectSchema`: `/^[A-Za-z][A-Za-z0-9]*$/`, of length 2 to 10. -/
def validKey (key : String) : Bool :=
  match key.toList with
  | [] => false
  | first :: rest =>
    first.isAlpha && rest.all Char.isAlphanum && 1 ≤ rest.length && rest.length ≤ 9

/-- The key of a validated request. -/
abbrev ProjectKey := { key : String // validKey key = true }

/-- `key.toUpperCase().trim()`, of a key of ASCII characters. -/
def normalizeKey (key : String) : String :=
  String.ofList (trimChars (key.toList.map Char.toUpper))

/-- `` `${project.key}-${seq}` ``. -/
def itemKeyOf (key : String) (seq : ℕ) : String := key ++ "-" ++ toString seq

/-! ### Projects -/

/-- `DEFAULT_WORKFLOW_STATUSES`: the name, category, color and position of a status and whether it
is the default. -/
def defaultWorkflowStatuses : List (String × WorkflowStatusCategory × String × ℤ × Bool) :=
  [("Defined", .toDo, "#6B7280", 0, true),
    ("In Progress", .inProgress, "#3B82F6", 1, false),
    ("Completed", .done, "#10B981", 2, false),
    ("Accepted", .done, "#059669", 3, false)]

/-- The rows of the default statuses of a project, with identifiers counted from the given one. -/
def defaultStatusRows (tenantId projectId firstId : Uuid) : List WorkflowStatus :=
  defaultWorkflowStatuses.zipIdx.map fun ((name, category, color, position, isDefault), index) ↦
    { id := firstId + index, tenantId, projectId, name, category, color, position, isDefault }

/-- The default statuses are all of the new project. -/
theorem projectId_of_mem_defaultStatusRows {tenantId projectId firstId : Uuid}
    {status : WorkflowStatus} (hstatus : status ∈ defaultStatusRows tenantId projectId firstId) :
    status.projectId = projectId := by
  obtain ⟨entry, _, rfl⟩ := List.mem_map.mp hstatus
  rfl

/-- The transaction of `createProject`: the project, its counter, the membership of its lead and its
default statuses. -/
def commitProject (project : Project) (leadId : Uuid) (db : Db) : Except Failure (Project × Db) := do
  let created := { project with createdAt := db.now }
  let withProject ← insertProject created db
  let withCounter := { withProject with
    projectCounters := initCounter project.id project.tenantId withProject.projectCounters }
  let withMember ← addProjectMember
    { id := db.nextUuid, tenantId := project.tenantId, projectId := project.id, userId := leadId }
    withCounter
  let withStatuses ← (defaultStatusRows project.tenantId project.id (db.nextUuid + 1)).foldlM
    (fun store status ↦ insertStatus status store) withMember
  pure (created, { withStatuses with
    nextUuid := db.nextUuid + 1 + defaultWorkflowStatuses.length })

/-- A committed creation has appended the project, whose identifier was new and whose key was free,
its counter and its default statuses. -/
theorem commitProject_ok {project created : Project} {leadId : Uuid} {db after : Db}
    (hcommit : commitProject project leadId db = .ok (created, after)) :
    created = { project with createdAt := db.now } ∧ project.id ∉ db.projects.map Project.id ∧
      (project.deletedAt = none →
        ∀ row ∈ db.projects, row.occupies project.tenantId project.key = false) ∧
      ∃ projectMembers nextUuid, after = { db with
        projects := db.projects ++ [created]
        projectCounters := initCounter project.id project.tenantId db.projectCounters
        projectMembers
        workflowStatuses := db.workflowStatuses ++
          defaultStatusRows project.tenantId project.id (db.nextUuid + 1)
        nextUuid } := by
  obtain ⟨withProject, hproject, hcommit⟩ := bind_eq_ok.mp hcommit
  obtain ⟨withMember, hmember, hcommit⟩ := bind_eq_ok.mp hcommit
  obtain ⟨withStatuses, hstatuses, hcommit⟩ := bind_eq_ok.mp hcommit
  obtain ⟨hfresh, hkey, rfl⟩ := insertProject_ok hproject
  obtain rfl := addProjectMember_ok hmember
  obtain rfl := insertStatuses_ok hstatuses
  obtain ⟨rfl, rfl⟩ := Prod.mk.inj (Except.ok.inj hcommit)
  exact ⟨rfl, hfresh, hkey, _, _, rfl⟩

/-- `createProject`. -/
def createProject (actor : Actor) (workspaceId : Uuid) (key name : String)
    (description : Option String) (leadId : Option Uuid) : WorkCall Project := do
  let normalizedKey := normalizeKey key
  let existing ← findProjectByKey actor.tenantId normalizedKey
  Call.ensure existing.isNone (conflictException .projectKeyTaken
    ("Project key \"" ++ normalizedKey ++ "\" is already taken"))
  let resolvedLeadId := leadId.getD actor.sub
  let notMember := preconditionFailedException .projectLeadNotMember
    "The project lead must be an active member of this workspace"
  let lead ← findWorkspaceMember workspaceId resolvedLeadId
  let lead ← Call.require lead notMember
  Call.ensure (lead.status = .active) notMember
  let projectId ← uuidv7
  transaction .createProject (commitProject
    { id := projectId, tenantId := actor.tenantId, workspaceId, key := normalizedKey, name,
      description, leadId := some resolvedLeadId, createdAt := 0 } resolvedLeadId)

/-- `getProject`. -/
def getProject (tenantId projectId : Uuid) : WorkCall Project := do
  let notFound := notFoundException .projectNotFound "Project not found"
  let found ← findProjectById projectId
  let project ← Call.require found notFound
  Call.ensure (project.deletedAt = none ∧ project.tenantId = tenantId) notFound
  pure project

/-- `deleteProject`. -/
def deleteProject (tenantId projectId : Uuid) : WorkCall Unit := do
  let _ ← getProject tenantId projectId
  softDeleteProject projectId

/-- `assertWorkspaceMember`. -/
def assertWorkspaceMember (workspaceId userId : Uuid) : WorkCall Unit := do
  let notMember := preconditionFailedException .assigneeNotWorkspaceMember
    "The assigned user is not an active member of this workspace"
  let found ← findWorkspaceMember workspaceId userId
  let member ← Call.require found notMember
  Call.ensure (member.status = .active) notMember

/-- `generateItemKey`. -/
def generateItemKey (tenantId projectId : Uuid) : WorkCall String := do
  let project ← getProject tenantId projectId
  Call.ensure (project.status ≠ .archived) (preconditionFailedException .projectArchived
    "Cannot create work items in an archived project.")
  let seq ← incrementCounter projectId
  pure (itemKeyOf project.key seq)

/-- `listProjectTeams`. -/
def listProjectTeams (tenantId projectId : Uuid) : WorkCall (List ProjectTeamLink) := do
  let _ ← getProject tenantId projectId
  listTeamLinks projectId

/-! ### Workflows -/

/-- `listStatuses`. -/
def listStatuses (tenantId projectId : Uuid) : WorkCall (List WorkflowStatus) := do
  let _ ← getProject tenantId projectId
  listStatusesByProject projectId

/-- `assertTransitionAllowed`. -/
def assertTransitionAllowed (projectId fromStatusId toStatusId : Uuid) : WorkCall Unit := do
  let allowed ← canTransition projectId fromStatusId toStatusId
  Call.ensure allowed (preconditionFailedException .workflowTransitionNotAllowed
    "This status transition is not permitted")

/-- The input of `createStatus`. -/
structure CreateWorkflowStatusInput where
  name : String
  category : WorkflowStatusCategory
  color : Option String := none
  position : Option ℤ := none
  isDefault : Option Bool := none

/-- `createStatus`. -/
def createStatus (tenantId projectId : Uuid) (input : CreateWorkflowStatusInput) :
    WorkCall WorkflowStatus := do
  let _ ← getProject tenantId projectId
  let statuses ← listStatusesByProject projectId
  let id ← uuidv7
  let status : WorkflowStatus :=
    { id, tenantId, projectId, name := input.name, category := input.category, color := input.color,
      position := input.position.getD statuses.length, isDefault := input.isDefault.getD false }
  transaction .createStatus fun db ↦ do
    let after ← insertStatus status db
    pure (status, after)

/-- `deleteStatus`. -/
def deleteStatus (tenantId projectId statusId : Uuid) : WorkCall Unit := do
  let _ ← getProject tenantId projectId
  let notFound := notFoundException .workflowStatusNotFound "Workflow status not found"
  let found ← findStatusById statusId
  let status ← Call.require found notFound
  Call.ensure (status.projectId = projectId) notFound
  removeStatus statusId

/-- The input of `createTransition`. -/
structure CreateWorkflowTransitionInput where
  fromStatusId : Option Uuid := none
  toStatusId : Uuid
  name : Option String := none

/-- `createTransition`. -/
def createTransition (tenantId projectId : Uuid) (input : CreateWorkflowTransitionInput) :
    WorkCall WorkflowTransition := do
  let _ ← getProject tenantId projectId
  let id ← uuidv7
  insertTransition
    { id, tenantId, projectId, fromStatusId := input.fromStatusId, toStatusId := input.toStatusId,
      name := input.name }

/-- `deleteTransition`. -/
def deleteTransition (tenantId projectId transitionId : Uuid) : WorkCall Unit := do
  let _ ← getProject tenantId projectId
  let notFound := notFoundException .workflowStatusNotFound "Workflow transition not found"
  let found ← findTransitionById transitionId
  let transition ← Call.require found notFound
  Call.ensure (transition.projectId = projectId) notFound
  removeTransition transitionId

end RallyApi.Work

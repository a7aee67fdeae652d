import RallyApi.Identity.Schema
import RallyApi.Platform.Pagination
import RallyApi.Work.Schema

/-!
# Lists with the oldest first

The four paged lists in ascending order: the projects of a workspace, the workspaces of a tenant, the
members of a workspace and the sprints of a project. All of them ask for the rows with a timestamp
less than the one of the cursor, although the next page is made of later rows.

`collectsInOrder_iff_onePage` says that a client that pages through such a list sees every row in
order exactly when there is only one page. `laterSprint_skipped` is a list of two sprints of which
paging one by one shows only the first.
-/

set_option autoImplicit false
set_option relaxedAutoImplicit false

namespace RallyApi.Listing

open Identity Paging Platform Work

/-! ### The lists -/

/-- `ProjectWithStats`. -/
structure ProjectWithStats extends Project where
  memberCount : ℕ
  teamCount : ℕ
  leadName : Option String

/-- The figures and the name that `listByWorkspaceWithStats` adds to a project of a page. -/
def withStats (members : List ProjectMember) (teams : List ProjectTeamLink) (users : List User)
    (project : Project) : ProjectWithStats where
  toProject := project
  memberCount := members.countP fun member ↦
    member.projectId = project.id ∧ member.status = .active
  teamCount := teams.countP fun link ↦ link.projectId = project.id ∧ link.status = .active
  leadName := project.leadId.bind fun leadId ↦
    (users.find? fun user ↦ user.id = leadId).map User.displayName

/-- The conditions of `listByWorkspaceWithStats`. -/
def inWorkspace (workspaceId tenantId : Uuid) (project : Project) : Bool :=
  project.workspaceId = workspaceId ∧ project.tenantId = tenantId ∧ project.deletedAt = none

/-- `ProjectDrizzleRepository.listByWorkspaceWithStats`. -/
def listByWorkspaceWithStats (members : List ProjectMember) (teams : List ProjectTeamLink)
    (users : List User) (order : OrderBy Project (Ascending Project.createdAt))
    (workspaceId tenantId : Uuid) (args : PageArgs) (projects : List Project) :
    Except Failure (PagedResult ProjectWithStats) :=
  (listPage order Project.createdAt Project.id (inWorkspace workspaceId tenantId) args projects).map
    (PagedResult.map (withStats members teams users))

/-- The conditions of `listByTenant`. -/
def ofTenant (tenantId : Uuid) (workspace : Identity.Workspace) : Bool :=
  workspace.tenantId = tenantId ∧ workspace.deletedAt = none

/-- `WorkspaceDrizzleRepository.listByTenant`. -/
def listByTenant (order : OrderBy Identity.Workspace (Ascending Identity.Workspace.createdAt))
    (tenantId : Uuid) (args : PageArgs) (workspaces : List Identity.Workspace) :
    Except Failure (PagedResult Identity.Workspace) :=
  listPage order Identity.Workspace.createdAt Identity.Workspace.id (ofTenant tenantId) args
    workspaces

/-- The condition of `listMembers`. -/
def memberOf (workspaceId : Uuid) (member : Identity.WorkspaceMember) : Bool :=
  member.workspaceId = workspaceId

/-- `WorkspaceMemberDrizzleRepository.listMembers`. -/
def listMembers
    (order : OrderBy Identity.WorkspaceMember (Ascending Identity.WorkspaceMember.joinedAt))
    (workspaceId : Uuid) (args : PageArgs) (members : List Identity.WorkspaceMember) :
    Except Failure (PagedResult Identity.WorkspaceMember) :=
  listPage order Identity.WorkspaceMember.joinedAt Identity.WorkspaceMember.id (memberOf workspaceId)
    args members

/-- The conditions of `listByProject`. -/
def inProject (projectId tenantId : Uuid) (sprint : Sprint) : Bool :=
  sprint.projectId = projectId ∧ sprint.tenantId = tenantId

/-- `SprintDrizzleRepository.listByProject`. -/
def listSprintsByProject (order : OrderBy Sprint (Ascending Sprint.createdAt))
    (projectId tenantId : Uuid) (args : PageArgs) (sprints : List Sprint) :
    Except Failure (PagedResult Sprint) :=
  listPage order Sprint.createdAt Sprint.id (inProject projectId tenantId) args sprints

/-! ### Paging through them -/

theorem withStats_injective (members : List ProjectMember) (teams : List ProjectTeamLink)
    (users : List User) : Function.Injective (withStats members teams users) :=
  fun _ _ hsame ↦ congrArg ProjectWithStats.toProject hsame

/-- Assumes: a positive limit. A client that pages through one of the four lists collects every
matching row exactly once and in ascending order when they all fit on one page, and only then. -/
theorem collectsInOrder_iff_onePage (members : List ProjectMember) (teams : List ProjectTeamLink)
    (users : List User) (workspaceId tenantId projectId : Uuid) {limit : ℕ} (hlimit : 0 < limit) :
    (∀ (order : ℕ → OrderBy Project (Ascending Project.createdAt)) (projects : List Project),
      CollectsInOrder (fun query args ↦ listByWorkspaceWithStats members teams users (order query)
          workspaceId tenantId args projects) limit (fun row ↦ row.createdAt)
        ((projects.filter (inWorkspace workspaceId tenantId)).map (withStats members teams users)) ↔
      (projects.filter (inWorkspace workspaceId tenantId)).length ≤ limit) ∧
    (∀ (order : ℕ → OrderBy Identity.Workspace (Ascending Identity.Workspace.createdAt))
        (workspaces : List Identity.Workspace),
      CollectsInOrder (fun query args ↦ listByTenant (order query) tenantId args workspaces) limit
        Identity.Workspace.createdAt (workspaces.filter (ofTenant tenantId)) ↔
      (workspaces.filter (ofTenant tenantId)).length ≤ limit) ∧
    (∀ (order : ℕ → OrderBy Identity.WorkspaceMember (Ascending Identity.WorkspaceMember.joinedAt))
        (workspaceMembers : List Identity.WorkspaceMember),
      CollectsInOrder (fun query args ↦ listMembers (order query) workspaceId args workspaceMembers)
        limit Identity.WorkspaceMember.joinedAt (workspaceMembers.filter (memberOf workspaceId)) ↔
      (workspaceMembers.filter (memberOf workspaceId)).length ≤ limit) ∧
    (∀ (order : ℕ → OrderBy Sprint (Ascending Sprint.createdAt)) (sprints : List Sprint),
      CollectsInOrder (fun query args ↦ listSprintsByProject (order query) projectId tenantId args
          sprints) limit Sprint.createdAt (sprints.filter (inProject projectId tenantId)) ↔
      (sprints.filter (inProject projectId tenantId)).length ≤ limit) := by
  refine ⟨fun order projects ↦ ?_, fun order workspaces ↦ ?_, fun order workspaceMembers ↦ ?_,
    fun order sprints ↦ ?_⟩
  · exact (collectsInOrder_map (withStats_injective members teams users) (fun _ ↦ rfl) _).trans
      (collectsInOrder_ascending order Project.id _ projects hlimit)
  · exact collectsInOrder_ascending order Identity.Workspace.id _ workspaces hlimit
  · exact collectsInOrder_ascending order Identity.WorkspaceMember.id _ workspaceMembers hlimit
  · exact collectsInOrder_ascending order Sprint.id _ sprints hlimit

/-- Two sprints of a project, created one millisecond after another. -/
def twoSprints : List Sprint :=
  [{ id := 10, tenantId := 2, projectId := 1, name := "Sprint 1", createdAt := 5000 },
    { id := 11, tenantId := 2, projectId := 1, name := "Sprint 2", createdAt := 6000 }]

/-- A witness: both sprints on one page. -/
theorem collectsInOrder_iff_onePage_witness :
    CollectsInOrder (fun _ args ↦ listSprintsByProject (ascendingOrder Sprint.createdAt) 1 2 args
      twoSprints) 2 Sprint.createdAt (twoSprints.filter (inProject 1 2)) :=
  ((collectsInOrder_iff_onePage [] [] [] 3 2 1 (by decide)).2.2.2
    (fun _ ↦ ascendingOrder Sprint.createdAt) twoSprints).mpr (by decide)

/-- With more than one page rows are lost: of two sprints, a client that pages one by one does not see
the later one, although the timestamps differ in milliseconds. -/
theorem laterSprint_skipped :
    ¬ ∀ (order : ℕ → OrderBy Sprint (Ascending Sprint.createdAt)) (projectId tenantId : Uuid)
      (limit : ℕ) (sprints : List Sprint), 0 < limit →
        (sprints.map fun sprint ↦ dateOfTimestamp sprint.createdAt).Nodup →
        CollectsInOrder (fun query args ↦ listSprintsByProject (order query) projectId tenantId args
            sprints) limit Sprint.createdAt (sprints.filter (inProject projectId tenantId)) := by
  intro halways
  have hcollects := halways (fun _ ↦ ascendingOrder Sprint.createdAt) 1 2 1 twoSprints (by decide)
    (by decide)
  exact absurd ((collectsInOrder_ascending (fun _ ↦ ascendingOrder Sprint.createdAt) Sprint.id
    (inProject 1 2) twoSprints (by decide)).mp hcollects) (by decide)

end RallyApi.Listing

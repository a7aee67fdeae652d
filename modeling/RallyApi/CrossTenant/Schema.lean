import RallyApi.Concurrency.Part
import RallyApi.Identity.Schema
import RallyApi.Work.Effects

/-!
# A store across the modules

The services of teams, projects, work items and collaboration each write tables of their own and name rows
of each other's. This is the store they share: that of the work services with the workspaces, the teams,
their members, the whole rows of the links between projects and teams, and the comments. A row keeps the
columns a modelled function reads or writes, and there are no foreign keys.
-/

set_option autoImplicit false
set_option relaxedAutoImplicit false

namespace RallyApi.CrossTenant

open Platform Work

/-! ### Rows -/

/-- `team_status`. -/
inductive TeamStatus
  | active
  | archived
  deriving DecidableEq, Repr

/-- A row of `work.teams`. -/
structure Team where
  id : Uuid
  tenantId : Uuid
  workspaceId : Uuid
  name : String
  key : String
  description : Option String := none
  leadId : Option Uuid := none
  status : TeamStatus := .active
  createdAt : Timestamp
  deriving DecidableEq, Repr

/-- A row of `work.team_members`. -/
structure TeamMember where
  id : Uuid
  tenantId : Uuid
  teamId : Uuid
  userId : Uuid
  status : MemberStatus := .active
  joinedAt : Timestamp
  deriving DecidableEq, Repr

/-- A row of `work.project_teams`, of which `ProjectTeamLink` is what the work services read. -/
structure ProjectTeam extends ProjectTeamLink where
  id : Uuid
  tenantId : Uuid
  linkedAt : Timestamp
  unlinkedAt : Option Timestamp := none
  deriving DecidableEq, Repr

/-- A row of `work.project_members`, of which `ProjectMember` is what the work services use. -/
structure ProjectMemberRow extends ProjectMember where
  roleId : Option Uuid := none
  joinedAt : Timestamp
  deriving DecidableEq, Repr

/-- A row of `work.comments`. -/
structure Comment where
  id : Uuid
  tenantId : Uuid
  workItemId : Uuid
  authorId : Uuid
  body : String
  parentId : Option Uuid := none
  createdAt : Timestamp
  deletedAt : Option Timestamp := none
  deriving DecidableEq, Repr

/-! ### The store -/

/-- The store. The links that the work services read are those of the whole rows. -/
structure Db where
  work : Work.Db
  workspaces : List Identity.Workspace := []
  teams : List Team := []
  teamMembers : List TeamMember := []
  projectTeams : List ProjectTeam := []
  comments : List Comment := []
  links : work.projectTeams = projectTeams.map ProjectTeam.toProjectTeamLink

/-- The store of the work services, which never write the links. -/
def workPart : Concurrency.Part Db Work.Db where
  get := Db.work
  put after db :=
    { db with work := { after with projectTeams := db.work.projectTeams }, links := db.links }
  put_get _ := rfl

/-! ### Requests and steps -/

/-- The pattern of `CreateTeamSchema`: `/^[A-Z0-9]+$/i`, of length 1 to 20. -/
def validTeamKey (key : String) : Bool :=
  1 ≤ key.toList.length && key.toList.length ≤ 20 && key.toList.all Char.isAlphanum

/-- The team key of a validated request. -/
abbrev TeamKey := { key : String // validTeamKey key = true }

/-- The calls that create rows which name rows of other tables, and the passing of time. -/
inductive CreateRequest
  | createProject (actor : Actor) (workspaceId : Uuid) (key : ProjectKey) (name : String)
    (description : Option String) (leadId : Option Uuid)
  | createTeam (tenantId workspaceId : Uuid) (name : String) (key : TeamKey)
    (description : Option String) (leadId : Option Uuid)
  | addTeamMember (teamId userId tenantId : Uuid)
  | linkTeam (tenantId projectId teamId : Uuid)
  | createComment (actor : Actor) (workItemId : Uuid) (body : String) (parentId : Option Uuid)
  | createWorkItem (actor : Actor) (projectId : Uuid) (type : WorkItemType) (title : String)
    (opts : CreateWorkItemOpts)
  | tick (microseconds : ℕ)

/-- What an atomic step does: a request comes in, a work service takes a step, or another service
does. -/
inductive CrossStep
  | arrive (request : CreateRequest)
  | work (label : WorkStep)
  | other

/-- A call of one of the services. -/
abbrev CrossCall := Concurrency.Call Db CrossStep Failure

/-- A call of a work service. -/
def ofWork {α : Type} (call : WorkCall α) : CrossCall α := call.within workPart CrossStep.work

end RallyApi.CrossTenant

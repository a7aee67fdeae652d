import RallyApi.CrossTenant.Schema

/-!
# Services that create teams, links and comments

The methods of `TeamService`, `ProjectsService` and `CollaborationService` that create a team, a member of
a team, a link between a project and a team, and a comment, with the repository methods they call. The
projects and work items are created by the work services, on their part of the store.
-/

set_option autoImplicit false
set_option relaxedAutoImplicit false

namespace RallyApi.CrossTenant

open Concurrency Platform Work

/-! ### Reads and inserts -/

/-- A read. -/
def query {α : Type} (read : Db → α) : CrossCall α := Call.query .other read

/-- A single statement that may be refused. -/
def statement {α : Type} (run : Db → Except Failure (α × Db)) : CrossCall α :=
  Call.attempt (fun _ ↦ .other) run

/-- `uuidv7()`. -/
def uuidv7 : CrossCall Uuid := ofWork Work.uuidv7

/-- `new Date()`, as a timestamp column stores it. -/
def Db.newDate (db : Db) : Timestamp := floorToMilliseconds db.work.now

/-! ### `WorkspaceDrizzleRepository`, `TeamDrizzleRepository` -/

/-- `findById`: a deleted workspace is found. -/
def findWorkspaceById (id : Uuid) : CrossCall (Option Identity.Workspace) :=
  query fun db ↦ db.workspaces.find? fun workspace ↦ workspace.id = id

/-- `findById`. -/
def findTeamById (id : Uuid) : CrossCall (Option Team) :=
  query fun db ↦ db.teams.find? fun team ↦ team.id = id

/-- `findByKey`. -/
def findTeamByKey (workspaceId : Uuid) (key : String) : CrossCall (Option Team) :=
  query fun db ↦ db.teams.find? fun team ↦ team.workspaceId = workspaceId ∧ team.key = key

/-- `create`, against the primary key, the length of the key and `uq_teams_key`. -/
def insertTeam (team : Db → Team) : CrossCall Team :=
  statement fun db ↦ do
    checkPrimaryKey "teams_pkey" Team.id db.teams (team db).id
    if (team db).key.toList.length > 10 then .error .stringDataRightTruncation
    else if db.teams.any fun row ↦
        row.workspaceId = (team db).workspaceId ∧ row.key = (team db).key then
      .error (.uniqueViolation "uq_teams_key")
    else .ok (team db, { db with teams := db.teams ++ [team db] })

/-! ### `TeamMemberDrizzleRepository` -/

/-- `findMember`. -/
def findTeamMember (teamId userId : Uuid) : CrossCall (Option TeamMember) :=
  query fun db ↦ db.teamMembers.find? fun member ↦
    member.teamId = teamId ∧ member.userId = userId ∧ member.status = .active

/-- `addMember`, against the primary key and `uq_team_member`. -/
def insertTeamMember (id tenantId teamId userId : Uuid) : CrossCall TeamMember :=
  statement fun db ↦ do
    let member : TeamMember := { id, tenantId, teamId, userId, joinedAt := db.newDate }
    checkPrimaryKey "team_members_pkey" TeamMember.id db.teamMembers id
    if db.teamMembers.any fun row ↦ row.teamId = teamId ∧ row.userId = userId then
      .error (.uniqueViolation "uq_team_member")
    else .ok (member, { db with teamMembers := db.teamMembers ++ [member] })

/-! ### `ProjectTeamDrizzleRepository` -/

/-- `findLink`. -/
def findLink (projectId teamId : Uuid) : CrossCall (Option ProjectTeam) :=
  query fun db ↦ db.projectTeams.find? fun link ↦
    link.projectId = projectId ∧ link.teamId = teamId ∧ link.status = .active

/-- The store with one more link. -/
def Db.addLink (db : Db) (link : ProjectTeam) : Db :=
  { db with
    work := { db.work with projectTeams := db.work.projectTeams ++ [link.toProjectTeamLink] }
    projectTeams := db.projectTeams ++ [link]
    links := by rw [db.links, List.map_append, List.map_singleton] }

/-- `linkTeam`, against the primary key and `uq_project_team`. -/
def insertLink (id tenantId projectId teamId : Uuid) : CrossCall ProjectTeam :=
  statement fun db ↦ do
    let link : ProjectTeam := { id, tenantId, projectId, teamId, linkedAt := db.newDate }
    checkPrimaryKey "project_teams_pkey" ProjectTeam.id db.projectTeams id
    if db.projectTeams.any fun row ↦ row.projectId = projectId ∧ row.teamId = teamId then
      .error (.uniqueViolation "uq_project_team")
    else .ok (link, db.addLink link)

/-! ### `CommentDrizzleRepository` -/

/-- `create`, against the primary key. -/
def insertComment (comment : Db → Comment) : CrossCall Comment :=
  statement fun db ↦ do
    checkPrimaryKey "comments_pkey" Comment.id db.comments (comment db).id
    .ok (comment db, { db with comments := db.comments ++ [comment db] })

/-! ### `TeamService` -/

/-- `key.toUpperCase()`, of a key of ASCII characters. -/
def upperKey (key : String) : String := String.ofList (key.toList.map Char.toUpper)

/-- `createTeam`. -/
def createTeam (tenantId workspaceId : Uuid) (name key : String) (description : Option String)
    (leadId : Option Uuid) : CrossCall Team := do
  let workspace ← findWorkspaceById workspaceId
  let _ ← Call.require workspace (notFoundException .workspaceNotFound "Workspace not found")
  let existing ← findTeamByKey workspaceId (upperKey key)
  Call.ensure existing.isNone (conflictException .teamKeyTaken
    ("Team key \"" ++ upperKey key ++ "\" is already taken in this workspace"))
  let id ← uuidv7
  insertTeam fun db ↦
    { id, tenantId, workspaceId, name, key := upperKey key, description, leadId,
      createdAt := db.newDate }

/-- `getTeam`. -/
def getTeam (id : Uuid) (tenantId : Option Uuid) : CrossCall Team := do
  let notFound := notFoundException .teamNotFound "Team not found"
  let found ← findTeamById id
  let team ← Call.require found notFound
  Call.ensure (tenantId.all fun tenantId ↦ team.tenantId = tenantId) notFound
  pure team

/-- `addTeamMember`. -/
def addTeamMember (teamId userId tenantId : Uuid) : CrossCall TeamMember := do
  let _ ← getTeam teamId none
  let existing ← findTeamMember teamId userId
  Call.ensure existing.isNone (conflictException .teamMemberAlreadyExists
    "User is already a member of this team")
  let id ← uuidv7
  insertTeamMember id tenantId teamId userId

/-! ### `ProjectsService`, `CollaborationService` -/

/-- `linkTeam`. -/
def linkTeam (tenantId projectId teamId : Uuid) : CrossCall ProjectTeam := do
  let _ ← ofWork (getProject tenantId projectId)
  let existing ← findLink projectId teamId
  Call.ensure existing.isNone (conflictException .projectTeamAlreadyLinked
    "Team is already linked to this project")
  let id ← uuidv7
  insertLink id tenantId projectId teamId

/-- `createComment`. -/
def createComment (actor : Actor) (workItemId : Uuid) (body : String) (parentId : Option Uuid) :
    CrossCall Comment := do
  let id ← uuidv7
  insertComment fun db ↦
    { id, tenantId := actor.tenantId, workItemId, authorId := actor.sub, body, parentId,
      createdAt := db.work.now }

/-! ### Requests -/

/-- The call of the service. -/
def CreateRequest.call : CreateRequest → CrossCall Unit
  | .createProject actor workspaceId key name description leadId =>
    ofWork (WorkRequest.createProject actor workspaceId key name description leadId).serve
  | .createTeam tenantId workspaceId name key description leadId =>
    (fun _ ↦ ()) <$> CrossTenant.createTeam tenantId workspaceId name key description leadId
  | .addTeamMember teamId userId tenantId =>
    (fun _ ↦ ()) <$> CrossTenant.addTeamMember teamId userId tenantId
  | .linkTeam tenantId projectId teamId =>
    (fun _ ↦ ()) <$> CrossTenant.linkTeam tenantId projectId teamId
  | .createComment actor workItemId body parentId =>
    (fun _ ↦ ()) <$> CrossTenant.createComment actor workItemId body parentId
  | .createWorkItem actor projectId type title opts =>
    ofWork (WorkRequest.createWorkItem actor projectId type title opts).serve
  | .tick microseconds => ofWork (WorkRequest.tick microseconds).serve

/-- A request comes in, and its call is made. -/
def CreateRequest.serve (request : CreateRequest) : CrossCall Unit := do
  Call.query (.arrive request) fun _ ↦ ()
  request.call

end RallyApi.CrossTenant

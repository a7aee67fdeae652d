import RallyApi.CrossTenant.Services
import RallyApi.Store.Table

/-!
# Members and teams of a project

The operations of `ProjectsService` that add and remove the members of a project and its links to teams
(`libs/modules/projects/src/application/projects.service.ts`), with the repository methods they call. Teams
are linked by `CrossTenant.linkTeam`, and projects are found by the work services. A removed member and an
unlinked team keep their row with another status. Lookups see active rows only, and the unique index of each
table sees all.
-/

set_option autoImplicit false
set_option relaxedAutoImplicit false

namespace RallyApi.Projects

open Concurrency CrossTenant Platform Store
open Work (MemberStatus WorkCall WorkStep)

/-! ### The store of the members -/

/-- The store of the work services, with the whole rows of the members. -/
structure Db where
  work : Work.Db
  projectMembers : List ProjectMemberRow := []
  members : work.projectMembers = projectMembers.map ProjectMemberRow.toProjectMember

/-- The store of the work services, from which the calls below take projects and identifiers. -/
def workPart : Part Db Work.Db where
  get := Db.work
  put after db :=
    { db with work := { after with projectMembers := db.work.projectMembers }, members := db.members }
  put_get _ := rfl

/-- A call on the members. -/
abbrev ProjectsCall := Concurrency.Call Db WorkStep Failure

/-- A call of a work service. -/
def ofWork {α : Type} (call : WorkCall α) : ProjectsCall α := call.within workPart id

/-- The store with other members. -/
def Db.withMembers (db : Db) (projectMembers : List ProjectMemberRow) : Db where
  work := { db.work with projectMembers := projectMembers.map ProjectMemberRow.toProjectMember }
  projectMembers
  members := rfl

/-! ### `ProjectMemberDrizzleRepository` -/

/-- `findMember`. -/
def findMember (projectId userId : Uuid) : ProjectsCall (Option ProjectMemberRow) :=
  Call.query .other fun db ↦ db.projectMembers.find? fun member ↦
    member.projectId = projectId ∧ member.userId = userId ∧ member.status = .active

/-- `addMember`. -/
def addMemberRow (id tenantId projectId userId : Uuid) (roleId : Option Uuid) :
    ProjectsCall ProjectMemberRow :=
  Call.attempt (fun _ ↦ .other) fun db ↦ do
    let member : ProjectMemberRow :=
      { id, tenantId, projectId, userId, roleId, joinedAt := floorToMilliseconds db.work.now }
    let _ ← Work.addProjectMember member.toProjectMember db.work
    pure (member, db.withMembers (db.projectMembers ++ [member]))

/-- `removeMember`. -/
def removeMemberRow (projectId userId : Uuid) : ProjectsCall Unit :=
  Call.atomically (fun _ ↦ .other) fun db ↦ ((), db.withMembers (updateWhere
    (fun member ↦ member.projectId = projectId ∧ member.userId = userId)
    (fun member ↦ { member with status := .ended }) db.projectMembers))

/-! ### `ProjectTeamDrizzleRepository` -/

/-- The store with other links. -/
def withLinks (db : CrossTenant.Db) (projectTeams : List ProjectTeam) : CrossTenant.Db :=
  { db with
    work := { db.work with projectTeams := projectTeams.map ProjectTeam.toProjectTeamLink }
    projectTeams
    links := rfl }

/-- `unlinkTeam`. -/
def unlinkTeamRow (projectId teamId : Uuid) : CrossCall Unit :=
  Call.atomically (fun _ ↦ .other) fun db ↦ ((), withLinks db (updateWhere
    (fun link ↦ link.projectId = projectId ∧ link.teamId = teamId ∧ link.status = .active)
    (fun link ↦ { link with status := .ended, unlinkedAt := some db.newDate }) db.projectTeams))

/-! ### `ProjectsService` -/

/-- `unlinkTeam`. -/
def unlinkTeam (tenantId projectId teamId : Uuid) : CrossCall Unit := do
  let _ ← CrossTenant.ofWork (Work.getProject tenantId projectId)
  let existing ← findLink projectId teamId
  Call.ensure existing.isSome
    (notFoundException .projectTeamLinkNotFound "Team is not linked to this project")
  unlinkTeamRow projectId teamId

/-- `addProjectMember`. -/
def addProjectMember (tenantId projectId userId : Uuid) (roleId : Option Uuid) :
    ProjectsCall ProjectMemberRow := do
  let _ ← ofWork (Work.getProject tenantId projectId)
  let existing ← findMember projectId userId
  Call.ensure existing.isNone (conflictException .projectMemberAlreadyExists
    "User is already a member of this project")
  let id ← ofWork Work.uuidv7
  addMemberRow id tenantId projectId userId roleId

/-- `removeProjectMember`. -/
def removeProjectMember (tenantId projectId userId : Uuid) : ProjectsCall Unit := do
  let _ ← ofWork (Work.getProject tenantId projectId)
  let existing ← findMember projectId userId
  Call.ensure existing.isSome
    (notFoundException .projectMemberNotFound "User is not a member of this project")
  removeMemberRow projectId userId

end RallyApi.Projects

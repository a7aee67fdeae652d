import RallyApi.Identity.AuthService
import RallyApi.Tenancy.Repositories

/-!
# `TenancyService`

Workspaces, members and invitations (`libs/modules/tenancy/src/application/tenancy.service.ts`), each
operation as the sequence of its database steps. The operations that login and signup use are with
`AuthService`. Settings, lists and logging are left out, and so are the e-mail that `inviteMember`
schedules in its transaction and the actor identifiers that are only logged.

`expireInvitations`, the step of the cleanup cron on the invitations, and the passing of time are
requests too.
-/

set_option autoImplicit false
set_option relaxedAutoImplicit false

namespace RallyApi.Tenancy

open Concurrency Identity Platform Store

/-! ### Workspaces -/

/-- `getWorkspace`. -/
def getWorkspace (tenantId workspaceId : Uuid) : TenancyCall Workspace := do
  let found ← findWorkspaceById workspaceId
  Call.require (found.filter fun workspace ↦
      workspace.deletedAt = none ∧ workspace.tenantId = tenantId)
    (notFoundException .workspaceNotFound "Workspace not found")

/-- `createWorkspace`: the workspace and the membership of its creator, in one transaction. -/
def createWorkspace (tenantId actorId : Uuid) (slug name : String) : TenancyCall Workspace := do
  let existing ← findBySlug tenantId slug
  Call.ensure existing.isNone
    (conflictException .workspaceSlugTaken ("Slug \"" ++ slug ++ "\" is already taken"))
  let id ← uuidv7
  let memberId ← uuidv7
  let member : WorkspaceMember :=
    { id := memberId, tenantId, workspaceId := id, userId := actorId, joinedAt := 0 }
  transaction (.addMember member) fun db ↦ do
    let workspace : Workspace := { id, tenantId, slug, name, createdAt := timestampOfDate db.now }
    let created ← insertWorkspace workspace db.toDb
    let after ← addMemberRow member { db with toDb := created }
    pure (workspace, after)

/-- `deleteWorkspace`. -/
def deleteWorkspace (tenantId workspaceId : Uuid) : TenancyCall Unit := do
  let _ ← getWorkspace tenantId workspaceId
  softDeleteWorkspace workspaceId

/-! ### Members -/

/-- `addMember`. -/
def addMember (tenantId workspaceId userId : Uuid) : TenancyCall WorkspaceMember := do
  let _ ← getWorkspace tenantId workspaceId
  let existing ← findMember workspaceId userId
  Call.ensure existing.isNone (conflictException .workspaceMemberAlreadyExists
    "User is already a member of this workspace")
  let id ← uuidv7
  let member : WorkspaceMember := { id, tenantId, workspaceId, userId, joinedAt := 0 }
  transaction (.addMember member) fun db ↦ do
    let after ← addMemberRow member db
    pure ({ member with joinedAt := timestampOfDate db.now }, after)

/-- The guard of `updateMember`: it counts the admins where a member is suspended or removed whose role, a
uuid, is the text `admin`. -/
def guardSoleAdmin (workspaceId : Uuid) (member : WorkspaceMember) (input : UpdateMemberInput) :
    TenancyCall Unit :=
  if (input.status = some .suspended ∨ input.status = some .removed) ∧
      member.roleId.map RoleText.uuid = some (.other "admin") then do
    let adminCount ← countActiveAdmins workspaceId
    Call.ensure (¬ adminCount ≤ 1) (preconditionFailedException .soleAdminViolation
      "Cannot suspend or remove the last workspace admin")
  else pure ()

/-- `updateMember`. -/
def updateMember (tenantId workspaceId memberId : Uuid) (input : UpdateMemberInput) :
    TenancyCall (Option WorkspaceMember) := do
  let _ ← getWorkspace tenantId workspaceId
  let found ← findMemberById memberId
  let member ← Call.require (found.filter fun member ↦ member.workspaceId = workspaceId)
    (notFoundException .workspaceMemberNotFound "Member not found in this workspace")
  guardSoleAdmin workspaceId member input
  updateMemberRow member input

/-- `removeMember`. -/
def removeMember (tenantId workspaceId userId : Uuid) : TenancyCall Unit := do
  let _ ← getWorkspace tenantId workspaceId
  let existing ← findMember workspaceId userId
  Call.ensure existing.isSome
    (notFoundException .workspaceMemberNotFound "Member not found in this workspace")
  removeMemberRow workspaceId userId

/-! ### Invitations -/

/-- `addDays`, from now. -/
def addDays (days : ℕ) : TenancyCall Date := do
  let now ← currentTime
  pure (now + days * (24 * (60 * (60 * 1000))))

/-- `inviteMember`: pending invitations of the address are cancelled and a new one is created, in one
transaction, whose `UPDATE` covers the rows it has seen. -/
def inviteMember (env : Env) (invitationTtlDays : ℕ) (tenantId workspaceId : Uuid) (email : String)
    (roleId : Option RoleText) (actorId : Uuid) : TenancyCall WorkspaceInvitation := do
  let _ ← getWorkspace tenantId workspaceId
  let normalizedEmail := env.trim (env.toLowerCase email)
  let rawToken ← randomBytes
  let expiresAt ← addDays invitationTtlDays
  let snapshot ← snapshotInvitations workspaceId normalizedEmail
  let id ← uuidv7
  let now ← currentTime
  let invitation : WorkspaceInvitation :=
    { id, tenantId, workspaceId, email := normalizedEmail, roleId := roleColumn roleId,
      tokenHash := env.hashToken rawToken, invitedBy := actorId, expiresAt, createdAt := now }
  transaction (.invite snapshot invitation) fun db ↦ do
    checkUuid roleId
    let after ← insertInvitation invitation
      (cancelExistingForEmail workspaceId normalizedEmail snapshot db)
    pure (invitation, after)

/-- `cancelInvitation`. -/
def cancelInvitation (tenantId workspaceId invitationId : Uuid) : TenancyCall Unit := do
  let _ ← getWorkspace tenantId workspaceId
  let found ← findInvitationById invitationId
  let invitation ← Call.require (found.filter fun invitation ↦ invitation.workspaceId = workspaceId)
    (notFoundException .invitationNotFound "Invitation not found")
  Call.ensure (invitation.status = .pending)
    (preconditionFailedException .invitationNotPending "Invitation is no longer pending")
  Call.atomically (fun _ ↦ .cancel invitationId)
    fun db ↦ ((), updateStatus invitationId .cancelled none db)

/-- The membership of `acceptInvitation`, unless there is one already. -/
def addMemberUnless (existing : Option WorkspaceMember) (member : WorkspaceMember) (db : Db) :
    Except Failure Db :=
  if existing.isSome then .ok db else addMemberRow member db

/-- The transaction of `acceptInvitation`: the keycard, the membership unless there was one, and the
status of the invitation. -/
def enroll (invitation : WorkspaceInvitation) (acceptingUserId keycardId memberId : Uuid)
    (existing : Option WorkspaceMember) : TenancyCall Unit :=
  transaction (.accept invitation acceptingUserId) fun db ↦ do
    let withMember ← addMemberUnless existing
      { id := memberId, tenantId := invitation.tenantId, workspaceId := invitation.workspaceId,
        userId := acceptingUserId, roleId := invitation.roleId, joinedAt := 0 }
      (tenantMemberCreate keycardId invitation.tenantId acceptingUserId db)
    pure ((), updateStatus invitation.id .accepted (some acceptingUserId) withMember)

/-- `acceptInvitation`. -/
def acceptInvitation (env : Env) (rawToken : RawToken) (acceptingUserId : Uuid) :
    TenancyCall Unit := do
  let found ← findByTokenHash (env.hashToken rawToken)
  let invitation ← Call.require found
    (notFoundException .invitationNotFound "Invalid or unknown invitation token")
  Call.ensure (invitation.status = .pending) (preconditionFailedException .invitationAlreadyUsed
    "Invitation has already been used or cancelled")
  let now ← currentTime
  Call.ensure (¬ invitation.expiresAt < now)
    (preconditionFailedException .invitationExpired "Invitation has expired")
  let existing ← findMember invitation.workspaceId acceptingUserId
  let keycardId ← uuidv7
  let memberId ← uuidv7
  enroll invitation acceptingUserId keycardId memberId existing

/-! ### Requests -/

/-- Time passes. -/
def tick (milliseconds : ℕ) : TenancyCall Unit :=
  transaction .other fun db ↦ .ok ((), { db with now := db.now + milliseconds })

/-- The calls clients and the cleanup cron make, and the passing of time. -/
inductive TenancyRequest
  | createWorkspace (tenantId actorId : Uuid) (slug name : String)
  | deleteWorkspace (tenantId workspaceId : Uuid)
  | addMember (tenantId workspaceId userId : Uuid)
  | updateMember (tenantId workspaceId memberId : Uuid) (input : UpdateMemberInput)
  | removeMember (tenantId workspaceId userId : Uuid)
  | inviteMember (tenantId workspaceId : Uuid) (email : String) (roleId : Option RoleText)
    (actorId : Uuid)
  | cancelInvitation (tenantId workspaceId invitationId : Uuid)
  | acceptInvitation (rawToken : RawToken) (acceptingUserId : Uuid)
  | expireInvitations
  | tick (milliseconds : ℕ)

/-- The call that serves a request. -/
def TenancyRequest.serve (env : Env) (invitationTtlDays : ℕ) : TenancyRequest → TenancyCall Unit
  | .createWorkspace tenantId actorId slug name =>
    (fun _ ↦ ()) <$> Tenancy.createWorkspace tenantId actorId slug name
  | .deleteWorkspace tenantId workspaceId => Tenancy.deleteWorkspace tenantId workspaceId
  | .addMember tenantId workspaceId userId =>
    (fun _ ↦ ()) <$> Tenancy.addMember tenantId workspaceId userId
  | .updateMember tenantId workspaceId memberId input =>
    (fun _ ↦ ()) <$> Tenancy.updateMember tenantId workspaceId memberId input
  | .removeMember tenantId workspaceId userId => Tenancy.removeMember tenantId workspaceId userId
  | .inviteMember tenantId workspaceId email roleId actorId =>
    (fun _ ↦ ()) <$>
      Tenancy.inviteMember env invitationTtlDays tenantId workspaceId email roleId actorId
  | .cancelInvitation tenantId workspaceId invitationId =>
    Tenancy.cancelInvitation tenantId workspaceId invitationId
  | .acceptInvitation rawToken acceptingUserId =>
    Tenancy.acceptInvitation env rawToken acceptingUserId
  | .expireInvitations => Tenancy.expireInvitations
  | .tick milliseconds => Tenancy.tick milliseconds

end RallyApi.Tenancy

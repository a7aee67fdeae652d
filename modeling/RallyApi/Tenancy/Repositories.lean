import RallyApi.Identity.Repositories
import RallyApi.Tenancy.Schema

/-!
# Repositories of the tenancy store

One definition per repository method the tenancy service calls, as the atomic step it is. The methods
that the service runs inside a transaction are given on the store, or on the table they write.
-/

set_option autoImplicit false
set_option relaxedAutoImplicit false

namespace RallyApi.Tenancy

open Concurrency Identity Platform Store

/-! ### Clock, identifiers and random tokens -/

/-- `new Date()`. -/
def currentTime : TenancyCall Date := Call.query .other fun db ↦ db.now

/-- The identifiers of the store. -/
def uuidSource : UuidSource Db :=
  .counter (fun db ↦ db.nextUuid) (fun nextUuid db ↦ { db with nextUuid }) fun _ _ ↦ rfl

/-- `uuidv7()`. -/
def uuidv7 : TenancyCall Uuid := uuidSource.uuidv7 fun _ ↦ .other

/-- The step of `uuidv7`. -/
theorem uuidv7_eq : uuidv7 = Call.atomically (fun _ ↦ .other)
    fun db ↦ (db.nextUuid, { db with nextUuid := db.nextUuid + 1 }) := rfl

/-- `randomBytes(32)`: a token never drawn before. -/
def randomBytes : TenancyCall RawToken :=
  Call.atomically (fun _ ↦ .other) fun db ↦ (db.nextToken, { db with nextToken := db.nextToken + 1 })

/-- A statement or transaction that commits with this label, or fails and changes nothing. -/
def transaction {α : Type} (label : TenancyStep) (run : Db → Except Failure (α × Db)) :
    TenancyCall α :=
  Call.transaction .other (fun _ ↦ label) run

/-! ### Columns of type `uuid` -/

/-- The uuid of a text. -/
def RoleText.uuid? : RoleText → Option Uuid
  | .uuid id => some id
  | .other _ => none

/-- What a `role_id` is set to, if to anything. -/
def roleColumn (roleId : Option RoleText) : Option Uuid := roleId.bind RoleText.uuid?

/-- A text that is no uuid is rejected. -/
def checkUuid (roleId : Option RoleText) : Except Failure Unit :=
  if roleId.all (·.uuid?.isSome) then .ok () else .error .invalidTextRepresentation

/-! ### `WorkspaceDrizzleRepository` -/

/-- `findById`. -/
def findWorkspaceById (id : Uuid) : TenancyCall (Option Workspace) :=
  Call.query .other fun db ↦ db.workspaces.find? fun workspace ↦ workspace.id = id

/-- `findBySlug`. -/
def findBySlug (tenantId : Uuid) (slug : String) : TenancyCall (Option Workspace) :=
  Call.query .other fun db ↦ db.workspaces.find? fun workspace ↦
    workspace.tenantId = tenantId ∧ workspace.slug = slug ∧ workspace.deletedAt = none

/-- `softDelete`. -/
def softDeleteWorkspace (id : Uuid) : TenancyCall Unit :=
  transaction .other fun db ↦ .ok ((), { db with
    workspaces := updateWhere (fun workspace ↦ workspace.id = id)
      (fun workspace ↦ { workspace with deletedAt := some db.now }) db.workspaces })

/-! ### `WorkspaceMemberDrizzleRepository` -/

/-- `findMember`. -/
def findMember (workspaceId userId : Uuid) : TenancyCall (Option WorkspaceMember) :=
  Call.query .other fun db ↦ db.workspaceMembers.find? fun member ↦
    member.workspaceId = workspaceId ∧ member.userId = userId

/-- `findMemberById`. -/
def findMemberById (id : Uuid) : TenancyCall (Option WorkspaceMember) :=
  Call.query .other fun db ↦ db.workspaceMembers.find? fun member ↦ member.id = id

/-- The row `addMember` inserts, against the primary key and `uq_workspace_member`. -/
def addMemberRow (member : WorkspaceMember) (db : Db) : Except Failure Db := do
  let workspaceMembers ← insertWorkspaceMember
    { member with joinedAt := timestampOfDate db.now } db.workspaceMembers
  pure { db with workspaceMembers }

/-- The `SET` of `updateMember`. -/
def UpdateMemberInput.apply (input : UpdateMemberInput) (member : WorkspaceMember) :
    WorkspaceMember :=
  { member with
    roleId := (roleColumn input.roleId).or member.roleId
    status := input.status.getD member.status }

/-- `updateMember`: the row it returns, if there is one. -/
def updateMemberRow (member : WorkspaceMember) (input : UpdateMemberInput) :
    TenancyCall (Option WorkspaceMember) :=
  transaction (.updateMember member input) fun db ↦ do
    checkUuid input.roleId
    let workspaceMembers := updateWhere (fun row ↦ row.id = member.id) input.apply db.workspaceMembers
    pure (workspaceMembers.find? fun row ↦ row.id = member.id, { db with workspaceMembers })

/-- `removeMember`. -/
def removeMemberRow (workspaceId userId : Uuid) : TenancyCall Unit :=
  Call.atomically (fun _ ↦ .removeMember workspaceId userId) fun db ↦ ((), { db with
    workspaceMembers := updateWhere
      (fun member ↦ member.workspaceId = workspaceId ∧ member.userId = userId)
      (fun member ↦ { member with status := .removed }) db.workspaceMembers })

/-- The member is active in the workspace and has the role. -/
def holdsRole (role : Uuid) (workspaceId : Uuid) (member : WorkspaceMember) : Bool :=
  member.workspaceId = workspaceId ∧ member.roleId = some role ∧ member.status = .active

/-- `countActiveAdmins`: the query compares `role_id`, a uuid, with the text `admin`. -/
def countActiveAdmins (workspaceId : Uuid) : TenancyCall ℕ :=
  transaction .other fun db ↦ do
    let admin := some (RoleText.other "admin")
    checkUuid admin
    pure (db.workspaceMembers.countP fun member ↦ member.workspaceId = workspaceId ∧
      member.roleId = roleColumn admin ∧ member.status = .active, db)

/-! ### `TenantMemberDrizzleRepository` -/

/-- `create`: an existing keycard is left as it is. -/
def tenantMemberCreate (id tenantId userId : Uuid) (db : Db) : Db :=
  if db.tenantMembers.any fun row ↦ row.id = id ∨ row.tenantId = tenantId ∧ row.userId = userId
  then db
  else { db with tenantMembers := db.tenantMembers ++ [{ id, tenantId, userId }] }

/-! ### `WorkspaceInvitationDrizzleRepository` -/

/-- `findByTokenHash`. -/
def findByTokenHash (hash : TokenHash) : TenancyCall (Option WorkspaceInvitation) :=
  Call.query .other fun db ↦
    db.workspaceInvitations.find? fun invitation ↦ invitation.tokenHash = hash

/-- `findById`. -/
def findInvitationById (id : Uuid) : TenancyCall (Option WorkspaceInvitation) :=
  Call.query .other fun db ↦ db.workspaceInvitations.find? fun invitation ↦ invitation.id = id

/-- `create`, against the primary key and `uq_wi_token_hash`. -/
def insertInvitation (invitation : WorkspaceInvitation) (db : Db) : Except Failure Db :=
  if db.workspaceInvitations.any fun row ↦ row.id = invitation.id then
    .error (.uniqueViolation "workspace_invitations_pkey")
  else if db.workspaceInvitations.any fun row ↦ row.tokenHash = invitation.tokenHash then
    .error (.uniqueViolation "uq_wi_token_hash")
  else .ok { db with workspaceInvitations := db.workspaceInvitations ++ [invitation] }

/-- The `UPDATE` of `updateStatus`. -/
def updateStatus (id : Uuid) (status : InvitationStatus) (acceptedBy : Option Uuid) (db : Db) : Db :=
  { db with
    workspaceInvitations := updateWhere (fun invitation ↦ invitation.id = id)
      (fun invitation ↦ { invitation with
        status
        acceptedBy := acceptedBy.or invitation.acceptedBy
        acceptedAt := (acceptedBy.map fun _ ↦ db.now).or invitation.acceptedAt })
      db.workspaceInvitations }

/-- The condition of `cancelExistingForEmail`. -/
def WorkspaceInvitation.pendingFor (workspaceId : Uuid) (email : String)
    (invitation : WorkspaceInvitation) : Bool :=
  invitation.workspaceId = workspaceId ∧ invitation.email = email ∧ invitation.status = .pending

/-- The rows the `UPDATE` of `cancelExistingForEmail` sees. -/
def snapshotInvitations (workspaceId : Uuid) (email : String) : TenancyCall (List Uuid) :=
  Call.query .other fun db ↦
    (db.workspaceInvitations.filter (WorkspaceInvitation.pendingFor workspaceId email)).map
      WorkspaceInvitation.id

/-- The `UPDATE` of `cancelExistingForEmail` on the rows of its snapshot that are still pending. -/
def cancelExistingForEmail (workspaceId : Uuid) (email : String) (snapshot : List Uuid) (db : Db) : Db :=
  { db with
    workspaceInvitations := updateWhere
      (fun invitation ↦ invitation.id ∈ snapshot ∧ invitation.pendingFor workspaceId email = true)
      (fun invitation ↦ { invitation with status := .cancelled }) db.workspaceInvitations }

/-- The `UPDATE` of the cleanup cron: pending invitations past their expiry. -/
def expireInvitations : TenancyCall Unit :=
  Call.atomically (fun _ ↦ .expire) fun db ↦ ((), { db with
    workspaceInvitations := updateWhere
      (fun invitation ↦ invitation.status = .pending ∧ invitation.expiresAt < db.now)
      (fun invitation ↦ { invitation with status := .expired }) db.workspaceInvitations })

end RallyApi.Tenancy

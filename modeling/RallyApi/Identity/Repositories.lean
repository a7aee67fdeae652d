import Mathlib.Data.List.Sort
import RallyApi.Identity.Schema
import RallyApi.Platform.UuidSource
import RallyApi.Store.Table

/-!
# Repositories of the identity store

One definition per repository method the authentication flows call, as the atomic step it is. A
single statement commits by itself. The methods that a service runs inside a transaction are
given on the store (`Db → …`), and the service puts them together in one step.
-/

set_option autoImplicit false
set_option relaxedAutoImplicit false

namespace RallyApi.Identity

open Concurrency Platform Store

/-! ### Clock, identifiers and random tokens -/

/-- `new Date()`. -/
def currentTime : AuthCall Date := Call.query .other fun db ↦ db.now

/-- The identifiers of the store. -/
def uuidSource : UuidSource Db :=
  .counter (fun db ↦ db.nextUuid) (fun nextUuid db ↦ { db with nextUuid }) fun _ _ ↦ rfl

/-- `uuidv7()`. -/
def uuidv7 : AuthCall Uuid := uuidSource.uuidv7 fun db ↦ .drawUuid db.nextUuid

/-- The step of `uuidv7`. -/
theorem uuidv7_eq : uuidv7 = Call.atomically (fun db ↦ .drawUuid db.nextUuid)
    fun db ↦ (db.nextUuid, { db with nextUuid := db.nextUuid + 1 }) := rfl

/-- `randomBytes(32)`: a token never drawn before. -/
def randomBytes : AuthCall RawToken :=
  Call.atomically (fun _ ↦ .other) fun db ↦ (db.nextToken, { db with nextToken := db.nextToken + 1 })

/-- A single statement that does not touch `auth_sessions`. -/
def statement {α : Type} (run : Db → Except Failure (α × Db)) : AuthCall α :=
  Call.attempt (fun _ ↦ .other) run

/-- A transaction whose writes commit together, labelled by what it does to `auth_sessions`. A
statement that fails inside it rolls it back, and the sessions are left alone. -/
def transaction {α : Type} (label : Db → SessionStep) (run : Db → Except Failure (α × Db)) :
    AuthCall α :=
  Call.attempt
    (fun db ↦ match run db with
      | .ok _ => label db
      | .error _ => .other)
    run

/-! ### `AuthSessionDrizzleRepository` -/

/-- `findByTokenHash`. -/
def findByTokenHash (hash : TokenHash) : AuthCall (Option AuthSession) :=
  Call.query .other fun db ↦ db.authSessions.find? fun session ↦ session.tokenHash = hash

/-- The `UPDATE` of `revokeById` on the table. -/
def revokeRow (id : Uuid) (sessions : List AuthSession) : List AuthSession :=
  updateWhere (fun session ↦ session.id = id) (fun session ↦ { session with isRevoked := true })
    sessions

/-- The `UPDATE` of `revokeFamily` and `revokeAllForUser` on the rows of its snapshot. -/
def revokeRows (snapshot : List Uuid) (sessions : List AuthSession) : List AuthSession :=
  updateWhere (fun session ↦ session.id ∈ snapshot)
    (fun session ↦ { session with isRevoked := true }) sessions

/-- Revoking rows changes no identifier. -/
@[simp]
theorem map_id_revoke (condition : AuthSession → Bool) (sessions : List AuthSession) :
    (updateWhere condition (fun session ↦ { session with isRevoked := true }) sessions).map
      AuthSession.id = sessions.map AuthSession.id :=
  map_updateWhere fun _ ↦ rfl

/-- `create`, against the primary key and `uq_auth_sessions_token_hash`. -/
def insertSession (session : AuthSession) (sessions : List AuthSession) :
    Except Failure (List AuthSession) :=
  if sessions.any fun row ↦ row.id = session.id then .error (.uniqueViolation "auth_sessions_pkey")
  else if sessions.any fun row ↦ row.tokenHash = session.tokenHash then
    .error (.uniqueViolation "uq_auth_sessions_token_hash")
  else .ok (sessions ++ [session])

/-- A successful insertion appends the row, whose identifier was not in the table. -/
theorem insertSession_ok {session : AuthSession} {sessions after : List AuthSession}
    (hinsert : insertSession session sessions = .ok after) :
    after = sessions ++ [session] ∧ session.id ∉ sessions.map AuthSession.id := by
  unfold insertSession at hinsert
  split_ifs at hinsert with hid hhash
  cases hinsert
  refine ⟨rfl, fun hmem ↦ hid ?_⟩
  obtain ⟨row, hrow, heq⟩ := List.mem_map.mp hmem
  exact List.any_eq_true.mpr ⟨row, hrow, decide_eq_true heq⟩

/-- Nor was its token hash. -/
theorem insertSession_hash {session : AuthSession} {sessions after : List AuthSession}
    (hinsert : insertSession session sessions = .ok after) :
    session.tokenHash ∉ sessions.map AuthSession.tokenHash := by
  unfold insertSession at hinsert
  split_ifs at hinsert with hid hhash
  intro hmem
  obtain ⟨row, hrow, heq⟩ := List.mem_map.mp hmem
  exact hhash (List.any_eq_true.mpr ⟨row, hrow, decide_eq_true heq⟩)

/-- `revokeById`, outside a transaction. -/
def revokeById (id : Uuid) : AuthCall Unit :=
  Call.atomically (fun _ ↦ .revokeById id)
    fun db ↦ ((), { db with authSessions := revokeRow id db.authSessions })

/-- The snapshot of a bulk revocation: the rows its condition finds. -/
def snapshotSessions (target : RevokeTarget) : AuthCall (List Uuid) :=
  Call.query .other fun db ↦ (db.authSessions.filter target.covers).map AuthSession.id

/-- The label of the commit of a bulk revocation. -/
def revokeLabel (target : RevokeTarget) (snapshot : List Uuid) (db : Db) : SessionStep :=
  .revoke target snapshot (db.authSessions.map AuthSession.id)

/-- The commit of a bulk revocation. -/
def commitRevoke (target : RevokeTarget) (snapshot : List Uuid) : AuthCall Unit :=
  Call.atomically (revokeLabel target snapshot)
    fun db ↦ ((), { db with authSessions := revokeRows snapshot db.authSessions })

/-- `revokeFamily`, outside a transaction. -/
def revokeFamily (familyId : Uuid) : AuthCall Unit := do
  let snapshot ← snapshotSessions (.family familyId)
  commitRevoke (.family familyId) snapshot

/-- `revokeAllForUser`, outside a transaction. -/
def revokeAllForUser (userId : Uuid) : AuthCall Unit := do
  let snapshot ← snapshotSessions (.user userId)
  commitRevoke (.user userId) snapshot

/-! ### `UserDrizzleRepository` -/

/-- `findByEmail`. -/
def findByEmail (email : String) : AuthCall (Option User) :=
  Call.query .other fun db ↦ db.users.find? fun user ↦ user.email = email ∧ user.deletedAt = none

/-- `findById`. -/
def findUserById (id : Uuid) : AuthCall (Option User) :=
  Call.query .other fun db ↦ db.users.find? fun user ↦ user.id = id ∧ user.deletedAt = none

/-- The `INSERT` into `users`, against the primary key and `uq_users_email`. -/
def insertUser (user : User) (db : Db) : Except Failure (User × Db) :=
  if db.users.any fun row ↦ row.id = user.id then .error (.uniqueViolation "users_pkey")
  else if user.deletedAt = none ∧ db.users.any fun row ↦ row.email = user.email ∧
      row.deletedAt = none then .error (.uniqueViolation "uq_users_email")
  else .ok (user, { db with users := db.users ++ [user] })

/-- `updateLastLogin`, in a transaction. -/
def updateLastLogin (id : Uuid) (db : Db) : Db :=
  { db with
    users := updateWhere (fun user ↦ user.id = id)
      (fun user ↦ { user with lastLoginAt := some db.now }) db.users }

/-- `updatePasswordHash`, in a transaction. -/
def updatePasswordHash (id : Uuid) (passwordHash : String) (db : Db) : Db :=
  { db with
    users := updateWhere (fun user ↦ user.id = id)
      (fun user ↦ { user with passwordHash := some passwordHash }) db.users }

/-- `findPasswordResetToken`: an expired token is not found. -/
def findPasswordResetToken (hash : TokenHash) : AuthCall (Option PasswordResetToken) :=
  Call.query .other fun db ↦
    db.passwordResetTokens.find? fun token ↦ token.tokenHash = hash ∧ db.now < token.expiresAt

/-- `markPasswordResetTokenUsed`, in a transaction. -/
def markPasswordResetTokenUsed (id : Uuid) (db : Db) : Db :=
  { db with
    passwordResetTokens := updateWhere (fun token ↦ token.id = id)
      (fun token ↦ { token with usedAt := some db.now }) db.passwordResetTokens }

/-- `findSsoIdentity`. -/
def findSsoIdentity (provider providerSub : String) : AuthCall (Option SsoIdentity) :=
  Call.query .other fun db ↦ db.ssoIdentities.find? fun identity ↦
    identity.provider = provider ∧ identity.providerSub = providerSub

/-- The `INSERT` into `sso_identities`, against the primary key and
`uq_sso_identities_provider_sub`. -/
def insertSsoIdentity (identity : SsoIdentity) : AuthCall Unit :=
  statement fun db ↦
    if db.ssoIdentities.any fun row ↦ row.id = identity.id then
      .error (.uniqueViolation "sso_identities_pkey")
    else if db.ssoIdentities.any fun row ↦
        row.provider = identity.provider ∧ row.providerSub = identity.providerSub then
      .error (.uniqueViolation "uq_sso_identities_provider_sub")
    else .ok ((), { db with ssoIdentities := db.ssoIdentities ++ [identity] })

/-- The `UPDATE` of the e-mail address of a linked identity. -/
def updateProviderEmail (id : Uuid) (providerEmail : String) : AuthCall Unit :=
  statement fun db ↦ .ok ((), { db with
    ssoIdentities := updateWhere (fun row ↦ row.id = id)
      (fun row ↦ { row with providerEmail }) db.ssoIdentities })

/-- `SsoConnectionDrizzleRepository.findByExternalTenantId`. -/
def findByExternalTenantId (provider externalTenantId : String) :
    AuthCall (Option SsoConnection) :=
  Call.query .other fun db ↦ db.ssoConnections.find? fun connection ↦
    connection.provider = provider ∧ connection.externalTenantId = externalTenantId

/-! ### Tenancy repositories -/

/-- `TenantRepository.create` with `createSubscription`, in a transaction, against the primary key
and `uq_tenants_slug`. -/
def insertTenant (tenant : Tenant) (db : Db) : Except Failure Db :=
  if db.tenants.any fun row ↦ row.id = tenant.id then .error (.uniqueViolation "tenants_pkey")
  else if db.tenants.any fun row ↦ row.slug = tenant.slug ∧ row.deletedAt = none then
    .error (.uniqueViolation "uq_tenants_slug")
  else .ok { db with
    tenants := db.tenants ++ [tenant]
    subscriptions := tenant.id :: db.subscriptions.filter (· ≠ tenant.id) }

/-- `WorkspaceRepository.create`, in a transaction, against the primary key and
`uq_workspaces_tenant_slug`. -/
def insertWorkspace (workspace : Workspace) (db : Db) : Except Failure Db :=
  if db.workspaces.any fun row ↦ row.id = workspace.id then
    .error (.uniqueViolation "workspaces_pkey")
  else if db.workspaces.any fun row ↦ row.tenantId = workspace.tenantId ∧
      row.slug = workspace.slug ∧ row.deletedAt = none then
    .error (.uniqueViolation "uq_workspaces_tenant_slug")
  else .ok { db with workspaces := db.workspaces ++ [workspace] }

/-- `TenantDomainRepository.create`, in a transaction, against the primary key and
`uq_tenant_domains_domain`. -/
def insertTenantDomain (claim : TenantDomain) (db : Db) : Except Failure Db :=
  if db.tenantDomains.any fun row ↦ row.id = claim.id then
    .error (.uniqueViolation "tenant_domains_pkey")
  else if db.tenantDomains.any fun row ↦ row.domain = claim.domain then
    .error (.uniqueViolation "uq_tenant_domains_domain")
  else .ok { db with tenantDomains := db.tenantDomains ++ [claim] }

/-- `TenantDomainDrizzleRepository.findByDomain`; the caller has lower-cased the domain. -/
def findByDomain (domain : String) : AuthCall (Option TenantDomain) :=
  Call.query .other fun db ↦ db.tenantDomains.find? fun claim ↦ claim.domain = domain

/-- The first row of `WorkspaceDrizzleRepository.listByTenant`. -/
def firstWorkspace (tenantId : Uuid) : AuthCall (Option Workspace) :=
  Call.query .other fun db ↦
    ((db.workspaces.filter fun row ↦ row.tenantId = tenantId ∧ row.deletedAt = none).insertionSort
      fun a b ↦ a.createdAt ≤ b.createdAt).head?

/-- `TenantMembership`: a keycard with the tenant and the role shown in the switcher. -/
structure TenantMembership where
  tenantId : Uuid
  tenantName : String
  tenantSlug : String
  lastActiveAt : Option Date
  roleSlug : Option String
  roleName : Option String
  deriving DecidableEq, Repr

/-- `ORDER BY last_active_at DESC`, where a null comes first. -/
def moreRecent : Option Date → Option Date → Prop
  | none, _ => True
  | some _, none => False
  | some a, some b => b ≤ a

instance : DecidableRel moreRecent := fun a b ↦
  match a, b with
  | none, _ => .isTrue trivial
  | some _, none => .isFalse id
  | some a, some b => inferInstanceAs (Decidable (b ≤ a))

/-- `LEFT JOIN`: the matching rows, or one absent row when there are none. -/
def leftJoin {Row : Type} (condition : Row → Bool) (rows : List Row) : List (Option Row) :=
  match rows.filter condition with
  | [] => [none]
  | matching => matching.map some

/-- `TenantMemberDrizzleRepository.findByUserId`. -/
def findByUserId (userId : Uuid) : AuthCall (List TenantMembership) :=
  Call.query .other fun db ↦
    let joined : List TenantMembership := do
      let member ← db.tenantMembers.filter fun row ↦ row.userId = userId ∧ row.status = .active
      let tenant ← db.tenants.filter fun row ↦ row.id = member.tenantId
      let assignment ← leftJoin (fun row : UserRoleAssignment ↦ row.userId = member.userId ∧
        row.tenantId = member.tenantId ∧ row.scopeType = .workspace) db.userRoleAssignments
      let role ← leftJoin (fun row : SystemRole ↦ some row.id = assignment.map (·.roleId))
        db.systemRoles
      pure { tenantId := member.tenantId, tenantName := tenant.name, tenantSlug := tenant.slug,
             lastActiveAt := member.lastActiveAt, roleSlug := role.map (·.slug),
             roleName := role.map (·.name) }
    joined.insertionSort fun a b ↦ moreRecent a.lastActiveAt b.lastActiveAt

/-- `TenantMemberDrizzleRepository.findByUserAndTenant`. -/
def findByUserAndTenant (userId tenantId : Uuid) : AuthCall (Option TenantMember) :=
  Call.query .other fun db ↦
    db.tenantMembers.find? fun row ↦ row.userId = userId ∧ row.tenantId = tenantId

/-- `TenantMemberDrizzleRepository.create`: an existing keycard is left as it is. -/
def createTenantMember (id tenantId userId : Uuid) : AuthCall Unit :=
  statement fun db ↦
    if db.tenantMembers.any fun row ↦ row.id = id ∨ row.tenantId = tenantId ∧ row.userId = userId
    then .ok ((), db)
    else .ok ((), { db with tenantMembers := db.tenantMembers ++ [{ id, tenantId, userId }] })

/-- `TenantMemberDrizzleRepository.touchLastActive`. -/
def touchLastActive (userId tenantId : Uuid) : AuthCall Unit :=
  statement fun db ↦ .ok ((), { db with
    tenantMembers := updateWhere (fun row ↦ row.userId = userId ∧ row.tenantId = tenantId)
      (fun row ↦ { row with lastActiveAt := some db.now }) db.tenantMembers })

/-- `WorkspaceMemberDrizzleRepository.addMember`, against the primary key and
`uq_workspace_member`. -/
def insertWorkspaceMember (member : WorkspaceMember) (members : List WorkspaceMember) :
    Except Failure (List WorkspaceMember) :=
  if members.any fun row ↦ row.id = member.id then .error (.uniqueViolation "workspace_members_pkey")
  else if members.any fun row ↦
      row.workspaceId = member.workspaceId ∧ row.userId = member.userId then
    .error (.uniqueViolation "uq_workspace_member")
  else .ok (members ++ [member])

/-- `addMember`, outside a transaction, of an active member. -/
def addWorkspaceMember (id tenantId workspaceId userId : Uuid) (roleId : Option Uuid) :
    AuthCall Unit :=
  statement fun db ↦ do
    let workspaceMembers ← insertWorkspaceMember
      { id, tenantId, workspaceId, userId, roleId, joinedAt := timestampOfDate db.now }
      db.workspaceMembers
    pure ((), { db with workspaceMembers })

/-! ### Access repositories -/

/-- `RoleAssignmentDrizzleRepository.listForUser`. -/
def listForUser (tenantId userId : Uuid) : AuthCall (List UserRoleAssignment) :=
  Call.query .other fun db ↦
    db.userRoleAssignments.filter fun row ↦ row.tenantId = tenantId ∧ row.userId = userId

/-- `RoleDrizzleRepository.findById`. -/
def findRoleById (id : Uuid) : AuthCall (Option SystemRole) :=
  Call.query .other fun db ↦ db.systemRoles.find? fun role ↦ role.id = id

/-- `RoleDrizzleRepository.listForTenant`. -/
def listRolesForTenant (tenantId : Uuid) : AuthCall (List SystemRole) :=
  Call.query .other fun db ↦
    db.systemRoles.filter fun role ↦ role.tenantId = none ∨ role.tenantId = some tenantId

/-- `RoleAssignmentDrizzleRepository.create`, against the primary key and
`uq_ura_user_role_scope`, in which an absent scope is never equal to another. -/
def createRoleAssignment (assignment : UserRoleAssignment) : AuthCall Unit :=
  statement fun db ↦
    if db.userRoleAssignments.any fun row ↦ row.id = assignment.id then
      .error (.uniqueViolation "user_role_assignments_pkey")
    else if db.userRoleAssignments.any fun row ↦ row.userId = assignment.userId ∧
        row.roleId = assignment.roleId ∧ row.scopeType = assignment.scopeType ∧
        row.scopeId ≠ none ∧ row.scopeId = assignment.scopeId then
      .error (.uniqueViolation "uq_ura_user_role_scope")
    else .ok ((), { db with userRoleAssignments := db.userRoleAssignments ++ [assignment] })

/-! ### The denylist -/

/-- `ValkeyService.denylistToken`: `SET denylist:<jti> EX ttl`. -/
def denylistToken (jti : Uuid) (ttlSeconds : ℕ) : AuthCall Unit :=
  statement fun db ↦ .ok ((), { db with
    denylist := (jti, db.now + ttlSeconds * 1000) :: db.denylist.filter fun entry ↦ entry.1 ≠ jti })

end RallyApi.Identity

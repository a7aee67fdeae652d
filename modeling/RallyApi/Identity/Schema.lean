import RallyApi.Concurrency.Call
import RallyApi.Platform.Errors
import RallyApi.Platform.Scalars

/-!
# The identity store

The tables the authentication flows read and write (`db/schema/identity.ts`, and the parts of
`tenancy.ts` and `access.ts` that login needs), the access-token denylist, the clock and the
sources of fresh identifiers and random tokens. A row keeps the columns a modelled function uses.

`SessionStep` labels the atomic steps of the flows by what they do to `auth_sessions`. A bulk
revocation is two steps, a snapshot and a commit, since under READ COMMITTED an `UPDATE` only
covers the rows its snapshot has seen; the label of the commit says which rows these are and which
rows exist by then.
-/

set_option autoImplicit false
set_option relaxedAutoImplicit false

namespace RallyApi.Identity

open Platform

/-- A raw refresh or reset token, as `randomBytes(32)` draws it. -/
abbrev RawToken := ℕ

/-- The SHA-256 digest of a token. -/
abbrev TokenHash := ℕ

/-! ### Rows -/

/-- `user_status`. -/
inductive UserStatus
  | invited
  | active
  | inactive
  | suspended
  deriving DecidableEq, Repr

/-- A row of `identity.users`. -/
structure User where
  id : Uuid
  email : String
  displayName : String
  avatarUrl : Option String := none
  passwordHash : Option String
  status : UserStatus
  emailVerified : Bool := false
  locale : String := "en"
  timezone : String := "UTC"
  lastLoginAt : Option Date := none
  deletedAt : Option Date := none
  deriving DecidableEq, Repr

/-- A row of `identity.auth_sessions`. -/
structure AuthSession where
  id : Uuid
  tenantId : Uuid
  userId : Uuid
  tokenHash : TokenHash
  familyId : Uuid
  ipAddress : Option String := none
  isRevoked : Bool := false
  expiresAt : Date
  createdAt : Date
  ssoProvider : Option String := none
  deriving DecidableEq, Repr

/-- A row of `identity.sso_identities`. -/
structure SsoIdentity where
  id : Uuid
  tenantId : Uuid
  userId : Uuid
  provider : String
  providerSub : String
  providerEmail : String
  deriving DecidableEq, Repr

/-- `sso_connection_status`. -/
inductive SsoConnectionStatus
  | active
  | disabled
  deriving DecidableEq, Repr

/-- A row of `identity.sso_connections`. -/
structure SsoConnection where
  id : Uuid
  tenantId : Uuid
  provider : String
  externalTenantId : String
  defaultRoleSlug : String := "project_member"
  allowedEmailDomains : List String := []
  jitEnabled : Bool := true
  status : SsoConnectionStatus := .active
  deriving DecidableEq, Repr

/-- A row of `identity.password_reset_tokens`. -/
structure PasswordResetToken where
  id : Uuid
  userId : Uuid
  tokenHash : TokenHash
  expiresAt : Date
  usedAt : Option Date := none
  deriving DecidableEq, Repr

/-- A row of `tenancy.tenants`. -/
structure Tenant where
  id : Uuid
  slug : String
  name : String
  deletedAt : Option Date := none
  deriving DecidableEq, Repr

/-- A row of `tenancy.workspaces`. -/
structure Workspace where
  id : Uuid
  tenantId : Uuid
  slug : String
  name : String
  createdAt : Timestamp
  deletedAt : Option Date := none
  deriving DecidableEq, Repr

/-- A row of `tenancy.tenant_domains`. -/
structure TenantDomain where
  id : Uuid
  tenantId : Uuid
  domain : String
  verified : Option Date := none
  allowAutoJoin : Bool := false
  deriving DecidableEq, Repr

/-- `workspace_member_status`, shared by the members of workspaces and of tenants. -/
inductive MemberStatus
  | active
  | suspended
  | removed
  deriving DecidableEq, Repr

/-- A row of `tenancy.tenant_members`: the keycard of a user for a tenant. -/
structure TenantMember where
  id : Uuid
  tenantId : Uuid
  userId : Uuid
  roleId : Option Uuid := none
  status : MemberStatus := .active
  lastActiveAt : Option Date := none
  deriving DecidableEq, Repr

/-- A row of `tenancy.workspace_members`. -/
structure WorkspaceMember where
  id : Uuid
  tenantId : Uuid
  workspaceId : Uuid
  userId : Uuid
  roleId : Option Uuid := none
  status : MemberStatus := .active
  joinedAt : Timestamp
  deriving DecidableEq, Repr

/-- A row of `access.system_roles`. A role without a tenant is global. -/
structure SystemRole where
  id : Uuid
  tenantId : Option Uuid
  name : String
  slug : String
  permissions : List String
  deriving DecidableEq, Repr

/-- `scope_type`. -/
inductive ScopeType
  | global
  | workspace
  | project
  deriving DecidableEq, Repr

/-- A row of `access.user_role_assignments`. -/
structure UserRoleAssignment where
  id : Uuid
  tenantId : Uuid
  userId : Uuid
  roleId : Uuid
  scopeType : ScopeType
  scopeId : Option Uuid := none
  grantedBy : Option Uuid := none
  deriving DecidableEq, Repr

/-! ### The store and its steps -/

/-- The store. The denylist holds each denied token identifier with the time it expires. -/
structure Db where
  now : Date := 0
  nextUuid : Uuid := 0
  nextToken : RawToken := 0
  users : List User := []
  authSessions : List AuthSession := []
  ssoIdentities : List SsoIdentity := []
  ssoConnections : List SsoConnection := []
  passwordResetTokens : List PasswordResetToken := []
  tenants : List Tenant := []
  subscriptions : List Uuid := []
  workspaces : List Workspace := []
  tenantDomains : List TenantDomain := []
  tenantMembers : List TenantMember := []
  workspaceMembers : List WorkspaceMember := []
  systemRoles : List SystemRole := []
  userRoleAssignments : List UserRoleAssignment := []
  denylist : List (Uuid × Date) := []

/-- The sessions a bulk revocation is about: `WHERE family_id = …` or `WHERE user_id = …`. -/
inductive RevokeTarget
  | family (familyId : Uuid)
  | user (userId : Uuid)
  deriving DecidableEq, Repr

/-- The condition of a bulk revocation. -/
def RevokeTarget.covers : RevokeTarget → AuthSession → Bool
  | .family familyId, session => session.familyId = familyId
  | .user userId, session => session.userId = userId

/-- What an atomic step does to the sessions: nothing (`other`), draw an identifier, open a session
in a new family, rotate a presented session into its successor, revoke one session, or commit a
bulk revocation, with the rows of its snapshot and all the rows that exist when it commits. -/
inductive SessionStep
  | other
  | drawUuid (id : Uuid)
  | openSession (session : AuthSession)
  | rotate (presented successor : AuthSession)
  | revokeById (id : Uuid)
  | revoke (target : RevokeTarget) (snapshot existing : List Uuid)
  deriving DecidableEq, Repr

/-- A call of the authentication flows. -/
abbrev AuthCall := Concurrency.Call Db SessionStep Platform.Failure

/-- A step that leaves the sessions alone, and draws an identifier or none. -/
def Quiet (db : Db) (label : SessionStep) (after : Db) : Prop :=
  after.authSessions = db.authSessions ∧
    (label = .other ∧ after.nextUuid = db.nextUuid ∨
      label = .drawUuid db.nextUuid ∧ after.nextUuid = db.nextUuid + 1)

@[simp]
theorem quiet_refl (db : Db) : Quiet db .other db := ⟨rfl, .inl ⟨rfl, rfl⟩⟩

end RallyApi.Identity

import RallyApi.Identity.Repositories
import RallyApi.Platform.Duration

/-!
# `AuthService`

The authentication flows (`libs/modules/identity/src/application/auth.service.ts`) with the parts
of `TenancyService` and `AccessService` they call, each as the sequence of its database and cache
steps. What lies outside the repository (argon2, SHA-256, the Entra token check, Unicode case
mapping) is a field of `Env`. Logging, the audit trail and the break-glass e-mail are left out:
no modelled function reads what they write.

`Promise.all` leaves the order in which its operations complete open; the calls that use it take
that order as an argument. `tick` lets time pass.
-/

set_option autoImplicit false
set_option relaxedAutoImplicit false

namespace RallyApi.Identity

open Concurrency Platform Store

/-! ### Environment -/

/-- The claims of a verified Entra token that `ssoLogin` reads; a claim that is not a string is
absent. -/
structure SsoClaims where
  oid : Option String := none
  email : Option String := none
  preferredUsername : Option String := none
  upn : Option String := none
  name : Option String := none
  tid : Option String := none

/-- The configuration the flows read. -/
structure Config where
  entraConfigured : Bool := true
  platformAdminEmails : List String := []
  entraDefaultTenantId : Option Uuid := none
  production : Bool := true
  jwtAccessExpiry : String := "15m"
  jwtRefreshExpiry : String := "30d"

/-- The time zone of the process as the setters of `Date` use it: the wall clock of an instant and the
instant of a wall clock, both in milliseconds. -/
structure TimeZone where
  localTime : Date → ℤ
  utc : ℤ → Date

/-- A zone that is always this far ahead of UTC. -/
def TimeZone.fixed (offset : ℤ) : TimeZone :=
  { localTime := fun date ↦ date + offset, utc := fun time ↦ time - offset }

/-- `date.setSeconds(date.getSeconds() + seconds)`: the wall clock is moved ahead, not the instant. -/
def TimeZone.addSeconds (zone : TimeZone) (date : Date) (seconds : ℕ) : Date :=
  zone.utc (zone.localTime date + seconds * 1000)

@[simp]
theorem TimeZone.fixed_addSeconds (offset : ℤ) (date : Date) (seconds : ℕ) :
    (TimeZone.fixed offset).addSeconds date seconds = date + seconds * 1000 := by
  change date + offset + seconds * 1000 - offset = date + seconds * 1000
  rw [Int.add_right_comm, Int.add_sub_cancel]

/-- Code outside the repository and the configuration. `platformAdminEmails` is
`PLATFORM_ADMIN_EMAILS` split at commas. -/
structure Env where
  config : Config
  verifyPassword : String → String → Bool
  hashPassword : String → String
  hashToken : RawToken → TokenHash
  verifyIdToken : String → Option SsoClaims
  toLowerCase : String → String
  trim : String → String
  tenantSlug : String → RawToken → String
  timeZone : TimeZone := .fixed 0

/-! ### Tokens -/

/-- How a session was established. -/
inductive AuthMethod
  | password
  | sso
  deriving DecidableEq, Repr

/-- The payload of an access token; the token itself is its signature by `JwtService`. -/
structure JwtPayload where
  sub : Uuid
  tenantId : Uuid
  sessionId : Uuid
  jti : Uuid
  permissions : List String
  authMethod : AuthMethod
  iat : ℤ
  exp : ℤ
  deriving DecidableEq, Repr

/-- `LoginResult`, and `RefreshResult` without user and memberships. -/
structure LoginResult where
  accessToken : JwtPayload
  refreshToken : RawToken
  expiresIn : ℕ
  user : Option User := none
  memberships : List TenantMembership := []

/-- `signAccessToken`. -/
def signAccessToken (env : Env) (user : User) (sessionId : Uuid) (permissions : List String)
    (tenantId : Uuid) (authMethod : AuthMethod) : AuthCall (JwtPayload × ℕ) := do
  let jti ← uuidv7
  let expiresIn ← Call.require (parseDurationToSeconds env.config.jwtAccessExpiry) .typeError
  let now ← currentTime
  let iat := now / 1000
  pure ({ sub := user.id, tenantId, sessionId, jti, permissions, authMethod, iat,
          exp := iat + expiresIn }, expiresIn)

/-- What `generateRefreshToken` returns. -/
structure RefreshToken where
  refreshToken : RawToken
  tokenHash : TokenHash
  familyId : Uuid

/-- `generateRefreshToken`. -/
def generateRefreshToken (env : Env) : AuthCall RefreshToken := do
  let refreshToken ← randomBytes
  let familyId ← uuidv7
  pure { refreshToken, tokenHash := env.hashToken refreshToken, familyId }

/-- `new Date()` with its seconds set so many ahead. -/
def expiryAfter (env : Env) (seconds : ℕ) : AuthCall Date := do
  let now ← currentTime
  pure (env.timeZone.addSeconds now seconds)

/-- The transaction that creates a session and stamps the last login. -/
def createSession (session : AuthSession) : AuthCall Unit :=
  transaction (fun db ↦ .openSession { session with createdAt := db.now }) fun db ↦ do
    let authSessions ← insertSession { session with createdAt := db.now } db.authSessions
    pure ((), updateLastLogin session.userId { db with authSessions })

/-- The end of `login`, `signup` and `ssoLogin`: sign an access token and open a session in a new
family with the refresh token that goes with it. -/
def issueSession (env : Env) (user : User) (sessionId : Uuid) (permissions : List String)
    (tenantId : Uuid) (authMethod : AuthMethod) (ttlSeconds : ℕ) (ipAddress : Option String)
    (ssoProvider : Option String) : AuthCall LoginResult := do
  let (accessToken, expiresIn) ←
    signAccessToken env user sessionId permissions tenantId authMethod
  let token ← generateRefreshToken env
  let expiresAt ← expiryAfter env ttlSeconds
  createSession
    { id := sessionId, tenantId, userId := user.id, tokenHash := token.tokenHash,
      familyId := token.familyId, ipAddress, expiresAt, createdAt := expiresAt, ssoProvider }
  pure { accessToken, refreshToken := token.refreshToken, expiresIn }

/-- The status test of `ssoLogin`, `refresh` and `switchTenant`. -/
def User.deactivated (user : User) : Bool :=
  user.deletedAt.isSome ∨ user.status = .suspended ∨ user.status = .inactive

/-! ### `TenancyService` and `AccessService` -/

/-- The part of an e-mail address after its last `@`. -/
def emailDomain (email : String) : String :=
  String.ofList (email.toList.reverse.takeWhile (· ≠ '@')).reverse

/-- `provisionTenant`: tenant, default workspace, trial subscription and, for a corporate domain, an
unverified claim, in one transaction. -/
def provisionTenant (env : Env) (orgName : String) (primaryDomain : Option String) :
    AuthCall (Tenant × Workspace) := do
  let tenantId ← uuidv7
  let suffix ← randomBytes
  let workspaceId ← uuidv7
  let claimId ← uuidv7
  let tenant : Tenant := { id := tenantId, slug := env.tenantSlug orgName suffix, name := orgName }
  statement fun db ↦ do
    let workspace : Workspace :=
      { id := workspaceId, tenantId, slug := "main", name := orgName,
        createdAt := timestampOfDate db.now }
    let withTenant ← insertTenant tenant db
    let withWorkspace ← insertWorkspace workspace withTenant
    match primaryDomain with
    | none => pure ((tenant, workspace), withWorkspace)
    | some domain =>
      let withClaim ← insertTenantDomain
        { id := claimId, tenantId, domain := env.toLowerCase domain } withWorkspace
      pure ((tenant, workspace), withClaim)

/-- `isDomainClaimed`. -/
def isDomainClaimed (env : Env) (domain : String) : AuthCall Bool := do
  let claim ← findByDomain (env.toLowerCase domain)
  pure claim.isSome

/-- `findAutoJoinTarget`: the tenant and the workspace of a verified, auto-join domain. -/
def findAutoJoinTarget (env : Env) (domain : String) : AuthCall (Option (Uuid × Uuid)) := do
  let claim ← findByDomain (env.toLowerCase domain)
  match claim with
  | none => pure none
  | some claim =>
    if claim.verified.isNone ∨ claim.allowAutoJoin = false then pure none
    else
      let workspace ← firstWorkspace claim.tenantId
      pure (workspace.map fun workspace ↦ (claim.tenantId, workspace.id))

/-- `enrollMember`. -/
def enrollMember (tenantId workspaceId userId : Uuid) : AuthCall Unit := do
  let keycardId ← uuidv7
  createTenantMember keycardId tenantId userId
  let memberId ← uuidv7
  addWorkspaceMember memberId tenantId workspaceId userId none

/-- `getMemberships`. -/
def getMemberships (userId : Uuid) : AuthCall (List TenantMembership) := findByUserId userId

/-- `ensureDefaultRole`: does nothing when the user already has an assignment in the tenant. -/
def ensureDefaultRole (userId tenantId : Uuid) (defaultRoleSlug : String) : AuthCall Unit := do
  let existing ← listForUser tenantId userId
  if existing ≠ [] then pure ()
  else
    let roles ← listRolesForTenant tenantId
    match (roles.find? (·.slug = defaultRoleSlug)).or
        (roles.find? (·.slug = "workspace_member")) with
    | none => pure ()
    | some role =>
      let id ← uuidv7
      createRoleAssignment { id, tenantId, userId, roleId := role.id, scopeType := .workspace,
                             grantedBy := some userId }

/-- The permissions of a user without an assignment or with a role that is gone. -/
def fallbackPermissions : List String := ["workspace:view", "project:view"]

/-- The permissions of `getUserRoleAndPermissions`. -/
def getUserPermissions (userId tenantId : Uuid) : AuthCall (List String) := do
  let assignments ← listForUser tenantId userId
  match (assignments.find? (·.scopeType = .workspace)).or assignments.head? with
  | none => pure fallbackPermissions
  | some preferred =>
    let role ← findRoleById preferred.roleId
    pure ((role.map (·.permissions)).getD fallbackPermissions)

/-! ### Login and signup -/

/-- `login`. -/
def login (env : Env) (email password : String) (ipAddress : Option String) (rememberMe : Bool) :
    AuthCall LoginResult := do
  let invalidCredentials :=
    unauthorizedException .authInvalidCredentials "Invalid email or password"
  let found ← findByEmail (env.trim (env.toLowerCase email))
  let user ← Call.require found invalidCredentials
  let passwordHash ← Call.require user.passwordHash invalidCredentials
  Call.ensure (¬ user.deactivated)
    (unauthorizedException .userDeactivated "Account is not active")
  Call.ensure (user.status ≠ .invited)
    (unauthorizedException .userDeactivated "Account has not been activated yet")
  Call.ensure (env.verifyPassword passwordHash password) invalidCredentials
  let sessionId ← uuidv7
  let memberships ← getMemberships user.id
  let active ← Call.require memberships.head?
    (unauthorizedException .accountDeactivated "No active tenant membership found")
  let permissions ← getUserPermissions user.id active.tenantId
  let ttlSeconds :=
    if rememberMe then refreshTtlSeconds env.config.jwtRefreshExpiry else 24 * 3600
  let issued ← issueSession env user sessionId permissions active.tenantId .password ttlSeconds
    ipAddress none
  touchLastActive user.id active.tenantId
  pure { issued with user, memberships }

/-- `PUBLIC_EMAIL_DOMAINS`. -/
def publicEmailDomains : List String :=
  ["gmail.com", "googlemail.com", "outlook.com", "hotmail.com", "live.com", "yahoo.com",
    "ymail.com", "icloud.com", "me.com", "aol.com", "proton.me", "protonmail.com", "gmx.com",
    "mail.com", "zoho.com", "yandex.com", "qq.com"]

/-- `isPublicEmailDomain`. -/
def isPublicEmailDomain (env : Env) (domain : String) : Bool :=
  env.toLowerCase domain ∈ publicEmailDomains

/-- `defaultOrgName`. -/
def defaultOrgName (displayName email : String) : String :=
  let first := (trimChars displayName.toList).takeWhile fun char ↦ !isWhitespace char
  let first := if first.isEmpty then email.toList.takeWhile (· ≠ '@') else first
  String.ofList first ++ "'s Workspace"

/-- The input of `signup`. -/
structure SignupInput where
  email : String
  password : String
  displayName : String
  organizationName : Option String := none

/-- The tenant resolution of `signup`: join the tenant of a verified auto-join domain as a member,
or provision a new tenant as its admin. Public and already claimed domains are not claimed. -/
def resolveSignupTenant (env : Env) (input : SignupInput) (email : String) :
    AuthCall (Uuid × Uuid × String) := do
  let domain := emailDomain email
  let autoJoin ← findAutoJoinTarget env domain
  match autoJoin with
  | some (tenantId, workspaceId) => pure (tenantId, workspaceId, "project_member")
  | none =>
    let requested := (input.organizationName.map env.trim).filter (· ≠ "")
    let orgName := requested.getD (defaultOrgName input.displayName email)
    let alreadyClaimed ←
      if isPublicEmailDomain env domain then pure false else isDomainClaimed env domain
    let claimDomain :=
      if isPublicEmailDomain env domain ∨ alreadyClaimed then none else some domain
    let (tenant, workspace) ← provisionTenant env orgName claimDomain
    pure (tenant.id, workspace.id, "workspace_admin")

/-- `signup`. -/
def signup (env : Env) (input : SignupInput) (ipAddress : Option String) :
    AuthCall LoginResult := do
  let email := env.trim (env.toLowerCase input.email)
  let existing ← findByEmail email
  Call.ensure existing.isNone
    (conflictException .emailAlreadyRegistered "An account with this email already exists")
  let (tenantId, workspaceId, roleSlug) ← resolveSignupTenant env input email
  let userId ← uuidv7
  let user ← statement (insertUser
    { id := userId, email := env.trim (env.toLowerCase email), displayName := input.displayName,
      passwordHash := some (env.hashPassword input.password), status := .active })
  enrollMember tenantId workspaceId user.id
  ensureDefaultRole user.id tenantId roleSlug
  let sessionId ← uuidv7
  let memberships ← getMemberships user.id
  let permissions ← getUserPermissions user.id tenantId
  let issued ← issueSession env user sessionId permissions tenantId .password
    (refreshTtlSeconds env.config.jwtRefreshExpiry) ipAddress none
  touchLastActive user.id tenantId
  pure { issued with user, memberships }

/-! ### Refresh, logout and password reset -/

/-- The rotation transaction of `refresh`: revoke the presented session and insert its successor.
Both writes commit together or not at all. -/
def rotateSession (presented successor : AuthSession) : AuthCall Unit :=
  transaction (fun db ↦ .rotate presented { successor with createdAt := db.now }) fun db ↦ do
    let authSessions ← insertSession { successor with createdAt := db.now }
      (revokeRow presented.id db.authSessions)
    pure ((), { db with authSessions })

/-- `refresh`. -/
def refresh (env : Env) (rawRefreshToken : RawToken) (ipAddress : Option String) :
    AuthCall LoginResult := do
  let found ← findByTokenHash (env.hashToken rawRefreshToken)
  let session ← Call.require found
    (unauthorizedException .authTokenInvalid "Refresh token not found")
  if session.isRevoked then
    revokeFamily session.familyId
    throw (unauthorizedException .authRefreshTokenReuse "Refresh token has been revoked")
  else
    let now ← currentTime
    Call.ensure (¬ session.expiresAt < now)
      (unauthorizedException .authTokenExpired "Refresh token has expired")
    let deactivated := unauthorizedException .userDeactivated "User not found or deactivated"
    let found ← findUserById session.userId
    let user ← Call.require found deactivated
    Call.ensure (¬ user.deactivated) deactivated
    let newSessionId ← uuidv7
    let authMethod := if session.ssoProvider.isSome then AuthMethod.sso else .password
    let permissions ← getUserPermissions user.id session.tenantId
    let (accessToken, expiresIn) ←
      signAccessToken env user newSessionId permissions session.tenantId authMethod
    let token ← generateRefreshToken env
    let expiresAt ← expiryAfter env (refreshTtlSeconds env.config.jwtRefreshExpiry)
    rotateSession session
      { id := newSessionId, tenantId := session.tenantId, userId := user.id,
        tokenHash := token.tokenHash, familyId := session.familyId, ipAddress, expiresAt,
        createdAt := expiresAt, ssoProvider := session.ssoProvider }
    pure { accessToken, refreshToken := token.refreshToken, expiresIn }

/-- Denylists an access token for the rest of its lifetime, if any is left. -/
def denylistPayload (payload : JwtPayload) : AuthCall Unit := do
  let now ← currentTime
  let ttl := (max (payload.exp - now / 1000) 0).toNat
  if 0 < ttl then denylistToken payload.jti ttl else pure ()

/-- `Promise.all` of two operations, in the order in which they complete. -/
def bothInOrder (firstFirst : Bool) (first second : AuthCall Unit) : AuthCall Unit :=
  if firstFirst then do
    first
    second
  else do
    second
    first

/-- `logout`. -/
def logout (payload : JwtPayload) (denylistFirst : Bool) : AuthCall Unit :=
  bothInOrder denylistFirst (denylistPayload payload) (revokeById payload.sessionId)

/-- `logoutAll`. -/
def logoutAll (payload : JwtPayload) (denylistFirst : Bool) : AuthCall Unit :=
  bothInOrder denylistFirst (denylistPayload payload) (revokeAllForUser payload.sub)

/-- The transaction of `resetPassword`: new password, token consumed, and every session the
snapshot of its last statement has seen revoked. -/
def commitReset (token : PasswordResetToken) (newHash : String) (snapshot : List Uuid) :
    AuthCall Unit :=
  Call.atomically (revokeLabel (.user token.userId) snapshot) fun db ↦
    let after := markPasswordResetTokenUsed token.id (updatePasswordHash token.userId newHash db)
    ((), { after with authSessions := revokeRows snapshot after.authSessions })

/-- `resetPassword`. -/
def resetPassword (env : Env) (rawToken : RawToken) (newPassword : String) : AuthCall Unit := do
  let invalid :=
    unauthorizedException .passwordResetTokenInvalid "Invalid or unknown reset token"
  let found ← findPasswordResetToken (env.hashToken rawToken)
  let record ← Call.require found invalid
  Call.ensure record.usedAt.isNone
    (unauthorizedException .passwordResetTokenInvalid "Reset token has already been used")
  let now ← currentTime
  Call.ensure (¬ record.expiresAt < now)
    (unauthorizedException .passwordResetTokenExpired "Reset token has expired")
  let found ← findUserById record.userId
  let _ ← Call.require found invalid
  let snapshot ← snapshotSessions (.user record.userId)
  commitReset record (env.hashPassword newPassword) snapshot

/-! ### SSO -/

/-- `isEmailDomainAllowed`: an empty list allows every domain. -/
def isEmailDomainAllowed (env : Env) (email : String) (allowedDomains : List String) : Bool :=
  allowedDomains.isEmpty ∨
    allowedDomains.any fun domain ↦
      env.trim (env.toLowerCase domain) = env.toLowerCase (emailDomain email)

/-- `upsertBySsoIdentity`: the linked user, an existing user with the e-mail address, linked now,
or a new user. -/
def upsertBySsoIdentity (env : Env) (provider providerSub providerEmail displayName : String)
    (tenantId : Uuid) : AuthCall User := do
  let existingIdentity ← findSsoIdentity provider providerSub
  match existingIdentity with
  | some identity =>
    if identity.providerEmail ≠ providerEmail then updateProviderEmail identity.id providerEmail
    else pure ()
    let found ← findUserById identity.userId
    Call.require found .typeError
  | none =>
    let emailNormalized := env.trim (env.toLowerCase providerEmail)
    let existingUser ← findByEmail emailNormalized
    match existingUser with
    | some user =>
      let id ← uuidv7
      insertSsoIdentity { id, tenantId, userId := user.id, provider, providerSub, providerEmail }
      pure user
    | none =>
      let userId ← uuidv7
      let user ← statement (insertUser
        { id := userId, email := emailNormalized, displayName, status := .active,
          emailVerified := true, passwordHash := none })
      let id ← uuidv7
      insertSsoIdentity { id, tenantId, userId, provider, providerSub, providerEmail }
      pure user

/-- The connection of `resolveAndProvisionSsoUser`: the tenant and the default role of the active
connection of the directory, if there is one, after the checks that guard it. -/
def resolveSsoConnection (env : Env) (email : String) (externalTenantId : Option String) :
    AuthCall (Option (Uuid × String)) :=
  match externalTenantId with
  | none => pure none
  | some externalTenantId => do
    let connection ← findByExternalTenantId "entra" externalTenantId
    match connection with
    | none => pure none
    | some connection =>
      Call.ensure (connection.status = .active) (unauthorizedException .ssoConnectionDisabled
        "SSO for your organization is disabled. Please contact your administrator.")
      Call.ensure (isEmailDomainAllowed env email connection.allowedEmailDomains)
        (unauthorizedException .ssoDomainNotAllowed
          "Your email domain is not permitted to sign in to this organization.")
      Call.ensure connection.jitEnabled (unauthorizedException .ssoJitDisabled
        "Automatic account creation is disabled. Please ask your administrator for an invitation.")
      pure (some (connection.tenantId, connection.defaultRoleSlug))

/-- `resolveAndProvisionSsoUser`. -/
def resolveAndProvisionSsoUser (env : Env) (oid email displayName : String)
    (externalTenantId : Option String) : AuthCall (User × Uuid) := do
  let connection ← resolveSsoConnection env email externalTenantId
  let fallback := if env.config.production then none else env.config.entraDefaultTenantId
  let tenantId ← Call.require ((connection.map Prod.fst).or fallback)
    (unauthorizedException .ssoNoAccess ("No Rally workspace is configured for your " ++
      "organization. Please ask your administrator for an invitation."))
  let user ← upsertBySsoIdentity env "entra" oid email displayName tenantId
  let keycardId ← uuidv7
  createTenantMember keycardId tenantId user.id
  match connection with
  | some (_, defaultRoleSlug) =>
    if defaultRoleSlug ≠ "" then ensureDefaultRole user.id tenantId defaultRoleSlug else pure ()
  | none => pure ()
  pure (user, tenantId)

/-- The user and the tenant of `ssoLogin`: the linked user and the tenant they were last active in,
or the user provisioned for a new identity. -/
def resolveSsoUser (env : Env) (oid email displayName : String)
    (externalTenantId : Option String) : AuthCall (User × Uuid) := do
  let existingIdentity ← findSsoIdentity "entra" oid
  match existingIdentity with
  | some identity =>
    let notActive := unauthorizedException .userDeactivated "Account is not active"
    let found ← findUserById identity.userId
    let user ← Call.require found notActive
    Call.ensure (¬ user.deactivated) notActive
    let memberships ← getMemberships user.id
    let active ← Call.require memberships.head?
      (unauthorizedException .accountDeactivated "No active tenant membership found")
    pure (user, active.tenantId)
  | none => resolveAndProvisionSsoUser env oid email displayName externalTenantId

/-- The bootstrap of `ssoLogin`: a user listed in `PLATFORM_ADMIN_EMAILS` who has no role yet becomes
a workspace admin. -/
def bootstrapPlatformAdmin (env : Env) (user : User) (tenantId : Uuid) : AuthCall Unit :=
  let platformAdminEmails := (env.config.platformAdminEmails.map env.trim).filter (· ≠ "")
  if env.toLowerCase user.email ∈ platformAdminEmails then
    ensureDefaultRole user.id tenantId "workspace_admin"
  else pure ()

/-- `ssoLogin`. -/
def ssoLogin (env : Env) (idToken : String) (ipAddress : Option String) :
    AuthCall LoginResult := do
  Call.ensure env.config.entraConfigured
    (unauthorizedException .ssoNotConfigured "SSO is not configured on this server")
  let claims ← Call.require (env.verifyIdToken idToken)
    (unauthorizedException .ssoTokenInvalid "Entra ID token is invalid or expired")
  let missing :=
    unauthorizedException .ssoClaimsMissing "Required OIDC claims (oid, email) are missing"
  let oid ← Call.require (claims.oid.filter (· ≠ "")) missing
  let emailClaim := (claims.email.or claims.preferredUsername).or claims.upn
  let email ← Call.require (emailClaim.filter (· ≠ "")) missing
  let displayName := claims.name.getD email
  let (user, tenantId) ← resolveSsoUser env oid (env.trim (env.toLowerCase email)) displayName
    (claims.tid.filter (· ≠ ""))
  bootstrapPlatformAdmin env user tenantId
  let sessionId ← uuidv7
  let permissions ← getUserPermissions user.id tenantId
  let issued ← issueSession env user sessionId permissions tenantId .sso
    (refreshTtlSeconds env.config.jwtRefreshExpiry) ipAddress (some "entra")
  let memberships ← getMemberships user.id
  touchLastActive user.id tenantId
  pure { issued with user, memberships }

/-! ### Switching tenants -/

/-- The transaction of `switchTenant`: revoke the old session and insert the new one. -/
def replaceSession (oldId : Uuid) (session : AuthSession) : AuthCall Unit :=
  transaction (fun db ↦ .openSession { session with createdAt := db.now }) fun db ↦ do
    let authSessions ← insertSession { session with createdAt := db.now }
      (revokeRow oldId db.authSessions)
    pure ((), { db with authSessions })

/-- `switchTenant`. -/
def switchTenant (env : Env) (payload : JwtPayload) (targetTenantId : Uuid)
    (ipAddress : Option String) (denylistFirst : Bool) : AuthCall LoginResult := do
  let denied :=
    unauthorizedException .tenantAccessDenied "You are not a member of this tenant"
  let keycard ← findByUserAndTenant payload.sub targetTenantId
  let keycard ← Call.require keycard denied
  Call.ensure (keycard.status = .active) denied
  let deactivated := unauthorizedException .userDeactivated "User not found or deactivated"
  let found ← findUserById payload.sub
  let user ← Call.require found deactivated
  Call.ensure (¬ user.deactivated) deactivated
  let permissions ← getUserPermissions user.id targetTenantId
  let newSessionId ← uuidv7
  let (accessToken, expiresIn) ←
    signAccessToken env user newSessionId permissions targetTenantId payload.authMethod
  let token ← generateRefreshToken env
  let expiresAt ← expiryAfter env (refreshTtlSeconds env.config.jwtRefreshExpiry)
  bothInOrder denylistFirst (denylistPayload payload)
    (replaceSession payload.sessionId
      { id := newSessionId, tenantId := targetTenantId, userId := user.id,
        tokenHash := token.tokenHash, familyId := token.familyId, ipAddress, expiresAt,
        createdAt := expiresAt })
  touchLastActive user.id targetTenantId
  pure { accessToken, refreshToken := token.refreshToken, expiresIn }

/-! ### Requests -/

/-- The calls clients make, and the passing of time. -/
inductive AuthRequest
  | login (email password : String) (ipAddress : Option String) (rememberMe : Bool)
  | signup (input : SignupInput) (ipAddress : Option String)
  | ssoLogin (idToken : String) (ipAddress : Option String)
  | refresh (rawRefreshToken : RawToken) (ipAddress : Option String)
  | switchTenant (payload : JwtPayload) (targetTenantId : Uuid) (ipAddress : Option String)
    (denylistFirst : Bool)
  | logout (payload : JwtPayload) (denylistFirst : Bool)
  | logoutAll (payload : JwtPayload) (denylistFirst : Bool)
  | resetPassword (rawToken : RawToken) (newPassword : String)
  | tick (milliseconds : ℕ)

/-- Time passes. -/
def tick (milliseconds : ℕ) : AuthCall Unit :=
  statement fun db ↦ .ok ((), { db with now := db.now + milliseconds })

/-- The call that serves a request; the tokens it returns, if any. -/
def AuthRequest.serve (env : Env) : AuthRequest → AuthCall (Option LoginResult)
  | .login email password ipAddress rememberMe =>
    some <$> Identity.login env email password ipAddress rememberMe
  | .signup input ipAddress => some <$> Identity.signup env input ipAddress
  | .ssoLogin idToken ipAddress => some <$> Identity.ssoLogin env idToken ipAddress
  | .refresh rawRefreshToken ipAddress => some <$> Identity.refresh env rawRefreshToken ipAddress
  | .switchTenant payload targetTenantId ipAddress denylistFirst =>
    some <$> Identity.switchTenant env payload targetTenantId ipAddress denylistFirst
  | .logout payload denylistFirst => (fun _ ↦ none) <$> Identity.logout payload denylistFirst
  | .logoutAll payload denylistFirst => (fun _ ↦ none) <$> Identity.logoutAll payload denylistFirst
  | .resetPassword rawToken newPassword =>
    (fun _ ↦ none) <$> Identity.resetPassword env rawToken newPassword
  | .tick milliseconds => (fun _ ↦ none) <$> Identity.tick milliseconds

end RallyApi.Identity

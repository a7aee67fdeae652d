import RallyApi.Access.AccessService
import RallyApi.Identity.Composition
import RallyApi.Identity.PasswordCustody
import RallyApi.Identity.PrimaryRole
import RallyApi.Identity.SsoLinks

/-!
# Where roles are granted

The requests that grant and revoke roles are those of `AccessController` and the authentication flows, which
give a default role to a user who joins. A request of the controller passes the guard first
(`PermissionGuard`), which looks at the token that the client presents.

All other statements of these flows are `Unprivileged`: they change no role and no SSO connection, remove no
user, no tenant and no link of an account, verify no domain, and leave no assignment that was not there.
-/

set_option autoImplicit false
set_option relaxedAutoImplicit false

namespace RallyApi.Access

open Concurrency Identity Platform Store

/-! ### Requests -/

/-- What the endpoints that assign and revoke roles require. -/
def manageMembers : String := "workspace:manage_members"

/-- What a client is told: what the service returned, with the tokens if there are any, or that the guard
has refused the request. -/
inductive Reply
  | answered (result : Option LoginResult)
  | forbidden (thrown : ForbiddenException)

/-- The requests of the authentication flows, and those of `AccessController` that change roles. -/
inductive GrantRequest
  | auth (request : AuthRequest)
  | assignRole (user : JwtPayload) (userId roleId : Uuid) (scopeType : ScopeType)
    (scopeId : Option Uuid)
  | revokeRole (user : JwtPayload) (id : Uuid)

/-- An endpoint that requires the permission to manage members. -/
def guarded {α : Type} (user : JwtPayload) (handler : AuthCall α) : AuthCall Reply :=
  match canActivate (some manageMembers) ⟨some user, none⟩ with
  | .ok _ => (fun _ ↦ .answered none) <$> handler
  | .error thrown => pure (.forbidden thrown)

/-- The call that serves a request. -/
def GrantRequest.serve (env : Env) : GrantRequest → AuthCall Reply
  | .auth request => .answered <$> request.serve env
  | .assignRole user userId roleId scopeType scopeId =>
    guarded user (Access.assignRole user userId roleId scopeType scopeId)
  | .revokeRole user id => guarded user (Access.revokeRole user id)

/-- The access token that a request presents. -/
def GrantRequest.token : GrantRequest → Option JwtPayload
  | .auth (.switchTenant payload _ _ _) | .auth (.logout payload _) | .auth (.logoutAll payload _) =>
    some payload
  | .auth _ => none
  | .assignRole user _ _ _ _ | .revokeRole user _ => some user

/-- The runs of these requests. -/
abbrev GrantRun := Concurrency.Config Db SessionStep Failure Reply

/-- The token that a call has returned. -/
def tokenOf (call : Call Db SessionStep Failure Reply) : Option JwtPayload :=
  match call.returned with
  | some (.answered (some issued)) => some issued.accessToken
  | _ => none

/-- The token that a request presents, if it does, has been returned by a call. Nobody else can sign one. -/
def PresentsIssued (config : GrantRun) (request : GrantRequest) : Prop :=
  ∀ token ∈ request.token, ∃ call ∈ config.calls, tokenOf call = some token

instance (config : GrantRun) (request : GrantRequest) : Decidable (PresentsIssued config request) :=
  inferInstanceAs (Decidable (∀ token ∈ request.token, ∃ call ∈ config.calls, tokenOf call = some token))

/-! ### Steps that grant nothing -/

/-- What a step leaves as it was of the things that grants rest on. Domains may be claimed, which verifies
none. -/
structure Standing (db after : Db) : Prop where
  roles : after.systemRoles = db.systemRoles
  connections : after.ssoConnections = db.ssoConnections
  domains : ∀ claim ∈ after.tenantDomains, claim.verified.isSome = true → claim ∈ db.tenantDomains
  tenants : db.tenants ⊆ after.tenants
  users : Lasts SameAccount db.users after.users
  links : KeepsLinks db after

/-- A step that grants no role. -/
structure Unprivileged (db : Db) (_ : SessionStep) (after : Db) : Prop extends Standing db after where
  assignments : after.userRoleAssignments ⊆ db.userRoleAssignments

variable {α : Type} {env : Env} {db middle after : Db} {label : SessionStep}

theorem standing_of_same (hroles : after.systemRoles = db.systemRoles)
    (hconnections : after.ssoConnections = db.ssoConnections)
    (hdomains : after.tenantDomains = db.tenantDomains) (htenants : after.tenants = db.tenants)
    (husers : after.users = db.users) (hlinks : after.ssoIdentities = db.ssoIdentities) :
    Standing db after where
  roles := hroles
  connections := hconnections
  domains _ hclaim _ := hdomains ▸ hclaim
  tenants := htenants ▸ List.Subset.refl _
  users := husers ▸ lasts_refl sameAccount_refl _
  links := keepsLinks_of_eq hlinks

theorem standing_refl (db : Db) : Standing db db := standing_of_same rfl rfl rfl rfl rfl rfl

theorem Standing.trans (hfirst : Standing db middle) (hsecond : Standing middle after) :
    Standing db after where
  roles := hsecond.roles.trans hfirst.roles
  connections := hsecond.connections.trans hfirst.connections
  domains claim hclaim hverified :=
    hfirst.domains claim (hsecond.domains claim hclaim hverified) hverified
  tenants := List.Subset.trans hfirst.tenants hsecond.tenants
  users := hfirst.users.trans (fun _ _ _ hbefore hafter ↦ hbefore.trans hafter) hsecond.users
  links := hfirst.links.trans hsecond.links

theorem unprivileged_of_same (hroles : after.systemRoles = db.systemRoles)
    (hconnections : after.ssoConnections = db.ssoConnections)
    (hdomains : after.tenantDomains = db.tenantDomains) (htenants : after.tenants = db.tenants)
    (husers : after.users = db.users) (hlinks : after.ssoIdentities = db.ssoIdentities)
    (hassignments : after.userRoleAssignments = db.userRoleAssignments) : Unprivileged db label after :=
  ⟨standing_of_same hroles hconnections hdomains htenants husers hlinks,
    hassignments ▸ List.Subset.refl _⟩

@[simp]
theorem unprivileged_refl (db : Db) (label : SessionStep) : Unprivileged db label db :=
  unprivileged_of_same rfl rfl rfl rfl rfl rfl rfl

/-- A step that adds users, or sets columns of theirs. -/
theorem unprivileged_of_users (hroles : after.systemRoles = db.systemRoles)
    (hconnections : after.ssoConnections = db.ssoConnections)
    (hdomains : after.tenantDomains = db.tenantDomains) (htenants : after.tenants = db.tenants)
    (husers : Lasts SameAccount db.users after.users) (hlinks : after.ssoIdentities = db.ssoIdentities)
    (hassignments : after.userRoleAssignments = db.userRoleAssignments) : Unprivileged db label after :=
  ⟨{ roles := hroles, connections := hconnections, domains := fun _ hclaim _ ↦ hdomains ▸ hclaim,
      tenants := htenants ▸ List.Subset.refl _, users := husers, links := keepsLinks_of_eq hlinks },
    hassignments ▸ List.Subset.refl _⟩

theorem unprivileged_statement {run : Db → Except Failure (α × Db)}
    (hrun : ∀ db value after, run db = .ok (value, after) → Unprivileged db .other after) :
    (statement run).Only Unprivileged :=
  Call.only_attempt _ _ (fun db _ _ ↦ unprivileged_refl db _) hrun

/-! ### Repository methods -/

@[simp]
theorem uuidv7_unprivileged : uuidv7.Only Unprivileged :=
  (Call.only_atomically _ _).mpr fun _ ↦ unprivileged_of_same rfl rfl rfl rfl rfl rfl rfl

@[simp]
theorem randomBytes_unprivileged : randomBytes.Only Unprivileged :=
  (Call.only_atomically _ _).mpr fun _ ↦ unprivileged_of_same rfl rfl rfl rfl rfl rfl rfl

/-- A new user. -/
@[simp]
theorem insertUser_unprivileged (row : User) : (statement (insertUser row)).Only Unprivileged := by
  refine unprivileged_statement fun db value after hrun ↦ ?_
  unfold insertUser at hrun
  split_ifs at hrun
  cases hrun
  exact unprivileged_of_users rfl rfl rfl rfl (lasts_append sameAccount_refl _) rfl rfl

/-- A new link of an account. -/
@[simp]
theorem insertSsoIdentity_unprivileged (identity : SsoIdentity) :
    (insertSsoIdentity identity).Only Unprivileged := by
  refine unprivileged_statement fun db value after hrun ↦ ?_
  split_ifs at hrun with hid haccount
  cases hrun
  refine ⟨{ standing_refl db with links := ⟨lasts_append sameLink_refl _, fun hdistinct ↦ ?_⟩ },
    List.Subset.refl _⟩
  refine nodup_map_append_singleton hdistinct fun htaken ↦ haccount ?_
  obtain ⟨old, hold, hsame⟩ := List.mem_map.mp htaken
  exact List.any_eq_true.mpr ⟨old, hold, decide_eq_true (Prod.mk.inj hsame)⟩

@[simp]
theorem updateProviderEmail_unprivileged (id : Uuid) (providerEmail : String) :
    (updateProviderEmail id providerEmail).Only Unprivileged := by
  refine unprivileged_statement fun db value after hrun ↦ ?_
  cases hrun
  exact ⟨{ standing_refl db with
    links := ⟨lasts_updateWhere sameLink_refl fun _ _ _ ↦ ⟨rfl, rfl, rfl⟩,
      fun hdistinct ↦ nodup_map_updateWhere (fun _ ↦ rfl) hdistinct⟩ }, List.Subset.refl _⟩

@[simp]
theorem createTenantMember_unprivileged (id tenantId userId : Uuid) :
    (createTenantMember id tenantId userId).Only Unprivileged := by
  refine unprivileged_statement fun db value after hrun ↦ ?_
  split_ifs at hrun <;> cases hrun <;> exact unprivileged_of_same rfl rfl rfl rfl rfl rfl rfl

@[simp]
theorem touchLastActive_unprivileged (userId tenantId : Uuid) :
    (touchLastActive userId tenantId).Only Unprivileged := by
  refine unprivileged_statement fun db value after hrun ↦ ?_
  cases hrun
  exact unprivileged_of_same rfl rfl rfl rfl rfl rfl rfl

@[simp]
theorem addWorkspaceMember_unprivileged (id tenantId workspaceId userId : Uuid)
    (roleId : Option Uuid) :
    (addWorkspaceMember id tenantId workspaceId userId roleId).Only Unprivileged := by
  refine unprivileged_statement fun db value after hrun ↦ ?_
  obtain ⟨members, _, hrest⟩ := bind_eq_ok.mp hrun
  cases hrest
  exact unprivileged_of_same rfl rfl rfl rfl rfl rfl rfl

@[simp]
theorem denylistToken_unprivileged (jti : Uuid) (ttlSeconds : ℕ) :
    (denylistToken jti ttlSeconds).Only Unprivileged := by
  refine unprivileged_statement fun db value after hrun ↦ ?_
  cases hrun
  exact unprivileged_of_same rfl rfl rfl rfl rfl rfl rfl

/-- A session is created, and the last login of its user is stamped. -/
@[simp]
theorem createSession_unprivileged (session : AuthSession) : (createSession session).Only Unprivileged := by
  refine Call.only_attempt _ _ (fun db _ _ ↦ unprivileged_refl db _) fun db value after hrun ↦ ?_
  obtain ⟨sessions, _, hrest⟩ := bind_eq_ok.mp hrun
  cases hrest
  exact unprivileged_of_users rfl rfl rfl rfl
    (lasts_updateWhere sameAccount_refl fun _ _ _ ↦ ⟨rfl, rfl⟩) rfl rfl

@[simp]
theorem rotateSession_unprivileged (presented successor : AuthSession) :
    (rotateSession presented successor).Only Unprivileged := by
  refine Call.only_attempt _ _ (fun db _ _ ↦ unprivileged_refl db _) fun db value after hrun ↦ ?_
  obtain ⟨sessions, _, hrest⟩ := bind_eq_ok.mp hrun
  cases hrest
  exact unprivileged_of_same rfl rfl rfl rfl rfl rfl rfl

@[simp]
theorem replaceSession_unprivileged (oldId : Uuid) (session : AuthSession) :
    (replaceSession oldId session).Only Unprivileged := by
  refine Call.only_attempt _ _ (fun db _ _ ↦ unprivileged_refl db _) fun db value after hrun ↦ ?_
  obtain ⟨sessions, _, hrest⟩ := bind_eq_ok.mp hrun
  cases hrest
  exact unprivileged_of_same rfl rfl rfl rfl rfl rfl rfl

@[simp]
theorem revokeById_unprivileged (id : Uuid) : (revokeById id).Only Unprivileged :=
  (Call.only_atomically _ _).mpr fun _ ↦ unprivileged_of_same rfl rfl rfl rfl rfl rfl rfl

@[simp]
theorem snapshotSessions_unprivileged (target : RevokeTarget) :
    (snapshotSessions target).Only Unprivileged :=
  (Call.only_query _ _).mpr fun db ↦ unprivileged_refl db _

@[simp]
theorem commitRevoke_unprivileged (target : RevokeTarget) (snapshot : List Uuid) :
    (commitRevoke target snapshot).Only Unprivileged :=
  (Call.only_atomically _ _).mpr fun _ ↦ unprivileged_of_same rfl rfl rfl rfl rfl rfl rfl

/-- The transaction of a password reset. -/
@[simp]
theorem commitReset_unprivileged (token : PasswordResetToken) (newHash : String) (snapshot : List Uuid) :
    (commitReset token newHash snapshot).Only Unprivileged :=
  (Call.only_atomically _ _).mpr fun _ ↦ unprivileged_of_users rfl rfl rfl rfl
    (lasts_updateWhere sameAccount_refl fun _ _ _ ↦ ⟨rfl, rfl⟩) rfl rfl

/-- An assignment is removed. -/
@[simp]
theorem deleteAssignment_unprivileged (id : Uuid) : (deleteAssignment id).Only Unprivileged := by
  refine unprivileged_statement fun db value after hrun ↦ ?_
  cases hrun
  exact ⟨standing_of_same rfl rfl rfl rfl rfl rfl, List.filter_subset_self _⟩

/-! ### The parts of the flows -/

theorem insertTenant_standing {tenant : Tenant} (hinsert : insertTenant tenant db = .ok after) :
    Standing db after ∧ after.userRoleAssignments = db.userRoleAssignments ∧
      tenant.id ∉ db.tenants.map Tenant.id := by
  unfold insertTenant at hinsert
  split_ifs at hinsert with hid hslug
  cases hinsert
  refine ⟨{ standing_refl db with
    tenants := List.subset_append_left _ _
    links := keepsLinks_of_eq rfl }, rfl, fun htaken ↦ hid ?_⟩
  obtain ⟨old, hold, hsame⟩ := List.mem_map.mp htaken
  exact List.any_eq_true.mpr ⟨old, hold, decide_eq_true hsame⟩

theorem insertWorkspace_standing {workspace : Workspace}
    (hinsert : insertWorkspace workspace db = .ok after) :
    Standing db after ∧ after.userRoleAssignments = db.userRoleAssignments := by
  unfold insertWorkspace at hinsert
  split_ifs at hinsert
  cases hinsert
  exact ⟨standing_of_same rfl rfl rfl rfl rfl rfl, rfl⟩

/-- A domain that is claimed is not verified yet. -/
theorem insertTenantDomain_standing {claim : TenantDomain} (hunverified : claim.verified = none)
    (hinsert : insertTenantDomain claim db = .ok after) :
    Standing db after ∧ after.userRoleAssignments = db.userRoleAssignments := by
  unfold insertTenantDomain at hinsert
  split_ifs at hinsert
  cases hinsert
  refine ⟨{ standing_refl db with
    domains := fun row hrow hverified ↦ ?_
    links := keepsLinks_of_eq rfl }, rfl⟩
  rcases List.mem_append.mp hrow with hold | hnew
  · exact hold
  · obtain rfl := List.mem_singleton.mp hnew
    rw [hunverified] at hverified
    cases hverified

/-- What `provisionTenant` commits: a tenant that was not there. -/
theorem provisionTenant_standing {tenant : Tenant} {workspace : Workspace} (claim : Option TenantDomain)
    (hunverified : ∀ row ∈ claim, row.verified = none) {value : Tenant × Workspace}
    (hrun : (do
      let withTenant ← insertTenant tenant db
      let withWorkspace ← insertWorkspace workspace withTenant
      match claim with
      | none => pure ((tenant, workspace), withWorkspace)
      | some row =>
        let withClaim ← insertTenantDomain row withWorkspace
        pure ((tenant, workspace), withClaim)) = (.ok (value, after) : Except Failure _)) :
    Unprivileged db label after ∧ value.1.id ∉ db.tenants.map Tenant.id := by
  obtain ⟨withTenant, htenant, hrun⟩ := bind_eq_ok.mp hrun
  obtain ⟨withWorkspace, hworkspace, hrun⟩ := bind_eq_ok.mp hrun
  obtain ⟨hfirst, hfirstSame, hnew⟩ := insertTenant_standing htenant
  obtain ⟨hsecond, hsecondSame⟩ := insertWorkspace_standing hworkspace
  cases claim with
  | none =>
    cases hrun
    exact ⟨⟨hfirst.trans hsecond, by rw [hsecondSame, hfirstSame]; exact List.Subset.refl _⟩, hnew⟩
  | some row =>
    obtain ⟨withClaim, hclaim, hrun⟩ := bind_eq_ok.mp hrun
    cases hrun
    obtain ⟨hthird, hthirdSame⟩ := insertTenantDomain_standing (hunverified row rfl) hclaim
    refine ⟨⟨(hfirst.trans hsecond).trans hthird, ?_⟩, hnew⟩
    rw [hthirdSame, hsecondSame, hfirstSame]
    exact List.Subset.refl _

@[simp]
theorem enrollMember_unprivileged (tenantId workspaceId userId : Uuid) :
    (enrollMember tenantId workspaceId userId).Only Unprivileged := by
  simp [enrollMember]

@[simp]
theorem getMemberships_unprivileged (userId : Uuid) : (getMemberships userId).Only Unprivileged := by
  simp [getMemberships, findByUserId]

@[simp]
theorem upsertBySsoIdentity_unprivileged (env : Env)
    (provider providerSub providerEmail displayName : String) (tenantId : Uuid) :
    (upsertBySsoIdentity env provider providerSub providerEmail displayName tenantId).Only Unprivileged :=
  upsertBySsoIdentity_only (unprivileged_refl · _) uuidv7_unprivileged insertUser_unprivileged
    insertSsoIdentity_unprivileged updateProviderEmail_unprivileged env _ _ _ _ _

@[simp]
theorem signAccessToken_unprivileged (env : Env) (user : User) (sessionId : Uuid)
    (permissions : List String) (tenantId : Uuid) (authMethod : AuthMethod) :
    (signAccessToken env user sessionId permissions tenantId authMethod).Only Unprivileged := by
  simp [signAccessToken, currentTime]

@[simp]
theorem generateRefreshToken_unprivileged (env : Env) : (generateRefreshToken env).Only Unprivileged := by
  simp [generateRefreshToken]

@[simp]
theorem expiryAfter_unprivileged (env : Identity.Env) (seconds : ℕ) :
    (expiryAfter env seconds).Only Unprivileged := by
  simp [expiryAfter, currentTime]

@[simp]
theorem issueSession_unprivileged (env : Env) (user : User) (sessionId : Uuid) (permissions : List String)
    (tenantId : Uuid) (authMethod : AuthMethod) (ttlSeconds : ℕ) (ipAddress ssoProvider : Option String) :
    (issueSession env user sessionId permissions tenantId authMethod ttlSeconds ipAddress
      ssoProvider).Only Unprivileged := by
  simp [issueSession]

@[simp]
theorem denylistPayload_unprivileged (payload : JwtPayload) :
    (denylistPayload payload).Only Unprivileged :=
  denylistPayload_only (unprivileged_refl · _) denylistToken_unprivileged payload

@[simp]
theorem bothInOrder_unprivileged {first second : AuthCall Unit} (hfirst : first.Only Unprivileged)
    (hsecond : second.Only Unprivileged) (firstFirst : Bool) :
    (bothInOrder firstFirst first second).Only Unprivileged := by
  cases firstFirst <;> simp [bothInOrder, hfirst, hsecond]

/-! ### Requests that grant nothing -/

@[simp]
theorem revokeRole_unprivileged (user : JwtPayload) (id : Uuid) :
    (Access.revokeRole user id).Only Unprivileged := by
  simp [Access.revokeRole, findAssignmentById]

theorem logout_unprivileged (payload : JwtPayload) (denylistFirst : Bool) :
    (logout payload denylistFirst).Only Unprivileged := by
  simp [logout]

theorem logoutAll_unprivileged (payload : JwtPayload) (denylistFirst : Bool) :
    (logoutAll payload denylistFirst).Only Unprivileged := by
  simp [logoutAll, revokeAllForUser]

theorem resetPassword_unprivileged (env : Env) (rawToken : RawToken) (newPassword : String) :
    (resetPassword env rawToken newPassword).Only Unprivileged := by
  simp [resetPassword, findPasswordResetToken, currentTime, findUserById]

theorem tick_unprivileged (milliseconds : ℕ) : (tick milliseconds).Only Unprivileged := by
  refine unprivileged_statement fun db value after hrun ↦ ?_
  cases hrun
  exact unprivileged_of_same rfl rfl rfl rfl rfl rfl rfl

end RallyApi.Access

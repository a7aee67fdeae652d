import RallyApi.Identity.Composition

/-!
# What the flows leave alone

`Leaves table` bounds a step that does not change a table. The lemmas `…_leaves` say of each repository
method, and of the parts of the flows, which tables it may change: it leaves every other one alone. A
frame fact about one table is then an instance of them.
-/

set_option autoImplicit false
set_option relaxedAutoImplicit false

namespace RallyApi.Identity

open Concurrency Platform Store

/-- The tables and other parts of the store that the flows work with. -/
inductive Table
  | clock
  | uuids
  | rawTokens
  | users
  | authSessions
  | ssoIdentities
  | passwordResetTokens
  | tenants
  | workspaces
  | tenantDomains
  | tenantMembers
  | workspaceMembers
  | systemRoles
  | userRoleAssignments
  | denylist
  deriving DecidableEq, Repr

/-- The table is the same in both stores. -/
def Table.Same (db after : Db) : Table → Prop
  | .clock => after.now = db.now
  | .uuids => after.nextUuid = db.nextUuid
  | .rawTokens => after.nextToken = db.nextToken
  | .users => after.users = db.users
  | .authSessions => after.authSessions = db.authSessions
  | .ssoIdentities => after.ssoIdentities = db.ssoIdentities
  | .passwordResetTokens => after.passwordResetTokens = db.passwordResetTokens
  | .tenants => after.tenants = db.tenants ∧ after.subscriptions = db.subscriptions
  | .workspaces => after.workspaces = db.workspaces
  | .tenantDomains => after.tenantDomains = db.tenantDomains
  | .tenantMembers => after.tenantMembers = db.tenantMembers
  | .workspaceMembers => after.workspaceMembers = db.workspaceMembers
  | .systemRoles => after.systemRoles = db.systemRoles
  | .userRoleAssignments => after.userRoleAssignments = db.userRoleAssignments
  | .denylist => after.denylist = db.denylist

/-- A step that does not change the table. -/
def Leaves (table : Table) (db : Db) (_ : SessionStep) (after : Db) : Prop := table.Same db after

variable {α : Type} {table : Table}

@[simp]
theorem same_refl (db : Db) : table.Same db db := by
  cases table <;> simp [Table.Same]

@[simp]
theorem leaves_refl (db : Db) (label : SessionStep) : Leaves table db label db := same_refl db

theorem Table.Same.trans {first second third : Db} (hfirst : table.Same first second)
    (hsecond : table.Same second third) : table.Same first third := by
  cases table <;> grind [Table.Same]

/-- Assumes: a statement, where it succeeds, does not change the table. -/
theorem statement_leaves {run : Db → Except Failure (α × Db)}
    (hframe : ∀ db value after, run db = .ok (value, after) → table.Same db after) :
    (statement run).Only (Leaves table) :=
  Call.only_attempt _ _ (fun db _ _ ↦ leaves_refl db _) hframe

/-- Assumes: a transaction, where it commits, does not change the table. -/
theorem transaction_leaves {label : Db → SessionStep} {run : Db → Except Failure (α × Db)}
    (hframe : ∀ db value after, run db = .ok (value, after) → table.Same db after) :
    (transaction label run).Only (Leaves table) :=
  Call.only_attempt _ _ (fun db _ _ ↦ leaves_refl db _) hframe

/-! ### Repository methods -/

@[simp]
theorem uuidv7_leaves (htable : table ≠ .uuids) : uuidv7.Only (Leaves table) := by
  cases table <;> simp_all [uuidv7_eq, Leaves, Table.Same]

@[simp]
theorem randomBytes_leaves (htable : table ≠ .rawTokens) : randomBytes.Only (Leaves table) := by
  cases table <;> simp_all [randomBytes, Leaves, Table.Same]

@[simp]
theorem insertUser_leaves (htable : table ≠ .users) (row : User) :
    (statement (insertUser row)).Only (Leaves table) := by
  refine statement_leaves fun db value after hrun ↦ ?_
  cases table <;> grind [insertUser, Table.Same]

@[simp]
theorem insertSsoIdentity_leaves (htable : table ≠ .ssoIdentities) (identity : SsoIdentity) :
    (insertSsoIdentity identity).Only (Leaves table) := by
  refine statement_leaves fun db value after hrun ↦ ?_
  cases table <;> grind [Table.Same]

@[simp]
theorem updateProviderEmail_leaves (htable : table ≠ .ssoIdentities) (id : Uuid)
    (providerEmail : String) : (updateProviderEmail id providerEmail).Only (Leaves table) := by
  refine statement_leaves fun db value after hrun ↦ ?_
  cases table <;> grind [Table.Same]

@[simp]
theorem createTenantMember_leaves (htable : table ≠ .tenantMembers) (id tenantId userId : Uuid) :
    (createTenantMember id tenantId userId).Only (Leaves table) := by
  refine statement_leaves fun db value after hrun ↦ ?_
  cases table <;> grind [Table.Same]

@[simp]
theorem touchLastActive_leaves (htable : table ≠ .tenantMembers) (userId tenantId : Uuid) :
    (touchLastActive userId tenantId).Only (Leaves table) := by
  refine statement_leaves fun db value after hrun ↦ ?_
  cases table <;> grind [Table.Same]

@[simp]
theorem addWorkspaceMember_leaves (htable : table ≠ .workspaceMembers)
    (id tenantId workspaceId userId : Uuid) (roleId : Option Uuid) :
    (addWorkspaceMember id tenantId workspaceId userId roleId).Only (Leaves table) := by
  refine statement_leaves fun db value after hrun ↦ ?_
  obtain ⟨workspaceMembers, _, hrest⟩ := bind_eq_ok.mp hrun
  cases hrest
  cases table <;> simp_all [Table.Same]

@[simp]
theorem createRoleAssignment_leaves (htable : table ≠ .userRoleAssignments)
    (assignment : UserRoleAssignment) :
    (createRoleAssignment assignment).Only (Leaves table) := by
  refine statement_leaves fun db value after hrun ↦ ?_
  cases table <;> grind [Table.Same]

@[simp]
theorem denylistToken_leaves (htable : table ≠ .denylist) (jti : Uuid) (ttlSeconds : ℕ) :
    (denylistToken jti ttlSeconds).Only (Leaves table) := by
  refine statement_leaves fun db value after hrun ↦ ?_
  cases table <;> grind [Table.Same]

@[simp]
theorem tick_leaves (htable : table ≠ .clock) (milliseconds : ℕ) :
    (tick milliseconds).Only (Leaves table) := by
  refine statement_leaves fun db value after hrun ↦ ?_
  cases table <;> grind [Table.Same]

@[simp]
theorem createSession_leaves (hsessions : table ≠ .authSessions) (husers : table ≠ .users)
    (session : AuthSession) : (createSession session).Only (Leaves table) := by
  refine transaction_leaves fun db value after hrun ↦ ?_
  obtain ⟨sessions, _, hrest⟩ := bind_eq_ok.mp hrun
  cases hrest
  cases table <;> simp_all [Table.Same, updateLastLogin]

@[simp]
theorem rotateSession_leaves (htable : table ≠ .authSessions) (presented successor : AuthSession) :
    (rotateSession presented successor).Only (Leaves table) := by
  refine transaction_leaves fun db value after hrun ↦ ?_
  obtain ⟨sessions, _, hrest⟩ := bind_eq_ok.mp hrun
  cases hrest
  cases table <;> simp_all [Table.Same]

@[simp]
theorem replaceSession_leaves (htable : table ≠ .authSessions) (oldId : Uuid)
    (session : AuthSession) : (replaceSession oldId session).Only (Leaves table) := by
  refine transaction_leaves fun db value after hrun ↦ ?_
  obtain ⟨sessions, _, hrest⟩ := bind_eq_ok.mp hrun
  cases hrest
  cases table <;> simp_all [Table.Same]

@[simp]
theorem revokeById_leaves (htable : table ≠ .authSessions) (id : Uuid) :
    (revokeById id).Only (Leaves table) := by
  cases table <;> simp_all [revokeById, Leaves, Table.Same]

@[simp]
theorem commitRevoke_leaves (htable : table ≠ .authSessions) (target : RevokeTarget)
    (snapshot : List Uuid) : (commitRevoke target snapshot).Only (Leaves table) := by
  cases table <;> simp_all [commitRevoke, Leaves, Table.Same]

@[simp]
theorem revokeFamily_leaves (htable : table ≠ .authSessions) (familyId : Uuid) :
    (revokeFamily familyId).Only (Leaves table) := by
  simp [revokeFamily, snapshotSessions, htable]

@[simp]
theorem revokeAllForUser_leaves (htable : table ≠ .authSessions) (userId : Uuid) :
    (revokeAllForUser userId).Only (Leaves table) := by
  simp [revokeAllForUser, snapshotSessions, htable]

/-! ### Parts of the flows -/

@[simp]
theorem provisionTenant_leaves (huuids : table ≠ .uuids) (htokens : table ≠ .rawTokens)
    (htenants : table ≠ .tenants) (hworkspaces : table ≠ .workspaces)
    (hdomains : table ≠ .tenantDomains) (env : Env) (orgName : String)
    (primaryDomain : Option String) :
    (provisionTenant env orgName primaryDomain).Only (Leaves table) := by
  simp only [provisionTenant, Call.only_bind, uuidv7_leaves huuids, randomBytes_leaves htokens,
    true_and]
  intro tenantId _ suffix _ workspaceId _ claimId _
  refine statement_leaves fun db value after hrun ↦ ?_
  obtain ⟨withTenant, htenant, hrun⟩ := bind_eq_ok.mp hrun
  obtain ⟨withWorkspace, hworkspace, hrun⟩ := bind_eq_ok.mp hrun
  have hsame : table.Same db withWorkspace := by
    cases table <;> grind [insertTenant, insertWorkspace, Table.Same]
  cases primaryDomain with
  | none =>
    cases hrun
    exact hsame
  | some domain =>
    obtain ⟨withClaim, hclaim, hrun⟩ := bind_eq_ok.mp hrun
    cases hrun
    refine hsame.trans ?_
    cases table <;> grind [insertTenantDomain, Table.Same]

@[simp]
theorem resolveSignupTenant_leaves (huuids : table ≠ .uuids) (htokens : table ≠ .rawTokens)
    (htenants : table ≠ .tenants) (hworkspaces : table ≠ .workspaces)
    (hdomains : table ≠ .tenantDomains) (env : Env) (input : SignupInput) (email : String) :
    (resolveSignupTenant env input email).Only (Leaves table) :=
  resolveSignupTenant_only (leaves_refl · _) env input email
    (provisionTenant_leaves huuids htokens htenants hworkspaces hdomains env)

@[simp]
theorem enrollMember_leaves (huuids : table ≠ .uuids) (hkeycards : table ≠ .tenantMembers)
    (hmembers : table ≠ .workspaceMembers) (tenantId workspaceId userId : Uuid) :
    (enrollMember tenantId workspaceId userId).Only (Leaves table) := by
  simp [enrollMember, *]

@[simp]
theorem ensureDefaultRole_leaves (huuids : table ≠ .uuids)
    (hassignments : table ≠ .userRoleAssignments) (userId tenantId : Uuid)
    (defaultRoleSlug : String) :
    (ensureDefaultRole userId tenantId defaultRoleSlug).Only (Leaves table) :=
  ensureDefaultRole_only (leaves_refl · _) (uuidv7_leaves huuids)
    (createRoleAssignment_leaves hassignments) _ _ _

@[simp]
theorem getUserPermissions_leaves (userId tenantId : Uuid) :
    (getUserPermissions userId tenantId).Only (Leaves table) :=
  getUserPermissions_only (leaves_refl · _) userId tenantId

@[simp]
theorem getMemberships_leaves (userId : Uuid) : (getMemberships userId).Only (Leaves table) := by
  simp [getMemberships, findByUserId]

@[simp]
theorem upsertBySsoIdentity_leaves (huuids : table ≠ .uuids) (husers : table ≠ .users)
    (hidentities : table ≠ .ssoIdentities) (env : Env)
    (provider providerSub providerEmail displayName : String) (tenantId : Uuid) :
    (upsertBySsoIdentity env provider providerSub providerEmail displayName tenantId).Only
      (Leaves table) :=
  upsertBySsoIdentity_only (leaves_refl · _) (uuidv7_leaves huuids) (insertUser_leaves husers)
    (insertSsoIdentity_leaves hidentities) (updateProviderEmail_leaves hidentities) env _ _ _ _ _

@[simp]
theorem resolveSsoConnection_leaves (env : Env) (email : String)
    (externalTenantId : Option String) :
    (resolveSsoConnection env email externalTenantId).Only (Leaves table) :=
  resolveSsoConnection_only (leaves_refl · _) env email externalTenantId

@[simp]
theorem bootstrapPlatformAdmin_leaves (huuids : table ≠ .uuids)
    (hassignments : table ≠ .userRoleAssignments) (env : Env) (row : User) (tenantId : Uuid) :
    (bootstrapPlatformAdmin env row tenantId).Only (Leaves table) := by
  unfold bootstrapPlatformAdmin
  dsimp only
  split_ifs <;> simp [*]

@[simp]
theorem signAccessToken_leaves (huuids : table ≠ .uuids) (env : Env) (row : User)
    (sessionId : Uuid) (permissions : List String) (tenantId : Uuid) (authMethod : AuthMethod) :
    (signAccessToken env row sessionId permissions tenantId authMethod).Only (Leaves table) := by
  simp [signAccessToken, currentTime, huuids]

@[simp]
theorem generateRefreshToken_leaves (huuids : table ≠ .uuids) (htokens : table ≠ .rawTokens)
    (env : Env) : (generateRefreshToken env).Only (Leaves table) := by
  simp [generateRefreshToken, *]

@[simp]
theorem expiryAfter_leaves (env : Env) (seconds : ℕ) : (expiryAfter env seconds).Only (Leaves table) := by
  simp [expiryAfter, currentTime]

@[simp]
theorem issueSession_leaves (huuids : table ≠ .uuids) (htokens : table ≠ .rawTokens)
    (hsessions : table ≠ .authSessions) (husers : table ≠ .users) (env : Env) (row : User)
    (sessionId : Uuid) (permissions : List String) (tenantId : Uuid) (authMethod : AuthMethod)
    (ttlSeconds : ℕ) (ipAddress ssoProvider : Option String) :
    (issueSession env row sessionId permissions tenantId authMethod ttlSeconds ipAddress
      ssoProvider).Only (Leaves table) := by
  simp [issueSession, *]

@[simp]
theorem denylistPayload_leaves (htable : table ≠ .denylist) (payload : JwtPayload) :
    (denylistPayload payload).Only (Leaves table) :=
  denylistPayload_only (leaves_refl · _) (denylistToken_leaves htable) payload

/-! ### Flows -/

/-- `Promise.all` of two operations that leave the table alone. -/
@[simp]
theorem bothInOrder_leaves {first second : AuthCall Unit} (hfirst : first.Only (Leaves table))
    (hsecond : second.Only (Leaves table)) (firstFirst : Bool) :
    (bothInOrder firstFirst first second).Only (Leaves table) := by
  cases firstFirst with
  | true => exact Call.only_bind.mpr ⟨hfirst, fun _ _ ↦ hsecond⟩
  | false => exact Call.only_bind.mpr ⟨hsecond, fun _ _ ↦ hfirst⟩

@[simp]
theorem refresh_leaves (huuids : table ≠ .uuids) (htokens : table ≠ .rawTokens)
    (hsessions : table ≠ .authSessions) (env : Env) (rawRefreshToken : RawToken)
    (ipAddress : Option String) : (refresh env rawRefreshToken ipAddress).Only (Leaves table) := by
  simp only [refresh, Call.only_bind]
  refine ⟨by simp [findByTokenHash], fun found _ ↦ ⟨Call.only_require _ _, fun session _ ↦ ?_⟩⟩
  split_ifs <;> simp [currentTime, findUserById, *]

@[simp]
theorem resolveSsoUser_leaves (huuids : table ≠ .uuids) (husers : table ≠ .users)
    (hidentities : table ≠ .ssoIdentities) (hkeycards : table ≠ .tenantMembers)
    (hassignments : table ≠ .userRoleAssignments) (env : Env) (oid email displayName : String)
    (externalTenantId : Option String) :
    (resolveSsoUser env oid email displayName externalTenantId).Only (Leaves table) :=
  resolveSsoUser_only (leaves_refl · _) (uuidv7_leaves huuids) env oid email displayName externalTenantId
    (upsertBySsoIdentity_leaves huuids husers hidentities env _ _ _ _)
    (createTenantMember_leaves hkeycards) (ensureDefaultRole_leaves huuids hassignments)

end RallyApi.Identity

import RallyApi.Identity.Composition

/-!
# The quiet parts of the authentication flows

Most steps of the flows leave `auth_sessions` alone: they read, draw an identifier, or write other
tables. The lemmas `…_quiet` say so of the repository methods and of the parts of the flows that
consist of such steps only, so that the results about the sessions look at nothing but the steps
that write them.
-/

set_option autoImplicit false
set_option relaxedAutoImplicit false

namespace RallyApi.Identity

open Concurrency Platform Store

/-- A quiet step has one of two labels. -/
theorem Quiet.ne_label {db after : Db} {label step : SessionStep} (hquiet : Quiet db label after)
    (hother : step ≠ .other) (hdraw : ∀ id, step ≠ .drawUuid id) : step ≠ label := by
  rcases hquiet.2 with ⟨rfl, _⟩ | ⟨rfl, _⟩
  · exact hother
  · exact hdraw _

/-! ### Repository methods -/

@[simp]
theorem uuidv7_quiet : uuidv7.Only Quiet := by
  simp [uuidv7_eq, Quiet]

@[simp]
theorem randomBytes_quiet : randomBytes.Only Quiet := by
  simp [randomBytes, Quiet]

/-- The sessions and the source of identifiers are the same in both stores. -/
def SameSessions (db after : Db) : Prop :=
  after.authSessions = db.authSessions ∧ after.nextUuid = db.nextUuid

theorem SameSessions.trans {first second third : Db} (hfirst : SameSessions first second)
    (hsecond : SameSessions second third) : SameSessions first third :=
  ⟨hsecond.1.trans hfirst.1, hsecond.2.trans hfirst.2⟩

/-- Assumes: a statement, where it succeeds, leaves the sessions and the source of identifiers
alone. It is quiet. -/
theorem statement_quiet {α : Type} {run : Db → Except Failure (α × Db)}
    (hframe : ∀ db value after, run db = .ok (value, after) → SameSessions db after) :
    (statement run).Only Quiet := by
  refine Call.only_attempt _ _ (fun db _ _ ↦ quiet_refl db) fun db value after hrun ↦ ?_
  obtain ⟨hsessions, hnext⟩ := hframe db value after hrun
  exact ⟨hsessions, .inl ⟨rfl, hnext⟩⟩

@[simp]
theorem insertUser_quiet (user : User) : (statement (insertUser user)).Only Quiet := by
  refine statement_quiet fun db value after hrun ↦ ?_
  grind [insertUser, SameSessions]

@[simp]
theorem insertSsoIdentity_quiet (identity : SsoIdentity) :
    (insertSsoIdentity identity).Only Quiet := by
  refine statement_quiet fun db value after hrun ↦ ?_
  grind [SameSessions]

@[simp]
theorem updateProviderEmail_quiet (id : Uuid) (providerEmail : String) :
    (updateProviderEmail id providerEmail).Only Quiet := by
  refine statement_quiet fun db value after hrun ↦ ?_
  grind [SameSessions]

@[simp]
theorem createTenantMember_quiet (id tenantId userId : Uuid) :
    (createTenantMember id tenantId userId).Only Quiet := by
  refine statement_quiet fun db value after hrun ↦ ?_
  grind [SameSessions]

@[simp]
theorem touchLastActive_quiet (userId tenantId : Uuid) :
    (touchLastActive userId tenantId).Only Quiet := by
  refine statement_quiet fun db value after hrun ↦ ?_
  grind [SameSessions]

@[simp]
theorem addWorkspaceMember_quiet (id tenantId workspaceId userId : Uuid)
    (roleId : Option Uuid) :
    (addWorkspaceMember id tenantId workspaceId userId roleId).Only Quiet := by
  refine statement_quiet fun db value after hrun ↦ ?_
  obtain ⟨workspaceMembers, _, hrest⟩ := bind_eq_ok.mp hrun
  cases hrest
  exact ⟨rfl, rfl⟩

@[simp]
theorem createRoleAssignment_quiet (assignment : UserRoleAssignment) :
    (createRoleAssignment assignment).Only Quiet := by
  refine statement_quiet fun db value after hrun ↦ ?_
  grind [SameSessions]

@[simp]
theorem denylistToken_quiet (jti : Uuid) (ttlSeconds : ℕ) :
    (denylistToken jti ttlSeconds).Only Quiet := by
  refine statement_quiet fun db value after hrun ↦ ?_
  grind [SameSessions]

@[simp]
theorem tick_quiet (milliseconds : ℕ) : (tick milliseconds).Only Quiet := by
  refine statement_quiet fun db value after hrun ↦ ?_
  grind [SameSessions]

/-! ### Tenancy and access -/

theorem insertTenant_same {tenant : Tenant} {db after : Db}
    (hinsert : insertTenant tenant db = .ok after) : SameSessions db after := by
  grind [insertTenant, SameSessions]

theorem insertWorkspace_same {workspace : Workspace} {db after : Db}
    (hinsert : insertWorkspace workspace db = .ok after) : SameSessions db after := by
  grind [insertWorkspace, SameSessions]

theorem insertTenantDomain_same {claim : TenantDomain} {db after : Db}
    (hinsert : insertTenantDomain claim db = .ok after) : SameSessions db after := by
  grind [insertTenantDomain, SameSessions]

@[simp]
theorem provisionTenant_quiet (env : Env) (orgName : String) (primaryDomain : Option String) :
    (provisionTenant env orgName primaryDomain).Only Quiet := by
  simp only [provisionTenant, Call.only_bind, uuidv7_quiet, randomBytes_quiet, true_and]
  intro tenantId _ suffix _ workspaceId _ claimId _
  refine statement_quiet fun db value after hrun ↦ ?_
  obtain ⟨withTenant, htenant, hrun⟩ := bind_eq_ok.mp hrun
  obtain ⟨withWorkspace, hworkspace, hrun⟩ := bind_eq_ok.mp hrun
  have hsame := (insertTenant_same htenant).trans (insertWorkspace_same hworkspace)
  cases primaryDomain with
  | none =>
    cases hrun
    exact hsame
  | some domain =>
    obtain ⟨withClaim, hclaim, hrun⟩ := bind_eq_ok.mp hrun
    cases hrun
    exact hsame.trans (insertTenantDomain_same hclaim)

@[simp]
theorem enrollMember_quiet (tenantId workspaceId userId : Uuid) :
    (enrollMember tenantId workspaceId userId).Only Quiet := by
  simp [enrollMember]

@[simp]
theorem ensureDefaultRole_quiet (userId tenantId : Uuid) (defaultRoleSlug : String) :
    (ensureDefaultRole userId tenantId defaultRoleSlug).Only Quiet :=
  ensureDefaultRole_only quiet_refl uuidv7_quiet createRoleAssignment_quiet _ _ _

@[simp]
theorem getUserPermissions_quiet (userId tenantId : Uuid) :
    (getUserPermissions userId tenantId).Only Quiet :=
  getUserPermissions_only quiet_refl userId tenantId

@[simp]
theorem resolveSignupTenant_quiet (env : Env) (input : SignupInput) (email : String) :
    (resolveSignupTenant env input email).Only Quiet :=
  resolveSignupTenant_only quiet_refl env input email (provisionTenant_quiet env)

@[simp]
theorem upsertBySsoIdentity_quiet (env : Env)
    (provider providerSub providerEmail displayName : String) (tenantId : Uuid) :
    (upsertBySsoIdentity env provider providerSub providerEmail displayName tenantId).Only
      Quiet :=
  upsertBySsoIdentity_only quiet_refl uuidv7_quiet insertUser_quiet insertSsoIdentity_quiet
    updateProviderEmail_quiet env _ _ _ _ _

@[simp]
theorem resolveSsoConnection_quiet (env : Env) (email : String)
    (externalTenantId : Option String) :
    (resolveSsoConnection env email externalTenantId).Only Quiet :=
  resolveSsoConnection_only quiet_refl env email externalTenantId

@[simp]
theorem resolveSsoUser_quiet (env : Env) (oid email displayName : String)
    (externalTenantId : Option String) :
    (resolveSsoUser env oid email displayName externalTenantId).Only Quiet :=
  resolveSsoUser_only quiet_refl uuidv7_quiet env oid email displayName externalTenantId
    (upsertBySsoIdentity_quiet env _ _ _ _) createTenantMember_quiet ensureDefaultRole_quiet

@[simp]
theorem bootstrapPlatformAdmin_quiet (env : Env) (user : User) (tenantId : Uuid) :
    (bootstrapPlatformAdmin env user tenantId).Only Quiet := by
  unfold bootstrapPlatformAdmin
  dsimp only
  split_ifs <;> simp

/-! ### Tokens -/

@[simp]
theorem signAccessToken_quiet (env : Env) (user : User) (sessionId : Uuid)
    (permissions : List String) (tenantId : Uuid) (authMethod : AuthMethod) :
    (signAccessToken env user sessionId permissions tenantId authMethod).Only Quiet := by
  simp [signAccessToken, currentTime]

@[simp]
theorem generateRefreshToken_quiet (env : Env) : (generateRefreshToken env).Only Quiet := by
  simp [generateRefreshToken]

@[simp]
theorem expiryAfter_quiet (env : Env) (seconds : ℕ) : (expiryAfter env seconds).Only Quiet := by
  simp [expiryAfter, currentTime]

@[simp]
theorem denylistPayload_quiet (payload : JwtPayload) : (denylistPayload payload).Only Quiet :=
  denylistPayload_only quiet_refl denylistToken_quiet payload

end RallyApi.Identity

import RallyApi.Identity.AuthService

/-!
# What the parts of the flows are made of

A part of a flow reads, draws identifiers and runs a few statements. The lemmas `…_only` reduce a bound on
its steps to the same bound on those statements, for any relation that holds of a read. The facts about
what the flows leave alone, and about the sessions, are instances of them.
-/

set_option autoImplicit false
set_option relaxedAutoImplicit false

namespace RallyApi.Identity

open Concurrency Platform Store

variable {relation : Db → SessionStep → Db → Prop} (hread : ∀ db, relation db .other db)
include hread

/-! ### Tenancy and access -/

theorem findAutoJoinTarget_only (env : Env) (domain : String) :
    (findAutoJoinTarget env domain).Only relation := by
  simp only [findAutoJoinTarget, Call.only_bind, findByDomain, Call.only_query]
  refine ⟨hread, fun claim _ ↦ ?_⟩
  split
  · exact trivial
  · split_ifs <;> simp [firstWorkspace, hread]

/-- Assumes: the relation bounds the creation of a tenant. -/
theorem resolveSignupTenant_only (env : Env) (input : SignupInput) (email : String)
    (hprovision : ∀ orgName primaryDomain, (provisionTenant env orgName primaryDomain).Only relation) :
    (resolveSignupTenant env input email).Only relation := by
  simp only [resolveSignupTenant, Call.only_bind]
  refine ⟨findAutoJoinTarget_only hread env _, fun autoJoin _ ↦ ?_⟩
  split
  · exact trivial
  · split_ifs <;> simp [isDomainClaimed, findByDomain, hread, hprovision]

/-- Assumes: the relation bounds a draw and the insertion of an assignment. -/
theorem ensureDefaultRole_only (huuid : uuidv7.Only relation)
    (hassign : ∀ assignment, (createRoleAssignment assignment).Only relation)
    (userId tenantId : Uuid) (defaultRoleSlug : String) :
    (ensureDefaultRole userId tenantId defaultRoleSlug).Only relation := by
  simp only [ensureDefaultRole, Call.only_bind, listForUser, Call.only_query]
  refine ⟨hread, fun existing _ ↦ ?_⟩
  split_ifs
  · exact trivial
  · simp only [Call.only_bind, listRolesForTenant, Call.only_query]
    refine ⟨hread, fun roles _ ↦ ?_⟩
    split <;> simp [huuid, hassign]

theorem getUserPermissions_only (userId tenantId : Uuid) :
    (getUserPermissions userId tenantId).Only relation := by
  simp only [getUserPermissions, Call.only_bind, listForUser, Call.only_query]
  refine ⟨hread, fun assignments _ ↦ ?_⟩
  split <;> simp [findRoleById, hread]

/-! ### Single sign-on -/

/-- Assumes: the relation bounds a draw and the statements that write users and identities. -/
theorem upsertBySsoIdentity_only (huuid : uuidv7.Only relation)
    (huser : ∀ user, (statement (insertUser user)).Only relation)
    (hidentity : ∀ identity, (insertSsoIdentity identity).Only relation)
    (hemail : ∀ id email, (updateProviderEmail id email).Only relation) (env : Env)
    (provider providerSub providerEmail displayName : String) (tenantId : Uuid) :
    (upsertBySsoIdentity env provider providerSub providerEmail displayName tenantId).Only
      relation := by
  simp only [upsertBySsoIdentity, Call.only_bind, findSsoIdentity, Call.only_query]
  refine ⟨hread, fun existingIdentity _ ↦ ?_⟩
  split
  · split_ifs <;> simp [findUserById, hread, hemail]
  · simp only [Call.only_bind, findByEmail, Call.only_query]
    refine ⟨hread, fun existingUser _ ↦ ?_⟩
    split <;> simp [huuid, huser, hidentity]

theorem resolveSsoConnection_only (env : Env) (email : String) (externalTenantId : Option String) :
    (resolveSsoConnection env email externalTenantId).Only relation := by
  unfold resolveSsoConnection
  split
  · exact trivial
  · simp only [Call.only_bind, findByExternalTenantId, Call.only_query]
    refine ⟨hread, fun connection _ ↦ ?_⟩
    split <;> simp

/-- Assumes: the relation bounds a draw, the upsert of the user, and the insertions of a keycard and of an
assignment. -/
theorem resolveSsoUser_only (huuid : uuidv7.Only relation) (env : Env)
    (oid email displayName : String) (externalTenantId : Option String)
    (hupsert : ∀ tenantId,
      (upsertBySsoIdentity env "entra" oid email displayName tenantId).Only relation)
    (hkeycard : ∀ id tenantId userId, (createTenantMember id tenantId userId).Only relation)
    (hrole : ∀ userId tenantId slug, (ensureDefaultRole userId tenantId slug).Only relation) :
    (resolveSsoUser env oid email displayName externalTenantId).Only relation := by
  simp only [resolveSsoUser, Call.only_bind, findSsoIdentity, Call.only_query]
  refine ⟨hread, fun existingIdentity _ ↦ ?_⟩
  split
  · simp [findUserById, getMemberships, findByUserId, hread]
  · simp only [resolveAndProvisionSsoUser, Call.only_bind]
    refine ⟨resolveSsoConnection_only hread env _ _, fun connection _ ↦ ?_⟩
    refine ⟨Call.only_require _ _, fun tenantId _ ↦ ⟨hupsert _, fun user _ ↦ ?_⟩⟩
    refine ⟨huuid, fun keycardId _ ↦ ⟨hkeycard _ _ _, fun _ _ ↦ ?_⟩⟩
    cases connection with
    | none => trivial
    | some connection =>
      dsimp only
      split_ifs <;> simp [hrole]

/-! ### Tokens -/

/-- Assumes: the relation bounds the entry in the denylist. -/
theorem denylistPayload_only (hdenylist : ∀ jti seconds, (denylistToken jti seconds).Only relation)
    (payload : JwtPayload) : (denylistPayload payload).Only relation := by
  simp only [denylistPayload, Call.only_bind, currentTime, Call.only_query]
  refine ⟨hread, fun now _ ↦ ?_⟩
  split_ifs <;> simp [hdenylist]

end RallyApi.Identity

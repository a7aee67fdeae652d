import RallyApi.Access.Grants
import RallyApi.Concurrency.Admission
import RallyApi.Concurrency.Returns

/-!
# Chains of grants

The flows and the requests of the controller keep the protocol of `Access/Grants`. A request of the
controller does so because it presents a token whose permissions are held, which a call has returned before.

`reachable_grants`: in every run whose requests present tokens that calls have returned, every assignment of
the store has come to be as `GrantOf` says, so its chain of grantors leads to assignments of the start or to
users who have joined. `issued_held`: the permissions of every token that a call returns are those of the
role of such an assignment, of the user in the tenant, or the defaults. A token is presented long after its
permissions were read, an assignment may be revoked in the meantime, and others join and are given roles
between any two steps.
-/

set_option autoImplicit false
set_option relaxedAutoImplicit false

namespace RallyApi.Access

open Concurrency Protocol Identity Platform Store

variable {α : Type} {env : Env} {initial : Db} {requests : List GrantRequest} {number : ℕ}
  {userId tenantId : Uuid}

/-! ### Flows -/

/-- What a flow has established when it returns. -/
def Promises (env : Env) (initial : Db) (requests : List GrantRequest) (issued : LoginResult)
    (world : World Db SessionStep) : Prop :=
  HeldBy env initial requests issued.accessToken world.db

/-- A call that grants nothing, of which nothing is to be known. -/
theorem meets_idle {call : AuthCall α} (hcall : call.Only Unprivileged) :
    (granting env initial requests).Meets number call (fun _ ↦ True) fun _ _ ↦ True :=
  meets_plain hcall (persistent_const True)

theorem login_granting {email password : String} {ipAddress : Option String} {rememberMe : Bool} :
    (granting env initial requests).Meets number (login env email password ipAddress rememberMe)
      (fun _ ↦ True) (Promises env initial requests) := by
  refine (meets_idle (by simp [findByEmail])).bind fun found _ ↦ meets_require.bind fun user _ ↦ ?_
  refine meets_require.bind fun hash _ ↦ meets_ensure.bind fun _ _ ↦ ?_
  refine meets_ensure.bind fun _ _ ↦ meets_ensure.bind fun _ _ ↦ Meets.strengthen ?_ fun _ _ _ ↦ trivial
  refine (meets_idle uuidv7_unprivileged).bind fun sessionId _ ↦ ?_
  refine (meets_idle (getMemberships_unprivileged _)).bind fun memberships _ ↦ ?_
  refine meets_require.bind fun active _ ↦ Meets.strengthen ?_ fun _ _ _ ↦ trivial
  refine meets_getUserPermissions.bind fun permissions _ ↦ ?_
  refine (meets_plain (by simp) held_persistent).bind fun issued hissued ↦ ?_
  refine (meets_plain (by simp) held_persistent).bind fun _ _ ↦ meets_pure fun _ _ hheld ↦ ?_
  have hissuedHeld := held_of_issueSession hissued hheld
  exact hissuedHeld

theorem refresh_granting {rawRefreshToken : RawToken} {ipAddress : Option String} :
    (granting env initial requests).Meets number (refresh env rawRefreshToken ipAddress) (fun _ ↦ True)
      (Promises env initial requests) := by
  refine (meets_idle (by simp [findByTokenHash])).bind fun found _ ↦ meets_require.bind fun session _ ↦ ?_
  refine Meets.strengthen ?_ fun _ _ _ ↦ trivial
  split
  · exact (meets_idle (by simp [revokeFamily])).bind fun _ _ ↦ trivial
  refine (meets_idle (by simp [currentTime])).bind fun now _ ↦ meets_ensure.bind fun _ _ ↦ ?_
  refine Meets.strengthen ?_ fun _ _ _ ↦ trivial
  refine (meets_idle (by simp [findUserById])).bind fun found _ ↦ meets_require.bind fun user _ ↦ ?_
  refine meets_ensure.bind fun _ _ ↦ Meets.strengthen ?_ fun _ _ _ ↦ trivial
  refine (meets_idle uuidv7_unprivileged).bind fun newSessionId _ ↦ ?_
  refine meets_getUserPermissions.bind fun permissions _ ↦ ?_
  refine (meets_plain (by simp) held_persistent).bind fun signed hsigned ↦ ?_
  refine (meets_plain (by simp) held_persistent).bind fun token _ ↦ ?_
  refine (meets_plain (by simp) held_persistent).bind fun expiresAt _ ↦ ?_
  refine (meets_plain (by simp) held_persistent).bind fun _ _ ↦ meets_pure fun _ _ hheld ↦ ?_
  exact held_of_signAccessToken hsigned hheld

theorem switchTenant_granting {payload : JwtPayload} {targetTenantId : Uuid} {ipAddress : Option String}
    {denylistFirst : Bool} :
    (granting env initial requests).Meets number
      (switchTenant env payload targetTenantId ipAddress denylistFirst) (fun _ ↦ True)
      (Promises env initial requests) := by
  refine (meets_idle (by simp [findByUserAndTenant])).bind fun found _ ↦ ?_
  refine meets_require.bind fun keycard _ ↦ meets_ensure.bind fun _ _ ↦ ?_
  refine Meets.strengthen ?_ fun _ _ _ ↦ trivial
  refine (meets_idle (by simp [findUserById])).bind fun found _ ↦ meets_require.bind fun user _ ↦ ?_
  refine meets_ensure.bind fun _ _ ↦ Meets.strengthen ?_ fun _ _ _ ↦ trivial
  refine meets_getUserPermissions.bind fun permissions _ ↦ ?_
  refine (meets_plain (by simp) held_persistent).bind fun newSessionId _ ↦ ?_
  refine (meets_plain (by simp) held_persistent).bind fun signed hsigned ↦ ?_
  refine (meets_plain (by simp) held_persistent).bind fun token _ ↦ ?_
  refine (meets_plain (by simp) held_persistent).bind fun expiresAt _ ↦ ?_
  refine (meets_plain (by simp) held_persistent).bind fun _ _ ↦ ?_
  refine (meets_plain (by simp) held_persistent).bind fun _ _ ↦ meets_pure fun _ _ hheld ↦ ?_
  exact held_of_signAccessToken hsigned hheld

/-! ### Signing up -/

/-- The tenant that a signup leads to, and the role it gives there. -/
def SignsUpTo (env : Env) (initial : Db) (email : String) (tenantId : Uuid) (slug : String) : Prop :=
  (∃ claim ∈ initial.tenantDomains, claim.verified.isSome = true ∧ claim.allowAutoJoin = true ∧
      claim.domain = env.toLowerCase (emailDomain email) ∧ claim.tenantId = tenantId ∧
        slug = "project_member") ∨
    tenantId ∉ initial.tenants.map Tenant.id ∧ slug = "workspace_admin"

/-- A domain that lets its users join was verified at the start. -/
theorem meets_findAutoJoinTarget {domain : String} :
    (granting env initial requests).Meets number (findAutoJoinTarget env domain) (fun _ ↦ True)
      fun found _ ↦ ∀ target, found = some target → ∃ claim ∈ initial.tenantDomains,
        claim.verified.isSome = true ∧ claim.allowAutoJoin = true ∧
          claim.domain = env.toLowerCase domain ∧ claim.tenantId = target.1 := by
  have hclaims : (granting env initial requests).Meets number (findByDomain (env.toLowerCase domain))
      (fun _ ↦ True) fun found _ ↦ ∀ claim, found = some claim →
        claim.domain = env.toLowerCase domain ∧
          (claim.verified.isSome = true → claim ∈ initial.tenantDomains) := by
    refine meets_query stable_true fun world hinv _ _ ↦
      ⟨keeps_of_unprivileged hinv (unprivileged_refl _ _), fun claim hclaim ↦ ?_⟩
    have hmatches := List.find?_some hclaim
    exact ⟨of_decide_eq_true hmatches, hinv.1.1.domains claim (List.mem_of_find?_eq_some hclaim)⟩
  refine hclaims.bind fun found _ ↦ ?_
  cases found with
  | none => exact meets_pure fun _ _ _ target htarget ↦ by cases htarget
  | some claim =>
    refine meets_of_fact fun hclaim ↦ ?_
    obtain ⟨hdomain, hinitial⟩ := hclaim claim rfl
    dsimp only
    split_ifs with hrefused
    · exact meets_pure fun _ _ _ target htarget ↦ by cases htarget
    · refine (meets_idle (by simp [firstWorkspace])).bind fun workspace _ ↦ ?_
      refine meets_pure fun _ _ _ target htarget ↦ ?_
      obtain ⟨_, _, rfl⟩ := Option.map_eq_some_iff.mp htarget
      have hverified : claim.verified.isSome = true :=
        Option.isSome_iff_ne_none.mpr fun hnone ↦ hrefused (.inl (by rw [hnone]; rfl))
      exact ⟨claim, hinitial hverified, hverified,
        Bool.not_eq_false _ ▸ fun hnot ↦ hrefused (.inr hnot), hdomain, rfl⟩

/-- A tenant that is provisioned was not there at the start. -/
theorem meets_provisionTenant {orgName : String} {primaryDomain : Option String} :
    (granting env initial requests).Meets number (provisionTenant env orgName primaryDomain)
      (fun _ ↦ True) fun provisioned _ ↦ provisioned.1.id ∉ initial.tenants.map Tenant.id := by
  refine (meets_idle uuidv7_unprivileged).bind fun tenantId _ ↦ ?_
  refine (meets_idle randomBytes_unprivileged).bind fun suffix _ ↦ ?_
  refine (meets_idle uuidv7_unprivileged).bind fun workspaceId _ ↦ ?_
  refine (meets_idle uuidv7_unprivileged).bind fun claimId _ ↦ ?_
  refine meets_attempt stable_true (fun world _ hinv _ _ _ ↦
    keeps_of_unprivileged hinv (unprivileged_refl _ _)) fun world value after hinv _ _ hrun ↦ ?_
  have hprovisioned : Unprivileged world.db .other after ∧ value.1.id ∉ world.db.tenants.map Tenant.id := by
    cases primaryDomain with
    | none => exact provisionTenant_standing none (by simp) hrun
    | some domain => exact provisionTenant_standing (some _) (by simp) hrun
  refine ⟨keeps_of_unprivileged hinv hprovisioned.1, fun hold ↦ hprovisioned.2 ?_⟩
  exact List.map_subset _ hinv.1.1.tenants hold

theorem meets_resolveSignupTenant {input : SignupInput} {email : String} :
    (granting env initial requests).Meets number (resolveSignupTenant env input email) (fun _ ↦ True)
      fun resolved _ ↦ SignsUpTo env initial email resolved.1 resolved.2.2 := by
  refine meets_findAutoJoinTarget.bind fun autoJoin _ ↦ ?_
  cases autoJoin with
  | some target =>
    refine meets_pure fun _ _ htarget ↦ .inl ?_
    obtain ⟨claim, hclaim, hverified, hallowed, hdomain, htenant⟩ := htarget target rfl
    exact ⟨claim, hclaim, hverified, hallowed, hdomain, htenant, rfl⟩
  | none =>
    have hfounds : ∀ orgName primaryDomain, (granting env initial requests).Meets number
        (provisionTenant env orgName primaryDomain >>= fun provisioned ↦
          pure (provisioned.1.id, provisioned.2.id, "workspace_admin") : AuthCall (Uuid × Uuid × String))
        (fun _ ↦ True) fun resolved _ ↦ SignsUpTo env initial email resolved.1 resolved.2.2 :=
      fun _ _ ↦ meets_provisionTenant.bind fun _ _ ↦ meets_pure fun _ _ hnew ↦ .inr ⟨hnew, rfl⟩
    refine Meets.strengthen ?_ fun _ _ _ ↦ trivial
    dsimp only
    split_ifs
    · exact hfounds _ _
    · exact (meets_idle (by simp [isDomainClaimed, findByDomain])).bind fun _ _ ↦ hfounds _ _

/-- The account of a user who is inserted is new. -/
theorem meets_insertNewUser {input : SignupInput} {user : User}
    (hemail : user.email = normalised env (normalised env input.email)) :
    (granting env initial requests).Meets number (statement (insertUser user)) (fun _ ↦ True)
      fun inserted world ↦ NewAccount env initial input inserted.id world.db := by
  refine meets_attempt stable_true (fun world _ hinv _ _ _ ↦
    keeps_of_unprivileged hinv (unprivileged_refl _ _)) fun world value after hinv _ _ hrun ↦ ?_
  unfold insertUser at hrun
  split_ifs at hrun with hid
  cases hrun
  refine ⟨keeps_of_unprivileged hinv (unprivileged_of_users rfl rfl rfl rfl
    (lasts_append sameAccount_refl _) rfl rfl), fun hold ↦ hid ?_, user,
    List.mem_append_right _ (List.mem_singleton_self user), rfl, hemail⟩
  obtain ⟨old, hmem, hsame⟩ := List.mem_map.mp hold
  obtain ⟨later, hlater, haccount⟩ := hinv.1.1.users old hmem
  exact List.any_eq_true.mpr ⟨later, hlater, decide_eq_true (haccount.id.trans hsame)⟩

theorem signup_granting {input : SignupInput} {ipAddress : Option String}
    (hrequest : .auth (.signup input ipAddress) ∈ requests) :
    (granting env initial requests).Meets number (signup env input ipAddress) (fun _ ↦ True)
      (Promises env initial requests) := by
  refine (meets_idle (by simp [findByEmail])).bind fun existing _ ↦ meets_ensure.bind fun _ _ ↦ ?_
  refine Meets.strengthen ?_ fun _ _ _ ↦ trivial
  refine meets_resolveSignupTenant.bind fun resolved _ ↦ meets_of_fact fun hleads ↦ ?_
  refine (meets_idle uuidv7_unprivileged).bind fun newId _ ↦ ?_
  refine (meets_insertNewUser rfl).bind fun user _ ↦ ?_
  have hlasts : (granting env initial requests).Persistent fun world ↦
      NewAccount env initial input user.id world.db :=
    granting_persistent fun _ _ hstanding haccount ↦ ⟨haccount.new, hstanding.accountAt haccount.account⟩
  refine (meets_plain (enrollMember_unprivileged _ _ _) hlasts).bind fun _ _ ↦ ?_
  refine Meets.bind (meets_ensureDefaultRole.strengthen fun world _ haccount ↦ ?_) fun _ _ ↦ ?_
  · rcases hleads with ⟨claim, hclaim, hverified, hallowed, hdomain, htenant, hslug⟩ | ⟨hnew, hslug⟩
    · rw [hslug, ← htenant]
      exact .autoJoin input ipAddress claim hrequest haccount hclaim hverified hallowed hdomain
    · rw [hslug]
      exact .founds resolved.1 input ipAddress hrequest haccount hnew
  refine (meets_idle uuidv7_unprivileged).bind fun sessionId _ ↦ ?_
  refine (meets_idle (getMemberships_unprivileged _)).bind fun memberships _ ↦ ?_
  refine meets_getUserPermissions.bind fun permissions _ ↦ ?_
  refine (meets_plain (by simp) held_persistent).bind fun issued hissued ↦ ?_
  refine (meets_plain (by simp) held_persistent).bind fun _ _ ↦ meets_pure fun _ _ hheld ↦ ?_
  have hissuedHeld := held_of_issueSession hissued hheld
  exact hissuedHeld

/-! ### Signing in with Entra -/

/-- A call that grants nothing, under the first protocol, and a fact that lasts. -/
theorem meets_standing {call : AuthCall α} {fact : World Db SessionStep → Prop}
    (hcall : call.Only Unprivileged) (hfact : (standing initial).Persistent fact) :
    (standing initial).Meets number call fact fun _ ↦ fact :=
  meets_of_only hcall hfact.stable fun world label after hinv hholds _ hstep ↦
    ⟨⟨hstep.toStanding, Standing.trans hinv hstep.toStanding⟩,
      hfact number world label after hinv hholds hstep.toStanding⟩

theorem accountAt_persistent {email : String} :
    (standing initial).Persistent fun world ↦ AccountAt userId email world.db :=
  persistent_of_growth (fun _ _ _ _ hguarantee ↦ hguarantee) fun _ _ ↦ Standing.accountAt

/-- A user who is found is there, and stays. -/
theorem meets_findAccount {read : Db → Option User}
    (hread : ∀ db user, read db = some user → user ∈ db.users) :
    (standing initial).Meets number (Call.query .other read : AuthCall (Option User)) (fun _ ↦ True)
      fun found world ↦ ∀ user, found = some user → AccountAt user.id user.email world.db :=
  meets_query stable_true fun world hinv _ _ ↦
    ⟨⟨standing_refl world.db, hinv⟩, fun user hfound ↦ ⟨user, hread world.db user hfound, rfl, rfl⟩⟩

theorem meets_insertAccount {user : User} :
    (standing initial).Meets number (statement (insertUser user)) (fun _ ↦ True)
      fun inserted world ↦ AccountAt inserted.id inserted.email world.db := by
  refine meets_attempt stable_true (fun world _ hinv _ _ _ ↦ ⟨standing_refl world.db, hinv⟩) ?_
  intro world value after hinv _ _ hrun
  unfold insertUser at hrun
  split_ifs at hrun
  cases hrun
  have hstanding : Standing world.db { world.db with users := world.db.users ++ [user] } :=
    { standing_refl world.db with
      users := lasts_append sameAccount_refl _
      links := keepsLinks_of_eq rfl }
  exact ⟨⟨hstanding, Standing.trans hinv hstanding⟩, user,
    List.mem_append_right _ (List.mem_singleton_self user), rfl, rfl⟩

/-- The user of a link is one who is there. -/
theorem meets_upsertAccount {provider providerSub providerEmail displayName : String} :
    (standing initial).Meets number
      (upsertBySsoIdentity env provider providerSub providerEmail displayName tenantId) (fun _ ↦ True)
      fun user world ↦ AccountAt user.id user.email world.db := by
  have htrue : (standing initial).Persistent fun _ ↦ True := persistent_const True
  refine (meets_standing (by simp [findSsoIdentity]) htrue).bind fun existingIdentity _ ↦ ?_
  cases existingIdentity with
  | some identity =>
    have hrest : (standing initial).Meets number
        (do
          let found ← findUserById identity.userId
          Call.require found .typeError : AuthCall User)
        (fun _ ↦ True) fun user world ↦ AccountAt user.id user.email world.db := by
      refine (meets_findAccount fun _ _ ↦ List.mem_of_find?_eq_some).bind fun found _ ↦ ?_
      exact meets_require.conseq (fun _ _ hpre ↦ hpre) fun user _ _ hpost ↦ hpost.1 user hpost.2
    dsimp only
    split_ifs
    · exact (meets_standing (updateProviderEmail_unprivileged _ _) htrue).bind fun _ _ ↦ hrest
    · exact hrest
  | none =>
    refine (meets_findAccount fun _ _ ↦ List.mem_of_find?_eq_some).bind fun existingUser _ ↦ ?_
    cases existingUser with
    | some user =>
      refine Meets.strengthen ?_ fun _ _ hfound ↦ hfound user rfl
      refine (meets_standing uuidv7_unprivileged accountAt_persistent).bind fun id _ ↦ ?_
      refine (meets_standing (insertSsoIdentity_unprivileged _) accountAt_persistent).bind fun _ _ ↦ ?_
      exact meets_pure fun _ _ hpost ↦ hpost
    | none =>
      refine Meets.strengthen ?_ fun _ _ _ ↦ trivial
      refine (meets_standing uuidv7_unprivileged htrue).bind fun newId _ ↦ ?_
      refine meets_insertAccount.bind fun user _ ↦ ?_
      refine (meets_standing uuidv7_unprivileged accountAt_persistent).bind fun id _ ↦ ?_
      refine (meets_standing (insertSsoIdentity_unprivileged _) accountAt_persistent).bind fun _ _ ↦ ?_
      exact meets_pure fun _ _ hpost ↦ hpost

/-- The connection of the directory is one of the start, and lets the user in. -/
theorem meets_resolveSsoConnection {email : String} {externalTenantId : Option String} :
    (granting env initial requests).Meets number (resolveSsoConnection env email externalTenantId)
      (fun _ ↦ True) fun found _ ↦ ∀ resolved, found = some resolved →
        ∃ connection ∈ initial.ssoConnections, connection.provider = "entra" ∧
          externalTenantId = some connection.externalTenantId ∧ connection.status = .active ∧
            isEmailDomainAllowed env email connection.allowedEmailDomains = true ∧
              connection.jitEnabled = true ∧
                (connection.tenantId, connection.defaultRoleSlug) = resolved := by
  unfold resolveSsoConnection
  cases externalTenantId with
  | none => exact meets_pure fun _ _ _ resolved hresolved ↦ by cases hresolved
  | some directory =>
    have hfinds : (granting env initial requests).Meets number (findByExternalTenantId "entra" directory)
        (fun _ ↦ True) fun found _ ↦ ∀ connection, found = some connection →
          connection ∈ initial.ssoConnections ∧ connection.provider = "entra" ∧
            connection.externalTenantId = directory := by
      refine meets_query stable_true fun world hinv _ _ ↦
        ⟨keeps_of_unprivileged hinv (unprivileged_refl _ _), fun connection hfound ↦ ?_⟩
      have hmatches := List.find?_some hfound
      rw [hinv.1.1.connections] at hfound
      exact ⟨List.mem_of_find?_eq_some hfound, of_decide_eq_true hmatches⟩
    refine hfinds.bind fun found _ ↦ ?_
    cases found with
    | none => exact meets_pure fun _ _ _ resolved hresolved ↦ by cases hresolved
    | some connection =>
      refine meets_ensure.bind fun _ _ ↦ meets_ensure.bind fun _ _ ↦ meets_ensure.bind fun _ _ ↦ ?_
      refine meets_pure fun _ _ hpost resolved hresolved ↦ ?_
      obtain ⟨⟨⟨hfound, hactive⟩, hallowed⟩, hcreates⟩ := hpost
      obtain ⟨hconnection, hprovider, hdirectory⟩ := hfound connection rfl
      exact ⟨connection, hconnection, hprovider, congrArg some hdirectory.symm, hactive, hallowed, hcreates,
        Option.some.inj hresolved⟩

/-- The account is linked to the user, who is there. -/
def Resolves (oid : String) (user : User) (db : Db) : Prop :=
  AccountAt user.id user.email db ∧ LinkedTo "entra" oid user.id db

theorem resolves_persistent {oid : String} {user : User} :
    (granting env initial requests).Persistent fun world ↦ Resolves oid user world.db :=
  granting_persistent fun before after hstanding hresolves ↦
    ⟨hstanding.accountAt hresolves.1, hstanding.links.linkedTo before after hresolves.2⟩

theorem meets_resolveUser {idToken : String} {ipAddress : Option String} {signIn : SsoSignIn}
    (hrequest : .auth (.ssoLogin idToken ipAddress) ∈ requests)
    (hsignIn : ssoSignIn env idToken = some signIn) :
    (granting env initial requests).Meets number
      (resolveSsoUser env signIn.oid signIn.email signIn.displayName signIn.tid) (fun _ ↦ True)
      fun resolved world ↦ Resolves signIn.oid resolved.1 world.db := by
  have htrue : (standing initial).Persistent fun _ ↦ True := persistent_const True
  have hlinks : (granting env initial requests).Meets number (findSsoIdentity "entra" signIn.oid)
      (fun _ ↦ True) fun found world ↦ ∀ identity, found = some identity →
        LinkedTo "entra" signIn.oid identity.userId world.db :=
    (meets_ungranting (meets_standing (by simp [findSsoIdentity]) htrue) meets_findSsoIdentity
      (by simp [findSsoIdentity])).conseq (fun _ _ _ ↦ ⟨trivial, trivial⟩) fun _ _ _ hpost ↦ hpost.2
  refine hlinks.bind fun existingIdentity _ ↦ ?_
  cases existingIdentity with
  | some identity =>
    have hlinked := persistent_linkedTo initial "entra" signIn.oid identity.userId
    refine Meets.bind ((meets_ungranting (meets_findAccount fun _ _ ↦ List.mem_of_find?_eq_some)
      (meets_leavesLinks (by simp) hlinked) (by simp)).strengthen fun world _ hpre ↦
        ⟨trivial, hpre identity rfl⟩) fun found hreturns ↦ ?_
    refine meets_require.bind fun user hsome ↦ ?_
    have hid := id_of_findUserById hreturns (Call.returns_require.mp hsome)
    have hresolves : (granting env initial requests).Persistent fun world ↦
        Resolves signIn.oid user world.db := resolves_persistent
    refine Meets.strengthen (?_ : (granting env initial requests).Meets number _ (fun world ↦
      Resolves signIn.oid user world.db) _) fun world _ hpre ↦ ⟨hpre.1.1 user hpre.2, hid ▸ hpre.1.2⟩
    refine meets_ensure.bind fun _ _ ↦ Meets.strengthen ?_ fun _ _ hpre ↦ hpre.1
    refine (meets_plain (getMemberships_unprivileged _) hresolves).bind fun memberships _ ↦ ?_
    exact meets_require.bind fun active _ ↦ meets_pure fun _ _ hpre ↦ hpre.1
  | none =>
    refine Meets.strengthen ?_ fun _ _ _ ↦ trivial
    refine meets_resolveSsoConnection.bind fun connection _ ↦ meets_of_fact fun hconnection ↦ ?_
    refine meets_require.bind fun tenantId htenant ↦ ?_
    refine Meets.bind ((meets_ungranting meets_upsertAccount meets_upsertBySsoIdentity (by simp)).strengthen
      fun _ _ _ ↦ ⟨trivial, trivial⟩) fun user _ ↦ ?_
    refine (meets_plain uuidv7_unprivileged resolves_persistent).bind fun keycardId _ ↦ ?_
    refine (meets_plain (createTenantMember_unprivileged _ _ _) resolves_persistent).bind fun _ _ ↦ ?_
    cases connection with
    | none => exact meets_pure fun _ _ hresolves ↦ hresolves
    | some resolved =>
      dsimp only
      split_ifs
      case neg => exact meets_pure fun _ _ hresolves ↦ hresolves
      refine Meets.strengthen ((meets_ensureDefaultRole.frame resolves_persistent).bind fun _ _ ↦
        meets_pure fun _ _ hpost ↦ hpost.2) fun world _ hresolves ↦ ⟨?_, hresolves⟩
      obtain ⟨found, hfound, hprovider, hdirectory, hactive, hallowed, hcreates, rfl⟩ :=
        hconnection resolved rfl
      cases Call.returns_require.mp htenant
      exact .signsIn idToken ipAddress signIn found hrequest hsignIn hresolves.2 hfound hprovider hdirectory
        hactive hallowed hcreates

/-- A listed user without a role becomes a platform admin. -/
theorem meets_bootstrapPlatformAdmin {idToken : String} {ipAddress : Option String} {signIn : SsoSignIn}
    {user : User} (hrequest : .auth (.ssoLogin idToken ipAddress) ∈ requests)
    (hsignIn : ssoSignIn env idToken = some signIn) :
    (granting env initial requests).Meets number (bootstrapPlatformAdmin env user tenantId)
      (fun world ↦ Resolves signIn.oid user world.db) fun _ _ ↦ True := by
  unfold bootstrapPlatformAdmin
  dsimp only
  split_ifs with hlisted
  · refine meets_ensureDefaultRole.strengthen fun world _ hresolves ↦ ?_
    exact .listed tenantId idToken user.email ipAddress signIn hrequest hsignIn hresolves.2 hresolves.1
      hlisted
  · exact meets_pure fun _ _ _ ↦ trivial

theorem ssoLogin_granting {idToken : String} {ipAddress : Option String}
    (hrequest : .auth (.ssoLogin idToken ipAddress) ∈ requests) :
    (granting env initial requests).Meets number (ssoLogin env idToken ipAddress) (fun _ ↦ True)
      (Promises env initial requests) := by
  rcases ssoLogin_cases env idToken ipAddress with ⟨failure, hthrows⟩ | ⟨signIn, hsignIn, hresolves⟩
  · rw [hthrows]
    trivial
  rw [hresolves]
  refine (meets_resolveUser hrequest hsignIn).bind fun resolved _ ↦ ?_
  refine (meets_bootstrapPlatformAdmin hrequest hsignIn).bind fun _ _ ↦ ?_
  refine (meets_idle uuidv7_unprivileged).bind fun sessionId _ ↦ ?_
  refine meets_getUserPermissions.bind fun permissions _ ↦ ?_
  refine (meets_plain (by simp) held_persistent).bind fun issued hissued ↦ ?_
  refine (meets_plain (by simp) held_persistent).bind fun memberships _ ↦ ?_
  refine (meets_plain (by simp) held_persistent).bind fun _ _ ↦ meets_pure fun _ _ hheld ↦ ?_
  have hissuedHeld := held_of_issueSession hissued hheld
  exact hissuedHeld

/-! ### Requests -/

/-- What a call has established when it returns: the permissions of its token, if there is one, are held. -/
def Answers (env : Env) (initial : Db) (requests : List GrantRequest) (reply : Reply)
    (world : World Db SessionStep) : Prop :=
  ∀ issued, reply = .answered (some issued) → Promises env initial requests issued world

theorem answers_stable (reply : Reply) :
    (granting env initial requests).Stable number (Answers env initial requests reply) := by
  intro other _ world label after hinv hanswers hguarantee issued hreply
  exact (hanswers issued hreply).mono hguarantee.1

/-- A flow that returns tokens. -/
theorem answers_some {call : AuthCall LoginResult}
    (hcall : (granting env initial requests).Meets number call (fun _ ↦ True)
      (Promises env initial requests)) :
    (granting env initial requests).Meets number (Reply.answered <$> (some <$> call : AuthCall _))
      (fun _ ↦ True) (Answers env initial requests) := by
  have hsome : (granting env initial requests).Meets number (some <$> call : AuthCall _) (fun _ ↦ True)
      fun result world ↦ ∀ issued, result = some issued → Promises env initial requests issued world := by
    refine hcall.bind fun issued _ ↦ meets_pure fun world _ hpromises other hother ↦ ?_
    cases hother
    exact hpromises
  refine hsome.bind fun result _ ↦ meets_pure fun world _ hpromises issued hreply ↦ ?_
  exact hpromises issued (Reply.answered.inj hreply)

/-- A flow that returns none, and grants nothing. -/
theorem answers_none {call : AuthCall Unit} (hcall : call.Only Unprivileged) :
    (granting env initial requests).Meets number (Reply.answered <$> ((fun _ ↦ none) <$> call : AuthCall _))
      (fun _ ↦ True) (Answers env initial requests) := by
  have hnone : (granting env initial requests).Meets number ((fun _ ↦ none) <$> call : AuthCall _)
      (fun _ ↦ True) fun (result : Option LoginResult) _ ↦ result = none :=
    (meets_idle hcall).bind fun _ _ ↦ meets_pure fun _ _ _ ↦ rfl
  refine hnone.bind fun result _ ↦ meets_pure fun world _ hresult issued hreply ↦ ?_
  cases hresult.symm.trans (Reply.answered.inj hreply)

/-- A request of the authentication flows. -/
theorem auth_granting {request : AuthRequest} (hrequest : .auth request ∈ requests) :
    (granting env initial requests).Meets number ((GrantRequest.auth request).serve env) (fun _ ↦ True)
      (Answers env initial requests) := by
  cases request with
  | login email password ipAddress rememberMe => exact answers_some login_granting
  | signup input ipAddress => exact answers_some (signup_granting hrequest)
  | ssoLogin idToken ipAddress => exact answers_some (ssoLogin_granting hrequest)
  | refresh rawRefreshToken ipAddress => exact answers_some refresh_granting
  | switchTenant payload targetTenantId ipAddress denylistFirst => exact answers_some switchTenant_granting
  | logout payload denylistFirst => exact answers_none (logout_unprivileged payload denylistFirst)
  | logoutAll payload denylistFirst => exact answers_none (logoutAll_unprivileged payload denylistFirst)
  | resetPassword rawToken newPassword => exact answers_none (resetPassword_unprivileged env _ _)
  | tick milliseconds => exact answers_none (tick_unprivileged milliseconds)

/-- A request of the controller. Assumes: with a token that the guard admits, the handler keeps the
protocol. -/
theorem guarded_granting {user : JwtPayload} {handler : AuthCall α} {pre : World Db SessionStep → Prop}
    (hhandler : Grants manageMembers user.permissions →
      (granting env initial requests).Meets number handler pre fun _ _ ↦ True) :
    (granting env initial requests).Meets number (guarded user handler) pre
      (Answers env initial requests) := by
  unfold guarded
  cases hguard : canActivate (some manageMembers) ⟨some user, none⟩ with
  | error thrown => exact meets_pure fun _ _ _ issued hreply ↦ by cases hreply
  | ok admitted =>
    have hgrants : Grants manageMembers user.permissions := by
      have hrequired : (some manageMembers).filter (· ≠ "") = some manageMembers := by decide
      simp only [canActivate, hrequired] at hguard
      split_ifs at hguard with hempty hwildcard hmissing
      · exact .inl hwildcard
      · exact .inr hmissing
    exact (hhandler hgrants).bind fun _ _ ↦ meets_pure fun _ _ _ issued hreply ↦ by cases hreply

/-- The token that a request presents, if it does, carries permissions that are held. -/
def PresentsHeld (env : Env) (initial : Db) (requests : List GrantRequest) (request : GrantRequest)
    (world : World Db SessionStep) : Prop :=
  ∀ token ∈ request.token, HeldBy env initial requests token world.db

theorem serve_granting {request : GrantRequest} (hrequest : request ∈ requests) :
    (granting env initial requests).Meets number (request.serve env)
      (PresentsHeld env initial requests request) (Answers env initial requests) := by
  cases request with
  | auth flow => exact (auth_granting hrequest).strengthen fun _ _ _ ↦ trivial
  | assignRole user userId roleId scopeType scopeId =>
    refine guarded_granting fun hmanages ↦ (meets_assignRole hmanages).strengthen fun _ _ hpresents ↦ ?_
    exact hpresents user rfl
  | revokeRole user id =>
    exact guarded_granting fun _ ↦ (meets_idle (revokeRole_unprivileged user id)).strengthen
      fun _ _ _ ↦ trivial

/-! ### Runs -/

variable {config : GrantRun}

/-- The token of a call is that of its reply. -/
theorem exists_of_tokenOf {call : Call Db SessionStep Failure Reply} {token : JwtPayload}
    (htoken : tokenOf call = some token) :
    ∃ issued, call = .done (.ok (.answered (some issued))) ∧ issued.accessToken = token := by
  unfold tokenOf at htoken
  split at htoken
  · rename_i issued hreturned
    exact ⟨issued, Call.returned_eq_some.mp hreturned, Option.some.inj htoken⟩
  · cases htoken

/-- A token that has been returned carries permissions that are held. -/
theorem held_of_returned
    (hkept : (granting env initial requests).Kept (fun _ ↦ Answers env initial requests) config)
    {call : Call Db SessionStep Failure Reply} (hcall : call ∈ config.calls) {token : JwtPayload}
    (htoken : tokenOf call = some token) : HeldBy env initial requests token config.db := by
  obtain ⟨number, hnumber⟩ := List.mem_iff_getElem?.mp hcall
  obtain ⟨issued, rfl, rfl⟩ := exists_of_tokenOf htoken
  exact hkept.returned hnumber issued rfl

theorem kept_granting (hdistinct : (initial.ssoIdentities.map SsoIdentity.account).Nodup)
    (hreach : AdmittedBy (GrantRequest.serve env) anyStep PresentsIssued initial requests config) :
    (granting env initial requests).Kept (fun _ ↦ Answers env initial requests) config := by
  have hpermitted : AdmittedBy (GrantRequest.serve env) (granting env initial requests).permits
      PresentsIssued initial requests config := permits_granting ▸ hreach
  refine admittedBy_kept (fun _ ↦ answers_stable) (fun config request hkept hpresents hrequest ↦ ?_)
    ⟨⟨standing_refl initial, hdistinct, keepsLinks_of_eq rfl⟩, fun row hrow ↦ .initial row hrow⟩
    hpermitted (List.prefix_refl _)
  refine ⟨PresentsHeld env initial requests request, fun token htoken ↦ ?_, serve_granting hrequest⟩
  obtain ⟨call, hcall, hreturned⟩ := hpresents token htoken
  exact held_of_returned hkept hcall hreturned

/-- Assumes: at the start, no two links are of one account; the requests present tokens that calls have
returned. In every configuration, every assignment of the store has come to be as it should. -/
theorem reachable_grants (hdistinct : (initial.ssoIdentities.map SsoIdentity.account).Nodup)
    (hreach : AdmittedBy (GrantRequest.serve env) anyStep PresentsIssued initial requests config) :
    ∀ row ∈ config.db.userRoleAssignments, GrantOf env initial requests config.db row :=
  (kept_granting hdistinct hreach).invariant.2

/-- A tenant with an admin, whose role allows to manage members, and a member without a role. -/
def staffedDb : Db :=
  { exampleDb with
    users := exampleDb.users ++ [{ id := 4, email := "bob@example.com", displayName := "Bob",
                                   passwordHash := some "argon2$hunter2", status := .active }]
    tenantMembers := exampleDb.tenantMembers ++ [{ id := 5, tenantId := 2, userId := 4 }]
    systemRoles := [{ id := 6, tenantId := none, name := "Workspace Admin", slug := "workspace_admin",
                      permissions := [manageMembers] },
                    { id := 7, tenantId := none, name := "Workspace Member", slug := "workspace_member",
                      permissions := ["workspace:view"] }]
    userRoleAssignments := [{ id := 8, tenantId := 2, userId := 1, roleId := 6, scopeType := .workspace }] }

/-- The token of the admin. -/
def adminToken : JwtPayload :=
  { sub := 1, tenantId := 2, sessionId := 10, jti := 11, permissions := [manageMembers],
    authMethod := .password, iat := 0, exp := 900 }

/-- The token of the member, once they are an admin. -/
def memberToken : JwtPayload :=
  { sub := 4, tenantId := 2, sessionId := 14, jti := 15, permissions := [manageMembers],
    authMethod := .password, iat := 0, exp := 900 }

/-- The admin logs in, makes the member an admin, and loses their own role. The member logs in with the new
one and gives the former admin the role of a member, while that one still presents their token, which the
guard lets pass. -/
def handedOn : List (Choice GrantRequest) :=
  .start (.auth (.login "ada@example.com" "secret" none true)) :: finish 0 ++
    .start (.assignRole adminToken 4 6 .workspace none) :: finish 1 ++
    .start (.revokeRole adminToken 8) :: finish 2 ++
    .start (.auth (.login "bob@example.com" "hunter2" none true)) :: finish 3 ++
    [.start (.assignRole memberToken 1 7 .workspace none),
      .start (.assignRole adminToken 4 7 .project (some 9)), .resume 4, .resume 5] ++
    finish 5 ++ finish 4

/-- The configuration the run ends in. -/
def handedOnRun : GrantRun :=
  (Concurrency.Config.initial staffedDb).play (GrantRequest.serve exampleEnv) handedOn

/-- Every token of the run is presented after a login has returned it. -/
theorem handedOn_admittedBy : AdmittedBy (GrantRequest.serve exampleEnv) anyStep PresentsIssued staffedDb
    (requestsOf handedOn) handedOnRun :=
  play_admittedBy (by decide +kernel)

/-- A witness: the roles of the two, each granted by the other, and the one that was granted with the token
of a role that is gone. -/
theorem reachable_grants_witness :
    (∀ row ∈ handedOnRun.db.userRoleAssignments,
      GrantOf exampleEnv staffedDb (requestsOf handedOn) handedOnRun.db row) ∧
      handedOnRun.db.userRoleAssignments.map (fun row ↦ (row.userId, row.roleId, row.grantedBy)) =
        [(4, 6, some 1), (4, 7, some 1), (1, 7, some 4)] :=
  ⟨reachable_grants (by decide) handedOn_admittedBy, by decide +kernel⟩

/-- Assumes: at the start, no two links are of one account; the requests present tokens that calls have
returned. The permissions of every token that a call has returned are those of the role of an assignment
that has come to be as it should, of the user in the tenant, or the defaults. -/
theorem issued_held (hdistinct : (initial.ssoIdentities.map SsoIdentity.account).Nodup)
    (hreach : AdmittedBy (GrantRequest.serve env) anyStep PresentsIssued initial requests config)
    {number : ℕ} {issued : LoginResult}
    (hissued : config.calls[number]? = some (.done (.ok (.answered (some issued))))) :
    HeldBy env initial requests issued.accessToken config.db :=
  (kept_granting hdistinct hreach).returned hissued issued rfl

/-- A witness: the token of the member is that of a role that the former admin has given them. -/
theorem issued_held_witness :
    ∃ issued, handedOnRun.calls[3]? = some (.done (.ok (.answered (some issued)))) ∧
      issued.accessToken = memberToken ∧
        HeldBy exampleEnv staffedDb (requestsOf handedOn) issued.accessToken handedOnRun.db := by
  have htoken : handedOnRun.calls[3]?.bind tokenOf = some memberToken := by decide +kernel
  obtain ⟨call, hcall, hreturned⟩ := Option.bind_eq_some_iff.mp htoken
  obtain ⟨issued, rfl, hsame⟩ := exists_of_tokenOf hreturned
  exact ⟨issued, hcall, hsame, issued_held (by decide) handedOn_admittedBy hcall⟩

end RallyApi.Access

import RallyApi.Concurrency.Interference
import RallyApi.Identity.QuietSteps

/-!
# The tokens a flow issues

Five flows issue tokens: `login`, `signup`, `ssoLogin`, `refresh` and `switchTenant`. The lemmas here
say whom the access token is for (`…_returns`) and whose sessions the steps open (`…_opens`), and bring
`ssoLogin` into the form the results about it start from: it rejects the request before its first step,
or it resolves the user and completes the login (`ssoLogin_cases`).
-/

set_option autoImplicit false
set_option relaxedAutoImplicit false

namespace RallyApi.Identity

open Concurrency Platform Store

variable {α : Type}

/-! ### Whom a token is for -/

/-- `signAccessToken` signs a token for the user and the tenant it is given. -/
theorem signAccessToken_returns {env : Env} {user : User} {sessionId tenantId : Uuid}
    {permissions : List String} {authMethod : AuthMethod} {signed : JwtPayload × ℕ}
    (hreturns :
      (signAccessToken env user sessionId permissions tenantId authMethod).Returns signed) :
    signed.1.sub = user.id ∧ signed.1.tenantId = tenantId := by
  obtain ⟨jti, _, hrest⟩ := hreturns.of_bind
  obtain ⟨expiresIn, _, hrest⟩ := hrest.of_bind
  obtain ⟨now, _, hrest⟩ := hrest.of_bind
  obtain rfl := hrest
  exact ⟨rfl, rfl⟩

/-- `issueSession` issues tokens for the user and the tenant it is given. -/
theorem issueSession_returns {env : Env} {user : User} {sessionId tenantId : Uuid}
    {permissions : List String} {authMethod : AuthMethod} {ttlSeconds : ℕ}
    {ipAddress ssoProvider : Option String} {issued : LoginResult}
    (hreturns : (issueSession env user sessionId permissions tenantId authMethod ttlSeconds ipAddress
      ssoProvider).Returns issued) :
    issued.accessToken.sub = user.id ∧ issued.accessToken.tenantId = tenantId := by
  obtain ⟨signed, hsigned, hrest⟩ := hreturns.of_bind
  obtain ⟨token, _, hrest⟩ := hrest.of_bind
  obtain ⟨expiresAt, _, hrest⟩ := hrest.of_bind
  obtain ⟨_, _, hrest⟩ := hrest.of_bind
  obtain rfl := hrest
  exact signAccessToken_returns hsigned

/-! ### Whose sessions a step opens -/

/-- A step that opens sessions only for users with a property. -/
def OpensFor (owner : Uuid → Prop) (db : Db) (_ : SessionStep) (after : Db) : Prop :=
  ∀ session ∈ after.authSessions,
    session.id ∈ db.authSessions.map AuthSession.id ∨ owner session.userId

variable {owner : Uuid → Prop}

theorem opensFor_refl (db : Db) (label : SessionStep) : OpensFor owner db label db :=
  fun _ hsession ↦ .inl (List.mem_map_of_mem hsession)

/-- A quiet step opens no session. -/
theorem Quiet.opensFor {db after : Db} {label : SessionStep} (hquiet : Quiet db label after) :
    OpensFor owner db label after :=
  fun _ hsession ↦ .inl (List.mem_map_of_mem (hquiet.1 ▸ hsession))

theorem opens_of_quiet {call : AuthCall α} (hcall : call.Only Quiet) :
    call.Only (OpensFor owner) :=
  hcall.mono fun _ _ _ hquiet ↦ hquiet.opensFor

/-- Revoking rows opens no session. -/
theorem opensFor_revoke {db after : Db} {label : SessionStep} {condition : AuthSession → Bool}
    (hafter : after.authSessions = updateWhere condition
      (fun session ↦ { session with isRevoked := true }) db.authSessions) :
    OpensFor owner db label after := by
  intro session hsession
  refine .inl ?_
  rw [← map_id_revoke condition, ← hafter]
  exact List.mem_map_of_mem hsession

/-- Inserting a session. Assumes: the rows it is inserted among are those of the table, and its owner
has the property. -/
theorem opensFor_insert {db after : Db} {label : SessionStep} {sessions : List AuthSession}
    {session : AuthSession} (hinsert : insertSession session sessions = .ok after.authSessions)
    (howner : owner session.userId)
    (hsame : sessions.map AuthSession.id = db.authSessions.map AuthSession.id) :
    OpensFor owner db label after := by
  obtain ⟨hafter, _⟩ := insertSession_ok hinsert
  intro row hrow
  rw [hafter] at hrow
  rcases List.mem_append.mp hrow with hold | hnew
  · exact .inl (hsame ▸ List.mem_map_of_mem hold)
  · exact .inr (List.mem_singleton.mp hnew ▸ howner)

/-- A transaction that rolls back opens no session. Assumes: neither does one that commits, except for
users with the property. -/
theorem opens_of_transaction {label : Db → SessionStep} {run : Db → Except Failure (α × Db)}
    (hcommit : ∀ db value after, run db = .ok (value, after) → OpensFor owner db (label db) after) :
    (transaction label run).Only (OpensFor owner) :=
  Call.only_attempt _ _ (fun db _ _ ↦ opensFor_refl db _) hcommit

theorem createSession_opens {session : AuthSession} (howner : owner session.userId) :
    (createSession session).Only (OpensFor owner) := by
  refine opens_of_transaction fun db value after hrun ↦ ?_
  obtain ⟨sessions, hinsert, hrest⟩ := bind_eq_ok.mp hrun
  cases hrest
  exact opensFor_insert hinsert howner rfl

theorem rotateSession_opens {presented successor : AuthSession} (howner : owner successor.userId) :
    (rotateSession presented successor).Only (OpensFor owner) := by
  refine opens_of_transaction fun db value after hrun ↦ ?_
  obtain ⟨sessions, hinsert, hrest⟩ := bind_eq_ok.mp hrun
  cases hrest
  exact opensFor_insert hinsert howner (map_id_revoke _ _)

theorem replaceSession_opens {oldId : Uuid} {session : AuthSession} (howner : owner session.userId) :
    (replaceSession oldId session).Only (OpensFor owner) := by
  refine opens_of_transaction fun db value after hrun ↦ ?_
  obtain ⟨sessions, hinsert, hrest⟩ := bind_eq_ok.mp hrun
  cases hrest
  exact opensFor_insert hinsert howner (map_id_revoke _ _)

theorem revokeById_opens (id : Uuid) : (revokeById id).Only (OpensFor owner) := by
  simp only [revokeById, Call.only_atomically]
  exact fun db ↦ opensFor_revoke rfl

theorem snapshotSessions_opens (target : RevokeTarget) :
    (snapshotSessions target).Only (OpensFor owner) := by
  simp only [snapshotSessions, Call.only_query]
  exact fun db ↦ opensFor_refl db _

theorem commitRevoke_opens (target : RevokeTarget) (snapshot : List Uuid) :
    (commitRevoke target snapshot).Only (OpensFor owner) := by
  simp only [commitRevoke, Call.only_atomically]
  exact fun db ↦ opensFor_revoke rfl

theorem commitReset_opens (token : PasswordResetToken) (newHash : String) (snapshot : List Uuid) :
    (commitReset token newHash snapshot).Only (OpensFor owner) := by
  simp only [commitReset, Call.only_atomically]
  exact fun db ↦ opensFor_revoke rfl

/-- A bulk revocation opens no session. -/
theorem bulkRevoke_opens (target : RevokeTarget) :
    (snapshotSessions target >>= commitRevoke target).Only (OpensFor owner) :=
  Call.only_bind.mpr ⟨snapshotSessions_opens target, fun _ _ ↦ commitRevoke_opens target _⟩

/-- `issueSession` opens a session for the user it is given. -/
theorem issueSession_opens {env : Env} {user : User} {sessionId tenantId : Uuid}
    {permissions : List String} {authMethod : AuthMethod} {ttlSeconds : ℕ}
    {ipAddress ssoProvider : Option String} (howner : owner user.id) :
    (issueSession env user sessionId permissions tenantId authMethod ttlSeconds ipAddress
      ssoProvider).Only (OpensFor owner) := by
  simp only [issueSession, Call.only_bind]
  refine ⟨opens_of_quiet (signAccessToken_quiet _ _ _ _ _ _), fun signed _ ↦ ?_⟩
  refine ⟨opens_of_quiet (generateRefreshToken_quiet _), fun token _ ↦ ?_⟩
  refine ⟨opens_of_quiet (expiryAfter_quiet _ _), fun expiresAt _ ↦ ?_⟩
  exact ⟨createSession_opens howner, fun _ _ ↦ Call.only_pure _⟩

/-! ### `ssoLogin` -/

/-- What `ssoLogin` reads from an Entra token. -/
structure SsoSignIn where
  oid : String
  email : String
  displayName : String
  tid : Option String

/-- The claims of an ID token that is valid and has those `ssoLogin` requires. -/
def ssoSignIn (env : Env) (idToken : String) : Option SsoSignIn := do
  let claims ← env.verifyIdToken idToken
  let oid ← claims.oid.filter (· ≠ "")
  let email ← ((claims.email.or claims.preferredUsername).or claims.upn).filter (· ≠ "")
  pure { oid, email := env.trim (env.toLowerCase email), displayName := claims.name.getD email,
         tid := claims.tid.filter (· ≠ "") }

/-- The Entra identity is linked to a user. -/
def SsoLinked (oid : String) (db : Db) : Prop :=
  ∃ identity ∈ db.ssoIdentities, identity.provider = "entra" ∧ identity.providerSub = oid

instance (oid : String) (db : Db) : Decidable (SsoLinked oid db) :=
  inferInstanceAs (Decidable (∃ identity ∈ db.ssoIdentities, _))

/-- No identity is found exactly when none is linked. -/
theorem find_eq_none_iff {oid : String} {db : Db} :
    (db.ssoIdentities.find? fun identity ↦ identity.provider = "entra" ∧ identity.providerSub = oid) =
      none ↔ ¬ SsoLinked oid db := by
  simp [SsoLinked, List.find?_eq_none]

/-- An identity that is found is linked. -/
theorem SsoLinked.of_find {oid : String} {db : Db} {identity : SsoIdentity}
    (hfind : (db.ssoIdentities.find? fun identity ↦
      identity.provider = "entra" ∧ identity.providerSub = oid) = some identity) : SsoLinked oid db :=
  ⟨identity, List.mem_of_find?_eq_some hfind, by simpa using List.find?_some hfind⟩

/-- The rest of `ssoLogin` once it has its user and tenant. -/
def completeSsoLogin (env : Env) (ipAddress : Option String) (user : User) (tenantId : Uuid) :
    AuthCall LoginResult := do
  bootstrapPlatformAdmin env user tenantId
  let sessionId ← uuidv7
  let permissions ← getUserPermissions user.id tenantId
  let issued ← issueSession env user sessionId permissions tenantId .sso
    (refreshTtlSeconds env.config.jwtRefreshExpiry) ipAddress (some "entra")
  let memberships ← getMemberships user.id
  touchLastActive user.id tenantId
  pure { issued with user, memberships }

/-- `completeSsoLogin` issues tokens for the user and the tenant it is given. -/
theorem completeSsoLogin_returns {env : Env} {ipAddress : Option String} {user : User}
    {tenantId : Uuid} {issued : LoginResult}
    (hreturns : (completeSsoLogin env ipAddress user tenantId).Returns issued) :
    issued.accessToken.sub = user.id ∧ issued.accessToken.tenantId = tenantId := by
  obtain ⟨_, _, hrest⟩ := hreturns.of_bind
  obtain ⟨sessionId, _, hrest⟩ := hrest.of_bind
  obtain ⟨permissions, _, hrest⟩ := hrest.of_bind
  obtain ⟨opened, hopened, hrest⟩ := hrest.of_bind
  obtain ⟨memberships, _, hrest⟩ := hrest.of_bind
  obtain ⟨_, _, hrest⟩ := hrest.of_bind
  obtain rfl := hrest
  have hissued := issueSession_returns hopened
  exact hissued

/-- Assumes: SSO is configured and the token is valid and has the required claims. `ssoLogin` resolves
the user and completes the login. -/
theorem ssoLogin_eq {env : Env} {idToken : String} {signIn : SsoSignIn}
    (hconfigured : env.config.entraConfigured = true)
    (hsignIn : ssoSignIn env idToken = some signIn) (ipAddress : Option String) :
    ssoLogin env idToken ipAddress =
      (resolveSsoUser env signIn.oid signIn.email signIn.displayName signIn.tid >>= fun resolved ↦
        completeSsoLogin env ipAddress resolved.1 resolved.2) := by
  simp only [ssoSignIn, Option.bind_eq_bind, Option.bind_eq_some_iff, Option.pure_def,
    Option.some.injEq] at hsignIn
  obtain ⟨claims, hclaims, oid, hoid, email, hemail, rfl⟩ := hsignIn
  simp only [ssoLogin, Call.ensure_pos hconfigured, Call.pure_bind, hclaims, Call.require_some, hoid,
    hemail]
  rfl

/-- Otherwise it rejects the request before its first step. -/
theorem ssoLogin_rejected (env : Env) (idToken : String) (ipAddress : Option String)
    (hnone : env.config.entraConfigured = true → ssoSignIn env idToken = none) :
    ∃ failure, ssoLogin env idToken ipAddress = throw failure := by
  unfold ssoLogin
  cases hconfigured : env.config.entraConfigured with
  | false => exact ⟨_, rfl⟩
  | true =>
    replace hnone := hnone hconfigured
    cases hclaims : env.verifyIdToken idToken with
    | none => exact ⟨_, rfl⟩
    | some claims =>
      cases hoid : claims.oid.filter (· ≠ "") with
      | none => exact ⟨_, by simp only [Call.require_some, Call.pure_bind, hoid]; rfl⟩
      | some oid =>
        cases hemail : ((claims.email.or claims.preferredUsername).or claims.upn).filter (· ≠ "") with
        | none =>
          exact ⟨_, by simp only [Call.require_some, Call.pure_bind, hoid, hemail]; rfl⟩
        | some email =>
          simp only [ssoSignIn, hclaims, Option.bind_eq_bind, Option.bind_some, hoid, hemail,
            Option.pure_def, reduceCtorEq] at hnone

/-- `ssoLogin` rejects the request before its first step, or resolves the user of a token and completes
the login. -/
theorem ssoLogin_cases (env : Env) (idToken : String) (ipAddress : Option String) :
    (∃ failure, ssoLogin env idToken ipAddress = throw failure) ∨
      ∃ signIn, ssoSignIn env idToken = some signIn ∧ ssoLogin env idToken ipAddress =
        (resolveSsoUser env signIn.oid signIn.email signIn.displayName signIn.tid >>= fun resolved ↦
          completeSsoLogin env ipAddress resolved.1 resolved.2) := by
  by_cases haccepted : env.config.entraConfigured = true ∧ (ssoSignIn env idToken).isSome
  · obtain ⟨hconfigured, hsome⟩ := haccepted
    obtain ⟨signIn, hsignIn⟩ := Option.isSome_iff_exists.mp hsome
    exact .inr ⟨signIn, hsignIn, ssoLogin_eq hconfigured hsignIn ipAddress⟩
  · exact .inl (ssoLogin_rejected env idToken ipAddress
      fun hconfigured ↦ by simpa [hconfigured] using haccepted)

end RallyApi.Identity

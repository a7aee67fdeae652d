import RallyApi.Identity.SsoPolicy

/-!
# Connections that create no accounts

An SSO connection may switch just-in-time provisioning off. `resolveAndProvisionSsoUser` tests the
switch before it looks for a user with the e-mail address of the token, so that it refuses an invited
user, whom it would only have to link, like a stranger (`ssoLogin_jitDisabled`).

The switch blocks only the creation of accounts exactly when there is no account to link
(`blocksOnlyCreation_iff`).
-/

set_option autoImplicit false
set_option relaxedAutoImplicit false

namespace RallyApi.Identity

open Concurrency Platform Store

/-! ### The switch -/

/-- The directory of the token has an active connection that admits its e-mail address, and creates no
accounts. -/
def JitDisabled (env : Env) (signIn : SsoSignIn) (db : Db) : Prop :=
  ∃ tid connection, signIn.tid = some tid ∧ ssoConnection tid db = some connection ∧
    connection.status = .active ∧
    isEmailDomainAllowed env signIn.email connection.allowedEmailDomains = true ∧
    connection.jitEnabled = false

/-- The user has the e-mail address of the token, and is not deleted, suspended or inactive. -/
def MatchesAccount (signIn : SsoSignIn) (user : User) : Prop :=
  user.email = signIn.email ∧ ¬ user.deactivated = true

/-- The refusal of a connection that creates no accounts. -/
def jitDisabledFailure : Failure :=
  unauthorizedException .ssoJitDisabled
    "Automatic account creation is disabled. Please ask your administrator for an invitation."

/-- `ssoLogin` links the identity of the token to the user and issues tokens for them. -/
def LinksAndSucceeds (env : Env) (idToken : String) (ipAddress : Option String) (signIn : SsoSignIn)
    (user : User) (db : Db) : Prop :=
  (ssoLogin env idToken ipAddress).Succeeds
    (fun issued after ↦ issued.accessToken.sub = user.id ∧ ∃ identity ∈ after.ssoIdentities,
      identity.provider = "entra" ∧ identity.providerSub = signIn.oid ∧ identity.userId = user.id) db

/-- The switch blocks only the creation of accounts: every account with the address is linked and signs
in, and if there is none the login is refused and the store stays as it is. -/
structure BlocksOnlyCreation (env : Env) (idToken : String) (ipAddress : Option String)
    (signIn : SsoSignIn) (db : Db) : Prop where
  links : ∀ user ∈ db.users, MatchesAccount signIn user →
    LinksAndSucceeds env idToken ipAddress signIn user db
  refuses : (∀ user ∈ db.users, ¬ MatchesAccount signIn user) →
    (ssoLogin env idToken ipAddress).run db = (.error jitDisabledFailure, db)

/-! ### The order of the checks -/

variable {env : Env} {idToken : String} {signIn : SsoSignIn} {db : Db}

/-- The connection refuses the token, and no store is written. -/
theorem resolveSsoConnection_jitDisabled (hdisabled : JitDisabled env signIn db) :
    (resolveSsoConnection env signIn.email signIn.tid).run db = (.error jitDisabledFailure, db) := by
  obtain ⟨tid, connection, htid, hconnection, hactive, hallowed, hjit⟩ := hdisabled
  have hfound : (findByExternalTenantId "entra" tid).run db = (.ok (some connection), db) := by
    rw [← hconnection]
    rfl
  rw [htid]
  simp only [resolveSsoConnection, Call.run_bind, hfound, Call.ensure_pos hactive,
    Call.ensure_pos hallowed, Call.pure_bind, hjit]
  rfl

/-- Assumes: SSO is configured, the connection of the token creates no accounts, and its identity is not
linked. `ssoLogin` refuses it, whether there is an account to link or not. -/
theorem ssoLogin_jitDisabled (hconfigured : env.config.entraConfigured = true)
    (hsignIn : ssoSignIn env idToken = some signIn) (hdisabled : JitDisabled env signIn db)
    (hunlinked : ¬ SsoLinked signIn.oid db) (ipAddress : Option String) :
    (ssoLogin env idToken ipAddress).run db = (.error jitDisabledFailure, db) := by
  have hidentity : (findSsoIdentity "entra" signIn.oid).run db = (.ok none, db) := by
    rw [← find_eq_none_iff.mpr hunlinked]
    rfl
  have hresolved : (resolveSsoUser env signIn.oid signIn.email signIn.displayName signIn.tid).run db =
      (.error jitDisabledFailure, db) := by
    simp only [resolveSsoUser, resolveAndProvisionSsoUser, Call.run_bind, hidentity,
      resolveSsoConnection_jitDisabled hdisabled]
  rw [ssoLogin_eq hconfigured hsignIn, Call.run_bind, hresolved]

/-! ### The exact condition -/

/-- Assumes: SSO is configured, the token is valid, its directory has an active connection that admits
its address and creates no accounts, and its identity is not linked. The switch blocks only the creation
of accounts exactly when no user who is not deleted, suspended or inactive has the address. -/
theorem blocksOnlyCreation_iff (hconfigured : env.config.entraConfigured = true)
    (hsignIn : ssoSignIn env idToken = some signIn) (hdisabled : JitDisabled env signIn db)
    (hunlinked : ¬ SsoLinked signIn.oid db) (ipAddress : Option String) :
    BlocksOnlyCreation env idToken ipAddress signIn db ↔
      ∀ user ∈ db.users, ¬ MatchesAccount signIn user := by
  have hrefused := ssoLogin_jitDisabled hconfigured hsignIn hdisabled hunlinked ipAddress
  constructor
  · intro hblocks user huser hmatches
    obtain ⟨issued, after, hrun, _⟩ := hblocks.links user huser hmatches
    rw [hrefused] at hrun
    cases (Prod.mk.inj hrun).1
  · exact fun hnone ↦ ⟨fun user huser hmatches ↦ absurd hmatches (hnone user huser), fun _ ↦ hrefused⟩

/-! ### An invited user is refused -/

/-- The connection of the directory creates no accounts. -/
def invitationOnlyDb : Db :=
  { exampleDb with
    ssoConnections := [{ id := 4, tenantId := 2, provider := "entra", externalTenantId := "directory",
                         jitEnabled := false }] }

theorem exampleSignIn_jitDisabled (db : Db)
    (hsame : db.ssoConnections = invitationOnlyDb.ssoConnections) :
    JitDisabled entraEnv exampleSignIn db := by
  refine ⟨"directory", _, rfl, by rw [ssoConnection, hsame]; rfl, by decide, by decide +kernel, by decide⟩

/-- The same with the account of the address suspended. -/
def suspendedInvitationDb : Db := { suspendedDb with ssoConnections := invitationOnlyDb.ssoConnections }

/-- A witness that the switch can block only the creation of accounts: no account has the address. -/
theorem blocksOnlyCreation_iff_witness :
    BlocksOnlyCreation entraEnv "id-token" none exampleSignIn suspendedInvitationDb ↔
      ∀ user ∈ suspendedInvitationDb.users, ¬ MatchesAccount exampleSignIn user :=
  blocksOnlyCreation_iff rfl rfl (exampleSignIn_jitDisabled suspendedInvitationDb rfl) (by decide) none

/-- A connection without provisioning does not only block the creation of users: a member of the tenant
who signs in through its directory is refused. -/
theorem invitedUserRefused :
    ¬ ∀ (env : Env) (idToken : String) (ipAddress : Option String) (signIn : SsoSignIn) (db : Db),
      env.config.entraConfigured = true → ssoSignIn env idToken = some signIn →
        JitDisabled env signIn db → ¬ SsoLinked signIn.oid db →
          BlocksOnlyCreation env idToken ipAddress signIn db := by
  intro halways
  obtain ⟨hlinks, _⟩ := halways entraEnv "id-token" none exampleSignIn invitationOnlyDb rfl rfl
    (exampleSignIn_jitDisabled invitationOnlyDb rfl) (by decide)
  obtain ⟨issued, after, hrun, _⟩ := hlinks _ List.mem_cons_self ⟨by decide +kernel, by decide +kernel⟩
  have hrefused : (ssoLogin entraEnv "id-token" none).run invitationOnlyDb =
      (.error jitDisabledFailure, invitationOnlyDb) := rfl
  rw [hrefused] at hrun
  cases (Prod.mk.inj hrun).1

end RallyApi.Identity

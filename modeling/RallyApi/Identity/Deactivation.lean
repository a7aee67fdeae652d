import RallyApi.Identity.Frames
import RallyApi.Identity.IssuedTokens
import RallyApi.Identity.SessionFamilies

/-!
# Deactivated users

`login`, `refresh`, `switchTenant` and the fast path of `ssoLogin` test the status of the user they
have found. The slow path of `ssoLogin`, which links a new Entra identity to the user with its e-mail
address, does not: a suspended user who signs in for the first time gets tokens
(`suspendedUserSignsIn`).

A user who stays deactivated throughout a call gets no tokens and no session from it, whatever runs in
between, except through that path (`amid_deactivated`); and of the calls that succeed when run alone,
exactly those that take it issue tokens for a deactivated user (`run_deactivated_iff`).
-/

set_option autoImplicit false
set_option relaxedAutoImplicit false

namespace RallyApi.Identity

open Concurrency Platform Store

/-! ### Deactivation -/

/-- The user exists, and is suspended, inactive or soft-deleted. -/
def Deactivated (user : Uuid) (db : Db) : Prop :=
  (∃ row ∈ db.users, row.id = user) ∧ ∀ row ∈ db.users, row.id = user → row.deactivated = true

instance (user : Uuid) (db : Db) : Decidable (Deactivated user db) :=
  inferInstanceAs (Decidable (_ ∧ _))

/-- Neither the Entra identity nor the e-mail address of a token leads to the user. -/
structure LeadsElsewhere (env : Env) (user : Uuid) (signIn : SsoSignIn) (db : Db) : Prop where
  identity : ∀ identity ∈ db.ssoIdentities,
    identity.provider = "entra" → identity.providerSub = signIn.oid → identity.userId ≠ user
  address : ∀ row ∈ db.users,
    row.email = env.trim (env.toLowerCase signIn.email) → row.deletedAt = none → row.id ≠ user

/-- The condition on an `ssoLogin`: its identity is linked, or, as the flag says, leads elsewhere along
with its e-mail address. The other calls are free. -/
def AuthRequest.ChecksStatus (env : Env) (user : Uuid) (linked : Bool) : AuthRequest → Db → Prop
  | .ssoLogin idToken _, db => ∀ signIn, ssoSignIn env idToken = some signIn →
    if linked then SsoLinked signIn.oid db else LeadsElsewhere env user signIn db
  | _, _ => True

/-- Surroundings in which the user stays deactivated and a condition holds throughout the call, which
must open no session for the user. -/
def whileDeactivated (user : Uuid) (throughout : Db → Prop) : Surroundings Db SessionStep where
  rely _ found := Deactivated user found ∧ throughout found
  guarantee := OpensFor (· ≠ user)

variable {α : Type} {user : Uuid} {throughout : Db → Prop} {view : View Db SessionStep}

/-! ### The parts of the flows -/

/-- A step that leaves the sessions alone keeps the guarantee. -/
theorem opens_nothing {db after : Db} (label : SessionStep)
    (hsame : after.authSessions = db.authSessions) :
    (whileDeactivated user throughout).guarantee db label after :=
  fun _ hsession ↦ .inl (List.mem_map_of_mem (hsame ▸ hsession))

theorem amid_of_opens {call : AuthCall α} (hcall : call.Only (OpensFor (· ≠ user))) :
    call.Amid (whileDeactivated user throughout) (fun value _ ↦ call.Returns value) view :=
  Call.amid_of_guaranteed hcall fun _ _ _ hopens ↦ hopens

theorem amid_of_quiet {call : AuthCall α} (hcall : call.Only Quiet) :
    call.Amid (whileDeactivated user throughout) (fun value _ ↦ call.Returns value) view :=
  amid_of_opens (opens_of_quiet hcall)

/-- A read finds a store in which the user is deactivated and the condition holds. -/
theorem amid_read {read : Db → α} :
    (Call.query .other read : AuthCall α).Amid (whileDeactivated user throughout)
      (fun value _ ↦ ∃ db, Deactivated user db ∧ throughout db ∧ read db = value) view :=
  fun found hrely ↦ ⟨opens_nothing _ rfl, found, hrely.1, hrely.2, rfl⟩

/-- A row that passes the status test is not the user's. -/
theorem ne_of_active {db : Db} {row : User} (huser : Deactivated user db) (hrow : row ∈ db.users)
    (hactive : ¬ row.deactivated = true) : row.id ≠ user :=
  fun hid ↦ hactive (huser.2 row hrow hid)

theorem findUserById_amid (id : Uuid) :
    (findUserById id).Amid (whileDeactivated user throughout)
      (fun found _ ↦ ∀ row, found = some row → ¬ row.deactivated = true → row.id ≠ user) view := by
  refine amid_read.mono ?_
  rintro found _ ⟨db, huser, _, hread⟩ row hrow hactive
  exact ne_of_active huser (List.mem_of_find?_eq_some (hread.trans hrow)) hactive

theorem findByEmail_amid (email : String) :
    (findByEmail email).Amid (whileDeactivated user throughout)
      (fun found _ ↦ ∀ row, found = some row → ¬ row.deactivated = true → row.id ≠ user) view := by
  refine amid_read.mono ?_
  rintro found _ ⟨db, huser, _, hread⟩ row hrow hactive
  exact ne_of_active huser (List.mem_of_find?_eq_some (hread.trans hrow)) hactive

/-- Tokens issued for another user. -/
theorem issueSession_amid {env : Env} {other : User} {sessionId tenantId : Uuid}
    {permissions : List String} {authMethod : AuthMethod} {ttlSeconds : ℕ}
    {ipAddress ssoProvider : Option String} (hother : other.id ≠ user) :
    (issueSession env other sessionId permissions tenantId authMethod ttlSeconds ipAddress
      ssoProvider).Amid (whileDeactivated user throughout)
        (fun issued _ ↦ issued.accessToken.sub ≠ user) view := by
  refine (amid_of_opens (issueSession_opens hother)).mono fun issued _ hreturns ↦ ?_
  rw [(issueSession_returns hreturns).1]
  exact hother

/-! ### The calls -/

theorem login_amid (env : Env) (email password : String) (ipAddress : Option String)
    (rememberMe : Bool) :
    (login env email password ipAddress rememberMe).Amid (whileDeactivated user throughout)
      (fun issued _ ↦ issued.accessToken.sub ≠ user) view := by
  refine (findByEmail_amid _).bind fun found view hfound ↦ ?_
  refine Call.amid_bind.mpr (Call.amid_require.mpr fun row hrow ↦ ?_)
  refine Call.amid_bind.mpr (Call.amid_require.mpr fun passwordHash _ ↦ ?_)
  refine Call.amid_bind.mpr (Call.amid_ensure.mpr fun hactive ↦ ?_)
  refine Call.amid_bind.mpr (Call.amid_ensure.mpr fun _ ↦ ?_)
  refine Call.amid_bind.mpr (Call.amid_ensure.mpr fun _ ↦ ?_)
  refine (amid_of_quiet uuidv7_quiet).bind fun sessionId view _ ↦ ?_
  refine (amid_of_quiet (by simp [getMemberships, findByUserId])).bind fun memberships view _ ↦ ?_
  refine Call.amid_bind.mpr (Call.amid_require.mpr fun active _ ↦ ?_)
  refine (amid_of_quiet (getUserPermissions_quiet _ _)).bind fun permissions view _ ↦ ?_
  have hother := hfound row hrow hactive
  refine (issueSession_amid hother).bind fun issued view hissued ↦ ?_
  exact (amid_of_quiet (touchLastActive_quiet _ _)).bind fun _ _ _ ↦ hissued

/-- A new user is not one who exists. -/
theorem insertUser_amid (row : User) :
    (statement (insertUser row)).Amid (whileDeactivated user throughout)
      (fun created _ ↦ created.id ≠ user) view := by
  refine Call.amid_attempt (fun _ _ _ _ ↦ opens_nothing _ rfl)
    fun found created after hrely hinsert ↦ ?_
  unfold insertUser at hinsert
  split_ifs at hinsert with hid hemail
  cases hinsert
  refine ⟨opens_nothing _ rfl, fun hsame ↦ hid ?_⟩
  obtain ⟨⟨existing, hmem, hexisting⟩, _⟩ := hrely.1
  exact List.any_eq_true.mpr ⟨existing, hmem, decide_eq_true (hexisting.trans hsame.symm)⟩

theorem signup_amid (env : Env) (input : SignupInput) (ipAddress : Option String) :
    (signup env input ipAddress).Amid (whileDeactivated user throughout)
      (fun issued _ ↦ issued.accessToken.sub ≠ user) view := by
  refine (amid_of_quiet (by simp [findByEmail])).bind fun existing view _ ↦ ?_
  refine Call.amid_bind.mpr (Call.amid_ensure.mpr fun _ ↦ ?_)
  refine (amid_of_quiet (resolveSignupTenant_quiet _ _ _)).bind fun resolved view _ ↦ ?_
  refine (amid_of_quiet uuidv7_quiet).bind fun userId view _ ↦ ?_
  refine (insertUser_amid _).bind fun created view hcreated ↦ ?_
  refine (amid_of_quiet (enrollMember_quiet _ _ _)).bind fun _ view _ ↦ ?_
  refine (amid_of_quiet (ensureDefaultRole_quiet _ _ _)).bind fun _ view _ ↦ ?_
  refine (amid_of_quiet uuidv7_quiet).bind fun sessionId view _ ↦ ?_
  refine (amid_of_quiet (by simp [getMemberships, findByUserId])).bind fun memberships view _ ↦ ?_
  refine (amid_of_quiet (getUserPermissions_quiet _ _)).bind fun permissions view _ ↦ ?_
  refine (issueSession_amid hcreated).bind fun issued view hissued ↦ ?_
  exact (amid_of_quiet (touchLastActive_quiet _ _)).bind fun _ _ _ ↦ hissued

theorem revokeFamily_opens (familyId : Uuid) :
    (revokeFamily familyId).Only (OpensFor (· ≠ user)) := bulkRevoke_opens _

theorem refresh_amid (env : Env) (rawRefreshToken : RawToken) (ipAddress : Option String) :
    (refresh env rawRefreshToken ipAddress).Amid (whileDeactivated user throughout)
      (fun issued _ ↦ issued.accessToken.sub ≠ user) view := by
  refine (amid_of_quiet (by simp [findByTokenHash])).bind fun found view _ ↦ ?_
  refine Call.amid_bind.mpr (Call.amid_require.mpr fun session _ ↦ ?_)
  cases hrevoked : session.isRevoked with
  | true =>
    simp only [if_true]
    exact (amid_of_opens (revokeFamily_opens _)).bind fun _ _ _ ↦ trivial
  | false =>
    simp only [Bool.false_eq_true, if_false]
    refine (amid_of_quiet (by simp [currentTime])).bind fun now view _ ↦ ?_
    refine Call.amid_bind.mpr (Call.amid_ensure.mpr fun _ ↦ ?_)
    refine (findUserById_amid _).bind fun found view hfound ↦ ?_
    refine Call.amid_bind.mpr (Call.amid_require.mpr fun row hrow ↦ ?_)
    refine Call.amid_bind.mpr (Call.amid_ensure.mpr fun hactive ↦ ?_)
    have hother := hfound row hrow hactive
    refine (amid_of_quiet uuidv7_quiet).bind fun newSessionId view _ ↦ ?_
    refine (amid_of_quiet (getUserPermissions_quiet _ _)).bind fun permissions view _ ↦ ?_
    refine (amid_of_quiet (signAccessToken_quiet _ _ _ _ _ _)).bind fun signed view hsigned ↦ ?_
    refine (amid_of_quiet (generateRefreshToken_quiet _)).bind fun token view _ ↦ ?_
    refine (amid_of_quiet (expiryAfter_quiet _ _)).bind fun expiresAt view _ ↦ ?_
    refine (amid_of_opens (rotateSession_opens hother)).bind fun _ view _ ↦ ?_
    change signed.1.sub ≠ user
    rwa [(signAccessToken_returns hsigned).1]

/-- `Promise.all` of two operations that open no session for the user. -/
theorem bothInOrder_opens {first second : AuthCall Unit}
    (hfirst : first.Only (OpensFor (· ≠ user))) (hsecond : second.Only (OpensFor (· ≠ user)))
    (firstFirst : Bool) : (bothInOrder firstFirst first second).Only (OpensFor (· ≠ user)) := by
  cases firstFirst with
  | true => exact Call.only_bind.mpr ⟨hfirst, fun _ _ ↦ hsecond⟩
  | false => exact Call.only_bind.mpr ⟨hsecond, fun _ _ ↦ hfirst⟩

theorem switchTenant_amid (env : Env) (payload : JwtPayload) (targetTenantId : Uuid)
    (ipAddress : Option String) (denylistFirst : Bool) :
    (switchTenant env payload targetTenantId ipAddress denylistFirst).Amid
      (whileDeactivated user throughout) (fun issued _ ↦ issued.accessToken.sub ≠ user) view := by
  refine (amid_of_quiet (by simp [findByUserAndTenant])).bind fun keycard view _ ↦ ?_
  refine Call.amid_bind.mpr (Call.amid_require.mpr fun keycard _ ↦ ?_)
  refine Call.amid_bind.mpr (Call.amid_ensure.mpr fun _ ↦ ?_)
  refine (findUserById_amid _).bind fun found view hfound ↦ ?_
  refine Call.amid_bind.mpr (Call.amid_require.mpr fun row hrow ↦ ?_)
  refine Call.amid_bind.mpr (Call.amid_ensure.mpr fun hactive ↦ ?_)
  have hother := hfound row hrow hactive
  refine (amid_of_quiet (getUserPermissions_quiet _ _)).bind fun permissions view _ ↦ ?_
  refine (amid_of_quiet uuidv7_quiet).bind fun newSessionId view _ ↦ ?_
  refine (amid_of_quiet (signAccessToken_quiet _ _ _ _ _ _)).bind fun signed view hsigned ↦ ?_
  refine (amid_of_quiet (generateRefreshToken_quiet _)).bind fun token view _ ↦ ?_
  refine (amid_of_quiet (expiryAfter_quiet _ _)).bind fun expiresAt view _ ↦ ?_
  refine (amid_of_opens (bothInOrder_opens (opens_of_quiet (denylistPayload_quiet _))
    (replaceSession_opens hother) _)).bind fun _ view _ ↦ ?_
  refine (amid_of_quiet (touchLastActive_quiet _ _)).bind fun _ view _ ↦ ?_
  change signed.1.sub ≠ user
  rwa [(signAccessToken_returns hsigned).1]

/-! ### `ssoLogin` -/

theorem completeSsoLogin_amid (env : Env) (ipAddress : Option String) {other : User}
    (tenantId : Uuid) (hother : other.id ≠ user) :
    (completeSsoLogin env ipAddress other tenantId).Amid (whileDeactivated user throughout)
      (fun issued _ ↦ issued.accessToken.sub ≠ user) view := by
  refine (amid_of_quiet (bootstrapPlatformAdmin_quiet _ _ _)).bind fun _ view _ ↦ ?_
  refine (amid_of_quiet uuidv7_quiet).bind fun sessionId view _ ↦ ?_
  refine (amid_of_quiet (getUserPermissions_quiet _ _)).bind fun permissions view _ ↦ ?_
  refine (issueSession_amid hother).bind fun issued view hissued ↦ ?_
  refine (amid_of_quiet (by simp [getMemberships, findByUserId])).bind fun memberships view _ ↦ ?_
  exact (amid_of_quiet (touchLastActive_quiet _ _)).bind fun _ _ _ ↦ hissued

/-- The slow path. Assumes: neither the identity nor the e-mail address leads to the user. -/
theorem upsertBySsoIdentity_amid {env : Env} {signIn : SsoSignIn} (tenantId : Uuid)
    (hthroughout : ∀ db, throughout db → LeadsElsewhere env user signIn db) :
    (upsertBySsoIdentity env "entra" signIn.oid signIn.email signIn.displayName tenantId).Amid
      (whileDeactivated user throughout) (fun created _ ↦ created.id ≠ user) view := by
  refine amid_read.bind ?_
  rintro existingIdentity view ⟨db, _, hdb, hread⟩
  cases existingIdentity with
  | some identity =>
    have hlinked := List.find?_some hread
    simp only [decide_eq_true_eq] at hlinked
    have hother : identity.userId ≠ user :=
      (hthroughout db hdb).identity _ (List.mem_of_find?_eq_some hread) hlinked.1 hlinked.2
    have hfinish : ∀ view, (findUserById identity.userId >>= fun found ↦
        Call.require found Failure.typeError).Amid (whileDeactivated user throughout)
          (fun created _ ↦ created.id ≠ user) view := by
      intro view
      refine (amid_of_quiet (by simp [findUserById])).bind fun found view hfound ↦ ?_
      refine Call.amid_require.mpr fun row hrow ↦ ?_
      rw [findUserById_returns (hrow ▸ hfound)]
      exact hother
    dsimp only
    split_ifs
    · exact (amid_of_quiet (updateProviderEmail_quiet _ _)).bind fun _ view _ ↦ hfinish view
    · exact hfinish view
  | none =>
    refine amid_read.bind ?_
    rintro existingUser view ⟨db, _, hdb, hread⟩
    cases existingUser with
    | some row =>
      have hrow := List.find?_some hread
      simp only [decide_eq_true_eq] at hrow
      refine (amid_of_quiet uuidv7_quiet).bind fun id view _ ↦ ?_
      refine (amid_of_quiet (insertSsoIdentity_quiet _)).bind fun _ view _ ↦ ?_
      exact (hthroughout db hdb).address row (List.mem_of_find?_eq_some hread) hrow.1 hrow.2
    | none =>
      refine (amid_of_quiet uuidv7_quiet).bind fun userId view _ ↦ ?_
      refine (insertUser_amid _).bind fun created view hcreated ↦ ?_
      refine (amid_of_quiet uuidv7_quiet).bind fun id view _ ↦ ?_
      exact (amid_of_quiet (insertSsoIdentity_quiet _)).bind fun _ _ _ ↦ hcreated

theorem resolveSsoUser_amid {env : Env} {signIn : SsoSignIn} {linked : Bool}
    (hthroughout : ∀ db, throughout db →
      if linked then SsoLinked signIn.oid db else LeadsElsewhere env user signIn db) :
    (resolveSsoUser env signIn.oid signIn.email signIn.displayName signIn.tid).Amid
      (whileDeactivated user throughout) (fun resolved _ ↦ resolved.1.id ≠ user) view := by
  refine amid_read.bind ?_
  rintro existingIdentity view ⟨db, _, hdb, hread⟩
  cases existingIdentity with
  | some identity =>
    refine (findUserById_amid _).bind fun found view hfound ↦ ?_
    refine Call.amid_bind.mpr (Call.amid_require.mpr fun row hrow ↦ ?_)
    refine Call.amid_bind.mpr (Call.amid_ensure.mpr fun hactive ↦ ?_)
    refine (amid_of_quiet (by simp [getMemberships, findByUserId])).bind fun memberships view _ ↦ ?_
    refine Call.amid_bind.mpr (Call.amid_require.mpr fun active _ ↦ ?_)
    exact hfound row hrow hactive
  | none =>
    cases linked with
    | true =>
      obtain ⟨identity, hmem, hlinked⟩ := hthroughout db hdb
      exact absurd hlinked (by simpa using List.find?_eq_none.mp hread identity hmem)
    | false =>
      refine (amid_of_quiet (resolveSsoConnection_quiet _ _ _)).bind fun connection view _ ↦ ?_
      refine Call.amid_bind.mpr (Call.amid_require.mpr fun tenantId _ ↦ ?_)
      refine (upsertBySsoIdentity_amid tenantId hthroughout).bind fun created view hcreated ↦ ?_
      refine (amid_of_quiet uuidv7_quiet).bind fun keycardId view _ ↦ ?_
      refine (amid_of_quiet (createTenantMember_quiet _ _ _)).bind fun _ view _ ↦ ?_
      cases connection with
      | none => exact hcreated
      | some connection =>
        dsimp only
        split_ifs
        · exact (amid_of_quiet (ensureDefaultRole_quiet _ _ _)).bind fun _ _ _ ↦ hcreated
        · exact hcreated

theorem ssoLogin_amid (env : Env) (idToken : String) (ipAddress : Option String) {linked : Bool}
    (hthroughout : ∀ db, throughout db → ∀ signIn, ssoSignIn env idToken = some signIn →
      if linked then SsoLinked signIn.oid db else LeadsElsewhere env user signIn db) :
    (ssoLogin env idToken ipAddress).Amid (whileDeactivated user throughout)
      (fun issued _ ↦ issued.accessToken.sub ≠ user) view := by
  rcases ssoLogin_cases env idToken ipAddress with ⟨failure, hfailure⟩ | ⟨signIn, hsignIn, hlogin⟩
  · rw [hfailure]
    trivial
  · rw [hlogin]
    refine (resolveSsoUser_amid fun db hdb ↦ hthroughout db hdb signIn hsignIn).bind ?_
    exact fun resolved view hresolved ↦ completeSsoLogin_amid env ipAddress _ hresolved

/-- A call that issues no tokens and opens no session. -/
theorem amid_of_silent {call : AuthCall Unit} (hcall : call.Only (OpensFor (· ≠ user))) :
    ((fun _ ↦ none) <$> call : AuthCall (Option LoginResult)).Amid (whileDeactivated user throughout)
      (fun result _ ↦ ∀ issued, result = some issued → issued.accessToken.sub ≠ user) view :=
  ((amid_of_opens hcall).mono fun _ _ _ ↦ trivial).map_none

theorem resetPassword_opens (env : Env) (rawToken : RawToken) (newPassword : String) :
    (resetPassword env rawToken newPassword).Only (OpensFor (· ≠ user)) := by
  have hquiet : ∀ {β : Type} {call : AuthCall β}, call.Only Quiet →
      call.Only (OpensFor (· ≠ user)) := fun hcall ↦ opens_of_quiet hcall
  simp only [resetPassword, Call.only_bind]
  refine ⟨hquiet (by simp [findPasswordResetToken]), fun found _ ↦ ?_⟩
  refine ⟨Call.only_require _ _, fun record _ ↦ ⟨Call.only_ensure _ _, fun _ _ ↦ ?_⟩⟩
  refine ⟨hquiet (by simp [currentTime]), fun now _ ↦ ⟨Call.only_ensure _ _, fun _ _ ↦ ?_⟩⟩
  refine ⟨hquiet (by simp [findUserById]), fun found _ ↦ ⟨Call.only_require _ _, fun _ _ ↦ ?_⟩⟩
  exact ⟨snapshotSessions_opens _, fun snapshot _ ↦ commitReset_opens _ _ _⟩

/-- Whatever runs in between, a user who stays deactivated throughout a call gets no tokens from it and
no session, if an `ssoLogin` finds its identity linked throughout or leading elsewhere throughout. -/
theorem amid_deactivated (env : Env) (user : Uuid) (linked : Bool) (request : AuthRequest)
    (view : View Db SessionStep) :
    (request.serve env).Amid (whileDeactivated user (request.ChecksStatus env user linked))
      (fun result _ ↦ ∀ issued, result = some issued → issued.accessToken.sub ≠ user) view := by
  cases request with
  | login email password ipAddress rememberMe => exact (login_amid _ _ _ _ _).map_some
  | signup input ipAddress => exact (signup_amid _ _ _).map_some
  | ssoLogin idToken ipAddress => exact (ssoLogin_amid env idToken ipAddress fun _ hdb ↦ hdb).map_some
  | refresh rawRefreshToken ipAddress => exact (refresh_amid _ _ _).map_some
  | switchTenant payload targetTenantId ipAddress denylistFirst =>
    exact (switchTenant_amid _ _ _ _ _).map_some
  | logout payload denylistFirst =>
    exact amid_of_silent (bothInOrder_opens (opens_of_quiet (denylistPayload_quiet _))
      (revokeById_opens _) _)
  | logoutAll payload denylistFirst =>
    exact amid_of_silent (bothInOrder_opens (opens_of_quiet (denylistPayload_quiet _))
      (bulkRevoke_opens _) _)
  | resetPassword rawToken newPassword => exact amid_of_silent (resetPassword_opens _ _ _)
  | tick milliseconds => exact amid_of_silent (opens_of_quiet (tick_quiet _))

/-! ### Calls that run alone -/

/-- The user with the e-mail address of a token. -/
def userWithAddress (env : Env) (signIn : SsoSignIn) (db : Db) : Option User :=
  db.users.find? fun row ↦
    row.email = env.trim (env.toLowerCase signIn.email) ∧ row.deletedAt = none

/-- An `ssoLogin` that runs alone finds its identity linked, or finds no deactivated user with its
e-mail address. The other calls are free. -/
def AuthRequest.FindsActive (env : Env) (db : Db) : AuthRequest → Prop
  | .ssoLogin idToken _ => ∀ signIn, ssoSignIn env idToken = some signIn → ¬ SsoLinked signIn.oid db →
    ∀ row, userWithAddress env signIn db = some row → row.deactivated = false
  | _ => True

/-- A row that passes the status test is not deactivated. -/
theorem not_deactivated {db : Db} {row : User} (hrow : row ∈ db.users)
    (hactive : ¬ row.deactivated = true) : ¬ Deactivated row.id db :=
  fun hdeactivated ↦ hactive (hdeactivated.2 row hrow rfl)

/-- A part that leaves the users alone, in a call that runs alone. -/
theorem alone_of_leavesUsers {call : AuthCall α} (hcall : call.Only (Leaves .users))
    (view : View Db SessionStep) :
    call.Amid .alone (fun _ after ↦ after.db.users = view.db.users) view := by
  have hamid : call.Amid .alone
      (fun value after ↦ call.Returns value ∧ after.db.users = view.db.users) view := by
    refine Call.amid_of_only hcall (fun seen found label after hview hfound hleaves ↦ ?_) rfl
    have hsame : after.users = found.users := hleaves
    exact ⟨trivial, hsame.trans ((congrArg Db.users hfound).trans hview)⟩
  exact hamid.mono fun _ _ h ↦ h.2

/-- Assumes: the users of the view are those of a store. A new user is not one of them. -/
theorem insertUser_alone {row : User} {db : Db} (hview : view.db.users = db.users) :
    (statement (insertUser row)).Amid .alone (fun created _ ↦ ¬ Deactivated created.id db) view := by
  refine Call.amid_attempt (fun _ _ _ _ ↦ trivial) fun found created after hfound hinsert ↦ ?_
  obtain rfl : found = view.db := hfound
  unfold insertUser at hinsert
  split_ifs at hinsert with hid hemail
  cases hinsert
  refine ⟨trivial, fun hdeactivated ↦ hid ?_⟩
  obtain ⟨existing, hmem, hexisting⟩ := hdeactivated.1
  exact List.any_eq_true.mpr ⟨existing, hview ▸ hmem, decide_eq_true hexisting⟩

/-- The rest of a flow, which issues tokens for the row it has found. -/
theorem issueSession_alone {env : Env} {row : User} {sessionId tenantId : Uuid}
    {permissions : List String} {authMethod : AuthMethod} {ttlSeconds : ℕ}
    {ipAddress ssoProvider : Option String} :
    (issueSession env row sessionId permissions tenantId authMethod ttlSeconds ipAddress
      ssoProvider).Amid .alone (fun issued _ ↦ issued.accessToken.sub = row.id) view :=
  (Call.amid_alone _ _).mono fun _ _ hreturns ↦ (issueSession_returns hreturns).1

theorem login_alone (env : Env) (db : Db) (email password : String) (ipAddress : Option String)
    (rememberMe : Bool) :
    (login env email password ipAddress rememberMe).Amid .alone
      (fun issued _ ↦ ¬ Deactivated issued.accessToken.sub db) ⟨db, []⟩ := by
  refine Call.amid_bind.mpr (Call.amid_alone_query.mpr ?_)
  refine Call.amid_bind.mpr (Call.amid_require.mpr fun row hrow ↦ ?_)
  refine Call.amid_bind.mpr (Call.amid_require.mpr fun passwordHash _ ↦ ?_)
  refine Call.amid_bind.mpr (Call.amid_ensure.mpr fun hactive ↦ ?_)
  have hnot := not_deactivated (List.mem_of_find?_eq_some hrow) hactive
  refine Call.amid_bind.mpr (Call.amid_ensure.mpr fun _ ↦ ?_)
  refine Call.amid_bind.mpr (Call.amid_ensure.mpr fun _ ↦ ?_)
  refine (Call.amid_alone _ _).bind fun sessionId view _ ↦ ?_
  refine (Call.amid_alone _ _).bind fun memberships view _ ↦ ?_
  refine Call.amid_bind.mpr (Call.amid_require.mpr fun active _ ↦ ?_)
  refine (Call.amid_alone _ _).bind fun permissions view _ ↦ ?_
  refine issueSession_alone.bind fun issued view hissued ↦ ?_
  refine (Call.amid_alone _ _).bind fun _ view _ ↦ ?_
  change ¬ Deactivated issued.accessToken.sub db
  rwa [hissued]

theorem refresh_alone (env : Env) (db : Db) (rawRefreshToken : RawToken)
    (ipAddress : Option String) :
    (refresh env rawRefreshToken ipAddress).Amid .alone
      (fun issued _ ↦ ¬ Deactivated issued.accessToken.sub db) ⟨db, []⟩ := by
  refine Call.amid_bind.mpr (Call.amid_alone_query.mpr ?_)
  refine Call.amid_bind.mpr (Call.amid_require.mpr fun session _ ↦ ?_)
  cases hrevoked : session.isRevoked with
  | true =>
    simp only [if_true]
    exact (Call.amid_alone _ _).bind fun _ _ _ ↦ trivial
  | false =>
    simp only [Bool.false_eq_true, if_false]
    refine Call.amid_bind.mpr (Call.amid_alone_query.mpr ?_)
    refine Call.amid_bind.mpr (Call.amid_ensure.mpr fun _ ↦ ?_)
    refine Call.amid_bind.mpr (Call.amid_alone_query.mpr ?_)
    refine Call.amid_bind.mpr (Call.amid_require.mpr fun row hrow ↦ ?_)
    refine Call.amid_bind.mpr (Call.amid_ensure.mpr fun hactive ↦ ?_)
    have hnot := not_deactivated (List.mem_of_find?_eq_some hrow) hactive
    refine (Call.amid_alone _ _).bind fun newSessionId view _ ↦ ?_
    refine (Call.amid_alone _ _).bind fun permissions view _ ↦ ?_
    refine (Call.amid_alone _ _).bind fun signed view hsigned ↦ ?_
    refine (Call.amid_alone _ _).bind fun token view _ ↦ ?_
    refine (Call.amid_alone _ _).bind fun expiresAt view _ ↦ ?_
    refine (Call.amid_alone _ _).bind fun _ view _ ↦ ?_
    change ¬ Deactivated signed.1.sub db
    rwa [(signAccessToken_returns hsigned).1]

theorem switchTenant_alone (env : Env) (db : Db) (payload : JwtPayload) (targetTenantId : Uuid)
    (ipAddress : Option String) (denylistFirst : Bool) :
    (switchTenant env payload targetTenantId ipAddress denylistFirst).Amid .alone
      (fun issued _ ↦ ¬ Deactivated issued.accessToken.sub db) ⟨db, []⟩ := by
  refine Call.amid_bind.mpr (Call.amid_alone_query.mpr ?_)
  refine Call.amid_bind.mpr (Call.amid_require.mpr fun keycard _ ↦ ?_)
  refine Call.amid_bind.mpr (Call.amid_ensure.mpr fun _ ↦ ?_)
  refine Call.amid_bind.mpr (Call.amid_alone_query.mpr ?_)
  refine Call.amid_bind.mpr (Call.amid_require.mpr fun row hrow ↦ ?_)
  refine Call.amid_bind.mpr (Call.amid_ensure.mpr fun hactive ↦ ?_)
  have hnot := not_deactivated (List.mem_of_find?_eq_some hrow) hactive
  refine (Call.amid_alone _ _).bind fun permissions view _ ↦ ?_
  refine (Call.amid_alone _ _).bind fun newSessionId view _ ↦ ?_
  refine (Call.amid_alone _ _).bind fun signed view hsigned ↦ ?_
  refine (Call.amid_alone _ _).bind fun token view _ ↦ ?_
  refine (Call.amid_alone _ _).bind fun expiresAt view _ ↦ ?_
  refine (Call.amid_alone _ _).bind fun _ view _ ↦ ?_
  refine (Call.amid_alone _ _).bind fun _ view _ ↦ ?_
  change ¬ Deactivated signed.1.sub db
  rwa [(signAccessToken_returns hsigned).1]

theorem signup_alone (env : Env) (db : Db) (input : SignupInput) (ipAddress : Option String) :
    (signup env input ipAddress).Amid .alone
      (fun issued _ ↦ ¬ Deactivated issued.accessToken.sub db) ⟨db, []⟩ := by
  refine Call.amid_bind.mpr (Call.amid_alone_query.mpr ?_)
  refine Call.amid_bind.mpr (Call.amid_ensure.mpr fun _ ↦ ?_)
  refine (alone_of_leavesUsers (by simp) _).bind fun resolved view hview ↦ ?_
  refine (alone_of_leavesUsers (by simp) _).bind fun userId view hdrawn ↦ ?_
  refine (insertUser_alone (hdrawn.trans hview)).bind fun created view hcreated ↦ ?_
  refine (Call.amid_alone _ _).bind fun _ view _ ↦ ?_
  refine (Call.amid_alone _ _).bind fun _ view _ ↦ ?_
  refine (Call.amid_alone _ _).bind fun sessionId view _ ↦ ?_
  refine (Call.amid_alone _ _).bind fun memberships view _ ↦ ?_
  refine (Call.amid_alone _ _).bind fun permissions view _ ↦ ?_
  refine issueSession_alone.bind fun issued view hissued ↦ ?_
  refine (Call.amid_alone _ _).bind fun _ view _ ↦ ?_
  change ¬ Deactivated issued.accessToken.sub db
  rwa [hissued]

/-! ### `ssoLogin` alone -/

/-- `resolveSsoConnection` only reads. -/
theorem resolveSsoConnection_reads (env : Env) (email : String) (externalTenantId : Option String) :
    (resolveSsoConnection env email externalTenantId).Only fun db _ after ↦ after = db := by
  unfold resolveSsoConnection
  cases externalTenantId with
  | none => trivial
  | some externalTenantId =>
    refine Call.only_bind.mpr ⟨(Call.only_query _ _).mpr fun _ ↦ rfl, fun connection _ ↦ ?_⟩
    cases connection with
    | none => trivial
    | some connection => simp

/-- Assumes: user identifiers are distinct. A user is deactivated when their row is. -/
theorem deactivated_iff {db : Db} (hids : (db.users.map User.id).Nodup) {row : User}
    (hrow : row ∈ db.users) : Deactivated row.id db ↔ row.deactivated = true := by
  refine ⟨fun h ↦ h.2 row hrow rfl, fun h ↦ ⟨⟨row, hrow, rfl⟩, fun other hother hid ↦ ?_⟩⟩
  rw [List.inj_on_of_nodup_map hids hother hrow hid]
  exact h

/-- Assumes: user identifiers are distinct, and the identity is not linked. The slow path resolves a
deactivated user exactly when the user with the e-mail address is one. -/
theorem upsertBySsoIdentity_alone {env : Env} {db : Db} {signIn : SsoSignIn} (tenantId : Uuid)
    (hids : (db.users.map User.id).Nodup) (hunlinked : ¬ SsoLinked signIn.oid db)
    (hview : view.db = db) :
    (upsertBySsoIdentity env "entra" signIn.oid signIn.email signIn.displayName tenantId).Amid .alone
      (fun created _ ↦ ¬ Deactivated created.id db ↔
        ∀ row, userWithAddress env signIn db = some row → row.deactivated = false) view := by
  refine Call.amid_bind.mpr (Call.amid_alone_query.mpr ?_)
  rw [hview, find_eq_none_iff.mpr hunlinked]
  refine Call.amid_bind.mpr (Call.amid_alone_query.mpr ?_)
  dsimp only [View.after, userWithAddress]
  cases haddress : db.users.find? fun row ↦
      row.email = env.trim (env.toLowerCase signIn.email) ∧ row.deletedAt = none with
  | some row =>
    refine (Call.amid_alone _ _).bind fun id view _ ↦ ?_
    refine (Call.amid_alone _ _).bind fun _ view _ ↦ ?_
    change ¬ Deactivated row.id db ↔ _
    rw [deactivated_iff hids (List.mem_of_find?_eq_some haddress)]
    simp
  | none =>
    refine (alone_of_leavesUsers (by simp) _).bind fun userId view hview ↦ ?_
    refine (insertUser_alone hview).bind fun created view hcreated ↦ ?_
    refine (Call.amid_alone _ _).bind fun id view _ ↦ ?_
    refine (Call.amid_alone _ _).bind fun _ view _ ↦ ?_
    exact iff_of_true hcreated (by simp)

/-- Assumes: user identifiers are distinct. The user `ssoLogin` resolves is deactivated exactly when it
takes the slow path to a deactivated user. -/
theorem resolveSsoUser_alone {env : Env} {db : Db} (hids : (db.users.map User.id).Nodup)
    (signIn : SsoSignIn) :
    (resolveSsoUser env signIn.oid signIn.email signIn.displayName signIn.tid).Amid .alone
      (fun resolved _ ↦ ¬ Deactivated resolved.1.id db ↔ (¬ SsoLinked signIn.oid db →
        ∀ row, userWithAddress env signIn db = some row → row.deactivated = false)) ⟨db, []⟩ := by
  refine Call.amid_bind.mpr (Call.amid_alone_query.mpr ?_)
  cases hidentity : db.ssoIdentities.find? fun identity ↦
      identity.provider = "entra" ∧ identity.providerSub = signIn.oid with
  | some identity =>
    refine Call.amid_bind.mpr (Call.amid_alone_query.mpr ?_)
    refine Call.amid_bind.mpr (Call.amid_require.mpr fun row hrow ↦ ?_)
    refine Call.amid_bind.mpr (Call.amid_ensure.mpr fun hactive ↦ ?_)
    refine (Call.amid_alone _ _).bind fun memberships view _ ↦ ?_
    refine Call.amid_bind.mpr (Call.amid_require.mpr fun active _ ↦ ?_)
    exact iff_of_true (not_deactivated (List.mem_of_find?_eq_some hrow) hactive)
      fun hunlinked ↦ absurd (.of_find hidentity) hunlinked
  | none =>
    have hunlinked := find_eq_none_iff.mp hidentity
    refine (Call.amid_alone_of_reads (resolveSsoConnection_reads _ _ _) _).bind ?_
    refine fun connection view hview ↦ ?_
    refine Call.amid_bind.mpr (Call.amid_require.mpr fun tenantId _ ↦ ?_)
    refine (upsertBySsoIdentity_alone tenantId hids hunlinked hview).bind fun created view hcreated ↦ ?_
    have hresult : ¬ Deactivated created.id db ↔ (¬ SsoLinked signIn.oid db →
        ∀ row, userWithAddress env signIn db = some row → row.deactivated = false) :=
      hcreated.trans ⟨fun h _ ↦ h, fun h ↦ h hunlinked⟩
    refine (Call.amid_alone _ _).bind fun keycardId view _ ↦ ?_
    refine (Call.amid_alone _ _).bind fun _ view _ ↦ ?_
    cases connection with
    | none => exact hresult
    | some connection =>
      dsimp only
      split_ifs
      · exact (Call.amid_alone _ _).bind fun _ _ _ ↦ hresult
      · exact hresult

theorem ssoLogin_alone {env : Env} {db : Db} (hids : (db.users.map User.id).Nodup)
    (idToken : String) (ipAddress : Option String) :
    (ssoLogin env idToken ipAddress).Amid .alone (fun issued _ ↦ ¬ Deactivated issued.accessToken.sub db ↔
      (AuthRequest.ssoLogin idToken ipAddress).FindsActive env db) ⟨db, []⟩ := by
  rcases ssoLogin_cases env idToken ipAddress with ⟨failure, hfailure⟩ | ⟨signIn, hsignIn, hlogin⟩
  · rw [hfailure]
    trivial
  · rw [hlogin]
    refine (resolveSsoUser_alone hids signIn).bind fun resolved view hresolved ↦ ?_
    refine (Call.amid_alone _ _).mono fun issued _ hreturns ↦ ?_
    rw [(completeSsoLogin_returns hreturns).1, hresolved]
    simp [AuthRequest.FindsActive, hsignIn]

/-- Assumes: user identifiers are distinct. Of the calls that succeed when run alone, exactly those that
link a deactivated user by e-mail address issue tokens for one. -/
theorem run_deactivated_iff {env : Env} {db : Db} (hids : (db.users.map User.id).Nodup)
    {request : AuthRequest} {issued : LoginResult} {after : Db}
    (hrun : (request.serve env).run db = (.ok (some issued), after)) :
    ¬ Deactivated issued.accessToken.sub db ↔ request.FindsActive env db := by
  have hfree : ∀ {call : AuthCall LoginResult} {free : Prop}, free →
      call.Amid .alone (fun issued _ ↦ ¬ Deactivated issued.accessToken.sub db) ⟨db, []⟩ →
        call.Amid .alone (fun issued _ ↦ ¬ Deactivated issued.accessToken.sub db ↔ free) ⟨db, []⟩ :=
    fun hfree hcall ↦ hcall.mono fun _ _ h ↦ iff_of_true h hfree
  have hsilent : ∀ {call : AuthCall Unit}, call.Amid .alone (fun _ _ ↦ True) ⟨db, []⟩ :=
    fun {call} ↦ (Call.amid_alone call _).mono fun _ _ _ ↦ trivial
  have hamid : (request.serve env).Amid .alone (fun result _ ↦ ∀ issued, result = some issued →
      (¬ Deactivated issued.accessToken.sub db ↔ request.FindsActive env db)) ⟨db, []⟩ := by
    cases request with
    | login => exact (hfree trivial (login_alone _ _ _ _ _ _)).map_some
    | signup => exact (hfree trivial (signup_alone _ _ _ _)).map_some
    | ssoLogin => exact (ssoLogin_alone hids _ _).map_some
    | refresh => exact (hfree trivial (refresh_alone _ _ _ _)).map_some
    | switchTenant => exact (hfree trivial (switchTenant_alone _ _ _ _ _ _)).map_some
    | logout => exact hsilent.map_none
    | logoutAll => exact hsilent.map_none
    | resetPassword => exact hsilent.map_none
    | tick => exact hsilent.map_none
  obtain ⟨_, hissued⟩ := hamid.run (fun _ ↦ rfl) hrun
  exact hissued issued rfl

/-- A user who stays deactivated throughout a call gets no tokens from it and no session, whatever runs
in between, if an `ssoLogin` finds its identity linked throughout or leading elsewhere throughout. Of
the calls that succeed when run alone, exactly the others issue tokens for a deactivated user. -/
theorem deactivated_iff_checked (env : Env) (request : AuthRequest) :
    (∀ user linked view,
      (request.serve env).Amid (whileDeactivated user (request.ChecksStatus env user linked))
        (fun result _ ↦ ∀ issued, result = some issued → issued.accessToken.sub ≠ user) view) ∧
      ∀ db issued after, (db.users.map User.id).Nodup →
        (request.serve env).run db = (.ok (some issued), after) →
          (¬ Deactivated issued.accessToken.sub db ↔ request.FindsActive env db) :=
  ⟨fun user linked view ↦ amid_deactivated env user linked request view,
    fun _ _ _ hids hrun ↦ run_deactivated_iff hids hrun⟩

/-- A member who logs in with a password. -/
def memberLogin : AuthRequest := .login "ada@example.com" "secret" none true

/-- A witness that a call succeeds and the user it issues tokens for is not deactivated. -/
theorem deactivated_iff_checked_witness :
    ∃ issued after, (memberLogin.serve exampleEnv).run exampleDb = (.ok (some issued), after) ∧
      (¬ Deactivated issued.accessToken.sub exampleDb ↔
        memberLogin.FindsActive exampleEnv exampleDb) :=
  ⟨_, _, rfl, (deactivated_iff_checked exampleEnv memberLogin).2 exampleDb _ _ (by decide) rfl⟩

/-! ### A suspended user signs in -/

/-- An environment in which Entra accepts one token. -/
def entraEnv : Env :=
  { exampleEnv with
    verifyIdToken := fun token ↦ if token = "id-token" then
      some { oid := some "oid", email := some "ada@example.com", tid := some "directory" } else none }

/-- A tenant with an SSO connection, whose member is suspended and has never signed in with Entra. -/
def suspendedDb : Db :=
  { exampleDb with
    users := [{ id := 1, email := "ada@example.com", displayName := "Ada", passwordHash := none,
                status := .suspended }]
    ssoConnections := [{ id := 4, tenantId := 2, provider := "entra",
                         externalTenantId := "directory" }] }

/-- Their first sign-in links the identity by e-mail address and issues tokens. -/
theorem suspendedUserSignsIn :
    ¬ ∀ (env : Env) (request : AuthRequest) (db : Db) (user : Uuid) (issued : LoginResult) (after : Db),
      Deactivated user db → (request.serve env).run db = (.ok (some issued), after) →
        Deactivated user after →
          issued.accessToken.sub ≠ user ∧ ∀ session ∈ after.authSessions, session.userId ≠ user := by
  intro halways
  have hrun : ∃ issued after,
      ((AuthRequest.ssoLogin "id-token" none).serve entraEnv).run suspendedDb =
        (.ok (some issued), after) ∧ Deactivated 1 after ∧ issued.accessToken.sub = 1 :=
    ⟨_, _, rfl, by decide, by decide⟩
  obtain ⟨issued, after, hrun, hafter, hsub⟩ := hrun
  exact (halways _ _ _ 1 issued after (by decide) hrun hafter).1 hsub

end RallyApi.Identity

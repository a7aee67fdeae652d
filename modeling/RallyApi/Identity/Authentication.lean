import RallyApi.Concurrency.Conjunction
import RallyApi.Identity.PasswordCustody
import RallyApi.Identity.SsoLinks

/-!
# Whose sessions there are

A session is what a client holds once it has authenticated; the services never ask again who it is.
`SessionOf` says how a session of a user comes to be: it was there at the start, or somebody proved a
password in the custody of the user, signed up as the user, signed in with an account linked to the user,
bears an access token of the user, or has presented the refresh token of a session that itself came to be
so.

`reachable_authenticated`: in every run, every stored session is one of these, although its row is inserted
in a statement long after those that have checked the credentials, and other calls change passwords, link
accounts and revoke sessions in between. The custody of passwords and the links of accounts are the
protocols of their own modules, put together.
-/

set_option autoImplicit false
set_option relaxedAutoImplicit false

namespace RallyApi.Identity

open Concurrency Protocol Platform Store

variable {α : Type} {env : Env} {initial db after : Db} {requests : List AccountRequest} {number : ℕ}
  {user : User} {userId : Uuid} {tokenHash : TokenHash} {allowed : Uuid → TokenHash → Prop}

/-! ### How sessions come to be -/

/-- How a session of a user, with the hash of its refresh token, comes to be. Assumes: `initial` is the
store at the start, `requests` are those that have been made. -/
inductive SessionOf (env : Env) (initial : Db) (requests : List AccountRequest) (db : Db) :
    Uuid → TokenHash → Prop
  | initial (session : AuthSession) (hsession : session ∈ initial.authSessions) :
    SessionOf env initial requests db session.userId session.tokenHash
  | login (userId : Uuid) (email hash password : String) (ipAddress : Option String) (rememberMe : Bool)
      (tokenHash : TokenHash)
      (hrequest : .auth (.login email password ipAddress rememberMe) ∈ requests)
      (hcustody : MaySet env initial requests userId (normalised env email) hash db)
      (hverified : env.verifyPassword hash password = true) :
    SessionOf env initial requests db userId tokenHash
  | signup (userId : Uuid) (input : SignupInput) (ipAddress : Option String) (tokenHash : TokenHash)
      (hrequest : .auth (.signup input ipAddress) ∈ requests)
      (haccount : AccountAt userId (normalised env (normalised env input.email)) db) :
    SessionOf env initial requests db userId tokenHash
  | ssoLogin (userId : Uuid) (idToken oid : String) (ipAddress : Option String) (tokenHash : TokenHash)
      (hrequest : .auth (.ssoLogin idToken ipAddress) ∈ requests)
      (hoid : (env.verifyIdToken idToken).bind SsoClaims.oid = some oid)
      (hlinked : LinkedTo "entra" oid userId db) :
    SessionOf env initial requests db userId tokenHash
  | switchTenant (payload : JwtPayload) (targetTenantId : Uuid) (ipAddress : Option String)
      (denylistFirst : Bool) (tokenHash : TokenHash)
      (hrequest : .auth (.switchTenant payload targetTenantId ipAddress denylistFirst) ∈ requests) :
    SessionOf env initial requests db payload.sub tokenHash
  | refresh (userId : Uuid) (rawRefreshToken : RawToken) (ipAddress : Option String) (tokenHash : TokenHash)
      (hrequest : .auth (.refresh rawRefreshToken ipAddress) ∈ requests)
      (hpresented : SessionOf env initial requests db userId (env.hashToken rawRefreshToken)) :
    SessionOf env initial requests db userId tokenHash

/-- How a session has come to be stays so. By induction on how it has. -/
theorem SessionOf.mono (hsession : SessionOf env initial requests db userId tokenHash)
    (hgrows : Grows db after) (hlinks : KeepsLinks db after) :
    SessionOf env initial requests after userId tokenHash := by
  induction hsession with
  | initial session hsession => exact .initial session hsession
  | login userId email hash password ipAddress rememberMe tokenHash hrequest hcustody hverified =>
    exact .login userId email hash password ipAddress rememberMe tokenHash hrequest
      (Grows.maySet db after hgrows hcustody) hverified
  | signup userId input ipAddress tokenHash hrequest haccount =>
    exact .signup userId input ipAddress tokenHash hrequest (Grows.accountAt db after hgrows haccount)
  | ssoLogin userId idToken oid ipAddress tokenHash hrequest hoid hlinked =>
    exact .ssoLogin userId idToken oid ipAddress tokenHash hrequest hoid (hlinks.linkedTo db after hlinked)
  | switchTenant payload targetTenantId ipAddress denylistFirst tokenHash hrequest =>
    exact .switchTenant payload targetTenantId ipAddress denylistFirst tokenHash hrequest
  | refresh userId rawRefreshToken ipAddress tokenHash hrequest _ ih =>
    exact .refresh userId rawRefreshToken ipAddress tokenHash hrequest ih

/-! ### Steps that open sessions -/

/-- A step that opens no session but for the users, and with the hashes, that are allowed. -/
def OpensAllowed (allowed : Uuid → TokenHash → Prop) (db : Db) (_ : SessionStep) (after : Db) : Prop :=
  ∀ later ∈ after.authSessions, (∃ session ∈ db.authSessions,
    session.userId = later.userId ∧ session.tokenHash = later.tokenHash) ∨
      allowed later.userId later.tokenHash

theorem admits_of_eq {label : SessionStep} (hsame : after.authSessions = db.authSessions) :
    OpensAllowed allowed db label after :=
  fun later hlater ↦ .inl ⟨later, hsame ▸ hlater, rfl, rfl⟩

/-- Sessions are revoked. -/
theorem admits_of_revoke {label : SessionStep} {condition : AuthSession → Bool}
    (hsessions : after.authSessions =
      updateWhere condition (fun session ↦ { session with isRevoked := true }) db.authSessions) :
    OpensAllowed allowed db label after := by
  intro later hlater
  rw [hsessions] at hlater
  obtain ⟨session, hsession, rfl⟩ := mem_updateWhere.mp hlater
  refine .inl ⟨session, hsession, ?_⟩
  split_ifs <;> exact ⟨rfl, rfl⟩

/-- A session is inserted. -/
theorem admits_of_insert {label : SessionStep} {session : AuthSession} {sessions : List AuthSession}
    (hsessions : ∀ row ∈ sessions, ∃ old ∈ db.authSessions,
      old.userId = row.userId ∧ old.tokenHash = row.tokenHash)
    (hinsert : insertSession session sessions = .ok after.authSessions)
    (hallowed : allowed session.userId session.tokenHash) : OpensAllowed allowed db label after := by
  intro later hlater
  rw [(insertSession_ok hinsert).1] at hlater
  rcases List.mem_append.mp hlater with hold | hnew
  · exact .inl (hsessions later hold)
  · obtain rfl := List.mem_singleton.mp hnew
    exact .inr hallowed

/-- A session is revoked and another one inserted. -/
theorem admits_of_replace {label : SessionStep} {session : AuthSession} {id : Uuid}
    (hinsert : insertSession session (revokeRow id db.authSessions) = .ok after.authSessions)
    (hallowed : allowed session.userId session.tokenHash) : OpensAllowed allowed db label after := by
  refine admits_of_insert (fun row hrow ↦ ?_) hinsert hallowed
  obtain ⟨old, hold, rfl⟩ := mem_updateWhere.mp hrow
  refine ⟨old, hold, ?_⟩
  split_ifs <;> exact ⟨rfl, rfl⟩

/-- A call that leaves the sessions alone. -/
theorem admits_of_leaves {call : AuthCall α} (hcall : call.Only (Leaves .authSessions)) :
    call.Only (OpensAllowed allowed) :=
  hcall.mono fun _ _ _ hsame ↦ admits_of_eq hsame

theorem createSession_admits {session : AuthSession}
    (hallowed : allowed session.userId session.tokenHash) :
    (createSession session).Only (OpensAllowed allowed) := by
  refine Call.only_attempt _ _ (fun _ _ _ ↦ admits_of_eq rfl) fun db value after hrun ↦ ?_
  obtain ⟨sessions, hinsert, hrest⟩ := bind_eq_ok.mp hrun
  cases hrest
  exact admits_of_insert (fun row hrow ↦ ⟨row, hrow, rfl, rfl⟩) hinsert hallowed

theorem rotateSession_admits {presented successor : AuthSession}
    (hallowed : allowed successor.userId successor.tokenHash) :
    (rotateSession presented successor).Only (OpensAllowed allowed) := by
  refine Call.only_attempt _ _ (fun _ _ _ ↦ admits_of_eq rfl) fun db value after hrun ↦ ?_
  obtain ⟨sessions, hinsert, hrest⟩ := bind_eq_ok.mp hrun
  cases hrest
  exact admits_of_replace hinsert hallowed

theorem replaceSession_admits {oldId : Uuid} {session : AuthSession}
    (hallowed : allowed session.userId session.tokenHash) :
    (replaceSession oldId session).Only (OpensAllowed allowed) := by
  refine Call.only_attempt _ _ (fun _ _ _ ↦ admits_of_eq rfl) fun db value after hrun ↦ ?_
  obtain ⟨sessions, hinsert, hrest⟩ := bind_eq_ok.mp hrun
  cases hrest
  exact admits_of_replace hinsert hallowed

/-- The end of `login`, `signup` and `ssoLogin` opens a session of the user. -/
theorem issueSession_admits (hallowed : ∀ tokenHash, allowed user.id tokenHash) (sessionId : Uuid)
    (permissions : List String) (tenantId : Uuid) (authMethod : AuthMethod) (ttlSeconds : ℕ)
    (ipAddress ssoProvider : Option String) :
    (issueSession env user sessionId permissions tenantId authMethod ttlSeconds ipAddress
      ssoProvider).Only (OpensAllowed allowed) := by
  refine Call.only_bind.mpr ⟨admits_of_leaves (by simp), fun issued _ ↦ ?_⟩
  refine Call.only_bind.mpr ⟨admits_of_leaves (by simp), fun refresh _ ↦ ?_⟩
  refine Call.only_bind.mpr ⟨admits_of_leaves (by simp), fun expiresAt _ ↦ ?_⟩
  exact Call.only_bind.mpr ⟨createSession_admits (hallowed _), fun _ _ ↦ trivial⟩

/-! ### The protocol -/

/-- Every session of the store has come to be as it should. -/
def SessionsOf (env : Env) (initial : Db) (requests : List AccountRequest) (db : Db) : Prop :=
  ∀ session ∈ db.authSessions, SessionOf env initial requests db session.userId session.tokenHash

/-- The protocol: the custody of passwords, the links of accounts, and the sessions. -/
def authentic (env : Env) (initial : Db) (requests : List AccountRequest) : Protocol Db SessionStep :=
  ((custody env initial requests).both (linking initial)).extended (SessionsOf env initial requests)

/-- What is allowed comes to be as it should. -/
def AllowedOf (env : Env) (initial : Db) (requests : List AccountRequest)
    (allowed : Uuid → TokenHash → Prop) (world : World Db SessionStep) : Prop :=
  ∀ userId tokenHash, allowed userId tokenHash →
    SessionOf env initial requests world.db userId tokenHash

theorem persistent_sessionOf (allowed : Uuid → TokenHash → Prop) :
    ((custody env initial requests).both (linking initial)).Persistent
      (AllowedOf env initial requests allowed) :=
  fun _ _ _ _ _ hallowed hguarantee userId tokenHash hopens ↦
    (hallowed userId tokenHash hopens).mono hguarantee.1 hguarantee.2

/-- A call that meets the two protocols, and opens only sessions that are allowed. -/
theorem meets_authentic {call : AuthCall α} {pre otherPre : World Db SessionStep → Prop}
    {post otherPost : α → World Db SessionStep → Prop}
    (hcustody : (custody env initial requests).Meets number call pre post)
    (hlinks : (linking initial).Meets number call otherPre otherPost)
    (hopens : call.Only (OpensAllowed allowed)) :
    (authentic env initial requests).Meets number call
      (fun world ↦ (pre world ∧ otherPre world) ∧ AllowedOf env initial requests allowed world)
      fun value world ↦ (post value world ∧ otherPost value world) ∧
        AllowedOf env initial requests allowed world := by
  refine (hcustody.both hlinks).extended hopens (persistent_sessionOf allowed) ?_
  intro world label after _ hsessions hallowed hkeeps hstep later hlater
  rcases hstep later hlater with ⟨session, hsession, hsameUser, hsameHash⟩ | hopened
  · rw [← hsameUser, ← hsameHash]
    exact (hsessions session hsession).mono hkeeps.guarantee.1 hkeeps.guarantee.2
  · exact (hallowed _ _ hopened).mono hkeeps.guarantee.1 hkeeps.guarantee.2

/-- A step whose writes are accounted for, and that opens only sessions that are allowed. -/
def Opening (env : Env) (initial : Db) (requests : List AccountRequest)
    (allowed : Uuid → TokenHash → Prop) (db : Db) (label : SessionStep) (after : Db) : Prop :=
  AccountedStep env initial requests db label after ∧ OpensAllowed allowed db label after

theorem opening_of_leaves {call : AuthCall α} (husers : call.Only (Leaves .users))
    (htokens : call.Only (Leaves .passwordResetTokens)) (hsessions : call.Only (Leaves .authSessions)) :
    call.Only (Opening env initial requests allowed) :=
  (accounted_of_leaves husers htokens).and (admits_of_leaves hsessions)

/-- The end of `login`, `signup` and `ssoLogin`. -/
theorem opening_issueSession_bind {rest : LoginResult → AuthCall α}
    (hallowed : ∀ tokenHash, allowed user.id tokenHash) (sessionId : Uuid) (permissions : List String)
    (tenantId : Uuid) (authMethod : AuthMethod) (ttlSeconds : ℕ) (ipAddress ssoProvider : Option String)
    (husers : ∀ issued, (rest issued).Only (Leaves .users))
    (htokens : ∀ issued, (rest issued).Only (Leaves .passwordResetTokens))
    (hsessions : ∀ issued, (rest issued).Only (Leaves .authSessions)) :
    (issueSession env user sessionId permissions tenantId authMethod ttlSeconds ipAddress ssoProvider >>=
      rest).Only (Opening env initial requests allowed) :=
  Call.only_bind.mpr ⟨(issueSession_accounted _ _ _ _ _ _ _ _).and
    (issueSession_admits hallowed _ _ _ _ _ _ _),
    fun issued _ ↦ opening_of_leaves (husers issued) (htokens issued) (hsessions issued)⟩

/-- The rest of a call, once it is known for whom it may open a session. -/
theorem meets_opening {call : AuthCall α} (hopening : call.Only (Opening env initial requests allowed))
    (hlinks : call.Only (Leaves .ssoIdentities)) :
    (authentic env initial requests).Meets number call (AllowedOf env initial requests allowed)
      fun _ _ ↦ True :=
  (meets_authentic (meets_of_accounted (hopening.mono fun _ _ _ hstep ↦ hstep.1))
    (meets_leavesLinks hlinks (persistent_const True)) (hopening.mono fun _ _ _ hstep ↦ hstep.2)).conseq
    (fun _ _ hallowed ↦ ⟨⟨trivial, trivial⟩, hallowed⟩) fun _ _ _ _ ↦ trivial

/-- Nobody. -/
def nobody (_ : Uuid) (_ : TokenHash) : Prop := False

/-- A call that opens no session, and what is known of it under the two protocols. -/
theorem meets_quietly {call : AuthCall α} {post otherPost : α → World Db SessionStep → Prop}
    (hcustody : (custody env initial requests).Meets number call (fun _ ↦ True) post)
    (hlinks : (linking initial).Meets number call (fun _ ↦ True) otherPost)
    (hopens : call.Only (OpensAllowed nobody)) :
    (authentic env initial requests).Meets number call (fun _ ↦ True)
      fun value world ↦ post value world ∧ otherPost value world :=
  (meets_authentic hcustody hlinks hopens).conseq
    (fun _ _ _ ↦ ⟨⟨trivial, trivial⟩, fun _ _ hopened ↦ hopened.elim⟩) fun _ _ _ hpost ↦ hpost.1

/-- A call that leaves users, tokens, links and sessions alone. -/
theorem meets_leavesAll {call : AuthCall α} (husers : call.Only (Leaves .users))
    (htokens : call.Only (Leaves .passwordResetTokens)) (hlinks : call.Only (Leaves .ssoIdentities))
    (hsessions : call.Only (Leaves .authSessions)) :
    (authentic env initial requests).Meets number call (fun _ ↦ True) fun _ _ ↦ True :=
  (meets_quietly (meets_of_accounted (accounted_of_leaves husers htokens))
    (meets_leavesLinks hlinks (persistent_const True)) (admits_of_leaves hsessions)).conseq
    (fun _ _ h ↦ h) fun _ _ _ _ ↦ trivial

/-- A call that leaves them alone, once it is known for whom a later step may open a session. -/
theorem meets_keepsAllowed {call : AuthCall α} (husers : call.Only (Leaves .users))
    (htokens : call.Only (Leaves .passwordResetTokens)) (hlinks : call.Only (Leaves .ssoIdentities))
    (hsessions : call.Only (Leaves .authSessions)) :
    (authentic env initial requests).Meets number call (AllowedOf env initial requests allowed)
      fun _ ↦ AllowedOf env initial requests allowed :=
  ((meets_leavesAll husers htokens hlinks hsessions).frame (persistent_sessionOf allowed).extended).conseq
    (fun _ _ hallowed ↦ ⟨trivial, hallowed⟩) fun _ _ _ hpost ↦ hpost.2

/-! ### The flows -/

/-- Sessions of one user. -/
def forUser (id userId : Uuid) (_ : TokenHash) : Prop := userId = id

theorem login_authentic {email password : String} {ipAddress : Option String} {rememberMe : Bool}
    (hrequest : .auth (.login email password ipAddress rememberMe) ∈ requests) :
    (authentic env initial requests).Meets number (login env email password ipAddress rememberMe)
      (fun _ ↦ True) fun _ _ ↦ True := by
  refine (meets_quietly meets_findUser (meets_leavesLinks (by simp) (persistent_const True))
    (admits_of_leaves (by simp))).bind fun found _ ↦ meets_require.bind fun user _ ↦ ?_
  refine meets_require.bind fun hash _ ↦ meets_ensure.bind fun _ _ ↦ ?_
  refine meets_ensure.bind fun _ _ ↦ meets_ensure.bind fun _ _ ↦ ?_
  refine (meets_opening (?_ : Call.Only (Opening env initial requests (forUser user.id)) _)
    (by simp)).strengthen ?_
  · refine Call.only_bind.mpr ⟨opening_of_leaves (by simp) (by simp) (by simp), fun sessionId _ ↦ ?_⟩
    refine Call.only_bind.mpr ⟨opening_of_leaves (by simp) (by simp) (by simp), fun memberships _ ↦ ?_⟩
    refine Call.only_bind.mpr ⟨Call.only_require _ _, fun active _ ↦ ?_⟩
    refine Call.only_bind.mpr ⟨opening_of_leaves (by simp) (by simp) (by simp), fun permissions _ ↦ ?_⟩
    exact opening_issueSession_bind (fun _ ↦ rfl) _ _ _ _ _ _ _ (fun _ ↦ by simp) (fun _ ↦ by simp)
      fun _ ↦ by simp
  · intro world _ hpre userId tokenHash huser
    obtain ⟨⟨⟨⟨⟨⟨hfound, _⟩, hsome⟩, hhash⟩, _⟩, _⟩, hverified⟩ := hpre
    obtain ⟨hmatches, hmay⟩ := hfound user hash hsome hhash
    have hemail : user.email = normalised env email := (of_decide_eq_true hmatches).1
    obtain rfl : userId = user.id := huser
    exact .login user.id email hash password ipAddress rememberMe tokenHash hrequest (hemail ▸ hmay)
      hverified

/-- The user who has signed up is there. -/
theorem meets_insertUser {row : User} (hhash : ∀ db : Db, ∀ hash, row.passwordHash = some hash →
      HashOf env initial requests db.passwordResetTokens row.id row.email hash) :
    (custody env initial requests).Meets number (statement (insertUser row)) (fun _ ↦ True)
      fun inserted world ↦ inserted = row ∧ AccountAt row.id row.email world.db := by
  refine meets_attempt stable_true (fun world _ hinv _ _ _ ↦
    keeps_of_accounted hinv (accounted_of_same rfl rfl)) fun world value after hinv _ _ hrun ↦ ?_
  refine ⟨keeps_of_accounted hinv (accounted_of_insert hrun (hhash world.db)), ?_⟩
  unfold insertUser at hrun
  split_ifs at hrun
  cases hrun
  exact ⟨rfl, row, List.mem_append_right _ (List.mem_singleton_self row), rfl, rfl⟩

theorem signup_authentic {input : SignupInput} {ipAddress : Option String}
    (hrequest : .auth (.signup input ipAddress) ∈ requests) :
    (authentic env initial requests).Meets number (signup env input ipAddress) (fun _ ↦ True)
      fun _ _ ↦ True := by
  refine (meets_leavesAll (by simp [findByEmail]) (by simp [findByEmail]) (by simp [findByEmail])
    (by simp [findByEmail])).bind fun existing _ ↦ meets_ensure.bind fun _ _ ↦ ?_
  refine Meets.strengthen ?_ fun _ _ _ ↦ trivial
  refine (meets_leavesAll (by simp) (by simp) (by simp) (by simp)).bind fun resolved _ ↦ ?_
  refine (meets_leavesAll (by simp) (by simp) (by simp) (by simp)).bind fun newId _ ↦ ?_
  refine (meets_quietly (meets_insertUser fun _ hash hhash ↦ ?_) (meets_leavesLinks
    (insertUser_leaves (by decide) _) (persistent_const True))
    (admits_of_leaves (insertUser_leaves (by decide) _))).bind fun user _ ↦ ?_
  · obtain rfl := Option.some.inj hhash
    exact .signup newId input ipAddress hrequest
  refine (meets_opening (?_ : Call.Only (Opening env initial requests (forUser user.id)) _)
    (by simp)).strengthen ?_
  · refine Call.only_bind.mpr ⟨opening_of_leaves (by simp) (by simp) (by simp), fun _ _ ↦ ?_⟩
    refine Call.only_bind.mpr ⟨opening_of_leaves (by simp) (by simp) (by simp), fun _ _ ↦ ?_⟩
    refine Call.only_bind.mpr ⟨opening_of_leaves (by simp) (by simp) (by simp), fun sessionId _ ↦ ?_⟩
    refine Call.only_bind.mpr ⟨opening_of_leaves (by simp) (by simp) (by simp), fun memberships _ ↦ ?_⟩
    refine Call.only_bind.mpr ⟨opening_of_leaves (by simp) (by simp) (by simp), fun permissions _ ↦ ?_⟩
    exact opening_issueSession_bind (fun _ ↦ rfl) _ _ _ _ _ _ _ (fun _ ↦ by simp) (fun _ ↦ by simp)
      fun _ ↦ by simp
  · intro world _ hpre userId tokenHash huser
    obtain ⟨⟨rfl, haccount⟩, _⟩ := hpre
    obtain rfl : userId = newId := huser
    exact .signup userId input ipAddress tokenHash hrequest haccount

theorem ssoLogin_authentic {idToken : String} {ipAddress : Option String}
    (hrequest : .auth (.ssoLogin idToken ipAddress) ∈ requests) :
    (authentic env initial requests).Meets number (ssoLogin env idToken ipAddress) (fun _ ↦ True)
      fun _ _ ↦ True := by
  refine meets_ensure.bind fun _ _ ↦ meets_require.bind fun claims hclaims ↦ ?_
  refine meets_require.bind fun oid hoid ↦ meets_require.bind fun email _ ↦ ?_
  refine Meets.strengthen ?_ fun _ _ _ ↦ trivial
  refine (meets_quietly (meets_of_accounted ?_) meets_resolveSsoUser
    (admits_of_leaves (by simp))).bind fun resolved _ ↦ ?_
  · exact resolveSsoUser_only (fun _ ↦ accounted_of_same rfl rfl)
      (accounted_of_leaves (by simp) (by simp)) env _ _ _ _
      (fun _ ↦ upsertBySsoIdentity_accounted _ _ _ _ _)
      (fun _ _ _ ↦ accounted_of_leaves (by simp) (by simp))
      fun _ _ _ ↦ accounted_of_leaves (by simp) (by simp)
  refine (meets_opening (?_ : Call.Only (Opening env initial requests (forUser resolved.1.id)) _)
    (by simp)).strengthen ?_
  · refine Call.only_bind.mpr ⟨opening_of_leaves (by simp) (by simp) (by simp), fun _ _ ↦ ?_⟩
    refine Call.only_bind.mpr ⟨opening_of_leaves (by simp) (by simp) (by simp), fun sessionId _ ↦ ?_⟩
    refine Call.only_bind.mpr ⟨opening_of_leaves (by simp) (by simp) (by simp), fun permissions _ ↦ ?_⟩
    exact opening_issueSession_bind (fun _ ↦ rfl) _ _ _ _ _ _ _ (fun _ ↦ by simp) (fun _ ↦ by simp)
      fun _ ↦ by simp
  · intro world _ hpre userId tokenHash huser
    obtain rfl : userId = resolved.1.id := huser
    obtain ⟨hsome, _⟩ := Option.filter_eq_some_iff.mp (Call.returns_require.mp hoid)
    refine .ssoLogin resolved.1.id idToken oid ipAddress tokenHash hrequest ?_ hpre.2
    rw [Call.returns_require.mp hclaims]
    exact hsome

/-- The session whose refresh token is presented is one that has come to be as it should. -/
theorem meets_findByTokenHash : (authentic env initial requests).Meets number (findByTokenHash tokenHash)
    (fun _ ↦ True) fun found world ↦ ∀ session, found = some session →
      SessionOf env initial requests world.db session.userId tokenHash := by
  refine meets_query stable_true fun world hinv _ _ ↦
    ⟨⟨⟨?_, ?_⟩, ⟨?_, ?_⟩, hinv.2⟩, fun session hfound ↦ ?_⟩
  · exact (accounted_of_same rfl rfl : Accounted env initial requests _ _).toGrows
  · exact keepsLinks_of_eq rfl
  · exact hinv.1.1
  · exact hinv.1.2
  · have hmatches := List.find?_some hfound
    have hhash : session.tokenHash = tokenHash := of_decide_eq_true hmatches
    exact hhash ▸ hinv.2 session (List.mem_of_find?_eq_some hfound)

theorem revokeFamily_admits (familyId : Uuid) : (revokeFamily familyId).Only (OpensAllowed allowed) := by
  refine Call.only_bind.mpr ⟨(Call.only_query _ _).mpr fun _ ↦ admits_of_eq rfl, fun snapshot _ ↦ ?_⟩
  exact (Call.only_atomically _ _).mpr fun _ ↦ admits_of_revoke rfl

theorem refresh_authentic {rawRefreshToken : RawToken} {ipAddress : Option String}
    (hrequest : .auth (.refresh rawRefreshToken ipAddress) ∈ requests) :
    (authentic env initial requests).Meets number (refresh env rawRefreshToken ipAddress) (fun _ ↦ True)
      fun _ _ ↦ True := by
  refine meets_findByTokenHash.bind fun found _ ↦ meets_require.bind fun session hsome ↦ ?_
  have hfound := Call.returns_require.mp hsome
  split
  · refine Meets.strengthen ?_ fun _ _ _ ↦ trivial
    refine (meets_quietly (meets_of_accounted (accounted_of_leaves (by simp) (by simp)))
      (meets_leavesLinks (by simp) (persistent_const True)) (revokeFamily_admits _)).bind fun _ _ ↦ trivial
  refine Meets.strengthen (?_ : (authentic env initial requests).Meets number _
    (AllowedOf env initial requests (forUser session.userId)) _) ?_
  · refine (meets_keepsAllowed (by simp [currentTime]) (by simp [currentTime]) (by simp [currentTime])
      (by simp [currentTime])).bind fun now _ ↦ meets_ensure.bind fun _ _ ↦ ?_
    refine Meets.strengthen ?_ fun _ _ hpre ↦ hpre.1
    refine (meets_keepsAllowed (by simp [findUserById]) (by simp [findUserById]) (by simp [findUserById])
      (by simp [findUserById])).bind fun found hreturns ↦ meets_require.bind fun user huser ↦ ?_
    have hid := id_of_findUserById hreturns (Call.returns_require.mp huser)
    refine meets_ensure.bind fun _ _ ↦ Meets.strengthen ?_ fun _ _ hpre ↦ hpre.1.1
    rw [← hid]
    refine meets_opening ?_ (by simp)
    refine Call.only_bind.mpr ⟨opening_of_leaves (by simp) (by simp) (by simp), fun newSessionId _ ↦ ?_⟩
    refine Call.only_bind.mpr ⟨opening_of_leaves (by simp) (by simp) (by simp), fun permissions _ ↦ ?_⟩
    refine Call.only_bind.mpr ⟨opening_of_leaves (by simp) (by simp) (by simp), fun signed _ ↦ ?_⟩
    refine Call.only_bind.mpr ⟨opening_of_leaves (by simp) (by simp) (by simp), fun token _ ↦ ?_⟩
    refine Call.only_bind.mpr ⟨opening_of_leaves (by simp) (by simp) (by simp), fun expiresAt _ ↦ ?_⟩
    refine Call.only_bind.mpr ⟨?_, fun _ _ ↦ trivial⟩
    exact (accounted_of_leaves (by simp) (by simp)).and (rotateSession_admits rfl)
  · intro world _ hpre userId tokenHash huser
    obtain rfl : userId = session.userId := huser
    exact .refresh session.userId rawRefreshToken ipAddress tokenHash hrequest (hpre.1 session hfound)

theorem bothInOrder_admits {first second : AuthCall Unit} (hfirst : first.Only (OpensAllowed allowed))
    (hsecond : second.Only (OpensAllowed allowed)) (firstFirst : Bool) :
    (bothInOrder firstFirst first second).Only (OpensAllowed allowed) := by
  cases firstFirst with
  | true => exact Call.only_bind.mpr ⟨hfirst, fun _ _ ↦ hsecond⟩
  | false => exact Call.only_bind.mpr ⟨hsecond, fun _ _ ↦ hfirst⟩

theorem switchTenant_authentic {payload : JwtPayload} {targetTenantId : Uuid} {ipAddress : Option String}
    {denylistFirst : Bool}
    (hrequest : .auth (.switchTenant payload targetTenantId ipAddress denylistFirst) ∈ requests) :
    (authentic env initial requests).Meets number
      (switchTenant env payload targetTenantId ipAddress denylistFirst) (fun _ ↦ True) fun _ _ ↦ True := by
  refine (meets_leavesAll (by simp [findByUserAndTenant]) (by simp [findByUserAndTenant])
    (by simp [findByUserAndTenant]) (by simp [findByUserAndTenant])).bind fun found _ ↦ ?_
  refine meets_require.bind fun keycard _ ↦ meets_ensure.bind fun _ _ ↦ ?_
  refine Meets.strengthen ?_ fun _ _ _ ↦ trivial
  refine (meets_leavesAll (by simp [findUserById]) (by simp [findUserById]) (by simp [findUserById])
    (by simp [findUserById])).bind fun found hreturns ↦ meets_require.bind fun user huser ↦ ?_
  have hid := id_of_findUserById hreturns (Call.returns_require.mp huser)
  refine meets_ensure.bind fun _ _ ↦ ?_
  refine (meets_opening (?_ : Call.Only (Opening env initial requests (forUser payload.sub)) _)
    ?_).strengthen ?_
  · refine Call.only_bind.mpr ⟨opening_of_leaves (by simp) (by simp) (by simp), fun permissions _ ↦ ?_⟩
    refine Call.only_bind.mpr ⟨opening_of_leaves (by simp) (by simp) (by simp), fun newSessionId _ ↦ ?_⟩
    refine Call.only_bind.mpr ⟨opening_of_leaves (by simp) (by simp) (by simp), fun signed _ ↦ ?_⟩
    refine Call.only_bind.mpr ⟨opening_of_leaves (by simp) (by simp) (by simp), fun token _ ↦ ?_⟩
    refine Call.only_bind.mpr ⟨opening_of_leaves (by simp) (by simp) (by simp), fun expiresAt _ ↦ ?_⟩
    refine Call.only_bind.mpr ⟨(accounted_of_leaves (by simp) (by simp)).and ?_, fun _ _ ↦ ?_⟩
    · exact bothInOrder_admits (admits_of_leaves (by simp)) (replaceSession_admits hid) _
    · exact opening_of_leaves (by simp) (by simp) (by simp)
  · simp
  · intro world _ _ userId tokenHash hforUser
    obtain rfl : userId = payload.sub := hforUser
    exact .switchTenant payload targetTenantId ipAddress denylistFirst tokenHash hrequest

theorem logout_admits (payload : JwtPayload) (denylistFirst : Bool) :
    (logout payload denylistFirst).Only (OpensAllowed allowed) :=
  bothInOrder_admits (admits_of_leaves (by simp))
    ((Call.only_atomically _ _).mpr fun _ ↦ admits_of_revoke rfl) _

theorem logoutAll_admits (payload : JwtPayload) (denylistFirst : Bool) :
    (logoutAll payload denylistFirst).Only (OpensAllowed allowed) := by
  refine bothInOrder_admits (admits_of_leaves (by simp)) (Call.only_bind.mpr ⟨?_, fun snapshot _ ↦ ?_⟩) _
  · exact (Call.only_query _ _).mpr fun _ ↦ admits_of_eq rfl
  · exact (Call.only_atomically _ _).mpr fun _ ↦ admits_of_revoke rfl

theorem resetPassword_admits (rawToken : RawToken) (newPassword : String) :
    (resetPassword env rawToken newPassword).Only (OpensAllowed allowed) := by
  refine Call.only_bind.mpr ⟨admits_of_leaves (by simp [findPasswordResetToken]), fun found _ ↦ ?_⟩
  refine Call.only_bind.mpr ⟨Call.only_require _ _, fun record _ ↦ ?_⟩
  refine Call.only_bind.mpr ⟨Call.only_ensure _ _, fun _ _ ↦ ?_⟩
  refine Call.only_bind.mpr ⟨admits_of_leaves (by simp [currentTime]), fun now _ ↦ ?_⟩
  refine Call.only_bind.mpr ⟨Call.only_ensure _ _, fun _ _ ↦ ?_⟩
  refine Call.only_bind.mpr ⟨admits_of_leaves (by simp [findUserById]), fun found _ ↦ ?_⟩
  refine Call.only_bind.mpr ⟨Call.only_require _ _, fun _ _ ↦ ?_⟩
  refine Call.only_bind.mpr ⟨(Call.only_query _ _).mpr fun _ ↦ admits_of_eq rfl, fun snapshot _ ↦ ?_⟩
  exact (Call.only_atomically _ _).mpr fun _ ↦ admits_of_revoke rfl

/-- The requests about an account, apart from the authentication flows. -/
theorem account_leaves {table : Table} {resets : ResetConfig} {request : AccountRequest}
    (htable : table = .ssoIdentities ∨ table = .authSessions) (hother : ∀ flow, request ≠ .auth flow) :
    (request.serve env resets).Only (Leaves table) := by
  have huuids : table ≠ .uuids := by rcases htable with rfl | rfl <;> decide
  have htokens : table ≠ .rawTokens := by rcases htable with rfl | rfl <;> decide
  cases request with
  | auth flow => exact absurd rfl (hother flow)
  | getMe userId => exact Call.only_map (by simp [getMe, findUserById])
  | updateProfile userId input =>
    refine Call.only_map (Call.only_bind.mpr ⟨by simp [findUserById], fun _ _ ↦ ?_⟩)
    refine Call.only_bind.mpr ⟨Call.only_require _ _, fun _ _ ↦ ?_⟩
    refine statement_leaves fun db value after hrun ↦ ?_
    cases hrun
    rcases htable with rfl | rfl <;> rfl
  | changePassword userId currentPassword newPassword =>
    refine Call.only_map (Call.only_bind.mpr ⟨by simp [findUserById], fun _ _ ↦ ?_⟩)
    refine Call.only_bind.mpr ⟨Call.only_require _ _, fun _ _ ↦ ?_⟩
    refine Call.only_bind.mpr ⟨Call.only_require _ _, fun _ _ ↦ ?_⟩
    refine Call.only_bind.mpr ⟨Call.only_ensure _ _, fun _ _ ↦ ?_⟩
    refine statement_leaves fun db value after hrun ↦ ?_
    cases hrun
    rcases htable with rfl | rfl <;> rfl
  | forgotPassword email =>
    refine Call.only_map (Call.only_bind.mpr ⟨by simp [findByEmail], fun found _ ↦ ?_⟩)
    split
    · exact trivial
    refine Call.only_bind.mpr ⟨by simp [htokens], fun rawToken _ ↦ ?_⟩
    refine Call.only_bind.mpr ⟨by simp [addHours, currentTime], fun expiresAt _ ↦ ?_⟩
    refine Call.only_bind.mpr ⟨by simp, fun memberships _ ↦ ?_⟩
    refine Call.only_bind.mpr ⟨Call.only_require _ _, fun _ _ ↦ ?_⟩
    refine Call.only_bind.mpr ⟨by simp [huuids], fun id _ ↦ ?_⟩
    refine Call.only_bind.mpr ⟨statement_leaves fun db value after hrun ↦ ?_, fun _ _ ↦ trivial⟩
    obtain ⟨stored, hinsert, hrest⟩ := bind_eq_ok.mp hrun
    cases hrest
    unfold insertPasswordResetToken at hinsert
    split_ifs at hinsert
    cases hinsert
    rcases htable with rfl | rfl <;> rfl
  | verifyResetToken rawToken =>
    refine Call.only_map (Call.only_bind.mpr ⟨by simp [findPasswordResetToken], fun record _ ↦ ?_⟩)
    split
    · exact trivial
    · split_ifs <;> simp [currentTime]

/-- The requests that may open a session or link an account. -/
def AccountRequest.Admits : AccountRequest → Prop
  | .auth (.login _ _ _ _) | .auth (.signup _ _) | .auth (.ssoLogin _ _) => True
  | .auth (.refresh _ _) | .auth (.switchTenant _ _ _ _) => True
  | _ => False

theorem quiet_of_not_admits {resets : ResetConfig} {request : AccountRequest} (hquiet : ¬ request.Admits) :
    (request.serve env resets).Only (Leaves .ssoIdentities) ∧
      (request.serve env resets).Only (OpensAllowed allowed) := by
  cases request with
  | auth flow =>
    cases flow with
    | logout payload denylistFirst =>
      exact ⟨Call.only_map (auth_leavesLinks fun _ _ ↦ by simp),
        Call.only_map (Call.only_map (logout_admits payload denylistFirst))⟩
    | logoutAll payload denylistFirst =>
      exact ⟨Call.only_map (auth_leavesLinks fun _ _ ↦ by simp),
        Call.only_map (Call.only_map (logoutAll_admits payload denylistFirst))⟩
    | resetPassword rawToken newPassword =>
      have hlinks : ((AuthRequest.resetPassword rawToken newPassword).serve env).Only
          (Leaves .ssoIdentities) := auth_leavesLinks fun _ _ ↦ by simp
      exact ⟨Call.only_map (Call.only_bind.mp hlinks).1,
        Call.only_map (resetPassword_admits rawToken newPassword)⟩
    | tick milliseconds =>
      exact ⟨Call.only_map (auth_leavesLinks fun _ _ ↦ by simp),
        Call.only_map (admits_of_leaves (by simp [AuthRequest.serve]))⟩
    | _ => exact absurd trivial hquiet
  | _ =>
    exact ⟨account_leaves (.inl rfl) fun _ ↦ by simp,
      admits_of_leaves (account_leaves (.inr rfl) fun _ ↦ by simp)⟩

/-- Every request keeps the protocol. -/
theorem serve_authentic {resets : ResetConfig} {request : AccountRequest} (hrequest : request ∈ requests) :
    (authentic env initial requests).Meets number (request.serve env resets) (fun _ ↦ True)
      fun _ _ ↦ True := by
  by_cases hopens : request.Admits
  · cases request with
    | auth flow =>
      cases flow with
      | login email password ipAddress rememberMe => exact (login_authentic hrequest).map.map
      | signup input ipAddress => exact (signup_authentic hrequest).map.map
      | ssoLogin idToken ipAddress => exact (ssoLogin_authentic hrequest).map.map
      | refresh rawRefreshToken ipAddress => exact (refresh_authentic hrequest).map.map
      | switchTenant payload targetTenantId ipAddress denylistFirst =>
        exact (switchTenant_authentic hrequest).map.map
      | _ => exact hopens.elim
    | _ => exact hopens.elim
  · have hlogin : ∀ email password ipAddress rememberMe,
        request ≠ .auth (.login email password ipAddress rememberMe) := by
      rintro email password ipAddress rememberMe rfl
      exact hopens trivial
    obtain ⟨hlinks, hquiet⟩ := quiet_of_not_admits hopens
    exact (meets_quietly (meets_other hrequest hlogin) (meets_leavesLinks hlinks (persistent_const True))
      hquiet).conseq (fun _ _ h ↦ h) fun _ _ _ _ ↦ trivial

/-! ### Runs -/

variable {resets : ResetConfig} {config : AccountRun}

/-- The protocol permits every step. -/
theorem permits_authentic : (authentic env initial requests).permits = anyStep :=
  funext fun _ ↦ funext fun _ ↦ and_self True

/-- The user logs in, refreshes, signs in with Entra, which links the account, and logs out of the second
session. The refresh and the sign-in overlap. -/
def loginRefreshAndLink : List (Choice AccountRequest) :=
  .start (.auth (.login "ada@example.com" "secret" none true)) :: finish 0 ++
    [.start (.auth (.refresh 0 none)), .start (.auth (.ssoLogin "phone" none)), .resume 1, .resume 2] ++
    finish 2 ++ finish 1

/-- The configuration the run ends in. -/
def authenticatedRun : AccountRun :=
  (Concurrency.Config.initial unlinkedDb).play (AccountRequest.serve directoryEnv {}) loginRefreshAndLink

/-- Assumes: at the start, no two users have one identifier, and no two links are of one account. In every
configuration, every session has come to be as it should. -/
theorem reachable_authenticated (hids : (initial.users.map User.id).Nodup)
    (hdistinct : (initial.ssoIdentities.map SsoIdentity.account).Nodup)
    (hreach : ReachableBy (AccountRequest.serve env resets) anyStep initial requests config) :
    ∀ session ∈ config.db.authSessions,
      SessionOf env initial requests config.db session.userId session.tokenHash := by
  have hpermitted : ReachableBy (AccountRequest.serve env resets) (authentic env initial requests).permits
      initial requests config := permits_authentic ▸ hreach
  have hkept := reachableBy_kept (fun _ _ ↦ stable_true) (fun number request hrequest ↦
      (serve_authentic (List.mem_of_getElem? hrequest)).strengthen fun _ _ _ ↦ trivial)
    ⟨⟨custody_initial hids, hdistinct, keepsLinks_of_eq rfl⟩,
      fun session hsession ↦ .initial session hsession⟩
    hpermitted (List.prefix_refl _)
  exact hkept.invariant.2

/-- A witness: the session of the login, the one it was refreshed to, and the one of the sign-in. -/
theorem reachable_authenticated_witness :
    (∀ session ∈ authenticatedRun.db.authSessions,
      SessionOf directoryEnv unlinkedDb (requestsOf loginRefreshAndLink) authenticatedRun.db session.userId
        session.tokenHash) ∧
      authenticatedRun.db.authSessions.map (fun session ↦ (session.userId, session.isRevoked)) =
        [(1, true), (1, false), (1, false)] :=
  ⟨reachable_authenticated (by decide) (by decide) (play_reachableBy _ _ _), by decide +kernel⟩

end RallyApi.Identity

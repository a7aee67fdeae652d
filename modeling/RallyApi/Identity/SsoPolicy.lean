import RallyApi.Identity.Deactivation

/-!
# The policy of an SSO connection

The slow path of `ssoLogin` rejects a token whose directory has a connection that is disabled or whose
connection does not allow its e-mail domain (`ViolatesPolicy`). The fast path, for identities that are
linked already, never looks at the connection: a linked user signs in through a disabled connection
(`linkedUserSignsIn`).

A token that violates the policy is rejected, whatever runs in between, as long as its identity is not
linked (`amid_violating`). Run alone, `ssoLogin` rejects it exactly when the fast path is closed to it
for a reason of its own (`rejects_iff`).
-/

set_option autoImplicit false
set_option relaxedAutoImplicit false

namespace RallyApi.Identity

open Concurrency Platform Store

/-! ### The policy -/

/-- The connection of a directory. -/
def ssoConnection (tid : String) (db : Db) : Option SsoConnection :=
  db.ssoConnections.find? fun connection ↦
    connection.provider = "entra" ∧ connection.externalTenantId = tid

/-- The directory of the token has a connection that is not active or does not allow its e-mail
domain. -/
def ViolatesPolicy (env : Env) (signIn : SsoSignIn) (db : Db) : Prop :=
  ∃ tid connection, signIn.tid = some tid ∧ ssoConnection tid db = some connection ∧
    (connection.status ≠ .active ∨
      isEmailDomainAllowed env signIn.email connection.allowedEmailDomains = false)

/-- The call fails and creates no session. -/
def Rejects {α : Type} (call : AuthCall α) (db : Db) : Prop :=
  ∃ failure after, call.run db = (.error failure, after) ∧ after.authSessions = db.authSessions

/-- The user has an active keycard for some tenant. -/
def HasMembership (user : Uuid) (db : Db) : Prop :=
  ∃ member ∈ db.tenantMembers, (member.userId = user ∧ member.status = .active) ∧
    ∃ tenant ∈ db.tenants, tenant.id = member.tenantId

/-- The identity is linked to a live user who is not deactivated and has a membership. -/
def LeadsToMember (signIn : SsoSignIn) (db : Db) : Prop :=
  ∃ identity, (db.ssoIdentities.find? fun identity ↦
      identity.provider = "entra" ∧ identity.providerSub = signIn.oid) = some identity ∧
    ∃ row, (db.users.find? fun row ↦ row.id = identity.userId ∧ row.deletedAt = none) = some row ∧
      ¬ row.deactivated = true ∧ HasMembership row.id db

/-- The fast path is open: the identity leads to a member, and access tokens can be signed. -/
structure FastPathOpen (env : Env) (signIn : SsoSignIn) (db : Db) : Prop where
  configured : env.config.entraConfigured = true
  member : LeadsToMember signIn db
  signs : (parseDurationToSeconds env.config.jwtAccessExpiry).isSome = true

/-- Identifiers and refresh tokens that are about to be drawn are not in use. -/
structure Unused (env : Env) (db : Db) : Prop where
  sessions : ∀ session ∈ db.authSessions, session.id < db.nextUuid
  hash : ∀ session ∈ db.authSessions, session.tokenHash ≠ env.hashToken db.nextToken
  assignments : ∀ row ∈ db.userRoleAssignments, row.id < db.nextUuid

/-! ### The slow path -/

/-- Surroundings in which the token violates the policy throughout, and its identity is not linked; the
call must open no session. -/
def whileViolating (env : Env) (signIn : SsoSignIn) : Surroundings Db SessionStep where
  rely _ found := ViolatesPolicy env signIn found ∧ ¬ SsoLinked signIn.oid found
  guarantee := OpensFor fun _ ↦ False

/-- A read opens no session. -/
theorem opens_none (env : Env) (signIn : SsoSignIn) (db : Db) :
    (whileViolating env signIn).guarantee db .other db :=
  fun _ hsession ↦ .inl (List.mem_map_of_mem hsession)

/-- Assumes: in every store it may find, the token violates the policy. The slow path rejects it at its
first check. -/
theorem resolveSsoConnection_violating {env : Env} {signIn : SsoSignIn} {view : View Db SessionStep}
    {around : Surroundings Db SessionStep} {post : Option (Uuid × String) → View Db SessionStep → Prop}
    (htid : signIn.tid.isSome = true)
    (hrely : ∀ found, around.rely view found →
      ViolatesPolicy env signIn found ∧ around.guarantee found .other found) :
    (resolveSsoConnection env signIn.email signIn.tid).Amid around post view := by
  obtain ⟨externalTenantId, htid⟩ := Option.isSome_iff_exists.mp htid
  rw [htid]
  refine Call.amid_bind.mpr (Call.amid_query.mpr fun found hfound ↦ ?_)
  obtain ⟨⟨tid, connection, hsome, hconnection, hviolates⟩, hguarantee⟩ := hrely found hfound
  obtain rfl : externalTenantId = tid := Option.some.inj (htid.symm.trans hsome)
  refine ⟨hguarantee, ?_⟩
  unfold ssoConnection at hconnection
  simp only [hconnection]
  refine Call.amid_bind.mpr (Call.amid_ensure.mpr fun hactive ↦ ?_)
  refine Call.amid_bind.mpr (Call.amid_ensure.mpr fun hallowed ↦ ?_)
  rcases hviolates with hstatus | hdomain
  · exact absurd hactive hstatus
  · rw [hdomain] at hallowed
    cases hallowed

/-- Whatever runs in between, a token that violates the policy throughout is rejected and opens no
session, if its identity is not linked throughout. -/
theorem amid_violating {env : Env} {idToken : String} {signIn : SsoSignIn}
    (hsignIn : ssoSignIn env idToken = some signIn) (ipAddress : Option String)
    (view : View Db SessionStep) :
    (ssoLogin env idToken ipAddress).Amid (whileViolating env signIn) (fun _ _ ↦ False) view := by
  by_cases hconfigured : env.config.entraConfigured = true
  · rw [ssoLogin_eq hconfigured hsignIn]
    refine Call.amid_bind.mpr (Call.amid_bind.mpr (Call.amid_query.mpr fun found hfound ↦ ?_))
    refine ⟨opens_none env signIn found, ?_⟩
    rw [find_eq_none_iff.mpr hfound.2]
    obtain ⟨tid, _, htid, _⟩ := hfound.1
    refine Call.amid_bind.mpr (resolveSsoConnection_violating (by simp [htid]) fun found hfound ↦ ?_)
    exact ⟨hfound.1, opens_none env signIn found⟩
  · obtain ⟨failure, hfailure⟩ := ssoLogin_rejected env idToken ipAddress (absurd · hconfigured)
    rw [hfailure]
    trivial

/-! ### A call that is rejected when run alone -/

variable {α β : Type} {env : Env} {db : Db} {signIn : SsoSignIn}

/-- A call that takes only quiet steps and never returns. -/
theorem rejects_of_quiet {call : AuthCall α} (hquiet : call.Only Quiet)
    (hnever : call.Amid .alone (fun _ _ ↦ False) ⟨db, []⟩) : Rejects call db := by
  have hsessions := hquiet.run_keeps (fun after ↦ after.authSessions = db.authSessions)
    (fun _ _ _ hsame hstep ↦ hstep.1.trans hsame) rfl
  rcases hrun : call.run db with ⟨outcome, after⟩
  rw [hrun] at hsessions
  cases outcome with
  | error failure => exact ⟨failure, after, hrun, hsessions⟩
  | ok value => exact (hnever.run (fun _ ↦ rfl) hrun).elim fun _ h ↦ h.elim

/-- What follows a rejected part is not run. -/
theorem Rejects.bind {call : AuthCall α} (hrejects : Rejects call db) (rest : α → AuthCall β) :
    Rejects (call >>= rest) db := by
  obtain ⟨failure, after, hrun, hsessions⟩ := hrejects
  exact ⟨failure, after, by rw [Call.run_bind, hrun], hsessions⟩

/-- A user has memberships exactly when they have an active keycard for some tenant. -/
theorem memberships_ne_nil {userId : Uuid} {memberships : List TenantMembership}
    (hread : (findByUserId userId).run db = (.ok memberships, db)) :
    memberships ≠ [] ↔ HasMembership userId db := by
  have hleft : ∀ {Row : Type} (condition : Row → Bool) (rows : List Row),
      ∃ row, row ∈ leftJoin condition rows := by
    intro Row condition rows
    unfold leftJoin
    split
    · exact ⟨none, List.mem_singleton.mpr rfl⟩
    · rename_i hne
      obtain ⟨row, hrow⟩ := List.exists_mem_of_ne_nil _ hne
      exact ⟨some row, List.mem_map_of_mem hrow⟩
  obtain rfl := Except.ok.inj (Prod.mk.inj hread).1
  simp only [ne_eq, List.eq_nil_iff_forall_not_mem, List.mem_insertionSort, not_forall, not_not,
    List.bind_eq_flatMap, List.mem_flatMap, List.mem_filter, decide_eq_true_eq, List.pure_def,
    List.mem_singleton, HasMembership]
  constructor
  · rintro ⟨_, member, ⟨hmember, hactive⟩, tenant, ⟨htenant, hid⟩, _⟩
    exact ⟨member, hmember, hactive, tenant, htenant, hid⟩
  · rintro ⟨member, hmember, hactive, tenant, htenant, hid⟩
    obtain ⟨assignment, hassignment⟩ := hleft (fun row : UserRoleAssignment ↦
      row.userId = member.userId ∧ row.tenantId = member.tenantId ∧ row.scopeType = .workspace)
      db.userRoleAssignments
    obtain ⟨role, hrole⟩ := hleft (fun row : SystemRole ↦
      some row.id = assignment.map (·.roleId)) db.systemRoles
    exact ⟨_, member, ⟨hmember, hactive⟩, tenant, ⟨htenant, hid⟩, assignment, hassignment, role,
      hrole, rfl⟩

/-- Assumes: the token violates the policy. Without a member to lead to, no user is resolved. -/
theorem resolveSsoUser_never (hviolates : ViolatesPolicy env signIn db)
    (hclosed : ¬ LeadsToMember signIn db) :
    (resolveSsoUser env signIn.oid signIn.email signIn.displayName signIn.tid).Amid .alone
      (fun _ _ ↦ False) ⟨db, []⟩ := by
  refine Call.amid_bind.mpr (Call.amid_alone_query.mpr ?_)
  cases hidentity : db.ssoIdentities.find? fun identity ↦
      identity.provider = "entra" ∧ identity.providerSub = signIn.oid with
  | none =>
    obtain ⟨tid, _, htid, _⟩ := id hviolates
    refine Call.amid_bind.mpr (resolveSsoConnection_violating (by simp [htid]) fun found hfound ↦ ?_)
    obtain rfl : found = db := hfound
    exact ⟨hviolates, trivial⟩
  | some identity =>
    refine Call.amid_bind.mpr (Call.amid_alone_query.mpr ?_)
    refine Call.amid_bind.mpr (Call.amid_require.mpr fun row hrow ↦ ?_)
    refine Call.amid_bind.mpr (Call.amid_ensure.mpr fun hactive ↦ ?_)
    refine Call.amid_bind.mpr (Call.amid_alone_query.mpr ?_)
    refine Call.amid_bind.mpr (Call.amid_require.mpr fun active hhead ↦ ?_)
    refine hclosed ⟨identity, hidentity, row, hrow, hactive, ?_⟩
    exact (memberships_ne_nil rfl).mp (List.ne_nil_of_mem (List.mem_of_mem_head? hhead))

/-- Assumes: access tokens cannot be signed. Issuing a session stops there. -/
theorem signAccessToken_never {user : User} {sessionId tenantId : Uuid} {permissions : List String}
    {authMethod : AuthMethod} {signed : JwtPayload × ℕ}
    (hunsigned : parseDurationToSeconds env.config.jwtAccessExpiry = none) :
    ¬ (signAccessToken env user sessionId permissions tenantId authMethod).Returns signed := by
  intro hreturns
  obtain ⟨jti, _, hrest⟩ := hreturns.of_bind
  obtain ⟨expiresIn, hexpires, _⟩ := hrest.of_bind
  rw [Call.returns_require, hunsigned] at hexpires
  cases hexpires

theorem completeSsoLogin_never {ipAddress : Option String} {user : User} {tenantId : Uuid}
    (hunsigned : parseDurationToSeconds env.config.jwtAccessExpiry = none) :
    (completeSsoLogin env ipAddress user tenantId).Only Quiet ∧
      ∀ issued, ¬ (completeSsoLogin env ipAddress user tenantId).Returns issued := by
  have hissue : ∀ sessionId permissions, (issueSession env user sessionId permissions tenantId .sso
      (refreshTtlSeconds env.config.jwtRefreshExpiry) ipAddress (some "entra")).Only Quiet ∧
        ∀ issued, ¬ (issueSession env user sessionId permissions tenantId .sso
          (refreshTtlSeconds env.config.jwtRefreshExpiry) ipAddress (some "entra")).Returns issued := by
    intro sessionId permissions
    refine ⟨Call.only_bind.mpr ⟨signAccessToken_quiet _ _ _ _ _ _, fun signed hsigned ↦
      absurd hsigned (signAccessToken_never hunsigned)⟩, fun issued hissued ↦ ?_⟩
    obtain ⟨signed, hsigned, _⟩ := hissued.of_bind
    exact signAccessToken_never hunsigned hsigned
  constructor
  · simp only [completeSsoLogin, Call.only_bind, bootstrapPlatformAdmin_quiet, uuidv7_quiet,
      getUserPermissions_quiet, true_and]
    exact fun _ _ sessionId _ permissions _ ↦ ⟨(hissue _ _).1, fun issued hissued ↦
      absurd hissued ((hissue _ _).2 issued)⟩
  · intro issued hreturns
    obtain ⟨_, _, hrest⟩ := hreturns.of_bind
    obtain ⟨sessionId, _, hrest⟩ := hrest.of_bind
    obtain ⟨permissions, _, hrest⟩ := hrest.of_bind
    obtain ⟨opened, hopened, _⟩ := hrest.of_bind
    exact (hissue _ _).2 opened hopened

/-- Assumes: the token violates the policy, and the fast path is closed. `ssoLogin` rejects it. -/
theorem ssoLogin_rejects {idToken : String} (hsignIn : ssoSignIn env idToken = some signIn)
    (hviolates : ViolatesPolicy env signIn db) (hclosed : ¬ FastPathOpen env signIn db)
    (ipAddress : Option String) : Rejects (ssoLogin env idToken ipAddress) db := by
  by_cases hconfigured : env.config.entraConfigured = true
  · rw [ssoLogin_eq hconfigured hsignIn]
    by_cases hmember : LeadsToMember signIn db
    · have hunsigned : parseDurationToSeconds env.config.jwtAccessExpiry = none := by
        rw [← Option.not_isSome_iff_eq_none]
        exact fun hsigns ↦ hclosed ⟨hconfigured, hmember, hsigns⟩
      refine rejects_of_quiet (Call.only_bind.mpr ⟨resolveSsoUser_quiet _ _ _ _ _, fun resolved _ ↦
        (completeSsoLogin_never hunsigned).1⟩) ?_
      refine (Call.amid_alone _ _).mono fun issued _ hreturns ↦ ?_
      obtain ⟨resolved, _, hcompleted⟩ := hreturns.of_bind
      exact (completeSsoLogin_never hunsigned).2 issued hcompleted
    · exact (rejects_of_quiet (resolveSsoUser_quiet _ _ _ _ _)
        (resolveSsoUser_never hviolates hmember)).bind _
  · obtain ⟨failure, hfailure⟩ := ssoLogin_rejected env idToken ipAddress (absurd · hconfigured)
    exact ⟨failure, db, by rw [hfailure]; rfl, rfl⟩

/-! ### Through the fast path -/

/-- What a session needs of the store it is inserted into. -/
structure Insertable (env : Env) (db : Db) : Prop where
  sessions : ∀ session ∈ db.authSessions, session.id < db.nextUuid
  hash : ∀ session ∈ db.authSessions, session.tokenHash ≠ env.hashToken db.nextToken

/-- A quiet step that draws no token keeps it. -/
theorem Insertable.quiet {after : Db} {label : SessionStep} (hinsertable : Insertable env db)
    (hstep : Quiet db label after ∧ Leaves .rawTokens db label after) : Insertable env after := by
  obtain ⟨⟨hsessions, hnext⟩, htoken⟩ := hstep
  have htoken : after.nextToken = db.nextToken := htoken
  have hnext : db.nextUuid ≤ after.nextUuid := by
    rcases hnext with ⟨_, hsame⟩ | ⟨_, hsucc⟩
    · exact hsame.ge
    · exact hsucc ▸ Nat.le_succ _
  constructor
  · intro session hsession
    exact Nat.lt_of_lt_of_le (hinsertable.sessions session (hsessions ▸ hsession)) hnext
  · intro session hsession
    rw [htoken]
    exact hinsertable.hash session (hsessions ▸ hsession)

theorem createRoleAssignment_succeeds {assignment : UserRoleAssignment}
    (hid : ∀ row ∈ db.userRoleAssignments, row.id ≠ assignment.id)
    (hscope : assignment.scopeId = none) :
    (createRoleAssignment assignment).Succeeds (fun _ _ ↦ True) db :=
  Call.succeeds_attempt ((if_neg (not_any_of_not hid)).trans (if_neg (by simp [hscope]))) trivial

/-- Assigning the default role succeeds. Assumes: the identifiers of the assignments have been drawn. -/
theorem ensureDefaultRole_succeeds {userId tenantId : Uuid} {defaultRoleSlug : String}
    (hassignments : ∀ row ∈ db.userRoleAssignments, row.id < db.nextUuid) :
    (ensureDefaultRole userId tenantId defaultRoleSlug).Succeeds (fun _ _ ↦ True) db := by
  refine Call.succeeds_bind_query ?_
  split_ifs
  · exact Call.succeeds_pure trivial
  · refine Call.succeeds_bind_query ?_
    split
    · exact Call.succeeds_pure trivial
    · exact Call.succeeds_bind_atomically (createRoleAssignment_succeeds
        (fun row hrow ↦ uuidSource.ne_next (hassignments row hrow)) rfl)

theorem bootstrapPlatformAdmin_succeeds {user : User} {tenantId : Uuid}
    (hassignments : ∀ row ∈ db.userRoleAssignments, row.id < db.nextUuid) :
    (bootstrapPlatformAdmin env user tenantId).Succeeds (fun _ _ ↦ True) db := by
  unfold bootstrapPlatformAdmin
  dsimp only
  split_ifs
  · exact ensureDefaultRole_succeeds hassignments
  · exact Call.succeeds_pure trivial

theorem getUserPermissions_succeeds {userId tenantId : Uuid} :
    (getUserPermissions userId tenantId).Succeeds (fun _ after ↦ after = db) db := by
  refine Call.succeeds_bind_query ?_
  split
  · exact Call.succeeds_pure rfl
  · exact Call.succeeds_bind_query (Call.succeeds_pure rfl)

theorem createSession_succeeds {session : AuthSession}
    (hid : ∀ row ∈ db.authSessions, row.id ≠ session.id)
    (hhash : ∀ row ∈ db.authSessions, row.tokenHash ≠ session.tokenHash) :
    (createSession session).Succeeds (fun _ _ ↦ True) db := by
  have hinsert : insertSession { session with createdAt := db.now } db.authSessions =
      .ok (db.authSessions ++ [{ session with createdAt := db.now }]) :=
    (if_neg (not_any_of_not hid)).trans (if_neg (not_any_of_not hhash))
  refine Call.succeeds_attempt (bind_eq_ok.mpr ⟨_, hinsert, rfl⟩) trivial

/-- Issuing a session succeeds. Assumes: access tokens can be signed, and neither the identifier of the
session nor the next refresh token is in use. -/
theorem issueSession_succeeds {user : User} {sessionId tenantId : Uuid} {permissions : List String}
    {authMethod : AuthMethod} {ttlSeconds : ℕ} {ipAddress ssoProvider : Option String}
    (hsigns : (parseDurationToSeconds env.config.jwtAccessExpiry).isSome = true)
    (hid : ∀ session ∈ db.authSessions, session.id ≠ sessionId)
    (hhash : ∀ session ∈ db.authSessions, session.tokenHash ≠ env.hashToken db.nextToken) :
    (issueSession env user sessionId permissions tenantId authMethod ttlSeconds ipAddress
      ssoProvider).Succeeds (fun _ _ ↦ True) db := by
  obtain ⟨expiresIn, hexpires⟩ := Option.isSome_iff_exists.mp hsigns
  unfold issueSession signAccessToken generateRefreshToken expiryAfter
  simp only [Call.bind_assoc, Call.pure_bind]
  refine Call.succeeds_bind_atomically ?_
  refine Call.succeeds_bind_require hexpires (Call.succeeds_bind_query ?_)
  refine Call.succeeds_bind_atomically (Call.succeeds_bind_atomically (Call.succeeds_bind_query ?_))
  exact (createSession_succeeds hid hhash).bind fun _ _ _ ↦ Call.succeeds_pure trivial

theorem completeSsoLogin_succeeds {ipAddress : Option String} {user : User} {tenantId : Uuid}
    (hsigns : (parseDurationToSeconds env.config.jwtAccessExpiry).isSome = true)
    (hunused : Unused env db) :
    (completeSsoLogin env ipAddress user tenantId).Succeeds (fun _ _ ↦ True) db := by
  have hpromoted : (bootstrapPlatformAdmin env user tenantId).Succeeds (fun _ _ ↦ True) db :=
    bootstrapPlatformAdmin_succeeds hunused.assignments
  refine (hpromoted.keeps ((bootstrapPlatformAdmin_quiet env user tenantId).and
    (bootstrapPlatformAdmin_leaves (by simp) (by simp) env user tenantId)) (Insertable env)
    (fun _ _ _ hinsertable hstep ↦ hinsertable.quiet hstep) ⟨hunused.sessions, hunused.hash⟩).bind ?_
  refine fun _ promoted ⟨_, hinsertable⟩ ↦ Call.succeeds_bind_atomically ?_
  refine getUserPermissions_succeeds.bind fun permissions granted hgranted ↦ ?_
  obtain rfl := hgranted
  refine (issueSession_succeeds hsigns ?_ ?_).bind fun issued opened _ ↦ ?_
  · exact fun session hsession ↦ uuidSource.ne_next (hinsertable.sessions session hsession)
  · exact hinsertable.hash
  · have htouched : ∀ store, (touchLastActive user.id tenantId).Succeeds (fun _ _ ↦ True) store :=
      fun _ ↦ ⟨_, _, rfl, trivial⟩
    exact Call.succeeds_bind_query ((htouched _).bind fun _ _ _ ↦ Call.succeeds_pure trivial)

/-- Assumes: the identity leads to a member. `ssoLogin` resolves them and leaves the store alone. -/
theorem resolveSsoUser_succeeds (hmember : LeadsToMember signIn db) :
    (resolveSsoUser env signIn.oid signIn.email signIn.displayName signIn.tid).Succeeds
      (fun _ after ↦ after = db) db := by
  obtain ⟨identity, hidentity, row, hrow, hactive, hmembership⟩ := hmember
  obtain ⟨memberships, hread⟩ : ∃ memberships, (findByUserId row.id).run db = (.ok memberships, db) :=
    ⟨_, rfl⟩
  obtain ⟨active, rest, hcons⟩ := List.exists_cons_of_ne_nil ((memberships_ne_nil hread).mpr hmembership)
  have hlisted : (getMemberships row.id).Succeeds
      (fun listed after ↦ listed = memberships ∧ after = db) db := ⟨_, _, hread, rfl, rfl⟩
  refine Call.succeeds_bind_query ?_
  rw [hidentity]
  refine Call.succeeds_bind_query ?_
  refine Call.succeeds_bind_require hrow (Call.succeeds_bind_ensure hactive ?_)
  refine hlisted.bind fun listed after hboth ↦ ?_
  obtain ⟨rfl, rfl⟩ := hboth
  exact Call.succeeds_bind_require (by rw [hcons]; rfl) (Call.succeeds_pure rfl)

/-- Assumes: the fast path is open, and what is drawn is not in use. `ssoLogin` succeeds. -/
theorem ssoLogin_succeeds {idToken : String} (hsignIn : ssoSignIn env idToken = some signIn)
    (hopen : FastPathOpen env signIn db) (hunused : Unused env db) (ipAddress : Option String) :
    (ssoLogin env idToken ipAddress).Succeeds (fun _ _ ↦ True) db := by
  rw [ssoLogin_eq hopen.configured hsignIn]
  refine (resolveSsoUser_succeeds hopen.member).bind fun resolved after hsame ↦ ?_
  obtain rfl := hsame
  exact completeSsoLogin_succeeds hopen.signs hunused

/-! ### The exact condition -/

/-- Assumes: what is drawn is not in use, and the token violates the policy. `ssoLogin`, run alone,
rejects it exactly when the fast path is closed to it. Whatever runs in between, it is rejected as long
as it violates the policy and its identity is not linked throughout. -/
theorem rejects_iff {idToken : String} (hsignIn : ssoSignIn env idToken = some signIn)
    (ipAddress : Option String) :
    (∀ view, (ssoLogin env idToken ipAddress).Amid (whileViolating env signIn) (fun _ _ ↦ False) view) ∧
      ∀ db, Unused env db → ViolatesPolicy env signIn db →
        (Rejects (ssoLogin env idToken ipAddress) db ↔ ¬ FastPathOpen env signIn db) := by
  refine ⟨amid_violating hsignIn ipAddress, fun db hunused hviolates ↦ ⟨?_, ?_⟩⟩
  · rintro ⟨failure, after, hrun, _⟩ hopen
    obtain ⟨value, last, hok, _⟩ := ssoLogin_succeeds hsignIn hopen hunused ipAddress
    rw [hrun] at hok
    cases (Prod.mk.inj hok).1
  · exact fun hclosed ↦ ssoLogin_rejects hsignIn hviolates hclosed ipAddress

/-! ### A linked user signs in -/

/-- The connection of the directory is disabled; the member of the tenant has not linked an identity. -/
def disabledDb : Db :=
  { exampleDb with
    ssoConnections := [{ id := 4, tenantId := 2, provider := "entra", externalTenantId := "directory",
                         status := .disabled }] }

/-- The same with the identity of the member linked. -/
def linkedDb : Db :=
  { disabledDb with
    ssoIdentities := [{ id := 5, tenantId := 2, userId := 1, provider := "entra",
                        providerSub := "oid", providerEmail := "ada@example.com" }] }

/-- The claims of the token of the example. -/
def exampleSignIn : SsoSignIn :=
  { oid := "oid", email := "ada@example.com", displayName := "ada@example.com", tid := some "directory" }

theorem exampleSignIn_violates {db : Db} (hsame : db.ssoConnections = disabledDb.ssoConnections) :
    ViolatesPolicy entraEnv exampleSignIn db := by
  refine ⟨"directory", _, rfl, by rw [ssoConnection, hsame]; rfl, .inl ?_⟩
  decide

/-- A witness that a token can violate the policy: an identity that is not linked is rejected. -/
theorem rejects_iff_witness :
    Rejects (ssoLogin entraEnv "id-token" none) disabledDb ↔
      ¬ FastPathOpen entraEnv exampleSignIn disabledDb :=
  (rejects_iff rfl none).2 disabledDb ⟨by decide, by decide, by decide⟩ (exampleSignIn_violates rfl)

/-- A user whose identity is linked signs in through the disabled connection. -/
theorem linkedUserSignsIn :
    ¬ ∀ (env : Env) (idToken : String) (signIn : SsoSignIn) (ipAddress : Option String) (db : Db),
      ssoSignIn env idToken = some signIn → ViolatesPolicy env signIn db →
        Rejects (ssoLogin env idToken ipAddress) db := by
  intro halways
  obtain ⟨failure, after, hrun, _⟩ := halways entraEnv "id-token" exampleSignIn none linkedDb rfl
    (exampleSignIn_violates rfl)
  have hok : ∃ issued last, (ssoLogin entraEnv "id-token" none).run linkedDb = (.ok issued, last) :=
    ⟨_, _, rfl⟩
  obtain ⟨issued, last, hok⟩ := hok
  rw [hrun] at hok
  cases (Prod.mk.inj hok).1

end RallyApi.Identity

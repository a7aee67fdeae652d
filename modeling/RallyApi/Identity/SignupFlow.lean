import RallyApi.Concurrency.Failures
import RallyApi.Identity.Keycards
import RallyApi.Identity.SsoPolicy

/-!
# The parts of a signup

`signup` commits the new tenant, the user, the keycard, the membership, the role assignment and the session
one after the other. Its steps come in two parts: `signupOpening` ends with its first write, the tenant or
the user, and `signupRest` is what follows.

The first part, until it has returned, shows the rows as they were (`signupOpening_shows`). The second
enrols the user, and does so fully exactly if there is a default role (`enrolSigner_succeeds`).
-/

set_option autoImplicit false
set_option relaxedAutoImplicit false

namespace RallyApi.Identity

open Concurrency Platform Store

/-! ### The parts of a signup -/

/-- The address under which `signup` looks for an account. -/
abbrev signupEmail (env : Env) (input : SignupInput) : String := env.trim (env.toLowerCase input.email)

/-- The creation of the user of a signup. -/
def createSigner (env : Env) (input : SignupInput) : AuthCall User := do
  let userId ← uuidv7
  statement (insertUser
    { id := userId, email := env.trim (env.toLowerCase (signupEmail env input)),
      displayName := input.displayName, passwordHash := some (env.hashPassword input.password),
      status := .active })

/-- The name of the tenant that a signup provisions. -/
def signupOrgName (env : Env) (input : SignupInput) : String :=
  ((input.organizationName.map env.trim).filter (· ≠ "")).getD
    (defaultOrgName input.displayName (signupEmail env input))

/-- The check of a signup for a claim of the domain of its address. -/
def checkClaim (env : Env) (domain : String) : AuthCall Bool :=
  if isPublicEmailDomain env domain then pure false else isDomainClaimed env domain

/-- The tenant resolution of a signup that has no tenant to join. -/
def provisionForSignup (env : Env) (input : SignupInput) : AuthCall (Tenant × Workspace) := do
  let domain := emailDomain (signupEmail env input)
  let alreadyClaimed ← checkClaim env domain
  provisionTenant env (signupOrgName env input)
    (if isPublicEmailDomain env domain ∨ alreadyClaimed then none else some domain)

/-- What a signup has after its first write: a user to enrol in a tenant, or a new tenant. -/
inductive SignupStart
  | joined (tenantId workspaceId : Uuid) (user : User)
  | provisioned (tenantId workspaceId : Uuid)

/-- The check of `signup` for an account with the address. -/
def checkSignup (env : Env) (input : SignupInput) : AuthCall (Option (Uuid × Uuid)) := do
  let existing ← findByEmail (signupEmail env input)
  Call.ensure existing.isNone
    (conflictException .emailAlreadyRegistered "An account with this email already exists")
  findAutoJoinTarget env (emailDomain (signupEmail env input))

/-- `signup` up to its first write. -/
def signupOpening (env : Env) (input : SignupInput) : AuthCall SignupStart := do
  let autoJoin ← checkSignup env input
  match autoJoin with
  | some (tenantId, workspaceId) =>
    let user ← createSigner env input
    pure (.joined tenantId workspaceId user)
  | none =>
    let (tenant, workspace) ← provisionForSignup env input
    pure (.provisioned tenant.id workspace.id)

/-- The first session of the user; the user, the tenant and the result of the signup. -/
def openFirstSession (env : Env) (ipAddress : Option String) (tenantId : Uuid) (user : User) :
    AuthCall (User × Uuid × LoginResult) := do
  let sessionId ← uuidv7
  let memberships ← getMemberships user.id
  let permissions ← getUserPermissions user.id tenantId
  let issued ← issueSession env user sessionId permissions tenantId .password
    (refreshTtlSeconds env.config.jwtRefreshExpiry) ipAddress none
  pure (user, tenantId, { issued with user, memberships })

/-- The enrolment of the user, and their first session. -/
def enrolSigner (env : Env) (ipAddress : Option String) (roleSlug : String) (tenantId workspaceId : Uuid)
    (user : User) : AuthCall (User × Uuid × LoginResult) := do
  enrollMember tenantId workspaceId user.id
  ensureDefaultRole user.id tenantId roleSlug
  openFirstSession env ipAddress tenantId user

/-- `signup` after its first write. -/
def signupRest (env : Env) (input : SignupInput) (ipAddress : Option String) :
    SignupStart → AuthCall (User × Uuid × LoginResult)
  | .joined tenantId workspaceId user =>
    enrolSigner env ipAddress "project_member" tenantId workspaceId user
  | .provisioned tenantId workspaceId => do
    let user ← createSigner env input
    enrolSigner env ipAddress "workspace_admin" tenantId workspaceId user

/-- The steps that `signup` awaits. -/
def awaitedSignup (env : Env) (input : SignupInput) (ipAddress : Option String) :
    AuthCall (User × Uuid × LoginResult) :=
  signupOpening env input >>= signupRest env input ipAddress

/-- `signup` in which one of the awaited steps fails. It does not await the stamp on the keycard. -/
def failingSignup (env : Env) (input : SignupInput) (ipAddress : Option String) (failure : Failure)
    (steps : ℕ) : AuthCall LoginResult := do
  let (user, tenantId, result) ← (awaitedSignup env input ipAddress).interrupted failure steps
  touchLastActive user.id tenantId
  pure result

/-- Its parts make up `signup`. -/
theorem signup_eq (env : Env) (input : SignupInput) (ipAddress : Option String) :
    signup env input ipAddress = awaitedSignup env input ipAddress >>= fun enrolled ↦
      touchLastActive enrolled.1.id enrolled.2.1 >>= fun _ ↦ pure enrolled.2.2 := by
  simp only [signup, awaitedSignup, signupOpening, checkSignup, resolveSignupTenant, Call.bind_assoc]
  refine congrArg _ (funext fun existing ↦ congrArg _ (funext fun _ ↦ congrArg _ (funext fun autoJoin ↦ ?_)))
  cases autoJoin with
  | some target =>
    simp only [createSigner, signupRest, enrolSigner, openFirstSession, Call.bind_assoc, Call.pure_bind]
  | none =>
    simp only [createSigner, signupRest, enrolSigner, openFirstSession, provisionForSignup, checkClaim,
      signupOrgName]
    by_cases hpublic : isPublicEmailDomain env (emailDomain (env.trim (env.toLowerCase input.email))) = true
    · simp only [if_pos hpublic, Call.bind_assoc, Call.pure_bind]
    · simp only [if_neg hpublic, Call.bind_assoc, Call.pure_bind]

variable {env : Env} {input : SignupInput} {ipAddress : Option String} {db after seen : Db} {user : User}
  {tenantId workspaceId userId : Uuid} {roleSlug : String}

/-! ### The enrolment -/

/-- A role that `ensureDefaultRole` would assign. -/
def GrantsRole (tenantId : Uuid) (roleSlug : String) (db : Db) : Prop :=
  ∃ role ∈ db.systemRoles, (role.tenantId = none ∨ role.tenantId = some tenantId) ∧
    (role.slug = roleSlug ∨ role.slug = "workspace_member")

/-- Identifiers and refresh tokens that are about to be drawn are not in use, and the user has no rows. -/
structure Enrollable (env : Env) (userId : Uuid) (db : Db) : Prop where
  keycards : ∀ row ∈ db.tenantMembers, row.id < db.nextUuid ∧ row.userId ≠ userId
  members : ∀ row ∈ db.workspaceMembers, row.id < db.nextUuid ∧ row.userId ≠ userId
  assignments : ∀ row ∈ db.userRoleAssignments, row.id < db.nextUuid ∧ row.userId ≠ userId
  sessions : ∀ row ∈ db.authSessions, row.id < db.nextUuid
  hash : ∀ row ∈ db.authSessions, row.tokenHash ≠ env.hashToken db.nextToken

/-- The store after `enrollMember`. -/
def Db.enrolled (db : Db) (tenantId workspaceId userId : Uuid) : Db :=
  { db with
    nextUuid := db.nextUuid + 2
    tenantMembers := db.tenantMembers ++ [{ id := db.nextUuid, tenantId, userId }]
    workspaceMembers := db.workspaceMembers ++
      [{ id := db.nextUuid + 1, tenantId, workspaceId, userId, joinedAt := timestampOfDate db.now }] }

/-- Assumes: the user has no rows yet. They get a keycard and a membership. -/
theorem enrollMember_run (henrollable : Enrollable env userId db) :
    (enrollMember tenantId workspaceId userId).run db =
      (.ok (), db.enrolled tenantId workspaceId userId) := by
  have hkeycard : ¬ (db.tenantMembers.any fun row ↦
      row.id = db.nextUuid ∨ row.tenantId = tenantId ∧ row.userId = userId) = true := by
    rw [List.any_eq_true]
    rintro ⟨row, hrow, hsame⟩
    obtain ⟨hid, huser⟩ := henrollable.keycards row hrow
    rcases of_decide_eq_true hsame with hid' | ⟨_, huser'⟩
    · exact uuidSource.ne_next hid hid'
    · exact huser huser'
  have hmember : ¬ (db.workspaceMembers.any fun row ↦ row.id = db.nextUuid + 1) = true :=
    not_any_of_not fun row hrow ↦
      uuidSource.ne_next (uuidSource.drawn_draw_of_drawn (henrollable.members row hrow).1)
  have hunique : ¬ (db.workspaceMembers.any fun row ↦
      row.workspaceId = workspaceId ∧ row.userId = userId) = true := by
    rw [List.any_eq_true]
    rintro ⟨row, hrow, hsame⟩
    exact (henrollable.members row hrow).2 (of_decide_eq_true hsame).2
  simp only [enrollMember, uuidv7_eq, createTenantMember, addWorkspaceMember, statement, Call.run_bind,
    Call.run_atomically, Call.run_attempt, insertWorkspaceMember, if_neg hkeycard, if_neg hmember,
    if_neg hunique]
  rfl

/-- The user has a role assignment in the tenant. -/
def HasAssignment (userId tenantId : Uuid) (db : Db) : Prop :=
  ∃ row ∈ db.userRoleAssignments, row.userId = userId ∧ row.tenantId = tenantId

/-- Assumes: the user has no assignment yet. They have one afterwards exactly if there is a default role. -/
theorem ensureDefaultRole_assigns
    (hnone : ∀ row ∈ db.userRoleAssignments, row.id < db.nextUuid ∧ row.userId ≠ userId) :
    (ensureDefaultRole userId tenantId roleSlug).Succeeds
      (fun _ after ↦ HasAssignment userId tenantId after ↔ GrantsRole tenantId roleSlug db) db := by
  have hempty : ∀ row ∈ db.userRoleAssignments, ¬ (row.tenantId = tenantId ∧ row.userId = userId) :=
    fun row hrow hsame ↦ (hnone row hrow).2 hsame.2
  have hbefore : ¬ HasAssignment userId tenantId db :=
    fun ⟨row, hrow, huser, _⟩ ↦ (hnone row hrow).2 huser
  refine Call.succeeds_bind_query ?_
  rw [if_neg (by simpa [List.filter_eq_nil_iff] using hempty)]
  refine Call.succeeds_bind_query ?_
  cases hrole : ((db.systemRoles.filter fun role ↦
      role.tenantId = none ∨ role.tenantId = some tenantId).find? (·.slug = roleSlug)).or
    ((db.systemRoles.filter fun role ↦
      role.tenantId = none ∨ role.tenantId = some tenantId).find? (·.slug = "workspace_member")) with
  | none =>
    refine Call.succeeds_pure (iff_of_false hbefore ?_)
    rintro ⟨role, hmem, htenant, hslug⟩
    simp only [Option.or_eq_none_iff, List.find?_eq_none, List.mem_filter, decide_eq_true_eq] at hrole
    rcases hslug with hslug | hslug
    · exact hrole.1 role ⟨hmem, htenant⟩ hslug
    · exact hrole.2 role ⟨hmem, htenant⟩ hslug
  | some role =>
    have hgrants : GrantsRole tenantId roleSlug db := by
      rcases Option.or_eq_some_iff.mp hrole with hfound | ⟨_, hfound⟩
      · have hmem := List.mem_filter.mp (List.mem_of_find?_eq_some hfound)
        exact ⟨role, hmem.1, of_decide_eq_true hmem.2, .inl (by simpa using List.find?_some hfound)⟩
      · have hmem := List.mem_filter.mp (List.mem_of_find?_eq_some hfound)
        exact ⟨role, hmem.1, of_decide_eq_true hmem.2, .inr (by simpa using List.find?_some hfound)⟩
    refine Call.succeeds_bind_atomically (Call.succeeds_attempt ((if_neg (not_any_of_not fun row hrow ↦
      uuidSource.ne_next (hnone row hrow).1)).trans (if_neg (by simp))) (iff_of_true ?_ hgrants))
    exact ⟨_, List.mem_append_right _ (List.mem_singleton_self _), rfl, rfl⟩

/-- What a signup returns is about the user and the tenant of its session. -/
def IsAbout (user : User) (tenantId : Uuid) (enrolled : User × Uuid × LoginResult) : Prop :=
  enrolled.1 = user ∧ enrolled.2.1 = tenantId ∧ enrolled.2.2.accessToken.sub = user.id ∧
    enrolled.2.2.accessToken.tenantId = tenantId

/-- The first session is one of the user for the tenant, and was signed. -/
theorem openFirstSession_returns {enrolled : User × Uuid × LoginResult}
    (hreturns : (openFirstSession env ipAddress tenantId user).Returns enrolled) :
    IsAbout user tenantId enrolled ∧ (parseDurationToSeconds env.config.jwtAccessExpiry).isSome = true := by
  obtain ⟨sessionId, _, hrest⟩ := hreturns.of_bind
  obtain ⟨memberships, _, hrest⟩ := hrest.of_bind
  obtain ⟨permissions, _, hrest⟩ := hrest.of_bind
  obtain ⟨issued, hissued, hrest⟩ := hrest.of_bind
  obtain rfl := hrest
  obtain ⟨signed, hsigned, _⟩ := hissued.of_bind
  obtain ⟨jti, _, hsigned⟩ := hsigned.of_bind
  obtain ⟨expiresIn, hexpires, _⟩ := hsigned.of_bind
  obtain ⟨hsub, htenant⟩ := issueSession_returns hissued
  exact ⟨⟨rfl, rfl, hsub, htenant⟩, by rw [Call.returns_require.mp hexpires]; rfl⟩

/-- It writes no row that a signup creates. -/
theorem openFirstSession_leaves {table : Table}
    (htable : table ∈ [Table.tenants, .tenantMembers, .workspaceMembers, .userRoleAssignments]) :
    (openFirstSession env ipAddress tenantId user).Only (Leaves table) := by
  have hother : table ≠ .uuids ∧ table ≠ .rawTokens ∧ table ≠ .authSessions ∧ table ≠ .users := by
    refine ⟨?_, ?_, ?_, ?_⟩ <;> rintro rfl <;> simp at htable
  simp [openFirstSession, hother]

/-- Assumes: access tokens can be signed, and what is drawn is not in use. The session is opened. -/
theorem openFirstSession_succeeds
    (hsigns : (parseDurationToSeconds env.config.jwtAccessExpiry).isSome = true)
    (hinsertable : Insertable env db) :
    (openFirstSession env ipAddress tenantId user).Succeeds (fun _ _ ↦ True) db := by
  refine Call.succeeds_bind_atomically (Call.succeeds_bind_query ?_)
  refine getUserPermissions_succeeds.bind fun permissions found hsame ↦ ?_
  obtain rfl := hsame
  refine (issueSession_succeeds hsigns ?_ ?_).bind fun issued after _ ↦ ?_
  · exact fun session hsession ↦ uuidSource.ne_next (hinsertable.sessions session hsession)
  · exact hinsertable.hash
  · exact Call.succeeds_pure trivial

/-- The tables of an enrolment are the same in both stores. -/
def SameEnrolment (db after : Db) : Prop :=
  ∀ table, table ∈ [Table.tenantMembers, .workspaceMembers, .userRoleAssignments] → table.Same db after

/-- Assumes: access tokens can be signed, and what is drawn is not in use. The first session is opened for
the user, and the tables of the enrolment stay as they are. -/
theorem openFirstSession_opens
    (hsigns : (parseDurationToSeconds env.config.jwtAccessExpiry).isSome = true)
    (hinsertable : Insertable env db) :
    (openFirstSession env ipAddress tenantId user).Succeeds
      (fun enrolled after ↦ IsAbout user tenantId enrolled ∧ SameEnrolment db after) db := by
  have hleaves : (openFirstSession env ipAddress tenantId user).Only fun found _ after ↦
      SameEnrolment found after :=
    Call.Only.all fun table htable ↦ openFirstSession_leaves (List.mem_cons_of_mem _ htable)
  obtain ⟨enrolled, after, hrun, _, hsame⟩ := (openFirstSession_succeeds hsigns hinsertable).keeps
    hleaves (SameEnrolment db) (fun _ _ _ hfound hstep table htable ↦
      (hfound table htable).trans (hstep table htable)) fun _ _ ↦ same_refl db
  have hreturns := Call.returns_of_run (congrArg Prod.fst hrun)
  exact ⟨enrolled, after, hrun, (openFirstSession_returns hreturns).1, hsame⟩

/-- The user has an active keycard for the tenant and an active membership in one of its workspaces. -/
structure HasSeat (userId tenantId : Uuid) (db : Db) : Prop where
  keycard : ActiveKeycard userId tenantId db
  membership : ∃ row ∈ db.workspaceMembers, row.userId = userId ∧ row.tenantId = tenantId ∧
    row.status = .active

/-- The user of the session is enrolled in its tenant. -/
structure Enrolled (result : LoginResult) (db : Db) : Prop where
  seat : HasSeat result.accessToken.sub result.accessToken.tenantId db
  assignment : HasAssignment result.accessToken.sub result.accessToken.tenantId db

theorem enrolled_hasSeat : HasSeat userId tenantId (db.enrolled tenantId workspaceId userId) where
  keycard := mem_keycards.mpr ⟨_, List.mem_append_right _ (List.mem_singleton_self _), rfl, rfl, rfl⟩
  membership := ⟨_, List.mem_append_right _ (List.mem_singleton_self _), rfl, rfl, rfl⟩

/-- A seat depends on the keycards and the memberships only. -/
theorem HasSeat.congr (hseat : HasSeat userId tenantId db)
    (hkeycards : after.tenantMembers = db.tenantMembers)
    (hmembers : after.workspaceMembers = db.workspaceMembers) : HasSeat userId tenantId after where
  keycard := by
    obtain ⟨row, hrow, hcard⟩ := mem_keycards.mp hseat.keycard
    exact mem_keycards.mpr ⟨row, hkeycards ▸ hrow, hcard⟩
  membership := hmembers ▸ hseat.membership

/-- What the assignment of a role in an enrolment leaves: the seat, and identifiers and tokens to draw. -/
def ReadyToOpen (env : Env) (userId tenantId : Uuid) (db : Db) : Prop :=
  HasSeat userId tenantId db ∧ Insertable env db

/-- A step that draws an identifier or none, and leaves the tables of a seat alone. -/
theorem ReadyToOpen.step {label : SessionStep} (hready : ReadyToOpen env userId tenantId db)
    (hstep : (Quiet db label after ∧ Leaves .rawTokens db label after) ∧
      ∀ table, table ∈ [Table.tenantMembers, .workspaceMembers] → Leaves table db label after) :
    ReadyToOpen env userId tenantId after :=
  ⟨hready.1.congr (hstep.2 .tenantMembers (by simp)) (hstep.2 .workspaceMembers (by simp)),
    hready.2.quiet hstep.1⟩

/-- The assignment of the default role leaves the user ready for a session. -/
theorem ensureDefaultRole_readyToOpen {post : Unit → Db → Prop}
    (hassigns : (ensureDefaultRole userId tenantId roleSlug).Succeeds post db)
    (hready : ReadyToOpen env userId tenantId db) :
    (ensureDefaultRole userId tenantId roleSlug).Succeeds
      (fun value after ↦ post value after ∧ ReadyToOpen env userId tenantId after) db := by
  have hframe : ∀ table, table ∈ [Table.tenantMembers, .workspaceMembers] →
      (ensureDefaultRole userId tenantId roleSlug).Only (Leaves table) := by
    intro table htable
    have hother : table ≠ .uuids ∧ table ≠ .userRoleAssignments := by
      constructor <;> rintro rfl <;> simp at htable
    exact ensureDefaultRole_leaves hother.1 hother.2 _ _ _
  exact hassigns.keeps (((ensureDefaultRole_quiet _ _ _).and
    (ensureDefaultRole_leaves (by simp) (by simp) _ _ _)).and (Call.Only.all hframe))
    (ReadyToOpen env userId tenantId) (fun _ _ _ hdb hstep ↦ hdb.step hstep) hready

/-- Assumes: access tokens can be signed, what is drawn is not in use, and the user has no rows yet. The
enrolment and the first session succeed, and the user is enrolled exactly if there is a default role. -/
theorem enrolSigner_succeeds
    (hsigns : (parseDurationToSeconds env.config.jwtAccessExpiry).isSome = true)
    (henrollable : Enrollable env user.id db) :
    (enrolSigner env ipAddress roleSlug tenantId workspaceId user).Succeeds
      (fun enrolled after ↦ IsAbout user tenantId enrolled ∧
        (Enrolled enrolled.2.2 after ↔ GrantsRole tenantId roleSlug db)) db := by
  have hmember : (enrollMember tenantId workspaceId user.id).Succeeds
      (fun _ after ↦ after = db.enrolled tenantId workspaceId user.id) db :=
    ⟨_, _, enrollMember_run henrollable, rfl⟩
  refine hmember.bind fun _ member hmember ↦ ?_
  have hassigns : (ensureDefaultRole user.id tenantId roleSlug).Succeeds
      (fun _ after ↦ HasAssignment user.id tenantId after ↔ GrantsRole tenantId roleSlug member) member := by
    rw [hmember]
    exact ensureDefaultRole_assigns fun row hrow ↦
      ⟨(henrollable.assignments row hrow).1.trans_le (Nat.le_add_right _ 2),
        (henrollable.assignments row hrow).2⟩
  have hready : ReadyToOpen env user.id tenantId member := by
    rw [hmember]
    refine ⟨enrolled_hasSeat, fun session hsession ↦ ?_, henrollable.hash⟩
    exact (henrollable.sessions session hsession).trans_le (Nat.le_add_right _ 2)
  refine (ensureDefaultRole_readyToOpen hassigns hready).bind fun _ assigned hassigned ↦ ?_
  obtain ⟨hrole, hseat, hinsertable⟩ := hassigned
  obtain ⟨enrolled, after, hrun, habout, hsame⟩ := openFirstSession_opens hsigns hinsertable
  refine ⟨enrolled, after, hrun, habout, ?_⟩
  obtain ⟨_, _, hsub, htenant⟩ := habout
  have hassignments : after.userRoleAssignments = assigned.userRoleAssignments :=
    hsame .userRoleAssignments (by simp)
  have hseat := hseat.congr (hsame .tenantMembers (by simp)) (hsame .workspaceMembers (by simp))
  have hgrants : HasAssignment user.id tenantId after ↔ GrantsRole tenantId roleSlug db := by
    rw [HasAssignment, hassignments]
    exact hrole.trans (by rw [hmember]; rfl)
  rw [← hgrants]
  constructor
  · intro henrolled
    exact hsub ▸ htenant ▸ henrolled.assignment
  · intro hassignment
    exact ⟨by rw [hsub, htenant]; exact hseat, by rw [hsub, htenant]; exact hassignment⟩

/-! ### The first write -/

/-- An account has the address. -/
def EmailTaken (env : Env) (input : SignupInput) (db : Db) : Prop :=
  ∃ row ∈ db.users, row.email = signupEmail env input ∧ row.deletedAt = none

/-- The tenant and the workspace that `findAutoJoinTarget` finds. -/
def Db.autoJoinTarget (db : Db) (env : Env) (domain : String) : Option (Uuid × Uuid) :=
  match db.tenantDomains.find? fun claim ↦ claim.domain = env.toLowerCase domain with
  | none => none
  | some claim =>
    if claim.verified.isNone ∨ claim.allowAutoJoin = false then none
    else ((db.workspaces.filter fun row ↦
        row.tenantId = claim.tenantId ∧ row.deletedAt = none).insertionSort
      fun a b ↦ a.createdAt ≤ b.createdAt).head?.map fun workspace ↦ (claim.tenantId, workspace.id)

/-- A live tenant has the slug that `provisionTenant` is about to give. -/
def SlugTaken (env : Env) (input : SignupInput) (db : Db) : Prop :=
  ∃ row ∈ db.tenants, row.slug = env.tenantSlug (signupOrgName env input) db.nextToken ∧
    row.deletedAt = none

/-- The signup has a tenant to join. -/
abbrev Db.signupTarget (db : Db) (env : Env) (input : SignupInput) : Option (Uuid × Uuid) :=
  db.autoJoinTarget env (emailDomain (signupEmail env input))

theorem findAutoJoinTarget_run (domain : String) :
    (findAutoJoinTarget env domain).run db = (.ok (db.autoJoinTarget env domain), db) := by
  rw [findAutoJoinTarget, Call.run_bind, findByDomain, Call.run_query, Db.autoJoinTarget]
  cases db.tenantDomains.find? fun claim ↦ claim.domain = env.toLowerCase domain with
  | none => rfl
  | some claim =>
    dsimp only
    split_ifs <;> rfl

/-- A signup with a new address comes to its first write. -/
theorem checkSignup_free (hfree : ¬ EmailTaken env input db) :
    (checkSignup env input).run db = (.ok (db.signupTarget env input), db) := by
  have hnone : (db.users.find? fun row ↦ row.email = signupEmail env input ∧ row.deletedAt = none) =
      none := by
    simpa [EmailTaken] using hfree
  rw [checkSignup, Call.run_bind, findByEmail, Call.run_query]
  simp only [hnone, Option.isNone_none, Call.ensure_pos, Call.pure_bind]
  exact findAutoJoinTarget_run _

/-- A signup with the address of an account is refused. -/
theorem checkSignup_taken (htaken : EmailTaken env input db) :
    ∃ failure, (checkSignup env input).run db = (.error failure, db) := by
  obtain ⟨row, hrow, hemail, hlive⟩ := htaken
  have hsome : (db.users.find? fun row ↦
      row.email = signupEmail env input ∧ row.deletedAt = none).isSome = true :=
    List.find?_isSome.mpr ⟨row, hrow, by simp [hemail, hlive]⟩
  obtain ⟨account, haccount⟩ := Option.isSome_iff_exists.mp hsome
  refine ⟨conflictException .emailAlreadyRegistered "An account with this email already exists", ?_⟩
  rw [checkSignup, Call.run_bind, findByEmail, Call.run_query]
  simp only [haccount]
  rfl

/-- Identifiers and refresh tokens that are about to be drawn are not in use. -/
structure SignupUnused (env : Env) (db : Db) : Prop where
  users : ∀ row ∈ db.users, row.id < db.nextUuid
  tenants : ∀ row ∈ db.tenants, row.id < db.nextUuid
  workspaces : ∀ row ∈ db.workspaces, row.id < db.nextUuid ∧ row.tenantId < db.nextUuid
  claims : ∀ row ∈ db.tenantDomains, row.id < db.nextUuid
  keycards : ∀ row ∈ db.tenantMembers, row.id < db.nextUuid ∧ row.userId < db.nextUuid
  members : ∀ row ∈ db.workspaceMembers, row.id < db.nextUuid ∧ row.userId < db.nextUuid
  assignments : ∀ row ∈ db.userRoleAssignments, row.id < db.nextUuid ∧ row.userId < db.nextUuid
  sessions : ∀ row ∈ db.authSessions, row.id < db.nextUuid
  hash : ∀ row ∈ db.authSessions, ∀ token, db.nextToken ≤ token → row.tokenHash ≠ env.hashToken token

/-- The address of the signup does not change when it is normalised again. -/
def Normalised (env : Env) (input : SignupInput) : Prop :=
  env.trim (env.toLowerCase (signupEmail env input)) = signupEmail env input

instance (env : Env) (input : SignupInput) : Decidable (Normalised env input) :=
  inferInstanceAs (Decidable (_ = _))

/-- The user of a signup. -/
def signer (env : Env) (input : SignupInput) (id : Uuid) : User :=
  { id, email := env.trim (env.toLowerCase (signupEmail env input)), displayName := input.displayName,
    passwordHash := some (env.hashPassword input.password), status := .active }

/-- The store after the creation of the user. -/
def Db.withSigner (db : Db) (env : Env) (input : SignupInput) : Db :=
  { db with nextUuid := db.nextUuid + 1, users := db.users ++ [signer env input db.nextUuid] }

/-- Assumes: the identifiers of the users have been drawn, and the address is free. The user is created. -/
theorem createSigner_run (hnormalised : Normalised env input) (hfree : ¬ EmailTaken env input db)
    (hdrawn : ∀ row ∈ db.users, row.id < db.nextUuid) :
    (createSigner env input).run db = (.ok (signer env input db.nextUuid), db.withSigner env input) := by
  have hid : ¬ (db.users.any fun row ↦ row.id = (signer env input db.nextUuid).id) = true :=
    not_any_of_not fun row hrow ↦ uuidSource.ne_next (hdrawn row hrow)
  have hemail : ¬ ((signer env input db.nextUuid).deletedAt = none ∧ (db.users.any fun row ↦
      row.email = (signer env input db.nextUuid).email ∧ row.deletedAt = none) = true) := by
    rw [List.any_eq_true]
    rintro ⟨_, row, hrow, hsame⟩
    obtain ⟨hemail, hlive⟩ := of_decide_eq_true hsame
    exact hfree ⟨row, hrow, hemail.trans hnormalised, hlive⟩
  have hinsert : insertUser (signer env input db.nextUuid) { db with nextUuid := db.nextUuid + 1 } =
      .ok (signer env input db.nextUuid, db.withSigner env input) :=
    (if_neg hid).trans (if_neg hemail)
  have hrun : (statement (insertUser (signer env input db.nextUuid))).run
      { db with nextUuid := db.nextUuid + 1 } =
        (.ok (signer env input db.nextUuid), db.withSigner env input) := by
    rw [statement, Call.run_attempt, hinsert]
  exact hrun

/-- The tenant that a signup provisions. -/
def signupTenant (env : Env) (input : SignupInput) (db : Db) : Tenant :=
  { id := db.nextUuid, slug := env.tenantSlug (signupOrgName env input) db.nextToken,
    name := signupOrgName env input }

/-- The store in which the rows of a new tenant are inserted: their identifiers have been drawn. -/
def Db.drawnTenant (db : Db) : Db :=
  { db with nextUuid := db.nextUuid + 3, nextToken := db.nextToken + 1 }

/-- What a provisioned tenant leaves. -/
structure Provisioned (env : Env) (input : SignupInput) (db : Db) (created : Tenant × Workspace)
    (after : Db) : Prop where
  tenant : created.1 = signupTenant env input db
  tenants : after.tenants = db.tenants ++ [signupTenant env input db]
  uuids : after.nextUuid = db.nextUuid + 3
  rawTokens : after.nextToken = db.nextToken + 1

/-- Assumes: the identifier and the slug of the tenant are free. It is inserted. -/
theorem insertTenant_free {tenant : Tenant} (hid : ∀ row ∈ db.tenants, row.id ≠ tenant.id)
    (hslug : ∀ row ∈ db.tenants, ¬ (row.slug = tenant.slug ∧ row.deletedAt = none)) :
    insertTenant tenant db = .ok { db with
      tenants := db.tenants ++ [tenant]
      subscriptions := tenant.id :: db.subscriptions.filter (· ≠ tenant.id) } :=
  (if_neg (not_any_of_not hid)).trans (if_neg (not_any_of_not hslug))

theorem insertWorkspace_free {workspace : Workspace}
    (hid : ∀ row ∈ db.workspaces, row.id ≠ workspace.id)
    (htenant : ∀ row ∈ db.workspaces, row.tenantId ≠ workspace.tenantId) :
    insertWorkspace workspace db = .ok { db with workspaces := db.workspaces ++ [workspace] } :=
  (if_neg (not_any_of_not hid)).trans
    (if_neg (not_any_of_not fun row hrow hsame ↦ htenant row hrow hsame.1))

theorem insertTenantDomain_free {claim : TenantDomain}
    (hid : ∀ row ∈ db.tenantDomains, row.id ≠ claim.id)
    (hdomain : ∀ row ∈ db.tenantDomains, row.domain ≠ claim.domain) :
    insertTenantDomain claim db = .ok { db with tenantDomains := db.tenantDomains ++ [claim] } :=
  (if_neg (not_any_of_not hid)).trans (if_neg (not_any_of_not hdomain))

/-- Assumes: what is drawn is not in use, the slug is free, and so is the domain to claim. The tenant is
provisioned. -/
theorem provisionTenant_succeeds (hunused : SignupUnused env db) (hslug : ¬ SlugTaken env input db)
    {primaryDomain : Option String} (hdomain : ∀ domain, primaryDomain = some domain →
      ∀ row ∈ db.tenantDomains, row.domain ≠ env.toLowerCase domain) :
    (provisionTenant env (signupOrgName env input) primaryDomain).Succeeds (Provisioned env input db)
      db := by
  let workspace : Workspace :=
    { id := db.nextUuid + 1, tenantId := db.nextUuid, slug := "main", name := signupOrgName env input,
      createdAt := timestampOfDate db.now }
  let withTenant : Db := { db.drawnTenant with
    tenants := db.tenants ++ [signupTenant env input db]
    subscriptions := db.nextUuid :: db.subscriptions.filter (· ≠ db.nextUuid) }
  have htenant : insertTenant (signupTenant env input db) db.drawnTenant = .ok withTenant :=
    insertTenant_free (fun row hrow ↦ uuidSource.ne_next (hunused.tenants row hrow))
      fun row hrow hsame ↦ hslug ⟨row, hrow, hsame⟩
  have hworkspace : insertWorkspace workspace withTenant =
      .ok { withTenant with workspaces := db.workspaces ++ [workspace] } :=
    insertWorkspace_free
      (fun row hrow ↦ uuidSource.ne_next (uuidSource.drawn_draw_of_drawn (hunused.workspaces row hrow).1))
      fun row hrow ↦ uuidSource.ne_next (hunused.workspaces row hrow).2
  refine Call.succeeds_bind_atomically (Call.succeeds_bind_atomically (Call.succeeds_bind_atomically
    (Call.succeeds_bind_atomically ?_)))
  cases primaryDomain with
  | none =>
    refine Call.succeeds_attempt
      (bind_eq_ok.mpr ⟨_, htenant, bind_eq_ok.mpr ⟨_, hworkspace, rfl⟩⟩) ?_
    exact ⟨rfl, rfl, rfl, rfl⟩
  | some domain =>
    have hclaim : insertTenantDomain
        { id := db.nextUuid + 2, tenantId := db.nextUuid, domain := env.toLowerCase domain }
        { withTenant with workspaces := db.workspaces ++ [workspace] } = .ok _ :=
      insertTenantDomain_free
        (fun row hrow ↦ Nat.ne_of_lt ((hunused.claims row hrow).trans_le (Nat.le_add_right _ 2)))
        (hdomain domain rfl)
    refine Call.succeeds_attempt (bind_eq_ok.mpr ⟨_, htenant, bind_eq_ok.mpr ⟨_, hworkspace,
      bind_eq_ok.mpr ⟨_, hclaim, rfl⟩⟩⟩) ?_
    exact ⟨rfl, rfl, rfl, rfl⟩

/-- Assumes: a live tenant has the slug. The tenant is refused. -/
theorem provisionTenant_refused (hslug : SlugTaken env input db) (primaryDomain : Option String) :
    ∃ failure after, (provisionTenant env (signupOrgName env input) primaryDomain).run db =
      (.error failure, after) := by
  have htenant : ∃ failure, insertTenant (signupTenant env input db) db.drawnTenant = .error failure := by
    unfold insertTenant
    split_ifs with hid htaken
    · exact ⟨_, rfl⟩
    · exact ⟨_, rfl⟩
    · obtain ⟨row, hrow, hsame⟩ := hslug
      exact absurd (List.any_eq_true.mpr ⟨row, hrow, decide_eq_true hsame⟩) htaken
  obtain ⟨failure, htenant⟩ := htenant
  cases hrun : (provisionTenant env (signupOrgName env input) primaryDomain).run db with
  | mk outcome after =>
    cases outcome with
    | error thrown => exact ⟨thrown, after, rfl⟩
    | ok created =>
      obtain ⟨_, _, hdraw, hrun⟩ := Call.run_bind_eq_ok.mp hrun
      cases hdraw
      obtain ⟨_, _, hdraw, hrun⟩ := Call.run_bind_eq_ok.mp hrun
      cases hdraw
      obtain ⟨_, _, hdraw, hrun⟩ := Call.run_bind_eq_ok.mp hrun
      cases hdraw
      obtain ⟨_, _, hdraw, hrun⟩ := Call.run_bind_eq_ok.mp hrun
      cases hdraw
      obtain ⟨_, hinserted, _⟩ := bind_eq_ok.mp (Call.run_attempt_eq_ok.mp hrun)
      cases htenant.symm.trans hinserted

/-- The tables of the rows that a signup creates are the same in both stores. -/
def SameRows (db after : Db) : Prop :=
  ∀ table, table ∈ [Table.users, .tenants, .workspaces, .tenantDomains, .tenantMembers, .workspaceMembers,
    .userRoleAssignments] → table.Same db after

theorem sameRows_refl : SameRows db db := fun _ _ ↦ same_refl db

/-- Assumes: a call changes nothing but the counters. Whatever it shows has the same rows. -/
theorem shows_of_leaves {α : Type} {call : AuthCall α}
    (hcall : ∀ table, table ≠ .uuids → table ≠ .rawTokens → call.Only (Leaves table))
    (hdb : SameRows db after) : call.Shows (SameRows db) after := by
  have hrows : ∀ table, table ∈ [Table.users, .tenants, .workspaces, .tenantDomains, .tenantMembers,
      .workspaceMembers, .userRoleAssignments] → call.Only (Leaves table) := by
    intro table htable
    refine hcall table ?_ ?_ <;> rintro rfl <;> simp at htable
  exact (Call.Only.all hrows).shows
    (fun _ _ _ hfound hstep table htable ↦ (hfound table htable).trans (hstep table htable)) hdb

/-- The same for what the call leaves. -/
theorem sameRows_of_leaves {α : Type} {call : AuthCall α} {outcome : Except Failure α}
    (hcall : ∀ table, table ≠ .uuids → table ≠ .rawTokens → call.Only (Leaves table))
    (hdb : SameRows db after) (hrun : call.run after = (outcome, seen)) : SameRows db seen := by
  intro table htable
  have hother : table ≠ .uuids ∧ table ≠ .rawTokens := by
    constructor <;> rintro rfl <;> simp at htable
  have hseen := (hcall table hother.1 hother.2).run_keeps (table.Same db)
    (fun _ _ _ hfound hstep ↦ hfound.trans hstep) (hdb table htable)
  rwa [hrun] at hseen

theorem checkSignup_leaves (env : Env) (input : SignupInput) {table : Table} :
    (checkSignup env input).Only (Leaves table) := by
  simp only [checkSignup, Call.only_bind]
  exact ⟨by simp [findByEmail], fun _ _ ↦ ⟨Call.only_ensure _ _, fun _ _ ↦
    findAutoJoinTarget_only (leaves_refl · _) env _⟩⟩

theorem checkClaim_leaves (env : Env) (domain : String) {table : Table} :
    (checkClaim env domain).Only (Leaves table) := by
  unfold checkClaim
  split_ifs <;> simp [isDomainClaimed, findByDomain]

/-- The creation of the user writes in its last step. -/
theorem createSigner_shows (hdb : SameRows db after) :
    (createSigner env input).Shows (SameRows db) after := by
  refine (shows_of_leaves (fun _ huuids _ ↦ uuidv7_leaves huuids) hdb).bind fun id drawn hrun ↦ ?_
  exact Call.shows_attempt (sameRows_of_leaves (fun _ huuids _ ↦ uuidv7_leaves huuids) hdb hrun)

/-- So does the creation of the tenant. -/
theorem provisionTenant_shows (orgName : String) (primaryDomain : Option String) (hdb : SameRows db after) :
    (provisionTenant env orgName primaryDomain).Shows (SameRows db) after := by
  have huuid : ∀ {table : Table}, table ≠ .uuids → table ≠ .rawTokens → uuidv7.Only (Leaves table) :=
    fun huuids _ ↦ uuidv7_leaves huuids
  have hbytes : ∀ table, table ≠ .uuids → table ≠ .rawTokens → randomBytes.Only (Leaves table) :=
    fun _ _ htokens ↦ randomBytes_leaves htokens
  refine (shows_of_leaves (fun _ ↦ huuid) hdb).bind fun _ drawn hrun ↦ ?_
  have hdb := sameRows_of_leaves (fun _ ↦ huuid) hdb hrun
  refine (shows_of_leaves hbytes hdb).bind fun _ drawn hrun ↦ ?_
  have hdb := sameRows_of_leaves hbytes hdb hrun
  refine (shows_of_leaves (fun _ ↦ huuid) hdb).bind fun _ drawn hrun ↦ ?_
  have hdb := sameRows_of_leaves (fun _ ↦ huuid) hdb hrun
  refine (shows_of_leaves (fun _ ↦ huuid) hdb).bind fun _ drawn hrun ↦ ?_
  exact Call.shows_attempt (sameRows_of_leaves (fun _ ↦ huuid) hdb hrun)

/-- Until its first write is done, a signup shows the rows as they were. -/
theorem signupOpening_shows : (signupOpening env input).Shows (SameRows db) db := by
  refine (shows_of_leaves (fun _ _ _ ↦ checkSignup_leaves env input) sameRows_refl).bind
    fun autoJoin checked hrun ↦ ?_
  have hchecked := sameRows_of_leaves (fun _ _ _ ↦ checkSignup_leaves env input) sameRows_refl hrun
  cases autoJoin with
  | some target => exact (createSigner_shows hchecked).bind fun _ _ _ ↦ Call.shows_pure _
  | none =>
    refine Call.Shows.bind ?_ fun _ _ _ ↦ Call.shows_pure _
    refine (shows_of_leaves (fun _ _ _ ↦ checkClaim_leaves env _) hchecked).bind fun _ claimed hrun ↦ ?_
    exact provisionTenant_shows _ _
      (sameRows_of_leaves (fun _ _ _ ↦ checkClaim_leaves env _) hchecked hrun)

end RallyApi.Identity

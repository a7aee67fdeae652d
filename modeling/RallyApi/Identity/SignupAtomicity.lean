import RallyApi.Identity.SignupFlow

/-!
# Signup, when a step fails

Nothing takes back what `signup` has committed. A step that fails after the first of its writes leaves rows
of a signup that has thrown, and a signup that finds no default role returns without an assignment.

`signup_allOrNothing_iff` says, for each step that may fail, when the signup is all or nothing: it is
refused, the step is not after the first write, or no step fails and there is a default role.
-/

set_option autoImplicit false
set_option relaxedAutoImplicit false

namespace RallyApi.Identity

open Concurrency Platform Store

variable {env : Env} {input : SignupInput} {ipAddress : Option String} {db after seen : Db} {user : User}
  {tenantId workspaceId userId : Uuid} {roleSlug : String}

/-! ### After the first write -/

/-- A user or a tenant has the identifier. -/
def HasRow (id : Uuid) (db : Db) : Prop :=
  (∃ row ∈ db.users, row.id = id) ∨ ∃ row ∈ db.tenants, row.id = id

/-- A step that takes away no user and no tenant. -/
def KeepsRow (id : Uuid) (db : Db) (_ : SessionStep) (after : Db) : Prop := HasRow id db → HasRow id after

theorem keepsRow_of_leaves {α : Type} {call : AuthCall α} {id : Uuid}
    (husers : call.Only (Leaves .users)) (htenants : call.Only (Leaves .tenants)) :
    call.Only (KeepsRow id) := by
  refine (husers.and htenants).mono fun found label after hstep hrow ↦ ?_
  obtain ⟨hsame, htenants, _⟩ := hstep
  have hsame : after.users = found.users := hsame
  rwa [HasRow, hsame, htenants]

theorem createSigner_keepsRow (id : Uuid) : (createSigner env input).Only (KeepsRow id) := by
  refine Call.only_bind.mpr ⟨keepsRow_of_leaves (by simp) (by simp), fun userId _ ↦ ?_⟩
  refine Call.only_attempt _ _ (fun _ _ _ hrow ↦ hrow) fun found value after hinsert hrow ↦ ?_
  unfold insertUser at hinsert
  split_ifs at hinsert
  cases hinsert
  rcases hrow with ⟨row, hrow, hid⟩ | htenant
  · exact .inl ⟨row, List.mem_append_left _ hrow, hid⟩
  · exact .inr htenant

/-- The stamp of the last login keeps every user. -/
theorem createSession_keepsRow (id : Uuid) (session : AuthSession) :
    (createSession session).Only (KeepsRow id) := by
  refine Call.only_attempt _ _ (fun _ _ _ hrow ↦ hrow) fun found value after hrun hrow ↦ ?_
  obtain ⟨sessions, _, hrest⟩ := bind_eq_ok.mp hrun
  cases hrest
  rcases hrow with ⟨row, hrow, hid⟩ | htenant
  · refine .inl ⟨_, mem_updateWhere.mpr ⟨row, hrow, rfl⟩, ?_⟩
    split_ifs <;> exact hid
  · exact .inr htenant

theorem enrolSigner_keepsRow (id : Uuid) :
    (enrolSigner env ipAddress roleSlug tenantId workspaceId user).Only (KeepsRow id) := by
  simp only [enrolSigner, openFirstSession, issueSession, Call.only_bind]
  refine ⟨keepsRow_of_leaves (by simp) (by simp), fun _ _ ↦ ⟨keepsRow_of_leaves (by simp) (by simp),
    fun _ _ ↦ ⟨keepsRow_of_leaves (by simp) (by simp), fun sessionId _ ↦
      ⟨keepsRow_of_leaves (by simp) (by simp), fun _ _ ↦ ⟨keepsRow_of_leaves (by simp) (by simp),
        fun permissions _ ↦ ⟨?_, fun _ _ ↦ trivial⟩⟩⟩⟩⟩⟩
  refine ⟨keepsRow_of_leaves (by simp) (by simp), fun signed _ ↦
    ⟨keepsRow_of_leaves (by simp) (by simp), fun token _ ↦
      ⟨keepsRow_of_leaves (by simp) (by simp), fun expiresAt _ ↦ ⟨?_, fun _ _ ↦ trivial⟩⟩⟩⟩
  exact createSession_keepsRow id _

/-- After its first write a signup takes away no user and no tenant. -/
theorem signupRest_keepsRow (env : Env) (input : SignupInput) (ipAddress : Option String) (id : Uuid)
    (start : SignupStart) : (signupRest env input ipAddress start).Only (KeepsRow id) := by
  cases start with
  | joined tenantId workspaceId user => exact enrolSigner_keepsRow id
  | provisioned tenantId workspaceId =>
    exact Call.only_bind.mpr ⟨createSigner_keepsRow id, fun _ _ ↦ enrolSigner_keepsRow id⟩

/-- Assumes: what is drawn is not in use. From a later store with the same enrolments and sessions, a new
user can be enrolled. -/
theorem SignupUnused.enrollable (hunused : SignupUnused env db)
    (hsame : ∀ table, table ∈ [Table.tenantMembers, .workspaceMembers, .userRoleAssignments,
      .authSessions] → table.Same db after)
    (huser : db.nextUuid ≤ userId) (huuids : db.nextUuid ≤ after.nextUuid)
    (htokens : db.nextToken ≤ after.nextToken) : Enrollable env userId after := by
  have hkeycards : after.tenantMembers = db.tenantMembers := hsame .tenantMembers (by simp)
  have hmembers : after.workspaceMembers = db.workspaceMembers := hsame .workspaceMembers (by simp)
  have hassignments : after.userRoleAssignments = db.userRoleAssignments :=
    hsame .userRoleAssignments (by simp)
  have hsessions : after.authSessions = db.authSessions := hsame .authSessions (by simp)
  have hearlier : ∀ {id other : Uuid}, id < db.nextUuid ∧ other < db.nextUuid →
      id < after.nextUuid ∧ other ≠ userId :=
    fun hdrawn ↦ ⟨hdrawn.1.trans_le huuids, Nat.ne_of_lt (hdrawn.2.trans_le huser)⟩
  constructor
  · exact fun row hrow ↦ hearlier (hunused.keycards row (hkeycards ▸ hrow))
  · exact fun row hrow ↦ hearlier (hunused.members row (hmembers ▸ hrow))
  · exact fun row hrow ↦ hearlier (hunused.assignments row (hassignments ▸ hrow))
  · exact fun row hrow ↦ (hunused.sessions row (hsessions ▸ hrow)).trans_le huuids
  · exact fun row hrow ↦ hunused.hash row (hsessions ▸ hrow) _ htokens

/-- The check for a claim: a domain that is to be claimed is not claimed yet. -/
theorem checkClaim_run (env : Env) (db : Db) (domain : String) :
    ∃ claimed, (checkClaim env domain).run db = (.ok claimed, db) ∧ ∀ claim,
      (if isPublicEmailDomain env domain ∨ claimed then none else some domain) = some claim →
        ∀ row ∈ db.tenantDomains, row.domain ≠ env.toLowerCase claim := by
  by_cases hpublic : isPublicEmailDomain env domain = true
  · refine ⟨false, by rw [checkClaim, if_pos hpublic, Call.run_ok], fun claim hclaim ↦ ?_⟩
    rw [if_pos (.inl hpublic)] at hclaim
    cases hclaim
  · refine ⟨_, by rw [checkClaim, if_neg hpublic]; rfl, fun claim hclaim row hrow hsame ↦ ?_⟩
    split_ifs at hclaim with hclaimed
    obtain rfl := Option.some.inj hclaim
    refine hclaimed (.inr ?_)
    exact List.find?_isSome.mpr ⟨row, hrow, decide_eq_true hsame⟩

/-- What provisioning a tenant leaves alone. -/
def SameBeside (db after : Db) : Prop :=
  ∀ table, table ∈ [Table.users, .tenantMembers, .workspaceMembers, .userRoleAssignments, .authSessions,
    .systemRoles] → table.Same db after

theorem provisionTenant_beside (orgName : String) (primaryDomain : Option String) :
    (provisionTenant env orgName primaryDomain).Only fun found _ after ↦ SameBeside found after := by
  refine Call.Only.all fun table htable ↦ ?_
  have hother : table ≠ .uuids ∧ table ≠ .rawTokens ∧ table ≠ .tenants ∧ table ≠ .workspaces ∧
      table ≠ .tenantDomains := by
    refine ⟨?_, ?_, ?_, ?_, ?_⟩ <;> rintro rfl <;> simp at htable
  obtain ⟨huuids, htokens, htenants, hworkspaces, hdomains⟩ := hother
  exact provisionTenant_leaves huuids htokens htenants hworkspaces hdomains env orgName primaryDomain

/-- Assumes: what is drawn is not in use, and the slug is free. The tenant of a signup is provisioned. -/
theorem provisionForSignup_succeeds (hunused : SignupUnused env db) (hslug : ¬ SlugTaken env input db) :
    (provisionForSignup env input).Succeeds
      (fun created after ↦ Provisioned env input db created after ∧ SameBeside db after) db := by
  obtain ⟨claimed, hclaimed, hfree⟩ := checkClaim_run env db (emailDomain (signupEmail env input))
  have hsucceeds := provisionTenant_succeeds hunused hslug hfree
  obtain ⟨created, after, hrun, hprovisioned, hsame⟩ := hsucceeds.keeps
    (provisionTenant_beside _ _) (SameBeside db)
    (fun _ _ _ hfound hstep table htable ↦ (hfound table htable).trans (hstep table htable))
    fun _ _ ↦ same_refl db
  refine ⟨created, after, ?_, hprovisioned, hsame⟩
  rw [provisionForSignup, Call.run_bind, hclaimed]
  exact hrun

/-! ### When a signup is all or nothing -/

/-- The signup is refused: its address has an account, or the tenant to provision is refused its slug. -/
def SignupRefused (env : Env) (input : SignupInput) (db : Db) : Prop :=
  EmailTaken env input db ∨ db.signupTarget env input = none ∧ SlugTaken env input db

/-- There is a default role: one for members of the tenant to join, or for the admin of a new tenant. -/
def HasDefaultRole (env : Env) (input : SignupInput) (db : Db) : Prop :=
  match db.signupTarget env input with
  | some target => GrantsRole target.1 "project_member" db
  | none => GrantsRole db.nextUuid "workspace_admin" db

/-- Access tokens can be signed. -/
def Signs (env : Env) : Prop := (parseDurationToSeconds env.config.jwtAccessExpiry).isSome = true

/-- What a signup has after its first write: a user or a tenant with the identifier drawn for it. Where
access tokens can be signed the rest succeeds, and enrols the user exactly if there is a default role. -/
structure Opened (env : Env) (input : SignupInput) (ipAddress : Option String) (db : Db)
    (start : SignupStart) (middle : Db) : Prop where
  row : HasRow db.nextUuid middle
  rest : Signs env → (signupRest env input ipAddress start).Succeeds
    (fun enrolled after ↦ Enrolled enrolled.2.2 after ↔ HasDefaultRole env input db) middle

/-- A signup that is refused fails before it has written anything. -/
theorem signupOpening_refused (hrefused : SignupRefused env input db) :
    ∃ failure after, (signupOpening env input).run db = (.error failure, after) := by
  by_cases htaken : EmailTaken env input db
  · obtain ⟨failure, hrun⟩ := checkSignup_taken htaken
    exact ⟨failure, db, by rw [signupOpening, Call.run_bind, hrun]⟩
  · obtain ⟨htarget, hslug⟩ := hrefused.resolve_left htaken
    obtain ⟨claimed, hclaimed, _⟩ := checkClaim_run env db (emailDomain (signupEmail env input))
    obtain ⟨failure, after, hrun⟩ := provisionTenant_refused hslug
      (if isPublicEmailDomain env (emailDomain (signupEmail env input)) ∨ claimed then none
        else some (emailDomain (signupEmail env input)))
    refine ⟨failure, after, ?_⟩
    rw [signupOpening, Call.run_bind, checkSignup_free htaken, htarget]
    change (provisionForSignup env input >>= _).run db = _
    rw [Call.run_bind, provisionForSignup, Call.run_bind, hclaimed]
    simp only [hrun]

/-- Creating the user leaves every other table alone. -/
theorem same_withSigner {table : Table} (htable : table ∈ [Table.tenantMembers, .workspaceMembers,
    .userRoleAssignments, .authSessions]) : table.Same db (db.withSigner env input) := by
  simp only [List.mem_cons, List.not_mem_nil, or_false] at htable
  rcases htable with rfl | rfl | rfl | rfl <;> rfl

/-- Assumes: what is drawn is not in use. A user to enrol in the tenant to join has been created. -/
theorem opened_joined (hunused : SignupUnused env db) {target : Uuid × Uuid}
    (htarget : db.signupTarget env input = some target) :
    Opened env input ipAddress db (.joined target.1 target.2 (signer env input db.nextUuid))
      (db.withSigner env input) := by
  refine ⟨.inl ⟨_, List.mem_append_right _ (List.mem_singleton_self _), rfl⟩, fun hsigns ↦ ?_⟩
  have henrollable : Enrollable env (signer env input db.nextUuid).id (db.withSigner env input) :=
    hunused.enrollable (fun _ htable ↦ same_withSigner htable) le_rfl (Nat.le_succ _) le_rfl
  obtain ⟨enrolled, after, hrun, _, hrole⟩ := enrolSigner_succeeds hsigns henrollable
  refine ⟨enrolled, after, hrun, hrole.trans ?_⟩
  rw [HasDefaultRole, htarget]
  exact Iff.rfl

/-- Assumes: what is drawn is not in use, the address is free and stays as it is when it is normalised
again. A tenant for a new user has been provisioned. -/
theorem opened_provisioned (hunused : SignupUnused env db) (hnormalised : Normalised env input)
    (hfree : ¬ EmailTaken env input db) (htarget : db.signupTarget env input = none)
    {created : Tenant × Workspace} {middle : Db} (hprovisioned : Provisioned env input db created middle)
    (hsame : SameBeside db middle) :
    Opened env input ipAddress db (.provisioned created.1.id created.2.id) middle := by
  have husers : middle.users = db.users := hsame .users (by simp)
  have hroles : middle.systemRoles = db.systemRoles := hsame .systemRoles (by simp)
  have huuids : db.nextUuid ≤ middle.nextUuid := hprovisioned.uuids ▸ Nat.le_add_right _ 3
  have htokens : db.nextToken ≤ middle.nextToken := hprovisioned.rawTokens ▸ Nat.le_succ _
  refine ⟨.inr ⟨signupTenant env input db, ?_, rfl⟩, fun hsigns ↦ ?_⟩
  · rw [hprovisioned.tenants]
    exact List.mem_append_right _ (List.mem_singleton_self _)
  · have hsigner : (createSigner env input).run middle =
        (.ok (signer env input middle.nextUuid), middle.withSigner env input) := by
      refine createSigner_run hnormalised (by rwa [EmailTaken, husers]) fun row hrow ↦ ?_
      exact (hunused.users row (husers ▸ hrow)).trans_le huuids
    have henrollable : Enrollable env (signer env input middle.nextUuid).id
        (middle.withSigner env input) := by
      refine hunused.enrollable (fun table htable ↦ ?_) huuids (huuids.trans (Nat.le_succ _)) htokens
      have hkept : table.Same db middle := hsame table (by simp at htable ⊢; tauto)
      exact hkept.trans (same_withSigner htable)
    obtain ⟨enrolled, after, hrun, _, hrole⟩ := enrolSigner_succeeds hsigns henrollable
    refine ⟨enrolled, after, ?_, hrole.trans ?_⟩
    · rw [signupRest, Call.run_bind, hsigner]
      exact hrun
    · rw [HasDefaultRole, htarget, hprovisioned.tenant]
      change GrantsRole db.nextUuid "workspace_admin" _ ↔ _
      rw [GrantsRole, GrantsRole, ← hroles]
      exact Iff.rfl

/-- Assumes: what is drawn is not in use, and the address stays as it is when it is normalised again. A
signup that is not refused comes past its first write. -/
theorem signupOpening_opens (hunused : SignupUnused env db) (hnormalised : Normalised env input)
    (hadmitted : ¬ SignupRefused env input db) (ipAddress : Option String) :
    ∃ start middle, (signupOpening env input).run db = (.ok start, middle) ∧
      Opened env input ipAddress db start middle := by
  have hfree : ¬ EmailTaken env input db := fun htaken ↦ hadmitted (.inl htaken)
  cases htarget : db.signupTarget env input with
  | some target =>
    refine ⟨_, _, ?_, opened_joined hunused htarget⟩
    rw [signupOpening, Call.run_bind, checkSignup_free hfree, htarget]
    change (createSigner env input >>= _).run db = _
    rw [Call.run_bind, createSigner_run hnormalised hfree hunused.users]
    rfl
  | none =>
    have hslug : ¬ SlugTaken env input db := fun htaken ↦ hadmitted (.inr ⟨htarget, htaken⟩)
    obtain ⟨created, middle, hrun, hprovisioned, hsame⟩ := provisionForSignup_succeeds hunused hslug
    refine ⟨_, middle, ?_, opened_provisioned hunused hnormalised hfree htarget hprovisioned hsame⟩
    rw [signupOpening, Call.run_bind, checkSignup_free hfree, htarget]
    change (provisionForSignup env input >>= _).run db = _
    rw [Call.run_bind, hrun]
    rfl

/-- No row is there that was not there before. -/
structure NothingAdded (db after : Db) : Prop where
  users : after.users ⊆ db.users
  tenants : after.tenants ⊆ db.tenants
  workspaces : after.workspaces ⊆ db.workspaces
  subscriptions : after.subscriptions ⊆ db.subscriptions
  tenantDomains : after.tenantDomains ⊆ db.tenantDomains
  tenantMembers : after.tenantMembers ⊆ db.tenantMembers
  workspaceMembers : after.workspaceMembers ⊆ db.workspaceMembers
  userRoleAssignments : after.userRoleAssignments ⊆ db.userRoleAssignments

/-- A signup in which an awaited step fails is all or nothing: if it throws, none of its rows is left, and
if it returns, the user is enrolled in the tenant of the session. -/
structure AllOrNothing (env : Env) (input : SignupInput) (ipAddress : Option String) (db : Db)
    (steps : ℕ) : Prop where
  thrown : ∀ failure thrown after,
    (failingSignup env input ipAddress failure steps).run db = (.error thrown, after) →
      NothingAdded db after
  returned : ∀ failure result after,
    (failingSignup env input ipAddress failure steps).run db = (.ok result, after) →
      Enrolled result after

theorem subset_of_same {Row : Type} {rows later : List Row} (hsame : later = rows) : later ⊆ rows :=
  fun _ hrow ↦ hsame ▸ hrow

theorem SameRows.nothingAdded (hsame : SameRows db after) : NothingAdded db after where
  users := subset_of_same (hsame .users (by simp))
  tenants := subset_of_same (hsame .tenants (by simp)).1
  workspaces := subset_of_same (hsame .workspaces (by simp))
  subscriptions := subset_of_same (hsame .tenants (by simp)).2
  tenantDomains := subset_of_same (hsame .tenantDomains (by simp))
  tenantMembers := subset_of_same (hsame .tenantMembers (by simp))
  workspaceMembers := subset_of_same (hsame .workspaceMembers (by simp))
  userRoleAssignments := subset_of_same (hsame .userRoleAssignments (by simp))

/-- Assumes: the identifiers of the users and the tenants have been drawn. A row with the next identifier
has been added. -/
theorem not_nothingAdded (hunused : SignupUnused env db) (hrow : HasRow db.nextUuid after) :
    ¬ NothingAdded db after := by
  intro hnothing
  rcases hrow with ⟨row, hrow, hid⟩ | ⟨row, hrow, hid⟩
  · exact Nat.ne_of_lt (hunused.users row (hnothing.users hrow)) hid
  · exact Nat.ne_of_lt (hunused.tenants row (hnothing.tenants hrow)) hid

/-- The stamp on a keycard takes no one their place. -/
theorem enrolled_touched (db : Db) (result : LoginResult) (userId tenantId : Uuid) :
    ∃ touched, (touchLastActive userId tenantId).run db = (.ok (), touched) ∧
      (Enrolled result touched ↔ Enrolled result db) := by
  have hkeeps : KeepsKeycards db .other ((touchLastActive userId tenantId).run db).2 :=
    (touchLastActive_keeps userId tenantId).run_keeps (fun later ↦ KeepsKeycards db .other later)
      (fun _ _ _ hfound hstep ↦ hstep.trans hfound) rfl
  have hactive : ∀ user tenant, ActiveKeycard user tenant ((touchLastActive userId tenantId).run db).2 ↔
      ActiveKeycard user tenant db := fun user tenant ↦ by rw [ActiveKeycard, ActiveKeycard, hkeeps.keycards]
  refine ⟨_, rfl, ?_, ?_⟩
  · exact fun henrolled ↦ ⟨⟨(hactive _ _).mp henrolled.seat.keycard, henrolled.seat.membership⟩,
      henrolled.assignment⟩
  · exact fun henrolled ↦ ⟨⟨(hactive _ _).mpr henrolled.seat.keycard, henrolled.seat.membership⟩,
      henrolled.assignment⟩

variable {steps : ℕ} {failure : Failure}

/-- A signup throws what its awaited steps throw. -/
theorem failingSignup_error {thrown : Failure}
    (hrun : ((awaitedSignup env input ipAddress).interrupted failure steps).run db =
      (.error thrown, after)) :
    (failingSignup env input ipAddress failure steps).run db = (.error thrown, after) := by
  rw [failingSignup, Call.run_bind, hrun]

/-- A signup returns what its awaited steps return, and leaves the user enrolled if they do. -/
theorem failingSignup_ok {enrolled : User × Uuid × LoginResult}
    (hrun : ((awaitedSignup env input ipAddress).interrupted failure steps).run db =
      (.ok enrolled, after)) :
    ∃ touched, (failingSignup env input ipAddress failure steps).run db = (.ok enrolled.2.2, touched) ∧
      (Enrolled enrolled.2.2 touched ↔ Enrolled enrolled.2.2 after) := by
  obtain ⟨touched, htouch, hsame⟩ := enrolled_touched after enrolled.2.2 enrolled.1.id enrolled.2.1
  refine ⟨touched, ?_, hsame⟩
  rw [failingSignup, Call.run_bind, hrun]
  change (touchLastActive enrolled.1.id enrolled.2.1 >>= _).run after = _
  rw [Call.run_bind, htouch]
  rfl

/-- Whether a signup is all or nothing is decided by the steps it awaits. -/
theorem allOrNothing_iff_awaited :
    AllOrNothing env input ipAddress db steps ↔
      (∀ failure thrown after, ((awaitedSignup env input ipAddress).interrupted failure steps).run db =
        (.error thrown, after) → NothingAdded db after) ∧
      ∀ failure enrolled after, ((awaitedSignup env input ipAddress).interrupted failure steps).run db =
        (.ok enrolled, after) → Enrolled enrolled.2.2 after := by
  constructor
  · intro hall
    refine ⟨fun failure thrown after hrun ↦ hall.thrown _ _ _ (failingSignup_error hrun),
      fun failure enrolled after hrun ↦ ?_⟩
    obtain ⟨touched, hfailing, hsame⟩ := failingSignup_ok hrun
    exact hsame.mp (hall.returned _ _ _ hfailing)
  · rintro ⟨hthrown, hreturned⟩
    refine ⟨fun failure thrown after hrun ↦ ?_, fun failure result after hrun ↦ ?_⟩ <;>
      rcases hinner : ((awaitedSignup env input ipAddress).interrupted failure steps).run db with
        ⟨error | enrolled, found⟩
    · cases (failingSignup_error hinner).symm.trans hrun
      exact hthrown _ _ _ hinner
    · obtain ⟨touched, hfailing, _⟩ := failingSignup_ok hinner
      cases hfailing.symm.trans hrun
    · cases (failingSignup_error hinner).symm.trans hrun
    · obtain ⟨touched, hfailing, hsame⟩ := failingSignup_ok hinner
      cases hfailing.symm.trans hrun
      exact hsame.mpr (hreturned _ _ _ hinner)

/-- What a signup has returned, it has signed. -/
theorem signupRest_returns {start : SignupStart} {enrolled : User × Uuid × LoginResult}
    (hreturns : (signupRest env input ipAddress start).Returns enrolled) : Signs env := by
  cases start with
  | joined tenantId workspaceId user =>
    obtain ⟨_, _, hrest⟩ := hreturns.of_bind
    obtain ⟨_, _, hrest⟩ := hrest.of_bind
    exact (openFirstSession_returns hrest).2
  | provisioned tenantId workspaceId =>
    obtain ⟨_, _, hrest⟩ := hreturns.of_bind
    obtain ⟨_, _, hrest⟩ := hrest.of_bind
    obtain ⟨_, _, hrest⟩ := hrest.of_bind
    exact (openFirstSession_returns hrest).2

section Admitted

variable {start : SignupStart} {middle : Db}

/-- Assumes: the signup comes past its first write. A step that fails leaves nothing exactly if it is not
after that write. -/
theorem allOrNothing_of_fails (hunused : SignupUnused env db)
    (hrun : (signupOpening env input).run db = (.ok start, middle)) (hrow : HasRow db.nextUuid middle)
    (hsteps : steps < ((awaitedSignup env input ipAddress).found db).length) :
    AllOrNothing env input ipAddress db steps ↔ steps < ((signupOpening env input).found db).length := by
  have hfound : (awaitedSignup env input ipAddress).found db =
      (signupOpening env input).found db ++ (signupRest env input ipAddress start).found middle := by
    rw [awaitedSignup, Call.found_bind, hrun]
  have hfails := fun failure ↦
    Call.interrupted_run_of_lt (awaitedSignup env input ipAddress) failure hsteps
  rw [allOrNothing_iff_awaited]
  by_cases hbefore : steps < ((signupOpening env input).found db).length
  · have hseen : ((awaitedSignup env input ipAddress).found db)[steps] ∈
        (signupOpening env input).found db := by
      simp only [hfound, List.getElem_append_left hbefore]
      exact List.getElem_mem _
    refine iff_of_true ⟨fun failure thrown after hthrown ↦ ?_, fun failure enrolled after hok ↦ ?_⟩ hbefore
    · cases (hfails failure).symm.trans hthrown
      exact SameRows.nothingAdded (signupOpening_shows.1 _ hseen)
    · cases (hfails failure).symm.trans hok
  · have hseen : ((awaitedSignup env input ipAddress).found db)[steps] ∈
        (signupRest env input ipAddress start).found middle := by
      simp only [hfound, List.getElem_append_right (Nat.le_of_not_lt hbefore)]
      exact List.getElem_mem _
    have hlater := (signupRest_keepsRow env input ipAddress db.nextUuid start).found_keeps (HasRow db.nextUuid)
      (fun _ _ _ hfound hstep ↦ hstep hfound) hrow hseen
    refine iff_of_false (fun hall ↦ ?_) hbefore
    exact not_nothingAdded hunused hlater (hall.1 .typeError _ _ (hfails _))

/-- Assumes: the signup comes past its first write, and no step fails. It is all or nothing exactly if
access tokens can be signed and there is a default role. -/
theorem allOrNothing_of_completes (hunused : SignupUnused env db)
    (hrun : (signupOpening env input).run db = (.ok start, middle))
    (hopened : Opened env input ipAddress db start middle)
    (hsteps : ((awaitedSignup env input ipAddress).found db).length ≤ steps) :
    AllOrNothing env input ipAddress db steps ↔ Signs env ∧ HasDefaultRole env input db := by
  have hcompletes : ∀ failure, ((awaitedSignup env input ipAddress).interrupted failure steps).run db =
      (signupRest env input ipAddress start).run middle := by
    intro failure
    rw [Call.interrupted_run_of_le _ failure hsteps, awaitedSignup, Call.run_bind, hrun]
  simp only [allOrNothing_iff_awaited, hcompletes]
  by_cases hsigns : Signs env
  · obtain ⟨enrolled, after, hok, hrole⟩ := hopened.rest hsigns
    constructor
    · exact fun hall ↦ ⟨hsigns, hrole.mp (hall.2 .typeError enrolled after hok)⟩
    · rintro ⟨_, hdefault⟩
      refine ⟨fun failure thrown later hfail ↦ ?_, fun failure other later hagain ↦ ?_⟩
      · cases hok.symm.trans hfail
      · cases hok.symm.trans hagain
        exact hrole.mpr hdefault
  · refine iff_of_false (fun hall ↦ ?_) fun hboth ↦ hsigns hboth.1
    have hlater := (signupRest_keepsRow env input ipAddress db.nextUuid start).run_keeps (HasRow db.nextUuid)
      (fun _ _ _ hfound hstep ↦ hstep hfound) hopened.row
    rcases hend : (signupRest env input ipAddress start).run middle with ⟨thrown | enrolled, after⟩
    · rw [hend] at hlater
      exact not_nothingAdded hunused hlater (hall.1 .typeError thrown after hend)
    · exact hsigns (signupRest_returns (Call.returns_of_run (congrArg Prod.fst hend)))

end Admitted

/-- A signup that is refused leaves nothing, whichever step fails. -/
theorem allOrNothing_of_refused (hrefused : SignupRefused env input db) :
    AllOrNothing env input ipAddress db steps := by
  obtain ⟨refusal, refused, hrun⟩ := signupOpening_refused hrefused
  have hawaited : (awaitedSignup env input ipAddress).run db = (.error refusal, refused) := by
    rw [awaitedSignup, Call.run_bind, hrun]
  have hshows : (awaitedSignup env input ipAddress).Shows (SameRows db) db :=
    signupOpening_shows.bind fun start middle hopened ↦ by cases hrun.symm.trans hopened
  refine allOrNothing_iff_awaited.mpr
    ⟨fun failure thrown after hfail ↦ (hshows.interrupted hfail).nothingAdded,
      fun failure enrolled after hok ↦ ?_⟩
  rcases Call.interrupted_run _ failure steps db with hsame | ⟨_, _, hfail⟩
  · cases hawaited.symm.trans (hsame.symm.trans hok)
  · cases hfail.symm.trans hok

/-- The signup runs to its end: no step fails, access tokens can be signed and there is a default role. -/
def RunsToItsEnd (env : Env) (input : SignupInput) (ipAddress : Option String) (db : Db) (steps : ℕ) :
    Prop :=
  ((awaitedSignup env input ipAddress).found db).length ≤ steps ∧ Signs env ∧ HasDefaultRole env input db

/-- Assumes: what is drawn is not in use, and the address stays as it is when it is normalised again. A
signup in which an awaited step fails is all or nothing exactly if it is refused, the step is not after the
first write, or the signup runs to its end. -/
theorem signup_allOrNothing_iff (hunused : SignupUnused env db) (hnormalised : Normalised env input) :
    AllOrNothing env input ipAddress db steps ↔
      SignupRefused env input db ∨ steps < ((signupOpening env input).found db).length ∨
        RunsToItsEnd env input ipAddress db steps := by
  by_cases hrefused : SignupRefused env input db
  · exact iff_of_true (allOrNothing_of_refused hrefused) (.inl hrefused)
  · obtain ⟨start, middle, hrun, hopened⟩ := signupOpening_opens hunused hnormalised hrefused ipAddress
    have hshorter : ((signupOpening env input).found db).length ≤
        ((awaitedSignup env input ipAddress).found db).length := by
      rw [awaitedSignup, Call.found_bind, List.length_append]
      exact Nat.le_add_right _ _
    rw [or_iff_right hrefused, RunsToItsEnd]
    by_cases hlast : ((awaitedSignup env input ipAddress).found db).length ≤ steps
    · rw [allOrNothing_of_completes hunused hrun hopened hlast,
        or_iff_right (Nat.not_lt.mpr (hshorter.trans hlast)), and_iff_right hlast]
    · rw [allOrNothing_of_fails hunused hrun hopened.row (Nat.lt_of_not_le hlast),
        or_iff_left fun hend ↦ hlast hend.1]

/-! ### A signup with a new domain -/

/-- The tenant of `exampleDb` and the roles that a signup assigns. -/
def seededDb : Db :=
  { exampleDb with
    systemRoles := [
      { id := 4, tenantId := none, name := "Workspace Admin", slug := "workspace_admin", permissions := ["*"] },
      { id := 5, tenantId := none, name := "Project Member", slug := "project_member",
        permissions := ["workspace:view"] }] }

/-- The signup of a user whose domain no tenant has. -/
def newcomer : SignupInput := { email := "grace@navy.mil", password := "secret", displayName := "Grace" }

theorem seededDb_unused : SignupUnused exampleEnv seededDb := by
  constructor <;> simp [seededDb, exampleDb]

/-- A witness that the assumptions can be met: the creation of the user fails, after that of the tenant. -/
theorem signup_allOrNothing_iff_witness :
    AllOrNothing exampleEnv newcomer none seededDb 9 ↔
      SignupRefused exampleEnv newcomer seededDb ∨
        9 < ((signupOpening exampleEnv newcomer).found seededDb).length ∨
          RunsToItsEnd exampleEnv newcomer none seededDb 9 :=
  signup_allOrNothing_iff seededDb_unused (by decide +kernel)

/-- Signing up is not all or nothing: the tenant stays when the creation of the user fails. -/
theorem tenantLeftBehind :
    ¬ ∀ (env : Env) (input : SignupInput) (ipAddress : Option String) (db : Db) (steps : ℕ),
      SignupUnused env db → Normalised env input → AllOrNothing env input ipAddress db steps := by
  intro halways
  have hall := halways exampleEnv newcomer none seededDb 9 seededDb_unused (by decide +kernel)
  have hrun : ∃ after, (failingSignup exampleEnv newcomer none .connectionLost 9).run seededDb =
      (.error .connectionLost, after) ∧ after.tenants.map Tenant.id = [2, 10] := ⟨_, rfl, rfl⟩
  obtain ⟨after, hrun, hids⟩ := hrun
  have hnothing := (hall.thrown .connectionLost .connectionLost after hrun).tenants
  obtain ⟨tenant, htenant, hid⟩ := List.mem_map.mp (hids ▸ (by simp : 10 ∈ [2, 10]))
  obtain rfl := List.mem_singleton.mp (hnothing htenant)
  cases hid

end RallyApi.Identity

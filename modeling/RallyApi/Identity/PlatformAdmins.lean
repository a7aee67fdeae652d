import RallyApi.Identity.PrimaryRole
import RallyApi.Identity.SsoPolicy

/-!
# Platform admins

`ssoLogin` makes a user whose address is in `PLATFORM_ADMIN_EMAILS` a workspace admin of the tenant they
sign in to. It does so by `ensureDefaultRole`, which assigns a role to a user who has none and leaves the
others as they are; and it looks for the lower-cased address in the list, whose entries it trims only.

Up to two roles are on offer for a user without one: the role of the connection of their directory, if
their identity is not linked yet, and then the role of a listed address (`Settles`). `elevated_iff` says
exactly who is a workspace admin after the login.
-/

set_option autoImplicit false
set_option relaxedAutoImplicit false

namespace RallyApi.Identity

open Concurrency Platform Store

/-! ### Listed users and the roles on offer -/

/-- The addresses that `ssoLogin` reads from the configuration. -/
def platformAdminEmails (env : Env) : List String :=
  (env.config.platformAdminEmails.map env.trim).filter (· ≠ "")

/-- The address is in the list, up to letter case and surrounding blanks. -/
def IsListed (env : Env) (email : String) : Prop :=
  ∃ entry ∈ env.config.platformAdminEmails,
    env.toLowerCase (env.trim entry) = env.toLowerCase (env.trim email)

/-- The role is the workspace admin of the tenant. -/
def IsWorkspaceAdmin (tenant : Uuid) (role : SystemRole) : Prop :=
  role.slug = "workspace_admin" ∧ (role.tenantId = none ∨ role.tenantId = some tenant)

/-- The role that `ensureDefaultRole` assigns to a user without one. -/
def defaultRole (slug : String) (tenant : Uuid) (db : Db) : Option SystemRole :=
  let roles := db.systemRoles.filter fun role ↦ role.tenantId = none ∨ role.tenantId = some tenant
  (roles.find? (·.slug = slug)).or (roles.find? (·.slug = "workspace_member"))

/-- The role that a connection gives to a user without one: none if its slug is empty. -/
def connectionRole (connection : SsoConnection) (tenant : Uuid) (db : Db) : Option SystemRole :=
  if connection.defaultRoleSlug ≠ "" then defaultRole connection.defaultRoleSlug tenant db else none

/-- The role that comes with a new link to an identity, from the connection of the directory. -/
def provisionedRole (signIn : SsoSignIn) (tenant : Uuid) (db : Db) : Option SystemRole :=
  if SsoLinked signIn.oid db then none
  else (signIn.tid.bind fun tid ↦ ssoConnection tid db).bind fun connection ↦
    connectionRole connection tenant db

/-- The role that comes with a listed address. -/
def bootstrapRole (env : Env) (email : String) (tenant : Uuid) (db : Db) : Option SystemRole :=
  if env.toLowerCase email ∈ platformAdminEmails env then defaultRole "workspace_admin" tenant db
  else none

/-- After the login the user of the access token holds the role of the workspace admin in its tenant, and
the token carries the permissions of that role. -/
def Elevated (token : JwtPayload) (after : Db) : Prop :=
  ∃ assignment ∈ after.userRoleAssignments, ∃ role ∈ after.systemRoles,
    assignment.userId = token.sub ∧ assignment.tenantId = token.tenantId ∧
      assignment.roleId = role.id ∧ IsWorkspaceAdmin token.tenantId role ∧
        role.permissions ⊆ token.permissions

/-- The user is a workspace admin of the tenant already, and their primary role has the permissions that
go with it. -/
def StandsAsAdmin (user tenant : Uuid) (db : Db) : Prop :=
  ∃ assignment ∈ assignmentsOf user tenant db, ∃ role ∈ roleOf db.systemRoles assignment,
    IsWorkspaceAdmin tenant role ∧ role.permissions ⊆ primaryPermissions user tenant db

/-- The user has no role in the tenant, and the first that is on offer is that of the workspace admin: the
connection of the directory gives it, or gives none and the lower-cased address is in the list. -/
def BecomesAdmin (env : Env) (signIn : SsoSignIn) (user : User) (tenant : Uuid) (db : Db) : Prop :=
  assignmentsOf user.id tenant db = [] ∧
    ((∃ role ∈ provisionedRole signIn tenant db, role.slug = "workspace_admin") ∨
      provisionedRole signIn tenant db = none ∧ env.toLowerCase user.email ∈ platformAdminEmails env)

/-! ### Roles for users without one -/

variable {env : Env} {idToken : String} {signIn : SsoSignIn} {db middle after : Db} {user tenant : Uuid}

/-- A role that is on offer is settled: a user without one has it now, and nothing else has changed. -/
structure Settles (offered : Option SystemRole) (user tenant : Uuid) (db after : Db) : Prop where
  roles : after.systemRoles = db.systemRoles
  kept : assignmentsOf user tenant db ≠ [] ∨ offered = none →
    assignmentsOf user tenant after = assignmentsOf user tenant db
  granted : assignmentsOf user tenant db = [] → ∀ role, offered = some role →
    ∃ assignment : UserRoleAssignment, assignment.roleId = role.id ∧
      assignmentsOf user tenant after = [assignment]

/-- A part that leaves roles and assignments alone settles no role. -/
theorem settles_none {α : Type} {call : AuthCall α} {outcome : Except Failure α}
    (hassignments : call.Only (Leaves .userRoleAssignments)) (hroles : call.Only (Leaves .systemRoles))
    (hrun : call.run db = (outcome, after)) : Settles none user tenant db after := by
  have hsame := (hassignments.and hroles).run_keeps
    (fun found ↦ found.userRoleAssignments = db.userRoleAssignments ∧ found.systemRoles = db.systemRoles)
    (fun _ _ _ hfound hstep ↦ ⟨Eq.trans hstep.1 hfound.1, Eq.trans hstep.2 hfound.2⟩) ⟨rfl, rfl⟩
  rw [hrun] at hsame
  have hsameUser : assignmentsOf user tenant after = assignmentsOf user tenant db :=
    congrArg (List.filter _) hsame.1
  exact ⟨hsame.2, fun _ ↦ hsameUser, fun _ role hrole ↦ by cases hrole⟩

/-- Of two roles that are settled one after the other the first counts. -/
theorem Settles.trans {first second : Option SystemRole} (hfirst : Settles first user tenant db middle)
    (hsecond : Settles second user tenant middle after) :
    Settles (first.or second) user tenant db after := by
  refine ⟨hsecond.roles.trans hfirst.roles, fun hkept ↦ ?_, fun hnone role hrole ↦ ?_⟩
  · have hstays : assignmentsOf user tenant middle = assignmentsOf user tenant db :=
      hfirst.kept (hkept.imp_right fun hor ↦ (Option.or_eq_none_iff.mp hor).1)
    rw [← hstays]
    refine hsecond.kept (hkept.imp (fun hne ↦ by rwa [hstays]) fun hor ↦ (Option.or_eq_none_iff.mp hor).2)
  · rcases Option.or_eq_some_iff.mp hrole with hgranted | ⟨hnothing, hgranted⟩
    · obtain ⟨assignment, hid, hlist⟩ := hfirst.granted hnone role hgranted
      refine ⟨assignment, hid, ?_⟩
      rw [← hlist]
      exact hsecond.kept (.inl (by simp [hlist]))
    · have hstays := hfirst.kept (.inr hnothing)
      exact hsecond.granted (hstays.trans hnone) role hgranted

/-- `ensureDefaultRole` settles the default role. -/
theorem ensureDefaultRole_settles {slug : String} {outcome : Unit}
    (hrun : (ensureDefaultRole user tenant slug).run db = (.ok outcome, after)) :
    Settles (defaultRole slug tenant db) user tenant db after := by
  rw [ensureDefaultRole, listForUser, Call.run_query_bind] at hrun
  change (if assignmentsOf user tenant db ≠ [] then _ else _ : AuthCall Unit).run db = _ at hrun
  split_ifs at hrun with hnone
  · obtain ⟨_, rfl⟩ := Prod.mk.inj hrun
    exact ⟨rfl, fun _ ↦ rfl, fun hempty ↦ absurd hempty hnone⟩
  · rw [listRolesForTenant, Call.run_query_bind] at hrun
    generalize hoffered : Option.or (List.find? _ _) _ = offered at hrun
    change defaultRole slug tenant db = offered at hoffered
    rw [hoffered]
    cases offered with
    | none =>
      obtain ⟨_, rfl⟩ := Prod.mk.inj hrun
      exact ⟨rfl, fun _ ↦ rfl, fun _ role hrole ↦ by cases hrole⟩
    | some role =>
      rw [uuidv7_eq, Call.run_atomically_bind] at hrun
      have hinserted := Call.run_attempt_eq_ok.mp hrun
      split_ifs at hinserted
      cases hinserted
      refine ⟨rfl, fun hkept ↦ ?_, fun hnone role' hrole ↦ ?_⟩
      · exact hkept.elim (absurd · hnone) fun hnothing ↦ by cases hnothing
      · cases hrole
        refine ⟨{ id := db.nextUuid, tenantId := tenant, userId := user, roleId := role.id,
                  scopeType := .workspace, grantedBy := some user }, rfl, ?_⟩
        rw [assignmentsOf, List.filter_append]
        change assignmentsOf user tenant db ++ List.filter _ [_] = _
        rw [hnone, List.nil_append]
        exact List.filter_cons_of_pos (by simp)

/-- The bootstrap settles the role of a listed address. -/
theorem bootstrapPlatformAdmin_settles {row : User} {outcome : Unit}
    (hrun : (bootstrapPlatformAdmin env row tenant).run db = (.ok outcome, after)) :
    Settles (bootstrapRole env row.email tenant db) row.id tenant db after := by
  unfold bootstrapPlatformAdmin at hrun
  change (if env.toLowerCase row.email ∈ platformAdminEmails env then _ else _ : AuthCall Unit).run db =
    _ at hrun
  unfold bootstrapRole
  split_ifs at hrun ⊢ with hlisted
  · exact ensureDefaultRole_settles hrun
  · exact settles_none (Call.only_pure ()) (Call.only_pure ()) hrun

/-! ### The login -/

/-- The connection of the directory is read, and checked. -/
theorem resolveSsoConnection_run {resolved : Option (Uuid × String)}
    (hrun : (resolveSsoConnection env signIn.email signIn.tid).run db = (.ok resolved, after)) :
    after = db ∧ resolved = (signIn.tid.bind fun tid ↦ ssoConnection tid db).map fun connection ↦
      (connection.tenantId, connection.defaultRoleSlug) := by
  unfold resolveSsoConnection at hrun
  cases htid : signIn.tid with
  | none =>
    rw [htid] at hrun
    cases hrun
    exact ⟨rfl, rfl⟩
  | some tid =>
    rw [htid] at hrun
    dsimp only at hrun
    rw [findByExternalTenantId, Call.run_query_bind] at hrun
    generalize hfound : List.find? _ _ = found at hrun
    change ssoConnection tid db = found at hfound
    rw [Option.bind_some, hfound]
    cases found with
    | none =>
      cases hrun
      exact ⟨rfl, rfl⟩
    | some connection =>
      obtain ⟨_, hrun⟩ := Call.run_ensure_bind_eq_ok.mp hrun
      obtain ⟨_, hrun⟩ := Call.run_ensure_bind_eq_ok.mp hrun
      obtain ⟨_, hrun⟩ := Call.run_ensure_bind_eq_ok.mp hrun
      cases hrun
      exact ⟨rfl, rfl⟩

/-- Finding or provisioning the user settles the role of the connection, for an identity that is not linked
yet. -/
theorem resolveSsoUser_settles {resolved : User × Uuid}
    (hrun : (resolveSsoUser env signIn.oid signIn.email signIn.displayName signIn.tid).run db =
      (.ok resolved, after)) :
    Settles (provisionedRole signIn resolved.2 db) resolved.1.id resolved.2 db after := by
  rw [resolveSsoUser, findSsoIdentity, Call.run_query_bind] at hrun
  by_cases hlinked : SsoLinked signIn.oid db
  · rw [provisionedRole, if_pos hlinked]
    obtain ⟨identity, hidentity⟩ := Option.ne_none_iff_exists'.mp fun hnone ↦
      find_eq_none_iff.mp hnone hlinked
    rw [hidentity] at hrun
    refine settles_none ?_ ?_ hrun <;> simp [findUserById]
  · rw [provisionedRole, if_neg hlinked]
    simp only [find_eq_none_iff.mpr hlinked] at hrun
    obtain ⟨connection, found, hconnection, hrest⟩ := Call.run_bind_eq_ok.mp hrun
    obtain ⟨rfl, hconnection⟩ := resolveSsoConnection_run hconnection
    obtain ⟨tenantId, htenant, hrest⟩ := Call.run_require_bind_eq_ok.mp hrest
    obtain ⟨created, upserted, hupserted, hrest⟩ := Call.run_bind_eq_ok.mp hrest
    obtain ⟨keycardId, drawn, hdrawn, hrest⟩ := Call.run_bind_eq_ok.mp hrest
    obtain ⟨_, carded, hcarded, hrest⟩ := Call.run_bind_eq_ok.mp hrest
    have hunchanged : Settles none created.id tenantId found carded := by
      refine ((settles_none ?_ ?_ hupserted).trans (settles_none ?_ ?_ hdrawn)).trans
        (settles_none ?_ ?_ hcarded) <;> simp
    cases hsso : signIn.tid.bind fun tid ↦ ssoConnection tid found with
    | none =>
      obtain rfl : connection = none := by rw [hconnection, hsso]; rfl
      cases hrest
      exact hunchanged
    | some row =>
      obtain rfl : connection = some (row.tenantId, row.defaultRoleSlug) := by
        rw [hconnection, hsso]
        rfl
      rw [Option.bind_some, connectionRole]
      dsimp only at hrest
      split_ifs at hrest ⊢
      · obtain ⟨_, provisioned, hprovisioned, hrest⟩ := Call.run_bind_eq_ok.mp hrest
        cases hrest
        have hsettles := hunchanged.trans (ensureDefaultRole_settles hprovisioned)
        have hroles : defaultRole row.defaultRoleSlug tenantId carded =
            defaultRole row.defaultRoleSlug tenantId found := by
          rw [defaultRole, defaultRole, hunchanged.roles]
        rw [Option.none_or, hroles] at hsettles
        exact hsettles
      · cases hrest
        exact hunchanged

/-- The rest of the login settles the role of a listed address. -/
theorem completeSsoLogin_settles {ipAddress : Option String} {row : User} {issued : LoginResult}
    (hrun : (completeSsoLogin env ipAddress row tenant).run db = (.ok issued, after)) :
    Settles (bootstrapRole env row.email tenant db) row.id tenant db after ∧ issued.user = some row := by
  obtain ⟨_, promoted, hpromoted, hrest⟩ := Call.run_bind_eq_ok.mp hrun
  have hunchanged : Settles none row.id tenant promoted after := by
    refine settles_none ?_ ?_ hrest <;> simp
  refine ⟨by simpa using (bootstrapPlatformAdmin_settles hpromoted).trans hunchanged, ?_⟩
  obtain ⟨_, _, _, hrest⟩ := Call.run_bind_eq_ok.mp hrest
  obtain ⟨_, _, _, hrest⟩ := Call.run_bind_eq_ok.mp hrest
  obtain ⟨_, _, _, hrest⟩ := Call.run_bind_eq_ok.mp hrest
  obtain ⟨_, _, _, hrest⟩ := Call.run_bind_eq_ok.mp hrest
  obtain ⟨_, _, _, hrest⟩ := Call.run_bind_eq_ok.mp hrest
  cases hrest
  rfl

/-- A login that succeeds settles, for its user and tenant, the role of the connection and then that of a
listed address, and its token carries the permissions of the primary role. -/
theorem ssoLogin_settles {ipAddress : Option String} {issued : LoginResult}
    (hrun : (ssoLogin env idToken ipAddress).run db = (.ok issued, after)) :
    ∃ signIn row, ssoSignIn env idToken = some signIn ∧ issued.user = some row ∧
      issued.accessToken.sub = row.id ∧
      Settles ((provisionedRole signIn issued.accessToken.tenantId db).or
        (bootstrapRole env row.email issued.accessToken.tenantId db)) row.id issued.accessToken.tenantId
        db after ∧
      issued.accessToken.permissions = primaryPermissions row.id issued.accessToken.tenantId after := by
  have hamid : (ssoLogin env idToken ipAddress).Amid
      (whileRolesKept issued.accessToken.sub issued.accessToken.tenantId) _ ⟨db, []⟩ :=
    ssoLogin_carries env idToken ipAddress
  obtain ⟨history, hcarries⟩ := hamid.run (fun _ ↦ rfl) hrun
  rcases ssoLogin_cases env idToken ipAddress with ⟨failure, hfailure⟩ | ⟨signIn, hsignIn, hlogin⟩
  · rw [hfailure] at hrun
    cases hrun
  · rw [hlogin] at hrun
    obtain ⟨resolved, middle, hresolved, hcompleted⟩ := Call.run_bind_eq_ok.mp hrun
    obtain ⟨hsub, htenant⟩ := completeSsoLogin_returns (Call.returns_of_run (congrArg Prod.fst hcompleted))
    obtain ⟨hbootstrap, huser⟩ := completeSsoLogin_settles hcompleted
    have hprovisioned := resolveSsoUser_settles hresolved
    have hsame : bootstrapRole env resolved.1.email resolved.2 middle =
        bootstrapRole env resolved.1.email resolved.2 db := by
      rw [bootstrapRole, bootstrapRole, defaultRole, defaultRole, hprovisioned.roles]
    rw [hsame] at hbootstrap
    have hpermissions := hcarries rfl rfl
    rw [hsub, htenant] at hpermissions
    rw [htenant]
    exact ⟨signIn, resolved.1, hsignIn, huser, hsub, hprovisioned.trans hbootstrap, hpermissions⟩

/-! ### The exact condition -/

/-- Assumes: roles have distinct identifiers. The role of an assignment is the one with its identifier. -/
theorem mem_roleOf_iff {roles : List SystemRole} (hroles : (roles.map SystemRole.id).Nodup)
    {assignment : UserRoleAssignment} {role : SystemRole} :
    role ∈ roleOf roles assignment ↔ role ∈ roles ∧ assignment.roleId = role.id := by
  constructor
  · intro hrole
    exact ⟨List.mem_of_find?_eq_some hrole, (by simpa using List.find?_some hrole : _ = _).symm⟩
  · rintro ⟨hmem, hid⟩
    rw [roleOf, hid]
    exact find_of_key hroles hmem

/-- Assumes: roles have distinct identifiers, and the token carries the permissions of the primary role.
Who is elevated stands as an admin in the store after the login. -/
theorem elevated_iff_stands {token : JwtPayload} (hroles : (after.systemRoles.map SystemRole.id).Nodup)
    (hpermissions : token.permissions = primaryPermissions token.sub token.tenantId after) :
    Elevated token after ↔ StandsAsAdmin token.sub token.tenantId after := by
  rw [Elevated, StandsAsAdmin, hpermissions]
  constructor
  · rintro ⟨assignment, hmem, role, hrole, huser, htenant, hid, hadmin, hsubset⟩
    exact ⟨assignment, List.mem_filter.mpr ⟨hmem, decide_eq_true ⟨htenant, huser⟩⟩, role,
      (mem_roleOf_iff hroles).mpr ⟨hrole, hid⟩, hadmin, hsubset⟩
  · rintro ⟨assignment, hassignment, role, hrole, hadmin, hsubset⟩
    obtain ⟨hmem, hown⟩ := List.mem_filter.mp hassignment
    obtain ⟨htenant, huser⟩ := of_decide_eq_true hown
    obtain ⟨hlisted, hid⟩ := (mem_roleOf_iff hroles).mp hrole
    exact ⟨assignment, hmem, role, hlisted, huser, htenant, hid, hadmin, hsubset⟩

/-- Assumes: roles have distinct identifiers, and a role on offer is one of them. After it is settled the
user stands as an admin who did before, or had no role and was offered that of the workspace admin. -/
theorem Settles.stands_iff {offered : Option SystemRole} (hsettles : Settles offered user tenant db after)
    (hroles : (db.systemRoles.map SystemRole.id).Nodup)
    (hoffered : ∀ role ∈ offered, role ∈ db.systemRoles) :
    StandsAsAdmin user tenant after ↔ StandsAsAdmin user tenant db ∨
      assignmentsOf user tenant db = [] ∧ ∃ role ∈ offered, IsWorkspaceAdmin tenant role := by
  by_cases hnone : assignmentsOf user tenant db = []
  · have hnot : ¬ StandsAsAdmin user tenant db := by
      rintro ⟨assignment, hassignment, _⟩
      rw [hnone] at hassignment
      cases hassignment
    cases hoffer : offered with
    | none =>
      have hstays : ¬ StandsAsAdmin user tenant after := by
        rintro ⟨assignment, hassignment, _⟩
        rw [hsettles.kept (.inr hoffer), hnone] at hassignment
        cases hassignment
      simp [hnot, hstays]
    | some role =>
      obtain ⟨assignment, hid, hlist⟩ := hsettles.granted hnone role hoffer
      have hrole : roleOf after.systemRoles assignment = some role := by
        rw [hsettles.roles]
        exact (mem_roleOf_iff hroles).mpr ⟨hoffered role hoffer, hid⟩
      have hprimary : primaryPermissions user tenant after = role.permissions := by
        rw [primaryPermissions, hlist]
        have hfirst : primaryAssignment [assignment] = some assignment := by
          by_cases hscope : assignment.scopeType = .workspace <;> simp [primaryAssignment, hscope]
        simp [hfirst, hrole]
      simp [StandsAsAdmin, hnone, hlist, hrole, hprimary]
  · have hstays := hsettles.kept (.inl hnone)
    rw [StandsAsAdmin, StandsAsAdmin, primaryPermissions, primaryPermissions, hstays, hsettles.roles]
    simp [hnone]

/-- A default role is one of the tenant, with the slug that was asked for or that of a member. -/
theorem defaultRole_spec {slug : String} {role : SystemRole}
    (hrole : defaultRole slug tenant db = some role) :
    role ∈ db.systemRoles ∧ (role.tenantId = none ∨ role.tenantId = some tenant) := by
  have hmem : role ∈ db.systemRoles.filter fun role ↦
      role.tenantId = none ∨ role.tenantId = some tenant := by
    rcases Option.or_eq_some_iff.mp hrole with hfound | ⟨_, hfound⟩
    · exact List.mem_of_find?_eq_some hfound
    · exact List.mem_of_find?_eq_some hfound
  exact ⟨List.mem_of_mem_filter hmem, of_decide_eq_true (List.mem_filter.mp hmem).2⟩

/-- Assumes: the tenant has a workspace admin. Its default role of that slug is one. -/
theorem defaultRole_admin (havailable : ∃ role ∈ db.systemRoles, IsWorkspaceAdmin tenant role) :
    ∃ role, defaultRole "workspace_admin" tenant db = some role ∧ role.slug = "workspace_admin" := by
  obtain ⟨admin, hmem, hslug, htenant⟩ := havailable
  have hfound : ((db.systemRoles.filter fun role ↦
      role.tenantId = none ∨ role.tenantId = some tenant).find? (·.slug = "workspace_admin")).isSome := by
    rw [List.find?_isSome]
    exact ⟨admin, List.mem_filter.mpr ⟨hmem, decide_eq_true htenant⟩, decide_eq_true hslug⟩
  obtain ⟨role, hrole⟩ := Option.isSome_iff_exists.mp hfound
  refine ⟨role, ?_, by simpa using List.find?_some hrole⟩
  rw [defaultRole]
  simp only [hrole, Option.some_or]

/-- The roles on offer are default roles. -/
theorem provisionedRole_spec {role : SystemRole} (hrole : provisionedRole signIn tenant db = some role) :
    ∃ slug, defaultRole slug tenant db = some role := by
  unfold provisionedRole at hrole
  split_ifs at hrole
  obtain ⟨connection, _, hdefault⟩ := Option.bind_eq_some_iff.mp hrole
  unfold connectionRole at hdefault
  split_ifs at hdefault
  exact ⟨connection.defaultRoleSlug, hdefault⟩

theorem bootstrapRole_spec {email : String} {role : SystemRole}
    (hrole : bootstrapRole env email tenant db = some role) :
    ∃ slug, defaultRole slug tenant db = some role := by
  unfold bootstrapRole at hrole
  split_ifs at hrole
  exact ⟨_, hrole⟩

/-- Assumes: the tenant has a workspace admin. The first role on offer is that of the workspace admin
exactly if the connection gives it, or gives none and the lower-cased address is in the list. -/
theorem offersAdmin_iff {email : String}
    (havailable : ∃ role ∈ db.systemRoles, IsWorkspaceAdmin tenant role) :
    (∃ role ∈ (provisionedRole signIn tenant db).or (bootstrapRole env email tenant db),
      IsWorkspaceAdmin tenant role) ↔
      (∃ role ∈ provisionedRole signIn tenant db, role.slug = "workspace_admin") ∨
        provisionedRole signIn tenant db = none ∧ env.toLowerCase email ∈ platformAdminEmails env := by
  cases hprovisioned : provisionedRole signIn tenant db with
  | some role =>
    obtain ⟨slug, hdefault⟩ := provisionedRole_spec hprovisioned
    simp [IsWorkspaceAdmin, (defaultRole_spec hdefault).2]
  | none =>
    obtain ⟨admin, hadmin, hslug⟩ := defaultRole_admin havailable
    by_cases hlisted : env.toLowerCase email ∈ platformAdminEmails env
    · simp [bootstrapRole, hlisted, hadmin, IsWorkspaceAdmin, hslug, (defaultRole_spec hadmin).2]
    · simp [bootstrapRole, hlisted]

/-- Assumes: roles have distinct identifiers. A listed user who signs in is elevated exactly if they stand
as a workspace admin of the tenant already, or become one: they have no role there, and the first on offer
is that of the workspace admin. -/
theorem elevated_iff {ipAddress : Option String} {issued : LoginResult}
    (hroles : (db.systemRoles.map SystemRole.id).Nodup)
    (hrun : (ssoLogin env idToken ipAddress).run db = (.ok issued, after)) :
    ∃ signIn row, ssoSignIn env idToken = some signIn ∧ issued.user = some row ∧
      (IsListed env row.email →
        (∃ role ∈ db.systemRoles, IsWorkspaceAdmin issued.accessToken.tenantId role) →
          (Elevated issued.accessToken after ↔ StandsAsAdmin row.id issued.accessToken.tenantId db ∨
            BecomesAdmin env signIn row issued.accessToken.tenantId db)) := by
  obtain ⟨signIn, row, hsignIn, huser, hsub, hsettles, hpermissions⟩ := ssoLogin_settles hrun
  refine ⟨signIn, row, hsignIn, huser, fun _ havailable ↦ ?_⟩
  have hoffered : ∀ role ∈ (provisionedRole signIn issued.accessToken.tenantId db).or
      (bootstrapRole env row.email issued.accessToken.tenantId db), role ∈ db.systemRoles := by
    intro role hrole
    have hdefault : ∃ slug, defaultRole slug issued.accessToken.tenantId db = some role :=
      (Option.or_eq_some_iff.mp hrole).elim provisionedRole_spec fun h ↦ bootstrapRole_spec h.2
    exact (defaultRole_spec hdefault.choose_spec).1
  rw [elevated_iff_stands (hsettles.roles ▸ hroles) (hsub ▸ hpermissions), hsub,
    hsettles.stands_iff hroles hoffered, offersAdmin_iff havailable, BecomesAdmin]

/-! ### An admin with another role -/

/-- An environment in which the member of the example is a platform admin. -/
def adminEnv : Env := { entraEnv with config := { platformAdminEmails := ["ada@example.com"] } }

/-- The roles of the example. -/
def exampleRoles : List SystemRole :=
  [{ id := 50, tenantId := none, name := "Workspace Admin", slug := "workspace_admin",
     permissions := ["workspace:*"] },
   { id := 51, tenantId := none, name := "Project Member", slug := "project_member",
     permissions := ["project:view"] }]

/-- A linked member without a role. -/
def newAdminDb : Db := { linkedDb with systemRoles := exampleRoles }

/-- The same as a project member. -/
def memberRoleDb : Db :=
  { newAdminDb with
    userRoleAssignments := [{ id := 52, tenantId := 2, userId := 1, roleId := 51,
                              scopeType := .workspace }] }

/-- A witness that a listed user can be elevated: one who has no role yet. -/
theorem elevated_iff_witness :
    ∃ issued after, (ssoLogin adminEnv "id-token" none).run newAdminDb = (.ok issued, after) ∧
      ∃ signIn row, ssoSignIn adminEnv "id-token" = some signIn ∧ issued.user = some row ∧
        (IsListed adminEnv row.email →
          (∃ role ∈ newAdminDb.systemRoles, IsWorkspaceAdmin issued.accessToken.tenantId role) →
            (Elevated issued.accessToken after ↔
              StandsAsAdmin row.id issued.accessToken.tenantId newAdminDb ∨
                BecomesAdmin adminEnv signIn row issued.accessToken.tenantId newAdminDb)) :=
  ⟨_, _, rfl, elevated_iff (by decide) rfl⟩

/-- Not every listed admin who signs in becomes one: a platform admin who is a project member stays one. -/
theorem adminStaysMember :
    ¬ ∀ (env : Env) (idToken : String) (ipAddress : Option String) (db after : Db) (issued : LoginResult)
        (row : User),
      (db.systemRoles.map SystemRole.id).Nodup →
        (ssoLogin env idToken ipAddress).run db = (.ok issued, after) → issued.user = some row →
          IsListed env row.email →
            (∃ role ∈ db.systemRoles, IsWorkspaceAdmin issued.accessToken.tenantId role) →
              Elevated issued.accessToken after := by
  intro halways
  have hrun : ∃ issued after row,
      (ssoLogin adminEnv "id-token" none).run memberRoleDb = (.ok issued, after) ∧
        issued.user = some row ∧ row.email = "ada@example.com" ∧
          after.userRoleAssignments = memberRoleDb.userRoleAssignments ∧
            after.systemRoles = exampleRoles :=
    ⟨_, _, _, rfl, rfl, rfl, rfl, rfl⟩
  obtain ⟨issued, after, row, hrun, huser, hemail, hassignments, hroles⟩ := hrun
  have hlisted : IsListed adminEnv row.email := by
    rw [hemail]
    exact ⟨_, List.mem_singleton_self _, by decide +kernel⟩
  obtain ⟨assignment, hassignment, role, hrole, _, _, hid, ⟨hslug, _⟩, _⟩ :=
    halways _ _ _ _ after issued row (by decide) hrun huser hlisted
      ⟨_, List.mem_cons_self, rfl, .inl rfl⟩
  rw [hassignments] at hassignment
  rw [hroles] at hrole
  obtain rfl := List.mem_singleton.mp hassignment
  rcases List.mem_cons.mp hrole with rfl | hrole
  · exact absurd hid (by decide)
  · obtain rfl := List.mem_singleton.mp hrole
    exact absurd hslug (by decide)

end RallyApi.Identity

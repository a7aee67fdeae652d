import RallyApi.Identity.Frames
import RallyApi.Identity.IssuedTokens
import RallyApi.Identity.SessionFamilies

/-!
# Primary roles and the permission guard

An access token carries the permissions of one role, the primary one: that of the first workspace-scoped
assignment of the user in the tenant, or of the first assignment if there is none. The token does not say
for which scope, and `PermissionGuard` admits a request by the permissions of its token alone, whichever
project it concerns.

`amid_admits_iff` says, for permissions that a user only holds in one project, exactly when a token lets the
guard admit a request that requires them: when no assignment of the user is workspace-scoped and the first
one grants the permission, or when the token carries the defaults. `projectRole_admitsElsewhere` is a user
with one role in one project, who is admitted to every other.
-/

set_option autoImplicit false
set_option relaxedAutoImplicit false

namespace RallyApi.Identity

open Concurrency Platform Store

/-! ### `PermissionGuard` -/

/-- A request as it comes to the guards: the payload of its access token, if it has one, and the project it
concerns, if it concerns one. -/
structure GuardedRequest where
  user : Option JwtPayload
  projectId : Option Uuid
  deriving DecidableEq, Repr

/-- `ForbiddenException`, by its message. -/
structure ForbiddenException where
  message : String
  deriving DecidableEq, Repr

/-- `canActivate`. The annotation of the endpoint gives the permission it requires, if it requires one. -/
def canActivate (requiredPermission : Option String) (request : GuardedRequest) :
    Except ForbiddenException Bool :=
  match requiredPermission.filter (· ≠ "") with
  | none => .ok true
  | some requiredPermission =>
    let permissions := (request.user.map JwtPayload.permissions).getD []
    if permissions = [] then .error ⟨"Insufficient permissions"⟩
    else if "workspace:*" ∈ permissions then .ok true
    else if requiredPermission ∉ permissions then .error ⟨"Insufficient permissions"⟩
    else .ok true

/-- The guard admits a request that requires a permission. -/
def Admits (permission : String) (request : GuardedRequest) : Prop :=
  canActivate (some permission) request = .ok true

/-- Permissions that let the guard admit a request that requires one of them. -/
def Grants (permission : String) (permissions : List String) : Prop :=
  "workspace:*" ∈ permissions ∨ permission ∈ permissions

/-- The guard looks at nothing but the permissions of the token. -/
theorem admits_iff {permission : String} {token : JwtPayload} {projectId : Option Uuid} :
    Admits permission ⟨some token, projectId⟩ ↔
      permission = "" ∨ Grants permission token.permissions := by
  by_cases hempty : permission = ""
  · subst hempty
    exact iff_of_true rfl (.inl rfl)
  · by_cases hwildcard : "workspace:*" ∈ token.permissions
    · have hsome : token.permissions ≠ [] := List.ne_nil_of_mem hwildcard
      simp [Admits, canActivate, Grants, Option.filter, hempty, hwildcard, hsome]
    · by_cases hmem : permission ∈ token.permissions
      · have hsome : token.permissions ≠ [] := List.ne_nil_of_mem hmem
        simp [Admits, canActivate, Grants, Option.filter, hempty, hwildcard, hmem, hsome]
      · simp [Admits, canActivate, Grants, Option.filter, hempty, hwildcard, hmem]

/-! ### The primary role -/

/-- The role assignments of a user in a tenant. -/
def assignmentsOf (user tenant : Uuid) (db : Db) : List UserRoleAssignment :=
  db.userRoleAssignments.filter fun row ↦ row.tenantId = tenant ∧ row.userId = user

/-- The assignment that represents the user: the first workspace-scoped one, or the first. -/
def primaryAssignment (assignments : List UserRoleAssignment) : Option UserRoleAssignment :=
  (assignments.find? (·.scopeType = .workspace)).or assignments.head?

/-- The role of an assignment. -/
def roleOf (roles : List SystemRole) (assignment : UserRoleAssignment) : Option SystemRole :=
  roles.find? fun role ↦ role.id = assignment.roleId

/-- The permissions of the primary role, or the defaults. -/
def primaryPermissions (user tenant : Uuid) (db : Db) : List String :=
  (((primaryAssignment (assignmentsOf user tenant db)).bind (roleOf db.systemRoles)).map
    SystemRole.permissions).getD fallbackPermissions

/-- The user holds a permission in one project only: every assignment in the tenant whose role grants it is
scoped to that project. -/
def OnlyInProject (permission : String) (user tenant project : Uuid) (db : Db) : Prop :=
  ∀ assignment ∈ assignmentsOf user tenant db, ∀ role ∈ roleOf db.systemRoles assignment,
    Grants permission role.permissions →
      assignment.scopeType = .project ∧ assignment.scopeId = some project

/-- No assignment of the user is workspace-scoped, and the role of the first one grants the permission. -/
def FirstGrants (permission : String) (user tenant : Uuid) (db : Db) : Prop :=
  (∀ assignment ∈ assignmentsOf user tenant db, assignment.scopeType ≠ .workspace) ∧
    ∃ assignment ∈ (assignmentsOf user tenant db).head?,
      ∃ role ∈ roleOf db.systemRoles assignment, Grants permission role.permissions

/-- The user has no assignment in the tenant, or the role of the primary one is gone. -/
def HasDefaults (user tenant : Uuid) (db : Db) : Prop :=
  (primaryAssignment (assignmentsOf user tenant db)).bind (roleOf db.systemRoles) = none

section Primary

variable {permission : String} {user tenant project : Uuid} {db : Db} {assignment : UserRoleAssignment}
  {assignments : List UserRoleAssignment}

/-- The primary assignment is one of the user's, and where it is not workspace-scoped, none is. -/
theorem primaryAssignment_some (hprimary : primaryAssignment assignments = some assignment) :
    assignment ∈ assignments ∧ (assignment.scopeType ≠ .workspace →
      (∀ other ∈ assignments, other.scopeType ≠ .workspace) ∧
        assignments.head? = some assignment) := by
  unfold primaryAssignment at hprimary
  cases hfind : assignments.find? (·.scopeType = .workspace) with
  | some preferred =>
    rw [hfind, Option.some_or] at hprimary
    obtain rfl := Option.some.inj hprimary
    have hscope : preferred.scopeType = .workspace := by simpa using List.find?_some hfind
    exact ⟨List.mem_of_find?_eq_some hfind, fun hother ↦ absurd hscope hother⟩
  | none =>
    rw [hfind, Option.none_or] at hprimary
    have hnone : ∀ other ∈ assignments, other.scopeType ≠ .workspace := by
      simpa using List.find?_eq_none.mp hfind
    exact ⟨List.mem_of_mem_head? hprimary, fun _ ↦ ⟨hnone, hprimary⟩⟩

/-- Where no assignment is workspace-scoped, the first represents the user. -/
theorem primaryAssignment_of_forall
    (hnone : ∀ assignment ∈ assignments, assignment.scopeType ≠ .workspace) :
    primaryAssignment assignments = assignments.head? := by
  have hfind : assignments.find? (·.scopeType = .workspace) = none :=
    List.find?_eq_none.mpr fun assignment hassignment ↦ by simp [hnone assignment hassignment]
  rw [primaryAssignment, hfind, Option.none_or]

/-- What the first assignment grants, the primary role grants. -/
theorem FirstGrants.exists_role (hfirst : FirstGrants permission user tenant db) :
    ∃ role, (primaryAssignment (assignmentsOf user tenant db)).bind (roleOf db.systemRoles) = some role ∧
      Grants permission role.permissions := by
  obtain ⟨hnone, assignment, hhead, role, hrole, hgrants⟩ := hfirst
  refine ⟨role, ?_, hgrants⟩
  rw [primaryAssignment_of_forall hnone, Option.mem_def.mp hhead]
  exact hrole

/-- The defaults grant what they contain. -/
theorem grants_fallback_iff : Grants permission fallbackPermissions ↔
    permission ∈ fallbackPermissions := by
  simp [Grants, fallbackPermissions]

/-- Assumes: the user holds the permission in one project only. The permissions of the primary role grant it
exactly when no assignment is workspace-scoped and the first grants it, or when it is a default. -/
theorem grants_primary_iff (honly : OnlyInProject permission user tenant project db) :
    Grants permission (primaryPermissions user tenant db) ↔
      FirstGrants permission user tenant db ∨
        HasDefaults user tenant db ∧ permission ∈ fallbackPermissions := by
  unfold primaryPermissions
  cases hbind : (primaryAssignment (assignmentsOf user tenant db)).bind (roleOf db.systemRoles) with
  | none =>
    change Grants permission fallbackPermissions ↔ _
    rw [grants_fallback_iff]
    refine ⟨fun hdefault ↦ .inr ⟨hbind, hdefault⟩, ?_⟩
    rintro (hfirst | ⟨_, hdefault⟩)
    · obtain ⟨role, hrole, _⟩ := hfirst.exists_role
      cases hbind.symm.trans hrole
    · exact hdefault
  | some role =>
    change Grants permission role.permissions ↔ _
    constructor
    · intro hgrants
      obtain ⟨assignment, hprimary, hrole⟩ := Option.bind_eq_some_iff.mp hbind
      obtain ⟨hmem, hfirst⟩ := primaryAssignment_some hprimary
      have hscope := (honly assignment hmem role hrole hgrants).1
      obtain ⟨hnone, hhead⟩ := hfirst (by simp [hscope])
      exact .inl ⟨hnone, assignment, hhead, role, hrole, hgrants⟩
    · rintro (hfirst | ⟨hdefaults, _⟩)
      · obtain ⟨other, hother, hgrants⟩ := hfirst.exists_role
        obtain rfl := Option.some.inj (hbind.symm.trans hother)
        exact hgrants
      · cases hbind.symm.trans hdefaults

end Primary

/-! ### Surroundings -/

/-- What decides the permissions of a user in a tenant: the assignments, and the roles. -/
def decidesPermissions (user tenant : Uuid) (db : Db) : List UserRoleAssignment × List SystemRole :=
  (assignmentsOf user tenant db, db.systemRoles)

/-- Surroundings in which no other operation changes the assignments of the user in the tenant, or the
roles. -/
def whileRolesKept (user tenant : Uuid) : Surroundings Db SessionStep where
  rely view found := decidesPermissions user tenant found = decidesPermissions user tenant view.db
  guarantee _ _ _ := True

/-- The token is for another user or tenant, or it carries the permissions of the primary role. -/
def CarriesPrimary (user tenant : Uuid) (token : JwtPayload) (db : Db) : Prop :=
  token.sub = user → token.tenantId = tenant → token.permissions = primaryPermissions user tenant db

section Flows

variable {α : Type} {user tenant : Uuid} {view : View Db SessionStep} {token : JwtPayload} {db after : Db}

theorem primaryPermissions_congr
    (hsame : decidesPermissions user tenant after = decidesPermissions user tenant db) :
    primaryPermissions user tenant after = primaryPermissions user tenant db := by
  obtain ⟨hassignments, hroles⟩ := Prod.mk.inj hsame
  rw [primaryPermissions, primaryPermissions, hassignments, hroles]

theorem CarriesPrimary.congr (hcarries : CarriesPrimary user tenant token db)
    (hsame : decidesPermissions user tenant after = decidesPermissions user tenant db) :
    CarriesPrimary user tenant token after :=
  fun huser htenant ↦ (hcarries huser htenant).trans (primaryPermissions_congr hsame).symm

/-- A part of a call, whatever it does. -/
theorem amid_whatever (call : AuthCall α) :
    call.Amid (whileRolesKept user tenant) (fun _ _ ↦ True) view :=
  (Call.amid_of_guaranteed (Call.only_true call) fun _ _ _ h ↦ h).mono fun _ _ _ ↦ trivial

/-- A part that leaves the assignments and the roles alone. -/
theorem amid_of_leavesRoles {call : AuthCall α} (hassignments : call.Only (Leaves .userRoleAssignments))
    (hroles : call.Only (Leaves .systemRoles)) :
    call.Amid (whileRolesKept user tenant) (fun value later ↦ call.Returns value ∧
      decidesPermissions user tenant later.db = decidesPermissions user tenant view.db) view := by
  refine Call.amid_of_only (hassignments.and hroles) (fun _ found _ later hview hfound hboth ↦
    ⟨trivial, ?_⟩) rfl
  have hkept : decidesPermissions user tenant later = decidesPermissions user tenant found :=
    Prod.ext (congrArg (List.filter _) hboth.1) hboth.2
  exact (hkept.trans hfound).trans hview

/-- `getUserRoleAndPermissions` returns the permissions of the primary role. -/
theorem getUserPermissions_amid (userId tenantId : Uuid) :
    (getUserPermissions userId tenantId).Amid (whileRolesKept user tenant)
      (fun permissions later ↦ userId = user → tenantId = tenant →
        permissions = primaryPermissions user tenant later.db) view := by
  refine Call.amid_bind.mpr (Call.amid_query.mpr fun found _ ↦ ⟨trivial, ?_⟩)
  split
  · rename_i hprimary
    change primaryAssignment (assignmentsOf userId tenantId found) = none at hprimary
    rintro rfl rfl
    change fallbackPermissions = primaryPermissions userId tenantId found
    rw [primaryPermissions, hprimary]
    rfl
  · rename_i preferred hprimary
    change primaryAssignment (assignmentsOf userId tenantId found) = some preferred at hprimary
    refine Call.amid_bind.mpr (Call.amid_query.mpr fun later hlater ↦ ⟨trivial, ?_⟩)
    rintro rfl rfl
    change _ = primaryPermissions userId tenantId later
    change decidesPermissions userId tenantId later = decidesPermissions userId tenantId found at hlater
    obtain ⟨hassignments, _⟩ := Prod.mk.inj hlater
    rw [primaryPermissions, hassignments, hprimary]
    rfl

/-- `signAccessToken` signs the permissions it is given. -/
theorem signAccessToken_permissions {env : Env} {row : User} {sessionId tenantId : Uuid}
    {permissions : List String} {authMethod : AuthMethod} {signed : JwtPayload × ℕ}
    (hreturns :
      (signAccessToken env row sessionId permissions tenantId authMethod).Returns signed) :
    signed.1.permissions = permissions := by
  obtain ⟨jti, _, hrest⟩ := hreturns.of_bind
  obtain ⟨expiresIn, _, hrest⟩ := hrest.of_bind
  obtain ⟨now, _, hrest⟩ := hrest.of_bind
  obtain rfl := hrest
  rfl

/-- A token that is signed with permissions that have been read. -/
theorem signAccessToken_carries {env : Env} {row : User} {sessionId tenantId : Uuid}
    {permissions : List String} {authMethod : AuthMethod}
    (hread : row.id = user → tenantId = tenant →
      permissions = primaryPermissions user tenant view.db) :
    (signAccessToken env row sessionId permissions tenantId authMethod).Amid (whileRolesKept user tenant)
      (fun signed later ↦ CarriesPrimary user tenant signed.1 later.db) view := by
  refine (amid_of_leavesRoles (by simp) (by simp)).mono ?_
  rintro signed later ⟨hsigned, hsame⟩ huser htenant
  obtain ⟨hsub, htenantId⟩ := signAccessToken_returns hsigned
  rw [primaryPermissions_congr hsame]
  exact (signAccessToken_permissions hsigned).trans (hread (hsub ▸ huser) (htenantId ▸ htenant))

/-- The end of a flow: a token with permissions that have been read. -/
theorem issueSession_carries {env : Env} {row : User} {sessionId tenantId : Uuid}
    {permissions : List String} {authMethod : AuthMethod} {ttlSeconds : ℕ}
    {ipAddress ssoProvider : Option String}
    (hread : row.id = user → tenantId = tenant →
      permissions = primaryPermissions user tenant view.db) :
    (issueSession env row sessionId permissions tenantId authMethod ttlSeconds ipAddress
      ssoProvider).Amid (whileRolesKept user tenant)
        (fun issued later ↦ CarriesPrimary user tenant issued.accessToken later.db) view := by
  refine (signAccessToken_carries hread).bind fun signed _ hcarries ↦ ?_
  refine (amid_of_leavesRoles (by simp) (by simp)).bind ?_
  rintro token drawn ⟨_, hdrawn⟩
  refine (amid_of_leavesRoles (by simp) (by simp)).bind ?_
  rintro expiresAt timed ⟨_, htimed⟩
  refine (amid_of_leavesRoles (by simp) (by simp)).bind ?_
  rintro _ later ⟨_, hopened⟩
  exact hcarries.congr ((hopened.trans htimed).trans hdrawn)

/-! ### The flows -/

theorem login_carries (env : Env) (email password : String) (ipAddress : Option String)
    (rememberMe : Bool) :
    (login env email password ipAddress rememberMe).Amid (whileRolesKept user tenant)
      (fun issued later ↦ CarriesPrimary user tenant issued.accessToken later.db) view := by
  refine (amid_whatever _).bind fun found _ _ ↦ ?_
  refine Call.amid_bind.mpr (Call.amid_require.mpr fun row _ ↦ ?_)
  refine Call.amid_bind.mpr (Call.amid_require.mpr fun passwordHash _ ↦ ?_)
  refine Call.amid_bind.mpr (Call.amid_ensure.mpr fun _ ↦ ?_)
  refine Call.amid_bind.mpr (Call.amid_ensure.mpr fun _ ↦ ?_)
  refine Call.amid_bind.mpr (Call.amid_ensure.mpr fun _ ↦ ?_)
  refine (amid_whatever _).bind fun sessionId _ _ ↦ ?_
  refine (amid_whatever _).bind fun memberships _ _ ↦ ?_
  refine Call.amid_bind.mpr (Call.amid_require.mpr fun active _ ↦ ?_)
  refine (getUserPermissions_amid _ _).bind fun permissions _ hread ↦ ?_
  refine (issueSession_carries hread).bind fun issued _ hcarries ↦ ?_
  refine (amid_of_leavesRoles (by simp) (by simp)).bind ?_
  rintro _ later ⟨_, htouched⟩
  exact hcarries.congr htouched

theorem signup_carries (env : Env) (input : SignupInput) (ipAddress : Option String) :
    (signup env input ipAddress).Amid (whileRolesKept user tenant)
      (fun issued later ↦ CarriesPrimary user tenant issued.accessToken later.db) view := by
  refine (amid_whatever _).bind fun existing _ _ ↦ ?_
  refine Call.amid_bind.mpr (Call.amid_ensure.mpr fun _ ↦ ?_)
  refine (amid_whatever _).bind fun resolved _ _ ↦ ?_
  refine (amid_whatever _).bind fun userId _ _ ↦ ?_
  refine (amid_whatever _).bind fun created _ _ ↦ ?_
  refine (amid_whatever _).bind fun _ _ _ ↦ ?_
  refine (amid_whatever _).bind fun _ _ _ ↦ ?_
  refine (amid_whatever _).bind fun sessionId _ _ ↦ ?_
  refine (amid_whatever _).bind fun memberships _ _ ↦ ?_
  refine (getUserPermissions_amid _ _).bind fun permissions _ hread ↦ ?_
  refine (issueSession_carries hread).bind fun issued _ hcarries ↦ ?_
  refine (amid_of_leavesRoles (by simp) (by simp)).bind ?_
  rintro _ later ⟨_, htouched⟩
  exact hcarries.congr htouched

theorem ssoLogin_carries (env : Env) (idToken : String) (ipAddress : Option String) :
    (ssoLogin env idToken ipAddress).Amid (whileRolesKept user tenant)
      (fun issued later ↦ CarriesPrimary user tenant issued.accessToken later.db) view := by
  rcases ssoLogin_cases env idToken ipAddress with ⟨failure, hfailure⟩ | ⟨signIn, _, hlogin⟩
  · rw [hfailure]
    trivial
  · rw [hlogin]
    refine (amid_whatever _).bind fun resolved _ _ ↦ ?_
    refine (amid_whatever _).bind fun _ _ _ ↦ ?_
    refine (amid_whatever _).bind fun sessionId _ _ ↦ ?_
    refine (getUserPermissions_amid _ _).bind fun permissions _ hread ↦ ?_
    refine (issueSession_carries hread).bind fun issued _ hcarries ↦ ?_
    refine (amid_of_leavesRoles (by simp) (by simp)).bind ?_
    rintro memberships listed ⟨_, hlisted⟩
    refine (amid_of_leavesRoles (by simp) (by simp)).bind ?_
    rintro _ later ⟨_, htouched⟩
    exact hcarries.congr (htouched.trans hlisted)

theorem refresh_carries (env : Env) (rawRefreshToken : RawToken) (ipAddress : Option String) :
    (refresh env rawRefreshToken ipAddress).Amid (whileRolesKept user tenant)
      (fun issued later ↦ CarriesPrimary user tenant issued.accessToken later.db) view := by
  refine (amid_whatever _).bind fun found _ _ ↦ ?_
  refine Call.amid_bind.mpr (Call.amid_require.mpr fun session _ ↦ ?_)
  split
  · exact (amid_whatever _).bind fun _ _ _ ↦ trivial
  · refine (amid_whatever _).bind fun now _ _ ↦ ?_
    refine Call.amid_bind.mpr (Call.amid_ensure.mpr fun _ ↦ ?_)
    refine (amid_whatever _).bind fun found _ _ ↦ ?_
    refine Call.amid_bind.mpr (Call.amid_require.mpr fun row _ ↦ ?_)
    refine Call.amid_bind.mpr (Call.amid_ensure.mpr fun _ ↦ ?_)
    refine (amid_whatever _).bind fun newSessionId _ _ ↦ ?_
    refine (getUserPermissions_amid _ _).bind fun permissions _ hread ↦ ?_
    refine (signAccessToken_carries hread).bind fun signed _ hcarries ↦ ?_
    refine (amid_of_leavesRoles (by simp) (by simp)).bind ?_
    rintro token drawn ⟨_, hdrawn⟩
    refine (amid_of_leavesRoles (by simp) (by simp)).bind ?_
    rintro expiresAt timed ⟨_, htimed⟩
    refine (amid_of_leavesRoles (by simp) (by simp)).bind ?_
    rintro _ later ⟨_, hrotated⟩
    exact hcarries.congr ((hrotated.trans htimed).trans hdrawn)

theorem switchTenant_carries (env : Env) (payload : JwtPayload) (targetTenantId : Uuid)
    (ipAddress : Option String) (denylistFirst : Bool) :
    (switchTenant env payload targetTenantId ipAddress denylistFirst).Amid
      (whileRolesKept user tenant)
      (fun issued later ↦ CarriesPrimary user tenant issued.accessToken later.db) view := by
  refine (amid_whatever _).bind fun found _ _ ↦ ?_
  refine Call.amid_bind.mpr (Call.amid_require.mpr fun keycard _ ↦ ?_)
  refine Call.amid_bind.mpr (Call.amid_ensure.mpr fun _ ↦ ?_)
  refine (amid_whatever _).bind fun found _ _ ↦ ?_
  refine Call.amid_bind.mpr (Call.amid_require.mpr fun row _ ↦ ?_)
  refine Call.amid_bind.mpr (Call.amid_ensure.mpr fun _ ↦ ?_)
  refine (getUserPermissions_amid _ _).bind fun permissions _ hread ↦ ?_
  refine (amid_of_leavesRoles (by simp) (by simp)).bind ?_
  rintro newSessionId drawn ⟨_, hsession⟩
  have hkept : row.id = user → targetTenantId = tenant →
      permissions = primaryPermissions user tenant drawn.db :=
    fun huser htenant ↦ (hread huser htenant).trans (primaryPermissions_congr hsession).symm
  refine (signAccessToken_carries hkept).bind fun signed _ hcarries ↦ ?_
  refine (amid_of_leavesRoles (by simp) (by simp)).bind ?_
  rintro token drawn ⟨_, hdrawn⟩
  refine (amid_of_leavesRoles (by simp) (by simp)).bind ?_
  rintro expiresAt timed ⟨_, htimed⟩
  refine (amid_of_leavesRoles (bothInOrder_leaves (by simp) (by simp) _)
    (bothInOrder_leaves (by simp) (by simp) _)).bind ?_
  rintro _ replaced ⟨_, hreplaced⟩
  refine (amid_of_leavesRoles (by simp) (by simp)).bind ?_
  rintro _ later ⟨_, htouched⟩
  exact hcarries.congr (((htouched.trans hreplaced).trans htimed).trans hdrawn)

/-- Every token carries the permissions of the primary role. -/
theorem serve_carries (env : Env) (request : AuthRequest) :
    (request.serve env).Amid (whileRolesKept user tenant) (fun result later ↦ ∀ issued,
      result = some issued → CarriesPrimary user tenant issued.accessToken later.db) view := by
  cases request with
  | login => exact (login_carries _ _ _ _ _).map_some
  | signup => exact (signup_carries _ _ _).map_some
  | ssoLogin => exact (ssoLogin_carries _ _ _).map_some
  | refresh => exact (refresh_carries _ _ _).map_some
  | switchTenant => exact (switchTenant_carries _ _ _ _ _).map_some
  | logout => exact (amid_whatever _).map_none
  | logoutAll => exact (amid_whatever _).map_none
  | resetPassword => exact (amid_whatever _).map_none
  | tick => exact (amid_whatever _).map_none

end Flows

/-! ### The result -/

/-- A token a call issues while no other operation changes the roles of its user in its tenant, and a
permission the user holds in one project only. The guard admits a request that requires it, whichever
project it concerns, exactly when no assignment of the user is workspace-scoped and the first grants the
permission, or when the token carries the defaults and the permission is one of them. -/
theorem amid_admits_iff (env : Env) (user tenant project : Uuid) (permission : String)
    (request : AuthRequest) (view : View Db SessionStep) :
    (request.serve env).Amid (whileRolesKept user tenant)
      (fun result after ↦ ∀ issued, result = some issued → issued.accessToken.sub = user →
        issued.accessToken.tenantId = tenant → OnlyInProject permission user tenant project after.db →
        ∀ other : Option Uuid, Admits permission ⟨some issued.accessToken, other⟩ ↔
          permission = "" ∨ FirstGrants permission user tenant after.db ∨
            HasDefaults user tenant after.db ∧ permission ∈ fallbackPermissions)
      view := by
  refine (serve_carries env request).mono ?_
  intro result after hcarries issued hissued huser htenant honly other
  rw [admits_iff, hcarries issued hissued huser htenant, grants_primary_iff honly]

/-! ### A role in one project -/

/-- The member of the tenant is the admin of project 100, and has no other role. -/
def projectAdminDb : Db :=
  { exampleDb with
    systemRoles := [{ id := 50, tenantId := none, name := "Project Admin", slug := "project_admin",
                      permissions := ["project:view", "project:edit"] }]
    userRoleAssignments := [{ id := 51, tenantId := 2, userId := 1, roleId := 50,
                              scopeType := .project, scopeId := some 100 }] }

/-- The member logs in, and the guard admits a request to edit project 101. -/
theorem projectRole_admitsElsewhere :
    ¬ ∀ (env : Env) (request : AuthRequest) (db after : Db) (issued : LoginResult)
        (permission : String) (project other : Uuid),
      (request.serve env).run db = (.ok (some issued), after) →
        OnlyInProject permission issued.accessToken.sub issued.accessToken.tenantId project after →
        other ≠ project → ¬ Admits permission ⟨some issued.accessToken, some other⟩ := by
  intro halways
  have hrun : ∃ issued after,
      ((AuthRequest.login "ada@example.com" "secret" none true).serve exampleEnv).run projectAdminDb =
        (.ok (some issued), after) ∧ issued.accessToken.permissions = ["project:view", "project:edit"] ∧
      after.userRoleAssignments = projectAdminDb.userRoleAssignments :=
    ⟨_, _, rfl, rfl, rfl⟩
  obtain ⟨issued, after, hrun, hpermissions, hassignments⟩ := hrun
  refine halways _ _ _ after issued "project:edit" 100 101 hrun ?_ (by decide) ?_
  · intro assignment hassignment role _ _
    rw [assignmentsOf, hassignments] at hassignment
    obtain rfl := List.mem_singleton.mp (List.mem_of_mem_filter hassignment)
    exact ⟨rfl, rfl⟩
  · rw [admits_iff, hpermissions]
    exact .inr (.inr (by decide))

end RallyApi.Identity

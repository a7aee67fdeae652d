import RallyApi.Access.GrantRequests
import RallyApi.Concurrency.Conjunction
import RallyApi.Concurrency.Growth
import RallyApi.Identity.PlatformAdmins

/-!
# Who grants whom a role

`GrantOf` says how a role assignment comes to be: it was there at the start; its user joined the tenant, by
one of the ways of `Joins`, and has the default role that goes with it; or it was given by a user who held a
role of the same tenant that allows to manage members, by an assignment that itself came to be so.

The protocol `granting` keeps every assignment of the store so. It rests on what no step takes away
(`Standing`) and on the links of accounts, whose protocol is used as it is.
-/

set_option autoImplicit false
set_option relaxedAutoImplicit false

namespace RallyApi.Access

open Concurrency Protocol Identity Platform Store

variable {α : Type} {env : Env} {initial db after : Db} {requests : List GrantRequest} {number : ℕ}
  {userId tenantId : Uuid} {slug : String} {permissions : List String} {row : UserRoleAssignment}

/-! ### How assignments come to be -/

/-- The account was opened in the run, with the e-mail address of a signup. -/
structure NewAccount (env : Env) (initial : Db) (input : SignupInput) (userId : Uuid) (db : Db) : Prop where
  new : userId ∉ initial.users.map User.id
  account : AccountAt userId (normalised env (normalised env input.email)) db

/-- Why a user gets a default role in a tenant, and which: they signed up with an address of a verified
domain that lets its users join; they signed up and founded the tenant; they signed in from a directory
whose active connection creates accounts; or they are listed as a platform admin. Assumes: `initial` is the
store at the start, `requests` are those that have been made. -/
inductive Joins (env : Env) (initial : Db) (requests : List GrantRequest) (db : Db) (userId : Uuid) :
    Uuid → String → Prop
  | autoJoin (input : SignupInput) (ipAddress : Option String) (claim : TenantDomain)
      (hrequest : .auth (.signup input ipAddress) ∈ requests)
      (haccount : NewAccount env initial input userId db) (hclaim : claim ∈ initial.tenantDomains)
      (hverified : claim.verified.isSome = true) (hallowed : claim.allowAutoJoin = true)
      (hdomain : claim.domain = env.toLowerCase (emailDomain (normalised env input.email))) :
    Joins env initial requests db userId claim.tenantId "project_member"
  | founds (tenantId : Uuid) (input : SignupInput) (ipAddress : Option String)
      (hrequest : .auth (.signup input ipAddress) ∈ requests)
      (haccount : NewAccount env initial input userId db)
      (htenant : tenantId ∉ initial.tenants.map Tenant.id) :
    Joins env initial requests db userId tenantId "workspace_admin"
  | signsIn (idToken : String) (ipAddress : Option String) (signIn : SsoSignIn)
      (connection : SsoConnection) (hrequest : .auth (.ssoLogin idToken ipAddress) ∈ requests)
      (hsignIn : ssoSignIn env idToken = some signIn) (hlinked : LinkedTo "entra" signIn.oid userId db)
      (hconnection : connection ∈ initial.ssoConnections) (hprovider : connection.provider = "entra")
      (hdirectory : signIn.tid = some connection.externalTenantId) (hactive : connection.status = .active)
      (hallowed : isEmailDomainAllowed env signIn.email connection.allowedEmailDomains = true)
      (hcreates : connection.jitEnabled = true) :
    Joins env initial requests db userId connection.tenantId connection.defaultRoleSlug
  | listed (tenantId : Uuid) (idToken email : String) (ipAddress : Option String)
      (signIn : SsoSignIn) (hrequest : .auth (.ssoLogin idToken ipAddress) ∈ requests)
      (hsignIn : ssoSignIn env idToken = some signIn) (hlinked : LinkedTo "entra" signIn.oid userId db)
      (haccount : AccountAt userId email db)
      (hlisted : env.toLowerCase email ∈ platformAdminEmails env) :
    Joins env initial requests db userId tenantId "workspace_admin"

/-- The role is one that `ensureDefaultRole` may choose in the tenant. -/
def IsDefault (initial : Db) (tenantId : Uuid) (slug : String) (roleId : Uuid) : Prop :=
  ∃ role ∈ initial.systemRoles, accessibleIn tenantId role = true ∧
    (role.slug = slug ∨ role.slug = "workspace_member") ∧ role.id = roleId

/-- How an assignment comes to be. Assumes: `initial` is the store at the start, `requests` are those that
have been made. -/
inductive GrantOf (env : Env) (initial : Db) (requests : List GrantRequest) (db : Db) :
    UserRoleAssignment → Prop
  | initial (row : UserRoleAssignment) (hrow : row ∈ initial.userRoleAssignments) :
    GrantOf env initial requests db row
  | joined (row : UserRoleAssignment) (slug : String)
      (hjoins : Joins env initial requests db row.userId row.tenantId slug)
      (hdefault : IsDefault initial row.tenantId slug row.roleId) (hscope : row.scopeType = .workspace) :
    GrantOf env initial requests db row
  | given (row held : UserRoleAssignment) (role given : SystemRole)
      (hheld : GrantOf env initial requests db held) (hrole : role ∈ initial.systemRoles)
      (hroleId : role.id = held.roleId) (hmanages : Grants manageMembers role.permissions)
      (hgrantor : row.grantedBy = some held.userId) (htenant : row.tenantId = held.tenantId)
      (hgiven : given ∈ initial.systemRoles) (hgivenId : given.id = row.roleId)
      (haccessible : accessibleIn row.tenantId given = true) :
    GrantOf env initial requests db row

/-- The permissions are those of a role that the user holds in the tenant, by an assignment that has come to
be so, or the defaults. -/
def Held (env : Env) (initial : Db) (requests : List GrantRequest) (userId tenantId : Uuid)
    (permissions : List String) (db : Db) : Prop :=
  permissions = fallbackPermissions ∨
    ∃ row, GrantOf env initial requests db row ∧ row.userId = userId ∧ row.tenantId = tenantId ∧
      ∃ role ∈ initial.systemRoles, role.id = row.roleId ∧ role.permissions = permissions

/-- The permissions of a token are held by its user in its tenant. -/
def HeldBy (env : Env) (initial : Db) (requests : List GrantRequest) (token : JwtPayload) (db : Db) :
    Prop :=
  Held env initial requests token.sub token.tenantId token.permissions db

theorem Standing.accountAt {email : String} (hstanding : Standing db after)
    (haccount : AccountAt userId email db) : AccountAt userId email after := by
  obtain ⟨user, huser, hid, hemail⟩ := haccount
  obtain ⟨later, hlater, hsame⟩ := hstanding.users user huser
  exact ⟨later, hlater, hsame.id.trans hid, hsame.email.trans hemail⟩

theorem Joins.mono (hstanding : Standing db after)
    (hjoins : Joins env initial requests db userId tenantId slug) :
    Joins env initial requests after userId tenantId slug := by
  cases hjoins with
  | autoJoin input ipAddress claim hrequest haccount hclaim hverified hallowed hdomain =>
    exact .autoJoin input ipAddress claim hrequest
      ⟨haccount.new, hstanding.accountAt haccount.account⟩ hclaim hverified hallowed hdomain
  | founds _ input ipAddress hrequest haccount htenant =>
    exact .founds tenantId input ipAddress hrequest
      ⟨haccount.new, hstanding.accountAt haccount.account⟩ htenant
  | signsIn idToken ipAddress signIn connection hrequest hsignIn hlinked hconnection hprovider
      hdirectory hactive hallowed hcreates =>
    exact .signsIn idToken ipAddress signIn connection hrequest hsignIn
      (hstanding.links.linkedTo db after hlinked) hconnection hprovider hdirectory hactive hallowed hcreates
  | listed _ idToken email ipAddress signIn hrequest hsignIn hlinked haccount hlisted =>
    exact .listed tenantId idToken email ipAddress signIn hrequest hsignIn
      (hstanding.links.linkedTo db after hlinked) (hstanding.accountAt haccount) hlisted

/-- How an assignment has come to be stays so. By induction on how it has. -/
theorem GrantOf.mono (hstanding : Standing db after) (hgrant : GrantOf env initial requests db row) :
    GrantOf env initial requests after row := by
  induction hgrant with
  | initial row hrow => exact .initial row hrow
  | joined row slug hjoins hdefault hscope =>
    exact .joined row slug (hjoins.mono hstanding) hdefault hscope
  | given row held role given _ hrole hroleId hmanages hgrantor htenant hgiven hgivenId haccessible ih =>
    exact .given row held role given ih hrole hroleId hmanages hgrantor htenant hgiven hgivenId haccessible

theorem Held.mono (hstanding : Standing db after)
    (hheld : Held env initial requests userId tenantId permissions db) :
    Held env initial requests userId tenantId permissions after := by
  rcases hheld with hfallback | ⟨row, hgrant, hrest⟩
  · exact .inl hfallback
  · exact .inr ⟨row, hgrant.mono hstanding, hrest⟩

/-! ### The protocol -/

/-- What grants rest on stays as it was. -/
def standing (initial : Db) : Protocol Db SessionStep where
  permits := anyStep
  invariant world := Standing initial world.db
  guarantee _ world _ after := Standing world.db after

/-- Every assignment of the store has come to be as it should. -/
def GrantsOf (env : Env) (initial : Db) (requests : List GrantRequest) (db : Db) : Prop :=
  ∀ row ∈ db.userRoleAssignments, GrantOf env initial requests db row

/-- The protocol: what grants rest on, the links of accounts, and the assignments. -/
def granting (env : Env) (initial : Db) (requests : List GrantRequest) : Protocol Db SessionStep :=
  ((standing initial).both (linking initial)).extended (GrantsOf env initial requests)

/-- The protocol permits every step. -/
theorem permits_granting : (granting env initial requests).permits = anyStep :=
  funext fun _ ↦ funext fun _ ↦ and_self True

/-- What survives a step that keeps what grants rest on is never lost. -/
theorem granting_persistent {property : Db → Prop}
    (hkept : ∀ before after, Standing before after → property before → property after) :
    (granting env initial requests).Persistent fun world ↦ property world.db := by
  have hguarantee : ∀ number world label after,
      (granting env initial requests).guarantee number world label after → Standing world.db after :=
    fun _ _ _ _ hboth ↦ hboth.1
  exact persistent_of_growth hguarantee hkept

theorem grantOf_persistent : (granting env initial requests).Persistent fun world ↦
    GrantOf env initial requests world.db row :=
  granting_persistent fun _ _ ↦ GrantOf.mono

theorem held_persistent : (granting env initial requests).Persistent fun world ↦
    Held env initial requests userId tenantId permissions world.db :=
  granting_persistent fun _ _ ↦ Held.mono

theorem joins_persistent : (granting env initial requests).Persistent fun world ↦
    Joins env initial requests world.db userId tenantId slug :=
  granting_persistent fun _ _ ↦ Joins.mono

/-- A step of a call that grants nothing. -/
theorem keeps_of_unprivileged {world : World Db SessionStep} {label : SessionStep}
    (hinv : (granting env initial requests).invariant world)
    (hstep : Unprivileged world.db label after) :
    (granting env initial requests).Keeps number world label after := by
  refine ⟨⟨hstep.toStanding, hstep.links⟩, ⟨hinv.1.1.trans hstep.toStanding,
    hstep.links.distinct hinv.1.2.1, hinv.1.2.2.trans hstep.links⟩, fun row hrow ↦ ?_⟩
  exact (hinv.2 row (hstep.assignments hrow)).mono hstep.toStanding

/-- A call that grants nothing, and what is known of it under the two protocols. -/
theorem meets_ungranting {call : AuthCall α} {pre otherPre : World Db SessionStep → Prop}
    {post otherPost : α → World Db SessionStep → Prop}
    (hstanding : (standing initial).Meets number call pre post)
    (hlinks : (linking initial).Meets number call otherPre otherPost) (hcall : call.Only Unprivileged) :
    (granting env initial requests).Meets number call (fun world ↦ pre world ∧ otherPre world)
      fun value world ↦ post value world ∧ otherPost value world := by
  refine ((hstanding.both hlinks).extended hcall (persistent_const True) ?_).conseq
    (fun _ _ hpre ↦ ⟨hpre, trivial⟩) fun _ _ _ hpost ↦ hpost.1
  intro world label after hinv hgrants _ _ hstep row hrow
  exact (hgrants row (hstep.assignments hrow)).mono hstep.toStanding

/-- A call that grants nothing, and a fact that lasts. -/
theorem meets_plain {call : AuthCall α} {fact : World Db SessionStep → Prop}
    (hcall : call.Only Unprivileged) (hfact : (granting env initial requests).Persistent fact) :
    (granting env initial requests).Meets number call fact fun _ ↦ fact :=
  meets_of_only hcall hfact.stable fun world label after hinv hholds _ hstep ↦
    have hkeeps := keeps_of_unprivileged hinv hstep
    ⟨hkeeps, hfact number world label after hinv hholds hkeeps.guarantee⟩

/-! ### Assignments -/

/-- An assignment that has come to be as it should may be inserted. -/
theorem meets_createRoleAssignment :
    (granting env initial requests).Meets number (createRoleAssignment row)
      (fun world ↦ GrantOf env initial requests world.db row) fun _ _ ↦ True := by
  refine meets_attempt grantOf_persistent.stable (fun world _ hinv _ _ _ ↦
    keeps_of_unprivileged hinv (unprivileged_refl _ _)) fun world value after hinv hgrant _ hrun ↦ ?_
  split_ifs at hrun
  cases hrun
  have hstanding : Standing world.db
      { world.db with userRoleAssignments := world.db.userRoleAssignments ++ [row] } :=
    standing_of_same rfl rfl rfl rfl rfl rfl
  refine ⟨⟨⟨hstanding, hstanding.links⟩, ⟨hinv.1.1.trans hstanding, hstanding.links.distinct hinv.1.2.1,
    hinv.1.2.2.trans hstanding.links⟩, ?_⟩, trivial⟩
  intro other hother
  rcases List.mem_append.mp hother with hold | hnew
  · exact (hinv.2 other hold).mono hstanding
  · obtain rfl := List.mem_singleton.mp hnew
    exact hgrant.mono hstanding

/-- The roles that are read are those of the start. -/
theorem meets_roles {β : Type} {read : Db → β} {property : β → Prop}
    (hread : ∀ db : Db, db.systemRoles = initial.systemRoles → property (read db)) :
    (granting env initial requests).Meets number (Call.query .other read : AuthCall β) (fun _ ↦ True)
      fun found _ ↦ property found :=
  meets_query stable_true fun world hinv _ _ ↦
    ⟨keeps_of_unprivileged hinv (unprivileged_refl _ _), hread world.db hinv.1.1.roles⟩

theorem meets_findRoleById (id : Uuid) :
    (granting env initial requests).Meets number (findRoleById id) (fun _ ↦ True)
      fun found _ ↦ ∀ role, found = some role → role ∈ initial.systemRoles ∧ role.id = id := by
  refine meets_roles fun db hroles role hfound ↦ ?_
  rw [hroles] at hfound
  have hid := List.find?_some hfound
  exact ⟨List.mem_of_find?_eq_some hfound, of_decide_eq_true hid⟩

/-- A user who joins is given a default role, if they have none. -/
theorem meets_ensureDefaultRole :
    (granting env initial requests).Meets number (ensureDefaultRole userId tenantId slug)
      (fun world ↦ Joins env initial requests world.db userId tenantId slug) fun _ _ ↦ True := by
  refine (meets_plain (by simp [listForUser]) joins_persistent).bind fun existing _ ↦ ?_
  split_ifs
  · exact meets_pure fun _ _ _ ↦ trivial
  have hroles : (granting env initial requests).Meets number (listRolesForTenant tenantId) (fun _ ↦ True)
      fun found _ ↦ ∀ role ∈ found, role ∈ initial.systemRoles ∧ accessibleIn tenantId role = true := by
    refine meets_roles fun db hsame role hrole ↦ ?_
    rw [hsame] at hrole
    exact List.mem_filter.mp hrole
  refine Meets.strengthen ((hroles.frame joins_persistent).bind fun roles _ ↦ ?_)
    fun _ _ hjoins ↦ ⟨trivial, hjoins⟩
  refine (meets_and_fact fun hfound ↦ ?_).strengthen fun _ _ hboth ↦ ⟨hboth.2, hboth.1⟩
  split
  · exact meets_pure fun _ _ _ ↦ trivial
  rename_i role hrole
  have hdefault : IsDefault initial tenantId slug role.id := by
    rcases Option.or_eq_some_iff.mp hrole with hslug | ⟨_, hmember⟩
    · have hmatches := List.find?_some hslug
      obtain ⟨hrole, haccessible⟩ := hfound role (List.mem_of_find?_eq_some hslug)
      exact ⟨role, hrole, haccessible, .inl (of_decide_eq_true hmatches), rfl⟩
    · have hmatches := List.find?_some hmember
      obtain ⟨hrole, haccessible⟩ := hfound role (List.mem_of_find?_eq_some hmember)
      exact ⟨role, hrole, haccessible, .inr (of_decide_eq_true hmatches), rfl⟩
  refine (meets_plain uuidv7_unprivileged joins_persistent).bind fun id _ ↦ ?_
  exact meets_createRoleAssignment.strengthen fun world _ hjoins ↦ .joined _ slug hjoins hdefault rfl

/-- The assignments that are read have come to be as they should. -/
theorem meets_listForUser :
    (granting env initial requests).Meets number (listForUser tenantId userId) (fun _ ↦ True)
      fun found world ↦ ∀ row ∈ found, GrantOf env initial requests world.db row ∧
        row.userId = userId ∧ row.tenantId = tenantId := by
  refine meets_query stable_true fun world hinv _ _ ↦
    ⟨keeps_of_unprivileged hinv (unprivileged_refl _ _), fun row hrow ↦ ?_⟩
  obtain ⟨hstored, hmatches⟩ := List.mem_filter.mp hrow
  obtain ⟨htenant, huser⟩ := of_decide_eq_true hmatches
  exact ⟨hinv.2 row hstored, huser, htenant⟩

/-- The permissions that a token is given are held by its user. -/
theorem meets_getUserPermissions :
    (granting env initial requests).Meets number (getUserPermissions userId tenantId) (fun _ ↦ True)
      fun permissions world ↦ Held env initial requests userId tenantId permissions world.db := by
  refine meets_listForUser.bind fun assignments _ ↦ ?_
  split
  · exact meets_pure fun _ _ _ ↦ .inl rfl
  rename_i preferred hpreferred
  have hlasts : (granting env initial requests).Persistent fun world ↦
      GrantOf env initial requests world.db preferred ∧ preferred.userId = userId ∧
        preferred.tenantId = tenantId :=
    grantOf_persistent.and (persistent_const _)
  refine Meets.strengthen (((meets_findRoleById preferred.roleId).frame hlasts).bind fun found _ ↦ ?_)
    fun _ _ hall ↦ ⟨trivial, hall preferred (primaryAssignment_some hpreferred).1⟩
  refine meets_pure fun world _ hpost ↦ ?_
  obtain ⟨hrole, hgrant, huser, htenant⟩ := hpost
  cases found with
  | none => exact .inl rfl
  | some role =>
    exact .inr ⟨preferred, hgrant, huser, htenant, role, (hrole role rfl).1, (hrole role rfl).2, rfl⟩

/-- `assignRole`, by a user who holds the permissions of their token, one of which is to manage members. -/
theorem meets_assignRole {user : JwtPayload} {roleId : Uuid} {scopeType : ScopeType}
    {scopeId : Option Uuid} (hmanages : Grants manageMembers user.permissions) :
    (granting env initial requests).Meets number (Access.assignRole user userId roleId scopeType scopeId)
      (fun world ↦ HeldBy env initial requests user world.db) fun _ _ ↦ True := by
  refine Meets.strengthen (((meets_findRoleById roleId).frame held_persistent).bind fun found _ ↦ ?_)
    fun _ _ hheld ↦ ⟨trivial, hheld⟩
  refine (meets_and_fact fun hfound ↦ ?_).strengthen fun _ _ hboth ↦ ⟨hboth.2, hboth.1⟩
  refine meets_require.bind fun role hrequired ↦ ?_
  obtain ⟨hsome, haccessible⟩ := Option.filter_eq_some_iff.mp (Call.returns_require.mp hrequired)
  refine Meets.strengthen ?_ fun _ _ hpre ↦ hpre.1
  refine (meets_plain (by simp [findExisting]) held_persistent).bind fun existing _ ↦ ?_
  refine meets_ensure.bind fun _ _ ↦ Meets.strengthen ?_ fun _ _ hpre ↦ hpre.1
  refine (meets_plain uuidv7_unprivileged held_persistent).bind fun id _ ↦ ?_
  refine Meets.bind (meets_createRoleAssignment.strengthen fun world _ hheld ↦ ?_)
    fun _ _ ↦ meets_pure fun _ _ _ ↦ trivial
  rcases hheld with hfallback | ⟨held, hgrant, huser, htenant, manager, hmanager, hid, hpermissions⟩
  · rw [hfallback, grants_fallback_iff] at hmanages
    exact absurd hmanages (by decide)
  · refine .given _ held manager role hgrant hmanager hid (hpermissions ▸ hmanages) ?_ htenant.symm
      (hfound role hsome).1 (hfound role hsome).2 haccessible
    rw [huser]

/-! ### Tokens -/

theorem held_of_signAccessToken {user : User} {sessionId : Uuid} {authMethod : AuthMethod}
    {signed : JwtPayload × ℕ}
    (hsigned : (signAccessToken env user sessionId permissions tenantId authMethod).Returns signed)
    (hheld : Held env initial requests user.id tenantId permissions db) :
    HeldBy env initial requests signed.1 db := by
  obtain ⟨hsub, htenant⟩ := signAccessToken_returns hsigned
  rw [HeldBy, hsub, htenant, signAccessToken_permissions hsigned]
  exact hheld

/-- The end of `login`, `signup` and `ssoLogin`: the token carries the permissions that were read. -/
theorem held_of_issueSession {user : User} {sessionId : Uuid} {authMethod : AuthMethod} {ttlSeconds : ℕ}
    {ipAddress ssoProvider : Option String} {issued : LoginResult}
    (hissued : (issueSession env user sessionId permissions tenantId authMethod ttlSeconds ipAddress
      ssoProvider).Returns issued)
    (hheld : Held env initial requests user.id tenantId permissions db) :
    HeldBy env initial requests issued.accessToken db := by
  obtain ⟨signed, hsigned, hrest⟩ := hissued.of_bind
  obtain ⟨token, _, hrest⟩ := hrest.of_bind
  obtain ⟨expiresAt, _, hrest⟩ := hrest.of_bind
  obtain ⟨_, _, hreturned⟩ := hrest.of_bind
  obtain rfl := hreturned
  exact held_of_signAccessToken hsigned hheld

end RallyApi.Access

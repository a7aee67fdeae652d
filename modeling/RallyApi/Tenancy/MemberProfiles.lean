import RallyApi.Identity.Memberships
import RallyApi.Tenancy.Invitations

/-!
# Members with their profiles

`listMembersWithProfile` joins the members of a workspace with their users and, by a left join, with their
workspace-scoped role assignments. The join does not ask for the tenant: a member is listed once for each
workspace-scoped role they have in any tenant (`length_rowsOf`), with the role of that tenant
(`foreignRoleShown`).

`showsMembers_iff` says for which tables the list has one row for each member, with a role of the tenant
only, and stays the same when assignments in other tenants are added. The creation date of a row is left
out: no modelled function reads it.
-/

set_option autoImplicit false
set_option relaxedAutoImplicit false

namespace RallyApi.Tenancy

open Concurrency Identity Platform Store

/-! ### `listMembersWithProfile` -/

/-- `WorkspaceMemberWithProfile`. -/
structure WorkspaceMemberWithProfile where
  id : Uuid
  workspaceId : Uuid
  userId : Uuid
  status : MemberStatus
  joinedAt : Timestamp
  displayName : String
  email : String
  avatarUrl : Option String
  roleAssignmentId : Option Uuid
  roleId : Option Uuid
  roleSlug : Option String
  roleName : Option String
  deriving DecidableEq, Repr

/-- The row of a member with the user, the assignment and the role it is joined with. A member without a
user is shown by the identifier of the user. -/
def profileRow (member : WorkspaceMember) (user : Option User) (assignment : Option UserRoleAssignment)
    (role : Option SystemRole) : WorkspaceMemberWithProfile where
  id := member.id
  workspaceId := member.workspaceId
  userId := member.userId
  status := member.status
  joinedAt := member.joinedAt
  displayName := ((user.map User.displayName).or (user.map User.email)).getD (toString member.userId)
  email := (user.map User.email).getD ""
  avatarUrl := user.bind User.avatarUrl
  roleAssignmentId := assignment.map UserRoleAssignment.id
  roleId := assignment.map UserRoleAssignment.roleId
  roleSlug := role.map SystemRole.slug
  roleName := role.map SystemRole.name

/-- The condition of the join with the assignments. -/
def isWorkspaceRoleOf (userId : Uuid) (row : UserRoleAssignment) : Bool :=
  row.userId = userId ∧ row.scopeType = .workspace

/-- The rows of a member: one for each combination of user, assignment and role. -/
def rowsOf (db : Db) (member : WorkspaceMember) : List WorkspaceMemberWithProfile :=
  (leftJoin (fun user : User ↦ user.id = member.userId) db.users).flatMap fun user ↦
    (leftJoin (isWorkspaceRoleOf member.userId) db.userRoleAssignments).flatMap fun assignment ↦
      (joinedRoles db.toDb assignment).map (profileRow member user assignment)

/-- The members of a workspace, whatever their status. -/
def membersOf (workspaceId : Uuid) (db : Db) : List WorkspaceMember :=
  db.workspaceMembers.filter fun member ↦ member.workspaceId = workspaceId

/-- The rows of the members of a workspace, in the order in which they joined. -/
def profilesOf (workspaceId : Uuid) (db : Db) : List WorkspaceMemberWithProfile :=
  ((membersOf workspaceId db).flatMap (rowsOf db)).insertionSort fun a b ↦ a.joinedAt ≤ b.joinedAt

/-- `WorkspaceMemberDrizzleRepository.listMembersWithProfile`. -/
def listProfiles (workspaceId : Uuid) : TenancyCall (List WorkspaceMemberWithProfile) :=
  Call.query .other (profilesOf workspaceId)

/-- `listMembersWithProfile`. -/
def listMembersWithProfile (tenantId workspaceId : Uuid) :
    TenancyCall (List WorkspaceMemberWithProfile) := do
  let _ ← getWorkspace tenantId workspaceId
  listProfiles workspaceId

/-! ### What the list should show -/

/-- The store with more role assignments. -/
def Db.withAssignments (db : Db) (extra : List UserRoleAssignment) : Db :=
  { db with userRoleAssignments := db.userRoleAssignments ++ extra }

/-- The workspace is there, in the tenant. -/
def HasWorkspace (tenantId workspaceId : Uuid) (db : Db) : Prop :=
  ∃ workspace, (db.workspaces.find? fun row ↦ row.id = workspaceId) = some workspace ∧
    workspace.deletedAt = none ∧ workspace.tenantId = tenantId

/-- The list has one row for each member. -/
def OneRowEach (workspaceId : Uuid) (db : Db) (rows : List WorkspaceMemberWithProfile) : Prop :=
  (rows.map WorkspaceMemberWithProfile.id).Perm ((membersOf workspaceId db).map WorkspaceMember.id)

/-- The role of a row, if it shows one, comes from a workspace-scoped assignment of its user in the
tenant. -/
def RolesOfTenant (tenantId : Uuid) (db : Db) (rows : List WorkspaceMemberWithProfile) : Prop :=
  ∀ row ∈ rows, ∀ id ∈ row.roleAssignmentId, ∃ assignment ∈ db.userRoleAssignments,
    assignment.id = id ∧ row.roleId = some assignment.roleId ∧ assignment.userId = row.userId ∧
      assignment.scopeType = .workspace ∧ assignment.tenantId = tenantId

/-- The list has one row for each member, with a role of the tenant only, and the further assignments do not
change it. -/
structure ShowsMembers (tenantId workspaceId : Uuid) (extra : List UserRoleAssignment)
    (db : Db) : Prop where
  list : (listMembersWithProfile tenantId workspaceId).Succeeds
    (fun rows _ ↦ OneRowEach workspaceId db rows ∧ RolesOfTenant tenantId db rows) db
  unchanged : ((listMembersWithProfile tenantId workspaceId).run (db.withAssignments extra)).1 =
    ((listMembersWithProfile tenantId workspaceId).run db).1

/-- Every member has at most one workspace-scoped role, and that in the tenant; and none of the further
assignments is a workspace-scoped role of a member. -/
structure RolesAtHome (tenantId workspaceId : Uuid) (extra : List UserRoleAssignment) (db : Db) : Prop where
  oneRole : ∀ member ∈ membersOf workspaceId db,
    (db.userRoleAssignments.filter (isWorkspaceRoleOf member.userId)).length ≤ 1
  tenant : ∀ member ∈ membersOf workspaceId db, ∀ assignment ∈ db.userRoleAssignments,
    isWorkspaceRoleOf member.userId assignment = true → assignment.tenantId = tenantId
  extra : ∀ member ∈ membersOf workspaceId db, ∀ assignment ∈ extra,
    ¬ isWorkspaceRoleOf member.userId assignment = true

/-- Users, roles and assignments have distinct identifiers, as their primary keys say. -/
structure DistinctRows (extra : List UserRoleAssignment) (db : Db) : Prop where
  users : (db.users.map User.id).Nodup
  roles : (db.systemRoles.map SystemRole.id).Nodup
  assignments : ((db.userRoleAssignments ++ extra).map UserRoleAssignment.id).Nodup

variable {tenantId workspaceId : Uuid} {extra : List UserRoleAssignment} {db : Db}
  {member : WorkspaceMember} {row : WorkspaceMemberWithProfile}

/-! ### The rows of a member -/

/-- A member has a row for each of their workspace-scoped roles, in any tenant, and one if there is none. -/
theorem length_rowsOf (hdistinct : DistinctRows extra db) :
    (rowsOf db member).length =
      max 1 (db.userRoleAssignments.filter (isWorkspaceRoleOf member.userId)).length := by
  have huser : (leftJoin (fun user : User ↦ user.id = member.userId) db.users).length = 1 :=
    length_leftJoin_of_key hdistinct.users fun first _ second _ hfirst hsecond ↦
      (of_decide_eq_true hfirst).trans (of_decide_eq_true hsecond).symm
  obtain ⟨user, hone⟩ := List.length_eq_one_iff.mp huser
  have hrole : ∀ assignment,
      ((joinedRoles db.toDb assignment).map (profileRow member user assignment)).length = 1 := by
    intro assignment
    rw [List.length_map]
    exact length_joinedRoles hdistinct.roles assignment
  rw [rowsOf, hone, List.flatMap_singleton,
    (length_flatMap_eq_iff fun assignment _ ↦ (hrole assignment).ge).mpr
      fun assignment _ ↦ hrole assignment]
  exact length_leftJoin

theorem mem_rowsOf : row ∈ rowsOf db member ↔
    ∃ user ∈ leftJoin (fun user : User ↦ user.id = member.userId) db.users,
      ∃ assignment ∈ leftJoin (isWorkspaceRoleOf member.userId) db.userRoleAssignments,
        ∃ role ∈ joinedRoles db.toDb assignment, profileRow member user assignment role = row := by
  simp only [rowsOf, List.mem_flatMap, List.mem_map]

/-- The role of a row comes from a workspace-scoped assignment of its user. -/
theorem roleOf_row (hrow : row ∈ rowsOf db member) {id : Uuid} (hid : row.roleAssignmentId = some id) :
    ∃ assignment ∈ db.userRoleAssignments, isWorkspaceRoleOf member.userId assignment = true ∧
      assignment.id = id ∧ row.roleId = some assignment.roleId ∧ member.userId = row.userId := by
  obtain ⟨user, _, assignment, hassignment, role, _, rfl⟩ := mem_rowsOf.mp hrow
  obtain ⟨assignment, rfl, hsame⟩ := Option.map_eq_some_iff.mp hid
  obtain ⟨hmem, hmatches⟩ := mem_leftJoin_some.mp hassignment
  exact ⟨assignment, hmem, hmatches, hsame, rfl, rfl⟩

/-- Every workspace-scoped assignment of a member is shown. -/
theorem exists_row_of_assignment {assignment : UserRoleAssignment}
    (hassignment : assignment ∈ db.userRoleAssignments)
    (hmatches : isWorkspaceRoleOf member.userId assignment = true) :
    ∃ row ∈ rowsOf db member, row.roleAssignmentId = some assignment.id := by
  obtain ⟨user, huser⟩ : ∃ user, user ∈ leftJoin (fun user : User ↦ user.id = member.userId) db.users :=
    exists_mem_leftJoin
  obtain ⟨role, hrole⟩ : ∃ role, role ∈ joinedRoles db.toDb (some assignment) := exists_mem_leftJoin
  exact ⟨_, mem_rowsOf.mpr ⟨user, huser, some assignment, mem_leftJoin_some.mpr ⟨hassignment, hmatches⟩,
    role, hrole, rfl⟩, rfl⟩

/-! ### The list -/

/-- Assumes: the workspace is there. The members of the workspace are listed. -/
theorem listMembersWithProfile_run (hworkspace : HasWorkspace tenantId workspaceId db) :
    (listMembersWithProfile tenantId workspaceId).run db = (.ok (profilesOf workspaceId db), db) := by
  obtain ⟨workspace, hfound, hdeleted, htenant⟩ := hworkspace
  have hfiltered : (Option.filter (fun workspace : Workspace ↦
      workspace.deletedAt = none ∧ workspace.tenantId = tenantId) (some workspace)) = some workspace := by
    simp [Option.filter, hdeleted, htenant]
  rw [listMembersWithProfile, getWorkspace, findWorkspaceById, Call.bind_assoc, Call.run_query_bind, hfound,
    hfiltered]
  rfl

theorem mem_profilesOf :
    row ∈ profilesOf workspaceId db ↔ ∃ member ∈ membersOf workspaceId db, row ∈ rowsOf db member := by
  rw [profilesOf, List.mem_insertionSort, List.mem_flatMap]

/-- The list has one row for each member exactly if each has at most one workspace-scoped role. -/
theorem oneRowEach_iff (hdistinct : DistinctRows extra db) :
    OneRowEach workspaceId db (profilesOf workspaceId db) ↔ ∀ member ∈ membersOf workspaceId db,
      (db.userRoleAssignments.filter (isWorkspaceRoleOf member.userId)).length ≤ 1 := by
  have hsorted := (List.perm_insertionSort (fun a b : WorkspaceMemberWithProfile ↦ a.joinedAt ≤ b.joinedAt)
    ((membersOf workspaceId db).flatMap (rowsOf db))).map WorkspaceMemberWithProfile.id
  have hlisted : ∀ member ∈ membersOf workspaceId db, 1 ≤ (rowsOf db member).length := by
    intro member _
    rw [length_rowsOf hdistinct]
    exact Nat.le_max_left _ _
  have hkey : ∀ member ∈ membersOf workspaceId db, ∀ row ∈ rowsOf db member, row.id = member.id := by
    intro member _ row hrow
    obtain ⟨_, _, _, _, _, _, rfl⟩ := mem_rowsOf.mp hrow
    rfl
  rw [OneRowEach, profilesOf, hsorted.congr_left, perm_flatMap_iff hlisted hkey]
  refine forall₂_congr fun member _ ↦ ?_
  rw [length_rowsOf hdistinct]
  omega

/-- The list shows roles of the tenant only exactly if every workspace-scoped role of a member is in it. -/
theorem rolesOfTenant_iff (hdistinct : DistinctRows extra db) :
    RolesOfTenant tenantId db (profilesOf workspaceId db) ↔ ∀ member ∈ membersOf workspaceId db,
      ∀ assignment ∈ db.userRoleAssignments, isWorkspaceRoleOf member.userId assignment = true →
        assignment.tenantId = tenantId := by
  have hids : (db.userRoleAssignments.map UserRoleAssignment.id).Nodup := by
    have hall := hdistinct.assignments
    rw [List.map_append] at hall
    exact (List.nodup_append.mp hall).1
  constructor
  · intro hroles member hmember assignment hassignment hmatches
    obtain ⟨row, hrow, hid⟩ := exists_row_of_assignment hassignment hmatches
    obtain ⟨shown, hshown, hsame, _, _, _, htenant⟩ :=
      hroles row (mem_profilesOf.mpr ⟨member, hmember, hrow⟩) _ hid
    rwa [← List.inj_on_of_nodup_map hids hshown hassignment hsame]
  · intro htenants row hrow id hid
    obtain ⟨member, hmember, hrow⟩ := mem_profilesOf.mp hrow
    obtain ⟨assignment, hassignment, hmatches, hsame, hrole, huser⟩ := roleOf_row hrow hid
    obtain ⟨hown, hscope⟩ := of_decide_eq_true hmatches
    exact ⟨assignment, hassignment, hsame, hrole, hown.trans huser, hscope,
      htenants member hmember assignment hassignment hmatches⟩

/-- Further assignments leave the list as it is exactly if none of them is a workspace-scoped role of a
member. -/
theorem profilesOf_unchanged_iff (hdistinct : DistinctRows extra db) :
    profilesOf workspaceId (db.withAssignments extra) = profilesOf workspaceId db ↔
      ∀ member ∈ membersOf workspaceId db, ∀ assignment ∈ extra,
        ¬ isWorkspaceRoleOf member.userId assignment = true := by
  constructor
  · intro hsame member hmember assignment hassignment hmatches
    have hstored : assignment ∈ (db.withAssignments extra).userRoleAssignments :=
      List.mem_append_right _ hassignment
    obtain ⟨row, hrow, hid⟩ := exists_row_of_assignment hstored hmatches
    have hlisted : row ∈ profilesOf workspaceId (db.withAssignments extra) :=
      mem_profilesOf.mpr ⟨member, hmember, hrow⟩
    rw [hsame] at hlisted
    obtain ⟨other, _, hother⟩ := mem_profilesOf.mp hlisted
    obtain ⟨shown, hshown, _, hshownId, _⟩ := roleOf_row hother hid
    have hall := hdistinct.assignments
    rw [List.map_append] at hall
    exact (List.disjoint_of_nodup_append hall) (List.mem_map_of_mem hshown)
      (hshownId ▸ List.mem_map_of_mem hassignment)
  · intro hnone
    have hrows : ∀ member ∈ membersOf workspaceId db,
        rowsOf (db.withAssignments extra) member = rowsOf db member := by
      intro member hmember
      have hextra : extra.filter (isWorkspaceRoleOf member.userId) = [] :=
        List.filter_eq_nil_iff.mpr (hnone member hmember)
      have hjoin : leftJoin (isWorkspaceRoleOf member.userId) (db.userRoleAssignments ++ extra) =
          leftJoin (isWorkspaceRoleOf member.userId) db.userRoleAssignments := by
        rw [leftJoin, leftJoin, List.filter_append, hextra, List.append_nil]
      simp only [rowsOf, Db.withAssignments, hjoin]
      rfl
    exact congrArg (List.insertionSort _) (List.flatMap_congr hrows)

/-! ### The exact condition -/

/-- Assumes: the workspace is there, and users, roles and assignments have distinct identifiers. The
list has one row for each member, shows roles of the tenant only and is not changed by the further
assignments, exactly if every member has at most one workspace-scoped role, in the tenant, and none of
the further assignments is a workspace-scoped role of a member. -/
theorem showsMembers_iff (hworkspace : HasWorkspace tenantId workspaceId db)
    (hdistinct : DistinctRows extra db) :
    ShowsMembers tenantId workspaceId extra db ↔ RolesAtHome tenantId workspaceId extra db := by
  have hlist : (listMembersWithProfile tenantId workspaceId).Succeeds
      (fun rows _ ↦ OneRowEach workspaceId db rows ∧ RolesOfTenant tenantId db rows) db ↔ _ :=
    Call.succeeds_iff_of_run (listMembersWithProfile_run hworkspace)
  have hextended : HasWorkspace tenantId workspaceId (db.withAssignments extra) := hworkspace
  have hsame : ((listMembersWithProfile tenantId workspaceId).run (db.withAssignments extra)).1 =
      ((listMembersWithProfile tenantId workspaceId).run db).1 ↔
        profilesOf workspaceId (db.withAssignments extra) = profilesOf workspaceId db := by
    rw [listMembersWithProfile_run hworkspace, listMembersWithProfile_run hextended]
    exact ⟨Except.ok.inj, congrArg _⟩
  rw [oneRowEach_iff hdistinct, rolesOfTenant_iff hdistinct] at hlist
  rw [profilesOf_unchanged_iff hdistinct] at hsame
  constructor
  · rintro ⟨hrows, hunchanged⟩
    exact ⟨(hlist.mp hrows).1, (hlist.mp hrows).2, hsame.mp hunchanged⟩
  · rintro ⟨hone, htenant, hextra⟩
    exact ⟨hlist.mpr ⟨hone, htenant⟩, hsame.mpr hextra⟩

/-! ### A role of another tenant -/

/-- A member of the workspace of the example, with a role in its tenant. -/
def memberDb : Db :=
  { exampleDb with
    users := [{ id := 21, email := "ada@example.com", displayName := "Ada", passwordHash := none,
                status := .active }]
    workspaceMembers := [{ id := 6, tenantId := 2, workspaceId := 4, userId := 21, joinedAt := 0 }]
    userRoleAssignments :=
      [{ id := 7, tenantId := 2, userId := 21, roleId := 50, scopeType := .workspace }] }

/-- A role of the member in another tenant. -/
def foreignRole : UserRoleAssignment :=
  { id := 8, tenantId := 3, userId := 21, roleId := 51, scopeType := .workspace }

theorem memberDb_hasWorkspace : HasWorkspace 2 4 memberDb :=
  ⟨{ id := 4, tenantId := 2, slug := "main", name := "Main", createdAt := 0 }, rfl, rfl, rfl⟩

/-- Roles in another tenant: one of the member for a project there, and one of somebody else. -/
def harmlessRoles : List UserRoleAssignment :=
  [{ id := 9, tenantId := 3, userId := 21, roleId := 51, scopeType := .project },
    { id := 10, tenantId := 3, userId := 22, roleId := 51, scopeType := .workspace }]

/-- A witness that the list can show the members: the member has a role, and the roles that are added are
not workspace-scoped or not the member's. -/
theorem showsMembers_iff_witness : ShowsMembers 2 4 harmlessRoles memberDb :=
  (showsMembers_iff memberDb_hasWorkspace ⟨by decide, by decide, by decide⟩).mpr
    ⟨by decide, by decide, by decide⟩

/-- With a role in another tenant the member is listed twice. -/
theorem foreignRoleShown :
    ¬ ∀ (tenantId workspaceId : Uuid) (extra : List UserRoleAssignment) (db : Db),
      HasWorkspace tenantId workspaceId db → DistinctRows extra db →
        (∀ assignment ∈ extra, assignment.tenantId ≠ tenantId) →
          ShowsMembers tenantId workspaceId extra db := by
  intro halways
  obtain ⟨_, hsame⟩ := halways 2 4 [foreignRole] memberDb memberDb_hasWorkspace
    ⟨by decide, by decide, by decide⟩ (by decide)
  have hextended : HasWorkspace 2 4 (memberDb.withAssignments [foreignRole]) := memberDb_hasWorkspace
  rw [listMembersWithProfile_run memberDb_hasWorkspace, listMembersWithProfile_run hextended] at hsame
  have hlength := congrArg List.length (Except.ok.inj hsame)
  exact absurd hlength (by decide)

end RallyApi.Tenancy

import RallyApi.Access.AccessService
import RallyApi.Identity.PrimaryRole

/-!
# Permissions in any scope, and permissions of the token

`hasPermission` looks for a permission among those of all the roles that are assigned to the user in the
tenant. The token carries those of one role, that of the primary assignment, or the defaults.

A permission of the primary role is one that `hasPermission` grants; the two agree on every permission
exactly when no other role adds to those of the primary one, or, where that role is gone, when the others
grant just the defaults (`permissions_agree_iff`).
-/

set_option autoImplicit false
set_option relaxedAutoImplicit false

namespace RallyApi.Access

open Concurrency Identity Platform Store

/-- The roles that are assigned to the user in the tenant. -/
def assignedRoles (user tenant : Uuid) (db : Db) : List SystemRole :=
  (assignmentsOf user tenant db).filterMap (roleOf db.systemRoles)

/-- The role of the primary assignment, unless it is gone. -/
def primaryRole (user tenant : Uuid) (db : Db) : Option SystemRole :=
  (primaryAssignment (assignmentsOf user tenant db)).bind (roleOf db.systemRoles)

/-- `hasPermission` grants the permission. -/
def GrantedInAnyScope (user tenant : Uuid) (permission : String) (db : Db) : Prop :=
  (hasPermission tenant user permission).run db = (.ok true, db)

/-- The permission is one of those that `getUserRoleAndPermissions` puts into the token. -/
def InToken (user tenant : Uuid) (permission : String) (db : Db) : Prop :=
  (getUserRoleAndPermissions user tenant).Succeeds (fun result _ ↦ permission ∈ result.permissions) db

/-- No role adds to the permissions of the primary one; or that role is gone, and the others have just the
defaults. -/
def OneRoleCovers (user tenant : Uuid) (db : Db) : Prop :=
  (∃ primary, primaryRole user tenant db = some primary ∧
      ∀ role ∈ assignedRoles user tenant db, role.permissions ⊆ primary.permissions) ∨
    primaryRole user tenant db = none ∧
      (∀ role ∈ assignedRoles user tenant db, role.permissions ⊆ fallbackPermissions) ∧
        ∀ permission ∈ fallbackPermissions, ∃ role ∈ assignedRoles user tenant db,
          permission ∈ role.permissions

variable {user tenant : Uuid} {permission : String} {db : Db}

/-! ### The two functions -/

/-- The loop finds a role that has the permission if there is one. -/
theorem someRoleHas_run (permission : String) (roleIds : List Uuid) (db : Db) :
    (someRoleHas permission roleIds).run db = (.ok (roleIds.any fun roleId ↦
      (db.systemRoles.find? fun role ↦ role.id = roleId).any fun role ↦
        permission ∈ role.permissions), db) := by
  induction roleIds with
  | nil => rfl
  | cons roleId rest ih =>
    rw [someRoleHas, findRoleById, Call.run_query_bind, List.any_cons]
    cases hrole : db.systemRoles.find? fun role ↦ role.id = roleId with
    | none => simpa using ih
    | some role =>
      by_cases hmem : permission ∈ role.permissions
      · simp [hmem]
      · simpa [hmem] using ih

/-- `hasPermission` grants what some assigned role has. -/
theorem grantedInAnyScope_iff :
    GrantedInAnyScope user tenant permission db ↔
      ∃ role ∈ assignedRoles user tenant db, permission ∈ role.permissions := by
  rw [GrantedInAnyScope, hasPermission, listForUser, Call.run_query_bind]
  change (if assignmentsOf user tenant db = [] then _ else _ : AuthCall Bool).run db = _ ↔ _
  split_ifs with hnone
  · simp [assignedRoles, hnone]
  · rw [someRoleHas_run]
    simp only [Prod.mk.injEq, Except.ok.injEq, and_true, List.any_eq_true, List.mem_eraseDups, List.mem_map,
      Option.any_eq_true, decide_eq_true_eq, assignedRoles, List.mem_filterMap]
    constructor
    · rintro ⟨_, ⟨assignment, hassignment, rfl⟩, role, hrole, hmem⟩
      exact ⟨role, ⟨assignment, hassignment, hrole⟩, hmem⟩
    · rintro ⟨role, ⟨assignment, hassignment, hrole⟩, hmem⟩
      exact ⟨_, ⟨assignment, hassignment, rfl⟩, role, hrole, hmem⟩

/-- The token has the permissions that login looks up. -/
theorem inToken_iff_lookedUp : InToken user tenant permission db ↔
    (getUserPermissions user tenant).Succeeds (fun permissions _ ↦ permission ∈ permissions) db := by
  rw [← getUserRoleAndPermissions_permissions, Call.succeeds_map]
  rfl

/-- Login looks up the permissions of the primary role, or the defaults. -/
theorem getUserPermissions_run (user tenant : Uuid) (db : Db) :
    (getUserPermissions user tenant).run db =
      (.ok (((primaryRole user tenant db).map SystemRole.permissions).getD fallbackPermissions), db) := by
  rw [getUserPermissions, listForUser, Call.run_query_bind, primaryRole]
  generalize hpreferred : Option.or (List.find? _ _) _ = preferred
  change primaryAssignment (assignmentsOf user tenant db) = preferred at hpreferred
  rw [hpreferred]
  cases preferred with
  | none => rfl
  | some preferred => rfl

theorem inToken_iff :
    InToken user tenant permission db ↔
      permission ∈ ((primaryRole user tenant db).map SystemRole.permissions).getD fallbackPermissions :=
  inToken_iff_lookedUp.trans (Call.succeeds_iff_of_run (getUserPermissions_run user tenant db))

/-- The primary role is one of the assigned roles. -/
theorem primaryRole_mem {primary : SystemRole} (hprimary : primaryRole user tenant db = some primary) :
    primary ∈ assignedRoles user tenant db := by
  obtain ⟨assignment, hassignment, hrole⟩ := Option.bind_eq_some_iff.mp hprimary
  exact List.mem_filterMap.mpr ⟨assignment, (primaryAssignment_some hassignment).1, hrole⟩

/-! ### Agreement -/

/-- Roles grant the permissions of a list, and no others, exactly if each of them stays within the list and
each permission of the list is one of theirs. -/
theorem grants_exactly_iff {roles : List SystemRole} {permissions : List String} :
    (∀ permission, (∃ role ∈ roles, permission ∈ role.permissions) ↔ permission ∈ permissions) ↔
      (∀ role ∈ roles, role.permissions ⊆ permissions) ∧
        ∀ permission ∈ permissions, ∃ role ∈ roles, permission ∈ role.permissions := by
  constructor
  · intro hagree
    refine ⟨fun role hrole permission hpermission ↦ ?_, fun permission ↦ (hagree permission).mpr⟩
    exact (hagree permission).mp ⟨role, hrole, hpermission⟩
  · rintro ⟨hwithin, hgranted⟩ permission
    refine ⟨?_, hgranted permission⟩
    rintro ⟨role, hrole, hpermission⟩
    exact hwithin role hrole hpermission

/-- A permission of the token is granted in some scope, unless the role it comes from is gone. The two agree
on every permission exactly when one role covers all of them. -/
theorem permissions_agree_iff (user tenant : Uuid) (db : Db) :
    ((primaryRole user tenant db).isSome = true → ∀ permission, InToken user tenant permission db →
        GrantedInAnyScope user tenant permission db) ∧
      ((∀ permission, GrantedInAnyScope user tenant permission db ↔ InToken user tenant permission db) ↔
        OneRoleCovers user tenant db) := by
  simp only [grantedInAnyScope_iff, inToken_iff, grants_exactly_iff, OneRoleCovers]
  cases hprimary : primaryRole user tenant db with
  | some primary =>
    have hmem := primaryRole_mem hprimary
    have hgranted : ∀ permission ∈ primary.permissions, ∃ role ∈ assignedRoles user tenant db,
        permission ∈ role.permissions := fun _ hpermission ↦ ⟨primary, hmem, hpermission⟩
    exact ⟨fun _ ↦ hgranted, by simpa using fun _ ↦ hgranted⟩
  | none => exact ⟨fun hsome ↦ absurd hsome Bool.false_ne_true, by simp⟩

/-! ### A second role -/

/-- The user is a member of the workspace and the admin of a project. -/
def twoRolesDb : Db where
  systemRoles := [{ id := 50, tenantId := none, name := "Workspace Member", slug := "workspace_member",
                    permissions := ["project:view"] },
                  { id := 51, tenantId := none, name := "Project Admin", slug := "project_admin",
                    permissions := ["project:edit"] }]
  userRoleAssignments := [{ id := 52, tenantId := 2, userId := 1, roleId := 50, scopeType := .workspace },
                          { id := 53, tenantId := 2, userId := 1, roleId := 51, scopeType := .project,
                            scopeId := some 100 }]

/-- What is granted in any scope is not what the token has: the permissions of the second role are
granted, and not in the token. -/
theorem secondRoleNotInToken :
    ¬ ∀ (user tenant : Uuid) (db : Db), assignmentsOf user tenant db ≠ [] → ∀ permission,
      GrantedInAnyScope user tenant permission db ↔ InToken user tenant permission db := by
  intro halways
  have hgranted : GrantedInAnyScope 1 2 "project:edit" twoRolesDb := rfl
  obtain ⟨result, after, hrun, hpermission⟩ :=
    (halways 1 2 twoRolesDb (by decide) "project:edit").mp hgranted
  have hresult : (getUserRoleAndPermissions 1 2).run twoRolesDb =
      (.ok { role := "workspace_member", permissions := ["project:view"] }, twoRolesDb) := rfl
  rw [hresult] at hrun
  obtain rfl := Except.ok.inj (Prod.mk.inj hrun).1
  exact absurd hpermission (by decide)

end RallyApi.Access

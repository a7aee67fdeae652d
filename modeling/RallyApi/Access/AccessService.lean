import RallyApi.Identity.AuthService

/-!
# `AccessService`

The role assignments of `AccessService` (`libs/modules/access/src/application/access.service.ts`) with the
repository methods they call, on the identity store. What login and signup use of it, `ensureDefaultRole`
and the permissions of a token, is with `AuthService`. Logging is left out.
-/

set_option autoImplicit false
set_option relaxedAutoImplicit false

namespace RallyApi.Access

open Concurrency Identity Platform

/-! ### `RoleAssignmentDrizzleRepository` -/

/-- The condition of `findExisting`: the scope counts only if one is given. -/
def matchesExisting (userId roleId : Uuid) (scopeType : ScopeType) (scopeId : Option Uuid)
    (row : UserRoleAssignment) : Bool :=
  row.userId = userId ∧ row.roleId = roleId ∧ row.scopeType = scopeType ∧
    (scopeId = none ∨ row.scopeId = scopeId)

/-- `findExisting`. -/
def findExisting (userId roleId : Uuid) (scopeType : ScopeType) (scopeId : Option Uuid) :
    AuthCall (Option UserRoleAssignment) :=
  Call.query .other fun db ↦ db.userRoleAssignments.find? (matchesExisting userId roleId scopeType scopeId)

/-! ### Assignments -/

/-- A role can be assigned in a tenant if it is global or one of the tenant. -/
def accessibleIn (tenantId : Uuid) (role : SystemRole) : Bool :=
  role.tenantId = none ∨ role.tenantId = some tenantId

/-- `assignRole`. -/
def assignRole (actor : JwtPayload) (userId roleId : Uuid) (scopeType : ScopeType)
    (scopeId : Option Uuid) : AuthCall UserRoleAssignment := do
  let role ← findRoleById roleId
  let _ ← Call.require (role.filter (accessibleIn actor.tenantId))
    (notFoundException .roleNotFound "Role not found")
  let existing ← findExisting userId roleId scopeType scopeId
  Call.ensure existing.isNone
    (conflictException .roleAssignmentNotFound "User already has this role in the given scope")
  let id ← uuidv7
  let assignment : UserRoleAssignment :=
    { id, tenantId := actor.tenantId, userId, roleId, scopeType, scopeId, grantedBy := some actor.sub }
  createRoleAssignment assignment
  pure assignment

/-- `RoleAssignmentDrizzleRepository.findById`. -/
def findAssignmentById (id : Uuid) : AuthCall (Option UserRoleAssignment) :=
  Call.query .other fun db ↦ db.userRoleAssignments.find? fun row ↦ row.id = id

/-- `RoleAssignmentDrizzleRepository.delete`. -/
def deleteAssignment (id : Uuid) : AuthCall Unit :=
  statement fun db ↦
    .ok ((), { db with userRoleAssignments := db.userRoleAssignments.filter fun row ↦ row.id ≠ id })

/-- `revokeRole`. -/
def revokeRole (actor : JwtPayload) (assignmentId : Uuid) : AuthCall Unit := do
  let assignment ← findAssignmentById assignmentId
  let _ ← Call.require (assignment.filter fun row ↦ row.tenantId = actor.tenantId)
    (notFoundException .roleAssignmentNotFound "Role assignment not found")
  deleteAssignment assignmentId

/-! ### Permissions -/

/-- The loop of `hasPermission`: it stops at the first role that has the permission. -/
def someRoleHas (permission : String) : List Uuid → AuthCall Bool
  | [] => pure false
  | roleId :: rest => do
    let role ← findRoleById roleId
    if permission ∈ (role.map SystemRole.permissions).getD [] then pure true
    else someRoleHas permission rest

/-- `hasPermission`. -/
def hasPermission (tenantId userId : Uuid) (permission : String) : AuthCall Bool := do
  let assignments ← listForUser tenantId userId
  if assignments = [] then pure false
  else someRoleHas permission (assignments.map UserRoleAssignment.roleId).eraseDups

/-- What `getUserRoleAndPermissions` returns. -/
structure RoleAndPermissions where
  role : String
  permissions : List String
  deriving DecidableEq, Repr

/-- `getUserRoleAndPermissions`: the role of the first workspace-scoped assignment, or of the first. -/
def getUserRoleAndPermissions (userId tenantId : Uuid) : AuthCall RoleAndPermissions := do
  let assignments ← listForUser tenantId userId
  match (assignments.find? (·.scopeType = .workspace)).or assignments.head? with
  | none => pure { role := "workspace_member", permissions := fallbackPermissions }
  | some preferred =>
    let role ← findRoleById preferred.roleId
    pure { role := (role.map SystemRole.slug).getD "workspace_member"
           permissions := (role.map SystemRole.permissions).getD fallbackPermissions }

/-- The permissions it returns are those that login puts into the token. -/
theorem getUserRoleAndPermissions_permissions (userId tenantId : Uuid) :
    RoleAndPermissions.permissions <$> getUserRoleAndPermissions userId tenantId =
      getUserPermissions userId tenantId := by
  refine (Call.bind_assoc _ _ _).trans (congrArg _ (funext fun assignments ↦ ?_))
  cases (assignments.find? (·.scopeType = .workspace)).or assignments.head? with
  | none => rfl
  | some preferred => rfl

end RallyApi.Access

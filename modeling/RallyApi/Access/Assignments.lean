import RallyApi.Access.AccessService
import RallyApi.Identity.SsoPolicy

/-!
# Duplicate assignments

`assignRole` refuses a role that the user has already. The search for it does not look at the tenant, and a
request without a scope matches an assignment in any scope; the unique index, in which a missing scope
equals no other, adds nothing to the search (`assignRole_succeeds_iff`). So a role is refused because of
another tenant (`refusedForOtherTenant`).

`rejectsDuplicates_iff` says for which tables only true duplicates are refused.
-/

set_option autoImplicit false
set_option relaxedAutoImplicit false

namespace RallyApi.Access

open Concurrency Identity Platform Store

/-- What `assignRole` is asked for: a role for a user in a tenant, in a scope. -/
structure Request where
  actor : JwtPayload
  userId : Uuid
  roleId : Uuid
  scopeType : ScopeType
  scopeId : Option Uuid

/-- The call that serves it. -/
def Request.serve (request : Request) : AuthCall UserRoleAssignment :=
  assignRole request.actor request.userId request.roleId request.scopeType request.scopeId

/-- The role is there, and accessible in the tenant of the actor. -/
def Request.Accessible (request : Request) (db : Db) : Prop :=
  ∃ role, (db.systemRoles.find? fun role ↦ role.id = request.roleId) = some role ∧
    accessibleIn request.actor.tenantId role = true

/-- The user has the role for the scope type, in the tenant or in another. -/
def Request.SameRole (request : Request) (row : UserRoleAssignment) : Prop :=
  row.userId = request.userId ∧ row.roleId = request.roleId ∧ row.scopeType = request.scopeType

/-- The row is a duplicate of what is asked for: the same role in the same tenant and scope. -/
def Request.IsDuplicate (request : Request) (row : UserRoleAssignment) : Prop :=
  request.SameRole row ∧ row.tenantId = request.actor.tenantId ∧ row.scopeId = request.scopeId

/-- Exactly the duplicates are refused. -/
def RejectsDuplicates (request : Request) (db : Db) : Prop :=
  request.serve.Succeeds (fun _ _ ↦ True) db ↔ ∀ row ∈ db.userRoleAssignments, ¬ request.IsDuplicate row

/-- The user has the role nowhere else: neither in another tenant, in the same scope or any if none is
given, nor in a scope of the tenant, if none is given. -/
def HasRoleNowhereElse (request : Request) (db : Db) : Prop :=
  ∀ row ∈ db.userRoleAssignments, request.SameRole row →
    (request.scopeId = none ∨ row.scopeId = request.scopeId) →
      row.tenantId = request.actor.tenantId ∧ row.scopeId = request.scopeId

variable {request : Request} {db : Db}

/-! ### When a role is refused -/

theorem matchesExisting_iff {row : UserRoleAssignment} :
    matchesExisting request.userId request.roleId request.scopeType request.scopeId row = true ↔
      request.SameRole row ∧ (request.scopeId = none ∨ row.scopeId = request.scopeId) := by
  rw [matchesExisting, decide_eq_true_iff, Request.SameRole, and_assoc, and_assoc]

/-- Assumes: the role is accessible, and the identifiers of assignments have been drawn. It is assigned
exactly if the user does not have it in any tenant, in the scope if one is given, and in any if none is. -/
theorem assignRole_succeeds_iff (haccessible : request.Accessible db)
    (hdrawn : ∀ row ∈ db.userRoleAssignments, row.id < db.nextUuid) :
    request.serve.Succeeds (fun _ _ ↦ True) db ↔
      ∀ row ∈ db.userRoleAssignments, request.SameRole row →
        ¬ (request.scopeId = none ∨ row.scopeId = request.scopeId) := by
  obtain ⟨role, hrole, haccess⟩ := haccessible
  have hfiltered : (Option.filter (accessibleIn request.actor.tenantId) (some role)) = some role := by
    simp [Option.filter, haccess]
  constructor
  · rintro ⟨assignment, after, hrun, _⟩ row hrow hsame hscope
    rw [Request.serve, assignRole, findRoleById, Call.run_query_bind] at hrun
    obtain ⟨_, _, hrun⟩ := Call.run_require_bind_eq_ok.mp hrun
    rw [findExisting, Call.run_query_bind] at hrun
    obtain ⟨hnone, _⟩ := Call.run_ensure_bind_eq_ok.mp hrun
    have hnot := List.find?_eq_none.mp (Option.isNone_iff_eq_none.mp hnone) row hrow
    exact hnot (matchesExisting_iff.mpr ⟨hsame, hscope⟩)
  · intro hfree
    have hnone : db.userRoleAssignments.find? (matchesExisting request.userId request.roleId
        request.scopeType request.scopeId) = none := by
      refine List.find?_eq_none.mpr fun row hrow hmatches ↦ ?_
      obtain ⟨hsame, hscope⟩ := matchesExisting_iff.mp hmatches
      exact hfree row hrow hsame hscope
    refine Call.succeeds_bind_query ?_
    rw [hrole, hfiltered]
    refine Call.succeeds_bind_query ?_
    rw [hnone]
    have hid : ∀ row ∈ db.userRoleAssignments, ¬ row.id = db.nextUuid :=
      fun row hrow ↦ uuidSource.ne_next (hdrawn row hrow)
    have hunique : ∀ row ∈ db.userRoleAssignments, ¬ (row.userId = request.userId ∧
        row.roleId = request.roleId ∧ row.scopeType = request.scopeType ∧ row.scopeId ≠ none ∧
          row.scopeId = request.scopeId) := by
      rintro row hrow ⟨huser, hrole, htype, _, hscope⟩
      exact hfree row hrow ⟨huser, hrole, htype⟩ (.inr hscope)
    refine Call.succeeds_bind_atomically ?_
    have hcreated : (createRoleAssignment
        { id := db.nextUuid, tenantId := request.actor.tenantId, userId := request.userId,
          roleId := request.roleId, scopeType := request.scopeType, scopeId := request.scopeId,
          grantedBy := some request.actor.sub }).Succeeds (fun _ _ ↦ True)
        { db with nextUuid := db.nextUuid + 1 } :=
      Call.succeeds_attempt ((if_neg (not_any_of_not hid)).trans (if_neg (not_any_of_not hunique))) trivial
    exact hcreated.bind fun _ _ _ ↦ Call.succeeds_pure trivial

/-! ### The exact condition -/

/-- Assumes: the role is accessible, and the identifiers of assignments have been drawn. Exactly the
duplicates are refused if and only if there is a duplicate, or the user has the role nowhere else. -/
theorem rejectsDuplicates_iff (haccessible : request.Accessible db)
    (hdrawn : ∀ row ∈ db.userRoleAssignments, row.id < db.nextUuid) :
    RejectsDuplicates request db ↔
      (∃ row ∈ db.userRoleAssignments, request.IsDuplicate row) ∨ HasRoleNowhereElse request db := by
  rw [RejectsDuplicates, assignRole_succeeds_iff haccessible hdrawn]
  by_cases hduplicate : ∃ row ∈ db.userRoleAssignments, request.IsDuplicate row
  · obtain ⟨row, hrow, hsame, htenant, hscope⟩ := hduplicate
    refine iff_of_true (iff_of_false ?_ ?_) (.inl ⟨row, hrow, hsame, htenant, hscope⟩)
    · exact fun hfree ↦ hfree row hrow hsame (.inr hscope)
    · exact fun hnone ↦ hnone row hrow ⟨hsame, htenant, hscope⟩
  · have hnone : ∀ row ∈ db.userRoleAssignments, ¬ request.IsDuplicate row :=
      fun row hrow hrowDuplicate ↦ hduplicate ⟨row, hrow, hrowDuplicate⟩
    constructor
    · exact fun hrejects ↦ .inr fun row hrow hsame hscope ↦
        absurd hscope (hrejects.mpr hnone row hrow hsame)
    · intro hcondition
      have hnowhere := hcondition.resolve_left hduplicate
      exact iff_of_true (fun row hrow hsame hscope ↦
        hnone row hrow ⟨hsame, hnowhere row hrow hsame hscope⟩) hnone

/-! ### The same role in two tenants -/

/-- The actor of the example, an admin of tenant 4. -/
def exampleActor : JwtPayload where
  sub := 7
  tenantId := 4
  sessionId := 8
  jti := 9
  permissions := ["workspace:*"]
  authMethod := .password
  iat := 0
  exp := 900

/-- The user has a global role in tenant 2. -/
def grantedInTenantDb : Db where
  nextUuid := 60
  systemRoles := [{ id := 50, tenantId := none, name := "Workspace Admin", slug := "workspace_admin",
                    permissions := ["workspace:*"] }]
  userRoleAssignments := [{ id := 51, tenantId := 2, userId := 1, roleId := 50, scopeType := .workspace }]

/-- The same role for the same user, in tenant 4. -/
def sameRoleElsewhere : Request := ⟨exampleActor, 1, 50, .workspace, none⟩

/-- The same role for another user. -/
def otherUsersRole : Request := ⟨exampleActor, 2, 50, .workspace, none⟩

/-- A witness that exactly the duplicates can be refused: the role is assigned to another user. -/
theorem rejectsDuplicates_iff_witness :
    RejectsDuplicates otherUsersRole grantedInTenantDb ↔
      (∃ row ∈ grantedInTenantDb.userRoleAssignments, otherUsersRole.IsDuplicate row) ∨
        HasRoleNowhereElse otherUsersRole grantedInTenantDb :=
  rejectsDuplicates_iff ⟨_, rfl, by decide⟩ (by decide)

/-- Not only duplicates are rejected: a role is refused in one tenant because the user has it in another. -/
theorem refusedForOtherTenant :
    ¬ ∀ (request : Request) (db : Db), request.Accessible db →
      (∀ row ∈ db.userRoleAssignments, row.id < db.nextUuid) → RejectsDuplicates request db := by
  intro halways
  have hrejects := halways sameRoleElsewhere grantedInTenantDb ⟨_, rfl, by decide⟩ (by decide)
  have hnone : ∀ row ∈ grantedInTenantDb.userRoleAssignments, ¬ sameRoleElsewhere.IsDuplicate row := by
    intro row hrow hduplicate
    obtain rfl := List.mem_singleton.mp hrow
    exact absurd hduplicate.2.1 (by decide)
  obtain ⟨assignment, after, hrun, _⟩ := hrejects.mpr hnone
  have hrefused : (sameRoleElsewhere.serve.run grantedInTenantDb).1 = .error (conflictException
      .roleAssignmentNotFound "User already has this role in the given scope") := rfl
  rw [hrun] at hrefused
  cases hrefused

end RallyApi.Access

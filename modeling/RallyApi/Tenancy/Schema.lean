import RallyApi.Identity.Schema

/-!
# The tenancy store

The identity store with the invitations to workspaces (`db/schema/tenancy.ts`). The other tables of the
schema, workspaces and members, are there already, since login and signup use them.

`TenancyStep` labels the atomic steps of the services by what they write to members and invitations. An
update of a member carries the row as the call has read it, and the input.
-/

set_option autoImplicit false
set_option relaxedAutoImplicit false

namespace RallyApi.Tenancy

open Identity Platform

/-! ### Rows -/

/-- `invitation_status`. -/
inductive InvitationStatus
  | pending
  | accepted
  | cancelled
  | expired
  deriving DecidableEq, Repr

/-- A row of `tenancy.workspace_invitations`. -/
structure WorkspaceInvitation where
  id : Uuid
  tenantId : Uuid
  workspaceId : Uuid
  email : String
  roleId : Option Uuid := none
  tokenHash : TokenHash
  status : InvitationStatus := .pending
  invitedBy : Uuid
  expiresAt : Date
  acceptedBy : Option Uuid := none
  acceptedAt : Option Date := none
  createdAt : Date
  deriving DecidableEq, Repr

/-! ### The store and its steps -/

/-- The store. -/
structure Db extends Identity.Db where
  workspaceInvitations : List WorkspaceInvitation := []

/-- A text that stands for a role in a request or in the code: one that the database reads as a uuid, or
another one. -/
inductive RoleText
  | uuid (id : Uuid)
  | other (text : String)
  deriving DecidableEq, Repr

/-- `UpdateMemberInput`: a field that is absent stays as it is. -/
structure UpdateMemberInput where
  roleId : Option RoleText := none
  status : Option MemberStatus := none
  deriving DecidableEq, Repr

/-- What an atomic step writes to members and invitations. The commit of `inviteMember` carries the rows
its `UPDATE` has seen. -/
inductive TenancyStep
  | other
  | addMember (member : WorkspaceMember)
  | updateMember (member : WorkspaceMember) (input : UpdateMemberInput)
  | removeMember (workspaceId userId : Uuid)
  | invite (snapshot : List Uuid) (invitation : WorkspaceInvitation)
  | cancel (id : Uuid)
  | accept (invitation : WorkspaceInvitation) (userId : Uuid)
  | expire
  deriving DecidableEq, Repr

/-- A call of the tenancy service. -/
abbrev TenancyCall := Concurrency.Call Db TenancyStep Failure

end RallyApi.Tenancy

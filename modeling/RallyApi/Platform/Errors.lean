import Mathlib.Data.Nat.Notation

/-!
# Exceptions

The exceptions services throw, with the machine-readable code, the message and the category that
fixes the HTTP status (`libs/platform/src/errors`), and the failures the database driver and the
runtime add to them.
-/

set_option autoImplicit false
set_option relaxedAutoImplicit false

namespace RallyApi.Platform

/-- The error codes thrown by the modelled services (`error-codes.ts`). -/
inductive ErrorCode
  | invalidCursor
  | authInvalidCredentials
  | authTokenExpired
  | authTokenInvalid
  | authRefreshTokenReuse
  | ssoNotConfigured
  | ssoTokenInvalid
  | ssoClaimsMissing
  | ssoConnectionDisabled
  | ssoDomainNotAllowed
  | ssoJitDisabled
  | ssoNoAccess
  | emailAlreadyRegistered
  | tenantAccessDenied
  | accountDeactivated
  | projectNotFound
  | projectKeyTaken
  | projectArchived
  | projectLeadNotMember
  | projectPermissionDenied
  | labelNotFound
  | workItemNotFound
  | workItemInvalidParentType
  | workItemParentScopeMismatch
  | workflowStatusNotFound
  | workflowTransitionNotAllowed
  | sprintNotFound
  | sprintAlreadyActive
  | sprintProjectMismatch
  | userDeactivated
  | passwordResetTokenInvalid
  | passwordResetTokenExpired
  | projectTeamLinkNotFound
  | assigneeNotWorkspaceMember
  | userNotFound
  | workspaceNotFound
  | workspaceSlugTaken
  | workspaceMemberNotFound
  | workspaceMemberAlreadyExists
  | soleAdminViolation
  | invitationNotFound
  | invitationNotPending
  | invitationAlreadyUsed
  | invitationExpired
  | teamNotFound
  | teamKeyTaken
  | teamMemberAlreadyExists
  | projectTeamAlreadyLinked
  | projectMemberNotFound
  | projectMemberAlreadyExists
  | releaseNotFound
  | attachmentNotFound
  | attachmentInvalidType
  | attachmentFileTooLarge
  | attachmentLimitExceeded
  | attachmentNotPending
  | attachmentSizeMismatch
  | attachmentNotOwner
  | timeLogNotFound
  | timeLogNotOwner
  | roleNotFound
  | roleAssignmentNotFound
  deriving DecidableEq, Repr

/-- The categories of domain exceptions. -/
inductive ErrorCategory
  | notFound
  | conflict
  | preconditionFailed
  | unauthorized
  | permissionDenied
  deriving DecidableEq, Repr

/-- `CATEGORY_HTTP_STATUS`. -/
def ErrorCategory.httpStatus : ErrorCategory → ℕ
  | .notFound => 404
  | .conflict => 409
  | .preconditionFailed => 400
  | .unauthorized => 401
  | .permissionDenied => 403

/-- `DomainException`: what the exception filter puts on the wire. -/
structure DomainException where
  code : ErrorCode
  message : String
  category : ErrorCategory
  deriving DecidableEq, Repr

/-- What ends a call: a domain exception, a constraint, the range or the length of a column of the
database, a text it does not read as a time or as a uuid, the loss of its connection, or an error of the
language runtime, such as reading a field of a row that is not there, printing an invalid date or parsing
a text that is no JSON. -/
inductive Failure
  | exception (thrown : DomainException)
  | uniqueViolation (index : String)
  | checkViolation (constraint : String)
  | connectionLost
  | numericValueOutOfRange
  | stringDataRightTruncation
  | datetimeFieldOverflow
  | invalidTextRepresentation
  | typeError
  | rangeError
  | syntaxError
  deriving DecidableEq, Repr

/-- `new NotFoundException(code, message)`. -/
def notFoundException (code : ErrorCode) (message : String) : Failure :=
  .exception ⟨code, message, .notFound⟩

/-- `new ConflictException(code, message)`. -/
def conflictException (code : ErrorCode) (message : String) : Failure :=
  .exception ⟨code, message, .conflict⟩

/-- `new PreconditionFailedException(code, message)`. -/
def preconditionFailedException (code : ErrorCode) (message : String) : Failure :=
  .exception ⟨code, message, .preconditionFailed⟩

/-- `new PermissionDeniedException(code, message)`. -/
def permissionDeniedException (code : ErrorCode) (message : String) : Failure :=
  .exception ⟨code, message, .permissionDenied⟩

/-- `new UnauthorizedException(code, message)`. -/
def unauthorizedException (code : ErrorCode) (message : String) : Failure :=
  .exception ⟨code, message, .unauthorized⟩

/-- A sequence succeeds when both parts do. -/
theorem bind_eq_ok {ε α β : Type} {first : Except ε α} {rest : α → Except ε β} {value : β} :
    first >>= rest = .ok value ↔ ∃ middle, first = .ok middle ∧ rest middle = .ok value := by
  cases first with
  | error failure => exact ⟨fun h ↦ (nomatch h), fun ⟨_, h, _⟩ ↦ (nomatch h)⟩
  | ok middle => exact ⟨fun h ↦ ⟨middle, rfl, h⟩, fun ⟨_, h, hrest⟩ ↦ Except.ok.inj h ▸ hrest⟩

end RallyApi.Platform

import RallyApi.Identity.AuthService

/-!
# `AuthService`: the account of a user

The flows of `AuthService` around a user's own account: the profile, the change of a password, and the
request and the check of a password reset token. `AccountRequest` adds them to the requests of the
authentication flows; a call that serves one returns the token of a password reset it has carried out.

The e-mail that `forgotPassword` schedules in its transaction is left out: no modelled function reads
it.
-/

set_option autoImplicit false
set_option relaxedAutoImplicit false

namespace RallyApi.Identity

open Concurrency Platform Store

/-! ### Repository methods -/

/-- `createPasswordResetToken`, in a transaction, against the primary key and `uq_prt_token_hash`. -/
def insertPasswordResetToken (token : PasswordResetToken) (db : Db) : Except Failure Db :=
  if db.passwordResetTokens.any fun row ↦ row.id = token.id then
    .error (.uniqueViolation "password_reset_tokens_pkey")
  else if db.passwordResetTokens.any fun row ↦ row.tokenHash = token.tokenHash then
    .error (.uniqueViolation "uq_prt_token_hash")
  else .ok { db with passwordResetTokens := db.passwordResetTokens ++ [token] }

/-- What a user may change in their profile; a field that is absent stays as it is. -/
structure UpdateProfileInput where
  displayName : Option String := none
  avatarUrl : Option (Option String) := none
  locale : Option String := none
  timezone : Option String := none

/-- The profile with the fields of the input. -/
def UpdateProfileInput.apply (input : UpdateProfileInput) (user : User) : User :=
  { user with
    displayName := input.displayName.getD user.displayName
    avatarUrl := input.avatarUrl.getD user.avatarUrl
    locale := input.locale.getD user.locale
    timezone := input.timezone.getD user.timezone }

/-- `UserDrizzleRepository.updateProfile`: the row it returns, if there is one. -/
def updateUserProfile (id : Uuid) (input : UpdateProfileInput) : AuthCall (Option User) :=
  statement fun db ↦
    let users := updateWhere (fun user ↦ user.id = id) input.apply db.users
    .ok (users.find? fun user ↦ user.id = id, { db with users })

/-! ### The account -/

/-- `getMe`. -/
def getMe (userId : Uuid) : AuthCall User := do
  let found ← findUserById userId
  Call.require (found.filter (·.deletedAt = none))
    (notFoundException .userNotFound "User not found")

/-- `updateProfile`. -/
def updateProfile (userId : Uuid) (input : UpdateProfileInput) : AuthCall (Option User) := do
  let found ← findUserById userId
  let _ ← Call.require (found.filter (·.deletedAt = none))
    (notFoundException .userNotFound "User not found")
  updateUserProfile userId input

/-- `changePassword`. -/
def changePassword (env : Env) (userId : Uuid) (currentPassword newPassword : String) :
    AuthCall Unit := do
  let found ← findUserById userId
  let user ← Call.require (found.filter (·.deletedAt = none))
    (notFoundException .userNotFound "User not found")
  let passwordHash ← Call.require (user.passwordHash.filter (· ≠ ""))
    (unauthorizedException .authInvalidCredentials "No password set for this account")
  Call.ensure (env.verifyPassword passwordHash currentPassword)
    (preconditionFailedException .authInvalidCredentials "Current password is incorrect")
  statement fun db ↦ .ok ((), updatePasswordHash userId (env.hashPassword newPassword) db)

/-! ### Reset tokens -/

/-- The configuration of `forgotPassword`. -/
structure ResetConfig where
  passwordResetTokenTtlHours : ℕ := 1
  appBaseUrl : String := "http://localhost:5173"

/-- The URL of a reset: `<baseUrl>/reset-password?token=<token>`. -/
structure ResetUrl where
  baseUrl : String
  token : RawToken
  deriving DecidableEq, Repr

/-- `addHours`, from now. -/
def addHours (hours : ℕ) : AuthCall Date := do
  let now ← currentTime
  pure (now + hours * (60 * (60 * 1000)))

/-- `forgotPassword`: the `devResetUrl`, which only other environments than production return. -/
def forgotPassword (env : Env) (config : ResetConfig) (email : String) :
    AuthCall (Option ResetUrl) := do
  let found ← findByEmail (env.trim (env.toLowerCase email))
  match found.filter fun user ↦ user.deletedAt = none ∧ user.status = .active with
  | none => pure none
  | some user =>
    let rawToken ← randomBytes
    let expiresAt ← addHours config.passwordResetTokenTtlHours
    let memberships ← getMemberships user.id
    let _ ← Call.require memberships.head?
      (notFoundException .userNotFound "User has no active tenant membership")
    let id ← uuidv7
    statement fun db ↦ do
      let after ← insertPasswordResetToken
        { id, userId := user.id, tokenHash := env.hashToken rawToken, expiresAt } db
      pure ((), after)
    pure (if env.config.production then none else some ⟨config.appBaseUrl, rawToken⟩)

/-- The answer of `verifyResetToken`. -/
inductive ResetTokenAnswer
  | valid
  | invalid
  | used
  | expired
  deriving DecidableEq, Repr

/-- `verifyResetToken`. -/
def verifyResetToken (env : Env) (rawToken : RawToken) : AuthCall ResetTokenAnswer := do
  let record ← findPasswordResetToken (env.hashToken rawToken)
  match record with
  | none => pure .invalid
  | some record =>
    if record.usedAt.isSome then pure .used
    else
      let now ← currentTime
      pure (if record.expiresAt < now then .expired else .valid)

/-! ### Requests -/

/-- The requests of the authentication flows and those about an account. -/
inductive AccountRequest
  | auth (request : AuthRequest)
  | getMe (userId : Uuid)
  | updateProfile (userId : Uuid) (input : UpdateProfileInput)
  | changePassword (userId : Uuid) (currentPassword newPassword : String)
  | forgotPassword (email : String)
  | verifyResetToken (rawToken : RawToken)

/-- The call that serves a request; the token of the password reset it has carried out, if any. -/
def AccountRequest.serve (env : Env) (config : ResetConfig) :
    AccountRequest → AuthCall (Option RawToken)
  | .auth (.resetPassword rawToken newPassword) =>
    (fun _ ↦ some rawToken) <$> Identity.resetPassword env rawToken newPassword
  | .auth request => (fun _ ↦ none) <$> request.serve env
  | .getMe userId => (fun _ ↦ none) <$> Identity.getMe userId
  | .updateProfile userId input => (fun _ ↦ none) <$> Identity.updateProfile userId input
  | .changePassword userId currentPassword newPassword =>
    (fun _ ↦ none) <$> Identity.changePassword env userId currentPassword newPassword
  | .forgotPassword email => (fun _ ↦ none) <$> Identity.forgotPassword env config email
  | .verifyResetToken rawToken => (fun _ ↦ none) <$> Identity.verifyResetToken env rawToken

end RallyApi.Identity

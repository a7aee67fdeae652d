import RallyApi.Identity.ResetTokens

/-!
# The verification of a password reset token

`verifyResetToken` has an answer for a token that has expired, and `resetPassword` an exception. But
`findPasswordResetToken` only finds tokens that have not, so both take an expired token, used or not, for
one that does not exist.

`verifyResetToken_accurate_iff` says when the answer is the right one: when the token has not expired, or
was never stored.
-/

set_option autoImplicit false
set_option relaxedAutoImplicit false

namespace RallyApi.Identity

open Concurrency Platform Store

variable {env : Env} {db : Db} {rawToken : RawToken} {newPassword : String} {token : PasswordResetToken}

/-! ### The two calls, run alone -/

/-- The row that `findPasswordResetToken` finds. -/
def Db.liveToken (db : Db) (hash : TokenHash) : Option PasswordResetToken :=
  db.passwordResetTokens.find? fun token ↦ token.tokenHash = hash ∧ db.now < token.expiresAt

theorem liveToken_eq_none {hash : TokenHash} :
    db.liveToken hash = none ↔
      ∀ token ∈ db.passwordResetTokens, token.tokenHash = hash → ¬ db.now < token.expiresAt := by
  simp [Db.liveToken]

/-- A row that is found is stored, and has not expired. -/
theorem liveToken_eq_some {hash : TokenHash} (hlive : db.liveToken hash = some token) :
    token ∈ db.passwordResetTokens ∧ token.tokenHash = hash ∧ db.now < token.expiresAt := by
  have hmatches : token.tokenHash = hash ∧ db.now < token.expiresAt := by
    simpa using List.find?_some hlive
  exact ⟨List.mem_of_find?_eq_some hlive, hmatches⟩

/-- The verification of a token that is not found. -/
theorem verifyResetToken_none (hlive : db.liveToken (env.hashToken rawToken) = none) :
    (verifyResetToken env rawToken).run db = (.ok .invalid, db) := by
  rw [verifyResetToken, Call.run_bind, findPasswordResetToken, Call.run_query]
  change db.passwordResetTokens.find? _ = none at hlive
  simp only [hlive, Call.run_ok]

/-- The verification of a token that is found: it has not expired. -/
theorem verifyResetToken_some (hlive : db.liveToken (env.hashToken rawToken) = some token) :
    (verifyResetToken env rawToken).run db =
      (.ok (if token.usedAt.isSome then .used else .valid), db) := by
  have hexpiry : ¬ token.expiresAt < db.now := Int.not_lt.mpr (liveToken_eq_some hlive).2.2.le
  rw [verifyResetToken, Call.run_bind, findPasswordResetToken, Call.run_query]
  change db.passwordResetTokens.find? _ = some token at hlive
  simp only [hlive]
  split_ifs
  · rfl
  · simp [Call.run_bind, currentTime, hexpiry]

/-- A user has the identifier of the owner of each token with the hash, and is not deleted. -/
def OwnerExists (env : Env) (db : Db) (rawToken : RawToken) : Prop :=
  ∀ token ∈ db.passwordResetTokens, token.tokenHash = env.hashToken rawToken →
    ∃ user ∈ db.users, user.id = token.userId ∧ user.deletedAt = none

/-- A reset with a token that is not found. -/
theorem resetPassword_none (hlive : db.liveToken (env.hashToken rawToken) = none) :
    (resetPassword env rawToken newPassword).run db =
      (.error (unauthorizedException .passwordResetTokenInvalid "Invalid or unknown reset token"), db) := by
  rw [resetPassword, Call.run_bind, findPasswordResetToken, Call.run_query]
  change db.passwordResetTokens.find? _ = none at hlive
  simp only [hlive]
  rfl

/-- A reset with a token that has been used. -/
theorem resetPassword_used (hlive : db.liveToken (env.hashToken rawToken) = some token)
    (hused : token.usedAt.isSome = true) :
    (resetPassword env rawToken newPassword).run db =
      (.error (unauthorizedException .passwordResetTokenInvalid "Reset token has already been used"),
        db) := by
  have hnot : ¬ token.usedAt.isNone = true := by simpa [Option.isSome_iff_ne_none] using hused
  rw [resetPassword, Call.run_bind, findPasswordResetToken, Call.run_query]
  change db.passwordResetTokens.find? _ = some token at hlive
  simp only [hlive, Call.require_some, Call.pure_bind, Call.ensure, if_neg hnot]
  rfl

/-- Assumes: the owner of the token exists. A reset with an unused token that has not expired succeeds. -/
theorem resetPassword_unused (howner : OwnerExists env db rawToken)
    (hlive : db.liveToken (env.hashToken rawToken) = some token) (hunused : token.usedAt = none) :
    ((resetPassword env rawToken newPassword).run db).1 = .ok () := by
  obtain ⟨hmem, hhash, hexpiry⟩ := liveToken_eq_some hlive
  obtain ⟨owner, howner, hid, hdeleted⟩ := howner token hmem hhash
  have hfound : (db.users.find? fun user ↦ user.id = token.userId ∧ user.deletedAt = none).isSome = true :=
    List.find?_isSome.mpr ⟨owner, howner, by simp [hid, hdeleted]⟩
  obtain ⟨user, huser⟩ := Option.isSome_iff_exists.mp hfound
  rw [resetPassword, Call.run_bind, findPasswordResetToken, Call.run_query]
  change db.passwordResetTokens.find? _ = some token at hlive
  simp only [hlive, Call.require_some, Call.pure_bind]
  rw [Call.ensure_pos (by simp [hunused]), Call.pure_bind, Call.run_bind, currentTime, Call.run_query]
  change ((Call.ensure (¬ token.expiresAt < db.now) _ >>= _ : AuthCall Unit).run db).1 = _
  rw [Call.ensure_pos (Int.not_lt.mpr hexpiry.le), Call.pure_bind, Call.run_bind, findUserById,
    Call.run_query]
  simp only [huser, Call.require_some, Call.pure_bind]
  rfl

/-! ### The right answer -/

/-- `uq_prt_token_hash`. -/
def Db.UniqueTokenHashes (db : Db) : Prop :=
  (db.passwordResetTokens.map PasswordResetToken.tokenHash).Nodup

/-- A stored token has the hash of the raw token, and the property. -/
def StoresToken (env : Env) (db : Db) (rawToken : RawToken) (property : PasswordResetToken → Prop) : Prop :=
  ∃ token ∈ db.passwordResetTokens, token.tokenHash = env.hashToken rawToken ∧ property token

/-- The call ends with `PASSWORD_RESET_TOKEN_EXPIRED`. -/
def ThrowsExpired (outcome : Except Failure Unit) : Prop :=
  ∃ thrown : DomainException, outcome = .error (.exception thrown) ∧ thrown.code = .passwordResetTokenExpired

/-- The verification is accurate and agrees with the reset: it tells whether a token is stored, used or
expired, and changes nothing; a reset from there, for an existing user, succeeds when the token is valid
and finds it expired when the verification does. -/
structure VerifiesAccurately (env : Env) (db : Db) (rawToken : RawToken) : Prop where
  unchanged : ((verifyResetToken env rawToken).run db).2 = db
  invalid : ((verifyResetToken env rawToken).run db).1 = .ok .invalid ↔
    ¬ StoresToken env db rawToken fun _ ↦ True
  used : ((verifyResetToken env rawToken).run db).1 = .ok .used ↔
    StoresToken env db rawToken fun token ↦ token.usedAt.isSome = true
  expired : ((verifyResetToken env rawToken).run db).1 = .ok .expired ↔
    StoresToken env db rawToken fun token ↦ token.usedAt = none ∧ token.expiresAt < db.now
  valid : ((verifyResetToken env rawToken).run db).1 = .ok .valid ↔
    StoresToken env db rawToken fun token ↦ token.usedAt = none ∧ ¬ token.expiresAt < db.now
  resets : OwnerExists env db rawToken → ∀ newPassword,
    ((resetPassword env rawToken newPassword).run db).1 = .ok () ↔
      ((verifyResetToken env rawToken).run db).1 = .ok .valid
  throwsExpired : OwnerExists env db rawToken → ∀ newPassword,
    ThrowsExpired ((resetPassword env rawToken newPassword).run db).1 ↔
      ((verifyResetToken env rawToken).run db).1 = .ok .expired

/-- The condition: a stored token with the hash of the raw token has not expired. -/
def UnexpiredIfStored (env : Env) (db : Db) (rawToken : RawToken) : Prop :=
  ∀ token ∈ db.passwordResetTokens, token.tokenHash = env.hashToken rawToken → db.now < token.expiresAt

/-- Assumes: the owner of the token exists. The reset succeeds exactly when the verification finds the
token valid, expired or not. -/
theorem resetPassword_ok_iff (howner : OwnerExists env db rawToken) :
    ((resetPassword env rawToken newPassword).run db).1 = .ok () ↔
      ((verifyResetToken env rawToken).run db).1 = .ok .valid := by
  cases hlive : db.liveToken (env.hashToken rawToken) with
  | none =>
    rw [resetPassword_none hlive, verifyResetToken_none hlive]
    simp
  | some token =>
    rw [verifyResetToken_some hlive]
    by_cases hused : token.usedAt.isSome = true
    · rw [resetPassword_used hlive hused, if_pos hused]
      simp
    · have hunused : token.usedAt = none := by simpa using hused
      simp [resetPassword_unused howner hlive hunused, hused]

/-- Assumes: the owner of the token exists. Neither the reset nor the verification finds a token expired. -/
theorem never_expired (howner : OwnerExists env db rawToken) :
    ¬ ThrowsExpired ((resetPassword env rawToken newPassword).run db).1 := by
  rintro ⟨thrown, hthrown, hcode⟩
  cases hlive : db.liveToken (env.hashToken rawToken) with
  | none =>
    rw [resetPassword_none hlive] at hthrown
    cases hthrown
    cases hcode
  | some token =>
    by_cases hused : token.usedAt.isSome = true
    · rw [resetPassword_used hlive hused] at hthrown
      cases hthrown
      cases hcode
    · rw [resetPassword_unused howner hlive (by simpa using hused)] at hthrown
      cases hthrown

theorem verifyResetToken_not_expired : ((verifyResetToken env rawToken).run db).1 ≠ .ok .expired := by
  cases hlive : db.liveToken (env.hashToken rawToken) with
  | none => simp [verifyResetToken_none hlive]
  | some token =>
    rw [verifyResetToken_some hlive]
    split_ifs <;> simp

/-- Assumes: the hashes are unique. A stored token is the one with its hash. -/
theorem storesToken_iff (huniq : db.UniqueTokenHashes) (hmem : token ∈ db.passwordResetTokens)
    (hhash : token.tokenHash = env.hashToken rawToken) {property : PasswordResetToken → Prop} :
    StoresToken env db rawToken property ↔ property token := by
  constructor
  · rintro ⟨other, hother, hsame, hproperty⟩
    exact List.inj_on_of_nodup_map huniq hother hmem (hsame.trans hhash.symm) ▸ hproperty
  · exact fun hproperty ↦ ⟨token, hmem, hhash, hproperty⟩

/-- Assumes: the owner of the token exists. The reset says that the token has expired exactly if the
verification does: neither ever does. -/
theorem expired_alike (howner : OwnerExists env db rawToken) :
    ThrowsExpired ((resetPassword env rawToken newPassword).run db).1 ↔
      ((verifyResetToken env rawToken).run db).1 = .ok .expired :=
  iff_of_false (never_expired howner) verifyResetToken_not_expired

/-- Assumes: no token is stored under the hash. The verification is accurate. -/
theorem accurate_of_not_stored (hlive : db.liveToken (env.hashToken rawToken) = none)
    (hnone : ∀ property, ¬ StoresToken env db rawToken property) :
    VerifiesAccurately env db rawToken := by
  have hanswer := verifyResetToken_none hlive
  exact {
    unchanged := by rw [hanswer]
    invalid := by simp [hanswer, hnone]
    used := by simp [hanswer, hnone]
    expired := by simp [hanswer, hnone]
    valid := by simp [hanswer, hnone]
    resets := fun howner _ ↦ resetPassword_ok_iff howner
    throwsExpired := fun howner _ ↦ expired_alike howner }

/-- Assumes: the hashes of the stored tokens are unique, and the token is stored and has not expired. The
verification is accurate. -/
theorem accurate_of_live (huniq : db.UniqueTokenHashes)
    (hlive : db.liveToken (env.hashToken rawToken) = some token) : VerifiesAccurately env db rawToken := by
  obtain ⟨hmem, hhash, hexpiry⟩ := liveToken_eq_some hlive
  have hpast : ¬ token.expiresAt < db.now := Int.not_lt.mpr hexpiry.le
  have hstores : ∀ property, StoresToken env db rawToken property ↔ property token :=
    fun property ↦ storesToken_iff huniq hmem hhash
  have hanswer := verifyResetToken_some hlive
  exact {
    unchanged := by rw [hanswer]
    invalid := by cases hused : token.usedAt <;> simp [hanswer, hstores, hused]
    used := by cases hused : token.usedAt <;> simp [hanswer, hstores, hused]
    expired := by simp [hstores, hpast, verifyResetToken_not_expired]
    valid := by cases hused : token.usedAt <;> simp [hanswer, hstores, hused, hexpiry.le]
    resets := fun howner _ ↦ resetPassword_ok_iff howner
    throwsExpired := fun howner _ ↦ expired_alike howner }

/-- Assumes: the hashes of the stored tokens are unique. The verification is accurate exactly if the token,
where it is stored, has not expired. -/
theorem verifyResetToken_accurate_iff (huniq : db.UniqueTokenHashes) :
    VerifiesAccurately env db rawToken ↔ UnexpiredIfStored env db rawToken := by
  constructor
  · intro haccurate token hmem hhash
    by_contra hexpired
    have hlive : db.liveToken (env.hashToken rawToken) = none := by
      refine liveToken_eq_none.mpr fun other hother hsame ↦ ?_
      rwa [List.inj_on_of_nodup_map huniq hother hmem (hsame.trans hhash.symm)]
    have hinvalid := haccurate.invalid.mp (congrArg Prod.fst (verifyResetToken_none hlive))
    exact hinvalid ⟨token, hmem, hhash, trivial⟩
  · intro hunexpired
    cases hlive : db.liveToken (env.hashToken rawToken) with
    | none =>
      refine accurate_of_not_stored hlive ?_
      rintro property ⟨token, hmem, hhash, _⟩
      exact liveToken_eq_none.mp hlive token hmem hhash (hunexpired token hmem hhash)
    | some token => exact accurate_of_live huniq hlive

/-- A user who has asked for a reset, an hour before the token expires. -/
def requestedReset : Db :=
  { exampleDb with
    passwordResetTokens := [{ id := 20, userId := 1, tokenHash := 1000, expiresAt := 3600000 }] }

/-- A witness that the hashes can be unique: an hour before it expires the token is valid. -/
theorem verifyResetToken_accurate_iff_witness :
    VerifiesAccurately exampleEnv requestedReset 0 ↔ UnexpiredIfStored exampleEnv requestedReset 0 :=
  verifyResetToken_accurate_iff (by simp [Db.UniqueTokenHashes, requestedReset])

/-- Verification is not accurate: two hours later the token is still stored, and the answer is that it is
invalid. -/
theorem expiredTakenForInvalid :
    ¬ ∀ (env : Env) (db : Db) (rawToken : RawToken), db.UniqueTokenHashes →
      VerifiesAccurately env db rawToken := by
  intro halways
  have haccurate := halways exampleEnv { requestedReset with now := 7200000 } 0
    (by simp [Db.UniqueTokenHashes, requestedReset])
  refine haccurate.invalid.mp rfl ⟨_, List.mem_singleton_self _, rfl, trivial⟩

end RallyApi.Identity

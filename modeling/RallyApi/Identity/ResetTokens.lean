import RallyApi.Concurrency.Interference
import RallyApi.Concurrency.Returns
import RallyApi.Identity.AccountService
import RallyApi.Identity.Frames
import RallyApi.Identity.SessionFamilies

/-!
# Password reset tokens

`resetPassword` tests whether its token has been used on the row it has read, before it hashes the new
password, and its transaction does not test again. Two resets that overlap both succeed with one token
(`tokenUsedTwice`).

No operation takes a used mark back (`KeepsTokens`), so a token that has been redeemed is spent for
good. In every run in which no reset commits with a spent token, at most one succeeds with each token
(`redeemed_at_most_once`).
-/

set_option autoImplicit false
set_option relaxedAutoImplicit false

namespace RallyApi.Identity

open Concurrency Platform Store

/-! ### Spent tokens -/

/-- A stored token with the hash of the raw token has been used. -/
def Spent (env : Env) (rawToken : RawToken) (db : Db) : Prop :=
  ∃ token ∈ db.passwordResetTokens,
    token.tokenHash = env.hashToken rawToken ∧ token.usedAt.isSome = true

/-- Every stored token is still there, and stays used if it was. -/
def KeepsTokens (db after : Db) : Prop :=
  ∀ token ∈ db.passwordResetTokens, ∃ later ∈ after.passwordResetTokens, later.id = token.id ∧
    later.tokenHash = token.tokenHash ∧ (token.usedAt.isSome = true → later.usedAt.isSome = true)

/-- A token that was read is still stored. -/
def Stored (record : PasswordResetToken) (db : Db) : Prop :=
  ∃ token ∈ db.passwordResetTokens, token.id = record.id ∧ token.tokenHash = record.tokenHash

variable {α : Type} {env : Env} {rawToken : RawToken} {record : PasswordResetToken}

theorem keepsTokens_of_eq {db after : Db}
    (hsame : after.passwordResetTokens = db.passwordResetTokens) : KeepsTokens db after :=
  fun token htoken ↦ ⟨token, hsame ▸ htoken, rfl, rfl, id⟩

theorem KeepsTokens.trans {first second third : Db} (hfirst : KeepsTokens first second)
    (hsecond : KeepsTokens second third) : KeepsTokens first third := by
  intro token htoken
  obtain ⟨middle, hmiddle, hid, hhash, hused⟩ := hfirst token htoken
  obtain ⟨later, hlater, hid', hhash', hused'⟩ := hsecond middle hmiddle
  exact ⟨later, hlater, hid'.trans hid, hhash'.trans hhash, fun h ↦ hused' (hused h)⟩

/-- A spent token stays spent. -/
theorem Spent.keep {db after : Db} (hspent : Spent env rawToken db) (hkeeps : KeepsTokens db after) :
    Spent env rawToken after := by
  obtain ⟨token, htoken, hhash, hused⟩ := hspent
  obtain ⟨later, hlater, _, hsame, hkept⟩ := hkeeps token htoken
  exact ⟨later, hlater, hsame.trans hhash, hkept hused⟩

theorem Stored.keep {db after : Db} (hstored : Stored record db) (hkeeps : KeepsTokens db after) :
    Stored record after := by
  obtain ⟨token, htoken, hid, hhash⟩ := hstored
  obtain ⟨later, hlater, hid', hhash', _⟩ := hkeeps token htoken
  exact ⟨later, hlater, hid'.trans hid, hhash'.trans hhash⟩

/-! ### The two writes -/

/-- Marking a token used keeps every token. -/
theorem markPasswordResetTokenUsed_keeps (id : Uuid) (db : Db) :
    KeepsTokens db (markPasswordResetTokenUsed id db) := by
  intro token htoken
  refine ⟨_, mem_updateWhere.mpr ⟨token, htoken, rfl⟩, ?_⟩
  split_ifs
  · exact ⟨rfl, rfl, fun _ ↦ rfl⟩
  · exact ⟨rfl, rfl, fun hused ↦ hused⟩

/-- Marking a stored token used spends it. -/
theorem markPasswordResetTokenUsed_spends {db : Db} (hstored : Stored record db)
    (hhash : record.tokenHash = env.hashToken rawToken) :
    Spent env rawToken (markPasswordResetTokenUsed record.id db) := by
  obtain ⟨token, htoken, hid, hsame⟩ := hstored
  exact ⟨_, set_mem_updateWhere htoken (decide_eq_true hid), hsame.trans hhash, rfl⟩

/-- A new token is appended. -/
theorem insertPasswordResetToken_keeps {token : PasswordResetToken} {db after : Db}
    (hinsert : insertPasswordResetToken token db = .ok after) : KeepsTokens db after := by
  unfold insertPasswordResetToken at hinsert
  split_ifs at hinsert
  cases hinsert
  exact fun row hrow ↦ ⟨row, List.mem_append_left _ hrow, rfl, rfl, id⟩

/-! ### Surroundings -/

/-- Surroundings in which every operation keeps the tokens. -/
def whileTokensKept : Surroundings Db SessionStep where
  rely view found := KeepsTokens view.db found
  guarantee db _ after := KeepsTokens db after

/-- The token a call has redeemed is spent. -/
def RedeemedIsSpent (env : Env) (redeemed : Option RawToken) (view : View Db SessionStep) : Prop :=
  ∀ rawToken, redeemed = some rawToken → Spent env rawToken view.db

theorem whileTokensKept_compatible :
    whileTokensKept.Compatible (RedeemedIsSpent env) fun _ ↦ True where
  refl _ _ := keepsTokens_of_eq rfl
  relies _ _ _ _ _ hguarantee hrely := hguarantee.trans hrely
  kept _ _ _ _ _ := trivial
  returned _ _ _ _ _ hguarantee hpost rawToken hredeemed := (hpost rawToken hredeemed).keep hguarantee

variable {view : View Db SessionStep}

/-- A part that leaves the tokens alone, in a call that has read one. -/
theorem amid_of_leavesTokens {call : AuthCall α} (hcall : call.Only (Leaves .passwordResetTokens))
    (hstored : Stored record view.db) :
    call.Amid whileTokensKept (fun _ after ↦ Stored record after.db) view := by
  have hamid : call.Amid whileTokensKept
      (fun value after ↦ call.Returns value ∧ Stored record after.db) view :=
    Call.amid_of_only hcall (fun _ _ _ _ hview hrely hsame ↦
      ⟨keepsTokens_of_eq hsame, (hview.keep hrely).keep (keepsTokens_of_eq hsame)⟩) hstored
  exact hamid.mono fun _ _ h ↦ h.2

/-- A call that keeps the tokens and redeems none. -/
theorem amid_of_keepsTokens {call : AuthCall α}
    (hcall : call.Only fun db _ after ↦ KeepsTokens db after) :
    ((fun _ ↦ none) <$> call : AuthCall (Option RawToken)).Amid whileTokensKept
      (RedeemedIsSpent env) view := by
  have hamid : call.Amid whileTokensKept (fun value _ ↦ call.Returns value) view :=
    Call.amid_of_guaranteed hcall fun _ _ _ hkeeps ↦ hkeeps
  exact (hamid.mono fun _ _ _ ↦ trivial).map_none

theorem keepsTokens_of_leaves {call : AuthCall α} (hcall : call.Only (Leaves .passwordResetTokens)) :
    call.Only fun db _ after ↦ KeepsTokens db after :=
  hcall.mono fun _ _ _ hsame ↦ keepsTokens_of_eq hsame

/-! ### The calls -/

/-- No authentication flow but `resetPassword` touches the tokens. -/
theorem auth_leavesTokens (request : AuthRequest)
    (hother : ∀ rawToken newPassword, request ≠ .resetPassword rawToken newPassword) :
    (request.serve env).Only (Leaves .passwordResetTokens) := by
  cases request with
  | login email password ipAddress rememberMe => simp [AuthRequest.serve, login, findByEmail]
  | signup input ipAddress => simp [AuthRequest.serve, signup, findByEmail]
  | ssoLogin idToken ipAddress => simp [AuthRequest.serve, ssoLogin]
  | refresh rawRefreshToken ipAddress => simp [AuthRequest.serve]
  | switchTenant payload targetTenantId ipAddress denylistFirst =>
    refine Call.only_map ?_
    simp [switchTenant, findByUserAndTenant, findUserById]
  | logout payload denylistFirst => exact Call.only_map (bothInOrder_leaves (by simp) (by simp) _)
  | logoutAll payload denylistFirst => exact Call.only_map (bothInOrder_leaves (by simp) (by simp) _)
  | resetPassword rawToken newPassword => exact absurd rfl (hother rawToken newPassword)
  | tick milliseconds => simp [AuthRequest.serve]

theorem forgotPassword_keepsTokens (env : Env) (config : ResetConfig) (email : String) :
    (forgotPassword env config email).Only fun db _ after ↦ KeepsTokens db after := by
  have hleaves : ∀ {β : Type} {call : AuthCall β}, call.Only (Leaves .passwordResetTokens) →
      call.Only fun db _ after ↦ KeepsTokens db after := fun hcall ↦ keepsTokens_of_leaves hcall
  simp only [forgotPassword, Call.only_bind]
  refine ⟨hleaves (by simp [findByEmail]), fun found _ ↦ ?_⟩
  split
  · exact trivial
  · simp only [Call.only_bind]
    refine ⟨hleaves (by simp), fun rawToken _ ↦ ⟨hleaves (by simp [addHours, currentTime]), fun _ _ ↦ ?_⟩⟩
    refine ⟨hleaves (by simp), fun memberships _ ↦ ⟨hleaves (by simp), fun _ _ ↦ ?_⟩⟩
    refine ⟨hleaves (by simp), fun id _ ↦ ⟨?_, fun _ _ ↦ trivial⟩⟩
    refine Call.only_attempt _ _ (fun _ _ _ ↦ keepsTokens_of_eq rfl) fun db value after hrun ↦ ?_
    obtain ⟨stored, hinsert, hrest⟩ := bind_eq_ok.mp hrun
    cases hrest
    exact insertPasswordResetToken_keeps hinsert

/-- A reset that succeeds has spent its token. -/
theorem resetPassword_amid (env : Env) (rawToken : RawToken) (newPassword : String) :
    ((fun _ ↦ some rawToken) <$> resetPassword env rawToken newPassword).Amid whileTokensKept
      (RedeemedIsSpent env) view := by
  have hread : (findPasswordResetToken (env.hashToken rawToken)).Amid whileTokensKept
      (fun found after ↦ ∀ record, found = some record →
        record.tokenHash = env.hashToken rawToken ∧ Stored record after.db) view := by
    refine fun found _ ↦ ⟨keepsTokens_of_eq rfl, fun record hrecord ↦ ?_⟩
    have hmatches := List.find?_some hrecord
    simp only [decide_eq_true_eq] at hmatches
    exact ⟨hmatches.1, record, List.mem_of_find?_eq_some hrecord, rfl, rfl⟩
  refine Call.amid_map.mpr (hread.bind fun found view hfound ↦ ?_)
  refine Call.amid_bind.mpr (Call.amid_require.mpr fun record hrecord ↦ ?_)
  obtain ⟨hhash, hstored⟩ := hfound record hrecord
  refine Call.amid_bind.mpr (Call.amid_ensure.mpr fun _ ↦ ?_)
  refine (amid_of_leavesTokens (by simp [currentTime]) hstored).bind fun now view hstored ↦ ?_
  refine Call.amid_bind.mpr (Call.amid_ensure.mpr fun _ ↦ ?_)
  refine (amid_of_leavesTokens (by simp [findUserById]) hstored).bind fun found view hstored ↦ ?_
  refine Call.amid_bind.mpr (Call.amid_require.mpr fun _ _ ↦ ?_)
  refine (amid_of_leavesTokens (by simp [snapshotSessions]) hstored).bind fun snapshot view hstored ↦ ?_
  refine Call.amid_atomically.mpr fun db hrely ↦ ⟨?_, ?_⟩
  · exact markPasswordResetTokenUsed_keeps record.id db
  · intro redeemed hredeemed
    obtain rfl := Option.some.inj hredeemed
    exact markPasswordResetTokenUsed_spends (hstored.keep hrely) hhash

/-- Every request keeps the tokens, and has spent the one it has redeemed. -/
theorem serve_amid (env : Env) (config : ResetConfig) (request : AccountRequest) :
    (request.serve env config).Amid whileTokensKept (RedeemedIsSpent env) view := by
  have hleaves : ∀ {β : Type} {call : AuthCall β}, call.Only (Leaves .passwordResetTokens) →
      ((fun _ ↦ none) <$> call : AuthCall (Option RawToken)).Amid whileTokensKept
        (RedeemedIsSpent env) view := fun hcall ↦ amid_of_keepsTokens (keepsTokens_of_leaves hcall)
  cases request with
  | auth request =>
    by_cases hreset : ∃ rawToken newPassword, request = .resetPassword rawToken newPassword
    · obtain ⟨rawToken, newPassword, rfl⟩ := hreset
      exact resetPassword_amid env rawToken newPassword
    · have hother : ∀ rawToken newPassword, request ≠ .resetPassword rawToken newPassword :=
        fun rawToken newPassword heq ↦ hreset ⟨rawToken, newPassword, heq⟩
      have hserve : (AccountRequest.auth request).serve env config =
          (fun _ ↦ none) <$> request.serve env := by
        cases request with
        | resetPassword rawToken newPassword => exact absurd rfl (hother rawToken newPassword)
        | _ => rfl
      rw [hserve]
      exact hleaves (auth_leavesTokens request hother)
  | getMe userId => exact hleaves (by simp [getMe, findUserById])
  | updateProfile userId input =>
    refine hleaves (Call.only_bind.mpr ⟨by simp [findUserById], fun _ _ ↦ ?_⟩)
    refine Call.only_bind.mpr ⟨Call.only_require _ _, fun _ _ ↦ ?_⟩
    exact statement_leaves fun db value after hrun ↦ by cases hrun; rfl
  | changePassword userId currentPassword newPassword =>
    refine hleaves (Call.only_bind.mpr ⟨by simp [findUserById], fun _ _ ↦ ?_⟩)
    refine Call.only_bind.mpr ⟨Call.only_require _ _, fun _ _ ↦ ?_⟩
    refine Call.only_bind.mpr ⟨Call.only_require _ _, fun _ _ ↦ ?_⟩
    refine Call.only_bind.mpr ⟨Call.only_ensure _ _, fun _ _ ↦ ?_⟩
    exact statement_leaves fun db value after hrun ↦ by cases hrun; rfl
  | forgotPassword email => exact amid_of_keepsTokens (forgotPassword_keepsTokens env config email)
  | verifyResetToken rawToken =>
    refine hleaves (Call.only_bind.mpr ⟨by simp [findPasswordResetToken], fun record _ ↦ ?_⟩)
    split
    · exact trivial
    · split_ifs <;> simp [currentTime]

/-! ### Single use -/

/-- A configuration of the account flows. -/
abbrev AccountRun := Concurrency.Config Db SessionStep Failure (Option RawToken)

/-- The condition on a step: if a reset succeeds by it, its token was not spent before. -/
def RedeemsUnspent (env : Env) (before after : AccountRun) : Prop :=
  ∀ rawToken, before.returns (some rawToken) < after.returns (some rawToken) →
    ¬ Spent env rawToken before.db

instance (env : Env) (rawToken : RawToken) (db : Db) : Decidable (Spent env rawToken db) :=
  inferInstanceAs (Decidable (∃ token ∈ db.passwordResetTokens, _))

/-- Only the tokens that some call has redeemed matter. -/
theorem redeemsUnspent_iff {before after : AccountRun} :
    RedeemsUnspent env before after ↔ ∀ call ∈ after.calls, ∀ rawToken ∈ call.returned.join,
      before.returns (some rawToken) < after.returns (some rawToken) →
        ¬ Spent env rawToken before.db := by
  refine ⟨fun h call _ rawToken _ ↦ h rawToken, fun h rawToken hmore ↦ ?_⟩
  obtain ⟨call, hcall, hreturned⟩ := exists_of_returns_pos (Nat.zero_lt_of_lt hmore)
  exact h call hcall rawToken (by simp [hreturned]) hmore

instance (env : Env) (before after : AccountRun) : Decidable (RedeemsUnspent env before after) :=
  decidable_of_iff' _ redeemsUnspent_iff

/-- In every run in which each reset that succeeds finds its token unspent, at most one succeeds with
each token. -/
theorem redeemed_at_most_once (env : Env) (config : ResetConfig) (db : Db) (run : AccountRun)
    (hrun : ReachableThrough (AccountRequest.serve env config) (RedeemsUnspent env) db run)
    (rawToken : RawToken) : run.returns (some rawToken) ≤ 1 := by
  have hspent : ∀ reached, Reachable (AccountRequest.serve env config) anyStep db reached →
      0 < reached.returns (some rawToken) → Spent env rawToken reached.db := by
    intro reached hreach hpos
    obtain ⟨_, hcalls⟩ := reachable_amid whileTokensKept_compatible
      (fun request db _ ↦ serve_amid env config request) trivial hreach
    obtain ⟨call, hcall, hreturned⟩ := exists_of_returns_pos hpos
    obtain ⟨history, hamid⟩ := hcalls call hcall
    rw [Call.returned_eq_some.mp hreturned] at hamid
    exact hamid rawToken rfl
  exact returns_le_one hspent (fun before after hcondition ↦ hcondition rawToken) hrun

/-- The user asks for a reset and resets the password with the token. -/
def requestAndReset : List (Choice AccountRequest) :=
  .start (.forgotPassword "ada@example.com") :: finish 0 ++
    .start (.auth (.resetPassword 0 "renewed")) :: finish 1 ++
    .start (.auth (.resetPassword 0 "again")) :: finish 2

/-- A witness that the condition can be met: the second reset is rejected. -/
theorem redeemed_at_most_once_witness :
    ((Concurrency.Config.initial exampleDb : AccountRun).play (AccountRequest.serve exampleEnv {})
      requestAndReset).returns (some 0) ≤ 1 :=
  redeemed_at_most_once exampleEnv {} exampleDb _ (play_reachableThrough (by decide +kernel)) 0

/-- Two resets with one token read its row before either of them marks it used. -/
def overlappingResets : List (Choice AccountRequest) :=
  .start (.forgotPassword "ada@example.com") :: finish 0 ++
    [.start (.auth (.resetPassword 0 "first")), .start (.auth (.resetPassword 0 "second")),
      .resume 1] ++ finish 2 ++ finish 1

/-- Without the condition one token resets the password twice: both calls succeed, and each stores the
password it was given. -/
theorem tokenUsedTwice :
    ¬ ∀ (env : Env) (config : ResetConfig) (db : Db) (run : AccountRun) (rawToken : RawToken),
      Reachable (AccountRequest.serve env config) anyStep db run →
        run.returns (some rawToken) ≤ 1 := by
  intro halways
  have hone := halways exampleEnv {} exampleDb _ 0
    (play_reachable (allowsAll_anyStep _ overlappingResets))
  exact absurd hone (by decide +kernel)

end RallyApi.Identity

import RallyApi.Identity.ResetTokens
import RallyApi.Identity.SsoPolicy

/-!
# What a password reset request reveals

`forgotPassword` answers the same whether or not an account has the address, but throws for an active user
without a membership: the tenant context of its transaction needs one.

`forgotPassword_alike_iff` compares two runs: their outcomes are the same exactly if both or neither of the
addresses belong to such a user.
-/

set_option autoImplicit false
set_option relaxedAutoImplicit false

namespace RallyApi.Identity

open Concurrency Platform Store

variable {env : Env} {config : ResetConfig} {db : Db} {email : String} {user : User}

/-- The active user whom `forgotPassword` finds for an address. -/
def Db.activeAccount (db : Db) (env : Env) (email : String) : Option User :=
  (db.users.find? fun user ↦
      user.email = env.trim (env.toLowerCase email) ∧ user.deletedAt = none).filter
    fun user ↦ user.deletedAt = none ∧ user.status = .active

/-- What the caller sees of `forgotPassword`. -/
def forgotOutcome (env : Env) (config : ResetConfig) (email : String) (db : Db) :
    Except Failure (Option ResetUrl) :=
  ((forgotPassword env config email).run db).1

/-- No infrastructure failure: what the call throws, if anything, is a domain exception. -/
def NoInfrastructureFailure {α : Type} (outcome : Except Failure α) : Prop :=
  ∀ failure, outcome = .error failure → ∃ thrown, failure = .exception thrown

@[simp]
theorem noInfrastructureFailure_ok {α : Type} (value : α) :
    NoInfrastructureFailure (.ok value : Except Failure α) := fun _ hfailure ↦ by cases hfailure

@[simp]
theorem noInfrastructureFailure_exception {α : Type} (thrown : DomainException) :
    NoInfrastructureFailure (.error (.exception thrown) : Except Failure α) :=
  fun _ hfailure ↦ ⟨thrown, (Except.error.inj hfailure).symm⟩

/-- The address belongs to an active user without a membership. -/
def LacksMembership (env : Env) (email : String) (db : Db) : Prop :=
  ∃ user, db.activeAccount env email = some user ∧ ¬ HasMembership user.id db

/-- The request for an address without an active account. -/
theorem forgotPassword_unknown (haccount : db.activeAccount env email = none) :
    forgotOutcome env config email db = .ok none := by
  rw [forgotOutcome, forgotPassword, Call.run_bind, findByEmail, Call.run_query]
  change Option.filter _ (db.users.find? _) = none at haccount
  simp only [haccount, Call.run_ok]

/-- `forgotPassword` for an active user, from the check of their memberships on. -/
def issueReset (env : Env) (config : ResetConfig) (user : User) (rawToken : RawToken) (expiresAt : Date)
    (memberships : List TenantMembership) : AuthCall (Option ResetUrl) := do
  let _ ← Call.require memberships.head?
    (notFoundException .userNotFound "User has no active tenant membership")
  let id ← uuidv7
  statement fun db ↦ do
    let after ← insertPasswordResetToken
      { id, userId := user.id, tokenHash := env.hashToken rawToken, expiresAt } db
    pure ((), after)
  pure (if env.config.production then none else some ⟨config.appBaseUrl, rawToken⟩)

/-- The request for the address of an active user: it comes to the check of their memberships. -/
theorem forgotPassword_known (haccount : db.activeAccount env email = some user) :
    ∃ rawToken expiresAt memberships after, (memberships ≠ [] ↔ HasMembership user.id db) ∧
      forgotOutcome env config email db =
        ((issueReset env config user rawToken expiresAt memberships).run after).1 := by
  have hread : ∃ memberships, (findByUserId user.id).run { db with nextToken := db.nextToken + 1 } =
      (.ok memberships, { db with nextToken := db.nextToken + 1 }) := ⟨_, rfl⟩
  obtain ⟨memberships, hread⟩ := hread
  have hmember := memberships_ne_nil hread
  refine ⟨db.nextToken, db.now + config.passwordResetTokenTtlHours * (60 * (60 * 1000)), memberships,
    { db with nextToken := db.nextToken + 1 }, hmember, ?_⟩
  rw [forgotOutcome, forgotPassword, Call.run_bind, findByEmail, Call.run_query]
  change Option.filter _ (db.users.find? _) = some user at haccount
  simp only [haccount, randomBytes, addHours, currentTime, getMemberships, Call.run_bind,
    Call.run_atomically, Call.run_query, Call.run_ok, hread, issueReset]

/-- Without memberships the request throws. -/
theorem issueReset_outsider {rawToken : RawToken} {expiresAt : Date} :
    ((issueReset env config user rawToken expiresAt []).run db).1 =
      .error (notFoundException .userNotFound "User has no active tenant membership") := rfl

/-- The only failure of an insertion is a constraint. -/
theorem insertPasswordResetToken_error {token : PasswordResetToken} {failure : Failure}
    (hinsert : insertPasswordResetToken token db = .error failure) :
    ∃ index, failure = .uniqueViolation index := by
  unfold insertPasswordResetToken at hinsert
  split_ifs at hinsert
  · exact ⟨_, (Except.error.inj hinsert).symm⟩
  · exact ⟨_, (Except.error.inj hinsert).symm⟩

/-- With memberships, in production, the request answers with no URL, unless the database refuses the
token. -/
theorem issueReset_member (hproduction : env.config.production = true) {rawToken : RawToken}
    {expiresAt : Date} {memberships : List TenantMembership} (hmember : memberships ≠ [])
    (hinfrastructure : NoInfrastructureFailure
      ((issueReset env config user rawToken expiresAt memberships).run db).1) :
    ((issueReset env config user rawToken expiresAt memberships).run db).1 = .ok none := by
  obtain ⟨membership, rest, rfl⟩ := List.exists_cons_of_ne_nil hmember
  let token : PasswordResetToken :=
    { id := db.nextUuid, userId := user.id, tokenHash := env.hashToken rawToken, expiresAt }
  have hrun : ((issueReset env config user rawToken expiresAt (membership :: rest)).run db).1 =
      (insertPasswordResetToken token { db with nextUuid := db.nextUuid + 1 }).map fun _ ↦ none := by
    simp only [issueReset, List.head?_cons, Call.require_some, Call.pure_bind, uuidv7_eq, statement,
      Call.run_bind, Call.run_atomically, Call.run_attempt, hproduction, if_true]
    cases insertPasswordResetToken token { db with nextUuid := db.nextUuid + 1 } <;> rfl
  cases hinsert : insertPasswordResetToken token { db with nextUuid := db.nextUuid + 1 } with
  | ok after => rw [hrun, hinsert]; rfl
  | error failure =>
    obtain ⟨index, rfl⟩ := insertPasswordResetToken_error hinsert
    rw [hrun, hinsert] at hinfrastructure
    obtain ⟨thrown, hthrown⟩ := hinfrastructure _ rfl
    cases hthrown

/-- In production, and without an infrastructure failure, the request throws for an active user without a
membership and answers with no URL otherwise. -/
theorem forgotOutcome_eq (hproduction : env.config.production = true)
    (hinfrastructure : NoInfrastructureFailure (forgotOutcome env config email db)) :
    LacksMembership env email db ∧ forgotOutcome env config email db =
        .error (notFoundException .userNotFound "User has no active tenant membership") ∨
      ¬ LacksMembership env email db ∧ forgotOutcome env config email db = .ok none := by
  cases haccount : db.activeAccount env email with
  | none =>
    refine .inr ⟨?_, forgotPassword_unknown haccount⟩
    rintro ⟨user, huser, _⟩
    cases haccount.symm.trans huser
  | some user =>
    have hlacks : LacksMembership env email db ↔ ¬ HasMembership user.id db := by
      simp [LacksMembership, haccount]
    obtain ⟨rawToken, expiresAt, memberships, after, hmember, houtcome⟩ :=
      @forgotPassword_known env config db email user haccount
    by_cases hnone : memberships = []
    · subst hnone
      exact .inl ⟨hlacks.mpr fun h ↦ hmember.mpr h rfl, houtcome.trans issueReset_outsider⟩
    · refine .inr ⟨fun h ↦ hlacks.mp h (hmember.mp hnone), houtcome.trans ?_⟩
      exact issueReset_member hproduction hnone (houtcome ▸ hinfrastructure)

/-- Assumes: production, and no infrastructure failure in either run. Two requests look the same to their
callers exactly if both or neither of the addresses belong to an active user without a membership. -/
theorem forgotPassword_alike_iff (hproduction : env.config.production = true) {first second : Db}
    {firstEmail secondEmail : String}
    (hfirst : NoInfrastructureFailure (forgotOutcome env config firstEmail first))
    (hsecond : NoInfrastructureFailure (forgotOutcome env config secondEmail second)) :
    forgotOutcome env config firstEmail first = forgotOutcome env config secondEmail second ↔
      (LacksMembership env firstEmail first ↔ LacksMembership env secondEmail second) := by
  rcases forgotOutcome_eq hproduction hfirst with ⟨hlacks, houtcome⟩ | ⟨hnot, houtcome⟩ <;>
    rcases forgotOutcome_eq hproduction hsecond with ⟨hlacks', houtcome'⟩ | ⟨hnot', houtcome'⟩
  · simp [hlacks, hlacks', houtcome, houtcome']
  · simp [hlacks, hnot', houtcome, houtcome']
  · simp [hnot, hlacks', houtcome, houtcome']
  · simp [hnot, hnot', houtcome, houtcome']

/-- A witness: a member and an unknown address look the same. -/
theorem forgotPassword_alike_iff_witness :
    forgotOutcome exampleEnv {} "ada@example.com" exampleDb =
        forgotOutcome exampleEnv {} "bob@example.com" exampleDb ↔
      (LacksMembership exampleEnv "ada@example.com" exampleDb ↔
        LacksMembership exampleEnv "bob@example.com" exampleDb) := by
  have hmember : forgotOutcome exampleEnv {} "ada@example.com" exampleDb = .ok none := by decide +kernel
  have hunknown : forgotOutcome exampleEnv {} "bob@example.com" exampleDb = .ok none := by decide +kernel
  exact forgotPassword_alike_iff rfl (by simp [hmember]) (by simp [hunknown])

/-- The store of `exampleDb` without the keycard, as when a signup fails once it has created its user. -/
def withoutKeycard : Db := { exampleDb with tenantMembers := [] }

/-- The outcomes are not alike: the address of an active user without a keycard can be told from an
unknown one. -/
theorem outsiderRevealed :
    ¬ ∀ (env : Env) (config : ResetConfig) (first second : Db) (firstEmail secondEmail : String),
      env.config.production = true →
        NoInfrastructureFailure (forgotOutcome env config firstEmail first) →
          NoInfrastructureFailure (forgotOutcome env config secondEmail second) →
            forgotOutcome env config firstEmail first = forgotOutcome env config secondEmail second := by
  intro halways
  have hthrows : forgotOutcome exampleEnv {} "ada@example.com" withoutKeycard =
      .error (.exception ⟨.userNotFound, "User has no active tenant membership", .notFound⟩) := by
    decide +kernel
  have hunknown : forgotOutcome exampleEnv {} "bob@example.com" withoutKeycard = .ok none := by
    decide +kernel
  have hsame := halways exampleEnv {} withoutKeycard withoutKeycard "ada@example.com" "bob@example.com" rfl
    (by simp [hthrows]) (by simp [hunknown])
  rw [hthrows, hunknown] at hsame
  cases hsame

end RallyApi.Identity

import RallyApi.Concurrency.Growth
import RallyApi.Concurrency.Requests
import RallyApi.Identity.ResetTokens
import RallyApi.Store.Lasting

/-!
# Who can set a password

The hash of a user's password is written by the identifier of the user, in a statement after those that have
checked the current password or found a reset token; other calls may write it in between. `HashOf` is the
custody of a hash: it was there at the start, or the user signed up with it, or a request has set it that
proved a password whose hash was in custody, or one that held a token issued for the user.

`reachable_custody`: in every run the hash of every user is in custody, and every reset token was asked for
with the e-mail address of its user. `login_custody`: a login that has succeeded had a password that agrees
with a hash in custody of the user it names.
-/

set_option autoImplicit false
set_option relaxedAutoImplicit false

namespace RallyApi.Identity

open Concurrency Protocol Platform Store

variable {α : Type} {env : Env} {config : ResetConfig} {initial db after : Db}
  {requests : List AccountRequest} {tokens : List PasswordResetToken} {user later : User}
  {token : PasswordResetToken} {number : ℕ} {world : World Db SessionStep}

/-! ### Accounts and tokens -/

/-- The two rows are of one account. -/
structure SameAccount (user later : User) : Prop where
  id : later.id = user.id
  email : later.email = user.email

/-- The two rows are of one reset token. -/
structure SameToken (token later : PasswordResetToken) : Prop where
  userId : later.userId = token.userId
  tokenHash : later.tokenHash = token.tokenHash

theorem sameAccount_refl (user : User) : SameAccount user user := ⟨rfl, rfl⟩

theorem sameToken_refl (token : PasswordResetToken) : SameToken token token := ⟨rfl, rfl⟩

theorem SameAccount.trans {third : User} (hfirst : SameAccount user later)
    (hsecond : SameAccount later third) : SameAccount user third :=
  ⟨hsecond.id.trans hfirst.id, hsecond.email.trans hfirst.email⟩

theorem SameToken.trans {later third : PasswordResetToken} (hfirst : SameToken token later)
    (hsecond : SameToken later third) : SameToken token third :=
  ⟨hsecond.userId.trans hfirst.userId, hsecond.tokenHash.trans hfirst.tokenHash⟩

/-- An e-mail address as the flows look it up. -/
def normalised (env : Env) (email : String) : String := env.trim (env.toLowerCase email)

/-! ### Custody -/

/-- The custody of a password hash, of the user with an identifier and an e-mail address. Assumes: `initial`
is the store at the start, `requests` are those that have been made, `tokens` are the reset tokens. -/
inductive HashOf (env : Env) (initial : Db) (requests : List AccountRequest)
    (tokens : List PasswordResetToken) : Uuid → String → String → Prop
  | initial (user : User) (hash : String) (huser : user ∈ initial.users)
      (hhash : user.passwordHash = some hash) : HashOf env initial requests tokens user.id user.email hash
  | signup (id : Uuid) (input : SignupInput) (ipAddress : Option String)
      (hrequest : .auth (.signup input ipAddress) ∈ requests) :
    HashOf env initial requests tokens id (normalised env (normalised env input.email))
      (env.hashPassword input.password)
  | change (id : Uuid) (email hash current new : String)
      (hold : HashOf env initial requests tokens id email hash)
      (hverified : env.verifyPassword hash current = true)
      (hrequest : .changePassword id current new ∈ requests) :
    HashOf env initial requests tokens id email (env.hashPassword new)
  | reset (token : PasswordResetToken) (email new : String) (rawToken : RawToken) (htoken : token ∈ tokens)
      (hheld : token.tokenHash = env.hashToken rawToken)
      (hrequest : .auth (.resetPassword rawToken new) ∈ requests) :
    HashOf env initial requests tokens token.userId email (env.hashPassword new)

/-- The reset token was there at the start, or was asked for with the e-mail address of its user. -/
def TokenOf (env : Env) (initial : Db) (requests : List AccountRequest) (users : List User)
    (token : PasswordResetToken) : Prop :=
  (∃ old ∈ initial.passwordResetTokens, SameToken old token) ∨
    ∃ email rawToken, .forgotPassword email ∈ requests ∧ token.tokenHash = env.hashToken rawToken ∧
      ∃ user ∈ users, user.id = token.userId ∧ user.email = normalised env email

/-- Assumes: the tokens last. What is in custody stays so. By induction on the custody. -/
theorem HashOf.mono {laterTokens : List PasswordResetToken} {id : Uuid} {email hash : String}
    (hhash : HashOf env initial requests tokens id email hash)
    (htokens : Lasts SameToken tokens laterTokens) :
    HashOf env initial requests laterTokens id email hash := by
  induction hhash with
  | initial user hash huser hhash => exact .initial user hash huser hhash
  | signup id input ipAddress hrequest => exact .signup id input ipAddress hrequest
  | change id email hash current new _ hverified hrequest ih =>
    exact .change id email hash current new ih hverified hrequest
  | reset token email new rawToken htoken hheld hrequest =>
    obtain ⟨later, hlater, hsame⟩ := htokens token htoken
    rw [← hsame.userId]
    exact .reset later email new rawToken hlater (hsame.tokenHash.trans hheld) hrequest

/-- Assumes: the users last, and the token is the same. -/
theorem TokenOf.mono {users laterUsers : List User} {later : PasswordResetToken}
    (htoken : TokenOf env initial requests users token) (hsame : SameToken token later)
    (husers : Lasts SameAccount users laterUsers) : TokenOf env initial requests laterUsers later := by
  rcases htoken with ⟨old, hold, hfrom⟩ | ⟨email, rawToken, hrequest, hraw, user, huser, hid, hemail⟩
  · exact .inl ⟨old, hold, hfrom.trans hsame⟩
  · obtain ⟨row, hrow, haccount⟩ := husers user huser
    exact .inr ⟨email, rawToken, hrequest, hsame.tokenHash.trans hraw, row, hrow,
      haccount.id.trans (hid.trans hsame.userId.symm), haccount.email.trans hemail⟩

/-! ### The protocol -/

/-- The invariant: identifiers of users are distinct, and what is stored is in custody. -/
structure Custody (env : Env) (initial : Db) (requests : List AccountRequest) (db : Db) : Prop where
  ids : (db.users.map User.id).Nodup
  hashes : ∀ user ∈ db.users, ∀ hash, user.passwordHash = some hash →
    HashOf env initial requests db.passwordResetTokens user.id user.email hash
  tokens : ∀ token ∈ db.passwordResetTokens, TokenOf env initial requests db.users token

/-- The accounts and the tokens of the first store are in the second. -/
structure Grows (db after : Db) : Prop where
  users : Lasts SameAccount db.users after.users
  tokens : Lasts SameToken db.passwordResetTokens after.passwordResetTokens

/-- A step whose writes are accounted for: a hash it leaves was there, or is in custody, and a token it
leaves was there, or was asked for. -/
structure Accounted (env : Env) (initial : Db) (requests : List AccountRequest) (db after : Db) : Prop
    extends Grows db after where
  ids : (db.users.map User.id).Nodup → (after.users.map User.id).Nodup
  hashes : ∀ later ∈ after.users, ∀ hash, later.passwordHash = some hash →
    (∃ user ∈ db.users, SameAccount user later ∧ user.passwordHash = some hash) ∨
      HashOf env initial requests after.passwordResetTokens later.id later.email hash
  made : ∀ later ∈ after.passwordResetTokens, (∃ token ∈ db.passwordResetTokens, SameToken token later) ∨
    TokenOf env initial requests after.users later

/-- The protocol. -/
def custody (env : Env) (initial : Db) (requests : List AccountRequest) : Protocol Db SessionStep where
  permits := anyStep
  invariant world := Custody env initial requests world.db
  guarantee _ world _ after := Grows world.db after

/-- Writes that are accounted for keep what is stored in custody. -/
theorem keeps_of_accounted {label : SessionStep} (hinv : Custody env initial requests world.db)
    (haccounted : Accounted env initial requests world.db after) :
    (custody env initial requests).Keeps number world label after := by
  refine ⟨haccounted.toGrows, haccounted.ids hinv.ids, ?_, ?_⟩
  · intro later hlater hash hhash
    rcases haccounted.hashes later hlater hash hhash with ⟨user, huser, hsame, hold⟩ | hnew
    · rw [hsame.id, hsame.email]
      exact (hinv.hashes user huser hash hold).mono haccounted.tokens
    · exact hnew
  · intro later hlater
    rcases haccounted.made later hlater with ⟨token, htoken, hsame⟩ | hnew
    · exact (hinv.tokens token htoken).mono hsame haccounted.users
    · exact hnew

/-! ### Writes that are accounted for -/

/-- A step of a call whose writes are accounted for. -/
def AccountedStep (env : Env) (initial : Db) (requests : List AccountRequest) (db : Db) (_ : SessionStep)
    (after : Db) : Prop :=
  Accounted env initial requests db after

/-- A step that leaves users and tokens alone. -/
theorem accounted_of_same (husers : after.users = db.users)
    (htokens : after.passwordResetTokens = db.passwordResetTokens) :
    Accounted env initial requests db after where
  users := husers ▸ lasts_refl sameAccount_refl _
  tokens := htokens ▸ lasts_refl sameToken_refl _
  ids hids := husers ▸ hids
  hashes later hlater _ hhash := .inl ⟨later, husers ▸ hlater, sameAccount_refl later, hhash⟩
  made later hlater := .inl ⟨later, htokens ▸ hlater, sameToken_refl later⟩

/-- A step that sets columns of a user. Assumes: the row stays one of its account; the tokens are as they
were, but for their marks; and a hash that is set is in custody. -/
theorem accounted_of_update {id : Uuid} {set : User → User}
    (husers : after.users = updateWhere (fun user ↦ user.id = id) set db.users)
    (hset : ∀ user, SameAccount user (set user))
    (htokens : Lasts SameToken db.passwordResetTokens after.passwordResetTokens)
    (hmade : ∀ later ∈ after.passwordResetTokens, ∃ token ∈ db.passwordResetTokens, SameToken token later)
    (hhash : ∀ user ∈ db.users, user.id = id → ∀ hash, (set user).passwordHash = some hash →
      user.passwordHash = some hash ∨
        HashOf env initial requests after.passwordResetTokens user.id user.email hash) :
    Accounted env initial requests db after where
  users := husers ▸ lasts_updateWhere sameAccount_refl fun user _ _ ↦ hset user
  tokens := htokens
  ids hids := husers ▸ nodup_map_updateWhere (fun user ↦ (hset user).id) hids
  hashes later hlater hash hlaterHash := by
    rw [husers] at hlater
    obtain ⟨user, huser, rfl⟩ := mem_updateWhere.mp hlater
    split_ifs at hlaterHash ⊢ with hid
    · rcases hhash user huser (of_decide_eq_true hid) hash hlaterHash with hold | hnew
      · exact .inl ⟨user, huser, hset user, hold⟩
      · rw [(hset user).id, (hset user).email]
        exact .inr hnew
    · exact .inl ⟨user, huser, sameAccount_refl user, hlaterHash⟩
  made later hlater := .inl (hmade later hlater)

/-- A step that inserts a user. -/
theorem accounted_of_insert {row inserted : User} (hinsert : insertUser row db = .ok (inserted, after))
    (hhash : ∀ hash, row.passwordHash = some hash →
      HashOf env initial requests db.passwordResetTokens row.id row.email hash) :
    Accounted env initial requests db after := by
  unfold insertUser at hinsert
  split_ifs at hinsert with hfree
  cases hinsert
  refine ⟨⟨lasts_append sameAccount_refl _, lasts_refl sameToken_refl _⟩, fun hids ↦ ?_, ?_, ?_⟩
  · refine nodup_map_append_singleton hids fun htaken ↦ hfree ?_
    obtain ⟨old, hold, hid⟩ := List.mem_map.mp htaken
    exact List.any_eq_true.mpr ⟨old, hold, decide_eq_true hid⟩
  · intro later hlater hash hlaterHash
    rcases List.mem_append.mp hlater with hold | hnew
    · exact .inl ⟨later, hold, sameAccount_refl later, hlaterHash⟩
    · obtain rfl := List.mem_singleton.mp hnew
      exact .inr (hhash hash hlaterHash)
  · exact fun later hlater ↦ .inl ⟨later, hlater, sameToken_refl later⟩

/-- A call that leaves users and tokens alone. -/
theorem accounted_of_leaves {call : AuthCall α} (husers : call.Only (Leaves .users))
    (htokens : call.Only (Leaves .passwordResetTokens)) :
    call.Only (AccountedStep env initial requests) :=
  (husers.and htokens).mono fun _ _ _ hsame ↦ accounted_of_same hsame.1 hsame.2

/-! ### The authentication flows -/

/-- A session is created, and the last login of its user is stamped. -/
theorem createSession_accounted (session : AuthSession) :
    (createSession session).Only (AccountedStep env initial requests) := by
  refine Call.only_attempt _ _ (fun _ _ _ ↦ accounted_of_same rfl rfl) fun db value after hrun ↦ ?_
  obtain ⟨sessions, _, hrest⟩ := bind_eq_ok.mp hrun
  cases hrest
  exact accounted_of_update rfl (fun _ ↦ ⟨rfl, rfl⟩) (lasts_refl sameToken_refl _)
    (fun later hlater ↦ ⟨later, hlater, sameToken_refl later⟩) fun _ _ _ _ hhash ↦ .inl hhash

theorem issueSession_accounted (user : User) (sessionId : Uuid) (permissions : List String)
    (tenantId : Uuid) (authMethod : AuthMethod) (ttlSeconds : ℕ) (ipAddress ssoProvider : Option String) :
    (issueSession env user sessionId permissions tenantId authMethod ttlSeconds ipAddress
      ssoProvider).Only (AccountedStep env initial requests) := by
  refine Call.only_bind.mpr ⟨accounted_of_leaves (by simp) (by simp), fun issued _ ↦ ?_⟩
  refine Call.only_bind.mpr ⟨accounted_of_leaves (by simp) (by simp), fun refresh _ ↦ ?_⟩
  refine Call.only_bind.mpr ⟨accounted_of_leaves (by simp) (by simp), fun expiresAt _ ↦ ?_⟩
  exact Call.only_bind.mpr ⟨createSession_accounted _, fun _ _ ↦ trivial⟩

/-- The end of `login`, `signup` and `ssoLogin`. -/
theorem only_issueSession_bind {β : Type} {issue : AuthCall LoginResult} {rest : LoginResult → AuthCall β}
    (hissue : issue.Only (AccountedStep env initial requests))
    (husers : ∀ issued, (rest issued).Only (Leaves .users))
    (htokens : ∀ issued, (rest issued).Only (Leaves .passwordResetTokens)) :
    (issue >>= rest).Only (AccountedStep env initial requests) :=
  Call.only_bind.mpr ⟨hissue, fun issued _ ↦ accounted_of_leaves (husers issued) (htokens issued)⟩

/-- The user who signs up is stored with the hash of the password in the request. -/
theorem signup_accounted {input : SignupInput} {ipAddress : Option String}
    (hrequest : .auth (.signup input ipAddress) ∈ requests) :
    (signup env input ipAddress).Only (AccountedStep env initial requests) := by
  refine Call.only_bind.mpr ⟨accounted_of_leaves (by simp [findByEmail]) (by simp [findByEmail]),
    fun existing _ ↦ ?_⟩
  refine Call.only_bind.mpr ⟨Call.only_ensure _ _, fun _ _ ↦ ?_⟩
  refine Call.only_bind.mpr ⟨accounted_of_leaves (by simp) (by simp), fun resolved _ ↦ ?_⟩
  refine Call.only_bind.mpr ⟨accounted_of_leaves (by simp) (by simp), fun userId _ ↦ ?_⟩
  refine Call.only_bind.mpr ⟨?_, fun user _ ↦ ?_⟩
  · refine Call.only_attempt _ _ (fun _ _ _ ↦ accounted_of_same rfl rfl) fun db value after hrun ↦ ?_
    refine accounted_of_insert hrun fun hash hhash ↦ ?_
    obtain rfl := Option.some.inj hhash
    exact .signup userId input ipAddress hrequest
  refine Call.only_bind.mpr ⟨accounted_of_leaves (by simp) (by simp), fun _ _ ↦ ?_⟩
  refine Call.only_bind.mpr ⟨accounted_of_leaves (by simp) (by simp), fun _ _ ↦ ?_⟩
  refine Call.only_bind.mpr ⟨accounted_of_leaves (by simp) (by simp), fun sessionId _ ↦ ?_⟩
  refine Call.only_bind.mpr ⟨accounted_of_leaves (by simp) (by simp), fun memberships _ ↦ ?_⟩
  refine Call.only_bind.mpr ⟨accounted_of_leaves (by simp) (by simp), fun permissions _ ↦ ?_⟩
  exact only_issueSession_bind (issueSession_accounted _ _ _ _ _ _ _ _) (fun _ ↦ by simp) fun _ ↦ by simp

/-- A user provisioned for an identity has no password. -/
theorem upsertBySsoIdentity_accounted (provider providerSub providerEmail displayName : String)
    (tenantId : Uuid) :
    (upsertBySsoIdentity env provider providerSub providerEmail displayName tenantId).Only
      (AccountedStep env initial requests) := by
  refine Call.only_bind.mpr ⟨accounted_of_leaves (by simp [findSsoIdentity]) (by simp [findSsoIdentity]),
    fun existingIdentity _ ↦ ?_⟩
  cases existingIdentity with
  | some identity =>
    refine accounted_of_leaves ?_ ?_ <;> dsimp only <;> split_ifs <;> simp [findUserById]
  | none =>
    refine Call.only_bind.mpr ⟨accounted_of_leaves (by simp [findByEmail]) (by simp [findByEmail]),
      fun existingUser _ ↦ ?_⟩
    cases existingUser with
    | some user => exact accounted_of_leaves (by simp) (by simp)
    | none =>
      refine Call.only_bind.mpr ⟨accounted_of_leaves (by simp) (by simp), fun userId _ ↦ ?_⟩
      refine Call.only_bind.mpr ⟨?_, fun user _ ↦ accounted_of_leaves (by simp) (by simp)⟩
      refine Call.only_attempt _ _ (fun _ _ _ ↦ accounted_of_same rfl rfl) fun db value after hrun ↦ ?_
      exact accounted_of_insert hrun fun hash hhash ↦ by cases hhash

theorem ssoLogin_accounted (idToken : String) (ipAddress : Option String) :
    (ssoLogin env idToken ipAddress).Only (AccountedStep env initial requests) := by
  refine Call.only_bind.mpr ⟨Call.only_ensure _ _, fun _ _ ↦ ?_⟩
  refine Call.only_bind.mpr ⟨Call.only_require _ _, fun claims _ ↦ ?_⟩
  refine Call.only_bind.mpr ⟨Call.only_require _ _, fun oid _ ↦ ?_⟩
  refine Call.only_bind.mpr ⟨Call.only_require _ _, fun email _ ↦ ?_⟩
  refine Call.only_bind.mpr ⟨?_, fun resolved _ ↦ ?_⟩
  · exact resolveSsoUser_only (fun _ ↦ accounted_of_same rfl rfl)
      (accounted_of_leaves (by simp) (by simp)) env _ _ _ _
      (fun _ ↦ upsertBySsoIdentity_accounted _ _ _ _ _)
      (fun _ _ _ ↦ accounted_of_leaves (by simp) (by simp))
      fun _ _ _ ↦ accounted_of_leaves (by simp) (by simp)
  refine Call.only_bind.mpr ⟨accounted_of_leaves (by simp) (by simp), fun _ _ ↦ ?_⟩
  refine Call.only_bind.mpr ⟨accounted_of_leaves (by simp) (by simp), fun sessionId _ ↦ ?_⟩
  refine Call.only_bind.mpr ⟨accounted_of_leaves (by simp) (by simp), fun permissions _ ↦ ?_⟩
  exact only_issueSession_bind (issueSession_accounted _ _ _ _ _ _ _ _) (fun _ ↦ by simp) fun _ ↦ by simp

/-- No authentication flow but `resetPassword` sets the password of a user who is there; `login` sets none
either. -/
theorem auth_accounted {request : AuthRequest} (hmade : .auth request ∈ requests)
    (hother : ∀ rawToken newPassword, request ≠ .resetPassword rawToken newPassword)
    (hlogin : ∀ email password ipAddress rememberMe, request ≠ .login email password ipAddress rememberMe) :
    (request.serve env).Only (AccountedStep env initial requests) := by
  have htokens : (request.serve env).Only (Leaves .passwordResetTokens) := auth_leavesTokens request hother
  cases request with
  | login email password ipAddress rememberMe =>
    exact absurd rfl (hlogin email password ipAddress rememberMe)
  | signup input ipAddress => exact Call.only_map (signup_accounted hmade)
  | ssoLogin idToken ipAddress => exact Call.only_map (ssoLogin_accounted _ _)
  | refresh rawRefreshToken ipAddress =>
    exact accounted_of_leaves (by simp [AuthRequest.serve]) htokens
  | switchTenant payload targetTenantId ipAddress denylistFirst =>
    refine accounted_of_leaves (Call.only_map ?_) htokens
    simp [switchTenant, findByUserAndTenant, findUserById]
  | logout payload denylistFirst =>
    exact accounted_of_leaves (Call.only_map (bothInOrder_leaves (by simp) (by simp) _)) htokens
  | logoutAll payload denylistFirst =>
    exact accounted_of_leaves (Call.only_map (bothInOrder_leaves (by simp) (by simp) _)) htokens
  | resetPassword rawToken newPassword => exact absurd rfl (hother rawToken newPassword)
  | tick milliseconds => exact accounted_of_leaves (by simp [AuthRequest.serve]) htokens

/-! ### The requests of an account -/

/-- The account is there. -/
def AccountAt (id : Uuid) (email : String) (db : Db) : Prop :=
  ∃ user ∈ db.users, user.id = id ∧ user.email = email

theorem Grows.accountAt {id : Uuid} {email : String} (before after : Db) (hgrows : Grows before after)
    (haccount : AccountAt id email before) : AccountAt id email after := by
  obtain ⟨user, huser, hid, hemail⟩ := haccount
  obtain ⟨later, hlater, hsame⟩ := hgrows.users user huser
  exact ⟨later, hlater, hsame.id.trans hid, hsame.email.trans hemail⟩

/-- A row with the identifier of an account is its row. -/
theorem AccountAt.email_eq {id : Uuid} {email : String} (haccount : AccountAt id email db)
    (hinv : Custody env initial requests db) (huser : user ∈ db.users) (hid : user.id = id) :
    user.email = email := by
  obtain ⟨row, hrow, hrowId, hemail⟩ := haccount
  rw [List.inj_on_of_nodup_map hinv.ids huser hrow (hid.trans hrowId.symm), hemail]

/-- The account is there, and the hash of the new password would be in custody. -/
structure MaySet (env : Env) (initial : Db) (requests : List AccountRequest) (id : Uuid)
    (email hash : String) (db : Db) : Prop where
  account : AccountAt id email db
  custody : HashOf env initial requests db.passwordResetTokens id email hash

theorem Grows.maySet {id : Uuid} {email hash : String} (before after : Db) (hgrows : Grows before after)
    (hmay : MaySet env initial requests id email hash before) :
    MaySet env initial requests id email hash after :=
  ⟨Grows.accountAt before after hgrows hmay.account, hmay.custody.mono hgrows.tokens⟩

theorem persistent_maySet (id : Uuid) (email hash : String) :
    (custody env initial requests).Persistent fun world ↦
      MaySet env initial requests id email hash world.db :=
  persistent_of_growth (fun _ _ _ _ hstep ↦ hstep) fun before after ↦ Grows.maySet before after

/-- The password of a user is set. Assumes: its hash would be in custody, and the tokens are as they were
but for their marks. -/
theorem accounted_of_set {id : Uuid} {email hash : String}
    (hinv : Custody env initial requests db) (hmay : MaySet env initial requests id email hash db)
    (husers : after.users = (updatePasswordHash id hash db).users)
    (htokens : Lasts SameToken db.passwordResetTokens after.passwordResetTokens)
    (hmade : ∀ later ∈ after.passwordResetTokens,
      ∃ token ∈ db.passwordResetTokens, SameToken token later) :
    Accounted env initial requests db after := by
  refine accounted_of_update husers (fun _ ↦ ⟨rfl, rfl⟩) htokens hmade fun user huser hid set hset ↦ .inr ?_
  obtain rfl := Option.some.inj hset
  rw [hid, hmay.account.email_eq hinv huser hid]
  exact hmay.custody.mono htokens

/-- A call whose writes are accounted for. -/
theorem meets_of_accounted {call : AuthCall α} (hcall : call.Only (AccountedStep env initial requests)) :
    (custody env initial requests).Meets number call (fun _ ↦ True) fun _ _ ↦ True :=
  meets_of_only hcall stable_true fun _ _ _ hinv _ _ hstep ↦ ⟨keeps_of_accounted hinv hstep, trivial⟩

/-- A call whose writes are accounted for keeps what lasts. -/
theorem keeps_fact {call : AuthCall α} {fact : World Db SessionStep → Prop}
    (hcall : call.Only (AccountedStep env initial requests))
    (hfact : (custody env initial requests).Persistent fact) :
    (custody env initial requests).Meets number call fact fun _ ↦ fact :=
  (meets_of_accounted hcall |>.frame hfact).conseq (fun _ _ h ↦ ⟨trivial, h⟩) fun _ _ _ h ↦ h.2

/-- What the precondition says of a world in any case may be used, and a part of it kept. -/
theorem meets_knowing {call : AuthCall α} {pre kept : World Db SessionStep → Prop} {fact : Prop}
    {post : α → World Db SessionStep → Prop} (hpre : ∀ world, pre world → kept world ∧ fact)
    (hcall : fact → (custody env initial requests).Meets number call kept post) :
    (custody env initial requests).Meets number call pre post :=
  (meets_and_fact hcall).strengthen fun world _ ↦ hpre world

/-- What is read of a user is in custody, and stays so. -/
theorem meets_findUser {condition : User → Bool} :
    (custody env initial requests).Meets number
      (Call.query .other fun db ↦ db.users.find? condition : AuthCall (Option User)) (fun _ ↦ True)
      fun found world ↦ ∀ user hash, found = some user → user.passwordHash = some hash →
        condition user = true ∧ MaySet env initial requests user.id user.email hash world.db := by
  refine meets_query stable_true fun world hinv _ _ ↦
    ⟨keeps_of_accounted hinv (accounted_of_same rfl rfl), fun user hash hfound hhash ↦ ?_⟩
  have hmem := List.mem_of_find?_eq_some hfound
  exact ⟨List.find?_some hfound, ⟨user, hmem, rfl, rfl⟩, hinv.hashes user hmem hash hhash⟩

/-- The current password is proved before the new one is set. -/
theorem meets_changePassword {userId : Uuid} {currentPassword newPassword : String}
    (hrequest : .changePassword userId currentPassword newPassword ∈ requests) :
    (custody env initial requests).Meets number (changePassword env userId currentPassword newPassword)
      (fun _ ↦ True) fun _ _ ↦ True := by
  refine meets_findUser.bind fun found _ ↦ meets_require.bind fun user _ ↦ ?_
  refine meets_require.bind fun hash _ ↦ meets_ensure.bind fun _ _ ↦ ?_
  have hset : (custody env initial requests).Meets number
      (statement fun db ↦
        .ok ((), updatePasswordHash userId (env.hashPassword newPassword) db) : AuthCall Unit)
      (fun world ↦ MaySet env initial requests userId user.email (env.hashPassword newPassword) world.db)
      fun _ _ ↦ True := by
    refine meets_attempt (persistent_maySet _ _ _).stable (fun _ _ _ _ _ hfail ↦ by cases hfail) ?_
    intro world value after hinv hmay _ hok
    cases hok
    exact ⟨keeps_of_accounted hinv (accounted_of_set hinv hmay rfl (lasts_refl sameToken_refl _)
      fun later hlater ↦ ⟨later, hlater, sameToken_refl later⟩), trivial⟩
  refine hset.strengthen fun world hinv hpre ↦ ?_
  obtain ⟨⟨⟨hfound, huser⟩, hhash⟩, hverified⟩ := hpre
  obtain ⟨huser, _⟩ := Option.filter_eq_some_iff.mp huser
  obtain ⟨hhash, _⟩ := Option.filter_eq_some_iff.mp hhash
  obtain ⟨hmatches, hmay⟩ := hfound user hash huser hhash
  obtain rfl : user.id = userId := (of_decide_eq_true hmatches).1
  exact ⟨hmay.account, .change _ _ hash currentPassword newPassword hmay.custody hverified hrequest⟩

/-- The reset token is there. -/
def TokenAt (record : PasswordResetToken) (db : Db) : Prop :=
  ∃ token ∈ db.passwordResetTokens, SameToken record token

theorem persistent_tokenAt (record : PasswordResetToken) :
    (custody env initial requests).Persistent fun world ↦ TokenAt record world.db := by
  refine persistent_of_growth (fun _ _ _ _ hstep ↦ hstep) fun before after hgrows htoken ↦ ?_
  obtain ⟨token, hmem, hsame⟩ := htoken
  obtain ⟨later, hlater, hlast⟩ := hgrows.tokens token hmem
  exact ⟨later, hlater, hsame.trans hlast⟩

/-- The password of the user of a reset token is set, and the token marked. -/
theorem accounted_of_reset {record : PasswordResetToken} {rawToken : RawToken} {newPassword : String}
    {snapshot : List Uuid} (hrequest : .auth (.resetPassword rawToken newPassword) ∈ requests)
    (hheld : record.tokenHash = env.hashToken rawToken) (htoken : TokenAt record db) :
    Accounted env initial requests db
      { markPasswordResetTokenUsed record.id
          (updatePasswordHash record.userId (env.hashPassword newPassword) db) with
        authSessions := revokeRows snapshot db.authSessions } := by
  have hmarked : Lasts SameToken db.passwordResetTokens
      (markPasswordResetTokenUsed record.id db).passwordResetTokens :=
    lasts_updateWhere sameToken_refl fun _ _ _ ↦ ⟨rfl, rfl⟩
  refine accounted_of_update rfl (fun _ ↦ ⟨rfl, rfl⟩) hmarked ?_ ?_
  · intro later hlater
    obtain ⟨token, hmem, rfl⟩ := mem_updateWhere.mp hlater
    refine ⟨token, hmem, ?_⟩
    split_ifs <;> exact ⟨rfl, rfl⟩
  · intro user _ hid hash hset
    obtain rfl := Option.some.inj hset
    obtain ⟨token, hmem, hsame⟩ := htoken
    obtain ⟨later, hlater, hlast⟩ := hmarked token hmem
    have hlaterHash : later.tokenHash = env.hashToken rawToken :=
      hlast.tokenHash.trans (hsame.tokenHash.trans hheld)
    rw [hid, ← hsame.userId, ← hlast.userId]
    exact .inr (.reset later _ _ rawToken hlater hlaterHash hrequest)

theorem meets_resetPassword {rawToken : RawToken} {newPassword : String}
    (hrequest : .auth (.resetPassword rawToken newPassword) ∈ requests) :
    (custody env initial requests).Meets number (resetPassword env rawToken newPassword) (fun _ ↦ True)
      fun _ _ ↦ True := by
  have hfind : (custody env initial requests).Meets number (findPasswordResetToken (env.hashToken rawToken))
      (fun _ ↦ True) fun found world ↦ ∀ record, found = some record →
        record.tokenHash = env.hashToken rawToken ∧ TokenAt record world.db := by
    refine meets_query stable_true fun world hinv _ _ ↦
      ⟨keeps_of_accounted hinv (accounted_of_same rfl rfl), fun record hfound ↦ ?_⟩
    have hmatches := List.find?_some hfound
    exact ⟨(of_decide_eq_true hmatches).1, record, List.mem_of_find?_eq_some hfound, sameToken_refl record⟩
  refine hfind.bind fun found _ ↦ meets_require.bind fun record _ ↦ meets_ensure.bind fun _ _ ↦ ?_
  refine meets_knowing (fun world hpre ↦ (hpre.1.1 record hpre.1.2).symm) fun hheld ↦ ?_
  have hkept : (custody env initial requests).Persistent fun world ↦ TokenAt record world.db :=
    persistent_tokenAt record
  refine (keeps_fact (accounted_of_leaves (by simp [currentTime]) (by simp [currentTime])) hkept).bind
    fun now _ ↦ meets_ensure.bind fun _ _ ↦ ?_
  refine ((keeps_fact (accounted_of_leaves (by simp [findUserById]) (by simp [findUserById]))
    hkept).strengthen fun _ _ hpre ↦ hpre.1).bind fun found _ ↦ meets_require.bind fun _ _ ↦ ?_
  refine ((keeps_fact (accounted_of_leaves (by simp [snapshotSessions]) (by simp [snapshotSessions]))
    hkept).strengthen fun _ _ hpre ↦ hpre.1).bind fun snapshot _ ↦ ?_
  exact meets_atomically hkept.stable fun world hinv htoken _ ↦
    ⟨keeps_of_accounted hinv (accounted_of_reset hrequest hheld htoken), trivial⟩

/-- A token that was asked for with the e-mail address of its user is stored. -/
theorem accounted_of_token {id : Uuid} {email : String} {rawToken : RawToken}
    {inserted : PasswordResetToken} (hrequest : .forgotPassword email ∈ requests)
    (haccount : AccountAt id (normalised env email) db)
    (hinsert : insertPasswordResetToken inserted db = .ok after) (huserId : inserted.userId = id)
    (hhash : inserted.tokenHash = env.hashToken rawToken) :
    Accounted env initial requests db after := by
  unfold insertPasswordResetToken at hinsert
  split_ifs at hinsert
  cases hinsert
  refine ⟨⟨lasts_refl sameAccount_refl _, lasts_append sameToken_refl _⟩, fun hids ↦ hids, ?_, ?_⟩
  · exact fun later hlater _ hset ↦ .inl ⟨later, hlater, sameAccount_refl later, hset⟩
  · intro later hlater
    rcases List.mem_append.mp hlater with hold | hnew
    · exact .inl ⟨later, hold, sameToken_refl later⟩
    · obtain rfl := List.mem_singleton.mp hnew
      obtain ⟨user, huser, hid, hemail⟩ := haccount
      exact .inr (.inr ⟨email, rawToken, hrequest, hhash, user, huser, hid.trans huserId.symm, hemail⟩)

theorem meets_forgotPassword {resets : ResetConfig} {email : String}
    (hrequest : .forgotPassword email ∈ requests) :
    (custody env initial requests).Meets number (forgotPassword env resets email) (fun _ ↦ True)
      fun _ _ ↦ True := by
  have hfind : (custody env initial requests).Meets number (findByEmail (normalised env email))
      (fun _ ↦ True) fun found world ↦ ∀ user, found = some user →
        AccountAt user.id (normalised env email) world.db := by
    refine meets_query stable_true fun world hinv _ _ ↦
      ⟨keeps_of_accounted hinv (accounted_of_same rfl rfl), fun user hfound ↦ ?_⟩
    have hmatches := List.find?_some hfound
    exact ⟨user, List.mem_of_find?_eq_some hfound, rfl, (of_decide_eq_true hmatches).1⟩
  refine hfind.bind fun found _ ↦ ?_
  split
  · exact meets_pure fun _ _ _ ↦ trivial
  rename_i user hactive
  obtain ⟨hfound, _⟩ := Option.filter_eq_some_iff.mp hactive
  have hkept : (custody env initial requests).Persistent fun world ↦
      AccountAt user.id (normalised env email) world.db :=
    persistent_of_growth (fun _ _ _ _ hstep ↦ hstep) fun before after ↦ Grows.accountAt before after
  refine ((keeps_fact (accounted_of_leaves (by simp) (by simp)) hkept).strengthen
    fun world _ hpre ↦ hpre user hfound).bind fun rawToken _ ↦ ?_
  refine (keeps_fact (accounted_of_leaves (by simp [addHours, currentTime])
    (by simp [addHours, currentTime])) hkept).bind fun expiresAt _ ↦ ?_
  refine (keeps_fact (accounted_of_leaves (by simp) (by simp)) hkept).bind fun memberships _ ↦
    meets_require.bind fun _ _ ↦ ?_
  refine ((keeps_fact (accounted_of_leaves (by simp) (by simp)) hkept).strengthen
    fun _ _ hpre ↦ hpre.1).bind fun id _ ↦ ?_
  refine Meets.andThen ?_ fun _ ↦ meets_pure fun _ _ _ ↦ trivial
  refine meets_attempt hkept.stable (fun world _ hinv _ _ _ ↦
    keeps_of_accounted hinv (accounted_of_same rfl rfl)) fun world value after hinv haccount _ hrun ↦ ?_
  obtain ⟨stored, hinsert, hrest⟩ := bind_eq_ok.mp hrun
  cases hrest
  exact ⟨keeps_of_accounted hinv (accounted_of_token hrequest haccount hinsert rfl rfl), trivial⟩

/-- What a login has established: a user has the e-mail address, and the password agrees with a hash in
their custody. -/
def LoggedIn (env : Env) (initial : Db) (requests : List AccountRequest) (email password : String)
    (db : Db) : Prop :=
  ∃ id hash, MaySet env initial requests id (normalised env email) hash db ∧
    env.verifyPassword hash password = true

theorem persistent_loggedIn (email password : String) :
    (custody env initial requests).Persistent fun world ↦
      LoggedIn env initial requests email password world.db := by
  refine persistent_of_growth (fun _ _ _ _ hstep ↦ hstep) fun before after hgrows hlogged ↦ ?_
  obtain ⟨id, hash, hmay, hverified⟩ := hlogged
  exact ⟨id, hash, Grows.maySet before after hgrows hmay, hverified⟩

/-- A login verifies the password before it opens a session. -/
theorem meets_login {email password : String} {ipAddress : Option String} {rememberMe : Bool} :
    (custody env initial requests).Meets number (login env email password ipAddress rememberMe)
      (fun _ ↦ True) fun _ world ↦ LoggedIn env initial requests email password world.db := by
  refine meets_findUser.bind fun found _ ↦ meets_require.bind fun user _ ↦ ?_
  refine meets_require.bind fun hash _ ↦ meets_ensure.bind fun _ _ ↦ ?_
  refine meets_ensure.bind fun _ _ ↦ meets_ensure.bind fun _ _ ↦ ?_
  refine Meets.strengthen (keeps_fact ?_ (persistent_loggedIn email password)) fun world _ hpre ↦ ?_
  · refine Call.only_bind.mpr ⟨accounted_of_leaves (by simp) (by simp), fun sessionId _ ↦ ?_⟩
    refine Call.only_bind.mpr ⟨accounted_of_leaves (by simp) (by simp), fun memberships _ ↦ ?_⟩
    refine Call.only_bind.mpr ⟨Call.only_require _ _, fun active _ ↦ ?_⟩
    refine Call.only_bind.mpr ⟨accounted_of_leaves (by simp) (by simp), fun permissions _ ↦ ?_⟩
    exact only_issueSession_bind (issueSession_accounted _ _ _ _ _ _ _ _) (fun _ ↦ by simp) fun _ ↦ by simp
  · obtain ⟨⟨⟨⟨⟨hfound, huser⟩, hhash⟩, _⟩, _⟩, hverified⟩ := hpre
    obtain ⟨hmatches, hmay⟩ := hfound user hash huser hhash
    have hemail : user.email = normalised env email := (of_decide_eq_true hmatches).1
    exact ⟨user.id, hash, hemail ▸ hmay, hverified⟩

/-! ### Runs -/

/-- What a call has established when it returns. -/
def Promise (env : Env) (initial : Db) (requests : List AccountRequest) (number : ℕ)
    (_ : Option RawToken) (world : World Db SessionStep) : Prop :=
  ∀ email password ipAddress rememberMe,
    requests[number]? = some (.auth (.login email password ipAddress rememberMe)) →
      LoggedIn env initial requests email password world.db

theorem stable_promise (number : ℕ) (result : Option RawToken) :
    (custody env initial requests).Stable number (Promise env initial requests number result) := by
  intro other _ world label after hinv hpromise hguarantee email password ipAddress rememberMe hlogin
  exact persistent_loggedIn email password other world label after hinv
    (hpromise email password ipAddress rememberMe hlogin) hguarantee

/-- Requests other than logins. -/
theorem meets_other {resets : ResetConfig} {request : AccountRequest} (hrequest : request ∈ requests)
    (hlogin : ∀ email password ipAddress rememberMe,
      request ≠ .auth (.login email password ipAddress rememberMe)) :
    (custody env initial requests).Meets number (request.serve env resets) (fun _ ↦ True)
      fun _ _ ↦ True := by
  cases request with
  | auth request =>
    by_cases hreset : ∃ rawToken newPassword, request = .resetPassword rawToken newPassword
    · obtain ⟨rawToken, newPassword, rfl⟩ := hreset
      exact (meets_resetPassword hrequest).map
    · have hother : ∀ rawToken newPassword, request ≠ .resetPassword rawToken newPassword :=
        fun rawToken newPassword heq ↦ hreset ⟨rawToken, newPassword, heq⟩
      have hserve : (AccountRequest.auth request).serve env resets =
          (fun _ ↦ none) <$> request.serve env := by
        cases request with
        | resetPassword rawToken newPassword => exact absurd rfl (hother rawToken newPassword)
        | _ => rfl
      rw [hserve]
      refine (meets_of_accounted (auth_accounted hrequest hother ?_)).map
      intro email password ipAddress rememberMe heq
      exact hlogin email password ipAddress rememberMe (heq ▸ rfl)
  | getMe userId =>
    exact (meets_of_accounted (accounted_of_leaves (by simp [getMe, findUserById])
      (by simp [getMe, findUserById]))).map
  | updateProfile userId input =>
    refine (meets_of_accounted (Call.only_bind.mpr ⟨accounted_of_leaves (by simp [findUserById])
      (by simp [findUserById]), fun found _ ↦ ?_⟩)).map
    refine Call.only_bind.mpr ⟨Call.only_require _ _, fun _ _ ↦ ?_⟩
    unfold updateUserProfile statement
    refine Call.only_attempt _ _ (fun _ _ _ ↦ accounted_of_same rfl rfl) fun db value after hrun ↦ ?_
    cases hrun
    exact accounted_of_update rfl (fun _ ↦ ⟨rfl, rfl⟩) (lasts_refl sameToken_refl _)
      (fun later hlater ↦ ⟨later, hlater, sameToken_refl later⟩) fun _ _ _ _ hhash ↦ .inl hhash
  | changePassword userId currentPassword newPassword => exact (meets_changePassword hrequest).map
  | forgotPassword email => exact (meets_forgotPassword hrequest).map
  | verifyResetToken rawToken =>
    refine (meets_of_accounted (Call.only_bind.mpr ⟨accounted_of_leaves (by simp [findPasswordResetToken])
      (by simp [findPasswordResetToken]), fun record _ ↦ ?_⟩)).map
    cases record with
    | none => trivial
    | some record =>
      refine accounted_of_leaves ?_ ?_ <;> dsimp only <;> split_ifs <;> simp [currentTime]

/-- Every request keeps its promise. -/
theorem meets_serve {resets : ResetConfig} {request : AccountRequest}
    (hrequest : requests[number]? = some request) :
    (custody env initial requests).Meets number (request.serve env resets) (fun _ ↦ True)
      (Promise env initial requests number) := by
  by_cases hlogin : ∃ email password ipAddress rememberMe,
      request = .auth (.login email password ipAddress rememberMe)
  · obtain ⟨email, password, ipAddress, rememberMe, rfl⟩ := hlogin
    have hissued : (custody env initial requests).Meets number
        (some <$> login env email password ipAddress rememberMe) (fun _ ↦ True)
        fun _ world ↦ LoggedIn env initial requests email password world.db :=
      meets_login.bind fun _ _ ↦ meets_pure fun _ _ hlogged ↦ hlogged
    refine hissued.bind fun _ _ ↦
      meets_pure fun world _ hlogged other otherPassword otherAddress otherMe hother ↦ ?_
    cases hrequest.symm.trans hother
    exact hlogged
  · refine (meets_other (List.mem_of_getElem? hrequest) ?_).conseq (fun _ _ h ↦ h) ?_
    · intro email password ipAddress rememberMe heq
      exact hlogin ⟨email, password, ipAddress, rememberMe, heq⟩
    · intro _ world _ _ email password ipAddress rememberMe hother
      have hsame := Option.some.inj (hrequest.symm.trans hother)
      exact absurd ⟨email, password, ipAddress, rememberMe, hsame⟩ hlogin

variable {resets : ResetConfig} {config : AccountRun}

/-- The store at the start is in custody. -/
theorem custody_initial (hids : (initial.users.map User.id).Nodup) :
    (custody env initial requests).invariant ⟨initial, []⟩ where
  ids := hids
  hashes user huser hash hhash := .initial user hash huser hhash
  tokens token htoken := .inl ⟨token, htoken, sameToken_refl token⟩

theorem kept_custody (hids : (initial.users.map User.id).Nodup)
    (hreach : ReachableBy (AccountRequest.serve env resets) anyStep initial requests config) :
    (custody env initial requests).Kept (Promise env initial requests) config :=
  reachableBy_kept stable_promise (fun _ _ hrequest ↦
    (meets_serve hrequest).strengthen fun _ _ _ ↦ trivial) (custody_initial hids) hreach
    (List.prefix_refl _)

/-- The user changes the password, asks for a reset, and sets another one with the token. -/
def changeAndReset : List (Choice AccountRequest) :=
  .start (.changePassword 1 "secret" "changed") :: finish 0 ++
    .start (.forgotPassword "Ada@example.com ") :: finish 1 ++
    .start (.auth (.resetPassword 0 "renewed")) :: finish 2 ++
    .start (.auth (.login "ADA@example.com" "renewed" none true)) :: finish 3

/-- The configuration the run ends in. -/
def resetRun : AccountRun :=
  (Concurrency.Config.initial exampleDb).play (AccountRequest.serve exampleEnv {}) changeAndReset

theorem resetRun_reachableBy :
    ReachableBy (AccountRequest.serve exampleEnv {}) anyStep exampleDb (requestsOf changeAndReset)
      resetRun :=
  play_reachableBy _ _ _

/-- Assumes: at the start, no two users have one identifier. In every configuration the hash of every user
is in custody, and every reset token was there at the start or was asked for with the e-mail address of its
user. -/
theorem reachable_custody (hids : (initial.users.map User.id).Nodup)
    (hreach : ReachableBy (AccountRequest.serve env resets) anyStep initial requests config) :
    (∀ user ∈ config.db.users, ∀ hash, user.passwordHash = some hash →
      HashOf env initial requests config.db.passwordResetTokens user.id user.email hash) ∧
      ∀ token ∈ config.db.passwordResetTokens, TokenOf env initial requests config.db.users token :=
  have hinv := (kept_custody hids hreach).invariant
  ⟨hinv.hashes, hinv.tokens⟩

/-- A witness: the hash that is left is the one of the reset. -/
theorem reachable_custody_witness :
    ((∀ user ∈ resetRun.db.users, ∀ hash, user.passwordHash = some hash →
      HashOf exampleEnv exampleDb (requestsOf changeAndReset) resetRun.db.passwordResetTokens user.id
        user.email hash) ∧
      ∀ token ∈ resetRun.db.passwordResetTokens,
        TokenOf exampleEnv exampleDb (requestsOf changeAndReset) resetRun.db.users token) ∧
      resetRun.db.users.map User.passwordHash = [some "argon2$renewed"] ∧
      resetRun.db.passwordResetTokens.map PasswordResetToken.tokenHash = [1000] :=
  ⟨reachable_custody (by decide) resetRun_reachableBy, by decide +kernel, by decide +kernel⟩

/-- Assumes: at the start, no two users have one identifier. A login that has succeeded was given the e-mail
address of a user and a password that agrees with a hash in the custody of that user. -/
theorem login_custody (hids : (initial.users.map User.id).Nodup)
    (hreach : ReachableBy (AccountRequest.serve env resets) anyStep initial requests config)
    {email password : String} {ipAddress : Option String} {rememberMe : Bool} {result : Option RawToken}
    (hrequest : requests[number]? = some (.auth (.login email password ipAddress rememberMe)))
    (hdone : config.calls[number]? = some (.done (.ok result))) :
    ∃ user ∈ config.db.users, ∃ hash, user.email = normalised env email ∧
      env.verifyPassword hash password = true ∧
      HashOf env initial requests config.db.passwordResetTokens user.id user.email hash := by
  have hpromise := (kept_custody hids hreach).returned hdone
  obtain ⟨id, hash, hmay, hverified⟩ := hpromise email password ipAddress rememberMe hrequest
  obtain ⟨user, huser, rfl, hemail⟩ := hmay.account
  exact ⟨user, huser, hash, hemail, hverified, hemail ▸ hmay.custody⟩

/-- A witness: the login with the password of the reset. -/
theorem login_custody_witness :
    ∃ user ∈ resetRun.db.users, ∃ hash, user.email = normalised exampleEnv "ADA@example.com" ∧
      exampleEnv.verifyPassword hash "renewed" = true ∧
      HashOf exampleEnv exampleDb (requestsOf changeAndReset) resetRun.db.passwordResetTokens user.id
        user.email hash :=
  have hrequest : (requestsOf changeAndReset)[3]? =
      some (.auth (.login "ADA@example.com" "renewed" none true)) := rfl
  have hdone : resetRun.calls[3]? = some (.done (.ok none)) := getElem?_of_returned (by decide +kernel)
  login_custody (by decide) resetRun_reachableBy hrequest hdone

end RallyApi.Identity

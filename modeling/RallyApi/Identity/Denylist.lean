import RallyApi.Identity.Issuance
import RallyApi.Identity.SessionFamilies

/-!
# The denylist outlives the token

`logout`, `logoutAll` and `switchTenant` put the access token they are called with on the denylist, for the
seconds left until it expires. They round the clock down when they count these seconds, and the entry is
written later than that, so it lasts at least until the expiry of the token.

`reachable_denied`: in every interleaving of the authentication flows, once such a call has returned, the
token is on the denylist at every moment at which its signature would still be accepted, and the guard
rejects it.
-/

set_option autoImplicit false
set_option relaxedAutoImplicit false

namespace RallyApi.Identity

open Concurrency Platform Store

/-! ### The guard -/

/-- What the JWT strategy asks of the expiry: `floor(now / 1000) < exp`. -/
def accepts (payload : JwtPayload) (now : Date) : Bool := now / 1000 < payload.exp

/-- `isTokenDenied`: the entry is there, and has not expired. -/
def isTokenDenied (jti : Uuid) (db : Db) : Bool :=
  db.denylist.any fun entry ↦ entry.1 = jti ∧ db.now < entry.2

/-- `JwtAuthGuard.canActivate`, of a token with a valid signature, whose expiry is checked at some time. The
lookups are `isTokenDenied` and `isUserRevoked`, or nothing if they fail. -/
def JwtAuthGuard.canActivate (payload : JwtPayload) (checkedAt : Date) (lookups : Option (Bool × Bool)) :
    Except String Unit :=
  if ¬ accepts payload checkedAt then .error "Invalid or expired access token"
  else
    match lookups with
    | some (tokenRevoked, userRevoked) =>
      if tokenRevoked || userRevoked then .error "Token has been revoked" else .ok ()
    -- The denylist is best-effort: without Valkey the guard fails open.
    | none => .ok ()

/-! ### The requests -/

/-- The payload that a request puts on the denylist. -/
def AuthRequest.denylists : AuthRequest → Option JwtPayload
  | .switchTenant payload .. | .logout payload _ | .logoutAll payload _ => some payload
  | .login .. | .signup .. | .ssoLogin .. | .refresh .. | .resetPassword .. | .tick _ => none

/-- A token identifier names one token: the payloads with the identifier have the same expiry. -/
def OneExpiry (payload : JwtPayload) (requests : List AuthRequest) : Prop :=
  ∀ request ∈ requests, ∀ other ∈ request.denylists, other.jti = payload.jti → other.exp = payload.exp

instance (payload : JwtPayload) (requests : List AuthRequest) : Decidable (OneExpiry payload requests) :=
  inferInstanceAs (Decidable (∀ request ∈ requests, _))

/-! ### What a step keeps -/

variable {α : Type} {env : Env} {payload other : JwtPayload} {requests : List AuthRequest} {db after : Db}
  {number : ℕ}

/-- The token has expired, or it is on the denylist until it will have. -/
def Covered (payload : JwtPayload) (db : Db) : Prop :=
  payload.exp * 1000 ≤ db.now ∨
    ∃ entry ∈ db.denylist, entry.1 = payload.jti ∧ payload.exp * 1000 ≤ entry.2

/-- A step does not turn the clock back, and leaves the token covered. -/
structure KeepsCover (payload : JwtPayload) (db after : Db) : Prop where
  now : db.now ≤ after.now
  cover : Covered payload db → Covered payload after

/-- The protocol of the flows with respect to a token. It permits every step. -/
def covering (payload : JwtPayload) : Protocol Db SessionStep where
  permits := anyStep
  invariant _ := True
  guarantee _ world _ after := KeepsCover payload world.db after

theorem Covered.isTokenDenied (hcovered : Covered payload db) (haccepts : accepts payload db.now = true) :
    isTokenDenied payload.jti db = true := by
  have hless : db.now / 1000 < payload.exp := of_decide_eq_true haccepts
  have hnow : db.now < payload.exp * 1000 := Int.lt_mul_of_ediv_lt (by decide) hless
  rcases hcovered with hexpired | ⟨entry, hentry, hjti, huntil⟩
  · exact absurd hnow (Int.not_lt.mpr hexpired)
  · exact List.any_eq_true.mpr ⟨entry, hentry, decide_eq_true ⟨hjti, hnow.trans_le huntil⟩⟩

/-- A step that leaves the denylist alone, and does not turn the clock back. -/
theorem keepsCover_of_same (hnow : db.now ≤ after.now) (hdenylist : after.denylist = db.denylist) :
    KeepsCover payload db after := by
  refine ⟨hnow, fun hcovered ↦ ?_⟩
  rw [Covered, hdenylist]
  exact hcovered.imp_left fun hexpired ↦ hexpired.trans hnow

theorem later_persistent (now : Date) : (covering payload).Persistent fun world ↦ now ≤ world.db.now :=
  fun _ _ _ _ _ hlater hkeeps ↦ le_trans hlater hkeeps.now

/-- Assumes: each step of a call leaves the denylist alone and does not turn the clock back. What lasts is
kept by the call. -/
theorem meets_of_same {fact : World Db SessionStep → Prop} (hfact : (covering payload).Persistent fact)
    {call : AuthCall α}
    (hcall : call.Only fun db _ after ↦ db.now ≤ after.now ∧ after.denylist = db.denylist) :
    (covering payload).Meets number call fact fun _ ↦ fact :=
  Protocol.meets_of_only hcall hfact.stable fun world label after hinv hholds _ hsame ↦
    have hkeeps : KeepsCover payload world.db after := keepsCover_of_same hsame.1 hsame.2
    ⟨⟨hkeeps, trivial⟩, hfact number world label after hinv hholds hkeeps⟩

/-- A call that leaves the clock and the denylist alone. -/
theorem meets_of_leaves {fact : World Db SessionStep → Prop} (hfact : (covering payload).Persistent fact)
    {call : AuthCall α} (hclock : call.Only (Leaves .clock)) (hdenylist : call.Only (Leaves .denylist)) :
    (covering payload).Meets number call fact fun _ ↦ fact :=
  meets_of_same hfact ((hclock.and hdenylist).mono fun _ _ _ hboth ↦ ⟨ge_of_eq hboth.1, hboth.2⟩)

theorem covers_persistent (other : JwtPayload) : (covering payload).Persistent
    fun world ↦ other.jti = payload.jti → Covered payload world.db :=
  fun _ _ _ _ _ hcovers hkeeps hjti ↦ hkeeps.cover (hcovers hjti)

/-! ### Putting a token on the denylist -/

/-- The seconds left are counted from a time that is past, rounded down, and they run from now. -/
theorem expiry_le {exp now written : ℤ} {ttl : ℕ} (hpast : now ≤ written)
    (httl : (ttl : ℤ) = exp - now / 1000) : exp * 1000 ≤ written + ttl * 1000 := by
  omega

/-- Assumes: the seconds left of a token, at a time that is past. The entry written now lasts as long as the
token, and no entry of another token is touched. -/
theorem keepsCover_denylist {now : Date} {ttl : ℕ} (hpast : now ≤ db.now)
    (hsame : other.jti = payload.jti → other.exp = payload.exp)
    (httl : (ttl : ℤ) = other.exp - now / 1000)
    (hafter : after = { db with
      denylist := (other.jti, db.now + ttl * 1000) :: db.denylist.filter fun entry ↦ entry.1 ≠ other.jti }) :
    KeepsCover payload db after ∧ (other.jti = payload.jti → Covered payload after) := by
  subst hafter
  have hnew (hjti : other.jti = payload.jti) : Covered payload { db with
      denylist := (other.jti, db.now + ttl * 1000) :: db.denylist.filter fun entry ↦ entry.1 ≠ other.jti } := by
    refine .inr ⟨_, List.mem_cons_self, hjti, ?_⟩
    rw [← hsame hjti]
    exact expiry_le hpast httl
  refine ⟨⟨le_rfl, fun hcovered ↦ ?_⟩, hnew⟩
  by_cases hjti : other.jti = payload.jti
  · exact hnew hjti
  · refine hcovered.imp_right ?_
    rintro ⟨entry, hentry, hown, huntil⟩
    refine ⟨entry, List.mem_cons_of_mem _ (List.mem_filter.mpr ⟨hentry, ?_⟩), hown, huntil⟩
    exact decide_eq_true fun hother ↦ hjti (hother.symm.trans hown)

/-- A token with the identifier is covered once `denylistPayload` has returned. -/
theorem denylistPayload_covers (hsame : other.jti = payload.jti → other.exp = payload.exp) :
    (covering payload).Meets number (denylistPayload other) (fun _ ↦ True)
      fun _ world ↦ other.jti = payload.jti → Covered payload world.db := by
  have hread : (covering payload).Meets number currentTime (fun _ ↦ True)
      fun now world ↦ now ≤ world.db.now := by
    refine Protocol.meets_query Protocol.stable_true fun world _ _ _ ↦ ?_
    exact ⟨⟨keepsCover_of_same le_rfl rfl, trivial⟩, le_rfl⟩
  refine hread.bind fun now _ ↦ ?_
  dsimp only
  split_ifs with hleft
  · have httl : (((max (other.exp - now / 1000) 0).toNat : ℕ) : ℤ) = other.exp - now / 1000 := by omega
    rw [denylistToken, statement]
    refine Protocol.meets_attempt (later_persistent now).stable (fun world _ _ _ _ _ ↦ ?_)
      fun world value after _ hpast _ hrun ↦ ?_
    · exact ⟨keepsCover_of_same le_rfl rfl, trivial⟩
    · cases hrun
      obtain ⟨hkeeps, hcovers⟩ := keepsCover_denylist hpast hsame httl rfl
      exact ⟨⟨hkeeps, trivial⟩, hcovers⟩
  · refine Protocol.meets_pure fun world _ hpast hjti ↦ .inl ?_
    have hexpired : other.exp * 1000 ≤ now := (Int.le_ediv_iff_mul_le (by decide)).mp (by omega)
    rw [← hsame hjti]
    exact hexpired.trans hpast

/-- `Promise.all` of putting the token on the denylist and something else. -/
theorem bothInOrder_covers (hsame : other.jti = payload.jti → other.exp = payload.exp)
    {second : AuthCall Unit} (hclock : second.Only (Leaves .clock))
    (hdenylist : second.Only (Leaves .denylist)) (denylistFirst : Bool) :
    (covering payload).Meets number (bothInOrder denylistFirst (denylistPayload other) second)
      (fun _ ↦ True) fun _ world ↦ other.jti = payload.jti → Covered payload world.db := by
  cases denylistFirst with
  | true =>
    exact (denylistPayload_covers hsame).bind fun _ _ ↦
      meets_of_leaves (covers_persistent other) hclock hdenylist
  | false =>
    exact (meets_of_leaves (Protocol.persistent_const True) hclock hdenylist).bind fun _ _ ↦
      denylistPayload_covers hsame

/-! ### Every request -/

theorem resetPassword_leavesDenylist (rawToken : RawToken) (newPassword : String) {table : Table}
    (htable : table = .clock ∨ table = .denylist) :
    (resetPassword env rawToken newPassword).Only (Leaves table) := by
  have hcommit (token : PasswordResetToken) (newHash : String) (snapshot : List Uuid) :
      (commitReset token newHash snapshot).Only (Leaves table) :=
    (Call.only_atomically _ _).mpr fun db ↦ by rcases htable with rfl | rfl <;> rfl
  simp [resetPassword, findPasswordResetToken, currentTime, findUserById, snapshotSessions, hcommit]

/-- A request that puts no token on the denylist leaves it alone, and the clock as well unless it is a
tick. -/
theorem serve_leavesDenylist {request : AuthRequest} (hnone : request.denylists = none)
    (hother : ∀ milliseconds, request ≠ .tick milliseconds) {table : Table}
    (htable : table = .clock ∨ table = .denylist) :
    (request.serve env).Only (Leaves table) := by
  cases request with
  | login email password ipAddress rememberMe =>
    rcases htable with rfl | rfl <;> simp [AuthRequest.serve, login, findByEmail]
  | signup input ipAddress =>
    rcases htable with rfl | rfl <;> simp [AuthRequest.serve, signup, findByEmail]
  | ssoLogin idToken ipAddress => rcases htable with rfl | rfl <;> simp [AuthRequest.serve, ssoLogin]
  | refresh rawRefreshToken ipAddress => rcases htable with rfl | rfl <;> simp [AuthRequest.serve]
  | resetPassword rawToken newPassword =>
    exact Call.only_map (resetPassword_leavesDenylist rawToken newPassword htable)
  | tick milliseconds => exact absurd rfl (hother milliseconds)
  | switchTenant | logout | logoutAll => cases hnone

theorem tick_same (milliseconds : ℕ) :
    (tick milliseconds).Only fun db _ after ↦ db.now ≤ after.now ∧ after.denylist = db.denylist := by
  rw [tick, statement]
  refine Call.only_attempt _ _ (fun db _ _ ↦ ⟨le_rfl, rfl⟩) fun db value after hrun ↦ ?_
  cases hrun
  exact ⟨Int.le_add_of_nonneg_right (Int.natCast_nonneg _), rfl⟩

theorem switchTenant_covers (hsame : other.jti = payload.jti → other.exp = payload.exp)
    (targetTenantId : Uuid) (ipAddress : Option String) (denylistFirst : Bool) :
    (covering payload).Meets number (switchTenant env other targetTenantId ipAddress denylistFirst)
      (fun _ ↦ True) fun _ world ↦ other.jti = payload.jti → Covered payload world.db := by
  have hquiet {β : Type} {call : AuthCall β} (hclock : call.Only (Leaves .clock))
      (hdenylist : call.Only (Leaves .denylist)) :
      (covering payload).Meets number call (fun _ ↦ True) fun _ _ ↦ True :=
    meets_of_leaves (Protocol.persistent_const True) hclock hdenylist
  refine (hquiet (by simp [findByUserAndTenant]) (by simp [findByUserAndTenant])).bind fun found _ ↦ ?_
  refine (hquiet (Call.only_require _ _) (Call.only_require _ _)).bind fun keycard _ ↦ ?_
  refine (hquiet (Call.only_ensure _ _) (Call.only_ensure _ _)).bind fun _ _ ↦ ?_
  refine (hquiet (by simp [findUserById]) (by simp [findUserById])).bind fun found _ ↦ ?_
  refine (hquiet (Call.only_require _ _) (Call.only_require _ _)).bind fun user _ ↦ ?_
  refine (hquiet (Call.only_ensure _ _) (Call.only_ensure _ _)).bind fun _ _ ↦ ?_
  refine (hquiet (by simp) (by simp)).bind fun permissions _ ↦ ?_
  refine (hquiet (by simp) (by simp)).bind fun newSessionId _ ↦ ?_
  refine (hquiet (by simp) (by simp)).bind fun signed _ ↦ ?_
  refine (hquiet (by simp) (by simp)).bind fun token _ ↦ ?_
  refine (hquiet (by simp) (by simp)).bind fun expiresAt _ ↦ ?_
  refine (bothInOrder_covers hsame (by simp) (by simp) denylistFirst).bind fun _ _ ↦ ?_
  refine (meets_of_leaves (covers_persistent other) (by simp) (by simp)).bind fun _ _ ↦ ?_
  exact Protocol.meets_pure fun _ _ hcovers ↦ hcovers

/-- Every request keeps the token covered, and has covered it once it has returned, if it is the token of
the request. -/
theorem serve_covers (request : AuthRequest)
    (hsame : ∀ other ∈ request.denylists, other.jti = payload.jti → other.exp = payload.exp) :
    (covering payload).Meets number (request.serve env) (fun _ ↦ True)
      fun _ world ↦ ∀ other ∈ request.denylists, other.jti = payload.jti → Covered payload world.db := by
  have hdenylists {β γ : Type} {f : β → γ} {call : AuthCall β} {other : JwtPayload}
      (hother : request.denylists = some other)
      (hcall : (covering payload).Meets number call (fun _ ↦ True)
        fun _ world ↦ other.jti = payload.jti → Covered payload world.db) :
      (covering payload).Meets number (f <$> call) (fun _ ↦ True)
        fun _ world ↦ ∀ other ∈ request.denylists, other.jti = payload.jti → Covered payload world.db := by
    refine hcall.bind fun _ _ ↦ Protocol.meets_pure fun _ _ hcovers named hnamed ↦ ?_
    obtain rfl := Option.some.inj (hother.symm.trans hnamed)
    exact hcovers
  have hquiet (hnone : request.denylists = none)
      (hcall : (covering payload).Meets number (request.serve env) (fun _ ↦ True) fun _ _ ↦ True) :
      (covering payload).Meets number (request.serve env) (fun _ ↦ True)
        fun _ world ↦ ∀ other ∈ request.denylists, other.jti = payload.jti → Covered payload world.db :=
    hcall.conseq (fun _ _ h ↦ h) fun _ _ _ _ other hother ↦ by simp [hnone] at hother
  by_cases htick : ∃ milliseconds, request = .tick milliseconds
  · obtain ⟨milliseconds, rfl⟩ := htick
    exact hquiet rfl (meets_of_same (Protocol.persistent_const True) (Call.only_map (tick_same milliseconds)))
  have hother (milliseconds : ℕ) : request ≠ .tick milliseconds := fun heq ↦ htick ⟨milliseconds, heq⟩
  cases request with
  | switchTenant named targetTenantId ipAddress denylistFirst =>
    exact hdenylists rfl (switchTenant_covers (hsame named rfl) targetTenantId ipAddress denylistFirst)
  | logout named denylistFirst =>
    exact hdenylists rfl (bothInOrder_covers (hsame named rfl) (by simp) (by simp) denylistFirst)
  | logoutAll named denylistFirst =>
    exact hdenylists rfl (bothInOrder_covers (hsame named rfl) (by simp) (by simp) denylistFirst)
  | _ =>
    exact hquiet rfl (meets_of_leaves (Protocol.persistent_const True)
      (serve_leavesDenylist rfl hother (.inl rfl)) (serve_leavesDenylist rfl hother (.inr rfl)))

/-! ### The denylist outlives the token -/

/-- Assumes: the payloads with the identifier of the token have its expiry. Once a call that puts the
token on the denylist has returned, then whenever the signature would still be accepted, the token is on
the denylist, and the guard that has looked it up rejects it. -/
theorem reachable_denied (env : Env) (db : Db) (requests : List AuthRequest) (config : IssuanceRun)
    (hreach : ReachableBy (AuthRequest.serve env) anyStep db requests config) (payload : JwtPayload)
    (hexpiry : OneExpiry payload requests) (number : ℕ) (request : AuthRequest)
    (hrequest : requests[number]? = some request) (hpayload : request.denylists = some payload)
    (result : Option LoginResult) (hreturned : config.calls[number]? = some (.done (.ok result)))
    (haccepts : accepts payload config.db.now = true) :
    isTokenDenied payload.jti config.db = true ∧ ∀ checkedAt userRevoked, ∃ message,
      JwtAuthGuard.canActivate payload checkedAt (some (isTokenDenied payload.jti config.db, userRevoked)) =
        .error message := by
  have hkept : (covering payload).Kept (fun number _ world ↦ ∀ request, requests[number]? = some request →
      ∀ other ∈ request.denylists, other.jti = payload.jti → Covered payload world.db) config := by
    refine Protocol.reachableBy_kept (fun number result ↦ ?_) (fun number request hrequest ↦ ?_) trivial
      hreach (List.prefix_refl _)
    · exact fun _ _ world label after _ hcovers hkeeps request hrequest other hother hjti ↦
        hkeeps.cover (hcovers request hrequest other hother hjti)
    · refine (serve_covers request (hexpiry request (List.mem_of_getElem? hrequest))).conseq
        (fun _ _ _ ↦ trivial) fun _ _ _ hcovers same hsame ↦ ?_
      obtain rfl := Option.some.inj (hrequest.symm.trans hsame)
      exact hcovers
  have hcovered := hkept.returned hreturned request hrequest payload hpayload rfl
  have hdenied := hcovered.isTokenDenied haccepts
  refine ⟨hdenied, fun checkedAt userRevoked ↦ ?_⟩
  by_cases hunexpired : accepts payload checkedAt = true
  · refine ⟨"Token has been revoked", ?_⟩
    rw [JwtAuthGuard.canActivate, if_neg (not_not_intro hunexpired), hdenied]
    rfl
  · exact ⟨_, by rw [JwtAuthGuard.canActivate, if_pos hunexpired]⟩

/-- An access token that expires at second 900. -/
def examplePayload : JwtPayload :=
  { sub := 1, tenantId := 2, sessionId := 10, jti := 11, permissions := [], authMethod := .password, iat := 0,
    exp := 900 }

/-- A logout 400 milliseconds past a second, and then the last millisecond before the token expires. -/
def logoutAndWait : List (Choice AuthRequest) :=
  [.start (.tick 400), .resume 0, .start (.logout examplePayload true), .resume 1, .resume 1, .resume 1,
    .start (.tick 899599), .resume 2]

/-- The store after that. -/
def waited : Db := ((Config.initial exampleDb).play (AuthRequest.serve exampleEnv) logoutAndWait).db

/-- A witness that the conditions can be met: the token is still on the denylist. -/
theorem reachable_denied_witness :
    isTokenDenied 11 waited = true ∧ ∀ checkedAt userRevoked, ∃ message,
      JwtAuthGuard.canActivate examplePayload checkedAt (some (isTokenDenied 11 waited, userRevoked)) =
        .error message :=
  reachable_denied exampleEnv exampleDb _ _ (play_reachableBy _ _ logoutAndWait) examplePayload
    (by decide +kernel) 1 (.logout examplePayload true) rfl rfl none rfl (by decide +kernel)

end RallyApi.Identity

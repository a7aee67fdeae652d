import RallyApi.Concurrency.Outcomes
import RallyApi.Concurrency.Requests
import RallyApi.Identity.Frames
import RallyApi.Identity.SessionRules

/-!
# What sessions are issued with

Five flows issue a refresh token: `login`, `signup`, `ssoLogin` and `switchTenant` open a family with the
session they insert, and `refresh` rotates the session it presents. The protocol `issuance` says what the
rows and the history have to do with each other: every row has been written by a step of the history, a
family is opened by the call that has drawn its identifier, and a session expires at most the lifetime of
the request after it was created. No step turns the clock back or changes a row other than by revoking it.

The lemmas `…_issues` say what a flow answers (`Answers`): the method of the access token, and the SSO
provider of the row behind the refresh token.
-/

set_option autoImplicit false
set_option relaxedAutoImplicit false

namespace RallyApi.Identity

open Concurrency Platform Store

variable {α : Type} {number : ℕ}

/-! ### Calm steps -/

/-- A quiet step that does not turn the clock back. -/
def Calm (db : Db) (label : SessionStep) (after : Db) : Prop := Quiet db label after ∧ db.now ≤ after.now

theorem calm_refl (db : Db) : Calm db .other db := ⟨quiet_refl db, le_refl _⟩

/-- A quiet part of a flow that leaves the clock alone. -/
theorem calm_of_leaves {call : AuthCall α} (hquiet : call.Only Quiet)
    (hclock : call.Only (Leaves .clock)) : call.Only Calm :=
  (hquiet.and hclock).mono fun _ _ _ hboth ↦ ⟨hboth.1, ge_of_eq hboth.2⟩

theorem tick_calm (milliseconds : ℕ) : (tick milliseconds).Only Calm := by
  unfold tick statement
  refine Call.only_attempt _ _ (fun db _ _ ↦ calm_refl db) fun db value after hrun ↦ ?_
  cases hrun
  exact ⟨⟨rfl, .inl ⟨rfl, rfl⟩⟩, Int.le_add_of_nonneg_right (Int.natCast_nonneg milliseconds)⟩

/-! ### Rows up to revocation -/

/-- The session as it was when it was live. -/
def AuthSession.unrevoked (session : AuthSession) : AuthSession := { session with isRevoked := false }

@[simp]
theorem map_unrevoked_revoke (condition : AuthSession → Bool) (sessions : List AuthSession) :
    (updateWhere condition (fun session ↦ { session with isRevoked := true }) sessions).map
      AuthSession.unrevoked = sessions.map AuthSession.unrevoked :=
  map_updateWhere fun _ ↦ rfl

/-- The session is a row of the table, revoked or not. -/
def Recorded (session : AuthSession) (db : Db) : Prop :=
  session.unrevoked ∈ db.authSessions.map AuthSession.unrevoked

theorem recorded_of_mem {session : AuthSession} {db : Db} (hmem : session ∈ db.authSessions) :
    Recorded session db := List.mem_map_of_mem hmem

/-- Rows of a table with distinct token hashes: one hash, one session. -/
theorem Recorded.eq_of_hash {first second : AuthSession} {db : Db}
    (hnodup : (db.authSessions.map AuthSession.tokenHash).Nodup) (hfirst : Recorded first db)
    (hsecond : Recorded second db) (hhash : first.tokenHash = second.tokenHash) :
    first.unrevoked = second.unrevoked := by
  obtain ⟨row, hrow, hsame⟩ := List.mem_map.mp hfirst
  obtain ⟨other, hother, hequal⟩ := List.mem_map.mp hsecond
  have hrowHash : row.unrevoked.tokenHash = first.unrevoked.tokenHash := by rw [hsame]
  have hotherHash : other.unrevoked.tokenHash = second.unrevoked.tokenHash := by rw [hequal]
  have htoken : row.tokenHash = other.tokenHash := hrowHash.trans (hhash.trans hotherHash.symm)
  rw [← hsame, ← hequal, List.inj_on_of_nodup_map hnodup hrow hother htoken]

/-- The session a step writes. -/
def SessionStep.wrote : SessionStep → Option AuthSession
  | .openSession session => some session
  | .rotate _ successor => some successor
  | _ => none

/-! ### The protocol -/

/-- The lifetime in seconds of the session that a request opens or rotates to. -/
def AuthRequest.lifetime (env : Env) : AuthRequest → ℕ
  | .login _ _ _ rememberMe =>
    if rememberMe then refreshTtlSeconds env.config.jwtRefreshExpiry else 24 * 3600
  | _ => refreshTtlSeconds env.config.jwtRefreshExpiry

/-- The expiry of the session is so many seconds, on the clock of the process, after a time at which it was
not yet created. -/
def AuthSession.LivesFor (env : Env) (seconds : ℕ) (session : AuthSession) : Prop :=
  ∃ asked ≤ session.createdAt, session.expiresAt = env.timeZone.addSeconds asked seconds

/-- The invariant: a token hash belongs to one row; rows have been written by steps of the history; and the
steps that write one keep to the lifetime of their request, in a family of the call or of the presented
session. -/
structure Issued (env : Env) (requests : List AuthRequest) (world : World Db SessionStep) : Prop where
  hashes : (world.db.authSessions.map AuthSession.tokenHash).Nodup
  drawn : DrawnOnce world
  rows : ∀ row ∈ world.db.authSessions, ∃ entry ∈ world.log, ∃ session,
    entry.2.wrote = some session ∧ session.unrevoked = row.unrevoked
  opened : ∀ number session, (number, .openSession session) ∈ world.log →
    (number, .drawUuid session.familyId) ∈ world.log ∧
      ∀ request, requests[number]? = some request → session.LivesFor env (request.lifetime env)
  rotated : ∀ number presented successor, (number, .rotate presented successor) ∈ world.log →
    successor.familyId = presented.familyId ∧
      successor.LivesFor env (refreshTtlSeconds env.config.jwtRefreshExpiry)

/-- The guarantee: the clock is not turned back, and no session is taken away or changed other than by
revoking it. -/
structure KeepsIssued (world : World Db SessionStep) (after : Db) : Prop where
  now : world.db.now ≤ after.now
  kept : ∀ session, Recorded session world.db → Recorded session after

/-- The protocol of the flows that issue sessions, in a run with these requests. -/
def issuance (env : Env) (requests : List AuthRequest) : Protocol Db SessionStep where
  permits := anyStep
  invariant := Issued env requests
  guarantee _ world _ after := KeepsIssued world after

section Keeps

variable {env : Env} {requests : List AuthRequest} {world : World Db SessionStep} {label : SessionStep}
  {after : Db}

/-- Assumes: a step of the guarantee that leaves token hashes distinct, writes what its label says, and
keeps to the rules for the session it writes. It keeps the protocol. -/
theorem KeepsIssued.keeps (hinv : Issued env requests world) (hkeeps : KeepsIssued world after)
    (hdrawn : DrawnOnce (world.after number label after))
    (hhashes : (after.authSessions.map AuthSession.tokenHash).Nodup)
    (hrows : ∀ row ∈ after.authSessions, Recorded row world.db ∨
      ∃ session, label.wrote = some session ∧ session.unrevoked = row.unrevoked)
    (hopened : ∀ session, label = .openSession session →
      (number, .drawUuid session.familyId) ∈ world.log ∧
        ∀ request, requests[number]? = some request → session.LivesFor env (request.lifetime env))
    (hrotated : ∀ presented successor, label = .rotate presented successor →
      successor.familyId = presented.familyId ∧
        successor.LivesFor env (refreshTtlSeconds env.config.jwtRefreshExpiry)) :
    (issuance env requests).Keeps number world label after := by
  refine ⟨hkeeps, hhashes, hdrawn, fun row hrow ↦ ?_, fun other session hentry ↦ ?_,
    fun other presented successor hentry ↦ ?_⟩
  · rcases hrows row hrow with hold | ⟨session, hwrote, hsame⟩
    · obtain ⟨same, hmem, hequal⟩ := List.mem_map.mp hold
      obtain ⟨entry, hentry, session, hwrote, hsession⟩ := hinv.rows same hmem
      exact ⟨entry, List.mem_cons_of_mem _ hentry, session, hwrote, hsession.trans hequal⟩
    · exact ⟨_, List.mem_cons_self, session, hwrote, hsame⟩
  · rcases List.mem_cons.mp hentry with hnew | hold
    · obtain ⟨rfl, rfl⟩ := Prod.mk.inj hnew
      exact ⟨List.mem_cons_of_mem _ (hopened session rfl).1, (hopened session rfl).2⟩
    · exact ⟨List.mem_cons_of_mem _ (hinv.opened other session hold).1,
        (hinv.opened other session hold).2⟩
  · rcases List.mem_cons.mp hentry with hnew | hold
    · obtain ⟨rfl, rfl⟩ := Prod.mk.inj hnew
      exact hrotated presented successor rfl
    · exact hinv.rotated other presented successor hold

/-- A calm step keeps the protocol. -/
theorem Calm.keeps (hinv : Issued env requests world) (hcalm : Calm world.db label after) :
    (issuance env requests).Keeps number world label after := by
  obtain ⟨hquiet, hnow⟩ := hcalm
  have hkept : ∀ session, Recorded session world.db → Recorded session after := by
    intro session hrecorded
    rw [Recorded, hquiet.1]
    exact hrecorded
  refine KeepsIssued.keeps hinv ⟨hnow, hkept⟩ (hinv.drawn.quiet hquiet) ?_ ?_ ?_ ?_
  · rw [hquiet.1]
    exact hinv.hashes
  · rw [hquiet.1]
    exact fun row hrow ↦ .inl (recorded_of_mem hrow)
  · exact fun session hlabel ↦ absurd hlabel.symm (hquiet.ne_label (by simp) (by simp))
  · exact fun _ _ hlabel ↦ absurd hlabel.symm (hquiet.ne_label (by simp) (by simp))

/-- The table after some of its sessions have been revoked. -/
def revokedWhere (condition : AuthSession → Bool) (db : Db) : List AuthSession :=
  updateWhere condition (fun session ↦ { session with isRevoked := true }) db.authSessions

/-- A step that revokes sessions and writes none keeps the protocol. -/
theorem revoke_keepsIssued {condition : AuthSession → Bool} (hinv : Issued env requests world)
    (hdraws : ∀ id, label ≠ .drawUuid id) (hwrote : label.wrote = none)
    (hnext : after.nextUuid = world.db.nextUuid) (hnow : after.now = world.db.now)
    (hsessions : after.authSessions = revokedWhere condition world.db) :
    (issuance env requests).Keeps number world label after := by
  have hsame : after.authSessions.map AuthSession.unrevoked =
      world.db.authSessions.map AuthSession.unrevoked := by
    rw [hsessions, revokedWhere, map_unrevoked_revoke]
  refine KeepsIssued.keeps hinv ⟨ge_of_eq hnow, fun session hrecorded ↦ ?_⟩
    (hinv.drawn.write hdraws hnext) ?_ (fun row hrow ↦ .inl ?_) ?_ ?_
  · rw [Recorded, hsame]
    exact hrecorded
  · have hhashes : (revokedWhere condition world.db).map AuthSession.tokenHash =
        world.db.authSessions.map AuthSession.tokenHash := map_updateWhere fun _ ↦ rfl
    rw [hsessions, hhashes]
    exact hinv.hashes
  · rw [Recorded, ← hsame]
    exact List.mem_map_of_mem hrow
  · rintro session rfl
    cases hwrote
  · rintro presented successor rfl
    cases hwrote

/-- A step that inserts a session, perhaps after revoking others, keeps the protocol and records the
session. Assumes: it keeps to the rules for the session it writes. -/
theorem insert_keepsIssued {condition : AuthSession → Bool} {session : AuthSession}
    (hinv : Issued env requests world) (hdraws : ∀ id, label ≠ .drawUuid id)
    (hwrote : label.wrote = some session) (hnext : after.nextUuid = world.db.nextUuid)
    (hnow : after.now = world.db.now)
    (hinsert : insertSession session (revokedWhere condition world.db) = .ok after.authSessions)
    (hopened : ∀ session, label = .openSession session →
      (number, .drawUuid session.familyId) ∈ world.log ∧
        ∀ request, requests[number]? = some request → session.LivesFor env (request.lifetime env))
    (hrotated : ∀ presented successor, label = .rotate presented successor →
      successor.familyId = presented.familyId ∧
        successor.LivesFor env (refreshTtlSeconds env.config.jwtRefreshExpiry)) :
    (issuance env requests).Keeps number world label after ∧ Recorded session after := by
  obtain ⟨hsessions, -⟩ := insertSession_ok hinsert
  have hsame : after.authSessions.map AuthSession.unrevoked =
      world.db.authSessions.map AuthSession.unrevoked ++ [session.unrevoked] := by
    rw [hsessions, List.map_append, revokedWhere, map_unrevoked_revoke, List.map_singleton]
  refine ⟨KeepsIssued.keeps hinv ⟨ge_of_eq hnow, fun other hrecorded ↦ ?_⟩
    (hinv.drawn.write hdraws hnext) ?_ (fun row hrow ↦ ?_) hopened hrotated, ?_⟩
  · rw [Recorded, hsame]
    exact List.mem_append_left _ hrecorded
  · rw [hsessions]
    refine nodup_map_append_singleton ?_ (insertSession_hash hinsert)
    have hhashes : (revokedWhere condition world.db).map AuthSession.tokenHash =
        world.db.authSessions.map AuthSession.tokenHash := map_updateWhere fun _ ↦ rfl
    rw [hhashes]
    exact hinv.hashes
  · have hmem : row.unrevoked ∈ world.db.authSessions.map AuthSession.unrevoked ++ [session.unrevoked] :=
      hsame ▸ List.mem_map_of_mem hrow
    rcases List.mem_append.mp hmem with hold | hnew
    · exact .inl hold
    · exact .inr ⟨session, hwrote, (List.mem_singleton.mp hnew).symm⟩
  · rw [Recorded, hsame]
    exact List.mem_append_right _ (List.mem_singleton.mpr rfl)

end Keeps

/-! ### What a flow knows -/

variable {env : Env} {requests : List AuthRequest} {fact : World Db SessionStep → Prop}

/-- A calm part of a flow keeps what lasts. -/
theorem calm_meets {call : AuthCall α} (hfact : (issuance env requests).Persistent fact)
    (hcall : call.Only Calm) : (issuance env requests).Meets number call fact fun _ ↦ fact :=
  Protocol.meets_of_only hcall hfact.stable fun world label after hinv hholds _ hcalm ↦
    have hkeeps := Calm.keeps hinv hcalm
    ⟨hkeeps, hfact number world label after hinv hholds hkeeps.guarantee⟩

/-- A transaction that rolls back is a calm step. -/
theorem issuance_transaction {label : Db → SessionStep} {run : Db → Except Failure (α × Db)}
    {post : α → World Db SessionStep → Prop} (hfact : (issuance env requests).Persistent fact)
    (hcommit : ∀ world value after, Issued env requests world → fact world →
      run world.db = .ok (value, after) →
      (issuance env requests).Keeps number world (label world.db) after ∧
        post value (world.after number (label world.db) after)) :
    (issuance env requests).Meets number (transaction label run) fact post := by
  refine Protocol.meets_attempt hfact.stable (fun world failure hinv _ _ hrun ↦ ?_)
    fun world value after hinv hholds _ hrun ↦ ?_
  · simp only [hrun]
    exact Calm.keeps hinv (calm_refl world.db)
  · simp only [hrun]
    exact hcommit world value after hinv hholds hrun

/-- `Promise.all` of a calm operation and another one. -/
theorem bothInOrder_meets {calm writer : AuthCall Unit} {post : World Db SessionStep → Prop}
    (hfact : (issuance env requests).Persistent fact) (hpost : (issuance env requests).Persistent post)
    (hcalm : calm.Only Calm) (hwriter : (issuance env requests).Meets number writer fact fun _ ↦ post)
    (calmFirst : Bool) :
    (issuance env requests).Meets number (bothInOrder calmFirst calm writer) fact fun _ ↦ post := by
  cases calmFirst with
  | true => exact (calm_meets hfact hcalm).bind fun _ _ ↦ hwriter
  | false => exact hwriter.bind fun _ _ ↦ calm_meets hpost hcalm

/-- Call `number` has drawn the identifier. -/
def HasDrawn (number : ℕ) (id : Uuid) (world : World Db SessionStep) : Prop :=
  (number, .drawUuid id) ∈ world.log

/-- The expiry has been computed as so many seconds ahead. -/
def ExpiresWithin (env : Env) (seconds : ℕ) (expiresAt : Date) (world : World Db SessionStep) : Prop :=
  ∃ asked ≤ world.db.now, expiresAt = env.timeZone.addSeconds asked seconds

/-- The access token has this method, and the row behind the refresh token this SSO provider. -/
def Bears (env : Env) (answer : LoginResult) (method : AuthMethod) (ssoProvider : Option String)
    (world : World Db SessionStep) : Prop :=
  answer.accessToken.authMethod = method ∧ ∃ session, Recorded session world.db ∧
    session.tokenHash = env.hashToken answer.refreshToken ∧ session.ssoProvider = ssoProvider

theorem hasDrawn_persistent (id : Uuid) : (issuance env requests).Persistent (HasDrawn number id) :=
  fun _ _ _ _ _ hdrawn _ ↦ List.mem_cons_of_mem _ hdrawn

theorem expiresWithin_persistent (seconds : ℕ) (expiresAt : Date) :
    (issuance env requests).Persistent (ExpiresWithin env seconds expiresAt) :=
  fun _ _ _ _ _ ⟨asked, hasked, hexpires⟩ hkeeps ↦ ⟨asked, le_trans hasked hkeeps.now, hexpires⟩

theorem bears_persistent (answer : LoginResult) (method : AuthMethod) (ssoProvider : Option String) :
    (issuance env requests).Persistent (Bears env answer method ssoProvider) :=
  fun _ _ _ _ _ ⟨hmethod, session, hrecorded, hsession⟩ hkeeps ↦
    ⟨hmethod, session, hkeeps.kept session hrecorded, hsession⟩

/-! ### Issuing a session -/

theorem true_persistent : (issuance env requests).Persistent fun _ ↦ True := fun _ _ _ _ _ _ _ ↦ trivial

/-- The call has drawn the family of a fresh refresh token. -/
theorem generateRefreshToken_draws :
    (issuance env requests).Meets number (generateRefreshToken env) (fun _ ↦ True)
      fun token ↦ HasDrawn number token.familyId := by
  refine (calm_meets true_persistent (calm_of_leaves (by simp) (by simp))).bind fun refreshToken _ ↦ ?_
  have hdraw : (issuance env requests).Meets number uuidv7 (fun _ ↦ True) (HasDrawn number) := by
    refine Protocol.meets_atomically Protocol.stable_true fun world hinv _ _ ↦ ?_
    exact ⟨Calm.keeps hinv ⟨⟨rfl, .inr ⟨rfl, rfl⟩⟩, le_refl _⟩, List.mem_cons_self⟩
  exact hdraw.bind fun familyId _ ↦ Protocol.meets_pure fun _ _ hdrawn ↦ hdrawn

/-- The hash of a fresh refresh token is the one that is stored. -/
theorem generateRefreshToken_hash {token : RefreshToken}
    (hreturns : (generateRefreshToken env).Returns token) :
    token.tokenHash = env.hashToken token.refreshToken := by
  obtain ⟨refreshToken, _, hrest⟩ := hreturns.of_bind
  obtain ⟨familyId, _, hrest⟩ := hrest.of_bind
  obtain rfl := hrest
  rfl

/-- A date so many seconds ahead. -/
theorem expiryAfter_within (hfact : (issuance env requests).Persistent fact) (seconds : ℕ) :
    (issuance env requests).Meets number (expiryAfter env seconds) fact
      fun expiresAt world ↦ fact world ∧ ExpiresWithin env seconds expiresAt world := by
  have hclock : (issuance env requests).Meets number currentTime fact
      fun now world ↦ fact world ∧ now ≤ world.db.now := by
    refine Protocol.meets_query hfact.stable fun world hinv hholds _ ↦ ?_
    have hkeeps : (issuance env requests).Keeps number world .other world.db :=
      Calm.keeps hinv (calm_refl world.db)
    exact ⟨hkeeps, hfact number world _ _ hinv hholds hkeeps.guarantee, le_refl _⟩
  exact hclock.bind fun now _ ↦
    Protocol.meets_pure fun _ _ hnow ↦ ⟨hnow.1, now, hnow.2, rfl⟩

/-- The access token is signed with the method it is asked for. -/
theorem signAccessToken_method {user : User} {sessionId tenantId : Uuid} {permissions : List String}
    {authMethod : AuthMethod} {signed : JwtPayload × ℕ}
    (hreturns : (signAccessToken env user sessionId permissions tenantId authMethod).Returns signed) :
    signed.1.authMethod = authMethod := by
  obtain ⟨jti, _, hrest⟩ := hreturns.of_bind
  obtain ⟨expiresIn, _, hrest⟩ := hrest.of_bind
  obtain ⟨now, _, hrest⟩ := hrest.of_bind
  obtain rfl := hrest
  rfl

/-- Nothing is revoked before the session is inserted. -/
theorem revokedWhere_none (db : Db) : revokedWhere (fun _ ↦ false) db = db.authSessions :=
  updateWhere_of_none fun _ _ ↦ rfl

/-- A session with these columns has been inserted at some time. -/
def Inserted (session : AuthSession) (world : World Db SessionStep) : Prop :=
  ∃ now, Recorded { session with createdAt := now } world.db

theorem inserted_persistent (session : AuthSession) :
    (issuance env requests).Persistent (Inserted session) :=
  fun _ _ _ _ _ ⟨now, hrecorded⟩ hkeeps ↦ ⟨now, hkeeps.kept _ hrecorded⟩

/-- What the transactions that open a family know: the call has drawn it, and the session expires within
the lifetime of the request. -/
def MayOpen (env : Env) (number : ℕ) (request : AuthRequest) (session : AuthSession)
    (world : World Db SessionStep) : Prop :=
  HasDrawn number session.familyId world ∧
    ExpiresWithin env (request.lifetime env) session.expiresAt world

theorem mayOpen_persistent (request : AuthRequest) (session : AuthSession) :
    (issuance env requests).Persistent (MayOpen env number request session) :=
  (hasDrawn_persistent _).and (expiresWithin_persistent _ _)

variable {request : AuthRequest}

/-- Inserting a session that opens a family. -/
theorem open_keepsIssued {condition : AuthSession → Bool} {session : AuthSession}
    {world : World Db SessionStep} (after : Db) (hrequest : requests[number]? = some request)
    (hinv : Issued env requests world) (hmay : MayOpen env number request session world)
    (hnext : after.nextUuid = world.db.nextUuid) (hnow : after.now = world.db.now)
    (hinsert : insertSession { session with createdAt := world.db.now } (revokedWhere condition world.db) =
      .ok after.authSessions) :
    (issuance env requests).Keeps number world
        (.openSession { session with createdAt := world.db.now }) after ∧
      Recorded { session with createdAt := world.db.now } after := by
  refine insert_keepsIssued hinv (by simp) rfl hnext hnow hinsert (fun opened hopened ↦ ?_) (by simp)
  obtain rfl := SessionStep.openSession.inj hopened
  refine ⟨hmay.1, fun other hother ↦ ?_⟩
  obtain rfl := Option.some.inj (hrequest.symm.trans hother)
  exact hmay.2

theorem createSession_records (hrequest : requests[number]? = some request) (session : AuthSession) :
    (issuance env requests).Meets number (createSession session) (MayOpen env number request session)
      fun _ ↦ Inserted session := by
  refine issuance_transaction (mayOpen_persistent request session)
    fun world value after hinv hmay hrun ↦ ?_
  obtain ⟨sessions, hinsert, hrest⟩ := bind_eq_ok.mp hrun
  cases hrest
  rw [← revokedWhere_none] at hinsert
  obtain ⟨hkeeps, hrecorded⟩ := open_keepsIssued
    (updateLastLogin session.userId { world.db with authSessions := sessions }) hrequest hinv hmay rfl rfl
    hinsert
  exact ⟨hkeeps, _, hrecorded⟩

theorem replaceSession_records (hrequest : requests[number]? = some request) (oldId : Uuid)
    (session : AuthSession) :
    (issuance env requests).Meets number (replaceSession oldId session)
      (MayOpen env number request session)
      fun _ ↦ Inserted session := by
  refine issuance_transaction (mayOpen_persistent request session)
    fun world value after hinv hmay hrun ↦ ?_
  obtain ⟨sessions, hinsert, hrest⟩ := bind_eq_ok.mp hrun
  cases hrest
  obtain ⟨hkeeps, hrecorded⟩ := open_keepsIssued { world.db with authSessions := sessions } hrequest
    hinv hmay rfl rfl hinsert
  exact ⟨hkeeps, _, hrecorded⟩

/-- `issueSession` answers with the method and the provider it is given. -/
theorem issueSession_bears (hrequest : requests[number]? = some request) (user : User)
    (sessionId : Uuid) (permissions : List String) (tenantId : Uuid) (authMethod : AuthMethod)
    (ipAddress ssoProvider : Option String) :
    (issuance env requests).Meets number
      (issueSession env user sessionId permissions tenantId authMethod (request.lifetime env) ipAddress
        ssoProvider) (fun _ ↦ True) fun answer ↦ Bears env answer authMethod ssoProvider := by
  refine (calm_meets true_persistent (calm_of_leaves (by simp) (by simp))).bind fun signed hsigned ↦ ?_
  refine generateRefreshToken_draws.bind fun token htoken ↦ ?_
  refine (expiryAfter_within (hasDrawn_persistent token.familyId) _).bind fun expiresAt _ ↦ ?_
  refine (createSession_records hrequest _).bind fun _ _ ↦ Protocol.meets_pure fun _ _ hrecorded ↦ ?_
  obtain ⟨now, hrecorded⟩ := hrecorded
  exact ⟨signAccessToken_method hsigned, _, hrecorded, generateRefreshToken_hash htoken, rfl⟩

/-! ### What a request answers -/

/-- How a session was established, as `refresh` tells from its row. -/
def AuthSession.method (session : AuthSession) : AuthMethod :=
  if session.ssoProvider.isSome then .sso else .password

/-- The method of the access token and the SSO provider of the new row that a request answers with. -/
def Answers (env : Env) (world : World Db SessionStep) (answer : LoginResult) : AuthRequest → Prop
  | .login .. | .signup .. => Bears env answer .password none world
  | .ssoLogin .. => Bears env answer .sso (some "entra") world
  | .switchTenant payload .. => Bears env answer payload.authMethod none world
  | .refresh rawRefreshToken _ => ∃ presented, Recorded presented world.db ∧
      presented.tokenHash = env.hashToken rawRefreshToken ∧
      Bears env answer presented.method presented.ssoProvider world
  | .logout .. | .logoutAll .. | .resetPassword .. | .tick _ => True

theorem answers_persistent (answer : LoginResult) (request : AuthRequest) :
    (issuance env requests).Persistent fun world ↦ Answers env world answer request := by
  cases request with
  | login | signup | ssoLogin | switchTenant => exact bears_persistent _ _ _
  | refresh rawRefreshToken ipAddress =>
    intro number world label after hinv hanswers hkeeps
    obtain ⟨presented, hrecorded, hhash, hbears⟩ := hanswers
    exact ⟨presented, hkeeps.kept presented hrecorded, hhash,
      bears_persistent _ _ _ number world label after hinv hbears hkeeps⟩
  | logout | logoutAll | resetPassword | tick => exact Protocol.persistent_const True

/-- A calm part of a flow of which nothing is to be known. -/
theorem calm_true {call : AuthCall α} (hquiet : call.Only Quiet) (hclock : call.Only (Leaves .clock)) :
    (issuance env requests).Meets number call (fun _ ↦ True) fun _ _ ↦ True :=
  calm_meets true_persistent (calm_of_leaves hquiet hclock)

theorem login_answers {email password : String} {ipAddress : Option String} {rememberMe : Bool}
    (hrequest : requests[number]? = some (.login email password ipAddress rememberMe)) :
    (issuance env requests).Meets number (login env email password ipAddress rememberMe) (fun _ ↦ True)
      fun answer world ↦ Bears env answer .password none world := by
  refine (calm_true (by simp [findByEmail]) (by simp [findByEmail])).bind fun found _ ↦ ?_
  refine (calm_true (Call.only_require _ _) (Call.only_require _ _)).bind fun user _ ↦ ?_
  refine (calm_true (Call.only_require _ _) (Call.only_require _ _)).bind fun passwordHash _ ↦ ?_
  refine (calm_true (Call.only_ensure _ _) (Call.only_ensure _ _)).bind fun _ _ ↦ ?_
  refine (calm_true (Call.only_ensure _ _) (Call.only_ensure _ _)).bind fun _ _ ↦ ?_
  refine (calm_true (Call.only_ensure _ _) (Call.only_ensure _ _)).bind fun _ _ ↦ ?_
  refine (calm_true (by simp) (by simp)).bind fun sessionId _ ↦ ?_
  refine (calm_true (by simp [getMemberships, findByUserId]) (by simp)).bind fun memberships _ ↦ ?_
  refine (calm_true (Call.only_require _ _) (Call.only_require _ _)).bind fun active _ ↦ ?_
  refine (calm_true (by simp) (by simp)).bind fun permissions _ ↦ ?_
  refine (issueSession_bears hrequest ..).bind fun issued _ ↦ ?_
  refine (calm_meets (bears_persistent _ _ _) (calm_of_leaves (by simp) (by simp))).bind fun _ _ ↦ ?_
  exact Protocol.meets_pure fun _ _ hbears ↦ hbears

theorem signup_answers {input : SignupInput} {ipAddress : Option String}
    (hrequest : requests[number]? = some (.signup input ipAddress)) :
    (issuance env requests).Meets number (signup env input ipAddress) (fun _ ↦ True)
      fun answer world ↦ Bears env answer .password none world := by
  refine (calm_true (by simp [findByEmail]) (by simp [findByEmail])).bind fun existing _ ↦ ?_
  refine (calm_true (Call.only_ensure _ _) (Call.only_ensure _ _)).bind fun _ _ ↦ ?_
  refine (calm_true (by simp) (by simp)).bind fun resolved _ ↦ ?_
  refine (calm_true (by simp) (by simp)).bind fun userId _ ↦ ?_
  refine (calm_true (by simp) (by simp)).bind fun user _ ↦ ?_
  refine (calm_true (by simp) (by simp)).bind fun _ _ ↦ ?_
  refine (calm_true (by simp) (by simp)).bind fun _ _ ↦ ?_
  refine (calm_true (by simp) (by simp)).bind fun sessionId _ ↦ ?_
  refine (calm_true (by simp [getMemberships, findByUserId]) (by simp)).bind fun memberships _ ↦ ?_
  refine (calm_true (by simp) (by simp)).bind fun permissions _ ↦ ?_
  refine (issueSession_bears hrequest ..).bind fun issued _ ↦ ?_
  refine (calm_meets (bears_persistent _ _ _) (calm_of_leaves (by simp) (by simp))).bind fun _ _ ↦ ?_
  exact Protocol.meets_pure fun _ _ hbears ↦ hbears

theorem ssoLogin_answers {idToken : String} {ipAddress : Option String}
    (hrequest : requests[number]? = some (.ssoLogin idToken ipAddress)) :
    (issuance env requests).Meets number (ssoLogin env idToken ipAddress) (fun _ ↦ True)
      fun answer world ↦ Bears env answer .sso (some "entra") world := by
  refine (calm_true (Call.only_ensure _ _) (Call.only_ensure _ _)).bind fun _ _ ↦ ?_
  refine (calm_true (Call.only_require _ _) (Call.only_require _ _)).bind fun claims _ ↦ ?_
  refine (calm_true (Call.only_require _ _) (Call.only_require _ _)).bind fun oid _ ↦ ?_
  refine (calm_true (Call.only_require _ _) (Call.only_require _ _)).bind fun email _ ↦ ?_
  refine (calm_true (by simp) (by simp)).bind fun resolved _ ↦ ?_
  refine (calm_true (by simp) (by simp)).bind fun _ _ ↦ ?_
  refine (calm_true (by simp) (by simp)).bind fun sessionId _ ↦ ?_
  refine (calm_true (by simp) (by simp)).bind fun permissions _ ↦ ?_
  refine (issueSession_bears hrequest ..).bind fun issued _ ↦ ?_
  refine (calm_meets (bears_persistent _ _ _) (calm_of_leaves (by simp [getMemberships, findByUserId])
    (by simp))).bind fun memberships _ ↦ ?_
  refine (calm_meets (bears_persistent _ _ _) (calm_of_leaves (by simp) (by simp))).bind fun _ _ ↦ ?_
  exact Protocol.meets_pure fun _ _ hbears ↦ hbears

theorem switchTenant_answers {payload : JwtPayload} {targetTenantId : Uuid} {ipAddress : Option String}
    {denylistFirst : Bool} (hrequest : requests[number]? =
      some (.switchTenant payload targetTenantId ipAddress denylistFirst)) :
    (issuance env requests).Meets number
      (switchTenant env payload targetTenantId ipAddress denylistFirst) (fun _ ↦ True)
      fun answer world ↦ Bears env answer payload.authMethod none world := by
  refine (calm_true (by simp [findByUserAndTenant]) (by simp [findByUserAndTenant])).bind fun found _ ↦ ?_
  refine (calm_true (Call.only_require _ _) (Call.only_require _ _)).bind fun keycard _ ↦ ?_
  refine (calm_true (Call.only_ensure _ _) (Call.only_ensure _ _)).bind fun _ _ ↦ ?_
  refine (calm_true (by simp [findUserById]) (by simp [findUserById])).bind fun found _ ↦ ?_
  refine (calm_true (Call.only_require _ _) (Call.only_require _ _)).bind fun user _ ↦ ?_
  refine (calm_true (Call.only_ensure _ _) (Call.only_ensure _ _)).bind fun _ _ ↦ ?_
  refine (calm_true (by simp) (by simp)).bind fun permissions _ ↦ ?_
  refine (calm_true (by simp) (by simp)).bind fun newSessionId _ ↦ ?_
  refine (calm_true (by simp) (by simp)).bind fun signed hsigned ↦ ?_
  refine generateRefreshToken_draws.bind fun token htoken ↦ ?_
  refine (expiryAfter_within (hasDrawn_persistent token.familyId) _).bind fun expiresAt _ ↦ ?_
  refine (bothInOrder_meets (mayOpen_persistent _ _) (inserted_persistent _)
    (calm_of_leaves (by simp) (by simp)) (replaceSession_records hrequest payload.sessionId _) _).bind
    fun _ _ ↦ ?_
  refine Protocol.Meets.bind ?_ fun _ _ ↦ Protocol.meets_pure fun _ _ hbears ↦ hbears
  refine (calm_meets (bears_persistent _ _ _) (calm_of_leaves (by simp) (by simp))).strengthen ?_
  intro world _ hinserted
  obtain ⟨now, hrecorded⟩ := hinserted
  exact ⟨signAccessToken_method hsigned, _, hrecorded, generateRefreshToken_hash htoken, rfl⟩

/-! ### Refresh and revocation -/

/-- The row that `refresh` presents. -/
theorem findByTokenHash_presents (hash : TokenHash) :
    (issuance env requests).Meets number (findByTokenHash hash) (fun _ ↦ True)
      fun found world ↦ ∀ presented, found = some presented →
        Recorded presented world.db ∧ presented.tokenHash = hash := by
  refine Protocol.meets_query Protocol.stable_true fun world hinv _ _ ↦ ?_
  refine ⟨Calm.keeps hinv (calm_refl world.db), fun presented hfind ↦ ?_⟩
  exact ⟨recorded_of_mem (List.mem_of_find?_eq_some hfind), by simpa using List.find?_some hfind⟩

theorem revokeById_issues (id : Uuid) :
    (issuance env requests).Meets number (revokeById id) (fun _ ↦ True) fun _ _ ↦ True := by
  refine Protocol.meets_atomically Protocol.stable_true fun world hinv _ _ ↦ ?_
  exact ⟨revoke_keepsIssued hinv (by simp) rfl rfl rfl rfl, trivial⟩

theorem bulkRevoke_issues (target : RevokeTarget) :
    (issuance env requests).Meets number (snapshotSessions target >>= commitRevoke target)
      (fun _ ↦ True) fun _ _ ↦ True := by
  refine (calm_true (by simp [snapshotSessions]) (by simp [snapshotSessions])).bind fun snapshot _ ↦ ?_
  refine Protocol.meets_atomically Protocol.stable_true fun world hinv _ _ ↦ ?_
  exact ⟨revoke_keepsIssued hinv (by simp [revokeLabel]) rfl rfl rfl rfl, trivial⟩

theorem rotateSession_records {presented successor : AuthSession}
    (hfamily : successor.familyId = presented.familyId) :
    (issuance env requests).Meets number (rotateSession presented successor)
      (ExpiresWithin env (refreshTtlSeconds env.config.jwtRefreshExpiry) successor.expiresAt)
      fun _ ↦ Inserted successor := by
  refine issuance_transaction (expiresWithin_persistent _ _) fun world value after hinv hexpires hrun ↦ ?_
  obtain ⟨sessions, hinsert, hrest⟩ := bind_eq_ok.mp hrun
  cases hrest
  have hboth : (issuance env requests).Keeps number world
      (.rotate presented { successor with createdAt := world.db.now })
      { world.db with authSessions := sessions } ∧
      Recorded { successor with createdAt := world.db.now } { world.db with authSessions := sessions } := by
    refine insert_keepsIssued hinv (by simp) rfl rfl rfl hinsert (by simp) fun first second hlabel ↦ ?_
    obtain ⟨rfl, rfl⟩ := SessionStep.rotate.inj hlabel
    exact ⟨hfamily, hexpires⟩
  exact ⟨hboth.1, _, hboth.2⟩

theorem refresh_answers (rawRefreshToken : RawToken) (ipAddress : Option String) :
    (issuance env requests).Meets number (refresh env rawRefreshToken ipAddress) (fun _ ↦ True)
      fun answer world ↦ Answers env world answer (.refresh rawRefreshToken ipAddress) := by
  refine (findByTokenHash_presents _).bind fun found _ ↦ ?_
  refine Protocol.meets_require.bind fun presented _ ↦ ?_
  have hknown : (issuance env requests).Persistent fun world ↦ Recorded presented world.db ∧
      presented.tokenHash = env.hashToken rawRefreshToken :=
    fun _ _ _ _ _ hholds hkeeps ↦ ⟨hkeeps.kept presented hholds.1, hholds.2⟩
  refine Protocol.Meets.strengthen ?_ fun world _ hfound ↦ hfound.1 presented hfound.2
  by_cases hrevoked : presented.isRevoked = true
  · rw [if_pos hrevoked]
    have hrevoke : (issuance env requests).Meets number (revokeFamily presented.familyId)
        (fun _ ↦ True) fun _ _ ↦ True := bulkRevoke_issues (.family presented.familyId)
    exact (hrevoke.strengthen fun _ _ _ ↦ trivial).bind fun _ _ ↦ trivial
  · rw [if_neg hrevoked]
    refine (calm_meets hknown (calm_of_leaves (by simp [currentTime]) (by simp [currentTime]))).bind
      fun now _ ↦ ?_
    refine (calm_meets hknown (calm_of_leaves (Call.only_ensure _ _) (Call.only_ensure _ _))).bind
      fun _ _ ↦ ?_
    refine (calm_meets hknown (calm_of_leaves (by simp [findUserById]) (by simp [findUserById]))).bind
      fun found _ ↦ ?_
    refine (calm_meets hknown (calm_of_leaves (Call.only_require _ _) (Call.only_require _ _))).bind
      fun user _ ↦ ?_
    refine (calm_meets hknown (calm_of_leaves (Call.only_ensure _ _) (Call.only_ensure _ _))).bind
      fun _ _ ↦ ?_
    refine (calm_meets hknown (calm_of_leaves (by simp) (by simp))).bind fun newSessionId _ ↦ ?_
    refine (calm_meets hknown (calm_of_leaves (by simp) (by simp))).bind fun permissions _ ↦ ?_
    refine (calm_meets hknown (calm_of_leaves (by simp) (by simp))).bind fun signed hsigned ↦ ?_
    refine (calm_meets hknown (calm_of_leaves (by simp) (by simp))).bind fun token htoken ↦ ?_
    refine (expiryAfter_within hknown _).bind fun expiresAt _ ↦ ?_
    have hrotate {successor : AuthSession} (hfamily : successor.familyId = presented.familyId) :
        (issuance env requests).Meets number (rotateSession presented successor)
          (fun world ↦ (Recorded presented world.db ∧
            presented.tokenHash = env.hashToken rawRefreshToken) ∧
            ExpiresWithin env (refreshTtlSeconds env.config.jwtRefreshExpiry) successor.expiresAt world)
          fun _ world ↦ Inserted successor world ∧ Recorded presented world.db ∧
            presented.tokenHash = env.hashToken rawRefreshToken :=
      ((rotateSession_records hfamily).frame hknown).strengthen fun _ _ hboth ↦ ⟨hboth.2, hboth.1⟩
    refine Protocol.Meets.bind (hrotate ?_) fun _ _ ↦ Protocol.meets_pure fun _ _ hboth ↦ ?_
    · rfl
    obtain ⟨⟨inserted, hrecorded⟩, hpresented, hhash⟩ := hboth
    exact ⟨presented, hpresented, hhash, signAccessToken_method hsigned, _, hrecorded,
      generateRefreshToken_hash htoken, rfl⟩

theorem resetPassword_issues (rawToken : RawToken) (newPassword : String) :
    (issuance env requests).Meets number (resetPassword env rawToken newPassword) (fun _ ↦ True)
      fun _ _ ↦ True := by
  refine (calm_true (by simp [findPasswordResetToken]) (by simp [findPasswordResetToken])).bind
    fun found _ ↦ ?_
  refine (calm_true (Call.only_require _ _) (Call.only_require _ _)).bind fun record _ ↦ ?_
  refine (calm_true (Call.only_ensure _ _) (Call.only_ensure _ _)).bind fun _ _ ↦ ?_
  refine (calm_true (by simp [currentTime]) (by simp [currentTime])).bind fun now _ ↦ ?_
  refine (calm_true (Call.only_ensure _ _) (Call.only_ensure _ _)).bind fun _ _ ↦ ?_
  refine (calm_true (by simp [findUserById]) (by simp [findUserById])).bind fun found _ ↦ ?_
  refine (calm_true (Call.only_require _ _) (Call.only_require _ _)).bind fun user _ ↦ ?_
  refine (calm_true (by simp [snapshotSessions]) (by simp [snapshotSessions])).bind fun snapshot _ ↦ ?_
  refine Protocol.meets_atomically Protocol.stable_true fun world hinv _ _ ↦ ?_
  exact ⟨revoke_keepsIssued hinv (by simp [revokeLabel]) rfl rfl rfl rfl, trivial⟩

/-! ### Every request -/

/-- Every request keeps the protocol, and answers as `Answers` says. -/
theorem serve_answers (hrequest : requests[number]? = some request) :
    (issuance env requests).Meets number (request.serve env) (Fresh number)
      fun result world ↦ ∀ answer, result = some answer → Answers env world answer request := by
  refine Protocol.Meets.strengthen ?_ fun _ _ _ ↦ trivial
  have hsome {call : AuthCall LoginResult} (hcall : (issuance env requests).Meets number call
      (fun _ ↦ True) fun answer world ↦ Answers env world answer request) :
      (issuance env requests).Meets number (some <$> call) (fun _ ↦ True)
        fun result world ↦ ∀ answer, result = some answer → Answers env world answer request :=
    hcall.bind fun answer _ ↦ Protocol.meets_pure fun _ _ hanswers _ heq ↦
      Option.some.inj heq ▸ hanswers
  have hnone {call : AuthCall Unit} (hcall : (issuance env requests).Meets number call
      (fun _ ↦ True) fun _ _ ↦ True) :
      (issuance env requests).Meets number ((fun _ ↦ none) <$> call) (fun _ ↦ True)
        fun result world ↦ ∀ answer, result = some answer → Answers env world answer request :=
    hcall.bind fun _ _ ↦ Protocol.meets_pure fun _ _ _ _ heq ↦ by cases heq
  cases request with
  | login email password ipAddress rememberMe => exact hsome (login_answers hrequest)
  | signup input ipAddress => exact hsome (signup_answers hrequest)
  | ssoLogin idToken ipAddress => exact hsome (ssoLogin_answers hrequest)
  | refresh rawRefreshToken ipAddress => exact hsome (refresh_answers rawRefreshToken ipAddress)
  | switchTenant payload targetTenantId ipAddress denylistFirst =>
    exact hsome (switchTenant_answers hrequest)
  | logout payload denylistFirst =>
    exact hnone (bothInOrder_meets true_persistent true_persistent
      (calm_of_leaves (by simp) (by simp)) (revokeById_issues _) denylistFirst)
  | logoutAll payload denylistFirst =>
    exact hnone (bothInOrder_meets true_persistent true_persistent
      (calm_of_leaves (by simp) (by simp)) (bulkRevoke_issues _) denylistFirst)
  | resetPassword rawToken newPassword => exact hnone (resetPassword_issues rawToken newPassword)
  | tick milliseconds => exact hnone (calm_meets true_persistent (tick_calm milliseconds))

/-- A run of the authentication flows. -/
abbrev IssuanceRun := Concurrency.Config Db SessionStep Failure (Option LoginResult)

/-- Assumes: a run from a store without sessions. It keeps the protocol, and every answer of a call is one
of its request. -/
theorem reachable_issuance {db : Db} (hempty : db.authSessions = []) {config : IssuanceRun}
    (hreach : ReachableBy (AuthRequest.serve env) anyStep db requests config) :
    Issued env requests config.toWorld ∧
      ∀ (number : ℕ) (request : AuthRequest) (answer : LoginResult), requests[number]? = some request →
      config.calls[number]? = some (.done (.ok (some answer))) →
      Answers env config.toWorld answer request := by
  have hinitial : Issued env requests ⟨db, []⟩ := by
    refine ⟨?_, ⟨?_, ?_⟩, ?_, ?_, ?_⟩ <;> simp [hempty]
  have hkept : (issuance env requests).Kept (fun number result world ↦ ∀ request answer,
      requests[number]? = some request → result = some answer → Answers env world answer request)
      config := by
    refine Protocol.reachableBy_kept (fun number result ↦ ?_) (fun number request hrequest ↦ ?_) hinitial
      hreach (List.prefix_refl _)
    · exact fun _ _ world label after hinv hanswers hkeeps request answer hrequest hresult ↦
        answers_persistent answer request _ world label after hinv
          (hanswers request answer hrequest hresult) hkeeps
    · refine (serve_answers hrequest).conseq (fun _ _ h ↦ h) fun result world _ hanswers other answer
        hother hresult ↦ ?_
      obtain rfl := Option.some.inj (hrequest.symm.trans hother)
      exact hanswers answer hresult
  exact ⟨hkept.invariant, fun number request answer hrequest hcall ↦
    hkept.returned hcall request answer hrequest rfl⟩

end RallyApi.Identity

import RallyApi.Concurrency.Sequential
import RallyApi.Identity.SessionFamilies

/-!
# Logout

`logout` revokes the session its access token names. An access token outlives the rotations of a
refresh, so that session may be revoked already, while its successor is live: the successor is still
accepted after the logout (`successorSurvivesLogout`).

When the token names the live session of its family, or no session of the family is live, `logout` ends
the lineage of the session for good: no refresh token of a chain that starts there is accepted by a later
refresh (`logout_endsLineage`). A chain stays in the family of its first session, a family without a live
session gets none by a login, which opens a new family, nor by a refresh, which only rotates a session it
has found live.
-/

set_option autoImplicit false
set_option relaxedAutoImplicit false

namespace RallyApi.Identity

open Concurrency Platform Store

/-! ### Lineages -/

/-- A refresh has rotated the first session into the second. -/
def Rotated (history : List SessionStep) (first second : Uuid) : Prop :=
  ∃ presented successor, .rotate presented successor ∈ history ∧ presented.id = first ∧
    successor.id = second

/-- The second session is at the end of a refresh chain that starts at the first. -/
def Descends (history : List SessionStep) : Uuid → Uuid → Prop :=
  Relation.ReflTransGen (Rotated history)

/-- No refresh token of a chain that starts at the session is accepted. -/
def LineageEnded (env : Env) (sessionId : Uuid) (view : View Db SessionStep) : Prop :=
  ∀ session ∈ view.db.authSessions, Descends view.history sessionId session.id →
    ∀ rawRefreshToken ipAddress, session.tokenHash = env.hashToken rawRefreshToken →
      ∃ failure, ((refresh env rawRefreshToken ipAddress).run view.db).1 = .error failure

/-- The calls of a session's life, and the passing of time. -/
inductive SessionRequest
  | login (email password : String) (ipAddress : Option String) (rememberMe : Bool)
  | refresh (rawRefreshToken : RawToken) (ipAddress : Option String)
  | logout (payload : JwtPayload) (denylistFirst : Bool)
  | tick (milliseconds : ℕ)

/-- The call that serves a request; the tokens it returns, if any. -/
def SessionRequest.serve (env : Env) : SessionRequest → AuthCall (Option LoginResult)
  | .login email password ipAddress rememberMe =>
    some <$> Identity.login env email password ipAddress rememberMe
  | .refresh rawRefreshToken ipAddress => some <$> Identity.refresh env rawRefreshToken ipAddress
  | .logout payload denylistFirst => (fun _ ↦ none) <$> Identity.logout payload denylistFirst
  | .tick milliseconds => (fun _ ↦ none) <$> Identity.tick milliseconds

/-! ### What a step does to the sessions -/

/-- The label is that of no rotation. -/
def SessionStep.NoRotation (label : SessionStep) : Prop :=
  ∀ presented successor, label ≠ .rotate presented successor

/-- Where a new session comes from: a family of its own, or the rotation of a live session of its
family. -/
def Originates (sessions : List AuthSession) (label : SessionStep) (session : AuthSession) : Prop :=
  (label.NoRotation ∧ session.familyId ∉ families sessions) ∨
    ∃ presented ∈ sessions, presented.isRevoked = false ∧ session.familyId = presented.familyId ∧
      label = .rotate presented session

/-- What a step of a sequential run does to the sessions: it revokes some, maybe none, and inserts at
most one. -/
inductive SessionWrite (db : Db) (label : SessionStep) (after : Db) : Prop
  | revoke (condition : AuthSession → Bool) (huuid : db.nextUuid ≤ after.nextUuid)
    (hlabel : label.NoRotation)
    (hsessions : after.authSessions = updateWhere condition
      (fun session ↦ { session with isRevoked := true }) db.authSessions)
  | insert (condition : AuthSession → Bool) (session : AuthSession)
    (huuid : db.nextUuid ≤ after.nextUuid) (hbehind : session.familyId < after.nextUuid)
    (hinsert : insertSession session (updateWhere condition
      (fun session ↦ { session with isRevoked := true }) db.authSessions) = .ok after.authSessions)
    (horigin : Originates db.authSessions label session)

/-- A quiet step revokes nothing. -/
theorem SessionWrite.of_quiet {db after : Db} {label : SessionStep} (hquiet : Quiet db label after) :
    SessionWrite db label after := by
  obtain ⟨hsessions, hlabel⟩ := hquiet
  have hnone : updateWhere (fun _ ↦ false) (fun session ↦ { session with isRevoked := true })
      db.authSessions = db.authSessions := updateWhere_of_none fun _ _ ↦ rfl
  refine .revoke (fun _ ↦ false) ?_ ?_ (hsessions.trans hnone.symm)
  · rcases hlabel with ⟨_, huuid⟩ | ⟨_, huuid⟩
    · exact Nat.le_of_eq huuid.symm
    · exact huuid ▸ Nat.le_succ _
  · rcases hlabel with ⟨rfl, _⟩ | ⟨rfl, _⟩ <;> exact fun _ _ h ↦ by cases h

/-! ### Invariants -/

/-- Sessions have distinct identifiers and token hashes; their families have been drawn; and a rotation
of the history stayed in its family. -/
structure SessionsInOrder (view : View Db SessionStep) : Prop where
  ids : (view.db.authSessions.map AuthSession.id).Nodup
  hashes : (view.db.authSessions.map AuthSession.tokenHash).Nodup
  behind : ∀ familyId ∈ families view.db.authSessions, familyId < view.db.nextUuid
  rotated : ∀ first second, Rotated view.history first second →
    ∃ presented ∈ view.db.authSessions, ∃ successor ∈ view.db.authSessions,
      presented.id = first ∧ successor.id = second ∧ successor.familyId = presented.familyId

/-- The family has sessions, and none of them is live. -/
structure FamilyEnded (familyId : Uuid) (sessions : List AuthSession) : Prop where
  known : familyId ∈ families sessions
  dead : ∀ session ∈ sessions, session.liveIn familyId = false

/-- Revoking rows makes none live. -/
theorem FamilyEnded.revoke {familyId : Uuid} {sessions : List AuthSession}
    (hended : FamilyEnded familyId sessions) (condition : AuthSession → Bool) :
    FamilyEnded familyId
      (updateWhere condition (fun session ↦ { session with isRevoked := true }) sessions) where
  known := by rw [families_revoke]; exact hended.known
  dead session hsession := by
    obtain ⟨old, hold, rfl⟩ := mem_updateWhere.mp hsession
    split_ifs
    · simp [AuthSession.liveIn]
    · exact hended.dead old hold

/-- No step brings a family back to life. -/
theorem FamilyEnded.step {familyId : Uuid} {db after : Db} {label : SessionStep}
    (hended : FamilyEnded familyId db.authSessions) (hwrite : SessionWrite db label after) :
    FamilyEnded familyId after.authSessions := by
  cases hwrite with
  | revoke condition _ _ hsessions => exact hsessions ▸ hended.revoke condition
  | insert condition session _ _ hinsert horigin =>
    obtain ⟨hafter, _⟩ := insertSession_ok hinsert
    have hrevoked := hended.revoke condition
    have hother : session.familyId ≠ familyId := by
      rcases horigin with ⟨_, hnew⟩ | ⟨presented, hmem, hlive, hfamily, _⟩
      · exact fun heq ↦ hnew (heq ▸ hended.known)
      · intro heq
        have hdead := hended.dead presented hmem
        simp [AuthSession.liveIn, ← hfamily, heq, hlive] at hdead
    rw [hafter]
    constructor
    · rw [families_append]
      exact List.mem_append_left _ hrevoked.known
    · intro row hrow
      rcases List.mem_append.mp hrow with hold | hnew
      · exact hrevoked.dead row hold
      · rw [List.mem_singleton.mp hnew]
        simp [AuthSession.liveIn, hother]

/-- Assumes: every row of a table has a row with the same identifier and family in another. What the
history rotated is there too. -/
theorem rotated_mono {history : List SessionStep} {sessions later : List AuthSession}
    (hkept : ∀ row ∈ sessions, ∃ same ∈ later, same.id = row.id ∧ same.familyId = row.familyId)
    (hrotated : ∀ first second, Rotated history first second →
      ∃ presented ∈ sessions, ∃ successor ∈ sessions, presented.id = first ∧
        successor.id = second ∧ successor.familyId = presented.familyId) :
    ∀ first second, Rotated history first second →
      ∃ presented ∈ later, ∃ successor ∈ later, presented.id = first ∧
        successor.id = second ∧ successor.familyId = presented.familyId := by
  intro first second hrotation
  obtain ⟨presented, hpresented, successor, hsuccessor, rfl, rfl, hfamily⟩ :=
    hrotated first second hrotation
  obtain ⟨before, hbefore, hid, hbeforeFamily⟩ := hkept presented hpresented
  obtain ⟨next, hnext, hnextId, hnextFamily⟩ := hkept successor hsuccessor
  exact ⟨before, hbefore, next, hnext, hid, hnextId, by rw [hnextFamily, hfamily, hbeforeFamily]⟩

/-- Revoking rows changes no token hash. -/
theorem map_tokenHash_revoke (condition : AuthSession → Bool) (sessions : List AuthSession) :
    (updateWhere condition (fun session ↦ { session with isRevoked := true }) sessions).map
      AuthSession.tokenHash = sessions.map AuthSession.tokenHash :=
  map_updateWhere fun _ ↦ rfl

/-- The rows are still there after a revocation. -/
theorem kept_revoke (condition : AuthSession → Bool) (sessions : List AuthSession) :
    ∀ row ∈ sessions, ∃ same ∈ updateWhere condition
      (fun session ↦ { session with isRevoked := true }) sessions,
        same.id = row.id ∧ same.familyId = row.familyId := by
  intro row hrow
  refine ⟨_, mem_updateWhere.mpr ⟨row, hrow, rfl⟩, ?_⟩
  split_ifs <;> exact ⟨rfl, rfl⟩

/-- No step takes a session away or moves it to another family. -/
theorem SessionWrite.kept {db after : Db} {label : SessionStep} (hwrite : SessionWrite db label after) :
    ∀ row ∈ db.authSessions, ∃ same ∈ after.authSessions,
      same.id = row.id ∧ same.familyId = row.familyId := by
  cases hwrite with
  | revoke condition _ _ hsessions => exact hsessions ▸ kept_revoke condition db.authSessions
  | insert condition session _ _ hinsert _ =>
    intro row hrow
    obtain ⟨same, hsame, hcolumns⟩ := kept_revoke condition _ row hrow
    exact ⟨same, (insertSession_ok hinsert).1 ▸ List.mem_append_left _ hsame, hcolumns⟩

/-- A step that is no rotation adds none to the history. -/
theorem Rotated.of_noRotation {label : SessionStep} {history : List SessionStep} {first second : Uuid}
    (hrotated : Rotated (label :: history) first second) (hlabel : label.NoRotation) :
    Rotated history first second := by
  obtain ⟨presented, successor, hentry, hids⟩ := hrotated
  rcases List.mem_cons.mp hentry with heq | hold
  · exact absurd heq.symm (hlabel presented successor)
  · exact ⟨presented, successor, hold, hids⟩

/-- Every step keeps the sessions in order. -/
theorem SessionsInOrder.step {view : View Db SessionStep} {label : SessionStep} {after : Db}
    (horder : SessionsInOrder view) (hwrite : SessionWrite view.db label after) :
    SessionsInOrder (view.after label after) := by
  have hkept := rotated_mono hwrite.kept horder.rotated
  cases hwrite with
  | revoke condition huuid hlabel hsessions =>
    constructor
    · simpa [View.after, hsessions] using horder.ids
    · simpa only [View.after, hsessions, map_tokenHash_revoke] using horder.hashes
    · simp only [View.after, hsessions, families_revoke]
      exact fun familyId hfamily ↦ Nat.lt_of_lt_of_le (horder.behind familyId hfamily) huuid
    · exact fun first second hrotation ↦ hkept first second (hrotation.of_noRotation hlabel)
  | insert condition session huuid hbehind hinsert horigin =>
    obtain ⟨hafter, hid⟩ := insertSession_ok hinsert
    have hhash := insertSession_hash hinsert
    constructor
    · simp only [View.after, hafter]
      exact nodup_map_append_singleton (by simpa using horder.ids) hid
    · simp only [View.after, hafter]
      refine nodup_map_append_singleton ?_ hhash
      simpa only [map_tokenHash_revoke] using horder.hashes
    · intro familyId hfamily
      simp only [View.after, hafter, families_append, families_revoke, List.mem_append] at hfamily
      rcases hfamily with hold | hnew
      · exact Nat.lt_of_lt_of_le (horder.behind familyId hold) huuid
      · obtain rfl := List.mem_singleton.mp hnew
        exact hbehind
    · intro first second hrotation
      rcases horigin with ⟨hlabel, _⟩ | ⟨presented, hmem, _, hfamily, hlabel⟩
      · exact hkept first second (hrotation.of_noRotation hlabel)
      · obtain ⟨old, new, hentry, hold, hnew⟩ := hrotation
        rcases List.mem_cons.mp hentry with heq | hearlier
        · -- the rotation of this step: its two rows are the presented one and the new one
          rw [hlabel] at heq
          cases heq
          obtain ⟨same, hsame, hcolumns⟩ := kept_revoke condition _ presented hmem
          refine ⟨same, ?_, session, ?_, hcolumns.1.trans hold, hnew, hfamily.trans hcolumns.2.symm⟩
          · exact hafter ▸ List.mem_append_left _ hsame
          · exact hafter ▸ List.mem_append_right _ (List.mem_singleton.mpr rfl)
        · exact hkept first second ⟨old, new, hearlier, hold, hnew⟩

/-- A chain stays in the family of its first session. -/
theorem Descends.family {view : View Db SessionStep} (horder : SessionsInOrder view)
    {first last : AuthSession} (hfirst : first ∈ view.db.authSessions)
    (hlast : last ∈ view.db.authSessions) (hchain : Descends view.history first.id last.id) :
    last.familyId = first.familyId := by
  suffices hgeneral : ∀ id, Descends view.history first.id id →
      ∃ row ∈ view.db.authSessions, row.id = id ∧ row.familyId = first.familyId by
    obtain ⟨row, hrow, hid, hfamily⟩ := hgeneral last.id hchain
    rw [← hfamily, List.inj_on_of_nodup_map horder.ids hrow hlast hid]
  intro id hdescends
  induction hdescends with
  | refl => exact ⟨first, hfirst, rfl, rfl⟩
  | tail _ hrotation ih =>
    obtain ⟨row, hrow, hid, hfamily⟩ := ih
    obtain ⟨presented, hpresented, successor, hsuccessor, hpresentedId, hsuccessorId, hsame⟩ :=
      horder.rotated _ _ hrotation
    refine ⟨successor, hsuccessor, hsuccessorId, ?_⟩
    rw [hsame, ← hfamily,
      List.inj_on_of_nodup_map horder.ids hpresented hrow (hpresentedId.trans hid.symm)]

/-! ### The calls -/

variable {α : Type} {view : View Db SessionStep}

/-- The sessions are those of an earlier view, and identifiers have only been drawn since. -/
structure Unchanged (earlier view : View Db SessionStep) : Prop where
  sessions : view.db.authSessions = earlier.db.authSessions
  uuids : earlier.db.nextUuid ≤ view.db.nextUuid

theorem Unchanged.trans {first second third : View Db SessionStep} (hfirst : Unchanged first second)
    (hsecond : Unchanged second third) : Unchanged first third :=
  ⟨hsecond.sessions.trans hfirst.sessions, Nat.le_trans hfirst.uuids hsecond.uuids⟩

/-- A quiet part of a call. -/
theorem exec_quiet {call : AuthCall α} (hcall : call.Only Quiet) (view : View Db SessionStep) :
    call.Amid (.sequential SessionWrite)
      (fun value after ↦ call.Returns value ∧ Unchanged view after) view := by
  refine Call.amid_of_only hcall (fun earlier found label after hunchanged hfound hquiet ↦ ?_)
    ⟨rfl, Nat.le_refl _⟩
  obtain rfl : found = earlier.db := hfound
  refine ⟨.of_quiet hquiet, hquiet.1.trans hunchanged.sessions, ?_⟩
  rcases hquiet.2 with ⟨_, huuid⟩ | ⟨_, huuid⟩
  · exact huuid ▸ hunchanged.uuids
  · exact huuid ▸ Nat.le_succ_of_le hunchanged.uuids

/-- A step that writes sessions in a transaction. Assumes: where it commits, it is such a write. -/
theorem exec_transaction {label : Db → SessionStep} {run : Db → Except Failure (α × Db)}
    (hcommit : ∀ value after, run view.db = .ok (value, after) →
      SessionWrite view.db (label view.db) after) :
    (transaction label run).Amid (.sequential SessionWrite) (fun _ _ ↦ True) view := by
  refine Call.amid_attempt (fun found failure hfound hrun ↦ ?_) fun found value after hfound hrun ↦ ?_
  · simp only [hrun]
    exact .of_quiet (quiet_refl _)
  · obtain rfl : found = view.db := hfound
    simp only [hrun]
    exact ⟨hcommit value after hrun, trivial⟩

/-- The family of a fresh refresh token is drawn from beyond every family of the store. -/
theorem generateRefreshToken_exec (env : Env) (view : View Db SessionStep) :
    (generateRefreshToken env).Amid (.sequential SessionWrite)
      (fun token after ↦ Unchanged view after ∧ view.db.nextUuid ≤ token.familyId ∧
        token.familyId < after.db.nextUuid) view := by
  refine (exec_quiet randomBytes_quiet view).bind ?_
  rintro refreshToken drawn ⟨_, hdrawn⟩
  refine Call.amid_bind.mpr (amid_sequential_atomically.mpr ⟨?_, ?_⟩)
  · exact .of_quiet ⟨rfl, .inr ⟨rfl, rfl⟩⟩
  · exact ⟨hdrawn.trans ⟨rfl, Nat.le_succ _⟩, hdrawn.uuids, Nat.lt_succ_self _⟩

/-- Opening a session keeps to the writes of a sequential run: its family is a new one. -/
theorem issueSession_exec (env : Env) (user : User) (sessionId : Uuid) (permissions : List String)
    (tenantId : Uuid) (authMethod : AuthMethod) (ttlSeconds : ℕ) (ipAddress ssoProvider : Option String)
    (hbehind : ∀ familyId ∈ families view.db.authSessions, familyId < view.db.nextUuid) :
    (issueSession env user sessionId permissions tenantId authMethod ttlSeconds ipAddress
      ssoProvider).Amid (.sequential SessionWrite) (fun _ _ ↦ True) view := by
  refine (exec_quiet (signAccessToken_quiet _ _ _ _ _ _) view).bind ?_
  rintro signed first ⟨_, hfirst⟩
  refine (generateRefreshToken_exec env first).bind ?_
  rintro token second ⟨hsecond, hfrom, hbelow⟩
  refine (exec_quiet (expiryAfter_quiet _ _) second).bind ?_
  rintro expiresAt third ⟨_, hthird⟩
  have hsessions := ((hfirst.trans hsecond).trans hthird).sessions
  have hnew : token.familyId ∉ families third.db.authSessions := by
    intro hmem
    rw [hsessions] at hmem
    exact Nat.lt_irrefl _ (Nat.lt_of_lt_of_le (hbehind _ hmem) (Nat.le_trans hfirst.uuids hfrom))
  refine Call.Amid.bind (exec_transaction fun value after hrun ↦ ?_) fun _ _ _ ↦ trivial
  obtain ⟨sessions, hinsert, hrest⟩ := bind_eq_ok.mp hrun
  cases hrest
  have hnone : updateWhere (fun _ ↦ false) (fun session ↦ { session with isRevoked := true })
      third.db.authSessions = third.db.authSessions := updateWhere_of_none fun _ _ ↦ rfl
  exact .insert (fun _ ↦ false) _ (Nat.le_refl _) (Nat.lt_of_lt_of_le hbelow hthird.uuids)
    (hnone.symm ▸ hinsert) (.inl ⟨by rintro _ _ ⟨⟩, hnew⟩)

theorem login_exec (env : Env) (email password : String) (ipAddress : Option String)
    (rememberMe : Bool)
    (hbehind : ∀ familyId ∈ families view.db.authSessions, familyId < view.db.nextUuid) :
    (login env email password ipAddress rememberMe).Amid (.sequential SessionWrite)
      (fun _ _ ↦ True) view := by
  refine (exec_quiet (by simp [findByEmail]) view).bind ?_
  rintro found first ⟨_, hfirst⟩
  refine Call.amid_bind.mpr (Call.amid_require.mpr fun user _ ↦ ?_)
  refine Call.amid_bind.mpr (Call.amid_require.mpr fun passwordHash _ ↦ ?_)
  refine Call.amid_bind.mpr (Call.amid_ensure.mpr fun _ ↦ ?_)
  refine Call.amid_bind.mpr (Call.amid_ensure.mpr fun _ ↦ ?_)
  refine Call.amid_bind.mpr (Call.amid_ensure.mpr fun _ ↦ ?_)
  refine (exec_quiet uuidv7_quiet first).bind ?_
  rintro sessionId second ⟨_, hsecond⟩
  refine (exec_quiet (by simp [getMemberships, findByUserId]) second).bind ?_
  rintro memberships third ⟨_, hthird⟩
  refine Call.amid_bind.mpr (Call.amid_require.mpr fun active _ ↦ ?_)
  refine (exec_quiet (getUserPermissions_quiet _ _) third).bind ?_
  rintro permissions last ⟨_, hlast⟩
  have hsame := ((hfirst.trans hsecond).trans hthird).trans hlast
  refine Call.Amid.bind (issueSession_exec _ _ _ _ _ _ _ _ _ ?_) fun issued after _ ↦ ?_
  · intro familyId hfamily
    rw [hsame.sessions] at hfamily
    exact Nat.lt_of_lt_of_le (hbehind familyId hfamily) hsame.uuids
  · exact (exec_quiet (touchLastActive_quiet _ _) after).bind fun _ _ _ ↦ trivial

/-- Revoking a family is such a write. -/
theorem revokeFamily_exec (familyId : Uuid) (view : View Db SessionStep) :
    (revokeFamily familyId).Amid (.sequential SessionWrite) (fun _ _ ↦ True) view := by
  refine (exec_quiet (by simp [snapshotSessions]) view).bind fun snapshot after _ ↦ ?_
  refine amid_sequential_atomically.mpr ⟨?_, trivial⟩
  refine .revoke _ (Nat.le_refl _) ?_ rfl
  rintro _ _ ⟨⟩

/-- Rotating a live session of the store is such a write. -/
theorem rotateSession_exec {presented successor : AuthSession}
    (hmem : presented ∈ view.db.authSessions) (hlive : presented.isRevoked = false)
    (hfamily : successor.familyId = presented.familyId)
    (hdrawn : presented.familyId < view.db.nextUuid) :
    (rotateSession presented successor).Amid (.sequential SessionWrite) (fun _ _ ↦ True) view := by
  refine exec_transaction fun value after hrun ↦ ?_
  obtain ⟨sessions, hinsert, hrest⟩ := bind_eq_ok.mp hrun
  cases hrest
  exact .insert (fun session ↦ session.id = presented.id) _ (Nat.le_refl _) (hfamily ▸ hdrawn) hinsert
    (.inr ⟨presented, hmem, hlive, hfamily, rfl⟩)

theorem refresh_exec (env : Env) (rawRefreshToken : RawToken) (ipAddress : Option String)
    (hbehind : ∀ familyId ∈ families view.db.authSessions, familyId < view.db.nextUuid) :
    (refresh env rawRefreshToken ipAddress).Amid (.sequential SessionWrite) (fun _ _ ↦ True) view := by
  refine Call.amid_bind.mpr (amid_sequential_query.mpr ⟨.of_quiet (quiet_refl _), ?_⟩)
  refine Call.amid_bind.mpr (Call.amid_require.mpr fun presented hfound ↦ ?_)
  have hmem := List.mem_of_find?_eq_some hfound
  by_cases hrevoked : presented.isRevoked = true
  · rw [if_pos hrevoked]
    exact (revokeFamily_exec _ _).bind fun _ _ _ ↦ Call.amid_throw
  · rw [if_neg hrevoked]
    refine (exec_quiet (by simp [currentTime]) _).bind ?_
    rintro now first ⟨_, hfirst⟩
    refine Call.amid_bind.mpr (Call.amid_ensure.mpr fun _ ↦ ?_)
    refine (exec_quiet (by simp [findUserById]) first).bind ?_
    rintro found second ⟨_, hsecond⟩
    refine Call.amid_bind.mpr (Call.amid_require.mpr fun user _ ↦ ?_)
    refine Call.amid_bind.mpr (Call.amid_ensure.mpr fun _ ↦ ?_)
    refine (exec_quiet uuidv7_quiet second).bind ?_
    rintro newSessionId third ⟨_, hthird⟩
    refine (exec_quiet (getUserPermissions_quiet _ _) third).bind ?_
    rintro permissions fourth ⟨_, hfourth⟩
    refine (exec_quiet (signAccessToken_quiet _ _ _ _ _ _) fourth).bind ?_
    rintro signed fifth ⟨_, hfifth⟩
    refine (exec_quiet (generateRefreshToken_quiet _) fifth).bind ?_
    rintro token sixth ⟨_, hsixth⟩
    refine (exec_quiet (expiryAfter_quiet _ _) sixth).bind ?_
    rintro expiresAt last ⟨_, hlast⟩
    have hsame := ((((hfirst.trans hsecond).trans hthird).trans hfourth).trans hfifth).trans
      (hsixth.trans hlast)
    have hdrawn : presented.familyId < view.db.nextUuid := hbehind _ (List.mem_map_of_mem hmem)
    refine Call.Amid.bind (rotateSession_exec (hsame.sessions ▸ hmem) (by simpa using hrevoked) ?_ ?_)
      fun _ _ _ ↦ trivial
    · rfl
    · exact Nat.lt_of_lt_of_le hdrawn hsame.uuids

theorem logout_exec (payload : JwtPayload) (denylistFirst : Bool) (view : View Db SessionStep) :
    (logout payload denylistFirst).Amid (.sequential SessionWrite) (fun _ _ ↦ True) view := by
  have hrevoke : ∀ view, (revokeById payload.sessionId).Amid (.sequential SessionWrite)
      (fun _ _ ↦ True) view := fun view ↦ amid_sequential_atomically.mpr
    ⟨.revoke _ (Nat.le_refl _) (by rintro _ _ ⟨⟩) rfl, trivial⟩
  cases denylistFirst with
  | true => exact (exec_quiet (denylistPayload_quiet _) view).bind fun _ after _ ↦ hrevoke after
  | false =>
    refine (hrevoke view).bind fun _ after _ ↦ ?_
    exact (exec_quiet (denylistPayload_quiet _) after).mono fun _ _ _ ↦ trivial

/-- Every call keeps to the writes of a sequential run. -/
theorem SessionRequest.serve_exec (env : Env) (request : SessionRequest)
    (horder : SessionsInOrder view) :
    (request.serve env).Amid (.sequential SessionWrite) (fun _ _ ↦ True) view := by
  cases request with
  | login email password ipAddress rememberMe =>
    exact Call.amid_map.mpr (login_exec env email password ipAddress rememberMe horder.behind)
  | refresh rawRefreshToken ipAddress =>
    exact Call.amid_map.mpr (refresh_exec env rawRefreshToken ipAddress horder.behind)
  | logout payload denylistFirst =>
    exact Call.amid_map.mpr (logout_exec payload denylistFirst view)
  | tick milliseconds =>
    exact Call.amid_map.mpr ((exec_quiet (tick_quiet _) view).mono fun _ _ _ ↦ trivial)

/-! ### Logging out -/

/-- The condition on a logout: no session of the family is live but the one the token names. -/
def NamesLiveSession (session : AuthSession) (sessions : List AuthSession) : Prop :=
  ∀ other ∈ sessions, other.liveIn session.familyId = true → other.id = session.id

instance (session : AuthSession) (sessions : List AuthSession) :
    Decidable (NamesLiveSession session sessions) :=
  inferInstanceAs (Decidable (∀ other ∈ sessions, _))

theorem denylistPayload_run (payload : JwtPayload) (db : Db) :
    ∃ after, (denylistPayload payload).run db = (.ok (), after) ∧
      after.authSessions = db.authSessions := by
  simp only [denylistPayload, currentTime, Call.run_bind, Call.run_query]
  split_ifs
  · exact ⟨_, rfl, rfl⟩
  · exact ⟨_, rfl, rfl⟩

/-- `logout` revokes the session its token names. -/
theorem logout_run (payload : JwtPayload) (denylistFirst : Bool) (db : Db) :
    ((logout payload denylistFirst).run db).2.authSessions =
      revokeRow payload.sessionId db.authSessions := by
  cases denylistFirst with
  | true =>
    obtain ⟨after, hdenylist, hsessions⟩ := denylistPayload_run payload db
    simp only [logout, bothInOrder, if_pos, Call.run_bind, hdenylist, revokeById,
      Call.run_atomically, hsessions]
  | false =>
    simp only [logout, bothInOrder, Bool.false_eq_true, if_false, revokeById, Call.run_bind,
      Call.run_atomically]
    obtain ⟨after, hdenylist, hsessions⟩ := denylistPayload_run payload
      { db with authSessions := revokeRow payload.sessionId db.authSessions }
    rw [hdenylist, hsessions]

/-- A logout that names the live session of its family ends the family. -/
theorem familyEnded_of_logout {session : AuthSession} {sessions : List AuthSession}
    (hsession : session ∈ sessions) (hnames : NamesLiveSession session sessions) :
    FamilyEnded session.familyId (revokeRow session.id sessions) where
  known := by
    rw [revokeRow, families_revoke]
    exact List.mem_map_of_mem hsession
  dead row hrow := by
    obtain ⟨old, hold, rfl⟩ := mem_updateWhere.mp hrow
    split_ifs with hid
    · simp [AuthSession.liveIn]
    · have hother : ¬ old.liveIn session.familyId = true :=
        fun hlive ↦ hid (decide_eq_true (hnames old hold hlive))
      simpa using hother

/-- A refresh with the token of a revoked session is rejected. -/
theorem refresh_rejects {env : Env} {db : Db} {session : AuthSession}
    (hhashes : (db.authSessions.map AuthSession.tokenHash).Nodup) (hmem : session ∈ db.authSessions)
    (hrevoked : session.isRevoked = true) {rawRefreshToken : RawToken}
    (hhash : session.tokenHash = env.hashToken rawRefreshToken) (ipAddress : Option String) :
    ∃ failure, ((refresh env rawRefreshToken ipAddress).run db).1 = .error failure := by
  have hfind : (db.authSessions.find? fun row ↦ row.tokenHash = env.hashToken rawRefreshToken) =
      some session := by
    cases hrow : db.authSessions.find? fun row ↦ row.tokenHash = env.hashToken rawRefreshToken with
    | none => exact absurd (decide_eq_true hhash) (List.find?_eq_none.mp hrow session hmem)
    | some row =>
      have hmatches := List.find?_some hrow
      simp only [decide_eq_true_eq] at hmatches
      rw [List.inj_on_of_nodup_map hhashes (List.mem_of_find?_eq_some hrow) hmem
        (hmatches.trans hhash.symm)]
  refine ⟨unauthorizedException .authRefreshTokenReuse "Refresh token has been revoked", ?_⟩
  simp only [refresh, findByTokenHash, Call.run_bind, Call.run_query, hfind, Call.require_some,
    Call.run_ok, hrevoked, if_true, revokeFamily, snapshotSessions, commitRevoke, Call.run_atomically,
    Call.run_throw]

/-- The sessions are in order, and the session is there, in a family that has ended. -/
structure EndedIn (session : AuthSession) (view : View Db SessionStep) : Prop where
  order : SessionsInOrder view
  present : ∃ row ∈ view.db.authSessions, row.id = session.id ∧ row.familyId = session.familyId
  ended : FamilyEnded session.familyId view.db.authSessions

theorem EndedIn.step {session : AuthSession} {view : View Db SessionStep} {label : SessionStep}
    {after : Db} (hended : EndedIn session view) (hwrite : SessionWrite view.db label after) :
    EndedIn session (view.after label after) where
  order := hended.order.step hwrite
  present := by
    obtain ⟨row, hrow, hid, hfamily⟩ := hended.present
    obtain ⟨same, hsame, hsameId, hsameFamily⟩ := hwrite.kept row hrow
    exact ⟨same, hsame, hsameId.trans hid, hsameFamily.trans hfamily⟩
  ended := hended.ended.step hwrite

/-- In a family that has ended, every lineage has. -/
theorem EndedIn.lineageEnded {env : Env} {session : AuthSession} {view : View Db SessionStep}
    (hended : EndedIn session view) : LineageEnded env session.id view := by
  intro last hlast hchain rawRefreshToken ipAddress hhash
  obtain ⟨first, hfirst, hid, hfamily⟩ := hended.present
  have hsame : last.familyId = session.familyId :=
    (Descends.family hended.order hfirst hlast (hid ▸ hchain)).trans hfamily
  have hrevoked : last.isRevoked = true := by
    simpa [AuthSession.liveIn, hsame] using hended.ended.dead last hlast
  exact refresh_rejects hended.order.hashes hlast hrevoked hhash ipAddress

/-- Assumes: there is no session at the start, and the calls run one after the other. A logout whose
access token names the live session of its family, or finds no live one, ends the lineage of the session
for good: no refresh token of a chain that starts there is accepted afterwards. -/
theorem logout_endsLineage (env : Env) (db : Db) (hempty : db.authSessions = [])
    (before later : List SessionRequest) (payload : JwtPayload) (denylistFirst : Bool)
    (session : AuthSession)
    (hsession : session ∈ (afterAll (SessionRequest.serve env) ⟨db, []⟩ before).db.authSessions)
    (hpayload : payload.sessionId = session.id)
    (hnames : NamesLiveSession session
      (afterAll (SessionRequest.serve env) ⟨db, []⟩ before).db.authSessions) :
    LineageEnded env payload.sessionId (afterAll (SessionRequest.serve env) ⟨db, []⟩
      (before ++ .logout payload denylistFirst :: later)) := by
  have hstart : SessionsInOrder (⟨db, []⟩ : View Db SessionStep) := by
    constructor <;> simp [hempty, families, Rotated]
  have horder := afterAll_keeps (fun request _ ↦ SessionRequest.serve_exec env request)
    (fun _ _ _ ↦ SessionsInOrder.step) hstart before
  rw [afterAll_append]
  revert hsession hnames horder
  generalize afterAll (SessionRequest.serve env) ⟨db, []⟩ before = view
  intro hsession hnames horder
  -- what holds once the logout has returned, and from then on
  have hended : EndedIn session
      (((SessionRequest.logout payload denylistFirst).serve env).exec view).2 := by
    have hsessions : (((SessionRequest.logout payload denylistFirst).serve env).exec
        view).2.db.authSessions = revokeRow session.id view.db.authSessions := by
      rw [Call.exec_db, ← hpayload, ← logout_run payload denylistFirst]
      exact congrArg Db.authSessions (Call.run_map _ _ _)
    refine ⟨(SessionRequest.serve_exec env _ horder).exec_keeps (fun _ _ _ ↦ SessionsInOrder.step)
      horder, ?_, ?_⟩
    · rw [hsessions]
      exact kept_revoke _ _ session hsession
    · rw [hsessions]
      exact familyEnded_of_logout hsession hnames
  rw [hpayload]
  exact (afterAll_keeps (fun request _ h ↦ request.serve_exec env h.order) (fun _ _ _ ↦ EndedIn.step)
    hended later).lineageEnded

/-! ### An outdated access token -/

/-- The access token a request is answered with, if any. -/
def SessionRequest.issues (env : Env) (request : SessionRequest) (view : View Db SessionStep) :
    Option JwtPayload :=
  match ((request.serve env).exec view).1 with
  | .ok issued => issued.map LoginResult.accessToken
  | .error _ => none

/-- The user logs in. -/
def firstLogin : SessionRequest := .login "ada@example.com" "secret" none true

/-- The session of that login. -/
def firstSession : AuthSession :=
  { id := 10, tenantId := 2, userId := 1, tokenHash := 1000, familyId := 12,
    expiresAt := 2592000000, createdAt := 0 }

/-- The access token of that login. -/
def firstPayload : JwtPayload :=
  { sub := 1, tenantId := 2, sessionId := 10, jti := 11, permissions := fallbackPermissions,
    authMethod := .password, iat := 0, exp := 900 }

/-- The successor a refresh rotates that session into. -/
def firstSuccessor : AuthSession := { firstSession with id := 13, tokenHash := 1001 }

/-- The access token that the refresh issues. -/
def successorPayload : JwtPayload := { firstPayload with sessionId := 13, jti := 14 }

/-- A witness that the condition can be met: a login, a refresh, a logout with the access token of the
refresh, and a refresh with each of the two refresh tokens. -/
theorem logout_endsLineage_witness :
    LineageEnded exampleEnv 13 (afterAll (SessionRequest.serve exampleEnv) ⟨exampleDb, []⟩
      ([firstLogin, .refresh 0 none] ++ .logout successorPayload true ::
        [.refresh 0 none, .refresh 1 none])) ∧
      SessionRequest.issues exampleEnv (.refresh 0 none)
        (afterAll (SessionRequest.serve exampleEnv) ⟨exampleDb, []⟩ [firstLogin]) =
          some successorPayload :=
  ⟨logout_endsLineage exampleEnv exampleDb rfl [firstLogin, .refresh 0 none]
    [.refresh 0 none, .refresh 1 none] successorPayload true firstSuccessor (by decide +kernel) rfl
    (by decide +kernel), by decide +kernel⟩

/-- The user logs in, refreshes and logs out with the access token of the login. -/
def outdatedLogout : View Db SessionStep :=
  afterAll (SessionRequest.serve exampleEnv) ⟨exampleDb, []⟩
    [firstLogin, .refresh 0 none, .logout firstPayload true]

/-- Without the condition a logout need not end the lineage: the access token of the login has not
expired, and the token of the successor is accepted after the logout. -/
theorem successorSurvivesLogout :
    ¬ ∀ (env : Env) (db : Db), db.authSessions = [] →
      ∀ (before between later : List SessionRequest) (request : SessionRequest)
        (payload : JwtPayload) (denylistFirst : Bool),
      request.issues env (afterAll (SessionRequest.serve env) ⟨db, []⟩ before) = some payload →
      (afterAll (SessionRequest.serve env) ⟨db, []⟩ (before ++ request :: between)).db.now / 1000 <
        payload.exp →
      LineageEnded env payload.sessionId (afterAll (SessionRequest.serve env) ⟨db, []⟩
        (before ++ request :: between ++ .logout payload denylistFirst :: later)) := by
  intro halways
  have hended : LineageEnded exampleEnv 10 outdatedLogout :=
    halways exampleEnv exampleDb rfl [] [.refresh 0 none] [] firstLogin firstPayload true
      (by decide +kernel) (by decide +kernel)
  have hchain : Rotated outdatedLogout.history 10 13 :=
    ⟨firstSession, firstSuccessor, by decide +kernel, rfl, rfl⟩
  obtain ⟨failure, hfailure⟩ :=
    hended firstSuccessor (by decide +kernel) (.single hchain) 1 none rfl
  have hok : ((refresh exampleEnv 1 none).run outdatedLogout.db).1.isOk = true := by decide +kernel
  rw [hfailure] at hok
  cases hok

end RallyApi.Identity

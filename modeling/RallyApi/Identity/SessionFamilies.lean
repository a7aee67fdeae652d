import RallyApi.Identity.SessionRules

/-!
# One live session per refresh-token family

A refresh rotates the session it presents: the old row is revoked and its successor is inserted in
the same family, in one transaction. `refresh` reads the presented row before that transaction and
the transaction does not look at it again, so two refreshes with one token can both rotate, and the
family ends up with two live sessions (`twoLiveSessions`).

A family has at most one live session as long as every rotation still finds the session it presents
live, or its family dead (`StillCurrent`): this holds in every reachable state, for any interleaving
of all the authentication flows (`reachable_oneLivePerFamily`). The flows that open a family draw
its identifier themselves, so no two of them share one (`OwnsFamily`).
-/

set_option autoImplicit false
set_option relaxedAutoImplicit false

namespace RallyApi.Identity

open Concurrency Platform Store

/-! ### Live sessions of a family -/

/-- The session is in the family and not revoked. -/
def AuthSession.liveIn (familyId : Uuid) (session : AuthSession) : Bool :=
  session.familyId = familyId ∧ session.isRevoked = false

/-- Every family has at most one session that is not revoked. -/
def OneLivePerFamily (sessions : List AuthSession) : Prop :=
  ∀ familyId, sessions.countP (AuthSession.liveIn familyId) ≤ 1

/-- The families of a table. -/
def families (sessions : List AuthSession) : List Uuid := sessions.map AuthSession.familyId

/-- Revoking rows moves no row to another family. -/
@[simp]
theorem families_revoke (condition : AuthSession → Bool) (sessions : List AuthSession) :
    families (updateWhere condition (fun session ↦ { session with isRevoked := true }) sessions) =
      families sessions :=
  map_updateWhere fun _ ↦ rfl

@[simp]
theorem families_append (first second : List AuthSession) :
    families (first ++ second) = families first ++ families second :=
  List.map_append ..

/-- Revoking rows makes no row live. -/
theorem countP_live_revoke_le (condition : AuthSession → Bool) (sessions : List AuthSession)
    (familyId : Uuid) :
    (updateWhere condition (fun session ↦ { session with isRevoked := true }) sessions).countP
        (AuthSession.liveIn familyId) ≤ sessions.countP (AuthSession.liveIn familyId) := by
  rw [updateWhere, List.countP_map]
  refine List.countP_mono_left fun session _ hlive ↦ ?_
  simp only [Function.comp_apply] at hlive
  split_ifs at hlive
  · simp [AuthSession.liveIn] at hlive
  · exact hlive

theorem OneLivePerFamily.revoke {sessions : List AuthSession} (hlive : OneLivePerFamily sessions)
    (condition : AuthSession → Bool) :
    OneLivePerFamily
      (updateWhere condition (fun session ↦ { session with isRevoked := true }) sessions) :=
  fun familyId ↦ (countP_live_revoke_le condition sessions familyId).trans (hlive familyId)

/-- Assumes: a family has at most one live session, and this is it. Revoking it leaves the family
without a live session. -/
theorem countP_live_revokeRow_eq_zero {sessions : List AuthSession} {familyId : Uuid}
    {session : AuthSession} (hone : sessions.countP (AuthSession.liveIn familyId) ≤ 1)
    (hmem : session ∈ sessions) (hlive : session.liveIn familyId = true) :
    (revokeRow session.id sessions).countP (AuthSession.liveIn familyId) = 0 := by
  refine List.countP_eq_zero.mpr fun row hrow hrowLive ↦ ?_
  obtain ⟨old, hold, rfl⟩ := mem_updateWhere.mp hrow
  split_ifs at hrowLive with hid
  · simp [AuthSession.liveIn] at hrowLive
  · have hsame := eq_of_countP_le_one hone hold hmem hrowLive hlive
    exact hid (by simp [hsame])

/-- Inserting a session into a family without a live session. -/
theorem OneLivePerFamily.append {sessions : List AuthSession} {session : AuthSession}
    (hlive : OneLivePerFamily sessions)
    (hdead : sessions.countP (AuthSession.liveIn session.familyId) = 0) :
    OneLivePerFamily (sessions ++ [session]) := by
  intro familyId
  rw [List.countP_append, List.countP_singleton]
  by_cases hfamily : session.familyId = familyId
  · subst hfamily
    rw [hdead]
    split_ifs <;> omega
  · have hother : session.liveIn familyId = false := by simp [AuthSession.liveIn, hfamily]
    simpa [hother] using hlive familyId

/-- Revoking the presented session and inserting its successor. Assumes: the presented session is
live in its family, or its family is dead. -/
theorem OneLivePerFamily.rotate {sessions : List AuthSession} {presented successor : AuthSession}
    (hlive : OneLivePerFamily sessions) (hfamily : successor.familyId = presented.familyId)
    (hcurrent : (∃ session ∈ sessions, session.id = presented.id ∧
        session.liveIn presented.familyId = true) ∨
      ∀ session ∈ sessions, session.liveIn presented.familyId = false) :
    OneLivePerFamily (revokeRow presented.id sessions ++ [successor]) := by
  refine (hlive.revoke _).append ?_
  rw [hfamily]
  rcases hcurrent with ⟨session, hmem, hid, hsession⟩ | hdead
  · exact hid ▸ countP_live_revokeRow_eq_zero (hlive _) hmem hsession
  · refine Nat.le_zero.mp ((countP_live_revoke_le _ _ _).trans (Nat.le_zero.mpr ?_))
    exact List.countP_eq_zero.mpr fun session hmem ↦ by simp [hdead session hmem]

/-! ### The protocol -/

/-- The condition under which a rotation keeps the family in order: the presented session is still
live, or no session of its family is. Every other step is free. -/
def StillCurrent (world : World Db SessionStep) : SessionStep → Prop
  | .rotate presented _ =>
    (∃ session ∈ world.db.authSessions, session.id = presented.id ∧
        session.liveIn presented.familyId = true) ∨
      ∀ session ∈ world.db.authSessions, session.liveIn presented.familyId = false
  | _ => True

instance (world : World Db SessionStep) (label : SessionStep) :
    Decidable (StillCurrent world label) :=
  match label with
  | .rotate _ _ => inferInstanceAs (Decidable (_ ∨ _))
  | .other | .drawUuid _ | .openSession _ | .revokeById _ | .revoke _ _ _ => .isTrue trivial

/-- The invariant: one live session per family; families and drawn identifiers are behind the
source of identifiers; and each identifier was drawn by one call. -/
structure FamiliesInOrder (world : World Db SessionStep) : Prop where
  live : OneLivePerFamily world.db.authSessions
  behind : ∀ familyId ∈ families world.db.authSessions, familyId < world.db.nextUuid
  drawn : ∀ number id, (number, .drawUuid id) ∈ world.log → id < world.db.nextUuid
  owner : ∀ first second id, (first, .drawUuid id) ∈ world.log →
    (second, .drawUuid id) ∈ world.log → first = second

/-- The guarantee of call `number`: no family disappears, and a new family is one whose identifier
the call has drawn. -/
structure KeepsFamilies (number : ℕ) (world : World Db SessionStep) (after : Db) : Prop where
  kept : families world.db.authSessions ⊆ families after.authSessions
  opened : ∀ familyId ∈ families after.authSessions,
    familyId ∈ families world.db.authSessions ∨ (number, .drawUuid familyId) ∈ world.log

/-- The protocol of the calls that write sessions. -/
def familyProtocol : Protocol Db SessionStep where
  permits := StillCurrent
  invariant := FamiliesInOrder
  guarantee number world _ after := KeepsFamilies number world after

/-- Call `number` has drawn the identifier, and no session has it as its family. -/
def OwnsFamily (number : ℕ) (familyId : Uuid) (world : World Db SessionStep) : Prop :=
  (number, .drawUuid familyId) ∈ world.log ∧ familyId ∉ families world.db.authSessions

/-- Some session is in the family. -/
def HasFamily (familyId : Uuid) (world : World Db SessionStep) : Prop :=
  familyId ∈ families world.db.authSessions

variable {number : ℕ}

theorem FamiliesInOrder.drawnOnce {world : World Db SessionStep} (hinv : FamiliesInOrder world) :
    DrawnOnce world := ⟨hinv.drawn, hinv.owner⟩

/-- A quiet step keeps the protocol. -/
theorem quiet_keepsFamilies {world : World Db SessionStep} {label : SessionStep} {after : Db}
    (hinv : FamiliesInOrder world) (hquiet : Quiet world.db label after) :
    familyProtocol.Keeps number world label after := by
  have hdrawn : DrawnOnce (world.after number label after) := hinv.drawnOnce.quiet hquiet
  obtain ⟨hsessions, hlabel⟩ := hquiet
  have hnext : world.db.nextUuid ≤ after.nextUuid := by
    rcases hlabel with ⟨_, hsame⟩ | ⟨_, hsucc⟩
    · exact hsame.ge
    · exact hsucc ▸ Nat.le_succ _
  refine ⟨⟨by rw [hsessions]; exact fun _ ↦ id, by rw [hsessions]; exact fun _ ↦ .inl⟩,
    ⟨by simpa [World.after, hsessions] using hinv.live, ?_, hdrawn.behind, hdrawn.owner⟩⟩
  intro familyId hfamily
  simp only [World.after, hsessions] at hfamily ⊢
  exact Nat.lt_of_lt_of_le (hinv.behind familyId hfamily) hnext

/-- A step that writes sessions keeps the protocol. Assumes: it draws no identifier, keeps one live
session per family, drops no family, and opens only families the call has drawn. -/
theorem write_keepsFamilies {world : World Db SessionStep} {label : SessionStep} {after : Db}
    (hinv : FamiliesInOrder world) (hdraws : ∀ id, label ≠ .drawUuid id)
    (hnext : after.nextUuid = world.db.nextUuid) (hlive : OneLivePerFamily after.authSessions)
    (hkeeps : KeepsFamilies number world after) :
    familyProtocol.Keeps number world label after := by
  have hdrawn : DrawnOnce (world.after number label after) := hinv.drawnOnce.write hdraws hnext
  refine ⟨hkeeps, hlive, fun familyId hfamily ↦ ?_, hdrawn.behind, hdrawn.owner⟩
  change familyId < after.nextUuid
  rw [hnext]
  rcases hkeeps.opened familyId hfamily with hmem | hopened
  · exact hinv.behind familyId hmem
  · exact hinv.drawn number familyId hopened

theorem settled_true : Settled familyProtocol number fun _ ↦ True where
  stable := Protocol.stable_true
  quiet _ _ _ hinv _ hquiet := ⟨quiet_keepsFamilies hinv hquiet, trivial⟩

/-- A family never disappears. -/
theorem settled_hasFamily (familyId : Uuid) :
    Settled familyProtocol number (HasFamily familyId) where
  stable _ _ _ _ _ _ hfamily hguarantee := hguarantee.kept hfamily
  quiet _ _ _ hinv hfamily hquiet := by
    have hkeeps : familyProtocol.Keeps number _ _ _ := quiet_keepsFamilies hinv hquiet
    exact ⟨hkeeps, hkeeps.guarantee.kept hfamily⟩

/-- No other call opens a family this call has drawn. -/
theorem settled_ownsFamily (familyId : Uuid) :
    Settled familyProtocol number (OwnsFamily number familyId) where
  stable other hother world label after hinv howns hguarantee := by
    refine ⟨List.mem_cons_of_mem _ howns.1, fun hfamily ↦ ?_⟩
    rcases hguarantee.opened familyId hfamily with hold | hdrawn
    · exact howns.2 hold
    · exact hother (hinv.owner _ _ _ hdrawn howns.1)
  quiet world label after hinv howns hquiet := by
    refine ⟨quiet_keepsFamilies hinv hquiet, List.mem_cons_of_mem _ howns.1, ?_⟩
    simpa [World.after, hquiet.1] using howns.2

/-! ### The writing steps -/

/-- A step that revokes sessions and does nothing else to them. -/
theorem revoke_keepsFamilies {world : World Db SessionStep} {label : SessionStep} {after : Db}
    (hinv : FamiliesInOrder world) (hdraws : ∀ id, label ≠ .drawUuid id)
    (hnext : after.nextUuid = world.db.nextUuid) {condition : AuthSession → Bool}
    (hsessions : after.authSessions = updateWhere condition
      (fun session ↦ { session with isRevoked := true }) world.db.authSessions) :
    familyProtocol.Keeps number world label after := by
  refine write_keepsFamilies hinv hdraws hnext (hsessions ▸ hinv.live.revoke condition) ⟨?_, ?_⟩
  · rw [hsessions, families_revoke]
    exact fun _ ↦ id
  · rw [hsessions, families_revoke]
    exact fun _ ↦ .inl

theorem revokeById_sound (id : Uuid) :
    familyProtocol.Meets number (revokeById id) (fun _ ↦ True) fun _ _ ↦ True := by
  refine Protocol.meets_atomically Protocol.stable_true fun world hinv _ _ ↦ ?_
  exact ⟨revoke_keepsFamilies hinv (by simp) rfl rfl, trivial⟩

theorem commitRevoke_sound (target : RevokeTarget) (snapshot : List Uuid) :
    familyProtocol.Meets number (commitRevoke target snapshot) (fun _ ↦ True)
      fun _ _ ↦ True := by
  refine Protocol.meets_atomically Protocol.stable_true fun world hinv _ _ ↦ ?_
  exact ⟨revoke_keepsFamilies hinv (by simp [revokeLabel]) rfl rfl, trivial⟩

theorem commitReset_sound (token : PasswordResetToken) (newHash : String)
    (snapshot : List Uuid) :
    familyProtocol.Meets number (commitReset token newHash snapshot) (fun _ ↦ True)
      fun _ _ ↦ True := by
  refine Protocol.meets_atomically Protocol.stable_true fun world hinv _ _ ↦ ?_
  exact ⟨revoke_keepsFamilies hinv (by simp [revokeLabel]) rfl rfl, trivial⟩

/-- Inserting a session into the table. Assumes: its family is drawn by the call or known already,
and the table it is inserted into has the families of the store. -/
theorem insert_keepsFamilies {world : World Db SessionStep} {label : SessionStep} {after : Db}
    {sessions : List AuthSession} {session : AuthSession} (hinv : FamiliesInOrder world)
    (hdraws : ∀ id, label ≠ .drawUuid id) (hnext : after.nextUuid = world.db.nextUuid)
    (hsessions : after.authSessions = sessions ++ [session])
    (hsame : families sessions = families world.db.authSessions)
    (hlive : OneLivePerFamily (sessions ++ [session]))
    (hfamily : session.familyId ∈ families world.db.authSessions ∨
      (number, .drawUuid session.familyId) ∈ world.log) :
    familyProtocol.Keeps number world label after := by
  refine write_keepsFamilies hinv hdraws hnext (hsessions ▸ hlive) ⟨?_, ?_⟩
  · rw [hsessions, families_append, hsame]
    exact List.subset_append_left _ _
  · intro familyId hmem
    rw [hsessions, families_append, hsame] at hmem
    rcases List.mem_append.mp hmem with hold | hnew
    · exact .inl hold
    · rw [List.mem_singleton.mp hnew]
      exact hfamily

/-- A session in a family that no session has yet. -/
theorem countP_live_eq_zero_of_not_mem {sessions : List AuthSession} {familyId : Uuid}
    (hfamily : familyId ∉ families sessions) :
    sessions.countP (AuthSession.liveIn familyId) = 0 := by
  refine List.countP_eq_zero.mpr fun session hmem hlive ↦ hfamily ?_
  simp only [AuthSession.liveIn, decide_eq_true_eq] at hlive
  exact List.mem_map.mpr ⟨session, hmem, hlive.1⟩

theorem createSession_sound (session : AuthSession) :
    familyProtocol.Meets number (createSession session) (OwnsFamily number session.familyId)
      fun _ _ ↦ True := by
  refine (settled_ownsFamily _).transaction fun world value after hinv howns _ hrun ↦ ?_
  simp only [bind, Except.bind] at hrun
  split at hrun
  · cases hrun
  · rename_i hinsert
    cases hrun
    obtain ⟨rfl, _⟩ := insertSession_ok hinsert
    have hlive : OneLivePerFamily (world.db.authSessions ++
        [{ session with createdAt := world.db.now }]) :=
      hinv.live.append (countP_live_eq_zero_of_not_mem howns.2)
    exact ⟨insert_keepsFamilies hinv (by simp) rfl rfl rfl hlive (.inr howns.1), trivial⟩

theorem replaceSession_sound (oldId : Uuid) (session : AuthSession) :
    familyProtocol.Meets number (replaceSession oldId session)
      (OwnsFamily number session.familyId) fun _ _ ↦ True := by
  refine (settled_ownsFamily _).transaction fun world value after hinv howns _ hrun ↦ ?_
  simp only [bind, Except.bind] at hrun
  split at hrun
  · cases hrun
  · rename_i hinsert
    cases hrun
    obtain ⟨rfl, _⟩ := insertSession_ok hinsert
    have hlive : OneLivePerFamily (revokeRow oldId world.db.authSessions ++
        [{ session with createdAt := world.db.now }]) := by
      refine (hinv.live.revoke _).append (countP_live_eq_zero_of_not_mem ?_)
      rw [families_revoke]
      exact howns.2
    exact ⟨insert_keepsFamilies hinv (by simp) rfl rfl (families_revoke _ _) hlive
      (.inr howns.1), trivial⟩

theorem rotateSession_sound {presented successor : AuthSession}
    (hfamily : successor.familyId = presented.familyId) :
    familyProtocol.Meets number (rotateSession presented successor)
      (HasFamily presented.familyId) fun _ _ ↦ True := by
  refine (settled_hasFamily _).transaction fun world value after hinv hhas hcurrent hrun ↦ ?_
  simp only [bind, Except.bind] at hrun
  split at hrun
  · cases hrun
  · rename_i hinsert
    cases hrun
    obtain ⟨rfl, _⟩ := insertSession_ok hinsert
    have hlive : OneLivePerFamily (revokeRow presented.id world.db.authSessions ++
        [{ successor with createdAt := world.db.now }]) :=
      hinv.live.rotate hfamily hcurrent
    exact ⟨insert_keepsFamilies hinv (by simp) rfl rfl (families_revoke _ _) hlive
      (.inl (hfamily ▸ hhas)), trivial⟩

/-! ### The calls -/

/-- The family of a fresh refresh token belongs to the call that has drawn it. -/
theorem generateRefreshToken_meets (env : Env) :
    familyProtocol.Meets number (generateRefreshToken env) (fun _ ↦ True)
      fun token ↦ OwnsFamily number token.familyId := by
  refine (settled_true.meets randomBytes_quiet).bind fun refreshToken _ ↦ ?_
  refine Protocol.Meets.bind ?_ fun familyId _ ↦ Protocol.meets_pure fun _ _ howns ↦ howns
  refine Protocol.meets_atomically Protocol.stable_true fun world hinv _ _ ↦ ?_
  refine ⟨quiet_keepsFamilies hinv ⟨rfl, .inr ⟨rfl, rfl⟩⟩, List.mem_cons_self .., ?_⟩
  exact fun hmem ↦ uuidSource.fresh _ (hinv.behind _ hmem)

/-- Issuing a session keeps the protocol: its family is drawn by the call. -/
theorem issueSession_sound (env : Env) (user : User) (sessionId : Uuid)
    (permissions : List String) (tenantId : Uuid) (authMethod : AuthMethod) (ttlSeconds : ℕ)
    (ipAddress ssoProvider : Option String) :
    familyProtocol.Meets number (issueSession env user sessionId permissions tenantId authMethod
      ttlSeconds ipAddress ssoProvider) (fun _ ↦ True) fun _ _ ↦ True := by
  refine (settled_true.meets (signAccessToken_quiet _ _ _ _ _ _)).bind fun signed _ ↦ ?_
  refine (generateRefreshToken_meets env).bind fun token _ ↦ ?_
  refine ((settled_ownsFamily _).meets (expiryAfter_quiet _ _)).bind fun expiresAt _ ↦ ?_
  exact (createSession_sound _).bind fun _ _ _ _ _ ↦ trivial

/-- `switchTenant` keeps the protocol. -/
theorem switchTenant_sound (env : Env) (payload : JwtPayload) (targetTenantId : Uuid)
    (ipAddress : Option String) (denylistFirst : Bool) :
    familyProtocol.Meets number (switchTenant env payload targetTenantId ipAddress denylistFirst)
      (fun _ ↦ True) fun _ _ ↦ True := by
  refine (settled_true.meets (by simp [findByUserAndTenant])).bind fun found _ ↦ ?_
  refine (settled_true.meets (Call.only_require _ _)).bind fun keycard _ ↦ ?_
  refine (settled_true.meets (Call.only_ensure _ _)).bind fun _ _ ↦ ?_
  refine (settled_true.meets (by simp [findUserById])).bind fun found _ ↦ ?_
  refine (settled_true.meets (Call.only_require _ _)).bind fun user _ ↦ ?_
  refine (settled_true.meets (Call.only_ensure _ _)).bind fun _ _ ↦ ?_
  refine (settled_true.meets (getUserPermissions_quiet _ _)).bind fun permissions _ ↦ ?_
  refine (settled_true.meets uuidv7_quiet).bind fun newSessionId _ ↦ ?_
  refine (settled_true.meets (signAccessToken_quiet _ _ _ _ _ _)).bind fun signed _ ↦ ?_
  refine (generateRefreshToken_meets env).bind fun token _ ↦ ?_
  refine ((settled_ownsFamily _).meets (expiryAfter_quiet _ _)).bind fun expiresAt _ ↦ ?_
  refine ((settled_ownsFamily _).bothInOrder settled_true (denylistPayload_quiet _)
    (replaceSession_sound _ _) _).bind fun _ _ ↦ ?_
  refine (settled_true.meets (touchLastActive_quiet _ _)).bind fun _ _ ↦ ?_
  exact fun _ _ _ ↦ trivial

theorem login_sound (env : Env) (email password : String) (ipAddress : Option String)
    (rememberMe : Bool) :
    familyProtocol.Meets number (login env email password ipAddress rememberMe) (fun _ ↦ True)
      fun _ _ ↦ True := by
  refine (settled_true.meets (by simp [findByEmail])).bind fun found _ ↦ ?_
  refine (settled_true.meets (Call.only_require _ _)).bind fun user _ ↦ ?_
  refine (settled_true.meets (Call.only_require _ _)).bind fun passwordHash _ ↦ ?_
  refine (settled_true.meets (Call.only_ensure _ _)).bind fun _ _ ↦ ?_
  refine (settled_true.meets (Call.only_ensure _ _)).bind fun _ _ ↦ ?_
  refine (settled_true.meets (Call.only_ensure _ _)).bind fun _ _ ↦ ?_
  refine (settled_true.meets uuidv7_quiet).bind fun sessionId _ ↦ ?_
  refine (settled_true.meets (by simp [getMemberships, findByUserId])).bind fun memberships _ ↦ ?_
  refine (settled_true.meets (Call.only_require _ _)).bind fun active _ ↦ ?_
  refine (settled_true.meets (getUserPermissions_quiet _ _)).bind fun permissions _ ↦ ?_
  refine (issueSession_sound ..).bind fun issued _ ↦ ?_
  refine (settled_true.meets (touchLastActive_quiet _ _)).bind fun _ _ ↦ ?_
  exact fun _ _ _ ↦ trivial

theorem signup_sound (env : Env) (input : SignupInput) (ipAddress : Option String) :
    familyProtocol.Meets number (signup env input ipAddress) (fun _ ↦ True) fun _ _ ↦ True := by
  refine (settled_true.meets (by simp [findByEmail])).bind fun existing _ ↦ ?_
  refine (settled_true.meets (Call.only_ensure _ _)).bind fun _ _ ↦ ?_
  refine (settled_true.meets (resolveSignupTenant_quiet _ _ _)).bind fun resolved _ ↦ ?_
  refine (settled_true.meets uuidv7_quiet).bind fun userId _ ↦ ?_
  refine (settled_true.meets (insertUser_quiet _)).bind fun user _ ↦ ?_
  refine (settled_true.meets (enrollMember_quiet _ _ _)).bind fun _ _ ↦ ?_
  refine (settled_true.meets (ensureDefaultRole_quiet _ _ _)).bind fun _ _ ↦ ?_
  refine (settled_true.meets uuidv7_quiet).bind fun sessionId _ ↦ ?_
  refine (settled_true.meets (by simp [getMemberships, findByUserId])).bind fun memberships _ ↦ ?_
  refine (settled_true.meets (getUserPermissions_quiet _ _)).bind fun permissions _ ↦ ?_
  refine (issueSession_sound ..).bind fun issued _ ↦ ?_
  refine (settled_true.meets (touchLastActive_quiet _ _)).bind fun _ _ ↦ ?_
  exact fun _ _ _ ↦ trivial

theorem ssoLogin_sound (env : Env) (idToken : String) (ipAddress : Option String) :
    familyProtocol.Meets number (ssoLogin env idToken ipAddress) (fun _ ↦ True)
      fun _ _ ↦ True := by
  refine (settled_true.meets (Call.only_ensure _ _)).bind fun _ _ ↦ ?_
  refine (settled_true.meets (Call.only_require _ _)).bind fun claims _ ↦ ?_
  refine (settled_true.meets (Call.only_require _ _)).bind fun oid _ ↦ ?_
  refine (settled_true.meets (Call.only_require _ _)).bind fun email _ ↦ ?_
  refine (settled_true.meets (resolveSsoUser_quiet _ _ _ _ _)).bind fun resolved _ ↦ ?_
  refine (settled_true.meets (bootstrapPlatformAdmin_quiet _ _ _)).bind fun _ _ ↦ ?_
  refine (settled_true.meets uuidv7_quiet).bind fun sessionId _ ↦ ?_
  refine (settled_true.meets (getUserPermissions_quiet _ _)).bind fun permissions _ ↦ ?_
  refine (issueSession_sound ..).bind fun issued _ ↦ ?_
  refine (settled_true.meets (by simp [getMemberships, findByUserId])).bind fun memberships _ ↦ ?_
  refine (settled_true.meets (touchLastActive_quiet _ _)).bind fun _ _ ↦ ?_
  exact fun _ _ _ ↦ trivial

theorem refresh_sound (env : Env) (rawRefreshToken : RawToken) (ipAddress : Option String) :
    familyProtocol.Meets number (refresh env rawRefreshToken ipAddress) (fun _ ↦ True)
      fun _ _ ↦ True := by
  refine refresh_meets settled_true
    (fun session : AuthSession ↦ settled_hasFamily session.familyId) ?_ ?_ ?_ _ _ _
  · exact fun world _ session hmem ↦ List.mem_map_of_mem hmem
  · intro presented _
    refine Protocol.Meets.strengthen ?_ fun _ _ _ ↦ trivial
    refine (settled_true.meets (by simp [snapshotSessions])).bind fun snapshot _ ↦ ?_
    exact commitRevoke_sound _ snapshot
  · exact fun presented successor _ hfamily _ ↦ rotateSession_sound hfamily

theorem resetPassword_sound (env : Env) (rawToken : RawToken) (newPassword : String) :
    familyProtocol.Meets number (resetPassword env rawToken newPassword) (fun _ ↦ True)
      fun _ _ ↦ True := by
  refine (settled_true.meets (by simp [findPasswordResetToken])).bind fun found _ ↦ ?_
  refine (settled_true.meets (Call.only_require _ _)).bind fun record _ ↦ ?_
  refine (settled_true.meets (Call.only_ensure _ _)).bind fun _ _ ↦ ?_
  refine (settled_true.meets (by simp [currentTime])).bind fun now _ ↦ ?_
  refine (settled_true.meets (Call.only_ensure _ _)).bind fun _ _ ↦ ?_
  refine (settled_true.meets (by simp [findUserById])).bind fun found _ ↦ ?_
  refine (settled_true.meets (Call.only_require _ _)).bind fun user _ ↦ ?_
  refine (settled_true.meets (by simp [snapshotSessions])).bind fun snapshot _ ↦ ?_
  exact commitReset_sound _ _ snapshot

/-- Every request keeps the protocol. -/
theorem serve_sound (env : Env) (request : AuthRequest) (number : ℕ) :
    familyProtocol.Meets number (request.serve env) (Fresh number) fun _ _ ↦ True := by
  refine Protocol.Meets.strengthen ?_ fun _ _ _ ↦ trivial
  cases request with
  | login email password ipAddress rememberMe => exact (login_sound ..).map
  | signup input ipAddress => exact (signup_sound ..).map
  | ssoLogin idToken ipAddress => exact (ssoLogin_sound ..).map
  | refresh rawRefreshToken ipAddress => exact (refresh_sound ..).map
  | switchTenant payload targetTenantId ipAddress denylistFirst =>
    exact (switchTenant_sound ..).map
  | logout payload denylistFirst =>
    exact (settled_true.bothInOrder settled_true (denylistPayload_quiet _) (revokeById_sound _)
      denylistFirst).map
  | logoutAll payload denylistFirst =>
    refine (settled_true.bothInOrder settled_true (denylistPayload_quiet _) ?_ denylistFirst).map
    refine (settled_true.meets (by simp [snapshotSessions])).bind fun snapshot _ ↦ ?_
    exact commitRevoke_sound _ snapshot
  | resetPassword rawToken newPassword => exact (resetPassword_sound ..).map
  | tick milliseconds => exact (settled_true.meets (tick_quiet _)).map

/-- Assumes: there is no session at the start, and every rotation finds the session it presents
live, or its family dead. Every refresh-token family has at most one live session in every reachable
state, for any interleaving of the authentication flows. -/
theorem reachable_oneLivePerFamily {env : Env} {db : Db} (hempty : db.authSessions = [])
    {config : Concurrency.Config Db SessionStep Failure (Option LoginResult)}
    (hreach : Reachable (AuthRequest.serve env) StillCurrent db config) :
    OneLivePerFamily config.db.authSessions := by
  have hinitial : FamiliesInOrder ⟨db, []⟩ := by
    constructor <;> simp [hempty, families, OneLivePerFamily]
  have hinv : familyProtocol.invariant config.toWorld :=
    Protocol.reachable_invariant (serve_sound env) hinitial hreach
  exact hinv.live

/-! ### Two refreshes with one token -/

/-- An environment for concrete runs. -/
def exampleEnv : Env where
  config := {}
  verifyPassword passwordHash password := passwordHash = "argon2$" ++ password
  hashPassword password := "argon2$" ++ password
  hashToken token := token + 1000
  verifyIdToken _ := none
  toLowerCase text := String.ofList (text.toList.map Char.toLower)
  trim text := String.ofList (trimChars text.toList)
  tenantSlug orgName suffix := orgName ++ "-" ++ toString suffix

/-- A tenant with one member, who has not logged in yet. -/
def exampleDb : Db where
  nextUuid := 10
  users := [{ id := 1, email := "ada@example.com", displayName := "Ada",
              passwordHash := some "argon2$secret", status := .active }]
  tenants := [{ id := 2, slug := "acme", name := "Acme" }]
  tenantMembers := [{ id := 3, tenantId := 2, userId := 1 }]

/-- The user logs in and refreshes. -/
def loginAndRefresh : List (Choice AuthRequest) :=
  .start (.login "ada@example.com" "secret" none true) :: finish 0 ++
    .start (.refresh 0 none) :: finish 1

/-- A witness that the condition can be met: a login and a refresh one after the other. -/
theorem reachable_oneLivePerFamily_witness :
    OneLivePerFamily ((Concurrency.Config.initial exampleDb).play
      (AuthRequest.serve exampleEnv) loginAndRefresh).db.authSessions :=
  reachable_oneLivePerFamily rfl (play_reachable (by decide))

/-- The user logs in. Two refreshes with the token of the session read its row before either of
them rotates it. -/
def overlappingRefreshes : List (Choice AuthRequest) :=
  .start (.login "ada@example.com" "secret" none true) :: finish 0 ++
    [.start (.refresh 0 none), .start (.refresh 0 none), .resume 1] ++ finish 2 ++ finish 1

/-- Without the condition a family can have two live sessions: both refreshes rotate the session. -/
theorem twoLiveSessions :
    ¬ ∀ (env : Env) (db : Db)
        (config : Concurrency.Config Db SessionStep Failure (Option LoginResult)),
      db.authSessions = [] → Reachable (AuthRequest.serve env) anyStep db config →
        OneLivePerFamily config.db.authSessions := by
  intro halways
  have hone := halways exampleEnv exampleDb _ rfl
    (play_reachable (allowsAll_anyStep _ overlappingRefreshes)) 12
  exact absurd hone (by decide +kernel)

end RallyApi.Identity

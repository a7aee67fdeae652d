import RallyApi.Identity.SessionFamilies

/-!
# Revocation is final

A bulk revocation, of a family after a reused token or of all the sessions of a user, covers the
rows its `UPDATE` has seen. A refresh that has read its session before can insert the successor
afterwards, and that successor stays live (`refreshSurvivesLogoutAll`).

Revocation is final (`RevocationIsFinal`) in every run in which no rotation comes too late
(`NoLateRotation`): no revocation commits while a live session it is about is missing from its
snapshot, and no session is rotated after a revocation that covered it
(`reachable_revocationIsFinal`).
-/

set_option autoImplicit false
set_option relaxedAutoImplicit false

namespace RallyApi.Identity

open Concurrency Platform Store

/-! ### What final means -/

/-- Once the family of a reused token is revoked, none of its sessions is live. Once the sessions of
a user are revoked, no live session of the user existed at that commit, and none was inserted by a
refresh whose presented session existed then. -/
structure RevocationIsFinal (world : World Db SessionStep) : Prop where
  family : ∀ number familyId snapshot existing,
    (number, .revoke (.family familyId) snapshot existing) ∈ world.log →
      ∀ session ∈ world.db.authSessions, session.familyId = familyId → session.isRevoked = true
  user : ∀ number userId snapshot existing,
    (number, .revoke (.user userId) snapshot existing) ∈ world.log →
      ∀ session ∈ world.db.authSessions, session.userId = userId → session.isRevoked = false →
        session.id ∉ existing ∧ ∀ other presented successor,
          (other, .rotate presented successor) ∈ world.log → successor.id = session.id →
            presented.id ∉ existing

/-- The step is a bulk revocation that covered the session: the session is one of those it is about
and existed when it committed. -/
def SessionStep.hasRevoked (session : AuthSession) : SessionStep → Bool
  | .revoke target _ existing => target.covers session ∧ session.id ∈ existing
  | _ => false

/-- The condition under which revocation is final: a bulk revocation commits only when its snapshot
has every live session it is about, and a session is rotated only when no bulk revocation that
covered it has committed. -/
def NoLateRotation (world : World Db SessionStep) : SessionStep → Prop
  | .revoke target snapshot _ => ∀ session ∈ world.db.authSessions,
    target.covers session = true → session.isRevoked = false → session.id ∈ snapshot
  | .rotate presented _ => ∀ entry ∈ world.log, entry.2.hasRevoked presented = false
  | _ => True

instance (world : World Db SessionStep) (label : SessionStep) :
    Decidable (NoLateRotation world label) :=
  match label with
  | .revoke target snapshot _ => inferInstanceAs (Decidable (∀ session ∈ world.db.authSessions,
      target.covers session = true → session.isRevoked = false → session.id ∈ snapshot))
  | .rotate presented _ =>
    inferInstanceAs (Decidable (∀ entry ∈ world.log, entry.2.hasRevoked presented = false))
  | .other | .drawUuid _ | .openSession _ | .revokeById _ => .isTrue trivial

/-! ### The protocol -/

/-- The columns of a session that never change: its identifier, family and user. -/
def AuthSession.fixed (session : AuthSession) : Uuid × Uuid × Uuid :=
  (session.id, session.familyId, session.userId)

/-- Revoking rows changes no fixed column. -/
@[simp]
theorem map_fixed_revoke (condition : AuthSession → Bool) (sessions : List AuthSession) :
    (updateWhere condition (fun session ↦ { session with isRevoked := true }) sessions).map
      AuthSession.fixed = sessions.map AuthSession.fixed :=
  map_updateWhere fun _ ↦ rfl

/-- The identifiers of a table are determined by its fixed columns. -/
theorem map_id_eq (sessions : List AuthSession) :
    sessions.map AuthSession.id = (sessions.map AuthSession.fixed).map Prod.fst := by
  rw [List.map_map]
  rfl

/-- The invariant. `rotated` and `beforeCommit` place every rotation of the history before the
revocations that covered its presented session. -/
structure RevocationsFinal (world : World Db SessionStep) : Prop where
  ids : (world.db.authSessions.map AuthSession.id).Nodup
  family : ∀ number familyId snapshot existing,
    (number, .revoke (.family familyId) snapshot existing) ∈ world.log →
      ∀ session ∈ world.db.authSessions, session.familyId = familyId → session.isRevoked = true
  covered : ∀ number target snapshot existing,
    (number, .revoke target snapshot existing) ∈ world.log →
      existing ⊆ world.db.authSessions.map AuthSession.id ∧
        ∀ session ∈ world.db.authSessions, target.covers session = true →
          session.id ∈ existing → session.isRevoked = true
  rotated : ∀ number presented successor, (number, .rotate presented successor) ∈ world.log →
    successor.userId = presented.userId ∧
      successor.fixed ∈ world.db.authSessions.map AuthSession.fixed
  beforeCommit : ∀ number presented successor other target snapshot existing,
    (number, .rotate presented successor) ∈ world.log →
      (other, .revoke target snapshot existing) ∈ world.log → target.covers presented = true →
        presented.id ∈ existing → successor.id ∈ existing

/-- The guarantee: sessions keep their fixed columns, none disappears, and a revocation records the
sessions that exist when it commits. -/
structure KeepsSessions (world : World Db SessionStep) (label : SessionStep) (after : Db) :
    Prop where
  kept : world.db.authSessions.map AuthSession.fixed ⊆ after.authSessions.map AuthSession.fixed
  records : ∀ target snapshot existing, label = .revoke target snapshot existing →
    existing = world.db.authSessions.map AuthSession.id

/-- The protocol of `refresh`, `logoutAll` and `resetPassword`. -/
def revocationProtocol : Protocol Db SessionStep where
  permits := NoLateRotation
  invariant := RevocationsFinal
  guarantee _ := KeepsSessions

/-- What `refresh` knows of the session it has read: the row is still in the table; and if it was
live, a revocation of its family can only have committed since, and has covered it. -/
structure KnowsPresented (presented : AuthSession) (world : World Db SessionStep) : Prop where
  present : presented.fixed ∈ world.db.authSessions.map AuthSession.fixed
  covered : presented.isRevoked = false → ∀ number snapshot existing,
    (number, .revoke (.family presented.familyId) snapshot existing) ∈ world.log →
      presented.id ∈ existing

/-- The invariant makes revocation final. -/
theorem RevocationsFinal.final {world : World Db SessionStep} (hinv : RevocationsFinal world) :
    RevocationIsFinal world where
  family := hinv.family
  user number userId snapshot existing hrevoke session hsession huser hlive := by
    have hnew : session.id ∉ existing := by
      intro hexisting
      have hrevoked := (hinv.covered _ _ _ _ hrevoke).2 session hsession
        (by simpa [RevokeTarget.covers] using huser) hexisting
      simp [hrevoked] at hlive
    refine ⟨hnew, fun other presented successor hrotate hid hpresented ↦ hnew ?_⟩
    obtain ⟨howner, hrow⟩ := hinv.rotated _ _ _ hrotate
    obtain ⟨row, hmem, hfixed⟩ := List.mem_map.mp hrow
    simp only [AuthSession.fixed, Prod.mk.injEq] at hfixed
    have hsame : row = session :=
      List.inj_on_of_nodup_map hinv.ids hmem hsession (hfixed.1.trans hid)
    have hcovers : RevokeTarget.covers (.user userId) presented = true := by
      simp only [RevokeTarget.covers, decide_eq_true_eq]
      rw [← howner, ← hfixed.2.2, hsame, huser]
    exact hid ▸ hinv.beforeCommit _ _ _ _ _ _ _ hrotate hrevoke hcovers hpresented

variable {number : ℕ}

/-- A quiet step keeps the protocol. -/
theorem quiet_keepsRevocations {world : World Db SessionStep} {label : SessionStep} {after : Db}
    (hinv : RevocationsFinal world) (hquiet : Quiet world.db label after) :
    revocationProtocol.Keeps number world label after := by
  have hrevoke : ∀ {other target snapshot existing},
      (other, .revoke target snapshot existing) ∈ (world.after number label after).log →
        (other, .revoke target snapshot existing) ∈ world.log :=
    fun hentry ↦ mem_log_of_ne hentry (hquiet.ne_label (by simp) (by simp))
  have hrotate : ∀ {other presented successor},
      (other, .rotate presented successor) ∈ (world.after number label after).log →
        (other, .rotate presented successor) ∈ world.log :=
    fun hentry ↦ mem_log_of_ne hentry (hquiet.ne_label (by simp) (by simp))
  obtain ⟨hsessions, hlabel⟩ := hquiet
  refine ⟨⟨by rw [hsessions]; exact fun _ ↦ id, ?_⟩, ?_⟩
  · intro target snapshot existing heq
    rcases hlabel with ⟨hother, _⟩ | ⟨hother, _⟩ <;> simp [hother] at heq
  · constructor
    · simpa [World.after, hsessions] using hinv.ids
    · simpa only [World.after, hsessions] using
        fun other familyId snapshot existing hentry ↦ hinv.family _ _ _ _ (hrevoke hentry)
    · simpa only [World.after, hsessions] using
        fun other target snapshot existing hentry ↦ hinv.covered _ _ _ _ (hrevoke hentry)
    · simpa only [World.after, hsessions] using
        fun other presented successor hentry ↦ hinv.rotated _ _ _ (hrotate hentry)
    · exact fun _ _ _ _ _ _ _ hfirst hsecond ↦
        hinv.beforeCommit _ _ _ _ _ _ _ (hrotate hfirst) (hrevoke hsecond)

theorem settled_true_revocation : Settled revocationProtocol number fun _ ↦ True where
  stable := Protocol.stable_true
  quiet _ _ _ hinv _ hquiet := ⟨quiet_keepsRevocations hinv hquiet, trivial⟩

/-- Another call takes no session away from `refresh`, and a revocation of its family covers it. -/
theorem settled_knowsPresented (presented : AuthSession) :
    Settled revocationProtocol number (KnowsPresented presented) where
  stable other _ world label after _ hknows hguarantee := by
    refine ⟨hguarantee.kept hknows.present, fun hlive revoker snapshot existing hentry ↦ ?_⟩
    rcases List.mem_cons.mp hentry with heq | hold
    · rw [hguarantee.records _ _ _ (Prod.mk.inj heq).2.symm, map_id_eq]
      exact List.mem_map_of_mem (f := Prod.fst) hknows.present
    · exact hknows.covered hlive _ _ _ hold
  quiet world label after hinv hknows hquiet := by
    have hkeeps : revocationProtocol.Keeps number world label after :=
      quiet_keepsRevocations hinv hquiet
    refine ⟨hkeeps, hkeeps.guarantee.kept hknows.present, fun hlive revoker snapshot existing hentry ↦ ?_⟩
    exact hknows.covered hlive _ _ _
      (mem_log_of_ne hentry (hquiet.ne_label (by simp) (by simp)))

/-! ### The writing steps -/

/-- What a bulk revocation does to a row: its fixed columns stay, and it is revoked if it was before
or the snapshot has it. -/
theorem exists_of_mem_revokeRows {snapshot : List Uuid} {sessions : List AuthSession}
    {session : AuthSession} (hmem : session ∈ revokeRows snapshot sessions) :
    ∃ old ∈ sessions, old.fixed = session.fixed ∧
      (session.isRevoked = true ↔ old.isRevoked = true ∨ old.id ∈ snapshot) := by
  obtain ⟨old, hold, rfl⟩ := mem_updateWhere.mp hmem
  refine ⟨old, hold, ?_⟩
  split_ifs with hseen
  · exact ⟨rfl, by simpa using Or.inr (by simpa using hseen)⟩
  · exact ⟨rfl, by simpa using fun h ↦ absurd h (by simpa using hseen)⟩

/-- Whether a revocation is about a session is a matter of its fixed columns. -/
theorem covers_congr {first second : AuthSession} (hfixed : first.fixed = second.fixed)
    (target : RevokeTarget) : target.covers first = target.covers second := by
  simp only [AuthSession.fixed, Prod.mk.injEq] at hfixed
  cases target <;> simp [RevokeTarget.covers, hfixed.2.1, hfixed.2.2]

/-- Assumes: the session was there before, with the same fixed columns, and is revoked if it was. What an
earlier revocation of its family has done to it stays. -/
theorem RevocationsFinal.family_kept {world : World Db SessionStep} {old session : AuthSession}
    (hinv : RevocationsFinal world) (hold : old ∈ world.db.authSessions)
    (hfixed : old.fixed = session.fixed) (hkept : old.isRevoked = true → session.isRevoked = true)
    {other : ℕ} {familyId : Uuid} {seen existing : List Uuid}
    (hentry : (other, .revoke (.family familyId) seen existing) ∈ world.log)
    (hfamily : session.familyId = familyId) : session.isRevoked = true := by
  simp only [AuthSession.fixed, Prod.mk.injEq] at hfixed
  exact hkept (hinv.family _ _ _ _ hentry old hold (hfixed.2.1.trans hfamily))

/-- The same of an earlier revocation that covered it. -/
theorem RevocationsFinal.covered_kept {world : World Db SessionStep} {old session : AuthSession}
    (hinv : RevocationsFinal world) (hold : old ∈ world.db.authSessions)
    (hfixed : old.fixed = session.fixed) (hkept : old.isRevoked = true → session.isRevoked = true)
    {other : ℕ} {target : RevokeTarget} {seen existing : List Uuid}
    (hentry : (other, .revoke target seen existing) ∈ world.log)
    (hcovers : target.covers session = true) (hexisting : session.id ∈ existing) :
    session.isRevoked = true := by
  refine hkept ((hinv.covered _ _ _ _ hentry).2 old hold ((covers_congr hfixed _).trans hcovers) ?_)
  simp only [AuthSession.fixed, Prod.mk.injEq] at hfixed
  exact hfixed.1 ▸ hexisting

/-- A row that is revoked stays so, and every row that the revocation is about is revoked now. -/
theorem exists_of_mem_revoked {world : World Db SessionStep} {target : RevokeTarget}
    {snapshot : List Uuid} (hpermits : NoLateRotation world (revokeLabel target snapshot world.db))
    {session : AuthSession} (hmem : session ∈ revokeRows snapshot world.db.authSessions) :
    ∃ old ∈ world.db.authSessions, old.fixed = session.fixed ∧
      (old.isRevoked = true → session.isRevoked = true) ∧
        (target.covers old = true → session.isRevoked = true) := by
  obtain ⟨old, hold, heq, hiff⟩ := exists_of_mem_revokeRows hmem
  refine ⟨old, hold, heq, fun h ↦ hiff.mpr (.inl h), fun hcovers ↦ hiff.mpr ?_⟩
  cases hlive : old.isRevoked with
  | true => exact .inl rfl
  | false => exact .inr (hpermits old hold hcovers hlive)

/-- The rows after a rotation: the new one, and those from before. -/
theorem eq_or_exists_of_mem_rotated {presentedId : Uuid} {sessions : List AuthSession}
    {successor session : AuthSession} (hmem : session ∈ revokeRow presentedId sessions ++ [successor]) :
    session = successor ∨ ∃ old ∈ sessions, old.fixed = session.fixed ∧
      (old.isRevoked = true → session.isRevoked = true) := by
  rcases List.mem_append.mp hmem with hearlier | hlast
  · obtain ⟨old, hold, rfl⟩ := mem_updateWhere.mp hearlier
    refine .inr ⟨old, hold, ?_⟩
    split_ifs <;> simp [AuthSession.fixed]
  · exact .inl (List.mem_singleton.mp hlast)

/-- When a rotation may take place, no revocation that covers the presented session has committed. -/
theorem notMem_of_noLateRotation {world : World Db SessionStep} {presented successor : AuthSession}
    (hpermits : NoLateRotation world (.rotate presented successor)) {other : ℕ} {target : RevokeTarget}
    {seen existing : List Uuid} (hentry : (other, .revoke target seen existing) ∈ world.log)
    (hcovers : target.covers presented = true) : presented.id ∉ existing := by
  intro hexisting
  have hnone := hpermits _ hentry
  simp [SessionStep.hasRevoked, hcovers, hexisting] at hnone

/-- The commit of a bulk revocation keeps the protocol. -/
theorem revoke_keepsRevocations {world : World Db SessionStep} {target : RevokeTarget}
    {snapshot : List Uuid} {after : Db} (hinv : RevocationsFinal world)
    (hpermits : NoLateRotation world (revokeLabel target snapshot world.db))
    (hsessions : after.authSessions = revokeRows snapshot world.db.authSessions) :
    revocationProtocol.Keeps number world (revokeLabel target snapshot world.db) after := by
  have hfixed : after.authSessions.map AuthSession.fixed =
      world.db.authSessions.map AuthSession.fixed := by
    rw [hsessions, revokeRows, map_fixed_revoke]
  have hids : after.authSessions.map AuthSession.id = world.db.authSessions.map AuthSession.id := by
    rw [hsessions, revokeRows, map_id_revoke]
  have hlog : ∀ {other earlier seen existing},
      (other, .revoke earlier seen existing) ∈
        (world.after number (revokeLabel target snapshot world.db) after).log →
        (earlier = target ∧ existing = world.db.authSessions.map AuthSession.id) ∨
          (other, .revoke earlier seen existing) ∈ world.log := by
    intro other earlier seen existing hentry
    rcases List.mem_cons.mp hentry with hnew | hold
    · simp only [revokeLabel, Prod.mk.injEq, SessionStep.revoke.injEq] at hnew
      exact .inl ⟨hnew.2.1, hnew.2.2.2⟩
    · exact .inr hold
  have hrotate : ∀ {other presented successor},
      (other, .rotate presented successor) ∈
        (world.after number (revokeLabel target snapshot world.db) after).log →
        (other, .rotate presented successor) ∈ world.log :=
    fun hentry ↦ mem_log_of_ne hentry (by simp [revokeLabel])
  refine ⟨⟨by rw [hfixed]; exact fun _ ↦ id, ?_⟩, hids ▸ hinv.ids, ?_, ?_, ?_, ?_⟩
  · intro _ _ existing heq
    simp only [revokeLabel, SessionStep.revoke.injEq] at heq
    exact heq.2.2.symm
  · intro other familyId seen existing hentry session hmem hfamily
    obtain ⟨old, hold, heq, hkept, hnow⟩ := exists_of_mem_revoked hpermits (hsessions ▸ hmem)
    rcases hlog hentry with ⟨htarget, -⟩ | hearlier
    · refine hnow ((covers_congr heq target).trans ?_)
      rw [← htarget]
      simpa [RevokeTarget.covers] using hfamily
    · exact hinv.family_kept hold heq hkept hearlier hfamily
  · intro other earlier seen existing hentry
    rcases hlog hentry with ⟨rfl, rfl⟩ | hearlier
    · refine ⟨hids ▸ fun _ ↦ id, fun session hmem hcovered _ ↦ ?_⟩
      obtain ⟨old, _, heq, _, hnow⟩ := exists_of_mem_revoked hpermits (hsessions ▸ hmem)
      exact hnow ((covers_congr heq _).trans hcovered)
    · refine ⟨hids ▸ (hinv.covered _ _ _ _ hearlier).1, fun session hmem hcovered hexisting ↦ ?_⟩
      obtain ⟨old, hold, heq, hkept, _⟩ := exists_of_mem_revoked hpermits (hsessions ▸ hmem)
      exact hinv.covered_kept hold heq hkept hearlier hcovered hexisting
  · exact fun other presented successor hentry ↦ hfixed ▸ hinv.rotated _ _ _ (hrotate hentry)
  · intro first presented successor second earlier seen existing hfirst hsecond hcovered hexisting
    rcases hlog hsecond with ⟨-, rfl⟩ | hearlier
    · rw [map_id_eq]
      exact List.mem_map_of_mem (f := Prod.fst) (hinv.rotated _ _ _ (hrotate hfirst)).2
    · exact hinv.beforeCommit _ _ _ _ _ _ _ (hrotate hfirst) hearlier hcovered hexisting

/-- A rotation keeps the protocol. Assumes: it comes in time, the presented row is still there, and
the successor is a new row of the same family and user. -/
theorem rotate_keepsRevocations {world : World Db SessionStep}
    {presented successor : AuthSession} {after : Db} (hinv : RevocationsFinal world)
    (hpermits : NoLateRotation world (.rotate presented successor))
    (hlive : presented.isRevoked = false) (hknows : KnowsPresented presented world)
    (hfamily : successor.familyId = presented.familyId)
    (huser : successor.userId = presented.userId)
    (hnew : successor.id ∉ world.db.authSessions.map AuthSession.id)
    (hsessions : after.authSessions =
      revokeRow presented.id world.db.authSessions ++ [successor]) :
    revocationProtocol.Keeps number world (.rotate presented successor) after := by
  have hfixed : after.authSessions.map AuthSession.fixed =
      world.db.authSessions.map AuthSession.fixed ++ [successor.fixed] := by
    rw [hsessions, List.map_append, revokeRow, map_fixed_revoke, List.map_singleton]
  have hids : after.authSessions.map AuthSession.id =
      world.db.authSessions.map AuthSession.id ++ [successor.id] := by
    rw [hsessions, List.map_append, revokeRow, map_id_revoke, List.map_singleton]
  have hlog : ∀ {other target seen existing},
      (other, .revoke target seen existing) ∈
        (world.after number (.rotate presented successor) after).log →
        (other, .revoke target seen existing) ∈ world.log :=
    fun hentry ↦ mem_log_of_ne hentry (by simp)
  refine ⟨⟨by rw [hfixed]; exact List.subset_append_left _ _, by simp⟩, ?_, ?_, ?_, ?_, ?_⟩
  · change (after.authSessions.map AuthSession.id).Nodup
    rw [hids]
    exact List.nodup_append.mpr ⟨hinv.ids, List.nodup_singleton _, by
      intro first hfirst second hsecond heq
      exact hnew (List.mem_singleton.mp hsecond ▸ heq ▸ hfirst)⟩
  · intro other familyId seen existing hentry session hmem hsame
    rcases eq_or_exists_of_mem_rotated (hsessions ▸ hmem) with rfl | ⟨old, hold, heq, hkept⟩
    · obtain rfl := hsame.symm.trans hfamily
      refine absurd (hknows.covered hlive _ _ _ (hlog hentry))
        (notMem_of_noLateRotation hpermits (hlog hentry) ?_)
      simp [RevokeTarget.covers]
    · exact hinv.family_kept hold heq hkept (hlog hentry) hsame
  · intro other target seen existing hentry
    have hsubset := (hinv.covered _ _ _ _ (hlog hentry)).1
    refine ⟨fun id hid ↦ hids ▸ List.mem_append_left _ (hsubset hid), ?_⟩
    intro session hmem hcovered hexisting
    rcases eq_or_exists_of_mem_rotated (hsessions ▸ hmem) with rfl | ⟨old, hold, heq, hkept⟩
    · exact absurd (hsubset hexisting) hnew
    · exact hinv.covered_kept hold heq hkept (hlog hentry) hcovered hexisting
  · intro other earlier later hentry
    change _ ∧ later.fixed ∈ after.authSessions.map AuthSession.fixed
    rw [hfixed]
    rcases List.mem_cons.mp hentry with heq | hold
    · obtain ⟨rfl, rfl⟩ := SessionStep.rotate.inj (Prod.mk.inj heq).2
      exact ⟨huser, List.mem_append_right _ (List.mem_singleton.mpr rfl)⟩
    · exact (hinv.rotated _ _ _ hold).imp_right (List.mem_append_left _)
  · intro first earlier later second target seen existing hfirst hsecond hcovered hexisting
    rcases List.mem_cons.mp hfirst with heq | hold
    · obtain ⟨rfl, rfl⟩ := SessionStep.rotate.inj (Prod.mk.inj heq).2
      exact absurd hexisting (notMem_of_noLateRotation hpermits (hlog hsecond) hcovered)
    · exact hinv.beforeCommit _ _ _ _ _ _ _ hold (hlog hsecond) hcovered hexisting

theorem commitRevoke_final (target : RevokeTarget) (snapshot : List Uuid) :
    revocationProtocol.Meets number (commitRevoke target snapshot) (fun _ ↦ True)
      fun _ _ ↦ True := by
  refine Protocol.meets_atomically Protocol.stable_true fun world hinv _ hpermits ↦ ?_
  exact ⟨revoke_keepsRevocations hinv hpermits rfl, trivial⟩

theorem commitReset_final (token : PasswordResetToken) (newHash : String)
    (snapshot : List Uuid) :
    revocationProtocol.Meets number (commitReset token newHash snapshot) (fun _ ↦ True)
      fun _ _ ↦ True := by
  refine Protocol.meets_atomically Protocol.stable_true fun world hinv _ hpermits ↦ ?_
  exact ⟨revoke_keepsRevocations hinv hpermits rfl, trivial⟩

theorem rotateSession_final {presented successor : AuthSession}
    (hlive : presented.isRevoked = false) (hfamily : successor.familyId = presented.familyId)
    (huser : successor.userId = presented.userId) :
    revocationProtocol.Meets number (rotateSession presented successor)
      (KnowsPresented presented) fun _ _ ↦ True := by
  refine (settled_knowsPresented _).transaction fun world value after hinv hknows hpermits hrun ↦ ?_
  simp only [bind, Except.bind] at hrun
  split at hrun
  · cases hrun
  · rename_i hinsert
    cases hrun
    obtain ⟨rfl, hnew⟩ := insertSession_ok hinsert
    rw [revokeRow, map_id_revoke] at hnew
    exact ⟨rotate_keepsRevocations hinv hpermits hlive hknows hfamily huser hnew rfl, trivial⟩

/-! ### The calls -/

/-- The requests whose interleavings revocation is about, and the passing of time. -/
inductive RevocationRequest
  | refresh (rawRefreshToken : RawToken) (ipAddress : Option String)
  | logoutAll (payload : JwtPayload) (denylistFirst : Bool)
  | resetPassword (rawToken : RawToken) (newPassword : String)
  | tick (milliseconds : ℕ)

/-- The request as one of all the authentication flows. -/
def RevocationRequest.toAuthRequest : RevocationRequest → AuthRequest
  | .refresh rawRefreshToken ipAddress => .refresh rawRefreshToken ipAddress
  | .logoutAll payload denylistFirst => .logoutAll payload denylistFirst
  | .resetPassword rawToken newPassword => .resetPassword rawToken newPassword
  | .tick milliseconds => .tick milliseconds

/-- The call that serves a request. -/
def RevocationRequest.serve (env : Env) (request : RevocationRequest) :
    AuthCall (Option LoginResult) := request.toAuthRequest.serve env

theorem refresh_final (env : Env) (rawRefreshToken : RawToken) (ipAddress : Option String) :
    revocationProtocol.Meets number (refresh env rawRefreshToken ipAddress) (fun _ ↦ True)
      fun _ _ ↦ True := by
  refine refresh_meets settled_true_revocation settled_knowsPresented ?_ ?_ ?_ _ _ _
  · intro world hinv session hmem
    refine ⟨List.mem_map_of_mem hmem, fun hlive number snapshot existing hentry ↦ ?_⟩
    have hrevoked := RevocationsFinal.family hinv _ _ _ _ hentry session hmem rfl
    simp [hlive] at hrevoked
  · intro presented _
    refine Protocol.Meets.strengthen ?_ fun _ _ _ ↦ trivial
    refine (settled_true_revocation.meets (by simp [snapshotSessions])).bind fun snapshot _ ↦ ?_
    exact commitRevoke_final _ snapshot
  · exact fun presented successor hlive hfamily huser ↦ rotateSession_final hlive hfamily huser

theorem resetPassword_final (env : Env) (rawToken : RawToken) (newPassword : String) :
    revocationProtocol.Meets number (resetPassword env rawToken newPassword) (fun _ ↦ True)
      fun _ _ ↦ True := by
  have hquiet : ∀ {β : Type} {call : AuthCall β}, call.Only Quiet →
      revocationProtocol.Meets number call (fun _ ↦ True) fun _ _ ↦ True :=
    fun hcall ↦ settled_true_revocation.meets hcall
  refine (hquiet (by simp [findPasswordResetToken])).bind fun found _ ↦ ?_
  refine (hquiet (Call.only_require _ _)).bind fun record _ ↦ ?_
  refine (hquiet (Call.only_ensure _ _)).bind fun _ _ ↦ ?_
  refine (hquiet (by simp [currentTime])).bind fun now _ ↦ ?_
  refine (hquiet (Call.only_ensure _ _)).bind fun _ _ ↦ ?_
  refine (hquiet (by simp [findUserById])).bind fun found _ ↦ ?_
  refine (hquiet (Call.only_require _ _)).bind fun user _ ↦ ?_
  refine (hquiet (by simp [snapshotSessions])).bind fun snapshot _ ↦ ?_
  exact commitReset_final _ _ snapshot

/-- Every request keeps the protocol. -/
theorem serve_final (env : Env) (request : RevocationRequest) (number : ℕ) :
    revocationProtocol.Meets number (request.serve env) (Fresh number) fun _ _ ↦ True := by
  refine Protocol.Meets.strengthen ?_ fun _ _ _ ↦ trivial
  cases request with
  | refresh rawRefreshToken ipAddress => exact (refresh_final _ _ _).map
  | logoutAll payload denylistFirst =>
    refine (settled_true_revocation.bothInOrder settled_true_revocation
      (denylistPayload_quiet _) ?_ denylistFirst).map
    refine (settled_true_revocation.meets (by simp [snapshotSessions])).bind fun snapshot _ ↦ ?_
    exact commitRevoke_final _ snapshot
  | resetPassword rawToken newPassword => exact (resetPassword_final _ _ _).map
  | tick milliseconds => exact (settled_true_revocation.meets (tick_quiet _)).map

/-- Assumes: session identifiers are distinct at the start, as their primary key has it, and no
rotation comes too late. Revocation is final in every reachable state, for any interleaving of
`refresh`, `logoutAll` and `resetPassword`. -/
theorem reachable_revocationIsFinal {env : Env} {db : Db}
    (hids : (db.authSessions.map AuthSession.id).Nodup)
    {config : Concurrency.Config Db SessionStep Failure (Option LoginResult)}
    (hreach : Reachable (RevocationRequest.serve env) NoLateRotation db config) :
    RevocationIsFinal config.toWorld := by
  have hinitial : RevocationsFinal ⟨db, []⟩ := by
    constructor <;> simp [hids]
  have hinv : revocationProtocol.invariant config.toWorld :=
    Protocol.reachable_invariant (serve_final env) hinitial hreach
  exact RevocationsFinal.final hinv

/-! ### A refresh that outlives `logoutAll` -/

/-- The user has a session, with refresh token 0. -/
def loggedInDb : Db :=
  { exampleDb with
    nextUuid := 30
    nextToken := 1
    authSessions := [{ id := 20, tenantId := 2, userId := 1, tokenHash := 1000, familyId := 21,
                       expiresAt := 1000000, createdAt := 0 }] }

/-- The access token of that session. -/
def loggedInPayload : JwtPayload :=
  { sub := 1, tenantId := 2, sessionId := 20, jti := 22, permissions := [],
    authMethod := .password, iat := 0, exp := 900 }

/-- The user refreshes, and then logs out everywhere. -/
def refreshThenLogoutAll : List (Choice RevocationRequest) :=
  .start (.refresh 0 none) :: finish 0 ++ .start (.logoutAll loggedInPayload true) :: finish 1

/-- A witness that the condition can be met: a refresh and a logout one after the other. -/
theorem reachable_revocationIsFinal_witness :
    RevocationIsFinal ((Concurrency.Config.initial loggedInDb).play
      (RevocationRequest.serve exampleEnv) refreshThenLogoutAll).toWorld :=
  reachable_revocationIsFinal (by decide) (play_reachable (by decide +kernel))

/-- A refresh reads the session, the user logs out everywhere, and then the refresh rotates. -/
def logoutAllDuringRefresh : List (Choice RevocationRequest) :=
  [.start (.refresh 0 none), .resume 0, .start (.logoutAll loggedInPayload true)] ++ finish 1 ++
    finish 0

/-- The successor that refresh inserts. -/
def lateSuccessor : AuthSession :=
  { id := 30, tenantId := 2, userId := 1, tokenHash := 1001, familyId := 21,
    expiresAt := 2592000000, createdAt := 0 }

/-- Without the condition revocation is not final: the successor of the session that `logoutAll` has
revoked is live afterwards. -/
theorem refreshSurvivesLogoutAll :
    ¬ ∀ (env : Env) (db : Db)
        (config : Concurrency.Config Db SessionStep Failure (Option LoginResult)),
      (db.authSessions.map AuthSession.id).Nodup →
        Reachable (RevocationRequest.serve env) anyStep db config →
          RevocationIsFinal config.toWorld := by
  intro halways
  have hfinal := halways exampleEnv loggedInDb _ (by decide)
    (play_reachable (allowsAll_anyStep _ logoutAllDuringRefresh))
  have hbefore := (hfinal.user 1 1 [20] [20] (by decide +kernel) lateSuccessor (by decide +kernel)
    rfl rfl).2 0 (loggedInDb.authSessions.head (by decide)) lateSuccessor (by decide +kernel) rfl
  exact hbefore (by decide)

end RallyApi.Identity

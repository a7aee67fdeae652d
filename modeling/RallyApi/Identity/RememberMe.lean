import RallyApi.Identity.Issuance
import RallyApi.Identity.SessionFamilies

/-!
# Logins that are not remembered

A login without `rememberMe` opens a session of 24 hours. `refresh` gives the successor the lifetime that
is configured for all others, whatever the login asked for, so that the family outlives its day
(`rememberedAnyway`). The expiry is set on the wall clock of the process, which may be set back before the
day is over (`clockSetBack`).

`forgotten_within_day` says that nothing else does: in UTC, or any zone that is always as far from it, as
long as no refresh rotates a session of such a family, or the configured lifetime is a day at most, each of
its sessions expires at most 24 hours after its own creation.
-/

set_option autoImplicit false
set_option relaxedAutoImplicit false

namespace RallyApi.Identity

open Concurrency Platform Store

/-- A login without `rememberMe`. -/
def AuthRequest.forgets : AuthRequest → Bool
  | .login _ _ _ rememberMe => !rememberMe
  | _ => false

/-- The step opens the family for a login that is not remembered. -/
def opensForgotten (requests : List AuthRequest) (familyId : Uuid) (entry : ℕ × SessionStep) : Bool :=
  match entry.2 with
  | .openSession session => session.familyId = familyId && requests[entry.1]?.any AuthRequest.forgets
  | _ => false

/-- The family was started by a login that is not remembered. -/
def Forgotten (requests : List AuthRequest) (familyId : Uuid) (world : World Db SessionStep) : Prop :=
  ∃ entry ∈ world.log, opensForgotten requests familyId entry = true

/-- The session expires at most 24 hours after its creation. -/
def AuthSession.WithinDay (session : AuthSession) : Prop :=
  session.expiresAt ≤ session.createdAt + 24 * 3600 * 1000

/-- The sessions of such families expire at most 24 hours after their creation. -/
def ForgottenWithinDay (requests : List AuthRequest) (world : World Db SessionStep) : Prop :=
  ∀ session ∈ world.db.authSessions, Forgotten requests session.familyId world → session.WithinDay

/-- The step rotates a session of such a family. -/
def RotatesForgotten (requests : List AuthRequest) (world : World Db SessionStep) : SessionStep → Prop
  | .rotate presented _ => Forgotten requests presented.familyId world
  | _ => False

instance (requests : List AuthRequest) (familyId : Uuid) (world : World Db SessionStep) :
    Decidable (Forgotten requests familyId world) :=
  inferInstanceAs (Decidable (∃ entry ∈ _, _))

instance (session : AuthSession) : Decidable session.WithinDay := inferInstanceAs (Decidable (_ ≤ _))

instance (requests : List AuthRequest) (world : World Db SessionStep) :
    Decidable (ForgottenWithinDay requests world) :=
  inferInstanceAs (Decidable (∀ session ∈ _, _ → _))

instance (requests : List AuthRequest) (world : World Db SessionStep) (label : SessionStep) :
    Decidable (RotatesForgotten requests world label) :=
  match label with
  | .rotate presented _ => inferInstanceAs (Decidable (Forgotten requests presented.familyId world))
  | .other | .drawUuid _ | .openSession _ | .revokeById _ | .revoke _ _ _ => .isFalse id

variable {env : Env} {requests : List AuthRequest}

theorem exists_of_opensForgotten {familyId : Uuid} {number : ℕ} {label : SessionStep}
    (hopens : opensForgotten requests familyId (number, label) = true) :
    ∃ session request, label = .openSession session ∧ session.familyId = familyId ∧
      requests[number]? = some request ∧ request.forgets = true := by
  cases label with
  | openSession session =>
    simp only [opensForgotten, Bool.and_eq_true, decide_eq_true_eq, Option.any_eq_true] at hopens
    obtain ⟨hfamily, request, hrequest, hforgets⟩ := hopens
    exact ⟨session, request, rfl, hfamily, hrequest, hforgets⟩
  | other | drawUuid | rotate | revokeById | revoke => cases hopens

theorem lifetime_of_forgets {request : AuthRequest} (hforgets : request.forgets = true) :
    request.lifetime env = 24 * 3600 := by
  cases request with
  | login email password ipAddress rememberMe =>
    simp only [AuthRequest.forgets, Bool.not_eq_true'] at hforgets
    subst hforgets
    rfl
  | signup | ssoLogin | refresh | switchTenant | logout | logoutAll | resetPassword | tick => cases hforgets

/-- Assumes: the offset from UTC never changes. So many seconds on the clock are so many seconds. -/
theorem AuthSession.LivesFor.withinDay {session : AuthSession} {seconds : ℕ} {offset : ℤ}
    (hzone : env.timeZone = .fixed offset) (hlives : session.LivesFor env seconds)
    (hshort : seconds ≤ 24 * 3600) : session.WithinDay := by
  obtain ⟨asked, hasked, hexpires⟩ := hlives
  rw [hzone, TimeZone.fixed_addSeconds] at hexpires
  rw [AuthSession.WithinDay, hexpires]
  have hday : (seconds : ℤ) * 1000 ≤ 24 * 3600 * 1000 := by omega
  exact Int.add_le_add hasked hday

/-- Assumes: a process in UTC or another zone whose offset never changes, and a run from a store without
sessions in which the configured lifetime is a day at most, or no refresh rotates a session of a family that
was started by a login without `rememberMe`. Each session of such a family expires at most 24 hours after
its creation. -/
theorem forgotten_within_day {offset : ℤ} (hzone : env.timeZone = .fixed offset) {db : Db}
    (hempty : db.authSessions = []) {config : IssuanceRun}
    (hreach : ReachableBy (AuthRequest.serve env) anyStep db requests config)
    (hcondition : refreshTtlSeconds env.config.jwtRefreshExpiry ≤ 24 * 3600 ∨
      ∀ entry ∈ config.log, ¬ RotatesForgotten requests config.toWorld entry.2) :
    ForgottenWithinDay requests config.toWorld := by
  obtain ⟨hinv, -⟩ := reachable_issuance hempty hreach
  intro row hrow hforgotten
  obtain ⟨⟨other, label⟩, hentry, session, hwrote, hsame⟩ := hinv.rows row hrow
  have hfamily : session.unrevoked.familyId = row.unrevoked.familyId := by rw [hsame]
  suffices hlives : session.unrevoked.WithinDay by
    rw [hsame] at hlives
    exact hlives
  cases label with
  | openSession opened =>
    obtain rfl := Option.some.inj hwrote
    -- the family has been drawn by one call, so it is the login that opened this session
    obtain ⟨⟨number, first⟩, hfirst, hopens⟩ := hforgotten
    obtain ⟨start, request, rfl, hstart, hrequest, hforgets⟩ := exists_of_opensForgotten hopens
    have hdrawn := (hinv.opened other opened hentry).1
    have hstartDrawn := (hinv.opened number start hfirst).1
    rw [hstart] at hstartDrawn
    obtain rfl := hinv.drawn.owner other number _ hdrawn (hfamily ▸ hstartDrawn)
    have hlives := (hinv.opened other opened hentry).2 request hrequest
    exact hlives.withinDay hzone (lifetime_of_forgets hforgets).le
  | rotate presented successor =>
    obtain rfl := Option.some.inj hwrote
    obtain ⟨hkept, hlives⟩ := hinv.rotated other presented successor hentry
    rcases hcondition with hshort | hnone
    · exact hlives.withinDay hzone hshort
    · refine absurd ?_ (hnone _ hentry)
      change Forgotten requests presented.familyId config.toWorld
      rw [← hkept]
      exact hfamily ▸ hforgotten
  | other | drawUuid | revokeById | revoke => cases hwrote

/-! ### A day that lasts a month -/

/-- A remembered login is refreshed. Then the user logs in without being remembered. -/
def rememberedRefreshed : List (Choice AuthRequest) :=
  .start (.login "ada@example.com" "secret" none true) :: finish 0 ++
    .start (.refresh 0 none) :: finish 1 ++
    .start (.login "ada@example.com" "secret" none false) :: finish 2

/-- A witness that the condition can be met: only the remembered login is refreshed. -/
theorem forgotten_within_day_witness :
    ForgottenWithinDay (requestsOf rememberedRefreshed)
      ((Concurrency.Config.initial exampleDb : IssuanceRun).play (AuthRequest.serve exampleEnv)
        rememberedRefreshed).toWorld :=
  forgotten_within_day (show exampleEnv.timeZone = .fixed 0 from rfl) rfl
    (play_reachableBy _ _ rememberedRefreshed) (.inr (by decide +kernel))

/-- The user logs in without being remembered, and refreshes. -/
def forgottenRefreshed : List (Choice AuthRequest) :=
  .start (.login "ada@example.com" "secret" none false) :: finish 0 ++
    .start (.refresh 0 none) :: finish 1

/-- The successor lives for the configured 30 days. -/
theorem rememberedAnyway :
    ¬ ∀ (env : Env) (db : Db) (requests : List AuthRequest) (config : IssuanceRun),
      db.authSessions = [] → ReachableBy (AuthRequest.serve env) anyStep db requests config →
      ForgottenWithinDay requests config.toWorld := by
  intro halways
  have hday := halways exampleEnv exampleDb _ _ rfl (play_reachableBy _ _ forgottenRefreshed)
  exact absurd hday (by decide +kernel)

/-- A zone an hour ahead of UTC until ten hours after the epoch, when its clocks are set back. The hour that
the clocks show twice is its first. -/
def setBack : TimeZone where
  localTime date := if date < 36000000 then date + 3600000 else date
  utc time := if time < 39600000 then time - 3600000 else time

/-- In such a zone the day of a login may have 25 hours, without a refresh. -/
theorem clockSetBack :
    ¬ ForgottenWithinDay [.login "ada@example.com" "secret" none false]
      ((Concurrency.Config.initial exampleDb : IssuanceRun).play
        (AuthRequest.serve { exampleEnv with timeZone := setBack })
        (.start (.login "ada@example.com" "secret" none false) :: finish 0)).toWorld := by
  decide +kernel

end RallyApi.Identity

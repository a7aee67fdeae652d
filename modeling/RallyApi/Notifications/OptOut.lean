import RallyApi.Notifications.Pipeline

/-!
# Opting out of e-mails

An e-mail for a notification should be sent only if its recipient has the e-mail preference enabled when
the e-mail relay processes it, and suppressed otherwise (`Honours`). `honoursAll_iff` says that a run
honours the preferences exactly when none of these e-mails met a disabled one: the row of an e-mail does
not name its recipient, so the check of the preference is never made (`never_suppressed`).
-/

set_option autoImplicit false
set_option relaxedAutoImplicit false

namespace RallyApi.Notifications

open Concurrency Outbox Platform

/-- What the e-mail relay makes of an e-mail honours the preference it finds: it is sent only if the
preference is enabled, and suppressed if it is not. -/
def Honours (enabled : Bool) (dispatch : Dispatch) : Prop :=
  (dispatch = .sent → enabled = true) ∧ (enabled = false → dispatch = .suppressed)

/-- Every e-mail for a notification that was processed in the run honours the preference. -/
def HonoursAll (log : List (ℕ × NotificationStep)) : Prop :=
  ∀ entry ∈ log, ∀ row enabled dispatch,
    entry.2 = .emailProcessed row (some enabled) dispatch → Honours enabled dispatch

/-- No e-mail for a notification that was processed in the run met a disabled preference. -/
def NoneOptedOut (log : List (ℕ × NotificationStep)) : Prop :=
  ∀ entry ∈ log, ∀ row enabled dispatch,
    entry.2 = .emailProcessed row (some enabled) dispatch → enabled = true

/-- An e-mail that is not suppressed honours the preference exactly when it is enabled. -/
theorem honours_iff {enabled : Bool} {dispatch : Dispatch} (hdispatch : dispatch ≠ .suppressed) :
    Honours enabled dispatch ↔ enabled = true := by
  cases enabled with
  | true => simp [Honours]
  | false => simp [Honours, hdispatch]

section Runs

variable {db : Db} {config : NotificationConfig}

/-- The e-mail relay never suppresses an e-mail. -/
theorem never_suppressed (hreach : Reachable NotificationRequest.serve anyStep db.cleared config) :
    ∀ entry ∈ config.log, ∀ row wanted, entry.2 ≠ .emailProcessed row wanted .suppressed := by
  refine pipeline_along (fun world ↦
    ∀ entry ∈ world.log, ∀ row wanted, entry.2 ≠ .emailProcessed row wanted .suppressed)
    (by simp) ?_ hreach
  intro number world label after _ _ _ heffect hnever entry hentry row wanted
  rcases List.mem_cons.mp hentry with rfl | hold
  · intro hsuppressed
    have hreports := heffect.reports
    rw [show label = _ from hsuppressed] at hreports
    exact hreports rfl
  · exact hnever entry hold row wanted

/-- A run honours the preferences exactly when every e-mail for a notification, at the moment it is
processed, finds the preference of its recipient enabled. -/
theorem honoursAll_iff (hreach : Reachable NotificationRequest.serve anyStep db.cleared config) :
    HonoursAll config.log ↔ NoneOptedOut config.log := by
  refine forall₂_congr fun entry hentry ↦ forall₃_congr fun row enabled dispatch ↦ ?_
  refine forall_congr' fun hprocessed ↦ honours_iff ?_
  rintro rfl
  exact never_suppressed hreach entry hentry row (some enabled) hprocessed

end Runs

/-! ### Concrete runs -/

/-- The notification is relayed, the recipient opts out of e-mails, and the e-mail relay runs. -/
def optedOut : List (Choice NotificationRequest) :=
  quietRelay ++
    [.start (.upsertPreference { tenantId := 1, userId := 7, type := "*", email := some false }),
      .resume 3, .start (.relayEmails 0)] ++ finish 4

/-- A witness: the recipient opts out, and the e-mail is processed. -/
theorem honoursAll_iff_witness :
    HonoursAll ((Config.initial inviterDb.cleared).play NotificationRequest.serve optedOut).log ↔
      NoneOptedOut ((Config.initial inviterDb.cleared).play NotificationRequest.serve optedOut).log :=
  honoursAll_iff (play_reachable (allowsAll_anyStep _ _))

/-- The step sends an e-mail to a recipient who has opted out. -/
def NotificationStep.ignoresOptOut : NotificationStep → Bool
  | .emailProcessed _ (some false) .sent => true
  | _ => false

theorem exists_of_ignoresOptOut {label : NotificationStep} (hignores : label.ignoresOptOut = true) :
    ∃ row, label = .emailProcessed row (some false) .sent := by
  unfold NotificationStep.ignoresOptOut at hignores
  split at hignores
  · exact ⟨_, rfl⟩
  · cases hignores

/-- Not every opt-out is honoured: the e-mail is sent although its recipient has opted out before. -/
theorem optedOut_sent :
    ¬ HonoursAll ((Config.initial inviterDb.cleared).play NotificationRequest.serve optedOut).log := by
  intro hhonours
  have hany : ((Config.initial inviterDb.cleared).play NotificationRequest.serve optedOut).log.any
      (fun entry ↦ entry.2.ignoresOptOut) = true := by decide +kernel
  obtain ⟨entry, hentry, hignores⟩ := List.any_eq_true.mp hany
  obtain ⟨row, hsent⟩ := exists_of_ignoresOptOut hignores
  exact absurd ((hhonours entry hentry row false .sent hsent).1 rfl) (by decide)

end RallyApi.Notifications

import RallyApi.Concurrency.Returns
import RallyApi.Notifications.Deduplication

/-!
# Retries of a relay

A row of the outbox whose recipient can be reached should have all its effects in the end: the
notification, the push and the e-mail (`Notified`), however often its transaction was aborted before.

It has them in every run in which no attempt finds the notification of another one (`notified_of_sent`):
the attempt that is marked as sent has then created the notification, so there is a post-commit task, and
the task does the rest. An attempt that finds the notification of an aborted one returns without a task,
and the row is marked as sent with neither push nor e-mail (`abortedRelay_forgets`).
-/

set_option autoImplicit false
set_option relaxedAutoImplicit false

namespace RallyApi.Notifications

open Concurrency Outbox Platform Store

/-- The effects of a row: its notification, the e-mail for it and the push. -/
def Notified (row : NotificationOutboxRow) (config : NotificationConfig) : Prop :=
  ∃ notification ∈ config.db.inAppNotifications, notification.CreatedFor row ∧
    some (notificationEmailKey notification.id) ∈
      config.db.emailOutbox.map EmailOutboxRow.idempotencyKey ∧
    ∃ entry ∈ config.log, ∃ payload, entry.2 = .published payload ∧ payload.Shows notification

/-- Every post-commit task of the row has been run and got through without an error. -/
def TasksCompleted (row : NotificationOutboxRow) (config : NotificationConfig) : Prop :=
  ∀ task ∈ config.db.tasks, task.row.id = row.id →
    ∃ call ∈ config.calls, call.returned = some (some (task, true))

section Runs

variable {expects : RowId → Prop} {db : Db} {config : NotificationConfig} {row : NotificationOutboxRow}

/-- A notification created for a row is created for every row with its content. -/
theorem InAppNotification.CreatedFor.of_content {notification : InAppNotification}
    {other : NotificationOutboxRow} (hcreated : notification.CreatedFor other)
    (hsame : other.content = row.content) : notification.CreatedFor row := by
  change notification.CreatedFor row.content
  rw [← hsame]
  exact hcreated

/-- Assumes: throughout the run the recipients of some rows exist and have both channels enabled, and no
insert of a notification for one of them finds it there already. Such a row, once it is sent and its
post-commit task has got through, has all its effects. -/
theorem notified_of_sent
    (hreach : Reachable NotificationRequest.serve (Throughout expects) db.cleared config)
    (hrow : row ∈ config.db.notificationOutbox) (hexpected : expects row.id)
    (hsent : row.status = .sent) (hcompleted : TasksCompleted row config) : Notified row config := by
  have hkept := reachable_pipeline (fun _ _ h ↦ h) hreach
  have hconsistent : Consistent expects config.db := hkept.invariant
  obtain ⟨task, htask, hid, henabled⟩ := hconsistent.sent row hrow hexpected hsent
  obtain ⟨hscheduled, notification, hnotification, hpayload, hcreated⟩ :=
    hconsistent.tasks task htask
  obtain ⟨call, hcall, hreturned⟩ := hcompleted task htask hid
  obtain ⟨number, hnumber⟩ := List.mem_iff_getElem?.mp hcall
  rw [Call.returned_eq_some.mp hreturned] at hnumber
  obtain ⟨hpublished, hemail⟩ := hkept.returned hnumber task rfl
  have hnotificationId : task.notificationId = notification.id :=
    congrArg NotificationPubSubPayload.notificationId hpayload.symm
  refine ⟨notification, hnotification, hcreated.of_content ?_, ?_, ?_⟩
  · exact hconsistent.content_eq hscheduled (NotificationOutboxRow.scheduled_of_mem hrow) hid
  · rw [← hnotificationId]
    exact hemail (hid ▸ hexpected) henabled
  · obtain ⟨entry, hentry, hlabel⟩ := hpublished
    exact ⟨entry, hentry, task.payload, hlabel, .inr hpayload⟩

end Runs

/-! ### Concrete runs -/

instance {row : NotificationOutboxRow} {db : Db} : Decidable (row.Wanted db) :=
  inferInstanceAs (Decidable (_ ∧ _))

instance {expects : RowId → Prop} [DecidablePred expects] {world : World Db NotificationStep}
    {label : NotificationStep} : Decidable (WantedThroughout expects world label) :=
  inferInstanceAs (Decidable (∀ row ∈ world.db.notificationOutbox, expects row.id → row.Wanted world.db))

instance {expects : RowId → Prop} [DecidablePred expects] :
    (label : NotificationStep) → Decidable (InsertsFirst expects label)
  | .inserted row none => inferInstanceAs (Decidable (¬ expects row.id))
  | .inserted _ (some _) | .other | .emailScheduled .. | .published _ | .emailProcessed ..
  | .message .. | .closed _ | .subscribing .. | .registered .. | .unsubscribed .. | .resumed _ =>
    .isTrue trivial

instance {expects : RowId → Prop} [DecidablePred expects] {world : World Db NotificationStep}
    {label : NotificationStep} : Decidable (Throughout expects world label) :=
  inferInstanceAs (Decidable (_ ∧ _))

/-- The configuration after a relay that goes through at once. -/
def relayedConfig : NotificationConfig :=
  (Config.initial inviterDb.cleared).play NotificationRequest.serve quietRelay

/-- The configuration after a relay that is aborted, and another that goes through. -/
def retriedConfig : NotificationConfig :=
  (Config.initial inviterDb.cleared).play NotificationRequest.serve retriedRelay

/-- The row of the notification once it is sent. -/
def sentRow : NotificationOutboxRow :=
  { acceptance.row 0 0 with status := .sent, sentAt := some 0 }

instance {row : NotificationOutboxRow} {config : NotificationConfig} :
    Decidable (TasksCompleted row config) :=
  inferInstanceAs (Decidable (∀ task ∈ config.db.tasks, task.row.id = row.id →
    ∃ call ∈ config.calls, call.returned = some (some (task, true))))

/-- A witness: a relay that goes through at once. -/
theorem notified_of_sent_witness : Notified sentRow relayedConfig := by
  have hreach : Reachable NotificationRequest.serve (Throughout (· = 0)) inviterDb.cleared
      relayedConfig := play_reachable (by decide +kernel)
  exact notified_of_sent hreach (by decide +kernel) rfl rfl (by decide +kernel)

/-- A row that has been sent may have notified nobody: the first attempt is aborted once it has created the
notification, and the row ends as sent with no push and no e-mail. -/
theorem abortedRelay_forgets :
    ¬ ∀ (config : NotificationConfig) (row : NotificationOutboxRow),
      Reachable NotificationRequest.serve (WantedThroughout (· = row.id)) inviterDb.cleared config →
        row ∈ config.db.notificationOutbox → row.status = .sent → TasksCompleted row config →
          Notified row config := by
  intro halways
  have hreach : Reachable NotificationRequest.serve (WantedThroughout (· = sentRow.id))
      inviterDb.cleared retriedConfig := play_reachable (by decide +kernel)
  obtain ⟨notification, _, _, hemail, _⟩ := halways retriedConfig sentRow hreach (by decide +kernel)
    (by decide +kernel) (by decide +kernel)
  have hempty : retriedConfig.db.emailOutbox.map EmailOutboxRow.idempotencyKey = [] := by
    decide +kernel
  rw [hempty] at hemail
  cases hemail

end RallyApi.Notifications

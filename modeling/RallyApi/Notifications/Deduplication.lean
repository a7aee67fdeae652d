import RallyApi.Notifications.Pipeline

/-!
# No notification twice

For a row of the outbox, at most one notification is ever created, and at most one e-mail is ever
scheduled: in every run, with any number of relays in any number of processes, transactions that are
aborted after `processRow`, and post-commit tasks that are run again (`noDuplicate`).

What is created leaves a mark that lasts, and that every later attempt finds: the notification carries the
source event identifier of the row, and the e-mail the key of the notification.
-/

set_option autoImplicit false
set_option relaxedAutoImplicit false

namespace RallyApi.Notifications

open Concurrency Outbox Platform Store

/-! ### The events -/

/-- The step creates a notification for the row. -/
def NotificationStep.creates (id : RowId) : NotificationStep → Bool
  | .inserted row created => row.id = id ∧ created.isSome
  | _ => false

/-- The step schedules an e-mail for the notification of the row. -/
def NotificationStep.schedulesEmail (id : RowId) : NotificationStep → Bool
  | .emailScheduled row _ => row.id = id
  | _ => false

/-! ### The marks -/

/-- A notification with the source event identifier of the row is there. -/
def Created (id : RowId) (world : World Db NotificationStep) : Prop :=
  ∃ row : NotificationOutboxRow, row.id = id ∧ row.Scheduled world.db ∧
    ∃ source, row.sourceEventId = .ok source ∧
      some source ∈ world.db.inAppNotifications.map InAppNotification.sourceEventId

/-- An e-mail with the key of the row's notification is there. -/
def EmailScheduled (id : RowId) (world : World Db NotificationStep) : Prop :=
  ∃ task ∈ world.db.tasks, task.row.id = id ∧
    some (notificationEmailKey task.notificationId) ∈
      world.db.emailOutbox.map EmailOutboxRow.idempotencyKey

section Marks

variable {expects : RowId → Prop} {db : Db} {id : RowId}

/-- A scheduled row is known by its identifier. -/
theorem Consistent.content_eq (hconsistent : Consistent expects db) {first second : NotificationOutboxRow}
    (hfirst : first.Scheduled db) (hsecond : second.Scheduled db) (hid : first.id = second.id) :
    first.content = second.content := by
  obtain ⟨row, hrow, hsame⟩ := List.mem_map.mp hfirst
  obtain ⟨other, hother, hotherSame⟩ := List.mem_map.mp hsecond
  have hids : row.content.id = other.content.id := by
    rw [hsame, hotherSame]
    exact hid
  obtain rfl := List.inj_on_of_nodup_map hconsistent.outboxIds hrow hother hids
  exact hsame.symm.trans hotherSame

/-- So its notifications have one source event identifier. -/
theorem Consistent.sourceEventId_eq (hconsistent : Consistent expects db)
    {first second : NotificationOutboxRow} (hfirst : first.Scheduled db) (hsecond : second.Scheduled db)
    (hid : first.id = second.id) : first.sourceEventId = second.sourceEventId := by
  rw [← content_sourceEventId, hconsistent.content_eq hfirst hsecond hid, content_sourceEventId]

/-- The tasks of a row are about one notification. -/
theorem Consistent.notificationId_eq (hconsistent : Consistent expects db)
    {first second : PostCommitTask} (hfirst : first ∈ db.tasks) (hsecond : second ∈ db.tasks)
    (hid : first.row.id = second.row.id) : first.notificationId = second.notificationId := by
  obtain ⟨hrow, one, hone, honePayload, _, source, hsource, honeSource⟩ :=
    hconsistent.tasks first hfirst
  obtain ⟨hotherRow, two, htwo, htwoPayload, _, other, hother, htwoSource⟩ :=
    hconsistent.tasks second hsecond
  rw [hconsistent.sourceEventId_eq hrow hotherRow hid, hother] at hsource
  obtain rfl := Except.ok.inj hsource
  obtain rfl := List.inj_on_of_nodup_map hconsistent.sources hone htwo
    (honeSource.trans htwoSource.symm)
  exact congrArg NotificationPubSubPayload.notificationId (honePayload.symm.trans htwoPayload)

/-- The source event identifiers only become more. -/
theorem Effect.sources {before after : Db} {label : NotificationStep}
    (heffect : Effect before label after) {source : Option Uuid}
    (hsource : source ∈ before.inAppNotifications.map InAppNotification.sourceEventId) :
    source ∈ after.inAppNotifications.map InAppNotification.sourceEventId := by
  obtain ⟨notification, hnotification, rfl⟩ := List.mem_map.mp hsource
  obtain ⟨later, hlater, hsame⟩ := heffect.exists_later hnotification
  refine List.mem_map.mpr ⟨later, hlater, ?_⟩
  change later.content.sourceEventId = notification.content.sourceEventId
  rw [hsame]

theorem persistent_created (id : RowId) : (pipeline expects).Persistent (Created id) := by
  rintro number world label after _ ⟨row, hid, hrow, source, hsource, hmem⟩ heffect
  exact ⟨row, hid, hrow.mono heffect, source, hsource, Effect.sources heffect hmem⟩

theorem persistent_emailScheduled (id : RowId) :
    (pipeline expects).Persistent (EmailScheduled id) := by
  rintro number world label after _ ⟨task, htask, hid, hkey⟩ heffect
  exact ⟨task, heffect.tasks.subset htask, hid, heffect.emails.subset hkey⟩

end Marks

/-! ### The result -/

section Runs

variable {db : Db} {config : NotificationConfig}

/-- At most one notification is ever created for a row of the outbox, and at most one e-mail is ever
scheduled for it. -/
theorem noDuplicate (hreach : Reachable NotificationRequest.serve anyStep db.cleared config) (id : RowId) :
    (config.log.countP fun entry ↦ entry.2.creates id) ≤ 1 ∧
      (config.log.countP fun entry ↦ entry.2.schedulesEmail id) ≤ 1 := by
  refine ⟨pipeline_atMostOnce (persistent_created id) ?_ hreach,
    pipeline_atMostOnce (persistent_emailScheduled id) ?_ hreach⟩
  · intro number world label after hconsistent heffect hcreates
    cases label with
    | inserted row created =>
      obtain ⟨hid, hcreated⟩ := of_decide_eq_true hcreates
      obtain ⟨notificationId, rfl⟩ := Option.isSome_iff_exists.mp hcreated
      obtain ⟨hrow, hinsert⟩ := heffect.reports
      obtain ⟨source, hsource, hfresh, hmem⟩ := hinsert notificationId rfl
      refine ⟨?_, row, hid, hrow.mono heffect, source, hsource, hmem⟩
      rintro ⟨other, hother, hscheduled, taken, htaken, hthere⟩
      rw [hconsistent.sourceEventId_eq hscheduled hrow (hother.trans hid.symm), hsource] at htaken
      obtain rfl := Except.ok.inj htaken
      exact hfresh hthere
    | _ => cases hcreates
  · intro number world label after hconsistent heffect hschedules
    cases label with
    | emailScheduled row notificationId =>
      have hid : row.id = id := of_decide_eq_true hschedules
      obtain ⟨⟨task, htask, rfl, rfl⟩, hfresh, hmem⟩ := heffect.reports
      refine ⟨?_, task, heffect.tasks.subset htask, hid, hmem⟩
      rintro ⟨other, hother, hotherId, hthere⟩
      rw [hconsistent.notificationId_eq hother htask (hotherId.trans hid.symm)] at hthere
      exact hfresh hthere
    | _ => cases hschedules

end Runs

/-- A witness: a relay that is aborted after `processRow`, and another that goes through. -/
theorem noDuplicate_witness :
    let config := (Config.initial inviterDb.cleared).play NotificationRequest.serve retriedRelay
    (config.log.countP fun entry ↦ entry.2.creates 0) ≤ 1 ∧
      (config.log.countP fun entry ↦ entry.2.schedulesEmail 0) ≤ 1 :=
  noDuplicate (play_reachable (allowsAll_anyStep _ _)) 0

end RallyApi.Notifications

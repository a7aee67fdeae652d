import RallyApi.Notifications.Answering

/-!
# Independence of the channels

Whether a row of the notification outbox leads to an e-mail should depend on the e-mail preference of the
recipient and not on the in-app preference. It depends on both (`addsEmail_iff`): `processRow` returns at
once where the in-app channel is disabled, and nobody asks about the e-mail channel.

So two tables of preferences that agree on the e-mail channel lead to the same e-mails exactly if they
agree on the in-app channel too, or no e-mail is possible at all: the e-mail channel is disabled, or the
row is not `Mailable` (`addsEmail_alike_iff`).
-/

set_option autoImplicit false
set_option relaxedAutoImplicit false

namespace RallyApi.Notifications

open Concurrency Outbox Platform Store

/-- `processRow` followed by its post-commit task. -/
def processWithTask (row : NotificationOutboxRow) : NotificationCall Unit := do
  let task ← processNotification row
  match task with
  | none => pure ()
  | some task => do
    let _ ← task.run
    pure ()

/-- The row can lead to an e-mail, whatever the preferences are: its template is known and its title fits;
its source event identifier is a UUID that no notification carries; the recipient has an address; and the
identifiers that are drawn and the key of the e-mail are not taken. -/
structure Mailable (row : NotificationOutboxRow) (db : Db) : Prop where
  title : ∃ rendered, renderNotification row.type row.vars = .ok rendered ∧
    FitsVarchar 500 rendered.title
  source : ∃ source, row.sourceEventId = .ok source ∧
    some source ∉ db.inAppNotifications.map InAppNotification.sourceEventId
  id : db.nextUuid ∉ db.inAppNotifications.map InAppNotification.id
  address : ∃ address ∈ db.recipientEmail row.recipientId, FitsVarchar 320 address
  key : FitsVarchar 255 (notificationEmailKey db.nextUuid)
  fresh : some (notificationEmailKey db.nextUuid) ∉
    db.emailOutbox.map EmailOutboxRow.idempotencyKey
  emailId : db.draw.nextUuid ∉ db.emailOutbox.map fun row ↦ row.id

section Emails

variable {db : Db} {row : NotificationOutboxRow}

/-- `processRow` leaves the e-mails alone. -/
theorem emailOutbox_processNotification :
    ((processNotification row).run db).2.emailOutbox = db.emailOutbox := by
  refine processNotification_keeps (fun after ↦ after.emailOutbox = db.emailOutbox)
    (fun input before created after hbefore hok ↦ ?_) rfl
  rcases createNotification_cases hok with rfl | ⟨source, _, rfl⟩
  · exact hbefore
  · exact hbefore

/-- A row is mailable exactly if its notification can be created and the e-mail for it can be added. -/
theorem mailable_iff :
    Mailable row db ↔ ∃ rendered notification after,
      renderNotification row.type row.vars = .ok rendered ∧
        createNotification (row.input rendered) db = .ok (some notification, after) ∧
        ∃ address ∈ after.recipientEmail row.recipientId,
          (row.postCommitTask rendered notification db.preferences).EmailFits address after := by
  constructor
  · intro hmailable
    obtain ⟨rendered, hrendered, htitle⟩ := hmailable.title
    obtain ⟨source, hsource, hfresh⟩ := hmailable.source
    obtain ⟨address, haddress, hlength⟩ := hmailable.address
    refine ⟨rendered, _, _, hrendered, createNotification_eq_some.mpr
      ⟨source, hsource, htitle, hfresh, hmailable.id, rfl, rfl⟩, address, haddress, ?_⟩
    exact ⟨hlength, hmailable.key, hmailable.fresh, hmailable.emailId⟩
  · rintro ⟨rendered, notification, after, hrendered, hcreated, address, haddress, hfits⟩
    obtain ⟨source, hsource, htitle, hfresh, hid, rfl, rfl⟩ := createNotification_eq_some.mp hcreated
    exact {
      title := ⟨rendered, hrendered, htitle⟩
      source := ⟨source, hsource, hfresh⟩
      id := hid
      address := ⟨address, haddress, hfits.address⟩
      key := hfits.key
      fresh := hfits.fresh
      emailId := hfits.id }

/-- Assumes: everything answers. A row leads to an e-mail exactly if `processRow` returns a task that adds
one. -/
theorem addsEmail_processWithTask_iff :
    AddsEmail (processWithTask row) db ↔
      ∃ task after, (processNotification row).run db = (.ok (some task), after) ∧
        AddsEmail task.run after := by
  have hkeeps : ((processNotification row).run db).2.emailOutbox = db.emailOutbox :=
    emailOutbox_processNotification
  rw [AddsEmail, processWithTask, Call.run_bind]
  generalize (processNotification row).run db = processed at hkeeps ⊢
  obtain ⟨outcome, middle⟩ := processed
  cases outcome with
  | error failure => simpa using fun email ↦ by simp [show middle.emailOutbox = _ from hkeeps]
  | ok task =>
    cases task with
    | none => simpa using fun email ↦ by simp [show middle.emailOutbox = _ from hkeeps]
    | some task =>
      have hsame : (∃ email, ((do let _ ← task.run; pure () : NotificationCall Unit).run middle).2.emailOutbox =
          db.emailOutbox ++ [email]) ↔ AddsEmail task.run middle := by
        rw [← hkeeps]
        exact addsEmail_bind_pure
      refine hsame.trans ⟨fun hadds ↦ ⟨task, middle, rfl, hadds⟩, ?_⟩
      rintro ⟨_, _, hrun, hadds⟩
      cases hrun
      exact hadds

/-- Assumes: everything answers. A row leads to an e-mail exactly if both channels are enabled and the row
is mailable. -/
theorem addsEmail_iff (hanswering : db.Answering) :
    AddsEmail (processWithTask row) db ↔
      resolve row.tenantId row.recipientId row.type .inApp db.preferences = true ∧
        resolve row.tenantId row.recipientId row.type .email db.preferences = true ∧
        Mailable row db := by
  rw [addsEmail_processWithTask_iff, mailable_iff]
  constructor
  · rintro ⟨task, after, hrun, hadds⟩
    obtain ⟨hinApp, rendered, notification, hrendered, hcreated, rfl⟩ :=
      (run_processNotification hanswering).mp hrun
    obtain ⟨_, _, _, _, _, _, hafter⟩ := createNotification_eq_some.mp hcreated
    obtain ⟨hemail, hfits⟩ := (addsEmail_run_iff (hafter ▸ hanswering)).mp hadds
    exact ⟨hinApp, hemail, rendered, notification, after, hrendered, hcreated, hfits⟩
  · rintro ⟨hinApp, hemail, rendered, notification, after, hrendered, hcreated, hfits⟩
    obtain ⟨_, _, _, _, _, _, hafter⟩ := createNotification_eq_some.mp hcreated
    exact ⟨_, after, (run_processNotification hanswering).mpr
        ⟨hinApp, rendered, notification, hrendered, hcreated, rfl⟩,
      (addsEmail_run_iff (hafter ▸ hanswering)).mpr ⟨hemail, hfits⟩⟩

end Emails

/-! ### Two tables of preferences -/

/-- The store with another table of preferences. -/
def Db.withPreferences (db : Db) (preferences : List NotificationPreference) : Db :=
  { db with preferences }

/-- Whether a row is mailable does not depend on the preferences. -/
theorem mailable_withPreferences {row : NotificationOutboxRow} {db : Db}
    {preferences : List NotificationPreference} :
    Mailable row (db.withPreferences preferences) ↔ Mailable row db :=
  ⟨fun h ↦ ⟨h.title, h.source, h.id, h.address, h.key, h.fresh, h.emailId⟩,
    fun h ↦ ⟨h.title, h.source, h.id, h.address, h.key, h.fresh, h.emailId⟩⟩

/-- Assumes: everything answers, and two tables of preferences resolve the e-mail channel alike. The row
leads to an e-mail with both of them or with neither exactly if they resolve the in-app channel alike too,
or the e-mail channel is disabled, or the row is not mailable. -/
theorem addsEmail_alike_iff {row : NotificationOutboxRow} {db : Db}
    {first second : List NotificationPreference} (hanswering : db.Answering)
    (hemail : resolve row.tenantId row.recipientId row.type .email first =
      resolve row.tenantId row.recipientId row.type .email second) :
    (AddsEmail (processWithTask row) (db.withPreferences first) ↔
        AddsEmail (processWithTask row) (db.withPreferences second)) ↔
      resolve row.tenantId row.recipientId row.type .inApp first =
          resolve row.tenantId row.recipientId row.type .inApp second ∨
        resolve row.tenantId row.recipientId row.type .email first = false ∨ ¬ Mailable row db := by
  have hadds : ∀ preferences, AddsEmail (processWithTask row) (db.withPreferences preferences) ↔
      resolve row.tenantId row.recipientId row.type .inApp preferences = true ∧
        resolve row.tenantId row.recipientId row.type .email preferences = true ∧ Mailable row db := by
    intro preferences
    have hstore : (db.withPreferences preferences).Answering := hanswering
    rw [addsEmail_iff hstore, mailable_withPreferences]
    rfl
  rw [hadds first, hadds second, ← hemail]
  by_cases hpossible : resolve row.tenantId row.recipientId row.type .email first = true ∧ Mailable row db
  · obtain ⟨henabled, hmailable⟩ := hpossible
    simp only [henabled, hmailable, and_true, Bool.true_eq_false, not_true, or_false]
    exact Bool.eq_iff_iff.symm
  · have himpossible : resolve row.tenantId row.recipientId row.type .email first = false ∨
        ¬ Mailable row db := by
      rcases not_and_or.mp hpossible with hdisabled | hnot
      · exact .inl (Bool.eq_false_iff.mpr hdisabled)
      · exact .inr hnot
    simp only [hpossible, himpossible, and_false, or_true]

/-! ### A recipient who turns the in-app channel off -/

/-- The row of a notification that was just scheduled. -/
def acceptanceRow : NotificationOutboxRow := acceptance.row 0 0

/-- The recipient has turned the in-app channel off for every type. -/
def noPushes : List NotificationPreference :=
  [{ tenantId := 1, userId := 7, type := "*", inApp := false }]

theorem answering_inviterDb : inviterDb.Answering := fun _ ↦ rfl

/-- A witness: the recipient has no preferences, or has turned the in-app channel off. -/
theorem addsEmail_alike_iff_witness :
    (AddsEmail (processWithTask acceptanceRow) (inviterDb.withPreferences []) ↔
        AddsEmail (processWithTask acceptanceRow) (inviterDb.withPreferences noPushes)) ↔
      resolve acceptanceRow.tenantId acceptanceRow.recipientId acceptanceRow.type .inApp [] =
          resolve acceptanceRow.tenantId acceptanceRow.recipientId acceptanceRow.type .inApp noPushes ∨
        resolve acceptanceRow.tenantId acceptanceRow.recipientId acceptanceRow.type .email [] = false ∨
        ¬ Mailable acceptanceRow inviterDb :=
  addsEmail_alike_iff answering_inviterDb (by decide)

/-- The channels are not independent: the e-mail channel is enabled in both cases, and the e-mail is only
sent where the in-app channel is enabled too. -/
theorem noPushes_noEmail :
    ¬ ∀ (row : NotificationOutboxRow) (db : Db) (first second : List NotificationPreference),
      db.Answering →
        resolve row.tenantId row.recipientId row.type .email first =
          resolve row.tenantId row.recipientId row.type .email second →
        (AddsEmail (processWithTask row) (db.withPreferences first) ↔
          AddsEmail (processWithTask row) (db.withPreferences second)) := by
  intro halways
  have hemail : AddsEmail (processWithTask acceptanceRow) (inviterDb.withPreferences []) := ⟨_, rfl⟩
  have hsame := halways acceptanceRow inviterDb [] noPushes answering_inviterDb (by decide)
  have hnoPushes : (inviterDb.withPreferences noPushes).Answering := fun _ ↦ rfl
  have hnone := (addsEmail_iff hnoPushes).mp (hsame.mp hemail)
  exact absurd hnone.1 (by decide)

end RallyApi.Notifications

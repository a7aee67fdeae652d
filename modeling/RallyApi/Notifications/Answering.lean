import RallyApi.Notifications.Pipeline
import RallyApi.Notifications.Preferences

/-!
# Processing a notification without failures

What `processRow` of the notification relay and its post-commit task do while the database and Valkey
answer: `processRow` returns a task exactly if the in-app channel is enabled, the template can be rendered
and the notification can be created (`run_processNotification`), and the task adds an e-mail exactly if the
e-mail channel is enabled and the e-mail can be scheduled (`addsEmail_run_iff`).
-/

set_option autoImplicit false
set_option relaxedAutoImplicit false

namespace RallyApi.Notifications

open Concurrency Outbox Platform Store

/-! ### Requests that are answered -/

/-- Every resource answers. -/
def Db.Answering (db : Db) : Prop := ∀ resource, db.health resource = .answering

variable {α : Type} {db after : Db} {row : NotificationOutboxRow}

/-- A request to a resource that answers has the effect and the result of its statement. -/
theorem run_access {resource : Resource} {label : Db → NotificationStep}
    {statement : Db → Except Failure (α × Db)} (hanswering : db.Answering) :
    (access resource label statement).run db = match statement db with
      | .ok (value, after) => (.ok value, after)
      | .error failure => (.error failure, db) := by
  simp only [access, Call.run, hanswering resource, if_true]
  cases statement db with
  | error failure => rfl
  | ok result => rfl

/-- A request to a resource that answers succeeds exactly if its statement does. -/
theorem run_access_eq_ok {resource : Resource} {label : Db → NotificationStep}
    {statement : Db → Except Failure (α × Db)} {value : α} (hanswering : db.Answering) :
    (access resource label statement).run db = (.ok value, after) ↔
      statement db = .ok (value, after) := by
  rw [run_access hanswering]
  cases statement db with
  | error failure => simp
  | ok result => simp [Prod.ext_iff]

/-- `isEnabled` returns what the table of preferences resolves to. -/
theorem run_isEnabled {tenantId userId : Uuid} {type : String} {channel : NotificationChannel}
    (hanswering : db.Answering) :
    (isEnabled tenantId userId type channel).run db =
      (.ok (resolve tenantId userId type channel db.preferences), db) := by
  rw [isEnabled, readDatabase, run_access_eq_ok hanswering]

/-- A value or a failure, taken into a call. -/
theorem run_ofExcept {outcome : Except Failure α} :
    (MonadExcept.ofExcept outcome : NotificationCall α).run db = (outcome, db) := by
  cases outcome with
  | ok value => rfl
  | error failure => rfl

/-! ### `processRow` -/

/-- A notification is created exactly if its title fits, its source event identifier is a UUID that no
notification carries, and its own identifier is not taken. -/
theorem createNotification_eq_some {input : CreateNotificationInput}
    {notification : InAppNotification} :
    createNotification input db = .ok (some notification, after) ↔
      ∃ source, input.sourceEventId = .ok source ∧ FitsVarchar 500 input.title ∧
        some source ∉ db.inAppNotifications.map InAppNotification.sourceEventId ∧
        db.nextUuid ∉ db.inAppNotifications.map InAppNotification.id ∧
        notification = input.row db.nextUuid source db.now ∧
        after = { db.draw with inAppNotifications := db.inAppNotifications ++ [notification] } := by
  constructor
  · intro hok
    obtain ⟨source, hsource, hrest⟩ := bind_eq_ok.mp hok
    obtain ⟨_, htitle, hrest⟩ := bind_eq_ok.mp hrest
    split_ifs at hrest with htaken hid
    · cases hrest
    · obtain ⟨hcreated, hafter⟩ := Prod.mk.inj (Except.ok.inj hrest)
      obtain rfl := Option.some.inj hcreated
      exact ⟨source, hsource, checkLength_eq_ok.mp htitle, htaken, hid, rfl, hafter.symm⟩
  · rintro ⟨source, hsource, htitle, hfresh, hid, rfl, rfl⟩
    refine bind_eq_ok.mpr ⟨source, hsource, bind_eq_ok.mpr ⟨(), checkLength_eq_ok.mpr htitle, ?_⟩⟩
    rw [if_neg hfresh, if_neg hid]

/-- The task `processRow` returns once it has created the notification. -/
def NotificationOutboxRow.postCommitTask (row : NotificationOutboxRow)
    (rendered : RenderedNotification) (notification : InAppNotification)
    (preferences : List NotificationPreference) : PostCommitTask where
  row := row
  rendered := rendered
  notificationId := notification.id
  emailEnabled := resolve row.tenantId row.recipientId row.type .email preferences

/-- Assumes: everything answers, and the in-app channel is disabled. `processRow` does nothing. -/
theorem processNotification_disabled (hanswering : db.Answering)
    (hdisabled : resolve row.tenantId row.recipientId row.type .inApp db.preferences = false) :
    (processNotification row).run db = (.ok none, db) :=
  Call.run_bind_eq_ok.mpr ⟨false, db, hdisabled ▸ run_isEnabled hanswering, rfl⟩

/-- Assumes: everything answers, and the in-app channel is enabled. `processRow` returns once the template
is rendered and `create` returns, with a task for what that has created. -/
theorem processNotification_enabled {rendered : RenderedNotification} {created : Option InAppNotification}
    (hanswering : db.Answering)
    (hinApp : resolve row.tenantId row.recipientId row.type .inApp db.preferences = true)
    (hrendered : renderNotification row.type row.vars = .ok rendered)
    (hcreated : createNotification (row.input rendered) db = .ok (created, after)) :
    (processNotification row).run db = (.ok (created.map fun notification ↦
      row.postCommitTask rendered notification db.preferences), after) := by
  refine Call.run_bind_eq_ok.mpr ⟨true, db, hinApp ▸ run_isEnabled hanswering, ?_⟩
  refine Call.run_bind_eq_ok.mpr ⟨rendered, db, hrendered ▸ run_ofExcept, ?_⟩
  refine Call.run_bind_eq_ok.mpr ⟨created, after, (run_access_eq_ok hanswering).mpr hcreated, ?_⟩
  cases created with
  | none => rfl
  | some notification =>
    obtain ⟨_, _, _, _, _, _, hafter⟩ := createNotification_eq_some.mp hcreated
    refine Call.run_bind_eq_ok.mpr ⟨_, after, run_isEnabled (hafter ▸ hanswering), ?_⟩
    rw [hafter]
    rfl

/-- Assumes: everything answers, the in-app channel is enabled, and `processRow` returns. The template is
rendered, and `create` has returned. -/
theorem processNotification_created {task : Option PostCommitTask} (hanswering : db.Answering)
    (hinApp : resolve row.tenantId row.recipientId row.type .inApp db.preferences = true)
    (hrun : (processNotification row).run db = (.ok task, after)) :
    ∃ rendered created middle, renderNotification row.type row.vars = .ok rendered ∧
      createNotification (row.input rendered) db = .ok (created, middle) := by
  obtain ⟨enabled, _, henabled, hrun⟩ := Call.run_bind_eq_ok.mp hrun
  rw [run_isEnabled hanswering, hinApp] at henabled
  cases henabled
  obtain ⟨rendered, _, hrender, hrun⟩ := Call.run_bind_eq_ok.mp hrun
  rw [run_ofExcept] at hrender
  obtain ⟨hrendered, rfl⟩ := Prod.mk.inj hrender
  obtain ⟨created, middle, hcreated, _⟩ := Call.run_bind_eq_ok.mp hrun
  exact ⟨rendered, created, middle, hrendered, (run_access_eq_ok hanswering).mp hcreated⟩

/-- Assumes: everything answers. `processRow` returns a task exactly if the in-app channel is enabled, the
template can be rendered and the notification is created. -/
theorem run_processNotification {task : PostCommitTask} (hanswering : db.Answering) :
    (processNotification row).run db = (.ok (some task), after) ↔
      resolve row.tenantId row.recipientId row.type .inApp db.preferences = true ∧
        ∃ rendered notification, renderNotification row.type row.vars = .ok rendered ∧
          createNotification (row.input rendered) db = .ok (some notification, after) ∧
          task = row.postCommitTask rendered notification db.preferences := by
  constructor
  · intro hrun
    cases henabled : resolve row.tenantId row.recipientId row.type .inApp db.preferences with
    | false => cases (processNotification_disabled hanswering henabled).symm.trans hrun
    | true =>
      obtain ⟨rendered, created, middle, hrendered, hcreated⟩ :=
        processNotification_created hanswering henabled hrun
      have hreturned := processNotification_enabled hanswering henabled hrendered hcreated
      obtain ⟨htask, rfl⟩ := Prod.mk.inj (hreturned.symm.trans hrun)
      obtain ⟨notification, rfl, rfl⟩ := Option.map_eq_some_iff.mp (Except.ok.inj htask)
      exact ⟨rfl, rendered, notification, hrendered, hcreated, rfl⟩
  · rintro ⟨hinApp, rendered, notification, hrendered, hcreated, rfl⟩
    exact processNotification_enabled hanswering hinApp hrendered hcreated

/-- Every step of `processRow` leaves the store as it was, or creates the notification. -/
theorem only_processNotification (row : NotificationOutboxRow) :
    (processNotification row).Only fun before _ after ↦ after = before ∨
      ∃ input created, createNotification input before = .ok (created, after) := by
  have hread : ∀ channel, (isEnabled row.tenantId row.recipientId row.type channel).Only
      fun before _ after ↦ after = before ∨
        ∃ input created, createNotification input before = .ok (created, after) := by
    intro channel
    rw [isEnabled, readDatabase]
    refine only_access (fun _ ↦ .inl rfl) (fun _ _ _ ↦ .inl rfl) fun db value after hok ↦ ?_
    cases hok
    exact .inl rfl
  refine Call.only_bind.mpr ⟨hread .inApp, fun inAppEnabled _ ↦ ?_⟩
  cases inAppEnabled with
  | false => trivial
  | true =>
    refine Call.only_bind.mpr ⟨?_, fun rendered _ ↦ Call.only_bind.mpr ⟨?_, fun notification _ ↦ ?_⟩⟩
    · cases renderNotification row.type row.vars with
      | ok rendered => trivial
      | error failure => trivial
    · exact only_access (fun _ ↦ .inl rfl) (fun _ _ _ ↦ .inl rfl) fun db created after hok ↦
        .inr ⟨row.input rendered, created, hok⟩
    · cases notification with
      | none => trivial
      | some notification => exact Call.only_bind.mpr ⟨hread .email, fun _ _ ↦ trivial⟩

/-- Assumes: a property of stores that creating a notification keeps. `processRow` keeps it. -/
theorem processNotification_keeps (property : Db → Prop)
    (hcreate : ∀ input before created after, property before →
      createNotification input before = .ok (created, after) → property after)
    (hdb : property db) : property ((processNotification row).run db).2 := by
  refine (only_processNotification row).run_keeps property (fun before _ after hbefore hstep ↦ ?_) hdb
  rcases hstep with hsame | ⟨input, created, hok⟩
  · exact hsame ▸ hbefore
  · exact hcreate input before created after hbefore hok

/-- A call that creates a notification draws an identifier; it finds a notification with the source event
identifier, or adds one with a new identifier. -/
theorem createNotification_cases {input : CreateNotificationInput}
    {created : Option InAppNotification}
    (hok : createNotification input db = .ok (created, after)) :
    after = db.draw ∨ ∃ source, db.nextUuid ∉ db.inAppNotifications.map InAppNotification.id ∧
      after = { db.draw with
        inAppNotifications := db.inAppNotifications ++ [input.row db.nextUuid source db.now] } := by
  obtain ⟨source, _, hrest⟩ := bind_eq_ok.mp hok
  obtain ⟨_, _, hrest⟩ := bind_eq_ok.mp hrest
  split_ifs at hrest with htaken hid
  · exact .inl (Prod.mk.inj (Except.ok.inj hrest)).2.symm
  · exact .inr ⟨source, hid, (Prod.mk.inj (Except.ok.inj hrest)).2.symm⟩

/-! ### The post-commit task -/

/-- The call, run alone, adds an e-mail to the outbox. -/
def AddsEmail (call : NotificationCall α) (db : Db) : Prop :=
  ∃ email, (call.run db).2.emailOutbox = db.emailOutbox ++ [email]

/-- The address `scheduleNotificationEmail` looks up. -/
def Db.recipientEmail (db : Db) (recipientId : Uuid) : Option String :=
  ((db.users.find? fun user ↦ user.id = recipientId).map User.email).filter fun email ↦ email ≠ ""

/-- An e-mail is added exactly if its texts fit, its key is not taken and its identifier is not taken. -/
theorem scheduleEmail_eq_append {options : ScheduleEmailOptions} {id : Uuid} {now : Date}
    {rows : List EmailOutboxRow} :
    (∃ email, scheduleEmail options id now rows = .ok (rows ++ [email])) ↔
      FitsVarchar 320 options.toAddress ∧ FitsVarchar 100 options.template ∧
        FitsVarchar 255 (options.idempotencyKey.getD "") ∧
        ¬ keyTaken options.key (rows.map EmailOutboxRow.idempotencyKey) = true ∧
        id ∉ rows.map fun row ↦ row.id := by
  constructor
  · rintro ⟨email, hok⟩
    obtain ⟨_, haddress, hrest⟩ := bind_eq_ok.mp hok
    obtain ⟨_, htemplate, hrest⟩ := bind_eq_ok.mp hrest
    obtain ⟨_, hkey, hrest⟩ := bind_eq_ok.mp hrest
    split_ifs at hrest with htaken hid
    · exact absurd (Except.ok.inj hrest) (by simp)
    · exact ⟨checkLength_eq_ok.mp haddress, checkLength_eq_ok.mp htemplate, checkLength_eq_ok.mp hkey,
        htaken, hid⟩
  · rintro ⟨haddress, htemplate, hkey, hfresh, hid⟩
    refine ⟨options.row id now, bind_eq_ok.mpr ⟨(), checkLength_eq_ok.mpr haddress, ?_⟩⟩
    refine bind_eq_ok.mpr ⟨(), checkLength_eq_ok.mpr htemplate, ?_⟩
    refine bind_eq_ok.mpr ⟨(), checkLength_eq_ok.mpr hkey, ?_⟩
    rw [if_neg hfresh, if_neg hid]

variable {task : PostCommitTask} {address : String}

/-- The e-mail of a task can be added: its address and its key fit, and neither the key nor the identifier
is taken. -/
structure PostCommitTask.EmailFits (task : PostCommitTask) (address : String) (db : Db) : Prop where
  address : FitsVarchar 320 address
  key : FitsVarchar 255 (notificationEmailKey task.notificationId)
  fresh : some (notificationEmailKey task.notificationId) ∉
    db.emailOutbox.map EmailOutboxRow.idempotencyKey
  id : db.nextUuid ∉ db.emailOutbox.map fun row ↦ row.id

theorem addsEmail_scheduleTaskEmail_iff (hanswering : db.Answering) :
    AddsEmail (scheduleTaskEmail task address) db ↔ task.EmailFits address db := by
  have hschedule : (∃ email, scheduleEmail (task.email address db.appBaseUrl) db.nextUuid db.now
      db.emailOutbox = .ok (db.emailOutbox ++ [email])) ↔ task.EmailFits address db := by
    rw [scheduleEmail_eq_append]
    constructor
    · rintro ⟨haddress, _, hkey, hfresh, hid⟩
      rw [email_key hkey, keyTaken_some] at hfresh
      exact ⟨haddress, hkey, hfresh, hid⟩
    · intro hfits
      rw [email_key hfits.key, keyTaken_some]
      have htemplate : FitsVarchar 100 "notification" := by decide
      exact ⟨hfits.address, htemplate, hfits.key, hfits.fresh, hfits.id⟩
  rw [← hschedule, AddsEmail, scheduleTaskEmail, run_access hanswering]
  cases scheduleEmail (task.email address db.appBaseUrl) db.nextUuid db.now db.emailOutbox with
  | error failure => simp [bind, Except.bind]
  | ok rows => simp [bind, Except.bind]

section Sequences

variable {β : Type} {call : NotificationCall α}

/-- A failure that is swallowed adds no e-mail. -/
theorem addsEmail_tryCatch {value : α} :
    AddsEmail (tryCatch call fun _ ↦ pure value) db ↔ AddsEmail call db := by
  rw [AddsEmail, Call.run_tryCatch, AddsEmail]
  obtain ⟨outcome, middle⟩ := call.run db
  cases outcome with
  | ok result => rfl
  | error failure => rfl

/-- What is returned in the end adds no e-mail. -/
theorem addsEmail_bind_pure {value : β} :
    AddsEmail (call >>= fun _ ↦ pure value) db ↔ AddsEmail call db := by
  rw [AddsEmail, Call.run_bind, AddsEmail]
  obtain ⟨outcome, middle⟩ := call.run db
  cases outcome with
  | ok result => rfl
  | error failure => rfl

/-- A read adds no e-mail. -/
theorem addsEmail_readDatabase_bind {read : Db → α} {rest : α → NotificationCall β}
    (hanswering : db.Answering) :
    AddsEmail (readDatabase read >>= rest) db ↔ AddsEmail (rest (read db)) db := by
  have hread : (readDatabase read).run db = (.ok (read db), db) := by
    rw [readDatabase, run_access_eq_ok hanswering]
  rw [AddsEmail, Call.run_bind, hread, AddsEmail]

theorem not_addsEmail_pure {value : α} : ¬ AddsEmail (pure value) db := by
  simp [AddsEmail]

end Sequences

/-- The e-mail part of a task adds an e-mail exactly if the recipient has an address and the e-mail can be
added. -/
theorem addsEmail_scheduleNotificationEmail_iff (hanswering : db.Answering) :
    AddsEmail (scheduleNotificationEmail task) db ↔
      ∃ address ∈ db.recipientEmail task.row.recipientId, task.EmailFits address db := by
  rw [scheduleNotificationEmail, addsEmail_tryCatch, addsEmail_readDatabase_bind hanswering,
    Db.recipientEmail]
  cases ((db.users.find? fun user ↦ user.id = task.row.recipientId).map User.email).filter
      fun email ↦ email ≠ "" with
  | none => simp [not_addsEmail_pure]
  | some address => simp [addsEmail_bind_pure, addsEmail_scheduleTaskEmail_iff hanswering]

/-- The store once a notification has been pushed. -/
def Db.pushed (db : Db) (payload : NotificationPubSubPayload) : Db :=
  { db with pubSub := db.pubSub.publish (db.userChannel payload.recipientId) payload }

theorem run_notifyUser {payload : NotificationPubSubPayload} (hanswering : db.Answering) :
    (notifyUser payload).run db = (.ok (), db.pushed payload) := by
  rw [notifyUser, run_access_eq_ok hanswering]
  rfl

/-- The task adds an e-mail exactly if the e-mail channel was enabled and the e-mail part adds one. -/
theorem addsEmail_run_iff (hanswering : db.Answering) :
    AddsEmail task.run db ↔ task.emailEnabled = true ∧
      ∃ address ∈ db.recipientEmail task.row.recipientId, task.EmailFits address db := by
  have hpushed : (db.pushed task.payload).Answering := hanswering
  have hfits : ∀ address, task.EmailFits address (db.pushed task.payload) ↔
      task.EmailFits address db := fun address ↦
    ⟨fun h ↦ ⟨h.address, h.key, h.fresh, h.id⟩, fun h ↦ ⟨h.address, h.key, h.fresh, h.id⟩⟩
  have hrun : AddsEmail task.run db ↔ AddsEmail (if task.emailEnabled then
      scheduleNotificationEmail task else pure true) (db.pushed task.payload) := by
    rw [AddsEmail, PostCommitTask.run, Call.run_bind, run_notifyUser hanswering]
    rfl
  rw [hrun]
  cases task.emailEnabled with
  | false => simp [not_addsEmail_pure]
  | true =>
    rw [if_pos rfl, addsEmail_scheduleNotificationEmail_iff hpushed]
    simp only [hfits, true_and]
    rfl

end RallyApi.Notifications

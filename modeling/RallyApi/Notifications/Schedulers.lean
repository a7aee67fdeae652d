import RallyApi.Notifications.Repositories

/-!
# The schedulers

`NotificationSchedulerService.schedule` and `EmailSchedulerService.schedule`, and the business
transaction that calls them. The first writes with the connection of the service, the second with the
transaction it is given, so a transaction (`businessTransaction`) carries a table of its own only for
`email_outbox`.
-/

set_option autoImplicit false
set_option relaxedAutoImplicit false

namespace RallyApi.Notifications

open Concurrency Outbox Platform Store

/-! ### `NotificationSchedulerService` -/

/-- `ScheduleNotificationOptions`. -/
structure ScheduleNotificationOptions where
  tenantId : Uuid
  recipientId : Uuid
  actorId : Option Uuid := none
  template : String
  vars : Vars
  resourceId : Option Uuid := none
  scheduledAt : Option Date := none
  idempotencyKey : Option String := none
  deriving DecidableEq, Repr

/-- The key that is written. -/
def ScheduleNotificationOptions.key (options : ScheduleNotificationOptions) : Option String :=
  options.idempotencyKey.map (varchar 255)

/-- The row `schedule` inserts. -/
def ScheduleNotificationOptions.row (options : ScheduleNotificationOptions) (id : Uuid) (now : Date) :
    NotificationOutboxRow where
  id := id
  createdAt := now
  scheduledAt := options.scheduledAt.getD now
  tenantId := options.tenantId
  recipientId := options.recipientId
  actorId := options.actorId
  type := varchar 100 options.template
  vars := options.vars
  resourceId := options.resourceId
  idempotencyKey := options.key

/-- A row with the key is in the table; the key `null` never conflicts. -/
def keyTaken (key : Option String) (keys : List (Option String)) : Bool :=
  key.isSome ∧ key ∈ keys

theorem keyTaken_some {key : String} {keys : List (Option String)} :
    keyTaken (some key) keys = true ↔ some key ∈ keys := by
  simp [keyTaken]

/-- `NotificationSchedulerService.schedule`: `INSERT … ON CONFLICT (idempotency_key) DO NOTHING` with
`this.db`, so it commits at once, whatever becomes of the transaction around the call. -/
def scheduleNotification (options : ScheduleNotificationOptions) (db : Db) : Except Failure Db := do
  checkLength 100 options.template
  checkLength 255 (options.idempotencyKey.getD "")
  if keyTaken options.key (db.notificationOutbox.map NotificationOutboxRow.idempotencyKey) then
    .ok db.draw
  else if db.nextUuid ∈ db.notificationOutbox.map (fun row ↦ row.id) then .error .uniqueViolation
  else
    .ok { db.draw with
      notificationOutbox := db.notificationOutbox ++ [options.row db.nextUuid db.now] }

/-! ### `EmailSchedulerService` -/

/-- `ScheduleEmailOptions`. -/
structure ScheduleEmailOptions where
  toAddress : String
  template : String
  vars : Vars
  scheduledAt : Option Date := none
  idempotencyKey : Option String := none
  deriving DecidableEq, Repr

/-- The key that is written: an empty one counts as none. -/
def ScheduleEmailOptions.key (options : ScheduleEmailOptions) : Option String :=
  (options.idempotencyKey.filter fun key ↦ key ≠ "").map (varchar 255)

/-- The row `schedule` inserts: it names neither the recipient nor the tenant. -/
def ScheduleEmailOptions.row (options : ScheduleEmailOptions) (id : Uuid) (now : Date) :
    EmailOutboxRow where
  id := id
  createdAt := now
  scheduledAt := options.scheduledAt.getD now
  toAddress := varchar 320 options.toAddress
  template := varchar 100 options.template
  vars := options.vars
  idempotencyKey := options.key

/-- `EmailSchedulerService.schedule`: `INSERT … ON CONFLICT (idempotency_key) DO NOTHING`, into the table
as the connection or transaction it is called with sees it. -/
def scheduleEmail (options : ScheduleEmailOptions) (id : Uuid) (now : Date)
    (rows : List EmailOutboxRow) : Except Failure (List EmailOutboxRow) := do
  checkLength 320 options.toAddress
  checkLength 100 options.template
  checkLength 255 (options.idempotencyKey.getD "")
  if keyTaken options.key (rows.map EmailOutboxRow.idempotencyKey) then .ok rows
  else if id ∈ rows.map (fun row ↦ row.id) then .error .uniqueViolation
  else .ok (rows ++ [options.row id now])

/-! ### What they leave -/

section Cases

variable {db after : Db} {emailOutbox rows : List EmailOutboxRow}

/-- A call of the notification scheduler that returns: the key was taken, or the row is there. -/
theorem scheduleNotification_cases {options : ScheduleNotificationOptions}
    (hok : scheduleNotification options db = .ok after) :
    after = db.draw ∧
        keyTaken options.key (db.notificationOutbox.map NotificationOutboxRow.idempotencyKey) = true ∨
      after = { db.draw with
          notificationOutbox := db.notificationOutbox ++ [options.row db.nextUuid db.now] } ∧
        ¬ keyTaken options.key (db.notificationOutbox.map NotificationOutboxRow.idempotencyKey) = true ∧
        db.nextUuid ∉ db.notificationOutbox.map fun row ↦ row.id := by
  obtain ⟨_, _, hrest⟩ := bind_eq_ok.mp hok
  obtain ⟨_, _, hrest⟩ := bind_eq_ok.mp hrest
  split_ifs at hrest with htaken hid
  · exact .inl ⟨(Except.ok.inj hrest).symm, htaken⟩
  · exact .inr ⟨(Except.ok.inj hrest).symm, htaken, hid⟩

/-- A call of the e-mail scheduler that returns: the key was taken, or the row is there. -/
theorem scheduleEmail_cases {options : ScheduleEmailOptions} {id : Uuid} {now : Date}
    (hok : scheduleEmail options id now emailOutbox = .ok rows) :
    rows = emailOutbox ∧
        keyTaken options.key (emailOutbox.map EmailOutboxRow.idempotencyKey) = true ∨
      rows = emailOutbox ++ [options.row id now] ∧
        ¬ keyTaken options.key (emailOutbox.map EmailOutboxRow.idempotencyKey) = true := by
  obtain ⟨_, _, hrest⟩ := bind_eq_ok.mp hok
  obtain ⟨_, _, hrest⟩ := bind_eq_ok.mp hrest
  obtain ⟨_, _, hrest⟩ := bind_eq_ok.mp hrest
  split_ifs at hrest with htaken hid
  · exact .inl ⟨(Except.ok.inj hrest).symm, htaken⟩
  · exact .inr ⟨(Except.ok.inj hrest).symm, htaken⟩

end Cases

/-! ### Business transactions -/

/-- A call a business transaction makes from inside its callback. -/
inductive ScheduleCall
  | notification (options : ScheduleNotificationOptions)
  | email (options : ScheduleEmailOptions)
  deriving DecidableEq, Repr

/-- The call, and what it leaves: the store, and the table of e-mails as the transaction sees it. -/
def ScheduleCall.run (db : Db) (emailOutbox : List EmailOutboxRow) :
    ScheduleCall → Except Failure (Db × List EmailOutboxRow)
  | .notification options => do
    let after ← scheduleNotification options db
    .ok (after, emailOutbox)
  | .email options => do
    let rows ← scheduleEmail options db.nextUuid db.now emailOutbox
    .ok (db.draw, rows)

/-- The callback of a business transaction as far as the schedulers are concerned: its calls in order.
Whether all of them return, and what they leave. -/
def runCalls : List ScheduleCall → Db → List EmailOutboxRow → Bool × Db × List EmailOutboxRow
  | [], db, emailOutbox => (true, db, emailOutbox)
  | call :: rest, db, emailOutbox =>
    match call.run db emailOutbox with
    | .ok (after, rows) => runCalls rest after rows
    | .error _ => (false, db, emailOutbox)

/-- How a transaction ends once the calls have been made. -/
inductive Ending
  | commits
  | rollsBack
  deriving DecidableEq, Repr

/-- The store after a business transaction: its own writes are there if it commits, and dropped if it
rolls back or a call throws. -/
def businessTransaction (calls : List ScheduleCall) (ending : Ending) (db : Db) : Db :=
  let callback := runCalls calls db db.emailOutbox
  if callback.1 ∧ ending = .commits then { callback.2.1 with emailOutbox := callback.2.2 }
  else callback.2.1

end RallyApi.Notifications

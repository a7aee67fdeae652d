import RallyApi.Concurrency.Outcomes
import RallyApi.Notifications.PubSub
import RallyApi.Notifications.Schedulers

/-!
# The relays of the pipeline

`NotificationRelayService` and `EmailRelayService` with what `processRow` does for a row, inside the loop
of `AbstractOutboxRelay`. A relay's transaction buffers its writes (`BatchTx`) and may be aborted at any
time, after which its statements fail. A `PostCommitTask` is due once its transaction has committed;
running it is a call of its own (`runTask`).
-/

set_option autoImplicit false
set_option relaxedAutoImplicit false

namespace RallyApi.Notifications

open Concurrency Outbox Platform Store

/-! ### Templates -/

/-- A template literal's hole: a variable that is absent prints as `undefined`. -/
def hole (vars : Vars) (name : String) : String :=
  ((vars.find? fun entry ↦ entry.1 = name).map Prod.snd).getD "undefined"

/-- `renderNotification`. -/
def renderNotification (type : String) (vars : Vars) : Except Failure RenderedNotification :=
  if type = "WORKSPACE_INVITATION" then
    .ok {
      title := hole vars "inviterName" ++ " invited you to " ++ hole vars "workspaceName"
      body := some ("You've been invited as " ++ hole vars "role" ++
        ". Open the notification to accept.")
      resourceType := some "workspace" }
  else if type = "WORKSPACE_INVITATION_ACCEPTED" then
    .ok {
      title := hole vars "accepteeName" ++ " accepted your invitation to " ++
        hole vars "workspaceName"
      resourceType := some "workspace" }
  else .error (.unknownNotificationTemplate type)

/-- The keys of `TEMPLATES`, which `renderEmailTemplate` looks up. -/
def emailTemplates : List String := ["password-reset", "workspace-invitation", "notification"]

/-! ### The transaction of a relay -/

/-- The open transaction: its number, its writes so far, in order, and the post-commit tasks. -/
structure BatchTx where
  number : ℕ
  writes : List Write := []
  postCommitTasks : List PostCommitTask := []

/-- What a subclass of `AbstractOutboxRelay` provides: the constants of its queries, its table with the
columns every outbox has, and `processRow`. -/
structure RelayService (Row : Type) where
  outbox : OutboxName
  constants : Outbox.RelayService
  rows : Db → List Row
  setRows : List Row → Db → Db
  columns : Row → OutboxRow
  setColumns : OutboxRow → Row → Row
  processRow : Row → NotificationCall (Option PostCommitTask)

variable {Row : Type} {α : Type}

/-- A statement in an open transaction: it fails once the transaction has been aborted. -/
def inTransaction (number : ℕ) (statement : Db → Except Failure (α × Db)) : NotificationCall α :=
  Call.attempt (fun _ ↦ .other) fun db ↦
    if number ∈ db.transactions.map OpenTransaction.number then statement db
    else .error .transactionAborted

/-- `BEGIN`. -/
def beginTransaction (outbox : OutboxName) : NotificationCall ℕ :=
  access .database (fun _ ↦ .other) fun db ↦ .ok (db.begun, { db with
    begun := db.begun + 1
    transactions := db.transactions ++ [{ number := db.begun, outbox }] })

/-- The rows that open transactions of an outbox have locked. -/
def Db.locked (db : Db) (outbox : OutboxName) : List RowId :=
  (db.transactions.filter fun transaction ↦ transaction.outbox = outbox).flatMap OpenTransaction.locks

/-- The rows `fetchBatch` selects: pending, below the attempt limit, due and not locked, in order, up to
the batch size. -/
def RelayService.batch (service : RelayService Row) (db : Db) : List Row :=
  (((service.rows db).filter fun row ↦
      (service.columns row).status = .pending ∧
        (service.columns row).attempts < service.constants.maxAttempts ∧
          service.constants.due db.now (service.columns row) ∧
            (service.columns row).id ∉ db.locked service.outbox).insertionSort
    fun a b ↦ service.constants.orderBy (service.columns a) ≤
      service.constants.orderBy (service.columns b)).take service.constants.batchSize

/-- `fetchBatch`: `SELECT … FOR UPDATE SKIP LOCKED`. -/
def fetchBatch (service : RelayService Row) (number : ℕ) : NotificationCall (List Row) :=
  inTransaction number fun db ↦ .ok (service.batch db, { db with
    transactions := updateWhere (fun transaction ↦ transaction.number = number)
      (fun transaction ↦ { transaction with
        locks := (service.batch db).map fun row ↦ (service.columns row).id }) db.transactions })

/-- `markSent`. -/
def markSent (service : RelayService Row) (tx : BatchTx) (row : Row) : NotificationCall BatchTx :=
  inTransaction tx.number fun db ↦ .ok ({ tx with
    writes := tx.writes ++
      [.markSent (service.columns row).id service.constants.sentStatus db.now] }, db)

/-- `markFailed`, with the new attempts and status the loop computes. -/
def markFailed (service : RelayService Row) (tx : BatchTx) (row : Row) (failure : Failure) :
    NotificationCall BatchTx :=
  let newAttempts := (service.columns row).attempts + 1
  let newStatus := if service.constants.maxAttempts ≤ newAttempts then RowStatus.failed else .pending
  inTransaction tx.number fun db ↦ .ok ({ tx with
    writes := tx.writes ++
      [.markFailed (service.columns row).id newAttempts newStatus failure.message] }, db)

/-- The effect of the writes of a transaction on its table. -/
def RelayService.apply (service : RelayService Row) (writes : List Write) (rows : List Row) : List Row :=
  writes.foldl (fun rows write ↦ updateWhere
    (fun row ↦ (service.columns row).id = write.rowId)
    (fun row ↦ service.setColumns (write.set (service.columns row)) row) rows) rows

/-- `COMMIT`: the writes become visible, the locks are released, and the post-commit tasks are due. -/
def commitTransaction (service : RelayService Row) (tx : BatchTx) : NotificationCall Unit :=
  inTransaction tx.number fun db ↦
    let after := service.setRows (service.apply tx.writes (service.rows db)) db
    .ok ((), { after with
      transactions := db.transactions.filter fun transaction ↦ transaction.number ≠ tx.number
      tasks := db.tasks ++ tx.postCommitTasks })

/-- A transaction ends without effect: it is rolled back, or aborted by the server. -/
def endTransaction (number : ℕ) : NotificationCall Unit :=
  Call.atomically (fun _ ↦ .other) fun db ↦ ((), { db with
    transactions := db.transactions.filter fun transaction ↦ transaction.number ≠ number })

/-! ### The relay loop -/

/-- The body of the loop for one row. -/
def relayRow (service : RelayService Row) (tx : BatchTx) (row : Row) : NotificationCall BatchTx :=
  try
    let task ← service.processRow row
    let tx ← markSent service tx row
    pure { tx with postCommitTasks := tx.postCommitTasks ++ task.toList }
  catch failure =>
    markFailed service tx row failure

/-- The loop over the batch. -/
def relayRows (service : RelayService Row) : List Row → BatchTx → NotificationCall BatchTx
  | [], tx => pure tx
  | row :: rest, tx => do
    let tx ← relayRow service tx row
    relayRows service rest tx

/-- The callback of `db.transaction`, and the commit. -/
def relayBatch (service : RelayService Row) (number : ℕ) : NotificationCall Unit := do
  let batch ← fetchBatch service number
  let tx ← relayRows service batch { number }
  commitTransaction service tx

/-- `db.transaction`: a failure rolls it back. -/
def relayTransaction (service : RelayService Row) : NotificationCall Unit := do
  let number ← beginTransaction service.outbox
  try
    relayBatch service number
  catch failure => do
    endTransaction number
    throw failure

/-- The concurrency guard: whether the process is relaying already. If so, the wake is noted. -/
def enterRelay (process : ℕ) (outbox : OutboxName) : NotificationCall Bool :=
  Call.atomically (fun _ ↦ .other) fun db ↦
    if (process, outbox) ∈ db.relaying then
      (true, { db with wakeOnComplete := (process, outbox) :: db.wakeOnComplete })
    else (false, { db with relaying := (process, outbox) :: db.relaying })

/-- The `finally` block. The further run it may schedule is a run like any other. -/
def leaveRelay (process : ℕ) (outbox : OutboxName) : NotificationCall Unit :=
  Call.atomically (fun _ ↦ .other) fun db ↦ ((), { db with
    relaying := db.relaying.filter (· ≠ (process, outbox))
    wakeOnComplete := db.wakeOnComplete.filter (· ≠ (process, outbox)) })

/-- `relay`. -/
def relay (service : RelayService Row) (process : ℕ) : NotificationCall Unit := do
  let busy ← enterRelay process service.outbox
  if busy then pure ()
  else (relayTransaction service).tryFinally (leaveRelay process service.outbox)

/-! ### `NotificationRelayService` -/

/-- `row.idempotencyKey ?? row.id`, bound to a column of type `uuid`. -/
def NotificationOutboxRow.sourceEventId (row : NotificationOutboxRow) : Except Failure Uuid :=
  match row.idempotencyKey with
  | none => .ok row.id
  | some key =>
    match parseUuid key with
    | some id => .ok id
    | none => .error (.invalidUuid key)

/-- The argument of `notificationsService.send`. -/
def NotificationOutboxRow.input (row : NotificationOutboxRow) (rendered : RenderedNotification) :
    CreateNotificationInput where
  tenantId := row.tenantId
  recipientId := row.recipientId
  actorId := row.actorId
  type := row.type
  title := rendered.title
  body := rendered.body
  resourceType := rendered.resourceType
  resourceId := row.resourceId
  sourceEventId := row.sourceEventId

/-- `NotificationsService.send`: the notification, or none when it is there already. -/
def send (row : NotificationOutboxRow) (rendered : RenderedNotification) :
    NotificationCall (Option InAppNotification) :=
  access .database
    (fun db ↦ match createNotification (row.input rendered) db with
      | .ok (created, _) => .inserted row (created.map InAppNotification.id)
      | .error _ => .other)
    (createNotification (row.input rendered))

/-- `NotificationRelayService.processRow`. -/
def processNotification (row : NotificationOutboxRow) : NotificationCall (Option PostCommitTask) := do
  let inAppEnabled ← isEnabled row.tenantId row.recipientId row.type .inApp
  if !inAppEnabled then pure none
  else do
    let rendered ← MonadExcept.ofExcept (renderNotification row.type row.vars)
    let notification ← send row rendered
    match notification with
    | none => pure none
    | some notification => do
      let emailEnabled ← isEnabled row.tenantId row.recipientId row.type .email
      pure (some { row, rendered, notificationId := notification.id, emailEnabled })

/-- `NotificationRelayService`. -/
def notificationRelay : RelayService NotificationOutboxRow where
  outbox := .notification
  constants := notificationRelayService
  rows := Db.notificationOutbox
  setRows rows db := { db with notificationOutbox := rows }
  columns := NotificationOutboxRow.toOutboxRow
  setColumns columns row := { row with toOutboxRow := columns }
  processRow := processNotification

/-! ### The post-commit task -/

/-- The payload the task publishes. -/
def PostCommitTask.payload (task : PostCommitTask) : NotificationPubSubPayload where
  notificationId := task.notificationId
  recipientId := task.row.recipientId
  type := task.row.type
  title := task.rendered.title
  body := task.rendered.body
  resourceType := task.rendered.resourceType
  resourceId := task.row.resourceId

/-- The deterministic key of the e-mail for a notification. -/
def notificationEmailKey (notificationId : Uuid) : String :=
  "notification-email:" ++ uuidText notificationId

/-- The options `scheduleNotificationEmail` passes on. -/
def PostCommitTask.email (task : PostCommitTask) (toAddress appBaseUrl : String) :
    ScheduleEmailOptions where
  toAddress := toAddress
  template := "notification"
  vars := [("title", task.rendered.title)] ++
    (task.rendered.body.map fun body ↦ ("body", body)).toList ++
    (task.rendered.resourceType.map fun resourceType ↦ ("resourceType", resourceType)).toList ++
    [("appUrl", if task.row.resourceId.isSome then appBaseUrl ++ "/notifications" else appBaseUrl)]
  idempotencyKey := some (notificationEmailKey task.notificationId)

/-- `emailScheduler.schedule` without a transaction. The label tells whether a row was inserted. -/
def scheduleTaskEmail (task : PostCommitTask) (toAddress : String) : NotificationCall Unit :=
  access .database
    (fun db ↦
      match scheduleEmail (task.email toAddress db.appBaseUrl) db.nextUuid db.now db.emailOutbox with
      | .ok rows =>
        if rows.length = db.emailOutbox.length then .other
        else .emailScheduled task.row task.notificationId
      | .error _ => .other)
    fun db ↦ do
      let emailOutbox ←
        scheduleEmail (task.email toAddress db.appBaseUrl) db.nextUuid db.now db.emailOutbox
      .ok ((), { db.draw with emailOutbox })

/-- `scheduleNotificationEmail`. Whether it got through without an error, which it logs and swallows. -/
def scheduleNotificationEmail (task : PostCommitTask) : NotificationCall Bool :=
  try
    let recipientEmail ← readDatabase fun db ↦
      (db.users.find? fun user ↦ user.id = task.row.recipientId).map User.email
    match recipientEmail.filter fun email ↦ email ≠ "" with
    | none => pure true
    | some toAddress => do
      scheduleTaskEmail task toAddress
      pure true
  catch _ => pure false

/-- The `PostCommitTask`: the push, and the e-mail if it is enabled. -/
def PostCommitTask.run (task : PostCommitTask) : NotificationCall Bool := do
  notifyUser task.payload
  if task.emailEnabled then scheduleNotificationEmail task else pure true

/-- Runs one of the tasks that are due. -/
def runTask (index : ℕ) : NotificationCall (Option (PostCommitTask × Bool)) := do
  let task ← Call.query .other fun db ↦ db.tasks[index]?
  match task with
  | none => pure none
  | some task => do
    let clean ← task.run
    pure (some (task, clean))

/-! ### `EmailRelayService` -/

/-- What the e-mail preference resolves to for the notification an e-mail was scheduled for, if it was
scheduled for one. -/
def Db.wanted (db : Db) (row : EmailOutboxRow) : Option Bool :=
  (db.inAppNotifications.find? fun notification ↦
      row.idempotencyKey = some (notificationEmailKey notification.id)).map fun notification ↦
    resolve notification.tenantId notification.recipientId notification.type .email db.preferences

/-- `emailService.sendTemplate`: what the provider makes of it is up to the provider. -/
def sendTemplate (row : EmailOutboxRow) : NotificationCall Unit :=
  if row.template ∈ emailTemplates then
    .step
      (fun db ↦ .emailProcessed row (db.wanted row)
        (if db.health .emailProvider = .refusing then .failed else .sent))
      id
      fun db ↦ .done (if db.health .emailProvider = .answering then .ok () else .error .unavailable)
  else do
    Call.atomically (fun db ↦ .emailProcessed row (db.wanted row) .failed) fun db ↦ ((), db)
    throw (.unknownEmailTemplate row.template)

/-- `EmailRelayService.processRow`. It has no post-commit work. -/
def processEmail (row : EmailOutboxRow) : NotificationCall (Option PostCommitTask) := do
  match row.recipientId, row.tenantId with
  | some recipientId, some tenantId => do
    let emailEnabled ← isEnabled tenantId recipientId row.template .email
    if !emailEnabled then do
      Call.atomically (fun db ↦ .emailProcessed row (db.wanted row) .suppressed) fun db ↦ ((), db)
      pure none
    else do
      sendTemplate row
      pure none
  | _, _ => do
    sendTemplate row
    pure none

/-- `EmailRelayService`. -/
def emailRelay : RelayService EmailOutboxRow where
  outbox := .email
  constants := emailRelayService
  rows := Db.emailOutbox
  setRows rows db := { db with emailOutbox := rows }
  columns := EmailOutboxRow.toOutboxRow
  setColumns columns row := { row with toOutboxRow := columns }
  processRow := processEmail

end RallyApi.Notifications

import Mathlib.Data.List.Sort
import RallyApi.Concurrency.RelyGuarantee
import RallyApi.Platform.Scalars
import RallyApi.Store.Table

/-!
# `AbstractOutboxRelay`

The relay loop of the transactional outbox (`libs/platform/src/outbox/abstract-outbox-relay.ts`) and
its three subclasses in the worker. One run of `relay` claims a batch of pending rows in a
transaction, processes row after row, records the outcome of each, and commits.

What becomes of a row (SNS, e-mail, in-app notification) is left open: a `Script` says for every row
whether `processRow` returns or throws, whether the `UPDATE` that records the outcome works, and whether
the transaction commits. The writes of the transaction are buffered in `BatchTx` and become visible with
the commit; its row locks are in the store. The relays of notifications and e-mails, with what their
`processRow` does, refine this one (`Notifications.RelayRefinement`).
-/

set_option autoImplicit false
set_option relaxedAutoImplicit false

namespace RallyApi.Outbox

open Concurrency Platform Store

/-- The primary key of an outbox row. -/
abbrev RowId := Uuid

/-- `outbox_status`, `email_job_status` and `notification_job_status`. -/
inductive RowStatus
  | pending
  | published
  | sent
  | failed
  deriving DecidableEq, Repr

/-- A row of `outbox_events`, `email_outbox` or `notification_outbox`, with the columns the relay
reads or writes. `sentAt` is `published_at`, `sent_at` or `dispatched_at`. -/
structure OutboxRow where
  id : RowId
  status : RowStatus := .pending
  attempts : ℕ := 0
  lastError : Option String := none
  sentAt : Option Date := none
  createdAt : Date
  scheduledAt : Date
  deriving DecidableEq, Repr

/-! ### The three relays -/

/-- What a subclass of `AbstractOutboxRelay` provides: the status `markSent` writes, the condition
of `fetchBatch` on top of the status and the attempts, the column it orders by, and the tuning. -/
structure RelayService where
  sentStatus : RowStatus
  due : Date → OutboxRow → Bool
  orderBy : OutboxRow → Date
  maxAttempts : ℕ := 5
  batchSize : ℕ := 50
  sentStatus_ne_pending : sentStatus ≠ .pending := by decide
  sentStatus_ne_failed : sentStatus ≠ .failed := by decide
  maxAttempts_pos : 0 < maxAttempts := by decide

/-- `OutboxRelayService`. -/
def outboxRelayService : RelayService where
  sentStatus := .published
  due _ _ := true
  orderBy row := row.createdAt

/-- `EmailRelayService`. -/
def emailRelayService : RelayService where
  sentStatus := .sent
  due now row := row.scheduledAt ≤ now
  orderBy row := row.scheduledAt

/-- `NotificationRelayService`. -/
def notificationRelayService : RelayService where
  sentStatus := .sent
  due now row := row.scheduledAt ≤ now
  orderBy row := row.scheduledAt

/-! ### The store -/

/-- The outbox table, the row locks of the open transactions, the clock, and per worker process the
flags `isRelaying` and `wakeOnComplete`. -/
structure Db where
  rows : List OutboxRow
  locked : List RowId := []
  now : Date := 0
  relaying : List ℕ := []
  wakeOnComplete : List ℕ := []

/-- What a step does: nothing to a batch (`other`), claim a batch, call `processRow` for a row,
commit the transaction, or roll it back. -/
inductive RelayStep
  | other
  | fetch (ids : List RowId)
  | processRow (id : RowId) (returned : Bool)
  | commit
  | rollback
  deriving DecidableEq, Repr

/-- A call of a worker. It fails when its transaction is rolled back. -/
abbrev RelayCall := Call Db RelayStep Unit

/-- An `UPDATE` of the transaction, as `markSent` and `markFailed` issue it. -/
inductive Write
  | markSent (rowId : RowId) (status : RowStatus) (sentAt : Date)
  | markFailed (rowId : RowId) (newAttempts : ℕ) (newStatus : RowStatus) (lastError : String)

/-- The row an `UPDATE` is about. -/
def Write.rowId : Write → RowId
  | .markSent rowId _ _ => rowId
  | .markFailed rowId _ _ _ => rowId

/-- The status an `UPDATE` sets. -/
def Write.status : Write → RowStatus
  | .markSent _ status _ => status
  | .markFailed _ _ newStatus _ => newStatus

/-- The columns an `UPDATE` sets. -/
def Write.set : Write → OutboxRow → OutboxRow
  | .markSent _ status sentAt, row => { row with status, sentAt := some sentAt }
  | .markFailed _ newAttempts newStatus lastError, row =>
    { row with status := newStatus, attempts := newAttempts, lastError := some lastError }

@[simp]
theorem Write.set_status (write : Write) (row : OutboxRow) :
    (write.set row).status = write.status := by cases write <;> rfl

@[simp]
theorem Write.set_id (write : Write) (row : OutboxRow) : (write.set row).id = row.id := by
  cases write <;> rfl

/-- The effect of an `UPDATE` on the table. -/
def Write.run (write : Write) (rows : List OutboxRow) : List OutboxRow :=
  updateWhere (fun row ↦ row.id = write.rowId) write.set rows

/-! ### The relay loop -/

/-- What happens to a row: `processRow` returns, with a post-commit task or without, and the
`UPDATE` of `markSent` works or not; or it throws, and the `UPDATE` of `markFailed` works or not; or
the transaction is lost before. -/
inductive RowOutcome
  | returns (task markSent : Bool)
  | throws (error : String) (markFailed : Bool)
  | connectionLost

/-- What the world outside decides in one run of the relay. -/
structure Script where
  processRow : OutboxRow → RowOutcome
  commits : Bool

/-- The writes of the open transaction so far, in order, and the post-commit tasks. -/
structure BatchTx where
  writes : List Write := []
  postCommitTasks : List RowId := []

/-- `new Date()`. -/
def currentTime : RelayCall Date := Call.query .other fun db ↦ db.now

/-- The rows `fetchBatch` selects: pending, below the attempt limit, due and not locked by another
transaction, in order, up to the batch size. -/
def RelayService.batch (service : RelayService) (db : Db) : List OutboxRow :=
  ((db.rows.filter fun row ↦ row.status = .pending ∧ row.attempts < service.maxAttempts ∧
      service.due db.now row ∧ row.id ∉ db.locked).insertionSort
    fun a b ↦ service.orderBy a ≤ service.orderBy b).take service.batchSize

/-- `fetchBatch`: `SELECT … FOR UPDATE SKIP LOCKED`. -/
def fetchBatch (service : RelayService) : RelayCall (List OutboxRow) :=
  Call.atomically (fun db ↦ .fetch ((service.batch db).map OutboxRow.id)) fun db ↦
    (service.batch db, { db with locked := (service.batch db).map OutboxRow.id ++ db.locked })

/-- The body of the loop for one row: process it and record the outcome in the transaction. `none`
when the transaction is aborted: a failing `UPDATE` aborts it, so after a failing `markSent` the
`markFailed` of the catch block fails too. -/
def relayRow (service : RelayService) (script : Script) (row : OutboxRow) (tx : BatchTx) :
    RelayCall (Option BatchTx) :=
  match script.processRow row with
  | .returns task markSent => do
    Call.query (.processRow row.id true) fun _ ↦ ()
    let sentAt ← currentTime
    let postCommitTasks := if task then tx.postCommitTasks ++ [row.id] else tx.postCommitTasks
    let write := Write.markSent row.id service.sentStatus sentAt
    pure (if markSent then some { writes := tx.writes ++ [write], postCommitTasks } else none)
  | .throws error markFailed => do
    Call.query (.processRow row.id false) fun _ ↦ ()
    let newAttempts := row.attempts + 1
    let newStatus := if service.maxAttempts ≤ newAttempts then RowStatus.failed else .pending
    let write := Write.markFailed row.id newAttempts newStatus error
    pure (if markFailed then some { tx with writes := tx.writes ++ [write] } else none)
  | .connectionLost => pure none

/-- The loop over the batch. -/
def relayRows (service : RelayService) (script : Script) :
    List OutboxRow → BatchTx → RelayCall (Option BatchTx)
  | [], tx => pure (some tx)
  | row :: rest, tx => do
    let recorded ← relayRow service script row tx
    match recorded with
    | some tx => relayRows service script rest tx
    | none => pure none

/-- The commit: the writes become visible and the row locks are released. -/
def commit (batch : List OutboxRow) (tx : BatchTx) : RelayCall Unit :=
  Call.atomically (fun _ ↦ .commit) fun db ↦
    ((), { db with
      rows := tx.writes.foldl (fun rows write ↦ write.run rows) db.rows
      locked := db.locked.filter (· ∉ batch.map OutboxRow.id) })

/-- The rollback: the row locks are released. -/
def rollback (batch : List OutboxRow) : RelayCall Unit :=
  Call.atomically (fun _ ↦ .rollback) fun db ↦
    ((), { db with locked := db.locked.filter (· ∉ batch.map OutboxRow.id) })

/-- The concurrency guard: whether the process is relaying already. If so, the wake is noted. -/
def enterRelay (process : ℕ) : RelayCall Bool :=
  Call.atomically (fun _ ↦ .other) fun db ↦
    if process ∈ db.relaying then
      (true, { db with wakeOnComplete := process :: db.wakeOnComplete })
    else (false, { db with relaying := process :: db.relaying })

/-- The `finally` block: whether a wake arrived in between, so that another run is scheduled. -/
def leaveRelay (process : ℕ) : RelayCall Bool :=
  Call.atomically (fun _ ↦ .other) fun db ↦
    (process ∈ db.wakeOnComplete, { db with
      relaying := db.relaying.filter (· ≠ process)
      wakeOnComplete := db.wakeOnComplete.filter (· ≠ process) })

/-- `relay` from the batch on: process it, end the transaction and leave the guard. -/
def relayBatch (service : RelayService) (process : ℕ) (script : Script) (batch : List OutboxRow) :
    RelayCall (List RowId × Bool) := do
  let recorded ← relayRows service script batch {}
  match recorded.filter fun _ ↦ script.commits with
  | some tx =>
    commit batch tx
    let wake ← leaveRelay process
    pure (tx.postCommitTasks, wake)
  | none =>
    rollback batch
    let _ ← leaveRelay process
    throw ()

/-- `relay`: the post-commit tasks it runs, and whether it schedules another run. -/
def relay (service : RelayService) (process : ℕ) (script : Script) :
    RelayCall (List RowId × Bool) := do
  let busy ← enterRelay process
  if busy then pure ([], false)
  else
    let batch ← fetchBatch service
    relayBatch service process script batch

/-! ### Requests -/

/-- What happens to the outbox: a producer inserts a row, a worker process runs the relay, and time
passes. -/
inductive RelayRequest
  | schedule (id : RowId) (scheduledAt : Date)
  | relay (process : ℕ) (script : Script)
  | tick (milliseconds : ℕ)

/-- The `INSERT` of a producer, against the primary key: the row starts pending, never attempted. -/
def schedule (id : RowId) (scheduledAt : Date) : RelayCall Unit :=
  Call.atomically (fun _ ↦ .other) fun db ↦
    if id ∈ db.rows.map OutboxRow.id then ((), db)
    else ((), { db with rows := db.rows ++ [{ id, createdAt := db.now, scheduledAt }] })

/-- Time passes. -/
def tick (milliseconds : ℕ) : RelayCall Unit :=
  Call.atomically (fun _ ↦ .other) fun db ↦ ((), { db with now := db.now + milliseconds })

/-- The call that serves a request. -/
def RelayRequest.serve (service : RelayService) : RelayRequest → RelayCall (List RowId × Bool)
  | .schedule id scheduledAt => (fun _ ↦ ([], false)) <$> Outbox.schedule id scheduledAt
  | .relay process script => Outbox.relay service process script
  | .tick milliseconds => (fun _ ↦ ([], false)) <$> Outbox.tick milliseconds

end RallyApi.Outbox

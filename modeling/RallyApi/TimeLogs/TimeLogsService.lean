import RallyApi.Concurrency.Interleaving
import RallyApi.CrossTenant.Reads

/-!
# Time logs

The methods of `WorkItemsService` that log, update and delete time, with the repository methods they call
and the trigger `trg_sync_actual_hours`, which writes the sum of the hours to the work item.

The statements run under `READ COMMITTED`. A transaction writes one row of `time_logs`; its writes are those
of the call until it commits. The `UPDATE` of the trigger takes a snapshot of what is committed, adds up the
hours in it, with the row of the transaction itself, and then takes the lock of the work item, for which it
may have to wait. The locks of rows are in the store, and `rowLocks` lets no call take one that is taken.
-/

set_option autoImplicit false
set_option relaxedAutoImplicit false

namespace RallyApi.TimeLogs

open Concurrency Platform Store Work CrossTenant

/-! ### The store -/

/-- What is committed, of the work services and the time logs; the locks of rows of `time_logs` and
`work_items`; and the next identifier that is drawn for a log. -/
structure Db where
  work : Work.Db
  timeLogs : List TimeLog := []
  lockedLogs : List Uuid := []
  lockedItems : List Uuid := []
  nextUuid : Uuid := 0

/-- The store of the work services. -/
def workPart : Concurrency.Part Db Work.Db where
  get := Db.work
  put work db := { db with work }
  put_get _ := rfl

/-- What a step does: it locks a log; takes the snapshot of the trigger, for an item; locks the item; and
commits with it or gives it up; or it commits a log without the trigger (`amend`); or none of these. -/
inductive TimeLogStep
  | other
  | lockLog (id : Uuid)
  | snapshot (workItemId : Uuid)
  | lockItem (workItemId : Uuid)
  | commit (workItemId : Uuid)
  | release (workItemId : Uuid)
  | amend
  deriving DecidableEq, Repr

/-- A call of one of the services. -/
abbrev TimeLogCall := Call Db TimeLogStep Failure

/-- A read of the work services. -/
def ofWork {α : Type} (call : WorkCall α) : TimeLogCall α := call.within workPart fun _ ↦ .other

/-- The database lets no two transactions lock a row. -/
def rowLocks (world : World Db TimeLogStep) : TimeLogStep → Prop
  | .lockLog id => id ∉ world.db.lockedLogs
  | .lockItem workItemId => workItemId ∉ world.db.lockedItems
  | _ => True

instance (world : World Db TimeLogStep) : (label : TimeLogStep) → Decidable (rowLocks world label)
  | .lockLog id => inferInstanceAs (Decidable (id ∉ world.db.lockedLogs))
  | .lockItem workItemId => inferInstanceAs (Decidable (workItemId ∉ world.db.lockedItems))
  | .other => .isTrue trivial
  | .snapshot _ => .isTrue trivial
  | .commit _ => .isTrue trivial
  | .release _ => .isTrue trivial
  | .amend => .isTrue trivial

/-! ### Writes -/

/-- The columns that an `UPDATE` of `time_logs` sets. -/
structure LogColumns where
  loggedDate : Option ℤ := none
  hours : Option Hours := none
  description : Option (Option String) := none
  deletedAt : Option Timestamp := none
  deriving DecidableEq, Repr

/-- The row with the columns set. -/
def LogColumns.set (columns : LogColumns) (log : TimeLog) : TimeLog :=
  { log with
    loggedDate := columns.loggedDate.getD log.loggedDate
    hours := columns.hours.getD log.hours
    description := columns.description.getD log.description
    deletedAt := columns.deletedAt.orElse fun _ ↦ log.deletedAt }

/-- `UPDATE OF "hours", "deleted_at"`: the trigger fires. -/
def LogColumns.fires (columns : LogColumns) : Bool :=
  columns.hours.isSome || columns.deletedAt.isSome

/-- What a transaction writes to `time_logs`: a new row, or columns of the row it has locked. -/
inductive LogWrite
  | insert (log : TimeLog)
  | update (id workItemId : Uuid) (columns : LogColumns)

/-- `NEW.work_item_id`. -/
def LogWrite.workItemId : LogWrite → Uuid
  | .insert log => log.workItemId
  | .update _ workItemId _ => workItemId

/-- The table with what a transaction writes. -/
def LogWrite.apply (logs : List TimeLog) : LogWrite → List TimeLog
  | .insert log => logs ++ [log]
  | .update id workItemId columns =>
    updateWhere (fun log ↦ log.id = id ∧ log.workItemId = workItemId) columns.set logs

/-- The locks of logs once a transaction has ended. -/
def LogWrite.unlock (locked : List Uuid) : LogWrite → List Uuid
  | .insert _ => locked
  | .update id _ _ => locked.filter (· ≠ id)

/-- The sum of the hours of an item, of the logs that are not deleted, in hundredths. -/
def loggedHours (workItemId : Uuid) (logs : List TimeLog) : ℕ :=
  ((logs.filter fun log ↦ log.workItemId = workItemId ∧ log.deletedAt = none).map
    fun log ↦ log.hours.hundredths).sum

/-- `ck_tl_hours_positive`. -/
def checkHours (hours : Hours) : Bool := 0 < hours.hundredths ∧ hours.hundredths ≤ 2400

/-! ### The trigger and the transaction -/

/-- The store with the `actual_hours` of an item written. -/
def setActualHours (workItemId : Uuid) (total : ℕ) (items : List WorkItem) : List WorkItem :=
  updateWhere (fun item ↦ item.id = workItemId) (fun item ↦ { item with actualHours := some ⟨total⟩ })
    items

/-- The transaction is rolled back before it has locked the item. -/
def rollback (write : LogWrite) : TimeLogCall Unit :=
  Call.atomically (fun _ ↦ .other) fun db ↦
    ((), { db with lockedLogs := write.unlock db.lockedLogs })

/-- The `UPDATE` of `sync_actual_hours` takes its snapshot and evaluates its sub-select. -/
def takeSnapshot (write : LogWrite) : TimeLogCall ℕ :=
  Call.query (.snapshot write.workItemId) fun db ↦
    loggedHours write.workItemId (write.apply db.timeLogs)

/-- The `UPDATE` has the lock of the item. -/
def lockItem (workItemId : Uuid) : TimeLogCall Unit :=
  Call.atomically (fun _ ↦ .lockItem workItemId) fun db ↦
    ((), { db with lockedItems := workItemId :: db.lockedItems })

/-- The transaction commits: its row and the sum are there, and the locks are released. -/
def commit (write : LogWrite) (total : ℕ) : TimeLogCall Unit :=
  Call.atomically (fun _ ↦ .commit write.workItemId) fun db ↦
    ((), { db with
      work := { db.work with workItems := setActualHours write.workItemId total db.work.workItems }
      timeLogs := write.apply db.timeLogs
      lockedLogs := write.unlock db.lockedLogs
      lockedItems := db.lockedItems.filter (· ≠ write.workItemId) })

/-- The transaction is rolled back with the item locked. -/
def giveUp (write : LogWrite) : TimeLogCall Unit :=
  Call.atomically (fun _ ↦ .release write.workItemId) fun db ↦
    ((), { db with
      lockedLogs := write.unlock db.lockedLogs
      lockedItems := db.lockedItems.filter (· ≠ write.workItemId) })

/-- The rest of a transaction once it has written its row: the trigger, in `numeric(8, 2)`, and the commit,
unless the connection is lost. -/
def syncActualHours (commits : Bool) (write : LogWrite) : TimeLogCall Unit := do
  let total ← takeSnapshot write
  if 100000000 ≤ total then
    rollback write
    throw .numericValueOutOfRange
  else
    lockItem write.workItemId
    if commits then commit write total
    else
      giveUp write
      throw .connectionLost

/-- A transaction without the trigger commits. -/
def amend (write : LogWrite) : TimeLogCall Unit :=
  Call.atomically (fun _ ↦ .amend) fun db ↦
    ((), { db with timeLogs := write.apply db.timeLogs, lockedLogs := write.unlock db.lockedLogs })

/-! ### `TimeLogDrizzleRepository` -/

/-- `findById`. -/
def findById (id tenantId : Uuid) : TimeLogCall (Option TimeLog) :=
  Call.query .other fun db ↦ db.timeLogs.find? fun log ↦
    log.id = id ∧ log.tenantId = tenantId ∧ log.deletedAt = none

/-- The body of `logTime`. -/
structure LogTimeInput where
  loggedDate : ℤ
  hours : Hours
  description : Option String := none
  deriving DecidableEq, Repr

/-- The row of an `INSERT`, with its identifier and the start of its transaction. -/
def newLog (actor : Actor) (workItemId : Uuid) (input : LogTimeInput) : TimeLogCall TimeLog :=
  Call.atomically (fun _ ↦ .other) fun db ↦
    ({ id := db.nextUuid, tenantId := actor.tenantId, workItemId, userId := actor.sub
       loggedDate := input.loggedDate, hours := input.hours, description := input.description
       createdAt := db.work.now }, { db with nextUuid := db.nextUuid + 1 })

/-- `create`. -/
def create (commits : Bool) (actor : Actor) (workItemId : Uuid) (input : LogTimeInput) :
    TimeLogCall TimeLog := do
  let log ← newLog actor workItemId input
  Call.ensure (checkHours log.hours = true) (.checkViolation "ck_tl_hours_positive")
  syncActualHours commits (.insert log)
  pure log

/-- The `UPDATE` of a log has the lock of its row, and finds it as it is now. -/
def lockLog (id : Uuid) : TimeLogCall (Option TimeLog) :=
  Call.atomically (fun _ ↦ .lockLog id) fun db ↦
    (db.timeLogs.find? fun log ↦ log.id = id, { db with lockedLogs := id :: db.lockedLogs })

/-- The `UPDATE` of a row it has locked, up to the end of its transaction. -/
def updateLocked (commits : Bool) (columns : LogColumns) (log : TimeLog) : TimeLogCall Unit :=
  let write := LogWrite.update log.id log.workItemId columns
  if checkHours (columns.set log).hours then
    if columns.fires then syncActualHours commits write
    else if commits then amend write
    else do
      rollback write
      throw .connectionLost
  else do
    rollback write
    throw (.checkViolation "ck_tl_hours_positive")

/-- An `UPDATE … WHERE id = …` of a log: `rows[0]`, which is `undefined` when there is no row. -/
def updateLog (commits : Bool) (id : Uuid) (columns : LogColumns) : TimeLogCall (Option TimeLog) := do
  let found ← lockLog id
  match found with
  | none => do
    rollback (.update id 0 columns)
    pure none
  | some log => do
    updateLocked commits columns log
    pure (some (columns.set log))

/-! ### `WorkItemsService` -/

/-- `logTime`. -/
def logTime (commits : Bool) (actor : Actor) (workItemId : Uuid) (input : LogTimeInput) :
    TimeLogCall TimeLog := do
  let _ ← ofWork (getWorkItem actor.tenantId workItemId)
  create commits actor workItemId input

/-- The log of an item that is not deleted. -/
def findLog (actor : Actor) (workItemId logId : Uuid) : TimeLogCall TimeLog := do
  let found ← findById logId actor.tenantId
  Call.require (found.filter fun log ↦ log.workItemId = workItemId)
    (notFoundException .timeLogNotFound "Time log entry not found")

/-- The body of `updateTimeLog`. -/
structure UpdateTimeLogInput where
  loggedDate : Option ℤ := none
  hours : Option Hours := none
  description : Option (Option String) := none
  deriving DecidableEq, Repr

/-- `updateTimeLog`. -/
def updateTimeLog (commits : Bool) (actor : Actor) (workItemId logId : Uuid)
    (input : UpdateTimeLogInput) : TimeLogCall (Option TimeLog) := do
  let _ ← ofWork (getWorkItem actor.tenantId workItemId)
  let log ← findLog actor workItemId logId
  Call.ensure (log.userId = actor.sub)
    (permissionDeniedException .timeLogNotOwner "Only the log owner may edit this entry")
  updateLog commits logId
    { loggedDate := input.loggedDate, hours := input.hours, description := input.description }

/-- `new Date()`, as a timestamp column stores it. -/
def newDate : TimeLogCall Timestamp := Call.query .other fun db ↦ floorToMilliseconds db.work.now

/-- `deleteTimeLog`. Assumes: `isAdmin` says whether the permissions of the actor include
`workspace:*`. -/
def deleteTimeLog (commits : Bool) (actor : Actor) (isAdmin : Bool) (workItemId logId : Uuid) :
    TimeLogCall Unit := do
  let _ ← ofWork (getWorkItem actor.tenantId workItemId)
  let log ← findLog actor workItemId logId
  Call.ensure (isAdmin = true ∨ log.userId = actor.sub)
    (permissionDeniedException .timeLogNotOwner
      "Only the log owner or a workspace admin may delete this entry")
  let now ← newDate
  let _ ← updateLog commits logId { deletedAt := some now }

/-! ### Requests -/

/-- What clients ask for, and the passing of time. The flag says whether the connection lasts until the
commit. -/
inductive TimeLogRequest
  | logTime (commits : Bool) (actor : Actor) (workItemId : Uuid) (input : LogTimeInput)
  | updateTimeLog (commits : Bool) (actor : Actor) (workItemId logId : Uuid)
    (input : UpdateTimeLogInput)
  | deleteTimeLog (commits : Bool) (actor : Actor) (isAdmin : Bool) (workItemId logId : Uuid)
  | tick (microseconds : ℕ)

/-- Time passes. -/
def tick (microseconds : ℕ) : TimeLogCall Unit :=
  Call.atomically (fun _ ↦ .other) fun db ↦
    ((), { db with work := { db.work with now := db.work.now + microseconds } })

/-- The call that serves a request. -/
def TimeLogRequest.serve : TimeLogRequest → TimeLogCall Unit
  | .logTime commits actor workItemId input =>
    (fun _ ↦ ()) <$> TimeLogs.logTime commits actor workItemId input
  | .updateTimeLog commits actor workItemId logId input =>
    (fun _ ↦ ()) <$> TimeLogs.updateTimeLog commits actor workItemId logId input
  | .deleteTimeLog commits actor isAdmin workItemId logId =>
    TimeLogs.deleteTimeLog commits actor isAdmin workItemId logId
  | .tick microseconds => TimeLogs.tick microseconds

end RallyApi.TimeLogs

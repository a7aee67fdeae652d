import Mathlib.Algebra.Order.Ring.Nat
import Mathlib.Data.List.MinMax
import Mathlib.Data.List.Sort
import RallyApi.Concurrency.Part
import RallyApi.Work.Effects

/-!
# Sprint snapshots

The daily tick of `SnapshotCronService`, which writes the figures of the active sprints to
`work.sprint_daily_snapshots`, and the methods of `ReportingService` and `ReportingDrizzleRepository` that
store a snapshot and read the velocity of a project from the snapshots of its completed sprints.

The labels of the steps carry what a step has found, so that the history of a run tells where the figures
of a snapshot come from.
-/

set_option autoImplicit false
set_option relaxedAutoImplicit false

namespace RallyApi.Reporting

open Concurrency Platform Store Work

/-! ### The store -/

/-- What `aggregateSprintStats` returns. -/
structure SprintStats where
  totalPoints : ℕ
  completedPoints : ℕ
  remainingPoints : ℕ
  totalItems : ℕ
  completedItems : ℕ
  deriving DecidableEq, Repr

/-- A row of `work.sprint_daily_snapshots`; its date is a number of days. -/
structure SprintSnapshot extends SprintStats where
  tenantId : Uuid
  sprintId : Uuid
  snapshotDate : ℤ
  deriving DecidableEq, Repr

/-- What is committed, of the work services and the snapshots. -/
structure Db where
  work : Work.Db
  snapshots : List SprintSnapshot := []

/-- The store of the work services. -/
def workPart : Concurrency.Part Db Work.Db where
  get := Db.work
  put work db := { db with work }
  put_get _ := rfl

/-- What a step does: a tick reads the active sprints, aggregates the items of one of them, or stores a
snapshot; the velocity report reads the snapshots; or something else happens. -/
inductive ReportStep
  | other
  | activeSprints (found : List Sprint)
  | aggregate (tenantId sprintId : Uuid) (found : Work.Db)
  | upsert (snapshot : SprintSnapshot)
  | latestSnapshots (tenantId : Uuid) (found : List SprintSnapshot)

/-- A call of one of the services. -/
abbrev ReportCall := Call Db ReportStep Failure

/-- A call of the work services. -/
def ofWork {α : Type} (call : WorkCall α) : ReportCall α := call.within workPart fun _ ↦ .other

/-! ### `ReportingDrizzleRepository` -/

/-- The two rows have one key in `uq_sds_sprint_date`. -/
def SprintSnapshot.conflicts (snapshot row : SprintSnapshot) : Bool :=
  row.sprintId = snapshot.sprintId ∧ row.snapshotDate = snapshot.snapshotDate

/-- `INSERT … ON CONFLICT (sprint_id, snapshot_date) DO UPDATE`. -/
def upsertRow (snapshot : SprintSnapshot) (rows : List SprintSnapshot) : List SprintSnapshot :=
  if rows.any snapshot.conflicts then
    updateWhere snapshot.conflicts (fun row ↦ { row with toSprintStats := snapshot.toSprintStats }) rows
  else rows ++ [snapshot]

/-- `upsertSnapshot`. -/
def upsertSnapshot (snapshot : SprintSnapshot) : ReportCall Unit :=
  Call.atomically (fun _ ↦ .upsert snapshot) fun db ↦
    ((), { db with snapshots := upsertRow snapshot db.snapshots })

/-- A point of the velocity report. -/
structure VelocityPoint where
  sprintId : Uuid
  sprintName : String
  completedPoints : ℕ
  completedItems : ℕ
  deriving DecidableEq, Repr

/-- `desc(sprints.completedAt)`: `NULL` comes first. -/
def completedLater (first second : Sprint) : Prop :=
  match first.completedAt, second.completedAt with
  | none, _ => True
  | some _, none => False
  | some first, some second => second ≤ first

instance : DecidableRel completedLater := fun first second ↦ by
  unfold completedLater
  split <;> infer_instance

/-- The last completed sprints of a project. Those completed at one time come in the order of the table. -/
def completedSprints (tenantId projectId : Uuid) (lastNSprints : ℕ) : ReportCall (List Sprint) :=
  Call.query .other fun db ↦
    ((db.work.sprints.filter fun sprint ↦ sprint.tenantId = tenantId ∧ sprint.projectId = projectId ∧
      sprint.status = .completed).insertionSort completedLater).take lastNSprints

/-- The rows that the `SELECT DISTINCT ON (sprint_id)` chooses from. -/
def latestSnapshots (tenantId : Uuid) : ReportCall (List SprintSnapshot) :=
  Call.atomically (fun db ↦ .latestSnapshots tenantId db.snapshots) fun db ↦ (db.snapshots, db)

/-- The row is one of the sprint. -/
def SprintSnapshot.isOf (row : SprintSnapshot) (tenantId sprintId : Uuid) : Bool :=
  row.tenantId = tenantId ∧ row.sprintId = sprintId

/-- The row that `DISTINCT ON (sprint_id)` keeps of a sprint: that of the latest date. -/
def lastSnapshot (tenantId sprintId : Uuid) (rows : List SprintSnapshot) : Option SprintSnapshot :=
  (rows.filter fun row ↦ row.isOf tenantId sprintId).foldl
    (List.argAux fun row last ↦ last.snapshotDate < row.snapshotDate) none

/-- The point of a completed sprint. -/
def velocityPoint (tenantId : Uuid) (rows : List SprintSnapshot) (sprint : Sprint) : VelocityPoint :=
  let last := lastSnapshot tenantId sprint.id rows
  { sprintId := sprint.id
    sprintName := sprint.name
    completedPoints := (last.map fun row ↦ row.completedPoints).getD 0
    completedItems := (last.map fun row ↦ row.completedItems).getD 0 }

/-- `getVelocity`. -/
def getVelocity (tenantId projectId : Uuid) (lastNSprints : ℕ) : ReportCall (List VelocityPoint) := do
  let sprints ← completedSprints tenantId projectId lastNSprints
  if sprints = [] then pure []
  else do
    let rows ← latestSnapshots tenantId
    pure (sprints.map (velocityPoint tenantId rows)).reverse

/-! ### `SnapshotCronService` -/

/-- The status that an item is joined with: that of its project with its `statusId`. There is no more than
one, since identifiers are unique. -/
def statusOf (db : Work.Db) (item : WorkItem) : Option WorkflowStatus :=
  db.workflowStatuses.find? fun status ↦ status.id = item.statusId ∧ status.projectId = item.projectId

/-- The rows of the `SELECT` of `aggregateSprintStats`. -/
def sprintItems (tenantId sprintId : Uuid) (db : Work.Db) : List (WorkItem × WorkflowStatus) :=
  (db.workItems.filter fun item ↦ item.tenantId = tenantId ∧ item.iterationId = some sprintId ∧
    item.deletedAt = none).filterMap fun item ↦ (statusOf db item).map fun status ↦ (item, status)

/-- `coalesce(sum(story_points), 0)`. -/
def sumPoints (rows : List (WorkItem × WorkflowStatus)) : ℕ :=
  (rows.map fun row ↦ row.1.storyPoints.getD 0).sum

/-- `FILTER (WHERE category = 'done')`. -/
def doneRows (rows : List (WorkItem × WorkflowStatus)) : List (WorkItem × WorkflowStatus) :=
  rows.filter fun row ↦ row.2.category = .done

/-- The figures of a sprint in a store. -/
def sprintStats (tenantId sprintId : Uuid) (db : Work.Db) : SprintStats :=
  let rows := sprintItems tenantId sprintId db
  { totalPoints := sumPoints rows
    completedPoints := sumPoints (doneRows rows)
    remainingPoints := sumPoints rows - sumPoints (doneRows rows)
    totalItems := rows.length
    completedItems := (doneRows rows).length }

/-- The casts to `int` are in range. The other two figures are no larger. -/
def SprintStats.inRange (stats : SprintStats) : Bool :=
  stats.totalPoints < 2147483648 ∧ stats.totalItems < 2147483648

/-- `aggregateSprintStats`. -/
def aggregateSprintStats (tenantId sprintId : Uuid) : ReportCall SprintStats :=
  Call.attempt (fun db ↦ .aggregate tenantId sprintId db.work) fun db ↦
    let stats := sprintStats tenantId sprintId db.work
    if stats.inRange then .ok (stats, db) else .error .numericValueOutOfRange

/-- The active sprints of all tenants. -/
def activeSprints : ReportCall (List Sprint) :=
  Call.atomically
    (fun db ↦ .activeSprints (db.work.sprints.filter fun sprint ↦ sprint.status = .active)) fun db ↦
      (db.work.sprints.filter fun sprint ↦ sprint.status = .active, db)

/-- The body of the loop of `runSnapshots`. Assumes: `lost` are the sprints for which the connection is
lost before the snapshot is stored. -/
def snapshotSprint (today : ℤ) (lost : List Uuid) (sprint : Sprint) : ReportCall Unit := do
  let stats ← aggregateSprintStats sprint.tenantId sprint.id
  Call.ensure (sprint.id ∉ lost) .connectionLost
  upsertSnapshot
    { toSprintStats := stats, tenantId := sprint.tenantId, sprintId := sprint.id, snapshotDate := today }

/-- The loop of `runSnapshots`: a failure for one sprint is logged, and the next one is taken. -/
def snapshotAll (today : ℤ) (lost : List Uuid) : List Sprint → ReportCall Unit
  | [] => pure ()
  | sprint :: rest => do
    (snapshotSprint today lost sprint).handle fun _ ↦ pure ()
    snapshotAll today lost rest

/-- The date of a timestamp, in UTC. -/
def dayOf (now : Timestamp) : ℤ := now / 86400000000

/-- `runSnapshots`. -/
def runSnapshots (lost : List Uuid) : ReportCall Unit := do
  let today ← Call.query .other fun db ↦ dayOf db.work.now
  let sprints ← activeSprints
  snapshotAll today lost sprints

/-- `takeDailySnapshots`. Assumes: `acquired` says whether the pod gets the lock of the cron. -/
def takeDailySnapshots (acquired : Bool) (lost : List Uuid) : ReportCall Unit :=
  if acquired then runSnapshots lost else pure ()

/-! ### Requests -/

/-- A request to the work services, a tick of the snapshot cron, and the velocity report. -/
inductive ReportRequest
  | work (request : WorkRequest)
  | takeDailySnapshots (acquired : Bool) (lost : List Uuid)
  | getVelocity (tenantId projectId : Uuid) (lastNSprints : ℕ)

/-- The call that serves a request; only the velocity report returns something. -/
def ReportRequest.serve : ReportRequest → ReportCall (Option (List VelocityPoint))
  | .work request => (fun _ ↦ none) <$> ofWork request.serve
  | .takeDailySnapshots acquired lost => (fun _ ↦ none) <$> Reporting.takeDailySnapshots acquired lost
  | .getVelocity tenantId projectId lastNSprints =>
    some <$> Reporting.getVelocity tenantId projectId lastNSprints

end RallyApi.Reporting

import RallyApi.Outbox.RelayInvariant

/-!
# Rows of a batch do not influence each other

All rows of a batch share one transaction and one list of post-commit tasks. What a run of `relay` records
for a row is still a function of that row and its own outcome: two runs whose bookkeeping works, and which
agree on the outcome of the row and on the commit, leave it with the same status and the same attempts,
whatever the other rows do (`relay_isolates`).

The post-commit tasks a run starts are the tasks of the rows it has marked as sent, in the order of the
batch, if the transaction commits, and none if it is aborted (`run_relay_committed`, `run_relay_aborted`).
-/

set_option autoImplicit false
set_option relaxedAutoImplicit false

namespace RallyApi.Outbox

open Concurrency Platform Store

/-! ### Outcomes -/

/-- The bookkeeping of a row works: the `UPDATE` that records its outcome succeeds. -/
def RowOutcome.recorded : RowOutcome → Bool
  | .returns _ markSent => markSent
  | .throws _ markFailed => markFailed
  | .connectionLost => false

/-- The row is marked as sent, and has returned a post-commit task. -/
def RowOutcome.startsTask : RowOutcome → Bool
  | .returns task markSent => task && markSent
  | .throws _ _ => false
  | .connectionLost => false

/-- The result that is recorded. -/
def RowOutcome.result (now : Date) : RowOutcome → RowResult
  | .returns _ _ => .sent now
  | .throws error _ => .failed error
  | .connectionLost => .failed ""

/-- The transaction commits: the bookkeeping of every row works, and so does the commit. -/
def Script.Commits (script : Script) (batch : List OutboxRow) : Prop :=
  (∀ row ∈ batch, (script.processRow row).recorded = true) ∧ script.commits = true

/-- The rows of the batch that are marked as sent and have returned a post-commit task. -/
def Script.tasks (script : Script) (batch : List OutboxRow) : List RowId :=
  (batch.filter fun row ↦ (script.processRow row).startsTask).map OutboxRow.id

theorem Script.tasks_cons (script : Script) (row : OutboxRow) (rest : List OutboxRow) :
    script.tasks (row :: rest) = script.tasks [row] ++ script.tasks rest := by
  rw [Script.tasks, ← List.singleton_append, List.filter_append, List.map_append]
  rfl

/-- The results of the batch. -/
def Script.results (script : Script) (now : Date) (batch : List OutboxRow) :
    List (OutboxRow × RowResult) :=
  batch.map fun row ↦ (row, (script.processRow row).result now)

/-! ### The loop -/

section Loop

variable {service : RelayService} {script : Script} {row : OutboxRow} {tx : BatchTx} {db : Db}

/-- A row whose bookkeeping works adds its result and its task to the transaction. -/
theorem run_relayRow_recorded (hrecorded : (script.processRow row).recorded = true) :
    (relayRow service script row tx).run db = (.ok (some {
      writes := tx.writes ++ [((script.processRow row).result db.now).write service row]
      postCommitTasks := tx.postCommitTasks ++ script.tasks [row] }), db) := by
  rw [relayRow, Script.tasks]
  cases houtcome : script.processRow row with
  | returns task markSent =>
    rw [houtcome] at hrecorded
    obtain rfl : markSent = true := hrecorded
    cases task with
    | false => simp [houtcome, RowOutcome.startsTask, RowOutcome.result, RowResult.write, currentTime,
        Call.run_bind]
    | true => simp [houtcome, RowOutcome.startsTask, RowOutcome.result, RowResult.write, currentTime,
        Call.run_bind]
  | throws error markFailed =>
    rw [houtcome] at hrecorded
    obtain rfl : markFailed = true := hrecorded
    simp [houtcome, RowOutcome.startsTask, RowOutcome.result, RowResult.write, Call.run_bind]
  | connectionLost =>
    rw [houtcome] at hrecorded
    cases hrecorded

/-- A row whose bookkeeping fails aborts the transaction. -/
theorem run_relayRow_aborted (hrecorded : ¬ (script.processRow row).recorded = true) :
    (relayRow service script row tx).run db = (.ok none, db) := by
  rw [relayRow]
  cases houtcome : script.processRow row with
  | returns task markSent =>
    rw [houtcome, RowOutcome.recorded, Bool.not_eq_true] at hrecorded
    simp [hrecorded, currentTime, Call.run_bind]
  | throws error markFailed =>
    rw [houtcome, RowOutcome.recorded, Bool.not_eq_true] at hrecorded
    simp [hrecorded, Call.run_bind]
  | connectionLost => rfl

/-- Assumes: the bookkeeping of every row works. The transaction has one result a row and the tasks of the
rows that are marked as sent, in order. -/
theorem run_relayRows_recorded {rows : List OutboxRow}
    (hrecorded : ∀ row ∈ rows, (script.processRow row).recorded = true) :
    (relayRows service script rows tx).run db = (.ok (some {
      writes := tx.writes ++ (script.results db.now rows).map fun entry ↦ entry.2.write service entry.1
      postCommitTasks := tx.postCommitTasks ++ script.tasks rows }), db) := by
  induction rows generalizing tx with
  | nil => simp [relayRows, Script.results, Script.tasks]
  | cons row rest ih =>
    have hrest : ∀ other ∈ rest, (script.processRow other).recorded = true :=
      fun other hother ↦ hrecorded other (List.mem_cons_of_mem row hother)
    rw [relayRows, Call.run_bind, run_relayRow_recorded (hrecorded row List.mem_cons_self)]
    refine (ih hrest).trans ?_
    rw [script.tasks_cons row rest, ← List.append_assoc, List.append_assoc, List.singleton_append]
    rfl

/-- Assumes: the bookkeeping of some row fails. The transaction is aborted. -/
theorem run_relayRows_aborted {rows : List OutboxRow}
    (hfails : ¬ ∀ row ∈ rows, (script.processRow row).recorded = true) :
    (relayRows service script rows tx).run db = (.ok none, db) := by
  induction rows generalizing tx with
  | nil => simp at hfails
  | cons row rest ih =>
    by_cases hrow : (script.processRow row).recorded = true
    · rw [relayRows, Call.run_bind, run_relayRow_recorded hrow]
      refine ih fun hrest ↦ hfails fun other hother ↦ ?_
      rcases List.mem_cons.mp hother with rfl | hlater
      · exact hrow
      · exact hrest other hlater
    · rw [relayRows, Call.run_bind, run_relayRow_aborted hrow]
      rfl

end Loop

/-! ### `relay` -/

section Relay

variable {service : RelayService} {process : ℕ} {script : Script} {db : Db}

/-- The rows of the table once the transaction of the batch has ended. -/
def RelayService.settled (service : RelayService) (script : Script) (db : Db) : List OutboxRow :=
  ((script.results db.now (service.batch db)).map fun entry ↦
    entry.2.write service entry.1).foldl (fun rows write ↦ write.run rows) db.rows

/-- The store once the process has claimed its batch. -/
def RelayService.claimed (service : RelayService) (process : ℕ) (db : Db) : Db :=
  { db with
    relaying := process :: db.relaying
    locked := (service.batch db).map OutboxRow.id ++ db.locked }

/-- Assumes: the process is not relaying. The run claims a batch and goes on with it. -/
theorem run_relay_of_idle (hidle : process ∉ db.relaying) :
    (relay service process script).run db =
      (relayBatch service process script (service.batch db)).run (service.claimed process db) := by
  rw [relay, Call.run_bind, enterRelay, Call.run_atomically, if_neg hidle]
  rfl

/-- Assumes: the process is not relaying, and the transaction commits. The run starts the tasks of the rows
that are marked as sent, and leaves the batch settled. -/
theorem run_relay_committed (hidle : process ∉ db.relaying)
    (hcommits : script.Commits (service.batch db)) :
    ∃ wake after, (relay service process script).run db =
        (.ok (script.tasks (service.batch db), wake), after) ∧
      after.rows = service.settled script db := by
  rw [run_relay_of_idle hidle, relayBatch, Call.run_bind, run_relayRows_recorded hcommits.1]
  simp only [Option.filter, hcommits.2, if_true, Call.run_bind, commit, leaveRelay, Call.run_atomically,
    List.nil_append]
  exact ⟨_, _, rfl, rfl⟩

/-- Assumes: the process is not relaying, and the transaction does not commit. The run fails, so it starts
no task, and leaves the table as it was. -/
theorem run_relay_aborted (hidle : process ∉ db.relaying)
    (haborts : ¬ script.Commits (service.batch db)) :
    ∃ after, (relay service process script).run db = (.error (), after) ∧ after.rows = db.rows := by
  rw [run_relay_of_idle hidle, relayBatch, Call.run_bind]
  by_cases hrecorded : ∀ row ∈ service.batch db, (script.processRow row).recorded = true
  · have hlost : script.commits = false := Bool.eq_false_iff.mpr fun hcommit ↦ haborts ⟨hrecorded, hcommit⟩
    rw [run_relayRows_recorded hrecorded]
    simp only [Option.filter, hlost, Bool.false_eq_true, if_false, Call.run_bind, rollback, leaveRelay,
      Call.run_atomically]
    exact ⟨_, rfl, rfl⟩
  · rw [run_relayRows_aborted hrecorded]
    simp only [Option.filter, Call.run_bind, rollback, leaveRelay, Call.run_atomically]
    exact ⟨_, rfl, rfl⟩

end Relay

/-! ### What a run records for a row -/

/-- The status and the attempts of a row in a table. -/
def record (id : RowId) (rows : List OutboxRow) : Option (RowStatus × ℕ) :=
  (rows.find? fun row ↦ row.id = id).map fun row ↦ (row.status, row.attempts)

section Isolation

variable {service : RelayService} {process : ℕ} {script : Script} {db : Db} {row : OutboxRow}

/-- Assumes: the identifiers of the rows are distinct. A row of the batch is settled by its own result. -/
theorem find_settled (hids : (db.rows.map OutboxRow.id).Nodup) (hrow : row ∈ service.batch db) :
    (service.settled script db).find? (fun other ↦ other.id = row.id) =
      some (settle service row ((script.processRow row).result db.now)) := by
  have hclaimable : Claimable service (service.batch db) := claimable_batch hids
  have hresults : ((script.results db.now (service.batch db)).map fun entry ↦ entry.1.id).Nodup := by
    rw [Script.results, List.map_map]
    exact hclaimable.1
  have hsearch : (fun other ↦ decide (other.id = row.id)) ∘ applyWrites
      ((script.results db.now (service.batch db)).map fun entry ↦ entry.2.write service entry.1) =
      fun other ↦ decide (other.id = row.id) := by
    funext other
    simp only [Function.comp_apply, applyWrites_id]
  have hmem : (row, (script.processRow row).result db.now) ∈
      script.results db.now (service.batch db) := List.mem_map_of_mem hrow
  rw [RelayService.settled, foldl_run, List.find?_map, hsearch, find_of_key hids (mem_batch hrow).1,
    Option.map_some, applyWrites_of_mem hresults hmem]

/-- The post-commit tasks that are run, which is done once the transaction has committed. -/
def tasksRun : Except Unit (List RowId × Bool) → List RowId
  | .ok (postCommitTasks, _) => postCommitTasks
  | .error _ => []

/-- What the run of a script records for a row of its batch: its own result if the transaction commits, and
nothing if it does not. -/
theorem record_relay (hids : (db.rows.map OutboxRow.id).Nodup) (hidle : process ∉ db.relaying)
    (hrow : row ∈ service.batch db)
    (hrecorded : ∀ other ∈ service.batch db, (script.processRow other).recorded = true) :
    record row.id ((relay service process script).run db).2.rows =
      if script.commits then
        some ((settle service row ((script.processRow row).result db.now)).status,
          (settle service row ((script.processRow row).result db.now)).attempts)
      else record row.id db.rows := by
  split_ifs with hcommit
  · obtain ⟨wake, after, hrun, hrows⟩ := run_relay_committed hidle ⟨hrecorded, hcommit⟩
    rw [hrun, record, hrows, find_settled hids hrow]
    rfl
  · obtain ⟨after, hrun, hrows⟩ := run_relay_aborted hidle fun hcommits ↦ hcommit hcommits.2
    rw [hrun, hrows]

/-- Assumes: the identifiers of the rows are distinct, and the process is not relaying. Two scripts that
agree on a row of the batch and on the commit, and let the bookkeeping of the batch work, leave the row with
the same status and the same attempts. And whatever the script is, the tasks that are run are those of the
rows that are marked as sent if the transaction commits, and none if it does not. -/
theorem relay_isolates (hids : (db.rows.map OutboxRow.id).Nodup) (hidle : process ∉ db.relaying) :
    (∀ first second : Script, ∀ row ∈ service.batch db,
      (∀ other ∈ service.batch db, (first.processRow other).recorded = true) →
      (∀ other ∈ service.batch db, (second.processRow other).recorded = true) →
      first.processRow row = second.processRow row → first.commits = second.commits →
        record row.id ((relay service process first).run db).2.rows =
          record row.id ((relay service process second).run db).2.rows) ∧
    ∀ script : Script,
      (script.Commits (service.batch db) →
        tasksRun ((relay service process script).run db).1 = script.tasks (service.batch db)) ∧
      (¬ script.Commits (service.batch db) →
        tasksRun ((relay service process script).run db).1 = []) := by
  refine ⟨?_, fun script ↦ ⟨fun hcommits ↦ ?_, fun haborts ↦ ?_⟩⟩
  · intro first second row hrow hfirst hsecond hsame hcommits
    rw [record_relay hids hidle hrow hfirst, record_relay hids hidle hrow hsecond, hsame, hcommits]
  · obtain ⟨wake, after, hrun, _⟩ := run_relay_committed hidle hcommits
    rw [hrun, tasksRun]
  · obtain ⟨after, hrun, _⟩ := run_relay_aborted hidle haborts
    rw [hrun, tasksRun]

/-- A script in which the other row of the batch is processed, and not the first one. -/
def otherScript : Script where
  processRow row := if row.id = 1 then .returns false true else .returns true true
  commits := true

/-- A witness: two rows, of which the second one is processed in one of two runs. -/
theorem relay_isolates_witness :
    record 1 ((relay outboxRelayService 0 exampleScript).run exampleDb).2.rows =
        record 1 ((relay outboxRelayService 0 otherScript).run exampleDb).2.rows ∧
      tasksRun ((relay outboxRelayService 0 otherScript).run exampleDb).1 =
        otherScript.tasks (outboxRelayService.batch exampleDb) := by
  have hisolates := @relay_isolates outboxRelayService 0 exampleDb (by decide) (by decide)
  refine ⟨hisolates.1 exampleScript otherScript { id := 1, createdAt := 0, scheduledAt := 0 }
    (by decide) (by decide) (by decide) rfl rfl, (hisolates.2 otherScript).1 ⟨by decide, rfl⟩⟩

end Isolation

end RallyApi.Outbox

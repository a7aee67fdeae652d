import RallyApi.Concurrency.Throws
import RallyApi.Notifications.Relays
import RallyApi.Store.Multiplicity

/-!
# The relays of the pipeline are outbox relays

`AbstractOutboxRelay` is modelled twice. `Outbox.Relay` has its loop over any outbox, with a script for what
becomes of each row. `Relays` has the same loop with what `processRow` does for a notification and for an
e-mail, which the script leaves open. Here the second is shown to refine the first.

`RelayService.view` keeps of a store what every outbox has. The statements of a relay act on the view as
those of the abstract one do (`batch_view`, `view_enterRelay`, `view_commitTransaction`,
`view_endTransaction`, `view_leaveRelay`). Whatever other calls do between its steps, the loop over a
batch ends as the abstract one does for some script (`relayRows_refines`). `transaction_refines` puts a
transaction together.
-/

set_option autoImplicit false
set_option relaxedAutoImplicit false

namespace RallyApi.Notifications

open Concurrency Outbox Platform Store

variable {Row : Type} {service : RelayService Row} {db after : Db} {number process : ℕ}

/-! ### The view -/

/-- The workers that have the outbox in a list of flags. -/
def flagged (outbox : OutboxName) (flags : List (ℕ × OutboxName)) : List ℕ :=
  (flags.filter fun entry ↦ entry.2 = outbox).map Prod.fst

/-- The store, as the abstract relay of this outbox sees it. -/
def RelayService.view (service : RelayService Row) (db : Db) : Outbox.Db where
  rows := (service.rows db).map service.columns
  locked := db.locked service.outbox
  now := db.now
  relaying := flagged service.outbox db.relaying
  wakeOnComplete := flagged service.outbox db.wakeOnComplete

/-- The transaction, as the abstract relay sees it. A task is known by the row it is for. -/
def BatchTx.view (tx : BatchTx) : Outbox.BatchTx where
  writes := tx.writes
  postCommitTasks := tx.postCommitTasks.map fun task ↦ task.row.id

/-- The table of a relay is one of the two outboxes, its columns can be set, and its tasks are for their
rows. -/
structure RelayService.Lawful (service : RelayService Row) : Prop where
  columns : ∀ columns row, service.columns (service.setColumns columns row) = columns
  table : ∀ db after : Db, after.notificationOutbox = db.notificationOutbox →
    after.emailOutbox = db.emailOutbox → service.rows after = service.rows db
  rows : ∀ rows db, service.rows (service.setRows rows db) = rows
  frame : ∀ rows db, (service.setRows rows db).now = db.now ∧
    (service.setRows rows db).relaying = db.relaying ∧
      (service.setRows rows db).wakeOnComplete = db.wakeOnComplete
  task : ∀ row task, (service.processRow row).Returns (some task) → task.row.id = (service.columns row).id

theorem notificationRelay_lawful : notificationRelay.Lawful where
  columns _ _ := rfl
  table _ _ hsame _ := hsame
  rows _ _ := rfl
  frame _ _ := ⟨rfl, rfl, rfl⟩
  task row task hreturns := by
    obtain ⟨enabled, -, hreturns⟩ := Call.Returns.of_bind hreturns
    split_ifs at hreturns
    · cases hreturns
    · obtain ⟨rendered, -, hreturns⟩ := Call.Returns.of_bind hreturns
      obtain ⟨notification, -, hreturns⟩ := Call.Returns.of_bind hreturns
      cases notification with
      | none => cases hreturns
      | some notification =>
        obtain ⟨emailEnabled, -, hreturns⟩ := Call.Returns.of_bind hreturns
        obtain rfl := Option.some.inj hreturns
        rfl

/-- An e-mail has no post-commit work. -/
theorem processEmail_returns {row : EmailOutboxRow} {task : Option PostCommitTask}
    (hreturns : (processEmail row).Returns task) : task = none := by
  have hsent : ∀ task : Option PostCommitTask,
      (sendTemplate row >>= fun _ ↦ pure none).Returns task → task = none := by
    intro task hreturns
    obtain ⟨-, -, hnone⟩ := Call.Returns.of_bind hreturns
    exact hnone.symm
  unfold processEmail at hreturns
  split at hreturns
  · obtain ⟨enabled, -, hreturns⟩ := Call.Returns.of_bind hreturns
    split_ifs at hreturns
    · obtain ⟨-, -, hnone⟩ := Call.Returns.of_bind hreturns
      exact hnone.symm
    · exact hsent task hreturns
  · exact hsent task hreturns

theorem emailRelay_lawful : emailRelay.Lawful where
  columns _ _ := rfl
  table _ _ _ hsame := hsame
  rows _ _ := rfl
  frame _ _ := ⟨rfl, rfl, rfl⟩
  task row task hreturns := by cases processEmail_returns hreturns

/-! ### The statements -/

theorem batch_view (service : RelayService Row) (db : Db) :
    (service.batch db).map service.columns = service.constants.batch (service.view db) := by
  unfold RelayService.batch Outbox.RelayService.batch
  rw [List.map_take]
  congr 1
  simp only [RelayService.view, List.filter_map]
  exact List.map_insertionSort _ _ _ _ fun _ _ _ _ ↦ Iff.rfl

theorem mem_flagged {outbox : OutboxName} {flags : List (ℕ × OutboxName)} :
    process ∈ flagged outbox flags ↔ (process, outbox) ∈ flags := by
  simp [flagged]

theorem flagged_cons (outbox : OutboxName) (flags : List (ℕ × OutboxName)) :
    flagged outbox ((process, outbox) :: flags) = process :: flagged outbox flags := by
  simp [flagged]

theorem flagged_filter (outbox : OutboxName) (flags : List (ℕ × OutboxName)) :
    flagged outbox (flags.filter (· ≠ (process, outbox))) =
      (flagged outbox flags).filter (· ≠ process) := by
  unfold flagged
  rw [List.filter_map, List.filter_filter, List.filter_filter]
  congr 1
  refine List.filter_congr fun entry _ ↦ ?_
  by_cases houtbox : entry.2 = outbox <;> simp [Prod.ext_iff, houtbox]

theorem view_guards (hlawful : service.Lawful) (db : Db) (relaying wakeOnComplete : List (ℕ × OutboxName)) :
    service.view { db with relaying, wakeOnComplete } =
      { service.view db with
        relaying := flagged service.outbox relaying
        wakeOnComplete := flagged service.outbox wakeOnComplete } := by
  have htable : service.rows { db with relaying, wakeOnComplete } = service.rows db :=
    hlawful.table _ _ rfl rfl
  rw [RelayService.view, htable]
  rfl

/-- The guard is entered as in the abstract relay. -/
theorem view_enterRelay (hlawful : service.Lawful) {busy : Bool}
    (hrun : (enterRelay process service.outbox).run db = (.ok busy, after)) :
    (Outbox.enterRelay process).run (service.view db) = (.ok busy, service.view after) := by
  rw [enterRelay, Call.run_atomically] at hrun
  rw [Outbox.enterRelay, Call.run_atomically]
  by_cases hbusy : (process, service.outbox) ∈ db.relaying
  · have hview : process ∈ (service.view db).relaying := mem_flagged.mpr hbusy
    have hafter := view_guards hlawful db db.relaying ((process, service.outbox) :: db.wakeOnComplete)
    rw [flagged_cons] at hafter
    rw [if_pos hbusy] at hrun
    cases hrun
    rw [if_pos hview]
    exact congrArg (Prod.mk (Except.ok true)) hafter.symm
  · have hview : process ∉ (service.view db).relaying := mt mem_flagged.mp hbusy
    have hafter := view_guards hlawful db ((process, service.outbox) :: db.relaying) db.wakeOnComplete
    rw [flagged_cons] at hafter
    rw [if_neg hbusy] at hrun
    cases hrun
    rw [if_neg hview]
    exact congrArg (Prod.mk (Except.ok false)) hafter.symm

/-- The guard is left as in the abstract relay. -/
theorem view_leaveRelay (hlawful : service.Lawful) :
    service.view ((leaveRelay process service.outbox).run db).2 =
      ((Outbox.leaveRelay process).run (service.view db)).2 := by
  rw [leaveRelay, Call.run_atomically]
  refine (view_guards hlawful db _ _).trans ?_
  rw [flagged_filter, flagged_filter]
  rfl

/-- The writes of a transaction act on the columns as in the abstract relay. -/
theorem apply_view (hlawful : service.Lawful) (writes : List Write) (rows : List Row) :
    (service.apply writes rows).map service.columns =
      writes.foldl (fun rows write ↦ write.run rows) (rows.map service.columns) := by
  induction writes generalizing rows with
  | nil => rfl
  | cons write rest ih =>
    rw [RelayService.apply, List.foldl_cons, List.foldl_cons]
    refine (ih _).trans (congrArg (List.foldl _ · rest) ?_)
    rw [Write.run, updateWhere, updateWhere, List.map_map, List.map_map]
    refine List.map_congr_left fun row _ ↦ ?_
    simp only [Function.comp_apply]
    split_ifs
    · exact hlawful.columns _ _
    · rfl

/-! ### The end of a transaction -/

/-- The transaction is open and has these rows of the outbox locked, and no other one has. -/
structure Holds (outbox : OutboxName) (number : ℕ) (ids : List RowId) (db : Db) : Prop where
  opened : number ∈ db.transactions.map OpenTransaction.number
  locks : ∀ transaction ∈ db.transactions, transaction.number = number → transaction.locks = ids
  others : ∀ transaction ∈ db.transactions, transaction.number ≠ number → transaction.outbox = outbox →
    ∀ id ∈ transaction.locks, id ∉ ids

/-- A transaction that has fetched its batch holds it: the batch leaves out what others have locked. -/
theorem holds_fetchBatch (hopened : number ∈ db.transactions.map OpenTransaction.number) :
    Holds service.outbox number (((service.batch db).map service.columns).map OutboxRow.id)
      ((fetchBatch service number).run db).2 := by
  have hrun : ((fetchBatch service number).run db).2.transactions =
      updateWhere (fun transaction ↦ transaction.number = number) (fun transaction ↦ { transaction with
        locks := (service.batch db).map fun row ↦ (service.columns row).id }) db.transactions := by
    rw [fetchBatch, inTransaction, Call.run_attempt, if_pos hopened]
  rw [List.map_map]
  refine ⟨?_, ?_, ?_⟩ <;> rw [hrun]
  · rw [map_updateWhere]
    · exact hopened
    · exact fun _ ↦ rfl
  · intro transaction hmem hnumber
    obtain ⟨old, -, rfl⟩ := List.mem_map.mp hmem
    split_ifs at hnumber ⊢ with hsame
    · rfl
    · exact absurd hnumber (by simpa using hsame)
  · intro transaction hmem hnumber houtbox id hid hbatch
    obtain ⟨old, hold, rfl⟩ := List.mem_map.mp hmem
    split_ifs at hnumber houtbox hid with hsame
    · exact hnumber (of_decide_eq_true hsame)
    · obtain ⟨row, hrow, rfl⟩ := List.mem_map.mp hbatch
      have hfree := (List.mem_filter.mp ((List.mem_insertionSort _).mp (List.mem_of_mem_take hrow))).2
      refine (of_decide_eq_true hfree).2.2.2 (List.mem_flatMap.mpr ⟨old, ?_, hid⟩)
      exact List.mem_filter.mpr ⟨hold, decide_eq_true houtbox⟩

/-- A transaction that ends releases the rows it has locked, and no others. -/
theorem locked_without {outbox : OutboxName} {ids : List RowId} (hholds : Holds outbox number ids db) :
    ((db.transactions.filter fun transaction ↦ transaction.number ≠ number).filter fun transaction ↦
      transaction.outbox = outbox).flatMap OpenTransaction.locks =
        (db.locked outbox).filter (· ∉ ids) := by
  have hown : ∀ transaction ∈ db.transactions.filter fun transaction ↦ transaction.outbox = outbox,
      decide (transaction.number ≠ number) = false → transaction.locks.filter (· ∉ ids) = [] := by
    intro transaction hmem hnumber
    have hlocks := hholds.locks transaction (List.mem_filter.mp hmem).1 (by simpa using hnumber)
    rw [hlocks, List.filter_eq_nil_iff]
    simp
  rw [Db.locked, List.filter_flatMap, flatMap_filter_of_nil hown, List.filter_comm]
  refine List.flatMap_congr fun transaction hmem ↦ ?_
  obtain ⟨hmem, hnumber⟩ := List.mem_filter.mp hmem
  obtain ⟨hmem, houtbox⟩ := List.mem_filter.mp hmem
  exact (List.filter_eq_self.mpr fun id hid ↦ decide_eq_true
    (hholds.others transaction hmem (of_decide_eq_true hnumber) (of_decide_eq_true houtbox) id hid)).symm

/-- A transaction that ends without effect is rolled back in the abstract relay. Assumes: it has locked the
rows of the batch. -/
theorem view_endTransaction (hlawful : service.Lawful) {batch : List Row}
    (hholds : Holds service.outbox number ((batch.map service.columns).map OutboxRow.id) db) :
    service.view ((endTransaction number).run db).2 =
      ((Outbox.rollback (batch.map service.columns)).run (service.view db)).2 := by
  have htable : service.rows ((endTransaction number).run db).2 = service.rows db :=
    hlawful.table _ _ rfl rfl
  rw [RelayService.view, htable]
  exact congrArg (fun locked ↦ { service.view db with locked }) (locked_without hholds)

/-- A commit is one of the abstract relay. Assumes: the transaction is open and has locked the rows of the
batch. -/
theorem view_commitTransaction (hlawful : service.Lawful) {tx : BatchTx} {batch : List Row}
    (hholds : Holds service.outbox tx.number ((batch.map service.columns).map OutboxRow.id) db) :
    service.view ((commitTransaction service tx).run db).2 =
      ((Outbox.commit (batch.map service.columns) tx.view).run (service.view db)).2 := by
  obtain ⟨hnow, hrelaying, hwake⟩ := hlawful.frame (service.apply tx.writes (service.rows db)) db
  have hrun : ((commitTransaction service tx).run db).2 =
      { service.setRows (service.apply tx.writes (service.rows db)) db with
        transactions := db.transactions.filter fun transaction ↦ transaction.number ≠ tx.number
        tasks := db.tasks ++ tx.postCommitTasks } := by
    rw [commitTransaction, inTransaction, Call.run_attempt, if_pos hholds.opened]
  have htable : service.rows ((commitTransaction service tx).run db).2 =
      service.apply tx.writes (service.rows db) := by
    rw [hrun]
    refine (hlawful.table (service.setRows (service.apply tx.writes (service.rows db)) db) _ ?_ ?_).trans
      (hlawful.rows _ _)
    · rfl
    · rfl
  rw [RelayService.view, htable, apply_view hlawful, hrun, hnow, hrelaying, hwake]
  exact congrArg (fun locked ↦ { service.view db with
    rows := tx.writes.foldl (fun rows (write : Write) ↦ write.run rows)
      ((service.rows db).map service.columns)
    locked }) (locked_without hholds)

/-! ### The loop -/

variable {tx left : BatchTx} {row : Row} {batch : List Row}

/-- A statement that has returned has found its transaction open. -/
theorem returns_inTransaction {α : Type} {statement : Db → Except Failure (α × Db)} {value : α}
    (hreturns : (inTransaction number statement).Returns value) :
    ∃ db after, statement db = .ok (value, after) := by
  obtain ⟨db, after, hstatement⟩ := Call.returns_attempt.mp hreturns
  split_ifs at hstatement
  exact ⟨db, after, hstatement⟩

theorem markSent_returns (hreturns : (markSent service tx row).Returns left) :
    ∃ sentAt, left = { tx with
      writes := tx.writes ++ [.markSent (service.columns row).id service.constants.sentStatus sentAt] } := by
  obtain ⟨db, after, hstatement⟩ := returns_inTransaction hreturns
  cases hstatement
  exact ⟨db.now, rfl⟩

theorem markFailed_returns {failure : Failure} (hreturns : (markFailed service tx row failure).Returns left) :
    left = { tx with
      writes := tx.writes ++ [.markFailed (service.columns row).id ((service.columns row).attempts + 1)
        (if service.constants.maxAttempts ≤ (service.columns row).attempts + 1 then .failed else .pending)
        failure.message] } := by
  obtain ⟨db, after, hstatement⟩ := returns_inTransaction hreturns
  cases hstatement
  rfl

/-- Assumes: the body of the loop can return. So can that of the abstract loop, where the script says of the
row what has happened. -/
theorem relayRow_refines (hlawful : service.Lawful) (hreturns : (relayRow service tx row).Returns left) :
    ∃ outcome, ∀ script : Script, script.processRow (service.columns row) = outcome →
      (Outbox.relayRow service.constants script (service.columns row) tx.view).Returns (some left.view) := by
  rcases Call.returns_tryCatch.mp hreturns with hreturns | ⟨failure, -, hreturns⟩
  · obtain ⟨task, htask, hreturns⟩ := Call.Returns.of_bind hreturns
    obtain ⟨marked, hmarked, hreturns⟩ := Call.Returns.of_bind hreturns
    obtain ⟨sentAt, rfl⟩ := markSent_returns hmarked
    obtain rfl : _ = left := hreturns
    refine ⟨.returns task.isSome true, fun script hscript ↦ ?_⟩
    have htasks : (tx.postCommitTasks ++ task.toList).map (fun task ↦ task.row.id) =
        if task.isSome then tx.view.postCommitTasks ++ [(service.columns row).id]
        else tx.view.postCommitTasks := by
      cases task with
      | none => exact congrArg _ (List.append_nil _)
      | some task => rw [List.map_append, ← hlawful.task row task htask]; rfl
    have htime : Outbox.currentTime.Returns sentAt := ⟨{ rows := [], now := sentAt }, rfl⟩
    rw [Outbox.relayRow, hscript, BatchTx.view, htasks]
    exact ⟨{ rows := [] }, htime.bind rfl⟩
  · obtain rfl := markFailed_returns hreturns
    refine ⟨.throws failure.message true, fun script hscript ↦ ?_⟩
    rw [Outbox.relayRow, hscript]
    exact ⟨{ rows := [] }, rfl⟩

/-- Scripts that agree on the rows of a batch give the same loop. -/
theorem relayRows_congr {constants : Outbox.RelayService} {first second : Script} {rows : List OutboxRow}
    (hsame : ∀ row ∈ rows, first.processRow row = second.processRow row) (tx : Outbox.BatchTx) :
    Outbox.relayRows constants first rows tx = Outbox.relayRows constants second rows tx := by
  induction rows generalizing tx with
  | nil => rfl
  | cons row rest ih =>
    obtain ⟨hhead, hrest⟩ := List.forall_mem_cons.mp hsame
    rw [Outbox.relayRows, Outbox.relayRows, Outbox.relayRow, Outbox.relayRow, hhead]
    simp only [ih hrest]

/-- Assumes: the rows of the batch are different, and the loop can return. So can the abstract loop, for
some script. -/
theorem relayRows_refines (hlawful : service.Lawful) (hdistinct : (batch.map service.columns).Nodup)
    (hreturns : (relayRows service batch tx).Returns left) :
    ∃ script : Script, (Outbox.relayRows service.constants script (batch.map service.columns) tx.view).Returns
      (some left.view) := by
  induction batch generalizing tx with
  | nil =>
    obtain rfl : tx = left := hreturns
    exact ⟨⟨fun _ ↦ .connectionLost, true⟩, rfl⟩
  | cons row rest ih =>
    obtain ⟨middle, hrow, hrest⟩ := Call.Returns.of_bind hreturns
    rw [List.map_cons, List.nodup_cons] at hdistinct
    obtain ⟨outcome, houtcome⟩ := relayRow_refines hlawful hrow
    obtain ⟨script, hscript⟩ := ih hdistinct.2 hrest
    -- The script of the rest, with what has happened to the first row.
    let whole : Script :=
      { script with processRow := Function.update script.processRow (service.columns row) outcome }
    have hsame : ∀ other ∈ rest.map service.columns, whole.processRow other = script.processRow other := by
      intro other hother
      have hne : other ≠ service.columns row := fun heq ↦ hdistinct.1 (heq ▸ hother)
      exact Function.update_of_ne hne _ _
    refine ⟨whole, (houtcome whole (Function.update_self ..)).bind ?_⟩
    dsimp only
    rwa [relayRows_congr hsame middle.view]

/-- Assumes: the rows of the outbox have identifiers of their own, the loop over the batch of a store can
return, and the transaction commits where it still holds the locks of the batch. The abstract loop over the
abstract batch can return the same writes and tasks, and its commit leaves what this one leaves. -/
theorem transaction_refines (hlawful : service.Lawful) {fetched later : Db}
    (hids : ((service.rows fetched).map fun row ↦ (service.columns row).id).Nodup)
    (hreturns : (relayRows service (service.batch fetched) { number }).Returns tx)
    (hholds : Holds service.outbox tx.number
      (((service.batch fetched).map service.columns).map OutboxRow.id) later) :
    ∃ script : Script, (Outbox.relayRows service.constants script
        (service.constants.batch (service.view fetched)) {}).Returns (some tx.view) ∧
      service.view ((commitTransaction service tx).run later).2 =
        ((Outbox.commit (service.constants.batch (service.view fetched)) tx.view).run
          (service.view later)).2 := by
  have hdistinct : ((service.batch fetched).map service.columns).Nodup := by
    have hall : ((service.rows fetched).map service.columns).Nodup := by
      refine List.Nodup.of_map OutboxRow.id ?_
      rwa [List.map_map]
    rw [batch_view]
    refine List.Nodup.sublist (List.take_sublist _ _) ?_
    exact (List.perm_insertionSort _ _).nodup_iff.mpr (hall.filter _)
  obtain ⟨script, hscript⟩ := relayRows_refines hlawful hdistinct hreturns
  rw [← batch_view]
  exact ⟨script, hscript, view_commitTransaction hlawful hholds⟩

end RallyApi.Notifications

import Mathlib.Data.List.Nodup
import RallyApi.Outbox.Relay

/-!
# The state machine of outbox rows

Any number of worker processes run `relay` at once, with failing rows and aborted transactions in
any place. Still a pending row has attempts left, a row is failed exactly when its attempts are used
up, delivered and failed rows never change again, no row is lost, and no row has two committed
successful calls of `processRow` (`reachable_outbox`).

A row is claimed by at most one open transaction: its lock keeps the others away (`exclusive`), so
the attempts `relay` has read are still the attempts in the table when it commits (`Progress`).
-/

set_option autoImplicit false
set_option relaxedAutoImplicit false

namespace RallyApi.Outbox

open Concurrency Platform Store

/-! ### The writes of a transaction -/

/-- What the transaction records of a row. -/
inductive RowResult
  | sent (sentAt : Date)
  | failed (error : String)

/-- `processRow` returned. -/
def RowResult.returned : RowResult → Bool
  | .sent _ => true
  | .failed _ => false

/-- The `UPDATE` that records a result. -/
def RowResult.write (service : RelayService) (row : OutboxRow) : RowResult → Write
  | .sent sentAt => .markSent row.id service.sentStatus sentAt
  | .failed error => .markFailed row.id (row.attempts + 1)
      (if service.maxAttempts ≤ row.attempts + 1 then .failed else .pending) error

/-- The row after its result has been recorded. -/
def settle (service : RelayService) (row : OutboxRow) (result : RowResult) : OutboxRow :=
  (result.write service row).set row

@[simp]
theorem write_rowId (service : RelayService) (row : OutboxRow) (result : RowResult) :
    (result.write service row).rowId = row.id := by
  cases result <;> rfl

@[simp]
theorem settle_id (service : RelayService) (row : OutboxRow) (result : RowResult) :
    (settle service row result).id = row.id := Write.set_id _ _

/-- Recording a success sets the status of `markSent`; recording a failure never does. -/
theorem settle_status_eq_sentStatus (service : RelayService) (row : OutboxRow)
    (result : RowResult) :
    (settle service row result).status = service.sentStatus ↔ result.returned = true := by
  cases result with
  | sent sentAt => simp [settle, RowResult.write, Write.set, RowResult.returned]
  | failed error =>
    have hpending := service.sentStatus_ne_pending
    have hfailed := service.sentStatus_ne_failed
    simp only [settle, RowResult.write, Write.set, RowResult.returned, Bool.false_eq_true, iff_false]
    split_ifs
    · exact hfailed.symm
    · exact hpending.symm

/-- The effect of the writes of a transaction on one row. -/
def applyWrites (writes : List Write) (row : OutboxRow) : OutboxRow :=
  writes.foldl (fun row write ↦ if row.id = write.rowId then write.set row else row) row

theorem applyWrites_id (writes : List Write) (row : OutboxRow) :
    (applyWrites writes row).id = row.id := by
  induction writes generalizing row with
  | nil => rfl
  | cons write rest ih =>
    rw [applyWrites, List.foldl_cons]
    refine (ih _).trans ?_
    split_ifs
    · exact Write.set_id write row
    · rfl

/-- The writes act on each row by itself. -/
theorem foldl_run (writes : List Write) (rows : List OutboxRow) :
    writes.foldl (fun rows write ↦ write.run rows) rows = rows.map (applyWrites writes) := by
  induction writes generalizing rows with
  | nil => exact (List.map_id' rows).symm
  | cons write rest ih =>
    rw [List.foldl_cons, ih, Write.run, updateWhere, List.map_map]
    refine List.map_congr_left fun row _ ↦ ?_
    simp [applyWrites]

/-- Writes about other rows leave a row alone. -/
theorem applyWrites_of_not_mem {writes : List Write} {row : OutboxRow}
    (hother : ∀ write ∈ writes, write.rowId ≠ row.id) : applyWrites writes row = row := by
  induction writes with
  | nil => rfl
  | cons write rest ih =>
    rw [applyWrites, List.foldl_cons, if_neg (Ne.symm (hother write (List.mem_cons_self ..)))]
    exact ih fun write hwrite ↦ hother write (List.mem_cons_of_mem _ hwrite)

/-- Assumes: the writes are about different rows. A row with a write is as that write leaves it. -/
theorem applyWrites_of_unique {writes : List Write} {write : Write} {row : OutboxRow}
    (hunique : (writes.map Write.rowId).Nodup) (hwrite : write ∈ writes)
    (hrow : row.id = write.rowId) : applyWrites writes row = write.set row := by
  induction writes with
  | nil => cases hwrite
  | cons first rest ih =>
    rw [List.map_cons, List.nodup_cons] at hunique
    rcases List.mem_cons.mp hwrite with rfl | hrest
    · rw [applyWrites, List.foldl_cons, if_pos hrow]
      refine applyWrites_of_not_mem fun other hother ↦ ?_
      rw [Write.set_id, hrow]
      exact fun hsame ↦ hunique.1 (List.mem_map.mpr ⟨other, hother, hsame⟩)
    · have hfirst : row.id ≠ first.rowId := fun hsame ↦
        hunique.1 (List.mem_map.mpr ⟨write, hrest, hrow.symm.trans hsame⟩)
      rw [applyWrites, List.foldl_cons, if_neg hfirst]
      exact ih hunique.2 hrest

/-- Assumes: the transaction records one result a row. A recorded row is settled by it. -/
theorem applyWrites_of_mem {service : RelayService} {results : List (OutboxRow × RowResult)}
    (hnodup : (results.map fun entry ↦ entry.1.id).Nodup) {row : OutboxRow} {result : RowResult}
    (hmem : (row, result) ∈ results) :
    applyWrites (results.map fun entry ↦ entry.2.write service entry.1) row =
      settle service row result := by
  have hids : (results.map fun entry ↦ entry.2.write service entry.1).map Write.rowId =
      results.map fun entry ↦ entry.1.id := by
    rw [List.map_map]
    exact List.map_congr_left fun entry _ ↦ write_rowId service entry.1 entry.2
  exact applyWrites_of_unique (hids ▸ hnodup) (List.mem_map_of_mem hmem)
    (write_rowId service row result).symm

/-! ### Committed successes -/

/-- How many calls of `processRow` for the row returned in a transaction that committed. -/
def committedSuccesses (id : RowId) (log : List (ℕ × RelayStep)) : ℕ :=
  log.countP fun entry ↦ entry.2 = .processRow id true ∧ (entry.1, RelayStep.commit) ∈ log

/-- A step that does not commit, of a call that has not committed, adds no committed success. -/
theorem committedSuccesses_cons {id : RowId} {number : ℕ} {label : RelayStep}
    {log : List (ℕ × RelayStep)} (hlabel : label ≠ .commit)
    (hopen : label = .processRow id true → (number, RelayStep.commit) ∉ log) :
    committedSuccesses id ((number, label) :: log) = committedSuccesses id log := by
  have hcommit : ∀ other : ℕ, (other, RelayStep.commit) ∈ (number, label) :: log ↔
      (other, RelayStep.commit) ∈ log := by
    intro other
    rw [List.mem_cons, Prod.mk.injEq, or_iff_right fun h ↦ hlabel h.2.symm]
  simp only [committedSuccesses, hcommit]
  rw [List.countP_cons_of_neg]
  simpa using hopen

/-- A commit adds the successes of its own call. -/
theorem committedSuccesses_commit {id : RowId} {number : ℕ} {log : List (ℕ × RelayStep)}
    (hopen : (number, RelayStep.commit) ∉ log) :
    committedSuccesses id ((number, .commit) :: log) =
      committedSuccesses id log + log.count (number, .processRow id true) := by
  unfold committedSuccesses
  rw [List.countP_cons_of_neg (by simp)]
  suffices hsplit : ∀ entries : List (ℕ × RelayStep),
      entries.countP (fun entry ↦ entry.2 = .processRow id true ∧
          (entry.1, RelayStep.commit) ∈ (number, RelayStep.commit) :: log) =
        entries.countP (fun entry ↦ entry.2 = .processRow id true ∧
          (entry.1, RelayStep.commit) ∈ log) + entries.count (number, .processRow id true) from
    hsplit log
  intro entries
  induction entries with
  | nil => rfl
  | cons entry rest ih =>
    obtain ⟨other, label⟩ := entry
    rw [List.countP_cons, List.countP_cons, List.count_cons, ih]
    by_cases hlabel : label = .processRow id true
    · by_cases hother : other = number
      · subst hother
        simp [hlabel, hopen]
        omega
      · simp [hlabel, hother]
        omega
    · simp [hlabel]

/-! ### The protocol -/

/-- The transaction of call `number` has not ended. -/
def Open (number : ℕ) (world : World Db RelayStep) : Prop :=
  .commit ∉ world.history number ∧ .rollback ∉ world.history number

/-- A row between two transactions: pending with attempts left, failed with its attempts used up, or
delivered. -/
inductive RowInOrder (service : RelayService) (row : OutboxRow) : Prop
  | pending (hstatus : row.status = .pending) (hattempts : row.attempts < service.maxAttempts)
  | failed (hstatus : row.status = .failed) (hattempts : row.attempts = service.maxAttempts)
  | sent (hstatus : row.status = service.sentStatus) (hattempts : row.attempts < service.maxAttempts)

/-- The invariant: rows are in order; an open transaction holds the locks of the rows it has
claimed, and no other open transaction has claimed them; and the delivered rows are those with a
committed success, of which there is one. -/
structure OutboxInOrder (service : RelayService) (world : World Db RelayStep) : Prop where
  ids : (world.db.rows.map OutboxRow.id).Nodup
  rows : ∀ row ∈ world.db.rows, RowInOrder service row
  held : ∀ number ids, .fetch ids ∈ world.history number → Open number world →
    ids ⊆ world.db.locked
  exclusive : ∀ first second firstIds secondIds, first ≠ second →
    .fetch firstIds ∈ world.history first → .fetch secondIds ∈ world.history second →
      Open first world → Open second world → ∀ id ∈ firstIds, id ∉ secondIds
  once : ∀ id, committedSuccesses id world.log ≤ 1
  delivered : ∀ row ∈ world.db.rows,
    row.status = service.sentStatus → 0 < committedSuccesses row.id world.log
  recorded : ∀ id, 0 < committedSuccesses id world.log →
    ∃ row ∈ world.db.rows, row.id = id ∧ row.status = service.sentStatus

/-- The guarantee of call `number`: it leaves the rows claimed by the others alone and the rows that
are no longer pending too, drops no row, and delivers a row only by the commit of a transaction in
which `processRow` returned for it. -/
structure KeepsOutbox (service : RelayService) (number : ℕ) (world : World Db RelayStep)
    (label : RelayStep) (after : Db) : Prop where
  claimed : ∀ other ids, other ≠ number → .fetch ids ∈ world.history other → Open other world →
    ∀ row ∈ world.db.rows, row.id ∈ ids → row ∈ after.rows
  final : ∀ row ∈ world.db.rows, row.status ≠ .pending → row ∈ after.rows
  kept : world.db.rows.map OutboxRow.id ⊆ after.rows.map OutboxRow.id
  sent : ∀ row ∈ after.rows, row.status = service.sentStatus → row ∈ world.db.rows ∨
    label = .commit ∧ .processRow row.id true ∈ world.history number

/-- The protocol of the workers and producers of an outbox. -/
def outboxProtocol (service : RelayService) : Protocol Db RelayStep where
  permits := anyStep
  invariant := OutboxInOrder service
  guarantee := KeepsOutbox service

variable {service : RelayService} {number : ℕ} {world : World Db RelayStep}

theorem open_after_of_ne {other : ℕ} {label : RelayStep} {after : Db} (hne : other ≠ number) :
    Open number (world.after other label after) ↔ Open number world := by
  simp [Open, hne]

/-- A step that does not end a transaction. -/
theorem open_after {other : ℕ} {label : RelayStep} {after : Db} (hcommit : label ≠ .commit)
    (hrollback : label ≠ .rollback) :
    Open number (world.after other label after) ↔ Open number world := by
  simp only [Open, mem_history_after, not_or]
  constructor
  · exact fun h ↦ ⟨h.1.2, h.2.2⟩
  · exact fun h ↦ ⟨⟨fun heq ↦ hcommit heq.2.symm, h.1⟩, fun heq ↦ hrollback heq.2.symm, h.2⟩

/-- A step that leaves the table alone. Assumes: it does not commit, it calls `processRow` only in a
transaction that has not committed, and the claims are in order after it. -/
theorem sameRows_keepsOutbox {label : RelayStep} {after : Db} (hinv : OutboxInOrder service world)
    (hrows : after.rows = world.db.rows) (hcommit : label ≠ .commit)
    (hprocess : ∀ id, label = .processRow id true → Open number world)
    (hheld : ∀ other ids, .fetch ids ∈ (world.after number label after).history other →
      Open other (world.after number label after) → ids ⊆ after.locked)
    (hexclusive : ∀ first second firstIds secondIds, first ≠ second →
      .fetch firstIds ∈ (world.after number label after).history first →
        .fetch secondIds ∈ (world.after number label after).history second →
          Open first (world.after number label after) →
            Open second (world.after number label after) → ∀ id ∈ firstIds, id ∉ secondIds) :
    (outboxProtocol service).Keeps number world label after := by
  have hsuccesses : ∀ id, committedSuccesses id (world.after number label after).log =
      committedSuccesses id world.log := fun id ↦
    committedSuccesses_cons hcommit fun heq hmem ↦ (hprocess id heq).1 (mem_history.mpr hmem)
  refine ⟨⟨fun _ _ _ _ _ row hrow _ ↦ hrows ▸ hrow, fun row hrow _ ↦ hrows ▸ hrow,
    hrows ▸ fun _ ↦ id, fun row hrow _ ↦ .inl (hrows ▸ hrow)⟩, hrows ▸ hinv.ids, ?_, hheld,
    hexclusive, ?_, ?_, ?_⟩
  · exact fun row hrow ↦ hinv.rows row (hrows ▸ hrow)
  · exact fun id ↦ hsuccesses id ▸ hinv.once id
  · exact fun row hrow hsent ↦ hsuccesses row.id ▸ hinv.delivered row (hrows ▸ hrow) hsent
  · intro id hpos
    obtain ⟨row, hrow, hrest⟩ := hinv.recorded id (hsuccesses id ▸ hpos)
    exact ⟨row, hrows.symm ▸ hrow, hrest⟩

/-- The table and the locks stay, and the step is none that the history of a transaction is about, or
it is a call of `processRow` in an open transaction. -/
theorem idle_keepsOutbox {label : RelayStep} {after : Db} (hinv : OutboxInOrder service world)
    (hrows : after.rows = world.db.rows) (hlocked : after.locked = world.db.locked)
    (hlabel : label = .other ∨ (∃ id returned, label = .processRow id returned) ∧
      Open number world) :
    (outboxProtocol service).Keeps number world label after := by
  have hcommit : label ≠ .commit := by rcases hlabel with rfl | ⟨⟨_, _, rfl⟩, _⟩ <;> simp
  have hrollback : label ≠ .rollback := by rcases hlabel with rfl | ⟨⟨_, _, rfl⟩, _⟩ <;> simp
  have hfetch : ∀ {other ids}, .fetch ids ∈ (world.after number label after).history other →
      .fetch ids ∈ world.history other := by
    intro other ids hmem
    rcases mem_history_after.mp hmem with ⟨_, heq⟩ | hold
    · rcases hlabel with rfl | ⟨⟨_, _, rfl⟩, _⟩ <;> cases heq
    · exact hold
  refine sameRows_keepsOutbox hinv hrows hcommit ?_ ?_ ?_
  · rintro id rfl
    rcases hlabel with heq | ⟨_, hopen⟩
    · cases heq
    · exact hopen
  · intro other ids hmem hopen
    exact hlocked ▸ hinv.held other ids (hfetch hmem) ((open_after hcommit hrollback).mp hopen)
  · exact fun first second firstIds secondIds hne hfirst hsecond hopenFirst hopenSecond ↦
      hinv.exclusive first second firstIds secondIds hne (hfetch hfirst) (hfetch hsecond)
        ((open_after hcommit hrollback).mp hopenFirst)
        ((open_after hcommit hrollback).mp hopenSecond)

/-- Assumes: the primary key is new. Inserting a pending row keeps the protocol. -/
theorem insert_keepsOutbox {row : OutboxRow} {after : Db} (hinv : OutboxInOrder service world)
    (hstatus : row.status = .pending) (hattempts : row.attempts = 0)
    (hnew : row.id ∉ world.db.rows.map OutboxRow.id) (hrows : after.rows = world.db.rows ++ [row])
    (hlocked : after.locked = world.db.locked) :
    (outboxProtocol service).Keeps number world .other after := by
  have hidle : (outboxProtocol service).Keeps number world .other { after with rows := world.db.rows } :=
    idle_keepsOutbox hinv rfl hlocked (.inl rfl)
  have hold : ∀ old ∈ world.db.rows, old ∈ after.rows := fun old hmem ↦
    hrows ▸ List.mem_append_left _ hmem
  have hcases : ∀ new ∈ after.rows, new ∈ world.db.rows ∨ new = row := by
    intro new hmem
    rw [hrows] at hmem
    exact (List.mem_append.mp hmem).imp_right List.mem_singleton.mp
  have hnotSent : row.status ≠ service.sentStatus := fun heq ↦
    service.sentStatus_ne_pending (heq.symm.trans hstatus)
  have hinv' : OutboxInOrder service _ := hidle.invariant
  refine ⟨⟨fun _ _ _ _ _ old hmem _ ↦ hold old hmem, fun old hmem _ ↦ hold old hmem, ?_, ?_⟩, ?_⟩
  · rw [hrows, List.map_append]
    exact List.subset_append_left _ _
  · intro new hmem hsent
    rcases hcases new hmem with hmem | rfl
    · exact .inl hmem
    · exact absurd hsent hnotSent
  · refine ⟨?_, ?_, hinv'.held, hinv'.exclusive, hinv'.once, ?_, ?_⟩
    · change (after.rows.map OutboxRow.id).Nodup
      rw [hrows, List.map_append, List.map_singleton]
      exact List.nodup_append.mpr ⟨hinv.ids, List.nodup_singleton _, by
        intro first hfirst second hsecond heq
        exact hnew (List.mem_singleton.mp hsecond ▸ heq ▸ hfirst)⟩
    · intro new hmem
      rcases hcases new hmem with hmem | rfl
      · exact hinv.rows new hmem
      · exact .pending hstatus (hattempts ▸ service.maxAttempts_pos)
    · intro new hmem hsent
      rcases hcases new hmem with hmem | rfl
      · exact hinv'.delivered new hmem hsent
      · exact absurd hsent hnotSent
    · intro id hpos
      obtain ⟨old, hmem, hrest⟩ := hinv'.recorded id hpos
      exact ⟨old, hold old hmem, hrest⟩

/-! ### A transaction of the relay -/

/-- What a call knows before it claims a batch. -/
def Unclaimed (number : ℕ) (world : World Db RelayStep) : Prop :=
  ∀ label ∈ world.history number, label = .other

theorem Unclaimed.isOpen (hunclaimed : Unclaimed number world) : Open number world := by
  constructor <;> exact fun hmem ↦ by cases hunclaimed _ hmem

theorem stable_unclaimed : (outboxProtocol service).Stable number (Unclaimed number) :=
  Protocol.stable_history fun labels ↦ ∀ label ∈ labels, label = RelayStep.other

/-- A row of a batch is pending with attempts left. -/
def Claimable (service : RelayService) (batch : List OutboxRow) : Prop :=
  (batch.map OutboxRow.id).Nodup ∧
    ∀ row ∈ batch, row.status = .pending ∧ row.attempts < service.maxAttempts

/-- What a call knows while its transaction is open: the rows of its batch are in the table as it
has read them, and its history has the claim and one successful call of `processRow` for every
success it has recorded. -/
structure Progress (number : ℕ) (batch : List OutboxRow)
    (results : List (OutboxRow × RowResult)) (world : World Db RelayStep) : Prop where
  unchanged : ∀ row ∈ batch, row ∈ world.db.rows
  fetched : .fetch (batch.map OutboxRow.id) ∈ world.history number
  isOpen : Open number world
  processed : ∀ id, world.log.count (number, .processRow id true) =
    results.countP fun entry ↦ entry.1.id = id ∧ entry.2.returned = true

theorem stable_progress (batch : List OutboxRow) (results : List (OutboxRow × RowResult)) :
    (outboxProtocol service).Stable number (Progress number batch results) := by
  intro other hne world label after _ hprogress hguarantee
  refine ⟨fun row hrow ↦ ?_, ?_, ?_, fun id ↦ ?_⟩
  · exact hguarantee.claimed number _ (Ne.symm hne) hprogress.fetched hprogress.isOpen row
      (hprogress.unchanged row hrow) (List.mem_map_of_mem hrow)
  · exact mem_history_after.mpr (.inr hprogress.fetched)
  · exact (open_after_of_ne hne).mpr hprogress.isOpen
  · rw [World.after, List.count_cons_of_ne (by simp [hne])]
    exact hprogress.processed id

/-- The batch consists of pending rows of the table, with attempts left. -/
theorem mem_batch {db : Db} {row : OutboxRow} (hmem : row ∈ service.batch db) :
    row ∈ db.rows ∧ row.status = .pending ∧ row.attempts < service.maxAttempts ∧
      row.id ∉ db.locked := by
  have hsorted := List.mem_of_mem_take hmem
  rw [List.mem_insertionSort] at hsorted
  have hfilter := List.mem_filter.mp hsorted
  simp only [decide_eq_true_eq] at hfilter
  exact ⟨hfilter.1, hfilter.2.1, hfilter.2.2.1, hfilter.2.2.2.2⟩

/-- Rows with distinct keys are selected, sorted and limited. What is left has distinct keys. -/
theorem nodup_map_page {Row Key : Type} {rows : List Row} {key : Row → Key} {select : Row → Bool}
    {before : Row → Row → Prop} [DecidableRel before] {limit : ℕ} (hkeys : (rows.map key).Nodup) :
    ((((rows.filter select).insertionSort before).take limit).map key).Nodup := by
  refine ((List.take_sublist _ _).map key).nodup ?_
  refine ((List.perm_insertionSort before _).map key).nodup_iff.mpr ?_
  exact (List.filter_sublist.map key).nodup hkeys

/-- The batch is claimable. -/
theorem claimable_batch {db : Db} (hids : (db.rows.map OutboxRow.id).Nodup) :
    Claimable service (service.batch db) :=
  ⟨nodup_map_page hids, fun _ hmem ↦ ⟨(mem_batch hmem).2.1, (mem_batch hmem).2.2.1⟩⟩

/-- Claiming a batch: its rows are locked by nobody, so no open transaction has claimed them. -/
theorem fetchBatch_meets :
    (outboxProtocol service).Meets number (fetchBatch service) (Unclaimed number)
      fun batch world ↦ Claimable service batch ∧ Progress number batch [] world := by
  refine Protocol.meets_atomically stable_unclaimed fun world hinv hunclaimed _ ↦ ?_
  have hinv : OutboxInOrder service world := hinv
  have hopen := hunclaimed.isOpen
  have hbefore : ∀ {other ids after},
      .fetch ids ∈ (world.after number (.fetch ((service.batch world.db).map OutboxRow.id))
        after).history other →
        other = number ∧ ids = (service.batch world.db).map OutboxRow.id ∨
          .fetch ids ∈ world.history other ∧ other ≠ number := by
    intro other ids after hmem
    rcases mem_history_after.mp hmem with ⟨rfl, heq⟩ | hold
    · exact .inl ⟨rfl, RelayStep.fetch.inj heq⟩
    · refine .inr ⟨hold, fun heq ↦ ?_⟩
      subst heq
      cases hunclaimed _ hold
  have hfree : ∀ other ids, .fetch ids ∈ world.history other → Open other world →
      ∀ id ∈ ids, id ∉ (service.batch world.db).map OutboxRow.id := by
    intro other ids hmem hother id hid hbatch
    obtain ⟨row, hrow, rfl⟩ := List.mem_map.mp hbatch
    exact (mem_batch hrow).2.2.2 (hinv.held other ids hmem hother hid)
  refine ⟨sameRows_keepsOutbox hinv rfl (by simp) (by simp) ?_ ?_, claimable_batch hinv.ids, ?_⟩
  · intro other ids hmem hother
    rcases hbefore hmem with ⟨_, rfl⟩ | ⟨hold, _⟩
    · exact List.subset_append_left _ _
    · have hheld := hinv.held other ids hold ((open_after (by simp) (by simp)).mp hother)
      exact List.Subset.trans hheld (List.subset_append_right _ _)
  · intro first second firstIds secondIds hne hfirst hsecond hopenFirst hopenSecond
    rw [open_after (by simp) (by simp)] at hopenFirst hopenSecond
    rcases hbefore hfirst with ⟨rfl, rfl⟩ | ⟨holdFirst, hneFirst⟩ <;>
      rcases hbefore hsecond with ⟨rfl, rfl⟩ | ⟨holdSecond, hneSecond⟩
    · exact absurd rfl hne
    · exact fun id hbatch hid ↦ hfree second _ holdSecond hopenSecond id hid hbatch
    · exact hfree first _ holdFirst hopenFirst
    · exact hinv.exclusive first second _ _ hne holdFirst holdSecond hopenFirst hopenSecond
  · refine ⟨fun row hrow ↦ (mem_batch hrow).1, mem_history_after.mpr (.inl ⟨rfl, rfl⟩),
      (open_after (by simp) (by simp)).mpr hopen, fun id ↦ ?_⟩
    rw [World.after, List.count_cons_of_ne (by simp), List.countP_nil]
    refine List.count_eq_zero.mpr fun hmem ↦ ?_
    cases hunclaimed _ (mem_history.mpr hmem)

/-- Calling `processRow` for a row in an open transaction. -/
theorem processRow_meets {batch : List OutboxRow} {results : List (OutboxRow × RowResult)}
    (row : OutboxRow) (result : RowResult) :
    (outboxProtocol service).Meets number
      (Call.query (.processRow row.id result.returned) fun _ ↦ () : RelayCall Unit)
      (Progress number batch results)
      fun _ ↦ Progress number batch (results ++ [(row, result)]) := by
  refine Protocol.meets_query (stable_progress batch results) fun world hinv hprogress _ ↦ ?_
  refine ⟨idle_keepsOutbox hinv rfl rfl (.inr ⟨⟨_, _, rfl⟩, hprogress.isOpen⟩),
    hprogress.unchanged, mem_history_after.mpr (.inr hprogress.fetched),
    (open_after (by simp) (by simp)).mpr hprogress.isOpen, fun id ↦ ?_⟩
  rw [World.after, List.count_cons, hprogress.processed, List.countP_append,
    List.countP_singleton]
  congr 1
  by_cases hid : row.id = id <;> simp [hid]

/-- A step that reads the clock in an open transaction. -/
theorem currentTime_meets {batch : List OutboxRow} {results : List (OutboxRow × RowResult)} :
    (outboxProtocol service).Meets number currentTime (Progress number batch results)
      fun _ ↦ Progress number batch results := by
  refine Protocol.meets_query (stable_progress batch results) fun world hinv hprogress _ ↦ ?_
  refine ⟨idle_keepsOutbox hinv rfl rfl (.inl rfl), hprogress.unchanged,
    mem_history_after.mpr (.inr hprogress.fetched),
    (open_after (by simp) (by simp)).mpr hprogress.isOpen, fun id ↦ ?_⟩
  rw [World.after, List.count_cons_of_ne (by simp)]
  exact hprogress.processed id

/-- What the transaction has recorded: the writes for the results of these rows. -/
def Records (service : RelayService) (rows : List OutboxRow)
    (results : List (OutboxRow × RowResult)) (tx : BatchTx) : Prop :=
  results.map Prod.fst = rows ∧ tx.writes = results.map fun entry ↦ entry.2.write service entry.1

/-- The transaction is still open; if it is not aborted, it has recorded a result for each of these
rows. -/
def Recorded (service : RelayService) (number : ℕ) (batch rows : List OutboxRow)
    (recorded : Option BatchTx) (world : World Db RelayStep) : Prop :=
  ∃ results, Progress number batch results world ∧
    ∀ tx, recorded = some tx → Records service rows results tx

/-- Processing one row. -/
theorem relayRow_meets {script : Script} {batch rows : List OutboxRow}
    {results : List (OutboxRow × RowResult)} {row : OutboxRow} {tx : BatchTx}
    (hrecords : Records service rows results tx) :
    (outboxProtocol service).Meets number (relayRow service script row tx)
      (Progress number batch results) (Recorded service number batch (rows ++ [row])) := by
  unfold relayRow
  split
  · refine (processRow_meets row (.sent 0)).bind fun _ _ ↦ ?_
    refine currentTime_meets.bind fun sentAt _ ↦ ?_
    refine Protocol.meets_pure fun world _ hprogress ↦ ?_
    refine ⟨results ++ [(row, .sent sentAt)], ⟨hprogress.unchanged, hprogress.fetched,
      hprogress.isOpen, ?_⟩, ?_⟩
    · simpa [RowResult.returned] using hprogress.processed
    · intro recorded hrecorded
      split_ifs at hrecorded <;> cases hrecorded <;>
        simp [Records, RowResult.write, hrecords.1, hrecords.2]
  · rename_i error markFailed _
    refine (processRow_meets row (.failed error)).bind fun _ _ ↦ ?_
    refine Protocol.meets_pure fun world _ hprogress ↦ ⟨_, hprogress, ?_⟩
    intro recorded hrecorded
    split_ifs at hrecorded <;> cases hrecorded <;>
      simp_all [Records, RowResult.write]
  · exact Protocol.meets_pure fun world _ hprogress ↦ ⟨results, hprogress, by simp⟩

/-- Processing the rest of the batch, row after row. -/
theorem relayRows_meets {script : Script} {batch : List OutboxRow} (rest : List OutboxRow)
    {rows : List OutboxRow} {results : List (OutboxRow × RowResult)} {tx : BatchTx}
    (hrecords : Records service rows results tx) :
    (outboxProtocol service).Meets number (relayRows service script rest tx)
      (Progress number batch results) (Recorded service number batch (rows ++ rest)) := by
  induction rest generalizing rows results tx with
  | nil =>
    refine Protocol.meets_pure fun world _ hprogress ↦ ⟨results, hprogress, ?_⟩
    rintro _ ⟨⟩
    simpa using hrecords
  | cons row rest ih =>
    refine (relayRow_meets hrecords).bind fun recorded _ ↦ ?_
    refine Protocol.meets_exists fun later ↦ ?_
    cases recorded with
    | none => exact Protocol.meets_pure fun world _ hlater ↦ ⟨later, hlater.1, by simp⟩
    | some tx =>
      have hnext : ∀ hrecorded : Records service (rows ++ [row]) later tx,
          (outboxProtocol service).Meets number (relayRows service script rest tx)
            (Progress number batch later) (Recorded service number batch (rows ++ row :: rest)) := by
        intro hrecorded
        rw [List.append_cons]
        exact ih hrecorded
      exact (Protocol.meets_exists hnext).strengthen fun world _ hlater ↦
        ⟨hlater.2 tx rfl, hlater.1⟩

/-! ### The end of a transaction -/

/-- The rows after a transaction has settled its batch: every row of the table is one that the batch
does not have, unchanged, or a row of the batch, settled by its result. -/
theorem mem_rows_commit {batch : List OutboxRow} {results : List (OutboxRow × RowResult)}
    {tx : BatchTx} {rows : List OutboxRow} (hclaimable : Claimable service batch)
    (hrecords : Records service batch results tx) (hids : (rows.map OutboxRow.id).Nodup)
    (hbatch : ∀ row ∈ batch, row ∈ rows) {new : OutboxRow} :
    new ∈ tx.writes.foldl (fun rows write ↦ write.run rows) rows ↔
      (new ∈ rows ∧ new.id ∉ batch.map OutboxRow.id) ∨
        ∃ entry ∈ results, new = settle service entry.1 entry.2 := by
  have hfst : batch.map OutboxRow.id = results.map fun entry ↦ entry.1.id := by
    rw [← hrecords.1, List.map_map]
    rfl
  have hnodup : (results.map fun entry ↦ entry.1.id).Nodup := hfst ▸ hclaimable.1
  have hmem : ∀ entry ∈ results, entry.1 ∈ rows := fun entry hentry ↦
    hbatch _ (hrecords.1 ▸ List.mem_map_of_mem hentry)
  rw [foldl_run, hrecords.2, List.mem_map]
  constructor
  · rintro ⟨old, hold, rfl⟩
    by_cases hin : old.id ∈ batch.map OutboxRow.id
    · rw [hfst] at hin
      obtain ⟨entry, hentry, hid⟩ := List.mem_map.mp hin
      obtain rfl := List.inj_on_of_nodup_map hids (hmem entry hentry) hold hid
      exact .inr ⟨entry, hentry, applyWrites_of_mem hnodup hentry⟩
    · refine .inl ?_
      rw [applyWrites_of_not_mem]
      · exact ⟨hold, hin⟩
      · intro write hwrite heq
        obtain ⟨entry, hentry, rfl⟩ := List.mem_map.mp hwrite
        rw [write_rowId] at heq
        exact hin (hfst ▸ List.mem_map.mpr ⟨entry, hentry, heq⟩)
  · rintro (⟨hnew, hout⟩ | ⟨entry, hentry, rfl⟩)
    · refine ⟨new, hnew, applyWrites_of_not_mem fun write hwrite heq ↦ ?_⟩
      obtain ⟨entry, hentry, rfl⟩ := List.mem_map.mp hwrite
      rw [write_rowId] at heq
      exact hout (hfst ▸ List.mem_map.mpr ⟨entry, hentry, heq⟩)
    · exact ⟨entry.1, hmem entry hentry, applyWrites_of_mem hnodup hentry⟩

/-- A settled row is in order. -/
theorem rowInOrder_settle {row : OutboxRow} (hattempts : row.attempts < service.maxAttempts)
    (result : RowResult) : RowInOrder service (settle service row result) := by
  cases result with
  | sent sentAt => exact .sent rfl hattempts
  | failed error =>
    by_cases hlast : service.maxAttempts ≤ row.attempts + 1
    · refine .failed ?_ ?_
      · simp [settle, RowResult.write, Write.set, hlast]
      · simp only [settle, RowResult.write, Write.set]
        omega
    · refine .pending ?_ ?_
      · simp [settle, RowResult.write, Write.set, hlast]
      · simp only [settle, RowResult.write, Write.set]
        omega

/-- The claims after a transaction has ended and released its locks: those of the others are in
order, since no row was claimed by both. -/
theorem claims_after_end {batch : List OutboxRow} {results : List (OutboxRow × RowResult)}
    {label : RelayStep} {after : Db} (hinv : OutboxInOrder service world)
    (hprogress : Progress number batch results world)
    (hend : label = .commit ∨ label = .rollback)
    (hlocked : after.locked = world.db.locked.filter (· ∉ batch.map OutboxRow.id)) :
    (∀ other ids, .fetch ids ∈ (world.after number label after).history other →
      Open other (world.after number label after) → ids ⊆ after.locked) ∧
    ∀ first second firstIds secondIds, first ≠ second →
      .fetch firstIds ∈ (world.after number label after).history first →
        .fetch secondIds ∈ (world.after number label after).history second →
          Open first (world.after number label after) →
            Open second (world.after number label after) → ∀ id ∈ firstIds, id ∉ secondIds := by
  have hother : ∀ {other}, Open other (world.after number label after) →
      other ≠ number ∧ Open other world := by
    intro other hopen
    by_cases hne : other = number
    · subst hne
      simp only [Open, history_after_self, List.mem_cons, not_or] at hopen
      rcases hend with rfl | rfl
      · exact absurd rfl hopen.1.1
      · exact absurd rfl hopen.2.1
    · exact ⟨hne, (open_after_of_ne (Ne.symm hne)).mp hopen⟩
  have hfetch : ∀ {other ids}, .fetch ids ∈ (world.after number label after).history other →
      .fetch ids ∈ world.history other := by
    intro other ids hmem
    rcases mem_history_after.mp hmem with ⟨_, heq⟩ | hold
    · rcases hend with rfl | rfl <;> cases heq
    · exact hold
  constructor
  · intro other ids hmem hopen id hid
    obtain ⟨hne, hopen⟩ := hother hopen
    rw [hlocked, List.mem_filter, decide_eq_true_eq]
    exact ⟨hinv.held other ids (hfetch hmem) hopen hid,
      hinv.exclusive other number ids _ hne (hfetch hmem) hprogress.fetched hopen
        hprogress.isOpen id hid⟩
  · exact fun first second firstIds secondIds hne hfirst hsecond hopenFirst hopenSecond ↦
      hinv.exclusive first second firstIds secondIds hne (hfetch hfirst) (hfetch hsecond)
        (hother hopenFirst).2 (hother hopenSecond).2

/-- Rolling back keeps the protocol. -/
theorem rollback_keepsOutbox {batch : List OutboxRow} {results : List (OutboxRow × RowResult)}
    {after : Db} (hinv : OutboxInOrder service world)
    (hprogress : Progress number batch results world) (hrows : after.rows = world.db.rows)
    (hlocked : after.locked = world.db.locked.filter (· ∉ batch.map OutboxRow.id)) :
    (outboxProtocol service).Keeps number world .rollback after := by
  obtain ⟨hheld, hexclusive⟩ := claims_after_end hinv hprogress (.inr rfl) hlocked
  exact sameRows_keepsOutbox hinv hrows (by simp) (by simp) hheld hexclusive

/-- The successes a call has recorded for a row: at most one, and one exactly when a result of the
row is a success. -/
theorem countP_returned {batch : List OutboxRow} {results : List (OutboxRow × RowResult)}
    {tx : BatchTx} (hclaimable : Claimable service batch)
    (hrecords : Records service batch results tx) (id : RowId) :
    (results.countP fun entry ↦ entry.1.id = id ∧ entry.2.returned = true) ≤ 1 := by
  have hnodup : (results.map fun entry ↦ entry.1.id).Nodup := by
    have hids := hclaimable.1
    rw [← hrecords.1, List.map_map] at hids
    exact hids
  calc (results.countP fun entry ↦ entry.1.id = id ∧ entry.2.returned = true)
      ≤ results.countP fun entry ↦ entry.1.id = id :=
        List.countP_mono_left fun entry _ h ↦ by simp_all
    _ = (results.map fun entry ↦ entry.1.id).count id := by
        rw [List.count, List.countP_map]
        exact List.countP_congr fun entry _ ↦ by simp
    _ ≤ 1 := List.nodup_iff_count_le_one.mp hnodup id

section Commit

variable {batch : List OutboxRow} {results : List (OutboxRow × RowResult)} {tx : BatchTx} {after : Db}

theorem mem_batch_of_result (hrecords : Records service batch results tx) {entry : OutboxRow × RowResult}
    (hentry : entry ∈ results) : entry.1 ∈ batch :=
  hrecords.1 ▸ List.mem_map_of_mem hentry

/-- A row of the batch is pending, so a row that is not pending is not in the batch. -/
theorem notMem_batch_of_ne_pending (hclaimable : Claimable service batch)
    (hinv : OutboxInOrder service world) (hprogress : Progress number batch results world)
    {row : OutboxRow} (hrow : row ∈ world.db.rows) (hstatus : row.status ≠ .pending) :
    row.id ∉ batch.map OutboxRow.id := by
  intro hin
  obtain ⟨claimed, hclaimed, hid⟩ := List.mem_map.mp hin
  obtain rfl := List.inj_on_of_nodup_map hinv.ids (hprogress.unchanged _ hclaimed) hrow hid
  exact hstatus (hclaimable.2 _ hclaimed).1

/-- The commit turns the successes that the call has recorded into committed ones. -/
theorem Progress.committedSuccesses_eq (hprogress : Progress number batch results world) (id : RowId) :
    committedSuccesses id (world.after number .commit after).log =
      committedSuccesses id world.log +
        results.countP fun entry ↦ entry.1.id = id ∧ entry.2.returned = true := by
  rw [← hprogress.processed id]
  exact committedSuccesses_commit fun hmem ↦ hprogress.isOpen.1 (mem_history.mpr hmem)

theorem countP_returned_pos {entry : OutboxRow × RowResult} (hentry : entry ∈ results)
    (hreturned : entry.2.returned = true) :
    0 < results.countP fun other ↦ other.1.id = entry.1.id ∧ other.2.returned = true :=
  List.countP_pos_iff.mpr ⟨entry, hentry, by simp [hreturned]⟩

/-- After a commit no row has two successes: one that had one was not in the batch. -/
theorem committedSuccesses_commit_le_one (hclaimable : Claimable service batch)
    (hrecords : Records service batch results tx) (hinv : OutboxInOrder service world)
    (hprogress : Progress number batch results world) (id : RowId) :
    committedSuccesses id (world.after number .commit after).log ≤ 1 := by
  rw [hprogress.committedSuccesses_eq]
  have hone := countP_returned hclaimable hrecords id
  rcases Nat.eq_zero_or_pos (committedSuccesses id world.log) with hzero | hpos
  · omega
  · obtain ⟨row, hrow, rfl, hsent⟩ := hinv.recorded id hpos
    have hnotIn := notMem_batch_of_ne_pending hclaimable hinv hprogress hrow
      (hsent ▸ service.sentStatus_ne_pending)
    have hnone : (results.countP fun entry ↦ entry.1.id = row.id ∧ entry.2.returned = true) = 0 := by
      refine List.countP_eq_zero.mpr fun entry hentry hmatches ↦ hnotIn ?_
      simp only [decide_eq_true_eq] at hmatches
      exact hmatches.1 ▸ List.mem_map_of_mem (mem_batch_of_result hrecords hentry)
    rw [hnone]
    exact hinv.once row.id

/-- Committing keeps the protocol: the batch is as the call has read it, so its results apply. -/
theorem commit_keepsOutbox (hclaimable : Claimable service batch)
    (hrecords : Records service batch results tx) (hinv : OutboxInOrder service world)
    (hprogress : Progress number batch results world)
    (hrun : after.rows = tx.writes.foldl (fun rows write ↦ write.run rows) world.db.rows)
    (hlocked : after.locked = world.db.locked.filter (· ∉ batch.map OutboxRow.id)) :
    (outboxProtocol service).Keeps number world .commit after := by
  obtain ⟨hheld, hexclusive⟩ := claims_after_end hinv hprogress (.inl rfl) hlocked
  have hrows : ∀ {new}, new ∈ after.rows ↔
      (new ∈ world.db.rows ∧ new.id ∉ batch.map OutboxRow.id) ∨
        ∃ entry ∈ results, new = settle service entry.1 entry.2 := by
    intro new
    rw [hrun]
    exact mem_rows_commit hclaimable hrecords hinv.ids hprogress.unchanged
  have hids : after.rows.map OutboxRow.id = world.db.rows.map OutboxRow.id := by
    rw [hrun, foldl_run, List.map_map]
    exact List.map_congr_left fun row _ ↦ applyWrites_id tx.writes row
  refine ⟨⟨?_, ?_, hids ▸ fun _ ↦ id, ?_⟩, hids ▸ hinv.ids, ?_, hheld, hexclusive,
    committedSuccesses_commit_le_one hclaimable hrecords hinv hprogress, ?_, ?_⟩
  · intro other ids hne hfetch hopen row hrow hid
    exact hrows.mpr (.inl ⟨hrow, hinv.exclusive other number ids _ hne hfetch hprogress.fetched
      hopen hprogress.isOpen _ hid⟩)
  · exact fun row hrow hstatus ↦ hrows.mpr
      (.inl ⟨hrow, notMem_batch_of_ne_pending hclaimable hinv hprogress hrow hstatus⟩)
  · intro new hnew hsent
    rcases hrows.mp hnew with ⟨hold, _⟩ | ⟨entry, hentry, rfl⟩
    · exact .inl hold
    · refine .inr ⟨rfl, mem_history.mpr (List.count_pos_iff.mp ?_)⟩
      rw [settle_id, hprogress.processed]
      exact countP_returned_pos hentry ((settle_status_eq_sentStatus service _ _).mp hsent)
  · intro new hnew
    rcases hrows.mp hnew with ⟨hold, _⟩ | ⟨entry, hentry, rfl⟩
    · exact hinv.rows new hold
    · exact rowInOrder_settle (hclaimable.2 _ (mem_batch_of_result hrecords hentry)).2 entry.2
  · intro new hnew hsent
    rw [hprogress.committedSuccesses_eq]
    rcases hrows.mp hnew with ⟨hold, _⟩ | ⟨entry, hentry, rfl⟩
    · exact Nat.lt_of_lt_of_le (hinv.delivered new hold hsent) (Nat.le_add_right _ _)
    · rw [settle_id]
      exact Nat.lt_of_lt_of_le
        (countP_returned_pos hentry ((settle_status_eq_sentStatus service _ _).mp hsent))
        (Nat.le_add_left _ _)
  · intro id hpos
    rw [hprogress.committedSuccesses_eq] at hpos
    rcases Nat.eq_zero_or_pos (committedSuccesses id world.log) with hzero | hold
    · rw [hzero, Nat.zero_add] at hpos
      obtain ⟨entry, hentry, hmatches⟩ := List.countP_pos_iff.mp hpos
      simp only [decide_eq_true_eq] at hmatches
      refine ⟨settle service entry.1 entry.2, hrows.mpr (.inr ⟨entry, hentry, rfl⟩), ?_, ?_⟩
      · rw [settle_id, hmatches.1]
      · exact (settle_status_eq_sentStatus service _ _).mpr hmatches.2
    · obtain ⟨row, hrow, hid, hsent⟩ := hinv.recorded id hold
      exact ⟨row, hrows.mpr (.inl ⟨hrow, notMem_batch_of_ne_pending hclaimable hinv hprogress hrow
        (hsent ▸ service.sentStatus_ne_pending)⟩), hid, hsent⟩

end Commit

/-! ### The calls -/

theorem stable_true : (outboxProtocol service).Stable number fun _ ↦ True := Protocol.stable_true

/-- Leaving the guard, after the transaction has ended. -/
theorem leaveRelay_sound (process : ℕ) :
    (outboxProtocol service).Meets number (leaveRelay process) (fun _ ↦ True) fun _ _ ↦ True := by
  refine Protocol.meets_atomically stable_true fun world hinv _ _ ↦ ?_
  exact ⟨idle_keepsOutbox hinv rfl rfl (.inl rfl), trivial⟩

/-- Entering the guard claims no row. -/
theorem enterRelay_meets (process : ℕ) :
    (outboxProtocol service).Meets number (enterRelay process) (Unclaimed number)
      fun _ ↦ Unclaimed number := by
  refine Protocol.meets_atomically stable_unclaimed fun world hinv hunclaimed _ ↦ ?_
  refine ⟨idle_keepsOutbox hinv ?_ ?_ (.inl rfl), ?_⟩
  · split_ifs <;> rfl
  · split_ifs <;> rfl
  · intro label hmem
    rw [history_after_self] at hmem
    rcases List.mem_cons.mp hmem with rfl | hold
    · rfl
    · exact hunclaimed label hold

/-- Ending the transaction with a commit or a rollback. -/
theorem relayBatch_sound {process : ℕ} {script : Script} {batch : List OutboxRow}
    (hclaimable : Claimable service batch) :
    (outboxProtocol service).Meets number (relayBatch service process script batch)
      (Progress number batch []) fun _ _ ↦ True := by
  have hnothing : Records service [] [] {} := ⟨rfl, rfl⟩
  refine (relayRows_meets batch hnothing).bind fun recorded _ ↦ ?_
  refine Protocol.meets_exists fun results ↦ ?_
  split
  · rename_i tx hcommits
    have hrecorded := (Option.filter_eq_some_iff.mp hcommits).1
    suffices hcommit : ∀ _ : Records service batch results tx,
        (outboxProtocol service).Meets number _ (Progress number batch results) fun _ _ ↦ True from
      (Protocol.meets_exists hcommit).strengthen fun world _ hresults ↦
        ⟨hresults.2 tx hrecorded, hresults.1⟩
    intro hrecords
    refine Protocol.Meets.andThen ?_ fun _ ↦ ?_
    · refine Protocol.meets_atomically (stable_progress batch results)
        fun world hinv hprogress _ ↦ ?_
      exact ⟨commit_keepsOutbox hclaimable hrecords hinv hprogress rfl rfl, trivial⟩
    · exact (leaveRelay_sound process).bind fun _ _ _ _ _ ↦ trivial
  · refine Protocol.Meets.andThen ?_ fun _ ↦ ?_
    · refine Protocol.Meets.strengthen ?_ fun world _ hresults ↦ hresults.1
      refine Protocol.meets_atomically (stable_progress batch results)
        fun world hinv hprogress _ ↦ ?_
      exact ⟨rollback_keepsOutbox hinv hprogress rfl rfl, trivial⟩
    · exact (leaveRelay_sound process).bind fun _ _ ↦ trivial

/-- A run of the relay keeps the protocol. -/
theorem relay_sound (process : ℕ) (script : Script) :
    (outboxProtocol service).Meets number (relay service process script) (Unclaimed number)
      fun _ _ ↦ True := by
  refine (enterRelay_meets process).bind fun busy _ ↦ ?_
  cases busy with
  | true => exact Protocol.meets_pure fun _ _ _ ↦ trivial
  | false =>
    refine fetchBatch_meets.bind fun batch _ ↦ ?_
    refine (Protocol.meets_exists fun hclaimable : Claimable service batch ↦
      relayBatch_sound hclaimable).strengthen fun world _ hclaimed ↦ ?_
    exact ⟨hclaimed.1, hclaimed.2⟩

theorem schedule_sound (id : RowId) (scheduledAt : Date) :
    (outboxProtocol service).Meets number (schedule id scheduledAt) (fun _ ↦ True)
      fun _ _ ↦ True := by
  refine Protocol.meets_atomically stable_true fun world hinv _ _ ↦ ?_
  split_ifs with hid
  · exact ⟨idle_keepsOutbox hinv rfl rfl (.inl rfl), trivial⟩
  · exact ⟨insert_keepsOutbox hinv rfl rfl hid rfl rfl, trivial⟩

theorem tick_sound (milliseconds : ℕ) :
    (outboxProtocol service).Meets number (tick milliseconds) (fun _ ↦ True) fun _ _ ↦ True := by
  refine Protocol.meets_atomically stable_true fun world hinv _ _ ↦ ?_
  exact ⟨idle_keepsOutbox hinv rfl rfl (.inl rfl), trivial⟩

/-- Every request keeps the protocol. -/
theorem serve_sound (request : RelayRequest) (number : ℕ) :
    (outboxProtocol service).Meets number (request.serve service) (Fresh number)
      fun _ _ ↦ True := by
  cases request with
  | schedule id scheduledAt =>
    exact (schedule_sound id scheduledAt).map.strengthen fun _ _ _ ↦ trivial
  | relay process script =>
    refine (relay_sound process script).strengthen fun world _ hfresh label hmem ↦ ?_
    rw [hfresh] at hmem
    cases hmem
  | tick milliseconds => exact (tick_sound milliseconds).map.strengthen fun _ _ _ ↦ trivial

/-! ### Every run -/

/-- A configuration of an outbox with its workers and producers. -/
abbrev OutboxConfig := Config Db RelayStep Unit (List RowId × Bool)

/-- The state of the outbox: a pending row has attempts left, no row has more attempts than allowed, a
row is failed exactly when its attempts are used up, and no row has two committed successful calls
of `processRow`. -/
structure OutboxStateInOrder (service : RelayService) (config : OutboxConfig) : Prop where
  pending : ∀ row ∈ config.db.rows, row.status = .pending → row.attempts < service.maxAttempts
  attempts : ∀ row ∈ config.db.rows, row.attempts ≤ service.maxAttempts
  failed : ∀ row ∈ config.db.rows, row.status = .failed ↔ row.attempts = service.maxAttempts
  once : ∀ id, committedSuccesses id config.log ≤ 1

/-- From one configuration to a later one: delivered and failed rows stay as they are, and no row
disappears. -/
structure OutboxKept (service : RelayService) (config later : OutboxConfig) : Prop where
  final : ∀ row ∈ config.db.rows, row.status = service.sentStatus ∨ row.status = .failed →
    row ∈ later.db.rows
  kept : config.db.rows.map OutboxRow.id ⊆ later.db.rows.map OutboxRow.id

/-- In one step a row becomes delivered only by the commit of a transaction in which `processRow`
returned for it. -/
def DeliversProcessed (service : RelayService) (config after : OutboxConfig) : Prop :=
  ∀ row ∈ after.db.rows, row.status = service.sentStatus → row ∈ config.db.rows ∨
    ∃ number, after.log = (number, .commit) :: config.log ∧
      (number, .processRow row.id true) ∈ config.log

/-- The initial world keeps the invariant. -/
theorem outboxInOrder_initial {db : Db}
    (hpending : ∀ row ∈ db.rows, row.status = .pending ∧ row.attempts = 0)
    (hids : (db.rows.map OutboxRow.id).Nodup) : OutboxInOrder service ⟨db, []⟩ where
  ids := hids
  rows row hrow := .pending (hpending row hrow).1 ((hpending row hrow).2 ▸ service.maxAttempts_pos)
  held _ _ hmem := nomatch hmem
  exclusive _ _ _ _ _ hmem := nomatch hmem
  once _ := Nat.zero_le _
  delivered row hrow hsent :=
    absurd (hsent.symm.trans (hpending row hrow).1) service.sentStatus_ne_pending
  recorded _ hpos := absurd hpos (Nat.lt_irrefl _)

/-- The invariant puts the state in order. -/
theorem OutboxInOrder.state {config : OutboxConfig}
    (hinv : OutboxInOrder service config.toWorld) : OutboxStateInOrder service config := by
  refine ⟨fun row hrow hstatus ↦ ?_, fun row hrow ↦ ?_, fun row hrow ↦ ?_, hinv.once⟩
  · cases hinv.rows row hrow with
    | pending _ hattempts => exact hattempts
    | failed hfailed _ => exact absurd (hstatus.symm.trans hfailed) (by decide)
    | sent _ hattempts => exact hattempts
  · cases hinv.rows row hrow with
    | pending _ hattempts => exact hattempts.le
    | failed _ hattempts => exact hattempts.le
    | sent _ hattempts => exact hattempts.le
  · cases hinv.rows row hrow with
    | pending hstatus hattempts => simp [hstatus, hattempts.ne]
    | failed hstatus hattempts => simp [hstatus, hattempts]
    | sent hstatus hattempts => simp [hstatus, hattempts.ne, service.sentStatus_ne_failed]

/-- One step from a configuration that is reachable. -/
theorem step_outbox {db : Db} (hinitial : OutboxInOrder service ⟨db, []⟩)
    {config after : OutboxConfig}
    (hreach : Reachable (RelayRequest.serve service) anyStep db config)
    (hstep : Step (RelayRequest.serve service) anyStep config after) :
    OutboxKept service config after ∧ DeliversProcessed service config after := by
  have hguarantee : after.toWorld = config.toWorld ∨ ∃ number label,
      anyStep config.toWorld label ∧ KeepsOutbox service number config.toWorld label after.db ∧
        after.toWorld = config.after number label after.db :=
    Protocol.step_guarantee serve_sound hinitial hreach hstep
  rcases hguarantee with hsame | ⟨number, label, _, hkeeps, hafter⟩
  · have hdb : after.db = config.db := congrArg World.db hsame
    exact ⟨⟨fun row hrow _ ↦ hdb ▸ hrow, hdb ▸ fun _ ↦ id⟩, fun row hrow _ ↦ .inl (hdb ▸ hrow)⟩
  · refine ⟨⟨fun row hrow hfinal ↦ hkeeps.final row hrow ?_, hkeeps.kept⟩, ?_⟩
    · rcases hfinal with hsent | hfailed
      · exact hsent ▸ service.sentStatus_ne_pending
      · exact hfailed ▸ by decide
    · intro row hrow hsent
      refine (hkeeps.sent row hrow hsent).imp_right fun ⟨hcommit, hprocessed⟩ ↦ ?_
      refine ⟨number, ?_, mem_history.mp hprocessed⟩
      rw [congrArg World.log hafter, hcommit]
      rfl

/-- Assumes: at the start every row is pending and has not been attempted, and the primary keys are
distinct. For every relay service, in every configuration that its workers and producers reach in
any interleaving, the state is in order; every later configuration keeps its delivered and failed
rows and loses none; and every step from it delivers only rows whose `processRow` returned. -/
theorem reachable_outbox {service : RelayService} {db : Db}
    (hpending : ∀ row ∈ db.rows, row.status = .pending ∧ row.attempts = 0)
    (hids : (db.rows.map OutboxRow.id).Nodup) {config : OutboxConfig}
    (hreach : Reachable (RelayRequest.serve service) anyStep db config) :
    OutboxStateInOrder service config ∧
      (∀ later, Relation.ReflTransGen (Step (RelayRequest.serve service) anyStep) config later →
        OutboxKept service config later) ∧
      ∀ after, Step (RelayRequest.serve service) anyStep config after →
        DeliversProcessed service config after := by
  have hinitial : OutboxInOrder service ⟨db, []⟩ := outboxInOrder_initial hpending hids
  have hinv : (outboxProtocol service).invariant config.toWorld :=
    Protocol.reachable_invariant serve_sound hinitial hreach
  refine ⟨OutboxInOrder.state hinv, fun later hlater ↦ ?_,
    fun after hstep ↦ (step_outbox hinitial hreach hstep).2⟩
  induction hlater with
  | refl => exact ⟨fun _ hrow _ ↦ hrow, fun _ ↦ id⟩
  | tail hprefix hstep ih =>
    obtain ⟨⟨hfinal, hkept⟩, _⟩ := step_outbox hinitial (hreach.trans hprefix) hstep
    exact ⟨fun row hrow hstatus ↦ hfinal row (ih.final row hrow hstatus) hstatus,
      List.Subset.trans ih.kept hkept⟩

/-! ### A run -/

/-- Two rows, one of which can be processed. -/
def exampleDb : Db where
  rows := [{ id := 1, createdAt := 0, scheduledAt := 0 }, { id := 2, createdAt := 1, scheduledAt := 1 }]

/-- Only the first row can be processed. -/
def exampleScript : Script where
  processRow row := if row.id = 1 then .returns false true else .throws "unavailable" true
  commits := true

/-- Two workers run the relay at the same time. -/
def twoWorkers : List (Choice RelayRequest) :=
  [.start (.relay 1 exampleScript), .start (.relay 2 exampleScript), .resume 0, .resume 1, .resume 0] ++
    List.replicate 8 (.resume 1) ++ List.replicate 8 (.resume 0)

/-- A witness: the run of two workers over two rows. -/
theorem reachable_outbox_witness :
    OutboxStateInOrder outboxRelayService
      ((Config.initial exampleDb).play (RelayRequest.serve outboxRelayService) twoWorkers) :=
  (reachable_outbox (by decide) (by decide) (play_reachable (allowsAll_anyStep _ _))).1

example : (((Config.initial exampleDb).play (RelayRequest.serve outboxRelayService)
    twoWorkers : OutboxConfig).db.rows.map fun row ↦ (row.id, row.status, row.attempts)) =
      [(1, .published, 0), (2, .pending, 1)] := by decide

end RallyApi.Outbox

import Mathlib.Algebra.Order.Ring.Nat
import RallyApi.Concurrency.RelyGuarantee
import RallyApi.Concurrency.Returns
import RallyApi.TimeLogs.TimeLogsService

/-!
# The actual hours of a work item

The trigger on `time_logs` writes the sum of the hours of an item to the item. It adds them up in the
snapshot of its `UPDATE`, before it has the lock of the item. A transaction that commits in between is not
in the sum, although its own sum is overwritten.

`reachable_inSync`: in every interleaving in which no other transaction on the item commits between the
snapshot of a transaction and the moment it has the lock, the actual hours are the sum of the hours of the
logs, at every moment. `lostHours` is a run of two transactions in which the hours of one are lost.
-/

set_option autoImplicit false
set_option relaxedAutoImplicit false

namespace RallyApi.TimeLogs

open Concurrency Protocol Platform Store Work CrossTenant

/-! ### The property and the condition -/

/-- The history of a run. -/
abbrev TimeLogLog := List (ℕ × TimeLogStep)

/-- The actual hours of an item are the sum of the hours of its logs that are not deleted; an item that has
never had a log may have none. -/
def InSync (workItemId : Uuid) (db : Db) : Prop :=
  ∀ item ∈ db.work.workItems, item.id = workItemId →
    item.actualHours = some ⟨loggedHours workItemId db.timeLogs⟩ ∨
      item.actualHours = none ∧ ∀ log ∈ db.timeLogs, log.workItemId ≠ workItemId

/-- The steps since a call has taken its snapshot of the logs of an item. -/
def sinceSnapshot (number : ℕ) (workItemId : Uuid) (log : TimeLogLog) : TimeLogLog :=
  log.takeWhile fun entry ↦ entry ≠ (number, .snapshot workItemId)

/-- No transaction on the item has committed since a call has taken its snapshot. -/
def Current (number : ℕ) (workItemId : Uuid) (log : TimeLogLog) : Prop :=
  ∀ entry ∈ sinceSnapshot number workItemId log, entry.2 ≠ .commit workItemId

/-- No transaction has committed between the snapshot of another on the same item and the moment that one
has the lock of the item. -/
def Unoverlapped : TimeLogLog → Prop
  | [] => True
  | (number, .lockItem workItemId) :: earlier =>
    Current number workItemId earlier ∧ Unoverlapped earlier
  | _ :: earlier => Unoverlapped earlier

instance (number : ℕ) (workItemId : Uuid) (log : TimeLogLog) :
    Decidable (Current number workItemId log) :=
  inferInstanceAs (Decidable (∀ entry ∈ sinceSnapshot number workItemId log,
    entry.2 ≠ .commit workItemId))

instance Unoverlapped.decidable : (log : TimeLogLog) → Decidable (Unoverlapped log)
  | [] => .isTrue trivial
  | (number, .lockItem workItemId) :: earlier =>
    have := Unoverlapped.decidable earlier
    inferInstanceAs (Decidable (Current number workItemId earlier ∧ Unoverlapped earlier))
  | (_, .other) :: earlier => Unoverlapped.decidable earlier
  | (_, .lockLog _) :: earlier => Unoverlapped.decidable earlier
  | (_, .snapshot _) :: earlier => Unoverlapped.decidable earlier
  | (_, .commit _) :: earlier => Unoverlapped.decidable earlier
  | (_, .release _) :: earlier => Unoverlapped.decidable earlier
  | (_, .amend) :: earlier => Unoverlapped.decidable earlier

/-! ### The hours of an item -/

variable {db after : Db} {label : TimeLogStep} {workItemId : Uuid} {write : LogWrite} {total : ℕ}
  {logs : List TimeLog} {number : ℕ} {log : TimeLogLog} {world : World Db TimeLogStep}

/-- What counts of the logs of an item: identifier, hours and whether it is deleted. -/
def billed (workItemId : Uuid) (logs : List TimeLog) : List (Uuid × Hours × Option Timestamp) :=
  (logs.filter fun log ↦ log.workItemId = workItemId).map fun log ↦ (log.id, log.hours, log.deletedAt)

/-- What a write does to the logs of its item, as far as it counts. -/
def LogWrite.bill (entries : List (Uuid × Hours × Option Timestamp)) :
    LogWrite → List (Uuid × Hours × Option Timestamp)
  | .insert log => entries ++ [(log.id, log.hours, log.deletedAt)]
  | .update id _ columns => entries.map fun entry ↦ if entry.1 = id then
      (id, columns.hours.getD entry.2.1, columns.deletedAt.orElse fun _ ↦ entry.2.2) else entry

theorem loggedHours_eq (workItemId : Uuid) (logs : List TimeLog) : loggedHours workItemId logs =
    (((billed workItemId logs).filter fun entry ↦ entry.2.2 = none).map
      fun entry ↦ entry.2.1.hundredths).sum := by
  simp only [loggedHours, billed, List.filter_map, List.map_map, List.filter_filter]
  congr 2
  exact List.filter_congr fun log _ ↦ by simp [Bool.and_comm]

theorem billed_eq_nil : billed workItemId logs = [] ↔ ∀ log ∈ logs, log.workItemId ≠ workItemId := by
  simp [billed]

/-- An update leaves a log with its item. -/
theorem filter_update (columns : LogColumns) (condition : TimeLog → Bool) (workItemId : Uuid)
    (logs : List TimeLog) :
    (updateWhere condition columns.set logs).filter (fun log ↦ log.workItemId = workItemId) =
      updateWhere condition columns.set (logs.filter fun log ↦ log.workItemId = workItemId) :=
  filter_updateWhere fun _ ↦ rfl

/-- Within its item, a write depends on what counts. -/
theorem billed_apply (write : LogWrite) (logs : List TimeLog) :
    billed write.workItemId (write.apply logs) = write.bill (billed write.workItemId logs) := by
  cases write with
  | insert log => simp [billed, LogWrite.apply, LogWrite.bill, LogWrite.workItemId]
  | update id workItemId columns =>
    change ((updateWhere _ columns.set logs).filter fun log ↦ log.workItemId = workItemId).map _ = _
    rw [filter_update, LogWrite.bill, billed, updateWhere, List.map_map, List.map_map]
    refine List.map_congr_left fun row hrow ↦ ?_
    have hitem : row.workItemId = workItemId := by simpa using (List.mem_filter.mp hrow).2
    by_cases hid : row.id = id <;> simp [hid, hitem, LogColumns.set]

/-- Another item is not billed. -/
theorem billed_apply_of_ne (write : LogWrite) (hother : write.workItemId ≠ workItemId)
    (logs : List TimeLog) :
    billed workItemId (write.apply logs) = billed workItemId logs := by
  cases write with
  | insert log =>
    have hlog : log.workItemId ≠ workItemId := hother
    simp [billed, LogWrite.apply, hlog]
  | update id updated columns =>
    have hupdated : updated ≠ workItemId := hother
    rw [billed, LogWrite.apply, filter_update, updateWhere_of_none, billed]
    intro row hrow
    have hitem : row.workItemId = workItemId := by simpa using (List.mem_filter.mp hrow).2
    simpa [hitem] using fun _ ↦ Ne.symm hupdated

/-- An update that does not fire the trigger changes nothing that counts. -/
theorem billed_amend {id updated : Uuid} {columns : LogColumns} (hfires : columns.fires = false)
    (workItemId : Uuid) (logs : List TimeLog) :
    billed workItemId ((LogWrite.update id updated columns).apply logs) = billed workItemId logs := by
  by_cases hsame : updated = workItemId
  · subst hsame
    refine (billed_apply (.update id updated columns) logs).trans ?_
    obtain ⟨hhours, hdeleted⟩ : columns.hours = none ∧ columns.deletedAt = none := by
      simpa [LogColumns.fires] using hfires
    simp only [LogWrite.bill, hhours, hdeleted, LogWrite.workItemId]
    refine (List.map_congr_left fun entry _ ↦ ?_).trans (List.map_id _)
    by_cases hid : entry.1 = id
    · subst hid
      simp
    · simp [hid]
  · exact billed_apply_of_ne (.update id updated columns) hsame logs

/-- The item is in sync as before when neither it nor what counts of its logs has changed. -/
theorem InSync.congr (hsync : InSync workItemId db)
    (hitems : ∀ item ∈ after.work.workItems, item.id = workItemId → item ∈ db.work.workItems)
    (hbilled : billed workItemId after.timeLogs = billed workItemId db.timeLogs) :
    InSync workItemId after := by
  intro item hitem hid
  rw [loggedHours_eq, hbilled, ← loggedHours_eq, ← billed_eq_nil, hbilled, billed_eq_nil]
  exact hsync item (hitems item hitem hid) hid

/-! ### The lock of an item -/

/-- The call that has the lock of an item. -/
def holder (workItemId : Uuid) : TimeLogLog → Option ℕ
  | [] => none
  | (number, .lockItem locked) :: earlier =>
    if locked = workItemId then some number else holder workItemId earlier
  | (_, .commit ended) :: earlier => if ended = workItemId then none else holder workItemId earlier
  | (_, .release ended) :: earlier => if ended = workItemId then none else holder workItemId earlier
  | (_, .other) :: earlier => holder workItemId earlier
  | (_, .lockLog _) :: earlier => holder workItemId earlier
  | (_, .snapshot _) :: earlier => holder workItemId earlier
  | (_, .amend) :: earlier => holder workItemId earlier

/-- Only the call that has the lock of an item commits with it or gives it up, and only a free lock is
taken. -/
def MayStep (number : ℕ) (log : TimeLogLog) : TimeLogStep → Prop
  | .lockItem workItemId => holder workItemId log = none
  | .commit workItemId => holder workItemId log = some number
  | .release workItemId => holder workItemId log = some number
  | _ => True

/-- What a step with a label does to what is committed, and to the locks of items. -/
def Effect (db : Db) (label : TimeLogStep) (after : Db) : Prop :=
  match label with
  | .commit workItemId =>
    ∃ write : LogWrite, ∃ total, write.workItemId = workItemId ∧
      after.timeLogs = write.apply db.timeLogs ∧
      after.work.workItems = setActualHours workItemId total db.work.workItems ∧
      after.lockedItems = db.lockedItems.filter (· ≠ workItemId)
  | .amend =>
    ∃ id updated columns, LogColumns.fires columns = false ∧
      after.timeLogs = (LogWrite.update id updated columns).apply db.timeLogs ∧
      after.work.workItems = db.work.workItems ∧ after.lockedItems = db.lockedItems
  | .lockItem workItemId =>
    after.timeLogs = db.timeLogs ∧ after.work.workItems = db.work.workItems ∧
      after.lockedItems = workItemId :: db.lockedItems
  | .release workItemId =>
    after.timeLogs = db.timeLogs ∧ after.work.workItems = db.work.workItems ∧
      after.lockedItems = db.lockedItems.filter (· ≠ workItemId)
  | _ =>
    after.timeLogs = db.timeLogs ∧ after.work.workItems = db.work.workItems ∧
      after.lockedItems = db.lockedItems

/-- What holds in every run: the locks in the store are those that calls have taken, and as long as no
transactions have overlapped every item is in sync. -/
structure HoursKept (world : World Db TimeLogStep) : Prop where
  locks : ∀ workItemId, workItemId ∈ world.db.lockedItems ↔ (holder workItemId world.log).isSome = true
  inSync : Unoverlapped world.log → ∀ workItemId, InSync workItemId world.db

/-- Every call takes only free locks, and does what its labels say. -/
def hoursProtocol : Protocol Db TimeLogStep where
  permits := rowLocks
  invariant := HoursKept
  guarantee number world label after := Effect world.db label after ∧ MayStep number world.log label

/-- Only a commit on an item changes what counts of its logs. -/
theorem Effect.billed_eq (heffect : Effect db label after) (hlabel : label ≠ .commit workItemId) :
    billed workItemId after.timeLogs = billed workItemId db.timeLogs := by
  cases label with
  | commit committed =>
    obtain ⟨write, total, rfl, hlogs, -⟩ := heffect
    rw [hlogs]
    exact billed_apply_of_ne write (fun hsame ↦ hlabel (congrArg _ hsame)) _
  | amend =>
    obtain ⟨id, updated, columns, hfires, hlogs, -⟩ := heffect
    rw [hlogs]
    exact billed_amend hfires workItemId _
  | _ => exact congrArg _ heffect.1

/-- So does the sum that a transaction on the item is to write. -/
theorem Effect.total_eq (heffect : Effect db label after) (hlabel : label ≠ .commit write.workItemId) :
    loggedHours write.workItemId (write.apply after.timeLogs) =
      loggedHours write.workItemId (write.apply db.timeLogs) := by
  rw [loggedHours_eq, billed_apply, heffect.billed_eq hlabel, ← billed_apply, ← loggedHours_eq]

theorem unoverlapped_of_cons (hunoverlapped : Unoverlapped ((number, label) :: log)) :
    Unoverlapped log := by
  cases label with
  | lockItem locked => exact hunoverlapped.2
  | _ => exact hunoverlapped

/-- The step is not about the lock of an item. -/
def TimeLogStep.harmless : TimeLogStep → Bool
  | .lockItem _ => false
  | .commit _ => false
  | .release _ => false
  | _ => true

/-- A step that only takes the lock of a log, reads, or commits without the trigger. -/
def Harmless (db : Db) (label : TimeLogStep) (after : Db) : Prop :=
  label.harmless = true ∧ Effect db label after

theorem Harmless.same (hstep : Harmless db label after) :
    after.work.workItems = db.work.workItems ∧ after.lockedItems = db.lockedItems := by
  obtain ⟨hlabel, heffect⟩ := hstep
  cases label with
  | lockItem locked => cases hlabel
  | commit committed => cases hlabel
  | release released => cases hlabel
  | amend =>
    obtain ⟨_, _, _, -, -, hsame⟩ := heffect
    exact hsame
  | _ => exact heffect.2

theorem holder_of_harmless (hlabel : label.harmless = true) (number : ℕ) (workItemId : Uuid)
    (log : TimeLogLog) : holder workItemId ((number, label) :: log) = holder workItemId log := by
  cases label with
  | lockItem locked => cases hlabel
  | commit committed => cases hlabel
  | release released => cases hlabel
  | _ => rfl

theorem mayStep_of_harmless (hlabel : label.harmless = true) (number : ℕ) (log : TimeLogLog) :
    MayStep number log label := by
  cases label with
  | lockItem locked => cases hlabel
  | commit committed => cases hlabel
  | release released => cases hlabel
  | _ => trivial

/-- A harmless step keeps the items in sync. -/
theorem HoursKept.harmless (hkept : HoursKept world) (hstep : Harmless world.db label after) :
    hoursProtocol.Keeps number world label after := by
  obtain ⟨hitems, hlocked⟩ := hstep.same
  obtain ⟨hlabel, heffect⟩ := hstep
  refine ⟨⟨heffect, mayStep_of_harmless hlabel number world.log⟩, fun workItemId ↦ ?_,
    fun hunoverlapped workItemId ↦ ?_⟩
  · rw [World.after, holder_of_harmless hlabel, hlocked]
    exact hkept.locks workItemId
  · have hcommit : label ≠ .commit workItemId := by
      rintro rfl
      cases hlabel
    exact (hkept.inSync (unoverlapped_of_cons hunoverlapped) workItemId).congr
      (fun item hitem _ ↦ hitems ▸ hitem) (heffect.billed_eq hcommit)

theorem meets_of_harmless {α : Type} {call : TimeLogCall α} (hcall : call.Only Harmless) :
    hoursProtocol.Meets number call (fun _ ↦ True) fun _ _ ↦ True :=
  meets_of_only hcall stable_true fun _ _ _ hkept _ _ hstep ↦ ⟨hkept.harmless hstep, trivial⟩

/-! ### A transaction -/

/-- The call has taken its snapshot, and the sum is still right unless another has committed. -/
def Snapshotted (number : ℕ) (write : LogWrite) (total : ℕ) (world : World Db TimeLogStep) : Prop :=
  Current number write.workItemId world.log →
    loggedHours write.workItemId (write.apply world.db.timeLogs) = total

/-- The call has the lock of the item, and the sum is right unless transactions have overlapped. -/
def Locked (number : ℕ) (write : LogWrite) (total : ℕ) (world : World Db TimeLogStep) : Prop :=
  holder write.workItemId world.log = some number ∧ (Unoverlapped world.log →
    loggedHours write.workItemId (write.apply world.db.timeLogs) = total)

theorem sinceSnapshot_cons {entry : ℕ × TimeLogStep} (hentry : entry ≠ (number, .snapshot workItemId)) :
    sinceSnapshot number workItemId (entry :: log) =
      entry :: sinceSnapshot number workItemId log :=
  List.takeWhile_cons_of_pos (by simpa using hentry)

theorem stable_snapshotted (number : ℕ) (write : LogWrite) (total : ℕ) :
    hoursProtocol.Stable number (Snapshotted number write total) := by
  rintro other hne world label after - hsnapshotted ⟨heffect, -⟩ hcurrent
  rw [Current, World.after,
    sinceSnapshot_cons fun hentry ↦ hne (congrArg Prod.fst hentry)] at hcurrent
  refine (heffect.total_eq (hcurrent _ List.mem_cons_self)).trans (hsnapshotted fun entry hentry ↦ ?_)
  exact hcurrent entry (List.mem_cons_of_mem _ hentry)

/-- Nobody else commits on an item that is locked. -/
theorem stable_locked (number : ℕ) (write : LogWrite) (total : ℕ) :
    hoursProtocol.Stable number (Locked number write total) := by
  rintro other hne world label after - ⟨hholder, htotal⟩ ⟨heffect, hmay⟩
  have hlabel : label ≠ .commit write.workItemId := by
    rintro rfl
    exact hne (Option.some.inj ((Eq.symm hmay).trans hholder))
  refine ⟨?_, fun hunoverlapped ↦ ?_⟩
  · cases label with
    | lockItem locked =>
      by_cases hsame : locked = write.workItemId
      · subst hsame
        cases (Eq.symm hmay).trans hholder
      · exact (if_neg hsame).trans hholder
    | commit committed => exact (if_neg fun hsame ↦ hlabel (congrArg _ hsame)).trans hholder
    | release released =>
      by_cases hsame : released = write.workItemId
      · subst hsame
        exact absurd (Option.some.inj ((Eq.symm hmay).trans hholder)) hne
      · exact (if_neg hsame).trans hholder
    | _ => exact hholder
  · exact (heffect.total_eq hlabel).trans (htotal (unoverlapped_of_cons hunoverlapped))

theorem meets_takeSnapshot (write : LogWrite) :
    hoursProtocol.Meets number (takeSnapshot write) (fun _ ↦ True) (Snapshotted number write) := by
  refine meets_query stable_true fun world hkept _ _ ↦ ⟨hkept.harmless ⟨rfl, rfl, rfl, rfl⟩, ?_⟩
  exact fun _ ↦ rfl

/-- The lock is free, and the sum is right if nobody has committed on the item since the snapshot. -/
theorem meets_lockItem (write : LogWrite) (total : ℕ) :
    hoursProtocol.Meets number (lockItem write.workItemId) (Snapshotted number write total)
      fun _ ↦ Locked number write total := by
  refine meets_atomically (stable_snapshotted number write total)
    fun world hkept hsnapshotted hpermits ↦ ?_
  have hfree : holder write.workItemId world.log = none := by
    rw [← Option.not_isSome_iff_eq_none, ← hkept.locks]
    exact hpermits
  refine ⟨⟨⟨⟨rfl, rfl, rfl⟩, hfree⟩, fun workItemId ↦ ?_, fun hunoverlapped workItemId ↦ ?_⟩, ?_, ?_⟩
  · by_cases hsame : write.workItemId = workItemId
    · subst hsame
      simp [holder, World.after]
    · rw [World.after, holder, if_neg hsame, ← hkept.locks, List.mem_cons, or_iff_right (Ne.symm hsame)]
  · exact hkept.inSync hunoverlapped.2 workItemId
  · exact if_pos rfl
  · exact fun hunoverlapped ↦ hsnapshotted hunoverlapped.1

/-- The locks once the call that has the lock of an item lets go of it. -/
theorem HoursKept.locks_unlocked (hkept : HoursKept world) (released workItemId : Uuid) :
    workItemId ∈ world.db.lockedItems.filter (· ≠ released) ↔
      (if released = workItemId then none else holder workItemId world.log).isSome = true := by
  by_cases hsame : released = workItemId
  · subst hsame
    simp
  · rw [if_neg hsame, ← hkept.locks, List.mem_filter]
    simp [Ne.symm hsame]

/-- The sum is written together with the row it counts. -/
theorem meets_commit (write : LogWrite) (total : ℕ) :
    hoursProtocol.Meets number (commit write total) (Locked number write total) fun _ _ ↦ True := by
  refine meets_atomically (stable_locked number write total)
    fun world hkept ⟨hholder, htotal⟩ _ ↦ ⟨⟨⟨?_, hholder⟩, ?_, ?_⟩, trivial⟩
  · exact ⟨write, total, rfl, rfl, rfl, rfl⟩
  · exact hkept.locks_unlocked write.workItemId
  · intro hunoverlapped workItemId
    by_cases hsame : write.workItemId = workItemId
    · subst hsame
      intro item hitem hid
      obtain ⟨old, -, rfl⟩ := mem_updateWhere.mp hitem
      split_ifs at hid ⊢ with hwritten
      · exact .inl (congrArg (fun sum ↦ some (Hours.mk sum)) (htotal hunoverlapped).symm)
      · exact absurd hid (by simpa using hwritten)
    · refine (hkept.inSync hunoverlapped workItemId).congr (fun item hitem hid ↦ ?_)
        (billed_apply_of_ne write hsame _)
      obtain ⟨old, hold, rfl⟩ := mem_updateWhere.mp hitem
      split_ifs at hid ⊢ with hwritten
      · exact absurd ((by simpa using hwritten : old.id = write.workItemId).symm.trans hid) hsame
      · exact hold

theorem meets_giveUp (write : LogWrite) (total : ℕ) :
    hoursProtocol.Meets number (giveUp write) (Locked number write total) fun _ _ ↦ True :=
  meets_atomically (stable_locked number write total) fun _ hkept ⟨hholder, _⟩ _ ↦
    ⟨⟨⟨⟨rfl, rfl, rfl⟩, hholder⟩, hkept.locks_unlocked write.workItemId, hkept.inSync⟩, trivial⟩

theorem ofWork_harmless {α : Type} {call : WorkCall α} (hcall : call.Only Work.Reads) :
    (ofWork call).Only Harmless :=
  hcall.within fun _ _ _ hreads ↦ ⟨rfl, rfl, congrArg Work.Db.workItems hreads.2, rfl⟩

theorem query_harmless {α : Type} (read : Db → α) :
    (Call.query .other read : TimeLogCall α).Only Harmless :=
  fun _ ↦ ⟨⟨rfl, rfl, rfl, rfl⟩, trivial⟩

theorem rollback_harmless (write : LogWrite) : (rollback write).Only Harmless :=
  fun _ ↦ ⟨⟨rfl, rfl, rfl, rfl⟩, trivial⟩

theorem findLog_harmless (actor : Actor) (workItemId logId : Uuid) :
    (findLog actor workItemId logId).Only Harmless :=
  Call.only_bind.mpr ⟨query_harmless _, fun _ _ ↦ Call.only_require _ _⟩

/-- The trigger and the commit of a transaction keep the items in sync. -/
theorem meets_syncActualHours (commits : Bool) (write : LogWrite) :
    hoursProtocol.Meets number (syncActualHours commits write) (fun _ ↦ True) fun _ _ ↦ True := by
  refine (meets_takeSnapshot write).bind fun total _ ↦ ?_
  by_cases hrange : 100000000 ≤ total
  · rw [if_pos hrange]
    have hrollback : hoursProtocol.Meets number (rollback write) (fun _ ↦ True) fun _ _ ↦ True :=
      meets_of_harmless (rollback_harmless write)
    exact (hrollback.strengthen fun _ _ _ ↦ trivial).bind fun _ _ ↦ trivial
  · rw [if_neg hrange]
    refine (meets_lockItem write total).bind fun _ _ ↦ ?_
    cases commits with
    | true => exact meets_commit write total
    | false => exact (meets_giveUp write total).bind fun _ _ ↦ trivial

/-! ### Calls -/

theorem meets_create (commits : Bool) (actor : Actor) (workItemId : Uuid) (input : LogTimeInput) :
    hoursProtocol.Meets number (create commits actor workItemId input) (fun _ ↦ True)
      fun _ _ ↦ True := by
  have hlog : (newLog actor workItemId input).Only Harmless :=
    fun _ ↦ ⟨⟨rfl, rfl, rfl, rfl⟩, trivial⟩
  refine (meets_of_harmless hlog).bind fun log _ ↦ ?_
  refine (meets_of_harmless (Call.only_ensure _ _)).bind fun _ _ ↦ ?_
  exact (meets_syncActualHours commits (.insert log)).bind fun _ _ _ _ _ ↦ trivial

theorem meets_updateLocked (commits : Bool) (columns : LogColumns) (log : TimeLog) :
    hoursProtocol.Meets number (updateLocked commits columns log) (fun _ ↦ True) fun _ _ ↦ True := by
  unfold updateLocked
  split_ifs with _ hfires
  · exact meets_syncActualHours commits _
  · refine meets_of_harmless fun _ ↦ ⟨⟨rfl, log.id, log.workItemId, columns, ?_, rfl, rfl, rfl⟩, trivial⟩
    simpa using hfires
  · exact (meets_of_harmless (rollback_harmless _)).bind fun _ _ ↦ trivial
  · exact (meets_of_harmless (rollback_harmless _)).bind fun _ _ ↦ trivial

theorem meets_updateLog (commits : Bool) (id : Uuid) (columns : LogColumns) :
    hoursProtocol.Meets number (updateLog commits id columns) (fun _ ↦ True) fun _ _ ↦ True := by
  have hlock : (lockLog id).Only Harmless := fun _ ↦ ⟨⟨rfl, rfl, rfl, rfl⟩, trivial⟩
  refine (meets_of_harmless hlock).bind fun found _ ↦ ?_
  cases found with
  | none => exact (meets_of_harmless (rollback_harmless _)).bind fun _ _ _ _ _ ↦ trivial
  | some log => exact (meets_updateLocked commits columns log).bind fun _ _ _ _ _ ↦ trivial

theorem meets_serve (request : TimeLogRequest) :
    hoursProtocol.Meets number request.serve (fun _ ↦ True) fun _ _ ↦ True := by
  cases request with
  | logTime commits actor workItemId input =>
    refine Meets.map ((meets_of_harmless (ofWork_harmless ?_)).bind fun _ _ ↦ ?_)
    · exact getWorkItem_reads actor.tenantId workItemId
    · exact meets_create commits actor workItemId input
  | updateTimeLog commits actor workItemId logId input =>
    refine Meets.map ((meets_of_harmless (ofWork_harmless ?_)).bind fun _ _ ↦ ?_)
    · exact getWorkItem_reads actor.tenantId workItemId
    · refine (meets_of_harmless (findLog_harmless actor workItemId logId)).bind fun log _ ↦ ?_
      refine (meets_of_harmless (Call.only_ensure _ _)).bind fun _ _ ↦ ?_
      exact meets_updateLog commits logId _
  | deleteTimeLog commits actor isAdmin workItemId logId =>
    refine (meets_of_harmless (ofWork_harmless ?_)).bind fun _ _ ↦ ?_
    · exact getWorkItem_reads actor.tenantId workItemId
    · refine (meets_of_harmless (findLog_harmless actor workItemId logId)).bind fun log _ ↦ ?_
      refine (meets_of_harmless (Call.only_ensure _ _)).bind fun _ _ ↦ ?_
      refine (meets_of_harmless (query_harmless _)).bind fun now _ ↦ ?_
      exact (meets_updateLog commits logId _).bind fun _ _ _ _ _ ↦ trivial
  | tick microseconds =>
    exact meets_of_harmless fun _ ↦ ⟨⟨rfl, rfl, rfl, rfl⟩, trivial⟩

/-! ### The actual hours -/

/-- Assumes: no item is locked at the start, and every item is in sync. In every interleaving of the
transactions in which no other transaction on an item commits between the snapshot of a transaction on it
and the moment that one has the lock, every item is in sync. -/
theorem reachable_inSync {config : Config Db TimeLogStep Failure Unit} (hlocked : db.lockedItems = [])
    (hsync : ∀ workItemId, InSync workItemId db)
    (hreach : Reachable TimeLogRequest.serve rowLocks db config)
    (hunoverlapped : Unoverlapped config.log) (workItemId : Uuid) : InSync workItemId config.db := by
  have hkept : HoursKept config.toWorld := hoursProtocol.reachable_invariant
    (fun request _ ↦ (meets_serve request).strengthen fun _ _ _ ↦ trivial)
    ⟨fun _ ↦ by simp [hlocked, holder], fun _ ↦ hsync⟩ hreach
  exact hkept.inSync hunoverlapped workItemId

/-! ### Runs -/

/-- A store with one item, which has no logs. -/
def unlogged : Db where
  work := { workItems := [{ id := 7, tenantId := 2, projectId := 5, itemKey := "APP-1", type := .story
                            title := "Sign in", statusId := 6, createdBy := 4, createdAt := 0 }] }

theorem inSync_unlogged (workItemId : Uuid) : InSync workItemId unlogged := by
  intro item hitem _
  obtain rfl := List.mem_singleton.mp hitem
  exact .inr ⟨rfl, fun log hlog ↦ by cases hlog⟩

/-- A member of the tenant of the item logs time. -/
def logHours (hundredths : ℕ) : TimeLogRequest :=
  .logTime true { sub := 4, tenantId := 2 } 7 { loggedDate := 20000, hours := ⟨hundredths⟩ }

/-- A second transaction takes its snapshot after the first has committed, and both of a deletion and an
edit follow. -/
def inTurn : List (Choice TimeLogRequest) :=
  .start (logHours 150) :: .start (logHours 200) :: .resume 0 :: .resume 1 :: .resume 1 :: finish 0 ++
    finish 1 ++ .start (.updateTimeLog true { sub := 4, tenantId := 2 } 7 1 { hours := some ⟨50⟩ }) ::
    finish 2 ++ .start (.deleteTimeLog true { sub := 4, tenantId := 2 } false 7 0) :: finish 3

/-- A witness that the condition can be met. -/
theorem reachable_inSync_witness :
    InSync 7 ((Config.initial unlogged).play TimeLogRequest.serve inTurn).db :=
  reachable_inSync rfl inSync_unlogged (play_reachable (by decide +kernel)) (by decide +kernel) 7

/-- Two transactions take their snapshots before either has committed. -/
def overlapping : List (Choice TimeLogRequest) :=
  .start (logHours 100) :: .start (logHours 200) :: .resume 0 :: .resume 0 :: .resume 0 :: .resume 1 ::
    .resume 1 :: .resume 1 :: finish 0 ++ finish 1

/-- Without the condition hours can be missing from the sum once all transactions have committed. -/
theorem lostHours :
    ¬ ∀ (db : Db) (config : Config Db TimeLogStep Failure Unit), db.lockedItems = [] →
      (∀ workItemId, InSync workItemId db) → Reachable TimeLogRequest.serve rowLocks db config →
      (∀ call ∈ config.calls, call.returned = some ()) → ∀ workItemId, InSync workItemId config.db := by
  intro halways
  have hsync := halways unlogged ((Config.initial unlogged).play TimeLogRequest.serve overlapping) rfl
    inSync_unlogged (play_reachable (by decide +kernel)) (by decide +kernel) 7
  have hitems : ∃ item ∈ ((Config.initial unlogged).play TimeLogRequest.serve overlapping).db.work.workItems,
      item.id = 7 ∧ item.actualHours = some ⟨200⟩ := by decide +kernel
  have htotal : loggedHours 7
      ((Config.initial unlogged).play TimeLogRequest.serve overlapping).db.timeLogs = 300 := by
    decide +kernel
  obtain ⟨item, hitem, hid, hactual⟩ := hitems
  rcases hsync item hitem hid with hsum | ⟨hnone, -⟩
  · rw [htotal, hactual] at hsum
    cases hsum
  · rw [hactual] at hnone
    cases hnone

end RallyApi.TimeLogs

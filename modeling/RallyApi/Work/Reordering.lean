import Mathlib.Data.List.Induction
import RallyApi.Work.CallRuns

/-!
# Reordering work items and workflow statuses

`reorderWorkItems` reads every listed item first and then writes the ranks, one statement an item, in one
transaction; `reorderStatuses` writes all positions in one statement.

`reorderWorkItems_allOrNothing` says that a list of ranks is written as a whole or not at all, whichever
read or statement fails. `reorderStatuses_lists` says that the statuses are then listed in the order asked
for, whatever the order of rows with the same position.
-/

set_option autoImplicit false
set_option relaxedAutoImplicit false

namespace RallyApi.Work

open Concurrency Platform Store

variable {db after : Db} {tenantId : Uuid}

/-! ### Ranks -/

/-- One `UPDATE` of `reorderItems`. -/
def Db.setRank (db : Db) (tenantId id : Uuid) (rank : String) : Db :=
  { db with
    workItems := updateWhere (fun item ↦ item.id = id ∧ item.tenantId = tenantId)
      (fun item ↦ { item with rank }) db.workItems }

/-- `reorderItems`, in a transaction. The statements run in the order of the list; `faults` says which of
them fail, and with what. -/
def reorderItems (faults : ℕ → Option Failure) (items : List (Uuid × String)) (tenantId : Uuid)
    (db : Db) : Except Failure Db :=
  items.zipIdx.foldlM
    (fun store ((id, rank), index) ↦
      match faults index with
      | some failure => .error failure
      | none => .ok (store.setRank tenantId id rank)) db

/-- The check that all items belong to the tenant. -/
def assertWorkItems (tenantId : Uuid) (items : List (Uuid × String)) : WorkCall Unit :=
  items.forM fun item ↦ do
    let _ ← getWorkItem tenantId item.1
    pure ()

/-- `reorderWorkItems`. The second look at the tenants of the items can only fail where `getWorkItem` has,
and is left out. -/
def reorderWorkItems (faults : ℕ → Option Failure) (tenantId : Uuid) (items : List (Uuid × String)) :
    WorkCall Unit :=
  if items = [] then pure ()
  else do
    assertWorkItems tenantId items
    transaction (fun _ ↦ .other) fun db ↦ do
      let after ← reorderItems faults items tenantId db
      pure ((), after)

/-- The last rank a list gives to an item. -/
def lastRank (items : List (Uuid × String)) (id : Uuid) : Option String :=
  (items.reverse.find? fun item ↦ item.1 = id).map Prod.snd

/-- The store in which the items of the tenant have the last rank the list gives them. -/
def Db.withRanks (db : Db) (tenantId : Uuid) (items : List (Uuid × String)) : Db :=
  { db with
    workItems := db.workItems.map fun item ↦
      if item.tenantId = tenantId then { item with rank := (lastRank items item.id).getD item.rank }
      else item }

/-- The item is found as a live one of the tenant. -/
def Readable (db : Db) (tenantId id : Uuid) : Prop :=
  ∃ item, db.workItems.find? (fun item ↦ item.id = id ∧ item.deletedAt = none) = some item ∧
    item.tenantId = tenantId

/-- The last rank of a list with one more rank at its end. -/
theorem lastRank_append (items : List (Uuid × String)) (id : Uuid) (rank : String) (other : Uuid) :
    lastRank (items ++ [(id, rank)]) other =
      if id = other then some rank else lastRank items other := by
  rw [lastRank, List.reverse_append, List.reverse_singleton, List.singleton_append, List.find?_cons]
  by_cases hid : id = other <;> simp [hid, lastRank]

/-- One more rank at the end of the list is one more statement. -/
theorem withRanks_append (items : List (Uuid × String)) (id : Uuid) (rank : String) :
    db.withRanks tenantId (items ++ [(id, rank)]) =
      (db.withRanks tenantId items).setRank tenantId id rank := by
  simp only [Db.withRanks, Db.setRank, updateWhere, List.map_map]
  congr 1
  refine List.map_congr_left fun item _ ↦ ?_
  simp only [Function.comp_apply, lastRank_append]
  by_cases htenant : item.tenantId = tenantId
  · by_cases hid : id = item.id
    · simp [htenant, hid]
    · simp [htenant, hid, Ne.symm hid]
  · simp [htenant]

theorem withRanks_nil : db.withRanks tenantId [] = db := by
  have hsame : (db.workItems.map fun item ↦
      if item.tenantId = tenantId then { item with rank := (lastRank [] item.id).getD item.rank }
      else item) = db.workItems :=
    (List.map_congr_left fun item _ ↦ ite_self item).trans (List.map_id _)
  rw [Db.withRanks, hsame]

/-- The statements in order: the last one runs where the others have. -/
theorem reorderItems_append (faults : ℕ → Option Failure) (items : List (Uuid × String)) (id : Uuid)
    (rank : String) :
    reorderItems faults (items ++ [(id, rank)]) tenantId db =
      (reorderItems faults items tenantId db) >>= fun store ↦
        match faults items.length with
        | some failure => .error failure
        | none => .ok (store.setRank tenantId id rank) := by
  rw [reorderItems, List.zipIdx_append, List.foldlM_append]
  refine bind_congr fun store ↦ ?_
  simp only [List.zipIdx_cons, List.zipIdx_nil, List.foldlM_cons, List.foldlM_nil, Nat.zero_add]
  cases faults items.length <;> rfl

/-- Assumes: no statement fails. The statements leave the last rank of each item. -/
theorem reorderItems_ok {faults : ℕ → Option Failure} {items : List (Uuid × String)}
    (hnone : ∀ index < items.length, faults index = none) :
    reorderItems faults items tenantId db = .ok (db.withRanks tenantId items) := by
  induction items using List.reverseRecOn with
  | nil => rw [withRanks_nil]; rfl
  | append_singleton items item ih =>
    rw [List.length_append, List.length_singleton] at hnone
    rw [reorderItems_append, ih fun index hindex ↦ hnone index (by omega), withRanks_append]
    simp only [hnone items.length (by omega)]
    rfl

/-- Assumes: a statement fails. So does the transaction. -/
theorem reorderItems_error {faults : ℕ → Option Failure} {items : List (Uuid × String)} {index : ℕ}
    (tenantId : Uuid) (db : Db) (hindex : index < items.length) (hfault : faults index ≠ none) :
    ∃ failure, reorderItems faults items tenantId db = .error failure := by
  induction items using List.reverseRecOn with
  | nil => cases hindex
  | append_singleton items item ih =>
    rw [reorderItems_append]
    rw [List.length_append, List.length_singleton] at hindex
    by_cases hearlier : index < items.length
    · obtain ⟨failure, hfailure⟩ := ih hearlier
      rw [hfailure]
      exact ⟨failure, rfl⟩
    · obtain rfl : index = items.length := by omega
      obtain ⟨failure, hfailure⟩ := Option.ne_none_iff_exists'.mp hfault
      cases reorderItems faults items tenantId db with
      | error failure => exact ⟨failure, rfl⟩
      | ok store => exact ⟨failure, by simp only [hfailure]; rfl⟩

/-- Statements that have all run have left the last rank of each item. -/
theorem eq_withRanks_of_reorderItems {faults : ℕ → Option Failure} {items : List (Uuid × String)}
    (hok : reorderItems faults items tenantId db = .ok after) : after = db.withRanks tenantId items := by
  by_cases hnone : ∀ index < items.length, faults index = none
  · rw [reorderItems_ok hnone] at hok
    exact (Except.ok.inj hok).symm
  · simp only [not_forall] at hnone
    obtain ⟨index, hindex, hfault⟩ := hnone
    obtain ⟨failure, hfailure⟩ := reorderItems_error tenantId db hindex hfault
    rw [hfailure] at hok
    cases hok

theorem assertWorkItems_cons (item : Uuid × String) (rest : List (Uuid × String)) :
    assertWorkItems tenantId (item :: rest) =
      getWorkItem tenantId item.1 >>= fun _ ↦ assertWorkItems tenantId rest :=
  Call.bind_assoc _ _ _

theorem assertWorkItems_reads (tenantId : Uuid) (items : List (Uuid × String)) :
    (assertWorkItems tenantId items).Only Reads := by
  induction items with
  | nil => exact Call.only_pure _
  | cons item rest ih =>
    rw [assertWorkItems_cons]
    exact Call.only_bind.mpr ⟨getWorkItem_reads _ _, fun _ _ ↦ ih⟩

/-- The check passes when every item can be read. -/
theorem assertWorkItems_ok_iff {items : List (Uuid × String)} :
    ((assertWorkItems tenantId items).run db).1 = .ok () ↔
      ∀ item ∈ items, Readable db tenantId item.1 := by
  induction items with
  | nil => exact ⟨fun _ _ hitem ↦ absurd hitem List.not_mem_nil, fun _ ↦ rfl⟩
  | cons item rest ih =>
    rw [assertWorkItems_cons, ok_bind_iff (getWorkItem_reads _ _), List.forall_mem_cons, ← ih,
      Readable]
    simp only [getWorkItem_ok_iff, exists_and_right]

/-! ### All or nothing -/

/-- `reorderWorkItems` writes the whole list or nothing: it fails and leaves the store alone when an item
cannot be read or a statement fails, it writes every rank otherwise, and where one of its steps is cut off
the store is as it was. With other calls in between, too, each of its steps changes nothing or writes the
whole list. -/
structure AllOrNothing (faults : ℕ → Option Failure) (tenantId : Uuid) (items : List (Uuid × String))
    (db : Db) : Prop where
  refused : (∃ item ∈ items, ¬ Readable db tenantId item.1) ∨
    (∃ index < items.length, faults index ≠ none) →
      ∃ failure, (reorderWorkItems faults tenantId items).run db = (.error failure, db)
  written : (∀ item ∈ items, Readable db tenantId item.1) →
    (∀ index < items.length, faults index = none) →
      (reorderWorkItems faults tenantId items).run db = (.ok (), db.withRanks tenantId items)
  interrupted : ∀ steps failure,
    ((reorderWorkItems faults tenantId items).interrupted failure steps).run db =
        (reorderWorkItems faults tenantId items).run db ∨
      ((reorderWorkItems faults tenantId items).interrupted failure steps).run db = (.error failure, db)
  steps : (reorderWorkItems faults tenantId items).Only fun found _ left ↦
    left = found ∨ left = found.withRanks tenantId items

/-- The transaction of `reorderWorkItems`. -/
def writeRanks (faults : ℕ → Option Failure) (tenantId : Uuid) (items : List (Uuid × String)) :
    WorkCall Unit :=
  transaction (fun _ ↦ .other) fun db ↦ do
    let after ← reorderItems faults items tenantId db
    pure ((), after)

theorem reorderWorkItems_eq {faults : ℕ → Option Failure} {items : List (Uuid × String)}
    (hitems : items ≠ []) :
    reorderWorkItems faults tenantId items =
      assertWorkItems tenantId items >>= fun _ ↦ writeRanks faults tenantId items :=
  if_neg hitems

theorem writeRanks_only {faults : ℕ → Option Failure} {items : List (Uuid × String)} :
    (writeRanks faults tenantId items).Only fun found _ left ↦
      left = found ∨ left = found.withRanks tenantId items := by
  refine Call.only_transaction (fun _ ↦ .inl rfl) fun db value after hcommit ↦ .inr ?_
  obtain ⟨written, hwritten, hreturn⟩ := bind_eq_ok.mp hcommit
  rw [← (Prod.mk.inj (Except.ok.inj hreturn)).2, eq_withRanks_of_reorderItems hwritten]

/-- All steps of `reorderWorkItems` find the store as it was. -/
theorem eq_of_mem_found_reorderWorkItems {faults : ℕ → Option Failure} {items : List (Uuid × String)}
    {seen : Db} (hseen : seen ∈ (reorderWorkItems faults tenantId items).found db) : seen = db := by
  by_cases hitems : items = []
  · rw [reorderWorkItems, if_pos hitems] at hseen
    cases hseen
  · have hreads := assertWorkItems_reads tenantId items
    rw [reorderWorkItems_eq hitems, Call.found_bind, run_of_reads hreads] at hseen
    rcases List.mem_append.mp hseen with hcheck | hwrite
    · exact eq_of_mem_found_of_reads hreads hcheck
    · cases hresult : ((assertWorkItems tenantId items).run db).1 with
      | error failure => rw [hresult] at hwrite; cases hwrite
      | ok value =>
        rw [hresult] at hwrite
        exact List.mem_singleton.mp hwrite

theorem reorderWorkItems_allOrNothing (faults : ℕ → Option Failure) (tenantId : Uuid)
    (items : List (Uuid × String)) (db : Db) : AllOrNothing faults tenantId items db := by
  have hreads := assertWorkItems_reads tenantId items
  refine ⟨fun hrefused ↦ ?_, fun hreadable hnone ↦ ?_, fun steps failure ↦ ?_, ?_⟩
  · have hitems : items ≠ [] := by
      rintro rfl
      simp at hrefused
    rw [reorderWorkItems_eq hitems]
    rcases run_bind_of_reads hreads _ db with hfail | ⟨_, hchecked, hrun⟩
    · exact hfail
    · have hreadable := assertWorkItems_ok_iff.mp hchecked
      rcases hrefused with ⟨item, hitem, hunreadable⟩ | ⟨index, hindex, hfault⟩
      · exact absurd (hreadable item hitem) hunreadable
      · obtain ⟨failure, hfailure⟩ := reorderItems_error tenantId db hindex hfault
        refine ⟨failure, hrun.trans ?_⟩
        rw [writeRanks, transaction, Call.run_transaction, hfailure]
        rfl
  · by_cases hitems : items = []
    · rw [reorderWorkItems, if_pos hitems, hitems, withRanks_nil]
      rfl
    · rw [reorderWorkItems_eq hitems,
        run_bind_of_reads_returned hreads (assertWorkItems_ok_iff.mpr hreadable), writeRanks,
        transaction, Call.run_transaction, reorderItems_ok hnone]
      rfl
  · rcases Call.interrupted_run (reorderWorkItems faults tenantId items) failure steps db
      with hsame | ⟨seen, hseen, hrun⟩
    · exact .inl hsame
    · exact .inr (eq_of_mem_found_reorderWorkItems hseen ▸ hrun)
  · by_cases hitems : items = []
    · rw [reorderWorkItems, if_pos hitems]
      exact Call.only_pure _
    · rw [reorderWorkItems_eq hitems]
      exact Call.only_bind.mpr ⟨hreads.mono fun _ _ _ hsame ↦ .inl hsame.2, fun _ _ ↦ writeRanks_only⟩

/-! ### Positions -/

/-- The `CASE` of `updatePositions`: the index of the first `WHEN` that names the status. -/
def casePosition (orderedIds : List Uuid) (status : WorkflowStatus) : ℤ := orderedIds.idxOf status.id

/-- The store after `updatePositions`. -/
def Db.updatePositions (db : Db) (projectId : Uuid) (orderedIds : List Uuid) : Db :=
  { db with
    workflowStatuses := updateWhere (fun status ↦ status.projectId = projectId ∧ status.id ∈ orderedIds)
      (fun status ↦ { status with position := casePosition orderedIds status }) db.workflowStatuses }

/-- `updatePositions`. -/
def updatePositions (projectId : Uuid) (orderedIds : List Uuid) : WorkCall Unit :=
  if orderedIds = [] then pure ()
  else Call.atomically (fun _ ↦ .other) fun db ↦ ((), db.updatePositions projectId orderedIds)

/-- `reorderStatuses`. -/
def reorderStatuses (tenantId projectId : Uuid) (orderedIds : List Uuid) : WorkCall Unit := do
  let _ ← getProject tenantId projectId
  updatePositions projectId orderedIds

/-- The rows `listByProject` may return: the statuses of the project by position, in any order where
positions are the same. -/
structure ListsStatuses (table : List WorkflowStatus) (projectId : Uuid) (listed : List WorkflowStatus) :
    Prop where
  rows : listed.Perm (table.filter fun status ↦ status.projectId = projectId)
  sorted : listed.Pairwise fun first second ↦ first.position ≤ second.position

/-- `listByProject` returns such rows. -/
theorem statusesOf_lists (projectId : Uuid) (table : List WorkflowStatus) :
    ListsStatuses table projectId (statusesOf projectId table) where
  rows := List.perm_insertionSort _ _
  sorted := List.pairwise_insertionSort _ _

/-- A list without repetition is in the order of its own indices. -/
theorem pairwise_idxOf {ids : List Uuid} (hnodup : ids.Nodup) :
    ids.Pairwise fun first second ↦ ids.idxOf first ≤ ids.idxOf second := by
  rw [List.pairwise_iff_getElem]
  intro first second hfirst hsecond hlt
  rw [hnodup.idxOf_getElem, hnodup.idxOf_getElem]
  exact hlt.le

/-- Two lists of the same identifiers, each in the order of a third list, are the same. -/
theorem eq_of_perm_of_idxOf {ids first second : List Uuid} (hperm : first.Perm second)
    (hmem : ∀ id ∈ first, id ∈ ids)
    (hfirst : first.Pairwise fun a b ↦ ids.idxOf a ≤ ids.idxOf b)
    (hsecond : second.Pairwise fun a b ↦ ids.idxOf a ≤ ids.idxOf b) : first = second := by
  refine hperm.eq_of_pairwise (fun a b ha _ hab hba ↦ ?_) hfirst hsecond
  exact (List.idxOf_inj (hmem a ha)).mp (Nat.le_antisymm hab hba)

variable {projectId : Uuid} {orderedIds : List Uuid}

/-- The identifiers do not change. -/
theorem map_id_updatePositions :
    (db.updatePositions projectId orderedIds).workflowStatuses.map WorkflowStatus.id =
      db.workflowStatuses.map WorkflowStatus.id :=
  map_updateWhere fun _ ↦ rfl

/-- A listed status of the project is at the place the list gives it. -/
theorem position_updatePositions {status : WorkflowStatus}
    (hstatus : status ∈ (db.updatePositions projectId orderedIds).workflowStatuses)
    (hproject : status.projectId = projectId) (hlisted : status.id ∈ orderedIds) :
    status.position = orderedIds.idxOf status.id := by
  obtain ⟨old, _, rfl⟩ := mem_updateWhere.mp hstatus
  split_ifs at hproject hlisted ⊢ with hold
  · rfl
  · exact absurd (decide_eq_true ⟨hproject, hlisted⟩) hold

/-- The statuses of the project before and after. -/
theorem exists_updatePositions {id : Uuid} :
    (∃ status ∈ (db.updatePositions projectId orderedIds).workflowStatuses,
      status.id = id ∧ status.projectId = projectId) ↔
      ∃ status ∈ db.workflowStatuses, status.id = id ∧ status.projectId = projectId := by
  simp only [Db.updatePositions, mem_updateWhere]
  constructor
  · rintro ⟨_, ⟨old, hold, rfl⟩, hid, hproject⟩
    split_ifs at hid hproject
    · exact ⟨old, hold, hid, hproject⟩
    · exact ⟨old, hold, hid, hproject⟩
  · rintro ⟨old, hold, hid, hproject⟩
    refine ⟨_, ⟨old, hold, rfl⟩, ?_⟩
    split_ifs
    · exact ⟨hid, hproject⟩
    · exact ⟨hid, hproject⟩

/-- What a reordering should do: among the rows listed afterwards the statuses of the list are in its
order, and a status that is not of the list and of the project is as it was. -/
structure RealisesOrder (db : Db) (projectId : Uuid) (orderedIds : List Uuid) (after : Db) : Prop where
  order : ∀ listed, ListsStatuses after.workflowStatuses projectId listed →
    (listed.filter fun status ↦ status.id ∈ orderedIds).map WorkflowStatus.id =
      orderedIds.filter fun id ↦
        ∃ status ∈ db.workflowStatuses, status.id = id ∧ status.projectId = projectId
  others : ∀ (index : ℕ), ∀ status ∈ db.workflowStatuses[index]?,
    ¬ (status.projectId = projectId ∧ status.id ∈ orderedIds) →
      after.workflowStatuses[index]? = some status

/-- The rows that are listed are those of the project. -/
theorem ListsStatuses.mem_iff {table listed : List WorkflowStatus}
    (hlisted : ListsStatuses table projectId listed) {status : WorkflowStatus} :
    status ∈ listed ↔ status ∈ table ∧ status.projectId = projectId := by
  rw [hlisted.rows.mem_iff, List.mem_filter, decide_eq_true_eq]

/-- Assumes: status identifiers are distinct, and the list has no repetition. The listed statuses of the
project are those of the list that the project has. -/
theorem perm_updatePositions {listed : List WorkflowStatus}
    (hids : (db.workflowStatuses.map WorkflowStatus.id).Nodup) (hordered : orderedIds.Nodup)
    (hlisted : ListsStatuses (db.updatePositions projectId orderedIds).workflowStatuses projectId listed) :
    ((listed.filter fun status ↦ status.id ∈ orderedIds).map WorkflowStatus.id).Perm
      (orderedIds.filter fun id ↦
        ∃ status ∈ db.workflowStatuses, status.id = id ∧ status.projectId = projectId) := by
  have hnodup : (listed.map WorkflowStatus.id).Nodup := by
    rw [(hlisted.rows.map _).nodup_iff]
    refine List.Nodup.sublist (List.filter_sublist.map _) ?_
    rwa [map_id_updatePositions]
  refine (List.perm_ext_iff_of_nodup (hnodup.sublist (List.filter_sublist.map _))
    (hordered.filter _)).mpr fun id ↦ ?_
  rw [List.mem_filter, decide_eq_true_eq, ← exists_updatePositions]
  simp only [List.mem_map, List.mem_filter, decide_eq_true_eq, hlisted.mem_iff]
  constructor
  · rintro ⟨status, ⟨⟨hrow, hproject⟩, hlist⟩, rfl⟩
    exact ⟨hlist, status, hrow, rfl, hproject⟩
  · rintro ⟨hlist, status, hrow, rfl, hproject⟩
    exact ⟨status, ⟨⟨hrow, hproject⟩, hlist⟩, rfl⟩

/-- Assumes: status identifiers are distinct, and the list has no repetition. The positions realise the
order of the list. -/
theorem updatePositions_realisesOrder (hids : (db.workflowStatuses.map WorkflowStatus.id).Nodup)
    (hordered : orderedIds.Nodup) :
    RealisesOrder db projectId orderedIds (db.updatePositions projectId orderedIds) where
  order listed hlisted := by
    have hplace : ∀ status ∈ listed.filter fun status ↦ status.id ∈ orderedIds,
        status.position = orderedIds.idxOf status.id := by
      intro status hstatus
      obtain ⟨hmem, hlist⟩ := List.mem_filter.mp hstatus
      obtain ⟨hrow, hproject⟩ := hlisted.mem_iff.mp hmem
      exact position_updatePositions hrow hproject (of_decide_eq_true hlist)
    refine eq_of_perm_of_idxOf (perm_updatePositions hids hordered hlisted) ?_ ?_
      ((pairwise_idxOf hordered).filter _)
    · intro id hid
      obtain ⟨status, hstatus, rfl⟩ := List.mem_map.mp hid
      exact of_decide_eq_true (List.mem_filter.mp hstatus).2
    · rw [List.pairwise_map]
      refine List.Pairwise.imp_of_mem ?_ (hlisted.sorted.filter _)
      intro first second hfirst hsecond hle
      rw [hplace first hfirst, hplace second hsecond] at hle
      exact Int.ofNat_le.mp hle
  others index status hindex hother := by
    rw [Db.updatePositions, updateWhere, List.getElem?_map, Option.mem_def.mp hindex, Option.map_some,
      if_neg (by simpa using hother)]

/-- The positions of no statuses are not written. -/
theorem updatePositions_nil : db.updatePositions projectId [] = db := by
  rw [Db.updatePositions, updateWhere_of_none (by simp)]

/-- A reordering that returns has seen the project and written the positions. -/
theorem reorderStatuses_ok {result : Unit}
    (hrun : (reorderStatuses tenantId projectId orderedIds).run db = (.ok result, after)) :
    (∃ project, ((getProject tenantId projectId).run db).1 = .ok project) ∧
      after = db.updatePositions projectId orderedIds := by
  obtain ⟨project, hproject, _⟩ :=
    run_bind_of_reads_ok (getProject_reads tenantId projectId) (congrArg Prod.fst hrun)
  refine ⟨⟨project, hproject⟩, ?_⟩
  rw [reorderStatuses, run_bind_of_reads_returned (getProject_reads _ _) hproject,
    updatePositions] at hrun
  split_ifs at hrun with hempty
  · rw [hempty, updatePositions_nil]
    exact (Prod.mk.inj hrun).2.symm
  · exact (Prod.mk.inj hrun).2.symm

/-- Assumes: status identifiers are distinct, the list has no repetition, and a reordering has returned. The
statuses are listed in the order of the list, and no other status has changed. -/
theorem reorderStatuses_lists {result : Unit}
    (hids : (db.workflowStatuses.map WorkflowStatus.id).Nodup) (hordered : orderedIds.Nodup)
    (hrun : (reorderStatuses tenantId projectId orderedIds).run db = (.ok result, after)) :
    RealisesOrder db projectId orderedIds after ∧
      ∃ listed, (listStatuses tenantId projectId).run after = (.ok listed, after) ∧
        ListsStatuses after.workflowStatuses projectId listed := by
  obtain ⟨⟨project, hproject⟩, rfl⟩ := reorderStatuses_ok hrun
  have hfound := getProject_ok_iff.mp hproject
  have hagain : ((getProject tenantId projectId).run (db.updatePositions projectId orderedIds)).1 =
      .ok project := getProject_ok_iff.mpr hfound
  exact ⟨updatePositions_realisesOrder hids hordered, _,
    run_bind_of_reads_returned (getProject_reads _ _) hagain, statusesOf_lists _ _⟩

/-- The default statuses with two of them moved to the front, and a status of another project listed in
between. -/
def reordered : Db := ((reorderStatuses 2 100 [105, 110, 104]).run (runCalls emptyDb twoProjects)).2

/-- A witness: the reordering returns. -/
theorem reorderStatuses_lists_witness :
    RealisesOrder (runCalls emptyDb twoProjects) 100 [105, 110, 104] reordered ∧
      ∃ listed, (listStatuses 2 100).run reordered = (.ok listed, reordered) ∧
        ListsStatuses reordered.workflowStatuses 100 listed := by
  have hreturns : ((reorderStatuses 2 100 [105, 110, 104]).run (runCalls emptyDb twoProjects)).1 =
      .ok () := by decide +kernel
  exact reorderStatuses_lists (by decide +kernel) (by decide) (Prod.ext hreturns rfl)

end RallyApi.Work

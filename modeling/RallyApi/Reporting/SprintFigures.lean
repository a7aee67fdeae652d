import Mathlib.Algebra.Order.BigOperators.Group.List
import RallyApi.Reporting.Velocity
import RallyApi.Work.CallRuns
import RallyApi.Work.NewRows

/-!
# What the figures of a sprint cover

The aggregate of a sprint joins the items with the statuses of their projects, so an item whose status is
missing, or is one of another project, is in none of its figures, and neither is an item of another tenant.

`joinRows` is the join as SQL has it, an item with every status it matches. Where the identifiers of the
statuses are distinct it has each item at most once (`joinRows_eq`), and the figures cover the sprint if and
only if every item of the sprint is counted (`covers_iff`).

`Sound` stores are those in which every item is counted by the sprint it is in. `KeepsCountable` is the
condition on a write, in the store it finds, under which they stay so (`Sound.step`).
-/

set_option autoImplicit false
set_option relaxedAutoImplicit false

namespace RallyApi.Reporting

open Concurrency Platform Store Work

/-! ### The join -/

/-- The rows of the join of `aggregateSprintStats`: each item of the sprint with every status that the
condition of the join pairs it with. -/
def joinRows (tenantId sprintId : Uuid) (db : Work.Db) : List (WorkItem × WorkflowStatus) :=
  (db.workItems.filter fun item ↦ item.tenantId = tenantId ∧ item.iterationId = some sprintId ∧
    item.deletedAt = none).flatMap fun item ↦
      (db.workflowStatuses.filter fun status ↦
        status.id = item.statusId ∧ status.projectId = item.projectId).map fun status ↦ (item, status)

variable {db after : Work.Db} {item : WorkItem} {tenantId sprintId : Uuid}

/-- The statuses an item is joined with are the one of its project with its `statusId`. -/
theorem filter_statusOf (hids : (db.workflowStatuses.map WorkflowStatus.id).Nodup) (item : WorkItem) :
    (db.workflowStatuses.filter fun status ↦
      status.id = item.statusId ∧ status.projectId = item.projectId) = (statusOf db item).toList := by
  refine filter_eq_find hids fun first _ second _ hfirst hsecond ↦ ?_
  exact (of_decide_eq_true hfirst).1.trans (of_decide_eq_true hsecond).1.symm

/-- Assumes: the identifiers of the statuses are distinct. The join has no item twice. -/
theorem joinRows_eq (hids : (db.workflowStatuses.map WorkflowStatus.id).Nodup)
    (tenantId sprintId : Uuid) : joinRows tenantId sprintId db = sprintItems tenantId sprintId db := by
  rw [joinRows, sprintItems, List.filterMap_eq_flatMap_toList]
  refine List.flatMap_congr fun item _ ↦ ?_
  rw [filter_statusOf hids]
  cases statusOf db item <;> rfl

/-! ### The items of a sprint -/

/-- The items of a sprint that are not deleted. -/
def itemsOf (sprintId : Uuid) (db : Work.Db) : List WorkItem :=
  db.workItems.filter fun item ↦ item.iterationId = some sprintId ∧ item.deletedAt = none

/-- The status of the item is in the category `done`. -/
def isDone (db : Work.Db) (item : WorkItem) : Bool :=
  db.workflowStatuses.any fun status ↦ status.id = item.statusId ∧ status.category = .done

/-- The figures are those of all the items of the sprint. -/
structure Covers (stats : SprintStats) (sprintId : Uuid) (db : Work.Db) : Prop where
  totalItems : stats.totalItems = (itemsOf sprintId db).length
  totalPoints : stats.totalPoints = storyPoints (itemsOf sprintId db)
  completedItems : stats.completedItems = ((itemsOf sprintId db).filter (isDone db)).length
  completedPoints : stats.completedPoints = storyPoints ((itemsOf sprintId db).filter (isDone db))
  completedItems_le : stats.completedItems ≤ stats.totalItems
  completedPoints_le : stats.completedPoints ≤ stats.totalPoints
  remaining : stats.remainingPoints = stats.totalPoints - stats.completedPoints

/-- The aggregate of a sprint of the tenant counts the item: it is one of the tenant, and its status is one
of its project. -/
def Counted (tenantId : Uuid) (db : Work.Db) (item : WorkItem) : Prop :=
  item.tenantId = tenantId ∧ HasStatus db item.projectId item.statusId

instance : Decidable (Counted tenantId db item) := inferInstanceAs (Decidable (_ ∧ HasStatus db _ _))

theorem statusOf_eq_some {status : WorkflowStatus} (hstatus : statusOf db item = some status) :
    status ∈ db.workflowStatuses ∧ status.id = item.statusId ∧ status.projectId = item.projectId := by
  have hmatches := List.find?_some hstatus
  exact ⟨List.mem_of_find?_eq_some hstatus, of_decide_eq_true hmatches⟩

/-- An item has a row in the join if and only if its status is one of its project. -/
theorem isSome_statusOf : (statusOf db item).isSome = true ↔ HasStatus db item.projectId item.statusId := by
  simp [statusOf, List.find?_isSome, HasStatus]

/-- The items the aggregate counts. -/
theorem map_sprintItems (tenantId sprintId : Uuid) (db : Work.Db) :
    (sprintItems tenantId sprintId db).map Prod.fst =
      (itemsOf sprintId db).filter fun item ↦ decide (Counted tenantId db item) := by
  rw [sprintItems, itemsOf, List.filter_filter, List.map_filterMap, List.filterMap_filter,
    ← List.filterMap_eq_filter]
  refine List.filterMap_congr fun item _ ↦ ?_
  have hown := @isSome_statusOf db item
  cases hstatus : statusOf db item with
  | none =>
    rw [hstatus, Option.isSome_none, eq_comm, Bool.true_eq_false, false_iff] at hown
    simp [Option.guard, Counted, hown]
  | some status =>
    rw [hstatus, Option.isSome_some] at hown
    simp [Option.guard, Counted, hown.mp rfl]

/-- Assumes: the identifiers of the statuses are distinct. An item that is joined with a status is done if
and only if the status is in the category `done`. -/
theorem isDone_eq (hids : (db.workflowStatuses.map WorkflowStatus.id).Nodup) {status : WorkflowStatus}
    (hstatus : statusOf db item = some status) : isDone db item = decide (status.category = .done) := by
  obtain ⟨hmem, hid, _⟩ := statusOf_eq_some hstatus
  rw [Bool.eq_iff_iff, isDone, List.any_eq_true, decide_eq_true_eq]
  constructor
  · rintro ⟨other, hother, hmatches⟩
    obtain ⟨hotherId, hdone⟩ := of_decide_eq_true hmatches
    rwa [List.inj_on_of_nodup_map hids hmem hother (hid.trans hotherId.symm)]
  · exact fun hdone ↦ ⟨status, hmem, decide_eq_true ⟨hid, hdone⟩⟩

/-- Assumes: the identifiers of the statuses are distinct, and the aggregate counts every item of the
sprint. The items it counts as done are those of the sprint whose status is in the category `done`. -/
theorem doneItems_eq (hids : (db.workflowStatuses.map WorkflowStatus.id).Nodup) {sprint : Sprint}
    (hcounted : ∀ item ∈ itemsOf sprint.id db, Counted sprint.tenantId db item) :
    doneItems sprint db = (itemsOf sprint.id db).filter (isDone db) := by
  rw [doneItems, itemsOf, List.filter_filter]
  refine List.filter_congr fun item hitem ↦ ?_
  by_cases hof : item.iterationId = some sprint.id ∧ item.deletedAt = none
  · obtain ⟨htenant, hown⟩ := hcounted item (List.mem_filter.mpr ⟨hitem, decide_eq_true hof⟩)
    obtain ⟨status, hstatus⟩ := Option.isSome_iff_exists.mp (isSome_statusOf.mpr hown)
    simp [doneIn, htenant, hof, hstatus, isDone_eq hids hstatus]
  · have hother : doneIn sprint db item = false :=
      decide_eq_false fun hdone ↦ hof ⟨hdone.2.1, hdone.2.2.1⟩
    rw [hother, decide_eq_false hof, Bool.and_false]

/-- Assumes: the identifiers of the statuses are distinct. The figures of the aggregate cover the sprint if
and only if it counts every item of the sprint. -/
theorem covers_iff (hids : (db.workflowStatuses.map WorkflowStatus.id).Nodup) (sprint : Sprint) :
    Covers (sprintStats sprint.tenantId sprint.id db) sprint.id db ↔
      ∀ item ∈ itemsOf sprint.id db, Counted sprint.tenantId db item := by
  have hitems := map_sprintItems sprint.tenantId sprint.id db
  have htotal : (sprintStats sprint.tenantId sprint.id db).totalItems =
      ((itemsOf sprint.id db).filter fun item ↦ decide (Counted sprint.tenantId db item)).length := by
    rw [← hitems, List.length_map]
    rfl
  constructor
  · intro hcovers item hitem
    have hlength := htotal.symm.trans hcovers.totalItems
    exact of_decide_eq_true (List.length_filter_eq_length_iff.mp hlength item hitem)
  · intro hcounted
    have hall : (itemsOf sprint.id db).filter (fun item ↦ decide (Counted sprint.tenantId db item)) =
        itemsOf sprint.id db :=
      List.filter_eq_self.mpr fun item hitem ↦ decide_eq_true (hcounted item hitem)
    rw [hall] at hitems htotal
    obtain ⟨hcompletedPoints, hcompletedItems⟩ := sprintStats_completed sprint db
    rw [doneItems_eq hids hcounted] at hcompletedPoints hcompletedItems
    have hpoints : (sprintStats sprint.tenantId sprint.id db).totalPoints =
        storyPoints (itemsOf sprint.id db) := by
      rw [← hitems, storyPoints, List.map_map]
      rfl
    have hsublist := List.filter_sublist (p := isDone db) (l := itemsOf sprint.id db)
    refine ⟨htotal, hpoints, hcompletedItems, hcompletedPoints, ?_, ?_, rfl⟩
    · rw [htotal, hcompletedItems]
      exact hsublist.length_le
    · rw [hpoints, hcompletedPoints]
      exact (hsublist.map _).sum_le_sum fun _ _ ↦ Nat.zero_le _

/-! ### Sound stores -/

/-- The item is deleted, or the aggregate of every sprint it is in counts it. -/
def Countable (db : Work.Db) (item : WorkItem) : Prop :=
  item.deletedAt = none →
    ∀ sprint ∈ db.sprints, item.iterationId = some sprint.id → Counted sprint.tenantId db item

instance : Decidable (Countable db item) :=
  inferInstanceAs (Decidable (_ → ∀ sprint ∈ db.sprints, _ → Counted _ db item))

/-- The identifiers of the statuses are distinct, and every item is counted by the sprint it is in. -/
structure Sound (db : Work.Db) : Prop where
  statusIds : (db.workflowStatuses.map WorkflowStatus.id).Nodup
  countable : ∀ item ∈ db.workItems, Countable db item

/-- In a sound store the figures of every sprint cover it. -/
theorem Sound.covers (hsound : Sound db) {sprint : Sprint} (hsprint : sprint ∈ db.sprints) :
    Covers (sprintStats sprint.tenantId sprint.id db) sprint.id db := by
  refine (covers_iff hsound.statusIds sprint).mpr fun item hitem ↦ ?_
  obtain ⟨hmem, hof⟩ := List.mem_filter.mp hitem
  obtain ⟨hiteration, hlive⟩ := of_decide_eq_true hof
  exact hsound.countable item hmem hlive sprint hsprint hiteration

/-- Assumes: the statuses are still there, and a sprint that is there was there before, with the same
tenant. What was countable is. -/
theorem Countable.mono (hcountable : Countable db item)
    (hstatuses : db.workflowStatuses ⊆ after.workflowStatuses)
    (hsprints : ∀ sprint ∈ after.sprints, ∃ old ∈ db.sprints,
      old.id = sprint.id ∧ old.tenantId = sprint.tenantId) : Countable after item := by
  intro hlive sprint hsprint hiteration
  obtain ⟨old, hold, hid, htenant⟩ := hsprints sprint hsprint
  obtain ⟨howner, hown⟩ := hcountable hlive old hold (hiteration.trans (congrArg some hid.symm))
  exact ⟨howner.trans htenant, hown.mono hstatuses⟩

/-! ### The condition on a write -/

/-- The write leaves no item in a sprint that does not count it. An update, a move to another sprint:
the item as it is written is countable. The deletion of a status: no item of a sprint is in it. The creation
of a sprint: the items that name it already are counted by it. -/
def KeepsCountable (db : Work.Db) : WorkStep → Prop
  | .updateWorkItem snapshot input =>
    ∀ item ∈ db.workItems, item.id = snapshot.id → Countable db (input.set item)
  | .carryOver sprintId target =>
    ∀ item ∈ db.workItems, item.iterationId = some sprintId → Countable db { item with iterationId := target }
  | .deleteStatus id =>
    ∀ item ∈ db.workItems, item.deletedAt = none → item.statusId = id →
      ∀ sprint ∈ db.sprints, item.iterationId ≠ some sprint.id
  | .createSprint sprint =>
    ∀ item ∈ db.workItems, item.deletedAt = none → item.iterationId = some sprint.id →
      Counted sprint.tenantId db item
  | _ => True

instance : (step : WorkStep) → Decidable (KeepsCountable db step)
  | .updateWorkItem .. => inferInstanceAs (Decidable (∀ item ∈ db.workItems, _ → Countable db _))
  | .carryOver .. => inferInstanceAs (Decidable (∀ item ∈ db.workItems, _ → Countable db _))
  | .deleteStatus _ =>
    inferInstanceAs (Decidable (∀ item ∈ db.workItems, _ → _ → ∀ sprint ∈ db.sprints, _))
  | .createSprint _ => inferInstanceAs (Decidable (∀ item ∈ db.workItems, _ → _ → Counted _ db item))
  | .other | .createProject _ | .deleteProject _ | .incrementCounter .. | .createStatus _
  | .createTransition _ | .deleteTransition _ | .createWorkItem _ | .deleteWorkItem _ | .updateSprint ..
  | .deleteSprint _ => .isTrue trivial

variable {label : WorkStep}

/-- A write of the items within the condition leaves countable items. -/
theorem countable_workItems (hsound : Sound db) (heffect : Effect db label after)
    (hunplanned : Unplanned label) (hkeeps : KeepsCountable db label) :
    ∀ item ∈ after.workItems, Countable db item := by
  by_cases hwrites : .workItems ∈ label.writes
  · cases label <;> simp [WorkStep.writes] at hwrites
    case createWorkItem created =>
      obtain ⟨_, _, _, _, rfl⟩ := heffect
      intro item hitem
      rcases List.mem_append.mp hitem with hold | hnew
      · exact hsound.countable item hold
      · obtain rfl := List.mem_singleton.mp hnew
        intro _ sprint _ hiteration
        cases (hunplanned item rfl).symm.trans hiteration
    case updateWorkItem snapshot input =>
      obtain ⟨_, _, hcommit⟩ := heffect
      obtain ⟨_, _, rfl, _⟩ := commitUpdate_ok hcommit
      intro item hitem
      obtain ⟨old, hold, hid, hset⟩ := exists_of_mem_updateWorkItemRows hitem
      by_cases hupdated : item.id = snapshot.id
      · rw [hset, if_pos hupdated]
        exact hkeeps old hold (hid.trans hupdated)
      · rw [if_neg hupdated] at hset
        exact hset ▸ hsound.countable old hold
    case deleteWorkItem id =>
      obtain rfl := heffect
      intro item hitem
      obtain ⟨old, hold, rfl⟩ := mem_updateWhere.mp hitem
      split_ifs
      · intro hlive
        cases hlive
      · exact hsound.countable old hold
    case carryOver id target =>
      obtain ⟨tenantId, doneStatusIds, rfl⟩ := heffect
      intro item hitem
      obtain ⟨old, hold, rfl⟩ := mem_updateWhere.mp hitem
      split_ifs with hmoves
      · exact hkeeps old hold (of_decide_eq_true hmoves).1
      · exact hsound.countable old hold
  · rw [heffect.frame.workItems hwrites]
    exact hsound.countable

/-- A write of the statuses or of the sprints within the condition leaves countable items countable. -/
theorem countable_after (hsound : Sound db) (heffect : Effect db label after)
    (hkeeps : KeepsCountable db label) (hwrites : .workflowStatuses ∈ label.writes ∨ .sprints ∈ label.writes)
    (hitem : item ∈ db.workItems) : Countable after item := by
  have hcountable := hsound.countable item hitem
  have hsame : ∀ sprint ∈ db.sprints, ∃ old ∈ db.sprints,
      old.id = sprint.id ∧ old.tenantId = sprint.tenantId := fun sprint hsprint ↦ ⟨sprint, hsprint, rfl, rfl⟩
  cases label <;> simp [WorkStep.writes] at hwrites
  case createProject project =>
    obtain ⟨_, _, _, _, _, rfl⟩ := heffect
    exact hcountable.mono (List.subset_append_left _ _) hsame
  case createStatus status =>
    obtain rfl := heffect
    exact hcountable.mono (List.subset_append_left _ _) hsame
  case deleteStatus id =>
    obtain rfl := heffect
    intro hlive sprint hsprint hiteration
    obtain ⟨howner, status, hstatus, hid, hproject⟩ := hcountable hlive sprint hsprint hiteration
    refine ⟨howner, status, mem_deleteWhere.mpr ⟨hstatus, decide_eq_false fun hdeleted ↦ ?_⟩, hid, hproject⟩
    exact hkeeps item hitem hlive (hid.symm.trans hdeleted) sprint hsprint hiteration
  case createSprint created =>
    obtain ⟨_, _, rfl⟩ := heffect
    intro hlive sprint hsprint hiteration
    rcases List.mem_append.mp hsprint with hold | hnew
    · exact hcountable hlive sprint hold hiteration
    · obtain rfl := List.mem_singleton.mp hnew
      exact hkeeps item hitem hlive hiteration
  case updateSprint id status =>
    obtain ⟨input, _, rfl⟩ := heffect
    refine hcountable.mono (List.Subset.refl _) fun sprint hsprint ↦ ?_
    obtain ⟨old, hold, rfl⟩ := mem_updateWhere.mp hsprint
    split_ifs <;> exact ⟨old, hold, rfl, rfl⟩
  case deleteSprint id =>
    obtain rfl := heffect
    exact hcountable.mono (List.Subset.refl _) fun sprint hsprint ↦
      hsame sprint (mem_deleteWhere.mp hsprint).1

/-- Assumes: a new item is in no sprint, and the identifiers of statuses stay distinct. A write within the
condition leaves a sound store sound. -/
theorem Sound.step (hsound : Sound db) (heffect : Effect db label after) (hunplanned : Unplanned label)
    (hids : KeepsStatusIds db after) (hkeeps : KeepsCountable db label) : Sound after := by
  refine ⟨hids hsound.statusIds, fun item hitem ↦ ?_⟩
  by_cases hwrites : .workflowStatuses ∈ label.writes ∨ .sprints ∈ label.writes
  · have hitems : .workItems ∉ label.writes := by
      cases label <;> simp [WorkStep.writes] at hwrites ⊢
    rw [heffect.frame.workItems hitems] at hitem
    exact countable_after hsound heffect hkeeps hwrites hitem
  · rw [not_or] at hwrites
    have hcountable := countable_workItems hsound heffect hunplanned hkeeps item hitem
    refine hcountable.mono (heffect.frame.workflowStatuses hwrites.1 ▸ List.Subset.refl _) ?_
    rw [heffect.frame.sprints hwrites.2]
    exact fun sprint hsprint ↦ ⟨sprint, hsprint, rfl, rfl⟩

end RallyApi.Reporting

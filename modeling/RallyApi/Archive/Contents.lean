import RallyApi.Archive.Services
import RallyApi.Store.Owned

/-!
# What a project contains, and which steps write to it

`Db.contents` is what a project has: its row, its work items with their labels, its workflow, its labels and
its sprints. `ArchiveStep.writes` lists the projects whose rows a step writes, and `Effect.contents_eq` says
that a step leaves what all others contain alone.
-/

set_option autoImplicit false
set_option relaxedAutoImplicit false

namespace RallyApi.Archive

open Concurrency Platform Store Work
open CrossTenant (Label WorkItemLabel)
open TimeLogs (TimeLogStep setActualHours)

/-! ### Contents -/

/-- What a project contains. -/
structure Contents where
  rows : List Project
  settings : String
  workItems : List WorkItem
  workItemLabels : List WorkItemLabel
  workflowStatuses : List WorkflowStatus
  workflowTransitions : List WorkflowTransition
  labels : List Label
  sprints : List Sprint
  deriving DecidableEq

/-- The row links one of the items to a label. -/
def links (items : List WorkItem) (row : WorkItemLabel) : Bool :=
  items.any fun item ↦ item.id = row.workItemId

/-- What a project contains. -/
def Db.contents (db : Db) (projectId : Uuid) : Contents where
  rows := ownedBy Project.id projectId db.work.projects
  settings := db.settings projectId
  workItems := ownedBy WorkItem.projectId projectId db.work.workItems
  workItemLabels := db.workItemLabels.filter
    (links (ownedBy WorkItem.projectId projectId db.work.workItems))
  workflowStatuses := ownedBy WorkflowStatus.projectId projectId db.work.workflowStatuses
  workflowTransitions := ownedBy WorkflowTransition.projectId projectId db.work.workflowTransitions
  labels := ownedBy Label.projectId projectId db.labels
  sprints := ownedBy Sprint.projectId projectId db.work.sprints

/-- The project with these contents is archived. -/
def Contents.archived (contents : Contents) : Bool :=
  contents.rows.head?.any fun project ↦ project.status = .archived

/-- The project is archived. -/
def Db.archived (db : Db) (projectId : Uuid) : Bool := (db.contents projectId).archived

/-! ### The projects a step writes to -/

/-- The projects of the work items with an identifier. -/
def itemProjects (id : Uuid) (items : List WorkItem) : List Uuid :=
  owners WorkItem.projectId (fun item ↦ item.id = id) items

/-- The projects of the sprints with an identifier. -/
def sprintProjects (id : Uuid) (sprints : List Sprint) : List Uuid :=
  owners Sprint.projectId (fun sprint ↦ sprint.id = id) sprints

/-- The projects of the labels with an identifier. -/
def labelProjects (id : Uuid) (labels : List Label) : List Uuid :=
  owners Label.projectId (fun label ↦ label.id = id) labels

/-- The projects whose rows a step of the work services writes. -/
def workWrites (db : Work.Db) : WorkStep → List Uuid
  | .other | .incrementCounter .. => []
  | .createProject project => [project.id]
  | .deleteProject id => [id]
  | .createStatus status => [status.projectId]
  | .deleteStatus id =>
    owners WorkflowStatus.projectId (fun status ↦ status.id = id) db.workflowStatuses
  | .createTransition transition => [transition.projectId]
  | .deleteTransition id =>
    owners WorkflowTransition.projectId (fun transition ↦ transition.id = id) db.workflowTransitions
  | .createWorkItem item => [item.projectId]
  | .updateWorkItem snapshot _ => itemProjects snapshot.id db.workItems
  | .deleteWorkItem id => itemProjects id db.workItems
  | .carryOver sprintId _ => owners WorkItem.projectId
    (fun item ↦ item.iterationId = some sprintId ∧ item.deletedAt = none) db.workItems
  | .createSprint sprint => [sprint.projectId]
  | .updateSprint id _ => sprintProjects id db.sprints
  | .deleteSprint id => sprintProjects id db.sprints

/-- The projects whose rows a step writes. -/
def ArchiveStep.writes (db : Db) : ArchiveStep → List Uuid
  | .other => []
  | .work label => workWrites db.work label
  | .timeLog (.commit workItemId) => itemProjects workItemId db.work.workItems
  | .timeLog _ => []
  | .updateProject id _ => [id]
  | .updatePositions projectId orderedIds => owners WorkflowStatus.projectId
    (fun status ↦ status.projectId = projectId ∧ status.id ∈ orderedIds) db.work.workflowStatuses
  | .reorderItems tenantId ids => owners WorkItem.projectId
    (fun item ↦ item.id ∈ ids ∧ item.tenantId = tenantId) db.work.workItems
  | .createLabel label => [label.projectId]
  | .updateLabel id => labelProjects id db.labels
  | .deleteLabel id => labelProjects id db.labels
  | .addLabel workItemId labelId =>
    if { workItemId, labelId : WorkItemLabel } ∈ db.workItemLabels then []
    else itemProjects workItemId db.work.workItems
  | .removeLabel workItemId labelId =>
    if { workItemId, labelId : WorkItemLabel } ∈ db.workItemLabels then
      itemProjects workItemId db.work.workItems
    else []
  | .updateSprint id => sprintProjects id db.work.sprints

/-! ### The effect of a step -/

/-- What a step of the time logs does to the work store. -/
def TimeLogEffect (db : TimeLogs.Db) (label : TimeLogStep) (after : TimeLogs.Db) : Prop :=
  match label with
  | .commit workItemId => ∃ total, after.work =
    { db.work with workItems := setActualHours workItemId total db.work.workItems }
  | _ => ∃ now, after.work = { db.work with now }

/-- What a step does to the store. -/
def Effect (db : Db) (step : ArchiveStep) (after : Db) : Prop :=
  match step with
  | .other => ∃ change : Memberships → Memberships, after = db.withMemberships change
  | .work label => ∃ work, Work.Effect db.work label work ∧ after = { db with work }
  | .timeLog label => ∃ inner, TimeLogEffect db.toDb label inner ∧ after = { db with toDb := inner }
  | .updateProject id input => after = db.updateProject id input
  | .updatePositions projectId orderedIds =>
    after = db.mapWork fun work ↦ work.updatePositions projectId orderedIds
  | .reorderItems tenantId ids => ∃ items : List (Uuid × String), items.map Prod.fst = ids ∧
    after = db.mapWork fun work ↦ work.withRanks tenantId items
  | .createLabel label => after = { db with labels := db.labels ++ [label] }
  | .updateLabel id => ∃ input : UpdateLabelInput,
    after = { db with labels := updateWhere (fun label ↦ label.id = id) input.set db.labels }
  | .deleteLabel id => after = { db with labels := deleteWhere (fun label ↦ label.id = id) db.labels }
  | .addLabel workItemId labelId => after = db.addLabel workItemId labelId
  | .removeLabel workItemId labelId => after = db.removeLabel workItemId labelId
  | .updateSprint id => ∃ input : SprintColumns, after = db.updateSprint id input

/-! ### Frames -/

variable {db after : Db} {projectId : Uuid}

/-- New work items, as far as the project is concerned the old ones. -/
theorem contents_of_items {workItems : List WorkItem}
    (hitems : ownedBy WorkItem.projectId projectId workItems =
      ownedBy WorkItem.projectId projectId db.work.workItems) :
    (db.mapWork fun work ↦ { work with workItems }).contents projectId = db.contents projectId := by
  simp only [Db.contents, Db.mapWork, hitems]

theorem contents_of_statuses {workflowStatuses : List WorkflowStatus}
    (hstatuses : ownedBy WorkflowStatus.projectId projectId workflowStatuses =
      ownedBy WorkflowStatus.projectId projectId db.work.workflowStatuses) :
    (db.mapWork fun work ↦ { work with workflowStatuses }).contents projectId =
      db.contents projectId := by
  simp only [Db.contents, Db.mapWork, hstatuses]

theorem contents_of_transitions {workflowTransitions : List WorkflowTransition}
    (htransitions : ownedBy WorkflowTransition.projectId projectId workflowTransitions =
      ownedBy WorkflowTransition.projectId projectId db.work.workflowTransitions) :
    (db.mapWork fun work ↦ { work with workflowTransitions }).contents projectId =
      db.contents projectId := by
  simp only [Db.contents, Db.mapWork, htransitions]

theorem contents_of_sprints {sprints : List Sprint}
    (hsprints : ownedBy Sprint.projectId projectId sprints =
      ownedBy Sprint.projectId projectId db.work.sprints) :
    (db.mapWork fun work ↦ { work with sprints }).contents projectId = db.contents projectId := by
  simp only [Db.contents, Db.mapWork, hsprints]

theorem contents_of_labels {labels : List Label}
    (hlabels : ownedBy Label.projectId projectId labels = ownedBy Label.projectId projectId db.labels) :
    ({ db with labels } : Db).contents projectId = db.contents projectId := by
  simp only [Db.contents, hlabels]

/-- Assumes: no item of the project matches. -/
theorem items_of_update {condition : WorkItem → Bool} {set : WorkItem → WorkItem}
    (hset : ∀ item, (set item).projectId = item.projectId)
    (hproject : projectId ∉ owners WorkItem.projectId condition db.work.workItems) :
    ownedBy WorkItem.projectId projectId (updateWhere condition set db.work.workItems) =
      ownedBy WorkItem.projectId projectId db.work.workItems :=
  ownedBy_updateWhere hset hproject

/-- No row but that of the project itself has its identifier. -/
theorem notMem_owners_id {id : Uuid} (hother : projectId ∉ [id]) :
    projectId ∉ owners Project.id (fun project ↦ project.id = id) db.work.projects := by
  rw [mem_owners]
  rintro ⟨project, _, hid, rfl⟩
  exact hother (List.mem_singleton.mpr (of_decide_eq_true hid))

/-- A step of the work services leaves what all other projects contain alone. -/
theorem workEffect_contents_eq {label : WorkStep} {work : Work.Db}
    (heffect : Work.Effect db.work label work) (hother : projectId ∉ workWrites db.work label) :
    ({ db with work } : Db).contents projectId = db.contents projectId := by
  cases label <;> simp only [Work.Effect] at heffect
  case other => obtain ⟨_, _, rfl⟩ := heffect; rfl
  case createProject project =>
    obtain ⟨_, _, _, _, _, rfl⟩ := heffect
    have hne : project.id ≠ projectId := fun hsame ↦ hother (hsame ▸ List.mem_cons_self)
    have hprojects : ownedBy Project.id projectId (db.work.projects ++ [project]) =
        ownedBy Project.id projectId db.work.projects := ownedBy_append_singleton hne
    have hstatuses : ownedBy WorkflowStatus.projectId projectId (db.work.workflowStatuses ++
        defaultStatusRows project.tenantId project.id (db.work.nextUuid + 1)) =
          ownedBy WorkflowStatus.projectId projectId db.work.workflowStatuses :=
      ownedBy_append fun _ hstatus ↦ by rwa [projectId_of_mem_defaultStatusRows hstatus]
    simp only [Db.contents, hprojects, hstatuses]
  case deleteProject id =>
    subst heffect
    have hprojects : ownedBy Project.id projectId (db.work.deleteProject id).projects =
        ownedBy Project.id projectId db.work.projects :=
      ownedBy_updateWhere (fun _ ↦ rfl) (notMem_owners_id hother)
    simp only [Db.contents, hprojects]
    rfl
  case incrementCounter =>
    obtain ⟨_, rfl⟩ := heffect
    rfl
  case createStatus status =>
    subst heffect
    exact contents_of_statuses (ownedBy_append_singleton fun hsame ↦ hother (hsame ▸ List.mem_cons_self))
  case deleteStatus id =>
    subst heffect
    exact contents_of_statuses (ownedBy_deleteWhere hother)
  case createTransition transition =>
    subst heffect
    exact contents_of_transitions
      (ownedBy_append_singleton fun hsame ↦ hother (hsame ▸ List.mem_cons_self))
  case deleteTransition id =>
    subst heffect
    exact contents_of_transitions (ownedBy_deleteWhere hother)
  case createWorkItem item =>
    obtain ⟨_, _, _, _, rfl⟩ := heffect
    exact contents_of_items (ownedBy_append_singleton fun hsame ↦ hother (hsame ▸ List.mem_cons_self))
  case updateWorkItem snapshot input =>
    obtain ⟨_, _, hcommit⟩ := heffect
    obtain ⟨_, _, rfl, _⟩ := commitUpdate_ok hcommit
    exact contents_of_items (items_of_update (fun _ ↦ rfl) hother)
  case deleteWorkItem id =>
    subst heffect
    exact contents_of_items (items_of_update (fun _ ↦ rfl) hother)
  case carryOver sprintId target =>
    obtain ⟨_, _, rfl⟩ := heffect
    refine contents_of_items (items_of_update (fun _ ↦ rfl) (notMem_owners_of_imp ?_ hother))
    intro item hmatches
    obtain ⟨hiteration, _, hlive, _⟩ := of_decide_eq_true hmatches
    exact decide_eq_true ⟨hiteration, hlive⟩
  case createSprint sprint =>
    obtain ⟨_, _, rfl⟩ := heffect
    exact contents_of_sprints (ownedBy_append_singleton fun hsame ↦ hother (hsame ▸ List.mem_cons_self))
  case updateSprint id status =>
    obtain ⟨_, _, rfl⟩ := heffect
    exact contents_of_sprints (ownedBy_updateWhere (fun _ ↦ rfl) hother)
  case deleteSprint id =>
    subst heffect
    exact contents_of_sprints (ownedBy_deleteWhere hother)

/-- Assumes: the links to the items of the project are those of before. -/
theorem contents_of_links {workItemLabels : List WorkItemLabel}
    (hlinks : workItemLabels.filter (links (ownedBy WorkItem.projectId projectId db.work.workItems)) =
      db.workItemLabels.filter (links (ownedBy WorkItem.projectId projectId db.work.workItems))) :
    ({ db with workItemLabels } : Db).contents projectId = db.contents projectId := by
  simp only [Db.contents, hlinks]

/-- The project has no item with the identifier. -/
theorem links_eq_false {items : List WorkItem} {workItemId labelId : Uuid}
    (hother : projectId ∉ itemProjects workItemId items) :
    links (ownedBy WorkItem.projectId projectId items) { workItemId, labelId } = false := by
  refine Bool.eq_false_iff.mpr fun hlinks ↦ hother (mem_owners.mpr ?_)
  obtain ⟨item, hitem, hid⟩ := List.any_eq_true.mp hlinks
  obtain ⟨hmem, hproject⟩ := List.mem_filter.mp hitem
  exact ⟨item, hmem, hid, of_decide_eq_true hproject⟩

/-- An item that a list of ranks does not name has no rank in it. -/
theorem lastRank_eq_none {items : List (Uuid × String)} {id : Uuid} (hid : id ∉ items.map Prod.fst) :
    lastRank items id = none := by
  rw [lastRank, Option.map_eq_none_iff, List.find?_eq_none]
  rintro item hitem hsame
  exact hid (List.mem_map.mpr ⟨item, List.mem_reverse.mp hitem, of_decide_eq_true hsame⟩)

/-- The ranks of a list are written to the items it names. -/
theorem withRanks_eq (work : Work.Db) (tenantId : Uuid) (items : List (Uuid × String)) :
    (work.withRanks tenantId items).workItems =
      updateWhere (fun item ↦ item.id ∈ items.map Prod.fst ∧ item.tenantId = tenantId)
        (fun item ↦ { item with rank := (lastRank items item.id).getD item.rank }) work.workItems := by
  refine List.map_congr_left fun item _ ↦ ?_
  by_cases hid : item.id ∈ items.map Prod.fst
  · simp only [hid, true_and, decide_eq_true_eq]
  · simp only [hid, false_and, decide_false, Bool.false_eq_true, lastRank_eq_none hid,
      Option.getD_none, ite_self]

/-- A step of the time logs leaves what all other projects contain alone. -/
theorem timeLogEffect_contents_eq {label : TimeLogStep} {inner : TimeLogs.Db}
    (heffect : TimeLogEffect db.toDb label inner)
    (hother : projectId ∉ (ArchiveStep.timeLog label).writes db) :
    ({ db with toDb := inner } : Db).contents projectId = db.contents projectId := by
  cases label with
  | commit workItemId =>
    obtain ⟨total, hwork⟩ := heffect
    have hitems : ownedBy WorkItem.projectId projectId
        (setActualHours workItemId total db.work.workItems) =
          ownedBy WorkItem.projectId projectId db.work.workItems :=
      items_of_update (fun _ ↦ rfl) hother
    simp only [Db.contents, hwork, hitems]
  | _ =>
    obtain ⟨now, hwork⟩ := heffect
    simp only [Db.contents, hwork]

/-- A step leaves what all other projects contain alone. -/
theorem Effect.contents_eq {step : ArchiveStep} (heffect : Effect db step after)
    (hother : projectId ∉ step.writes db) : after.contents projectId = db.contents projectId := by
  cases step <;> simp only [Effect] at heffect
  case other => obtain ⟨_, rfl⟩ := heffect; rfl
  case work label =>
    obtain ⟨_, heffect, rfl⟩ := heffect
    exact workEffect_contents_eq heffect hother
  case timeLog label =>
    obtain ⟨inner, heffect, rfl⟩ := heffect
    exact timeLogEffect_contents_eq heffect hother
  case updateProject id input =>
    subst heffect
    have hprojects : ownedBy Project.id projectId
        (updateWhere (fun project ↦ project.id = id) input.set db.work.projects) =
          ownedBy Project.id projectId db.work.projects :=
      ownedBy_updateWhere (fun _ ↦ rfl) (notMem_owners_id hother)
    have hid : projectId ≠ id := fun hsame ↦ hother (List.mem_singleton.mpr hsame)
    simp only [Db.contents, Db.updateProject, hprojects, if_neg hid]
  case updatePositions updated orderedIds =>
    subst heffect
    exact contents_of_statuses (ownedBy_updateWhere (fun _ ↦ rfl) hother)
  case reorderItems tenantId ids =>
    obtain ⟨items, rfl, rfl⟩ := heffect
    have hitems : ownedBy WorkItem.projectId projectId (db.work.withRanks tenantId items).workItems =
        ownedBy WorkItem.projectId projectId db.work.workItems := by
      rw [withRanks_eq]
      exact items_of_update (fun _ ↦ rfl) hother
    exact contents_of_items hitems
  case createLabel label =>
    subst heffect
    exact contents_of_labels (ownedBy_append_singleton fun hsame ↦ hother (hsame ▸ List.mem_cons_self))
  case updateLabel id =>
    obtain ⟨_, rfl⟩ := heffect
    exact contents_of_labels (ownedBy_updateWhere (fun _ ↦ rfl) hother)
  case deleteLabel id =>
    subst heffect
    exact contents_of_labels (ownedBy_deleteWhere hother)
  case addLabel workItemId labelId =>
    subst heffect
    rw [Db.addLabel]
    split_ifs with hlinked
    · rfl
    · rw [ArchiveStep.writes, if_neg hlinked] at hother
      refine contents_of_links ?_
      rw [List.filter_append, List.filter_cons_of_neg (by simp [links_eq_false hother]), List.filter_nil,
        List.append_nil]
  case removeLabel workItemId labelId =>
    subst heffect
    refine contents_of_links (filter_deleteWhere fun row hrow hlinks ↦ decide_eq_false ?_)
    rintro rfl
    rw [ArchiveStep.writes, if_pos hrow] at hother
    rw [links_eq_false hother] at hlinks
    cases hlinks
  case updateSprint id =>
    obtain ⟨_, rfl⟩ := heffect
    exact contents_of_sprints (ownedBy_updateWhere (fun _ ↦ rfl) hother)

end RallyApi.Archive

import RallyApi.Archive.Contents
import RallyApi.Concurrency.Identifiers

/-!
# The rows of a tenant

A row of the tables of `Kind` has an identity that never changes: its tenant, and what it is part of.
`registry` tells the identities of a store, under the kinds and identifiers of its rows, and `Db.ofTenant`
what a tenant has in these tables, in `work_item_labels` and in `activity_logs`. The tables of members and
teams are left out: `changeMemberships` stands for whatever other services do to them.
`Writes` says of a step which tenants' rows it may touch and which rows it adds; each statement of the
services is shown to be of this kind once, for its table.
-/

set_option autoImplicit false
set_option relaxedAutoImplicit false

namespace RallyApi.Archive

open Concurrency Platform Store Work
open CrossTenant (Label WorkItemLabel TimeLog)

/-! ### Identities -/

/-- The tables whose rows are followed: `projects`, `project_counters`, `workflow_statuses`,
`workflow_transitions`, `work_items`, `sprints`, `labels` and `time_logs`. -/
inductive Kind
  | project
  | projectCounter
  | workflowStatus
  | workflowTransition
  | workItem
  | sprint
  | label
  | timeLog
  deriving DecidableEq, Repr

/-- What never changes about a row: its tenant, and what it is part of. That is the workspace of a project,
the work item of a time log, and the project of any other row. -/
structure Identity where
  tenantId : Uuid
  parentId : Uuid
  deriving DecidableEq, Repr

/-- The kind of what a row is part of, if it is in the store. -/
def Kind.parent : Kind → Option Kind
  | .project => none
  | .timeLog => some .workItem
  | _ => some .project

/-- The identifier of a row with its identity. -/
abbrev Identified := Uuid × Identity

def projectIdentity (row : Project) : Identified := (row.id, ⟨row.tenantId, row.workspaceId⟩)

def counterIdentity (row : ProjectCounter) : Identified := (row.projectId, ⟨row.tenantId, row.projectId⟩)

def statusIdentity (row : WorkflowStatus) : Identified := (row.id, ⟨row.tenantId, row.projectId⟩)

def transitionIdentity (row : WorkflowTransition) : Identified := (row.id, ⟨row.tenantId, row.projectId⟩)

def itemIdentity (row : WorkItem) : Identified := (row.id, ⟨row.tenantId, row.projectId⟩)

def sprintIdentity (row : Sprint) : Identified := (row.id, ⟨row.tenantId, row.projectId⟩)

def labelIdentity (row : Label) : Identified := (row.id, ⟨row.tenantId, row.projectId⟩)

def timeLogIdentity (row : TimeLog) : Identified := (row.id, ⟨row.tenantId, row.workItemId⟩)

/-- The identities of the rows of a table. -/
def Db.identities (db : Db) : Kind → List Identified
  | .project => db.work.projects.map projectIdentity
  | .projectCounter => db.work.projectCounters.map counterIdentity
  | .workflowStatus => db.work.workflowStatuses.map statusIdentity
  | .workflowTransition => db.work.workflowTransitions.map transitionIdentity
  | .workItem => db.work.workItems.map itemIdentity
  | .sprint => db.work.sprints.map sprintIdentity
  | .label => db.labels.map labelIdentity
  | .timeLog => db.timeLogs.map timeLogIdentity

/-- The next identifier that is drawn for a row of a kind. -/
def Db.nextId (db : Db) : Kind → ℕ
  | .timeLog => db.nextUuid
  | _ => db.work.nextUuid

/-- The rows of the store by kind and identifier, and the identifiers that are drawn. -/
def registry : Registry Db (Kind × Uuid) Identity where
  rows db key identity := (key.2, identity) ∈ db.identities key.1
  issued db key := key.2 < db.nextId key.1

/-! ### What a tenant has -/

/-- What a tenant has in the tables of `Kind`, in `work_item_labels` and in `activity_logs`. -/
structure TenantRows where
  projects : List Project
  settings : List String
  projectCounters : List ProjectCounter
  workflowStatuses : List WorkflowStatus
  workflowTransitions : List WorkflowTransition
  workItems : List WorkItem
  workItemLabels : List WorkItemLabel
  activityLogs : List ActivityLog
  sprints : List Sprint
  labels : List Label
  timeLogs : List TimeLog
  deriving DecidableEq

/-- What a tenant has in these tables. A label of a work item is of the tenant of the item. -/
def Db.ofTenant (db : Db) (tenantId : Uuid) : TenantRows where
  projects := ownedBy Project.tenantId tenantId db.work.projects
  settings := (ownedBy Project.tenantId tenantId db.work.projects).map fun project ↦ db.settings project.id
  projectCounters := ownedBy ProjectCounter.tenantId tenantId db.work.projectCounters
  workflowStatuses := ownedBy WorkflowStatus.tenantId tenantId db.work.workflowStatuses
  workflowTransitions := ownedBy WorkflowTransition.tenantId tenantId db.work.workflowTransitions
  workItems := ownedBy WorkItem.tenantId tenantId db.work.workItems
  workItemLabels := db.workItemLabels.filter
    (links (ownedBy WorkItem.tenantId tenantId db.work.workItems))
  activityLogs := ownedBy ActivityLog.tenantId tenantId db.work.activityLogs
  sprints := ownedBy Sprint.tenantId tenantId db.work.sprints
  labels := ownedBy Label.tenantId tenantId db.labels
  timeLogs := ownedBy TimeLog.tenantId tenantId db.timeLogs

/-! ### What a step writes -/

/-- A step touches rows of these tenants only, adds the rows of `fresh` and draws identifiers. -/
structure Writes (mine : List Uuid) (fresh : Kind → Identified → Prop) (db after : Db) : Prop where
  nextUuid : db.work.nextUuid ≤ after.work.nextUuid
  nextLogUuid : db.nextUuid ≤ after.nextUuid
  projects : WrittenBy Project.tenantId projectIdentity mine (fresh .project)
    db.work.projects after.work.projects
  settings : ∀ project ∈ db.work.projects, project.tenantId ∉ mine →
    after.settings project.id = db.settings project.id
  projectCounters : WrittenBy ProjectCounter.tenantId counterIdentity mine (fresh .projectCounter)
    db.work.projectCounters after.work.projectCounters
  workflowStatuses : WrittenBy WorkflowStatus.tenantId statusIdentity mine (fresh .workflowStatus)
    db.work.workflowStatuses after.work.workflowStatuses
  workflowTransitions : WrittenBy WorkflowTransition.tenantId transitionIdentity mine
    (fresh .workflowTransition) db.work.workflowTransitions after.work.workflowTransitions
  workItems : WrittenBy WorkItem.tenantId itemIdentity mine (fresh .workItem)
    db.work.workItems after.work.workItems
  workItemLabels : ∀ tenantId ∉ mine,
    after.workItemLabels.filter (links (ownedBy WorkItem.tenantId tenantId db.work.workItems)) =
      db.workItemLabels.filter (links (ownedBy WorkItem.tenantId tenantId db.work.workItems))
  activityLogs : ∀ tenantId ∉ mine, ownedBy ActivityLog.tenantId tenantId after.work.activityLogs =
    ownedBy ActivityLog.tenantId tenantId db.work.activityLogs
  sprints : WrittenBy Sprint.tenantId sprintIdentity mine (fresh .sprint) db.work.sprints after.work.sprints
  labels : WrittenBy Label.tenantId labelIdentity mine (fresh .label) db.labels after.labels
  timeLogs : WrittenBy TimeLog.tenantId timeLogIdentity mine (fresh .timeLog) db.timeLogs after.timeLogs

/-- A step adds no row. -/
def noRow : Kind → Identified → Prop := fun _ _ ↦ False

section Writes

variable {mine : List Uuid} {fresh : Kind → Identified → Prop} {db after : Db} {id : Uuid}

theorem writes_refl (mine : List Uuid) (fresh : Kind → Identified → Prop) (db : Db) :
    Writes mine fresh db db where
  nextUuid := le_rfl
  nextLogUuid := le_rfl
  projects := writtenBy_refl
  settings _ _ _ := rfl
  projectCounters := writtenBy_refl
  workflowStatuses := writtenBy_refl
  workflowTransitions := writtenBy_refl
  workItems := writtenBy_refl
  workItemLabels _ _ := rfl
  activityLogs _ _ := rfl
  sprints := writtenBy_refl
  labels := writtenBy_refl
  timeLogs := writtenBy_refl

/-- The rows of all other tenants are as they were. -/
theorem Writes.ofTenant_eq (hwrites : Writes mine fresh db after) {tenantId : Uuid}
    (htenant : tenantId ∉ mine) : after.ofTenant tenantId = db.ofTenant tenantId := by
  have hsettings : (ownedBy Project.tenantId tenantId db.work.projects).map
      (fun project ↦ after.settings project.id) =
        (ownedBy Project.tenantId tenantId db.work.projects).map fun project ↦ db.settings project.id := by
    refine List.map_congr_left fun project hproject ↦ ?_
    obtain ⟨hmem, howner⟩ := List.mem_filter.mp hproject
    obtain rfl : project.tenantId = tenantId := of_decide_eq_true howner
    exact hwrites.settings project hmem htenant
  simp only [Db.ofTenant, hwrites.projects.others _ htenant, hsettings,
    hwrites.projectCounters.others _ htenant, hwrites.workflowStatuses.others _ htenant,
    hwrites.workflowTransitions.others _ htenant, hwrites.workItems.others _ htenant,
    hwrites.workItemLabels _ htenant, hwrites.activityLogs _ htenant, hwrites.sprints.others _ htenant,
    hwrites.labels.others _ htenant, hwrites.timeLogs.others _ htenant]

/-- The identities of a table are those of before and of the rows added. -/
theorem identities_of_writtenBy {Row : Type} {owner : Row → Uuid} {identity : Row → Identified}
    {fresh : Identified → Prop} {rows left : List Row} {identified : Identified}
    (hwritten : WrittenBy owner identity mine fresh rows left) (hmem : identified ∈ left.map identity) :
    identified ∈ rows.map identity ∨ fresh identified := by
  obtain ⟨row, hrow, rfl⟩ := List.mem_map.mp hmem
  exact (hwritten.origin row hrow).imp_left fun ⟨old, hold, hsame⟩ ↦ List.mem_map.mpr ⟨old, hold, hsame⟩

/-- The identities a step leaves are those it has found and those of the rows it adds. -/
theorem Writes.identities (hwrites : Writes mine fresh db after) {kind : Kind} {identified : Identified}
    (hmem : identified ∈ after.identities kind) :
    identified ∈ db.identities kind ∨ fresh kind identified := by
  cases kind with
  | project => exact identities_of_writtenBy hwrites.projects hmem
  | projectCounter => exact identities_of_writtenBy hwrites.projectCounters hmem
  | workflowStatus => exact identities_of_writtenBy hwrites.workflowStatuses hmem
  | workflowTransition => exact identities_of_writtenBy hwrites.workflowTransitions hmem
  | workItem => exact identities_of_writtenBy hwrites.workItems hmem
  | sprint => exact identities_of_writtenBy hwrites.sprints hmem
  | label => exact identities_of_writtenBy hwrites.labels hmem
  | timeLog => exact identities_of_writtenBy hwrites.timeLogs hmem

theorem Writes.nextId_le (hwrites : Writes mine fresh db after) (kind : Kind) :
    db.nextId kind ≤ after.nextId kind := by
  cases kind with
  | timeLog => exact hwrites.nextLogUuid
  | _ => exact hwrites.nextUuid

/-! ### The statements -/

/-- The rows of a table that have the identifier are of these tenants. -/
def Mine {Row : Type} (mine : List Uuid) (owner : Row → Uuid) (identity : Row → Identified)
    (id : Uuid) (rows : List Row) : Prop :=
  ∀ row ∈ rows, (identity row).1 = id → owner row ∈ mine

theorem writes_deleteProject (hmine : Mine mine Project.tenantId projectIdentity id db.work.projects) :
    Writes mine fresh db (db.mapWork fun work ↦ work.deleteProject id) :=
  { writes_refl mine fresh db with
    projects := writtenBy_updateWhere (fun _ ↦ rfl) (fun _ ↦ rfl)
      fun row hrow hid ↦ hmine row hrow (of_decide_eq_true hid) }

theorem writes_updateProject {input : UpdateProjectInput}
    (hmine : Mine mine Project.tenantId projectIdentity id db.work.projects) :
    Writes mine fresh db (db.updateProject id input) :=
  { writes_refl mine fresh db with
    projects := writtenBy_updateWhere (fun _ ↦ rfl) (fun _ ↦ rfl)
      fun row hrow hid ↦ hmine row hrow (of_decide_eq_true hid)
    settings := fun project hproject htenant ↦
      if_neg fun hid ↦ htenant (hmine project hproject hid) }

theorem writes_incrementCounter
    (hmine : Mine mine ProjectCounter.tenantId counterIdentity id db.work.projectCounters) :
    Writes mine fresh db (db.mapWork fun work ↦ work.incrementCounter id) :=
  { writes_refl mine fresh db with
    projectCounters := writtenBy_updateWhere (fun _ ↦ rfl) (fun _ ↦ rfl)
      fun row hrow hid ↦ hmine row hrow (of_decide_eq_true hid) }

theorem writes_deleteStatus
    (hmine : Mine mine WorkflowStatus.tenantId statusIdentity id db.work.workflowStatuses) :
    Writes mine fresh db (db.mapWork fun work ↦ work.deleteStatus id) :=
  { writes_refl mine fresh db with
    workflowStatuses := writtenBy_deleteWhere
      fun row hrow hid ↦ hmine row hrow (of_decide_eq_true hid) }

theorem writes_deleteTransition
    (hmine : Mine mine WorkflowTransition.tenantId transitionIdentity id db.work.workflowTransitions) :
    Writes mine fresh db (db.mapWork fun work ↦ work.deleteTransition id) :=
  { writes_refl mine fresh db with
    workflowTransitions := writtenBy_deleteWhere
      fun row hrow hid ↦ hmine row hrow (of_decide_eq_true hid) }

/-- Assumes: the statuses of the project are of these tenants. -/
theorem writes_updatePositions {projectId : Uuid} {orderedIds : List Uuid}
    (hmine : ∀ row ∈ db.work.workflowStatuses, row.projectId = projectId → row.tenantId ∈ mine) :
    Writes mine fresh db (db.mapWork fun work ↦ work.updatePositions projectId orderedIds) :=
  { writes_refl mine fresh db with
    workflowStatuses := writtenBy_updateWhere (fun _ ↦ rfl) (fun _ ↦ rfl)
      fun row hrow hmatches ↦ hmine row hrow (of_decide_eq_true hmatches).1 }

/-- Assumes: the items that match are of these tenants. -/
theorem writes_updateItems {condition : WorkItem → Bool} {set : WorkItem → WorkItem}
    (hset : ∀ item, (set item).tenantId = item.tenantId ∧ itemIdentity (set item) = itemIdentity item)
    (hmine : ∀ row ∈ db.work.workItems, condition row = true → row.tenantId ∈ mine) :
    Writes mine fresh db
      (db.mapWork fun work ↦ { work with workItems := updateWhere condition set work.workItems }) :=
  { writes_refl mine fresh db with
    workItems := writtenBy_updateWhere (fun row ↦ (hset row).1) (fun row ↦ (hset row).2) hmine }

theorem writes_deleteWorkItem (hmine : Mine mine WorkItem.tenantId itemIdentity id db.work.workItems) :
    Writes mine fresh db (db.mapWork fun work ↦ work.deleteWorkItem id) :=
  writes_updateItems (fun _ ↦ ⟨rfl, rfl⟩) fun row hrow hid ↦ hmine row hrow (of_decide_eq_true hid)

theorem writes_carryOver {tenantId : Uuid} (htenant : tenantId ∈ mine) (doneStatusIds : List Uuid)
    (target : Option Uuid) :
    Writes mine fresh db (db.mapWork fun work ↦ work.carryOver tenantId id doneStatusIds target) :=
  writes_updateItems (fun _ ↦ ⟨rfl, rfl⟩) fun row _ hmatches ↦ by
    rw [(of_decide_eq_true hmatches).2.1]
    exact htenant

theorem writes_withRanks {tenantId : Uuid} (htenant : tenantId ∈ mine) (items : List (Uuid × String)) :
    Writes mine fresh db (db.mapWork fun work ↦ work.withRanks tenantId items) :=
  { writes_refl mine fresh db with
    workItems := by
      change WrittenBy _ _ _ _ db.work.workItems (db.work.withRanks tenantId items).workItems
      rw [withRanks_eq]
      refine writtenBy_updateWhere (fun _ ↦ rfl) (fun _ ↦ rfl) fun row _ hmatches ↦ ?_
      rw [(of_decide_eq_true hmatches).2]
      exact htenant }

theorem writes_updateSprints {set : Sprint → Sprint}
    (hset : ∀ row, (set row).tenantId = row.tenantId ∧ sprintIdentity (set row) = sprintIdentity row)
    (hmine : Mine mine Sprint.tenantId sprintIdentity id db.work.sprints) :
    Writes mine fresh db (db.mapWork fun work ↦
      { work with sprints := updateWhere (fun sprint ↦ sprint.id = id) set work.sprints }) :=
  { writes_refl mine fresh db with
    sprints := writtenBy_updateWhere (fun row ↦ (hset row).1) (fun row ↦ (hset row).2)
      fun row hrow hid ↦ hmine row hrow (of_decide_eq_true hid) }

theorem writes_deleteSprint (hmine : Mine mine Sprint.tenantId sprintIdentity id db.work.sprints) :
    Writes mine fresh db (db.mapWork fun work ↦ work.deleteSprint id) :=
  { writes_refl mine fresh db with
    sprints := writtenBy_deleteWhere fun row hrow hid ↦ hmine row hrow (of_decide_eq_true hid) }

theorem writes_updateLabel {input : UpdateLabelInput}
    (hmine : Mine mine Label.tenantId labelIdentity id db.labels) :
    Writes mine fresh db
      { db with labels := updateWhere (fun label ↦ label.id = id) input.set db.labels } :=
  { writes_refl mine fresh db with
    labels := writtenBy_updateWhere (fun _ ↦ rfl) (fun _ ↦ rfl)
      fun row hrow hid ↦ hmine row hrow (of_decide_eq_true hid) }

theorem writes_deleteLabel (hmine : Mine mine Label.tenantId labelIdentity id db.labels) :
    Writes mine fresh db { db with labels := deleteWhere (fun label ↦ label.id = id) db.labels } :=
  { writes_refl mine fresh db with
    labels := writtenBy_deleteWhere fun row hrow hid ↦ hmine row hrow (of_decide_eq_true hid) }

/-- Assumes: the item with the identifier is of these tenants. It is not of another tenant. -/
theorem links_of_mine (hmine : Mine mine WorkItem.tenantId itemIdentity id db.work.workItems)
    {tenantId : Uuid} (htenant : tenantId ∉ mine) (labelId : Uuid) :
    links (ownedBy WorkItem.tenantId tenantId db.work.workItems) { workItemId := id, labelId } = false := by
  refine Bool.eq_false_iff.mpr fun hlinks ↦ ?_
  obtain ⟨item, hitem, hid⟩ := List.any_eq_true.mp hlinks
  obtain ⟨hmem, howner⟩ := List.mem_filter.mp hitem
  obtain rfl : item.tenantId = tenantId := of_decide_eq_true howner
  exact htenant (hmine item hmem (of_decide_eq_true hid))

theorem writes_addLabel (hmine : Mine mine WorkItem.tenantId itemIdentity id db.work.workItems)
    (labelId : Uuid) : Writes mine fresh db (db.addLabel id labelId) := by
  unfold Db.addLabel
  split_ifs
  · exact writes_refl _ _ _
  · exact { writes_refl mine fresh db with
      workItemLabels := fun tenantId htenant ↦ by
        simp only [List.filter_append, List.filter_cons, links_of_mine hmine htenant labelId,
          Bool.false_eq_true, if_false, List.filter_nil, List.append_nil] }

theorem writes_removeLabel (hmine : Mine mine WorkItem.tenantId itemIdentity id db.work.workItems)
    (labelId : Uuid) : Writes mine fresh db (db.removeLabel id labelId) :=
  { writes_refl mine fresh db with
    workItemLabels := fun tenantId htenant ↦ by
      refine filter_deleteWhere fun row _ hlinks ↦ decide_eq_false ?_
      rintro rfl
      rw [links_of_mine hmine htenant labelId] at hlinks
      cases hlinks }

/-! ### Insertions -/

/-- The one row that a step adds. -/
def oneRow (kind : Kind) (identified : Identified) : Kind → Identified → Prop :=
  fun other row ↦ other = kind ∧ row = identified

theorem writes_createStatus {status : WorkflowStatus} (htenant : status.tenantId ∈ mine) :
    Writes mine (oneRow .workflowStatus (statusIdentity status)) db
      { db with work := { db.work with workflowStatuses := db.work.workflowStatuses ++ [status] } } :=
  { writes_refl mine _ db with
    workflowStatuses := writtenBy_append (by simpa using htenant) (by simp [oneRow]) }

theorem writes_createTransition {transition : WorkflowTransition} (htenant : transition.tenantId ∈ mine) :
    Writes mine (oneRow .workflowTransition (transitionIdentity transition)) db { db with
      work := { db.work with workflowTransitions := db.work.workflowTransitions ++ [transition] } } :=
  { writes_refl mine _ db with
    workflowTransitions := writtenBy_append (by simpa using htenant) (by simp [oneRow]) }

theorem writes_createSprint {sprint : Sprint} (htenant : sprint.tenantId ∈ mine) :
    Writes mine (oneRow .sprint (sprintIdentity sprint)) db
      { db with work := { db.work with sprints := db.work.sprints ++ [sprint] } } :=
  { writes_refl mine _ db with
    sprints := writtenBy_append (by simpa using htenant) (by simp [oneRow]) }

theorem writes_createLabel {label : Label} (htenant : label.tenantId ∈ mine) :
    Writes mine (oneRow .label (labelIdentity label)) db { db with labels := db.labels ++ [label] } :=
  { writes_refl mine _ db with
    labels := writtenBy_append (by simpa using htenant) (by simp [oneRow]) }

/-- The rows that `createProject` adds. -/
def projectRows (project : Project) (firstStatusId : Uuid) : Kind → Identified → Prop
  | .project, row => row = projectIdentity project
  | .projectCounter, row => row = (project.id, ⟨project.tenantId, project.id⟩)
  | .workflowStatus, row =>
    row ∈ (defaultStatusRows project.tenantId project.id firstStatusId).map statusIdentity
  | _, _ => False

theorem writtenBy_initCounter {projectId tenantId : Uuid} {counters : List ProjectCounter}
    {fresh : Identified → Prop} (htenant : tenantId ∈ mine)
    (hfresh : fresh (projectId, ⟨tenantId, projectId⟩)) :
    WrittenBy ProjectCounter.tenantId counterIdentity mine fresh counters
      (initCounter projectId tenantId counters) := by
  unfold initCounter
  split_ifs
  · exact writtenBy_refl
  · exact writtenBy_append (by simpa using htenant) (by simpa [counterIdentity] using hfresh)

/-- A committed creation of a project draws the identifiers of the member and of the default statuses. -/
theorem commitProject_nextUuid {project created : Project} {leadId : Uuid} {work left : Work.Db}
    (hcommit : commitProject project leadId work = .ok (created, left)) :
    left.nextUuid = work.nextUuid + 1 + defaultWorkflowStatuses.length := by
  obtain ⟨_, _, hcommit⟩ := bind_eq_ok.mp hcommit
  obtain ⟨_, _, hcommit⟩ := bind_eq_ok.mp hcommit
  obtain ⟨_, _, hcommit⟩ := bind_eq_ok.mp hcommit
  rw [← (Prod.mk.inj (Except.ok.inj hcommit)).2]

theorem writes_createProject {project created : Project} {leadId : Uuid} {left : Work.Db}
    (hcommit : commitProject project leadId db.work = .ok (created, left))
    (htenant : project.tenantId ∈ mine) :
    Writes mine (projectRows project (db.work.nextUuid + 1)) db { db with work := left } := by
  have hnext := commitProject_nextUuid hcommit
  obtain ⟨rfl, _, _, members, nextUuid, rfl⟩ := commitProject_ok hcommit
  exact { writes_refl mine _ db with
    nextUuid := by
      change db.work.nextUuid ≤ nextUuid
      change nextUuid = _ at hnext
      omega
    projects := writtenBy_append (by simpa using htenant) (by simp [projectRows, projectIdentity])
    projectCounters := writtenBy_initCounter htenant rfl
    workflowStatuses := writtenBy_append
      (fun row hrow ↦ by
        obtain ⟨_, _, rfl⟩ := List.mem_map.mp hrow
        exact htenant)
      fun row hrow ↦ List.mem_map.mpr ⟨row, hrow, rfl⟩ }

theorem creationEntry_tenantId (entryId : Uuid) (item : WorkItem) (actorId : Uuid) :
    (creationEntry entryId item actorId).tenantId = item.tenantId := by
  unfold creationEntry
  split <;> rfl

theorem writes_createWorkItem {newItem : Uuid → Timestamp → WorkItem} {actorId : Uuid} {created : WorkItem}
    {left : Work.Db} (hcommit : commitWorkItem newItem actorId db.work = .ok (created, left))
    (htenant : created.tenantId ∈ mine) :
    Writes mine (oneRow .workItem (itemIdentity created)) db { db with work := left } := by
  obtain ⟨_, _, rfl⟩ := commitWorkItem_ok hcommit
  exact { writes_refl mine _ db with
    nextUuid := Nat.le_add_right _ _
    workItems := writtenBy_append (by simpa using htenant) (by simp [oneRow])
    activityLogs := fun tenantId hother ↦ by
      refine ownedBy_append_singleton ?_
      rw [creationEntry_tenantId]
      exact fun hsame ↦ hother (hsame ▸ htenant) }

/-- The entries of a committed update are of the tenant of the item it has updated. -/
theorem commitUpdate_logs {actorId : Uuid} {item : WorkItem} {input : UpdateWorkItemInput}
    {work left : Work.Db} {updated : Option WorkItem}
    (hcommit : commitUpdate actorId item input work = .ok (updated, left)) :
    work.nextUuid ≤ left.nextUuid ∧ ∃ logs, left.activityLogs = work.activityLogs ++ logs ∧
      ∀ log ∈ logs, ∃ row ∈ work.workItems, row.id = item.id ∧ row.tenantId = log.tenantId := by
  unfold commitUpdate at hcommit
  dsimp only at hcommit
  split at hcommit
  next hnone =>
    split_ifs at hcommit
    obtain ⟨-, rfl⟩ := Prod.mk.inj (Except.ok.inj hcommit)
    exact ⟨le_rfl, [], (List.append_nil _).symm, by simp⟩
  next row hrow =>
    obtain ⟨withActivity, hactivity, hcommit⟩ := bind_eq_ok.mp hcommit
    obtain rfl := appendMany_ok hactivity
    obtain ⟨-, rfl⟩ := Prod.mk.inj (Except.ok.inj hcommit)
    refine ⟨Nat.le_add_right _ _, _, rfl, fun log hlog ↦ ?_⟩
    obtain ⟨old, hold, hid, hset⟩ := exists_of_mem_updateWorkItemRows (List.mem_of_find?_eq_some hrow)
    have hrowId : row.id = item.id := by simpa using List.find?_some hrow
    obtain ⟨entry, _, rfl⟩ := List.mem_map.mp hlog
    refine ⟨old, hold, hid.trans hrowId, ?_⟩
    change old.tenantId = row.tenantId
    rw [hset, if_pos hrowId]
    rfl

theorem writes_updateWorkItem {actorId : Uuid} {item : WorkItem} {input : UpdateWorkItemInput}
    {left : Work.Db} {updated : Option WorkItem}
    (hcommit : commitUpdate actorId item input db.work = .ok (updated, left))
    (hmine : Mine mine WorkItem.tenantId itemIdentity item.id db.work.workItems) :
    Writes mine fresh db { db with work := left } := by
  obtain ⟨hnext, logs, hlogs, htenants⟩ := commitUpdate_logs hcommit
  obtain ⟨_, nextUuid, rfl, _⟩ := commitUpdate_ok hcommit
  exact { writes_refl mine fresh db with
    nextUuid := hnext
    workItems := writtenBy_updateWhere (fun _ ↦ rfl) (fun _ ↦ rfl)
      fun row hrow hid ↦ hmine row hrow (of_decide_eq_true hid)
    activityLogs := fun tenantId hother ↦ by
      refine (congrArg (ownedBy ActivityLog.tenantId tenantId) hlogs).trans ?_
      refine ownedBy_append fun log hlog hsame ↦ hother ?_
      obtain ⟨row, hrow, hid, htenant⟩ := htenants log hlog
      rw [← hsame, ← htenant]
      exact hmine row hrow hid }

/-! ### The time logs -/

/-- The rows that a write of `time_logs` adds. -/
def logRows : TimeLogs.LogWrite → Kind → Identified → Prop
  | .insert log => oneRow .timeLog (timeLogIdentity log)
  | .update .. => noRow

/-- The row that a write of `time_logs` is about is of these tenants. -/
def MineLog (mine : List Uuid) (logs : List TimeLog) : TimeLogs.LogWrite → Prop
  | .insert log => log.tenantId ∈ mine
  | .update id _ _ => Mine mine TimeLog.tenantId timeLogIdentity id logs

theorem writtenBy_logWrite {write : TimeLogs.LogWrite} (hmine : MineLog mine db.timeLogs write) :
    WrittenBy TimeLog.tenantId timeLogIdentity mine (logRows write .timeLog) db.timeLogs
      (write.apply db.timeLogs) := by
  cases write with
  | insert log =>
    have htenant : log.tenantId ∈ mine := hmine
    exact writtenBy_append (by simpa using htenant) (by simp [logRows, oneRow])
  | update id workItemId columns =>
    exact writtenBy_updateWhere (fun _ ↦ rfl) (fun _ ↦ rfl)
      fun row hrow hmatches ↦ hmine row hrow (of_decide_eq_true hmatches).1

/-- The store with a write of `time_logs` and the sum of the hours of its item. -/
theorem writes_logs {write : TimeLogs.LogWrite} (hmine : MineLog mine db.timeLogs write)
    {workItems : List WorkItem} (hitems : WrittenBy WorkItem.tenantId itemIdentity mine
      (logRows write .workItem) db.work.workItems workItems) {lockedLogs lockedItems : List Uuid} :
    Writes mine (logRows write) db { db with
      toDb := { db.toDb with
        work := { db.work with workItems }
        timeLogs := write.apply db.timeLogs
        lockedLogs
        lockedItems } } :=
  { writes_refl mine _ db with
    workItems := hitems
    timeLogs := writtenBy_logWrite hmine }

end Writes

end RallyApi.Archive

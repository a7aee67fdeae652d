import RallyApi.Concurrency.Recorded
import RallyApi.TimeLogs.TimeLogsService
import RallyApi.Work.Reordering

/-!
# All that writes to a project

The operations of `ProjectsService`, `WorkItemsService` and `PlanningService` in one system, over one
store: those of the work services and of the time logs, and those on projects, labels, ranks, positions and
sprints, which are modelled here. The locks of rows, which exclude some interleavings, are left out.
-/

set_option autoImplicit false
set_option relaxedAutoImplicit false

namespace RallyApi.Archive

open Concurrency Platform Store Work
open CrossTenant (Label WorkItemLabel)
open TimeLogs (TimeLogStep TimeLogRequest)

/-! ### The store and its steps -/

/-- The store of the time logs and of the work services, with the labels and the column `settings` of the
projects. -/
structure Db extends TimeLogs.Db where
  labels : List Label := []
  workItemLabels : List WorkItemLabel := []
  settings : Uuid → String := fun _ ↦ "{}"

/-- The store of the work services. -/
def workPart : Part Db Work.Db where
  get db := db.work
  put work db := { db with work }
  put_get _ := rfl

/-- The store of the time logs. -/
def timeLogPart : Part Db TimeLogs.Db where
  get := Db.toDb
  put inner db := { db with toDb := inner }
  put_get _ := rfl

/-- `UpdateProjectInput`. -/
structure UpdateProjectInput where
  name : Option String := none
  description : Option (Option String) := none
  leadId : Option (Option Uuid) := none
  status : Option ProjectStatus := none
  settings : Option String := none
  deriving DecidableEq, Repr

/-- What a step does: the write it makes, or `other` where it reads, fails or draws an identifier, and where
it writes to tables of members and teams. -/
inductive ArchiveStep
  | other
  | work (label : WorkStep)
  | timeLog (label : TimeLogStep)
  | updateProject (id : Uuid) (input : UpdateProjectInput)
  | updatePositions (projectId : Uuid) (orderedIds : List Uuid)
  | reorderItems (tenantId : Uuid) (ids : List Uuid)
  | createLabel (label : Label)
  | updateLabel (id : Uuid)
  | deleteLabel (id : Uuid)
  | addLabel (workItemId labelId : Uuid)
  | removeLabel (workItemId labelId : Uuid)
  | updateSprint (id : Uuid)
  deriving DecidableEq, Repr

/-- A call of one of the services. -/
abbrev ArchiveCall := Call Db ArchiveStep Failure

/-- A call of the work services. -/
def ofWork {α : Type} (call : WorkCall α) : ArchiveCall α := call.within workPart ArchiveStep.work

/-- The store with that of the work services changed. -/
def Db.mapWork (change : Work.Db → Work.Db) (db : Db) : Db := { db with work := change db.work }

/-! ### Projects -/

/-- The `SET` clause of `ProjectDrizzleRepository.update` on one row, without the column `settings`. -/
def UpdateProjectInput.set (input : UpdateProjectInput) (project : Project) : Project :=
  { project with
    name := input.name.getD project.name
    description := input.description.getD project.description
    leadId := input.leadId.getD project.leadId
    status := input.status.getD project.status }

/-- The store after `ProjectDrizzleRepository.update`. -/
def Db.updateProject (db : Db) (id : Uuid) (input : UpdateProjectInput) : Db :=
  { db with
    work := { db.work with
      projects := updateWhere (fun project ↦ project.id = id) input.set db.work.projects }
    settings := fun projectId ↦
      if projectId = id then input.settings.getD (db.settings id) else db.settings projectId }

/-- `ProjectDrizzleRepository.update`: the row afterwards, if there is one. -/
def updateProjectRow (id : Uuid) (input : UpdateProjectInput) : ArchiveCall (Option Project) :=
  Call.atomically (fun _ ↦ .updateProject id input) fun db ↦
    ((db.updateProject id input).work.projects.find? fun project ↦ project.id = id,
      db.updateProject id input)

/-- `ProjectMemberDrizzleRepository.findMember`: active members only. -/
def findMember (projectId userId : Uuid) : ArchiveCall (Option ProjectMember) :=
  Call.query .other fun db ↦ db.work.projectMembers.find? fun member ↦
    member.projectId = projectId ∧ member.userId = userId ∧ member.status = .active

/-- The check of `updateProject` on who may archive or restore a project. -/
def assertMayChangeStatus (actor : Actor) (projectId : Uuid) (status : ProjectStatus)
    (requested : Option ProjectStatus) : ArchiveCall Unit :=
  if requested = some .archived ∨ status = .archived ∧ requested = some .active then do
    let membership ← findMember projectId actor.sub
    Call.ensure (membership.any fun member ↦ member.status = .active)
      (permissionDeniedException .projectPermissionDenied
        "You must be an active project member to archive or restore this project")
  else pure ()

/-- The check of `updateProject` on a new lead. -/
def assertLead (workspaceId : Uuid) (leadId : Option (Option Uuid)) : ArchiveCall Unit :=
  match leadId.join with
  | some leadId => do
    let lead ← ofWork (findWorkspaceMember workspaceId leadId)
    Call.ensure (lead.any fun member ↦ member.status = .active) (preconditionFailedException
      .projectLeadNotMember "The project lead must be an active member of this workspace")
  | none => pure ()

/-- `updateProject`. -/
def updateProject (actor : Actor) (projectId : Uuid) (input : UpdateProjectInput) :
    ArchiveCall (Option Project) := do
  let project ← ofWork (getProject actor.tenantId projectId)
  Call.ensure (project.status ≠ .archived ∨ input.status = some .active)
    (preconditionFailedException .projectArchived
      "This project is archived and read-only. Only restoring it to active is permitted.")
  assertMayChangeStatus actor projectId project.status input.status
  assertLead project.workspaceId input.leadId
  updateProjectRow projectId input

/-! ### Positions and ranks -/

/-- `reorderStatuses`, with a label for its write. -/
def reorderStatuses (tenantId projectId : Uuid) (orderedIds : List Uuid) : ArchiveCall Unit := do
  let _ ← ofWork (getProject tenantId projectId)
  if orderedIds = [] then pure ()
  else Call.atomically (fun _ ↦ .updatePositions projectId orderedIds) fun db ↦
    ((), db.mapWork fun work ↦ work.updatePositions projectId orderedIds)

/-- `reorderWorkItems`, with a label for its write. -/
def reorderWorkItems (faults : ℕ → Option Failure) (tenantId : Uuid) (items : List (Uuid × String)) :
    ArchiveCall Unit :=
  if items = [] then pure ()
  else do
    ofWork (assertWorkItems tenantId items)
    Call.transaction .other (fun _ ↦ .reorderItems tenantId (items.map Prod.fst)) fun db ↦ do
      let work ← reorderItems faults items tenantId db.work
      pure ((), { db with work })

/-- A call of the work services, whatever its steps are called. -/
theorem ofWork_relabelled {α : Type} (call : WorkCall α) :
    (ofWork call).relabelled (fun _ ↦ ()) = call.within workPart fun _ ↦ () :=
  Call.relabelled_within call

/-- `reorderStatuses` takes the steps of `Work.reorderStatuses`. -/
theorem reorderStatuses_relabelled (tenantId projectId : Uuid) (orderedIds : List Uuid) :
    (reorderStatuses tenantId projectId orderedIds).relabelled (fun _ ↦ ()) =
      (Work.reorderStatuses tenantId projectId orderedIds).within workPart fun _ ↦ () := by
  have hproject := ofWork_relabelled (getProject tenantId projectId)
  rw [Call.relabelled] at hproject
  rw [reorderStatuses, Work.reorderStatuses, Call.within_bind, Call.relabelled, Call.traced_bind, hproject]
  congr 1
  funext _
  unfold updatePositions
  split_ifs
  · rfl
  · rfl

/-- `reorderWorkItems` takes the steps of `Work.reorderWorkItems`. -/
theorem reorderWorkItems_relabelled (faults : ℕ → Option Failure) (tenantId : Uuid)
    (items : List (Uuid × String)) :
    (reorderWorkItems faults tenantId items).relabelled (fun _ ↦ ()) =
      (Work.reorderWorkItems faults tenantId items).within workPart fun _ ↦ () := by
  unfold reorderWorkItems Work.reorderWorkItems
  split_ifs
  · rfl
  · have hitems := ofWork_relabelled (assertWorkItems tenantId items)
    rw [Call.relabelled] at hitems
    rw [Call.within_bind, Call.relabelled, Call.traced_bind, hitems]
    congr 1
    funext _
    simp only [transaction, Call.transaction, Call.attempt, Call.traced, Call.within, workPart]
    congr 1
    · funext db
      cases reorderItems faults items tenantId db.work <;> rfl
    · funext db
      cases reorderItems faults items tenantId db.work <;> rfl

/-! ### Labels -/

/-- `LabelDrizzleRepository.findById`. -/
def findLabelById (id : Uuid) : ArchiveCall (Option Label) :=
  Call.query .other fun db ↦ db.labels.find? fun label ↦ label.id = id

/-- `LabelDrizzleRepository.create`, against the primary key and `uq_labels_name`. -/
def insertLabel (label : Label) : ArchiveCall Label :=
  Call.transaction .other .createLabel fun db ↦ do
    checkPrimaryKey "labels_pkey" Label.id db.labels label.id
    if db.labels.any fun row ↦ row.projectId = label.projectId ∧ row.name = label.name then
      .error (.uniqueViolation "uq_labels_name")
    else .ok (label, { db with labels := db.labels ++ [label] })

/-- `UpdateLabelInput`. -/
structure UpdateLabelInput where
  name : Option String := none
  color : Option String := none

/-- The `SET` clause of `LabelDrizzleRepository.update` on one row. -/
def UpdateLabelInput.set (input : UpdateLabelInput) (label : Label) : Label :=
  { label with name := input.name.getD label.name, color := input.color.getD label.color }

/-- `LabelDrizzleRepository.update`, against `uq_labels_name`: the row afterwards, if there is one. -/
def updateLabelRow (id : Uuid) (input : UpdateLabelInput) : ArchiveCall (Option Label) :=
  Call.transaction .other (fun _ ↦ .updateLabel id) fun db ↦ do
    let labels := updateWhere (fun label ↦ label.id = id) input.set db.labels
    let updated := labels.find? fun label ↦ label.id = id
    if updated.any fun new ↦ labels.any fun row ↦
        row.id ≠ id ∧ row.projectId = new.projectId ∧ row.name = new.name then
      .error (.uniqueViolation "uq_labels_name")
    else .ok (updated, { db with labels })

/-- `LabelDrizzleRepository.delete`. -/
def removeLabelRow (id : Uuid) : ArchiveCall Unit :=
  Call.atomically (fun _ ↦ .deleteLabel id) fun db ↦
    ((), { db with labels := deleteWhere (fun label ↦ label.id = id) db.labels })

/-- The label of a project that `updateLabel` and `deleteLabel` are about. -/
def getLabel (tenantId projectId labelId : Uuid) : ArchiveCall Label := do
  let found ← findLabelById labelId
  Call.require (found.filter fun label ↦ label.projectId = projectId ∧ label.tenantId = tenantId)
    (notFoundException .labelNotFound "Label not found")

/-- `createLabel`. -/
def createLabel (tenantId projectId : Uuid) (name : String) (color : Option String) :
    ArchiveCall Label := do
  let _ ← ofWork (getProject tenantId projectId)
  let id ← ofWork uuidv7
  insertLabel { id, tenantId, projectId, name, color := color.getD "#6b7280" }

/-- `updateLabel`. -/
def updateLabel (tenantId projectId labelId : Uuid) (input : UpdateLabelInput) :
    ArchiveCall (Option Label) := do
  let _ ← ofWork (getProject tenantId projectId)
  let _ ← getLabel tenantId projectId labelId
  updateLabelRow labelId input

/-- `deleteLabel`. -/
def deleteLabel (tenantId projectId labelId : Uuid) : ArchiveCall Unit := do
  let _ ← ofWork (getProject tenantId projectId)
  let _ ← getLabel tenantId projectId labelId
  removeLabelRow labelId

/-- `assertLabelBelongsToProject`. -/
def assertLabelBelongsToProject (projectId labelId : Uuid) : ArchiveCall Unit := do
  let found ← findLabelById labelId
  Call.ensure (found.any fun label ↦ label.projectId = projectId) (notFoundException .labelNotFound
    "Label not found or does not belong to this project")

/-- The store after `WorkItemDrizzleRepository.addLabel`: as it was where the item has the label. -/
def Db.addLabel (db : Db) (workItemId labelId : Uuid) : Db :=
  if { workItemId, labelId : WorkItemLabel } ∈ db.workItemLabels then db
  else { db with workItemLabels := db.workItemLabels ++ [{ workItemId, labelId }] }

/-- The store after `WorkItemDrizzleRepository.removeLabel`. -/
def Db.removeLabel (db : Db) (workItemId labelId : Uuid) : Db :=
  { db with
    workItemLabels := deleteWhere (fun row ↦ row = { workItemId, labelId : WorkItemLabel })
      db.workItemLabels }

/-- `WorkItemDrizzleRepository.addLabel`. -/
def addLabel (workItemId labelId : Uuid) : ArchiveCall Unit :=
  Call.atomically (fun _ ↦ .addLabel workItemId labelId) fun db ↦ ((), db.addLabel workItemId labelId)

/-- `WorkItemDrizzleRepository.removeLabel`. -/
def removeLabel (workItemId labelId : Uuid) : ArchiveCall Unit :=
  Call.atomically (fun _ ↦ .removeLabel workItemId labelId) fun db ↦
    ((), db.removeLabel workItemId labelId)

/-- `addLabelToWorkItem`. -/
def addLabelToWorkItem (tenantId id labelId : Uuid) : ArchiveCall Unit := do
  let item ← ofWork (getWorkItem tenantId id)
  assertLabelBelongsToProject item.projectId labelId
  addLabel id labelId

/-- `removeLabelFromWorkItem`. -/
def removeLabelFromWorkItem (tenantId id labelId : Uuid) : ArchiveCall Unit := do
  let _ ← ofWork (getWorkItem tenantId id)
  removeLabel id labelId

/-! ### Sprints -/

/-- The part of `UpdateSprintInput` that requests may set. -/
structure SprintColumns where
  name : Option String := none
  goal : Option (Option String) := none
  startDate : Option (Option String) := none
  endDate : Option (Option String) := none

/-- The `SET` clause of `SprintDrizzleRepository.update` on one row. -/
def SprintColumns.set (input : SprintColumns) (sprint : Sprint) : Sprint :=
  { sprint with
    name := input.name.getD sprint.name
    goal := input.goal.getD sprint.goal
    startDate := input.startDate.getD sprint.startDate
    endDate := input.endDate.getD sprint.endDate }

/-- The store after `SprintDrizzleRepository.update`. -/
def Db.updateSprint (db : Db) (id : Uuid) (input : SprintColumns) : Db :=
  db.mapWork fun work ↦
    { work with sprints := updateWhere (fun sprint ↦ sprint.id = id) input.set work.sprints }

/-- `updateSprint`. -/
def updateSprint (tenantId id : Uuid) (input : SprintColumns) : ArchiveCall (Option Sprint) := do
  let _ ← ofWork (getSprint tenantId id)
  Call.atomically (fun _ ↦ .updateSprint id) fun db ↦
    ((db.updateSprint id input).work.sprints.find? fun sprint ↦ sprint.id = id,
      db.updateSprint id input)

/-! ### Requests -/

/-- The tables of members and teams. -/
structure Memberships where
  projectMembers : List ProjectMember
  projectTeams : List ProjectTeamLink
  workspaceMembers : List WorkspaceMember

/-- The store with these tables changed. -/
def Db.withMemberships (db : Db) (change : Memberships → Memberships) : Db :=
  db.mapWork fun work ↦
    let after := change
      { projectMembers := work.projectMembers, projectTeams := work.projectTeams
        workspaceMembers := work.workspaceMembers }
    { work with
      projectMembers := after.projectMembers
      projectTeams := after.projectTeams
      workspaceMembers := after.workspaceMembers }

/-- Whatever the operations on members and teams do to their tables. -/
def changeMemberships (change : Memberships → Memberships) : ArchiveCall Unit :=
  Call.atomically (fun _ ↦ .other) fun db ↦ ((), db.withMemberships change)

/-- What clients ask for, the changes of members and teams, and the passing of time. -/
inductive ArchiveRequest
  | work (request : WorkRequest)
  | timeLog (request : TimeLogRequest)
  | updateProject (actor : Actor) (projectId : Uuid) (input : UpdateProjectInput)
  | reorderStatuses (tenantId projectId : Uuid) (orderedIds : List Uuid)
  | reorderWorkItems (faults : ℕ → Option Failure) (tenantId : Uuid) (items : List (Uuid × String))
  | createLabel (tenantId projectId : Uuid) (name : String) (color : Option String)
  | updateLabel (tenantId projectId labelId : Uuid) (input : UpdateLabelInput)
  | deleteLabel (tenantId projectId labelId : Uuid)
  | addLabelToWorkItem (tenantId id labelId : Uuid)
  | removeLabelFromWorkItem (tenantId id labelId : Uuid)
  | updateSprint (tenantId id : Uuid) (input : SprintColumns)
  | changeMemberships (change : Memberships → Memberships)

/-- The call that serves a request. -/
def ArchiveRequest.serve : ArchiveRequest → ArchiveCall Unit
  | .work request => ofWork request.serve
  | .timeLog request => request.serve.within timeLogPart ArchiveStep.timeLog
  | .updateProject actor projectId input =>
    (fun _ ↦ ()) <$> Archive.updateProject actor projectId input
  | .reorderStatuses tenantId projectId orderedIds =>
    Archive.reorderStatuses tenantId projectId orderedIds
  | .reorderWorkItems faults tenantId items => Archive.reorderWorkItems faults tenantId items
  | .createLabel tenantId projectId name color =>
    (fun _ ↦ ()) <$> Archive.createLabel tenantId projectId name color
  | .updateLabel tenantId projectId labelId input =>
    (fun _ ↦ ()) <$> Archive.updateLabel tenantId projectId labelId input
  | .deleteLabel tenantId projectId labelId => Archive.deleteLabel tenantId projectId labelId
  | .addLabelToWorkItem tenantId id labelId => Archive.addLabelToWorkItem tenantId id labelId
  | .removeLabelFromWorkItem tenantId id labelId =>
    Archive.removeLabelFromWorkItem tenantId id labelId
  | .updateSprint tenantId id input => (fun _ ↦ ()) <$> Archive.updateSprint tenantId id input
  | .changeMemberships change => Archive.changeMemberships change

end RallyApi.Archive

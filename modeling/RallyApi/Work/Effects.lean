import RallyApi.Concurrency.Failures
import RallyApi.Work.PlanningService
import RallyApi.Work.WorkItemsService

/-!
# What the steps of the work services do

`WorkRequest` lists the calls clients make. `Effect` says what a step with a given label does to the
store, and `serve_effect` that every step of every call does what its label says. The results about
the work store look at the labels and never at the text of a service again, except where a write is
only right because of what the call has read before it.
-/

set_option autoImplicit false
set_option relaxedAutoImplicit false

namespace RallyApi.Work

open Concurrency Platform Store

/-! ### Requests -/

/-- The calls clients make, and the passing of time. -/
inductive WorkRequest
  | createProject (actor : Actor) (workspaceId : Uuid) (key : ProjectKey) (name : String)
    (description : Option String) (leadId : Option Uuid)
  | deleteProject (tenantId projectId : Uuid)
  | createStatus (tenantId projectId : Uuid) (input : CreateWorkflowStatusInput)
  | deleteStatus (tenantId projectId statusId : Uuid)
  | createTransition (tenantId projectId : Uuid) (input : CreateWorkflowTransitionInput)
  | deleteTransition (tenantId projectId transitionId : Uuid)
  | createWorkItem (actor : Actor) (projectId : Uuid) (type : WorkItemType) (title : String)
    (opts : CreateWorkItemOpts)
  | createTask (actor : Actor) (parentId : Uuid) (title : String) (opts : CreateWorkItemOpts)
  | updateWorkItem (actor : Actor) (id : Uuid) (input : UpdateWorkItemInput)
  | moveWorkItem (actor : Actor) (id toStatusId : Uuid)
  | deleteWorkItem (tenantId id : Uuid)
  | createSprint (actor : Actor) (projectId : Uuid) (name : String) (opts : CreateSprintOpts)
  | startSprint (tenantId id : Uuid)
  | completeSprint (tenantId id : Uuid) (moveToSprintId : Option Uuid)
  | deleteSprint (tenantId id : Uuid)
  | tick (microseconds : ℕ)

/-- Time passes. -/
def tick (microseconds : ℕ) : WorkCall Unit :=
  Call.atomically (fun _ ↦ .other) fun db ↦ ((), { db with now := db.now + microseconds })

/-- The call that serves a request; its result does not matter to the store. -/
def WorkRequest.serve : WorkRequest → WorkCall Unit
  | .createProject actor workspaceId key name description leadId =>
    (fun _ ↦ ()) <$> Work.createProject actor workspaceId key name description leadId
  | .deleteProject tenantId projectId => Work.deleteProject tenantId projectId
  | .createStatus tenantId projectId input =>
    (fun _ ↦ ()) <$> Work.createStatus tenantId projectId input
  | .deleteStatus tenantId projectId statusId => Work.deleteStatus tenantId projectId statusId
  | .createTransition tenantId projectId input =>
    (fun _ ↦ ()) <$> Work.createTransition tenantId projectId input
  | .deleteTransition tenantId projectId transitionId =>
    Work.deleteTransition tenantId projectId transitionId
  | .createWorkItem actor projectId type title opts =>
    (fun _ ↦ ()) <$> Work.createWorkItem actor projectId type title opts
  | .createTask actor parentId title opts =>
    (fun _ ↦ ()) <$> Work.createTask actor parentId title opts
  | .updateWorkItem actor id input => (fun _ ↦ ()) <$> Work.updateWorkItem actor id input
  | .moveWorkItem actor id toStatusId => (fun _ ↦ ()) <$> Work.moveWorkItem actor id toStatusId
  | .deleteWorkItem tenantId id => Work.deleteWorkItem tenantId id
  | .createSprint actor projectId name opts =>
    (fun _ ↦ ()) <$> Work.createSprint actor projectId name opts
  | .startSprint tenantId id => (fun _ ↦ ()) <$> Work.startSprint tenantId id
  | .completeSprint tenantId id moveToSprintId =>
    (fun _ ↦ ()) <$> Work.completeSprint tenantId id moveToSprintId
  | .deleteSprint tenantId id => Work.deleteSprint tenantId id
  | .tick microseconds => Work.tick microseconds

/-! ### The effect of a step -/

/-- What a step with a label does to the store. -/
def Effect (db : Db) (label : WorkStep) (after : Db) : Prop :=
  match label with
  | .other => ∃ now nextUuid, after = { db with now, nextUuid }
  | .createProject project =>
    project.id ∉ db.projects.map Project.id ∧ project.deletedAt = none ∧
      (∀ row ∈ db.projects, row.occupies project.tenantId project.key = false) ∧
      ∃ projectMembers nextUuid, after = { db with
        projects := db.projects ++ [project]
        projectCounters := initCounter project.id project.tenantId db.projectCounters
        projectMembers
        workflowStatuses := db.workflowStatuses ++
          defaultStatusRows project.tenantId project.id (db.nextUuid + 1)
        nextUuid }
  | .deleteProject id => after = db.deleteProject id
  | .incrementCounter projectId seq =>
    (∃ counter ∈ db.projectCounters,
      counter.projectId = projectId ∧ seq = counter.lastItemNumber + 1) ∧
      after = db.incrementCounter projectId
  | .createStatus status =>
    after = { db with workflowStatuses := db.workflowStatuses ++ [status] }
  | .deleteStatus id => after = db.deleteStatus id
  | .createTransition transition =>
    after = { db with workflowTransitions := db.workflowTransitions ++ [transition] }
  | .deleteTransition id => after = db.deleteTransition id
  | .createWorkItem item =>
    item.id ∉ db.workItems.map WorkItem.id ∧
      ∃ entryId actorId nextUuid, after = { db with
        workItems := db.workItems ++ [item]
        activityLogs := db.activityLogs ++ [creationEntry entryId item actorId]
        nextUuid }
  | .updateWorkItem snapshot input =>
    ∃ actorId updated, commitUpdate actorId snapshot input db = .ok (updated, after)
  | .deleteWorkItem id => after = db.deleteWorkItem id
  | .carryOver id moveToSprintId =>
    ∃ tenantId doneStatusIds, after = db.carryOver tenantId id doneStatusIds moveToSprintId
  | .createSprint sprint =>
    sprint.id ∉ db.sprints.map Sprint.id ∧ sprint.status = .planned ∧
      after = { db with sprints := db.sprints ++ [sprint] }
  | .updateSprint id status =>
    ∃ input : UpdateSprintInput, input.status = status ∧ after = db.updateSprint id input
  | .deleteSprint id => after = db.deleteSprint id

@[simp]
theorem effect_other_refl (db : Db) : Effect db .other db := ⟨db.now, db.nextUuid, rfl⟩

/-! ### Frames -/

/-- The tables a label is about. -/
inductive TableName
  | projects
  | projectCounters
  | workflowStatuses
  | workflowTransitions
  | workItems
  | activityLogs
  | sprints
  deriving DecidableEq

/-- The tables a step with a label writes. -/
def WorkStep.writes : WorkStep → List TableName
  | .other => []
  | .createProject _ => [.projects, .projectCounters, .workflowStatuses]
  | .deleteProject _ => [.projects]
  | .incrementCounter .. => [.projectCounters]
  | .createStatus _ | .deleteStatus _ => [.workflowStatuses]
  | .createTransition _ | .deleteTransition _ => [.workflowTransitions]
  | .createWorkItem _ | .updateWorkItem .. => [.workItems, .activityLogs]
  | .deleteWorkItem _ | .carryOver .. => [.workItems]
  | .createSprint _ | .updateSprint .. | .deleteSprint _ => [.sprints]

/-- The tables outside a list are the same in both stores. -/
structure Frame (written : List TableName) (db after : Db) : Prop where
  projects : .projects ∉ written → after.projects = db.projects
  projectCounters : .projectCounters ∉ written → after.projectCounters = db.projectCounters
  workflowStatuses : .workflowStatuses ∉ written → after.workflowStatuses = db.workflowStatuses
  workflowTransitions :
    .workflowTransitions ∉ written → after.workflowTransitions = db.workflowTransitions
  workItems : .workItems ∉ written → after.workItems = db.workItems
  activityLogs : .activityLogs ∉ written → after.activityLogs = db.activityLogs
  sprints : .sprints ∉ written → after.sprints = db.sprints

/-- A step leaves the tables alone that its label does not write. -/
theorem Effect.frame {db after : Db} {label : WorkStep} (heffect : Effect db label after) :
    Frame label.writes db after := by
  cases label <;> simp only [Effect] at heffect
  case other => obtain ⟨_, _, rfl⟩ := heffect; constructor <;> simp
  case createProject =>
    obtain ⟨_, _, _, _, _, rfl⟩ := heffect
    constructor <;> simp [WorkStep.writes]
  case incrementCounter =>
    obtain ⟨_, rfl⟩ := heffect
    constructor <;> simp [WorkStep.writes, Db.incrementCounter]
  case createWorkItem =>
    obtain ⟨_, _, _, _, rfl⟩ := heffect
    constructor <;> simp [WorkStep.writes]
  case updateWorkItem =>
    obtain ⟨_, _, hcommit⟩ := heffect
    obtain ⟨_, _, rfl, _⟩ := commitUpdate_ok hcommit
    constructor <;> simp [WorkStep.writes]
  case carryOver =>
    obtain ⟨_, _, rfl⟩ := heffect
    constructor <;> simp [WorkStep.writes, Db.carryOver]
  case createSprint =>
    obtain ⟨_, _, rfl⟩ := heffect
    constructor <;> simp [WorkStep.writes]
  case updateSprint =>
    obtain ⟨_, _, rfl⟩ := heffect
    constructor <;> simp [WorkStep.writes, Db.updateSprint]
  all_goals
    subst heffect
    constructor <;> simp [WorkStep.writes, Db.deleteProject, Db.deleteStatus, Db.deleteTransition,
      Db.deleteWorkItem, Db.deleteSprint]

/-! ### The steps that only read -/

/-- The step reads. -/
def Reads (db : Db) (label : WorkStep) (after : Db) : Prop := label = .other ∧ after = db

@[simp]
theorem reads_refl (db : Db) : Reads db .other db := ⟨rfl, rfl⟩

/-- A call that only reads does what its labels say. -/
theorem effect_of_reads {α : Type} {call : WorkCall α} (hcall : call.Only Reads) :
    call.Only Effect := by
  refine hcall.mono fun db label after hreads ↦ ?_
  obtain ⟨rfl, rfl⟩ := hreads
  exact effect_other_refl after

@[simp]
theorem getProject_reads (tenantId projectId : Uuid) : (getProject tenantId projectId).Only Reads := by
  simp [getProject, findProjectById]

@[simp]
theorem assertWorkspaceMember_reads (workspaceId userId : Uuid) :
    (assertWorkspaceMember workspaceId userId).Only Reads := by
  simp [assertWorkspaceMember, findWorkspaceMember]

@[simp]
theorem listProjectTeams_reads (tenantId projectId : Uuid) :
    (listProjectTeams tenantId projectId).Only Reads := by
  simp [listProjectTeams, listTeamLinks]

@[simp]
theorem listStatuses_reads (tenantId projectId : Uuid) :
    (listStatuses tenantId projectId).Only Reads := by
  simp [listStatuses, listStatusesByProject]

@[simp]
theorem assertTransitionAllowed_reads (projectId fromStatusId toStatusId : Uuid) :
    (assertTransitionAllowed projectId fromStatusId toStatusId).Only Reads := by
  simp [assertTransitionAllowed, canTransition]

@[simp]
theorem getWorkItem_reads (tenantId id : Uuid) : (getWorkItem tenantId id).Only Reads := by
  simp [getWorkItem, findWorkItemById]

@[simp]
theorem pickStatus_reads (statuses : List WorkflowStatus) (requested : Option Uuid) :
    (pickStatus statuses requested).Only Reads := by
  cases requested <;> simp [pickStatus]

@[simp]
theorem resolveStatusId_reads (tenantId projectId : Uuid) (requested : Option Uuid) :
    (resolveStatusId tenantId projectId requested).Only Reads := by
  simp [resolveStatusId]

@[simp]
theorem assertTeamLinked_reads (tenantId projectId teamId : Uuid) :
    (assertTeamLinked tenantId projectId teamId).Only Reads := by
  simp [assertTeamLinked]

@[simp]
theorem assertParentInProject_reads (tenantId projectId parentId : Uuid) :
    (assertParentInProject tenantId projectId parentId).Only Reads := by
  simp [assertParentInProject]

@[simp]
theorem assertAssignable_reads (tenantId : Uuid) (item : WorkItem) (assigneeId : UuidText) :
    (assertAssignable tenantId item assigneeId).Only Reads := by
  unfold assertAssignable
  split_ifs <;> simp

@[simp]
theorem assertStatusReachable_reads (item : WorkItem) (statusId : UuidText) :
    (assertStatusReachable item statusId).Only Reads := by
  unfold assertStatusReachable
  split_ifs <;> simp

/-- A check that only reads still does when it is skipped. -/
@[simp]
theorem whenPresent_reads {α : Type} (subject : Option α) {check : α → WorkCall Unit}
    (hcheck : ∀ subject, (check subject).Only Reads) : (whenPresent subject check).Only Reads := by
  cases subject with
  | none => simp [whenPresent]
  | some subject => exact hcheck subject

@[simp]
theorem getSprint_reads (tenantId id : Uuid) : (getSprint tenantId id).Only Reads := by
  simp [getSprint, findSprintById]

@[simp]
theorem assertSameProject_reads (tenantId : Uuid) (sprint : Sprint) (moveToSprintId : Option Uuid) :
    (assertSameProject tenantId sprint moveToSprintId).Only Reads := by
  cases moveToSprintId <;> simp [assertSameProject]

/-- A call that only reads leaves the store as it was. -/
theorem run_of_reads {α : Type} {call : WorkCall α} (hcall : call.Only Reads) (db : Db) :
    call.run db = ((call.run db).1, db) := by
  have hdb : (call.run db).2 = db :=
    hcall.run_keeps (fun store ↦ store = db)
      (fun _ _ _ hstore hreads ↦ hreads.2.trans hstore) rfl
  exact Prod.ext rfl hdb

/-- The steps of a call that only reads find the store as it was. -/
theorem eq_of_mem_found_of_reads {α : Type} {call : WorkCall α} (hcall : call.Only Reads)
    {db seen : Db} (hseen : seen ∈ call.found db) : seen = db :=
  Call.found_of_reads (hcall.mono fun _ _ _ hreads ↦ hreads.2) hseen

/-- Assumes: a call that only reads. Run alone, the sequence fails with the store as it was, or goes
on from the same store with what the call returns there. -/
theorem run_bind_of_reads {α β : Type} {call : WorkCall α} (hcall : call.Only Reads)
    (rest : α → WorkCall β) (db : Db) :
    (∃ failure, (call >>= rest).run db = (.error failure, db)) ∨
      ∃ value, (call.run db).1 = .ok value ∧ (call >>= rest).run db = (rest value).run db := by
  rw [Call.run_bind, run_of_reads hcall db]
  cases (call.run db).1 with
  | ok value => exact .inr ⟨value, rfl, rfl⟩
  | error failure => exact .inl ⟨failure, rfl⟩

/-- Assumes: a call that only reads, and a property of the store that the rest keeps for what the
call returns. The sequence keeps it when it runs alone. -/
theorem run_keeps_of_reads {α β : Type} {call : WorkCall α} (hcall : call.Only Reads)
    {rest : α → WorkCall β} {db : Db} {property : Db → Prop} (hdb : property db)
    (hrest : ∀ value, (call.run db).1 = .ok value → property ((rest value).run db).2) :
    property ((call >>= rest).run db).2 := by
  rcases run_bind_of_reads hcall rest db with ⟨failure, hfail⟩ | ⟨value, hvalue, hrun⟩
  · rwa [hfail]
  · rw [hrun]
    exact hrest value hvalue

/-- Assumes: a call that only reads, and a sequence that starts with it and returns. The call has
returned, and the rest from the same store. -/
theorem run_bind_of_reads_ok {α β : Type} {call : WorkCall α} (hcall : call.Only Reads)
    {rest : α → WorkCall β} {db : Db} {result : β}
    (hrun : ((call >>= rest).run db).1 = .ok result) :
    ∃ value, (call.run db).1 = .ok value ∧ ((rest value).run db).1 = .ok result := by
  rcases run_bind_of_reads hcall rest db with ⟨failure, hfail⟩ | ⟨value, hvalue, hrest⟩
  · rw [hfail] at hrun
    cases hrun
  · exact ⟨value, hvalue, hrest ▸ hrun⟩

/-- Assumes: a call that only reads and returns. The sequence goes on from the same store. -/
theorem run_bind_of_reads_returned {α β : Type} {call : WorkCall α} (hcall : call.Only Reads)
    {rest : α → WorkCall β} {db : Db} {value : α} (hvalue : (call.run db).1 = .ok value) :
    (call >>= rest).run db = (rest value).run db := by
  rw [Call.run_bind, run_of_reads hcall db, hvalue]

/-- Assumes: a call that only reads. A sequence that starts with it returns where both parts do. -/
theorem ok_bind_iff {α β : Type} {call : WorkCall α} (hcall : call.Only Reads) {rest : α → WorkCall β}
    {db : Db} {result : β} :
    ((call >>= rest).run db).1 = .ok result ↔
      ∃ value, (call.run db).1 = .ok value ∧ ((rest value).run db).1 = .ok result := by
  constructor
  · exact run_bind_of_reads_ok hcall
  · rintro ⟨value, hvalue, hrest⟩
    rwa [run_bind_of_reads_returned hcall hvalue]

/-! ### The steps that write -/

@[simp]
theorem uuidv7_effect : uuidv7.Only Effect := by
  simp only [uuidv7_eq, Call.only_atomically]
  exact fun db ↦ ⟨db.now, db.nextUuid + 1, rfl⟩

/-- A transaction does what its label says when it does so where it commits. -/
theorem transaction_effect {α : Type} {label : α → WorkStep}
    {statements : Db → Except Failure (α × Db)}
    (hcommit : ∀ db value after, statements db = .ok (value, after) →
      Effect db (label value) after) :
    (transaction label statements).Only Effect :=
  Call.only_transaction effect_other_refl hcommit

theorem commitProject_effect {project : Project} (hlive : project.deletedAt = none)
    (leadId : Uuid) : (transaction .createProject (commitProject project leadId)).Only Effect := by
  refine transaction_effect fun db created after hcommit ↦ ?_
  obtain ⟨rfl, hfresh, hkey, _, _, rfl⟩ := commitProject_ok hcommit
  exact ⟨hfresh, hlive, hkey hlive, _, _, rfl⟩

@[simp]
theorem incrementCounter_effect (projectId : Uuid) : (incrementCounter projectId).Only Effect :=
  transaction_effect fun _ _ _ hnext ↦ nextItemNumber_ok hnext

@[simp]
theorem insertTransition_effect (transition : WorkflowTransition) :
    (insertTransition transition).Only Effect := by
  refine transaction_effect fun db created after hcommit ↦ ?_
  obtain ⟨_, _, hrest⟩ := bind_eq_ok.mp hcommit
  obtain ⟨rfl, rfl⟩ := Prod.mk.inj (Except.ok.inj hrest)
  rfl

@[simp]
theorem commitWorkItem_effect (newItem : Uuid → Timestamp → WorkItem) (actorId : Uuid) :
    (transaction .createWorkItem (commitWorkItem newItem actorId)).Only Effect := by
  refine transaction_effect fun db created after hcommit ↦ ?_
  obtain ⟨_, hfresh, rfl⟩ := commitWorkItem_ok hcommit
  exact ⟨hfresh, _, _, _, rfl⟩

@[simp]
theorem commitUpdate_effect (actorId : Uuid) (item : WorkItem) (input : UpdateWorkItemInput) :
    (transaction (fun _ ↦ .updateWorkItem item input)
      (commitUpdate actorId item input)).Only Effect :=
  transaction_effect fun _ updated _ hcommit ↦ ⟨actorId, updated, hcommit⟩

theorem insertSprint_effect {sprint : Sprint} (hplanned : sprint.status = .planned) :
    (insertSprint sprint).Only Effect := by
  refine transaction_effect fun db created after hcommit ↦ ?_
  obtain ⟨_, hprimary, hrest⟩ := bind_eq_ok.mp hcommit
  obtain ⟨rfl, rfl⟩ := Prod.mk.inj (Except.ok.inj hrest)
  exact ⟨checkPrimaryKey_ok.mp hprimary, hplanned, rfl⟩

@[simp]
theorem softDeleteProject_effect (id : Uuid) : (softDeleteProject id).Only Effect := by
  simp [softDeleteProject, Effect]

@[simp]
theorem removeStatus_effect (id : Uuid) : (removeStatus id).Only Effect := by
  simp [removeStatus, Effect]

@[simp]
theorem removeTransition_effect (id : Uuid) : (removeTransition id).Only Effect := by
  simp [removeTransition, Effect]

@[simp]
theorem softDeleteWorkItem_effect (id : Uuid) : (softDeleteWorkItem id).Only Effect := by
  simp [softDeleteWorkItem, Effect]

@[simp]
theorem carryOver_effect (tenantId id : Uuid) (doneStatusIds : List Uuid)
    (moveToSprintId : Option Uuid) :
    (carryOver tenantId id doneStatusIds moveToSprintId).Only Effect := by
  simp only [carryOver, Call.only_atomically]
  exact fun db ↦ ⟨tenantId, doneStatusIds, rfl⟩

@[simp]
theorem updateSprintRow_effect (id : Uuid) (input : UpdateSprintInput) :
    (updateSprintRow id input).Only Effect := by
  simp only [updateSprintRow, Call.only_atomically]
  exact fun db ↦ ⟨input, rfl, rfl⟩

@[simp]
theorem removeSprint_effect (id : Uuid) : (removeSprint id).Only Effect := by
  simp [removeSprint, Effect]

/-! ### The calls -/

@[simp]
theorem createProject_effect (actor : Actor) (workspaceId : Uuid) (key name : String)
    (description : Option String) (leadId : Option Uuid) :
    (createProject actor workspaceId key name description leadId).Only Effect := by
  simp [createProject, findProjectByKey, findWorkspaceMember, commitProject_effect]

@[simp]
theorem deleteProject_effect (tenantId projectId : Uuid) :
    (deleteProject tenantId projectId).Only Effect := by
  simp [deleteProject, effect_of_reads]

@[simp]
theorem createStatus_effect (tenantId projectId : Uuid) (input : CreateWorkflowStatusInput) :
    (createStatus tenantId projectId input).Only Effect := by
  simp only [createStatus, Call.only_bind, effect_of_reads, getProject_reads, uuidv7_effect,
    listStatusesByProject, Call.only_query, effect_other_refl, implies_true, true_and]
  intro _ _ statuses _ id _
  refine transaction_effect fun db status after hcommit ↦ ?_
  obtain ⟨store, hstatus, hrest⟩ := bind_eq_ok.mp hcommit
  obtain ⟨rfl, rfl⟩ := Prod.mk.inj (Except.ok.inj hrest)
  exact insertStatus_ok hstatus

@[simp]
theorem deleteStatus_effect (tenantId projectId statusId : Uuid) :
    (deleteStatus tenantId projectId statusId).Only Effect := by
  simp [deleteStatus, findStatusById, effect_of_reads]

@[simp]
theorem createTransition_effect (tenantId projectId : Uuid)
    (input : CreateWorkflowTransitionInput) :
    (createTransition tenantId projectId input).Only Effect := by
  simp [createTransition, effect_of_reads]

@[simp]
theorem deleteTransition_effect (tenantId projectId transitionId : Uuid) :
    (deleteTransition tenantId projectId transitionId).Only Effect := by
  simp [deleteTransition, findTransitionById, effect_of_reads]

@[simp]
theorem generateItemKey_effect (tenantId projectId : Uuid) :
    (generateItemKey tenantId projectId).Only Effect := by
  simp [generateItemKey, effect_of_reads]

@[simp]
theorem createWorkItem_effect (actor : Actor) (projectId : Uuid) (type : WorkItemType)
    (title : String) (opts : CreateWorkItemOpts) :
    (createWorkItem actor projectId type title opts).Only Effect := by
  simp [createWorkItem, effect_of_reads]

@[simp]
theorem createTask_effect (actor : Actor) (parentId : Uuid) (title : String)
    (opts : CreateWorkItemOpts) : (createTask actor parentId title opts).Only Effect := by
  simp [createTask, effect_of_reads]

@[simp]
theorem updateWorkItem_effect (actor : Actor) (id : Uuid) (input : UpdateWorkItemInput) :
    (updateWorkItem actor id input).Only Effect := by
  simp [updateWorkItem, effect_of_reads]

@[simp]
theorem deleteWorkItem_effect (tenantId id : Uuid) :
    (deleteWorkItem tenantId id).Only Effect := by
  simp [deleteWorkItem, effect_of_reads]

@[simp]
theorem createSprint_effect (actor : Actor) (projectId : Uuid) (name : String)
    (opts : CreateSprintOpts) : (createSprint actor projectId name opts).Only Effect := by
  simp [createSprint, effect_of_reads, insertSprint_effect]

@[simp]
theorem startSprint_effect (tenantId id : Uuid) : (startSprint tenantId id).Only Effect := by
  simp [startSprint, findActive, effect_of_reads]

@[simp]
theorem completeSprint_effect (tenantId id : Uuid) (moveToSprintId : Option Uuid) :
    (completeSprint tenantId id moveToSprintId).Only Effect := by
  simp only [completeSprint, Call.only_bind, effect_of_reads, getSprint_reads, Call.only_ensure,
    assertSameProject_reads, findDoneStatusIds, Call.only_query, effect_other_refl, implies_true,
    true_and]
  intro sprint _ _ _ _ _ doneStatusIds _
  split_ifs <;> simp

@[simp]
theorem deleteSprint_effect (tenantId id : Uuid) : (deleteSprint tenantId id).Only Effect := by
  simp [deleteSprint, effect_of_reads]

/-- Every step of every call does what its label says. -/
theorem serve_effect (request : WorkRequest) : request.serve.Only Effect := by
  cases request <;> simp [WorkRequest.serve, moveWorkItem, tick, Effect]

/-! ### The steps of a call -/

/-- The steps a call that serves a request may take. -/
def WorkRequest.mayTake : WorkRequest → WorkStep → Bool
  | _, .other => true
  | .createProject .., .createProject _ => true
  | .deleteProject .., .deleteProject _ => true
  | .createStatus .., .createStatus _ => true
  | .deleteStatus .., .deleteStatus _ => true
  | .createTransition .., .createTransition _ => true
  | .deleteTransition .., .deleteTransition _ => true
  | .createWorkItem .., .incrementCounter .. => true
  | .createWorkItem .., .createWorkItem _ => true
  | .createTask .., .incrementCounter .. => true
  | .createTask .., .createWorkItem _ => true
  | .updateWorkItem .., .updateWorkItem .. => true
  | .moveWorkItem .., .updateWorkItem .. => true
  | .deleteWorkItem .., .deleteWorkItem _ => true
  | .createSprint .., .createSprint _ => true
  | .startSprint .., .updateSprint .. => true
  | .completeSprint .., .carryOver .. => true
  | .completeSprint .., .updateSprint .. => true
  | .deleteSprint .., .deleteSprint _ => true
  | _, _ => false

section Takes

variable {α : Type} {allowed : WorkStep → Bool}

theorem takes_of_reads {call : WorkCall α} (hother : allowed .other = true)
    (hcall : call.Only Reads) : call.Only fun _ label _ ↦ allowed label = true :=
  hcall.mono fun _ _ _ hreads ↦ hreads.1 ▸ hother

theorem transaction_takes {label : α → WorkStep} {statements : Db → Except Failure (α × Db)}
    (hother : allowed .other = true) (hlabel : ∀ value, allowed (label value) = true) :
    (transaction label statements).Only fun _ label _ ↦ allowed label = true :=
  Call.only_transaction (fun _ ↦ hother) fun _ value _ _ ↦ hlabel value

theorem createWorkItem_takes (hother : allowed .other = true)
    (hincrement : ∀ projectId seq, allowed (.incrementCounter projectId seq) = true)
    (hcreate : ∀ item, allowed (.createWorkItem item) = true) (actor : Actor) (projectId : Uuid)
    (type : WorkItemType) (title : String) (opts : CreateWorkItemOpts) :
    (createWorkItem actor projectId type title opts).Only fun _ label _ ↦ allowed label = true := by
  simp [createWorkItem, generateItemKey, incrementCounter, takes_of_reads, transaction_takes, hother,
    hincrement, hcreate]

theorem updateWorkItem_takes (hother : allowed .other = true)
    (hupdate : ∀ snapshot input, allowed (.updateWorkItem snapshot input) = true) (actor : Actor)
    (id : Uuid) (input : UpdateWorkItemInput) :
    (updateWorkItem actor id input).Only fun _ label _ ↦ allowed label = true := by
  simp [updateWorkItem, takes_of_reads, transaction_takes, hother, hupdate]

theorem completeSprint_takes (hother : allowed .other = true)
    (hcarryOver : ∀ sprintId target, allowed (.carryOver sprintId target) = true)
    (hupdate : ∀ id status, allowed (.updateSprint id status) = true) (tenantId id : Uuid)
    (moveToSprintId : Option Uuid) :
    (completeSprint tenantId id moveToSprintId).Only fun _ label _ ↦ allowed label = true := by
  simp [completeSprint, findDoneStatusIds, carryOver, updateSprintRow, takes_of_reads, hother,
    hcarryOver, hupdate, apply_ite]

end Takes

/-- Every step of a call is one it may take. -/
theorem serve_takes (request : WorkRequest) :
    request.serve.Only fun _ label _ ↦ request.mayTake label = true := by
  cases request <;>
    simp [WorkRequest.serve, takes_of_reads, transaction_takes, createWorkItem_takes,
      updateWorkItem_takes, completeSprint_takes, WorkRequest.mayTake, createProject,
      findProjectByKey, findWorkspaceMember, deleteProject, softDeleteProject, createStatus,
      listStatusesByProject, deleteStatus, findStatusById, removeStatus, createTransition,
      insertTransition, deleteTransition, findTransitionById, removeTransition, createTask,
      moveWorkItem, deleteWorkItem, softDeleteWorkItem, createSprint, insertSprint, startSprint,
      findActive, updateSprintRow, deleteSprint, removeSprint, uuidv7_eq, tick]

end RallyApi.Work

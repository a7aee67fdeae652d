import RallyApi.Work.Effects

/-!
# The rows the work services insert

Two facts about insertions that the labels of the steps do not tell: a new work item is in no sprint, and
the identifiers of the workflow statuses stay distinct, as their primary key has it.
-/

set_option autoImplicit false
set_option relaxedAutoImplicit false

namespace RallyApi.Work

open Concurrency Platform Store

/-! ### New items -/

/-- An item that the step creates is in no sprint. -/
def Unplanned (label : WorkStep) : Prop := ∀ item, label = .createWorkItem item → item.iterationId = none

theorem createWorkItem_unplanned (actor : Actor) (projectId : Uuid) (type : WorkItemType) (title : String)
    (opts : CreateWorkItemOpts) :
    (createWorkItem actor projectId type title opts).Only fun _ label _ ↦ Unplanned label := by
  have hreads : ∀ {α : Type} {call : WorkCall α}, call.Only Reads →
      call.Only fun _ label _ ↦ Unplanned label := fun hcall ↦
    hcall.mono fun _ _ _ hread item hcreates ↦ by cases hread.1.symm.trans hcreates
  have hincrement : (incrementCounter projectId).Only fun _ label _ ↦ Unplanned label :=
    Call.only_transaction (fun _ item hcreates ↦ by cases hcreates) fun _ _ _ _ item hcreates ↦ by
      cases hcreates
  have hkey : (generateItemKey actor.tenantId projectId).Only fun _ label _ ↦ Unplanned label := by
    simp [generateItemKey, hincrement, hreads]
  have hcommit : ∀ statusId itemKey, (transaction .createWorkItem (commitWorkItem
      (newWorkItem actor projectId type title opts statusId itemKey) actor.sub)).Only
      fun _ label _ ↦ Unplanned label := by
    intro statusId itemKey
    refine Call.only_transaction (fun _ item hcreates ↦ by cases hcreates) fun db created after hok ↦ ?_
    obtain ⟨rfl, _, _⟩ := commitWorkItem_ok hok
    intro item hcreates
    obtain rfl := WorkStep.createWorkItem.inj hcreates
    rfl
  simp [createWorkItem, hreads, hkey, hcommit]

/-- A new item is in no sprint, whichever call creates it. -/
theorem serve_unplanned (request : WorkRequest) :
    request.serve.Only fun _ label _ ↦ Unplanned label := by
  cases request with
  | createWorkItem actor projectId type title opts =>
    exact Call.only_map (createWorkItem_unplanned actor projectId type title opts)
  | createTask actor parentId title opts =>
    refine Call.only_map (Call.only_bind.mpr ⟨?_, fun parent _ ↦ ?_⟩)
    · exact (getWorkItem_reads _ _).mono fun _ _ _ hread item hcreates ↦ by
        cases hread.1.symm.trans hcreates
    · exact Call.only_bind.mpr ⟨Call.only_ensure _ _, fun _ _ ↦ createWorkItem_unplanned _ _ _ _ _⟩
  | _ =>
    refine (serve_takes _).mono fun _ label _ htakes item hcreates ↦ ?_
    rw [hcreates] at htakes
    cases htakes

/-! ### The identifiers of statuses -/

/-- Distinct identifiers of statuses stay distinct. -/
def KeepsStatusIds (db after : Db) : Prop :=
  (db.workflowStatuses.map WorkflowStatus.id).Nodup → (after.workflowStatuses.map WorkflowStatus.id).Nodup

variable {db after : Db} {label : WorkStep}

theorem keepsStatusIds_insertStatus {status : WorkflowStatus}
    (hinsert : insertStatus status db = .ok after) : KeepsStatusIds db after := by
  intro hids
  obtain ⟨_, hprimary, _⟩ := bind_eq_ok.mp hinsert
  rw [insertStatus_ok hinsert]
  exact nodup_map_append_singleton hids (checkPrimaryKey_ok.mp hprimary)

/-- By induction on the statuses that are inserted. -/
theorem keepsStatusIds_insertStatuses {statuses : List WorkflowStatus}
    (hinsert : statuses.foldlM (fun store status ↦ insertStatus status store) db = .ok after) :
    KeepsStatusIds db after := by
  induction statuses generalizing db with
  | nil =>
    obtain rfl := Except.ok.inj hinsert
    exact id
  | cons status rest ih =>
    rw [List.foldlM_cons] at hinsert
    obtain ⟨middle, hstatus, hrest⟩ := bind_eq_ok.mp hinsert
    exact ih hrest ∘ keepsStatusIds_insertStatus hstatus

theorem keepsStatusIds_commitProject {project created : Project} {leadId : Uuid}
    (hcommit : commitProject project leadId db = .ok (created, after)) : KeepsStatusIds db after := by
  obtain ⟨withProject, hproject, hmembers⟩ := bind_eq_ok.mp hcommit
  obtain ⟨withMember, hmember, hstatuses⟩ := bind_eq_ok.mp hmembers
  obtain ⟨withStatuses, hinserted, hcreated⟩ := bind_eq_ok.mp hstatuses
  obtain ⟨_, _, rfl⟩ := insertProject_ok hproject
  obtain rfl := addProjectMember_ok hmember
  obtain ⟨_, rfl⟩ := Prod.mk.inj (Except.ok.inj hcreated)
  have hkeeps := keepsStatusIds_insertStatuses hinserted
  exact fun hids ↦ hkeeps hids

/-- A step that inserts no status leaves no other identifiers than there were. -/
theorem Effect.keepsStatusIds (heffect : Effect db label after)
    (hproject : ∀ project, label ≠ .createProject project)
    (hstatus : ∀ status, label ≠ .createStatus status) : KeepsStatusIds db after := by
  intro hids
  by_cases hwrites : .workflowStatuses ∈ label.writes
  · cases label <;> simp [WorkStep.writes] at hwrites hproject hstatus
    case deleteStatus id =>
      obtain rfl := heffect
      exact hids.sublist (List.filter_sublist.map _)
  · rwa [heffect.frame.workflowStatuses hwrites]

/-- The identifiers of the statuses stay distinct, whatever is called. -/
theorem serve_keepsStatusIds (request : WorkRequest) :
    request.serve.Only fun db _ after ↦ KeepsStatusIds db after := by
  have hsame : ∀ db : Db, KeepsStatusIds db db := fun _ hids ↦ hids
  cases request with
  | createProject actor workspaceId key name description leadId =>
    have hcommit : ∀ project : Project, ∀ leadId, (transaction .createProject
        (commitProject project leadId)).Only fun db _ after ↦ KeepsStatusIds db after :=
      fun _ _ ↦ Call.only_transaction hsame fun _ _ _ hok ↦ keepsStatusIds_commitProject hok
    have huuid : uuidv7.Only fun db _ after ↦ KeepsStatusIds db after := by
      simp [uuidv7_eq, KeepsStatusIds]
    refine Call.only_map ?_
    simp [createProject, findProjectByKey, findWorkspaceMember, hcommit, huuid, hsame]
  | createStatus tenantId projectId input =>
    have hreads : (getProject tenantId projectId).Only fun db _ after ↦ KeepsStatusIds db after :=
      (getProject_reads _ _).mono fun _ _ _ hread ↦ hread.2 ▸ hsame _
    refine Call.only_map ?_
    simp only [createStatus, Call.only_bind, hreads, listStatusesByProject, Call.only_query, hsame,
      uuidv7_eq, Call.only_atomically, implies_true, true_and]
    refine fun _ _ _ _ ↦ ⟨fun _ ↦ id, fun _ _ ↦ Call.only_transaction hsame fun _ _ _ hok ↦ ?_⟩
    obtain ⟨store, hstatus, hrest⟩ := bind_eq_ok.mp hok
    obtain ⟨_, rfl⟩ := Prod.mk.inj (Except.ok.inj hrest)
    exact keepsStatusIds_insertStatus hstatus
  | _ =>
    refine ((serve_effect _).and (serve_takes _)).mono fun _ label _ hstep ↦ ?_
    refine hstep.1.keepsStatusIds ?_ ?_ <;> rintro _ rfl <;> cases hstep.2

end RallyApi.Work

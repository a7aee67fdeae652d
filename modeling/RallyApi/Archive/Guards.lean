import RallyApi.Archive.Contents

/-!
# The operations that look at the status of a project

Of all that writes to a project only `updateProject`, `createWorkItem` and `createTask` look at its status
first. `MayStep` says what the steps of the system may do, with what has to come before the writes of these
three, and `serve_meets` that every call keeps to it.
-/

set_option autoImplicit false
set_option relaxedAutoImplicit false

namespace RallyApi.Archive

open Concurrency Protocol Platform Store Work
open TimeLogs (TimeLogStep TimeLogRequest TimeLogCall)

/-! ### The steps of the time logs -/

section TimeLogCalls

variable {α : Type}

theorem timeLog_ofWork_effect {call : WorkCall α} (hcall : call.Only Reads) :
    (TimeLogs.ofWork call).Only TimeLogEffect :=
  hcall.within fun db _ _ hreads ↦ ⟨db.work.now, hreads.2⟩

theorem timeLogEffect_of_work {db after : TimeLogs.Db} {label : TimeLogStep}
    (hlabel : ∀ workItemId, label ≠ .commit workItemId) (hwork : after.work = db.work) :
    TimeLogEffect db label after := by
  cases label
  case commit workItemId => exact absurd rfl (hlabel workItemId)
  all_goals exact ⟨db.work.now, hwork⟩

/-- One step that leaves the work store alone. -/
theorem timeLogStep_effect {label : TimeLogs.Db → TimeLogStep} {statement : TimeLogs.Db → α × TimeLogs.Db}
    (hlabel : ∀ db workItemId, label db ≠ .commit workItemId)
    (hwork : ∀ db, (statement db).2.work = db.work) :
    (Call.atomically label statement : TimeLogCall α).Only TimeLogEffect :=
  (Call.only_atomically _ _).mpr fun db ↦ timeLogEffect_of_work (hlabel db) (hwork db)

theorem timeLogQuery_effect (label : TimeLogStep) (read : TimeLogs.Db → α)
    (hlabel : ∀ workItemId, label ≠ .commit workItemId) :
    (Call.query label read : TimeLogCall α).Only TimeLogEffect :=
  (Call.only_query _ _).mpr fun _ ↦ timeLogEffect_of_work hlabel rfl

theorem rollback_effect (write : TimeLogs.LogWrite) : (TimeLogs.rollback write).Only TimeLogEffect :=
  timeLogStep_effect (by simp) fun _ ↦ rfl

theorem syncActualHours_effect (commits : Bool) (write : TimeLogs.LogWrite) :
    (TimeLogs.syncActualHours commits write).Only TimeLogEffect := by
  refine Call.only_bind.mpr ⟨timeLogQuery_effect _ _ (by simp), fun total _ ↦ ?_⟩
  split_ifs
  · exact Call.only_bind.mpr ⟨rollback_effect write, fun _ _ ↦ trivial⟩
  · refine Call.only_bind.mpr ⟨timeLogStep_effect (by simp) fun _ ↦ rfl, fun _ _ ↦ ?_⟩
    exact (Call.only_atomically _ _).mpr fun _ ↦ ⟨total, rfl⟩
  · refine Call.only_bind.mpr ⟨timeLogStep_effect (by simp) fun _ ↦ rfl, fun _ _ ↦ ?_⟩
    exact Call.only_bind.mpr ⟨timeLogStep_effect (by simp) fun _ ↦ rfl, fun _ _ ↦ trivial⟩

theorem updateLocked_effect (commits : Bool) (columns : TimeLogs.LogColumns) (log : CrossTenant.TimeLog) :
    (TimeLogs.updateLocked commits columns log).Only TimeLogEffect := by
  unfold TimeLogs.updateLocked
  split_ifs
  · exact syncActualHours_effect _ _
  · exact timeLogStep_effect (by simp) fun _ ↦ rfl
  · exact Call.only_bind.mpr ⟨rollback_effect _, fun _ _ ↦ trivial⟩
  · exact Call.only_bind.mpr ⟨rollback_effect _, fun _ _ ↦ trivial⟩

theorem updateLog_effect (commits : Bool) (id : Uuid) (columns : TimeLogs.LogColumns) :
    (TimeLogs.updateLog commits id columns).Only TimeLogEffect := by
  refine Call.only_bind.mpr ⟨timeLogStep_effect (by simp) fun _ ↦ rfl, fun found _ ↦ ?_⟩
  cases found with
  | none => exact Call.only_bind.mpr ⟨rollback_effect _, fun _ _ ↦ trivial⟩
  | some log => exact Call.only_bind.mpr ⟨updateLocked_effect _ _ _, fun _ _ ↦ trivial⟩

theorem findLog_effect (actor : Actor) (workItemId logId : Uuid) :
    (TimeLogs.findLog actor workItemId logId).Only TimeLogEffect :=
  Call.only_bind.mpr ⟨timeLogQuery_effect _ _ (by simp), fun _ _ ↦ Call.only_require _ _⟩

/-- Every step of the time logs does what its label says. -/
theorem timeLog_serve_effect (request : TimeLogRequest) : request.serve.Only TimeLogEffect := by
  have hitem : ∀ tenantId workItemId,
      (TimeLogs.ofWork (getWorkItem tenantId workItemId)).Only TimeLogEffect :=
    fun tenantId workItemId ↦ timeLog_ofWork_effect (getWorkItem_reads tenantId workItemId)
  cases request with
  | logTime commits actor workItemId input =>
    refine Call.only_map (Call.only_bind.mpr ⟨hitem _ _, fun _ _ ↦ ?_⟩)
    refine Call.only_bind.mpr ⟨timeLogStep_effect (by simp) fun _ ↦ rfl, fun log _ ↦ ?_⟩
    refine Call.only_bind.mpr ⟨Call.only_ensure _ _, fun _ _ ↦ ?_⟩
    exact Call.only_bind.mpr ⟨syncActualHours_effect _ _, fun _ _ ↦ trivial⟩
  | updateTimeLog commits actor workItemId logId input =>
    refine Call.only_map (Call.only_bind.mpr ⟨hitem _ _, fun _ _ ↦ ?_⟩)
    refine Call.only_bind.mpr ⟨findLog_effect _ _ _, fun log _ ↦ ?_⟩
    exact Call.only_bind.mpr ⟨Call.only_ensure _ _, fun _ _ ↦ updateLog_effect _ _ _⟩
  | deleteTimeLog commits actor isAdmin workItemId logId =>
    refine Call.only_bind.mpr ⟨hitem _ _, fun _ _ ↦ ?_⟩
    refine Call.only_bind.mpr ⟨findLog_effect _ _ _, fun log _ ↦ ?_⟩
    refine Call.only_bind.mpr ⟨Call.only_ensure _ _, fun _ _ ↦ ?_⟩
    refine Call.only_bind.mpr ⟨timeLogQuery_effect _ _ (by simp), fun now _ ↦ ?_⟩
    exact Call.only_bind.mpr ⟨updateLog_effect _ _ _, fun _ _ ↦ trivial⟩
  | tick microseconds => exact (Call.only_atomically _ _).mpr fun _ ↦ ⟨_, rfl⟩

end TimeLogCalls

/-! ### The operations that look at the status -/

/-- The writes of `updateProject`, `createWorkItem` and `createTask`. -/
def ArchiveStep.checked : ArchiveStep → Bool
  | .updateProject .. => true
  | .work (.createWorkItem _) => true
  | _ => false

/-- The step restores the project. -/
def ArchiveStep.restores (projectId : Uuid) : ArchiveStep → Bool
  | .updateProject id input => id = projectId ∧ input.status = some .active
  | _ => false

/-- A step of another operation does what it says. -/
def Unchecked (db : Db) (step : ArchiveStep) (after : Db) : Prop :=
  Effect db step after ∧ step.checked = false

section Calls

variable {α : Type}

@[simp]
theorem effect_other_refl (db : Db) : Effect db .other db := ⟨id, rfl⟩

@[simp]
theorem unchecked_other (db : Db) : Unchecked db .other db := ⟨effect_other_refl db, rfl⟩

theorem ofWork_unchecked {call : WorkCall α} (hcall : call.Only Work.Effect)
    (hlabel : call.Only fun _ label _ ↦ ∀ item, label ≠ .createWorkItem item) :
    (ofWork call).Only Unchecked := by
  refine (hcall.and hlabel).within fun db label after hstep ↦ ⟨⟨after, hstep.1, rfl⟩, ?_⟩
  cases label with
  | createWorkItem item => exact absurd rfl (hstep.2 item)
  | _ => rfl

@[simp]
theorem ofWork_reads {call : WorkCall α} (hcall : call.Only Reads) : (ofWork call).Only Unchecked :=
  ofWork_unchecked (effect_of_reads hcall) (hcall.mono fun _ _ _ hreads _ ↦ by simp [hreads.1])

@[simp]
theorem ofWork_uuidv7 : (ofWork uuidv7).Only Unchecked :=
  ofWork_unchecked uuidv7_effect (by simp [uuidv7_eq])

theorem transaction_unchecked {step : α → ArchiveStep} {statements : Db → Except Failure (α × Db)}
    (hcommit : ∀ db value after, statements db = .ok (value, after) →
      Unchecked db (step value) after) :
    (Call.transaction .other step statements).Only Unchecked :=
  Call.only_transaction unchecked_other hcommit

theorem reorderStatuses_unchecked (tenantId projectId : Uuid) (orderedIds : List Uuid) :
    (reorderStatuses tenantId projectId orderedIds).Only Unchecked := by
  refine Call.only_bind.mpr ⟨ofWork_reads (getProject_reads _ _), fun _ _ ↦ ?_⟩
  split_ifs
  · trivial
  · exact (Call.only_atomically _ _).mpr fun _ ↦ ⟨rfl, rfl⟩

theorem reorderWorkItems_unchecked (faults : ℕ → Option Failure) (tenantId : Uuid)
    (items : List (Uuid × String)) : (reorderWorkItems faults tenantId items).Only Unchecked := by
  unfold reorderWorkItems
  split_ifs
  · trivial
  · refine Call.only_bind.mpr ⟨ofWork_reads (assertWorkItems_reads _ _), fun _ _ ↦ ?_⟩
    refine transaction_unchecked fun db _ after hcommit ↦ ⟨⟨items, rfl, ?_⟩, rfl⟩
    obtain ⟨work, hreordered, hrest⟩ := bind_eq_ok.mp hcommit
    obtain rfl := eq_withRanks_of_reorderItems hreordered
    exact (Prod.mk.inj (Except.ok.inj hrest)).2.symm

theorem getLabel_unchecked (tenantId projectId labelId : Uuid) :
    (getLabel tenantId projectId labelId).Only Unchecked := by
  simp [getLabel, findLabelById]

theorem createLabel_unchecked (tenantId projectId : Uuid) (name : String) (color : Option String) :
    (createLabel tenantId projectId name color).Only Unchecked := by
  refine Call.only_bind.mpr ⟨ofWork_reads (getProject_reads _ _), fun _ _ ↦ ?_⟩
  refine Call.only_bind.mpr ⟨ofWork_uuidv7, fun _ _ ↦ ?_⟩
  refine transaction_unchecked fun db label after hcommit ↦ ?_
  obtain ⟨_, _, hrest⟩ := bind_eq_ok.mp hcommit
  split_ifs at hrest
  obtain ⟨rfl, rfl⟩ := Prod.mk.inj (Except.ok.inj hrest)
  exact ⟨rfl, rfl⟩

theorem updateLabel_unchecked (tenantId projectId labelId : Uuid) (input : UpdateLabelInput) :
    (updateLabel tenantId projectId labelId input).Only Unchecked := by
  refine Call.only_bind.mpr ⟨ofWork_reads (getProject_reads _ _), fun _ _ ↦ ?_⟩
  refine Call.only_bind.mpr ⟨getLabel_unchecked _ _ _, fun _ _ ↦ ?_⟩
  refine transaction_unchecked fun db label after hcommit ↦ ?_
  dsimp only at hcommit
  split_ifs at hcommit
  obtain ⟨_, rfl⟩ := Prod.mk.inj (Except.ok.inj hcommit)
  exact ⟨⟨input, rfl⟩, rfl⟩

theorem deleteLabel_unchecked (tenantId projectId labelId : Uuid) :
    (deleteLabel tenantId projectId labelId).Only Unchecked := by
  refine Call.only_bind.mpr ⟨ofWork_reads (getProject_reads _ _), fun _ _ ↦ ?_⟩
  refine Call.only_bind.mpr ⟨getLabel_unchecked _ _ _, fun _ _ ↦ ?_⟩
  exact (Call.only_atomically _ _).mpr fun _ ↦ ⟨rfl, rfl⟩

theorem addLabelToWorkItem_unchecked (tenantId id labelId : Uuid) :
    (addLabelToWorkItem tenantId id labelId).Only Unchecked := by
  refine Call.only_bind.mpr ⟨ofWork_reads (getWorkItem_reads _ _), fun _ _ ↦ ?_⟩
  refine Call.only_bind.mpr ⟨by simp [assertLabelBelongsToProject, findLabelById], fun _ _ ↦ ?_⟩
  exact (Call.only_atomically _ _).mpr fun _ ↦ ⟨rfl, rfl⟩

theorem removeLabelFromWorkItem_unchecked (tenantId id labelId : Uuid) :
    (removeLabelFromWorkItem tenantId id labelId).Only Unchecked := by
  refine Call.only_bind.mpr ⟨ofWork_reads (getWorkItem_reads _ _), fun _ _ ↦ ?_⟩
  exact (Call.only_atomically _ _).mpr fun _ ↦ ⟨rfl, rfl⟩

theorem updateSprint_unchecked (tenantId id : Uuid) (input : SprintColumns) :
    (updateSprint tenantId id input).Only Unchecked := by
  refine Call.only_bind.mpr ⟨ofWork_reads (getSprint_reads _ _), fun _ _ ↦ ?_⟩
  exact (Call.only_atomically _ _).mpr fun _ ↦ ⟨⟨input, rfl⟩, rfl⟩

theorem timeLog_unchecked (request : TimeLogRequest) :
    (request.serve.within timeLogPart ArchiveStep.timeLog).Only Unchecked :=
  (timeLog_serve_effect request).within fun _ _ after heffect ↦ ⟨⟨after, heffect, rfl⟩, rfl⟩

/-- The checks of `updateProject` after the one on the status. -/
theorem assertMayChangeStatus_unchecked (actor : Actor) (projectId : Uuid) (status : ProjectStatus)
    (requested : Option ProjectStatus) :
    (assertMayChangeStatus actor projectId status requested).Only Unchecked := by
  unfold assertMayChangeStatus
  split_ifs
  · simp [findMember]
  · trivial

theorem assertLead_unchecked (workspaceId : Uuid) (leadId : Option (Option Uuid)) :
    (assertLead workspaceId leadId).Only Unchecked := by
  unfold assertLead
  cases leadId.join with
  | none => trivial
  | some leadId => simp [findWorkspaceMember]

end Calls

/-! ### What a step may do -/

/-- A history with the stores. -/
abbrev ArchiveLog := RecordedLog Db ArchiveStep

/-- The call has found the project not archived, at one of its steps. -/
def FoundOpen (number : ℕ) (projectId : Uuid) : ArchiveLog → Prop :=
  Found number fun db ↦ db.archived projectId = false

/-- What a step may do, given the history before it: what its label says, and where its operation looks at
the status, a write to a project that it does not restore comes after a step that has found the project not
archived. -/
structure MayStep (earlier : ArchiveLog) (number : ℕ) (step : RecordedStep Db ArchiveStep) (after : Db) :
    Prop where
  effect : Effect step.found step.label after
  guarded : step.label.checked = true → ∀ projectId ∈ step.label.writes step.found,
    step.label.restores projectId = true ∨ FoundOpen number projectId earlier

variable {number : ℕ} {past : ArchiveLog → Prop}

/-- An operation that does not look at the status. -/
theorem meets_unchecked {α : Type} {call : ArchiveCall α} (hcall : call.Only Unchecked)
    (hpast : Lasting past) :
    (recording MayStep).Meets number call.recorded (fun world ↦ past world.log)
      fun _ world ↦ past world.log :=
  meets_recorded hcall hpast fun _ _ _ _ _ hstep ↦
    ⟨hstep.1, fun hchecked ↦ absurd (hstep.2.symm.trans hchecked) Bool.false_ne_true⟩

/-- A step of an operation that looks at the status of the project: it does what it says, and if it is the
write that the operation checks, it is to that project and restores it if it is meant to. -/
def ChecksFor (projectId : Uuid) (restoring : Prop) (db : Db) (step : ArchiveStep) (after : Db) : Prop :=
  Effect db step after ∧ (step.checked = true → step.writes db = [projectId] ∧
    (restoring → step.restores projectId = true))

theorem Unchecked.checksFor {projectId : Uuid} {restoring : Prop} {db after : Db} {step : ArchiveStep}
    (hstep : Unchecked db step after) : ChecksFor projectId restoring db step after :=
  ⟨hstep.1, fun hchecked ↦ absurd (hstep.2.symm.trans hchecked) Bool.false_ne_true⟩

/-- Such an operation, once it is to restore the project or has found it not archived. -/
theorem meets_guarded {α : Type} {call : ArchiveCall α} {projectId : Uuid} {restoring : Prop}
    (hcall : call.Only (ChecksFor projectId restoring)) :
    (recording MayStep).Meets number call.recorded
      (fun world ↦ restoring ∨ FoundOpen number projectId world.log) fun _ _ ↦ True := by
  have hpast : Lasting fun log : ArchiveLog ↦ restoring ∨ FoundOpen number projectId log :=
    fun entry log hknown ↦ hknown.imp_right (lasting_found _ _ entry log)
  refine (meets_recorded hcall hpast fun log db step after hknown hstep ↦
    ⟨hstep.1, fun hchecked written hwritten ↦ ?_⟩).conseq (fun _ _ h ↦ h) fun _ _ _ _ ↦ trivial
  obtain ⟨hwrites, hrestores⟩ := hstep.2 hchecked
  rw [hwrites] at hwritten
  obtain rfl := List.mem_singleton.mp hwritten
  exact hknown.imp_left hrestores

/-- Whether the project is archived is read off its row. -/
theorem archived_eq (db : Db) (projectId : Uuid) : db.archived projectId =
    (db.work.projects.find? fun project ↦ project.id = projectId).any
      fun project ↦ project.status = .archived := by
  rw [Db.archived, Contents.archived, Db.contents, ownedBy, List.head?_filter]

/-- A project that is not archived as the call reads it was found so. -/
theorem getProject_finds (tenantId projectId : Uuid) :
    (recording MayStep).Meets number (ofWork (getProject tenantId projectId)).recorded (fun _ ↦ True)
      fun project world ↦ project.status ≠ .archived → FoundOpen number projectId world.log := by
  have hfind : (recording MayStep).Meets number (ofWork (findProjectById projectId)).recorded
      (fun _ ↦ True) fun found world ↦ ∀ project, found = some project → project.status ≠ .archived →
        FoundOpen number projectId world.log := by
    rw [ofWork, findProjectById, Call.within_query]
    refine (meets_recorded_query lasting_true fun log db _ ↦ ?_).conseq (fun _ _ h ↦ h) ?_
    · exact ⟨⟨db.work, Work.effect_other_refl _, rfl⟩, fun hchecked ↦ by cases hchecked⟩
    · rintro found world - ⟨entry, hentry, hnumber, hread⟩ project rfl hopen
      have hstatus : Option.any (fun project ↦ decide (project.status = .archived))
          (entry.2.found.work.projects.find? fun project ↦ project.id = projectId) = false :=
        (congrArg (Option.any _) hread).trans (decide_eq_false hopen)
      exact ⟨entry, hentry, hnumber, (archived_eq _ _).trans hstatus⟩
  rw [ofWork, getProject, Call.within_bind, Call.recorded_bind]
  refine hfind.bind fun found _ ↦ ?_
  rw [Call.within_bind, Call.within_require, Call.recorded_bind, Call.recorded_require]
  refine meets_require.bind fun project _ ↦ ?_
  rw [Call.within_bind, Call.within_ensure, Call.recorded_bind, Call.recorded_ensure]
  refine meets_ensure.bind fun _ _ ↦ ?_
  exact meets_pure fun _ _ hknown ↦ hknown.1.1 project hknown.1.2

/-- `updateProject` writes once it has found the project not archived, or is to restore it. -/
theorem updateProject_meets (actor : Actor) (projectId : Uuid) (input : UpdateProjectInput) :
    (recording MayStep).Meets number (updateProject actor projectId input).recorded (fun _ ↦ True)
      fun _ _ ↦ True := by
  rw [updateProject, Call.recorded_bind]
  refine (getProject_finds actor.tenantId projectId).bind fun project _ ↦ ?_
  rw [Call.recorded_bind, Call.recorded_ensure]
  refine meets_ensure.bind fun _ _ ↦ ?_
  have hrest : ∀ workspaceId status, (do
      assertMayChangeStatus actor projectId status input.status
      assertLead workspaceId input.leadId
      updateProjectRow projectId input).Only
        (ChecksFor projectId (input.status = some ProjectStatus.active)) := by
    intro workspaceId status
    refine Call.only_bind.mpr ⟨(assertMayChangeStatus_unchecked _ _ _ _).mono
      fun _ _ _ hstep ↦ hstep.checksFor, fun _ _ ↦ ?_⟩
    refine Call.only_bind.mpr ⟨(assertLead_unchecked _ _).mono
      fun _ _ _ hstep ↦ hstep.checksFor, fun _ _ ↦ ?_⟩
    exact (Call.only_atomically _ _).mpr fun db ↦
      ⟨rfl, fun _ ↦ ⟨rfl, fun hactive ↦ decide_eq_true ⟨rfl, hactive⟩⟩⟩
  refine (meets_guarded (hrest project.workspaceId project.status)).strengthen ?_
  rintro world - ⟨hfound, hopen | hactive⟩
  · exact .inr (hfound hopen)
  · exact .inl hactive

/-- A call of the work services that first reads. -/
theorem meets_after_reads {α β : Type} {call : WorkCall α} {rest : α → WorkCall β}
    {post : β → World Db (RecordedStep Db ArchiveStep) → Prop} (hcall : call.Only Reads)
    (hrest : ∀ value, (recording MayStep).Meets number (ofWork (rest value)).recorded
      (fun _ ↦ True) post) :
    (recording MayStep).Meets number (ofWork (call >>= rest)).recorded (fun _ ↦ True) post := by
  rw [ofWork, Call.within_bind, Call.recorded_bind]
  exact (meets_unchecked (ofWork_reads hcall) lasting_true).bind fun value _ ↦ hrest value

/-- A number is only handed out once the project has been found not archived. -/
theorem generateItemKey_meets (tenantId projectId : Uuid) :
    (recording MayStep).Meets number (ofWork (generateItemKey tenantId projectId)).recorded
      (fun _ ↦ True) fun _ world ↦ FoundOpen number projectId world.log := by
  rw [ofWork, generateItemKey, Call.within_bind, Call.recorded_bind]
  refine (getProject_finds tenantId projectId).bind fun project _ ↦ ?_
  rw [Call.within_bind, Call.within_ensure, Call.recorded_bind, Call.recorded_ensure]
  refine meets_ensure.bind fun _ _ ↦ ?_
  rw [Call.within_bind, Call.recorded_bind]
  have hincrement : (ofWork (incrementCounter projectId)).Only Unchecked :=
    ofWork_unchecked (incrementCounter_effect projectId)
      (Call.only_transaction (by simp) fun _ _ _ _ ↦ by simp)
  refine Meets.bind ((meets_unchecked hincrement (lasting_found _ _)).strengthen
    fun _ _ hknown ↦ hknown.1 hknown.2) fun seq _ ↦ ?_
  exact meets_pure fun _ _ hfound ↦ hfound

/-- The insertion of a work item into the project. -/
theorem commitWorkItem_checksFor {newItem : Uuid → Timestamp → WorkItem} {actorId projectId : Uuid}
    (hproject : ∀ id createdAt, (newItem id createdAt).projectId = projectId) :
    (ofWork (transaction .createWorkItem (commitWorkItem newItem actorId))).Only
      (ChecksFor projectId False) := by
  have hlabel : (transaction WorkStep.createWorkItem (commitWorkItem newItem actorId)).Only
      fun _ label _ ↦ ∀ item, label = .createWorkItem item → item.projectId = projectId := by
    refine Call.only_transaction (by simp) ?_
    rintro db created after hcommit item ⟨⟩
    rw [(commitWorkItem_ok hcommit).1]
    exact hproject _ _
  refine ((commitWorkItem_effect newItem actorId).and hlabel).within fun db label after hstep ↦
    ⟨⟨after, hstep.1, rfl⟩, fun hchecked ↦ ⟨?_, False.elim⟩⟩
  cases label with
  | createWorkItem item => exact congrArg (fun id ↦ [id]) (hstep.2 item rfl)
  | _ => cases hchecked

/-- `createWorkItem` writes once it has an item key. -/
theorem createWorkItem_meets (actor : Actor) (projectId : Uuid) (type : WorkItemType) (title : String)
    (opts : CreateWorkItemOpts) :
    (recording MayStep).Meets number
      (ofWork (createWorkItem actor projectId type title opts)).recorded (fun _ ↦ True)
      fun _ _ ↦ True := by
  refine meets_after_reads (getProject_reads _ _) fun project ↦ ?_
  refine meets_after_reads (whenPresent_reads _ (by simp)) fun _ ↦ ?_
  refine meets_after_reads (whenPresent_reads _ (by simp)) fun _ ↦ ?_
  refine meets_after_reads (resolveStatusId_reads _ _ _) fun statusId ↦ ?_
  refine meets_after_reads (whenPresent_reads _ (by simp)) fun _ ↦ ?_
  rw [ofWork, Call.within_bind, Call.recorded_bind]
  refine (generateItemKey_meets actor.tenantId projectId).bind fun itemKey _ ↦ ?_
  have hcommit : (ofWork (transaction .createWorkItem (commitWorkItem
      (newWorkItem actor projectId type title opts statusId itemKey) actor.sub))).Only
        (ChecksFor projectId False) := commitWorkItem_checksFor fun _ _ ↦ rfl
  exact (meets_guarded hcommit).strengthen fun _ _ hfound ↦ .inr hfound

theorem createTask_meets (actor : Actor) (parentId : Uuid) (title : String) (opts : CreateWorkItemOpts) :
    (recording MayStep).Meets number (ofWork (createTask actor parentId title opts)).recorded
      (fun _ ↦ True) fun _ _ ↦ True := by
  refine meets_after_reads (getWorkItem_reads _ _) fun parent ↦ ?_
  refine meets_after_reads (Call.only_ensure _ _) fun _ ↦ ?_
  exact createWorkItem_meets _ _ _ _ _

/-- Every operation of the work services does what it may. -/
theorem work_serve_meets (request : WorkRequest) :
    (recording MayStep).Meets number (ofWork request.serve).recorded (fun _ ↦ True) fun _ _ ↦ True := by
  cases request with
  | createWorkItem actor projectId type title opts =>
    rw [WorkRequest.serve, ofWork, Call.within_map, Call.recorded, Call.traced_map]
    exact (createWorkItem_meets actor projectId type title opts).map
  | createTask actor parentId title opts =>
    rw [WorkRequest.serve, ofWork, Call.within_map, Call.recorded, Call.traced_map]
    exact (createTask_meets actor parentId title opts).map
  | _ =>
    refine meets_unchecked (ofWork_unchecked (serve_effect _) ((serve_takes _).mono ?_)) lasting_true
    rintro db label after htakes item rfl
    exact Bool.noConfusion htakes

/-- Every operation does what it may. -/
theorem serve_meets (request : ArchiveRequest) :
    (recording MayStep).Meets number request.serve.recorded (fun _ ↦ True) fun _ _ ↦ True := by
  have hunchecked : ∀ {call : ArchiveCall Unit}, call.Only Unchecked →
      (recording MayStep).Meets number call.recorded (fun _ ↦ True) fun _ _ ↦ True :=
    fun hcall ↦ meets_unchecked hcall lasting_true
  cases request with
  | work request => exact work_serve_meets request
  | timeLog request => exact hunchecked (timeLog_unchecked request)
  | updateProject actor projectId input =>
    rw [ArchiveRequest.serve, Call.recorded, Call.traced_map]
    exact (updateProject_meets actor projectId input).map
  | reorderStatuses tenantId projectId orderedIds => exact hunchecked (reorderStatuses_unchecked _ _ _)
  | reorderWorkItems faults tenantId items => exact hunchecked (reorderWorkItems_unchecked _ _ _)
  | createLabel tenantId projectId name color =>
    exact hunchecked (Call.only_map (createLabel_unchecked _ _ _ _))
  | updateLabel tenantId projectId labelId input =>
    exact hunchecked (Call.only_map (updateLabel_unchecked _ _ _ _))
  | deleteLabel tenantId projectId labelId => exact hunchecked (deleteLabel_unchecked _ _ _)
  | addLabelToWorkItem tenantId id labelId => exact hunchecked (addLabelToWorkItem_unchecked _ _ _)
  | removeLabelFromWorkItem tenantId id labelId =>
    exact hunchecked (removeLabelFromWorkItem_unchecked _ _ _)
  | updateSprint tenantId id input => exact hunchecked (Call.only_map (updateSprint_unchecked _ _ _))
  | changeMemberships change =>
    exact hunchecked ((Call.only_atomically _ _).mpr fun _ ↦ ⟨⟨change, rfl⟩, rfl⟩)

end RallyApi.Archive

import RallyApi.Store.MarkedRow
import RallyApi.Work.ProjectCreation
import RallyApi.Work.Reordering

/-!
# The default status of a project

`resolveStatusId` takes the first default status of the list, or the first status where there is no
default; `findDefault` returns any default status, or `null`. A new project has one default status.
`createStatus` stores a further default next to it, and `deleteStatus` deletes the default without
choosing another.

`defaultsAgree_iff`: the two lookups agree in every store that a list of requests reaches exactly if every
new status is a default exactly where the project has none, and no default is deleted before the other
statuses.
-/

set_option autoImplicit false
set_option relaxedAutoImplicit false

namespace RallyApi.Work

open Concurrency Platform Store

variable {db after : Db} {tenantId projectId statusId : Uuid} {label : WorkStep}

/-! ### The two lookups -/

/-- The statuses of a project, as they are stored. -/
def statusRows (projectId : Uuid) (table : List WorkflowStatus) : List WorkflowStatus :=
  table.filter fun status ↦ status.projectId = projectId

/-- `findDefault`. -/
def findDefault (projectId : Uuid) : WorkCall (Option WorkflowStatus) :=
  Call.query .other fun db ↦ (statusRows projectId db.workflowStatuses).find? WorkflowStatus.isDefault

/-- The rows `findDefault` may return: it has no order. -/
def FindsDefault (table : List WorkflowStatus) (projectId : Uuid) : Option WorkflowStatus → Prop :=
  MayReturn WorkflowStatus.isDefault (statusRows projectId table)

/-- `findDefault` returns such a row. -/
theorem findDefault_finds (projectId : Uuid) (table : List WorkflowStatus) :
    FindsDefault table projectId ((statusRows projectId table).find? WorkflowStatus.isDefault) :=
  mayReturn_find? _ _

/-- Every project has at most one default status, and the status of a new item for which none is asked is
the one `findDefault` returns, whatever the order in which the rows come. -/
structure DefaultsAgree (db : Db) : Prop where
  single : ∀ projectId, (statusRows projectId db.workflowStatuses).countP WorkflowStatus.isDefault ≤ 1
  same : ∀ (projectId : Uuid) (listed : List WorkflowStatus) (found : Option WorkflowStatus),
    ListsStatuses db.workflowStatuses projectId listed → FindsDefault db.workflowStatuses projectId found →
      ((pickStatus listed none).run db).1.toOption = found.map WorkflowStatus.id

/-- Every project with statuses has one default status. -/
def HasDefaults (db : Db) : Prop :=
  ∀ projectId, OneMarked WorkflowStatus.isDefault (statusRows projectId db.workflowStatuses)

/-- Without a request the preferred status is picked. -/
theorem pickStatus_none (listed : List WorkflowStatus) (db : Db) :
    ((pickStatus listed none).run db).1.toOption =
      (preferMarked WorkflowStatus.isDefault listed).map WorkflowStatus.id := by
  unfold pickStatus preferMarked
  cases (listed.find? fun status ↦ status.isDefault).or listed.head? <;> rfl

theorem defaultsAgree_iff_hasDefaults : DefaultsAgree db ↔ HasDefaults db := by
  constructor
  · intro hagree projectId
    have hlists := statusesOf_lists projectId db.workflowStatuses
    refine oneMarked_of_preferMarked (hagree.single projectId) hlists.rows fun hmissing ↦ ?_
    have hsame := hagree.same projectId _ none hlists hmissing
    rw [pickStatus_none] at hsame
    exact Option.map_eq_none_iff.mp hsame
  · intro hdefaults
    refine ⟨fun projectId ↦ (hdefaults projectId).countP_le, fun projectId listed found hlisted hfound ↦ ?_⟩
    rw [pickStatus_none, (hdefaults projectId).preferMarked_eq hlisted.rows hfound]

/-- Assumes: the lookups agree, and the tenant has the project. `resolveStatusId` resolves what
`findDefault` finds. -/
theorem DefaultsAgree.resolveStatusId_run (hagree : DefaultsAgree db) {project : Project}
    (hproject : ((getProject tenantId projectId).run db).1 = .ok project) :
    ∃ found, ((findDefault projectId).run db).1 = .ok found ∧
      ((resolveStatusId tenantId projectId none).run db).1.toOption = found.map WorkflowStatus.id := by
  refine ⟨_, rfl, ?_⟩
  have hlisted : ((listStatuses tenantId projectId).run db).1 =
      .ok (statusesOf projectId db.workflowStatuses) := by
    rw [listStatuses, run_bind_of_reads_returned (getProject_reads _ _) hproject]
    rfl
  rw [resolveStatusId, run_bind_of_reads_returned (listStatuses_reads _ _) hlisted]
  exact hagree.same projectId _ _ (statusesOf_lists _ _) (findDefault_finds _ _)

/-! ### The condition -/

/-- `getProject` finds the project for the tenant. -/
def FindsProject (db : Db) (tenantId projectId : Uuid) : Prop :=
  ∃ project ∈ db.projects.find? (fun project ↦ project.id = projectId),
    project.deletedAt = none ∧ project.tenantId = tenantId

/-- `deleteStatus` finds the status, in the project. -/
def FindsStatus (db : Db) (projectId statusId : Uuid) : Prop :=
  ∃ status ∈ db.workflowStatuses.find? (fun status ↦ status.id = statusId), status.projectId = projectId

instance : Decidable (FindsProject db tenantId projectId) :=
  inferInstanceAs (Decidable (∃ project ∈ db.projects.find? _, _))

instance : Decidable (FindsStatus db projectId statusId) :=
  inferInstanceAs (Decidable (∃ status ∈ db.workflowStatuses.find? _, _))

/-- The request keeps one default: a status that is created is a default exactly where the project has
none, and a default that is deleted is the last status of its project. -/
def KeepsDefault (db : Db) : WorkRequest → Prop
  | .createStatus tenantId projectId input =>
    FindsProject db tenantId projectId → db.nextUuid ∉ db.workflowStatuses.map WorkflowStatus.id →
      (input.isDefault.getD false = true ↔
        ∀ status ∈ statusRows projectId db.workflowStatuses, status.isDefault = false)
  | .deleteStatus tenantId projectId statusId =>
    FindsProject db tenantId projectId → FindsStatus db projectId statusId →
      ∀ status ∈ db.workflowStatuses, status.id = statusId → status.isDefault = true →
        ∀ other ∈ db.workflowStatuses, other.projectId = status.projectId → other.id = statusId
  | _ => True

instance (request : WorkRequest) : Decidable (KeepsDefault db request) :=
  match request with
  | .createStatus .. =>
    inferInstanceAs (Decidable (FindsProject .. → _ → (_ ↔ ∀ status ∈ statusRows _ _, _)))
  | .deleteStatus .. => inferInstanceAs (Decidable (FindsProject .. → FindsStatus .. →
      ∀ status ∈ db.workflowStatuses, _ → _ → ∀ other ∈ db.workflowStatuses, _))
  | .createProject .. | .deleteProject .. | .createTransition .. | .deleteTransition ..
  | .createWorkItem .. | .createTask .. | .updateWorkItem .. | .moveWorkItem .. | .deleteWorkItem ..
  | .createSprint .. | .startSprint .. | .completeSprint .. | .deleteSprint .. | .tick _ => .isTrue trivial

/-! ### What the calls do to the statuses -/

theorem findsProject_iff : FindsProject db tenantId projectId ↔
    ∃ project, ((getProject tenantId projectId).run db).1 = .ok project := by
  simp only [FindsProject, getProject_ok_iff, Option.mem_def]

/-- A project that is found is stored. -/
theorem FindsProject.stored (hfinds : FindsProject db tenantId projectId) :
    projectId ∈ db.projects.map Project.id := by
  obtain ⟨project, hproject⟩ := findsProject_iff.mp hfinds
  obtain ⟨hmem, hid, _⟩ := getProject_run hproject
  exact List.mem_map.mpr ⟨project, hmem, hid⟩

/-- What `createStatus` makes of a store. -/
inductive CreatesStatus (db : Db) (tenantId projectId : Uuid) (input : CreateWorkflowStatusInput) :
    Db → Prop
  | refused (nextUuid : ℕ) (hrefused : ¬ (FindsProject db tenantId projectId ∧
      db.nextUuid ∉ db.workflowStatuses.map WorkflowStatus.id)) :
    CreatesStatus db tenantId projectId input { db with nextUuid }
  | created (status : WorkflowStatus) (nextUuid : ℕ) (hfinds : FindsProject db tenantId projectId)
      (hfresh : db.nextUuid ∉ db.workflowStatuses.map WorkflowStatus.id)
      (hproject : status.projectId = projectId) (hdefault : status.isDefault = input.isDefault.getD false) :
    CreatesStatus db tenantId projectId input
      { db with workflowStatuses := db.workflowStatuses ++ [status], nextUuid }

theorem createStatus_creates (db : Db) (tenantId projectId : Uuid) (input : CreateWorkflowStatusInput) :
    CreatesStatus db tenantId projectId input ((createStatus tenantId projectId input).run db).2 := by
  by_cases hfinds : FindsProject db tenantId projectId
  · obtain ⟨project, hproject⟩ := findsProject_iff.mp hfinds
    rw [createStatus, run_bind_of_reads_returned (getProject_reads _ _) hproject, listStatusesByProject,
      Call.run_query_bind, uuidv7_eq, Call.run_atomically_bind, transaction, Call.run_transaction]
    dsimp only [insertStatus]
    split
    next status after hinsert =>
      obtain ⟨_, hstore, hrest⟩ := bind_eq_ok.mp hinsert
      obtain ⟨_, hfresh, hadded⟩ := bind_eq_ok.mp hstore
      obtain rfl := Except.ok.inj hadded
      obtain ⟨rfl, rfl⟩ := Prod.mk.inj (Except.ok.inj hrest)
      exact .created _ _ hfinds (checkPrimaryKey_ok.mp hfresh) rfl rfl
    next failure hinsert =>
      refine .refused _ fun hboth ↦ ?_
      have hpassed : checkPrimaryKey "workflow_statuses_pkey" WorkflowStatus.id db.workflowStatuses
          db.nextUuid = .ok () := checkPrimaryKey_ok.mpr hboth.2
      rw [hpassed] at hinsert
      cases hinsert
  · refine run_keeps_of_reads (getProject_reads _ _) (.refused db.nextUuid fun hboth ↦ hfinds hboth.1)
      fun project hproject ↦ ?_
    exact absurd (findsProject_iff.mpr ⟨project, hproject⟩) hfinds

/-- What `deleteStatus` makes of a store. -/
inductive RemovesStatus (db : Db) (tenantId projectId statusId : Uuid) : Db → Prop
  | refused (hrefused : ¬ (FindsProject db tenantId projectId ∧ FindsStatus db projectId statusId)) :
    RemovesStatus db tenantId projectId statusId db
  | deleted (hfinds : FindsProject db tenantId projectId) (hstatus : FindsStatus db projectId statusId) :
    RemovesStatus db tenantId projectId statusId (db.deleteStatus statusId)

theorem deleteStatus_removes (db : Db) (tenantId projectId statusId : Uuid) :
    RemovesStatus db tenantId projectId statusId ((deleteStatus tenantId projectId statusId).run db).2 := by
  by_cases hfinds : FindsProject db tenantId projectId ∧ FindsStatus db projectId statusId
  · obtain ⟨project, hproject⟩ := findsProject_iff.mp hfinds.1
    obtain ⟨status, hstatus, hown⟩ := hfinds.2
    have hensured : ((Call.ensure (status.projectId = projectId)
        (notFoundException .workflowStatusNotFound "Workflow status not found") : WorkCall Unit).run db).1 =
          .ok () :=
      Call.run_ensure.mpr hown
    rw [deleteStatus, run_bind_of_reads_returned (getProject_reads _ _) hproject, findStatusById,
      Call.run_query_bind,
      run_bind_of_reads_returned (Call.only_require _ _) (Call.run_require.mpr hstatus),
      run_bind_of_reads_returned (Call.only_ensure _ _) hensured]
    exact .deleted hfinds.1 hfinds.2
  · have hsame : RemovesStatus db tenantId projectId statusId db := .refused hfinds
    refine run_keeps_of_reads (getProject_reads _ _) hsame fun project hproject ↦ ?_
    refine run_keeps_of_reads (by simp [findStatusById]) hsame fun found hfound ↦ ?_
    refine run_keeps_of_reads (Call.only_require _ _) hsame fun status hstatus ↦ ?_
    refine run_keeps_of_reads (Call.only_ensure _ _) hsame fun _ hown ↦ ?_
    obtain rfl := Except.ok.inj hfound
    exact absurd ⟨findsProject_iff.mpr ⟨project, hproject⟩, status, Call.run_require.mp hstatus,
      Call.run_ensure.mp hown⟩ hfinds

/-! ### What a call preserves -/

theorem statusRows_append (first second : List WorkflowStatus) :
    statusRows projectId (first ++ second) = statusRows projectId first ++ statusRows projectId second :=
  List.filter_append ..

theorem statusRows_append_singleton (table : List WorkflowStatus) (status : WorkflowStatus) :
    statusRows projectId (table ++ [status]) =
      statusRows projectId table ++ if status.projectId = projectId then [status] else [] := by
  rw [statusRows_append]
  congr 1
  split_ifs with hproject
  · exact List.filter_cons_of_pos (decide_eq_true hproject)
  · exact List.filter_cons_of_neg (by simpa using hproject)

/-- The statuses of a project that are left. -/
theorem statusRows_deleteStatus :
    statusRows projectId (db.deleteStatus statusId).workflowStatuses =
      (statusRows projectId db.workflowStatuses).filter fun status ↦ !decide (status.id = statusId) :=
  List.filter_comm _ _ _

theorem statusRows_defaultStatusRows (tenantId projectId firstId : Uuid) :
    statusRows projectId (defaultStatusRows tenantId projectId firstId) =
      defaultStatusRows tenantId projectId firstId :=
  List.filter_eq_self.mpr fun _ hstatus ↦ decide_eq_true (projectId_of_mem_defaultStatusRows hstatus)

theorem statusRows_defaultStatusRows_of_ne {otherId : Uuid} (tenantId firstId : Uuid)
    (hne : otherId ≠ projectId) :
    statusRows projectId (defaultStatusRows tenantId otherId firstId) = [] :=
  List.filter_eq_nil_iff.mpr fun _ hstatus hown ↦
    hne ((projectId_of_mem_defaultStatusRows hstatus).symm.trans (of_decide_eq_true hown))

theorem oneMarked_defaultStatusRows (tenantId projectId firstId : Uuid) :
    OneMarked WorkflowStatus.isDefault (defaultStatusRows tenantId projectId firstId) := .inr rfl

/-- A new status keeps one default exactly if it is the default where there has been none. -/
theorem HasDefaults.created_iff (hdefaults : HasDefaults db) (status : WorkflowStatus) (nextUuid : ℕ) :
    HasDefaults { db with workflowStatuses := db.workflowStatuses ++ [status], nextUuid } ↔
      (status.isDefault = true ↔
        ∀ other ∈ statusRows status.projectId db.workflowStatuses, other.isDefault = false) := by
  rw [← (hdefaults status.projectId).append_singleton_iff]
  constructor
  · intro hafter
    have hown := hafter status.projectId
    rwa [statusRows_append_singleton, if_pos rfl] at hown
  · intro hown projectId
    rw [statusRows_append_singleton]
    split_ifs with hproject
    · exact hproject ▸ hown
    · rw [List.append_nil]
      exact hdefaults projectId

/-- A deletion keeps one default exactly if a default goes after the other statuses of its project. -/
theorem HasDefaults.deleted_iff (hdefaults : HasDefaults db) :
    HasDefaults (db.deleteStatus statusId) ↔
      ∀ status ∈ db.workflowStatuses, status.id = statusId → status.isDefault = true →
        ∀ other ∈ db.workflowStatuses, other.projectId = status.projectId → other.id = statusId := by
  have hrows : ∀ {projectId : Uuid} {status : WorkflowStatus},
      status ∈ statusRows projectId db.workflowStatuses ↔
        status ∈ db.workflowStatuses ∧ status.projectId = projectId := by
    simp [statusRows]
  simp only [HasDefaults, statusRows_deleteStatus, (hdefaults _).filter_iff, hrows, Bool.not_eq_false',
    decide_eq_true_eq]
  constructor
  · exact fun hleft status hmem hid hdefault other hother hproject ↦
      hleft status.projectId status ⟨hmem, rfl⟩ hdefault hid other ⟨hother, hproject⟩
  · rintro hlast _ status ⟨hmem, rfl⟩ hdefault hid other ⟨hother, hproject⟩
    exact hlast status hmem hid hdefault other hother hproject

/-- Assumes: every status belongs to a stored project, and the step neither creates nor deletes a status.
It keeps one default: the statuses of a new project are its default statuses. -/
theorem HasDefaults.step (hdefaults : HasDefaults db) (hgrounded : Grounded db)
    (heffect : Effect db label after) (hcreates : ∀ status, label ≠ .createStatus status)
    (hdeletes : ∀ id, label ≠ .deleteStatus id) : HasDefaults after := by
  intro projectId
  by_cases hwrites : .workflowStatuses ∈ label.writes
  · cases label <;> simp only [WorkStep.writes, List.mem_cons, List.not_mem_nil, reduceCtorEq, or_self,
      or_false, false_or] at hwrites
    case createProject project =>
      obtain ⟨hfresh, _, _, _, _, rfl⟩ := heffect
      rw [statusRows_append]
      by_cases hproject : project.id = projectId
      · obtain rfl := hproject
        have hnone : statusRows project.id db.workflowStatuses = [] := by
          refine List.filter_eq_nil_iff.mpr fun status hstatus hown ↦ hfresh ?_
          exact of_decide_eq_true hown ▸ hgrounded.statuses status hstatus
        rw [hnone, List.nil_append, statusRows_defaultStatusRows]
        exact oneMarked_defaultStatusRows _ _ _
      · rw [statusRows_defaultStatusRows_of_ne _ _ hproject, List.append_nil]
        exact hdefaults projectId
    case createStatus status => exact absurd rfl (hcreates status)
    case deleteStatus id => exact absurd rfl (hdeletes id)
  · rw [heffect.frame.workflowStatuses hwrites]
    exact hdefaults projectId

/-! ### Sequences of calls -/

/-- Assumes: the step creates no status by itself. The counters and statuses belong to stored projects
after it. -/
theorem Grounded.step (hgrounded : Grounded db) (heffect : Effect db label after)
    (hcreates : ∀ status, label ≠ .createStatus status) : Grounded after :=
  ⟨hgrounded.counters_step heffect,
    hgrounded.statuses_step heffect fun status hlabel ↦ absurd hlabel (hcreates status)⟩

theorem Grounded.createsStatus {input : CreateWorkflowStatusInput} (hgrounded : Grounded db)
    (hcreates : CreatesStatus db tenantId projectId input after) : Grounded after := by
  cases hcreates with
  | refused nextUuid hrefused => exact ⟨hgrounded.counters, hgrounded.statuses⟩
  | created status nextUuid hfinds hfresh hproject hdefault =>
    refine ⟨hgrounded.counters, fun other hother ↦ ?_⟩
    rcases List.mem_append.mp hother with hold | hnew
    · exact hgrounded.statuses other hold
    · obtain rfl := List.mem_singleton.mp hnew
      exact hproject ▸ hfinds.stored

/-- The counters and statuses belong to stored projects after every call. -/
theorem serve_grounded (request : WorkRequest) (hgrounded : Grounded db) :
    Grounded (request.serve.run db).2 := by
  have hothers : (∀ status, request.mayTake (.createStatus status) = false) →
      Grounded (request.serve.run db).2 := by
    intro hcreates
    refine ((serve_effect request).and (serve_takes request)).run_keeps Grounded
      (fun before label after hbefore hstep ↦ hbefore.step hstep.1 ?_) hgrounded
    rintro status rfl
    exact Bool.false_ne_true ((hcreates status).symm.trans hstep.2)
  cases request with
  | createStatus tenantId projectId input =>
    rw [WorkRequest.serve, Call.run_map]
    exact hgrounded.createsStatus (createStatus_creates db tenantId projectId input)
  | _ => exact hothers fun _ ↦ rfl

/-- Assumes: every status belongs to a stored project, and the request neither creates nor deletes a status.
Its call keeps one default. -/
theorem serve_hasDefaults {request : WorkRequest} (hgrounded : Grounded db) (hdefaults : HasDefaults db)
    (hcreates : ∀ status, request.mayTake (.createStatus status) = false)
    (hdeletes : ∀ id, request.mayTake (.deleteStatus id) = false) :
    HasDefaults (request.serve.run db).2 := by
  refine (((serve_effect request).and (serve_takes request)).run_keeps
    (fun store ↦ Grounded store ∧ HasDefaults store) (fun before label after hbefore hstep ↦ ?_)
    ⟨hgrounded, hdefaults⟩).2
  have hnoStatus : ∀ status, label ≠ .createStatus status := by
    rintro status rfl
    exact Bool.false_ne_true ((hcreates status).symm.trans hstep.2)
  have hnoDeletion : ∀ id, label ≠ .deleteStatus id := by
    rintro id rfl
    exact Bool.false_ne_true ((hdeletes id).symm.trans hstep.2)
  exact ⟨hbefore.1.step hstep.1 hnoStatus, hbefore.2.step hbefore.1 hstep.1 hnoStatus hnoDeletion⟩

theorem HasDefaults.creates_iff {input : CreateWorkflowStatusInput} (hdefaults : HasDefaults db)
    (hcreates : CreatesStatus db tenantId projectId input after) :
    HasDefaults after ↔ KeepsDefault db (.createStatus tenantId projectId input) := by
  cases hcreates with
  | refused nextUuid hrefused =>
    exact ⟨fun _ hfinds hfresh ↦ absurd ⟨hfinds, hfresh⟩ hrefused, fun _ ↦ hdefaults⟩
  | created status nextUuid hfinds hfresh hproject hdefault =>
    rw [hdefaults.created_iff, hdefault, hproject]
    exact ⟨fun hkeeps _ _ ↦ hkeeps, fun hkeeps ↦ hkeeps hfinds hfresh⟩

theorem HasDefaults.removes_iff (hdefaults : HasDefaults db)
    (hremoves : RemovesStatus db tenantId projectId statusId after) :
    HasDefaults after ↔ KeepsDefault db (.deleteStatus tenantId projectId statusId) := by
  cases hremoves with
  | refused hrefused =>
    exact ⟨fun _ hfinds hstatus ↦ absurd ⟨hfinds, hstatus⟩ hrefused, fun _ ↦ hdefaults⟩
  | deleted hfinds hstatus =>
    rw [hdefaults.deleted_iff]
    exact ⟨fun hkeeps _ _ ↦ hkeeps, fun hkeeps ↦ hkeeps hfinds hstatus⟩

/-- Assumes: every status belongs to a stored project. A call run alone keeps one default exactly if its
request does. -/
theorem serve_hasDefaults_iff (request : WorkRequest) (hgrounded : Grounded db)
    (hdefaults : HasDefaults db) :
    HasDefaults (request.serve.run db).2 ↔ KeepsDefault db request := by
  cases request with
  | createStatus tenantId projectId input =>
    rw [WorkRequest.serve, Call.run_map]
    exact hdefaults.creates_iff (createStatus_creates db tenantId projectId input)
  | deleteStatus tenantId projectId statusId =>
    exact hdefaults.removes_iff (deleteStatus_removes db tenantId projectId statusId)
  | _ => exact ⟨fun _ ↦ trivial, fun _ ↦ serve_hasDefaults hgrounded hdefaults (fun _ ↦ rfl) fun _ ↦ rfl⟩

/-- Assumes: every counter and every status belongs to a stored project, and the lookups agree at the
start. They agree in every store that a list of requests reaches exactly if every request keeps one
default. -/
theorem defaultsAgree_iff (db : Db) (hgrounded : Grounded db) (hagree : DefaultsAgree db)
    (requests : List WorkRequest) :
    (∀ served, served <+: requests → DefaultsAgree (runCalls db served)) ↔
      AllowsCalls KeepsDefault db requests := by
  simp only [defaultsAgree_iff_hasDefaults]
  exact allowsCalls_iff (fun _ request ↦ serve_grounded request)
    (fun _ request ↦ serve_hasDefaults_iff request) requests hgrounded
    (defaultsAgree_iff_hasDefaults.mp hagree)

/-- The lookups agree where there is no status. -/
theorem defaultsAgree_emptyDb : DefaultsAgree emptyDb := defaultsAgree_iff_hasDefaults.mpr fun _ ↦ .inl rfl

/-- A project is created; a status is added to it, and all statuses are deleted, the default last; then a
new default comes. -/
def defaultsKept : List WorkRequest :=
  [.createProject founder 3 ⟨"app", Eq.refl true⟩ "App" none none,
    .createStatus 2 100 { name := "Review", category := .inProgress },
    .deleteStatus 2 100 103, .deleteStatus 2 100 104, .deleteStatus 2 100 105, .deleteStatus 2 100 106,
    .deleteStatus 2 100 102,
    .createStatus 2 100 { name := "Open", category := .toDo, isDefault := some true }]

/-- A witness that the conditions can be met. -/
theorem defaultsAgree_iff_witness : DefaultsAgree (runCalls emptyDb defaultsKept) :=
  (defaultsAgree_iff emptyDb ⟨by simp [emptyDb], by simp [emptyDb]⟩ defaultsAgree_emptyDb defaultsKept).mpr
    (by decide +kernel) defaultsKept (List.prefix_refl defaultsKept)

/-- The defaults do not agree: a status that is created as the default leaves the project with two. -/
theorem secondDefault :
    ¬ DefaultsAgree (runCalls emptyDb [.createProject founder 3 ⟨"app", Eq.refl true⟩ "App" none none,
      .createStatus 2 100 { name := "Review", category := .inProgress, isDefault := some true }]) := by
  intro hagree
  exact absurd (hagree.single 100) (by decide +kernel)

end RallyApi.Work

import Mathlib.Logic.Relation
import RallyApi.Work.Effects

/-!
# The calls of the work items, run alone

What `createWorkItem`, `createTask`, `updateWorkItem` and `deleteWorkItem` can do to the store when no
other call comes in between, and `completeSprint` and `deleteSprint`: nothing that the tables of the work
items show, or the writes they are for, with what their checks have found before. The results about
sequences of calls (`CallStep`) are case analyses of these.
-/

set_option autoImplicit false
set_option relaxedAutoImplicit false

namespace RallyApi.Work

open Concurrency Platform Store

variable {db after : Db} {label : WorkStep}

/-! ### Checks that have passed -/

/-- The project has the status. -/
def HasStatus (db : Db) (projectId statusId : Uuid) : Prop :=
  ∃ status ∈ db.workflowStatuses, status.id = statusId ∧ status.projectId = projectId

/-- A check passes in a store. -/
def Passes (db : Db) (check : WorkCall Unit) : Prop := (check.run db).1 = .ok ()

instance (projectId statusId : Uuid) : Decidable (HasStatus db projectId statusId) :=
  inferInstanceAs (Decidable (∃ status ∈ db.workflowStatuses, _))

instance (check : WorkCall Unit) : Decidable (Passes db check) :=
  decidable_of_iff ((check.run db).1.isOk = true) (by
    unfold Passes
    rcases (check.run db).1 with failure | ⟨⟩ <;> simp [Except.isOk, Except.toBool])

theorem HasStatus.mono {projectId statusId : Uuid} (hstatus : HasStatus db projectId statusId)
    (hsubset : db.workflowStatuses ⊆ after.workflowStatuses) : HasStatus after projectId statusId := by
  obtain ⟨status, hmem, hfound⟩ := hstatus
  exact ⟨status, hsubset hmem, hfound⟩

theorem mem_statusesOf {statuses : List WorkflowStatus} {projectId : Uuid}
    {status : WorkflowStatus} :
    status ∈ statusesOf projectId statuses ↔ status ∈ statuses ∧ status.projectId = projectId := by
  rw [statusesOf, List.mem_insertionSort, List.mem_filter, decide_eq_true_eq]

/-- The status `pickStatus` picks is one of those it is given. -/
theorem pickStatus_run {statuses : List WorkflowStatus} {requested : Option Uuid} {statusId : Uuid}
    (hrun : ((pickStatus statuses requested).run db).1 = .ok statusId) :
    ∃ status ∈ statuses, status.id = statusId := by
  cases requested with
  | none =>
    obtain ⟨default, hdefault, hrun⟩ := run_bind_of_reads_ok (Call.only_require _ _) hrun
    obtain rfl := Except.ok.inj hrun
    rcases Option.or_eq_some_iff.mp (Call.run_require.mp hdefault) with hfound | ⟨_, hhead⟩
    · exact ⟨default, List.mem_of_find?_eq_some hfound, rfl⟩
    · exact ⟨default, List.mem_of_head? hhead, rfl⟩
  | some requested =>
    obtain ⟨status, hstatus, hrun⟩ := run_bind_of_reads_ok (Call.only_require _ _) hrun
    obtain rfl := Except.ok.inj hrun
    have hfound := Call.run_require.mp hstatus
    exact ⟨status, List.mem_of_find?_eq_some hfound, by simpa using List.find?_some hfound⟩

/-- The status `createWorkItem` resolves is one of the project. -/
theorem resolveStatusId_run {tenantId projectId statusId : Uuid} {requested : Option Uuid}
    (hrun : ((resolveStatusId tenantId projectId requested).run db).1 = .ok statusId) :
    HasStatus db projectId statusId := by
  obtain ⟨statuses, hstatuses, hrun⟩ := run_bind_of_reads_ok (listStatuses_reads _ _) hrun
  obtain ⟨project, _, hstatuses⟩ := run_bind_of_reads_ok (getProject_reads _ _) hstatuses
  obtain rfl : statusesOf projectId db.workflowStatuses = statuses := Except.ok.inj hstatuses
  obtain ⟨status, hmem, hid⟩ := pickStatus_run hrun
  obtain ⟨hstatus, hproject⟩ := mem_statusesOf.mp hmem
  exact ⟨status, hstatus, hid, hproject⟩

/-- `getWorkItem` returns the live item of the tenant that it finds. -/
theorem getWorkItem_ok_iff {tenantId id : Uuid} {item : WorkItem} :
    ((getWorkItem tenantId id).run db).1 = .ok item ↔
      db.workItems.find? (fun item ↦ item.id = id ∧ item.deletedAt = none) = some item ∧
        item.tenantId = tenantId := by
  simp [getWorkItem, findWorkItemById, ok_bind_iff]

/-- The item `getWorkItem` returns is in the table, live and of the tenant. -/
theorem getWorkItem_run {tenantId id : Uuid} {item : WorkItem}
    (hrun : ((getWorkItem tenantId id).run db).1 = .ok item) :
    item ∈ db.workItems ∧ item.id = id ∧ item.deletedAt = none ∧ item.tenantId = tenantId := by
  obtain ⟨hfound, htenant⟩ := getWorkItem_ok_iff.mp hrun
  obtain ⟨hid, hlive⟩ : item.id = id ∧ item.deletedAt = none := by
    simpa using List.find?_some hfound
  exact ⟨List.mem_of_find?_eq_some hfound, hid, hlive, htenant⟩

/-- `getProject` returns the live project of the tenant that it finds. -/
theorem getProject_ok_iff {tenantId projectId : Uuid} {project : Project} :
    ((getProject tenantId projectId).run db).1 = .ok project ↔
      db.projects.find? (fun project ↦ project.id = projectId) = some project ∧
        project.deletedAt = none ∧ project.tenantId = tenantId := by
  simp [getProject, findProjectById, ok_bind_iff]

/-- The project `getProject` returns is in the table, live and of the tenant. -/
theorem getProject_run {tenantId projectId : Uuid} {project : Project}
    (hrun : ((getProject tenantId projectId).run db).1 = .ok project) :
    project ∈ db.projects ∧ project.id = projectId ∧ project.deletedAt = none ∧
      project.tenantId = tenantId := by
  obtain ⟨hfound, hlive, htenant⟩ := getProject_ok_iff.mp hrun
  have hid : project.id = projectId := by simpa using List.find?_some hfound
  exact ⟨List.mem_of_find?_eq_some hfound, hid, hlive, htenant⟩

/-- The item is in the table, and can be seen by the tenant. -/
structure Visible (db : Db) (tenantId id : Uuid) (item : WorkItem) : Prop where
  mem : item ∈ db.workItems
  id_eq : item.id = id
  live : item.deletedAt = none
  tenant : item.tenantId = tenantId

/-- The project has an active link to the team. -/
def TeamLinked (db : Db) (projectId teamId : Uuid) : Prop :=
  ∃ link ∈ db.projectTeams, link.projectId = projectId ∧ link.teamId = teamId ∧ link.status = .active

instance (projectId teamId : Uuid) : Decidable (TeamLinked db projectId teamId) :=
  inferInstanceAs (Decidable (∃ link ∈ db.projectTeams, _))

theorem getWorkItem_visible {tenantId id : Uuid} {item : WorkItem}
    (hrun : ((getWorkItem tenantId id).run db).1 = .ok item) : Visible db tenantId id item := by
  obtain ⟨hmem, hid, hlive, htenant⟩ := getWorkItem_run hrun
  exact ⟨hmem, hid, hlive, htenant⟩

/-- A check of a subject that is there has been made. -/
theorem whenPresent_run {α : Type} {subject : Option α} {check : α → WorkCall Unit} {result : Unit}
    (hrun : ((whenPresent subject check).run db).1 = .ok result) {present : α}
    (hpresent : present ∈ subject) : ((check present).run db).1 = .ok () := by
  obtain rfl := hpresent
  exact hrun

/-- The parent that `createWorkItem` has accepted is an item of the project. -/
theorem assertParentInProject_run {tenantId projectId parentId : Uuid} {result : Unit}
    (hrun : ((assertParentInProject tenantId projectId parentId).run db).1 = .ok result) :
    ∃ parent, Visible db tenantId parentId parent ∧ parent.projectId = projectId := by
  obtain ⟨parent, hparent, hrun⟩ := run_bind_of_reads_ok (getWorkItem_reads _ _) hrun
  exact ⟨parent, getWorkItem_visible hparent, Call.run_ensure.mp hrun⟩

/-- The team that `createWorkItem` has accepted is linked to the project. -/
theorem assertTeamLinked_run {tenantId projectId teamId : Uuid} {result : Unit}
    (hrun : ((assertTeamLinked tenantId projectId teamId).run db).1 = .ok result) :
    TeamLinked db projectId teamId := by
  obtain ⟨links, hlinks, hrun⟩ := run_bind_of_reads_ok (listProjectTeams_reads _ _) hrun
  obtain ⟨project, _, hlinks⟩ := run_bind_of_reads_ok (getProject_reads _ _) hlinks
  obtain rfl := Except.ok.inj hlinks
  obtain ⟨link, hlink, hfound⟩ := List.any_eq_true.mp (Call.run_ensure.mp hrun)
  obtain ⟨hmem, hlinked⟩ := List.mem_filter.mp hlink
  obtain ⟨hproject, hactive⟩ := of_decide_eq_true hlinked
  exact ⟨link, hmem, hproject, (of_decide_eq_true hfound).1, hactive⟩

/-! ### Creation -/

/-- What `createWorkItem` has checked before it inserts an item. -/
structure Creatable (db : Db) (actor : Actor) (projectId : Uuid) (opts : CreateWorkItemOpts)
    (statusId : Uuid) : Prop where
  project : ∃ project ∈ db.projects, project.id = projectId ∧ project.deletedAt = none ∧
    project.tenantId = actor.tenantId
  parent : ∀ parentId ∈ opts.parentId, ∃ parent, Visible db actor.tenantId parentId parent ∧
    parent.projectId = projectId
  status : HasStatus db projectId statusId
  team : ∀ teamId ∈ opts.teamId, TeamLinked db projectId teamId

/-- The store after a creation: the counter of the project has moved on, and the item and its entry are
there. -/
def Db.withWorkItem (db : Db) (counters : List ProjectCounter) (item : WorkItem)
    (entry : ActivityLog) (nextUuid : ℕ) : Db :=
  { db with
    projectCounters := counters
    workItems := db.workItems ++ [item]
    activityLogs := db.activityLogs ++ [entry]
    nextUuid }

/-- What `createWorkItem` makes of a store. -/
inductive Creates (db : Db) (actor : Actor) (projectId : Uuid) (type : WorkItemType) (title : String)
    (opts : CreateWorkItemOpts) : Db → Prop
  | refused (counters : List ProjectCounter) :
    Creates db actor projectId type title opts { db with projectCounters := counters }
  | created (counters : List ProjectCounter) (statusId : Uuid) (itemKey : String) (entry : ActivityLog)
      (nextUuid : ℕ) (hchecked : Creatable db actor projectId opts statusId)
      (hfresh : db.nextUuid ∉ db.workItems.map WorkItem.id) :
    Creates db actor projectId type title opts (db.withWorkItem counters
      (newWorkItem actor projectId type title opts statusId itemKey db.nextUuid db.now) entry nextUuid)

/-- Handing out an item key changes nothing but the counters. -/
theorem generateItemKey_counters (db : Db) (tenantId projectId : Uuid) :
    ∃ counters, ((generateItemKey tenantId projectId).run db).2 =
      { db with projectCounters := counters } := by
  have honly : (generateItemKey tenantId projectId).Only fun before _ after ↦
      ∃ counters, after = { before with projectCounters := counters } := by
    refine Call.only_bind.mpr ⟨(getProject_reads _ _).mono fun before _ _ hreads ↦ ?_, fun _ _ ↦ ?_⟩
    · exact ⟨before.projectCounters, hreads.2⟩
    refine Call.only_bind.mpr ⟨Call.only_ensure _ _, fun _ _ ↦ ?_⟩
    refine Call.only_bind.mpr ⟨?_, fun _ _ ↦ Call.only_pure _⟩
    refine Call.only_transaction (fun before ↦ ⟨before.projectCounters, rfl⟩)
      fun before seq after hnext ↦ ?_
    obtain ⟨_, rfl⟩ := nextItemNumber_ok hnext
    exact ⟨_, rfl⟩
  refine honly.run_keeps (fun store ↦ ∃ counters, store = { db with projectCounters := counters })
    (fun _ _ _ hstore hstep ↦ ?_) ⟨db.projectCounters, rfl⟩
  obtain ⟨counters, rfl⟩ := hstore
  obtain ⟨later, rfl⟩ := hstep
  exact ⟨later, rfl⟩

theorem createWorkItem_creates (db : Db) (actor : Actor) (projectId : Uuid) (type : WorkItemType)
    (title : String) (opts : CreateWorkItemOpts) :
    Creates db actor projectId type title opts
      ((createWorkItem actor projectId type title opts).run db).2 := by
  have hsame : Creates db actor projectId type title opts db := .refused db.projectCounters
  refine run_keeps_of_reads (getProject_reads _ _) hsame fun project hproject ↦ ?_
  refine run_keeps_of_reads (whenPresent_reads _ (by simp)) hsame fun _ _ ↦ ?_
  refine run_keeps_of_reads (whenPresent_reads _ (by simp)) hsame fun _ hparent ↦ ?_
  refine run_keeps_of_reads (resolveStatusId_reads _ _ _) hsame fun statusId hstatus ↦ ?_
  refine run_keeps_of_reads (whenPresent_reads _ (by simp)) hsame fun _ hteam ↦ ?_
  have hchecked : Creatable db actor projectId opts statusId :=
    { project := ⟨project, getProject_run hproject⟩
      parent := fun _ hpresent ↦ assertParentInProject_run (whenPresent_run hparent hpresent)
      status := resolveStatusId_run hstatus
      team := fun _ hpresent ↦ assertTeamLinked_run (whenPresent_run hteam hpresent) }
  obtain ⟨counters, hcounters⟩ := generateItemKey_counters db actor.tenantId projectId
  rw [Call.run_bind]
  cases hrun : (generateItemKey actor.tenantId projectId).run db with
  | mk outcome store =>
    rw [hrun] at hcounters
    obtain rfl := hcounters
    cases outcome with
    | error failure => exact .refused counters
    | ok itemKey =>
      simp only [transaction, Call.run_transaction]
      split
      next created after hcommit =>
        obtain ⟨rfl, hfresh, rfl⟩ := commitWorkItem_ok hcommit
        exact .created counters statusId itemKey _ _ hchecked hfresh
      next failure _ => exact .refused counters

/-- What `createTask` makes of a store: a task in the project of its parent, which is no task. -/
inductive CreatesTask (db : Db) (actor : Actor) (parentId : Uuid) (title : String)
    (opts : CreateWorkItemOpts) : Db → Prop
  | refused : CreatesTask db actor parentId title opts db
  | created (parent : WorkItem) (assigneeId : Option Uuid)
      (hvisible : Visible db actor.tenantId parentId parent) (htype : parent.type ≠ .task) (after : Db)
      (hcreates : Creates db actor parent.projectId .task title
        { opts with parentId := some parentId, assigneeId } after) :
    CreatesTask db actor parentId title opts after

theorem createTask_creates (db : Db) (actor : Actor) (parentId : Uuid) (title : String)
    (opts : CreateWorkItemOpts) :
    CreatesTask db actor parentId title opts ((createTask actor parentId title opts).run db).2 := by
  refine run_keeps_of_reads (getWorkItem_reads _ _) .refused fun parent hparent ↦ ?_
  refine run_keeps_of_reads (Call.only_ensure _ _) .refused fun _ htype ↦ ?_
  have hvisible := getWorkItem_visible hparent
  refine .created parent (opts.assigneeId.or parent.assigneeId) hvisible
    (Call.run_ensure.mp htype) _ ?_
  rw [← hvisible.id_eq]
  exact createWorkItem_creates db actor parent.projectId .task title _

/-! ### Update and deletion -/

/-- What `updateWorkItem` makes of a store. -/
inductive Updates (db : Db) (actor : Actor) (id : Uuid) (input : UpdateWorkItemInput) : Db → Prop
  | refused : Updates db actor id input db
  | updated (item : WorkItem) (hvisible : Visible db actor.tenantId id item)
      (hassignable : Passes db
        (whenPresent input.assigneeId.join (assertAssignable actor.tenantId item)))
      (hreachable : Passes db (whenPresent input.statusId (assertStatusReachable item)))
      (logs : List ActivityLog) (nextUuid : ℕ) :
    Updates db actor id input { db with
      workItems := updateWorkItemRows id { input with updatedBy := some actor.sub } db.workItems
      activityLogs := db.activityLogs ++ logs
      nextUuid }

theorem updateWorkItem_updates (db : Db) (actor : Actor) (id : Uuid) (input : UpdateWorkItemInput) :
    Updates db actor id input ((updateWorkItem actor id input).run db).2 := by
  refine run_keeps_of_reads (getWorkItem_reads _ _) .refused fun item hitem ↦ ?_
  refine run_keeps_of_reads (whenPresent_reads _ (by simp)) .refused fun _ hassignable ↦ ?_
  refine run_keeps_of_reads (whenPresent_reads _ (by simp)) .refused fun _ hreachable ↦ ?_
  simp only [transaction, Call.run_transaction]
  split
  next updated after hcommit =>
    have hvisible := getWorkItem_visible hitem
    obtain ⟨logs, nextUuid, rfl, _⟩ := commitUpdate_ok hcommit
    rw [hvisible.id_eq]
    exact .updated item hvisible hassignable hreachable logs nextUuid
  next failure _ => exact .refused

/-! ### Sprints -/

/-- `getSprint` returns the sprint of the tenant that it finds. -/
theorem getSprint_ok_iff {tenantId id : Uuid} {sprint : Sprint} :
    ((getSprint tenantId id).run db).1 = .ok sprint ↔
      db.sprints.find? (fun row ↦ row.id = id) = some sprint ∧ sprint.tenantId = tenantId := by
  simp [getSprint, findSprintById, ok_bind_iff]

theorem getSprint_run {tenantId id : Uuid} {sprint : Sprint}
    (hrun : ((getSprint tenantId id).run db).1 = .ok sprint) :
    sprint ∈ db.sprints ∧ sprint.id = id ∧ sprint.tenantId = tenantId := by
  obtain ⟨hfound, htenant⟩ := getSprint_ok_iff.mp hrun
  exact ⟨List.mem_of_find?_eq_some hfound, by simpa using List.find?_some hfound, htenant⟩

/-- A sprint to take over the items has to be one of the project. -/
theorem assertSameProject_ok_iff {tenantId : Uuid} {sprint : Sprint} {moveToSprintId : Option Uuid}
    {result : Unit} :
    ((assertSameProject tenantId sprint moveToSprintId).run db).1 = .ok result ↔
      ∀ targetId ∈ moveToSprintId, ∃ target,
        db.sprints.find? (fun row ↦ row.id = targetId) = some target ∧ target.tenantId = tenantId ∧
          target.projectId = sprint.projectId := by
  cases moveToSprintId with
  | none => simp [assertSameProject]
  | some targetId => simp [assertSameProject, ok_bind_iff, getSprint_ok_iff, and_assoc]

/-- The sprint that `completeSprint` has accepted to take over the items is one of the project. -/
theorem assertSameProject_run {tenantId : Uuid} {sprint : Sprint} {moveToSprintId : Option Uuid}
    {result : Unit}
    (hrun : ((assertSameProject tenantId sprint moveToSprintId).run db).1 = .ok result) :
    ∀ targetId ∈ moveToSprintId, ∃ target ∈ db.sprints, target.id = targetId ∧
      target.projectId = sprint.projectId := by
  intro targetId htarget
  obtain ⟨target, hfound, _, hproject⟩ := assertSameProject_ok_iff.mp hrun targetId htarget
  exact ⟨target, List.mem_of_find?_eq_some hfound, by simpa using List.find?_some hfound, hproject⟩

/-- What `completeSprint` makes of a store. The unfinished items have moved, if the project has a done
status. -/
inductive Completes (db : Db) (tenantId id : Uuid) (moveToSprintId : Option Uuid) : Db → Prop
  | refused : Completes db tenantId id moveToSprintId db
  | completed (sprint : Sprint) (hsprint : sprint ∈ db.sprints) (hid : sprint.id = id)
      (htarget : ∀ targetId ∈ moveToSprintId, ∃ target ∈ db.sprints, target.id = targetId ∧
        target.projectId = sprint.projectId)
      (doneStatusIds : List Uuid) (middle : Db)
      (hmiddle : middle = db ∨ middle = db.carryOver tenantId id doneStatusIds moveToSprintId)
      (input : UpdateSprintInput) :
    Completes db tenantId id moveToSprintId (middle.updateSprint id input)

theorem completeSprint_completes (db : Db) (tenantId id : Uuid) (moveToSprintId : Option Uuid) :
    Completes db tenantId id moveToSprintId ((completeSprint tenantId id moveToSprintId).run db).2 := by
  refine run_keeps_of_reads (getSprint_reads _ _) .refused fun sprint hsprint ↦ ?_
  refine run_keeps_of_reads (Call.only_ensure _ _) .refused fun _ _ ↦ ?_
  refine run_keeps_of_reads (assertSameProject_reads _ _ _) .refused fun _ htarget ↦ ?_
  refine run_keeps_of_reads (by simp [findDoneStatusIds]) .refused fun doneStatusIds _ ↦ ?_
  obtain ⟨hmem, hid, _⟩ := getSprint_run hsprint
  have hchecked := assertSameProject_run htarget
  split_ifs
  · exact .completed sprint hmem hid hchecked doneStatusIds _ (.inr rfl) _
  · exact .completed sprint hmem hid hchecked doneStatusIds _ (.inl rfl) _

/-- What `deleteSprint` makes of a store. -/
inductive DeletesSprint (db : Db) (tenantId id : Uuid) : Db → Prop
  | refused : DeletesSprint db tenantId id db
  | deleted (sprint : Sprint) (hsprint : sprint ∈ db.sprints) (hid : sprint.id = id)
      (htenant : sprint.tenantId = tenantId) (hplanned : sprint.status = .planned) :
    DeletesSprint db tenantId id (db.deleteSprint id)

theorem deleteSprint_deletes (db : Db) (tenantId id : Uuid) :
    DeletesSprint db tenantId id ((deleteSprint tenantId id).run db).2 := by
  refine run_keeps_of_reads (getSprint_reads _ _) .refused fun sprint hsprint ↦ ?_
  refine run_keeps_of_reads (Call.only_ensure _ _) .refused fun _ hplanned ↦ ?_
  obtain ⟨hmem, hid, htenant⟩ := getSprint_run hsprint
  exact .deleted sprint hmem hid htenant (Call.run_ensure.mp hplanned)

/-! ### Sequences of calls -/

/-- Item identifiers stay distinct, whatever a step does. -/
theorem nodup_workItems_step (hids : (db.workItems.map WorkItem.id).Nodup)
    (heffect : Effect db label after) : (after.workItems.map WorkItem.id).Nodup := by
  by_cases hwrites : .workItems ∈ label.writes
  · cases label <;> simp [WorkStep.writes] at hwrites
    case createWorkItem item =>
      obtain ⟨hfresh, _, _, _, rfl⟩ := heffect
      exact nodup_map_append_singleton hids hfresh
    case updateWorkItem snapshot input =>
      obtain ⟨_, _, hcommit⟩ := heffect
      obtain ⟨_, _, rfl, _⟩ := commitUpdate_ok hcommit
      exact nodup_map_updateWhere (fun _ ↦ rfl) hids
    case deleteWorkItem id =>
      obtain rfl := heffect
      exact nodup_map_updateWhere (fun _ ↦ rfl) hids
    case carryOver id target =>
      obtain ⟨_, _, rfl⟩ := heffect
      exact nodup_map_updateWhere (fun _ ↦ rfl) hids
  · rw [heffect.frame.workItems hwrites]
    exact hids

/-- One call of a sequence that keeps within a condition: it runs alone. -/
def CallStep (allowed : Db → WorkRequest → Prop) (db after : Db) : Prop :=
  ∃ request, allowed db request ∧ after = (request.serve.run db).2

/-- The stores a list of requests leads to, one call after the other. -/
def runCalls (db : Db) (requests : List WorkRequest) : Db :=
  requests.foldl (fun store request ↦ (request.serve.run store).2) db

/-- Every call of a list keeps within a condition. -/
def AllowsCalls (allowed : Db → WorkRequest → Prop) : Db → List WorkRequest → Prop
  | _, [] => True
  | db, request :: rest => allowed db request ∧ AllowsCalls allowed (request.serve.run db).2 rest

instance AllowsCalls.decidable {allowed : Db → WorkRequest → Prop}
    [∀ db request, Decidable (allowed db request)] :
    (db : Db) → (requests : List WorkRequest) → Decidable (AllowsCalls allowed db requests)
  | _, [] => .isTrue trivial
  | db, request :: rest =>
    have : Decidable (AllowsCalls allowed (request.serve.run db).2 rest) :=
      AllowsCalls.decidable _ rest
    inferInstanceAs (Decidable (_ ∧ _))

/-- A list of requests that keeps within a condition is a sequence of calls. -/
theorem runCalls_reachable {allowed : Db → WorkRequest → Prop} (requests : List WorkRequest)
    (hallowed : AllowsCalls allowed db requests) :
    Relation.ReflTransGen (CallStep allowed) db (runCalls db requests) := by
  induction requests generalizing db with
  | nil => exact .refl
  | cons request rest ih => exact .head ⟨request, hallowed.1, rfl⟩ (ih hallowed.2)

/-- Assumes: the calls keep a store in order, and on a store in order a call keeps the property exactly
where it keeps within the condition. The property holds in every store that a list of requests reaches
exactly if they keep within the condition. By induction on the list. -/
theorem allowsCalls_iff {inOrder property : Db → Prop} {allowed : Db → WorkRequest → Prop}
    (horder : ∀ (db : Db) (request : WorkRequest), inOrder db → inOrder (request.serve.run db).2)
    (hstep : ∀ (db : Db) (request : WorkRequest), inOrder db → property db →
      (property (request.serve.run db).2 ↔ allowed db request))
    (requests : List WorkRequest) (hdb : inOrder db) (hproperty : property db) :
    (∀ served, served <+: requests → property (runCalls db served)) ↔ AllowsCalls allowed db requests := by
  induction requests generalizing db with
  | nil =>
    refine ⟨fun _ ↦ trivial, fun _ served hserved ↦ ?_⟩
    obtain rfl := List.prefix_nil.mp hserved
    exact hproperty
  | cons request rest ih =>
    have hlater := horder db request hdb
    constructor
    · intro hreached
      have hnext := hreached [request] (List.prefix_append [request] rest)
      refine ⟨(hstep db request hdb hproperty).mp hnext, (ih hlater hnext).mp fun served hserved ↦ ?_⟩
      exact hreached (request :: served) ((List.prefix_cons_inj request).mpr hserved)
    · rintro ⟨hallowed, hrest⟩ served hserved
      have hnext := (hstep db request hdb hproperty).mpr hallowed
      cases served with
      | nil => exact hproperty
      | cons first later =>
        obtain ⟨rfl, hprefix⟩ := List.cons_prefix_cons.mp hserved
        exact (ih hlater hnext).mpr hrest later hprefix

/-- A workspace with one member and nothing else. -/
def emptyDb : Db where
  nextUuid := 100
  workspaceMembers := [{ workspaceId := 3, userId := 4 }]

/-- The member of the workspace. -/
def founder : Actor := { sub := 4, tenantId := 2 }

/-- Two projects, with the default statuses 102 to 105 and 108 to 111, and the item 112 of the
first. -/
def twoProjects : List WorkRequest :=
  [.createProject founder 3 ⟨"app", Eq.refl true⟩ "App" none none,
    .createProject founder 3 ⟨"web", Eq.refl true⟩ "Web" none none,
    .createWorkItem founder 100 .story "Login" {}]

end RallyApi.Work

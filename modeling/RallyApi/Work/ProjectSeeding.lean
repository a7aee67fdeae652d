import Mathlib
import RallyApi.Concurrency.UnitOfWork
import RallyApi.Work.ItemKeys

/-!
# A new project

`createProject` writes the project, its counter, the membership of its lead and its default statuses in one
unit of work (`seedProject`), any statement of which may fail.

`createProjectFailing_allOrNothing`: whichever step fails, and whatever other calls do in between, the call
leaves these tables alone up to the step with which it returns, and that leaves a usable project.
-/

set_option autoImplicit false
set_option relaxedAutoImplicit false

namespace RallyApi.Work

open Concurrency Platform Store

/-! ### The unit of work -/

/-- `set_config('app.tenant_id', …, true)`: the policies of the tenant are in force. -/
def setTenant : WorkCall Unit := Call.query .other fun _ ↦ ()

/-- An `INSERT` of the unit of work. -/
def insertRow (insert : Db → Except Failure Db) : WorkCall Unit :=
  Call.attempt (fun _ ↦ .other) fun db ↦ do
    let after ← insert db
    .ok ((), after)

/-- `ProjectDrizzleRepository.create`. -/
def insertProjectRow (project : Project) : WorkCall Project :=
  Call.attempt (fun _ ↦ .other) fun db ↦ do
    let created := { project with createdAt := db.now }
    let after ← insertProject created db
    .ok (created, after)

/-- One round of the loop over `DEFAULT_WORKFLOW_STATUSES`. -/
def seedStatus (tenantId projectId : Uuid)
    (status : String × WorkflowStatusCategory × String × ℤ × Bool) : WorkCall Unit := do
  let (name, category, color, position, isDefault) := status
  let id ← uuidv7
  insertRow (insertStatus { id, tenantId, projectId, name, category, color, position, isDefault })

/-- What `createProject` does in its unit of work. -/
def seedProject (project : Project) (leadId : Uuid) : WorkCall Project := do
  setTenant
  let created ← insertProjectRow project
  insertRow fun db ↦ .ok { db with
    projectCounters := initCounter project.id project.tenantId db.projectCounters }
  let memberId ← uuidv7
  insertRow (addProjectMember
    { id := memberId, tenantId := project.tenantId, projectId := project.id, userId := leadId })
  defaultWorkflowStatuses.forM (seedStatus project.tenantId project.id)
  pure created

/-! ### The calls -/

/-- Which step of `createProject` fails, and which one inside its unit of work. -/
structure Faults where
  step : Option (ℕ × Failure) := none
  statement : Option (ℕ × Failure) := none

/-- `createProject`, with what is done in its unit of work. -/
def createProjectWith (work : Project → Uuid → WorkCall Project) (actor : Actor) (workspaceId : Uuid)
    (key name : String) (description : Option String) (leadId : Option Uuid) : WorkCall Project := do
  let normalizedKey := normalizeKey key
  let existing ← findProjectByKey actor.tenantId normalizedKey
  Call.ensure existing.isNone (conflictException .projectKeyTaken
    ("Project key \"" ++ normalizedKey ++ "\" is already taken"))
  let resolvedLeadId := leadId.getD actor.sub
  let notMember := preconditionFailedException .projectLeadNotMember
    "The project lead must be an active member of this workspace"
  let lead ← findWorkspaceMember workspaceId resolvedLeadId
  let lead ← Call.require lead notMember
  Call.ensure (lead.status = .active) notMember
  let projectId ← uuidv7
  Call.unitOfWork .other .createProject (work
    { id := projectId, tenantId := actor.tenantId, workspaceId, key := normalizedKey, name,
      description, leadId := some resolvedLeadId, createdAt := 0 } resolvedLeadId)

/-- `createProject`, with steps that fail. -/
def createProjectFailing (faults : Faults) (actor : Actor) (workspaceId : Uuid) (key name : String)
    (description : Option String) (leadId : Option Uuid) : WorkCall Project :=
  (createProjectWith (fun project leadId ↦ (seedProject project leadId).failing faults.statement) actor
    workspaceId key name description leadId).failing faults.step

variable {db after : Db} {project : Project} {leadId tenantId projectId : Uuid}

/-! ### What the unit of work commits -/

/-- The store with another identifier to be drawn next. -/
def Db.drawing (db : Db) (nextUuid : ℕ) : Db := { db with nextUuid }

theorem insertStatus_drawing (status : WorkflowStatus) (db : Db) (nextUuid : ℕ) :
    insertStatus status (db.drawing nextUuid) =
      (insertStatus status db).map fun after ↦ after.drawing nextUuid := by
  unfold insertStatus checkPrimaryKey Db.drawing
  dsimp only
  split_ifs <;> rfl

theorem addProjectMember_drawing (member : ProjectMember) (db : Db) (nextUuid : ℕ) :
    addProjectMember member (db.drawing nextUuid) =
      (addProjectMember member db).map fun after ↦ after.drawing nextUuid := by
  unfold addProjectMember checkPrimaryKey Db.drawing
  dsimp only
  split_ifs <;> rfl

theorem insertRow_committed (insert : Db → Except Failure Db) (db : Db) :
    (insertRow insert).committed db = (insert db).map fun after ↦ ((), after) := by
  rw [insertRow, Call.committed_attempt]
  cases insert db <;> rfl

/-- The row of a default status, with its place among them. -/
def statusRow (tenantId projectId firstId : Uuid)
    (entry : (String × WorkflowStatusCategory × String × ℤ × Bool) × ℕ) : WorkflowStatus :=
  let ((name, category, color, position, isDefault), index) := entry
  { id := firstId + index, tenantId, projectId, name, category, color, position, isDefault }

theorem seedStatus_committed (tenantId projectId firstId : Uuid)
    (status : String × WorkflowStatusCategory × String × ℤ × Bool) (index : ℕ) (db : Db) :
    (seedStatus tenantId projectId status).committed (db.drawing (firstId + index)) =
      (insertStatus (statusRow tenantId projectId firstId (status, index)) db).map
        fun after ↦ ((), after.drawing (firstId + (index + 1))) := by
  obtain ⟨name, category, color, position, isDefault⟩ := status
  simp only [seedStatus, uuidv7_eq, Call.committed_bind, Call.committed_atomically]
  generalize hrow : statusRow tenantId projectId firstId ((name, category, color, position, isDefault), index)
    = row
  change (insertRow (insertStatus (statusRow tenantId projectId firstId
    ((name, category, color, position, isDefault), index)))).committed
    (db.drawing (firstId + (index + 1))) = _
  rw [insertRow_committed, hrow, insertStatus_drawing]
  cases insertStatus row db <;> rfl

/-- By induction on the statuses: the loop inserts the rows, with the identifiers that are drawn. -/
theorem seedStatuses_committed (tenantId projectId firstId : Uuid)
    (statuses : List (String × WorkflowStatusCategory × String × ℤ × Bool)) (index : ℕ) (db : Db) :
    (statuses.forM (seedStatus tenantId projectId)).committed (db.drawing (firstId + index)) =
      (((statuses.zipIdx index).map (statusRow tenantId projectId firstId)).foldlM
          (fun store status ↦ insertStatus status store) db).map
        fun after ↦ ((), after.drawing (firstId + (index + statuses.length))) := by
  induction statuses generalizing index db with
  | nil => rfl
  | cons status rest ih =>
    rw [List.forM_eq_forM, List.forM_cons, Call.committed_bind, seedStatus_committed, List.zipIdx_cons,
      List.map_cons, List.foldlM_cons]
    cases insertStatus (statusRow tenantId projectId firstId (status, index)) db with
    | error failure => rfl
    | ok middle =>
      refine (ih (index + 1) middle).trans ?_
      rw [List.length_cons, Nat.add_right_comm index 1, Nat.add_assoc index]
      rfl

/-- The unit of work from the counter on, from the store with the counter. -/
theorem seedMembers_committed (project created : Project) (leadId : Uuid) (store : Db) :
    (do
      let memberId ← uuidv7
      insertRow (addProjectMember
        { id := memberId, tenantId := project.tenantId, projectId := project.id, userId := leadId })
      defaultWorkflowStatuses.forM (seedStatus project.tenantId project.id)
      pure created : WorkCall Project).committed store =
    (do
      let withMember ← addProjectMember
        { id := store.nextUuid, tenantId := project.tenantId, projectId := project.id,
          userId := leadId } store
      let withStatuses ← (defaultStatusRows project.tenantId project.id (store.nextUuid + 1)).foldlM
        (fun store status ↦ insertStatus status store) withMember
      pure (created, withStatuses.drawing (store.nextUuid + 1 + defaultWorkflowStatuses.length))) := by
  simp only [Call.committed_bind, insertRow_committed, uuidv7_eq, Call.committed_atomically]
  change ((addProjectMember
    { id := store.nextUuid, tenantId := project.tenantId, projectId := project.id, userId := leadId }
    (store.drawing (store.nextUuid + 1))).map _ >>= _) = _
  rw [addProjectMember_drawing]
  cases addProjectMember _ store with
  | error failure => rfl
  | ok withMember =>
    change ((defaultWorkflowStatuses.forM (seedStatus project.tenantId project.id)).committed
      (withMember.drawing (store.nextUuid + 1 + 0)) >>= _) = _
    rw [seedStatuses_committed]
    change (Except.map _ ((defaultStatusRows project.tenantId project.id (store.nextUuid + 1)).foldlM
      (fun store status ↦ insertStatus status store) withMember) >>= _) =
      ((defaultStatusRows project.tenantId project.id (store.nextUuid + 1)).foldlM
        (fun store status ↦ insertStatus status store) withMember >>= _)
    cases (defaultStatusRows project.tenantId project.id (store.nextUuid + 1)).foldlM
      (fun store status ↦ insertStatus status store) withMember <;> rfl

theorem insertProjectRow_committed (project : Project) (db : Db) :
    (insertProjectRow project).committed db = (insertProject { project with createdAt := db.now } db).map
      fun after ↦ ({ project with createdAt := db.now }, after) := by
  rw [insertProjectRow, Call.committed_attempt]
  dsimp only
  cases insertProject { project with createdAt := db.now } db <;> rfl

/-- The unit of work is the transaction of `createProject`. -/
theorem seedProject_committed (project : Project) (leadId : Uuid) (db : Db) :
    (seedProject project leadId).committed db = commitProject project leadId db := by
  rw [seedProject, Call.committed_bind]
  change (insertProjectRow project >>= _).committed db = _
  rw [Call.committed_bind, insertProjectRow_committed, commitProject]
  cases hproject : insertProject { project with createdAt := db.now } db with
  | error failure => rfl
  | ok withProject =>
    have huuid : withProject.nextUuid = db.nextUuid := by
      obtain ⟨-, -, rfl⟩ := insertProject_ok hproject
      rfl
    rw [← huuid]
    change (insertRow _ >>= _).committed withProject = _
    rw [Call.committed_bind, insertRow_committed]
    exact seedMembers_committed project { project with createdAt := db.now } leadId
      { withProject with
        projectCounters := initCounter project.id project.tenantId withProject.projectCounters }

/-- Without failing steps it is `createProject`. -/
theorem createProjectFailing_none (actor : Actor) (workspaceId : Uuid) (key name : String)
    (description : Option String) (leadId : Option Uuid) :
    createProjectFailing {} actor workspaceId key name description leadId =
      createProject actor workspaceId key name description leadId := by
  have hwork (project : Project) (leadId : Uuid) :
      Call.unitOfWork .other .createProject (seedProject project leadId) =
        transaction .createProject (commitProject project leadId) := by
    rw [Call.unitOfWork, transaction, funext (seedProject_committed project leadId)]
  simp only [createProjectFailing, createProjectWith, Call.failing, hwork, createProject]

/-- A unit of work with a failing step commits nothing else. -/
theorem commitProject_of_failing {fault : Option (ℕ × Failure)} {created : Project}
    (hcommitted : ((seedProject project leadId).failing fault).committed db = .ok (created, after)) :
    commitProject project leadId db = .ok (created, after) :=
  (seedProject_committed project leadId db).symm.trans (Call.committed_failing hcommitted)

/-! ### A usable project -/

/-- The keys are equal up to the case of their letters. -/
def EqualUpToCase (first second : String) : Prop :=
  first.toList.map Char.toLower = second.toList.map Char.toLower

/-- The tables that `createProject` writes are as they were. -/
structure SameTables (db after : Db) : Prop where
  projects : after.projects = db.projects
  projectCounters : after.projectCounters = db.projectCounters
  projectMembers : after.projectMembers = db.projectMembers
  workflowStatuses : after.workflowStatuses = db.workflowStatuses

/-- Every counter and every status belongs to a stored project. -/
structure Grounded (db : Db) : Prop where
  counters : ∀ counter ∈ db.projectCounters, counter.projectId ∈ db.projects.map Project.id
  statuses : ∀ status ∈ db.workflowStatuses, status.projectId ∈ db.projects.map Project.id

/-- What is to be seen of a status: its name, category, color and position and whether it is the default. -/
def WorkflowStatus.seed (status : WorkflowStatus) :
    String × WorkflowStatusCategory × Option String × ℤ × Bool :=
  (status.name, status.category, status.color, status.position, status.isDefault)

/-- The project is there as its actor has asked for it, and can be worked with. -/
structure Usable (actor : Actor) (key : String) (leadId : Uuid) (project : Project) (db : Db) : Prop where
  stored : project ∈ db.projects
  live : project.deletedAt = none
  tenant : project.tenantId = actor.tenantId
  key : EqualUpToCase project.key key
  upperCase : ∀ char ∈ project.key.toList, char.isLower = false
  counter : db.projectCounters.filter (fun counter ↦ counter.projectId = project.id) =
    [{ projectId := project.id, tenantId := project.tenantId, lastItemNumber := 0 }]
  lead : ∃ member ∈ db.projectMembers,
    member.projectId = project.id ∧ member.userId = leadId ∧ member.status = .active
  statuses : (statusesOf project.id db.workflowStatuses).map WorkflowStatus.seed =
    defaultWorkflowStatuses.map fun (name, category, color, position, isDefault) ↦
      (name, category, some color, position, isDefault)

theorem sameTables_refl (db : Db) : SameTables db db := ⟨rfl, rfl, rfl, rfl⟩

/-! ### Keys -/

theorem isWhitespace_of_isAlphanum {char : Char} (hchar : char.isAlphanum = true) :
    isWhitespace char = false := by
  rw [Bool.eq_false_iff]
  intro hspace
  simp only [isWhitespace, Bool.or_eq_true, decide_eq_true_eq, List.mem_cons, List.not_mem_nil,
    or_false] at hspace
  rcases hspace with hlisted | hrange
  · rcases hlisted with rfl | rfl | rfl | rfl | rfl | rfl | rfl | rfl | rfl | rfl | rfl | rfl | rfl | rfl <;>
      exact absurd hchar (by decide)
  · simp [Char.isAlphanum, Char.isAlpha, Char.isUpper, Char.isLower, Char.isDigit,
      UInt32.le_iff_toNat_le] at hchar hrange
    omega

theorem isAlphanum_toUpper {char : Char} (hchar : char.isAlphanum = true) :
    char.toUpper.isAlphanum = true := by
  by_cases hlower : char.isLower = true
  · simp [Char.isAlphanum, Char.isAlpha, hlower]
  · rwa [Char.toUpper_eq_of_not_isLower hlower]

/-- A valid key has no blanks to be trimmed. -/
theorem toList_normalizeKey {key : String} (hkey : validKey key = true) :
    (normalizeKey key).toList = key.toList.map Char.toUpper := by
  rw [normalizeKey, String.toList_ofList]
  refine trimChars_eq_self fun upper hupper ↦ ?_
  obtain ⟨char, hchar, rfl⟩ := List.mem_map.mp hupper
  exact isWhitespace_of_isAlphanum (isAlphanum_toUpper (isAlphanum_of_validKey hkey char hchar))

theorem equalUpToCase_normalizeKey {key : String} (hkey : validKey key = true) :
    EqualUpToCase (normalizeKey key) key := by
  rw [EqualUpToCase, toList_normalizeKey hkey, List.map_map]
  exact List.map_congr_left fun char _ ↦ Char.toLower_toUpper_eq_toLower char

theorem upperCase_normalizeKey {key : String} (hkey : validKey key = true) :
    ∀ char ∈ (normalizeKey key).toList, char.isLower = false := by
  rw [toList_normalizeKey hkey]
  intro upper hupper
  obtain ⟨char, -, rfl⟩ := List.mem_map.mp hupper
  exact Char.isLower_toUpper_eq_false char

/-- Keys that are equal up to case are stored as one. -/
theorem normalizeKey_eq {first second : String} (hsame : EqualUpToCase first second) :
    normalizeKey first = normalizeKey second := by
  have hupper : first.toList.map Char.toUpper = second.toList.map Char.toUpper := by
    simpa [Function.comp_def] using congrArg (List.map Char.toUpper) hsame
  rw [normalizeKey, normalizeKey, hupper]

/-! ### What is committed is usable -/

/-- The lead is a member of the project. -/
theorem commitProject_lead {created : Project}
    (hcommit : commitProject project leadId db = .ok (created, after)) :
    ∃ member ∈ after.projectMembers,
      member.projectId = project.id ∧ member.userId = leadId ∧ member.status = .active := by
  obtain ⟨withProject, hproject, hcommit⟩ := bind_eq_ok.mp hcommit
  obtain ⟨withMember, hmember, hcommit⟩ := bind_eq_ok.mp hcommit
  obtain ⟨withStatuses, hstatuses, hcommit⟩ := bind_eq_ok.mp hcommit
  obtain rfl := addProjectMember_ok hmember
  obtain rfl := insertStatuses_ok hstatuses
  obtain ⟨rfl, rfl⟩ := Prod.mk.inj (Except.ok.inj hcommit)
  exact ⟨_, List.mem_append_right _ List.mem_cons_self, rfl, rfl, rfl⟩

/-- The counter of a project that had none. -/
theorem filter_initCounter {counters : List ProjectCounter}
    (hnone : ∀ counter ∈ counters, counter.projectId ≠ projectId) :
    (initCounter projectId tenantId counters).filter (fun counter ↦ counter.projectId = projectId) =
      [{ projectId, tenantId, lastItemNumber := 0 }] := by
  have hany : counters.any (fun counter ↦ counter.projectId = projectId) = false := by
    simpa [List.any_eq_false] using hnone
  have hfilter : counters.filter (fun counter ↦ counter.projectId = projectId) = [] := by
    simpa [List.filter_eq_nil_iff] using hnone
  rw [initCounter, hany, if_neg Bool.false_ne_true, List.filter_append, hfilter]
  simp

/-- The statuses of a project that had none, by position. -/
theorem statusesOf_defaultStatusRows {statuses : List WorkflowStatus} (firstId : Uuid)
    (hnone : ∀ status ∈ statuses, status.projectId ≠ projectId) :
    (statusesOf projectId (statuses ++ defaultStatusRows tenantId projectId firstId)).map
        WorkflowStatus.seed =
      defaultWorkflowStatuses.map fun (name, category, color, position, isDefault) ↦
        (name, category, some color, position, isDefault) := by
  have hfilter : statuses.filter (fun status ↦ status.projectId = projectId) = [] := by
    simpa [List.filter_eq_nil_iff] using hnone
  rw [statusesOf, List.filter_append, hfilter, List.nil_append]
  simp [defaultStatusRows, defaultWorkflowStatuses, WorkflowStatus.seed]

/-- Assumes: every counter and every status belongs to a stored project. What `createProject` commits is a
usable project. -/
theorem commitProject_usable {actor : Actor} {key : String} (hkey : validKey key = true)
    (hgrounded : Grounded db) (htenant : project.tenantId = actor.tenantId)
    (hnormalized : project.key = normalizeKey key) (hlive : project.deletedAt = none) {created : Project}
    (hcommit : commitProject project leadId db = .ok (created, after)) :
    Usable actor key leadId created after := by
  have hlead := commitProject_lead hcommit
  obtain ⟨rfl, hfresh, -, projectMembers, nextUuid, rfl⟩ := commitProject_ok hcommit
  have hcounters : ∀ counter ∈ db.projectCounters, counter.projectId ≠ project.id :=
    fun counter hcounter hid ↦ hfresh (hid ▸ hgrounded.counters counter hcounter)
  have hstatuses : ∀ status ∈ db.workflowStatuses, status.projectId ≠ project.id :=
    fun status hstatus hid ↦ hfresh (hid ▸ hgrounded.statuses status hstatus)
  exact {
    stored := List.mem_append_right _ List.mem_cons_self
    live := hlive
    tenant := htenant
    key := hnormalized ▸ equalUpToCase_normalizeKey hkey
    upperCase := hnormalized ▸ upperCase_normalizeKey hkey
    counter := filter_initCounter hcounters
    lead := hlead
    statuses := statusesOf_defaultStatusRows _ hstatuses }

/-- What `createProject` does, it does in the step with which it returns. -/
theorem createProjectFailing_allOrNothing (faults : Faults) (actor : Actor) (workspaceId : Uuid)
    (key : ProjectKey) (name : String) (description : Option String) (leadId : Option Uuid) :
    (createProjectFailing faults actor workspaceId key name description leadId).AllOrNothing SameTables
      fun db project after ↦ Grounded db → Usable actor key (leadId.getD actor.sub) project after := by
  refine Call.AllOrNothing.failing ?_ faults.step
  refine Call.allOrNothing_bind (by simp [findProjectByKey, sameTables_refl]) fun existing _ ↦ ?_
  refine Call.allOrNothing_bind (Call.only_ensure _ _) fun _ _ ↦ ?_
  refine Call.allOrNothing_bind (by simp [findWorkspaceMember, sameTables_refl]) fun found _ ↦ ?_
  refine Call.allOrNothing_bind (Call.only_require _ _) fun lead _ ↦ ?_
  refine Call.allOrNothing_bind (Call.only_ensure _ _) fun _ _ ↦ ?_
  refine Call.allOrNothing_bind ?_ fun projectId _ ↦ ?_
  · exact (Call.only_atomically _ _).mpr fun db ↦ ⟨rfl, rfl, rfl, rfl⟩
  · refine Call.allOrNothing_transaction sameTables_refl fun db project after hcommitted hgrounded ↦ ?_
    exact commitProject_usable key.property hgrounded rfl rfl rfl (commitProject_of_failing hcommitted)

end RallyApi.Work

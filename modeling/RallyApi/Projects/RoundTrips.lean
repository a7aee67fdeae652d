import RallyApi.Projects.Memberships
import RallyApi.Store.SoftRemoval
import RallyApi.Tenancy.Invitations

/-!
# Adding and removing members

Members of workspaces, members of projects and teams of projects are removed softly, in three
implementations that treat the row that stays differently. `TenancyService` looks for a row of any status:
a removed member is refused as a member already, and can be removed again. `ProjectsService` looks for an
active row and then inserts, against the unique index that the old row still occupies (`removedForGood`).

Each of them implements a relation with soft removal, and `membership_roundTrips_iff` says exactly which
sequences of calls add and remove as the relation would have it.
-/

set_option autoImplicit false
set_option relaxedAutoImplicit false

namespace RallyApi.Projects

open Concurrency CrossTenant Platform Store
open Work (WorkStep)

/-- Whether a call that runs alone succeeds, and the store it leaves. -/
def attempted {Store Label α : Type} (call : Call Store Label Failure α) (db : Store) : Bool × Store :=
  ((call.run db).1.isOk, (call.run db).2)

section Attempted

variable {Store Label Row α β : Type} {db : Store} {parent : Call Store Label Failure β}
  {found : β} {failure : Failure} {read : Label} {lookup : Store → Option Row}

/-- A statement commits, or fails and changes nothing. -/
theorem attempted_attempt {label : Store → Label} {statement : Store → Except Failure (α × Store)} :
    attempted (Call.attempt label statement) db = match statement db with
      | .ok (_, after) => (true, after)
      | .error _ => (false, db) := by
  unfold attempted
  rw [Call.run_attempt]
  cases statement db <;> rfl

/-- Assumes: the container is found, and an identifier is drawn. An addition is refused where the lookup
finds a row, and inserts otherwise. -/
theorem attempted_addition {drawing : Call Store Label Failure Uuid} {id : Uuid} {drawn : Store}
    {insertion : Uuid → Call Store Label Failure α} (hparent : parent.run db = (.ok found, db))
    (hdrawing : drawing.run db = (.ok id, drawn)) :
    attempted (do
      let _ ← parent
      let existing ← Call.query read lookup
      Call.ensure existing.isNone failure
      let id ← drawing
      insertion id) db =
      if (lookup db).isSome = true then (false, db) else attempted (insertion id) drawn := by
  unfold attempted
  rw [Call.run_bind, hparent]
  cases hlookup : lookup db with
  | none => simp [Call.run_bind, hlookup, hdrawing]
  | some row => simp [Call.run_bind, hlookup, Call.ensure, Except.isOk, Except.toBool]

/-- Assumes: the container is found. A removal is refused where the lookup finds no row. -/
theorem attempted_removal {label : Store → Label} {rewritten : Store → Store}
    (hparent : parent.run db = (.ok found, db)) :
    attempted (do
      let _ ← parent
      let existing ← Call.query read lookup
      Call.ensure existing.isSome failure
      Call.atomically label fun store ↦ ((), rewritten store)) db =
      if (lookup db).isSome = true then (true, rewritten db) else (false, db) := by
  unfold attempted
  rw [Call.run_bind, hparent]
  cases hlookup : lookup db with
  | none => simp [Call.run_bind, hlookup, Call.ensure, Except.isOk, Except.toBool]
  | some row => simp [Call.run_bind, hlookup, Except.isOk, Except.toBool]

end Attempted

/-! ### Members of a workspace -/

/-- What `addMember` and `removeMember` are called with. -/
structure WorkspaceMembership where
  tenantId : Uuid
  workspaceId : Uuid
  userId : Uuid
  deriving DecidableEq, Repr

/-- The members of workspaces. -/
def workspaceMembers :
    SoftRelation Tenancy.Db Identity.WorkspaceMember (Uuid × Uuid) WorkspaceMembership where
  rows db := db.workspaceMembers
  nextId db := db.nextUuid
  put rows next db := { db with workspaceMembers := rows, nextUuid := next }
  rows_put _ _ _ := rfl
  nextId_put _ _ _ := rfl
  id := Identity.WorkspaceMember.id
  pair row := (row.workspaceId, row.userId)
  active row := row.status = .active
  about target := (target.workspaceId, target.userId)
  live target db := ((db.workspaces.find? fun workspace ↦ workspace.id = target.workspaceId).filter
    fun workspace ↦ workspace.deletedAt = none ∧ workspace.tenantId = target.tenantId).isSome = true
  live_put _ _ _ _ := Iff.rfl
  anyRow := true

instance (target : WorkspaceMembership) (db : Tenancy.Db) :
    Decidable (workspaceMembers.live target db) := inferInstanceAs (Decidable (_ = true))

/-- `TenancyService.addMember` and `removeMember`. -/
def performMember : Operation WorkspaceMembership → Tenancy.Db → Bool × Tenancy.Db
  | .add target =>
    attempted (Tenancy.addMember target.tenantId target.workspaceId target.userId)
  | .remove target =>
    attempted (Tenancy.removeMember target.tenantId target.workspaceId target.userId)

section Workspace

variable {db : Tenancy.Db} {target : WorkspaceMembership}

theorem getWorkspace_run (hlive : workspaceMembers.live target db) : ∃ workspace,
    (Tenancy.getWorkspace target.tenantId target.workspaceId).run db = (.ok workspace, db) := by
  obtain ⟨workspace, hfound⟩ := Option.isSome_iff_exists.mp hlive
  refine ⟨workspace, ?_⟩
  simp only [Tenancy.getWorkspace, Tenancy.findWorkspaceById, Call.run_bind, Call.run_query]
  rw [hfound]
  rfl

/-- The lookup of a member finds a row of any status. -/
theorem findMember_isSome :
    (db.workspaceMembers.find? fun member ↦
      member.workspaceId = target.workspaceId ∧ member.userId = target.userId).isSome = true ↔
      workspaceMembers.standing target db ≠ .absent := by
  rw [Ne, standing_eq_absent, List.find?_isSome]
  simp [workspaceMembers]

theorem insertWorkspaceMember_eq (member : Identity.WorkspaceMember)
    (members : List Identity.WorkspaceMember) :
    Identity.insertWorkspaceMember member members =
      insertUnique (.uniqueViolation "workspace_members_pkey") (.uniqueViolation "uq_workspace_member")
        workspaceMembers.id workspaceMembers.pair member members := by
  simp [Identity.insertWorkspaceMember, insertUnique, workspaceMembers]

/-- Assumes: the new row has the next identifier, and its pair no row. It is inserted. -/
theorem insertWorkspaceMember_ok {row : Identity.WorkspaceMember} (hproper : workspaceMembers.Proper db)
    (hid : row.id = db.nextUuid) (hpair : workspaceMembers.pair row = workspaceMembers.about target)
    (habsent : workspaceMembers.standing target db = .absent) :
    Identity.insertWorkspaceMember row db.workspaceMembers = .ok (db.workspaceMembers ++ [row]) := by
  rw [insertWorkspaceMember_eq]
  exact (hproper.insertUnique_eq target hid hpair).trans (if_pos habsent)

end Workspace

/-- `TenancyService` implements the relation: `addMember` and `removeMember` look for a row of any
status. -/
theorem performMember_implements : Implements workspaceMembers performMember where
  add target db hproper hlive := by
    obtain ⟨workspace, hworkspace⟩ := getWorkspace_run hlive
    let row : Identity.WorkspaceMember :=
      { id := db.nextUuid, tenantId := target.tenantId, workspaceId := target.workspaceId,
        userId := target.userId, joinedAt := timestampOfDate db.now }
    refine ⟨row, db.nextUuid, ⟨rfl, rfl, rfl, Nat.le_refl _⟩,
      (attempted_addition hworkspace rfl).trans ?_⟩
    by_cases habsent : workspaceMembers.standing target db = .absent
    · have hinsert : Identity.insertWorkspaceMember row db.workspaceMembers = _ :=
        insertWorkspaceMember_ok hproper rfl rfl habsent
      rw [if_neg (mt findMember_isSome.mp (not_not.mpr habsent)), if_pos habsent, Tenancy.transaction,
        Call.transaction, attempted_attempt]
      simp only [Tenancy.addMemberRow, Tenancy.uuidSource, UuidSource.counter]
      rw [hinsert]
      rfl
    · rw [if_pos (findMember_isSome.mpr habsent), if_neg habsent]
      rfl
  remove target db hproper hlive := by
    obtain ⟨workspace, hworkspace⟩ := getWorkspace_run hlive
    refine ⟨_, _, ?_, (attempted_removal hworkspace).trans (if_congr ?_ rfl rfl)⟩
    · exact fun row ↦ ⟨rfl, rfl⟩
    · rw [findMember_isSome, SoftRelation.Finds]
      cases workspaceMembers.standing target db <;> simp [workspaceMembers]

/-! ### Members of a project -/

/-- What `addProjectMember` and `removeProjectMember` are called with; a removal has no role. -/
structure ProjectMembership where
  tenantId : Uuid
  projectId : Uuid
  userId : Uuid
  roleId : Option Uuid := none
  deriving DecidableEq, Repr

/-- The project is there, for the tenant. -/
def projectLive (tenantId projectId : Uuid) (db : Work.Db) : Prop :=
  ((db.projects.find? fun project ↦ project.id = projectId).filter
    fun project ↦ project.deletedAt = none ∧ project.tenantId = tenantId).isSome = true

instance (tenantId projectId : Uuid) (db : Work.Db) : Decidable (projectLive tenantId projectId db) :=
  inferInstanceAs (Decidable (_ = true))

/-- A project that is there is found, by a call on the store of the work services within another. -/
theorem getProject_run {Store Label : Type} (part : Part Store Work.Db) (relabel : WorkStep → Label)
    {tenantId projectId : Uuid} {db : Store} (hlive : projectLive tenantId projectId (part.get db)) :
    ∃ project, ((Work.getProject tenantId projectId).within part relabel).run db = (.ok project, db) := by
  obtain ⟨project, hfound⟩ := Option.isSome_iff_exists.mp hlive
  obtain ⟨hfound, hproject⟩ := Option.filter_eq_some_iff.mp hfound
  refine ⟨project, ?_⟩
  simp only [Work.getProject, Work.findProjectById, Call.within_bind, Call.within_query,
    Call.within_require, Call.within_ensure, Call.run_bind, Call.run_query]
  rw [hfound]
  simp [Call.require, Call.ensure, of_decide_eq_true hproject]
  rfl

/-- The members of projects. -/
def projectMembers : SoftRelation Db ProjectMemberRow (Uuid × Uuid) ProjectMembership where
  rows db := db.projectMembers
  nextId db := db.work.nextUuid
  put rows next db := { db with work := { db.work with nextUuid := next } }.withMembers rows
  rows_put _ _ _ := rfl
  nextId_put _ _ _ := rfl
  id row := row.id
  pair row := (row.projectId, row.userId)
  active row := row.status = .active
  about target := (target.projectId, target.userId)
  live target db := projectLive target.tenantId target.projectId db.work
  live_put _ _ _ _ := Iff.rfl
  anyRow := false

instance (target : ProjectMembership) (db : Db) : Decidable (projectMembers.live target db) :=
  inferInstanceAs (Decidable (projectLive _ _ _))

/-- `ProjectsService.addProjectMember` and `removeProjectMember`. -/
def performProjectMember : Operation ProjectMembership → Db → Bool × Db
  | .add target =>
    attempted (addProjectMember target.tenantId target.projectId target.userId target.roleId)
  | .remove target =>
    attempted (removeProjectMember target.tenantId target.projectId target.userId)

/-- The members as they are. -/
theorem Db.withMembers_self (db : Db) : db.withMembers db.projectMembers = db := by
  obtain ⟨work, rows, hmembers⟩ := db
  simp only [Db.withMembers, ← hmembers]

/-- Drawing an identifier leaves the members alone. -/
theorem uuidv7_run (db : Db) : (ofWork Work.uuidv7).run db =
    (.ok db.work.nextUuid, { db with work := { db.work with nextUuid := db.work.nextUuid + 1 } }) := rfl

/-- The lookup of a project member finds an active row. -/
theorem findProjectMember_isSome {db : Db} {target : ProjectMembership}
    (hproper : projectMembers.Proper db) :
    (db.projectMembers.find? fun member ↦ member.projectId = target.projectId ∧
      member.userId = target.userId ∧ member.status = .active).isSome = true ↔
      projectMembers.standing target db = .active := by
  rw [standing_eq_active hproper, List.find?_isSome]
  simp [projectMembers, and_assoc]

/-- A member is inserted against the primary key and `uq_project_member`. -/
theorem attempted_addMemberRow (id tenantId projectId userId : Uuid) (roleId : Option Uuid) (db : Db) :
    attempted (addMemberRow id tenantId projectId userId roleId) db =
      match insertUnique (Failure.uniqueViolation "project_members_pkey")
        (Failure.uniqueViolation "uq_project_member") projectMembers.id projectMembers.pair
        { id, tenantId, projectId, userId, roleId, joinedAt := floorToMilliseconds db.work.now }
        db.projectMembers with
      | .ok rows => (true, db.withMembers rows)
      | .error _ => (false, db) := by
  have hany (condition : Work.ProjectMember → Prop) :
      (∃ row ∈ db.work.projectMembers, condition row) ↔
        ∃ row ∈ db.projectMembers, condition row.toProjectMember := by
    rw [db.members]
    simp
  simp only [addMemberRow, attempted_attempt, Work.addProjectMember, Work.checkPrimaryKey, insertUnique,
    List.any_eq_true, decide_eq_true_eq, hany]
  simp only [projectMembers, Prod.mk.injEq]
  split_ifs <;> rfl

/-- `ProjectsService` implements the relation of projects and users: the lookups see active rows, and the
unique index sees all. -/
theorem performProjectMember_implements : Implements projectMembers performProjectMember where
  add target db hproper hlive := by
    obtain ⟨project, hproject⟩ := getProject_run workPart id hlive
    let row : ProjectMemberRow :=
      { id := db.work.nextUuid, tenantId := target.tenantId, projectId := target.projectId,
        userId := target.userId, roleId := target.roleId, joinedAt := floorToMilliseconds db.work.now }
    have hinsert : insertUnique (Failure.uniqueViolation "project_members_pkey")
        (Failure.uniqueViolation "uq_project_member") projectMembers.id projectMembers.pair row
        db.projectMembers = _ := hproper.insertUnique_eq target rfl rfl
    refine ⟨row, if projectMembers.standing target db = .active then db.work.nextUuid
        else db.work.nextUuid + 1, ⟨rfl, rfl, rfl, ?_⟩,
        (attempted_addition hproject (uuidv7_run db)).trans ?_⟩
    · split_ifs
      · exact Nat.le_refl _
      · exact Nat.le_succ _
    · simp only [findProjectMember_isSome hproper, attempted_addMemberRow]
      rw [hinsert]
      -- What is left of a refused addition is the identifier, if it has been drawn.
      cases projectMembers.standing target db with
      | absent => rfl
      | active => exact congrArg (Prod.mk false) (Db.withMembers_self db).symm
      | inactive => exact congrArg (Prod.mk false) (Db.withMembers_self _).symm
  remove target db hproper hlive := by
    obtain ⟨project, hproject⟩ := getProject_run workPart id hlive
    refine ⟨_, _, ?_, (attempted_removal hproject).trans (if_congr ?_ rfl ?_)⟩
    · exact fun row ↦ ⟨rfl, rfl⟩
    · rw [findProjectMember_isSome hproper, SoftRelation.Finds]
      simp [projectMembers]
    · exact congrArg (Prod.mk false) db.withMembers_self.symm

/-! ### Teams of a project -/

/-- What `linkTeam` and `unlinkTeam` are called with. -/
structure TeamMembership where
  tenantId : Uuid
  projectId : Uuid
  teamId : Uuid
  deriving DecidableEq, Repr

/-- The teams of projects. -/
def projectTeams : SoftRelation CrossTenant.Db ProjectTeam (Uuid × Uuid) TeamMembership where
  rows db := db.projectTeams
  nextId db := db.work.nextUuid
  put rows next db := withLinks { db with work := { db.work with nextUuid := next } } rows
  rows_put _ _ _ := rfl
  nextId_put _ _ _ := rfl
  id row := row.id
  pair row := (row.projectId, row.teamId)
  active row := row.status = .active
  about target := (target.projectId, target.teamId)
  live target db := projectLive target.tenantId target.projectId db.work
  live_put _ _ _ _ := Iff.rfl
  anyRow := false

instance (target : TeamMembership) (db : CrossTenant.Db) : Decidable (projectTeams.live target db) :=
  inferInstanceAs (Decidable (projectLive _ _ _))

/-- `ProjectsService.linkTeam` and `unlinkTeam`. -/
def performLink : Operation TeamMembership → CrossTenant.Db → Bool × CrossTenant.Db
  | .add target => attempted (linkTeam target.tenantId target.projectId target.teamId)
  | .remove target => attempted (unlinkTeam target.tenantId target.projectId target.teamId)

/-- The links as they are. -/
theorem withLinks_self (db : CrossTenant.Db) : withLinks db db.projectTeams = db := by
  obtain ⟨work, workspaces, teams, teamMembers, rows, comments, hlinks⟩ := db
  simp only [withLinks, ← hlinks]

/-- One more link. -/
theorem addLink_eq (db : CrossTenant.Db) (link : ProjectTeam) :
    db.addLink link = withLinks db (db.projectTeams ++ [link]) := by
  simp only [CrossTenant.Db.addLink, withLinks, db.links, List.map_append, List.map_singleton]

/-- Drawing an identifier leaves the links alone. -/
theorem crossUuidv7_run (db : CrossTenant.Db) : CrossTenant.uuidv7.run db =
    (.ok db.work.nextUuid, { db with work := { db.work with nextUuid := db.work.nextUuid + 1 } }) := rfl

/-- The lookup of a link finds an active row. -/
theorem findLink_isSome {db : CrossTenant.Db} {target : TeamMembership} (hproper : projectTeams.Proper db) :
    (db.projectTeams.find? fun link ↦ link.projectId = target.projectId ∧
      link.teamId = target.teamId ∧ link.status = .active).isSome = true ↔
      projectTeams.standing target db = .active := by
  rw [standing_eq_active hproper, List.find?_isSome]
  simp [projectTeams, and_assoc]

/-- A link is inserted against the primary key and `uq_project_team`. -/
theorem attempted_insertLink (id tenantId projectId teamId : Uuid) (db : CrossTenant.Db) :
    attempted (insertLink id tenantId projectId teamId) db =
      match insertUnique (Failure.uniqueViolation "project_teams_pkey")
        (Failure.uniqueViolation "uq_project_team") projectTeams.id projectTeams.pair
        { id, tenantId, projectId, teamId, linkedAt := floorToMilliseconds db.work.now } db.projectTeams with
      | .ok rows => (true, withLinks db rows)
      | .error _ => (false, db) := by
  simp only [insertLink, statement, attempted_attempt, Work.checkPrimaryKey, insertUnique,
    List.any_eq_true, decide_eq_true_eq, addLink_eq]
  simp only [projectTeams, Prod.mk.injEq]
  split_ifs <;> rfl

/-- `ProjectsService` implements the relation of projects and teams in the same way. -/
theorem performLink_implements : Implements projectTeams performLink where
  add target db hproper hlive := by
    obtain ⟨project, hproject⟩ := getProject_run CrossTenant.workPart CrossStep.work hlive
    let row : ProjectTeam :=
      { id := db.work.nextUuid, tenantId := target.tenantId, projectId := target.projectId,
        teamId := target.teamId, linkedAt := floorToMilliseconds db.work.now }
    have hinsert : insertUnique (Failure.uniqueViolation "project_teams_pkey")
        (Failure.uniqueViolation "uq_project_team") projectTeams.id projectTeams.pair row
        db.projectTeams = _ := hproper.insertUnique_eq target rfl rfl
    refine ⟨row, if projectTeams.standing target db = .active then db.work.nextUuid
        else db.work.nextUuid + 1, ⟨rfl, rfl, rfl, ?_⟩,
        (attempted_addition hproject (crossUuidv7_run db)).trans ?_⟩
    · split_ifs
      · exact Nat.le_refl _
      · exact Nat.le_succ _
    · simp only [findLink_isSome hproper, attempted_insertLink]
      rw [hinsert]
      cases projectTeams.standing target db with
      | absent => rfl
      | active => exact congrArg (Prod.mk false) (withLinks_self db).symm
      | inactive => exact congrArg (Prod.mk false) (withLinks_self _).symm
  remove target db hproper hlive := by
    obtain ⟨project, hproject⟩ := getProject_run CrossTenant.workPart CrossStep.work hlive
    refine ⟨_, _, ?_, (attempted_removal hproject).trans (if_congr ?_ rfl ?_)⟩
    · exact fun row ↦ ⟨rfl, rfl⟩
    · rw [findLink_isSome hproper, SoftRelation.Finds]
      simp [projectTeams]
    · exact congrArg (Prod.mk false) (withLinks_self db).symm

/-! ### The three relations -/

/-- Assumes: a pair has one row in each table, identifiers are fresh, and the workspace or the project of
each call is there, for the tenant. The calls of a sequence all make the round trip if and only if none
of them finds an inactive row of its pair; removals from a project may. -/
theorem membership_roundTrips_iff (tenancyDb : Tenancy.Db) (db : Db) (linksDb : CrossTenant.Db)
    (memberCalls : List (Operation WorkspaceMembership))
    (projectMemberCalls : List (Operation ProjectMembership))
    (linkCalls : List (Operation TeamMembership)) :
    (workspaceMembers.Proper tenancyDb → (∀ call ∈ memberCalls, workspaceMembers.live call.target tenancyDb) →
      (Along performMember (workspaceMembers.RoundTrip performMember) tenancyDb memberCalls ↔
        Along performMember workspaceMembers.Unremoved tenancyDb memberCalls)) ∧
    (projectMembers.Proper db → (∀ call ∈ projectMemberCalls, projectMembers.live call.target db) →
      (Along performProjectMember (projectMembers.RoundTrip performProjectMember) db projectMemberCalls ↔
        Along performProjectMember projectMembers.Unremoved db projectMemberCalls)) ∧
    (projectTeams.Proper linksDb → (∀ call ∈ linkCalls, projectTeams.live call.target linksDb) →
      (Along performLink (projectTeams.RoundTrip performLink) linksDb linkCalls ↔
        Along performLink projectTeams.Unremoved linksDb linkCalls)) :=
  ⟨performMember_implements.along_roundTrip_iff, performProjectMember_implements.along_roundTrip_iff,
    performLink_implements.along_roundTrip_iff⟩

/-! ### Back again -/

/-- A project of a tenant. -/
def exampleProject : Work.Db where
  nextUuid := 10
  projects := [{ id := 6, tenantId := 2, workspaceId := 4, key := "ACME", name := "Acme",
                 createdAt := 0 }]

/-- The project without members. -/
def exampleMembers : Db where
  work := exampleProject
  members := rfl

/-- The project without teams. -/
def exampleLinks : CrossTenant.Db where
  work := exampleProject
  links := rfl

/-- A witness that the condition can be met: a member is added, the second addition is refused, and the
member is removed. -/
theorem membership_roundTrips_witness :
    Along performMember (workspaceMembers.RoundTrip performMember) Tenancy.exampleDb
        [.remove ⟨2, 4, 21⟩, .add ⟨2, 4, 21⟩, .add ⟨2, 4, 21⟩, .remove ⟨2, 4, 21⟩] ∧
      Along performProjectMember (projectMembers.RoundTrip performProjectMember) exampleMembers
        [.add ⟨2, 6, 21, none⟩, .add ⟨2, 6, 21, none⟩, .remove ⟨2, 6, 21, none⟩,
          .remove ⟨2, 6, 21, none⟩] ∧
      Along performLink (projectTeams.RoundTrip performLink) exampleLinks
        [.add ⟨2, 6, 31⟩, .add ⟨2, 6, 31⟩, .remove ⟨2, 6, 31⟩, .remove ⟨2, 6, 31⟩] := by
  have hmember := (membership_roundTrips_iff Tenancy.exampleDb exampleMembers exampleLinks
    [.remove ⟨2, 4, 21⟩, .add ⟨2, 4, 21⟩, .add ⟨2, 4, 21⟩, .remove ⟨2, 4, 21⟩] [] []).1
    ⟨by decide, by decide⟩ (by decide)
  have hprojectMember := (membership_roundTrips_iff Tenancy.exampleDb exampleMembers exampleLinks []
    [.add ⟨2, 6, 21, none⟩, .add ⟨2, 6, 21, none⟩, .remove ⟨2, 6, 21, none⟩, .remove ⟨2, 6, 21, none⟩]
    []).2.1 ⟨by decide, by decide⟩ (by decide)
  have hlink := (membership_roundTrips_iff Tenancy.exampleDb exampleMembers exampleLinks [] []
    [.add ⟨2, 6, 31⟩, .add ⟨2, 6, 31⟩, .remove ⟨2, 6, 31⟩, .remove ⟨2, 6, 31⟩]).2.2
    ⟨by decide, by decide⟩ (by decide)
  exact ⟨hmember.mpr (by decide +kernel), hprojectMember.mpr (by decide +kernel),
    hlink.mpr (by decide +kernel)⟩

/-- Whoever has been removed is not added again: from the workspace because the old row counts as a
membership, from the project because the lookup passes and the unique index rejects the new row. A removed
member of the workspace can be removed again. -/
theorem removedForGood :
    ¬ Along performMember (workspaceMembers.RoundTrip performMember) Tenancy.exampleDb
        [.add ⟨2, 4, 21⟩, .remove ⟨2, 4, 21⟩, .add ⟨2, 4, 21⟩] ∧
      ¬ Along performMember (workspaceMembers.RoundTrip performMember) Tenancy.exampleDb
        [.add ⟨2, 4, 21⟩, .remove ⟨2, 4, 21⟩, .remove ⟨2, 4, 21⟩] ∧
      ¬ Along performProjectMember (projectMembers.RoundTrip performProjectMember) exampleMembers
        [.add ⟨2, 6, 21, none⟩, .remove ⟨2, 6, 21, none⟩, .add ⟨2, 6, 21, none⟩] ∧
      ¬ Along performLink (projectTeams.RoundTrip performLink) exampleLinks
        [.add ⟨2, 6, 31⟩, .remove ⟨2, 6, 31⟩, .add ⟨2, 6, 31⟩] := by
  decide +kernel

end RallyApi.Projects

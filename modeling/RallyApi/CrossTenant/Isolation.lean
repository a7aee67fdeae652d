import Mathlib.Data.String.Basic
import RallyApi.CrossTenant.Reads

/-!
# What an actor sees of other tenants

A request is isolated (`Isolated`) when every row it shows is of the actor's tenant, and when it returns
what it would return if the rows of all other tenants were gone (`Tables.only`).

`isolated_iff` says for each list and get request when that is so. Those that ask for the tenant in their
query are isolated in every state. The others check the parent row, or nothing at all, and are isolated
exactly when all the rows they select are of the actor's tenant (`Confined`). `foreignTeams_listed` is an
actor who lists the teams of another tenant.
-/

set_option autoImplicit false
set_option relaxedAutoImplicit false

namespace RallyApi.CrossTenant

open Listing Paging Platform Store Work

/-! ### The rows of a tenant -/

/-- The rows of a table that are of a tenant. -/
def rowsOf {Row : Type} (column : Row → Uuid) (tenantId : Uuid) (rows : List Row) : List Row :=
  rows.filter fun row ↦ column row = tenantId

theorem nodup_rowsOf {Row : Type} {column id : Row → Uuid} {tenantId : Uuid} {rows : List Row}
    (hnodup : (rows.map id).Nodup) : ((rowsOf column tenantId rows).map id).Nodup :=
  hnodup.sublist (List.filter_sublist.map id)

/-- The tables without the rows of other tenants. A row without a tenant stays: a user, and what joins a
label to a work item of the tenant. -/
def Tables.only (tenantId : Uuid) (db : Tables) : Tables where
  users := db.users
  teams := rowsOf Team.tenantId tenantId db.teams
  teamMembers := rowsOf TeamMember.tenantId tenantId db.teamMembers
  projects := rowsOf Project.tenantId tenantId db.projects
  projectMembers := rowsOf (fun member ↦ member.tenantId) tenantId db.projectMembers
  projectTeams := rowsOf ProjectTeam.tenantId tenantId db.projectTeams
  workflowStatuses := rowsOf WorkflowStatus.tenantId tenantId db.workflowStatuses
  workflowTransitions := rowsOf WorkflowTransition.tenantId tenantId db.workflowTransitions
  labels := rowsOf Label.tenantId tenantId db.labels
  sprints := rowsOf Sprint.tenantId tenantId db.sprints
  releases := rowsOf Release.tenantId tenantId db.releases
  workItems := rowsOf WorkItem.tenantId tenantId db.workItems
  workItemLabels := db.workItemLabels.filter fun row ↦
    db.workItems.any fun item ↦ item.id = row.workItemId ∧ item.tenantId = tenantId
  activityLogs := rowsOf ActivityRow.tenantId tenantId db.activityLogs
  timeLogs := rowsOf TimeLog.tenantId tenantId db.timeLogs
  watchers := rowsOf Watcher.tenantId tenantId db.watchers
  attachments := rowsOf Attachment.tenantId tenantId db.attachments
  teams_nodup := nodup_rowsOf db.teams_nodup
  projects_nodup := nodup_rowsOf db.projects_nodup
  sprints_nodup := nodup_rowsOf db.sprints_nodup
  releases_nodup := nodup_rowsOf db.releases_nodup
  workItems_nodup := nodup_rowsOf db.workItems_nodup

section Law

variable {Collated : Type} [LinearOrder Collated] (env : Externals Collated) (tenantId : Uuid)

/-- The rows of the result are of the tenant, and the result is the same without the rows of others. -/
def Isolated {α : Type} (request : ReadRequest α) (db : Tables) : Prop :=
  (∀ result, request.serve env tenantId db = .ok result →
    ∀ owner ∈ request.tenants result, owner = tenantId) ∧
  request.serve env tenantId db = request.serve env tenantId (db.only tenantId)

/-- The tenant has the team. -/
def Tables.HasTeam (db : Tables) (id : Uuid) : Prop :=
  ∃ team ∈ db.teams, team.id = id ∧ team.tenantId = tenantId

/-- The tenant has the project, and it is not deleted. -/
def Tables.HasProject (db : Tables) (id : Uuid) : Prop :=
  ∃ project ∈ db.projects, project.id = id ∧ project.deletedAt = none ∧ project.tenantId = tenantId

/-- The tenant has the work item, and it is not deleted. -/
def Tables.HasWorkItem (db : Tables) (id : Uuid) : Prop :=
  ∃ item ∈ db.workItems, item.id = id ∧ item.deletedAt = none ∧ item.tenantId = tenantId

/-- The rows that a request selects without asking for their tenant are of the tenant. -/
def Confined {α : Type} (db : Tables) : ReadRequest α → Prop
  | .listTeams workspaceId => ∀ team ∈ db.teams,
      team.workspaceId = workspaceId → team.status = .active → team.tenantId = tenantId
  | .listTeamMembers teamId => db.HasTeam tenantId teamId → ∀ member ∈ db.teamMembers,
      member.teamId = teamId → member.status = .active → member.tenantId = tenantId
  | .listProjects workspaceId args => ∀ page, listPage env.projects Project.createdAt Project.id
      (inWorkspace workspaceId tenantId) args db.projects = .ok page → ∀ project ∈ page.data,
        (∀ member ∈ db.projectMembers, member.projectId = project.id → member.status = .active →
          member.tenantId = tenantId) ∧
        ∀ link ∈ db.projectTeams, link.projectId = project.id → link.status = .active →
          link.tenantId = tenantId
  | .listStatuses projectId => db.HasProject tenantId projectId → ∀ status ∈ db.workflowStatuses,
      status.projectId = projectId → status.tenantId = tenantId
  | .listTransitions projectId => db.HasProject tenantId projectId →
      ∀ transition ∈ db.workflowTransitions, transition.projectId = projectId →
        transition.tenantId = tenantId
  | .listProjectTeams projectId => db.HasProject tenantId projectId → ∀ link ∈ db.projectTeams,
      link.projectId = projectId → link.status = .active → link.tenantId = tenantId
  | .listProjectMembers projectId => db.HasProject tenantId projectId → ∀ member ∈ db.projectMembers,
      member.projectId = projectId → member.status = .active → member.tenantId = tenantId
  | .getWorkItemLabels id => db.HasWorkItem tenantId id → ∀ row ∈ db.workItemLabels,
      row.workItemId = id → ∀ label ∈ db.labels, label.id = row.labelId → label.tenantId = tenantId
  | _ => True

end Law

/-! ### Parent rows -/

section Parents

variable {tenantId id : Uuid} {db : Tables}

theorem readTeam_eq : readTeam tenantId id db =
    checked (db.teams.find? fun team ↦ team.id = id) (fun team ↦ team.tenantId = tenantId)
      (notFoundException .teamNotFound "Team not found") := by
  rw [readTeam, ofCall, getTeam]
  exact run_checked.trans (by simp [Tables.tenancy])

theorem readProject_eq : readProject tenantId id db =
    checked (db.projects.find? fun project ↦ project.id = id)
      (fun project ↦ project.deletedAt = none ∧ project.tenantId = tenantId)
      (notFoundException .projectNotFound "Project not found") :=
  run_checked

theorem readWorkItem_eq : readWorkItem tenantId id db =
    checked (db.workItems.find? fun item ↦ item.id = id ∧ item.deletedAt = none)
      (fun item ↦ item.tenantId = tenantId)
      (notFoundException .workItemNotFound "Work item not found") :=
  run_checked

theorem readSprint_eq : readSprint tenantId id db =
    checked (db.sprints.find? fun sprint ↦ sprint.id = id) (fun sprint ↦ sprint.tenantId = tenantId)
      (notFoundException .sprintNotFound "Sprint not found") :=
  run_checked

theorem readTeam_only : readTeam tenantId id (db.only tenantId) = readTeam tenantId id db := by
  rw [readTeam_eq, readTeam_eq]
  exact checked_find_visible db.teams_nodup (by simp_all) fun _ howner ↦ howner

theorem readProject_only : readProject tenantId id (db.only tenantId) = readProject tenantId id db := by
  rw [readProject_eq, readProject_eq]
  exact checked_find_visible db.projects_nodup (by simp_all) (by simp)

theorem readWorkItem_only :
    readWorkItem tenantId id (db.only tenantId) = readWorkItem tenantId id db := by
  rw [readWorkItem_eq, readWorkItem_eq]
  exact checked_find_visible db.workItems_nodup (by simp_all) fun _ howner ↦ howner

theorem readSprint_only : readSprint tenantId id (db.only tenantId) = readSprint tenantId id db := by
  rw [readSprint_eq, readSprint_eq]
  exact checked_find_visible db.sprints_nodup (by simp_all) fun _ howner ↦ howner

theorem getRelease_only : getRelease tenantId id (db.only tenantId) = getRelease tenantId id db :=
  checked_find_visible db.releases_nodup (by simp_all) fun _ howner ↦ howner

theorem readTeam_passes : (∃ team, readTeam tenantId id db = .ok team) ↔ db.HasTeam tenantId id := by
  simp only [readTeam_eq]
  refine (checked_find_passes db.teams_nodup (by simp_all)).trans ?_
  simp only [Tables.HasTeam, decide_eq_true_eq]

theorem readProject_passes :
    (∃ project, readProject tenantId id db = .ok project) ↔ db.HasProject tenantId id := by
  simp only [readProject_eq]
  refine (checked_find_passes db.projects_nodup (by simp_all)).trans ?_
  simp only [Tables.HasProject, decide_eq_true_eq]

theorem readWorkItem_passes :
    (∃ item, readWorkItem tenantId id db = .ok item) ↔ db.HasWorkItem tenantId id := by
  simp only [readWorkItem_eq]
  refine (checked_find_passes db.workItems_nodup (by simp_all)).trans ?_
  simp only [Tables.HasWorkItem, decide_eq_true_eq, and_assoc]

end Parents

/-! ### Lists -/

section Lists

variable {α β Row : Type} {tenantId : Uuid} {db : Tables} {check : TenantRead α} {passes : Prop}
  {table : Tables → List Row} {column : Row → Uuid} {condition : Row → Bool}
  {arrange : List Row → List Row}

variable (column) in
/-- A list of rows of a table, after a check of the parent row. -/
theorem list_same_iff (hcheck : check (db.only tenantId) = check db)
    (hpasses : (∃ value, check db = .ok value) ↔ passes)
    (htable : table (db.only tenantId) = rowsOf column tenantId (table db))
    (hperm : ∀ rows, (arrange rows).Perm rows) :
    (do let _ ← check
        select fun db ↦ arrange ((table db).filter condition) : TenantRead (List Row)) db =
      (do let _ ← check
          select fun db ↦ arrange ((table db).filter condition) : TenantRead (List Row))
        (db.only tenantId) ↔
      (passes → ∀ row ∈ table db, condition row = true → column row = tenantId) := by
  refine (check_bind_eq_iff hcheck hpasses).trans (imp_congr_right fun _ ↦ ?_)
  simp only [select, Except.ok.injEq, htable, rowsOf]
  refine (arrange_visible_iff hperm).trans ?_
  simp only [decide_eq_true_eq]

/-- A query that selects rows of the tenant only is the same without the rows of others. -/
theorem filter_rowsOf {rows : List Row} (howner : ∀ row, condition row = true → column row = tenantId) :
    (rowsOf column tenantId rows).filter condition = rows.filter condition :=
  filter_filter_visible fun row _ hrow ↦ decide_eq_true (howner row hrow)

theorem find_rowsOf {rows : List Row} (howner : ∀ row, condition row = true → column row = tenantId) :
    (rowsOf column tenantId rows).find? condition = rows.find? condition := by
  rw [rowsOf, List.find?_filter]
  congr 1
  ext row
  by_cases hrow : condition row = true
  · simp [hrow, howner row hrow]
  · simp [hrow]

/-- What is read after a check of the parent row is the same without the rows of others. -/
theorem check_same {rest : TenantRead β} (hcheck : check (db.only tenantId) = check db)
    (hrest : rest (db.only tenantId) = rest db) :
    (check >>= fun _ ↦ rest) db = (check >>= fun _ ↦ rest) (db.only tenantId) :=
  (check_bind_eq_iff hcheck Iff.rfl).mpr fun _ ↦ hrest.symm

/-- What is made of rows that a query asks for by their tenant, after a check of the parent row, is the
same without the rows of others. -/
theorem owned_same (table : Tables → List Row) (column : Row → Uuid) (display : Tables → List Row → β)
    (hcheck : check (db.only tenantId) = check db)
    (htable : table (db.only tenantId) = rowsOf column tenantId (table db))
    (hdisplay : display (db.only tenantId) = display db)
    (howner : ∀ row, condition row = true → column row = tenantId) :
    (do let _ ← check
        select fun db ↦ display db ((table db).filter condition) : TenantRead β) db =
      (do let _ ← check
          select fun db ↦ display db ((table db).filter condition) : TenantRead β)
        (db.only tenantId) := by
  refine check_same hcheck ?_
  rw [select, select, htable, hdisplay, filter_rowsOf howner]

/-- What is read after a check is the result of the rest. -/
theorem check_ok {rest : TenantRead β} {result : β}
    (hresult : (check >>= fun _ ↦ rest) db = .ok result) :
    (∃ value, check db = .ok value) ∧ rest db = .ok result := by
  obtain ⟨value, hvalue, hrest⟩ := bind_eq_ok.mp hresult
  exact ⟨⟨value, hvalue⟩, hrest⟩

/-- A row that a query selects among the rows of the tenant. -/
theorem owner_of_mem_arrange {rows : List Row} (hperm : ∀ rows, (arrange rows).Perm rows) {row : Row}
    (hrow : row ∈ arrange ((rowsOf column tenantId rows).filter condition)) : column row = tenantId := by
  have hmem := List.mem_of_mem_filter ((hperm _).mem_iff.mp hrow)
  exact of_decide_eq_true (List.mem_filter.mp hmem).2

theorem owners_arrange {rows : List Row} (hperm : ∀ rows, (arrange rows).Perm rows) :
    ∀ owner ∈ (arrange ((rowsOf column tenantId rows).filter condition)).map column,
      owner = tenantId := by
  intro owner hmem
  obtain ⟨row, hrow, rfl⟩ := List.mem_map.mp hmem
  exact owner_of_mem_arrange hperm hrow

/-! ### Pages -/

variable {before : Row → Row → Prop} {order : OrderBy Row before} {timestamp : Row → Timestamp}
  {id : Row → Uuid} {args : PageArgs} {rows : List Row} {page : PagedResult Row}

/-- A page of rows of the tenant is the same without the rows of others. -/
theorem listPage_rowsOf (howner : ∀ row, condition row = true → column row = tenantId) :
    listPage order timestamp id condition args (rowsOf column tenantId rows) =
      listPage order timestamp id condition args rows := by
  have hfilter (keyset : Option Timestamp) :
      (rowsOf column tenantId rows).filter (fun row ↦ condition row && below timestamp keyset row) =
        rows.filter fun row ↦ condition row && below timestamp keyset row :=
    filter_rowsOf fun row hrow ↦ howner row (Bool.and_eq_true_iff.mp hrow).1
  simp only [listPage, hfilter]

/-- The rows of a page are of the table. -/
theorem listPage_mem (hpage : listPage order timestamp id condition args rows = .ok page) {row : Row}
    (hrow : row ∈ page.data) : row ∈ rows := by
  obtain ⟨keyset, _, hbuilt⟩ := bind_eq_ok.mp hpage
  obtain rfl := Except.ok.inj hbuilt
  have hfound : row ∈ order.arrange (rows.filter fun row ↦
      condition row && below timestamp keyset row) := by
    unfold buildPageResult at hrow
    dsimp only at hrow
    split_ifs at hrow
    · exact List.mem_of_mem_take (List.mem_of_mem_take hrow)
    · exact List.mem_of_mem_take hrow
  exact List.mem_of_mem_filter ((order.perm _).mem_iff.mp hfound)

/-- The rows of a page of the rows of the tenant. -/
theorem owners_page (hpage : listPage order timestamp id condition args (rowsOf column tenantId rows) =
    .ok page) : ∀ owner ∈ page.data.map column, owner = tenantId := by
  intro owner hmem
  obtain ⟨row, hrow, rfl⟩ := List.mem_map.mp hmem
  exact of_decide_eq_true (List.mem_filter.mp (listPage_mem hpage hrow)).2

end Lists

/-! ### Figures and labels -/

section Joins

variable {Collated : Type} [LinearOrder Collated] {env : Externals Collated} {tenantId id : Uuid}
  {db : Tables}

/-- The figures of a project are the same without the rows of others exactly when its active members and
links are of the tenant. -/
theorem withStats_only_iff {project : Project} :
    withStats db.work.projectMembers db.work.projectTeams db.users project =
        withStats (db.only tenantId).work.projectMembers (db.only tenantId).work.projectTeams db.users
          project ↔
      (∀ member ∈ db.projectMembers, member.projectId = project.id → member.status = .active →
          member.tenantId = tenantId) ∧
        ∀ link ∈ db.projectTeams, link.projectId = project.id → link.status = .active →
          link.tenantId = tenantId := by
  simp only [withStats, ProjectWithStats.mk.injEq, true_and, and_true, Tables.work, Tables.only, rowsOf,
    List.countP_map]
  refine and_congr (countP_visible_iff.trans ?_) (countP_visible_iff.trans ?_)
  · simp
  · simp

theorem listProjects_same_iff {workspaceId : Uuid} {args : PageArgs} :
    listProjects env tenantId workspaceId args db =
        listProjects env tenantId workspaceId args (db.only tenantId) ↔
      Confined env tenantId db (.listProjects workspaceId args) := by
  have hpage : listPage env.projects Project.createdAt Project.id (inWorkspace workspaceId tenantId) args
      (db.only tenantId).projects = listPage env.projects Project.createdAt Project.id
        (inWorkspace workspaceId tenantId) args db.projects :=
    listPage_rowsOf fun project hproject ↦ (of_decide_eq_true hproject).2.1
  simp only [listProjects, listByWorkspaceWithStats, hpage, Confined]
  cases listPage env.projects Project.createdAt Project.id (inWorkspace workspaceId tenantId) args
    db.projects with
  | error failure => simp [Except.map]
  | ok page =>
    simp only [Except.map, PagedResult.map, Except.ok.injEq, PagedResult.mk.injEq, and_true,
      List.map_inj_left, forall_eq']
    exact forall₂_congr fun project _ ↦ withStats_only_iff

/-- Without the rows of others, the labels of an item of the tenant are those that are of the tenant. -/
theorem labelsOf_only (hitem : db.HasWorkItem tenantId id) :
    labelsOf id (db.only tenantId).workItemLabels (db.only tenantId).labels =
      (labelsOf id db.workItemLabels db.labels).filter fun label ↦ label.tenantId = tenantId := by
  obtain ⟨item, hmem, hid, _, howner⟩ := hitem
  have hrows : (db.only tenantId).workItemLabels.filter (fun row ↦ row.workItemId = id) =
      db.workItemLabels.filter fun row ↦ row.workItemId = id := by
    refine filter_filter_visible fun row _ hrow ↦ List.any_eq_true.mpr ⟨item, hmem, ?_⟩
    exact decide_eq_true ⟨hid.trans (of_decide_eq_true hrow).symm, howner⟩
  rw [labelsOf, labelsOf, hrows, List.filter_flatMap]
  refine congrArg (List.flatMap · _) (funext fun row ↦ ?_)
  exact List.filter_comm _ _ db.labels

/-- The labels of an item, as far as they are shown, are the same without the rows of others exactly when
they are of the tenant. -/
theorem getWorkItemLabels_same_iff :
    getWorkItemLabels env tenantId id db = getWorkItemLabels env tenantId id (db.only tenantId) ↔
      Confined env tenantId db (.getWorkItemLabels id) := by
  refine (check_bind_eq_iff readWorkItem_only readWorkItem_passes).trans
    (forall_congr' fun hitem ↦ ?_)
  simp only [select, Except.ok.injEq, labelsOf_only hitem]
  have hlabels : (∀ label ∈ labelsOf id db.workItemLabels db.labels, label.tenantId = tenantId) ↔
      ∀ row ∈ db.workItemLabels, row.workItemId = id → ∀ label ∈ db.labels, label.id = row.labelId →
        label.tenantId = tenantId := by
    simp only [labelsOf, List.mem_flatMap, List.mem_filter, decide_eq_true_eq]
    exact ⟨fun h row hrow hid label hmem hlabel ↦ h label ⟨row, ⟨hrow, hid⟩, hmem, hlabel⟩,
      fun h label ⟨row, ⟨hrow, hid⟩, hmem, hlabel⟩ ↦ h row hrow hid label hmem hlabel⟩
  rw [← hlabels]
  constructor
  · intro hsame
    have hlength := congrArg List.length hsame
    rw [List.length_map, List.length_map, (env.labels.perm _).length_eq, (env.labels.perm _).length_eq,
      eq_comm, List.length_filter_eq_length_iff] at hlength
    exact fun label hlabel ↦ of_decide_eq_true (hlength label hlabel)
  · intro howner
    rw [List.filter_eq_self.mpr fun label hlabel ↦ decide_eq_true (howner label hlabel)]

end Joins

/-! ### The requests -/

/-- The lists of work items ask for the tenant. -/
theorem buildFilters_owner {matchesTerm : String → WorkItem → Bool} {projectId tenantId : Uuid}
    {filters : WorkItemFilters} {item : WorkItem}
    (hitem : buildFilters matchesTerm projectId tenantId filters item = true) :
    item.tenantId = tenantId := by
  simp only [buildFilters, Bool.and_eq_true, decide_eq_true_eq] at hitem
  tauto

section Requests

variable {Collated : Type} [LinearOrder Collated] {env : Externals Collated} {tenantId : Uuid}
  {db : Tables} {α : Type}

/-- A request returns the same without the rows of others exactly when it is confined. -/
theorem serve_same_iff (request : ReadRequest α) :
    request.serve env tenantId db = request.serve env tenantId (db.only tenantId) ↔
      Confined env tenantId db request := by
  cases request with
  | listTeams workspaceId =>
    simp only [ReadRequest.serve, listTeams, select, Except.ok.injEq]
    refine (arrange_visible_iff env.teams.perm).trans ?_
    simp [Confined]
  | listTeamMembers teamId =>
    refine (list_same_iff TeamMember.tenantId readTeam_only readTeam_passes rfl
      env.teamMembers.perm).trans ?_
    simp [Confined]
  | listProjects workspaceId args => exact listProjects_same_iff
  | listStatuses projectId =>
    refine (list_same_iff WorkflowStatus.tenantId readProject_only readProject_passes rfl
      (List.perm_insertionSort _)).trans ?_
    simp [Confined, Tables.work]
  | listTransitions projectId =>
    refine (list_same_iff WorkflowTransition.tenantId readProject_only readProject_passes rfl
      env.transitions.perm).trans ?_
    simp [Confined]
  | listProjectTeams projectId =>
    refine (list_same_iff ProjectTeam.tenantId readProject_only readProject_passes rfl
      env.projectTeams.perm).trans ?_
    simp [Confined]
  | listProjectMembers projectId =>
    refine (list_same_iff (fun member ↦ member.tenantId) readProject_only readProject_passes rfl
      env.projectMembers.perm).trans ?_
    simp [Confined]
  | getWorkItemLabels id => exact getWorkItemLabels_same_iff
  | getTeam id => exact iff_of_true readTeam_only.symm trivial
  | getProject projectId => exact iff_of_true readProject_only.symm trivial
  | getSprint id => exact iff_of_true readSprint_only.symm trivial
  | getRelease id => exact iff_of_true getRelease_only.symm trivial
  | getWorkItem id => exact iff_of_true readWorkItem_only.symm trivial
  | listLabels projectId =>
    exact iff_of_true (owned_same Tables.labels Label.tenantId (fun _ ↦ env.labels.arrange)
      readProject_only rfl rfl fun label hlabel ↦ (of_decide_eq_true hlabel).2) trivial
  | listSprints projectId args =>
    exact iff_of_true (check_same readProject_only
      (listPage_rowsOf fun sprint hsprint ↦ (of_decide_eq_true hsprint).2)) trivial
  | listReleases projectId args =>
    exact iff_of_true (check_same readProject_only
      (listPage_rowsOf fun release hrelease ↦ (of_decide_eq_true hrelease).2)) trivial
  | listWorkItems projectId filters args =>
    exact iff_of_true (check_same readProject_only
      (listPage_rowsOf fun _ hitem ↦ buildFilters_owner hitem)) trivial
  | listBacklog projectId filters args =>
    exact iff_of_true (check_same readProject_only
      (listPage_rowsOf fun _ hitem ↦ buildFilters_owner (Bool.and_eq_true_iff.mp hitem).1)) trivial
  | listTasks parentId =>
    exact iff_of_true (owned_same Tables.workItems WorkItem.tenantId (fun _ ↦ env.tasks.arrange)
      readWorkItem_only rfl rfl fun item hitem ↦ (of_decide_eq_true hitem).2.1) trivial
  | getTaskTotals parentId =>
    refine iff_of_true (check_same readWorkItem_only ?_) trivial
    simp only [select, Tables.only]
    rw [filter_rowsOf fun item hitem ↦ (of_decide_eq_true hitem).2.1]
  | getActivity workItemId limit offset =>
    exact iff_of_true (owned_same Tables.activityLogs (fun log ↦ log.tenantId)
      (fun db logs ↦ window limit offset ((env.activityLogs.arrange logs).map (withActor db.users)))
      readWorkItem_only rfl rfl fun log hlog ↦ (of_decide_eq_true hlog).2) trivial
  | listTimeLogs workItemId page pageSize =>
    exact iff_of_true (owned_same Tables.timeLogs (fun log ↦ log.tenantId)
      (fun _ logs ↦ window pageSize ((page - 1) * pageSize) (env.timeLogs.arrange logs))
      readWorkItem_only rfl rfl fun log hlog ↦ (of_decide_eq_true hlog).2.1) trivial
  | listWatchers workItemId =>
    exact iff_of_true (owned_same Tables.watchers (fun watcher ↦ watcher.tenantId)
      (fun _ ↦ env.watchers.arrange) readWorkItem_only rfl rfl
      fun watcher hwatcher ↦ (of_decide_eq_true hwatcher).2) trivial
  | listAttachments workItemId =>
    exact iff_of_true (owned_same Tables.attachments (fun attachment ↦ attachment.tenantId)
      (fun _ ↦ env.attachments.arrange) readWorkItem_only rfl rfl
      fun attachment hattachment ↦ (of_decide_eq_true hattachment).2.1) trivial
  | getAttachmentDownloadUrl workItemId attachmentId =>
    refine iff_of_true (check_same readWorkItem_only ?_) trivial
    have hfind : (db.only tenantId).attachments.find? (fun attachment ↦ attachment.id = attachmentId ∧
        attachment.tenantId = tenantId ∧ attachment.deletedAt = none) =
        db.attachments.find? fun attachment ↦ attachment.id = attachmentId ∧
          attachment.tenantId = tenantId ∧ attachment.deletedAt = none :=
      find_rowsOf fun attachment hattachment ↦ (of_decide_eq_true hattachment).2.1
    change (checked _ _ _).bind _ = (checked _ _ _).bind _
    rw [hfind]
    rfl

/-- Without the rows of others, all the rows in a result are of the tenant. -/
theorem serve_owners (request : ReadRequest α) {result : α}
    (hresult : request.serve env tenantId (db.only tenantId) = .ok result) :
    ∀ owner ∈ request.tenants result, owner = tenantId := by
  cases request with
  | listTeams workspaceId =>
    obtain rfl := Except.ok.inj hresult
    exact owners_arrange env.teams.perm
  | getTeam id =>
    have hteam := (checked_eq_ok.mp (readTeam_eq.symm.trans hresult)).2
    simpa [ReadRequest.tenants] using hteam
  | listTeamMembers teamId =>
    obtain rfl := Except.ok.inj (check_ok hresult).2
    exact owners_arrange env.teamMembers.perm
  | listProjects workspaceId args =>
    change Except.map _ _ = _ at hresult
    cases hpage : listPage env.projects Project.createdAt Project.id (inWorkspace workspaceId tenantId)
      args (db.only tenantId).projects with
    | error failure =>
      rw [hpage] at hresult
      cases hresult
    | ok page =>
      rw [hpage] at hresult
      obtain rfl := Except.ok.inj hresult
      simpa [ReadRequest.tenants, PagedResult.map, withStats] using owners_page hpage
  | getProject projectId =>
    have hproject := (checked_eq_ok.mp (readProject_eq.symm.trans hresult)).2
    simp_all [ReadRequest.tenants]
  | listStatuses projectId =>
    obtain rfl := Except.ok.inj (check_ok hresult).2
    exact owners_arrange (List.perm_insertionSort _)
  | listTransitions projectId =>
    obtain rfl := Except.ok.inj (check_ok hresult).2
    exact owners_arrange env.transitions.perm
  | listLabels projectId =>
    obtain rfl := Except.ok.inj (check_ok hresult).2
    exact owners_arrange env.labels.perm
  | listProjectTeams projectId =>
    obtain rfl := Except.ok.inj (check_ok hresult).2
    exact owners_arrange env.projectTeams.perm
  | listProjectMembers projectId =>
    obtain rfl := Except.ok.inj (check_ok hresult).2
    exact owners_arrange env.projectMembers.perm
  | listSprints projectId args => exact owners_page (check_ok hresult).2
  | getSprint id =>
    have hsprint := (checked_eq_ok.mp (readSprint_eq.symm.trans hresult)).2
    simpa [ReadRequest.tenants] using hsprint
  | listReleases projectId args => exact owners_page (check_ok hresult).2
  | getRelease id => simpa [ReadRequest.tenants] using (checked_eq_ok.mp hresult).2
  | listWorkItems projectId filters args => exact owners_page (check_ok hresult).2
  | listBacklog projectId filters args => exact owners_page (check_ok hresult).2
  | getWorkItem id =>
    have hitem := (checked_eq_ok.mp (readWorkItem_eq.symm.trans hresult)).2
    simpa [ReadRequest.tenants] using hitem
  | listTasks parentId =>
    obtain rfl := Except.ok.inj (check_ok hresult).2
    exact owners_arrange env.tasks.perm
  | getTaskTotals parentId => simp [ReadRequest.tenants]
  | getActivity workItemId limit offset =>
    obtain rfl := Except.ok.inj (check_ok hresult).2
    intro owner howner
    obtain ⟨entry, hentry, rfl⟩ := List.mem_map.mp howner
    obtain ⟨log, hlog, rfl⟩ := List.mem_map.mp (List.mem_of_mem_drop (List.mem_of_mem_take hentry))
    exact owner_of_mem_arrange env.activityLogs.perm hlog
  | getWorkItemLabels id => simp [ReadRequest.tenants]
  | listTimeLogs workItemId page pageSize =>
    obtain rfl := Except.ok.inj (check_ok hresult).2
    intro owner howner
    obtain ⟨log, hlog, rfl⟩ := List.mem_map.mp howner
    exact owner_of_mem_arrange env.timeLogs.perm (List.mem_of_mem_drop (List.mem_of_mem_take hlog))
  | listWatchers workItemId =>
    obtain rfl := Except.ok.inj (check_ok hresult).2
    exact owners_arrange env.watchers.perm
  | listAttachments workItemId =>
    obtain rfl := Except.ok.inj (check_ok hresult).2
    exact owners_arrange env.attachments.perm
  | getAttachmentDownloadUrl workItemId attachmentId => simp [ReadRequest.tenants]

end Requests

/-! ### The result -/

section Result

variable {Collated : Type} [LinearOrder Collated] (env : Externals Collated) (tenantId : Uuid)
  {α : Type} (request : ReadRequest α)

/-- A request of an actor of the tenant shows rows of the tenant only, and returns what it would without the
rows of others, exactly when the rows that it selects without asking for their tenant are of the tenant. -/
theorem isolated_iff (db : Tables) :
    Isolated env tenantId request db ↔ Confined env tenantId db request := by
  constructor
  · exact fun hisolated ↦ (serve_same_iff request).mp hisolated.2
  · intro hconfined
    have hsame : request.serve env tenantId db = request.serve env tenantId (db.only tenantId) :=
      (serve_same_iff request).mpr hconfined
    exact ⟨fun result hresult ↦ serve_owners request (hsame.symm.trans hresult), hsame⟩

/-- Two states that differ only in rows of other tenants give the actor the same results, where a request is
confined in both. -/
theorem serve_eq_of_only {db other : Tables} (hsame : db.only tenantId = other.only tenantId)
    (hconfined : Confined env tenantId db request) (hother : Confined env tenantId other request) :
    request.serve env tenantId db = request.serve env tenantId other := by
  rw [(serve_same_iff request).mpr hconfined, hsame, ← (serve_same_iff request).mpr hother]

end Result

/-- Orders that keep rows that compare equal as they are, a search that finds nothing, and storage keys in
place of signed URLs. -/
def exampleExternals : Externals String where
  collate := id
  teams := ascendingOrder _
  teamMembers := ascendingOrder _
  projects := ascendingOrder _
  transitions := ⟨id, fun _ ↦ .refl _, fun _ ↦ List.pairwise_of_forall fun _ _ ↦ trivial⟩
  labels := ascendingOrder _
  projectTeams := ascendingOrder _
  projectMembers := ascendingOrder _
  sprints := ascendingOrder _
  releases := ascendingOrder _
  workItems := descendingOrder _
  tasks := ascendingOrder _
  activityLogs := descendingOrder _
  timeLogs := descendingOrder _
  watchers := ⟨id, fun _ ↦ .refl _, fun _ ↦ List.pairwise_of_forall fun _ _ ↦ trivial⟩
  attachments := ascendingOrder _
  matchesTerm _ _ := false
  presignGet := id

/-- A team of the tenant 2 in its workspace 30. -/
def foreignTeam : Team :=
  { id := 40, tenantId := 2, workspaceId := 30, name := "Core", key := "CORE", createdAt := 0 }

/-- An actor of the tenant 5 lists the teams of the workspace 30. -/
theorem foreignTeams_listed :
    ¬ ∀ (Collated : Type) (_ : LinearOrder Collated) (env : Externals Collated) (tenantId : Uuid)
        (α : Type) (request : ReadRequest α) (db : Tables), Isolated env tenantId request db := by
  intro halways
  have hisolated := halways String inferInstance exampleExternals 5 _ (.listTeams 30)
    { teams := [foreignTeam] }
  have howner := hisolated.1 [foreignTeam] rfl 2 (by decide)
  exact absurd howner (by decide)

end RallyApi.CrossTenant

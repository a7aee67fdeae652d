import RallyApi.Concurrency.RelyGuarantee
import RallyApi.CrossTenant.Services

/-!
# References between the rows of a tenant

Projects and teams name a workspace, the members and the links of a team name the team, and comments name
a work item. Each should name a row that exists, in its own tenant (`Coherent`). The services leave much of
this to their callers: `createTeam` looks the workspace up and `addTeamMember` the team, but neither asks
for its tenant; `createProject` only asks whether the lead is a member of the workspace, `linkTeam` does
not look at the team, and `createComment` does not look at the work item.

`reachable_coherent` shows that no such reference arises in a run in which every call, when it comes in,
names a row of its actor's tenant. `foreignTeam_created` is a team of one tenant in a workspace of another.
-/

set_option autoImplicit false
set_option relaxedAutoImplicit false

namespace RallyApi.CrossTenant

open Concurrency Platform Work

/-! ### Rows and references -/

section Rows

variable {Row : Type} (id tenantId : Row → Uuid) (rows : List Row)

/-- A table has a row with an identifier, in a tenant. -/
def HasRow (rowId tenant : Uuid) : Prop := ∃ row ∈ rows, id row = rowId ∧ tenantId row = tenant

instance (rowId tenant : Uuid) : Decidable (HasRow id tenantId rows rowId tenant) :=
  inferInstanceAs (Decidable (∃ row ∈ rows, id row = rowId ∧ tenantId row = tenant))

variable {id tenantId rows}

theorem HasRow.mono {after : List Row} {rowId tenant : Uuid}
    (hrow : HasRow id tenantId rows rowId tenant) (hgrows : rows <+: after) :
    HasRow id tenantId after rowId tenant :=
  hrow.imp fun _ ⟨hmem, hsame⟩ ↦ ⟨hgrows.subset hmem, hsame⟩

end Rows

/-- The workspace exists, in the tenant. -/
abbrev Db.HasWorkspace (db : Db) : Uuid → Uuid → Prop :=
  HasRow Identity.Workspace.id Identity.Workspace.tenantId db.workspaces

/-- The team exists, in the tenant. -/
abbrev Db.HasTeam (db : Db) : Uuid → Uuid → Prop := HasRow Team.id Team.tenantId db.teams

/-- The work item exists, in the tenant. -/
abbrev Db.HasWorkItem (db : Db) : Uuid → Uuid → Prop :=
  HasRow WorkItem.id WorkItem.tenantId db.work.workItems

/-- Every row that names another names one that exists, in its own tenant. -/
structure Coherent (db : Db) : Prop where
  projects : ∀ project ∈ db.work.projects, db.HasWorkspace project.workspaceId project.tenantId
  teams : ∀ team ∈ db.teams, db.HasWorkspace team.workspaceId team.tenantId
  teamMembers : ∀ member ∈ db.teamMembers, db.HasTeam member.teamId member.tenantId
  projectTeams : ∀ link ∈ db.projectTeams, db.HasTeam link.teamId link.tenantId
  comments : ∀ comment ∈ db.comments, db.HasWorkItem comment.workItemId comment.tenantId

/-- The request names a row that exists, in the tenant of its actor. -/
def CreateRequest.NamesOwn (db : Db) : CreateRequest → Prop
  | .createProject actor workspaceId _ _ _ _ => db.HasWorkspace workspaceId actor.tenantId
  | .createTeam tenantId workspaceId _ _ _ _ => db.HasWorkspace workspaceId tenantId
  | .addTeamMember teamId _ tenantId => db.HasTeam teamId tenantId
  | .linkTeam tenantId _ teamId => db.HasTeam teamId tenantId
  | .createComment actor workItemId _ _ => db.HasWorkItem workItemId actor.tenantId
  | .createWorkItem _ _ _ _ _ => True
  | .tick _ => True

/-- A request that comes in names a row that exists, in the tenant of its actor. -/
def ArrivesOwn (world : World Db CrossStep) : CrossStep → Prop
  | .arrive request => request.NamesOwn world.db
  | .work _ => True
  | .other => True

/-! ### What the steps of a request do -/

/-- No row that others name vanishes. -/
structure Grows (db after : Db) : Prop where
  workspaces : after.workspaces = db.workspaces
  teams : db.teams <+: after.teams
  workItems : db.work.workItems <+: after.work.workItems

/-- What a step of a request does: the tables of rows that others name grow, and where the request names a
row of its tenant, so does every row that the step adds. -/
structure StepOf (request : CreateRequest) (db : Db) (label : CrossStep) (after : Db) : Prop
    extends Grows db after where
  addedProjects : request.NamesOwn db → ∀ project ∈ after.work.projects,
    project ∈ db.work.projects ∨ db.HasWorkspace project.workspaceId project.tenantId
  addedTeams : request.NamesOwn db → ∀ team ∈ after.teams,
    team ∈ db.teams ∨ db.HasWorkspace team.workspaceId team.tenantId
  addedMembers : request.NamesOwn db → ∀ member ∈ after.teamMembers,
    member ∈ db.teamMembers ∨ db.HasTeam member.teamId member.tenantId
  addedLinks : request.NamesOwn db → ∀ link ∈ after.projectTeams,
    link ∈ db.projectTeams ∨ db.HasTeam link.teamId link.tenantId
  addedComments : request.NamesOwn db → ∀ comment ∈ after.comments,
    comment ∈ db.comments ∨ db.HasWorkItem comment.workItemId comment.tenantId

/-- What the steps of the work services do to the projects and the work items, for the labels of the
requests that create them. -/
def Adds (db : Work.Db) (label : WorkStep) (after : Work.Db) : Prop :=
  match label with
  | .createProject project =>
    after.projects = db.projects ++ [project] ∧ after.workItems = db.workItems
  | .createWorkItem item => after.projects = db.projects ∧ after.workItems = db.workItems ++ [item]
  | _ => after.projects = db.projects ∧ after.workItems = db.workItems

section Adds

variable {db after : Work.Db} {label : WorkStep} {project : Project}

theorem Adds.workItems (hadds : Adds db label after) : db.workItems <+: after.workItems := by
  cases label with
  | createWorkItem => exact hadds.2 ▸ List.prefix_append _ _
  | _ => exact hadds.2 ▸ List.prefix_rfl

theorem Adds.projects (hadds : Adds db label after) (hproject : project ∈ after.projects) :
    project ∈ db.projects ∨ label = .createProject project := by
  cases label with
  | createProject =>
    rw [hadds.1, List.mem_append, List.mem_singleton] at hproject
    rcases hproject with hold | rfl
    · exact .inl hold
    · exact .inr rfl
  | _ => exact .inl (hadds.1 ▸ hproject)

/-- The labels of the requests that create projects and work items. -/
def creates : WorkStep → Bool
  | .other | .createProject _ | .incrementCounter _ _ | .createWorkItem _ => true
  | _ => false

theorem Effect.adds (heffect : Effect db label after) (hcreates : creates label = true) :
    Adds db label after := by
  cases label <;> simp only [creates, Bool.false_eq_true] at hcreates
  case other => obtain ⟨_, _, rfl⟩ := heffect; exact ⟨rfl, rfl⟩
  case createProject => obtain ⟨_, _, _, _, _, rfl⟩ := heffect; exact ⟨rfl, rfl⟩
  case incrementCounter => obtain ⟨_, rfl⟩ := heffect; exact ⟨rfl, rfl⟩
  case createWorkItem => obtain ⟨_, _, _, _, rfl⟩ := heffect; exact ⟨rfl, rfl⟩

/-- Assumes: a request of the work services takes creating steps only. They add what their labels say. -/
theorem serve_adds {request : WorkRequest}
    (hcreates : ∀ label, request.mayTake label = true → creates label = true) :
    request.serve.Only Adds :=
  ((serve_effect request).and (serve_takes request)).mono fun _ label _ hstep ↦
    Effect.adds hstep.1 (hcreates label hstep.2)

end Adds

section Steps

variable {request : CreateRequest} {db after : Db} {label : CrossStep}

theorem Grows.hasWorkspace (hgrows : Grows db after) {id tenant : Uuid}
    (hrow : db.HasWorkspace id tenant) : after.HasWorkspace id tenant := by
  rw [Db.HasWorkspace, hgrows.workspaces]
  exact hrow

/-- A request that names a row of its tenant still does after a step. -/
theorem Grows.namesOwn (hgrows : Grows db after) (hnames : request.NamesOwn db) :
    request.NamesOwn after := by
  cases request with
  | createProject => exact hgrows.hasWorkspace hnames
  | createTeam => exact hgrows.hasWorkspace hnames
  | addTeamMember => exact HasRow.mono hnames hgrows.teams
  | linkTeam => exact HasRow.mono hnames hgrows.teams
  | createComment => exact HasRow.mono hnames hgrows.workItems
  | createWorkItem => trivial
  | tick => trivial

/-- A step of a request that names a row of its tenant keeps the references coherent. -/
theorem StepOf.coherent (hstep : StepOf request db label after) (hnames : request.NamesOwn db)
    (hcoherent : Coherent db) : Coherent after where
  projects project hproject := hstep.hasWorkspace
    ((hstep.addedProjects hnames project hproject).elim (hcoherent.projects project) id)
  teams team hteam := hstep.hasWorkspace
    ((hstep.addedTeams hnames team hteam).elim (hcoherent.teams team) id)
  teamMembers member hmember :=
    ((hstep.addedMembers hnames member hmember).elim (hcoherent.teamMembers member) id).mono
      hstep.teams
  projectTeams link hlink :=
    ((hstep.addedLinks hnames link hlink).elim (hcoherent.projectTeams link) id).mono hstep.teams
  comments comment hcomment :=
    ((hstep.addedComments hnames comment hcomment).elim (hcoherent.comments comment) id).mono
      hstep.workItems

theorem StepOf.refl : StepOf request db label db where
  workspaces := rfl
  teams := List.prefix_rfl
  workItems := List.prefix_rfl
  addedProjects _ _ hproject := .inl hproject
  addedTeams _ _ hteam := .inl hteam
  addedMembers _ _ hmember := .inl hmember
  addedLinks _ _ hlink := .inl hlink
  addedComments _ _ hcomment := .inl hcomment

@[simp]
theorem query_stepOf {α : Type} (read : Db → α) : (query read).Only (StepOf request) :=
  (Call.only_query _ _).mpr fun _ ↦ StepOf.refl

/-- A statement is refused, or it does what a step of the request does. -/
theorem statement_stepOf {α : Type} {run : Db → Except Failure (α × Db)}
    (hrun : ∀ db value after, run db = .ok (value, after) → StepOf request db .other after) :
    (statement run).Only (StepOf request) :=
  Call.only_attempt _ _ (fun _ _ _ ↦ StepOf.refl) fun db value after hok ↦ hrun db value after hok

/-- A call of a work service. Assumes: its steps add what their labels say, and the projects among it are
in a workspace of their tenant when the request names one. -/
theorem ofWork_stepOf {α : Type} {call : WorkCall α} (hadds : call.Only Adds)
    (hnamed : call.Only fun _ label _ ↦ ∀ project, label = .createProject project →
      ∀ db : Db, request.NamesOwn db → db.HasWorkspace project.workspaceId project.tenantId) :
    (ofWork call).Only (StepOf request) := by
  refine (hadds.and hnamed).within fun db label after ⟨hstep, hproject⟩ ↦ ?_
  have hsame : StepOf request db (.work label) db := .refl
  refine { hsame with workItems := hstep.workItems, addedProjects := fun hnames project hmem ↦ ?_ }
  rcases hstep.projects hmem with hold | hnew
  · exact .inl hold
  · exact .inr (hproject project hnew db hnames)

/-- A call of a work service that only reads. -/
theorem reads_stepOf {α : Type} {call : WorkCall α} (hcall : call.Only Reads) :
    (ofWork call).Only (StepOf request) := by
  refine ofWork_stepOf (hcall.mono ?_) (hcall.mono ?_)
  · rintro db _ _ ⟨rfl, rfl⟩
    exact ⟨rfl, rfl⟩
  · rintro _ _ _ ⟨rfl, _⟩ project hlabel
    cases hlabel

@[simp]
theorem uuidv7_stepOf : uuidv7.Only (StepOf request) :=
  ofWork_stepOf (by simp [Work.uuidv7_eq, Adds]) (by simp [Work.uuidv7_eq])

end Steps

/-! ### The statements that insert -/

section Inserts

variable {request : CreateRequest}

/-- The rows of a table after an insertion, where the new one has a property. -/
theorem mem_inserted {Row : Type} {rows : List Row} {new : Row} {property : Row → Prop}
    (hnew : property new) : ∀ row ∈ rows ++ [new], row ∈ rows ∨ property row := by
  intro row hrow
  rcases List.mem_append.mp hrow with hold | hadded
  · exact .inl hold
  · exact .inr (List.mem_singleton.mp hadded ▸ hnew)

theorem insertTeam_stepOf {team : Db → Team} (hteam : ∀ db, request.NamesOwn db →
    db.HasWorkspace (team db).workspaceId (team db).tenantId) :
    (insertTeam team).Only (StepOf request) := by
  refine statement_stepOf fun db value after hok ↦ ?_
  obtain ⟨_, _, hrest⟩ := bind_eq_ok.mp hok
  split_ifs at hrest
  obtain ⟨_, rfl⟩ := Prod.mk.inj (Except.ok.inj hrest)
  have hsame : StepOf request db .other db := .refl
  exact { hsame with
    teams := List.prefix_append _ _
    addedTeams := fun hnames ↦ mem_inserted (hteam db hnames) }

theorem insertTeamMember_stepOf {id tenantId teamId userId : Uuid}
    (hteam : ∀ db : Db, request.NamesOwn db → db.HasTeam teamId tenantId) :
    (insertTeamMember id tenantId teamId userId).Only (StepOf request) := by
  refine statement_stepOf fun db value after hok ↦ ?_
  obtain ⟨_, _, hrest⟩ := bind_eq_ok.mp hok
  split_ifs at hrest
  obtain ⟨_, rfl⟩ := Prod.mk.inj (Except.ok.inj hrest)
  have hsame : StepOf request db .other db := .refl
  exact { hsame with addedMembers := fun hnames ↦ mem_inserted (hteam db hnames) }

theorem insertLink_stepOf {id tenantId projectId teamId : Uuid}
    (hteam : ∀ db : Db, request.NamesOwn db → db.HasTeam teamId tenantId) :
    (insertLink id tenantId projectId teamId).Only (StepOf request) := by
  refine statement_stepOf fun db value after hok ↦ ?_
  obtain ⟨_, _, hrest⟩ := bind_eq_ok.mp hok
  split_ifs at hrest
  obtain ⟨_, rfl⟩ := Prod.mk.inj (Except.ok.inj hrest)
  have hsame : StepOf request db .other db := .refl
  exact { hsame with addedLinks := fun hnames ↦ mem_inserted (hteam db hnames) }

theorem insertComment_stepOf {comment : Db → Comment} (hitem : ∀ db, request.NamesOwn db →
    db.HasWorkItem (comment db).workItemId (comment db).tenantId) :
    (insertComment comment).Only (StepOf request) := by
  refine statement_stepOf fun db value after hok ↦ ?_
  obtain ⟨_, _, hrest⟩ := bind_eq_ok.mp hok
  obtain ⟨_, rfl⟩ := Prod.mk.inj (Except.ok.inj hrest)
  have hsame : StepOf request db .other db := .refl
  exact { hsame with addedComments := fun hnames ↦ mem_inserted (hitem db hnames) }

end Inserts

/-! ### The requests -/

/-- A request of the work services that creates no project. -/
theorem serve_stepOf {request : CreateRequest} {workRequest : WorkRequest}
    (hcreates : ∀ label, workRequest.mayTake label = true → creates label = true)
    (hproject : ∀ project, workRequest.mayTake (.createProject project) = false) :
    (ofWork workRequest.serve).Only (StepOf request) := by
  refine ofWork_stepOf (serve_adds hcreates) ((serve_takes workRequest).mono ?_)
  intro _ label _ htake project hlabel
  rw [hlabel, hproject] at htake
  cases htake

/-- `createProject` inserts a project of the actor's tenant in the workspace that it names. -/
theorem createProject_named (actor : Actor) (workspaceId : Uuid) (key : ProjectKey) (name : String)
    (description : Option String) (leadId : Option Uuid) :
    (WorkRequest.createProject actor workspaceId key name description leadId).serve.Only
      fun _ label _ ↦ ∀ project, label = .createProject project →
        project.workspaceId = workspaceId ∧ project.tenantId = actor.tenantId := by
  have hcommit (project : Project) (lead : Uuid) (hworkspace : project.workspaceId = workspaceId)
      (htenant : project.tenantId = actor.tenantId) :
      (Work.transaction .createProject (commitProject project lead)).Only fun _ label _ ↦
        ∀ project, label = .createProject project →
          project.workspaceId = workspaceId ∧ project.tenantId = actor.tenantId := by
    refine Call.only_transaction (by simp) fun db created after hok ↦ ?_
    obtain ⟨rfl, _⟩ := commitProject_ok hok
    rintro _ ⟨⟩
    exact ⟨hworkspace, htenant⟩
  simp [WorkRequest.serve, Work.createProject, findProjectByKey, findWorkspaceMember, Work.uuidv7_eq,
    hcommit]

/-- Every step of a call is one of its request. -/
theorem call_stepOf (request : CreateRequest) : request.call.Only (StepOf request) := by
  cases request with
  | createProject actor workspaceId key name description leadId =>
    refine ofWork_stepOf (serve_adds fun label htake ↦ ?_) ?_
    · cases label <;> simp_all [WorkRequest.mayTake, creates]
    · refine (createProject_named _ _ _ _ _ _).mono fun _ label _ hnamed project hlabel db hnames ↦ ?_
      obtain ⟨hworkspace, htenant⟩ := hnamed project hlabel
      exact hworkspace ▸ htenant ▸ hnames
  | createTeam tenantId workspaceId name key description leadId =>
    have hinsert (id : Uuid) : (insertTeam fun db ↦
        { id, tenantId, workspaceId, name, key := upperKey key, description, leadId,
          createdAt := db.newDate }).Only
        (StepOf (.createTeam tenantId workspaceId name key description leadId)) :=
      insertTeam_stepOf fun _ hnames ↦ hnames
    simp [CreateRequest.call, createTeam, findWorkspaceById, findTeamByKey, hinsert]
  | addTeamMember teamId userId tenantId =>
    have hinsert (id : Uuid) : (insertTeamMember id tenantId teamId userId).Only
        (StepOf (.addTeamMember teamId userId tenantId)) :=
      insertTeamMember_stepOf fun _ hnames ↦ hnames
    simp [CreateRequest.call, addTeamMember, getTeam, findTeamById, findTeamMember, hinsert]
  | linkTeam tenantId projectId teamId =>
    have hproject : (ofWork (getProject tenantId projectId)).Only
        (StepOf (.linkTeam tenantId projectId teamId)) :=
      reads_stepOf (getProject_reads _ _)
    have hinsert (id : Uuid) : (insertLink id tenantId projectId teamId).Only
        (StepOf (.linkTeam tenantId projectId teamId)) :=
      insertLink_stepOf fun _ hnames ↦ hnames
    simp [CreateRequest.call, linkTeam, findLink, hproject, hinsert]
  | createComment actor workItemId body parentId =>
    have hinsert (id : Uuid) : (insertComment fun db ↦
        { id, tenantId := actor.tenantId, workItemId, authorId := actor.sub, body, parentId,
          createdAt := db.work.now }).Only
        (StepOf (.createComment actor workItemId body parentId)) :=
      insertComment_stepOf fun _ hnames ↦ hnames
    simp [CreateRequest.call, createComment, hinsert]
  | createWorkItem actor projectId type title opts =>
    refine serve_stepOf (fun label htake ↦ ?_) fun _ ↦ rfl
    cases label <;> simp_all [WorkRequest.mayTake, creates]
  | tick microseconds =>
    refine serve_stepOf (fun label htake ↦ ?_) fun _ ↦ rfl
    cases label <;> simp_all [WorkRequest.mayTake, creates]

/-! ### The result -/

/-- What the calls rely on: no row that others name vanishes. -/
def referenceProtocol : Protocol Db CrossStep where
  permits := ArrivesOwn
  invariant world := Coherent world.db
  guarantee _ world _ after := Grows world.db after

/-- A call keeps the references coherent when its request names a row of its actor's tenant. -/
theorem serve_meets (request : CreateRequest) (number : ℕ) :
    referenceProtocol.Meets number request.serve (Fresh number) fun _ _ ↦ True := by
  have hnames : referenceProtocol.Stable number fun world ↦ request.NamesOwn world.db :=
    fun _ _ _ _ _ _ hholds hgrows ↦ hgrows.namesOwn hholds
  have harrive : referenceProtocol.Meets number
      (Call.query (.arrive request) fun _ ↦ () : CrossCall Unit) (Fresh number)
      fun _ world ↦ request.NamesOwn world.db :=
    Protocol.meets_query (Protocol.stable_history (· = [])) fun world hcoherent _ hpermits ↦
      ⟨⟨(StepOf.refl : StepOf request world.db .other world.db).toGrows, hcoherent⟩, hpermits⟩
  refine harrive.bind fun _ _ ↦ ?_
  refine (Protocol.meets_of_only (call_stepOf request) hnames ?_).conseq
    (fun _ _ hpre ↦ hpre) fun _ _ _ _ ↦ trivial
  intro world label after hcoherent hholds _ hstep
  exact ⟨⟨hstep.toGrows, hstep.coherent hholds hcoherent⟩, hstep.namesOwn hholds⟩

/-- Assumes: the references are coherent at the start. They are in every state reached by calls that each
name, when they come in, a row that exists in the tenant of their actor. -/
theorem reachable_coherent {db : Db} (hcoherent : Coherent db)
    {config : Config Db CrossStep Failure Unit}
    (hreach : Reachable CreateRequest.serve ArrivesOwn db config) : Coherent config.db :=
  Protocol.reachable_invariant serve_meets hcoherent hreach

instance (db : Db) (request : CreateRequest) : Decidable (request.NamesOwn db) :=
  match request with
  | .createProject actor workspaceId _ _ _ _ =>
    inferInstanceAs (Decidable (db.HasWorkspace workspaceId actor.tenantId))
  | .createTeam tenantId workspaceId _ _ _ _ =>
    inferInstanceAs (Decidable (db.HasWorkspace workspaceId tenantId))
  | .addTeamMember teamId _ tenantId => inferInstanceAs (Decidable (db.HasTeam teamId tenantId))
  | .linkTeam tenantId _ teamId => inferInstanceAs (Decidable (db.HasTeam teamId tenantId))
  | .createComment actor workItemId _ _ =>
    inferInstanceAs (Decidable (db.HasWorkItem workItemId actor.tenantId))
  | .createWorkItem _ _ _ _ _ => .isTrue trivial
  | .tick _ => .isTrue trivial

instance (world : World Db CrossStep) (label : CrossStep) : Decidable (ArrivesOwn world label) :=
  match label with
  | .arrive request => inferInstanceAs (Decidable (request.NamesOwn world.db))
  | .work _ => .isTrue trivial
  | .other => .isTrue trivial

/-- The workspace 30 of the tenant 2, with one member. -/
def oneWorkspace : Db where
  work := { nextUuid := 100, workspaceMembers := [{ workspaceId := 30, userId := 4 }] }
  workspaces := [{ id := 30, tenantId := 2, slug := "acme", name := "Acme", createdAt := 0 }]
  links := rfl

/-- The member of the workspace. -/
def insider : Actor := { sub := 4, tenantId := 2 }

/-- There are no rows yet that name others. -/
theorem oneWorkspace_coherent : Coherent oneWorkspace := by
  constructor <;> simp [oneWorkspace]

/-- A member of the tenant creates a project and a team, joins it, links it, creates an item and comments
on it. -/
def ownRows : List (Choice CreateRequest) :=
  .start (.createProject insider 30 ⟨"app", Eq.refl true⟩ "App" none none) :: finish 0 ++
    .start (.createTeam 2 30 "Core" ⟨"core", Eq.refl true⟩ none none) :: finish 1 ++
    .start (.addTeamMember 106 4 2) :: finish 2 ++
    .start (.linkTeam 2 100 106) :: finish 3 ++
    .start (.createWorkItem insider 100 .story "Login" {}) :: finish 4 ++
    .start (.createComment insider 109 "Done" none) :: finish 5

/-- A witness: all rows are created, and each names one of its tenant. -/
theorem reachable_coherent_witness :
    Coherent ((Config.initial oneWorkspace).play CreateRequest.serve ownRows).db :=
  reachable_coherent oneWorkspace_coherent (play_reachable (by decide +kernel))

example : let db := ((Config.initial oneWorkspace).play CreateRequest.serve ownRows).db
    db.teams.map Team.id = [106] ∧ db.teamMembers.map TeamMember.teamId = [106] ∧
      db.projectTeams.map (fun link ↦ (link.projectId, link.teamId)) = [(100, 106)] ∧
      db.comments.map Comment.workItemId = [109] := by
  decide +kernel

/-- Without the condition a reference across tenants can arise: an actor of the tenant 5 creates a team in
the workspace of the tenant 2. -/
theorem foreignTeam_created :
    ¬ ∀ (db : Db) (config : Config Db CrossStep Failure Unit), Coherent db →
      Reachable CreateRequest.serve anyStep db config → Coherent config.db := by
  intro halways
  have hcoherent := halways oneWorkspace _ oneWorkspace_coherent (play_reachable (allowsAll_anyStep _
    (.start (.createTeam 5 30 "Core" ⟨"core", Eq.refl true⟩ none none) :: finish 0)))
  have hteams : ∀ team ∈ ((Config.initial oneWorkspace).play CreateRequest.serve
      (.start (.createTeam 5 30 "Core" ⟨"core", Eq.refl true⟩ none none) :: finish 0)).db.teams,
      HasRow Identity.Workspace.id Identity.Workspace.tenantId oneWorkspace.workspaces
        team.workspaceId team.tenantId := hcoherent.teams
  exact absurd hteams (by decide +kernel)

end RallyApi.CrossTenant

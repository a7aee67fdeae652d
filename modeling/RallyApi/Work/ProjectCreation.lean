import RallyApi.Concurrency.Outcomes
import RallyApi.Work.CallRuns
import RallyApi.Work.ProjectSeeding

/-!
# Creating projects at the same time

`createProject` looks for a project with the key before it starts its transaction, so two calls may both
find none. The index `uq_projects_key` lets one of them commit.

`reachable_usableOrNothing`: in every interleaving of the calls of the work services, in which any step of
a `createProject` may fail, such a call has either done nothing yet or returns a usable project; and as
long as no project is deleted, at most one call of a tenant returns with the same key up to case.
-/

set_option autoImplicit false
set_option relaxedAutoImplicit false

namespace RallyApi.Work

open Concurrency Platform Store

/-! ### Requests -/

/-- A call of `createProject` with steps that may fail, or another call. -/
inductive ProjectRequest
  | createProject (faults : Faults) (actor : Actor) (workspaceId : Uuid) (key : ProjectKey) (name : String)
    (description : Option String) (leadId : Option Uuid)
  | other (request : WorkRequest)

/-- The call that serves a request; the project it returns, if any. -/
def ProjectRequest.serve : ProjectRequest → WorkCall (Option Project)
  | .createProject faults actor workspaceId key name description leadId =>
    some <$> createProjectFailing faults actor workspaceId key name description leadId
  | .other request => (fun _ ↦ none) <$> request.serve

/-! ### What the calls keep -/

/-- Some request deletes a project. -/
def DeletesProject (requests : List ProjectRequest) : Prop :=
  ∃ tenantId projectId, .other (.deleteProject tenantId projectId) ∈ requests

/-- No two projects have been created with one key in one tenant, and the keys of those that have been
created are taken. -/
structure OncePerKey (world : World Db WorkStep) : Prop where
  once : world.log.Pairwise fun later earlier ↦ ∀ second first, later.2 = .createProject second →
    earlier.2 = .createProject first → second.tenantId = first.tenantId → second.key ≠ first.key
  taken : ∀ entry ∈ world.log, ∀ project, entry.2 = .createProject project →
    ∃ row ∈ world.db.projects, row.occupies project.tenantId project.key = true

/-- The invariant: counters and statuses belong to projects, and as long as no project is deleted a key is
used once. -/
structure CreationOrder (requests : List ProjectRequest) (world : World Db WorkStep) : Prop where
  grounded : Grounded world.db
  once : ¬ DeletesProject requests → OncePerKey world

/-- A step does what its label says. A new status is one of a project, and a project is only deleted where a
request asks for it. -/
structure KeepsCreation (requests : List ProjectRequest) (world : World Db WorkStep) (label : WorkStep)
    (after : Db) : Prop where
  effect : Effect world.db label after
  status : ∀ status, label = .createStatus status → status.projectId ∈ world.db.projects.map Project.id
  deletion : ∀ id, label = .deleteProject id → DeletesProject requests

/-- The protocol of the calls with respect to new projects. It permits every step. -/
def creation (requests : List ProjectRequest) : Protocol Db WorkStep where
  permits := anyStep
  invariant := CreationOrder requests
  guarantee _ := KeepsCreation requests

variable {α : Type} {db after : Db} {tenantId : Uuid} {world : World Db WorkStep} {label : WorkStep}
  {number : ℕ} {requests : List ProjectRequest}

/-- Projects stay. -/
theorem projectIds_subset (heffect : Effect db label after) :
    db.projects.map Project.id ⊆ after.projects.map Project.id := by
  by_cases hwrites : .projects ∈ label.writes
  · cases label <;> simp only [WorkStep.writes, List.mem_cons, List.not_mem_nil, reduceCtorEq,
      or_self, or_false] at hwrites
    case createProject project =>
      obtain ⟨_, _, _, _, _, rfl⟩ := heffect
      rw [List.map_append]
      exact List.subset_append_left _ _
    case deleteProject id =>
      obtain rfl := heffect
      have hids : (db.deleteProject id).projects.map Project.id = db.projects.map Project.id :=
        map_updateWhere fun _ ↦ rfl
      rw [hids]
      exact List.Subset.refl _
  · rw [heffect.frame.projects hwrites]
    exact List.Subset.refl _

theorem projects_subset (heffect : Effect db label after) (hdeletes : ∀ id, label ≠ .deleteProject id) :
    db.projects ⊆ after.projects := by
  by_cases hwrites : .projects ∈ label.writes
  · cases label <;> simp only [WorkStep.writes, List.mem_cons, List.not_mem_nil, reduceCtorEq,
      or_self, or_false] at hwrites
    case createProject project =>
      obtain ⟨_, _, _, _, _, rfl⟩ := heffect
      exact List.subset_append_left _ _
    case deleteProject id => exact absurd rfl (hdeletes id)
  · rw [heffect.frame.projects hwrites]
    exact List.Subset.refl _

/-- The counters of a step belong to the projects it leaves. -/
theorem Grounded.counters_step (hgrounded : Grounded db) (heffect : Effect db label after) :
    ∀ counter ∈ after.projectCounters, counter.projectId ∈ after.projects.map Project.id := by
  have hids := projectIds_subset heffect
  by_cases hwrites : .projectCounters ∈ label.writes
  · cases label <;> simp only [WorkStep.writes, List.mem_cons, List.not_mem_nil, reduceCtorEq,
      or_self, or_false, false_or] at hwrites
    case createProject project =>
      obtain ⟨_, _, _, _, _, rfl⟩ := heffect
      intro counter hcounter
      unfold initCounter at hcounter
      split_ifs at hcounter
      · exact hids (hgrounded.counters counter hcounter)
      · rcases List.mem_append.mp hcounter with hold | hnew
        · exact hids (hgrounded.counters counter hold)
        · obtain rfl := List.mem_singleton.mp hnew
          simp
    case incrementCounter projectId seq =>
      obtain ⟨_, rfl⟩ := heffect
      intro counter hcounter
      obtain ⟨old, hold, rfl⟩ := mem_updateWhere.mp hcounter
      refine hids ?_
      split_ifs <;> exact hgrounded.counters old hold
  · rw [heffect.frame.projectCounters hwrites]
    exact fun counter hcounter ↦ hids (hgrounded.counters counter hcounter)

/-- Assumes: a new status is one of a project. The statuses a step leaves belong to the projects it
leaves. -/
theorem Grounded.statuses_step (hgrounded : Grounded db) (heffect : Effect db label after)
    (hstatus : ∀ status, label = .createStatus status → status.projectId ∈ db.projects.map Project.id) :
    ∀ status ∈ after.workflowStatuses, status.projectId ∈ after.projects.map Project.id := by
  have hids := projectIds_subset heffect
  by_cases hwrites : .workflowStatuses ∈ label.writes
  · cases label <;> simp only [WorkStep.writes, List.mem_cons, List.not_mem_nil, reduceCtorEq,
      or_self, or_false, false_or] at hwrites
    case createProject project =>
      obtain ⟨_, _, _, _, _, rfl⟩ := heffect
      intro status hmem
      rcases List.mem_append.mp hmem with hold | hnew
      · exact hids (hgrounded.statuses status hold)
      · obtain ⟨entry, _, rfl⟩ := List.mem_map.mp hnew
        simp
    case createStatus status =>
      obtain rfl := heffect
      intro other hmem
      rcases List.mem_append.mp hmem with hold | hnew
      · exact hgrounded.statuses other hold
      · obtain rfl := List.mem_singleton.mp hnew
        exact hstatus other rfl
    case deleteStatus id =>
      obtain rfl := heffect
      exact fun status hmem ↦ hgrounded.statuses status (List.mem_of_mem_filter hmem)
  · rw [heffect.frame.workflowStatuses hwrites]
    exact fun status hmem ↦ hids (hgrounded.statuses status hmem)

/-- Two calls that have created projects with one key in one tenant are the same call. -/
theorem OncePerKey.unique {first second : ℕ} {created other : Project} (honce : OncePerKey world)
    (hfirst : (first, .createProject created) ∈ world.log)
    (hsecond : (second, .createProject other) ∈ world.log) (htenant : created.tenantId = other.tenantId)
    (hkey : created.key = other.key) : first = second := by
  by_contra hne
  have hsymm : Std.Symm fun later earlier : ℕ × WorkStep ↦ ∀ second first, later.2 = .createProject second →
      earlier.2 = .createProject first → second.tenantId = first.tenantId → second.key ≠ first.key :=
    ⟨fun _ _ hkeys second first hsecond hfirst htenants hsame ↦
      hkeys first second hfirst hsecond htenants.symm hsame.symm⟩
  exact honce.once.forall hfirst hsecond (fun hsame ↦ hne (Prod.mk.inj hsame).1) created other rfl rfl
    htenant hkey

/-- Assumes: the step deletes no project. A key that has been used is not used again. -/
theorem OncePerKey.step (honce : OncePerKey world) (heffect : Effect world.db label after)
    (hdeletes : ∀ id, label ≠ .deleteProject id) : OncePerKey (world.after number label after) where
  once := by
    refine List.pairwise_cons.mpr ⟨?_, honce.once⟩
    rintro entry hentry second first rfl hfirst htenant hkey
    obtain ⟨row, hrow, hoccupies⟩ := honce.taken entry hentry first hfirst
    have hfree := heffect.2.2.1 row hrow
    rw [htenant, hkey, hoccupies] at hfree
    cases hfree
  taken := by
    have hkept := projects_subset heffect hdeletes
    intro entry hentry project hcreates
    rcases List.mem_cons.mp hentry with rfl | hold
    · obtain rfl : label = .createProject project := hcreates
      obtain ⟨_, hlive, _, _, _, rfl⟩ := heffect
      exact ⟨project, List.mem_append_right _ List.mem_cons_self, by simp [Project.occupies, hlive]⟩
    · obtain ⟨row, hrow, hoccupies⟩ := honce.taken entry hold project hcreates
      exact ⟨row, hkept hrow, hoccupies⟩

theorem KeepsCreation.keeps (hinv : CreationOrder requests world)
    (hkeeps : KeepsCreation requests world label after) :
    (creation requests).Keeps number world label after where
  guarantee := hkeeps
  invariant := {
    grounded := ⟨hinv.grounded.counters_step hkeeps.effect,
      hinv.grounded.statuses_step hkeeps.effect hkeeps.status⟩
    once := fun hnone ↦ (hinv.once hnone).step hkeeps.effect fun id hlabel ↦
      hnone (hkeeps.deletion id hlabel) }

/-- A call whose steps do what their labels say, and create no status and delete no project. What lasts is
kept. -/
theorem meets_of_plain {fact : World Db WorkStep → Prop} (hfact : (creation requests).Persistent fact)
    {call : WorkCall α} (hcall : call.Only fun db label after ↦ Effect db label after ∧
      (∀ status, label ≠ .createStatus status) ∧ ∀ id, label ≠ .deleteProject id) :
    (creation requests).Meets number call fact fun _ ↦ fact := by
  refine Protocol.meets_of_only hcall hfact.stable fun world label after hinv hholds _ hplain ↦ ?_
  have hkeeps : KeepsCreation requests world label after :=
    ⟨hplain.1, fun status hlabel ↦ absurd hlabel (hplain.2.1 status),
      fun id hlabel ↦ absurd hlabel (hplain.2.2 id)⟩
  exact ⟨hkeeps.keeps hinv, hfact number world label after hinv hholds hkeeps⟩

/-- A call that only reads. -/
theorem meets_of_reads {fact : World Db WorkStep → Prop} (hfact : (creation requests).Persistent fact)
    {call : WorkCall α} (hcall : call.Only Reads) :
    (creation requests).Meets number call fact fun _ ↦ fact := by
  refine meets_of_plain hfact (hcall.mono fun db label after hreads ↦ ?_)
  obtain ⟨rfl, rfl⟩ := hreads
  exact ⟨effect_other_refl after, by simp, by simp⟩

theorem meets_uuidv7 {fact : World Db WorkStep → Prop} (hfact : (creation requests).Persistent fact) :
    (creation requests).Meets number uuidv7 fact fun _ ↦ fact := by
  refine meets_of_plain hfact ((Call.only_atomically _ _).mpr fun db ↦ ?_)
  exact ⟨⟨db.now, db.nextUuid + 1, rfl⟩, by simp, by simp⟩

theorem true_persistent : (creation requests).Persistent fun _ ↦ True := Protocol.persistent_const True

/-- The world has the project, deleted or not. -/
def HasProject (projectId : Uuid) (world : World Db WorkStep) : Prop :=
  projectId ∈ world.db.projects.map Project.id

theorem hasProject_persistent (projectId : Uuid) :
    (creation requests).Persistent (HasProject projectId) :=
  fun _ _ _ _ _ hproject hkeeps ↦ projectIds_subset hkeeps.effect hproject

theorem KeepsCreation.other (db : Db) (log : List (ℕ × WorkStep)) :
    KeepsCreation requests ⟨db, log⟩ .other db :=
  ⟨effect_other_refl db, by simp, by simp⟩

/-! ### The calls -/

/-- `getProject` has found the project. -/
theorem getProject_finds (tenantId projectId : Uuid) :
    (creation requests).Meets number (getProject tenantId projectId) (fun _ ↦ True)
      fun _ ↦ HasProject projectId := by
  have hfind : (creation requests).Meets number (findProjectById projectId) (fun _ ↦ True)
      fun found world ↦ ∀ project, found = some project → HasProject projectId world := by
    refine Protocol.meets_query Protocol.stable_true fun world hinv _ _ ↦ ⟨?_, fun project hfound ↦ ?_⟩
    · exact (KeepsCreation.other _ _).keeps hinv
    · have hid : project.id = projectId := by simpa using List.find?_some hfound
      exact List.mem_map.mpr ⟨project, List.mem_of_find?_eq_some hfound, hid⟩
  refine hfind.bind fun found _ ↦ Protocol.meets_require.bind fun project _ ↦ ?_
  refine Protocol.meets_ensure.bind fun _ _ ↦ Protocol.meets_pure fun world _ hknown ↦ ?_
  exact hknown.1.1 project hknown.1.2

theorem createStatus_meets (tenantId projectId : Uuid) (input : CreateWorkflowStatusInput) :
    (creation requests).Meets number (createStatus tenantId projectId input) (fun _ ↦ True)
      fun _ _ ↦ True := by
  have hproject : (creation requests).Persistent (HasProject projectId) := hasProject_persistent projectId
  refine (getProject_finds tenantId projectId).bind fun _ _ ↦ ?_
  refine (meets_of_reads hproject (by simp [listStatusesByProject])).bind fun statuses _ ↦ ?_
  refine (meets_uuidv7 hproject).bind fun id _ ↦ ?_
  refine Protocol.meets_transaction hproject.stable (fun world hinv _ _ ↦ (KeepsCreation.other _ _).keeps hinv)
    fun world status after hinv hholds _ hrun ↦ ⟨?_, trivial⟩
  obtain ⟨store, hstatus, hrest⟩ := bind_eq_ok.mp hrun
  cases hrest
  refine KeepsCreation.keeps hinv ⟨insertStatus_ok hstatus, fun other hlabel ↦ ?_, by simp⟩
  obtain rfl := WorkStep.createStatus.inj hlabel
  exact hholds

/-- The project is one that the request has asked for. -/
def ProjectRequest.Creates (project : Project) : ProjectRequest → Prop
  | .createProject _ actor _ key .. => project.tenantId = actor.tenantId ∧ project.key = normalizeKey key
  | .other _ => False

/-- The call has created the project. -/
def Created (requests : List ProjectRequest) (number : ℕ) (project : Project) (world : World Db WorkStep) :
    Prop :=
  (number, .createProject project) ∈ world.log ∧
    ∀ request, requests[number]? = some request → request.Creates project

theorem createProjectFailing_meets {faults : Faults} {actor : Actor} {workspaceId : Uuid} {key : ProjectKey}
    {name : String} {description : Option String} {leadId : Option Uuid} (hrequest : requests[number]? =
      some (.createProject faults actor workspaceId key name description leadId)) :
    (creation requests).Meets number
      (createProjectFailing faults actor workspaceId key name description leadId) (fun _ ↦ True)
      fun project world ↦ Created requests number project world := by
  refine Protocol.Meets.failing ?_ faults.step
  refine (meets_of_reads true_persistent (by simp [findProjectByKey])).bind fun existing _ ↦ ?_
  refine (meets_of_reads true_persistent (Call.only_ensure _ _)).bind fun _ _ ↦ ?_
  refine (meets_of_reads true_persistent (by simp [findWorkspaceMember])).bind fun found _ ↦ ?_
  refine (meets_of_reads true_persistent (Call.only_require _ _)).bind fun lead _ ↦ ?_
  refine (meets_of_reads true_persistent (Call.only_ensure _ _)).bind fun _ _ ↦ ?_
  refine (meets_uuidv7 true_persistent).bind fun projectId _ ↦ ?_
  refine Protocol.meets_transaction Protocol.stable_true
    (fun world hinv _ _ ↦ (KeepsCreation.other _ _).keeps hinv)
    fun world project after hinv _ _ hcommitted ↦ ?_
  obtain ⟨rfl, hfresh, hkey, _, _, rfl⟩ := commitProject_ok (commitProject_of_failing hcommitted)
  refine ⟨KeepsCreation.keeps hinv ⟨⟨hfresh, rfl, hkey rfl, _, _, rfl⟩, by simp, by simp⟩,
    List.mem_cons_self, fun request hsame ↦ ?_⟩
  obtain rfl := Option.some.inj (hrequest.symm.trans hsame)
  exact ⟨rfl, rfl⟩

theorem other_meets {request : WorkRequest} (hrequest : requests[number]? = some (.other request)) :
    (creation requests).Meets number request.serve (fun _ ↦ True) fun _ _ ↦ True := by
  cases request with
  | createStatus tenantId projectId input =>
    exact (createStatus_meets tenantId projectId input).bind fun _ _ ↦
      Protocol.meets_pure fun _ _ _ ↦ trivial
  | deleteProject tenantId projectId =>
    have hdeletes : DeletesProject requests := ⟨tenantId, projectId, List.mem_of_getElem? hrequest⟩
    refine Protocol.meets_of_only ((serve_effect _).and (serve_takes _)) Protocol.stable_true
      fun world label after hinv _ _ hstep ↦
        ⟨KeepsCreation.keeps hinv ⟨hstep.1, ?_, fun _ _ ↦ hdeletes⟩, trivial⟩
    rintro status rfl
    cases hstep.2
  | _ =>
    refine meets_of_plain true_persistent
      (((serve_effect _).and (serve_takes _)).mono fun db label after hstep ↦ ⟨hstep.1, ?_, ?_⟩) <;>
      rintro _ rfl <;> cases hstep.2

/-- Every request keeps the protocol, and a project that it returns is one it has created. -/
theorem serve_creates {request : ProjectRequest} (hrequest : requests[number]? = some request) :
    (creation requests).Meets number request.serve (Fresh number)
      fun result world ↦ ∀ project, result = some project → Created requests number project world := by
  refine Protocol.Meets.strengthen ?_ fun _ _ _ ↦ trivial
  cases request with
  | createProject faults actor workspaceId key name description leadId =>
    refine (createProjectFailing_meets hrequest).bind fun created _ ↦
      Protocol.meets_pure fun world _ hcreated project hproject ↦ ?_
    exact Option.some.inj hproject ▸ hcreated
  | other request =>
    exact (other_meets hrequest).bind fun _ _ ↦ Protocol.meets_pure fun _ _ _ project hproject ↦ by
      cases hproject

theorem created_stable (result : Option Project) : (creation requests).Stable number fun world ↦
    ∀ project, result = some project → Created requests number project world :=
  fun _ _ _ _ _ _ hcreated _ project hproject ↦
    ⟨List.mem_cons_of_mem _ (hcreated project hproject).1, (hcreated project hproject).2⟩

/-! ### A usable project or nothing -/

/-- A configuration of the calls. -/
abbrev CreationRun := Concurrency.Config Db WorkStep Failure (Option Project)

/-- Assumes: a run from a store in which every counter and every status belongs to a project. It keeps the
protocol. -/
theorem reachable_creation {config : CreationRun} (hgrounded : Grounded db)
    (hreach : ReachableBy ProjectRequest.serve anyStep db requests config) :
    (creation requests).Kept (fun number result world ↦
      ∀ project, result = some project → Created requests number project world) config :=
  Protocol.reachableBy_kept (fun _ result ↦ created_stable result) (fun _ _ hrequest ↦ serve_creates hrequest)
    ⟨hgrounded, fun _ ↦ ⟨List.Pairwise.nil, by simp⟩⟩ hreach (List.prefix_refl _)

/-- The call has succeeded in creating a project of the tenant with the key, up to case. -/
def Succeeds (requests : List ProjectRequest) (config : CreationRun) (tenantId : Uuid) (key : String)
    (number : ℕ) : Prop :=
  ∃ (faults : Faults) (actor : Actor) (workspaceId : Uuid) (asked : ProjectKey) (name : String)
    (description : Option String) (leadId : Option Uuid) (project : Project),
    requests[number]? = some (.createProject faults actor workspaceId asked name description leadId) ∧
      actor.tenantId = tenantId ∧ EqualUpToCase asked key ∧
        config.calls[number]? = some (.done (.ok (some project)))

/-- What holds of a configuration. By its next step a call of `createProject` returns and leaves a usable
project, or it does not return and leaves the tables alone. As long as no request deletes a project, at most
one call of a tenant has succeeded with the same key up to case. -/
structure UsableOrNothing (requests : List ProjectRequest) (config : CreationRun) : Prop where
  step : ∀ (number : ℕ) (faults : Faults) (actor : Actor) (workspaceId : Uuid) (key : ProjectKey)
    (name : String) (description : Option String) (leadId : Option Uuid) (label : Db → WorkStep)
    (act : Db → Db) (next : Db → WorkCall (Option Project)),
    requests[number]? = some (.createProject faults actor workspaceId key name description leadId) →
    config.calls[number]? = some (.step label act next) →
    (∃ project, next config.db = .done (.ok (some project)) ∧
      Usable actor key (leadId.getD actor.sub) project (act config.db)) ∨
    SameTables config.db (act config.db) ∧ ∀ result, next config.db ≠ .done (.ok result)
  once : ¬ DeletesProject requests → ∀ (tenantId : Uuid) (key : String) (first second : ℕ),
    Succeeds requests config tenantId key first → Succeeds requests config tenantId key second →
      first = second

theorem serve_allOrNothing (faults : Faults) (actor : Actor) (workspaceId : Uuid) (key : ProjectKey)
    (name : String) (description : Option String) (leadId : Option Uuid) :
    (ProjectRequest.createProject faults actor workspaceId key name description leadId).serve.AllOrNothing
      SameTables fun db result after ↦ ∃ project, result = some project ∧
        (Grounded db → Usable actor key (leadId.getD actor.sub) project after) := by
  refine Call.allOrNothing_map ((createProjectFailing_allOrNothing faults actor workspaceId key name
    description leadId).mono fun db project after husable ↦ ?_)
  exact ⟨project, rfl, husable⟩

/-- A call that has succeeded has created its project in a step of its own. -/
theorem Succeeds.created {config : CreationRun} {key : String} (hgrounded : Grounded db)
    (hreach : ReachableBy ProjectRequest.serve anyStep db requests config)
    (hsucceeds : Succeeds requests config tenantId key number) :
    ∃ project, (number, .createProject project) ∈ config.log ∧ project.tenantId = tenantId ∧
      project.key = normalizeKey key := by
  obtain ⟨faults, actor, workspaceId, asked, name, description, leadId, project, hrequest, htenant, hkey,
    hcall⟩ := hsucceeds
  obtain ⟨hlog, hcreates⟩ := (reachable_creation hgrounded hreach).returned hcall project rfl
  obtain ⟨hproject, hnormalized⟩ := hcreates _ hrequest
  exact ⟨project, hlog, hproject.trans htenant, hnormalized.trans (normalizeKey_eq hkey)⟩

/-- Assumes: every counter and every status belongs to a stored project at the start. In every run a call
of `createProject`, any step of which may fail, leaves a usable project or nothing, and of the calls of a
tenant with the same key up to case at most one succeeds. -/
theorem reachable_usableOrNothing (db : Db) (hgrounded : Grounded db) (requests : List ProjectRequest)
    (config : CreationRun) (hreach : ReachableBy ProjectRequest.serve anyStep db requests config) :
    UsableOrNothing requests config where
  step number faults actor workspaceId key name description leadId label act next hrequest hcall := by
    have hground := (reachable_creation hgrounded hreach).invariant.grounded
    rcases reachableBy_allOrNothing hreach hrequest (serve_allOrNothing ..) hcall with ⟨_, hdone⟩ | hrest
    · cases hdone
    rcases hrest config.db with ⟨result, hnext, project, rfl, husable⟩ | ⟨hsame, hlater⟩
    · exact .inl ⟨project, hnext, husable hground⟩
    · refine .inr ⟨hsame, fun result hreturned ↦ ?_⟩
      rw [hreturned] at hlater
      exact hlater
  once := by
    intro hnone tenantId key first second hfirst hsecond
    obtain ⟨created, hcreated, htenant, hkey⟩ := hfirst.created hgrounded hreach
    obtain ⟨other, hother, hotherTenant, hotherKey⟩ := hsecond.created hgrounded hreach
    exact ((reachable_creation hgrounded hreach).invariant.once hnone).unique hcreated hother
      (htenant.trans hotherTenant.symm) (hkey.trans hotherKey.symm)

/-- Two calls with one key up to case look for it at the same time, and then create their projects. -/
def twoCreations : List (Choice ProjectRequest) :=
  [.start (.createProject {} founder 3 ⟨"app", Eq.refl true⟩ "App" none none),
    .start (.createProject {} founder 3 ⟨"APP", Eq.refl true⟩ "Other" none none),
    .resume 0, .resume 1, .resume 0, .resume 1, .resume 0, .resume 1, .resume 0, .resume 1]

/-- A witness that the conditions can be met. -/
theorem reachable_usableOrNothing_witness : UsableOrNothing (requestsOf twoCreations)
    ((Config.initial emptyDb).play ProjectRequest.serve twoCreations) :=
  reachable_usableOrNothing emptyDb ⟨by simp [emptyDb], by simp [emptyDb]⟩ _ _
    (play_reachableBy _ _ twoCreations)

end RallyApi.Work

import RallyApi.Releases.ReleasesService
import RallyApi.Work.CallRuns

/-!
# What items are planned for

An item names a sprint, a release and a team. `createWorkItem` looks the team up among the links of the
project, and `completeSprint` the sprint that takes over the unfinished items; `updateWorkItem` writes
whatever it is given, and `deleteSprint` and `deleteRelease` do not ask which items name the row.

`reachable_planningValid` proves, for every sequence of calls in which an update names rows of the project
of the item and a deletion removes a row that no item names, that the sprint and the release of every item
are rows of its project, and that its team was linked to the project when it was assigned.
`missingSprint` is a sequence without the condition.
-/

set_option autoImplicit false
set_option relaxedAutoImplicit false

namespace RallyApi.Releases

open Concurrency CrossTenant Platform Store Work

variable {db after : Db} {requests : List PlanningRequest}

/-! ### References -/

/-- The columns of an item that name what it is planned for. -/
inductive PlanningRef
  | iteration
  | release
  | team

/-- What an item names. -/
def PlanningRef.column : PlanningRef → WorkItem → Option Uuid
  | .iteration => WorkItem.iterationId
  | .release => WorkItem.releaseId
  | .team => WorkItem.teamId

/-- What a change set names, if it sets the column. -/
def PlanningRef.requested (ref : PlanningRef) (input : UpdateWorkItemInput) : Option (Option Uuid) :=
  match ref with
  | .iteration => input.iterationId.map (Option.map UuidText.value)
  | .release => input.releaseId.map (Option.map UuidText.value)
  | .team => input.teamId.map (Option.map UuidText.value)

/-- The sprint is one of the project. -/
def Db.HasSprint (db : Db) (projectId sprintId : Uuid) : Prop :=
  ∃ sprint ∈ db.work.sprints, sprint.id = sprintId ∧ sprint.projectId = projectId

/-- The release is one of the project. -/
def Db.HasRelease (db : Db) (projectId releaseId : Uuid) : Prop :=
  ∃ release ∈ db.releases, release.id = releaseId ∧ release.projectId = projectId

/-- The project has the row that an item may name. -/
def Db.Has (db : Db) : PlanningRef → Uuid → Uuid → Prop
  | .iteration => db.HasSprint
  | .release => db.HasRelease
  | .team => TeamLinked db.work

/-- The item is not deleted, and names the row. -/
def Db.Names (db : Db) (ref : PlanningRef) (itemId rowId : Uuid) : Prop :=
  ∃ item ∈ db.work.workItems, item.id = itemId ∧ item.deletedAt = none ∧ ref.column item = some rowId

/-! ### Sequences of calls -/

/-- The store after calls, the last of which comes first. -/
def stateAfter (db : Db) : List PlanningRequest → Db
  | [] => db
  | request :: earlier => (request.serve.run (stateAfter db earlier)).2

/-- The team of the item was linked to the project when it was assigned: if the item had the team before
the last call, then when that was assigned; otherwise before the last call, which assigned it. What the
item had at the start was linked at the start. -/
def LinkedWhenAssigned (db : Db) (projectId itemId teamId : Uuid) : List PlanningRequest → Prop
  | [] => db.Has .team projectId teamId
  | _ :: earlier =>
    (stateAfter db earlier).Names .team itemId teamId ∧ LinkedWhenAssigned db projectId itemId teamId earlier ∨
      ¬ (stateAfter db earlier).Names .team itemId teamId ∧
        (stateAfter db earlier).Has .team projectId teamId

/-- After the calls, the sprint and the release of every item that is not deleted are rows of its project,
and its team was linked to the project when it was assigned. -/
structure PlanningValid (db : Db) (requests : List PlanningRequest) : Prop where
  iteration : ∀ item ∈ (stateAfter db requests).work.workItems, item.deletedAt = none →
    ∀ sprintId ∈ item.iterationId, (stateAfter db requests).HasSprint item.projectId sprintId
  release : ∀ item ∈ (stateAfter db requests).work.workItems, item.deletedAt = none →
    ∀ releaseId ∈ item.releaseId, (stateAfter db requests).HasRelease item.projectId releaseId
  team : ∀ item ∈ (stateAfter db requests).work.workItems, item.deletedAt = none →
    ∀ teamId ∈ item.teamId, LinkedWhenAssigned db item.projectId item.id teamId requests

/-! ### The condition -/

/-- An update whose item is found and whose checks pass names rows of the project of the item. -/
def NamesOwnRows (db : Db) (actor : Actor) (id : Uuid) (input : UpdateWorkItemInput) : Prop :=
  ∀ item ∈ db.work.workItems, item.id = id → item.deletedAt = none → item.tenantId = actor.tenantId →
    Passes db.work (whenPresent input.assigneeId.join (assertAssignable actor.tenantId item)) →
      Passes db.work (whenPresent input.statusId (assertStatusReachable item)) →
        ∀ ref : PlanningRef, ∀ rowId ∈ (ref.requested input).join, db.Has ref item.projectId rowId

/-- No item that is not deleted names the row. -/
def Unnamed (db : Db) (ref : PlanningRef) (rowId : Uuid) : Prop :=
  ∀ item ∈ db.work.workItems, item.deletedAt = none → ref.column item ≠ some rowId

/-- The request leaves no item without what it is planned for: an update names rows of the project, and a
sprint or a release that is deleted is named by no item. -/
def KeepsPlanning (db : Db) : PlanningRequest → Prop
  | .work (.updateWorkItem actor id input) => NamesOwnRows db actor id input
  | .work (.deleteSprint tenantId id) =>
    (∃ sprint ∈ db.work.sprints, sprint.id = id ∧ sprint.tenantId = tenantId ∧ sprint.status = .planned) →
      Unnamed db .iteration id
  | .deleteRelease tenantId id =>
    (∃ release ∈ db.releases, release.id = id ∧ release.tenantId = tenantId ∧ release.status ≠ .released) →
      Unnamed db .release id
  | _ => True

/-- Every call keeps within the condition, in the store it finds. -/
def AllKeepPlanning (db : Db) : List PlanningRequest → Prop
  | [] => True
  | request :: earlier => KeepsPlanning (stateAfter db earlier) request ∧ AllKeepPlanning db earlier

section Decidable

variable (projectId itemId rowId : Uuid)

instance : Decidable (db.HasSprint projectId rowId) :=
  inferInstanceAs (Decidable (∃ sprint ∈ db.work.sprints, _))

instance : Decidable (db.HasRelease projectId rowId) :=
  inferInstanceAs (Decidable (∃ release ∈ db.releases, _))

instance (ref : PlanningRef) : Decidable (db.Has ref projectId rowId) :=
  match ref with
  | .iteration => inferInstanceAs (Decidable (db.HasSprint projectId rowId))
  | .release => inferInstanceAs (Decidable (db.HasRelease projectId rowId))
  | .team => inferInstanceAs (Decidable (TeamLinked db.work projectId rowId))

instance (ref : PlanningRef) : Decidable (db.Names ref itemId rowId) :=
  inferInstanceAs (Decidable (∃ item ∈ db.work.workItems, _))

instance LinkedWhenAssigned.decidable : (requests : List PlanningRequest) →
    Decidable (LinkedWhenAssigned db projectId itemId rowId requests)
  | [] => inferInstanceAs (Decidable (db.Has .team projectId rowId))
  | _ :: earlier =>
    have := LinkedWhenAssigned.decidable earlier
    inferInstanceAs (Decidable (_ ∧ _ ∨ _ ∧ _))

instance {property : PlanningRef → Prop} [DecidablePred property] : Decidable (∀ ref, property ref) :=
  decidable_of_iff (property .iteration ∧ property .release ∧ property .team)
    ⟨fun h ref ↦ by cases ref; exacts [h.1, h.2.1, h.2.2], fun h ↦ ⟨h _, h _, h _⟩⟩

instance (actor : Actor) (id : Uuid) (input : UpdateWorkItemInput) :
    Decidable (NamesOwnRows db actor id input) :=
  inferInstanceAs (Decidable (∀ item ∈ db.work.workItems, _))

instance (ref : PlanningRef) : Decidable (Unnamed db ref rowId) :=
  inferInstanceAs (Decidable (∀ item ∈ db.work.workItems, _))

instance : (request : PlanningRequest) → Decidable (KeepsPlanning db request)
  | .work request =>
    match request with
    | .updateWorkItem actor id input => inferInstanceAs (Decidable (NamesOwnRows db actor id input))
    | .deleteSprint .. => inferInstanceAs (Decidable ((∃ sprint ∈ db.work.sprints, _) → _))
    | .createProject .. | .deleteProject .. | .createStatus .. | .deleteStatus ..
    | .createTransition .. | .deleteTransition .. | .createWorkItem .. | .createTask ..
    | .moveWorkItem .. | .deleteWorkItem .. | .createSprint .. | .startSprint .. | .completeSprint ..
    | .tick _ => .isTrue trivial
  | .deleteRelease .. => inferInstanceAs (Decidable ((∃ release ∈ db.releases, _) → _))
  | .linkTeam .. => .isTrue trivial
  | .createRelease .. => .isTrue trivial

instance AllKeepPlanning.decidable : (requests : List PlanningRequest) →
    Decidable (AllKeepPlanning db requests)
  | [] => .isTrue trivial
  | _ :: earlier =>
    have := AllKeepPlanning.decidable earlier
    inferInstanceAs (Decidable (_ ∧ _))

end Decidable

/-! ### What a call does to the items -/

/-- Every item of the second store was an item of the first, and named there what it names. -/
def ItemsKept (before after : Work.Db) : Prop :=
  ∀ row ∈ after.workItems, row.deletedAt = none → ∃ old ∈ before.workItems, old.deletedAt = none ∧
    old.id = row.id ∧ old.projectId = row.projectId ∧
      ∀ ref : PlanningRef, ref.column old = ref.column row

theorem ItemsKept.refl (db : Work.Db) : ItemsKept db db :=
  fun row hrow hlive ↦ ⟨row, hrow, hlive, rfl, rfl, fun _ ↦ rfl⟩

theorem ItemsKept.of_eq {before after : Work.Db} (hsame : after.workItems = before.workItems) :
    ItemsKept before after := by
  intro row hrow hlive
  rw [hsame] at hrow
  exact ⟨row, hrow, hlive, rfl, rfl, fun _ ↦ rfl⟩

theorem ItemsKept.trans {first second third : Work.Db} (hfirst : ItemsKept first second)
    (hsecond : ItemsKept second third) : ItemsKept first third := by
  intro row hrow hlive
  obtain ⟨middle, hmiddle, hmiddleLive, hid, hproject, hcolumns⟩ := hsecond row hrow hlive
  obtain ⟨old, hold, holdLive, holdId, holdProject, holdColumns⟩ := hfirst middle hmiddle hmiddleLive
  exact ⟨old, hold, holdLive, holdId.trans hid, holdProject.trans hproject,
    fun ref ↦ (holdColumns ref).trans (hcolumns ref)⟩

/-- The steps that change what no item is planned for. -/
def keepsItems : WorkStep → Bool
  | .createWorkItem _ | .updateWorkItem .. | .carryOver .. => false
  | _ => true

theorem itemsKept_of_effect {before after : Work.Db} {label : WorkStep}
    (heffect : Effect before label after) (hkeeps : keepsItems label = true) : ItemsKept before after := by
  by_cases hwrites : .workItems ∈ label.writes
  · cases label <;> simp [WorkStep.writes, keepsItems] at hwrites hkeeps
    case deleteWorkItem id =>
      obtain rfl := heffect
      intro row hrow hlive
      obtain ⟨old, hold, rfl⟩ := mem_updateWhere.mp hrow
      split_ifs at hlive ⊢
      exact ⟨old, hold, hlive, rfl, rfl, fun _ ↦ rfl⟩
  · exact .of_eq (heffect.frame.workItems hwrites)

/-- The item was there, in the same project, or its identifier is new. -/
def Traced (before : Work.Db) (row : WorkItem) : Prop :=
  (∃ old ∈ before.workItems, old.id = row.id ∧ old.projectId = row.projectId) ∨
    row.id ∉ before.workItems.map WorkItem.id

/-- What an item names after the call it named before, or the project had the row before. -/
def RefsOwn (before : Db) (after : Work.Db) : Prop :=
  ∀ (ref : PlanningRef), ∀ row ∈ after.workItems, row.deletedAt = none → ∀ rowId ∈ ref.column row,
    (∃ old ∈ before.work.workItems, old.deletedAt = none ∧ old.id = row.id ∧
        old.projectId = row.projectId ∧ ref.column old = some rowId) ∨
      before.Has ref row.projectId rowId ∧ Traced before.work row

theorem ItemsKept.refsOwn {after : Work.Db} (hkept : ItemsKept db.work after) : RefsOwn db after := by
  intro ref row hrow hlive rowId hrowId
  obtain ⟨old, hold, holdLive, hid, hproject, hcolumns⟩ := hkept row hrow hlive
  exact .inl ⟨old, hold, holdLive, hid, hproject, (hcolumns ref).trans hrowId⟩

/-! ### The calls of the work services -/

/-- The work services never write the team links. -/
theorem projectTeams_of_effect {before after : Work.Db} {label : WorkStep}
    (heffect : Effect before label after) : after.projectTeams = before.projectTeams := by
  cases label <;> simp only [Effect] at heffect
  case other => obtain ⟨_, _, rfl⟩ := heffect; rfl
  case createProject => obtain ⟨_, _, _, _, _, rfl⟩ := heffect; rfl
  case incrementCounter => obtain ⟨_, rfl⟩ := heffect; rfl
  case createWorkItem => obtain ⟨_, _, _, _, rfl⟩ := heffect; rfl
  case updateWorkItem =>
    obtain ⟨_, _, hcommit⟩ := heffect
    obtain ⟨_, _, rfl, _⟩ := commitUpdate_ok hcommit
    rfl
  case carryOver => obtain ⟨_, _, rfl⟩ := heffect; rfl
  case createSprint => obtain ⟨_, _, rfl⟩ := heffect; rfl
  case updateSprint => obtain ⟨_, _, rfl⟩ := heffect; rfl
  all_goals obtain rfl := heffect; rfl

/-- Run alone, a call of a work service does to its part of the store what it does alone. -/
theorem run_work (request : WorkRequest) (db : Db) :
    (((PlanningRequest.work request).serve.run db).2.work = (request.serve.run db.work).2) ∧
      ((PlanningRequest.work request).serve.run db).2.releases = db.releases := by
  have hlinks : (request.serve.run db.work).2.projectTeams = db.work.projectTeams :=
    (serve_effect request).run_keeps (fun store ↦ store.projectTeams = db.work.projectTeams)
      (fun _ _ _ hstore heffect ↦ (projectTeams_of_effect heffect).trans hstore) rfl
  have hcross : (CrossTenant.ofWork request.serve).run db.cross =
      ((request.serve.run db.work).1, workPart.put (request.serve.run db.work).2 db.cross) := by
    refine Call.run_within (serve_effect request) (fun store label after heffect ↦ ?_)
      (fun _ _ _ ↦ rfl) db.cross
    change { after with projectTeams := store.work.projectTeams } = after
    have hsame : store.work.projectTeams = after.projectTeams := (projectTeams_of_effect heffect).symm
    rw [hsame]
  have hrun : (ofWork request.serve).run db = ((request.serve.run db.work).1,
      crossPart.put (workPart.put (request.serve.run db.work).2 db.cross) db) := by
    refine (Call.run_within (Call.only_true _) (fun _ _ _ _ ↦ rfl) (fun _ _ _ ↦ rfl) db).trans ?_
    change (((CrossTenant.ofWork request.serve).run db.cross).1,
      crossPart.put ((CrossTenant.ofWork request.serve).run db.cross).2 db) = _
    rw [hcross]
  rw [PlanningRequest.serve, hrun]
  refine ⟨?_, rfl⟩
  change { (request.serve.run db.work).2 with projectTeams := db.work.projectTeams } = _
  rw [← hlinks]

/-! ### Creation and update -/

/-- A new item names nothing but a team that is linked to its project. -/
theorem refsOwn_creates {actor : Actor} {projectId : Uuid} {type : WorkItemType} {title : String}
    {opts : CreateWorkItemOpts} {after : Work.Db}
    (hcreates : Creates db.work actor projectId type title opts after) : RefsOwn db after := by
  cases hcreates with
  | refused counters => exact ItemsKept.refsOwn (.of_eq rfl)
  | created counters statusId itemKey entry nextUuid hchecked hfresh =>
    intro ref row hrow hlive rowId hrowId
    rcases List.mem_append.mp hrow with hold | hnew
    · exact .inl ⟨row, hold, hlive, rfl, rfl, hrowId⟩
    · obtain rfl := List.mem_singleton.mp hnew
      cases ref with
      | iteration => cases hrowId
      | release => cases hrowId
      | team => exact .inr ⟨hchecked.team rowId hrowId, .inr hfresh⟩

theorem refsOwn_createsTask {actor : Actor} {parentId : Uuid} {title : String}
    {opts : CreateWorkItemOpts} {after : Work.Db}
    (hcreates : CreatesTask db.work actor parentId title opts after) : RefsOwn db after := by
  cases hcreates with
  | refused => exact (ItemsKept.refl db.work).refsOwn
  | created parent assigneeId hvisible htype after hcreates => exact refsOwn_creates hcreates

/-- What a change set writes to a column. -/
theorem column_set (ref : PlanningRef) (input : UpdateWorkItemInput) (item : WorkItem) :
    ref.column (input.set item) = (ref.requested input).getD (ref.column item) := by
  cases ref <;> rfl

/-- Assumes: item identifiers are distinct, and an update that passes its checks names rows of the project
of its item. -/
theorem refsOwn_updates (hids : (db.work.workItems.map WorkItem.id).Nodup) {actor : Actor} {id : Uuid}
    {input : UpdateWorkItemInput} {after : Work.Db} (hnames : NamesOwnRows db actor id input)
    (hupdates : Updates db.work actor id input after) : RefsOwn db after := by
  cases hupdates with
  | refused => exact (ItemsKept.refl db.work).refsOwn
  | updated item hvisible hassignable hreachable logs nextUuid =>
    intro ref row hrow hlive rowId hrowId
    obtain ⟨old, hold, holdId, hset⟩ := exists_of_mem_updateWorkItemRows hrow
    by_cases hid : row.id = id
    · rw [if_pos hid] at hset
      have hsame : old = item := List.inj_on_of_nodup_map hids hold hvisible.mem
        (holdId.trans (hid.trans hvisible.id_eq.symm))
      subst hset hsame
      rw [column_set] at hrowId
      cases hrequested : ref.requested { input with updatedBy := some actor.sub } with
      | none =>
        rw [hrequested] at hrowId
        exact .inl ⟨old, hold, hvisible.live, rfl, rfl, hrowId⟩
      | some requested =>
        rw [hrequested] at hrowId
        refine .inr ⟨hnames old hold hvisible.id_eq hvisible.live hvisible.tenant hassignable hreachable
          ref rowId ?_, .inl ⟨old, hold, rfl, rfl⟩⟩
        have hinput : ref.requested input = some requested := by
          rw [← hrequested]
          cases ref <;> rfl
        rw [hinput]
        exact hrowId
    · rw [if_neg hid] at hset
      subst hset
      exact .inl ⟨row, hold, hlive, rfl, rfl, hrowId⟩

/-! ### Sprints -/

/-- The sprints of the first store are there in the second, in the same project. -/
def SprintsKept (before after : Work.Db) : Prop :=
  ∀ sprint ∈ before.sprints, ∃ kept ∈ after.sprints, kept.id = sprint.id ∧
    kept.projectId = sprint.projectId

theorem SprintsKept.of_eq {before after : Work.Db} (hsame : after.sprints = before.sprints) :
    SprintsKept before after :=
  fun sprint hsprint ↦ ⟨sprint, hsame ▸ hsprint, rfl, rfl⟩

theorem SprintsKept.trans {first second third : Work.Db} (hfirst : SprintsKept first second)
    (hsecond : SprintsKept second third) : SprintsKept first third := by
  intro sprint hsprint
  obtain ⟨middle, hmiddle, hid, hproject⟩ := hfirst sprint hsprint
  obtain ⟨kept, hkept, hkeptId, hkeptProject⟩ := hsecond middle hmiddle
  exact ⟨kept, hkept, hkeptId.trans hid, hkeptProject.trans hproject⟩

theorem SprintsKept.hasSprint (hkept : SprintsKept db.work after.work) {projectId sprintId : Uuid}
    (hsprint : db.HasSprint projectId sprintId) : after.HasSprint projectId sprintId := by
  obtain ⟨sprint, hmem, hid, hproject⟩ := hsprint
  obtain ⟨kept, hkept, hkeptId, hkeptProject⟩ := hkept sprint hmem
  exact ⟨kept, hkept, hkeptId.trans hid, hkeptProject.trans hproject⟩

/-- The step deletes no sprint. -/
def keepsSprints : WorkStep → Bool
  | .deleteSprint _ => false
  | _ => true

theorem sprintsKept_of_effect {before after : Work.Db} {label : WorkStep}
    (heffect : Effect before label after) (hkeeps : keepsSprints label = true) :
    SprintsKept before after := by
  by_cases hwrites : .sprints ∈ label.writes
  · cases label <;> simp [WorkStep.writes, keepsSprints] at hwrites hkeeps
    case createSprint sprint =>
      obtain ⟨_, _, rfl⟩ := heffect
      exact fun sprint hsprint ↦ ⟨sprint, List.mem_append_left _ hsprint, rfl, rfl⟩
    case updateSprint id status =>
      obtain ⟨input, _, rfl⟩ := heffect
      intro sprint hsprint
      by_cases hid : sprint.id = id
      · exact ⟨input.set sprint, set_mem_updateWhere hsprint (decide_eq_true hid), rfl, rfl⟩
      · exact ⟨sprint, mem_updateWhere_of_not hsprint (decide_eq_false hid), rfl, rfl⟩
  · exact .of_eq (heffect.frame.sprints hwrites)

/-- The identifiers of the sprints stay distinct, whatever a step does. -/
theorem nodup_sprints_step {before after : Work.Db} {label : WorkStep}
    (hids : (before.sprints.map Sprint.id).Nodup) (heffect : Effect before label after) :
    (after.sprints.map Sprint.id).Nodup := by
  by_cases hwrites : .sprints ∈ label.writes
  · cases label <;> simp [WorkStep.writes] at hwrites
    case createSprint sprint =>
      obtain ⟨hfresh, _, rfl⟩ := heffect
      exact nodup_map_append_singleton hids hfresh
    case updateSprint id status =>
      obtain ⟨_, _, rfl⟩ := heffect
      exact nodup_map_updateWhere (fun _ ↦ rfl) hids
    case deleteSprint id =>
      obtain rfl := heffect
      exact hids.sublist (List.filter_sublist.map _)
  · rw [heffect.frame.sprints hwrites]
    exact hids

/-- Assumes: sprint identifiers are distinct, and the sprint of every item is one of its project. So is the
sprint that takes an item over. -/
theorem refsOwn_completes (hids : (db.work.sprints.map Sprint.id).Nodup)
    (hiterations : ∀ item ∈ db.work.workItems, item.deletedAt = none →
      ∀ sprintId ∈ item.iterationId, db.HasSprint item.projectId sprintId)
    {tenantId id : Uuid} {moveToSprintId : Option Uuid} {after : Work.Db}
    (hcompletes : Completes db.work tenantId id moveToSprintId after) : RefsOwn db after := by
  cases hcompletes with
  | refused => exact (ItemsKept.refl db.work).refsOwn
  | completed sprint hsprint hid htarget doneStatusIds middle hmiddle input =>
    rcases hmiddle with rfl | rfl
    · exact ItemsKept.refsOwn (.of_eq rfl)
    · intro ref row hrow hlive rowId hrowId
      obtain ⟨old, hold, rfl⟩ := mem_updateWhere.mp hrow
      split_ifs at hlive hrowId ⊢ with hmoved
      · cases ref with
        | iteration =>
          obtain ⟨target, htargetMem, htargetId, hsame⟩ := htarget rowId hrowId
          obtain ⟨own, hown, hownId, hownProject⟩ :=
            hiterations old hold hlive id (of_decide_eq_true hmoved).1
          have heq : own = sprint := List.inj_on_of_nodup_map hids hown hsprint (hownId.trans hid.symm)
          subst heq
          exact .inr ⟨⟨target, htargetMem, htargetId, hsame.trans hownProject⟩, .inl ⟨old, hold, rfl, rfl⟩⟩
        | release => exact .inl ⟨old, hold, hlive, rfl, rfl, hrowId⟩
        | team => exact .inl ⟨old, hold, hlive, rfl, rfl, hrowId⟩
      · exact .inl ⟨old, hold, hlive, rfl, rfl, hrowId⟩

/-! ### One call -/

/-- What is known between two calls: identifiers are distinct, as the primary keys have it, and the sprint
of every item that is not deleted is one of its project. -/
structure Sound (db : Db) : Prop where
  itemIds : (db.work.workItems.map WorkItem.id).Nodup
  sprintIds : (db.work.sprints.map Sprint.id).Nodup
  iteration : ∀ item ∈ db.work.workItems, item.deletedAt = none →
    ∀ sprintId ∈ item.iterationId, db.HasSprint item.projectId sprintId

/-- What a call does: items name what they named before or what their project had, and the sprints and
releases that items name are still there. -/
structure KeepsRows (before after : Db) : Prop where
  refsOwn : RefsOwn before after.work
  sprints : ∀ row ∈ after.work.workItems, row.deletedAt = none → ∀ sprintId ∈ row.iterationId,
    before.HasSprint row.projectId sprintId → after.HasSprint row.projectId sprintId
  releases : ∀ row ∈ after.work.workItems, row.deletedAt = none → ∀ releaseId ∈ row.releaseId,
    before.HasRelease row.projectId releaseId → after.HasRelease row.projectId releaseId
  itemIds : (after.work.workItems.map WorkItem.id).Nodup
  sprintIds : (after.work.sprints.map Sprint.id).Nodup

/-- Assumes: items and sprints are as they were, and the releases that items name are still there. -/
theorem Sound.keepsRows (hsound : Sound db) (hitems : after.work.workItems = db.work.workItems)
    (hsprints : after.work.sprints = db.work.sprints)
    (hreleases : ∀ item ∈ db.work.workItems, item.deletedAt = none → ∀ releaseId ∈ item.releaseId,
      db.HasRelease item.projectId releaseId → after.HasRelease item.projectId releaseId) :
    KeepsRows db after where
  refsOwn := ItemsKept.refsOwn (.of_eq hitems)
  sprints _ _ _ _ _ hsprint := (SprintsKept.of_eq hsprints).hasSprint hsprint
  releases row hrow := hreleases row (hitems ▸ hrow)
  itemIds := hitems ▸ hsound.itemIds
  sprintIds := hsprints ▸ hsound.sprintIds

/-- A call of a work service that keeps within the condition names rows of the project. -/
theorem refsOwn_work (hsound : Sound db) {request : WorkRequest}
    (hkeeps : KeepsPlanning db (.work request)) : RefsOwn db (request.serve.run db.work).2 := by
  cases request with
  | createWorkItem actor projectId type title opts =>
    rw [WorkRequest.serve, Call.run_map]
    exact refsOwn_creates (createWorkItem_creates db.work actor projectId type title opts)
  | createTask actor parentId title opts =>
    rw [WorkRequest.serve, Call.run_map]
    exact refsOwn_createsTask (createTask_creates db.work actor parentId title opts)
  | updateWorkItem actor id input =>
    rw [WorkRequest.serve, Call.run_map]
    exact refsOwn_updates hsound.itemIds hkeeps (updateWorkItem_updates db.work actor id input)
  | moveWorkItem actor id toStatusId =>
    rw [WorkRequest.serve, Call.run_map]
    refine refsOwn_updates hsound.itemIds ?_ (updateWorkItem_updates db.work actor id _)
    rintro _ _ _ _ _ _ _ ref rowId hrowId
    cases ref <;> cases hrowId
  | completeSprint tenantId id moveToSprintId =>
    rw [WorkRequest.serve, Call.run_map]
    exact refsOwn_completes hsound.sprintIds hsound.iteration
      (completeSprint_completes db.work tenantId id moveToSprintId)
  | _ =>
    refine ItemsKept.refsOwn (((serve_effect _).and (serve_takes _)).run_keeps (ItemsKept db.work)
      (fun _ label _ hstore hstep ↦ hstore.trans (itemsKept_of_effect hstep.1 ?_)) (.refl db.work))
    have htakes := hstep.2
    cases label <;> first | rfl | cases htakes

/-- A call of a work service that keeps within the condition deletes no sprint that an item names. -/
theorem sprints_work {request : WorkRequest} (hkeeps : KeepsPlanning db (.work request)) :
    SprintsKept db.work (request.serve.run db.work).2 ∨
      ∃ id, (request.serve.run db.work).2 = db.work.deleteSprint id ∧ Unnamed db .iteration id := by
  cases request with
  | deleteSprint tenantId id =>
    have hdeletes := deleteSprint_deletes db.work tenantId id
    rw [WorkRequest.serve]
    generalize ((deleteSprint tenantId id).run db.work).2 = after at hdeletes ⊢
    cases hdeletes with
    | refused => exact .inl (.of_eq rfl)
    | deleted sprint hsprint hid htenant hplanned =>
      exact .inr ⟨id, rfl, hkeeps ⟨sprint, hsprint, hid, htenant, hplanned⟩⟩
  | _ =>
    refine .inl (((serve_effect _).and (serve_takes _)).run_keeps (SprintsKept db.work)
      (fun _ label _ hstore hstep ↦ hstore.trans (sprintsKept_of_effect hstep.1 ?_)) (.of_eq rfl))
    have htakes := hstep.2
    cases label <;> first | rfl | cases htakes

theorem keepsRows_work (hsound : Sound db) {request : WorkRequest}
    (hkeeps : KeepsPlanning db (.work request)) :
    KeepsRows db ((PlanningRequest.work request).serve.run db).2 := by
  obtain ⟨hwork, hreleases⟩ := run_work request db
  generalize ((PlanningRequest.work request).serve.run db).2 = after at hwork hreleases
  refine ⟨hwork ▸ refsOwn_work hsound hkeeps, ?_, ?_, ?_, ?_⟩
  · intro row hrow hlive sprintId hsprintId hsprint
    rcases sprints_work hkeeps with hkept | ⟨id, hdeleted, hunnamed⟩
    · rw [← hwork] at hkept
      exact hkept.hasSprint hsprint
    · rw [← hwork] at hdeleted
      obtain ⟨sprint, hmem, hid, hproject⟩ := hsprint
      refine ⟨sprint, ?_, hid, hproject⟩
      rw [hdeleted] at hrow ⊢
      refine mem_deleteWhere.mpr ⟨hmem, decide_eq_false fun hsame ↦ hunnamed row hrow hlive ?_⟩
      exact hsprintId.trans (congrArg some (hid.symm.trans hsame))
  · intro row _ _ releaseId _ hrelease
    rwa [Db.HasRelease, hreleases]
  · rw [hwork]
    exact (serve_effect request).run_keeps _ (fun _ _ _ ↦ nodup_workItems_step) hsound.itemIds
  · rw [hwork]
    exact (serve_effect request).run_keeps _ (fun _ _ _ ↦ nodup_sprints_step) hsound.sprintIds

/-- Items and sprints are as they were, and no release is gone. -/
structure Adds (before after : Db) : Prop where
  workItems : after.work.workItems = before.work.workItems
  sprints : after.work.sprints = before.work.sprints
  releases : before.releases ⊆ after.releases

theorem Adds.refl (db : Db) : Adds db db := ⟨rfl, rfl, List.Subset.refl _⟩

theorem Adds.trans {first second third : Db} (hfirst : Adds first second)
    (hsecond : Adds second third) : Adds first third :=
  ⟨hsecond.workItems.trans hfirst.workItems, hsecond.sprints.trans hfirst.sprints,
    List.Subset.trans hfirst.releases hsecond.releases⟩

theorem Adds.keepsRows (hadds : Adds db after) (hsound : Sound db) : KeepsRows db after := by
  refine hsound.keepsRows hadds.workItems hadds.sprints fun item _ _ releaseId _ hrelease ↦ ?_
  obtain ⟨release, hmem, hid, hproject⟩ := hrelease
  exact ⟨release, hadds.releases hmem, hid, hproject⟩

/-- A call all of whose steps only add rows only adds rows. -/
theorem adds_of_only {α : Type} {call : ReleaseCall α} (hcall : call.Only fun before _ ↦ Adds before)
    (db : Db) : Adds db (call.run db).2 :=
  hcall.run_keeps (Adds db) (fun _ _ _ hstore hstep ↦ hstore.trans hstep) (.refl db)

/-- The items and the sprints are the same in both stores. -/
def SamePlan (before after : Work.Db) : Prop :=
  after.workItems = before.workItems ∧ after.sprints = before.sprints

theorem getProject_samePlan (tenantId projectId : Uuid) :
    (CrossTenant.ofWork (getProject tenantId projectId)).Only fun before _ after ↦
      SamePlan before.work after.work :=
  (getProject_reads _ _).within fun _ _ _ hreads ↦ by rw [hreads.2]; exact ⟨rfl, rfl⟩

theorem uuidv7_samePlan : (CrossTenant.ofWork Work.uuidv7).Only fun before _ after ↦
    SamePlan before.work after.work := by
  have hown : Work.uuidv7.Only fun before _ after ↦ SamePlan before after :=
    (Call.only_atomically _ _).mpr fun _ ↦ ⟨rfl, rfl⟩
  exact hown.within fun _ _ _ hsame ↦ hsame

/-- The calls of the services with the team links know nothing of the releases. -/
theorem ofCross_adds {α : Type} {call : CrossCall α}
    (hcall : call.Only fun before _ after ↦ SamePlan before.work after.work) :
    (ofCross call).Only fun before _ ↦ Adds before :=
  hcall.within fun _ _ _ hsame ↦ ⟨hsame.1, hsame.2, List.Subset.refl _⟩

theorem createRelease_adds (actor : Actor) (projectId : Uuid) (name : String) (opts : CreateReleaseOpts)
    (db : Db) : Adds db ((createRelease actor projectId name opts).run db).2 := by
  refine adds_of_only ?_ db
  refine Call.only_bind.mpr ⟨ofCross_adds (getProject_samePlan _ _), fun _ _ ↦ ?_⟩
  refine Call.only_bind.mpr ⟨ofCross_adds uuidv7_samePlan, fun id _ ↦ ?_⟩
  refine Call.only_transaction Adds.refl fun before created after hcreate ↦ ?_
  obtain ⟨_, _, hcreate⟩ := bind_eq_ok.mp hcreate
  obtain ⟨_, rfl⟩ := Prod.mk.inj (Except.ok.inj hcreate)
  exact ⟨rfl, rfl, List.subset_append_left _ _⟩

theorem linkTeam_adds (tenantId projectId teamId : Uuid) (db : Db) :
    Adds db ((ofCross (linkTeam tenantId projectId teamId)).run db).2 := by
  refine adds_of_only (ofCross_adds ?_) db
  refine Call.only_bind.mpr ⟨getProject_samePlan _ _, fun _ _ ↦ ?_⟩
  refine Call.only_bind.mpr ⟨(Call.only_query _ _).mpr fun _ ↦ ⟨rfl, rfl⟩, fun _ _ ↦ ?_⟩
  refine Call.only_bind.mpr ⟨Call.only_ensure _ _, fun _ _ ↦ ?_⟩
  refine Call.only_bind.mpr ⟨uuidv7_samePlan, fun id _ ↦ ?_⟩
  refine Call.only_attempt _ _ (fun _ _ _ ↦ ⟨rfl, rfl⟩) fun before link after hinsert ↦ ?_
  dsimp only at hinsert
  obtain ⟨_, _, hinsert⟩ := bind_eq_ok.mp hinsert
  split_ifs at hinsert
  obtain ⟨_, rfl⟩ := Prod.mk.inj (Except.ok.inj hinsert)
  exact ⟨rfl, rfl⟩

/-- What `deleteRelease` makes of a store. -/
inductive DeletesRelease (db : Db) (tenantId id : Uuid) : Db → Prop
  | refused : DeletesRelease db tenantId id db
  | deleted (release : Release) (hrelease : release ∈ db.releases) (hid : release.id = id)
      (htenant : release.tenantId = tenantId) (hstatus : release.status ≠ .released) :
    DeletesRelease db tenantId id (db.deleteRelease id)

theorem deleteRelease_deletes (db : Db) (tenantId id : Uuid) :
    DeletesRelease db tenantId id ((deleteRelease tenantId id).run db).2 := by
  cases hfind : db.releases.find? fun release ↦ release.id = id with
  | none =>
    have hrun : (deleteRelease tenantId id).run db =
        (.error (notFoundException .releaseNotFound "Release not found"), db) := by
      simp [deleteRelease, getRelease, findById, Call.run_bind, hfind, Call.require]
    rw [hrun]
    exact .refused
  | some release =>
    have hmem := List.mem_of_find?_eq_some hfind
    have hid : release.id = id := by simpa using List.find?_some hfind
    by_cases htenant : release.tenantId = tenantId
    · by_cases hstatus : release.status = .released
      · have hrun : ((deleteRelease tenantId id).run db).2 = db := by
          simp [deleteRelease, getRelease, findById, Call.run_bind, hfind, htenant, hstatus, Call.ensure]
        rw [hrun]
        exact .refused
      · have hrun : (deleteRelease tenantId id).run db = (.ok (), db.deleteRelease id) := by
          simp [deleteRelease, getRelease, findById, delete, Call.run_bind, hfind, htenant, hstatus]
        rw [hrun]
        exact .deleted release hmem hid htenant hstatus
    · have hrun : ((deleteRelease tenantId id).run db).2 = db := by
        simp [deleteRelease, getRelease, findById, Call.run_bind, hfind, htenant, Call.ensure]
      rw [hrun]
      exact .refused

/-- A call that keeps within the condition, run alone. -/
theorem serve_keepsRows (hsound : Sound db) {request : PlanningRequest}
    (hkeeps : KeepsPlanning db request) : KeepsRows db (request.serve.run db).2 := by
  cases request with
  | work request => exact keepsRows_work hsound hkeeps
  | linkTeam tenantId projectId teamId =>
    rw [PlanningRequest.serve, Call.run_map]
    exact (linkTeam_adds tenantId projectId teamId db).keepsRows hsound
  | createRelease actor projectId name opts =>
    rw [PlanningRequest.serve, Call.run_map]
    exact (createRelease_adds actor projectId name opts db).keepsRows hsound
  | deleteRelease tenantId id =>
    have hdeletes := deleteRelease_deletes db tenantId id
    rw [PlanningRequest.serve]
    generalize ((deleteRelease tenantId id).run db).2 = after at hdeletes ⊢
    cases hdeletes with
    | refused => exact (Adds.refl db).keepsRows hsound
    | deleted found hfound hid htenant hstatus =>
      have hunnamed := hkeeps ⟨found, hfound, hid, htenant, hstatus⟩
      refine hsound.keepsRows rfl rfl fun item hitem hlive releaseId hreleaseId hrelease ↦ ?_
      obtain ⟨release, hmem, hreleaseHas, hproject⟩ := hrelease
      refine ⟨release, mem_deleteWhere.mpr ⟨hmem, decide_eq_false fun hsame ↦ ?_⟩, hreleaseHas, hproject⟩
      exact hunnamed item hitem hlive (hreleaseId.trans (congrArg some (hreleaseHas.symm.trans hsame)))

/-! ### Sequences of calls -/

theorem PlanningValid.sound (hvalid : PlanningValid db requests)
    (hitems : ((stateAfter db requests).work.workItems.map WorkItem.id).Nodup)
    (hsprints : ((stateAfter db requests).work.sprints.map Sprint.id).Nodup) :
    Sound (stateAfter db requests) :=
  ⟨hitems, hsprints, hvalid.iteration⟩

/-- One more call keeps what is said of the references of the items. -/
theorem PlanningValid.call (hvalid : PlanningValid db requests) {request : PlanningRequest}
    (hitems : ((stateAfter db requests).work.workItems.map WorkItem.id).Nodup)
    (hrows : KeepsRows (stateAfter db requests) (stateAfter db (request :: requests))) :
    PlanningValid db (request :: requests) where
  iteration row hrow hlive sprintId hsprintId := by
    refine hrows.sprints row hrow hlive sprintId hsprintId ?_
    rcases hrows.refsOwn .iteration row hrow hlive sprintId hsprintId with
      ⟨old, hold, holdLive, hid, hproject, hcolumn⟩ | ⟨hhas, _⟩
    · exact hproject ▸ hvalid.iteration old hold holdLive sprintId hcolumn
    · exact hhas
  release row hrow hlive releaseId hreleaseId := by
    refine hrows.releases row hrow hlive releaseId hreleaseId ?_
    rcases hrows.refsOwn .release row hrow hlive releaseId hreleaseId with
      ⟨old, hold, holdLive, hid, hproject, hcolumn⟩ | ⟨hhas, _⟩
    · exact hproject ▸ hvalid.release old hold holdLive releaseId hcolumn
    · exact hhas
  team row hrow hlive teamId hteamId := by
    have hbefore (old : WorkItem) (hold : old ∈ (stateAfter db requests).work.workItems)
        (holdLive : old.deletedAt = none) (hid : old.id = row.id) (hproject : old.projectId = row.projectId)
        (hcolumn : old.teamId = some teamId) :
        LinkedWhenAssigned db row.projectId row.id teamId (request :: requests) := by
      refine .inl ⟨⟨old, hold, hid, holdLive, hcolumn⟩, ?_⟩
      rw [← hid, ← hproject]
      exact hvalid.team old hold holdLive teamId hcolumn
    rcases hrows.refsOwn .team row hrow hlive teamId hteamId with
      ⟨old, hold, holdLive, hid, hproject, hcolumn⟩ | ⟨hhas, htraced⟩
    · exact hbefore old hold holdLive hid hproject hcolumn
    · by_cases hnames : (stateAfter db requests).Names .team row.id teamId
      · obtain ⟨old, hold, hid, holdLive, hcolumn⟩ := hnames
        rcases htraced with ⟨origin, horigin, horiginId, hproject⟩ | hfresh
        · have hsame : old = origin :=
            List.inj_on_of_nodup_map hitems hold horigin (hid.trans horiginId.symm)
          exact hbefore old hold holdLive hid (hsame ▸ hproject) hcolumn
        · exact absurd (List.mem_map.mpr ⟨old, hold, hid⟩) hfresh
      · exact .inr ⟨hnames, hhas⟩

/-- Assumes: identifiers of items and sprints are distinct at the start, as their primary keys have it; at
the start the sprint and the release of every item are rows of its project and its team is linked to it;
and every call keeps within the condition. After any sequence of calls, the sprint and the release of every
item are rows of its project, and its team was linked to the project when it was assigned. -/
theorem reachable_planningValid (hitems : (db.work.workItems.map WorkItem.id).Nodup)
    (hsprints : (db.work.sprints.map Sprint.id).Nodup) (hvalid : PlanningValid db [])
    (hkeeps : AllKeepPlanning db requests) : PlanningValid db requests := by
  suffices hall : ((stateAfter db requests).work.workItems.map WorkItem.id).Nodup ∧
      ((stateAfter db requests).work.sprints.map Sprint.id).Nodup ∧ PlanningValid db requests from
    hall.2.2
  induction requests with
  | nil => exact ⟨hitems, hsprints, hvalid⟩
  | cons request earlier ih =>
    obtain ⟨hitems, hsprints, hvalid⟩ := ih hkeeps.2
    have hrows := serve_keepsRows (hvalid.sound hitems hsprints) hkeeps.1
    exact ⟨hrows.itemIds, hrows.sprintIds, hvalid.call hitems hrows⟩

/-- Two projects, and the item 112 of the first, which is planned for nothing. -/
def unplanned : Db where
  cross := { work := runCalls emptyDb twoProjects, links := by decide +kernel }

/-- The item is planned for a sprint and a release, and assigned to a team, and another sprint is deleted.
-/
def planningCalls : List PlanningRequest :=
  [.work (.deleteSprint 2 120),
    .work (.createSprint founder 100 "Sprint 2" {}),
    .work (.updateWorkItem founder 112
      { iterationId := some (some 114), releaseId := some (some 115), teamId := some (some 50) }),
    .linkTeam 2 100 50,
    .createRelease founder 100 "1.0" {},
    .work (.createSprint founder 100 "Sprint 1" {})]

theorem unplanned_valid : PlanningValid unplanned [] :=
  ⟨by decide +kernel, by decide +kernel, by decide +kernel⟩

/-- A witness that the condition can be met. -/
theorem reachable_planningValid_witness : PlanningValid unplanned planningCalls :=
  reachable_planningValid (by decide +kernel) (by decide +kernel) unplanned_valid (by decide +kernel)

/-- Without the condition an item can name a sprint that does not exist: an update does not ask. -/
theorem missingSprint :
    ¬ ∀ (db : Db) (requests : List PlanningRequest), (db.work.workItems.map WorkItem.id).Nodup →
      (db.work.sprints.map Sprint.id).Nodup → PlanningValid db [] → PlanningValid db requests := by
  intro halways
  have hvalid := halways unplanned [.work (.updateWorkItem founder 112 { iterationId := some (some 999) })]
    (by decide +kernel) (by decide +kernel) unplanned_valid
  exact absurd hvalid.iteration (by decide +kernel)

end RallyApi.Releases

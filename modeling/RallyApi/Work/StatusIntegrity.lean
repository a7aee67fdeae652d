import RallyApi.Work.CallRuns

/-!
# The status of a work item

There are no foreign keys, so only the services can see to it that the status of a work item is a
status of its project. `createWorkItem` looks the status up. `updateWorkItem` asks only whether the
transition is allowed, and an open workflow allows every one; `deleteStatus` does not look at the
items.

`reachable_statusIntact` proves the invariant for every sequence of calls in which an update that
passes its checks names a status of the project of its item, and a status that is deleted is the
status of no item. `foreignStatus` is a sequence that moves an item into a status of another project.
-/

set_option autoImplicit false
set_option relaxedAutoImplicit false

namespace RallyApi.Work

open Concurrency Platform Store

variable {db after : Db} {label : WorkStep}

/-! ### The invariant and the condition -/

/-- The status of every item that is not deleted is one of its project. -/
def StatusIntact (db : Db) : Prop :=
  ∀ item ∈ db.workItems, item.deletedAt = none → HasStatus db item.projectId item.statusId

/-- An update whose item is found and whose checks pass names a status of the project of the item, if
it names one. -/
def NamesOwnStatus (db : Db) (actor : Actor) (id : Uuid) (input : UpdateWorkItemInput) : Prop :=
  ∀ item ∈ db.workItems, item.id = id → item.deletedAt = none → item.tenantId = actor.tenantId →
    Passes db (whenPresent input.assigneeId.join (assertAssignable actor.tenantId item)) →
      Passes db (whenPresent input.statusId (assertStatusReachable item)) →
        ∀ requested ∈ input.statusId, HasStatus db item.projectId requested.value

instance : Decidable (StatusIntact db) :=
  inferInstanceAs (Decidable (∀ item ∈ db.workItems, _ → HasStatus db _ _))

instance (actor : Actor) (id : Uuid) (input : UpdateWorkItemInput) :
    Decidable (NamesOwnStatus db actor id input) :=
  inferInstanceAs (Decidable (∀ item ∈ db.workItems, _))

/-- The request does not lead into a status that is none of the project: an update names a status of
the project, and a status of a project that is deleted is the status of no item. -/
def KeepsStatuses (db : Db) : WorkRequest → Prop
  | .updateWorkItem actor id input => NamesOwnStatus db actor id input
  | .moveWorkItem actor id toStatusId => NamesOwnStatus db actor id { statusId := some toStatusId }
  | .deleteStatus tenantId projectId statusId =>
    ∀ project ∈ db.projects, project.id = projectId → project.deletedAt = none →
      project.tenantId = tenantId → HasStatus db projectId statusId →
        ∀ item ∈ db.workItems, item.deletedAt = none → item.statusId ≠ statusId
  | _ => True

instance (request : WorkRequest) : Decidable (KeepsStatuses db request) :=
  match request with
  | .updateWorkItem actor id input => inferInstanceAs (Decidable (NamesOwnStatus db actor id input))
  | .moveWorkItem actor id toStatusId =>
    inferInstanceAs (Decidable (NamesOwnStatus db actor id { statusId := some toStatusId }))
  | .deleteStatus .. => inferInstanceAs (Decidable (∀ project ∈ db.projects, _))
  | .createProject .. | .deleteProject .. | .createStatus .. | .createTransition ..
  | .deleteTransition .. | .createWorkItem .. | .createTask .. | .deleteWorkItem .. | .createSprint ..
  | .startSprint .. | .completeSprint .. | .deleteSprint .. | .tick _ => .isTrue trivial

/-! ### What a step preserves -/

/-- The steps that cannot leave an item without its status, whatever the call has checked. -/
def WorkStep.isSafe : WorkStep → Bool
  | .createWorkItem _ | .updateWorkItem .. | .deleteStatus _ => false
  | _ => true

/-- Assumes: the statuses are still there, and a live item was there before, in the same project and
the same status. The invariant still holds. -/
theorem StatusIntact.mono (hintact : StatusIntact db)
    (hstatuses : db.workflowStatuses ⊆ after.workflowStatuses)
    (hitems : ∀ row ∈ after.workItems, row.deletedAt = none → ∃ old ∈ db.workItems,
      old.deletedAt = none ∧ old.projectId = row.projectId ∧ old.statusId = row.statusId) :
    StatusIntact after := by
  intro row hrow hlive
  obtain ⟨old, hold, holdLive, hproject, hstatus⟩ := hitems row hrow hlive
  rw [← hproject, ← hstatus]
  exact (hintact old hold holdLive).mono hstatuses

/-- A safe step keeps the invariant. -/
theorem StatusIntact.step (hintact : StatusIntact db) (heffect : Effect db label after)
    (hsafe : label.isSafe = true) : StatusIntact after := by
  by_cases hwrites : .workItems ∈ label.writes ∨ .workflowStatuses ∈ label.writes
  · cases label <;> simp [WorkStep.writes, WorkStep.isSafe] at hwrites hsafe
    case createProject project =>
      obtain ⟨_, _, _, _, _, rfl⟩ := heffect
      exact hintact.mono (List.subset_append_left _ _) fun row hrow hlive ↦
        ⟨row, hrow, hlive, rfl, rfl⟩
    case createStatus status =>
      obtain rfl := heffect
      exact hintact.mono (List.subset_append_left _ _) fun row hrow hlive ↦
        ⟨row, hrow, hlive, rfl, rfl⟩
    case deleteWorkItem id =>
      obtain rfl := heffect
      refine hintact.mono (List.Subset.refl _) fun row hrow hlive ↦ ?_
      obtain ⟨old, hold, rfl⟩ := mem_updateWhere.mp hrow
      split_ifs at hlive ⊢
      exact ⟨old, hold, hlive, rfl, rfl⟩
    case carryOver id target =>
      obtain ⟨_, _, rfl⟩ := heffect
      refine hintact.mono (List.Subset.refl _) fun row hrow hlive ↦ ?_
      obtain ⟨old, hold, rfl⟩ := mem_updateWhere.mp hrow
      split_ifs at hlive ⊢ <;> exact ⟨old, hold, hlive, rfl, rfl⟩
  · rw [not_or] at hwrites
    refine hintact.mono (heffect.frame.workflowStatuses hwrites.2 ▸ List.Subset.refl _) ?_
    rw [heffect.frame.workItems hwrites.1]
    exact fun row hrow hlive ↦ ⟨row, hrow, hlive, rfl, rfl⟩

/-! ### The calls that write a status -/

/-- A creation keeps the invariant: the new item is in the status that has been resolved. -/
theorem StatusIntact.creates (hintact : StatusIntact db) {actor : Actor} {projectId : Uuid}
    {type : WorkItemType} {title : String} {opts : CreateWorkItemOpts}
    (hcreates : Creates db actor projectId type title opts after) : StatusIntact after := by
  cases hcreates with
  | refused counters => exact hintact
  | created counters statusId itemKey entry nextUuid hchecked hfresh =>
    intro row hrow hlive
    rcases List.mem_append.mp hrow with hold | hnew
    · exact hintact row hold hlive
    · rw [List.mem_singleton.mp hnew]
      exact hchecked.status

theorem StatusIntact.createsTask (hintact : StatusIntact db) {actor : Actor} {parentId : Uuid}
    {title : String} {opts : CreateWorkItemOpts}
    (hcreates : CreatesTask db actor parentId title opts after) : StatusIntact after := by
  cases hcreates with
  | refused => exact hintact
  | created parent assigneeId hvisible htype after hcreates => exact hintact.creates hcreates

/-- Assumes: item identifiers are distinct, and an update that passes its checks names a status of the
project. An update keeps the invariant. -/
theorem StatusIntact.updates (hids : (db.workItems.map WorkItem.id).Nodup)
    (hintact : StatusIntact db) {actor : Actor} {id : Uuid} {input : UpdateWorkItemInput}
    (hnames : NamesOwnStatus db actor id input) (hupdates : Updates db actor id input after) :
    StatusIntact after := by
  cases hupdates with
  | refused => exact hintact
  | updated item hvisible hassignable hreachable logs nextUuid =>
    obtain ⟨hmem, hid, hlive, htenant⟩ := hvisible
    have hown := hnames item hmem hid hlive htenant hassignable hreachable
    intro row hrow hrowLive
    obtain ⟨old, hold, holdId, hset⟩ := exists_of_mem_updateWorkItemRows hrow
    by_cases hrowId : row.id = id
    · obtain rfl := List.inj_on_of_nodup_map hids hold hmem ((holdId.trans hrowId).trans hid.symm)
      have hstatus : HasStatus db old.projectId
          ((input.statusId.map UuidText.value).getD old.statusId) := by
        cases hrequested : input.statusId with
        | none => exact hintact old hold hlive
        | some requested => exact hown requested hrequested
      rw [if_pos hrowId] at hset
      rw [hset]
      exact hstatus
    · rw [if_neg hrowId] at hset
      exact hintact row (hset ▸ hold) hrowLive

/-- Assumes: a status of the project that is deleted is the status of no live item. `deleteStatus`
keeps the invariant. -/
theorem deleteStatus_intact (hintact : StatusIntact db) {tenantId projectId statusId : Uuid}
    (hunused : KeepsStatuses db (.deleteStatus tenantId projectId statusId)) :
    StatusIntact ((deleteStatus tenantId projectId statusId).run db).2 := by
  refine run_keeps_of_reads (getProject_reads _ _) hintact fun project hproject ↦ ?_
  obtain ⟨hmem, hid, hlive, htenant⟩ := getProject_run hproject
  refine run_keeps_of_reads (by simp [findStatusById]) hintact fun found hfound ↦ ?_
  refine run_keeps_of_reads (Call.only_require _ _) hintact fun status hstatus ↦ ?_
  refine run_keeps_of_reads (Call.only_ensure _ _) hintact fun _ hown ↦ ?_
  obtain rfl := Except.ok.inj hfound
  have hfind := Call.run_require.mp hstatus
  have hstatusId : status.id = statusId := by simpa using List.find?_some hfind
  have hnone := hunused project hmem hid hlive htenant
    ⟨status, List.mem_of_find?_eq_some hfind, hstatusId, Call.run_ensure.mp hown⟩
  intro item hitem hitemLive
  obtain ⟨own, hownMem, hownId, hownProject⟩ := hintact item hitem hitemLive
  refine ⟨own, mem_deleteWhere.mpr ⟨hownMem, ?_⟩, hownId, hownProject⟩
  exact decide_eq_false fun hsame ↦ hnone item hitem hitemLive (hownId.symm.trans hsame)

/-! ### Sequences of calls -/

/-- Assumes: item identifiers are distinct, and the request keeps within the condition. Its call, run
alone, keeps the invariant. -/
theorem serve_intact (hids : (db.workItems.map WorkItem.id).Nodup) (hintact : StatusIntact db)
    {request : WorkRequest} (hkeeps : KeepsStatuses db request) :
    StatusIntact (request.serve.run db).2 := by
  cases request with
  | createWorkItem actor projectId type title opts =>
    rw [WorkRequest.serve, Call.run_map]
    exact hintact.creates (createWorkItem_creates db actor projectId type title opts)
  | createTask actor parentId title opts =>
    rw [WorkRequest.serve, Call.run_map]
    exact hintact.createsTask (createTask_creates db actor parentId title opts)
  | updateWorkItem actor id input =>
    rw [WorkRequest.serve, Call.run_map]
    exact hintact.updates hids hkeeps (updateWorkItem_updates db actor id input)
  | moveWorkItem actor id toStatusId =>
    rw [WorkRequest.serve, Call.run_map]
    exact hintact.updates hids hkeeps (updateWorkItem_updates db actor id _)
  | deleteStatus tenantId projectId statusId => exact deleteStatus_intact hintact hkeeps
  | _ =>
    refine ((serve_effect _).and (serve_takes _)).run_keeps StatusIntact
      (fun _ label _ hstore hstep ↦ hstore.step hstep.1 ?_) hintact
    have htakes := hstep.2
    cases label <;> first | rfl | cases htakes

/-- Assumes: item identifiers are distinct at the start, as their primary key has it; the status of
every live item is one of its project then; and every call keeps within the condition. The status of
every live item is one of its project after any sequence of calls. -/
theorem reachable_statusIntact (hids : (db.workItems.map WorkItem.id).Nodup)
    (hintact : StatusIntact db)
    (hreach : Relation.ReflTransGen (CallStep KeepsStatuses) db after) : StatusIntact after := by
  suffices hboth : (after.workItems.map WorkItem.id).Nodup ∧ StatusIntact after from hboth.2
  induction hreach with
  | refl => exact ⟨hids, hintact⟩
  | tail _ hstep ih =>
    obtain ⟨request, hkeeps, rfl⟩ := hstep
    exact ⟨(serve_effect request).run_keeps _ (fun _ _ _ ↦ nodup_workItems_step) ih.1,
      serve_intact ih.1 ih.2 hkeeps⟩

/-! ### A status of another project -/

/-- A witness that the condition can be met: the item moves on, and its old status is deleted. -/
theorem reachable_statusIntact_witness :
    StatusIntact (runCalls emptyDb
      (twoProjects ++ [.moveWorkItem founder 112 103, .deleteStatus 2 100 102])) :=
  reachable_statusIntact (by decide) (by decide)
    (runCalls_reachable _ (by decide +kernel))

/-- Without the condition an item can be in a status of another project: the open workflow allows the
update. -/
theorem foreignStatus :
    ¬ ∀ db after : Db, (db.workItems.map WorkItem.id).Nodup → StatusIntact db →
      Relation.ReflTransGen (CallStep fun _ _ ↦ True) db after → StatusIntact after := by
  intro halways
  have hintact := halways emptyDb _ (by decide) (by decide)
    (runCalls_reachable (twoProjects ++
      [.updateWorkItem founder 112 { statusId := some 108 }]) (by decide +kernel))
  exact absurd hintact (by decide +kernel)

end RallyApi.Work

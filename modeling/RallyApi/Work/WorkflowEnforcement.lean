import Mathlib.Data.List.Chain
import RallyApi.Work.Edits

/-!
# Workflow enforcement

An update of a work item may only change its status along a transition of the workflow. The check
is made against the status of a snapshot, and the transaction writes the new status whatever the row
holds by then.

`committedStatuses` is the sequence of the status values an item has had, read off the history of a
run. `reachable_enforced` proves that it follows the workflow in every interleaving of edits in which
an update that names a status finds the status of its snapshot still in place, or the one it names.
`skippedTransition` is a run of two overlapping moves that takes a transition the workflow does not
have.
-/

set_option autoImplicit false
set_option relaxedAutoImplicit false

namespace RallyApi.Work

open Concurrency Platform Store

/-! ### The property and the condition -/

/-- The status a step writes to an item, if it writes one. -/
def statusWritten (id : Uuid) : WorkStep → Option Uuid
  | .updateWorkItem snapshot input =>
    if snapshot.id = id then input.statusId.map UuidText.value else none
  | _ => none

/-- The committed status values of an item, most recent first, down to the one it had at the
start. -/
def committedStatuses (item : WorkItem) (log : List (ℕ × WorkStep)) : List Uuid :=
  log.filterMap (fun step ↦ statusWritten item.id step.2) ++ [item.statusId]

/-- The committed status values of an item follow the workflow, and the last of them is stored. -/
structure FollowsWorkflow (transitions : List WorkflowTransition) (world : World Db WorkStep)
    (item : WorkItem) : Prop where
  allowed : (committedStatuses item world.log).IsChain fun later earlier ↦
    earlier ≠ later → transitionAllowed transitions item.projectId earlier later = true
  stored : ∀ row ∈ world.db.workItems, row.id = item.id →
    (committedStatuses item world.log).head? = some row.statusId

/-- An update that names a status finds the status of its snapshot in the row, or the status it
names. -/
def StatusCurrent (world : World Db WorkStep) (label : WorkStep) : Prop :=
  match label with
  | .updateWorkItem snapshot input =>
    ∀ requested ∈ input.statusId, ∀ row ∈ world.db.workItems, row.id = snapshot.id →
      row.statusId = snapshot.statusId ∨ row.statusId = requested.value
  | _ => True

instance (world : World Db WorkStep) (label : WorkStep) :
    Decidable (StatusCurrent world label) :=
  match label with
  | .updateWorkItem _ input => inferInstanceAs (Decidable (∀ requested ∈ input.statusId, _))
  | .other | .createProject _ | .deleteProject _ | .incrementCounter .. | .createStatus _
  | .deleteStatus _ | .createTransition _ | .deleteTransition _ | .createWorkItem _
  | .deleteWorkItem _ | .carryOver .. | .createSprint _ | .updateSprint .. | .deleteSprint _ =>
    .isTrue trivial

/-! ### What a step preserves -/

/-- What holds in a run that has started from a store: its transitions are in place, its items are
in the table, each in its project, and every item follows the workflow. -/
structure Enforced (initial : Db) (world : World Db WorkStep) : Prop where
  transitions : world.db.workflowTransitions = initial.workflowTransitions
  places : world.db.workItems.map WorkItem.place = initial.workItems.map WorkItem.place
  follows : ∀ item ∈ initial.workItems, FollowsWorkflow initial.workflowTransitions world item

/-- The edits, with the condition; what a call has read of the workflow is a fact of the run, so
they promise each other nothing. -/
def enforcement (initial : Db) : Protocol Db WorkStep where
  permits := StatusCurrent
  invariant := Enforced initial
  guarantee _ _ _ _ := True

variable {initial : Db} {world : World Db WorkStep} {number : ℕ}

/-- A step that reads keeps the invariant. -/
theorem Enforced.reads (henforced : Enforced initial world) {label : WorkStep} {after : Db}
    (hreads : Reads world.db label after) : Enforced initial (world.after number label after) := by
  obtain ⟨rfl, rfl⟩ := hreads
  refine ⟨henforced.transitions, henforced.places, fun item hitem ↦ ?_⟩
  obtain ⟨hallowed, hstored⟩ := henforced.follows item hitem
  exact ⟨hallowed, hstored⟩

/-- The committed status values of an item after an update: the value the update names comes on top,
if the update is about the item and names one. -/
theorem committedStatuses_update (item snapshot : WorkItem) (input : UpdateWorkItemInput)
    (log : List (ℕ × WorkStep)) :
    committedStatuses item ((number, .updateWorkItem snapshot input) :: log) =
      (if snapshot.id = item.id then input.statusId.map UuidText.value else none).toList ++
        committedStatuses item log := by
  rw [committedStatuses, List.filterMap_cons, statusWritten]
  split_ifs
  · cases input.statusId <;> rfl
  · rfl

/-- Assumes: item identifiers are distinct at the start. A snapshot of an item has its project. -/
theorem projectId_of_place (hids : (initial.workItems.map WorkItem.id).Nodup)
    {snapshot item : WorkItem} (hsnapshot : snapshot.place ∈ initial.workItems.map WorkItem.place)
    (hitem : item ∈ initial.workItems) (hid : snapshot.id = item.id) :
    snapshot.projectId = item.projectId := by
  obtain ⟨origin, horigin, hplace⟩ := List.mem_map.mp hsnapshot
  obtain ⟨horiginId, horiginProject⟩ := Prod.mk.inj hplace
  have hsame : origin = item :=
    List.inj_on_of_nodup_map hids horigin hitem (horiginId.trans hid)
  rw [← horiginProject, hsame]

/-- Assumes: item identifiers are distinct at the start; the snapshot is of an item of the start; and
the update names the status of the snapshot or one the workflow leads to from there. The transaction
of the update keeps the invariant where the status is current. -/
theorem Enforced.update (hids : (initial.workItems.map WorkItem.id).Nodup)
    (henforced : Enforced initial world) {actorId : Uuid} {snapshot : WorkItem}
    {input : UpdateWorkItemInput} {updated : Option WorkItem} {after : Db}
    (hsnapshot : snapshot.place ∈ initial.workItems.map WorkItem.place)
    (hchecked : ∀ requested ∈ input.statusId, requested.value ≠ snapshot.statusId →
      transitionAllowed initial.workflowTransitions snapshot.projectId snapshot.statusId
        requested.value = true)
    (hpermits : StatusCurrent world (.updateWorkItem snapshot input))
    (hcommit : commitUpdate actorId snapshot input world.db = .ok (updated, after)) :
    Enforced initial (world.after number (.updateWorkItem snapshot input) after) := by
  obtain ⟨logs, nextUuid, rfl, _⟩ := commitUpdate_ok hcommit
  refine ⟨henforced.transitions, (place_updateWorkItemRows ..).trans henforced.places,
    fun item hitem ↦ ?_⟩
  obtain ⟨hallowed, hstored⟩ := henforced.follows item hitem
  constructor
  · rw [World.after, committedStatuses_update]
    split_ifs with hid
    · cases hrequested : input.statusId with
      | none => exact hallowed
      | some requested =>
        refine hallowed.cons fun earlier hearlier hchanged ↦ ?_
        obtain ⟨row, hrow, hplace⟩ :=
          List.mem_map.mp (henforced.places ▸ List.mem_map_of_mem (f := WorkItem.place) hitem)
        obtain ⟨hrowId, _⟩ := Prod.mk.inj hplace
        rw [hstored row hrow hrowId, Option.mem_some_iff] at hearlier
        rcases hpermits requested hrequested row hrow (hrowId.trans hid.symm) with hsame | hnamed
        · rw [← hearlier, hsame, ← projectId_of_place hids hsnapshot hitem hid]
          refine hchecked requested hrequested fun heq ↦ hchanged ?_
          rw [← hearlier, hsame, heq]
        · exact absurd (hearlier.symm.trans hnamed) hchanged
    · exact hallowed
  · intro row hrow hrowId
    rw [World.after, committedStatuses_update]
    obtain ⟨old, hold, holdId, hset⟩ := exists_of_mem_updateWorkItemRows hrow
    have hhead := hstored old hold (holdId.trans hrowId)
    split_ifs with hid
    · rw [if_pos (hrowId.trans hid.symm)] at hset
      cases hrequested : input.statusId with
      | none =>
        rw [hset]
        simpa [UpdateWorkItemInput.set, hrequested] using hhead
      | some requested =>
        rw [hset]
        simp [UpdateWorkItemInput.set, hrequested]
    · rw [if_neg fun hsame ↦ hid (hsame.symm.trans hrowId)] at hset
      exact hset ▸ hhead

/-! ### The edits -/

/-- A fact that no step can change is a stable assertion. -/
theorem stable_fact (fact : Prop) : (enforcement initial).Stable number fun _ ↦ fact :=
  fun _ _ _ _ _ _ hfact _ ↦ hfact

/-- A call that only reads keeps the protocol. -/
theorem reads_enforced {α : Type} {call : WorkCall α} (hreads : call.Only Reads) :
    (enforcement initial).Meets number call (fun _ ↦ True) fun _ _ ↦ True :=
  Protocol.meets_of_only hreads (stable_fact True) fun _ _ _ hinv _ _ hstep ↦
    ⟨⟨trivial, hinv.reads hstep⟩, trivial⟩

/-- The item an edit reads is one of the start. -/
theorem getWorkItem_enforced (tenantId id : Uuid) :
    (enforcement initial).Meets number (getWorkItem tenantId id) (fun _ ↦ True)
      fun item _ ↦ item.place ∈ initial.workItems.map WorkItem.place := by
  have hfind : (enforcement initial).Meets number (findWorkItemById id) (fun _ ↦ True)
      fun found _ ↦ ∀ item ∈ found, item.place ∈ initial.workItems.map WorkItem.place := by
    refine Protocol.meets_query (stable_fact True) fun world hinv _ _ ↦
      ⟨⟨trivial, hinv.reads (reads_refl _)⟩, fun item hitem ↦ ?_⟩
    rw [← hinv.places]
    exact List.mem_map_of_mem (List.mem_of_find?_eq_some hitem)
  refine hfind.bind fun found _ ↦ ?_
  refine Protocol.meets_require.bind fun item _ ↦ ?_
  refine Protocol.meets_ensure.bind fun _ _ ↦ ?_
  exact fun _ _ ⟨⟨hfound, hsome⟩, _⟩ ↦ hfound item hsome

/-- The check of a new status: afterwards the workflow is known to lead there from the status of the
snapshot. -/
theorem assertStatusReachable_enforced (item : WorkItem) (requested : UuidText) :
    (enforcement initial).Meets number (assertStatusReachable item requested) (fun _ ↦ True)
      fun _ _ ↦ requested.value ≠ item.statusId →
        transitionAllowed initial.workflowTransitions item.projectId item.statusId
          requested.value = true := by
  unfold assertStatusReachable
  split_ifs with hchanged
  · have hask : (enforcement initial).Meets number
        (canTransition item.projectId item.statusId requested.value) (fun _ ↦ True)
        fun allowed _ ↦ allowed = transitionAllowed initial.workflowTransitions item.projectId
          item.statusId requested.value := by
      refine Protocol.meets_query (stable_fact True) fun world hinv _ _ ↦
        ⟨⟨trivial, hinv.reads (reads_refl _)⟩, ?_⟩
      rw [hinv.transitions]
    refine hask.bind fun allowed _ ↦ ?_
    refine Protocol.meets_ensure.conseq (fun _ _ hallowed ↦ hallowed) ?_
    exact fun _ _ _ ⟨hallowed, htrue⟩ _ ↦ hallowed ▸ htrue
  · have hsame : requested.value = item.statusId := by rw [not_not.mp hchanged, UuidText.value_canonical]
    exact fun _ _ _ hne ↦ absurd hsame hne

/-- An update of a work item keeps the protocol. -/
theorem updateWorkItem_enforced (hids : (initial.workItems.map WorkItem.id).Nodup) (actor : Actor)
    (id : Uuid) (input : UpdateWorkItemInput) :
    (enforcement initial).Meets number (updateWorkItem actor id input) (fun _ ↦ True)
      fun _ _ ↦ True := by
  refine (getWorkItem_enforced actor.tenantId id).bind fun item _ ↦ ?_
  refine Protocol.meets_of_fact fun hsnapshot ↦ ?_
  refine (reads_enforced (whenPresent_reads _ (by simp))).bind fun _ _ ↦ ?_
  have hcheck : (enforcement initial).Meets number
      (whenPresent input.statusId (assertStatusReachable item)) (fun _ ↦ True)
      fun _ _ ↦ ∀ requested ∈ input.statusId, requested.value ≠ item.statusId →
        transitionAllowed initial.workflowTransitions item.projectId item.statusId
          requested.value = true := by
    cases input.statusId with
    | none => exact fun _ _ _ _ hnone ↦ absurd hnone (Option.not_mem_none _)
    | some requested =>
      refine (assertStatusReachable_enforced item requested).conseq (fun _ _ h ↦ h) ?_
      rintro _ _ _ hallowed _ ⟨⟩
      exact hallowed
  refine hcheck.bind fun _ _ ↦ Protocol.meets_of_fact fun hchecked ↦ ?_
  refine Protocol.meets_transaction (stable_fact True)
    (fun world hinv _ _ ↦ ⟨trivial, hinv.reads (reads_refl _)⟩)
    fun world updated after hinv _ hpermits hcommit ↦ ⟨⟨trivial, ?_⟩, trivial⟩
  exact hinv.update hids hsnapshot hchecked hpermits hcommit

/-- Every edit keeps the protocol. -/
theorem edit_enforced (hids : (initial.workItems.map WorkItem.id).Nodup) (request : EditRequest)
    (number : ℕ) :
    (enforcement initial).Meets number request.serve (Fresh number) fun _ _ ↦ True := by
  refine Protocol.Meets.strengthen ?_ fun _ _ _ ↦ trivial
  cases request with
  | updateWorkItem actor id input => exact (updateWorkItem_enforced hids actor id input).map
  | moveWorkItem actor id toStatusId =>
    exact (updateWorkItem_enforced hids actor id { statusId := some toStatusId }).map

/-- Assumes: item identifiers are distinct at the start, as their primary key has it, and an update
that names a status finds the status of its snapshot still in the row, or the status it names. In
every reachable state the committed status values of every item follow the workflow of its project,
for any interleaving of edits. -/
theorem reachable_followsWorkflow {db : Db} (hids : (db.workItems.map WorkItem.id).Nodup)
    {config : Concurrency.Config Db WorkStep Failure Unit}
    (hreach : Reachable EditRequest.serve StatusCurrent db config) :
    ∀ item ∈ db.workItems, FollowsWorkflow db.workflowTransitions config.toWorld item := by
  have hinitial : Enforced db ⟨db, []⟩ := by
    refine ⟨rfl, rfl, fun item hitem ↦ ⟨List.isChain_singleton _, fun row hrow hid ↦ ?_⟩⟩
    rw [List.inj_on_of_nodup_map hids hrow hitem hid]
    rfl
  have hinv : (enforcement db).invariant config.toWorld :=
    Protocol.reachable_invariant (edit_enforced hids) hinitial hreach
  exact Enforced.follows hinv

/-! ### Two overlapping moves -/

/-- A project whose workflow leads from status 10 to 11 and to 12, and from 12 to 13, with one item. -/
def workflowDb : Db where
  projects := [{ id := 1, tenantId := 2, workspaceId := 3, key := "APP", name := "App",
                 createdAt := 0 }]
  workflowStatuses :=
    [{ id := 10, tenantId := 2, projectId := 1, name := "Defined", category := .toDo, position := 0,
       isDefault := true },
      { id := 11, tenantId := 2, projectId := 1, name := "In Progress", category := .inProgress,
        position := 1 },
      { id := 12, tenantId := 2, projectId := 1, name := "Completed", category := .done,
        position := 2 },
      { id := 13, tenantId := 2, projectId := 1, name := "Accepted", category := .done,
        position := 3 }]
  workflowTransitions :=
    [{ id := 20, tenantId := 2, projectId := 1, fromStatusId := some 10, toStatusId := 11 },
      { id := 21, tenantId := 2, projectId := 1, fromStatusId := some 10, toStatusId := 12 },
      { id := 22, tenantId := 2, projectId := 1, fromStatusId := some 12, toStatusId := 13 }]
  workItems := [{ id := 30, tenantId := 2, projectId := 1, itemKey := "APP-1", type := .story,
                  title := "Login", statusId := 10, createdBy := 4, createdAt := 0 }]

/-- The item of that project. -/
def workflowItem : WorkItem := workflowDb.workItems.head (by decide)

/-- A member of the tenant. -/
def member : Actor := { sub := 4, tenantId := 2 }

/-- Two moves along the workflow, one after the other. -/
def consecutiveMoves : List (Choice EditRequest) :=
  .start (.moveWorkItem member 30 12) :: finish 0 ++
    .start (.moveWorkItem member 30 13) :: finish 1

/-- A witness that the condition can be met: two moves one after the other. -/
theorem reachable_followsWorkflow_witness :
    FollowsWorkflow workflowDb.workflowTransitions
      ((Concurrency.Config.initial workflowDb).play EditRequest.serve consecutiveMoves).toWorld
      workflowItem :=
  reachable_followsWorkflow (by decide) (play_reachable (by decide +kernel)) workflowItem
    (by decide)

/-- Two moves read the item in status 10 and are both allowed from there. -/
def overlappingMoves : List (Choice EditRequest) :=
  [.start (.moveWorkItem member 30 11), .start (.moveWorkItem member 30 12), .resume 0] ++
    finish 1 ++ finish 0

/-- Without the condition an item can skip the workflow: it goes from status 12 to status 11. -/
theorem skippedTransition :
    ¬ ∀ (db : Db) (config : Concurrency.Config Db WorkStep Failure Unit),
      (db.workItems.map WorkItem.id).Nodup → Reachable EditRequest.serve anyStep db config →
        ∀ item ∈ db.workItems, FollowsWorkflow db.workflowTransitions config.toWorld item := by
  intro halways
  have hfollows := halways workflowDb _ (by decide)
    (play_reachable (allowsAll_anyStep _ overlappingMoves)) workflowItem (by decide)
  exact absurd hfollows.allowed (by decide +kernel)

end RallyApi.Work

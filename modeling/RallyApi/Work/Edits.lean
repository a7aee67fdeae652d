import RallyApi.Concurrency.RelyGuarantee
import RallyApi.Work.Effects

/-!
# Edits of work items

The results about the workflow and the revision history are about the calls that edit an item,
`updateWorkItem` and `moveWorkItem`. Their only write is the transaction of the update.
-/

set_option autoImplicit false
set_option relaxedAutoImplicit false

namespace RallyApi.Work

open Concurrency Platform Store

/-- The calls that edit a work item. -/
inductive EditRequest
  | updateWorkItem (actor : Actor) (id : Uuid) (input : UpdateWorkItemInput)
  | moveWorkItem (actor : Actor) (id toStatusId : Uuid)

/-- An edit is a request of the work services. -/
def EditRequest.toWorkRequest : EditRequest → WorkRequest
  | .updateWorkItem actor id input => .updateWorkItem actor id input
  | .moveWorkItem actor id toStatusId => .moveWorkItem actor id toStatusId

/-- The call that serves an edit. -/
def EditRequest.serve (request : EditRequest) : WorkCall Unit := request.toWorkRequest.serve

/-- What a step of an edit does to the store: nothing, or the transaction of an update. -/
def EditEffect (db : Db) (label : WorkStep) (after : Db) : Prop :=
  Reads db label after ∨
    ∃ actorId snapshot input updated, label = .updateWorkItem snapshot input ∧
      commitUpdate actorId snapshot input db = .ok (updated, after)

/-- The steps of an update before its transaction only read. -/
theorem editEffect_of_reads {α : Type} {call : WorkCall α} (hcall : call.Only Reads) :
    call.Only EditEffect :=
  hcall.mono fun _ _ _ hreads ↦ .inl hreads

/-- Every step of an edit does nothing or is the transaction of an update. -/
theorem edit_effect (request : EditRequest) : request.serve.Only EditEffect := by
  have hcommit : ∀ actorId item input, (transaction (fun _ ↦ .updateWorkItem item input)
      (commitUpdate actorId item input)).Only EditEffect := fun actorId item input ↦
    Call.only_transaction (fun db ↦ .inl (reads_refl db))
      fun db updated after hcommit ↦ .inr ⟨actorId, item, input, updated, rfl, hcommit⟩
  have hupdate : ∀ actor id input, (updateWorkItem actor id input).Only EditEffect := by
    simp [updateWorkItem, editEffect_of_reads, hcommit]
  cases request <;>
    simp [EditRequest.serve, EditRequest.toWorkRequest, WorkRequest.serve, moveWorkItem, hupdate]

/-- What no edit changes of an item: its identifier and its project. -/
def WorkItem.place (item : WorkItem) : Uuid × Uuid := (item.id, item.projectId)

theorem place_updateWorkItemRows (id : Uuid) (input : UpdateWorkItemInput) (items : List WorkItem) :
    (updateWorkItemRows id input items).map WorkItem.place = items.map WorkItem.place :=
  map_updateWhere fun _ ↦ rfl

end RallyApi.Work

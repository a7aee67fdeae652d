import RallyApi.Attachments.AttachmentsService

/-!
# The steps of the attachment calls

`Effect` says what a step with a label does to the attachments. `serve_effect`: every step of every call,
from any store, does what its label says. What the attachments keep is derived from it.
-/

set_option autoImplicit false
set_option relaxedAutoImplicit false

namespace RallyApi.Attachments

open Concurrency Platform Store Work CrossTenant

/-- What a step with a label does to the attachments. -/
def Effect (db : Db) (label : AttachmentStep) (after : Db) : Prop :=
  match label with
  | .other => after.attachments = db.attachments ∧ db.nextUuid = after.nextUuid
  | .create row =>
    row.id = db.nextUuid ∧ row.status = .pending ∧ row.deletedAt = none ∧
      after.attachments = db.attachments ++ [row] ∧ after.nextUuid = db.nextUuid + 1
  | .read row => db.attachment row.id = some row ∧ row.deletedAt = none ∧ after = db
  | .confirm id found => found = db.attachment id ∧ after = db.updateAttachment id complete
  | .softDelete id deletedAt =>
    after = db.updateAttachment id fun row ↦ { row with deletedAt := some deletedAt }
  | .purge ids =>
    ∃ orphan : Attachment → Bool, ids = (db.attachments.filter orphan).map Attachment.id ∧
      after = { db with attachments := deleteWhere orphan db.attachments }
  | .append _ id found =>
    found = db.attachment id ∧ after.attachments = db.attachments ∧ db.nextUuid ≤ after.nextUuid

theorem effect_other_refl (db : Db) : Effect db .other db := ⟨rfl, rfl⟩

/-! ### Every step does what its label says -/

@[simp]
theorem ofWork_effect {α : Type} (call : WorkCall α) : (ofWork call).Only Effect :=
  (Call.only_true call).within fun _ _ _ _ ↦ ⟨rfl, rfl⟩

/-- What `findById` finds is the row with its identifier, and not deleted. -/
theorem attachment_of_live {db : Db} {id tenantId : Uuid} {row : Attachment}
    (hfound : db.liveAttachment id tenantId = some row) :
    db.attachment row.id = some row ∧ row.deletedAt = none := by
  obtain ⟨hrow, hmatches⟩ := Option.filter_eq_some_iff.mp hfound
  simp only [decide_eq_true_eq] at hmatches
  have hid : row.id = id := by simpa using List.find?_some hrow
  exact ⟨hid ▸ hrow, hmatches.2⟩

@[simp]
theorem findById_effect (id tenantId : Uuid) : (findById id tenantId).Only Effect := by
  simp only [findById, Call.only_atomically]
  intro db
  split
  · rename_i row hfound
    exact ⟨(attachment_of_live hfound).1, (attachment_of_live hfound).2, rfl⟩
  · exact effect_other_refl db

@[simp]
theorem create_effect (tenantId workItemId uploadedBy : Uuid) (filename mimeType : String)
    (sizeBytes : ℕ) (storageKey : Uuid → String) :
    (create tenantId workItemId uploadedBy filename mimeType sizeBytes storageKey).Only Effect := by
  refine Call.only_attempt _ _ (fun db failure hfailed ↦ ?_) fun db value after hok ↦ ?_
  · split_ifs at hfailed ⊢ with hfits
    exact effect_other_refl db
  · split_ifs at hok ⊢ with hfits
    obtain ⟨-, rfl⟩ := Prod.mk.inj (Except.ok.inj hok)
    exact ⟨rfl, rfl, rfl, rfl, rfl⟩

@[simp]
theorem confirm_effect (id : Uuid) : (confirm id).Only Effect := by
  simp [confirm, Effect]

@[simp]
theorem softDelete_effect (id : Uuid) : (softDelete id).Only Effect := by
  simp [softDelete, Effect]

@[simp]
theorem append_effect (actor : Actor) (item : WorkItem) (attachment : Attachment)
    (action : AttachmentAction) : (append actor item attachment action).Only Effect := by
  simp [append, Effect]

@[simp]
theorem deleteObject_effect (answers : Bool) (key : String) :
    (deleteObject answers key).Only Effect := by
  cases answers <;> simp [deleteObject, Effect]

@[simp]
theorem headObject_effect (answers : Bool) (key : String) :
    (headObject answers key).Only Effect := by
  simp [headObject, Effect]

@[simp]
theorem detached_effect {runs : Bool} {call : AttachmentCall Unit} (hcall : call.Only Effect) :
    (detached runs call).Only Effect := by
  cases runs
  · exact trivial
  · exact hcall

@[simp]
theorem deleteOrphans_effect : deleteOrphans.Only Effect := by
  simp only [deleteOrphans, Call.only_atomically]
  exact fun db ↦ ⟨db.isOrphan, rfl, rfl⟩

@[simp]
theorem deleteObjects_effect (answers : Bool) (rows : List Attachment) :
    (deleteObjects answers rows).Only Effect := by
  induction rows with
  | nil => trivial
  | cons row rest ih => simp [deleteObjects, ih]

theorem presignAttachment_effect (presignPut : String → Except Failure String) (actor : Actor)
    (workItemId : Uuid) (input : PresignInput) :
    (presignAttachment presignPut actor workItemId input).Only Effect := by
  simp only [presignAttachment, Call.only_bind, ofWork_effect, Call.only_ensure, countByWorkItem,
    Call.only_query, effect_other_refl, create_effect, implies_true, true_and]
  intro _ _ _ _ _ _ _ _ _ _ attachment _
  cases presignPut attachment.storageKey <;> trivial

theorem confirmUploaded_effect (weather : Weather) (actor : Actor) (item : WorkItem)
    (attachment : Attachment) (contentLength : ℕ) :
    (confirmUploaded weather actor item attachment contentLength).Only Effect := by
  unfold confirmUploaded
  split_ifs <;> simp

theorem confirmAttachment_effect (weather : Weather) (actor : Actor)
    (workItemId attachmentId : Uuid) :
    (confirmAttachment weather actor workItemId attachmentId).Only Effect := by
  simp [confirmAttachment, findAttachment, confirmUploaded_effect]

theorem deleteAttachment_effect (weather : Weather) (actor : Actor) (isAdmin : Bool)
    (workItemId attachmentId : Uuid) :
    (deleteAttachment weather actor isAdmin workItemId attachmentId).Only Effect := by
  simp [deleteAttachment, findAttachment]

/-- Every step of every call does what its label says. -/
theorem serve_effect (request : AttachmentRequest) : request.serve.Only Effect := by
  cases request <;>
    simp [AttachmentRequest.serve, presignAttachment_effect, confirmAttachment_effect,
      deleteAttachment_effect, purgeStaleData, upload, Effect]

end RallyApi.Attachments

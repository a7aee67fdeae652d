import RallyApi.CrossTenant.Reads

/-!
# Attachments

The methods of `WorkItemsService` that presign, confirm and delete an attachment, with the repository
methods they call, and the part of the cleanup cron that purges pending rows. A client uploads the file in
between, to the object store.

A promise that a method does not wait for (`void …`) runs by itself. Here it is a step after what the method
does before it ends, which any other step may precede, or it is lost.
-/

set_option autoImplicit false
set_option relaxedAutoImplicit false

namespace RallyApi.Attachments

open Concurrency Platform Store Work CrossTenant

/-! ### The store -/

/-- The actions of the activity entries of attachments. -/
inductive AttachmentAction
  | uploaded
  | deleted
  deriving DecidableEq, Repr

/-- A row of `work.activity_logs` about an attachment. -/
structure AttachmentActivity where
  id : Uuid
  tenantId : Uuid
  projectId : Uuid
  workItemId : Uuid
  entityId : Uuid
  actorId : Uuid
  action : AttachmentAction
  filename : String
  deriving DecidableEq, Repr

/-- An object of the bucket. -/
structure StoredObject where
  key : String
  contentLength : ℕ
  deriving DecidableEq, Repr

/-- The store of the work services, the attachments and their activity entries, the bucket, and the next
identifier that is drawn for an attachment or an entry. -/
structure Db where
  work : Work.Db
  attachments : List Attachment := []
  activities : List AttachmentActivity := []
  objects : List StoredObject := []
  nextUuid : Uuid := 0

/-- The store of the work services. -/
def workPart : Concurrency.Part Db Work.Db where
  get := Db.work
  put work db := { db with work }
  put_get _ := rfl

/-- What a step does to the attachments: it creates a row, reads one that is not deleted, confirms the row
it finds under an identifier, deletes it, purges rows, or records an action on the row it finds; or none of
these. -/
inductive AttachmentStep
  | other
  | create (row : Attachment)
  | read (row : Attachment)
  | confirm (id : Uuid) (found : Option Attachment)
  | softDelete (id : Uuid) (deletedAt : Timestamp)
  | purge (ids : List Uuid)
  | append (action : AttachmentAction) (id : Uuid) (found : Option Attachment)
  deriving DecidableEq, Repr

/-- A call of one of the services. -/
abbrev AttachmentCall := Call Db AttachmentStep Failure

/-- A call of a work service. -/
def ofWork {α : Type} (call : WorkCall α) : AttachmentCall α := call.within workPart fun _ ↦ .other

/-- The row with an identifier, by the primary key. -/
def Db.attachment (db : Db) (id : Uuid) : Option Attachment :=
  db.attachments.find? fun row ↦ row.id = id

/-- The attachment counts for an item: it is completed and not deleted. -/
def CountsFor (workItemId : Uuid) (row : Attachment) : Prop :=
  row.workItemId = workItemId ∧ row.status = .completed ∧ row.deletedAt = none

instance (workItemId : Uuid) (row : Attachment) : Decidable (CountsFor workItemId row) :=
  inferInstanceAs (Decidable (_ ∧ _))

/-- The number of completed attachments of an item that are not deleted. -/
def Db.completed (db : Db) (workItemId : Uuid) : ℕ :=
  db.attachments.countP fun row ↦ CountsFor workItemId row

/-! ### `AttachmentDrizzleRepository`, `StorageService` -/

/-- The row of a tenant with an identifier, if it is not deleted. -/
def Db.liveAttachment (db : Db) (id tenantId : Uuid) : Option Attachment :=
  (db.attachment id).filter fun row ↦ row.tenantId = tenantId ∧ row.deletedAt = none

/-- `findById`. -/
def findById (id tenantId : Uuid) : AttachmentCall (Option Attachment) :=
  Call.atomically
    (fun db ↦ match db.liveAttachment id tenantId with
      | some row => .read row
      | none => .other)
    fun db ↦ (db.liveAttachment id tenantId, db)

/-- `countByWorkItem`. -/
def countByWorkItem (workItemId tenantId : Uuid) : AttachmentCall ℕ :=
  Call.query .other fun db ↦ db.attachments.countP fun row ↦
    CountsFor workItemId row ∧ row.tenantId = tenantId

/-- `create`, against the lengths of the columns. The identifier that was drawn is used here only, so it is
drawn in the same step; the object key is made from it. -/
def create (tenantId workItemId uploadedBy : Uuid) (filename mimeType : String) (sizeBytes : ℕ)
    (storageKey : Uuid → String) : AttachmentCall Attachment :=
  let row (db : Db) : Attachment :=
    { id := db.nextUuid, tenantId, workItemId, uploadedBy, filename, mimeType, sizeBytes
      storageKey := storageKey db.nextUuid, createdAt := db.work.now }
  let fits (db : Db) : Prop := filename.length ≤ 500 ∧ mimeType.length ≤ 255 ∧
    (row db).storageKey.length ≤ 1000
  Call.attempt (fun db ↦ if fits db then .create (row db) else .other) fun db ↦
    if fits db then
      .ok (row db, { db with
        attachments := db.attachments ++ [row db], nextUuid := db.nextUuid + 1 })
    else .error .stringDataRightTruncation

/-- The store with some columns of the row with an identifier set. -/
def Db.updateAttachment (db : Db) (id : Uuid) (set : Attachment → Attachment) : Db :=
  { db with attachments := updateWhere (fun row ↦ row.id = id) set db.attachments }

/-- The columns that `confirm` sets. -/
def complete (row : Attachment) : Attachment := { row with status := .completed }

/-- `confirm`: `rows[0]`, which is `undefined` when there is no row. -/
def confirm (id : Uuid) : AttachmentCall (Option Attachment) :=
  Call.atomically (fun db ↦ .confirm id (db.attachment id)) fun db ↦
    ((db.attachment id).map complete, db.updateAttachment id complete)

/-- `softDelete`. -/
def softDelete (id : Uuid) : AttachmentCall Unit :=
  Call.atomically (fun db ↦ .softDelete id (floorToMilliseconds db.work.now)) fun db ↦
    ((), db.updateAttachment id fun row ↦
      { row with deletedAt := some (floorToMilliseconds db.work.now) })

/-- `activityRepo.append`. -/
def append (actor : Actor) (item : WorkItem) (attachment : Attachment) (action : AttachmentAction) :
    AttachmentCall Unit :=
  Call.atomically (fun db ↦ .append action attachment.id (db.attachment attachment.id)) fun db ↦
    ((), { db with
      activities := db.activities ++ [{
        id := db.nextUuid, tenantId := actor.tenantId, projectId := item.projectId
        workItemId := item.id, entityId := attachment.id, actorId := actor.sub, action
        filename := attachment.filename }]
      nextUuid := db.nextUuid + 1 })

/-- `headObject`: `null` when the object store does not answer. -/
def headObject (answers : Bool) (key : String) : AttachmentCall (Option ℕ) :=
  Call.query .other fun db ↦ if answers then
    (db.objects.find? fun object ↦ object.key = key).map StoredObject.contentLength else none

/-- `deleteObject`, which logs its errors. -/
def deleteObject (answers : Bool) (key : String) : AttachmentCall Unit :=
  Call.atomically (fun _ ↦ .other) fun db ↦
    ((), if answers then { db with objects := deleteWhere (fun object ↦ object.key = key) db.objects }
      else db)

/-- A promise that is not waited for, and that may be lost. -/
def detached (runs : Bool) (call : AttachmentCall Unit) : AttachmentCall Unit :=
  if runs then call else pure ()

/-! ### `WorkItemsService` -/

/-- `ATTACHMENT_ALLOWED_MIME_TYPES`. -/
def ATTACHMENT_ALLOWED_MIME_TYPES : List String :=
  ["image/jpeg", "image/png", "image/gif", "image/webp", "image/svg+xml", "application/pdf",
    "application/vnd.openxmlformats-officedocument.wordprocessingml.document",
    "application/vnd.openxmlformats-officedocument.spreadsheetml.sheet",
    "application/vnd.openxmlformats-officedocument.presentationml.presentation",
    "application/msword", "application/vnd.ms-excel", "text/plain", "text/csv", "application/zip",
    "application/x-zip-compressed"]

/-- `ATTACHMENT_MAX_SIZE_BYTES`. -/
def ATTACHMENT_MAX_SIZE_BYTES : ℕ := 25 * 1024 * 1024

/-- `ATTACHMENT_MAX_PER_WORK_ITEM`. -/
def ATTACHMENT_MAX_PER_WORK_ITEM : ℕ := 25

/-- What follows the last dot of a file name, with the dot; nothing if there is none. -/
def extensionOf (filename : String) : String :=
  if '.' ∈ filename.toList then
    "." ++ String.ofList (filename.toList.reverse.takeWhile (· ≠ '.')).reverse
  else ""

/-- The body of `presignAttachment`. -/
structure PresignInput where
  filename : String
  mimeType : String
  sizeBytes : ℕ
  deriving DecidableEq, Repr

/-- `presignAttachment`. Assumes: `presignPut` is what the object store answers for a key. -/
def presignAttachment (presignPut : String → Except Failure String) (actor : Actor)
    (workItemId : Uuid) (input : PresignInput) : AttachmentCall (Uuid × String) := do
  let _ ← ofWork (getWorkItem actor.tenantId workItemId)
  Call.ensure (input.mimeType ∈ ATTACHMENT_ALLOWED_MIME_TYPES)
    (preconditionFailedException .attachmentInvalidType
      ("File type '" ++ input.mimeType ++ "' is not allowed"))
  Call.ensure (input.sizeBytes ≤ ATTACHMENT_MAX_SIZE_BYTES)
    (preconditionFailedException .attachmentFileTooLarge
      ("File exceeds the maximum size of " ++
        toString (ATTACHMENT_MAX_SIZE_BYTES / 1024 / 1024) ++ "MB"))
  let current ← countByWorkItem workItemId actor.tenantId
  Call.ensure (current < ATTACHMENT_MAX_PER_WORK_ITEM)
    (preconditionFailedException .attachmentLimitExceeded
      ("Work item already has the maximum of " ++ toString ATTACHMENT_MAX_PER_WORK_ITEM ++
        " attachments"))
  let attachment ← create actor.tenantId workItemId actor.sub input.filename input.mimeType
    input.sizeBytes fun id ↦ toString actor.tenantId ++ "/" ++ toString workItemId ++ "/" ++
      toString id ++ extensionOf input.filename
  match presignPut attachment.storageKey with
  | .ok uploadUrl => pure (attachment.id, uploadUrl)
  | .error failure => throw failure

/-- What the world outside decides in a call: whether the object store answers, and whether the promises
that are not waited for are carried out. -/
structure Weather where
  storageAnswers : Bool := true
  detachedRuns : Bool := true
  deriving DecidableEq, Repr

/-- The attachment of an item that is not deleted. -/
def findAttachment (actor : Actor) (workItemId attachmentId : Uuid) : AttachmentCall Attachment := do
  let found ← findById attachmentId actor.tenantId
  Call.require (found.filter fun attachment ↦ attachment.workItemId = workItemId)
    (notFoundException .attachmentNotFound "Attachment not found")

/-- `confirmAttachment`, from the check of the size on. -/
def confirmUploaded (weather : Weather) (actor : Actor) (item : WorkItem) (attachment : Attachment)
    (contentLength : ℕ) : AttachmentCall (Option Attachment) :=
  if contentLength ≠ attachment.sizeBytes then do
    detached weather.detachedRuns (softDelete attachment.id)
    throw (preconditionFailedException .attachmentSizeMismatch
      "Uploaded file size does not match declared size")
  else do
    let confirmed ← confirm attachment.id
    detached weather.detachedRuns (append actor item attachment .uploaded)
    pure confirmed

/-- `confirmAttachment`. -/
def confirmAttachment (weather : Weather) (actor : Actor) (workItemId attachmentId : Uuid) :
    AttachmentCall (Option Attachment) := do
  let item ← ofWork (getWorkItem actor.tenantId workItemId)
  let attachment ← findAttachment actor workItemId attachmentId
  Call.ensure (attachment.status = .pending)
    (preconditionFailedException .attachmentNotPending "Attachment is not in pending state")
  let head ← headObject weather.storageAnswers attachment.storageKey
  let contentLength ← Call.require head (preconditionFailedException .attachmentNotPending
    "File not found in storage — please upload first")
  confirmUploaded weather actor item attachment contentLength

/-- `deleteAttachment`. Assumes: `isAdmin` says whether the permissions of the actor include
`workspace:*`. -/
def deleteAttachment (weather : Weather) (actor : Actor) (isAdmin : Bool)
    (workItemId attachmentId : Uuid) : AttachmentCall Unit := do
  let item ← ofWork (getWorkItem actor.tenantId workItemId)
  let attachment ← findAttachment actor workItemId attachmentId
  Call.ensure (isAdmin = true ∨ attachment.uploadedBy = actor.sub)
    (permissionDeniedException .attachmentNotOwner
      "Only the uploader or a workspace admin may delete this attachment")
  softDelete attachment.id
  deleteObject weather.storageAnswers attachment.storageKey
  detached weather.detachedRuns (append actor item attachment .deleted)

/-! ### `CleanupCronService` -/

/-- A pending row that is not deleted and was created more than 24 hours ago. -/
def Db.isOrphan (db : Db) (row : Attachment) : Bool :=
  row.status = .pending ∧ row.createdAt < db.work.now - 24 * 60 * 60 * 1000000 ∧ row.deletedAt = none

/-- The `DELETE … RETURNING` of the orphans. -/
def deleteOrphans : AttachmentCall (List Attachment) :=
  Call.atomically (fun db ↦ .purge ((db.attachments.filter db.isOrphan).map Attachment.id)) fun db ↦
    (db.attachments.filter db.isOrphan,
      { db with attachments := deleteWhere db.isOrphan db.attachments })

/-- The objects of rows that are gone. -/
def deleteObjects (answers : Bool) : List Attachment → AttachmentCall Unit
  | [] => pure ()
  | row :: rest => do
    deleteObject answers row.storageKey
    deleteObjects answers rest

/-- `purgeStaleData`, of the attachments. -/
def purgeStaleData (answers : Bool) : AttachmentCall Unit := do
  let orphans ← deleteOrphans
  deleteObjects answers orphans

/-! ### Requests -/

/-- What happens to the attachments: clients call the methods and upload files, the cron runs, and the work
services go on. -/
inductive AttachmentRequest
  | presignAttachment (presignPut : String → Except Failure String) (actor : Actor)
    (workItemId : Uuid) (input : PresignInput)
  | upload (object : StoredObject)
  | confirmAttachment (weather : Weather) (actor : Actor) (workItemId attachmentId : Uuid)
  | deleteAttachment (weather : Weather) (actor : Actor) (isAdmin : Bool)
    (workItemId attachmentId : Uuid)
  | purgeStaleData (answers : Bool)
  | work (request : WorkRequest)

/-- What a request returns. -/
inductive AttachmentResult
  | done
  | presigned (attachmentId : Uuid) (uploadUrl : String)
  | confirmed (attachment : Option Attachment)
  deriving DecidableEq, Repr

/-- A file is put into the bucket. -/
def upload (object : StoredObject) : AttachmentCall Unit :=
  Call.atomically (fun _ ↦ .other) fun db ↦
    ((), { db with objects := object :: deleteWhere (fun old ↦ old.key = object.key) db.objects })

/-- The call that serves a request. -/
def AttachmentRequest.serve : AttachmentRequest → AttachmentCall AttachmentResult
  | .presignAttachment presignPut actor workItemId input =>
    (fun result ↦ .presigned result.1 result.2) <$>
      Attachments.presignAttachment presignPut actor workItemId input
  | .upload object => (fun _ ↦ .done) <$> Attachments.upload object
  | .confirmAttachment weather actor workItemId attachmentId =>
    .confirmed <$> Attachments.confirmAttachment weather actor workItemId attachmentId
  | .deleteAttachment weather actor isAdmin workItemId attachmentId =>
    (fun _ ↦ .done) <$> Attachments.deleteAttachment weather actor isAdmin workItemId attachmentId
  | .purgeStaleData answers => (fun _ ↦ .done) <$> Attachments.purgeStaleData answers
  | .work request => (fun _ ↦ .done) <$> ofWork request.serve

end RallyApi.Attachments

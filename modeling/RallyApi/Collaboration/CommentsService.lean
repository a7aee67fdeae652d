import RallyApi.Concurrency.Interleaving
import RallyApi.CrossTenant.Schema

/-!
# Comments

The methods of `CollaborationService` that list, create, edit and delete the comments of a work item, with
the methods of `CommentDrizzleRepository` they call. A comment is deleted by marking its row.
-/

set_option autoImplicit false
set_option relaxedAutoImplicit false

namespace RallyApi.Collaboration

open Concurrency Platform Store
open Work (Actor)

/-- A row of `work.comments`, with the columns that editing writes. -/
structure Comment extends CrossTenant.Comment where
  isEdited : Bool := false
  editedAt : Option Timestamp := none
  updatedAt : Timestamp
  deriving DecidableEq, Repr

/-- The comments, the next identifier that is drawn for one, and the time. -/
structure Db where
  comments : List Comment := []
  nextUuid : Uuid := 0
  now : Timestamp := 0

/-- The exceptions of the service, with their codes and messages. -/
inductive CommentFailure
  | notFoundException (code message : String)
  | preconditionFailedException (code message : String)
  deriving DecidableEq, Repr

/-- A call of the service. -/
abbrev CommentCall := Call Db Unit CommentFailure

/-! ### `CommentDrizzleRepository` -/

/-- `findById`. -/
def findById (id : Uuid) : CommentCall (Option Comment) :=
  Call.query () fun db ↦ db.comments.find? fun row ↦ row.id = id

/-- `listByWorkItem`. -/
def listByWorkItem (workItemId tenantId : Uuid) (db : Db) : List Comment :=
  db.comments.filter fun row ↦ row.workItemId = workItemId ∧ row.tenantId = tenantId ∧ row.deletedAt = none

/-- `create`. The identifier that was drawn is used here only, so it is drawn in the same step. -/
def create (tenantId workItemId authorId : Uuid) (body : String) (parentId : Option Uuid) :
    CommentCall Comment :=
  let row (db : Db) : Comment :=
    { id := db.nextUuid, tenantId, workItemId, authorId, body, parentId
      createdAt := db.now, updatedAt := db.now }
  Call.atomically (fun _ ↦ ()) fun db ↦
    (row db, { db with comments := db.comments ++ [row db], nextUuid := db.nextUuid + 1 })

/-- The store with some columns of the comment with an identifier set. -/
def Db.updateComment (db : Db) (id : Uuid) (set : Comment → Comment) : Db :=
  { db with comments := updateWhere (fun row ↦ row.id = id) set db.comments }

/-- The columns that `update` sets. -/
def Comment.edited (body : String) (now : Timestamp) (row : Comment) : Comment :=
  { row with body, isEdited := true, editedAt := some now, updatedAt := now }

/-- `update`: `rows[0]`, which is `undefined` when there is no row. -/
def update (id : Uuid) (body : String) : CommentCall (Option Comment) :=
  Call.atomically (fun _ ↦ ()) fun db ↦
    ((db.comments.find? fun row ↦ row.id = id).map (Comment.edited body db.now),
      db.updateComment id (Comment.edited body db.now))

/-- The columns that `softDelete` sets. -/
def Comment.removed (now : Timestamp) (row : Comment) : Comment :=
  { row with deletedAt := some now, updatedAt := now }

/-- `softDelete`. -/
def softDelete (id : Uuid) : CommentCall Unit :=
  Call.atomically (fun _ ↦ ()) fun db ↦
    ((), db.updateComment id (Comment.removed db.now))

/-! ### `CollaborationService` -/

/-- `createComment`. -/
def createComment (actor : Actor) (workItemId : Uuid) (body : String) (parentId : Option Uuid) :
    CommentCall Comment :=
  create actor.tenantId workItemId actor.sub body parentId

/-- The checks that `updateComment` and `deleteComment` begin with. -/
def ownComment (actor : Actor) (commentId : Uuid) (notOwned : String) : CommentCall Unit := do
  let notFound := .notFoundException "COMMENT_NOT_FOUND" "Comment not found"
  let found ← findById commentId
  let comment ← Call.require found notFound
  Call.ensure (comment.tenantId = actor.tenantId ∧ comment.deletedAt = none) notFound
  Call.ensure (comment.authorId = actor.sub) (.preconditionFailedException "COMMENT_NOT_OWNED" notOwned)

/-- `updateComment`. -/
def updateComment (actor : Actor) (commentId : Uuid) (body : String) : CommentCall (Option Comment) := do
  ownComment actor commentId "You can only edit your own comments"
  update commentId body

/-- `deleteComment`. -/
def deleteComment (actor : Actor) (commentId : Uuid) : CommentCall Unit := do
  ownComment actor commentId "You can only delete your own comments"
  softDelete commentId

/-! ### Requests -/

/-- A request to the service, and the passing of time. -/
inductive CommentRequest
  | listComments (actor : Actor) (workItemId : Uuid)
  | createComment (actor : Actor) (workItemId : Uuid) (body : String) (parentId : Option Uuid)
  | updateComment (actor : Actor) (commentId : Uuid) (body : String)
  | deleteComment (actor : Actor) (commentId : Uuid)
  | tick (microseconds : ℕ)
  deriving DecidableEq, Repr

/-- The call that serves a request. It returns comments: those of the item, or the one it has written. -/
def CommentRequest.serve : CommentRequest → CommentCall (List Comment)
  | .listComments actor workItemId => Call.query () (listByWorkItem workItemId actor.tenantId)
  | .createComment actor workItemId body parentId =>
    (fun row ↦ [row]) <$> Collaboration.createComment actor workItemId body parentId
  | .updateComment actor commentId body =>
    Option.toList <$> Collaboration.updateComment actor commentId body
  | .deleteComment actor commentId => (fun _ ↦ []) <$> Collaboration.deleteComment actor commentId
  | .tick microseconds =>
    Call.atomically (fun _ ↦ ()) fun db ↦ ([], { db with now := db.now + microseconds })

end RallyApi.Collaboration

import RallyApi.Concurrency.Call
import RallyApi.Outbox.Relay
import RallyApi.Platform.Errors

/-!
# The notification store

What the notification pipeline shares: the tables of `db/schema/messaging.ts` and
`db/schema/notifications.ts` it reads and writes, the open transactions of the relays, the post-commit
tasks that are due, the subscriptions of an API process at Valkey (`PubSub`) and its event streams
(`Stream`). The columns an outbox row shares with every outbox are those of `Outbox.OutboxRow`.

Whether the database, Valkey and the e-mail provider answer is part of the store (`Health`), so that any
statement of any call may fail, with its effect or without. `NotificationStep` labels the steps that
matter to somebody else.
-/

set_option autoImplicit false
set_option relaxedAutoImplicit false

namespace RallyApi.Notifications

open Concurrency Outbox Platform

/-! ### Rows -/

/-- A JSON object with texts as values, as the variables of a template are. -/
abbrev Vars := List (String × String)

/-- A row of `messaging.notification_outbox`. -/
structure NotificationOutboxRow extends OutboxRow where
  tenantId : Uuid
  recipientId : Uuid
  actorId : Option Uuid := none
  type : String
  vars : Vars
  resourceId : Option Uuid := none
  idempotencyKey : Option String := none
  deriving DecidableEq, Repr

/-- A row of `messaging.email_outbox`. -/
structure EmailOutboxRow extends OutboxRow where
  toAddress : String
  template : String
  vars : Vars
  idempotencyKey : Option String := none
  recipientId : Option Uuid := none
  tenantId : Option Uuid := none
  deriving DecidableEq, Repr

/-- A row of `notifications.in_app_notifications`. -/
structure InAppNotification where
  id : Uuid
  tenantId : Uuid
  recipientId : Uuid
  actorId : Option Uuid
  type : String
  title : String
  body : Option String
  resourceType : Option String
  resourceId : Option Uuid
  isRead : Bool := false
  readAt : Option Date := none
  createdAt : Date
  sourceEventId : Option Uuid
  deriving DecidableEq, Repr

/-- A row of `notifications.notification_preferences`. -/
structure NotificationPreference where
  tenantId : Uuid
  userId : Uuid
  type : String
  inApp : Bool := true
  email : Bool := true
  deriving DecidableEq, Repr

/-- The columns of `identity.users` the relay reads. -/
structure User where
  id : Uuid
  email : String
  deriving DecidableEq, Repr

/-! ### The relays -/

/-- What `renderNotification` returns. -/
structure RenderedNotification where
  title : String
  body : Option String := none
  resourceType : Option String := none
  deriving DecidableEq, Repr

/-- What the `PostCommitTask` of `NotificationRelayService.processRow` has captured. -/
structure PostCommitTask where
  row : NotificationOutboxRow
  rendered : RenderedNotification
  notificationId : Uuid
  emailEnabled : Bool
  deriving DecidableEq, Repr

/-- The two outboxes of the pipeline. -/
inductive OutboxName
  | notification
  | email
  deriving DecidableEq, Repr

/-- A transaction of a relay and the rows it has locked. -/
structure OpenTransaction where
  number : ℕ
  outbox : OutboxName
  locks : List RowId := []
  deriving DecidableEq, Repr

/-! ### Publish and subscribe -/

/-- The name of a channel. -/
abbrev Channel := String

/-- A handler, by the identity of its function object. The handler of an event stream is the number of the
stream. -/
abbrev Handler := ℕ

/-- `NotificationPubSubPayload`. -/
structure NotificationPubSubPayload where
  notificationId : Uuid
  recipientId : Uuid
  type : String
  title : String
  body : Option String
  resourceType : Option String
  resourceId : Option Uuid
  deriving DecidableEq, Repr

/-- A command on the subscriber connection. -/
inductive Command
  | subscribe (channel : Channel)
  | unsubscribe (channel : Channel)
  deriving DecidableEq, Repr

/-- `NotificationPubSubService` of an API process: its map of handler sets; the commands it has issued on
the subscriber connection, and how many of them Valkey has executed; the channels Valkey has it subscribed
to; and the messages on their way to it. The ticket of a command is its place among the issued ones. -/
structure PubSub where
  handlers : Channel → Option (List Handler) := fun _ ↦ none
  issued : List Command := []
  taken : ℕ := 0
  subscribed : Channel → Bool := fun _ ↦ false
  messages : List (Channel × NotificationPubSubPayload) := []

/-! ### Event streams -/

/-- An event written to a stream. -/
inductive SseEvent
  | connected (unreadCount : ℕ)
  | notification (payload : NotificationPubSubPayload)
  deriving DecidableEq, Repr

/-- How far `stream()` has come: before the replay, after it, and after the subscription. -/
inductive StreamPhase
  | connecting
  | replayed
  | live
  deriving DecidableEq, Repr

/-- A response of the `stream` endpoint: who has opened it, with which `Last-Event-ID`, whether it is still
writable, and what has been written to it. -/
structure Stream where
  userId : Uuid
  tenantId : Uuid
  lastEventId : Option Uuid
  writable : Bool := true
  phase : StreamPhase := .connecting
  output : List SseEvent := []
  deriving DecidableEq, Repr

/-! ### The store and its steps -/

/-- What a call depends on outside its process. -/
inductive Resource
  | database
  | valkey
  | emailProvider
  deriving DecidableEq, Repr

/-- What becomes of the next request to a resource: it is answered; it fails without effect; or it takes
effect and the reply is lost. -/
inductive Health
  | answering
  | refusing
  | replyLost
  deriving DecidableEq, Repr

/-- The store. The identifiers of new rows are drawn from `uuids`, one after the other. -/
structure Db where
  notificationOutbox : List NotificationOutboxRow := []
  emailOutbox : List EmailOutboxRow := []
  inAppNotifications : List InAppNotification := []
  preferences : List NotificationPreference := []
  users : List User := []
  transactions : List OpenTransaction := []
  begun : ℕ := 0
  relaying : List (ℕ × OutboxName) := []
  wakeOnComplete : List (ℕ × OutboxName) := []
  tasks : List PostCommitTask := []
  pubSub : PubSub := {}
  streams : List Stream := []
  health : Resource → Health := fun _ ↦ .answering
  uuids : ℕ → Uuid := id
  drawn : ℕ := 0
  now : Date := 0
  appBaseUrl : String := ""
  redisKeyPrefix : String := ""

/-- The store before anything has been scheduled, sent or connected. -/
def Db.cleared (db : Db) : Db :=
  { db with
    notificationOutbox := []
    emailOutbox := []
    inAppNotifications := []
    transactions := []
    tasks := []
    pubSub := {}
    streams := [] }

/-- A store with nothing in it. -/
def quietDb : Db := {}

/-- How `processRow` of an e-mail row ends: the provider was handed the e-mail, the preference check
suppressed it, or the provider was not reached. -/
inductive Dispatch
  | sent
  | suppressed
  | failed
  deriving DecidableEq, Repr

/-- What a step does that others take note of. A step that processes an e-mail for a notification says
whether the e-mail is `wanted`: what the preference of the recipient resolves to. A step of `subscribe` or
of the function it returns names the ticket of the command it issues, or of the one it has awaited. -/
inductive NotificationStep
  | other
  | inserted (row : NotificationOutboxRow) (created : Option Uuid)
  | emailScheduled (row : NotificationOutboxRow) (notificationId : Uuid)
  | published (payload : NotificationPubSubPayload)
  | emailProcessed (row : EmailOutboxRow) (wanted : Option Bool) (dispatch : Dispatch)
  | message (channel : Channel) (payload : NotificationPubSubPayload)
  | closed (number : ℕ)
  | subscribing (ticket : ℕ) (channel : Channel)
  | registered (ticket : Option ℕ) (channel : Channel) (handler : Handler)
  | unsubscribed (ticket : Option ℕ) (channel : Channel) (handler : Handler)
  | resumed (ticket : ℕ)
  deriving DecidableEq, Repr

/-- What ends a call: a resource that does not answer, a transaction that was aborted, a constraint or a
column type of the database, a template nobody knows, or an error of the language runtime. -/
inductive Failure
  | unavailable
  | transactionAborted
  | uniqueViolation
  | invalidUuid (text : String)
  | valueTooLong (length : ℕ)
  | unknownNotificationTemplate (name : String)
  | unknownEmailTemplate (name : String)
  | typeError
  deriving DecidableEq, Repr

/-- The message of the error, which `markFailed` records. -/
def Failure.message : Failure → String
  | .unavailable => "Connection terminated unexpectedly"
  | .transactionAborted =>
    "current transaction is aborted, commands ignored until end of transaction block"
  | .uniqueViolation => "duplicate key value violates unique constraint"
  | .invalidUuid text => "invalid input syntax for type uuid: \"" ++ text ++ "\""
  | .valueTooLong length => "value too long for type character varying(" ++ toString length ++ ")"
  | .unknownNotificationTemplate name => "Unknown notification template: " ++ name
  | .unknownEmailTemplate name => "Unknown email template: \"" ++ name ++ "\""
  | .typeError => "Cannot read properties of undefined"

/-- A call of the pipeline. -/
abbrev NotificationCall := Call Db NotificationStep Failure

/-- A request to a resource, as one step: it fails where the resource does not answer, and has no effect
where it refuses. -/
def access {α : Type} (resource : Resource) (label : Db → NotificationStep)
    (statement : Db → Except Failure (α × Db)) : NotificationCall α :=
  .step
    (fun db ↦ if db.health resource = .refusing then .other else label db)
    (fun db ↦ if db.health resource = .refusing then db else
      match statement db with
      | .ok (_, after) => after
      | .error _ => db)
    fun db ↦ .done (if db.health resource = .answering then (statement db).map Prod.fst
      else .error .unavailable)

/-- The bound of a request to a resource. Assumes: a request that is refused, one whose statement fails and
one whose statement succeeds are bounded. -/
theorem only_access {α : Type} {relation : Db → NotificationStep → Db → Prop} {resource : Resource}
    {label : Db → NotificationStep} {statement : Db → Except Failure (α × Db)}
    (hrefused : ∀ db, relation db .other db)
    (hfail : ∀ db failure, statement db = .error failure → relation db (label db) db)
    (hok : ∀ db value after, statement db = .ok (value, after) → relation db (label db) after) :
    (access resource label statement).Only relation := by
  intro db
  refine ⟨?_, trivial⟩
  dsimp only
  split_ifs with hrefusing
  · exact hrefused db
  · cases hstatement : statement db with
    | error failure => exact hfail db failure hstatement
    | ok result => exact hok db result.1 result.2 hstatement

/-- A read of the database. -/
def readDatabase {α : Type} (read : Db → α) : NotificationCall α :=
  access .database (fun _ ↦ .other) fun db ↦ .ok (read db, db)

end RallyApi.Notifications

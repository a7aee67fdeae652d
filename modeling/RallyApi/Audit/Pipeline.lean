import RallyApi.Concurrency.Embedding
import RallyApi.Outbox.Relay
import RallyApi.Platform.UuidSource

/-!
# From the outbox to the audit log

Domain events take three stations. A producer inserts a row into `outbox_events`; `OutboxRelayService`
publishes it to SNS, which hands it to the audit queue of SQS; and `AuditConsumer` receives messages from
the queue, has `AuditService` record each as an audit log, and deletes it from the queue.

The columns of an outbox row that say what has happened are written once, by its `INSERT`, and are given by
`content`. The queue delivers at least once: a message may be there several times (`republish`), in any
order, and may be received again until it is deleted. What the world outside decides in one run of `poll` is
a `PollScript`.
-/

set_option autoImplicit false
set_option relaxedAutoImplicit false

namespace RallyApi.Audit

open Concurrency Platform
open Outbox (RelayStep RelayRequest RowId)

/-! ### Events, messages and audit logs -/

/-- The properties of the payload of a domain event that the consumer reads, of the types it takes them
for. `changes` is the text of the JSON document. -/
structure EventPayload where
  actorId : Option Uuid := none
  actorEmail : Option String := none
  projectId : Option Uuid := none
  changes : Option String := none
  deriving DecidableEq, Repr

/-- The columns of a row of `outbox_events` that its `INSERT` writes and nothing changes. -/
structure OutboxEvent where
  eventType : String
  aggregateType : String
  aggregateId : Uuid
  tenantId : Uuid
  payload : EventPayload := {}
  occurredAt : Date
  deriving DecidableEq, Repr

/-- `DomainEventMessage`. -/
structure DomainEventMessage extends OutboxEvent where
  eventId : Option RowId
  deriving DecidableEq, Repr

/-- The message that `OutboxRelayService.processRow` publishes for a row. -/
def messageOf (content : RowId → OutboxEvent) (id : RowId) : DomainEventMessage :=
  { content id with eventId := some id }

/-- A message in the queue: one delivery, with its body as `JSON.parse` reads it, or none where the text is
not JSON. -/
structure SqsMessage where
  receiptHandle : ℕ
  body : Option DomainEventMessage
  deriving DecidableEq, Repr

/-- The metadata the consumer gives. -/
structure AuditMetadata where
  source : String
  occurredAt : Date
  deriving DecidableEq, Repr

/-- `CreateAuditLogInput`, without the identifier and the columns of HTTP requests. -/
structure CreateAuditLogInput where
  tenantId : Uuid
  action : String
  resourceType : String
  resourceId : Uuid
  actorId : Option Uuid
  actorEmail : Option String
  projectId : Option Uuid
  changes : Option String
  metadata : AuditMetadata
  sourceEventId : Option Uuid
  deriving DecidableEq, Repr

/-- A row of `audit.audit_logs`. -/
structure AuditLog extends CreateAuditLogInput where
  id : Uuid
  occurredAt : Date
  deriving DecidableEq, Repr

/-- What `handleMessage` gives `AuditService.record`. -/
def DomainEventMessage.auditInput (event : DomainEventMessage) : CreateAuditLogInput where
  tenantId := event.tenantId
  action := event.eventType
  resourceType := event.aggregateType
  resourceId := event.aggregateId
  actorId := event.payload.actorId
  actorEmail := event.payload.actorEmail
  projectId := event.payload.projectId
  changes := event.payload.changes
  metadata := { source := "domain-event", occurredAt := event.occurredAt }
  sourceEventId := event.eventId

/-! ### The store -/

/-- The outbox, the messages that SNS has accepted and nobody has deleted, and the audit logs. -/
structure Db where
  outbox : Outbox.Db
  queue : List SqsMessage := []
  nextHandle : ℕ := 0
  auditLogs : List AuditLog := []
  nextUuid : ℕ := 0

/-- The store of the relay. -/
def outboxPart : Part Db Outbox.Db where
  get := Db.outbox
  put outbox db := { db with outbox }
  put_get _ := rfl

/-- What a step does: one of the relay; a message of a row is delivered once more; the `INSERT` of an audit
log, which works or not; the deletion of a message; or none of these. -/
inductive AuditStep
  | other
  | relay (label : RelayStep)
  | republish (id : RowId)
  | insert (sourceEventId : Option Uuid) (works : Bool)
  | deleteMessage (receiptHandle : ℕ)
  deriving DecidableEq, Repr

/-- A call of the worker. -/
abbrev AuditCall := Call Db AuditStep Unit

/-- The store with one more message in the queue. -/
def Db.enqueue (db : Db) (body : Option DomainEventMessage) : Db :=
  { db with
    queue := db.queue ++ [{ receiptHandle := db.nextHandle, body }]
    nextHandle := db.nextHandle + 1 }

/-! ### `OutboxRelayService` -/

/-- What `processRow` does outside the database: where the topic is configured, a call that returns has
published the message of the row. -/
def publish (content : RowId → OutboxEvent) (topicArn : Option String) : RelayStep → Db → Db
  | .processRow id true, db => if topicArn.isSome then db.enqueue (messageOf content id) else db
  | _, db => db

/-- A request to the relay or to a producer of events. -/
def serveRelay (content : RowId → OutboxEvent) (topicArn : Option String) (request : RelayRequest) :
    AuditCall Unit :=
  (fun _ ↦ ()) <$> (request.serve Outbox.outboxRelayService).embedded outboxPart AuditStep.relay
    (publish content topicArn)

/-- A message of a row is delivered once more, by a retry of the publisher whose first call was not
acknowledged or by SNS and SQS themselves. -/
def republish (content : RowId → OutboxEvent) (topicArn : Option String) (id : RowId) : AuditCall Unit :=
  Call.atomically (fun _ ↦ if topicArn.isSome then .republish id else .other) fun db ↦
    ((), if topicArn.isSome then db.enqueue (messageOf content id) else db)

/-- A text that is not JSON arrives in the queue. -/
def postGarbage : AuditCall Unit :=
  Call.atomically (fun _ ↦ .other) fun db ↦ ((), db.enqueue none)

/-! ### `AuditService` -/

/-- The store after the `INSERT` of an audit log: as it was where one has its `sourceEventId`. -/
def Db.insertAuditLog (db : Db) (log : AuditLog) : Db :=
  if log.sourceEventId.isSome ∧ db.auditLogs.any fun row ↦ row.sourceEventId = log.sourceEventId then db
  else { db with auditLogs := db.auditLogs ++ [log] }

/-- The identifiers of the store. -/
def uuidSource : UuidSource Db :=
  .counter (fun db ↦ db.nextUuid) (fun nextUuid db ↦ { db with nextUuid }) fun _ _ ↦ rfl

/-- `uuidv7()`. -/
def uuidv7 : AuditCall Uuid := uuidSource.uuidv7 fun _ ↦ .other

/-- `AuditDrizzleRepository.create`. A statement that does not work leaves no row. -/
def createAuditLog (works : Bool) (id : Uuid) (input : CreateAuditLogInput) : AuditCall Unit :=
  Call.atomically (fun _ ↦ .insert input.sourceEventId works) fun db ↦
    ((), if works then db.insertAuditLog { input with id, occurredAt := db.outbox.now } else db)

/-- `record`: it returns whether the `INSERT` works or not. -/
def record (works : Bool) (input : CreateAuditLogInput) : AuditCall Unit := do
  let id ← uuidv7
  createAuditLog works id input

/-! ### `AuditConsumer` -/

/-- What the world outside decides in one run of `poll`: whether the queue answers and which messages it
gives, for which of them the `INSERT` works, and for which the call that deletes them does. -/
structure PollScript where
  answers : Bool := true
  handles : List ℕ
  inserts : ℕ → Bool := fun _ ↦ true
  deletes : ℕ → Bool := fun _ ↦ true

/-- `ReceiveMessageCommand`: at most ten messages, whichever SQS gives. -/
def receiveMessages (handles : List ℕ) : AuditCall (List SqsMessage) :=
  Call.query .other fun db ↦
    (handles.filterMap fun handle ↦ db.queue.find? fun message ↦ message.receiptHandle = handle).take 10

/-- `deleteMessage`: whether the call worked. -/
def deleteMessage (works : Bool) (receiptHandle : ℕ) : AuditCall Bool :=
  if works then
    Call.atomically (fun _ ↦ .deleteMessage receiptHandle) fun db ↦
      (true, { db with queue := db.queue.filter fun message ↦ message.receiptHandle ≠ receiptHandle })
  else pure false

/-- `handleMessage`: whether it returns. It throws where a text that is not JSON cannot be deleted; the
failures of all that comes after parsing are caught. -/
def handleMessage (script : PollScript) (message : SqsMessage) : AuditCall Bool :=
  match message.body with
  | none => deleteMessage (script.deletes message.receiptHandle) message.receiptHandle
  | some event => do
    record (script.inserts message.receiptHandle) event.auditInput
    let _ ← deleteMessage (script.deletes message.receiptHandle) message.receiptHandle
    pure true

/-- The loop of `poll` over the messages; an exception ends it. -/
def handleMessages (script : PollScript) : List SqsMessage → AuditCall Unit
  | [] => pure ()
  | message :: rest => do
    let returned ← handleMessage script message
    if returned then handleMessages script rest else pure ()

/-- `poll`. -/
def poll (script : PollScript) : AuditCall Unit :=
  if script.answers then do
    let messages ← receiveMessages script.handles
    handleMessages script messages
  else pure ()

/-! ### Requests -/

/-- What happens: to the outbox and its relay, to the queue, and in the consumers. -/
inductive AuditRequest
  | relay (request : RelayRequest)
  | republish (id : RowId)
  | postGarbage
  | poll (script : PollScript)

/-- The call that serves a request. -/
def AuditRequest.serve (content : RowId → OutboxEvent) (topicArn : Option String) :
    AuditRequest → AuditCall Unit
  | .relay request => serveRelay content topicArn request
  | .republish id => Audit.republish content topicArn id
  | .postGarbage => Audit.postGarbage
  | .poll script => Audit.poll script

end RallyApi.Audit

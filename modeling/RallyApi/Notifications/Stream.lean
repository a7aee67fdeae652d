import RallyApi.Notifications.PubSub

/-!
# `NotificationSseController`

The `stream` endpoint: the unread count, the replay of what the client has missed, the subscription, and
the end of the connection. The handler of a stream writes every message of its channel to the response. A
read of the database and the writes that follow it are one step, since nobody else sees the response.
-/

set_option autoImplicit false
set_option relaxedAutoImplicit false

namespace RallyApi.Notifications

open Concurrency Platform

/-! ### Writing to a response -/

/-- `raw.write`, as far as the response is still writable. -/
def Stream.write (stream : Stream) (events : List SseEvent) : Stream :=
  if stream.writable then { stream with output := stream.output ++ events } else stream

/-- Changes one of the streams. -/
def Db.updateStream (db : Db) (number : ℕ) (change : Stream → Stream) : Db :=
  { db with streams := db.streams.modify number change }

/-- The payload the controller makes of a notification it replays. -/
def InAppNotification.payload (notification : InAppNotification) : NotificationPubSubPayload where
  notificationId := notification.id
  recipientId := notification.recipientId
  type := notification.type
  title := notification.title
  body := notification.body
  resourceType := notification.resourceType
  resourceId := notification.resourceId

/-- The payload with the title as its column keeps it. -/
def NotificationPubSubPayload.stored (payload : NotificationPubSubPayload) : NotificationPubSubPayload :=
  { payload with title := varchar 500 payload.title }

/-- The payload is about the notification: a replay has the title that is stored, and a push the title
before it was stored. -/
def NotificationPubSubPayload.Shows (payload : NotificationPubSubPayload)
    (notification : InAppNotification) : Prop :=
  notification.payload = payload ∨ notification.payload = payload.stored

instance (payload : NotificationPubSubPayload) (notification : InAppNotification) :
    Decidable (payload.Shows notification) :=
  inferInstanceAs (Decidable (_ ∨ _))

theorem NotificationPubSubPayload.Shows.notificationId {payload : NotificationPubSubPayload}
    {notification : InAppNotification} (hshows : payload.Shows notification) :
    payload.notificationId = notification.id := by
  rcases hshows with hsame | hsame <;>
    exact (congrArg NotificationPubSubPayload.notificationId hsame).symm

/-- A read of the database and what the process does with the result. -/
def readInto (use : Db → Db) : NotificationCall Unit :=
  .step (fun _ ↦ .other) (fun db ↦ if db.health .database = .answering then use db else db)
    fun db ↦ .done (if db.health .database = .answering then .ok () else .error .unavailable)

/-! ### The endpoint -/

/-- The response is handed to the controller. -/
def openStream (userId tenantId : Uuid) (lastEventId : Option Uuid) : NotificationCall ℕ :=
  Call.atomically (fun _ ↦ .other) fun db ↦
    (db.streams.length, { db with streams := db.streams ++ [{ userId, tenantId, lastEventId }] })

/-- `getUnreadCount`, and the event `connected`. -/
def writeConnected (number : ℕ) (userId tenantId : Uuid) : NotificationCall Unit :=
  readInto fun db ↦ db.updateStream number fun stream ↦
    stream.write [.connected (countUnread tenantId userId db.inAppNotifications)]

/-- `listMissed`, with its default limit. -/
def listMissed (tenantId userId afterId : Uuid) (notifications : List InAppNotification) :
    List InAppNotification :=
  listSince tenantId userId afterId 30 notifications

/-- The replay of the notifications the client has missed. -/
def Stream.replay (stream : Stream) (afterId : Uuid) (notifications : List InAppNotification) :
    Stream :=
  { stream.write ((listMissed stream.tenantId stream.userId afterId notifications).map fun row ↦
      .notification row.payload) with phase := .replayed }

/-- The replay, where the client has sent a `Last-Event-ID`. -/
def replayMissed (number : ℕ) (lastEventId : Option Uuid) : NotificationCall Unit :=
  match lastEventId with
  | none => Call.atomically (fun _ ↦ .other) fun db ↦
    ((), db.updateStream number fun stream ↦ { stream with phase := .replayed })
  | some afterId =>
    readInto fun db ↦ db.updateStream number fun stream ↦ stream.replay afterId db.inAppNotifications

/-- The listener for the end of the connection is set. -/
def goLive (number : ℕ) : NotificationCall Unit :=
  Call.atomically (fun _ ↦ .other) fun db ↦
    ((), db.updateStream number fun stream ↦ { stream with phase := .live })

/-- `stream`. -/
def stream (userId tenantId : Uuid) (lastEventId : Option Uuid) : NotificationCall Unit := do
  let number ← openStream userId tenantId lastEventId
  writeConnected number userId tenantId
  replayMissed number lastEventId
  let channel ← Call.query .other fun db ↦ db.userChannel userId
  subscribe channel number
  goLive number

/-- The connection ends: nothing is written anymore, and the listener, if it is set, unsubscribes. -/
def closeStream (number : ℕ) : NotificationCall Unit := do
  let channel ← Call.atomically (fun _ ↦ .closed number) fun db ↦
    (((db.streams[number]?).filter fun stream ↦ stream.writable ∧ stream.phase = .live).map
        fun stream ↦ db.userChannel stream.userId,
      db.updateStream number fun stream ↦ { stream with writable := false })
  match channel with
  | none => pure ()
  | some channel => unsubscribe channel number

/-- What a message makes of the responses: each handler of the channel writes the payload to its own. -/
def Db.deliver (db : Db) (channel : Channel) (payload : NotificationPubSubPayload) : List Stream :=
  db.streams.mapIdx fun number stream ↦
    if number ∈ (db.pubSub.handlers channel).getD [] then stream.write [.notification payload]
    else stream

/-- The `message` event of the subscriber connection. -/
def handleMessage : NotificationCall Unit :=
  Call.atomically
    (fun db ↦ match db.pubSub.messages with
      | [] => .other
      | (channel, payload) :: _ => .message channel payload)
    fun db ↦ match db.pubSub.messages with
      | [] => ((), db)
      | (channel, payload) :: rest => ((), { db with
          pubSub := { db.pubSub with messages := rest }
          streams := db.deliver channel payload })

end RallyApi.Notifications

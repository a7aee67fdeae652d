import RallyApi.Notifications.Repositories

/-!
# `NotificationPubSubService`

The subscriptions of an API process. What `subscribe` and the function it returns do between two awaits
is one step; the command they issue takes effect when Valkey comes to it (`takeCommand`), and the call
resumes with a step that names its ticket, which a run may only permit once the command has been taken. A
published message is on its way to the process if Valkey has the process subscribed to its channel, and
reaches the handlers when the process comes to it.
-/

set_option autoImplicit false
set_option relaxedAutoImplicit false

namespace RallyApi.Notifications

open Concurrency Platform

/-! ### Channels -/

/-- `ns`. -/
def Db.channelName (db : Db) (suffix : String) : Channel :=
  db.redisKeyPrefix ++ "notifications:" ++ suffix

/-- `userChannel`. -/
def Db.userChannel (db : Db) (recipientId : Uuid) : Channel :=
  db.channelName ("user:" ++ uuidText recipientId)

/-! ### The map of handler sets -/

/-- `Set.prototype.add`. -/
def addHandler (handler : Handler) (set : List Handler) : List Handler :=
  if handler ∈ set then set else set ++ [handler]

/-- `Set.prototype.delete`. -/
def deleteHandler (handler : Handler) (set : List Handler) : List Handler :=
  set.filter (· ≠ handler)

/-- `Map.prototype.set`, or `delete` for no set. -/
def PubSub.setHandlers (pubSub : PubSub) (channel : Channel) (set : Option (List Handler)) : PubSub :=
  { pubSub with handlers := fun other ↦ if other = channel then set else pubSub.handlers other }

/-- A command is sent on the subscriber connection. -/
def PubSub.issue (pubSub : PubSub) (command : Command) : PubSub :=
  { pubSub with issued := pubSub.issued ++ [command] }

/-- `subscribe` up to its first await: the ticket of the command it awaits, if it issues one. -/
def PubSub.subscribe (pubSub : PubSub) (channel : Channel) (handler : Handler) :
    Option ℕ × PubSub :=
  match pubSub.handlers channel with
  | some set => (none, pubSub.setHandlers channel (some (addHandler handler set)))
  | none =>
    (some pubSub.issued.length,
      (pubSub.setHandlers channel (some [])).issue (.subscribe channel))

/-- `subscribe` from there on: `handlers.get(channel)!.add(handler)`. Whether there was a set. -/
def PubSub.register (pubSub : PubSub) (channel : Channel) (handler : Handler) : Bool × PubSub :=
  match pubSub.handlers channel with
  | some set => (true, pubSub.setHandlers channel (some (addHandler handler set)))
  | none => (false, pubSub)

/-- The returned function up to its first await: the ticket of the command it awaits, if it issues one. -/
def PubSub.unsubscribe (pubSub : PubSub) (channel : Channel) (handler : Handler) :
    Option ℕ × PubSub :=
  match pubSub.handlers channel with
  | none => (none, pubSub)
  | some set =>
    if deleteHandler handler set = [] then
      (some pubSub.issued.length,
        (pubSub.setHandlers channel none).issue (.unsubscribe channel))
    else (none, pubSub.setHandlers channel (some (deleteHandler handler set)))

/-- The channels that are subscribed after a command. -/
def Command.run (subscribed : Channel → Bool) : Command → Channel → Bool
  | .subscribe channel => fun other ↦ if other = channel then true else subscribed other
  | .unsubscribe channel => fun other ↦ if other = channel then false else subscribed other

/-- Valkey executes the next command of the connection. -/
def PubSub.takeCommand (pubSub : PubSub) : PubSub :=
  match pubSub.issued[pubSub.taken]? with
  | none => pubSub
  | some command =>
    { pubSub with
      taken := pubSub.taken + 1
      subscribed := command.run pubSub.subscribed }

/-- `PUBLISH`: the message is sent to the process if it is subscribed. -/
def PubSub.publish (pubSub : PubSub) (channel : Channel) (payload : NotificationPubSubPayload) :
    PubSub :=
  if pubSub.subscribed channel then
    { pubSub with messages := pubSub.messages ++ [(channel, payload)] }
  else pubSub

/-! ### The calls -/

/-- `subscribe` up to its await. -/
def startSubscribe (channel : Channel) (handler : Handler) : NotificationCall (Option ℕ) :=
  Call.atomically
    (fun db ↦ match (db.pubSub.subscribe channel handler).1 with
      | none => .registered none channel handler
      | some ticket => .subscribing ticket channel)
    fun db ↦ ((db.pubSub.subscribe channel handler).1,
      { db with pubSub := (db.pubSub.subscribe channel handler).2 })

/-- `subscribe` from its await on, up to the dereference: whether there was a set. -/
def resumeSubscribe (ticket : ℕ) (channel : Channel) (handler : Handler) : NotificationCall Bool :=
  Call.atomically
    (fun db ↦ if (db.pubSub.register channel handler).1 then
        .registered (some ticket) channel handler
      else .resumed ticket)
    fun db ↦ ((db.pubSub.register channel handler).1,
      { db with pubSub := (db.pubSub.register channel handler).2 })

/-- `subscribe`. -/
def subscribe (channel : Channel) (handler : Handler) : NotificationCall Unit := do
  let ticket ← startSubscribe channel handler
  match ticket with
  | none => pure ()
  | some ticket => do
    let found ← resumeSubscribe ticket channel handler
    Call.ensure (found = true) .typeError

/-- The function `subscribe` returns, up to its await. -/
def startUnsubscribe (channel : Channel) (handler : Handler) : NotificationCall (Option ℕ) :=
  Call.atomically
    (fun db ↦ .unsubscribed (db.pubSub.unsubscribe channel handler).1 channel handler)
    fun db ↦ ((db.pubSub.unsubscribe channel handler).1,
      { db with pubSub := (db.pubSub.unsubscribe channel handler).2 })

/-- The function `subscribe` returns. -/
def unsubscribe (channel : Channel) (handler : Handler) : NotificationCall Unit := do
  let ticket ← startUnsubscribe channel handler
  match ticket with
  | none => pure ()
  | some ticket => Call.query (.resumed ticket) fun _ ↦ ()

/-- `notifyUser`. -/
def notifyUser (payload : NotificationPubSubPayload) : NotificationCall Unit :=
  access .valkey (fun _ ↦ .published payload) fun db ↦
    .ok ((), { db with pubSub := db.pubSub.publish (db.userChannel payload.recipientId) payload })

/-- Valkey comes to the next command. -/
def takeCommand : NotificationCall Unit :=
  Call.atomically (fun _ ↦ .other) fun db ↦ ((), { db with pubSub := db.pubSub.takeCommand })

end RallyApi.Notifications

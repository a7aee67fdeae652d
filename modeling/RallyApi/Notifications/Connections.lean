import RallyApi.Concurrency.Part
import RallyApi.Concurrency.Returns
import RallyApi.Notifications.Subscriptions
import RallyApi.Notifications.System

/-!
# Connections of the event streams

The `stream` endpoint with its heartbeat: the pipeline's store with the timers of the API process. Between
the subscription and the end of `stream()` there is no await, so the timer and the listener for the end of
the connection are set in one step (`attach`). The end of a connection may come at any moment
(`emitClose`); it clears the timer and unsubscribes if the listener is set by then.

`ConnectionRequest` is everything that runs on that store: the requests of the pipeline, with this
endpoint in place of the one without timers, and the ticks of the timers.
-/

set_option autoImplicit false
set_option relaxedAutoImplicit false

namespace RallyApi.Notifications

open Concurrency Platform

/-! ### The store and its steps -/

/-- The store of the pipeline, with the streams whose heartbeat is set, and the comments that heartbeats
have written, by the number of their stream. -/
structure ConnectionDb where
  store : Db
  heartbeats : List ℕ := []
  comments : List ℕ := []

/-- The store of the pipeline is a part. -/
def storePart : Part ConnectionDb Db where
  get db := db.store
  put store db := { db with store }
  put_get _ := rfl

/-- A step of the pipeline, or one of the endpoint: a response is opened, its timer and its listener are
set, it emits `close` while the listener is set or is not, or its heartbeat ticks. -/
inductive ConnectionStep
  | of (step : NotificationStep)
  | opened (number : ℕ)
  | attached (number : ℕ)
  | closed (number : ℕ) (listening : Bool)
  | ticked (number : ℕ)
  deriving DecidableEq, Repr

/-- A call on that store. -/
abbrev ConnectionCall := Call ConnectionDb ConnectionStep Failure

/-- A call of the pipeline on that store. -/
def onStore {α : Type} (call : NotificationCall α) : ConnectionCall α := call.within storePart .of

/-! ### The endpoint -/

/-- `reply.hijack`: the response is handed to the controller. -/
def hijack (userId tenantId : Uuid) (lastEventId : Option Uuid) : ConnectionCall ℕ :=
  Call.atomically (fun db ↦ .opened db.store.streams.length) fun db ↦
    (db.store.streams.length, { db with
      store.streams := db.store.streams ++ [{ userId, tenantId, lastEventId }] })

/-- `setInterval`, and the listener for `close`. -/
def attach (number : ℕ) : ConnectionCall Unit :=
  Call.atomically (fun _ ↦ .attached number) fun db ↦ ((), { db with
    store := db.store.updateStream number fun stream ↦ { stream with phase := .live }
    heartbeats := number :: db.heartbeats })

/-- `stream`. -/
def streamEvents (userId tenantId : Uuid) (lastEventId : Option Uuid) : ConnectionCall Unit := do
  let number ← hijack userId tenantId lastEventId
  onStore (writeConnected number userId tenantId)
  onStore (replayMissed number lastEventId)
  let channel ← onStore (Call.query .other fun db ↦ db.userChannel userId)
  onStore (subscribe channel number)
  attach number

/-- `raw.writable`. -/
def Db.isOpen (db : Db) (number : ℕ) : Bool :=
  (db.streams[number]?).any Stream.writable

/-- The channel the listener of an open response unsubscribes from, if it is set. -/
def Db.listener (db : Db) (number : ℕ) : Option Channel :=
  ((db.streams[number]?).filter fun stream ↦ stream.writable ∧ stream.phase = .live).map
    fun stream ↦ db.userChannel stream.userId

/-- `clearInterval`. -/
def ConnectionDb.clearHeartbeat (db : ConnectionDb) (number : ℕ) : ConnectionDb :=
  { db with heartbeats := db.heartbeats.filter (· ≠ number) }

/-- The response is not writable anymore. -/
def ConnectionDb.hangUp (db : ConnectionDb) (number : ℕ) : ConnectionDb :=
  { db with store := db.store.updateStream number fun stream ↦ { stream with writable := false } }

/-- An open response emits `close`, and the listener, if it is set, clears the heartbeat and unsubscribes.
-/
def emitClose (number : ℕ) : ConnectionCall Unit := do
  let channel ← Call.atomically
    (fun db ↦ if db.store.isOpen number then .closed number (db.store.listener number).isSome
      else .of .other)
    fun db ↦ (db.store.listener number,
      if (db.store.listener number).isSome then (db.hangUp number).clearHeartbeat number
      else db.hangUp number)
  match channel with
  | none => pure ()
  | some channel => onStore (unsubscribe channel number)

/-- The callback of `setInterval`. -/
def ConnectionDb.tick (db : ConnectionDb) (number : ℕ) : ConnectionDb :=
  if number ∈ db.heartbeats then
    if db.store.isOpen number then { db with comments := number :: db.comments }
    else db.clearHeartbeat number
  else db

/-- The heartbeat of a response ticks, if it is set. -/
def heartbeat (number : ℕ) : ConnectionCall Unit :=
  Call.atomically (fun db ↦ if number ∈ db.heartbeats then .ticked number else .of .other)
    fun db ↦ ((), db.tick number)

/-! ### The system -/

/-- What a client, a worker, a timer or the world outside asks for. -/
inductive ConnectionRequest
  | pipeline (request : NotificationRequest)
  | heartbeat (number : ℕ)
  deriving DecidableEq, Repr

/-- The call that serves a request, and how it ends. -/
def ConnectionRequest.serve : ConnectionRequest → ConnectionCall (Except Failure TaskRun)
  | .pipeline (.stream userId tenantId lastEventId) =>
    ((fun _ ↦ none) <$> streamEvents userId tenantId lastEventId).outcome
  | .pipeline (.close number) => ((fun _ ↦ none) <$> emitClose number).outcome
  | .pipeline request => (onStore request.serve).outcome
  | .heartbeat number => ((fun _ ↦ none) <$> Notifications.heartbeat number).outcome

/-- A configuration of the system. -/
abbrev ConnectionConfig := Config ConnectionDb ConnectionStep Failure (Except Failure TaskRun)

/-- A world of the system. -/
abbrev ConnectionWorld := World ConnectionDb ConnectionStep

/-! ### What should be left of a connection -/

/-- The response a step of its `stream()` or of its listener is about. -/
def ConnectionStep.response : ConnectionStep → Option ℕ
  | .of (.registered _ _ handler) | .of (.unsubscribed _ _ handler) => some handler
  | .opened number | .attached number | .closed number _ => some number
  | _ => none

/-- The calls that have taken such a step for a response have returned: `stream()`, and the function
`subscribe` has returned. -/
def AllReturned (config : ConnectionConfig) (number : ℕ) : Prop :=
  ∀ entry ∈ config.log, entry.2.response = some number →
    ∀ call ∈ config.calls[entry.1]?, call.returned.isSome = true

/-- The heartbeat of a response has ticked since the response has emitted `close`. -/
def TickedSinceClose (log : List (ℕ × ConnectionStep)) (number : ℕ) : Prop :=
  ∃ newer older, log = newer ++ older ∧ (∃ entry ∈ newer, entry.2 = .ticked number) ∧
    ∃ entry ∈ older, ∃ listening, entry.2 = .closed number listening

/-- No connection that has ended leaves anything behind: once its calls have returned, its handler is in no
set, and once its heartbeat has ticked, the timer is stopped. -/
def LeavesNothing (config : ConnectionConfig) : Prop :=
  ∀ number stream, config.db.store.streams[number]? = some stream → stream.writable = false →
    AllReturned config number →
      (∀ channel, ¬ config.db.store.pubSub.Registered channel number) ∧
        (TickedSinceClose config.log number → number ∉ config.db.heartbeats)

/-- A call resumes once Valkey has taken the command it awaits. -/
def AwaitsCommand (world : ConnectionWorld) : ConnectionStep → Prop
  | .of step => ∀ ticket ∈ step.awaited, ticket < world.db.store.pubSub.taken
  | _ => True

/-- The connection is still open when `stream` registers its handler, and when it sets its listener. -/
def StillOpen (world : ConnectionWorld) : ConnectionStep → Prop
  | .of (.registered _ _ handler) => world.db.store.isOpen handler = true
  | .attached number => world.db.store.isOpen number = true
  | _ => True

end RallyApi.Notifications

import RallyApi.Notifications.Pipeline
import RallyApi.Notifications.Subscriptions

/-!
# Steps that leave the subscriptions alone

What every request of the pipeline does but those that open and close an event stream: it registers and
unsubscribes no handler, and all it makes of a response is to write to it (`Aside`). `only_serve_aside` is
the statement for the requests, `only_relay` the one for the loop of a relay.
-/

set_option autoImplicit false
set_option relaxedAutoImplicit false

namespace RallyApi.Notifications

open Concurrency Outbox Platform Store

/-- A response without what has been written to it. -/
def Stream.silent (stream : Stream) : Stream := { stream with output := [] }

/-- A step that registers and unsubscribes no handler. -/
def NotificationStep.IsAside (label : NotificationStep) : Prop :=
  label.registers = none ∧ label.unsubscribes = none

/-- A step that leaves the subscriptions alone, and the responses but for what is written to them. -/
structure Aside (before : Db) (label : NotificationStep) (after : Db) : Prop where
  label : label.IsAside
  handlers : after.pubSub.handlers = before.pubSub.handlers
  keyPrefix : after.redisKeyPrefix = before.redisKeyPrefix
  streams : after.streams.map Stream.silent = before.streams.map Stream.silent

section Statements

variable {α : Type} {db after : Db} {label : NotificationStep} {stream : Stream} {number : ℕ}
  {channel : Channel} {payload : NotificationPubSubPayload} {events : List SseEvent}

theorem isAside_other : NotificationStep.other.IsAside := ⟨rfl, rfl⟩

theorem aside_refl (hlabel : label.IsAside) : Aside db label db := ⟨hlabel, rfl, rfl, rfl⟩

@[simp]
theorem silent_write : (stream.write events).silent = stream.silent := by
  unfold Stream.write
  split_ifs <;> rfl

/-- Writing to the responses of a channel. -/
theorem silent_deliver : (db.deliver channel payload).map Stream.silent =
    db.streams.map Stream.silent := by
  refine List.ext_getElem? fun number ↦ ?_
  rw [Db.deliver, List.getElem?_map, List.getElem?_map, List.getElem?_mapIdx, Option.map_map]
  refine Option.map_congr fun stream _ ↦ ?_
  simp only [Function.comp_apply]
  split_ifs
  · exact silent_write
  · rfl

/-- A change of one response that writes to it. -/
theorem silent_updateStream {change : Stream → Stream}
    (hchange : ∀ stream, (change stream).silent = stream.silent) :
    (db.updateStream number change).streams.map Stream.silent = db.streams.map Stream.silent := by
  refine List.ext_getElem? fun other ↦ ?_
  rw [Db.updateStream, List.getElem?_map, List.getElem?_map, List.getElem?_modify,
    Option.map_eq_map, Option.map_map]
  refine Option.map_congr fun stream _ ↦ ?_
  simp only [Function.comp_apply]
  split_ifs
  · exact hchange stream
  · rfl

/-- A publication changes the messages on their way. -/
theorem handlers_publish {pubSub : PubSub} :
    (pubSub.publish channel payload).handlers = pubSub.handlers := by
  unfold PubSub.publish
  split_ifs <;> rfl

theorem handlers_takeCommand {pubSub : PubSub} : pubSub.takeCommand.handlers = pubSub.handlers := by
  unfold PubSub.takeCommand
  split <;> rfl

/-- What a step leaves does not depend on its label. -/
theorem Aside.relabel {new : NotificationStep} (haside : Aside db label after) (hnew : new.IsAside) :
    Aside db new after := ⟨hnew, haside.handlers, haside.keyPrefix, haside.streams⟩

/-- A request that leaves the store as it is, or that changes what `Aside` does not speak of. -/
theorem only_access_aside {resource : Resource} {label : Db → NotificationStep}
    {statement : Db → Except Failure (α × Db)} (hlabel : ∀ db, (label db).IsAside)
    (hok : ∀ db value after, statement db = .ok (value, after) → Aside db .other after) :
    (access resource label statement).Only Aside :=
  only_access (fun _ ↦ aside_refl isAside_other) (fun db _ _ ↦ aside_refl (hlabel db))
    fun db value after hstatement ↦ (hok db value after hstatement).relabel (hlabel db)

theorem only_readDatabase {read : Db → α} : (readDatabase read).Only Aside := by
  refine only_access_aside (fun _ ↦ isAside_other) fun db value after hok ↦ ?_
  obtain ⟨_, rfl⟩ := Prod.mk.inj (Except.ok.inj hok)
  exact aside_refl isAside_other

/-- A statement in a transaction. -/
theorem only_inTransaction {opened : ℕ} {statement : Db → Except Failure (α × Db)}
    (hok : ∀ db value after, statement db = .ok (value, after) → Aside db .other after) :
    (inTransaction opened statement).Only Aside := by
  refine Call.only_attempt _ _ (fun _ _ _ ↦ aside_refl isAside_other) fun db value after hstatement ↦ ?_
  split_ifs at hstatement
  exact hok db value after hstatement

end Statements

/-! ### The relays -/

section Relay

variable {Row : Type} {service : RelayService Row} {process : ℕ}

/-- The body of the loop. -/
theorem only_relayRow (hprocess : ∀ row, (service.processRow row).Only Aside) (tx : BatchTx) (row : Row) :
    (relayRow service tx row).Only Aside := by
  refine Call.Only.handle (Call.only_bind.mpr ⟨hprocess row, fun task _ ↦ ?_⟩) fun failure ↦ ?_
  · refine Call.only_bind.mpr ⟨only_inTransaction fun db value after hok ↦ ?_, fun _ _ ↦ trivial⟩
    obtain ⟨_, rfl⟩ := Prod.mk.inj (Except.ok.inj hok)
    exact aside_refl isAside_other
  · refine only_inTransaction fun db value after hok ↦ ?_
    obtain ⟨_, rfl⟩ := Prod.mk.inj (Except.ok.inj hok)
    exact aside_refl isAside_other

/-- The loop over the batch. -/
theorem only_relayRows (hprocess : ∀ row, (service.processRow row).Only Aside) (batch : List Row)
    (tx : BatchTx) : (relayRows service batch tx).Only Aside := by
  induction batch generalizing tx with
  | nil => trivial
  | cons row rest ih => exact Call.only_bind.mpr ⟨only_relayRow hprocess tx row, fun tx _ ↦ ih tx⟩

/-- A relay. Assumes: so does processing a row, and writing its table. -/
theorem only_relay (hprocess : ∀ row, (service.processRow row).Only Aside)
    (hset : ∀ rows db, Aside db .other (service.setRows rows db)) :
    (relay service process).Only Aside := by
  have hbatch : ∀ number, (relayBatch service number).Only Aside := by
    refine fun number ↦ Call.only_bind.mpr ⟨only_inTransaction fun db value after hok ↦ ?_,
      fun batch _ ↦ Call.only_bind.mpr ⟨only_relayRows hprocess batch _,
        fun tx _ ↦ only_inTransaction fun db value after hok ↦ ?_⟩⟩
    · obtain ⟨_, rfl⟩ := Prod.mk.inj (Except.ok.inj hok)
      exact ⟨isAside_other, rfl, rfl, rfl⟩
    · obtain ⟨_, rfl⟩ := Prod.mk.inj (Except.ok.inj hok)
      have hwritten := hset (service.apply tx.writes (service.rows db)) db
      exact ⟨isAside_other, hwritten.handlers, hwritten.keyPrefix, hwritten.streams⟩
  have hend : ∀ number, (endTransaction number).Only Aside := fun number ↦
    (Call.only_atomically _ _).mpr fun db ↦ ⟨isAside_other, rfl, rfl, rfl⟩
  have htransaction : (relayTransaction service).Only Aside := by
    refine Call.only_bind.mpr ⟨?_, fun number _ ↦ ?_⟩
    · refine only_access_aside (fun _ ↦ isAside_other) fun db value after hok ↦ ?_
      obtain ⟨_, rfl⟩ := Prod.mk.inj (Except.ok.inj hok)
      exact ⟨isAside_other, rfl, rfl, rfl⟩
    · exact Call.Only.handle (hbatch number) fun failure ↦
        Call.only_bind.mpr ⟨hend number, fun _ _ ↦ trivial⟩
  refine Call.only_bind.mpr ⟨(Call.only_atomically _ _).mpr fun db ↦ ?_, fun busy _ ↦ ?_⟩
  · split_ifs <;> exact ⟨isAside_other, rfl, rfl, rfl⟩
  · cases busy with
    | true => trivial
    | false =>
      refine htransaction.tryFinally ((Call.only_atomically _ _).mpr fun db ↦ ?_)
      exact ⟨isAside_other, rfl, rfl, rfl⟩

end Relay

/-! ### The other requests -/

section Requests

variable {row : NotificationOutboxRow} {email : EmailOutboxRow} {task : PostCommitTask} {db after : Db}

theorem only_isEnabled {tenantId userId : Uuid} {type : String} {channel : NotificationChannel} :
    (isEnabled tenantId userId type channel).Only Aside := only_readDatabase

/-- A notification that is created changes the table of notifications. -/
theorem aside_createNotification {input : CreateNotificationInput} {created : Option InAppNotification}
    (hok : createNotification input db = .ok (created, after)) : Aside db .other after := by
  obtain ⟨source, _, hrest⟩ := bind_eq_ok.mp hok
  obtain ⟨_, _, hrest⟩ := bind_eq_ok.mp hrest
  split_ifs at hrest
  · obtain ⟨_, rfl⟩ := Prod.mk.inj (Except.ok.inj hrest)
    exact ⟨isAside_other, rfl, rfl, rfl⟩
  · obtain ⟨_, rfl⟩ := Prod.mk.inj (Except.ok.inj hrest)
    exact ⟨isAside_other, rfl, rfl, rfl⟩

theorem only_processNotification_aside : (processNotification row).Only Aside := by
  refine Call.only_bind.mpr ⟨only_isEnabled, fun inAppEnabled _ ↦ ?_⟩
  split_ifs
  · trivial
  refine Call.only_bind.mpr ⟨?_, fun rendered _ ↦ Call.only_bind.mpr ⟨?_, fun created _ ↦ ?_⟩⟩
  · cases renderNotification row.type row.vars <;> trivial
  · refine only_access_aside (fun db ↦ ?_) fun _ _ _ hok ↦ aside_createNotification hok
    split <;> exact ⟨rfl, rfl⟩
  · cases created with
    | none => trivial
    | some notification => exact Call.only_bind.mpr ⟨only_isEnabled, fun _ _ ↦ trivial⟩

theorem only_sendTemplate : (sendTemplate email).Only Aside := by
  unfold sendTemplate
  split_ifs
  · exact fun db ↦ ⟨aside_refl ⟨rfl, rfl⟩, trivial⟩
  · exact Call.only_bind.mpr ⟨(Call.only_atomically _ _).mpr fun db ↦ aside_refl ⟨rfl, rfl⟩,
      fun _ _ ↦ trivial⟩

theorem only_processEmail : (processEmail email).Only Aside := by
  unfold processEmail
  split
  · refine Call.only_bind.mpr ⟨only_isEnabled, fun emailEnabled _ ↦ ?_⟩
    split_ifs
    · exact Call.only_bind.mpr ⟨(Call.only_atomically _ _).mpr fun db ↦ aside_refl ⟨rfl, rfl⟩,
        fun _ _ ↦ trivial⟩
    · exact Call.only_bind.mpr ⟨only_sendTemplate, fun _ _ ↦ trivial⟩
  · exact Call.only_bind.mpr ⟨only_sendTemplate, fun _ _ ↦ trivial⟩

theorem only_scheduleTaskEmail {toAddress : String} :
    (scheduleTaskEmail task toAddress).Only Aside := by
  refine only_access_aside (fun db ↦ ?_) fun db value after hok ↦ ?_
  · split
    · split_ifs <;> exact ⟨rfl, rfl⟩
    · exact isAside_other
  · obtain ⟨rows, _, hrest⟩ := bind_eq_ok.mp hok
    obtain ⟨_, rfl⟩ := Prod.mk.inj (Except.ok.inj hrest)
    exact ⟨isAside_other, rfl, rfl, rfl⟩

theorem only_run : task.run.Only Aside := by
  refine Call.only_bind.mpr ⟨?_, fun _ _ ↦ ?_⟩
  · refine only_access_aside (fun _ ↦ ⟨rfl, rfl⟩) fun db value after hok ↦ ?_
    obtain ⟨_, rfl⟩ := Prod.mk.inj (Except.ok.inj hok)
    exact ⟨isAside_other, handlers_publish, rfl, rfl⟩
  · split_ifs
    · refine Call.Only.handle (Call.only_bind.mpr ⟨only_readDatabase, fun email _ ↦ ?_⟩)
        fun _ ↦ trivial
      split
      · trivial
      · exact Call.only_bind.mpr ⟨only_scheduleTaskEmail, fun _ _ ↦ trivial⟩
    · trivial

theorem only_runTask {index : ℕ} : (runTask index).Only Aside := by
  refine Call.only_bind.mpr ⟨(Call.only_query _ _).mpr fun _ ↦ aside_refl isAside_other, fun task _ ↦ ?_⟩
  cases task with
  | none => trivial
  | some task => exact Call.only_bind.mpr ⟨only_run, fun _ _ ↦ trivial⟩

/-- The replay window's read, or the one of the unread count, and what is written then. -/
theorem only_readInto {use : Db → Db} (huse : ∀ db, Aside db .other (use db)) :
    (readInto use).Only Aside := by
  intro db
  refine ⟨?_, trivial⟩
  dsimp only
  split_ifs
  · exact huse db
  · exact aside_refl isAside_other

theorem only_writeConnected {index : ℕ} {userId tenantId : Uuid} :
    (writeConnected index userId tenantId).Only Aside :=
  only_readInto fun _ ↦ ⟨isAside_other, rfl, rfl, silent_updateStream fun _ ↦ silent_write⟩

theorem only_handleMessage_aside : Notifications.handleMessage.Only Aside := by
  refine (Call.only_atomically _ _).mpr fun db ↦ ?_
  cases db.pubSub.messages with
  | nil => exact aside_refl isAside_other
  | cons head rest => exact ⟨⟨rfl, rfl⟩, rfl, rfl, silent_deliver⟩

/-- A write that `Aside` does not speak of. -/
theorem only_write_aside {change : Db → Db} (hchange : ∀ db, Aside db .other (change db)) :
    (write change).Only Aside := (Call.only_atomically _ _).mpr hchange

/-- Scheduling a notification changes the outbox. -/
theorem aside_scheduleNotification {options : ScheduleNotificationOptions}
    (hok : scheduleNotification options db = .ok after) : Aside db .other after := by
  obtain ⟨_, _, hrest⟩ := bind_eq_ok.mp hok
  obtain ⟨_, _, hrest⟩ := bind_eq_ok.mp hrest
  split_ifs at hrest
  · obtain rfl := Except.ok.inj hrest
    exact ⟨isAside_other, rfl, rfl, rfl⟩
  · obtain rfl := Except.ok.inj hrest
    exact ⟨isAside_other, rfl, rfl, rfl⟩

theorem only_requestNotification_aside {options : ScheduleNotificationOptions} :
    (requestNotification options).Only Aside := by
  refine Call.only_attempt _ _ (fun _ _ _ ↦ aside_refl isAside_other) fun db value after hok ↦ ?_
  cases hschedule : scheduleNotification options db with
  | error failure => simp [hschedule, Except.map] at hok
  | ok scheduled =>
    rw [hschedule] at hok
    obtain ⟨_, rfl⟩ := Prod.mk.inj (Except.ok.inj hok)
    exact aside_scheduleNotification hschedule

theorem only_requestEmail_aside {options : ScheduleEmailOptions} : (requestEmail options).Only Aside := by
  refine Call.only_attempt _ _ (fun _ _ _ ↦ aside_refl isAside_other) fun db value after hok ↦ ?_
  cases hschedule : scheduleEmail options db.nextUuid db.now db.emailOutbox with
  | error failure => simp [hschedule, Except.map] at hok
  | ok rows =>
    rw [hschedule] at hok
    obtain ⟨_, rfl⟩ := Prod.mk.inj (Except.ok.inj hok)
    exact ⟨isAside_other, rfl, rfl, rfl⟩

theorem only_requestMarkRead_aside {userId notificationId : Uuid} :
    (requestMarkRead userId notificationId).Only Aside := by
  refine Call.only_bind.mpr ⟨(Call.only_query _ _).mpr fun _ ↦ aside_refl isAside_other,
    fun notification _ ↦ ?_⟩
  cases notification with
  | none => trivial
  | some notification =>
    dsimp only
    split_ifs
    · exact only_write_aside fun _ ↦ ⟨isAside_other, rfl, rfl, rfl⟩
    · trivial

/-- Every request but those that open and close an event stream leaves the subscriptions alone. -/
theorem only_serve_aside (request : NotificationRequest)
    (hstream : ∀ userId tenantId lastEventId, request ≠ .stream userId tenantId lastEventId)
    (hclose : ∀ number, request ≠ .close number) : request.serve.Only Aside := by
  have hwrite : ∀ change : Db → Db, (∀ db, Aside db .other (change db)) →
      ((fun _ ↦ none) <$> write change : NotificationCall TaskRun).Only Aside :=
    fun change hchange ↦ Call.only_map (only_write_aside hchange)
  cases request with
  | scheduleNotification options => exact Call.only_map only_requestNotification_aside
  | scheduleEmail options => exact Call.only_map only_requestEmail_aside
  | relayNotifications process =>
    exact Call.only_map (only_relay (fun _ ↦ only_processNotification_aside)
      fun _ _ ↦ ⟨isAside_other, rfl, rfl, rfl⟩)
  | relayEmails process =>
    exact Call.only_map (only_relay (fun _ ↦ only_processEmail)
      fun _ _ ↦ ⟨isAside_other, rfl, rfl, rfl⟩)
  | runTask index => exact only_runTask
  | upsertPreference input => exact hwrite _ fun _ ↦ ⟨isAside_other, rfl, rfl, rfl⟩
  | resetPreference tenantId userId type => exact hwrite _ fun _ ↦ ⟨isAside_other, rfl, rfl, rfl⟩
  | markRead userId notificationId => exact Call.only_map only_requestMarkRead_aside
  | markAllRead tenantId userId => exact hwrite _ fun _ ↦ ⟨isAside_other, rfl, rfl, rfl⟩
  | stream userId tenantId lastEventId => exact absurd rfl (hstream userId tenantId lastEventId)
  | close number => exact absurd rfl (hclose number)
  | handleMessage => exact Call.only_map only_handleMessage_aside
  | takeCommand =>
    refine Call.only_map ((Call.only_atomically _ _).mpr fun db ↦ ?_)
    exact ⟨isAside_other, handlers_takeCommand, rfl, rfl⟩
  | abort number =>
    exact Call.only_map ((Call.only_atomically _ _).mpr fun _ ↦ ⟨isAside_other, rfl, rfl, rfl⟩)
  | changeHealth resource health => exact hwrite _ fun _ ↦ ⟨isAside_other, rfl, rfl, rfl⟩
  | changeUsers users => exact hwrite _ fun _ ↦ ⟨isAside_other, rfl, rfl, rfl⟩
  | tick milliseconds => exact hwrite _ fun _ ↦ ⟨isAside_other, rfl, rfl, rfl⟩

end Requests

end RallyApi.Notifications

import RallyApi.Notifications.System

/-!
# What the steps of the pipeline do

`Effect` says what a step of the pipeline can do, whichever call takes it: the tables only grow, the
relays change nothing of a row but its status (`content`), a step that reports something has a reason to
(`Reports`), and messages and responses change in the ways of `Delivers`. `Consistent` is what holds of the
store between the steps: identifiers are distinct, a post-commit task that is due is backed by a scheduled
row and its notification, no e-mail names its recipient, and a row that must not be forgotten is only
marked as sent with a task for its e-mail.

A step is `Sound` when, from a consistent store, it has such an effect and leaves the store consistent. The
section per statement shows that each is.
-/

set_option autoImplicit false
set_option relaxedAutoImplicit false

namespace RallyApi.Notifications

open Concurrency Outbox Platform Store

/-! ### What lasts -/

/-- A row of the outbox without the columns a relay writes. -/
def NotificationOutboxRow.content (row : NotificationOutboxRow) : NotificationOutboxRow :=
  { row with status := .pending, attempts := 0, lastError := none, sentAt := none }

/-- A notification without the columns that say whether it has been read. -/
def InAppNotification.content (notification : InAppNotification) : InAppNotification :=
  { notification with isRead := false, readAt := none }

/-- The row is in the outbox, whatever a relay has made of its status. -/
def NotificationOutboxRow.Scheduled (row : NotificationOutboxRow) (db : Db) : Prop :=
  row.content ∈ db.notificationOutbox.map NotificationOutboxRow.content

/-- The notification is the one that was created for the row. -/
def InAppNotification.CreatedFor (notification : InAppNotification) (row : NotificationOutboxRow) :
    Prop :=
  notification.tenantId = row.tenantId ∧
    ∃ source, row.sourceEventId = .ok source ∧ notification.sourceEventId = some source

/-- The row of a post-commit task is scheduled, and its notification has been created. -/
def PostCommitTask.Backed (task : PostCommitTask) (db : Db) : Prop :=
  task.row.Scheduled db ∧ ∃ notification ∈ db.inAppNotifications,
    notification.payload = task.payload.stored ∧ notification.CreatedFor task.row

/-- The state of the store between the steps. Assumes: `expects` are the rows that must not be
forgotten. -/
structure Consistent (expects : RowId → Prop) (db : Db) : Prop where
  outboxIds : (db.notificationOutbox.map fun row ↦ row.id).Nodup
  notificationIds : (db.inAppNotifications.map InAppNotification.id).Nodup
  sources : (db.inAppNotifications.map InAppNotification.sourceEventId).Nodup
  tasks : ∀ task ∈ db.tasks, task.Backed db
  emails : ∀ row ∈ db.emailOutbox, row.recipientId = none
  sent : ∀ row ∈ db.notificationOutbox, expects row.id → row.status = .sent →
    ∃ task ∈ db.tasks, task.row.id = row.id ∧ task.emailEnabled = true

/-! ### What a step can do -/

/-- What a step can make of a response, with the notifications it finds: nothing, the unread count, the
replay of what was missed, or the next phase. -/
inductive Stream.Advances (notifications : List InAppNotification) : Stream → Stream → Prop
  | idle (stream : Stream) : stream.Advances notifications stream
  | connected (stream : Stream) (unreadCount : ℕ) :
    stream.Advances notifications (stream.write [.connected unreadCount])
  | skip (stream : Stream) (hfirst : stream.lastEventId = none) :
    stream.Advances notifications { stream with phase := .replayed }
  | replay (stream : Stream) (afterId : Uuid) (hafter : stream.lastEventId = some afterId) :
    stream.Advances notifications (stream.replay afterId notifications)
  | live (stream : Stream) (hphase : stream.phase ≠ .connecting) :
    stream.Advances notifications { stream with phase := .live }

/-- A response nothing has been written to. -/
def Stream.Opened (stream : Stream) : Prop :=
  stream.phase = .connecting ∧ stream.output = [] ∧ stream.writable = true

/-- What a step can make of the responses: each advances, and others are opened. -/
structure StreamsAdvance (notifications : List InAppNotification) (before after : List Stream) : Prop
    where
  length : before.length ≤ after.length
  advances : ∀ (number : ℕ) (old stream : Stream), before[number]? = some old →
    after[number]? = some stream → old.Advances notifications stream
  opened : ∀ (number : ℕ) (stream : Stream), before.length ≤ number → after[number]? = some stream →
    stream.Opened

/-- What a step makes of the messages and the responses. -/
def Delivers (before after : Db) : NotificationStep → Prop
  | .published payload => after.streams = before.streams ∧ after.pubSub.messages =
      (before.pubSub.publish (before.userChannel payload.recipientId) payload).messages
  | .message channel payload => after.streams = before.deliver channel payload ∧
      before.pubSub.messages = (channel, payload) :: after.pubSub.messages
  | .closed number => after.pubSub.messages = before.pubSub.messages ∧
      after.streams = before.streams.modify number fun stream ↦ { stream with writable := false }
  | _ => after.pubSub.messages = before.pubSub.messages ∧
      StreamsAdvance before.inAppNotifications before.streams after.streams

/-- The reason a step has to report what it does. -/
def Reports (before after : Db) : NotificationStep → Prop
  | .inserted row created => row.Scheduled before ∧ ∀ id, created = some id →
      ∃ source, row.sourceEventId = .ok source ∧
        some source ∉ before.inAppNotifications.map InAppNotification.sourceEventId ∧
        some source ∈ after.inAppNotifications.map InAppNotification.sourceEventId
  | .emailScheduled row notificationId =>
      (∃ task ∈ before.tasks, task.row = row ∧ task.notificationId = notificationId) ∧
        some (notificationEmailKey notificationId) ∉
          before.emailOutbox.map EmailOutboxRow.idempotencyKey ∧
        some (notificationEmailKey notificationId) ∈
          after.emailOutbox.map EmailOutboxRow.idempotencyKey
  | .published payload => ∃ task ∈ before.tasks, task.payload = payload
  | .emailProcessed _ _ dispatch => dispatch ≠ .suppressed
  | _ => True

/-- What a step of the pipeline can do. -/
structure Effect (before : Db) (label : NotificationStep) (after : Db) : Prop where
  outbox : before.notificationOutbox.map NotificationOutboxRow.content <+:
    after.notificationOutbox.map NotificationOutboxRow.content := by exact List.prefix_refl _
  notifications : before.inAppNotifications.map InAppNotification.content <+:
    after.inAppNotifications.map InAppNotification.content := by exact List.prefix_refl _
  emails : before.emailOutbox.map EmailOutboxRow.idempotencyKey <+:
    after.emailOutbox.map EmailOutboxRow.idempotencyKey := by exact List.prefix_refl _
  tasks : before.tasks <+: after.tasks := by exact List.prefix_refl _
  reports : Reports before after label
  delivers : Delivers before after label

/-- From a consistent store, the step has such an effect and leaves the store consistent. -/
def Sound (expects : RowId → Prop) (before : Db) (label : NotificationStep) (after : Db) : Prop :=
  Consistent expects before → Effect before label after ∧ Consistent expects after

section Lasting

variable {before after : Db} {label : NotificationStep} {row : NotificationOutboxRow}
  {task : PostCommitTask} {notification : InAppNotification}

@[simp]
theorem content_sourceEventId : row.content.sourceEventId = row.sourceEventId := rfl

theorem NotificationOutboxRow.scheduled_of_mem (hrow : row ∈ after.notificationOutbox) :
    row.Scheduled after := List.mem_map_of_mem hrow

/-- A scheduled row stays scheduled. -/
theorem NotificationOutboxRow.Scheduled.mono (hrow : row.Scheduled before)
    (heffect : Effect before label after) : row.Scheduled after := heffect.outbox.subset hrow

/-- A notification stays, but for whether it has been read. -/
theorem Effect.exists_later (heffect : Effect before label after)
    (hnotification : notification ∈ before.inAppNotifications) :
    ∃ later ∈ after.inAppNotifications, later.content = notification.content :=
  List.mem_map.mp (heffect.notifications.subset (List.mem_map_of_mem hnotification))

/-- The payload of a notification does not depend on whether it has been read. -/
theorem payload_eq {later : InAppNotification} (hsame : later.content = notification.content) :
    later.payload = notification.payload := by
  change later.content.payload = notification.content.payload
  rw [hsame]

theorem NotificationPubSubPayload.Shows.congr {later : InAppNotification}
    {payload : NotificationPubSubPayload} (hshows : payload.Shows notification)
    (hsame : later.content = notification.content) : payload.Shows later := by
  unfold NotificationPubSubPayload.Shows
  rw [payload_eq hsame]
  exact hshows

/-- Nor does the row it was created for. -/
theorem InAppNotification.CreatedFor.congr {later : InAppNotification}
    (hcreated : notification.CreatedFor row) (hsame : later.content = notification.content) :
    later.CreatedFor row := by
  change later.content.CreatedFor row
  rw [hsame]
  exact hcreated

/-- A task stays backed. -/
theorem PostCommitTask.Backed.mono (hbacked : task.Backed before)
    (heffect : Effect before label after) : task.Backed after := by
  obtain ⟨hrow, notification, hnotification, hpayload, hcreated⟩ := hbacked
  obtain ⟨later, hlater, hsame⟩ := heffect.exists_later hnotification
  exact ⟨hrow.mono heffect, later, hlater, (payload_eq hsame).trans hpayload, hcreated.congr hsame⟩

end Lasting

/-! ### Responses -/

section Streams

variable {notifications : List InAppNotification} {before after : List Stream} {stream : Stream}
  {number : ℕ} {change : Stream → Stream}

theorem streamsAdvance_refl : StreamsAdvance notifications before before where
  length := Nat.le_refl _
  advances number old stream hold hstream := by
    obtain rfl := Option.some.inj (hold.symm.trans hstream)
    exact .idle old
  opened number stream hlength hstream := by
    rw [List.getElem?_eq_none hlength] at hstream
    cases hstream

/-- One more response. -/
theorem streamsAdvance_append (hopened : stream.Opened) :
    StreamsAdvance notifications before (before ++ [stream]) where
  length := by simp
  advances number old stream hold hstream := by
    rw [List.getElem?_append_left (List.getElem?_eq_some_iff.mp hold).1, hold] at hstream
    obtain rfl := Option.some.inj hstream
    exact .idle old
  opened number other hlength hother := by
    rw [List.getElem?_append_right hlength, List.getElem?_singleton] at hother
    split_ifs at hother
    obtain rfl := Option.some.inj hother
    exact hopened

/-- A change of one of the responses. Assumes: it is a way to advance. -/
theorem streamsAdvance_modify
    (hchange : ∀ stream, before[number]? = some stream →
      stream.Advances notifications (change stream)) :
    StreamsAdvance notifications before (before.modify number change) where
  length := by rw [List.length_modify]
  advances other old stream hold hstream := by
    rw [List.getElem?_modify, hold] at hstream
    split_ifs at hstream with hsame
    · subst hsame
      obtain rfl := Option.some.inj hstream
      exact hchange old hold
    · obtain rfl := Option.some.inj hstream
      exact .idle old
  opened other stream hlength hstream := by
    rw [List.getElem?_modify, List.getElem?_eq_none hlength] at hstream
    cases hstream

end Streams

/-- A response later in its life: it is the same client's, what was written is written, and what has been
replayed or closed stays so. -/
structure Stream.Continues (old later : Stream) : Prop where
  userId : later.userId = old.userId := by rfl
  tenantId : later.tenantId = old.tenantId := by rfl
  lastEventId : later.lastEventId = old.lastEventId := by rfl
  output : old.output <+: later.output := by exact List.prefix_refl _
  phase : old.phase ≠ .connecting → later.phase ≠ .connecting := by exact id
  writable : later.writable = true → old.writable = true := by exact id

section Continues

variable {notifications : List InAppNotification} {old later stream : Stream} {before after : Db}
  {label : NotificationStep} {number : ℕ} {events : List SseEvent}

theorem continues_refl : stream.Continues stream where
  userId := rfl
  tenantId := rfl
  lastEventId := rfl
  output := List.prefix_refl _
  phase := id
  writable := id

theorem continues_write : stream.Continues (stream.write events) := by
  unfold Stream.write
  split_ifs
  · exact { (continues_refl : stream.Continues stream) with output := List.prefix_append _ _ }
  · exact continues_refl

theorem Stream.Advances.continues (hadvances : old.Advances notifications later) :
    old.Continues later := by
  cases hadvances with
  | idle => exact continues_refl
  | connected unreadCount => exact continues_write
  | skip hfirst => exact { (continues_refl : old.Continues old) with phase := fun _ ↦ by simp }
  | replay afterId hafter =>
    exact { (continues_write : old.Continues (old.write _)) with phase := fun _ ↦ by simp [Stream.replay] }
  | live hphase => exact { (continues_refl : old.Continues old) with phase := fun _ ↦ by simp }

/-- A response after a step. -/
theorem Effect.continues (heffect : Effect before label after)
    (hold : before.streams[number]? = some old) :
    ∃ later, after.streams[number]? = some later ∧ old.Continues later := by
  have hdelivers := heffect.delivers
  have hquiet : StreamsAdvance before.inAppNotifications before.streams after.streams →
      ∃ later, after.streams[number]? = some later ∧ old.Continues later := by
    intro hadvance
    have hlength := Nat.lt_of_lt_of_le (List.getElem?_eq_some_iff.mp hold).1 hadvance.length
    have hlater := List.getElem?_eq_getElem hlength
    exact ⟨_, hlater, (hadvance.advances number old _ hold hlater).continues⟩
  cases label with
  | published payload => exact ⟨old, hdelivers.1 ▸ hold, continues_refl⟩
  | message channel payload =>
    rw [hdelivers.1, Db.deliver, List.getElem?_mapIdx, hold]
    refine ⟨_, rfl, ?_⟩
    split_ifs
    · exact continues_write
    · exact continues_refl
  | closed closing =>
    rw [hdelivers.2, List.getElem?_modify, hold]
    refine ⟨_, rfl, ?_⟩
    split_ifs
    · exact { (continues_refl : old.Continues old) with writable := fun hfalse ↦ by cases hfalse }
    · exact continues_refl
  | _ => exact hquiet hdelivers.2

/-- What has become of a response in a step: it was opened, it has advanced, a message has reached it, or
its connection has ended. -/
inductive Stream.Becomes (before : Db) (number : ℕ) (stream : Stream) : NotificationStep → Prop
  | opened (label : NotificationStep) (hnew : before.streams.length ≤ number)
      (hopened : stream.Opened) : stream.Becomes before number label
  | advanced (label : NotificationStep) (old : Stream) (hold : before.streams[number]? = some old)
      (hadvances : old.Advances before.inAppNotifications stream) :
    stream.Becomes before number label
  | reached (channel : Channel) (payload : NotificationPubSubPayload) (old : Stream)
      (hold : before.streams[number]? = some old)
      (hhandler : number ∈ (before.pubSub.handlers channel).getD [])
      (hwrite : stream = old.write [.notification payload]) :
    stream.Becomes before number (.message channel payload)
  | ended (old : Stream) (hold : before.streams[number]? = some old)
      (hended : stream = { old with writable := false }) : stream.Becomes before number (.closed number)

/-- Every response after a step has become so. -/
theorem Effect.becomes (heffect : Effect before label after)
    (hstream : after.streams[number]? = some stream) : stream.Becomes before number label := by
  have hdelivers := heffect.delivers
  have hquiet : StreamsAdvance before.inAppNotifications before.streams after.streams →
      stream.Becomes before number label := by
    intro hadvance
    rcases Nat.lt_or_ge number before.streams.length with hlt | hge
    · have hold := List.getElem?_eq_getElem hlt
      exact .advanced label _ hold (hadvance.advances number _ stream hold hstream)
    · exact .opened label hge (hadvance.opened number stream hge hstream)
  cases label with
  | published payload =>
    rw [hdelivers.1] at hstream
    exact .advanced _ stream hstream (.idle stream)
  | message channel payload =>
    rw [hdelivers.1, Db.deliver, List.getElem?_mapIdx] at hstream
    obtain ⟨old, hold, hchange⟩ := Option.map_eq_some_iff.mp hstream
    split_ifs at hchange with hhandler
    · exact .reached channel payload old hold hhandler hchange.symm
    · exact .advanced _ old hold (hchange ▸ .idle old)
  | closed closing =>
    rw [hdelivers.2, List.getElem?_modify] at hstream
    obtain ⟨old, hold, hchange⟩ := Option.map_eq_some_iff.mp hstream
    split_ifs at hchange with hsame
    · subst hsame
      exact .ended old hold hchange.symm
    · exact .advanced _ old hold (hchange ▸ .idle old)
  | _ => exact hquiet hdelivers.2

/-- A message on its way was on its way before, or has just been published. -/
theorem Effect.mem_messages (heffect : Effect before label after)
    {message : Channel × NotificationPubSubPayload} (hmessage : message ∈ after.pubSub.messages) :
    message ∈ before.pubSub.messages ∨ label = .published message.2 := by
  have hdelivers := heffect.delivers
  cases label with
  | published payload =>
    rw [hdelivers.2, PubSub.publish] at hmessage
    split_ifs at hmessage
    · rcases List.mem_append.mp hmessage with hold | hnew
      · exact .inl hold
      · exact .inr (by rw [List.mem_singleton.mp hnew])
    · exact .inl hmessage
  | message channel payload =>
    rw [hdelivers.2]
    exact .inl (.tail _ hmessage)
  | closed closing => exact .inl (hdelivers.1 ▸ hmessage)
  | _ => exact .inl (hdelivers.1 ▸ hmessage)

end Continues

/-! ### Statements -/

section Statements

variable {expects : RowId → Prop} {before after : Db} {label : NotificationStep}

/-- A label that reports nothing about the tables, the messages or the responses. -/
def NotificationStep.Silent : NotificationStep → Prop
  | .other | .subscribing .. | .registered .. | .unsubscribed .. | .resumed .. => True
  | _ => False

theorem silent_other : NotificationStep.other.Silent := trivial

theorem reports_of_silent (hlabel : label.Silent) : Reports before after label := by
  cases label <;> trivial

theorem delivers_of_silent (hlabel : label.Silent)
    (hmessages : after.pubSub.messages = before.pubSub.messages)
    (hstreams : StreamsAdvance before.inAppNotifications before.streams after.streams) :
    Delivers before after label := by
  cases label <;> first | exact ⟨hmessages, hstreams⟩ | exact hlabel.elim

/-- A step that leaves the tables and the tasks as they are. Assumes: it reports with reason, and what it
makes of the messages and the responses is allowed. -/
theorem sound_of_tables (houtbox : after.notificationOutbox = before.notificationOutbox)
    (hemails : after.emailOutbox = before.emailOutbox)
    (hnotifications : after.inAppNotifications = before.inAppNotifications)
    (htasks : after.tasks = before.tasks)
    (hreports : Consistent expects before → Reports before after label)
    (hdelivers : Delivers before after label) : Sound expects before label after := by
  intro hconsistent
  have heffect : Effect before label after :=
    { outbox := houtbox ▸ List.prefix_refl _
      notifications := hnotifications ▸ List.prefix_refl _
      emails := hemails ▸ List.prefix_refl _
      tasks := htasks ▸ List.prefix_refl _
      reports := hreports hconsistent
      delivers := hdelivers }
  refine ⟨heffect, ?_⟩
  exact {
    outboxIds := by rw [houtbox]; exact hconsistent.outboxIds
    notificationIds := by rw [hnotifications]; exact hconsistent.notificationIds
    sources := by rw [hnotifications]; exact hconsistent.sources
    tasks := by
      rw [htasks]
      exact fun task htask ↦ (hconsistent.tasks task htask).mono heffect
    emails := by rw [hemails]; exact hconsistent.emails
    sent := by rw [houtbox, htasks]; exact hconsistent.sent }

/-- A step that nobody takes note of. -/
theorem sound_silent (hlabel : label.Silent)
    (houtbox : after.notificationOutbox = before.notificationOutbox)
    (hemails : after.emailOutbox = before.emailOutbox)
    (hnotifications : after.inAppNotifications = before.inAppNotifications)
    (htasks : after.tasks = before.tasks)
    (hmessages : after.pubSub.messages = before.pubSub.messages)
    (hstreams : after.streams = before.streams) : Sound expects before label after := by
  refine sound_of_tables houtbox hemails hnotifications htasks (fun _ ↦ reports_of_silent hlabel) ?_
  refine delivers_of_silent hlabel hmessages ?_
  rw [hstreams]
  exact streamsAdvance_refl

theorem sound_refl (hlabel : label.Silent) : Sound expects before label before :=
  sound_silent hlabel rfl rfl rfl rfl rfl rfl

/-- `NotificationSchedulerService.schedule`. -/
theorem sound_scheduleNotification {options : ScheduleNotificationOptions}
    (hok : scheduleNotification options before = .ok after) :
    Sound expects before .other after := by
  rcases scheduleNotification_cases hok with ⟨rfl, _⟩ | ⟨rfl, _, hfresh⟩
  · exact sound_silent trivial rfl rfl rfl rfl rfl rfl
  · intro hconsistent
    have heffect : Effect before .other { before.draw with
        notificationOutbox :=
          before.notificationOutbox ++ [options.row before.nextUuid before.now] } :=
      { outbox := by
          rw [List.map_append]
          exact List.prefix_append _ _
        notifications := List.prefix_refl _
        emails := List.prefix_refl _
        tasks := List.prefix_refl _
        reports := trivial
        delivers := ⟨rfl, streamsAdvance_refl⟩ }
    refine ⟨heffect, { hconsistent with
      outboxIds := nodup_map_append_singleton hconsistent.outboxIds hfresh
      tasks := fun task htask ↦ (hconsistent.tasks task htask).mono heffect
      sent := fun row hrow hexpected hsent ↦ ?_ }⟩
    rcases List.mem_append.mp hrow with hold | hnew
    · exact hconsistent.sent row hold hexpected hsent
    · rw [List.mem_singleton.mp hnew] at hsent
      cases hsent

/-- An insert of the e-mail scheduler. Assumes: the step reports with reason. -/
theorem sound_scheduleEmail {options : ScheduleEmailOptions} {emailOutbox : List EmailOutboxRow}
    (hok : scheduleEmail options before.nextUuid before.now before.emailOutbox = .ok emailOutbox)
    (hreports : Reports before { before.draw with emailOutbox } label)
    (hdelivers : Delivers before { before.draw with emailOutbox } label) :
    Sound expects before label { before.draw with emailOutbox } := by
  rcases scheduleEmail_cases hok with ⟨rfl, _⟩ | ⟨rfl, _⟩
  · exact sound_of_tables rfl rfl rfl rfl (fun _ ↦ hreports) hdelivers
  · intro hconsistent
    have heffect : Effect before label { before.draw with
        emailOutbox := before.emailOutbox ++ [options.row before.nextUuid before.now] } :=
      { outbox := List.prefix_refl _
        notifications := List.prefix_refl _
        emails := by
          rw [List.map_append]
          exact List.prefix_append _ _
        tasks := List.prefix_refl _
        reports := hreports
        delivers := hdelivers }
    refine ⟨heffect, { hconsistent with
      tasks := fun task htask ↦ (hconsistent.tasks task htask).mono heffect
      emails := fun row hrow ↦ ?_ }⟩
    rcases List.mem_append.mp hrow with hold | hnew
    · exact hconsistent.emails row hold
    · rw [List.mem_singleton.mp hnew]
      rfl

/-- `NotificationsService.send`. Assumes: the row is scheduled. -/
theorem sound_send {row : NotificationOutboxRow} {rendered : RenderedNotification}
    {created : Option InAppNotification} (hrow : row.Scheduled before)
    (hok : createNotification (row.input rendered) before = .ok (created, after)) :
    Sound expects before (.inserted row (created.map InAppNotification.id)) after := by
  obtain ⟨source, hsource, hrest⟩ := bind_eq_ok.mp hok
  obtain ⟨_, _, hrest⟩ := bind_eq_ok.mp hrest
  split_ifs at hrest with htaken hid
  · obtain ⟨rfl, rfl⟩ := Prod.mk.inj (Except.ok.inj hrest)
    refine sound_of_tables rfl rfl rfl rfl (fun _ ↦ ⟨hrow, ?_⟩) ⟨rfl, streamsAdvance_refl⟩
    rintro _ ⟨⟩
  · obtain ⟨rfl, rfl⟩ := Prod.mk.inj (Except.ok.inj hrest)
    intro hconsistent
    have heffect : Effect before
        (.inserted row (some (((row.input rendered).row before.nextUuid source before.now).id)))
        { before.draw with inAppNotifications := before.inAppNotifications ++
          [(row.input rendered).row before.nextUuid source before.now] } :=
      { outbox := List.prefix_refl _
        notifications := by
          rw [List.map_append]
          exact List.prefix_append _ _
        emails := List.prefix_refl _
        tasks := List.prefix_refl _
        reports := ⟨hrow, fun _ _ ↦ ⟨source, hsource, htaken, by
          simp [CreateNotificationInput.row]⟩⟩
        delivers := ⟨rfl, streamsAdvance_refl⟩ }
    exact ⟨heffect, { hconsistent with
      notificationIds := nodup_map_append_singleton hconsistent.notificationIds hid
      sources := nodup_map_append_singleton hconsistent.sources htaken
      tasks := fun task htask ↦ (hconsistent.tasks task htask).mono heffect }⟩

/-- `markRead` and `markAllRead`. -/
theorem sound_markRead {condition : InAppNotification → Bool} :
    Sound expects before .other { before with
      inAppNotifications := updateWhere condition (InAppNotification.markedRead before.now)
        before.inAppNotifications } := by
  intro hconsistent
  have hcontent : (updateWhere condition (InAppNotification.markedRead before.now)
      before.inAppNotifications).map InAppNotification.content =
        before.inAppNotifications.map InAppNotification.content := map_updateWhere fun _ ↦ rfl
  have heffect : Effect before .other { before with
      inAppNotifications := updateWhere condition (InAppNotification.markedRead before.now)
        before.inAppNotifications } :=
    { outbox := List.prefix_refl _
      notifications := hcontent ▸ List.prefix_refl _
      emails := List.prefix_refl _
      tasks := List.prefix_refl _
      reports := trivial
      delivers := ⟨rfl, streamsAdvance_refl⟩ }
  exact ⟨heffect, { hconsistent with
    notificationIds := nodup_map_updateWhere (fun _ ↦ rfl) hconsistent.notificationIds
    sources := nodup_map_updateWhere (fun _ ↦ rfl) hconsistent.sources
    tasks := fun task htask ↦ (hconsistent.tasks task htask).mono heffect }⟩

/-- The writes of a relay leave the columns alone that no `UPDATE` sets. -/
theorem map_apply {Row Column : Type} (service : RelayService Row) (column : Row → Column)
    (hcolumn : ∀ (write : Write) (row : Row),
      column (service.setColumns (write.set (service.columns row)) row) = column row)
    (writes : List Write) (rows : List Row) :
    (service.apply writes rows).map column = rows.map column := by
  unfold RelayService.apply
  induction writes generalizing rows with
  | nil => rfl
  | cons write rest ih =>
    rw [List.foldl_cons, ih]
    exact map_updateWhere (hcolumn write)

/-- A row after the writes of a relay: its status is that of before, or one of the writes has set it. -/
theorem mem_apply {writes : List Write} {rows : List NotificationOutboxRow} {row : NotificationOutboxRow}
    (hrow : row ∈ notificationRelay.apply writes rows) :
    ∃ old ∈ rows, old.id = row.id ∧
      (row.status = old.status ∨ ∃ write ∈ writes, write.rowId = row.id ∧ write.status = row.status) := by
  unfold RelayService.apply at hrow
  induction writes generalizing rows with
  | nil => exact ⟨row, hrow, rfl, .inl rfl⟩
  | cons write rest ih =>
    obtain ⟨middle, hmiddle, hid, hstatus⟩ := ih hrow
    obtain ⟨old, hold, hset⟩ := mem_updateWhere.mp hmiddle
    split_ifs at hset with hmatches
    · have hmatches : old.id = write.rowId := of_decide_eq_true hmatches
      have hsame : middle.id = old.id := by
        rw [hset]
        exact Write.set_id write _
      have hwritten : middle.status = write.status := by
        rw [hset]
        exact Write.set_status write _
      refine ⟨old, hold, hsame.symm.trans hid, .inr ?_⟩
      rcases hstatus with hkept | ⟨later, hlater, hother⟩
      · refine ⟨write, .head _, ?_, hwritten.symm.trans hkept.symm⟩
        rw [← hmatches, ← hsame, hid]
      · exact ⟨later, .tail _ hlater, hother⟩
    · subst hset
      refine ⟨middle, hold, hid, hstatus.imp_right ?_⟩
      rintro ⟨later, hlater, hother⟩
      exact ⟨later, .tail _ hlater, hother⟩

/-- What a relay makes of a row it marks as sent. Assumes: `expects` are the rows that must not be
forgotten. They have a task that is backed and sends their e-mail. -/
def Settles (expects : RowId → Prop) (id : RowId) (task : Option PostCommitTask) (db : Db) : Prop :=
  (∀ due ∈ task, due.Backed db) ∧
    (expects id → ∃ due ∈ task, due.row.id = id ∧ due.emailEnabled = true)

/-- The writes and the tasks of an open transaction, as the rows it has settled. -/
def BatchTx.Settled (expects : RowId → Prop) (tx : BatchTx) (db : Db) : Prop :=
  (∀ task ∈ tx.postCommitTasks, task.Backed db) ∧
    ∀ write ∈ tx.writes, write.status = .sent → expects write.rowId →
      ∃ task ∈ tx.postCommitTasks, task.row.id = write.rowId ∧ task.emailEnabled = true

/-- The commit of `NotificationRelayService`. -/
theorem sound_commitNotifications {tx : BatchTx} {transactions : List OpenTransaction}
    (hsettled : tx.Settled expects before) :
    Sound expects before .other { before with
      notificationOutbox := notificationRelay.apply tx.writes before.notificationOutbox
      transactions
      tasks := before.tasks ++ tx.postCommitTasks } := by
  intro hconsistent
  have hcontent := map_apply notificationRelay NotificationOutboxRow.content
    (fun write row ↦ by cases write <;> rfl) tx.writes before.notificationOutbox
  have hids := map_apply notificationRelay (fun row ↦ row.id)
    (fun write row ↦ by cases write <;> rfl) tx.writes before.notificationOutbox
  have heffect : Effect before .other { before with
      notificationOutbox := notificationRelay.apply tx.writes before.notificationOutbox
      transactions
      tasks := before.tasks ++ tx.postCommitTasks } :=
    { outbox := hcontent ▸ List.prefix_refl _
      notifications := List.prefix_refl _
      emails := List.prefix_refl _
      tasks := List.prefix_append _ _
      reports := trivial
      delivers := ⟨rfl, streamsAdvance_refl⟩ }
  refine ⟨heffect, { hconsistent with
    outboxIds := hids ▸ hconsistent.outboxIds
    tasks := fun task htask ↦ ?_
    sent := fun row hrow hexpected hsent ↦ ?_ }⟩
  · rcases List.mem_append.mp htask with hold | hnew
    · exact (hconsistent.tasks task hold).mono heffect
    · exact (hsettled.1 task hnew).mono heffect
  · obtain ⟨old, hold, hid, hstatus⟩ := mem_apply hrow
    rcases hstatus with hkept | ⟨write, hwrite, hmatches, hset⟩
    · obtain ⟨task, htask, hfor⟩ :=
        hconsistent.sent old hold (hid ▸ hexpected) (hkept.symm.trans hsent)
      exact ⟨task, List.mem_append_left _ htask, hid ▸ hfor⟩
    · obtain ⟨task, htask, hfor⟩ :=
        hsettled.2 write hwrite (hset.trans hsent) (hmatches ▸ hexpected)
      exact ⟨task, List.mem_append_right _ htask, hmatches ▸ hfor⟩

/-- The commit of `EmailRelayService`. -/
theorem sound_commitEmails {tx : BatchTx} {transactions : List OpenTransaction}
    (htasks : ∀ task ∈ tx.postCommitTasks, task.Backed before) :
    Sound expects before .other { before with
      emailOutbox := emailRelay.apply tx.writes before.emailOutbox
      transactions
      tasks := before.tasks ++ tx.postCommitTasks } := by
  intro hconsistent
  have hkeys := map_apply emailRelay EmailOutboxRow.idempotencyKey
    (fun write row ↦ by cases write <;> rfl) tx.writes before.emailOutbox
  have hrecipients := map_apply emailRelay EmailOutboxRow.recipientId
    (fun write row ↦ by cases write <;> rfl) tx.writes before.emailOutbox
  have heffect : Effect before .other { before with
      emailOutbox := emailRelay.apply tx.writes before.emailOutbox
      transactions
      tasks := before.tasks ++ tx.postCommitTasks } :=
    { outbox := List.prefix_refl _
      notifications := List.prefix_refl _
      emails := hkeys ▸ List.prefix_refl _
      tasks := List.prefix_append _ _
      reports := trivial
      delivers := ⟨rfl, streamsAdvance_refl⟩ }
  refine ⟨heffect, { hconsistent with
    tasks := fun task htask ↦ ?_
    emails := fun row hrow ↦ ?_
    sent := fun row hrow hexpected hsent ↦ ?_ }⟩
  · rcases List.mem_append.mp htask with hold | hnew
    · exact (hconsistent.tasks task hold).mono heffect
    · exact (htasks task hnew).mono heffect
  · have hmem : row.recipientId ∈ before.emailOutbox.map EmailOutboxRow.recipientId :=
      hrecipients ▸ List.mem_map_of_mem hrow
    obtain ⟨old, hold, hsame⟩ := List.mem_map.mp hmem
    rw [← hsame]
    exact hconsistent.emails old hold
  · obtain ⟨task, htask, hfor⟩ := hconsistent.sent row hrow hexpected hsent
    exact ⟨task, List.mem_append_left _ htask, hfor⟩

/-- `notifyUser`. Assumes: the payload is that of a task that is due. -/
theorem sound_publish {task : PostCommitTask} (htask : task ∈ before.tasks) :
    Sound expects before (.published task.payload) { before with
      pubSub := before.pubSub.publish (before.userChannel task.payload.recipientId) task.payload } :=
  sound_of_tables rfl rfl rfl rfl (fun _ ↦ ⟨task, htask, rfl⟩) ⟨rfl, rfl⟩

/-- The end of a connection. -/
theorem sound_close {number : ℕ} :
    Sound expects before (.closed number)
      (before.updateStream number fun stream ↦ { stream with writable := false }) :=
  sound_of_tables rfl rfl rfl rfl (fun _ ↦ trivial) ⟨rfl, rfl⟩

/-- A message reaches the handlers of its channel. -/
theorem sound_message {channel : Channel} {payload : NotificationPubSubPayload}
    {rest : List (Channel × NotificationPubSubPayload)}
    (hmessages : before.pubSub.messages = (channel, payload) :: rest) :
    Sound expects before (.message channel payload) { before with
      pubSub := { before.pubSub with messages := rest }
      streams := before.deliver channel payload } :=
  sound_of_tables rfl rfl rfl rfl (fun _ ↦ trivial) ⟨rfl, hmessages⟩

/-- A step of `stream`. -/
theorem sound_streams {streams : List Stream}
    (hadvance : StreamsAdvance before.inAppNotifications before.streams streams) :
    Sound expects before .other { before with streams } :=
  sound_of_tables rfl rfl rfl rfl (fun _ ↦ trivial) ⟨rfl, hadvance⟩

end Statements

end RallyApi.Notifications

import RallyApi.Notifications.StreamTenants
import RallyApi.Paging.Keyset

/-!
# Gaps in the event streams

A client that reconnects with a `Last-Event-ID` is owed the notifications after it, as far as the replay
window reaches. `NoGap` says that a connection does not end before those that have been published are
written to it.

The replay reads the database once, and the live push starts with a later subscription. Once a stream is
past its replay, a published notification it still awaits (`Stream.Awaits`) depends on the push, which is
lost when Valkey does not have the process subscribed at that moment, or when the message finds no handler
of the stream. `reachable_noGap` shows that no connection ends with a gap in runs in which no push is lost
and none is under way at the end (`LosesNothing`); `missedPush` is a run with a notification between the
replay and the subscription.
-/

set_option autoImplicit false
set_option relaxedAutoImplicit false

namespace RallyApi.Notifications

open Concurrency Outbox Paging Platform Store

/-! ### What a stream owes its client -/

/-- How many notifications of the stream's user and tenant come after `afterId`, up to a notification. -/
def Stream.rank (stream : Stream) (afterId : Uuid) (notification : InAppNotification)
    (notifications : List InAppNotification) : ℕ :=
  notifications.countP fun row ↦ row.tenantId = stream.tenantId ∧ row.recipientId = stream.userId ∧
    afterId < row.id ∧ row.id ≤ notification.id

/-- The notification is there, one of the stream's user and tenant, after the `Last-Event-ID` and within
the replay window of 30. -/
def Stream.Owes (stream : Stream) (notification : InAppNotification)
    (notifications : List InAppNotification) : Prop :=
  notification ∈ notifications ∧ notification.tenantId = stream.tenantId ∧
    notification.recipientId = stream.userId ∧
    ∃ afterId ∈ stream.lastEventId, afterId < notification.id ∧
      stream.rank afterId notification notifications ≤ 30

/-- The event is about the notification. -/
def SseEvent.Shows (notification : InAppNotification) : SseEvent → Prop
  | .notification payload => payload.Shows notification
  | _ => False

theorem SseEvent.Shows.congr {notification later : InAppNotification} {event : SseEvent}
    (hshows : event.Shows notification) (hsame : later.content = notification.content) :
    event.Shows later := by
  cases event with
  | notification payload => exact NotificationPubSubPayload.Shows.congr hshows hsame
  | _ => exact hshows.elim

/-- The notification is written to the stream. -/
def Stream.Shows (stream : Stream) (notification : InAppNotification) : Prop :=
  ∃ event ∈ stream.output, event.Shows notification

/-- The stream is open and past its replay, and a notification it owes is not written yet. -/
def Stream.Awaits (stream : Stream) (notification : InAppNotification)
    (notifications : List InAppNotification) : Prop :=
  stream.writable = true ∧ stream.phase ≠ .connecting ∧ stream.Owes notification notifications ∧
    ¬ stream.Shows notification

/-- The notification a step publishes. -/
def NotificationStep.publishes : NotificationStep → Option Uuid
  | .published payload => some payload.notificationId
  | _ => none

/-- The notification has been published. -/
def InAppNotification.Published (notification : InAppNotification)
    (log : List (ℕ × NotificationStep)) : Prop :=
  ∃ entry ∈ log, entry.2.publishes = some notification.id

/-- A step that ends an open connection finds the notifications the stream owes, as far as they have been
published, written to it. -/
def NoGap (config after : NotificationConfig) : Prop :=
  ∀ (caller number : ℕ) (stream : Stream), after.log = (caller, .closed number) :: config.log →
    config.db.streams[number]? = some stream → stream.writable = true →
    ∀ notification, stream.Owes notification config.db.inAppNotifications →
      notification.Published config.log → stream.Shows notification

/-- No push is lost: a notification that a stream awaits is published while the process is subscribed, its
message finds the handler of the stream, and a connection that owes a published notification ends after
its replay, with no message about it under way. -/
def LosesNothing (world : World Db NotificationStep) : NotificationStep → Prop
  | .published payload => ∀ stream ∈ world.db.streams, ∀ notification ∈ world.db.inAppNotifications,
      notification.id = payload.notificationId →
      stream.Awaits notification world.db.inAppNotifications →
        world.db.pubSub.subscribed (world.db.userChannel payload.recipientId) = true
  | .message channel payload => ∀ (number : ℕ) (stream : Stream),
      world.db.streams[number]? = some stream → ∀ notification ∈ world.db.inAppNotifications,
      notification.id = payload.notificationId →
      stream.Awaits notification world.db.inAppNotifications →
        number ∈ (world.db.pubSub.handlers channel).getD []
  | .closed number => ∀ stream ∈ world.db.streams[number]?, stream.writable = true →
      ∀ notification ∈ world.db.inAppNotifications,
      stream.Owes notification world.db.inAppNotifications → notification.Published world.log →
        stream.phase ≠ .connecting ∧ ∀ message ∈ world.db.pubSub.messages,
          message.2.notificationId = notification.id → stream.Shows notification
  | _ => True

theorem publishes_eq_some {label : NotificationStep} {id : Uuid} :
    label.publishes = some id ↔ ∃ payload, label = .published payload ∧ payload.notificationId = id := by
  cases label <;> simp [NotificationStep.publishes]

/-! ### The replay -/

section Replay

variable {stream : Stream} {afterId : Uuid} {notification : InAppNotification}
  {notifications : List InAppNotification}

/-- What a stream owes is among what it has missed. -/
theorem Stream.Owes.mem_listMissed (howes : stream.Owes notification notifications)
    (hafter : stream.lastEventId = some afterId) :
    notification ∈ listMissed stream.tenantId stream.userId afterId notifications := by
  obtain ⟨hmem, htenant, huser, other, hother, hlater, hrank⟩ := howes
  obtain rfl := Option.some.inj (hother.symm.trans hafter)
  refine mem_take_ascending InAppNotification.id ?_ ?_
  · exact List.mem_filter.mpr ⟨hmem, decide_eq_true ⟨htenant, huser, hlater⟩⟩
  · rw [List.countP_filter]
    refine le_trans (List.countP_mono_left fun row _ hrow ↦ ?_) hrank
    simp only [Bool.and_eq_true, decide_eq_true_eq] at hrow ⊢
    exact ⟨hrow.2.1, hrow.2.2.1, hrow.2.2.2, hrow.1⟩

/-- The replay shows what the stream owes. -/
theorem Stream.Owes.shows_replay (howes : stream.Owes notification notifications)
    (hafter : stream.lastEventId = some afterId) (hwritable : stream.writable = true) :
    (stream.replay afterId notifications).Shows notification := by
  unfold Stream.Shows Stream.replay Stream.write
  rw [if_pos hwritable]
  exact ⟨_, List.mem_append_right _ (List.mem_map_of_mem (howes.mem_listMissed hafter)), .inl rfl⟩

end Replay

/-! ### The invariant -/

/-- A message about the notification is under way. -/
def InAppNotification.UnderWay (notification : InAppNotification) (db : Db) : Prop :=
  ∃ message ∈ db.pubSub.messages, message.2.Shows notification

/-- What has been published is there, and every open stream past its replay shows what it owes of it, or
the message is still under way. -/
structure GapsCovered (world : World Db NotificationStep) : Prop where
  published : ∀ entry ∈ world.log, ∀ payload, entry.2 = .published payload →
    ∃ notification ∈ world.db.inAppNotifications, payload.Shows notification
  covered : ∀ (number : ℕ) (stream : Stream), world.db.streams[number]? = some stream →
    stream.writable = true → stream.phase ≠ .connecting →
    ∀ notification, stream.Owes notification world.db.inAppNotifications →
      notification.Published world.log →
        stream.Shows notification ∨ notification.UnderWay world.db

section Steps

variable {world : World Db NotificationStep} {number : ℕ} {label : NotificationStep} {before after : Db}
  {stream old : Stream} {notification : InAppNotification} {expects : RowId → Prop}

/-- What is published is about a notification that is there. -/
theorem Effect.exists_published {payload : NotificationPubSubPayload}
    (heffect : Effect before (.published payload) after) (hconsistent : Consistent expects before) :
    ∃ notification ∈ before.inAppNotifications, payload.Shows notification := by
  obtain ⟨_, notification, hnotification, hsame, _⟩ := heffect.payloadOf hconsistent
  exact ⟨notification, hnotification, hsame⟩

/-- A published notification was there before the step, but for whether it has been read. Assumes: what has
been published before the step was there. -/
theorem GapsCovered.exists_before (hcovered : GapsCovered world)
    (hconsistent : Consistent expects world.db) (hafter : Consistent expects after)
    (heffect : Effect world.db label after) (hmem : notification ∈ after.inAppNotifications)
    (hpublished : notification.Published (world.after number label after).log) :
    ∃ earlier ∈ world.db.inAppNotifications, notification.content = earlier.content := by
  obtain ⟨entry, hentry, hpublishes⟩ := hpublished
  obtain ⟨payload, hlabel, hid⟩ := publishes_eq_some.mp hpublishes
  have hthere : ∃ earlier ∈ world.db.inAppNotifications, payload.Shows earlier := by
    rcases List.mem_cons.mp hentry with rfl | hold
    · subst hlabel
      exact heffect.exists_published hconsistent
    · exact hcovered.published entry hold payload hlabel
  obtain ⟨earlier, hearlier, hpayload⟩ := hthere
  obtain ⟨later, hlater, hcontent⟩ := heffect.exists_later hearlier
  have hkept : later.id = earlier.id := by
    change later.content.id = earlier.content.id
    rw [hcontent]
  have hsame : later.id = notification.id := by rw [hkept, ← hid, hpayload.notificationId]
  rw [List.inj_on_of_nodup_map hafter.notificationIds hlater hmem hsame] at hcontent
  exact ⟨earlier, hearlier, hcontent⟩

/-- The rank of a notification only grows. -/
theorem rank_le {earlier : InAppNotification} {afterId : Uuid} (heffect : Effect before label after)
    (hcontinues : old.Continues stream) (hcontent : notification.content = earlier.content) :
    old.rank afterId earlier before.inAppNotifications ≤
      stream.rank afterId notification after.inAppNotifications := by
  have hcontents : ∀ (reader : Stream) (last : InAppNotification) (rows : List InAppNotification),
      reader.rank afterId last rows =
        reader.rank afterId last.content (rows.map InAppNotification.content) := by
    intro reader last rows
    unfold Stream.rank
    rw [List.countP_map]
    rfl
  rw [hcontents, hcontents stream, hcontent]
  unfold Stream.rank
  rw [hcontinues.userId, hcontinues.tenantId]
  exact heffect.notifications.sublist.countP_le

/-- What a stream owes after a step, it owed before, if it was there. -/
theorem Stream.Owes.earlier {earlier : InAppNotification}
    (howes : stream.Owes notification after.inAppNotifications) (heffect : Effect before label after)
    (hcontinues : old.Continues stream) (hearlier : earlier ∈ before.inAppNotifications)
    (hcontent : notification.content = earlier.content) :
    old.Owes earlier before.inAppNotifications := by
  obtain ⟨_, htenant, huser, afterId, hafter, hlater, hrank⟩ := howes
  change notification.content.tenantId = _ at htenant
  change notification.content.recipientId = _ at huser
  change afterId < notification.content.id at hlater
  rw [hcontent] at htenant huser hlater
  exact ⟨hearlier, htenant.trans hcontinues.tenantId, huser.trans hcontinues.userId, afterId,
    hcontinues.lastEventId ▸ hafter, hlater, (rank_le heffect hcontinues hcontent).trans hrank⟩

theorem phase_write {events : List SseEvent} : (stream.write events).phase = stream.phase := by
  unfold Stream.write
  split_ifs <;> rfl

/-- What is written stays written. -/
theorem Stream.Shows.mono {earlier : InAppNotification} (hshows : old.Shows earlier)
    (hcontinues : old.Continues stream) (hcontent : notification.content = earlier.content) :
    stream.Shows notification := by
  obtain ⟨event, hevent, hshown⟩ := hshows
  exact ⟨event, hcontinues.output.subset hevent, hshown.congr hcontent⟩

/-- A message stays under way until it is handled. -/
theorem InAppNotification.UnderWay.mono (hway : notification.UnderWay before)
    (heffect : Effect before label after) (hother : ¬ ∃ channel payload, label = .message channel payload) :
    notification.UnderWay after := by
  obtain ⟨message, hmessage, hsame⟩ := hway
  have hdelivers := heffect.delivers
  refine ⟨message, ?_, hsame⟩
  cases label with
  | published payload =>
    rw [hdelivers.2, PubSub.publish]
    split_ifs
    · exact List.mem_append_left _ hmessage
    · exact hmessage
  | message channel payload => exact absurd ⟨channel, payload, rfl⟩ hother
  | closed number => exact hdelivers.1 ▸ hmessage
  | _ => exact hdelivers.1 ▸ hmessage

/-- A response that has advanced past its replay shows what it owes, if that was published before, or the
message is under way. -/
theorem GapsCovered.advanced (hcovered : GapsCovered world) (hold : world.db.streams[number]? = some old)
    (hadvances : old.Advances world.db.inAppNotifications stream) (hwritable : stream.writable = true)
    (hphase : stream.phase ≠ .connecting) (howes : old.Owes notification world.db.inAppNotifications)
    (hpublished : notification.Published world.log) :
    stream.Shows notification ∨ notification.UnderWay world.db := by
  have hopen := hadvances.continues.writable hwritable
  cases hadvances with
  | idle => exact hcovered.covered number stream hold hopen hphase notification howes hpublished
  | connected unreadCount =>
    rw [phase_write] at hphase
    exact (hcovered.covered number old hold hopen hphase notification howes hpublished).imp_left
      fun hshows ↦ hshows.mono continues_write rfl
  | skip hfirst =>
    obtain ⟨_, _, _, _, hafter, _⟩ := howes
    rw [hfirst] at hafter
    cases hafter
  | replay afterId hafter => exact .inl (howes.shows_replay hafter hopen)
  | live hpast => exact hcovered.covered number old hold hopen hpast notification howes hpublished

/-- A response that a message may have reached. Assumes: no push is lost. -/
theorem GapsCovered.delivered {channel : Channel} {payload : NotificationPubSubPayload}
    (hcovered : GapsCovered world) (hloses : LosesNothing world (.message channel payload))
    (heffect : Effect world.db (.message channel payload) after)
    (hstream : after.streams[number]? = some stream) (hwritable : stream.writable = true)
    (hphase : stream.phase ≠ .connecting)
    (howes : ∀ old : Stream, old.Continues stream → old.Owes notification world.db.inAppNotifications)
    (hpublished : notification.Published world.log) :
    stream.Shows notification ∨ notification.UnderWay after := by
  obtain ⟨hstreams, hmessages⟩ := heffect.delivers
  rw [hstreams, Db.deliver, List.getElem?_mapIdx] at hstream
  obtain ⟨old, hold, hchange⟩ := Option.map_eq_some_iff.mp hstream
  have hunder : notification.UnderWay world.db →
      payload.Shows notification ∨ notification.UnderWay after := by
    rintro ⟨message, hmessage, hsame⟩
    rw [hmessages] at hmessage
    rcases List.mem_cons.mp hmessage with rfl | hrest
    · exact .inl hsame
    · exact .inr ⟨message, hrest, hsame⟩
  split_ifs at hchange with hhandler
  · subst hchange
    have hopen := (continues_write : old.Continues _).writable hwritable
    rw [phase_write] at hphase
    rcases hcovered.covered number old hold hopen hphase notification (howes old continues_write)
      hpublished with hshows | hway
    · exact .inl (hshows.mono continues_write rfl)
    · refine (hunder hway).imp_left fun hsame ↦ ?_
      unfold Stream.Shows Stream.write
      rw [if_pos hopen]
      exact ⟨_, List.mem_append_right _ (.head _), hsame⟩
  · subst hchange
    rcases hcovered.covered number old hold hwritable hphase notification (howes old continues_refl)
      hpublished with hshows | hway
    · exact .inl hshows
    · refine (hunder hway).imp_left fun hsame ↦ ?_
      by_contra hmissing
      exact hhandler (hloses number old hold notification (howes old continues_refl).1
        hsame.notificationId.symm ⟨hwritable, hphase, howes old continues_refl, hmissing⟩)

/-- A response when a notification is published. Assumes: no push is lost. -/
theorem GapsCovered.pushed {payload : NotificationPubSubPayload}
    (hloses : LosesNothing world (.published payload))
    (heffect : Effect world.db (.published payload) after) (hconsistent : Consistent expects world.db)
    (hstream : after.streams[number]? = some stream) (hwritable : stream.writable = true)
    (hphase : stream.phase ≠ .connecting) (howes : stream.Owes notification world.db.inAppNotifications)
    (hid : payload.notificationId = notification.id) :
    stream.Shows notification ∨ notification.UnderWay after := by
  obtain ⟨hstreams, hmessages⟩ := heffect.delivers
  obtain ⟨published, hmem, hpayload⟩ := heffect.exists_published hconsistent
  have hsame : published = notification := by
    refine List.inj_on_of_nodup_map hconsistent.notificationIds hmem howes.1 ?_
    rw [← hid, hpayload.notificationId]
  subst hsame
  by_contra hmissing
  obtain ⟨hshows, hway⟩ := not_or.mp hmissing
  have hsubscribed := hloses stream (List.mem_of_getElem? (hstreams ▸ hstream)) published hmem hid.symm
    ⟨hwritable, hphase, howes, hshows⟩
  refine hway ⟨(world.db.userChannel payload.recipientId, payload), ?_, hpayload⟩
  rw [hmessages, PubSub.publish, if_pos hsubscribed]
  exact List.mem_append_right _ (.head _)

/-- A step that loses no push keeps the gaps covered. -/
theorem GapsCovered.step (hcovered : GapsCovered world) (hconsistent : Consistent expects world.db)
    (hafter : Consistent expects after) (hloses : LosesNothing world label)
    (heffect : Effect world.db label after) : GapsCovered (world.after number label after) where
  published entry hentry payload hlabel := by
    have hthere : ∃ notification ∈ world.db.inAppNotifications, payload.Shows notification := by
      rcases List.mem_cons.mp hentry with rfl | hold
      · subst hlabel
        exact heffect.exists_published hconsistent
      · exact hcovered.published entry hold payload hlabel
    obtain ⟨notification, hnotification, hpayload⟩ := hthere
    obtain ⟨later, hlater, hcontent⟩ := heffect.exists_later hnotification
    exact ⟨later, hlater, hpayload.congr hcontent⟩
  covered index stream hstream hwritable hphase notification howes hpublished := by
    obtain ⟨earlier, hearlier, hcontent⟩ :=
      hcovered.exists_before hconsistent hafter heffect howes.1 hpublished
    have howed : ∀ old : Stream, old.Continues stream →
        old.Owes earlier world.db.inAppNotifications :=
      fun old hcontinues ↦ howes.earlier heffect hcontinues hearlier hcontent
    have hid : notification.id = earlier.id := by
      change notification.content.id = earlier.content.id
      rw [hcontent]
    have hdone : stream.Shows earlier ∨ earlier.UnderWay after →
        stream.Shows notification ∨ notification.UnderWay after := by
      refine Or.imp (fun hshows ↦ hshows.mono continues_refl hcontent) ?_
      rintro ⟨message, hmessage, hshows⟩
      exact ⟨message, hmessage, hshows.congr hcontent⟩
    apply hdone
    obtain ⟨entry, hentry, hpublishes⟩ := hpublished
    rw [hid] at hpublishes
    rcases List.mem_cons.mp hentry with rfl | hlogged
    · obtain ⟨payload, hlabel, hsame⟩ := publishes_eq_some.mp hpublishes
      subst hlabel
      exact GapsCovered.pushed hloses heffect hconsistent hstream hwritable hphase
        (howed stream continues_refl) hsame
    · have hbefore : earlier.Published world.log := ⟨entry, hlogged, hpublishes⟩
      by_cases hmessage : ∃ channel payload, label = .message channel payload
      · obtain ⟨channel, pushed, rfl⟩ := hmessage
        exact hcovered.delivered hloses heffect hstream hwritable hphase howed hbefore
      · cases heffect.becomes hstream with
        | opened _ _ hopened => exact absurd hopened.1 hphase
        | advanced _ old hold hadvances =>
          exact (hcovered.advanced hold hadvances hwritable hphase (howed old hadvances.continues)
            hbefore).imp_right fun hway ↦ hway.mono heffect hmessage
        | reached channel pushed => exact absurd ⟨channel, pushed, rfl⟩ hmessage
        | ended old _ hended =>
          subst hended
          cases hwritable

end Steps

/-! ### The result -/

section Runs

variable {db : Db} {config after : NotificationConfig}

/-- In every run in which no push is lost, no connection ends with a gap. -/
theorem reachable_noGap
    (hreach : Reachable NotificationRequest.serve LosesNothing db.cleared config)
    (hstep : Step NotificationRequest.serve LosesNothing config after) : NoGap config after := by
  have hcovered : GapsCovered config.toWorld := by
    refine pipeline_along GapsCovered ⟨by simp, by simp [Db.cleared]⟩ ?_ hreach
    intro number world label later hbefore hafter hloses heffect hcovered
    exact hcovered.step hbefore hafter hloses heffect
  intro caller number stream hclosed hstream hwritable notification howes hpublished
  have hloses : LosesNothing config.toWorld (.closed number) := by
    cases hstep with
    | start request => simp at hclosed
    | resume caller label act next hcall hpermits =>
      have hlabel : label config.db = .closed number := (Prod.mk.inj (List.cons.inj hclosed).1).2
      exact hlabel ▸ hpermits
  obtain ⟨hphase, hwritten⟩ :=
    hloses stream hstream hwritable notification howes.1 howes hpublished
  rcases hcovered.covered number stream hstream hwritable hphase notification howes hpublished with
    hshows | ⟨message, hmessage, hsame⟩
  · exact hshows
  · exact hwritten message hmessage hsame.notificationId

end Runs

/-! ### Concrete runs -/

instance {stream : Stream} {notification : InAppNotification} {notifications : List InAppNotification} :
    Decidable (stream.Owes notification notifications) :=
  inferInstanceAs (Decidable (_ ∧ _ ∧ _ ∧ ∃ afterId ∈ stream.lastEventId, _))

instance {notification : InAppNotification} : DecidablePred (SseEvent.Shows notification)
  | .notification payload => inferInstanceAs (Decidable (payload.Shows notification))
  | .connected _ => .isFalse id

instance {stream : Stream} {notification : InAppNotification} : Decidable (stream.Shows notification) :=
  inferInstanceAs (Decidable (∃ event ∈ stream.output, event.Shows notification))

instance {stream : Stream} {notification : InAppNotification} {notifications : List InAppNotification} :
    Decidable (stream.Awaits notification notifications) :=
  inferInstanceAs (Decidable (_ ∧ _ ∧ _ ∧ ¬ _))

instance {notification : InAppNotification} {log : List (ℕ × NotificationStep)} :
    Decidable (notification.Published log) :=
  inferInstanceAs (Decidable (∃ entry ∈ log, entry.2.publishes = some notification.id))

/-- The streams of a message are finitely many. -/
theorem losesNothing_message_iff {world : World Db NotificationStep} {channel : Channel}
    {payload : NotificationPubSubPayload} :
    (∀ number < world.db.streams.length, ∀ stream ∈ world.db.streams[number]?,
      ∀ notification ∈ world.db.inAppNotifications, notification.id = payload.notificationId →
      stream.Awaits notification world.db.inAppNotifications →
        number ∈ (world.db.pubSub.handlers channel).getD []) ↔
      LosesNothing world (.message channel payload) :=
  ⟨fun h number stream hstream ↦ h number (List.getElem?_eq_some_iff.mp hstream).1 stream hstream,
    fun h number _ stream hstream ↦ h number stream hstream⟩

instance {world : World Db NotificationStep} :
    (label : NotificationStep) → Decidable (LosesNothing world label)
  | .published payload => inferInstanceAs (Decidable (∀ stream ∈ world.db.streams,
      ∀ notification ∈ world.db.inAppNotifications, notification.id = payload.notificationId →
      stream.Awaits notification world.db.inAppNotifications →
        world.db.pubSub.subscribed (world.db.userChannel payload.recipientId) = true))
  | .message _ _ => decidable_of_iff _ losesNothing_message_iff
  | .closed number => inferInstanceAs (Decidable (∀ stream ∈ world.db.streams[number]?,
      stream.writable = true → ∀ notification ∈ world.db.inAppNotifications,
      stream.Owes notification world.db.inAppNotifications → notification.Published world.log →
        stream.phase ≠ .connecting ∧ ∀ message ∈ world.db.pubSub.messages,
          message.2.notificationId = notification.id → stream.Shows notification))
  | .other | .inserted .. | .emailScheduled .. | .emailProcessed .. | .subscribing .. | .registered ..
  | .unsubscribed .. | .resumed _ => .isTrue trivial

/-- The inviter reconnects, and the notification is scheduled, relayed and pushed after the replay, before
the subscription. -/
def missedPush : List (Choice NotificationRequest) :=
  [.start (.stream 7 1 (some 0))] ++ List.replicate 3 (.resume 0) ++
    [.start (.scheduleNotification acceptance), .resume 1, .start (.relayNotifications 0)] ++ finish 2 ++
    [.start (.runTask 0)] ++ finish 3 ++ [.resume 0, .resume 0, .start .takeCommand, .resume 4] ++
    finish 0 ++ [.start (.close 0)]

/-- The configuration before the connection ends: the notification was pushed to the live stream. -/
def liveConfig : NotificationConfig :=
  (Config.initial inviterDb.cleared).play NotificationRequest.serve
    (livePush 1 (some 0) ++ [.start (.close 0)])

/-- The configuration before the connection ends: the push was missed. -/
def missedConfig : NotificationConfig :=
  (Config.initial inviterDb.cleared).play NotificationRequest.serve missedPush

/-- A witness: the push of a live stream is written before the connection ends. -/
theorem reachable_noGap_witness :
    NoGap liveConfig (liveConfig.follow NotificationRequest.serve (.resume 6)) := by
  have hreach : Reachable NotificationRequest.serve LosesNothing inviterDb.cleared liveConfig :=
    play_reachable (by decide +kernel)
  have hlabel : liveConfig.nextLabel (.resume 6 : Choice NotificationRequest) = some (.closed 0) := by
    decide +kernel
  exact reachable_noGap hreach (step_follow hlabel (by decide +kernel))

/-- A stream may have a gap: the client is owed the notification, which was published before the
connection ends, and never gets it. -/
theorem missedPush_gap :
    ¬ ∀ config after : NotificationConfig,
      Reachable NotificationRequest.serve CommandTaken inviterDb.cleared config →
        Step NotificationRequest.serve CommandTaken config after → NoGap config after := by
  intro halways
  have hreach : Reachable NotificationRequest.serve CommandTaken inviterDb.cleared missedConfig :=
    play_reachable (by decide +kernel)
  have hlabel : missedConfig.nextLabel (.resume 5 : Choice NotificationRequest) = some (.closed 0) := by
    decide +kernel
  have hnoGap := halways _ _ hreach (step_follow hlabel (by decide +kernel))
  have hfails : ∃ stream ∈ missedConfig.db.streams[0]?, stream.writable = true ∧
      ∃ notification ∈ missedConfig.db.inAppNotifications,
        stream.Owes notification missedConfig.db.inAppNotifications ∧
          notification.Published missedConfig.log ∧ ¬ stream.Shows notification := by decide +kernel
  obtain ⟨stream, hstream, hwritable, notification, _, howes, hpublished, hmissing⟩ := hfails
  refine hmissing (hnoGap 5 0 stream ?_ hstream hwritable notification howes hpublished)
  decide +kernel

end RallyApi.Notifications

import RallyApi.Notifications.Pipeline
import RallyApi.Notifications.Subscriptions

/-!
# Tenants of the event streams

A stream is opened for one tenant, and every notification written to it should be one of that tenant
(`Isolated`). The replay sees to it: it lists the notifications of the tenant. The live push does not: the
channel is the user's, whatever the tenant, and the payload does not name one.

`reachable_isolated` shows that the streams are isolated in every run in which no message reaches an open
stream of another tenant than its notification's; `foreignPush` is a run of a user with two tenants.
-/

set_option autoImplicit false
set_option relaxedAutoImplicit false

namespace RallyApi.Notifications

open Concurrency Outbox Platform Store

/-- Every notification written to a stream is one of the tenant the stream was opened for. -/
def Isolated (config : NotificationConfig) : Prop :=
  ∀ stream ∈ config.db.streams, ∀ payload, .notification payload ∈ stream.output →
    ∃ notification ∈ config.db.inAppNotifications,
      notification.id = payload.notificationId ∧ notification.tenantId = stream.tenantId

/-- A message that reaches an open stream is about a notification of the stream's tenant. -/
def ReachesOwnTenant (world : World Db NotificationStep) : NotificationStep → Prop
  | .message channel payload => ∀ number ∈ (world.db.pubSub.handlers channel).getD [],
      ∀ stream ∈ world.db.streams[number]?, stream.writable = true →
        ∀ notification ∈ world.db.inAppNotifications, notification.id = payload.notificationId →
          notification.tenantId = stream.tenantId
  | _ => True

/-! ### What is written to a stream -/

section Output

variable {before after : Db} {label : NotificationStep} {number : ℕ} {stream : Stream}
  {payload : NotificationPubSubPayload}

/-- The notifications of `listMissed` are the user's, in the tenant. -/
theorem mem_listMissed {tenantId userId afterId : Uuid} {notifications : List InAppNotification}
    {notification : InAppNotification}
    (hmem : notification ∈ listMissed tenantId userId afterId notifications) :
    notification ∈ notifications ∧ notification.tenantId = tenantId := by
  have hsorted := List.mem_of_mem_take hmem
  rw [List.mem_insertionSort, List.mem_filter] at hsorted
  exact ⟨hsorted.1, (of_decide_eq_true hsorted.2).1⟩

theorem mem_write {old : Stream} {event : SseEvent} {events : List SseEvent}
    (hmem : event ∈ (old.write events).output) :
    event ∈ old.output ∨ old.writable = true ∧ event ∈ events := by
  unfold Stream.write at hmem
  split_ifs at hmem with hwritable
  · exact (List.mem_append.mp hmem).imp_right fun h ↦ ⟨hwritable, h⟩
  · exact .inl hmem

/-- A notification that is in a response after it has advanced was there before, or it was replayed. -/
theorem Stream.Advances.mem_output {old later : Stream} {notifications : List InAppNotification}
    (hadvances : old.Advances notifications later) (hmem : .notification payload ∈ later.output) :
    .notification payload ∈ old.output ∨ ∃ notification ∈ notifications,
      notification.payload = payload ∧ notification.tenantId = old.tenantId := by
  cases hadvances with
  | idle | skip | live => exact .inl hmem
  | connected unreadCount =>
    rcases mem_write hmem with hold | ⟨_, hnew⟩
    · exact .inl hold
    · simp at hnew
  | replay afterId hafter =>
    rcases mem_write hmem with hold | ⟨_, hnew⟩
    · exact .inl hold
    · obtain ⟨notification, hmissed, hsame⟩ := List.mem_map.mp hnew
      obtain ⟨hthere, htenant⟩ := mem_listMissed hmissed
      exact .inr ⟨notification, hthere, SseEvent.notification.inj hsame, htenant⟩

end Output

/-! ### The invariant -/

/-- A notification with the payload is there, and it is one of the tenant. -/
def PayloadOf (payload : NotificationPubSubPayload) (tenantId : Uuid) (db : Db) : Prop :=
  ∃ notification ∈ db.inAppNotifications,
    payload.Shows notification ∧ notification.tenantId = tenantId

/-- The messages on their way are about notifications that are there, and what was written to a stream is
about notifications of its tenant. -/
structure TenantsKept (world : World Db NotificationStep) : Prop where
  messages : ∀ message ∈ world.db.pubSub.messages, ∃ tenantId, PayloadOf message.2 tenantId world.db
  written : ∀ (number : ℕ) (stream : Stream), world.db.streams[number]? = some stream →
    ∀ payload, .notification payload ∈ stream.output → PayloadOf payload stream.tenantId world.db

section Steps

variable {world : World Db NotificationStep} {number : ℕ} {label : NotificationStep} {before after : Db}
  {payload : NotificationPubSubPayload} {tenantId : Uuid} {expects : RowId → Prop}

/-- A notification that is there stays there. -/
theorem PayloadOf.mono (hpayload : PayloadOf payload tenantId before)
    (heffect : Effect before label after) : PayloadOf payload tenantId after := by
  obtain ⟨notification, hnotification, hsame, htenant⟩ := hpayload
  obtain ⟨later, hlater, hcontent⟩ := heffect.exists_later hnotification
  have hkept : later.tenantId = notification.tenantId := by
    change later.content.tenantId = notification.content.tenantId
    rw [hcontent]
  exact ⟨later, hlater, hsame.congr hcontent, hkept.trans htenant⟩

/-- What is published is about a notification that is there. -/
theorem Effect.payloadOf (heffect : Effect before (.published payload) after)
    (hconsistent : Consistent expects before) : ∃ tenantId, PayloadOf payload tenantId before := by
  obtain ⟨task, htask, rfl⟩ := heffect.reports
  obtain ⟨_, notification, hnotification, hsame, _⟩ := hconsistent.tasks task htask
  exact ⟨_, notification, hnotification, .inr hsame, rfl⟩

/-- A step after which every message reaches its own tenant keeps the invariant. -/
theorem TenantsKept.step (hkept : TenantsKept world) (hconsistent : Consistent expects world.db)
    (hreaches : ReachesOwnTenant world label) (heffect : Effect world.db label after) :
    TenantsKept (world.after number label after) where
  messages message hmessage := by
    rcases heffect.mem_messages hmessage with hold | rfl
    · obtain ⟨tenantId, hpayload⟩ := hkept.messages message hold
      exact ⟨tenantId, hpayload.mono heffect⟩
    · obtain ⟨tenantId, hpayload⟩ := heffect.payloadOf hconsistent
      exact ⟨tenantId, hpayload.mono heffect⟩
  written index stream hstream payload hmem := by
    change PayloadOf payload stream.tenantId after
    cases heffect.becomes hstream with
    | opened _ hnew hopened =>
      rw [hopened.2.1] at hmem
      cases hmem
    | advanced _ old hold hadvances =>
      rw [hadvances.continues.tenantId]
      rcases hadvances.mem_output hmem with hbefore | ⟨notification, hthere, hsame, htenant⟩
      · exact (hkept.written index old hold payload hbefore).mono heffect
      · exact PayloadOf.mono ⟨notification, hthere, .inl hsame, htenant⟩ heffect
    | reached channel pushed old hold hhandler hwrite =>
      subst hwrite
      rw [(continues_write : old.Continues _).tenantId]
      rcases mem_write hmem with hbefore | ⟨hwritable, hnew⟩
      · exact (hkept.written index old hold payload hbefore).mono heffect
      · obtain rfl := SseEvent.notification.inj (List.mem_singleton.mp hnew)
        have hmessage : (channel, payload) ∈ world.db.pubSub.messages := by
          rw [heffect.delivers.2]
          exact .head _
        obtain ⟨_, notification, hthere, hsame, _⟩ := hkept.messages _ hmessage
        have htenant := hreaches index hhandler old hold hwritable notification hthere
          hsame.notificationId.symm
        exact PayloadOf.mono ⟨notification, hthere, hsame, htenant⟩ heffect
    | ended old hold hended =>
      subst hended
      exact (hkept.written index old hold payload hmem).mono heffect

end Steps

/-! ### The result -/

section Runs

variable {db : Db} {config : NotificationConfig}

/-- In every run in which no message reaches an open stream of another tenant than its notification's, the
streams are isolated. -/
theorem reachable_isolated
    (hreach : Reachable NotificationRequest.serve ReachesOwnTenant db.cleared config) :
    Isolated config := by
  have hkept : TenantsKept config.toWorld := by
    refine pipeline_along TenantsKept ⟨by simp [Db.cleared], by simp [Db.cleared]⟩ ?_ hreach
    intro number world label after hconsistent _ hreaches heffect hkept
    exact hkept.step hconsistent hreaches heffect
  intro stream hstream payload hmem
  obtain ⟨number, hnumber⟩ := List.mem_iff_getElem?.mp hstream
  obtain ⟨notification, hthere, hsame, htenant⟩ := hkept.written number stream hnumber payload hmem
  exact ⟨notification, hthere, hsame.notificationId.symm, htenant⟩

end Runs

/-! ### Concrete runs -/

instance {world : World Db NotificationStep} :
    (label : NotificationStep) → Decidable (ReachesOwnTenant world label)
  | .message channel payload =>
    inferInstanceAs (Decidable (∀ number ∈ (world.db.pubSub.handlers channel).getD [],
      ∀ stream ∈ world.db.streams[number]?, stream.writable = true →
        ∀ notification ∈ world.db.inAppNotifications, notification.id = payload.notificationId →
          notification.tenantId = stream.tenantId))
  | .other | .inserted .. | .emailScheduled .. | .published _ | .emailProcessed .. | .closed _
  | .subscribing .. | .registered .. | .unsubscribed .. | .resumed _ => .isTrue trivial

/-- The inviter opens a stream for a tenant, and the notification for the inviter in tenant 1 is scheduled,
relayed and pushed. -/
def livePush (tenantId : Uuid) (lastEventId : Option Uuid) : List (Choice NotificationRequest) :=
  [.start (.stream 7 tenantId lastEventId)] ++ List.replicate 5 (.resume 0) ++
    [.start .takeCommand, .resume 1] ++ finish 0 ++
    [.start (.scheduleNotification acceptance), .resume 2, .start (.relayNotifications 0)] ++ finish 3 ++
    [.start (.runTask 0)] ++ finish 4 ++ [.start .handleMessage, .resume 5]

/-- The configuration after such a push. -/
def pushedConfig (tenantId : Uuid) : NotificationConfig :=
  (Config.initial inviterDb.cleared).play NotificationRequest.serve (livePush tenantId none)

/-- The stream after the push, when it was opened for tenant 2. -/
def foreignStream : Stream where
  userId := 7
  tenantId := 2
  lastEventId := none
  phase := .live
  output := [.connected 0, .notification {
    notificationId := 1
    recipientId := 7
    type := "WORKSPACE_INVITATION_ACCEPTED"
    title := "A accepted your invitation to W"
    body := none
    resourceType := some "workspace"
    resourceId := none }]

/-- A witness: the stream is opened for the tenant of the notification. -/
theorem reachable_isolated_witness : Isolated (pushedConfig 1) := by
  have hreach : Reachable NotificationRequest.serve ReachesOwnTenant inviterDb.cleared
      (pushedConfig 1) := play_reachable (by decide +kernel)
  exact reachable_isolated hreach

/-- Streams are not isolated: one opened for tenant 2 gets the notification of tenant 1. -/
theorem foreignPush :
    ¬ ∀ config : NotificationConfig,
      Reachable NotificationRequest.serve CommandTaken inviterDb.cleared config → Isolated config := by
  intro halways
  have hreach : Reachable NotificationRequest.serve CommandTaken inviterDb.cleared (pushedConfig 2) :=
    play_reachable (by decide +kernel)
  have hstreams : (pushedConfig 2).db.streams = [foreignStream] := by decide +kernel
  have htenants : ∀ notification ∈ (pushedConfig 2).db.inAppNotifications,
      notification.tenantId = 1 := by decide +kernel
  obtain ⟨notification, hnotification, _, htenant⟩ := halways _ hreach foreignStream
    (hstreams ▸ List.mem_singleton_self foreignStream) _ (.tail _ (.head _))
  cases (htenants notification hnotification).symm.trans htenant

end RallyApi.Notifications

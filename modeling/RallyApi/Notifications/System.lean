import RallyApi.Notifications.Relays
import RallyApi.Notifications.Stream

/-!
# The notification pipeline

Everything that runs on the notification store: producers schedule, workers relay and run the post-commit
tasks, users change their preferences and read their notifications, clients connect and disconnect, and
the world outside aborts transactions, loses requests or replies, and lets time pass. Any number of these
calls are in flight at once, each taking its steps in turn.
-/

set_option autoImplicit false
set_option relaxedAutoImplicit false

namespace RallyApi.Notifications

open Concurrency Platform

/-- What a client, a worker or the world outside asks for. -/
inductive NotificationRequest
  | scheduleNotification (options : ScheduleNotificationOptions)
  | scheduleEmail (options : ScheduleEmailOptions)
  | relayNotifications (process : ℕ)
  | relayEmails (process : ℕ)
  | runTask (index : ℕ)
  | upsertPreference (input : UpsertPreferenceInput)
  | resetPreference (tenantId userId : Uuid) (type : String)
  | markRead (userId notificationId : Uuid)
  | markAllRead (tenantId userId : Uuid)
  | stream (userId tenantId : Uuid) (lastEventId : Option Uuid)
  | close (number : ℕ)
  | handleMessage
  | takeCommand
  | abort (number : ℕ)
  | changeHealth (resource : Resource) (health : Health)
  | changeUsers (users : List User)
  | tick (milliseconds : ℕ)
  deriving DecidableEq, Repr

/-- A write on the store, as one step. -/
def write (change : Db → Db) : NotificationCall Unit :=
  Call.atomically (fun _ ↦ .other) fun db ↦ ((), change db)

/-- `NotificationSchedulerService.schedule`. -/
def requestNotification (options : ScheduleNotificationOptions) : NotificationCall Unit :=
  Call.attempt (fun _ ↦ .other) fun db ↦ (scheduleNotification options db).map fun after ↦ ((), after)

/-- A transaction with a call of `EmailSchedulerService.schedule`, once it commits. -/
def requestEmail (options : ScheduleEmailOptions) : NotificationCall Unit :=
  Call.attempt (fun _ ↦ .other) fun db ↦
    (scheduleEmail options db.nextUuid db.now db.emailOutbox).map fun emailOutbox ↦
      ((), { db.draw with emailOutbox })

/-- `NotificationsService.markRead`, which only marks a notification of the actor. -/
def requestMarkRead (userId notificationId : Uuid) : NotificationCall Unit := do
  let notification ← Call.query .other fun db ↦
    db.inAppNotifications.find? fun row ↦ row.id = notificationId
  match notification with
  | none => pure ()
  | some notification =>
    if notification.recipientId = userId then write (markRead notificationId) else pure ()

/-- What a call returns: for a post-commit task, the task, and whether it got through without an error. -/
abbrev TaskRun := Option (PostCommitTask × Bool)

/-- The call that serves a request. -/
def NotificationRequest.serve : NotificationRequest → NotificationCall TaskRun
  | .scheduleNotification options => (fun _ ↦ none) <$> requestNotification options
  | .scheduleEmail options => (fun _ ↦ none) <$> requestEmail options
  | .relayNotifications process => (fun _ ↦ none) <$> relay notificationRelay process
  | .relayEmails process => (fun _ ↦ none) <$> relay emailRelay process
  | .runTask index => Notifications.runTask index
  | .upsertPreference input => (fun _ ↦ none) <$> write fun db ↦
    { db with preferences := Notifications.upsertPreference input db.preferences }
  | .resetPreference tenantId userId type => (fun _ ↦ none) <$> write fun db ↦
    { db with preferences := deletePreference tenantId userId type db.preferences }
  | .markRead userId notificationId => (fun _ ↦ none) <$> requestMarkRead userId notificationId
  | .markAllRead tenantId userId => (fun _ ↦ none) <$> write (Notifications.markAllRead tenantId userId)
  | .stream userId tenantId lastEventId =>
    (fun _ ↦ none) <$> Notifications.stream userId tenantId lastEventId
  | .close number => (fun _ ↦ none) <$> closeStream number
  | .handleMessage => (fun _ ↦ none) <$> Notifications.handleMessage
  | .takeCommand => (fun _ ↦ none) <$> Notifications.takeCommand
  | .abort number => (fun _ ↦ none) <$> endTransaction number
  | .changeHealth resource health => (fun _ ↦ none) <$> write fun db ↦
    { db with health := fun other ↦ if other = resource then health else db.health other }
  | .changeUsers users => (fun _ ↦ none) <$> write fun db ↦ { db with users }
  | .tick milliseconds => (fun _ ↦ none) <$> write fun db ↦ { db with now := db.now + milliseconds }

/-- A configuration of the pipeline. -/
abbrev NotificationConfig := Config Db NotificationStep Failure TaskRun

/-! ### A concrete store -/

/-- A store with one user. -/
def inviterDb : Db := { users := [{ id := 7, email := "inviter@example" }] }

/-- A notification for that user. -/
def acceptance : ScheduleNotificationOptions where
  tenantId := 1
  recipientId := 7
  template := "WORKSPACE_INVITATION_ACCEPTED"
  vars := [("accepteeName", "A"), ("workspaceName", "W")]

/-- The notification is scheduled, and a relay is aborted after it has created it. -/
def abortedRelay : List (Choice NotificationRequest) :=
  [.start (.scheduleNotification acceptance), .resume 0, .start (.relayNotifications 0)] ++
    List.replicate 5 (.resume 1) ++ [.start (.abort 0), .resume 2] ++ finish 1

/-- Another relay goes through, and the post-commit tasks that are due are run. -/
def retriedRelay : List (Choice NotificationRequest) :=
  abortedRelay ++ [.start (.relayNotifications 0)] ++ finish 3 ++ [.start (.runTask 0)] ++ finish 4

/-- The notification is scheduled, relayed and pushed without a failure. -/
def quietRelay : List (Choice NotificationRequest) :=
  [.start (.scheduleNotification acceptance), .resume 0, .start (.relayNotifications 0)] ++ finish 1 ++
    [.start (.runTask 0)] ++ finish 2

end RallyApi.Notifications

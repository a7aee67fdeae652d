import RallyApi.Notifications.Schema
import RallyApi.Platform.Digits
import RallyApi.Store.Table

/-!
# Repositories of the notification store

The statements behind the pipeline: `NotificationDrizzleRepository`,
`NotificationPreferenceDrizzleRepository` with the resolution of
`NotificationPreferencesService.isEnabled`, and the inserts into the two outboxes. A statement that
writes is given on the store, so that a transaction can contain it.
-/

set_option autoImplicit false
set_option relaxedAutoImplicit false

namespace RallyApi.Notifications

open Concurrency Outbox Platform Store

/-! ### Identifiers -/

/-- The value of a hexadecimal digit. -/
def hexDigit (digit : Char) : Option ℕ :=
  if '0' ≤ digit ∧ digit ≤ '9' then some (digit.toNat - '0'.toNat)
  else if 'a' ≤ digit ∧ digit ≤ 'f' then some (digit.toNat - 'a'.toNat + 10)
  else if 'A' ≤ digit ∧ digit ≤ 'F' then some (digit.toNat - 'A'.toNat + 10)
  else none

/-- The bytes of a UUID that are still to be read, most significant first: two digits each, and a hyphen
allowed after every second byte but the last. The number read and the characters that are left. -/
def parseUuidBytes : ℕ → List Char → ℕ → Option (ℕ × List Char)
  | 0, rest, value => some (value, rest)
  | bytes + 1, high :: low :: rest, value => do
    let highDigit ← hexDigit high
    let lowDigit ← hexDigit low
    let rest := if bytes % 2 = 0 ∧ bytes ≠ 0 ∧ rest.head? = some '-' then rest.tail else rest
    parseUuidBytes bytes rest ((value * 16 + highDigit) * 16 + lowDigit)
  | _ + 1, _, _ => none

/-- The input function of the column type `uuid`, which also takes a UUID in braces. -/
def parseUuid (text : String) : Option Uuid :=
  match text.toList with
  | '{' :: rest =>
    match parseUuidBytes 16 rest 0 with
    | some (value, ['}']) => some value
    | _ => none
  | characters =>
    match parseUuidBytes 16 characters 0 with
    | some (value, []) => some value
    | _ => none

/-- What is read are at most three characters for each byte. -/
theorem length_of_parseUuidBytes {bytes value result : ℕ} {characters rest : List Char}
    (hparsed : parseUuidBytes bytes characters value = some (result, rest)) :
    characters.length ≤ 3 * bytes + rest.length := by
  fun_induction parseUuidBytes bytes characters value with
  | case1 characters value =>
    obtain ⟨rfl, rfl⟩ := Prod.mk.inj (Option.some.inj hparsed)
    simp
  | case2 bytes high low after value ih =>
    obtain ⟨highDigit, _, hparsed⟩ := Option.bind_eq_some_iff.mp hparsed
    obtain ⟨lowDigit, _, hparsed⟩ := Option.bind_eq_some_iff.mp hparsed
    have hrest := ih highDigit lowDigit hparsed
    have hhyphen : after.length ≤ (if bytes % 2 = 0 ∧ bytes ≠ 0 ∧ after.head? = some '-' then after.tail
        else after).length + 1 := by
      split_ifs
      · rw [List.length_tail]
        omega
      · exact Nat.le_succ _
    simp only [List.length_cons]
    omega
  | case3 => cases hparsed

/-- The text of a UUID has at most 50 characters. -/
theorem length_of_parseUuid {text : String} {id : Uuid} (hparsed : parseUuid text = some id) :
    text.length ≤ 50 := by
  rw [← String.length_toList]
  unfold parseUuid at hparsed
  split at hparsed
  next rest htext =>
    split at hparsed
    next value hbytes =>
      have hlength := length_of_parseUuidBytes hbytes
      rw [htext, List.length_cons]
      simp only [List.length_singleton] at hlength
      omega
    next => cases hparsed
  next characters =>
    split at hparsed
    next value hbytes =>
      have hlength := length_of_parseUuidBytes hbytes
      simp only [List.length_nil] at hlength
      omega
    next => cases hparsed

/-- The text of a UUID. -/
def uuidText (id : Uuid) : String :=
  let digits := Nat.toDigits 16 id
  let padded := List.replicate (32 - digits.length) '0' ++ digits
  String.ofList (padded.take 8 ++ '-' :: (padded.drop 8).take 4 ++ '-' :: (padded.drop 12).take 4 ++
    '-' :: (padded.drop 16).take 4 ++ '-' :: padded.drop 20)

theorem space_notMem_uuidText (id : Uuid) : ' ' ∉ (uuidText id).toList := by
  have hpadded : ' ' ∉ List.replicate (32 - (Nat.toDigits 16 id).length) '0' ++ Nat.toDigits 16 id := by
    rw [List.mem_append, not_or]
    exact ⟨fun hspace ↦ absurd (List.eq_of_mem_replicate hspace) (by decide),
      space_notMem_toDigits_hex id⟩
  unfold uuidText
  dsimp only
  generalize List.replicate (32 - (Nat.toDigits 16 id).length) '0' ++ Nat.toDigits 16 id = padded at hpadded ⊢
  have hpart : ∀ first count, ' ' ∉ (padded.drop first).take count := fun _ _ hmem ↦
    hpadded (List.mem_of_mem_drop (List.mem_of_mem_take hmem))
  have hdash : ' ' ≠ '-' := by decide
  simp only [String.toList_ofList, List.mem_append, List.mem_cons, hpart, hdash, or_false, false_or]
  rintro (hfirst | hlast)
  · exact hpadded (List.mem_of_mem_take hfirst)
  · exact hpadded (List.mem_of_mem_drop hlast)

/-- The next identifier of a new row. -/
def Db.nextUuid (db : Db) : Uuid := db.uuids db.drawn

/-- An identifier has been drawn. -/
def Db.draw (db : Db) : Db := { db with drawn := db.drawn + 1 }

/-! ### `NotificationPreferenceDrizzleRepository` and `NotificationPreferencesService` -/

/-- `NotificationChannel`. -/
inductive NotificationChannel
  | inApp
  | email
  deriving DecidableEq, Repr

/-- The column of a preference for a channel. -/
def NotificationPreference.field (preference : NotificationPreference) :
    NotificationChannel → Bool
  | .inApp => preference.inApp
  | .email => preference.email

/-- `findForCheck`: the row of the type and the wildcard row. -/
def findForCheck (tenantId userId : Uuid) (type : String)
    (preferences : List NotificationPreference) : List NotificationPreference :=
  preferences.filter fun preference ↦
    preference.tenantId = tenantId ∧ preference.userId = userId ∧
      (preference.type = type ∨ preference.type = "*")

/-- The resolution of `isEnabled`: the row of the type, then the wildcard row, then enabled. -/
def resolve (tenantId userId : Uuid) (type : String) (channel : NotificationChannel)
    (preferences : List NotificationPreference) : Bool :=
  let rows := findForCheck tenantId userId type preferences
  match rows.find? fun row ↦ row.type = type with
  | some specific => specific.field channel
  | none =>
    match rows.find? fun row ↦ row.type = "*" with
    | some wildcard => wildcard.field channel
    | none => true

/-- `isEnabled`. -/
def isEnabled (tenantId userId : Uuid) (type : String) (channel : NotificationChannel) :
    NotificationCall Bool :=
  readDatabase fun db ↦ resolve tenantId userId type channel db.preferences

/-- `UpsertPreferenceInput`: a channel that is absent is left alone, or enabled in a new row. -/
structure UpsertPreferenceInput where
  tenantId : Uuid
  userId : Uuid
  type : String
  inApp : Option Bool := none
  email : Option Bool := none
  deriving DecidableEq, Repr

/-- The row of a preference. -/
def isPreferenceOf (tenantId userId : Uuid) (type : String) (preference : NotificationPreference) :
    Bool :=
  preference.tenantId = tenantId ∧ preference.userId = userId ∧ preference.type = type

/-- `upsert`: `INSERT … ON CONFLICT (tenant_id, user_id, type) DO UPDATE`. -/
def upsertPreference (input : UpsertPreferenceInput) (preferences : List NotificationPreference) :
    List NotificationPreference :=
  if preferences.any (isPreferenceOf input.tenantId input.userId input.type) then
    updateWhere (isPreferenceOf input.tenantId input.userId input.type)
      (fun row ↦ { row with
        inApp := input.inApp.getD row.inApp
        email := input.email.getD row.email }) preferences
  else
    preferences ++ [{
      tenantId := input.tenantId
      userId := input.userId
      type := input.type
      inApp := input.inApp.getD true
      email := input.email.getD true }]

/-- `delete`. -/
def deletePreference (tenantId userId : Uuid) (type : String)
    (preferences : List NotificationPreference) : List NotificationPreference :=
  deleteWhere (isPreferenceOf tenantId userId type) preferences

/-! ### `NotificationDrizzleRepository` -/

/-- `CreateNotificationInput`; the source event is bound as text. -/
structure CreateNotificationInput where
  tenantId : Uuid
  recipientId : Uuid
  actorId : Option Uuid
  type : String
  title : String
  body : Option String
  resourceType : Option String
  resourceId : Option Uuid
  sourceEventId : Except Failure Uuid

/-- The row `create` inserts. -/
def CreateNotificationInput.row (input : CreateNotificationInput) (id source : Uuid)
    (createdAt : Date) : InAppNotification where
  id := id
  tenantId := input.tenantId
  recipientId := input.recipientId
  actorId := input.actorId
  type := input.type
  title := varchar 500 input.title
  body := input.body
  resourceType := input.resourceType
  resourceId := input.resourceId
  createdAt := createdAt
  sourceEventId := some source

/-- A text for a column `varchar(limit)`. -/
def checkLength (limit : ℕ) (text : String) : Except Failure Unit :=
  if FitsVarchar limit text then .ok () else .error (.valueTooLong limit)

theorem checkLength_eq_ok {limit : ℕ} {text : String} {result : Unit} :
    checkLength limit text = .ok result ↔ FitsVarchar limit text := by
  unfold checkLength
  split_ifs with hfits <;> simp [hfits]

/-- `create`, called by `NotificationsService.send`: `INSERT … ON CONFLICT (source_event_id) DO NOTHING
RETURNING …`, on a connection of its own. -/
def createNotification (input : CreateNotificationInput) (db : Db) :
    Except Failure (Option InAppNotification × Db) := do
  let source ← input.sourceEventId
  checkLength 500 input.title
  if some source ∈ db.inAppNotifications.map InAppNotification.sourceEventId then
    .ok (none, db.draw)
  else if db.nextUuid ∈ db.inAppNotifications.map InAppNotification.id then
    .error .uniqueViolation
  else
    .ok (some (input.row db.nextUuid source db.now), { db.draw with
      inAppNotifications := db.inAppNotifications ++ [input.row db.nextUuid source db.now] })

/-- `countUnread`. -/
def countUnread (tenantId recipientId : Uuid) (notifications : List InAppNotification) : ℕ :=
  notifications.countP fun row ↦
    row.tenantId = tenantId ∧ row.recipientId = recipientId ∧ row.isRead = false

/-- A notification that has been read. -/
def InAppNotification.markedRead (now : Date) (row : InAppNotification) : InAppNotification :=
  { row with isRead := true, readAt := some now }

/-- `markRead`. -/
def markRead (id : Uuid) (db : Db) : Db :=
  { db with
    inAppNotifications := updateWhere (fun row ↦ row.id = id)
      (InAppNotification.markedRead db.now) db.inAppNotifications }

/-- `markAllRead`. -/
def markAllRead (tenantId recipientId : Uuid) (db : Db) : Db :=
  { db with
    inAppNotifications := updateWhere
      (fun row ↦ row.tenantId = tenantId ∧ row.recipientId = recipientId ∧ row.isRead = false)
      (InAppNotification.markedRead db.now) db.inAppNotifications }

/-- `listSince`: the notifications newer than `afterId`, oldest first. -/
def listSince (tenantId recipientId afterId : Uuid) (limit : ℕ)
    (notifications : List InAppNotification) : List InAppNotification :=
  ((notifications.filter fun row ↦
      row.tenantId = tenantId ∧ row.recipientId = recipientId ∧ afterId < row.id).insertionSort
    fun a b ↦ a.id ≤ b.id).take (min limit 50)

end RallyApi.Notifications

import RallyApi.Notifications.Schedulers

/-!
# Atomicity of the schedulers with the business transaction

A transaction that rolls back should leave both outboxes as they were, and one that commits should have
added one row for each call whose key was fresh. `Atomic` says so. It holds exactly when the transaction
commits, or has no call that writes to `notification_outbox` (`atomic_iff`): the notification scheduler
does not write with the transaction.

`Adds` describes a sequence of inserts with `ON CONFLICT DO NOTHING` by the calls that are `fresh`, and
`runCalls_adds` shows that each scheduler adds to its table so.
-/

set_option autoImplicit false
set_option relaxedAutoImplicit false

namespace RallyApi.Notifications

open Platform

/-! ### Inserts that do nothing on a conflict -/

section Adds

variable {Options Row : Type} (key : Options → Option String) (rowKey : Row → Option String)
  (IsRow : Options → Row → Prop)

/-- The calls whose key is fresh, among keys that are taken and those of the calls before. -/
def fresh : List (Option String) → List Options → List Options
  | _, [] => []
  | taken, options :: rest =>
    if keyTaken (key options) taken then fresh taken rest
    else options :: fresh (taken ++ [key options]) rest

/-- Each call with a fresh key has added exactly one row, in order, and the others none. -/
def Adds (before : List Row) (calls : List Options) (after : List Row) : Prop :=
  ∃ added, after = before ++ added ∧
    List.Forall₂ IsRow (fresh key (before.map rowKey) calls) added

variable {key rowKey IsRow} {before middle after : List Row} {options : Options}
  {calls : List Options} {row : Row}

theorem adds_nil : Adds key rowKey IsRow before [] before :=
  ⟨[], (List.append_nil before).symm, .nil⟩

/-- A call whose key is taken adds nothing. -/
theorem Adds.cons_taken (htaken : keyTaken (key options) (before.map rowKey) = true)
    (hrest : Adds key rowKey IsRow before calls after) :
    Adds key rowKey IsRow before (options :: calls) after := by
  obtain ⟨added, hafter, hrows⟩ := hrest
  refine ⟨added, hafter, ?_⟩
  rwa [fresh, if_pos htaken]

/-- A call whose key is not taken adds its row. -/
theorem Adds.cons_fresh (hfresh : ¬ keyTaken (key options) (before.map rowKey) = true)
    (hrow : IsRow options row) (hkey : rowKey row = key options)
    (hrest : Adds key rowKey IsRow (before ++ [row]) calls after) :
    Adds key rowKey IsRow before (options :: calls) after := by
  obtain ⟨added, hafter, hrows⟩ := hrest
  refine ⟨row :: added, by rw [hafter, List.append_assoc, List.singleton_append], ?_⟩
  rw [fresh, if_neg hfresh]
  rw [List.map_append, List.map_singleton, hkey] at hrows
  exact .cons hrow hrows

/-- No call is fresh exactly when the keys of all are taken from the start. -/
theorem fresh_eq_nil_iff {taken : List (Option String)} :
    fresh key taken calls = [] ↔ ∀ options ∈ calls, keyTaken (key options) taken = true := by
  induction calls with
  | nil => simp [fresh]
  | cons options rest ih =>
    by_cases htaken : keyTaken (key options) taken = true
    · rw [fresh, if_pos htaken, ih]
      simp [htaken]
    · rw [fresh, if_neg htaken]
      simp [htaken]

/-- The table is unchanged exactly when the keys of all calls were taken. -/
theorem Adds.eq_iff (hadds : Adds key rowKey IsRow before calls after) :
    after = before ↔ ∀ options ∈ calls, keyTaken (key options) (before.map rowKey) = true := by
  obtain ⟨added, rfl, hrows⟩ := hadds
  rw [List.append_right_eq_self, ← fresh_eq_nil_iff, ← List.length_eq_zero_iff,
    ← List.length_eq_zero_iff, hrows.length_eq]

end Adds

/-! ### The two schedulers -/

/-- The calls of `NotificationSchedulerService.schedule`, in order. -/
def notificationCalls (calls : List ScheduleCall) : List ScheduleNotificationOptions :=
  calls.filterMap fun
    | .notification options => some options
    | .email _ => none

/-- The calls of `EmailSchedulerService.schedule`, in order. -/
def emailCalls (calls : List ScheduleCall) : List ScheduleEmailOptions :=
  calls.filterMap fun
    | .notification _ => none
    | .email options => some options

/-- A row of `notification_outbox` with the data of a call, drawn and dated by the database. -/
def IsNotificationRow (options : ScheduleNotificationOptions) (row : NotificationOutboxRow) : Prop :=
  ∃ id now, row = options.row id now

/-- A row of `email_outbox` with the data of a call, drawn and dated by the database. -/
def IsEmailRow (options : ScheduleEmailOptions) (row : EmailOutboxRow) : Prop :=
  ∃ id now, row = options.row id now

/-- What the calls of a transaction add to `notification_outbox`. -/
abbrev AddsNotifications := Adds ScheduleNotificationOptions.key
  NotificationOutboxRow.idempotencyKey IsNotificationRow

/-- What the calls of a transaction add to `email_outbox`. -/
abbrev AddsEmails := Adds ScheduleEmailOptions.key EmailOutboxRow.idempotencyKey IsEmailRow

/-! ### A business transaction -/

variable {db : Db} {emailOutbox : List EmailOutboxRow} {calls : List ScheduleCall} {ending : Ending}

/-- A callback that returns runs its first call, which returns, and then the others. -/
theorem runCalls_cons {call : ScheduleCall}
    (hreturned : (runCalls (call :: calls) db emailOutbox).1 = true) :
    ∃ after rows, call.run db emailOutbox = .ok (after, rows) ∧
      runCalls (call :: calls) db emailOutbox = runCalls calls after rows := by
  rw [runCalls] at hreturned ⊢
  cases hrun : call.run db emailOutbox with
  | error failure =>
    rw [hrun] at hreturned
    cases hreturned
  | ok result => exact ⟨result.1, result.2, rfl, rfl⟩

/-- Assumes: all calls return. The notification scheduler has added its rows to the store, the e-mail
scheduler to the table of the transaction and nowhere else. -/
theorem runCalls_adds (hreturned : (runCalls calls db emailOutbox).1 = true) :
    AddsNotifications db.notificationOutbox (notificationCalls calls)
        (runCalls calls db emailOutbox).2.1.notificationOutbox ∧
      AddsEmails emailOutbox (emailCalls calls) (runCalls calls db emailOutbox).2.2 ∧
      (runCalls calls db emailOutbox).2.1.emailOutbox = db.emailOutbox := by
  induction calls generalizing db emailOutbox with
  | nil => exact ⟨adds_nil, adds_nil, rfl⟩
  | cons call rest ih =>
    obtain ⟨middle, rows, hrun, hrest⟩ := runCalls_cons hreturned
    rw [hrest] at hreturned ⊢
    obtain ⟨hnotifications, hemails, hsame⟩ := ih hreturned
    cases call with
    | notification options =>
      obtain ⟨after, hschedule, hpure⟩ := bind_eq_ok.mp hrun
      obtain ⟨rfl, rfl⟩ := Prod.mk.inj (Except.ok.inj hpure)
      rcases scheduleNotification_cases hschedule with ⟨rfl, htaken⟩ | ⟨rfl, hfresh, _⟩
      · exact ⟨hnotifications.cons_taken htaken, hemails, hsame⟩
      · exact ⟨hnotifications.cons_fresh hfresh ⟨_, _, rfl⟩ rfl, hemails, hsame⟩
    | email options =>
      obtain ⟨after, hschedule, hpure⟩ := bind_eq_ok.mp hrun
      obtain ⟨rfl, rfl⟩ := Prod.mk.inj (Except.ok.inj hpure)
      rcases scheduleEmail_cases hschedule with ⟨rfl, htaken⟩ | ⟨rfl, hfresh⟩
      · exact ⟨hnotifications, hemails.cons_taken htaken, hsame⟩
      · exact ⟨hnotifications, hemails.cons_fresh hfresh ⟨_, _, rfl⟩ rfl, hsame⟩

/-- The calls a callback makes before one throws: all of them, if none does. -/
def callsReturned : List ScheduleCall → Db → List EmailOutboxRow → List ScheduleCall
  | [], _, _ => []
  | call :: rest, db, emailOutbox =>
    match call.run db emailOutbox with
    | .ok (after, rows) => call :: callsReturned rest after rows
    | .error _ => []

/-- A call that throws leaves nothing behind. -/
theorem runCalls_callsReturned :
    runCalls (callsReturned calls db emailOutbox) db emailOutbox =
      (true, (runCalls calls db emailOutbox).2) := by
  induction calls generalizing db emailOutbox with
  | nil => rfl
  | cons call rest ih =>
    rw [callsReturned, runCalls]
    cases hrun : call.run db emailOutbox with
    | error failure => rfl
    | ok result =>
      rw [← ih]
      simp only [runCalls, hrun]

/-- A callback that returns has made all its calls. -/
theorem callsReturned_eq (hreturned : (runCalls calls db emailOutbox).1 = true) :
    callsReturned calls db emailOutbox = calls := by
  induction calls generalizing db emailOutbox with
  | nil => rfl
  | cons call rest ih =>
    obtain ⟨after, rows, hrun, hrest⟩ := runCalls_cons hreturned
    rw [hrest] at hreturned
    simp only [callsReturned, hrun, ih hreturned]

/-- How a transaction ends in fact: it rolls back if a call throws. -/
def Ending.inFact (ending : Ending) (calls : List ScheduleCall) (db : Db) : Ending :=
  if (runCalls calls db db.emailOutbox).1 then ending else .rollsBack

/-- What a transaction should leave: both outboxes as they were if it rolls back; one more row for each
call with a fresh key if it commits. -/
def Atomic (calls : List ScheduleCall) (db after : Db) : Ending → Prop
  | .rollsBack => after.notificationOutbox = db.notificationOutbox ∧ after.emailOutbox = db.emailOutbox
  | .commits =>
    AddsNotifications db.notificationOutbox (notificationCalls calls) after.notificationOutbox ∧
      AddsEmails db.emailOutbox (emailCalls calls) after.emailOutbox

/-- The store after a transaction that rolls back: what its calls have done to it. -/
theorem businessTransaction_rollsBack (hrollsBack : ending.inFact calls db = .rollsBack) :
    businessTransaction calls ending db = (runCalls calls db db.emailOutbox).2.1 := by
  refine if_neg fun hcommits ↦ ?_
  rw [Ending.inFact, if_pos hcommits.1, hcommits.2] at hrollsBack
  cases hrollsBack

/-- A transaction is atomic exactly when it commits, or when the key of each notification it has scheduled
was taken before, so that no call had anything to write to `notification_outbox`. -/
theorem atomic_iff :
    Atomic calls db (businessTransaction calls ending db) (ending.inFact calls db) ↔
      ending.inFact calls db = .commits ∨
        ∀ options ∈ notificationCalls (callsReturned calls db db.emailOutbox),
          keyTaken options.key
            (db.notificationOutbox.map NotificationOutboxRow.idempotencyKey) = true := by
  have hall : (runCalls (callsReturned calls db db.emailOutbox) db db.emailOutbox).1 = true := by
    rw [runCalls_callsReturned]
  have hadds := runCalls_adds hall
  rw [runCalls_callsReturned] at hadds
  obtain ⟨hnotifications, hemails, hsame⟩ := hadds
  cases hending : ending.inFact calls db with
  | commits =>
    refine ⟨fun _ ↦ .inl rfl, fun _ ↦ ?_⟩
    have hreturned : (runCalls calls db db.emailOutbox).1 = true := by
      by_contra hthrown
      simp [Ending.inFact, hthrown] at hending
    rw [Ending.inFact, if_pos hreturned] at hending
    rw [callsReturned_eq hreturned] at hnotifications hemails
    rw [businessTransaction, if_pos ⟨hreturned, hending⟩]
    exact ⟨hnotifications, hemails⟩
  | rollsBack =>
    rw [businessTransaction_rollsBack hending, or_iff_right (by decide), ← hnotifications.eq_iff]
    exact ⟨fun h ↦ h.1, fun h ↦ ⟨h, hsame⟩⟩

/-- A notification without a key. -/
def oneNotification : List ScheduleCall :=
  [.notification { tenantId := 1, recipientId := 7, template := "WORKSPACE_INVITATION", vars := [] }]

/-- Scheduling is not atomic with the transaction around it: that rolls back, and the notification stays
scheduled. -/
theorem ghostNotification :
    ¬ Atomic oneNotification quietDb (businessTransaction oneNotification .rollsBack quietDb)
      .rollsBack := by
  rintro ⟨hnotifications, _⟩
  exact absurd hnotifications (by decide +kernel)

end RallyApi.Notifications

import RallyApi.Notifications.Answering
import RallyApi.Outbox.RelayInvariant

/-!
# Source event identifiers

The idempotency key of a scheduled notification is a text of at most 255 characters, and the documentation
of the scheduler recommends a SHA-256 digest for one of its events. `processRow` passes the key on as the
source event identifier of the notification, which is a column of type `uuid`.

A relay that takes a row marks it as sent exactly if the recipient has turned the in-app channel off, or
the title fits and the key, if there is one, is the text of a UUID (`sent_iff`). Every other row fails in
each of its attempts and ends as failed (`digest_fails`).
-/

set_option autoImplicit false
set_option relaxedAutoImplicit false

namespace RallyApi.Notifications

open Concurrency Outbox Platform Store

/-! ### The row and its key -/

/-- The key is one that a column of type `uuid` takes, or there is none. -/
def KeyIsUuid (key : Option String) : Prop := ∀ text ∈ key, (parseUuid text).isSome

theorem keyIsUuid_iff {row : NotificationOutboxRow} :
    KeyIsUuid row.idempotencyKey ↔ ∃ source, row.sourceEventId = .ok source := by
  unfold KeyIsUuid NotificationOutboxRow.sourceEventId
  cases row.idempotencyKey with
  | none => simp
  | some text => cases hparsed : parseUuid text <;> simp [hparsed]

/-- The row can be delivered: the recipient does not want it, or its notification can be inserted. -/
def Deliverable (preferences : List NotificationPreference) (row : NotificationOutboxRow) : Prop :=
  resolve row.tenantId row.recipientId row.type .inApp preferences = false ∨
    ∃ rendered, renderNotification row.type row.vars = .ok rendered ∧
      FitsVarchar 500 rendered.title ∧ KeyIsUuid row.idempotencyKey

/-! ### The relay at work -/

/-- The identifiers that are still to be drawn are new. -/
def Db.UuidsFresh (db : Db) : Prop :=
  Function.Injective db.uuids ∧
    ∀ draw ≥ db.drawn, db.uuids draw ∉ db.inAppNotifications.map InAppNotification.id

/-- A relay is at work in its transaction, and nobody disturbs it. -/
structure AtWork (number : ℕ) (preferences : List NotificationPreference)
    (rows : List NotificationOutboxRow) (db : Db) : Prop where
  answering : db.Answering
  isOpen : number ∈ db.transactions.map OpenTransaction.number
  preferences : db.preferences = preferences
  rows : db.notificationOutbox = rows
  fresh : db.UuidsFresh

section Loop

variable {number : ℕ} {preferences : List NotificationPreference} {rows : List NotificationOutboxRow}
  {db after : Db} {row : NotificationOutboxRow} {tx : BatchTx}

/-- Creating a notification does not disturb the relay. -/
theorem AtWork.created {input : CreateNotificationInput} {created : Option InAppNotification}
    (hwork : AtWork number preferences rows db)
    (hok : createNotification input db = .ok (created, after)) :
    AtWork number preferences rows after := by
  obtain ⟨hinjective, hfresh⟩ := hwork.fresh
  rcases createNotification_cases hok with rfl | ⟨source, hid, rfl⟩
  · refine ⟨hwork.answering, hwork.isOpen, hwork.preferences, hwork.rows, hinjective, ?_⟩
    exact fun draw hdraw ↦ hfresh draw (Nat.le_of_succ_le hdraw)
  · refine ⟨hwork.answering, hwork.isOpen, hwork.preferences, hwork.rows, hinjective, ?_⟩
    intro draw hdraw hmem
    rw [List.map_append, List.mem_append] at hmem
    rcases hmem with hold | hnew
    · exact hfresh draw (Nat.le_of_succ_le hdraw) hold
    · have hsame : draw = db.drawn := hinjective (List.mem_singleton.mp hnew)
      have hlater : db.drawn + 1 ≤ draw := hdraw
      omega

theorem AtWork.processed (hwork : AtWork number preferences rows db) :
    AtWork number preferences rows ((processNotification row).run db).2 :=
  processNotification_keeps _ (fun _ _ _ _ hbefore hok ↦ hbefore.created hok) hwork

/-- Assumes: the identifier that is drawn is new. `create` returns exactly if the source event identifier is
a UUID and the title fits. -/
theorem createNotification_returns_iff {input : CreateNotificationInput}
    (hfresh : db.nextUuid ∉ db.inAppNotifications.map InAppNotification.id) :
    (∃ result, createNotification input db = .ok result) ↔
      (∃ source, input.sourceEventId = .ok source) ∧ FitsVarchar 500 input.title := by
  constructor
  · rintro ⟨result, hok⟩
    obtain ⟨source, hsource, hrest⟩ := bind_eq_ok.mp hok
    obtain ⟨_, htitle, _⟩ := bind_eq_ok.mp hrest
    exact ⟨⟨source, hsource⟩, checkLength_eq_ok.mp htitle⟩
  · rintro ⟨⟨source, hsource⟩, htitle⟩
    by_cases htaken : some source ∈ db.inAppNotifications.map InAppNotification.sourceEventId
    · refine ⟨(none, db.draw), bind_eq_ok.mpr ⟨source, hsource, bind_eq_ok.mpr
        ⟨(), checkLength_eq_ok.mpr htitle, ?_⟩⟩⟩
      rw [if_pos htaken]
    · exact ⟨_, createNotification_eq_some.mpr ⟨source, hsource, htitle, htaken, hfresh, rfl, rfl⟩⟩

/-- Assumes: the relay is at work. `processRow` returns exactly if the row can be delivered. -/
theorem processNotification_returns_iff (hwork : AtWork number preferences rows db) :
    (∃ task after, (processNotification row).run db = (.ok task, after)) ↔
      Deliverable preferences row := by
  have hcreates : ∀ rendered : RenderedNotification,
      (∃ result, createNotification (row.input rendered) db = .ok result) ↔
        KeyIsUuid row.idempotencyKey ∧ FitsVarchar 500 rendered.title := fun rendered ↦
    (createNotification_returns_iff (hwork.fresh.2 db.drawn le_rfl)).trans
      (and_congr_left fun _ ↦ keyIsUuid_iff.symm)
  rw [Deliverable, ← hwork.preferences]
  cases henabled : resolve row.tenantId row.recipientId row.type .inApp db.preferences with
  | false =>
    exact iff_of_true ⟨_, _, processNotification_disabled hwork.answering henabled⟩ (.inl rfl)
  | true =>
    constructor
    · rintro ⟨task, after, hrun⟩
      obtain ⟨rendered, created, middle, hrendered, hcreated⟩ :=
        processNotification_created hwork.answering henabled hrun
      obtain ⟨hkey, htitle⟩ := (hcreates rendered).mp ⟨_, hcreated⟩
      exact .inr ⟨rendered, hrendered, htitle, hkey⟩
    · rintro (hdisabled | ⟨rendered, hrendered, htitle, hkey⟩)
      · cases hdisabled
      · obtain ⟨⟨created, middle⟩, hcreated⟩ := (hcreates rendered).mpr ⟨hkey, htitle⟩
        exact ⟨_, _, processNotification_enabled hwork.answering henabled hrendered hcreated⟩

/-- What a relay records for a row: it is marked as sent if it can be delivered, and else it has failed once
more. -/
def Records (preferences : List NotificationPreference) (row : NotificationOutboxRow) (write : Write) :
    Prop :=
  write.rowId = row.id ∧ (Deliverable preferences row → ∃ sentAt, write = .markSent row.id .sent sentAt) ∧
    (¬ Deliverable preferences row → ∃ message, write = .markFailed row.id (row.attempts + 1)
      (if notificationRelayService.maxAttempts ≤ row.attempts + 1 then .failed else .pending) message)

/-- A statement of an open transaction. -/
theorem run_inTransaction {α : Type} {statement : Db → Except Failure (α × Db)} {value : α}
    (hopen : number ∈ db.transactions.map OpenTransaction.number)
    (hok : statement db = .ok (value, after)) :
    (inTransaction number statement).run db = (.ok value, after) := by
  rw [inTransaction, Call.run_attempt, if_pos hopen, hok]

/-- The body of the loop records the outcome of the row. -/
theorem run_relayRow (hwork : AtWork tx.number preferences rows db) :
    ∃ recorded write after, (relayRow notificationRelay tx row).run db = (.ok recorded, after) ∧
      AtWork tx.number preferences rows after ∧ recorded.number = tx.number ∧
      recorded.writes = tx.writes ++ [write] ∧ Records preferences row write := by
  have hprocessed : AtWork tx.number preferences rows ((processNotification row).run db).2 :=
    hwork.processed
  have hreturns : (∃ task after, (processNotification row).run db = (.ok task, after)) ↔
      Deliverable preferences row := processNotification_returns_iff hwork
  rw [relayRow, Call.run_tryCatch, Call.run_bind]
  cases hrun : (processNotification row).run db with
  | mk outcome middle =>
    rw [hrun] at hprocessed hreturns
    have hrow : (notificationRelay.processRow row).run db = (outcome, middle) := hrun
    rw [hrow]
    cases outcome with
    | ok task =>
      have hdeliverable : Deliverable preferences row := hreturns.mp ⟨task, middle, rfl⟩
      have hmarked : (markSent notificationRelay tx row).run middle = (.ok { tx with
          writes := tx.writes ++ [.markSent row.id .sent middle.now] }, middle) :=
        run_inTransaction hprocessed.isOpen rfl
      simp only [Call.run_bind, hmarked]
      exact ⟨_, .markSent row.id .sent middle.now, middle, rfl, hprocessed, rfl, rfl, rfl,
        fun _ ↦ ⟨middle.now, rfl⟩, fun hnot ↦ absurd hdeliverable hnot⟩
    | error failure =>
      have hnot : ¬ Deliverable preferences row := by
        rw [← hreturns]
        rintro ⟨task, after, hok⟩
        cases hok
      have hmarked : (markFailed notificationRelay tx row failure).run middle = (.ok { tx with
          writes := tx.writes ++ [.markFailed row.id (row.attempts + 1)
            (if notificationRelayService.maxAttempts ≤ row.attempts + 1 then .failed else .pending)
            failure.message] }, middle) :=
        run_inTransaction hprocessed.isOpen rfl
      simp only [hmarked]
      exact ⟨_, _, middle, rfl, hprocessed, rfl, rfl, rfl, fun hdeliverable ↦ absurd hdeliverable hnot,
        fun _ ↦ ⟨failure.message, rfl⟩⟩

/-- The loop records the outcome of every row, in order. -/
theorem run_relayRows (batch : List NotificationOutboxRow) (hwork : AtWork tx.number preferences rows db) :
    ∃ recorded writes after, (relayRows notificationRelay batch tx).run db = (.ok recorded, after) ∧
      AtWork tx.number preferences rows after ∧ recorded.number = tx.number ∧
      recorded.writes = tx.writes ++ writes ∧ List.Forall₂ (Records preferences) batch writes := by
  induction batch generalizing tx db with
  | nil => exact ⟨tx, [], db, rfl, hwork, rfl, (List.append_nil _).symm, .nil⟩
  | cons row rest ih =>
    obtain ⟨recorded, write, middle, hrow, hmiddle, hnumber, hwrites, hrecords⟩ := run_relayRow hwork
    obtain ⟨last, writes, after, hrest, hafter, hsame, hlast, hall⟩ := ih (hnumber ▸ hmiddle)
    refine ⟨last, write :: writes, after, ?_, hnumber ▸ hafter, hsame.trans hnumber, ?_, .cons hrecords hall⟩
    · rw [relayRows, Call.run_bind, hrow]
      exact hrest
    · rw [hlast, hwrites, List.append_assoc, List.singleton_append]

end Loop

/-! ### A relay that runs alone -/

/-- A process can run the relay: everything answers, the process is not relaying, and identifiers are
distinct and new. -/
structure Ready (process : ℕ) (db : Db) : Prop where
  answering : db.Answering
  idle : (process, OutboxName.notification) ∉ db.relaying
  ids : (db.notificationOutbox.map fun row ↦ row.id).Nodup
  fresh : db.UuidsFresh

section Relay

variable {process : ℕ} {db : Db} {row : NotificationOutboxRow}

/-- The store once a transaction of the relay has been opened. -/
def Db.opened (db : Db) : Db :=
  { db with
    begun := db.begun + 1
    transactions := db.transactions ++ [{ number := db.begun, outbox := .notification }] }

/-- A transaction that has just been opened has locked nothing. -/
theorem batch_opened : notificationRelay.batch db.opened = notificationRelay.batch db := by
  have hlocked : db.opened.locked notificationRelay.outbox = db.locked notificationRelay.outbox := by
    simp [Db.locked, Db.opened, List.filter_append, notificationRelay]
  simp only [RelayService.batch, hlocked]
  rfl

/-- Assumes: everything answers, and identifiers are new. The transaction of the relay takes a batch,
records the outcome of each of its rows, and commits. -/
theorem run_relayTransaction (hanswering : db.Answering) (hfresh : db.UuidsFresh) :
    ∃ writes after, (relayTransaction notificationRelay).run db = (.ok (), after) ∧
      List.Forall₂ (Records db.preferences) (notificationRelay.batch db) writes ∧
      after.notificationOutbox = notificationRelay.apply writes db.notificationOutbox := by
  have hbegin : (beginTransaction notificationRelay.outbox).run db = (.ok db.begun, db.opened) := by
    rw [beginTransaction, run_access_eq_ok hanswering]
    rfl
  have hopened : db.begun ∈ db.opened.transactions.map OpenTransaction.number := by
    simp [Db.opened]
  have hfetch : ∃ fetched, (fetchBatch notificationRelay db.begun).run db.opened =
      (.ok (notificationRelay.batch db.opened), fetched) ∧
        AtWork db.begun db.preferences db.notificationOutbox fetched := by
    refine ⟨_, run_inTransaction hopened rfl, hanswering, ?_, rfl, rfl, hfresh⟩
    show db.begun ∈ (updateWhere _ _ db.opened.transactions).map OpenTransaction.number
    rw [map_updateWhere]
    · exact hopened
    · exact fun _ ↦ rfl
  obtain ⟨fetched, hfetched, hwork⟩ := hfetch
  obtain ⟨recorded, writes, worked, hrun, hworked, hnumber, hwrites, hrecords⟩ :=
    (run_relayRows (notificationRelay.batch db.opened) hwork : ∃ recorded writes after,
      (relayRows notificationRelay (notificationRelay.batch db.opened) { number := db.begun }).run fetched =
        (.ok recorded, after) ∧ _)
  have hcommit : ∃ after, (commitTransaction notificationRelay recorded).run worked = (.ok (), after) ∧
      after.notificationOutbox = notificationRelay.apply writes db.notificationOutbox := by
    have hopen : recorded.number ∈ worked.transactions.map OpenTransaction.number :=
      hnumber ▸ hworked.isOpen
    refine ⟨_, run_inTransaction hopen rfl, ?_⟩
    rw [← hworked.rows]
    exact congrArg (fun writes ↦ notificationRelay.apply writes worked.notificationOutbox) hwrites
  obtain ⟨after, hafter, houtbox⟩ := hcommit
  have hbatch : (relayBatch notificationRelay db.begun).run db.opened = (.ok (), after) := by
    rw [relayBatch, Call.run_bind, hfetched]
    simp only [Call.run_bind, hrun, hafter]
  refine ⟨writes, after, ?_, batch_opened ▸ hrecords, houtbox⟩
  rw [relayTransaction, Call.run_bind, hbegin]
  simp only [Call.run_tryCatch, hbatch]

/-- The store once a process has entered the relay. -/
def Db.entered (db : Db) (process : ℕ) : Db :=
  { db with relaying := (process, .notification) :: db.relaying }

/-- Assumes: a process can run the relay. It takes a batch, records the outcome of each of its rows, and
commits. -/
theorem run_relay (hready : Ready process db) :
    ∃ writes, List.Forall₂ (Records db.preferences) (notificationRelay.batch db) writes ∧
      ((relay notificationRelay process).run db).2.notificationOutbox =
        notificationRelay.apply writes db.notificationOutbox := by
  have hanswering : (db.entered process).Answering := hready.answering
  obtain ⟨writes, after, hrun, hrecords, houtbox⟩ := run_relayTransaction hanswering hready.fresh
  have henter : (enterRelay process notificationRelay.outbox).run db = (.ok false, db.entered process) := by
    have hidle : (process, notificationRelay.outbox) ∉ db.relaying := hready.idle
    rw [enterRelay, Call.run_atomically, if_neg hidle]
    rfl
  have hleave : ((relay notificationRelay process).run db).2.notificationOutbox =
      after.notificationOutbox := by
    rw [relay, Call.run_bind, henter]
    simp only [Bool.false_eq_true, if_false, Call.run_tryFinally, hrun]
    rfl
  exact ⟨writes, hrecords, hleave.trans houtbox⟩

/-! ### The row afterwards -/

/-- The writes of a relay act on each row by itself. -/
theorem apply_eq_map (writes : List Write) (rows : List NotificationOutboxRow) :
    notificationRelay.apply writes rows =
      rows.map fun row ↦ { row with toOutboxRow := applyWrites writes row.toOutboxRow } := by
  induction writes generalizing rows with
  | nil => exact (List.map_id' rows).symm
  | cons write rest ih =>
    have hstep : notificationRelay.apply (write :: rest) rows = notificationRelay.apply rest
        (updateWhere (fun row ↦ (notificationRelay.columns row).id = write.rowId)
          (fun row ↦ notificationRelay.setColumns (write.set (notificationRelay.columns row)) row) rows) :=
      rfl
    rw [hstep, ih, updateWhere, List.map_map]
    refine List.map_congr_left fun row _ ↦ ?_
    by_cases hrow : row.id = write.rowId
    · simp [notificationRelay, applyWrites, hrow]
    · simp [notificationRelay, applyWrites, hrow]

/-- The records of a batch are about its rows, in order. -/
theorem map_rowId_of_records {preferences : List NotificationPreference}
    {batch : List NotificationOutboxRow} {writes : List Write}
    (hrecords : List.Forall₂ (Records preferences) batch writes) :
    writes.map Write.rowId = batch.map fun row ↦ row.id := by
  induction hrecords with
  | nil => rfl
  | cons hrecord _ ih => rw [List.map_cons, List.map_cons, hrecord.1, ih]

/-- Every row of a batch has a record. -/
theorem exists_record {preferences : List NotificationPreference}
    {batch : List NotificationOutboxRow} {writes : List Write}
    (hrecords : List.Forall₂ (Records preferences) batch writes) (hrow : row ∈ batch) :
    ∃ write ∈ writes, Records preferences row write := by
  induction hrecords with
  | nil => cases hrow
  | cons hrecord _ ih =>
    rcases List.mem_cons.mp hrow with rfl | hrest
    · exact ⟨_, List.mem_cons_self, hrecord⟩
    · obtain ⟨write, hwrite, hsame⟩ := ih hrest
      exact ⟨write, List.mem_cons_of_mem _ hwrite, hsame⟩

/-- Assumes: a process can run the relay, and a row is in its batch. Afterwards the row is as its record
leaves it. -/
theorem row_after_relay (hready : Ready process db) (hrow : row ∈ notificationRelay.batch db) :
    ∃ write, Records db.preferences row write ∧ ∀ after : NotificationOutboxRow,
      after ∈ ((relay notificationRelay process).run db).2.notificationOutbox ∧ after.id = row.id ↔
        after = { row with toOutboxRow := write.set row.toOutboxRow } := by
  obtain ⟨writes, hrecords, houtbox⟩ := run_relay hready
  obtain ⟨write, hwrite, hrecord⟩ := exists_record hrecords hrow
  have hunique : (writes.map Write.rowId).Nodup := by
    rw [map_rowId_of_records hrecords]
    exact nodup_map_page hready.ids
  have hmem : row ∈ db.notificationOutbox := by
    have hsorted := List.mem_of_mem_take hrow
    rw [List.mem_insertionSort] at hsorted
    exact (List.mem_filter.mp hsorted).1
  have hset : applyWrites writes row.toOutboxRow = write.set row.toOutboxRow :=
    applyWrites_of_unique hunique hwrite hrecord.1.symm
  refine ⟨write, hrecord, fun after ↦ ?_⟩
  rw [houtbox, apply_eq_map, List.mem_map]
  constructor
  · rintro ⟨⟨old, hold, rfl⟩, hid⟩
    have hsame : old.id = row.id := (applyWrites_id writes old.toOutboxRow).symm.trans hid
    rw [List.inj_on_of_nodup_map hready.ids hold hmem hsame, hset]
  · rintro rfl
    exact ⟨⟨row, hmem, by rw [hset]⟩, Write.set_id write row.toOutboxRow⟩

end Relay

/-! ### Scheduled rows -/

/-- The row is the one that a call of `schedule` has stored, whatever relays have recorded of it since. -/
def NotificationOutboxRow.StoredBy (row : NotificationOutboxRow) (options : ScheduleNotificationOptions) :
    Prop :=
  ∃ before after, scheduleNotification options before = .ok after ∧
    row.content = options.row before.nextUuid before.now ∧ row.content ∈ after.notificationOutbox

section Scheduled

variable {options : ScheduleNotificationOptions} {row : NotificationOutboxRow}
  {rendered : RenderedNotification} {preferences : List NotificationPreference}

/-- A stored row has the template, the variables and the key of the call, as the columns keep them. -/
theorem NotificationOutboxRow.StoredBy.columns (hstored : row.StoredBy options) :
    row.type = varchar 100 options.template ∧ row.vars = options.vars ∧
      row.idempotencyKey = options.key := by
  obtain ⟨before, after, _, hcontent, _⟩ := hstored
  exact ⟨congrArg NotificationOutboxRow.type hcontent, congrArg NotificationOutboxRow.vars hcontent,
    congrArg NotificationOutboxRow.idempotencyKey hcontent⟩

/-- A template that can be rendered is kept whole. -/
theorem varchar_of_rendered (hrendered : renderNotification options.template options.vars = .ok rendered) :
    varchar 100 options.template = options.template := by
  refine varchar_eq_self ?_
  unfold renderNotification at hrendered
  split_ifs at hrendered with hinvitation haccepted
  · rw [hinvitation]
    decide
  · rw [haccepted]
    decide

/-- Cutting off a key does not make it a UUID, or none. -/
theorem keyIsUuid_varchar {key : Option String} :
    KeyIsUuid (key.map (varchar 255)) ↔ KeyIsUuid key := by
  cases key with
  | none => exact Iff.rfl
  | some text =>
    by_cases hshort : text.length ≤ 255
    · rw [Option.map_some, varchar_eq_self hshort]
    · have hcut : (varchar 255 text).length = 255 := by
        rw [varchar, String.length_ofList, List.length_take, String.length_toList]
        omega
      simp only [KeyIsUuid, Option.map_some, Option.mem_some_iff, forall_eq']
      refine iff_of_false (fun hsome ↦ ?_) fun hsome ↦ ?_ <;>
        obtain ⟨id, hparsed⟩ := Option.isSome_iff_exists.mp hsome <;>
        have hlength := length_of_parseUuid hparsed <;>
        omega

/-- A stored row with a valid template can be delivered exactly if the recipient does not want it, or its
title fits and its key is a UUID. -/
theorem deliverable_iff (hstored : row.StoredBy options)
    (hrendered : renderNotification options.template options.vars = .ok rendered) :
    Deliverable preferences row ↔
      resolve row.tenantId row.recipientId row.type .inApp preferences = false ∨
        FitsVarchar 500 rendered.title ∧ KeyIsUuid options.idempotencyKey := by
  obtain ⟨htype, hvars, hkey⟩ := hstored.columns
  have hsame : renderNotification row.type row.vars = .ok rendered := by
    rwa [htype, hvars, varchar_of_rendered hrendered]
  rw [Deliverable, hsame, hkey, ScheduleNotificationOptions.key, keyIsUuid_varchar]
  simp

end Scheduled

/-- Assumes: a call of `schedule` with a valid template has stored the row, a process can run the relay, and
the row is in its batch. The row is sent exactly if the recipient has turned the in-app channel off, or the
title fits and the key, if there is one, is the text of a UUID. -/
theorem sent_iff {options : ScheduleNotificationOptions} {row : NotificationOutboxRow}
    {rendered : RenderedNotification} {process : ℕ} {db : Db} (hstored : row.StoredBy options)
    (hrendered : renderNotification options.template options.vars = .ok rendered)
    (hready : Ready process db) (hrow : row ∈ notificationRelay.batch db) :
    (∃ after ∈ ((relay notificationRelay process).run db).2.notificationOutbox,
        after.id = row.id ∧ after.status = .sent) ↔
      resolve row.tenantId row.recipientId row.type .inApp db.preferences = false ∨
        FitsVarchar 500 rendered.title ∧ KeyIsUuid options.idempotencyKey := by
  obtain ⟨write, ⟨_, hsent, hfailed⟩, hafter⟩ := row_after_relay hready hrow
  rw [← deliverable_iff hstored hrendered]
  constructor
  · rintro ⟨after, hmem, hid, hstatus⟩
    by_contra hnot
    obtain ⟨message, rfl⟩ := hfailed hnot
    rw [(hafter after).mp ⟨hmem, hid⟩] at hstatus
    simp only [Write.set] at hstatus
    split_ifs at hstatus
  · intro hdeliverable
    obtain ⟨sentAt, rfl⟩ := hsent hdeliverable
    obtain ⟨hmem, hid⟩ := (hafter _).mpr rfl
    exact ⟨_, hmem, hid, rfl⟩

/-- The store once a call of `schedule` has been served. -/
def scheduledDb (options : ScheduleNotificationOptions) : Db :=
  { inviterDb with notificationOutbox := [options.row 0 0], drawn := 1 }

theorem ready_scheduledDb (options : ScheduleNotificationOptions) : Ready 0 (scheduledDb options) where
  answering _ := rfl
  idle := by simp [scheduledDb, inviterDb]
  ids := List.nodup_singleton _
  fresh := ⟨Function.injective_id, fun _ _ ↦ by simp [scheduledDb, inviterDb]⟩

theorem storedBy_scheduledDb {options : ScheduleNotificationOptions}
    (hok : scheduleNotification options inviterDb = .ok (scheduledDb options)) :
    (options.row 0 0).StoredBy options :=
  ⟨inviterDb, scheduledDb options, hok, rfl, List.mem_singleton_self _⟩

/-- A witness: the notification of an accepted invitation, scheduled without a key. -/
theorem sent_iff_witness :
    (∃ after ∈ ((relay notificationRelay 0).run (scheduledDb acceptance)).2.notificationOutbox,
        after.id = 0 ∧ after.status = .sent) ↔
      resolve 1 7 "WORKSPACE_INVITATION_ACCEPTED" .inApp [] = false ∨
        FitsVarchar 500 "A accepted your invitation to W" ∧ KeyIsUuid none := by
  have hstored : (acceptance.row 0 0).StoredBy acceptance := storedBy_scheduledDb rfl
  have hrendered : renderNotification acceptance.template acceptance.vars =
      .ok { title := "A accepted your invitation to W", resourceType := some "workspace" } := by decide
  exact sent_iff hstored hrendered (ready_scheduledDb acceptance) (by decide)

/-! ### A digest as the key -/

/-- A notification with the key the documentation recommends: the SHA-256 digest of `assigned:1`. -/
def assignment : ScheduleNotificationOptions :=
  { acceptance with
    idempotencyKey := some "f68ae725f720aad606854f5b037252166a9848fa7b9aee476a8dbbfed42597c8" }

/-- Not every notification that is stored and wanted is sent: its template is valid and its title fits,
and the relay fails it. -/
theorem digest_fails :
    ¬ ∀ (options : ScheduleNotificationOptions) (row : NotificationOutboxRow)
      (rendered : RenderedNotification) (process : ℕ) (db : Db), row.StoredBy options →
        renderNotification options.template options.vars = .ok rendered →
        FitsVarchar 500 rendered.title → Ready process db → row ∈ notificationRelay.batch db →
        resolve row.tenantId row.recipientId row.type .inApp db.preferences = true →
          ∃ after ∈ ((relay notificationRelay process).run db).2.notificationOutbox,
            after.id = row.id ∧ after.status = .sent := by
  intro halways
  obtain ⟨after, hmem, hid, hstatus⟩ := halways assignment (assignment.row 0 0) _ 0
    (scheduledDb assignment) (storedBy_scheduledDb rfl) rfl (by decide) (ready_scheduledDb assignment)
    (by decide) (by decide)
  have hall : ∀ row ∈ ((relay notificationRelay 0).run (scheduledDb assignment)).2.notificationOutbox,
      row.status ≠ .sent := by decide +kernel
  exact hall after hmem hstatus

example :
    ((fun db ↦ ((relay notificationRelay 0).run db).2)^[5] (scheduledDb assignment)).notificationOutbox.map
        (fun row ↦ (row.status, row.attempts)) = [(.failed, 5)] := by decide +kernel

end RallyApi.Notifications

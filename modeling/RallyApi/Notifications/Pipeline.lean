import RallyApi.Concurrency.Outcomes
import RallyApi.Notifications.Effects

/-!
# The calls of the pipeline keep its protocol

`pipeline` is the protocol of the notification pipeline: the store is consistent between the steps, and
every step has an `Effect`. What a call needs to know of the steps before it lasts: the row it processes
stays scheduled, the task it runs stays due, the response it writes to stays the same client's.

`meets_serve` says that the call of every request keeps the protocol, and what the run of a post-commit
task promises when it gets through without an error (`Completed`). The rows that must not be forgotten are
a parameter; they only matter in runs in which their recipient can be reached throughout (`Throughout`).
-/

set_option autoImplicit false
set_option relaxedAutoImplicit false

namespace RallyApi.Notifications

open Concurrency Outbox Platform Store

/-! ### The protocol -/

/-- The recipient of a row exists, with an e-mail address, and has both channels enabled. -/
def NotificationOutboxRow.Wanted (row : NotificationOutboxRow) (db : Db) : Prop :=
  ((db.users.find? fun user ↦ user.id = row.recipientId).any fun user ↦ user.email ≠ "") = true ∧
    resolve row.tenantId row.recipientId row.type .inApp db.preferences = true ∧
    resolve row.tenantId row.recipientId row.type .email db.preferences = true

/-- The recipient of a row that must not be forgotten can be reached throughout a run. -/
def WantedThroughout (expects : RowId → Prop) (world : World Db NotificationStep)
    (_ : NotificationStep) : Prop :=
  ∀ row ∈ world.db.notificationOutbox, expects row.id → row.Wanted world.db

/-- No insert of a notification for a row that must not be forgotten finds one that is there already. -/
def InsertsFirst (expects : RowId → Prop) : NotificationStep → Prop
  | .inserted row none => ¬ expects row.id
  | _ => True

/-- Both hold of a step. -/
def Throughout (expects : RowId → Prop) (world : World Db NotificationStep) (label : NotificationStep) :
    Prop :=
  WantedThroughout expects world label ∧ InsertsFirst expects label

/-- The protocol of the pipeline. -/
def pipeline (expects : RowId → Prop) : Protocol Db NotificationStep where
  permits := Throughout expects
  invariant world := Consistent expects world.db
  guarantee _ world label after := Effect world.db label after

variable {expects : RowId → Prop} {number : ℕ} {α β : Type} {world : World Db NotificationStep}
  {label : NotificationStep} {after : Db}

/-- A sound step keeps the protocol. -/
theorem Sound.keeps (hsound : Sound expects world.db label after)
    (hconsistent : Consistent expects world.db) :
    (pipeline expects).Keeps number world label after :=
  ⟨(hsound hconsistent).1, (hsound hconsistent).2⟩

/-- A call whose every step is sound keeps the protocol. -/
theorem meets_of_sound {call : NotificationCall α} (hcall : call.Only (Sound expects)) :
    (pipeline expects).Meets number call (fun _ ↦ True) fun _ _ ↦ True :=
  Protocol.meets_of_only hcall Protocol.stable_true fun _ _ _ hconsistent _ _ hsound ↦
    ⟨hsound.keeps hconsistent, trivial⟩

/-- A scheduled row that must not be forgotten is one of those whose recipient can be reached. -/
theorem Throughout.wanted (hpermits : Throughout expects world label) {row : NotificationOutboxRow}
    (hrow : row.Scheduled world.db) (hexpected : expects row.id) : row.Wanted world.db := by
  obtain ⟨stored, hstored, hsame⟩ := List.mem_map.mp hrow
  have hwanted : stored.content.Wanted world.db :=
    hpermits.1 stored hstored (show expects stored.content.id from hsame ▸ hexpected)
  rw [hsame] at hwanted
  exact hwanted

/-! ### Facts that last -/

section Lasting

variable {row : NotificationOutboxRow} {task : PostCommitTask}

theorem persistent_scheduled : (pipeline expects).Persistent fun world ↦ row.Scheduled world.db :=
  fun _ _ _ _ _ hrow heffect ↦ hrow.mono heffect

theorem persistent_due : (pipeline expects).Persistent fun world ↦ task ∈ world.db.tasks :=
  fun _ _ _ _ _ htask heffect ↦ heffect.tasks.subset htask

theorem persistent_settles {id : RowId} {task : Option PostCommitTask} {claims : RowId → Prop} :
    (pipeline expects).Persistent fun world ↦ Settles claims id task world.db :=
  fun _ _ _ _ _ hsettles heffect ↦ ⟨fun due hdue ↦ (hsettles.1 due hdue).mono heffect, hsettles.2⟩

theorem persistent_settled {tx : BatchTx} {claims : RowId → Prop} :
    (pipeline expects).Persistent fun world ↦ tx.Settled claims world.db :=
  fun _ _ _ _ _ hsettled heffect ↦ ⟨fun task htask ↦ (hsettled.1 task htask).mono heffect, hsettled.2⟩

theorem persistent_logged {entry : ℕ × NotificationStep} :
    (pipeline expects).Persistent fun world ↦ entry ∈ world.log :=
  fun _ _ _ _ _ hentry _ ↦ .tail _ hentry

end Lasting

/-! ### Requests and statements -/

section Statements

variable {fact : World Db NotificationStep → Prop} {post : α → World Db NotificationStep → Prop}

/-- A request to a resource, from a fact that lasts. Assumes: a statement that fails is a step nobody
takes note of; one that succeeds is sound, and establishes the postcondition. -/
theorem meets_access {resource : Resource} {label : Db → NotificationStep}
    {statement : Db → Except Failure (α × Db)} (hfact : (pipeline expects).Persistent fact)
    (hfail : ∀ db failure, statement db = .error failure → (label db).Silent)
    (hok : ∀ world value after, Consistent expects world.db → fact world →
      Throughout expects world (label world.db) → statement world.db = .ok (value, after) →
      Sound expects world.db (label world.db) after ∧
        post value (world.after number (label world.db) after)) :
    (pipeline expects).Meets number (access resource label statement) fact post := by
  refine Protocol.meets_step hfact fun world hconsistent hholds hpermits ↦ ?_
  by_cases hrefusing : world.db.health resource = .refusing
  · simp only [hrefusing, if_true] at hpermits ⊢
    exact ⟨(sound_refl silent_other).keeps hconsistent, by simp⟩
  · simp only [hrefusing, if_false] at hpermits ⊢
    cases hstatement : statement world.db with
    | error failure =>
      refine ⟨(sound_refl (hfail _ _ hstatement)).keeps hconsistent, ?_⟩
      split_ifs <;> simp [Except.map]
    | ok result =>
      obtain ⟨hsound, hpost⟩ :=
        hok world result.1 result.2 hconsistent hholds hpermits hstatement
      refine ⟨hsound.keeps hconsistent, fun value hvalue ↦ ?_⟩
      split_ifs at hvalue
      simp only [Except.map, Except.ok.injEq] at hvalue
      exact hvalue ▸ hpost

/-- A read of the database, from a fact that lasts. -/
theorem meets_readDatabase {read : Db → α} (hfact : (pipeline expects).Persistent fact)
    (hpost : ∀ world, Consistent expects world.db → fact world → Throughout expects world .other →
      post (read world.db) (world.after number .other world.db)) :
    (pipeline expects).Meets number (readDatabase read) fact post := by
  refine meets_access hfact (fun _ _ h ↦ by cases h) fun world value after hconsistent hholds
    hpermits hok ↦ ?_
  obtain ⟨rfl, rfl⟩ := Prod.mk.inj (Except.ok.inj hok)
  exact ⟨sound_refl silent_other, hpost world hconsistent hholds hpermits⟩

/-- A statement in a transaction, from a fact that lasts. -/
theorem meets_inTransaction {opened : ℕ} {statement : Db → Except Failure (α × Db)}
    (hfact : (pipeline expects).Persistent fact)
    (hok : ∀ world value after, Consistent expects world.db → fact world →
      statement world.db = .ok (value, after) →
      Sound expects world.db .other after ∧ post value (world.after number .other after)) :
    (pipeline expects).Meets number (inTransaction opened statement) fact post := by
  refine Protocol.meets_attempt hfact.stable
    (fun world _ hconsistent _ _ _ ↦ (sound_refl silent_other).keeps hconsistent)
    fun world value after hconsistent hholds _ hstatement ↦ ?_
  split_ifs at hstatement
  obtain ⟨hsound, hpost⟩ := hok world value after hconsistent hholds hstatement
  exact ⟨hsound.keeps hconsistent, hpost⟩

end Statements

/-! ### The relay loop -/

section Relay

variable {Row : Type} {service : RelayService Row} {claims : RowId → Prop}

theorem BatchTx.Settled.markSent {tx : BatchTx} {id : RowId} {task : Option PostCommitTask} {db : Db}
    {status : RowStatus} {sentAt : Date} (hsettled : tx.Settled claims db)
    (hsettles : Settles claims id task db) :
    BatchTx.Settled claims { tx with
      writes := tx.writes ++ [.markSent id status sentAt]
      postCommitTasks := tx.postCommitTasks ++ task.toList } db := by
  refine ⟨fun due hdue ↦ ?_, fun write hwrite hsent hclaimed ↦ ?_⟩
  · rcases List.mem_append.mp hdue with hold | hnew
    · exact hsettled.1 due hold
    · exact hsettles.1 due (Option.mem_toList.mp hnew)
  · rcases List.mem_append.mp hwrite with hold | hnew
    · obtain ⟨due, hdue, hfor⟩ := hsettled.2 write hold hsent hclaimed
      exact ⟨due, List.mem_append_left _ hdue, hfor⟩
    · obtain rfl := List.mem_singleton.mp hnew
      obtain ⟨due, hdue, hfor⟩ := hsettles.2 hclaimed
      exact ⟨due, List.mem_append_right _ (Option.mem_toList.mpr hdue), hfor⟩

theorem BatchTx.Settled.markFailed {tx : BatchTx} {id : RowId} {db : Db} {attempts : ℕ}
    {status : RowStatus} {error : String} (hsettled : tx.Settled claims db) (hstatus : status ≠ .sent) :
    BatchTx.Settled claims
      { tx with writes := tx.writes ++ [.markFailed id attempts status error] } db := by
  refine ⟨hsettled.1, fun write hwrite hsent hclaimed ↦ ?_⟩
  rcases List.mem_append.mp hwrite with hold | hnew
  · exact hsettled.2 write hold hsent hclaimed
  · obtain rfl := List.mem_singleton.mp hnew
    exact absurd hsent hstatus

/-- `markSent`, and the task of the row with it. -/
theorem meets_markSent {tx : BatchTx} {row : Row} {task : Option PostCommitTask} :
    (pipeline expects).Meets number (markSent service tx row)
      (fun world ↦ Settles claims (service.columns row).id task world.db ∧ tx.Settled claims world.db)
      fun marked world ↦ BatchTx.Settled claims { marked with
        postCommitTasks := marked.postCommitTasks ++ task.toList } world.db := by
  refine meets_inTransaction (persistent_settles.and persistent_settled)
    fun world value after _ hholds hok ↦ ?_
  obtain ⟨rfl, rfl⟩ := Prod.mk.inj (Except.ok.inj hok)
  exact ⟨sound_refl silent_other, hholds.2.markSent hholds.1⟩

/-- `markFailed`. -/
theorem meets_markFailed {tx : BatchTx} {row : Row} {failure : Failure} :
    (pipeline expects).Meets number (markFailed service tx row failure)
      (fun world ↦ tx.Settled claims world.db) fun tx world ↦ tx.Settled claims world.db := by
  refine meets_inTransaction persistent_settled fun world value after _ hsettled hok ↦ ?_
  obtain ⟨rfl, rfl⟩ := Prod.mk.inj (Except.ok.inj hok)
  refine ⟨sound_refl silent_other, hsettled.markFailed ?_⟩
  split_ifs <;> decide

variable {ready : Row → World Db NotificationStep → Prop}
  (hready : ∀ row, (pipeline expects).Persistent (ready row))
  (hrows : ∀ world, Consistent expects world.db → ∀ row ∈ service.rows world.db, ready row world)
  (hprocess : ∀ row, (pipeline expects).Meets number (service.processRow row) (ready row)
    fun task world ↦ Settles claims (service.columns row).id task world.db)
  (hcommit : ∀ tx : BatchTx, ∀ db transactions, tx.Settled claims db →
    Sound expects db .other { service.setRows (service.apply tx.writes (service.rows db)) db with
      transactions
      tasks := db.tasks ++ tx.postCommitTasks })

include hprocess in
/-- The body of the loop: the row is settled, or marked as failed. -/
theorem meets_relayRow {tx : BatchTx} {row : Row} :
    (pipeline expects).Meets number (relayRow service tx row)
      (fun world ↦ ready row world ∧ tx.Settled claims world.db)
      fun tx world ↦ tx.Settled claims world.db := by
  refine Protocol.Meets.handle ?_ persistent_settled (fun _ _ h ↦ h.2) fun _ ↦ meets_markFailed
  refine ((hprocess row).frame persistent_settled).bind fun task _ ↦ ?_
  exact meets_markSent.bind fun marked _ ↦ Protocol.meets_pure fun _ _ h ↦ h

include hready hprocess in
/-- The loop over the batch. -/
theorem meets_relayRows (batch : List Row) (tx : BatchTx) :
    (pipeline expects).Meets number (relayRows service batch tx)
      (fun world ↦ (∀ row ∈ batch, ready row world) ∧ tx.Settled claims world.db)
      fun tx world ↦ tx.Settled claims world.db := by
  induction batch generalizing tx with
  | nil => exact Protocol.meets_pure fun _ _ h ↦ h.2
  | cons row rest ih =>
    have hrest : (pipeline expects).Persistent fun world ↦ ∀ row ∈ rest, ready row world :=
      fun other world label after hconsistent hall heffect row hrow ↦
        hready row other world label after hconsistent (hall row hrow) heffect
    refine Protocol.Meets.bind (Protocol.Meets.strengthen
      ((meets_relayRow hprocess).frame hrest) fun world _ h ↦ ?_) fun marked _ ↦ ?_
    · exact ⟨⟨h.1 row (.head _), h.2⟩, fun other hother ↦ h.1 other (.tail _ hother)⟩
    · exact (ih marked).strengthen fun _ _ h ↦ ⟨h.2, h.1⟩

include hready hrows in
/-- `fetchBatch`. -/
theorem meets_fetchBatch {opened : ℕ} :
    (pipeline expects).Meets number (fetchBatch service opened) (fun _ ↦ True)
      fun batch world ↦ ∀ row ∈ batch, ready row world := by
  refine meets_inTransaction (Protocol.persistent_const True)
    fun world value after hconsistent _ hok ↦ ?_
  obtain ⟨rfl, rfl⟩ := Prod.mk.inj (Except.ok.inj hok)
  have hsound : Sound expects world.db .other { world.db with
      transactions := updateWhere (fun transaction ↦ transaction.number = opened)
        (fun transaction ↦ { transaction with
          locks := (service.batch world.db).map fun row ↦ (service.columns row).id })
        world.db.transactions } := sound_silent silent_other rfl rfl rfl rfl rfl rfl
  refine ⟨hsound, fun row hrow ↦ ?_⟩
  have hmem : row ∈ service.rows world.db := by
    have hsorted := List.mem_of_mem_take hrow
    rw [List.mem_insertionSort] at hsorted
    exact (List.mem_filter.mp hsorted).1
  exact hready row number world _ _ hconsistent (hrows world hconsistent row hmem)
    (hsound hconsistent).1

include hready hrows hprocess hcommit in
/-- The callback of `db.transaction`, and the commit. -/
theorem meets_relayBatch {opened : ℕ} :
    (pipeline expects).Meets number (relayBatch service opened) (fun _ ↦ True) fun _ _ ↦ True := by
  refine (meets_fetchBatch hready hrows).bind fun batch _ ↦ ?_
  have hempty : ∀ db, BatchTx.Settled claims { number := opened } db := fun db ↦ by
    simp [BatchTx.Settled]
  have hloop := (meets_relayRows hready hprocess batch { number := opened }).strengthen
    fun world (_ : Consistent expects world.db) hbatch ↦ ⟨hbatch, hempty world.db⟩
  refine hloop.bind fun tx _ ↦ ?_
  refine meets_inTransaction persistent_settled fun world value after _ hsettled hok ↦ ?_
  obtain ⟨rfl, rfl⟩ := Prod.mk.inj (Except.ok.inj hok)
  exact ⟨hcommit tx world.db _ hsettled, trivial⟩

/-- A step that ends a transaction, or enters or leaves a relay. -/
theorem meets_write {label : NotificationStep} {change : Db → α × Db}
    (hsound : ∀ db, Sound expects db label (change db).2) :
    (pipeline expects).Meets number
      (Call.atomically (fun _ ↦ label) change : NotificationCall α) (fun _ ↦ True) fun _ _ ↦ True :=
  meets_of_sound ((Call.only_atomically _ _).mpr hsound)

theorem meets_endTransaction {opened : ℕ} :
    (pipeline expects).Meets number (endTransaction opened) (fun _ ↦ True) fun _ _ ↦ True :=
  meets_write fun _ ↦ sound_silent silent_other rfl rfl rfl rfl rfl rfl

include hready hrows hprocess hcommit in
/-- `db.transaction`. -/
theorem meets_relayTransaction :
    (pipeline expects).Meets number (relayTransaction service) (fun _ ↦ True) fun _ _ ↦ True := by
  have hbegin : (pipeline expects).Meets number (beginTransaction service.outbox) (fun _ ↦ True)
      fun _ _ ↦ True := by
    refine meets_access (Protocol.persistent_const True) (fun _ _ h ↦ by cases h) ?_
    intro world value after _ _ _ hok
    obtain ⟨rfl, rfl⟩ := Prod.mk.inj (Except.ok.inj hok)
    exact ⟨sound_silent silent_other rfl rfl rfl rfl rfl rfl, trivial⟩
  refine hbegin.bind fun opened _ ↦ ?_
  refine Protocol.Meets.handle (meets_relayBatch hready hrows hprocess hcommit)
    (Protocol.persistent_const True) (fun _ _ h ↦ h) fun failure ↦ ?_
  exact meets_endTransaction.bind fun _ _ ↦ trivial

include hready hrows hprocess hcommit in
/-- `relay`. -/
theorem meets_relay {process : ℕ} :
    (pipeline expects).Meets number (relay service process) (fun _ ↦ True) fun _ _ ↦ True := by
  have henter : (pipeline expects).Meets number (enterRelay process service.outbox) (fun _ ↦ True)
      fun _ _ ↦ True := by
    refine meets_write fun db ↦ ?_
    split_ifs <;> exact sound_silent silent_other rfl rfl rfl rfl rfl rfl
  refine henter.bind fun busy _ ↦ ?_
  cases busy with
  | true => exact fun _ _ _ ↦ trivial
  | false =>
    refine Protocol.Meets.tryFinally (meets_relayTransaction hready hrows hprocess hcommit) ?_
    exact meets_write fun _ ↦ sound_silent silent_other rfl rfl rfl rfl rfl rfl

end Relay

/-! ### `processRow` -/

section ProcessRow

variable {row : NotificationOutboxRow} {rendered : RenderedNotification} {emailEnabled : Bool}

/-- The task of a notification that was just created is backed. -/
theorem backed_of_created {before after : Db} {notification : InAppNotification}
    (hrow : row.Scheduled after)
    (hok : createNotification (row.input rendered) before = .ok (some notification, after)) :
    PostCommitTask.Backed { row, rendered, notificationId := notification.id, emailEnabled } after := by
  obtain ⟨source, hsource, hrest⟩ := bind_eq_ok.mp hok
  obtain ⟨_, _, hrest⟩ := bind_eq_ok.mp hrest
  split_ifs at hrest
  · cases hrest
  · obtain ⟨hsame, rfl⟩ := Prod.mk.inj (Except.ok.inj hrest)
    obtain rfl := Option.some.inj hsame
    exact ⟨hrow, _, List.mem_append_right _ (List.mem_singleton_self _), rfl, rfl, source, hsource, rfl⟩

/-- What `processRow` of the notification relay knows once it has sent the notification. -/
def Sent (expects : RowId → Prop) (row : NotificationOutboxRow) (rendered : RenderedNotification)
    (created : Option InAppNotification) (world : World Db NotificationStep) : Prop :=
  (created = none → ¬ expects row.id) ∧ ∀ notification, created = some notification →
    ∀ emailEnabled, PostCommitTask.Backed
      { row, rendered, notificationId := notification.id, emailEnabled } world.db

theorem persistent_sent {created : Option InAppNotification} :
    (pipeline expects).Persistent fun world ↦ Sent expects row rendered created world :=
  fun _ _ _ _ _ hsent heffect ↦ ⟨hsent.1, fun notification hcreated emailEnabled ↦
    (hsent.2 notification hcreated emailEnabled).mono heffect⟩

/-- `NotificationsService.send` for a scheduled row. -/
theorem meets_send : (pipeline expects).Meets number (send row rendered)
    (fun world ↦ row.Scheduled world.db)
    fun created world ↦ Sent expects row rendered created world := by
  refine meets_access persistent_scheduled (fun db failure hfailure ↦ ?_)
    fun world created after hconsistent hrow hpermits hok ↦ ?_
  · simp only [hfailure]
    exact silent_other
  · simp only [hok] at hpermits ⊢
    have hsound : Sound expects world.db (.inserted row (created.map InAppNotification.id)) after :=
      sound_send hrow hok
    refine ⟨hsound, fun hnone ↦ ?_, ?_⟩
    · subst hnone
      exact hpermits.2
    · rintro notification rfl emailEnabled
      exact backed_of_created (hrow.mono (hsound hconsistent).1) hok

/-- `isEnabled` for the recipient of a scheduled row. -/
theorem meets_isEnabled {channel : NotificationChannel} {fact : World Db NotificationStep → Prop}
    (hfact : (pipeline expects).Persistent fact)
    (hrow : ∀ world, fact world → row.Scheduled world.db) :
    (pipeline expects).Meets number (isEnabled row.tenantId row.recipientId row.type channel) fact
      fun enabled world ↦ (expects row.id → enabled = true) ∧ fact world := by
  refine meets_readDatabase hfact fun world hconsistent hholds hpermits ↦ ⟨fun hexpected ↦ ?_, ?_⟩
  · have hwanted := hpermits.wanted (hrow world hholds) hexpected
    cases channel with
    | inApp => exact hwanted.2.1
    | email => exact hwanted.2.2
  · exact hfact number world _ _ hconsistent hholds ((sound_refl silent_other) hconsistent).1

/-- `NotificationRelayService.processRow` of a scheduled row. -/
theorem meets_processNotification : (pipeline expects).Meets number (processNotification row)
    (fun world ↦ row.Scheduled world.db)
    fun task world ↦ Settles expects row.id task world.db := by
  have hnone : ∀ world : World Db NotificationStep, ¬ expects row.id →
      Settles expects row.id none world.db := fun world hunexpected ↦
    ⟨by simp, fun hexpected ↦ absurd hexpected hunexpected⟩
  refine (meets_isEnabled persistent_scheduled fun _ h ↦ h).bind fun inAppEnabled _ ↦ ?_
  cases inAppEnabled with
  | false => exact Protocol.meets_pure fun world _ h ↦ hnone world (by simpa using h.1)
  | true =>
    cases hrendered : renderNotification row.type row.vars with
    | error failure =>
      simp only [Bool.not_true, Bool.false_eq_true, if_false]
      trivial
    | ok rendered =>
      simp only [Bool.not_true, Bool.false_eq_true, if_false]
      refine (meets_send.strengthen fun _ _ h ↦ h.2).bind fun created _ ↦ ?_
      cases created with
      | none => exact Protocol.meets_pure fun world _ h ↦ hnone world (h.1 rfl)
      | some notification =>
        refine (meets_isEnabled persistent_sent fun _ h ↦ (h.2 notification rfl true).1).bind
          fun emailEnabled _ ↦ Protocol.meets_pure fun world _ h ↦ ⟨?_, fun hexpected ↦ ?_⟩
        · rintro _ ⟨⟩
          exact h.2.2 notification rfl emailEnabled
        · exact ⟨_, rfl, rfl, h.1 hexpected⟩

/-- `sendTemplate`, for an e-mail nothing has suppressed. -/
theorem meets_sendTemplate {email : EmailOutboxRow} :
    (pipeline expects).Meets number (sendTemplate email) (fun _ ↦ True) fun _ _ ↦ True := by
  refine meets_of_sound ?_
  unfold sendTemplate
  split_ifs
  · intro db
    refine ⟨?_, trivial⟩
    dsimp only
    split_ifs <;>
      exact sound_of_tables rfl rfl rfl rfl (fun _ ↦ by simp [Reports]) ⟨rfl, streamsAdvance_refl⟩
  · refine Call.only_bind.mpr ⟨(Call.only_atomically _ _).mpr fun db ↦ ?_, fun _ _ ↦ trivial⟩
    exact sound_of_tables rfl rfl rfl rfl (fun _ ↦ by simp [Reports]) ⟨rfl, streamsAdvance_refl⟩

/-- `EmailRelayService.processRow` of an e-mail that does not name its recipient. -/
theorem meets_processEmail {email : EmailOutboxRow} {id : RowId} :
    (pipeline expects).Meets number (processEmail email) (fun _ ↦ email.recipientId = none)
      fun task world ↦ Settles (fun _ ↦ False) id task world.db := by
  refine Protocol.meets_of_fact fun hrecipient ↦ ?_
  unfold processEmail
  rw [hrecipient]
  refine meets_sendTemplate.bind fun _ _ ↦ Protocol.meets_pure fun world _ _ ↦ ?_
  exact ⟨by simp, False.elim⟩

end ProcessRow

theorem meets_relayNotifications {process : ℕ} :
    (pipeline expects).Meets number (relay notificationRelay process) (fun _ ↦ True)
      fun _ _ ↦ True :=
  meets_relay (fun _ ↦ persistent_scheduled)
    (fun _ _ _ hrow ↦ NotificationOutboxRow.scheduled_of_mem hrow)
    (fun _ ↦ meets_processNotification) fun _ _ _ hsettled ↦ sound_commitNotifications hsettled

theorem meets_relayEmails {process : ℕ} :
    (pipeline expects).Meets number (relay emailRelay process) (fun _ ↦ True) fun _ _ ↦ True :=
  meets_relay (fun _ ↦ Protocol.persistent_const _) (fun _ hconsistent ↦ hconsistent.emails)
    (fun _ ↦ meets_processEmail) fun _ _ _ hsettled ↦ sound_commitEmails hsettled.1

/-! ### The post-commit task -/

section Task

variable {task : PostCommitTask}

/-- What the run of a task promises when it gets through without an error: the push was published, and the
e-mail of a row that must not be forgotten is in the outbox. -/
def Completed (expects : RowId → Prop) (result : TaskRun) (world : World Db NotificationStep) : Prop :=
  ∀ task, result = some (task, true) →
    (∃ entry ∈ world.log, entry.2 = .published task.payload) ∧
      (expects task.row.id → task.emailEnabled = true →
        some (notificationEmailKey task.notificationId) ∈
          world.db.emailOutbox.map EmailOutboxRow.idempotencyKey)

theorem persistent_completed {result : TaskRun} :
    (pipeline expects).Persistent fun world ↦ Completed expects result world := by
  intro other world label after _ hcompleted heffect task hresult
  obtain ⟨⟨entry, hentry, hpublished⟩, hemail⟩ := hcompleted task hresult
  exact ⟨⟨entry, .tail _ hentry, hpublished⟩, fun hexpected henabled ↦
    heffect.emails.subset (hemail hexpected henabled)⟩

theorem notificationEmailKey_ne {id : Uuid} : notificationEmailKey id ≠ "" := by
  intro hempty
  unfold notificationEmailKey at hempty
  rw [String.append_eq_empty_iff] at hempty
  exact absurd hempty.1 (by decide)

/-- A key without spaces is kept whole where it fits. -/
theorem varchar_notificationEmailKey {id : Uuid} (hfits : FitsVarchar 255 (notificationEmailKey id)) :
    varchar 255 (notificationEmailKey id) = notificationEmailKey id := by
  have hspaces : ' ' ∉ (notificationEmailKey id).toList := by
    have hlabel : ' ' ∉ "notification-email:".toList := by decide +kernel
    unfold notificationEmailKey
    rw [String.toList_append, List.mem_append, not_or]
    exact ⟨hlabel, space_notMem_uuidText id⟩
  exact varchar_eq_self (FitsVarchar.length_le hfits hspaces)

/-- Assumes: the key of a notification's e-mail fits. It is written whole, and it is not the empty one,
which counts as none. -/
theorem email_key (hfits : FitsVarchar 255 (notificationEmailKey task.notificationId))
    (toAddress appBaseUrl : String) :
    (task.email toAddress appBaseUrl).key = some (notificationEmailKey task.notificationId) := by
  have hpresent : (some (notificationEmailKey task.notificationId)).filter (fun key ↦ key ≠ "") =
      some (notificationEmailKey task.notificationId) :=
    Option.filter_some_pos (decide_eq_true notificationEmailKey_ne)
  rw [ScheduleEmailOptions.key, PostCommitTask.email, hpresent, Option.map_some,
    varchar_notificationEmailKey hfits]

/-- The key of an e-mail that the scheduler takes fits. -/
theorem fits_of_scheduleEmail {toAddress appBaseUrl : String} {id : Uuid} {now : Date}
    {emailOutbox rows : List EmailOutboxRow}
    (hschedule : scheduleEmail (task.email toAddress appBaseUrl) id now emailOutbox = .ok rows) :
    FitsVarchar 255 (notificationEmailKey task.notificationId) := by
  obtain ⟨_, _, hrest⟩ := bind_eq_ok.mp hschedule
  obtain ⟨_, _, hrest⟩ := bind_eq_ok.mp hrest
  obtain ⟨_, hkey, _⟩ := bind_eq_ok.mp hrest
  exact checkLength_eq_ok.mp hkey

/-- `notifyUser`. -/
theorem meets_notifyUser : (pipeline expects).Meets number (notifyUser task.payload)
    (fun world ↦ task ∈ world.db.tasks)
    fun _ world ↦ (number, .published task.payload) ∈ world.log ∧ task ∈ world.db.tasks := by
  refine meets_access persistent_due (fun _ _ h ↦ by cases h) fun world value after _ htask _ hok ↦ ?_
  obtain ⟨rfl, rfl⟩ := Prod.mk.inj (Except.ok.inj hok)
  exact ⟨sound_publish htask, .head _, htask⟩

/-- The insert of the e-mail: afterwards an e-mail with the key is in the outbox. -/
theorem meets_scheduleTaskEmail {toAddress : String} :
    (pipeline expects).Meets number (scheduleTaskEmail task toAddress)
      (fun world ↦ task ∈ world.db.tasks)
      fun _ world ↦ some (notificationEmailKey task.notificationId) ∈
        world.db.emailOutbox.map EmailOutboxRow.idempotencyKey := by
  refine meets_access persistent_due (fun db failure hfailure ↦ ?_)
    fun world value after _ htask _ hok ↦ ?_
  · cases hschedule : scheduleEmail (task.email toAddress db.appBaseUrl) db.nextUuid db.now
        db.emailOutbox with
    | ok rows => simp [hschedule, bind, Except.bind] at hfailure
    | error failure => exact silent_other
  · obtain ⟨rows, hschedule, hpure⟩ := bind_eq_ok.mp hok
    obtain ⟨rfl, rfl⟩ := Prod.mk.inj (Except.ok.inj hpure)
    simp only [hschedule]
    have hkey := email_key (fits_of_scheduleEmail hschedule) toAddress world.db.appBaseUrl
    rcases scheduleEmail_cases hschedule with ⟨rfl, htaken⟩ | ⟨rfl, hfresh⟩
    · rw [if_pos rfl]
      exact ⟨sound_silent silent_other rfl rfl rfl rfl rfl rfl, keyTaken_some.mp (hkey ▸ htaken)⟩
    · rw [if_neg (by simp)]
      have hwritten : some (notificationEmailKey task.notificationId) ∈ (world.db.emailOutbox ++
          [(task.email toAddress world.db.appBaseUrl).row world.db.nextUuid world.db.now]).map
            EmailOutboxRow.idempotencyKey := by
        simp [ScheduleEmailOptions.row, hkey]
      refine ⟨sound_scheduleEmail hschedule ⟨⟨task, htask, rfl, rfl⟩, fun hmem ↦ hfresh ?_, hwritten⟩
        ⟨rfl, streamsAdvance_refl⟩, hwritten⟩
      rw [hkey]
      exact keyTaken_some.mpr hmem

/-- `scheduleNotificationEmail`. -/
theorem meets_scheduleNotificationEmail :
    (pipeline expects).Meets number (scheduleNotificationEmail task)
      (fun world ↦ task ∈ world.db.tasks)
      fun clean world ↦ clean = true → expects task.row.id →
        some (notificationEmailKey task.notificationId) ∈
          world.db.emailOutbox.map EmailOutboxRow.idempotencyKey := by
  have hread : (pipeline expects).Meets number
      (readDatabase fun db ↦
        (db.users.find? fun user ↦ user.id = task.row.recipientId).map User.email)
      (fun world ↦ task ∈ world.db.tasks)
      fun email world ↦ task ∈ world.db.tasks ∧
        (expects task.row.id → ∃ address, email = some address ∧ address ≠ "") := by
    refine meets_readDatabase persistent_due fun world hconsistent htask hpermits ↦
      ⟨htask, fun hexpected ↦ ?_⟩
    have hscheduled := (hconsistent.tasks task htask).1
    obtain ⟨user, huser, hemail⟩ := (Option.any_eq_true _ _).mp (hpermits.wanted hscheduled hexpected).1
    exact ⟨user.email, by rw [huser, Option.map_some], of_decide_eq_true hemail⟩
  refine Protocol.Meets.handle ?_ (Protocol.persistent_const True) (fun _ _ _ ↦ trivial)
    fun _ ↦ Protocol.meets_pure fun _ _ _ hfalse ↦ by cases hfalse
  refine hread.bind fun email _ ↦ ?_
  cases haddress : email.filter fun email ↦ email ≠ "" with
  | none =>
    refine Protocol.meets_pure fun world _ hholds _ hexpected ↦ ?_
    obtain ⟨address, rfl, hne⟩ := hholds.2 hexpected
    simp [hne] at haddress
  | some toAddress =>
    refine (meets_scheduleTaskEmail.strengthen fun _ _ h ↦ h.1).bind fun _ _ ↦ ?_
    exact Protocol.meets_pure fun _ _ hkey _ _ ↦ hkey

/-- The run of a task that is due. -/
theorem meets_run : (pipeline expects).Meets number task.run (fun world ↦ task ∈ world.db.tasks)
    fun clean world ↦ Completed expects (some (task, clean)) world := by
  refine meets_notifyUser.bind fun _ _ ↦ ?_
  have hpublished : (pipeline expects).Persistent fun world ↦
      (number, .published task.payload) ∈ world.log := persistent_logged
  split_ifs with henabled
  · refine Protocol.Meets.conseq (meets_scheduleNotificationEmail.frame hpublished)
      (fun _ _ h ↦ ⟨h.2, h.1⟩) fun clean world _ h ↦ ?_
    rintro _ ⟨⟩
    exact ⟨⟨_, h.2, rfl⟩, fun hexpected _ ↦ h.1 rfl hexpected⟩
  · refine Protocol.meets_pure fun world _ h ↦ ?_
    rintro _ ⟨⟩
    exact ⟨⟨_, h.1, rfl⟩, fun _ hsome ↦ absurd hsome henabled⟩

/-- `runTask`. -/
theorem meets_runTask {index : ℕ} : (pipeline expects).Meets number (runTask index) (fun _ ↦ True)
    fun result world ↦ Completed expects result world := by
  have hdue : (pipeline expects).Meets number
      (Call.query .other fun db : Db ↦ db.tasks[index]? : NotificationCall (Option PostCommitTask))
      (fun _ ↦ True) fun task world ↦ ∀ due, task = some due → due ∈ world.db.tasks :=
    Protocol.meets_query Protocol.stable_true fun world hconsistent _ _ ↦
      ⟨(sound_refl silent_other).keeps hconsistent, fun _ ↦ List.mem_of_getElem?⟩
  refine hdue.bind fun task _ ↦ ?_
  cases task with
  | none =>
    refine Protocol.meets_pure fun _ _ _ ↦ ?_
    rintro _ ⟨⟩
  | some task =>
    refine (meets_run.strengthen fun _ _ h ↦ h task rfl).bind fun clean _ ↦ ?_
    exact Protocol.meets_pure fun _ _ h ↦ h

end Task

/-! ### Subscriptions -/

section Subscriptions

variable {pubSub : PubSub} {channel : Channel} {handler : Handler}

theorem messages_subscribe : (pubSub.subscribe channel handler).2.messages = pubSub.messages := by
  unfold PubSub.subscribe
  split <;> rfl

theorem messages_register : (pubSub.register channel handler).2.messages = pubSub.messages := by
  unfold PubSub.register
  split <;> rfl

theorem messages_unsubscribe :
    (pubSub.unsubscribe channel handler).2.messages = pubSub.messages := by
  unfold PubSub.unsubscribe
  split
  · rfl
  · split_ifs <;> rfl

theorem messages_takeCommand : pubSub.takeCommand.messages = pubSub.messages := by
  unfold PubSub.takeCommand
  split <;> rfl

theorem only_subscribe : (Notifications.subscribe channel handler).Only (Sound expects) := by
  refine Call.only_bind.mpr ⟨(Call.only_atomically _ _).mpr fun db ↦ ?_, fun ticket _ ↦ ?_⟩
  · refine sound_silent ?_ rfl rfl rfl rfl messages_subscribe rfl
    split <;> trivial
  · cases ticket with
    | none => trivial
    | some ticket =>
      refine Call.only_bind.mpr ⟨(Call.only_atomically _ _).mpr fun db ↦ ?_, fun found _ ↦ ?_⟩
      · refine sound_silent ?_ rfl rfl rfl rfl messages_register rfl
        split_ifs <;> trivial
      · exact Call.only_ensure _ _

theorem only_unsubscribe : (Notifications.unsubscribe channel handler).Only (Sound expects) := by
  refine Call.only_bind.mpr ⟨(Call.only_atomically _ _).mpr fun db ↦ ?_, fun ticket _ ↦ ?_⟩
  · exact sound_silent trivial rfl rfl rfl rfl messages_unsubscribe rfl
  · cases ticket with
    | none => trivial
    | some ticket => exact (Call.only_query _ _).mpr fun db ↦ sound_refl trivial

end Subscriptions

/-! ### `stream` -/

section Endpoint

variable {userId tenantId : Uuid} {lastEventId : Option Uuid} {index : ℕ}

/-- The response is the one of this request. -/
def StreamOf (index : ℕ) (lastEventId : Option Uuid) (world : World Db NotificationStep) : Prop :=
  ∃ stream, world.db.streams[index]? = some stream ∧ stream.lastEventId = lastEventId

/-- The response is past its replay. -/
def Replayed (index : ℕ) (world : World Db NotificationStep) : Prop :=
  ∃ stream, world.db.streams[index]? = some stream ∧ stream.phase ≠ .connecting

theorem persistent_streamOf :
    (pipeline expects).Persistent fun world ↦ StreamOf index lastEventId world := by
  rintro other world label after _ ⟨stream, hstream, hlast⟩ heffect
  obtain ⟨later, hlater, hcontinues⟩ := Effect.continues heffect hstream
  exact ⟨later, hlater, hcontinues.lastEventId.trans hlast⟩

theorem persistent_replayed :
    (pipeline expects).Persistent fun world ↦ Replayed index world := by
  rintro other world label after _ ⟨stream, hstream, hphase⟩ heffect
  obtain ⟨later, hlater, hcontinues⟩ := Effect.continues heffect hstream
  exact ⟨later, hlater, hcontinues.phase hphase⟩

/-- The response is handed to the controller. -/
theorem meets_openStream : (pipeline expects).Meets number (openStream userId tenantId lastEventId)
    (fun _ ↦ True) fun index world ↦ StreamOf index lastEventId world := by
  refine Protocol.meets_atomically Protocol.stable_true fun world hconsistent _ _ ↦ ⟨?_, ?_⟩
  · exact (sound_streams (streamsAdvance_append ⟨rfl, rfl, rfl⟩)).keeps hconsistent
  · exact ⟨_, List.getElem?_concat_length, rfl⟩

/-- A change of one response, as one step, from a fact that lasts. -/
theorem sound_updateStream {db : Db} {change : Stream → Stream}
    (hchange : ∀ stream, db.streams[index]? = some stream →
      stream.Advances db.inAppNotifications (change stream)) :
    Sound expects db .other (db.updateStream index change) :=
  sound_streams (streamsAdvance_modify hchange)

/-- `getUnreadCount`, and the event `connected`. -/
theorem meets_writeConnected :
    (pipeline expects).Meets number (writeConnected index userId tenantId) (fun _ ↦ True)
      fun _ _ ↦ True := by
  refine meets_of_sound fun db ↦ ⟨?_, trivial⟩
  dsimp only
  split_ifs
  · exact sound_updateStream fun stream _ ↦ .connected stream _
  · exact sound_refl silent_other

/-- The replay. -/
theorem meets_replayMissed :
    (pipeline expects).Meets number (replayMissed index lastEventId)
      (fun world ↦ StreamOf index lastEventId world) fun _ world ↦ Replayed index world := by
  cases lastEventId with
  | none =>
    refine Protocol.meets_atomically persistent_streamOf.stable fun world hconsistent hstream _ ↦ ?_
    obtain ⟨stream, hstream, hlast⟩ := hstream
    refine ⟨(sound_updateStream fun other hother ↦ ?_).keeps hconsistent, ?_⟩
    · obtain rfl := Option.some.inj (hstream.symm.trans hother)
      exact .skip stream hlast
    · exact ⟨{ stream with phase := .replayed }, by simp [Db.updateStream, World.after, hstream], by simp⟩
  | some afterId =>
    refine Protocol.meets_step persistent_streamOf fun world hconsistent hstream _ ↦ ?_
    obtain ⟨stream, hstream, hlast⟩ := hstream
    split_ifs
    · refine ⟨(sound_updateStream fun other hother ↦ ?_).keeps hconsistent, fun _ _ ↦ ?_⟩
      · obtain rfl := Option.some.inj (hstream.symm.trans hother)
        exact .replay stream afterId hlast
      · exact ⟨stream.replay afterId world.db.inAppNotifications,
          by simp [Db.updateStream, World.after, hstream], by simp [Stream.replay]⟩
    · exact ⟨(sound_refl silent_other).keeps hconsistent, by simp⟩

/-- The listener for the end of the connection is set. -/
theorem meets_goLive : (pipeline expects).Meets number (goLive index)
    (fun world ↦ Replayed index world) fun _ _ ↦ True := by
  refine Protocol.meets_atomically persistent_replayed.stable fun world hconsistent hreplayed _ ↦ ?_
  obtain ⟨stream, hstream, hphase⟩ := hreplayed
  refine ⟨(sound_updateStream fun other hother ↦ ?_).keeps hconsistent, trivial⟩
  obtain rfl := Option.some.inj (hstream.symm.trans hother)
  exact .live stream hphase

/-- `stream`. -/
theorem meets_stream : (pipeline expects).Meets number
    (Notifications.stream userId tenantId lastEventId) (fun _ ↦ True) fun _ _ ↦ True := by
  refine meets_openStream.bind fun index _ ↦ ?_
  refine Protocol.Meets.bind ((meets_writeConnected.frame persistent_streamOf).strengthen
    fun _ _ h ↦ ⟨trivial, h⟩) fun _ _ ↦ ?_
  refine Protocol.Meets.bind (meets_replayMissed.strengthen fun _ _ h ↦ h.2) fun _ _ ↦ ?_
  have hchannel : (pipeline expects).Meets number (Call.query .other fun db : Db ↦
      db.userChannel userId : NotificationCall Channel) (fun _ ↦ True) fun _ _ ↦ True :=
    meets_of_sound ((Call.only_query _ _).mpr fun _ ↦ sound_refl silent_other)
  refine Protocol.Meets.bind ((hchannel.frame persistent_replayed).strengthen
    fun _ _ h ↦ ⟨trivial, h⟩) fun channel _ ↦ ?_
  refine Protocol.Meets.bind (((meets_of_sound only_subscribe).frame persistent_replayed).strengthen
    fun _ _ h ↦ ⟨trivial, h.2⟩) fun _ _ ↦ ?_
  exact meets_goLive.strengthen fun _ _ h ↦ h.2

/-- The end of a connection. -/
theorem only_closeStream : (closeStream index).Only (Sound expects) := by
  refine Call.only_bind.mpr ⟨(Call.only_atomically _ _).mpr fun db ↦ sound_close, fun channel _ ↦ ?_⟩
  cases channel with
  | none => trivial
  | some channel => exact only_unsubscribe

/-- The `message` event. -/
theorem only_handleMessage : Notifications.handleMessage.Only (Sound expects) := by
  refine (Call.only_atomically _ _).mpr fun db ↦ ?_
  cases hmessages : db.pubSub.messages with
  | nil => exact sound_refl silent_other
  | cons head rest => exact sound_message hmessages

end Endpoint

/-! ### All requests -/

/-- A call whose result nobody looks at. -/
theorem meets_request {call : NotificationCall α}
    (hcall : (pipeline expects).Meets number call (fun _ ↦ True) fun _ _ ↦ True) :
    (pipeline expects).Meets number ((fun _ ↦ none) <$> call : NotificationCall TaskRun) (Fresh number)
      fun result world ↦ Completed expects result world := by
  refine Protocol.Meets.bind (hcall.strengthen fun _ _ _ ↦ trivial) fun _ _ ↦ ?_
  refine Protocol.meets_pure fun _ _ _ ↦ ?_
  rintro _ ⟨⟩

/-- A write that nobody takes note of. -/
theorem only_write {change : Db → Db} (hsound : ∀ db, Sound expects db .other (change db)) :
    (write change).Only (Sound expects) := (Call.only_atomically _ _).mpr hsound

theorem only_requestNotification {options : ScheduleNotificationOptions} :
    (requestNotification options).Only (Sound expects) := by
  refine Call.only_attempt _ _ (fun db _ _ ↦ sound_refl silent_other) fun db value after hok ↦ ?_
  cases hschedule : scheduleNotification options db with
  | error failure => simp [hschedule, Except.map] at hok
  | ok scheduled =>
    rw [hschedule] at hok
    obtain ⟨_, rfl⟩ := Prod.mk.inj (Except.ok.inj hok)
    exact sound_scheduleNotification hschedule

theorem only_requestEmail {options : ScheduleEmailOptions} :
    (requestEmail options).Only (Sound expects) := by
  refine Call.only_attempt _ _ (fun db _ _ ↦ sound_refl silent_other) fun db value after hok ↦ ?_
  cases hschedule : scheduleEmail options db.nextUuid db.now db.emailOutbox with
  | error failure => simp [hschedule, Except.map] at hok
  | ok rows =>
    rw [hschedule] at hok
    obtain ⟨_, rfl⟩ := Prod.mk.inj (Except.ok.inj hok)
    exact sound_scheduleEmail hschedule trivial ⟨rfl, streamsAdvance_refl⟩

theorem only_requestMarkRead {userId notificationId : Uuid} :
    (requestMarkRead userId notificationId).Only (Sound expects) := by
  refine Call.only_bind.mpr ⟨(Call.only_query _ _).mpr fun _ ↦ sound_refl silent_other,
    fun notification _ ↦ ?_⟩
  cases notification with
  | none => trivial
  | some notification =>
    dsimp only
    split_ifs
    · exact only_write fun _ ↦ sound_markRead
    · trivial

/-- The call of every request keeps the protocol, and the run of a task keeps its promise. -/
theorem meets_serve (request : NotificationRequest) (number : ℕ) :
    (pipeline expects).Meets number request.serve (Fresh number)
      fun result world ↦ Completed expects result world := by
  have hwrite : ∀ change : Db → Db, (∀ db, Sound expects db .other (change db)) →
      (pipeline expects).Meets number ((fun _ ↦ none) <$> write change : NotificationCall TaskRun)
        (Fresh number) fun result world ↦ Completed expects result world :=
    fun change hsound ↦ meets_request (meets_of_sound (only_write hsound))
  cases request with
  | scheduleNotification options => exact meets_request (meets_of_sound only_requestNotification)
  | scheduleEmail options => exact meets_request (meets_of_sound only_requestEmail)
  | relayNotifications process => exact meets_request meets_relayNotifications
  | relayEmails process => exact meets_request meets_relayEmails
  | runTask index => exact meets_runTask.strengthen fun _ _ _ ↦ trivial
  | upsertPreference input => exact hwrite _ fun _ ↦ sound_silent silent_other rfl rfl rfl rfl rfl rfl
  | resetPreference tenantId userId type =>
    exact hwrite _ fun _ ↦ sound_silent silent_other rfl rfl rfl rfl rfl rfl
  | markRead userId notificationId => exact meets_request (meets_of_sound only_requestMarkRead)
  | markAllRead tenantId userId => exact hwrite _ fun _ ↦ sound_markRead
  | stream userId tenantId lastEventId => exact meets_request meets_stream
  | close number => exact meets_request (meets_of_sound only_closeStream)
  | handleMessage => exact meets_request (meets_of_sound only_handleMessage)
  | takeCommand =>
    exact meets_request (meets_write fun _ ↦
      sound_silent silent_other rfl rfl rfl rfl messages_takeCommand rfl)
  | abort number => exact meets_request meets_endTransaction
  | changeHealth resource health =>
    exact hwrite _ fun _ ↦ sound_silent silent_other rfl rfl rfl rfl rfl rfl
  | changeUsers users => exact hwrite _ fun _ ↦ sound_silent silent_other rfl rfl rfl rfl rfl rfl
  | tick milliseconds => exact hwrite _ fun _ ↦ sound_silent silent_other rfl rfl rfl rfl rfl rfl

/-! ### Runs -/

section Runs

variable {db : Db} {config : NotificationConfig}
  {permits : World Db NotificationStep → NotificationStep → Prop}

/-- Before anything has happened, the store is consistent. -/
theorem consistent_cleared (db : Db) : Consistent expects db.cleared where
  outboxIds := .nil
  notificationIds := .nil
  sources := .nil
  tasks := by simp [Db.cleared]
  emails := by simp [Db.cleared]
  sent := by simp [Db.cleared]

/-- When no row must not be forgotten, every step is allowed. -/
theorem throughout_nobody : Throughout (fun _ ↦ False) world label := by
  refine ⟨fun _ _ ↦ False.elim, ?_⟩
  unfold InsertsFirst
  split
  · exact id
  · trivial

/-- What the configurations of a run keep. -/
theorem reachable_pipeline
    (hpermits : ∀ world label, permits world label → Throughout expects world label)
    (hreach : Reachable NotificationRequest.serve permits db.cleared config) :
    (pipeline expects).Kept (fun _ ↦ Completed expects) config :=
  Protocol.reachable_kept (fun _ _ ↦ persistent_completed.stable) meets_serve (consistent_cleared db)
    (Protocol.reachable_of_permits hpermits hreach)

/-- The invariant rule of the pipeline. Assumes: the property holds before anything has happened, and each
allowed step from a consistent store to a consistent store that has an effect keeps it. It holds in every
run. -/
theorem pipeline_along (property : World Db NotificationStep → Prop)
    (hinitial : property ⟨db.cleared, []⟩)
    (hstep : ∀ number world label after, Consistent (fun _ ↦ False) world.db →
      Consistent (fun _ ↦ False) after → permits world label → Effect world.db label after →
      property world → property (world.after number label after))
    (hreach : Reachable NotificationRequest.serve permits db.cleared config) :
    property config.toWorld :=
  Protocol.reachable_along (fun _ _ _ ↦ throughout_nobody)
    (fun _ _ ↦ persistent_completed.stable) meets_serve (consistent_cleared db) property hinitial hstep
    hreach

/-- An event of the pipeline happens at most once. Assumes: a mark that lasts, which a step finds missing
and leaves behind whenever the event happens. -/
theorem pipeline_atMostOnce {event : NotificationStep → Bool}
    {mark : World Db NotificationStep → Prop}
    (hmark : (pipeline fun _ ↦ False).Persistent mark)
    (hevent : ∀ number world label after, Consistent (fun _ ↦ False) world.db →
      Effect world.db label after → event label = true →
      ¬ mark world ∧ mark (world.after number label after))
    (hreach : Reachable NotificationRequest.serve permits db.cleared config) :
    (config.log.countP fun entry ↦ event entry.2) ≤ 1 :=
  Protocol.reachable_countP_le_one (fun _ _ _ ↦ throughout_nobody)
    (fun _ _ ↦ persistent_completed.stable) meets_serve (consistent_cleared db) hmark hevent hreach

end Runs

end RallyApi.Notifications

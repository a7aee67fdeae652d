import RallyApi.Audit.Pipeline
import RallyApi.Concurrency.RelyGuarantee
import RallyApi.Outbox.RelayInvariant

/-!
# The audit log records every published event once

Whatever is delivered twice, in whatever order, and wherever a worker stops: no event has two audit logs,
every audit log is the record of a message that was published, and nothing changes or removes one
(`reachable_recordedOnce`). An event that the relay has marked as published is still in the queue, or has
its audit log, or an `INSERT` for it has failed (`reachable_notLost`): `record` reports no failure to the
consumer, which then deletes the message.

A message is only deleted by a consumer that has tried to record it (`Handled`). That a published row has
been handed to SNS is what the runs of the relay alone show, of which every run of the pipeline is one
(`reachable_mirrored`).
-/

set_option autoImplicit false
set_option relaxedAutoImplicit false

namespace RallyApi.Audit

open Concurrency Platform
open Outbox (RelayStep RelayRequest RowId OutboxRow RowStatus)

variable {content : RowId → OutboxEvent} {topicArn : Option String}

/-! ### What is known of a message -/

/-- A history. -/
abbrev AuditHistory := List (ℕ × AuditStep)

/-- The message of the row has been published: `processRow` has returned for it, or it was delivered once
more. -/
def Published (id : RowId) (log : AuditHistory) : Prop :=
  ∃ number, (number, .relay (.processRow id true)) ∈ log ∨ (number, .republish id) ∈ log

/-- A body of the queue is a text that is not JSON, or the message of a row that was published. -/
def Genuine (content : RowId → OutboxEvent) (body : Option DomainEventMessage) (log : AuditHistory) :
    Prop :=
  ∀ event, body = some event → ∃ id, event = messageOf content id ∧ Published id log

/-- The consumer has tried to record the event: it has its audit log, or an `INSERT` for it has failed. -/
def Handled (id : RowId) (world : World Db AuditStep) : Prop :=
  (∃ log ∈ world.db.auditLogs, log.sourceEventId = some id) ∨
    ∃ number, (number, .insert (some id) false) ∈ world.log

/-- The message of the row is in the queue. -/
def Queued (content : RowId → OutboxEvent) (id : RowId) (db : Db) : Prop :=
  ∃ message ∈ db.queue, message.body = some (messageOf content id)

theorem Published.mono {id : RowId} {log : AuditHistory} (hpublished : Published id log)
    (entry : ℕ × AuditStep) : Published id (entry :: log) :=
  hpublished.imp fun _ hmem ↦ hmem.imp (List.mem_cons_of_mem _) (List.mem_cons_of_mem _)

theorem Genuine.mono {body : Option DomainEventMessage} {log : AuditHistory}
    (hgenuine : Genuine content body log) (entry : ℕ × AuditStep) :
    Genuine content body (entry :: log) := fun event hevent ↦
  (hgenuine event hevent).imp fun _ ⟨hmessage, hpublished⟩ ↦ ⟨hmessage, hpublished.mono entry⟩

/-! ### The protocol -/

/-- The invariant. -/
structure AuditInOrder (content : RowId → OutboxEvent) (world : World Db AuditStep) : Prop where
  handles : ∀ message ∈ world.db.queue, message.receiptHandle < world.db.nextHandle
  distinct : (world.db.queue.map SqsMessage.receiptHandle).Nodup
  genuine : ∀ message ∈ world.db.queue, Genuine content message.body world.log
  once : (world.db.auditLogs.map fun log ↦ log.sourceEventId).Nodup
  faithful : ∀ log ∈ world.db.auditLogs, ∃ id, Published id world.log ∧
    log.toCreateAuditLogInput = (messageOf content id).auditInput
  kept : ∀ id, Published id world.log → Queued content id world.db ∨ Handled id world

/-- What the other calls may rely on: no audit log goes away, and a message that was not in the queue has a
handle that nobody has seen. -/
structure KeepsAudit (world : World Db AuditStep) (after : Db) : Prop where
  auditLogs : world.db.auditLogs <+: after.auditLogs
  nextHandle : world.db.nextHandle ≤ after.nextHandle
  queue : ∀ message ∈ after.queue,
    message ∈ world.db.queue ∨ world.db.nextHandle ≤ message.receiptHandle

/-- The protocol of the pipeline. -/
def auditProtocol (content : RowId → OutboxEvent) : Protocol Db AuditStep where
  permits := anyStep
  invariant := AuditInOrder content
  guarantee _ world _ after := KeepsAudit world after

variable {number : ℕ} {world : World Db AuditStep} {label : AuditStep} {after : Db} {id : RowId}

theorem Handled.mono (hhandled : Handled id world) (hlogs : world.db.auditLogs <+: after.auditLogs) :
    Handled id (world.after number label after) :=
  hhandled.imp (fun ⟨log, hlog, hid⟩ ↦ ⟨log, hlogs.subset hlog, hid⟩) fun ⟨other, hmem⟩ ↦
    ⟨other, List.mem_cons_of_mem _ hmem⟩

/-- The step publishes nothing. -/
def Publishes (label : AuditStep) (id : RowId) : Prop :=
  label = .relay (.processRow id true) ∨ label = .republish id

theorem published_after (hpublished : Published id (world.after number label after).log) :
    Published id world.log ∨ Publishes label id := by
  obtain ⟨other, hmem⟩ := hpublished
  simp only [World.after, List.mem_cons, Prod.mk.injEq] at hmem
  rcases hmem with (⟨_, hlabel⟩ | hold) | (⟨_, hlabel⟩ | hold)
  · exact .inr (.inl hlabel.symm)
  · exact .inl ⟨other, .inl hold⟩
  · exact .inr (.inr hlabel.symm)
  · exact .inl ⟨other, .inr hold⟩

/-! ### Steps -/

/-- A step that leaves the queue and the audit logs alone and publishes nothing. -/
theorem keeps_of_same (hinv : AuditInOrder content world) (hqueue : after.queue = world.db.queue)
    (hhandle : after.nextHandle = world.db.nextHandle) (hlogs : after.auditLogs = world.db.auditLogs)
    (hlabel : ∀ id, ¬ Publishes label id) : (auditProtocol content).Keeps number world label after where
  guarantee := ⟨hlogs ▸ List.prefix_rfl, hhandle ▸ le_rfl, fun message hmem ↦ .inl (hqueue ▸ hmem)⟩
  invariant := {
    handles := fun message hmem ↦ by
      change message.receiptHandle < after.nextHandle
      exact hhandle ▸ hinv.handles message (hqueue ▸ hmem)
    distinct := by
      change (after.queue.map SqsMessage.receiptHandle).Nodup
      exact hqueue ▸ hinv.distinct
    genuine := fun message hmem ↦ (hinv.genuine message (hqueue ▸ hmem)).mono _
    once := by
      change (after.auditLogs.map fun log ↦ log.sourceEventId).Nodup
      exact hlogs ▸ hinv.once
    faithful := fun log hmem ↦ (hinv.faithful log (hlogs ▸ hmem)).imp fun _ ⟨hpublished, hinput⟩ ↦
      ⟨hpublished.mono _, hinput⟩
    kept := fun id hpublished ↦ by
      rcases published_after hpublished with hold | hnew
      · refine (hinv.kept id hold).imp ?_ fun hhandled ↦ hhandled.mono (hlogs ▸ List.prefix_rfl)
        rintro ⟨message, hmem, hbody⟩
        exact ⟨message, hqueue.symm ▸ hmem, hbody⟩
      · exact absurd hnew (hlabel id) }

/-- A message comes into the queue: a text that is not JSON, or the message of the row that the step
publishes. -/
theorem keeps_enqueue (outbox : Outbox.Db) {body : Option DomainEventMessage}
    (hinv : AuditInOrder content world)
    (hbody : ∀ event, body = some event → ∃ id, event = messageOf content id ∧ Publishes label id)
    (hlabel : ∀ id, Publishes label id → body = some (messageOf content id)) :
    (auditProtocol content).Keeps number world label
      ({ world.db with outbox : Db }.enqueue body) where
  guarantee := by
    refine ⟨List.prefix_rfl, Nat.le_succ _, fun message hmem ↦ ?_⟩
    rcases List.mem_append.mp hmem with hold | hnew
    · exact .inl hold
    · rw [List.mem_singleton.mp hnew]
      exact .inr le_rfl
  invariant := {
    handles := fun message hmem ↦ by
      rcases List.mem_append.mp hmem with hold | hnew
      · exact (hinv.handles message hold).trans (Nat.lt_succ_self _)
      · rw [List.mem_singleton.mp hnew]
        exact Nat.lt_succ_self _
    distinct := by
      change ((world.db.queue ++ [_]).map SqsMessage.receiptHandle).Nodup
      refine Store.nodup_map_append_singleton hinv.distinct fun hmem ↦ ?_
      obtain ⟨message, hmessage, hsame⟩ := List.mem_map.mp hmem
      exact absurd hsame (hinv.handles message hmessage).ne
    genuine := fun message hmem ↦ by
      rcases List.mem_append.mp hmem with hold | hnew
      · exact (hinv.genuine message hold).mono _
      · rw [List.mem_singleton.mp hnew]
        intro event hevent
        obtain ⟨id, hmessage, hpublishes⟩ := hbody event hevent
        refine ⟨id, hmessage, number, hpublishes.imp (fun hrelay ↦ ?_) fun hagain ↦ ?_⟩
        · rw [← hrelay]
          exact List.mem_cons_self
        · rw [← hagain]
          exact List.mem_cons_self
    once := hinv.once
    faithful := fun log hmem ↦ (hinv.faithful log hmem).imp fun _ ⟨hpublished, hinput⟩ ↦
      ⟨hpublished.mono _, hinput⟩
    kept := fun id hpublished ↦ by
      rcases published_after hpublished with hold | hnew
      · refine (hinv.kept id hold).imp ?_ fun hhandled ↦ hhandled.mono List.prefix_rfl
        exact fun ⟨message, hmem, hbody⟩ ↦ ⟨message, List.mem_append_left _ hmem, hbody⟩
      · exact .inl ⟨_, List.mem_append_right _ (List.mem_singleton_self _), hlabel id hnew⟩ }

/-- An audit log is inserted, or not. Assumes: it records a message that was published. -/
theorem keeps_insert (works : Bool) {event : DomainEventMessage} (logId : Uuid) (now : Date)
    (hinv : AuditInOrder content world) (hgenuine : Genuine content (some event) world.log) :
    (auditProtocol content).Keeps number world (.insert event.eventId works)
        (if works then world.db.insertAuditLog { event.auditInput with id := logId, occurredAt := now }
          else world.db) ∧
      ∀ id, event = messageOf content id → Handled id (world.after number (.insert event.eventId works)
        (if works then world.db.insertAuditLog { event.auditInput with id := logId, occurredAt := now }
          else world.db)) := by
  have hlabel : ∀ id, ¬ Publishes (.insert event.eventId works) id := by simp [Publishes]
  obtain ⟨source, rfl, hpublished⟩ := hgenuine event rfl
  have hsource : ∀ id, messageOf content source = messageOf content id → source = id := fun id hsame ↦
    Option.some.inj (congrArg DomainEventMessage.eventId hsame)
  cases works with
  | false =>
    refine ⟨keeps_of_same hinv rfl rfl rfl hlabel, fun id hsame ↦ .inr ⟨number, ?_⟩⟩
    rw [← hsource id hsame]
    exact List.mem_cons_self
  | true =>
    simp only [if_true, Db.insertAuditLog]
    split_ifs with htaken
    · refine ⟨keeps_of_same hinv rfl rfl rfl hlabel, fun id hsame ↦ .inl ?_⟩
      obtain ⟨row, hrow, hid⟩ := List.any_eq_true.mp htaken.2
      refine ⟨row, hrow, (of_decide_eq_true hid).trans ?_⟩
      rw [← hsource id hsame]
      rfl
    · have hfresh : ∀ row ∈ world.db.auditLogs, row.sourceEventId ≠ some source := by
        intro row hrow hid
        exact htaken ⟨rfl, List.any_eq_true.mpr ⟨row, hrow, decide_eq_true hid⟩⟩
      refine ⟨⟨⟨List.prefix_append _ _, le_rfl, fun message hmem ↦ .inl hmem⟩, ?_⟩, fun id hsame ↦ .inl ?_⟩
      · refine ⟨hinv.handles, hinv.distinct, fun message hmem ↦ (hinv.genuine message hmem).mono _, ?_,
          fun log hmem ↦ ?_, fun id hafter ↦ ?_⟩
        · refine Store.nodup_map_append_singleton hinv.once fun hmem ↦ ?_
          obtain ⟨row, hrow, hid⟩ := List.mem_map.mp hmem
          exact hfresh row hrow hid
        · rcases List.mem_append.mp hmem with hold | hnew
          · exact (hinv.faithful log hold).imp fun _ ⟨hpublished, hinput⟩ ↦ ⟨hpublished.mono _, hinput⟩
          · rw [List.mem_singleton.mp hnew]
            exact ⟨source, hpublished.mono _, rfl⟩
        · rcases published_after hafter with hold | hnew
          · exact (hinv.kept id hold).imp (fun hqueued ↦ hqueued) fun hhandled ↦
              hhandled.mono (List.prefix_append _ _)
          · exact absurd hnew (hlabel id)
      · refine ⟨_, List.mem_append_right _ (List.mem_singleton_self _), ?_⟩
        rw [← hsource id hsame]
        rfl

/-- A message is deleted. Assumes: it is a text that is not JSON, or the consumer has tried to record it. -/
theorem keeps_delete {handle : ℕ} {body : Option DomainEventMessage} (hinv : AuditInOrder content world)
    (hbody : ∀ message ∈ world.db.queue, message.receiptHandle = handle → message.body = body)
    (hhandled : ∀ id, body = some (messageOf content id) → Handled id world) :
    (auditProtocol content).Keeps number world (.deleteMessage handle)
      { world.db with queue := world.db.queue.filter fun message ↦ message.receiptHandle ≠ handle } := by
  have hlabel : ∀ id, ¬ Publishes (.deleteMessage handle) id := by simp [Publishes]
  refine ⟨⟨List.prefix_rfl, le_rfl, fun message hmem ↦ .inl (List.mem_of_mem_filter hmem)⟩,
    fun message hmem ↦ hinv.handles message (List.mem_of_mem_filter hmem), ?_,
    fun message hmem ↦ (hinv.genuine message (List.mem_of_mem_filter hmem)).mono _, hinv.once,
    fun log hmem ↦ (hinv.faithful log hmem).imp fun _ ⟨hpublished, hinput⟩ ↦ ⟨hpublished.mono _, hinput⟩,
    fun id hpublished ↦ ?_⟩
  · exact hinv.distinct.sublist (List.filter_sublist.map _)
  · rcases published_after hpublished with hold | hnew
    · rcases hinv.kept id hold with ⟨message, hmem, hmessage⟩ | hdone
      · by_cases hsame : message.receiptHandle = handle
        · exact .inr ((hhandled id ((hbody message hmem hsame).symm.trans hmessage)).mono List.prefix_rfl)
        · exact .inl ⟨message, List.mem_filter.mpr ⟨hmem, decide_eq_true hsame⟩, hmessage⟩
      · exact .inr (hdone.mono List.prefix_rfl)
    · exact absurd hnew (hlabel id)

/-! ### The relay, the queue and the producers -/

/-- What a step of the relay does to the rest of the store. -/
def RelayEffect (content : RowId → OutboxEvent) (topicArn : Option String) (db : Db) (label : AuditStep)
    (after : Db) : Prop :=
  ∃ step outbox, label = .relay step ∧ after = publish content topicArn step { db with outbox }

theorem serveRelay_only (request : RelayRequest) :
    (serveRelay content topicArn request).Only (RelayEffect content topicArn) :=
  Call.only_map ((Call.only_true _).embedded fun _ label after _ ↦ ⟨label, after, rfl, rfl⟩)

/-- A call that only does what keeps the protocol. -/
theorem meets_of_keeps {α : Type} {call : AuditCall α} {relation : Db → AuditStep → Db → Prop}
    (hcall : call.Only relation)
    (hkeeps : ∀ world label after, AuditInOrder content world → relation world.db label after →
      (auditProtocol content).Keeps number world label after) :
    (auditProtocol content).Meets number call (fun _ ↦ True) fun _ _ ↦ True :=
  Protocol.meets_of_only hcall Protocol.stable_true fun world label after hinv _ _ hrelation ↦
    ⟨hkeeps world label after hinv hrelation, trivial⟩

/-- Assumes: the topic is configured. -/
theorem serveRelay_meets (htopic : topicArn.isSome = true) (request : RelayRequest) :
    (auditProtocol content).Meets number (serveRelay content topicArn request) (fun _ ↦ True)
      fun _ _ ↦ True := by
  refine meets_of_keeps (serveRelay_only request)
    fun world label after hinv ⟨step, outbox, hlabel, hafter⟩ ↦ ?_
  subst hlabel hafter
  have hsame : (∀ id, step ≠ .processRow id true) →
      (auditProtocol content).Keeps number world (.relay step) { world.db with outbox } := fun hstep ↦
    keeps_of_same hinv rfl rfl rfl fun id hpublishes ↦ by simp [Publishes, hstep] at hpublishes
  cases step with
  | processRow id returned =>
    cases returned with
    | true =>
      simp only [publish, htopic, if_true]
      refine keeps_enqueue outbox hinv (fun event hevent ↦ ?_) fun other hpublishes ↦ ?_
      · exact ⟨id, (Option.some.inj hevent).symm, .inl rfl⟩
      · simp only [Publishes, AuditStep.relay.injEq, RelayStep.processRow.injEq, and_true, reduceCtorEq,
          or_false] at hpublishes
        rw [hpublishes]
    | false => exact hsame (by simp)
  | other => exact hsame (by simp)
  | fetch ids => exact hsame (by simp)
  | commit => exact hsame (by simp)
  | rollback => exact hsame (by simp)

/-- Assumes: the topic is configured. -/
theorem republish_meets (htopic : topicArn.isSome = true) (id : RowId) :
    (auditProtocol content).Meets number (republish content topicArn id) (fun _ ↦ True)
      fun _ _ ↦ True := by
  refine Protocol.meets_atomically Protocol.stable_true fun world hinv _ _ ↦ ⟨?_, trivial⟩
  simp only [htopic, if_true]
  refine keeps_enqueue world.db.outbox hinv (fun event hevent ↦ ?_) fun other hpublishes ↦ ?_
  · exact ⟨id, (Option.some.inj hevent).symm, .inr rfl⟩
  · simp only [Publishes, reduceCtorEq, AuditStep.republish.injEq, false_or] at hpublishes
    rw [hpublishes]

theorem postGarbage_meets :
    (auditProtocol content).Meets number postGarbage (fun _ ↦ True) fun _ _ ↦ True := by
  refine Protocol.meets_atomically Protocol.stable_true fun world hinv _ _ ↦ ⟨?_, trivial⟩
  exact keeps_enqueue world.db.outbox hinv (by simp) (by simp [Publishes])

/-! ### The consumer -/

/-- What the consumer knows of a message it has received: its handle is of no other message, and its body
is genuine. -/
structure Received (content : RowId → OutboxEvent) (message : SqsMessage) (world : World Db AuditStep) :
    Prop where
  handle : message.receiptHandle < world.db.nextHandle
  body : ∀ other ∈ world.db.queue, other.receiptHandle = message.receiptHandle → other.body = message.body
  genuine : Genuine content message.body world.log

variable {message : SqsMessage} {messages : List SqsMessage}

theorem Received.mono (hreceived : Received content message world) (hkeeps : KeepsAudit world after) :
    Received content message (world.after number label after) where
  handle := hreceived.handle.trans_le hkeeps.nextHandle
  body other hother hsame := by
    rcases hkeeps.queue other hother with hold | hnew
    · exact hreceived.body other hold hsame
    · exact absurd (hsame ▸ hnew) (Nat.not_le.mpr hreceived.handle)
  genuine := hreceived.genuine.mono _

/-- Some messages that the consumer has received. -/
def ReceivedAll (content : RowId → OutboxEvent) (messages : List SqsMessage) (world : World Db AuditStep) :
    Prop :=
  ∀ message ∈ messages, Received content message world

theorem ReceivedAll.mono (hreceived : ReceivedAll content messages world)
    (hkeeps : KeepsAudit world after) : ReceivedAll content messages (world.after number label after) :=
  fun message hmem ↦ (hreceived message hmem).mono hkeeps

theorem stable_receivedAll (messages : List SqsMessage) :
    (auditProtocol content).Stable number (ReceivedAll content messages) :=
  fun _ _ _ _ _ _ hreceived hkeeps ↦ hreceived.mono hkeeps

/-- The consumer has tried to record the message, if it is one of an event. -/
def Tried (content : RowId → OutboxEvent) (message : SqsMessage) (world : World Db AuditStep) : Prop :=
  ∀ id, message.body = some (messageOf content id) → Handled id world

theorem stable_tried (message : SqsMessage) :
    (auditProtocol content).Stable number (Tried content message) :=
  fun _ _ _ _ _ _ htried hkeeps id hbody ↦ (htried id hbody).mono (KeepsAudit.auditLogs hkeeps)

theorem receiveMessages_meets (handles : List ℕ) :
    (auditProtocol content).Meets number (receiveMessages handles) (fun _ ↦ True)
      fun messages world ↦ ReceivedAll content messages world := by
  refine Protocol.meets_query Protocol.stable_true fun world hinv _ _ ↦ ?_
  have hkeeps : (auditProtocol content).Keeps number world .other world.db :=
    keeps_of_same hinv rfl rfl rfl (by simp [Publishes])
  refine ⟨hkeeps, fun message hmem ↦ ?_⟩
  obtain ⟨handle, _, hfound⟩ := List.mem_filterMap.mp (List.mem_of_mem_take hmem)
  have hqueue := List.mem_of_find?_eq_some hfound
  refine Received.mono ⟨AuditInOrder.handles hinv message hqueue, fun other hother hsame ↦ ?_,
    AuditInOrder.genuine hinv message hqueue⟩ hkeeps.guarantee
  rw [List.inj_on_of_nodup_map (AuditInOrder.distinct hinv) hother hqueue hsame]

theorem record_meets (works : Bool) {event : DomainEventMessage} (hbody : message.body = some event) :
    (auditProtocol content).Meets number (record works event.auditInput)
      (ReceivedAll content (message :: messages))
      fun _ world ↦ ReceivedAll content (message :: messages) world ∧ Tried content message world := by
  have huuid : (auditProtocol content).Meets number uuidv7 (ReceivedAll content (message :: messages))
      fun _ ↦ ReceivedAll content (message :: messages) := by
    refine Protocol.meets_atomically (stable_receivedAll _) fun world hinv hreceived _ ↦ ?_
    have hkeeps : (auditProtocol content).Keeps number world .other
        { world.db with nextUuid := world.db.nextUuid + 1 } :=
      keeps_of_same hinv rfl rfl rfl (by simp [Publishes])
    exact ⟨hkeeps, hreceived.mono hkeeps.guarantee⟩
  refine huuid.bind fun logId _ ↦ ?_
  refine Protocol.meets_atomically (stable_receivedAll _) fun world hinv hreceived _ ↦ ?_
  have hgenuine := (hreceived message List.mem_cons_self).genuine
  rw [hbody] at hgenuine
  obtain ⟨hkeeps, hhandled⟩ := keeps_insert works logId world.db.outbox.now hinv hgenuine
  refine ⟨hkeeps, hreceived.mono hkeeps.guarantee, fun id hid ↦ hhandled id ?_⟩
  exact Option.some.inj (hbody.symm.trans hid)

theorem deleteMessage_meets (works : Bool) :
    (auditProtocol content).Meets number (deleteMessage works message.receiptHandle)
      (fun world ↦ ReceivedAll content (message :: messages) world ∧ Tried content message world)
      fun _ world ↦ ReceivedAll content messages world := by
  have hrest : ∀ {world : World Db AuditStep}, ReceivedAll content (message :: messages) world →
      ReceivedAll content messages world := fun hreceived other hother ↦
    hreceived other (List.mem_cons_of_mem _ hother)
  cases works with
  | false => exact Protocol.meets_pure fun _ _ hknown ↦ hrest hknown.1
  | true =>
    refine Protocol.meets_atomically ((stable_receivedAll _).and (stable_tried _))
      fun world hinv ⟨hreceived, htried⟩ _ ↦ ?_
    have hkeeps : (auditProtocol content).Keeps number world _ _ :=
      keeps_delete hinv (hreceived message List.mem_cons_self).body htried
    exact ⟨hkeeps, (hrest hreceived).mono hkeeps.guarantee⟩

theorem handleMessage_meets (script : PollScript) :
    (auditProtocol content).Meets number (handleMessage script message)
      (ReceivedAll content (message :: messages)) fun _ world ↦ ReceivedAll content messages world := by
  unfold handleMessage
  cases hbody : message.body with
  | none =>
    refine (deleteMessage_meets _).strengthen fun world _ hreceived ↦ ⟨hreceived, fun id hid ↦ ?_⟩
    rw [hbody] at hid
    cases hid
  | some event =>
    refine (record_meets _ hbody).bind fun _ _ ↦ ?_
    refine (deleteMessage_meets _).bind fun _ _ ↦ ?_
    exact Protocol.meets_pure fun _ _ hreceived ↦ hreceived

/-- The loop: what is known of the messages to come survives the handling of one. -/
theorem handleMessages_meets (script : PollScript) (messages : List SqsMessage) :
    (auditProtocol content).Meets number (handleMessages script messages)
      (ReceivedAll content messages) fun _ _ ↦ True := by
  induction messages with
  | nil => exact Protocol.meets_pure fun _ _ _ ↦ trivial
  | cons message rest ih =>
    refine (handleMessage_meets script).bind fun returned _ ↦ ?_
    cases returned with
    | true => exact ih
    | false => exact Protocol.meets_pure fun _ _ _ ↦ trivial

theorem poll_meets (script : PollScript) :
    (auditProtocol content).Meets number (poll script) (fun _ ↦ True) fun _ _ ↦ True := by
  unfold poll
  split_ifs
  · exact (receiveMessages_meets _).bind fun messages _ ↦ handleMessages_meets script messages
  · exact Protocol.meets_pure fun _ _ _ ↦ trivial

/-- Every request keeps the protocol. Assumes: the topic is configured. -/
theorem serve_meets (htopic : topicArn.isSome = true) (request : AuditRequest) (number : ℕ) :
    (auditProtocol content).Meets number (request.serve content topicArn) (Fresh number)
      fun _ _ ↦ True := by
  suffices hmeets : (auditProtocol content).Meets number (request.serve content topicArn)
      (fun _ ↦ True) fun _ _ ↦ True from hmeets.strengthen fun _ _ _ ↦ trivial
  cases request with
  | relay request => exact serveRelay_meets htopic request
  | republish id => exact republish_meets htopic id
  | postGarbage => exact postGarbage_meets
  | poll script => exact poll_meets script

/-! ### Every run -/

/-- A configuration of the pipeline. -/
abbrev AuditConfig := Config Db AuditStep Unit Unit

/-- The queue and the audit log are empty. -/
theorem auditInOrder_initial (outbox : Outbox.Db) : AuditInOrder content ⟨{ outbox }, []⟩ where
  handles _ hmem := nomatch hmem
  distinct := List.nodup_nil
  genuine _ hmem := nomatch hmem
  once := List.nodup_nil
  faithful _ hmem := nomatch hmem
  kept _ hpublished := by
    obtain ⟨_, hmem | hmem⟩ := hpublished <;> cases hmem

variable {outbox : Outbox.Db} {config : AuditConfig}

theorem reachable_auditInOrder (htopic : topicArn.isSome = true)
    (hreach : Reachable (AuditRequest.serve content topicArn) anyStep { outbox } config) :
    AuditInOrder content config.toWorld :=
  (auditProtocol content).reachable_invariant (serve_meets htopic) (auditInOrder_initial outbox) hreach

/-- The audit log is in order: no two rows record the same event, and every row is what the consumer makes
of the message of a row of the outbox that was published. -/
structure RecordedOnce (content : RowId → OutboxEvent) (config : AuditConfig) : Prop where
  once : (config.db.auditLogs.map fun log ↦ log.sourceEventId).Nodup
  faithful : ∀ log ∈ config.db.auditLogs, ∃ id, Published id config.log ∧
    log.toCreateAuditLogInput = (messageOf content id).auditInput

/-- Assumes: the topic is configured, and the queue and the audit log are empty at the start. In every
configuration that producers, relays and consumers reach in any interleaving, whatever is delivered again or
fails, every event has at most one audit log, which is its record, and later steps only append to the audit
log. -/
theorem reachable_recordedOnce (htopic : topicArn.isSome = true)
    (hreach : Reachable (AuditRequest.serve content topicArn) anyStep { outbox } config) :
    RecordedOnce content config ∧
      ∀ later, Relation.ReflTransGen (Step (AuditRequest.serve content topicArn) anyStep) config later →
        config.db.auditLogs <+: later.db.auditLogs := by
  have hinv := reachable_auditInOrder htopic hreach
  refine ⟨⟨hinv.once, hinv.faithful⟩, fun later hlater ↦ ?_⟩
  induction hlater with
  | refl => exact List.prefix_rfl
  | tail hprefix hstep ih =>
    have hguarantee := (auditProtocol content).step_guarantee (serve_meets htopic)
      (auditInOrder_initial outbox) (hreach.trans hprefix) hstep
    rcases hguarantee with hsame | ⟨_, _, _, hkeeps, _⟩
    · exact congrArg World.db hsame ▸ ih
    · exact ih.trans hkeeps.auditLogs

/-! ### A run -/

/-- What two rows say. -/
def exampleContent (id : RowId) : OutboxEvent where
  eventType := if id = 1 then "WORK_ITEM_CREATED" else "WORK_ITEM_UPDATED"
  aggregateType := "WORK_ITEM"
  aggregateId := 7
  tenantId := 5
  occurredAt := 0

/-- A topic. -/
def exampleTopic : Option String := some "arn:aws:sns:domain-events"

/-- Two rows wait in the outbox. -/
def exampleOutbox : Outbox.Db where
  rows := [{ id := 1, createdAt := 0, scheduledAt := 0 }, { id := 2, createdAt := 1, scheduledAt := 1 }]

/-- Every row can be published. -/
def publishAll : Outbox.Script where
  processRow _ := .returns false true
  commits := true

/-- A consumer that receives the first two messages and is stopped before it has deleted one. -/
def stoppedPoll : PollScript where
  handles := [0, 1]
  deletes _ := false

/-- Both rows are published and the first is delivered once more. One consumer records both and stops before
it deletes a message, while another receives all three. -/
def redelivery : List (Choice AuditRequest) :=
  [.start (.relay (.relay 1 publishAll))] ++ List.replicate 8 (.resume 0) ++
    [.start (.republish 1), .resume 1, .start (.poll stoppedPoll), .start (.poll ⟨true, [2, 0, 1], fun _ ↦ true,
      fun _ ↦ true⟩), .resume 2, .resume 3] ++ List.replicate 6 (.resume 2) ++
    List.replicate 12 (.resume 3)

/-- The configuration that follows. -/
def redeliveryConfig : AuditConfig :=
  (Config.initial { outbox := exampleOutbox }).play (AuditRequest.serve exampleContent exampleTopic) redelivery

/-- A witness: three messages are received five times, and the two events are recorded once each. -/
theorem reachable_recordedOnce_witness :
    (RecordedOnce exampleContent redeliveryConfig ∧
      ∀ later, Relation.ReflTransGen (Step (AuditRequest.serve exampleContent exampleTopic) anyStep)
        redeliveryConfig later → redeliveryConfig.db.auditLogs <+: later.db.auditLogs) ∧
      redeliveryConfig.db.auditLogs.map (fun log ↦ log.sourceEventId) = [some 1, some 2] :=
  ⟨reachable_recordedOnce rfl (play_reachable (allowsAll_anyStep _ redelivery)), by decide +kernel⟩

/-! ### Nothing is lost on the way -/

/-- The steps of the relay in a history of the pipeline. -/
def relayStep : AuditStep → Option RelayStep
  | .relay label => some label
  | _ => none

theorem outbox_publish (label : RelayStep) (outbox : Outbox.Db) (db : Db) :
    (publish content topicArn label { db with outbox }).outbox = outbox := by
  unfold publish
  split
  · split_ifs <;> rfl
  · rfl

/-- The steps of a call leave the outbox alone. -/
def Beside (db : Db) (label : AuditStep) (after : Db) : Prop :=
  relayStep label = none ∧ after.outbox = db.outbox

theorem insertAuditLog_outbox (db : Db) (log : AuditLog) : (db.insertAuditLog log).outbox = db.outbox := by
  unfold Db.insertAuditLog
  split_ifs <;> rfl

theorem deleteMessage_beside (works : Bool) (handle : ℕ) : (deleteMessage works handle).Only Beside := by
  unfold deleteMessage
  split_ifs
  · exact (Call.only_atomically _ _).mpr fun _ ↦ ⟨rfl, rfl⟩
  · trivial

theorem record_beside (works : Bool) (input : CreateAuditLogInput) : (record works input).Only Beside := by
  refine Call.only_bind.mpr ⟨(Call.only_atomically _ _).mpr fun _ ↦ ⟨rfl, rfl⟩, fun _ _ ↦ ?_⟩
  refine (Call.only_atomically _ _).mpr fun db ↦ ⟨rfl, ?_⟩
  change (if works then db.insertAuditLog _ else db).outbox = db.outbox
  split_ifs
  · exact insertAuditLog_outbox _ _
  · rfl

theorem handleMessages_beside (script : PollScript) (messages : List SqsMessage) :
    (handleMessages script messages).Only Beside := by
  induction messages with
  | nil => trivial
  | cons message rest ih =>
    refine Call.only_bind.mpr ⟨?_, fun returned _ ↦ ?_⟩
    · unfold handleMessage
      cases message.body with
      | none => exact deleteMessage_beside _ _
      | some event =>
        refine Call.only_bind.mpr ⟨record_beside _ _, fun _ _ ↦ ?_⟩
        exact Call.only_bind.mpr ⟨deleteMessage_beside _ _, fun _ _ ↦ trivial⟩
    · split_ifs
      · exact ih
      · trivial

/-- Every request of the pipeline is one of the relay, or leaves the outbox alone. -/
theorem serve_mirrors (request : AuditRequest) : ∃ relayRequest, Mirrors outboxPart relayStep
    (request.serve content topicArn) (RelayRequest.serve Outbox.outboxRelayService relayRequest) := by
  cases request with
  | relay request =>
    have hlabel : ∀ label, relayStep (.relay label) = some label := fun _ ↦ rfl
    have hget : ∀ label outbox db,
        outboxPart.get (publish content topicArn label (outboxPart.put outbox db)) = outbox :=
      outbox_publish
    exact ⟨request, (mirrors_embedded hlabel hget _).map⟩
  | republish id =>
    refine ⟨.tick 0, .beside _ _ ((Call.only_atomically _ _).mpr fun db ↦ ?_)⟩
    split_ifs
    · exact ⟨rfl, rfl⟩
    · exact ⟨rfl, rfl⟩
  | postGarbage => exact ⟨.tick 0, .beside _ _ ((Call.only_atomically _ _).mpr fun _ ↦ ⟨rfl, rfl⟩)⟩
  | poll script =>
    refine ⟨.tick 0, .beside _ _ ?_⟩
    change (poll script).Only Beside
    unfold poll
    split_ifs
    · refine Call.only_bind.mpr ⟨(Call.only_query _ _).mpr fun _ ↦ ⟨rfl, rfl⟩, fun messages _ ↦ ?_⟩
      exact handleMessages_beside script messages
    · trivial

/-- A row that is marked as published has been handed to SNS. -/
theorem published_of_status (hpending : ∀ row ∈ outbox.rows, row.status = .pending ∧ row.attempts = 0)
    (hids : (outbox.rows.map OutboxRow.id).Nodup)
    (hreach : Reachable (AuditRequest.serve content topicArn) anyStep { outbox } config) {row : OutboxRow}
    (hrow : row ∈ config.db.outbox.rows) (hstatus : row.status = .published) :
    Published row.id config.log := by
  obtain ⟨mirror, hmirror, hmirrored⟩ := reachable_mirrored serve_mirrors hreach
  have hinv : Outbox.OutboxInOrder Outbox.outboxRelayService mirror.toWorld :=
    (Outbox.outboxProtocol _).reachable_invariant Outbox.serve_sound
      (Outbox.outboxInOrder_initial hpending hids) hmirror
  have hdb : mirror.db = config.db.outbox := hmirrored.db
  have hpos := hinv.delivered row (hdb ▸ hrow) hstatus
  obtain ⟨entry, hentry, hsuccess⟩ := List.countP_pos_iff.mp hpos
  obtain ⟨number, label⟩ := entry
  obtain ⟨hlabel, _⟩ := of_decide_eq_true hsuccess
  obtain rfl : label = .processRow row.id true := hlabel
  obtain ⟨step, hstep, hmem⟩ := mem_unlabelled (hmirrored.log ▸ hentry)
  cases step with
  | relay told =>
    obtain rfl := Option.some.inj hstep
    exact ⟨number, .inl hmem⟩
  | _ => cases hstep

/-- Assumes: the topic is configured; at the start the rows of the outbox are pending and have distinct
identifiers, and the queue and the audit log are empty. In every configuration that producers, relays and
consumers reach in any interleaving, an event that is marked as published is in the queue or has its audit
log, or an `INSERT` of its audit log has failed. -/
theorem reachable_notLost (htopic : topicArn.isSome = true)
    (hpending : ∀ row ∈ outbox.rows, row.status = .pending ∧ row.attempts = 0)
    (hids : (outbox.rows.map OutboxRow.id).Nodup)
    (hreach : Reachable (AuditRequest.serve content topicArn) anyStep { outbox } config) :
    ∀ row ∈ config.db.outbox.rows, row.status = .published →
      Queued content row.id config.db ∨
        (∃ log ∈ config.db.auditLogs, log.toCreateAuditLogInput = (messageOf content row.id).auditInput) ∨
        ∃ number, (number, .insert (some row.id) false) ∈ config.log := by
  intro row hrow hstatus
  have hinv := reachable_auditInOrder htopic hreach
  rcases hinv.kept row.id (published_of_status hpending hids hreach hrow hstatus) with
    hqueued | ⟨log, hlog, hid⟩ | hfailed
  · exact .inl hqueued
  · obtain ⟨id, _, hinput⟩ := hinv.faithful log hlog
    have hsame : log.sourceEventId = some id :=
      congrArg (fun input : CreateAuditLogInput ↦ input.sourceEventId) hinput
    obtain rfl := Option.some.inj (hid.symm.trans hsame)
    exact .inr (.inl ⟨log, hlog, hinput⟩)
  · exact .inr (.inr hfailed)

/-- A consumer receives the message of the first row, whose `INSERT` does not work, and deletes it. The
message of the second row stays in the queue. -/
def failedInsert : List (Choice AuditRequest) :=
  [.start (.relay (.relay 1 publishAll))] ++ List.replicate 8 (.resume 0) ++
    [.start (.poll { handles := [0], inserts := fun _ ↦ false })] ++ List.replicate 4 (.resume 1)

/-- The configuration that follows. -/
def failedInsertConfig : AuditConfig :=
  (Config.initial { outbox := exampleOutbox }).play (AuditRequest.serve exampleContent exampleTopic)
    failedInsert

/-- A witness: one event waits in the queue, and the other is lost with its failed `INSERT`. -/
theorem reachable_notLost_witness :
    (∀ row ∈ failedInsertConfig.db.outbox.rows, row.status = .published →
      Queued exampleContent row.id failedInsertConfig.db ∨
        (∃ log ∈ failedInsertConfig.db.auditLogs,
          log.toCreateAuditLogInput = (messageOf exampleContent row.id).auditInput) ∨
        ∃ number, (number, .insert (some row.id) false) ∈ failedInsertConfig.log) ∧
      failedInsertConfig.db.queue = [⟨1, some (messageOf exampleContent 2)⟩] ∧
      failedInsertConfig.db.auditLogs = [] :=
  ⟨reachable_notLost rfl (by decide) (by decide) (play_reachable (allowsAll_anyStep _ failedInsert)),
    by decide +kernel⟩

end RallyApi.Audit

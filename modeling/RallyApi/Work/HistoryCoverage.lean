import RallyApi.Work.RevisionHistory
import RallyApi.Work.CallRuns

/-!
# What the revision history covers

A client may set twenty-one fields of a work item. Three hand-written lists name them: the request
schema, the `UPDATE` statement and the diff. The diff has no entry for the reporter, the parent and
the custom fields, and it compares values by their text, so it does not tell `null` from the text
`null`.

`recordsChanges_iff` says which updates leave an entry for every field they change, after any sequence
of updates. `reporterChange_unrecorded` is an update that leaves none.
-/

set_option autoImplicit false
set_option relaxedAutoImplicit false

namespace RallyApi.Work

open Concurrency Platform Store

variable {db after : Db} {item : WorkItem} {input : UpdateWorkItemInput}

/-! ### The fields of a request -/

/-- The fields `UpdateWorkItemSchema` lets a client set. -/
inductive ClientField
  | tracked (field : Field)
  | reporterId
  | parentId
  | customFields
  deriving DecidableEq, Repr

/-- The stored value of a field. -/
def WorkItem.stored (item : WorkItem) : ClientField → Value
  | .tracked field => item.get field
  | .reporterId => .ofOption .ofColumn item.reporterId
  | .parentId => .ofOption .ofColumn item.parentId
  | .customFields => .text item.customFields

/-- The value a change set gives to a field, as the column stores it; none for a field it does not
name. -/
def UpdateWorkItemInput.requested (input : UpdateWorkItemInput) : ClientField → Option Value
  | .tracked field => (input.get field).map .stored
  | .reporterId => input.reporterId.map (.ofOption .ofColumn)
  | .parentId => input.parentId.map (.ofOption .ofColumn)
  | .customFields => input.customFields.map .text

/-- An update gives a field the value of the change set, if there is one. -/
theorem stored_set (input : UpdateWorkItemInput) (actorId : Option Uuid) (item : WorkItem)
    (field : ClientField) :
    (({ input with updatedBy := actorId } : UpdateWorkItemInput).set item).stored field =
      (input.requested field).getD (item.stored field) := by
  cases field with
  | tracked field =>
    simp only [WorkItem.stored, UpdateWorkItemInput.requested, get_set, get_updatedBy]
  | _ => simp only [WorkItem.stored, UpdateWorkItemInput.requested, UpdateWorkItemInput.set,
      Option.getD_map]

/-! ### The property and the condition -/

/-- An entry of the activity log names a field of an item. -/
def ActivityLog.Names (log : ActivityLog) (id : Uuid) (field : ClientField) : Prop :=
  log.entityId = id ∧ ∃ change, log.changes = some change ∧ field = .tracked change.field

/-- Every field of an item that differs between two stores is named by an entry that the later store
has appended. -/
def RecordsBetween (db after : Db) : Prop :=
  ∀ before ∈ db.workItems, ∀ row ∈ after.workItems, row.id = before.id →
    ∀ field, row.stored field ≠ before.stored field →
      ∃ log ∈ after.activityLogs.drop db.activityLogs.length, log.Names before.id field

/-- A call of `updateWorkItem` appends an entry for every field it changes. -/
def RecordsChanges (db : Db) (actor : Actor) (id : Uuid) (input : UpdateWorkItemInput) : Prop :=
  RecordsBetween db ((updateWorkItem actor id input).run db).2

/-- Two values that differ although they have the same text. -/
def Lookalike (before next : Value) : Prop :=
  before = .null ∧ next = .text "null" ∨ before = .text "null" ∧ next = .null

/-- The diff sees a field go from one value to another. -/
def Seen : ClientField → Value → Value → Prop
  | .tracked _, before, next => ¬ Lookalike before next
  | _, _, _ => False

/-- The diff sees every change that a change set makes to an item. -/
def SeesAll (item : WorkItem) (input : UpdateWorkItemInput) : Prop :=
  ∀ field, ∀ next ∈ input.requested field, next ≠ item.stored field →
    Seen field (item.stored field) next

/-- An update whose item is found and whose checks pass changes only what the diff sees. -/
def ChangesSeen (db : Db) (actor : Actor) (id : Uuid) (input : UpdateWorkItemInput) : Prop :=
  ∀ item ∈ db.workItems, item.id = id → item.deletedAt = none → item.tenantId = actor.tenantId →
    Passes db (whenPresent input.assigneeId.join (assertAssignable actor.tenantId item)) →
      Passes db (whenPresent input.statusId (assertStatusReachable item)) → SeesAll item input

/-- The identifiers of the entries were drawn before. -/
def FreshEntries (db : Db) : Prop := ∀ log ∈ db.activityLogs, log.id < db.nextUuid

/-- The request is an update of a work item. -/
def IsUpdate : WorkRequest → Prop
  | .updateWorkItem .. => True
  | _ => False

instance (request : WorkRequest) : Decidable (IsUpdate request) :=
  match request with
  | .updateWorkItem .. => .isTrue trivial
  | .createProject .. | .deleteProject .. | .createStatus .. | .deleteStatus .. | .createTransition ..
  | .deleteTransition .. | .createWorkItem .. | .createTask .. | .moveWorkItem .. | .deleteWorkItem ..
  | .createSprint .. | .startSprint .. | .completeSprint .. | .deleteSprint .. | .tick _ => .isFalse id

/-- All fields a client may set. -/
def clientFields : List ClientField :=
  trackedFields.map (fun tracked ↦ .tracked tracked.1) ++ [.reporterId, .parentId, .customFields]

theorem mem_clientFields (field : ClientField) : field ∈ clientFields := by
  cases field with
  | tracked field => cases field <;> decide
  | _ => decide

instance (before next : Value) : Decidable (Lookalike before next) :=
  inferInstanceAs (Decidable (_ ∧ _ ∨ _ ∧ _))

instance (field : ClientField) (before next : Value) : Decidable (Seen field before next) :=
  match field with
  | .tracked _ => inferInstanceAs (Decidable (¬ Lookalike before next))
  | .reporterId | .parentId | .customFields => .isFalse id

instance (item : WorkItem) (input : UpdateWorkItemInput) : Decidable (SeesAll item input) :=
  decidable_of_iff (∀ field ∈ clientFields, ∀ next ∈ input.requested field,
    next ≠ item.stored field → Seen field (item.stored field) next)
    ⟨fun hsees field ↦ hsees field (mem_clientFields field), fun hsees field _ ↦ hsees field⟩

instance (db : Db) (actor : Actor) (id : Uuid) (input : UpdateWorkItemInput) :
    Decidable (ChangesSeen db actor id input) :=
  inferInstanceAs (Decidable (∀ item ∈ db.workItems, _))

/-! ### The entries of a diff -/

/-- Two values have the same text when they are equal or one is `null` and the other its text. -/
theorem sameText_iff {before next : Value} :
    sameText before next = true ↔ next = before ∨ Lookalike before next := by
  unfold sameText Lookalike
  split
  · simp
  · simp
  next hnull htext =>
    rw [decide_eq_true_eq, eq_comm]
    refine (or_iff_left ?_).symm
    rintro (⟨rfl, rfl⟩ | ⟨rfl, rfl⟩)
    · exact hnull _ rfl rfl
    · exact htext _ rfl rfl

/-- Two values count as the same when they have the same text. -/
theorem not_changed_iff {before next : Value} :
    changed before next = false ↔ next = before ∨ Lookalike before next := by
  rw [← sameText_iff, changed]
  split_ifs with hnull
  · rw [hnull.1, hnull.2]
    simp [sameText]
  · rw [Bool.not_eq_false']

/-- A value is stored as `null`, or as a text, only when it is that. -/
theorem lookalike_stored {before next : Value} : Lookalike before next.stored ↔ Lookalike before next := by
  cases next <;> simp [Lookalike, Value.stored, Value.ofColumn]

/-- Assumes: a value that is stored as another than the field has. It counts as changed unless it looks
like the one of the field. -/
theorem changed_iff_of_stored_ne {field : Field} {next : Value}
    (hdiffers : next.stored ≠ item.stored (.tracked field)) :
    changed (item.get field) next = true ↔
      Seen (.tracked field) (item.stored (.tracked field)) next.stored := by
  have hnext : next ≠ item.get field := by
    rintro rfl
    exact hdiffers (stored_get item field)
  rw [← Bool.not_eq_false, not_changed_iff, or_iff_right hnext]
  exact not_congr lookalike_stored.symm

/-- The diff has an entry for a field exactly when the change set gives it a value that counts as
changed. -/
theorem exists_entry_iff (isTask : Bool) {field : Field} :
    (∃ entry ∈ diffWorkItem item input isTask, entry.change.field = field) ↔
      ∃ next ∈ input.get field, changed (item.get field) next = true := by
  constructor
  · rintro ⟨diffEntry, hentry, rfl⟩
    obtain ⟨⟨tracked, itemAction, taskAction⟩, _, hadd⟩ := List.mem_filterMap.mp hentry
    dsimp only at hadd
    cases hnext : input.get tracked with
    | none => simp [addEntry, hnext] at hadd
    | some next =>
      simp only [addEntry, hnext] at hadd
      split_ifs at hadd with hchanged
      obtain rfl := Option.some.inj hadd
      exact ⟨next, hnext, hchanged⟩
  · rintro ⟨next, hnext, hchanged⟩
    obtain ⟨⟨tracked, itemAction, taskAction⟩, htracked, rfl⟩ :=
      List.mem_map.mp (mem_trackedFields field)
    refine ⟨entry tracked item next itemAction taskAction isTask,
      List.mem_filterMap.mpr ⟨_, htracked, ?_⟩, rfl⟩
    simp only [addEntry, Option.mem_def.mp hnext, hchanged, if_true]

/-- The entries of an update name a field of its item exactly when the diff has an entry for it. -/
theorem exists_names_iff {isTask : Bool} {logs : List ActivityLog}
    (hlogs : logs.map (fun log ↦ (log.entityId, log.changes)) =
      (diffWorkItem item input isTask).map fun entry ↦ (item.id, some entry.change))
    {field : ClientField} :
    (∃ log ∈ logs, log.Names item.id field) ↔
      ∃ entry ∈ diffWorkItem item input isTask, field = .tracked entry.change.field := by
  constructor
  · rintro ⟨log, hlog, _, change, hchange, rfl⟩
    have hmem : (log.entityId, log.changes) ∈
        logs.map fun log ↦ (log.entityId, log.changes) := List.mem_map_of_mem hlog
    rw [hlogs] at hmem
    obtain ⟨diffEntry, hentry, heq⟩ := List.mem_map.mp hmem
    obtain rfl : diffEntry.change = change := by
      simpa [hchange] using (Prod.mk.inj heq).2
    exact ⟨diffEntry, hentry, rfl⟩
  · rintro ⟨diffEntry, hentry, rfl⟩
    have hmem : (item.id, some diffEntry.change) ∈
        (diffWorkItem item input isTask).map fun entry ↦ (item.id, some entry.change) :=
      List.mem_map_of_mem hentry
    rw [← hlogs] at hmem
    obtain ⟨log, hlog, heq⟩ := List.mem_map.mp hmem
    obtain ⟨hid, hchange⟩ := Prod.mk.inj heq
    exact ⟨log, hlog, hid, diffEntry.change, hchange, rfl⟩

/-- Assumes: a change set that gives a field another value. The entries of the update name the field
exactly when the diff sees the change. -/
theorem exists_names_iff_seen {isTask : Bool} {logs : List ActivityLog}
    (hlogs : logs.map (fun log ↦ (log.entityId, log.changes)) =
      (diffWorkItem item input isTask).map fun entry ↦ (item.id, some entry.change))
    {field : ClientField} {next : Value} (hnext : next ∈ input.requested field)
    (hdiffers : next ≠ item.stored field) :
    (∃ log ∈ logs, log.Names item.id field) ↔ Seen field (item.stored field) next := by
  rw [exists_names_iff hlogs]
  cases field with
  | tracked field =>
    have hentry : (∃ entry ∈ diffWorkItem item input isTask,
        ClientField.tracked field = .tracked entry.change.field) ↔
        ∃ next ∈ input.get field, changed (item.get field) next = true := by
      rw [← exists_entry_iff isTask]
      simp only [ClientField.tracked.injEq, eq_comm]
    rw [hentry]
    obtain ⟨sent, hget, rfl⟩ := Option.map_eq_some_iff.mp hnext
    have hchanged := changed_iff_of_stored_ne hdiffers
    simpa only [hget, Option.mem_some_iff, exists_eq_left'] using hchanged
  | _ => simp [Seen]

/-! ### A committed update -/

/-- A store records every difference from itself, for there is none. -/
theorem recordsBetween_refl (hids : (db.workItems.map WorkItem.id).Nodup) : RecordsBetween db db := by
  intro before hbefore row hrow hid field hdiffers
  rw [List.inj_on_of_nodup_map hids hrow hbefore hid] at hdiffers
  exact absurd rfl hdiffers

/-- The row of an item after an update of it. -/
theorem set_mem_updateWorkItemRows (hitem : item ∈ db.workItems) (input : UpdateWorkItemInput) :
    input.set item ∈ updateWorkItemRows item.id input db.workItems :=
  set_mem_updateWhere hitem (decide_eq_true rfl)

/-- Assumes: item identifiers are distinct, and an update of an item has committed. Its entries name
every field it has changed exactly when the diff sees every change. -/
theorem recordsBetween_iff (hids : (db.workItems.map WorkItem.id).Nodup)
    (hitem : item ∈ db.workItems) {actorId : Uuid} {updated : Option WorkItem}
    (hcommit : commitUpdate actorId item input db = .ok (updated, after)) :
    RecordsBetween db after ↔ SeesAll item input := by
  obtain ⟨logs, nextUuid, rfl, hlogs⟩ := commitUpdate_ok hcommit
  simp only [RecordsBetween, List.drop_left]
  constructor
  · intro hrecords field next hnext hdiffers
    have hrow := set_mem_updateWorkItemRows hitem { input with updatedBy := some actorId }
    have hset := stored_set input (some actorId) item field
    rw [Option.mem_def.mp hnext, Option.getD_some] at hset
    exact (exists_names_iff_seen hlogs hnext hdiffers).mp
      (hrecords item hitem _ hrow rfl field (hset ▸ hdiffers))
  · intro hsees before hbefore row hrow hid field hdiffers
    obtain ⟨old, hold, holdId, hset⟩ := exists_of_mem_updateWorkItemRows hrow
    obtain rfl := List.inj_on_of_nodup_map hids hold hbefore (holdId.trans hid)
    by_cases hrowId : row.id = item.id
    · obtain rfl := List.inj_on_of_nodup_map hids hold hitem (hid.symm.trans hrowId)
      rw [if_pos hrowId] at hset
      rw [hset, stored_set] at hdiffers
      cases hnext : input.requested field with
      | none => simp [hnext] at hdiffers
      | some next =>
        rw [hnext, Option.getD_some] at hdiffers
        exact (exists_names_iff_seen hlogs hnext hdiffers).mpr (hsees field next hnext hdiffers)
    · rw [if_neg hrowId] at hset
      exact absurd (congrArg (WorkItem.stored · field) hset) hdiffers

/-- The identifiers of the new entries are drawn in order. -/
theorem lt_of_mem_activityInputs {firstId : Uuid} {entityType : ActivityEntityType} {actorId : Uuid}
    {entries : List ActivityDiffEntry} {log : ActivityLog}
    (hlog : log ∈ activityInputs firstId item entityType actorId entries) :
    firstId ≤ log.id ∧ log.id < firstId + entries.length := by
  obtain ⟨⟨diffEntry, index⟩, hentry, rfl⟩ := List.mem_map.mp hlog
  have hindex : index < entries.length := by simpa using List.snd_lt_of_mem_zipIdx hentry
  exact ⟨Nat.le_add_right _ _, Nat.add_lt_add_left hindex _⟩

/-- An update keeps the identifiers of the entries fresh. -/
theorem FreshEntries.update (hfresh : FreshEntries db) {actorId : Uuid} {updated : Option WorkItem}
    (hcommit : commitUpdate actorId item input db = .ok (updated, after)) : FreshEntries after := by
  unfold commitUpdate at hcommit
  dsimp only at hcommit
  split at hcommit
  next =>
    split_ifs at hcommit
    obtain ⟨rfl, rfl⟩ := Prod.mk.inj (Except.ok.inj hcommit)
    exact hfresh
  next row hrow =>
    obtain ⟨withActivity, hactivity, hcommit⟩ := bind_eq_ok.mp hcommit
    obtain rfl := appendMany_ok hactivity
    obtain ⟨rfl, rfl⟩ := Prod.mk.inj (Except.ok.inj hcommit)
    intro log hlog
    rcases List.mem_append.mp hlog with hold | hnew
    · exact Nat.lt_add_right _ (hfresh log hold)
    · exact (lt_of_mem_activityInputs hnew).2

/-- Assumes: the identifiers of the entries were drawn before. An update of an item in the table
commits. -/
theorem FreshEntries.commits (hfresh : FreshEntries db) (hitem : item ∈ db.workItems) (actorId : Uuid)
    (input : UpdateWorkItemInput) :
    ∃ updated after, commitUpdate actorId item input db = .ok (updated, after) := by
  unfold commitUpdate
  dsimp only
  split
  next hnone =>
    have hrow := set_mem_updateWorkItemRows hitem { input with updatedBy := some actorId }
    have hother := List.find?_eq_none.mp hnone _ hrow
    exact absurd (decide_eq_true rfl) hother
  next row hrow =>
    refine ⟨_, _, bind_eq_ok.mpr ⟨_, if_neg ?_, rfl⟩⟩
    simp only [List.any_eq_true, decide_eq_true_eq, not_exists, not_and]
    intro log hlog old hold hsame
    exact absurd (hfresh old hold) (Nat.not_lt.mpr (hsame ▸ (lt_of_mem_activityInputs hlog).1))

/-! ### A call in isolation -/

/-- Assumes: item identifiers are distinct. `getWorkItem` returns a live item of the tenant. -/
theorem getWorkItem_returns (hids : (db.workItems.map WorkItem.id).Nodup)
    (hitem : item ∈ db.workItems) (hlive : item.deletedAt = none) :
    ((getWorkItem item.tenantId item.id).run db).1 = .ok item := by
  have hfind : db.workItems.find? (fun row ↦ row.id = item.id ∧ row.deletedAt = none) = some item :=
    find_of_match hids hitem (decide_eq_true ⟨rfl, hlive⟩) fun _ _ hfound ↦ (of_decide_eq_true hfound).1
  exact getWorkItem_ok_iff.mpr ⟨hfind, rfl⟩

/-- Run alone, `updateWorkItem` leaves the store as it was, or it has found the item, its checks have
passed and its transaction has committed. -/
theorem updateWorkItem_run (actor : Actor) (id : Uuid) (input : UpdateWorkItemInput) :
    ((updateWorkItem actor id input).run db).2 = db ∨
      ∃ item ∈ db.workItems, item.id = id ∧ item.deletedAt = none ∧
        item.tenantId = actor.tenantId ∧
        Passes db (whenPresent input.assigneeId.join (assertAssignable actor.tenantId item)) ∧
        Passes db (whenPresent input.statusId (assertStatusReachable item)) ∧
        ∃ updated, commitUpdate actor.sub item input db =
          .ok (updated, ((updateWorkItem actor id input).run db).2) := by
  unfold updateWorkItem
  rcases run_bind_of_reads (getWorkItem_reads actor.tenantId id) _ db with ⟨_, hrun⟩ | ⟨item, hitem, hrun⟩
  · exact .inl (congrArg Prod.snd hrun)
  rcases run_bind_of_reads
      (whenPresent_reads input.assigneeId.join (assertAssignable_reads actor.tenantId item)) _ db with
    ⟨_, hrun'⟩ | ⟨_, hassignable, hrun'⟩
  · exact .inl (congrArg Prod.snd (hrun.trans hrun'))
  rcases run_bind_of_reads
      (whenPresent_reads input.statusId (assertStatusReachable_reads item)) _ db with
    ⟨_, hrun''⟩ | ⟨_, hreachable, hrun''⟩
  · exact .inl (congrArg Prod.snd (hrun.trans (hrun'.trans hrun'')))
  rw [hrun.trans (hrun'.trans hrun''), transaction, Call.run_transaction]
  obtain ⟨hmem, hid, hlive, htenant⟩ := getWorkItem_run hitem
  cases hcommit : commitUpdate actor.sub item input db with
  | error failure => exact .inl rfl
  | ok result =>
    exact .inr ⟨item, hmem, hid, hlive, htenant, hassignable, hreachable, result.1, hcommit⟩

/-- Assumes: item identifiers are distinct, and a live item of the tenant whose checks pass.
`updateWorkItem`, run alone, runs its transaction on the item. -/
theorem updateWorkItem_run_accepted (hids : (db.workItems.map WorkItem.id).Nodup) {actor : Actor}
    (hitem : item ∈ db.workItems) (hlive : item.deletedAt = none)
    (htenant : item.tenantId = actor.tenantId)
    (hassignable : Passes db (whenPresent input.assigneeId.join (assertAssignable actor.tenantId item)))
    (hreachable : Passes db (whenPresent input.statusId (assertStatusReachable item)))
    {updated : Option WorkItem}
    (hcommit : commitUpdate actor.sub item input db = .ok (updated, after)) :
    ((updateWorkItem actor item.id input).run db).2 = after := by
  unfold updateWorkItem
  rw [run_bind_of_reads_returned (getWorkItem_reads _ _)
      (htenant ▸ getWorkItem_returns hids hitem hlive),
    run_bind_of_reads_returned (whenPresent_reads _ (by simp)) hassignable,
    run_bind_of_reads_returned (whenPresent_reads _ (by simp)) hreachable,
    transaction, Call.run_transaction, hcommit]

/-! ### Sequences of updates -/

/-- Assumes: item identifiers are distinct. A call of `updateWorkItem` that changes only what the diff
sees records every change; and where an entry can be appended, it does so only then. -/
theorem recordsChanges_call (hids : (db.workItems.map WorkItem.id).Nodup) (actor : Actor) (id : Uuid)
    (input : UpdateWorkItemInput) :
    (ChangesSeen db actor id input → RecordsChanges db actor id input) ∧
      (FreshEntries db → RecordsChanges db actor id input → ChangesSeen db actor id input) := by
  constructor
  · intro hseen
    rcases (updateWorkItem_run actor id input : ((updateWorkItem actor id input).run db).2 = db ∨ _)
      with hsame | hcommitted
    · rw [RecordsChanges, hsame]
      exact recordsBetween_refl hids
    · obtain ⟨item, hitem, hid, hlive, htenant, hassignable, hreachable, _, hcommit⟩ := hcommitted
      exact (recordsBetween_iff hids hitem hcommit).mpr
        (hseen item hitem hid hlive htenant hassignable hreachable)
  · rintro hfresh hrecords item hitem rfl hlive htenant hassignable hreachable
    obtain ⟨updated, after, hcommit⟩ := hfresh.commits hitem actor.sub input
    rw [RecordsChanges,
      updateWorkItem_run_accepted hids hitem hlive htenant hassignable hreachable hcommit] at hrecords
    exact (recordsBetween_iff hids hitem hcommit).mp hrecords

/-- A sequence of updates keeps the identifiers of the entries fresh. -/
theorem FreshEntries.run (hfresh : FreshEntries db)
    (hreach : Relation.ReflTransGen (CallStep fun _ request ↦ IsUpdate request) db after) :
    FreshEntries after := by
  induction hreach with
  | refl => exact hfresh
  | tail _ hstep ih =>
    obtain ⟨request, hupdate, rfl⟩ := hstep
    cases request <;> try cases hupdate
    next actor id input =>
      rw [WorkRequest.serve, Call.run_map]
      rcases updateWorkItem_run actor id input with hsame | ⟨_, _, _, _, _, _, _, _, hcommit⟩
      · exact hsame ▸ ih
      · exact ih.update hcommit

/-- Assumes: item identifiers are distinct at the start, as their primary key has it. After any
sequence of updates, an update that changes only what the diff sees records every field it changes.
Where the identifiers of new entries have not been used before, it does so only then. -/
theorem recordsChanges_iff (hids : (db.workItems.map WorkItem.id).Nodup)
    (hreach : Relation.ReflTransGen (CallStep fun _ request ↦ IsUpdate request) db after)
    (actor : Actor) (id : Uuid) (input : UpdateWorkItemInput) :
    (ChangesSeen after actor id input → RecordsChanges after actor id input) ∧
      (FreshEntries db → RecordsChanges after actor id input →
        ChangesSeen after actor id input) := by
  have hidsAfter : (after.workItems.map WorkItem.id).Nodup := by
    clear actor id input
    induction hreach with
    | refl => exact hids
    | tail _ hstep ih =>
      obtain ⟨request, _, rfl⟩ := hstep
      exact (serve_effect request).run_keeps _ (fun _ _ _ ↦ nodup_workItems_step) ih
  have hcall := recordsChanges_call hidsAfter actor id input
  exact ⟨hcall.1, fun hfresh ↦ hcall.2 (hfresh.run hreach)⟩

/-- An update of the title, the notes and the reporter, to the reporter the item has. -/
def titleUpdate : UpdateWorkItemInput :=
  { title := "Sign in", notes := some (some "Two factors"), reporterId := some none }

/-- A witness that the condition can be met: a second update that names an untracked field, which it
does not change. -/
theorem recordsChanges_iff_witness :
    RecordsChanges (runCalls revisionDb [.updateWorkItem editor 30 { title := "Log in" }]) editor 30
      titleUpdate :=
  (recordsChanges_iff (by decide) (runCalls_reachable _ (by decide +kernel)) editor 30
    titleUpdate).1 (by decide +kernel)

/-- Without the condition an update can change the reporter of an item and leave no entry for it. -/
theorem reporterChange_unrecorded :
    ¬ ∀ db after : Db, (db.workItems.map WorkItem.id).Nodup →
      Relation.ReflTransGen (CallStep fun _ request ↦ IsUpdate request) db after →
        ∀ actor id input, RecordsChanges after actor id input := by
  intro halways
  have hrecords := halways revisionDb revisionDb (by decide) .refl editor 30
    { reporterId := some (some 5) }
  obtain ⟨_, _, _, _, _, hfield⟩ := hrecords revisionItem (by decide)
    { revisionItem with reporterId := some 5, updatedBy := some 4 } (by decide +kernel) rfl
    .reporterId (by decide)
  cases hfield

end RallyApi.Work

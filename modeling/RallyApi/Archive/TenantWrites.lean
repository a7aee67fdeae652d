import RallyApi.Archive.TenantWork

/-!
# Labels, ranks and time logs keep to their tenant

The operations on a project's settings, its labels, the ranks of its items and their time logs. A time log
is updated in a transaction that has locked its row: the log it then finds under the identifier is the one
it has read before, because no identifier is ever of a second row.
-/

set_option autoImplicit false
set_option relaxedAutoImplicit false

namespace RallyApi.Archive

open Concurrency Protocol Platform Store Work
open CrossTenant (Label WorkItemLabel TimeLog)
open TimeLogs (TimeLogStep TimeLogRequest TimeLogCall)

variable {requests : List ArchiveRequest} {request : ArchiveRequest} {number : ℕ} {world : TenantWorld}
  {label : ArchiveStep} {after : Db}

/-! ### Projects, labels and ranks -/

section Archive

variable {tenantId projectId : Uuid} (hrequest : requests[number]? = some request)

/-- After the first part of a call. -/
theorem safe_bind {α β : Type} {call : ArchiveCall α} {rest : α → ArchiveCall β}
    {pre : TenantWorld → Prop} {post : α → TenantWorld → Prop}
    (hcall : (tenancy requests).Meets number call.tracked pre post)
    (hrest : ∀ value, Safe requests number (rest value) (post value)) :
    Safe requests number (call >>= rest) pre := by
  rw [Safe, Call.tracked_bind]
  exact hcall.bind fun value _ ↦ hrest value

include hrequest

/-- A transaction that, where it commits, keeps the protocol. -/
theorem safe_transaction {α : Type} {assertion : TenantWorld → Prop} {label : α → ArchiveStep}
    {statements : Db → Except Failure (α × Db)} (hstable : (tenancy requests).Stable number assertion)
    (hcommit : ∀ world value after, TenantsInOrder requests world → assertion world →
      statements world.db = .ok (value, after) →
      (tenancy requests).Keeps number world ⟨label value, world.db, after⟩ after) :
    Safe requests number (Call.transaction .other label statements) assertion :=
  meets_traced_transaction hstable (fun _ hinv _ ↦ keeps_refl hrequest hinv _)
    fun world value after hinv hholds _ hok ↦ ⟨hcommit world value after hinv hholds hok, trivial⟩

/-- A call that leaves the store alone, and then another. -/
theorem safe_after_unchanged {α β : Type} {call : ArchiveCall α} {rest : α → ArchiveCall β}
    {fact : TenantWorld → Prop} (hcall : call.Only fun db _ after ↦ after = db)
    (hfact : (tenancy requests).Persistent fact)
    (hrest : ∀ value, Safe requests number (rest value) fact) :
    Safe requests number (call >>= rest) fact :=
  safe_bind (meets_unchanged hrequest hcall hfact) hrest

/-- One statement that adds no row. -/
theorem safe_atomically {α : Type} {fact : TenantWorld → Prop} {label : Db → ArchiveStep}
    {statement : Db → α × Db} (hfact : (tenancy requests).Persistent fact)
    (hwrites : ∀ world, TenantsInOrder requests world → fact world →
      Writes request.tenants noRow world.db (statement world.db).2 ∧
        ∀ row ∈ (statement world.db).2.workItemLabels,
          row ∈ world.db.workItemLabels ∨ Linked world row) :
    Safe requests number (Call.atomically label statement) fact := by
  have hchanges : (Call.atomically label statement : ArchiveCall α).Only fun db _ after ↦
      after = (statement db).2 := (Call.only_atomically _ _).mpr fun _ ↦ rfl
  refine Safe.of (meets_writes hrequest hchanges hfact fun world _ after hinv hholds hafter ↦ ?_)
  subst hafter
  exact hwrites world hinv hholds

omit hrequest in
theorem assertMayChangeStatus_unchanged (actor : Actor) (projectId : Uuid) (status : ProjectStatus)
    (requested : Option ProjectStatus) :
    (assertMayChangeStatus actor projectId status requested).Only fun db _ after ↦ after = db := by
  unfold assertMayChangeStatus
  split_ifs
  · simp [findMember]
  · trivial

omit hrequest in
theorem assertLead_unchanged (workspaceId : Uuid) (leadId : Option (Option Uuid)) :
    (assertLead workspaceId leadId).Only fun db _ after ↦ after = db := by
  unfold assertLead
  cases leadId.join with
  | none => trivial
  | some leadId => simp [findWorkspaceMember, ofWork]

/-- After `getProject`, nothing else being known. -/
theorem safe_project_bind {β : Type} {rest : Project → ArchiveCall β}
    (hrest : ∀ project, Safe requests number (rest project) (SeenProject tenantId projectId)) :
    Safe requests number (ofWork (getProject tenantId projectId) >>= rest) Any :=
  safe_bind (getProject_sees hrequest (fun _ ↦ rfl) tenantId projectId any_persistent)
    fun project ↦ (hrest project).strengthen fun _ _ hknown ↦ hknown.2

variable (hmine : tenantId ∈ request.tenants)

include hmine

theorem updateProject_safe {actor : Actor} (hactor : actor.tenantId = tenantId)
    (input : UpdateProjectInput) : Safe requests number (updateProject actor projectId input) Any := by
  subst hactor
  have hfact : (tenancy requests).Persistent (SeenProject actor.tenantId projectId) :=
    seenProject_persistent _ _
  refine safe_project_bind hrequest fun project ↦ ?_
  refine safe_after_unchanged hrequest (Call.only_ensure _ _) hfact fun _ ↦ ?_
  refine safe_after_unchanged hrequest (assertMayChangeStatus_unchanged _ _ _ _) hfact fun _ ↦ ?_
  refine safe_after_unchanged hrequest (assertLead_unchanged _ _) hfact fun _ ↦ ?_
  refine safe_atomically hrequest hfact fun world hinv ⟨workspaceId, hseen⟩ ↦
    ⟨writes_updateProject ?_, fun _ hrow ↦ .inl hrow⟩
  exact hinv.ofSeen (fun _ hrow ↦ List.mem_map_of_mem hrow) (fun _ ↦ rfl) hseen hmine

theorem reorderStatuses_safe (orderedIds : List Uuid) :
    Safe requests number (reorderStatuses tenantId projectId orderedIds) Any := by
  refine safe_project_bind hrequest fun _ ↦ ?_
  split_ifs
  · exact meets_pure fun _ _ _ ↦ trivial
  · refine safe_atomically hrequest (seenProject_persistent _ _) fun world hinv hproject ↦
      ⟨writes_updatePositions fun row hrow hid ↦ ?_, fun _ hrow ↦ .inl hrow⟩
    have hseen : registry.Seen world (.workflowStatus, row.id) (statusIdentity row).2 :=
      .inl (List.mem_map_of_mem hrow)
    exact tenantId_mem hmine hinv hproject rfl hseen hid

theorem reorderWorkItems_safe (faults : ℕ → Option Failure) (items : List (Uuid × String)) :
    Safe requests number (reorderWorkItems faults tenantId items) Any := by
  unfold reorderWorkItems
  split_ifs
  · exact meets_pure fun _ _ _ ↦ trivial
  · refine safe_bind (meets_reads hrequest (assertWorkItems_reads _ _) any_persistent) fun _ ↦ ?_
    refine safe_transaction hrequest any_persistent.stable fun world _ after hinv _ hok ↦ ?_
    obtain ⟨work, hreordered, hrest⟩ := bind_eq_ok.mp hok
    obtain rfl := eq_withRanks_of_reorderItems hreordered
    obtain ⟨-, rfl⟩ := Prod.mk.inj (Except.ok.inj hrest)
    exact keeps_of_noRow hrequest hinv (writes_withRanks hmine items) fun _ hrow ↦ .inl hrow

theorem createLabel_safe (name : String) (color : Option String) :
    Safe requests number (createLabel tenantId projectId name color) Any := by
  refine safe_project_bind hrequest fun _ ↦ ?_
  refine safe_bind (uuidv7_draws hrequest (seenProject_persistent _ _)) fun id ↦ ?_
  refine safe_transaction hrequest ((seenProject_persistent tenantId projectId).stable.and
    (unusedAll_stable id)) fun world label after hinv ⟨⟨workspaceId, hproject⟩, hunused⟩ hok ↦ ?_
  obtain ⟨_, _, hrest⟩ := bind_eq_ok.mp hok
  split_ifs at hrest
  obtain ⟨rfl, rfl⟩ := Prod.mk.inj (Except.ok.inj hrest)
  have hissued : id < world.db.nextId .label :=
    hinv.identities.issued_of_drawn (hunused .label (by simp)).1
  refine keeps_of_oneRow hrequest hinv (writes_createLabel hmine) hissued (.inr (hunused .label (by simp)))
    ?_ rfl
  rintro parent hparent
  obtain rfl := Option.some.inj hparent
  exact ⟨workspaceId, hproject⟩

omit hmine

/-- A search for a label. -/
theorem findLabelById_sees (labelId : Uuid) {fact : TenantWorld → Prop}
    (hfact : (tenancy requests).Persistent fact) :
    (tenancy requests).Meets number (findLabelById labelId).tracked fact
      fun found world ↦ fact world ∧ ∀ label, found = some label →
        FoundRow .label labelId (labelIdentity label) world :=
  meets_find hrequest (fun _ ↦ rfl) (fun _ hid ↦ of_decide_eq_true hid) hfact

/-- `getLabel` finds a label of the tenant. -/
theorem getLabel_sees (labelId : Uuid) :
    (tenancy requests).Meets number (getLabel tenantId projectId labelId).tracked
      (SeenProject tenantId projectId) fun _ ↦ SeenRow .label labelId tenantId := by
  rw [getLabel, Call.tracked_bind]
  refine (findLabelById_sees hrequest labelId (seenProject_persistent _ _)).bind fun found _ ↦ ?_
  rw [Call.tracked_require]
  refine meets_require.conseq (fun _ _ hholds ↦ hholds) fun label world _ ⟨⟨_, hfound⟩, hfilter⟩ ↦ ?_
  obtain ⟨hsome, hchecked⟩ := Option.filter_eq_some_iff.mp hfilter
  obtain ⟨_, rfl⟩ := of_decide_eq_true hchecked
  exact ⟨label.projectId, (hfound label hsome).2⟩

include hmine

theorem updateLabel_safe (labelId : Uuid) (input : UpdateLabelInput) :
    Safe requests number (updateLabel tenantId projectId labelId input) Any := by
  refine safe_project_bind hrequest fun _ ↦ ?_
  refine safe_bind (getLabel_sees hrequest labelId) fun _ ↦ ?_
  refine safe_transaction hrequest (seenRow_persistent _ _ _).stable
    fun world updated after hinv ⟨_, hseen⟩ hok ↦ ?_
  dsimp only at hok
  split_ifs at hok
  obtain ⟨-, rfl⟩ := Prod.mk.inj (Except.ok.inj hok)
  refine keeps_of_noRow hrequest hinv (writes_updateLabel ?_) fun _ hrow ↦ .inl hrow
  exact hinv.ofSeen (fun _ hrow ↦ List.mem_map_of_mem hrow) (fun _ ↦ rfl) hseen hmine

theorem deleteLabel_safe (labelId : Uuid) :
    Safe requests number (deleteLabel tenantId projectId labelId) Any := by
  refine safe_project_bind hrequest fun _ ↦ ?_
  refine safe_bind (getLabel_sees hrequest labelId) fun _ ↦ ?_
  refine safe_atomically hrequest (seenRow_persistent _ _ _) fun world hinv ⟨_, hseen⟩ ↦
    ⟨writes_deleteLabel ?_, fun _ hrow ↦ .inl hrow⟩
  exact hinv.ofSeen (fun _ hrow ↦ List.mem_map_of_mem hrow) (fun _ ↦ rfl) hseen hmine

/-- The item has been found in the tenant, and the label in its project. -/
def SeenBoth (tenantId itemId labelId : Uuid) (world : TenantWorld) : Prop :=
  ∃ projectId labelTenantId, registry.Seen world (.workItem, itemId) ⟨tenantId, projectId⟩ ∧
    registry.Seen world (.label, labelId) ⟨labelTenantId, projectId⟩

omit hrequest hmine in
theorem seenBoth_persistent (tenantId itemId labelId : Uuid) :
    (tenancy requests).Persistent (SeenBoth tenantId itemId labelId) := by
  rintro number world step after hinv ⟨projectId, labelTenantId, hitem, hlabel⟩ hmay
  exact ⟨projectId, labelTenantId, seen_persistent _ _ number world step after hinv hitem hmay,
    seen_persistent _ _ number world step after hinv hlabel hmay⟩

theorem addLabelToWorkItem_safe (itemId labelId : Uuid) :
    Safe requests number (addLabelToWorkItem tenantId itemId labelId) Any := by
  refine safe_bind (getWorkItem_sees hrequest (fun _ ↦ rfl) tenantId itemId any_persistent) fun item ↦ ?_
  have hcheck : (tenancy requests).Meets number (assertLabelBelongsToProject item.projectId labelId).tracked
      (fun world ↦ registry.Seen world (.workItem, itemId) ⟨tenantId, item.projectId⟩)
      fun _ ↦ SeenBoth tenantId itemId labelId := by
    rw [assertLabelBelongsToProject, Call.tracked_bind]
    refine (findLabelById_sees hrequest labelId (seen_persistent _ _)).bind fun found _ ↦ ?_
    rw [Call.tracked_ensure]
    refine meets_ensure.conseq (fun _ _ hholds ↦ hholds) fun _ world _ ⟨⟨hitem, hfound⟩, hany⟩ ↦ ?_
    obtain ⟨label, hsome, hchecked⟩ := (Option.any_eq_true _ _).mp hany
    have hlabel := (hfound label hsome).2
    rw [labelIdentity, of_decide_eq_true hchecked] at hlabel
    exact ⟨item.projectId, label.tenantId, hitem, hlabel⟩
  refine safe_bind (hcheck.strengthen fun world _ hknown ↦ ?_) fun _ ↦ ?_
  · obtain ⟨_, rfl, _, hseen⟩ := hknown
    exact hseen
  · refine safe_atomically hrequest (seenBoth_persistent _ _ _) fun world hinv hknown ↦ ?_
    obtain ⟨projectId, labelTenantId, hitem, hlabel⟩ := hknown
    have hitems : Mine request.tenants WorkItem.tenantId itemIdentity itemId world.db.work.workItems :=
      hinv.ofSeen (fun _ hrow ↦ List.mem_map_of_mem hrow) (fun _ ↦ rfl) hitem hmine
    refine ⟨writes_addLabel hitems _, fun row hrow ↦ ?_⟩
    change row ∈ (world.db.addLabel itemId labelId).workItemLabels at hrow
    unfold Db.addLabel at hrow
    split_ifs at hrow
    · exact .inl hrow
    · refine (List.mem_append.mp hrow).imp_right fun hnew ↦ ?_
      rw [List.mem_singleton.mp hnew]
      exact ⟨_, _, hitem, hlabel, rfl⟩

theorem removeLabelFromWorkItem_safe (itemId labelId : Uuid) :
    Safe requests number (removeLabelFromWorkItem tenantId itemId labelId) Any := by
  refine safe_bind (getWorkItem_sees hrequest (fun _ ↦ rfl) tenantId itemId any_persistent) fun item ↦ ?_
  have hremove : Safe requests number (removeLabel itemId labelId) (SeenRow .workItem itemId tenantId) := by
    refine safe_atomically hrequest (seenRow_persistent _ _ _) fun world hinv ⟨_, hseen⟩ ↦
      ⟨?_, fun row hrow ↦ .inl (mem_deleteWhere.mp hrow).1⟩
    exact writes_removeLabel
      (hinv.ofSeen (fun _ hrow ↦ List.mem_map_of_mem hrow) (fun _ ↦ rfl) hseen hmine) labelId
  refine hremove.strengthen fun world _ hknown ↦ ?_
  obtain ⟨_, rfl, _, hseen⟩ := hknown
  exact ⟨item.projectId, hseen⟩

theorem updateSprint_safe (sprintId : Uuid) (input : SprintColumns) :
    Safe requests number (updateSprint tenantId sprintId input) Any := by
  refine safe_bind (getSprint_sees hrequest (fun _ ↦ rfl) tenantId sprintId any_persistent) fun sprint ↦ ?_
  have hupdate : Safe requests number (Call.atomically (fun _ ↦ ArchiveStep.updateSprint sprintId)
      fun db : Db ↦ ((db.updateSprint sprintId input).work.sprints.find? fun sprint ↦ sprint.id = sprintId,
        db.updateSprint sprintId input)) (SeenRow .sprint sprintId tenantId) := by
    refine safe_atomically hrequest (seenRow_persistent _ _ _) fun world hinv ⟨_, hseen⟩ ↦
      ⟨writes_updateSprints (fun _ ↦ ⟨rfl, rfl⟩) ?_, fun _ hrow ↦ .inl hrow⟩
    exact hinv.ofSeen (fun _ hrow ↦ List.mem_map_of_mem hrow) (fun _ ↦ rfl) hseen hmine
  refine hupdate.strengthen fun world _ hknown ↦ ?_
  obtain ⟨_, rfl, _, hseen⟩ := hknown
  exact ⟨sprint.projectId, hseen⟩

end Archive

/-! ### Time logs -/

section TimeLogs

variable {α : Type} {tenantId : Uuid} {fact : TenantWorld → Prop}

/-- A call of the time logs. -/
def ofLogs (call : TimeLogCall α) : ArchiveCall α := call.within timeLogPart ArchiveStep.timeLog

theorem ofLogs_bind {β : Type} (call : TimeLogCall α) (rest : α → TimeLogCall β) :
    ofLogs (call >>= rest) = ofLogs call >>= fun value ↦ ofLogs (rest value) :=
  Call.within_bind _

theorem ofLogs_atomically (label : TimeLogs.Db → TimeLogStep) (statement : TimeLogs.Db → α × TimeLogs.Db) :
    ofLogs (Call.atomically label statement) = Call.atomically (fun db ↦ .timeLog (label db.toDb)) fun db ↦
      ((statement db.toDb).1, { db with toDb := (statement db.toDb).2 }) := rfl

/-- A read of the work services, by the time logs. -/
theorem ofLogs_ofWork (call : WorkCall α) : ofLogs (TimeLogs.ofWork call) =
    call.within (timeLogPart.comp TimeLogs.workPart) fun _ ↦ ArchiveStep.timeLog .other :=
  Call.within_within call

/-- A step that only locks and unlocks rows. -/
def Locks (db : TimeLogs.Db) (_ : TimeLogStep) (after : TimeLogs.Db) : Prop :=
  ∃ lockedLogs lockedItems, after = { db with lockedLogs, lockedItems }

/-- What is known of a write before it commits: its item and the row that it updates have been found in the
tenant, and the identifier of a row that it inserts is unused. -/
def LogKnown (tenantId : Uuid) (number : ℕ) (write : TimeLogs.LogWrite) (world : TenantWorld) : Prop :=
  SeenRow .workItem write.workItemId tenantId world ∧ match write with
    | .insert log => log.tenantId = tenantId ∧ registry.Unused number world (.timeLog, log.id)
    | .update id _ _ => SeenRow .timeLog id tenantId world

theorem logKnown_kept (tenantId : Uuid) (write : TimeLogs.LogWrite) :
    Kept requests number (LogKnown tenantId number write) := by
  refine (kept_of_persistent (seenRow_persistent _ _ _)).and ?_
  cases write with
  | insert log => exact (kept_of_persistent (persistent_const _)).and (unused_kept _)
  | update id workItemId columns => exact kept_of_persistent (seenRow_persistent _ _ _)

variable (hrequest : requests[number]? = some request)

include hrequest

theorem ofLogs_locks {call : TimeLogCall α} (hcall : call.Only Locks) (hfact : Kept requests number fact) :
    (tenancy requests).Meets number (ofLogs call).tracked fact fun _ ↦ fact := by
  have hlocks : (ofLogs call).Only fun db _ after ↦
      ∃ lockedLogs lockedItems, after = { db with toDb := { db.toDb with lockedLogs, lockedItems } } :=
    hcall.within fun db _ _ ⟨lockedLogs, lockedItems, hafter⟩ ↦
      ⟨lockedLogs, lockedItems, congrArg (fun inner ↦ timeLogPart.put inner db) hafter⟩
  refine meets_writes_kept hrequest hlocks hfact fun world _ after _ _ ⟨_, _, hafter⟩ ↦ ?_
  subst hafter
  exact ⟨{ writes_refl _ noRow world.db with }, fun _ hrow ↦ .inl hrow⟩

/-- The commit of a write. -/
theorem keeps_logs {write : TimeLogs.LogWrite} (hinv : TenantsInOrder requests world)
    (hmine : tenantId ∈ request.tenants) (hknown : LogKnown tenantId number write world)
    (hwrites : MineLog request.tenants world.db.timeLogs write →
      Writes request.tenants (logRows write) world.db after)
    (hlinks : after.workItemLabels = world.db.workItemLabels) :
    (tenancy requests).Keeps number world ⟨label, world.db, after⟩ after := by
  obtain ⟨⟨projectId, hitem⟩, hwrite⟩ := hknown
  cases write with
  | insert log =>
    obtain ⟨rfl, hunused⟩ := hwrite
    have hwritten := hwrites hmine
    have hissued : log.id < world.db.nextId .timeLog := hinv.identities.issued_of_drawn hunused.1
    refine keeps_of_oneRow hrequest hinv hwritten (hissued.trans_le (hwritten.nextId_le .timeLog))
      (.inr hunused) ?_ hlinks
    rintro parent hparent
    obtain rfl := Option.some.inj hparent
    exact ⟨projectId, hitem⟩
  | update id workItemId columns =>
    obtain ⟨_, hseen⟩ := hwrite
    refine keeps_of_noRow hrequest hinv (hwrites ?_) fun _ hrow ↦ .inl (hlinks ▸ hrow)
    exact hinv.ofSeen (fun _ hrow ↦ List.mem_map_of_mem hrow) (fun _ ↦ rfl) hseen hmine

variable {write : TimeLogs.LogWrite} (hmine : tenantId ∈ request.tenants)

include hmine

theorem commit_safe (total : ℕ) :
    Safe requests number (ofLogs (TimeLogs.commit write total)) (LogKnown tenantId number write) := by
  rw [Safe, TimeLogs.commit, ofLogs_atomically, Call.tracked]
  refine meets_traced_atomically (logKnown_kept tenantId write).1 fun world hinv hknown ↦ ⟨?_, trivial⟩
  refine keeps_logs hrequest hinv hmine hknown (fun hlog ↦ writes_logs hlog ?_) rfl
  refine writtenBy_updateWhere (fun _ ↦ rfl) (fun _ ↦ rfl) fun row hrow hid ↦ ?_
  obtain ⟨⟨projectId, hitem⟩, _⟩ := hknown
  exact hinv.ofSeen (fun _ hrow ↦ List.mem_map_of_mem hrow) (fun _ ↦ rfl) hitem hmine row hrow
    (of_decide_eq_true hid)

theorem amend_safe :
    Safe requests number (ofLogs (TimeLogs.amend write)) (LogKnown tenantId number write) := by
  rw [Safe, TimeLogs.amend, ofLogs_atomically, Call.tracked]
  refine meets_traced_atomically (logKnown_kept tenantId write).1 fun world hinv hknown ↦ ⟨?_, trivial⟩
  exact keeps_logs hrequest hinv hmine hknown (fun hlog ↦ writes_logs hlog writtenBy_refl) rfl

omit hmine in
/-- After a part of a transaction that only locks rows. -/
theorem safe_locks_bind {β : Type} {call : TimeLogCall α} {rest : α → TimeLogCall β}
    (hcall : call.Only Locks) (hfact : Kept requests number fact)
    (hrest : ∀ value, Safe requests number (ofLogs (rest value)) fact) :
    Safe requests number (ofLogs (call >>= rest)) fact := by
  rw [ofLogs_bind]
  exact safe_bind (ofLogs_locks hrequest hcall hfact) hrest

omit hmine in
/-- A transaction that is rolled back. -/
theorem rolledBack_safe {call : TimeLogCall Unit} (hcall : call.Only Locks) (failure : Failure)
    (hfact : Kept requests number fact) :
    Safe requests number (ofLogs (call >>= fun _ ↦ (throw failure : TimeLogCall Unit))) fact :=
  safe_locks_bind hrequest hcall hfact fun _ ↦ trivial

theorem syncActualHours_safe (commits : Bool) :
    Safe requests number (ofLogs (TimeLogs.syncActualHours commits write))
      (LogKnown tenantId number write) := by
  have hknown : Kept requests number (LogKnown tenantId number write) := logKnown_kept tenantId write
  refine safe_locks_bind hrequest ((Call.only_query _ _).mpr fun db ↦ ⟨_, _, rfl⟩) hknown fun total ↦ ?_
  split_ifs
  · exact rolledBack_safe hrequest ((Call.only_atomically _ _).mpr fun db ↦ ⟨_, _, rfl⟩) _ hknown
  · refine safe_locks_bind hrequest ((Call.only_atomically _ _).mpr fun db ↦ ⟨_, _, rfl⟩) hknown
      fun _ ↦ commit_safe hrequest hmine total
  · refine safe_locks_bind hrequest ((Call.only_atomically _ _).mpr fun db ↦ ⟨_, _, rfl⟩) hknown
      fun _ ↦ rolledBack_safe hrequest ((Call.only_atomically _ _).mpr fun db ↦ ⟨_, _, rfl⟩) _ hknown

theorem updateLocked_safe (commits : Bool) (columns : TimeLogs.LogColumns) (log : TimeLog) :
    Safe requests number (ofLogs (TimeLogs.updateLocked commits columns log))
      (LogKnown tenantId number (.update log.id log.workItemId columns)) := by
  have hrollback : (TimeLogs.rollback (.update log.id log.workItemId columns)).Only Locks :=
    (Call.only_atomically _ _).mpr fun db ↦ ⟨_, _, rfl⟩
  unfold TimeLogs.updateLocked
  dsimp only
  split_ifs
  · exact syncActualHours_safe hrequest hmine commits
  · exact amend_safe hrequest hmine
  · exact rolledBack_safe hrequest hrollback _ (logKnown_kept tenantId _)
  · exact rolledBack_safe hrequest hrollback _ (logKnown_kept tenantId _)

omit hmine

/-- `newLog` draws the identifier of the log. -/
theorem newLog_draws (actor : Actor) (workItemId : Uuid) (input : TimeLogs.LogTimeInput) :
    (tenancy requests).Meets number (ofLogs (TimeLogs.newLog actor workItemId input)).tracked
      (SeenRow .workItem workItemId actor.tenantId)
      fun log ↦ LogKnown actor.tenantId number (.insert log) := by
  rw [TimeLogs.newLog, ofLogs_atomically, Call.tracked]
  refine meets_traced_atomically (seenRow_persistent _ _ _).stable fun world hinv hitem ↦ ?_
  have hwrites : Writes request.tenants noRow world.db
      { world.db with toDb := { world.db.toDb with nextUuid := world.db.nextUuid + 1 } } :=
    { writes_refl request.tenants noRow world.db with nextLogUuid := Nat.le_succ _ }
  have hkeeps : (tenancy requests).Keeps number world ⟨.timeLog .other, world.db, _⟩ _ :=
    keeps_of_noRow hrequest hinv hwrites fun _ hrow ↦ .inl hrow
  have hregisters : registry.Registers number world
      { world.db with toDb := { world.db.toDb with nextUuid := world.db.nextUuid + 1 } }
      (addedRows noRow) :=
    hwrites.registers (fun _ _ _ _ hnone ↦ hnone.elim) fun _ _ _ hnone ↦ hnone.elim
  refine ⟨hkeeps, seenRow_persistent _ _ _ _ _ _ _ hinv hitem hkeeps.guarantee, rfl, ?_⟩
  exact hinv.identities.unused hregisters (fun _ hnone ↦ hnone.elim) (lt_irrefl _) (Nat.lt_succ_self _) _

/-- A log is read, of the item and of the tenant. -/
theorem findLog_sees (actor : Actor) (workItemId logId : Uuid)
    (hfact : (tenancy requests).Persistent fact) :
    (tenancy requests).Meets number (ofLogs (TimeLogs.findLog actor workItemId logId)).tracked fact
      fun _ world ↦ fact world ∧ registry.Seen world (.timeLog, logId) ⟨actor.tenantId, workItemId⟩ := by
  have hfind : (tenancy requests).Meets number
      (ofLogs (TimeLogs.findById logId actor.tenantId)).tracked fact fun found world ↦
        fact world ∧ ∀ log, found = some log →
        log.tenantId = actor.tenantId ∧ FoundRow .timeLog logId (timeLogIdentity log) world := by
    refine meets_traced_query hfact.stable fun world hinv hholds ↦ ?_
    have hkeeps := keeps_refl hrequest hinv (.timeLog .other)
    refine ⟨hkeeps, hfact _ _ _ _ hinv hholds hkeeps.guarantee, fun log hfound ↦ ?_⟩
    change world.db.timeLogs.find? _ = some log at hfound
    have hchecked := List.find?_some hfound
    obtain ⟨rfl, htenant, _⟩ := of_decide_eq_true hchecked
    exact ⟨htenant, rfl, .inl (List.mem_map.mpr ⟨log, List.mem_of_find?_eq_some hfound, rfl⟩)⟩
  rw [TimeLogs.findLog, ofLogs_bind, Call.tracked_bind]
  refine hfind.bind fun found _ ↦ ?_
  rw [ofLogs, Call.within_require, Call.tracked_require]
  refine meets_require.conseq (fun _ _ hholds ↦ hholds) fun log world _ ⟨⟨hholds, hfound⟩, hfilter⟩ ↦ ?_
  obtain ⟨hsome, hchecked⟩ := Option.filter_eq_some_iff.mp hfilter
  obtain ⟨htenant, _, hseen⟩ := hfound log hsome
  rw [timeLogIdentity, htenant, of_decide_eq_true hchecked] at hseen
  exact ⟨hholds, hseen⟩

/-- What is known when a log is updated: its item and the log have been found in the tenant. -/
def SeenLog (tenantId workItemId logId : Uuid) (world : TenantWorld) : Prop :=
  SeenRow .workItem workItemId tenantId world ∧ registry.Seen world (.timeLog, logId) ⟨tenantId, workItemId⟩

omit hrequest in
theorem seenLog_persistent (tenantId workItemId logId : Uuid) :
    (tenancy requests).Persistent (SeenLog tenantId workItemId logId) :=
  (seenRow_persistent _ _ _).and (seen_persistent _ _)

/-- The row that is locked is the log that has been found before. -/
theorem lockLog_sees (workItemId logId : Uuid) :
    (tenancy requests).Meets number (ofLogs (TimeLogs.lockLog logId)).tracked
      (SeenLog tenantId workItemId logId) fun found world ↦ SeenLog tenantId workItemId logId world ∧
        ∀ log, found = some log → log.id = logId ∧ log.workItemId = workItemId := by
  rw [TimeLogs.lockLog, ofLogs_atomically, Call.tracked]
  refine meets_traced_atomically (seenLog_persistent _ _ _).stable fun world hinv hknown ↦ ?_
  have hkeeps : (tenancy requests).Keeps number world ⟨.timeLog (.lockLog logId), world.db, _⟩
      { world.db with toDb := { world.db.toDb with lockedLogs := logId :: world.db.lockedLogs } } :=
    keeps_of_noRow hrequest hinv { writes_refl _ noRow world.db with } fun _ hrow ↦ .inl hrow
  refine ⟨hkeeps, seenLog_persistent _ _ _ _ _ _ _ hinv hknown hkeeps.guarantee, fun log hfound ↦ ?_⟩
  change world.db.timeLogs.find? _ = some log at hfound
  have hlog : registry.Seen world (.timeLog, log.id) ⟨log.tenantId, log.workItemId⟩ :=
    .inl (List.mem_map.mpr ⟨log, List.mem_of_find?_eq_some hfound, rfl⟩)
  have hchecked := List.find?_some hfound
  obtain rfl : log.id = logId := of_decide_eq_true hchecked
  exact ⟨rfl, congrArg Identity.parentId (hinv.identities.unique _ _ _ hlog hknown.2)⟩

include hmine

theorem updateLog_safe (commits : Bool) (columns : TimeLogs.LogColumns) (workItemId logId : Uuid) :
    Safe requests number (ofLogs (TimeLogs.updateLog commits logId columns))
      (SeenLog tenantId workItemId logId) := by
  rw [TimeLogs.updateLog, ofLogs_bind]
  refine safe_bind (lockLog_sees hrequest workItemId logId) fun found ↦ ?_
  cases found with
  | none =>
    refine (safe_locks_bind hrequest ((Call.only_atomically _ _).mpr fun db ↦ ⟨_, _, rfl⟩)
      (kept_of_persistent (seenLog_persistent _ _ _)) fun _ ↦ ?_).strengthen
        fun _ _ hknown ↦ hknown.1
    exact meets_pure fun _ _ _ ↦ trivial
  | some log =>
    rw [ofLogs_bind]
    refine safe_bind ((updateLocked_safe hrequest hmine commits columns log).strengthen
      fun world _ hknown ↦ ?_) fun _ ↦ meets_pure fun _ _ _ ↦ trivial
    obtain ⟨⟨hitem, hlog⟩, hfound⟩ := hknown
    obtain ⟨rfl, rfl⟩ := hfound log rfl
    exact ⟨hitem, _, hlog⟩

omit hmine

/-- After `getWorkItem`, nothing else being known. -/
theorem safe_logs_bind {rest : WorkItem → TimeLogCall α} (workItemId : Uuid)
    (hrest : ∀ item, Safe requests number (ofLogs (rest item)) (SeenRow .workItem workItemId tenantId)) :
    Safe requests number (ofLogs (TimeLogs.ofWork (getWorkItem tenantId workItemId) >>= rest)) Any := by
  rw [ofLogs_bind, ofLogs_ofWork]
  refine safe_bind (getWorkItem_sees hrequest (fun _ ↦ rfl) tenantId workItemId any_persistent)
    fun item ↦ (hrest item).strengthen fun world _ hknown ↦ ?_
  obtain ⟨_, rfl, _, hseen⟩ := hknown
  exact ⟨item.projectId, hseen⟩

theorem logTime_safe {actor : Actor} (hactor : actor.tenantId ∈ request.tenants) (commits : Bool)
    (workItemId : Uuid) (input : TimeLogs.LogTimeInput) :
    Safe requests number (ofLogs (TimeLogs.logTime commits actor workItemId input)) Any := by
  refine safe_logs_bind hrequest workItemId fun _ ↦ ?_
  rw [TimeLogs.create, ofLogs_bind]
  refine safe_bind (newLog_draws hrequest actor workItemId input) fun log ↦ ?_
  refine safe_locks_bind hrequest (Call.only_ensure _ _) (logKnown_kept _ _) fun _ ↦ ?_
  rw [ofLogs_bind]
  exact safe_bind (syncActualHours_safe hrequest hactor commits) fun _ ↦ meets_pure fun _ _ _ ↦ trivial

/-- After `findLog`. -/
theorem safe_findLog_bind {actor : Actor} {rest : TimeLog → TimeLogCall α} (workItemId logId : Uuid)
    (hrest : ∀ log, Safe requests number (ofLogs (rest log)) (SeenLog actor.tenantId workItemId logId)) :
    Safe requests number (ofLogs (TimeLogs.findLog actor workItemId logId >>= rest))
      (SeenRow .workItem workItemId actor.tenantId) := by
  rw [ofLogs_bind]
  exact safe_bind (findLog_sees hrequest actor workItemId logId (seenRow_persistent _ _ _)) hrest

theorem updateTimeLog_safe {actor : Actor} (hactor : actor.tenantId ∈ request.tenants) (commits : Bool)
    (workItemId logId : Uuid) (input : TimeLogs.UpdateTimeLogInput) :
    Safe requests number (ofLogs (TimeLogs.updateTimeLog commits actor workItemId logId input)) Any := by
  refine safe_logs_bind hrequest workItemId fun _ ↦ safe_findLog_bind hrequest workItemId logId fun log ↦ ?_
  refine safe_locks_bind hrequest (Call.only_ensure _ _)
    (kept_of_persistent (seenLog_persistent _ _ _)) fun _ ↦ ?_
  exact updateLog_safe hrequest hactor commits _ workItemId logId

theorem deleteTimeLog_safe {actor : Actor} (hactor : actor.tenantId ∈ request.tenants)
    (commits isAdmin : Bool) (workItemId logId : Uuid) :
    Safe requests number (ofLogs (TimeLogs.deleteTimeLog commits actor isAdmin workItemId logId)) Any := by
  have hseen : Kept requests number (SeenLog actor.tenantId workItemId logId) :=
    kept_of_persistent (seenLog_persistent _ _ _)
  refine safe_logs_bind hrequest workItemId fun _ ↦ safe_findLog_bind hrequest workItemId logId fun log ↦ ?_
  refine safe_locks_bind hrequest (Call.only_ensure _ _) hseen fun _ ↦ ?_
  refine safe_locks_bind hrequest ((Call.only_query _ _).mpr fun db ↦ ⟨_, _, rfl⟩) hseen fun now ↦ ?_
  rw [ofLogs_bind]
  exact safe_bind (updateLog_safe hrequest hactor commits _ workItemId logId)
    fun _ ↦ meets_pure fun _ _ _ ↦ trivial

end TimeLogs

/-- The calls of the time logs keep the protocol. -/
theorem timeLog_safe {logs : TimeLogRequest} (hrequest : requests[number]? = some (.timeLog logs)) :
    Safe requests number (ofLogs logs.serve) Any := by
  have hserve : ∀ {α : Type} {call : TimeLogCall α}, Safe requests number (ofLogs call) Any →
      Safe requests number (ofLogs ((fun _ ↦ ()) <$> call)) Any := by
    intro α call hcall
    rw [Safe, ofLogs, Call.within_map, Call.tracked_map]
    exact hcall.map
  have hmine : ∀ tenantId, timeLogTenants logs = [tenantId] →
      tenantId ∈ (ArchiveRequest.timeLog logs).tenants := fun tenantId hsame ↦ by
    rw [ArchiveRequest.tenants, hsame]
    exact List.mem_singleton_self _
  cases logs with
  | logTime commits actor workItemId input =>
    exact hserve (logTime_safe hrequest (hmine _ rfl) commits workItemId input)
  | updateTimeLog commits actor workItemId logId input =>
    exact hserve (updateTimeLog_safe hrequest (hmine _ rfl) commits workItemId logId input)
  | deleteTimeLog commits actor isAdmin workItemId logId =>
    exact deleteTimeLog_safe hrequest (hmine _ rfl) commits isAdmin workItemId logId
  | tick microseconds =>
    rw [TimeLogRequest.serve, TimeLogs.tick, ofLogs_atomically]
    exact safe_atomically hrequest any_persistent fun world _ _ ↦
      ⟨{ writes_refl _ noRow world.db with }, fun _ hrow ↦ .inl hrow⟩

/-! ### The calls of requests -/

/-- The call of every request keeps the protocol. -/
theorem serve_safe (hrequest : requests[number]? = some request) :
    Safe requests number request.serve Any := by
  have hserve : ∀ {α : Type} {call : ArchiveCall α}, Safe requests number call Any →
      Safe requests number ((fun _ ↦ ()) <$> call) Any := by
    intro α call hcall
    rw [Safe, Call.tracked_map]
    exact hcall.map
  have hmine : ∀ {tenantId : Uuid}, request.tenants = [tenantId] → tenantId ∈ request.tenants :=
    fun hsame ↦ hsame ▸ List.mem_singleton_self _
  cases request with
  | work work => exact work_safe hrequest
  | timeLog logs => exact timeLog_safe hrequest
  | updateProject actor projectId input =>
    exact hserve (updateProject_safe hrequest (hmine rfl) rfl _)
  | reorderStatuses tenantId projectId orderedIds => exact reorderStatuses_safe hrequest (hmine rfl) _
  | reorderWorkItems faults tenantId items => exact reorderWorkItems_safe hrequest (hmine rfl) _ _
  | createLabel tenantId projectId name color => exact hserve (createLabel_safe hrequest (hmine rfl) _ _)
  | updateLabel tenantId projectId labelId input =>
    exact hserve (updateLabel_safe hrequest (hmine rfl) _ _)
  | deleteLabel tenantId projectId labelId => exact deleteLabel_safe hrequest (hmine rfl) _
  | addLabelToWorkItem tenantId id labelId => exact addLabelToWorkItem_safe hrequest (hmine rfl) _ _
  | removeLabelFromWorkItem tenantId id labelId =>
    exact removeLabelFromWorkItem_safe hrequest (hmine rfl) _ _
  | updateSprint tenantId id input => exact hserve (updateSprint_safe hrequest (hmine rfl) _ _)
  | changeMemberships change =>
    exact safe_atomically hrequest any_persistent fun world _ _ ↦
      ⟨{ writes_refl _ noRow world.db with }, fun _ hrow ↦ .inl hrow⟩

end RallyApi.Archive

import RallyApi.Archive.TenantProtocol

/-!
# Projects, work items and sprints keep to their tenant

Each operation of the work services reads the row it is about and finds it in the tenant of its actor. What
it writes later it writes to rows of that tenant, or inserts under identifiers that it has drawn.
-/

set_option autoImplicit false
set_option relaxedAutoImplicit false

namespace RallyApi.Archive

open Concurrency Protocol Platform Store Work

variable {requests : List ArchiveRequest} {request : ArchiveRequest} {number : ℕ} {world : TenantWorld}
  {label : ArchiveStep} {after : Db} {kind : Kind} {id : Uuid} {identity : Identity}

/-! ### Projects and workflows -/

section Work

variable {tenantId projectId : Uuid} (hrequest : requests[number]? = some request)
  (hmine : tenantId ∈ request.tenants)

/-- After the first part of a call of the work services. -/
theorem safe_ofWork_bind {α β : Type} {call : WorkCall α} {rest : α → WorkCall β}
    {pre : TenantWorld → Prop} {post : α → TenantWorld → Prop}
    (hcall : (tenancy requests).Meets number (ofWork call).tracked pre post)
    (hrest : ∀ value, Safe requests number (ofWork (rest value)) (post value)) :
    Safe requests number (ofWork (call >>= rest)) pre := by
  rw [Safe, ofWork, Call.within_bind, Call.tracked_bind]
  exact hcall.bind fun value _ ↦ hrest value

include hmine in
/-- A child of a project that has been found in the tenant is of the tenant. -/
theorem tenantId_mem {world : TenantWorld} (hinv : TenantsInOrder requests world)
    (hproject : SeenProject tenantId projectId world) (hparent : kind.parent = some .project)
    (hseen : registry.Seen world (kind, id) identity) (hidentity : identity.parentId = projectId) :
    identity.tenantId ∈ request.tenants := by
  obtain ⟨workspaceId, hproject⟩ := hproject
  rw [hinv.child hproject hparent hseen hidentity]
  exact hmine

include hrequest

/-- A row is inserted that is part of a project that has been found in the tenant. -/
theorem insert_safe {α : Type} {label : α → WorkStep} {statements : Work.Db → Except Failure (α × Work.Db)}
    (kind : Kind) (identityOf : α → Identified) (hparent : kind.parent = some .project)
    (hcommit : ∀ db value left, statements db.work = .ok (value, left) →
      identityOf value = (id, ⟨tenantId, projectId⟩) ∧
        Writes request.tenants (oneRow kind (identityOf value)) db { db with work := left }) :
    Safe requests number (ofWork (transaction label statements)) fun world ↦
      SeenProject tenantId projectId world ∧ registry.Unused number world (kind, id) := by
  refine meets_ofWork_transaction hrequest ((seenProject_persistent _ _).stable.and (unused_stable _))
    fun world value left hinv ⟨⟨workspaceId, hproject⟩, hunused⟩ hok ↦ ?_
  obtain ⟨hidentity, hwrites⟩ := hcommit world.db value left hok
  rw [hidentity] at hwrites
  have hissued : id < world.db.nextId kind := hinv.identities.issued_of_drawn hunused.1
  refine keeps_of_oneRow hrequest hinv hwrites (hissued.trans_le (hwrites.nextId_le kind)) (.inr hunused)
    ?_ rfl
  rintro parent hsome
  obtain rfl := Option.some.inj (hparent.symm.trans hsome)
  exact ⟨workspaceId, hproject⟩

/-- After a read of the work services. -/
theorem safe_after_reads {α β : Type} {call : WorkCall α} {rest : α → WorkCall β}
    {fact : TenantWorld → Prop} (hcall : call.Only Reads) (hfact : (tenancy requests).Persistent fact)
    (hrest : ∀ value, Safe requests number (ofWork (rest value)) fact) :
    Safe requests number (ofWork (call >>= rest)) fact :=
  safe_ofWork_bind (meets_reads hrequest hcall hfact) hrest

/-- After `getProject`, nothing else being known. -/
theorem safe_after_getProject {β : Type} {rest : Project → WorkCall β}
    (hrest : ∀ project, Safe requests number (ofWork (rest project)) (SeenProject tenantId projectId)) :
    Safe requests number (ofWork (getProject tenantId projectId >>= rest)) Any :=
  safe_ofWork_bind (getProject_sees hrequest (fun _ ↦ rfl) tenantId projectId any_persistent)
    fun project ↦ (hrest project).strengthen fun _ _ hknown ↦ hknown.2

omit hrequest in
/-- The identifier drawn is unused, for rows of any kind. -/
theorem Safe.drawn {α : Type} {call : ArchiveCall α} {fact : TenantWorld → Prop}
    (hkind : kind ≠ .timeLog)
    (hcall : Safe requests number call fun world ↦ fact world ∧ registry.Unused number world (kind, id)) :
    Safe requests number call fun world ↦
      fact world ∧ ∀ kind ≠ .timeLog, registry.Unused number world (kind, id) :=
  hcall.strengthen fun _ _ hknown ↦ ⟨hknown.1, hknown.2 kind hkind⟩

include hmine

theorem createStatus_safe (input : CreateWorkflowStatusInput) :
    Safe requests number (ofWork (createStatus tenantId projectId input)) Any := by
  refine safe_after_getProject hrequest fun _ ↦ ?_
  refine safe_after_reads hrequest (by simp [listStatusesByProject]) (seenProject_persistent _ _)
    fun statuses ↦ ?_
  refine safe_ofWork_bind (uuidv7_draws hrequest (seenProject_persistent _ _)) fun id ↦ ?_
  refine Safe.drawn (by simp)
    (insert_safe hrequest .workflowStatus statusIdentity rfl fun db status left hok ↦ ?_)
  obtain ⟨_, hinsert, hrest⟩ := bind_eq_ok.mp hok
  obtain ⟨rfl, rfl⟩ := Prod.mk.inj (Except.ok.inj hrest)
  obtain rfl := insertStatus_ok hinsert
  exact ⟨rfl, writes_createStatus hmine⟩

theorem createTransition_safe (input : CreateWorkflowTransitionInput) :
    Safe requests number (ofWork (createTransition tenantId projectId input)) Any := by
  refine safe_after_getProject hrequest fun _ ↦ ?_
  refine safe_ofWork_bind (uuidv7_draws hrequest (seenProject_persistent _ _)) fun id ↦ ?_
  refine Safe.drawn (by simp) (insert_safe hrequest .workflowTransition transitionIdentity rfl
    fun db transition left hok ↦ ?_)
  obtain ⟨_, _, hrest⟩ := bind_eq_ok.mp hok
  obtain ⟨rfl, rfl⟩ := Prod.mk.inj (Except.ok.inj hrest)
  exact ⟨rfl, writes_createTransition hmine⟩

theorem deleteProject_safe : Safe requests number (ofWork (deleteProject tenantId projectId)) Any := by
  refine safe_after_getProject hrequest fun _ ↦ ?_
  refine Safe.of (meets_statement hrequest ((Call.only_atomically _ _).mpr fun _ ↦ rfl)
    (seenProject_persistent tenantId projectId) fun world hinv ⟨workspaceId, hseen⟩ ↦ ?_)
  exact writes_deleteProject
    (hinv.ofSeen (fun _ hrow ↦ List.mem_map_of_mem hrow) (fun _ ↦ rfl) hseen hmine)

/-- A row of a project is read by its identifier, checked to be of the project, and removed. -/
theorem removeChild_safe {Row : Type} {rows : Work.Db → List Row} {condition : Row → Bool}
    (kind : Kind) (identityOf : Row → Identified) {failure : Failure} {call : WorkCall Unit}
    {change : Work.Db → Work.Db} (hparent : kind.parent = some .project)
    (hrows : ∀ db : Db, (rows db.work).map identityOf = db.identities kind)
    (hcondition : ∀ row, condition row = true → (identityOf row).1 = id)
    (hcall : call.Only fun db _ after ↦ after = change db)
    (hwrites : ∀ db : Db, Mine request.tenants (fun row ↦ (identityOf row).2.tenantId) identityOf id
      (rows db.work) → Writes request.tenants noRow db (db.mapWork change)) :
    Safe requests number (ofWork (do
      let found ← Call.query .other fun db ↦ (rows db).find? condition
      let row ← Call.require found failure
      Call.ensure ((identityOf row).2.parentId = projectId) failure
      call)) (SeenProject tenantId projectId) := by
  have hproject : (tenancy requests).Persistent (SeenProject tenantId projectId) :=
    seenProject_persistent tenantId projectId
  rw [Safe, ofWork, Call.within_bind, Call.tracked_bind, Call.within_query]
  refine (meets_find hrequest hrows hcondition hproject).bind fun found _ ↦ ?_
  rw [Call.within_bind, Call.within_require, Call.tracked_bind, Call.tracked_require]
  refine meets_require.bind fun row _ ↦ ?_
  rw [Call.within_bind, Call.within_ensure, Call.tracked_bind, Call.tracked_ensure]
  refine meets_ensure.bind fun _ _ ↦ ?_
  have hremove : Safe requests number (ofWork call) fun world ↦
      (SeenProject tenantId projectId world ∧ registry.Seen world (kind, id) (identityOf row).2) ∧
        (identityOf row).2.parentId = projectId := by
    refine Safe.of (meets_statement hrequest hcall ((hproject.and (seen_persistent _ _)).and
      (persistent_const _)) fun world hinv ⟨⟨hfound, hseen⟩, hparentId⟩ ↦ hwrites _ ?_)
    exact hinv.ofSeen (fun other hother ↦ hrows world.db ▸ List.mem_map_of_mem hother) (fun _ ↦ rfl) hseen
      (tenantId_mem hmine hinv hfound hparent hseen hparentId)
  exact hremove.strengthen fun world _ hknown ↦
    ⟨⟨hknown.1.1.1, (hknown.1.1.2 row hknown.1.2).2⟩, hknown.2⟩

theorem deleteStatus_safe (statusId : Uuid) :
    Safe requests number (ofWork (deleteStatus tenantId projectId statusId)) Any := by
  refine safe_after_getProject hrequest fun _ ↦ ?_
  exact removeChild_safe hrequest hmine .workflowStatus statusIdentity rfl (fun _ ↦ rfl)
    (fun _ hid ↦ of_decide_eq_true hid) ((Call.only_atomically _ _).mpr fun _ ↦ rfl)
    fun db hrows ↦ writes_deleteStatus hrows

theorem deleteTransition_safe (transitionId : Uuid) :
    Safe requests number (ofWork (deleteTransition tenantId projectId transitionId)) Any := by
  refine safe_after_getProject hrequest fun _ ↦ ?_
  exact removeChild_safe hrequest hmine .workflowTransition transitionIdentity rfl (fun _ ↦ rfl)
    (fun _ hid ↦ of_decide_eq_true hid) ((Call.only_atomically _ _).mpr fun _ ↦ rfl)
    fun db hrows ↦ writes_deleteTransition hrows

omit hrequest hmine in
theorem unusedAll_stable (id : Uuid) : (tenancy requests).Stable number fun world ↦
    ∀ kind ≠ .timeLog, registry.Unused number world (kind, id) :=
  fun other hother world step after hinv hunused hmay kind hkind ↦
    unused_stable (kind, id) other hother world step after hinv (hunused kind hkind) hmay

/-- The commit of `createProject` keeps the protocol. -/
theorem keeps_createProject {project created : Project} {leadId : Uuid} {left : Work.Db}
    {world : TenantWorld} (hinv : TenantsInOrder requests world) (htenant : project.tenantId = tenantId)
    (hunused : ∀ kind ≠ .timeLog, registry.Unused number world (kind, project.id))
    (hcommit : commitProject project leadId world.db.work = .ok (created, left)) (label : ArchiveStep) :
    (tenancy requests).Keeps number world ⟨label, world.db, { world.db with work := left }⟩
      { world.db with work := left } := by
  have hwrites := writes_createProject hcommit (htenant ▸ hmine : project.tenantId ∈ request.tenants)
  have hnext := commitProject_nextUuid hcommit
  have hissued : project.id < world.db.work.nextUuid :=
    hinv.identities.issued_of_drawn (hunused .project (by simp)).1
  have hroot : projectIdentity project ∈ ({ world.db with work := left } : Db).identities .project := by
    obtain ⟨rfl, _, _, _, _, rfl⟩ := commitProject_ok hcommit
    exact List.mem_map.mpr ⟨_, List.mem_append_right _ List.mem_cons_self, rfl⟩
  have hstatus : ∀ row ∈ (defaultStatusRows project.tenantId project.id
      (world.db.work.nextUuid + 1)).map statusIdentity,
      row.2 = ⟨project.tenantId, project.id⟩ ∧ world.db.work.nextUuid ≤ row.1 ∧ row.1 < left.nextUuid := by
    intro row hrow
    obtain ⟨status, hstatus, rfl⟩ := List.mem_map.mp hrow
    obtain ⟨⟨entry, index⟩, hentry, rfl⟩ := List.mem_map.mp hstatus
    have hindex := (List.mem_zipIdx' hentry).1
    refine ⟨rfl, ?_, ?_⟩
    · exact (Nat.le_succ _).trans (Nat.le_add_right _ _)
    · rw [hnext]
      exact Nat.add_lt_add_left hindex _
  refine keeps_of_writes hrequest hinv hwrites ?_ ?_ ?_ fun _ hrow ↦ .inl hrow
  · intro kind id first second hfirst hsecond
    cases kind with
    | project => exact (Prod.mk.inj (hfirst.trans hsecond.symm)).2
    | projectCounter => exact (Prod.mk.inj (hfirst.trans hsecond.symm)).2
    | workflowStatus => exact (hstatus _ hfirst).1.trans (hstatus _ hsecond).1.symm
    | _ => exact hfirst.elim
  · intro kind id identity hnew
    cases kind with
    | project =>
      obtain rfl := (Prod.mk.inj hnew).1
      exact ⟨hissued.trans_le hwrites.nextUuid, .inr (hunused .project (by simp))⟩
    | projectCounter =>
      obtain rfl := (Prod.mk.inj hnew).1
      exact ⟨hissued.trans_le hwrites.nextUuid, .inr (hunused .projectCounter (by simp))⟩
    | workflowStatus => exact ⟨(hstatus _ hnew).2.2, .inl (hstatus _ hnew).2.1⟩
    | _ => exact hnew.elim
  · intro kind id identity hnew parent hparent
    cases kind with
    | projectCounter =>
      obtain rfl := Option.some.inj hparent
      obtain rfl := (Prod.mk.inj hnew).2
      exact ⟨project.workspaceId, .inl hroot⟩
    | workflowStatus =>
      obtain rfl := Option.some.inj hparent
      obtain rfl : identity = _ := (hstatus _ hnew).1
      exact ⟨project.workspaceId, .inl hroot⟩
    | project => cases hparent
    | _ => exact hnew.elim

theorem createProject_safe {actor : Actor} (hactor : actor.tenantId = tenantId) (workspaceId : Uuid)
    (key name : String) (description : Option String) (leadId : Option Uuid) :
    Safe requests number (ofWork (createProject actor workspaceId key name description leadId)) Any := by
  refine safe_after_reads hrequest (by simp [findProjectByKey]) any_persistent fun _ ↦ ?_
  refine safe_after_reads hrequest (Call.only_ensure _ _) any_persistent fun _ ↦ ?_
  refine safe_after_reads hrequest (by simp [findWorkspaceMember]) any_persistent fun _ ↦ ?_
  refine safe_after_reads hrequest (Call.only_require _ _) any_persistent fun _ ↦ ?_
  refine safe_after_reads hrequest (Call.only_ensure _ _) any_persistent fun _ ↦ ?_
  refine safe_ofWork_bind (uuidv7_draws hrequest any_persistent) fun id ↦ ?_
  have hcommit : Safe requests number (ofWork (transaction .createProject (commitProject
      { id, tenantId := actor.tenantId, workspaceId, key := normalizeKey key, name, description,
        leadId := some (leadId.getD actor.sub), createdAt := 0 } (leadId.getD actor.sub)))) fun world ↦
      ∀ kind ≠ .timeLog, registry.Unused number world (kind, id) :=
    meets_ofWork_transaction hrequest (unusedAll_stable id) fun world created left hinv hunused hok ↦
      keeps_createProject hrequest hmine hinv hactor hunused hok _
  exact hcommit.strengthen fun _ _ hknown ↦ hknown.2

/-! ### Work items -/

/-- A number is handed out from the counter of the project. -/
theorem generateItemKey_keeps : (tenancy requests).Meets number
    (ofWork (generateItemKey tenantId projectId)).tracked (SeenProject tenantId projectId)
      fun _ ↦ SeenProject tenantId projectId := by
  have hfact : (tenancy requests).Persistent (SeenProject tenantId projectId) := seenProject_persistent _ _
  rw [generateItemKey, ofWork, Call.within_bind, Call.tracked_bind]
  refine (meets_reads hrequest (getProject_reads _ _) hfact).bind fun project _ ↦ ?_
  rw [Call.within_bind, Call.tracked_bind]
  refine (meets_reads hrequest (Call.only_ensure _ _) hfact).bind fun _ _ ↦ ?_
  rw [Call.within_bind, Call.tracked_bind]
  refine Meets.bind ?_ fun seq _ ↦ meets_pure fun _ _ hholds ↦ hholds
  have hcounter : (incrementCounter projectId).Only fun db _ after ↦
      after = db ∨ after = db.incrementCounter projectId :=
    Call.only_transaction (fun _ ↦ .inl rfl) fun _ _ _ hnext ↦ .inr (nextItemNumber_ok hnext).2
  have hchanges : (ofWork (incrementCounter projectId)).Only fun db _ after ↦
      after = db ∨ after = db.mapWork fun work ↦ work.incrementCounter projectId := by
    refine hcounter.within fun db _ after hafter ↦ hafter.imp (fun hsame ↦ ?_) fun hchanged ↦ ?_
    · exact hsame ▸ workPart.put_get db
    · exact congrArg (fun work ↦ workPart.put work db) hchanged
  refine meets_writes hrequest hchanges hfact fun world _ after hinv hknown hafter ↦ ?_
  obtain ⟨workspaceId, hproject⟩ := hknown
  rcases hafter with rfl | rfl
  · exact ⟨writes_refl _ _ _, fun _ hrow ↦ .inl hrow⟩
  · refine ⟨writes_incrementCounter fun row hrow hid ↦ ?_, fun _ hrow ↦ .inl hrow⟩
    have hseen : registry.Seen world (.projectCounter, row.projectId) (counterIdentity row).2 :=
      .inl (List.mem_map_of_mem hrow)
    exact tenantId_mem hmine hinv ⟨workspaceId, hproject⟩ rfl hseen hid

theorem createWorkItem_safe {actor : Actor} (hactor : actor.tenantId = tenantId) (projectId : Uuid)
    (type : WorkItemType) (title : String) (opts : CreateWorkItemOpts) :
    Safe requests number (ofWork (createWorkItem actor projectId type title opts)) Any := by
  subst hactor
  have hfact : (tenancy requests).Persistent (SeenProject actor.tenantId projectId) :=
    seenProject_persistent _ _
  refine safe_after_getProject hrequest fun project ↦ ?_
  refine safe_after_reads hrequest (whenPresent_reads _ (by simp)) hfact fun _ ↦ ?_
  refine safe_after_reads hrequest (whenPresent_reads _ (by simp)) hfact fun _ ↦ ?_
  refine safe_after_reads hrequest (resolveStatusId_reads _ _ _) hfact fun statusId ↦ ?_
  refine safe_after_reads hrequest (whenPresent_reads _ (by simp)) hfact fun _ ↦ ?_
  refine safe_ofWork_bind (generateItemKey_keeps hrequest hmine) fun itemKey ↦ ?_
  refine meets_ofWork_transaction hrequest hfact.stable
    fun world created left hinv ⟨workspaceId, hproject⟩ hok ↦ ?_
  obtain ⟨rfl, _, hleft⟩ := commitWorkItem_ok hok
  have hwrites := writes_createWorkItem hok (hmine : actor.tenantId ∈ request.tenants)
  refine keeps_of_oneRow hrequest hinv hwrites ?_ (.inl le_rfl) ?_ rfl
  · rw [hleft]
    exact Nat.lt_add_of_pos_right two_pos
  · intro parent hparent
    obtain rfl := Option.some.inj hparent
    exact ⟨workspaceId, hproject⟩

theorem createTask_safe {actor : Actor} (hactor : actor.tenantId = tenantId) (parentId : Uuid)
    (title : String) (opts : CreateWorkItemOpts) :
    Safe requests number (ofWork (createTask actor parentId title opts)) Any := by
  refine safe_after_reads hrequest (getWorkItem_reads _ _) any_persistent fun parent ↦ ?_
  refine safe_after_reads hrequest (Call.only_ensure _ _) any_persistent fun _ ↦ ?_
  exact createWorkItem_safe hrequest hmine hactor _ _ _ _

/-- What is known once a row has been read and found to be of the tenant. -/
def SeenRow (kind : Kind) (id tenantId : Uuid) (world : TenantWorld) : Prop :=
  ∃ parentId, registry.Seen world (kind, id) ⟨tenantId, parentId⟩

omit hrequest hmine in
theorem seenRow_persistent (kind : Kind) (id tenantId : Uuid) :
    (tenancy requests).Persistent (SeenRow kind id tenantId) :=
  fun number world step after hinv hseen hmay ↦ hseen.imp fun parentId hrow ↦
    seen_persistent (kind, id) ⟨tenantId, parentId⟩ number world step after hinv hrow hmay

omit hmine in
/-- After `getWorkItem`, nothing else being known. -/
theorem safe_after_getWorkItem {β : Type} {itemId : Uuid} {rest : WorkItem → WorkCall β}
    (hrest : ∀ item, item.id = itemId →
      Safe requests number (ofWork (rest item)) (SeenRow .workItem itemId tenantId)) :
    Safe requests number (ofWork (getWorkItem tenantId itemId >>= rest)) Any := by
  refine safe_ofWork_bind (getWorkItem_sees hrequest (fun _ ↦ rfl) tenantId itemId any_persistent)
    fun item ↦ (meets_and_fact fun hid ↦ hrest item hid).strengthen fun world _ hknown ↦ ?_
  obtain ⟨_, rfl, hid, hseen⟩ := hknown
  exact ⟨⟨item.projectId, hseen⟩, hid⟩

omit hmine in
/-- After `getSprint`, nothing else being known. -/
theorem safe_after_getSprint {β : Type} {sprintId : Uuid} {rest : Sprint → WorkCall β}
    (hrest : ∀ sprint, Safe requests number (ofWork (rest sprint)) (SeenRow .sprint sprintId tenantId)) :
    Safe requests number (ofWork (getSprint tenantId sprintId >>= rest)) Any := by
  refine safe_ofWork_bind (getSprint_sees hrequest (fun _ ↦ rfl) tenantId sprintId any_persistent)
    fun sprint ↦ (hrest sprint).strengthen fun world _ hknown ↦ ?_
  obtain ⟨_, rfl, _, hseen⟩ := hknown
  exact ⟨sprint.projectId, hseen⟩

theorem updateWorkItem_safe {actor : Actor} (hactor : actor.tenantId = tenantId) (itemId : Uuid)
    (input : UpdateWorkItemInput) :
    Safe requests number (ofWork (updateWorkItem actor itemId input)) Any := by
  subst hactor
  have hfact : (tenancy requests).Persistent (SeenRow .workItem itemId actor.tenantId) :=
    seenRow_persistent _ _ _
  refine safe_after_getWorkItem hrequest fun item hid ↦ ?_
  refine safe_after_reads hrequest (whenPresent_reads _ (by simp)) hfact fun _ ↦ ?_
  refine safe_after_reads hrequest (whenPresent_reads _ (by simp)) hfact fun _ ↦ ?_
  refine meets_ofWork_transaction hrequest hfact.stable
    fun world updated left hinv ⟨projectId, hseen⟩ hok ↦ ?_
  refine keeps_of_noRow hrequest hinv (writes_updateWorkItem hok ?_) fun _ hrow ↦ .inl hrow
  rw [hid]
  exact hinv.ofSeen (fun _ hrow ↦ List.mem_map_of_mem hrow) (fun _ ↦ rfl) hseen hmine

theorem deleteWorkItem_safe (itemId : Uuid) :
    Safe requests number (ofWork (deleteWorkItem tenantId itemId)) Any := by
  refine safe_after_getWorkItem hrequest fun _ _ ↦ ?_
  refine Safe.of (meets_statement hrequest ((Call.only_atomically _ _).mpr fun _ ↦ rfl)
    (seenRow_persistent .workItem itemId tenantId) fun world hinv ⟨projectId, hseen⟩ ↦ ?_)
  exact writes_deleteWorkItem
    (hinv.ofSeen (fun _ hrow ↦ List.mem_map_of_mem hrow) (fun _ ↦ rfl) hseen hmine)

/-! ### Sprints -/

theorem createSprint_safe {actor : Actor} (hactor : actor.tenantId = tenantId) (projectId : Uuid)
    (name : String) (opts : CreateSprintOpts) :
    Safe requests number (ofWork (createSprint actor projectId name opts)) Any := by
  subst hactor
  refine safe_after_getProject hrequest fun _ ↦ ?_
  refine safe_ofWork_bind (uuidv7_draws hrequest (seenProject_persistent _ _)) fun id ↦ ?_
  refine Safe.drawn (by simp) (insert_safe hrequest .sprint sprintIdentity rfl fun db sprint left hok ↦ ?_)
  obtain ⟨_, _, hrest⟩ := bind_eq_ok.mp hok
  obtain ⟨rfl, rfl⟩ := Prod.mk.inj (Except.ok.inj hrest)
  exact ⟨rfl, writes_createSprint hmine⟩

/-- The columns of a sprint that has been found in the tenant are set. -/
theorem updateSprintRow_keeps (sprintId : Uuid) (input : UpdateSprintInput) :
    Safe requests number (ofWork (updateSprintRow sprintId input)) (SeenRow .sprint sprintId tenantId) := by
  refine Safe.of (meets_statement hrequest ((Call.only_atomically _ _).mpr fun _ ↦ rfl)
    (seenRow_persistent .sprint sprintId tenantId) fun world hinv ⟨projectId, hseen⟩ ↦ ?_)
  exact writes_updateSprints (fun _ ↦ ⟨rfl, rfl⟩)
    (hinv.ofSeen (fun _ hrow ↦ List.mem_map_of_mem hrow) (fun _ ↦ rfl) hseen hmine)

theorem startSprint_safe (sprintId : Uuid) :
    Safe requests number (ofWork (startSprint tenantId sprintId)) Any := by
  have hfact : (tenancy requests).Persistent (SeenRow .sprint sprintId tenantId) := seenRow_persistent _ _ _
  refine safe_after_getSprint hrequest fun sprint ↦ ?_
  refine safe_after_reads hrequest (Call.only_ensure _ _) hfact fun _ ↦ ?_
  refine safe_after_reads hrequest (by simp [findActive]) hfact fun _ ↦ ?_
  refine safe_after_reads hrequest (Call.only_ensure _ _) hfact fun _ ↦ ?_
  exact updateSprintRow_keeps hrequest hmine sprintId _

theorem completeSprint_safe (sprintId : Uuid) (target : Option Uuid) :
    Safe requests number (ofWork (completeSprint tenantId sprintId target)) Any := by
  have hfact : (tenancy requests).Persistent (SeenRow .sprint sprintId tenantId) := seenRow_persistent _ _ _
  refine safe_after_getSprint hrequest fun sprint ↦ ?_
  refine safe_after_reads hrequest (Call.only_ensure _ _) hfact fun _ ↦ ?_
  refine safe_after_reads hrequest (assertSameProject_reads _ _ _) hfact fun _ ↦ ?_
  refine safe_after_reads hrequest (by simp [findDoneStatusIds]) hfact fun doneStatusIds ↦ ?_
  have hcarry : (tenancy requests).Meets number
      (ofWork (carryOver tenantId sprintId doneStatusIds target)).tracked
      (SeenRow .sprint sprintId tenantId) fun _ ↦ SeenRow .sprint sprintId tenantId :=
    meets_statement hrequest ((Call.only_atomically _ _).mpr fun _ ↦ rfl) hfact
      fun _ _ _ ↦ writes_carryOver hmine doneStatusIds target
  have hrest : Safe requests number (ofWork (do
      let completedAt ← Call.query .other fun db ↦ db.now
      updateSprintRow sprintId { status := .completed, completedAt := some completedAt }))
        (SeenRow .sprint sprintId tenantId) :=
    safe_after_reads hrequest (by simp) hfact fun _ ↦ updateSprintRow_keeps hrequest hmine sprintId _
  split_ifs
  · exact safe_ofWork_bind hcarry fun _ ↦ hrest
  · exact hrest

theorem deleteSprint_safe (sprintId : Uuid) :
    Safe requests number (ofWork (deleteSprint tenantId sprintId)) Any := by
  have hfact : (tenancy requests).Persistent (SeenRow .sprint sprintId tenantId) := seenRow_persistent _ _ _
  refine safe_after_getSprint hrequest fun sprint ↦ ?_
  refine safe_after_reads hrequest (Call.only_ensure _ _) hfact fun _ ↦ ?_
  refine Safe.of (meets_statement hrequest ((Call.only_atomically _ _).mpr fun _ ↦ rfl) hfact
    fun world hinv ⟨projectId, hseen⟩ ↦ ?_)
  exact writes_deleteSprint
    (hinv.ofSeen (fun _ hrow ↦ List.mem_map_of_mem hrow) (fun _ ↦ rfl) hseen hmine)

end Work

/-- Every operation of the work services keeps the protocol. -/
theorem work_safe {work : WorkRequest} (hrequest : requests[number]? = some (.work work)) :
    Safe requests number (ofWork work.serve) Any := by
  have hserve : ∀ {α : Type} {call : WorkCall α}, Safe requests number (ofWork call) Any →
      Safe requests number (ofWork ((fun _ ↦ ()) <$> call)) Any := by
    intro α call hcall
    rw [Safe, ofWork, Call.within_map, Call.tracked_map]
    exact hcall.map
  have hmine : ∀ tenantId, workTenants work = [tenantId] →
      tenantId ∈ (ArchiveRequest.work work).tenants := fun tenantId hsame ↦ by
    rw [ArchiveRequest.tenants, hsame]
    exact List.mem_singleton_self _
  cases work with
  | createProject actor workspaceId key name description leadId =>
    exact hserve (createProject_safe hrequest (hmine _ rfl) rfl _ _ _ _ _)
  | deleteProject tenantId projectId => exact deleteProject_safe hrequest (hmine _ rfl)
  | createStatus tenantId projectId input => exact hserve (createStatus_safe hrequest (hmine _ rfl) _)
  | deleteStatus tenantId projectId statusId => exact deleteStatus_safe hrequest (hmine _ rfl) _
  | createTransition tenantId projectId input =>
    exact hserve (createTransition_safe hrequest (hmine _ rfl) _)
  | deleteTransition tenantId projectId transitionId =>
    exact deleteTransition_safe hrequest (hmine _ rfl) _
  | createWorkItem actor projectId type title opts =>
    exact hserve (createWorkItem_safe hrequest (hmine _ rfl) rfl _ _ _ _)
  | createTask actor parentId title opts =>
    exact hserve (createTask_safe hrequest (hmine _ rfl) rfl _ _ _)
  | updateWorkItem actor id input => exact hserve (updateWorkItem_safe hrequest (hmine _ rfl) rfl _ _)
  | moveWorkItem actor id toStatusId => exact hserve (updateWorkItem_safe hrequest (hmine _ rfl) rfl _ _)
  | deleteWorkItem tenantId id => exact deleteWorkItem_safe hrequest (hmine _ rfl) _
  | createSprint actor projectId name opts =>
    exact hserve (createSprint_safe hrequest (hmine _ rfl) rfl _ _ _)
  | startSprint tenantId id => exact hserve (startSprint_safe hrequest (hmine _ rfl) _)
  | completeSprint tenantId id target => exact hserve (completeSprint_safe hrequest (hmine _ rfl) _ _)
  | deleteSprint tenantId id => exact deleteSprint_safe hrequest (hmine _ rfl) _
  | tick microseconds =>
    exact Safe.of (meets_statement hrequest ((Call.only_atomically _ _).mpr fun _ ↦ rfl) any_persistent
      fun world _ _ ↦ { writes_refl _ noRow world.db with })

end RallyApi.Archive

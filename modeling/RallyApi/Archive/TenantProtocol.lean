import RallyApi.Archive.Tenants
import RallyApi.Concurrency.Outcomes
import RallyApi.Concurrency.Requests

/-!
# The protocol of the tenants

No call writes to the rows of another tenant. A call writes by identifiers, of rows that it has read in
earlier steps and found to be of the tenant of its actor. Between its read and its write other calls may
delete the row and insert others; that the write still finds a row of the tenant, if it finds one, is
because no identifier is ever of a second row (`Registry.InOrder`).
-/

set_option autoImplicit false
set_option relaxedAutoImplicit false

namespace RallyApi.Archive

open Concurrency Protocol Platform Store Work
open CrossTenant (Label WorkItemLabel TimeLog)
open TimeLogs (TimeLogStep TimeLogRequest TimeLogCall)

/-! ### The tenant of a request -/

/-- The tenant of the actor; none where no client asks. -/
def workTenants : WorkRequest → List Uuid
  | .createProject actor .. | .createWorkItem actor .. | .createTask actor .. | .updateWorkItem actor ..
  | .moveWorkItem actor .. | .createSprint actor .. => [actor.tenantId]
  | .deleteProject tenantId _ | .createStatus tenantId .. | .deleteStatus tenantId ..
  | .createTransition tenantId .. | .deleteTransition tenantId .. | .deleteWorkItem tenantId _
  | .startSprint tenantId _ | .completeSprint tenantId .. | .deleteSprint tenantId _ => [tenantId]
  | .tick _ => []

/-- The tenant of the actor; none where no client asks. -/
def timeLogTenants : TimeLogRequest → List Uuid
  | .logTime _ actor .. | .updateTimeLog _ actor .. | .deleteTimeLog _ actor .. => [actor.tenantId]
  | .tick _ => []

/-- The tenant of the actor; none where no client of these services asks. -/
def ArchiveRequest.tenants : ArchiveRequest → List Uuid
  | .work request => workTenants request
  | .timeLog request => timeLogTenants request
  | .updateProject actor .. => [actor.tenantId]
  | .reorderStatuses tenantId .. | .reorderWorkItems _ tenantId _ | .createLabel tenantId ..
  | .updateLabel tenantId .. | .deleteLabel tenantId .. | .addLabelToWorkItem tenantId ..
  | .removeLabelFromWorkItem tenantId .. | .updateSprint tenantId .. => [tenantId]
  | .changeMemberships _ => []

/-! ### The protocol -/

/-- A world with its history. -/
abbrev TenantWorld := World Db (Transition Db ArchiveStep)

/-- A label of a work item is of the project of the item. -/
def Linked (world : TenantWorld) (row : WorkItemLabel) : Prop :=
  ∃ item label, registry.Seen world (.workItem, row.workItemId) item ∧
    registry.Seen world (.label, row.labelId) label ∧ label.parentId = item.parentId

/-- What a row is part of has been in the store, and is of its tenant. -/
def Rooted (world : TenantWorld) (kind : Kind) (identity : Identity) : Prop :=
  ∀ parent, kind.parent = some parent →
    ∃ parentId, registry.Seen world (parent, identity.parentId) ⟨identity.tenantId, parentId⟩

/-- The invariant. -/
structure TenantsInOrder (requests : List ArchiveRequest) (world : TenantWorld) : Prop where
  identities : registry.InOrder world
  rooted : ∀ kind id identity, registry.Seen world (kind, id) identity → Rooted world kind identity
  linked : ∀ row ∈ world.db.workItemLabels, Linked world row
  spared : ∀ entry ∈ world.log, ∀ request, requests[entry.1]? = some request →
    ∀ tenantId ∉ request.tenants, entry.2.left.ofTenant tenantId = entry.2.found.ofTenant tenantId

/-- What a step of a call may do. -/
structure MayWrite (requests : List ArchiveRequest) (number : ℕ) (world : TenantWorld)
    (step : Transition Db ArchiveStep) (after : Db) : Prop where
  transition : step.found = world.db ∧ step.left = after
  registers : ∃ fresh, registry.Registers number world after fresh
  later : TenantsInOrder requests (world.after number step after)

/-- The protocol. -/
def tenancy (requests : List ArchiveRequest) : Protocol Db (Transition Db ArchiveStep) where
  permits := anyStep
  invariant := TenantsInOrder requests
  guarantee := MayWrite requests

variable {requests : List ArchiveRequest} {request : ArchiveRequest} {number : ℕ} {world : TenantWorld}
  {label : ArchiveStep} {after : Db} {fresh : Kind → Identified → Prop} {kind : Kind} {id : Uuid}
  {identity : Identity} {mine : List Uuid}

/-- The rows a step adds, for the registry. -/
def addedRows (fresh : Kind → Identified → Prop) : Kind × Uuid → Identity → Prop :=
  fun key identity ↦ fresh key.1 (key.2, identity)

/-- The registry of a step that writes. Assumes: the identifiers of the rows it adds are drawn by it, or
were by its call, which has not used them. -/
theorem Writes.registers (hwrites : Writes mine fresh world.db after)
    (honce : ∀ kind id first second, fresh kind (id, first) → fresh kind (id, second) → first = second)
    (hfresh : ∀ kind id identity, fresh kind (id, identity) → id < after.nextId kind ∧
      (world.db.nextId kind ≤ id ∨ registry.Unused number world (kind, id))) :
    registry.Registers number world after (addedRows fresh) where
  issued key hissued := lt_of_lt_of_le hissued (hwrites.nextId_le key.1)
  rows _ _ hrow := hwrites.identities hrow
  once key first second := honce key.1 key.2 first second
  fresh key identity hnew := (hfresh key.1 key.2 identity hnew).imp_right fun hdrawn ↦
    hdrawn.imp_left fun hle ↦ Nat.not_lt.mpr hle

theorem Rooted.step (hrooted : Rooted world kind identity) :
    Rooted (world.after number ⟨label, world.db, after⟩ after) kind identity :=
  fun parent hparent ↦ (hrooted parent hparent).imp fun _ hseen ↦ hseen.step

theorem Linked.step {row : WorkItemLabel} (hlinked : Linked world row) :
    Linked (world.after number ⟨label, world.db, after⟩ after) row := by
  obtain ⟨item, labelOf, hitem, hlabel, hparent⟩ := hlinked
  exact ⟨item, labelOf, hitem.step, hlabel.step, hparent⟩

/-- A step that writes keeps the protocol. Assumes: it writes rows of the tenant of its request; the
identifiers of the rows it adds are drawn and unused; what they are part of is of the tenant; and a label is
put on an item of its project only. -/
theorem keeps_of_writes (hrequest : requests[number]? = some request) (hinv : TenantsInOrder requests world)
    (hwrites : Writes request.tenants fresh world.db after)
    (honce : ∀ kind id first second, fresh kind (id, first) → fresh kind (id, second) → first = second)
    (hfresh : ∀ kind id identity, fresh kind (id, identity) → id < after.nextId kind ∧
      (world.db.nextId kind ≤ id ∨ registry.Unused number world (kind, id)))
    (hrooted : ∀ kind id identity, fresh kind (id, identity) →
      Rooted (world.after number ⟨label, world.db, after⟩ after) kind identity)
    (hlinked : ∀ row ∈ after.workItemLabels, row ∈ world.db.workItemLabels ∨ Linked world row) :
    (tenancy requests).Keeps number world ⟨label, world.db, after⟩ after := by
  have hregisters := hwrites.registers honce hfresh
  have hlater : TenantsInOrder requests (world.after number ⟨label, world.db, after⟩ after) := {
    identities := hinv.identities.step hregisters label
    rooted := fun kind id identity hseen ↦ by
      rcases hregisters.seen hseen with hold | hnew
      · exact (hinv.rooted kind id identity hold).step
      · exact hrooted kind id identity hnew
    linked := fun row hrow ↦ by
      rcases hlinked row hrow with hold | hnew
      · exact (hinv.linked row hold).step
      · exact hnew.step
    spared := fun entry hentry other hother tenantId htenant ↦ by
      rcases List.mem_cons.mp hentry with rfl | hold
      · obtain rfl := Option.some.inj (hrequest.symm.trans hother)
        exact hwrites.ofTenant_eq htenant
      · exact hinv.spared entry hold other hother tenantId htenant }
  exact ⟨⟨⟨rfl, rfl⟩, ⟨_, hregisters⟩, hlater⟩, hlater⟩

/-- A step that adds no row, and no label to an item, keeps the protocol. -/
theorem keeps_of_noRow (hrequest : requests[number]? = some request) (hinv : TenantsInOrder requests world)
    (hwrites : Writes request.tenants noRow world.db after)
    (hlinked : ∀ row ∈ after.workItemLabels, row ∈ world.db.workItemLabels ∨ Linked world row) :
    (tenancy requests).Keeps number world ⟨label, world.db, after⟩ after :=
  keeps_of_writes hrequest hinv hwrites (fun _ _ _ _ hnone ↦ hnone.elim) (fun _ _ _ hnone ↦ hnone.elim)
    (fun _ _ _ hnone ↦ hnone.elim) hlinked

/-- A step that adds one row keeps the protocol. -/
theorem keeps_of_oneRow (hrequest : requests[number]? = some request)
    (hinv : TenantsInOrder requests world)
    (hwrites : Writes request.tenants (oneRow kind (id, identity)) world.db after)
    (hissued : id < after.nextId kind)
    (hfresh : world.db.nextId kind ≤ id ∨ registry.Unused number world (kind, id))
    (hrooted : Rooted world kind identity) (hlinks : after.workItemLabels = world.db.workItemLabels) :
    (tenancy requests).Keeps number world ⟨label, world.db, after⟩ after := by
  refine keeps_of_writes hrequest hinv hwrites ?_ ?_ ?_ fun _ hrow ↦ .inl (hlinks ▸ hrow)
  · rintro _ _ _ _ ⟨_, hfirst⟩ ⟨_, hsecond⟩
    exact (Prod.mk.inj hfirst).2.trans (Prod.mk.inj hsecond).2.symm
  · rintro _ _ _ ⟨rfl, hrow⟩
    obtain ⟨rfl, rfl⟩ := Prod.mk.inj hrow
    exact ⟨hissued, hfresh⟩
  · rintro _ _ _ ⟨rfl, hrow⟩
    obtain ⟨rfl, rfl⟩ := Prod.mk.inj hrow
    exact hrooted.step

/-- A step that leaves the store alone keeps the protocol. -/
theorem keeps_refl (hrequest : requests[number]? = some request) (hinv : TenantsInOrder requests world)
    (label : ArchiveStep) : (tenancy requests).Keeps number world ⟨label, world.db, world.db⟩ world.db :=
  keeps_of_noRow hrequest hinv (writes_refl _ _ _) fun _ hrow ↦ .inl hrow

/-! ### What a call knows -/

theorem seen_persistent (key : Kind × Uuid) (identity : Identity) :
    (tenancy requests).Persistent fun world ↦ registry.Seen world key identity := by
  rintro number world ⟨label, found, left⟩ after _ hseen hmay
  obtain ⟨rfl, rfl⟩ := hmay.transition
  exact hseen.step

theorem unused_stable (key : Kind × Uuid) :
    (tenancy requests).Stable number fun world ↦ registry.Unused number world key := by
  rintro other hother world ⟨label, found, left⟩ after hinv hunused hmay
  obtain ⟨rfl, rfl⟩ := hmay.transition
  obtain ⟨fresh, hregisters⟩ := hmay.registers
  exact hunused.step_other (TenantsInOrder.identities hinv) hregisters hother

/-- A fact that the other calls keep, and the own steps that add no row. -/
def Kept (requests : List ArchiveRequest) (number : ℕ) (fact : TenantWorld → Prop) : Prop :=
  (tenancy requests).Stable number fact ∧ ∀ world label after, TenantsInOrder requests world → fact world →
    MayWrite requests number world ⟨label, world.db, after⟩ after →
      registry.Registers number world after (addedRows noRow) →
        fact (world.after number ⟨label, world.db, after⟩ after)

theorem kept_of_persistent {fact : TenantWorld → Prop} (hfact : (tenancy requests).Persistent fact) :
    Kept requests number fact :=
  ⟨hfact.stable, fun world _ after hinv hholds hmay _ ↦ hfact number world _ after hinv hholds hmay⟩

theorem unused_kept (key : Kind × Uuid) :
    Kept requests number fun world ↦ registry.Unused number world key :=
  ⟨unused_stable key, fun _ _ _ _ hunused _ hregisters ↦ hunused.step hregisters fun _ hnone ↦ hnone⟩

theorem Kept.and {fact other : TenantWorld → Prop} (hfact : Kept requests number fact)
    (hother : Kept requests number other) : Kept requests number fun world ↦ fact world ∧ other world :=
  ⟨hfact.1.and hother.1, fun world label after hinv hboth hmay hregisters ↦
    ⟨hfact.2 world label after hinv hboth.1 hmay hregisters,
      hother.2 world label after hinv hboth.2 hmay hregisters⟩⟩

/-- Assumes: a row with the identifier has been seen with an identity of these tenants. The rows that have
the identifier now are of them. -/
theorem TenantsInOrder.ofSeen (hinv : TenantsInOrder requests world) {Row : Type} {owner : Row → Uuid}
    {identityOf : Row → Identified} {rows : List Row}
    (hrows : ∀ row ∈ rows, identityOf row ∈ world.db.identities kind)
    (howner : ∀ row, owner row = (identityOf row).2.tenantId)
    (hseen : registry.Seen world (kind, id) identity) (hmine : identity.tenantId ∈ mine) :
    Mine mine owner identityOf id rows := by
  rintro row hrow rfl
  have hnow : registry.Seen world (kind, (identityOf row).1) (identityOf row).2 := .inl (hrows row hrow)
  rw [howner row, hinv.identities.unique _ _ _ hnow hseen]
  exact hmine

/-- What is part of a project is of its tenant. -/
theorem TenantsInOrder.child (hinv : TenantsInOrder requests world) {tenantId projectId workspaceId : Uuid}
    (hproject : registry.Seen world (.project, projectId) ⟨tenantId, workspaceId⟩)
    (hparent : kind.parent = some .project) (hseen : registry.Seen world (kind, id) identity)
    (hidentity : identity.parentId = projectId) : identity.tenantId = tenantId := by
  obtain ⟨parentId, hrooted⟩ := hinv.rooted kind id identity hseen .project hparent
  rw [hidentity] at hrooted
  exact congrArg Identity.tenantId (hinv.identities.unique _ _ _ hrooted hproject)

/-! ### Kinds of steps -/

section Calls

variable {α : Type} {fact : TenantWorld → Prop} (hrequest : requests[number]? = some request)

include hrequest

/-- A call that adds no row. Assumes: its steps write rows of the tenant of its request, and put no label on
an item of another project. -/
theorem meets_writes_kept {call : ArchiveCall α} {relation : Db → ArchiveStep → Db → Prop}
    (hcall : call.Only relation) (hfact : Kept requests number fact)
    (hwrites : ∀ world label after, TenantsInOrder requests world → fact world →
      relation world.db label after → Writes request.tenants noRow world.db after ∧
        ∀ row ∈ after.workItemLabels, row ∈ world.db.workItemLabels ∨ Linked world row) :
    (tenancy requests).Meets number call.tracked fact fun _ ↦ fact := by
  have htracked : call.tracked.Only fun db step after ↦
      (step.found = db ∧ step.left = after) ∧ relation db step.label after :=
    hcall.traced fun _ _ _ hrelation ↦ ⟨⟨rfl, rfl⟩, hrelation⟩
  refine meets_of_only htracked hfact.1 fun world step after hinv hholds _ hstep ↦ ?_
  obtain ⟨label, found, left⟩ := step
  obtain ⟨⟨rfl, rfl⟩, hrelation⟩ := hstep
  obtain ⟨hwritten, hlinked⟩ := hwrites world label _ hinv hholds hrelation
  have hkeeps : (tenancy requests).Keeps number world ⟨label, world.db, _⟩ _ :=
    keeps_of_noRow hrequest hinv hwritten hlinked
  refine ⟨hkeeps, hfact.2 world label _ hinv hholds hkeeps.guarantee ?_⟩
  exact hwritten.registers (fun _ _ _ _ hnone ↦ hnone.elim) fun _ _ _ hnone ↦ hnone.elim

/-- As `meets_writes_kept`, where what is known lasts. -/
theorem meets_writes {call : ArchiveCall α} {relation : Db → ArchiveStep → Db → Prop}
    (hcall : call.Only relation) (hfact : (tenancy requests).Persistent fact)
    (hwrites : ∀ world label after, TenantsInOrder requests world → fact world →
      relation world.db label after → Writes request.tenants noRow world.db after ∧
        ∀ row ∈ after.workItemLabels, row ∈ world.db.workItemLabels ∨ Linked world row) :
    (tenancy requests).Meets number call.tracked fact fun _ ↦ fact :=
  meets_writes_kept hrequest hcall (kept_of_persistent hfact) hwrites

/-- A call that leaves the store alone. -/
theorem meets_unchanged {call : ArchiveCall α} (hcall : call.Only fun db _ after ↦ after = db)
    (hfact : (tenancy requests).Persistent fact) :
    (tenancy requests).Meets number call.tracked fact fun _ ↦ fact :=
  meets_writes hrequest hcall hfact fun _ _ _ _ _ hsame ↦
    ⟨hsame ▸ writes_refl _ _ _, fun _ hrow ↦ .inl (hsame ▸ hrow)⟩

/-- A call of the work services that only reads, in whatever part of the store. -/
theorem meets_reads {part : Part Db Work.Db} {relabel : WorkStep → ArchiveStep} {call : WorkCall α}
    (hcall : call.Only Reads) (hfact : (tenancy requests).Persistent fact) :
    (tenancy requests).Meets number (call.within part relabel).tracked fact fun _ ↦ fact :=
  meets_unchanged hrequest (hcall.within fun db _ after hreads ↦ by rw [hreads.2, part.put_get]) hfact

/-- The search has found a row of the kind with the identifier. -/
def FoundRow (kind : Kind) (id : Uuid) (identified : Identified) (world : TenantWorld) : Prop :=
  identified.1 = id ∧ registry.Seen world (kind, id) identified.2

/-- A search for a row by its identifier. -/
theorem meets_find {Row : Type} {label : ArchiveStep} {rows : Db → List Row} {condition : Row → Bool}
    {identityOf : Row → Identified}
    (hrows : ∀ db, (rows db).map identityOf = db.identities kind)
    (hcondition : ∀ row, condition row = true → (identityOf row).1 = id)
    (hfact : (tenancy requests).Persistent fact) :
    (tenancy requests).Meets number
      (Call.query label fun db ↦ (rows db).find? condition : ArchiveCall (Option Row)).tracked fact
      fun found world ↦ fact world ∧ ∀ row, found = some row → FoundRow kind id (identityOf row) world := by
  refine meets_traced_query hfact.stable fun world hinv hholds ↦ ?_
  have hkeeps := keeps_refl hrequest hinv label
  refine ⟨hkeeps, hfact _ _ _ _ hinv hholds hkeeps.guarantee, fun row hfound ↦ ?_⟩
  obtain rfl := hcondition row (List.find?_some hfound)
  refine ⟨rfl, .inl ?_⟩
  change identityOf row ∈ world.db.identities kind
  rw [← hrows]
  exact List.mem_map.mpr ⟨row, List.mem_of_find?_eq_some hfound, rfl⟩

/-! ### What the reads find -/

/-- The project has been found, in the tenant. -/
def SeenProject (tenantId projectId : Uuid) (world : TenantWorld) : Prop :=
  ∃ workspaceId, registry.Seen world (.project, projectId) ⟨tenantId, workspaceId⟩

omit hrequest in
theorem seenProject_persistent (tenantId projectId : Uuid) :
    (tenancy requests).Persistent (SeenProject tenantId projectId) :=
  fun number world step after hinv hseen hmay ↦ hseen.imp fun workspaceId hproject ↦
    seen_persistent (.project, projectId) ⟨tenantId, workspaceId⟩ number world step after hinv hproject hmay

section Part

variable {part : Part Db Work.Db} {relabel : WorkStep → ArchiveStep}

/-- A row is read by its identifier and checked, in a part of the store. -/
theorem meets_get {Row : Type} {rows : Work.Db → List Row} {condition : Row → Bool} {check : Row → Prop}
    [DecidablePred check] {identityOf : Row → Identified} {failure : Failure}
    (hrows : ∀ db, (rows (part.get db)).map identityOf = db.identities kind)
    (hcondition : ∀ row, condition row = true → (identityOf row).1 = id)
    (hfact : (tenancy requests).Persistent fact) :
    (tenancy requests).Meets number ((do
        let found ← Call.query .other fun db ↦ (rows db).find? condition
        let row ← Call.require found failure
        Call.ensure (check row) failure
        pure row : WorkCall Row).within part relabel).tracked fact
      fun row world ↦ fact world ∧ check row ∧ FoundRow kind id (identityOf row) world := by
  rw [Call.within_bind, Call.tracked_bind, Call.within_query]
  refine (meets_find hrequest hrows hcondition hfact).bind fun found _ ↦ ?_
  rw [Call.within_bind, Call.within_require, Call.tracked_bind, Call.tracked_require]
  refine meets_require.bind fun row _ ↦ ?_
  rw [Call.within_bind, Call.within_ensure, Call.tracked_bind, Call.tracked_ensure]
  refine meets_ensure.bind fun _ _ ↦ meets_pure fun world _ hknown ↦ ?_
  obtain ⟨⟨⟨hholds, hseen⟩, hfound⟩, hchecked⟩ := hknown
  exact ⟨hholds, hchecked, hseen row hfound⟩

variable (hpart : ∀ db, part.get db = db.work)

include hpart

/-- `getProject`, in a part of the store. -/
theorem getProject_sees (tenantId projectId : Uuid) (hfact : (tenancy requests).Persistent fact) :
    (tenancy requests).Meets number ((getProject tenantId projectId).within part relabel).tracked fact
      fun _ world ↦ fact world ∧ SeenProject tenantId projectId world := by
  have hget : (tenancy requests).Meets number ((getProject tenantId projectId).within part relabel).tracked
      fact fun project world ↦ fact world ∧ (project.deletedAt = none ∧ project.tenantId = tenantId) ∧
        FoundRow .project projectId (projectIdentity project) world :=
    meets_get hrequest (fun db ↦ by rw [hpart]; rfl) (fun _ hid ↦ of_decide_eq_true hid) hfact
  refine hget.conseq (fun _ _ hholds ↦ hholds) fun project world _ hknown ↦ ?_
  obtain ⟨hholds, ⟨_, rfl⟩, _, hseen⟩ := hknown
  exact ⟨hholds, project.workspaceId, hseen⟩

/-- `getWorkItem`, in a part of the store. -/
theorem getWorkItem_sees (tenantId itemId : Uuid) (hfact : (tenancy requests).Persistent fact) :
    (tenancy requests).Meets number ((getWorkItem tenantId itemId).within part relabel).tracked fact
      fun item world ↦ fact world ∧ item.tenantId = tenantId ∧
        FoundRow .workItem itemId (itemIdentity item) world :=
  meets_get hrequest (fun db ↦ by rw [hpart]; rfl) (fun _ hid ↦ (of_decide_eq_true hid).1) hfact

/-- `getSprint`, in a part of the store. -/
theorem getSprint_sees (tenantId sprintId : Uuid) (hfact : (tenancy requests).Persistent fact) :
    (tenancy requests).Meets number ((getSprint tenantId sprintId).within part relabel).tracked fact
      fun sprint world ↦ fact world ∧ sprint.tenantId = tenantId ∧
        FoundRow .sprint sprintId (sprintIdentity sprint) world :=
  meets_get hrequest (fun db ↦ by rw [hpart]; rfl) (fun _ hid ↦ of_decide_eq_true hid) hfact

end Part

/-! ### Drawing identifiers and inserting -/

omit hrequest in
/-- All identifiers but those of time logs are drawn together. -/
theorem nextId_of_ne (hkind : kind ≠ .timeLog) (db : Db) : db.nextId kind = db.work.nextUuid := by
  cases kind with
  | timeLog => exact absurd rfl hkind
  | _ => rfl

/-- `uuidv7` draws an identifier that no row has had. -/
theorem uuidv7_draws (hfact : (tenancy requests).Persistent fact) :
    (tenancy requests).Meets number (ofWork uuidv7).tracked fact fun id world ↦
      fact world ∧ ∀ kind ≠ .timeLog, registry.Unused number world (kind, id) := by
  have huuid : ofWork uuidv7 = Call.atomically (fun _ ↦ .work .other) fun db ↦
      (db.work.nextUuid, db.mapWork fun work ↦ { work with nextUuid := work.nextUuid + 1 }) := rfl
  rw [huuid, Call.tracked]
  refine meets_traced_atomically hfact.stable fun world hinv hholds ↦ ?_
  have hwrites : Writes request.tenants noRow world.db
      (world.db.mapWork fun work ↦ { work with nextUuid := work.nextUuid + 1 }) :=
    { writes_refl request.tenants noRow world.db with nextUuid := Nat.le_succ _ }
  have hkeeps : (tenancy requests).Keeps number world ⟨.work .other, world.db, _⟩ _ :=
    keeps_of_noRow hrequest hinv hwrites fun _ hrow ↦ .inl hrow
  refine ⟨hkeeps, hfact _ _ _ _ hinv hholds hkeeps.guarantee, fun kind hkind ↦ ?_⟩
  have hregisters : registry.Registers number world
      (world.db.mapWork fun work ↦ { work with nextUuid := work.nextUuid + 1 }) (addedRows noRow) :=
    hwrites.registers (fun _ _ _ _ hnone ↦ hnone.elim) fun _ _ _ hnone ↦ hnone.elim
  have hnext := nextId_of_ne hkind
  refine hinv.identities.unused hregisters (fun _ hnone ↦ hnone.elim) ?_ ?_ _
  · change ¬ world.db.work.nextUuid < world.db.nextId kind
    rw [hnext]
    exact lt_irrefl _
  · change world.db.work.nextUuid < Db.nextId _ kind
    rw [hnext]
    exact Nat.lt_succ_self _

/-- A transaction of the work services that, where it commits, keeps the protocol. -/
theorem meets_ofWork_transaction {assertion : TenantWorld → Prop} {label : α → WorkStep}
    {statements : Work.Db → Except Failure (α × Work.Db)}
    (hstable : (tenancy requests).Stable number assertion)
    (hcommit : ∀ world value left, TenantsInOrder requests world → assertion world →
      statements world.db.work = .ok (value, left) →
      (tenancy requests).Keeps number world ⟨.work (label value), world.db, { world.db with work := left }⟩
        { world.db with work := left }) :
    (tenancy requests).Meets number (ofWork (transaction label statements)).tracked assertion
      fun _ _ ↦ True := by
  refine ⟨assertion, hstable, fun _ _ hholds ↦ hholds, fun world hinv hholds _ ↦ ?_⟩
  change (tenancy requests).Keeps number world ⟨.work _, world.db, _⟩ _ ∧ _
  dsimp only [workPart]
  cases hstatements : statements world.db.work with
  | error failure => exact ⟨keeps_refl hrequest hinv _, trivial⟩
  | ok result => exact ⟨hcommit world result.1 result.2 hinv hholds hstatements, fun _ _ _ ↦ trivial⟩

/-- A statement of the work services that adds no row. -/
theorem meets_statement {call : WorkCall α} {change : Work.Db → Work.Db}
    (hcall : call.Only fun db _ after ↦ after = change db) (hfact : (tenancy requests).Persistent fact)
    (hwrites : ∀ world, TenantsInOrder requests world → fact world →
      Writes request.tenants noRow world.db (world.db.mapWork change)) :
    (tenancy requests).Meets number (ofWork call).tracked fact fun _ ↦ fact := by
  have hchanges : (ofWork call).Only fun db _ after ↦ after = db.mapWork change :=
    hcall.within fun db _ _ hafter ↦ by rw [hafter]; rfl
  refine meets_writes hrequest hchanges hfact fun world _ after hinv hholds hafter ↦ ?_
  subst hafter
  exact ⟨hwrites world hinv hholds, fun _ hrow ↦ .inl hrow⟩

end Calls

/-! ### Calls that keep the protocol -/

/-- Nothing is known. -/
def Any : TenantWorld → Prop := fun _ ↦ True

theorem any_persistent : (tenancy requests).Persistent Any := persistent_const True

/-- A call of which the result does not matter. -/
abbrev Safe (requests : List ArchiveRequest) (number : ℕ) {α : Type} (call : ArchiveCall α)
    (pre : TenantWorld → Prop) : Prop :=
  (tenancy requests).Meets number call.tracked pre fun _ _ ↦ True

theorem Safe.of {α : Type} {call : ArchiveCall α} {pre : TenantWorld → Prop}
    {post : α → TenantWorld → Prop} (hcall : (tenancy requests).Meets number call.tracked pre post) :
    Safe requests number call pre :=
  hcall.conseq (fun _ _ hholds ↦ hholds) fun _ _ _ _ ↦ trivial

end RallyApi.Archive

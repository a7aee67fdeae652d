import RallyApi.Graph.Acyclic
import RallyApi.Work.CallRuns

/-!
# The hierarchy of work items

`createWorkItem` looks the parent of a new item up and checks its project; `createTask` checks its type
as well. `updateWorkItem` writes whatever `parentId` it is given.

`reachable_parentsIntact` proves, for every sequence of calls in which an update moves an item only below
an item of its tenant and project that is neither the item nor below it, that the parents are items of the
same tenant and project and that no item is above itself. `reachable_tasksIntact` proves, for every
sequence in which the two calls that do not check the type of a parent do not put a task below a task, that
there is none. `ownParent` and `taskUnderTask` are sequences without these conditions.
-/

set_option autoImplicit false
set_option relaxedAutoImplicit false

namespace RallyApi.Work

open Concurrency RallyApi.Graph Platform Store

variable {db after : Db} {label : WorkStep}

/-! ### The hierarchy -/

/-- What an item says about its place in the hierarchy. -/
structure Node where
  id : Uuid
  tenantId : Uuid
  projectId : Uuid
  type : WorkItemType
  parentId : Option Uuid
  deriving DecidableEq, Repr

def WorkItem.node (item : WorkItem) : Node :=
  { id := item.id, tenantId := item.tenantId, projectId := item.projectId, type := item.type,
    parentId := item.parentId }

/-- The hierarchy of the items, deleted ones included. -/
def Db.hierarchy (db : Db) : List Node := db.workItems.map WorkItem.node

variable {nodes : List Node} {node : Node} {id parentId : Uuid}

/-- An item and its parent, by their identifiers. -/
def ParentOf (nodes : List Node) (child parent : Uuid) : Prop :=
  ∃ node ∈ nodes, node.id = child ∧ node.parentId = some parent

/-- The identifier is that of an item of the tenant and the project of another. -/
def InScope (nodes : List Node) (node : Node) (parentId : Uuid) : Prop :=
  ∃ parent ∈ nodes, parent.id = parentId ∧ parent.tenantId = node.tenantId ∧
    parent.projectId = node.projectId

/-- Parents are items of the same tenant and project, and no item is above itself. -/
structure ParentsIntact (nodes : List Node) : Prop where
  inScope : ∀ node ∈ nodes, ∀ parentId ∈ node.parentId, InScope nodes node parentId
  acyclic : Acyclic (ParentOf nodes)

/-- The parent of every task is an item that is no task. -/
def TasksIntact (nodes : List Node) : Prop :=
  ∀ node ∈ nodes, node.type = .task → ∀ parentId ∈ node.parentId,
    ∃ parent ∈ nodes, parent.id = parentId ∧ parent.type ≠ .task

/-- No task is the parent of a task. -/
def NoTaskUnderTask (nodes : List Node) : Prop :=
  ∀ node ∈ nodes, ∀ parent ∈ nodes, node.type = .task → node.parentId = some parent.id →
    parent.type ≠ .task

instance : Decidable (InScope nodes node parentId) :=
  inferInstanceAs (Decidable (∃ parent ∈ nodes, _))

instance : Decidable (TasksIntact nodes) :=
  inferInstanceAs (Decidable (∀ node ∈ nodes, _ → ∀ parentId ∈ node.parentId, _))

instance : Decidable (NoTaskUnderTask nodes) :=
  inferInstanceAs (Decidable (∀ node ∈ nodes, ∀ parent ∈ nodes, _))

/-- Assumes: identifiers are distinct. -/
theorem TasksIntact.noTaskUnderTask (hids : (nodes.map Node.id).Nodup) (hintact : TasksIntact nodes) :
    NoTaskUnderTask nodes := by
  intro node hnode parent hparent htask hof
  obtain ⟨found, hfound, hid, htype⟩ := hintact node hnode htask parent.id hof
  rwa [← List.inj_on_of_nodup_map hids hfound hparent hid]

/-! ### A new item -/

theorem InScope.append (hscope : InScope nodes node parentId) (new : Node) :
    InScope (nodes ++ [new]) node parentId := by
  obtain ⟨parent, hparent, hsame⟩ := hscope
  exact ⟨parent, List.mem_append_left _ hparent, hsame⟩

/-- Assumes: the identifier is new, and the parent is in scope. -/
theorem ParentsIntact.append (hintact : ParentsIntact nodes) (hfresh : node.id ∉ nodes.map Node.id)
    (hscope : ∀ parentId ∈ node.parentId, InScope nodes node parentId) :
    ParentsIntact (nodes ++ [node]) where
  inScope := by
    intro other hother parentId hparent
    rcases List.mem_append.mp hother with hold | hnew
    · exact (hintact.inScope other hold parentId hparent).append node
    · obtain rfl := List.mem_singleton.mp hnew
      exact (hscope parentId hparent).append other
  acyclic := by
    have hsplit : ∀ child parent, ParentOf (nodes ++ [node]) child parent →
        ParentOf nodes child parent ∨ child = node.id ∧ node.parentId = some parent := by
      rintro child parent ⟨other, hother, hid, hof⟩
      rcases List.mem_append.mp hother with hold | hnew
      · exact .inl ⟨other, hold, hid, hof⟩
      · obtain rfl := List.mem_singleton.mp hnew
        exact .inr ⟨hid.symm, hof⟩
    cases hparent : node.parentId with
    | none =>
      refine hintact.acyclic.mono fun child parent hof ↦ (hsplit child parent hof).resolve_right ?_
      simp [hparent]
    | some target =>
      have hback : ¬ Relation.ReflTransGen (ParentOf nodes) target node.id := by
        obtain ⟨parent, hmem, hid, _⟩ := hscope target hparent
        refine not_reflTransGen_of_initial (fun child hof ↦ ?_) fun heq ↦ ?_
        · obtain ⟨other, hother, _, hof⟩ := hof
          obtain ⟨found, hfound, hid, _⟩ := hintact.inScope other hother node.id hof
          exact hfresh (hid ▸ List.mem_map_of_mem hfound)
        · exact hfresh (heq ▸ hid ▸ List.mem_map_of_mem hmem)
      refine hintact.acyclic.redirect (fun child parent hof ↦ ?_) hback
      refine (hsplit child parent hof).imp_right fun hnew ↦ ?_
      exact ⟨hnew.1, Option.some.inj (hnew.2.symm.trans hparent)⟩

/-! ### Another parent -/

/-- The hierarchy after an item has been given another parent, or none. -/
def moveNode (id : Uuid) (parentId : Option Uuid) (nodes : List Node) : List Node :=
  updateWhere (fun node ↦ node.id = id) (fun node ↦ { node with parentId }) nodes

/-- A row of the hierarchy afterwards is a row from before, with the new parent if it is that of the
item. -/
theorem exists_of_mem_moveNode {target : Option Uuid} (hnode : node ∈ moveNode id target nodes) :
    ∃ old ∈ nodes, old.id = node.id ∧ old.tenantId = node.tenantId ∧ old.projectId = node.projectId ∧
      old.type = node.type ∧ node.parentId = if old.id = id then target else old.parentId := by
  obtain ⟨old, hold, rfl⟩ := mem_updateWhere.mp hnode
  refine ⟨old, hold, ?_⟩
  simp only [decide_eq_true_eq]
  split_ifs <;> exact ⟨rfl, rfl, rfl, rfl, rfl⟩

/-- Every row from before is still there, whatever its parent is now. -/
theorem exists_mem_moveNode {target : Option Uuid} (hnode : node ∈ nodes) :
    ∃ moved ∈ moveNode id target nodes, moved.id = node.id ∧ moved.tenantId = node.tenantId ∧
      moved.projectId = node.projectId ∧ moved.type = node.type := by
  by_cases hid : node.id = id
  · exact ⟨_, set_mem_updateWhere hnode (decide_eq_true hid), rfl, rfl, rfl, rfl⟩
  · exact ⟨node, mem_updateWhere_of_not hnode (decide_eq_false hid), rfl, rfl, rfl, rfl⟩

theorem InScope.moveNode {target : Option Uuid} {moved : Node} (hscope : InScope nodes node parentId)
    (htenant : node.tenantId = moved.tenantId) (hproject : node.projectId = moved.projectId) :
    InScope (moveNode id target nodes) moved parentId := by
  obtain ⟨parent, hparent, hid, hparentTenant, hparentProject⟩ := hscope
  obtain ⟨kept, hkept, hsame, hsameTenant, hsameProject, _⟩ := exists_mem_moveNode hparent
  exact ⟨kept, hkept, hsame.trans hid, (hsameTenant.trans hparentTenant).trans htenant,
    (hsameProject.trans hparentProject).trans hproject⟩

/-- The item may be given the parent: an item of its tenant and project that is neither the item nor
below it. -/
def CanMove (nodes : List Node) (id : Uuid) (target : Option Uuid) : Prop :=
  ∀ node ∈ nodes, node.id = id → ∀ parentId ∈ target,
    InScope nodes node parentId ∧ ¬ Relation.ReflTransGen (ParentOf nodes) parentId id

theorem ParentsIntact.move (hintact : ParentsIntact nodes) {target : Option Uuid}
    (hmove : CanMove nodes id target) : ParentsIntact (moveNode id target nodes) where
  inScope := by
    intro node hnode parentId hparent
    obtain ⟨old, hold, hid, htenant, hproject, _, hset⟩ := exists_of_mem_moveNode hnode
    rw [hset] at hparent
    split_ifs at hparent with hmoved
    · exact (hmove old hold hmoved parentId hparent).1.moveNode htenant hproject
    · exact (hintact.inScope old hold parentId hparent).moveNode htenant hproject
  acyclic := by
    have hsplit : ∀ child parent, ParentOf (moveNode id target nodes) child parent →
        ParentOf nodes child parent ∨ child = id ∧ some parent = target ∧
          ∃ old ∈ nodes, old.id = id := by
      rintro child parent ⟨node, hnode, hid, hof⟩
      obtain ⟨old, hold, hsame, _, _, _, hset⟩ := exists_of_mem_moveNode hnode
      rw [hset] at hof
      split_ifs at hof with hmoved
      · exact .inr ⟨hid.symm.trans (hsame.symm.trans hmoved), hof.symm, old, hold, hmoved⟩
      · exact .inl ⟨old, hold, hsame.trans hid, hof⟩
    -- Only an item that is there gets a new parent, and then the condition is about that parent.
    by_cases hnew : ∃ parentId ∈ target, ∃ old ∈ nodes, old.id = id
    · obtain ⟨parentId, htarget, old, hold, hid⟩ := hnew
      refine hintact.acyclic.redirect (fun child parent hof ↦ ?_) (hmove old hold hid parentId htarget).2
      refine (hsplit child parent hof).imp_right fun hmoved ↦ ⟨hmoved.1, ?_⟩
      exact Option.some.inj (hmoved.2.1.trans htarget)
    · refine hintact.acyclic.mono fun child parent hof ↦ (hsplit child parent hof).resolve_right ?_
      exact fun hmoved ↦ hnew ⟨parent, hmoved.2.1.symm, hmoved.2.2⟩

/-! ### The type of a parent -/

/-- Assumes: a new task is put below an item that is no task. -/
theorem TasksIntact.append (hintact : TasksIntact nodes)
    (hparent : node.type = .task → ∀ parentId ∈ node.parentId,
      ∃ parent ∈ nodes, parent.id = parentId ∧ parent.type ≠ .task) :
    TasksIntact (nodes ++ [node]) := by
  intro other hother htask parentId hof
  have hfound : ∃ parent ∈ nodes, parent.id = parentId ∧ parent.type ≠ .task := by
    rcases List.mem_append.mp hother with hold | hnew
    · exact hintact other hold htask parentId hof
    · obtain rfl := List.mem_singleton.mp hnew
      exact hparent htask parentId hof
  obtain ⟨parent, hmem, hkind⟩ := hfound
  exact ⟨parent, List.mem_append_left _ hmem, hkind⟩

/-- The task may be given the parent: an item that is no task. -/
def TaskCanMove (nodes : List Node) (id : Uuid) (target : Option Uuid) : Prop :=
  ∀ node ∈ nodes, node.id = id → node.type = .task → ∀ parentId ∈ target,
    ∃ parent ∈ nodes, parent.id = parentId ∧ parent.type ≠ .task

instance {target : Option Uuid} : Decidable (TaskCanMove nodes id target) :=
  inferInstanceAs (Decidable (∀ node ∈ nodes, _ → _ → ∀ parentId ∈ target, _))

theorem TasksIntact.move (hintact : TasksIntact nodes) {target : Option Uuid}
    (hmove : TaskCanMove nodes id target) : TasksIntact (moveNode id target nodes) := by
  intro node hnode htask parentId hof
  obtain ⟨old, hold, _, _, _, htype, hset⟩ := exists_of_mem_moveNode hnode
  have hfound : ∃ parent ∈ nodes, parent.id = parentId ∧ parent.type ≠ .task := by
    rw [hset] at hof
    split_ifs at hof with hmoved
    · exact hmove old hold hmoved (htype.trans htask) parentId hof
    · exact hintact old hold (htype.trans htask) parentId hof
  obtain ⟨parent, hmem, hid, hkind⟩ := hfound
  obtain ⟨kept, hkept, hsame, _, _, hsameType⟩ := exists_mem_moveNode hmem
  exact ⟨kept, hkept, hsame.trans hid, hsameType ▸ hkind⟩

/-! ### The hierarchy under the calls -/

/-- A write of the item table that leaves identifiers, scope, types and parents alone. -/
theorem hierarchy_updateWhere {condition : WorkItem → Bool} {set : WorkItem → WorkItem}
    (hset : ∀ item, (set item).node = item.node) :
    ({ db with workItems := updateWhere condition set db.workItems } : Db).hierarchy = db.hierarchy :=
  map_updateWhere hset

/-- A step moves no item, and adds none. -/
def WorkStep.keepsHierarchy : WorkStep → Bool
  | .createWorkItem _ | .updateWorkItem .. => false
  | _ => true

theorem Effect.hierarchy (heffect : Effect db label after) (hkeeps : label.keepsHierarchy = true) :
    after.hierarchy = db.hierarchy := by
  by_cases hwrites : .workItems ∈ label.writes
  · cases label <;> simp [WorkStep.writes, WorkStep.keepsHierarchy] at hwrites hkeeps
    case deleteWorkItem id =>
      obtain rfl := heffect
      exact hierarchy_updateWhere fun _ ↦ rfl
    case carryOver id target =>
      obtain ⟨_, _, rfl⟩ := heffect
      exact hierarchy_updateWhere fun _ ↦ rfl
  · rw [Db.hierarchy, heffect.frame.workItems hwrites, Db.hierarchy]

/-- What the `SET` clause of an update makes of the hierarchy. -/
def UpdateWorkItemInput.moveNodes (input : UpdateWorkItemInput) (id : Uuid) (nodes : List Node) :
    List Node :=
  match input.parentId with
  | none => nodes
  | some target => moveNode id target nodes

theorem node_updateWorkItemRows (id actorId : Uuid) (input : UpdateWorkItemInput)
    (items : List WorkItem) :
    (updateWorkItemRows id { input with updatedBy := some actorId } items).map WorkItem.node =
      input.moveNodes id (items.map WorkItem.node) := by
  unfold UpdateWorkItemInput.moveNodes
  cases hparent : input.parentId with
  | none =>
    refine map_updateWhere fun item ↦ ?_
    simp [WorkItem.node, UpdateWorkItemInput.set]
  | some target =>
    simp only [updateWorkItemRows, moveNode, updateWhere, List.map_map]
    refine List.map_congr_left fun item _ ↦ ?_
    by_cases hid : item.id = id
    · simp [WorkItem.node, UpdateWorkItemInput.set, hid]
    · simp [WorkItem.node, hid]

/-- An item that a tenant can see is in the hierarchy. -/
theorem Visible.node_mem {tenantId : Uuid} {item : WorkItem} (hvisible : Visible db tenantId id item) :
    item.node ∈ db.hierarchy := List.mem_map_of_mem hvisible.mem

/-- The identifiers of the hierarchy are those of the items. -/
theorem hierarchy_ids : db.hierarchy.map Node.id = db.workItems.map WorkItem.id := by
  rw [Db.hierarchy, List.map_map]
  rfl

/-! ### The conditions -/

/-- An update whose item is found and whose checks pass gives the item a parent it may have. -/
def MovesWithin (db : Db) (actor : Actor) (id : Uuid) (input : UpdateWorkItemInput) : Prop :=
  ∀ item ∈ db.workItems, item.id = id → item.deletedAt = none → item.tenantId = actor.tenantId →
    Passes db (whenPresent input.assigneeId.join (assertAssignable actor.tenantId item)) →
      Passes db (whenPresent input.statusId (assertStatusReachable item)) →
        ∀ target ∈ input.parentId, CanMove db.hierarchy id target

/-- An update gives an item only a parent of its tenant and project that is not below it. -/
def KeepsParents (db : Db) : WorkRequest → Prop
  | .updateWorkItem actor id input => MovesWithin db actor id input
  | _ => True

/-- A task that `createWorkItem` finds the parent of is not put below a task, and neither is one that an
update moves. -/
def KeepsTasks (db : Db) : WorkRequest → Prop
  | .createWorkItem actor projectId type _ opts => type = .task → ∀ parentId ∈ opts.parentId,
    ∀ parent ∈ db.workItems, parent.id = parentId → parent.deletedAt = none →
      parent.tenantId = actor.tenantId → parent.projectId = projectId → parent.type ≠ .task
  | .updateWorkItem actor id input =>
    ∀ item ∈ db.workItems, item.id = id → item.deletedAt = none → item.tenantId = actor.tenantId →
      Passes db (whenPresent input.assigneeId.join (assertAssignable actor.tenantId item)) →
        Passes db (whenPresent input.statusId (assertStatusReachable item)) →
          ∀ target ∈ input.parentId, TaskCanMove db.hierarchy id target
  | _ => True

instance (request : WorkRequest) : Decidable (KeepsTasks db request) :=
  match request with
  | .createWorkItem _ _ _ _ opts =>
    inferInstanceAs (Decidable (_ → ∀ parentId ∈ opts.parentId, ∀ parent ∈ db.workItems, _))
  | .updateWorkItem .. => inferInstanceAs (Decidable (∀ item ∈ db.workItems, _))
  | .createProject .. | .deleteProject .. | .createStatus .. | .deleteStatus .. | .createTransition ..
  | .deleteTransition .. | .createTask .. | .moveWorkItem .. | .deleteWorkItem .. | .createSprint ..
  | .startSprint .. | .completeSprint .. | .deleteSprint .. | .tick _ => .isTrue trivial

/-! ### What a call preserves -/

section Calls

variable {actor : Actor} {projectId : Uuid} {type : WorkItemType} {title : String}
  {opts : CreateWorkItemOpts} {input : UpdateWorkItemInput}

/-- The parent of a created item is one of the tenant and the project of the item. -/
theorem Creatable.inScope {statusId : Uuid} (hchecked : Creatable db actor projectId opts statusId)
    {new : Node} (htenant : new.tenantId = actor.tenantId) (hproject : new.projectId = projectId) :
    ∀ parentId ∈ opts.parentId, InScope db.hierarchy new parentId := by
  intro parentId hpresent
  obtain ⟨parent, hvisible, hscope⟩ := hchecked.parent parentId hpresent
  exact ⟨parent.node, hvisible.node_mem, hvisible.id_eq, hvisible.tenant.trans htenant.symm,
    hscope.trans hproject.symm⟩

theorem ParentsIntact.creates (hintact : ParentsIntact db.hierarchy)
    (hcreates : Creates db actor projectId type title opts after) : ParentsIntact after.hierarchy := by
  cases hcreates with
  | refused counters => exact hintact
  | created counters statusId itemKey entry nextUuid hchecked hfresh =>
    rw [Db.hierarchy, Db.withWorkItem, List.map_append, List.map_singleton]
    refine hintact.append (hierarchy_ids ▸ hfresh) (hchecked.inScope rfl rfl)

theorem ParentsIntact.createsTask (hintact : ParentsIntact db.hierarchy)
    (hcreates : CreatesTask db actor parentId title opts after) : ParentsIntact after.hierarchy := by
  cases hcreates with
  | refused => exact hintact
  | created parent assigneeId hvisible htype after hcreates => exact hintact.creates hcreates

theorem ParentsIntact.updates (hintact : ParentsIntact db.hierarchy)
    (hmoves : MovesWithin db actor id input) (hupdates : Updates db actor id input after) :
    ParentsIntact after.hierarchy := by
  cases hupdates with
  | refused => exact hintact
  | updated item hvisible hassignable hreachable logs nextUuid =>
    have hmove := hmoves item hvisible.mem hvisible.id_eq hvisible.live hvisible.tenant hassignable
      hreachable
    rw [Db.hierarchy, node_updateWorkItemRows, UpdateWorkItemInput.moveNodes]
    cases hparent : input.parentId with
    | none => exact hintact
    | some target => exact hintact.move (hmove target hparent)

theorem TasksIntact.creates (hintact : TasksIntact db.hierarchy)
    (hparent : type = .task → ∀ parentId ∈ opts.parentId, ∀ parent,
      Visible db actor.tenantId parentId parent → parent.projectId = projectId → parent.type ≠ .task)
    (hcreates : Creates db actor projectId type title opts after) : TasksIntact after.hierarchy := by
  cases hcreates with
  | refused counters => exact hintact
  | created counters statusId itemKey entry nextUuid hchecked hfresh =>
    rw [Db.hierarchy, Db.withWorkItem, List.map_append, List.map_singleton]
    refine hintact.append fun htask parentId hpresent ↦ ?_
    obtain ⟨parent, hvisible, hscope⟩ := hchecked.parent parentId hpresent
    exact ⟨parent.node, hvisible.node_mem, hvisible.id_eq,
      hparent htask parentId hpresent parent hvisible hscope⟩

theorem TasksIntact.createsTask (hids : (db.workItems.map WorkItem.id).Nodup)
    (hintact : TasksIntact db.hierarchy) (hcreates : CreatesTask db actor parentId title opts after) :
    TasksIntact after.hierarchy := by
  cases hcreates with
  | refused => exact hintact
  | created parent assigneeId hvisible htype after hcreates =>
    refine hintact.creates (fun _ found hfound other hother _ ↦ ?_) hcreates
    obtain rfl := Option.some.inj hfound
    rwa [List.inj_on_of_nodup_map hids hother.mem hvisible.mem
      (hother.id_eq.trans hvisible.id_eq.symm)]

theorem TasksIntact.updates (hintact : TasksIntact db.hierarchy)
    (hkeeps : KeepsTasks db (.updateWorkItem actor id input))
    (hupdates : Updates db actor id input after) : TasksIntact after.hierarchy := by
  cases hupdates with
  | refused => exact hintact
  | updated item hvisible hassignable hreachable logs nextUuid =>
    have hmove := hkeeps item hvisible.mem hvisible.id_eq hvisible.live hvisible.tenant hassignable
      hreachable
    rw [Db.hierarchy, node_updateWorkItemRows, UpdateWorkItemInput.moveNodes]
    cases hparent : input.parentId with
    | none => exact hintact
    | some target => exact hintact.move (hmove target hparent)

end Calls

/-- Every request but the four that write an item of their own keeps what the hierarchy keeps. -/
theorem serve_hierarchy {request : WorkRequest}
    (hkeeps : ∀ label, request.mayTake label = true → label.keepsHierarchy = true) :
    (request.serve.run db).2.hierarchy = db.hierarchy :=
  ((serve_effect request).and (serve_takes request)).run_keeps
    (fun store ↦ store.hierarchy = db.hierarchy)
    (fun _ label _ hstore hstep ↦ (hstep.1.hierarchy (hkeeps label hstep.2)).trans hstore) rfl

/-- Assumes: the request keeps within the condition. Its call, run alone, keeps the parents intact. -/
theorem serve_parentsIntact (hintact : ParentsIntact db.hierarchy) {request : WorkRequest}
    (hkeeps : KeepsParents db request) : ParentsIntact (request.serve.run db).2.hierarchy := by
  cases request with
  | createWorkItem actor projectId type title opts =>
    rw [WorkRequest.serve, Call.run_map]
    exact hintact.creates (createWorkItem_creates db actor projectId type title opts)
  | createTask actor parentId title opts =>
    rw [WorkRequest.serve, Call.run_map]
    exact hintact.createsTask (createTask_creates db actor parentId title opts)
  | updateWorkItem actor id input =>
    rw [WorkRequest.serve, Call.run_map]
    exact hintact.updates hkeeps (updateWorkItem_updates db actor id input)
  | moveWorkItem actor id toStatusId =>
    rw [WorkRequest.serve, Call.run_map]
    refine hintact.updates (fun _ _ _ _ _ _ _ target htarget ↦ ?_)
      (updateWorkItem_updates db actor id { statusId := some toStatusId })
    cases htarget
  | _ =>
    rw [serve_hierarchy fun label htakes ↦ ?_]
    · exact hintact
    · cases label <;> first | rfl | cases htakes

/-- Assumes: item identifiers are distinct, and the request keeps within the condition. Its call, run
alone, puts no task below a task. -/
theorem serve_tasksIntact (hids : (db.workItems.map WorkItem.id).Nodup)
    (hintact : TasksIntact db.hierarchy) {request : WorkRequest}
    (hkeeps : KeepsTasks db request) : TasksIntact (request.serve.run db).2.hierarchy := by
  cases request with
  | createWorkItem actor projectId type title opts =>
    rw [WorkRequest.serve, Call.run_map]
    refine hintact.creates (fun htask parentId hpresent parent hvisible ↦ ?_)
      (createWorkItem_creates db actor projectId type title opts)
    exact hkeeps htask parentId hpresent parent hvisible.mem hvisible.id_eq hvisible.live
      hvisible.tenant
  | createTask actor parentId title opts =>
    rw [WorkRequest.serve, Call.run_map]
    exact hintact.createsTask hids (createTask_creates db actor parentId title opts)
  | updateWorkItem actor id input =>
    rw [WorkRequest.serve, Call.run_map]
    exact hintact.updates hkeeps (updateWorkItem_updates db actor id input)
  | moveWorkItem actor id toStatusId =>
    rw [WorkRequest.serve, Call.run_map]
    refine hintact.updates (fun _ _ _ _ _ _ _ target htarget ↦ ?_)
      (updateWorkItem_updates db actor id { statusId := some toStatusId })
    cases htarget
  | _ =>
    rw [serve_hierarchy fun label htakes ↦ ?_]
    · exact hintact
    · cases label <;> first | rfl | cases htakes

/-! ### Sequences of calls -/

/-- Assumes: at the start the parents are intact, and every update gives an item only a parent of its
tenant and project that is neither the item nor below it. After any sequence of calls every parent is an
item of the same tenant and project, and no item is above itself. -/
theorem reachable_parentsIntact (hintact : ParentsIntact db.hierarchy)
    (hreach : Relation.ReflTransGen (CallStep KeepsParents) db after) :
    ParentsIntact after.hierarchy := by
  induction hreach with
  | refl => exact hintact
  | tail _ hstep ih =>
    obtain ⟨request, hkeeps, rfl⟩ := hstep
    exact serve_parentsIntact ih hkeeps

/-- Nothing is in the hierarchy of a store without items. -/
theorem parentsIntact_empty : ParentsIntact emptyDb.hierarchy where
  inScope _ hnode := by cases hnode
  acyclic a hcycle := by
    obtain ⟨b, ⟨node, hnode, _⟩, _⟩ := Relation.TransGen.head'_iff.mp hcycle
    cases hnode

/-- Two projects, and the stories 112 and 114 of the first. -/
def twoStories : List WorkRequest :=
  twoProjects ++ [.createWorkItem founder 100 .story "Sign up" {}]

/-- The second story may be put below the first, which has no parent. -/
theorem canMove_story : CanMove (runCalls emptyDb twoStories).hierarchy 114 (some 112) := by
  intro node hnode hid parentId hparent
  obtain rfl := Option.some.inj hparent
  have hscope : ∀ node ∈ (runCalls emptyDb twoStories).hierarchy, node.id = 114 →
      InScope (runCalls emptyDb twoStories).hierarchy node 112 := by decide +kernel
  have hroot : ∀ node ∈ (runCalls emptyDb twoStories).hierarchy, node.id = 112 →
      node.parentId = none := by decide +kernel
  refine ⟨hscope node hnode hid, not_reflTransGen_of_final ?_ (by decide)⟩
  rintro parent ⟨other, hother, hsame, hof⟩
  rw [hroot other hother hsame] at hof
  cases hof

/-- A witness that the condition can be met: the second story is put below the first. -/
theorem reachable_parentsIntact_witness :
    ParentsIntact (runCalls emptyDb
      (twoStories ++ [.updateWorkItem founder 114 { parentId := some (some 112) }])).hierarchy := by
  refine reachable_parentsIntact parentsIntact_empty (runCalls_reachable _ ?_)
  refine ⟨trivial, trivial, trivial, trivial, ?_, trivial⟩
  intro _ _ _ _ _ _ _ target htarget
  obtain rfl := Option.some.inj htarget
  exact canMove_story

/-- Without the condition an item can become its own parent. -/
theorem ownParent :
    ¬ ∀ db after : Db, ParentsIntact db.hierarchy →
      Relation.ReflTransGen (CallStep fun _ _ ↦ True) db after → ParentsIntact after.hierarchy := by
  intro halways
  have hintact := halways emptyDb _ parentsIntact_empty (runCalls_reachable
    (twoProjects ++ [.updateWorkItem founder 112 { parentId := some (some 112) }])
    (by decide +kernel))
  refine hintact.acyclic 112 (.single ?_)
  exact (by decide +kernel : ∃ node ∈ (runCalls emptyDb (twoProjects ++
    [.updateWorkItem founder 112 { parentId := some (some 112) }])).hierarchy,
      node.id = 112 ∧ node.parentId = some 112)

/-- Assumes: item identifiers are distinct at the start, as their primary key has it; the parent of every
task is an item that is no task then; and neither `createWorkItem` nor an update puts a task below a task.
After any sequence of calls no task is the parent of a task. -/
theorem reachable_tasksIntact (hids : (db.workItems.map WorkItem.id).Nodup)
    (hintact : TasksIntact db.hierarchy)
    (hreach : Relation.ReflTransGen (CallStep KeepsTasks) db after) :
    NoTaskUnderTask after.hierarchy := by
  suffices hboth : (after.workItems.map WorkItem.id).Nodup ∧ TasksIntact after.hierarchy from
    hboth.2.noTaskUnderTask (hierarchy_ids ▸ hboth.1)
  induction hreach with
  | refl => exact ⟨hids, hintact⟩
  | tail _ hstep ih =>
    obtain ⟨request, hkeeps, rfl⟩ := hstep
    exact ⟨(serve_effect request).run_keeps _ (fun _ _ _ ↦ nodup_workItems_step) ih.1,
      serve_tasksIntact ih.1 ih.2 hkeeps⟩

/-- A witness that the condition can be met: a task of the first story moves below the second, and
`createWorkItem` creates another. -/
theorem reachable_tasksIntact_witness :
    NoTaskUnderTask (runCalls emptyDb
      (twoStories ++ [.createTask founder 112 "Form" {},
        .updateWorkItem founder 116 { parentId := some (some 114) },
        .createWorkItem founder 100 .task "Button" { parentId := some 112 }])).hierarchy :=
  reachable_tasksIntact (by decide) (by decide) (runCalls_reachable _ (by decide +kernel))

/-- Without the condition `createWorkItem` puts a task below a task, which `createTask` refuses to do. -/
theorem taskUnderTask :
    ¬ ∀ db after : Db, (db.workItems.map WorkItem.id).Nodup → TasksIntact db.hierarchy →
      Relation.ReflTransGen (CallStep fun _ _ ↦ True) db after → NoTaskUnderTask after.hierarchy := by
  intro halways
  have hnone := halways emptyDb _ (by decide) (by decide) (runCalls_reachable
    (twoProjects ++ [.createTask founder 112 "Form" {},
      .createWorkItem founder 100 .task "Button" { parentId := some 114 }]) (by decide +kernel))
  exact absurd hnone (by decide +kernel)

end RallyApi.Work

import RallyApi.Archive.TenantWrites
import RallyApi.Concurrency.Returns

/-!
# Tenants do not touch each other's rows

The results for every run of the services, in any interleaving, about the tables of `Kind`. An identifier is
of one row for ever, with one tenant (`reachable_identities`). The steps of a call leave what the other
tenants have in these tables, in `work_item_labels` and in `activity_logs` as it was (`reachable_spared`).
The rows are of the tenant of what they are part of, and the labels of a work item are of its project
(`reachable_sameTenant`). Nothing is said of `project_members`, `project_teams` and `workspace_members`.
-/

set_option autoImplicit false
set_option relaxedAutoImplicit false

namespace RallyApi.Archive

open Concurrency Protocol Platform Store Work
open CrossTenant (Label WorkItemLabel TimeLog)
open TimeLogs (TimeLogStep TimeLogRequest TimeLogCall)

variable {requests : List ArchiveRequest} {db : Db}
  {config : Config Db (Transition Db ArchiveStep) Failure Unit}

/-! ### The store at the start -/

/-- The rows of a store have identifiers of their own, and refer to rows of their tenant. -/
structure Db.Coherent (db : Db) : Prop where
  issued : ∀ kind, ∀ row ∈ db.identities kind, row.1 < db.nextId kind
  unique : ∀ kind, ∀ first ∈ db.identities kind, ∀ second ∈ db.identities kind, first.1 = second.1 →
    first.2 = second.2
  rooted : ∀ kind parent, kind.parent = some parent → ∀ row ∈ db.identities kind,
    ∃ above ∈ db.identities parent, above.1 = row.2.parentId ∧ above.2.tenantId = row.2.tenantId
  linked : ∀ row ∈ db.workItemLabels, ∃ item ∈ db.identities .workItem, ∃ label ∈ db.identities .label,
    item.1 = row.workItemId ∧ label.1 = row.labelId ∧ label.2.parentId = item.2.parentId

/-- A coherent store that no call has changed yet is in order. -/
theorem tenantsInOrder_initial (hdb : db.Coherent) : TenantsInOrder requests ⟨db, []⟩ where
  identities := Registry.inOrder_initial (fun key identity hrow ↦ hdb.issued key.1 _ hrow)
    fun key first second hfirst hsecond ↦ hdb.unique key.1 _ hfirst _ hsecond rfl
  rooted kind id identity hseen parent hparent := by
    rcases hseen with hrow | ⟨_, hentry, _⟩
    · obtain ⟨⟨aboveId, tenantId, parentId⟩, habove, hid, htenant⟩ := hdb.rooted kind parent hparent _ hrow
      obtain rfl : aboveId = identity.parentId := hid
      obtain rfl : tenantId = identity.tenantId := htenant
      exact ⟨parentId, .inl habove⟩
    · cases hentry
  linked row hrow := by
    obtain ⟨⟨itemId, item⟩, hitem, ⟨labelId, label⟩, hlabel, rfl, rfl, hparent⟩ := hdb.linked row hrow
    exact ⟨item, label, .inl hitem, .inl hlabel, hparent⟩
  spared _ hentry := nomatch hentry

/-- Every run keeps the tenants in order. -/
theorem reachable_tenantsInOrder (hdb : db.Coherent)
    (hreach : ReachableBy (fun request ↦ request.serve.tracked) anyStep db requests config) :
    TenantsInOrder requests config.toWorld := by
  have hkept : (tenancy requests).Kept (fun _ _ _ ↦ True) config :=
    reachableBy_kept (fun _ _ ↦ any_persistent.stable)
      (fun number request hrequest ↦ (serve_safe hrequest).strengthen fun _ _ _ ↦ trivial)
      (tenantsInOrder_initial hdb) hreach (List.prefix_refl requests)
  exact hkept.invariant

/-! ### Two tenants -/

/-- A work item of a tenant. -/
def exampleItem (id tenantId projectId : Uuid) : WorkItem where
  id := id
  tenantId := tenantId
  projectId := projectId
  itemKey := "APP-1"
  type := .story
  title := "Sign in"
  statusId := 1
  createdBy := 4
  createdAt := 0

/-- Two tenants, each with a project, a work item and a label. -/
def twoTenants : Db where
  work := { nextUuid := 20
            projects := [{ id := 5, tenantId := 2, workspaceId := 3, key := "APP", name := "App"
                           createdAt := 0 },
                         { id := 15, tenantId := 12, workspaceId := 13, key := "APP", name := "App"
                           createdAt := 0 }]
            workItems := [exampleItem 7 2 5, exampleItem 17 12 15] }
  labels := [{ id := 8, tenantId := 2, projectId := 5, name := "Bug" },
             { id := 18, tenantId := 12, projectId := 15, name := "Bug" }]

theorem twoTenants_coherent : twoTenants.Coherent where
  issued kind := by cases kind <;> decide
  unique kind := by cases kind <;> decide
  rooted kind parent hparent := by cases kind <;> cases hparent <;> decide
  linked := by decide

/-- The tenant with the identifier 12 tries to use the label, the work item and the log of the other one,
which puts the label on its work item, logs time, and deletes the label. -/
def crossing : List (Choice ArchiveRequest) :=
  [.start (.addLabelToWorkItem 2 7 8), .start (.addLabelToWorkItem 12 17 8),
    .start (.timeLog (.logTime true { sub := 4, tenantId := 2 } 7 { loggedDate := 1, hours := ⟨150⟩ })),
    .start (.deleteLabel 12 15 8), .start (.deleteLabel 2 5 8), .start (.addLabelToWorkItem 12 17 18)] ++
    (List.replicate 9 [.resume 0, .resume 1, .resume 2, .resume 3, .resume 5]).flatten ++
    List.replicate 9 (.resume 4) ++
    [.start (.timeLog (.deleteTimeLog true { sub := 4, tenantId := 12 } true 7 0))] ++
    List.replicate 9 (.resume 6)

/-- The configuration that follows. -/
def crossed : Config Db (Transition Db ArchiveStep) Failure Unit :=
  (Config.initial twoTenants).play (fun request ↦ request.serve.tracked) crossing

theorem crossed_reachableBy : ReachableBy (fun request : ArchiveRequest ↦ request.serve.tracked) anyStep
    twoTenants (requestsOf crossing) crossed :=
  play_reachableBy _ _ _

/-! ### Identities -/

/-- Assumes: the store at the start is coherent. Two rows that have the same table of `Kind` and the same
identifier, at whatever times of a run, have the same tenant and are part of the same. -/
theorem reachable_identities (hdb : db.Coherent)
    (hreach : ReachableBy (fun request ↦ request.serve.tracked) anyStep db requests config) (kind : Kind)
    (id : Uuid) (first second : Identity) (hfirst : registry.Seen config.toWorld (kind, id) first)
    (hsecond : registry.Seen config.toWorld (kind, id) second) : first = second :=
  (reachable_tenantsInOrder hdb hreach).identities.unique (kind, id) first second hfirst hsecond

theorem crossed_label : registry.Seen crossed.toWorld (.label, 8) ⟨2, 5⟩ := by
  have hfound : ∃ entry ∈ crossed.log, (8, (⟨2, 5⟩ : Identity)) ∈ entry.2.found.identities .label := by
    decide +kernel
  exact .inr hfound

/-- A witness: the label that is deleted is the only one that has ever had its identifier. -/
theorem reachable_identities_witness :
    (∀ label ∈ crossed.db.labels, label.id ≠ 8) ∧
      ∀ identity, registry.Seen crossed.toWorld (.label, 8) identity → identity = ⟨2, 5⟩ :=
  ⟨by decide +kernel, fun identity hseen ↦
    reachable_identities twoTenants_coherent crossed_reachableBy .label 8 identity _ hseen crossed_label⟩

/-! ### What the other tenants have -/

/-- Assumes: the store at the start is coherent. A step of a call leaves what the other tenants have in the
tables of `TenantRows` as it was. -/
theorem reachable_spared (hdb : db.Coherent)
    (hreach : ReachableBy (fun request ↦ request.serve.tracked) anyStep db requests config) :
    ∀ entry ∈ config.log, ∀ request, requests[entry.1]? = some request → ∀ tenantId ∉ request.tenants,
      entry.2.left.ofTenant tenantId = entry.2.found.ofTenant tenantId :=
  (reachable_tenantsInOrder hdb hreach).spared

/-- A witness: the calls of the tenant 12 for the label, the work item and the log of the tenant 2 fail, and
the other ones return. -/
theorem reachable_spared_witness :
    (∀ entry ∈ crossed.log, ∀ request, (requestsOf crossing)[entry.1]? = some request →
      ∀ tenantId ∉ request.tenants, entry.2.left.ofTenant tenantId = entry.2.found.ofTenant tenantId) ∧
      (crossed.calls.map fun call ↦ call.returned.isSome) =
        [true, false, true, false, true, true, false] :=
  ⟨reachable_spared twoTenants_coherent crossed_reachableBy, by decide +kernel⟩

/-! ### Coherence -/

/-- A row of a table with a parent in another is of its tenant, as far as the parent is in the store. -/
theorem TenantsInOrder.tenantId_eq {world : TenantWorld} (hinv : TenantsInOrder requests world)
    {kind parent : Kind} (hparent : kind.parent = some parent) {row above : Identified}
    (hrow : row ∈ world.db.identities kind) (habove : above ∈ world.db.identities parent)
    (hid : above.1 = row.2.parentId) : above.2.tenantId = row.2.tenantId := by
  obtain ⟨parentId, hseen⟩ := hinv.rooted kind row.1 row.2 (.inl hrow) parent hparent
  have hnow : registry.Seen world (parent, row.2.parentId) above.2 := .inl (hid ▸ habove)
  have hsame := hinv.identities.unique _ _ _ hnow hseen
  rw [hsame]

/-- Two rows of one project are of one tenant. -/
theorem TenantsInOrder.siblings {world : TenantWorld} (hinv : TenantsInOrder requests world)
    {kind other : Kind} (hkind : kind.parent = some .project) (hother : other.parent = some .project)
    {row sibling : Identified} (hrow : row ∈ world.db.identities kind)
    (hsibling : sibling ∈ world.db.identities other) (hsame : sibling.2.parentId = row.2.parentId) :
    sibling.2.tenantId = row.2.tenantId := by
  obtain ⟨_, hfirst⟩ := hinv.rooted kind row.1 row.2 (.inl hrow) _ hkind
  obtain ⟨_, hsecond⟩ := hinv.rooted other sibling.1 sibling.2 (.inl hsibling) _ hother
  rw [hsame] at hsecond
  have htenants := hinv.identities.unique _ _ _ hsecond hfirst
  exact (Identity.mk.inj htenants).1

/-- Assumes: the store at the start is coherent. In every configuration a row of a table of `Kind` is of the
tenant of the project or the work item it is part of, and a label that is on a work item is of its project
and its tenant. -/
theorem reachable_sameTenant (hdb : db.Coherent)
    (hreach : ReachableBy (fun request ↦ request.serve.tracked) anyStep db requests config) :
    (∀ kind parent, kind.parent = some parent → ∀ row ∈ config.db.identities kind,
      ∀ above ∈ config.db.identities parent, above.1 = row.2.parentId →
        above.2.tenantId = row.2.tenantId) ∧
      ∀ row ∈ config.db.workItemLabels, ∀ item ∈ config.db.work.workItems, item.id = row.workItemId →
        ∀ label ∈ config.db.labels, label.id = row.labelId →
          label.projectId = item.projectId ∧ label.tenantId = item.tenantId := by
  have hinv := reachable_tenantsInOrder hdb hreach
  refine ⟨fun kind parent hparent row hrow above habove hid ↦ hinv.tenantId_eq hparent hrow habove hid, ?_⟩
  intro row hrow item hitem hitemId label hlabel hlabelId
  obtain ⟨itemSeen, labelSeen, hitemSeen, hlabelSeen, hparent⟩ := hinv.linked row hrow
  have hitemRow : itemIdentity item ∈ config.db.identities .workItem := List.mem_map_of_mem hitem
  have hlabelRow : labelIdentity label ∈ config.db.identities .label := List.mem_map_of_mem hlabel
  have hsameItem : itemSeen = (itemIdentity item).2 :=
    hinv.identities.unique _ _ _ hitemSeen (.inl (hitemId ▸ hitemRow))
  have hsameLabel : labelSeen = (labelIdentity label).2 :=
    hinv.identities.unique _ _ _ hlabelSeen (.inl (hlabelId ▸ hlabelRow))
  subst hsameItem hsameLabel
  exact ⟨hparent, hinv.siblings rfl rfl hitemRow hlabelRow hparent⟩

/-- A witness: each tenant has put its label on its work item. -/
theorem reachable_sameTenant_witness :
    ((∀ kind parent, kind.parent = some parent → ∀ row ∈ crossed.db.identities kind,
      ∀ above ∈ crossed.db.identities parent, above.1 = row.2.parentId →
        above.2.tenantId = row.2.tenantId) ∧
      ∀ row ∈ crossed.db.workItemLabels, ∀ item ∈ crossed.db.work.workItems, item.id = row.workItemId →
        ∀ label ∈ crossed.db.labels, label.id = row.labelId →
          label.projectId = item.projectId ∧ label.tenantId = item.tenantId) ∧
      crossed.db.workItemLabels =
        [{ workItemId := 7, labelId := 8 }, { workItemId := 17, labelId := 18 }] :=
  ⟨reachable_sameTenant twoTenants_coherent crossed_reachableBy, by decide +kernel⟩

end RallyApi.Archive

import RallyApi.Attachments.Effects
import RallyApi.Concurrency.Outcomes
import RallyApi.Concurrency.Recorded
import RallyApi.Store.Lasting
import RallyApi.Work.CallRuns

/-!
# The limit on attachments

`presignAttachment` compares the number of completed attachments of an item with
`ATTACHMENT_MAX_PER_WORK_ITEM` and creates a pending row, which is not counted. `confirmAttachment`
completes a row and compares nothing.

`reachable_completed_le`: in every interleaving the limit holds as long as, between the count of a presign
and the confirmation of its row, no more attachments of the item are completed than the count has left room
for (`RoomLeft`). `tooManyAttachments` is a run in which an item gets one attachment more.
-/

set_option autoImplicit false
set_option relaxedAutoImplicit false

namespace RallyApi.Attachments

open Concurrency Protocol Platform Store Work CrossTenant

/-! ### The property and the condition -/

/-- A history of the attachment calls that records the stores. -/
abbrev CountedLog := RecordedLog Db AttachmentStep

/-- A run of the calls with such a history. -/
abbrev CountedRun := Config Db (RecordedStep Db AttachmentStep) Failure AttachmentResult

/-- The calls, with every step recorded. -/
def serveRecorded (request : AttachmentRequest) :
    Call Db (RecordedStep Db AttachmentStep) Failure AttachmentResult :=
  request.serve.recorded

/-- No item has more completed attachments than the limit. -/
def WithinLimit (db : Db) : Prop :=
  ∀ workItemId, db.completed workItemId ≤ ATTACHMENT_MAX_PER_WORK_ITEM

/-- The step completes an attachment of the item: a pending one that is not deleted. -/
def AttachmentStep.completesFor (workItemId : Uuid) : AttachmentStep → Bool
  | .confirm _ (some row) => row.workItemId = workItemId ∧ row.status = .pending ∧ row.deletedAt = none
  | _ => false

/-- The step creates the row with an identifier. -/
def AttachmentStep.creates (id : Uuid) : AttachmentStep → Bool
  | .create row => row.id = id
  | _ => false

/-- What has happened since the presign of a row has counted, which it does in the step before the one that
creates the row; and the store it has counted in. -/
def sinceCount (id : Uuid) : CountedLog → Option (CountedLog × Db)
  | [] => none
  | (number, step) :: earlier =>
    if step.label.creates id then sinceStep number earlier
    else (sinceCount id earlier).map fun since ↦ ((number, step) :: since.1, since.2)

/-- How many attachments of the item the history completes. -/
def completionsFor (workItemId : Uuid) (log : CountedLog) : ℕ :=
  log.countP fun entry ↦ entry.2.label.completesFor workItemId

/-- Where a step completes a row, the presign of the row has left room: since it has counted, no more
attachments of the item have been completed than there is room for beside the row. -/
def RoomLeft (earlier : CountedLog) (_ : ℕ) (step : RecordedStep Db AttachmentStep) : Prop :=
  match step.label with
  | .confirm id (some row) => row.status = .pending → row.deletedAt = none →
    ∀ since ∈ sinceCount id earlier, completionsFor row.workItemId since.1 ≤
      ATTACHMENT_MAX_PER_WORK_ITEM - 1 - since.2.completed row.workItemId
  | _ => True

instance (earlier : CountedLog) (number : ℕ) (step : RecordedStep Db AttachmentStep) :
    Decidable (RoomLeft earlier number step) := by
  unfold RoomLeft
  split <;> infer_instance

/-! ### Keys -/

/-- The identifiers of the attachments are distinct, and have been drawn. -/
structure Keyed (db : Db) : Prop where
  nodup : (db.attachments.map Attachment.id).Nodup
  drawn : ∀ row ∈ db.attachments, row.id < db.nextUuid

variable {db after : Db} {label : AttachmentStep} {id : Uuid} {row : Attachment}

theorem mem_of_attachment (hrow : db.attachment id = some row) :
    row ∈ db.attachments ∧ row.id = id :=
  ⟨List.mem_of_find?_eq_some hrow, by simpa using List.find?_some hrow⟩

/-- The row with an identifier is the only one. -/
theorem Keyed.attachment_eq (hkeyed : Keyed db) (hrow : row ∈ db.attachments) :
    db.attachment row.id = some row := by
  have hone : db.attachments.countP (fun other ↦ other.id = row.id) ≤ 1 :=
    countP_le_one_of_key hkeyed.nodup fun first _ second _ hfirst hsecond ↦ by simp_all
  cases hfound : db.attachment row.id with
  | none => simpa using List.find?_eq_none.mp hfound row hrow
  | some found =>
    obtain ⟨hmem, hid⟩ := mem_of_attachment hfound
    rw [eq_of_countP_le_one hone hmem hrow (by simpa using hid) (by simp)]

theorem Keyed.update (hkeyed : Keyed db) {set : Attachment → Attachment}
    (hset : ∀ row, (set row).id = row.id) : Keyed (db.updateAttachment id set) where
  nodup := nodup_map_updateWhere hset hkeyed.nodup
  drawn row hrow := by
    obtain ⟨old, hold, rfl⟩ := mem_updateWhere.mp hrow
    have hdrawn : old.id < db.nextUuid := hkeyed.drawn old hold
    split_ifs
    · exact hset old ▸ hdrawn
    · exact hdrawn

/-- A step keeps the identifiers distinct. -/
theorem Keyed.step (hkeyed : Keyed db) (heffect : Effect db label after) : Keyed after := by
  cases label with
  | other =>
    obtain ⟨hsame, hnext⟩ := heffect
    exact ⟨hsame ▸ hkeyed.nodup, hsame ▸ hnext ▸ hkeyed.drawn⟩
  | create row =>
    obtain ⟨hid, -, -, hrows, hnext⟩ := heffect
    refine ⟨?_, fun old hold ↦ ?_⟩
    · rw [hrows]
      refine nodup_map_append_singleton hkeyed.nodup fun hmem ↦ ?_
      obtain ⟨old, hold, hsame⟩ := List.mem_map.mp hmem
      exact (hkeyed.drawn old hold).ne (hsame.trans hid)
    · rw [hrows] at hold
      rw [hnext]
      rcases List.mem_append.mp hold with hold | hnew
      · exact (hkeyed.drawn old hold).trans (Nat.lt_succ_self _)
      · rw [List.mem_singleton.mp hnew, hid]
        exact Nat.lt_succ_self _
  | read row => exact heffect.2.2 ▸ hkeyed
  | confirm id found => exact heffect.2 ▸ hkeyed.update fun _ ↦ rfl
  | softDelete id deletedAt =>
    have hafter : after = db.updateAttachment id fun row ↦
      { row with deletedAt := some deletedAt } := heffect
    exact hafter ▸ hkeyed.update fun _ ↦ rfl
  | purge ids =>
    obtain ⟨orphan, -, rfl⟩ := heffect
    refine ⟨hkeyed.nodup.sublist (List.filter_sublist.map _), fun row hrow ↦ ?_⟩
    exact hkeyed.drawn row (mem_deleteWhere.mp hrow).1
  | append action id found =>
    obtain ⟨-, hsame, hnext⟩ := heffect
    refine ⟨hsame ▸ hkeyed.nodup, fun row hrow ↦ ?_⟩
    rw [hsame] at hrow
    exact (hkeyed.drawn row hrow).trans_le hnext

/-! ### The count -/

/-- A confirmation completes one row more at most. -/
theorem completed_confirm_le_succ (hkeyed : Keyed db) (id workItemId : Uuid) :
    (db.updateAttachment id complete).completed workItemId ≤ db.completed workItemId + 1 :=
  countP_updateWhere_le_succ (countP_le_one_of_key hkeyed.nodup fun first _ second _ hfirst hsecond ↦ by
    simp_all)

/-- Assumes: what the confirmation finds is not pending, or is deleted, or belongs to another item. It
completes no row of the item. -/
theorem completed_confirm_le (hkeyed : Keyed db) {workItemId : Uuid}
    (hfound : ∀ row, db.attachment id = some row → row.workItemId = workItemId →
      row.deletedAt = none → row.status ≠ .pending) :
    (db.updateAttachment id complete).completed workItemId ≤ db.completed workItemId := by
  refine countP_updateWhere_le fun row hrow hid hcounts ↦ ?_
  simp only [decide_eq_true_eq] at hid hcounts ⊢
  subst hid
  obtain ⟨hitem, -, hlive⟩ := hcounts
  refine ⟨hitem, ?_, hlive⟩
  have hstatus := hfound row (hkeyed.attachment_eq hrow) hitem hlive
  cases hsame : row.status with
  | pending => exact absurd hsame hstatus
  | completed => rfl

/-- A step other than a confirmation completes no row. -/
theorem completed_step_le {workItemId : Uuid} (hlabel : ∀ id found, label ≠ .confirm id found)
    (heffect : Effect db label after) : after.completed workItemId ≤ db.completed workItemId := by
  cases label with
  | other => exact Nat.le_of_eq (by rw [Db.completed, heffect.1, Db.completed])
  | create row =>
    obtain ⟨-, hpending, -, hrows, -⟩ := heffect
    have hnot : ¬ CountsFor workItemId row := fun hcounts ↦ by simp [hcounts.2.1] at hpending
    simp [Db.completed, hrows, List.countP_append, hnot]
  | read row => exact Nat.le_of_eq (by rw [heffect.2.2])
  | confirm id found => exact absurd rfl (hlabel id found)
  | softDelete id deletedAt =>
    have hafter : after = db.updateAttachment id fun row ↦
      { row with deletedAt := some deletedAt } := heffect
    rw [hafter]
    exact countP_updateWhere_le fun row _ _ hcounts ↦ by simp [CountsFor] at hcounts
  | purge ids =>
    obtain ⟨orphan, -, rfl⟩ := heffect
    exact List.filter_sublist.countP_le
  | append action id found => exact Nat.le_of_eq (by rw [Db.completed, heffect.2.1, Db.completed])

/-! ### Items -/

/-- A later version of an item: it keeps its identifier and its tenant. -/
def SameItem (row later : WorkItem) : Prop := later.id = row.id ∧ later.tenantId = row.tenantId

theorem sameItem_refl (row : WorkItem) : SameItem row row := ⟨rfl, rfl⟩

/-- The work store after a step: its items are still there, and their identifiers still distinct. -/
structure KeepsItems (work after : Work.Db) : Prop where
  lasts : Lasts SameItem work.workItems after.workItems
  nodup : (work.workItems.map WorkItem.id).Nodup → (after.workItems.map WorkItem.id).Nodup

theorem keepsItems_refl (work : Work.Db) : KeepsItems work work :=
  ⟨lasts_refl sameItem_refl work.workItems, id⟩

/-- A step of the work services keeps the items. -/
theorem keepsItems_of_effect {work later : Work.Db} {step : WorkStep}
    (heffect : Work.Effect work step later) : KeepsItems work later := by
  refine ⟨?_, fun hids ↦ nodup_workItems_step hids heffect⟩
  by_cases hwrites : .workItems ∈ step.writes
  · cases step <;> simp only [WorkStep.writes, List.mem_cons, List.not_mem_nil, reduceCtorEq,
      or_self] at hwrites
    case createWorkItem item =>
      obtain ⟨-, _, _, _, rfl⟩ := heffect
      exact lasts_append sameItem_refl _
    case updateWorkItem snapshot input =>
      obtain ⟨_, _, hcommit⟩ := heffect
      obtain ⟨_, _, rfl, -⟩ := commitUpdate_ok hcommit
      exact lasts_updateWhere sameItem_refl fun _ _ _ ↦ ⟨rfl, rfl⟩
    case deleteWorkItem id =>
      obtain rfl := heffect
      exact lasts_updateWhere sameItem_refl fun _ _ _ ↦ ⟨rfl, rfl⟩
    case carryOver id target =>
      obtain ⟨_, _, rfl⟩ := heffect
      exact lasts_updateWhere sameItem_refl fun _ _ _ ↦ ⟨rfl, rfl⟩
  · rw [heffect.frame.workItems hwrites]
    exact lasts_refl sameItem_refl _

/-- The item with an identifier is of a tenant. -/
def ItemOf (workItemId tenantId : Uuid) (db : Db) : Prop :=
  ∃ item ∈ db.work.workItems, item.id = workItemId ∧ item.tenantId = tenantId

theorem ItemOf.step {workItemId tenantId : Uuid} (hitem : ItemOf workItemId tenantId db)
    (hkeeps : KeepsItems db.work after.work) : ItemOf workItemId tenantId after := by
  obtain ⟨item, hmem, rfl, rfl⟩ := hitem
  obtain ⟨later, hlater, hid, htenant⟩ := hkeeps.lasts item hmem
  exact ⟨later, hlater, hid, htenant⟩

/-- Every attachment is of an item of its tenant, and item identifiers are distinct. -/
structure AtHome (db : Db) : Prop where
  items : (db.work.workItems.map WorkItem.id).Nodup
  home : ∀ row ∈ db.attachments, ItemOf row.workItemId row.tenantId db

/-- The count of a presign in the tenant of the item is that of the item. -/
theorem AtHome.completed_eq (hhome : AtHome db) {workItemId tenantId : Uuid}
    (hitem : ItemOf workItemId tenantId db) :
    (db.attachments.countP fun row ↦ CountsFor workItemId row ∧ row.tenantId = tenantId) =
      db.completed workItemId := by
  refine List.countP_congr fun row hrow ↦ ?_
  simp only [decide_eq_true_eq]
  refine ⟨fun hboth ↦ hboth.1, fun hcounts ↦ ⟨hcounts, ?_⟩⟩
  obtain ⟨item, hmem, hid, htenant⟩ := hitem
  obtain ⟨other, hother, hotherId, hotherTenant⟩ := hhome.home row hrow
  have hsame : other.id = item.id := hotherId.trans (hcounts.1.trans hid.symm)
  rw [← hotherTenant, ← htenant, List.inj_on_of_nodup_map hhome.items hother hmem hsame]

/-! ### What the presigns have counted -/

/-- The number of attachments of the item is at most what was counted below the limit, and what has been
completed since. -/
def CountedBelow (workItemId : Uuid) (db : Db) (since : CountedLog × Db) : Prop :=
  since.2.completed workItemId < ATTACHMENT_MAX_PER_WORK_ITEM ∧
    db.completed workItemId ≤ since.2.completed workItemId + completionsFor workItemId since.1

/-- The invariant: keys are in order, attachments are at home, the limit holds as long as presigns leave
room, and the presign of every pending row has counted below the limit. -/
structure Counted (world : World Db (RecordedStep Db AttachmentStep)) : Prop where
  keyed : Keyed world.db
  home : AtHome world.db
  limit : EachStep RoomLeft world.log → WithinLimit world.db
  presigned : ∀ row ∈ world.db.attachments, row.status = .pending → row.deletedAt = none →
    ∃ since, sinceCount row.id world.log = some since ∧ CountedBelow row.workItemId world.db since

/-- A step does to the attachments what its label says, and keeps the items. -/
def Does (db : Db) (label : AttachmentStep) (after : Db) : Prop :=
  Effect db label after ∧ KeepsItems db.work after.work

/-- The protocol of the calls that presign, confirm and delete attachments. -/
def counting : Protocol Db (RecordedStep Db AttachmentStep) where
  permits := anyStep
  invariant := Counted
  guarantee _ world step after := step.found = world.db ∧ Does world.db step.label after

variable {world : World Db (RecordedStep Db AttachmentStep)} {taken : RecordedStep Db AttachmentStep}
  {number other : ℕ} {workItemId tenantId : Uuid} {since : CountedLog × Db}

/-- A step completes one attachment of an item at most, and none if its label does not say so. -/
theorem completed_le_of_effect (hkeyed : Keyed db) (heffect : Effect db label after) (workItemId : Uuid) :
    after.completed workItemId ≤
      db.completed workItemId + if label.completesFor workItemId then 1 else 0 := by
  by_cases hconfirms : ∃ id found, label = .confirm id found
  · obtain ⟨id, found, rfl⟩ := hconfirms
    obtain ⟨rfl, rfl⟩ := heffect
    split_ifs with hcompletes
    · exact completed_confirm_le_succ hkeyed id workItemId
    · refine completed_confirm_le hkeyed fun row hfound hitem hlive hpending ↦ hcompletes ?_
      rw [hfound]
      exact decide_eq_true ⟨hitem, hpending, hlive⟩
  · exact (completed_step_le (fun id found hlabel ↦ hconfirms ⟨id, found, hlabel⟩) heffect).trans
      (Nat.le_add_right _ _)

theorem CountedBelow.step (hbelow : CountedBelow workItemId db since) (hkeyed : Keyed db)
    (heffect : Effect db taken.label after) :
    CountedBelow workItemId after ((number, taken) :: since.1, since.2) := by
  refine ⟨hbelow.1, ?_⟩
  have hone := completed_le_of_effect hkeyed heffect workItemId
  have hbound := hbelow.2
  simp only [completionsFor, List.countP_cons] at hbound ⊢
  omega

/-- A row after a step: the step creates it, or it was there before, for the same item of the same tenant,
and it is pending and not deleted only if it was. -/
theorem Effect.mem_attachments (heffect : Effect db label after) (hrow : row ∈ after.attachments) :
    label = .create row ∨ ∃ old ∈ db.attachments, old.id = row.id ∧ old.workItemId = row.workItemId ∧
      old.tenantId = row.tenantId ∧ (row.status = .pending → row.deletedAt = none →
        old.status = .pending ∧ old.deletedAt = none) := by
  have hkept : row ∈ db.attachments → ∃ old ∈ db.attachments, old.id = row.id ∧
      old.workItemId = row.workItemId ∧ old.tenantId = row.tenantId ∧
      (row.status = .pending → row.deletedAt = none → old.status = .pending ∧ old.deletedAt = none) :=
    fun hold ↦ ⟨row, hold, rfl, rfl, rfl, fun hpending hlive ↦ ⟨hpending, hlive⟩⟩
  cases label with
  | other => exact .inr (hkept (heffect.1 ▸ hrow))
  | create created =>
    rw [heffect.2.2.2.1] at hrow
    rcases List.mem_append.mp hrow with hold | hnew
    · exact .inr (hkept hold)
    · exact .inl (congrArg _ (List.mem_singleton.mp hnew).symm)
  | read found => exact .inr (hkept (heffect.2.2 ▸ hrow))
  | confirm id found =>
    rw [heffect.2] at hrow
    obtain ⟨old, hold, rfl⟩ := mem_updateWhere.mp hrow
    refine .inr ⟨old, hold, ?_⟩
    split_ifs
    · exact ⟨rfl, rfl, rfl, fun hpending ↦ by cases hpending⟩
    · exact ⟨rfl, rfl, rfl, fun hpending hlive ↦ ⟨hpending, hlive⟩⟩
  | softDelete id deletedAt =>
    have hafter : after = db.updateAttachment id fun row ↦
      { row with deletedAt := some deletedAt } := heffect
    rw [hafter] at hrow
    obtain ⟨old, hold, rfl⟩ := mem_updateWhere.mp hrow
    refine .inr ⟨old, hold, ?_⟩
    split_ifs
    · exact ⟨rfl, rfl, rfl, fun _ hlive ↦ by cases hlive⟩
    · exact ⟨rfl, rfl, rfl, fun hpending hlive ↦ ⟨hpending, hlive⟩⟩
  | purge ids =>
    obtain ⟨orphan, -, rfl⟩ := heffect
    exact .inr (hkept (mem_deleteWhere.mp hrow).1)
  | append action id found => exact .inr (hkept (heffect.2.1 ▸ hrow))

/-- A step keeps the attachments at home. Assumes: a row is created for an item of its tenant. -/
theorem AtHome.step (hhome : AtHome db) (hdoes : Does db label after)
    (hcreate : ∀ row, label = .create row → ItemOf row.workItemId row.tenantId db) : AtHome after where
  items := hdoes.2.nodup hhome.items
  home row hrow := by
    rcases hdoes.1.mem_attachments hrow with hlabel | ⟨old, hold, -, hitem, htenant, -⟩
    · exact (hcreate row hlabel).step hdoes.2
    · exact hitem ▸ htenant ▸ (hhome.home old hold).step hdoes.2

/-- The row that a step completes: it is in the table, pending and not deleted. -/
theorem confirmed_of_completes (heffect : Effect db label after)
    (hcompletes : label.completesFor workItemId = true) :
    ∃ row ∈ db.attachments, label = .confirm row.id (some row) ∧ row.workItemId = workItemId ∧
      row.status = .pending ∧ row.deletedAt = none := by
  cases label with
  | confirm id found =>
    cases found with
    | none => cases hcompletes
    | some row =>
      obtain ⟨hmem, rfl⟩ := mem_of_attachment heffect.1.symm
      exact ⟨row, hmem, rfl, of_decide_eq_true hcompletes⟩
  | other | create | read | softDelete | purge | append => cases hcompletes

/-- Assumes: a step that keeps to the protocol, and to the limit as long as presigns leave room; and where
it creates a row, its call has found the item and has counted below the limit in its step before. It keeps
the invariant. -/
theorem Counted.step (hinv : Counted world) (hdoes : Does world.db taken.label after)
    (hcreate : ∀ row, taken.label = .create row → ItemOf row.workItemId row.tenantId world.db ∧
      ∃ since, sinceStep number world.log = some since ∧ CountedBelow row.workItemId world.db since) :
    Counted (world.after number taken after) where
  keyed := hinv.keyed.step hdoes.1
  home := hinv.home.step hdoes fun row hlabel ↦ (hcreate row hlabel).1
  limit heach workItemId := by
    change after.completed workItemId ≤ ATTACHMENT_MAX_PER_WORK_ITEM
    have hone := completed_le_of_effect hinv.keyed hdoes.1 workItemId
    have hlimit : world.db.completed workItemId ≤ ATTACHMENT_MAX_PER_WORK_ITEM := hinv.limit heach.2 workItemId
    by_cases hcompletes : taken.label.completesFor workItemId = true
    · obtain ⟨row, hrow, hlabel, hitem, hpending, hlive⟩ := confirmed_of_completes hdoes.1 hcompletes
      obtain ⟨since, hsince, hbelow, hbound⟩ := hinv.presigned row hrow hpending hlive
      have hroom : RoomLeft world.log number taken := heach.1
      rw [RoomLeft, hlabel] at hroom
      have hleft := hroom hpending hlive since hsince
      rw [hitem] at hbelow hbound hleft
      rw [if_pos hcompletes] at hone
      omega
    · rw [if_neg hcompletes] at hone
      exact hone.trans hlimit
  presigned row hrow hpending hlive := by
    rcases hdoes.1.mem_attachments hrow with hlabel | ⟨old, hold, hid, hitem, -, hbefore⟩
    · obtain ⟨since, hsince, hbelow⟩ := (hcreate row hlabel).2
      refine ⟨since, ?_, ?_⟩
      · simp only [World.after, sinceCount, hlabel, AttachmentStep.creates, decide_true, if_true, hsince]
      · refine ⟨hbelow.1, ?_⟩
        exact (completed_step_le (by simp [hlabel]) hdoes.1).trans hbelow.2
    · obtain ⟨hpendingOld, hliveOld⟩ := hbefore hpending hlive
      obtain ⟨since, hsince, hbelow⟩ := hinv.presigned old hold hpendingOld hliveOld
      refine ⟨((number, taken) :: since.1, since.2), ?_, hitem ▸ hbelow.step hinv.keyed hdoes.1⟩
      have hother : taken.label.creates old.id = false := by
        cases hlabel : taken.label with
        | create created =>
          have hdoes' := hdoes.1
          rw [hlabel] at hdoes'
          have hdrawn := hinv.keyed.drawn old hold
          exact decide_eq_false (by rw [hdoes'.1]; exact hdrawn.ne')
        | _ => rfl
      rw [← hid, World.after, sinceCount, hother, if_neg (by simp), hsince, Option.map_some]

/-! ### The calls -/

variable {α : Type}

/-- A step that keeps the items and creates no attachment. -/
def Idle (before : Db) (label : AttachmentStep) (after : Db) : Prop :=
  KeepsItems before.work after.work ∧ ∀ row, label ≠ .create row

/-- A step that leaves the work store as it is. -/
theorem idle_of_eq (hwork : after.work = db.work) (hlabel : ∀ row, label ≠ .create row) :
    Idle db label after :=
  ⟨hwork ▸ keepsItems_refl db.work, hlabel⟩

@[simp]
theorem idle_refl (db : Db) (hlabel : ∀ row, label ≠ .create row) : Idle db label db := idle_of_eq rfl hlabel

theorem ofWork_idle {call : WorkCall α} (hcall : call.Only Work.Effect) : (ofWork call).Only Idle :=
  hcall.within fun _ _ _ heffect ↦ ⟨keepsItems_of_effect heffect, by simp⟩

@[simp]
theorem getWorkItem_idle (tenantId id : Uuid) : (ofWork (getWorkItem tenantId id)).Only Idle :=
  ofWork_idle (effect_of_reads (getWorkItem_reads tenantId id))

/-- One step that leaves the work store as it is. -/
theorem atomically_idle {label : Db → AttachmentStep} {statement : Db → α × Db}
    (hlabel : ∀ db row, label db ≠ .create row) (hwork : ∀ db, (statement db).2.work = db.work) :
    (Call.atomically label statement : AttachmentCall α).Only Idle :=
  (Call.only_atomically _ _).mpr fun db ↦ idle_of_eq (hwork db) (hlabel db)

theorem findAttachment_idle (actor : Actor) (workItemId attachmentId : Uuid) :
    (findAttachment actor workItemId attachmentId).Only Idle := by
  refine Call.only_bind.mpr ⟨atomically_idle (fun db row ↦ ?_) fun _ ↦ rfl, fun _ _ ↦ Call.only_require _ _⟩
  cases db.liveAttachment attachmentId actor.tenantId <;> simp

theorem deleteObject_idle (answers : Bool) (key : String) : (deleteObject answers key).Only Idle :=
  atomically_idle (by simp) fun _ ↦ by cases answers <;> rfl

theorem detached_idle {runs : Bool} {call : AttachmentCall Unit} (hcall : call.Only Idle) :
    (detached runs call).Only Idle := by
  cases runs
  · exact trivial
  · exact hcall

theorem append_idle (actor : Actor) (item : WorkItem) (attachment : Attachment) (action : AttachmentAction) :
    (append actor item attachment action).Only Idle := atomically_idle (by simp) fun _ ↦ rfl

theorem softDelete_idle (id : Uuid) : (softDelete id).Only Idle := atomically_idle (by simp) fun _ ↦ rfl

theorem confirmAttachment_idle (weather : Weather) (actor : Actor) (workItemId attachmentId : Uuid) :
    (confirmAttachment weather actor workItemId attachmentId).Only Idle := by
  refine Call.only_bind.mpr ⟨getWorkItem_idle _ _, fun item _ ↦ ?_⟩
  refine Call.only_bind.mpr ⟨findAttachment_idle _ _ _, fun attachment _ ↦ ?_⟩
  refine Call.only_bind.mpr ⟨Call.only_ensure _ _, fun _ _ ↦ ?_⟩
  refine Call.only_bind.mpr ⟨(Call.only_query _ _).mpr fun _ ↦ by simp, fun head _ ↦ ?_⟩
  refine Call.only_bind.mpr ⟨Call.only_require _ _, fun contentLength _ ↦ ?_⟩
  unfold confirmUploaded
  split_ifs
  · exact Call.only_bind.mpr ⟨detached_idle (softDelete_idle _), fun _ _ ↦ trivial⟩
  · refine Call.only_bind.mpr ⟨atomically_idle (by simp) fun _ ↦ rfl, fun confirmed _ ↦ ?_⟩
    exact Call.only_bind.mpr ⟨detached_idle (append_idle _ _ _ _), fun _ _ ↦ trivial⟩

theorem deleteAttachment_idle (weather : Weather) (actor : Actor) (isAdmin : Bool)
    (workItemId attachmentId : Uuid) :
    (deleteAttachment weather actor isAdmin workItemId attachmentId).Only Idle := by
  refine Call.only_bind.mpr ⟨getWorkItem_idle _ _, fun item _ ↦ ?_⟩
  refine Call.only_bind.mpr ⟨findAttachment_idle _ _ _, fun attachment _ ↦ ?_⟩
  refine Call.only_bind.mpr ⟨Call.only_ensure _ _, fun _ _ ↦ ?_⟩
  refine Call.only_bind.mpr ⟨softDelete_idle _, fun _ _ ↦ ?_⟩
  exact Call.only_bind.mpr ⟨deleteObject_idle _ _, fun _ _ ↦ detached_idle (append_idle _ _ _ _)⟩

theorem deleteObjects_idle (answers : Bool) (rows : List Attachment) :
    (deleteObjects answers rows).Only Idle := by
  induction rows with
  | nil => trivial
  | cons row rest ih => exact Call.only_bind.mpr ⟨deleteObject_idle answers row.storageKey, fun _ _ ↦ ih⟩

/-- Only `presignAttachment` creates attachments. -/
theorem serve_idle (request : AttachmentRequest) :
    (∃ presignPut actor workItemId input,
      request = .presignAttachment presignPut actor workItemId input) ∨ request.serve.Only Idle := by
  cases request with
  | presignAttachment presignPut actor workItemId input =>
    exact .inl ⟨presignPut, actor, workItemId, input, rfl⟩
  | upload object => exact .inr (Call.only_map (atomically_idle (by simp) fun _ ↦ rfl))
  | confirmAttachment weather actor workItemId attachmentId =>
    exact .inr (Call.only_map (confirmAttachment_idle weather actor workItemId attachmentId))
  | deleteAttachment weather actor isAdmin workItemId attachmentId =>
    exact .inr (Call.only_map (deleteAttachment_idle weather actor isAdmin workItemId attachmentId))
  | purgeStaleData answers =>
    exact .inr (Call.only_map (Call.only_bind.mpr
      ⟨atomically_idle (by simp) fun _ ↦ rfl, fun orphans _ ↦ deleteObjects_idle answers orphans⟩))
  | work request => exact .inr (Call.only_map (ofWork_idle (Work.serve_effect request)))

/-- A call that creates no attachment keeps the protocol. -/
theorem idle_meets {call : AttachmentCall α} {fact : World Db (RecordedStep Db AttachmentStep) → Prop}
    (heffect : call.Only Effect) (hidle : call.Only Idle) (hfact : counting.Persistent fact) :
    counting.Meets number call.recorded fact fun _ ↦ fact := by
  have hrecorded : call.recorded.Only fun db taken after ↦
      taken.found = db ∧ Effect db taken.label after ∧ Idle db taken.label after :=
    (heffect.and hidle).traced fun _ _ _ hboth ↦ ⟨rfl, hboth⟩
  refine meets_of_only hrecorded hfact.stable fun world taken after hinv hholds _ hstep ↦ ?_
  obtain ⟨hfound, hsaid, hkeeps, hlabel⟩ := hstep
  have hdoes : Does world.db taken.label after := ⟨hsaid, hkeeps⟩
  have hguarantee : counting.guarantee number world taken after := ⟨hfound, hdoes⟩
  exact ⟨⟨hguarantee, hinv.step hdoes fun row hcreated ↦ absurd hcreated (hlabel row)⟩,
    hfact number world taken after hinv hholds hguarantee⟩

theorem itemOf_persistent (workItemId tenantId : Uuid) :
    counting.Persistent fun world ↦ ItemOf workItemId tenantId world.db :=
  fun _ _ _ _ _ hitem hstep ↦ hitem.step hstep.2.2

/-- What a call knows after it has counted: since its last step the limit has been kept but for what has
been completed. -/
def HasCounted (number : ℕ) (workItemId : Uuid) (world : World Db (RecordedStep Db AttachmentStep)) : Prop :=
  ∃ since, sinceStep number world.log = some since ∧ CountedBelow workItemId world.db since

theorem hasCounted_stable (number : ℕ) (workItemId : Uuid) :
    counting.Stable number (HasCounted number workItemId) := by
  rintro other hne world taken after hinv ⟨since, hsince, hbelow⟩ ⟨-, hdoes⟩
  exact ⟨_, sinceStep_of_ne hne taken hsince, hbelow.step hinv.keyed hdoes.1⟩

theorem getWorkItem_meets (tenantId id : Uuid) :
    counting.Meets number (ofWork (getWorkItem tenantId id)).recorded (fun _ ↦ True)
      fun _ world ↦ ItemOf id tenantId world.db := by
  have hfind : counting.Meets number (ofWork (findWorkItemById id)).recorded (fun _ ↦ True)
      fun found world ↦ ∀ item, found = some item → ItemOf id item.tenantId world.db := by
    rw [ofWork, findWorkItemById, Call.within_query]
    refine meets_traced_query stable_true fun world hinv _ ↦ ?_
    have hdoes : Does world.db .other world.db := ⟨effect_other_refl _, keepsItems_refl _⟩
    refine ⟨⟨⟨rfl, hdoes⟩, hinv.step hdoes (by simp)⟩, fun item hfound ↦ ?_⟩
    have hmatches := List.find?_some hfound
    simp only [decide_eq_true_eq] at hmatches
    exact ⟨item, List.mem_of_find?_eq_some hfound, hmatches.1, rfl⟩
  rw [ofWork, getWorkItem, Call.within_bind, Call.recorded_bind]
  refine hfind.bind fun found _ ↦ ?_
  rw [Call.within_bind, Call.within_require, Call.recorded_bind, Call.recorded_require]
  refine meets_require.bind fun item _ ↦ ?_
  rw [Call.within_bind, Call.within_ensure, Call.recorded_bind, Call.recorded_ensure]
  refine meets_ensure.bind fun _ _ ↦ meets_pure fun world _ hholds ↦ ?_
  obtain ⟨⟨hitem, hfound⟩, htenant⟩ := hholds
  exact htenant ▸ hitem item hfound

/-- What the count of a presign is known to have found. -/
theorem countByWorkItem_meets (workItemId tenantId : Uuid) :
    counting.Meets number (countByWorkItem workItemId tenantId).recorded
      (fun world ↦ ItemOf workItemId tenantId world.db)
      fun current world ↦ (current < ATTACHMENT_MAX_PER_WORK_ITEM → HasCounted number workItemId world) ∧
        ItemOf workItemId tenantId world.db := by
  refine meets_traced_query (itemOf_persistent _ _).stable fun world hinv hitem ↦ ?_
  have hdoes : Does world.db .other world.db := ⟨effect_other_refl _, keepsItems_refl _⟩
  refine ⟨⟨⟨rfl, hdoes⟩, hinv.step hdoes (by simp)⟩, fun hbelow ↦ ⟨_, sinceStep_self .., ?_, ?_⟩, hitem⟩
  · rwa [hinv.home.completed_eq hitem] at hbelow
  · exact Nat.le_add_right _ _

/-- The row of a presign that has counted below the limit may be created. -/
theorem create_meets (tenantId workItemId uploadedBy : Uuid) (filename mimeType : String) (sizeBytes : ℕ)
    (storageKey : Uuid → String) :
    counting.Meets number
      (create tenantId workItemId uploadedBy filename mimeType sizeBytes storageKey).recorded
      (fun world ↦ HasCounted number workItemId world ∧ ItemOf workItemId tenantId world.db)
      fun _ _ ↦ True := by
  have hstable : counting.Stable number fun world ↦
      HasCounted number workItemId world ∧ ItemOf workItemId tenantId world.db :=
    (hasCounted_stable _ _).and (itemOf_persistent _ _).stable
  refine meets_traced_attempt hstable (fun world failure hinv hholds hfailed ↦ ?_)
    fun world value after hinv hholds _ hok ↦ ?_
  · dsimp only at hfailed ⊢
    split_ifs at hfailed ⊢
    have hdoes : Does world.db .other world.db := ⟨effect_other_refl _, keepsItems_refl _⟩
    exact ⟨⟨rfl, hdoes⟩, hinv.step hdoes (by simp)⟩
  · dsimp only at hok ⊢
    split_ifs at hok ⊢
    obtain ⟨-, rfl⟩ := Prod.mk.inj (Except.ok.inj hok)
    refine ⟨⟨⟨rfl, ?_⟩, hinv.step ?_ fun row hrow ↦ ?_⟩, trivial⟩
    · exact ⟨⟨rfl, rfl, rfl, rfl, rfl⟩, keepsItems_refl _⟩
    · exact ⟨⟨rfl, rfl, rfl, rfl, rfl⟩, keepsItems_refl _⟩
    · obtain rfl := AttachmentStep.create.inj hrow
      exact ⟨hholds.2, hholds.1⟩

theorem presignAttachment_meets (presignPut : String → Except Failure String) (actor : Actor)
    (workItemId : Uuid) (input : PresignInput) :
    counting.Meets number (presignAttachment presignPut actor workItemId input).recorded (fun _ ↦ True)
      fun _ _ ↦ True := by
  rw [presignAttachment, Call.recorded_bind]
  refine (getWorkItem_meets actor.tenantId workItemId).bind fun _ _ ↦ ?_
  rw [Call.recorded_bind, Call.recorded_ensure]
  refine meets_ensure.bind fun _ _ ↦ ?_
  rw [Call.recorded_bind, Call.recorded_ensure]
  refine meets_ensure.bind fun _ _ ↦ ?_
  rw [Call.recorded_bind]
  refine ((countByWorkItem_meets workItemId actor.tenantId).strengthen fun _ _ hholds ↦ hholds.1.1).bind
    fun current _ ↦ ?_
  rw [Call.recorded_bind, Call.recorded_ensure]
  refine meets_ensure.bind fun _ _ ↦ ?_
  rw [Call.recorded_bind]
  refine ((create_meets ..).strengthen fun _ _ hholds ↦ ⟨hholds.1.1 hholds.2, hholds.1.2⟩).bind
    fun attachment _ ↦ ?_
  cases presignPut attachment.storageKey with
  | ok uploadUrl => exact meets_pure fun _ _ _ ↦ trivial
  | error failure => trivial

/-- Every call keeps the protocol. -/
theorem serve_meets_counting (request : AttachmentRequest) (number : ℕ) :
    counting.Meets number (serveRecorded request) (Fresh number) fun _ _ ↦ True := by
  have hmeets : counting.Meets number request.serve.recorded (fun _ ↦ True) fun _ _ ↦ True := by
    rcases serve_idle request with ⟨presignPut, actor, workItemId, input, rfl⟩ | hidle
    · rw [AttachmentRequest.serve, Call.recorded, Call.traced_map]
      exact (presignAttachment_meets presignPut actor workItemId input).map
    · exact idle_meets (serve_effect request) hidle (persistent_const True)
  exact hmeets.strengthen fun _ _ _ ↦ trivial

/-- Assumes: at the start attachment identifiers are distinct and drawn, attachments are of items of their
tenant, none is pending and no item is above the limit; and between the count of a presign and the
confirmation of its row no more attachments of the item are completed than the count has left room for. In
every interleaving of the calls, no item is ever above the limit. -/
theorem reachable_completed_le {config : CountedRun} (hkeyed : Keyed db) (hhome : AtHome db)
    (hcompleted : ∀ row ∈ db.attachments, row.status = .completed) (hlimit : WithinLimit db)
    (hreach : Reachable serveRecorded anyStep db config) (hroom : EachStep RoomLeft config.log) :
    WithinLimit config.db := by
  have hinitial : Counted (⟨db, []⟩ : World Db (RecordedStep Db AttachmentStep)) :=
    { keyed := hkeyed
      home := hhome
      limit := fun _ ↦ hlimit
      presigned := fun row hrow hpending ↦ by
        rw [hcompleted row hrow] at hpending
        cases hpending }
  exact (counting.reachable_invariant serve_meets_counting hinitial hreach).limit hroom

/-! ### Runs -/

/-- A completed attachment of the item 7. -/
def picture (id : ℕ) : Attachment :=
  { id, tenantId := 2, workItemId := 7, uploadedBy := 4, filename := "screen.png"
    mimeType := "image/png", sizeBytes := 1000, storageKey := "2/7/" ++ toString id ++ ".png"
    status := .completed, createdAt := 0 }

/-- A store with the item 7 and so many completed attachments. -/
def withPictures (number : ℕ) : Db where
  work := { workItems := [{ id := 7, tenantId := 2, projectId := 5, itemKey := "APP-1", type := .story
                            title := "Sign in", statusId := 6, createdBy := 4, createdAt := 0 }] }
  attachments := (List.range number).map picture
  nextUuid := number

/-- A member of the tenant of the item. -/
def uploader : Actor := { sub := 4, tenantId := 2 }

/-- `presignAttachment`, of a picture. -/
def presignPicture : AttachmentRequest :=
  .presignAttachment (fun key ↦ .ok key) uploader 7 ⟨"screen.png", "image/png", 1000⟩

/-- The file of a picture is uploaded. -/
def uploadPicture (id : ℕ) : AttachmentRequest := .upload ⟨(picture id).storageKey, 1000⟩

/-- `confirmAttachment`, when everything works. -/
def confirmPicture (id : ℕ) : AttachmentRequest := .confirmAttachment {} uploader 7 id

/-- The choices that serve requests one after the other. -/
def oneByOne (requests : List AttachmentRequest) : List (Choice AttachmentRequest) :=
  requests.zipIdx.flatMap fun entry ↦ .start entry.1 :: finish entry.2

/-- Requests are served one after the other, with every step recorded. -/
def recordAll (db : Db) (requests : List AttachmentRequest) : CountedRun :=
  (Config.initial db).play serveRecorded (oneByOne requests)

theorem keyed_withPictures (number : ℕ) : Keyed (withPictures number) where
  nodup := by
    rw [withPictures, List.map_map]
    exact (List.map_id' (List.range number)).symm ▸ List.nodup_range
  drawn row hrow := by
    obtain ⟨id, hid, rfl⟩ := List.mem_map.mp hrow
    exact List.mem_range.mp hid

theorem atHome_withPictures (number : ℕ) : AtHome (withPictures number) where
  items := by simp [withPictures]
  home row hrow := by
    obtain ⟨id, -, rfl⟩ := List.mem_map.mp hrow
    exact ⟨_, List.mem_singleton_self _, rfl, rfl⟩

theorem completed_withPictures (number : ℕ) :
    ∀ row ∈ (withPictures number).attachments, row.status = .completed := by
  intro row hrow
  obtain ⟨id, -, rfl⟩ := List.mem_map.mp hrow
  rfl

/-- An item with few attachments is below the limit. -/
theorem withinLimit_withPictures {number : ℕ} (hfew : number ≤ ATTACHMENT_MAX_PER_WORK_ITEM) :
    WithinLimit (withPictures number) := fun workItemId ↦ by
  refine (List.countP_le_length (l := (withPictures number).attachments)).trans ?_
  simpa [withPictures] using hfew

/-- A witness that the condition can be met: two attachments are presigned while there is room for both, and
both are confirmed. -/
theorem reachable_completed_le_witness :
    WithinLimit (recordAll (withPictures 23)
      [presignPicture, presignPicture, uploadPicture 23, uploadPicture 24, confirmPicture 23,
        confirmPicture 24]).db :=
  reachable_completed_le (keyed_withPictures 23) (atHome_withPictures 23) (completed_withPictures 23)
    (withinLimit_withPictures (by decide)) (play_reachable (allowsAll_anyStep _ _)) (by decide +kernel)

/-- Two more attachments are presigned while the item is below the limit, and then both are confirmed. -/
def tooManyRun : CountedRun :=
  recordAll (withPictures 24)
    [presignPicture, presignPicture, uploadPicture 24, uploadPicture 25, confirmPicture 24,
      confirmPicture 25]

/-- Without the condition an item can have more attachments than the limit. -/
theorem tooManyAttachments :
    ¬ ∀ (db : Db) (config : CountedRun), Keyed db → AtHome db →
      (∀ row ∈ db.attachments, row.status = .completed) → WithinLimit db →
        Reachable serveRecorded anyStep db config → WithinLimit config.db := by
  intro halways
  have hlimit := halways (withPictures 24) tooManyRun (keyed_withPictures 24) (atHome_withPictures 24)
    (completed_withPictures 24) (withinLimit_withPictures (by decide))
    (play_reachable (allowsAll_anyStep _ _)) 7
  exact absurd hlimit (by decide +kernel)

end RallyApi.Attachments

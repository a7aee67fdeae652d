import RallyApi.Attachments.Limit
import RallyApi.Concurrency.Outcomes

/-!
# The life of an attachment

`confirmAttachment` reads a pending row, asks the object store for its size, and then updates the row with
that identifier, whatever has become of it; it records the upload in a promise of its own. In between the
row may be deleted, purged or confirmed by another call.

`reachable_lifecycle`: in every interleaving in which no other call writes the row of a confirmation between
the moment it reads the row and the last step it takes on it, a confirmation that returns has found the row
pending and not deleted and returns it completed, and uploads are recorded for rows that are there. That a
row is completed once at most needs no condition (`completions_le_one`). `confirmedDeleted` is a run in
which a row is deleted in between.
-/

set_option autoImplicit false
set_option relaxedAutoImplicit false

namespace RallyApi.Attachments

open Concurrency Protocol Platform Store Work CrossTenant

/-! ### The property and the condition -/

/-- The history of a run. -/
abbrev AttachmentLog := List (ℕ × AttachmentStep)

/-- The step writes the row with an identifier, which is there already. -/
def AttachmentStep.Writes (id : Uuid) : AttachmentStep → Prop
  | .confirm written _ => written = id
  | .softDelete written _ => written = id
  | .purge ids => id ∈ ids
  | _ => False

/-- The row that a confirmation completes with the step, or whose upload it records. -/
def AttachmentStep.uses : AttachmentStep → Option Uuid
  | .confirm id _ => some id
  | .append .uploaded id _ => some id
  | _ => none

/-- The step reads the row with an identifier. -/
def AttachmentStep.Reads (id : Uuid) : AttachmentStep → Prop
  | .read row => row.id = id
  | _ => False

instance (id : Uuid) : (step : AttachmentStep) → Decidable (step.Writes id)
  | .confirm written _ => inferInstanceAs (Decidable (written = id))
  | .softDelete written _ => inferInstanceAs (Decidable (written = id))
  | .purge ids => inferInstanceAs (Decidable (id ∈ ids))
  | .other => .isFalse fun h ↦ h
  | .create _ => .isFalse fun h ↦ h
  | .read _ => .isFalse fun h ↦ h
  | .append _ _ _ => .isFalse fun h ↦ h

instance (id : Uuid) : (step : AttachmentStep) → Decidable (step.Reads id)
  | .read row => inferInstanceAs (Decidable (row.id = id))
  | .other => .isFalse fun h ↦ h
  | .create _ => .isFalse fun h ↦ h
  | .confirm _ _ => .isFalse fun h ↦ h
  | .softDelete _ _ => .isFalse fun h ↦ h
  | .purge _ => .isFalse fun h ↦ h
  | .append _ _ _ => .isFalse fun h ↦ h

/-- The steps since a call has read a row. -/
def sinceRead (number : ℕ) (id : Uuid) (log : AttachmentLog) : AttachmentLog :=
  log.takeWhile fun entry ↦ ¬ (entry.1 = number ∧ entry.2.Reads id)

/-- Since a call has read a row, no other has written it. -/
def Untouched (number : ℕ) (id : Uuid) (log : AttachmentLog) : Prop :=
  ∀ entry ∈ sinceRead number id log, entry.2.Writes id → entry.1 = number

/-- No call has written a row between the moment another has read it and the steps with which that one
completes the row and records the upload. -/
def Undisturbed : AttachmentLog → Prop
  | [] => True
  | (number, step) :: earlier => (∀ id ∈ step.uses, Untouched number id earlier) ∧ Undisturbed earlier

instance : (log : AttachmentLog) → Decidable (Undisturbed log)
  | [] => .isTrue trivial
  | (number, step) :: earlier =>
    have := instDecidableUndisturbed earlier
    inferInstanceAs (Decidable ((∀ id ∈ step.uses, ∀ entry ∈ sinceRead number id earlier,
      entry.2.Writes id → entry.1 = number) ∧ Undisturbed earlier))

/-- The row with an identifier goes from pending to completed with the step. -/
def AttachmentStep.completes (id : Uuid) : AttachmentStep → Bool
  | .confirm written (some found) => written = id ∧ found.status = .pending
  | _ => false

/-- How often a row with an identifier went from pending to completed. -/
def completions (id : Uuid) (log : AttachmentLog) : ℕ := log.countP fun entry ↦ entry.2.completes id

/-- What holds of the attachments in a run: a confirmation that returned found a pending row that was not
deleted, and returned it completed; an upload is recorded for a row that is there and not deleted; and a
row is completed once at most. -/
structure LifecycleKept (config : Config Db AttachmentStep Failure AttachmentResult) : Prop where
  confirmed : ∀ number result, config.calls[number]? = some (.done (.ok (.confirmed result))) →
    ∃ id found, (number, .confirm id (some found)) ∈ config.log ∧ found.status = .pending ∧
      found.deletedAt = none ∧ result = some (complete found)
  recorded : ∀ number id found, (number, .append .uploaded id found) ∈ config.log →
    ∃ row, found = some row ∧ row.deletedAt = none
  once : ∀ id, completions id config.log ≤ 1

/-! ### What a call knows of the row it has read -/

variable {db after : Db} {label : AttachmentStep} {id : Uuid} {row attachment : Attachment}
  {number other : ℕ} {log : AttachmentLog} {world : World Db AttachmentStep}

/-- A step that does not write a row leaves it as it is. -/
theorem Effect.attachment_eq (heffect : Effect db label after) (hwrites : ¬ label.Writes id)
    (hrow : db.attachment id = some row) : after.attachment id = some row := by
  have hupdate : ∀ (written : Uuid) (set : Attachment → Attachment), written ≠ id →
      (∀ row, (set row).id = row.id) →
      (db.updateAttachment written set).attachment id = some row := by
    intro written set hne hset
    rw [Db.attachment, Db.updateAttachment, find_updateWhere fun row ↦ by rw [hset row]]
    change (db.attachment id).map _ = _
    rw [hrow, Option.map_some, if_neg]
    simpa [(mem_of_attachment hrow).2] using hne.symm
  cases label with
  | other => rw [Db.attachment, heffect.1]; exact hrow
  | create new =>
    rw [Db.attachment, heffect.2.2.2.1, List.find?_append]
    exact Option.or_eq_some_iff.mpr (.inl hrow)
  | read read => exact heffect.2.2 ▸ hrow
  | confirm written found => exact heffect.2 ▸ hupdate written _ hwrites fun _ ↦ rfl
  | softDelete written deletedAt =>
    have hafter : after = db.updateAttachment written fun row ↦
      { row with deletedAt := some deletedAt } := heffect
    exact hafter ▸ hupdate written _ hwrites fun _ ↦ rfl
  | purge ids =>
    obtain ⟨orphan, rfl, rfl⟩ := heffect
    have hkept : ∀ other ∈ db.attachments, other.id = id → orphan other = false := by
      intro other hother hid
      by_contra horphan
      exact hwrites (hid ▸ List.mem_map_of_mem (List.mem_filter.mpr
        ⟨hother, Bool.eq_true_of_not_eq_false horphan⟩))
    rw [Db.attachment, find_deleteWhere fun other hother hid ↦ hkept other hother (by simpa using hid)]
    exact hrow
  | append action written found => rw [Db.attachment, heffect.2.1]; exact hrow

/-- A step is no read of the call, so it comes after it. -/
theorem sinceRead_cons (hread : ¬ (other = number ∧ label.Reads id)) :
    sinceRead number id ((other, label) :: log) = (other, label) :: sinceRead number id log :=
  List.takeWhile_cons_of_pos (by simpa [imp_iff_not_or] using hread)

/-- Unless another call has written it since, the row is as the call knows it. -/
def Holds (number : ℕ) (attachment : Attachment) (world : World Db AttachmentStep) : Prop :=
  Untouched number attachment.id world.log → world.db.attachment attachment.id = some attachment

/-- The step of a call is right about the row it uses, unless another call has written the row since. -/
def RightAbout (number : ℕ) (log : AttachmentLog) : AttachmentStep → Prop
  | .confirm id found => Untouched number id log →
    ∃ current, found = some current ∧ current.status = .pending ∧ current.deletedAt = none
  | .append .uploaded id found => Untouched number id log →
    ∃ row, found = some row ∧ row.deletedAt = none
  | _ => True

/-- Every step of a run was right about the row it used. -/
def AllRight : AttachmentLog → Prop
  | [] => True
  | (number, step) :: earlier => RightAbout number earlier step ∧ AllRight earlier

/-- Every call is right about the rows it uses, and does what its labels say. -/
def lifecycleProtocol : Protocol Db AttachmentStep where
  permits := anyStep
  invariant world := AllRight world.log
  guarantee number world label after :=
    Effect world.db label after ∧ RightAbout number world.log label

theorem keeps_of_rightAbout (hright : AllRight world.log) (heffect : Effect world.db label after)
    (habout : RightAbout number world.log label) :
    lifecycleProtocol.Keeps number world label after :=
  ⟨⟨heffect, habout⟩, habout, hright⟩

/-- The others leave the row alone, or the call knows that one has not. -/
theorem stable_holds (number : ℕ) (attachment : Attachment) :
    lifecycleProtocol.Stable number (Holds number attachment) := by
  rintro other hne world label after - hholds ⟨heffect, -⟩ huntouched
  rw [Untouched, World.after, sinceRead_cons fun hread ↦ hne hread.1] at huntouched
  have hwrites : ¬ label.Writes attachment.id := fun hwrites ↦
    hne (huntouched _ List.mem_cons_self hwrites)
  refine heffect.attachment_eq hwrites (hholds fun entry hentry ↦ ?_)
  exact huntouched entry (List.mem_cons_of_mem _ hentry)

/-- The call goes on to know the row while its own steps leave it alone. -/
theorem Holds.after_own (hholds : Holds number attachment world)
    (hread : ¬ label.Reads attachment.id)
    (hstep : world.db.attachment attachment.id = some attachment →
      after.attachment attachment.id = some row) (hid : row.id = attachment.id) :
    Holds number row (world.after number label after) := by
  intro huntouched
  rw [hid] at huntouched ⊢
  rw [Untouched, World.after, sinceRead_cons fun hreads ↦ hread hreads.2] at huntouched
  exact hstep (hholds fun entry hentry ↦ huntouched entry (List.mem_cons_of_mem _ hentry))

/-! ### Calls -/

/-- A step that uses no row. -/
def UsesNone (_ : Db) (label : AttachmentStep) (_ : Db) : Prop := label.uses = none

theorem rightAbout_of_uses_none (huses : label.uses = none) (number : ℕ) (log : AttachmentLog) :
    RightAbout number log label := by
  cases label with
  | confirm id found => cases huses
  | append action id found =>
    cases action with
    | uploaded => cases huses
    | deleted => trivial
  | _ => trivial

/-- A call that uses no row is right. -/
theorem meets_of_uses_none {α : Type} {call : AttachmentCall α} (heffect : call.Only Effect)
    (huses : call.Only UsesNone) :
    lifecycleProtocol.Meets number call (fun _ ↦ True) fun _ _ ↦ True :=
  meets_of_only (heffect.and huses) stable_true fun _ _ _ hright _ _ hstep ↦
    ⟨keeps_of_rightAbout hright hstep.1 (rightAbout_of_uses_none hstep.2 number _), trivial⟩

theorem ofWork_usesNone {α : Type} (call : WorkCall α) : (ofWork call).Only UsesNone :=
  (Call.only_true call).within fun _ _ _ _ ↦ rfl

theorem findById_usesNone (id tenantId : Uuid) : (findById id tenantId).Only UsesNone := by
  simp only [findById, Call.only_atomically]
  intro db
  split <;> rfl

theorem create_usesNone (tenantId workItemId uploadedBy : Uuid) (filename mimeType : String)
    (sizeBytes : ℕ) (storageKey : Uuid → String) :
    (create tenantId workItemId uploadedBy filename mimeType sizeBytes storageKey).Only UsesNone := by
  refine Call.only_attempt _ _ (fun db _ _ ↦ ?_) fun db _ _ _ ↦ ?_
  · dsimp only
    split_ifs <;> rfl
  · dsimp only
    split_ifs <;> rfl

theorem deleteObject_usesNone (answers : Bool) (key : String) :
    (deleteObject answers key).Only UsesNone := fun _ ↦ ⟨rfl, trivial⟩

theorem deleteObjects_usesNone (answers : Bool) (rows : List Attachment) :
    (deleteObjects answers rows).Only UsesNone := by
  induction rows with
  | nil => trivial
  | cons row rest ih => simp [deleteObjects, ih, deleteObject_usesNone]

theorem presignAttachment_usesNone (presignPut : String → Except Failure String) (actor : Actor)
    (workItemId : Uuid) (input : PresignInput) :
    (presignAttachment presignPut actor workItemId input).Only UsesNone := by
  have hcount : ∀ db : Db, UsesNone db .other db := fun _ ↦ rfl
  simp only [presignAttachment, Call.only_bind, ofWork_usesNone, Call.only_ensure, countByWorkItem,
    Call.only_query, hcount, create_usesNone, implies_true, true_and]
  intro _ _ _ _ _ _ _ _ _ _ attachment _
  cases presignPut attachment.storageKey <;> trivial

theorem append_deleted_usesNone (actor : Actor) (item : WorkItem) (attachment : Attachment) :
    (append actor item attachment .deleted).Only UsesNone := fun _ ↦ ⟨rfl, trivial⟩

theorem softDelete_usesNone (id : Uuid) : (softDelete id).Only UsesNone := fun _ ↦ ⟨rfl, trivial⟩

theorem detached_usesNone {runs : Bool} {call : AttachmentCall Unit} (hcall : call.Only UsesNone) :
    (detached runs call).Only UsesNone := by
  cases runs
  · exact trivial
  · exact hcall

theorem deleteAttachment_usesNone (weather : Weather) (actor : Actor) (isAdmin : Bool)
    (workItemId attachmentId : Uuid) :
    (deleteAttachment weather actor isAdmin workItemId attachmentId).Only UsesNone := by
  simp [deleteAttachment, findAttachment, ofWork_usesNone, findById_usesNone, softDelete_usesNone,
    deleteObject_usesNone, detached_usesNone, append_deleted_usesNone]

/-- After `findById` the call knows the row it has found. -/
theorem meets_findById (id tenantId : Uuid) :
    lifecycleProtocol.Meets number (findById id tenantId) (fun _ ↦ True) fun found world ↦
      ∀ row, found = some row → Holds number row world ∧ row.deletedAt = none := by
  refine meets_atomically stable_true fun world hright _ _ ↦ ?_
  have heffect := (findById_effect id tenantId world.db).1
  have huses := (findById_usesNone id tenantId world.db).1
  refine ⟨keeps_of_rightAbout hright heffect (rightAbout_of_uses_none huses number _), ?_⟩
  intro row hfound
  obtain ⟨hrow, hlive⟩ := attachment_of_live hfound
  exact ⟨fun _ ↦ hrow, hlive⟩

theorem meets_findAttachment (actor : Actor) (workItemId attachmentId : Uuid) :
    lifecycleProtocol.Meets number (findAttachment actor workItemId attachmentId) (fun _ ↦ True)
      fun attachment world ↦ Holds number attachment world ∧ attachment.deletedAt = none := by
  refine (meets_findById attachmentId actor.tenantId).bind fun found _ ↦ ?_
  refine meets_require.conseq (fun _ _ h ↦ h) fun attachment world _ ⟨hknown, hfound⟩ ↦ ?_
  exact hknown attachment (Option.filter_eq_some_iff.mp hfound).1

theorem meets_headObject (answers : Bool) (key : String) :
    lifecycleProtocol.Meets number (headObject answers key) (Holds number attachment)
      fun _ ↦ Holds number attachment :=
  meets_query (stable_holds number attachment) fun world hright hholds _ ↦
    ⟨keeps_of_rightAbout hright (effect_other_refl world.db) trivial,
      hholds.after_own id id rfl⟩

/-- The call returns what its confirmation has found, completed. -/
def ReturnsConfirmed (number : ℕ) (result : Option Attachment) (world : World Db AttachmentStep) :
    Prop :=
  ∃ id found, (number, .confirm id found) ∈ world.log ∧ result = found.map complete

theorem persistent_returnsConfirmed (number : ℕ) (result : Option Attachment) :
    Persistent lifecycleProtocol (ReturnsConfirmed number result) := by
  rintro other world label after - ⟨id, found, hmem, hresult⟩ -
  exact ⟨id, found, List.mem_cons_of_mem _ hmem, hresult⟩

/-- The confirmation is right: the row it completes is the one the call has read. -/
theorem meets_confirm (hpending : attachment.status = .pending) (hlive : attachment.deletedAt = none) :
    lifecycleProtocol.Meets number (confirm attachment.id) (Holds number attachment)
      fun result world ↦ Holds number (complete attachment) world ∧
        ReturnsConfirmed number result world := by
  refine meets_atomically (stable_holds number attachment) fun world hright hholds _ ↦ ?_
  have heffect := (confirm_effect attachment.id world.db).1
  refine ⟨keeps_of_rightAbout hright heffect fun huntouched ↦
    ⟨attachment, hholds huntouched, hpending, hlive⟩, ?_, ?_⟩
  · refine hholds.after_own id (fun hrow ↦ ?_) rfl
    have hsame : ∀ row : Attachment, decide ((complete row).id = attachment.id) =
        decide (row.id = attachment.id) := fun _ ↦ rfl
    refine (find_updateWhere hsame).trans ?_
    change (world.db.attachment attachment.id).map _ = _
    rw [hrow, Option.map_some, if_pos (by simp)]
  · exact ⟨attachment.id, _, List.mem_cons_self, rfl⟩

/-- The upload is recorded for a row that is there. -/
theorem meets_append (actor : Actor) (item : WorkItem) (hlive : attachment.deletedAt = none) :
    lifecycleProtocol.Meets number (append actor item attachment .uploaded)
      (Holds number (complete attachment)) fun _ _ ↦ True := by
  refine meets_atomically (stable_holds number _) fun world hright hholds _ ↦ ⟨?_, trivial⟩
  have heffect := (append_effect actor item attachment .uploaded world.db).1
  exact keeps_of_rightAbout hright heffect fun huntouched ↦
    ⟨complete attachment, hholds huntouched, hlive⟩

theorem meets_confirmUploaded (weather : Weather) (actor : Actor) (item : WorkItem)
    (hpending : attachment.status = .pending) (hlive : attachment.deletedAt = none)
    (contentLength : ℕ) :
    lifecycleProtocol.Meets number (confirmUploaded weather actor item attachment contentLength)
      (Holds number attachment) (ReturnsConfirmed number) := by
  unfold confirmUploaded
  split_ifs
  · have hdelete : lifecycleProtocol.Meets number
        (detached weather.detachedRuns (softDelete attachment.id)) (fun _ ↦ True) fun _ _ ↦ True :=
      meets_of_uses_none (detached_effect (softDelete_effect _))
        (detached_usesNone (softDelete_usesNone _))
    exact (hdelete.strengthen fun _ _ _ ↦ trivial).bind fun _ _ ↦ trivial
  · refine (meets_confirm hpending hlive).bind fun result _ ↦ ?_
    have hrecord : lifecycleProtocol.Meets number
        (detached weather.detachedRuns (append actor item attachment .uploaded))
        (Holds number (complete attachment)) fun _ _ ↦ True := by
      cases weather.detachedRuns with
      | false => exact fun _ _ _ ↦ trivial
      | true => exact meets_append actor item hlive
    refine (hrecord.frame (persistent_returnsConfirmed number result)).bind fun _ _ ↦ ?_
    exact meets_pure fun _ _ hpost ↦ hpost.2

theorem meets_confirmAttachment (weather : Weather) (actor : Actor) (workItemId attachmentId : Uuid) :
    lifecycleProtocol.Meets number (confirmAttachment weather actor workItemId attachmentId)
      (fun _ ↦ True) (ReturnsConfirmed number) := by
  refine (meets_of_uses_none (ofWork_effect _) (ofWork_usesNone _)).bind fun item _ ↦ ?_
  refine (meets_findAttachment actor workItemId attachmentId).bind fun attachment _ ↦ ?_
  refine meets_and_fact fun hlive ↦ ?_
  refine meets_ensure.bind fun _ _ ↦ meets_and_fact fun hpending ↦ ?_
  refine (meets_headObject weather.storageAnswers attachment.storageKey).bind fun head _ ↦ ?_
  refine meets_require.bind fun contentLength _ ↦ ?_
  exact (meets_confirmUploaded weather actor item hpending hlive contentLength).strengthen
    fun _ _ hpre ↦ hpre.1

/-- What the call of a request promises of what it returns. -/
def Promise (number : ℕ) (result : AttachmentResult) (world : World Db AttachmentStep) : Prop :=
  ∀ attachment, result = .confirmed attachment → ReturnsConfirmed number attachment world

theorem stable_promise (number : ℕ) (result : AttachmentResult) :
    lifecycleProtocol.Stable number (Promise number result) :=
  fun other _ world label after hright hpromise hguarantee attachment hresult ↦
    persistent_returnsConfirmed number attachment other world label after hright
      (hpromise attachment hresult) hguarantee

/-- A call that confirms nothing promises nothing. -/
theorem meets_promise {α : Type} {call : AttachmentCall α} {result : α → AttachmentResult}
    (hcall : lifecycleProtocol.Meets number call (fun _ ↦ True) fun _ _ ↦ True)
    (hresult : ∀ value attachment, result value ≠ .confirmed attachment) :
    lifecycleProtocol.Meets number (result <$> call) (fun _ ↦ True) (Promise number) :=
  hcall.bind fun value _ _ _ _ attachment hsame ↦ absurd hsame (hresult value attachment)

theorem meets_serve (request : AttachmentRequest) :
    lifecycleProtocol.Meets number request.serve (fun _ ↦ True) (Promise number) := by
  cases request with
  | presignAttachment presignPut actor workItemId input =>
    exact meets_promise (meets_of_uses_none
      (presignAttachment_effect presignPut actor workItemId input)
      (presignAttachment_usesNone presignPut actor workItemId input)) (by simp)
  | upload object =>
    exact meets_promise (meets_of_uses_none (by simp [upload, Effect])
      (fun _ ↦ ⟨rfl, trivial⟩)) (by simp)
  | confirmAttachment weather actor workItemId attachmentId =>
    refine (meets_confirmAttachment weather actor workItemId attachmentId).bind fun result _ ↦ ?_
    intro world _ hreturns attachment hresult
    cases hresult
    exact hreturns
  | deleteAttachment weather actor isAdmin workItemId attachmentId =>
    exact meets_promise (meets_of_uses_none
      (deleteAttachment_effect weather actor isAdmin workItemId attachmentId)
      (deleteAttachment_usesNone weather actor isAdmin workItemId attachmentId)) (by simp)
  | purgeStaleData answers =>
    refine meets_promise (meets_of_uses_none ?_ ?_) (by simp)
    · simp [purgeStaleData]
    · exact fun _ ↦ ⟨rfl, deleteObjects_usesNone answers _⟩
  | work request =>
    exact meets_promise (meets_of_uses_none (ofWork_effect _) (ofWork_usesNone _)) (by simp)

/-! ### A row is completed once -/

/-- Rows that were completed stay so, and their identifiers have been drawn. -/
structure CompletedOnce (world : World Db AttachmentStep) : Prop where
  keyed : Keyed world.db
  once : ∀ id, completions id world.log ≤ 1
  completed : ∀ id, 0 < completions id world.log →
    id < world.db.nextUuid ∧ ∀ row ∈ world.db.attachments, row.id = id → row.status = .completed

/-- A row after a step is new, or has an old row with its identifier, and is completed if that one was. -/
theorem Effect.status (heffect : Effect db label after) (hrow : row ∈ after.attachments)
    (hdrawn : row.id < db.nextUuid) : ∃ old ∈ db.attachments, old.id = row.id ∧
      (old.status = .completed → row.status = .completed) := by
  have hsame : after.attachments = db.attachments → ∃ old ∈ db.attachments, old.id = row.id ∧
      (old.status = .completed → row.status = .completed) := fun hsame ↦
    ⟨row, hsame ▸ hrow, rfl, fun h ↦ h⟩
  have hupdate : ∀ (id : Uuid) (set : Attachment → Attachment), after = db.updateAttachment id set →
      (∀ row, (set row).id = row.id) →
      (∀ row, row.status = .completed → (set row).status = .completed) →
      ∃ old ∈ db.attachments, old.id = row.id ∧
        (old.status = .completed → row.status = .completed) := by
    rintro id set rfl hid hset
    obtain ⟨old, hold, rfl⟩ := mem_updateWhere.mp hrow
    refine ⟨old, hold, ?_, ?_⟩
    · split_ifs
      · exact (hid old).symm
      · rfl
    · split_ifs
      · exact hset old
      · exact fun h ↦ h
  cases label with
  | other => exact hsame heffect.1
  | create new =>
    obtain ⟨hid, -, -, hrows, -⟩ := heffect
    rw [hrows] at hrow
    rcases List.mem_append.mp hrow with hold | hnew
    · exact ⟨row, hold, rfl, fun h ↦ h⟩
    · rw [List.mem_singleton.mp hnew, hid] at hdrawn
      exact absurd hdrawn (Nat.lt_irrefl _)
  | read read => exact hsame (congrArg Db.attachments heffect.2.2)
  | confirm id found => exact hupdate id _ heffect.2 (fun _ ↦ rfl) fun _ _ ↦ rfl
  | softDelete id deletedAt => exact hupdate id _ heffect (fun _ ↦ rfl) fun _ h ↦ h
  | purge ids =>
    obtain ⟨orphan, -, rfl⟩ := heffect
    exact ⟨row, (mem_deleteWhere.mp hrow).1, rfl, fun h ↦ h⟩
  | append action id found => exact hsame heffect.2.1

theorem Effect.nextUuid_le (heffect : Effect db label after) : db.nextUuid ≤ after.nextUuid := by
  cases label with
  | other => exact heffect.2.le
  | create row => exact heffect.2.2.2.2 ▸ Nat.le_succ _
  | read row => exact heffect.2.2 ▸ le_rfl
  | confirm id found => exact heffect.2 ▸ le_rfl
  | softDelete id deletedAt => exact (congrArg Db.nextUuid heffect).ge
  | purge ids =>
    obtain ⟨_, -, rfl⟩ := heffect
    exact le_rfl
  | append action id found => exact heffect.2.2

/-- A step that completes a row has found it pending. -/
theorem Effect.found_of_completes (heffect : Effect db label after)
    (hcompletes : label.completes id = true) :
    (∃ row ∈ db.attachments, row.id = id ∧ row.status = .pending) ∧
      after = db.updateAttachment id complete := by
  cases label with
  | confirm written found =>
    cases found with
    | none => cases hcompletes
    | some found =>
      obtain ⟨hfound, hafter⟩ := heffect
      obtain ⟨hmem, hid⟩ := mem_of_attachment hfound.symm
      simp only [AttachmentStep.completes, decide_eq_true_eq] at hcompletes
      obtain ⟨rfl, hpending⟩ := hcompletes
      exact ⟨⟨found, hmem, hid, hpending⟩, hafter⟩
  | _ => cases hcompletes

theorem completions_cons : completions id ((number, label) :: log) =
    completions id log + if label.completes id then 1 else 0 :=
  List.countP_cons

/-- A step keeps the account of the completed rows. -/
theorem CompletedOnce.step (honce : CompletedOnce world) (heffect : Effect world.db label after) :
    CompletedOnce (world.after number label after) where
  keyed := honce.keyed.step heffect
  once id := by
    rw [World.after, completions_cons]
    split_ifs with hcompletes
    · obtain ⟨⟨row, hrow, hid, hpending⟩, -⟩ := heffect.found_of_completes hcompletes
      have hnone : completions id world.log = 0 := by
        by_contra hsome
        have hcompleted := (honce.completed id (Nat.pos_of_ne_zero hsome)).2 row hrow hid
        rw [hpending] at hcompleted
        cases hcompleted
      rw [hnone]
    · exact honce.once id
  completed id hsome := by
    rw [World.after, completions_cons] at hsome
    by_cases hcompletes : label.completes id = true
    · obtain ⟨⟨row, hrow, hid, -⟩, rfl⟩ := heffect.found_of_completes hcompletes
      refine ⟨hid ▸ honce.keyed.drawn row hrow, fun other hother hsame ↦ ?_⟩
      obtain ⟨old, hold, rfl⟩ := mem_updateWhere.mp hother
      split_ifs at hsame ⊢ with hwritten
      · rfl
      · exact absurd hsame (by simpa using hwritten)
    · rw [if_neg hcompletes, Nat.add_zero] at hsome
      obtain ⟨hdrawn, hcompleted⟩ := honce.completed id hsome
      refine ⟨hdrawn.trans_le heffect.nextUuid_le, fun row hrow hid ↦ ?_⟩
      obtain ⟨old, hold, hsame, hstays⟩ := heffect.status hrow (hid ▸ hdrawn)
      exact hstays (hcompleted old hold (hsame.trans hid))

/-- Assumes: attachment identifiers are distinct and drawn at the start. In every interleaving a row goes
from pending to completed once at most. -/
theorem completions_le_one {permits : World Db AttachmentStep → AttachmentStep → Prop}
    {config : Config Db AttachmentStep Failure AttachmentResult} (hkeyed : Keyed db)
    (hreach : Reachable AttachmentRequest.serve permits db config) (id : Uuid) :
    completions id config.log ≤ 1 := by
  have honce : CompletedOnce config.toWorld := reachable_keeps serve_effect CompletedOnce
    ⟨hkeyed, fun _ ↦ Nat.zero_le 1, fun _ hsome ↦ absurd hsome (Nat.lt_irrefl 0)⟩
    (fun _ _ _ _ honce _ heffect ↦ honce.step heffect) hreach
  exact honce.once id

/-! ### The life of an attachment -/

/-- In a run that no other call has disturbed, every step was right about a row as it is. -/
theorem rightAbout_of_mem (hright : AllRight log) (hundisturbed : Undisturbed log) {step : AttachmentStep}
    (hmem : (number, step) ∈ log) :
    (∀ id found, step = .confirm id found →
      ∃ current, found = some current ∧ current.status = .pending ∧ current.deletedAt = none) ∧
    ∀ id found, step = .append .uploaded id found → ∃ row, found = some row ∧ row.deletedAt = none := by
  induction log with
  | nil => cases hmem
  | cons entry earlier ih =>
    rcases List.mem_cons.mp hmem with rfl | hold
    · obtain ⟨huntouched, -⟩ := hundisturbed
      refine ⟨?_, ?_⟩
      · rintro id found rfl
        exact hright.1 (huntouched id rfl)
      · rintro id found rfl
        exact hright.1 (huntouched id rfl)
    · exact ih hright.2 hundisturbed.2 hold

/-- Assumes: attachment identifiers are distinct and drawn at the start. In every interleaving of the calls,
the purges of the cron and the uploads, in which no other call confirms, deletes or purges the row of a
confirmation between the moment it reads the row and the last step it takes on it: a confirmation that
returns has found the row pending and not deleted, and returns it completed; an upload is recorded for a row
that is there and not deleted; and a row is completed once at most. -/
theorem reachable_lifecycle {config : Config Db AttachmentStep Failure AttachmentResult}
    (hkeyed : Keyed db) (hreach : Reachable AttachmentRequest.serve anyStep db config)
    (hundisturbed : Undisturbed config.log) : LifecycleKept config := by
  have hkept := lifecycleProtocol.reachable_kept stable_promise
    (fun request _ ↦ (meets_serve request).strengthen fun _ _ _ ↦ trivial) trivial hreach
  refine ⟨fun number result hreturned ↦ ?_, fun number id found hmem ↦ ?_,
    completions_le_one hkeyed hreach⟩
  · obtain ⟨id, found, hmem, rfl⟩ := hkept.returned hreturned result rfl
    obtain ⟨current, rfl, hpending, hlive⟩ :=
      (rightAbout_of_mem hkept.invariant hundisturbed hmem).1 id found rfl
    exact ⟨id, current, hmem, hpending, hlive, rfl⟩
  · exact (rightAbout_of_mem hkept.invariant hundisturbed hmem).2 id found rfl

/-- Requests are served one after the other. -/
def serveAll (db : Db) (requests : List AttachmentRequest) :
    Config Db AttachmentStep Failure AttachmentResult :=
  (Config.initial db).play AttachmentRequest.serve (oneByOne requests)

/-- A witness that the condition can be met: a picture is uploaded and confirmed, and deleted afterwards. -/
theorem reachable_lifecycle_witness :
    LifecycleKept (serveAll (withPictures 24)
      [presignPicture, uploadPicture 24, confirmPicture 24, .deleteAttachment {} uploader false 7 24]) :=
  reachable_lifecycle (keyed_withPictures 24) (play_reachable (allowsAll_anyStep _ _)) (by decide +kernel)

/-- A picture is deleted while the object store is asked for its size. -/
def deletedBetweenRun : Config Db AttachmentStep Failure AttachmentResult :=
  (serveAll (withPictures 24) [presignPicture, uploadPicture 24]).play AttachmentRequest.serve
    (.start (confirmPicture 24) :: .resume 2 :: .resume 2 :: .resume 2 ::
      .start (.deleteAttachment {} uploader false 7 24) :: finish 3 ++ finish 2)

/-- Without the condition a confirmation can return a row that was deleted when it completed it, and record
its upload. -/
theorem confirmedDeleted :
    ¬ ∀ (db : Db) (config : Config Db AttachmentStep Failure AttachmentResult), Keyed db →
      Reachable AttachmentRequest.serve anyStep db config → LifecycleKept config := by
  intro halways
  have hkept := halways (withPictures 24) deletedBetweenRun (keyed_withPictures 24)
    ((play_reachable (allowsAll_anyStep _ _)).trans (play_reachable (allowsAll_anyStep _ _)))
  have hrecorded : (2, .append .uploaded 24 (some { picture 24 with deletedAt := some 0 })) ∈
      deletedBetweenRun.log := by decide +kernel
  obtain ⟨row, hrow, hlive⟩ := hkept.recorded 2 24 _ hrecorded
  cases hrow
  cases hlive

end RallyApi.Attachments

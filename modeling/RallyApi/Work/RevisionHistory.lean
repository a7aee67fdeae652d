import RallyApi.Work.Edits

/-!
# The revision history

Every update of a work item leaves an entry for each tracked field it changes, with the old and the
new value. The entries of a field are meant to form a chain from the value at creation to the stored
value. The old value of an entry is the one of a snapshot read before the transaction that writes
the row and the entries, and the new value is the one of the request, with its identifiers as the client
spells them.

`reachable_chained` proves the chain for every interleaving of edits in which an update finds the
values of its snapshot still in the row, in the fields it names, and spells its identifiers as the
columns do. `brokenChain` is a run of two overlapping updates that records an old value which had been
replaced before.
-/

set_option autoImplicit false
set_option relaxedAutoImplicit false

namespace RallyApi.Work

open Concurrency Platform Store

/-! ### The property and the condition -/

/-- The change a log entry records of a field of an item. -/
def recordedChange (id : Uuid) (field : Field) (entityId : Uuid) (changes : Option ActivityChange) :
    Option ActivityChange :=
  if entityId = id then changes.filter fun change ↦ change.field = field else none

/-- The changes of a field of an item that the activity log records, in the order in which their
transactions committed. -/
def fieldChanges (id : Uuid) (field : Field) (logs : List ActivityLog) : List ActivityChange :=
  logs.filterMap fun log ↦ recordedChange id field log.entityId log.changes

/-- The changes lead from one value to another, each from the value the one before it has left. -/
def ChainFrom (start : Value) : List ActivityChange → Value → Prop
  | [], stop => start = stop
  | change :: rest, stop => change.old = start ∧ ChainFrom change.new rest stop

instance ChainFrom.decidable : (start : Value) → (changes : List ActivityChange) →
    (stop : Value) → Decidable (ChainFrom start changes stop)
  | _, [], _ => inferInstanceAs (Decidable (_ = _))
  | _, change :: rest, stop =>
    have := ChainFrom.decidable change.new rest stop
    inferInstanceAs (Decidable (_ ∧ _))

/-- The recorded changes of a field of an item lead from its value at creation to the stored one. -/
def FieldChained (created : WorkItem) (db : Db) (field : Field) : Prop :=
  ∀ row ∈ db.workItems, row.id = created.id →
    ChainFrom (created.get field) (fieldChanges created.id field db.activityLogs) (row.get field)

instance (created : WorkItem) (db : Db) (field : Field) :
    Decidable (FieldChained created db field) :=
  inferInstanceAs (Decidable (∀ row ∈ db.workItems, _ → _))

/-- The recorded changes of every scalar field of an item form a chain. -/
def Chained (created : WorkItem) (db : Db) : Prop :=
  ∀ field, field.isRich = false → FieldChained created db field

/-- An update finds the values of its snapshot in the row, in the scalar fields it names. -/
def SnapshotCurrent (db : Db) (snapshot : WorkItem) (input : UpdateWorkItemInput) : Prop :=
  ∀ row ∈ db.workItems, row.id = snapshot.id →
    ∀ tracked ∈ trackedFields, tracked.1.isRich = false → input.get tracked.1 ≠ none →
      row.get tracked.1 = snapshot.get tracked.1

/-- The identifiers of a change set are spelled as the columns spell them. -/
def CanonicallySpelled (input : UpdateWorkItemInput) : Prop :=
  ∀ tracked ∈ trackedFields, ∀ next ∈ input.get tracked.1, next.stored = next

/-- An update spells its identifiers canonically, and its snapshot is current. -/
def DiffedFromRow (world : World Db WorkStep) (label : WorkStep) : Prop :=
  match label with
  | .updateWorkItem snapshot input =>
    CanonicallySpelled input ∧ SnapshotCurrent world.db snapshot input
  | _ => True

instance (db : Db) (snapshot : WorkItem) (input : UpdateWorkItemInput) :
    Decidable (SnapshotCurrent db snapshot input) :=
  inferInstanceAs (Decidable (∀ row ∈ db.workItems, _))

instance (input : UpdateWorkItemInput) : Decidable (CanonicallySpelled input) :=
  inferInstanceAs (Decidable (∀ tracked ∈ trackedFields, ∀ next ∈ input.get tracked.1, _))

instance (world : World Db WorkStep) (label : WorkStep) : Decidable (DiffedFromRow world label) :=
  match label with
  | .updateWorkItem _ _ => inferInstanceAs (Decidable (_ ∧ _))
  | .other | .createProject _ | .deleteProject _ | .incrementCounter .. | .createStatus _
  | .deleteStatus _ | .createTransition _ | .deleteTransition _ | .createWorkItem _
  | .deleteWorkItem _ | .carryOver .. | .createSprint _ | .updateSprint .. | .deleteSprint _ =>
    .isTrue trivial

/-! ### The changes of a diff -/

/-- The change `diffWorkItem` records of one field, if it records one. -/
def fieldChange (before : WorkItem) (input : UpdateWorkItemInput) (field : Field) :
    Option ActivityChange :=
  (addEntry before input false field .workItemUpdated .taskUpdated).map ActivityDiffEntry.change

/-- Every field is tracked, and once. -/
theorem mem_trackedFields (field : Field) : field ∈ trackedFields.map Prod.fst := by
  cases field <;> decide

theorem nodup_trackedFields : (trackedFields.map Prod.fst).Nodup := by decide

/-- An entry of the diff is about one field, and its change does not depend on its action. -/
theorem addEntry_bind (before : WorkItem) (input : UpdateWorkItemInput) (isTask : Bool)
    (tracked field : Field) (itemAction taskAction : ActivityAction) :
    ((addEntry before input isTask tracked itemAction taskAction).bind fun entry ↦
        (some entry.change).filter fun change ↦ change.field = field) =
      if tracked = field then fieldChange before input field else none := by
  unfold fieldChange addEntry
  by_cases htracked : tracked = field
  · subst htracked
    cases input.get tracked with
    | none => simp
    | some next => by_cases hchanged : changed (before.get tracked) next <;> simp [hchanged, entry]
  · rw [if_neg htracked]
    cases input.get tracked with
    | none => simp
    | some next =>
      by_cases hchanged : changed (before.get tracked) next <;> simp [hchanged, htracked, entry]

/-- Assumes: the keys of a list are distinct, and a key is among them. Of the values of the keys, only
the value of that key is taken. -/
theorem filterMap_of_nodup {Key Row Taken : Type} [DecidableEq Key] {rows : List (Key × Row)}
    {key : Key} (hnodup : (rows.map Prod.fst).Nodup) (hkey : key ∈ rows.map Prod.fst)
    (value : Option Taken) :
    rows.filterMap (fun row ↦ if row.1 = key then value else none) = value.toList := by
  induction rows with
  | nil => cases hkey
  | cons row rest ih =>
    rw [List.map_cons, List.nodup_cons] at hnodup
    rw [List.filterMap_cons]
    by_cases hrow : row.1 = key
    · have hrest : rest.filterMap (fun row ↦ if row.1 = key then value else none) = [] := by
        refine List.filterMap_eq_nil_iff.mpr fun other hother ↦ if_neg fun hsame ↦ hnodup.1 ?_
        exact hrow.trans hsame.symm ▸ List.mem_map_of_mem hother
      cases value <;> simp [hrow, hrest]
    · simp only [hrow, if_false]
      exact ih hnodup.2 ((List.mem_cons.mp hkey).resolve_left fun hsame ↦ hrow hsame.symm)

/-- What the entries of an update record of a field: its change in the diff, for the item the update
is about. -/
theorem fieldChanges_of_diff {item : WorkItem} {input : UpdateWorkItemInput} {isTask : Bool}
    {logs : List ActivityLog}
    (hlogs : logs.map (fun log ↦ (log.entityId, log.changes)) =
      (diffWorkItem item input isTask).map fun entry ↦ (item.id, some entry.change))
    (id : Uuid) (field : Field) :
    fieldChanges id field logs =
      if item.id = id then (fieldChange item input field).toList else [] := by
  have hmap : fieldChanges id field logs =
      (logs.map fun log ↦ (log.entityId, log.changes)).filterMap
        fun recorded ↦ recordedChange id field recorded.1 recorded.2 := by
    rw [List.filterMap_map]
    rfl
  rw [hmap, hlogs, List.filterMap_map]
  split_ifs with hid
  · rw [diffWorkItem, List.filterMap_filterMap, ← filterMap_of_nodup nodup_trackedFields
      (mem_trackedFields field)]
    refine List.filterMap_congr fun tracked _ ↦ ?_
    rw [← addEntry_bind item input isTask tracked.1 field tracked.2.1 tracked.2.2]
    simp only [Function.comp_def, recordedChange, if_pos hid]
  · refine List.filterMap_eq_nil_iff.mpr fun entry _ ↦ ?_
    simp [recordedChange, hid]

/-! ### A field that counts as unchanged -/

/-- The value is a text. -/
def Value.isText : Value → Bool
  | .text _ => true
  | _ => false

theorem isText_ofOption {α : Type} {value : α → Value} (hvalue : ∀ present, (value present).isText = false)
    (option : Option α) : (Value.ofOption value option).isText = false := by
  cases option with
  | none => rfl
  | some present => exact hvalue present

/-- Of the scalar fields, the title is a text, and no other ever is. -/
theorem isText_get {field : Field} (hscalar : field.isRich = false) (item : WorkItem) :
    (item.get field).isText = decide (field = .title) := by
  cases field <;> first | rfl | exact isText_ofOption (fun _ ↦ rfl) _ | cases hscalar

theorem isText_of_input_get {field : Field} (hscalar : field.isRich = false)
    {input : UpdateWorkItemInput} {next : Value} (hnext : input.get field = some next) :
    next.isText = decide (field = .title) := by
  cases field <;> obtain ⟨present, _, rfl⟩ := Option.map_eq_some_iff.mp hnext <;>
    first | rfl | exact isText_ofOption (fun _ ↦ rfl) _ | cases hscalar

/-- Two values with the same text are equal, unless one is `null` and the other a text. -/
theorem eq_of_sameText {before after : Value} (hkind : before.isText = after.isText)
    (hsame : sameText before after = true) : before = after := by
  cases before <;> cases after <;> simp_all [sameText, Value.isText]

/-- A scalar field that the diff takes for unchanged is unchanged. -/
theorem eq_of_not_changed {item : WorkItem} {input : UpdateWorkItemInput} {field : Field}
    {next : Value} (hscalar : field.isRich = false) (hnext : input.get field = some next)
    (hsame : changed (item.get field) next = false) : item.get field = next := by
  unfold changed at hsame
  split_ifs at hsame with hnull
  · exact hnull.1.trans hnull.2.symm
  · refine eq_of_sameText ?_ (by simpa using hsame)
    rw [isText_get hscalar, isText_of_input_get hscalar hnext]

/-! ### What a step preserves -/

/-- A change of one field at the end of a chain. -/
theorem ChainFrom.append {start stop next : Value} {changes : List ActivityChange}
    (hchain : ChainFrom start changes stop) {change : ActivityChange} (hold : change.old = stop)
    (hnew : change.new = next) : ChainFrom start (changes ++ [change]) next := by
  induction changes generalizing start with
  | nil => exact ⟨hold.trans (Eq.symm hchain), hnew⟩
  | cons first rest ih => exact ⟨hchain.1, ih hchain.2⟩

/-- A scalar change of the diff has the values of the snapshot and of the change set; where there is
none, the update leaves the field as the snapshot has it. -/
theorem fieldChange_cases {before : WorkItem} {input : UpdateWorkItemInput} {field : Field}
    (hscalar : field.isRich = false) {next : Value} (hnext : input.get field = some next) :
    fieldChange before input field = some { field, old := before.get field, new := next } ∨
      fieldChange before input field = none ∧ before.get field = next := by
  by_cases hchanged : changed (before.get field) next = true
  · refine .inl ?_
    simp [fieldChange, addEntry, hnext, hchanged, entry, hscalar]
  · rw [Bool.not_eq_true] at hchanged
    refine .inr ⟨?_, eq_of_not_changed hscalar hnext hchanged⟩
    simp [fieldChange, addEntry, hnext, hchanged]

/-- The value of a tracked field does not depend on who made the update. -/
theorem get_updatedBy (input : UpdateWorkItemInput) (actorId : Option Uuid) (field : Field) :
    ({ input with updatedBy := actorId } : UpdateWorkItemInput).get field = input.get field := by
  cases field <;> rfl

/-- The transaction of an update keeps the chains where its identifiers are spelled canonically and its
snapshot is current. -/
theorem Chained.update {world : World Db WorkStep} {created : WorkItem}
    (hchained : Chained created world.db) {actorId : Uuid} {snapshot : WorkItem}
    {input : UpdateWorkItemInput} {updated : Option WorkItem} {after : Db}
    (hspelled : CanonicallySpelled input) (hcurrent : SnapshotCurrent world.db snapshot input)
    (hcommit : commitUpdate actorId snapshot input world.db = .ok (updated, after)) :
    Chained created after := by
  obtain ⟨logs, nextUuid, rfl, hlogs⟩ := commitUpdate_ok hcommit
  intro field hscalar row hrow hid
  obtain ⟨old, hold, holdId, hset⟩ := exists_of_mem_updateWorkItemRows hrow
  have hbefore := hchained field hscalar old hold (holdId.trans hid)
  rw [fieldChanges, List.filterMap_append]
  change ChainFrom _ (fieldChanges created.id field world.db.activityLogs ++
    fieldChanges created.id field logs) _
  rw [fieldChanges_of_diff hlogs]
  by_cases hsnapshot : snapshot.id = created.id
  · rw [if_pos (hid.trans hsnapshot.symm)] at hset
    rw [if_pos hsnapshot, hset, get_set, get_updatedBy]
    cases hnext : input.get field with
    | none =>
      have hnone : fieldChange snapshot input field = none := by
        simp [fieldChange, addEntry, hnext]
      simpa [hnone] using hbefore
    | some next =>
      obtain ⟨tracked, htracked, rfl⟩ := List.mem_map.mp (mem_trackedFields field)
      have hold : old.get tracked.1 = snapshot.get tracked.1 :=
        hcurrent old hold (holdId.trans (hid.trans hsnapshot.symm)) tracked htracked hscalar
          (by simp [hnext])
      rw [Option.map_some, hspelled tracked htracked next hnext, Option.getD_some]
      rcases fieldChange_cases hscalar hnext with hchange | ⟨hnone, hsame⟩
      · rw [hchange]
        exact hbefore.append hold.symm rfl
      · rw [hnone, Option.toList_none, List.append_nil, ← hsame, ← hold]
        exact hbefore
  · rw [if_neg fun hsame ↦ hsnapshot (hsame.symm.trans hid)] at hset
    rw [if_neg hsnapshot, List.append_nil, hset]
    exact hbefore

/-- Assumes: item identifiers are distinct at the start, as their primary key has it; the log records
no change of the item yet, as it is right after its creation; and an update spells its identifiers as
the columns do and finds the values of its snapshot still in the row, in the scalar fields it names. In
every reachable state the recorded changes of each scalar field of the item form a chain from its value
at creation to the stored one, for any interleaving of edits. -/
theorem reachable_chained {db : Db} (hids : (db.workItems.map WorkItem.id).Nodup)
    {created : WorkItem} (hcreated : created ∈ db.workItems)
    (hlogs : ∀ log ∈ db.activityLogs, log.entityId = created.id → log.changes = none)
    {config : Concurrency.Config Db WorkStep Failure Unit}
    (hreach : Reachable EditRequest.serve DiffedFromRow db config) :
    Chained created config.db := by
  refine reachable_keeps edit_effect (fun world ↦ Chained created world.db) ?_ ?_
    hreach
  · intro field _ row hrow hid
    have hnone : fieldChanges created.id field db.activityLogs = [] := by
      refine List.filterMap_eq_nil_iff.mpr fun log hlog ↦ ?_
      unfold recordedChange
      split_ifs with hentity
      · rw [hlogs log hlog hentity, Option.filter_none]
      · rfl
    rw [List.inj_on_of_nodup_map hids hrow hcreated hid]
    change ChainFrom _ (fieldChanges created.id field db.activityLogs) _
    rw [hnone]
    rfl
  · rintro world number label after hchained hpermits (hreads | ⟨_, _, _, _, rfl, hcommit⟩)
    · obtain ⟨rfl, rfl⟩ := hreads
      exact hchained
    · exact hchained.update hpermits.1 hpermits.2 hcommit

/-! ### Two overlapping updates -/

/-- A project with one item, right after its creation. -/
def revisionDb : Db where
  projects := [{ id := 1, tenantId := 2, workspaceId := 3, key := "APP", name := "App",
                 createdAt := 0 }]
  workItems := [{ id := 30, tenantId := 2, projectId := 1, itemKey := "APP-1", type := .story,
                  title := "Login", statusId := 10, createdBy := 4, createdAt := 0 }]

/-- The item of that project. -/
def revisionItem : WorkItem := revisionDb.workItems.head (by decide)

/-- A member of the tenant. -/
def editor : Actor := { sub := 4, tenantId := 2 }

/-- Two updates of the title, one after the other. -/
def consecutiveUpdates : List (Choice EditRequest) :=
  .start (.updateWorkItem editor 30 { title := "Sign in" }) :: finish 0 ++
    .start (.updateWorkItem editor 30 { title := "Sign on", storyPoints := some (some 3) }) :: finish 1

set_option maxRecDepth 2000 in
/-- A witness that the condition can be met: two updates one after the other. -/
theorem reachable_chained_witness :
    Chained revisionItem
      ((Concurrency.Config.initial revisionDb).play EditRequest.serve consecutiveUpdates).db :=
  reachable_chained (by decide) (by decide) (by decide) (play_reachable (by decide +kernel))

/-- Two updates of the title read the item before either of them writes it. -/
def overlappingUpdates : List (Choice EditRequest) :=
  [.start (.updateWorkItem editor 30 { title := "Sign in" }),
    .start (.updateWorkItem editor 30 { title := "Sign on" }), .resume 0] ++ finish 1 ++ finish 0

set_option maxRecDepth 2000 in
/-- Without the condition the chain breaks: both entries record the title at creation as the old
value. -/
theorem brokenChain :
    ¬ ∀ (db : Db) (created : WorkItem) (config : Concurrency.Config Db WorkStep Failure Unit),
      (db.workItems.map WorkItem.id).Nodup → created ∈ db.workItems →
        (∀ log ∈ db.activityLogs, log.entityId = created.id → log.changes = none) →
          Reachable EditRequest.serve anyStep db config → Chained created config.db := by
  intro halways
  have hchained := halways revisionDb revisionItem _ (by decide) (by decide) (by decide)
    (play_reachable (allowsAll_anyStep _ overlappingUpdates)) .title rfl
  exact absurd hchained (by decide +kernel)

/-- A team in capitals, `A` for the `a` of the column. -/
def capitalTeam : UuidText where
  value := 10
  capitals := 1
  letters digit hcapital := by
    have hdigit : digit = 0 := Nat.testBit_one_eq_true_iff_self_eq_zero.mp hcapital
    subst hdigit
    decide

/-- An update on its own breaks the chain, where it gives a team in capitals. -/
example : ¬ FieldChained revisionItem
    ((Concurrency.Config.initial revisionDb).play EditRequest.serve
      (.start (.updateWorkItem editor 30 { teamId := some (some capitalTeam) }) :: finish 0)).db
    .teamId := by decide +kernel

end RallyApi.Work

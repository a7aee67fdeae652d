import RallyApi.Work.Repositories

/-!
# The diff behind the revision history

`diffWorkItem` compares a work item with a change set and yields one entry for each tracked field
that changes. A rich-text field leaves an entry without the two values.

`WorkItem.get` and `UpdateWorkItemInput.get` read a tracked field of an item and of a change set, and
`get_set` says what an update does to it.
-/

set_option autoImplicit false
set_option relaxedAutoImplicit false

namespace RallyApi.Work

open Platform

/-! ### The tracked fields -/

/-- A nullable value of a field. -/
def Value.ofOption {α : Type} (value : α → Value) : Option α → Value
  | none => .null
  | some present => value present

/-- The text of an identifier in a column. -/
def Value.ofColumn (id : Uuid) : Value :=
  .uuid id

/-- The value of a tracked field. -/
def WorkItem.get (item : WorkItem) : Field → Value
  | .title => .text item.title
  | .description => .ofOption .text item.description
  | .notes => .ofOption .text item.notes
  | .releaseNotes => .ofOption .text item.releaseNotes
  | .acceptanceCriteria => .ofOption .text item.acceptanceCriteria
  | .isBlocked => .flag item.isBlocked
  | .blockedReason => .ofOption .text item.blockedReason
  | .teamId => .ofOption .ofColumn item.teamId
  | .iterationId => .ofOption .ofColumn item.iterationId
  | .releaseId => .ofOption .ofColumn item.releaseId
  | .statusId => .ofColumn item.statusId
  | .scheduleState => .scheduleState item.scheduleState
  | .priority => .priority item.priority
  | .assigneeId => .ofOption .ofColumn item.assigneeId
  | .storyPoints => .ofOption .number item.storyPoints
  | .estimateHours => .ofOption .hours item.estimateHours
  | .todoHours => .ofOption .hours item.todoHours
  | .actualHours => .ofOption .hours item.actualHours

/-- The value a change set gives to a tracked field; none for a field it does not name. An identifier is
in the spelling of the request. -/
def UpdateWorkItemInput.get (input : UpdateWorkItemInput) : Field → Option Value
  | .title => input.title.map .text
  | .description => input.description.map (.ofOption .text)
  | .notes => input.notes.map (.ofOption .text)
  | .releaseNotes => input.releaseNotes.map (.ofOption .text)
  | .acceptanceCriteria => input.acceptanceCriteria.map (.ofOption .text)
  | .isBlocked => input.isBlocked.map .flag
  | .blockedReason => input.blockedReason.map (.ofOption .text)
  | .teamId => input.teamId.map (.ofOption .uuid)
  | .iterationId => input.iterationId.map (.ofOption .uuid)
  | .releaseId => input.releaseId.map (.ofOption .uuid)
  | .statusId => input.statusId.map .uuid
  | .scheduleState => input.scheduleState.map .scheduleState
  | .priority => input.priority.map .priority
  | .assigneeId => input.assigneeId.map (.ofOption .uuid)
  | .storyPoints => input.storyPoints.map (.ofOption .number)
  | .estimateHours => input.estimateHours.map (.ofOption .hours)
  | .todoHours => input.todoHours.map (.ofOption .hours)
  | .actualHours => input.actualHours.map (.ofOption .hours)

/-- `RICH_TEXT_FIELDS`. -/
def Field.isRich : Field → Bool
  | .description | .notes | .releaseNotes | .acceptanceCriteria | .blockedReason => true
  | _ => false

/-! ### The diff -/

/-- `String(a) === String(b)` of two values of one field. Values of one type have the same text only
when they are equal, and the text of `null` is also a text a user can type. -/
def sameText : Value → Value → Bool
  | .null, .text text | .text text, .null => text = "null"
  | before, after => before = after

/-- `changed`. -/
def changed (before after : Value) : Bool :=
  if before = .null ∧ after = .null then false else !sameText before after

/-- `ActivityDiffEntry`. -/
structure ActivityDiffEntry where
  action : ActivityAction
  change : ActivityChange
  deriving DecidableEq, Repr

/-- `entry`. -/
def entry (field : Field) (before : WorkItem) (next : Value) (itemAction taskAction : ActivityAction)
    (isTask : Bool) : ActivityDiffEntry where
  action := if isTask then taskAction else itemAction
  change :=
    { field
      old := if field.isRich then .null else before.get field
      new := if field.isRich then .null else next }

/-- The local `add` of `diffWorkItem`. -/
def addEntry (before : WorkItem) (input : UpdateWorkItemInput) (isTask : Bool) (field : Field)
    (itemAction taskAction : ActivityAction) : Option ActivityDiffEntry :=
  match input.get field with
  | none => none
  | some next =>
    if changed (before.get field) next then
      some (entry field before next itemAction taskAction isTask)
    else none

/-- The fields `diffWorkItem` goes through, with the actions of an item and of a task. -/
def trackedFields : List (Field × ActivityAction × ActivityAction) :=
  [(.title, .workItemUpdated, .taskUpdated),
    (.description, .workItemUpdated, .taskUpdated),
    (.notes, .workItemUpdated, .taskUpdated),
    (.releaseNotes, .workItemUpdated, .taskUpdated),
    (.acceptanceCriteria, .workItemUpdated, .taskUpdated),
    (.isBlocked, .workItemUpdated, .taskUpdated),
    (.blockedReason, .workItemUpdated, .taskUpdated),
    (.teamId, .workItemUpdated, .taskUpdated),
    (.iterationId, .workItemUpdated, .taskUpdated),
    (.releaseId, .workItemUpdated, .taskUpdated),
    (.statusId, .workItemFlowStateChanged, .taskStateChanged),
    (.scheduleState, .workItemScheduleStateChanged, .taskStateChanged),
    (.priority, .workItemPriorityChanged, .taskUpdated),
    (.assigneeId, .workItemAssigned, .taskUpdated),
    (.storyPoints, .workItemEstimateUpdated, .taskEstimateUpdated),
    (.estimateHours, .workItemEstimateUpdated, .taskEstimateUpdated),
    (.todoHours, .workItemUpdated, .taskTodoUpdated),
    (.actualHours, .workItemUpdated, .taskActualUpdated)]

/-- `diffWorkItem`. -/
def diffWorkItem (before : WorkItem) (input : UpdateWorkItemInput) (isTask : Bool) :
    List ActivityDiffEntry :=
  trackedFields.filterMap fun (field, itemAction, taskAction) ↦
    addEntry before input isTask field itemAction taskAction

/-! ### Reading a field after an update -/

/-- What a column gives back of a value that is written to it. -/
def Value.stored : Value → Value
  | .uuid id => .ofColumn id.value
  | value => value

theorem stored_ofOption {α : Type} {value : α → Value}
    (hstored : ∀ present, (value present).stored = value present) (option : Option α) :
    (Value.ofOption value option).stored = .ofOption value option := by
  cases option with
  | none => rfl
  | some present => exact hstored present

/-- A value that has been read from a column is stored as it is. -/
@[simp]
theorem stored_get (item : WorkItem) (field : Field) : (item.get field).stored = item.get field := by
  cases field <;> first | rfl | exact stored_ofOption (fun _ ↦ rfl) _

/-- A field takes the value of the change set, if there is one, as its column reads it. -/
theorem getD_read {Sent Kept : Type} (sent : Sent → Value) (kept : Kept → Value) (read : Sent → Kept)
    (hread : ∀ next, (sent next).stored = kept (read next)) (next : Option Sent) (current : Kept) :
    kept ((next.map read).getD current) = ((next.map sent).map Value.stored).getD (kept current) := by
  cases next with
  | none => rfl
  | some next => exact (hread next).symm

/-- So does a field whose column keeps what is sent. -/
theorem getD_kept {Kept : Type} (kept : Kept → Value) (hkept : ∀ next, (kept next).stored = kept next)
    (next : Option Kept) (current : Kept) :
    kept (next.getD current) = ((next.map kept).map Value.stored).getD (kept current) := by
  have hread := getD_read kept kept id hkept next current
  rwa [Option.map_id_fun, id] at hread

/-- An update gives a tracked field the value of the change set, if there is one, as the column stores
it. -/
theorem get_set (input : UpdateWorkItemInput) (item : WorkItem) (field : Field) :
    (input.set item).get field = ((input.get field).map Value.stored).getD (item.get field) := by
  have hnullable : ∀ next : Option UuidText,
      (Value.ofOption .uuid next).stored = .ofOption .ofColumn (next.map UuidText.value) := by
    intro next
    cases next <;> rfl
  cases field with
  | statusId => exact getD_read .uuid .ofColumn UuidText.value (fun _ ↦ rfl) _ _
  | teamId | iterationId | releaseId | assigneeId =>
    exact getD_read (.ofOption .uuid) (.ofOption .ofColumn) (Option.map UuidText.value) hnullable _ _
  | title | isBlocked | scheduleState | priority => exact getD_kept _ (fun _ ↦ rfl) _ _
  | description | notes | releaseNotes | acceptanceCriteria | blockedReason =>
    exact getD_kept (.ofOption .text) (stored_ofOption fun _ ↦ rfl) _ _
  | storyPoints => exact getD_kept (.ofOption .number) (stored_ofOption fun _ ↦ rfl) _ _
  | estimateHours | todoHours | actualHours =>
    exact getD_kept (.ofOption .hours) (stored_ofOption fun _ ↦ rfl) _ _

end RallyApi.Work

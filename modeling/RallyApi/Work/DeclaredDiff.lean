import Mathlib.Data.List.Induction
import Mathlib.Logic.Function.Basic
import RallyApi.Platform.Digits
import RallyApi.Work.HistoryCoverage

/-!
# The diff over values of the declared types

`diffWorkItem` compares the values of a field by their texts, `String(a) !== String(b)`. `ActivityDiff`
gives it on the values a database row and a validated request can hold. Here it is given on all values of
the types that `WorkItem` and `UpdateWorkItemInput` declare: any strings, numbers and flags, and `null`
where a field is nullable.

`diffWorkItem_exact_iff` says for which items and change sets the diff has exactly one entry for each field
that changes. `diffWorkItem_render` says that the diff of `ActivityDiff` is this one, on rows and requests
whose identifiers and hours are written as texts.
-/

set_option autoImplicit false
set_option relaxedAutoImplicit false

namespace RallyApi.Work.Declared

/-! ### Values -/

/-- The numbers of the language with the texts that `String` gives them. A number is determined by its text
(`NaN` counts as one number, and `-0` as `0`), which is not that of `null`. -/
structure Numerals where
  Number : Type
  [decidableEq : DecidableEq Number]
  text : Number → String
  text_injective : Function.Injective text
  text_ne_null : ∀ number, text number ≠ "null"

attribute [instance] Numerals.decidableEq

/-- The integers among them. -/
def integers : Numerals where
  Number := ℤ
  text := toString
  text_injective _ _ := Platform.toString_int_injective
  text_ne_null number hnull := by
    have hchars := congrArg String.toList hnull
    rw [Platform.toList_toString_int] at hchars
    have hdigit := Platform.notMem_toDigits (by decide : 'u'.isDigit = false) number.natAbs
    split_ifs at hchars
    · exact hdigit (hchars ▸ by decide)
    · cases (List.cons.inj hchars).1

/-- A value of a field. -/
inductive JsValue (numerals : Numerals)
  | null
  | string (text : String)
  | number (number : numerals.Number)
  | boolean (flag : Bool)
  deriving DecidableEq

/-- The declared type of a field. -/
inductive DeclaredType
  | string
  | nullableString
  | nullableNumber
  | boolean

/-- The type of a field in `WorkItem` and `UpdateWorkItemInput`; the types of the two states are types of
strings. -/
def declaredType : Field → DeclaredType
  | .title | .statusId | .scheduleState | .priority => .string
  | .isBlocked => .boolean
  | .storyPoints => .nullableNumber
  | .description | .notes | .releaseNotes | .acceptanceCriteria | .blockedReason | .teamId
  | .iterationId | .releaseId | .assigneeId | .estimateHours | .todoHours | .actualHours =>
    .nullableString

variable {numerals : Numerals}

/-- The values of a type. -/
inductive DeclaredType.Admits : DeclaredType → JsValue numerals → Prop
  | string (text : String) : Admits .string (.string text)
  | nullString : Admits .nullableString .null
  | nullableString (text : String) : Admits .nullableString (.string text)
  | nullNumber : Admits .nullableNumber .null
  | nullableNumber (number : numerals.Number) : Admits .nullableNumber (.number number)
  | boolean (flag : Bool) : Admits .boolean (.boolean flag)

/-- The tracked fields of a `WorkItem`. -/
structure WorkItem (numerals : Numerals) where
  value : Field → JsValue numerals
  declared : ∀ field, (declaredType field).Admits (value field)

/-- The tracked fields of an `UpdateWorkItemInput`; a field that is `undefined` has none. -/
structure UpdateWorkItemInput (numerals : Numerals) where
  value : Field → Option (JsValue numerals)
  declared : ∀ field, ∀ next ∈ value field, (declaredType field).Admits next

/-! ### The diff and the update -/

/-- `String(value)`. -/
def JsValue.toText : JsValue numerals → String
  | .null => "null"
  | .string text => text
  | .number value => numerals.text value
  | .boolean true => "true"
  | .boolean false => "false"

/-- `changed`. -/
def changed (before after : Option (JsValue numerals)) : Bool :=
  let a := before.getD .null
  let b := after.getD .null
  if a = .null ∧ b = .null then false else a.toText ≠ b.toText

/-- `ActivityDiffEntry`. -/
structure ActivityDiffEntry (numerals : Numerals) where
  action : ActivityAction
  field : Field
  old : JsValue numerals
  new : JsValue numerals

/-- `entry`. -/
def entry (field : Field) (before : WorkItem numerals) (next : JsValue numerals)
    (itemAction taskAction : ActivityAction) (isTask : Bool) : ActivityDiffEntry numerals where
  action := if isTask then taskAction else itemAction
  field := field
  old := if field.isRich then .null else before.value field
  new := if field.isRich then .null else next

/-- The local `add` of `diffWorkItem`. -/
def addEntry (before : WorkItem numerals) (input : UpdateWorkItemInput numerals) (isTask : Bool)
    (field : Field) (itemAction taskAction : ActivityAction) : Option (ActivityDiffEntry numerals) :=
  match input.value field with
  | none => none
  | some next =>
    if changed (some (before.value field)) (some next) then
      some (entry field before next itemAction taskAction isTask)
    else none

/-- `diffWorkItem`. -/
def diffWorkItem (before : WorkItem numerals) (input : UpdateWorkItemInput numerals) (isTask : Bool) :
    List (ActivityDiffEntry numerals) :=
  trackedFields.filterMap fun (field, itemAction, taskAction) ↦
    addEntry before input isTask field itemAction taskAction

/-- The tracked fields among the columns that `update` sets, in its order. -/
def updatedFields : List Field :=
  [.title, .description, .statusId, .scheduleState, .priority, .assigneeId, .teamId, .iterationId,
    .releaseId, .storyPoints, .estimateHours, .todoHours, .actualHours, .acceptanceCriteria, .notes,
    .releaseNotes, .isBlocked, .blockedReason]

/-- The tracked fields after `update`: a column of the list takes the requested value, if there is one. -/
def update (before : WorkItem numerals) (input : UpdateWorkItemInput numerals) (field : Field) :
    JsValue numerals :=
  if field ∈ updatedFields then (input.value field).getD (before.value field) else before.value field

/-- The tracked fields after the new values of the entries have been written, rich texts apart. -/
def writeEntries (before : WorkItem numerals) (entries : List (ActivityDiffEntry numerals)) :
    Field → JsValue numerals :=
  entries.foldl
    (fun values written ↦
      if written.field.isRich then values else Function.update values written.field written.new)
    before.value

/-- The update sets every tracked field. -/
theorem mem_updatedFields (field : Field) : field ∈ updatedFields := by
  cases field <;> decide

/-! ### What counts as changed -/

/-- Two values of a field that differ although they have the same text. -/
def Lookalike (before next : JsValue numerals) : Prop :=
  before = .null ∧ next = .string "null" ∨ before = .string "null" ∧ next = .null

/-- Two values count as the same when they have the same text. -/
theorem not_changed_iff_toText {before next : JsValue numerals} :
    changed (some before) (some next) = false ↔ before.toText = next.toText := by
  simp only [changed, Option.getD_some]
  split_ifs with hnull
  · rw [hnull.1, hnull.2]
    simp
  · simp

/-- Two values of one declared type have the same text when they are the same or look alike. -/
theorem toText_eq_iff {type : DeclaredType} {before next : JsValue numerals}
    (hbefore : type.Admits before) (hnext : type.Admits next) :
    before.toText = next.toText ↔ before = next ∨ Lookalike before next := by
  cases hbefore with
  | string text =>
    cases hnext
    simp [JsValue.toText, Lookalike]
  | nullString =>
    cases hnext with
    | nullString => simp
    | nullableString text => simp [JsValue.toText, Lookalike, eq_comm (a := "null")]
  | nullableString text =>
    cases hnext with
    | nullString => simp [JsValue.toText, Lookalike]
    | nullableString next => simp [JsValue.toText, Lookalike]
  | nullNumber =>
    cases hnext with
    | nullNumber => simp
    | nullableNumber number =>
      simp [JsValue.toText, Lookalike, (numerals.text_ne_null number).symm]
  | nullableNumber number =>
    cases hnext with
    | nullNumber => simp [JsValue.toText, Lookalike, numerals.text_ne_null number]
    | nullableNumber next =>
      simp [JsValue.toText, Lookalike, numerals.text_injective.eq_iff]
  | boolean flag =>
    cases hnext with
    | boolean next => cases flag <;> cases next <;> simp [JsValue.toText, Lookalike]

/-- A value that is requested for a field counts as the stored one when it is, or looks like it. -/
theorem not_changed_iff {before : WorkItem numerals} {input : UpdateWorkItemInput numerals}
    {field : Field} {next : JsValue numerals} (hnext : next ∈ input.value field) :
    changed (some (before.value field)) (some next) = false ↔
      before.value field = next ∨ Lookalike (before.value field) next := by
  rw [not_changed_iff_toText, toText_eq_iff (before.declared field) (input.declared field next hnext)]

/-- An entry is about a field whose requested value counts as changed, and carries the two values unless
they are rich texts. -/
structure EntryOf (before : WorkItem numerals) (input : UpdateWorkItemInput numerals) (field : Field)
    (next : JsValue numerals) (written : ActivityDiffEntry numerals) : Prop where
  field_eq : written.field = field
  requested : next ∈ input.value field
  changed : changed (some (before.value field)) (some next) = true
  old_eq : written.old = if field.isRich then .null else before.value field
  new_eq : written.new = if field.isRich then .null else next

variable {before : WorkItem numerals} {input : UpdateWorkItemInput numerals} {isTask : Bool}
  {field : Field}

theorem exists_entryOf {itemAction taskAction : ActivityAction} {written : ActivityDiffEntry numerals}
    (hadd : addEntry before input isTask field itemAction taskAction = some written) :
    ∃ next, EntryOf before input field next written := by
  unfold addEntry at hadd
  split at hadd
  next => cases hadd
  next next hnext =>
    split_ifs at hadd with hchanged
    obtain rfl := Option.some.inj hadd
    exact ⟨next, rfl, hnext, hchanged, rfl, rfl⟩

/-- An entry of the diff is about its field. -/
theorem exists_entryOf_mem {written : ActivityDiffEntry numerals}
    (hwritten : written ∈ diffWorkItem before input isTask) :
    ∃ next, EntryOf before input written.field next written := by
  obtain ⟨⟨tracked, itemAction, taskAction⟩, _, hadd⟩ := List.mem_filterMap.mp hwritten
  obtain ⟨next, hentry⟩ := exists_entryOf hadd
  exact ⟨next, hentry.field_eq ▸ hentry⟩

/-- The diff has one entry for a field whose value counts as changed, and none for another. -/
theorem countP_diffWorkItem (before : WorkItem numerals) (input : UpdateWorkItemInput numerals)
    (isTask : Bool) (field : Field) :
    (diffWorkItem before input isTask).countP (fun written ↦ written.field = field) =
      if ∃ next ∈ input.value field, changed (some (before.value field)) (some next) = true then 1
      else 0 := by
  split_ifs with hchanged
  · obtain ⟨next, hnext, hchanged⟩ := hchanged
    have hone : trackedFields.countP (fun tracked ↦ tracked.1 = field) = 1 := by
      cases field <;> decide
    rw [diffWorkItem, List.countP_filterMap, ← hone]
    refine List.countP_congr fun ⟨tracked, itemAction, taskAction⟩ _ ↦ ?_
    by_cases htracked : tracked = field
    · subst htracked
      simp [addEntry, Option.mem_def.mp hnext, hchanged, entry]
    · cases hadd : addEntry before input isTask tracked itemAction taskAction with
      | none => simp [hadd, htracked]
      | some written =>
        obtain ⟨_, hentry⟩ := exists_entryOf hadd
        simp [hadd, htracked, hentry.field_eq]
  · refine List.countP_eq_zero.mpr fun written hwritten hfield ↦ hchanged ?_
    obtain ⟨next, hentry⟩ := exists_entryOf_mem hwritten
    rw [of_decide_eq_true hfield] at hentry
    exact ⟨next, hentry.requested, hentry.changed⟩

/-- A value that counts as changed has an entry. -/
theorem exists_entry_of_changed {next : JsValue numerals} (isTask : Bool)
    (hnext : next ∈ input.value field)
    (hchanged : changed (some (before.value field)) (some next) = true) :
    ∃ written ∈ diffWorkItem before input isTask, written.field = field := by
  have hpos : 0 < (diffWorkItem before input isTask).countP fun written ↦ written.field = field := by
    rw [countP_diffWorkItem, if_pos ⟨next, hnext, hchanged⟩]
    exact Nat.one_pos
  obtain ⟨written, hwritten, hfield⟩ := List.countP_pos_iff.mp hpos
  exact ⟨written, hwritten, of_decide_eq_true hfield⟩

/-! ### Writing the entries -/

/-- Fields without an entry keep their value. -/
theorem writeEntries_of_forall_ne {entries : List (ActivityDiffEntry numerals)}
    (hnone : ∀ written ∈ entries, written.field ≠ field) :
    writeEntries before entries field = before.value field := by
  induction entries using List.reverseRecOn with
  | nil => rfl
  | append_singleton entries last ih =>
    have hlast := hnone last (by simp)
    rw [writeEntries, List.foldl_append, List.foldl_cons, List.foldl_nil]
    have hrest := ih fun written hwritten ↦ hnone written (by simp [hwritten])
    split_ifs
    · exact hrest
    · rw [Function.update_of_ne hlast.symm]
      exact hrest

/-- Assumes: all entries for a field, which is no rich text, have one new value. It is written. -/
theorem writeEntries_of_mem {entries : List (ActivityDiffEntry numerals)} {next : JsValue numerals}
    (hplain : field.isRich = false) (hsome : ∃ written ∈ entries, written.field = field)
    (hnew : ∀ written ∈ entries, written.field = field → written.new = next) :
    writeEntries before entries field = next := by
  induction entries using List.reverseRecOn with
  | nil => simp at hsome
  | append_singleton entries last ih =>
    rw [writeEntries, List.foldl_append, List.foldl_cons, List.foldl_nil]
    by_cases hlast : last.field = field
    · subst hlast
      rw [if_neg (by simp [hplain]), Function.update_self]
      exact hnew last (by simp) rfl
    · have hrest : writeEntries before entries field = next := by
        refine ih ?_ fun written hwritten ↦ hnew written (by simp [hwritten])
        obtain ⟨written, hwritten, hfield⟩ := hsome
        rcases List.mem_append.mp hwritten with hold | hnewest
        · exact ⟨written, hold, hfield⟩
        · exact absurd (List.mem_singleton.mp hnewest ▸ hfield) hlast
      split_ifs
      · exact hrest
      · rw [Function.update_of_ne (Ne.symm hlast)]
        exact hrest

/-- Assumes: a new value of the field, which is no rich text, counts as changed when it is another one. The
entries write what the update writes. -/
theorem writeEntries_diffWorkItem (isTask : Bool) (hplain : field.isRich = false)
    (hchanged : ∀ next ∈ input.value field,
      (changed (some (before.value field)) (some next) = true ↔ next ≠ before.value field)) :
    writeEntries before (diffWorkItem before input isTask) field = update before input field := by
  rw [update, if_pos (mem_updatedFields field)]
  by_cases hsome : ∃ written ∈ diffWorkItem before input isTask, written.field = field
  · obtain ⟨written, hwritten, rfl⟩ := hsome
    obtain ⟨next, hentry⟩ := exists_entryOf_mem hwritten
    rw [Option.mem_def.mp hentry.requested, Option.getD_some]
    refine writeEntries_of_mem hplain ⟨written, hwritten, rfl⟩ fun other hother hfield ↦ ?_
    obtain ⟨value, hvalue⟩ := exists_entryOf_mem hother
    rw [hvalue.new_eq, hfield, if_neg (by simp [hplain])]
    exact Option.mem_unique (hfield ▸ hvalue.requested) hentry.requested
  · rw [writeEntries_of_forall_ne fun written hwritten hfield ↦ hsome ⟨written, hwritten, hfield⟩]
    cases hnext : input.value field with
    | none => rfl
    | some next =>
      by_contra hdiffers
      rw [Option.getD_some] at hdiffers
      exact hsome (exists_entry_of_changed isTask hnext ((hchanged next hnext).mpr (Ne.symm hdiffers)))

/-! ### Exactness -/

/-- The diff is exact: one entry for each field that is given another value and none otherwise, rich texts
without their values, and the other new values are those the update writes. -/
structure Exact (before : WorkItem numerals) (input : UpdateWorkItemInput numerals) (isTask : Bool) :
    Prop where
  entries : ∀ field, (diffWorkItem before input isTask).countP (fun written ↦ written.field = field) =
    if ∃ next ∈ input.value field, next ≠ before.value field then 1 else 0
  rich : ∀ written ∈ diffWorkItem before input isTask, written.field.isRich = true →
    written.old = .null ∧ written.new = .null
  writes : ∀ field, field.isRich = false →
    writeEntries before (diffWorkItem before input isTask) field = update before input field

/-- The condition: no field goes from `null` to the text `null`, or back. -/
def NoLookalike (before : WorkItem numerals) (input : UpdateWorkItemInput numerals) : Prop :=
  ∀ field, ∀ next ∈ input.value field, ¬ Lookalike (before.value field) next

/-- The diff is exact exactly when no value looks like the one it replaces. -/
theorem diffWorkItem_exact_iff (before : WorkItem numerals) (input : UpdateWorkItemInput numerals)
    (isTask : Bool) : Exact before input isTask ↔ NoLookalike before input := by
  constructor
  · intro hexact field next hnext hlookalike
    have hcount := hexact.entries field
    have hsame := (not_changed_iff hnext).mpr (.inr hlookalike)
    have hunseen : ¬ ∃ next ∈ input.value field,
        changed (some (before.value field)) (some next) = true := by
      rintro ⟨other, hother, hchanged⟩
      rw [Option.mem_unique hother hnext, hsame] at hchanged
      cases hchanged
    have hdiffers : next ≠ before.value field := by
      rcases hlookalike with ⟨hbefore, rfl⟩ | ⟨hbefore, rfl⟩
      · simp [hbefore]
      · simp [hbefore]
    rw [countP_diffWorkItem, if_neg hunseen, if_pos ⟨next, hnext, hdiffers⟩] at hcount
    cases hcount
  · intro hno
    have hchanged : ∀ field, ∀ next ∈ input.value field,
        (changed (some (before.value field)) (some next) = true ↔ next ≠ before.value field) := by
      intro field next hnext
      rw [← Bool.not_eq_false, not_changed_iff hnext, or_iff_left (hno field next hnext), eq_comm]
    refine ⟨fun field ↦ ?_, fun written hwritten hrich ↦ ?_, fun field hplain ↦ ?_⟩
    · rw [countP_diffWorkItem]
      refine if_congr (exists_congr fun next ↦ and_congr_right fun hnext ↦ ?_) rfl rfl
      exact hchanged field next hnext
    · obtain ⟨next, hentry⟩ := exists_entryOf_mem hwritten
      rw [hentry.old_eq, hentry.new_eq, if_pos hrich, if_pos hrich]
      exact ⟨rfl, rfl⟩
    · exact writeEntries_diffWorkItem isTask hplain (hchanged field)

/-- An item without a description. -/
def undescribedItem : WorkItem integers where
  value field :=
    match declaredType field with
    | .string => .string "Login"
    | .boolean => .boolean false
    | .nullableString | .nullableNumber => .null
  declared field := by cases field <;> constructor

/-- A change set that makes the description the text `null`. -/
def describedAsNull : UpdateWorkItemInput integers where
  value field := if field = .description then some (.string "null") else none
  declared field next hnext := by
    split_ifs at hnext with hfield
    · obtain rfl := Option.some.inj hnext
      rw [hfield]
      exact .nullableString "null"
    · cases hnext

/-- The diff does not see that the description has changed. -/
theorem unseenDescription :
    ¬ ∀ (numerals : Numerals) (before : WorkItem numerals) (input : UpdateWorkItemInput numerals)
      (isTask : Bool), Exact before input isTask := by
  intro halways
  have hcount := (halways integers undescribedItem describedAsNull false).entries .description
  have hdiffers : ∃ next ∈ describedAsNull.value .description,
      next ≠ undescribedItem.value .description := ⟨.string "null", rfl, by decide⟩
  rw [if_pos hdiffers] at hcount
  exact absurd hcount (by decide)

/-! ### Rows and requests, written as texts -/

/-- How identifiers and hours are written. -/
structure Texts where
  uuid : Platform.UuidText → String
  uuid_injective : Function.Injective uuid
  uuid_ne_null : ∀ id, uuid id ≠ "null"
  hours : Hours → String
  hours_injective : Function.Injective hours
  hours_ne_null : ∀ value, hours value ≠ "null"

/-- `WorkItemScheduleState`. -/
def scheduleStateText : ScheduleState → String
  | .idea => "idea"
  | .defined => "defined"
  | .inProgress => "in_progress"
  | .completed => "completed"
  | .accepted => "accepted"
  | .released => "released"

/-- `WorkItemPriority`. -/
def priorityText : Priority → String
  | .none => "none"
  | .low => "low"
  | .normal => "normal"
  | .high => "high"
  | .urgent => "urgent"

theorem scheduleStateText_injective : Function.Injective scheduleStateText := by
  intro first second hsame
  cases first <;> cases second <;> first | rfl | exact absurd hsame (by decide)

theorem priorityText_injective : Function.Injective priorityText := by
  intro first second hsame
  cases first <;> cases second <;> first | rfl | exact absurd hsame (by decide)

variable (texts : Texts)

/-- A value as the services hold it. -/
def render : Value → JsValue integers
  | .null => .null
  | .text text => .string text
  | .uuid id => .string (texts.uuid id)
  | .number number => .number (number : ℤ)
  | .hours hours => .string (texts.hours hours)
  | .flag flag => .boolean flag
  | .scheduleState state => .string (scheduleStateText state)
  | .priority priority => .string (priorityText priority)

/-- What the values of a field are, `null` apart. -/
inductive Kind
  | text
  | uuid
  | number
  | hours
  | flag
  | scheduleState
  | priority

/-- The kind of a field. -/
def fieldKind : Field → Kind
  | .title | .description | .notes | .releaseNotes | .acceptanceCriteria | .blockedReason => .text
  | .isBlocked => .flag
  | .teamId | .iterationId | .releaseId | .statusId | .assigneeId => .uuid
  | .scheduleState => .scheduleState
  | .priority => .priority
  | .storyPoints => .number
  | .estimateHours | .todoHours | .actualHours => .hours

/-- The values of a kind. -/
inductive Kind.Has : Kind → Value → Prop
  | null (kind : Kind) : Has kind .null
  | text (text : String) : Has .text (.text text)
  | uuid (id : Platform.UuidText) : Has .uuid (.uuid id)
  | number (number : ℕ) : Has .number (.number number)
  | hours (hours : Hours) : Has .hours (.hours hours)
  | flag (flag : Bool) : Has .flag (.flag flag)
  | scheduleState (state : ScheduleState) : Has .scheduleState (.scheduleState state)
  | priority (priority : Priority) : Has .priority (.priority priority)

theorem Kind.has_ofOption {α : Type} {kind : Kind} {value : α → Value}
    (hvalue : ∀ present, kind.Has (value present)) (option : Option α) :
    kind.Has (.ofOption value option) := by
  cases option with
  | none => exact .null kind
  | some present => exact hvalue present

theorem get_has (item : Work.WorkItem) (field : Field) : (fieldKind field).Has (item.get field) := by
  cases field <;> first
    | exact .text _
    | exact .flag _
    | exact .uuid _
    | exact .scheduleState _
    | exact .priority _
    | exact Kind.has_ofOption .text _
    | exact Kind.has_ofOption (fun _ ↦ .uuid _) _
    | exact Kind.has_ofOption .number _
    | exact Kind.has_ofOption .hours _

theorem requested_has {input : Work.UpdateWorkItemInput} {field : Field} {next : Value}
    (hnext : next ∈ input.get field) : (fieldKind field).Has next := by
  cases field <;> obtain ⟨present, _, rfl⟩ := Option.map_eq_some_iff.mp hnext <;> first
    | exact .text _
    | exact .flag _
    | exact .uuid _
    | exact .scheduleState _
    | exact .priority _
    | exact Kind.has_ofOption .text _
    | exact Kind.has_ofOption .uuid _
    | exact Kind.has_ofOption .number _
    | exact Kind.has_ofOption .hours _

variable {texts}

/-- The values whose text is that of `null`. -/
theorem toText_render_eq_null {kind : Kind} {value : Value} (hvalue : kind.Has value) :
    (render texts value).toText = "null" ↔ value = .null ∨ value = .text "null" := by
  cases hvalue with
  | null => simp [render, JsValue.toText]
  | text text => simp [render, JsValue.toText]
  | uuid id => simp [render, JsValue.toText, texts.uuid_ne_null]
  | number number =>
    have hnumber := integers.text_ne_null (Int.ofNat number)
    simpa [render, JsValue.toText] using hnumber
  | hours hours => simp [render, JsValue.toText, texts.hours_ne_null]
  | flag flag => cases flag <;> simp [render, JsValue.toText]
  | scheduleState state => cases state <;> simp [render, JsValue.toText, scheduleStateText]
  | priority priority => cases priority <;> simp [render, JsValue.toText, priorityText]

/-- Values of one kind have the same text when they are the same or look alike. -/
theorem toText_render_eq_iff {kind : Kind} {before next : Value} (hbefore : kind.Has before)
    (hnext : kind.Has next) :
    (render texts before).toText = (render texts next).toText ↔
      next = before ∨ Work.Lookalike before next := by
  by_cases hnextNull : next = .null
  · subst hnextNull
    refine (toText_render_eq_null hbefore).trans ?_
    simp [Work.Lookalike, eq_comm (a := before)]
  by_cases hbeforeNull : before = .null
  · subst hbeforeNull
    refine (eq_comm.trans (toText_render_eq_null hnext)).trans ?_
    simp [Work.Lookalike]
  -- Neither is `null`, so that they do not look alike, and both are of one constructor.
  have hdifferent : ¬ Work.Lookalike before next := fun hlookalike ↦
    hlookalike.elim (fun hboth ↦ hbeforeNull hboth.1) fun hboth ↦ hnextNull hboth.2
  rw [or_iff_left hdifferent]
  cases hbefore with
  | null => exact absurd rfl hbeforeNull
  | text text => cases hnext with
    | null => exact absurd rfl hnextNull
    | text next => simp [render, JsValue.toText, eq_comm (a := text)]
  | uuid id => cases hnext with
    | null => exact absurd rfl hnextNull
    | uuid next => simp [render, JsValue.toText, texts.uuid_injective.eq_iff, eq_comm (a := id)]
  | number number => cases hnext with
    | null => exact absurd rfl hnextNull
    | number next =>
      have hsame : integers.text (Int.ofNat number) = integers.text (Int.ofNat next) ↔ next = number :=
        integers.text_injective.eq_iff.trans (Int.ofNat_inj.trans eq_comm)
      simpa [render, JsValue.toText] using hsame
  | hours hours => cases hnext with
    | null => exact absurd rfl hnextNull
    | hours next => simp [render, JsValue.toText, texts.hours_injective.eq_iff, eq_comm (a := hours)]
  | flag flag => cases hnext with
    | null => exact absurd rfl hnextNull
    | flag next => cases flag <;> cases next <;> simp [render, JsValue.toText]
  | scheduleState state => cases hnext with
    | null => exact absurd rfl hnextNull
    | scheduleState next =>
      simp [render, JsValue.toText, scheduleStateText_injective.eq_iff, eq_comm (a := state)]
  | priority priority => cases hnext with
    | null => exact absurd rfl hnextNull
    | priority next =>
      simp [render, JsValue.toText, priorityText_injective.eq_iff, eq_comm (a := priority)]

/-- Written or not, two values of one kind count as changed alike. -/
theorem changed_render (texts : Texts) {kind : Kind} {before next : Value} (hbefore : kind.Has before)
    (hnext : kind.Has next) :
    changed (some (render texts before)) (some (render texts next)) = Work.changed before next := by
  have hiff : changed (some (render texts before)) (some (render texts next)) = false ↔
      Work.changed before next = false := by
    rw [not_changed_iff_toText, toText_render_eq_iff hbefore hnext, Work.not_changed_iff]
  cases hwork : Work.changed before next with
  | false => exact hiff.mpr hwork
  | true => exact Bool.eq_true_of_not_eq_false fun hrendered ↦ by simp [hiff.mp hrendered] at hwork

theorem admits_ofOption {α : Type} {value : α → Value} {text : α → String}
    (hvalue : ∀ present, render texts (value present) = .string (text present)) (option : Option α) :
    DeclaredType.nullableString.Admits (render texts (.ofOption value option)) := by
  cases option with
  | none => exact .nullString
  | some present => exact hvalue present ▸ .nullableString (text present)

theorem admits_ofOption_number (option : Option ℕ) :
    DeclaredType.nullableNumber.Admits (render texts (.ofOption .number option)) := by
  cases option with
  | none => exact .nullNumber
  | some present => exact @DeclaredType.Admits.nullableNumber integers (Int.ofNat present)

/-- The values of a row are of the declared types. -/
theorem admits_render_get (item : Work.WorkItem) (field : Field) :
    (declaredType field).Admits (render texts (item.get field)) := by
  cases field <;> first
    | exact .string _
    | exact .boolean _
    | exact admits_ofOption_number _
    | exact admits_ofOption (fun _ ↦ rfl) _

/-- So are those of a request. -/
theorem admits_render_requested {input : Work.UpdateWorkItemInput} {field : Field} {next : Value}
    (hnext : next ∈ input.get field) : (declaredType field).Admits (render texts next) := by
  cases field <;> obtain ⟨present, _, rfl⟩ := Option.map_eq_some_iff.mp hnext <;> first
    | exact .string _
    | exact .boolean _
    | exact admits_ofOption_number _
    | exact admits_ofOption (fun _ ↦ rfl) _

/-- A row, as the services hold it. -/
def renderItem (texts : Texts) (item : Work.WorkItem) : WorkItem integers where
  value field := render texts (item.get field)
  declared := admits_render_get item

/-- A validated request, as the services hold it. -/
def renderInput (texts : Texts) (input : Work.UpdateWorkItemInput) : UpdateWorkItemInput integers where
  value field := (input.get field).map (render texts)
  declared field next hnext := by
    obtain ⟨value, hvalue, rfl⟩ := Option.map_eq_some_iff.mp (Option.mem_def.mp hnext)
    exact admits_render_requested hvalue

/-- An entry of `ActivityDiff`, as the services hold it. -/
def renderEntry (texts : Texts) (written : Work.ActivityDiffEntry) : ActivityDiffEntry integers where
  action := written.action
  field := written.change.field
  old := render texts written.change.old
  new := render texts written.change.new

/-- The diff of rows and validated requests is the diff of `ActivityDiff`. -/
theorem diffWorkItem_render (texts : Texts) (item : Work.WorkItem) (input : Work.UpdateWorkItemInput)
    (isTask : Bool) :
    diffWorkItem (renderItem texts item) (renderInput texts input) isTask =
      (Work.diffWorkItem item input isTask).map (renderEntry texts) := by
  rw [diffWorkItem, Work.diffWorkItem, List.map_filterMap]
  refine List.filterMap_congr fun tracked _ ↦ ?_
  obtain ⟨field, itemAction, taskAction⟩ := tracked
  simp only [addEntry, Work.addEntry, renderInput]
  cases hnext : input.get field with
  | none => rfl
  | some next =>
    have hchanged := changed_render texts (get_has item field) (requested_has hnext)
    simp only [Option.map_some, renderItem, hchanged]
    split_ifs
    · refine congrArg some ?_
      cases hrich : field.isRich <;> simp [entry, Work.entry, renderEntry, render, hrich]
    · rfl

end RallyApi.Work.Declared

import RallyApi.Concurrency.Throws
import RallyApi.Numbers.FixedPoint
import RallyApi.TimeLogs.TimeLogsService

/-!
# Hours that have been validated

The schemas of a time log ask for hours above zero and up to 24, and only then round them to two decimals,
as `toFixed(2)` does. The table asks the same of the rounded hours.

`storable_iff`: accepted hours can be stored exactly when they are at least 0.005. Less than that is
rounded to `0.00`, which `ck_tl_hours_positive` refuses (`roundedToZero`).
-/

set_option autoImplicit false
set_option relaxedAutoImplicit false

namespace RallyApi.TimeLogs

open Concurrency Platform Work CrossTenant Numbers

/-! ### The schemas -/

/-- A field that a schema has found fault with, and the message if the schema has its own. -/
structure Issue where
  path : String
  message : Option String := none
  deriving DecidableEq, Repr

/-- `/^\d{4}-\d{2}-\d{2}$/`. -/
def isDateText (text : String) : Bool :=
  match text.toList with
  | [y, e, a, r, '-', m, o, '-', d, n] => [y, e, a, r, m, o, d, n].all Char.isDigit
  | _ => false

/-- `length` of a string, in UTF-16 code units. -/
def codeUnits (text : String) : ℕ := (text.toList.map fun char ↦ if char.toNat < 65536 then 1 else 2).sum

/-- `z.string().regex(…, 'Must be YYYY-MM-DD')`. -/
def loggedDateIssues (loggedDate : String) : List Issue :=
  if isDateText loggedDate then [] else [⟨"loggedDate", some "Must be YYYY-MM-DD"⟩]

/-- `z.coerce.number().positive().max(24)`, of a number. -/
def hoursIssues (hours : ℚ) : List Issue :=
  if 0 < hours ∧ hours ≤ 24 then [] else [⟨"hours", none⟩]

/-- `z.string().max(2000)`. -/
def descriptionIssues (description : String) : List Issue :=
  if codeUnits description ≤ 2000 then [] else [⟨"description", none⟩]

/-- What `CreateTimeLogSchema` is given. -/
structure CreateTimeLogBody where
  loggedDate : String
  hours : ℚ
  description : Option String := none

/-- What `CreateTimeLogSchema` makes of it. -/
structure CreateTimeLogDto where
  loggedDate : String
  hours : String
  description : Option String
  deriving DecidableEq, Repr

/-- `CreateTimeLogSchema`. -/
def createTimeLogSchema (body : CreateTimeLogBody) : Except (List Issue) CreateTimeLogDto :=
  let issues := loggedDateIssues body.loggedDate ++ hoursIssues body.hours ++
    (body.description.map descriptionIssues).getD []
  if issues = [] then
    .ok { loggedDate := body.loggedDate, hours := toFixed 2 body.hours, description := body.description }
  else .error issues

/-- What `UpdateTimeLogSchema` is given. The description may be null. -/
structure UpdateTimeLogBody where
  loggedDate : Option String := none
  hours : Option ℚ := none
  description : Option (Option String) := none

/-- What `UpdateTimeLogSchema` makes of it. -/
structure UpdateTimeLogDto where
  loggedDate : Option String
  hours : Option String
  description : Option (Option String)
  deriving DecidableEq, Repr

/-- `UpdateTimeLogSchema`. -/
def updateTimeLogSchema (body : UpdateTimeLogBody) : Except (List Issue) UpdateTimeLogDto :=
  let issues := (body.loggedDate.map loggedDateIssues).getD [] ++ (body.hours.map hoursIssues).getD [] ++
    (body.description.join.map descriptionIssues).getD []
  if issues = [] then
    .ok { loggedDate := body.loggedDate, hours := body.hours.map (toFixed 2), description := body.description }
  else .error issues

/-- One of the schemas accepts a body with these hours, and makes this text of them. -/
inductive Accepted (hours : ℚ) (text : String) : Prop
  | create (body : CreateTimeLogBody) (dto : CreateTimeLogDto) (hdto : createTimeLogSchema body = .ok dto)
    (hhours : body.hours = hours) (htext : dto.hours = text)
  | update (body : UpdateTimeLogBody) (dto : UpdateTimeLogDto) (hdto : updateTimeLogSchema body = .ok dto)
    (hhours : body.hours = some hours) (htext : dto.hours = some text)

/-! ### The column -/

/-- A number that is not negative, in a column `numeric(6, 2)`. -/
def hoursColumn (value : ℚ) : Except Failure Hours :=
  let hundredths := nearest (value * 100)
  if 1000000 ≤ hundredths then .error .numericValueOutOfRange else .ok ⟨hundredths⟩

/-- A configuration of the time logs. -/
abbrev TimeLogRun := Concurrency.Config Db TimeLogStep Failure Unit

/-- The request writes these hours. -/
def TimeLogRequest.Writes (hours : Hours) : TimeLogRequest → Prop
  | .logTime _ _ _ input => input.hours = hours
  | .updateTimeLog _ _ _ _ input => input.hours = some hours
  | .deleteTimeLog .. | .tick _ => False

/-- In no run has a request that writes these hours failed on the constraint. -/
def NeverRefused (hours : Hours) : Prop :=
  ∀ (db : Db) (requests : List TimeLogRequest) (config : TimeLogRun),
    ReachableBy TimeLogRequest.serve rowLocks db requests config →
    ∀ (number : ℕ) (request : TimeLogRequest), requests[number]? = some request → request.Writes hours →
      config.calls[number]? ≠ some (.done (.error (.checkViolation "ck_tl_hours_positive")))

/-- The text denotes a value that satisfies the constraint, and is stored as these hours. -/
structure StoredAs (text : String) (value : ℚ) (hours : Hours) : Prop where
  denotes : numeral text.toList = some value
  positive : 0 < value
  atMost : value ≤ 24
  fits : hoursColumn value = .ok hours
  exact : (hours.hundredths : ℚ) / 100 = value
  neverRefused : NeverRefused hours

/-- The text can be stored. -/
def Storable (text : String) : Prop := ∃ value hours, StoredAs text value hours

/-! ### What the constraint refuses -/

variable {hours : Hours} {write : LogWrite} {log : TimeLog} {columns : LogColumns} {h : ℚ} {text : String}

theorem getWorkItem_throws {tenantId id : Uuid} {constraint : String} :
    ¬ (ofWork (getWorkItem tenantId id)).Throws (.checkViolation constraint) := by
  intro hthrows
  have hthrown := Call.Throws.of_within hthrows
  simp [getWorkItem, findWorkItemById, notFoundException] at hthrown

theorem syncActualHours_throws {commits : Bool} {constraint : String} :
    ¬ (syncActualHours commits write).Throws (.checkViolation constraint) := by
  simp only [syncActualHours, Call.throws_bind, not_or, not_exists, not_and]
  refine ⟨Call.throws_query, fun total _ ↦ ?_⟩
  split_ifs <;> simp [rollback, lockItem, commit, giveUp]

theorem logTime_throws {commits : Bool} {actor : Actor} {workItemId : Uuid} {input : LogTimeInput}
    (hcheck : checkHours input.hours = true) :
    ¬ (logTime commits actor workItemId input).Throws (.checkViolation "ck_tl_hours_positive") := by
  simp only [logTime, create, newLog, Call.throws_bind, getWorkItem_throws, false_or, not_exists, not_and]
  rintro item - (hnew | ⟨log, hlog, hensure | ⟨_, _, hsync | ⟨_, _, hpure⟩⟩⟩)
  · exact Call.throws_atomically hnew
  · obtain ⟨db, rfl⟩ := hlog
    exact (Call.throws_ensure.mp hensure).1 hcheck
  · exact syncActualHours_throws hsync
  · exact Call.throws_pure hpure

theorem updateLocked_throws {commits : Bool} (hcheck : checkHours (columns.set log).hours = true) :
    ¬ (updateLocked commits columns log).Throws (.checkViolation "ck_tl_hours_positive") := by
  rw [updateLocked, if_pos hcheck]
  split_ifs
  · exact syncActualHours_throws
  · exact Call.throws_atomically
  · simp [rollback]

theorem updateTimeLog_throws {commits : Bool} {actor : Actor} {workItemId logId : Uuid}
    {input : UpdateTimeLogInput} (hhours : input.hours = some hours) (hcheck : checkHours hours = true) :
    ¬ (updateTimeLog commits actor workItemId logId input).Throws
      (.checkViolation "ck_tl_hours_positive") := by
  simp only [updateTimeLog, findLog, findById, updateLog, lockLog, Call.throws_bind, getWorkItem_throws,
    false_or, not_exists, not_and]
  rintro item - (hfind | ⟨log, -, howner | ⟨_, -, hlock | ⟨found, -, hupdate⟩⟩⟩)
  · rcases hfind with hquery | ⟨_, -, hrequire⟩
    · exact Call.throws_query hquery
    · simp [notFoundException] at hrequire
  · simp [permissionDeniedException] at howner
  · exact Call.throws_atomically hlock
  · cases found with
    | none => simp [rollback] at hupdate
    | some log =>
      rcases Call.throws_bind.mp hupdate with hlocked | ⟨_, -, hpure⟩
      · refine updateLocked_throws ?_ hlocked
        simpa [LogColumns.set, hhours] using hcheck
      · exact Call.throws_pure hpure

/-- Hours that satisfy the constraint are never refused. -/
theorem neverRefused (hcheck : checkHours hours = true) : NeverRefused hours := by
  intro db requests config hreach number request hrequest hwrites hended
  have hthrows := reachableBy_throws hreach hrequest hended
  cases request with
  | logTime commits actor workItemId input =>
    have hhours : input.hours = hours := hwrites
    exact logTime_throws (hhours ▸ hcheck) (Call.throws_map.mp hthrows)
  | updateTimeLog commits actor workItemId logId input =>
    exact updateTimeLog_throws hwrites hcheck (Call.throws_map.mp hthrows)
  | deleteTimeLog | tick => exact hwrites

/-! ### Accepted hours -/

theorem hoursIssues_eq_nil : hoursIssues h = [] ↔ 0 < h ∧ h ≤ 24 := by
  simp [hoursIssues]

/-- What both schemas ask of the hours, and make of them. -/
theorem Accepted.spec (haccepted : Accepted h text) : (0 < h ∧ h ≤ 24) ∧ text = toFixed 2 h := by
  cases haccepted with
  | create body dto hdto hhours htext =>
    unfold createTimeLogSchema at hdto
    dsimp only at hdto
    split_ifs at hdto with hissues
    cases hdto
    subst hhours htext
    obtain ⟨⟨-, hnone⟩, -⟩ : (_ ∧ hoursIssues body.hours = []) ∧ _ := by
      simpa only [List.append_eq_nil_iff] using hissues
    exact ⟨hoursIssues_eq_nil.mp hnone, rfl⟩
  | update body dto hdto hhours htext =>
    unfold updateTimeLogSchema at hdto
    dsimp only at hdto
    split_ifs at hdto with hissues
    cases hdto
    rw [hhours] at htext hissues
    obtain ⟨⟨-, hnone⟩, -⟩ : (_ ∧ hoursIssues h = []) ∧ _ := by
      simpa only [List.append_eq_nil_iff, Option.map_some, Option.getD_some] using hissues
    exact ⟨hoursIssues_eq_nil.mp hnone, (Option.some.inj htext).symm⟩

theorem hoursColumn_hundredths {hundredths : ℕ} (hless : hundredths < 1000000) :
    hoursColumn ((hundredths : ℚ) / 100) = .ok ⟨hundredths⟩ := by
  simp [hoursColumn, hless]

/-- Accepted hours can be stored exactly when they are at least half a hundredth. -/
theorem storable_iff (haccepted : Accepted h text) : Storable text ↔ 1 / 200 ≤ h := by
  obtain ⟨⟨-, hmost⟩, rfl⟩ := haccepted.spec
  have hdenotes := numeral_toFixed 2 h
  have hrounded : 1 ≤ nearest (h * 10 ^ 2) ↔ 1 / 200 ≤ h := by
    rw [le_nearest_iff one_ne_zero]
    constructor <;> intro hless <;> linarith
  have hbound : nearest (h * 10 ^ 2) ≤ 2400 := nearest_le (by push_cast; linarith)
  generalize nearest (h * 10 ^ 2) = hundredths at hdenotes hrounded hbound
  rw [← hrounded]
  constructor
  · rintro ⟨value, hours, hstored⟩
    obtain rfl := Option.some.inj (hdenotes.symm.trans hstored.denotes)
    by_contra hzero
    obtain rfl : hundredths = 0 := by omega
    exact absurd hstored.positive (by norm_num)
  · intro hone
    have hcast : (1 : ℚ) ≤ hundredths ∧ (hundredths : ℚ) ≤ 2400 := ⟨mod_cast hone, mod_cast hbound⟩
    refine ⟨(hundredths : ℚ) / 10 ^ 2, ⟨hundredths⟩, hdenotes, ?_, ?_, ?_, ?_, neverRefused ?_⟩
    · linarith
    · linarith
    · norm_num
      exact hoursColumn_hundredths (by omega)
    · norm_num
    · exact decide_eq_true ⟨hone, hbound⟩

/-- A witness that the conditions can be met: half an hour. -/
theorem storable_iff_witness : Storable "0.50" ↔ (1 : ℚ) / 200 ≤ 1 / 2 :=
  storable_iff (.create { loggedDate := "2024-05-01", hours := 1 / 2 } ⟨"2024-05-01", "0.50", none⟩
    (by decide +kernel) rfl rfl)

/-- Not all hours that are accepted can be stored as they are: a thousandth of an hour is rounded to zero.
-/
theorem roundedToZero : ¬ ∀ (h : ℚ) (text : String), Accepted h text → Storable text := by
  intro halways
  have haccepted : Accepted (1 / 1000) "0.00" :=
    .create { loggedDate := "2024-05-01", hours := 1 / 1000 } ⟨"2024-05-01", "0.00", none⟩
      (by decide +kernel) rfl rfl
  obtain ⟨value, hours, hstored⟩ := halways _ _ haccepted
  have hdenotes : numeral "0.00".toList = some 0 := by decide +kernel
  obtain rfl := Option.some.inj (hdenotes.symm.trans hstored.denotes)
  exact absurd hstored.positive (lt_irrefl 0)

end RallyApi.TimeLogs

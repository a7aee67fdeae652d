import RallyApi.Reporting.SnapshotFigures
import RallyApi.Store.Keyed

/-!
# The burndown of a sprint

`getSprintBurndown` reads the snapshots of a sprint in the order of their dates.

The snapshots are a calendar: for each sprint and day, what the last tick has found. `calendarOf` reads the
calendar off a history, and in every run the table is that calendar (`reachable_charted`).

`reachable_burndown`: in every run the report has one point for each day of the calendar on which the sprint
was snapshotted, in the order of the days, with the figures of the items that were done and of those that
were open when the tick of that day aggregated them.

`run_takeDailySnapshots`: a tick that runs alone enters each active sprint it can store on its day, also
where it fails for sprints before, and nothing else.
-/

set_option autoImplicit false
set_option relaxedAutoImplicit false

namespace RallyApi.Reporting

open Concurrency Protocol Platform Store Work

/-! ### The report -/

/-- A point of the burndown report. -/
structure BurndownPoint where
  date : ℤ
  remainingPoints : ℕ
  completedPoints : ℕ
  remainingItems : ℤ
  completedItems : ℕ
  deriving DecidableEq, Repr

/-- The burndown report of a sprint. -/
structure SprintBurndownReport where
  sprintId : Uuid
  points : List BurndownPoint
  deriving DecidableEq, Repr

/-- `getSprintSnapshots`. -/
def getSprintSnapshots (tenantId sprintId : Uuid) (db : Db) : List SprintSnapshot :=
  sortBy SprintSnapshot.snapshotDate (db.snapshots.filter fun row ↦ row.isOf tenantId sprintId)

/-- The point of a snapshot. -/
def burndownPoint (snapshot : SprintSnapshot) : BurndownPoint :=
  { date := snapshot.snapshotDate
    remainingPoints := snapshot.remainingPoints
    completedPoints := snapshot.completedPoints
    remainingItems := snapshot.totalItems - snapshot.completedItems
    completedItems := snapshot.completedItems }

/-- `getSprintBurndown`. -/
def getSprintBurndown (tenantId sprintId : Uuid) (db : Db) : SprintBurndownReport :=
  { sprintId, points := (getSprintSnapshots tenantId sprintId db).map burndownPoint }

/-! ### The calendar -/

/-- The snapshot of each sprint and day. -/
abbrev Calendar := Uuid × ℤ → Option SprintSnapshot

/-- The row with other figures. -/
def SprintSnapshot.refigured (stats : SprintStats) (row : SprintSnapshot) : SprintSnapshot :=
  { row with toSprintStats := stats }

theorem SprintSnapshot.refigured_day (stats : SprintStats) (row : SprintSnapshot) :
    (row.refigured stats).day = row.day := rfl

/-- A snapshot is entered on its day: the figures are replaced, the tenant is that of the first one. -/
def Calendar.enter (calendar : Calendar) (snapshot : SprintSnapshot) : Calendar :=
  Function.update calendar snapshot.day
    (some ((calendar snapshot.day).elim snapshot (SprintSnapshot.refigured snapshot.toSprintStats)))

/-- What a step enters. -/
def ReportStep.enters (step : ReportStep) (calendar : Calendar) : Calendar :=
  match step with
  | .upsert snapshot => calendar.enter snapshot
  | _ => calendar

/-- The calendar of a history. -/
def calendarOf (log : ReportLog) : Calendar :=
  log.foldr (fun entry calendar ↦ entry.2.enters calendar) fun _ ↦ none

variable {db after : Db} {rows : List SprintSnapshot} {row snapshot : SprintSnapshot} {label : ReportStep}
  {world : World Db ReportStep} {log : ReportLog} {tenantId sprintId : Uuid} {sprint : Sprint}

/-- `upsertRow` is the upsert by sprint and day. -/
theorem upsertRow_eq (snapshot : SprintSnapshot) (rows : List SprintSnapshot) :
    upsertRow snapshot rows =
      upsert SprintSnapshot.day (SprintSnapshot.refigured snapshot.toSprintStats) snapshot rows := by
  have hconflicts : snapshot.conflicts = fun row ↦ decide (row.day = snapshot.day) := by
    funext row
    simp [SprintSnapshot.conflicts, SprintSnapshot.day, Prod.mk.injEq]
  rw [upsertRow, upsert, hconflicts]
  rfl

/-- An upsert enters the snapshot. -/
theorem rowAt_upsertRow (snapshot : SprintSnapshot) (rows : List SprintSnapshot) :
    rowAt SprintSnapshot.day (upsertRow snapshot rows) =
      Calendar.enter (rowAt SprintSnapshot.day rows) snapshot := by
  rw [upsertRow_eq]
  exact rowAt_upsert (SprintSnapshot.refigured_day _)

/-- The step changes the snapshots as its label says. -/
def Enters (db : Db) (label : ReportStep) (after : Db) : Prop :=
  (∃ snapshot, label = .upsert snapshot ∧ after.snapshots = upsertRow snapshot db.snapshots) ∨
    (∀ calendar, label.enters calendar = calendar) ∧ after.snapshots = db.snapshots

/-- A step that reads. -/
theorem enters_refl (hreads : ∀ calendar, label.enters calendar = calendar) : Enters db label db :=
  .inr ⟨hreads, rfl⟩

theorem snapshotSprint_enters (today : ℤ) (lost : List Uuid) (sprint : Sprint) :
    (snapshotSprint today lost sprint).Only Enters := by
  refine Call.only_bind.mpr ⟨?_, fun stats _ ↦ Call.only_bind.mpr ⟨Call.only_ensure _ _, fun _ _ ↦ ?_⟩⟩
  · refine Call.only_attempt _ _ (fun db failure _ ↦ enters_refl fun _ ↦ rfl) fun db stats after hstats ↦ ?_
    dsimp only at hstats
    split_ifs at hstats
    obtain ⟨_, rfl⟩ := Prod.mk.inj (Except.ok.inj hstats)
    exact enters_refl fun _ ↦ rfl
  · exact (Call.only_atomically _ _).mpr fun db ↦ .inl ⟨_, rfl, rfl⟩

/-- By induction on the sprints that are left. -/
theorem snapshotAll_enters (today : ℤ) (lost : List Uuid) (sprints : List Sprint) :
    (snapshotAll today lost sprints).Only Enters := by
  induction sprints with
  | nil => exact Call.only_pure ()
  | cons sprint rest ih =>
    refine Call.only_bind.mpr ⟨?_, fun _ _ ↦ ih⟩
    exact (snapshotSprint_enters today lost sprint).handle fun _ ↦ Call.only_pure ()

/-- Only the ticks enter anything, and they enter what their labels show. -/
theorem serve_enters (request : ReportRequest) : request.serve.Only Enters := by
  cases request with
  | work request =>
    exact Call.only_map ((Call.only_true _).within fun _ _ _ _ ↦ .inr ⟨fun _ ↦ rfl, rfl⟩)
  | takeDailySnapshots acquired lost =>
    refine Call.only_map ?_
    rw [takeDailySnapshots]
    split_ifs
    · refine Call.only_bind.mpr ⟨?_, fun today _ ↦ Call.only_bind.mpr ⟨?_, fun sprints _ ↦ ?_⟩⟩
      · exact (Call.only_query _ _).mpr fun _ ↦ enters_refl fun _ ↦ rfl
      · exact (Call.only_atomically _ _).mpr fun _ ↦ enters_refl fun _ ↦ rfl
      · exact snapshotAll_enters today lost sprints
    · exact Call.only_pure ()
  | getVelocity tenantId projectId lastNSprints =>
    refine Call.only_map (Call.only_bind.mpr ⟨?_, fun sprints _ ↦ ?_⟩)
    · exact (Call.only_query _ _).mpr fun _ ↦ enters_refl fun _ ↦ rfl
    · split_ifs
      · exact Call.only_pure _
      · refine Call.only_bind.mpr ⟨?_, fun _ _ ↦ Call.only_pure _⟩
        exact (Call.only_atomically _ _).mpr fun _ ↦ enters_refl fun _ ↦ rfl

/-- The table is the calendar of the history. -/
structure Charted (world : World Db ReportStep) : Prop where
  days : (world.db.snapshots.map SprintSnapshot.day).Nodup
  calendar : rowAt SprintSnapshot.day world.db.snapshots = calendarOf world.log

/-- A step keeps the table the calendar of the history. -/
theorem Charted.step (hcharted : Charted world) (number : ℕ) (hstep : Enters world.db label after) :
    Charted (world.after number label after) := by
  rcases hstep with ⟨snapshot, rfl, hupsert⟩ | ⟨hreads, hsame⟩
  · refine ⟨?_, ?_⟩
    · exact hupsert ▸ nodup_upsertRow hcharted.days snapshot
    · change rowAt _ after.snapshots = (calendarOf world.log).enter snapshot
      rw [hupsert, rowAt_upsertRow, hcharted.calendar]
  · refine ⟨hsame ▸ hcharted.days, ?_⟩
    change rowAt _ after.snapshots = label.enters (calendarOf world.log)
    rw [hsame, hreads, hcharted.calendar]

/-- Assumes: the system starts with no snapshots. In every run the table is the calendar of the history. -/
theorem reachable_charted (hempty : db.snapshots = []) {config : ReportConfig}
    (hreach : Reachable ReportRequest.serve anyStep db config) : Charted config.toWorld := by
  have hinitial : Charted ⟨db, []⟩ := by
    refine ⟨?_, ?_⟩
    · rw [hempty]
      exact List.nodup_nil
    · change rowAt _ db.snapshots = _
      rw [hempty]
      rfl
  exact reachable_keeps serve_enters Charted hinitial
    (fun _ number _ _ hcharted _ hstep ↦ hcharted.step number hstep) hreach

/-! ### The figures -/

/-- The item is one of the sprint and not deleted, and its status, which is one of its project, is not in
the category `done`. -/
def openIn (sprint : Sprint) (db : Work.Db) (item : WorkItem) : Bool :=
  item.tenantId = sprint.tenantId ∧ item.iterationId = some sprint.id ∧ item.deletedAt = none ∧
    (statusOf db item).any fun status ↦ status.category ≠ .done

/-- The items of a sprint that are still to be done. -/
def openItems (sprint : Sprint) (db : Work.Db) : List WorkItem := db.workItems.filter (openIn sprint db)

/-- The rows that the aggregate does not count as done are those of the open items. -/
theorem map_openRows (sprint : Sprint) (db : Work.Db) :
    ((sprintItems sprint.tenantId sprint.id db).filter fun row ↦ !decide (row.2.category = .done)).map
      Prod.fst = openItems sprint db := by
  rw [sprintItems, openItems, List.filter_filterMap, List.map_filterMap, List.filterMap_filter,
    ← List.filterMap_eq_filter]
  refine List.filterMap_congr fun item _ ↦ ?_
  cases hstatus : statusOf db item with
  | none => simp [Option.guard, openIn, hstatus]
  | some status =>
    by_cases hdone : status.category = .done <;>
      simp [Option.guard, openIn, hstatus, hdone, Option.filter_some]

/-- The remaining points of an aggregate are those of the open items, and these and the done ones are all
that it counts. -/
theorem sprintStats_remaining (sprint : Sprint) (db : Work.Db) :
    (sprintStats sprint.tenantId sprint.id db).remainingPoints = storyPoints (openItems sprint db) ∧
      (sprintStats sprint.tenantId sprint.id db).totalItems =
        (openItems sprint db).length + (doneItems sprint db).length := by
  rw [← map_openRows, ← map_doneRows, List.length_map, List.length_map, storyPoints, List.map_map]
  have hparts := List.filter_append_perm (fun row : WorkItem × WorkflowStatus ↦
    decide (row.2.category = .done)) (sprintItems sprint.tenantId sprint.id db)
  constructor
  · have hsum := (hparts.map fun row ↦ row.1.storyPoints.getD 0).sum_eq
    rw [List.map_append, List.sum_append] at hsum
    exact Nat.sub_eq_of_eq_add' hsum.symm
  · have hlength := hparts.length_eq
    rw [List.length_append, Nat.add_comm] at hlength
    exact hlength.symm

/-! ### The theorem -/

/-- The report of a sprint: a point for each day of the calendar, in the order of the days, with the figures
of the items that were done and that were open when the tick that last entered the day aggregated them. -/
structure ReportsDays (log : ReportLog) (tenantId : Uuid) (report : SprintBurndownReport) : Prop where
  ascending : (report.points.map BurndownPoint.date).Pairwise (· < ·)
  days : ∀ date, (∃ point ∈ report.points, point.date = date) ↔
    ∃ row, calendarOf log (report.sprintId, date) = some row ∧ row.tenantId = tenantId
  figures : ∀ point ∈ report.points, ∃ row sprint found,
    calendarOf log (report.sprintId, point.date) = some row ∧ TakenFrom log row sprint found ∧
      point.completedPoints = storyPoints (doneItems sprint found) ∧
      point.completedItems = (doneItems sprint found).length ∧
      point.remainingPoints = storyPoints (openItems sprint found) ∧
      point.remainingItems = (openItems sprint found).length

theorem mem_getSprintSnapshots :
    row ∈ getSprintSnapshots tenantId sprintId db ↔
      row ∈ db.snapshots ∧ row.tenantId = tenantId ∧ row.sprintId = sprintId := by
  rw [getSprintSnapshots, mem_sortBy, List.mem_filter, SprintSnapshot.isOf, decide_eq_true_eq]

/-- Assumes: there is one snapshot of a sprint for a day. The dates of the report ascend strictly. -/
theorem pairwise_getSprintBurndown (hdays : (db.snapshots.map SprintSnapshot.day).Nodup)
    (tenantId sprintId : Uuid) :
    ((getSprintBurndown tenantId sprintId db).points.map BurndownPoint.date).Pairwise (· < ·) := by
  rw [getSprintBurndown, List.map_map]
  refine pairwise_sortBy (List.Nodup.map_on ?_ ?_)
  · intro first hfirst second hsecond hdate
    obtain ⟨hfirst, hof⟩ := List.mem_filter.mp hfirst
    obtain ⟨hsecond, hof'⟩ := List.mem_filter.mp hsecond
    have hsprint : first.sprintId = second.sprintId :=
      (of_decide_eq_true hof).2.trans (of_decide_eq_true hof').2.symm
    exact List.inj_on_of_nodup_map hdays hfirst hsecond (Prod.ext hsprint hdate)
  · exact hdays.of_map.filter _

/-- A snapshot that was taken from what a tick had found has the figures of the items it had found. -/
theorem TakenFrom.figures {found : Work.Db} (htaken : TakenFrom log row sprint found) :
    (burndownPoint row).completedPoints = storyPoints (doneItems sprint found) ∧
      (burndownPoint row).completedItems = (doneItems sprint found).length ∧
      (burndownPoint row).remainingPoints = storyPoints (openItems sprint found) ∧
      (burndownPoint row).remainingItems = (openItems sprint found).length := by
  obtain ⟨hdonePoints, hdone⟩ := sprintStats_completed sprint found
  obtain ⟨hopenPoints, htotal⟩ := sprintStats_remaining sprint found
  simp only [burndownPoint, htaken.1]
  refine ⟨hdonePoints, hdone, hopenPoints, ?_⟩
  rw [htotal, hdone]
  omega

/-- Assumes: the system starts with no snapshots. In every run, the burndown of a sprint has a point for
each day on which a tick has stored a snapshot of it, in the order of the days, with the figures of the
items that were done and that were open when the last tick of the day aggregated them. -/
theorem reachable_burndown (hempty : db.snapshots = []) {config : ReportConfig}
    (hreach : Reachable ReportRequest.serve anyStep db config) (tenantId sprintId : Uuid) :
    ReportsDays config.log tenantId (getSprintBurndown tenantId sprintId config.db) := by
  obtain ⟨hdays, hcalendar⟩ := reachable_charted hempty hreach
  have hinitial : velocityProtocol.invariant ⟨db, []⟩ := by
    intro row hrow
    change row ∈ db.snapshots at hrow
    rw [hempty] at hrow
    cases hrow
  have htaken := (reachable_kept stable_promise meets_serve hinitial hreach).invariant
  have hentered : ∀ {row date}, calendarOf config.log (sprintId, date) = some row ↔
      row ∈ config.db.snapshots ∧ row.day = (sprintId, date) := by
    intro row date
    rw [← hcalendar]
    exact rowAt_eq_some_iff hdays
  refine ⟨pairwise_getSprintBurndown hdays tenantId sprintId, fun date ↦ ⟨?_, ?_⟩, ?_⟩
  · rintro ⟨point, hpoint, rfl⟩
    obtain ⟨row, hrow, rfl⟩ := List.mem_map.mp hpoint
    obtain ⟨hmem, htenant, hsprint⟩ := mem_getSprintSnapshots.mp hrow
    exact ⟨row, hentered.mpr ⟨hmem, Prod.ext hsprint rfl⟩, htenant⟩
  · rintro ⟨row, hrow, htenant⟩
    obtain ⟨hmem, hday⟩ := hentered.mp hrow
    obtain ⟨hsprint, hdate⟩ := Prod.mk.inj hday
    have hread := mem_getSprintSnapshots.mpr ⟨hmem, htenant, hsprint⟩
    exact ⟨burndownPoint row, List.mem_map_of_mem hread, hdate⟩
  · intro point hpoint
    obtain ⟨row, hrow, rfl⟩ := List.mem_map.mp hpoint
    obtain ⟨hmem, _, hsprint⟩ := mem_getSprintSnapshots.mp hrow
    obtain ⟨sprint, found, hrowTaken⟩ := htaken row hmem
    exact ⟨row, sprint, found, hentered.mpr ⟨hmem, Prod.ext hsprint rfl⟩, hrowTaken, hrowTaken.figures⟩

/-- A tick runs before the item is done and one after, on one day. -/
def burnedDown : ReportConfig :=
  (Config.initial activeSprint).play ReportRequest.serve
    (.start (.takeDailySnapshots true []) :: steps 0 4 ++
      .start (.work (.moveWorkItem founder 112 105)) :: steps 1 6 ++
      .start (.takeDailySnapshots true []) :: steps 2 4)

/-- A witness: the report has one point, with the figures of the second tick. -/
theorem reachable_burndown_witness :
    ReportsDays burnedDown.log 2 (getSprintBurndown 2 114 burnedDown.db) ∧
      (getSprintBurndown 2 114 burnedDown.db).points = [⟨0, 0, 5, 0, 1⟩] :=
  ⟨reachable_burndown rfl (play_reachable (allowsAll_anyStep _ _)) 2 114, by decide +kernel⟩

/-! ### A tick that runs alone -/

/-- The tick can store a snapshot of the sprint: the figures fit the columns, and the connection holds. -/
def Storable (lost : List Uuid) (db : Work.Db) (sprint : Sprint) : Prop :=
  (sprintStats sprint.tenantId sprint.id db).inRange = true ∧ sprint.id ∉ lost

instance (lost : List Uuid) (db : Work.Db) : DecidablePred (Storable lost db) :=
  fun _ ↦ inferInstanceAs (Decidable (_ ∧ _))

/-- The snapshot of a sprint in a store. -/
def snapshotOf (today : ℤ) (db : Work.Db) (sprint : Sprint) : SprintSnapshot :=
  { toSprintStats := sprintStats sprint.tenantId sprint.id db
    tenantId := sprint.tenantId, sprintId := sprint.id, snapshotDate := today }

variable {today date : ℤ} {lost : List Uuid}

/-- A sprint that cannot be stored is skipped: what fails, fails before anything is written. -/
theorem run_handle_snapshotSprint (today : ℤ) (lost : List Uuid) (sprint : Sprint) (db : Db) :
    ((snapshotSprint today lost sprint).handle fun _ ↦ pure ()).run db =
      (.ok (), if Storable lost db.work sprint then
        { db with snapshots := upsertRow (snapshotOf today db.work sprint) db.snapshots } else db) := by
  change (tryCatch (snapshotSprint today lost sprint) fun _ ↦ pure () : ReportCall Unit).run db = _
  rw [Call.run_tryCatch, snapshotSprint, Call.run_bind, aggregateSprintStats, Call.run_attempt]
  by_cases hrange : (sprintStats sprint.tenantId sprint.id db.work).inRange = true
  · by_cases hlost : sprint.id ∈ lost
    · simp [hrange, hlost, Storable, Call.ensure, Call.run_bind]
    · simp [hrange, hlost, Storable, Call.ensure, upsertSnapshot, snapshotOf]
  · simp [hrange, Storable]

/-- The snapshots of the sprints that can be stored. -/
def snapshotsOf (today : ℤ) (lost : List Uuid) (db : Work.Db) (sprints : List Sprint) :
    List SprintSnapshot :=
  (sprints.filter fun sprint ↦ Storable lost db sprint).map (snapshotOf today db)

/-- The table after upserts. -/
def upsertAll (snapshots rows : List SprintSnapshot) : List SprintSnapshot :=
  snapshots.foldl (fun rows snapshot ↦ upsertRow snapshot rows) rows

/-- The loop stores a snapshot of every sprint that it can. By induction on the sprints that are left. -/
theorem run_snapshotAll (today : ℤ) (lost : List Uuid) (sprints : List Sprint) (db : Db) :
    (snapshotAll today lost sprints).run db = (.ok (),
      { db with snapshots := upsertAll (snapshotsOf today lost db.work sprints) db.snapshots }) := by
  induction sprints generalizing db with
  | nil => rfl
  | cons sprint rest ih =>
    have hsnapshots : snapshotsOf today lost db.work (sprint :: rest) =
        if Storable lost db.work sprint then
          snapshotOf today db.work sprint :: snapshotsOf today lost db.work rest
        else snapshotsOf today lost db.work rest := by
      simp only [snapshotsOf, List.filter_cons, decide_eq_true_eq]
      split_ifs <;> rfl
    rw [snapshotAll, Call.run_bind, run_handle_snapshotSprint, hsnapshots]
    split_ifs
    · exact ih _
    · exact ih db

/-- Upserts enter their snapshots one after the other. -/
theorem rowAt_upsertAll (snapshots rows : List SprintSnapshot) :
    rowAt SprintSnapshot.day (upsertAll snapshots rows) =
      snapshots.foldl Calendar.enter (rowAt SprintSnapshot.day rows) := by
  induction snapshots generalizing rows with
  | nil => rfl
  | cons snapshot rest ih =>
    rw [upsertAll, List.foldl_cons, ← upsertAll, ih, rowAt_upsertRow, List.foldl_cons]

section Entering

variable {snapshots : List SprintSnapshot} {calendar : Calendar}

theorem Calendar.enter_self :
    calendar.enter snapshot snapshot.day = some ((calendar snapshot.day).elim snapshot
      (SprintSnapshot.refigured snapshot.toSprintStats)) :=
  Function.update_self ..

theorem Calendar.enter_of_ne {day : Uuid × ℤ} (hother : day ≠ snapshot.day) :
    calendar.enter snapshot day = calendar day :=
  Function.update_of_ne hother _ _

/-- A day that no snapshot is of stays as it is. -/
theorem foldl_enter_of_notMem {day : Uuid × ℤ} (hother : day ∉ snapshots.map SprintSnapshot.day) :
    snapshots.foldl Calendar.enter calendar day = calendar day := by
  induction snapshots generalizing calendar with
  | nil => rfl
  | cons snapshot rest ih =>
    rw [List.map_cons, List.mem_cons, not_or] at hother
    rw [List.foldl_cons, ih hother.2, Calendar.enter_of_ne hother.1]

/-- Assumes: the days of the snapshots are distinct. Each is entered, whatever the others are. -/
theorem foldl_enter_of_mem (hdays : (snapshots.map SprintSnapshot.day).Nodup)
    (hsnapshot : snapshot ∈ snapshots) :
    snapshots.foldl Calendar.enter calendar snapshot.day = calendar.enter snapshot snapshot.day := by
  induction snapshots generalizing calendar with
  | nil => cases hsnapshot
  | cons first rest ih =>
    obtain ⟨hfirst, hrest⟩ := List.nodup_cons.mp hdays
    rw [List.foldl_cons]
    rcases List.mem_cons.mp hsnapshot with rfl | hlater
    · exact foldl_enter_of_notMem hfirst
    · have hother : snapshot.day ≠ first.day := fun hsame ↦
        hfirst (hsame ▸ List.mem_map_of_mem hlater)
      rw [ih hrest hlater, Calendar.enter_self, Calendar.enter_self, Calendar.enter_of_ne hother]

end Entering

/-- What a tick leaves. It changes the calendar at the days of the active sprints that it can store, each on
its own, and nothing else. -/
structure Ticked (lost : List Uuid) (db after : Db) : Prop where
  work : after.work = db.work
  stored : ∀ sprint ∈ db.work.sprints, sprint.status = .active → Storable lost db.work sprint →
    ∃ row, rowAt SprintSnapshot.day after.snapshots (sprint.id, dayOf db.work.now) = some row ∧
      row.toSprintStats = sprintStats sprint.tenantId sprint.id db.work
  kept : ∀ day, (∀ sprint ∈ db.work.sprints, sprint.status = .active → Storable lost db.work sprint →
      day ≠ (sprint.id, dayOf db.work.now)) →
    rowAt SprintSnapshot.day after.snapshots day = rowAt SprintSnapshot.day db.snapshots day

/-- Two active sprints of two projects. -/
def twoActive : Db where
  work := runCalls activeSprint.work [.createSprint founder 106 "Sprint 1" {}, .startSprint 2 117]

/-- Assumes: the identifiers of the sprints are distinct. A tick that runs alone never fails, whatever fails
on the way: it stores the figures of every active sprint that it can, and changes nothing else. -/
theorem run_takeDailySnapshots (hids : (db.work.sprints.map Sprint.id).Nodup) (lost : List Uuid) :
    ((takeDailySnapshots true lost).run db).1 = .ok () ∧
      Ticked lost db ((takeDailySnapshots true lost).run db).2 := by
  have hrun : (takeDailySnapshots true lost).run db = (snapshotAll (dayOf db.work.now) lost
      (db.work.sprints.filter fun sprint ↦ sprint.status = .active)).run db := rfl
  rw [hrun, run_snapshotAll]
  have hdays : ((snapshotsOf (dayOf db.work.now) lost db.work
      (db.work.sprints.filter fun sprint ↦ sprint.status = .active)).map SprintSnapshot.day).Nodup := by
    refine List.Nodup.of_map Prod.fst ?_
    rw [snapshotsOf, List.map_map, List.map_map]
    exact hids.sublist ((List.filter_sublist.trans List.filter_sublist).map Sprint.id)
  refine ⟨rfl, rfl, fun sprint hsprint hactive hstorable ↦ ?_, fun day hother ↦ ?_⟩
  · have hmem : snapshotOf (dayOf db.work.now) db.work sprint ∈ snapshotsOf (dayOf db.work.now) lost db.work
        (db.work.sprints.filter fun sprint ↦ sprint.status = .active) :=
      List.mem_map_of_mem (List.mem_filter.mpr
        ⟨List.mem_filter.mpr ⟨hsprint, decide_eq_true hactive⟩, decide_eq_true hstorable⟩)
    refine ⟨_, (congrFun (rowAt_upsertAll _ _) _).trans
      ((foldl_enter_of_mem hdays hmem).trans Calendar.enter_self), ?_⟩
    cases rowAt SprintSnapshot.day db.snapshots (snapshotOf (dayOf db.work.now) db.work sprint).day <;> rfl
  · refine (congrFun (rowAt_upsertAll _ _) _).trans (foldl_enter_of_notMem fun hday ↦ ?_)
    obtain ⟨snapshot, hsnapshot, rfl⟩ := List.mem_map.mp hday
    obtain ⟨sprint, hsprint, rfl⟩ := List.mem_map.mp hsnapshot
    obtain ⟨hactive, hstorable⟩ := List.mem_filter.mp hsprint
    obtain ⟨hmem, hactive⟩ := List.mem_filter.mp hactive
    exact hother sprint hmem (of_decide_eq_true hactive) (of_decide_eq_true hstorable) rfl

/-- A witness: two sprints are active, and the connection is lost for the first. -/
theorem run_takeDailySnapshots_witness :
    Ticked [114] twoActive ((takeDailySnapshots true [114]).run twoActive).2 ∧
      ((takeDailySnapshots true [114]).run twoActive).2.snapshots.map SprintSnapshot.day = [(117, 0)] :=
  ⟨(run_takeDailySnapshots (by decide +kernel) [114]).2, by decide +kernel⟩

end RallyApi.Reporting

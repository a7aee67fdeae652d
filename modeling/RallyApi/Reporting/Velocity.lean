import RallyApi.Concurrency.Outcomes
import RallyApi.Concurrency.Returns
import RallyApi.Reporting.SprintSnapshots
import RallyApi.Work.CallRuns

/-!
# What the velocity report reports

The figures of a completed sprint come from the last snapshot of the sprint, and the figures of a snapshot
from the tick that has last stored it. `TakenFrom` says of a snapshot in the store which tick that was, and
what it found when it aggregated the items.

`reachable_velocity`: in every run, a point of the velocity report has the figures of the snapshot of the
latest date, which are those of the done items of the sprint when the tick aggregated them, or zeros where
there is no snapshot. `staleVelocity` is a run in which the last item is done after the last tick, and the
report leaves out its points.
-/

set_option autoImplicit false
set_option relaxedAutoImplicit false

namespace RallyApi.Reporting

open Concurrency Protocol Platform Store Work

/-! ### The done items of a sprint -/

/-- The item is one of the sprint and not deleted, and its status, which is one of its project, is in the
category `done`. -/
def doneIn (sprint : Sprint) (db : Work.Db) (item : WorkItem) : Bool :=
  item.tenantId = sprint.tenantId ∧ item.iterationId = some sprint.id ∧ item.deletedAt = none ∧
    (statusOf db item).any fun status ↦ status.category = .done

/-- The items of a sprint that are done. -/
def doneItems (sprint : Sprint) (db : Work.Db) : List WorkItem := db.workItems.filter (doneIn sprint db)

/-- The sum of the story points of items. -/
def storyPoints (items : List WorkItem) : ℕ := (items.map fun item ↦ item.storyPoints.getD 0).sum

/-- The rows that the aggregate counts as done are those of the done items. -/
theorem map_doneRows (sprint : Sprint) (db : Work.Db) :
    (doneRows (sprintItems sprint.tenantId sprint.id db)).map Prod.fst = doneItems sprint db := by
  rw [doneRows, sprintItems, doneItems, List.filter_filterMap, List.map_filterMap, List.filterMap_filter,
    ← List.filterMap_eq_filter]
  refine List.filterMap_congr fun item _ ↦ ?_
  cases hstatus : statusOf db item with
  | none => simp [Option.guard, doneIn, hstatus]
  | some status =>
    by_cases hdone : status.category = .done <;> simp [Option.guard, doneIn, hstatus, hdone, Option.filter_some]

/-- The completed figures of an aggregate are those of the done items. -/
theorem sprintStats_completed (sprint : Sprint) (db : Work.Db) :
    (sprintStats sprint.tenantId sprint.id db).completedPoints = storyPoints (doneItems sprint db) ∧
      (sprintStats sprint.tenantId sprint.id db).completedItems = (doneItems sprint db).length := by
  rw [← map_doneRows]
  constructor
  · simp only [sprintStats, sumPoints, storyPoints, List.map_map]
    rfl
  · simp only [sprintStats, List.length_map]

/-! ### The last snapshot -/

section LastSnapshot

variable {tenantId sprintId : Uuid} {rows : List SprintSnapshot}

theorem lastSnapshot_eq_none :
    lastSnapshot tenantId sprintId rows = none ↔ ∀ row ∈ rows, row.isOf tenantId sprintId = false := by
  rw [lastSnapshot, List.foldl_argAux_eq_none, List.filter_eq_nil_iff]
  simp only [Bool.not_eq_true, and_true]

/-- The last snapshot of a sprint is one of those of the sprint, and none of them is later. -/
theorem lastSnapshot_eq_some {row : SprintSnapshot} (hlast : lastSnapshot tenantId sprintId rows = some row) :
    row ∈ rows ∧ row.isOf tenantId sprintId = true ∧
      ∀ other ∈ rows, other.isOf tenantId sprintId = true → other.snapshotDate ≤ row.snapshotDate := by
  have hargmax : List.argmax SprintSnapshot.snapshotDate
    (rows.filter fun row ↦ row.isOf tenantId sprintId) = some row := hlast
  obtain ⟨hmem, hmax, _⟩ := List.mem_argmax_iff.mp hargmax
  obtain ⟨hrow, hof⟩ := List.mem_filter.mp hmem
  exact ⟨hrow, hof, fun other hother hsame ↦ hmax other (List.mem_filter.mpr ⟨hother, hsame⟩)⟩

end LastSnapshot

/-! ### Where figures come from -/

/-- A history, most recent step first. -/
abbrev ReportLog := List (ℕ × ReportStep)

/-- The steps of one call in a history. -/
def stepsOf (log : ReportLog) (number : ℕ) : List ReportStep :=
  (log.filter fun entry ↦ entry.1 = number).map Prod.snd

/-- The tick has read the sprint among the active ones. -/
def FoundActive (steps : List ReportStep) (sprint : Sprint) : Prop :=
  ∃ sprints, .activeSprints sprints ∈ steps ∧ sprint ∈ sprints ∧ sprint.status = .active

/-- The last step of the tick has aggregated the items of a sprint that it had read among the active
ones. -/
structure Aggregated (steps : List ReportStep) (sprint : Sprint) (found : Work.Db) : Prop where
  last : steps.head? = some (.aggregate sprint.tenantId sprint.id found)
  active : FoundActive steps sprint

/-- The step stores a snapshot of the sprint for the day. -/
def ReportStep.stores (step : ReportStep) (sprintId : Uuid) (snapshotDate : ℤ) : Prop :=
  match step with
  | .upsert snapshot => snapshot.sprintId = sprintId ∧ snapshot.snapshotDate = snapshotDate
  | _ => False

/-- The figures of the row are those of the sprint in the store that a tick has found. That tick has
aggregated the items there and then stored the row, and nobody has stored it since. -/
def TakenFrom (log : ReportLog) (row : SprintSnapshot) (sprint : Sprint) (found : Work.Db) : Prop :=
  row.toSprintStats = sprintStats sprint.tenantId sprint.id found ∧ row.sprintId = sprint.id ∧
    ∃ later earlier tick snapshot, log = later ++ (tick, .upsert snapshot) :: earlier ∧
      ReportStep.stores (.upsert snapshot) row.sprintId row.snapshotDate ∧
      Aggregated (stepsOf earlier tick) sprint found ∧
      ∀ entry ∈ later, ¬ entry.2.stores row.sprintId row.snapshotDate

/-- The point has the figures of the last snapshot of the sprint that call `number` has found, or zeros
where it has found none. -/
def Reports (log : ReportLog) (number : ℕ) (point : VelocityPoint) : Prop :=
  ∃ tenantId later earlier rows, log = later ++ (number, .latestSnapshots tenantId rows) :: earlier ∧
    ((∀ row ∈ rows, row.isOf tenantId point.sprintId = false) ∧
        point.completedPoints = 0 ∧ point.completedItems = 0 ∨
      ∃ row ∈ rows, row.isOf tenantId point.sprintId = true ∧
        (∀ other ∈ rows, other.isOf tenantId point.sprintId = true →
          other.snapshotDate ≤ row.snapshotDate) ∧
        ∃ sprint found, TakenFrom earlier row sprint found ∧
          point.completedPoints = storyPoints (doneItems sprint found) ∧
          point.completedItems = (doneItems sprint found).length)

variable {db after : Db} {world : World Db ReportStep} {label : ReportStep} {number : ℕ}
  {row snapshot : SprintSnapshot} {sprint : Sprint} {found : Work.Db} {point : VelocityPoint}
  {log : ReportLog}

/-- What was so stays so until the snapshot is stored again. -/
theorem TakenFrom.cons (htaken : TakenFrom log row sprint found) {entry : ℕ × ReportStep}
    (hentry : ¬ entry.2.stores row.sprintId row.snapshotDate) :
    TakenFrom (entry :: log) row sprint found := by
  obtain ⟨hstats, hsprint, later, earlier, tick, snapshot, rfl, hstores, haggregated, hlater⟩ := htaken
  refine ⟨hstats, hsprint, entry :: later, earlier, tick, snapshot, rfl, hstores, haggregated, ?_⟩
  intro other hother
  rcases List.mem_cons.mp hother with rfl | hold
  · exact hentry
  · exact hlater other hold

theorem Reports.cons (hreports : Reports log number point) (entry : ℕ × ReportStep) :
    Reports (entry :: log) number point := by
  obtain ⟨tenantId, later, earlier, rows, rfl, hpoint⟩ := hreports
  exact ⟨tenantId, entry :: later, earlier, rows, rfl, hpoint⟩

/-- A row of the table after an upsert is the stored snapshot, with the tenant of the row it replaces, or
another row that was there. -/
theorem mem_upsertRow {rows : List SprintSnapshot} (hrow : row ∈ upsertRow snapshot rows) :
    row.toSprintStats = snapshot.toSprintStats ∧ row.sprintId = snapshot.sprintId ∧
        row.snapshotDate = snapshot.snapshotDate ∨
      row ∈ rows ∧ ¬ (snapshot.sprintId = row.sprintId ∧ snapshot.snapshotDate = row.snapshotDate) := by
  rw [upsertRow] at hrow
  split_ifs at hrow with hany
  · obtain ⟨old, hold, rfl⟩ := mem_updateWhere.mp hrow
    by_cases hconflicts : snapshot.conflicts old = true
    · rw [if_pos hconflicts]
      obtain ⟨hsprint, hdate⟩ := of_decide_eq_true hconflicts
      exact .inl ⟨rfl, hsprint, hdate⟩
    · rw [if_neg hconflicts]
      refine .inr ⟨hold, fun hkey ↦ hconflicts (decide_eq_true ?_)⟩
      exact ⟨hkey.1.symm, hkey.2.symm⟩
  · rcases List.mem_append.mp hrow with hold | hnew
    · refine .inr ⟨hold, fun hkey ↦ hany (List.any_eq_true.mpr ⟨row, hold, decide_eq_true ?_⟩)⟩
      exact ⟨hkey.1.symm, hkey.2.symm⟩
    · rw [List.mem_singleton.mp hnew]
      exact .inl ⟨rfl, rfl, rfl⟩

/-! ### The protocol -/

/-- Every snapshot in the store is taken from what a tick has found. -/
def velocityProtocol : Protocol Db ReportStep where
  permits := anyStep
  invariant world := ∀ row ∈ world.db.snapshots, ∃ sprint found, TakenFrom world.log row sprint found
  guarantee _ _ _ _ := True

/-- The step stores no snapshot. -/
def Quiet (db : Db) (label : ReportStep) (after : Db) : Prop :=
  after.snapshots = db.snapshots ∧ ∀ sprintId date, ¬ label.stores sprintId date

theorem keeps_of_quiet (hinv : velocityProtocol.invariant world) (hquiet : Quiet world.db label after) :
    velocityProtocol.Keeps number world label after := by
  refine ⟨trivial, fun row hrow ↦ ?_⟩
  change row ∈ after.snapshots at hrow
  rw [hquiet.1] at hrow
  obtain ⟨sprint, found, htaken⟩ := hinv row hrow
  exact ⟨sprint, found, htaken.cons (hquiet.2 _ _)⟩

/-- A tick that has just aggregated the items of an active sprint stores the figures. -/
theorem keeps_upsert (hinv : velocityProtocol.invariant world)
    (haggregated : Aggregated (world.history number) sprint found)
    (hstats : snapshot.toSprintStats = sprintStats sprint.tenantId sprint.id found)
    (hsprint : snapshot.sprintId = sprint.id) :
    velocityProtocol.Keeps number world (.upsert snapshot)
      { world.db with snapshots := upsertRow snapshot world.db.snapshots } := by
  refine ⟨trivial, fun row hrow ↦ ?_⟩
  rcases mem_upsertRow hrow with ⟨hfigures, hsame, hdate⟩ | ⟨hold, hother⟩
  · refine ⟨sprint, found, hfigures.trans hstats, hsame.trans hsprint, [], world.log, number, snapshot,
      rfl, ⟨hsame.symm, hdate.symm⟩, haggregated, ?_⟩
    intro entry hentry
    cases hentry
  · obtain ⟨sprint, found, htaken⟩ := hinv row hold
    exact ⟨sprint, found, htaken.cons hother⟩

section Tick

variable {today : ℤ} {lost : List Uuid}

/-- What a tick has read, it has read for good. -/
theorem persistent_foundActive (number : ℕ) (sprints : List Sprint) :
    velocityProtocol.Persistent fun world ↦
      ∀ sprint ∈ sprints, FoundActive (world.history number) sprint := by
  intro other world label after _ hfound _ sprint hsprint
  obtain ⟨read, hread, hmem, hactive⟩ := hfound sprint hsprint
  exact ⟨read, mem_history_after.mpr (.inr hread), hmem, hactive⟩

theorem meets_aggregateSprintStats (sprint : Sprint) :
    velocityProtocol.Meets number (aggregateSprintStats sprint.tenantId sprint.id)
      (fun world ↦ FoundActive (world.history number) sprint)
      fun stats world ↦ ∃ found, Aggregated (world.history number) sprint found ∧
        stats = sprintStats sprint.tenantId sprint.id found := by
  refine meets_attempt (stable_history fun steps ↦ FoundActive steps sprint) ?_ ?_
  · intro world failure hinv _ _ _
    exact keeps_of_quiet hinv ⟨rfl, fun _ _ h ↦ h⟩
  · intro world stats after hinv hfound _ hstats
    dsimp only at hstats
    split_ifs at hstats with hrange
    obtain ⟨rfl, rfl⟩ := Prod.mk.inj (Except.ok.inj hstats)
    refine ⟨keeps_of_quiet hinv ⟨rfl, fun _ _ h ↦ h⟩, world.db.work, ⟨?_, ?_⟩, rfl⟩
    · rw [history_after_self, List.head?_cons]
    · obtain ⟨read, hread, hmem, hactive⟩ := hfound
      exact ⟨read, mem_history_after.mpr (.inr hread), hmem, hactive⟩

theorem meets_snapshotSprint (sprint : Sprint) :
    velocityProtocol.Meets number (snapshotSprint today lost sprint)
      (fun world ↦ FoundActive (world.history number) sprint) fun _ _ ↦ True := by
  refine (meets_aggregateSprintStats sprint).bind fun stats _ ↦ meets_ensure.bind fun _ _ ↦ ?_
  refine meets_and_fact fun _ ↦ meets_exists fun found ↦ meets_and_fact fun hstats ↦ ?_
  refine meets_atomically (stable_history fun steps ↦ Aggregated steps sprint found) ?_
  intro world hinv haggregated _
  exact ⟨keeps_upsert hinv haggregated hstats rfl, trivial⟩

/-- The loop over the active sprints, by induction on those that are left. -/
theorem meets_snapshotAll (sprints : List Sprint) :
    velocityProtocol.Meets number (snapshotAll today lost sprints)
      (fun world ↦ ∀ sprint ∈ sprints, FoundActive (world.history number) sprint) fun _ _ ↦ True := by
  induction sprints with
  | nil => exact fun _ _ _ ↦ trivial
  | cons sprint rest ih =>
    have hfirst : velocityProtocol.Meets number
        ((snapshotSprint today lost sprint).handle fun _ ↦ pure ())
        (fun world ↦ FoundActive (world.history number) sprint) fun _ _ ↦ True :=
      (meets_snapshotSprint sprint).handle (persistent_const True) (fun _ _ _ ↦ trivial)
        fun _ _ _ _ ↦ trivial
    refine (hfirst.frame (persistent_foundActive number rest)).strengthen ?_ |>.bind fun _ _ ↦ ?_
    · exact fun world _ hall ↦ List.forall_mem_cons.mp hall
    · exact ih.strengthen fun _ _ hpre ↦ hpre.2

theorem meets_takeDailySnapshots (acquired : Bool) :
    velocityProtocol.Meets number (takeDailySnapshots acquired lost) (fun _ ↦ True) fun _ _ ↦ True := by
  rw [takeDailySnapshots]
  split_ifs
  · have hquery : velocityProtocol.Meets number (Call.query .other fun db ↦ dayOf db.work.now :
        ReportCall ℤ) (fun _ ↦ True) fun _ _ ↦ True :=
      meets_query stable_true fun world hinv _ _ ↦
        ⟨keeps_of_quiet hinv ⟨rfl, fun _ _ h ↦ h⟩, trivial⟩
    refine hquery.bind fun today _ ↦ ?_
    refine (meets_atomically stable_true ?_).bind fun sprints _ ↦ meets_snapshotAll sprints
    intro world hinv _ _
    refine ⟨keeps_of_quiet hinv ⟨rfl, fun _ _ h ↦ h⟩, fun sprint hsprint ↦ ⟨_, ?_, hsprint, ?_⟩⟩
    · exact mem_history_after.mpr (.inl ⟨rfl, rfl⟩)
    · exact of_decide_eq_true (List.mem_filter.mp hsprint).2
  · exact fun _ _ _ ↦ trivial

end Tick

/-! ### The report -/

/-- The call has read the snapshots, each of which was taken from what a tick had found. -/
def ReadSnapshots (number : ℕ) (tenantId : Uuid) (rows : List SprintSnapshot)
    (world : World Db ReportStep) : Prop :=
  ∃ later earlier, world.log = later ++ (number, .latestSnapshots tenantId rows) :: earlier ∧
    ∀ row ∈ rows, ∃ sprint found, TakenFrom earlier row sprint found

/-- The point of a sprint has the figures of the last snapshot the call has read. -/
theorem reports_velocityPoint {tenantId : Uuid} {rows : List SprintSnapshot}
    (hread : ReadSnapshots number tenantId rows world) (completed : Sprint) :
    Reports world.log number (velocityPoint tenantId rows completed) := by
  obtain ⟨later, earlier, hlog, hrows⟩ := hread
  refine ⟨tenantId, later, earlier, rows, hlog, ?_⟩
  cases hlast : lastSnapshot tenantId completed.id rows with
  | none =>
    refine .inl ⟨lastSnapshot_eq_none.mp hlast, ?_, ?_⟩
    · simp only [velocityPoint, hlast, Option.map_none, Option.getD_none]
    · simp only [velocityPoint, hlast, Option.map_none, Option.getD_none]
  | some row =>
    obtain ⟨hrow, hof, hlatest⟩ := lastSnapshot_eq_some hlast
    obtain ⟨sprint, found, htaken⟩ := hrows row hrow
    obtain ⟨hpoints, hitems⟩ := sprintStats_completed sprint found
    refine .inr ⟨row, hrow, hof, hlatest, sprint, found, htaken, ?_, ?_⟩
    · simp only [velocityPoint, hlast, Option.map_some, Option.getD_some, htaken.1, hpoints]
    · simp only [velocityPoint, hlast, Option.map_some, Option.getD_some, htaken.1, hitems]

/-- What a call promises of what it returns. -/
def Promise (number : ℕ) (returned : Option (List VelocityPoint)) (world : World Db ReportStep) : Prop :=
  ∀ points, returned = some points → ∀ point ∈ points, Reports world.log number point

theorem stable_promise (number : ℕ) (returned : Option (List VelocityPoint)) :
    velocityProtocol.Stable number (Promise number returned) := by
  intro other _ world label after _ hpromise _ points hreturned point hpoint
  exact (hpromise points hreturned point hpoint).cons _

theorem meets_getVelocity (tenantId projectId : Uuid) (lastNSprints : ℕ) :
    velocityProtocol.Meets number (some <$> getVelocity tenantId projectId lastNSprints) (fun _ ↦ True)
      (Promise number) := by
  have hpoints : velocityProtocol.Meets number (getVelocity tenantId projectId lastNSprints)
      (fun _ ↦ True) fun points world ↦ ∀ point ∈ points, Reports world.log number point := by
    have hsprints : velocityProtocol.Meets number
        (completedSprints tenantId projectId lastNSprints) (fun _ ↦ True) fun _ _ ↦ True :=
      meets_query stable_true fun world hinv _ _ ↦
        ⟨keeps_of_quiet hinv ⟨rfl, fun _ _ h ↦ h⟩, trivial⟩
    have hrows : velocityProtocol.Meets number (latestSnapshots tenantId) (fun _ ↦ True)
        (ReadSnapshots number tenantId) :=
      meets_atomically stable_true fun world hinv _ _ ↦
        ⟨keeps_of_quiet hinv ⟨rfl, fun _ _ h ↦ h⟩, [], world.log, rfl, hinv⟩
    refine hsprints.bind fun sprints _ ↦ ?_
    split_ifs with hempty
    · intro world _ _ point hpoint
      cases hpoint
    · refine hrows.bind fun rows _ world _ hread point hpoint ↦ ?_
      obtain ⟨completed, _, rfl⟩ := List.mem_map.mp (List.mem_reverse.mp hpoint)
      exact reports_velocityPoint hread completed
  refine hpoints.bind fun points _ world _ hreports returned hreturned ↦ ?_
  obtain rfl := Option.some.inj hreturned
  exact hreports

/-- A call that returns no report promises nothing. -/
theorem meets_none {call : ReportCall Unit}
    (hcall : velocityProtocol.Meets number call (fun _ ↦ True) fun _ _ ↦ True) :
    velocityProtocol.Meets number ((fun _ ↦ none) <$> call) (fun _ ↦ True) (Promise number) :=
  hcall.bind fun _ _ _ _ _ points hreturned ↦ by cases hreturned

/-- The work services store no snapshots. -/
theorem meets_ofWork {α : Type} (call : WorkCall α) :
    velocityProtocol.Meets number (ofWork call) (fun _ ↦ True) fun _ _ ↦ True := by
  have hquiet : (ofWork call).Only Quiet :=
    (Call.only_true call).within fun _ _ _ _ ↦ ⟨rfl, fun _ _ h ↦ h⟩
  exact meets_of_only hquiet stable_true fun world label after hinv _ _ hstep ↦
    ⟨keeps_of_quiet hinv hstep, trivial⟩

theorem meets_serve (request : ReportRequest) (number : ℕ) :
    velocityProtocol.Meets number request.serve (Fresh number) (Promise number) := by
  refine Meets.strengthen ?_ fun _ _ _ ↦ trivial
  cases request with
  | work request => exact meets_none (meets_ofWork request.serve)
  | takeDailySnapshots acquired lost => exact meets_none (meets_takeDailySnapshots acquired)
  | getVelocity tenantId projectId lastNSprints => exact meets_getVelocity tenantId projectId lastNSprints

/-! ### The theorem -/

/-- A configuration of the system. -/
abbrev ReportConfig := Config Db ReportStep Failure (Option (List VelocityPoint))

/-- Assumes: the system starts with no snapshots. In every run, each point of a velocity report has the
figures of the last snapshot of the sprint that the report has found, and these are the figures of the done
items of the sprint when the tick that last stored the snapshot aggregated them; or the report has found no
snapshot of the sprint, and the figures are zero. -/
theorem reachable_velocity (hempty : db.snapshots = []) {config : ReportConfig}
    (hreach : Reachable ReportRequest.serve anyStep db config) {points : List VelocityPoint}
    (hreturned : config.calls[number]? = some (.done (.ok (some points)))) :
    ∀ point ∈ points, Reports config.log number point := by
  have hinitial : velocityProtocol.invariant ⟨db, []⟩ := by
    intro row hrow
    change row ∈ db.snapshots at hrow
    rw [hempty] at hrow
    cases hrow
  have hkept := reachable_kept stable_promise meets_serve hinitial hreach
  exact hkept.returned hreturned points rfl

/-- A project with the active sprint 114, and its item 112, of five points, which is not done. -/
def activeSprint : Db where
  work := runCalls emptyDb (twoProjects ++ [.createSprint founder 100 "Sprint 1" {},
    .updateWorkItem founder 112 { iterationId := some (some 114), storyPoints := some (some 5) },
    .startSprint 2 114])

/-- Lets a call take a number of steps. -/
def steps (number count : ℕ) : List (Choice ReportRequest) := List.replicate count (.resume number)

/-- The item is done, a tick runs, the sprint is completed, and the report is asked for. -/
def reportedRun : ReportConfig :=
  (Config.initial activeSprint).play ReportRequest.serve
    (.start (.work (.moveWorkItem founder 112 105)) :: steps 0 6 ++
      .start (.takeDailySnapshots true []) :: steps 1 4 ++
      .start (.work (.completeSprint 2 114 none)) :: steps 2 5 ++
      .start (.getVelocity 2 100 6) :: steps 3 2)

/-- A witness: the report has the points of the item. -/
theorem reachable_velocity_witness :
    Reports reportedRun.log 3 ⟨114, "Sprint 1", 5, 1⟩ :=
  reachable_velocity rfl (play_reachable (allowsAll_anyStep _ _))
    (getElem?_of_returned (by decide +kernel)) _ (List.mem_singleton.mpr rfl)

/-! ### Velocity at completion -/

/-- The step from one store to the next completes the sprint. -/
def Completes (before after : Db) (sprint : Sprint) : Prop :=
  (∃ active ∈ before.work.sprints, active.id = sprint.id ∧ active.status = .active) ∧
    sprint ∈ after.work.sprints ∧ sprint.status = .completed

/-- In every run, what is reported of a sprint after it has been completed are the figures of the items
that were done then. -/
def ReportsCompletion (db : Db) : Prop :=
  ∀ (before after config : ReportConfig) (sprint : Sprint) (number : ℕ) (points : List VelocityPoint),
    Reachable ReportRequest.serve anyStep db before → Step ReportRequest.serve anyStep before after →
    Completes before.db after.db sprint →
    Relation.ReflTransGen (Step ReportRequest.serve anyStep) after config →
    config.calls[number]? = some (.done (.ok (some points))) →
    ∀ point ∈ points, point.sprintId = sprint.id →
      point.completedPoints = storyPoints (doneItems sprint after.db.work) ∧
        point.completedItems = (doneItems sprint after.db.work).length

/-- A tick runs, and then the item is done. The sprint is about to be completed. -/
def uncompleted : ReportConfig :=
  (Config.initial activeSprint).play ReportRequest.serve
    (.start (.takeDailySnapshots true []) :: steps 0 4 ++
      .start (.work (.moveWorkItem founder 112 105)) :: steps 1 3 ++
      .start (.work (.completeSprint 2 114 none)) :: steps 2 4)

/-- The sprint has just been completed. -/
def completed : ReportConfig := uncompleted.follow ReportRequest.serve (.resume 2)

/-- The completed sprint. -/
def completedSprint : Sprint :=
  { id := 114, tenantId := 2, projectId := 100, name := "Sprint 1", status := .completed
    completedAt := some 0, createdAt := 0 }

/-- An item that is done after the last tick is in no snapshot, and so not in the report. -/
theorem staleVelocity : ¬ ReportsCompletion activeSprint := by
  intro halways
  have hreport : (completed.play ReportRequest.serve
      (.start (.getVelocity 2 100 6) :: steps 3 2)).calls[3]? =
        some (.done (.ok (some [⟨114, "Sprint 1", 0, 0⟩]))) :=
    getElem?_of_returned (by decide +kernel)
  have hlabel : uncompleted.nextLabel (.resume 2 : Choice ReportRequest) = some .other := rfl
  have hpoint := halways uncompleted completed _ completedSprint 3 _
    (play_reachable (allowsAll_anyStep _ _)) (step_follow hlabel trivial) ?_
    (play_reachable (allowsAll_anyStep _ _)) hreport _ (List.mem_singleton_self _) rfl
  · exact absurd hpoint (by decide +kernel)
  · exact ⟨by decide +kernel, by decide +kernel⟩

end RallyApi.Reporting

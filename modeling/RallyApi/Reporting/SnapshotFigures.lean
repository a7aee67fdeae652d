import RallyApi.Concurrency.Traces
import RallyApi.Reporting.SprintFigures

/-!
# The figures of the snapshots

`ReportRequest.observed` is the system of the work services, the snapshot tick and the velocity report,
under labels that also tell what the work services write, so that a run can be held to the condition
`KeepsCountable` on each write.

`reachable_figuresCover`: in every run whose writes are within the condition, the figures of every sprint
cover its items in every store, and there is one snapshot of a sprint for a day, with the figures of the
last tick that has stored it. `uncountedItem` is a run in which an item is moved into a status of another
project: its sprint no longer counts it.
-/

set_option autoImplicit false
set_option relaxedAutoImplicit false

namespace RallyApi.Reporting

open Concurrency Protocol Platform Store Work

/-! ### The system -/

/-- A step of the work services, or one of the tick and the report. -/
abbrev FigureStep := WorkStep ⊕ ReportStep

/-- What the labels of the reports show of a step: of one of the work services, nothing. -/
def reportStep : FigureStep → ReportStep
  | .inl _ => .other
  | .inr step => step

/-- The call that serves a request, with the writes of the work services in the labels. -/
def ReportRequest.observed : ReportRequest → Call Db FigureStep Failure (Option (List VelocityPoint))
  | .work request => (fun _ ↦ none) <$> request.serve.within workPart .inl
  | .takeDailySnapshots acquired lost =>
    (fun _ ↦ none) <$> (Reporting.takeDailySnapshots acquired lost).relabelled .inr
  | .getVelocity tenantId projectId lastNSprints =>
    some <$> (Reporting.getVelocity tenantId projectId lastNSprints).relabelled .inr

/-- Under the labels of the reports it is the call that serves the request. -/
theorem observed_relabelled (request : ReportRequest) :
    request.observed.relabelled reportStep = request.serve := by
  cases request with
  | work request =>
    rw [ReportRequest.observed, Call.relabelled_map, Call.relabelled_within]
    rfl
  | takeDailySnapshots acquired lost =>
    rw [ReportRequest.observed, Call.relabelled_map, Call.relabelled_relabelled]
    exact congrArg _ Call.relabelled_id
  | getVelocity tenantId projectId lastNSprints =>
    rw [ReportRequest.observed, Call.relabelled_map, Call.relabelled_relabelled]
    exact congrArg _ Call.relabelled_id

/-- The writes of the work services are within the condition. -/
def withinCondition (world : World Db FigureStep) : FigureStep → Prop
  | .inl step => KeepsCountable world.db.work step
  | .inr _ => True

instance (world : World Db FigureStep) : (label : FigureStep) → Decidable (withinCondition world label)
  | .inl step => inferInstanceAs (Decidable (KeepsCountable world.db.work step))
  | .inr _ => .isTrue trivial

/-! ### What the steps do -/

variable {db after : Db} {rows : List SprintSnapshot} {snapshot : SprintSnapshot}

/-- An aggregate is labelled with the store it finds. -/
def ReportStep.finds (step : ReportStep) (db : Work.Db) : Prop :=
  match step with
  | .aggregate _ _ found => found = db
  | _ => True

/-- A step of the tick or the report: it leaves the work services' part alone, and it reads, or stores a
snapshot by an upsert. -/
structure Reported (db : Db) (step : ReportStep) (after : Db) : Prop where
  work : after.work = db.work
  found : step.finds db.work
  snapshots : after.snapshots = db.snapshots ∨ ∃ snapshot, after.snapshots = upsertRow snapshot db.snapshots

/-- A step that reads. -/
theorem reported_refl {step : ReportStep} (hfound : step.finds db.work) : Reported db step db :=
  ⟨rfl, hfound, .inl rfl⟩

theorem snapshotSprint_reported (today : ℤ) (lost : List Uuid) (sprint : Sprint) :
    (snapshotSprint today lost sprint).Only Reported := by
  refine Call.only_bind.mpr ⟨?_, fun stats _ ↦ Call.only_bind.mpr ⟨Call.only_ensure _ _, fun _ _ ↦ ?_⟩⟩
  · refine Call.only_attempt _ _ (fun db failure _ ↦ reported_refl rfl) fun db stats after hstats ↦ ?_
    dsimp only at hstats
    split_ifs at hstats
    obtain ⟨_, rfl⟩ := Prod.mk.inj (Except.ok.inj hstats)
    exact reported_refl rfl
  · exact (Call.only_atomically _ _).mpr fun db ↦ ⟨rfl, trivial, .inr ⟨_, rfl⟩⟩

/-- By induction on the sprints that are left. -/
theorem snapshotAll_reported (today : ℤ) (lost : List Uuid) (sprints : List Sprint) :
    (snapshotAll today lost sprints).Only Reported := by
  induction sprints with
  | nil => exact Call.only_pure ()
  | cons sprint rest ih =>
    refine Call.only_bind.mpr ⟨?_, fun _ _ ↦ ih⟩
    exact (snapshotSprint_reported today lost sprint).handle fun _ ↦ Call.only_pure ()

theorem takeDailySnapshots_reported (acquired : Bool) (lost : List Uuid) :
    (takeDailySnapshots acquired lost).Only Reported := by
  rw [takeDailySnapshots]
  split_ifs
  · refine Call.only_bind.mpr ⟨?_, fun today _ ↦ Call.only_bind.mpr ⟨?_, fun sprints _ ↦ ?_⟩⟩
    · exact (Call.only_query _ _).mpr fun _ ↦ reported_refl trivial
    · exact (Call.only_atomically _ _).mpr fun _ ↦ reported_refl trivial
    · exact snapshotAll_reported today lost sprints
  · exact Call.only_pure ()

theorem getVelocity_reported (tenantId projectId : Uuid) (lastNSprints : ℕ) :
    (getVelocity tenantId projectId lastNSprints).Only Reported := by
  refine Call.only_bind.mpr ⟨(Call.only_query _ _).mpr fun _ ↦ reported_refl trivial, fun sprints _ ↦ ?_⟩
  split_ifs
  · exact Call.only_pure _
  · refine Call.only_bind.mpr ⟨?_, fun _ _ ↦ Call.only_pure _⟩
    exact (Call.only_atomically _ _).mpr fun _ ↦ reported_refl trivial

/-- A step of the work services, with what is known of the rows it inserts. -/
structure Worked (db : Work.Db) (step : WorkStep) (after : Work.Db) : Prop where
  effect : Effect db step after
  unplanned : Unplanned step
  statusIds : KeepsStatusIds db after

/-- A step of the system: of the work services, which leave the snapshots alone, or of the others. -/
def Observed (db : Db) (label : FigureStep) (after : Db) : Prop :=
  match label with
  | .inl step => Worked db.work step after.work ∧ after.snapshots = db.snapshots
  | .inr step => Reported db step after

/-- Every step of every call is one of these. -/
theorem observed_only (request : ReportRequest) : request.observed.Only Observed := by
  cases request with
  | work request =>
    have hworked : request.serve.Only Worked :=
      (((serve_effect request).and (serve_unplanned request)).and (serve_keepsStatusIds request)).mono
        fun _ _ _ hstep ↦ ⟨hstep.1.1, hstep.1.2, hstep.2⟩
    exact Call.only_map (hworked.within fun _ _ _ hstep ↦ ⟨hstep, rfl⟩)
  | takeDailySnapshots acquired lost =>
    exact Call.only_map ((takeDailySnapshots_reported acquired lost).traced fun _ _ _ hstep ↦ hstep)
  | getVelocity tenantId projectId lastNSprints =>
    exact Call.only_map ((getVelocity_reported _ _ _).traced fun _ _ _ hstep ↦ hstep)

/-! ### One snapshot of a sprint for a day -/

/-- The key of `uq_sds_sprint_date`. -/
def SprintSnapshot.day (row : SprintSnapshot) : Uuid × ℤ := (row.sprintId, row.snapshotDate)

/-- An upsert leaves one row for a sprint and a day. -/
theorem nodup_upsertRow (hnodup : (rows.map SprintSnapshot.day).Nodup) (snapshot : SprintSnapshot) :
    ((upsertRow snapshot rows).map SprintSnapshot.day).Nodup := by
  rw [upsertRow]
  split_ifs with hany
  · exact nodup_map_updateWhere (fun _ ↦ rfl) hnodup
  · refine nodup_map_append_singleton hnodup fun htaken ↦ hany ?_
    obtain ⟨row, hrow, hday⟩ := List.mem_map.mp htaken
    exact List.any_eq_true.mpr ⟨row, hrow, decide_eq_true (Prod.mk.inj hday)⟩

/-! ### The invariant -/

/-- The store is sound, the snapshots have distinct days, and every store that a tick has aggregated was
sound. -/
structure FiguresSound (world : World Db FigureStep) : Prop where
  work : Sound world.db.work
  days : (world.db.snapshots.map SprintSnapshot.day).Nodup
  found : ∀ entry ∈ world.log, ∀ tenantId sprintId found,
    entry.2 = .inr (.aggregate tenantId sprintId found) → Sound found

/-- A step within the condition keeps the invariant. -/
theorem FiguresSound.step {world : World Db FigureStep} {label : FigureStep} (hinv : FiguresSound world)
    (number : ℕ) (hwithin : withinCondition world label) (hstep : Observed world.db label after) :
    FiguresSound (world.after number label after) := by
  cases label with
  | inl step =>
    obtain ⟨hworked, hsnapshots⟩ := hstep
    refine ⟨hinv.work.step hworked.effect hworked.unplanned hworked.statusIds hwithin, ?_, ?_⟩
    · exact hsnapshots ▸ hinv.days
    · intro entry hentry tenantId sprintId found haggregate
      rcases List.mem_cons.mp hentry with rfl | hold
      · cases haggregate
      · exact hinv.found entry hold tenantId sprintId found haggregate
  | inr step =>
    refine ⟨hstep.work ▸ hinv.work, ?_, ?_⟩
    · rcases hstep.snapshots with hsame | ⟨snapshot, hupsert⟩
      · exact hsame ▸ hinv.days
      · exact hupsert ▸ nodup_upsertRow hinv.days snapshot
    · intro entry hentry tenantId sprintId found haggregate
      rcases List.mem_cons.mp hentry with rfl | hold
      · obtain rfl := Sum.inr.inj haggregate
        exact hstep.found ▸ hinv.work
      · exact hinv.found entry hold tenantId sprintId found haggregate

/-! ### The theorem -/

/-- A configuration of the system. -/
abbrev FigureConfig := Config Db FigureStep Failure (Option (List VelocityPoint))

/-- The figures of the row are those of the store that the last tick to store it has found, and they cover
the sprint, if it was still there. -/
def OfLastRun (log : ReportLog) (row : SprintSnapshot) : Prop :=
  ∃ sprint found, TakenFrom log row sprint found ∧
    ∀ current ∈ found.sprints, current.id = sprint.id → current.tenantId = sprint.tenantId →
      Covers row.toSprintStats row.sprintId found

/-- The join has every item of a sprint once, the figures of every sprint cover it, and there is one
snapshot of a sprint for a day, with the figures of the last run. -/
structure FiguresCover (config : FigureConfig) : Prop where
  joined : ∀ sprint ∈ config.db.work.sprints,
    (joinRows sprint.tenantId sprint.id config.db.work).map Prod.fst = itemsOf sprint.id config.db.work
  covers : ∀ sprint ∈ config.db.work.sprints,
    Covers (sprintStats sprint.tenantId sprint.id config.db.work) sprint.id config.db.work
  days : (config.db.snapshots.map SprintSnapshot.day).Nodup
  lastRun : ∀ row ∈ config.db.snapshots, OfLastRun (config.relabelled reportStep).log row

/-- In a sound store the join has every item of a sprint once. -/
theorem Sound.joined {db : Work.Db} (hsound : Sound db) {sprint : Sprint} (hsprint : sprint ∈ db.sprints) :
    (joinRows sprint.tenantId sprint.id db).map Prod.fst = itemsOf sprint.id db := by
  rw [joinRows_eq hsound.statusIds, map_sprintItems]
  have hcounted := (covers_iff hsound.statusIds sprint).mp (hsound.covers hsprint)
  exact List.filter_eq_self.mpr fun item hitem ↦ decide_eq_true (hcounted item hitem)

/-- Assumes: every store that a tick has aggregated was sound. Figures that are taken from one cover the
sprint, if it was there. -/
theorem TakenFrom.ofLastRun {config : FigureConfig} {row : SprintSnapshot} {sprint : Sprint}
    {found : Work.Db} (hinv : FiguresSound config.toWorld)
    (htaken : TakenFrom (config.relabelled reportStep).log row sprint found) :
    OfLastRun (config.relabelled reportStep).log row := by
  refine ⟨sprint, found, htaken, fun current hcurrent hid htenant ↦ ?_⟩
  obtain ⟨hstats, hsprint, later, earlier, tick, snapshot, hlog, _, haggregated, _⟩ := htaken
  have hstep : .aggregate sprint.tenantId sprint.id found ∈ stepsOf earlier tick :=
    List.mem_of_head? haggregated.last
  obtain ⟨entry, hentry, hlabel⟩ := List.mem_map.mp hstep
  have hmem : entry ∈ (config.relabelled reportStep).log := by
    rw [hlog]
    exact List.mem_append_right _ (List.mem_cons_of_mem _ (List.mem_filter.mp hentry).1)
  obtain ⟨original, horiginal, hrenamed⟩ := List.mem_map.mp hmem
  have haggregate : original.2 = .inr (.aggregate sprint.tenantId sprint.id found) := by
    have hshown : reportStep original.2 = .aggregate sprint.tenantId sprint.id found := by
      rw [← hlabel, ← hrenamed]
    cases hof : original.2 with
    | inl step =>
      rw [hof] at hshown
      cases hshown
    | inr step =>
      rw [hof] at hshown
      exact congrArg _ hshown
  have hsound := hinv.found original horiginal _ _ _ haggregate
  rw [hstats, hsprint, ← hid, ← htenant]
  exact hsound.covers hcurrent

/-- Assumes: the system starts with no snapshots, with distinct identifiers of statuses and every item
counted by the sprint it is in. In every run whose writes are within the condition, the figures of every
sprint cover it, and there is one snapshot of a sprint for a day, with the figures of the last run. -/
theorem reachable_figuresCover (hempty : db.snapshots = []) (hsound : Sound db.work) {config : FigureConfig}
    (hreach : Reachable ReportRequest.observed withinCondition db config) : FiguresCover config := by
  have hinitial : FiguresSound ⟨db, []⟩ := by
    refine ⟨hsound, ?_, fun _ hentry ↦ by cases hentry⟩
    rw [hempty]
    exact List.nodup_nil
  have hinv : FiguresSound config.toWorld :=
    reachable_keeps observed_only FiguresSound hinitial
      (fun _ number _ _ hworld hwithin hstep ↦ hworld.step number hwithin hstep) hreach
  have hrenamed := reachable_relabelled reportStep hreach
  simp only [observed_relabelled] at hrenamed
  have htaken : velocityProtocol.invariant ⟨db, []⟩ := by
    intro row hrow
    change row ∈ db.snapshots at hrow
    rw [hempty] at hrow
    cases hrow
  have hrows := (reachable_kept stable_promise meets_serve htaken hrenamed).invariant
  refine ⟨fun _ hsprint ↦ hinv.work.joined hsprint, fun _ hsprint ↦ hinv.work.covers hsprint, hinv.days, ?_⟩
  intro row hrow
  obtain ⟨sprint, found, hrowTaken⟩ := hrows row hrow
  exact hrowTaken.ofLastRun hinv

/-- A tick runs twice on one day; in between the item is done. -/
def countedRun : FigureConfig :=
  (Config.initial activeSprint).play ReportRequest.observed
    (.start (.takeDailySnapshots true []) :: finish 0 ++
      .start (.work (.moveWorkItem founder 112 105)) :: finish 1 ++
      .start (.takeDailySnapshots true []) :: finish 2)

/-- A witness: both ticks have counted the item, and the figures are those of the second. -/
theorem reachable_figuresCover_witness :
    FiguresCover countedRun ∧ countedRun.db.snapshots =
      [{ totalPoints := 5, completedPoints := 5, remainingPoints := 0, totalItems := 1, completedItems := 1
         tenantId := 2, sprintId := 114, snapshotDate := 0 }] :=
  ⟨reachable_figuresCover rfl ⟨by decide +kernel, by decide +kernel⟩ (play_reachable (by decide +kernel)),
    by decide +kernel⟩

/-! ### An item that is not counted -/

/-- The item of the sprint is moved into a status of another project, and a tick runs. -/
def uncounted : FigureConfig :=
  (Config.initial activeSprint).play ReportRequest.observed
    (.start (.work (.updateWorkItem founder 112 { statusId := some 108 })) :: finish 0 ++
      .start (.takeDailySnapshots true []) :: finish 1)

/-- Without the condition the figures of a sprint can leave out an item of it. -/
theorem uncountedItem :
    ¬ ∀ (db : Db) (config : FigureConfig), db.snapshots = [] → Sound db.work →
      Reachable ReportRequest.observed anyStep db config → FiguresCover config := by
  intro halways
  have hcover := halways activeSprint uncounted rfl ⟨by decide +kernel, by decide +kernel⟩
    (play_reachable (allowsAll_anyStep _ _))
  have htotal := fun sprint hsprint ↦ (hcover.covers sprint hsprint).totalItems
  exact absurd htotal (by decide +kernel)

end RallyApi.Reporting

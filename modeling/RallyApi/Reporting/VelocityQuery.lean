import RallyApi.Reporting.Velocity
import RallyApi.Store.DistinctOn

/-!
# The queries of the velocity report

`getVelocity` reads the last completed sprints of a project, newest first, then one snapshot for each of
them with a `SELECT DISTINCT ON`, puts these into a map and turns the points around. Here the second query
and the map are spelled out (`queryVelocity`).

On any tables, it returns the points of the most recently completed sprints in the order in which they were
completed, each with the figures of the last snapshot of the sprint, or zeros where there is none
(`queryVelocity_points`). Where the table has one snapshot for a sprint and a day, it is `getVelocity`
(`run_queryVelocity`).
-/

set_option autoImplicit false
set_option relaxedAutoImplicit false

namespace RallyApi.Reporting

open Concurrency Platform Store Work

/-! ### The second query -/

/-- `ORDER BY sprint_id, snapshot_date DESC`. -/
def snapshotOrder (first second : SprintSnapshot) : Prop :=
  first.sprintId < second.sprintId ∨
    first.sprintId = second.sprintId ∧ second.snapshotDate ≤ first.snapshotDate

instance : DecidableRel snapshotOrder := fun _ _ ↦ inferInstanceAs (Decidable (_ ∨ _))

/-- `SELECT DISTINCT ON (sprint_id) … WHERE tenant_id = … AND sprint_id IN (…) ORDER BY …`. -/
def latestOf (tenantId : Uuid) (sprintIds : List Uuid) (rows : List SprintSnapshot) :
    List SprintSnapshot :=
  distinctOn SprintSnapshot.sprintId
    ((rows.filter fun row ↦ row.tenantId = tenantId ∧ row.sprintId ∈ sprintIds).insertionSort
      snapshotOrder)

/-- The query, as a step. -/
def selectLatest (tenantId : Uuid) (sprintIds : List Uuid) : ReportCall (List SprintSnapshot) :=
  Call.atomically (fun db ↦ .latestSnapshots tenantId db.snapshots) fun db ↦
    (latestOf tenantId sprintIds db.snapshots, db)

/-- The points, assembled from the completed sprints and the rows of the second query. -/
def assembleVelocity (completedSprints : List Sprint) (latestSnapshots : List SprintSnapshot) :
    List VelocityPoint :=
  let snapshotBySprintId := mapBy SprintSnapshot.sprintId latestSnapshots
  (completedSprints.map fun sprint ↦
    let last := snapshotBySprintId sprint.id
    { sprintId := sprint.id
      sprintName := sprint.name
      completedPoints := (last.map fun row ↦ row.completedPoints).getD 0
      completedItems := (last.map fun row ↦ row.completedItems).getD 0 : VelocityPoint }).reverse

/-- `getVelocity`, with its second query as it is written. -/
def queryVelocity (tenantId projectId : Uuid) (lastNSprints : ℕ) : ReportCall (List VelocityPoint) := do
  let sprints ← completedSprints tenantId projectId lastNSprints
  if sprints = [] then pure []
  else do
    let latest ← selectLatest tenantId (sprints.map Sprint.id)
    pure (assembleVelocity sprints latest)

/-! ### The snapshot of a sprint -/

section Snapshots

variable {tenantId sprintId : Uuid} {sprintIds : List Uuid} {rows : List SprintSnapshot}

theorem snapshotOrder_total (first second : SprintSnapshot) :
    snapshotOrder first second ∨ snapshotOrder second first := by
  rcases Nat.lt_trichotomy first.sprintId second.sprintId with hless | hsame | hgreater
  · exact .inl (.inl hless)
  · rcases Int.le_total second.snapshotDate first.snapshotDate with hlater | hearlier
    · exact .inl (.inr ⟨hsame, hlater⟩)
    · exact .inr (.inr ⟨hsame.symm, hearlier⟩)
  · exact .inr (.inl hgreater)

theorem snapshotOrder_trans {first second third : SprintSnapshot} (hfirst : snapshotOrder first second)
    (hsecond : snapshotOrder second third) : snapshotOrder first third := by
  rcases hfirst with hless | ⟨hsame, hlater⟩
  · rcases hsecond with hnext | ⟨hnext, _⟩
    · exact .inl (Nat.lt_trans hless hnext)
    · exact .inl (hnext ▸ hless)
  · rcases hsecond with hnext | ⟨hnext, hlatest⟩
    · exact .inl (hsame ▸ hnext)
    · exact .inr ⟨hsame.trans hnext, Int.le_trans hlatest hlater⟩

theorem pairwise_snapshotOrder (rows : List SprintSnapshot) :
    (rows.insertionSort snapshotOrder).Pairwise snapshotOrder := by
  have : Std.Total snapshotOrder := ⟨snapshotOrder_total⟩
  have : IsTrans SprintSnapshot snapshotOrder := ⟨fun _ _ _ ↦ snapshotOrder_trans⟩
  exact List.pairwise_insertionSort _ _

/-- The point has the figures of the last snapshot of its sprint, or zeros where there is none. -/
def PointOf (tenantId : Uuid) (rows : List SprintSnapshot) (sprint : Sprint) (point : VelocityPoint) :
    Prop :=
  point.sprintId = sprint.id ∧ point.sprintName = sprint.name ∧
    ((∀ row ∈ rows, row.isOf tenantId sprint.id = false) ∧
        point.completedPoints = 0 ∧ point.completedItems = 0 ∨
      ∃ row ∈ rows, row.isOf tenantId sprint.id = true ∧
        (∀ other ∈ rows, other.isOf tenantId sprint.id = true →
          other.snapshotDate ≤ row.snapshotDate) ∧
        point.completedPoints = row.completedPoints ∧ point.completedItems = row.completedItems)

/-- Looking a sprint up in the map finds the first of its rows in the order of the second query. -/
theorem mapBy_latestOf :
    mapBy SprintSnapshot.sprintId (latestOf tenantId sprintIds rows) sprintId =
      ((rows.filter fun row ↦ row.tenantId = tenantId ∧ row.sprintId ∈ sprintIds).insertionSort
        snapshotOrder).find? fun row ↦ row.sprintId = sprintId := by
  refine mapBy_distinctOn ((pairwise_snapshotOrder _).imp fun {first second} hordered ↦ ?_) sprintId
  rcases hordered with hless | ⟨hsame, _⟩
  · exact Nat.le_of_lt hless
  · exact Nat.le_of_eq hsame

/-- Assumes: the second query asks for the sprint. Its rows are those of the sprint. -/
theorem mem_selected {row : SprintSnapshot} (hsought : sprintId ∈ sprintIds) :
    row ∈ (rows.filter fun row ↦ row.tenantId = tenantId ∧ row.sprintId ∈ sprintIds).insertionSort
        snapshotOrder ∧ row.sprintId = sprintId ↔
      row ∈ rows ∧ row.isOf tenantId sprintId = true := by
  rw [List.mem_insertionSort, List.mem_filter, decide_eq_true_eq, SprintSnapshot.isOf, decide_eq_true_eq]
  constructor
  · rintro ⟨⟨hrow, htenant, _⟩, hsprint⟩
    exact ⟨hrow, htenant, hsprint⟩
  · rintro ⟨hrow, htenant, hsprint⟩
    exact ⟨⟨hrow, htenant, hsprint ▸ hsought⟩, hsprint⟩

/-- Assumes: the second query asks for the sprint. The map has no row for it only if there is none. -/
theorem isOf_of_mapBy_eq_none (hsought : sprintId ∈ sprintIds)
    (hnone : mapBy SprintSnapshot.sprintId (latestOf tenantId sprintIds rows) sprintId = none) :
    ∀ row ∈ rows, row.isOf tenantId sprintId = false := by
  rw [mapBy_latestOf] at hnone
  intro row hrow
  refine Bool.eq_false_iff.mpr fun hof ↦ ?_
  obtain ⟨hselected, hsprint⟩ := (mem_selected hsought).mpr ⟨hrow, hof⟩
  exact List.find?_eq_none.mp hnone row hselected (decide_eq_true hsprint)

/-- Assumes: the second query asks for the sprint. The map has the last snapshot of it. -/
theorem isLast_of_mapBy_eq_some {row : SprintSnapshot} (hsought : sprintId ∈ sprintIds)
    (hsome : mapBy SprintSnapshot.sprintId (latestOf tenantId sprintIds rows) sprintId = some row) :
    row ∈ rows ∧ row.isOf tenantId sprintId = true ∧
      ∀ other ∈ rows, other.isOf tenantId sprintId = true → other.snapshotDate ≤ row.snapshotDate := by
  rw [mapBy_latestOf] at hsome
  have hsprint : row.sprintId = sprintId := by simpa using List.find?_some hsome
  obtain ⟨hrow, hof⟩ := (mem_selected hsought).mp ⟨List.mem_of_find?_eq_some hsome, hsprint⟩
  refine ⟨hrow, hof, fun other hother hotherOf ↦ ?_⟩
  obtain ⟨hselected, hotherSprint⟩ := (mem_selected hsought).mpr ⟨hother, hotherOf⟩
  rcases before_of_find (pairwise_snapshotOrder _) hsome hselected (decide_eq_true hotherSprint) with
    rfl | hless | ⟨_, hdate⟩
  · exact Int.le_refl _
  · rw [hsprint, hotherSprint] at hless
    exact absurd hless (Nat.lt_irrefl sprintId)
  · exact hdate

/-- The points the report assembles are those of the sprints, the other way around. -/
theorem assembleVelocity_points {sprints : List Sprint} :
    List.Forall₂ (PointOf tenantId rows) sprints.reverse
      (assembleVelocity sprints (latestOf tenantId (sprints.map Sprint.id) rows)) := by
  rw [assembleVelocity, ← List.map_reverse, List.forall₂_map_right_iff, List.forall₂_same]
  intro sprint hsprint
  have hsought : sprint.id ∈ sprints.map Sprint.id :=
    List.mem_map_of_mem (List.mem_reverse.mp hsprint)
  refine ⟨rfl, rfl, ?_⟩
  cases hlast : mapBy SprintSnapshot.sprintId (latestOf tenantId (sprints.map Sprint.id) rows) sprint.id with
  | none => exact .inl ⟨isOf_of_mapBy_eq_none hsought hlast, rfl, rfl⟩
  | some row =>
    obtain ⟨hrow, hof, hlatest⟩ := isLast_of_mapBy_eq_some hsought hlast
    exact .inr ⟨row, hrow, hof, hlatest, rfl, rfl⟩

end Snapshots

/-! ### The last completed sprints -/

/-- The first sprint was completed before the second one. -/
def CompletedBefore (first second : Sprint) : Prop :=
  ∃ earlier later, first.completedAt = some earlier ∧ second.completedAt = some later ∧ earlier < later

/-- The sprints are the most recently completed ones, in the order in which they were completed. -/
structure LastCompleted (count : ℕ) (completed sprints : List Sprint) : Prop where
  length : sprints.length = min count completed.length
  subset : sprints ⊆ completed
  ordered : sprints.Pairwise CompletedBefore
  latest : ∀ sprint ∈ sprints, ∀ other ∈ completed, other ∉ sprints → CompletedBefore other sprint

/-- The completed sprints of a project. -/
def completedOf (tenantId projectId : Uuid) (db : Work.Db) : List Sprint :=
  db.sprints.filter fun sprint ↦ sprint.tenantId = tenantId ∧ sprint.projectId = projectId ∧
    sprint.status = .completed

theorem completedLater_total (first second : Sprint) :
    completedLater first second ∨ completedLater second first := by
  unfold completedLater
  cases first.completedAt with
  | none => exact .inl trivial
  | some earlier =>
    cases second.completedAt with
    | none => exact .inr trivial
    | some later => exact Int.le_total later earlier

theorem completedLater_trans {first second third : Sprint} (hfirst : completedLater first second)
    (hsecond : completedLater second third) : completedLater first third := by
  unfold completedLater at hfirst hsecond ⊢
  cases hone : first.completedAt with
  | none => trivial
  | some one =>
    cases htwo : second.completedAt with
    | none => simp [hone, htwo] at hfirst
    | some two =>
      cases hthree : third.completedAt with
      | none => simp [htwo, hthree] at hsecond
      | some three =>
        simp only [hone, htwo, hthree] at hfirst hsecond
        exact Int.le_trans hsecond hfirst

/-- Of two sprints completed at different times, the one that comes first in the order of the query was
completed later. -/
theorem completedBefore_of_completedLater {first second : Sprint} (hordered : completedLater first second)
    (hfirst : first.completedAt ≠ none) (hsecond : second.completedAt ≠ none)
    (hdistinct : first.completedAt ≠ second.completedAt) : CompletedBefore second first := by
  obtain ⟨one, hone⟩ := Option.ne_none_iff_exists'.mp hfirst
  obtain ⟨two, htwo⟩ := Option.ne_none_iff_exists'.mp hsecond
  unfold completedLater at hordered
  rw [hone, htwo] at hordered hdistinct
  have hle : two ≤ one := hordered
  exact ⟨two, one, htwo, hone, lt_of_le_of_ne hle fun hsame ↦ hdistinct (congrArg some hsame.symm)⟩

/-- Assumes: the completed sprints have distinct times of completion. The first of them in the order of the
query are the most recently completed ones, the other way around. -/
theorem lastCompleted_take {completed : List Sprint} (count : ℕ)
    (htimes : ∀ sprint ∈ completed, sprint.completedAt ≠ none)
    (hdistinct : (completed.map Sprint.completedAt).Nodup) :
    LastCompleted count completed ((completed.insertionSort completedLater).take count).reverse := by
  have : Std.Total completedLater := ⟨completedLater_total⟩
  have : IsTrans Sprint completedLater := ⟨fun _ _ _ ↦ completedLater_trans⟩
  have hperm : (completed.insertionSort completedLater).Perm completed := List.perm_insertionSort _ _
  have hne : (completed.insertionSort completedLater).Pairwise
      fun first second ↦ first.completedAt ≠ second.completedAt :=
    List.pairwise_map.mp ((hperm.map Sprint.completedAt).nodup_iff.mpr hdistinct)
  have hstrict : (completed.insertionSort completedLater).Pairwise
      fun first second ↦ CompletedBefore second first := by
    refine ((List.pairwise_insertionSort completedLater completed).and hne).imp_of_mem ?_
    intro first second hfirst hsecond hordered
    exact completedBefore_of_completedLater hordered.1 (htimes first (hperm.subset hfirst))
      (htimes second (hperm.subset hsecond)) hordered.2
  constructor
  · rw [List.length_reverse, List.length_take, hperm.length_eq]
  · intro sprint hsprint
    exact hperm.subset (List.mem_of_mem_take (List.mem_reverse.mp hsprint))
  · rw [List.pairwise_reverse]
    exact hstrict.sublist (List.take_sublist _ _)
  · intro sprint hsprint other hother hleft
    rw [List.mem_reverse] at hsprint hleft
    rw [← List.take_append_drop count (completed.insertionSort completedLater)] at hstrict
    refine (List.pairwise_append.mp hstrict).2.2 sprint hsprint other ?_
    have hsplit := hperm.symm.subset hother
    rw [← List.take_append_drop count (completed.insertionSort completedLater), List.mem_append] at hsplit
    exact hsplit.resolve_left hleft

/-! ### The report -/

section Report

variable {db : Db} (tenantId projectId : Uuid) (lastNSprints : ℕ)

/-- What the first query returns. -/
def lastSprints (tenantId projectId : Uuid) (lastNSprints : ℕ) (db : Work.Db) : List Sprint :=
  ((completedOf tenantId projectId db).insertionSort completedLater).take lastNSprints

/-- The report assembles the results of its two queries. -/
theorem run_queryVelocity_eq :
    (queryVelocity tenantId projectId lastNSprints).run db =
      (.ok (assembleVelocity (lastSprints tenantId projectId lastNSprints db.work)
        (latestOf tenantId ((lastSprints tenantId projectId lastNSprints db.work).map Sprint.id)
          db.snapshots)), db) := by
  have hquery : (completedSprints tenantId projectId lastNSprints).run db =
      (.ok (lastSprints tenantId projectId lastNSprints db.work), db) := rfl
  rw [queryVelocity, Call.run_bind, hquery]
  by_cases hempty : lastSprints tenantId projectId lastNSprints db.work = []
  · simp [hempty, assembleVelocity]
  · simp [hempty, selectLatest, Call.run_bind]

/-- Assumes: the completed sprints of a project have distinct times of completion. The report of its last
sprints has the points of the most recently completed ones in the order in which they were completed. -/
theorem queryVelocity_points
    (htimes : ∀ sprint ∈ completedOf tenantId projectId db.work, sprint.completedAt ≠ none)
    (hdistinct : ((completedOf tenantId projectId db.work).map Sprint.completedAt).Nodup) :
    ∃ sprints points, (queryVelocity tenantId projectId lastNSprints).run db = (.ok points, db) ∧
      LastCompleted lastNSprints (completedOf tenantId projectId db.work) sprints ∧
      List.Forall₂ (PointOf tenantId db.snapshots) sprints points :=
  ⟨_, _, run_queryVelocity_eq tenantId projectId lastNSprints,
    lastCompleted_take lastNSprints htimes hdistinct, assembleVelocity_points⟩

/-- Three completed sprints of a project, the second of which was completed last and has two snapshots. -/
def completedSprintsDb : Db where
  work := { sprints := [
    { id := 1, tenantId := 2, projectId := 3, name := "A", status := .completed, completedAt := some 10,
      createdAt := 0 },
    { id := 4, tenantId := 2, projectId := 3, name := "B", status := .completed, completedAt := some 30,
      createdAt := 0 },
    { id := 5, tenantId := 2, projectId := 3, name := "C", status := .completed, completedAt := some 20,
      createdAt := 0 }] }
  snapshots := [
    { tenantId := 2, sprintId := 4, snapshotDate := 1, totalPoints := 9, completedPoints := 3,
      remainingPoints := 6, totalItems := 4, completedItems := 1 },
    { tenantId := 2, sprintId := 4, snapshotDate := 2, totalPoints := 9, completedPoints := 8,
      remainingPoints := 1, totalItems := 4, completedItems := 3 }]

/-- A witness: the report of the last two of the three sprints. -/
theorem queryVelocity_points_witness :
    ∃ sprints points, (queryVelocity 2 3 2).run completedSprintsDb = (.ok points, completedSprintsDb) ∧
      LastCompleted 2 (completedOf 2 3 completedSprintsDb.work) sprints ∧
      List.Forall₂ (PointOf 2 completedSprintsDb.snapshots) sprints points :=
  queryVelocity_points 2 3 2 (by decide) (by decide)

example : ((queryVelocity 2 3 2).run completedSprintsDb).1 =
    .ok [⟨5, "C", 0, 0⟩, ⟨4, "B", 8, 3⟩] := by decide

/-- Assumes: there is one snapshot for a sprint and a day. The map has the snapshot that `getVelocity`
takes for the last one. -/
theorem mapBy_latestOf_eq_lastSnapshot {rows : List SprintSnapshot} {sprintIds : List Uuid}
    {sprintId : Uuid} (hsought : sprintId ∈ sprintIds)
    (hunique : (rows.map fun row ↦ (row.sprintId, row.snapshotDate)).Nodup) :
    mapBy SprintSnapshot.sprintId (latestOf tenantId sprintIds rows) sprintId =
      lastSnapshot tenantId sprintId rows := by
  cases hlast : lastSnapshot tenantId sprintId rows with
  | none =>
    have hnone := lastSnapshot_eq_none.mp hlast
    cases hfound : mapBy SprintSnapshot.sprintId (latestOf tenantId sprintIds rows) sprintId with
    | none => rfl
    | some row =>
      obtain ⟨hrow, hof, _⟩ := isLast_of_mapBy_eq_some hsought hfound
      rw [hnone row hrow] at hof
      cases hof
  | some last =>
    obtain ⟨hrow, hof, hlatest⟩ := lastSnapshot_eq_some hlast
    cases hfound : mapBy SprintSnapshot.sprintId (latestOf tenantId sprintIds rows) sprintId with
    | none =>
      rw [isOf_of_mapBy_eq_none hsought hfound last hrow] at hof
      cases hof
    | some row =>
      obtain ⟨hother, hotherOf, hotherLatest⟩ := isLast_of_mapBy_eq_some hsought hfound
      have hdate : row.snapshotDate = last.snapshotDate :=
        Int.le_antisymm (hlatest row hother hotherOf) (hotherLatest last hrow hof)
      have hsprint : row.sprintId = last.sprintId :=
        (of_decide_eq_true hotherOf).2.trans (of_decide_eq_true hof).2.symm
      rw [List.inj_on_of_nodup_map hunique hother hrow (Prod.ext hsprint hdate)]

/-- Assumes: there is one snapshot for a sprint and a day. The queries of the report are those of
`getVelocity`. -/
theorem run_queryVelocity
    (hunique : (db.snapshots.map fun row ↦ (row.sprintId, row.snapshotDate)).Nodup) :
    (queryVelocity tenantId projectId lastNSprints).run db =
      (getVelocity tenantId projectId lastNSprints).run db := by
  have hquery : (completedSprints tenantId projectId lastNSprints).run db =
      (.ok (lastSprints tenantId projectId lastNSprints db.work), db) := rfl
  have hpoints : assembleVelocity (lastSprints tenantId projectId lastNSprints db.work)
        (latestOf tenantId ((lastSprints tenantId projectId lastNSprints db.work).map Sprint.id)
          db.snapshots) =
      ((lastSprints tenantId projectId lastNSprints db.work).map
        (velocityPoint tenantId db.snapshots)).reverse := by
    rw [assembleVelocity]
    refine congrArg List.reverse (List.map_congr_left fun sprint hsprint ↦ ?_)
    rw [mapBy_latestOf_eq_lastSnapshot tenantId (List.mem_map_of_mem hsprint) hunique, velocityPoint]
  rw [run_queryVelocity_eq, hpoints, getVelocity, Call.run_bind, hquery]
  by_cases hempty : lastSprints tenantId projectId lastNSprints db.work = []
  · simp [hempty]
  · simp [hempty, latestSnapshots, Call.run_bind]

end Report

end RallyApi.Reporting

import RallyApi.Concurrency.Outcomes
import RallyApi.Concurrency.Recorded
import RallyApi.Work.Effects

/-!
# At most one active sprint

A project is meant to have at most one active sprint. `startSprint` looks for an active sprint and
activates its own in two separate steps, so the invariant depends on what other calls do in between.

`reachable_oneActiveSprint` proves it for every interleaving in which nothing else activates a sprint of
the project between the two (`NotOvertaken`): what `startSprint` has found then still holds.
`twoActiveSprints` is a run of two overlapping starts that leaves two.
-/

set_option autoImplicit false
set_option relaxedAutoImplicit false

namespace RallyApi.Work

open Concurrency Protocol Platform Store

/-! ### The invariant and the condition -/

/-- A run of the work services whose history records the stores. -/
abbrev SprintRun := Concurrency.Config Db (RecordedStep Db WorkStep) Failure Unit

/-- The calls, with every step recorded. -/
def serveRecorded (request : WorkRequest) : Call Db (RecordedStep Db WorkStep) Failure Unit :=
  request.serve.recorded

/-- No project has two active sprints. -/
def OneActiveSprint (sprints : List Sprint) : Prop :=
  ∀ projectId, sprints.countP (fun sprint ↦ sprint.isActiveIn projectId) ≤ 1

/-- The sprint that a step activates. -/
def WorkStep.activated : WorkStep → Option Uuid
  | .updateSprint id .active => some id
  | _ => none

/-- Two sprints are of one project. -/
def Db.SameProject (db : Db) (first second : Uuid) : Prop :=
  ∃ one ∈ db.sprints, ∃ other ∈ db.sprints,
    one.id = first ∧ other.id = second ∧ one.projectId = other.projectId

/-- Between the step with which a call looks for an active sprint and the next one, with which it activates
its own, no other sprint of the project is activated. -/
def NotOvertaken (earlier : RecordedLog Db WorkStep) (number : ℕ) (step : RecordedStep Db WorkStep) :
    Prop :=
  ∀ id ∈ step.label.activated, ∀ since ∈ sinceStep number earlier, ∀ entry ∈ since.1,
    ∀ other ∈ entry.2.label.activated, other ≠ id → ¬ step.found.SameProject other id

/-- A new sprint has an identifier that no sprint has had before, as `uuidv7` gives it. -/
def NewSprintId (world : World Db (RecordedStep Db WorkStep)) (step : RecordedStep Db WorkStep) : Prop :=
  match step.label with
  | .createSprint sprint => ∀ entry ∈ world.log, sprint.id ∉ entry.2.found.sprints.map Sprint.id
  | _ => True

instance (db : Db) (first second : Uuid) : Decidable (db.SameProject first second) :=
  inferInstanceAs (Decidable (∃ one ∈ db.sprints, ∃ other ∈ db.sprints, _))

instance (earlier : RecordedLog Db WorkStep) (number : ℕ) (step : RecordedStep Db WorkStep) :
    Decidable (NotOvertaken earlier number step) :=
  inferInstanceAs (Decidable (∀ id ∈ step.label.activated, ∀ since ∈ sinceStep number earlier,
    ∀ entry ∈ since.1, ∀ other ∈ entry.2.label.activated, other ≠ id → ¬ step.found.SameProject other id))

instance (world : World Db (RecordedStep Db WorkStep)) (step : RecordedStep Db WorkStep) :
    Decidable (NewSprintId world step) := by
  unfold NewSprintId
  split <;> infer_instance

/-! ### What a step preserves -/

variable {sprints : List Sprint}

/-- A sprint is active after an update of its row when the update makes it so. -/
theorem set_isActiveIn {input : UpdateSprintInput} {sprint : Sprint} {projectId : Uuid} :
    (input.set sprint).isActiveIn projectId = true ↔
      sprint.projectId = projectId ∧ input.status = .active :=
  decide_eq_true_iff

/-- A planned sprint may be added. -/
theorem OneActiveSprint.insert (hone : OneActiveSprint sprints) {sprint : Sprint}
    (hplanned : sprint.status = .planned) : OneActiveSprint (sprints ++ [sprint]) := by
  intro projectId
  have hinactive : [sprint].countP (fun sprint ↦ sprint.isActiveIn projectId) = 0 := by
    simp [Sprint.isActiveIn, hplanned]
  rw [List.countP_append, hinactive]
  exact hone projectId

/-- Any sprint may be removed. -/
theorem OneActiveSprint.delete (hone : OneActiveSprint sprints) (id : Uuid) :
    OneActiveSprint (deleteWhere (fun sprint ↦ sprint.id = id) sprints) := fun projectId ↦
  List.filter_sublist.countP_le.trans (hone projectId)

/-- A sprint may be given a status; it may be activated where no other sprint of its project is
active. -/
theorem OneActiveSprint.update (hone : OneActiveSprint sprints) (hids : (sprints.map Sprint.id).Nodup)
    {id : Uuid} {input : UpdateSprintInput}
    (halone : input.status = .active → ∀ started ∈ sprints, started.id = id →
      ∀ row ∈ sprints, row.isActiveIn started.projectId = true → row.id = id) :
    OneActiveSprint (updateWhere (fun sprint ↦ sprint.id = id) input.set sprints) := by
  intro projectId
  refine countP_le_one_of_key (nodup_map_updateWhere (fun _ ↦ rfl) hids)
    fun first hfirst second hsecond hactive hother ↦ ?_
  obtain ⟨oldFirst, holdFirst, rfl⟩ := mem_updateWhere.mp hfirst
  obtain ⟨oldSecond, holdSecond, rfl⟩ := mem_updateWhere.mp hsecond
  simp only [decide_eq_true_eq] at hactive hother ⊢
  split_ifs at hactive hother ⊢ with hfirstId hsecondId hsecondId
  · exact hfirstId.trans hsecondId.symm
  · obtain ⟨hproject, hstatus⟩ := set_isActiveIn.mp hactive
    exact absurd (halone hstatus oldFirst holdFirst hfirstId oldSecond holdSecond
      (hproject ▸ hother)) hsecondId
  · obtain ⟨hproject, hstatus⟩ := set_isActiveIn.mp hother
    exact absurd (halone hstatus oldSecond holdSecond hsecondId oldFirst holdFirst
      (hproject ▸ hactive)) hfirstId
  · rw [eq_of_countP_le_one (hone projectId) holdFirst holdSecond hactive hother]

section Effects

variable {db after : Db} {label : WorkStep}

/-- The steps that write sprints: creating one, updating the row of one and deleting one. -/
theorem Effect.sprints_cases (heffect : Effect db label after) :
    (∃ sprint, label = .createSprint sprint ∧ sprint.id ∉ db.sprints.map Sprint.id ∧
      sprint.status = .planned ∧ after.sprints = db.sprints ++ [sprint]) ∨
    (∃ id, ∃ input : UpdateSprintInput, label = .updateSprint id input.status ∧
      after.sprints = updateWhere (fun sprint ↦ sprint.id = id) input.set db.sprints) ∨
    (∃ id, label = .deleteSprint id ∧
      after.sprints = deleteWhere (fun sprint ↦ sprint.id = id) db.sprints) ∨
    (label.activated = none ∧ after.sprints = db.sprints) := by
  by_cases hwrites : .sprints ∈ label.writes
  · cases label <;> simp only [WorkStep.writes, List.mem_cons, List.not_mem_nil, reduceCtorEq,
      or_self] at hwrites
    case createSprint sprint =>
      obtain ⟨hfresh, hplanned, rfl⟩ := heffect
      exact .inl ⟨sprint, rfl, hfresh, hplanned, rfl⟩
    case updateSprint id status =>
      obtain ⟨input, rfl, rfl⟩ := heffect
      exact .inr (.inl ⟨id, input, rfl, rfl⟩)
    case deleteSprint id =>
      obtain rfl := heffect
      exact .inr (.inr (.inl ⟨id, rfl, rfl⟩))
  · refine .inr (.inr (.inr ⟨?_, heffect.frame.sprints hwrites⟩))
    cases label with
    | updateSprint => exact absurd List.mem_cons_self hwrites
    | _ => rfl

/-- The primary key. -/
theorem Effect.nodup_sprints (heffect : Effect db label after) (hids : (db.sprints.map Sprint.id).Nodup) :
    (after.sprints.map Sprint.id).Nodup := by
  rcases heffect.sprints_cases with ⟨sprint, -, hfresh, -, heq⟩ | ⟨id, input, -, heq⟩ |
    ⟨id, -, heq⟩ | ⟨-, heq⟩ <;> rw [heq]
  · exact nodup_map_append_singleton hids hfresh
  · exact nodup_map_updateWhere (fun _ ↦ rfl) hids
  · exact hids.sublist (List.filter_sublist.map Sprint.id)
  · exact hids

/-- Assumes: where a step activates a sprint, no other one of its project is active. It keeps the
invariant. -/
theorem OneActiveSprint.step (hone : OneActiveSprint db.sprints) (hids : (db.sprints.map Sprint.id).Nodup)
    (heffect : Effect db label after)
    (halone : ∀ id ∈ label.activated, ∀ started ∈ db.sprints, started.id = id →
      ∀ row ∈ db.sprints, row.isActiveIn started.projectId = true → row.id = id) :
    OneActiveSprint after.sprints := by
  rcases heffect.sprints_cases with ⟨sprint, -, -, hplanned, heq⟩ | ⟨id, input, hlabel, heq⟩ |
    ⟨id, -, heq⟩ | ⟨-, heq⟩ <;> rw [heq]
  · exact hone.insert hplanned
  · refine hone.update hids fun hstatus ↦ halone id ?_
    rw [hlabel, hstatus]
    rfl
  · exact hone.delete id
  · exact hone

/-- A sprint after a step: the step creates it, as a planned one, or it was there before, and it has become
active only if the step has activated it. -/
theorem Effect.mem_sprints (heffect : Effect db label after) {row : Sprint} (hrow : row ∈ after.sprints) :
    (label = .createSprint row ∧ row.status = .planned) ∨
      ∃ old ∈ db.sprints, old.id = row.id ∧ old.projectId = row.projectId ∧
        (row.status = .active → old.status = .active ∨ row.id ∈ label.activated) := by
  rcases heffect.sprints_cases with ⟨sprint, rfl, -, hplanned, heq⟩ | ⟨id, input, rfl, heq⟩ |
    ⟨id, -, heq⟩ | ⟨-, heq⟩ <;> rw [heq] at hrow
  · rcases List.mem_append.mp hrow with hold | hnew
    · exact .inr ⟨row, hold, rfl, rfl, .inl⟩
    · obtain rfl := List.mem_singleton.mp hnew
      exact .inl ⟨rfl, hplanned⟩
  · obtain ⟨old, hold, rfl⟩ := mem_updateWhere.mp hrow
    refine .inr ⟨old, hold, ?_⟩
    split_ifs with hwritten
    · refine ⟨rfl, rfl, fun hactive ↦ .inr ?_⟩
      have hstatus : input.status = .active := hactive
      rw [hstatus]
      exact congrArg some (of_decide_eq_true hwritten).symm
    · exact ⟨rfl, rfl, .inl⟩
  · exact .inr ⟨row, (List.mem_filter.mp hrow).1, rfl, rfl, .inl⟩
  · exact .inr ⟨row, hrow, rfl, rfl, .inl⟩

end Effects

/-! ### What `startSprint` knows -/

/-- The primary key, and the invariant as long as no activation has been overtaken. A step does what its
label says, to the store it records, and gives a new sprint a new identifier. -/
def activation : Protocol Db (RecordedStep Db WorkStep) where
  permits := NewSprintId
  invariant world := (world.db.sprints.map Sprint.id).Nodup ∧
    (EachStep NotOvertaken world.log → OneActiveSprint world.db.sprints)
  guarantee _ world step after :=
    step.found = world.db ∧ NewSprintId world step ∧ Effect world.db step.label after

/-- The sprint with an identifier is, or was, of a project. -/
def OfProject (id projectId : Uuid) (world : World Db (RecordedStep Db WorkStep)) : Prop :=
  (∃ entry ∈ world.log, id ∈ entry.2.found.sprints.map Sprint.id) ∧
    ∀ row ∈ world.db.sprints, row.id = id → row.projectId = projectId

/-- The active sprints of a project have been activated by others since the last step of a call. -/
def ActiveSince (number : ℕ) (projectId : Uuid) (world : World Db (RecordedStep Db WorkStep)) : Prop :=
  ∃ since ∈ sinceStep number world.log, ∀ row ∈ world.db.sprints, row.isActiveIn projectId = true →
    ∃ entry ∈ since.1, row.id ∈ entry.2.label.activated

variable {world : World Db (RecordedStep Db WorkStep)} {step : RecordedStep Db WorkStep} {after : Db}
  {number other : ℕ} {id projectId : Uuid}

theorem ofProject_persistent (id projectId : Uuid) : activation.Persistent (OfProject id projectId) := by
  rintro other world step after - ⟨⟨entry, hentry, hfound⟩, hproject⟩ ⟨-, hnew, heffect⟩
  refine ⟨⟨entry, List.mem_cons_of_mem _ hentry, hfound⟩, fun row hrow hid ↦ ?_⟩
  rcases heffect.mem_sprints hrow with ⟨hcreated, -⟩ | ⟨old, hold, hsame, hkept, -⟩
  · rw [NewSprintId, hcreated] at hnew
    exact absurd (hid ▸ hfound) (hnew entry hentry)
  · exact hkept ▸ hproject old hold (hsame.trans hid)

theorem activeSince_stable (number : ℕ) (projectId : Uuid) :
    activation.Stable number (ActiveSince number projectId) := by
  rintro other hne world step after - ⟨since, hlast, hsince⟩ ⟨-, -, heffect⟩
  refine ⟨_, sinceStep_of_ne hne step hlast, fun row hrow hactive ↦ ?_⟩
  have hrow' := of_decide_eq_true hactive
  rcases heffect.mem_sprints hrow with ⟨-, hplanned⟩ | ⟨old, hold, hsame, hkept, hstatus⟩
  · rw [hplanned] at hrow'
    cases hrow'.2
  · rcases hstatus hrow'.2 with hbefore | hnow
    · obtain ⟨entry, hentry, hactivated⟩ :=
        hsince old hold (decide_eq_true ⟨hkept.trans hrow'.1, hbefore⟩)
      exact ⟨entry, List.mem_cons_of_mem _ hentry, hsame ▸ hactivated⟩
    · exact ⟨_, List.mem_cons_self, hnow⟩

/-! ### The calls -/

variable {α : Type}

/-- Assumes: where the step activates a sprint and is not overtaken, no other sprint of its project is
active. It keeps the protocol. -/
theorem effect_keeps (hinv : activation.invariant world) (hnew : NewSprintId world step)
    (hfound : step.found = world.db) (heffect : Effect world.db step.label after)
    (halone : NotOvertaken world.log number step → ∀ id ∈ step.label.activated,
      ∀ started ∈ world.db.sprints, started.id = id → ∀ row ∈ world.db.sprints,
        row.isActiveIn started.projectId = true → row.id = id) :
    activation.Keeps number world step after :=
  ⟨⟨hfound, hnew, heffect⟩, heffect.nodup_sprints hinv.1,
    fun heach ↦ (hinv.2 heach.2).step hinv.1 heffect (halone heach.1)⟩

/-- A step that activates no sprint keeps the protocol. -/
theorem inactive_keeps (hinv : activation.invariant world) (hnew : NewSprintId world step)
    (hfound : step.found = world.db) (heffect : Effect world.db step.label after)
    (hnone : step.label.activated = none) : activation.Keeps number world step after :=
  effect_keeps hinv hnew hfound heffect fun _ id hid ↦ by
    rw [hnone] at hid
    cases hid

/-- A call that activates no sprint keeps the protocol. -/
theorem inactive_meets {call : WorkCall α} (heffect : call.Only Effect)
    (hnone : call.Only fun _ label _ ↦ label.activated = none) :
    activation.Meets number call.recorded (fun _ ↦ True) fun _ _ ↦ True := by
  have hrecorded : call.recorded.Only fun db step after ↦
      step.found = db ∧ Effect db step.label after ∧ step.label.activated = none :=
    (heffect.and hnone).traced fun _ _ _ hboth ↦ ⟨rfl, hboth⟩
  exact meets_of_only hrecorded stable_true fun world step after hinv _ hnew hstep ↦
    ⟨inactive_keeps hinv hnew hstep.1 hstep.2.1 hstep.2.2, trivial⟩

/-- What a read of the store is known to have found. -/
theorem read_meets {read : Db → α} {fact : World Db (RecordedStep Db WorkStep) → Prop}
    {post : α → World Db (RecordedStep Db WorkStep) → Prop} (hfact : activation.Stable number fact)
    (hpost : ∀ world, activation.invariant world → fact world → post (read world.db)
      (world.after number ⟨.other, world.db⟩ world.db)) :
    activation.Meets number (Call.query .other read : WorkCall α).recorded fact post :=
  meets_traced_query hfact fun world hinv hholds ↦
    ⟨inactive_keeps hinv trivial rfl (effect_other_refl _) rfl, hpost world hinv hholds⟩

/-- The activation: it keeps the protocol where the active sprints of the project have been activated since
the last step of the call. -/
theorem activate_meets (number : ℕ) (id projectId : Uuid) :
    activation.Meets number (updateSprintRow id { status := .active }).recorded
      (fun world ↦ ActiveSince number projectId world ∧ OfProject id projectId world) fun _ _ ↦ True := by
  have hstable : activation.Stable number fun world ↦
      ActiveSince number projectId world ∧ OfProject id projectId world :=
    (activeSince_stable _ _).and (ofProject_persistent _ _).stable
  refine meets_traced_atomically hstable fun world hinv hholds ↦ ⟨?_, trivial⟩
  obtain ⟨⟨since, hlast, hsince⟩, -, hproject⟩ := hholds
  refine effect_keeps hinv trivial rfl ⟨_, rfl, rfl⟩ fun halone activated hid started hstarted hsame row
    hrow hactive ↦ ?_
  obtain rfl := Option.some.inj hid
  rw [hproject started hstarted hsame] at hactive
  obtain ⟨entry, hentry, hactivated⟩ := hsince row hrow hactive
  by_contra hne
  refine halone _ rfl since hlast entry hentry _ hactivated hne ⟨row, hrow, started, hstarted, rfl, hsame, ?_⟩
  rw [hproject started hstarted hsame]
  exact (of_decide_eq_true hactive).1

theorem startSprint_meets (tenantId : Uuid) :
    activation.Meets number (startSprint tenantId id).recorded (fun _ ↦ True) fun _ _ ↦ True := by
  have hread : activation.Meets number (getSprint tenantId id).recorded (fun _ ↦ True)
      fun sprint world ↦ OfProject id sprint.projectId world := by
    rw [getSprint, Call.recorded_bind]
    have hfind : activation.Meets number (findSprintById id).recorded (fun _ ↦ True)
        fun found world ↦ ∀ sprint, found = some sprint → OfProject id sprint.projectId world := by
      refine read_meets stable_true fun world hinv _ sprint hfound ↦ ?_
      have hmem := List.mem_of_find?_eq_some hfound
      have hid : sprint.id = id := by simpa using List.find?_some hfound
      refine ⟨⟨_, List.mem_cons_self, hid ▸ List.mem_map_of_mem hmem⟩, fun row hrow hsame ↦ ?_⟩
      rw [List.inj_on_of_nodup_map hinv.1 hrow hmem (hsame.trans hid.symm)]
    refine hfind.bind fun found _ ↦ ?_
    rw [Call.recorded_bind, Call.recorded_require]
    refine meets_require.bind fun sprint _ ↦ ?_
    rw [Call.recorded_bind, Call.recorded_ensure]
    refine meets_ensure.bind fun _ _ ↦ meets_pure fun world _ hholds ↦ ?_
    exact hholds.1.1 sprint hholds.1.2
  rw [startSprint, Call.recorded_bind]
  refine hread.bind fun sprint _ ↦ ?_
  rw [Call.recorded_bind, Call.recorded_ensure]
  refine meets_ensure.bind fun _ _ ↦ ?_
  have hlook : activation.Meets number (findActive sprint.projectId).recorded
      (OfProject id sprint.projectId) fun active world ↦ (active.isNone →
        ActiveSince number sprint.projectId world) ∧ OfProject id sprint.projectId world := by
    refine read_meets (ofProject_persistent _ _).stable fun world hinv hholds ↦
      ⟨fun hnone ↦ ⟨_, sinceStep_self .., fun row hrow hactive ↦ ?_⟩, ?_⟩
    · have hfound := List.find?_eq_none.mp (Option.isNone_iff_eq_none.mp hnone)
      exact absurd hactive (hfound row hrow)
    · exact ofProject_persistent _ _ number world _ _ hinv hholds ⟨rfl, trivial, effect_other_refl _⟩
  rw [Call.recorded_bind]
  refine (hlook.strengthen fun _ _ hholds ↦ hholds.1).bind fun active _ ↦ ?_
  rw [Call.recorded_bind, Call.recorded_ensure]
  refine meets_ensure.bind fun _ _ ↦ (activate_meets number id sprint.projectId).strengthen
    fun _ _ hholds ↦ ?_
  exact ⟨hholds.1.1 hholds.2, hholds.1.2⟩

/-- Reading activates nothing. -/
theorem inactive_of_reads {call : WorkCall α} (hcall : call.Only Reads) :
    call.Only fun _ label _ ↦ label.activated = none :=
  hcall.mono fun _ _ _ hreads ↦ by rw [hreads.1]; rfl

theorem completeSprint_inactive (tenantId id : Uuid) (moveToSprintId : Option Uuid) :
    (completeSprint tenantId id moveToSprintId).Only fun _ label _ ↦ label.activated = none := by
  refine Call.only_bind.mpr ⟨inactive_of_reads (getSprint_reads _ _), fun sprint _ ↦ ?_⟩
  refine Call.only_bind.mpr ⟨Call.only_ensure _ _, fun _ _ ↦ ?_⟩
  refine Call.only_bind.mpr ⟨inactive_of_reads (assertSameProject_reads _ _ _), fun _ _ ↦ ?_⟩
  refine Call.only_bind.mpr ⟨(Call.only_query _ _).mpr fun _ ↦ rfl, fun doneStatusIds _ ↦ ?_⟩
  split_ifs
  · refine Call.only_bind.mpr ⟨(Call.only_atomically _ _).mpr fun _ ↦ rfl, fun _ _ ↦ ?_⟩
    refine Call.only_bind.mpr ⟨(Call.only_query _ _).mpr fun _ ↦ rfl, fun completedAt _ ↦ ?_⟩
    exact (Call.only_atomically _ _).mpr fun _ ↦ rfl
  · refine Call.only_bind.mpr ⟨(Call.only_query _ _).mpr fun _ ↦ rfl, fun completedAt _ ↦ ?_⟩
    exact (Call.only_atomically _ _).mpr fun _ ↦ rfl

/-- Only `startSprint` activates a sprint. -/
theorem serve_inactive (request : WorkRequest) :
    (∃ tenantId id, request = .startSprint tenantId id) ∨
      request.serve.Only fun _ label _ ↦ label.activated = none := by
  have htakes := serve_takes request
  cases request with
  | startSprint tenantId id => exact .inl ⟨tenantId, id, rfl⟩
  | completeSprint tenantId id moveToSprintId =>
    exact .inr (Call.only_map (completeSprint_inactive tenantId id moveToSprintId))
  | _ =>
    refine .inr (htakes.mono fun _ label _ htake ↦ ?_)
    cases label with
    | updateSprint => cases htake
    | _ => rfl

/-- Every call keeps the protocol. -/
theorem serve_meets_activation (request : WorkRequest) (number : ℕ) :
    activation.Meets number (serveRecorded request) (Fresh number) fun _ _ ↦ True := by
  have hmeets : activation.Meets number request.serve.recorded (fun _ ↦ True) fun _ _ ↦ True := by
    rcases serve_inactive request with ⟨tenantId, id, rfl⟩ | hnone
    · rw [WorkRequest.serve, Call.recorded, Call.traced_map]
      exact (startSprint_meets tenantId).map
    · exact inactive_meets (serve_effect request) hnone
  exact hmeets.strengthen fun _ _ _ ↦ trivial

/-- Assumes: sprint identifiers are distinct at the start, as their primary key has it; no project has two
active sprints then; new sprints have new identifiers; and between the step with which `startSprint` looks
for an active sprint and the one that activates its own no other sprint of the project is activated. No
project has two active sprints in any reachable state, for any interleaving of the calls of the work
services. -/
theorem reachable_oneActiveSprint {db : Db} (hids : (db.sprints.map Sprint.id).Nodup)
    (hone : OneActiveSprint db.sprints) {config : SprintRun}
    (hreach : Reachable serveRecorded NewSprintId db config)
    (hovertaken : EachStep NotOvertaken config.log) : OneActiveSprint config.db.sprints :=
  (activation.reachable_invariant serve_meets_activation ⟨hids, fun _ ↦ hone⟩ hreach).2 hovertaken

/-! ### Two overlapping starts -/

/-- A project with two planned sprints. -/
def sprintDb : Db where
  projects := [{ id := 1, tenantId := 2, workspaceId := 3, key := "APP", name := "App",
                 createdAt := 0 }]
  sprints :=
    [{ id := 10, tenantId := 2, projectId := 1, name := "Sprint 1", createdAt := 0 },
      { id := 11, tenantId := 2, projectId := 1, name := "Sprint 2", createdAt := 0 }]

theorem sprintDb_oneActiveSprint : OneActiveSprint sprintDb.sprints := fun projectId ↦ by
  simp [sprintDb, Sprint.isActiveIn]

/-- One sprint is started and completed, and then the other is started. -/
def consecutiveStarts : List (Choice WorkRequest) :=
  .start (.startSprint 2 10) :: finish 0 ++ .start (.completeSprint 2 10 none) :: finish 1 ++
    .start (.startSprint 2 11) :: finish 2

/-- A witness that the condition can be met: two starts with a completion in between. -/
theorem reachable_oneActiveSprint_witness :
    OneActiveSprint ((Concurrency.Config.initial sprintDb : SprintRun).play serveRecorded
      consecutiveStarts).db.sprints :=
  reachable_oneActiveSprint (by decide) sprintDb_oneActiveSprint
    (play_reachable (by decide +kernel)) (by decide +kernel)

/-- Both starts find no active sprint before either activates its own. -/
def overlappingStarts : List (Choice WorkRequest) :=
  [.start (.startSprint 2 10), .start (.startSprint 2 11), .resume 0, .resume 0] ++ finish 1 ++
    finish 0

/-- Without the condition a project can have two active sprints. -/
theorem twoActiveSprints :
    ¬ ∀ (db : Db) (config : SprintRun),
      (db.sprints.map Sprint.id).Nodup → OneActiveSprint db.sprints →
        Reachable serveRecorded NewSprintId db config → OneActiveSprint config.db.sprints := by
  intro halways
  have hallowed : (Concurrency.Config.initial sprintDb : SprintRun).AllowsAll serveRecorded NewSprintId
      overlappingStarts := by
    decide +kernel
  have hone := halways sprintDb _ (by decide) sprintDb_oneActiveSprint (play_reachable hallowed) 1
  exact absurd hone (by decide +kernel)

end RallyApi.Work

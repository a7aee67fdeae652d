import RallyApi.Archive.Guards

/-!
# Archived projects are read-only

`ReadOnly` is the rule that an archived project is as it was until it is restored. Most operations do not
know it, and those that do look at the status in a statement of its own, so that the project may be archived
between their look and their write. `reachable_readOnly` says that the rule holds in every run in which
neither happens, and `statusOfArchived` is a run in which it does not hold.
-/

set_option autoImplicit false
set_option relaxedAutoImplicit false

namespace RallyApi.Archive

open Concurrency Protocol Platform Store Work

variable {number : ℕ}

/-! ### The property and the condition -/

/-- A configuration of the system, whose history tells the stores. -/
abbrev ArchiveConfig := Config Db (RecordedStep Db ArchiveStep) Failure Unit

/-- The call that serves a request, with every step recorded. -/
def ArchiveRequest.recorded (request : ArchiveRequest) :
    Call Db (RecordedStep Db ArchiveStep) Failure Unit := request.serve.recorded

/-- Archived projects are read-only. What a project contains is as it was at any moment at which it was
archived, as long as no step since then has restored it; and a step that restores it ends the archived state
and changes nothing but its row. -/
structure ReadOnly (config : ArchiveConfig) : Prop where
  frozen : ∀ (projectId : Uuid) (index number : ℕ) (step : RecordedStep Db ArchiveStep),
    config.log[index]? = some (number, step) → step.found.archived projectId = true →
      (∀ entry ∈ config.log.take (index + 1), entry.2.label.restores projectId = false) →
        config.db.contents projectId = step.found.contents projectId
  restored : ∀ (projectId : Uuid) (number : ℕ) (step : RecordedStep Db ArchiveStep),
    config.log.head? = some (number, step) → step.label.restores projectId = true →
      config.db.archived projectId = false ∧
        config.db.contents projectId = { step.found.contents projectId with
          rows := (config.db.contents projectId).rows
          settings := config.db.settings projectId }

/-- The step keeps off archived projects, given the history before it. A project it writes to is archived
only if the step restores it, or if its operation looks at the status and has found the project archived at
all its steps. -/
def KeepsOff (earlier : ArchiveLog) (number : ℕ) (step : RecordedStep Db ArchiveStep) : Prop :=
  ∀ projectId ∈ step.label.writes step.found, step.found.archived projectId = true →
    step.label.restores projectId = true ∨ (step.label.checked = true ∧
      ∀ entry ∈ earlier, entry.1 = number → entry.2.found.archived projectId = true)

instance (earlier : ArchiveLog) (number : ℕ) (step : RecordedStep Db ArchiveStep) :
    Decidable (KeepsOff earlier number step) :=
  inferInstanceAs (Decidable (∀ projectId ∈ step.label.writes step.found,
    step.found.archived projectId = true → step.label.restores projectId = true ∨
      (step.label.checked = true ∧
        ∀ entry ∈ earlier, entry.1 = number → entry.2.found.archived projectId = true)))

/-! ### Every run -/

/-- A step that keeps off archived projects leaves what an archived project contains alone, unless it
restores the project: an operation that looks at the status has refused. -/
theorem MayStep.contents_eq {earlier : ArchiveLog} {step : RecordedStep Db ArchiveStep} {after : Db}
    {projectId : Uuid} (hmay : MayStep earlier number step after) (hoff : KeepsOff earlier number step)
    (harchived : step.found.archived projectId = true)
    (hrestores : ¬ step.label.restores projectId = true) :
    after.contents projectId = step.found.contents projectId := by
  refine hmay.effect.contents_eq fun hwrites ↦ ?_
  obtain ⟨hchecked, hall⟩ := (hoff projectId hwrites harchived).resolve_left hrestores
  obtain ⟨entry, hentry, hnumber, hopen⟩ :=
    (hmay.guarded hchecked projectId hwrites).resolve_left hrestores
  exact Bool.false_ne_true (hopen.symm.trans (hall entry hentry hnumber))

/-- A restored project is not archived, and nothing but its row has changed. -/
theorem Effect.restored {db after : Db} {step : ArchiveStep} {projectId : Uuid}
    (heffect : Effect db step after) (hrestores : step.restores projectId = true) :
    after.archived projectId = false ∧
      after.contents projectId = { db.contents projectId with
        rows := (after.contents projectId).rows
        settings := after.settings projectId } := by
  cases step with
  | updateProject id input =>
    obtain ⟨rfl, hactive⟩ := of_decide_eq_true hrestores
    obtain rfl : after = db.updateProject id input := heffect
    refine ⟨?_, rfl⟩
    have hfind : ((db.updateProject id input).work.projects.find? fun project ↦ project.id = id) =
        (db.work.projects.find? fun project ↦ project.id = id).map fun project ↦
          if decide (project.id = id) then input.set project else project :=
      find_updateWhere fun _ ↦ rfl
    rw [archived_eq, hfind]
    cases hfound : db.work.projects.find? fun project ↦ project.id = id with
    | none => rfl
    | some project =>
      have hid : project.id = id := by simpa using List.find?_some hfound
      simp [UpdateProjectInput.set, hid, hactive]
  | _ => cases hrestores

/-- Assumes: every step of the run has kept off archived projects. Archived projects are read-only, in every
interleaving of the operations. -/
theorem reachable_readOnly {db : Db} {config : ArchiveConfig}
    (hreach : Reachable ArchiveRequest.recorded anyStep db config)
    (hoff : EachStep KeepsOff config.log) : ReadOnly config := by
  have hlegal : Legal MayStep config.db config.log :=
    reachable_legal (fun request _ ↦ serve_meets request) hreach
  constructor
  · intro projectId index number step hindex harchived hnone
    obtain ⟨hlength, hentry⟩ := List.getElem?_eq_some_iff.mp hindex
    have hlog : config.log.take index ++ (number, step) :: config.log.drop (index + 1) = config.log := by
      rw [← hentry, ← List.drop_eq_getElem_cons, List.take_append_drop]
    rw [← hlog] at hlegal hoff
    refine hlegal.kept (fun db ↦ db.contents projectId = step.found.contents projectId)
      (fun label ↦ label.restores projectId = true) ?_ hoff ?_ ?_ rfl
    · intro earlier number later after hmay hkeeps hends hsame
      refine (hmay.contents_eq hkeeps ?_ hends).trans hsame
      rwa [Db.archived, hsame]
    · intro entry hentry hends
      have hkept := hnone entry (List.take_subset_take_left _ (Nat.le_succ index) hentry)
      exact Bool.false_ne_true (hkept.symm.trans hends)
    · intro hends
      have hmem : (number, step) ∈ config.log.take (index + 1) := by
        rw [List.mem_take_iff_getElem]
        exact ⟨index, by omega, hentry⟩
      exact Bool.false_ne_true ((hnone _ hmem).symm.trans hends)
  · intro projectId number step hhead hrestores
    obtain ⟨earlier, hlog⟩ := List.head?_eq_some_iff.mp hhead
    rw [hlog] at hlegal
    exact hlegal.1.effect.restored hrestores

/-! ### Runs -/

/-- A project with one member. -/
def oneProject : Db where
  work := { projects := [{ id := 5, tenantId := 2, workspaceId := 3, key := "APP", name := "App"
                           createdAt := 0 }]
            projectCounters := [{ projectId := 5, tenantId := 2 }]
            projectMembers := [{ id := 6, tenantId := 2, projectId := 5, userId := 4 }]
            workflowStatuses := defaultStatusRows 2 5 10 }

/-- The member sets the status of the project. -/
def setStatus (status : ProjectStatus) : ArchiveRequest :=
  .updateProject { sub := 4, tenantId := 2 } 5 { status := some status }

/-- The project is archived; an item and a new name are refused; then it is restored and gets the item. -/
def archiveAndRestore : List (Choice ArchiveRequest) :=
  .start (setStatus .archived) :: finish 0 ++
    .start (.work (.createWorkItem { sub := 4, tenantId := 2 } 5 .story "Sign in" {})) :: finish 1 ++
    .start (.updateProject { sub := 4, tenantId := 2 } 5 { name := some "Web" }) :: finish 2 ++
    .start (setStatus .active) :: finish 3 ++
    .start (.work (.createWorkItem { sub := 4, tenantId := 2 } 5 .story "Sign in" {})) :: finish 4

/-- A witness that the condition can be met. -/
theorem reachable_readOnly_witness :
    ReadOnly ((Config.initial oneProject).play ArchiveRequest.recorded archiveAndRestore) :=
  reachable_readOnly (play_reachable (allowsAll_anyStep _ _)) (by decide +kernel)

/-- A status is added to the project once it is archived. -/
def archiveAndAddStatus : List (Choice ArchiveRequest) :=
  .start (setStatus .archived) :: finish 0 ++
    .start (.work (.createStatus 2 5 { name := "Blocked", category := .inProgress })) :: finish 1

/-- An archived project is not read-only: a status can be added to it. -/
theorem statusOfArchived : ¬ ∀ (db : Db) (config : ArchiveConfig),
    Reachable ArchiveRequest.recorded anyStep db config → ReadOnly config := by
  intro halways
  have hreadOnly := halways oneProject
    ((Config.initial oneProject).play ArchiveRequest.recorded archiveAndAddStatus)
    (play_reachable (allowsAll_anyStep _ _))
  have hchanged : (((Config.initial oneProject).play ArchiveRequest.recorded
      archiveAndAddStatus).log[0]?.any fun entry ↦ entry.2.found.archived 5 = true ∧
        ((Config.initial oneProject).play ArchiveRequest.recorded archiveAndAddStatus).db.contents 5 ≠
          entry.2.found.contents 5) = true := by decide +kernel
  obtain ⟨entry, hentry, hfound⟩ := (Option.any_eq_true _ _).mp hchanged
  obtain ⟨harchived, hne⟩ := of_decide_eq_true hfound
  exact hne (hreadOnly.frozen 5 0 entry.1 entry.2 hentry harchived (by decide +kernel))

end RallyApi.Archive

import RallyApi.Concurrency.Recorded
import RallyApi.Identity.SessionFamilies
import RallyApi.Tenancy.Effects

/-!
# The last admin of a workspace

`updateMember` means to keep the last active admin of a workspace. Its guard compares the role of the
member, a uuid, with the text `admin`, so that it never counts (`guardSoleAdmin_eq`), and `removeMember`
has no guard. So a workspace can lose its last admin, already in one call (`soleAdminLost`).

What the guard is after is a count of the admins before the write. A write that takes the role from an
active member comes after a step in which its call has read the member. `admin_remains`: in every run in
which at that moment the workspace has two active members with the role more than other calls take it from
until the write, the workspace keeps one. The role is arbitrary.
-/

set_option autoImplicit false
set_option relaxedAutoImplicit false

namespace RallyApi.Tenancy

open Concurrency Identity Platform Store

/-! ### The property and the condition -/

/-- A run of the tenancy calls whose history records the stores. -/
abbrev AdminRun := Concurrency.Config Db (RecordedStep Db TenancyStep) Failure Unit

/-- The calls, with every step recorded. -/
def serveRecorded (env : Env) (invitationTtlDays : ℕ) (request : TenancyRequest) :
    Call Db (RecordedStep Db TenancyStep) Failure Unit :=
  (request.serve env invitationTtlDays).recorded

/-- The workspace has an active member with the role. -/
def HasAdmin (role workspaceId : Uuid) (db : Db) : Prop :=
  ∃ member ∈ db.workspaceMembers, holdsRole role workspaceId member = true

/-- The number of active members of the workspace with the role. -/
def admins (role workspaceId : Uuid) (db : Db) : ℕ :=
  db.workspaceMembers.countP (holdsRole role workspaceId)

/-- The member is active and has the role, and after the write it is not or has not. -/
def TenancyStep.takesOut (role workspaceId : Uuid) (row : WorkspaceMember) : TenancyStep → Bool
  | .updateMember member input => row.id = member.id ∧ holdsRole role workspaceId row = true ∧
    holdsRole role workspaceId (input.apply row) = false
  | .removeMember removedFrom userId => (row.workspaceId = removedFrom ∧ row.userId = userId) ∧
    holdsRole role workspaceId row = true
  | _ => false

/-- The step takes the role from an active member. -/
def lowersAdmins (role workspaceId : Uuid) (step : RecordedStep Db TenancyStep) : Bool :=
  step.found.workspaceMembers.any fun row ↦ step.label.takesOut role workspaceId row

/-- A step that takes the role from an active member leaves another: at the last step of its call, the read
of the member, there are two more active members with the role than are suspended, removed or demoted from
then on until the write. -/
def LeavesAdmin (role workspaceId : Uuid) (earlier : RecordedLog Db TenancyStep) (number : ℕ)
    (step : RecordedStep Db TenancyStep) : Prop :=
  lowersAdmins role workspaceId step = true → ∃ since ∈ sinceStep number earlier,
    (since.1.countP fun entry ↦ lowersAdmins role workspaceId entry.2) + 2 ≤ admins role workspaceId since.2

instance (role workspaceId : Uuid) (earlier : RecordedLog Db TenancyStep) (number : ℕ)
    (step : RecordedStep Db TenancyStep) : Decidable (LeavesAdmin role workspaceId earlier number step) :=
  inferInstanceAs (Decidable (_ → ∃ since ∈ sinceStep number earlier, _ ≤ _))

/-- The primary key of the members and `uq_workspace_member`. -/
structure MembersKeyed (db : Db) : Prop where
  ids : (db.workspaceMembers.map WorkspaceMember.id).Nodup
  places : (db.workspaceMembers.map fun member ↦ (member.workspaceId, member.userId)).Nodup

variable {role workspaceId : Uuid} {db after : Db} {label : TenancyStep}

theorem hasAdmin_iff : HasAdmin role workspaceId db ↔ 0 < admins role workspaceId db :=
  List.countP_pos_iff.symm

/-! ### One step -/

/-- A member is inserted besides the others, under keys of its own. -/
theorem InsertsMember.cases (hinserts : InsertsMember db after) :
    ∃ member, after.workspaceMembers = db.workspaceMembers ++ [member] ∧
      member.id ∉ db.workspaceMembers.map WorkspaceMember.id ∧
      (member.workspaceId, member.userId) ∉
        db.workspaceMembers.map fun row ↦ (row.workspaceId, row.userId) := by
  obtain ⟨member, hinsert⟩ := hinserts
  unfold insertWorkspaceMember at hinsert
  split_ifs at hinsert with hid hplace
  refine ⟨member, (Except.ok.inj hinsert).symm, fun hmem ↦ hid ?_, fun hmem ↦ hplace ?_⟩
  · obtain ⟨row, hrow, hsame⟩ := List.mem_map.mp hmem
    exact List.any_eq_true.mpr ⟨row, hrow, by simp [hsame]⟩
  · obtain ⟨row, hrow, hsame⟩ := List.mem_map.mp hmem
    exact List.any_eq_true.mpr ⟨row, hrow, by simpa using hsame⟩

/-- The keys of the members stay distinct. -/
theorem MembersKeyed.step (hkeyed : MembersKeyed db) (heffect : Effect db label after) :
    MembersKeyed after := by
  have hinserted : InsertsMember db after → MembersKeyed after := by
    intro hinserts
    obtain ⟨member, heq, hid, hplace⟩ := hinserts.cases
    refine ⟨?_, ?_⟩ <;> rw [heq]
    · exact nodup_map_append_singleton hkeyed.ids hid
    · exact nodup_map_append_singleton hkeyed.places hplace
  have hmembers := heffect.members
  cases label with
  | addMember member => exact hinserted hmembers
  | accept invitation userId =>
    rcases hmembers with hsame | hinserts
    · exact ⟨hsame ▸ hkeyed.ids, hsame ▸ hkeyed.places⟩
    · exact hinserted hinserts
  | updateMember member input =>
    refine ⟨?_, ?_⟩ <;> rw [hmembers]
    · exact nodup_map_updateWhere (fun _ ↦ rfl) hkeyed.ids
    · exact nodup_map_updateWhere (fun _ ↦ rfl) hkeyed.places
  | removeMember removedFrom userId =>
    refine ⟨?_, ?_⟩ <;> rw [hmembers]
    · exact nodup_map_updateWhere (fun _ ↦ rfl) hkeyed.ids
    · exact nodup_map_updateWhere (fun _ ↦ rfl) hkeyed.places
  | other | invite | cancel | expire => exact ⟨hmembers ▸ hkeyed.ids, hmembers ▸ hkeyed.places⟩

/-- A write takes the role from one member at most. -/
theorem countP_takesOut_le (role workspaceId : Uuid) (hkeyed : MembersKeyed db) (label : TenancyStep) :
    (db.workspaceMembers.countP fun row ↦ label.takesOut role workspaceId row) ≤
      if db.workspaceMembers.any fun row ↦ label.takesOut role workspaceId row then 1 else 0 := by
  split_ifs with hany
  · cases label with
    | updateMember member input =>
      refine countP_le_one_of_key hkeyed.ids fun first _ second _ hfirst hsecond ↦ ?_
      simp only [TenancyStep.takesOut, decide_eq_true_eq] at hfirst hsecond
      exact hfirst.1.trans hsecond.1.symm
    | removeMember removedFrom userId =>
      refine countP_le_one_of_key hkeyed.places fun first _ second _ hfirst hsecond ↦ ?_
      simp only [TenancyStep.takesOut, decide_eq_true_eq] at hfirst hsecond
      rw [hfirst.1.1, hfirst.1.2, hsecond.1.1, hsecond.1.2]
    | other | addMember | invite | cancel | accept | expire => simp [TenancyStep.takesOut]
  · refine Nat.le_of_eq (List.countP_eq_zero.mpr fun row hrow htaken ↦ hany ?_)
    exact List.any_eq_true.mpr ⟨row, hrow, htaken⟩

/-- A step lowers the number of admins by one at most, and only if it takes the role from one. -/
theorem admins_le_of_effect (role workspaceId : Uuid) (hkeyed : MembersKeyed db)
    (heffect : Effect db label after) :
    admins role workspaceId db ≤ admins role workspaceId after +
      if db.workspaceMembers.any fun row ↦ label.takesOut role workspaceId row then 1 else 0 := by
  have hone := countP_takesOut_le role workspaceId hkeyed label
  have hinserted : InsertsMember db after → admins role workspaceId db ≤ admins role workspaceId after := by
    intro hinserts
    obtain ⟨member, heq, -, -⟩ := hinserts.cases
    rw [admins, admins, heq, List.countP_append]
    exact Nat.le_add_right _ _
  have hmembers := heffect.members
  cases label with
  | addMember member => exact (hinserted hmembers).trans (Nat.le_add_right _ _)
  | accept invitation userId =>
    rcases hmembers with hsame | hinserts
    · exact (Nat.le_of_eq (by rw [admins, admins, hsame])).trans (Nat.le_add_right _ _)
    · exact (hinserted hinserts).trans (Nat.le_add_right _ _)
  | updateMember member input =>
    have hlost := countP_le_updateWhere_add (fun row ↦ row.id = member.id) input.apply
      (holdsRole role workspaceId) db.workspaceMembers
    rw [← hmembers] at hlost
    refine hlost.trans (Nat.add_le_add_left (le_trans (List.countP_mono_left fun row _ hrow ↦ ?_) hone) _)
    simpa only [TenancyStep.takesOut, decide_eq_true_eq] using hrow
  | removeMember removedFrom userId =>
    have hlost := countP_le_updateWhere_add
      (fun row ↦ row.workspaceId = removedFrom ∧ row.userId = userId)
      (fun row ↦ { row with status := .removed }) (holdsRole role workspaceId) db.workspaceMembers
    rw [← hmembers] at hlost
    refine hlost.trans (Nat.add_le_add_left (le_trans (List.countP_mono_left fun row _ hrow ↦ ?_) hone) _)
    simp only [TenancyStep.takesOut, decide_eq_true_eq] at hrow ⊢
    exact ⟨hrow.1, hrow.2.1⟩
  | other | invite | cancel | expire =>
    exact (Nat.le_of_eq (by rw [admins, admins, hmembers])).trans (Nat.le_add_right _ _)

/-! ### Runs -/

/-- What every step of a call does: it records the store, keeps the keys, and does what its label says. -/
def DoesRecorded (_ : RecordedLog Db TenancyStep) (_ : ℕ) (step : RecordedStep Db TenancyStep) (after : Db) :
    Prop := MembersKeyed step.found ∧ Effect step.found step.label after

/-- Assumes: the history is of steps that do what their labels say, and the condition. A step leaves an
active member with the role. -/
theorem hasAdmin_step {log : RecordedLog Db TenancyStep} {number : ℕ} {step : RecordedStep Db TenancyStep}
    (hlegal : Legal DoesRecorded step.found log) (hdoes : DoesRecorded log number step after)
    (hleaves : LeavesAdmin role workspaceId log number step)
    (hadmin : HasAdmin role workspaceId step.found) : HasAdmin role workspaceId after := by
  rw [hasAdmin_iff] at hadmin ⊢
  have hone := admins_le_of_effect role workspaceId hdoes.1 hdoes.2
  by_cases hlowers : lowersAdmins role workspaceId step = true
  · obtain ⟨since, hsince, hmany⟩ := hleaves hlowers
    have hbound := hlegal.since_le (admins role workspaceId) (lowersAdmins role workspaceId)
      (fun _ _ _ _ hstep ↦ admins_le_of_effect role workspaceId hstep.1 hstep.2) hsince
    split_ifs at hone <;> omega
  · rw [lowersAdmins] at hlowers
    rw [if_neg hlowers] at hone
    omega

variable {env : Env} {invitationTtlDays : ℕ}

/-- Assumes: at the start the keys of the members are distinct and the workspace has an active member with
the role; and whenever a call takes the role from an active member, the workspace had, when the call read
the member, two more such members than other calls have taken it from since. The workspace always has an
active member with the role. -/
theorem admin_remains {config : AdminRun} (hkeyed : MembersKeyed db) (hadmin : HasAdmin role workspaceId db)
    (hreach : Reachable (serveRecorded env invitationTtlDays) anyStep db config)
    (hleaves : EachStep (LeavesAdmin role workspaceId) config.log) :
    HasAdmin role workspaceId config.db := by
  have honly : ∀ request, (serveRecorded env invitationTtlDays request).Only fun before step after ↦
      step.found = before ∧ Effect before step.label after :=
    fun request ↦ (serve_effect env invitationTtlDays request).traced fun _ _ _ heffect ↦ ⟨rfl, heffect⟩
  have hinv : MembersKeyed config.db ∧ Legal DoesRecorded config.db config.log ∧
      (EachStep (LeavesAdmin role workspaceId) config.log → HasAdmin role workspaceId config.db) := by
    refine reachable_keeps honly (fun world ↦ MembersKeyed world.db ∧
      Legal DoesRecorded world.db world.log ∧
        (EachStep (LeavesAdmin role workspaceId) world.log → HasAdmin role workspaceId world.db))
      ⟨hkeyed, trivial, fun _ ↦ hadmin⟩ ?_ hreach
    rintro world number ⟨label, found⟩ after ⟨hkeyed, hlegal, hholds⟩ - ⟨rfl, heffect⟩
    have hdoes : DoesRecorded world.log number ⟨label, world.db⟩ after := ⟨hkeyed, heffect⟩
    exact ⟨hkeyed.step heffect, ⟨hdoes, hlegal⟩,
      fun heach ↦ hasAdmin_step hlegal hdoes heach.1 (hholds heach.2)⟩
  exact hinv.2.2 hleaves

/-! ### Two admins -/

/-- A workspace with two members with the role 30. -/
def administered : Db where
  nextUuid := 10
  tenants := [{ id := 2, slug := "acme", name := "Acme" }]
  workspaces := [{ id := 4, tenantId := 2, slug := "main", name := "Main", createdAt := 0 }]
  workspaceMembers :=
    [{ id := 5, tenantId := 2, workspaceId := 4, userId := 21, roleId := some 30, joinedAt := 0 },
     { id := 6, tenantId := 2, workspaceId := 4, userId := 22, roleId := some 30, joinedAt := 0 }]

theorem membersKeyed_administered : MembersKeyed administered := ⟨by decide, by decide⟩

/-- One admin is suspended; the other is removed after a third member has got the role. -/
def handedOver : List (Choice TenancyRequest) :=
  .start (.updateMember 2 4 5 { status := some .suspended }) :: finish 0 ++
    .start (.addMember 2 4 23) :: finish 1 ++
    .start (.updateMember 2 4 10 { roleId := some (.uuid 30) }) :: finish 2 ++
    .start (.removeMember 2 4 22) :: finish 3

/-- A witness that the condition can be met: the role is handed over. -/
theorem admin_remains_witness :
    HasAdmin 30 4 ((Concurrency.Config.initial administered : AdminRun).play
      (serveRecorded exampleEnv 7) handedOver).db :=
  admin_remains membersKeyed_administered ⟨_, List.mem_cons_self, by decide⟩
    (play_reachable (allowsAll_anyStep _ _)) (by decide +kernel)

/-- One admin is removed, and then the other, the last one, is suspended. -/
def bothTakenOut : List (Choice TenancyRequest) :=
  .start (.removeMember 2 4 21) :: finish 0 ++
    .start (.updateMember 2 4 6 { status := some .suspended }) :: finish 1

/-- Without the condition no active admin may be left. -/
theorem soleAdminLost :
    ¬ ∀ (env : Env) (invitationTtlDays : ℕ) (role workspaceId : Uuid) (db : Db) (config : AdminRun),
      MembersKeyed db → HasAdmin role workspaceId db →
      Reachable (serveRecorded env invitationTtlDays) anyStep db config →
      HasAdmin role workspaceId config.db := by
  intro halways
  obtain ⟨member, hmember, hholds⟩ := halways exampleEnv 7 30 4 administered _ membersKeyed_administered
    ⟨_, List.mem_cons_self, by decide⟩ (play_reachable (allowsAll_anyStep _ bothTakenOut))
  revert member
  decide +kernel

end RallyApi.Tenancy

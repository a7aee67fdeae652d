import RallyApi.Identity.SessionFamilies
import RallyApi.Tenancy.Effects

/-!
# Redeeming an invitation

`acceptInvitation` and `cancelInvitation` test on a row they have read that the invitation is pending.
Their `UPDATE` goes by the identifier alone. So two users who hold the token can both be enrolled
through it (`acceptedTwice`), and an invitation that has been cancelled can still be accepted.

The other two writers are safe: `cancelExistingForEmail` and the cleanup cron state the pending status in
their `UPDATE`. In every run in which an invitation is accepted only while it is pending, and cancelled
only while it is pending or cancelled already, it is accepted at most once, and once its status has left
`pending`, it stays and nobody is enrolled any more (`redeemed_once`).
-/

set_option autoImplicit false
set_option relaxedAutoImplicit false

namespace RallyApi.Tenancy

open Concurrency Identity Platform Store

/-! ### Status and acceptances -/

/-- The status of an invitation. -/
def statusOf (id : Uuid) (db : Db) : Option InvitationStatus :=
  (db.workspaceInvitations.find? fun invitation ↦ invitation.id = id).map WorkspaceInvitation.status

/-- The step enrolls a user through the invitation. -/
def TenancyStep.accepts (id : Uuid) : TenancyStep → Bool
  | .accept invitation _ => invitation.id = id
  | _ => false

/-- How many calls have enrolled a user through the invitation. -/
def acceptances (id : Uuid) (world : World Db TenancyStep) : ℕ :=
  world.log.countP fun entry ↦ entry.2.accepts id

/-- The condition on a step: an invitation that is accepted is pending, and one that is cancelled by its
identifier is pending, or cancelled already. -/
def FindsPending (world : World Db TenancyStep) : TenancyStep → Prop
  | .accept invitation _ => statusOf invitation.id world.db = some .pending
  | .cancel id =>
    statusOf id world.db = some .pending ∨ statusOf id world.db = some .cancelled
  | _ => True

instance (world : World Db TenancyStep) (label : TenancyStep) :
    Decidable (FindsPending world label) :=
  match label with
  | .accept _ _ => inferInstanceAs (Decidable (_ = _))
  | .cancel _ => inferInstanceAs (Decidable (_ ∨ _))
  | .other | .addMember _ | .updateMember .. | .removeMember .. | .invite .. | .expire =>
    .isTrue trivial

variable {db after : Db} {label : TenancyStep} {id : Uuid} {status : InvitationStatus}

/-! ### One step -/

/-- Assumes: an update leaves the identifiers alone, and the status of every row that is not pending.
A status that is not pending stays. -/
theorem statusOf_update {condition : WorkspaceInvitation → Bool}
    {set : WorkspaceInvitation → WorkspaceInvitation} (hid : ∀ row, (set row).id = row.id)
    (hkept : ∀ row, row.status ≠ .pending → condition row = true → (set row).status = row.status)
    (hafter : after.workspaceInvitations = updateWhere condition set db.workspaceInvitations)
    (hstatus : statusOf id db = some status) (hclosed : status ≠ .pending) :
    statusOf id after = some status := by
  obtain ⟨row, hfind, rfl⟩ := Option.map_eq_some_iff.mp hstatus
  rw [statusOf, hafter, find_updateWhere fun row ↦ by simp only [hid], hfind]
  simp only [Option.map_some]
  split_ifs with hcondition
  · rw [hkept row hclosed hcondition]
  · rfl

/-- `updateStatus` gives the invitation its status, and leaves that of the others alone. -/
theorem statusOf_updateStatus (updated : Uuid) (new : InvitationStatus) (acceptedBy : Option Uuid)
    (hafter : after.workspaceInvitations = (updateStatus updated new acceptedBy db).workspaceInvitations)
    (hstatus : statusOf id db = some status) :
    statusOf id after = some (if id = updated then new else status) := by
  obtain ⟨row, hfind, rfl⟩ := Option.map_eq_some_iff.mp hstatus
  have hrow := List.find?_some hfind
  simp only [decide_eq_true_eq] at hrow
  simp only [updateStatus] at hafter
  rw [statusOf, hafter, find_updateWhere ?_, hfind]
  · simp only [Option.map_some, decide_eq_true_eq, hrow]
    split_ifs <;> rfl
  · exact fun _ ↦ rfl

/-- A permitted step leaves a status that is not pending alone. -/
theorem statusOf_step {world : World Db TenancyStep} (heffect : Effect world.db label after)
    (hpermits : FindsPending world label) (hstatus : statusOf id world.db = some status)
    (hclosed : status ≠ .pending) : statusOf id after = some status := by
  have hinvitations := heffect.invitations
  cases label with
  | invite snapshot invitation =>
    obtain ⟨workspaceId, email, hafter⟩ := hinvitations
    have hcancelled : statusOf id (cancelExistingForEmail workspaceId email snapshot world.db) =
        some status := by
      refine statusOf_update ?_ ?_ (Eq.refl _) hstatus hclosed
      · exact fun _ ↦ rfl
      · intro row hrow hcondition
        simp only [WorkspaceInvitation.pendingFor, decide_eq_true_eq] at hcondition
        exact absurd hcondition.2.2.2 hrow
    obtain ⟨row, hfind, hrow⟩ := Option.map_eq_some_iff.mp hcancelled
    rw [statusOf, hafter, List.find?_append, hfind, ← hrow]
    rfl
  | cancel cancelled =>
    rw [statusOf_updateStatus cancelled .cancelled none hinvitations hstatus]
    split_ifs with hid
    · subst hid
      rcases hpermits with hpending | hcancelled
      · exact absurd (Option.some.inj (hstatus.symm.trans hpending)) hclosed
      · rw [← hcancelled, hstatus]
    · rfl
  | accept invitation userId =>
    rw [statusOf_updateStatus invitation.id .accepted (some userId) hinvitations hstatus]
    split_ifs with hid
    · subst hid
      exact absurd (Option.some.inj (hstatus.symm.trans hpermits)) hclosed
    · rfl
  | expire =>
    refine statusOf_update ?_ ?_ hinvitations hstatus hclosed
    · exact fun _ ↦ rfl
    · intro row hrow hcondition
      simp only [decide_eq_true_eq] at hcondition
      exact absurd hcondition.1 hrow
  | _ =>
    rw [statusOf, hinvitations]
    exact hstatus

/-! ### Runs -/

/-- The invariant: an invitation that has been accepted has that status, and was accepted once. -/
structure AcceptedOnce (world : World Db TenancyStep) : Prop where
  stays : ∀ entry ∈ world.log, ∀ invitation userId, entry.2 = .accept invitation userId →
    statusOf invitation.id world.db = some .accepted
  once : ∀ id, acceptances id world ≤ 1

/-- An invitation that is not accepted has not been. -/
theorem AcceptedOnce.acceptances_eq_zero {world : World Db TenancyStep} (hinv : AcceptedOnce world)
    (hstatus : statusOf id world.db ≠ some .accepted) : acceptances id world = 0 := by
  refine List.countP_eq_zero.mpr fun entry hentry haccepts ↦ ?_
  obtain ⟨number, label⟩ := entry
  cases label with
  | accept invitation userId =>
    simp only [TenancyStep.accepts, decide_eq_true_eq] at haccepts
    exact hstatus (haccepts ▸ hinv.stays _ hentry invitation userId rfl)
  | _ => cases haccepts

/-- A permitted step accepts no invitation whose status is not pending. -/
theorem acceptances_step {world : World Db TenancyStep} {number : ℕ}
    (hpermits : FindsPending world label) (hstatus : statusOf id world.db ≠ some .pending) :
    acceptances id (world.after number label after) = acceptances id world := by
  refine List.countP_cons_of_neg fun haccepts ↦ ?_
  cases label with
  | accept invitation userId =>
    simp only [TenancyStep.accepts, decide_eq_true_eq] at haccepts
    exact hstatus (haccepts ▸ hpermits)
  | _ => cases haccepts

/-- A permitted step keeps the invariant. -/
theorem AcceptedOnce.step {world : World Db TenancyStep} {number : ℕ} (hinv : AcceptedOnce world)
    (hpermits : FindsPending world label) (heffect : Effect world.db label after) :
    AcceptedOnce (world.after number label after) where
  stays entry hentry invitation userId haccept := by
    rcases List.mem_cons.mp hentry with rfl | hold
    · obtain rfl : label = .accept invitation userId := haccept
      have hafter := statusOf_updateStatus invitation.id .accepted (some userId) heffect.invitations
        hpermits
      rw [if_pos rfl] at hafter
      exact hafter
    · exact statusOf_step heffect hpermits (hinv.stays entry hold invitation userId haccept)
        (by decide)
  once id := by
    by_cases hstatus : statusOf id world.db = some .pending
    · have hnone : acceptances id world = 0 := hinv.acceptances_eq_zero (by rw [hstatus]; decide)
      simp only [acceptances, World.after, List.countP_cons] at hnone ⊢
      rw [hnone]
      split_ifs <;> decide
    · rw [acceptances_step hpermits hstatus]
      exact hinv.once id

variable {env : Env} {invitationTtlDays : ℕ}

/-- Assumes: an invitation is accepted only while it is pending, and cancelled only while it is pending
or cancelled already. Each invitation is accepted at most once; and once its status is another than
pending, the status stays and nobody is enrolled through it any more. -/
theorem redeemed_once {config later : TenancyRun}
    (hreach : Reachable (TenancyRequest.serve env invitationTtlDays) FindsPending db config)
    (hlater : Relation.ReflTransGen (Step (TenancyRequest.serve env invitationTtlDays) FindsPending)
      config later) (id : Uuid) :
    acceptances id config.toWorld ≤ 1 ∧
      ∀ status, statusOf id config.db = some status → status ≠ .pending →
        statusOf id later.db = some status ∧
          acceptances id later.toWorld = acceptances id config.toWorld := by
  have honly := serve_effect env invitationTtlDays
  have hinv : AcceptedOnce config.toWorld := by
    refine reachable_keeps honly AcceptedOnce ⟨by simp, fun _ ↦ Nat.zero_le 1⟩ ?_ hreach
    exact fun world number label after hworld hpermits heffect ↦ hworld.step hpermits heffect
  refine ⟨hinv.once id, fun status hstatus hclosed ↦ ?_⟩
  induction hlater with
  | refl => exact ⟨hstatus, rfl⟩
  | tail hprefix hstep ih =>
    obtain ⟨hbefore, hcount⟩ := ih
    rcases step_cases honly (hreach.trans hprefix) hstep with hsame | ⟨number, label, hpermits,
      heffect, hafter⟩
    · rw [hsame]
      exact ⟨hbefore, hcount⟩
    · have hnot : statusOf id _ ≠ some .pending :=
        fun hpending ↦ hclosed (Option.some.inj (hbefore.symm.trans hpending))
      refine ⟨statusOf_step heffect hpermits hbefore hclosed, ?_⟩
      rw [hafter, acceptances_step hpermits hnot, hcount]

/-! ### One token, two users -/

/-- A tenant with a workspace. -/
def exampleDb : Db where
  nextUuid := 10
  tenants := [{ id := 2, slug := "acme", name := "Acme" }]
  workspaces := [{ id := 4, tenantId := 2, slug := "main", name := "Main", createdAt := 0 }]

/-- An address is invited to the workspace. -/
def invitationSent : List (Choice TenancyRequest) :=
  .start (.inviteMember 2 4 "ada@example.com" none 1) :: finish 0

/-- A user accepts the invitation. -/
def invitationAccepted : List (Choice TenancyRequest) :=
  invitationSent ++ .start (.acceptInvitation 0 21) :: finish 1

/-- Another user tries the token afterwards, and the invitation is cancelled. -/
def triedAgain : List (Choice TenancyRequest) :=
  .start (.acceptInvitation 0 22) :: finish 2 ++ .start (.cancelInvitation 2 4 10) :: finish 3

/-- A witness that the condition can be met: the second user and the cancellation are rejected. -/
theorem redeemed_once_witness :
    acceptances 10 ((Concurrency.Config.initial exampleDb).play
        (TenancyRequest.serve exampleEnv 7) invitationAccepted).toWorld ≤ 1 ∧
      ∀ status, statusOf 10 ((Concurrency.Config.initial exampleDb).play
          (TenancyRequest.serve exampleEnv 7) invitationAccepted).db = some status →
        status ≠ .pending →
        statusOf 10 (((Concurrency.Config.initial exampleDb).play
            (TenancyRequest.serve exampleEnv 7) invitationAccepted).play
          (TenancyRequest.serve exampleEnv 7) triedAgain).db = some status ∧
        acceptances 10 (((Concurrency.Config.initial exampleDb).play
            (TenancyRequest.serve exampleEnv 7) invitationAccepted).play
          (TenancyRequest.serve exampleEnv 7) triedAgain).toWorld =
        acceptances 10 ((Concurrency.Config.initial exampleDb).play
          (TenancyRequest.serve exampleEnv 7) invitationAccepted).toWorld :=
  redeemed_once (play_reachable (by decide +kernel)) (play_reachable (by decide +kernel)) 10

/-- Two users read the invitation before either of them accepts it. -/
def acceptedByTwo : List (Choice TenancyRequest) :=
  invitationSent ++ [.start (.acceptInvitation 0 21), .start (.acceptInvitation 0 22), .resume 1] ++
    finish 2 ++ finish 1

/-- Without the condition both are enrolled. -/
theorem acceptedTwice :
    ¬ ∀ (env : Env) (invitationTtlDays : ℕ) (db : Db) (config later : TenancyRun),
      Reachable (TenancyRequest.serve env invitationTtlDays) anyStep db config →
      Relation.ReflTransGen (Step (TenancyRequest.serve env invitationTtlDays) anyStep)
        config later →
      ∀ id, acceptances id config.toWorld ≤ 1 ∧
        ∀ status, statusOf id config.db = some status → status ≠ .pending →
          statusOf id later.db = some status ∧
            acceptances id later.toWorld = acceptances id config.toWorld := by
  intro halways
  have honce := (halways exampleEnv 7 exampleDb _ _
    (play_reachable (allowsAll_anyStep _ acceptedByTwo)) .refl 10).1
  exact absurd honce (by decide +kernel)

end RallyApi.Tenancy

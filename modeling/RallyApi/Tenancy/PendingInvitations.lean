import RallyApi.Tenancy.Invitations

/-!
# The pending invitations of an address

`inviteMember` cancels the pending invitations of an address and inserts a new one, in one transaction.
Under READ COMMITTED its `UPDATE` covers the rows of its snapshot, and no unique index backs the rule. An
invitation that another call commits after the snapshot stays pending beside the new one, so two
overlapping invitations of one address leave two tokens that can be redeemed (`invitedTwice`).

`onePending_invite_iff` says when the commit of an invitation keeps the rule, and `pending_unique` that the
rule holds throughout every run whose invitations all commit so.
-/

set_option autoImplicit false
set_option relaxedAutoImplicit false

namespace RallyApi.Tenancy

open Concurrency Identity Platform Store

/-- Each workspace has at most one pending invitation for an address. -/
def OnePending (db : Db) : Prop :=
  ∀ workspaceId email,
    db.workspaceInvitations.countP (WorkspaceInvitation.pendingFor workspaceId email) ≤ 1

/-- The condition on a step: an invitation that commits has seen every pending invitation of its
address. -/
def SeesPending (world : World Db TenancyStep) : TenancyStep → Prop
  | .invite snapshot invitation => ∀ row ∈ world.db.workspaceInvitations,
    row.pendingFor invitation.workspaceId invitation.email = true → row.id ∈ snapshot
  | _ => True

instance (world : World Db TenancyStep) (label : TenancyStep) : Decidable (SeesPending world label) :=
  match label with
  | .invite _ _ => inferInstanceAs (Decidable (∀ row ∈ _, _ → _))
  | .other | .addMember _ | .updateMember .. | .removeMember .. | .cancel _ | .accept .. | .expire =>
    .isTrue trivial

variable {db after : Db} {label : TenancyStep} {snapshot : List Uuid}
  {invitation : WorkspaceInvitation}

/-! ### The commit of an invitation -/

/-- The store after an invitation has committed: the invitation is pending, and the pending ones of its own
address that it has seen are cancelled. -/
def Invites (db : Db) (label : TenancyStep) (after : Db) : Prop :=
  ∀ snapshot invitation, label = .invite snapshot invitation →
    invitation.status = .pending ∧ after.workspaceInvitations =
      (cancelExistingForEmail invitation.workspaceId invitation.email snapshot db).workspaceInvitations ++
        [invitation]

@[simp]
theorem invites_other : Invites db .other after := by rintro _ _ ⟨⟩

/-- Assumes: the label is another than that of an invitation. The transaction commits none. -/
theorem transaction_invites {α : Type} {run : Db → Except Failure (α × Db)}
    (hlabel : ∀ snapshot invitation, label ≠ .invite snapshot invitation) :
    (transaction label run).Only Invites :=
  Call.only_transaction (fun _ ↦ invites_other)
    fun _ _ _ _ snapshot invitation h ↦ absurd h (hlabel snapshot invitation)

theorem uuidv7_invites : uuidv7.Only Invites := by simp [uuidv7_eq]

theorem getWorkspace_invites (tenantId workspaceId : Uuid) :
    (getWorkspace tenantId workspaceId).Only Invites := by
  simp [getWorkspace, findWorkspaceById]

theorem createWorkspace_invites (tenantId actorId : Uuid) (slug name : String) :
    (createWorkspace tenantId actorId slug name).Only Invites := by
  simp only [createWorkspace, Call.only_bind]
  refine ⟨by simp [findBySlug], fun _ _ ↦ ⟨Call.only_ensure _ _, fun _ _ ↦ ?_⟩⟩
  refine ⟨uuidv7_invites, fun _ _ ↦ ⟨uuidv7_invites, fun _ _ ↦ transaction_invites ?_⟩⟩
  rintro _ _ ⟨⟩

theorem addMember_invites (tenantId workspaceId userId : Uuid) :
    (addMember tenantId workspaceId userId).Only Invites := by
  simp only [addMember, Call.only_bind]
  refine ⟨getWorkspace_invites _ _, fun _ _ ↦ ⟨by simp [findMember], fun _ _ ↦ ?_⟩⟩
  refine ⟨Call.only_ensure _ _, fun _ _ ↦ ⟨uuidv7_invites, fun _ _ ↦ transaction_invites ?_⟩⟩
  rintro _ _ ⟨⟩

theorem updateMember_invites (tenantId workspaceId memberId : Uuid) (input : UpdateMemberInput) :
    (updateMember tenantId workspaceId memberId input).Only Invites := by
  simp only [updateMember, guardSoleAdmin_eq, Call.only_bind]
  refine ⟨getWorkspace_invites _ _, fun _ _ ↦ ⟨by simp [findMemberById], fun _ _ ↦ ?_⟩⟩
  refine ⟨Call.only_require _ _, fun member _ ↦ ⟨trivial, fun _ _ ↦ transaction_invites ?_⟩⟩
  rintro _ _ ⟨⟩

theorem removeMember_invites (tenantId workspaceId userId : Uuid) :
    (removeMember tenantId workspaceId userId).Only Invites := by
  simp only [removeMember, Call.only_bind]
  refine ⟨getWorkspace_invites _ _, fun _ _ ↦ ⟨by simp [findMember], fun _ _ ↦ ?_⟩⟩
  refine ⟨Call.only_ensure _ _, fun _ _ ↦ ?_⟩
  rw [removeMemberRow, Call.only_atomically]
  rintro _ _ _ ⟨⟩

theorem inviteMember_invites (env : Env) (invitationTtlDays : ℕ) (tenantId workspaceId : Uuid)
    (email : String) (roleId : Option RoleText) (actorId : Uuid) :
    (inviteMember env invitationTtlDays tenantId workspaceId email roleId actorId).Only Invites := by
  simp only [inviteMember, Call.only_bind]
  refine ⟨getWorkspace_invites _ _, fun _ _ ↦ ⟨by simp [randomBytes], fun rawToken _ ↦ ?_⟩⟩
  refine ⟨by simp [addDays, currentTime], fun expiresAt _ ↦ ?_⟩
  refine ⟨by simp [snapshotInvitations], fun snapshot _ ↦ ⟨uuidv7_invites, fun id _ ↦ ?_⟩⟩
  refine ⟨by simp [currentTime], fun now _ ↦ ?_⟩
  refine Call.only_transaction (fun _ ↦ invites_other) fun db value after hrun ↦ ?_
  obtain ⟨_, -, hrun⟩ := bind_eq_ok.mp hrun
  obtain ⟨stored, hinsert, hrest⟩ := bind_eq_ok.mp hrun
  cases hrest
  unfold insertInvitation at hinsert
  split_ifs at hinsert
  cases hinsert
  rintro _ _ ⟨⟩
  exact ⟨rfl, rfl⟩

theorem cancelInvitation_invites (tenantId workspaceId invitationId : Uuid) :
    (cancelInvitation tenantId workspaceId invitationId).Only Invites := by
  simp only [cancelInvitation, Call.only_bind]
  refine ⟨getWorkspace_invites _ _, fun _ _ ↦ ⟨by simp [findInvitationById], fun _ _ ↦ ?_⟩⟩
  refine ⟨Call.only_require _ _, fun _ _ ↦ ⟨Call.only_ensure _ _, fun _ _ ↦ ?_⟩⟩
  rw [Call.only_atomically]
  rintro _ _ _ ⟨⟩

theorem acceptInvitation_invites (env : Env) (rawToken : RawToken) (acceptingUserId : Uuid) :
    (acceptInvitation env rawToken acceptingUserId).Only Invites := by
  simp only [acceptInvitation, Call.only_bind]
  refine ⟨by simp [findByTokenHash], fun _ _ ↦ ⟨Call.only_require _ _, fun invitation _ ↦ ?_⟩⟩
  refine ⟨Call.only_ensure _ _, fun _ _ ↦ ⟨by simp [currentTime], fun _ _ ↦ ?_⟩⟩
  refine ⟨Call.only_ensure _ _, fun _ _ ↦ ⟨by simp [findMember], fun _ _ ↦ ?_⟩⟩
  refine ⟨uuidv7_invites, fun _ _ ↦ ⟨uuidv7_invites, fun _ _ ↦ transaction_invites ?_⟩⟩
  rintro _ _ ⟨⟩

/-- A step of a call that is labelled as the commit of an invitation is one. -/
theorem serve_invites (env : Env) (invitationTtlDays : ℕ) (request : TenancyRequest) :
    (request.serve env invitationTtlDays).Only Invites := by
  cases request with
  | createWorkspace tenantId actorId slug name =>
    exact Call.only_map (createWorkspace_invites tenantId actorId slug name)
  | deleteWorkspace tenantId workspaceId =>
    refine Call.only_bind.mpr ⟨getWorkspace_invites _ _, fun _ _ ↦ transaction_invites ?_⟩
    rintro _ _ ⟨⟩
  | addMember tenantId workspaceId userId =>
    exact Call.only_map (addMember_invites tenantId workspaceId userId)
  | updateMember tenantId workspaceId memberId input =>
    exact Call.only_map (updateMember_invites tenantId workspaceId memberId input)
  | removeMember tenantId workspaceId userId =>
    exact removeMember_invites tenantId workspaceId userId
  | inviteMember tenantId workspaceId email roleId actorId =>
    exact Call.only_map (inviteMember_invites env invitationTtlDays tenantId workspaceId email roleId
      actorId)
  | cancelInvitation tenantId workspaceId invitationId =>
    exact cancelInvitation_invites tenantId workspaceId invitationId
  | acceptInvitation rawToken acceptingUserId =>
    exact acceptInvitation_invites env rawToken acceptingUserId
  | expireInvitations =>
    change expireInvitations.Only Invites
    rw [expireInvitations, Call.only_atomically]
    rintro _ _ _ ⟨⟩
  | tick milliseconds =>
    change (tick milliseconds).Only Invites
    refine transaction_invites ?_
    rintro _ _ ⟨⟩

/-! ### One step -/

/-- Assumes: an update makes no invitation pending, and leaves workspace and address alone. The rule is
kept. -/
theorem onePending_update {condition : WorkspaceInvitation → Bool}
    {set : WorkspaceInvitation → WorkspaceInvitation}
    (hclosed : ∀ row, (set row).status ≠ .pending) (hone : OnePending db)
    (hafter : after.workspaceInvitations = updateWhere condition set db.workspaceInvitations) :
    OnePending after := by
  intro workspaceId email
  rw [hafter]
  refine (countP_updateWhere_le fun row _ _ hpending ↦ ?_).trans (hone workspaceId email)
  simp only [WorkspaceInvitation.pendingFor, decide_eq_true_eq] at hpending
  exact absurd hpending.2.2 (hclosed row)

/-- Assumes: the rule holds before an invitation commits. It holds afterwards exactly if the invitation
has seen every pending invitation of its address. -/
theorem onePending_invite_iff (hone : OnePending db)
    (hinvites : Invites db (.invite snapshot invitation) after) :
    OnePending after ↔ ∀ row ∈ db.workspaceInvitations,
      row.pendingFor invitation.workspaceId invitation.email = true → row.id ∈ snapshot := by
  obtain ⟨hpending, hafter⟩ := hinvites snapshot invitation rfl
  have hnew : invitation.pendingFor invitation.workspaceId invitation.email = true := by
    simp [WorkspaceInvitation.pendingFor, hpending]
  constructor
  · intro hrule row hrow hrowPending
    by_contra hunseen
    have hkept : row ∈ (cancelExistingForEmail invitation.workspaceId invitation.email snapshot
        db).workspaceInvitations := mem_updateWhere_of_not hrow (by simp [hunseen])
    have hone := hrule invitation.workspaceId invitation.email
    rw [hafter, List.countP_append, List.countP_singleton, if_pos hnew] at hone
    have hpos := List.countP_pos_iff.mpr ⟨row, hkept, hrowPending⟩
    omega
  · intro hseen workspaceId email
    rw [hafter, List.countP_append, List.countP_singleton]
    split_ifs with hsame
    · -- the address of the invitation: all that was pending is cancelled
      simp only [WorkspaceInvitation.pendingFor, decide_eq_true_eq] at hsame
      obtain ⟨rfl, rfl, -⟩ := hsame
      refine Nat.le_of_eq (congrArg (· + 1) (List.countP_eq_zero.mpr fun row hrow hrowPending ↦ ?_))
      obtain ⟨old, hold, rfl⟩ := mem_updateWhere.mp hrow
      split_ifs at hrowPending with hcancelled
      · simp [WorkspaceInvitation.pendingFor] at hrowPending
      · exact hcancelled (by simp [hseen old hold hrowPending, hrowPending])
    · have hcancelled : OnePending (cancelExistingForEmail invitation.workspaceId invitation.email snapshot
          db) := by
        refine onePending_update ?_ hone rfl
        rintro row ⟨⟩
      exact hcancelled workspaceId email

/-- A permitted step keeps the rule. -/
theorem onePending_step {world : World Db TenancyStep} (hone : OnePending world.db)
    (hpermits : SeesPending world label)
    (heffect : Effect world.db label after ∧ Invites world.db label after) : OnePending after := by
  have hinvitations := heffect.1.invitations
  cases label with
  | invite snapshot invitation => exact (onePending_invite_iff hone heffect.2).mpr hpermits
  | cancel id =>
    refine onePending_update ?_ hone hinvitations
    rintro row ⟨⟩
  | accept invitation userId =>
    refine onePending_update ?_ hone hinvitations
    rintro row ⟨⟩
  | expire =>
    refine onePending_update ?_ hone hinvitations
    rintro row ⟨⟩
  | _ =>
    intro workspaceId email
    rw [hinvitations]
    exact hone workspaceId email

/-! ### Runs -/

variable {env : Env} {invitationTtlDays : ℕ}

/-- Assumes: the rule holds at the start, and each invitation that commits has seen every pending
invitation of its address. Each workspace always has at most one pending invitation for an address. -/
theorem pending_unique {config : TenancyRun} (hone : OnePending db)
    (hreach : Reachable (TenancyRequest.serve env invitationTtlDays) SeesPending db config) :
    OnePending config.db := by
  have honly : ∀ request : TenancyRequest, (request.serve env invitationTtlDays).Only
      fun db label after ↦ Effect db label after ∧ Invites db label after := fun request ↦
    (serve_effect env invitationTtlDays request).and (serve_invites env invitationTtlDays request)
  refine reachable_keeps honly (fun world ↦ OnePending world.db) hone ?_ hreach
  exact fun world number label after hworld hpermits heffect ↦
    onePending_step hworld hpermits heffect

/-! ### Two admins, one address -/

/-- An address is invited again after the first invitation has been sent. -/
def invitedAgain : List (Choice TenancyRequest) :=
  invitationSent ++ .start (.inviteMember 2 4 " Ada@Example.com" none 3) :: finish 1

/-- A witness that the condition can be met: the second invitation replaces the first. -/
theorem pending_unique_witness :
    OnePending ((Concurrency.Config.initial exampleDb).play
      (TenancyRequest.serve exampleEnv 7) invitedAgain).db :=
  pending_unique (show OnePending exampleDb from fun _ _ ↦ Nat.zero_le 1)
    (play_reachable (by decide +kernel))

/-- Two admins invite an address at the same time: the second one commits after the snapshot of the
first. -/
def invitedByTwo : List (Choice TenancyRequest) :=
  [.start (.inviteMember 2 4 "ada@example.com" none 1),
    .start (.inviteMember 2 4 "ada@example.com" none 3),
    .resume 0, .resume 0, .resume 0, .resume 0] ++ finish 1 ++ finish 0

/-- Without the condition both invitations are pending. -/
theorem invitedTwice :
    ¬ ∀ (env : Env) (invitationTtlDays : ℕ) (db : Db) (config : TenancyRun), OnePending db →
      Reachable (TenancyRequest.serve env invitationTtlDays) anyStep db config →
      OnePending config.db := by
  intro halways
  have hone := halways exampleEnv 7 exampleDb _ (fun _ _ ↦ Nat.zero_le 1)
    (play_reachable (allowsAll_anyStep _ invitedByTwo)) 4 "ada@example.com"
  exact absurd hone (by decide +kernel)

end RallyApi.Tenancy

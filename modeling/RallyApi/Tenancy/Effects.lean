import RallyApi.Concurrency.Interleaving
import RallyApi.Tenancy.TenancyService

/-!
# What the steps of the tenancy service do

`Effect` says what a step with a given label does to members and invitations, and `serve_effect` that
every step of every call does what its label says. The results about the tenancy store look at the
labels and never at the text of the service again.
-/

set_option autoImplicit false
set_option relaxedAutoImplicit false

namespace RallyApi.Tenancy

open Concurrency Identity Platform Store

/-! ### Effects -/

/-- A row of the table of members has been inserted. -/
def InsertsMember (db after : Db) : Prop :=
  ∃ member, insertWorkspaceMember member db.workspaceMembers = .ok after.workspaceMembers

/-- What a step with a label does to the members. -/
def MembersEffect (db : Db) (label : TenancyStep) (after : Db) : Prop :=
  match label with
  | .addMember _ => InsertsMember db after
  | .accept _ _ => after.workspaceMembers = db.workspaceMembers ∨ InsertsMember db after
  | .updateMember member input => after.workspaceMembers =
    updateWhere (fun row ↦ row.id = member.id) input.apply db.workspaceMembers
  | .removeMember workspaceId userId =>
    after.workspaceMembers = updateWhere
      (fun member ↦ member.workspaceId = workspaceId ∧ member.userId = userId)
      (fun member ↦ { member with status := .removed }) db.workspaceMembers
  | _ => after.workspaceMembers = db.workspaceMembers

/-- What a step with a label does to the invitations. -/
def InvitationsEffect (db : Db) (label : TenancyStep) (after : Db) : Prop :=
  match label with
  | .invite snapshot invitation => ∃ workspaceId email,
    after.workspaceInvitations =
      (cancelExistingForEmail workspaceId email snapshot db).workspaceInvitations ++ [invitation]
  | .cancel id => after.workspaceInvitations =
    (updateStatus id .cancelled none db).workspaceInvitations
  | .accept invitation userId => after.workspaceInvitations =
    (updateStatus invitation.id .accepted (some userId) db).workspaceInvitations
  | .expire => after.workspaceInvitations = updateWhere
    (fun invitation ↦ invitation.status = .pending ∧ invitation.expiresAt < db.now)
    (fun invitation ↦ { invitation with status := .expired }) db.workspaceInvitations
  | _ => after.workspaceInvitations = db.workspaceInvitations

/-- What a step with a label does. -/
structure Effect (db : Db) (label : TenancyStep) (after : Db) : Prop where
  members : MembersEffect db label after
  invitations : InvitationsEffect db label after

@[simp]
theorem effect_refl (db : Db) : Effect db .other db := ⟨rfl, rfl⟩

variable {α : Type}

/-- A transaction that rolls back does nothing. Assumes: where it commits, it does what its label
says. -/
theorem transaction_effect {label : TenancyStep} {run : Db → Except Failure (α × Db)}
    (hcommit : ∀ db value after, run db = .ok (value, after) → Effect db label after) :
    (transaction label run).Only Effect :=
  Call.only_transaction effect_refl hcommit

/-! ### The calls -/

@[simp]
theorem uuidv7_effect : uuidv7.Only Effect := by
  simp only [uuidv7_eq, Call.only_atomically]
  exact fun _ ↦ ⟨rfl, rfl⟩

@[simp]
theorem getWorkspace_effect (tenantId workspaceId : Uuid) :
    (getWorkspace tenantId workspaceId).Only Effect := by
  simp [getWorkspace, findWorkspaceById]

@[simp]
theorem findMember_effect (workspaceId userId : Uuid) :
    (findMember workspaceId userId).Only Effect := by
  simp [findMember]

/-- The invitations and the clock are the same in both stores. -/
def SameInvitations (db after : Db) : Prop :=
  after.workspaceInvitations = db.workspaceInvitations ∧ after.now = db.now

/-- A member that `addMemberRow` adds is inserted, and nothing else changes. -/
theorem addMemberRow_ok {member : WorkspaceMember} {db after : Db}
    (hadd : addMemberRow member db = .ok after) : InsertsMember db after ∧ SameInvitations db after := by
  obtain ⟨members, hinsert, hrest⟩ := bind_eq_ok.mp hadd
  cases hrest
  exact ⟨⟨_, hinsert⟩, rfl, rfl⟩

theorem createWorkspace_effect (tenantId actorId : Uuid) (slug name : String) :
    (createWorkspace tenantId actorId slug name).Only Effect := by
  simp only [createWorkspace, Call.only_bind]
  refine ⟨by simp [findBySlug], fun existing _ ↦ ⟨Call.only_ensure _ _, fun _ _ ↦ ?_⟩⟩
  refine ⟨uuidv7_effect, fun id _ ↦ ⟨uuidv7_effect, fun memberId _ ↦ ?_⟩⟩
  refine transaction_effect fun db value after hrun ↦ ?_
  obtain ⟨created, hcreated, hrun⟩ := bind_eq_ok.mp hrun
  obtain ⟨stored, hadd, hrest⟩ := bind_eq_ok.mp hrun
  cases hrest
  obtain ⟨hmember, hinvitations⟩ := addMemberRow_ok hadd
  have hsame : created.workspaceMembers = db.workspaceMembers := by
    unfold insertWorkspace at hcreated
    split_ifs at hcreated
    cases hcreated
    rfl
  obtain ⟨member, hinsert⟩ := hmember
  exact ⟨⟨member, hsame ▸ hinsert⟩, hinvitations.1⟩

theorem deleteWorkspace_effect (tenantId workspaceId : Uuid) :
    (deleteWorkspace tenantId workspaceId).Only Effect := by
  refine Call.only_bind.mpr ⟨getWorkspace_effect _ _, fun _ _ ↦ ?_⟩
  refine transaction_effect fun db value after hrun ↦ ?_
  cases hrun
  exact ⟨rfl, rfl⟩

theorem addMember_effect (tenantId workspaceId userId : Uuid) :
    (addMember tenantId workspaceId userId).Only Effect := by
  simp only [addMember, Call.only_bind]
  refine ⟨getWorkspace_effect _ _, fun _ _ ↦ ⟨findMember_effect _ _, fun existing _ ↦ ?_⟩⟩
  refine ⟨Call.only_ensure _ _, fun _ _ ↦ ⟨uuidv7_effect, fun id _ ↦ ?_⟩⟩
  refine transaction_effect fun db value after hrun ↦ ?_
  obtain ⟨stored, hadd, hrest⟩ := bind_eq_ok.mp hrun
  cases hrest
  exact ⟨(addMemberRow_ok hadd).1, (addMemberRow_ok hadd).2.1⟩

/-- The role of a member is a uuid, so the guard never counts. -/
@[simp]
theorem guardSoleAdmin_eq (workspaceId : Uuid) (member : WorkspaceMember) (input : UpdateMemberInput) :
    guardSoleAdmin workspaceId member input = pure () := by
  have hrole : member.roleId.map RoleText.uuid ≠ some (.other "admin") := by
    cases member.roleId <;> simp
  exact if_neg fun hguarded ↦ hrole hguarded.2

theorem updateMember_effect (tenantId workspaceId memberId : Uuid) (input : UpdateMemberInput) :
    (updateMember tenantId workspaceId memberId input).Only Effect := by
  simp only [updateMember, guardSoleAdmin_eq, Call.only_bind]
  refine ⟨getWorkspace_effect _ _, fun _ _ ↦ ⟨by simp [findMemberById], fun found _ ↦ ?_⟩⟩
  refine ⟨Call.only_require _ _, fun member _ ↦ ⟨trivial, fun _ _ ↦ ?_⟩⟩
  refine transaction_effect fun db value after hrun ↦ ?_
  obtain ⟨_, -, hrest⟩ := bind_eq_ok.mp hrun
  cases hrest
  exact ⟨rfl, rfl⟩

theorem removeMember_effect (tenantId workspaceId userId : Uuid) :
    (removeMember tenantId workspaceId userId).Only Effect := by
  simp only [removeMember, Call.only_bind]
  refine ⟨getWorkspace_effect _ _, fun _ _ ↦ ⟨findMember_effect _ _, fun existing _ ↦ ?_⟩⟩
  refine ⟨Call.only_ensure _ _, fun _ _ ↦ ?_⟩
  rw [removeMemberRow, Call.only_atomically]
  exact fun db ↦ ⟨rfl, rfl⟩

theorem inviteMember_effect (env : Env) (invitationTtlDays : ℕ) (tenantId workspaceId : Uuid)
    (email : String) (roleId : Option RoleText) (actorId : Uuid) :
    (inviteMember env invitationTtlDays tenantId workspaceId email roleId actorId).Only Effect := by
  simp only [inviteMember, Call.only_bind]
  refine ⟨getWorkspace_effect _ _, fun _ _ ↦ ⟨?_, fun rawToken _ ↦ ?_⟩⟩
  · rw [randomBytes, Call.only_atomically]
    exact fun _ ↦ ⟨rfl, rfl⟩
  · refine ⟨by simp [addDays, currentTime], fun expiresAt _ ↦ ?_⟩
    refine ⟨by simp [snapshotInvitations], fun snapshot _ ↦ ⟨uuidv7_effect, fun id _ ↦ ?_⟩⟩
    refine ⟨by simp [currentTime], fun now _ ↦ ?_⟩
    refine transaction_effect fun db value after hrun ↦ ?_
    obtain ⟨_, -, hrun⟩ := bind_eq_ok.mp hrun
    obtain ⟨stored, hinsert, hrest⟩ := bind_eq_ok.mp hrun
    cases hrest
    unfold insertInvitation at hinsert
    split_ifs at hinsert
    cases hinsert
    exact ⟨rfl, _, _, rfl⟩

theorem cancelInvitation_effect (tenantId workspaceId invitationId : Uuid) :
    (cancelInvitation tenantId workspaceId invitationId).Only Effect := by
  simp only [cancelInvitation, Call.only_bind]
  refine ⟨getWorkspace_effect _ _, fun _ _ ↦ ⟨by simp [findInvitationById], fun found _ ↦ ?_⟩⟩
  refine ⟨Call.only_require _ _, fun invitation _ ↦ ⟨Call.only_ensure _ _, fun _ _ ↦ ?_⟩⟩
  rw [Call.only_atomically]
  exact fun db ↦ ⟨rfl, rfl⟩

/-- A keycard changes neither members nor invitations. -/
theorem tenantMemberCreate_frame (id tenantId userId : Uuid) (db : Db) :
    (tenantMemberCreate id tenantId userId db).workspaceMembers = db.workspaceMembers ∧
      SameInvitations db (tenantMemberCreate id tenantId userId db) := by
  unfold tenantMemberCreate
  split_ifs <;> exact ⟨rfl, rfl, rfl⟩

/-- The membership of an accepted invitation is inserted, or there is one already. -/
theorem addMemberUnless_ok {existing : Option WorkspaceMember} {member : WorkspaceMember} {db after : Db}
    (hadd : addMemberUnless existing member db = .ok after) :
    (after.workspaceMembers = db.workspaceMembers ∨ InsertsMember db after) ∧
      SameInvitations db after := by
  unfold addMemberUnless at hadd
  split_ifs at hadd
  · cases hadd
    exact ⟨.inl rfl, rfl, rfl⟩
  · exact ⟨.inr (addMemberRow_ok hadd).1, (addMemberRow_ok hadd).2⟩

theorem enroll_effect (invitation : WorkspaceInvitation)
    (acceptingUserId keycardId memberId : Uuid) (existing : Option WorkspaceMember) :
    (enroll invitation acceptingUserId keycardId memberId existing).Only Effect := by
  refine transaction_effect fun db value after hrun ↦ ?_
  obtain ⟨withMember, hadd, hrest⟩ := bind_eq_ok.mp hrun
  cases hrest
  obtain ⟨hmembers, hinvitations⟩ :=
    tenantMemberCreate_frame keycardId invitation.tenantId acceptingUserId db
  obtain ⟨hmember, hsame⟩ := addMemberUnless_ok hadd
  refine ⟨?_, ?_⟩
  · rcases hmember with hkept | ⟨member, hinsert⟩
    · exact .inl (hkept.trans hmembers)
    · exact .inr ⟨member, hmembers ▸ hinsert⟩
  · simp only [InvitationsEffect, updateStatus, hsame.1, hsame.2, hinvitations.1, hinvitations.2]

theorem acceptInvitation_effect (env : Env) (rawToken : RawToken) (acceptingUserId : Uuid) :
    (acceptInvitation env rawToken acceptingUserId).Only Effect := by
  simp only [acceptInvitation, Call.only_bind]
  refine ⟨by simp [findByTokenHash], fun found _ ↦ ⟨Call.only_require _ _, fun invitation _ ↦ ?_⟩⟩
  refine ⟨Call.only_ensure _ _, fun _ _ ↦ ⟨by simp [currentTime], fun now _ ↦ ?_⟩⟩
  refine ⟨Call.only_ensure _ _, fun _ _ ↦ ⟨findMember_effect _ _, fun existing _ ↦ ?_⟩⟩
  refine ⟨uuidv7_effect, fun keycardId _ ↦ ⟨uuidv7_effect, fun memberId _ ↦ ?_⟩⟩
  exact enroll_effect _ _ _ _ _

/-- Every step of every call does what its label says. -/
theorem serve_effect (env : Env) (invitationTtlDays : ℕ) (request : TenancyRequest) :
    (request.serve env invitationTtlDays).Only Effect := by
  cases request with
  | createWorkspace tenantId actorId slug name =>
    exact Call.only_map (createWorkspace_effect tenantId actorId slug name)
  | deleteWorkspace tenantId workspaceId => exact deleteWorkspace_effect tenantId workspaceId
  | addMember tenantId workspaceId userId =>
    exact Call.only_map (addMember_effect tenantId workspaceId userId)
  | updateMember tenantId workspaceId memberId input =>
    exact Call.only_map (updateMember_effect tenantId workspaceId memberId input)
  | removeMember tenantId workspaceId userId => exact removeMember_effect tenantId workspaceId userId
  | inviteMember tenantId workspaceId email roleId actorId =>
    exact Call.only_map (inviteMember_effect env invitationTtlDays tenantId workspaceId email roleId
      actorId)
  | cancelInvitation tenantId workspaceId invitationId =>
    exact cancelInvitation_effect tenantId workspaceId invitationId
  | acceptInvitation rawToken acceptingUserId =>
    exact acceptInvitation_effect env rawToken acceptingUserId
  | expireInvitations =>
    change expireInvitations.Only Effect
    rw [expireInvitations, Call.only_atomically]
    exact fun _ ↦ ⟨rfl, rfl⟩
  | tick milliseconds =>
    change (tick milliseconds).Only Effect
    refine transaction_effect fun db value after hrun ↦ ?_
    cases hrun
    exact ⟨rfl, rfl⟩

/-- A configuration of the tenancy service. -/
abbrev TenancyRun := Concurrency.Config Db TenancyStep Failure Unit

end RallyApi.Tenancy

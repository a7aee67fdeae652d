import RallyApi.Tenancy.Invitations

/-!
# Joining through an invitation

`acceptInvitation` adds a membership unless the user has one in the workspace, whatever its status, and a
keycard unless they have one for the tenant. A user who has been removed or suspended before comes back
with the row they had: the invitation is accepted, and they are no active member (`removedUserStaysOut`).

`joins_iff` says for which rows the user is an active member with the role of the invitation and an active
keycard afterwards.
-/

set_option autoImplicit false
set_option relaxedAutoImplicit false

namespace RallyApi.Tenancy

open Concurrency Identity Platform Store

/-! ### Rows of the user -/

/-- The member row is one of the user in the workspace of the invitation. -/
def WorkspaceInvitation.IsMembershipOf (invitation : WorkspaceInvitation) (user : Uuid)
    (member : WorkspaceMember) : Prop :=
  member.workspaceId = invitation.workspaceId ∧ member.userId = user

/-- The member is active, with the role of the invitation if it has one. -/
def WorkspaceInvitation.Enrols (invitation : WorkspaceInvitation) (member : WorkspaceMember) : Prop :=
  member.status = .active ∧ ∀ role ∈ invitation.roleId, member.roleId = some role

/-- The keycard is one of the user for the tenant of the invitation. -/
def WorkspaceInvitation.IsKeycardOf (invitation : WorkspaceInvitation) (user : Uuid)
    (keycard : TenantMember) : Prop :=
  keycard.tenantId = invitation.tenantId ∧ keycard.userId = user

instance (invitation : WorkspaceInvitation) (user : Uuid) (member : WorkspaceMember) :
    Decidable (invitation.IsMembershipOf user member) :=
  inferInstanceAs (Decidable (_ ∧ _))

/-- The user has joined: they are an active member with the role of the invitation, they have an active
keycard, and they have accepted the invitation. -/
structure Joined (invitation : WorkspaceInvitation) (user : Uuid) (db : Db) : Prop where
  member : ∃ member ∈ db.workspaceMembers,
    invitation.IsMembershipOf user member ∧ invitation.Enrols member
  keycard : ∃ keycard ∈ db.tenantMembers, invitation.IsKeycardOf user keycard ∧ keycard.status = .active
  accepted : ∃ row ∈ db.workspaceInvitations,
    row.id = invitation.id ∧ row.status = .accepted ∧ row.acceptedBy = some user

/-- Nothing is in the way of the user: they have no membership in the workspace, or an active one with the
role of the invitation, and no keycard for the tenant, or an active one. -/
structure MayJoin (invitation : WorkspaceInvitation) (user : Uuid) (db : Db) : Prop where
  member : (∀ member ∈ db.workspaceMembers, ¬ invitation.IsMembershipOf user member) ∨
    ∃ member ∈ db.workspaceMembers, invitation.IsMembershipOf user member ∧ invitation.Enrols member
  keycard : (∀ keycard ∈ db.tenantMembers, ¬ invitation.IsKeycardOf user keycard) ∨
    ∃ keycard ∈ db.tenantMembers, invitation.IsKeycardOf user keycard ∧ keycard.status = .active

variable {db after : Db} {invitation : WorkspaceInvitation} {user : Uuid}

/-! ### The transaction -/

/-- Assumes: the identifier is not in use. The user has an active keycard afterwards exactly if they had
none, or an active one. -/
theorem tenantMemberCreate_active_iff (invitation : WorkspaceInvitation) (user id : Uuid) (db : Db)
    (hfresh : ∀ keycard ∈ db.tenantMembers, keycard.id ≠ id) :
    (∃ keycard ∈ (tenantMemberCreate id invitation.tenantId user db).tenantMembers,
        invitation.IsKeycardOf user keycard ∧ keycard.status = .active) ↔
      (∀ keycard ∈ db.tenantMembers, ¬ invitation.IsKeycardOf user keycard) ∨
        ∃ keycard ∈ db.tenantMembers, invitation.IsKeycardOf user keycard ∧ keycard.status = .active := by
  have hkept : (∃ keycard ∈ db.tenantMembers, invitation.IsKeycardOf user keycard) →
      (tenantMemberCreate id invitation.tenantId user db).tenantMembers = db.tenantMembers := by
    rintro ⟨keycard, hmem, htenant, huser⟩
    have hany : (db.tenantMembers.any fun row ↦
        row.id = id ∨ row.tenantId = invitation.tenantId ∧ row.userId = user) = true :=
      List.any_eq_true.mpr ⟨keycard, hmem, decide_eq_true (.inr ⟨htenant, huser⟩)⟩
    rw [tenantMemberCreate, if_pos hany]
  have hinserted : (∀ keycard ∈ db.tenantMembers, ¬ invitation.IsKeycardOf user keycard) →
      (tenantMemberCreate id invitation.tenantId user db).tenantMembers =
        db.tenantMembers ++ [{ id, tenantId := invitation.tenantId, userId := user }] := by
    intro hnone
    have hnot : ¬ (db.tenantMembers.any fun row ↦
        row.id = id ∨ row.tenantId = invitation.tenantId ∧ row.userId = user) = true :=
      not_any_of_not fun keycard hmem hsame ↦ hsame.elim (hfresh keycard hmem) (hnone keycard hmem)
    rw [tenantMemberCreate, if_neg hnot]
  exact exists_insertUnless_iff hkept hinserted ⟨rfl, rfl⟩ rfl

/-- Assumes: the search for a membership has found what there is. The user is an active member with the role
of the invitation afterwards exactly if they had no membership, or such a one. -/
theorem addMemberUnless_active_iff {id : Uuid} {members : List WorkspaceMember}
    (hmembers : db.workspaceMembers = members)
    (hadd : addMemberUnless (members.find? fun member ↦
        member.workspaceId = invitation.workspaceId ∧ member.userId = user)
      { id, tenantId := invitation.tenantId, workspaceId := invitation.workspaceId, userId := user,
        roleId := invitation.roleId, joinedAt := 0 } db = .ok after) :
    (∃ member ∈ after.workspaceMembers, invitation.IsMembershipOf user member ∧ invitation.Enrols member) ↔
      (∀ member ∈ members, ¬ invitation.IsMembershipOf user member) ∨
        ∃ member ∈ members, invitation.IsMembershipOf user member ∧ invitation.Enrols member := by
  have hkept : (∃ member ∈ members, invitation.IsMembershipOf user member) →
      after.workspaceMembers = members := by
    rintro ⟨member, hmem, hsame⟩
    have hfound : (members.find? fun member ↦
        member.workspaceId = invitation.workspaceId ∧ member.userId = user).isSome = true :=
      List.find?_isSome.mpr ⟨member, hmem, decide_eq_true ⟨hsame.1, hsame.2⟩⟩
    rw [addMemberUnless, if_pos hfound] at hadd
    exact Except.ok.inj hadd ▸ hmembers
  have hinserted : (∀ member ∈ members, ¬ invitation.IsMembershipOf user member) →
      after.workspaceMembers = members ++
        [{ id, tenantId := invitation.tenantId, workspaceId := invitation.workspaceId, userId := user,
           roleId := invitation.roleId, joinedAt := timestampOfDate db.now }] := by
    intro hnone
    have hfound : (members.find? fun member ↦
        member.workspaceId = invitation.workspaceId ∧ member.userId = user) = none :=
      List.find?_eq_none.mpr fun member hmem hsame ↦ hnone member hmem (of_decide_eq_true hsame)
    rw [addMemberUnless, hfound] at hadd
    obtain ⟨inserted, hinsert, hstored⟩ := bind_eq_ok.mp hadd
    obtain rfl := Except.ok.inj hstored
    unfold insertWorkspaceMember at hinsert
    split_ifs at hinsert
    exact hmembers ▸ (Except.ok.inj hinsert).symm
  exact exists_insertUnless_iff hkept hinserted ⟨rfl, rfl⟩ ⟨rfl, fun _ hrole ↦ hrole⟩

/-- A membership is added without a change to the other tables. -/
theorem addMemberUnless_leaves {existing : Option WorkspaceMember} {member : WorkspaceMember}
    (hadd : addMemberUnless existing member db = .ok after) :
    after.tenantMembers = db.tenantMembers ∧ after.workspaceInvitations = db.workspaceInvitations := by
  unfold addMemberUnless at hadd
  split_ifs at hadd with hfound
  · obtain rfl := Except.ok.inj hadd
    exact ⟨rfl, rfl⟩
  · obtain ⟨inserted, _, hstored⟩ := bind_eq_ok.mp hadd
    obtain rfl := Except.ok.inj hstored
    exact ⟨rfl, rfl⟩

/-- A keycard is created without a change to the other tables. -/
theorem tenantMemberCreate_leaves (id tenantId userId : Uuid) (db : Db) :
    (tenantMemberCreate id tenantId userId db).workspaceMembers = db.workspaceMembers ∧
      (tenantMemberCreate id tenantId userId db).workspaceInvitations = db.workspaceInvitations := by
  unfold tenantMemberCreate
  split_ifs <;> exact ⟨rfl, rfl⟩

/-- What `acceptInvitation` has found and done when it returns. -/
theorem acceptInvitation_run {env : Env} {rawToken : RawToken} {outcome : Unit}
    (hrun : (acceptInvitation env rawToken user).run db = (.ok outcome, after)) :
    ∃ invitation ∈ db.workspaceInvitations, ∃ withMember : Db,
      invitation.tokenHash = env.hashToken rawToken ∧
      addMemberUnless (db.workspaceMembers.find? fun member ↦
          member.workspaceId = invitation.workspaceId ∧ member.userId = user)
        { id := db.nextUuid + 1, tenantId := invitation.tenantId, workspaceId := invitation.workspaceId,
          userId := user, roleId := invitation.roleId, joinedAt := 0 }
        (tenantMemberCreate db.nextUuid invitation.tenantId user { db with nextUuid := db.nextUuid + 2 }) =
          .ok withMember ∧
      after = updateStatus invitation.id .accepted (some user) withMember := by
  rw [acceptInvitation, findByTokenHash, Call.run_query_bind] at hrun
  obtain ⟨invitation, hfound, hrun⟩ := Call.run_require_bind_eq_ok.mp hrun
  obtain ⟨_, hrun⟩ := Call.run_ensure_bind_eq_ok.mp hrun
  rw [currentTime, Call.run_query_bind] at hrun
  obtain ⟨_, hrun⟩ := Call.run_ensure_bind_eq_ok.mp hrun
  rw [findMember, Call.run_query_bind, uuidv7_eq, Call.run_atomically_bind, Call.run_atomically_bind] at hrun
  have hcommit := Call.run_attempt_eq_ok.mp hrun
  obtain ⟨withMember, hadd, hstored⟩ := bind_eq_ok.mp hcommit
  obtain ⟨_, rfl⟩ := Prod.mk.inj (Except.ok.inj hstored)
  exact ⟨invitation, List.mem_of_find?_eq_some hfound, withMember,
    by simpa using List.find?_some hfound, hadd, rfl⟩

/-! ### The exact condition -/

/-- Assumes: the identifiers of keycards have been drawn. When `acceptInvitation` has returned, the user has
joined exactly if nothing was in their way. -/
theorem joins_iff {env : Env} {rawToken : RawToken} {outcome : Unit}
    (hdrawn : ∀ keycard ∈ db.tenantMembers, keycard.id < db.nextUuid)
    (hrun : (acceptInvitation env rawToken user).run db = (.ok outcome, after)) :
    ∃ invitation ∈ db.workspaceInvitations, invitation.tokenHash = env.hashToken rawToken ∧
      (Joined invitation user after ↔ MayJoin invitation user db) := by
  obtain ⟨invitation, hinvitation, withMember, hhash, hadd, rfl⟩ := acceptInvitation_run hrun
  refine ⟨invitation, hinvitation, hhash, ?_⟩
  have hkeycard := tenantMemberCreate_active_iff invitation user db.nextUuid
    { db with nextUuid := db.nextUuid + 2 } fun keycard hmem ↦ uuidSource.ne_next (hdrawn keycard hmem)
  generalize hcarded : tenantMemberCreate db.nextUuid invitation.tenantId user
    { db with nextUuid := db.nextUuid + 2 } = carded at hadd hkeycard
  have hleaves := tenantMemberCreate_leaves db.nextUuid invitation.tenantId user
    { db with nextUuid := db.nextUuid + 2 }
  rw [hcarded] at hleaves
  have hmember := addMemberUnless_active_iff hleaves.1 hadd
  obtain ⟨hkeycards, hinvitations⟩ := addMemberUnless_leaves hadd
  constructor
  · rintro ⟨hjoined, hcard, _⟩
    exact ⟨hmember.mp hjoined, hkeycard.mp (hkeycards ▸ hcard)⟩
  · rintro ⟨hmay, hcard⟩
    refine ⟨hmember.mpr hmay, ?_, ?_⟩
    · exact hkeycards ▸ hkeycard.mpr hcard
    · have hstored : invitation ∈ withMember.workspaceInvitations := by
        rw [hinvitations, hleaves.2]
        exact hinvitation
      exact ⟨_, set_mem_updateWhere hstored (decide_eq_true rfl), rfl, rfl, rfl⟩

/-! ### A removed member -/

/-- A removed member of the workspace is invited again. -/
def removedMemberDb : Db :=
  { exampleDb with
    tenantMembers := [{ id := 5, tenantId := 2, userId := 21 }]
    workspaceMembers := [{ id := 6, tenantId := 2, workspaceId := 4, userId := 21, status := .removed,
                           joinedAt := 0 }]
    workspaceInvitations := [{ id := 7, tenantId := 2, workspaceId := 4, email := "ada@example.com",
                               tokenHash := 1000, invitedBy := 1, expiresAt := 100, createdAt := 0 }] }

/-- A witness that a user can join: one without a membership. -/
theorem joins_iff_witness :
    ∃ after, (acceptInvitation exampleEnv 0 22).run removedMemberDb = (.ok (), after) ∧
      ∃ invitation ∈ removedMemberDb.workspaceInvitations,
        invitation.tokenHash = exampleEnv.hashToken 0 ∧
          (Joined invitation 22 after ↔ MayJoin invitation 22 removedMemberDb) :=
  ⟨_, rfl, joins_iff (by decide) rfl⟩

/-- Whoever accepts an invitation has not always joined: the removed member accepts it and stays removed. -/
theorem removedUserStaysOut :
    ¬ ∀ (env : Env) (rawToken : RawToken) (user : Uuid) (db after : Db),
      (∀ keycard ∈ db.tenantMembers, keycard.id < db.nextUuid) →
        (acceptInvitation env rawToken user).run db = (.ok (), after) →
          ∀ invitation ∈ db.workspaceInvitations, invitation.tokenHash = env.hashToken rawToken →
            Joined invitation user after := by
  intro halways
  have hrun : ∃ after, (acceptInvitation exampleEnv 0 21).run removedMemberDb = (.ok (), after) ∧
      ∀ member ∈ after.workspaceMembers, member.status = .removed :=
    ⟨_, rfl, by decide⟩
  obtain ⟨after, hrun, hremoved⟩ := hrun
  obtain ⟨⟨member, hmember, _, hactive, _⟩, _, _⟩ :=
    halways exampleEnv 0 21 removedMemberDb after (by decide) hrun _ List.mem_cons_self rfl
  rw [hremoved member hmember] at hactive
  cases hactive

end RallyApi.Tenancy

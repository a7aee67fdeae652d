import RallyApi.Identity.Frames
import RallyApi.Tenancy.Enrolment
import RallyApi.Tenancy.Invitations

/-!
# Ghost members

Signup and `acceptInvitation` write the keycard of a user before they make them a member, and
`createWorkspace` enrolls its caller, who has one. `addMember` takes any user identifier and writes no
keycard: the new member is active, and no tenant lists them (`ghostAdded`).

`noGhosts` says that this is the only way: in every run in which each user who is added by `addMember` or
enrolled by `createWorkspace` holds a keycard at that moment, every member of a workspace has one for its
tenant. Re-activation needs no condition of its own, since a removed member keeps the keycard.
-/

set_option autoImplicit false
set_option relaxedAutoImplicit false

namespace RallyApi.Tenancy

open Concurrency Protocol Identity Platform Store

variable {number : ℕ} {assertion : World Db EnrolmentStep → Prop} {α β : Type}

/-! ### Insertions -/

/-- A member that is inserted is there afterwards, besides the others. -/
theorem insertWorkspaceMember_places {member : WorkspaceMember} {db : Identity.Db}
    {members : List WorkspaceMember}
    (hinsert : insertWorkspaceMember member db.workspaceMembers = .ok members) :
    memberPlaces { db with workspaceMembers := members } =
      memberPlaces db ++ [(member.workspaceId, member.tenantId, member.userId)] := by
  unfold insertWorkspaceMember at hinsert
  split_ifs at hinsert
  cases hinsert
  simp [memberPlaces]

/-- What the insertion of a workspace leaves: one more place, and nothing else that matters here. -/
structure Places (place : Uuid × Uuid) (db after : Identity.Db) : Prop where
  workspaces : workspacePlaces after = workspacePlaces db ++ [place]
  fresh : place.1 ∉ (workspacePlaces db).map Prod.fst
  keycards : keycardOwners after = keycardOwners db
  members : memberPlaces after = memberPlaces db
  nextUuid : after.nextUuid = db.nextUuid

theorem Places.located {place : Uuid × Uuid} {db after : Identity.Db} (hplaces : Places place db after) :
    Located place.1 place.2 after := by
  rw [Located, hplaces.workspaces]
  exact List.mem_append_right _ List.mem_cons_self

theorem Places.nodup {place : Uuid × Uuid} {db after : Identity.Db} (hplaces : Places place db after)
    (hnodup : ((workspacePlaces db).map Prod.fst).Nodup) :
    ((workspacePlaces after).map Prod.fst).Nodup := by
  rw [hplaces.workspaces]
  exact nodup_map_append_singleton hnodup hplaces.fresh

/-- A workspace that is inserted has an identifier of its own. -/
theorem insertWorkspace_places {workspace : Workspace} {db after : Identity.Db}
    (hinsert : insertWorkspace workspace db = .ok after) :
    Places (workspace.id, workspace.tenantId) db after := by
  unfold insertWorkspace at hinsert
  split_ifs at hinsert with hid
  cases hinsert
  refine ⟨by simp [workspacePlaces], fun hmem ↦ hid ?_, rfl, rfl, rfl⟩
  simp only [workspacePlaces, List.map_map, List.mem_map, Function.comp_apply] at hmem
  obtain ⟨row, hrow, hsame⟩ := hmem
  exact List.any_eq_true.mpr ⟨row, hrow, decide_eq_true hsame⟩

/-- Insert-or-ignore of a keycard, on the identity store. -/
def cardedDb (id tenantId userId : Uuid) (db : Identity.Db) : Identity.Db :=
  if db.tenantMembers.any fun row ↦ row.id = id ∨ row.tenantId = tenantId ∧ row.userId = userId then db
  else { db with tenantMembers := db.tenantMembers ++ [{ id, tenantId, userId }] }

section Carded

variable {id tenantId userId : Uuid} {db : Identity.Db}

theorem tenantMemberCreate_toDb (db : Db) :
    tenantMemberCreate id tenantId userId db = { db with toDb := cardedDb id tenantId userId db.toDb } := by
  unfold tenantMemberCreate cardedDb
  split_ifs <;> rfl

/-- Assumes: no keycard has the identifier. The user holds a keycard afterwards. -/
theorem cardedDb_holds (hfresh : ∀ keycard ∈ keycardOwners db, keycard.1 ≠ id) :
    HoldsKeycard userId tenantId (cardedDb id tenantId userId db) := by
  unfold cardedDb
  split_ifs with hconflict
  · obtain ⟨row, hrow, hsame⟩ := List.any_eq_true.mp hconflict
    have hkeycard : (row.id, row.userId, row.tenantId) ∈ keycardOwners db :=
      List.mem_map.mpr ⟨row, hrow, rfl⟩
    simp only [decide_eq_true_eq] at hsame
    rcases hsame with hid | ⟨rfl, rfl⟩
    · exact absurd hid (hfresh _ hkeycard)
    · exact ⟨row.id, hkeycard⟩
  · refine ⟨id, List.mem_map.mpr ⟨_, List.mem_append_right _ List.mem_cons_self, rfl⟩⟩

/-- What carding leaves: the same places, the keycards there were, and perhaps one with the identifier. -/
structure Carded (id : Uuid) (db after : Identity.Db) : Prop where
  workspaces : workspacePlaces after = workspacePlaces db
  members : memberPlaces after = memberPlaces db
  keycards : keycardOwners db ⊆ keycardOwners after
  own : ∀ keycard ∈ keycardOwners after, keycard ∈ keycardOwners db ∨ keycard.1 = id
  nextUuid : after.nextUuid = db.nextUuid

theorem cardedDb_carded : Carded id db (cardedDb id tenantId userId db) := by
  unfold cardedDb
  split_ifs
  · exact ⟨rfl, rfl, List.Subset.refl _, fun _ ↦ .inl, rfl⟩
  · have hkeycards : keycardOwners { db with
        tenantMembers := db.tenantMembers ++ [{ id, tenantId, userId }] } =
        keycardOwners db ++ [(id, userId, tenantId)] := List.map_append
    refine ⟨rfl, rfl, hkeycards ▸ List.subset_append_left _ _, fun keycard hkeycard ↦ ?_, rfl⟩
    rcases List.mem_append.mp (hkeycards ▸ hkeycard) with hold | hnew
    · exact .inl hold
    · obtain rfl := List.mem_singleton.mp hnew
      exact .inr rfl

end Carded

/-! ### Identifiers -/

/-- The step that draws an identifier. -/
theorem draw_meets (hassertion : Undisturbed number assertion) :
    enrolment.Meets number (uuidv7.traced observe) assertion
      fun id world ↦ assertion world ∧ Owns number id world := by
  refine ⟨assertion, hassertion.stable, fun _ _ h ↦ h, fun world hinv hholds _ ↦ ?_⟩
  have hsteady : SteadyStep world.db (observe world.db .other
      { world.db with nextUuid := world.db.nextUuid + 1 })
      { world.db with nextUuid := world.db.nextUuid + 1 } :=
    ⟨.other, rfl, ⟨rfl, rfl, rfl, .inr rfl⟩, rfl⟩
  refine ⟨hsteady.keeps hinv, fun _ _ heq ↦ heq ▸ ⟨hassertion.steady _ _ _ hinv hholds hsteady, ?_, ?_⟩⟩
  · exact drew_after.mpr (.inr ⟨rfl, if_neg (Nat.succ_ne_self _)⟩)
  · exact fun keycard hkeycard ↦ uuidSource.ne_next (hinv.consistent.drawn keycard hkeycard)

theorem uuidv7_steady : uuidv7.Only Steady := by
  simp only [uuidv7_eq, Call.only_atomically]
  exact fun _ ↦ ⟨⟨rfl, rfl, rfl, .inr rfl⟩, rfl⟩

/-! ### The calls of the tenancy service -/

/-- What `getWorkspace` has found is a workspace of the tenant. -/
theorem getWorkspace_meets (tenantId workspaceId : Uuid) :
    enrolment.Meets number ((getWorkspace tenantId workspaceId).traced observe) (fun _ ↦ True)
      fun _ world ↦ Located workspaceId tenantId world.db.toDb := by
  rw [getWorkspace, Call.traced_bind]
  have hquery : enrolment.Meets number ((findWorkspaceById workspaceId).traced observe) (fun _ ↦ True)
      fun found world ↦ ∀ workspace, (found.filter fun workspace ↦ workspace.deletedAt = none ∧
        workspace.tenantId = tenantId) = some workspace →
        Located workspaceId tenantId world.db.toDb := by
    refine meets_traced_query stable_true fun world hinv _ ↦ ?_
    refine ⟨SteadyStep.keeps hinv ⟨_, rfl, steady_refl _ _⟩, fun workspace hfound ↦ ?_⟩
    obtain ⟨hfind, hchecked⟩ := Option.filter_eq_some_iff.mp hfound
    have hid := List.find?_some hfind
    simp only [decide_eq_true_eq] at hid hchecked
    exact List.mem_map.mpr ⟨workspace, List.mem_of_find?_eq_some hfind,
      Prod.ext hid hchecked.2⟩
  refine hquery.bind fun found _ ↦ ?_
  rw [Call.traced_require]
  exact meets_require.conseq (fun _ _ h ↦ h) fun workspace _ _ h ↦ h.1 workspace h.2

theorem getWorkspace_steady (tenantId workspaceId : Uuid) :
    (getWorkspace tenantId workspaceId).Only Steady := by
  simp [getWorkspace, findWorkspaceById]

/-- A transaction that rolls back is a steady step. -/
theorem transaction_meets {writes : TenancyStep} {run : Db → Except Failure (α × Db)}
    {post : α → World Db EnrolmentStep → Prop} (hassertion : Undisturbed number assertion)
    (hcommit : ∀ world value after, Enrolled world → assertion world →
      AddsCarded world (observe world.db writes after) → run world.db = .ok (value, after) →
      enrolment.Keeps number world (observe world.db writes after) after ∧
        post value (world.after number (observe world.db writes after) after)) :
    enrolment.Meets number ((transaction writes run).traced observe) assertion post :=
  meets_traced_transaction hassertion.stable
    (fun _ hinv _ ↦ SteadyStep.keeps hinv ⟨_, rfl, steady_refl _ _⟩) hcommit

/-- A member that is added is there afterwards, and nothing else has changed. -/
theorem addMemberRow_places {member : WorkspaceMember} {db after : Db}
    (hadd : addMemberRow member db = .ok after) :
    memberPlaces after.toDb =
        memberPlaces db.toDb ++ [(member.workspaceId, member.tenantId, member.userId)] ∧
      after = { db with workspaceMembers := after.workspaceMembers } := by
  obtain ⟨members, hinsert, hrest⟩ := bind_eq_ok.mp hadd
  cases hrest
  have hplaces := insertWorkspaceMember_places hinsert
  exact ⟨hplaces, rfl⟩

/-- Assumes: a step that adds workspaces, keycards of the call and one member at most, who belongs to a
workspace of the tenant and holds a keycard afterwards. It keeps the protocol. -/
theorem adds_keeps {world : World Db EnrolmentStep} {writes : TenancyStep} {after : Db}
    (member : Uuid × Uuid × Uuid) (hinv : Enrolled world)
    (henrols : Enrols number world (observe world.db writes after) after)
    (hworkspaces : ((workspacePlaces after.toDb).map Prod.fst).Nodup)
    (hmembers : memberPlaces after.toDb ⊆ memberPlaces world.db.toDb ++ [member])
    (hlocated : Located member.1 member.2.1 after.toDb)
    (hcarded : HoldsKeycard member.2.2 member.2.1 after.toDb)
    (hinvitations : invitationPlaces after = invitationPlaces world.db) :
    enrolment.Keeps number world (observe world.db writes after) after := by
  refine henrols.keeps hinv hworkspaces (fun other hother ↦ ?_) fun invitation hinvitation ↦
    .inl (hinvitations ▸ hinvitation)
  rcases List.mem_append.mp (hmembers hother) with hold | hnew
  · exact .inl hold
  · obtain rfl := List.mem_singleton.mp hnew
    exact .inr ⟨hlocated, hcarded⟩

theorem addMember_meets (tenantId workspaceId userId : Uuid) :
    enrolment.Meets number ((addMember tenantId workspaceId userId).traced observe) (fun _ ↦ True)
      fun _ _ ↦ True := by
  simp only [addMember, Call.traced_bind, Call.traced_ensure]
  have hlocated : Undisturbed number fun world ↦ Located workspaceId tenantId world.db.toDb :=
    undisturbed_of_persistent (located_persistent workspaceId tenantId)
  refine (getWorkspace_meets tenantId workspaceId).bind fun _ _ ↦ ?_
  refine (hlocated.meets (traced_steady (by simp [findMember]))).bind fun existing _ ↦ ?_
  refine meets_ensure.bind fun _ _ ↦ Meets.strengthen ?_ fun _ _ h ↦ h.1
  refine (hlocated.meets (traced_steady uuidv7_steady)).bind fun id _ ↦ ?_
  refine transaction_meets hlocated fun world value after hinv hholds hpermits hrun ↦ ⟨?_, trivial⟩
  obtain ⟨stored, hadd, hrest⟩ := bind_eq_ok.mp hrun
  cases hrest
  obtain ⟨hmembers, hafter⟩ := addMemberRow_places hadd
  rw [hafter] at hmembers ⊢
  refine adds_keeps (workspaceId, tenantId, userId) hinv ⟨?_, ?_, observe_draws (.inl rfl), ?_⟩
    hinv.consistent.workspaces ?_ hholds hpermits rfl
  · exact List.Subset.refl _
  · exact List.Subset.refl _
  · exact fun _ ↦ .inl
  · exact fun _ hother ↦ hmembers ▸ hother

/-- The creator is added under the condition on the run, as in `addMember`. -/
theorem createWorkspace_meets (tenantId actorId : Uuid) (slug name : String) :
    enrolment.Meets number ((createWorkspace tenantId actorId slug name).traced observe)
      (fun _ ↦ True) fun _ _ ↦ True := by
  simp only [createWorkspace, Call.traced_bind, Call.traced_ensure]
  have htrue : Undisturbed number fun _ ↦ True := undisturbed_true
  refine (htrue.meets (traced_steady (by simp [findBySlug]))).bind fun existing _ ↦ ?_
  refine meets_ensure.bind fun _ _ ↦ Meets.strengthen ?_ fun _ _ h ↦ h.1
  refine (htrue.meets (traced_steady uuidv7_steady)).bind fun id _ ↦ ?_
  refine (htrue.meets (traced_steady uuidv7_steady)).bind fun memberId _ ↦ ?_
  refine transaction_meets htrue fun world value after hinv _ hpermits hrun ↦ ⟨?_, trivial⟩
  obtain ⟨created, hcreated, hrun⟩ := bind_eq_ok.mp hrun
  obtain ⟨stored, hadd, hrest⟩ := bind_eq_ok.mp hrun
  cases hrest
  have hplaces := insertWorkspace_places hcreated
  obtain ⟨hmembers, hafter⟩ := addMemberRow_places hadd
  rw [hafter] at hmembers ⊢
  have hcarded : HoldsKeycard actorId tenantId created := by
    rw [HoldsKeycard, hplaces.keycards]
    exact hpermits
  refine adds_keeps (id, tenantId, actorId) hinv ⟨?_, ?_, observe_draws (.inl hplaces.nextUuid), ?_⟩
    (hplaces.nodup hinv.consistent.workspaces) ?_ hplaces.located hcarded rfl
  · exact hplaces.workspaces ▸ List.subset_append_left _ _
  · exact hplaces.keycards ▸ List.Subset.refl _
  · exact fun keycard hkeycard ↦ .inl (hplaces.keycards ▸ hkeycard)
  · intro other hother
    rw [← hplaces.members]
    exact hmembers ▸ hother

/-- A transaction that commits a steady step. -/
theorem transaction_steady {writes : TenancyStep} {run : Db → Except Failure (α × Db)}
    (hcommit : ∀ db value after, run db = .ok (value, after) → Steady db writes after) :
    (transaction writes run).Only Steady :=
  Call.only_transaction (fun db ↦ steady_refl db _) hcommit

theorem deleteWorkspace_steady (tenantId workspaceId : Uuid) :
    (deleteWorkspace tenantId workspaceId).Only Steady := by
  refine Call.only_bind.mpr ⟨getWorkspace_steady _ _, fun _ _ ↦ ?_⟩
  refine transaction_steady fun db value after hrun ↦ ?_
  cases hrun
  exact ⟨⟨map_updateWhere fun _ ↦ rfl, rfl, rfl, .inl rfl⟩, rfl⟩

theorem updateMember_steady (tenantId workspaceId memberId : Uuid) (input : UpdateMemberInput) :
    (updateMember tenantId workspaceId memberId input).Only Steady := by
  simp only [updateMember, guardSoleAdmin_eq, Call.only_bind]
  refine ⟨getWorkspace_steady _ _, fun _ _ ↦ ⟨by simp [findMemberById], fun found _ ↦ ?_⟩⟩
  refine ⟨Call.only_require _ _, fun member _ ↦ ⟨trivial, fun _ _ ↦ ?_⟩⟩
  refine transaction_steady fun db value after hrun ↦ ?_
  obtain ⟨_, -, hrest⟩ := bind_eq_ok.mp hrun
  cases hrest
  exact ⟨⟨rfl, rfl, map_updateWhere fun _ ↦ rfl, .inl rfl⟩, rfl⟩

theorem removeMember_steady (tenantId workspaceId userId : Uuid) :
    (removeMember tenantId workspaceId userId).Only Steady := by
  simp only [removeMember, Call.only_bind]
  refine ⟨getWorkspace_steady _ _, fun _ _ ↦ ⟨by simp [findMember], fun existing _ ↦ ?_⟩⟩
  refine ⟨Call.only_ensure _ _, fun _ _ ↦ ?_⟩
  rw [removeMemberRow, Call.only_atomically]
  exact fun db ↦ ⟨⟨rfl, rfl, map_updateWhere fun _ ↦ rfl, .inl rfl⟩, rfl⟩

/-- A change of status leaves an invitation where it is. -/
theorem updateStatus_places (id : Uuid) (status : InvitationStatus) (acceptedBy : Option Uuid) (db : Db) :
    invitationPlaces (updateStatus id status acceptedBy db) = invitationPlaces db :=
  map_updateWhere fun _ ↦ rfl

theorem cancelInvitation_steady (tenantId workspaceId invitationId : Uuid) :
    (cancelInvitation tenantId workspaceId invitationId).Only Steady := by
  simp only [cancelInvitation, Call.only_bind]
  refine ⟨getWorkspace_steady _ _, fun _ _ ↦ ⟨by simp [findInvitationById], fun found _ ↦ ?_⟩⟩
  refine ⟨Call.only_require _ _, fun invitation _ ↦ ⟨Call.only_ensure _ _, fun _ _ ↦ ?_⟩⟩
  rw [Call.only_atomically]
  exact fun db ↦ ⟨.refl _, updateStatus_places _ _ _ db⟩

theorem expireInvitations_steady : expireInvitations.Only Steady := by
  rw [expireInvitations, Call.only_atomically]
  exact fun db ↦ ⟨.refl _, map_updateWhere fun _ ↦ rfl⟩

theorem tick_steady (milliseconds : ℕ) : (tick milliseconds).Only Steady := by
  refine transaction_steady fun db value after hrun ↦ ?_
  cases hrun
  exact ⟨⟨rfl, rfl, rfl, .inl rfl⟩, rfl⟩

/-! ### Invitations -/

/-- An invitation is inserted besides the others, for its workspace and tenant. -/
theorem insertInvitation_places {invitation : WorkspaceInvitation} {db after : Db}
    (hinsert : insertInvitation invitation db = .ok after) :
    invitationPlaces after = invitationPlaces db ++ [(invitation.workspaceId, invitation.tenantId)] ∧
      after.toDb = db.toDb := by
  unfold insertInvitation at hinsert
  split_ifs at hinsert
  cases hinsert
  exact ⟨List.map_append, rfl⟩

/-- Cancelling invitations leaves them where they are. -/
theorem cancelExistingForEmail_places (workspaceId : Uuid) (email : String) (snapshot : List Uuid)
    (db : Db) :
    invitationPlaces (cancelExistingForEmail workspaceId email snapshot db) = invitationPlaces db :=
  map_updateWhere fun _ ↦ rfl

theorem inviteMember_meets (env : Env) (invitationTtlDays : ℕ) (tenantId workspaceId : Uuid)
    (email : String) (roleId : Option RoleText) (actorId : Uuid) :
    enrolment.Meets number
      ((inviteMember env invitationTtlDays tenantId workspaceId email roleId actorId).traced observe)
      (fun _ ↦ True) fun _ _ ↦ True := by
  simp only [inviteMember, Call.traced_bind]
  have hlocated : Undisturbed number fun world ↦ Located workspaceId tenantId world.db.toDb :=
    undisturbed_of_persistent (located_persistent workspaceId tenantId)
  have hrandom : randomBytes.Only Steady := by
    simp only [randomBytes, Call.only_atomically]
    exact fun _ ↦ ⟨⟨rfl, rfl, rfl, .inl rfl⟩, rfl⟩
  have hclock : currentTime.Only Steady := by simp [currentTime]
  have hdays : (addDays invitationTtlDays).Only Steady := by simp [addDays, currentTime]
  have hsnapshot (email : String) : (snapshotInvitations workspaceId email).Only Steady := by
    simp [snapshotInvitations]
  refine (getWorkspace_meets tenantId workspaceId).bind fun _ _ ↦ ?_
  refine (hlocated.meets (traced_steady hrandom)).bind fun rawToken _ ↦ ?_
  refine (hlocated.meets (traced_steady hdays)).bind fun expiresAt _ ↦ ?_
  refine (hlocated.meets (traced_steady (hsnapshot _))).bind fun snapshot _ ↦ ?_
  refine (hlocated.meets (traced_steady uuidv7_steady)).bind fun id _ ↦ ?_
  refine (hlocated.meets (traced_steady hclock)).bind fun now _ ↦ ?_
  refine transaction_meets hlocated fun world value after hinv hholds _ hrun ↦ ⟨?_, trivial⟩
  obtain ⟨_, -, hrun⟩ := bind_eq_ok.mp hrun
  obtain ⟨stored, hinsert, hrest⟩ := bind_eq_ok.mp hrun
  cases hrest
  obtain ⟨hinvitations, hsame⟩ := insertInvitation_places hinsert
  rw [cancelExistingForEmail_places] at hinvitations
  replace hsame : after.toDb = world.db.toDb := hsame
  refine Enrols.keeps hinv ⟨?_, ?_, observe_draws (.inl (congrArg Identity.Db.nextUuid hsame)), ?_⟩ ?_
    (fun member hmember ↦ .inl (hsame ▸ hmember)) fun place hplace ↦ ?_
  · exact hsame ▸ List.Subset.refl _
  · exact hsame ▸ List.Subset.refl _
  · exact fun keycard hkeycard ↦ .inl (hsame ▸ hkeycard)
  · rw [hsame]
    exact hinv.consistent.workspaces
  · rcases List.mem_append.mp (hinvitations ▸ hplace) with hold | hnew
    · exact .inl hold
    · obtain rfl := List.mem_singleton.mp hnew
      exact .inr (hsame ▸ hholds)

/-- The membership of `acceptInvitation` is one of the accepting user in the workspace. -/
theorem addMemberUnless_places {existing : Option WorkspaceMember} {member : WorkspaceMember}
    {db after : Db} (hadd : addMemberUnless existing member db = .ok after) :
    memberPlaces after.toDb ⊆
        memberPlaces db.toDb ++ [(member.workspaceId, member.tenantId, member.userId)] ∧
      after = { db with workspaceMembers := after.workspaceMembers } := by
  unfold addMemberUnless at hadd
  split_ifs at hadd
  · cases hadd
    exact ⟨List.subset_append_left _ _, rfl⟩
  · obtain ⟨hmembers, hafter⟩ := addMemberRow_places hadd
    exact ⟨fun _ hother ↦ hmembers ▸ hother, hafter⟩

/-- Assumes: the call has drawn the identifier of the keycard, and the workspace is one of the tenant. The
accepting user is carded and made a member in one transaction. -/
theorem enroll_meets (invitation : WorkspaceInvitation) (acceptingUserId keycardId memberId : Uuid)
    (existing : Option WorkspaceMember) :
    enrolment.Meets number
      ((enroll invitation acceptingUserId keycardId memberId existing).traced observe)
      (fun world ↦ Located invitation.workspaceId invitation.tenantId world.db.toDb ∧
        Owns number keycardId world) fun _ _ ↦ True := by
  have hassertion : Undisturbed number fun world ↦
      Located invitation.workspaceId invitation.tenantId world.db.toDb ∧ Owns number keycardId world :=
    (undisturbed_of_persistent (located_persistent _ _)).and (owns_undisturbed number keycardId)
  refine transaction_meets hassertion fun world value after hinv hholds _ hrun ↦ ⟨?_, trivial⟩
  obtain ⟨hlocated, hdrew, hunused⟩ := hholds
  obtain ⟨stored, hadd, hrest⟩ := bind_eq_ok.mp hrun
  cases hrest
  rw [tenantMemberCreate_toDb] at hadd
  obtain ⟨hmembers, hstored⟩ := addMemberUnless_places hadd
  have hholds : HoldsKeycard acceptingUserId invitation.tenantId
      (cardedDb keycardId invitation.tenantId acceptingUserId world.db.toDb) := cardedDb_holds hunused
  have hcarded : Carded keycardId world.db.toDb
      (cardedDb keycardId invitation.tenantId acceptingUserId world.db.toDb) := cardedDb_carded
  generalize cardedDb keycardId invitation.tenantId acceptingUserId world.db.toDb = carded at *
  rw [hstored] at hmembers ⊢
  refine adds_keeps (invitation.workspaceId, invitation.tenantId, acceptingUserId) hinv
    ⟨?_, hcarded.keycards, observe_draws (.inl hcarded.nextUuid), fun keycard hkeycard ↦ ?_⟩ ?_ ?_ ?_
    hholds (updateStatus_places _ _ _ _)
  · exact hcarded.workspaces ▸ List.Subset.refl _
  · rcases hcarded.own keycard hkeycard with hold | rfl
    · exact .inl hold
    · exact .inr hdrew
  · change ((workspacePlaces carded).map Prod.fst).Nodup
    rw [hcarded.workspaces]
    exact hinv.consistent.workspaces
  · exact fun other hother ↦ hcarded.members ▸ hmembers hother
  · change _ ∈ workspacePlaces carded
    rw [hcarded.workspaces]
    exact hlocated

theorem acceptInvitation_meets (env : Env) (rawToken : RawToken) (acceptingUserId : Uuid) :
    enrolment.Meets number ((acceptInvitation env rawToken acceptingUserId).traced observe)
      (fun _ ↦ True) fun _ _ ↦ True := by
  simp only [acceptInvitation, Call.traced_bind, Call.traced_require, Call.traced_ensure]
  have hquery : enrolment.Meets number ((findByTokenHash (env.hashToken rawToken)).traced observe)
      (fun _ ↦ True) fun found world ↦ ∀ invitation, found = some invitation →
        Located invitation.workspaceId invitation.tenantId world.db.toDb := by
    refine meets_traced_query stable_true fun world hinv _ ↦ ?_
    refine ⟨SteadyStep.keeps hinv ⟨_, rfl, steady_refl _ _⟩, fun invitation hfound ↦ ?_⟩
    exact hinv.consistent.invitations _
      (List.mem_map.mpr ⟨invitation, List.mem_of_find?_eq_some hfound, rfl⟩)
  refine hquery.bind fun found _ ↦ meets_require.bind fun invitation _ ↦ ?_
  have hlocated : Undisturbed number fun world ↦
      Located invitation.workspaceId invitation.tenantId world.db.toDb :=
    undisturbed_of_persistent (located_persistent _ _)
  refine Meets.strengthen ?_ fun world _ h ↦ h.1 invitation h.2
  refine meets_ensure.bind fun _ _ ↦ Meets.strengthen ?_ fun _ _ h ↦ h.1
  refine (hlocated.meets (traced_steady (by simp [currentTime]))).bind fun now _ ↦ ?_
  refine meets_ensure.bind fun _ _ ↦ Meets.strengthen ?_ fun _ _ h ↦ h.1
  refine (hlocated.meets (traced_steady (by simp [findMember]))).bind fun existing _ ↦ ?_
  refine (draw_meets hlocated).bind fun keycardId _ ↦ ?_
  refine ((hlocated.and (owns_undisturbed number keycardId)).meets (traced_steady uuidv7_steady)).bind
    fun memberId _ ↦ ?_
  exact enroll_meets invitation acceptingUserId keycardId memberId existing

/-- A call that is steady keeps the protocol. -/
theorem steady_meets {call : TenancyCall α} (hcall : call.Only Steady) :
    enrolment.Meets number (call.traced observe) (fun _ ↦ True) fun _ _ ↦ True :=
  undisturbed_true.meets (traced_steady hcall)

/-- The calls of the tenancy service keep the protocol. -/
theorem tenancy_meets (env : Env) (invitationTtlDays : ℕ) (request : TenancyRequest) :
    enrolment.Meets number ((request.serve env invitationTtlDays).traced observe) (fun _ ↦ True)
      fun _ _ ↦ True := by
  cases request with
  | createWorkspace tenantId actorId slug name =>
    simpa only [TenancyRequest.serve, Call.traced_map] using
      (createWorkspace_meets tenantId actorId slug name).map
  | deleteWorkspace tenantId workspaceId => exact steady_meets (deleteWorkspace_steady _ _)
  | addMember tenantId workspaceId userId =>
    simpa only [TenancyRequest.serve, Call.traced_map] using
      (addMember_meets tenantId workspaceId userId).map
  | updateMember tenantId workspaceId memberId input =>
    exact steady_meets (Call.only_map (updateMember_steady _ _ _ _))
  | removeMember tenantId workspaceId userId => exact steady_meets (removeMember_steady _ _ _)
  | inviteMember tenantId workspaceId email roleId actorId =>
    simpa only [TenancyRequest.serve, Call.traced_map] using
      (inviteMember_meets env invitationTtlDays tenantId workspaceId email roleId actorId).map
  | cancelInvitation tenantId workspaceId invitationId =>
    exact steady_meets (cancelInvitation_steady _ _ _)
  | acceptInvitation rawToken acceptingUserId =>
    exact acceptInvitation_meets env rawToken acceptingUserId
  | expireInvitations => exact steady_meets expireInvitations_steady
  | tick milliseconds => exact steady_meets (tick_steady milliseconds)

/-! ### Signup -/

/-- Assumes: a call that leaves workspaces, keycards, members and the counter of identifiers alone. It
leaves who belongs where alone. -/
theorem places_of_leaves {call : AuthCall α} (hworkspaces : call.Only (Leaves .workspaces))
    (hkeycards : call.Only (Leaves .tenantMembers)) (hmembers : call.Only (Leaves .workspaceMembers))
    (huuids : call.Only (Leaves .uuids)) : call.Only fun db _ after ↦ SamePlaces db after :=
  ((hworkspaces.and hkeycards).and (hmembers.and huuids)).mono
    fun _ _ _ ⟨⟨hworkspaces, hkeycards⟩, hmembers, huuids⟩ ↦
      ⟨congrArg (List.map _) hworkspaces, congrArg (List.map _) hkeycards,
        congrArg (List.map _) hmembers, .inl huuids⟩

theorem uuidv7_places : Identity.uuidv7.Only fun db _ after ↦ SamePlaces db after := by
  simp only [Identity.uuidv7_eq, Call.only_atomically]
  exact fun _ ↦ ⟨rfl, rfl, rfl, .inr rfl⟩

theorem issueSession_places (env : Env) (user : User) (sessionId : Uuid) (permissions : List String)
    (tenantId : Uuid) (authMethod : AuthMethod) (ttlSeconds : ℕ) (ipAddress ssoProvider : Option String) :
    (issueSession env user sessionId permissions tenantId authMethod ttlSeconds ipAddress
      ssoProvider).Only fun db _ after ↦ SamePlaces db after := by
  have hrandom : Identity.randomBytes.Only fun db _ after ↦ SamePlaces db after :=
    places_of_leaves (by simp) (by simp) (by simp) (by simp)
  have hopen (session : AuthSession) :
      (createSession session).Only fun db _ after ↦ SamePlaces db after :=
    places_of_leaves (by simp) (by simp) (by simp) (by simp)
  simp [issueSession, signAccessToken, generateRefreshToken, expiryAfter, Identity.currentTime,
    uuidv7_places, hrandom, hopen, SamePlaces.refl]

/-- Assumes: a statement, where it succeeds, leaves who belongs where alone. -/
theorem statement_places {run : Identity.Db → Except Failure (α × Identity.Db)}
    (hrun : ∀ db value after, run db = .ok (value, after) → SamePlaces db after) :
    (statement run).Only fun db _ after ↦ SamePlaces db after :=
  Call.only_attempt _ _ (fun db _ _ ↦ SamePlaces.refl db) hrun

theorem touchLastActive_places (userId tenantId : Uuid) :
    (touchLastActive userId tenantId).Only fun db _ after ↦ SamePlaces db after := by
  refine statement_places fun db value after hrun ↦ ?_
  cases hrun
  exact ⟨rfl, map_updateWhere fun _ ↦ rfl, rfl, .inl rfl⟩

theorem ensureDefaultRole_places (userId tenantId : Uuid) (defaultRoleSlug : String) :
    (ensureDefaultRole userId tenantId defaultRoleSlug).Only fun db _ after ↦ SamePlaces db after :=
  ensureDefaultRole_only SamePlaces.refl uuidv7_places
    (fun _ ↦ places_of_leaves (by simp) (by simp) (by simp) (by simp)) userId tenantId defaultRoleSlug

/-! ### Signup in the tenancy store -/

theorem lift_bind {β : Type} (call : AuthCall α) (rest : α → AuthCall β) :
    lift (call >>= rest) = lift call >>= fun value ↦ lift (rest value) :=
  Call.within_bind rest

theorem lift_ensure (condition : Prop) [Decidable condition] (failure : Failure) :
    lift (Call.ensure condition failure) = Call.ensure condition failure := by
  unfold Call.ensure
  split_ifs <;> rfl

/-- A read of the identity store. -/
theorem query_meets {read : Identity.Db → α} {post : α → World Db EnrolmentStep → Prop}
    (hpost : ∀ world, Enrolled world →
      post (read world.db.toDb) (world.after number (observe world.db .other world.db) world.db)) :
    enrolment.Meets number ((lift (Call.query .other read)).traced observe) (fun _ ↦ True) post :=
  meets_traced_query stable_true fun world hinv _ ↦
    ⟨SteadyStep.keeps hinv ⟨_, rfl, steady_refl _ _⟩, hpost world hinv⟩

/-- A statement of signup. A failure changes nothing. -/
theorem statement_meets {run : Identity.Db → Except Failure (α × Identity.Db)}
    {post : α → World Db EnrolmentStep → Prop} (hassertion : Undisturbed number assertion)
    (hrun : ∀ world value after, Enrolled world → assertion world →
      run world.db.toDb = .ok (value, after) →
      enrolment.Keeps number world (observe world.db .other { world.db with toDb := after })
        { world.db with toDb := after } ∧
        post value (world.after number (observe world.db .other { world.db with toDb := after })
          { world.db with toDb := after })) :
    enrolment.Meets number ((lift (statement run)).traced observe) assertion post := by
  refine ⟨assertion, hassertion.stable, fun _ _ h ↦ h, fun world hinv hholds _ ↦ ?_⟩
  dsimp only [identityPart]
  cases hresult : run world.db.toDb with
  | error failure => exact ⟨SteadyStep.keeps hinv ⟨_, rfl, steady_refl _ _⟩, trivial⟩
  | ok result =>
    obtain ⟨hkeeps, hpost⟩ := hrun world result.1 result.2 hinv hholds hresult
    exact ⟨hkeeps, fun _ _ heq ↦ heq ▸ hpost⟩

/-- The workspace that is inserted after its tenant. -/
theorem insertTenant_places {tenant : Tenant} {workspace : Workspace} {db middle after : Identity.Db}
    (htenant : insertTenant tenant db = .ok middle)
    (hworkspace : insertWorkspace workspace middle = .ok after) :
    Places (workspace.id, workspace.tenantId) db after := by
  unfold insertTenant at htenant
  split_ifs at htenant
  cases htenant
  obtain ⟨hworkspaces, hfresh, hkeycards, hmembers, hnext⟩ := insertWorkspace_places hworkspace
  exact ⟨hworkspaces, hfresh, hkeycards, hmembers, hnext⟩

/-- The claim of a domain does not matter here. -/
theorem Places.claim {place : Uuid × Uuid} {claim : TenantDomain} {db middle after : Identity.Db}
    (hplaces : Places place db middle) (hclaim : insertTenantDomain claim middle = .ok after) :
    Places place db after := by
  unfold insertTenantDomain at hclaim
  split_ifs at hclaim
  cases hclaim
  obtain ⟨hworkspaces, hfresh, hkeycards, hmembers, hnext⟩ := hplaces
  exact ⟨hworkspaces, hfresh, hkeycards, hmembers, hnext⟩

/-- The workspace of a new tenant. -/
theorem provisionTenant_meets (env : Env) (orgName : String) (primaryDomain : Option String) :
    enrolment.Meets number ((lift (provisionTenant env orgName primaryDomain)).traced observe)
      (fun _ ↦ True) fun created world ↦ Located created.2.id created.1.id world.db.toDb := by
  simp only [provisionTenant, lift_bind, Call.traced_bind]
  have htrue : Undisturbed number fun _ ↦ True := undisturbed_true
  have hrandom : Identity.randomBytes.Only fun db _ after ↦ SamePlaces db after :=
    places_of_leaves (by simp) (by simp) (by simp) (by simp)
  refine (htrue.meets (lift_steady uuidv7_places)).bind fun tenantId _ ↦ ?_
  refine (htrue.meets (lift_steady hrandom)).bind fun suffix _ ↦ ?_
  refine (htrue.meets (lift_steady uuidv7_places)).bind fun workspaceId _ ↦ ?_
  refine (htrue.meets (lift_steady uuidv7_places)).bind fun claimId _ ↦ ?_
  refine statement_meets htrue fun world created after hinv _ hrun ↦ ?_
  have hplaces : Places (created.2.id, created.1.id) world.db.toDb after := by
    obtain ⟨withTenant, htenant, hcreated⟩ := bind_eq_ok.mp hrun
    obtain ⟨withWorkspace, hworkspace, hrest⟩ := bind_eq_ok.mp hcreated
    have hplaces := insertTenant_places htenant hworkspace
    clear hrun hcreated
    cases primaryDomain with
    | none =>
      cases hrest
      exact hplaces
    | some domain =>
      obtain ⟨withClaim, hclaim, hlast⟩ := bind_eq_ok.mp hrest
      cases hlast
      exact hplaces.claim hclaim
  refine ⟨Enrols.keeps hinv ⟨?_, ?_, observe_draws (.inl hplaces.nextUuid), ?_⟩
    (hplaces.nodup hinv.consistent.workspaces) (fun member hmember ↦ .inl (hplaces.members ▸ hmember))
    fun invitation ↦ .inl, hplaces.located⟩
  · exact hplaces.workspaces ▸ List.subset_append_left _ _
  · exact hplaces.keycards ▸ List.Subset.refl _
  · exact fun keycard hkeycard ↦ .inl (hplaces.keycards ▸ hkeycard)

/-- The workspace of an auto-join domain is one of the tenant. -/
theorem findAutoJoinTarget_meets (env : Env) (domain : String) :
    enrolment.Meets number ((lift (findAutoJoinTarget env domain)).traced observe) (fun _ ↦ True)
      fun target world ↦ ∀ place, target = some place → Located place.2 place.1 world.db.toDb := by
  have hclaim : (findByDomain (env.toLowerCase domain)).Only fun db _ after ↦ SamePlaces db after := by
    simp [findByDomain, SamePlaces.refl]
  simp only [findAutoJoinTarget, lift_bind, Call.traced_bind]
  refine (undisturbed_true.meets (lift_steady hclaim)).bind fun claim _ ↦ ?_
  cases claim with
  | none => exact meets_pure fun _ _ _ _ hnone ↦ by cases hnone
  | some claim =>
    dsimp only
    split_ifs
    · exact meets_pure fun _ _ _ _ hnone ↦ by cases hnone
    · rw [lift_bind, Call.traced_bind]
      have hfirst : enrolment.Meets number ((lift (firstWorkspace claim.tenantId)).traced observe)
          (fun _ ↦ True) fun found world ↦ ∀ workspace, found = some workspace →
            Located workspace.id claim.tenantId world.db.toDb := by
        refine query_meets fun world _ workspace hfound ↦ ?_
        have hmem := (List.mem_insertionSort _).mp (List.mem_of_head? hfound)
        obtain ⟨hrow, hchecked⟩ := List.mem_filter.mp hmem
        simp only [decide_eq_true_eq] at hchecked
        exact List.mem_map.mpr ⟨workspace, hrow, Prod.ext rfl hchecked.1⟩
      refine hfirst.bind fun found _ ↦ meets_pure fun world _ hlocated place hplace ↦ ?_
      obtain ⟨workspace, hworkspace, rfl⟩ := Option.map_eq_some_iff.mp hplace
      exact hlocated workspace hworkspace

/-- Signup joins or creates a workspace of the tenant it returns. -/
theorem resolveSignupTenant_meets (env : Env) (input : SignupInput) (email : String) :
    enrolment.Meets number ((lift (resolveSignupTenant env input email)).traced observe) (fun _ ↦ True)
      fun resolved world ↦ Located resolved.2.1 resolved.1 world.db.toDb := by
  simp only [resolveSignupTenant, lift_bind, Call.traced_bind]
  refine (findAutoJoinTarget_meets env _).bind fun target _ ↦ ?_
  cases target with
  | some target => exact meets_pure fun world _ hlocated ↦ hlocated target rfl
  | none =>
    have hclaimed (domain : String) :
        (isDomainClaimed env domain).Only fun db _ after ↦ SamePlaces db after := by
      simp [isDomainClaimed, findByDomain, SamePlaces.refl]
    have hrest (orgName : String) (domain : Option String) : enrolment.Meets number
        ((lift (provisionTenant env orgName domain >>= fun created ↦
          pure (created.1.id, created.2.id, "workspace_admin"))).traced observe) (fun _ ↦ True)
        fun resolved world ↦ Located resolved.2.1 resolved.1 world.db.toDb := by
      rw [lift_bind, Call.traced_bind]
      exact (provisionTenant_meets env _ _).bind fun created _ ↦ meets_pure fun _ _ hlocated ↦ hlocated
    refine Meets.strengthen ?_ fun _ _ _ ↦ trivial
    dsimp only
    split_ifs
    · exact hrest _ _
    · rw [lift_bind, Call.traced_bind]
      exact (undisturbed_true.meets (lift_steady (hclaimed _))).bind fun claimed _ ↦ hrest _ _

theorem createTenantMember_eq (id tenantId userId : Uuid) :
    createTenantMember id tenantId userId =
      statement fun db ↦ .ok ((), cardedDb id tenantId userId db) := by
  unfold createTenantMember cardedDb
  congr
  funext db
  split_ifs <;> rfl

/-- Assumes: the call has drawn the identifier of the keycard. The user holds one afterwards. -/
theorem createTenantMember_meets (keycardId tenantId workspaceId userId : Uuid) :
    enrolment.Meets number ((lift (createTenantMember keycardId tenantId userId)).traced observe)
      (fun world ↦ Located workspaceId tenantId world.db.toDb ∧ Owns number keycardId world)
      fun _ world ↦ Located workspaceId tenantId world.db.toDb ∧
        HoldsKeycard userId tenantId world.db.toDb := by
  rw [createTenantMember_eq]
  refine statement_meets ((undisturbed_of_persistent (located_persistent _ _)).and
    (owns_undisturbed number keycardId)) fun world value after hinv hholds hrun ↦ ?_
  obtain ⟨hlocated, hdrew, hunused⟩ := hholds
  cases hrun
  have hcarded : Carded keycardId world.db.toDb (cardedDb keycardId tenantId userId world.db.toDb) :=
    cardedDb_carded
  have hplaces : workspacePlaces world.db.toDb ⊆
      workspacePlaces (cardedDb keycardId tenantId userId world.db.toDb) :=
    hcarded.workspaces ▸ List.Subset.refl _
  refine ⟨Enrols.keeps hinv ⟨hplaces, hcarded.keycards, observe_draws (.inl hcarded.nextUuid),
    fun keycard hkeycard ↦ ?_⟩ ?_ (fun member hmember ↦ .inl (hcarded.members ▸ hmember))
    fun invitation ↦ .inl, hplaces hlocated, cardedDb_holds hunused⟩
  · rcases hcarded.own keycard hkeycard with hold | rfl
    · exact .inl hold
    · exact .inr hdrew
  · change ((workspacePlaces (cardedDb keycardId tenantId userId world.db.toDb)).map Prod.fst).Nodup
    rw [hcarded.workspaces]
    exact hinv.consistent.workspaces

/-- Assumes: the workspace is one of the tenant. The user is carded and then made a member. -/
theorem enrollMember_meets (tenantId workspaceId userId : Uuid) :
    enrolment.Meets number ((lift (enrollMember tenantId workspaceId userId)).traced observe)
      (fun world ↦ Located workspaceId tenantId world.db.toDb) fun _ _ ↦ True := by
  simp only [enrollMember, lift_bind, Call.traced_bind]
  have hlocated : Undisturbed number fun world ↦ Located workspaceId tenantId world.db.toDb :=
    undisturbed_of_persistent (located_persistent _ _)
  have hcarded : Undisturbed number fun world ↦ Located workspaceId tenantId world.db.toDb ∧
      HoldsKeycard userId tenantId world.db.toDb :=
    hlocated.and (undisturbed_of_persistent (holdsKeycard_persistent _ _))
  refine (draw_meets hlocated).bind fun keycardId _ ↦ ?_
  refine (createTenantMember_meets keycardId tenantId workspaceId userId).bind fun _ _ ↦ ?_
  refine (hcarded.meets (lift_steady uuidv7_places)).bind fun memberId _ ↦ ?_
  refine statement_meets hcarded fun world value after hinv hholds hrun ↦ ⟨?_, trivial⟩
  obtain ⟨members, hinsert, hrest⟩ := bind_eq_ok.mp hrun
  cases hrest
  have hmembers := insertWorkspaceMember_places hinsert
  refine adds_keeps (workspaceId, tenantId, userId) hinv ⟨?_, ?_, observe_draws (.inl rfl), ?_⟩
    hinv.consistent.workspaces ?_ hholds.1 hholds.2 rfl
  · exact List.Subset.refl _
  · exact List.Subset.refl _
  · exact fun _ ↦ .inl
  · exact fun _ hother ↦ hmembers ▸ hother

/-- Signup keeps the protocol: whoever it makes a member, it has carded before. -/
theorem signup_meets (env : Env) (input : SignupInput) (ipAddress : Option String) :
    enrolment.Meets number ((lift (Identity.signup env input ipAddress)).traced observe) (fun _ ↦ True)
      fun _ _ ↦ True := by
  simp only [Identity.signup, lift_bind, lift_ensure, Call.traced_bind, Call.traced_ensure]
  have htrue : Undisturbed number fun _ ↦ True := undisturbed_true
  have hfind (email : String) : (findByEmail email).Only fun db _ after ↦ SamePlaces db after := by
    simp [findByEmail, SamePlaces.refl]
  have huser (user : User) : (statement (insertUser user)).Only fun db _ after ↦ SamePlaces db after :=
    places_of_leaves (by simp) (by simp) (by simp) (by simp)
  have hmemberships (userId : Uuid) :
      (getMemberships userId).Only fun db _ after ↦ SamePlaces db after :=
    places_of_leaves (by simp) (by simp) (by simp) (by simp)
  have hpermissions (userId tenantId : Uuid) :
      (getUserPermissions userId tenantId).Only fun db _ after ↦ SamePlaces db after :=
    places_of_leaves (by simp) (by simp) (by simp) (by simp)
  refine (htrue.meets (lift_steady (hfind _))).bind fun existing _ ↦ ?_
  refine meets_ensure.bind fun _ _ ↦ Meets.strengthen ?_ fun _ _ _ ↦ trivial
  refine (resolveSignupTenant_meets env input _).bind fun resolved _ ↦ ?_
  have hlocated : Undisturbed number fun world ↦ Located resolved.2.1 resolved.1 world.db.toDb :=
    undisturbed_of_persistent (located_persistent _ _)
  refine (hlocated.meets (lift_steady uuidv7_places)).bind fun userId _ ↦ ?_
  refine (hlocated.meets (lift_steady (huser _))).bind fun user _ ↦ ?_
  refine (enrollMember_meets resolved.1 resolved.2.1 user.id).bind fun _ _ ↦ ?_
  refine (htrue.meets (lift_steady (ensureDefaultRole_places _ _ _))).bind fun _ _ ↦ ?_
  refine (htrue.meets (lift_steady uuidv7_places)).bind fun sessionId _ ↦ ?_
  refine (htrue.meets (lift_steady (hmemberships _))).bind fun memberships _ ↦ ?_
  refine (htrue.meets (lift_steady (hpermissions _ _))).bind fun permissions _ ↦ ?_
  refine (htrue.meets (lift_steady (issueSession_places env _ _ _ _ _ _ _ _))).bind fun issued _ ↦ ?_
  exact (htrue.meets (lift_steady (touchLastActive_places _ _))).bind fun _ _ ↦ meets_pure fun _ _ _ ↦
    trivial

/-! ### No ghosts -/

theorem serve_meets (env : Env) (invitationTtlDays : ℕ) (request : EnrolmentRequest) :
    enrolment.Meets number (request.serve env invitationTtlDays) (fun _ ↦ True) fun _ _ ↦ True := by
  cases request with
  | signup input ipAddress => exact (signup_meets env input ipAddress).map
  | tenancy request => exact tenancy_meets env invitationTtlDays request

/-- A run of signups, calls of the tenancy service and the cleanup cron. -/
abbrev EnrolmentRun := Config Db EnrolmentStep Failure Unit

/-- Assumes: a run from a consistent store, such as the empty one, in which each user who is added as a
member holds a keycard for the tenant at that moment. In every state it reaches, each active member of a
workspace has a keycard for its tenant. -/
theorem noGhosts {env : Env} {invitationTtlDays : ℕ} {db : Db} {config : EnrolmentRun}
    (hconsistent : Consistent db)
    (hreach : Reachable (EnrolmentRequest.serve env invitationTtlDays) AddsCarded db config) :
    NoGhosts config.db := by
  have hnothing (number : ℕ) (id : Uuid) : ¬ Drew number id ⟨db, []⟩ := fun ⟨_, hdrew⟩ ↦ by cases hdrew
  have hinitial : Enrolled ⟨db, []⟩ :=
    ⟨hconsistent, fun number id hdrew ↦ absurd hdrew (hnothing number id),
      fun first _ id hdrew ↦ absurd hdrew (hnothing first id)⟩
  have hinv : Enrolled config.toWorld := reachable_invariant
    (fun request number ↦ (serve_meets env invitationTtlDays request).strengthen fun _ _ _ ↦ trivial)
    hinitial hreach
  exact hinv.consistent.everyoneCarded

/-- A tenant and a workspace make a consistent store. -/
theorem exampleDb_consistent : Consistent exampleDb where
  workspaces := by decide
  drawn := by decide
  located := by decide
  carded := by decide
  invitations := by decide

/-- A user signs up, another one accepts an invitation and creates a workspace of the same tenant. -/
def enrolledInTurn : List (Choice EnrolmentRequest) :=
  [.start (.signup { email := "bob@example.com", password := "secret", displayName := "Bob" } none)] ++
    finish 0 ++ finish 0 ++
    .start (.tenancy (.inviteMember 2 4 "ada@example.com" none 1)) :: finish 1 ++
    .start (.tenancy (.acceptInvitation 2 21)) :: finish 2 ++
    .start (.tenancy (.createWorkspace 2 21 "lab" "Lab")) :: finish 3

/-- A witness that the condition can be met: signup, invitation and creation of a workspace, one after the
other. -/
theorem noGhosts_witness :
    NoGhosts ((Config.initial exampleDb : EnrolmentRun).play (EnrolmentRequest.serve exampleEnv 7)
      enrolledInTurn).db :=
  noGhosts exampleDb_consistent (play_reachable (by decide +kernel))

/-- The assumption on `createWorkspace`: each actor holds a keycard for the tenant from the beginning. -/
def CreatorsCarded (db : Db) (choices : List (Choice EnrolmentRequest)) : Prop :=
  ∀ tenantId actorId slug name,
    .start (.tenancy (.createWorkspace tenantId actorId slug name)) ∈ choices →
    HoldsKeycard actorId tenantId db.toDb

/-- A user without a keycard is added to the workspace. -/
def strangerAdded : List (Choice EnrolmentRequest) := .start (.tenancy (.addMember 2 4 21)) :: finish 0

/-- The user is a ghost then: no path but `addMember` leaves one. -/
theorem ghostAdded :
    ¬ ∀ (env : Env) (invitationTtlDays : ℕ) (db : Db) (choices : List (Choice EnrolmentRequest)),
      Consistent db → CreatorsCarded db choices →
      NoGhosts ((Config.initial db : EnrolmentRun).play (EnrolmentRequest.serve env invitationTtlDays)
        choices).db := by
  intro halways
  have hcreators : CreatorsCarded exampleDb strangerAdded := by
    intro tenantId actorId slug name hmem
    simp [strangerAdded, finish] at hmem
  have hnone := halways exampleEnv 7 exampleDb strangerAdded exampleDb_consistent hcreators
  exact absurd hnone (by decide +kernel)

end RallyApi.Tenancy

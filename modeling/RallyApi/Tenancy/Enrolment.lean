import RallyApi.Concurrency.Outcomes
import RallyApi.Concurrency.Part
import RallyApi.Concurrency.Traces
import RallyApi.Identity.QuietSteps
import RallyApi.Tenancy.TenancyService

/-!
# Members and keycards

A member of a workspace is a row of `workspace_members`; the keycard of a user for a tenant is a row of
`tenant_members`. Signup writes both, in the identity store, which is a part of the tenancy store. A step
of the system carries what it writes, and which identifier it draws.

The protocol `enrolment` says what the calls keep to: workspaces and keycards are not taken away, a member
and an invitation belong to a workspace of their tenant, every member holds a keycard, and a new keycard
has an identifier that the call has drawn itself. Most steps are `Steady`: they leave who belongs where as
it is.
-/

set_option autoImplicit false
set_option relaxedAutoImplicit false

namespace RallyApi.Tenancy

open Concurrency Protocol Identity Platform Store

/-! ### The system -/

/-- The identity store in the tenancy store. -/
def identityPart : Part Db Identity.Db where
  get db := db.toDb
  put identity db := { db with toDb := identity }
  put_get _ := rfl

/-- What a step writes to members and invitations, and the identifier it draws. -/
structure EnrolmentStep where
  writes : TenancyStep
  drew : Option Uuid
  deriving DecidableEq, Repr

/-- The label of a step from what it has done. -/
def observe (db : Db) (writes : TenancyStep) (after : Db) : EnrolmentStep :=
  ⟨writes, if after.nextUuid = db.nextUuid then none else some db.nextUuid⟩

/-- A call of the identity service, in the tenancy store. It writes neither members nor invitations under
a label of the tenancy service. -/
def lift {α : Type} (call : AuthCall α) : TenancyCall α := call.within identityPart fun _ ↦ .other

/-- The calls that write members: signup, and the calls of the tenancy service. -/
inductive EnrolmentRequest
  | signup (input : SignupInput) (ipAddress : Option String)
  | tenancy (request : TenancyRequest)

/-- The call that serves a request. -/
def EnrolmentRequest.serve (env : Env) (invitationTtlDays : ℕ) :
    EnrolmentRequest → Call Db EnrolmentStep Failure Unit
  | .signup input ipAddress =>
    (fun _ ↦ ()) <$> (lift (Identity.signup env input ipAddress)).traced observe
  | .tenancy request => (request.serve env invitationTtlDays).traced observe

/-! ### Who belongs where -/

/-- The workspaces, each with its tenant. -/
def workspacePlaces (db : Identity.Db) : List (Uuid × Uuid) :=
  db.workspaces.map fun workspace ↦ (workspace.id, workspace.tenantId)

/-- The keycards: identifier, user and tenant. -/
def keycardOwners (db : Identity.Db) : List (Uuid × Uuid × Uuid) :=
  db.tenantMembers.map fun row ↦ (row.id, row.userId, row.tenantId)

/-- The members of workspaces, whatever their status: workspace, tenant and user. -/
def memberPlaces (db : Identity.Db) : List (Uuid × Uuid × Uuid) :=
  db.workspaceMembers.map fun member ↦ (member.workspaceId, member.tenantId, member.userId)

/-- The invitations, whatever their status: workspace and tenant. -/
def invitationPlaces (db : Db) : List (Uuid × Uuid) :=
  db.workspaceInvitations.map fun invitation ↦ (invitation.workspaceId, invitation.tenantId)

/-- The workspace is one of the tenant. -/
def Located (workspaceId tenantId : Uuid) (db : Identity.Db) : Prop :=
  (workspaceId, tenantId) ∈ workspacePlaces db

/-- The user has a keycard for the tenant. -/
def HoldsKeycard (userId tenantId : Uuid) (db : Identity.Db) : Prop :=
  ∃ id, (id, userId, tenantId) ∈ keycardOwners db

instance (workspaceId tenantId : Uuid) (db : Identity.Db) : Decidable (Located workspaceId tenantId db) :=
  inferInstanceAs (Decidable (_ ∈ workspacePlaces db))

instance (userId tenantId : Uuid) (db : Identity.Db) : Decidable (HoldsKeycard userId tenantId db) :=
  decidable_of_iff (∃ keycard ∈ keycardOwners db, keycard.2 = (userId, tenantId))
    ⟨fun ⟨keycard, hmem, hsame⟩ ↦ ⟨keycard.1, hsame ▸ hmem⟩, fun ⟨_, hmem⟩ ↦ ⟨_, hmem, rfl⟩⟩

/-- A consistent store: workspaces have distinct identifiers, the identifiers of keycards have been drawn,
and each member and each invitation belongs to a workspace of its tenant, the member with a keycard. -/
structure Consistent (db : Db) : Prop where
  workspaces : ((workspacePlaces db.toDb).map Prod.fst).Nodup
  drawn : ∀ keycard ∈ keycardOwners db.toDb, keycard.1 < db.nextUuid
  located : ∀ member ∈ memberPlaces db.toDb, Located member.1 member.2.1 db.toDb
  carded : ∀ member ∈ memberPlaces db.toDb, HoldsKeycard member.2.2 member.2.1 db.toDb
  invitations : ∀ invitation ∈ invitationPlaces db, Located invitation.1 invitation.2 db.toDb

/-- Every active member of a workspace has a keycard for its tenant. -/
def NoGhosts (db : Db) : Prop :=
  ∀ member ∈ db.workspaceMembers, member.status = .active → ∀ workspace ∈ db.workspaces,
    workspace.id = member.workspaceId → ∃ keycard ∈ db.tenantMembers,
      keycard.tenantId = workspace.tenantId ∧ keycard.userId = member.userId

instance (db : Db) : Decidable (NoGhosts db) :=
  inferInstanceAs (Decidable (∀ member ∈ _, _ → ∀ workspace ∈ _, _ → ∃ keycard ∈ _, _ ∧ _))

/-- A consistent store has no ghosts, of any status. -/
theorem Consistent.everyoneCarded {db : Db} (hconsistent : Consistent db) : NoGhosts db := by
  intro member hmember _ workspace hworkspace hid
  have hplace := List.mem_map_of_mem
    (f := fun member : WorkspaceMember ↦ (member.workspaceId, member.tenantId, member.userId)) hmember
  have htenant : workspace.tenantId = member.tenantId := by
    have hlisted := List.mem_map_of_mem
      (f := fun workspace : Workspace ↦ (workspace.id, workspace.tenantId)) hworkspace
    have hsame := List.inj_on_of_nodup_map hconsistent.workspaces hlisted
      (hconsistent.located _ hplace) hid
    exact congrArg Prod.snd hsame
  obtain ⟨id, hkeycard⟩ := hconsistent.carded _ hplace
  obtain ⟨keycard, hrow, heq⟩ := List.mem_map.mp hkeycard
  simp only [Prod.mk.injEq] at heq
  exact ⟨keycard, hrow, heq.2.2.trans htenant.symm, heq.2.1⟩

/-! ### Steps that leave who belongs where alone -/

/-- The identity store says the same of who belongs where, and at most one identifier has been drawn. -/
structure SamePlaces (db after : Identity.Db) : Prop where
  workspaces : workspacePlaces after = workspacePlaces db
  keycards : keycardOwners after = keycardOwners db
  members : memberPlaces after = memberPlaces db
  drawn : after.nextUuid = db.nextUuid ∨ after.nextUuid = db.nextUuid + 1

/-- A step that leaves who belongs where alone, invitations included. -/
structure Steady (db : Db) (_ : TenancyStep) (after : Db) : Prop where
  places : SamePlaces db.toDb after.toDb
  invitations : invitationPlaces after = invitationPlaces db

theorem SamePlaces.refl (db : Identity.Db) : SamePlaces db db := ⟨rfl, rfl, rfl, .inl rfl⟩

@[simp]
theorem steady_refl (db : Db) (writes : TenancyStep) : Steady db writes db := ⟨.refl db.toDb, rfl⟩

/-- A steady step, under the label that tells what it does. -/
def SteadyStep (db : Db) (label : EnrolmentStep) (after : Db) : Prop :=
  ∃ writes, label = observe db writes after ∧ Steady db writes after

theorem traced_steady {α : Type} {call : TenancyCall α} (hcall : call.Only Steady) :
    (call.traced observe).Only SteadyStep :=
  hcall.traced fun _ writes _ hsteady ↦ ⟨writes, rfl, hsteady⟩

/-- A part of signup that leaves who belongs where alone. -/
theorem lift_steady {α : Type} {call : AuthCall α}
    (hcall : call.Only fun db _ after ↦ SamePlaces db after) :
    ((lift call).traced observe).Only SteadyStep :=
  traced_steady (hcall.within fun _ _ _ hsame ↦ ⟨hsame, rfl⟩)

/-! ### The protocol -/

/-- Call `number` has drawn the identifier. -/
def Drew (number : ℕ) (id : Uuid) (world : World Db EnrolmentStep) : Prop :=
  ∃ writes, (number, ⟨writes, some id⟩) ∈ world.log

/-- The condition on a step: who is added as a member holds a keycard for the tenant. -/
def AddsCarded (world : World Db EnrolmentStep) (label : EnrolmentStep) : Prop :=
  match label.writes with
  | .addMember member => HoldsKeycard member.userId member.tenantId world.db.toDb
  | _ => True

instance (world : World Db EnrolmentStep) (label : EnrolmentStep) : Decidable (AddsCarded world label) :=
  match label with
  | ⟨.addMember member, _⟩ =>
    inferInstanceAs (Decidable (HoldsKeycard member.userId member.tenantId world.db.toDb))
  | ⟨.other, _⟩ | ⟨.updateMember .., _⟩ | ⟨.removeMember .., _⟩ | ⟨.invite .., _⟩ | ⟨.cancel _, _⟩
  | ⟨.accept .., _⟩ | ⟨.expire, _⟩ => .isTrue trivial

/-- The invariant: the store is consistent, and an identifier has been drawn by one call. -/
structure Enrolled (world : World Db EnrolmentStep) : Prop where
  consistent : Consistent world.db
  drawn : ∀ number id, Drew number id world → id < world.db.nextUuid
  owner : ∀ first second id, Drew first id world → Drew second id world → first = second

/-- The guarantee: workspaces and keycards stay, the label tells which identifier is drawn, and a new
keycard has one that the call has drawn. -/
structure Enrols (number : ℕ) (world : World Db EnrolmentStep) (label : EnrolmentStep) (after : Db) :
    Prop where
  workspaces : workspacePlaces world.db.toDb ⊆ workspacePlaces after.toDb
  keycards : keycardOwners world.db.toDb ⊆ keycardOwners after.toDb
  draws : label.drew = none ∧ after.nextUuid = world.db.nextUuid ∨
    label.drew = some world.db.nextUuid ∧ after.nextUuid = world.db.nextUuid + 1
  own : ∀ keycard ∈ keycardOwners after.toDb,
    keycard ∈ keycardOwners world.db.toDb ∨ Drew number keycard.1 world

/-- What the calls that write members keep to. -/
def enrolment : Protocol Db EnrolmentStep where
  permits := AddsCarded
  invariant := Enrolled
  guarantee := Enrols

variable {number : ℕ} {world : World Db EnrolmentStep} {label : EnrolmentStep} {after : Db} {id : Uuid}

/-- What has been drawn after a step: what had been drawn, or what the step draws. -/
theorem drew_after {other : ℕ} : Drew number id (world.after other label after) ↔
    Drew number id world ∨ other = number ∧ label.drew = some id := by
  constructor
  · rintro ⟨writes, hentry⟩
    rcases List.mem_cons.mp hentry with hnew | hold
    · obtain ⟨rfl, rfl⟩ := Prod.mk.inj hnew
      exact .inr ⟨rfl, rfl⟩
    · exact .inl ⟨writes, hold⟩
  · rintro (⟨writes, hold⟩ | ⟨rfl, hdrew⟩)
    · exact ⟨writes, List.mem_cons_of_mem _ hold⟩
    · exact ⟨label.writes, by rw [← hdrew]; exact List.mem_cons_self⟩

theorem Enrols.nextUuid_le (henrols : Enrols number world label after) :
    world.db.nextUuid ≤ after.nextUuid := by
  rcases henrols.draws with ⟨-, hsame⟩ | ⟨-, hmore⟩
  · exact Nat.le_of_eq hsame.symm
  · exact hmore ▸ Nat.le_succ _

/-- An identifier that a step draws is the next one. -/
theorem Enrols.of_drew (henrols : Enrols number world label after) (hdrew : label.drew = some id) :
    id = world.db.nextUuid ∧ id < after.nextUuid := by
  rcases henrols.draws with ⟨hnone, -⟩ | ⟨hsome, hmore⟩
  · rw [hnone] at hdrew
    cases hdrew
  · obtain rfl := Option.some.inj (hsome.symm.trans hdrew)
    exact ⟨rfl, hmore ▸ Nat.lt_succ_self _⟩

/-- Assumes: a step of the guarantee that leaves workspaces with distinct identifiers, and each member and
each invitation where it belongs. It keeps the invariant. -/
theorem Enrols.keeps (hinv : Enrolled world) (henrols : Enrols number world label after)
    (hworkspaces : ((workspacePlaces after.toDb).map Prod.fst).Nodup)
    (hmembers : ∀ member ∈ memberPlaces after.toDb, member ∈ memberPlaces world.db.toDb ∨
      Located member.1 member.2.1 after.toDb ∧ HoldsKeycard member.2.2 member.2.1 after.toDb)
    (hinvitations : ∀ invitation ∈ invitationPlaces after,
      invitation ∈ invitationPlaces world.db ∨ Located invitation.1 invitation.2 after.toDb) :
    enrolment.Keeps number world label after := by
  refine ⟨henrols, ⟨hworkspaces, fun keycard hkeycard ↦ ?_, fun member hmember ↦ ?_,
    fun member hmember ↦ ?_, fun invitation hinvitation ↦ ?_⟩, fun other id hdrew ↦ ?_,
    fun first second id hfirst hsecond ↦ ?_⟩
  · refine Nat.lt_of_lt_of_le ?_ henrols.nextUuid_le
    rcases henrols.own keycard hkeycard with hold | hdrew
    · exact hinv.consistent.drawn keycard hold
    · exact hinv.drawn number keycard.1 hdrew
  · rcases hmembers member hmember with hold | hnew
    · exact henrols.workspaces (hinv.consistent.located member hold)
    · exact hnew.1
  · rcases hmembers member hmember with hold | hnew
    · obtain ⟨id, hkeycard⟩ := hinv.consistent.carded member hold
      exact ⟨id, henrols.keycards hkeycard⟩
    · exact hnew.2
  · rcases hinvitations invitation hinvitation with hold | hnew
    · exact henrols.workspaces (hinv.consistent.invitations invitation hold)
    · exact hnew
  · rcases drew_after.mp hdrew with hold | ⟨-, hnew⟩
    · exact Nat.lt_of_lt_of_le (hinv.drawn other id hold) henrols.nextUuid_le
    · exact (henrols.of_drew hnew).2
  · -- an identifier drawn now has not been drawn before
    have hfresh : ∀ other id, Drew other id world → label.drew ≠ some id := by
      intro other id hold hnew
      obtain ⟨rfl, -⟩ := henrols.of_drew hnew
      exact uuidSource.fresh _ (hinv.drawn other _ hold)
    rcases drew_after.mp hfirst with holdFirst | ⟨hfirst, hnewFirst⟩
    · rcases drew_after.mp hsecond with holdSecond | ⟨-, hnewSecond⟩
      · exact hinv.owner first second id holdFirst holdSecond
      · exact absurd hnewSecond (hfresh first id holdFirst)
    · rcases drew_after.mp hsecond with holdSecond | ⟨hsecond, -⟩
      · exact absurd hnewFirst (hfresh second id holdSecond)
      · exact hfirst.symm.trans hsecond

/-- The label of a step tells what it draws, if it draws at most one identifier. -/
theorem observe_draws {db after : Db} {writes : TenancyStep}
    (hdrawn : after.nextUuid = db.nextUuid ∨ after.nextUuid = db.nextUuid + 1) :
    (observe db writes after).drew = none ∧ after.nextUuid = db.nextUuid ∨
      (observe db writes after).drew = some db.nextUuid ∧ after.nextUuid = db.nextUuid + 1 := by
  rcases hdrawn with hsame | hmore
  · exact .inl ⟨if_pos hsame, hsame⟩
  · exact .inr ⟨if_neg (hmore ▸ Nat.succ_ne_self _), hmore⟩

/-- A steady step keeps the protocol. -/
theorem SteadyStep.keeps (hinv : Enrolled world) (hsteady : SteadyStep world.db label after) :
    enrolment.Keeps number world label after := by
  obtain ⟨writes, rfl, hplaces, hinvitations⟩ := hsteady
  refine Enrols.keeps hinv ⟨?_, ?_, observe_draws hplaces.drawn, fun keycard hkeycard ↦ ?_⟩ ?_
    (fun member hmember ↦ .inl (hplaces.members ▸ hmember))
    fun invitation hinvitation ↦ .inl (hinvitations ▸ hinvitation)
  · exact hplaces.workspaces ▸ List.Subset.refl _
  · exact hplaces.keycards ▸ List.Subset.refl _
  · exact .inl (hplaces.keycards ▸ hkeycard)
  · rw [hplaces.workspaces]
    exact hinv.consistent.workspaces

/-! ### What a call knows -/

/-- An assertion of call `number` that neither the other calls nor its own steady steps disturb. -/
structure Undisturbed (number : ℕ) (assertion : World Db EnrolmentStep → Prop) : Prop where
  stable : enrolment.Stable number assertion
  steady : ∀ world label after, Enrolled world → assertion world →
    SteadyStep world.db label after → assertion (world.after number label after)

section Undisturbed

variable {α : Type} {assertion other : World Db EnrolmentStep → Prop}

/-- A steady part of a call keeps an undisturbed assertion. -/
theorem Undisturbed.meets {call : Call Db EnrolmentStep Failure α}
    (hundisturbed : Undisturbed number assertion) (hcall : call.Only SteadyStep) :
    enrolment.Meets number call assertion fun _ ↦ assertion :=
  meets_of_only hcall hundisturbed.stable fun world label after hinv hassertion _ hsteady ↦
    ⟨hsteady.keeps hinv, hundisturbed.steady world label after hinv hassertion hsteady⟩

theorem Undisturbed.and (hfirst : Undisturbed number assertion) (hsecond : Undisturbed number other) :
    Undisturbed number fun world ↦ assertion world ∧ other world where
  stable number hne world label after hinv hboth hguarantee :=
    ⟨hfirst.stable number hne world label after hinv hboth.1 hguarantee,
      hsecond.stable number hne world label after hinv hboth.2 hguarantee⟩
  steady world label after hinv hboth hsteady :=
    ⟨hfirst.steady world label after hinv hboth.1 hsteady,
      hsecond.steady world label after hinv hboth.2 hsteady⟩

/-- What no step takes away is undisturbed. -/
theorem undisturbed_of_persistent (hpersistent : enrolment.Persistent assertion) :
    Undisturbed number assertion where
  stable := hpersistent.stable
  steady world label after hinv hassertion hsteady :=
    hpersistent number world label after hinv hassertion (hsteady.keeps hinv).guarantee

theorem undisturbed_true : Undisturbed number fun _ ↦ True := ⟨stable_true, fun _ _ _ _ _ _ ↦ trivial⟩

end Undisturbed

/-- A workspace stays one of its tenant. -/
theorem located_persistent (workspaceId tenantId : Uuid) :
    enrolment.Persistent fun world ↦ Located workspaceId tenantId world.db.toDb :=
  fun _ _ _ _ _ hlocated henrols ↦ henrols.workspaces hlocated

/-- A keycard stays. -/
theorem holdsKeycard_persistent (userId tenantId : Uuid) :
    enrolment.Persistent fun world ↦ HoldsKeycard userId tenantId world.db.toDb :=
  fun _ _ _ _ _ ⟨id, hkeycard⟩ henrols ↦ ⟨id, henrols.keycards hkeycard⟩

/-- The call has drawn the identifier, and no keycard has it. -/
def Owns (number : ℕ) (id : Uuid) (world : World Db EnrolmentStep) : Prop :=
  Drew number id world ∧ ∀ keycard ∈ keycardOwners world.db.toDb, keycard.1 ≠ id

/-- Nobody else uses an identifier that the call has drawn. -/
theorem owns_undisturbed (number : ℕ) (id : Uuid) : Undisturbed number (Owns number id) where
  stable other hne world label after hinv howns henrols := by
    refine ⟨drew_after.mpr (.inl howns.1), fun keycard hkeycard hid ↦ ?_⟩
    rcases henrols.own keycard hkeycard with hold | hdrew
    · exact howns.2 keycard hold hid
    · exact hne (hinv.owner other number id (hid ▸ hdrew) howns.1)
  steady world label after hinv howns hsteady := by
    obtain ⟨writes, -, hplaces, -⟩ := hsteady
    refine ⟨drew_after.mpr (.inl howns.1), fun keycard hkeycard ↦ ?_⟩
    exact howns.2 keycard (hplaces.keycards ▸ hkeycard)

end RallyApi.Tenancy

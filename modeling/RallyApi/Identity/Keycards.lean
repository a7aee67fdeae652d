import RallyApi.Identity.Frames
import RallyApi.Identity.IssuedTokens
import RallyApi.Identity.SessionFamilies

/-!
# Tokens and keycards

A keycard is a row of `tenant_members`. `login`, `switchTenant` and the fast path of `ssoLogin` issue
tokens for a tenant only where they have read an active keycard, and `signup` creates one for its new
user. `refresh` does not look at the keycard, and the slow path of `ssoLogin` creates one with
insert-or-ignore, which leaves a suspended or removed keycard as it is. Both issue tokens to removed
members (`removedMemberRefreshes`).

`amid_keycard_iff` says, for every token a call issues while no other operation changes the keycard,
exactly when that keycard is active as the call returns.
-/

set_option autoImplicit false
set_option relaxedAutoImplicit false

namespace RallyApi.Identity

open Concurrency Platform Store

/-! ### Keycards -/

/-- What a row of `tenant_members` says: whose keycard it is, for which tenant, and its status. -/
def TenantMember.keycard (row : TenantMember) : Uuid × Uuid × MemberStatus :=
  (row.userId, row.tenantId, row.status)

/-- The statuses of the keycards of a user for a tenant; the unique index allows one. -/
def keycards (user tenant : Uuid) (db : Db) : List MemberStatus :=
  ((db.tenantMembers.map TenantMember.keycard).filter fun card ↦
    card.1 = user ∧ card.2.1 = tenant).map fun card ↦ card.2.2

/-- The user has an active keycard for the tenant. -/
def ActiveKeycard (user tenant : Uuid) (db : Db) : Prop := .active ∈ keycards user tenant db

instance (user tenant : Uuid) (db : Db) : Decidable (ActiveKeycard user tenant db) :=
  inferInstanceAs (Decidable (_ ∈ _))

/-- The user has a keycard for the tenant, and it is not active. -/
def Barred (user tenant : Uuid) (db : Db) : Prop :=
  keycards user tenant db ≠ [] ∧ ¬ ActiveKeycard user tenant db

variable {user tenant : Uuid} {α : Type}

theorem mem_keycards {db : Db} {status : MemberStatus} :
    status ∈ keycards user tenant db ↔
      ∃ row ∈ db.tenantMembers, row.userId = user ∧ row.tenantId = tenant ∧ row.status = status := by
  simp only [keycards, TenantMember.keycard, List.mem_map, List.mem_filter, decide_eq_true_eq]
  constructor
  · rintro ⟨_, ⟨⟨row, hrow, rfl⟩, huser, htenant⟩, rfl⟩
    exact ⟨row, hrow, huser, htenant, rfl⟩
  · rintro ⟨row, hrow, huser, htenant, rfl⟩
    exact ⟨_, ⟨⟨row, hrow, rfl⟩, huser, htenant⟩, rfl⟩

theorem keycards_eq_nil {db : Db}
    (hnone : ∀ row ∈ db.tenantMembers, ¬ (row.userId = user ∧ row.tenantId = tenant)) :
    keycards user tenant db = [] := by
  refine List.eq_nil_iff_forall_not_mem.mpr fun status hstatus ↦ ?_
  obtain ⟨row, hrow, huser, htenant, _⟩ := mem_keycards.mp hstatus
  exact hnone row hrow ⟨huser, htenant⟩

theorem barred_congr {db after : Db} (hsame : keycards user tenant after = keycards user tenant db) :
    Barred user tenant after ↔ Barred user tenant db := by
  rw [Barred, Barred, ActiveKeycard, ActiveKeycard, hsame]

/-! ### Steps that leave the keycards alone -/

/-- A step that leaves every keycard as it is. -/
def KeepsKeycards (db : Db) (_ : SessionStep) (after : Db) : Prop :=
  after.tenantMembers.map TenantMember.keycard = db.tenantMembers.map TenantMember.keycard

theorem KeepsKeycards.keycards {db after : Db} {label : SessionStep}
    (hkeeps : KeepsKeycards db label after) : keycards user tenant after = keycards user tenant db := by
  unfold Identity.keycards
  rw [hkeeps]

/-- A part that does not change the table leaves every keycard as it is. -/
theorem keeps_of_leaves {call : AuthCall α} (hcall : call.Only (Leaves .tenantMembers)) :
    call.Only KeepsKeycards :=
  hcall.mono fun _ _ _ hsame ↦ congrArg (List.map TenantMember.keycard) hsame

/-- Assumes: a statement, where it succeeds, leaves every keycard as it is. -/
theorem statement_keeps {run : Db → Except Failure (α × Db)}
    (hkeeps : ∀ db value after, run db = .ok (value, after) → KeepsKeycards db .other after) :
    (statement run).Only KeepsKeycards :=
  Call.only_attempt _ _ (fun _ _ _ ↦ rfl) hkeeps

theorem touchLastActive_keeps (userId tenantId : Uuid) :
    (touchLastActive userId tenantId).Only KeepsKeycards := by
  refine statement_keeps fun db value after hrun ↦ ?_
  obtain ⟨-, rfl⟩ := Prod.mk.inj (Except.ok.inj hrun)
  exact map_updateWhere fun _ ↦ rfl

/-! ### Surroundings -/

/-- What the others keep to: they do not change the keycards of the user for the tenant; the
identifiers in the table have been drawn; none of their new rows has an identifier the call has drawn;
and a condition holds throughout. -/
structure KeycardKept (user tenant : Uuid) (throughout : Db → Prop) (view : View Db SessionStep)
    (found : Db) : Prop where
  same : keycards user tenant found = keycards user tenant view.db
  drawn : ∀ row ∈ found.tenantMembers, row.id < found.nextUuid ∧ row.userId < found.nextUuid
  own : ∀ id, .drawUuid id ∈ view.history → id ∈ found.tenantMembers.map TenantMember.id →
    id ∈ view.db.tenantMembers.map TenantMember.id
  throughout : throughout found

/-- Surroundings in which no other operation changes the keycard of the user for the tenant. -/
def whileKeycardKept (user tenant : Uuid) (throughout : Db → Prop) : Surroundings Db SessionStep where
  rely := KeycardKept user tenant throughout
  guarantee _ _ _ := True

variable {throughout : Db → Prop} {view : View Db SessionStep}

/-- A part that leaves the keycards as they are. -/
theorem amid_of_keeps {call : AuthCall α} (hcall : call.Only KeepsKeycards)
    (view : View Db SessionStep) :
    call.Amid (whileKeycardKept user tenant throughout) (fun value after ↦ call.Returns value ∧
      keycards user tenant after.db = keycards user tenant view.db) view :=
  Call.amid_of_only hcall (fun _ _ _ _ hview hfound hkeeps ↦
    ⟨trivial, (hkeeps.keycards.trans hfound.same).trans hview⟩) rfl

theorem amid_of_leaves {call : AuthCall α} (hcall : call.Only (Leaves .tenantMembers))
    (view : View Db SessionStep) :
    call.Amid (whileKeycardKept user tenant throughout) (fun value after ↦ call.Returns value ∧
      keycards user tenant after.db = keycards user tenant view.db) view :=
  amid_of_keeps (keeps_of_leaves hcall) view

/-- A read finds the keycards of the view. -/
theorem amid_read_keycards {read : Db → α} :
    (Call.query .other read : AuthCall α).Amid (whileKeycardKept user tenant throughout)
      (fun value after ↦ KeycardKept user tenant throughout view after.db ∧ read after.db = value)
      view :=
  fun _ hfound ↦ ⟨trivial, hfound, rfl⟩

/-- The identifier the call has drawn is no user's who has a keycard, and the call may use it for a new
keycard. -/
theorem uuidv7_amid :
    uuidv7.Amid (whileKeycardKept user tenant throughout) (fun id after ↦
      keycards user tenant after.db = keycards user tenant view.db ∧
        (.drawUuid id ∈ after.history ∧ id ∉ after.db.tenantMembers.map TenantMember.id) ∧
          ∀ row ∈ after.db.tenantMembers, row.userId ≠ id) view := by
  refine fun found hfound ↦ ⟨trivial, hfound.same, ⟨List.mem_cons_self, fun hmem ↦ ?_⟩, ?_⟩
  · obtain ⟨row, hrow, hid⟩ := List.mem_map.mp hmem
    exact absurd hid (uuidSource.ne_next (hfound.drawn row hrow).1)
  · exact fun row hrow ↦ uuidSource.ne_next (hfound.drawn row hrow).2

/-- Insert-or-ignore. Assumes: the identifier of the new keycard is one the call has drawn and no row
has. Afterwards the keycard is active, exactly if it was not barred. -/
theorem createTenantMember_amid {id : Uuid}
    (hfresh : .drawUuid id ∈ view.history ∧ id ∉ view.db.tenantMembers.map TenantMember.id) :
    (createTenantMember id tenant user).Amid (whileKeycardKept user tenant throughout)
      (fun _ after ↦ ActiveKeycard user tenant after.db ↔ ¬ Barred user tenant view.db) view := by
  refine Call.amid_attempt (fun _ _ _ _ ↦ trivial) fun found value after hfound hrun ↦ ⟨trivial, ?_⟩
  rw [← barred_congr hfound.same]
  split_ifs at hrun with hconflict
  · obtain ⟨-, rfl⟩ := Prod.mk.inj (Except.ok.inj hrun)
    obtain ⟨row, hrow, hsame⟩ := List.any_eq_true.mp hconflict
    simp only [decide_eq_true_eq] at hsame
    rcases hsame with hid | hpair
    · exact absurd (hfound.own id hfresh.1 (hid ▸ List.mem_map_of_mem hrow)) hfresh.2
    · have hsome : keycards user tenant found ≠ [] :=
        List.ne_nil_of_mem (mem_keycards.mpr ⟨row, hrow, hpair.2, hpair.1, rfl⟩)
      simp [Barred, hsome, View.after]
  · obtain ⟨-, rfl⟩ := Prod.mk.inj (Except.ok.inj hrun)
    have hnone : keycards user tenant found = [] := by
      refine keycards_eq_nil fun row hrow hpair ↦ hconflict (List.any_eq_true.mpr ⟨row, hrow, ?_⟩)
      exact decide_eq_true (.inr ⟨hpair.2, hpair.1⟩)
    refine iff_of_true (mem_keycards.mpr ⟨_, List.mem_append_right _ List.mem_cons_self, rfl, rfl,
      rfl⟩) fun hbarred ↦ hbarred.1 hnone

/-- Insert-or-ignore for another pair. -/
theorem createTenantMember_other {id tenantId userId : Uuid}
    (hother : ¬ (userId = user ∧ tenantId = tenant)) :
    (createTenantMember id tenantId userId).Amid (whileKeycardKept user tenant throughout)
      (fun _ after ↦ keycards user tenant after.db = keycards user tenant view.db) view := by
  refine Call.amid_attempt (fun _ _ _ _ ↦ trivial) fun found value after hfound hrun ↦ ⟨trivial, ?_⟩
  refine Eq.trans ?_ hfound.same
  split_ifs at hrun with hconflict
  · obtain ⟨-, rfl⟩ := Prod.mk.inj (Except.ok.inj hrun)
    rfl
  · obtain ⟨-, rfl⟩ := Prod.mk.inj (Except.ok.inj hrun)
    simp [keycards, TenantMember.keycard, View.after, hother]

/-! ### The calls -/

/-- A membership `findByUserId` returns comes from an active keycard. -/
theorem findByUserId_amid (userId : Uuid) :
    (findByUserId userId).Amid (whileKeycardKept user tenant throughout)
      (fun memberships after ↦ ∀ membership ∈ memberships, userId = user →
        membership.tenantId = tenant → ActiveKeycard user tenant after.db) view := by
  refine amid_read_keycards.mono ?_
  rintro memberships after ⟨_, hread⟩ membership hmem huser htenant
  rw [← hread, List.mem_insertionSort] at hmem
  simp only [List.bind_eq_flatMap, List.mem_flatMap, List.mem_filter, decide_eq_true_eq, List.pure_def,
    List.mem_singleton] at hmem
  obtain ⟨row, ⟨hrow, hrowUser, hactive⟩, _, _, _, _, _, _, rfl⟩ := hmem
  exact mem_keycards.mpr ⟨row, hrow, hrowUser.trans huser, htenant, hactive⟩

/-- What a flow that issues tokens guarantees: a token for the user and the tenant is only issued when
the keycard ends up as stated. -/
def EndsWith (user tenant : Uuid) (ends : Prop) (issued : LoginResult) (view : View Db SessionStep) :
    Prop :=
  issued.accessToken.sub = user → issued.accessToken.tenantId = tenant →
    (ActiveKeycard user tenant view.db ↔ ends)

/-- The end of a flow: it issues tokens and leaves the keycards alone. -/
theorem issueSession_ends {env : Env} {row : User} {sessionId tenantId : Uuid}
    {permissions : List String} {authMethod : AuthMethod} {ttlSeconds : ℕ}
    {ipAddress ssoProvider : Option String} {ends : Prop}
    (hkeycard : row.id = user → tenantId = tenant → (ActiveKeycard user tenant view.db ↔ ends)) :
    (issueSession env row sessionId permissions tenantId authMethod ttlSeconds ipAddress
      ssoProvider).Amid (whileKeycardKept user tenant throughout)
        (fun issued after ↦ EndsWith user tenant ends issued after) view := by
  refine (amid_of_leaves (by simp) _).mono ?_
  rintro issued after ⟨hreturns, hsame⟩ huser htenant
  obtain ⟨hsub, htenantId⟩ := issueSession_returns hreturns
  rw [ActiveKeycard, hsame]
  exact hkeycard (hsub ▸ huser) (htenantId ▸ htenant)

/-- What follows the end of a flow. -/
theorem EndsWith.congr {ends : Prop} {issued : LoginResult} {after : View Db SessionStep}
    (hends : EndsWith user tenant ends issued view)
    (hsame : keycards user tenant after.db = keycards user tenant view.db) :
    EndsWith user tenant ends issued after := by
  intro huser htenant
  rw [ActiveKeycard, hsame]
  exact hends huser htenant

theorem login_ends (env : Env) (email password : String) (ipAddress : Option String)
    (rememberMe : Bool) :
    (login env email password ipAddress rememberMe).Amid (whileKeycardKept user tenant throughout)
      (fun issued after ↦ EndsWith user tenant True issued after) view := by
  refine (amid_of_leaves (by simp [findByEmail]) _).bind fun found view _ ↦ ?_
  refine Call.amid_bind.mpr (Call.amid_require.mpr fun row _ ↦ ?_)
  refine Call.amid_bind.mpr (Call.amid_require.mpr fun passwordHash _ ↦ ?_)
  refine Call.amid_bind.mpr (Call.amid_ensure.mpr fun _ ↦ ?_)
  refine Call.amid_bind.mpr (Call.amid_ensure.mpr fun _ ↦ ?_)
  refine Call.amid_bind.mpr (Call.amid_ensure.mpr fun _ ↦ ?_)
  refine (amid_of_leaves (by simp) _).bind fun sessionId view _ ↦ ?_
  refine (findByUserId_amid _).bind fun memberships view hmemberships ↦ ?_
  refine Call.amid_bind.mpr (Call.amid_require.mpr fun active hactive ↦ ?_)
  refine (amid_of_leaves (by simp) _).bind ?_
  rintro permissions after ⟨_, hsame⟩
  have hkeycard : row.id = user → active.tenantId = tenant →
      (ActiveKeycard user tenant after.db ↔ True) := by
    intro huser htenant
    rw [ActiveKeycard, hsame]
    exact iff_true_intro (hmemberships active (List.mem_of_mem_head? hactive) huser htenant)
  refine (issueSession_ends hkeycard).bind fun issued view hends ↦ ?_
  refine (amid_of_keeps (touchLastActive_keeps _ _) _).bind ?_
  rintro _ after ⟨_, hsame⟩
  exact hends.congr hsame

/-- A new keycard is drawn and inserted, or ignored. -/
theorem createKeycard_amid (tenantId userId : Uuid) :
    (uuidv7 >>= fun id ↦ createTenantMember id tenantId userId).Amid
      (whileKeycardKept user tenant throughout) (fun _ after ↦ userId = user → tenantId = tenant →
        (ActiveKeycard user tenant after.db ↔ ¬ Barred user tenant view.db)) view := by
  refine uuidv7_amid.bind ?_
  rintro id drawn ⟨hsame, hfresh, _⟩
  by_cases hpair : userId = user ∧ tenantId = tenant
  · obtain ⟨rfl, rfl⟩ := hpair
    refine (createTenantMember_amid hfresh).mono fun _ after hcreated _ _ ↦ ?_
    rw [hcreated, barred_congr hsame]
  · exact (createTenantMember_other hpair).mono fun _ _ _ huser htenant ↦
      absurd ⟨huser, htenant⟩ hpair

theorem insertUser_returns {row created : User}
    (hreturns : (statement (insertUser row)).Returns created) : created = row := by
  obtain ⟨db, after, hinsert⟩ := Call.returns_attempt.mp hreturns
  unfold insertUser at hinsert
  split_ifs at hinsert
  cases hinsert
  rfl

/-- `enrollMember` creates the keycard, unless there is one. -/
theorem enrollMember_amid (tenantId workspaceId userId : Uuid) :
    (enrollMember tenantId workspaceId userId).Amid (whileKeycardKept user tenant throughout)
      (fun _ after ↦ userId = user → tenantId = tenant →
        (ActiveKeycard user tenant after.db ↔ ¬ Barred user tenant view.db)) view := by
  unfold enrollMember
  rw [← Call.bind_assoc]
  refine (createKeycard_amid tenantId userId).bind fun _ created hcreated ↦ ?_
  refine (amid_of_leaves (by simp) _).bind ?_
  rintro memberId drawn ⟨_, hdrawn⟩
  refine (amid_of_leaves (by simp) _).mono ?_
  rintro _ after ⟨_, hadded⟩ huser htenant
  rw [ActiveKeycard, hadded, hdrawn]
  exact hcreated huser htenant

theorem signup_ends (env : Env) (input : SignupInput) (ipAddress : Option String) :
    (signup env input ipAddress).Amid (whileKeycardKept user tenant throughout)
      (fun issued after ↦ EndsWith user tenant True issued after) view := by
  refine (amid_of_leaves (by simp [findByEmail]) _).bind fun existing view _ ↦ ?_
  refine Call.amid_bind.mpr (Call.amid_ensure.mpr fun _ ↦ ?_)
  refine (amid_of_leaves (by simp) _).bind ?_
  rintro ⟨tenantId, workspaceId, roleSlug⟩ view _
  refine uuidv7_amid.bind ?_
  rintro userId drawn ⟨_, _, hnew⟩
  refine (amid_of_leaves (by simp) _).bind ?_
  rintro created view ⟨hcreated, hsame⟩
  obtain rfl := insertUser_returns hcreated
  have hunbarred : userId = user → ¬ Barred user tenant view.db := by
    intro huser hbarred
    refine hbarred.1 (hsame.trans (keycards_eq_nil fun row hrow hpair ↦ ?_))
    exact hnew row hrow (hpair.1.trans huser.symm)
  refine (enrollMember_amid _ _ _).bind fun _ enrolled henrolled ↦ ?_
  refine (amid_of_leaves (by simp) _).bind ?_
  rintro _ view ⟨_, hrole⟩
  refine (amid_of_leaves (by simp) _).bind ?_
  rintro sessionId view ⟨_, hdrawn⟩
  refine (amid_of_leaves (by simp) _).bind ?_
  rintro memberships view ⟨_, hlisted⟩
  refine (amid_of_leaves (by simp) _).bind ?_
  rintro permissions view ⟨_, hgranted⟩
  have hkeycard : userId = user → tenantId = tenant → (ActiveKeycard user tenant view.db ↔ True) := by
    intro huser htenant
    rw [ActiveKeycard, hgranted, hlisted, hdrawn, hrole]
    exact (henrolled huser htenant).trans (iff_true_intro (hunbarred huser))
  refine (issueSession_ends hkeycard).bind fun issued view hends ↦ ?_
  refine (amid_of_keeps (touchLastActive_keeps _ _) _).bind ?_
  rintro _ after ⟨_, hsame⟩
  exact hends.congr hsame

/-- `refresh` leaves the keycards alone. -/
theorem refresh_ends (env : Env) (rawRefreshToken : RawToken) (ipAddress : Option String) :
    (refresh env rawRefreshToken ipAddress).Amid (whileKeycardKept user tenant throughout)
      (fun issued after ↦ EndsWith user tenant (ActiveKeycard user tenant view.db) issued after)
      view := by
  refine (amid_of_leaves (by simp) _).mono ?_
  rintro issued after ⟨_, hsame⟩ _ _
  rw [ActiveKeycard, ActiveKeycard, hsame]

theorem switchTenant_ends (env : Env) (payload : JwtPayload) (targetTenantId : Uuid)
    (ipAddress : Option String) (denylistFirst : Bool) :
    (switchTenant env payload targetTenantId ipAddress denylistFirst).Amid
      (whileKeycardKept user tenant throughout)
      (fun issued after ↦ EndsWith user tenant True issued after) view := by
  refine amid_read_keycards.bind ?_
  rintro found read ⟨_, hread⟩
  refine Call.amid_bind.mpr (Call.amid_require.mpr fun keycard hkeycard ↦ ?_)
  refine Call.amid_bind.mpr (Call.amid_ensure.mpr fun hactive ↦ ?_)
  have hheld : payload.sub = user → targetTenantId = tenant → ActiveKeycard user tenant read.db := by
    intro huser htenant
    have hfound := hread.trans hkeycard
    have hpair := List.find?_some hfound
    simp only [decide_eq_true_eq] at hpair
    exact mem_keycards.mpr ⟨keycard, List.mem_of_find?_eq_some hfound, hpair.1.trans huser,
      hpair.2.trans htenant, hactive⟩
  refine (amid_of_leaves (by simp [findUserById]) _).bind ?_
  rintro found view ⟨hfound, hread⟩
  refine Call.amid_bind.mpr (Call.amid_require.mpr fun row hrow ↦ ?_)
  refine Call.amid_bind.mpr (Call.amid_ensure.mpr fun _ ↦ ?_)
  refine (amid_of_leaves (by simp) _).bind ?_
  rintro permissions view ⟨_, hgranted⟩
  refine (amid_of_leaves (by simp) _).bind ?_
  rintro newSessionId view ⟨_, hdrawn⟩
  refine (amid_of_leaves (by simp) _).bind ?_
  rintro signed view ⟨hsigned, hsame⟩
  refine (amid_of_leaves (by simp) _).bind ?_
  rintro token view ⟨_, htoken⟩
  refine (amid_of_leaves (by simp) _).bind ?_
  rintro expiresAt view ⟨_, hexpiry⟩
  refine (amid_of_leaves (bothInOrder_leaves (by simp) (by simp) _) _).bind ?_
  rintro _ view ⟨_, hreplaced⟩
  refine (amid_of_keeps (touchLastActive_keeps _ _) _).bind ?_
  rintro _ after ⟨_, htouched⟩
  intro huser htenant
  obtain ⟨hsub, htenantId⟩ := signAccessToken_returns hsigned
  rw [ActiveKeycard, htouched, hreplaced, hexpiry, htoken, hsame, hdrawn, hgranted, hread]
  have hid : row.id = payload.sub := findUserById_returns (hrow ▸ hfound)
  exact iff_true_intro (hheld (hid.symm.trans (hsub.symm.trans huser)) (htenantId.symm.trans htenant))

/-! ### `ssoLogin` -/

/-- The flag says whether the identity of an `ssoLogin` is linked. -/
def AuthRequest.Linked (env : Env) (linked : Bool) : AuthRequest → Db → Prop
  | .ssoLogin idToken _, db => ∀ signIn, ssoSignIn env idToken = some signIn →
    (linked = true ↔ SsoLinked signIn.oid db)
  | _, _ => True

/-- The slow path creates the keycard, unless there is one. -/
theorem resolveAndProvisionSsoUser_amid (env : Env) (oid email displayName : String)
    (externalTenantId : Option String) :
    (resolveAndProvisionSsoUser env oid email displayName externalTenantId).Amid
      (whileKeycardKept user tenant throughout) (fun resolved after ↦ resolved.1.id = user →
        resolved.2 = tenant → (ActiveKeycard user tenant after.db ↔ ¬ Barred user tenant view.db))
      view := by
  refine (amid_of_leaves (by simp) _).bind ?_
  rintro connection connected ⟨_, hconnection⟩
  refine Call.amid_bind.mpr (Call.amid_require.mpr fun tenantId _ ↦ ?_)
  refine (amid_of_leaves (by simp) _).bind ?_
  rintro row upserted ⟨_, hupserted⟩
  rw [← Call.bind_assoc]
  refine (createKeycard_amid tenantId row.id).bind fun _ created hcreated ↦ ?_
  have hkeycard : row.id = user → tenantId = tenant →
      (ActiveKeycard user tenant created.db ↔ ¬ Barred user tenant view.db) := by
    intro huser htenant
    rw [hcreated huser htenant, barred_congr (hupserted.trans hconnection)]
  cases connection with
  | none => exact hkeycard
  | some connection =>
    dsimp only
    split_ifs
    · refine (amid_of_leaves (by simp) _).bind ?_
      rintro _ after ⟨_, hrole⟩ huser htenant
      rw [ActiveKeycard, hrole]
      exact hkeycard huser htenant
    · exact hkeycard

/-- Assumes: the flag says throughout whether the identity is linked. If it is, `ssoLogin` resolves a
user with an active keycard, and otherwise one whose keycard is active unless it was barred. -/
theorem resolveSsoUser_amid_keycards {env : Env} {linked : Bool} (signIn : SsoSignIn)
    (hlinked : ∀ db, throughout db → (linked = true ↔ SsoLinked signIn.oid db)) :
    (resolveSsoUser env signIn.oid signIn.email signIn.displayName signIn.tid).Amid
      (whileKeycardKept user tenant throughout) (fun resolved after ↦ resolved.1.id = user →
        resolved.2 = tenant →
          (ActiveKeycard user tenant after.db ↔ linked = true ∨ ¬ Barred user tenant view.db))
      view := by
  refine amid_read_keycards.bind ?_
  rintro existingIdentity read ⟨hfound, hread⟩
  cases existingIdentity with
  | some identity =>
    have hyes : linked = true := (hlinked read.db hfound.throughout).mpr (.of_find hread)
    refine (amid_of_leaves (by simp [findUserById]) _).bind fun found view _ ↦ ?_
    refine Call.amid_bind.mpr (Call.amid_require.mpr fun row _ ↦ ?_)
    refine Call.amid_bind.mpr (Call.amid_ensure.mpr fun _ ↦ ?_)
    refine (findByUserId_amid _).bind fun memberships view hmemberships ↦ ?_
    refine Call.amid_bind.mpr (Call.amid_require.mpr fun active hactive ↦ ?_)
    exact fun huser htenant ↦ iff_of_true
      (hmemberships active (List.mem_of_mem_head? hactive) huser htenant) (.inl hyes)
  | none =>
    have hno : ¬ linked = true := by
      rw [hlinked read.db hfound.throughout]
      exact find_eq_none_iff.mp hread
    refine (resolveAndProvisionSsoUser_amid env _ _ _ _).mono fun resolved after hkeycard huser htenant ↦ ?_
    rw [hkeycard huser htenant, barred_congr hfound.same, or_iff_right hno]

theorem ssoLogin_ends (env : Env) (idToken : String) (ipAddress : Option String) {linked : Bool}
    (hlinked : ∀ db, throughout db → ∀ signIn, ssoSignIn env idToken = some signIn →
      (linked = true ↔ SsoLinked signIn.oid db)) :
    (ssoLogin env idToken ipAddress).Amid (whileKeycardKept user tenant throughout)
      (fun issued after ↦
        EndsWith user tenant (linked = true ∨ ¬ Barred user tenant view.db) issued after) view := by
  rcases ssoLogin_cases env idToken ipAddress with ⟨failure, hfailure⟩ | ⟨signIn, hsignIn, hlogin⟩
  · rw [hfailure]
    trivial
  · rw [hlogin]
    refine (resolveSsoUser_amid_keycards signIn fun db hdb ↦ hlinked db hdb signIn hsignIn).bind ?_
    intro ⟨row, tenantId⟩ resolved hresolved
    refine (amid_of_leaves (by simp) _).bind ?_
    rintro _ promoted ⟨_, hrole⟩
    refine (amid_of_leaves (by simp) _).bind ?_
    rintro sessionId drawn ⟨_, hdrawn⟩
    refine (amid_of_leaves (by simp) _).bind ?_
    rintro permissions granted ⟨_, hgranted⟩
    have hkeycard : row.id = user → tenantId = tenant →
        (ActiveKeycard user tenant granted.db ↔ linked = true ∨ ¬ Barred user tenant view.db) := by
      intro huser htenant
      rw [ActiveKeycard, hgranted, hdrawn, hrole]
      exact hresolved huser htenant
    refine (issueSession_ends hkeycard).bind fun issued opened hends ↦ ?_
    refine (amid_of_leaves (by simp) _).bind ?_
    rintro memberships listed ⟨_, hlisted⟩
    refine (amid_of_keeps (touchLastActive_keeps _ _) _).bind ?_
    rintro _ after ⟨_, htouched⟩
    exact hends.congr (htouched.trans hlisted)

/-! ### Every call -/

/-- The condition on the state before a call: for `refresh` that the keycard is active, for an `ssoLogin`
that its identity is linked, as the flag says, or the keycard is not barred. The other calls are free. -/
def AuthRequest.ChecksKeycard (linked : Bool) (user tenant : Uuid) (db : Db) : AuthRequest → Prop
  | .refresh _ _ => ActiveKeycard user tenant db
  | .ssoLogin _ _ => linked = true ∨ ¬ Barred user tenant db
  | _ => True

/-- A token a call issues while no other operation changes the keycard of its user for its tenant is
issued for an active keycard exactly when the call meets the condition. -/
theorem amid_keycard_iff (env : Env) (user tenant : Uuid) (linked : Bool) (request : AuthRequest)
    (view : View Db SessionStep) :
    (request.serve env).Amid (whileKeycardKept user tenant (request.Linked env linked))
      (fun result after ↦ ∀ issued, result = some issued → issued.accessToken.sub = user →
        issued.accessToken.tenantId = tenant →
          (ActiveKeycard user tenant after.db ↔ request.ChecksKeycard linked user tenant view.db))
      view := by
  have hsilent : ∀ {call : AuthCall Unit} {throughout : Db → Prop},
      call.Amid (whileKeycardKept user tenant throughout) (fun _ _ ↦ True) view :=
    fun {call} ↦ (Call.amid_of_guaranteed (Call.only_true call) fun _ _ _ h ↦ h).mono
      fun _ _ _ ↦ trivial
  cases request with
  | login => exact (login_ends _ _ _ _ _).map_some
  | signup => exact (signup_ends _ _ _).map_some
  | ssoLogin idToken ipAddress => exact (ssoLogin_ends env idToken ipAddress fun _ hdb ↦ hdb).map_some
  | refresh => exact (refresh_ends _ _ _).map_some
  | switchTenant => exact (switchTenant_ends _ _ _ _ _).map_some
  | logout => exact hsilent.map_none
  | logoutAll => exact hsilent.map_none
  | resetPassword => exact hsilent.map_none
  | tick => exact hsilent.map_none

/-! ### A removed member refreshes -/

/-- The member with a session is removed from the tenant. -/
def removedDb : Db :=
  { exampleDb with
    nextUuid := 30
    nextToken := 1
    tenantMembers := [{ id := 3, tenantId := 2, userId := 1, status := .removed }]
    authSessions := [{ id := 20, tenantId := 2, userId := 1, tokenHash := 1000, familyId := 21,
                       expiresAt := 1000000, createdAt := 0 }] }

/-- Their refresh token still gets them an access token for the tenant. -/
theorem removedMemberRefreshes :
    ¬ ∀ (env : Env) (request : AuthRequest) (db : Db) (issued : LoginResult) (after : Db),
      (request.serve env).run db = (.ok (some issued), after) →
        keycards issued.accessToken.sub issued.accessToken.tenantId after =
          keycards issued.accessToken.sub issued.accessToken.tenantId db →
        ActiveKeycard issued.accessToken.sub issued.accessToken.tenantId after := by
  intro halways
  have hrun : ∃ issued after,
      ((AuthRequest.refresh 0 none).serve exampleEnv).run removedDb = (.ok (some issued), after) ∧
        keycards issued.accessToken.sub issued.accessToken.tenantId after = [.removed] ∧
          keycards issued.accessToken.sub issued.accessToken.tenantId removedDb = [.removed] :=
    ⟨_, _, rfl, by decide, by decide⟩
  obtain ⟨issued, after, hrun, hafter, hbefore⟩ := hrun
  have hactive := halways _ _ _ issued after hrun (hafter.trans hbefore.symm)
  rw [ActiveKeycard, hafter] at hactive
  exact absurd hactive (by decide)

end RallyApi.Identity

import RallyApi.Concurrency.Growth
import RallyApi.Concurrency.Requests
import RallyApi.Concurrency.Returns
import RallyApi.Identity.Frames
import RallyApi.Identity.SessionFamilies
import RallyApi.Store.Lasting

/-!
# Linked identities

`ssoLogin` looks the account of the directory up before it links it, and other calls may link it in between;
the unique index on the provider and the subject decides. A link is never changed or removed, so two logins
of one account are logins of one user, in whatever order their steps are taken (`ssoLogin_agree`).
-/

set_option autoImplicit false
set_option relaxedAutoImplicit false

namespace RallyApi.Identity

open Concurrency Protocol Platform Store

variable {α : Type} {env : Env} {initial db after : Db} {requests : List AuthRequest} {number : ℕ}
  {provider providerSub oid : String} {userId : Uuid} {row later : SsoIdentity}

/-! ### Links -/

/-- The two rows link one account to one user. -/
structure SameLink (row later : SsoIdentity) : Prop where
  provider : later.provider = row.provider
  providerSub : later.providerSub = row.providerSub
  userId : later.userId = row.userId

theorem sameLink_refl (row : SsoIdentity) : SameLink row row := ⟨rfl, rfl, rfl⟩

/-- The account of a linked identity. -/
def SsoIdentity.account (row : SsoIdentity) : String × String := (row.provider, row.providerSub)

/-- An account is linked to a user. -/
def LinkedTo (provider providerSub : String) (userId : Uuid) (db : Db) : Prop :=
  ∃ row ∈ db.ssoIdentities, row.account = (provider, providerSub) ∧ row.userId = userId

/-- A step that keeps every link, and no two of one account. -/
structure KeepsLinks (db after : Db) : Prop where
  lasts : Lasts SameLink db.ssoIdentities after.ssoIdentities
  distinct : (db.ssoIdentities.map SsoIdentity.account).Nodup →
    (after.ssoIdentities.map SsoIdentity.account).Nodup

theorem KeepsLinks.linkedTo (before after : Db) (hkeeps : KeepsLinks before after)
    (hlinked : LinkedTo provider providerSub userId before) :
    LinkedTo provider providerSub userId after := by
  obtain ⟨row, hrow, haccount, huser⟩ := hlinked
  obtain ⟨later, hlater, hsame⟩ := hkeeps.lasts row hrow
  refine ⟨later, hlater, ?_, hsame.userId.trans huser⟩
  rw [← haccount, SsoIdentity.account, SsoIdentity.account, hsame.provider, hsame.providerSub]

/-- An account is linked to one user only. -/
theorem LinkedTo.unique {other : Uuid} (hdistinct : (db.ssoIdentities.map SsoIdentity.account).Nodup)
    (hlinked : LinkedTo provider providerSub userId db) (hother : LinkedTo provider providerSub other db) :
    userId = other := by
  obtain ⟨row, hrow, haccount, rfl⟩ := hlinked
  obtain ⟨second, hsecond, hsame, rfl⟩ := hother
  rw [List.inj_on_of_nodup_map hdistinct hrow hsecond (haccount.trans hsame.symm)]

theorem KeepsLinks.trans {third : Db} (hfirst : KeepsLinks db after) (hsecond : KeepsLinks after third) :
    KeepsLinks db third where
  lasts := hfirst.lasts.trans (fun _ _ _ hbefore hafter ↦ ⟨hafter.provider.trans hbefore.provider,
    hafter.providerSub.trans hbefore.providerSub, hafter.userId.trans hbefore.userId⟩) hsecond.lasts
  distinct hdistinct := hsecond.distinct (hfirst.distinct hdistinct)

theorem keepsLinks_of_eq (hsame : after.ssoIdentities = db.ssoIdentities) : KeepsLinks db after :=
  ⟨hsame ▸ lasts_refl sameLink_refl _, fun hdistinct ↦ hsame ▸ hdistinct⟩

/-- A call that leaves the links alone. -/
theorem keepsLinks_of_leaves {call : AuthCall α} (hcall : call.Only (Leaves .ssoIdentities)) :
    call.Only fun db _ after ↦ KeepsLinks db after :=
  hcall.mono fun _ _ _ hsame ↦ keepsLinks_of_eq hsame

/-- The e-mail address of a link is set. -/
theorem keepsLinks_updateProviderEmail (id : Uuid) (providerEmail : String) :
    (updateProviderEmail id providerEmail).Only fun db _ after ↦ KeepsLinks db after := by
  unfold updateProviderEmail statement
  refine Call.only_attempt _ _ (fun _ _ _ ↦ keepsLinks_of_eq rfl) fun db value after hrun ↦ ?_
  cases hrun
  exact ⟨lasts_updateWhere sameLink_refl fun _ _ _ ↦ ⟨rfl, rfl, rfl⟩,
    fun hdistinct ↦ nodup_map_updateWhere (fun _ ↦ rfl) hdistinct⟩

/-! ### The protocol -/

/-- The protocol: no two links are of one account, and those of the store at the start are there. -/
def linking (initial : Db) : Protocol Db SessionStep where
  permits := anyStep
  invariant world := (world.db.ssoIdentities.map SsoIdentity.account).Nodup ∧ KeepsLinks initial world.db
  guarantee _ world _ after := KeepsLinks world.db after

theorem linking_keeps {world : World Db SessionStep} {label : SessionStep}
    (hinv : (linking initial).invariant world) (hkeeps : KeepsLinks world.db after) :
    (linking initial).Keeps number world label after :=
  ⟨hkeeps, hkeeps.distinct hinv.1, hinv.2.trans hkeeps⟩

theorem persistent_linkedTo (initial : Db) (provider providerSub : String) (userId : Uuid) :
    (linking initial).Persistent fun world ↦ LinkedTo provider providerSub userId world.db :=
  persistent_of_growth (fun _ _ _ _ hstep ↦ hstep) fun before after ↦ KeepsLinks.linkedTo before after

/-- A call that keeps the links, and a fact that lasts. -/
theorem meets_keepsLinks {call : AuthCall α} {fact : World Db SessionStep → Prop}
    (hcall : call.Only fun db _ after ↦ KeepsLinks db after) (hfact : (linking initial).Persistent fact) :
    (linking initial).Meets number call fact fun _ ↦ fact :=
  meets_of_only hcall hfact.stable fun world label after hinv hholds _ hstep ↦
    ⟨linking_keeps hinv hstep, hfact number world label after hinv hholds hstep⟩

/-- A call that leaves the links alone, and a fact that lasts. -/
theorem meets_leavesLinks {call : AuthCall α} {fact : World Db SessionStep → Prop}
    (hcall : call.Only (Leaves .ssoIdentities)) (hfact : (linking initial).Persistent fact) :
    (linking initial).Meets number call fact fun _ ↦ fact :=
  meets_keepsLinks (keepsLinks_of_leaves hcall) hfact

/-- A link that is inserted is there, where the index lets it in. -/
theorem meets_insertSsoIdentity {fact : World Db SessionStep → Prop}
    (hfact : (linking initial).Persistent fact) :
    (linking initial).Meets number (insertSsoIdentity row) fact
      fun _ world ↦ LinkedTo row.provider row.providerSub row.userId world.db := by
  refine meets_attempt hfact.stable (fun world _ hinv _ _ _ ↦ linking_keeps hinv (keepsLinks_of_eq rfl)) ?_
  intro world value after hinv _ _ hrun
  split_ifs at hrun with hid haccount
  cases hrun
  refine ⟨linking_keeps hinv ⟨lasts_append sameLink_refl _, fun hdistinct ↦ ?_⟩,
    row, List.mem_append_right _ (List.mem_singleton_self row), rfl, rfl⟩
  refine nodup_map_append_singleton hdistinct fun htaken ↦ haccount ?_
  obtain ⟨old, hold, hsame⟩ := List.mem_map.mp htaken
  exact List.any_eq_true.mpr ⟨old, hold, decide_eq_true (Prod.mk.inj hsame)⟩

/-- A link that is found is there, and stays. -/
theorem meets_findSsoIdentity :
    (linking initial).Meets number (findSsoIdentity provider providerSub) (fun _ ↦ True)
      fun found world ↦ ∀ identity, found = some identity →
        LinkedTo provider providerSub identity.userId world.db := by
  refine meets_query stable_true fun world hinv _ _ ↦
    ⟨linking_keeps hinv (keepsLinks_of_eq rfl), fun identity hfound ↦ ?_⟩
  have hmatches := List.find?_some hfound
  obtain ⟨hprovider, hsub⟩ := of_decide_eq_true hmatches
  exact ⟨identity, List.mem_of_find?_eq_some hfound, Prod.ext hprovider hsub, rfl⟩

/-- The user of a link is found by their identifier. -/
theorem id_of_findUserById {id : Uuid} {found : Option User} {user : User}
    (hreturns : (findUserById id).Returns found) (hfound : found = some user) : user.id = id := by
  obtain ⟨db, rfl⟩ := hreturns
  have hmatches := List.find?_some hfound
  exact (of_decide_eq_true hmatches).1

/-! ### Logins -/

/-- The account is linked to the user who is returned: before, now, or by another call in between. -/
theorem meets_upsertBySsoIdentity {providerEmail displayName : String} {tenantId : Uuid} :
    (linking initial).Meets number
      (upsertBySsoIdentity env provider providerSub providerEmail displayName tenantId)
      (fun _ ↦ True) fun user world ↦ LinkedTo provider providerSub user.id world.db := by
  refine meets_findSsoIdentity.bind fun existingIdentity _ ↦ ?_
  cases existingIdentity with
  | some identity =>
    have hlinked := persistent_linkedTo initial provider providerSub identity.userId
    have hrest : (linking initial).Meets number
        (do
          let found ← findUserById identity.userId
          Call.require found .typeError : AuthCall User)
        (fun world ↦ LinkedTo provider providerSub identity.userId world.db)
        fun user world ↦ LinkedTo provider providerSub user.id world.db := by
      refine (meets_leavesLinks (by simp [findUserById]) hlinked).bind fun found hreturns ↦ ?_
      refine meets_require.conseq (fun _ _ hpre ↦ hpre) fun user world _ hpost ↦ ?_
      rw [id_of_findUserById hreturns hpost.2]
      exact hpost.1
    refine Meets.strengthen ?_ fun world _ hpre ↦ hpre identity rfl
    dsimp only
    split_ifs
    · exact (meets_keepsLinks (keepsLinks_updateProviderEmail _ _) hlinked).bind fun _ _ ↦ hrest
    · exact hrest
  | none =>
    have htrue : (linking initial).Persistent fun _ ↦ True := persistent_const True
    refine Meets.strengthen ?_ fun _ _ _ ↦ trivial
    refine (meets_leavesLinks (by simp [findByEmail]) htrue).bind fun existingUser _ ↦ ?_
    cases existingUser with
    | some user =>
      refine (meets_leavesLinks (by simp) htrue).bind fun id _ ↦ ?_
      exact (meets_insertSsoIdentity htrue).bind fun _ _ ↦ meets_pure fun _ _ hpost ↦ hpost
    | none =>
      refine (meets_leavesLinks (by simp) htrue).bind fun newId _ ↦ ?_
      refine (meets_leavesLinks (insertUser_leaves (by decide) _) htrue).bind fun user hreturns ↦ ?_
      refine (meets_leavesLinks (by simp) htrue).bind fun id _ ↦ ?_
      refine (meets_insertSsoIdentity htrue).bind fun _ _ ↦ meets_pure fun _ _ hpost ↦ ?_
      obtain ⟨db, after, hinsert⟩ := Call.returns_attempt.mp hreturns
      unfold insertUser at hinsert
      split_ifs at hinsert
      cases hinsert
      exact hpost

theorem meets_resolveSsoUser {email displayName : String} {externalTenantId : Option String} :
    (linking initial).Meets number (resolveSsoUser env oid email displayName externalTenantId)
      (fun _ ↦ True) fun resolved world ↦ LinkedTo "entra" oid resolved.1.id world.db := by
  refine meets_findSsoIdentity.bind fun existingIdentity _ ↦ ?_
  cases existingIdentity with
  | some identity =>
    have hlinked := persistent_linkedTo initial "entra" oid identity.userId
    refine Meets.strengthen ?_ fun world _ hpre ↦ hpre identity rfl
    refine (meets_leavesLinks (by simp [findUserById]) hlinked).bind fun found hreturns ↦ ?_
    refine meets_require.bind fun user hsome ↦ ?_
    have hid := id_of_findUserById hreturns (Call.returns_require.mp hsome)
    refine Meets.strengthen ?_ fun _ _ hpre ↦ hpre.1
    refine meets_ensure.bind fun _ _ ↦ Meets.strengthen ?_ fun _ _ hpre ↦ hpre.1
    refine (meets_leavesLinks (by simp) hlinked).bind fun memberships _ ↦ ?_
    refine meets_require.bind fun active _ ↦ meets_pure fun world _ hpre ↦ ?_
    rw [hid]
    exact hpre.1
  | none =>
    have htrue : (linking initial).Persistent fun _ ↦ True := persistent_const True
    refine Meets.strengthen ?_ fun _ _ _ ↦ trivial
    refine (meets_leavesLinks (by simp) htrue).bind fun connection _ ↦ ?_
    refine meets_require.bind fun tenantId _ ↦ Meets.strengthen ?_ fun _ _ _ ↦ trivial
    refine meets_upsertBySsoIdentity.bind fun user _ ↦ ?_
    have hlinked := persistent_linkedTo initial "entra" oid user.id
    refine (meets_leavesLinks (by simp) hlinked).bind fun keycardId _ ↦ ?_
    refine (meets_leavesLinks (by simp) hlinked).bind fun _ _ ↦ ?_
    have hresult : (linking initial).Meets number (pure (user, tenantId) : AuthCall (User × Uuid))
        (fun world ↦ LinkedTo "entra" oid user.id world.db)
        fun resolved world ↦ LinkedTo "entra" oid resolved.1.id world.db := meets_pure fun _ _ hpost ↦ hpost
    cases connection with
    | some connection =>
      dsimp only
      split_ifs
      · exact (meets_leavesLinks (by simp) hlinked).bind fun _ _ ↦ hresult
      · exact hresult
    | none => exact hresult

/-- The access token of a session names its user. -/
theorem sub_of_issueSession {user : User} {sessionId tenantId : Uuid} {permissions : List String}
    {authMethod : AuthMethod} {ttlSeconds : ℕ} {ipAddress ssoProvider : Option String}
    {issued : LoginResult} (hreturns : (issueSession env user sessionId permissions tenantId authMethod
      ttlSeconds ipAddress ssoProvider).Returns issued) : issued.accessToken.sub = user.id := by
  obtain ⟨signed, hsigned, hrest⟩ := hreturns.of_bind
  obtain ⟨token, _, hrest⟩ := hrest.of_bind
  obtain ⟨expiresAt, _, hrest⟩ := hrest.of_bind
  obtain ⟨_, _, hissued⟩ := hrest.of_bind
  obtain ⟨jti, _, hsign⟩ := hsigned.of_bind
  obtain ⟨expiresIn, _, hsign⟩ := hsign.of_bind
  obtain ⟨now, _, hsign⟩ := hsign.of_bind
  cases hissued
  cases hsign
  rfl

/-- A login with Entra: the account of the token is linked to the user of the session. -/
theorem meets_ssoLogin {idToken : String} {ipAddress : Option String} :
    (linking initial).Meets number (ssoLogin env idToken ipAddress) (fun _ ↦ True)
      fun issued world ↦ ∀ oid, (env.verifyIdToken idToken).bind SsoClaims.oid = some oid →
        LinkedTo "entra" oid issued.accessToken.sub world.db := by
  refine meets_ensure.bind fun _ _ ↦ meets_require.bind fun claims hclaims ↦ ?_
  refine meets_require.bind fun oid hoid ↦ meets_require.bind fun email _ ↦ ?_
  refine Meets.strengthen ?_ fun _ _ _ ↦ trivial
  refine meets_resolveSsoUser.bind fun resolved _ ↦ ?_
  have hlinked := persistent_linkedTo initial "entra" oid resolved.1.id
  refine (meets_leavesLinks (by simp) hlinked).bind fun _ _ ↦ ?_
  refine (meets_leavesLinks (by simp) hlinked).bind fun sessionId _ ↦ ?_
  refine (meets_leavesLinks (by simp) hlinked).bind fun permissions _ ↦ ?_
  refine (meets_leavesLinks (by simp) hlinked).bind fun issued hissued ↦ ?_
  refine (meets_leavesLinks (by simp) hlinked).bind fun memberships _ ↦ ?_
  refine (meets_leavesLinks (by simp) hlinked).bind fun _ _ ↦ meets_pure fun world _ hpost ↦ ?_
  intro other hother
  rw [Call.returns_require.mp hclaims] at hother
  obtain ⟨hsome, _⟩ := Option.filter_eq_some_iff.mp (Call.returns_require.mp hoid)
  obtain rfl := Option.some.inj (hsome.symm.trans hother)
  have hsub := sub_of_issueSession hissued
  exact hsub ▸ hpost

/-- What a call has established when it returns: the account it has logged in is linked to the user. -/
def AgreesWithLink (env : Env) (requests : List AuthRequest) (number : ℕ) (result : Option LoginResult)
    (world : World Db SessionStep) : Prop :=
  ∀ idToken ipAddress oid issued, requests[number]? = some (.ssoLogin idToken ipAddress) →
    (env.verifyIdToken idToken).bind SsoClaims.oid = some oid → result = some issued →
      LinkedTo "entra" oid issued.accessToken.sub world.db

theorem stable_agreesWithLink (number : ℕ) (result : Option LoginResult) :
    (linking initial).Stable number (AgreesWithLink env requests number result) := by
  intro other _ world label after hinv hagrees hguarantee idToken ipAddress oid issued hrequest hoid
    hresult
  exact persistent_linkedTo initial "entra" oid _ other world label after hinv
    (hagrees idToken ipAddress oid issued hrequest hoid hresult) hguarantee

/-- No other flow links an account. -/
theorem auth_leavesLinks {request : AuthRequest}
    (hother : ∀ idToken ipAddress, request ≠ .ssoLogin idToken ipAddress) :
    (request.serve env).Only (Leaves .ssoIdentities) := by
  cases request with
  | ssoLogin idToken ipAddress => exact absurd rfl (hother idToken ipAddress)
  | login email password ipAddress rememberMe => simp [AuthRequest.serve, login, findByEmail]
  | signup input ipAddress => simp [AuthRequest.serve, signup, findByEmail]
  | refresh rawRefreshToken ipAddress => simp [AuthRequest.serve]
  | switchTenant payload targetTenantId ipAddress denylistFirst =>
    refine Call.only_map ?_
    simp [switchTenant, findByUserAndTenant, findUserById]
  | logout payload denylistFirst => exact Call.only_map (bothInOrder_leaves (by simp) (by simp) _)
  | logoutAll payload denylistFirst => exact Call.only_map (bothInOrder_leaves (by simp) (by simp) _)
  | resetPassword rawToken newPassword =>
    refine Call.only_map ?_
    have hcommit : ∀ token newHash snapshot,
        (commitReset token newHash snapshot).Only (Leaves .ssoIdentities) :=
      fun _ _ _ ↦ (Call.only_atomically _ _).mpr fun _ ↦ rfl
    simp [resetPassword, findPasswordResetToken, currentTime, findUserById, snapshotSessions, hcommit]
  | tick milliseconds => simp [AuthRequest.serve]

/-- Every request keeps the links. -/
theorem meets_links {request : AuthRequest} (hrequest : requests[number]? = some request) :
    (linking initial).Meets number (request.serve env) (fun _ ↦ True)
      (AgreesWithLink env requests number) := by
  by_cases hsso : ∃ idToken ipAddress, request = .ssoLogin idToken ipAddress
  · obtain ⟨idToken, ipAddress, rfl⟩ := hsso
    refine meets_ssoLogin.bind fun issued _ ↦ meets_pure fun world _ hlinked ↦ ?_
    intro other otherAddress oid result hother hoid hresult
    cases hrequest.symm.trans hother
    cases hresult
    exact hlinked oid hoid
  · have hother : ∀ idToken ipAddress, request ≠ .ssoLogin idToken ipAddress :=
      fun idToken ipAddress heq ↦ hsso ⟨idToken, ipAddress, heq⟩
    refine (meets_leavesLinks (auth_leavesLinks hother) (persistent_const True)).conseq (fun _ _ h ↦ h) ?_
    intro result world _ _ idToken ipAddress oid issued hsame
    exact absurd (Option.some.inj (hrequest.symm.trans hsame)) (hother idToken ipAddress)

/-! ### Runs -/

variable {config : Concurrency.Config Db SessionStep Failure (Option LoginResult)}

theorem kept_linking (hdistinct : (initial.ssoIdentities.map SsoIdentity.account).Nodup)
    (hreach : ReachableBy (AuthRequest.serve env) anyStep initial requests config) :
    (linking initial).Kept (AgreesWithLink env requests) config :=
  reachableBy_kept stable_agreesWithLink (fun _ _ hrequest ↦
    (meets_links hrequest).strengthen fun _ _ _ ↦ trivial) ⟨hdistinct, keepsLinks_of_eq rfl⟩ hreach
    (List.prefix_refl _)

/-- Assumes: at the start, no two links are of one account. Two logins whose tokens are of one account are
logins of one user, and of the user the account was linked to at the start, if it was. -/
theorem ssoLogin_agree (hdistinct : (initial.ssoIdentities.map SsoIdentity.account).Nodup)
    (hreach : ReachableBy (AuthRequest.serve env) anyStep initial requests config) {first second : ℕ}
    {idToken otherToken : String} {ipAddress otherAddress : Option String}
    {issued otherIssued : LoginResult} (hfirst : requests[first]? = some (.ssoLogin idToken ipAddress))
    (hsecond : requests[second]? = some (.ssoLogin otherToken otherAddress))
    (hoid : (env.verifyIdToken idToken).bind SsoClaims.oid = some oid)
    (hotherOid : (env.verifyIdToken otherToken).bind SsoClaims.oid = some oid)
    (hissued : config.calls[first]? = some (.done (.ok (some issued))))
    (hotherIssued : config.calls[second]? = some (.done (.ok (some otherIssued)))) :
    issued.accessToken.sub = otherIssued.accessToken.sub ∧
      ∀ row ∈ initial.ssoIdentities, row.account = ("entra", oid) →
        row.userId = issued.accessToken.sub := by
  have hkept := kept_linking hdistinct hreach
  have hlinked := hkept.returned hissued idToken ipAddress oid issued hfirst hoid rfl
  have hother := hkept.returned hotherIssued otherToken otherAddress oid otherIssued hsecond hotherOid rfl
  refine ⟨hlinked.unique hkept.invariant.1 hother, fun row hrow haccount ↦ ?_⟩
  have hold := hkept.invariant.2.linkedTo initial config.db ⟨row, hrow, haccount, rfl⟩
  exact hold.unique hkept.invariant.1 hlinked

/-- An environment in which Entra accepts two tokens of one account. -/
def directoryEnv : Env :=
  { exampleEnv with
    verifyIdToken := fun token ↦ if token = "laptop" ∨ token = "phone" then
      some { oid := some "oid", email := some "ada@example.com", tid := some "directory" } else none }

/-- A tenant with an SSO connection, whose member has never signed in with Entra. -/
def unlinkedDb : Db :=
  { exampleDb with
    ssoConnections := [{ id := 4, tenantId := 2, provider := "entra", externalTenantId := "directory" }] }

/-- Two logins find the account unlinked. One of them links it, which the index refuses to the other. The
third login finds the link. -/
def overlappingLogins : List (Choice AuthRequest) :=
  [.start (.ssoLogin "laptop" none), .start (.ssoLogin "phone" none), .resume 0, .resume 1] ++
    finish 1 ++ finish 0 ++ .start (.ssoLogin "laptop" none) :: finish 2

/-- The configuration the logins end in. -/
def loggedInRun : Concurrency.Config Db SessionStep Failure (Option LoginResult) :=
  (Concurrency.Config.initial unlinkedDb).play (AuthRequest.serve directoryEnv) overlappingLogins

/-- A witness: the second and the third login are both logins of the user with the e-mail address. -/
theorem ssoLogin_agree_witness :
    ∃ issued otherIssued, loggedInRun.calls[1]? = some (.done (.ok (some issued))) ∧
      loggedInRun.calls[2]? = some (.done (.ok (some otherIssued))) ∧
      issued.accessToken.sub = otherIssued.accessToken.sub ∧
        ∀ row ∈ unlinkedDb.ssoIdentities, row.account = ("entra", "oid") →
          row.userId = issued.accessToken.sub := by
  have hreach : ReachableBy (AuthRequest.serve directoryEnv) anyStep unlinkedDb
      (requestsOf overlappingLogins) loggedInRun := play_reachableBy _ _ _
  have hsecond : (loggedInRun.calls[1]?.bind Call.returned).join.isSome = true := by decide +kernel
  have hthird : (loggedInRun.calls[2]?.bind Call.returned).join.isSome = true := by decide +kernel
  obtain ⟨issued, hissued⟩ := Option.isSome_iff_exists.mp hsecond
  obtain ⟨otherIssued, hotherIssued⟩ := Option.isSome_iff_exists.mp hthird
  have hdone := getElem?_of_returned (Option.join_eq_some_iff.mp hissued)
  have hotherDone := getElem?_of_returned (Option.join_eq_some_iff.mp hotherIssued)
  exact ⟨issued, otherIssued, hdone, hotherDone, ssoLogin_agree (by decide) hreach (by rfl) (by rfl)
    (by decide) (by decide) hdone hotherDone⟩

end RallyApi.Identity

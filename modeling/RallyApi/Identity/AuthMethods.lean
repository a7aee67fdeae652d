import Mathlib.Data.List.Chain
import RallyApi.Concurrency.Returns
import RallyApi.Identity.Issuance
import RallyApi.Identity.SsoPolicy

/-!
# The authentication method along a chain of tokens

A chain starts with a login and goes on with refreshes and tenant switches, each of which presents what the
one before has answered. `refresh` tells the method from the SSO provider of the row, `switchTenant` from
the payload of the access token, and `switchTenant` inserts its row without a provider. So a refresh after a
switch forgets that the session began with SSO (`forgottenProvider`).

`method_preserved_iff` says that this is the only way: every access token of a chain carries the method of
its start exactly when the start is a password login or a signup, or no refresh directly follows a switch.
-/

set_option autoImplicit false
set_option relaxedAutoImplicit false

namespace RallyApi.Identity

open Concurrency Platform Store

/-! ### Chains -/

/-- The request presents what a call has answered. -/
def Presents (answer : LoginResult) : AuthRequest → Prop
  | .refresh rawRefreshToken _ => rawRefreshToken = answer.refreshToken
  | .switchTenant payload .. => payload = answer.accessToken
  | _ => False

instance (answer : LoginResult) (request : AuthRequest) : Decidable (Presents answer request) :=
  match request with
  | .refresh .. => inferInstanceAs (Decidable (_ = _))
  | .switchTenant .. => inferInstanceAs (Decidable (_ = _))
  | .login .. | .signup .. | .ssoLogin .. | .logout .. | .logoutAll .. | .resetPassword .. | .tick _ =>
    .isFalse id

/-- The method of a login, for the requests that start a chain. -/
def AuthRequest.startsWith : AuthRequest → Option AuthMethod
  | .login .. | .signup .. => some .password
  | .ssoLogin .. => some .sso
  | _ => none

/-- The request switches the tenant. -/
def AuthRequest.switches : AuthRequest → Bool
  | .switchTenant .. => true
  | _ => false

/-- The request refreshes. -/
def AuthRequest.refreshes : AuthRequest → Bool
  | .refresh .. => true
  | _ => false

/-- A request and what its call has answered in the run. -/
def Answered (requests : List AuthRequest) (config : IssuanceRun) (link : AuthRequest × LoginResult) :
    Prop :=
  ∃ number : ℕ, requests[number]? = some link.1 ∧
    config.calls[number]? = some (.done (.ok (some link.2)))

/-- The answers of a run in which each request presents the answer before it. -/
structure TokenChain (requests : List AuthRequest) (config : IssuanceRun)
    (chain : List (AuthRequest × LoginResult)) : Prop where
  answered : ∀ link ∈ chain, Answered requests config link
  linked : chain.IsChain fun previous next ↦ Presents previous.2 next.1

/-- The method of the login that starts the chain. -/
def startMethod (chain : List (AuthRequest × LoginResult)) : Option AuthMethod :=
  chain.head?.bind fun link ↦ link.1.startsWith

/-- No refresh directly follows a switch. -/
def NoRefreshAfterSwitch (chain : List (AuthRequest × LoginResult)) : Prop :=
  chain.IsChain fun previous next ↦ ¬ (previous.1.switches = true ∧ next.1.refreshes = true)

variable {env : Env} {requests : List AuthRequest} {config : IssuanceRun}

/-! ### From one answer to the next -/

/-- The provider of the row behind the refresh token of an answer. -/
def HasProvider (env : Env) (config : IssuanceRun) (answer : LoginResult) (ssoProvider : Option String) :
    Prop :=
  Bears env answer answer.accessToken.authMethod ssoProvider config.toWorld

section Links

variable {answer : LoginResult} {method : AuthMethod} {ssoProvider : Option String}
  {previous next : AuthRequest × LoginResult}

theorem Bears.provider (hbears : Bears env answer method ssoProvider config.toWorld) :
    HasProvider env config answer ssoProvider := ⟨rfl, hbears.2⟩

/-- A token hash belongs to one row, so the row that `refresh` presents is the one the token was issued
with. -/
theorem HasProvider.presented (hinv : Issued env requests config.toWorld)
    (hprovider : HasProvider env config answer ssoProvider) {presented : AuthSession}
    (hrecorded : Recorded presented config.db)
    (hhash : presented.tokenHash = env.hashToken answer.refreshToken) :
    presented.ssoProvider = ssoProvider := by
  obtain ⟨-, session, hsession, hsessionHash, rfl⟩ := hprovider
  have hsame := hrecorded.eq_of_hash hinv.hashes hsession (hhash.trans hsessionHash.symm)
  have hfields : presented.unrevoked.ssoProvider = session.unrevoked.ssoProvider := by rw [hsame]
  exact hfields

/-- What `refresh` makes of the answer it presents. -/
theorem refresh_link (hinv : Issued env requests config.toWorld)
    (hanswers : Answers env config.toWorld next.2 next.1) (hpresents : Presents previous.2 next.1)
    (hrefreshes : next.1.refreshes = true)
    (hprovider : HasProvider env config previous.2 ssoProvider) :
    next.2.accessToken.authMethod = (if ssoProvider.isSome then .sso else .password) ∧
      HasProvider env config next.2 ssoProvider := by
  obtain ⟨request, answer⟩ := next
  cases request with
  | refresh rawRefreshToken ipAddress =>
    obtain rfl := hpresents
    obtain ⟨presented, hrecorded, hhash, hbears⟩ := hanswers
    obtain rfl := hprovider.presented hinv hrecorded hhash
    exact ⟨hbears.1, hbears.provider⟩
  | login | signup | ssoLogin | switchTenant | logout | logoutAll | resetPassword | tick => cases hrefreshes

/-- `switchTenant` inserts its row without a provider. -/
theorem switch_provider (hanswers : Answers env config.toWorld next.2 next.1)
    (hswitches : next.1.switches = true) : HasProvider env config next.2 none := by
  obtain ⟨request, answer⟩ := next
  cases request with
  | switchTenant => exact Bears.provider hanswers
  | login | signup | ssoLogin | refresh | logout | logoutAll | resetPassword | tick => cases hswitches

/-- The method after `switchTenant` is that of the answer it presents. -/
theorem switch_method (hanswers : Answers env config.toWorld next.2 next.1)
    (hpresents : Presents previous.2 next.1) (hswitches : next.1.switches = true) :
    next.2.accessToken.authMethod = previous.2.accessToken.authMethod := by
  obtain ⟨request, answer⟩ := next
  cases request with
  | switchTenant =>
    obtain rfl := hpresents
    exact hanswers.1
  | login | signup | ssoLogin | refresh | logout | logoutAll | resetPassword | tick => cases hswitches

/-- A login or signup with a password answers with that method, and its row has no provider. -/
theorem password_start (hanswers : Answers env config.toWorld next.2 next.1)
    (hstart : next.1.startsWith = some .password) :
    next.2.accessToken.authMethod = .password ∧ HasProvider env config next.2 none := by
  obtain ⟨request, answer⟩ := next
  cases request with
  | login | signup => exact ⟨hanswers.1, Bears.provider hanswers⟩
  | ssoLogin | refresh | switchTenant | logout | logoutAll | resetPassword | tick => cases hstart

/-- `ssoLogin` answers with its method, and its row has the provider. -/
theorem sso_start (hanswers : Answers env config.toWorld next.2 next.1)
    (hstart : next.1.startsWith = some .sso) :
    next.2.accessToken.authMethod = .sso ∧ HasProvider env config next.2 (some "entra") := by
  obtain ⟨request, answer⟩ := next
  cases request with
  | ssoLogin => exact ⟨hanswers.1, Bears.provider hanswers⟩
  | login | signup | refresh | switchTenant | logout | logoutAll | resetPassword | tick => cases hstart

/-- Only refreshes and switches present an answer. -/
theorem Presents.cases {request : AuthRequest} (hpresents : Presents answer request) :
    request.refreshes = true ∨ request.switches = true := by
  cases request with
  | refresh => exact .inl rfl
  | switchTenant => exact .inr rfl
  | login | signup | ssoLogin | logout | logoutAll | resetPassword | tick => exact hpresents.elim

end Links

/-! ### Along a chain -/

/-- Two relations that each hold along a list hold together. -/
theorem isChain_and {Link : Type} {first second : Link → Link → Prop} {chain : List Link}
    (hfirst : chain.IsChain first) (hsecond : chain.IsChain second) :
    chain.IsChain fun previous next ↦ first previous next ∧ second previous next := by
  induction chain using List.twoStepInduction with
  | nil => exact .nil
  | singleton link => exact .singleton link
  | cons_cons previous next rest _ ih =>
    rw [List.isChain_cons_cons] at *
    exact ⟨⟨hfirst.1, hsecond.1⟩, ih next hfirst.2 hsecond.2⟩

section Chain

variable {first : AuthRequest × LoginResult} {rest : List (AuthRequest × LoginResult)}
  (hinv : Issued env requests config.toWorld)
  (hanswers : ∀ link ∈ first :: rest, Answers env config.toWorld link.2 link.1)
  (hlinked : (first :: rest).IsChain fun previous next ↦ Presents previous.2 next.1)
include hinv hanswers hlinked

/-- A chain that starts with a password stays without a provider. -/
theorem password_throughout (hstart : first.1.startsWith = some .password) :
    ∀ link ∈ first :: rest, link.2.accessToken.authMethod = .password := by
  have hboth : (first :: rest).IsChain fun previous next ↦
      Presents previous.2 next.1 ∧ Answers env config.toWorld next.2 next.1 :=
    hlinked.imp_of_mem_imp fun _ next _ hmem hpresents ↦ ⟨hpresents, hanswers next hmem⟩
  have hwithout : ∀ link ∈ first :: rest,
      link.2.accessToken.authMethod = .password ∧ HasProvider env config link.2 none := by
    refine List.IsChain.induction _ _ hboth (fun previous next hlink hholds ↦ ?_) fun _ ↦ ?_
    · obtain ⟨hpresents, hnext⟩ := hlink
      rcases hpresents.cases with hrefreshes | hswitches
      · exact refresh_link hinv hnext hpresents hrefreshes hholds.2
      · exact ⟨(switch_method hnext hpresents hswitches).trans hholds.1, switch_provider hnext hswitches⟩
    · exact password_start (hanswers first List.mem_cons_self) hstart
  exact fun link hmem ↦ (hwithout link hmem).1

/-- A chain that starts with SSO keeps the provider until it switches, and the method until it refreshes
after that. -/
theorem sso_throughout (hstart : first.1.startsWith = some .sso)
    (hnone : NoRefreshAfterSwitch (first :: rest)) :
    ∀ link ∈ first :: rest, link.2.accessToken.authMethod = .sso := by
  have hboth : (first :: rest).IsChain fun previous next ↦
      Presents previous.2 next.1 ∧ Answers env config.toWorld next.2 next.1 :=
    hlinked.imp_of_mem_imp fun _ next _ hmem hpresents ↦ ⟨hpresents, hanswers next hmem⟩
  have hwith : ∀ link ∈ first :: rest, link.2.accessToken.authMethod = .sso ∧
      (link.1.switches = true ∨ HasProvider env config link.2 (some "entra")) := by
    refine List.IsChain.induction _ _ (isChain_and hboth hnone) (fun previous next hlink hholds ↦ ?_)
      fun _ ↦ ?_
    · obtain ⟨⟨hpresents, hnext⟩, hnot⟩ := hlink
      rcases hpresents.cases with hrefreshes | hswitches
      · rcases hholds.2 with hswitched | hprovider
        · exact absurd ⟨hswitched, hrefreshes⟩ hnot
        · obtain ⟨hmethod, hkept⟩ := refresh_link hinv hnext hpresents hrefreshes hprovider
          exact ⟨hmethod, .inr hkept⟩
      · exact ⟨(switch_method hnext hpresents hswitches).trans hholds.1, .inl hswitches⟩
    · obtain ⟨hmethod, hprovider⟩ := sso_start (hanswers first List.mem_cons_self) hstart
      exact ⟨hmethod, .inr hprovider⟩
  exact fun link hmem ↦ (hwith link hmem).1

/-- A refresh after a switch answers with the method of a password login. -/
theorem noRefreshAfterSwitch_of_sso
    (hsso : ∀ link ∈ first :: rest, link.2.accessToken.authMethod = .sso) :
    NoRefreshAfterSwitch (first :: rest) := by
  refine hlinked.imp_of_mem_imp fun previous next hprevious hnext hpresents hboth ↦ ?_
  have hprovider := switch_provider (hanswers previous hprevious) hboth.1
  obtain ⟨hmethod, -⟩ := refresh_link hinv (hanswers next hnext) hpresents hboth.2 hprovider
  rw [hsso next hnext] at hmethod
  cases hmethod

end Chain

/-- Assumes: a run from a store without sessions, and a chain of its answers that starts with a login or
signup. Every access token of the chain carries the method of the start exactly when that is a password, or
no refresh directly follows a switch. -/
theorem method_preserved_iff {db : Db} (hempty : db.authSessions = [])
    (hreach : ReachableBy (AuthRequest.serve env) anyStep db requests config)
    {chain : List (AuthRequest × LoginResult)} (hchain : TokenChain requests config chain)
    {method : AuthMethod} (hstart : startMethod chain = some method) :
    (∀ link ∈ chain, link.2.accessToken.authMethod = method) ↔
      method = .password ∨ NoRefreshAfterSwitch chain := by
  obtain ⟨hinv, hcalls⟩ := reachable_issuance hempty hreach
  cases chain with
  | nil => cases hstart
  | cons first rest =>
    have hanswers : ∀ link ∈ first :: rest, Answers env config.toWorld link.2 link.1 := by
      intro link hlink
      obtain ⟨number, hrequest, hcall⟩ := hchain.answered link hlink
      exact hcalls number link.1 link.2 hrequest hcall
    cases method with
    | password =>
      exact ⟨fun _ ↦ .inl rfl, fun _ ↦ password_throughout hinv hanswers hchain.linked hstart⟩
    | sso =>
      constructor
      · exact fun hsso ↦ .inr (noRefreshAfterSwitch_of_sso hinv hanswers hchain.linked hsso)
      · rintro (hpassword | hnone)
        · cases hpassword
        · exact sso_throughout hinv hanswers hchain.linked hstart hnone

/-! ### A switch and a refresh -/

/-- The requests of a run that have been answered with tokens, with the answers. -/
def answersOf (requests : List AuthRequest) (config : IssuanceRun) : List (AuthRequest × LoginResult) :=
  (requests.zip config.calls).filterMap fun link ↦ link.2.returned.join.map fun answer ↦ (link.1, answer)

theorem answered_of_mem {link : AuthRequest × LoginResult} (hlink : link ∈ answersOf requests config) :
    Answered requests config link := by
  obtain ⟨pair, hpair, hanswer⟩ := List.mem_filterMap.mp hlink
  obtain ⟨answer, hreturned, rfl⟩ := Option.map_eq_some_iff.mp hanswer
  obtain ⟨number, hnumber⟩ := List.mem_iff_getElem?.mp hpair
  obtain ⟨hrequest, hcall⟩ := List.getElem?_zip_eq_some.mp hnumber
  refine ⟨number, hrequest, hcall.trans (congrArg some ?_)⟩
  exact Call.returned_eq_some.mp (Option.join_eq_some_iff.mp hreturned)

/-- An access token of the example, which was signed for an SSO login. -/
def ssoPayload (sessionId jti : Uuid) : JwtPayload where
  sub := 1
  tenantId := 2
  sessionId
  jti
  permissions := fallbackPermissions
  authMethod := .sso
  iat := 0
  exp := 900

/-- The user signs in with SSO, refreshes, and switches the tenant. -/
def refreshedThenSwitched : List (Choice AuthRequest) :=
  .start (.ssoLogin "id-token" none) :: finish 0 ++ .start (.refresh 0 none) :: finish 1 ++
    .start (.switchTenant (ssoPayload 13 14) 2 none true) :: finish 2

/-- The user signs in with SSO, switches the tenant, and refreshes. -/
def switchedThenRefreshed : List (Choice AuthRequest) :=
  .start (.ssoLogin "id-token" none) :: finish 0 ++
    .start (.switchTenant (ssoPayload 10 11) 2 none true) :: finish 1 ++
    .start (.refresh 1 none) :: finish 2

/-- What the choices lead to in the example. -/
def exampleRun (choices : List (Choice AuthRequest)) : IssuanceRun :=
  (Concurrency.Config.initial linkedDb).play (AuthRequest.serve entraEnv) choices

/-- The answers of the example. -/
def exampleChain (choices : List (Choice AuthRequest)) : List (AuthRequest × LoginResult) :=
  answersOf (requestsOf choices) (exampleRun choices)

/-- A witness that the tokens of a chain can keep the method: the switch comes last. -/
theorem method_preserved_iff_witness :
    (∀ link ∈ exampleChain refreshedThenSwitched, link.2.accessToken.authMethod = .sso) ↔
      AuthMethod.sso = .password ∨ NoRefreshAfterSwitch (exampleChain refreshedThenSwitched) :=
  method_preserved_iff rfl (play_reachableBy _ _ refreshedThenSwitched)
    ⟨fun _ ↦ answered_of_mem, by decide +kernel⟩ (by decide +kernel)

/-- The refresh after the switch answers with a token of a password login. -/
theorem forgottenProvider :
    ¬ ∀ (env : Env) (db : Db) (requests : List AuthRequest) (config : IssuanceRun)
      (chain : List (AuthRequest × LoginResult)) (method : AuthMethod), db.authSessions = [] →
      ReachableBy (AuthRequest.serve env) anyStep db requests config →
      TokenChain requests config chain → startMethod chain = some method →
      ∀ link ∈ chain, link.2.accessToken.authMethod = method := by
  intro halways
  have hsso := halways entraEnv linkedDb _ _ (exampleChain switchedThenRefreshed) .sso rfl
    (play_reachableBy _ _ switchedThenRefreshed) ⟨fun _ ↦ answered_of_mem, by decide +kernel⟩
    (by decide +kernel)
  exact absurd hsso (by decide +kernel)

end RallyApi.Identity

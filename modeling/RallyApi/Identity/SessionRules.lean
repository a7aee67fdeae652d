import RallyApi.Concurrency.RelyGuarantee
import RallyApi.Identity.QuietSteps

/-!
# Proof rules for the calls that write sessions

A protocol about the sessions has to look at the writing steps only. An assertion is `Settled` when
neither the other calls nor the quiet steps of its own call disturb it; a quiet part of a flow keeps
it (`Settled.meets`), and a transaction only has to be verified where it commits
(`Settled.transaction`). `refresh_meets` reduces `refresh` to its two writing steps: the revocation
of a family, when the presented session is revoked, and the rotation. `DrawnOnce` is what protocols say of
the identifiers that the calls have drawn.
-/

set_option autoImplicit false
set_option relaxedAutoImplicit false

namespace RallyApi.Identity

open Concurrency Platform Store

/-! ### Identifiers of the history -/

/-- The identifiers drawn so far are behind the source of identifiers, and each was drawn by one call. -/
structure DrawnOnce (world : World Db SessionStep) : Prop where
  behind : ∀ number id, (number, .drawUuid id) ∈ world.log → id < world.db.nextUuid
  owner : ∀ first second id, (first, .drawUuid id) ∈ world.log →
    (second, .drawUuid id) ∈ world.log → first = second

section DrawnOnce

variable {world : World Db SessionStep} {number : ℕ} {label : SessionStep} {after : Db}

/-- A quiet step draws an identifier that is new, or none. -/
theorem DrawnOnce.quiet (hdrawn : DrawnOnce world) (hquiet : Quiet world.db label after) :
    DrawnOnce (world.after number label after) := by
  obtain ⟨-, hlabel⟩ := hquiet
  rcases hlabel with ⟨rfl, hnext⟩ | ⟨rfl, hnext⟩
  · have hold {other : ℕ} {id : Uuid}
        (hentry : (other, .drawUuid id) ∈ (world.after number .other after).log) :
        (other, .drawUuid id) ∈ world.log := mem_log_of_ne hentry (by simp)
    exact ⟨fun other id hentry ↦ hnext ▸ hdrawn.behind other id (hold hentry),
      fun first second id hfirst hsecond ↦ hdrawn.owner first second id (hold hfirst) (hold hsecond)⟩
  · have hcases {other : ℕ} {id : Uuid}
        (hentry : (other, .drawUuid id) ∈ (world.after number (.drawUuid world.db.nextUuid) after).log) :
        other = number ∧ id = world.db.nextUuid ∨ (other, .drawUuid id) ∈ world.log ∧
          id < world.db.nextUuid := by
      rcases List.mem_cons.mp hentry with heq | hold
      · simp only [Prod.mk.injEq, SessionStep.drawUuid.injEq] at heq
        exact .inl heq
      · exact .inr ⟨hold, hdrawn.behind other id hold⟩
    refine ⟨fun other id hentry ↦ ?_, fun first second id hfirst hsecond ↦ ?_⟩
    · change id < after.nextUuid
      rcases hcases hentry with ⟨-, rfl⟩ | ⟨-, hlt⟩
      · exact hnext ▸ Nat.lt_succ_self _
      · exact hnext ▸ Nat.lt_succ_of_lt hlt
    · rcases hcases hfirst with ⟨rfl, rfl⟩ | ⟨holdFirst, hlt⟩
      · rcases hcases hsecond with ⟨rfl, -⟩ | ⟨-, hlt⟩
        · rfl
        · exact absurd hlt (Nat.lt_irrefl _)
      · rcases hcases hsecond with ⟨-, rfl⟩ | ⟨holdSecond, -⟩
        · exact absurd hlt (Nat.lt_irrefl _)
        · exact hdrawn.owner first second id holdFirst holdSecond

/-- A step that draws no identifier. -/
theorem DrawnOnce.write (hdrawn : DrawnOnce world) (hdraws : ∀ id, label ≠ .drawUuid id)
    (hnext : after.nextUuid = world.db.nextUuid) : DrawnOnce (world.after number label after) := by
  have hold {other : ℕ} {id : Uuid} (hentry : (other, .drawUuid id) ∈ (world.after number label after).log) :
      (other, .drawUuid id) ∈ world.log := mem_log_of_ne hentry (hdraws id).symm
  exact ⟨fun other id hentry ↦ hnext ▸ hdrawn.behind other id (hold hentry),
    fun first second id hfirst hsecond ↦ hdrawn.owner first second id (hold hfirst) (hold hsecond)⟩

end DrawnOnce

/-! ### Settled assertions -/

variable {protocol : Protocol Db SessionStep} {number : ℕ} {assertion : World Db SessionStep → Prop}
  {α : Type}

/-- The steps of the other calls keep the assertion, and a quiet step of call `number` keeps it and
the protocol. -/
structure Settled (protocol : Protocol Db SessionStep) (number : ℕ)
    (assertion : World Db SessionStep → Prop) : Prop where
  stable : protocol.Stable number assertion
  quiet : ∀ world label after, protocol.invariant world → assertion world →
    Quiet world.db label after →
      protocol.Keeps number world label after ∧ assertion (world.after number label after)

/-- A quiet part of a flow keeps a settled assertion. -/
theorem Settled.meets {call : AuthCall α} (hsettled : Settled protocol number assertion)
    (hcall : call.Only Quiet) : protocol.Meets number call assertion fun _ ↦ assertion :=
  Protocol.meets_of_only hcall hsettled.stable fun world label after hinv hassertion _ hquiet ↦
    hsettled.quiet world label after hinv hassertion hquiet

/-- A transaction that rolls back is a quiet step. Assumes: where it commits, it keeps the protocol
and establishes the postcondition. -/
theorem Settled.transaction (hsettled : Settled protocol number assertion)
    {label : Db → SessionStep} {run : Db → Except Failure (α × Db)}
    {post : α → World Db SessionStep → Prop}
    (hcommit : ∀ world value after, protocol.invariant world → assertion world →
      protocol.permits world (label world.db) → run world.db = .ok (value, after) →
      protocol.Keeps number world (label world.db) after ∧
        post value (world.after number (label world.db) after)) :
    protocol.Meets number (transaction label run) assertion post := by
  refine Protocol.meets_attempt hsettled.stable ?_ ?_
  · intro world failure hinv hassertion _ hrun
    simp only [hrun]
    exact (hsettled.quiet world .other world.db hinv hassertion (quiet_refl _)).1
  · intro world value after hinv hassertion hpermits hrun
    simp only [hrun] at hpermits ⊢
    exact hcommit world value after hinv hassertion hpermits hrun

/-- `Promise.all` of a quiet operation and another one. -/
theorem Settled.bothInOrder (hsettled : Settled protocol number assertion)
    (htrue : Settled protocol number fun _ ↦ True) {quiet writer : AuthCall Unit}
    (hquiet : quiet.Only Quiet)
    (hwriter : protocol.Meets number writer assertion fun _ _ ↦ True) (quietFirst : Bool) :
    protocol.Meets number (Identity.bothInOrder quietFirst quiet writer) assertion
      fun _ _ ↦ True := by
  cases quietFirst with
  | true => exact (hsettled.meets hquiet).bind fun _ _ ↦ hwriter
  | false => exact hwriter.bind fun _ _ ↦ htrue.meets hquiet

/-- The user `findUserById` returns has the identifier it was asked for. -/
theorem findUserById_returns {id : Uuid} {user : User}
    (h : (findUserById id).Returns (some user)) : user.id = id := by
  obtain ⟨db, hfind⟩ := Call.returns_query.mp h
  have huser := List.find?_some hfind
  simp only [decide_eq_true_eq] at huser
  exact huser.1

/-- `findByTokenHash` returns a row of the table. Assumes: what the call is to know of the row it
has read holds of every row of the table. -/
theorem findByTokenHash_meets {known : AuthSession → World Db SessionStep → Prop}
    (htrue : Settled protocol number fun _ ↦ True)
    (hknown : ∀ session, Settled protocol number (known session))
    (hread : ∀ world, protocol.invariant world → ∀ session ∈ world.db.authSessions,
      known session world) (hash : TokenHash) :
    protocol.Meets number (findByTokenHash hash) (fun _ ↦ True)
      fun found world ↦ ∀ session, found = some session → known session world := by
  refine Protocol.meets_query htrue.stable fun world hinv _ _ ↦ ?_
  have hkept := htrue.quiet world .other world.db hinv trivial (quiet_refl _)
  refine ⟨hkept.1, fun session hfind ↦ ?_⟩
  exact ((hknown session).quiet world .other world.db hinv
    (hread world hinv session (List.mem_of_find?_eq_some hfind)) (quiet_refl _)).2

/-- `refresh` meets a protocol. Assumes: what it is to know of the presented session is settled and
holds of every row it may read; it may revoke the family of a revoked session; and it may rotate a
session that it has read as live into a successor in the same family, of the same user. -/
theorem refresh_meets {known : AuthSession → World Db SessionStep → Prop}
    (htrue : Settled protocol number fun _ ↦ True)
    (hknown : ∀ session, Settled protocol number (known session))
    (hread : ∀ world, protocol.invariant world → ∀ session ∈ world.db.authSessions,
      known session world)
    (hrevoke : ∀ presented : AuthSession, presented.isRevoked = true →
      protocol.Meets number (revokeFamily presented.familyId) (known presented) fun _ _ ↦ True)
    (hrotate : ∀ presented successor : AuthSession, presented.isRevoked = false →
      successor.familyId = presented.familyId → successor.userId = presented.userId →
      protocol.Meets number (rotateSession presented successor) (known presented)
        fun _ _ ↦ True)
    (env : Env) (rawRefreshToken : RawToken) (ipAddress : Option String) :
    protocol.Meets number (refresh env rawRefreshToken ipAddress) (fun _ ↦ True)
      fun _ _ ↦ True := by
  refine (findByTokenHash_meets htrue hknown hread _).bind fun found _ ↦ ?_
  refine Protocol.meets_require.bind fun presented _ ↦ ?_
  refine Protocol.Meets.strengthen ?_ fun world _ hfound ↦ hfound.1 presented hfound.2
  have hquiet : ∀ {β : Type} {call : AuthCall β}, call.Only Quiet →
      protocol.Meets number call (known presented) fun _ ↦ known presented :=
    fun hcall ↦ (hknown presented).meets hcall
  by_cases hrevoked : presented.isRevoked = true
  · rw [if_pos hrevoked]
    exact (hrevoke presented hrevoked).bind fun _ _ ↦ trivial
  · rw [if_neg hrevoked]
    refine (hquiet (by simp [currentTime])).bind fun now _ ↦ ?_
    refine (hquiet (Call.only_ensure _ _)).bind fun _ _ ↦ ?_
    refine (hquiet (by simp [findUserById])).bind fun found hfound ↦ ?_
    refine (hquiet (Call.only_require _ _)).bind fun user huser ↦ ?_
    have hid : user.id = presented.userId :=
      findUserById_returns (Call.returns_require.mp huser ▸ hfound)
    refine (hquiet (Call.only_ensure _ _)).bind fun _ _ ↦ ?_
    refine (hquiet uuidv7_quiet).bind fun newSessionId _ ↦ ?_
    refine (hquiet (getUserPermissions_quiet _ _)).bind fun permissions _ ↦ ?_
    refine (hquiet (signAccessToken_quiet _ _ _ _ _ _)).bind fun signed _ ↦ ?_
    refine (hquiet (generateRefreshToken_quiet _)).bind fun token _ ↦ ?_
    refine (hquiet (expiryAfter_quiet _ _)).bind fun expiresAt _ ↦ ?_
    refine Protocol.Meets.bind
      (hrotate presented _ (by simpa using hrevoked) ?_ ?_) fun _ _ _ _ _ ↦ trivial
    · rfl
    · exact hid

end RallyApi.Identity

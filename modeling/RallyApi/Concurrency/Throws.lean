import RallyApi.Concurrency.Part
import RallyApi.Concurrency.Requests

/-!
# What a call can throw

`Call.Throws` says that a call can end with a failure, for some stores found along the way. The text of the
call decides it: a sequence throws what its first part throws, and what the rest throws after a result of
that.

In every run, a call that has ended with a failure serves a request whose call can throw it
(`reachableBy_throws`).
-/

set_option autoImplicit false
set_option relaxedAutoImplicit false

namespace RallyApi.Concurrency

variable {Db Label Failure α β Request : Type} {failure thrown : Failure}

namespace Call

/-- The call can end with the failure, for some stores found along the way. -/
def Throws (failure : Failure) : Call Db Label Failure α → Prop
  | done (.ok _) => False
  | done (.error thrown) => thrown = failure
  | step _ _ next => ∃ db, (next db).Throws failure

@[simp]
theorem throws_pure {value : α} : ¬ (pure value : Call Db Label Failure α).Throws failure := id

@[simp]
theorem throws_throw : (throw thrown : Call Db Label Failure α).Throws failure ↔ thrown = failure :=
  Iff.rfl

@[simp]
theorem throws_query {label : Label} {read : Db → α} :
    ¬ (query label read : Call Db Label Failure α).Throws failure := fun ⟨_, hthrows⟩ ↦ hthrows

@[simp]
theorem throws_atomically {label : Db → Label} {statement : Db → α × Db} :
    ¬ (atomically label statement : Call Db Label Failure α).Throws failure :=
  fun ⟨_, hthrows⟩ ↦ hthrows

@[simp]
theorem throws_require {option : Option α} :
    (require option thrown : Call Db Label Failure α).Throws failure ↔ option = none ∧ thrown = failure := by
  cases option with
  | none => simp [require]
  | some value => simp [require]

@[simp]
theorem throws_ensure {condition : Prop} [Decidable condition] :
    (ensure condition thrown : Call Db Label Failure Unit).Throws failure ↔
      ¬ condition ∧ thrown = failure := by
  unfold ensure
  split_ifs with hcondition <;> simp [hcondition]

/-- A sequence throws what its first part throws, and what the rest does. -/
@[simp]
theorem throws_bind {call : Call Db Label Failure α} {rest : α → Call Db Label Failure β} :
    (call >>= rest).Throws failure ↔
      call.Throws failure ∨ ∃ value, call.Returns value ∧ (rest value).Throws failure := by
  induction call with
  | done outcome => cases outcome <;> simp [Throws, Returns]
  | step label act next ih =>
    simp only [bind_step, Throws, Returns, ih, exists_or]
    refine or_congr_right ⟨?_, ?_⟩
    · rintro ⟨db, value, hreturns, hthrows⟩
      exact ⟨value, ⟨db, hreturns⟩, hthrows⟩
    · rintro ⟨value, ⟨db, hreturns⟩, hthrows⟩
      exact ⟨db, value, hreturns, hthrows⟩

@[simp]
theorem throws_map {f : α → β} {call : Call Db Label Failure α} :
    (f <$> call).Throws failure ↔ call.Throws failure := by
  change (call >>= fun value ↦ pure (f value)).Throws failure ↔ _
  simp

/-- `try … catch` returns what the call does, and what the handler does after a failure of the call. -/
theorem returns_tryCatch {call : Call Db Label Failure α} {handler : Failure → Call Db Label Failure α}
    {value : α} : (tryCatch call handler).Returns value ↔
      call.Returns value ∨ ∃ failure, call.Throws failure ∧ (handler failure).Returns value := by
  induction call with
  | done outcome =>
    cases outcome <;> simp [tryCatch, tryCatchThe, MonadExceptOf.tryCatch, handle, Throws, Returns]
  | step label act next ih =>
    refine (exists_congr ih).trans ?_
    simp only [Throws, Returns, exists_or]
    refine or_congr_right ⟨?_, ?_⟩
    · rintro ⟨db, failure, hthrows, hreturns⟩
      exact ⟨failure, ⟨db, hthrows⟩, hreturns⟩
    · rintro ⟨failure, ⟨db, hthrows⟩, hreturns⟩
      exact ⟨db, failure, hthrows, hreturns⟩

/-- Within a larger store a call throws nothing else. -/
theorem Throws.of_within {Sub SubLabel : Type} {part : Part Db Sub} {relabel : SubLabel → Label}
    {call : Call Sub SubLabel Failure α} (hthrows : (call.within part relabel).Throws failure) :
    call.Throws failure := by
  induction call with
  | done outcome => cases outcome <;> exact hthrows
  | step label act next ih =>
    obtain ⟨db, hnext⟩ := hthrows
    exact ⟨part.get db, ih _ hnext⟩

end Call

/-- A call that has ended with a failure serves a request whose call can throw it. -/
theorem reachableBy_throws {serve : Request → Call Db Label Failure α}
    {permits : World Db Label → Label → Prop} {db : Db} {requests : List Request}
    {config : Config Db Label Failure α} (hreach : ReachableBy serve permits db requests config)
    {number : ℕ} {request : Request} (hrequest : requests[number]? = some request)
    (hended : config.calls[number]? = some (.done (.error failure))) : (serve request).Throws failure := by
  exact hreach.call (fun call ↦ call.Throws failure → (serve request).Throws failure) hrequest id
    (fun _ _ _ db hbefore hthrows ↦ hbefore ⟨db, hthrows⟩) hended rfl

end RallyApi.Concurrency

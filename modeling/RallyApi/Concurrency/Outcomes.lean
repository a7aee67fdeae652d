import RallyApi.Concurrency.RelyGuarantee

/-!
# Calls that catch, and facts that last

A call that catches a failure goes on after it, in a world of which only the `Persistent` facts are known:
those that no step takes away, whoever takes it. Such a fact holds throughout a call (`Meets.frame`), and
so it holds in the handler of a `try … catch` (`Meets.handle`).

Where more than that matters of a failure, the outcome of the call is judged: that `Call.outcome` meets a
protocol speaks of a result or a failure, and `Meets.bindOutcome` carries it along the text of the call.

`reachable_along` is the invariant rule for properties of the history: what every step that keeps the
guarantee keeps, holds of every reachable world.
-/

set_option autoImplicit false
set_option relaxedAutoImplicit false

namespace RallyApi.Concurrency

/-- The outcome of a sequence: a failure of the first part, or the outcome of the rest. -/
theorem Call.outcome_bind {Db Label Failure α β : Type} {call : Call Db Label Failure α}
    {rest : α → Call Db Label Failure β} :
    (call >>= rest).outcome = call.outcome >>= fun
      | .ok value => (rest value).outcome
      | .error failure => pure (.error failure) := by
  induction call with
  | done outcome => cases outcome <;> rfl
  | step label act next ih => simp only [outcome, bind_step, ih]

namespace Protocol

variable {Db Label Failure α β Request : Type} {protocol : Protocol Db Label} {number : ℕ}
  {call : Call Db Label Failure α} {rest : α → Call Db Label Failure β}
  {pre : World Db Label → Prop}

/-! ### Facts that last -/

/-- A fact that no step takes away, whoever takes it. -/
def Persistent (protocol : Protocol Db Label) (fact : World Db Label → Prop) : Prop :=
  ∀ number world label after, protocol.invariant world → fact world →
    protocol.guarantee number world label after → fact (world.after number label after)

section Persistent

variable {fact other : World Db Label → Prop} {post : α → World Db Label → Prop}

theorem Persistent.stable (hfact : protocol.Persistent fact) : protocol.Stable number fact :=
  fun number _ world label after hinv hholds hguarantee ↦
    hfact number world label after hinv hholds hguarantee

theorem persistent_const (statement : Prop) : protocol.Persistent fun _ ↦ statement :=
  fun _ _ _ _ _ hholds _ ↦ hholds

theorem Persistent.and (hfact : protocol.Persistent fact) (hother : protocol.Persistent other) :
    protocol.Persistent fun world ↦ fact world ∧ other world :=
  fun number world label after hinv hholds hguarantee ↦
    ⟨hfact number world label after hinv hholds.1 hguarantee,
      hother number world label after hinv hholds.2 hguarantee⟩

/-- A fact that lasts holds throughout a call. -/
theorem Meets.frame (hcall : protocol.Meets number call pre post)
    (hfact : protocol.Persistent fact) :
    protocol.Meets number call (fun world ↦ pre world ∧ fact world)
      fun value world ↦ post value world ∧ fact world := by
  induction call generalizing pre with
  | done outcome =>
    cases outcome with
    | ok value => exact fun world hinv hpre ↦ ⟨hcall world hinv hpre.1, hpre.2⟩
    | error failure => trivial
  | step label act next ih =>
    obtain ⟨assertion, hstable, hfallback, hstep⟩ := hcall
    refine ⟨fun world ↦ assertion world ∧ fact world, ?_,
      fun world hinv hpre ↦ ⟨hfallback world hinv hpre.1, hpre.2⟩, ?_⟩
    · intro number hne world label after hinv hholds hguarantee
      exact ⟨hstable number hne world label after hinv hholds.1 hguarantee,
        hfact number world label after hinv hholds.2 hguarantee⟩
    · intro world hinv hholds hpermits
      obtain ⟨hkeeps, hnext⟩ := hstep world hinv hholds.1 hpermits
      refine ⟨hkeeps, (ih world.db hnext).strengthen fun _ _ heq ↦ ⟨heq, ?_⟩⟩
      rw [heq]
      exact hfact number world _ _ hinv hholds.2 hkeeps.guarantee

/-- `try … catch`. Assumes: the handler meets the protocol from a fact that lasts and holds before the
call. -/
theorem Meets.handle {handler : Failure → Call Db Label Failure α}
    (hcall : protocol.Meets number call pre post) (hfact : protocol.Persistent fact)
    (hpre : ∀ world, protocol.invariant world → pre world → fact world)
    (hhandler : ∀ failure, protocol.Meets number (handler failure) fact post) :
    protocol.Meets number (call.handle handler) pre post := by
  induction call generalizing pre with
  | done outcome =>
    cases outcome with
    | ok value => exact hcall
    | error failure => exact (hhandler failure).strengthen hpre
  | step label act next ih =>
    obtain ⟨assertion, hstable, hfallback, hstep⟩ := hcall
    refine ⟨fun world ↦ assertion world ∧ fact world, ?_,
      fun world hinv h ↦ ⟨hfallback world hinv h, hpre world hinv h⟩, ?_⟩
    · intro number hne world label after hinv hholds hguarantee
      exact ⟨hstable number hne world label after hinv hholds.1 hguarantee,
        hfact number world label after hinv hholds.2 hguarantee⟩
    · intro world hinv hholds hpermits
      obtain ⟨hkeeps, hnext⟩ := hstep world hinv hholds.1 hpermits
      refine ⟨hkeeps, ih world.db hnext fun _ _ heq ↦ ?_⟩
      rw [heq]
      exact hfact number world _ _ hinv hholds.2 hkeeps.guarantee

/-- `try … finally`. Assumes: the call meets the protocol, and so does the clean-up on its own. -/
theorem Meets.tryFinally {cleanup : Call Db Label Failure Unit}
    (hcall : protocol.Meets number call pre fun _ _ ↦ True)
    (hcleanup : protocol.Meets number cleanup (fun _ ↦ True) fun _ _ ↦ True) :
    protocol.Meets number (call.tryFinally cleanup) pre fun _ _ ↦ True := by
  induction call generalizing pre with
  | done outcome =>
    refine (hcleanup.strengthen fun _ _ _ ↦ trivial).bind fun _ _ ↦ ?_
    cases outcome with
    | ok value => exact fun _ _ _ ↦ trivial
    | error failure => trivial
  | step label act next ih =>
    obtain ⟨assertion, hstable, hfallback, hstep⟩ := hcall
    refine ⟨assertion, hstable, hfallback, fun world hinv hholds hpermits ↦ ?_⟩
    obtain ⟨hkeeps, hnext⟩ := hstep world hinv hholds hpermits
    exact ⟨hkeeps, ih world.db hnext⟩

/-- One step with an outcome, from a fact that lasts. Assumes: in every world of the invariant where the
fact holds, a permitted step keeps the guarantee and the invariant, and where it returns it establishes
the postcondition. -/
theorem meets_step {label : Db → Label} {act : Db → Db} {result : Db → Except Failure α}
    (hfact : protocol.Persistent fact)
    (hstep : ∀ world, protocol.invariant world → fact world →
      protocol.permits world (label world.db) →
      protocol.Keeps number world (label world.db) (act world.db) ∧
        ∀ value, result world.db = .ok value →
          post value (world.after number (label world.db) (act world.db))) :
    protocol.Meets number (.step label act fun db ↦ .done (result db)) fact post := by
  refine ⟨fact, hfact.stable, fun _ _ h ↦ h, fun world hinv hholds hpermits ↦ ?_⟩
  obtain ⟨hkeeps, hpost⟩ := hstep world hinv hholds hpermits
  refine ⟨hkeeps, ?_⟩
  change protocol.Meets number (.done (result world.db)) _ post
  cases hresult : result world.db with
  | ok value => exact fun _ _ heq ↦ heq ▸ hpost value hresult
  | error failure => trivial

end Persistent

/-! ### Outcomes -/

/-- One step that does not fail, as `meets_atomically`, where failures are caught later. -/
theorem meets_outcome_atomically {assertion : World Db Label → Prop} {label : Db → Label}
    {statement : Db → α × Db} {post : Except Failure α → World Db Label → Prop}
    (hstable : protocol.Stable number assertion)
    (hstep : ∀ world, protocol.invariant world → assertion world →
      protocol.permits world (label world.db) →
      protocol.Keeps number world (label world.db) (statement world.db).2 ∧
        post (.ok (statement world.db).1)
          (world.after number (label world.db) (statement world.db).2)) :
    protocol.Meets number (Call.atomically label statement : Call Db Label Failure α).outcome
      assertion post :=
  ⟨assertion, hstable, fun _ _ h ↦ h, fun world hinv hassertion hpermits ↦
    ⟨(hstep world hinv hassertion hpermits).1,
      fun _ _ heq ↦ heq ▸ (hstep world hinv hassertion hpermits).2⟩⟩

/-- Sequencing, where the failure of either part is caught later. -/
theorem Meets.bindOutcome {middle : Except Failure α → World Db Label → Prop}
    {post : Except Failure β → World Db Label → Prop}
    (hcall : protocol.Meets number call.outcome pre middle)
    (hrest : ∀ value, protocol.Meets number (rest value).outcome (middle (.ok value)) post)
    (hfail : ∀ failure world, protocol.invariant world → middle (.error failure) world →
      post (.error failure) world) :
    protocol.Meets number (call >>= rest).outcome pre post := by
  rw [Call.outcome_bind]
  refine hcall.bind fun result _ ↦ ?_
  cases result with
  | ok value => exact hrest value
  | error failure => exact meets_pure (hfail failure)

/-! ### The history of a run -/

section History

variable {serve : Request → Call Db Label Failure α} {post : ℕ → α → World Db Label → Prop}
  {permits : World Db Label → Label → Prop} {db : Db} {config : Config Db Label Failure α}

/-- A run that meets a condition is a run of every protocol that asks for less. -/
theorem reachable_of_permits
    (hpermits : ∀ world label, permits world label → protocol.permits world label)
    (hreach : Reachable serve permits db config) : Reachable serve protocol.permits db config := by
  refine Relation.ReflTransGen.mono (fun before after hstep ↦ ?_) _ _ hreach
  cases hstep with
  | start request => exact .start before request
  | resume number label act next hcall hallowed =>
    exact .resume before number label act next hcall (hpermits _ _ hallowed)

/-- The invariant rule for properties of the history. Assumes: the call of every request meets the
protocol, the invariant and the property hold of the initial world, and a step that meets the condition of
the run and keeps the guarantee keeps the property. The property holds of every reachable world. -/
theorem reachable_along
    (hpermits : ∀ world label, permits world label → protocol.permits world label)
    (hpost : ∀ number value, protocol.Stable number (post number value))
    (hserve : ∀ request number, protocol.Meets number (serve request) (Fresh number) (post number))
    (hinitial : protocol.invariant ⟨db, []⟩) (property : World Db Label → Prop)
    (hproperty : property ⟨db, []⟩)
    (hstep : ∀ number world label after, protocol.invariant world →
      protocol.invariant (world.after number label after) → permits world label →
      protocol.guarantee number world label after → property world →
      property (world.after number label after))
    (hreach : Reachable serve permits db config) : property config.toWorld := by
  induction hreach with
  | refl => exact hproperty
  | tail hprefix hlast ih =>
    cases hlast with
    | start request => exact ih
    | resume number label act next hcall hallowed =>
      have hkept := reachable_kept hpost hserve hinitial (reachable_of_permits hpermits hprefix)
      obtain ⟨hguarantee, hnext⟩ := hkept.resume hpost hcall (hpermits _ _ hallowed)
      exact hstep number _ _ _ hkept.invariant hnext.invariant hallowed hguarantee ih

/-- An event happens at most once. Assumes: a mark that lasts, which a step finds missing and leaves behind
whenever the event happens. -/
theorem reachable_countP_le_one
    (hpermits : ∀ world label, permits world label → protocol.permits world label)
    (hpost : ∀ number value, protocol.Stable number (post number value))
    (hserve : ∀ request number, protocol.Meets number (serve request) (Fresh number) (post number))
    (hinitial : protocol.invariant ⟨db, []⟩) {event : Label → Bool} {mark : World Db Label → Prop}
    (hmark : protocol.Persistent mark)
    (hevent : ∀ number world label after, protocol.invariant world →
      protocol.guarantee number world label after → event label = true →
      ¬ mark world ∧ mark (world.after number label after))
    (hreach : Reachable serve permits db config) :
    (config.log.countP fun entry ↦ event entry.2) ≤ 1 := by
  suffices hboth : (config.log.countP fun entry ↦ event entry.2) ≤ 1 ∧
      (0 < (config.log.countP fun entry ↦ event entry.2) → mark config.toWorld) from hboth.1
  refine reachable_along hpermits hpost hserve hinitial (fun world : World Db Label ↦
    (world.log.countP fun entry ↦ event entry.2) ≤ 1 ∧
      (0 < (world.log.countP fun entry ↦ event entry.2) → mark world)) ?_ ?_ hreach
  · simp
  · intro number world label after hinv _ _ hguarantee hkept
    simp only [World.after, List.countP_cons]
    by_cases hhappens : event label = true
    · obtain ⟨hmissing, hleft⟩ := hevent number world label after hinv hguarantee hhappens
      have hnever := Nat.eq_zero_of_not_pos fun hpos ↦ hmissing (hkept.2 hpos)
      rw [if_pos hhappens, hnever]
      exact ⟨Nat.le_refl _, fun _ ↦ hleft⟩
    · rw [if_neg hhappens]
      exact ⟨hkept.1, fun hpos ↦ hmark number world label after hinv (hkept.2 hpos) hguarantee⟩

end History

end Protocol

end RallyApi.Concurrency

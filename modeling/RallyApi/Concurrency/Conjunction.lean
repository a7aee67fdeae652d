import RallyApi.Concurrency.Outcomes

/-!
# Protocols put together

Two protocols that a call meets are met by it together (`Meets.both`): each keeps its own assertions, and
the steps of the others keep both. A protocol to which an invariant is added is met by a call whose steps,
bounded by a relation, keep it (`Meets.extended`), so what was proved of a call under the smaller protocols
is used as it is.
-/

set_option autoImplicit false
set_option relaxedAutoImplicit false

namespace RallyApi.Concurrency.Protocol

variable {Db Label Failure α : Type} {number : ℕ} {call : Call Db Label Failure α}

/-! ### Two protocols -/

/-- Both protocols at once. -/
def both (first second : Protocol Db Label) : Protocol Db Label where
  permits world label := first.permits world label ∧ second.permits world label
  invariant world := first.invariant world ∧ second.invariant world
  guarantee number world label after :=
    first.guarantee number world label after ∧ second.guarantee number world label after

section Both

variable {first second : Protocol Db Label} {pre otherPre fact : World Db Label → Prop}
  {post otherPost : α → World Db Label → Prop}

theorem Stable.left (hstable : first.Stable number fact) : (first.both second).Stable number fact :=
  fun other hne world label after hinv hholds hguarantee ↦
    hstable other hne world label after hinv.1 hholds hguarantee.1

theorem Stable.right (hstable : second.Stable number fact) : (first.both second).Stable number fact :=
  fun other hne world label after hinv hholds hguarantee ↦
    hstable other hne world label after hinv.2 hholds hguarantee.2

/-- A call that meets two protocols meets both at once. By induction on the call: before a step it falls
back on the assertions of the two. -/
theorem Meets.both (hfirst : first.Meets number call pre post)
    (hsecond : second.Meets number call otherPre otherPost) :
    (first.both second).Meets number call (fun world ↦ pre world ∧ otherPre world)
      fun value world ↦ post value world ∧ otherPost value world := by
  induction call generalizing pre otherPre with
  | done outcome =>
    cases outcome with
    | ok value => exact fun world hinv hpre ↦ ⟨hfirst world hinv.1 hpre.1, hsecond world hinv.2 hpre.2⟩
    | error failure => trivial
  | step label act next ih =>
    obtain ⟨assertion, hstable, hfallback, hstep⟩ := hfirst
    obtain ⟨otherAssertion, hotherStable, hotherFallback, hotherStep⟩ := hsecond
    refine ⟨fun world ↦ assertion world ∧ otherAssertion world, hstable.left.and hotherStable.right,
      fun world hinv hpre ↦ ⟨hfallback world hinv.1 hpre.1, hotherFallback world hinv.2 hpre.2⟩, ?_⟩
    intro world hinv hholds hpermits
    obtain ⟨hkeeps, hnext⟩ := hstep world hinv.1 hholds.1 hpermits.1
    obtain ⟨hotherKeeps, hotherNext⟩ := hotherStep world hinv.2 hholds.2 hpermits.2
    exact ⟨⟨⟨hkeeps.guarantee, hotherKeeps.guarantee⟩, hkeeps.invariant, hotherKeeps.invariant⟩,
      (ih world.db hnext hotherNext).strengthen fun _ _ heq ↦ ⟨heq, heq⟩⟩

end Both

/-! ### One more invariant -/

/-- The protocol with one more invariant. -/
def extended (protocol : Protocol Db Label) (invariant : Db → Prop) : Protocol Db Label where
  permits := protocol.permits
  invariant world := protocol.invariant world ∧ invariant world.db
  guarantee := protocol.guarantee

section Extended

variable {protocol : Protocol Db Label} {invariant : Db → Prop} {pre fact : World Db Label → Prop}
  {post : α → World Db Label → Prop} {relation : Db → Label → Db → Prop}

theorem Stable.extended (hstable : protocol.Stable number fact) :
    (protocol.extended invariant).Stable number fact :=
  fun other hne world label after hinv hholds hguarantee ↦
    hstable other hne world label after hinv.1 hholds hguarantee

theorem Persistent.extended (hfact : protocol.Persistent fact) :
    (protocol.extended invariant).Persistent fact :=
  fun number world label after hinv hholds hguarantee ↦
    hfact number world label after hinv.1 hholds hguarantee

/-- Assumes: a step of the relation that keeps the protocol keeps the invariant, where a fact that lasts
holds. A call that meets the protocol, and whose steps are of the relation, meets the protocol with the
invariant. By induction on the call, as `Meets.frame`. -/
theorem Meets.extended (hcall : protocol.Meets number call pre post) (honly : call.Only relation)
    (hfact : protocol.Persistent fact)
    (hinvariant : ∀ world label after, protocol.invariant world → invariant world.db → fact world →
      protocol.Keeps number world label after → relation world.db label after → invariant after) :
    (protocol.extended invariant).Meets number call (fun world ↦ pre world ∧ fact world)
      fun value world ↦ post value world ∧ fact world := by
  induction call generalizing pre with
  | done outcome =>
    cases outcome with
    | ok value => exact fun world hinv hpre ↦ ⟨hcall world hinv.1 hpre.1, hpre.2⟩
    | error failure => trivial
  | step label act next ih =>
    obtain ⟨assertion, hstable, hfallback, hstep⟩ := hcall
    refine ⟨fun world ↦ assertion world ∧ fact world, hstable.extended.and hfact.extended.stable,
      fun world hinv hpre ↦ ⟨hfallback world hinv.1 hpre.1, hpre.2⟩, ?_⟩
    intro world hinv hholds hpermits
    obtain ⟨hkeeps, hnext⟩ := hstep world hinv.1 hholds.1 hpermits
    obtain ⟨hbound, hrest⟩ := honly world.db
    have hkept := hinvariant world (label world.db) (act world.db) hinv.1 hinv.2 hholds.2 hkeeps
      hbound
    refine ⟨⟨hkeeps.guarantee, hkeeps.invariant, hkept⟩,
      (ih world.db hnext hrest).strengthen fun _ _ heq ↦ ⟨heq, ?_⟩⟩
    rw [heq]
    exact hfact number world _ _ hinv.1 hholds.2 hkeeps.guarantee

end Extended

end RallyApi.Concurrency.Protocol

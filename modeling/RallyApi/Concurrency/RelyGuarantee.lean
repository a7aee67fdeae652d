import Mathlib.Tactic.Choose
import RallyApi.Concurrency.Interleaving

/-!
# Rely and guarantee for interleaved calls

The invariant rule of `Interleaving` knows nothing of what a call has read. When a later step is
only right because of an earlier one, each call is verified against a `Protocol`: an invariant of
the shared world, and a guarantee that every step of call `number` keeps towards the others. An
assertion of one call is `Stable` when the guarantees of the others keep it, so it survives any
interleaving. `Protocol.Meets` is the judgement that a call, started where its precondition holds,
keeps the protocol at every step and ends where its postcondition holds; it is derived along the
text of the call by `Meets.bind`, `Meets.query`, `Meets.atomically` and, for calls whose steps
matter to nobody, `Meets.of_only`.

`Protocol.reachable_invariant` and `Protocol.step_guarantee` are the soundness theorems: when the
call of every request meets the protocol, the invariant holds of every reachable world and every
step of the system keeps the guarantee. The history of the world serves as the auxiliary variable,
and a call starts knowing that none of its entries is there yet (`Fresh`).
-/

set_option autoImplicit false
set_option relaxedAutoImplicit false

namespace RallyApi.Concurrency

/-- What the calls of a system may rely on and must keep: the steps a run permits, the invariant of
the world, and the guarantee of call `number` for the step that goes from a world, with a label, to
a store. -/
structure Protocol (Db Label : Type) where
  permits : World Db Label → Label → Prop
  invariant : World Db Label → Prop
  guarantee : ℕ → World Db Label → Label → Db → Prop

/-- Call `number` has not taken a step yet. -/
def Fresh {Db Label : Type} (number : ℕ) (world : World Db Label) : Prop :=
  world.history number = []

namespace Protocol

variable {Db Label Failure α β Request : Type} (protocol : Protocol Db Label)

/-- An assertion of call `number` that the steps of the other calls keep. -/
def Stable (number : ℕ) (assertion : World Db Label → Prop) : Prop :=
  ∀ other, other ≠ number → ∀ world label after, protocol.invariant world → assertion world →
    protocol.guarantee other world label after → assertion (world.after other label after)

/-- A step of call `number` keeps its guarantee and re-establishes the invariant. -/
structure Keeps (number : ℕ) (world : World Db Label) (label : Label) (after : Db) : Prop where
  guarantee : protocol.guarantee number world label after
  invariant : protocol.invariant (world.after number label after)

/-- The call, started in a world of the invariant where `pre` holds, keeps the protocol at each of
its steps, and `post` holds of its result and the world it returns in. Before each step the call
falls back on a stable assertion, since other calls may run in between. -/
def Meets (number : ℕ) : Call Db Label Failure α → (World Db Label → Prop) →
    (α → World Db Label → Prop) → Prop
  | .done (.ok value), pre, post =>
    ∀ world, protocol.invariant world → pre world → post value world
  | .done (.error _), _, _ => True
  | .step label act next, pre, post =>
    ∃ assertion, protocol.Stable number assertion ∧
      (∀ world, protocol.invariant world → pre world → assertion world) ∧
      ∀ world, protocol.invariant world → assertion world →
        protocol.permits world (label world.db) →
        protocol.Keeps number world (label world.db) (act world.db) ∧
          Meets number (next world.db)
            (fun after ↦ after = world.after number (label world.db) (act world.db)) post

variable {protocol} {number : ℕ} {call : Call Db Label Failure α}
  {pre stronger : World Db Label → Prop} {post weaker : α → World Db Label → Prop}

/-! ### Rules for the judgement -/

theorem stable_true : protocol.Stable number fun _ ↦ True := fun _ _ _ _ _ _ _ _ ↦ trivial

/-- What a call knows of its own steps is not disturbed by the others. -/
theorem stable_history (property : List Label → Prop) :
    protocol.Stable number fun world ↦ property (world.history number) := by
  intro other hne world label after _ hproperty _
  rwa [history_after_of_ne _ _ _ hne]

/-- Two facts that the others keep. -/
theorem Stable.and {first second : World Db Label → Prop} (hfirst : protocol.Stable number first)
    (hsecond : protocol.Stable number second) :
    protocol.Stable number fun world ↦ first world ∧ second world :=
  fun other hne world label after hinv hboth hguarantee ↦
    ⟨hfirst other hne world label after hinv hboth.1 hguarantee,
      hsecond other hne world label after hinv hboth.2 hguarantee⟩

/-- The precondition may be strengthened and the postcondition weakened. -/
theorem Meets.conseq (hcall : protocol.Meets number call pre post)
    (hpre : ∀ world, protocol.invariant world → stronger world → pre world)
    (hpost : ∀ value world, protocol.invariant world → post value world → weaker value world) :
    protocol.Meets number call stronger weaker := by
  induction call generalizing pre stronger with
  | done outcome =>
    cases outcome with
    | ok value =>
      exact fun world hinv hstronger ↦ hpost value world hinv (hcall world hinv (hpre world hinv
        hstronger))
    | error failure => trivial
  | step label act next ih =>
    obtain ⟨assertion, hstable, hfallback, hstep⟩ := hcall
    refine ⟨assertion, hstable, fun world hinv h ↦ hfallback world hinv (hpre world hinv h), ?_⟩
    intro world hinv hassertion hpermits
    obtain ⟨hkeeps, hnext⟩ := hstep world hinv hassertion hpermits
    exact ⟨hkeeps, ih world.db hnext fun _ _ h ↦ h⟩

/-- The precondition may be strengthened. -/
theorem Meets.strengthen (hcall : protocol.Meets number call pre post)
    (hpre : ∀ world, protocol.invariant world → stronger world → pre world) :
    protocol.Meets number call stronger post :=
  hcall.conseq hpre fun _ _ _ h ↦ h

/-- A call may be verified for each value of a logical variable of its precondition. -/
theorem meets_exists {ι : Sort*} {family : ι → World Db Label → Prop}
    (hcall : ∀ index, protocol.Meets number call (family index) post) :
    protocol.Meets number call (fun world ↦ ∃ index, family index world) post := by
  cases call with
  | done outcome =>
    cases outcome with
    | ok value => exact fun world hinv ⟨index, hpre⟩ ↦ hcall index world hinv hpre
    | error failure => trivial
  | step label act next =>
    choose assertion hstable hfallback hstep using hcall
    refine ⟨fun world ↦ ∃ index, assertion index world, ?_, ?_, ?_⟩
    · rintro other hne world label after hinv ⟨index, hassertion⟩ hguarantee
      exact ⟨index, hstable index other hne world label after hinv hassertion hguarantee⟩
    · rintro world hinv ⟨index, hpre⟩
      exact ⟨index, hfallback index world hinv hpre⟩
    · rintro world hinv ⟨index, hassertion⟩ hpermits
      exact hstep index world hinv hassertion hpermits

/-- A precondition that does not depend on the world is a fact to use. -/
theorem meets_of_fact {fact : Prop}
    (hcall : fact → protocol.Meets number call (fun _ ↦ True) post) :
    protocol.Meets number call (fun _ ↦ fact) post :=
  (meets_exists hcall).strengthen fun _ _ hfact ↦ ⟨hfact, trivial⟩

/-- A part of the precondition that does not depend on the world is a fact to use. -/
theorem meets_and_fact {fact : Prop} (hcall : fact → protocol.Meets number call pre post) :
    protocol.Meets number call (fun world ↦ pre world ∧ fact) post :=
  (meets_exists hcall).strengthen fun _ _ hpre ↦ ⟨hpre.2, hpre.1⟩

theorem meets_pure {value : α}
    (hpost : ∀ world, protocol.invariant world → pre world → post value world) :
    protocol.Meets number (pure value : Call Db Label Failure α) pre post := hpost

/-- The value of an option: afterwards it is known to be there. -/
theorem meets_require {value : Option α} {failure : Failure} :
    protocol.Meets number (Call.require value failure : Call Db Label Failure α) pre
      fun result world ↦ pre world ∧ value = some result := by
  cases value with
  | some result => exact fun _ _ hpre ↦ ⟨hpre, rfl⟩
  | none => trivial

/-- A check: afterwards its condition is known. -/
theorem meets_ensure {condition : Prop} [Decidable condition] {failure : Failure} :
    protocol.Meets number (Call.ensure condition failure : Call Db Label Failure Unit) pre
      fun _ world ↦ pre world ∧ condition := by
  unfold Call.ensure
  split_ifs with hcondition
  · exact fun _ _ hpre ↦ ⟨hpre, hcondition⟩
  · trivial

/-- Sequencing: the postcondition of a call is the precondition of its continuation, which only
has to be verified for the results the call can return. -/
theorem Meets.bind {rest : α → Call Db Label Failure β} {post' : β → World Db Label → Prop}
    (hcall : protocol.Meets number call pre post)
    (hrest : ∀ value, call.Returns value →
      protocol.Meets number (rest value) (post value) post') :
    protocol.Meets number (call >>= rest) pre post' := by
  induction call generalizing pre with
  | done outcome =>
    cases outcome with
    | ok value => exact (hrest value rfl).strengthen hcall
    | error failure => trivial
  | step label act next ih =>
    obtain ⟨assertion, hstable, hfallback, hstep⟩ := hcall
    refine ⟨assertion, hstable, hfallback, fun world hinv hassertion hpermits ↦ ?_⟩
    obtain ⟨hkeeps, hnext⟩ := hstep world hinv hassertion hpermits
    exact ⟨hkeeps, ih world.db hnext fun value hvalue ↦ hrest value ⟨_, hvalue⟩⟩

/-- Sequencing after a call of which nothing is to be known. -/
theorem Meets.andThen {rest : α → Call Db Label Failure β} {post' : β → World Db Label → Prop}
    (hcall : protocol.Meets number call pre fun _ _ ↦ True)
    (hrest : ∀ value, protocol.Meets number (rest value) (fun _ ↦ True) post') :
    protocol.Meets number (call >>= rest) pre post' :=
  hcall.bind fun value _ ↦ hrest value

/-- Mapping the result of a call. -/
theorem Meets.map {f : α → β} (hcall : protocol.Meets number call pre fun _ _ ↦ True) :
    protocol.Meets number (f <$> call) pre fun _ _ ↦ True :=
  hcall.bind fun _ _ _ _ _ ↦ trivial

/-- One atomic step from a stable assertion. Assumes: in every world of the invariant where the
assertion holds, a permitted step keeps the guarantee and the invariant and establishes the
postcondition. -/
theorem meets_atomically {assertion : World Db Label → Prop} {label : Db → Label}
    {statement : Db → α × Db} (hstable : protocol.Stable number assertion)
    (hstep : ∀ world, protocol.invariant world → assertion world →
      protocol.permits world (label world.db) →
      protocol.Keeps number world (label world.db) (statement world.db).2 ∧
        post (statement world.db).1
          (world.after number (label world.db) (statement world.db).2)) :
    protocol.Meets number (Call.atomically label statement : Call Db Label Failure α) assertion
      post := by
  refine ⟨assertion, hstable, fun _ _ h ↦ h, fun world hinv hassertion hpermits ↦ ?_⟩
  obtain ⟨hkeeps, hpost⟩ := hstep world hinv hassertion hpermits
  exact ⟨hkeeps, fun _ _ heq ↦ heq ▸ hpost⟩

/-- One atomic read from a stable assertion, as `meets_atomically`. -/
theorem meets_query {assertion : World Db Label → Prop} {label : Label} {read : Db → α}
    (hstable : protocol.Stable number assertion)
    (hstep : ∀ world, protocol.invariant world → assertion world → protocol.permits world label →
      protocol.Keeps number world label world.db ∧
        post (read world.db) (world.after number label world.db)) :
    protocol.Meets number (Call.query label read : Call Db Label Failure α) assertion post := by
  change protocol.Meets number (Call.atomically (fun _ ↦ label) fun db ↦ (read db, db)) assertion
    post
  exact meets_atomically hstable hstep

/-- One atomic step that may fail, from a stable assertion. A step that fails leaves the store
alone but is still a step of the history. -/
theorem meets_attempt {assertion : World Db Label → Prop} {label : Db → Label}
    {statement : Db → Except Failure (α × Db)} (hstable : protocol.Stable number assertion)
    (hfail : ∀ world failure, protocol.invariant world → assertion world →
      protocol.permits world (label world.db) → statement world.db = .error failure →
      protocol.Keeps number world (label world.db) world.db)
    (hok : ∀ world value after, protocol.invariant world → assertion world →
      protocol.permits world (label world.db) → statement world.db = .ok (value, after) →
      protocol.Keeps number world (label world.db) after ∧
        post value (world.after number (label world.db) after)) :
    protocol.Meets number (Call.attempt label statement) assertion post := by
  refine ⟨assertion, hstable, fun _ _ h ↦ h, fun world hinv hassertion hpermits ↦ ?_⟩
  dsimp only
  cases hstatement : statement world.db with
  | error failure =>
    exact ⟨hfail world failure hinv hassertion hpermits hstatement, trivial⟩
  | ok result =>
    obtain ⟨hkeeps, hpost⟩ :=
      hok world result.1 result.2 hinv hassertion hpermits hstatement
    exact ⟨hkeeps, fun _ _ heq ↦ heq ▸ hpost⟩

/-- A transaction from a stable assertion: it rolls back, which is a step that leaves the store
alone, or it commits. -/
theorem meets_transaction {assertion : World Db Label → Prop} {rolledBack : Label}
    {label : α → Label} {statements : Db → Except Failure (α × Db)}
    (hstable : protocol.Stable number assertion)
    (hrolledBack : ∀ world, protocol.invariant world → assertion world →
      protocol.permits world rolledBack → protocol.Keeps number world rolledBack world.db)
    (hcommit : ∀ world value after, protocol.invariant world → assertion world →
      protocol.permits world (label value) → statements world.db = .ok (value, after) →
      protocol.Keeps number world (label value) after ∧
        post value (world.after number (label value) after)) :
    protocol.Meets number (Call.transaction rolledBack label statements) assertion post := by
  refine meets_attempt hstable (fun world failure hinv hassertion hpermits hfailure ↦ ?_)
    fun world value after hinv hassertion hpermits hok ↦ ?_
  · simp only [hfailure] at hpermits ⊢
    exact hrolledBack world hinv hassertion hpermits
  · simp only [hok] at hpermits ⊢
    exact hcommit world value after hinv hassertion hpermits hok

/-- A call whose every step is bounded by a relation that keeps the protocol and a stable assertion
keeps that assertion. -/
theorem meets_of_only {relation : Db → Label → Db → Prop} {assertion : World Db Label → Prop}
    (hcall : call.Only relation) (hstable : protocol.Stable number assertion)
    (hstep : ∀ world label after, protocol.invariant world → assertion world →
      protocol.permits world label → relation world.db label after →
      protocol.Keeps number world label after ∧ assertion (world.after number label after)) :
    protocol.Meets number call assertion fun _ ↦ assertion := by
  suffices hgeneral : ∀ pre : World Db Label → Prop,
      (∀ world, protocol.invariant world → pre world → assertion world) →
        protocol.Meets number call pre fun _ ↦ assertion from hgeneral assertion fun _ _ h ↦ h
  induction call with
  | done outcome =>
    cases outcome with
    | ok value => exact fun pre hpre ↦ hpre
    | error failure => exact fun pre hpre ↦ trivial
  | step label act next ih =>
    intro pre hpre
    refine ⟨assertion, hstable, hpre, fun world hinv hassertion hpermits ↦ ?_⟩
    obtain ⟨hbound, hnext⟩ := hcall world.db
    obtain ⟨hkeeps, hkept⟩ := hstep world _ _ hinv hassertion hpermits hbound
    exact ⟨hkeeps, ih world.db hnext _ fun _ _ heq ↦ heq ▸ hkept⟩

/-- A call and its clean-up. Assumes: every step of the call is bounded by a relation that keeps the
protocol and a stable assertion, from which the clean-up meets the protocol. So does the whole. -/
theorem meets_tryFinally {relation : Db → Label → Db → Prop} {assertion : World Db Label → Prop}
    {cleanup : Call Db Label Failure Unit} (hcall : call.Only relation)
    (hstable : protocol.Stable number assertion)
    (hstep : ∀ world label after, protocol.invariant world → assertion world →
      protocol.permits world label → relation world.db label after →
      protocol.Keeps number world label after ∧ assertion (world.after number label after))
    (hcleanup : protocol.Meets number cleanup assertion fun _ _ ↦ True) :
    protocol.Meets number (call.tryFinally cleanup) assertion fun _ _ ↦ True := by
  suffices hgeneral : ∀ pre : World Db Label → Prop,
      (∀ world, protocol.invariant world → pre world → assertion world) →
        protocol.Meets number (call.tryFinally cleanup) pre fun _ _ ↦ True from
    hgeneral assertion fun _ _ h ↦ h
  induction call with
  | done outcome =>
    intro pre hpre
    refine (hcleanup.strengthen hpre).bind fun _ _ ↦ ?_
    cases outcome with
    | ok value => exact fun _ _ _ ↦ trivial
    | error failure => trivial
  | step label act next ih =>
    intro pre hpre
    refine ⟨assertion, hstable, hpre, fun world hinv hassertion hpermits ↦ ?_⟩
    obtain ⟨hbound, hnext⟩ := hcall world.db
    obtain ⟨hkeeps, hkept⟩ := hstep world _ _ hinv hassertion hpermits hbound
    exact ⟨hkeeps, ih world.db hnext _ fun _ _ heq ↦ heq ▸ hkept⟩

/-- A call in flight may fall back on a stable assertion at once. Assumes: the others keep what it
promises of its result. -/
theorem Meets.stabilise (hcall : protocol.Meets number call pre post)
    (hpost : ∀ value, protocol.Stable number (post value)) {world : World Db Label}
    (hinv : protocol.invariant world) (hpre : pre world) :
    ∃ assertion, protocol.Stable number assertion ∧ assertion world ∧
      protocol.Meets number call assertion post := by
  cases call with
  | done outcome =>
    cases outcome with
    | ok value => exact ⟨post value, hpost value, hcall world hinv hpre, fun _ _ h ↦ h⟩
    | error failure => exact ⟨fun _ ↦ True, stable_true, trivial, trivial⟩
  | step label act next =>
    obtain ⟨assertion, hstable, hfallback, hstep⟩ := hcall
    exact ⟨assertion, hstable, hfallback world hinv hpre, assertion, hstable, fun _ _ h ↦ h, hstep⟩

/-! ### Soundness -/

section Soundness

variable {serve : Request → Call Db Label Failure α} {post : ℕ → α → World Db Label → Prop}

/-- What holds of a configuration all of whose calls meet the protocol: the invariant; entries of the
history only for calls that were started; and for each call a stable assertion that holds now
and from which the rest of the call meets the protocol and promises something of its result. -/
structure Kept (protocol : Protocol Db Label) (post : ℕ → α → World Db Label → Prop)
    (config : Config Db Label Failure α) : Prop where
  invariant : protocol.invariant config.toWorld
  started : ∀ entry ∈ config.log, entry.1 < config.calls.length
  asserted : ∀ number call, config.calls[number]? = some call →
    ∃ assertion, protocol.Stable number assertion ∧ assertion config.toWorld ∧
      protocol.Meets number call assertion (post number)

/-- What a call promises of its result holds once it has returned. -/
theorem Kept.returned {config : Config Db Label Failure α} (hkept : protocol.Kept post config)
    {number : ℕ} {value : α} (hcall : config.calls[number]? = some (.done (.ok value))) :
    post number value config.toWorld := by
  obtain ⟨_, _, hassertion, hmeets⟩ := hkept.asserted number _ hcall
  exact hmeets config.toWorld hkept.invariant hassertion

variable (hpost : ∀ number value, protocol.Stable number (post number value))
  (hserve : ∀ request number, protocol.Meets number (serve request) (Fresh number) (post number))

/-- Starting a call keeps the protocol: it knows that it has no entry in the history. -/
theorem Kept.startCall {config : Config Db Label Failure α} (hkept : protocol.Kept post config)
    {call : Call Db Label Failure α} (hmeets : protocol.Meets config.calls.length call
      (Fresh config.calls.length) (post config.calls.length)) :
    protocol.Kept post { config with calls := config.calls ++ [call] } where
  invariant := hkept.invariant
  started entry hentry := by
    rw [List.length_append]
    exact Nat.lt_of_lt_of_le (hkept.started entry hentry) (Nat.le_add_right _ _)
  asserted number other hother := by
    rcases Nat.lt_or_ge number config.calls.length with hlt | hge
    · rw [List.getElem?_append_left hlt] at hother
      exact hkept.asserted number other hother
    · have hnumber : number = config.calls.length := by
        have hbound := (List.getElem?_eq_some_iff.mp hother).1
        rw [List.length_append, List.length_singleton] at hbound
        omega
      subst hnumber
      rw [List.getElem?_concat_length] at hother
      obtain rfl := Option.some.inj hother
      refine ⟨Fresh _, stable_history (· = []), ?_, hmeets⟩
      refine List.map_eq_nil_iff.mpr (List.filter_eq_nil_iff.mpr fun entry hentry ↦ ?_)
      simpa using Nat.ne_of_lt (hkept.started entry hentry)

include hserve in
/-- Starting the call of a request keeps the protocol. -/
theorem Kept.start {config : Config Db Label Failure α} (hkept : protocol.Kept post config)
    (request : Request) :
    protocol.Kept post { config with calls := config.calls ++ [serve request] } :=
  hkept.startCall (hserve request _)

include hpost in
/-- A permitted step of a call in flight keeps the guarantee and the protocol. -/
theorem Kept.resume {config : Config Db Label Failure α} (hkept : protocol.Kept post config)
    {number : ℕ} {label : Db → Label} {act : Db → Db} {next : Db → Call Db Label Failure α}
    (hcall : config.calls[number]? = some (.step label act next))
    (hpermits : protocol.permits config.toWorld (label config.db)) :
    protocol.guarantee number config.toWorld (label config.db) (act config.db) ∧
      protocol.Kept post { toWorld := config.after number (label config.db) (act config.db)
                           calls := config.calls.set number (next config.db) } := by
  obtain ⟨assertion, hstable, hassertion, hmeets⟩ := hkept.asserted number _ hcall
  obtain ⟨fallback, hfallback, himplies, hstep⟩ := hmeets
  obtain ⟨⟨hguarantee, hafter⟩, hnext⟩ := hstep config.toWorld hkept.invariant
    (himplies _ hkept.invariant hassertion) hpermits
  have hlength := (List.getElem?_eq_some_iff.mp hcall).1
  refine ⟨hguarantee, hafter, ?_, ?_⟩
  · intro entry hentry
    rw [List.length_set]
    rcases List.mem_cons.mp hentry with rfl | hold
    · exact hlength
    · exact hkept.started entry hold
  · intro other call hother
    by_cases hsame : other = number
    · subst hsame
      rw [List.getElem?_set_self hlength] at hother
      obtain rfl := Option.some.inj hother
      exact hnext.stabilise (hpost other) hafter rfl
    · rw [List.getElem?_set_ne (Ne.symm hsame)] at hother
      obtain ⟨asserted, hstable', hholds, hmeets'⟩ := hkept.asserted other call hother
      exact ⟨asserted, hstable', hstable' number (Ne.symm hsame) config.toWorld _ _
        hkept.invariant hholds hguarantee, hmeets'⟩

include hpost hserve in
/-- Assumes: the call of every request meets the protocol, the others keep what it promises of its result,
and the invariant holds of the initial world. Every reachable configuration keeps the protocol. -/
theorem reachable_kept {db : Db} (hinitial : protocol.invariant ⟨db, []⟩)
    {config : Config Db Label Failure α}
    (hreach : Reachable serve protocol.permits db config) : protocol.Kept post config := by
  induction hreach with
  | refl => exact ⟨hinitial, by simp [Config.initial], by simp [Config.initial]⟩
  | tail _ hstep ih =>
    cases hstep with
    | start request => exact ih.start hserve request
    | resume number label act next hcall hpermits => exact (ih.resume hpost hcall hpermits).2

variable (hmeets : ∀ request number,
  protocol.Meets number (serve request) (Fresh number) fun _ _ ↦ True)

include hmeets in
/-- Soundness for invariants. Assumes: the call of every request meets the protocol, and the
invariant holds of the initial world. It holds of every reachable world. -/
theorem reachable_invariant {db : Db} (hinitial : protocol.invariant ⟨db, []⟩)
    {config : Config Db Label Failure α}
    (hreach : Reachable serve protocol.permits db config) : protocol.invariant config.toWorld :=
  (reachable_kept (fun _ _ ↦ stable_true) hmeets hinitial hreach).invariant

include hmeets in
/-- Soundness for guarantees. Assumes: the call of every request meets the protocol, and the
invariant holds of the initial world. Every step of the system starts a call and leaves the world
alone, or it is a permitted step of a call that keeps the guarantee. -/
theorem step_guarantee {db : Db} (hinitial : protocol.invariant ⟨db, []⟩)
    {config after : Config Db Label Failure α}
    (hreach : Reachable serve protocol.permits db config)
    (hstep : Step serve protocol.permits config after) :
    after.toWorld = config.toWorld ∨
      ∃ number label, protocol.permits config.toWorld label ∧
        protocol.guarantee number config.toWorld label after.db ∧
        after.toWorld = config.after number label after.db := by
  cases hstep with
  | start request => exact .inl rfl
  | resume number label act next hcall hpermits =>
    have hkept := reachable_kept (fun _ _ ↦ stable_true) hmeets hinitial hreach
    exact .inr ⟨number, label config.db, hpermits,
      (hkept.resume (fun _ _ ↦ stable_true) hcall hpermits).1, rfl⟩

end Soundness

end Protocol

end RallyApi.Concurrency

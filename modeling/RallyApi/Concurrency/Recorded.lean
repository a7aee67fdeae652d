import RallyApi.Concurrency.Traces

/-!
# Histories that record the stores

`Call.recorded` labels every step of a call with the store it finds, so that the history of a run tells
every store the run has gone through, and what has happened since a call has taken its last step
(`sinceStep`). What a step may do, given the history before it, is a relation `may`; a history is `Legal` if
every step has done what it may. `reachable_legal` says that the history of every run is, where every call
keeps to it (`recording`), and `Legal.kept` what that gives: a property of the store that the steps keep
until some step ends it holds from any moment at which it does until then. `Legal.since_le` bounds how
much a quantity has fallen by the number of steps that lower it.
-/

set_option autoImplicit false
set_option relaxedAutoImplicit false

namespace RallyApi.Concurrency

/-- A step as the history records it: its label and the store it has found. -/
structure RecordedStep (Db Label : Type) where
  label : Label
  found : Db

/-- A history that records the stores, most recent step first. -/
abbrev RecordedLog (Db Label : Type) := List (ℕ × RecordedStep Db Label)

/-- The call, with every step recorded. -/
def Call.recorded {Db Label Failure α : Type} (call : Call Db Label Failure α) :
    Call Db (RecordedStep Db Label) Failure α :=
  call.traced fun db label _ ↦ ⟨label, db⟩

variable {Db Label Failure α β Request : Type}

namespace Call

variable {call : Call Db Label Failure α}

theorem recorded_bind (rest : α → Call Db Label Failure β) :
    (call >>= rest).recorded = call.recorded >>= fun value ↦ (rest value).recorded :=
  traced_bind rest

theorem recorded_require (value : Option α) (failure : Failure) :
    (require value failure : Call Db Label Failure α).recorded = require value failure :=
  traced_require value failure

theorem recorded_ensure (condition : Prop) [Decidable condition] (failure : Failure) :
    (ensure condition failure : Call Db Label Failure Unit).recorded = ensure condition failure :=
  traced_ensure condition failure

end Call

/-! ### Since the last step of a call -/

/-- The steps from the last step of a call on, and the store that step has found. -/
def sinceStep (number : ℕ) : RecordedLog Db Label → Option (RecordedLog Db Label × Db)
  | [] => none
  | (other, step) :: earlier =>
    if other = number then some ([(other, step)], step.found)
    else (sinceStep number earlier).map fun since ↦ ((other, step) :: since.1, since.2)

@[simp]
theorem sinceStep_self (number : ℕ) (step : RecordedStep Db Label) (earlier : RecordedLog Db Label) :
    sinceStep number ((number, step) :: earlier) = some ([(number, step)], step.found) := if_pos rfl

/-- A step of another call. -/
theorem sinceStep_of_ne {number other : ℕ} (hne : other ≠ number) (step : RecordedStep Db Label)
    {earlier : RecordedLog Db Label} {since : RecordedLog Db Label × Db}
    (hsince : sinceStep number earlier = some since) :
    sinceStep number ((other, step) :: earlier) = some ((other, step) :: since.1, since.2) := by
  rw [sinceStep, if_neg hne, hsince, Option.map_some]

/-! ### Legal histories -/

section Legal

variable (may : RecordedLog Db Label → ℕ → RecordedStep Db Label → Db → Prop)

/-- Every step has done what it may, given the history before it: `may` relates that history, the call, the
step and the store it leaves. -/
def Legal : Db → RecordedLog Db Label → Prop
  | _, [] => True
  | db, (number, step) :: earlier => may earlier number step db ∧ Legal step.found earlier

/-- A condition on every step of a history, given the history before it. -/
def EachStep (condition : RecordedLog Db Label → ℕ → RecordedStep Db Label → Prop) :
    RecordedLog Db Label → Prop
  | [] => True
  | (number, step) :: earlier => condition earlier number step ∧ EachStep condition earlier

instance EachStep.decidable {condition : RecordedLog Db Label → ℕ → RecordedStep Db Label → Prop}
    [∀ earlier number step, Decidable (condition earlier number step)] :
    (log : RecordedLog Db Label) → Decidable (EachStep condition log)
  | [] => .isTrue trivial
  | (number, step) :: earlier =>
    have : Decidable (EachStep condition earlier) := EachStep.decidable earlier
    inferInstanceAs (Decidable (condition earlier number step ∧ EachStep condition earlier))

variable {may} {condition : RecordedLog Db Label → ℕ → RecordedStep Db Label → Prop}

/-- Assumes: a legal history all of whose steps meet a condition, and a property that such steps keep unless
they end it. From a moment at which it holds it is kept as long as no step ends it. -/
theorem Legal.kept (property : Db → Prop) (ends : Label → Prop)
    (hstep : ∀ earlier number step after, may earlier number step after →
      condition earlier number step → ¬ ends step.label → property step.found → property after)
    {db : Db} {recent earlier : RecordedLog Db Label} {number : ℕ} {step : RecordedStep Db Label}
    (hlegal : Legal may db (recent ++ (number, step) :: earlier))
    (hcondition : EachStep condition (recent ++ (number, step) :: earlier))
    (hnone : ∀ entry ∈ recent, ¬ ends entry.2.label) (hends : ¬ ends step.label)
    (hproperty : property step.found) : property db := by
  induction recent generalizing db with
  | nil => exact hstep _ _ _ _ hlegal.1 hcondition.1 hends hproperty
  | cons entry rest ih =>
    have hfound : property entry.2.found :=
      ih hlegal.2 hcondition.2 fun other hother ↦ hnone other (List.mem_cons_of_mem _ hother)
    exact hstep _ _ _ _ hlegal.1 hcondition.1 (hnone entry List.mem_cons_self) hfound

/-- Assumes: a legal history, and a quantity that a step lowers by one at most, and only if its entry says
so. Since the last step of a call it has fallen by the number of such entries at most. -/
theorem Legal.since_le (quantity : Db → ℕ) (lowers : RecordedStep Db Label → Bool)
    (hstep : ∀ earlier number step after, may earlier number step after →
      quantity step.found ≤ quantity after + if lowers step then 1 else 0) {db : Db}
    {log : RecordedLog Db Label} (hlegal : Legal may db log) {number : ℕ}
    {since : RecordedLog Db Label × Db} (hsince : sinceStep number log = some since) :
    quantity since.2 ≤ quantity db + since.1.countP fun entry ↦ lowers entry.2 := by
  induction log generalizing db since with
  | nil => cases hsince
  | cons entry earlier ih =>
    obtain ⟨other, step⟩ := entry
    have hone := hstep _ _ _ _ hlegal.1
    by_cases hsame : other = number
    · subst hsame
      rw [sinceStep_self] at hsince
      obtain rfl := Option.some.inj hsince
      simpa [List.countP_cons] using hone
    · rw [sinceStep, if_neg hsame] at hsince
      obtain ⟨before, hbefore, rfl⟩ := Option.map_eq_some_iff.mp hsince
      have hbound := ih hlegal.2 hbefore
      simp only [List.countP_cons]
      omega

end Legal

/-! ### Calls that keep to what they may do -/

/-- Every call does what it may. -/
def recording (may : RecordedLog Db Label → ℕ → RecordedStep Db Label → Db → Prop) :
    Protocol Db (RecordedStep Db Label) where
  permits := anyStep
  invariant world := Legal may world.db world.log
  guarantee _ _ _ _ := True

namespace Protocol

variable {may : RecordedLog Db Label → ℕ → RecordedStep Db Label → Db → Prop} {number : ℕ}
  {past : RecordedLog Db Label → Prop}

/-- A property of the history that is not lost when the history grows. -/
def Lasting (past : RecordedLog Db Label → Prop) : Prop := ∀ entry log, past log → past (entry :: log)

theorem Lasting.stable (hpast : Lasting past) :
    (recording may).Stable number fun world ↦ past world.log :=
  fun _ _ _ _ _ _ hholds _ ↦ hpast _ _ hholds

/-- Some step of a call has found a store with the property. -/
def Found (number : ℕ) (property : Db → Prop) (log : RecordedLog Db Label) : Prop :=
  ∃ entry ∈ log, entry.1 = number ∧ property entry.2.found

theorem lasting_true : Lasting fun _ : RecordedLog Db Label ↦ True := fun _ _ _ ↦ trivial

theorem lasting_found (number : ℕ) (property : Db → Prop) :
    Lasting (Found number property : RecordedLog Db Label → Prop) := by
  rintro entry log ⟨earlier, hearlier, hrest⟩
  exact ⟨earlier, List.mem_cons_of_mem _ hearlier, hrest⟩

/-- Assumes: a bound on the steps of a call, which does what it may where it keeps to the bound and the past
is as it should be. Its past stays so. -/
theorem meets_recorded {call : Call Db Label Failure α} {relation : Db → Label → Db → Prop}
    (hcall : call.Only relation) (hpast : Lasting past)
    (hmay : ∀ log db label after, past log → relation db label after →
      may log number ⟨label, db⟩ after) :
    (recording may).Meets number call.recorded (fun world ↦ past world.log)
      fun _ world ↦ past world.log := by
  have hrecorded : call.recorded.Only fun db step after ↦
      step.found = db ∧ relation db step.label after :=
    hcall.traced fun _ _ _ hrelation ↦ ⟨rfl, hrelation⟩
  refine meets_of_only hrecorded hpast.stable fun world step after hlegal hholds _ hstep ↦ ?_
  obtain ⟨label, found⟩ := step
  obtain ⟨rfl, hrelation⟩ := hstep
  exact ⟨⟨trivial, hmay _ _ _ _ hholds hrelation, hlegal⟩, hpast _ _ hholds⟩

/-- A read is known to be of a store that the call has found. -/
theorem meets_recorded_query {label : Label} {read : Db → α} (hpast : Lasting past)
    (hmay : ∀ log db, past log → may log number ⟨label, db⟩ db) :
    (recording may).Meets number (Call.query label read : Call Db Label Failure α).recorded
      (fun world ↦ past world.log) fun value world ↦ Found number (fun db ↦ read db = value) world.log := by
  refine meets_traced_query hpast.stable fun world hlegal hholds ↦ ⟨⟨trivial, ?_, hlegal⟩, ?_⟩
  · exact hmay _ _ hholds
  · exact ⟨_, List.mem_cons_self, rfl, rfl⟩

/-- Assumes: every call does what it may. The history of every run is legal. -/
theorem reachable_legal {serve : Request → Call Db Label Failure α}
    (hserve : ∀ request number, (recording may).Meets number (serve request).recorded (fun _ ↦ True)
      fun _ _ ↦ True) {db : Db} {config : Config Db (RecordedStep Db Label) Failure α}
    (hreach : Reachable (fun request ↦ (serve request).recorded) anyStep db config) :
    Legal may config.db config.log :=
  (recording may).reachable_invariant (fun request number ↦
    (hserve request number).strengthen fun _ _ _ ↦ trivial) trivial hreach

end Protocol

end RallyApi.Concurrency

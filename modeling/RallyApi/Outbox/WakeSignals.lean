import RallyApi.Outbox.Relay

/-!
# Wake signals of a relay

`relay` is called by a cron tick, by a wake signal, and by the callback that an earlier run has given to
`setImmediate`. One instance of a relay runs one batch at a time: a call that finds it busy sets
`wakeOnComplete` and returns, and the `finally` block of the running batch then schedules one more run. This
module follows the two flags, the callbacks that wait in the event loop and the transactions that are open.
What a batch does between the start of `fetchBatch` and the end of its transaction is up to the subclass
and the database: an `Outcome` says whether the transaction can be opened and whether it commits.

`reachable_wakesKept`: at most one batch transaction is open, and when the instance rests every call of
`relay` has been followed by a `fetchBatch`, or by an attempt to open the transaction that failed.
`missedFetch` is a run in which the attempt fails and no `fetchBatch` follows.
-/

set_option autoImplicit false
set_option relaxedAutoImplicit false

namespace RallyApi.Outbox

open Concurrency Protocol

/-! ### The instance -/

/-- A relay service of a worker process: its two flags, how many callbacks it has waiting in the event
loop, and how many of its batch transactions are open. -/
structure RelayInstance where
  isRelaying : Bool := false
  wakeOnComplete : Bool := false
  scheduled : ℕ := 0
  openTransactions : ℕ := 0
  deriving DecidableEq, Repr

/-- What a step does: `relay` is called and finds the instance busy or not; the batch transaction is
opened or cannot be; `fetchBatch` starts; the transaction ends; the `finally` block runs, and schedules
another run or not; or none of these. -/
inductive WakeStep
  | other
  | called (busy : Bool)
  | begun (opened : Bool)
  | fetchBatch
  | ended
  | left (wake : Bool)
  deriving DecidableEq, Repr

/-- A call of an instance. It fails when its batch transaction does. -/
abbrev WakeCall := Call RelayInstance WakeStep Unit

/-- How a batch ends: whether its transaction can be opened, and whether it commits. -/
structure Outcome where
  opens : Bool
  commits : Bool

namespace RelayInstance

/-- The guard of `relay`: whether the instance is busy. If so, the wake is noted. -/
def enter (relay : RelayInstance) : Bool × RelayInstance :=
  if relay.isRelaying then (true, { relay with wakeOnComplete := true })
  else (false, { relay with isRelaying := true })

/-- The `finally` block of `relay`: whether a wake arrived in the meantime. If so, another run is
scheduled. -/
def leave (relay : RelayInstance) : Bool × RelayInstance :=
  if relay.wakeOnComplete then
    (true, { relay with
      isRelaying := false, wakeOnComplete := false, scheduled := relay.scheduled + 1 })
  else (false, { relay with isRelaying := false })

end RelayInstance

/-- `db.transaction` opens a transaction, or throws. -/
def openTransaction (opens : Bool) : WakeCall Unit :=
  Call.atomically (fun _ ↦ .begun opens) (fun relay ↦
    ((), if opens then { relay with openTransactions := relay.openTransactions + 1 } else relay)) >>=
    fun _ ↦ Call.ensure (opens = true) ()

/-- The callback of `db.transaction`, from its first statement to the end of the transaction. -/
def runBatch (commits : Bool) : WakeCall Unit := do
  Call.query .fetchBatch fun _ ↦ ()
  Call.atomically (fun _ ↦ .ended) fun relay ↦
    ((), { relay with openTransactions := relay.openTransactions - 1 })
  Call.ensure (commits = true) ()

/-- The `finally` block. -/
def leaveInstance : WakeCall Unit :=
  Call.atomically (fun relay ↦ .left relay.leave.1) fun relay ↦ ((), relay.leave.2)

/-- `relay` past its guard. -/
def relayOnce (outcome : Outcome) : WakeCall Unit :=
  (openTransaction outcome.opens >>= fun _ ↦ runBatch outcome.commits).tryFinally leaveInstance

/-- `relay`. -/
def relayInstance (outcome : Outcome) : WakeCall Unit := do
  let busy ← Call.atomically (fun relay ↦ .called relay.enter.1) RelayInstance.enter
  if busy then pure () else relayOnce outcome

/-- The event loop turns: if a callback waits, it is taken out and calls `relay`. -/
def runImmediate (outcome : Outcome) : WakeCall Unit := do
  let idle ← Call.atomically
    (fun relay ↦ if relay.scheduled = 0 then .other else .called relay.enter.1)
    fun relay ↦ if relay.scheduled = 0 then (true, relay) else
      { relay with scheduled := relay.scheduled - 1 }.enter
  if idle then pure () else relayOnce outcome

/-- What happens to an instance: it is called, or the event loop turns. -/
inductive WakeRequest
  | relay (outcome : Outcome)
  | immediate (outcome : Outcome)

/-- The call that serves a request. -/
def WakeRequest.serve : WakeRequest → WakeCall Unit
  | .relay outcome => relayInstance outcome
  | .immediate outcome => runImmediate outcome

/-! ### The property -/

/-- The history of a run of an instance. -/
abbrev WakeLog := List (ℕ × WakeStep)

/-- No batch is running and no run is scheduled. -/
def RelayInstance.Rests (relay : RelayInstance) : Prop :=
  relay.isRelaying = false ∧ relay.scheduled = 0

/-- Every call of `relay` has been followed by a step that serves it. -/
def CallsFollowed (serves : WakeStep → Prop) (log : WakeLog) : Prop :=
  ∀ later number busy earlier, log = later ++ (number, .called busy) :: earlier →
    ∃ entry ∈ later, serves entry.2

/-- The step starts `fetchBatch`. -/
def WakeStep.Fetches (step : WakeStep) : Prop := step = .fetchBatch

/-- The step starts `fetchBatch`, or fails to open the transaction for it. -/
def WakeStep.TriesToFetch (step : WakeStep) : Prop := step = .fetchBatch ∨ step = .begun false

/-! ### The run that holds the guard -/

/-- Where a run of `relay` past its guard is: before its transaction, in it and before `fetchBatch`, in it
and after, or behind it. -/
inductive Phase
  | beginning
  | opened
  | fetching
  | leaving
  deriving DecidableEq, Repr

/-- How many transactions a run has open. -/
def Phase.openTransactions : Phase → ℕ
  | .beginning | .leaving => 0
  | .opened | .fetching => 1

/-- A `fetchBatch` of the run is still to come, or the attempt to get to it. -/
def Phase.WillTry (phase : Phase) : Prop := phase = .beginning ∨ phase = .opened

/-- The run that is past the guard, and where it is. -/
def running : WakeLog → Option (ℕ × Phase)
  | [] => none
  | (_, .other) :: earlier => running earlier
  | (_, .called true) :: earlier => running earlier
  | (number, .called false) :: _ => some (number, .beginning)
  | (number, .begun true) :: _ => some (number, .opened)
  | (number, .begun false) :: _ => some (number, .leaving)
  | (number, .fetchBatch) :: _ => some (number, .fetching)
  | (number, .ended) :: _ => some (number, .leaving)
  | (_, .left _) :: _ => none

/-- Call `number` is past the guard, where the phase says. -/
def At (number : ℕ) (phase : Phase) (world : World RelayInstance WakeStep) : Prop :=
  running world.log = some (number, phase)

/-- The steps that call `number` may take, given the run that is past the guard. -/
inductive MayStep (number : ℕ) : Option (ℕ × Phase) → WakeStep → Prop
  | other (current : Option (ℕ × Phase)) : MayStep number current .other
  | noted (current : ℕ × Phase) : MayStep number (some current) (.called true)
  | entered : MayStep number none (.called false)
  | begun (opened : Bool) : MayStep number (some (number, .beginning)) (.begun opened)
  | fetchBatch : MayStep number (some (number, .opened)) .fetchBatch
  | ended : MayStep number (some (number, .fetching)) .ended
  | left (wake : Bool) : MayStep number (some (number, .leaving)) (.left wake)

/-- Some call of `relay` has not been served yet. -/
def Unserved : WakeLog → Prop
  | [] => False
  | (_, .called _) :: _ => True
  | (_, .begun false) :: _ => False
  | (_, .fetchBatch) :: _ => False
  | (_, .other) :: earlier => Unserved earlier
  | (_, .begun true) :: earlier => Unserved earlier
  | (_, .ended) :: earlier => Unserved earlier
  | (_, .left _) :: earlier => Unserved earlier

/-- What holds of an instance: the flag `isRelaying` and the open transactions are those of the run past
the guard, a wake is noted only while there is one, and a call that has not been served is noted,
scheduled, or waits for that run. -/
structure WakesKept (world : World RelayInstance WakeStep) : Prop where
  isRelaying : world.db.isRelaying = (running world.log).isSome
  openTransactions : world.db.openTransactions =
    (running world.log).elim 0 fun current ↦ current.2.openTransactions
  noted : world.db.wakeOnComplete = true → (running world.log).isSome = true
  unserved : Unserved world.log → world.db.wakeOnComplete = true ∨ 0 < world.db.scheduled ∨
    ∃ number phase, At number phase world ∧ phase.WillTry

/-- Every call keeps the flags and steps only when it is its turn. -/
def wakeProtocol : Protocol RelayInstance WakeStep where
  permits := anyStep
  invariant := WakesKept
  guarantee number world label _ := MayStep number (running world.log) label

variable {world : World RelayInstance WakeStep} {number : ℕ} {phase : Phase} {log : WakeLog}

/-- When no call is unserved, every call has been followed by an attempt to fetch. -/
theorem callsFollowed_of_not_unserved (hserved : ¬ Unserved log) :
    CallsFollowed WakeStep.TriesToFetch log := by
  intro later number busy earlier hlog
  subst hlog
  induction later with
  | nil => exact absurd trivial hserved
  | cons entry later ih =>
    obtain ⟨taker, step⟩ := entry
    by_cases htries : step.TriesToFetch
    · exact ⟨(taker, step), List.mem_cons_self, htries⟩
    · have hrest : ¬ Unserved (later ++ (number, .called busy) :: earlier) := by
        intro hunserved
        apply hserved
        rcases step with _ | _ | ⟨_ | _⟩ | _ | _ | _
        · exact hunserved
        · exact trivial
        · exact absurd (.inr rfl) htries
        · exact hunserved
        · exact absurd (.inl rfl) htries
        · exact hunserved
        · exact hunserved
      obtain ⟨found, hmem, hfound⟩ := ih hrest
      exact ⟨found, List.mem_cons_of_mem _ hmem, hfound⟩

/-- The others do not move the run that is past the guard. -/
theorem stable_at (number : ℕ) (phase : Phase) : wakeProtocol.Stable number (At number phase) := by
  intro other hne world label after _ hrunning hguarantee
  change MayStep other (running world.log) label at hguarantee
  rw [At] at hrunning
  rw [hrunning] at hguarantee
  cases hguarantee with
  | other => exact hrunning
  | noted => exact hrunning
  | begun => exact absurd rfl hne
  | fetchBatch => exact absurd rfl hne
  | ended => exact absurd rfl hne
  | left => exact absurd rfl hne

/-! ### What a step preserves -/

/-- A call that finds the instance busy leaves a note. -/
theorem WakesKept.called (hkept : WakesKept world) (scheduled : ℕ) :
    wakeProtocol.Keeps number world (.called world.db.enter.1)
      { world.db with scheduled }.enter.2 := by
  cases hbusy : world.db.isRelaying with
  | true =>
    have hsome : (running world.log).isSome = true := hkept.isRelaying ▸ hbusy
    obtain ⟨current, hcurrent⟩ := Option.isSome_iff_exists.mp hsome
    have henter : world.db.enter.1 = true := by simp [RelayInstance.enter, hbusy]
    have hafter : { world.db with scheduled }.enter.2 =
        { world.db with scheduled, wakeOnComplete := true } := by simp [RelayInstance.enter, hbusy]
    rw [henter, hafter]
    refine ⟨?_, hkept.isRelaying, hkept.openTransactions, fun _ ↦ hsome, fun _ ↦ .inl rfl⟩
    change MayStep number (running world.log) _
    rw [hcurrent]
    exact .noted current
  | false =>
    have hnone : running world.log = none := by
      rw [← Option.not_isSome_iff_eq_none, ← hkept.isRelaying, hbusy]
      exact Bool.false_ne_true
    have henter : world.db.enter.1 = false := by simp [RelayInstance.enter, hbusy]
    have hafter : { world.db with scheduled }.enter.2 =
        { world.db with scheduled, isRelaying := true } := by simp [RelayInstance.enter, hbusy]
    have hclosed : world.db.openTransactions = 0 := by rw [hkept.openTransactions, hnone]; rfl
    rw [henter, hafter]
    refine ⟨?_, rfl, hclosed, fun _ ↦ rfl, fun _ ↦ .inr (.inr ⟨number, .beginning, rfl, .inl rfl⟩)⟩
    change MayStep number (running world.log) _
    rw [hnone]
    exact .entered

/-- The run that is to open its transaction opens it, or fails and goes on to the `finally` block. -/
theorem WakesKept.begun (hkept : WakesKept world)
    (hrunning : At number .beginning world) (opens : Bool) :
    wakeProtocol.Keeps number world (.begun opens)
      (if opens then { world.db with openTransactions := world.db.openTransactions + 1 }
        else world.db) := by
  have hguarantee : MayStep number (running world.log) (.begun opens) := by
    rw [hrunning]
    exact .begun opens
  have hbusy : world.db.isRelaying = true := by rw [hkept.isRelaying, hrunning]; rfl
  have hclosed : world.db.openTransactions = 0 := by rw [hkept.openTransactions, hrunning]; rfl
  cases opens with
  | true =>
    refine ⟨hguarantee, hbusy, congrArg (· + 1) hclosed, fun _ ↦ rfl, fun _ ↦ ?_⟩
    exact .inr (.inr ⟨number, .opened, rfl, .inr rfl⟩)
  | false => exact ⟨hguarantee, hbusy, hclosed, fun _ ↦ rfl, fun hunserved ↦ absurd hunserved id⟩

theorem WakesKept.fetchBatch (hkept : WakesKept world)
    (hrunning : At number .opened world) :
    wakeProtocol.Keeps number world .fetchBatch world.db := by
  have hguarantee : MayStep number (running world.log) .fetchBatch := by
    rw [hrunning]
    exact .fetchBatch
  have hbusy : world.db.isRelaying = true := by rw [hkept.isRelaying, hrunning]; rfl
  have hopen : world.db.openTransactions = 1 := by rw [hkept.openTransactions, hrunning]; rfl
  exact ⟨hguarantee, hbusy, hopen, fun _ ↦ rfl, fun hunserved ↦ absurd hunserved id⟩

/-- An unserved call does not wait for a run whose `fetchBatch` has started. -/
theorem WakesKept.noted_or_scheduled (hkept : WakesKept world)
    (hrunning : At number phase world) (hphase : ¬ phase.WillTry)
    (hunserved : Unserved world.log) :
    world.db.wakeOnComplete = true ∨ 0 < world.db.scheduled := by
  rcases hkept.unserved hunserved with hnoted | hscheduled | ⟨_, _, hcurrent, hwill⟩
  · exact .inl hnoted
  · exact .inr hscheduled
  · cases Eq.trans (Eq.symm hrunning) hcurrent
    exact absurd hwill hphase

theorem WakesKept.ended (hkept : WakesKept world)
    (hrunning : At number .fetching world) :
    wakeProtocol.Keeps number world .ended
      { world.db with openTransactions := world.db.openTransactions - 1 } := by
  have hguarantee : MayStep number (running world.log) .ended := by
    rw [hrunning]
    exact .ended
  have hbusy : world.db.isRelaying = true := by rw [hkept.isRelaying, hrunning]; rfl
  have hopen : world.db.openTransactions = 1 := by rw [hkept.openTransactions, hrunning]; rfl
  refine ⟨hguarantee, hbusy, congrArg (· - 1) hopen, fun _ ↦ rfl, fun hunserved ↦ ?_⟩
  have hphase : ¬ Phase.fetching.WillTry := by simp [Phase.WillTry]
  exact (hkept.noted_or_scheduled hrunning hphase hunserved).imp_right .inl

/-- The `finally` block turns a note into a scheduled run. -/
theorem WakesKept.left (hkept : WakesKept world)
    (hrunning : At number .leaving world) :
    wakeProtocol.Keeps number world (.left world.db.leave.1) world.db.leave.2 := by
  have hguarantee : MayStep number (running world.log) (.left world.db.leave.1) := by
    rw [hrunning]
    exact .left _
  have hclosed : world.db.openTransactions = 0 := by rw [hkept.openTransactions, hrunning]; rfl
  have hphase : ¬ Phase.leaving.WillTry := by simp [Phase.WillTry]
  cases hwake : world.db.wakeOnComplete with
  | true =>
    have hafter : world.db.leave.2 = { world.db with
        isRelaying := false, wakeOnComplete := false, scheduled := world.db.scheduled + 1 } := by
      simp [RelayInstance.leave, hwake]
    rw [hafter]
    exact ⟨hguarantee, rfl, hclosed, fun hnoted ↦ (Bool.false_ne_true hnoted).elim,
      fun _ ↦ .inr (.inl (Nat.succ_pos _))⟩
  | false =>
    have hafter : world.db.leave.2 = { world.db with isRelaying := false } := by
      simp [RelayInstance.leave, hwake]
    rw [hafter]
    have hquiet : ¬ world.db.wakeOnComplete = true := by simp [hwake]
    refine ⟨hguarantee, rfl, hclosed, fun hnoted ↦ absurd hnoted hquiet,
      fun hunserved ↦ .inr (.inl ?_)⟩
    rcases hkept.noted_or_scheduled hrunning hphase hunserved with hnoted | hscheduled
    · exact absurd hnoted hquiet
    · exact hscheduled

/-! ### Calls -/

/-- `relay` past its guard, step by step. -/
theorem relayOnce_eq (outcome : Outcome) : relayOnce outcome = (do
    Call.atomically (fun _ ↦ .begun outcome.opens) fun relay ↦
      ((), if outcome.opens then { relay with openTransactions := relay.openTransactions + 1 }
        else relay)
    if outcome.opens then
      Call.query .fetchBatch fun _ ↦ ()
      Call.atomically (fun _ ↦ .ended) fun relay ↦
        ((), { relay with openTransactions := relay.openTransactions - 1 })
      leaveInstance
      Call.ensure (outcome.commits = true) ()
    else
      leaveInstance
      throw ()) := by
  obtain ⟨opens, commits⟩ := outcome
  cases opens <;> cases commits <;> rfl

theorem meets_begun (opens : Bool) : wakeProtocol.Meets number
    (Call.atomically (fun _ ↦ .begun opens) fun relay ↦
      ((), if opens then { relay with openTransactions := relay.openTransactions + 1 } else relay) :
        WakeCall Unit)
    (At number .beginning) fun _ ↦ At number (if opens then .opened else .leaving) := by
  refine meets_atomically (stable_at number .beginning) fun world hkept hrunning _ ↦
    ⟨hkept.begun hrunning opens, ?_⟩
  cases opens <;> rfl

theorem meets_fetchBatch : wakeProtocol.Meets number
    (Call.query .fetchBatch fun _ ↦ () : WakeCall Unit)
    (At number .opened) fun _ ↦ At number .fetching :=
  meets_query (stable_at number .opened) fun _ hkept hrunning _ ↦
    ⟨hkept.fetchBatch hrunning, rfl⟩

theorem meets_ended : wakeProtocol.Meets number
    (Call.atomically (fun _ ↦ .ended) fun relay ↦
      ((), { relay with openTransactions := relay.openTransactions - 1 }) : WakeCall Unit)
    (At number .fetching) fun _ ↦ At number .leaving :=
  meets_atomically (stable_at number .fetching) fun _ hkept hrunning _ ↦
    ⟨hkept.ended hrunning, rfl⟩

theorem meets_leaveInstance : wakeProtocol.Meets number leaveInstance
    (At number .leaving) fun _ _ ↦ True :=
  meets_atomically (stable_at number .leaving) fun _ hkept hrunning _ ↦
    ⟨hkept.left hrunning, trivial⟩

theorem meets_relayOnce (outcome : Outcome) : wakeProtocol.Meets number (relayOnce outcome)
    (At number .beginning) fun _ _ ↦ True := by
  rw [relayOnce_eq]
  refine (meets_begun outcome.opens).bind fun _ _ ↦ ?_
  cases outcome.opens with
  | false => exact meets_leaveInstance.bind fun _ _ ↦ trivial
  | true =>
    refine meets_fetchBatch.bind fun _ _ ↦ ?_
    refine meets_ended.bind fun _ _ ↦ ?_
    refine meets_leaveInstance.bind fun _ _ ↦ ?_
    exact meets_ensure.conseq (fun _ _ h ↦ h) fun _ _ _ _ ↦ trivial

/-- Once past the guard, a call runs a batch; otherwise it returns. -/
theorem meets_relayUnless (outcome : Outcome) {busy : Bool} : wakeProtocol.Meets number
    (if busy then pure () else relayOnce outcome) (fun world ↦ busy = true ∨ At number .beginning world)
    fun _ _ ↦ True := by
  cases busy with
  | true => exact fun _ _ _ ↦ trivial
  | false => exact (meets_relayOnce outcome).strengthen fun _ _ h ↦ h.resolve_left Bool.false_ne_true

/-- After a call of `relay` the instance was busy, or it is the call that runs. -/
theorem busy_or_at (world : World RelayInstance WakeStep) (busy : Bool) (after : RelayInstance) :
    busy = true ∨ At number .beginning (world.after number (.called busy) after) := by
  cases busy with
  | true => exact .inl rfl
  | false => exact .inr rfl

theorem enter_fst (relay : RelayInstance) (scheduled : ℕ) :
    { relay with scheduled }.enter.1 = relay.enter.1 := by
  unfold RelayInstance.enter
  split_ifs <;> rfl

theorem meets_relayInstance (outcome : Outcome) :
    wakeProtocol.Meets number (relayInstance outcome) (fun _ ↦ True) fun _ _ ↦ True := by
  refine Meets.bind (meets_atomically Protocol.stable_true fun world hkept _ _ ↦
    ⟨hkept.called world.db.scheduled, ?_⟩) fun busy _ ↦ meets_relayUnless outcome
  exact busy_or_at world _ _

theorem meets_runImmediate (outcome : Outcome) :
    wakeProtocol.Meets number (runImmediate outcome) (fun _ ↦ True) fun _ _ ↦ True := by
  refine Meets.bind (meets_atomically Protocol.stable_true fun world hkept _ _ ↦ ?_)
    fun busy _ ↦ meets_relayUnless outcome
  by_cases hnone : world.db.scheduled = 0
  · simp only [if_pos hnone]
    refine ⟨⟨.other _, hkept.isRelaying, hkept.openTransactions, hkept.noted, hkept.unserved⟩, ?_⟩
    exact .inl trivial
  · simp only [if_neg hnone, enter_fst]
    exact ⟨hkept.called (world.db.scheduled - 1), busy_or_at world _ _⟩

theorem meets_serve (request : WakeRequest) :
    wakeProtocol.Meets number request.serve (fun _ ↦ True) fun _ _ ↦ True := by
  cases request with
  | relay outcome => exact meets_relayInstance outcome
  | immediate outcome => exact meets_runImmediate outcome

/-! ### Wake signals are not lost -/

/-- An instance that has not been called. -/
theorem wakesKept_initial : WakesKept ⟨{}, []⟩ :=
  ⟨rfl, rfl, fun hnoted ↦ (Bool.false_ne_true hnoted).elim, False.elim⟩

/-- For one instance of a relay and every run of calls of `relay`, callbacks of the event loop and
outcomes of batches: at most one batch transaction is open, and when no batch is running and no run is
scheduled, every call of `relay` has been followed by a `fetchBatch`, or by an attempt to open the
transaction for it that failed. -/
theorem reachable_wakesKept {config : Config RelayInstance WakeStep Unit Unit}
    (hreach : Reachable WakeRequest.serve anyStep {} config) :
    config.db.openTransactions ≤ 1 ∧
      (config.db.Rests → CallsFollowed WakeStep.TriesToFetch config.log) := by
  have hkept : WakesKept config.toWorld := wakeProtocol.reachable_invariant
    (fun request _ ↦ (meets_serve request).strengthen fun _ _ _ ↦ trivial) wakesKept_initial hreach
  refine ⟨?_, fun ⟨hidle, hscheduled⟩ ↦ callsFollowed_of_not_unserved fun hunserved ↦ ?_⟩
  · rw [hkept.openTransactions]
    rcases running config.log with _ | ⟨number, _ | _ | _ | _⟩ <;> simp [Phase.openTransactions]
  · have hnone : (running config.log).isSome = false := hkept.isRelaying ▸ hidle
    rcases hkept.unserved hunserved with hnoted | hwaiting | ⟨_, _, hrunning, _⟩
    · rw [hkept.noted hnoted] at hnone
      cases hnone
    · omega
    · rw [At] at hrunning
      simp [hrunning] at hnone

/-- A batch whose transaction cannot be opened, and one that a wake signal interrupts. -/
def wakeChoices : List (Choice WakeRequest) :=
  [.start (.relay ⟨true, true⟩), .resume 0, .start (.relay ⟨true, true⟩), .resume 1, .resume 0,
    .resume 0, .resume 0, .resume 0, .start (.immediate ⟨true, false⟩), .resume 2, .resume 2,
    .resume 2, .resume 2, .resume 2]

/-- A witness: a wake signal arrives before the transaction of a batch is open, and the callback of the
event loop runs a batch of its own, whose transaction does not commit. -/
theorem reachable_wakesKept_witness :
    let config := (Config.initial {}).play WakeRequest.serve wakeChoices
    config.db.openTransactions ≤ 1 ∧
      (config.db.Rests → CallsFollowed WakeStep.TriesToFetch config.log) :=
  reachable_wakesKept (play_reachable (allowsAll_anyStep _ _))

/-- A call whose batch transaction cannot be opened. -/
def missedFetchRun : Config RelayInstance WakeStep Unit Unit :=
  (Config.initial {}).play WakeRequest.serve
    [.start (.relay ⟨false, true⟩), .resume 0, .resume 0, .resume 0]

/-- The transaction of a batch cannot be opened. The instance rests, and no `fetchBatch` has followed the
call. -/
theorem missedFetch :
    ∃ config, Reachable WakeRequest.serve anyStep {} config ∧ config.db.Rests ∧
      ¬ CallsFollowed WakeStep.Fetches config.log := by
  refine ⟨missedFetchRun, play_reachable (allowsAll_anyStep _ _), ⟨rfl, rfl⟩, fun hfollowed ↦ ?_⟩
  obtain ⟨entry, hmem, hfetches⟩ := hfollowed [(0, .left false), (0, .begun false)] 0 false [] rfl
  rcases List.mem_cons.mp hmem with rfl | hmem
  · cases hfetches
  · rcases List.mem_singleton.mp hmem with rfl
    cases hfetches

end RallyApi.Outbox

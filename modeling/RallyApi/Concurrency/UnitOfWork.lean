import RallyApi.Concurrency.Failures
import RallyApi.Concurrency.Requests

/-!
# Units of work

`Call.unitOfWork` runs a call in one transaction: what it leaves is committed in one step if it returns, and
if it fails, at whichever step, nothing is.

A call that is `AllOrNothing` does nothing up to the step with which it returns, and everything in that one,
whatever the others do in between. It stays so when one of its steps fails (`AllOrNothing.failing`), and
every step of a run is one or the other (`reachableBy_allOrNothing`).
-/

set_option autoImplicit false
set_option relaxedAutoImplicit false

namespace RallyApi.Concurrency

variable {Db Label Failure α β Request : Type}

namespace Call

variable {call : Call Db Label Failure α} {db after : Db} {value : α}

/-! ### Steps that fail -/

/-- The call, a step of which may fail: the one after the first so many. -/
def failing (fault : Option (ℕ × Failure)) (call : Call Db Label Failure α) : Call Db Label Failure α :=
  match fault with
  | none => call
  | some (steps, failure) => call.interrupted failure steps

/-! ### Transactions -/

/-- What the call leaves if it returns, run on a copy of the store. -/
def committed (call : Call Db Label Failure α) (db : Db) : Except Failure (α × Db) :=
  match call.run db with
  | (.ok value, after) => .ok (value, after)
  | (.error failure, _) => .error failure

/-- The call in one transaction. -/
def unitOfWork (rolledBack : Label) (label : α → Label) (work : Call Db Label Failure α) :
    Call Db Label Failure α :=
  transaction rolledBack label work.committed

theorem committed_eq_ok : call.committed db = .ok (value, after) ↔ call.run db = (.ok value, after) := by
  unfold committed
  rcases call.run db with ⟨value | failure, store⟩ <;> simp

@[simp]
theorem committed_atomically (label : Db → Label) (statement : Db → α × Db) (db : Db) :
    (atomically label statement : Call Db Label Failure α).committed db = .ok (statement db) := rfl

@[simp]
theorem committed_attempt (label : Db → Label) (statement : Db → Except Failure (α × Db)) (db : Db) :
    (attempt label statement).committed db = statement db := by
  rw [committed, run_attempt]
  cases statement db <;> rfl

/-- A sequence commits what the rest does, from what the first part leaves. -/
@[simp]
theorem committed_bind (call : Call Db Label Failure α) (rest : α → Call Db Label Failure β) (db : Db) :
    (call >>= rest).committed db =
      call.committed db >>= fun result ↦ (rest result.1).committed result.2 := by
  simp only [committed, run_bind]
  rcases call.run db with ⟨value | failure, store⟩ <;> rfl

/-- A call a step of which fails commits nothing else. -/
theorem committed_failing {fault : Option (ℕ × Failure)}
    (hcommitted : (call.failing fault).committed db = .ok (value, after)) :
    call.committed db = .ok (value, after) := by
  cases fault with
  | none => exact hcommitted
  | some fault =>
    rw [committed_eq_ok] at hcommitted ⊢
    rcases interrupted_run call fault.2 fault.1 db with hrun | ⟨seen, _, hrun⟩
    · exact hrun.symm.trans hcommitted
    · cases hrun.symm.trans hcommitted

/-! ### All or nothing -/

/-- The call has not returned. Each of its steps leaves things the same and does not return, or returns, and
then something is established of the stores before and after. -/
def AllOrNothing (same : Db → Db → Prop) (post : Db → α → Db → Prop) : Call Db Label Failure α → Prop
  | done (.ok _) => False
  | done (.error _) => True
  | step _ act next => ∀ db, (∃ value, next db = done (.ok value) ∧ post db value (act db)) ∨
      same db (act db) ∧ (next db).AllOrNothing same post

variable {same : Db → Db → Prop} {post : Db → α → Db → Prop}

/-- A call that leaves things the same, and then one that does all or nothing. -/
theorem allOrNothing_bind {first : Call Db Label Failure β} {rest : β → Call Db Label Failure α}
    (hfirst : first.Only fun db _ after ↦ same db after)
    (hrest : ∀ value, first.Returns value → (rest value).AllOrNothing same post) :
    (first >>= rest).AllOrNothing same post := by
  induction first with
  | done outcome =>
    cases outcome with
    | ok value => exact hrest value rfl
    | error failure => trivial
  | step label act next ih =>
    exact fun db ↦ .inr ⟨(hfirst db).1, ih db (hfirst db).2 fun value hvalue ↦ hrest value ⟨db, hvalue⟩⟩

/-- What is established may be weakened. -/
theorem AllOrNothing.mono {weaker : Db → α → Db → Prop} (hcall : call.AllOrNothing same post)
    (hpost : ∀ db value after, post db value after → weaker db value after) :
    call.AllOrNothing same weaker := by
  induction call with
  | done outcome => cases outcome <;> exact hcall
  | step label act next ih =>
    intro db
    rcases hcall db with ⟨value, hnext, hholds⟩ | ⟨hsame, hrest⟩
    · exact .inl ⟨value, hnext, hpost db value _ hholds⟩
    · exact .inr ⟨hsame, ih db hrest⟩

theorem allOrNothing_map {f : α → β} {post : Db → β → Db → Prop}
    (hcall : call.AllOrNothing same fun db value after ↦ post db (f value) after) :
    (f <$> call).AllOrNothing same post := by
  induction call with
  | done outcome => cases outcome <;> exact hcall
  | step label act next ih =>
    intro db
    rcases hcall db with ⟨value, hnext, hpost⟩ | ⟨hsame, hrest⟩
    · exact .inl ⟨f value, congrArg (f <$> ·) hnext, hpost⟩
    · exact .inr ⟨hsame, ih db hrest⟩

/-- A transaction that is rolled back leaves everything the same. -/
theorem allOrNothing_transaction {rolledBack : Label} {label : α → Label}
    {statements : Db → Except Failure (α × Db)} (hrefl : ∀ db, same db db)
    (hcommit : ∀ db value after, statements db = .ok (value, after) → post db value after) :
    (transaction rolledBack label statements).AllOrNothing same post := by
  intro db
  dsimp only
  cases hrun : statements db with
  | ok result => exact .inl ⟨result.1, rfl, hcommit db result.1 result.2 hrun⟩
  | error failure => exact .inr ⟨hrefl db, trivial⟩

theorem AllOrNothing.interrupted (hcall : call.AllOrNothing same post) (failure : Failure) (steps : ℕ) :
    (call.interrupted failure steps).AllOrNothing same post := by
  induction call generalizing steps with
  | done outcome => exact hcall
  | step label act next ih =>
    cases steps with
    | zero => trivial
    | succ steps =>
      intro db
      rcases hcall db with ⟨value, hnext, hpost⟩ | ⟨hsame, hrest⟩
      · exact .inl ⟨value, congrArg (Call.interrupted failure · steps) hnext, hpost⟩
      · exact .inr ⟨hsame, ih db hrest steps⟩

/-- A failing step takes nothing away from it. -/
theorem AllOrNothing.failing (hcall : call.AllOrNothing same post) (fault : Option (ℕ × Failure)) :
    (call.failing fault).AllOrNothing same post := by
  cases fault with
  | none => exact hcall
  | some fault => exact hcall.interrupted fault.2 fault.1

end Call

/-! ### Runs -/

variable {serve : Request → Call Db Label Failure α} {permits : World Db Label → Label → Prop} {db : Db}
  {requests : List Request} {config : Config Db Label Failure α} {same : Db → Db → Prop}
  {post : Db → α → Db → Prop}

/-- A call in flight of a request that does all or nothing has done nothing yet. -/
theorem reachableBy_allOrNothing (hreach : ReachableBy serve permits db requests config) {number : ℕ}
    {request : Request} (hrequest : requests[number]? = some request)
    (hserve : (serve request).AllOrNothing same post) {call : Call Db Label Failure α}
    (hcall : config.calls[number]? = some call) :
    (∃ value, call = .done (.ok value)) ∨ call.AllOrNothing same post := by
  refine hreach.call (fun call ↦ (∃ value, call = .done (.ok value)) ∨ call.AllOrNothing same post) hrequest
    (.inr hserve) (fun label act next db hbefore ↦ ?_) hcall
  rcases hbefore with ⟨value, hdone⟩ | hrest
  · cases hdone
  · rcases hrest db with ⟨value, hnext, _⟩ | ⟨_, hlater⟩
    · exact .inl ⟨value, hnext⟩
    · exact .inr hlater

namespace Protocol

variable {protocol : Protocol Db Label} {number : ℕ} {call : Call Db Label Failure α}
  {pre : World Db Label → Prop} {result : α → World Db Label → Prop}

/-- A call a step of which fails keeps the protocol. -/
theorem Meets.interrupted (hcall : protocol.Meets number call pre result) (failure : Failure) (steps : ℕ) :
    protocol.Meets number (call.interrupted failure steps) pre result := by
  induction call generalizing pre steps with
  | done outcome => exact hcall
  | step label act next ih =>
    cases steps with
    | zero => trivial
    | succ steps =>
      obtain ⟨assertion, hstable, hfallback, hstep⟩ := hcall
      refine ⟨assertion, hstable, hfallback, fun world hinv hholds hpermits ↦ ?_⟩
      obtain ⟨hkeeps, hnext⟩ := hstep world hinv hholds hpermits
      exact ⟨hkeeps, ih world.db hnext steps⟩

theorem Meets.failing (hcall : protocol.Meets number call pre result) (fault : Option (ℕ × Failure)) :
    protocol.Meets number (call.failing fault) pre result := by
  cases fault with
  | none => exact hcall
  | some fault => exact hcall.interrupted fault.2 fault.1

end Protocol

end RallyApi.Concurrency

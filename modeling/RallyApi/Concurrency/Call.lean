import Mathlib.Logic.Basic
import Mathlib.Tactic.SplitIfs

/-!
# Service calls as sequences of atomic steps

A service call that talks to a shared store is a sequence of atomic steps: a statement, or a
transaction whose writes commit together. Between two steps any other call may run. `Call` is the
tree of the steps a call will take, with one branch for each store it may find, so the sequence
is not fixed in advance: what a step returns decides what follows.

A step carries a label, computed from the store it finds. Labels are for the proofs: the history
of a run is the list of the labels of its steps, and the conditions on a run speak about them.

`Call.run` executes a call in isolation. `Call.Only` bounds every step a call can ever take, from
any store, by a relation between the store before, the label and the store after; it is the
inversion lemma of a call, and `only_bind` splits it along the text of the call.
-/

set_option autoImplicit false
set_option relaxedAutoImplicit false

namespace RallyApi.Concurrency

/-- A call over the store `Db`: finished with an outcome, or about to take an atomic step. The
label of the step, the store it leaves and the rest of the call are read off the store it finds. -/
inductive Call (Db Label Failure α : Type) : Type
  | done (outcome : Except Failure α)
  | step (label : Db → Label) (act : Db → Db) (next : Db → Call Db Label Failure α)

namespace Call

variable {Db Label Failure α β γ : Type}

/-! ### Sequencing -/

/-- Runs a call and then, when it returns, the continuation on its result. A failure ends both. -/
def bind : Call Db Label Failure α → (α → Call Db Label Failure β) → Call Db Label Failure β
  | done (.ok value), rest => rest value
  | done (.error failure), _ => done (.error failure)
  | step label act next, rest => step label act fun db ↦ (next db).bind rest

/-- Runs a call and, when it fails, the handler on its failure: `try … catch`. -/
def handle : Call Db Label Failure α → (Failure → Call Db Label Failure α) →
    Call Db Label Failure α
  | done (.ok value), _ => done (.ok value)
  | done (.error failure), handler => handler failure
  | step label act next, handler => step label act fun db ↦ (next db).handle handler

/-- Runs a call and then, however it ends, the clean-up: `try … finally`. -/
def tryFinally (call : Call Db Label Failure α) (cleanup : Call Db Label Failure Unit) :
    Call Db Label Failure α :=
  match call with
  | done outcome => cleanup.bind fun _ ↦ done outcome
  | step label act next => step label act fun db ↦ (next db).tryFinally cleanup

/-- Runs a call and returns how it ended. -/
def outcome : Call Db Label Failure α → Call Db Label Failure (Except Failure α)
  | done outcome => done (.ok outcome)
  | step label act next => step label act fun db ↦ (next db).outcome

instance : Monad (Call Db Label Failure) where
  pure value := done (.ok value)
  bind := bind

instance : MonadExceptOf Failure (Call Db Label Failure) where
  throw failure := done (.error failure)
  tryCatch := handle

/-- One atomic step that may fail: a failing step leaves the store as it found it. -/
def attempt (label : Db → Label) (statement : Db → Except Failure (α × Db)) :
    Call Db Label Failure α :=
  step label
    (fun db ↦ match statement db with
      | .ok (_, after) => after
      | .error _ => db)
    fun db ↦ done ((statement db).map Prod.fst)

/-- A transaction: its writes commit together, and the step is labelled by what it returns. A
failure inside it rolls it back, so the store stays as it was, under the label `rolledBack`. -/
def transaction (rolledBack : Label) (label : α → Label)
    (statements : Db → Except Failure (α × Db)) : Call Db Label Failure α :=
  attempt
    (fun db ↦ match statements db with
      | .ok (value, _) => label value
      | .error _ => rolledBack)
    statements

/-- One atomic step that does not fail. -/
def atomically (label : Db → Label) (statement : Db → α × Db) : Call Db Label Failure α :=
  step label (fun db ↦ (statement db).2) fun db ↦ done (.ok (statement db).1)

/-- One atomic step that only reads the store. -/
def query (label : Label) (read : Db → α) : Call Db Label Failure α :=
  step (fun _ ↦ label) id fun db ↦ done (.ok (read db))

/-- The value of an option, or a failure when there is none. -/
def require (value : Option α) (failure : Failure) : Call Db Label Failure α :=
  match value with
  | some value => pure value
  | none => throw failure

/-- Goes on when the condition holds and fails otherwise. -/
def ensure (condition : Prop) [Decidable condition] (failure : Failure) :
    Call Db Label Failure Unit :=
  if condition then pure () else throw failure

@[simp]
theorem bind_ok (value : α) (rest : α → Call Db Label Failure β) :
    (done (.ok value) : Call Db Label Failure α) >>= rest = rest value := rfl

@[simp]
theorem bind_error (failure : Failure) (rest : α → Call Db Label Failure β) :
    (done (.error failure) : Call Db Label Failure α) >>= rest = done (.error failure) := rfl

@[simp]
theorem bind_step (label : Db → Label) (act : Db → Db) (next : Db → Call Db Label Failure α)
    (rest : α → Call Db Label Failure β) :
    step label act next >>= rest = step label act fun db ↦ next db >>= rest := rfl

@[simp]
theorem ensure_pos {condition : Prop} [Decidable condition] (hcondition : condition)
    (failure : Failure) : (ensure condition failure : Call Db Label Failure Unit) = pure () :=
  if_pos hcondition

@[simp]
theorem pure_bind (value : α) (rest : α → Call Db Label Failure β) :
    (pure value : Call Db Label Failure α) >>= rest = rest value := rfl

@[simp]
theorem require_some (value : α) (failure : Failure) :
    (require (some value) failure : Call Db Label Failure α) = pure value := rfl

/-- Sequencing is associative. -/
theorem bind_assoc (call : Call Db Label Failure α) (middle : α → Call Db Label Failure β)
    (rest : β → Call Db Label Failure γ) :
    call >>= middle >>= rest = call >>= fun value ↦ middle value >>= rest := by
  induction call with
  | done outcome => cases outcome <;> rfl
  | step label act next ih => simp only [bind_step, ih]

/-! ### A call in isolation -/

/-- The outcome of a call that runs with no other call in between, and the store it leaves. -/
def run : Call Db Label Failure α → Db → Except Failure α × Db
  | done outcome, db => (outcome, db)
  | step _ act next, db => (next db).run (act db)

@[simp]
theorem run_ok (value : α) (db : Db) :
    (pure value : Call Db Label Failure α).run db = (.ok value, db) := rfl

@[simp]
theorem run_throw (failure : Failure) (db : Db) :
    (throw failure : Call Db Label Failure α).run db = (.error failure, db) := rfl

@[simp]
theorem run_query (label : Label) (read : Db → α) (db : Db) :
    (query label read : Call Db Label Failure α).run db = (.ok (read db), db) := rfl

@[simp]
theorem run_atomically (label : Db → Label) (statement : Db → α × Db) (db : Db) :
    (atomically label statement : Call Db Label Failure α).run db =
      (.ok (statement db).1, (statement db).2) := rfl

theorem run_attempt (label : Db → Label) (statement : Db → Except Failure (α × Db)) (db : Db) :
    (attempt label statement).run db = match statement db with
      | .ok (value, after) => (.ok value, after)
      | .error failure => (.error failure, db) := by
  simp only [attempt, run]
  cases statement db <;> rfl

/-- A step that may fail returns exactly what its statement does. -/
theorem run_attempt_eq_ok {label : Db → Label} {statement : Db → Except Failure (α × Db)}
    {db after : Db} {value : α} :
    (attempt label statement).run db = (.ok value, after) ↔ statement db = .ok (value, after) := by
  rw [run_attempt]
  cases statement db with
  | ok result => simp [Prod.ext_iff]
  | error failure => simp

@[simp]
theorem run_require {option : Option α} {failure : Failure} {db : Db} {value : α} :
    ((require option failure : Call Db Label Failure α).run db).1 = .ok value ↔
      option = some value := by
  cases option with
  | none => simp [require]
  | some result => simp [require]

@[simp]
theorem run_ensure {condition : Prop} [Decidable condition] {failure : Failure} {db : Db}
    {result : Unit} :
    ((ensure condition failure : Call Db Label Failure Unit).run db).1 = .ok result ↔
      condition := by
  unfold ensure
  split_ifs with hcondition <;> simp [hcondition]

/-- A transaction in isolation commits what it has written, or leaves the store as it was. -/
theorem run_transaction (rolledBack : Label) (label : α → Label)
    (statements : Db → Except Failure (α × Db)) (db : Db) :
    (transaction rolledBack label statements).run db = match statements db with
      | .ok (value, after) => (.ok value, after)
      | .error failure => (.error failure, db) :=
  run_attempt _ statements db

/-- The continuation of a call in isolation starts from the store the call has left. -/
theorem run_bind (call : Call Db Label Failure α) (rest : α → Call Db Label Failure β) (db : Db) :
    (call >>= rest).run db = match call.run db with
      | (.ok value, after) => (rest value).run after
      | (.error failure, after) => (.error failure, after) := by
  induction call generalizing db with
  | done outcome => cases outcome <;> rfl
  | step label act next ih => simpa only [bind_step, run] using ih db (act db)

theorem run_query_bind (label : Label) (read : Db → α) (rest : α → Call Db Label Failure β) (db : Db) :
    (query label read >>= rest).run db = (rest (read db)).run db := rfl

theorem run_atomically_bind (label : Db → Label) (statement : Db → α × Db)
    (rest : α → Call Db Label Failure β) (db : Db) :
    (atomically label statement >>= rest).run db = (rest (statement db).1).run (statement db).2 := rfl

/-- The clean-up of a call in isolation starts from the store the call has left. -/
theorem run_tryFinally (call : Call Db Label Failure α) (cleanup : Call Db Label Failure Unit)
    (db : Db) :
    (call.tryFinally cleanup).run db = (cleanup >>= fun _ ↦ done (call.run db).1).run (call.run db).2 := by
  induction call generalizing db with
  | done outcome => rfl
  | step label act next ih => exact ih db (act db)

/-- A sequence in isolation returns exactly if both of its parts do, one after the other. -/
theorem run_bind_eq_ok {call : Call Db Label Failure α} {rest : α → Call Db Label Failure β}
    {db after : Db} {value : β} :
    (call >>= rest).run db = (.ok value, after) ↔
      ∃ result middle, call.run db = (.ok result, middle) ∧
        (rest result).run middle = (.ok value, after) := by
  rw [run_bind]
  cases hcall : call.run db with
  | mk outcome middle =>
    cases outcome with
    | ok result =>
      constructor
      · exact fun hrest ↦ ⟨result, middle, rfl, hrest⟩
      · rintro ⟨_, _, hsame, hrest⟩
        cases hsame
        exact hrest
    | error failure => simp

theorem run_require_bind_eq_ok {option : Option α} {failure : Failure}
    {rest : α → Call Db Label Failure β} {db after : Db} {result : β} :
    (require option failure >>= rest).run db = (.ok result, after) ↔
      ∃ value, option = some value ∧ (rest value).run db = (.ok result, after) := by
  cases option with
  | none => simp [require, run_bind]
  | some value => simp

theorem run_ensure_bind_eq_ok {condition : Prop} [Decidable condition] {failure : Failure}
    {rest : Unit → Call Db Label Failure β} {db after : Db} {result : β} :
    (ensure condition failure >>= rest).run db = (.ok result, after) ↔
      condition ∧ (rest ()).run db = (.ok result, after) := by
  by_cases hcondition : condition
  · simp [hcondition]
  · simp [ensure, hcondition, run_bind]

/-- Mapping the result of a call leaves the same store. -/
theorem run_map (f : α → β) (call : Call Db Label Failure α) (db : Db) :
    ((f <$> call).run db).2 = (call.run db).2 := by
  change ((call >>= fun value ↦ pure (f value)).run db).2 = _
  rw [run_bind]
  rcases call.run db with ⟨outcome, after⟩
  cases outcome <;> rfl

/-- The handler of a call in isolation starts from the store the call has left. -/
theorem run_tryCatch (call : Call Db Label Failure α) (handler : Failure → Call Db Label Failure α)
    (db : Db) :
    (tryCatch call handler).run db = match call.run db with
      | (.ok value, after) => (.ok value, after)
      | (.error failure, after) => (handler failure).run after := by
  induction call generalizing db with
  | done outcome => cases outcome <;> rfl
  | step label act next ih => exact ih db (act db)

/-- The call, run in isolation from the store, returns, and the postcondition holds of its result and
the store it leaves. -/
def Succeeds (post : α → Db → Prop) (call : Call Db Label Failure α) (db : Db) : Prop :=
  ∃ value after, call.run db = (.ok value, after) ∧ post value after

section Succeeds

variable {post : α → Db → Prop} {db : Db} {call : Call Db Label Failure α}

theorem succeeds_pure {value : α} (hpost : post value db) :
    (pure value : Call Db Label Failure α).Succeeds post db := ⟨value, db, rfl, hpost⟩

theorem succeeds_attempt {label : Db → Label} {statement : Db → Except Failure (α × Db)} {value : α}
    {after : Db} (hstatement : statement db = .ok (value, after)) (hpost : post value after) :
    (attempt label statement).Succeeds post db :=
  ⟨value, after, by rw [run_attempt, hstatement], hpost⟩

theorem succeeds_iff_of_run {value : α} {after : Db} (hrun : call.run db = (.ok value, after)) :
    call.Succeeds post db ↔ post value after := by
  refine ⟨fun ⟨_, _, hother, hpost⟩ ↦ ?_, fun hpost ↦ ⟨value, after, hrun, hpost⟩⟩
  rw [hrun] at hother
  obtain ⟨hvalue, rfl⟩ := Prod.mk.inj hother
  obtain rfl := Except.ok.inj hvalue
  exact hpost

theorem succeeds_map {f : α → β} {post : β → Db → Prop} :
    (f <$> call).Succeeds post db ↔ call.Succeeds (fun value ↦ post (f value)) db := by
  change (∃ value after, (call >>= fun value ↦ pure (f value)).run db = (.ok value, after) ∧
    post value after) ↔ ∃ value after, call.run db = (.ok value, after) ∧ post (f value) after
  rw [run_bind]
  rcases call.run db with ⟨outcome, after⟩
  cases outcome with
  | ok value => simp [and_assoc]
  | error failure => simp

/-- Sequencing: the continuation succeeds on what the call returns, from the store it leaves. -/
theorem Succeeds.bind {rest : α → Call Db Label Failure β} {after : β → Db → Prop}
    (hcall : call.Succeeds post db)
    (hrest : ∀ value middle, post value middle → (rest value).Succeeds after middle) :
    (call >>= rest).Succeeds after db := by
  obtain ⟨value, middle, hrun, hpost⟩ := hcall
  obtain ⟨result, last, hlast, hafter⟩ := hrest value middle hpost
  exact ⟨result, last, by rw [run_bind, hrun]; exact hlast, hafter⟩

section Steps

variable {rest : α → Call Db Label Failure β} {post : β → Db → Prop}

theorem succeeds_bind_query {label : Label} {read : Db → α}
    (hrest : (rest (read db)).Succeeds post db) : (query label read >>= rest).Succeeds post db :=
  hrest

theorem succeeds_bind_atomically {label : Db → Label} {statement : Db → α × Db}
    (hrest : (rest (statement db).1).Succeeds post (statement db).2) :
    (atomically label statement >>= rest).Succeeds post db := hrest

theorem succeeds_bind_require {option : Option α} {value : α} {failure : Failure}
    (hvalue : option = some value) (hrest : (rest value).Succeeds post db) :
    (require option failure >>= rest).Succeeds post db := by
  rw [hvalue, require_some, pure_bind]
  exact hrest

theorem succeeds_bind_ensure {condition : Prop} [Decidable condition] {failure : Failure}
    {rest : Unit → Call Db Label Failure β} (hcondition : condition)
    (hrest : (rest ()).Succeeds post db) : (ensure condition failure >>= rest).Succeeds post db := by
  rw [ensure_pos hcondition, pure_bind]
  exact hrest

end Steps

end Succeeds

/-! ### Every step a call can take -/

/-- Every step the call can take, from any store, relates the store before, the label and the
store after by `relation`. -/
def Only (relation : Db → Label → Db → Prop) : Call Db Label Failure α → Prop
  | done _ => True
  | step label act next => ∀ db, relation db (label db) (act db) ∧ (next db).Only relation

variable {relation weaker : Db → Label → Db → Prop}

@[simp]
theorem only_pure (value : α) : (pure value : Call Db Label Failure α).Only relation := trivial

@[simp]
theorem only_throw (failure : Failure) :
    (throw failure : Call Db Label Failure α).Only relation := trivial

@[simp]
theorem only_require (value : Option α) (failure : Failure) :
    (require value failure : Call Db Label Failure α).Only relation := by
  cases value <;> trivial

@[simp]
theorem only_ensure (condition : Prop) [Decidable condition] (failure : Failure) :
    (ensure condition failure : Call Db Label Failure Unit).Only relation := by
  unfold ensure
  split_ifs <;> trivial

@[simp]
theorem only_query (label : Label) (read : Db → α) :
    (query label read : Call Db Label Failure α).Only relation ↔
      ∀ db, relation db label db := by
  simp [query, Only]

@[simp]
theorem only_atomically (label : Db → Label) (statement : Db → α × Db) :
    (atomically label statement : Call Db Label Failure α).Only relation ↔
      ∀ db, relation db (label db) (statement db).2 := by
  simp [atomically, Only]

/-- A step that may fail relates every store to itself when it fails there, and to the store it
leaves when it succeeds. -/
theorem only_attempt (label : Db → Label) (statement : Db → Except Failure (α × Db))
    (hfail : ∀ db failure, statement db = .error failure → relation db (label db) db)
    (hok : ∀ db value after, statement db = .ok (value, after) → relation db (label db) after) :
    (attempt label statement).Only relation := by
  intro db
  refine ⟨?_, trivial⟩
  dsimp only
  split
  · exact hok db _ _ ‹_›
  · exact hfail db _ ‹_›

/-- A transaction relates every store to itself when it rolls back, and to the store it leaves when
it commits. -/
theorem only_transaction {rolledBack : Label} {label : α → Label}
    {statements : Db → Except Failure (α × Db)} (hrolledBack : ∀ db, relation db rolledBack db)
    (hcommit : ∀ db value after, statements db = .ok (value, after) →
      relation db (label value) after) :
    (transaction rolledBack label statements).Only relation := by
  refine only_attempt _ _ (fun db failure hfailure ↦ ?_) fun db value after hok ↦ ?_
  · simpa only [hfailure] using hrolledBack db
  · simpa only [hok] using hcommit db value after hok

/-- The call can return the value, for some stores found along the way. -/
def Returns (value : α) : Call Db Label Failure α → Prop
  | done (.ok result) => result = value
  | done (.error _) => False
  | step _ _ next => ∃ db, (next db).Returns value

@[simp]
theorem returns_query {label : Label} {read : Db → α} {value : α} :
    (query label read : Call Db Label Failure α).Returns value ↔ ∃ db, read db = value := Iff.rfl

@[simp]
theorem returns_require {option : Option α} {failure : Failure} {value : α} :
    (require option failure : Call Db Label Failure α).Returns value ↔ option = some value := by
  cases option with
  | none => simp [require, throw, throwThe, MonadExceptOf.throw, Returns]
  | some result => simp [require, pure, Returns]

theorem returns_attempt {label : Db → Label} {statement : Db → Except Failure (α × Db)} {value : α} :
    (attempt label statement).Returns value ↔ ∃ db after, statement db = .ok (value, after) := by
  refine exists_congr fun db ↦ ?_
  dsimp only
  cases statement db with
  | error failure => exact ⟨fun h ↦ h.elim, fun ⟨_, h⟩ ↦ (nomatch h)⟩
  | ok result =>
    refine ⟨fun h ↦ ⟨result.2, congrArg Except.ok (Prod.ext h rfl)⟩, fun ⟨_, h⟩ ↦ ?_⟩
    exact congrArg Prod.fst (Except.ok.inj h)

@[simp]
theorem returns_ensure {condition : Prop} [Decidable condition] {failure : Failure} {value : Unit} :
    (ensure condition failure : Call Db Label Failure Unit).Returns value ↔ condition := by
  unfold ensure
  split_ifs with hcondition <;>
    simp [hcondition, pure, throw, throwThe, MonadExceptOf.throw, Returns]

/-- What a call has returned when it ran alone, it can return. -/
theorem returns_of_run {call : Call Db Label Failure α} {db : Db} {value : α}
    (hrun : (call.run db).1 = .ok value) : call.Returns value := by
  induction call generalizing db with
  | done outcome =>
    obtain rfl : outcome = .ok value := hrun
    rfl
  | step label act next ih => exact ⟨db, ih db hrun⟩

/-- What a sequence can return, its last part can return after a result of the first. -/
theorem Returns.of_bind {call : Call Db Label Failure α} {rest : α → Call Db Label Failure β}
    {value : β} (hreturns : (call >>= rest).Returns value) :
    ∃ middle, call.Returns middle ∧ (rest middle).Returns value := by
  induction call with
  | done outcome =>
    cases outcome with
    | ok middle => exact ⟨middle, rfl, hreturns⟩
    | error failure => cases hreturns
  | step label act next ih =>
    obtain ⟨db, hnext⟩ := hreturns
    obtain ⟨middle, hmiddle, hrest⟩ := ih db hnext
    exact ⟨middle, ⟨db, hmiddle⟩, hrest⟩

/-- A sequence can return what its last part can, after a result of the first. -/
theorem Returns.bind {call : Call Db Label Failure α} {rest : α → Call Db Label Failure β} {middle : α}
    {value : β} (hcall : call.Returns middle) (hrest : (rest middle).Returns value) :
    (call >>= rest).Returns value := by
  induction call with
  | done outcome =>
    cases outcome with
    | ok result =>
      obtain rfl : result = middle := hcall
      exact hrest
    | error failure => cases hcall
  | step label act next ih =>
    obtain ⟨db, hnext⟩ := hcall
    exact ⟨db, ih db hnext⟩

/-- The bound of a sequence: the call is bounded, and so is the continuation on every result the
call can return. -/
@[simp]
theorem only_bind {call : Call Db Label Failure α} {rest : α → Call Db Label Failure β} :
    (call >>= rest).Only relation ↔
      call.Only relation ∧ ∀ value, call.Returns value → (rest value).Only relation := by
  induction call with
  | done outcome => cases outcome <;> simp [Only, Returns]
  | step label act next ih =>
    simp only [bind_step, Only, Returns, ih]
    exact ⟨fun h ↦ ⟨fun db ↦ ⟨(h db).1, (h db).2.1⟩, fun value ⟨db, hvalue⟩ ↦
        (h db).2.2 value hvalue⟩,
      fun h db ↦ ⟨(h.1 db).1, (h.1 db).2, fun value hvalue ↦ h.2 value ⟨db, hvalue⟩⟩⟩

/-- Assumes: a bound on the steps of a call. Mapping its result adds no step. -/
@[simp]
theorem only_map {call : Call Db Label Failure α} {f : α → β} (hcall : call.Only relation) :
    (f <$> call).Only relation :=
  only_bind.mpr ⟨hcall, fun _ _ ↦ trivial⟩

/-- Returning how a call ended adds no step. -/
theorem Only.outcome {call : Call Db Label Failure α} (hcall : call.Only relation) :
    call.outcome.Only relation := by
  induction call with
  | done outcome => trivial
  | step label act next ih => exact fun db ↦ ⟨(hcall db).1, ih db (hcall db).2⟩

/-- The bound of `try … catch`: the call and its handler are bounded. -/
theorem Only.handle {call : Call Db Label Failure α} {handler : Failure → Call Db Label Failure α}
    (hcall : call.Only relation) (hhandler : ∀ failure, (handler failure).Only relation) :
    (call.handle handler).Only relation := by
  induction call with
  | done outcome =>
    cases outcome with
    | ok value => trivial
    | error failure => exact hhandler failure
  | step label act next ih => exact fun db ↦ ⟨(hcall db).1, ih db (hcall db).2⟩

/-- The bound of `try … finally`: the call and its clean-up are bounded. -/
theorem Only.tryFinally {call : Call Db Label Failure α} {cleanup : Call Db Label Failure Unit}
    (hcall : call.Only relation) (hcleanup : cleanup.Only relation) :
    (call.tryFinally cleanup).Only relation := by
  induction call with
  | done outcome => exact only_bind.mpr ⟨hcleanup, fun _ _ ↦ trivial⟩
  | step label act next ih => exact fun db ↦ ⟨(hcall db).1, ih db (hcall db).2⟩

/-- A bound on the steps of a call may be weakened. -/
theorem Only.mono {call : Call Db Label Failure α} (hcall : call.Only relation)
    (hweaker : ∀ db label after, relation db label after → weaker db label after) :
    call.Only weaker := by
  induction call with
  | done outcome => trivial
  | step label act next ih => exact fun db ↦ ⟨hweaker _ _ _ (hcall db).1, ih db (hcall db).2⟩

/-- Two bounds on the steps of a call. -/
theorem Only.and {call : Call Db Label Failure α} (hcall : call.Only relation)
    (hother : call.Only weaker) :
    call.Only fun db label after ↦ relation db label after ∧ weaker db label after := by
  induction call with
  | done outcome => trivial
  | step label act next ih =>
    exact fun db ↦ ⟨⟨(hcall db).1, (hother db).1⟩, ih db (hcall db).2 (hother db).2⟩

/-- A family of bounds on the steps of a call. -/
theorem Only.all {Index : Type} {holds : Index → Prop} {bound : Index → Db → Label → Db → Prop}
    {call : Call Db Label Failure α} (hcall : ∀ index, holds index → call.Only (bound index)) :
    call.Only fun db label after ↦ ∀ index, holds index → bound index db label after := by
  induction call with
  | done outcome => trivial
  | step label act next ih =>
    exact fun db ↦ ⟨fun index hindex ↦ (hcall index hindex db).1,
      ih db fun index hindex ↦ (hcall index hindex db).2⟩

/-- A bound that bounds nothing. -/
theorem only_true (call : Call Db Label Failure α) : call.Only fun _ _ _ ↦ True := by
  induction call with
  | done outcome => trivial
  | step label act next ih => exact fun db ↦ ⟨trivial, ih db⟩

/-- Assumes: a bound on the steps of a call, and a property of stores that every bounded step
keeps. A run of the call in isolation keeps the property. -/
theorem Only.run_keeps {call : Call Db Label Failure α} (hcall : call.Only relation)
    (property : Db → Prop)
    (hkeeps : ∀ db label after, property db → relation db label after → property after) {db : Db}
    (hdb : property db) : property (call.run db).2 := by
  induction call generalizing db with
  | done outcome => exact hdb
  | step label act next ih => exact ih db (hcall db).2 (hkeeps _ _ _ hdb (hcall db).1)

/-- Assumes: a call that succeeds, a bound on its steps, and a property of stores that every bounded
step keeps. The property holds of the store the call leaves. -/
theorem Succeeds.keeps {call : Call Db Label Failure α} {post : α → Db → Prop} {db : Db}
    (hsucceeds : call.Succeeds post db) (hcall : call.Only relation) (property : Db → Prop)
    (hkeeps : ∀ db label after, property db → relation db label after → property after)
    (hdb : property db) : call.Succeeds (fun value after ↦ post value after ∧ property after) db := by
  obtain ⟨value, after, hrun, hpost⟩ := hsucceeds
  have hafter := hcall.run_keeps property hkeeps hdb
  rw [hrun] at hafter
  exact ⟨value, after, hrun, hpost, hafter⟩

end Call

end RallyApi.Concurrency

import Mathlib.Data.Nat.Notation
import RallyApi.Concurrency.Call

/-!
# Failures and observers of a call that runs alone

`Call.found` lists the stores that the steps of a call find: what another client can see while the call
runs. `Call.interrupted` is the call in which one step fails. A step that fails has no effect, and a call
that catches nothing ends with its failure, so all that such a call can leave behind is a store that one of
its steps has found (`interrupted_run`, `exists_interrupted`).
-/

set_option autoImplicit false
set_option relaxedAutoImplicit false

namespace RallyApi.Concurrency.Call

variable {Db Label Failure α β : Type} {failure : Failure} {db seen : Db}

/-- The stores that the steps of the call find when it runs alone, in order. -/
def found : Call Db Label Failure α → Db → List Db
  | done _, _ => []
  | step _ act next, db => db :: (next db).found (act db)

/-- The call whose step after the first `steps` fails. Nothing catches the failure. -/
def interrupted (failure : Failure) : Call Db Label Failure α → ℕ → Call Db Label Failure α
  | done outcome, _ => done outcome
  | step _ _ _, 0 => done (.error failure)
  | step label act next, steps + 1 =>
    step label act fun db ↦ (next db).interrupted failure steps

/-- A step that fails leaves the store it has found. -/
theorem interrupted_run_of_lt (call : Call Db Label Failure α) (failure : Failure) {steps : ℕ}
    (hsteps : steps < (call.found db).length) :
    (call.interrupted failure steps).run db = (.error failure, (call.found db)[steps]) := by
  induction call generalizing steps db with
  | done outcome => cases hsteps
  | step label act next ih =>
    cases steps with
    | zero => rfl
    | succ steps => exact ih db (by simpa [found] using hsteps)

/-- A failure that would come after the last step does not happen. -/
theorem interrupted_run_of_le (call : Call Db Label Failure α) (failure : Failure) {steps : ℕ}
    (hsteps : (call.found db).length ≤ steps) :
    (call.interrupted failure steps).run db = call.run db := by
  induction call generalizing steps db with
  | done outcome => rfl
  | step label act next ih =>
    cases steps with
    | zero => exact absurd hsteps (Nat.not_succ_le_zero _)
    | succ steps => exact ih db (by simpa [found] using hsteps)

/-- An interrupted call ends as it would have, or with the failure and a store that a step has found. -/
theorem interrupted_run (call : Call Db Label Failure α) (failure : Failure) (steps : ℕ) (db : Db) :
    (call.interrupted failure steps).run db = call.run db ∨
      ∃ seen ∈ call.found db, (call.interrupted failure steps).run db = (.error failure, seen) := by
  by_cases hsteps : steps < (call.found db).length
  · exact .inr ⟨_, List.getElem_mem hsteps, interrupted_run_of_lt call failure hsteps⟩
  · exact .inl (interrupted_run_of_le call failure (Nat.le_of_not_lt hsteps))

/-- Every store that a step finds is left behind when that step fails. -/
theorem exists_interrupted {call : Call Db Label Failure α} (hseen : seen ∈ call.found db)
    (failure : Failure) : ∃ steps, (call.interrupted failure steps).run db = (.error failure, seen) := by
  obtain ⟨steps, hsteps, rfl⟩ := List.mem_iff_getElem.mp hseen
  exact ⟨steps, interrupted_run_of_lt call failure hsteps⟩

/-- An interrupted call shows nothing that the call does not show. -/
theorem found_interrupted (call : Call Db Label Failure α) (steps : ℕ) (db : Db) :
    (call.interrupted failure steps).found db ⊆ call.found db := by
  induction call generalizing steps db with
  | done outcome => exact List.Subset.refl _
  | step label act next ih =>
    cases steps with
    | zero => exact List.nil_subset _
    | succ steps => exact List.cons_subset_cons db (ih db steps (act db))

/-- A sequence finds what its first part finds, and what the rest finds where that returns. -/
theorem found_bind (call : Call Db Label Failure α) (rest : α → Call Db Label Failure β) (db : Db) :
    (call >>= rest).found db = call.found db ++ match call.run db with
      | (.ok value, after) => (rest value).found after
      | (.error _, _) => [] := by
  induction call generalizing db with
  | done outcome => cases outcome <;> rfl
  | step label act next ih =>
    simp only [bind_step, found, run, List.cons_append]
    rw [ih db (act db)]

/-- The invariant rule for observers. Assumes: a bound on the steps of a call, and a property of stores
that every bounded step keeps. Each step of a run of the call finds a store with the property. -/
theorem Only.found_keeps {relation : Db → Label → Db → Prop} {call : Call Db Label Failure α}
    (hcall : call.Only relation) (property : Db → Prop)
    (hkeeps : ∀ db label after, property db → relation db label after → property after)
    (hdb : property db) (hseen : seen ∈ call.found db) : property seen := by
  induction call generalizing db with
  | done outcome => cases hseen
  | step label act next ih =>
    obtain ⟨hstep, hnext⟩ := hcall db
    rcases List.mem_cons.mp hseen with rfl | hlater
    · exact hdb
    · exact ih db hnext (hkeeps _ _ _ hdb hstep) hlater

/-- A call that only reads finds the store as it was. -/
theorem found_of_reads {call : Call Db Label Failure α}
    (hcall : call.Only fun db _ after ↦ after = db) (hseen : seen ∈ call.found db) : seen = db :=
  hcall.found_keeps (fun found ↦ found = db) (fun _ _ _ hfound hsame ↦ hsame.trans hfound) rfl hseen

/-- Until it has returned, the call shows only stores with the property: the ones its steps find, and the
one it leaves when it fails. -/
def Shows (property : Db → Prop) (call : Call Db Label Failure α) (db : Db) : Prop :=
  (∀ seen ∈ call.found db, property seen) ∧
    ∀ failure after, call.run db = (.error failure, after) → property after

variable {property : Db → Prop}

theorem shows_pure (value : α) : (pure value : Call Db Label Failure α).Shows property db :=
  ⟨fun _ hseen ↦ absurd hseen List.not_mem_nil, fun _ _ hrun ↦ by cases hrun⟩

theorem shows_attempt {label : Db → Label} {statement : Db → Except Failure (α × Db)}
    (hdb : property db) : (attempt label statement).Shows property db := by
  refine ⟨fun seen hseen ↦ ?_, fun thrown after hrun ↦ ?_⟩
  · obtain rfl := List.mem_singleton.mp hseen
    exact hdb
  · rw [run_attempt] at hrun
    cases hstatement : statement db with
    | ok result =>
      rw [hstatement] at hrun
      cases hrun
    | error failure =>
      rw [hstatement] at hrun
      cases hrun
      exact hdb

/-- Assumes: a bound on the steps of a call, and a property of stores that every bounded step keeps. -/
theorem Only.shows {relation : Db → Label → Db → Prop} {call : Call Db Label Failure α}
    (hcall : call.Only relation)
    (hkeeps : ∀ db label after, property db → relation db label after → property after)
    (hdb : property db) : call.Shows property db := by
  refine ⟨fun seen hseen ↦ hcall.found_keeps property hkeeps hdb hseen, fun thrown after hrun ↦ ?_⟩
  have hafter := hcall.run_keeps property hkeeps hdb
  rwa [hrun] at hafter

/-- A sequence shows what its first part shows, and what the rest shows where that returns. -/
theorem Shows.bind {call : Call Db Label Failure α} {rest : α → Call Db Label Failure β}
    (hcall : call.Shows property db)
    (hrest : ∀ value middle, call.run db = (.ok value, middle) → (rest value).Shows property middle) :
    (call >>= rest).Shows property db := by
  cases hrun : call.run db with
  | mk outcome middle =>
    cases outcome with
    | ok value =>
      refine ⟨fun seen hseen ↦ ?_, fun thrown after hfail ↦ ?_⟩
      · rw [found_bind, hrun, List.mem_append] at hseen
        exact hseen.elim (hcall.1 seen) ((hrest value middle hrun).1 seen)
      · rw [run_bind, hrun] at hfail
        exact (hrest value middle hrun).2 thrown after hfail
    | error failure =>
      refine ⟨fun seen hseen ↦ ?_, fun thrown after hfail ↦ ?_⟩
      · rw [found_bind, hrun, List.append_nil] at hseen
        exact hcall.1 seen hseen
      · rw [run_bind, hrun] at hfail
        cases hfail
        exact hcall.2 failure middle hrun

/-- Whichever step fails, a call that has not returned leaves a store that it may show. -/
theorem Shows.interrupted {call : Call Db Label Failure α} (hshows : call.Shows property db)
    {steps : ℕ} {thrown : Failure} {after : Db}
    (hrun : (call.interrupted failure steps).run db = (.error thrown, after)) : property after := by
  rcases interrupted_run call failure steps db with hsame | ⟨seen, hseen, hfail⟩
  · exact hshows.2 thrown after (hsame.symm.trans hrun)
  · obtain ⟨_, rfl⟩ := Prod.mk.inj (hfail.symm.trans hrun)
    exact hshows.1 seen hseen

end RallyApi.Concurrency.Call

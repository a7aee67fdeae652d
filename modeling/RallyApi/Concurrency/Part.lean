import RallyApi.Concurrency.Call

/-!
# Calls on a part of the store

A `Part` of a store is a smaller store it contains: how it is read off, and how it is put back. A call on
the smaller store is one on the larger (`Call.within`), which leaves the rest alone.

`Call.Only.within` carries over what is known of its steps, and `Call.run_within` what it does when it runs
alone.
-/

set_option autoImplicit false
set_option relaxedAutoImplicit false

namespace RallyApi.Concurrency

/-- A store inside another. Putting back what has been read changes nothing. -/
structure Part (Db Sub : Type) where
  get : Db → Sub
  put : Sub → Db → Db
  put_get : ∀ db, put (get db) db = db

namespace Call

variable {Db Sub Label SubLabel Failure α : Type} (part : Part Db Sub) (relabel : SubLabel → Label)

/-- The call, on a part of a larger store. -/
def within : Call Sub SubLabel Failure α → Call Db Label Failure α
  | done outcome => done outcome
  | step label act next => step (fun db ↦ relabel (label (part.get db)))
      (fun db ↦ part.put (act (part.get db)) db) fun db ↦ (next (part.get db)).within

variable {part relabel} {call : Call Sub SubLabel Failure α}

/-- A sequence within a larger store. -/
theorem within_bind {β : Type} (rest : α → Call Sub SubLabel Failure β) :
    (call >>= rest).within part relabel =
      call.within part relabel >>= fun value ↦ (rest value).within part relabel := by
  induction call with
  | done outcome => cases outcome <;> rfl
  | step label act next ih => simp only [bind_step, within, ih]

@[simp]
theorem within_map {β : Type} (f : α → β) :
    (f <$> call).within part relabel = f <$> call.within part relabel :=
  within_bind _

/-- A read of the part is one of the larger store. -/
@[simp]
theorem within_query (label : SubLabel) (read : Sub → α) :
    (query label read : Call Sub SubLabel Failure α).within part relabel =
      query (relabel label) fun db ↦ read (part.get db) := by
  simp only [query, within, id, part.put_get]
  rfl

@[simp]
theorem within_require (value : Option α) (failure : Failure) :
    (require value failure : Call Sub SubLabel Failure α).within part relabel = require value failure := by
  cases value <;> rfl

@[simp]
theorem within_ensure (condition : Prop) [Decidable condition] (failure : Failure) :
    (ensure condition failure : Call Sub SubLabel Failure Unit).within part relabel =
      ensure condition failure := by
  unfold ensure
  split_ifs <;> rfl

/-- What bounds the steps of a call bounds them within a larger store. -/
theorem Only.within {relation : Sub → SubLabel → Sub → Prop} {wider : Db → Label → Db → Prop}
    (hcall : call.Only relation)
    (hwider : ∀ db label after, relation (part.get db) label after →
      wider db (relabel label) (part.put after db)) :
    (call.within part relabel).Only wider := by
  induction call with
  | done outcome => trivial
  | step label act next ih =>
    intro db
    obtain ⟨hstep, hnext⟩ := hcall (part.get db)
    exact ⟨hwider db _ _ hstep, ih _ hnext⟩

/-- Assumes: what the steps of the call leave is read back as it was put, and what is put last counts. Run
alone within a larger store, the call does to the part what it does alone. -/
theorem run_within {relation : Sub → SubLabel → Sub → Prop} (hcall : call.Only relation)
    (hget : ∀ db label after, relation (part.get db) label after →
      part.get (part.put after db) = after)
    (hput : ∀ first second db, part.put second (part.put first db) = part.put second db) (db : Db) :
    (call.within part relabel).run db =
      ((call.run (part.get db)).1, part.put (call.run (part.get db)).2 db) := by
  induction call generalizing db with
  | done outcome => exact congrArg (Prod.mk outcome) (part.put_get db).symm
  | step label act next ih =>
    obtain ⟨hstep, hnext⟩ := hcall (part.get db)
    rw [within, run, run, ih _ hnext, hget db _ _ hstep, hput]

end Call

/-- A part of a part. -/
def Part.comp {Db Middle Sub : Type} (outer : Part Db Middle) (inner : Part Middle Sub) : Part Db Sub where
  get db := inner.get (outer.get db)
  put sub db := outer.put (inner.put sub (outer.get db)) db
  put_get db := by rw [inner.put_get, outer.put_get]

/-- A call on a part of a part. -/
theorem Call.within_within {Db Middle Sub Label MiddleLabel SubLabel Failure α : Type}
    {outer : Part Db Middle} {inner : Part Middle Sub} {relabel : MiddleLabel → Label}
    {subRelabel : SubLabel → MiddleLabel} (call : Call Sub SubLabel Failure α) :
    (call.within inner subRelabel).within outer relabel =
      call.within (outer.comp inner) fun label ↦ relabel (subRelabel label) := by
  induction call with
  | done outcome => rfl
  | step label act next ih => simp only [within, ih, Part.comp]

end RallyApi.Concurrency

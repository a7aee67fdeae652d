import RallyApi.Concurrency.Traces

/-!
# Identifiers that are drawn and used once

Rows have keys, and what stays the same about a row is its tag. A generator issues keys: a call draws one
and may insert the row it is for in a later step, after steps of other calls. `Registry.InOrder` says of a
history that no key has ever been of two rows with different tags, in whatever stores it went through, and
`InOrder.step` that a step keeps it where it only inserts rows under keys that it draws itself or that its
call has drawn and not used (`Unused`). No other call can use such a key (`Unused.step_other`), also where
rows are removed and their keys are free again.
-/

set_option autoImplicit false
set_option relaxedAutoImplicit false

namespace RallyApi.Concurrency

/-- A step as the history records it: its label and the stores it finds and leaves. -/
structure Transition (Db Label : Type) where
  label : Label
  found : Db
  left : Db

/-- The call, with every step recorded as a transition. -/
def Call.tracked {Db Label Failure α : Type} (call : Call Db Label Failure α) :
    Call Db (Transition Db Label) Failure α :=
  call.traced fun db label after ↦ ⟨label, db, after⟩

section Tracked

variable {Db Label Failure α β : Type} {call : Call Db Label Failure α}

theorem Call.tracked_bind (rest : α → Call Db Label Failure β) :
    (call >>= rest).tracked = call.tracked >>= fun value ↦ (rest value).tracked :=
  Call.traced_bind rest

theorem Call.tracked_map (f : α → β) : (f <$> call).tracked = f <$> call.tracked :=
  Call.traced_map f

theorem Call.tracked_require (value : Option α) (failure : Failure) :
    (Call.require value failure : Call Db Label Failure α).tracked = Call.require value failure :=
  Call.traced_require value failure

theorem Call.tracked_ensure (condition : Prop) [Decidable condition] (failure : Failure) :
    (Call.ensure condition failure : Call Db Label Failure Unit).tracked = Call.ensure condition failure :=
  Call.traced_ensure condition failure

end Tracked

/-- Where a store has its rows: the tag of each row under its key, and the keys that are issued. -/
structure Registry (Db Key Tag : Type) where
  rows : Db → Key → Tag → Prop
  issued : Db → Key → Prop

namespace Registry

variable {Db Label Key Tag : Type} (registry : Registry Db Key Tag)

/-- The world has, or had at some step, a row with the key and the tag. -/
def Seen (world : World Db (Transition Db Label)) (key : Key) (tag : Tag) : Prop :=
  registry.rows world.db key tag ∨ ∃ entry ∈ world.log, registry.rows entry.2.found key tag

/-- The call has drawn the key. -/
def DrawnBy (number : ℕ) (world : World Db (Transition Db Label)) (key : Key) : Prop :=
  ∃ entry ∈ world.log, entry.1 = number ∧ ¬ registry.issued entry.2.found key ∧
    registry.issued entry.2.left key

/-- The call has drawn the key, and no row has had it. -/
def Unused (number : ℕ) (world : World Db (Transition Db Label)) (key : Key) : Prop :=
  registry.DrawnBy number world key ∧ ∀ tag, ¬ registry.Seen world key tag

/-- Every key is issued once and is of one row. -/
structure InOrder (world : World Db (Transition Db Label)) : Prop where
  issued : ∀ entry ∈ world.log, ∀ key, registry.issued entry.2.left key → registry.issued world.db key
  seen : ∀ key tag, registry.Seen world key tag → registry.issued world.db key
  unique : ∀ key first second, registry.Seen world key first → registry.Seen world key second →
    first = second
  drawn : ∀ key first second, registry.DrawnBy first world key → registry.DrawnBy second world key →
    first = second

/-- A step adds the rows of `new`: under keys that it draws itself, or that its call has drawn and not
used. -/
structure Registers (number : ℕ) (world : World Db (Transition Db Label)) (after : Db)
    (new : Key → Tag → Prop) : Prop where
  issued : ∀ key, registry.issued world.db key → registry.issued after key
  rows : ∀ key tag, registry.rows after key tag → registry.rows world.db key tag ∨ new key tag
  once : ∀ key first second, new key first → new key second → first = second
  fresh : ∀ key tag, new key tag → registry.issued after key ∧
    (¬ registry.issued world.db key ∨ registry.Unused number world key)

variable {registry} {world : World Db (Transition Db Label)} {number other : ℕ} {label : Label}
  {after : Db} {key : Key} {tag : Tag} {new : Key → Tag → Prop}

/-- What was seen stays seen. -/
theorem Seen.step (hseen : registry.Seen world key tag) :
    registry.Seen (world.after number ⟨label, world.db, after⟩ after) key tag := by
  rcases hseen with hrow | ⟨entry, hentry, hrow⟩
  · exact .inr ⟨_, List.mem_cons_self, hrow⟩
  · exact .inr ⟨entry, List.mem_cons_of_mem _ hentry, hrow⟩

/-- What is seen after a step was seen before, or is one of its new rows. -/
theorem Registers.seen (hregisters : registry.Registers number world after new)
    (hseen : registry.Seen (world.after number ⟨label, world.db, after⟩ after) key tag) :
    registry.Seen world key tag ∨ new key tag := by
  rcases hseen with hrow | ⟨entry, hentry, hrow⟩
  · exact (hregisters.rows key tag hrow).imp_left .inl
  · rcases List.mem_cons.mp hentry with rfl | hold
    · exact .inl (.inl hrow)
    · exact .inl (.inr ⟨entry, hold, hrow⟩)

theorem DrawnBy.step (hdrawn : registry.DrawnBy number world key) :
    registry.DrawnBy number (world.after other ⟨label, world.db, after⟩ after) key := by
  obtain ⟨entry, hentry, hdraws⟩ := hdrawn
  exact ⟨entry, List.mem_cons_of_mem _ hentry, hdraws⟩

/-- A drawn key is issued. -/
theorem InOrder.issued_of_drawn (horder : registry.InOrder world)
    (hdrawn : registry.DrawnBy number world key) : registry.issued world.db key := by
  obtain ⟨entry, hentry, _, _, hleft⟩ := hdrawn
  exact horder.issued entry hentry key hleft

/-- No row has had a key before the step that adds a row under it. -/
theorem InOrder.not_seen (horder : registry.InOrder world)
    (hregisters : registry.Registers number world after new) (hnew : new key tag) (old : Tag) :
    ¬ registry.Seen world key old := by
  rcases (hregisters.fresh key tag hnew).2 with hissued | hunused
  · exact fun hseen ↦ hissued (horder.seen key old hseen)
  · exact hunused.2 old

/-- A step keeps the order. -/
theorem InOrder.step (horder : registry.InOrder world)
    (hregisters : registry.Registers number world after new) (label : Label) :
    registry.InOrder (world.after number ⟨label, world.db, after⟩ after) where
  issued entry hentry key hleft := by
    rcases List.mem_cons.mp hentry with rfl | hold
    · exact hleft
    · exact hregisters.issued key (horder.issued entry hold key hleft)
  seen key tag hseen := by
    rcases hregisters.seen hseen with hold | hnew
    · exact hregisters.issued key (horder.seen key tag hold)
    · exact (hregisters.fresh key tag hnew).1
  unique key first second hfirst hsecond := by
    rcases hregisters.seen hfirst with hold | hnew <;> rcases hregisters.seen hsecond with hold' | hnew'
    · exact horder.unique key first second hold hold'
    · exact absurd hold (horder.not_seen hregisters hnew' first)
    · exact absurd hold' (horder.not_seen hregisters hnew second)
    · exact hregisters.once key first second hnew hnew'
  drawn key first second hfirst hsecond := by
    have hnone : ∀ {caller : ℕ} {entry : ℕ × Transition Db Label}, entry ∈ world.log → entry.1 = caller →
        registry.issued entry.2.left key → registry.issued world.db key :=
      fun hentry _ hleft ↦ horder.issued _ hentry key hleft
    obtain ⟨entry, hentry, rfl, hfound, hleft⟩ := hfirst
    obtain ⟨entry', hentry', rfl, hfound', hleft'⟩ := hsecond
    rcases List.mem_cons.mp hentry with rfl | hold <;> rcases List.mem_cons.mp hentry' with rfl | hold'
    · rfl
    · exact absurd (hnone hold' rfl hleft') hfound
    · exact absurd (hnone hold rfl hleft) hfound'
    · exact horder.drawn key _ _ ⟨entry, hold, rfl, hfound, hleft⟩ ⟨entry', hold', rfl, hfound', hleft'⟩

/-- A key stays unused as long as no row is added under it. -/
theorem Unused.step (hunused : registry.Unused number world key)
    (hregisters : registry.Registers other world after new) (hkey : ∀ tag, ¬ new key tag) :
    registry.Unused number (world.after other ⟨label, world.db, after⟩ after) key := by
  refine ⟨hunused.1.step, fun tag hseen ↦ ?_⟩
  rcases hregisters.seen hseen with hold | hnew
  · exact hunused.2 tag hold
  · exact hkey tag hnew

/-- No other call uses the key. -/
theorem Unused.step_other (hunused : registry.Unused number world key) (horder : registry.InOrder world)
    (hregisters : registry.Registers other world after new) (hother : other ≠ number) :
    registry.Unused number (world.after other ⟨label, world.db, after⟩ after) key := by
  refine hunused.step hregisters fun tag hnew ↦ ?_
  rcases (hregisters.fresh key tag hnew).2 with hissued | hused
  · exact hissued (horder.issued_of_drawn hunused.1)
  · exact hother (horder.drawn key other number hused.1 hunused.1)

/-- A key that a step issues and adds no row under is unused afterwards. -/
theorem InOrder.unused (horder : registry.InOrder world)
    (hregisters : registry.Registers number world after new) (hkey : ∀ tag, ¬ new key tag)
    (hfound : ¬ registry.issued world.db key) (hleft : registry.issued after key) (label : Label) :
    registry.Unused number (world.after number ⟨label, world.db, after⟩ after) key := by
  refine ⟨⟨_, List.mem_cons_self, rfl, hfound, hleft⟩, fun tag hseen ↦ ?_⟩
  rcases hregisters.seen hseen with hold | hnew
  · exact hfound (horder.seen key tag hold)
  · exact hkey tag hnew

/-- A store no call has changed yet is in order. Assumes: its keys are issued and of one row each. -/
theorem inOrder_initial {db : Db} (hissued : ∀ key tag, registry.rows db key tag → registry.issued db key)
    (hunique : ∀ key first second, registry.rows db key first → registry.rows db key second →
      first = second) : registry.InOrder (⟨db, []⟩ : World Db (Transition Db Label)) where
  issued _ hentry := nomatch hentry
  seen key tag hseen := by
    rcases hseen with hrow | ⟨_, hentry, _⟩
    · exact hissued key tag hrow
    · cases hentry
  unique key first second hfirst hsecond := by
    rcases hfirst with hfirst | ⟨_, hentry, _⟩
    · rcases hsecond with hsecond | ⟨_, hentry, _⟩
      · exact hunique key first second hfirst hsecond
      · cases hentry
    · cases hentry
  drawn key first second hfirst := by
    obtain ⟨_, hentry, _⟩ := hfirst
    cases hentry

end Registry

end RallyApi.Concurrency

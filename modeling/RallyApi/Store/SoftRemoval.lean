import RallyApi.Store.Table

/-!
# Relations with soft removal

A relation between two kinds of things is kept in a table with at most one row for each pair. Adding a
pair inserts its row. Removing it keeps the row with another status. So a pair has no row, an active row or
an inactive one (`Standing`), and what an operation does depends on what its lookup makes of the third case.

`Implements` says what the two operations of a service do to the table. `along_roundTrip_iff` says when
every operation of a sequence succeeds exactly as the relation without the table would have it: when it
finds no inactive row.
-/

set_option autoImplicit false
set_option relaxedAutoImplicit false

namespace RallyApi.Store

/-! ### Standing -/

/-- Where a pair stands: it has no row, or its row is active, or it is not. -/
inductive Standing
  | absent
  | active
  | inactive
  deriving DecidableEq, Repr

/-- What a row says of its pair. -/
def Standing.ofStatus (active : Bool) : Standing := if active then .active else .inactive

/-- A relation in a table of a store, which is read and put back together with the source of identifiers. A
target is what an operation is called with; it is about a pair, and live where the operation does not fail
for another reason. `anyRow` says that a removal looks for a row of any status. -/
structure SoftRelation (Db Row Pair Target : Type) where
  rows : Db → List Row
  nextId : Db → ℕ
  put : List Row → ℕ → Db → Db
  rows_put : ∀ table next db, rows (put table next db) = table
  nextId_put : ∀ table next db, nextId (put table next db) = next
  id : Row → ℕ
  pair : Row → Pair
  active : Row → Bool
  about : Target → Pair
  live : Target → Db → Prop
  live_put : ∀ target table next db, live target (put table next db) ↔ live target db
  anyRow : Bool

variable {Db Row Pair Target : Type}

attribute [simp] SoftRelation.rows_put SoftRelation.nextId_put SoftRelation.live_put

/-- The table has one row for a pair, and no row with an identifier that is still to be drawn. -/
structure SoftRelation.Proper (relation : SoftRelation Db Row Pair Target) (db : Db) : Prop where
  pairs : ((relation.rows db).map relation.pair).Nodup
  drawn : ∀ row ∈ relation.rows db, relation.id row < relation.nextId db

/-- A table with rows rewritten that are about what they were about, or with identifiers drawn in vain. -/
theorem SoftRelation.Proper.put {relation : SoftRelation Db Row Pair Target} {db : Db} {table : List Row}
    {next : ℕ} (hproper : relation.Proper db)
    (hpairs : table.map relation.pair = (relation.rows db).map relation.pair)
    (hids : table.map relation.id = (relation.rows db).map relation.id)
    (hnext : relation.nextId db ≤ next) : relation.Proper (relation.put table next db) where
  pairs := by
    rw [relation.rows_put, hpairs]
    exact hproper.pairs
  drawn row hrow := by
    rw [relation.rows_put] at hrow
    rw [relation.nextId_put]
    have hid := List.mem_map_of_mem (f := relation.id) hrow
    rw [hids] at hid
    obtain ⟨old, hold, hsame⟩ := List.mem_map.mp hid
    exact hsame ▸ Nat.lt_of_lt_of_le (hproper.drawn old hold) hnext

variable [DecidableEq Pair]

/-- Where the pair of a target stands. -/
def SoftRelation.standing (relation : SoftRelation Db Row Pair Target) (target : Target) (db : Db) :
    Standing :=
  match (relation.rows db).find? fun row ↦ relation.pair row = relation.about target with
  | none => .absent
  | some row => .ofStatus (relation.active row)

section Standing

variable {relation : SoftRelation Db Row Pair Target} {target : Target} {db : Db} {row : Row}

theorem standing_eq_absent : relation.standing target db = .absent ↔
    ∀ row ∈ relation.rows db, relation.pair row ≠ relation.about target := by
  unfold SoftRelation.standing
  cases hfind : (relation.rows db).find? fun row ↦ relation.pair row = relation.about target with
  | none => simpa using List.find?_eq_none.mp hfind
  | some row =>
    have hrow := List.mem_of_find?_eq_some hfind
    have hpair : relation.pair row = relation.about target := by
      simpa using List.find?_some hfind
    refine iff_of_false ?_ fun hnone ↦ hnone row hrow hpair
    simp only [Standing.ofStatus]
    split_ifs <;> decide

/-- Assumes: a pair has one row. A row of the pair says where the pair stands. -/
theorem standing_of_mem (hproper : relation.Proper db) (hrow : row ∈ relation.rows db)
    (hpair : relation.pair row = relation.about target) :
    relation.standing target db = .ofStatus (relation.active row) := by
  rw [SoftRelation.standing, ← hpair, find_of_key hproper.pairs hrow]

/-- Assumes: a pair has one row. A lookup among the active rows finds one exactly if the pair is
active. -/
theorem standing_eq_active (hproper : relation.Proper db) : relation.standing target db = .active ↔
    ∃ row ∈ relation.rows db, relation.pair row = relation.about target ∧
      relation.active row = true := by
  constructor
  · intro hactive
    have hsome : ¬ ∀ row ∈ relation.rows db, relation.pair row ≠ relation.about target := by
      rw [← standing_eq_absent, hactive]
      decide
    push Not at hsome
    obtain ⟨row, hrow, hpair⟩ := hsome
    refine ⟨row, hrow, hpair, ?_⟩
    rw [standing_of_mem hproper hrow hpair, Standing.ofStatus] at hactive
    by_contra hinactive
    rw [if_neg hinactive] at hactive
    cases hactive
  · rintro ⟨row, hrow, hpair, hactive⟩
    rw [standing_of_mem hproper hrow hpair, Standing.ofStatus, if_pos hactive]

end Standing

/-! ### Insertion -/

/-- `INSERT`, against the primary key and a unique index on the pair. -/
def insertUnique {Failure : Type} (primaryKey index : Failure) (id : Row → ℕ) (pair : Row → Pair)
    (row : Row) (rows : List Row) : Except Failure (List Row) :=
  if rows.any fun other ↦ id other = id row then .error primaryKey
  else if rows.any fun other ↦ pair other = pair row then .error index
  else .ok (rows ++ [row])

/-- Assumes: the new row has the next identifier. It is inserted exactly if its pair has no row. -/
theorem SoftRelation.Proper.insertUnique_eq {relation : SoftRelation Db Row Pair Target} {db : Db}
    {row : Row} {Failure : Type} {primaryKey index : Failure} (hproper : relation.Proper db)
    (target : Target) (hid : relation.id row = relation.nextId db)
    (hpair : relation.pair row = relation.about target) :
    insertUnique primaryKey index relation.id relation.pair row (relation.rows db) =
      if relation.standing target db = .absent then .ok (relation.rows db ++ [row])
      else .error index := by
  have hfresh : ∀ other ∈ relation.rows db, relation.id other ≠ relation.id row :=
    fun other hother ↦ Nat.ne_of_lt (hid ▸ hproper.drawn other hother)
  unfold insertUnique
  rw [if_neg (by simpa using hfresh), hpair]
  by_cases habsent : relation.standing target db = .absent
  · rw [if_neg (by simpa using standing_eq_absent.mp habsent), if_pos habsent]
  · rw [if_pos (by simpa using mt standing_eq_absent.mpr habsent), if_neg habsent]

/-! ### The two operations -/

/-- A call that adds or removes the pair of a target. -/
inductive Operation (Target : Type)
  | add (target : Target)
  | remove (target : Target)
  deriving DecidableEq, Repr

/-- What the call is made with. -/
def Operation.target : Operation Target → Target
  | .add target => target
  | .remove target => target

/-- A removal finds a row to remove. -/
def SoftRelation.Finds (relation : SoftRelation Db Row Pair Target) (target : Target) (db : Db) : Prop :=
  relation.standing target db = .active ∨
    relation.anyRow = true ∧ relation.standing target db = .inactive

instance (relation : SoftRelation Db Row Pair Target) (target : Target) (db : Db) :
    Decidable (relation.Finds target db) := inferInstanceAs (Decidable (_ ∨ _ ∧ _))

/-- What the two operations do, each with whether it succeeds. An addition inserts an active row with a
fresh identifier where the pair has none, and otherwise fails, maybe with an identifier drawn in vain. A
removal succeeds where it finds a row, and rewrites rows without changing what they are about. -/
structure Implements (relation : SoftRelation Db Row Pair Target)
    (perform : Operation Target → Db → Bool × Db) : Prop where
  add : ∀ target db, relation.Proper db → relation.live target db →
    ∃ row drawn, (relation.pair row = relation.about target ∧ relation.active row = true ∧
        relation.id row = relation.nextId db ∧ relation.nextId db ≤ drawn) ∧
      perform (.add target) db = if relation.standing target db = .absent
        then (true, relation.put (relation.rows db ++ [row]) (relation.nextId db + 1) db)
        else (false, relation.put (relation.rows db) drawn db)
  remove : ∀ target db, relation.Proper db → relation.live target db →
    ∃ condition set, (∀ row, relation.pair (set row) = relation.pair row ∧
        relation.id (set row) = relation.id row) ∧
      perform (.remove target) db = if relation.Finds target db
        then (true, relation.put (updateWhere condition set (relation.rows db)) (relation.nextId db) db)
        else (false, relation.put (relation.rows db) (relation.nextId db) db)

/-- The round trip of one operation: an addition succeeds exactly if the pair is not active, and makes it
active; a removal succeeds exactly if the pair is active. -/
def SoftRelation.RoundTrip (relation : SoftRelation Db Row Pair Target)
    (perform : Operation Target → Db → Bool × Db) (db : Db) : Operation Target → Prop
  | .add target => ((perform (.add target) db).1 = true ↔ relation.standing target db ≠ .active) ∧
    ((perform (.add target) db).1 = true →
      relation.standing target (perform (.add target) db).2 = .active)
  | .remove target =>
    (perform (.remove target) db).1 = true ↔ relation.standing target db = .active

instance (relation : SoftRelation Db Row Pair Target) (perform : Operation Target → Db → Bool × Db)
    (db : Db) (operation : Operation Target) : Decidable (relation.RoundTrip perform db operation) :=
  match operation with
  | .add _ => inferInstanceAs (Decidable ((_ ↔ _) ∧ (_ → _)))
  | .remove _ => inferInstanceAs (Decidable (_ ↔ _))

/-- The operation finds no inactive row of its pair, unless it is a removal that looks at active rows
only. -/
def SoftRelation.Unremoved (relation : SoftRelation Db Row Pair Target) (db : Db) :
    Operation Target → Prop
  | .add target => relation.standing target db ≠ .inactive
  | .remove target => relation.anyRow = true → relation.standing target db ≠ .inactive

instance (relation : SoftRelation Db Row Pair Target) (db : Db) (operation : Operation Target) :
    Decidable (relation.Unremoved db operation) :=
  match operation with
  | .add _ => inferInstanceAs (Decidable (_ ≠ _))
  | .remove _ => inferInstanceAs (Decidable (_ → _))

/-- Each operation of a sequence has a property in the store it finds. -/
def Along (perform : Operation Target → Db → Bool × Db) (property : Db → Operation Target → Prop) :
    Db → List (Operation Target) → Prop
  | _, [] => True
  | db, operation :: rest =>
    property db operation ∧ Along perform property (perform operation db).2 rest

instance Along.decidable {perform : Operation Target → Db → Bool × Db}
    {property : Db → Operation Target → Prop} [∀ db operation, Decidable (property db operation)] :
    (db : Db) → (operations : List (Operation Target)) →
      Decidable (Along perform property db operations)
  | _, [] => .isTrue trivial
  | db, operation :: rest =>
    have : Decidable (Along perform property (perform operation db).2 rest) := Along.decidable _ rest
    inferInstanceAs (Decidable (_ ∧ _))

section Implements

variable {relation : SoftRelation Db Row Pair Target} {perform : Operation Target → Db → Bool × Db}
  {db : Db} {table : List Row} {next : ℕ} {operation : Operation Target}

/-- A table with another row about a pair that had none. -/
theorem SoftRelation.Proper.append {row : Row} {target : Target} (hproper : relation.Proper db)
    (hpair : relation.pair row = relation.about target) (hid : relation.id row = relation.nextId db)
    (habsent : relation.standing target db = .absent) :
    relation.Proper (relation.put (relation.rows db ++ [row]) (relation.nextId db + 1) db) where
  pairs := by
    rw [relation.rows_put]
    refine nodup_map_append_singleton hproper.pairs fun hmem ↦ ?_
    obtain ⟨other, hother, hsame⟩ := List.mem_map.mp hmem
    exact standing_eq_absent.mp habsent other hother (hsame.trans hpair)
  drawn other hother := by
    rw [relation.rows_put] at hother
    rw [relation.nextId_put]
    rcases List.mem_append.mp hother with hold | hnew
    · exact Nat.lt_succ_of_lt (hproper.drawn other hold)
    · rw [List.mem_singleton.mp hnew, hid]
      exact Nat.lt_succ_self _

variable (himplements : Implements relation perform)

include himplements

/-- An operation leaves live what is live. -/
theorem Implements.live_iff (hproper : relation.Proper db) (hlive : relation.live operation.target db)
    (target : Target) : relation.live target (perform operation db).2 ↔ relation.live target db := by
  cases operation with
  | add added =>
    obtain ⟨row, drawn, -, hadd⟩ := himplements.add added db hproper hlive
    rw [hadd]
    split_ifs <;> simp
  | remove removed =>
    obtain ⟨condition, set, -, hremove⟩ := himplements.remove removed db hproper hlive
    rw [hremove]
    split_ifs <;> simp

/-- An operation keeps the table proper. -/
theorem Implements.proper (hproper : relation.Proper db) (hlive : relation.live operation.target db) :
    relation.Proper (perform operation db).2 := by
  cases operation with
  | add target =>
    obtain ⟨row, drawn, ⟨hpair, -, hid, hdrawn⟩, hadd⟩ := himplements.add target db hproper hlive
    rw [hadd]
    split_ifs with habsent
    · exact hproper.append hpair hid habsent
    · exact hproper.put rfl rfl hdrawn
  | remove target =>
    obtain ⟨condition, set, hset, hremove⟩ := himplements.remove target db hproper hlive
    rw [hremove]
    split_ifs
    · exact hproper.put (map_updateWhere fun row ↦ (hset row).1)
        (map_updateWhere fun row ↦ (hset row).2) (Nat.le_refl _)
    · exact hproper.put rfl rfl (Nat.le_refl _)

/-- A removal succeeds exactly if it finds a row. -/
theorem Implements.remove_iff {target : Target} (hproper : relation.Proper db)
    (hlive : relation.live target db) :
    (perform (.remove target) db).1 = true ↔ relation.Finds target db := by
  obtain ⟨condition, set, -, hremove⟩ := himplements.remove target db hproper hlive
  rw [hremove]
  by_cases hfinds : relation.Finds target db <;> simp [hfinds]

/-- An operation makes the round trip exactly if it finds no inactive row. -/
theorem Implements.roundTrip_iff (hproper : relation.Proper db)
    (hlive : relation.live operation.target db) :
    relation.RoundTrip perform db operation ↔ relation.Unremoved db operation := by
  cases operation with
  | add target =>
    obtain ⟨row, drawn, ⟨hpair, hactive, hid, -⟩, hadd⟩ := himplements.add target db hproper hlive
    simp only [SoftRelation.RoundTrip, SoftRelation.Unremoved, hadd]
    by_cases habsent : relation.standing target db = .absent
    · have hafter : relation.standing target
          (relation.put (relation.rows db ++ [row]) (relation.nextId db + 1) db) = .active := by
        refine (standing_eq_active (hproper.append hpair hid habsent)).mpr ⟨row, ?_, hpair, hactive⟩
        rw [relation.rows_put]
        exact List.mem_append_right _ List.mem_cons_self
      simp [habsent, hafter]
    · cases hstanding : relation.standing target db with
      | absent => exact absurd hstanding habsent
      | active => simp
      | inactive => simp
  | remove target =>
    have hremove := himplements.remove_iff hproper (show relation.live target db from hlive)
    simp only [SoftRelation.RoundTrip, SoftRelation.Unremoved, hremove, SoftRelation.Finds]
    cases relation.standing target db <;> simp

/-- Assumes: each target is live. The operations of a sequence all make the round trip exactly if none of
them finds an inactive row. -/
theorem Implements.along_roundTrip_iff {operations : List (Operation Target)}
    (hproper : relation.Proper db)
    (hlive : ∀ operation ∈ operations, relation.live operation.target db) :
    Along perform (relation.RoundTrip perform) db operations ↔
      Along perform relation.Unremoved db operations := by
  induction operations generalizing db with
  | nil => exact Iff.rfl
  | cons operation rest ih =>
    have hfirst := hlive operation List.mem_cons_self
    refine and_congr (himplements.roundTrip_iff hproper hfirst) (ih ?_ fun other hother ↦ ?_)
    · exact himplements.proper hproper hfirst
    · exact (himplements.live_iff hproper hfirst other.target).mpr
        (hlive other (List.mem_cons_of_mem operation hother))

end Implements

end RallyApi.Store

import Mathlib.Data.List.Nodup
import Mathlib.Data.List.Perm.Basic
import RallyApi.Concurrency.Call
import RallyApi.Store.Table

/-!
# Reads of a snapshot

A request that only reads is a function of the snapshot it finds (`Reading`): its result, or its failure.

The second half is about tables of which only some rows are visible. A search by a key finds the same row in
the visible part of a table, unless that row is hidden (`find_filter_visible`). A query gives the same rows
on the visible part exactly when it selects visible rows only: `arrange_visible_iff` for its rows in some
order, `countP_visible_iff` for their number.
-/

set_option autoImplicit false
set_option relaxedAutoImplicit false

namespace RallyApi.Store

open Concurrency

/-! ### Reading -/

/-- A request that only reads. -/
abbrev Reading (Db Failure : Type) := ReaderT Db (Except Failure)

section Reading

variable {Db Sub Label Failure α β : Type}

/-- One query. -/
def select (read : Db → α) : Reading Db Failure α := fun db ↦ .ok (read db)

/-- A call that reads a part of the store, in isolation. -/
def ofCall (part : Db → Sub) (call : Call Sub Label Failure α) : Reading Db Failure α :=
  fun db ↦ (call.run (part db)).1

/-- The row that has been found, if it meets a condition, or a failure. -/
def checked (found : Option α) (condition : α → Bool) (failure : Failure) : Except Failure α :=
  match found.filter condition with
  | some row => .ok row
  | none => .error failure

theorem checked_eq_ok {found : Option α} {condition : α → Bool} {failure : Failure} {row : α} :
    checked found condition failure = .ok row ↔ found = some row ∧ condition row = true := by
  rw [← Option.filter_eq_some_iff, checked]
  cases found.filter condition <;> simp

/-- A call that looks a row up, requires it and checks it. -/
theorem run_checked {label : Label} {read : Db → Option α} {condition : α → Prop}
    [DecidablePred condition] {failure : Failure} {db : Db} :
    ((do
      let found ← Call.query label read
      let row ← Call.require found failure
      Call.ensure (condition row) failure
      pure row : Call Db Label Failure α).run db).1 =
        checked (read db) (fun row ↦ decide (condition row)) failure := by
  rw [Call.run_bind, Call.run_query]
  dsimp only
  cases read db with
  | none => rfl
  | some row =>
    rw [Call.require_some, Call.pure_bind, Call.run_bind, checked, Option.filter_some]
    by_cases hrow : condition row
    · rw [Call.ensure_pos hrow, decide_eq_true hrow]
      rfl
    · rw [Call.ensure, if_neg hrow, decide_eq_false hrow]
      rfl

/-- Assumes: a check gives the same on two snapshots, and it succeeds under some condition. What is read
after it is the same on both exactly when it is where the condition holds. -/
theorem check_bind_eq_iff {check : Reading Db Failure α} {rest : Reading Db Failure β} {passes : Prop}
    {db other : Db} (hcheck : check other = check db)
    (hpasses : (∃ value, check db = .ok value) ↔ passes) :
    (check >>= fun _ ↦ rest) db = (check >>= fun _ ↦ rest) other ↔ (passes → rest db = rest other) := by
  change ((check db).bind fun _ ↦ rest db) = ((check other).bind fun _ ↦ rest other) ↔ _
  rw [hcheck, ← hpasses]
  cases check db with
  | error failure => simp [Except.bind]
  | ok value => simp [Except.bind]

end Reading

/-! ### The visible part of a table -/

section Visible

variable {Row Key : Type} {rows : List Row} {visible condition search : Row → Bool}

/-- Assumes: the rows have distinct keys, and a search matches rows of one key. It finds the same row among
the visible rows, unless that is hidden. -/
theorem find_filter_visible {key : Row → Key} (hnodup : (rows.map key).Nodup)
    (hsearch : ∀ first second, search first = true → search second = true → key first = key second) :
    (rows.filter visible).find? search = (rows.find? search).filter visible := by
  induction rows with
  | nil => rfl
  | cons row rest ih =>
    rw [List.map_cons, List.nodup_cons] at hnodup
    by_cases hrow : search row = true
    · by_cases hvisible : visible row = true
      · simp [hrow, hvisible, Option.filter_some]
      · have hnone : (rest.filter visible).find? search = none := by
          refine List.find?_eq_none.mpr fun other hother hmatches ↦ hnodup.1 ?_
          rw [hsearch row other hrow hmatches]
          exact List.mem_map_of_mem (List.mem_of_mem_filter hother)
        simp [hrow, hvisible, hnone, Option.filter_some]
    · by_cases hvisible : visible row = true
      · simp [hrow, hvisible, ih hnodup.2]
      · simp [hrow, hvisible, ih hnodup.2]

/-- Assumes: distinct keys, a search for rows of one key, and a check that hidden rows fail. Looked up and
checked, the visible part gives the same. -/
theorem checked_find_visible {Failure : Type} {key : Row → Key} {failure : Failure}
    (hnodup : (rows.map key).Nodup)
    (hsearch : ∀ first second, search first = true → search second = true → key first = key second)
    (hvisible : ∀ row, condition row = true → visible row = true) :
    checked ((rows.filter visible).find? search) condition failure =
      checked (rows.find? search) condition failure := by
  rw [find_filter_visible hnodup hsearch, checked, checked, Option.filter_filter]
  congr 2
  ext row
  by_cases hrow : condition row = true
  · rw [hrow, hvisible row hrow, Bool.and_self]
  · rw [Bool.eq_false_iff.mpr hrow, Bool.and_false]

/-- Assumes: distinct keys, and a search for rows of one key. The row that is looked up passes the check
exactly when there is one that does. -/
theorem checked_find_passes {Failure : Type} {key : Row → Key} {failure : Failure}
    (hnodup : (rows.map key).Nodup)
    (hsearch : ∀ first second, search first = true → search second = true → key first = key second) :
    (∃ row, checked (rows.find? search) condition failure = .ok row) ↔
      ∃ row ∈ rows, search row = true ∧ condition row = true := by
  simp only [checked_eq_ok]
  constructor
  · rintro ⟨row, hfound, hcondition⟩
    exact ⟨row, List.mem_of_find?_eq_some hfound, List.find?_some hfound, hcondition⟩
  · rintro ⟨row, hrow, hmatches, hcondition⟩
    exact ⟨row, find_of_match hnodup hrow hmatches fun other _ hother ↦
      hsearch other row hother hmatches, hcondition⟩

/-- A query that selects visible rows only does not see the others. -/
theorem filter_filter_visible (hvisible : ∀ row ∈ rows, condition row = true → visible row = true) :
    (rows.filter visible).filter condition = rows.filter condition := by
  rw [List.filter_filter]
  refine List.filter_congr fun row hrow ↦ ?_
  by_cases hcondition : condition row = true
  · rw [hcondition, hvisible row hrow hcondition, Bool.and_self]
  · rw [Bool.eq_false_iff.mpr hcondition, Bool.false_and]

/-- The rows of a query, in an order of the database, are the same on the visible part exactly when all of
them are visible. -/
theorem arrange_visible_iff {arrange : List Row → List Row} (hperm : ∀ rows, (arrange rows).Perm rows) :
    arrange (rows.filter condition) = arrange ((rows.filter visible).filter condition) ↔
      ∀ row ∈ rows, condition row = true → visible row = true := by
  constructor
  · intro hsame row hrow hcondition
    have hmem := (hperm _).mem_iff.mpr (List.mem_filter.mpr ⟨hrow, hcondition⟩)
    rw [hsame, (hperm _).mem_iff] at hmem
    exact (List.mem_filter.mp (List.mem_of_mem_filter hmem)).2
  · intro hvisible
    rw [filter_filter_visible hvisible]

/-- The number of rows of a query is the same on the visible part exactly when all of them are visible. -/
theorem countP_visible_iff :
    rows.countP condition = (rows.filter visible).countP condition ↔
      ∀ row ∈ rows, condition row = true → visible row = true := by
  have hcount : (rows.filter visible).countP condition =
      ((rows.filter condition).filter visible).length := by
    rw [List.countP_eq_length_filter, List.filter_comm]
  rw [hcount, List.countP_eq_length_filter, eq_comm, List.length_filter_eq_length_iff]
  simp only [List.mem_filter, and_imp]

end Visible

end RallyApi.Store

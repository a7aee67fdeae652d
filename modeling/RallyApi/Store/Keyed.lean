import Mathlib.Data.List.Sort
import RallyApi.Store.Table

/-!
# Tables as maps

A table whose rows have distinct keys is a map from keys to rows: `rowAt` looks a key up. `upsert` is
`INSERT … ON CONFLICT (key) DO UPDATE`, and on the map it is the update at one key (`rowAt_upsert`). What is
selected from such a table and sorted by a column that tells the selected rows apart comes in one order
only, whatever order the table has (`pairwise_sortBy`).
-/

set_option autoImplicit false
set_option relaxedAutoImplicit false

namespace RallyApi.Store

variable {Row Key : Type} [DecidableEq Key] {key : Row → Key} {rows : List Row} {row new : Row}

/-- The row with a key. -/
def rowAt (key : Row → Key) (rows : List Row) (sought : Key) : Option Row :=
  rows.find? fun row ↦ key row = sought

/-- `INSERT … ON CONFLICT (key) DO UPDATE`: `merge` is what becomes of a row that has the key already. -/
def upsert (key : Row → Key) (merge : Row → Row) (new : Row) (rows : List Row) : List Row :=
  if rows.any fun row ↦ key row = key new then updateWhere (fun row ↦ key row = key new) merge rows
  else rows ++ [new]

/-- Assumes: the keys are distinct. The row with a key is the one row that has it. -/
theorem rowAt_eq_some_iff (hnodup : (rows.map key).Nodup) {sought : Key} :
    rowAt key rows sought = some row ↔ row ∈ rows ∧ key row = sought := by
  constructor
  · intro hfound
    have hmatches := List.find?_some hfound
    exact ⟨List.mem_of_find?_eq_some hfound, of_decide_eq_true hmatches⟩
  · rintro ⟨hrow, rfl⟩
    exact find_of_key hnodup hrow

/-- Assumes: the update leaves keys alone. A row is found under its key, rewritten if the update covers
it. -/
theorem rowAt_updateWhere {condition : Row → Bool} {set : Row → Row} (hkey : ∀ row, key (set row) = key row)
    (sought : Key) :
    rowAt key (updateWhere condition set rows) sought =
      (rowAt key rows sought).map fun row ↦ if condition row then set row else row :=
  find_updateWhere fun row ↦ by rw [hkey]

/-- A row is added under a key that none has. -/
theorem rowAt_append_singleton (hfree : rowAt key rows (key new) = none) :
    rowAt key (rows ++ [new]) = Function.update (rowAt key rows) (key new) (some new) := by
  funext sought
  by_cases hsought : sought = key new
  · subst hsought
    rw [Function.update_self, rowAt, List.find?_append, ← rowAt, hfree, Option.none_or]
    exact List.find?_cons_of_pos (decide_eq_true rfl)
  · rw [Function.update_of_ne hsought, rowAt, List.find?_append, ← rowAt,
      List.find?_cons_of_neg (by simpa using Ne.symm hsought), List.find?_nil, Option.or_none]

/-- Assumes: the merged row keeps the key. An upsert sets what is at the key of the new row, to the new
row or to the merged one. -/
theorem rowAt_upsert {merge : Row → Row} (hmerge : ∀ row, key (merge row) = key row) :
    rowAt key (upsert key merge new rows) =
      Function.update (rowAt key rows) (key new) (some ((rowAt key rows (key new)).elim new merge)) := by
  rw [upsert]
  split_ifs with htaken
  · funext sought
    rw [rowAt_updateWhere hmerge]
    by_cases hsought : sought = key new
    · subst hsought
      obtain ⟨old, hold⟩ := Option.isSome_iff_exists.mp (List.find?_isSome.mpr (List.any_eq_true.mp htaken))
      have hfound : rowAt key rows (key new) = some old := hold
      rw [Function.update_self, hfound, Option.map_some, Option.elim_some,
        if_pos (List.find?_some hold)]
    · rw [Function.update_of_ne hsought]
      cases hfound : rowAt key rows sought with
      | none => rfl
      | some old =>
        have hmatches := List.find?_some hfound
        have hold : key old = sought := of_decide_eq_true hmatches
        rw [Option.map_some, if_neg fun hsame ↦ hsought (hold.symm.trans (of_decide_eq_true hsame))]
  · have hfree : rowAt key rows (key new) = none :=
      List.find?_eq_none.mpr fun row hrow hsame ↦ htaken (List.any_eq_true.mpr ⟨row, hrow, hsame⟩)
    rw [rowAt_append_singleton hfree, hfree, Option.elim_none]

section Sorted

variable {Column : Type} [LinearOrder Column]

/-- `ORDER BY column ASC`. -/
def sortBy (column : Row → Column) (rows : List Row) : List Row :=
  rows.insertionSort fun first second ↦ column first ≤ column second

theorem mem_sortBy {column : Row → Column} : row ∈ sortBy column rows ↔ row ∈ rows :=
  List.mem_insertionSort _

/-- Assumes: the column tells the rows apart. It ascends strictly. -/
theorem pairwise_sortBy {column : Row → Column} (hnodup : (rows.map column).Nodup) :
    ((sortBy column rows).map column).Pairwise (· < ·) := by
  have : Std.Total fun first second : Row ↦ column first ≤ column second :=
    ⟨fun first second ↦ le_total (column first) (column second)⟩
  have : IsTrans Row fun first second ↦ column first ≤ column second := ⟨fun _ _ _ ↦ le_trans⟩
  have hsorted : (sortBy column rows).Pairwise fun first second ↦ column first ≤ column second :=
    List.pairwise_insertionSort _ _
  have hdistinct : ((sortBy column rows).map column).Pairwise (· ≠ ·) :=
    ((List.perm_insertionSort _ rows).map column).nodup_iff.mpr hnodup
  have hascending := List.pairwise_map.mpr hsorted
  exact (hascending.and hdistinct).imp fun hboth ↦ lt_of_le_of_ne hboth.1 hboth.2

end Sorted

end RallyApi.Store

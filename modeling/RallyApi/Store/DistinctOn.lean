import Mathlib.Data.List.Destutter
import Mathlib.Logic.Function.Basic
import Mathlib.Order.Basic

/-!
# One row a key

`distinctOn` is `SELECT DISTINCT ON (key)`: of the rows that follow each other with one key it keeps the
first. `mapBy` is the map of rows by key, in which the last row with a key wins. On rows in the order of
their keys, looking a key up in the map of the distinct rows finds the first row with that key
(`mapBy_distinctOn`).
-/

set_option autoImplicit false
set_option relaxedAutoImplicit false

namespace RallyApi.Store

variable {Row Key : Type} [DecidableEq Key] {key : Row → Key} {rows : List Row}

/-- `SELECT DISTINCT ON (key)`, on the rows in the order in which the query has arranged them. -/
def distinctOn (key : Row → Key) (rows : List Row) : List Row :=
  rows.destutter fun first second ↦ key first ≠ key second

/-- `new Map(rows.map(row => [key(row), row]))`, by its method `get`. -/
def mapBy (key : Row → Key) (rows : List Row) : Key → Option Row :=
  rows.foldl (fun map row ↦ Function.update map (key row) (some row)) fun _ ↦ none

/-- The first row with a key is kept. -/
theorem find_distinctOn (sought : Key) :
    (distinctOn key rows).find? (fun row ↦ key row = sought) =
      rows.find? fun row ↦ key row = sought := by
  cases rows with
  | nil => rfl
  | cons row rest =>
    rw [distinctOn, List.destutter_cons']
    induction rest generalizing row with
    | nil => rfl
    | cons next rest ih =>
      by_cases hsame : key row = key next
      · rw [List.destutter'_cons_neg _ (not_not.mpr hsame), ih row]
        by_cases hrow : key row = sought
        · simp [hrow]
        · have hnext : ¬ key next = sought := fun hfound ↦ hrow (hsame.trans hfound)
          simp [hrow, hnext]
      · rw [List.destutter'_cons_pos _ hsame, List.find?_cons, List.find?_cons, ih next]

/-- Assumes: the rows are in the order of their keys. The kept rows have distinct keys. -/
theorem nodup_map_distinctOn [PartialOrder Key]
    (hsorted : rows.Pairwise fun first second ↦ key first ≤ key second) :
    ((distinctOn key rows).map key).Nodup := by
  have hkept : (distinctOn key rows).Pairwise fun first second ↦ key first ≤ key second :=
    hsorted.sublist (List.destutter_sublist _ rows)
  have hchain : (distinctOn key rows).IsChain fun first second ↦ key first ≠ key second :=
    List.isChain_destutter _ rows
  have hstrict : (distinctOn key rows).IsChain fun first second ↦ key first < key second := by
    rw [List.isChain_iff_getElem] at hchain ⊢
    intro index hindex
    exact lt_of_le_of_ne (hkept.isChain.getElem index hindex) (hchain index hindex)
  have : IsTrans Row fun first second ↦ key first < key second :=
    ⟨fun _ _ _ hfirst hsecond ↦ hfirst.trans hsecond⟩
  rw [List.Nodup, List.pairwise_map]
  exact hstrict.pairwise.imp fun hless ↦ ne_of_lt hless

/-- Assumes: the rows have distinct keys. The map finds the row with a key. -/
theorem mapBy_eq_find (hkeys : (rows.map key).Nodup) (sought : Key) :
    mapBy key rows sought = rows.find? fun row ↦ key row = sought := by
  have hfold : ∀ start : Key → Option Row,
      rows.foldl (fun map row ↦ Function.update map (key row) (some row)) start sought =
        (rows.find? fun row ↦ key row = sought).or (start sought) := by
    induction rows with
    | nil => exact fun start ↦ rfl
    | cons row rest ih =>
      rw [List.map_cons, List.nodup_cons] at hkeys
      intro start
      rw [List.foldl_cons, ih hkeys.2]
      by_cases hrow : key row = sought
      · have hrest : (rest.find? fun other ↦ key other = sought) = none := by
          refine List.find?_eq_none.mpr fun other hother hfound ↦ hkeys.1 ?_
          rw [hrow, ← of_decide_eq_true hfound]
          exact List.mem_map_of_mem hother
        simp [hrest, hrow]
      · rw [Function.update_of_ne (Ne.symm hrow), List.find?_cons_of_neg (by simpa using hrow)]
  rw [mapBy, hfold, Option.or_none]

/-- Assumes: the rows are in the order of their keys. The map of the distinct rows finds the first row with
a key. -/
theorem mapBy_distinctOn [PartialOrder Key]
    (hsorted : rows.Pairwise fun first second ↦ key first ≤ key second) (sought : Key) :
    mapBy key (distinctOn key rows) sought = rows.find? fun row ↦ key row = sought :=
  (mapBy_eq_find (nodup_map_distinctOn hsorted) sought).trans (find_distinctOn sought)

/-- The first match in an arranged list comes before every other match. -/
theorem before_of_find {before : Row → Row → Prop} {search : Row → Bool} {row other : Row}
    (hsorted : rows.Pairwise before) (hfound : rows.find? search = some row) (hother : other ∈ rows)
    (hmatches : search other = true) : other = row ∨ before row other := by
  obtain ⟨_, front, rest, rfl, hfront⟩ := List.find?_eq_some_iff_append.mp hfound
  rcases List.mem_append.mp hother with hearlier | hlater
  · have hnot := hfront other hearlier
    rw [hmatches] at hnot
    cases hnot
  · rcases List.mem_cons.mp hlater with rfl | hrest
    · exact .inl rfl
    · exact .inr ((List.pairwise_cons.mp (List.pairwise_append.mp hsorted).2.1).1 other hrest)

end RallyApi.Store

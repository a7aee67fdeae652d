import Mathlib.Data.List.Nodup
import Mathlib.Data.Nat.Notation

/-!
# Tables

A table is the list of its rows in some physical order. `updateWhere` is `UPDATE … SET … WHERE …`:
it rewrites the rows that match and leaves the others, in place. The lemmas say which rows the new
table has and which columns it keeps.
-/

set_option autoImplicit false
set_option relaxedAutoImplicit false

namespace RallyApi.Store

variable {Row Key : Type}

/-- `UPDATE … SET … WHERE …`: rewrites the rows that match the condition. -/
def updateWhere (condition : Row → Bool) (set : Row → Row) (rows : List Row) : List Row :=
  rows.map fun row ↦ if condition row then set row else row

/-- `DELETE … WHERE …`: drops the rows that match the condition. -/
def deleteWhere (condition : Row → Bool) (rows : List Row) : List Row :=
  rows.filter fun row ↦ !condition row

variable {condition : Row → Bool} {set : Row → Row} {rows : List Row} {row : Row}

/-- The rows after an update: the rewritten rows that matched and the others as they were. -/
theorem mem_updateWhere :
    row ∈ updateWhere condition set rows ↔
      ∃ old ∈ rows, row = if condition old then set old else old := by
  simp only [updateWhere, List.mem_map]
  exact ⟨fun ⟨old, hold, h⟩ ↦ ⟨old, hold, h.symm⟩, fun ⟨old, hold, h⟩ ↦ ⟨old, hold, h.symm⟩⟩

/-- A row that matched is there afterwards, rewritten. -/
theorem set_mem_updateWhere (hrow : row ∈ rows) (hcondition : condition row = true) :
    set row ∈ updateWhere condition set rows :=
  mem_updateWhere.mpr ⟨row, hrow, by rw [if_pos hcondition]⟩

/-- A row that did not match is there afterwards, unchanged. -/
theorem mem_updateWhere_of_not (hrow : row ∈ rows) (hcondition : condition row = false) :
    row ∈ updateWhere condition set rows :=
  mem_updateWhere.mpr ⟨row, hrow, by rw [if_neg (by simp [hcondition])]⟩

/-- Assumes: no row matches. The table stays as it is. -/
theorem updateWhere_of_none (hnone : ∀ row ∈ rows, condition row = false) :
    updateWhere condition set rows = rows := by
  refine (List.map_congr_left fun row hrow ↦ ?_).trans (List.map_id rows)
  rw [if_neg (by simp [hnone row hrow]), id]

/-- Assumes: the update leaves a column alone. The column reads the same in the whole table. -/
theorem map_updateWhere {column : Row → Key} (hcolumn : ∀ row, column (set row) = column row) :
    (updateWhere condition set rows).map column = rows.map column := by
  simp only [updateWhere, List.map_map]
  refine List.map_congr_left fun row _ ↦ ?_
  simp only [Function.comp_apply]
  split_ifs
  · exact hcolumn row
  · rfl

/-- Assumes: the update leaves a key alone. Distinct keys stay distinct. -/
theorem nodup_map_updateWhere {key : Row → Key} (hkey : ∀ row, key (set row) = key row)
    (hnodup : (rows.map key).Nodup) : ((updateWhere condition set rows).map key).Nodup := by
  rwa [map_updateWhere hkey]

/-- Assumes: at most one row matches a condition. Two rows that match are the same. -/
theorem eq_of_countP_le_one {first second : Row} (hone : rows.countP condition ≤ 1)
    (hfirst : first ∈ rows) (hsecond : second ∈ rows) (hfirstMatches : condition first = true)
    (hsecondMatches : condition second = true) : first = second := by
  rw [List.countP_eq_length_filter] at hone
  have hmemFirst := List.mem_filter.mpr ⟨hfirst, hfirstMatches⟩
  have hmemSecond := List.mem_filter.mpr ⟨hsecond, hsecondMatches⟩
  cases hmatching : rows.filter condition with
  | nil => simp [hmatching] at hmemFirst
  | cons only rest =>
    rw [hmatching] at hone hmemFirst hmemSecond
    obtain rfl : rest = [] := List.length_eq_zero_iff.mp (Nat.le_zero.mp (Nat.le_of_succ_le_succ hone))
    rw [List.mem_singleton.mp hmemFirst, List.mem_singleton.mp hmemSecond]

/-- Assumes: the rows have distinct keys, a row matches a search, and those that match have its key. The
search finds that row. -/
theorem find_of_match {key : Row → Key} {search : Row → Bool} (hnodup : (rows.map key).Nodup)
    (hrow : row ∈ rows) (hmatches : search row = true)
    (hsame : ∀ other ∈ rows, search other = true → key other = key row) :
    rows.find? search = some row := by
  cases hfound : rows.find? search with
  | none => exact absurd hmatches (List.find?_eq_none.mp hfound row hrow)
  | some other =>
    have hmem := List.mem_of_find?_eq_some hfound
    rw [List.inj_on_of_nodup_map hnodup hmem hrow (hsame other hmem (List.find?_some hfound))]

/-- Assumes: the rows have distinct keys. A search for the key of a row finds that row. -/
theorem find_of_key [DecidableEq Key] {key : Row → Key} (hnodup : (rows.map key).Nodup)
    (hrow : row ∈ rows) : rows.find? (fun other ↦ key other = key row) = some row :=
  find_of_match hnodup hrow (decide_eq_true rfl) fun _ _ hsame ↦ of_decide_eq_true hsame

/-- No row of a table meets the condition. -/
theorem not_any_of_not {property : Row → Prop} [DecidablePred property]
    (hnot : ∀ row ∈ rows, ¬ property row) : ¬ rows.any (fun row ↦ property row) = true := by
  rw [List.any_eq_true]
  rintro ⟨row, hrow, hproperty⟩
  exact hnot row hrow (of_decide_eq_true hproperty)

/-- Assumes: a row is inserted unless one is there already that counts as the same, and the inserted row is
as wanted. One that counts as the same is as wanted afterwards exactly if there was none, or one that was.
-/
theorem exists_insertUnless_iff {same wanted : Row → Prop} {after : List Row}
    (hkept : (∃ old ∈ rows, same old) → after = rows)
    (hinserted : (∀ old ∈ rows, ¬ same old) → after = rows ++ [row]) (hsame : same row)
    (hwanted : wanted row) :
    (∃ new ∈ after, same new ∧ wanted new) ↔
      (∀ old ∈ rows, ¬ same old) ∨ ∃ old ∈ rows, same old ∧ wanted old := by
  by_cases hnone : ∀ old ∈ rows, ¬ same old
  · rw [hinserted hnone]
    exact iff_of_true ⟨row, List.mem_append_right _ (List.mem_singleton_self row), hsame, hwanted⟩ (.inl hnone)
  · rw [hkept (by simpa using hnone)]
    exact ⟨.inr, fun h ↦ h.resolve_left hnone⟩

/-- Assumes: the update does not change whether a row matches a search. The first match is found,
rewritten if the update covers it. -/
theorem find_updateWhere {search : Row → Bool} (hsearch : ∀ row, search (set row) = search row) :
    (updateWhere condition set rows).find? search =
      (rows.find? search).map fun row ↦ if condition row then set row else row := by
  induction rows with
  | nil => rfl
  | cons row rest ih =>
    have hhead : search (if condition row then set row else row) = search row := by
      split_ifs
      · exact hsearch row
      · rfl
    simp only [updateWhere, List.map_cons, List.find?_cons, hhead]
    cases search row with
    | true => rfl
    | false => exact ih

/-- Assumes: the update does not change whether a row is selected. Selecting and updating commute. -/
theorem filter_updateWhere {select : Row → Bool} (hselect : ∀ row, select (set row) = select row) :
    (updateWhere condition set rows).filter select =
      updateWhere condition set (rows.filter select) := by
  rw [updateWhere, updateWhere, List.filter_map]
  congr 1
  refine List.filter_congr fun row _ ↦ ?_
  rw [Function.comp_apply]
  split_ifs
  · exact hselect row
  · rfl

/-- Assumes: the rows have distinct keys, and the key of the new row is none of them. The rows with
the new one have distinct keys. -/
theorem nodup_map_append_singleton {key : Row → Key} (hnodup : (rows.map key).Nodup)
    (hfresh : key row ∉ rows.map key) : ((rows ++ [row]).map key).Nodup := by
  rw [List.map_append, List.map_singleton, ← List.concat_eq_append]
  exact hnodup.concat hfresh

/-- Assumes: the rows have distinct keys, and the rows that match a condition have one key. At most
one row matches. -/
theorem countP_le_one_of_key {key : Row → Key} (hnodup : (rows.map key).Nodup)
    (hsame : ∀ first ∈ rows, ∀ second ∈ rows, condition first = true → condition second = true →
      key first = key second) : rows.countP condition ≤ 1 := by
  induction rows with
  | nil => exact Nat.zero_le 1
  | cons row rest ih =>
    rw [List.map_cons, List.nodup_cons] at hnodup
    by_cases hrow : condition row = true
    · have hrest : rest.countP condition = 0 := by
        refine List.countP_eq_zero.mpr fun other hother hmatches ↦ hnodup.1 ?_
        rw [hsame row List.mem_cons_self other (List.mem_cons_of_mem row hother) hrow hmatches]
        exact List.mem_map_of_mem hother
      exact Nat.le_of_eq (by rw [List.countP_cons_of_pos hrow, hrest])
    · rw [List.countP_cons_of_neg hrow]
      exact ih hnodup.2 fun first hfirst second hsecond ↦
        hsame first (List.mem_cons_of_mem row hfirst) second (List.mem_cons_of_mem row hsecond)

/-- Assumes: the rows have distinct keys, and the rows that match a condition have one key. The rows that
match are the one that a search finds, if it finds one. -/
theorem filter_eq_find {key : Row → Key} (hnodup : (rows.map key).Nodup)
    (hsame : ∀ first ∈ rows, ∀ second ∈ rows, condition first = true → condition second = true →
      key first = key second) : rows.filter condition = (rows.find? condition).toList := by
  have hone := countP_le_one_of_key hnodup hsame
  rw [List.countP_eq_length_filter] at hone
  rw [← List.head?_filter]
  cases hmatching : rows.filter condition with
  | nil => rfl
  | cons only rest =>
    rw [hmatching, List.length_cons] at hone
    obtain rfl : rest = [] := List.length_eq_zero_iff.mp (by omega)
    rfl

/-- Assumes: the rows that the update makes meet a property met it before. No more rows meet it. -/
theorem countP_updateWhere_le {property : Row → Bool}
    (hbefore : ∀ row ∈ rows, condition row = true → property (set row) = true → property row = true) :
    (updateWhere condition set rows).countP property ≤ rows.countP property := by
  rw [updateWhere, List.countP_map]
  refine List.countP_mono_left fun row hrow hmeets ↦ ?_
  simp only [Function.comp_apply] at hmeets
  split_ifs at hmeets with hcondition
  · exact hbefore row hrow hcondition hmeets
  · exact hmeets

/-- Assumes: at most one row matches. At most one more row meets a property after the update. -/
theorem countP_updateWhere_le_succ {property : Row → Bool} (hone : rows.countP condition ≤ 1) :
    (updateWhere condition set rows).countP property ≤ rows.countP property + 1 := by
  have hsplit : (updateWhere condition set rows).countP property ≤
      rows.countP property + rows.countP condition := by
    clear hone
    induction rows with
    | nil => exact Nat.zero_le _
    | cons row rest ih =>
      rw [updateWhere] at ih ⊢
      simp only [List.map_cons, List.countP_cons]
      split_ifs <;> omega
  omega

/-- The rows that meet a property meet it after the update too, but for those that the update takes it
from. -/
theorem countP_le_updateWhere_add (condition : Row → Bool) (set : Row → Row) (property : Row → Bool)
    (rows : List Row) :
    rows.countP property ≤ (updateWhere condition set rows).countP property +
      rows.countP fun row ↦ condition row ∧ property row = true ∧ property (set row) = false := by
  induction rows with
  | nil => exact Nat.zero_le _
  | cons row rest ih =>
    rw [updateWhere] at ih ⊢
    simp only [List.map_cons, List.countP_cons]
    cases hproperty : property row <;> cases hset : property (set row) <;> split_ifs <;> simp_all <;> omega

theorem mem_deleteWhere :
    row ∈ deleteWhere condition rows ↔ row ∈ rows ∧ condition row = false := by
  simp [deleteWhere]

/-- Assumes: no selected row is deleted. The selected rows are those of before. -/
theorem filter_deleteWhere {select : Row → Bool}
    (hkept : ∀ row ∈ rows, select row = true → condition row = false) :
    (deleteWhere condition rows).filter select = rows.filter select := by
  rw [deleteWhere, List.filter_filter]
  refine List.filter_congr fun row hrow ↦ ?_
  cases hselect : select row with
  | false => rfl
  | true => rw [hkept row hrow hselect, Bool.not_false, Bool.true_and]

/-- Assumes: no row that a search matches is deleted. The search finds what it found before. -/
theorem find_deleteWhere {search : Row → Bool}
    (hkept : ∀ row ∈ rows, search row = true → condition row = false) :
    (deleteWhere condition rows).find? search = rows.find? search := by
  induction rows with
  | nil => rfl
  | cons row rest ih =>
    have hrest := ih fun other hother ↦ hkept other (List.mem_cons_of_mem row hother)
    rw [deleteWhere] at hrest ⊢
    by_cases hsearch : search row = true
    · have hstays := hkept row List.mem_cons_self hsearch
      simp [hstays, hsearch]
    · by_cases hcondition : condition row = true
      · simpa [hcondition, hsearch] using hrest
      · simpa [hcondition, hsearch] using hrest

end RallyApi.Store

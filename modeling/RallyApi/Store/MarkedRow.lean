import Mathlib.Data.List.Basic

/-!
# The marked row of a group

One row of a group of rows is marked. A query for it returns any marked row (`MayReturn`); a reader of the
whole group takes the first marked row of the list, or the first row where none is marked
(`preferMarked`). The two agree where one row is marked or the group is empty (`OneMarked`), and nowhere
else.
-/

set_option autoImplicit false
set_option relaxedAutoImplicit false

namespace RallyApi.Store

variable {Row : Type} {mark keep : Row → Bool} {rows listed : List Row}

/-- One row of the group is marked, if it has any. -/
def OneMarked (mark : Row → Bool) (rows : List Row) : Prop := rows = [] ∨ rows.countP mark = 1

/-- What `SELECT … WHERE mark LIMIT 1` may return: any marked row, or none if there is none. -/
inductive MayReturn (mark : Row → Bool) (rows : List Row) : Option Row → Prop
  | found (row : Row) (hrow : row ∈ rows) (hmark : mark row = true) : MayReturn mark rows (some row)
  | missing (hnone : ∀ row ∈ rows, mark row = false) : MayReturn mark rows none

/-- The first marked row of a list, or its first row. -/
def preferMarked (mark : Row → Bool) (listed : List Row) : Option Row := (listed.find? mark).or listed.head?

theorem mayReturn_find? (mark : Row → Bool) (rows : List Row) : MayReturn mark rows (rows.find? mark) := by
  cases hfound : rows.find? mark with
  | none => exact .missing fun row hrow ↦ Bool.eq_false_iff.mpr (List.find?_eq_none.mp hfound row hrow)
  | some row => exact .found row (List.mem_of_find?_eq_some hfound) (List.find?_some hfound)

theorem countP_eq_zero_iff : rows.countP mark = 0 ↔ ∀ row ∈ rows, mark row = false := by
  simp only [List.countP_eq_zero, Bool.not_eq_true]

/-- The marked row is the only one. -/
theorem eq_of_countP_eq_one {first second : Row} (hone : rows.countP mark = 1) (hfirst : first ∈ rows)
    (hfirstMark : mark first = true) (hsecond : second ∈ rows) (hsecondMark : mark second = true) :
    first = second := by
  rw [List.countP_eq_length_filter] at hone
  obtain ⟨marked, hmarked⟩ := List.length_eq_one_iff.mp hone
  have hmem : ∀ row ∈ rows, mark row = true → row = marked := fun row hrow hmark ↦
    List.mem_singleton.mp (hmarked ▸ List.mem_filter.mpr ⟨hrow, hmark⟩)
  exact (hmem first hfirst hfirstMark).trans (hmem second hsecond hsecondMark).symm

theorem OneMarked.countP_le (hone : OneMarked mark rows) : rows.countP mark ≤ 1 := by
  rcases hone with rfl | hone
  · exact Nat.zero_le 1
  · exact Nat.le_of_eq hone

/-! ### Changes of the group -/

/-- A row that comes to the group has to be marked exactly if no row has been. -/
theorem OneMarked.append_singleton_iff {row : Row} (hone : OneMarked mark rows) :
    OneMarked mark (rows ++ [row]) ↔ (mark row = true ↔ ∀ other ∈ rows, mark other = false) := by
  rcases hone with rfl | hone
  · simp [OneMarked]
  · have hmarked : ¬ ∀ other ∈ rows, mark other = false := by
      rw [← countP_eq_zero_iff, hone]
      exact Nat.one_ne_zero
    simp [OneMarked, List.countP_append, hone, hmarked, List.countP_singleton]

/-- The rows of the group that are kept have to be all but the marked one, or none. -/
theorem OneMarked.filter_iff (hone : OneMarked mark rows) :
    OneMarked mark (rows.filter keep) ↔
      ∀ row ∈ rows, mark row = true → keep row = false → ∀ other ∈ rows, keep other = false := by
  rcases hone with rfl | hone
  · simp [OneMarked]
  obtain ⟨marked, hmem, hmark⟩ := List.countP_pos_iff.mp (hone ▸ Nat.one_pos)
  have hunique : ∀ row ∈ rows, mark row = true → row = marked := fun row hrow hrowMark ↦
    eq_of_countP_eq_one hone hrow hrowMark hmem hmark
  cases hkept : keep marked with
  | true =>
    have hstays : (rows.filter keep).countP mark = 1 := by
      refine Nat.le_antisymm (hone ▸ List.filter_sublist.countP_le) ?_
      exact List.countP_pos_iff.mpr ⟨marked, List.mem_filter.mpr ⟨hmem, hkept⟩, hmark⟩
    refine ⟨fun _ row hrow hrowMark hdropped ↦ ?_, fun _ ↦ .inr hstays⟩
    rw [hunique row hrow hrowMark, hkept] at hdropped
    cases hdropped
  | false =>
    have hgone : (rows.filter keep).countP mark = 0 := by
      refine countP_eq_zero_iff.mpr fun row hrow ↦ Bool.eq_false_iff.mpr fun hrowMark ↦ ?_
      obtain ⟨hold, hrowKept⟩ := List.mem_filter.mp hrow
      rw [hunique row hold hrowMark, hkept] at hrowKept
      cases hrowKept
    rw [OneMarked, hgone, or_iff_left Nat.zero_ne_one, List.filter_eq_nil_iff]
    simp only [Bool.not_eq_true]
    exact ⟨fun hnone _ _ _ _ ↦ hnone, fun hall ↦ hall marked hmem hmark hkept⟩

/-! ### The two readers -/

/-- The readers agree on a group with one marked row. -/
theorem OneMarked.preferMarked_eq {found : Option Row} (hone : OneMarked mark rows)
    (hlisted : listed.Perm rows) (hfound : MayReturn mark rows found) : preferMarked mark listed = found := by
  rcases hone with rfl | hone
  · obtain rfl := hlisted.eq_nil
    cases hfound with
    | found row hrow hmark => cases hrow
    | missing hnone => rfl
  cases hfound with
  | found row hrow hmark =>
    obtain ⟨first, hfirst⟩ := Option.isSome_iff_exists.mp
      (List.find?_isSome.mpr ⟨row, hlisted.mem_iff.mpr hrow, hmark⟩)
    rw [preferMarked, hfirst, Option.some_or]
    exact congrArg some (eq_of_countP_eq_one hone (hlisted.mem_iff.mp (List.mem_of_find?_eq_some hfirst))
      (List.find?_some hfirst) hrow hmark)
  | missing hnone =>
    rw [countP_eq_zero_iff.mpr hnone] at hone
    cases hone

/-- Assumes: at most one row is marked, and where the query finds none the reader has nothing to take. One
row is marked, if there is any. -/
theorem oneMarked_of_preferMarked (hle : rows.countP mark ≤ 1) (hlisted : listed.Perm rows)
    (hmissing : MayReturn mark rows none → preferMarked mark listed = none) : OneMarked mark rows := by
  rcases Nat.le_one_iff_eq_zero_or_eq_one.mp hle with hzero | hone
  · refine .inl ?_
    have hpreferred := hmissing (.missing (countP_eq_zero_iff.mp hzero))
    obtain rfl := List.head?_eq_none_iff.mp (Option.or_eq_none_iff.mp hpreferred).2
    exact hlisted.nil_eq.symm
  · exact .inr hone

end RallyApi.Store

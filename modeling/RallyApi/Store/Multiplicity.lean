import Mathlib.Data.List.Basic
import Mathlib.Data.Nat.Notation

/-!
# How often a join lists a row

`LEFT JOIN` lists a row of the left table once for each match in the right one, and once if there is none.
A list in which every element stands for a row, some of them several times, is the list of the rows exactly
if each stands once (`perm_flatMap_iff`).
-/

set_option autoImplicit false
set_option relaxedAutoImplicit false

namespace RallyApi.Store

variable {Row Entry Key : Type} {rows : List Row} {entries : Row → List Entry}

/-- Assumes: every row is listed. There are at least as many entries as rows. -/
theorem length_le_flatMap (hlisted : ∀ row ∈ rows, 1 ≤ (entries row).length) :
    rows.length ≤ (rows.flatMap entries).length := by
  induction rows with
  | nil => exact Nat.zero_le _
  | cons row rest ih =>
    obtain ⟨hhead, hrest⟩ := List.forall_mem_cons.mp hlisted
    have hlong := ih hrest
    rw [List.flatMap_cons, List.length_append, List.length_cons]
    omega

/-- Assumes: every row is listed. There are as many entries as rows exactly if each is listed once. -/
theorem length_flatMap_eq_iff (hlisted : ∀ row ∈ rows, 1 ≤ (entries row).length) :
    (rows.flatMap entries).length = rows.length ↔ ∀ row ∈ rows, (entries row).length = 1 := by
  induction rows with
  | nil => simp
  | cons row rest ih =>
    obtain ⟨hhead, hrest⟩ := List.forall_mem_cons.mp hlisted
    have hlong := length_le_flatMap hrest
    rw [List.flatMap_cons, List.length_append, List.length_cons, List.forall_mem_cons, ← ih hrest]
    omega

/-- Assumes: every row is listed, under its key. The keys of the entries are those of the rows, up to order,
exactly if each row is listed once. -/
theorem perm_flatMap_iff {key : Row → Key} {keyOf : Entry → Key}
    (hlisted : ∀ row ∈ rows, 1 ≤ (entries row).length)
    (hkey : ∀ row ∈ rows, ∀ entry ∈ entries row, keyOf entry = key row) :
    ((rows.flatMap entries).map keyOf).Perm (rows.map key) ↔
      ∀ row ∈ rows, (entries row).length = 1 := by
  constructor
  · intro hperm
    refine (length_flatMap_eq_iff hlisted).mp ?_
    simpa only [List.length_map] using hperm.length_eq
  · intro hone
    have hsingle : ∀ row ∈ rows, (entries row).map keyOf = [key row] := by
      intro row hrow
      obtain ⟨entry, hentry⟩ := List.length_eq_one_iff.mp (hone row hrow)
      rw [hentry, List.map_singleton, hkey row hrow entry (hentry ▸ List.mem_singleton_self entry)]
    rw [List.map_flatMap, List.flatMap_congr hsingle]
    exact List.Perm.of_eq (List.flatMap_pure_eq_map key rows)

/-- Assumes: rows that fail a condition are not listed. The entries are those of the rows that meet it. -/
theorem flatMap_filter_of_nil {condition : Row → Bool}
    (hnil : ∀ row ∈ rows, condition row = false → entries row = []) :
    rows.flatMap entries = (rows.filter condition).flatMap entries := by
  induction rows with
  | nil => rfl
  | cons row rest ih =>
    obtain ⟨hhead, hrest⟩ := List.forall_mem_cons.mp hnil
    cases hcondition : condition row with
    | true => rw [List.filter_cons_of_pos hcondition, List.flatMap_cons, List.flatMap_cons, ih hrest]
    | false =>
      rw [List.filter_cons_of_neg (by simp [hcondition]), List.flatMap_cons, hhead hcondition, ih hrest,
        List.nil_append]

end RallyApi.Store

import RallyApi.Store.Table

/-!
# Tables whose rows last

Rows that are never removed, only rewritten in place: `Lasts` says of two tables that every row of the first
has become a row of the second, as `becomes` allows. Where that is reflexive and transitive, so is `Lasts`,
and inserts and updates keep to it.
-/

set_option autoImplicit false
set_option relaxedAutoImplicit false

namespace RallyApi.Store

variable {Row Key : Type} {becomes : Row → Row → Prop} {before middle after : List Row}

/-- Every row of the first table is in the second, as what it may become. -/
def Lasts (becomes : Row → Row → Prop) (before after : List Row) : Prop :=
  ∀ row ∈ before, ∃ later ∈ after, becomes row later

theorem lasts_refl (hrefl : ∀ row, becomes row row) (rows : List Row) : Lasts becomes rows rows :=
  fun row hrow ↦ ⟨row, hrow, hrefl row⟩

theorem Lasts.trans (htrans : ∀ first second third, becomes first second → becomes second third →
    becomes first third) (hfirst : Lasts becomes before middle) (hsecond : Lasts becomes middle after) :
    Lasts becomes before after := by
  intro row hrow
  obtain ⟨between, hbetween, hto⟩ := hfirst row hrow
  obtain ⟨later, hlater, hfrom⟩ := hsecond between hbetween
  exact ⟨later, hlater, htrans row between later hto hfrom⟩

/-- Rows are inserted. -/
theorem lasts_append (hrefl : ∀ row, becomes row row) (new : List Row) :
    Lasts becomes before (before ++ new) :=
  fun row hrow ↦ ⟨row, List.mem_append_left _ hrow, hrefl row⟩

/-- Assumes: a row that the update covers may become what it is set to. -/
theorem lasts_updateWhere (hrefl : ∀ row, becomes row row) {condition : Row → Bool} {set : Row → Row}
    (hset : ∀ row ∈ before, condition row = true → becomes row (set row)) :
    Lasts becomes before (updateWhere condition set before) := by
  intro row hrow
  by_cases hcondition : condition row = true
  · exact ⟨set row, set_mem_updateWhere hrow hcondition, hset row hrow hcondition⟩
  · exact ⟨row, mem_updateWhere_of_not hrow (Bool.eq_false_iff.mpr hcondition), hrefl row⟩

end RallyApi.Store

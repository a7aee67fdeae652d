import RallyApi.Store.Table

/-!
# Tables with owners

Every row of a table has an owner. A statement that changes no owner leaves the rows of an owner alone
unless it matches one of them.
-/

set_option autoImplicit false
set_option relaxedAutoImplicit false

namespace RallyApi.Store

variable {Row Key : Type} {owner : Row → Key} {key : Key} {condition narrower : Row → Bool}
  {set : Row → Row} {rows : List Row} {row : Row}

/-- The owners of the rows that match a condition. -/
def owners (owner : Row → Key) (condition : Row → Bool) (rows : List Row) : List Key :=
  (rows.filter condition).map owner

theorem mem_owners : key ∈ owners owner condition rows ↔
    ∃ row ∈ rows, condition row = true ∧ owner row = key := by
  simp [owners, and_assoc]

/-- A narrower condition is met by rows of the same owners. -/
theorem notMem_owners_of_imp (hnarrower : ∀ row, narrower row = true → condition row = true)
    (hkey : key ∉ owners owner condition rows) : key ∉ owners owner narrower rows := by
  rw [mem_owners] at hkey ⊢
  rintro ⟨row, hrow, hmatches, howner⟩
  exact hkey ⟨row, hrow, hnarrower row hmatches, howner⟩

section Owned

variable [DecidableEq Key]

/-- The rows of an owner. -/
def ownedBy (owner : Row → Key) (key : Key) (rows : List Row) : List Row :=
  rows.filter fun row ↦ owner row = key

/-- Assumes: no row of the owner matches. -/
theorem ownedBy_updateWhere (hset : ∀ row, owner (set row) = owner row)
    (hkey : key ∉ owners owner condition rows) :
    ownedBy owner key (updateWhere condition set rows) = ownedBy owner key rows := by
  rw [ownedBy, filter_updateWhere fun row ↦ by rw [hset row]]
  refine updateWhere_of_none fun row hrow ↦ Bool.eq_false_iff.mpr fun hmatches ↦ hkey ?_
  obtain ⟨hmem, howner⟩ := List.mem_filter.mp hrow
  exact mem_owners.mpr ⟨row, hmem, hmatches, of_decide_eq_true howner⟩

/-- Assumes: no row of the owner matches. -/
theorem ownedBy_deleteWhere (hkey : key ∉ owners owner condition rows) :
    ownedBy owner key (deleteWhere condition rows) = ownedBy owner key rows :=
  filter_deleteWhere fun row hrow howner ↦ Bool.eq_false_iff.mpr fun hmatches ↦
    hkey (mem_owners.mpr ⟨row, hrow, hmatches, of_decide_eq_true howner⟩)

/-- Assumes: no new row is of the owner. -/
theorem ownedBy_append {new : List Row} (hnew : ∀ row ∈ new, owner row ≠ key) :
    ownedBy owner key (rows ++ new) = ownedBy owner key rows := by
  have hnone : new.filter (fun row ↦ decide (owner row = key)) = [] :=
    List.filter_eq_nil_iff.mpr fun row hrow ↦ by simpa using hnew row hrow
  rw [ownedBy, List.filter_append, hnone, List.append_nil, ownedBy]

theorem ownedBy_append_singleton (hkey : owner row ≠ key) :
    ownedBy owner key (rows ++ [row]) = ownedBy owner key rows :=
  ownedBy_append fun _ hnew ↦ List.mem_singleton.mp hnew ▸ hkey

/-! ### Statements of some owners -/

variable {Ident : Type} {identity : Row → Ident} {mine : List Key} {fresh : Ident → Prop}
  {left : List Row}

/-- A statement of some owners: the rows it leaves are, by their identities, rows of before or fresh ones,
and the rows of all other owners are as they were. -/
structure WrittenBy (owner : Row → Key) (identity : Row → Ident) (mine : List Key) (fresh : Ident → Prop)
    (rows left : List Row) : Prop where
  origin : ∀ row ∈ left, (∃ old ∈ rows, identity old = identity row) ∨ fresh (identity row)
  others : ∀ key ∉ mine, ownedBy owner key left = ownedBy owner key rows

theorem writtenBy_refl : WrittenBy owner identity mine fresh rows rows :=
  ⟨fun row hrow ↦ .inl ⟨row, hrow, rfl⟩, fun _ _ ↦ rfl⟩

/-- Assumes: the rows that match are of these owners. -/
theorem writtenBy_updateWhere (howner : ∀ row, owner (set row) = owner row)
    (hidentity : ∀ row, identity (set row) = identity row)
    (hmine : ∀ row ∈ rows, condition row = true → owner row ∈ mine) :
    WrittenBy owner identity mine fresh rows (updateWhere condition set rows) where
  origin row hrow := by
    obtain ⟨old, hold, rfl⟩ := mem_updateWhere.mp hrow
    refine .inl ⟨old, hold, ?_⟩
    split_ifs
    · exact (hidentity old).symm
    · rfl
  others key hkey := by
    refine ownedBy_updateWhere howner fun hmatched ↦ ?_
    obtain ⟨row, hrow, hmatches, rfl⟩ := mem_owners.mp hmatched
    exact hkey (hmine row hrow hmatches)

/-- Assumes: the rows that match are of these owners. -/
theorem writtenBy_deleteWhere (hmine : ∀ row ∈ rows, condition row = true → owner row ∈ mine) :
    WrittenBy owner identity mine fresh rows (deleteWhere condition rows) where
  origin row hrow := .inl ⟨row, (mem_deleteWhere.mp hrow).1, rfl⟩
  others key hkey := by
    refine ownedBy_deleteWhere fun hmatched ↦ ?_
    obtain ⟨row, hrow, hmatches, rfl⟩ := mem_owners.mp hmatched
    exact hkey (hmine row hrow hmatches)

/-- Assumes: the new rows are of these owners, and fresh. -/
theorem writtenBy_append {new : List Row} (hmine : ∀ row ∈ new, owner row ∈ mine)
    (hfresh : ∀ row ∈ new, fresh (identity row)) :
    WrittenBy owner identity mine fresh rows (rows ++ new) where
  origin row hrow := by
    rcases List.mem_append.mp hrow with hold | hnew
    · exact .inl ⟨row, hold, rfl⟩
    · exact .inr (hfresh row hnew)
  others _ hkey := ownedBy_append fun row hnew howner ↦ hkey (howner ▸ hmine row hnew)

end Owned

end RallyApi.Store

import Mathlib.Data.Int.Notation
import Mathlib.Data.Nat.Notation

/-!
# Scalars

The column types the schemas share, what a column makes of a text, and how timestamps and dates are
converted to each other.
-/

set_option autoImplicit false
set_option relaxedAutoImplicit false

namespace RallyApi.Platform

/-- A UUID, as the 128-bit number it is. -/
abbrev Uuid := ℕ

/-- A UUID as a request writes it. `z.string().uuid()` takes its letters in either case, where a column
gives them back small: bit `i` of `capitals` says that digit `i`, the last being `0`, is a capital. -/
structure UuidText where
  value : Uuid
  capitals : ℕ
  letters : ∀ digit, capitals.testBit digit = true → 10 ≤ (value >>> (4 * digit)) % 16
  deriving DecidableEq, Repr

/-- The text of a column. -/
def UuidText.canonical (id : Uuid) : UuidText where
  value := id
  capitals := 0
  letters := by simp

instance : Coe Uuid UuidText := ⟨UuidText.canonical⟩

instance (id : ℕ) : OfNat UuidText id := ⟨UuidText.canonical id⟩

@[simp]
theorem UuidText.value_canonical (id : Uuid) : (canonical id).value = id := rfl

/-- A column `varchar(limit)` takes a text when what stands beyond the limit is spaces. -/
def FitsVarchar (limit : ℕ) (text : String) : Prop :=
  ∀ character ∈ text.toList.drop limit, character = ' '

instance (limit : ℕ) (text : String) : Decidable (FitsVarchar limit text) :=
  List.decidableBAll (· = ' ') (text.toList.drop limit)

/-- What the column keeps of a text it takes. -/
def varchar (limit : ℕ) (text : String) : String :=
  String.ofList (text.toList.take limit)

theorem varchar_eq_self {limit : ℕ} {text : String} (hshort : text.length ≤ limit) :
    varchar limit text = text := by
  rw [varchar, List.take_of_length_le (String.length_toList ▸ hshort), String.ofList_toList]

/-- Assumes: a text without spaces that the column takes. It is kept whole. -/
theorem FitsVarchar.length_le {limit : ℕ} {text : String} (hfits : FitsVarchar limit text)
    (hspaces : ' ' ∉ text.toList) : text.length ≤ limit := by
  refine Nat.le_of_not_lt fun hlong ↦ ?_
  have hbeyond : limit < text.toList.length := String.length_toList.symm ▸ hlong
  have hmem : text.toList[limit] ∈ text.toList.drop limit := by
    rw [List.drop_eq_getElem_cons hbeyond]
    exact List.mem_cons_self
  exact hspaces (hfits _ hmem ▸ List.mem_of_mem_drop hmem)

/-- A JavaScript date: milliseconds since the epoch. -/
abbrev Date := ℤ

/-- A `timestamptz`: microseconds since the epoch. -/
abbrev Timestamp := ℤ

/-- The `Date` read from a timestamp column: it drops the digits after the milliseconds. -/
def dateOfTimestamp (timestamp : Timestamp) : Date := timestamp / 1000

/-- The timestamp a `Date` is bound as. -/
def timestampOfDate (date : Date) : Timestamp := date * 1000

/-- A timestamp without the digits that a `Date` drops. -/
def floorToMilliseconds (timestamp : Timestamp) : Timestamp :=
  timestampOfDate (dateOfTimestamp timestamp)

theorem floorToMilliseconds_le (timestamp : Timestamp) : floorToMilliseconds timestamp ≤ timestamp :=
  Int.ediv_mul_le timestamp (by decide)

end RallyApi.Platform

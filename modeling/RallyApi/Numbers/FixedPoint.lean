import Mathlib.Data.List.TakeWhile
import Mathlib.Data.Rat.Floor

/-!
# Decimal numerals

`toFixed` writes a number with a fixed number of decimals, rounded to the nearest one, and up when two are
equally near. `numeral` reads a numeral: digits, and after a point digits. Reading what has been written
gives the rounded number (`numeral_fixedPoint`).
-/

set_option autoImplicit false
set_option relaxedAutoImplicit false

namespace RallyApi.Numbers

/-! ### Rounding -/

/-- The nearest natural number, the larger one of two. -/
def nearest (value : ℚ) : ℕ := ⌊value + 1 / 2⌋₊

theorem le_nearest_iff {value : ℚ} {bound : ℕ} (hbound : bound ≠ 0) :
    bound ≤ nearest value ↔ (bound : ℚ) - 1 / 2 ≤ value := by
  rw [nearest, Nat.le_floor_iff' hbound]
  exact sub_le_iff_le_add.symm

theorem nearest_le {value : ℚ} {bound : ℕ} (hvalue : value ≤ bound) : nearest value ≤ bound := by
  by_contra hless
  have hmore := (le_nearest_iff (Nat.succ_ne_zero bound)).mp (Nat.not_le.mp hless)
  push_cast at hmore
  linarith

@[simp]
theorem nearest_natCast (number : ℕ) : nearest number = number := by
  refine le_antisymm (nearest_le le_rfl) ?_
  by_cases hzero : number = 0
  · exact hzero ▸ Nat.zero_le _
  · exact (le_nearest_iff hzero).mpr (by linarith)

/-! ### Writing and reading -/

/-- The digits of a number, with zeros before them up to a width. -/
def padded (width number : ℕ) : List Char :=
  List.replicate (width - (Nat.toDigits 10 number).length) '0' ++ Nat.toDigits 10 number

/-- A number of units of the last decimal, with at least one digit before the point. -/
def fixedPoint (decimals units : ℕ) : List Char :=
  let digits := padded (decimals + 1) units
  if decimals = 0 then digits
  else digits.take (digits.length - decimals) ++ '.' :: digits.drop (digits.length - decimals)

/-- `value.toFixed(decimals)`, of a number that is not negative and less than 10 ^ 21. -/
def toFixed (decimals : ℕ) (value : ℚ) : String :=
  String.ofList (fixedPoint decimals (nearest (value * 10 ^ decimals)))

/-- The number that a numeral without sign and exponent denotes. -/
def numeral (text : List Char) : Option ℚ :=
  let whole := text.takeWhile Char.isDigit
  match text.dropWhile Char.isDigit with
  | [] => if whole = [] then none else some ((Nat.ofDigitChars 10 whole 0 : ℕ) : ℚ)
  | '.' :: fraction =>
    if whole ≠ [] ∧ fraction ≠ [] ∧ fraction.all Char.isDigit then
      some (((Nat.ofDigitChars 10 (whole ++ fraction) 0 : ℕ) : ℚ) / 10 ^ fraction.length)
    else none
  | _ => none

/-! ### Reading what is written -/

variable {whole fraction : List Char}

theorem numeral_whole (hnonempty : whole ≠ []) (hdigits : ∀ char ∈ whole, char.isDigit = true) :
    numeral whole = some ((Nat.ofDigitChars 10 whole 0 : ℕ) : ℚ) := by
  have htake : whole.takeWhile Char.isDigit = whole := List.takeWhile_eq_self_iff.mpr hdigits
  have hdrop : whole.dropWhile Char.isDigit = [] := List.dropWhile_eq_nil_iff.mpr hdigits
  rw [numeral, htake, hdrop]
  exact if_neg hnonempty

theorem numeral_point (hwhole : whole ≠ []) (hfraction : fraction ≠ [])
    (hdigits : ∀ char ∈ whole, char.isDigit = true)
    (hmore : ∀ char ∈ fraction, char.isDigit = true) :
    numeral (whole ++ '.' :: fraction) =
      some (((Nat.ofDigitChars 10 (whole ++ fraction) 0 : ℕ) : ℚ) / 10 ^ fraction.length) := by
  have htake : (whole ++ '.' :: fraction).takeWhile Char.isDigit = whole := by
    rw [List.takeWhile_append_of_pos hdigits]
    simp
  have hdrop : (whole ++ '.' :: fraction).dropWhile Char.isDigit = '.' :: fraction := by
    rw [List.dropWhile_append_of_pos hdigits]
    simp
  rw [numeral, htake, hdrop]
  exact if_pos ⟨hwhole, hfraction, List.all_eq_true.mpr hmore⟩

theorem isDigit_of_mem_padded {width number : ℕ} {char : Char} (hchar : char ∈ padded width number) :
    char.isDigit = true := by
  rcases List.mem_append.mp hchar with hzero | hdigit
  · rw [List.eq_of_mem_replicate hzero]
    rfl
  · exact Nat.isDigit_of_mem_toDigits (by decide) (by decide) hdigit

theorem le_length_padded (width number : ℕ) : width ≤ (padded width number).length := by
  rw [padded, List.length_append, List.length_replicate]
  omega

@[simp]
theorem ofDigitChars_padded (width number : ℕ) : Nat.ofDigitChars 10 (padded width number) 0 = number := by
  rw [padded, Nat.ofDigitChars_append, Nat.ofDigitChars_replicate_zero, Nat.mul_zero,
    Nat.ofDigitChars_ten_toDigits]

/-- Reading what has been written. -/
theorem numeral_fixedPoint (decimals units : ℕ) :
    numeral (fixedPoint decimals units) = some ((units : ℚ) / 10 ^ decimals) := by
  have hlength := le_length_padded (decimals + 1) units
  have hdigits : ∀ char ∈ padded (decimals + 1) units, char.isDigit = true :=
    fun _ ↦ isDigit_of_mem_padded
  have hread := ofDigitChars_padded (decimals + 1) units
  rw [fixedPoint]
  generalize padded (decimals + 1) units = digits at hlength hdigits hread
  split_ifs with hdecimals
  · have hnonempty : digits ≠ [] := List.ne_nil_of_length_pos (by omega)
    rw [numeral_whole hnonempty hdigits, hread, hdecimals, pow_zero, div_one]
  · have hwhole : digits.take (digits.length - decimals) ≠ [] :=
      List.ne_nil_of_length_pos (by rw [List.length_take]; omega)
    have hfraction : digits.drop (digits.length - decimals) ≠ [] :=
      List.ne_nil_of_length_pos (by rw [List.length_drop]; omega)
    rw [numeral_point hwhole hfraction (fun char hchar ↦ hdigits char (List.mem_of_mem_take hchar))
      fun char hchar ↦ hdigits char (List.mem_of_mem_drop hchar), List.take_append_drop, hread,
      List.length_drop, Nat.sub_sub_self (by omega)]

/-- The number that `toFixed` writes. -/
theorem numeral_toFixed (decimals : ℕ) (value : ℚ) : numeral (toFixed decimals value).toList =
    some ((nearest (value * 10 ^ decimals) : ℚ) / 10 ^ decimals) := by
  rw [toFixed, String.toList_ofList, numeral_fixedPoint]

example : toFixed 2 (1 / 200) = "0.01" := by decide +kernel

end RallyApi.Numbers

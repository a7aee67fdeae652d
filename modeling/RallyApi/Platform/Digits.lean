import Mathlib.Data.List.Basic
import Mathlib.Data.List.TakeWhile

/-!
# Numbers in texts

A number is written with decimal digits and a sign, and determined by its text. So is the text before a
separator that occurs in no number, when a number follows it.
-/

set_option autoImplicit false
set_option relaxedAutoImplicit false

namespace RallyApi.Platform

theorem toDigits_injective {first second : ℕ}
    (hsame : Nat.toDigits 10 first = Nat.toDigits 10 second) : first = second := by
  have hread := congrArg (Nat.ofDigitChars 10 · 0) hsame
  simpa only [Nat.ofDigitChars_toDigits (b := 10) (by decide) (by decide)] using hread

theorem notMem_toDigits {char : Char} (hchar : char.isDigit = false) (number : ℕ) :
    char ∉ Nat.toDigits 10 number := fun hmem ↦ by
  have hdigit := Nat.isDigit_of_mem_toDigits (by decide) (by decide) hmem
  rw [hchar] at hdigit
  cases hdigit

theorem space_notMem_toDigits_hex (number : ℕ) : ' ' ∉ Nat.toDigits 16 number := by
  have hdigit : ∀ digit < 16, ' ' ≠ digit.digitChar := by decide
  induction number using Nat.strong_induction_on with
  | h number ih =>
    rw [Nat.toDigits_eq_if (by decide)]
    split_ifs with hsmall
    · exact fun hspace ↦ hdigit number hsmall (List.mem_singleton.mp hspace)
    · rw [List.mem_append, List.mem_singleton, not_or]
      exact ⟨ih _ (Nat.div_lt_self (by omega) (by decide)), hdigit _ (Nat.mod_lt _ (by decide))⟩

/-- The characters of an integer: its digits, after a sign if it is negative. -/
theorem toList_toString_int (number : ℤ) : (toString number).toList =
    if 0 ≤ number then Nat.toDigits 10 number.natAbs else '-' :: Nat.toDigits 10 number.natAbs := by
  cases number with
  | ofNat number => simp [Int.toString_eq_repr, Int.repr]
  | negSucc number => simp [Int.toString_eq_repr, Int.repr]

theorem toString_int_injective {first second : ℤ} (hsame : toString first = toString second) :
    first = second := by
  have hchars := congrArg String.toList hsame
  rw [toList_toString_int, toList_toString_int] at hchars
  split_ifs at hchars with hfirst hsecond hsecond
  · have habs := toDigits_injective hchars
    omega
  · exact absurd (hchars ▸ List.mem_cons_self) (notMem_toDigits (by decide) first.natAbs)
  · exact absurd (hchars ▸ List.mem_cons_self) (notMem_toDigits (by decide) second.natAbs)
  · have habs := toDigits_injective (List.cons.inj hchars).2
    omega

theorem colon_notMem_toString_int (number : ℤ) : ':' ∉ (toString number).toList := by
  rw [toList_toString_int]
  split_ifs
  · exact notMem_toDigits (by decide) _
  · rw [List.mem_cons]
    rintro (hsign | hdigit)
    · cases hsign
    · exact notMem_toDigits (by decide) _ hdigit

/-- Assumes: a separator does not occur after its last occurrence. What stands before and after it is
determined. -/
theorem append_cons_inj_of_notMem_right {α : Type} {separator : α} {first second front back : List α}
    (hfront : separator ∉ front) (hback : separator ∉ back)
    (hsame : first ++ separator :: front = second ++ separator :: back) :
    first = second ∧ front = back := by
  classical
  have hcut : ∀ text rest : List α, separator ∉ rest →
      (text ++ separator :: rest).reverse.takeWhile (· ≠ separator) = rest.reverse := by
    intro text rest hrest
    rw [List.reverse_append, List.reverse_cons, List.append_assoc,
      List.takeWhile_append_of_pos (fun char hchar ↦ ?_)]
    · simp
    · rw [decide_eq_true_eq]
      rintro rfl
      exact hrest (List.mem_reverse.mp hchar)
  have hrest := congrArg (fun text ↦ text.reverse.takeWhile (· ≠ separator)) hsame
  simp only [hcut _ _ hfront, hcut _ _ hback] at hrest
  obtain rfl := List.reverse_injective hrest
  exact ⟨List.append_cancel_right hsame, rfl⟩

/-- Assumes: a separator does not occur before its first occurrence. What stands before and after it is
determined. -/
theorem append_cons_inj_of_notMem_left {α : Type} {separator : α} {first second front back : List α}
    (hfirst : separator ∉ first) (hsecond : separator ∉ second)
    (hsame : first ++ separator :: front = second ++ separator :: back) :
    first = second ∧ front = back := by
  have hreversed : front.reverse ++ separator :: first.reverse =
      back.reverse ++ separator :: second.reverse := by
    simpa using congrArg List.reverse hsame
  obtain ⟨hrest, htext⟩ := append_cons_inj_of_notMem_right (List.mem_reverse.not.mpr hfirst)
    (List.mem_reverse.not.mpr hsecond) hreversed
  exact ⟨List.reverse_injective htext, List.reverse_injective hrest⟩

end RallyApi.Platform

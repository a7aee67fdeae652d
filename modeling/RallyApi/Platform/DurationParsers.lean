import Mathlib.Data.List.TakeWhile
import RallyApi.Platform.Duration

/-!
# The two parsers of durations

`JWT_ACCESS_EXPIRY` is read by `parseDurationToSeconds`, which trims the string, lets whitespace stand
before the unit and takes a number without a unit for seconds. `JWT_REFRESH_EXPIRY` is read by the parser
inside `refreshTtlSeconds`, which does none of this and falls back to thirty days on what it does not
match.

A day is multiplied in three steps by the first parser and in one by the second, and an hour in two, with a
rounding to a double after each: up to 2 ^ 53 / 45 days and 2 ^ 53 / 15 hours only the last rounds.

`parsers_agree`: a string that the first parser accepts is read alike by the second when it contains no
whitespace, does not end in a digit and keeps these bounds, and only when the first two hold.
-/

set_option autoImplicit false
set_option relaxedAutoImplicit false

namespace RallyApi.Platform

open Numbers

variable {duration : String} {seconds : ℕ} {chars digits : List Char}

/-! ### The property and the condition -/

/-- The groups of `/^(\d+)([smhd])$/` in `refreshTtlSeconds`: the digits, and the multiplier of the unit. -/
def matchExpiry (expiry : String) : Option (List Char × ℕ) :=
  match expiry.toList.takeWhile Char.isDigit, expiry.toList.dropWhile Char.isDigit with
  | digit :: digits, [unit] => (multipliers unit).map fun multiplier ↦ (digit :: digits, multiplier)
  | _, _ => none

/-- `refreshTtlSeconds` multiplies the groups, and falls back where there is no match. -/
theorem refreshTtlSeconds_eq (expiry : String) : refreshTtlSeconds expiry =
    ((matchExpiry expiry).map fun groups ↦
      timesDouble (toDouble (parseDigits groups.1)) groups.2).getD (30 * 24 * 3600) := by
  unfold refreshTtlSeconds matchExpiry
  dsimp only
  generalize expiry.toList.takeWhile Char.isDigit = digits
  generalize expiry.toList.dropWhile Char.isDigit = rest
  cases digits with
  | nil => rfl
  | cons digit digits =>
    cases rest with
    | nil => rfl
    | cons unit rest =>
      cases rest with
      | nil =>
        dsimp only
        cases multipliers unit <;> rfl
      | cons next rest => rfl

/-- `refreshTtlSeconds` reads the string as that many seconds, and does not fall back. -/
def ReadsAs (expiry : String) (seconds : ℕ) : Prop :=
  (matchExpiry expiry).isSome = true ∧ refreshTtlSeconds expiry = seconds

/-- The condition: no whitespace anywhere, and no digit at the end. -/
def Compact (duration : String) : Prop :=
  (∀ char ∈ duration.toList, isWhitespace char = false) ∧
    ∀ char ∈ duration.toList.getLast?, char.isDigit = false

/-- The bound on the number: all products of the first parser but the last are doubles. -/
def Bounded (duration : String) : Prop :=
  (duration.toList.getLast? = some 'd' →
      parseDigits (duration.toList.takeWhile Char.isDigit) ≤ 2 ^ 53 / 45) ∧
    (duration.toList.getLast? = some 'h' →
      parseDigits (duration.toList.takeWhile Char.isDigit) ≤ 2 ^ 53 / 15)

/-- The factors by which `parseDurationToSeconds` multiplies, in order. -/
def factors : Char → Option (List ℕ)
  | 's' => some []
  | 'm' => some [60]
  | 'h' => some [60, 60]
  | 'd' => some [24, 60, 60]
  | _ => none

/-! ### Characters -/

theorem isWhitespace_of_isDigit {char : Char} (hdigit : char.isDigit = true) :
    isWhitespace char = false := by
  by_contra hspace
  simp only [isWhitespace, Bool.not_eq_false, Bool.or_eq_true, Bool.and_eq_true,
    decide_eq_true_eq] at hspace
  obtain hlisted | ⟨hfirst, -⟩ := hspace
  · have hnone : (['\t', '\n', '\x0b', '\x0c', '\r', ' ', '\u00a0', '\u1680', '\u2028', '\u2029',
        '\u202f', '\u205f', '\u3000', '\ufeff'].all fun char ↦ !char.isDigit) = true := rfl
    have hother := List.all_eq_true.mp hnone char hlisted
    rw [hdigit] at hother
    cases hother
  · delta Char.isDigit at hdigit
    simp only [Bool.and_eq_true, decide_eq_true_eq, ge_iff_le, UInt32.le_iff_toNat_le] at hdigit
    have hlast : char.toNat ≤ 57 := hdigit.2
    omega

/-- A unit is a letter. -/
theorem of_multipliers {unit : Char} {multiplier : ℕ} (hunit : multipliers unit = some multiplier) :
    isWhitespace unit = false ∧ unit.isDigit = false := by
  unfold multipliers at hunit
  split at hunit
  · exact ⟨rfl, rfl⟩
  · exact ⟨rfl, rfl⟩
  · exact ⟨rfl, rfl⟩
  · exact ⟨rfl, rfl⟩
  · cases hunit

/-! ### Products -/

section Products

variable {number odd exponent factor value left right : ℕ}

/-- Assumes: the first product is a double. Rounding after it changes nothing. -/
theorem timesDouble_timesDouble (hfits : Fits (value * left)) :
    timesDouble (timesDouble value left) right = timesDouble value (left * right) := by
  rw [timesDouble, timesDouble, timesDouble, toDouble_of_fits hfits, Nat.mul_assoc]

theorem toDouble_of_le (hbound : number ≤ 2 ^ 53) : toDouble number = number := by
  have hfits := fits_mul_two_pow hbound (Nat.zero_le 971)
  rw [Nat.pow_zero, Nat.mul_one] at hfits
  exact toDouble_of_fits hfits

/-- Assumes: up to the odd part of a factor the product has fifty-three digits. It is a double. -/
theorem fits_times (hfactor : factor = odd * 2 ^ exponent) (hodd : 0 < odd) (hexponent : exponent ≤ 971)
    (hbound : number ≤ 2 ^ 53 / odd) : Fits (toDouble number * factor) := by
  rw [toDouble_of_le (hbound.trans (Nat.div_le_self _ _)), hfactor, ← Nat.mul_assoc]
  exact fits_mul_two_pow ((Nat.le_div_iff_mul_le hodd).mp hbound) hexponent

/-- Assumes: the number keeps the bound of the unit. The steps of the first parser give the product of the
second. -/
theorem exists_multipliers {unit : Char} {steps : List ℕ} (hunit : factors unit = some steps)
    (hdays : unit = 'd' → number ≤ 2 ^ 53 / 45) (hhours : unit = 'h' → number ≤ 2 ^ 53 / 15) :
    ∃ multiplier, multipliers unit = some multiplier ∧
      steps.foldl timesDouble (toDouble number) = timesDouble (toDouble number) multiplier := by
  unfold factors at hunit
  split at hunit <;> cases hunit
  · -- Seconds.
    refine ⟨1, rfl, ?_⟩
    rw [List.foldl_nil, timesDouble, Nat.mul_one, toDouble_toDouble]
  · -- Minutes.
    refine ⟨60, rfl, ?_⟩
    rw [List.foldl_cons, List.foldl_nil]
  · -- Hours: sixty is fifteen times a power of two.
    refine ⟨60 * 60, rfl, ?_⟩
    have hfits : Fits (toDouble number * 60) :=
      fits_times (show 60 = 15 * 2 ^ 2 from rfl) (by decide) (by decide) (hhours rfl)
    rw [List.foldl_cons, List.foldl_cons, List.foldl_nil, timesDouble_timesDouble hfits]
  · -- Days: the minutes of a day are forty-five times a power of two.
    refine ⟨24 * 60 * 60, rfl, ?_⟩
    have hbound := hdays rfl
    have hperDay : Fits (toDouble number * 24) :=
      fits_times (show 24 = 3 * 2 ^ 3 from rfl) (by decide) (by decide) (hbound.trans (by decide))
    have hperHour : Fits (toDouble number * (24 * 60)) :=
      fits_times (show 24 * 60 = 45 * 2 ^ 5 from rfl) (by decide) (by decide) hbound
    rw [List.foldl_cons, List.foldl_cons, List.foldl_cons, List.foldl_nil,
      timesDouble_timesDouble hperDay, timesDouble_timesDouble hperHour]

end Products

/-! ### What the parsers match -/

/-- The first parser accepts digits, between whitespace, that at most whitespace and a unit follow. -/
theorem exists_of_parseDurationToSeconds (haccepted : parseDurationToSeconds duration = some seconds) :
    ∃ digits rest, trimChars duration.toList = digits ++ rest ∧ digits ≠ [] ∧
      (∀ digit ∈ digits, digit.isDigit = true) ∧
      (rest.dropWhile isWhitespace = [] ∨ ∃ unit steps, rest.dropWhile isWhitespace = [unit] ∧
        factors unit = some steps ∧ seconds = steps.foldl timesDouble (toDouble (parseDigits digits))) := by
  refine ⟨(trimChars duration.toList).takeWhile Char.isDigit,
    (trimChars duration.toList).dropWhile Char.isDigit, List.takeWhile_append_dropWhile.symm, ?_,
    fun _ hdigit ↦ List.mem_takeWhile_imp hdigit, ?_⟩
  · intro hnone
    simp [parseDurationToSeconds, hnone] at haccepted
  · unfold parseDurationToSeconds at haccepted
    dsimp only at haccepted
    split_ifs at haccepted
    split at haccepted
    next hrest =>
      refine .inr ⟨'d', [24, 60, 60], hrest, rfl, ?_⟩
      simpa only [List.foldl_cons, List.foldl_nil] using (Option.some.inj haccepted).symm
    next hrest =>
      refine .inr ⟨'h', [60, 60], hrest, rfl, ?_⟩
      simpa only [List.foldl_cons, List.foldl_nil] using (Option.some.inj haccepted).symm
    next hrest =>
      refine .inr ⟨'m', [60], hrest, rfl, ?_⟩
      simpa only [List.foldl_cons, List.foldl_nil] using (Option.some.inj haccepted).symm
    next hrest => exact .inr ⟨'s', [], hrest, rfl, (Option.some.inj haccepted).symm⟩
    next hrest => exact .inl hrest
    · cases haccepted

/-- The second parser matches digits that a unit follows, and nothing else. -/
theorem matchExpiry_eq_some {expiry : String} {multiplier : ℕ} :
    matchExpiry expiry = some (digits, multiplier) ↔
      digits ≠ [] ∧ (∀ digit ∈ digits, digit.isDigit = true) ∧
        ∃ unit, expiry.toList = digits ++ [unit] ∧ multipliers unit = some multiplier := by
  unfold matchExpiry
  constructor
  · intro hmatch
    split at hmatch
    next digit rest unit hdigits hunit =>
      obtain ⟨found, hfound, hgroups⟩ := Option.map_eq_some_iff.mp hmatch
      obtain ⟨rfl, rfl⟩ := Prod.mk.inj hgroups
      refine ⟨List.cons_ne_nil _ _, fun char hchar ↦ ?_, unit, ?_, hfound⟩
      · rw [← hdigits] at hchar
        exact List.mem_takeWhile_imp hchar
      · rw [← hdigits, ← hunit, List.takeWhile_append_dropWhile]
    · cases hmatch
  · rintro ⟨hne, hdigits, unit, hsame, hunit⟩
    obtain ⟨digit, rest, rfl⟩ := List.exists_cons_of_ne_nil hne
    have hletter := (of_multipliers hunit).2
    rw [hsame, List.takeWhile_append_of_pos hdigits, List.dropWhile_append_of_pos hdigits,
      List.takeWhile_cons_of_neg (by simp [hletter]), List.dropWhile_cons_of_neg (by simp [hletter]),
      List.append_nil]
    simp [hunit]

theorem compact_of_readsAs (hread : ReadsAs duration seconds) : Compact duration := by
  obtain ⟨⟨digits, multiplier⟩, hgroups⟩ := Option.isSome_iff_exists.mp hread.1
  obtain ⟨-, hdigits, unit, hsame, hunit⟩ := matchExpiry_eq_some.mp hgroups
  obtain ⟨hspace, hletter⟩ := of_multipliers hunit
  rw [Compact, hsame]
  refine ⟨fun char hchar ↦ ?_, fun char hlast ↦ ?_⟩
  · rcases List.mem_append.mp hchar with hdigit | hchar
    · exact isWhitespace_of_isDigit (hdigits char hdigit)
    · rwa [List.mem_singleton.mp hchar]
  · rw [List.getLast?_concat] at hlast
    exact Option.some.inj hlast ▸ hletter

/-- Assumes: the first parser accepts a compact string. It is digits that a unit follows. -/
theorem exists_of_compact (haccepted : parseDurationToSeconds duration = some seconds)
    (hcompact : Compact duration) :
    ∃ digits unit steps, duration.toList = digits ++ [unit] ∧ digits ≠ [] ∧
      (∀ digit ∈ digits, digit.isDigit = true) ∧ factors unit = some steps ∧
      seconds = steps.foldl timesDouble (toDouble (parseDigits digits)) := by
  obtain ⟨hspaces, hlast⟩ := hcompact
  obtain ⟨digits, rest, hsame, hne, hdigits, hrest⟩ := exists_of_parseDurationToSeconds haccepted
  rw [trimChars_eq_self hspaces] at hsame
  rw [dropWhile_isWhitespace fun char hchar ↦ hspaces char (hsame ▸ List.mem_append_right _ hchar)]
    at hrest
  rcases hrest with rfl | ⟨unit, steps, rfl, hunit, hseconds⟩
  · -- A number without a unit ends in a digit.
    rw [List.append_nil] at hsame
    have hend : digits.getLast hne ∈ duration.toList.getLast? := by
      rw [hsame]
      exact List.getLast_mem_getLast? hne
    have hdigit := hdigits _ (List.getLast_mem hne)
    rw [hlast _ hend] at hdigit
    cases hdigit
  · exact ⟨digits, unit, steps, hsame, hne, hdigits, hunit, hseconds⟩

/-- Assumes: the first parser accepts the string. The second reads it alike if it is compact and bounded,
and only if it is compact. -/
theorem parsers_agree (haccepted : parseDurationToSeconds duration = some seconds) :
    (Compact duration → Bounded duration → ReadsAs duration seconds) ∧
      (ReadsAs duration seconds → Compact duration) := by
  refine ⟨fun hcompact hbounded ↦ ?_, compact_of_readsAs⟩
  obtain ⟨digits, unit, steps, hsame, hne, hdigits, hunit, rfl⟩ := exists_of_compact haccepted hcompact
  rw [Bounded, hsame, List.getLast?_concat] at hbounded
  have hletter : unit.isDigit = false := hcompact.2 unit (by rw [hsame, List.getLast?_concat]; rfl)
  rw [List.takeWhile_append_of_pos hdigits, List.takeWhile_cons_of_neg (by simp [hletter]),
    List.append_nil] at hbounded
  obtain ⟨multiplier, hmultiplier, hproduct⟩ := exists_multipliers hunit
    (fun hdays ↦ hbounded.1 (congrArg some hdays)) (fun hhours ↦ hbounded.2 (congrArg some hhours))
  have hmatch := matchExpiry_eq_some.mpr ⟨hne, hdigits, unit, hsame, hmultiplier⟩
  refine ⟨Option.isSome_of_eq_some hmatch, ?_⟩
  rw [refreshTtlSeconds_eq, hmatch, hproduct]
  rfl

/-- A witness that the conditions can be met: thirty days, as the default of `JWT_REFRESH_EXPIRY`. -/
theorem parsers_agree_witness : ReadsAs "30d" 2592000 := by
  have hspaces : ("30d".toList.all fun char ↦ !isWhitespace char) = true := by decide
  have hend : "30d".toList.getLast? = some 'd' := by decide
  refine (parsers_agree (by decide)).1 ⟨by simpa using List.all_eq_true.mp hspaces, ?_⟩ ?_
  · rw [hend]
    rintro char ⟨⟩
    rfl
  · exact ⟨fun _ ↦ by decide, fun hhours ↦ by rw [hend] at hhours; cases hhours⟩

/-- Beyond the bound the roundings of the two parsers can differ. -/
example :
    parseDurationToSeconds "200700849935771d" ≠ some (refreshTtlSeconds "200700849935771d") := by
  decide

/-- A quarter of an hour, in seconds, becomes thirty days. -/
theorem bareSeconds_misread :
    ¬ ∀ (duration : String) (seconds : ℕ), parseDurationToSeconds duration = some seconds →
      ReadsAs duration seconds := by
  intro halways
  have hread := (halways "900" 900 (by decide)).2
  exact absurd hread (by decide)

end RallyApi.Platform

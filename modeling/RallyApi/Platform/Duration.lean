import RallyApi.Numbers.Doubles
import RallyApi.Platform.Errors

/-!
# Durations

The two parsers of duration strings: `parseDurationToSeconds` of the platform
(`utils/date.util.ts`), used for the lifetime of access tokens, and the one inside
`AuthService.refreshTtlSeconds`. Both compute in doubles.
-/

set_option autoImplicit false
set_option relaxedAutoImplicit false

namespace RallyApi.Platform

open Numbers (toDouble timesDouble)

/-- The characters `\s` matches and `trim` removes. -/
def isWhitespace (char : Char) : Bool :=
  char ∈ ['\t', '\n', '\x0b', '\x0c', '\r', ' ', '\u00a0', '\u1680', '\u2028', '\u2029', '\u202f',
    '\u205f', '\u3000', '\ufeff'] || (0x2000 ≤ char.toNat && char.toNat ≤ 0x200a)

/-- `string.trim()` on the characters of a string. -/
def trimChars (chars : List Char) : List Char :=
  ((chars.dropWhile isWhitespace).reverse.dropWhile isWhitespace).reverse

/-- Nothing is dropped where nothing is whitespace. -/
theorem dropWhile_isWhitespace {chars : List Char}
    (hnone : ∀ char ∈ chars, isWhitespace char = false) :
    chars.dropWhile isWhitespace = chars := by
  cases chars with
  | nil => rfl
  | cons char rest => rw [List.dropWhile_cons_of_neg (by simp [hnone char List.mem_cons_self])]

theorem trimChars_eq_self {chars : List Char} (hnone : ∀ char ∈ chars, isWhitespace char = false) :
    trimChars chars = chars := by
  rw [trimChars, dropWhile_isWhitespace hnone, dropWhile_isWhitespace, List.reverse_reverse]
  exact fun char hchar ↦ hnone char (List.mem_reverse.mp hchar)

/-- The number that decimal digits write. -/
def parseDigits (digits : List Char) : ℕ :=
  digits.foldl (fun value digit ↦ value * 10 + (digit.toNat - '0'.toNat)) 0

/-- `parseDurationToSeconds`: `/^(\d+)\s*(s|m|h|d)?$/` on the trimmed string. A string that does
not match is an error. -/
def parseDurationToSeconds (duration : String) : Option ℕ :=
  let chars := trimChars duration.toList
  let digits := chars.takeWhile Char.isDigit
  if digits.isEmpty then none
  else
    let value := toDouble (parseDigits digits)
    match (chars.dropWhile Char.isDigit).dropWhile isWhitespace with
    | ['d'] => some (timesDouble (timesDouble (timesDouble value 24) 60) 60)
    | ['h'] => some (timesDouble (timesDouble value 60) 60)
    | ['m'] => some (timesDouble value 60)
    | ['s'] => some value
    | [] => some value
    | _ => none

/-- The multipliers of `refreshTtlSeconds`. -/
def multipliers : Char → Option ℕ
  | 's' => some 1
  | 'm' => some 60
  | 'h' => some 3600
  | 'd' => some 86400
  | _ => none

/-- `AuthService.refreshTtlSeconds`: `/^(\d+)([smhd])$/` on the string as it is, and thirty days
for a string that does not match. -/
def refreshTtlSeconds (expiry : String) : ℕ :=
  let digits := expiry.toList.takeWhile Char.isDigit
  match digits, expiry.toList.dropWhile Char.isDigit with
  | _ :: _, [unit] =>
    match multipliers unit with
    | some multiplier => timesDouble (toDouble (parseDigits digits)) multiplier
    | none => 30 * 24 * 3600
  | _, _ => 30 * 24 * 3600

example : refreshTtlSeconds "30d" = 2592000 := by decide

example : parseDurationToSeconds "15m" = some 900 := by decide

end RallyApi.Platform

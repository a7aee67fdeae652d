import Mathlib.Data.List.Infix
import Mathlib.Data.Rat.Defs

/-!
# Sanitizing a value for the log

`HttpLoggingInterceptor` logs the query of a request, and the body of a request that fails, after
`sanitizeValue`: what a sensitive key holds is left out, long arrays and long strings are cut.

`loggedAlike_iff` says what can be told from a sanitized value: two values are sanitized to the same exactly
when they differ only beneath sensitive keys, in a property `__proto__`, beyond the first items of an
array or beyond the first code units of a string. `sanitizeValue_eq_self_iff` says which values are left
as they are, and that what has been sanitized is one of them.
-/

set_option autoImplicit false
set_option relaxedAutoImplicit false

namespace RallyApi.Http

/-! ### Values -/

/-- A JavaScript string, by its code units. -/
abbrev JsString := List UInt16

/-- The code units of a text without characters beyond the basic plane. -/
def units (text : String) : JsString := text.toList.map fun char ↦ char.toNat.toUInt16

/-- A value of a query or of a body in JSON. The properties of an object come in the order of
`Object.entries`. -/
inductive LogValue
  | null
  | boolean (value : Bool)
  | number (value : ℚ)
  | string (text : JsString)
  | array (items : List LogValue)
  | object (fields : List (JsString × LogValue))

/-! ### `sanitizeValue` -/

/-- `REDACTED_BODY_FIELDS`. -/
def redactedBodyFields : List JsString :=
  ["password", "confirmPassword", "currentPassword", "newPassword", "token", "refreshToken", "secret",
    "privateKey", "creditCard"].map units

/-- The endings in `/(token|secret|password|cookie|authorization|key)$/i`. -/
def sensitiveEndings : List JsString :=
  ["token", "secret", "password", "cookie", "authorization", "key"].map units

/-- A code unit in lower case. The flag `i` identifies no other unit with one of the letters from `a` to
`z`. -/
def lowerUnit (unit : UInt16) : UInt16 := if 65 ≤ unit ∧ unit ≤ 90 then unit + 32 else unit

/-- `isSensitiveKey`. The empty key, which is not looked at, is not sensitive. -/
def isSensitiveKey (key : JsString) : Bool :=
  redactedBodyFields.contains key ||
    sensitiveEndings.any fun ending ↦ ending.isSuffixOf (key.map lowerUnit)

example : isSensitiveKey (units "X-Api-Key") = true ∧ isSensitiveKey [] = false := by decide

/-- `MAX_COLLECTION_ITEMS`. -/
def maxCollectionItems : ℕ := 20

/-- `MAX_STRING_LENGTH`. -/
def maxStringLength : ℕ := 256

/-- `'[REDACTED]'`. -/
def redacted : LogValue := .string (units "[REDACTED]")

/-- `'...[truncated]'`. -/
def truncationMark : JsString := units "...[truncated]"

/-- What is logged of a string. -/
def truncate (text : JsString) : JsString :=
  if maxStringLength < text.length then text.take maxStringLength ++ truncationMark else text

/-- The key that an assignment does not make a property of the object. -/
def protoKey : JsString := units "__proto__"

mutual

/-- `sanitizeValue`, without a key. -/
def sanitizeValue : LogValue → LogValue
  | .array items => .array (sanitizeItems maxCollectionItems items)
  | .object fields => .object (sanitizeFields fields)
  | .string text => .string (truncate text)
  | .null => .null
  | .boolean value => .boolean value
  | .number value => .number value

/-- `value.slice(0, count).map((item) => sanitizeValue(item))`. -/
def sanitizeItems : ℕ → List LogValue → List LogValue
  | 0, _ | _ + 1, [] => []
  | count + 1, item :: rest => sanitizeValue item :: sanitizeItems count rest

/-- `sanitized[childKey] = sanitizeValue(childValue, childKey)`, one property after another. -/
def sanitizeFields : List (JsString × LogValue) → List (JsString × LogValue)
  | [] => []
  | (key, value) :: rest =>
    if key = protoKey then sanitizeFields rest
    else (key, if isSensitiveKey key then redacted else sanitizeValue value) :: sanitizeFields rest

end

/-! ### What cannot be told apart -/

mutual

/-- The values differ only where the log does not show them. -/
inductive Alike : LogValue → LogValue → Prop
  | null : Alike .null .null
  | boolean (value : Bool) : Alike (.boolean value) (.boolean value)
  | number (value : ℚ) : Alike (.number value) (.number value)
  | short (text : JsString) : Alike (.string text) (.string text)
  | long (text other : JsString) (htext : maxStringLength < text.length)
      (hother : maxStringLength < other.length)
      (hsame : text.take maxStringLength = other.take maxStringLength) :
    Alike (.string text) (.string other)
  | array (items others : List LogValue) (hitems : AlikeItems maxCollectionItems items others) :
    Alike (.array items) (.array others)
  | object (fields others : List (JsString × LogValue)) (hfields : AlikeFields fields others) :
    Alike (.object fields) (.object others)

/-- The first items differ only where the log does not show them. -/
inductive AlikeItems : ℕ → List LogValue → List LogValue → Prop
  | cut (items others : List LogValue) : AlikeItems 0 items others
  | nil (count : ℕ) : AlikeItems (count + 1) [] []
  | cons (count : ℕ) (item other : LogValue) (rest others : List LogValue) (hitem : Alike item other)
      (hrest : AlikeItems count rest others) : AlikeItems (count + 1) (item :: rest) (other :: others)

/-- The properties have the same keys, and differ only where the log does not show them. -/
inductive AlikeFields : List (JsString × LogValue) → List (JsString × LogValue) → Prop
  | nil : AlikeFields [] []
  | protoLeft (value : LogValue) (rest others : List (JsString × LogValue))
      (hrest : AlikeFields rest others) : AlikeFields ((protoKey, value) :: rest) others
  | protoRight (value : LogValue) (rest others : List (JsString × LogValue))
      (hrest : AlikeFields rest others) : AlikeFields rest ((protoKey, value) :: others)
  | sensitive (key : JsString) (value other : LogValue) (rest others : List (JsString × LogValue))
      (hkey : isSensitiveKey key = true) (hrest : AlikeFields rest others) :
    AlikeFields ((key, value) :: rest) ((key, other) :: others)
  | shown (key : JsString) (value other : LogValue) (rest others : List (JsString × LogValue))
      (hvalue : Alike value other) (hrest : AlikeFields rest others) :
    AlikeFields ((key, value) :: rest) ((key, other) :: others)

end

theorem length_truncate_of_lt {text : JsString} (hlong : maxStringLength < text.length) :
    (truncate text).length = maxStringLength + 14 := by
  have hmark : truncationMark.length = 14 := by decide
  rw [truncate, if_pos hlong, List.length_append, List.length_take, min_eq_left hlong.le, hmark]

theorem truncate_of_le {text : JsString} (hshort : text.length ≤ maxStringLength) : truncate text = text :=
  if_neg hshort.not_gt

/-- Two strings are logged as the same text exactly when they are alike. -/
theorem truncate_eq_iff (text other : JsString) :
    truncate text = truncate other ↔ Alike (.string text) (.string other) := by
  constructor
  · intro hsame
    rcases lt_or_ge maxStringLength text.length with htext | htext <;>
      rcases lt_or_ge maxStringLength other.length with hother | hother
    · refine .long text other htext hother ?_
      rw [truncate, truncate, if_pos htext, if_pos hother] at hsame
      exact List.append_cancel_right hsame
    · have hlength := length_truncate_of_lt htext
      rw [hsame, truncate_of_le hother] at hlength
      omega
    · have hlength := length_truncate_of_lt hother
      rw [← hsame, truncate_of_le htext] at hlength
      omega
    · rw [truncate_of_le htext, truncate_of_le hother] at hsame
      exact hsame ▸ .short text
  · rintro (_ | _)
    · rfl
    · rename_i htext hother hsame
      rw [truncate, truncate, if_pos htext, if_pos hother, hsame]

theorem sanitizeFields_proto (value : LogValue) (rest : List (JsString × LogValue)) :
    sanitizeFields ((protoKey, value) :: rest) = sanitizeFields rest := by
  rw [sanitizeFields, if_pos rfl]

mutual

/-- Values that are alike are logged alike. -/
theorem sanitizeValue_eq_of_alike : {value other : LogValue} → Alike value other →
    sanitizeValue value = sanitizeValue other
  | _, _, .null | _, _, .boolean _ | _, _, .number _ | _, _, .short _ => rfl
  | _, _, .long text other htext hother hsame =>
    congrArg LogValue.string ((truncate_eq_iff text other).mpr (.long text other htext hother hsame))
  | _, _, .array _ _ hitems => congrArg LogValue.array (sanitizeItems_eq_of_alike hitems)
  | _, _, .object _ _ hfields => congrArg LogValue.object (sanitizeFields_eq_of_alike hfields)

theorem sanitizeItems_eq_of_alike : {count : ℕ} → {items others : List LogValue} →
    AlikeItems count items others → sanitizeItems count items = sanitizeItems count others
  | _, _, _, .cut _ _ => by rw [sanitizeItems, sanitizeItems]
  | _, _, _, .nil _ => rfl
  | _, _, _, .cons _ _ _ _ _ hitem hrest => by
    rw [sanitizeItems, sanitizeItems, sanitizeValue_eq_of_alike hitem, sanitizeItems_eq_of_alike hrest]

theorem sanitizeFields_eq_of_alike : {fields others : List (JsString × LogValue)} →
    AlikeFields fields others → sanitizeFields fields = sanitizeFields others
  | _, _, .nil => rfl
  | _, _, .protoLeft value rest _ hrest => by
    rw [sanitizeFields_proto, sanitizeFields_eq_of_alike hrest]
  | _, _, .protoRight value _ others hrest => by
    rw [sanitizeFields_proto, sanitizeFields_eq_of_alike hrest]
  | _, _, .sensitive key _ _ _ _ hkey hrest => by
    rw [sanitizeFields, sanitizeFields, hkey, sanitizeFields_eq_of_alike hrest]
    rfl
  | _, _, .shown key _ _ _ _ hvalue hrest => by
    rw [sanitizeFields, sanitizeFields, sanitizeValue_eq_of_alike hvalue, sanitizeFields_eq_of_alike hrest]

end

/-- The properties of which nothing is logged. -/
theorem alikeFields_nil {others : List (JsString × LogValue)} (hnone : sanitizeFields others = []) :
    AlikeFields [] others := by
  induction others with
  | nil => exact .nil
  | cons field others ih =>
    obtain ⟨key, other⟩ := field
    rw [sanitizeFields] at hnone
    split_ifs at hnone with hproto
    obtain rfl := hproto
    exact .protoRight other [] others (ih hnone)

/-- Assumes: the value and the other properties are alike wherever they are logged alike. So are the
properties with it. -/
theorem alikeFields_cons {key : JsString} {value : LogValue} {rest : List (JsString × LogValue)}
    (hkey : key ≠ protoKey)
    (hvalue : ∀ other, sanitizeValue value = sanitizeValue other → Alike value other)
    (hrest : ∀ others, sanitizeFields rest = sanitizeFields others → AlikeFields rest others)
    {others : List (JsString × LogValue)}
    (hsame : sanitizeFields ((key, value) :: rest) = sanitizeFields others) :
    AlikeFields ((key, value) :: rest) others := by
  induction others with
  | nil =>
    rw [sanitizeFields, sanitizeFields, if_neg hkey] at hsame
    cases hsame
  | cons field others ih =>
    obtain ⟨otherKey, other⟩ := field
    by_cases hproto : otherKey = protoKey
    · subst hproto
      exact .protoRight other _ others (ih (hsame.trans (sanitizeFields_proto other others)))
    · rw [sanitizeFields, if_neg hkey, sanitizeFields, if_neg hproto] at hsame
      obtain ⟨hfirst, hothers⟩ := List.cons.inj hsame
      obtain ⟨rfl, hshown⟩ := Prod.mk.inj hfirst
      cases hsensitive : isSensitiveKey key with
      | true => exact .sensitive key value other rest others hsensitive (hrest others hothers)
      | false =>
        simp only [hsensitive, Bool.false_eq_true, if_false] at hshown
        exact .shown key value other rest others (hvalue other hshown) (hrest others hothers)

mutual

/-- Values that are logged alike are alike. -/
theorem alike_of_sanitizeValue_eq : (value other : LogValue) →
    sanitizeValue value = sanitizeValue other → Alike value other
  | .null, other, hsame => by
    cases other <;> cases hsame
    exact .null
  | .boolean value, other, hsame => by
    cases other <;> cases hsame
    exact .boolean value
  | .number value, other, hsame => by
    cases other <;> cases hsame
    exact .number value
  | .string text, other, hsame => by
    cases other with
    | string otherText => exact (truncate_eq_iff text otherText).mp (LogValue.string.inj hsame)
    | _ => cases hsame
  | .array items, other, hsame => by
    cases other with
    | array others =>
      exact .array items others
        (alikeItems_of_sanitizeItems_eq maxCollectionItems items others (LogValue.array.inj hsame))
    | _ => cases hsame
  | .object fields, other, hsame => by
    cases other with
    | object others =>
      exact .object fields others
        (alikeFields_of_sanitizeFields_eq fields others (LogValue.object.inj hsame))
    | _ => cases hsame

theorem alikeItems_of_sanitizeItems_eq : (count : ℕ) → (items others : List LogValue) →
    sanitizeItems count items = sanitizeItems count others → AlikeItems count items others
  | 0, items, others, _ => .cut items others
  | count + 1, [], [], _ => .nil count
  | _ + 1, [], _ :: _, hsame => by cases hsame
  | _ + 1, _ :: _, [], hsame => by cases hsame
  | count + 1, item :: rest, other :: others, hsame => by
    obtain ⟨hitem, hrest⟩ := List.cons.inj hsame
    exact .cons count item other rest others (alike_of_sanitizeValue_eq item other hitem)
      (alikeItems_of_sanitizeItems_eq count rest others hrest)

theorem alikeFields_of_sanitizeFields_eq : (fields others : List (JsString × LogValue)) →
    sanitizeFields fields = sanitizeFields others → AlikeFields fields others
  | [], _, hsame => alikeFields_nil hsame.symm
  | (key, value) :: rest, others, hsame => by
    by_cases hproto : key = protoKey
    · subst hproto
      rw [sanitizeFields_proto] at hsame
      exact .protoLeft value rest others (alikeFields_of_sanitizeFields_eq rest others hsame)
    · exact alikeFields_cons hproto (fun other ↦ alike_of_sanitizeValue_eq value other)
        (fun others ↦ alikeFields_of_sanitizeFields_eq rest others) hsame

end

/-- Two values are sanitized to the same exactly when they differ only beneath sensitive keys, in a property
`__proto__`, beyond the first items of an array or beyond the first code units of a long string. -/
theorem loggedAlike_iff (value other : LogValue) :
    sanitizeValue value = sanitizeValue other ↔ Alike value other :=
  ⟨alike_of_sanitizeValue_eq value other, sanitizeValue_eq_of_alike⟩

/-! ### What is logged -/

/-- The text is within the limit, or ends in the mark after as many code units as the limit allows. -/
def isCut (text : JsString) : Bool :=
  text.length ≤ maxStringLength ∨
    text.length = maxStringLength + 14 ∧ truncationMark.isSuffixOf text = true

/-- What the log shows for a sensitive key. -/
def LogValue.isRedacted : LogValue → Bool
  | .string text => text = units "[REDACTED]"
  | _ => false

mutual

/-- Nothing of the value has to be left out of the log, at any depth: its arrays are within the limit, its
strings too or end in the mark, its sensitive keys hold `[REDACTED]`, and no key is `__proto__`. -/
def LogValue.isClean : LogValue → Bool
  | .array items => decide (items.length ≤ maxCollectionItems) && areClean items
  | .object fields => areCleanFields fields
  | .string text => isCut text
  | _ => true

/-- The items are clean. -/
def areClean : List LogValue → Bool
  | [] => true
  | item :: rest => item.isClean && areClean rest

/-- The values of the properties are clean, and `[REDACTED]` for the sensitive keys. -/
def areCleanFields : List (JsString × LogValue) → Bool
  | [] => true
  | (key, value) :: rest =>
    decide (key ≠ protoKey) && (if isSensitiveKey key then value.isRedacted else value.isClean) &&
      areCleanFields rest

end

theorem truncate_eq_self_iff (text : JsString) : truncate text = text ↔ isCut text = true := by
  have hmark : truncationMark.length = 14 := by decide
  unfold isCut
  rw [decide_eq_true_eq, List.isSuffixOf_iff_suffix]
  rcases lt_or_ge maxStringLength text.length with hlong | hshort
  · constructor
    · intro hsame
      refine .inr ⟨hsame ▸ length_truncate_of_lt hlong, text.take maxStringLength, ?_⟩
      rwa [truncate, if_pos hlong] at hsame
    · rintro (hle | ⟨hlength, start, hstart⟩)
      · omega
      · have hprefix : start.length = maxStringLength := by
          rw [← hstart, List.length_append, hmark] at hlength
          omega
        rw [truncate, if_pos hlong]
        conv_rhs => rw [← hstart]
        rw [← hstart, ← hprefix, List.take_left]
  · exact ⟨fun _ ↦ .inl hshort, fun _ ↦ truncate_of_le hshort⟩

theorem isCut_truncate (text : JsString) : isCut (truncate text) = true := by
  unfold isCut
  rw [decide_eq_true_eq, List.isSuffixOf_iff_suffix]
  rcases lt_or_ge maxStringLength text.length with hlong | hshort
  · refine .inr ⟨length_truncate_of_lt hlong, text.take maxStringLength, ?_⟩
    rw [truncate, if_pos hlong]
  · exact .inl ((truncate_of_le hshort).symm ▸ hshort)

theorem length_sanitizeItems_le (count : ℕ) (items : List LogValue) :
    (sanitizeItems count items).length ≤ count := by
  induction count generalizing items with
  | zero => simp [sanitizeItems]
  | succ count ih =>
    cases items with
    | nil => simp [sanitizeItems]
    | cons item rest => simpa [sanitizeItems] using ih rest

mutual

/-- What is logged is clean. -/
theorem isClean_sanitizeValue : (value : LogValue) → (sanitizeValue value).isClean = true
  | .null | .boolean _ | .number _ => rfl
  | .string text => isCut_truncate text
  | .array items => by
    rw [sanitizeValue, LogValue.isClean, decide_eq_true (length_sanitizeItems_le _ items), Bool.true_and]
    exact areClean_sanitizeItems maxCollectionItems items
  | .object fields => areCleanFields_sanitizeFields fields

theorem areClean_sanitizeItems : (count : ℕ) → (items : List LogValue) →
    areClean (sanitizeItems count items) = true
  | 0, _ => by rw [sanitizeItems, areClean]
  | _ + 1, [] => rfl
  | count + 1, item :: rest => by
    rw [sanitizeItems, areClean, isClean_sanitizeValue item, areClean_sanitizeItems count rest]
    rfl

theorem areCleanFields_sanitizeFields : (fields : List (JsString × LogValue)) →
    areCleanFields (sanitizeFields fields) = true
  | [] => rfl
  | (key, value) :: rest => by
    have hrest := areCleanFields_sanitizeFields rest
    rw [sanitizeFields]
    split_ifs with hproto hsensitive
    · exact hrest
    · rw [areCleanFields, hrest, decide_eq_true hproto, if_pos hsensitive]
      rfl
    · rw [areCleanFields, hrest, decide_eq_true hproto, if_neg hsensitive, isClean_sanitizeValue value]
      rfl

end

mutual

/-- What is clean is logged as it is. -/
theorem sanitizeValue_eq_self : (value : LogValue) → value.isClean = true → sanitizeValue value = value
  | .null, _ | .boolean _, _ | .number _, _ => rfl
  | .string text, hclean => congrArg LogValue.string ((truncate_eq_self_iff text).mpr hclean)
  | .array items, hclean => by
    obtain ⟨hlength, hitems⟩ := Bool.and_eq_true_iff.mp hclean
    exact congrArg LogValue.array
      (sanitizeItems_eq_self maxCollectionItems items (of_decide_eq_true hlength) hitems)
  | .object fields, hclean => congrArg LogValue.object (sanitizeFields_eq_self fields hclean)

theorem sanitizeItems_eq_self : (count : ℕ) → (items : List LogValue) → items.length ≤ count →
    areClean items = true → sanitizeItems count items = items
  | 0, [], _, _ => by rw [sanitizeItems]
  | _ + 1, [], _, _ => rfl
  | count + 1, item :: rest, hlength, hclean => by
    obtain ⟨hitem, hrest⟩ := Bool.and_eq_true_iff.mp hclean
    rw [sanitizeItems, sanitizeValue_eq_self item hitem,
      sanitizeItems_eq_self count rest (Nat.le_of_succ_le_succ hlength) hrest]

theorem sanitizeFields_eq_self : (fields : List (JsString × LogValue)) →
    areCleanFields fields = true → sanitizeFields fields = fields
  | [], _ => rfl
  | (key, value) :: rest, hclean => by
    rw [areCleanFields, Bool.and_eq_true_iff, Bool.and_eq_true_iff] at hclean
    obtain ⟨⟨hproto, hvalue⟩, hrest⟩ := hclean
    rw [sanitizeFields, if_neg (of_decide_eq_true hproto), sanitizeFields_eq_self rest hrest]
    split_ifs at hvalue ⊢ with hsensitive
    · cases value with
      | string text => rw [redacted, of_decide_eq_true hvalue]
      | _ => cases hvalue
    · rw [sanitizeValue_eq_self value hvalue]

end

/-- A value is logged as it is exactly when it is clean, and what is logged is clean. So what has been
sanitized is not changed when it is sanitized again. -/
theorem sanitizeValue_eq_self_iff (value : LogValue) :
    (sanitizeValue value = value ↔ value.isClean = true) ∧
      sanitizeValue (sanitizeValue value) = sanitizeValue value :=
  ⟨⟨fun hsame ↦ hsame ▸ isClean_sanitizeValue value, sanitizeValue_eq_self value⟩,
    sanitizeValue_eq_self _ (isClean_sanitizeValue value)⟩

end RallyApi.Http

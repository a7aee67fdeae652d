import Mathlib.Data.Rat.Defs
import RallyApi.Platform.Errors

/-!
# JSON

`JSON.stringify` and `JSON.parse` on the values a handler may return. The text of a document is given
by the value that `JSON.parse` makes of it, so a text is itself a value; `stringify_eq_self` says which
values come back as they were.
-/

set_option autoImplicit false
set_option relaxedAutoImplicit false

namespace RallyApi.Platform

/-- A JavaScript value. An object with a method `toJSON`, such as a `Date`, is given by the value that
method returns. -/
inductive JsValue
  | undefined
  | null
  | boolean (value : Bool)
  | number (value : ℚ)
  | notFinite
  | bigInt (value : ℤ)
  | string (value : String)
  | array (items : List JsValue)
  | object (fields : List (String × JsValue))
  | custom (json : JsValue)

namespace JsValue

mutual

/-- `JSON.stringify(value)`; `undefined` has no text, and a `bigint` is an error. -/
def stringify : JsValue → Except Failure (Option JsValue)
  | .undefined => .ok none
  | .notFinite => .ok (some .null)
  | .bigInt _ => .error .typeError
  | .custom json => json.stringify
  | .array items => (stringifyItems items).map fun items ↦ some (.array items)
  | .object fields => (stringifyFields fields).map fun fields ↦ some (.object fields)
  | value => .ok (some value)

/-- The items of an array; an item without a text becomes `null`. -/
def stringifyItems : List JsValue → Except Failure (List JsValue)
  | [] => .ok []
  | item :: rest => do
    let item ← item.stringify
    let rest ← stringifyItems rest
    pure (item.getD .null :: rest)

/-- The properties of an object; a property whose value has no text is left out. -/
def stringifyFields : List (String × JsValue) → Except Failure (List (String × JsValue))
  | [] => .ok []
  | (name, value) :: rest => do
    let value ← value.stringify
    let rest ← stringifyFields rest
    pure ((value.map fun value ↦ (name, value)).toList ++ rest)

end

/-- `JSON.parse` of a text, or of the empty text, which is no document. -/
def parse : Option JsValue → Except Failure JsValue
  | some document => .ok document
  | none => .error .syntaxError

mutual

/-- The value is a JSON document. -/
def isJson : JsValue → Bool
  | .null | .boolean _ | .number _ | .string _ => true
  | .array items => isJsonItems items
  | .object fields => isJsonFields fields
  | _ => false

/-- All items are JSON documents. -/
def isJsonItems : List JsValue → Bool
  | [] => true
  | item :: rest => item.isJson && isJsonItems rest

/-- The values of all properties are JSON documents. -/
def isJsonFields : List (String × JsValue) → Bool
  | [] => true
  | (_, value) :: rest => value.isJson && isJsonFields rest

end

/-! ### The round trip -/

mutual

/-- A JSON document is its own text. -/
theorem stringify_of_isJson : (value : JsValue) → value.isJson = true →
    value.stringify = .ok (some value)
  | .null, _ | .boolean _, _ | .number _, _ | .string _, _ => rfl
  | .array items, hjson => by
    rw [stringify, stringifyItems_of_isJson items hjson]
    rfl
  | .object fields, hjson => by
    rw [stringify, stringifyFields_of_isJson fields hjson]
    rfl

theorem stringifyItems_of_isJson : (items : List JsValue) → isJsonItems items = true →
    stringifyItems items = .ok items
  | [], _ => rfl
  | item :: rest, hjson => by
    obtain ⟨hitem, hrest⟩ := Bool.and_eq_true_iff.mp hjson
    rw [stringifyItems, stringify_of_isJson item hitem, stringifyItems_of_isJson rest hrest]
    rfl

theorem stringifyFields_of_isJson : (fields : List (String × JsValue)) →
    isJsonFields fields = true → stringifyFields fields = .ok fields
  | [], _ => rfl
  | (name, value) :: rest, hjson => by
    obtain ⟨hvalue, hrest⟩ := Bool.and_eq_true_iff.mp hjson
    rw [stringifyFields, stringify_of_isJson value hvalue, stringifyFields_of_isJson rest hrest]
    rfl

end

mutual

/-- Every text is a JSON document. -/
theorem isJson_of_stringify : (value : JsValue) → (text : JsValue) →
    value.stringify = .ok (some text) → text.isJson = true
  | .null, _, rfl | .boolean _, _, rfl | .number _, _, rfl | .string _, _, rfl
  | .notFinite, _, rfl => rfl
  | .custom json, text, htext => isJson_of_stringify json text htext
  | .array items, text, htext => by
    rw [stringify] at htext
    cases hitems : stringifyItems items with
    | error failure => simp [hitems, Except.map] at htext
    | ok texts =>
      obtain rfl : JsValue.array texts = text := by simpa [hitems, Except.map] using htext
      exact isJsonItems_of_stringify items texts hitems
  | .object fields, text, htext => by
    rw [stringify] at htext
    cases hfields : stringifyFields fields with
    | error failure => simp [hfields, Except.map] at htext
    | ok texts =>
      obtain rfl : JsValue.object texts = text := by simpa [hfields, Except.map] using htext
      exact isJsonFields_of_stringify fields texts hfields

theorem isJsonItems_of_stringify : (items texts : List JsValue) →
    stringifyItems items = .ok texts → isJsonItems texts = true
  | [], _, rfl => rfl
  | item :: rest, texts, htexts => by
    rw [stringifyItems] at htexts
    obtain ⟨text, htext, htexts⟩ := bind_eq_ok.mp htexts
    obtain ⟨restTexts, hrest, htexts⟩ := bind_eq_ok.mp htexts
    obtain rfl := Except.ok.inj htexts
    refine Bool.and_eq_true_iff.mpr ⟨?_, isJsonItems_of_stringify rest restTexts hrest⟩
    cases text with
    | none => rfl
    | some text => exact isJson_of_stringify item text htext

theorem isJsonFields_of_stringify : (fields texts : List (String × JsValue)) →
    stringifyFields fields = .ok texts → isJsonFields texts = true
  | [], _, rfl => rfl
  | (name, value) :: rest, texts, htexts => by
    rw [stringifyFields] at htexts
    obtain ⟨text, htext, htexts⟩ := bind_eq_ok.mp htexts
    obtain ⟨restTexts, hrest, htexts⟩ := bind_eq_ok.mp htexts
    obtain rfl := Except.ok.inj htexts
    have htail := isJsonFields_of_stringify rest restTexts hrest
    cases text with
    | none => exact htail
    | some text => exact Bool.and_eq_true_iff.mpr ⟨isJson_of_stringify value text htext, htail⟩

end

/-- A value comes back from its text as it was exactly when it is a JSON document. -/
theorem stringify_eq_self {value : JsValue} :
    value.stringify = .ok (some value) ↔ value.isJson = true :=
  ⟨isJson_of_stringify value value, stringify_of_isJson value⟩

/-! ### The strings of a value -/

mutual

/-- The value with all its strings changed. -/
def mapStrings (change : String → String) : JsValue → JsValue
  | .string text => .string (change text)
  | .array items => .array (mapStringsItems change items)
  | .object fields => .object (mapStringsFields change fields)
  | value => value

def mapStringsItems (change : String → String) : List JsValue → List JsValue
  | [] => []
  | item :: rest => mapStrings change item :: mapStringsItems change rest

def mapStringsFields (change : String → String) : List (String × JsValue) → List (String × JsValue)
  | [] => []
  | (name, value) :: rest => (name, mapStrings change value) :: mapStringsFields change rest

end

mutual

/-- All strings of the value meet a condition. -/
def AllStrings (condition : String → Prop) : JsValue → Prop
  | .string text => condition text
  | .array items => AllStringsItems condition items
  | .object fields => AllStringsFields condition fields
  | _ => True

def AllStringsItems (condition : String → Prop) : List JsValue → Prop
  | [] => True
  | item :: rest => AllStrings condition item ∧ AllStringsItems condition rest

def AllStringsFields (condition : String → Prop) : List (String × JsValue) → Prop
  | [] => True
  | (_, value) :: rest => AllStrings condition value ∧ AllStringsFields condition rest

end

mutual

/-- A change leaves a value as it is when it does so with its strings, and only then. -/
theorem mapStrings_eq_self_iff (change : String → String) : (value : JsValue) →
    (value.mapStrings change = value ↔ value.AllStrings fun text ↦ change text = text)
  | .string text => by rw [mapStrings, AllStrings, JsValue.string.injEq]
  | .array items => by
    rw [mapStrings, AllStrings, JsValue.array.injEq]
    exact mapStringsItems_eq_self_iff change items
  | .object fields => by
    rw [mapStrings, AllStrings, JsValue.object.injEq]
    exact mapStringsFields_eq_self_iff change fields
  | .undefined | .null | .boolean _ | .number _ | .notFinite | .bigInt _ | .custom _ =>
    iff_of_true rfl trivial

theorem mapStringsItems_eq_self_iff (change : String → String) : (items : List JsValue) →
    (mapStringsItems change items = items ↔ AllStringsItems (fun text ↦ change text = text) items)
  | [] => iff_of_true rfl trivial
  | item :: rest => by
    rw [mapStringsItems, AllStringsItems, List.cons.injEq, mapStrings_eq_self_iff change item,
      mapStringsItems_eq_self_iff change rest]

theorem mapStringsFields_eq_self_iff (change : String → String) :
    (fields : List (String × JsValue)) →
    (mapStringsFields change fields = fields ↔
      AllStringsFields (fun text ↦ change text = text) fields)
  | [] => iff_of_true rfl trivial
  | (name, value) :: rest => by
    rw [mapStringsFields, AllStringsFields, List.cons.injEq, Prod.mk.injEq,
      mapStrings_eq_self_iff change value, mapStringsFields_eq_self_iff change rest]
    exact and_congr_left' (and_iff_right rfl)

end

theorem length_mapStringsFields (change : String → String) (fields : List (String × JsValue)) :
    (mapStringsFields change fields).length = fields.length := by
  induction fields with
  | nil => rfl
  | cons field rest ih => exact congrArg Nat.succ ih

end JsValue

end RallyApi.Platform

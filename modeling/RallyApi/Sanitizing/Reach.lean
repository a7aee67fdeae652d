import RallyApi.Sanitizing.Sanitize

/-!
# What sanitising reaches

The pipe goes through the properties of a body, the items of the arrays among them and the objects
among these. It does not go into an array at the top or an array in an array, nor into an object whose
`constructor` is not `Object`: a property of this name hides it, and an object without a prototype has
none.

`transform_eq_iff` says exactly when the result is the value with all its strings sanitised: when the
strings it does not go to need no sanitising, and no property is named `__proto__`, which is lost.
`topLevelArray_untouched` is a body that passes as it is.
-/

set_option autoImplicit false
set_option relaxedAutoImplicit false

namespace RallyApi.Sanitizing

open Platform

/-- The text needs no sanitising. -/
def Sanitized (text : String) : Prop := sanitizeString text = text

mutual

/-- `sanitizeObject` reaches what has to be sanitised in the properties of an object, and makes all
properties again. -/
def ReachesFields : List (String × JsValue) → Prop
  | [] => True
  | (key, value) :: rest => key ≠ "__proto__" ∧ ReachesValue value ∧ ReachesFields rest

/-- The value of a property. -/
def ReachesValue : JsValue → Prop
  | .array items => ReachesItems items
  | .object fields =>
    if isPlain fields then ReachesFields fields else JsValue.AllStringsFields Sanitized fields
  | _ => True

/-- The items of an array that is the value of a property. -/
def ReachesItems : List JsValue → Prop
  | [] => True
  | .array items :: rest => JsValue.AllStringsItems Sanitized items ∧ ReachesItems rest
  | .object fields :: rest =>
    (if isPlain fields then ReachesFields fields else JsValue.AllStringsFields Sanitized fields) ∧
      ReachesItems rest
  | _ :: rest => ReachesItems rest

end

/-- The pipe reaches what has to be sanitised in a value. -/
def Reaches (inherits : Bool) : JsValue → Prop
  | .array items => JsValue.AllStringsItems Sanitized items
  | .object fields =>
    if inherits && isPlain fields then ReachesFields fields
    else JsValue.AllStringsFields Sanitized fields
  | _ => True

theorem length_sanitizeObject_le (fields : List (String × JsValue)) :
    (sanitizeObject fields).length ≤ fields.length := by
  induction fields with
  | nil => exact Nat.le_refl _
  | cons field rest ih =>
    rw [sanitizeObject, List.length_cons]
    split_ifs
    · exact Nat.le_succ_of_le ih
    · exact Nat.succ_le_succ ih

/-- An object that is passed on as it is. -/
theorem object_eq_mapStrings (fields : List (String × JsValue)) :
    .object fields = (JsValue.object fields).mapStrings sanitizeString ↔
      JsValue.AllStringsFields Sanitized fields :=
  eq_comm.trans (JsValue.mapStrings_eq_self_iff sanitizeString (.object fields))

theorem array_eq_mapStrings (items : List JsValue) :
    .array items = (JsValue.array items).mapStrings sanitizeString ↔
      JsValue.AllStringsItems Sanitized items :=
  eq_comm.trans (JsValue.mapStrings_eq_self_iff sanitizeString (.array items))

mutual

theorem sanitizeObject_eq_iff : (fields : List (String × JsValue)) →
    (sanitizeObject fields = JsValue.mapStringsFields sanitizeString fields ↔ ReachesFields fields)
  | [] => iff_of_true rfl trivial
  | (key, value) :: rest => by
    rw [sanitizeObject, JsValue.mapStringsFields, ReachesFields]
    split_ifs with hproto
    · -- The property is lost, so that there are too few.
      refine iff_of_false (fun hsame ↦ ?_) fun hreaches ↦ hreaches.1 hproto
      have hlength := length_sanitizeObject_le rest
      rw [hsame, List.length_cons, JsValue.length_mapStringsFields] at hlength
      exact absurd hlength (Nat.not_succ_le_self _)
    · rw [List.cons.injEq, Prod.mk.injEq, sanitizeValue_eq_iff value, sanitizeObject_eq_iff rest]
      simp only [hproto, not_false_eq_true, true_and, ne_eq]

theorem sanitizeValue_eq_iff : (value : JsValue) →
    (sanitizeValue value = value.mapStrings sanitizeString ↔ ReachesValue value)
  | .array items => by
    rw [sanitizeValue, JsValue.mapStrings, ReachesValue, JsValue.array.injEq]
    exact sanitizeArray_eq_iff items
  | .object fields => by
    rw [sanitizeValue, ReachesValue]
    split_ifs with hplain
    · rw [JsValue.mapStrings, JsValue.object.injEq]
      exact sanitizeObject_eq_iff fields
    · exact object_eq_mapStrings fields
  | .string _ | .undefined | .null | .boolean _ | .number _ | .notFinite | .bigInt _ | .custom _ =>
    iff_of_true rfl trivial

theorem sanitizeArray_eq_iff : (items : List JsValue) →
    (sanitizeArray items = JsValue.mapStringsItems sanitizeString items ↔ ReachesItems items)
  | [] => iff_of_true rfl trivial
  | .array items :: rest => by
    rw [sanitizeArray, JsValue.mapStringsItems, ReachesItems, List.cons.injEq,
      array_eq_mapStrings items, sanitizeArray_eq_iff rest]
    all_goals simp
  | .object fields :: rest => by
    rw [sanitizeArray, JsValue.mapStringsItems, ReachesItems, List.cons.injEq,
      sanitizeArray_eq_iff rest]
    refine and_congr_left' ?_
    split_ifs with hplain
    · rw [JsValue.mapStrings, JsValue.object.injEq]
      exact sanitizeObject_eq_iff fields
    · exact object_eq_mapStrings fields
  | .string _ :: rest | .undefined :: rest | .null :: rest | .boolean _ :: rest | .number _ :: rest
  | .notFinite :: rest | .bigInt _ :: rest | .custom _ :: rest => by
    rw [sanitizeArray, JsValue.mapStringsItems, ReachesItems, List.cons.injEq,
      sanitizeArray_eq_iff rest]
    · exact and_iff_right rfl
    all_goals simp

end

/-- The pipe returns the value with all its strings sanitised when the strings it does not go to need no
sanitising and no property is lost, and only then. -/
theorem transform_eq_iff (inherits : Bool) (value : JsValue) :
    transform inherits value = value.mapStrings sanitizeString ↔ Reaches inherits value := by
  cases value with
  | array items => exact array_eq_mapStrings items
  | object fields =>
    rw [transform, Reaches]
    split_ifs with hplain
    · rw [JsValue.mapStrings, JsValue.object.injEq]
      exact sanitizeObject_eq_iff fields
    · exact object_eq_mapStrings fields
  | string | undefined | null | boolean | number | notFinite | bigInt | custom =>
    exact iff_of_true rfl trivial

/-- Not every string is sanitized: those of an array that is a body are passed on as they are. -/
theorem topLevelArray_untouched :
    transform true (.array [.string "<script>alert(1)</script>"]) ≠
      (JsValue.array [.string "<script>alert(1)</script>"]).mapStrings sanitizeString := by
  intro hsame
  have htext : sanitizeString "<script>alert(1)</script>" = "<script>alert(1)</script>" :=
    ((array_eq_mapStrings _).mp hsame).1
  exact absurd htext (by decide +kernel)

end RallyApi.Sanitizing

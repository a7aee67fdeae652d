import RallyApi.Notifications.Repositories

/-!
# Changing a notification preference

The effective setting of a channel is read off the row of the type, else off the wildcard row, and else it
is enabled (`resolve_eq`). Changing one channel for a type should leave the other channel alone for every
type, and the channel itself for every type with a row of its own (`LeavesTheRest`).

A change never reaches another type with a row of its own (`resolve_changed_of_own`), nor the other
channel of another type (`resolve_other_of_ne`). What remains is the other channel of the type itself. The
row that an upsert creates enables it, whatever the wildcard row has said about it so far: the rest is
left alone exactly if the type is the wildcard, has a row already, or the wildcard row does not disable
the other channel (`leavesTheRest_iff`).
-/

set_option autoImplicit false
set_option relaxedAutoImplicit false

namespace RallyApi.Notifications

open Platform Store

/-! ### The effective setting -/

/-- `findOne`. -/
def findOne (tenantId userId : Uuid) (type : String) (preferences : List NotificationPreference) :
    Option NotificationPreference :=
  preferences.find? (isPreferenceOf tenantId userId type)

/-- The other channel. -/
def NotificationChannel.other : NotificationChannel → NotificationChannel
  | .inApp => .email
  | .email => .inApp

variable {tenantId userId : Uuid} {type changed : String} {channel : NotificationChannel}
  {enabled : Bool} {preferences : List NotificationPreference} {preference : NotificationPreference}

theorem isPreferenceOf_eq_true :
    isPreferenceOf tenantId userId type preference = true ↔
      preference.tenantId = tenantId ∧ preference.userId = userId ∧ preference.type = type := by
  simp [isPreferenceOf]

/-- Among the rows `findForCheck` fetches, a search for one of the two types finds the row of that type. -/
theorem find_findForCheck {sought : String} (hsought : sought = type ∨ sought = "*") :
    ((findForCheck tenantId userId type preferences).find? fun row ↦ row.type = sought) =
      findOne tenantId userId sought preferences := by
  rw [findForCheck, findOne, List.find?_filter]
  congr 1
  funext row
  rw [Bool.eq_iff_iff]
  simp only [isPreferenceOf, decide_eq_true_eq]
  constructor
  · rintro ⟨⟨htenant, huser, _⟩, htype⟩
    exact ⟨htenant, huser, htype⟩
  · rintro ⟨htenant, huser, htype⟩
    exact ⟨⟨htenant, huser, htype ▸ hsought⟩, htype⟩

/-- The effective setting: the row of the type, else the wildcard row, else enabled. -/
theorem resolve_eq :
    resolve tenantId userId type channel preferences =
      (((findOne tenantId userId type preferences).or (findOne tenantId userId "*" preferences)).map
        fun row ↦ row.field channel).getD true := by
  simp only [resolve, find_findForCheck (.inl rfl), find_findForCheck (.inr rfl)]
  cases findOne tenantId userId type preferences with
  | some specific => rfl
  | none =>
    cases findOne tenantId userId "*" preferences with
    | some wildcard => rfl
    | none => rfl

/-- A type with a row of its own has the setting of that row. -/
theorem resolve_of_own (hown : findOne tenantId userId type preferences = some preference) :
    resolve tenantId userId type channel preferences = preference.field channel := by
  rw [resolve_eq, hown, Option.some_or, Option.map_some, Option.getD_some]

/-! ### The change -/

/-- The change of one channel for a type. -/
def setChannel (tenantId userId : Uuid) (type : String) (enabled : Bool) :
    NotificationChannel → UpsertPreferenceInput
  | .inApp => { tenantId, userId, type, inApp := some enabled }
  | .email => { tenantId, userId, type, email := some enabled }

/-- The row of the type after the change: the one that was there, rewritten, or a new one. -/
def UpsertPreferenceInput.written (input : UpsertPreferenceInput)
    (found : Option NotificationPreference) : NotificationPreference where
  tenantId := input.tenantId
  userId := input.userId
  type := input.type
  inApp := input.inApp.getD ((found.map NotificationPreference.inApp).getD true)
  email := input.email.getD ((found.map NotificationPreference.email).getD true)

/-- What the change writes into the other channel: the value of the row that was there, or enabled. -/
theorem field_other_written {found : Option NotificationPreference} :
    ((setChannel tenantId userId type enabled channel).written found).field channel.other =
      (found.map fun row ↦ row.field channel.other).getD true := by
  cases channel with
  | inApp => rfl
  | email => rfl

@[simp]
theorem setChannel_tenantId :
    (setChannel tenantId userId type enabled channel).tenantId = tenantId := by
  cases channel with
  | inApp => rfl
  | email => rfl

@[simp]
theorem setChannel_userId : (setChannel tenantId userId type enabled channel).userId = userId := by
  cases channel with
  | inApp => rfl
  | email => rfl

@[simp]
theorem setChannel_type : (setChannel tenantId userId type enabled channel).type = type := by
  cases channel with
  | inApp => rfl
  | email => rfl

/-- After an upsert, the row of its type is the one it has written. -/
theorem findOne_upsert_self (input : UpsertPreferenceInput)
    (preferences : List NotificationPreference) :
    findOne input.tenantId input.userId input.type (upsertPreference input preferences) =
      some (input.written (findOne input.tenantId input.userId input.type preferences)) := by
  cases hfound : findOne input.tenantId input.userId input.type preferences with
  | some row =>
    have hrow := List.find?_some hfound
    have hany : preferences.any (isPreferenceOf input.tenantId input.userId input.type) = true :=
      List.any_eq_true.mpr ⟨row, List.mem_of_find?_eq_some hfound, hrow⟩
    rw [upsertPreference, if_pos hany, findOne, find_updateWhere, ← findOne, hfound, Option.map_some,
      if_pos hrow]
    · obtain ⟨htenant, huser, htype⟩ := isPreferenceOf_eq_true.mp hrow
      simp [UpsertPreferenceInput.written, htenant, huser, htype]
    · intro other
      rfl
  | none =>
    have hnone := List.find?_eq_none.mp hfound
    have hany : ¬ preferences.any (isPreferenceOf input.tenantId input.userId input.type) = true := by
      rw [List.any_eq_true]
      exact fun ⟨row, hrow, hmatches⟩ ↦ hnone row hrow hmatches
    rw [upsertPreference, if_neg hany, findOne, List.find?_append, ← findOne, hfound, Option.none_or]
    exact List.find?_cons_of_pos (isPreferenceOf_eq_true.mpr ⟨rfl, rfl, rfl⟩)

/-- An upsert leaves the rows of the other types alone. -/
theorem findOne_upsert_of_ne (input : UpsertPreferenceInput)
    (preferences : List NotificationPreference) (htype : type ≠ input.type) :
    findOne input.tenantId input.userId type (upsertPreference input preferences) =
      findOne input.tenantId input.userId type preferences := by
  by_cases hany : preferences.any (isPreferenceOf input.tenantId input.userId input.type) = true
  · rw [upsertPreference, if_pos hany, findOne, find_updateWhere, ← findOne]
    · cases hfound : findOne input.tenantId input.userId type preferences with
      | none => rfl
      | some row =>
        have hrow : ¬ isPreferenceOf input.tenantId input.userId input.type row = true := by
          intro hmatches
          have hfirst := isPreferenceOf_eq_true.mp (List.find?_some hfound)
          exact htype (hfirst.2.2.symm.trans (isPreferenceOf_eq_true.mp hmatches).2.2)
        rw [Option.map_some, if_neg hrow]
    · intro other
      rfl
  · rw [upsertPreference, if_neg hany, findOne, List.find?_append]
    have hnew : ¬ isPreferenceOf input.tenantId input.userId type
        (input.written none) = true := by
      rw [isPreferenceOf_eq_true]
      exact fun hmatches ↦ htype hmatches.2.2.symm
    exact (congrArg _ (List.find?_cons_of_neg hnew)).trans Option.or_none

/-! ### What a change reaches -/

/-- The table after the change of one channel for a type. -/
abbrev changedTo (tenantId userId : Uuid) (changed : String) (channel : NotificationChannel)
    (enabled : Bool) (preferences : List NotificationPreference) : List NotificationPreference :=
  upsertPreference (setChannel tenantId userId changed enabled channel) preferences

/-- The row of the type after the change. -/
theorem findOne_changed_self :
    findOne tenantId userId changed (changedTo tenantId userId changed channel enabled preferences) =
      some ((setChannel tenantId userId changed enabled channel).written
        (findOne tenantId userId changed preferences)) := by
  simpa only [setChannel_tenantId, setChannel_userId, setChannel_type] using
    findOne_upsert_self (setChannel tenantId userId changed enabled channel) preferences

/-- The rows of the other types after the change. -/
theorem findOne_changed_of_ne (htype : type ≠ changed) :
    findOne tenantId userId type (changedTo tenantId userId changed channel enabled preferences) =
      findOne tenantId userId type preferences := by
  have hscope : type ≠ (setChannel tenantId userId changed enabled channel).type := by
    rwa [setChannel_type]
  simpa only [setChannel_tenantId, setChannel_userId] using
    findOne_upsert_of_ne (setChannel tenantId userId changed enabled channel) preferences hscope

/-- Assumes: another type has a row of its own. No setting of it changes. -/
theorem resolve_changed_of_own {read : NotificationChannel} (htype : type ≠ changed)
    (hown : findOne tenantId userId type preferences = some preference) :
    resolve tenantId userId type read
        (changedTo tenantId userId changed channel enabled preferences) =
      resolve tenantId userId type read preferences := by
  rw [resolve_of_own hown, resolve_of_own ((findOne_changed_of_ne htype).trans hown)]

/-- The other channel of another type does not change. -/
theorem resolve_other_of_ne (htype : type ≠ changed) :
    resolve tenantId userId type channel.other
        (changedTo tenantId userId changed channel enabled preferences) =
      resolve tenantId userId type channel.other preferences := by
  rw [resolve_eq, resolve_eq, findOne_changed_of_ne htype]
  cases findOne tenantId userId type preferences with
  | some own => rfl
  | none =>
    rw [Option.none_or, Option.none_or]
    by_cases hwildcard : "*" = changed
    · rw [hwildcard, findOne_changed_self, Option.map_some, Option.getD_some, field_other_written]
    · rw [findOne_changed_of_ne hwildcard]

/-- What the other channel of the type itself is set to after the change. -/
theorem resolve_other_self :
    resolve tenantId userId changed channel.other
        (changedTo tenantId userId changed channel enabled preferences) =
      ((findOne tenantId userId changed preferences).map fun row ↦ row.field channel.other).getD
        true := by
  rw [resolve_of_own findOne_changed_self, field_other_written]

/-! ### The change and the rest -/

/-- The change of one channel for a type leaves the rest alone: the other channel for every type, and the
channel itself for every other type that has a row of its own. -/
structure LeavesTheRest (tenantId userId : Uuid) (changed : String) (channel : NotificationChannel)
    (enabled : Bool) (preferences : List NotificationPreference) : Prop where
  other : ∀ type, resolve tenantId userId type channel.other
      (changedTo tenantId userId changed channel enabled preferences) =
    resolve tenantId userId type channel.other preferences
  own : ∀ type ≠ changed, (findOne tenantId userId type preferences).isSome →
    resolve tenantId userId type channel
        (changedTo tenantId userId changed channel enabled preferences) =
      resolve tenantId userId type channel preferences

/-- A change leaves the other channel of its type alone exactly if it is made to the wildcard row, the type
has a row already, or the wildcard row does not disable the other channel. -/
theorem resolve_other_self_iff (tenantId userId : Uuid) (changed : String) (channel : NotificationChannel)
    (enabled : Bool) (preferences : List NotificationPreference) :
    resolve tenantId userId changed channel.other
        (changedTo tenantId userId changed channel enabled preferences) =
      resolve tenantId userId changed channel.other preferences ↔
        changed = "*" ∨ (findOne tenantId userId changed preferences).isSome ∨
          ∀ wildcard ∈ findOne tenantId userId "*" preferences, wildcard.field channel.other = true := by
  rw [resolve_other_self, resolve_eq]
  cases hfound : findOne tenantId userId changed preferences with
  | some own => simp
  | none =>
    rw [Option.none_or]
    cases hwildcard : findOne tenantId userId "*" preferences with
    | none => simp
    | some wildcard =>
      have hspecific : changed ≠ "*" := by
        rintro rfl
        rw [hfound] at hwildcard
        cases hwildcard
      constructor
      · intro hsame
        exact .inr (.inr fun found hmem ↦ Option.mem_some_iff.mp hmem ▸ hsame.symm)
      · rintro (hchanged | hfound | hallowed)
        · exact absurd hchanged hspecific
        · cases hfound
        · exact (hallowed wildcard rfl).symm

/-- A change leaves the rest alone exactly if it is made to the wildcard row, the type has a row already,
or the wildcard row does not disable the other channel. -/
theorem leavesTheRest_iff (tenantId userId : Uuid) (changed : String) (channel : NotificationChannel)
    (enabled : Bool) (preferences : List NotificationPreference) :
    LeavesTheRest tenantId userId changed channel enabled preferences ↔
      changed = "*" ∨ (findOne tenantId userId changed preferences).isSome ∨
        ∀ wildcard ∈ findOne tenantId userId "*" preferences, wildcard.field channel.other = true := by
  have hself := resolve_other_self_iff tenantId userId changed channel enabled preferences
  constructor
  · intro hleaves
    exact hself.mp (hleaves.other changed)
  · intro hcondition
    constructor
    · intro type
      by_cases htype : type = changed
      · rw [htype]
        exact hself.mpr hcondition
      · exact resolve_other_of_ne htype
    · intro type htype hown
      obtain ⟨own, hfound⟩ := Option.isSome_iff_exists.mp hown
      exact resolve_changed_of_own htype hfound

/-- The master switch of a user who has turned all e-mails off. -/
def noEmails : NotificationPreference where
  tenantId := 1
  userId := 7
  type := "*"
  email := false

/-- Changing one preference does not leave the rest: the user turns the in-app channel of one type off,
and gets e-mails for it from then on, although the master switch has turned them off. -/
theorem masterSwitch_bypassed :
    ¬ ∀ (tenantId userId : Uuid) (changed : String) (channel : NotificationChannel) (enabled : Bool)
      (preferences : List NotificationPreference),
        LeavesTheRest tenantId userId changed channel enabled preferences := by
  intro halways
  have hkept := (halways 1 7 "WORKSPACE_INVITATION" .inApp false [noEmails]).other "WORKSPACE_INVITATION"
  exact absurd hkept (by decide)

end RallyApi.Notifications

import RallyApi.Concurrency.Interleaving

/-!
# What the calls of a system return

`Config.returns` counts the calls that have returned a value. Each step of the system adds at most one
(`returns_step_le`). So a value that spends something, and is only returned while that is unspent, is
returned at most once (`returns_le_one`).

The condition on a run may speak of the configurations before and after each of its steps
(`ReachableThrough`), where the label of the step does not say which call ends.
-/

set_option autoImplicit false
set_option relaxedAutoImplicit false

namespace RallyApi.Concurrency

variable {Db Label Failure α Request : Type}

/-- What a call has returned. -/
def Call.returned : Call Db Label Failure α → Option α
  | .done (.ok value) => some value
  | _ => none

/-- How many calls have returned the value. -/
def Config.returns [DecidableEq α] (config : Config Db Label Failure α) (value : α) : ℕ :=
  config.calls.countP fun call ↦ call.returned = some value

/-- The configurations reached by steps that all meet a condition. -/
def ReachableThrough (serve : Request → Call Db Label Failure α)
    (condition : Config Db Label Failure α → Config Db Label Failure α → Prop) (db : Db) :
    Config Db Label Failure α → Prop :=
  Relation.ReflTransGen (fun before after ↦ Step serve anyStep before after ∧ condition before after)
    (Config.initial db)

variable {serve : Request → Call Db Label Failure α} {permits : World Db Label → Label → Prop}
  {condition : Config Db Label Failure α → Config Db Label Failure α → Prop} {db : Db}

theorem Call.returned_eq_some {call : Call Db Label Failure α} {value : α} :
    call.returned = some value ↔ call = .done (.ok value) := by
  cases call with
  | done outcome => cases outcome <;> simp [Call.returned]
  | step label act next => simp [Call.returned]

/-- The call with a number that has returned something is done. -/
theorem getElem?_of_returned {config : Config Db Label Failure α} {number : ℕ} {value : α}
    (hreturned : config.calls[number]?.bind Call.returned = some value) :
    config.calls[number]? = some (.done (.ok value)) := by
  obtain ⟨call, hcall, hvalue⟩ := Option.bind_eq_some_iff.mp hreturned
  rw [hcall, Call.returned_eq_some.mp hvalue]

/-- A condition only takes runs away. -/
theorem ReachableThrough.reachable {config : Config Db Label Failure α}
    (hrun : ReachableThrough serve condition db config) : Reachable serve anyStep db config :=
  Relation.ReflTransGen.mono (fun _ _ h ↦ h.1) _ _ hrun

/-- Every step of a schedule meets a condition. -/
def Config.MeetsAll (serve : Request → Call Db Label Failure α)
    (condition : Config Db Label Failure α → Config Db Label Failure α → Prop) :
    Config Db Label Failure α → List (Choice Request) → Prop
  | _, [] => True
  | config, choice :: rest => condition config (config.follow serve choice) ∧
      (config.follow serve choice).MeetsAll serve condition rest

instance Config.decidableMeetsAll [∀ before after, Decidable (condition before after)] :
    (config : Config Db Label Failure α) → (choices : List (Choice Request)) →
      Decidable (config.MeetsAll serve condition choices)
  | _, [] => .isTrue trivial
  | config, choice :: rest =>
    have := Config.decidableMeetsAll (config.follow serve choice) rest
    inferInstanceAs (Decidable (_ ∧ _))

/-- A schedule whose steps all meet a condition is such a run. -/
theorem play_reachableThrough {choices : List (Choice Request)}
    (hmeets : (Config.initial db).MeetsAll serve condition choices) :
    ReachableThrough serve condition db ((Config.initial db).play serve choices) := by
  suffices hgeneral : ∀ config : Config Db Label Failure α, config.MeetsAll serve condition choices →
      Relation.ReflTransGen
        (fun before after ↦ Step serve anyStep before after ∧ condition before after) config
        (config.play serve choices) from hgeneral _ hmeets
  clear hmeets
  induction choices with
  | nil => exact fun _ _ ↦ .refl
  | cons choice rest ih =>
    intro config hmeets
    obtain ⟨hfirst, hrest⟩ := hmeets
    refine Relation.ReflTransGen.trans ?_ (ih _ hrest)
    cases choice with
    | start request => exact .single ⟨.start config request, hfirst⟩
    | resume number =>
      simp only [Config.follow] at hfirst ⊢
      split at hfirst
      · rename_i hcall
        exact .single ⟨.resume config number _ _ _ hcall trivial, hfirst⟩
      · exact .refl

/-- Replacing one element adds at most one that meets a condition. -/
theorem countP_set_le {β : Type} (property : β → Bool) (elements : List β) (index : ℕ) (element : β) :
    (elements.set index element).countP property ≤ elements.countP property + 1 := by
  induction elements generalizing index with
  | nil => exact Nat.zero_le _
  | cons head rest ih =>
    cases index with
    | zero =>
      simp only [List.set_cons_zero, List.countP_cons]
      split_ifs <;> omega
    | succ index =>
      have hrest := ih index
      simp only [List.set_cons_succ, List.countP_cons]
      omega

variable [DecidableEq α] {value : α}

/-- One more call has returned the value after a step, at most. -/
theorem returns_step_le {before after : Config Db Label Failure α}
    (hstep : Step serve permits before after) : after.returns value ≤ before.returns value + 1 := by
  cases hstep with
  | start request =>
    have hone := List.countP_le_length
      (p := fun call : Call Db Label Failure α ↦ decide (call.returned = some value))
      (l := [serve request])
    simp only [Config.returns, List.countP_append]
    exact Nat.add_le_add_left hone _
  | resume number label act next hcall hpermits => exact countP_set_le _ _ _ _

/-- Some call has returned a value that is counted. -/
theorem exists_of_returns_pos {config : Config Db Label Failure α} (hpos : 0 < config.returns value) :
    ∃ call ∈ config.calls, call.returned = some value := by
  obtain ⟨call, hcall, hreturned⟩ := List.countP_pos_iff.mp hpos
  exact ⟨call, hcall, of_decide_eq_true hreturned⟩

/-- Assumes: in every reachable configuration, once the value has been returned something is spent;
and a step after which one more call has returned the value finds it unspent. The value is returned
at most once. -/
theorem returns_le_one {spent : Db → Prop}
    (hspent : ∀ config, Reachable serve anyStep db config → 0 < config.returns value →
      spent config.db)
    (hunspent : ∀ before after, condition before after → before.returns value < after.returns value →
      ¬ spent before.db)
    {config : Config Db Label Failure α} (hrun : ReachableThrough serve condition db config) :
    config.returns value ≤ 1 := by
  induction hrun with
  | refl => exact Nat.zero_le 1
  | @tail before after hprefix hlast ih =>
    obtain ⟨hstep, hcondition⟩ := hlast
    by_cases hmore : before.returns value < after.returns value
    · have hfirst : before.returns value = 0 := by
        refine Nat.eq_zero_of_not_pos fun hpos ↦ hunspent before after hcondition hmore ?_
        exact hspent before (ReachableThrough.reachable hprefix) hpos
      calc after.returns value
        _ ≤ before.returns value + 1 := returns_step_le hstep
        _ = 1 := by rw [hfirst]
    · exact Nat.le_trans (Nat.le_of_not_lt hmore) ih

end RallyApi.Concurrency

import Mathlib.Data.Nat.Notation
import Mathlib.Logic.Relation
import RallyApi.Concurrency.Call

/-!
# Interleavings of calls

A configuration is a store, the calls started so far and the history of the steps taken, most
recent first. It changes in two ways: a client starts a call, or one of the calls in flight takes
its next atomic step. Every interleaving of any number of calls is a path of `Step`.

A run may be restricted by a condition on its steps, `permits`, which sees the store and the
history a step finds and the label of the step. The unrestricted system permits every step.

`Config.play` follows a list of scheduling choices, so a concrete interleaving can be computed;
`play_reachable` turns it into a path, when `permits` allows each of its steps. `reachable_keeps` is
the invariant rule for invariants that every possible step of every call keeps, whatever the call has
read before.
-/

set_option autoImplicit false
set_option relaxedAutoImplicit false

namespace RallyApi.Concurrency

/-- A store and the history of the labelled steps that led to it, most recent first, each with the
number of the call that took it. -/
structure World (Db Label : Type) where
  db : Db
  log : List (ℕ × Label)

/-- A world together with the calls started so far; a call keeps its number. -/
structure Config (Db Label Failure α : Type) extends World Db Label where
  calls : List (Call Db Label Failure α)

/-- The world after call `number` has taken a step. -/
def World.after {Db Label : Type} (world : World Db Label) (number : ℕ) (label : Label)
    (db : Db) : World Db Label :=
  ⟨db, (number, label) :: world.log⟩

/-- The labels of the steps call `number` has taken, most recent first. -/
def World.history {Db Label : Type} (world : World Db Label) (number : ℕ) : List Label :=
  (world.log.filter fun entry ↦ entry.1 = number).map Prod.snd

/-- A step in the history with another label than the last one was taken before it. -/
theorem mem_log_of_ne {Db Label : Type} {world : World Db Label} {number : ℕ} {label : Label}
    {after : Db} {entry : ℕ × Label} (hentry : entry ∈ (world.after number label after).log)
    (hne : entry.2 ≠ label) : entry ∈ world.log := by
  rcases List.mem_cons.mp hentry with rfl | hold
  · exact absurd rfl hne
  · exact hold

section History

variable {Db Label : Type} (world : World Db Label) (number other : ℕ) (label : Label) (after : Db)

@[simp]
theorem history_after_self :
    (world.after number label after).history number = label :: world.history number := by
  simp [World.history, World.after]

variable {number other}

@[simp]
theorem history_after_of_ne (hne : other ≠ number) :
    (world.after other label after).history number = world.history number := by
  simp [World.history, World.after, hne]

variable {world label after}

theorem mem_history : label ∈ world.history number ↔ (number, label) ∈ world.log := by
  simp [World.history]

/-- The labels of one call after a step of another or the same call. -/
theorem mem_history_after {new : Label} :
    label ∈ (world.after other new after).history number ↔
      other = number ∧ label = new ∨ label ∈ world.history number := by
  rw [mem_history, mem_history, World.after, List.mem_cons, Prod.mk.injEq, eq_comm (a := number)]

end History

section Runs

variable {Db Label Failure α Request : Type}

/-- The configuration of a store nobody has called yet. -/
def Config.initial (db : Db) : Config Db Label Failure α := ⟨⟨db, []⟩, []⟩

/-- One step of the system: a client starts the call that serves a request, or a call in flight
takes its next atomic step, which `permits` must allow. -/
inductive Step (serve : Request → Call Db Label Failure α)
    (permits : World Db Label → Label → Prop) :
    Config Db Label Failure α → Config Db Label Failure α → Prop
  | start (config : Config Db Label Failure α) (request : Request) :
    Step serve permits config { config with calls := config.calls ++ [serve request] }
  | resume (config : Config Db Label Failure α) (number : ℕ) (label : Db → Label) (act : Db → Db)
      (next : Db → Call Db Label Failure α)
      (hcall : config.calls[number]? = some (.step label act next))
      (hpermits : permits config.toWorld (label config.db)) :
    Step serve permits config
      { toWorld := config.after number (label config.db) (act config.db)
        calls := config.calls.set number (next config.db) }

/-- No step is excluded. -/
def anyStep : World Db Label → Label → Prop := fun _ _ ↦ True

/-- The configurations reached from a store nobody has called yet. -/
def Reachable (serve : Request → Call Db Label Failure α)
    (permits : World Db Label → Label → Prop) (db : Db) : Config Db Label Failure α → Prop :=
  Relation.ReflTransGen (Step serve permits) (Config.initial db)

variable {serve : Request → Call Db Label Failure α} {permits : World Db Label → Label → Prop}

/-! ### Concrete interleavings -/

/-- A scheduling choice: start a call, or let the call with this number take a step. -/
inductive Choice (Request : Type)
  | start (request : Request)
  | resume (number : ℕ)

/-- Lets a call take up to twenty steps, enough to let it end. -/
def finish {Request : Type} (number : ℕ) : List (Choice Request) :=
  List.replicate 20 (.resume number)

/-- Follows one scheduling choice. Resuming a call that is finished or unknown does nothing. -/
def Config.follow (serve : Request → Call Db Label Failure α)
    (config : Config Db Label Failure α) : Choice Request → Config Db Label Failure α
  | .start request => { config with calls := config.calls ++ [serve request] }
  | .resume number =>
    match config.calls[number]? with
    | some (.step label act next) =>
      { toWorld := config.after number (label config.db) (act config.db)
        calls := config.calls.set number (next config.db) }
    | _ => config

/-- Follows a list of scheduling choices. -/
def Config.play (serve : Request → Call Db Label Failure α)
    (config : Config Db Label Failure α) (choices : List (Choice Request)) :
    Config Db Label Failure α :=
  choices.foldl (Config.follow serve) config

/-- The label of the step a scheduling choice leads to, if it leads to one. -/
def Config.nextLabel (config : Config Db Label Failure α) : Choice Request → Option Label
  | .start _ => none
  | .resume number =>
    match config.calls[number]? with
    | some (.step label _ _) => some (label config.db)
    | _ => none

/-- `permits` allows every step of a schedule. -/
def Config.AllowsAll (serve : Request → Call Db Label Failure α)
    (permits : World Db Label → Label → Prop) :
    Config Db Label Failure α → List (Choice Request) → Prop
  | _, [] => True
  | config, choice :: rest =>
    (∀ label ∈ config.nextLabel choice, permits config.toWorld label) ∧
      (config.follow serve choice).AllowsAll serve permits rest

instance Config.decidableAllowsAll [∀ world label, Decidable (permits world label)] :
    (config : Config Db Label Failure α) → (choices : List (Choice Request)) →
      Decidable (config.AllowsAll serve permits choices)
  | _, [] => .isTrue trivial
  | config, choice :: rest =>
    have := Config.decidableAllowsAll (config.follow serve choice) rest
    inferInstanceAs (Decidable (_ ∧ _))

/-- Resuming a call that can take an allowed step is a step of the system. -/
theorem step_follow {config : Config Db Label Failure α} {number : ℕ} {label : Label}
    (hlabel : config.nextLabel (.resume number : Choice Request) = some label)
    (hallowed : permits config.toWorld label) :
    Step serve permits config (config.follow serve (.resume number)) := by
  simp only [Config.nextLabel] at hlabel
  simp only [Config.follow]
  split at hlabel
  · rename_i hcall
    obtain rfl := Option.some.inj hlabel
    exact .resume config number _ _ _ hcall hallowed
  · cases hlabel

/-- A schedule whose steps are all allowed is a path of the system. -/
theorem play_reachable {config : Config Db Label Failure α} {choices : List (Choice Request)}
    (hallowed : config.AllowsAll serve permits choices) :
    Relation.ReflTransGen (Step serve permits) config (config.play serve choices) := by
  induction choices generalizing config with
  | nil => exact .refl
  | cons choice rest ih =>
    refine Relation.ReflTransGen.trans ?_ (ih hallowed.2)
    have hfirst := hallowed.1
    cases choice with
    | start request => exact .single (.start config request)
    | resume number =>
      cases hlabel : config.nextLabel (.resume number : Choice Request) with
      | some label => exact .single (step_follow hlabel (hfirst label hlabel))
      | none =>
        simp only [Config.nextLabel] at hlabel
        simp only [Config.follow]
        split at hlabel
        · cases hlabel
        · exact .refl

/-- Every schedule is allowed in the unrestricted system. -/
theorem allowsAll_anyStep (config : Config Db Label Failure α) (choices : List (Choice Request)) :
    config.AllowsAll serve anyStep choices := by
  induction choices generalizing config with
  | nil => trivial
  | cons choice rest ih => exact ⟨fun _ _ ↦ trivial, ih _⟩

/-! ### Invariants of every possible step -/

/-- Assumes: every step of every call is bounded by `relation`. A call in flight is bounded too. -/
theorem reachable_only {relation : Db → Label → Db → Prop}
    (honly : ∀ request, (serve request).Only relation) {db : Db}
    {config : Config Db Label Failure α} (hreach : Reachable serve permits db config) :
    ∀ call ∈ config.calls, call.Only relation := by
  induction hreach with
  | refl => simp [Config.initial]
  | tail _ hstep ih =>
    cases hstep with
    | start request =>
      intro call hcall
      rcases List.mem_append.mp hcall with hold | hnew
      · exact ih call hold
      · exact List.mem_singleton.mp hnew ▸ honly request
    | resume number label act next hcall _ =>
      intro call hmem
      rcases List.mem_or_eq_of_mem_set hmem with hold | rfl
      · exact ih call hold
      · exact (ih _ (List.mem_of_getElem? hcall) _).2

/-- Assumes: every step of every call is bounded by `relation`. Then so is every step the system
takes: it starts a call and leaves the world alone, or it relates the stores by `relation`. -/
theorem step_cases {relation : Db → Label → Db → Prop}
    (honly : ∀ request, (serve request).Only relation) {db : Db}
    {config after : Config Db Label Failure α} (hreach : Reachable serve permits db config)
    (hstep : Step serve permits config after) :
    after.toWorld = config.toWorld ∨
      ∃ number label, permits config.toWorld label ∧ relation config.db label after.db ∧
        after.toWorld = config.after number label after.db := by
  cases hstep with
  | start request => exact .inl rfl
  | resume number label act next hcall hpermits =>
    have hbound := (reachable_only honly hreach _ (List.mem_of_getElem? hcall) config.db).1
    exact .inr ⟨number, label config.db, hpermits, hbound, rfl⟩

/-- The invariant rule. Assumes: every step of every call is bounded by `relation`; the invariant
holds of the initial world; and a permitted step bounded by `relation` keeps it. The invariant
holds of every reachable world. -/
theorem reachable_keeps {relation : Db → Label → Db → Prop}
    (honly : ∀ request, (serve request).Only relation) (invariant : World Db Label → Prop) {db : Db}
    (hinitial : invariant ⟨db, []⟩)
    (hkeeps : ∀ world number label after, invariant world → permits world label →
      relation world.db label after → invariant (world.after number label after))
    {config : Config Db Label Failure α} (hreach : Reachable serve permits db config) :
    invariant config.toWorld := by
  induction hreach with
  | refl => exact hinitial
  | tail hprefix hstep ih =>
    rcases step_cases honly hprefix hstep with hsame | ⟨number, label, hpermits, hbound, hafter⟩
    · exact hsame ▸ ih
    · exact hafter ▸ hkeeps _ number label _ ih hpermits hbound

end Runs

end RallyApi.Concurrency

import RallyApi.Concurrency.Part
import RallyApi.Concurrency.RelyGuarantee

/-!
# Labels that record what a step does

The label of a step may say too little for a proof: whether it has drawn an identifier, for instance.
`Call.traced` relabels each step of a call by what is seen of it, the store it finds, its label and the
store it leaves, and changes nothing else. It goes along the text of a call (`traced_bind`), and what bounds
the steps of the call bounds them under the new labels (`Only.traced`).

`Call.relabelled` only renames the labels. A run of the calls is one of the calls with their labels renamed
(`reachable_relabelled`), so that one system can be seen under labels of its own by each result about it.
-/

set_option autoImplicit false
set_option relaxedAutoImplicit false

namespace RallyApi.Concurrency

namespace Call

variable {Db Label Seen Failure α β : Type} {observe : Db → Label → Db → Seen}
  {call : Call Db Label Failure α}

/-- The call, with each step labelled by what is seen of it. -/
def traced (observe : Db → Label → Db → Seen) : Call Db Label Failure α → Call Db Seen Failure α
  | done outcome => done outcome
  | step label act next =>
    step (fun db ↦ observe db (label db) (act db)) act fun db ↦ (next db).traced observe

@[simp]
theorem traced_bind (rest : α → Call Db Label Failure β) :
    (call >>= rest).traced observe =
      call.traced observe >>= fun value ↦ (rest value).traced observe := by
  induction call with
  | done outcome => cases outcome <;> rfl
  | step label act next ih => simp only [bind_step, traced, ih]

@[simp]
theorem traced_map (f : α → β) : (f <$> call).traced observe = f <$> call.traced observe :=
  traced_bind _

@[simp]
theorem traced_require (value : Option α) (failure : Failure) :
    (require value failure : Call Db Label Failure α).traced observe = require value failure := by
  cases value <;> rfl

@[simp]
theorem traced_ensure (condition : Prop) [Decidable condition] (failure : Failure) :
    (ensure condition failure : Call Db Label Failure Unit).traced observe =
      ensure condition failure := by
  unfold ensure
  split_ifs <;> rfl

/-- What bounds the steps of a call bounds them under the new labels. -/
theorem Only.traced {relation : Db → Label → Db → Prop} {wider : Db → Seen → Db → Prop}
    (hcall : call.Only relation)
    (hwider : ∀ db label after, relation db label after → wider db (observe db label after) after) :
    (call.traced observe).Only wider := by
  induction call with
  | done outcome => trivial
  | step label act next ih => exact fun db ↦ ⟨hwider db _ _ (hcall db).1, ih db (hcall db).2⟩

/-! ### Renamed labels -/

/-- The call, with its labels renamed. -/
def relabelled (rename : Label → Seen) (call : Call Db Label Failure α) : Call Db Seen Failure α :=
  call.traced fun _ label _ ↦ rename label

variable {rename : Label → Seen}

@[simp]
theorem relabelled_map (f : α → β) : (f <$> call).relabelled rename = f <$> call.relabelled rename :=
  traced_map f

/-- Two renamings in a row are one. -/
theorem relabelled_relabelled {Shown : Type} (again : Seen → Shown) :
    (call.relabelled rename).relabelled again = call.relabelled fun label ↦ again (rename label) := by
  simp only [relabelled]
  induction call with
  | done outcome => rfl
  | step label act next ih => simp only [traced, ih]

/-- A renaming that changes nothing. -/
theorem relabelled_id : call.relabelled (fun label ↦ label) = call := by
  rw [relabelled]
  induction call with
  | done outcome => rfl
  | step label act next ih => simp only [traced, ih]

/-- The labels of a call within a larger store, renamed. -/
theorem relabelled_within {Sub SubLabel : Type} {part : Part Db Sub} {relabel : SubLabel → Label}
    (call : Call Sub SubLabel Failure α) :
    (call.within part relabel).relabelled rename =
      call.within part fun label ↦ rename (relabel label) := by
  rw [relabelled]
  induction call with
  | done outcome => rfl
  | step label act next ih => simp only [within, traced, ih]

end Call

/-- The configuration, with the labels of its history and of its calls renamed. -/
def Config.relabelled {Db Label Seen Failure α : Type} (rename : Label → Seen)
    (config : Config Db Label Failure α) : Config Db Seen Failure α where
  db := config.db
  log := config.log.map fun entry ↦ (entry.1, rename entry.2)
  calls := config.calls.map (Call.relabelled rename)

section Renamed

variable {Db Label Seen Failure α Request : Type} {serve : Request → Call Db Label Failure α}
  {permits : World Db Label → Label → Prop}

/-- A step is one of the calls with their labels renamed. -/
theorem Step.relabelled {config after : Config Db Label Failure α} (rename : Label → Seen)
    (hstep : Step serve permits config after) :
    Step (fun request ↦ (serve request).relabelled rename) anyStep (config.relabelled rename)
      (after.relabelled rename) := by
  cases hstep with
  | start request =>
    simp only [Config.relabelled, List.map_append, List.map_singleton]
    exact .start (config.relabelled rename) request
  | resume number label act next hcall _ =>
    have hrenamed : (config.relabelled rename).calls[number]? =
        some (.step (fun db ↦ rename (label db)) act fun db ↦ (next db).relabelled rename) := by
      simp only [Config.relabelled, List.getElem?_map, hcall]
      rfl
    simp only [Config.relabelled, World.after, List.map_cons, List.map_set]
    exact .resume (config.relabelled rename) number _ _ _ hrenamed trivial

/-- A run is one of the calls with their labels renamed. -/
theorem reachable_relabelled {db : Db} {config : Config Db Label Failure α} (rename : Label → Seen)
    (hreach : Reachable serve permits db config) :
    Reachable (fun request ↦ (serve request).relabelled rename) anyStep db (config.relabelled rename) := by
  induction hreach with
  | refl => exact .refl
  | tail _ hstep ih => exact ih.tail (hstep.relabelled rename)

end Renamed

namespace Protocol

variable {Db Label Seen Failure α : Type} {protocol : Protocol Db Seen} {number : ℕ}
  {observe : Db → Label → Db → Seen} {assertion : World Db Seen → Prop}
  {post : α → World Db Seen → Prop}

/-- One atomic read, as `meets_query`. -/
theorem meets_traced_query {label : Label} {read : Db → α} (hstable : protocol.Stable number assertion)
    (hstep : ∀ world, protocol.invariant world → assertion world →
      protocol.Keeps number world (observe world.db label world.db) world.db ∧
        post (read world.db) (world.after number (observe world.db label world.db) world.db)) :
    protocol.Meets number ((Call.query label read : Call Db Label Failure α).traced observe) assertion
      post := by
  refine ⟨assertion, hstable, fun _ _ h ↦ h, fun world hinv hassertion _ ↦ ?_⟩
  obtain ⟨hkeeps, hpost⟩ := hstep world hinv hassertion
  exact ⟨hkeeps, fun _ _ heq ↦ heq ▸ hpost⟩

/-- One atomic step, as `meets_atomically`. -/
theorem meets_traced_atomically {label : Db → Label} {statement : Db → α × Db}
    (hstable : protocol.Stable number assertion)
    (hstep : ∀ world, protocol.invariant world → assertion world →
      protocol.Keeps number world (observe world.db (label world.db) (statement world.db).2)
          (statement world.db).2 ∧
        post (statement world.db).1 (world.after number
          (observe world.db (label world.db) (statement world.db).2) (statement world.db).2)) :
    protocol.Meets number ((Call.atomically label statement : Call Db Label Failure α).traced observe)
      assertion post := by
  refine ⟨assertion, hstable, fun _ _ h ↦ h, fun world hinv hassertion _ ↦ ?_⟩
  obtain ⟨hkeeps, hpost⟩ := hstep world hinv hassertion
  exact ⟨hkeeps, fun _ _ heq ↦ heq ▸ hpost⟩

/-- One atomic step that may fail, as `meets_attempt`. -/
theorem meets_traced_attempt {label : Db → Label} {statement : Db → Except Failure (α × Db)}
    (hstable : protocol.Stable number assertion)
    (hfail : ∀ world failure, protocol.invariant world → assertion world →
      statement world.db = .error failure →
      protocol.Keeps number world (observe world.db (label world.db) world.db) world.db)
    (hok : ∀ world value after, protocol.invariant world → assertion world →
      protocol.permits world (observe world.db (label world.db) after) →
      statement world.db = .ok (value, after) →
      protocol.Keeps number world (observe world.db (label world.db) after) after ∧
        post value (world.after number (observe world.db (label world.db) after) after)) :
    protocol.Meets number ((Call.attempt label statement).traced observe) assertion post := by
  refine ⟨assertion, hstable, fun _ _ h ↦ h, fun world hinv hassertion hpermits ↦ ?_⟩
  dsimp only at hpermits ⊢
  cases hstatement : statement world.db with
  | error failure => exact ⟨hfail world failure hinv hassertion hstatement, trivial⟩
  | ok result =>
    simp only [hstatement] at hpermits
    obtain ⟨hkeeps, hpost⟩ := hok world result.1 result.2 hinv hassertion hpermits hstatement
    exact ⟨hkeeps, fun _ _ heq ↦ heq ▸ hpost⟩

/-- A transaction, as `meets_transaction`. -/
theorem meets_traced_transaction {rolledBack : Label} {label : α → Label}
    {statements : Db → Except Failure (α × Db)} (hstable : protocol.Stable number assertion)
    (hrolledBack : ∀ world, protocol.invariant world → assertion world →
      protocol.Keeps number world (observe world.db rolledBack world.db) world.db)
    (hcommit : ∀ world value after, protocol.invariant world → assertion world →
      protocol.permits world (observe world.db (label value) after) →
      statements world.db = .ok (value, after) →
      protocol.Keeps number world (observe world.db (label value) after) after ∧
        post value (world.after number (observe world.db (label value) after) after)) :
    protocol.Meets number ((Call.transaction rolledBack label statements).traced observe) assertion
      post := by
  refine meets_traced_attempt hstable (fun world failure hinv hassertion hfailure ↦ ?_)
    fun world value after hinv hassertion hpermits hok ↦ ?_
  · simp only [hfailure]
    exact hrolledBack world hinv hassertion
  · simp only [hok] at hpermits ⊢
    exact hcommit world value after hinv hassertion hpermits hok

end Protocol

end RallyApi.Concurrency

import RallyApi.Concurrency.Interleaving

/-!
# One call amid others

What one call does when others run in between, without a word about who they are. `Surroundings` say
how the others may change the store between two steps of the call and what each of its own steps must
keep to; `Call.Amid` is the judgement that, from a view of the store, the call keeps to it and returns
only where the postcondition holds, whatever the others do within those bounds.

The judgement follows the text of the call: `amid_bind`, `amid_query`, `amid_attempt` and their kin.
`amid_of_only` passes over a part whose every step is bounded. `Amid.run` is the call that runs alone,
and `reachable_amid` is the system in which every call is verified this way and keeps what the others
rely on.
-/

set_option autoImplicit false
set_option relaxedAutoImplicit false

namespace RallyApi.Concurrency

/-- What a call has to go by: the store, and the labels of its own steps so far, most recent first. -/
structure View (Db Label : Type) where
  db : Db
  history : List Label

/-- The view after a step of the call. -/
def View.after {Db Label : Type} (view : View Db Label) (label : Label) (db : Db) : View Db Label :=
  ⟨db, label :: view.history⟩

/-- What surrounds a call: how the others may change the store before its next step, and how that step
must. -/
structure Surroundings (Db Label : Type) where
  rely : View Db Label → Db → Prop
  guarantee : Db → Label → Db → Prop

/-- The call runs alone, and its steps may do anything. -/
def Surroundings.alone {Db Label : Type} : Surroundings Db Label where
  rely view found := found = view.db
  guarantee _ _ _ := True

namespace Call

variable {Db Label Failure α β : Type}

/-- From the view, every step of the call keeps the guarantee and every result it returns meets the
postcondition, in the view it returns in, as long as the others keep to the rely. -/
def Amid (around : Surroundings Db Label) (post : α → View Db Label → Prop) :
    Call Db Label Failure α → View Db Label → Prop
  | done (.ok value), view => post value view
  | done (.error _), _ => True
  | step label act next, view => ∀ found, around.rely view found →
    around.guarantee found (label found) (act found) ∧
      (next found).Amid around post (view.after (label found) (act found))

variable {around : Surroundings Db Label} {post weaker : α → View Db Label → Prop}
  {view : View Db Label} {call : Call Db Label Failure α}

/-! ### Rules for the judgement -/

@[simp]
theorem amid_pure {value : α} :
    (pure value : Call Db Label Failure α).Amid around post view ↔ post value view := Iff.rfl

@[simp]
theorem amid_throw {failure : Failure} :
    (throw failure : Call Db Label Failure α).Amid around post view := trivial

@[simp]
theorem amid_require {value : Option α} {failure : Failure} :
    (require value failure : Call Db Label Failure α).Amid around post view ↔
      ∀ result, value = some result → post result view := by
  cases value with
  | none => exact ⟨fun _ _ h ↦ (nomatch h), fun _ ↦ trivial⟩
  | some result => exact ⟨fun h _ hsome ↦ Option.some.inj hsome ▸ h, fun h ↦ h result rfl⟩

@[simp]
theorem amid_ensure {condition : Prop} [Decidable condition] {failure : Failure}
    {post : Unit → View Db Label → Prop} :
    (ensure condition failure : Call Db Label Failure Unit).Amid around post view ↔
      (condition → post () view) := by
  unfold ensure
  split_ifs with hcondition
  · exact ⟨fun h _ ↦ h, fun h ↦ h hcondition⟩
  · exact ⟨fun _ h ↦ absurd h hcondition, fun _ ↦ trivial⟩

@[simp]
theorem amid_query {label : Label} {read : Db → α} :
    (query label read : Call Db Label Failure α).Amid around post view ↔
      ∀ found, around.rely view found →
        around.guarantee found label found ∧ post (read found) (view.after label found) := Iff.rfl

@[simp]
theorem amid_atomically {label : Db → Label} {statement : Db → α × Db} :
    (atomically label statement : Call Db Label Failure α).Amid around post view ↔
      ∀ found, around.rely view found →
        around.guarantee found (label found) (statement found).2 ∧
          post (statement found).1 (view.after (label found) (statement found).2) := Iff.rfl

/-- A step that may fail. Assumes: where it fails the guarantee is kept by a step that changes nothing,
and where it succeeds the guarantee is kept and the postcondition holds. -/
theorem amid_attempt {label : Db → Label} {statement : Db → Except Failure (α × Db)}
    (hfail : ∀ found failure, around.rely view found → statement found = .error failure →
      around.guarantee found (label found) found)
    (hok : ∀ found value after, around.rely view found → statement found = .ok (value, after) →
      around.guarantee found (label found) after ∧
        post value (view.after (label found) after)) :
    (attempt label statement).Amid around post view := by
  intro found hrely
  dsimp only
  cases hstatement : statement found with
  | error failure => exact ⟨hfail found failure hrely hstatement, trivial⟩
  | ok result => exact hok found result.1 result.2 hrely hstatement

/-- Sequencing: the continuation is judged from the view the call returns in. -/
@[simp]
theorem amid_bind {rest : α → Call Db Label Failure β} {post : β → View Db Label → Prop} :
    (call >>= rest).Amid around post view ↔
      call.Amid around (fun value after ↦ (rest value).Amid around post after) view := by
  induction call generalizing view with
  | done outcome =>
    cases outcome with
    | ok value => exact Iff.rfl
    | error failure => exact Iff.rfl
  | step label act next ih => simp only [bind_step, Amid, ih]

/-- The postcondition may be weakened. -/
theorem Amid.mono (hcall : call.Amid around post view)
    (hpost : ∀ value after, post value after → weaker value after) :
    call.Amid around weaker view := by
  induction call generalizing view with
  | done outcome =>
    cases outcome with
    | ok value => exact hpost value view hcall
    | error failure => trivial
  | step label act next ih =>
    intro found hrely
    obtain ⟨hguarantee, hnext⟩ := hcall found hrely
    exact ⟨hguarantee, ih found hnext⟩

/-- Mapping the result of a call. -/
theorem amid_map {f : α → β} {post : β → View Db Label → Prop} :
    (f <$> call).Amid around post view ↔
      call.Amid around (fun value after ↦ post (f value) after) view := amid_bind

/-- A call that returns its result as an option: what holds of the result. -/
theorem Amid.map_some (hcall : call.Amid around post view) :
    (some <$> call).Amid around
      (fun result after ↦ ∀ value, result = some value → post value after) view :=
  amid_map.mpr (hcall.mono fun _ _ hpost _ hvalue ↦ Option.some.inj hvalue ▸ hpost)

/-- A call that returns nothing meets any postcondition of a result. -/
theorem Amid.map_none {post : β → View Db Label → Prop}
    (hcall : call.Amid around (fun _ _ ↦ True) view) :
    ((fun _ ↦ none) <$> call : Call Db Label Failure (Option β)).Amid around
      (fun result after ↦ ∀ value, result = some value → post value after) view :=
  amid_map.mpr (hcall.mono fun _ _ _ _ hvalue ↦ nomatch hvalue)

/-- Sequencing, with the postcondition of the first call stated. -/
theorem Amid.bind {rest : α → Call Db Label Failure β} {middle : α → View Db Label → Prop}
    {post : β → View Db Label → Prop} (hcall : call.Amid around middle view)
    (hrest : ∀ value after, middle value after → (rest value).Amid around post after) :
    (call >>= rest).Amid around post view :=
  amid_bind.mpr (hcall.mono hrest)

/-- A part of which only the bound on its steps matters. Assumes: the others keep a property of views,
and so does a bounded step, which also keeps the guarantee. The property holds where the part returns,
and what it returns is something it can return. -/
theorem amid_of_only {relation : Db → Label → Db → Prop} {property : View Db Label → Prop}
    (hcall : call.Only relation)
    (hstep : ∀ view found label after, property view → around.rely view found →
      relation found label after →
        around.guarantee found label after ∧ property (view.after label after))
    (hview : property view) :
    call.Amid around (fun value after ↦ call.Returns value ∧ property after) view := by
  induction call generalizing view with
  | done outcome =>
    cases outcome with
    | ok value => exact ⟨rfl, hview⟩
    | error failure => trivial
  | step label act next ih =>
    intro found hfound
    obtain ⟨hbound, hnext⟩ := hcall found
    obtain ⟨hguarantee, hafter⟩ := hstep view found _ _ hview hfound hbound
    exact ⟨hguarantee, (ih found hnext hafter).mono fun _ _ h ↦ ⟨⟨found, h.1⟩, h.2⟩⟩

/-- Assumes: a bounded step keeps the guarantee. A call with such steps only returns something it can
return. -/
theorem amid_of_guaranteed {relation : Db → Label → Db → Prop} (hcall : call.Only relation)
    (hguarantee : ∀ found label after, relation found label after →
      around.guarantee found label after) :
    call.Amid around (fun value _ ↦ call.Returns value) view := by
  have hamid : call.Amid around (fun value _ ↦ call.Returns value ∧ True) view :=
    amid_of_only hcall (fun _ found label after _ _ h ↦ ⟨hguarantee found label after h, trivial⟩)
      trivial
  exact hamid.mono fun _ _ h ↦ h.1

/-- A call that runs alone returns something it can return. -/
theorem amid_alone (call : Call Db Label Failure α) (view : View Db Label) :
    call.Amid .alone (fun value _ ↦ call.Returns value) view :=
  amid_of_guaranteed (only_true call) fun _ _ _ h ↦ h

/-- A part that only reads, in a call that runs alone. -/
theorem amid_alone_of_reads (hcall : call.Only fun db _ after ↦ after = db) (view : View Db Label) :
    call.Amid .alone (fun _ after ↦ after.db = view.db) view := by
  have hamid : call.Amid .alone (fun value after ↦ call.Returns value ∧ after.db = view.db) view :=
    amid_of_only hcall (fun _ _ _ _ hview hfound hsame ↦
      ⟨trivial, hsame.trans (hfound.trans hview)⟩) rfl
  exact hamid.mono fun _ _ h ↦ h.2

/-- A read of a call that runs alone finds the store of its view. -/
@[simp]
theorem amid_alone_query {label : Label} {read : Db → α} :
    (query label read : Call Db Label Failure α).Amid .alone post view ↔
      post (read view.db) (view.after label view.db) :=
  ⟨fun h ↦ (h view.db rfl).2, fun h _ hfound ↦ hfound ▸ ⟨trivial, h⟩⟩

/-- Assumes: the others may leave the store as it is. A call that runs alone meets the
postcondition. -/
theorem Amid.run (hcall : call.Amid around post view)
    (hrely : ∀ view : View Db Label, around.rely view view.db) {value : α} {after : Db}
    (hrun : call.run view.db = (.ok value, after)) :
    ∃ history, post value ⟨after, history⟩ := by
  induction call generalizing view with
  | done outcome =>
    obtain ⟨rfl, rfl⟩ := Prod.mk.inj hrun
    exact ⟨view.history, hcall⟩
  | step label act next ih => exact ih view.db (hcall view.db (hrely view)).2 hrun

end Call

/-! ### Systems of such calls -/

section System

variable {Db Label Failure α Request : Type} {around : Surroundings Db Label}
  {post : α → View Db Label → Prop} {invariant : Db → Prop}
  {serve : Request → Call Db Label Failure α} {permits : World Db Label → Label → Prop}

/-- What lets calls verified one by one run together: a step of one, which keeps the guarantee, is
something the others rely on, before their next step and after they have returned. -/
structure Surroundings.Compatible (around : Surroundings Db Label)
    (post : α → View Db Label → Prop) (invariant : Db → Prop) : Prop where
  refl : ∀ view, invariant view.db → around.rely view view.db
  relies : ∀ view label after found, invariant view.db → around.guarantee view.db label after →
    around.rely ⟨after, view.history⟩ found → around.rely view found
  kept : ∀ db label after, invariant db → around.guarantee db label after → invariant after
  returned : ∀ value view label after, invariant view.db → around.guarantee view.db label after →
    post value view → post value ⟨after, view.history⟩

/-- A step of another call leaves the judgement as it is. -/
theorem Call.Amid.frame {call : Call Db Label Failure α} {view : View Db Label} {label : Label}
    {after : Db} (hcompatible : around.Compatible post invariant)
    (hcall : call.Amid around post view) (hinv : invariant view.db)
    (hguarantee : around.guarantee view.db label after) :
    call.Amid around post ⟨after, view.history⟩ := by
  cases call with
  | done outcome =>
    cases outcome with
    | ok value => exact hcompatible.returned value view label after hinv hguarantee hcall
    | error failure => trivial
  | step label act next =>
    intro found hrely
    exact hcall found (hcompatible.relies view _ after found hinv hguarantee hrely)

/-- Assumes: each step keeps what the others rely on; the invariant holds at the start; and the call of
every request is verified from every store of the invariant. In every reachable configuration the
invariant holds and every call in flight is still verified. -/
theorem reachable_amid (hcompatible : around.Compatible post invariant)
    (hserve : ∀ request db, invariant db → (serve request).Amid around post ⟨db, []⟩) {db : Db}
    (hinitial : invariant db) {config : Config Db Label Failure α}
    (hreach : Reachable serve permits db config) :
    invariant config.db ∧
      ∀ call ∈ config.calls, ∃ history, call.Amid around post ⟨config.db, history⟩ := by
  induction hreach with
  | refl => exact ⟨hinitial, by simp [Config.initial]⟩
  | @tail before _ _ hstep ih =>
    obtain ⟨hinv, hcalls⟩ := ih
    cases hstep with
    | start request =>
      refine ⟨hinv, fun call hcall ↦ ?_⟩
      rcases List.mem_append.mp hcall with hold | hnew
      · exact hcalls call hold
      · obtain rfl := List.mem_singleton.mp hnew
        exact ⟨[], hserve request before.db hinv⟩
    | resume number label act next hcall _ =>
      obtain ⟨history, hamid⟩ := hcalls _ (List.mem_of_getElem? hcall)
      obtain ⟨hguarantee, hnext⟩ := hamid before.db (hcompatible.refl ⟨before.db, history⟩ hinv)
      refine ⟨hcompatible.kept _ _ _ hinv hguarantee, fun call hmem ↦ ?_⟩
      rcases List.mem_or_eq_of_mem_set hmem with hold | rfl
      · obtain ⟨seen, hother⟩ := hcalls call hold
        exact ⟨seen, hother.frame hcompatible hinv hguarantee⟩
      · exact ⟨_, hnext⟩

end System

end RallyApi.Concurrency

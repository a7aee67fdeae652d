import RallyApi.Concurrency.Interference

/-!
# Calls one after the other

A sequential run serves its requests one by one, each call in isolation (`Call.exec`), and collects the
labels of all their steps. `afterAll_keeps` is the invariant rule for such runs: a property of views that
the guarantee of each call keeps holds after every one of them.
-/

set_option autoImplicit false
set_option relaxedAutoImplicit false

namespace RallyApi.Concurrency

variable {Db Label Failure α Request : Type}

/-- The outcome of a call that runs with no other call in between, and the view it leaves. -/
def Call.exec : Call Db Label Failure α → View Db Label → Except Failure α × View Db Label
  | done outcome, view => (outcome, view)
  | step label act next, view => (next view.db).exec (view.after (label view.db) (act view.db))

/-- The labels apart, it is the run of the call. -/
theorem Call.exec_run (call : Call Db Label Failure α) (view : View Db Label) :
    ((call.exec view).1, (call.exec view).2.db) = call.run view.db := by
  induction call generalizing view with
  | done outcome => rfl
  | step label act next ih => exact ih view.db _

theorem Call.exec_db (call : Call Db Label Failure α) (view : View Db Label) :
    (call.exec view).2.db = (call.run view.db).2 :=
  congrArg Prod.snd (call.exec_run view)

/-- The view after the calls that serve the requests, one after the other. -/
def afterAll (serve : Request → Call Db Label Failure α) (view : View Db Label)
    (requests : List Request) : View Db Label :=
  requests.foldl (fun view request ↦ ((serve request).exec view).2) view

/-- Surroundings of a call in a sequential run: nothing changes between its steps. -/
def Surroundings.sequential (guarantee : Db → Label → Db → Prop) : Surroundings Db Label where
  rely view found := found = view.db
  guarantee := guarantee

variable {guarantee : Db → Label → Db → Prop} {post : α → View Db Label → Prop}
  {view : View Db Label} {call : Call Db Label Failure α}

/-- A read of a sequential run finds the store of its view. -/
theorem amid_sequential_query {label : Label} {read : Db → α} :
    (Call.query label read : Call Db Label Failure α).Amid (.sequential guarantee) post view ↔
      guarantee view.db label view.db ∧ post (read view.db) (view.after label view.db) :=
  ⟨fun h ↦ h view.db rfl, fun h _ hfound ↦ hfound ▸ h⟩

/-- A statement of a sequential run finds the store of its view. -/
theorem amid_sequential_atomically {label : Db → Label} {statement : Db → α × Db} :
    (Call.atomically label statement : Call Db Label Failure α).Amid (.sequential guarantee) post
      view ↔
      guarantee view.db (label view.db) (statement view.db).2 ∧
        post (statement view.db).1 (view.after (label view.db) (statement view.db).2) :=
  ⟨fun h ↦ h view.db rfl, fun h _ hfound ↦ hfound ▸ h⟩

/-- Assumes: each step of the call keeps the guarantee, and what keeps the guarantee keeps a property.
The property holds in the view the call leaves, whether it returns or fails. -/
theorem Call.Amid.exec_keeps (hcall : call.Amid (.sequential guarantee) post view)
    {property : View Db Label → Prop}
    (hkeeps : ∀ view label after, property view → guarantee view.db label after →
      property (view.after label after)) (hview : property view) : property (call.exec view).2 := by
  induction call generalizing view with
  | done outcome => exact hview
  | step label act next ih =>
    obtain ⟨hguarantee, hnext⟩ := hcall view.db rfl
    exact ih view.db hnext (hkeeps view _ _ hview hguarantee)

/-- The invariant rule. Assumes: from every view with the property, each step of the call of every
request keeps the guarantee; and what keeps the guarantee keeps the property. It holds after any
requests. -/
theorem afterAll_keeps {serve : Request → Call Db Label Failure α} {property : View Db Label → Prop}
    (hserve : ∀ request view, property view →
      (serve request).Amid (.sequential guarantee) (fun _ _ ↦ True) view)
    (hkeeps : ∀ view label after, property view → guarantee view.db label after →
      property (view.after label after)) (hview : property view) (requests : List Request) :
    property (afterAll serve view requests) := by
  induction requests generalizing view with
  | nil => exact hview
  | cons request rest ih => exact ih ((hserve request view hview).exec_keeps hkeeps hview)

theorem afterAll_append {serve : Request → Call Db Label Failure α} (first second : List Request) :
    afterAll serve view (first ++ second) = afterAll serve (afterAll serve view first) second :=
  List.foldl_append

end RallyApi.Concurrency

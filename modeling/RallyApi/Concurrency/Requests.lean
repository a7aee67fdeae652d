import RallyApi.Concurrency.RelyGuarantee

/-!
# Runs with the requests they serve

`ReachableBy` says which requests have led to a configuration: call `number` serves request `number` of the
list. Any interleaving is such a run (`exists_requests`), and any list of choices is one
(`play_reachableBy`).

A protocol may speak of the requests then. `reachableBy_kept` is its soundness theorem: the call of each
request only has to meet the protocol under the number that the request has in the list.
-/

set_option autoImplicit false
set_option relaxedAutoImplicit false

namespace RallyApi.Concurrency

variable {Db Label Failure α Request : Type} {serve : Request → Call Db Label Failure α}
  {permits : World Db Label → Label → Prop} {db : Db} {requests : List Request}
  {config : Config Db Label Failure α}

/-- The configurations reached from a store nobody has called yet, with the requests made so far. -/
inductive ReachableBy (serve : Request → Call Db Label Failure α)
    (permits : World Db Label → Label → Prop) (db : Db) :
    List Request → Config Db Label Failure α → Prop
  | initial : ReachableBy serve permits db [] (Config.initial db)
  | start (requests : List Request) (config : Config Db Label Failure α)
      (hreach : ReachableBy serve permits db requests config) (request : Request) :
    ReachableBy serve permits db (requests ++ [request])
      { config with calls := config.calls ++ [serve request] }
  | resume (requests : List Request) (config : Config Db Label Failure α)
      (hreach : ReachableBy serve permits db requests config) (number : ℕ) (label : Db → Label)
      (act : Db → Db) (next : Db → Call Db Label Failure α)
      (hcall : config.calls[number]? = some (.step label act next))
      (hpermits : permits config.toWorld (label config.db)) :
    ReachableBy serve permits db requests
      { toWorld := config.after number (label config.db) (act config.db)
        calls := config.calls.set number (next config.db) }

/-- The configuration is reachable, by whatever requests. -/
theorem ReachableBy.reachable (hreach : ReachableBy serve permits db requests config) :
    Reachable serve permits db config := by
  induction hreach with
  | initial => exact .refl
  | start requests config _ request ih => exact ih.tail (.start config request)
  | resume requests config _ number label act next hcall hpermits ih =>
    exact ih.tail (.resume config number label act next hcall hpermits)

/-- Every reachable configuration is reached by some requests. -/
theorem exists_requests (hreach : Reachable serve permits db config) :
    ∃ requests, ReachableBy serve permits db requests config := by
  induction hreach with
  | refl => exact ⟨[], .initial⟩
  | tail _ hstep ih =>
    obtain ⟨requests, hrequests⟩ := ih
    cases hstep with
    | start request => exact ⟨_, .start requests _ hrequests request⟩
    | resume number label act next hcall hpermits =>
      exact ⟨_, .resume requests _ hrequests number label act next hcall hpermits⟩

/-- Each call serves the request with its number. -/
theorem ReachableBy.length (hreach : ReachableBy serve permits db requests config) :
    requests.length = config.calls.length := by
  induction hreach with
  | initial => rfl
  | start requests config _ request ih => simp [ih]
  | resume requests config _ number label act next _ _ ih => simp [ih]

/-- Assumes: a property that the call of a request has, and that the rest of a call has after a step if the
call has it. The call has it as far as it has got. -/
theorem ReachableBy.call (hreach : ReachableBy serve permits db requests config)
    (property : Call Db Label Failure α → Prop) {number : ℕ} {request : Request}
    (hrequest : requests[number]? = some request) (hserve : property (serve request))
    (hstep : ∀ label act next db, property (.step label act next) → property (next db))
    {call : Call Db Label Failure α} (hcall : config.calls[number]? = some call) : property call := by
  induction hreach generalizing call with
  | initial => simp [Config.initial] at hcall
  | start requests config hbefore started ih =>
    have hlength := hbefore.length
    rcases Nat.lt_or_ge number config.calls.length with hlt | hge
    · rw [List.getElem?_append_left hlt] at hcall
      rw [List.getElem?_append_left (hlength ▸ hlt)] at hrequest
      exact ih hrequest hcall
    · rw [List.getElem?_append_right hge, List.getElem?_singleton] at hcall
      rw [List.getElem?_append_right (hlength ▸ hge), hlength, List.getElem?_singleton] at hrequest
      split_ifs at hcall hrequest
      obtain rfl := Option.some.inj hcall
      obtain rfl := Option.some.inj hrequest
      exact hserve
  | resume requests config _ resumed label act next hresumed _ ih =>
    by_cases hsame : number = resumed
    · subst hsame
      rw [List.getElem?_set_self (List.getElem?_eq_some_iff.mp hresumed).1] at hcall
      obtain rfl := Option.some.inj hcall
      exact hstep _ _ _ config.db (ih hrequest hresumed)
    · rw [List.getElem?_set_ne (Ne.symm hsame)] at hcall
      exact ih hrequest hcall

/-! ### Concrete runs -/

/-- The requests that a list of choices makes. -/
def requestsOf : List (Choice Request) → List Request
  | [] => []
  | .start request :: rest => request :: requestsOf rest
  | .resume _ :: rest => requestsOf rest

/-- A list of choices is a run. -/
theorem play_reachableBy (serve : Request → Call Db Label Failure α) (db : Db)
    (choices : List (Choice Request)) :
    ReachableBy serve anyStep db (requestsOf choices) ((Config.initial db).play serve choices) := by
  suffices hgeneral : ∀ requests (config : Config Db Label Failure α),
      ReachableBy serve anyStep db requests config →
        ReachableBy serve anyStep db (requests ++ requestsOf choices) (config.play serve choices) from
    hgeneral [] _ .initial
  induction choices with
  | nil =>
    intro requests config hreach
    rw [requestsOf, List.append_nil]
    exact hreach
  | cons choice rest ih =>
    intro requests config hreach
    cases choice with
    | start request =>
      have hrest := ih _ _ (hreach.start requests config request)
      rwa [List.append_assoc] at hrest
    | resume number =>
      refine ih requests (config.follow serve (.resume number)) ?_
      simp only [Config.follow]
      split
      · rename_i hcall
        exact .resume requests config hreach number _ _ _ hcall trivial
      · exact hreach

/-! ### Soundness -/

namespace Protocol

variable {protocol : Protocol Db Label} {post : ℕ → α → World Db Label → Prop}

/-- Assumes: the call of each request of a list meets the protocol under the number of the request, the
others keep what it promises of its result, and the invariant holds of the initial world. A run whose
requests are the first ones of the list keeps the protocol. -/
theorem reachableBy_kept {all : List Request}
    (hpost : ∀ number value, protocol.Stable number (post number value))
    (hserve : ∀ number request, all[number]? = some request →
      protocol.Meets number (serve request) (Fresh number) (post number))
    (hinitial : protocol.invariant ⟨db, []⟩)
    (hreach : ReachableBy serve protocol.permits db requests config) (hfirst : requests <+: all) :
    protocol.Kept post config := by
  induction hreach with
  | initial => exact ⟨hinitial, by simp [Config.initial], by simp [Config.initial]⟩
  | start requests config hbefore request ih =>
    have hnumber : all[config.calls.length]? = some request := by
      obtain ⟨rest, rfl⟩ := hfirst
      rw [← hbefore.length]
      simp
    exact (ih ((List.prefix_append _ _).trans hfirst)).startCall (hserve _ _ hnumber)
  | resume requests config _ number label act next hcall hpermits ih =>
    exact ((ih hfirst).resume hpost hcall hpermits).2

end Protocol

end RallyApi.Concurrency

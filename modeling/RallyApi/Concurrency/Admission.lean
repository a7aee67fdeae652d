import RallyApi.Concurrency.Requests

/-!
# Runs whose requests are admitted

Some requests can only be made once others have been answered: a client presents what a call has returned.
`AdmittedBy` is `ReachableBy` for requests that the configuration admits in which they are made. In
`admittedBy_kept` the call of a request starts from what the configuration promises that admits it, so a
protocol may rest on the order in which calls return and others are made.
-/

set_option autoImplicit false
set_option relaxedAutoImplicit false

namespace RallyApi.Concurrency

variable {Db Label Failure α Request : Type} {serve : Request → Call Db Label Failure α}
  {permits : World Db Label → Label → Prop} {admits : Config Db Label Failure α → Request → Prop} {db : Db}
  {requests : List Request} {config : Config Db Label Failure α}

/-- The configurations reached by requests that are admitted where they are made. -/
inductive AdmittedBy (serve : Request → Call Db Label Failure α)
    (permits : World Db Label → Label → Prop) (admits : Config Db Label Failure α → Request → Prop)
    (db : Db) : List Request → Config Db Label Failure α → Prop
  | initial : AdmittedBy serve permits admits db [] (Config.initial db)
  | start (requests : List Request) (config : Config Db Label Failure α)
      (hreach : AdmittedBy serve permits admits db requests config) (request : Request)
      (hadmits : admits config request) :
    AdmittedBy serve permits admits db (requests ++ [request])
      { config with calls := config.calls ++ [serve request] }
  | resume (requests : List Request) (config : Config Db Label Failure α)
      (hreach : AdmittedBy serve permits admits db requests config) (number : ℕ) (label : Db → Label)
      (act : Db → Db) (next : Db → Call Db Label Failure α)
      (hcall : config.calls[number]? = some (.step label act next))
      (hpermits : permits config.toWorld (label config.db)) :
    AdmittedBy serve permits admits db requests
      { toWorld := config.after number (label config.db) (act config.db)
        calls := config.calls.set number (next config.db) }

/-! ### Concrete runs -/

/-- Every request that a list of choices makes is admitted. -/
def Config.AdmitsAll (serve : Request → Call Db Label Failure α)
    (admits : Config Db Label Failure α → Request → Prop) :
    Config Db Label Failure α → List (Choice Request) → Prop
  | _, [] => True
  | config, .start request :: rest =>
    admits config request ∧ (config.follow serve (.start request)).AdmitsAll serve admits rest
  | config, .resume number :: rest => (config.follow serve (.resume number)).AdmitsAll serve admits rest

instance Config.decidableAdmitsAll [∀ config request, Decidable (admits config request)] :
    (config : Config Db Label Failure α) → (choices : List (Choice Request)) →
      Decidable (config.AdmitsAll serve admits choices)
  | _, [] => .isTrue trivial
  | config, .start request :: rest =>
    have := Config.decidableAdmitsAll (config.follow serve (.start request)) rest
    inferInstanceAs (Decidable (_ ∧ _))
  | config, .resume number :: rest =>
    Config.decidableAdmitsAll (config.follow serve (.resume number)) rest

/-- A list of choices whose requests are admitted is such a run. By induction on the choices. -/
theorem play_admittedBy {choices : List (Choice Request)}
    (hadmits : (Config.initial db).AdmitsAll serve admits choices) :
    AdmittedBy serve anyStep admits db (requestsOf choices) ((Config.initial db).play serve choices) := by
  suffices hgeneral : ∀ requests (config : Config Db Label Failure α),
      AdmittedBy serve anyStep admits db requests config → config.AdmitsAll serve admits choices →
        AdmittedBy serve anyStep admits db (requests ++ requestsOf choices) (config.play serve choices) from
    hgeneral [] _ .initial hadmits
  clear hadmits
  induction choices with
  | nil =>
    intro requests config hreach _
    rw [requestsOf, List.append_nil]
    exact hreach
  | cons choice rest ih =>
    intro requests config hreach hall
    cases choice with
    | start request =>
      have hrest := ih _ _ (hreach.start requests config request hall.1) hall.2
      rwa [List.append_assoc] at hrest
    | resume number =>
      refine ih requests (config.follow serve (.resume number)) ?_ hall
      simp only [Config.follow]
      split
      · rename_i hcall
        exact .resume requests config hreach number _ _ _ hcall trivial
      · exact hreach

/-! ### Soundness -/

namespace Protocol

variable {protocol : Protocol Db Label} {post : ℕ → α → World Db Label → Prop}
  {call : Call Db Label Failure α} {pre : World Db Label → Prop}

/-- A call that is started where its precondition holds keeps the protocol. Assumes: the others keep what
it promises of its result. -/
theorem Kept.startFrom (hkept : protocol.Kept post config)
    (hpost : ∀ number value, protocol.Stable number (post number value)) (hpre : pre config.toWorld)
    (hmeets : protocol.Meets config.calls.length call pre (post config.calls.length)) :
    protocol.Kept post { config with calls := config.calls ++ [call] } where
  invariant := hkept.invariant
  started entry hentry := by
    rw [List.length_append]
    exact Nat.lt_of_lt_of_le (hkept.started entry hentry) (Nat.le_add_right _ _)
  asserted number other hother := by
    rcases Nat.lt_or_ge number config.calls.length with hlt | hge
    · rw [List.getElem?_append_left hlt] at hother
      exact hkept.asserted number other hother
    · have hbound := (List.getElem?_eq_some_iff.mp hother).1
      rw [List.length_append, List.length_singleton] at hbound
      obtain rfl : number = config.calls.length := by omega
      rw [List.getElem?_concat_length] at hother
      obtain rfl := Option.some.inj hother
      exact hmeets.stabilise (hpost _) hkept.invariant hpre

/-- Assumes: what a call promises of its result is kept by the others, and the invariant holds of the
initial world; and where a configuration that keeps the protocol admits a request of the list, something
holds from which the call of the request meets the protocol. A run whose requests are the first ones of
the list keeps the protocol. By induction on the run. -/
theorem admittedBy_kept {all : List Request}
    (hpost : ∀ number value, protocol.Stable number (post number value))
    (hserve : ∀ config request, protocol.Kept post config → admits config request → request ∈ all →
      ∃ pre, pre config.toWorld ∧
        protocol.Meets config.calls.length (serve request) pre (post config.calls.length))
    (hinitial : protocol.invariant ⟨db, []⟩)
    (hreach : AdmittedBy serve protocol.permits admits db requests config) (hfirst : requests <+: all) :
    protocol.Kept post config := by
  induction hreach with
  | initial => exact ⟨hinitial, by simp [Config.initial], by simp [Config.initial]⟩
  | start requests config _ request hadmits ih =>
    have hkept := ih ((List.prefix_append _ _).trans hfirst)
    have hrequest : request ∈ all := hfirst.subset (List.mem_append_right _ (List.mem_singleton_self _))
    obtain ⟨pre, hpre, hmeets⟩ := hserve config request hkept hadmits hrequest
    exact hkept.startFrom hpost hpre hmeets
  | resume requests config _ number label act next hcall hpermits ih =>
    exact ((ih hfirst).resume hpost hcall hpermits).2

end Protocol

end RallyApi.Concurrency

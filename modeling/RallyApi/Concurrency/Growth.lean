import RallyApi.Concurrency.Outcomes

/-!
# Stores that only grow

Where every step of every call respects an order on the stores, a store of a run is below each later one
(`reachable_growth`), and under a protocol whose steps respect it, what a larger store keeps is never lost
(`persistent_of_growth`).
-/

set_option autoImplicit false
set_option relaxedAutoImplicit false

namespace RallyApi.Concurrency

variable {Db Label Failure α Request : Type} {order : Db → Db → Prop}

/-- Assumes: a reflexive and transitive relation that every step respects. It relates a store of a run to
each later one. By induction on the steps in between. -/
theorem reachable_growth {serve : Request → Call Db Label Failure α}
    {permits : World Db Label → Label → Prop} (hrefl : ∀ db, order db db)
    (htrans : ∀ first second third, order first second → order second third → order first third)
    (honly : ∀ request, (serve request).Only fun before _ after ↦ order before after) {db : Db}
    {config later : Config Db Label Failure α} (hreach : Reachable serve permits db config)
    (hlater : Relation.ReflTransGen (Step serve permits) config later) : order config.db later.db := by
  induction hlater with
  | refl => exact hrefl config.db
  | tail hprefix hstep ih =>
    rcases step_cases honly (hreach.trans hprefix) hstep with hsame | ⟨_, _, _, hbound, _⟩
    · have hdb := congrArg World.db hsame
      exact hdb ▸ ih
    · exact htrans _ _ _ ih hbound

/-- Assumes: the steps of the protocol respect the relation, and a property is kept along it. It is never
lost. -/
theorem Protocol.persistent_of_growth {protocol : Protocol Db Label}
    (hguarantee : ∀ number world label after, protocol.guarantee number world label after →
      order world.db after) {property : Db → Prop}
    (hkept : ∀ before after, order before after → property before → property after) :
    protocol.Persistent fun world ↦ property world.db :=
  fun number _ label after _ hproperty hstep ↦
    hkept _ _ (hguarantee number _ label after hstep) hproperty

end RallyApi.Concurrency

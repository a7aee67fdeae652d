import RallyApi.Concurrency.Call
import RallyApi.Platform.Scalars

/-!
# `uuidv7()`

Identifiers are drawn with the package `uuidv7`, which is not part of the repository. `UuidSource` is what
the models take from it: a call gives an identifier that has not been given before (`fresh`), and then it has
been given. The stores of the models count: an identifier has been drawn when it is below the counter.
-/

set_option autoImplicit false
set_option relaxedAutoImplicit false

namespace RallyApi.Platform

open Concurrency

/-- A source of identifiers: the one it gives next, the store once it has been given, and the identifiers
that have been given so far. -/
structure UuidSource (Db : Type) where
  next : Db → Uuid
  draw : Db → Db
  Drawn : Db → Uuid → Prop
  fresh : ∀ db, ¬ Drawn db (next db)
  drawn_draw : ∀ db id, Drawn (draw db) id ↔ Drawn db id ∨ id = next db

namespace UuidSource

variable {Db Label Failure : Type} {db : Db} {id : Uuid}

/-- `uuidv7()`, as a step of a call. -/
def uuidv7 (source : UuidSource Db) (label : Db → Label) : Call Db Label Failure Uuid :=
  Call.atomically label fun db ↦ (source.next db, source.draw db)

/-- An identifier that has been drawn is not the one that is drawn next. -/
theorem ne_next (source : UuidSource Db) (hdrawn : source.Drawn db id) : id ≠ source.next db :=
  fun hsame ↦ source.fresh db (hsame ▸ hdrawn)

/-- An identifier that has been drawn has been drawn ever after. -/
theorem drawn_draw_of_drawn (source : UuidSource Db) (hdrawn : source.Drawn db id) :
    source.Drawn (source.draw db) id := (source.drawn_draw db id).mpr (.inl hdrawn)

/-- The identifiers of a store that counts them. -/
def counter (get : Db → Uuid) (put : Uuid → Db → Db) (hput : ∀ id db, get (put id db) = id) :
    UuidSource Db where
  next := get
  draw db := put (get db + 1) db
  Drawn db id := id < get db
  fresh db := Nat.lt_irrefl (get db)
  drawn_draw db id := by
    rw [hput]
    exact Nat.lt_succ_iff_lt_or_eq

end UuidSource

end RallyApi.Platform

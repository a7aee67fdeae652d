import Mathlib.Logic.Function.Basic
import RallyApi.Concurrency.Call
import RallyApi.Platform.Errors
import RallyApi.Platform.Scalars

/-!
# Valkey

The key-value store behind locks and cached responses, as far as `ValkeyService` uses it: `GET`,
`SET … EX`, `SET … PX … NX` and `DEL`. Every command is atomic, and entries expire by one clock for
all clients. What a client does elsewhere, in the database or in a handler, is `Elsewhere`.
-/

set_option autoImplicit false
set_option relaxedAutoImplicit false

namespace RallyApi.Cache

open Concurrency Platform

/-- A value and the time it expires. -/
structure Entry (Text : Type) where
  value : Text
  expiresAt : Date

/-- The store, with the clock. -/
structure Valkey (Text : Type) where
  now : Date := 0
  entries : String → Option (Entry Text) := fun _ ↦ none

namespace Valkey

variable {Text : Type}

/-- The entry of a key, unless it has expired. -/
def live (store : Valkey Text) (key : String) : Option (Entry Text) :=
  (store.entries key).filter fun entry ↦ store.now < entry.expiresAt

/-- `GET`. -/
def get (store : Valkey Text) (key : String) : Option Text := (store.live key).map Entry.value

/-- `SET key value PX ttlMs`. -/
def set (store : Valkey Text) (key : String) (value : Text) (ttlMs : ℕ) : Valkey Text :=
  { store with
    entries := Function.update store.entries key (some ⟨value, store.now + ttlMs⟩) }

/-- `SET key value PX ttlMs NX`: nothing where the key is taken. -/
def setNx (store : Valkey Text) (key : String) (value : Text) (ttlMs : ℕ) :
    Option (Valkey Text) :=
  if (store.live key).isSome then none else some (store.set key value ttlMs)

/-- `DEL`. -/
def del (store : Valkey Text) (key : String) : Valkey Text :=
  { store with entries := Function.update store.entries key none }

/-- The store some time later. -/
def wait (store : Valkey Text) (milliseconds : ℕ) : Valkey Text :=
  { store with now := store.now + milliseconds }

variable {store : Valkey Text} {key other : String} {value : Text} {ttlMs : ℕ}
  {entry : Entry Text}

theorem live_eq_some :
    store.live key = some entry ↔ store.entries key = some entry ∧ store.now < entry.expiresAt := by
  simp [live]

theorem setNx_eq_some {after : Valkey Text} :
    store.setNx key value ttlMs = some after ↔
      store.live key = none ∧ after = store.set key value ttlMs := by
  unfold setNx
  cases store.live key <;> simp [eq_comm]

@[simp]
theorem set_entries_self :
    (store.set key value ttlMs).entries key = some ⟨value, store.now + ttlMs⟩ :=
  Function.update_self ..

theorem set_entries_of_ne (hne : other ≠ key) :
    (store.set key value ttlMs).entries other = store.entries other :=
  Function.update_of_ne hne ..

@[simp]
theorem del_entries_self : (store.del key).entries key = none := Function.update_self ..

theorem del_entries_of_ne (hne : other ≠ key) :
    (store.del key).entries other = store.entries other := Function.update_of_ne hne ..

end Valkey

/-- Work of a client that does not talk to Valkey: its steps leave the store alone, under the given
label. -/
structure Elsewhere (Text Label : Type) (label : Label) (α : Type) where
  call : Call (Valkey Text) Label Failure α
  leaves : call.Only fun store step after ↦ step = label ∧ after = store

/-- Time passes. -/
def tick {Text Label : Type} (label : Label) (milliseconds : ℕ) :
    Call (Valkey Text) Label Failure Unit :=
  Call.atomically (fun _ ↦ label) fun store ↦ ((), store.wait milliseconds)

end RallyApi.Cache

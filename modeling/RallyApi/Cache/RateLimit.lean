import Mathlib.Tactic.Linarith
import RallyApi.Cache.Valkey
import RallyApi.Limiter.FixedWindow
import RallyApi.Platform.Digits

/-!
# The rate limit

`consumeRateLimit` counts the calls of a key in a counter per window of `windowSeconds` seconds, counted
from the epoch. The counter of a window is another key of Valkey, which does not expire before the window
ends. So the calls that are allowed are those that a limiter with fixed windows admits.

`slidingWindow_iff` says for which times of the calls of a key no interval of the length of a window holds
more allowed calls than the limit; `burstAtBoundary` is a pair of calls for which one does.
-/

set_option autoImplicit false
set_option relaxedAutoImplicit false

namespace RallyApi.Cache

open Limiter Platform

/-! ### `consumeRateLimit` -/

/-- A limit of `RATE_LIMIT_TIERS`: how many calls, and in how many seconds. -/
structure RateLimit where
  limit : ℕ
  windowSeconds : ℕ
  limit_pos : 0 < limit
  windowSeconds_pos : 0 < windowSeconds

/-- What `consumeRateLimit` returns. -/
structure RateLimitResult where
  allowed : Bool
  remaining : ℕ
  resetAt : ℤ
  deriving DecidableEq, Repr

/-- `` `rl:${key}:${window}` ``. -/
def windowKey (key : String) (window : ℤ) : String := "rl:" ++ key ++ ":" ++ toString window

/-- `MULTI`, `INCR key`, `EXPIRE key seconds`, `EXEC`: the counter of the key, after one more. -/
def Valkey.incrExpire (store : Valkey ℕ) (key : String) (seconds : ℕ) : ℕ × Valkey ℕ :=
  let count := (store.get key).getD 0 + 1
  (count, store.set key count (seconds * 1000))

/-- `consumeRateLimit`. -/
def consumeRateLimit (key : String) (limit windowSeconds : ℕ) (store : Valkey ℕ) :
    RateLimitResult × Valkey ℕ :=
  let now := store.now / 1000
  let resetAt := (now / windowSeconds + 1) * windowSeconds
  let (count, after) := store.incrExpire (windowKey key (now / windowSeconds)) windowSeconds
  ({ allowed := count ≤ limit, remaining := limit - count, resetAt }, after)

/-! ### Sequences of calls -/

/-- A call for a key, some time after the one before. -/
structure RateLimitCall where
  wait : ℕ
  key : String
  deriving DecidableEq, Repr

/-- A call that has been made. -/
structure ConsumedCall where
  key : String
  time : Date
  allowed : Bool
  deriving DecidableEq, Repr

/-- The calls of a sequence, each with the limit of its key. -/
def consumeAll (limits : String → RateLimit) : Valkey ℕ → List RateLimitCall → List ConsumedCall
  | _, [] => []
  | store, call :: rest =>
    let store := store.wait call.wait
    let (result, after) := consumeRateLimit call.key (limits call.key).limit
      (limits call.key).windowSeconds store
    { key := call.key, time := store.now, allowed := result.allowed } :: consumeAll limits after rest

/-- The length of a window in milliseconds. -/
def RateLimit.windowMs (tier : RateLimit) : ℤ := tier.windowSeconds * 1000

/-- The times of the calls of a key, from a time on. -/
def callTimes (key : String) : Date → List RateLimitCall → List Date
  | _, [] => []
  | now, call :: rest =>
    if call.key = key then (now + call.wait) :: callTimes key (now + call.wait) rest
    else callTimes key (now + call.wait) rest

/-- The times of the calls of a key that were allowed. -/
def allowedTimes (key : String) (calls : List ConsumedCall) : List Date :=
  (calls.filter fun call ↦ call.key = key ∧ call.allowed = true).map ConsumedCall.time

/-- The limit is one of a sliding window: no interval of the length of a window holds more calls of the
key that were allowed. -/
def SlidingWindow (tier : RateLimit) (key : String) (calls : List ConsumedCall) : Prop :=
  ∀ time : Date, countIn time (time + tier.windowMs) (allowedTimes key calls) ≤ tier.limit

/-- The calls of a key leave the limit room at the ends of windows: for every time, the calls that fit the
limit in the window of that time, less those before it, and the calls that come within the length of a
window after that time but in the next window, as far as they fit the limit, are no more than the limit. -/
def RoomAtBoundaries (tier : RateLimit) (times : List Date) : Prop :=
  ∀ time : Date,
    let start := windowStart tier.windowMs time
    min tier.limit (countIn start (start + tier.windowMs) times) -
        min tier.limit (countIn start time times) +
      min tier.limit (countIn (start + tier.windowMs) (time + tier.windowMs) times) ≤ tier.limit

/-! ### Counters -/

variable {limits : String → RateLimit} {tier : RateLimit} {store : Valkey ℕ} {key other : String}
  {past : String → List Date}

theorem RateLimit.windowMs_pos (tier : RateLimit) : 0 < tier.windowMs := by
  have hpos := tier.windowSeconds_pos
  unfold RateLimit.windowMs
  omega

/-- The number of a window, counted in seconds or in milliseconds. -/
theorem window_eq (tier : RateLimit) (time : Date) :
    time / 1000 / tier.windowSeconds = time / tier.windowMs := by
  rw [RateLimit.windowMs, mul_comm, Int.ediv_ediv_of_nonneg (by decide)]

theorem windowKey_inj {window later : ℤ} (hsame : windowKey key window = windowKey other later) :
    key = other ∧ window = later := by
  have hchars := congrArg String.toList hsame
  simp only [windowKey, String.toList_append] at hchars
  obtain ⟨hkey, hwindow⟩ := append_cons_inj_of_notMem_right (colon_notMem_toString_int window)
    (colon_notMem_toString_int later) (by simpa using hchars)
  exact ⟨String.toList_injective hkey, toString_int_injective (String.toList_injective hwindow)⟩

/-- What the counters hold. Assumes: `past` are the times of the calls of each key so far. The counter of
the window of this moment has counted the calls in it and lasts until it ends, and that of a window to
come is not there. -/
structure Counted (limits : String → RateLimit) (store : Valkey ℕ) (past : String → List Date) : Prop
    where
  ordered : ∀ key, ∀ time ∈ past key, time ≤ store.now
  counter : ∀ key, (store.get (windowKey key (store.now / (limits key).windowMs))).getD 0 =
    countWindow (limits key).windowMs (store.now / (limits key).windowMs) (past key)
  lasts : ∀ key entry,
    store.entries (windowKey key (store.now / (limits key).windowMs)) = some entry →
      (store.now / (limits key).windowMs + 1) * (limits key).windowMs ≤ entry.expiresAt
  unused : ∀ key window, store.now / (limits key).windowMs < window →
    store.entries (windowKey key window) = none

/-- Nothing has been counted at the start. -/
theorem counted_empty (now : Date) : Counted limits { now } fun _ ↦ [] where
  ordered _ _ hmem := by cases hmem
  counter _ := rfl
  lasts _ _ hentry := by cases hentry
  unused _ _ _ := rfl

/-- Assumes: an entry of the key lasts. Its value can still be read after a while. -/
theorem get_wait {milliseconds : ℕ}
    (hlasts : ∀ entry, store.entries key = some entry → store.now + milliseconds < entry.expiresAt) :
    (store.wait milliseconds).get key = store.get key := by
  have hentries : (store.wait milliseconds).entries key = store.entries key := rfl
  unfold Valkey.get Valkey.live
  rw [hentries]
  cases hentry : store.entries key with
  | none => rfl
  | some entry =>
    have hlater : (store.wait milliseconds).now < entry.expiresAt := hlasts entry hentry
    have hnow : store.now < entry.expiresAt :=
      (le_add_of_nonneg_right (Int.natCast_nonneg milliseconds)).trans_lt hlater
    simp only [Option.filter_some, decide_eq_true hnow, decide_eq_true hlater, if_true]

/-- There have been no calls in a window to come. -/
theorem Counted.countWindow_eq_zero (hcounted : Counted limits store past) {window : ℤ}
    (hwindow : store.now / (limits key).windowMs < window) :
    countWindow (limits key).windowMs window (past key) = 0 := by
  refine List.countP_eq_zero.mpr fun time htime ↦ ?_
  have hle := Int.ediv_le_ediv (limits key).windowMs_pos (hcounted.ordered key time htime)
  rw [decide_eq_true_eq]
  exact (hle.trans_lt hwindow).ne

/-- Time passes: the counter of a window stays until the window ends. -/
theorem Counted.wait (hcounted : Counted limits store past) (milliseconds : ℕ) :
    Counted limits (store.wait milliseconds) past := by
  have hnow : (store.wait milliseconds).now = store.now + milliseconds := rfl
  have hentries : (store.wait milliseconds).entries = store.entries := rfl
  have hlater : store.now ≤ (store.wait milliseconds).now :=
    le_add_of_nonneg_right (Int.natCast_nonneg milliseconds)
  have hmono : ∀ key, store.now / (limits key).windowMs ≤
      (store.wait milliseconds).now / (limits key).windowMs :=
    fun key ↦ Int.ediv_le_ediv (limits key).windowMs_pos hlater
  refine ⟨fun key time htime ↦ (hcounted.ordered key time htime).trans hlater, fun key ↦ ?_,
    fun key entry hentry ↦ ?_, fun key window hwindow ↦ ?_⟩
  · rcases (hmono key).eq_or_lt with hsame | hlt
    · have hbound := lt_windowStart_add (limits key).windowMs_pos (store.wait milliseconds).now
      rw [windowStart, ← hsame] at hbound
      rw [← hsame, ← hcounted.counter key, get_wait fun entry hentry ↦ ?_]
      have hend := hcounted.lasts key entry hentry
      rw [add_mul, one_mul] at hend
      exact hbound.trans_le hend
    · rw [hcounted.countWindow_eq_zero hlt, Valkey.get, Valkey.live, hentries,
        hcounted.unused key _ hlt]
      rfl
  · rcases (hmono key).eq_or_lt with hsame | hlt
    · rw [← hsame] at hentry ⊢
      exact hcounted.lasts key entry hentry
    · rw [hentries, hcounted.unused key _ hlt] at hentry
      cases hentry
  · exact hcounted.unused key window ((hmono key).trans_lt hwindow)

/-- The times of the calls of each key, with one more. -/
def withCall (past : String → List Date) (key : String) (time : Date) : String → List Date :=
  Function.update past key (past key ++ [time])

@[simp]
theorem withCall_self (past : String → List Date) (key : String) (time : Date) :
    withCall past key time key = past key ++ [time] := Function.update_self ..

theorem withCall_of_ne (past : String → List Date) (time : Date) (hne : other ≠ key) :
    withCall past key time other = past other := Function.update_of_ne hne ..

/-- An entry that is written now, to last for the length of a window, outlives the window. -/
theorem RateLimit.windowEnd_le (tier : RateLimit) (now : Date) :
    (now / tier.windowMs + 1) * tier.windowMs ≤ now + (tier.windowSeconds * 1000 : ℕ) := by
  have hstart := windowStart_le tier.windowMs_pos now
  have hlength : tier.windowMs = (tier.windowSeconds * 1000 : ℕ) := by
    simp [RateLimit.windowMs]
  rw [windowStart] at hstart
  rw [add_mul, one_mul, ← hlength]
  exact add_le_add_left hstart _

/-- Assumes: the counter of a key in the window of this moment is written with one call more, to last for
the length of a window, and no other counter is. The counters count this call as well. -/
theorem Counted.written {after : Valkey ℕ} (hcounted : Counted limits store past)
    (hnow : after.now = store.now)
    (hself : after.entries (windowKey key (store.now / (limits key).windowMs)) =
      some ⟨countWindow (limits key).windowMs (store.now / (limits key).windowMs) (past key) + 1,
        store.now + ((limits key).windowSeconds * 1000 : ℕ)⟩)
    (hother : ∀ other window, ¬ (key = other ∧ store.now / (limits key).windowMs = window) →
      after.entries (windowKey other window) = store.entries (windowKey other window)) :
    Counted limits after (withCall past key store.now) := by
  refine ⟨fun other time htime ↦ ?_, fun other ↦ ?_, fun other entry hentry ↦ ?_,
    fun other window hwindow ↦ ?_⟩
  · rw [hnow]
    by_cases hsame : other = key
    · subst hsame
      rw [withCall_self, List.mem_append, List.mem_singleton] at htime
      rcases htime with hold | rfl
      · exact hcounted.ordered other time hold
      · exact le_rfl
    · rw [withCall_of_ne past store.now hsame] at htime
      exact hcounted.ordered other time htime
  · rw [hnow]
    by_cases hsame : other = key
    · subst hsame
      have hlive : after.now < store.now + ((limits other).windowSeconds * 1000 : ℕ) := by
        have hseconds : (0 : ℤ) < ((limits other).windowSeconds * 1000 : ℕ) := by
          have hpos := (limits other).windowSeconds_pos
          omega
        rw [hnow]
        exact lt_add_of_pos_right _ hseconds
      rw [withCall_self, countWindow_append_singleton, if_pos rfl, Valkey.get, Valkey.live, hself]
      simp only [Option.filter_some, decide_eq_true hlive, if_true, Option.map_some,
        Option.getD_some]
    · rw [withCall_of_ne past store.now hsame, ← hcounted.counter other, Valkey.get, Valkey.live,
        hother other _ fun h ↦ hsame h.1.symm, hnow]
      rfl
  · rw [hnow] at hentry ⊢
    by_cases hsame : other = key
    · subst hsame
      rw [hself] at hentry
      obtain rfl := Option.some.inj hentry
      exact (limits other).windowEnd_le store.now
    · rw [hother other _ fun h ↦ hsame h.1.symm] at hentry
      exact hcounted.lasts other entry hentry
  · rw [hnow] at hwindow
    rw [hother other window fun h ↦ ?_]
    · exact hcounted.unused other window hwindow
    · obtain ⟨rfl, hwindows⟩ := h
      exact hwindow.ne hwindows

/-- A call of a key is allowed when there have been fewer calls than the limit in its window, and it is
counted. -/
theorem Counted.consume (hcounted : Counted limits store past) (key : String) :
    (consumeRateLimit key (limits key).limit (limits key).windowSeconds store).1.allowed =
        decide (countWindow (limits key).windowMs (store.now / (limits key).windowMs) (past key) <
          (limits key).limit) ∧
      Counted limits
        (consumeRateLimit key (limits key).limit (limits key).windowSeconds store).2
        (withCall past key store.now) := by
  have hcount := hcounted.counter key
  simp only [consumeRateLimit, Valkey.incrExpire, window_eq, hcount]
  refine ⟨decide_eq_decide.mpr Nat.succ_le_iff, hcounted.written rfl Valkey.set_entries_self ?_⟩
  exact fun other window hne ↦ Valkey.set_entries_of_ne fun hsame ↦ hne (windowKey_inj hsame.symm)

/-! ### All calls -/

/-- The calls of a key come in order, from the time on. -/
theorem callTimes_ordered (key : String) (now : Date) (calls : List RateLimitCall) :
    (∀ time ∈ callTimes key now calls, now ≤ time) ∧
      (callTimes key now calls).Pairwise (· ≤ ·) := by
  induction calls generalizing now with
  | nil => exact ⟨fun _ hmem ↦ (List.not_mem_nil hmem).elim, .nil⟩
  | cons call rest ih =>
    have hlater : now ≤ now + call.wait := le_add_of_nonneg_right (Int.natCast_nonneg call.wait)
    obtain ⟨hfrom, hordered⟩ := ih (now + call.wait)
    unfold callTimes
    split_ifs
    · refine ⟨fun time htime ↦ ?_, List.pairwise_cons.mpr ⟨hfrom, hordered⟩⟩
      rcases List.mem_cons.mp htime with rfl | hrest
      · exact hlater
      · exact hlater.trans (hfrom time hrest)
    · exact ⟨fun time htime ↦ hlater.trans (hfrom time htime), hordered⟩

theorem allowedTimes_cons (key : String) (call : ConsumedCall) (rest : List ConsumedCall) :
    allowedTimes key (call :: rest) = if call.key = key ∧ call.allowed = true then
      call.time :: allowedTimes key rest else allowedTimes key rest := by
  simp only [allowedTimes, List.filter_cons, decide_eq_true_eq]
  split_ifs <;> rfl

/-- The calls of a key that are allowed are those that fixed windows admit. -/
theorem allowedTimes_eq (hcounted : Counted limits store past) (key : String)
    (calls : List RateLimitCall) :
    allowedTimes key (consumeAll limits store calls) =
      admitted (limits key).windowMs (limits key).limit (past key)
        (callTimes key store.now calls) := by
  induction calls generalizing store past with
  | nil => rfl
  | cons call rest ih =>
    obtain ⟨hallowed, hlater⟩ := (hcounted.wait call.wait).consume call.key
    have hnow : (consumeRateLimit call.key (limits call.key).limit (limits call.key).windowSeconds
        (store.wait call.wait)).2.now = store.now + call.wait := rfl
    rw [consumeAll, allowedTimes_cons, callTimes, hallowed, ih hlater, hnow]
    by_cases hsame : call.key = key
    · subst hsame
      simp only [true_and, decide_eq_true_eq, if_true, withCall_self, admitted]
      rfl
    · simp only [hsame, false_and, if_false, withCall_of_ne _ _ (Ne.symm hsame)]

/-- For the calls of a key the limit is one of a sliding window exactly when they leave it room at the
ends of windows. -/
theorem slidingWindow_iff (limits : String → RateLimit) (now : Date) (calls : List RateLimitCall)
    (key : String) :
    SlidingWindow (limits key) key (consumeAll limits { now } calls) ↔
      RoomAtBoundaries (limits key) (callTimes key now calls) := by
  refine forall_congr' fun time ↦ ?_
  rw [allowedTimes_eq (counted_empty now) key calls,
    countIn_admitted_crossing (limits key).windowMs_pos (callTimes_ordered key now calls).2]

/-- A limit of one call in a minute for every key. -/
def onePerMinute : RateLimit where
  limit := 1
  windowSeconds := 60
  limit_pos := by decide
  windowSeconds_pos := by decide

/-- Two calls within a millisecond are allowed, one on each side of the end of a window. -/
theorem burstAtBoundary :
    ¬ ∀ (limits : String → RateLimit) (now : Date) (calls : List RateLimitCall) (key : String),
      SlidingWindow (limits key) key (consumeAll limits { now } calls) := by
  intro halways
  have hsliding := halways (fun _ ↦ onePerMinute) 0
    [{ wait := 59999, key := "AUTH_LOGIN:ip:10.0.0.1" }, { wait := 1, key := "AUTH_LOGIN:ip:10.0.0.1" }]
    "AUTH_LOGIN:ip:10.0.0.1" 59999
  exact absurd hsliding (by decide +kernel)

end RallyApi.Cache

import Mathlib.Data.PNat.Defs
import RallyApi.Cache.Valkey
import RallyApi.Concurrency.RelyGuarantee

/-!
# The lock of the cron services

`ValkeyService.acquireLock` sets an entry that expires, unless there is one; `releaseLock` deletes
whatever entry is there. A process whose work takes longer than the ttl releases the lock of the
process that has acquired it since.

`lock_iff_inTime`: in every interleaving, releases remove only the entries of their own process and no
two processes hold the lock within their ttl, exactly when every release that removes an entry comes
before the ttl of its process has run out. `lockStolen` is a run of three processes in which two of
them hold the lock.
-/

set_option autoImplicit false
set_option relaxedAutoImplicit false

namespace RallyApi.Cache

open Concurrency Platform

/-! ### The service -/

/-- What a step does: it acquires a lock until a deadline; it releases a lock, at a time, and removes
a live entry or none; or neither. -/
inductive LockStep
  | other
  | acquire (key : String) (deadline : Date)
  | release (key : String) (time : Date) (removed : Bool)
  deriving DecidableEq, Repr

/-- A call that uses locks. -/
abbrev LockCall := Call (Valkey String) LockStep Failure

/-- The key of the entry of a lock. -/
def lockKey (key : String) : String := "lock:" ++ key

/-- `acquireLock`. Valkey wants a positive ttl. -/
def acquireLock (key : String) (ttlMs : ℕ+) : LockCall Bool :=
  Call.atomically
    (fun store ↦ match store.setNx (lockKey key) "1" ttlMs with
      | some _ => .acquire key (store.now + ttlMs)
      | none => .other)
    fun store ↦ match store.setNx (lockKey key) "1" ttlMs with
      | some after => (true, after)
      | none => (false, store)

/-- `releaseLock`. -/
def releaseLock (key : String) : LockCall Unit :=
  Call.atomically (fun store ↦ .release key store.now (store.live (lockKey key)).isSome)
    fun store ↦ ((), store.del (lockKey key))

/-- The work a lock protects. -/
abbrev Body := Elsewhere String LockStep .other Unit

/-- A process that runs its body under a lock, or not at all. -/
def runLocked (key : String) (ttlMs : ℕ+) (body : Body) : LockCall Unit := do
  let acquired ← acquireLock key ttlMs
  if acquired then body.call.tryFinally (releaseLock key) else pure ()

/-- `LOCK_TTL_MS` of both cron services. -/
def lockTtlMs : ℕ+ := ⟨55 * 60 * 1000, by decide⟩

/-- `SnapshotCronService.takeDailySnapshots`. -/
def takeDailySnapshots (runSnapshots : Body) : LockCall Unit :=
  runLocked "cron:daily-snapshot" lockTtlMs runSnapshots

/-- `CleanupCronService.runCleanup`. -/
def runCleanup (purgeStaleData : Body) : LockCall Unit :=
  runLocked "cron:daily-cleanup" lockTtlMs purgeStaleData

/-- The processes of a run: the cron services, others that use a lock as they do, and the passing of
time. -/
inductive LockRequest
  | takeDailySnapshots (runSnapshots : Body)
  | runCleanup (purgeStaleData : Body)
  | runLocked (key : String) (ttlMs : ℕ+) (body : Body)
  | tick (milliseconds : ℕ)

/-- The call that serves a request. -/
def LockRequest.serve : LockRequest → LockCall Unit
  | .takeDailySnapshots runSnapshots => Cache.takeDailySnapshots runSnapshots
  | .runCleanup purgeStaleData => Cache.runCleanup purgeStaleData
  | .runLocked key ttlMs body => Cache.runLocked key ttlMs body
  | .tick milliseconds => Cache.tick .other milliseconds

/-! ### The property and the condition -/

/-- The history of a run of processes. -/
abbrev LockLog := List (ℕ × LockStep)

/-- The process and the deadline of the last acquisition of a lock. -/
def lastAcquire (key : String) (log : LockLog) : Option (ℕ × Date) :=
  log.findSome? fun (number, step) ↦ match step with
    | .acquire acquired deadline => if acquired = key then some (number, deadline) else none
    | _ => none

/-- A process has acquired a lock until a deadline and has not released it. -/
def Holds (key : String) (world : World (Valkey String) LockStep) (number : ℕ) (deadline : Date) :
    Prop :=
  .acquire key deadline ∈ world.history number ∧
    ∀ time removed, .release key time removed ∉ world.history number

/-- No two processes hold a lock within their ttl. -/
def Exclusive (key : String) (world : World (Valkey String) LockStep) : Prop :=
  ∀ first firstDeadline second secondDeadline,
    Holds key world first firstDeadline → Holds key world second secondDeadline →
      world.db.now < firstDeadline → world.db.now < secondDeadline → first = second

/-- Every live entry of a lock that a release has removed was the one its own process had acquired. -/
def RemovesOwn (key : String) : LockLog → Prop
  | [] => True
  | (number, .release released _ true) :: earlier =>
    (released = key → ∃ deadline, lastAcquire key earlier = some (number, deadline)) ∧
      RemovesOwn key earlier
  | _ :: earlier => RemovesOwn key earlier

/-- Every release of a lock that has removed a live entry came before the deadline of its process. -/
def InTime (key : String) (log : LockLog) : Prop :=
  ∀ number time deadline, (number, .release key time true) ∈ log →
    (number, .acquire key deadline) ∈ log → time < deadline

/-! ### What a step preserves -/

/-- What holds of a run: a live entry of the lock is the one acquired last; the two conditions on
releases agree; and under them every process that holds the lock within its ttl is the one that has
acquired it last. -/
structure Locked (key : String) (world : World (Valkey String) LockStep) : Prop where
  entry : ∀ entry, world.db.live (lockKey key) = some entry →
    ∃ number, lastAcquire key world.log = some (number, entry.expiresAt)
  agree : RemovesOwn key world.log ↔ InTime key world.log
  held : InTime key world.log → ∀ number deadline, Holds key world number deadline →
    world.db.now < deadline →
      lastAcquire key world.log = some (number, deadline) ∧
        (world.db.live (lockKey key)).isSome = true

/-- The step is about the lock. -/
def LockStep.concerns (key : String) : LockStep → Prop
  | .other => False
  | .acquire acquired _ => acquired = key
  | .release released .. => released = key

variable {key : String} {world : World (Valkey String) LockStep} {number : ℕ} {label : LockStep}
  {after : Valkey String} {deadline : Date}

theorem lockKey_injective : Function.Injective lockKey := fun _ _ ↦ (String.append_right_inj _).mp

/-- A step that is not about the lock does not count. -/
theorem lastAcquire_of_not_concerns (hlabel : ¬ label.concerns key) (log : LockLog) :
    lastAcquire key ((number, label) :: log) = lastAcquire key log := by
  cases label <;> simp_all [lastAcquire, LockStep.concerns]

theorem removesOwn_of_not_concerns (hlabel : ¬ label.concerns key) (log : LockLog) :
    RemovesOwn key ((number, label) :: log) ↔ RemovesOwn key log := by
  rcases label with _ | _ | ⟨released, time, _ | _⟩ <;> simp_all [RemovesOwn, LockStep.concerns]

theorem inTime_of_not_concerns (hlabel : ¬ label.concerns key) (log : LockLog) :
    InTime key ((number, label) :: log) ↔ InTime key log := by
  cases label <;> simp_all [InTime, LockStep.concerns, eq_comm]

theorem holds_of_not_concerns (hlabel : ¬ label.concerns key) {holder : ℕ} :
    Holds key (world.after number label after) holder deadline ↔ Holds key world holder deadline := by
  have hacquire : LockStep.acquire key deadline ≠ label := by
    rintro rfl
    exact hlabel rfl
  have hrelease : ∀ time removed, LockStep.release key time removed ≠ label := by
    rintro _ _ rfl
    exact hlabel rfl
  simp only [Holds, mem_history_after, hacquire, hrelease, and_false, false_or]

/-- The releases of a longer history were in time, so those of the shorter one were. -/
theorem inTime_of_cons {log : LockLog} (hinTime : InTime key ((number, label) :: log)) : InTime key log :=
  fun holder time deadline hrelease hacquire ↦ hinTime holder time deadline
    (List.mem_cons_of_mem _ hrelease) (List.mem_cons_of_mem _ hacquire)

/-- The last acquisition is in the history. -/
theorem mem_of_lastAcquire {log : LockLog} (hlast : lastAcquire key log = some (number, deadline)) :
    (number, .acquire key deadline) ∈ log := by
  obtain ⟨⟨holder, step⟩, hmem, hfound⟩ := List.exists_of_findSome?_eq_some hlast
  cases step <;> simp at hfound
  obtain ⟨rfl, rfl, rfl⟩ := hfound
  exact hmem

/-- A step that is not about the lock keeps the invariant. -/
theorem Locked.frame (hlocked : Locked key world) (hlabel : ¬ label.concerns key)
    (hentry : after.entries (lockKey key) = world.db.entries (lockKey key))
    (hnow : world.db.now ≤ after.now) : Locked key (world.after number label after) := by
  have hlive : ∀ entry, after.live (lockKey key) = some entry →
      world.db.live (lockKey key) = some entry := by
    intro entry hentryLive
    rw [Valkey.live_eq_some, hentry] at hentryLive
    exact Valkey.live_eq_some.mpr ⟨hentryLive.1, lt_of_le_of_lt hnow hentryLive.2⟩
  refine ⟨?_, ?_, ?_⟩
  · intro entry hentryLive
    rw [World.after, lastAcquire_of_not_concerns hlabel]
    exact hlocked.entry entry (hlive entry hentryLive)
  · rw [World.after, removesOwn_of_not_concerns hlabel, inTime_of_not_concerns hlabel]
    exact hlocked.agree
  · rw [World.after, inTime_of_not_concerns hlabel]
    intro hinTime holder deadline hholds hwithin
    have hbefore : Holds key world holder deadline := (holds_of_not_concerns hlabel).mp hholds
    obtain ⟨hlast, hsome⟩ := hlocked.held hinTime holder deadline hbefore (lt_of_le_of_lt hnow hwithin)
    obtain ⟨entry, hentryLive⟩ := Option.isSome_iff_exists.mp hsome
    obtain ⟨last, hentryLast⟩ := hlocked.entry entry hentryLive
    obtain ⟨rfl, rfl⟩ := Prod.mk.inj (Option.some.inj (hlast.symm.trans hentryLast))
    refine ⟨(lastAcquire_of_not_concerns hlabel _).trans hlast, ?_⟩
    rw [Option.isSome_iff_exists]
    rw [Valkey.live_eq_some] at hentryLive
    exact ⟨entry, Valkey.live_eq_some.mpr ⟨hentry.trans hentryLive.1, hwithin⟩⟩

/-- What a process has done with locks: nothing yet. -/
def Untouched (history : List LockStep) : Prop := ∀ step ∈ history, step = .other

/-- What a process has done with locks: it has acquired one, and nothing else. -/
def Acquired (key : String) (deadline : Date) (history : List LockStep) : Prop :=
  .acquire key deadline ∈ history ∧ ∀ step ∈ history, step = .other ∨ step = .acquire key deadline

/-- Assumes: the process has not touched a lock, and the lock is free. Acquiring it keeps the
invariant. -/
theorem Locked.acquire (hlocked : Locked key world) (huntouched : Untouched (world.history number))
    {ttlMs : ℕ+} (hfree : world.db.live (lockKey key) = none) {value : String} :
    Locked key (world.after number (.acquire key (world.db.now + ttlMs))
      (world.db.set (lockKey key) value ttlMs)) := by
  have hlast : lastAcquire key
      ((number, .acquire key (world.db.now + ttlMs)) :: world.log) =
        some (number, world.db.now + ttlMs) := by
    simp [lastAcquire]
  have hinTime : InTime key ((number, .acquire key (world.db.now + ttlMs)) :: world.log) ↔
      InTime key world.log := by
    refine ⟨inTime_of_cons, fun h holder time deadline hrelease hacquire ↦ ?_⟩
    have hold : (holder, .release key time true) ∈ world.log :=
      (List.mem_cons.mp hrelease).resolve_left (by simp)
    rcases List.mem_cons.mp hacquire with hnew | hacquired
    · obtain rfl := (Prod.mk.inj hnew).1
      cases huntouched _ (mem_history.mpr hold)
    · exact h holder time deadline hold hacquired
  refine ⟨?_, ?_, ?_⟩
  · intro entry hentry
    rw [Valkey.live_eq_some] at hentry
    obtain rfl := Option.some.inj ((Valkey.set_entries_self).symm.trans hentry.1)
    exact ⟨number, hlast⟩
  · rw [World.after, hinTime, ← hlocked.agree]
    rfl
  · rw [World.after, hinTime]
    rintro hinTime holder deadline ⟨hacquire, hrelease⟩ hwithin
    rcases mem_history_after.mp hacquire with ⟨rfl, hsame⟩ | hold
    · obtain rfl := (LockStep.acquire.inj hsame).2
      refine ⟨hlast, Option.isSome_iff_exists.mpr ⟨_, Valkey.live_eq_some.mpr
        ⟨Valkey.set_entries_self, hwithin⟩⟩⟩
    · have hholds : Holds key world holder deadline :=
        ⟨hold, fun time removed hmem ↦ hrelease time removed (mem_history_after.mpr (.inr hmem))⟩
      have hsome := (hlocked.held hinTime holder deadline hholds hwithin).2
      rw [hfree] at hsome
      cases hsome

theorem Acquired.holds (hacquired : Acquired key deadline (world.history number)) :
    Holds key world number deadline := by
  refine ⟨hacquired.1, fun time removed hmem ↦ ?_⟩
  rcases hacquired.2 _ hmem with h | h <;> cases h

theorem Acquired.deadline_eq (hacquired : Acquired key deadline (world.history number)) {other : Date}
    (hother : (number, .acquire key other) ∈ world.log) : other = deadline := by
  rcases hacquired.2 _ (mem_history.mpr hother) with h | h
  · cases h
  · exact (LockStep.acquire.inj h).2

/-- Assumes: the process has acquired the lock and done nothing else. The two conditions agree on its
release: the entry it finds is its own exactly when its deadline is still to come. -/
theorem Locked.release_agree (hlocked : Locked key world)
    (hacquired : Acquired key deadline (world.history number)) :
    RemovesOwn key ((number, .release key world.db.now (world.db.live (lockKey key)).isSome) :: world.log) ↔
      InTime key ((number, .release key world.db.now (world.db.live (lockKey key)).isSome) :: world.log) := by
  cases hlive : world.db.live (lockKey key) with
  | none =>
    refine Iff.trans ?_ (hlocked.agree.trans ?_)
    · rfl
    · refine ⟨fun h holder time deadline hrelease hacquire ↦ ?_, inTime_of_cons⟩
      exact h holder time deadline ((List.mem_cons.mp hrelease).resolve_left (by simp))
        ((List.mem_cons.mp hacquire).resolve_left (by simp))
  | some entry =>
    obtain ⟨last, hlast⟩ := hlocked.entry entry hlive
    have hunexpired := (Valkey.live_eq_some.mp hlive).2
    constructor
    · rintro ⟨hremoved, hearlier⟩ holder time other hrelease hacquire
      have hold := (List.mem_cons.mp hacquire).resolve_left (by simp)
      rcases List.mem_cons.mp hrelease with hnew | hrelease
      · obtain ⟨rfl, hsame⟩ := Prod.mk.inj hnew
        obtain ⟨_, hmine⟩ := hremoved rfl
        obtain ⟨rfl, rfl⟩ := Prod.mk.inj (Option.some.inj (hlast.symm.trans hmine))
        rw [(LockStep.release.inj hsame).2.1, hacquired.deadline_eq hold,
          ← hacquired.deadline_eq (mem_of_lastAcquire hmine)]
        exact hunexpired
      · exact hlocked.agree.mp hearlier holder time other hrelease hold
    · intro hinTime
      have hnow : world.db.now < deadline :=
        hinTime number world.db.now deadline List.mem_cons_self
          (List.mem_cons_of_mem _ (mem_history.mp hacquired.1))
      exact ⟨fun _ ↦ ⟨deadline, (hlocked.held (inTime_of_cons hinTime) number deadline hacquired.holds
        hnow).1⟩, hlocked.agree.mpr (inTime_of_cons hinTime)⟩

/-- Assumes: the process has acquired the lock and done nothing else. Releasing it keeps the
invariant. -/
theorem Locked.release (hlocked : Locked key world)
    (hacquired : Acquired key deadline (world.history number)) :
    Locked key (world.after number
      (.release key world.db.now (world.db.live (lockKey key)).isSome)
      (world.db.del (lockKey key))) := by
  refine ⟨?_, hlocked.release_agree hacquired, ?_⟩
  · intro entry hentry
    rw [Valkey.live_eq_some] at hentry
    cases (Valkey.del_entries_self).symm.trans hentry.1
  · rintro hinTime holder other ⟨hacquire, hrelease⟩ hwithin
    have hne : number ≠ holder := by
      rintro rfl
      exact hrelease _ _ (mem_history_after.mpr (.inl ⟨rfl, rfl⟩))
    have hother : Holds key world holder other := by
      refine ⟨(mem_history_after.mp hacquire).resolve_left fun h ↦ hne h.1, fun time removed hmem ↦ ?_⟩
      exact hrelease time removed (mem_history_after.mpr (.inr hmem))
    -- if the other still held the lock, the entry would be live and this release too late
    obtain ⟨hlast, hlive⟩ := hlocked.held (inTime_of_cons hinTime) holder other hother hwithin
    rw [hlive] at hinTime
    have hnow : world.db.now < deadline :=
      hinTime number world.db.now deadline List.mem_cons_self
        (List.mem_cons_of_mem _ (mem_history.mp hacquired.1))
    have hmine := (hlocked.held (inTime_of_cons hinTime) number deadline hacquired.holds hnow).1
    exact absurd (Prod.mk.inj (Option.some.inj (hmine.symm.trans hlast))).1 hne

/-! ### The processes -/

/-- The processes of a run; they promise each other nothing. -/
def locking (key : String) : Protocol (Valkey String) LockStep where
  permits := anyStep
  invariant := Locked key
  guarantee _ _ _ _ := True

/-- Work elsewhere keeps the invariant, and what the process has done with locks. -/
theorem elsewhere_keeps (property : List LockStep → Prop)
    (hproperty : ∀ history, property history → property (.other :: history))
    (world : World (Valkey String) LockStep) (step : LockStep) (after : Valkey String)
    (hlocked : Locked key world) (hhistory : property (world.history number))
    (hstep : step = .other ∧ after = world.db) :
    (locking key).Keeps number world step after ∧
      property ((world.after number step after).history number) := by
  obtain ⟨rfl, rfl⟩ := hstep
  refine ⟨⟨trivial, hlocked.frame (by simp [LockStep.concerns]) rfl le_rfl⟩, ?_⟩
  rw [history_after_self]
  exact hproperty _ hhistory

/-- `acquireLock` keeps the invariant; afterwards the process has acquired the lock, if it returns
true. -/
theorem acquireLock_keeps (acquired : String) (ttlMs : ℕ+) :
    (locking key).Meets number (acquireLock acquired ttlMs) (Fresh number)
      fun success world ↦ success = true →
        ∃ deadline, Acquired acquired deadline (world.history number) := by
  refine Protocol.meets_atomically (Protocol.stable_history (· = [])) fun world hlocked hfresh _ ↦ ?_
  cases hset : world.db.setNx (lockKey acquired) "1" ttlMs with
  | none =>
    exact ⟨⟨trivial, hlocked.frame (by simp [LockStep.concerns]) rfl le_rfl⟩, fun h ↦ nomatch h⟩
  | some after =>
    obtain ⟨hfree, rfl⟩ := Valkey.setNx_eq_some.mp hset
    refine ⟨⟨trivial, ?_⟩, fun _ ↦ ⟨world.db.now + ttlMs, ?_⟩⟩
    · by_cases hkey : acquired = key
      · subst hkey
        exact hlocked.acquire (by simp [Untouched, show world.history number = [] from hfresh]) hfree
      · exact hlocked.frame hkey
          (Valkey.set_entries_of_ne fun h ↦ hkey (lockKey_injective h).symm) le_rfl
    · rw [history_after_self, show world.history number = [] from hfresh]
      exact ⟨List.mem_cons_self, fun step hstep ↦ .inr (List.mem_singleton.mp hstep)⟩

/-- `releaseLock` of a process that has acquired the lock keeps the invariant. -/
theorem releaseLock_keeps (released : String) {deadline : Date} :
    (locking key).Meets number (releaseLock released)
      (fun world ↦ Acquired released deadline (world.history number)) fun _ _ ↦ True := by
  refine Protocol.meets_atomically (Protocol.stable_history _) fun world hlocked hacquired _ ↦ ?_
  refine ⟨⟨trivial, ?_⟩, trivial⟩
  by_cases hkey : released = key
  · subst hkey
    exact hlocked.release hacquired
  · exact hlocked.frame hkey
      (Valkey.del_entries_of_ne fun h ↦ hkey (lockKey_injective h).symm) le_rfl

/-- A process that uses a lock keeps the invariant. -/
theorem runLocked_keeps (used : String) (ttlMs : ℕ+) (body : Body) :
    (locking key).Meets number (runLocked used ttlMs body) (Fresh number) fun _ _ ↦ True := by
  refine (acquireLock_keeps used ttlMs).bind fun success _ ↦ ?_
  cases success with
  | false => exact fun _ _ _ ↦ trivial
  | true =>
    refine Protocol.Meets.strengthen (Protocol.meets_exists fun deadline ↦ ?_)
      fun _ _ hacquired ↦ hacquired rfl
    refine Protocol.meets_tryFinally body.leaves (Protocol.stable_history _)
      (fun world step after hlocked hacquired _ ↦
        elsewhere_keeps (Acquired used deadline) ?_ world step after hlocked hacquired)
      (releaseLock_keeps used)
    exact fun history ⟨hmem, honly⟩ ↦ ⟨List.mem_cons_of_mem _ hmem, fun step hstep ↦
      (List.mem_cons.mp hstep).elim .inl (honly step)⟩

/-- Every process keeps the invariant. -/
theorem lock_keeps (request : LockRequest) (number : ℕ) :
    (locking key).Meets number request.serve (Fresh number) fun _ _ ↦ True := by
  cases request with
  | takeDailySnapshots runSnapshots => exact runLocked_keeps _ _ runSnapshots
  | runCleanup purgeStaleData => exact runLocked_keeps _ _ purgeStaleData
  | runLocked used ttlMs body => exact runLocked_keeps used ttlMs body
  | tick milliseconds =>
    refine Protocol.meets_atomically (Protocol.stable_history (· = [])) fun world hlocked _ _ ↦ ?_
    exact ⟨⟨trivial, hlocked.frame (by simp [LockStep.concerns]) rfl
      (Int.le_add_of_nonneg_right (Int.natCast_nonneg milliseconds))⟩, trivial⟩

/-- Assumes: the lock is free at the start. In every reachable state, releases have only removed
entries of their own process and no two processes hold the lock within their ttl, exactly when every
release that has removed a live entry came before the deadline of its process. -/
theorem lock_iff_inTime {db : Valkey String} (hfree : db.live (lockKey key) = none)
    {config : Concurrency.Config (Valkey String) LockStep Failure Unit}
    (hreach : Reachable LockRequest.serve anyStep db config) :
    RemovesOwn key config.log ∧ Exclusive key config.toWorld ↔ InTime key config.log := by
  have hinitial : Locked key ⟨db, []⟩ := by
    refine ⟨fun entry hentry ↦ ?_, ⟨fun _ _ _ _ h ↦ (nomatch h), fun _ ↦ trivial⟩,
      fun _ number deadline hholds ↦ ?_⟩
    · rw [hfree] at hentry
      cases hentry
    · cases hholds.1
  have hinv : (locking key).invariant config.toWorld :=
    Protocol.reachable_invariant lock_keeps hinitial hreach
  have hlocked : Locked key config.toWorld := hinv
  refine ⟨fun hsafe ↦ hlocked.agree.mp hsafe.1, fun hinTime ↦ ⟨hlocked.agree.mpr hinTime, ?_⟩⟩
  intro first firstDeadline second secondDeadline hfirst hsecond hfirstWithin hsecondWithin
  have hfirstLast := (hlocked.held hinTime _ _ hfirst hfirstWithin).1
  have hsecondLast := (hlocked.held hinTime _ _ hsecond hsecondWithin).1
  exact (Prod.mk.inj (Option.some.inj (hfirstLast.symm.trans hsecondLast))).1

/-! ### Three processes -/

/-- A body without a step. -/
def emptyBody : Body := ⟨pure (), trivial⟩

/-- A service that releases the lock a second before its ttl has run out, and one that acquires it
afterwards. -/
def punctualRun : List (Choice LockRequest) :=
  [.start (.takeDailySnapshots emptyBody), .resume 0, .start (.tick 3299000), .resume 1, .resume 0,
    .start (.takeDailySnapshots emptyBody), .resume 2]

/-- A witness that the condition can be met. -/
theorem lock_iff_inTime_witness :
    RemovesOwn "cron:daily-snapshot"
        ((Concurrency.Config.initial {}).play LockRequest.serve punctualRun).log ∧
      Exclusive "cron:daily-snapshot"
        ((Concurrency.Config.initial {}).play LockRequest.serve punctualRun).toWorld := by
  refine (lock_iff_inTime rfl (play_reachable (allowsAll_anyStep _ punctualRun))).mpr ?_
  have hlog : ((Concurrency.Config.initial {}).play LockRequest.serve punctualRun).log =
      [(2, .acquire "cron:daily-snapshot" 6599000), (0, .release "cron:daily-snapshot" 3299000 true),
        (1, .other), (0, .acquire "cron:daily-snapshot" 3300000)] := by
    decide +kernel
  rw [hlog]
  intro number time deadline hrelease hacquire
  obtain ⟨rfl, rfl⟩ : number = 0 ∧ time = 3299000 := by simpa using hrelease
  obtain rfl : deadline = 3300000 := by simpa using hacquire
  decide

/-- The work of the first process takes longer than the ttl; a second one acquires the lock, the first
one releases it, and a third one acquires it. -/
def lateRelease : List (Choice LockRequest) :=
  [.start (.takeDailySnapshots emptyBody), .resume 0, .start (.tick 3300000), .resume 1,
    .start (.takeDailySnapshots emptyBody), .resume 2, .resume 0,
    .start (.takeDailySnapshots emptyBody), .resume 3]

/-- Without the condition two processes can hold the lock within their ttl. -/
theorem lockStolen :
    ¬ ∀ (key : String) (db : Valkey String)
      (config : Concurrency.Config (Valkey String) LockStep Failure Unit),
      db.live (lockKey key) = none → Reachable LockRequest.serve anyStep db config →
        RemovesOwn key config.log ∧ Exclusive key config.toWorld := by
  intro halways
  have hexclusive := (halways "cron:daily-snapshot" {} _ rfl
    (play_reachable (allowsAll_anyStep _ lateRelease))).2
  have hheld : ∀ number ∈ [2, 3],
      ((Concurrency.Config.initial {}).play LockRequest.serve lateRelease).history number =
        [.acquire "cron:daily-snapshot" 6600000] := by
    decide +kernel
  have hholds : ∀ number ∈ [2, 3], Holds "cron:daily-snapshot"
      ((Concurrency.Config.initial {}).play LockRequest.serve lateRelease).toWorld number 6600000 :=
    fun number hnumber ↦ ⟨by simp [hheld number hnumber], by simp [hheld number hnumber]⟩
  have hsame := hexclusive 2 _ 3 _ (hholds 2 (by decide)) (hholds 3 (by decide))
    (by decide +kernel) (by decide +kernel)
  cases hsame

end RallyApi.Cache

import RallyApi.Cache.Valkey
import RallyApi.Concurrency.RelyGuarantee
import RallyApi.Platform.Json

/-!
# Idempotency keys

`IdempotencyInterceptor` looks a request up by its key, runs the handler when there is nothing, emits
the response and stores its text. A request that is looked up before the text is stored runs the
handler again, and a response that is no JSON document does not come back as it was.

`handledOnce_iff`: where the first execution succeeds, it is the only one and every request gets its
response, exactly when every later request is looked up after the response has been stored and, if
there is a later request, the response is a JSON document. `handledTwice` is a run of two requests
that overlap.
-/

set_option autoImplicit false
set_option relaxedAutoImplicit false

namespace RallyApi.Cache

open Concurrency Platform

/-! ### The interceptor -/

/-- What a step does with a key: it looks the key up and finds nothing, so the handler runs; it looks
the key up and answers from the text; it emits the outcome of the handler; it stores the text of a
response; or it has nothing to do with keys. -/
inductive IdempotencyStep
  | other
  | miss (key : String)
  | replay (key : String) (outcome : Except Failure JsValue)
  | complete (key : String) (outcome : Except Failure JsValue)
  | store (key : String) (response : JsValue)

/-- Valkey with the texts of responses. -/
abbrev ResponseCache := Valkey (Option JsValue)

/-- A call of the interceptor. -/
abbrev HttpCall := Call ResponseCache IdempotencyStep Failure

/-- The handler behind the interceptor. -/
abbrev Handler := Elsewhere (Option JsValue) IdempotencyStep .other JsValue

/-- What the interceptor reads of a request. -/
structure HttpRequest where
  sub : Option String := none
  ip : Option String := none
  userAgent : Option String := none
  method : String
  url : String
  idempotencyKey : List String := []
  deriving DecidableEq, Repr

/-- `IDEMPOTENCY_METHODS`. -/
def idempotencyMethods : List String := ["POST", "PUT"]

/-- `IDEMPOTENCY_TTL_SECONDS`, in milliseconds. -/
def idempotencyTtlMs : ℕ := 24 * 60 * 60 * 1000

section Interceptor

variable (sha256Hex : String → String)

/-- The user of a request, or a fingerprint of an anonymous one. -/
def HttpRequest.userId (request : HttpRequest) : String :=
  request.sub.getD
    (String.ofList ((sha256Hex (request.ip.getD "" ++ ":" ++ request.userAgent.getD "")).toList.take 16))

/-- The key of a request; none for a request without idempotency. -/
def HttpRequest.redisKey (request : HttpRequest) : Option String :=
  if request.method ∈ idempotencyMethods then
    match request.idempotencyKey.head? with
    | none => none
    | some key =>
      if key = "" then none
      else some ("idem:" ++ request.userId sha256Hex ++ ":" ++ request.method ++ ":" ++
        request.url ++ ":" ++ key)
  else none

/-- `GET redisKey`; a text that is found is parsed and emitted at once. -/
def lookUp (redisKey : String) : HttpCall (Option (Except Failure JsValue)) :=
  Call.atomically
    (fun store ↦ match store.get redisKey with
      | some cached => .replay redisKey (JsValue.parse cached)
      | none => .miss redisKey)
    fun store ↦ ((store.get redisKey).map JsValue.parse, store)

/-- The `tap` on a response. A response without a text is stored as the empty text, and one that
cannot be printed is not stored. -/
def storeResponse (redisKey : String) (response : JsValue) : HttpCall Unit :=
  match response.stringify with
  | .error _ => pure ()
  | .ok text =>
    Call.atomically (fun _ ↦ .store redisKey response)
      fun store ↦ ((), store.set redisKey text idempotencyTtlMs)

/-- The outcome of the handler goes out to the client. -/
def emit (redisKey : String) (outcome : Except Failure JsValue) : HttpCall Unit :=
  Call.query (.complete redisKey outcome) fun _ ↦ ()

/-- The handler and what follows it. The response is emitted while its text is on the way to Valkey, so
the command comes after it. -/
def execute (redisKey : String) (handler : Handler) : HttpCall JsValue := do
  let outcome ← handler.call.outcome
  emit redisKey outcome
  match outcome with
  | .error failure => throw failure
  | .ok response => do
    storeResponse redisKey response
    pure response

/-- `IdempotencyInterceptor.intercept`. -/
def intercept (request : HttpRequest) (handler : Handler) : HttpCall JsValue :=
  match request.redisKey sha256Hex with
  | none => handler.call
  | some redisKey => do
    let cached ← lookUp redisKey
    match cached with
    | some outcome => Call.done outcome
    | none => execute redisKey handler

/-- A request with the handler it is for, or the passing of time. -/
inductive ApiRequest
  | http (request : HttpRequest) (handler : Handler)
  | tick (milliseconds : ℕ)

/-- The call that serves a request. -/
def ApiRequest.serve : ApiRequest → HttpCall JsValue
  | .http request handler => intercept sha256Hex request handler
  | .tick milliseconds => (fun _ ↦ JsValue.undefined) <$> Cache.tick .other milliseconds

end Interceptor

/-! ### The property and the condition -/

/-- The history of a run. -/
abbrev RequestLog := List (ℕ × IdempotencyStep)

/-- The requests for which the handler was run under a key, most recent first. -/
def executions (key : String) (log : RequestLog) : List ℕ :=
  log.filterMap fun (number, step) ↦ match step with
    | .miss looked => if looked = key then some number else none
    | _ => none

/-- The first execution under a key was for the given request, and it has returned a response. -/
def FirstSucceeds (key : String) (log : RequestLog) (first : ℕ) (response : JsValue) : Prop :=
  (executions key log).getLast? = some first ∧ (first, .complete key (.ok response)) ∈ log

/-- The handler was run once under a key, and every request that has completed has got the
response. -/
def HandledOnce (key : String) (log : RequestLog) (first : ℕ) (response : JsValue) : Prop :=
  executions key log = [first] ∧
    ∀ number outcome, (number, .complete key outcome) ∈ log ∨ (number, .replay key outcome) ∈ log →
      outcome = .ok response

/-- The step looks a key up. -/
def IdempotencyStep.LooksUp (key : String) : IdempotencyStep → Prop
  | .miss looked | .replay looked _ => looked = key
  | _ => False

/-- A response has been stored under a key. -/
def Stored (key : String) (log : RequestLog) : Prop :=
  ∃ number response, (number, .store key response) ∈ log

/-- Every look-up of a key but the first comes after a response has been stored under it. -/
def WaitsForStore (key : String) : RequestLog → Prop
  | [] => True
  | (_, step) :: earlier =>
    (step.LooksUp key → executions key earlier ≠ [] → Stored key earlier) ∧
      WaitsForStore key earlier

/-- A key has been looked up for another request than the given one. -/
def Retried (key : String) (log : RequestLog) (first : ℕ) : Prop :=
  ∃ other step, (other, step) ∈ log ∧ step.LooksUp key ∧ other ≠ first

/-! ### Histories -/

/-- What look-ups find: nothing before a response has been stored, and the text of a stored response
afterwards. -/
def Consistent (key : String) : RequestLog → Prop
  | [] => True
  | (_, step) :: earlier =>
    (step = .miss key → ¬ Stored key earlier) ∧
      (∀ outcome, step = .replay key outcome → ∃ number response text,
        (number, .store key response) ∈ earlier ∧ response.stringify = .ok text ∧
          outcome = JsValue.parse text) ∧
      Consistent key earlier

/-- In what order the steps of one request come: a look-up, the end of the handler, the storing of its
response; each of them once. -/
structure Ordered (key : String) (log : RequestLog) : Prop where
  stored : ∀ number response, (number, .store key response) ∈ log →
    (number, .complete key (.ok response)) ∈ log
  missed : ∀ number outcome, (number, .complete key outcome) ∈ log → (number, .miss key) ∈ log
  completedOnce : ∀ number outcome other, (number, .complete key outcome) ∈ log →
    (number, .complete key other) ∈ log → outcome = other
  lookedUpOnce : ∀ number outcome, (number, .replay key outcome) ∈ log → (number, .miss key) ∉ log

variable {key : String} {log : RequestLog} {first number : ℕ} {response : JsValue}

theorem mem_executions : number ∈ executions key log ↔ (number, .miss key) ∈ log := by
  simp only [executions, List.mem_filterMap, Prod.exists]
  constructor
  · rintro ⟨other, step, hmem, hfound⟩
    cases step <;> simp at hfound
    obtain ⟨rfl, rfl⟩ := hfound
    exact hmem
  · exact fun hmem ↦ ⟨number, _, hmem, by simp⟩

theorem executions_miss :
    executions key ((number, .miss key) :: log) = number :: executions key log := by
  simp [executions]

theorem executions_of_ne {step : IdempotencyStep} (hstep : step ≠ .miss key) :
    executions key ((number, step) :: log) = executions key log := by
  cases step <;> simp_all [executions]

/-- Assumes: look-ups find what has been stored. Where every look-up but the first waits for the
response, the handler is run once at most. -/
theorem executions_length_le (hconsistent : Consistent key log) (hwaits : WaitsForStore key log) :
    (executions key log).length ≤ 1 := by
  induction log with
  | nil => exact Nat.zero_le 1
  | cons entry earlier ih =>
    obtain ⟨number, step⟩ := entry
    obtain ⟨hmiss, _, hrest⟩ := hconsistent
    obtain ⟨hwait, hwaitsRest⟩ := hwaits
    by_cases hstep : step = .miss key
    · subst hstep
      have hnone : executions key earlier = [] := by
        by_contra hsome
        exact hmiss rfl (hwait rfl hsome)
      rw [executions_miss, hnone]
      exact le_rfl
    · rw [executions_of_ne hstep]
      exact ih hrest hwaitsRest

/-- Assumes: look-ups find what has been stored. Where the handler is run once at most, every look-up
but the first waits for the response. -/
theorem waitsForStore_of_length_le (hconsistent : Consistent key log)
    (honce : (executions key log).length ≤ 1) : WaitsForStore key log := by
  induction log with
  | nil => trivial
  | cons entry earlier ih =>
    obtain ⟨number, step⟩ := entry
    obtain ⟨_, hreplay, hrest⟩ := hconsistent
    by_cases hstep : step = .miss key
    · subst hstep
      rw [executions_miss, List.length_cons] at honce
      have hnone : executions key earlier = [] := List.length_eq_zero_iff.mp (by omega)
      exact ⟨fun _ hsome ↦ absurd hnone hsome, ih hrest (by simp [hnone])⟩
    · rw [executions_of_ne hstep] at honce
      refine ⟨fun hlooksUp _ ↦ ?_, ih hrest honce⟩
      cases step with
      | miss looked => exact absurd (congrArg _ hlooksUp) hstep
      | replay looked outcome =>
        obtain rfl : looked = key := hlooksUp
        obtain ⟨holder, stored, _, hmem, _⟩ := hreplay outcome rfl
        exact ⟨holder, stored, hmem⟩
      | other | complete _ _ | store _ _ => cases hlooksUp

/-- Assumes: look-ups find what has been stored. A request that is answered from a text gets what the
text of a stored response is parsed to. -/
theorem Consistent.replayed (hconsistent : Consistent key log) {outcome : Except Failure JsValue}
    (hreplay : (number, .replay key outcome) ∈ log) :
    ∃ holder response text, (holder, .store key response) ∈ log ∧
      response.stringify = .ok text ∧ outcome = JsValue.parse text := by
  induction log with
  | nil => cases hreplay
  | cons entry earlier ih =>
    obtain ⟨other, step⟩ := entry
    obtain ⟨_, hfound, hrest⟩ := hconsistent
    rcases List.mem_cons.mp hreplay with hnew | hold
    · obtain ⟨holder, response, text, hmem, hparsed⟩ := hfound outcome (Prod.mk.inj hnew).2.symm
      exact ⟨holder, response, text, List.mem_cons_of_mem _ hmem, hparsed⟩
    · obtain ⟨holder, response, text, hmem, hparsed⟩ := ih hrest hold
      exact ⟨holder, response, text, List.mem_cons_of_mem _ hmem, hparsed⟩

/-- Assumes: the only execution has returned a response. What has been stored is that response. -/
theorem Ordered.stored_eq (hordered : Ordered key log) (honce : executions key log = [first])
    (hfirst : (first, .complete key (.ok response)) ∈ log) {holder : ℕ} {other : JsValue}
    (hstored : (holder, .store key other) ∈ log) : other = response := by
  have hcomplete := hordered.stored holder other hstored
  have hmem := mem_executions.mpr (hordered.missed _ _ hcomplete)
  rw [honce, List.mem_singleton] at hmem
  subst hmem
  exact Except.ok.inj (hordered.completedOnce _ _ _ hcomplete hfirst)

/-- Assumes: look-ups find what has been stored, requests take their steps in order, and the first
execution has returned a response. It is the only one and every request gets its response exactly
when every later look-up waits for the response and, if there is one, the response is JSON. -/
theorem handledOnce_iff_of_consistent (hconsistent : Consistent key log)
    (hordered : Ordered key log) (hfirst : FirstSucceeds key log first response) :
    HandledOnce key log first response ↔
      WaitsForStore key log ∧ (Retried key log first → response.isJson = true) := by
  obtain ⟨hlast, hcomplete⟩ := hfirst
  constructor
  · rintro ⟨honce, hsame⟩
    refine ⟨waitsForStore_of_length_le hconsistent (by simp [honce]), ?_⟩
    rintro ⟨other, step, hmem, hlooksUp, hne⟩
    cases step with
    | miss looked =>
      obtain rfl : looked = key := hlooksUp
      have hother := mem_executions.mpr hmem
      rw [honce, List.mem_singleton] at hother
      exact absurd hother hne
    | replay looked outcome =>
      obtain rfl : looked = key := hlooksUp
      obtain ⟨holder, stored, text, hstored, htext, hparsed⟩ := hconsistent.replayed hmem
      obtain rfl := hordered.stored_eq honce hcomplete hstored
      rw [hsame other outcome (.inr hmem)] at hparsed
      cases text with
      | none => cases hparsed
      | some text =>
        obtain rfl := Except.ok.inj hparsed
        exact JsValue.stringify_eq_self.mp htext
    | other | complete _ _ | store _ _ => cases hlooksUp
  · rintro ⟨hwaits, hjson⟩
    have honce : executions key log = [first] := by
      have hlength := executions_length_le hconsistent hwaits
      cases hexecutions : executions key log with
      | nil => simp [hexecutions] at hlast
      | cons only rest =>
        rw [hexecutions, List.length_cons] at hlength
        obtain rfl : rest = [] := List.length_eq_zero_iff.mp (by omega)
        simpa [hexecutions] using hlast
    refine ⟨honce, fun number outcome hended ↦ ?_⟩
    rcases hended with hended | hreplay
    · have hmem := mem_executions.mpr (hordered.missed _ _ hended)
      rw [honce, List.mem_singleton] at hmem
      subst hmem
      exact hordered.completedOnce _ _ _ hended hcomplete
    · obtain ⟨holder, stored, text, hstored, htext, hparsed⟩ := hconsistent.replayed hreplay
      obtain rfl := hordered.stored_eq honce hcomplete hstored
      have hne : number ≠ first := by
        rintro rfl
        exact hordered.lookedUpOnce _ _ hreplay (hordered.missed _ _ hcomplete)
      have htext' := JsValue.stringify_eq_self.mpr (hjson ⟨number, _, hreplay, rfl, hne⟩)
      obtain rfl := Except.ok.inj (htext.symm.trans htext')
      exact hparsed

/-! ### What a step preserves -/

/-- What holds of a run since the given time: requests take their steps in order, a live text is one
that has been stored, it stays for the ttl, and until then look-ups find what has been stored. -/
structure Served (key : String) (start : Date) (world : World ResponseCache IdempotencyStep) :
    Prop where
  ordered : Ordered key world.log
  later : start ≤ world.db.now
  found : ∀ entry, world.db.live key = some entry → ∃ number response,
    (number, .store key response) ∈ world.log ∧ response.stringify = .ok entry.value
  kept : Stored key world.log → ∃ entry, world.db.entries key = some entry ∧
    start + idempotencyTtlMs ≤ entry.expiresAt
  consistent : world.db.now < start + idempotencyTtlMs → Consistent key world.log

/-- The step is about the key. -/
def IdempotencyStep.concerns (key : String) : IdempotencyStep → Prop
  | .other => False
  | .miss looked | .replay looked _ => looked = key
  | .complete ended _ => ended = key
  | .store stored _ => stored = key

variable {start : Date} {world : World ResponseCache IdempotencyStep} {label : IdempotencyStep}
  {after : ResponseCache}

/-- Assumes: a step that a request takes in its order. The order of the steps is kept. -/
theorem Ordered.cons (hordered : Ordered key log) {step : IdempotencyStep}
    (hstore : ∀ response, step = .store key response → (number, .complete key (.ok response)) ∈ log)
    (hcomplete : ∀ outcome, step = .complete key outcome →
      (number, .miss key) ∈ log ∧ ∀ other, (number, .complete key other) ∉ log)
    (hmiss : step = .miss key → ∀ outcome, (number, .replay key outcome) ∉ log)
    (hreplay : ∀ outcome, step = .replay key outcome → (number, .miss key) ∉ log) :
    Ordered key ((number, step) :: log) := by
  constructor
  · intro holder response hmem
    refine List.mem_cons_of_mem _ ?_
    rcases List.mem_cons.mp hmem with hnew | hold
    · obtain ⟨rfl, hstep⟩ := Prod.mk.inj hnew
      exact hstore response hstep.symm
    · exact hordered.stored holder response hold
  · intro holder outcome hmem
    refine List.mem_cons_of_mem _ ?_
    rcases List.mem_cons.mp hmem with hnew | hold
    · obtain ⟨rfl, hstep⟩ := Prod.mk.inj hnew
      exact (hcomplete outcome hstep.symm).1
    · exact hordered.missed holder outcome hold
  · intro holder outcome other hmem hother
    rcases List.mem_cons.mp hmem with hnew | hold <;>
      rcases List.mem_cons.mp hother with hnewOther | holdOther
    · obtain ⟨rfl, hstep⟩ := Prod.mk.inj hnew
      exact (IdempotencyStep.complete.inj (hstep.trans (Prod.mk.inj hnewOther).2.symm)).2
    · obtain ⟨rfl, hstep⟩ := Prod.mk.inj hnew
      exact absurd holdOther ((hcomplete outcome hstep.symm).2 other)
    · obtain ⟨rfl, hstep⟩ := Prod.mk.inj hnewOther
      exact absurd hold ((hcomplete other hstep.symm).2 outcome)
    · exact hordered.completedOnce holder outcome other hold holdOther
  · intro holder outcome hmem hmissed
    rcases List.mem_cons.mp hmem with hnew | hold <;>
      rcases List.mem_cons.mp hmissed with hnewMissed | holdMissed
    · cases (Prod.mk.inj hnew).2.trans (Prod.mk.inj hnewMissed).2.symm
    · obtain ⟨rfl, hstep⟩ := Prod.mk.inj hnew
      exact hreplay outcome hstep.symm holdMissed
    · obtain ⟨rfl, hstep⟩ := Prod.mk.inj hnewMissed
      exact hmiss hstep.symm outcome hold
    · exact hordered.lookedUpOnce holder outcome hold holdMissed

/-- Assumes: a step that is no look-up of the key, stores nothing under it and leaves its entry alone.
What the invariant says of the entry and of look-ups is kept. -/
theorem Served.step (hserved : Served key start world)
    (hordered : Ordered key ((number, label) :: world.log)) (hlooksUp : ¬ label.LooksUp key)
    (hstore : ∀ response, label ≠ .store key response)
    (hentry : after.entries key = world.db.entries key) (hnow : world.db.now ≤ after.now) :
    Served key start (world.after number label after) := by
  refine ⟨hordered, Int.le_trans hserved.later hnow, ?_, ?_, ?_⟩
  · intro entry hlive
    obtain ⟨hafter, hunexpired⟩ := Valkey.live_eq_some.mp hlive
    obtain ⟨holder, response, hmem, htext⟩ := hserved.found entry
      (Valkey.live_eq_some.mpr ⟨hentry.symm.trans hafter, Int.lt_of_le_of_lt hnow hunexpired⟩)
    exact ⟨holder, response, List.mem_cons_of_mem _ hmem, htext⟩
  · rintro ⟨holder, response, hmem⟩
    change ∃ entry, after.entries key = some entry ∧ _
    rw [hentry]
    exact hserved.kept ⟨holder, response, (List.mem_cons.mp hmem).resolve_left fun hnew ↦
      hstore response (Prod.mk.inj hnew).2.symm⟩
  · refine fun hwithin ↦ ⟨?_, ?_, hserved.consistent (Int.lt_of_le_of_lt hnow hwithin)⟩
    · rintro rfl
      exact absurd rfl hlooksUp
    · rintro outcome rfl
      exact absurd rfl hlooksUp

/-- A step that is not about the key keeps the invariant. -/
theorem Served.frame (hserved : Served key start world) (hlabel : ¬ label.concerns key)
    (hentry : after.entries key = world.db.entries key) (hnow : world.db.now ≤ after.now) :
    Served key start (world.after number label after) := by
  have hne : ∀ step, step.concerns key → label ≠ step := fun step hconcerns hsame ↦
    hlabel (hsame ▸ hconcerns)
  refine hserved.step (hserved.ordered.cons ?_ ?_ ?_ ?_) ?_ ?_ hentry hnow
  · exact fun response hstep ↦ absurd hstep (hne (.store key response) rfl)
  · exact fun outcome hstep ↦ absurd hstep (hne (.complete key outcome) rfl)
  · exact fun hstep ↦ absurd hstep (hne (.miss key) rfl)
  · exact fun outcome hstep ↦ absurd hstep (hne (.replay key outcome) rfl)
  · intro hlooksUp
    cases label <;> first | exact hlabel hlooksUp | cases hlooksUp
  · exact fun response ↦ hne (.store key response) rfl

/-- Assumes: the look-up of a request that has not taken a step. What the invariant says of the entry
is kept, and of look-ups if it finds what has been stored. -/
theorem Served.lookUp (hserved : Served key start world) (hfresh : Fresh number world)
    (hlooksUp : label.LooksUp key)
    (hconsistent : world.db.now < start + idempotencyTtlMs →
      Consistent key ((number, label) :: world.log)) :
    Served key start (world.after number label world.db) := by
  have hnew : ∀ step, (number, step) ∉ world.log := fun step hmem ↦ by
    rw [← mem_history, show world.history number = [] from hfresh] at hmem
    cases hmem
  have hstore : ∀ response, label ≠ .store key response := by
    rintro response rfl
    cases hlooksUp
  refine ⟨hserved.ordered.cons ?_ ?_ ?_ ?_, hserved.later, ?_, ?_, hconsistent⟩
  · exact fun response hstep ↦ absurd hstep (hstore response)
  · rintro outcome rfl
    cases hlooksUp
  · exact fun _ _ ↦ hnew _
  · exact fun _ _ ↦ hnew _
  · intro entry hlive
    obtain ⟨holder, response, hmem, htext⟩ := hserved.found entry hlive
    exact ⟨holder, response, List.mem_cons_of_mem _ hmem, htext⟩
  · rintro ⟨holder, response, hmem⟩
    exact hserved.kept ⟨holder, response, (List.mem_cons.mp hmem).resolve_left fun hsame ↦
      hstore response (Prod.mk.inj hsame).2.symm⟩

/-- A look-up that finds nothing keeps the invariant. -/
theorem Served.miss (hserved : Served key start world) (hfresh : Fresh number world)
    (hget : world.db.get key = none) :
    Served key start (world.after number (.miss key) world.db) := by
  refine hserved.lookUp hfresh rfl fun hwithin ↦ ⟨fun _ hstored ↦ ?_, by simp,
    hserved.consistent hwithin⟩
  obtain ⟨entry, hentry, hexpires⟩ := hserved.kept hstored
  have hlive := Valkey.live_eq_some.mpr ⟨hentry, Int.lt_of_lt_of_le hwithin hexpires⟩
  simp [Valkey.get, hlive] at hget

/-- A look-up that finds a text keeps the invariant. -/
theorem Served.replay (hserved : Served key start world) (hfresh : Fresh number world)
    {cached : Option JsValue} (hget : world.db.get key = some cached) :
    Served key start (world.after number (.replay key (JsValue.parse cached)) world.db) := by
  obtain ⟨entry, hlive, rfl⟩ := Option.map_eq_some_iff.mp hget
  obtain ⟨holder, response, hstored, htext⟩ := hserved.found entry hlive
  refine hserved.lookUp hfresh rfl fun hwithin ↦ ⟨fun hmiss ↦ (nomatch hmiss), fun outcome heq ↦ ?_,
    hserved.consistent hwithin⟩
  exact ⟨holder, response, entry.value, hstored, htext, (IdempotencyStep.replay.inj heq).2.symm⟩

/-- Assumes: the handler was run for the request and its outcome has not been emitted. Emitting it
keeps the invariant. -/
theorem Served.complete (hserved : Served key start world)
    (hmissed : .miss key ∈ world.history number)
    (hpending : ∀ outcome, .complete key outcome ∉ world.history number)
    {outcome : Except Failure JsValue} :
    Served key start (world.after number (.complete key outcome) world.db) := by
  refine hserved.step (hserved.ordered.cons (by simp) ?_ (by simp) (by simp))
    (fun hlooksUp ↦ nomatch hlooksUp) (by simp) rfl (Int.le_refl _)
  exact fun _ _ ↦ ⟨mem_history.mp hmissed, fun other hmem ↦ hpending other (mem_history.mpr hmem)⟩

/-- Assumes: the response has been emitted. Storing its text keeps the invariant. -/
theorem Served.store (hserved : Served key start world) {response : JsValue} {text : Option JsValue}
    (hcompleted : .complete key (.ok response) ∈ world.history number)
    (htext : response.stringify = .ok text) :
    Served key start (world.after number (.store key response)
      (world.db.set key text idempotencyTtlMs)) := by
  refine ⟨hserved.ordered.cons ?_ (by simp) (by simp) (by simp), hserved.later, ?_, ?_, ?_⟩
  · rintro other hstep
    obtain rfl := (IdempotencyStep.store.inj hstep).2
    exact mem_history.mp hcompleted
  · intro entry hlive
    obtain rfl := Option.some.inj
      (Valkey.set_entries_self.symm.trans (Valkey.live_eq_some.mp hlive).1)
    exact ⟨number, response, List.mem_cons_self, htext⟩
  · exact fun _ ↦ ⟨_, Valkey.set_entries_self, Int.add_le_add_right hserved.later _⟩
  · exact fun hwithin ↦ ⟨fun hmiss ↦ (nomatch hmiss), fun _ hreplay ↦ (nomatch hreplay),
      hserved.consistent hwithin⟩

/-! ### The requests -/

/-- The requests of a run; they promise each other nothing. -/
def serving (key : String) (start : Date) : Protocol ResponseCache IdempotencyStep where
  permits := anyStep
  invariant := Served key start
  guarantee _ _ _ _ := True

/-- Work elsewhere keeps the invariant, and what the request has done so far. -/
theorem elsewhere_serves (property : List IdempotencyStep → Prop)
    (hproperty : ∀ history, property history → property (.other :: history))
    (world : World ResponseCache IdempotencyStep) (step : IdempotencyStep) (after : ResponseCache)
    (hserved : Served key start world) (hhistory : property (world.history number))
    (hstep : step = .other ∧ after = world.db) :
    (serving key start).Keeps number world step after ∧
      property ((world.after number step after).history number) := by
  obtain ⟨rfl, rfl⟩ := hstep
  refine ⟨⟨trivial, hserved.frame (fun h ↦ nomatch h) rfl (Int.le_refl _)⟩, ?_⟩
  rw [history_after_self]
  exact hproperty _ hhistory

/-- What a request has done: it has been looked up without success, and the outcome of its handler has
not been emitted. -/
def Missed (key : String) (history : List IdempotencyStep) : Prop :=
  .miss key ∈ history ∧ ∀ outcome, .complete key outcome ∉ history

/-- A look-up keeps the invariant; afterwards it is known whether the handler has to run. -/
theorem lookUp_serves (looked : String) :
    (serving key start).Meets number (lookUp looked) (Fresh number)
      fun cached world ↦ cached = none → Missed looked (world.history number) := by
  refine Protocol.meets_atomically (Protocol.stable_history (· = [])) fun world hserved hfresh _ ↦ ?_
  have hnothing : world.history number = [] := hfresh
  cases hget : world.db.get looked with
  | some cached =>
    refine ⟨⟨trivial, ?_⟩, fun h ↦ nomatch h⟩
    by_cases hkey : looked = key
    · subst hkey
      exact hserved.replay hfresh hget
    · exact hserved.frame hkey rfl (Int.le_refl _)
  | none =>
    refine ⟨⟨trivial, ?_⟩, fun _ ↦ ?_⟩
    · by_cases hkey : looked = key
      · subst hkey
        exact hserved.miss hfresh hget
      · exact hserved.frame hkey rfl (Int.le_refl _)
    · rw [history_after_self, hnothing]
      exact ⟨List.mem_cons_self, fun _ h ↦ nomatch (List.mem_singleton.mp h)⟩

/-- Storing an emitted response keeps the invariant. -/
theorem storeResponse_serves (stored : String) (response : JsValue) :
    (serving key start).Meets number (storeResponse stored response)
      (fun world ↦ .complete stored (.ok response) ∈ world.history number) fun _ _ ↦ True := by
  unfold storeResponse
  cases htext : response.stringify with
  | error failure => exact fun _ _ _ ↦ trivial
  | ok text =>
    refine Protocol.meets_atomically (Protocol.stable_history _) fun world hserved hcompleted _ ↦ ?_
    refine ⟨⟨trivial, ?_⟩, trivial⟩
    by_cases hkey : stored = key
    · subst hkey
      exact hserved.store hcompleted htext
    · exact hserved.frame hkey (Valkey.set_entries_of_ne fun h ↦ hkey h.symm) (Int.le_refl _)

/-- Running the handler and what follows it keeps the invariant. -/
theorem execute_serves (ran : String) (handler : Handler) :
    (serving key start).Meets number (execute ran handler)
      (fun world ↦ Missed ran (world.history number)) fun _ _ ↦ True := by
  have hhandler : (serving key start).Meets number handler.call.outcome
      (fun world ↦ Missed ran (world.history number))
      fun _ world ↦ Missed ran (world.history number) := by
    refine Protocol.meets_of_only handler.leaves.outcome (Protocol.stable_history (Missed ran))
      fun world step after hserved hmissed _ ↦ elsewhere_serves (Missed ran) ?_ world step after hserved hmissed
    exact fun history ⟨hmem, hpending⟩ ↦ ⟨List.mem_cons_of_mem _ hmem, fun outcome h ↦
      hpending outcome ((List.mem_cons.mp h).resolve_left (by simp))⟩
  refine hhandler.bind fun outcome _ ↦ ?_
  have hemit : (serving key start).Meets number (emit ran outcome)
      (fun world ↦ Missed ran (world.history number))
      fun _ world ↦ .complete ran outcome ∈ world.history number := by
    refine Protocol.meets_query (Protocol.stable_history _) fun world hserved hmissed _ ↦ ?_
    refine ⟨⟨trivial, ?_⟩, ?_⟩
    · by_cases hkey : ran = key
      · subst hkey
        exact hserved.complete hmissed.1 hmissed.2
      · exact hserved.frame hkey rfl (Int.le_refl _)
    · rw [history_after_self]
      exact List.mem_cons_self
  refine hemit.bind fun _ _ ↦ ?_
  cases outcome with
  | error failure => trivial
  | ok response => exact (storeResponse_serves ran response).bind fun _ _ _ _ _ ↦ trivial

/-- Every request keeps the invariant. -/
theorem request_serves (sha256Hex : String → String) (request : ApiRequest) (number : ℕ) :
    (serving key start).Meets number (request.serve sha256Hex) (Fresh number) fun _ _ ↦ True := by
  cases request with
  | tick milliseconds =>
    refine Protocol.Meets.map ?_
    refine Protocol.meets_atomically (Protocol.stable_history (· = [])) fun world hserved _ _ ↦ ?_
    exact ⟨⟨trivial, hserved.frame (fun h ↦ nomatch h) rfl
      (Int.le_add_of_nonneg_right (Int.natCast_nonneg milliseconds))⟩, trivial⟩
  | http request handler =>
    change (serving key start).Meets number (intercept sha256Hex request handler) _ _
    unfold intercept
    cases request.redisKey sha256Hex with
    | none =>
      have helsewhere : (serving key start).Meets number handler.call (fun _ ↦ True)
          fun _ _ ↦ True := by
        refine Protocol.meets_of_only handler.leaves Protocol.stable_true
          fun world step after hserved _ _ hstep ↦ ?_
        exact ⟨(elsewhere_serves (fun _ ↦ True) (fun _ _ ↦ trivial) world step after hserved trivial
          hstep).1, trivial⟩
      exact helsewhere.strengthen fun _ _ _ ↦ trivial
    | some redisKey =>
      refine (lookUp_serves redisKey).bind fun cached _ ↦ ?_
      cases cached with
      | none => exact (execute_serves redisKey handler).strengthen fun _ _ hmissed ↦ hmissed rfl
      | some outcome =>
        cases outcome with
        | error failure => trivial
        | ok response => exact fun _ _ _ ↦ trivial

/-- Assumes: no text is stored under a key at the start, less than the ttl has passed since, and the
first execution under the key has returned a response. The handler was run once and every request
that has completed got that response, exactly when every look-up but the first came after a response
had been stored and, if there was one for another request, the response is a JSON document. -/
theorem handledOnce_iff (sha256Hex : String → String) {db : ResponseCache}
    (hfree : db.live key = none) {config : Concurrency.Config ResponseCache IdempotencyStep Failure JsValue}
    (hreach : Reachable (ApiRequest.serve sha256Hex) anyStep db config)
    (hwithin : config.db.now < db.now + idempotencyTtlMs)
    (hfirst : FirstSucceeds key config.log first response) :
    HandledOnce key config.log first response ↔
      WaitsForStore key config.log ∧ (Retried key config.log first → response.isJson = true) := by
  have hinitial : Served key db.now ⟨db, []⟩ := by
    refine ⟨⟨?_, ?_, ?_, ?_⟩, Int.le_refl _, ?_, ?_, fun _ ↦ trivial⟩
    · exact fun _ _ h ↦ nomatch h
    · exact fun _ _ h ↦ nomatch h
    · exact fun _ _ _ h ↦ nomatch h
    · exact fun _ _ h ↦ nomatch h
    · exact fun entry hlive ↦ nomatch hfree.symm.trans hlive
    · exact fun ⟨_, _, h⟩ ↦ nomatch h
  have hinv : (serving key db.now).invariant config.toWorld :=
    Protocol.reachable_invariant (request_serves sha256Hex) hinitial hreach
  have hserved : Served key db.now config.toWorld := hinv
  exact handledOnce_iff_of_consistent (hserved.consistent hwithin) hserved.ordered hfirst

/-! ### A request and its retry -/

/-- A request that creates something. -/
def createRequest : HttpRequest :=
  { sub := "user", method := "POST", url := "/v1/work-items/1/time-logs", idempotencyKey := ["key"] }

/-- Its key. -/
def createKey : String := "idem:user:POST:/v1/work-items/1/time-logs:key"

/-- A handler that returns a response. -/
def returning (response : JsValue) : Handler := ⟨pure response, trivial⟩

/-- What a handler returns for the first and for the second thing it creates. -/
def created (id : String) : JsValue := .object [("id", .string id)]

/-- A request, and its retry after the response has been stored. -/
def retriedLater : List (Choice ApiRequest) :=
  [.start (.http createRequest (returning (created "first"))), .resume 0, .resume 0, .resume 0,
    .start (.http createRequest (returning (created "second"))), .resume 1]

/-- The history of that run. -/
theorem retriedLater_log :
    ((Concurrency.Config.initial {}).play (ApiRequest.serve id) retriedLater).log =
      [(1, .replay createKey (.ok (created "first"))), (0, .store createKey (created "first")),
        (0, .complete createKey (.ok (created "first"))), (0, .miss createKey)] := by
  rfl

/-- A witness that the condition can be met: the retry gets the response of the first request. -/
theorem handledOnce_iff_witness :
    HandledOnce createKey
      ((Concurrency.Config.initial {}).play (ApiRequest.serve id) retriedLater).log 0
      (created "first") := by
  refine (handledOnce_iff id rfl (play_reachable (allowsAll_anyStep _ retriedLater))
    (by decide +kernel) ?_).mpr ?_
  · rw [retriedLater_log]
    exact ⟨by simp [executions], by simp⟩
  · rw [retriedLater_log]
    refine ⟨?_, fun _ ↦ rfl⟩
    simp [WaitsForStore, IdempotencyStep.LooksUp, Stored, executions]

/-- The retry is looked up while the handler of the first request is running. -/
def retriedAtOnce : List (Choice ApiRequest) :=
  [.start (.http createRequest (returning (created "first"))), .resume 0,
    .start (.http createRequest (returning (created "second"))), .resume 1, .resume 0]

/-- Without the condition the handler is run twice. -/
theorem handledTwice :
    ¬ ∀ (sha256Hex : String → String) (key : String) (db : ResponseCache)
      (config : Concurrency.Config ResponseCache IdempotencyStep Failure JsValue) (first : ℕ)
      (response : JsValue), db.live key = none →
        Reachable (ApiRequest.serve sha256Hex) anyStep db config →
          config.db.now < db.now + idempotencyTtlMs → FirstSucceeds key config.log first response →
            HandledOnce key config.log first response := by
  intro halways
  have hlog : ((Concurrency.Config.initial {}).play (ApiRequest.serve id) retriedAtOnce).log =
      [(0, .complete createKey (.ok (created "first"))), (1, .miss createKey),
        (0, .miss createKey)] := by
    rfl
  have honce := halways id createKey {} _ 0 (created "first") rfl
    (play_reachable (allowsAll_anyStep _ retriedAtOnce)) (by decide +kernel)
    (by rw [hlog]; exact ⟨by simp [executions], by simp⟩)
  rw [hlog] at honce
  simp [HandledOnce, executions] at honce

end RallyApi.Cache

import RallyApi.Cache.RateLimit

/-!
# The guard of the rate limit

`RateLimitGuard` puts every request into a bucket: that of its tier and of the client, who is a session, a
user or an address. All buckets share Valkey, and a request that Valkey does not answer is let through.

`outcomes_eq` refines the guard: it treats the requests of a bucket as a limiter of their own would, which
does not know of any other request. `served_le` is its budget: at most the limit in a window, and at most
twice the limit in any interval of the length of a window.
-/

set_option autoImplicit false
set_option relaxedAutoImplicit false

namespace RallyApi.Cache

open Limiter Platform

/-! ### Tiers and buckets -/

/-- `RateLimitTier`. -/
inductive RateLimitTier
  | default
  | strict
  | authLogin
  | authRefresh
  | authForgot
  deriving DecidableEq, Repr

/-- The name of a tier. -/
def RateLimitTier.name : RateLimitTier → String
  | .default => "DEFAULT"
  | .strict => "STRICT"
  | .authLogin => "AUTH_LOGIN"
  | .authRefresh => "AUTH_REFRESH"
  | .authForgot => "AUTH_FORGOT"

/-- `RATE_LIMIT_TIERS`: the limit and the window of a tier. -/
def RateLimitTier.limits : RateLimitTier → ℕ × ℕ
  | .default => (100, 60)
  | .strict => (20, 60)
  | .authLogin => (5, 15 * 60)
  | .authRefresh => (30, 60)
  | .authForgot => (3, 60 * 60)

theorem RateLimitTier.limit_pos (tier : RateLimitTier) : 0 < tier.limits.1 := by
  cases tier <;> decide

theorem RateLimitTier.windowSeconds_pos (tier : RateLimitTier) : 0 < tier.limits.2 := by
  cases tier <;> decide

/-- The configuration of a tier. -/
def RateLimitTier.config (tier : RateLimitTier) : RateLimit :=
  ⟨tier.limits.1, tier.limits.2, tier.limit_pos, tier.windowSeconds_pos⟩

/-- `keyBy: 'refreshToken'`. -/
def RateLimitTier.keyByRefreshToken : RateLimitTier → Bool
  | .authRefresh => true
  | _ => false

/-- Who a request is counted for. -/
inductive Client
  | session (digest : String)
  | user (id : String)
  | address (ip : String)
  deriving DecidableEq, Repr

/-- `identifier`. -/
def Client.identifier : Client → String
  | .session digest => "session:" ++ digest
  | .user id => "uid:" ++ id
  | .address ip => "ip:" ++ ip

/-- A tier, and a client. -/
abbrev Bucket := RateLimitTier × Client

/-- `` `${tier}:${identifier}` ``. -/
def Bucket.key (bucket : Bucket) : String := bucket.1.name ++ ":" ++ bucket.2.identifier

/-! ### Requests -/

/-- What becomes of the `MULTI` of a request: it is answered, it counts the request but the answer does not
arrive, or it does not reach Valkey. -/
inductive Backend
  | answers
  | loses
  | fails
  deriving DecidableEq, Repr

/-- A request, some time after the one before: the metadata of its handler and class, the subject of its
token, its cookie, its address, and what becomes of its `MULTI`. -/
structure GuardedRequest where
  wait : ℕ
  handlerSkips : Option Bool := none
  classSkips : Option Bool := none
  handlerTier : Option RateLimitTier := none
  classTier : Option RateLimitTier := none
  sub : Option String := none
  refreshCookie : Option String := none
  ip : String
  backend : Backend := .answers
  deriving DecidableEq, Repr

/-- `@SkipRateLimit()` on the handler, or else on the class. -/
def GuardedRequest.skips (request : GuardedRequest) : Bool :=
  (request.handlerSkips.orElse fun _ ↦ request.classSkips).getD false

/-- `@RateLimit(…)` on the handler, or else on the class. -/
def GuardedRequest.tier (request : GuardedRequest) : RateLimitTier :=
  (request.handlerTier.orElse fun _ ↦ request.classTier).getD .default

/-- Who the request is counted for. An empty cookie or subject is none. Assumes: `sha256` is the digest in
hexadecimal digits. -/
def GuardedRequest.client (sha256 : String → String) (request : GuardedRequest) : Client :=
  if request.tier.keyByRefreshToken then
    match request.refreshCookie.filter (· ≠ "") with
    | some rawCookie => .session ((sha256 rawCookie).take 32).toString
    | none => .address request.ip
  else
    match request.sub.filter (· ≠ "") with
    | some sub => .user sub
    | none => .address request.ip

/-- The bucket of a request that is counted. -/
def GuardedRequest.bucket (sha256 : String → String) (request : GuardedRequest) : Option Bucket :=
  if request.skips then none else some (request.tier, request.client sha256)

/-! ### `canActivate` -/

/-- The headers `RateLimit-Limit`, `RateLimit-Remaining` and `RateLimit-Reset`. -/
structure RateLimitHeaders where
  limit : ℕ
  remaining : ℕ
  reset : ℤ
  deriving DecidableEq, Repr

/-- What the guard does: it lets the request through without counting it, or because Valkey has not
answered, or within the limit, or it throws a `RateLimitedException` with `Retry-After`. -/
inductive GuardOutcome
  | skipped
  | failedOpen
  | allowed (headers : RateLimitHeaders)
  | limited (headers : RateLimitHeaders) (retryAfter : ℤ)
  deriving DecidableEq, Repr

/-- What the guard does with the answer of `consumeRateLimit`, at a time. -/
def answer (tier : RateLimit) (now : Date) (result : RateLimitResult) : GuardOutcome :=
  let headers := { limit := tier.limit, remaining := result.remaining, reset := result.resetAt }
  if result.allowed then .allowed headers else .limited headers (max (result.resetAt - now / 1000) 1)

/-- `canActivate`. The answer of Valkey takes no time. -/
def canActivate (sha256 : String → String) (request : GuardedRequest) (store : Valkey ℕ) :
    GuardOutcome × Valkey ℕ :=
  match request.bucket sha256 with
  | none => (.skipped, store)
  | some bucket =>
    let tier := bucket.1.config
    let (result, counted) := consumeRateLimit bucket.key tier.limit tier.windowSeconds store
    match request.backend with
    | .answers => (answer tier store.now result, counted)
    | .loses => (.failedOpen, counted)
    | .fails => (.failedOpen, store)

/-- A request that the guard has seen. -/
structure GuardedResult where
  time : Date
  bucket : Option Bucket
  outcome : GuardOutcome
  deriving DecidableEq, Repr

/-- The requests one after another. -/
def guardAll (sha256 : String → String) : Valkey ℕ → List GuardedRequest → List GuardedResult
  | _, [] => []
  | store, request :: rest =>
    let store := store.wait request.wait
    let (outcome, after) := canActivate sha256 request store
    { time := store.now, bucket := request.bucket sha256, outcome } :: guardAll sha256 after rest

/-! ### A limiter for one client -/

/-- A request of a bucket, at its time. -/
structure Arrival where
  time : Date
  backend : Backend
  deriving DecidableEq, Repr

/-- The requests of a bucket, from a time on. -/
def arrivals (sha256 : String → String) (bucket : Bucket) : Date → List GuardedRequest → List Arrival
  | _, [] => []
  | now, request :: rest =>
    if request.bucket sha256 = some bucket then
      ⟨now + request.wait, request.backend⟩ :: arrivals sha256 bucket (now + request.wait) rest
    else arrivals sha256 bucket (now + request.wait) rest

/-- The times of the requests so far that are counted, with one more. -/
def Arrival.counted (arrival : Arrival) (past : List Date) : List Date :=
  match arrival.backend with
  | .fails => past
  | _ => past ++ [arrival.time]

/-- What `consumeRateLimit` answers in the window of a time. Assumes: `count` requests have come in it
before. -/
def windowResult (tier : RateLimit) (time : Date) (count : ℕ) : RateLimitResult where
  allowed := count + 1 ≤ tier.limit
  remaining := tier.limit - (count + 1)
  resetAt := (time / tier.windowMs + 1) * tier.windowSeconds

/-- What a limiter for the requests of one client does with one of them. Assumes: `past` are the times of
those that it has counted so far. -/
def limiterOutcome (tier : RateLimit) (past : List Date) (arrival : Arrival) : GuardOutcome :=
  match arrival.backend with
  | .answers =>
    answer tier arrival.time
      (windowResult tier arrival.time (countWindow tier.windowMs (arrival.time / tier.windowMs) past))
  | _ => .failedOpen

/-- What it does with all of them. -/
def limiterOutcomes (tier : RateLimit) : List Date → List Arrival → List (Date × GuardOutcome)
  | _, [] => []
  | past, arrival :: rest =>
    (arrival.time, limiterOutcome tier past arrival) ::
      limiterOutcomes tier (arrival.counted past) rest

/-- What the guard has done with the requests of a bucket. -/
def outcomesOf (bucket : Bucket) (results : List GuardedResult) : List (Date × GuardOutcome) :=
  (results.filter fun result ↦ result.bucket = some bucket).map fun result ↦
    (result.time, result.outcome)

/-! ### Keys -/

theorem colon_notMem_name (tier : RateLimitTier) : ':' ∉ tier.name.toList := by
  cases tier <;> decide

theorem name_injective : Function.Injective RateLimitTier.name := by
  intro first second hsame
  cases first <;> cases second <;> first | rfl | exact absurd hsame (by decide)

/-- What stands before and after the first colon of a text. -/
theorem colon_inj {first second rest others : String} (hfirst : ':' ∉ first.toList)
    (hsecond : ':' ∉ second.toList) (hsame : first ++ ":" ++ rest = second ++ ":" ++ others) :
    first = second ∧ rest = others := by
  have hchars := congrArg String.toList hsame
  simp only [String.toList_append] at hchars
  obtain ⟨hkind, hrest⟩ := append_cons_inj_of_notMem_left hfirst hsecond (by simpa using hchars)
  exact ⟨String.toList_injective hkind, String.toList_injective hrest⟩

/-- The kind of a client, as its identifier has it. -/
def Client.kind : Client → String
  | .session _ => "session"
  | .user _ => "uid"
  | .address _ => "ip"

/-- What identifies a client among those of its kind. -/
def Client.name : Client → String
  | .session digest => digest
  | .user id => id
  | .address ip => ip

theorem identifier_eq (client : Client) : client.identifier = client.kind ++ ":" ++ client.name := by
  cases client <;> rfl

theorem colon_notMem_kind (client : Client) : ':' ∉ client.kind.toList := by
  cases client <;> simp [Client.kind]

theorem identifier_injective : Function.Injective Client.identifier := by
  intro first second hsame
  rw [identifier_eq, identifier_eq] at hsame
  obtain ⟨hkind, hname⟩ := colon_inj (colon_notMem_kind first) (colon_notMem_kind second) hsame
  cases first <;> cases second <;> simp_all [Client.kind, Client.name]

/-- Different buckets have different keys. -/
theorem key_injective : Function.Injective Bucket.key := by
  rintro ⟨tier, client⟩ ⟨otherTier, other⟩ hsame
  obtain ⟨hname, hclient⟩ := colon_inj (colon_notMem_name tier) (colon_notMem_name otherTier) hsame
  obtain rfl := name_injective hname
  obtain rfl := identifier_injective hclient
  rfl

/-! ### Refinement -/

open Classical in
/-- The limit of a key: that of the tier of its bucket. -/
noncomputable def keyLimit (key : String) : RateLimit :=
  if hbucket : ∃ bucket : Bucket, bucket.key = key then hbucket.choose.1.config
  else RateLimitTier.default.config

theorem keyLimit_key (bucket : Bucket) : keyLimit bucket.key = bucket.1.config := by
  have hbucket : ∃ other : Bucket, other.key = bucket.key := ⟨bucket, rfl⟩
  rw [keyLimit, dif_pos hbucket, key_injective hbucket.choose_spec]

variable {sha256 : String → String} {store : Valkey ℕ} {past : String → List Date}

/-- What `consumeRateLimit` answers to a request of a bucket, which is counted. -/
theorem consumeRateLimit_bucket (hcounted : Counted keyLimit store past) (bucket : Bucket) :
    (consumeRateLimit bucket.key bucket.1.config.limit bucket.1.config.windowSeconds store).1 =
        windowResult bucket.1.config store.now (countWindow bucket.1.config.windowMs
          (store.now / bucket.1.config.windowMs) (past bucket.key)) ∧
      Counted keyLimit
        (consumeRateLimit bucket.key bucket.1.config.limit bucket.1.config.windowSeconds store).2
        (withCall past bucket.key store.now) := by
  have hlater := (hcounted.consume bucket.key).2
  have hcount := hcounted.counter bucket.key
  rw [keyLimit_key] at hlater hcount
  refine ⟨?_, hlater⟩
  simp only [consumeRateLimit, Valkey.incrExpire, window_eq, hcount]
  rfl

/-- The times that are counted for each key, with those of a request. -/
def withRequest (past : String → List Date) (request : GuardedRequest) (bucket : Option Bucket)
    (now : Date) : String → List Date :=
  bucket.elim past fun bucket ↦
    Function.update past bucket.key (Arrival.counted ⟨now, request.backend⟩ (past bucket.key))

/-- One request: the guard does what the limiter of its bucket would do, and the counters count it. -/
theorem canActivate_counted (sha256 : String → String) (hcounted : Counted keyLimit store past)
    (request : GuardedRequest) :
    (∀ bucket, request.bucket sha256 = some bucket → (canActivate sha256 request store).1 =
        limiterOutcome bucket.1.config (past bucket.key) ⟨store.now, request.backend⟩) ∧
      Counted keyLimit (canActivate sha256 request store).2
        (withRequest past request (request.bucket sha256) store.now) := by
  unfold canActivate
  cases hbucket : request.bucket sha256 with
  | none => exact ⟨fun _ hnone ↦ (nomatch hnone), hcounted⟩
  | some bucket =>
    obtain ⟨hresult, hlater⟩ := consumeRateLimit_bucket hcounted bucket
    refine ⟨fun other hsome ↦ ?_, ?_⟩
    · obtain rfl := Option.some.inj hsome
      cases hbackend : request.backend with
      | answers =>
        simp only [limiterOutcome]
        rw [← hresult]
      | loses => rfl
      | fails => rfl
    · cases hbackend : request.backend with
      | answers => simpa [withRequest, Arrival.counted, withCall, hbackend] using hlater
      | loses => simpa [withRequest, Arrival.counted, withCall, hbackend] using hlater
      | fails => simpa [withRequest, Arrival.counted, hbackend] using hcounted

theorem withRequest_self (past : String → List Date) (request : GuardedRequest) (bucket : Bucket)
    (now : Date) : withRequest past request (some bucket) now bucket.key =
      Arrival.counted ⟨now, request.backend⟩ (past bucket.key) := Function.update_self ..

theorem withRequest_of_ne {request : GuardedRequest} {bucket : Bucket} {counted : Option Bucket}
    (hne : counted ≠ some bucket) (now : Date) :
    withRequest past request counted now bucket.key = past bucket.key := by
  cases counted with
  | none => rfl
  | some other =>
    exact Function.update_of_ne (fun hkey ↦ hne (congrArg some (key_injective hkey).symm)) ..

theorem now_canActivate (request : GuardedRequest) :
    (canActivate sha256 request store).2.now = store.now := by
  unfold canActivate
  split
  · rfl
  · dsimp only
    split <;> rfl

/-- The guard does with the requests of a bucket what a limiter of their own does, from any state of the
counters on. -/
theorem outcomesOf_guardAll (hcounted : Counted keyLimit store past) (bucket : Bucket)
    (requests : List GuardedRequest) :
    outcomesOf bucket (guardAll sha256 store requests) =
      limiterOutcomes bucket.1.config (past bucket.key) (arrivals sha256 bucket store.now requests) := by
  induction requests generalizing store past with
  | nil => rfl
  | cons request rest ih =>
    obtain ⟨houtcome, hlater⟩ := canActivate_counted sha256 (hcounted.wait request.wait) request
    have hrest := ih hlater
    have hnow : (canActivate sha256 request (store.wait request.wait)).2.now = store.now + request.wait :=
      now_canActivate request
    have hwait : (store.wait request.wait).now = store.now + request.wait := rfl
    rw [hnow, hwait] at hrest
    rw [hwait] at houtcome
    rw [guardAll, arrivals]
    by_cases hbucket : request.bucket sha256 = some bucket
    · rw [hbucket, withRequest_self] at hrest
      rw [if_pos hbucket, limiterOutcomes, ← houtcome bucket hbucket]
      simp only [outcomesOf, List.filter_cons, hbucket, decide_true, if_true, List.map_cons]
      exact congrArg _ hrest
    · rw [withRequest_of_ne hbucket] at hrest
      rw [if_neg hbucket, ← hrest]
      simp only [outcomesOf, List.filter_cons, hbucket, decide_false, Bool.false_eq_true, if_false]

/-- Whatever the other requests are, the guard does with the requests of a bucket what a limiter that sees
only them does: for each the same outcome, with the same headers. -/
theorem outcomes_eq (sha256 : String → String) (now : Date) (requests : List GuardedRequest)
    (bucket : Bucket) :
    outcomesOf bucket (guardAll sha256 { now } requests) =
      limiterOutcomes bucket.1.config [] (arrivals sha256 bucket now requests) :=
  outcomesOf_guardAll (counted_empty now) bucket requests

/-- A session and an address send refresh requests, and the address logs in, in the same second. Valkey does
not answer one of them. -/
example : (guardAll id {} ((List.replicate 6 { wait := 1, handlerTier := some .authLogin, ip := "a" }) ++
    [{ wait := 1, handlerTier := some .authRefresh, refreshCookie := some "cookie", ip := "a" },
      { wait := 1, handlerTier := some .authLogin, ip := "a", backend := .fails }])).map
        GuardedResult.outcome =
    [.allowed ⟨5, 4, 900⟩, .allowed ⟨5, 3, 900⟩, .allowed ⟨5, 2, 900⟩, .allowed ⟨5, 1, 900⟩,
      .allowed ⟨5, 0, 900⟩, .limited ⟨5, 0, 900⟩ 900, .allowed ⟨30, 29, 60⟩, .failedOpen] := by
  decide +kernel

/-! ### The budget -/

/-- The request is let through within the limit. -/
def GuardOutcome.isAllowed : GuardOutcome → Bool
  | .allowed _ => true
  | _ => false

/-- The times of the requests that are let through within the limit. -/
def servedTimes (outcomes : List (Date × GuardOutcome)) : List Date :=
  (outcomes.filter fun outcome ↦ outcome.2.isAllowed).map Prod.fst

theorem servedTimes_cons (time : Date) (outcome : GuardOutcome) (rest : List (Date × GuardOutcome)) :
    servedTimes ((time, outcome) :: rest) =
      if outcome.isAllowed then time :: servedTimes rest else servedTimes rest := by
  simp only [servedTimes, List.filter_cons]
  split_ifs <;> rfl

/-- A limiter serves a request that is answered when there is room in its window. -/
theorem isAllowed_limiterOutcome (tier : RateLimit) (past : List Date) (time : Date) :
    (limiterOutcome tier past ⟨time, .answers⟩).isAllowed =
      decide (countWindow tier.windowMs (time / tier.windowMs) past < tier.limit) := by
  simp only [limiterOutcome, answer, windowResult, decide_eq_true_eq]
  split_ifs with hroom
  · exact (decide_eq_true hroom).symm
  · exact (decide_eq_false hroom).symm

/-- The times of the requests that are counted. -/
def countedTimes (arrivals : List Arrival) : List Date :=
  (arrivals.filter fun arrival ↦ arrival.backend ≠ .fails).map Arrival.time

/-- The requests that a limiter serves are among those that fixed windows admit. -/
theorem servedTimes_sublist (tier : RateLimit) (past : List Date) (arrivals : List Arrival) :
    (servedTimes (limiterOutcomes tier past arrivals)).Sublist
      (admitted tier.windowMs tier.limit past (countedTimes arrivals)) := by
  induction arrivals generalizing past with
  | nil => exact .slnil
  | cons arrival rest ih =>
    obtain ⟨time, backend⟩ := arrival
    have hrest := ih (Arrival.counted ⟨time, backend⟩ past)
    cases backend with
    | fails => exact hrest
    | loses =>
      change List.Sublist _ (admitted tier.windowMs tier.limit past (time :: countedTimes rest))
      rw [admitted]
      split_ifs
      · exact hrest.cons _
      · exact hrest
    | answers =>
      change List.Sublist _ (admitted tier.windowMs tier.limit past (time :: countedTimes rest))
      have hcount : (past.countP fun earlier ↦ earlier / tier.windowMs = time / tier.windowMs) =
          countWindow tier.windowMs (time / tier.windowMs) past := rfl
      rw [admitted, hcount, limiterOutcomes, servedTimes_cons, isAllowed_limiterOutcome]
      simp only [decide_eq_true_eq]
      split_ifs
      · exact hrest.cons_cons _
      · exact hrest

/-- The requests of a bucket come in order, from the time on. -/
theorem arrivals_ordered (sha256 : String → String) (bucket : Bucket) (now : Date)
    (requests : List GuardedRequest) :
    (∀ arrival ∈ arrivals sha256 bucket now requests, now ≤ arrival.time) ∧
      ((arrivals sha256 bucket now requests).map Arrival.time).Pairwise (· ≤ ·) := by
  induction requests generalizing now with
  | nil => exact ⟨fun _ hmem ↦ (List.not_mem_nil hmem).elim, .nil⟩
  | cons request rest ih =>
    have hlater : now ≤ now + request.wait := le_add_of_nonneg_right (Int.natCast_nonneg request.wait)
    obtain ⟨hfrom, hordered⟩ := ih (now + request.wait)
    unfold arrivals
    split_ifs
    · refine ⟨fun arrival harrival ↦ ?_, List.pairwise_cons.mpr ⟨fun time htime ↦ ?_, hordered⟩⟩
      · rcases List.mem_cons.mp harrival with rfl | hrest
        · exact hlater
        · exact hlater.trans (hfrom arrival hrest)
      · obtain ⟨arrival, harrival, rfl⟩ := List.mem_map.mp htime
        exact hfrom arrival harrival
    · exact ⟨fun arrival harrival ↦ hlater.trans (hfrom arrival harrival), hordered⟩

/-- Whatever the requests are, and however often Valkey does not answer: of the requests of a bucket no more
than the limit are let through within the limit in a window, and no more than twice the limit in any
interval of the length of a window. -/
theorem served_le (sha256 : String → String) (now : Date) (requests : List GuardedRequest)
    (bucket : Bucket) :
    (∀ window : ℤ, countIn (window * bucket.1.config.windowMs)
        (window * bucket.1.config.windowMs + bucket.1.config.windowMs)
        (servedTimes (outcomesOf bucket (guardAll sha256 { now } requests))) ≤ bucket.1.config.limit) ∧
      ∀ time : Date, countIn time (time + bucket.1.config.windowMs)
        (servedTimes (outcomesOf bucket (guardAll sha256 { now } requests))) ≤
          2 * bucket.1.config.limit := by
  have hpos := bucket.1.config.windowMs_pos
  have hsublist := servedTimes_sublist bucket.1.config [] (arrivals sha256 bucket now requests)
  have hsorted : (countedTimes (arrivals sha256 bucket now requests)).Pairwise (· ≤ ·) :=
    (arrivals_ordered sha256 bucket now requests).2.sublist (List.filter_sublist.map _)
  rw [outcomesOf_guardAll (counted_empty now) bucket requests]
  refine ⟨fun window ↦ hsublist.countP_le.trans ?_, fun time ↦ hsublist.countP_le.trans ?_⟩
  · have hstart : window * bucket.1.config.windowMs ≤
        window * bucket.1.config.windowMs + bucket.1.config.windowMs := le_add_of_nonneg_right hpos.le
    exact (countIn_admitted hpos le_rfl hstart le_rfl hsorted []).le.trans
      ((Nat.sub_le _ _).trans (min_le_left _ _))
  · refine (countIn_admitted_crossing hpos hsorted time).le.trans ?_
    have hlimit := min_le_left bucket.1.config.limit
    have hfirst := hlimit (countIn (windowStart bucket.1.config.windowMs time)
      (windowStart bucket.1.config.windowMs time + bucket.1.config.windowMs)
      (countedTimes (arrivals sha256 bucket now requests)))
    have hsecond := hlimit (countIn
      (windowStart bucket.1.config.windowMs time + bucket.1.config.windowMs)
      (time + bucket.1.config.windowMs) (countedTimes (arrivals sha256 bucket now requests)))
    omega

end RallyApi.Cache

import RallyApi.Http.LogSanitizing
import RallyApi.Platform.Duration

/-!
# What the request log tells

`HttpLoggingInterceptor.intercept` writes a record when a request has been handled or has failed. The
query and the body go into it sanitized; the method, the url, the user, the correlation id and the address
as they are.

`intercept_eq_iff`: two requests leave the same record exactly when they agree in what is logged as it is,
and what is sanitized of them is alike. The url has the query string in it, so what a query holds beneath
a sensitive key can be told from the record, although the sanitized query does not show it.
-/

set_option autoImplicit false
set_option relaxedAutoImplicit false

namespace RallyApi.Http

/-! ### Requests and outcomes -/

/-- What the interceptor reads of a request. The query and the body have been parsed. -/
structure LoggedRequest where
  method : String
  originalUrl : Option String := none
  url : String
  xCorrelationId : Option String := none
  xRealIp : Option String := none
  xForwardedFor : Option String := none
  ip : Option String := none
  userId : Option String := none
  query : Option (List (JsString × LogValue)) := none
  body : Option LogValue := none

/-- How the handler ends: with a value, or with an error that may have a status and a code. -/
inductive Outcome
  | next (statusCode : ℕ)
  | error (status : Option ℕ) (code : Option String)
  deriving DecidableEq, Repr

/-- The status of the response. -/
def Outcome.statusCode : Outcome → ℕ
  | .next statusCode => statusCode
  | .error status _ => status.getD 500

/-- The code of the error, if it is one. -/
def Outcome.errorCode : Outcome → Option String
  | .next _ => none
  | .error _ code => some (code.getD "INTERNAL")

/-- A request that has been handled: the kind of context it came in, how it has ended, and after how many
milliseconds. -/
structure Handled where
  contextType : String := "http"
  request : LoggedRequest
  outcome : Outcome
  duration : ℤ

/-! ### The record -/

/-- `SKIP_LOG_PREFIXES`. -/
def skipLogPrefixes : List String := ["/v1/healthz", "/v1/readyz", "/favicon.ico"]

/-- The url that is logged. -/
def LoggedRequest.loggedUrl (request : LoggedRequest) : String := request.originalUrl.getD request.url

/-- The text, if it is not empty. -/
def truthy (text : Option String) : Option String := text.filter (· ≠ "")

/-- `forwardedFor.split(',')[0].trim()`. -/
def firstForwarded (forwardedFor : String) : String :=
  String.ofList (Platform.trimChars (forwardedFor.toList.takeWhile (· ≠ ',')))

/-- The address that is logged. -/
def LoggedRequest.clientIp (request : LoggedRequest) : String :=
  (truthy request.xRealIp <|> truthy (request.xForwardedFor.map firstForwarded) <|>
    truthy request.ip).getD "unknown"

/-- `extractQuery`. -/
def extractQuery (query : Option (List (JsString × LogValue))) : Option LogValue :=
  (query.filter fun fields ↦ !fields.isEmpty).map fun fields ↦ sanitizeValue (.object fields)

/-- The body is an object or an array. -/
def LogValue.isObject : LogValue → Bool
  | .array _ | .object _ => true
  | _ => false

/-- The bodies of such requests are logged. -/
def logsBody (logHttpBodies : Bool) (method : String) : Bool :=
  logHttpBodies && ["POST", "PUT", "PATCH"].contains method

/-- `extractBody`. -/
def extractBody (logHttpBodies : Bool) (request : LoggedRequest) : Option LogValue :=
  if logsBody logHttpBodies request.method then
    (request.body.filter LogValue.isObject).map sanitizeValue
  else none

/-- The fields of a record. Those of a response have no error code and no body. -/
structure LogFields where
  msg : String
  method : String
  url : String
  statusCode : ℕ
  duration : ℤ
  errorCode : Option String
  userId : Option String
  correlationId : Option String
  ip : String
  query : Option LogValue
  body : Option LogValue

/-- The level of a record. -/
inductive LogLevel
  | error
  | warn
  | log
  deriving DecidableEq, Repr

/-- The level that `log` takes for a status. -/
def levelOf (statusCode : ℕ) : LogLevel :=
  if 500 ≤ statusCode then .error else if 400 ≤ statusCode then .warn else .log

/-- The text `msg`. -/
def Handled.msg (handled : Handled) : String :=
  "<-- " ++ handled.request.method ++ " " ++ handled.request.loggedUrl ++ " " ++
    toString handled.outcome.statusCode ++ " " ++ toString handled.duration ++ "ms" ++
      match handled.outcome.errorCode with
      | some errorCode => " [" ++ errorCode ++ "]"
      | none => ""

/-- The fields that are logged. -/
def Handled.fields (logHttpBodies : Bool) (handled : Handled) : LogFields where
  msg := handled.msg
  method := handled.request.method
  url := handled.request.loggedUrl
  statusCode := handled.outcome.statusCode
  duration := handled.duration
  errorCode := handled.outcome.errorCode
  userId := handled.request.userId
  correlationId := handled.request.xCorrelationId
  ip := handled.request.clientIp
  query := extractQuery handled.request.query
  body := if handled.outcome.errorCode.isSome then extractBody logHttpBodies handled.request else none

/-- Nothing is logged of the request. -/
def Handled.isSkipped (handled : Handled) : Bool :=
  handled.contextType ≠ "http" || skipLogPrefixes.contains handled.request.loggedUrl

/-- `intercept`: the record that one value or the error of the handler leaves. -/
def intercept (logHttpBodies : Bool) (handled : Handled) : Option (LogLevel × LogFields) :=
  if handled.isSkipped then none
  else some (levelOf handled.outcome.statusCode, handled.fields logHttpBodies)

/-! ### Requests that cannot be told apart -/

/-- The queries are both without properties or both not, and differ only where the log does not show them.
-/
def AlikeQueries (query other : Option (List (JsString × LogValue))) : Prop :=
  (query.getD [] = [] ↔ other.getD [] = []) ∧ AlikeFields (query.getD []) (other.getD [])

/-- The bodies are both no objects, or differ only where the log does not show them. -/
def AlikeBodies (body other : Option LogValue) : Prop :=
  Option.Rel Alike (body.filter LogValue.isObject) (other.filter LogValue.isObject)

/-- The requests agree in what is logged as it is, and are alike in what is logged sanitized. -/
structure AlikeShown (logHttpBodies : Bool) (handled other : Handled) : Prop where
  method : handled.request.method = other.request.method
  url : handled.request.loggedUrl = other.request.loggedUrl
  statusCode : handled.outcome.statusCode = other.outcome.statusCode
  duration : handled.duration = other.duration
  errorCode : handled.outcome.errorCode = other.outcome.errorCode
  userId : handled.request.userId = other.request.userId
  correlationId : handled.request.xCorrelationId = other.request.xCorrelationId
  ip : handled.request.clientIp = other.request.clientIp
  query : AlikeQueries handled.request.query other.request.query
  body : handled.outcome.errorCode.isSome = true →
    logsBody logHttpBodies handled.request.method = true →
      AlikeBodies handled.request.body other.request.body

/-! ### Queries and bodies -/

theorem extractQuery_eq (query : Option (List (JsString × LogValue))) :
    extractQuery query =
      if query.getD [] = [] then none else some (.object (sanitizeFields (query.getD []))) := by
  cases query with
  | none => rfl
  | some fields =>
    cases fields with
    | nil => rfl
    | cons field rest => exact (if_neg (List.cons_ne_nil field rest)).symm

theorem sanitizeFields_eq_iff {fields others : List (JsString × LogValue)} :
    sanitizeFields fields = sanitizeFields others ↔ AlikeFields fields others :=
  ⟨alikeFields_of_sanitizeFields_eq fields others, sanitizeFields_eq_of_alike⟩

/-- Queries are logged as the same exactly when they are alike. -/
theorem extractQuery_eq_iff (query other : Option (List (JsString × LogValue))) :
    extractQuery query = extractQuery other ↔ AlikeQueries query other := by
  rw [extractQuery_eq, extractQuery_eq, AlikeQueries]
  generalize query.getD [] = fields, other.getD [] = others
  by_cases hfields : fields = []
  · by_cases hothers : others = []
    · rw [if_pos hfields, if_pos hothers, hfields, hothers]
      exact ⟨fun _ ↦ ⟨Iff.rfl, .nil⟩, fun _ ↦ rfl⟩
    · rw [if_pos hfields, if_neg hothers]
      exact ⟨fun hsame ↦ (by cases hsame), fun halike ↦ absurd (halike.1.mp hfields) hothers⟩
  · by_cases hothers : others = []
    · rw [if_neg hfields, if_pos hothers]
      exact ⟨fun hsame ↦ (by cases hsame), fun halike ↦ absurd (halike.1.mpr hothers) hfields⟩
    · rw [if_neg hfields, if_neg hothers, Option.some_inj, LogValue.object.injEq, sanitizeFields_eq_iff]
      exact ⟨fun halike ↦ ⟨iff_of_false hfields hothers, halike⟩, And.right⟩

/-- Bodies are sanitized to the same exactly when they are alike. -/
theorem sanitizeBody_eq_iff (body other : Option LogValue) :
    (body.filter LogValue.isObject).map sanitizeValue = (other.filter LogValue.isObject).map sanitizeValue ↔
      AlikeBodies body other := by
  unfold AlikeBodies
  generalize body.filter LogValue.isObject = body
  generalize other.filter LogValue.isObject = other
  constructor
  · intro hsame
    cases body with
    | none =>
      cases other with
      | none => exact .none
      | some otherValue => cases hsame
    | some value =>
      cases other with
      | none => cases hsame
      | some otherValue => exact .some ((loggedAlike_iff value otherValue).mp (Option.some.inj hsame))
  · rintro (halike | _)
    · exact congrArg some ((loggedAlike_iff _ _).mpr halike)
    · rfl

/-! ### Records -/

/-- The fields of two records are the same exactly when the requests cannot be told apart. -/
theorem fields_eq_iff (logHttpBodies : Bool) (handled other : Handled) :
    handled.fields logHttpBodies = other.fields logHttpBodies ↔ AlikeShown logHttpBodies handled other := by
  constructor
  · intro hsame
    have hmethod : handled.request.method = other.request.method := congrArg LogFields.method hsame
    have herror : handled.outcome.errorCode = other.outcome.errorCode := congrArg LogFields.errorCode hsame
    refine
      { method := hmethod
        url := congrArg LogFields.url hsame
        statusCode := congrArg LogFields.statusCode hsame
        duration := congrArg LogFields.duration hsame
        errorCode := herror
        userId := congrArg LogFields.userId hsame
        correlationId := congrArg LogFields.correlationId hsame
        ip := congrArg LogFields.ip hsame
        query := (extractQuery_eq_iff _ _).mp (congrArg LogFields.query hsame)
        body := fun hfailed hlogs ↦ (sanitizeBody_eq_iff _ _).mp ?_ }
    have hbody : (handled.fields logHttpBodies).body = (other.fields logHttpBodies).body :=
      congrArg LogFields.body hsame
    simpa only [Handled.fields, extractBody, ← herror, ← hmethod, if_pos hfailed, if_pos hlogs] using hbody
  · intro halike
    have hmsg : handled.msg = other.msg := by
      simp only [Handled.msg, halike.method, halike.url, halike.statusCode, halike.duration,
        halike.errorCode]
    have hbody : (handled.fields logHttpBodies).body = (other.fields logHttpBodies).body := by
      simp only [Handled.fields, extractBody, ← halike.errorCode, ← halike.method]
      split_ifs with hfailed hlogs
      · exact (sanitizeBody_eq_iff _ _).mpr (halike.body hfailed hlogs)
      · rfl
      · rfl
    have hquery := (extractQuery_eq_iff _ _).mpr halike.query
    simp only [Handled.fields] at hbody ⊢
    rw [hmsg, halike.method, halike.url, halike.statusCode, halike.duration, halike.userId,
      halike.correlationId, halike.ip, hquery, hbody, halike.errorCode]

/-- Two requests leave the same record exactly when neither leaves one, or both do and they cannot be told
apart: they agree in the method, the url, the outcome, the duration, the user, the correlation id and the
address, and are alike in the query and in a body that is logged. -/
theorem intercept_eq_iff (logHttpBodies : Bool) (handled other : Handled) :
    intercept logHttpBodies handled = intercept logHttpBodies other ↔
      handled.isSkipped = true ∧ other.isSkipped = true ∨
        handled.isSkipped = false ∧ other.isSkipped = false ∧ AlikeShown logHttpBodies handled other := by
  unfold intercept
  cases hskipped : handled.isSkipped <;> cases hother : other.isSkipped
  · simp only [Bool.false_eq_true, if_false, Option.some_inj, Prod.mk.injEq, fields_eq_iff, false_and,
      true_and, false_or, and_iff_right_iff_imp]
    exact fun halike ↦ congrArg levelOf halike.statusCode
  · simp
  · simp
  · simp

/-- The request that verifies a reset token, which is in its query string. -/
def verifyResetToken (token : String) : Handled where
  request := { method := "GET", url := "/v1/auth/verify-reset-token?token=" ++ token
               query := some [(units "token", .string (units token))] }
  outcome := .next 200
  duration := 45

/-- The sanitized query does not tell the token, but the url does. -/
example : extractQuery (verifyResetToken "A").request.query =
      extractQuery (verifyResetToken "B").request.query ∧
    (intercept false (verifyResetToken "A")).map (fun entry ↦ entry.2.url) ≠
      (intercept false (verifyResetToken "B")).map fun entry ↦ entry.2.url :=
  ⟨(extractQuery_eq_iff _ _).mpr ⟨by decide, .sensitive _ _ _ _ _ (by decide) .nil⟩, by decide⟩

end RallyApi.Http

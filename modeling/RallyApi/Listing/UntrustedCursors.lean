import RallyApi.Platform.Json
import RallyApi.Work.WorkItemLists

/-!
# Untrusted cursors

What a paged list endpoint makes of the cursor string a client sends: `buildPageArgs` decodes it and
checks its shape, in which `k` is an array of anything, and the list method compares its timestamp with
`new Date(cursor.k[0])`.

`contained_iff` says exactly for which strings the client gets a page or the error `INVALID_CURSOR`:
those whose first key names an instant of the years 1 to 9999, as far as they pass the check. For these,
`serve_eq_of_containable` connects the request with the pages of `Platform.Pagination`.
`emptyKey_failsInternally` is a cursor that passes the check with no key at all.
-/

set_option autoImplicit false
set_option relaxedAutoImplicit false

namespace RallyApi.Listing

open Paging Platform Work

/-! ### What the runtime makes of a value -/

/-- What the language runtime and the schema library make of texts and numbers. -/
structure Runtime where
  /-- `JSON.parse(Buffer.from(cursor, 'base64url').toString('utf8'))`, or `none` where it throws. The
  properties of an object have different names. -/
  parse : String → Option JsValue
  /-- The identifier of a text that `z.string().uuid()` accepts. -/
  uuid : String → Option Uuid
  /-- `Date.parse`, or `none` where it is not a number. -/
  parseDate : String → Option Date
  /-- `String` of a number, finite or not. -/
  numberText : JsValue → String
  /-- How many arrays, each in the one before, the call stack has room to put into a text. -/
  room : ℕ

variable (runtime : Runtime)

mutual

/-- `String(value)` of a JSON value, with room for some arrays in one another. A property named `toString`
hides the method, and no JSON value can be called. -/
def Runtime.textWithin (room : ℕ) : JsValue → Except Failure String
  | .undefined => .ok "undefined"
  | .null => .ok "null"
  | .boolean value => .ok (toString value)
  | .string text => .ok text
  | .array items =>
    match room with
    | 0 => .error .rangeError
    | room + 1 => (Runtime.itemTexts room items).map (",".intercalate ·)
  | .object fields =>
    if fields.any fun field ↦ field.1 = "toString" then .error .typeError else .ok "[object Object]"
  | .custom json => Runtime.textWithin room json
  | number => .ok (runtime.numberText number)

/-- The texts that `Array.prototype.join` puts together; `null` and `undefined` are left empty. -/
def Runtime.itemTexts (room : ℕ) : List JsValue → Except Failure (List String)
  | [] => .ok []
  | .undefined :: rest | .null :: rest => (Runtime.itemTexts room rest).map ("" :: ·)
  | item :: rest => do
    let head ← Runtime.textWithin room item
    let tail ← Runtime.itemTexts room rest
    pure (head :: tail)

end

/-- `String(value)` of a JSON value; where arrays are nested too deeply, the call stack overflows. -/
def Runtime.text (value : JsValue) : Except Failure String := runtime.textWithin runtime.room value

/-- The instant of a number of milliseconds (`TimeClip`): dates reach 8.64e15 milliseconds from the
epoch. -/
def timeClip (value : ℚ) : Option Date :=
  if value.num.natAbs ≤ 8640000000000000 * value.den then some (value.num.tdiv value.den) else none

/-- `new Date(value)` of a JSON value or `undefined`; `none` is an invalid date. -/
def Runtime.newDate : JsValue → Except Failure (Option Date)
  | .undefined | .notFinite => .ok none
  | .null => .ok (some 0)
  | .boolean value => .ok (some (if value then 1 else 0))
  | .number value => .ok (timeClip value)
  | .bigInt _ => .error .typeError
  | value => (runtime.text value).map runtime.parseDate

/-! ### Decoding -/

/-- `CursorPayload` as it was decoded. -/
structure DecodedCursor where
  k : List JsValue
  id : Uuid
  d : SortDirection

/-- A property of an object. -/
def property (fields : List (String × JsValue)) (name : String) : Option JsValue :=
  (fields.find? fun field ↦ field.1 = name).map Prod.snd

/-- `z.literal(1)`. -/
def isOne : JsValue → Bool
  | .number value => value = 1
  | _ => false

/-- `z.array(z.unknown())`. -/
def parseArray : JsValue → Option (List JsValue)
  | .array items => some items
  | _ => none

/-- `z.string().uuid()`. -/
def Runtime.parseUuid : JsValue → Option Uuid
  | .string text => runtime.uuid text
  | _ => none

/-- `z.enum(['asc', 'desc'])`. -/
def parseDirection : JsValue → Option SortDirection
  | .string text => if text = "asc" then some .asc else if text = "desc" then some .desc else none
  | _ => none

/-- `CursorPayloadSchema.parse`. -/
def Runtime.parsePayload : JsValue → Option DecodedCursor
  | .object fields => do
    let v ← property fields "v"
    guard (isOne v)
    let k ← property fields "k" >>= parseArray
    let id ← property fields "id" >>= runtime.parseUuid
    let d ← property fields "d" >>= parseDirection
    pure { k, id, d }
  | _ => none

/-- What a client is told about a cursor that cannot be decoded. -/
def invalidCursor : Failure :=
  preconditionFailedException .invalidCursor "Invalid or tampered cursor"

/-- `decodeCursor`. -/
def Runtime.decodeCursor (cursor : String) : Except Failure DecodedCursor :=
  match runtime.parse cursor >>= runtime.parsePayload with
  | some payload => .ok payload
  | none => .error invalidCursor

/-- `PageQuery` as it is received. -/
structure CursorQuery where
  limit : Option ℕ := none
  cursor : Option String := none

/-- What `buildPageArgs` makes of it. -/
structure DecodedArgs where
  limit : ℕ
  cursor : Option DecodedCursor := none

/-- `buildPageArgs`; an empty cursor counts as none. -/
def Runtime.buildPageArgs (query : CursorQuery) : Except Failure DecodedArgs :=
  let limit := query.limit.getD defaultLimit
  match query.cursor with
  | none => .ok { limit }
  | some text =>
    if text = "" then .ok { limit }
    else (runtime.decodeCursor text).map fun cursor ↦ { limit, cursor := some cursor }

/-! ### The keyset condition -/

/-- `cursor.k[0]`. -/
def DecodedCursor.firstKey (cursor : DecodedCursor) : JsValue := cursor.k.head?.getD .undefined

/-- The first millisecond of the year 1. -/
def firstInstant : Date := -62135596800000

/-- The last millisecond of the year 9999. -/
def lastInstant : Date := 253402300799999

/-- The instant is of the years 1 to 9999. -/
def InYears (date : Date) : Prop := firstInstant ≤ date ∧ date ≤ lastInstant

instance (date : Date) : Decidable (InYears date) :=
  inferInstanceAs (Decidable (firstInstant ≤ date ∧ date ≤ lastInstant))

/-- A date as the parameter of a condition on a timestamp. It is bound as `toISOString()`, which an
invalid date does not have, and which the database reads as a timestamp in the years 1 to 9999: the
others are written with a sign and six digits, but for the year 0, which it does not have. -/
def bindDate : Option Date → Except Failure Date
  | none => .error .rangeError
  | some date =>
    if InYears date then .ok date else .error .datetimeFieldOverflow

/-- The cursor as the list methods compare with it, `lt(column, new Date(cursor.k[0]))`. -/
def Runtime.keyset (cursor : DecodedCursor) : Except Failure CursorPayload := do
  let date ← runtime.newDate cursor.firstKey
  let date ← bindDate date
  pure { k := [some date], id := cursor.id, d := cursor.d }

/-- A request of a paged list: `buildPageArgs`, then the list method. -/
def Runtime.serve {Shown : Type} (list : PageArgs → Except Failure (PagedResult Shown))
    (query : CursorQuery) : Except Failure (PagedResult Shown) := do
  let args ← runtime.buildPageArgs query
  let cursor ← args.cursor.mapM runtime.keyset
  list { limit := args.limit, cursor }

/-! ### Which cursors are contained -/

/-- The values that name an instant of the years 1 to 9999: `null` and the truth values, which count as
a few milliseconds, a number of milliseconds in this range, and a value whose text is read as such a
date. -/
def Runtime.NamesInstant : JsValue → Prop
  | .undefined | .notFinite | .bigInt _ => False
  | .null | .boolean _ => True
  | .number value => InYears (value.num.tdiv value.den)
  | value => ∃ text date, runtime.text value = .ok text ∧ runtime.parseDate text = some date ∧
      InYears date

/-- The cursor of a request is empty or fails the check, or its first key names an instant of the years
1 to 9999. -/
def Runtime.Containable (query : CursorQuery) : Prop :=
  ∀ text ∈ query.cursor, text ≠ "" → ∀ document ∈ runtime.parse text,
    ∀ cursor ∈ runtime.parsePayload document, runtime.NamesInstant cursor.firstKey

/-- A request is contained: `buildPageArgs` answers that the cursor is invalid, or the condition built
from it compares with a timestamp and the list method returns a page. -/
def Runtime.Contained {Shown : Type} (list : PageArgs → Except Failure (PagedResult Shown))
    (query : CursorQuery) : Prop :=
  runtime.buildPageArgs query = .error invalidCursor ∨
    ∃ args page, runtime.buildPageArgs query = .ok args ∧
      (∀ cursor ∈ args.cursor, ∃ payload timestamp, runtime.keyset cursor = .ok payload ∧
        keysetTimestamp payload = .ok timestamp) ∧
      runtime.serve list query = .ok page

theorem bindDate_eq_ok {found : Option Date} {date : Date} :
    bindDate found = .ok date ↔ found = some date ∧ InYears date := by
  cases found with
  | none => simp [bindDate]
  | some other =>
    by_cases hyears : InYears other
    · simp only [bindDate, if_pos hyears, Except.ok.injEq, Option.some.injEq]
      exact ⟨fun hsame ↦ ⟨hsame, hsame ▸ hyears⟩, And.left⟩
    · simp only [bindDate, if_neg hyears, reduceCtorEq, Option.some.injEq, false_iff]
      exact fun hboth ↦ hyears (hboth.1 ▸ hboth.2)

/-- A number that is no date names no instant of the years 1 to 9999 either. -/
theorem timeClip_eq_some {value : ℚ} (hyears : InYears (value.num.tdiv value.den)) :
    timeClip value = some (value.num.tdiv value.den) := by
  refine if_pos (Nat.le_of_not_lt fun hlarge ↦ ?_)
  have hquotient : 8640000000000000 ≤ (value.num.tdiv value.den).natAbs := by
    rw [Int.natAbs_tdiv]
    exact (Nat.le_div_iff_mul_le value.den_pos).mpr (Nat.le_of_lt hlarge)
  obtain ⟨hfirst, hlast⟩ : -62135596800000 ≤ value.num.tdiv value.den ∧
    value.num.tdiv value.den ≤ 253402300799999 := hyears
  omega

theorem newDate_text {value : JsValue} {date : Date} :
    (runtime.text value).map runtime.parseDate = .ok (some date) ↔
      ∃ text, runtime.text value = .ok text ∧ runtime.parseDate text = some date := by
  cases runtime.text value with
  | error failure => simp [Except.map]
  | ok text => simp [Except.map]

/-- The values that `new Date` makes an instant of these years are the ones that name it. -/
theorem namesInstant_iff (value : JsValue) :
    runtime.NamesInstant value ↔ ∃ date, runtime.newDate value = .ok (some date) ∧ InYears date := by
  have htext : (∃ text date, runtime.text value = .ok text ∧ runtime.parseDate text = some date ∧
      InYears date) ↔
      ∃ date, (runtime.text value).map runtime.parseDate = .ok (some date) ∧ InYears date := by
    simp only [newDate_text]
    constructor
    · rintro ⟨text, date, htext, hdate, hyears⟩
      exact ⟨date, ⟨text, htext, hdate⟩, hyears⟩
    · rintro ⟨date, ⟨text, htext, hdate⟩, hyears⟩
      exact ⟨text, date, htext, hdate, hyears⟩
  cases value with
  | undefined | notFinite | bigInt => simp [Runtime.NamesInstant, Runtime.newDate]
  | null => exact iff_of_true trivial ⟨0, rfl, by decide⟩
  | boolean value => cases value <;> exact iff_of_true trivial ⟨_, rfl, by decide⟩
  | number value =>
    constructor
    · intro hyears
      exact ⟨_, congrArg Except.ok (timeClip_eq_some hyears), hyears⟩
    · rintro ⟨date, hdate, hyears⟩
      have hclip : timeClip value = some date := Except.ok.inj hdate
      unfold timeClip at hclip
      split_ifs at hclip
      change InYears (value.num.tdiv value.den)
      rwa [Option.some.inj hclip]
  | string | array | object | custom => exact htext

/-- The condition of a cursor can be built when its first key names an instant of these years. -/
theorem keyset_isOk (cursor : DecodedCursor) :
    (∃ payload, runtime.keyset cursor = .ok payload) ↔ runtime.NamesInstant cursor.firstKey := by
  simp only [Runtime.keyset, bind_eq_ok, bindDate_eq_ok, namesInstant_iff]
  constructor
  · rintro ⟨_, found, hfound, date, ⟨rfl, hyears⟩, -⟩
    exact ⟨date, hfound, hyears⟩
  · rintro ⟨date, hfound, hyears⟩
    exact ⟨_, some date, hfound, date, ⟨rfl, hyears⟩, rfl⟩

/-- Such a condition compares with a timestamp. -/
theorem keysetTimestamp_keyset {cursor : DecodedCursor} {payload : CursorPayload}
    (hkeyset : runtime.keyset cursor = .ok payload) :
    ∃ timestamp, keysetTimestamp payload = .ok timestamp := by
  simp only [Runtime.keyset, bind_eq_ok] at hkeyset
  obtain ⟨_, -, date, -, hpayload⟩ := hkeyset
  exact ⟨timestampOfDate date, Except.ok.inj hpayload ▸ rfl⟩

theorem decodeCursor_eq_ok {text : String} {cursor : DecodedCursor} :
    runtime.decodeCursor text = .ok cursor ↔
      ∃ document ∈ runtime.parse text, runtime.parsePayload document = some cursor := by
  simp only [← Option.bind_eq_some_iff, Runtime.decodeCursor, Option.mem_def]
  change _ ↔ runtime.parse text >>= runtime.parsePayload = some cursor
  cases runtime.parse text >>= runtime.parsePayload with
  | none => simp
  | some payload => simp

/-- A cursor is decoded or reported as invalid. -/
theorem decodeCursor_error {text : String} {failure : Failure}
    (hfails : runtime.decodeCursor text = .error failure) : failure = invalidCursor := by
  unfold Runtime.decodeCursor at hfails
  split at hfails
  · exact nomatch hfails
  · exact (Except.error.inj hfails).symm

/-- The arguments of a request: without a cursor, with an invalid one, or with a decoded one. -/
theorem buildPageArgs_cases (query : CursorQuery) :
    (runtime.buildPageArgs query = .ok { limit := query.limit.getD defaultLimit } ∧
      runtime.Containable query) ∨
    (runtime.buildPageArgs query = .error invalidCursor ∧ runtime.Containable query) ∨
    ∃ cursor, runtime.buildPageArgs query =
        .ok { limit := query.limit.getD defaultLimit, cursor := some cursor } ∧
      (runtime.Containable query ↔ runtime.NamesInstant cursor.firstKey) := by
  obtain ⟨limit, cursor⟩ := query
  cases cursor with
  | none => exact .inl ⟨rfl, by simp [Runtime.Containable]⟩
  | some text =>
    by_cases hempty : text = ""
    · refine .inl ⟨if_pos hempty, fun other hother hfilled ↦ ?_⟩
      exact absurd (Option.some.inj hother ▸ hempty) hfilled
    · have hargs : runtime.buildPageArgs { limit, cursor := some text } =
          (runtime.decodeCursor text).map fun cursor ↦
            { limit := limit.getD defaultLimit, cursor := some cursor } := if_neg hempty
      rw [hargs]
      cases hdecode : runtime.decodeCursor text with
      | error failure =>
        obtain rfl := decodeCursor_error runtime hdecode
        refine .inr (.inl ⟨rfl, fun other hother _ document hdocument cursor hcursor ↦ ?_⟩)
        obtain rfl := Option.some.inj hother
        have hok := (decodeCursor_eq_ok runtime).mpr ⟨document, hdocument, hcursor⟩
        cases hdecode.symm.trans hok
      | ok cursor =>
        refine .inr (.inr ⟨cursor, rfl, ?_⟩)
        obtain ⟨document, hdocument, hcursor⟩ := (decodeCursor_eq_ok runtime).mp hdecode
        constructor
        · exact fun hcontainable ↦ hcontainable text rfl hempty document hdocument cursor hcursor
        · intro hnames other hother _ found hfound decoded hdecoded
          obtain rfl := Option.some.inj hother
          obtain rfl := Option.some.inj (hdocument.symm.trans hfound)
          obtain rfl := Option.some.inj (hcursor.symm.trans hdecoded)
          exact hnames

/-- What stands for a cursor string in `PageQuery`: nothing for the empty string, and otherwise what it
decodes to, with the date of its first key. -/
def Runtime.token (text : String) : Option CursorToken :=
  if text = "" then none
  else
    match runtime.decodeCursor text >>= runtime.keyset with
    | .ok payload => some (encodeCursor payload)
    | .error _ => some .invalid

/-- Assumes: the cursor is empty, fails the check or names an instant of the years 1 to 9999. The request
is served as one with what stands for its cursor. -/
theorem serve_eq_of_containable {Shown : Type} (list : PageArgs → Except Failure (PagedResult Shown))
    {query : CursorQuery} (hcontainable : runtime.Containable query) :
    runtime.serve list query =
      buildPageArgs { limit := query.limit, cursor := query.cursor.bind runtime.token } >>= list := by
  obtain ⟨limit, cursor⟩ := query
  cases cursor with
  | none => rfl
  | some text =>
    by_cases hempty : text = ""
    · simp only [Runtime.serve, Runtime.buildPageArgs, Runtime.token, Option.bind_some, if_pos hempty]
      rfl
    · simp only [Runtime.serve, Runtime.buildPageArgs, Runtime.token, Option.bind_some, if_neg hempty]
      cases hdecode : runtime.decodeCursor text with
      | error failure =>
        obtain rfl := decodeCursor_error runtime hdecode
        rfl
      | ok cursor =>
        obtain ⟨document, hdocument, hcursor⟩ := (decodeCursor_eq_ok runtime).mp hdecode
        have hnames := hcontainable text rfl hempty document hdocument cursor hcursor
        obtain ⟨payload, hpayload⟩ := (keyset_isOk runtime cursor).mpr hnames
        simp only [Except.map, bind, Except.bind, Option.mapM_some, hpayload]
        rfl

/-- Assumes: a list method that returns a page when it has no cursor or one with a timestamp. Its
requests are contained when the cursor is empty, fails the check or names an instant of the years 1 to
9999, and only then. -/
theorem contained_iff_containable {Shown : Type}
    {list : PageArgs → Except Failure (PagedResult Shown)}
    (hlist : ∀ args : PageArgs, (∀ payload ∈ args.cursor, ∃ timestamp,
      keysetTimestamp payload = .ok timestamp) → ∃ page, list args = .ok page) (query : CursorQuery) :
    runtime.Contained list query ↔ runtime.Containable query := by
  obtain ⟨hargs, hcontainable⟩ | ⟨hargs, hcontainable⟩ | ⟨cursor, hargs, hcontainable⟩ :=
    buildPageArgs_cases runtime query
  · refine iff_of_true (.inr ?_) hcontainable
    obtain ⟨page, hpage⟩ := hlist { limit := query.limit.getD defaultLimit } (by simp)
    refine ⟨{ limit := query.limit.getD defaultLimit }, page, hargs, by simp, ?_⟩
    rw [Runtime.serve, hargs]
    exact hpage
  · exact iff_of_true (.inl hargs) hcontainable
  · rw [hcontainable, ← keyset_isOk]
    constructor
    · rintro (hinvalid | ⟨args, _, hok, hkeyset, -⟩)
      · cases hargs.symm.trans hinvalid
      · obtain rfl := Except.ok.inj (hargs.symm.trans hok)
        obtain ⟨payload, _, hpayload, -⟩ := hkeyset cursor rfl
        exact ⟨payload, hpayload⟩
    · rintro ⟨payload, hpayload⟩
      obtain ⟨timestamp, htimestamp⟩ := keysetTimestamp_keyset runtime hpayload
      obtain ⟨page, hpage⟩ := hlist
        { limit := query.limit.getD defaultLimit, cursor := some payload } (by
          intro other hother
          exact Option.some.inj hother ▸ ⟨timestamp, htimestamp⟩)
      refine .inr ⟨_, page, hargs, fun other hother ↦ ?_, ?_⟩
      · exact Option.some.inj hother ▸ ⟨payload, timestamp, hpayload, htimestamp⟩
      · simp only [Runtime.serve, hargs, bind, Except.bind, Option.mapM_some, hpayload]
        exact hpage

/-- A list method returns a page when it has no cursor or one with a timestamp. -/
theorem listPage_isOk {Row : Type} {before : Row → Row → Prop} (order : OrderBy Row before)
    (timestamp : Row → Timestamp) (id : Row → Uuid) (conditions : Row → Bool) (table : List Row)
    (args : PageArgs)
    (hcursor : ∀ payload ∈ args.cursor, ∃ timestamp, keysetTimestamp payload = .ok timestamp) :
    ∃ page, listPage order timestamp id conditions args table = .ok page := by
  obtain ⟨limit, cursor⟩ := args
  cases cursor with
  | none => exact ⟨_, rfl⟩
  | some payload =>
    obtain ⟨keyset, hkeyset⟩ := hcursor payload rfl
    simp only [listPage, Option.mapM_some, hkeyset]
    exact ⟨_, rfl⟩

/-- A request of a paged list with any cursor string, of the items of a project, of its backlog or of any
other table whose rows may be shown in another form, is contained when the cursor is empty, fails the
check or names an instant of the years 1 to 9999, and only then. -/
theorem contained_iff (query : CursorQuery) :
    (∀ (matchesTerm : String → WorkItem → Bool)
        (order : OrderBy WorkItem (Descending WorkItem.createdAt)) (projectId tenantId : Uuid)
        (filters : WorkItemFilters) (items : List WorkItem),
      (runtime.Contained (fun args ↦ WorkItem.listByProject matchesTerm order projectId tenantId filters
          args items) query ↔ runtime.Containable query) ∧
      (runtime.Contained (fun args ↦ WorkItem.listBacklog matchesTerm order projectId tenantId filters
          args items) query ↔ runtime.Containable query)) ∧
    ∀ (Row Shown : Type) (before : Row → Row → Prop) (order : OrderBy Row before)
        (timestamp : Row → Timestamp) (id : Row → Uuid) (conditions : Row → Bool)
        (display : Row → Shown) (table : List Row),
      runtime.Contained (fun args ↦ (listPage order timestamp id conditions args table).map
        (PagedResult.map display)) query ↔ runtime.Containable query := by
  refine ⟨fun matchesTerm order projectId tenantId filters items ↦ ⟨?_, ?_⟩,
    fun Row Shown before order timestamp id conditions display table ↦ ?_⟩
  · exact contained_iff_containable runtime (listPage_isOk order _ _ _ items) query
  · exact contained_iff_containable runtime (listPage_isOk order _ _ _ items) query
  · refine contained_iff_containable runtime (fun args hcursor ↦ ?_) query
    obtain ⟨page, hpage⟩ := listPage_isOk order timestamp id conditions table args hcursor
    exact ⟨page.map display, congrArg (Except.map _) hpage⟩

/-! ### A cursor without a key -/

/-- `{"v":1,"k":[],"id":"11111111-1111-4111-8111-111111111111","d":"asc"}`, as `encodeCursor` would
write it. -/
def emptyKeyCursor : String :=
  "eyJ2IjoxLCJrIjpbXSwiaWQiOiIxMTExMTExMS0xMTExLTQxMTEtODExMS0xMTExMTExMTExMTEiLCJkIjoiYXNjIn0"

/-- The runtime on this cursor. -/
def emptyKeyRuntime : Runtime where
  parse cursor :=
    if cursor = emptyKeyCursor then
      some (.object [("v", .number 1), ("k", .array []),
        ("id", .string "11111111-1111-4111-8111-111111111111"), ("d", .string "asc")])
    else none
  uuid text :=
    if text = "11111111-1111-4111-8111-111111111111" then
      some 0x11111111111141118111111111111111
    else none
  parseDate _ := none
  numberText _ := ""
  room := 1000

/-- A cursor of a client is not contained: one of the right shape with an empty `k` ends the list call
with an error of the language runtime. -/
theorem emptyKey_failsInternally :
    ¬ ∀ (runtime : Runtime) (query : CursorQuery)
      (order : OrderBy WorkItem (Descending WorkItem.createdAt)) (projectId tenantId : Uuid)
      (filters : WorkItemFilters) (items : List WorkItem),
      runtime.Contained (fun args ↦ WorkItem.listByProject (fun _ _ ↦ false) order projectId tenantId
        filters args items) query := by
  intro halways
  have hcontained := halways emptyKeyRuntime { cursor := some emptyKeyCursor }
    (descendingOrder WorkItem.createdAt) 1 2 {} []
  have hnames := (contained_iff_containable emptyKeyRuntime
    (listPage_isOk (descendingOrder WorkItem.createdAt) _ _ _ []) _).mp hcontained
    emptyKeyCursor rfl (by decide) _ rfl _ rfl
  exact hnames

end RallyApi.Listing

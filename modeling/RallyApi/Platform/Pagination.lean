import Mathlib.Data.List.Perm.Basic
import RallyApi.Paging.Keyset
import RallyApi.Platform.Errors
import RallyApi.Platform.Scalars

/-!
# Pagination

The paging of the list endpoints (`libs/platform/src/http/pagination.ts`) and the query that the list
methods of the repositories share. A cursor carries the timestamp of the last row of a page as an ISO
string, which has milliseconds; the columns have microseconds.

`follow_listPage` connects a client that follows the cursors of such a method with `Paging.follow`:
the method is keyset paging whose cursors are rounded down to milliseconds.
-/

set_option autoImplicit false
set_option relaxedAutoImplicit false

namespace RallyApi.Platform

open Paging

/-! ### Cursors -/

/-- The direction a cursor records. -/
inductive SortDirection
  | asc
  | desc
  deriving DecidableEq, Repr

/-- `CursorPayload`. An entry of `k` is any JSON value; it is given by the date `new Date` makes of it,
which is absent for an invalid date. -/
structure CursorPayload where
  k : List (Option Date)
  id : Uuid
  d : SortDirection
  deriving DecidableEq, Repr

/-- The cursor string of a request, by what it decodes to. -/
inductive CursorToken
  | encoded (payload : CursorPayload)
  | invalid
  deriving DecidableEq, Repr

/-- `encodeCursor`. -/
def encodeCursor (payload : CursorPayload) : CursorToken := .encoded payload

/-- `decodeCursor`. -/
def decodeCursor : CursorToken → Except Failure CursorPayload
  | .encoded payload => .ok payload
  | .invalid => .error (preconditionFailedException .invalidCursor "Invalid or tampered cursor")

/-! ### Pages -/

/-- `PageInfo`. -/
structure PageInfo where
  nextCursor : Option CursorToken
  hasNextPage : Bool
  limit : ℕ
  deriving DecidableEq, Repr

/-- `PagedResult`. -/
structure PagedResult (T : Type) where
  data : List T
  pageInfo : PageInfo

/-- A page whose rows are shown in another form. -/
def PagedResult.map {T Shown : Type} (display : T → Shown) (page : PagedResult T) :
    PagedResult Shown where
  data := page.data.map display
  pageInfo := page.pageInfo

/-- `buildPageResult`, of rows fetched with `limit + 1`; `id` reads the identifier of a row. -/
def buildPageResult {T : Type} (id : T → Uuid) (rawItems : List T) (limit : ℕ)
    (buildCursorKey : T → List (Option Date)) (direction : SortDirection) : PagedResult T :=
  let hasNextPage := decide (limit < rawItems.length)
  let data := if hasNextPage then rawItems.take limit else rawItems
  let nextCursor :=
    if hasNextPage then
      data.getLast?.map fun last ↦
        encodeCursor { k := buildCursorKey last, id := id last, d := direction }
    else none
  { data, pageInfo := { nextCursor, hasNextPage, limit } }

/-- `PageQuery`; an empty cursor string counts as none. -/
structure PageQuery where
  limit : Option ℕ := none
  cursor : Option CursorToken := none

/-- What `buildPageArgs` returns. -/
structure PageArgs where
  limit : ℕ
  cursor : Option CursorPayload := none

/-- `DEFAULT_LIMIT`. -/
def defaultLimit : ℕ := 50

/-- `buildPageArgs`. -/
def buildPageArgs (query : PageQuery) : Except Failure PageArgs :=
  let limit := query.limit.getD defaultLimit
  match query.cursor with
  | none => .ok { limit }
  | some token => (decodeCursor token).map fun cursor ↦ { limit, cursor := some cursor }

/-! ### The list methods -/

/-- The timestamp a cursor is compared with, `new Date(cursor.k[0])`; an invalid date cannot be
bound. -/
def keysetTimestamp (cursor : CursorPayload) : Except Failure Timestamp :=
  match cursor.k.head?.join with
  | some date => .ok (timestampOfDate date)
  | none => .error .rangeError

variable {Row Shown : Type} {before : Row → Row → Prop}

/-- The query of a list method: the rows that meet its conditions and whose timestamp is less than the
one of the cursor, in its order, one more than the limit. All methods leave the direction of
`buildPageResult` at its default. -/
def listPage (order : OrderBy Row before) (timestamp : Row → Timestamp) (id : Row → Uuid)
    (conditions : Row → Bool) (args : PageArgs) (table : List Row) :
    Except Failure (PagedResult Row) := do
  let keyset ← args.cursor.mapM keysetTimestamp
  let rows := (order.arrange (table.filter fun row ↦ conditions row && below timestamp keyset row)).take
    (args.limit + 1)
  pure (buildPageResult id rows args.limit (fun row ↦ [some (dateOfTimestamp (timestamp row))]) .asc)

/-- One request of a client that pages through a list: the page it gets for the cursor it sends. -/
def servePage (list : ℕ → PageArgs → Except Failure (PagedResult Shown)) (limit : ℕ) (query : ℕ)
    (cursor : Option CursorToken) : Option (Page Shown CursorToken) :=
  match buildPageArgs { limit := some limit, cursor } >>= list query with
  | .ok page => some ⟨page.data, page.pageInfo.nextCursor⟩
  | .error _ => none

/-- A client that starts without a cursor and follows `nextCursor` until it is null ends, and it has
collected the given rows, each of them once, in some order. -/
def CollectsOnce (list : ℕ → PageArgs → Except Failure (PagedResult Shown)) (limit : ℕ)
    (rows : List Shown) : Prop :=
  ∃ fuel collected, follow (servePage list limit) fuel 0 none = some collected ∧
    collected.Perm rows

/-- The same, and what it has collected is in ascending order of a timestamp. -/
def CollectsInOrder (list : ℕ → PageArgs → Except Failure (PagedResult Shown)) (limit : ℕ)
    (timestamp : Shown → Timestamp) (rows : List Shown) : Prop :=
  ∃ fuel collected, follow (servePage list limit) fuel 0 none = some collected ∧
    collected.Perm rows ∧ collected.Pairwise (Ascending timestamp)

/-! ### The list methods as keyset paging -/

/-- A cursor string that an endpoint has handed out stands for the timestamp it is compared with. -/
def StandsFor (cursor : Timestamp) (token : CursorToken) : Prop :=
  ∃ payload, token = .encoded payload ∧ keysetTimestamp payload = .ok cursor

/-- The arguments of a request without a cursor, or with a cursor string that was handed out. -/
theorem buildPageArgs_of_standsFor (limit : ℕ) {cursor : Option Timestamp}
    {token : Option CursorToken} (hcursor : Option.Rel StandsFor cursor token) :
    ∃ args, buildPageArgs { limit := some limit, cursor := token } = .ok args ∧
      args.limit = limit ∧ args.cursor.mapM keysetTimestamp = .ok cursor := by
  cases hcursor with
  | none => exact ⟨_, rfl, rfl, rfl⟩
  | some hstands =>
    obtain ⟨payload, rfl, hkeyset⟩ := hstands
    refine ⟨_, rfl, rfl, ?_⟩
    simp only [Option.mapM_some, hkeyset]
    rfl

/-- `buildPageResult` cuts the page of the rows its query has found, of which it gets one more than
the limit. -/
theorem buildPageResult_take (id : Row → Uuid) (timestamp : Row → Timestamp) (limit : ℕ)
    (found : List Row) :
    let built := buildPageResult id (found.take (limit + 1)) limit
      (fun row ↦ [some (dateOfTimestamp (timestamp row))]) .asc
    (cutPage timestamp floorToMilliseconds limit found).Shows StandsFor (fun row ↦ row)
      ⟨built.data, built.pageInfo.nextCursor⟩ := by
  by_cases hmore : limit < found.length
  · have htake : limit < (found.take (limit + 1)).length := by
      rw [List.length_take]
      omega
    have hdata : (found.take (limit + 1)).take limit = found.take limit := by
      rw [List.take_take, Nat.min_eq_left (Nat.le_succ limit)]
    simp only [buildPageResult, cutPage, htake, hmore, decide_true, if_true, hdata]
    refine ⟨(List.map_id' _).symm, ?_⟩
    cases hlast : (found.take limit).getLast? with
    | none => exact .none
    | some last => exact .some ⟨_, rfl, rfl⟩
  · have hfits : found.take (limit + 1) = found := List.take_of_length_le (by omega)
    simp only [buildPageResult, cutPage, hfits, hmore, decide_false, if_false,
      Bool.false_eq_true, List.take_of_length_le (Nat.not_lt.mp hmore)]
    exact ⟨(List.map_id' _).symm, .none⟩

section Listing

variable (order : ℕ → OrderBy Row before) (timestamp : Row → Timestamp) (id : Row → Uuid)
  (conditions : Row → Bool) (table : List Row) (limit : ℕ)

/-- The page of a list method is the page of keyset paging over the matching rows. -/
theorem servePage_listPage (query : ℕ) (cursor : Option Timestamp) (token : Option CursorToken)
    (hcursor : Option.Rel StandsFor cursor token) :
    Option.Rel (Page.Shows StandsFor fun row ↦ row)
      (fetch order timestamp floorToMilliseconds limit (table.filter conditions) query cursor)
      (servePage (fun query args ↦ listPage (order query) timestamp id conditions args table) limit
        query token) := by
  obtain ⟨args, hargs, rfl, hkeyset⟩ := buildPageArgs_of_standsFor limit hcursor
  have hfilter : (table.filter conditions).filter (below timestamp cursor) =
      table.filter fun row ↦ conditions row && below timestamp cursor row := by
    rw [List.filter_filter]
    exact List.filter_congr fun row _ ↦ Bool.and_comm _ _
  have hlist : listPage (order query) timestamp id conditions args table =
      .ok (buildPageResult id (((order query).arrange ((table.filter conditions).filter
        (below timestamp cursor))).take (args.limit + 1)) args.limit
        (fun row ↦ [some (dateOfTimestamp (timestamp row))]) .asc) := by
    rw [listPage, hkeyset, hfilter]
    rfl
  rw [servePage, hargs]
  simp only [bind, Except.bind, hlist]
  exact .some (buildPageResult_take id timestamp args.limit _)

/-- A client that pages through a list method collects what keyset paging over the matching rows
collects, with cursors rounded down to milliseconds. -/
theorem follow_listPage (fuel : ℕ) :
    follow (servePage (fun query args ↦ listPage (order query) timestamp id conditions args table)
        limit) fuel 0 none =
      follow (fetch order timestamp floorToMilliseconds limit (table.filter conditions)) fuel 0
        none := by
  have hsimulates := follow_simulates
    (servePage_listPage order timestamp id conditions table limit) fuel 0 .none
  rwa [List.map_id_fun', Option.map_id] at hsimulates

end Listing

/-- Assumes: a list method in descending order, and a positive limit. A client collects every matching
row exactly once when at every boundary between two pages the next row is older than the last one,
with the latter's timestamp rounded down to milliseconds, and only then. -/
theorem collectsOnce_descending {timestamp : Row → Timestamp}
    (order : ℕ → OrderBy Row (Descending timestamp)) (id : Row → Uuid) (conditions : Row → Bool)
    (table : List Row) {limit : ℕ} (hlimit : 0 < limit) :
    CollectsOnce (fun query args ↦ listPage (order query) timestamp id conditions args table) limit
        (table.filter conditions) ↔
      CleanBoundaries floorToMilliseconds limit
        (descending ((table.filter conditions).map timestamp)) := by
  rw [← follow_descending_perm order floorToMilliseconds_le hlimit]
  simp only [CollectsOnce, follow_listPage]

/-- Assumes: a list method in ascending order, and a positive limit. A client collects every matching
row exactly once and in order when they all fit on one page, and only then. -/
theorem collectsInOrder_ascending {timestamp : Row → Timestamp}
    (order : ℕ → OrderBy Row (Ascending timestamp)) (id : Row → Uuid) (conditions : Row → Bool)
    (table : List Row) {limit : ℕ} (hlimit : 0 < limit) :
    CollectsInOrder (fun query args ↦ listPage (order query) timestamp id conditions args table)
        limit timestamp (table.filter conditions) ↔
      (table.filter conditions).length ≤ limit := by
  rw [← follow_ascending_perm order floorToMilliseconds_le hlimit]
  simp only [CollectsInOrder, follow_listPage]

/-- A method that shows the rows of another in another form. -/
theorem servePage_map (list : ℕ → PageArgs → Except Failure (PagedResult Row)) (limit : ℕ)
    (display : Row → Shown) (query : ℕ) (cursor token : Option CursorToken)
    (hsame : Option.Rel Eq cursor token) :
    Option.Rel (Page.Shows Eq display) (servePage list limit query cursor)
      (servePage (fun query args ↦ (list query args).map (PagedResult.map display)) limit query
        token) := by
  obtain rfl : cursor = token := by
    cases hsame with
    | none => rfl
    | some heq => rw [heq]
  unfold servePage
  cases buildPageArgs { limit := some limit, cursor } with
  | error failure => exact .none
  | ok args =>
    simp only [bind, Except.bind]
    cases list query args with
    | error failure => exact .none
    | ok page =>
      refine .some ⟨rfl, ?_⟩
      change Option.Rel Eq page.pageInfo.nextCursor page.pageInfo.nextCursor
      cases page.pageInfo.nextCursor with
      | none => exact .none
      | some token => exact .some rfl

/-- Assumes: a list method, and a form of its rows that they can be read back from. A client collects
the rows in that form in order exactly when it collects the rows themselves in order. -/
theorem collectsInOrder_map {list : ℕ → PageArgs → Except Failure (PagedResult Row)} {limit : ℕ}
    {display : Row → Shown} (hdisplay : Function.Injective display) {timestamp : Row → Timestamp}
    {shownTimestamp : Shown → Timestamp}
    (htimestamp : ∀ row, shownTimestamp (display row) = timestamp row) (rows : List Row) :
    CollectsInOrder (fun query args ↦ (list query args).map (PagedResult.map display)) limit
        shownTimestamp (rows.map display) ↔
      CollectsInOrder list limit timestamp rows := by
  have hfollow : ∀ fuel, follow (servePage
      (fun query args ↦ (list query args).map (PagedResult.map display)) limit) fuel 0 none =
      (follow (servePage list limit) fuel 0 none).map (List.map display) := fun fuel ↦
    follow_simulates (servePage_map list limit display) fuel 0 .none
  have horder : ∀ collected : List Row, (collected.map display).Pairwise (Ascending shownTimestamp) ↔
      collected.Pairwise (Ascending timestamp) := fun collected ↦ by
    simp only [List.pairwise_map, Ascending, htimestamp]
  simp only [CollectsInOrder, hfollow, Option.map_eq_some_iff]
  constructor
  · rintro ⟨fuel, _, ⟨collected, hcollected, rfl⟩, hperm, hsorted⟩
    exact ⟨fuel, collected, hcollected, (List.map_perm_map_iff hdisplay).mp hperm,
      (horder collected).mp hsorted⟩
  · rintro ⟨fuel, collected, hcollected, hperm, hsorted⟩
    exact ⟨fuel, _, ⟨collected, hcollected, rfl⟩, hperm.map display, (horder collected).mpr hsorted⟩

end RallyApi.Platform

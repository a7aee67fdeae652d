import Mathlib.Data.List.Sort
import Mathlib.Data.Option.Basic
import Mathlib.Order.OrderDual

/-!
# Keyset paging

A list is handed out in pages. A query takes the rows whose key lies below a cursor, in some order,
and returns up to `limit` of them; when there are more, it returns the cursor of the next page, which
is the key of the last row it returned, rounded down. `follow` is what a client collects that follows
the cursors until there is none.

The order in which a query returns rows with equal keys is not fixed, and may change from query to
query: `OrderBy` is any arrangement of rows that respects a relation.

`follow_terminates` bounds the number of queries. `follow_descending_perm` says exactly when paging in
descending order returns every row once: when at every boundary between two pages the next key lies
below the rounded key of the row before it. `follow_ascending_perm` says that paging in ascending
order, with the same cursor condition, only does so when all rows fit on one page.
-/

set_option autoImplicit false
set_option relaxedAutoImplicit false

namespace RallyApi.Paging

/-! ### Pages -/

/-- One page: its rows and the cursor of the next one. -/
structure Page (Row Cursor : Type) where
  data : List Row
  next : Option Cursor

section Follow

variable {Row Cursor Shown Token : Type}

/-- The rows a client collects that asks for a page and follows the cursors until there is none, or
`none` when `fuel` queries are not enough or one of them fails. `fetch` serves the queries, by their
number. -/
def follow (fetch : ℕ → Option Cursor → Option (Page Row Cursor)) :
    ℕ → ℕ → Option Cursor → Option (List Row)
  | 0, _, _ => none
  | fuel + 1, query, cursor =>
    match fetch query cursor with
    | none => none
    | some ⟨data, none⟩ => some data
    | some ⟨data, some next⟩ => (follow fetch fuel (query + 1) (some next)).map (data ++ ·)

/-- A page stands for another: it shows its rows, and its cursor stands for the other's. -/
structure Page.Shows (standsFor : Cursor → Token → Prop) (display : Row → Shown)
    (page : Page Row Cursor) (shown : Page Shown Token) : Prop where
  data : shown.data = page.data.map display
  next : Option.Rel standsFor page.next shown.next

/-- Assumes: two ways to serve queries take cursors that stand for each other to pages that do. A
client collects from one what the other shows. -/
theorem follow_simulates {standsFor : Cursor → Token → Prop} {display : Row → Shown}
    {fetch : ℕ → Option Cursor → Option (Page Row Cursor)}
    {serve : ℕ → Option Token → Option (Page Shown Token)}
    (hserve : ∀ query cursor token, Option.Rel standsFor cursor token →
      Option.Rel (Page.Shows standsFor display) (fetch query cursor) (serve query token))
    (fuel query : ℕ) {cursor : Option Cursor} {token : Option Token}
    (hcursor : Option.Rel standsFor cursor token) :
    follow serve fuel query token = (follow fetch fuel query cursor).map (List.map display) := by
  induction fuel generalizing query cursor token with
  | zero => rfl
  | succ fuel ih =>
    have hpage := hserve query cursor token hcursor
    rw [follow, follow]
    generalize fetch query cursor = page at hpage ⊢
    generalize serve query token = shown at hpage ⊢
    cases hpage with
    | none => rfl
    | @some page shown hshows =>
      obtain ⟨data, next⟩ := page
      obtain ⟨shownData, shownNext⟩ := shown
      obtain ⟨rfl, hnext⟩ := hshows
      cases hnext with
      | none => rfl
      | some hrelated =>
        simp only [ih (query + 1) (.some hrelated), Option.map_map]
        refine congrArg (fun f ↦ Option.map f _) (funext fun rest ↦ ?_)
        exact (List.map_append ..).symm

end Follow

/-! ### Queries -/

/-- The order of a query: an arrangement of rows that respects a relation. -/
structure OrderBy (Row : Type) (before : Row → Row → Prop) where
  arrange : List Row → List Row
  perm : ∀ rows, (arrange rows).Perm rows
  sorted : ∀ rows, (arrange rows).Pairwise before

section Cut

variable {Row Key : Type} {key : Row → Key} {roundDown : Key → Key} {limit : ℕ} {found : List Row}

/-- The page cut from the rows a query has found: up to `limit` of them, and the rounded key of the
last when there are more. -/
def cutPage (key : Row → Key) (roundDown : Key → Key) (limit : ℕ) (found : List Row) :
    Page Row Key where
  data := found.take limit
  next := if limit < found.length then (found.take limit).getLast?.map fun row ↦ roundDown (key row)
    else none

/-- All the rows fit on one page. -/
theorem cutPage_of_le (hfits : found.length ≤ limit) :
    cutPage key roundDown limit found = ⟨found, none⟩ := by
  rw [cutPage, List.take_of_length_le hfits, if_neg (Nat.not_lt.mpr hfits)]

/-- A list that is longer than a page splits at the last row of the page. -/
theorem exists_boundary (hlimit : 0 < limit) (hmore : limit < found.length) :
    ∃ front last next rest, found = front ++ last :: next :: rest ∧ front.length + 1 = limit := by
  obtain ⟨size, rfl⟩ := Nat.exists_eq_succ_of_ne_zero hlimit.ne'
  have hdrop : found = found.take size ++ found.drop size := (List.take_append_drop size found).symm
  have hlength : (found.drop size).length = found.length - size := List.length_drop ..
  match hrest : found.drop size with
  | [] | [_] => simp [hrest] at hlength; omega
  | last :: next :: rest =>
    refine ⟨found.take size, last, next, rest, hrest ▸ hdrop, ?_⟩
    rw [List.length_take]
    omega

/-- The page of a list that is longer than a page. -/
theorem cutPage_boundary {front rest : List Row} {last next : Row}
    (hfront : front.length + 1 = limit) :
    cutPage key roundDown limit (front ++ last :: next :: rest) =
      ⟨front ++ [last], some (roundDown (key last))⟩ := by
  have hsplit : front ++ last :: next :: rest = (front ++ [last]) ++ next :: rest := by simp
  have hlength : (front ++ [last]).length = limit := by simpa using hfront
  rw [cutPage, hsplit, List.take_left' hlength, if_pos (by simp [← hlength])]
  simp

end Cut

variable {Row Key : Type} [LinearOrder Key]

/-- The arrangement in descending order that keeps the rows with equal keys as they are. -/
def descendingOrder (key : Row → Key) : OrderBy Row fun first second ↦ key second ≤ key first where
  arrange := List.insertionSort fun first second ↦ key second ≤ key first
  perm := List.perm_insertionSort _
  sorted rows := by
    have : Std.Total fun first second : Row ↦ key second ≤ key first :=
      ⟨fun first second ↦ le_total (key second) (key first)⟩
    have : IsTrans Row fun first second ↦ key second ≤ key first :=
      ⟨fun _ _ _ hfirst hsecond ↦ hsecond.trans hfirst⟩
    exact List.pairwise_insertionSort _ _

/-- The arrangement in ascending order that keeps the rows with equal keys as they are. -/
def ascendingOrder (key : Row → Key) : OrderBy Row fun first second ↦ key first ≤ key second :=
  descendingOrder fun row ↦ OrderDual.toDual (key row)

/-- A row is among the first rows in ascending order when that many rows at most have a key up to its
own. -/
theorem mem_take_ascending (key : Row → Key) {rows : List Row} {row : Row} {limit : ℕ}
    (hrow : row ∈ rows) (hrank : (rows.countP fun other ↦ key other ≤ key row) ≤ limit) :
    row ∈ (rows.insertionSort fun first second ↦ key first ≤ key second).take limit := by
  have hperm := (ascendingOrder key).perm rows
  have hsorted := (ascendingOrder key).sorted rows
  change row ∈ ((ascendingOrder key).arrange rows).take limit
  obtain ⟨front, rest, hsplit⟩ := List.append_of_mem (hperm.mem_iff.mpr hrow)
  rw [hsplit] at hperm hsorted ⊢
  have hfront : ∀ other ∈ front, key other ≤ key row := fun other hother ↦
    (List.pairwise_append.mp hsorted).2.2 other hother row (.head _)
  have hall : (front.countP fun other ↦ key other ≤ key row) = front.length :=
    List.countP_eq_length.mpr fun other hother ↦ decide_eq_true (hfront other hother)
  have hshort : front.length < limit := by
    rw [← hperm.countP_eq, List.countP_append, hall, List.countP_cons_of_pos (by simp)] at hrank
    omega
  rw [List.take_append, show limit - front.length = (limit - front.length - 1) + 1 by omega,
    List.take_succ_cons]
  exact List.mem_append_right _ (.head _)

/-- The row lies below the cursor, if there is one. -/
def below (key : Row → Key) (cursor : Option Key) (row : Row) : Bool :=
  match cursor with
  | none => true
  | some cursor => key row < cursor

/-- Without a cursor no row is left out. -/
@[simp]
theorem filter_below_none (key : Row → Key) (rows : List Row) :
    rows.filter (below key none) = rows := List.filter_eq_self.mpr fun _ _ ↦ rfl

/-- The page for a cursor of a list of rows. -/
def fetch {before : Row → Row → Prop} (order : ℕ → OrderBy Row before) (key : Row → Key)
    (roundDown : Key → Key) (limit : ℕ) (rows : List Row) (query : ℕ) (cursor : Option Key) :
    Option (Page Row Key) :=
  some (cutPage key roundDown limit ((order query).arrange (rows.filter (below key cursor))))

variable {before : Row → Row → Prop} {order : ℕ → OrderBy Row before} {key : Row → Key}
  {roundDown : Key → Key} {limit : ℕ} {rows : List Row} {query : ℕ} {cursor : Option Key}

/-- The rows of the next page are the rows of this one that lie below its cursor. -/
theorem filter_below_next (hround : ∀ k, roundDown k ≤ k) {last : Row}
    (hlast : last ∈ rows.filter (below key cursor)) :
    rows.filter (below key (some (roundDown (key last)))) =
      (rows.filter (below key cursor)).filter (below key (some (roundDown (key last)))) := by
  rw [List.filter_filter]
  refine List.filter_congr fun row _ ↦ ?_
  have hbelow := (List.mem_filter.mp hlast).2
  cases cursor with
  | none => simp [below]
  | some cursor =>
    simp only [below, decide_eq_true_eq] at hbelow ⊢
    by_cases hrow : key row < roundDown (key last)
    · simp [hrow, (hrow.trans_le (hround _)).trans hbelow]
    · simp [hrow]

/-- The cursor leaves the last row of the page out. -/
theorem not_below_next (hround : ∀ k, roundDown k ≤ k) {last row : Row} (hrow : key last ≤ key row) :
    below key (some (roundDown (key last))) row = false := by
  simp only [below, decide_eq_false_iff_not, not_lt]
  exact (hround _).trans hrow

/-- How a client goes on after one query: it has all the rows, or it has the first page and asks for
the rows below its cursor, which are fewer. -/
theorem follow_cases (order : ℕ → OrderBy Row before) (rows : List Row)
    (hround : ∀ k, roundDown k ≤ k) (hlimit : 0 < limit) (fuel query : ℕ) (cursor : Option Key) :
    let found := (order query).arrange (rows.filter (below key cursor))
    (found.length ≤ limit ∧
      follow (fetch order key roundDown limit rows) (fuel + 1) query cursor = some found) ∨
    ∃ front last next rest, found = front ++ last :: next :: rest ∧ front.length + 1 = limit ∧
      rows.filter (below key (some (roundDown (key last)))) =
        (rows.filter (below key cursor)).filter (below key (some (roundDown (key last)))) ∧
      (rows.filter (below key (some (roundDown (key last))))).length <
        (rows.filter (below key cursor)).length ∧
      follow (fetch order key roundDown limit rows) (fuel + 1) query cursor =
        (follow (fetch order key roundDown limit rows) fuel (query + 1)
          (some (roundDown (key last)))).map (front ++ [last] ++ ·) := by
  intro found
  rcases Nat.lt_or_ge limit found.length with hmore | hfits
  · obtain ⟨front, last, next, rest, hfound, hfront⟩ := exists_boundary hlimit hmore
    have hlast : last ∈ rows.filter (below key cursor) := by
      rw [← ((order query).perm _).mem_iff]
      change last ∈ found
      simp [hfound]
    have hnarrow := filter_below_next hround hlast
    refine .inr ⟨front, last, next, rest, hfound, hfront, hnarrow, ?_, ?_⟩
    · rw [hnarrow, List.length_filter_lt_length_iff_exists]
      exact ⟨last, hlast, by simp [not_below_next hround (le_refl (key last))]⟩
    · have hpage : fetch order key roundDown limit rows query cursor =
          some ⟨front ++ [last], some (roundDown (key last))⟩ := by
        rw [← cutPage_boundary hfront, ← hfound]
        rfl
      rw [follow, hpage]
  · refine .inl ⟨hfits, ?_⟩
    have hpage : fetch order key roundDown limit rows query cursor = some ⟨found, none⟩ := by
      rw [← cutPage_of_le hfits]
      rfl
    rw [follow, hpage]

/-- Following the cursors ends, after at most as many queries as there are rows and one more. -/
theorem follow_terminates (order : ℕ → OrderBy Row before) (hround : ∀ k, roundDown k ≤ k)
    (hlimit : 0 < limit) (fuel query : ℕ) (cursor : Option Key)
    (hfuel : (rows.filter (below key cursor)).length < fuel) :
    ∃ collected, follow (fetch order key roundDown limit rows) fuel query cursor =
      some collected := by
  induction fuel generalizing query cursor with
  | zero => exact absurd hfuel (Nat.not_lt_zero _)
  | succ fuel ih =>
    rcases follow_cases order rows hround hlimit fuel query cursor with
      ⟨_, hfollow⟩ | ⟨front, last, next, rest, _, _, _, hfewer, hfollow⟩
    · exact ⟨_, hfollow⟩
    · obtain ⟨collected, hcollected⟩ :=
        ih (query + 1) _ (hfewer.trans_le (Nat.le_of_lt_succ hfuel))
      exact ⟨_, by rw [hfollow, hcollected, Option.map_some]⟩

/-- A client only collects rows below its cursor. -/
theorem follow_subset (order : ℕ → OrderBy Row before) (hround : ∀ k, roundDown k ≤ k)
    (hlimit : 0 < limit) {fuel query : ℕ} {cursor : Option Key} {collected : List Row}
    (hfollow : follow (fetch order key roundDown limit rows) fuel query cursor = some collected) :
    collected ⊆ rows.filter (below key cursor) := by
  induction fuel generalizing query cursor collected with
  | zero => cases hfollow
  | succ fuel ih =>
    have harranged := ((order query).perm (rows.filter (below key cursor))).subset
    rcases follow_cases order rows hround hlimit fuel query cursor with
      ⟨_, hall⟩ | ⟨front, last, next, rest, hfound, _, hnarrow, _, hmore⟩
    · rw [hall] at hfollow
      exact Option.some.inj hfollow ▸ harranged
    · rw [hmore, Option.map_eq_some_iff] at hfollow
      obtain ⟨others, hothers, rfl⟩ := hfollow
      refine List.append_subset.mpr ⟨fun row hrow ↦ harranged ?_,
        List.Subset.trans (ih hothers) ?_⟩
      · rw [hfound, List.append_cons]
        exact List.mem_append_left _ hrow
      · rw [hnarrow]
        exact List.filter_subset_self _

/-! ### Descending order -/

/-- The keys in descending order. -/
def descending (keys : List Key) : List Key := keys.insertionSort (· ≥ ·)

/-- At every boundary between two pages the next key lies below the rounded key before it. -/
def CleanBoundaries (roundDown : Key → Key) (limit : ℕ) (keys : List Key) : Prop :=
  ∀ page last next, 0 < page → keys[page * limit - 1]? = some last →
    keys[page * limit]? = some next → next < roundDown last

/-- The boundaries of keys that fit on one page. -/
theorem cleanBoundaries_of_le {keys : List Key} (hfits : keys.length ≤ limit) :
    CleanBoundaries roundDown limit keys := by
  intro page last next hpage _ hnext
  have hlt := (List.getElem?_eq_some_iff.mp hnext).1
  have hle := Nat.le_mul_of_pos_left limit hpage
  omega

/-- The boundaries of a list of keys: the first one, and those of the keys after it. -/
theorem cleanBoundaries_append {front rest : List Key} {last next : Key}
    (hfront : front.length + 1 = limit) :
    CleanBoundaries roundDown limit (front ++ last :: next :: rest) ↔
      next < roundDown last ∧ CleanBoundaries roundDown limit (next :: rest) := by
  have hlast : (front ++ last :: next :: rest)[limit - 1]? = some last := by
    rw [← hfront, Nat.add_sub_cancel]
    simp
  have hnext : ∀ index, (front ++ last :: next :: rest)[limit + index]? =
      (next :: rest)[index]? := by
    intro index
    rw [List.getElem?_append_right (by omega), ← hfront]
    have hindex : front.length + 1 + index - front.length = index + 1 := by omega
    rw [hindex, List.getElem?_cons_succ]
  constructor
  · intro hclean
    refine ⟨hclean 1 last next Nat.one_pos (by rwa [Nat.one_mul]) ?_, fun page before after hpage
      hbefore hafter ↦ hclean (page + 1) before after (Nat.succ_pos _) ?_ ?_⟩
    · simpa using hnext 0
    · have hle := Nat.le_mul_of_pos_left limit hpage
      have hindex : (page + 1) * limit - 1 = limit + (page * limit - 1) := by
        rw [Nat.add_one_mul]
        omega
      rw [hindex, hnext, hbefore]
    · rw [Nat.add_one_mul, Nat.add_comm, hnext, hafter]
  · rintro ⟨hfirst, hclean⟩ page before after hpage hbefore hafter
    obtain ⟨previous, rfl⟩ := Nat.exists_eq_succ_of_ne_zero hpage.ne'
    rw [Nat.succ_mul, Nat.add_comm] at hbefore hafter
    rw [hnext] at hafter
    rcases Nat.eq_zero_or_pos previous with rfl | hprevious
    · rw [Nat.zero_mul, Nat.add_zero, hlast] at hbefore
      rw [Nat.zero_mul, List.getElem?_cons_zero] at hafter
      cases hbefore
      cases hafter
      exact hfirst
    · have hle := Nat.le_mul_of_pos_left limit hprevious
      rw [Nat.add_sub_assoc (by omega), hnext] at hbefore
      exact hclean previous before after hprevious hbefore hafter

/-- The order of a query that shows the largest keys first. -/
abbrev Descending (key : Row → Key) : Row → Row → Prop := fun first second ↦ key second ≤ key first

/-- The keys of rows in descending order do not depend on how the rows are arranged. -/
theorem map_key_eq_descending {arranged : List Row} (hperm : arranged.Perm rows)
    (hsorted : arranged.Pairwise (Descending key)) :
    arranged.map key = descending (rows.map key) := by
  have hkeys : (arranged.map key).Pairwise (· ≥ ·) := List.pairwise_map.mpr hsorted
  have hdescending : (descending (rows.map key)).Pairwise (· ≥ ·) :=
    List.pairwise_insertionSort _ _
  have hsame : (arranged.map key).Perm (descending (rows.map key)) :=
    (hperm.map key).trans (List.perm_insertionSort _ _).symm
  exact hsame.eq_of_pairwise (fun _ _ _ _ hge hle ↦ le_antisymm hle hge) hkeys hdescending

/-- After a page in descending order, the rows below the cursor are among the rest, and they are all
of the rest when the first of it lies below the cursor. -/
theorem filter_below_descending (hround : ∀ k, roundDown k ≤ k) {front rest : List Row}
    {last next : Row} (hsorted : (front ++ last :: next :: rest).Pairwise (Descending key)) :
    (front ++ last :: next :: rest).filter (below key (some (roundDown (key last)))) =
        (next :: rest).filter (below key (some (roundDown (key last)))) ∧
      (key next < roundDown (key last) →
        (next :: rest).filter (below key (some (roundDown (key last)))) = next :: rest) := by
  obtain ⟨_, hback, hcross⟩ := List.pairwise_append.mp hsorted
  obtain ⟨_, hrest⟩ := List.pairwise_cons.mp hback
  constructor
  · have hfront : front.filter (below key (some (roundDown (key last)))) = [] := by
      refine List.filter_eq_nil_iff.mpr fun row hrow ↦ ?_
      rw [not_below_next hround (hcross row hrow last List.mem_cons_self)]
      exact Bool.false_ne_true
    rw [List.filter_append, hfront, List.nil_append, List.filter_cons_of_neg]
    rw [not_below_next hround le_rfl]
    exact Bool.false_ne_true
  · intro hnext
    refine List.filter_eq_self.mpr fun row hrow ↦ decide_eq_true ?_
    rcases List.mem_cons.mp hrow with rfl | hlater
    · exact hnext
    · exact ((List.pairwise_cons.mp hrest).1 row hlater).trans_lt hnext

/-- Paging in descending order shows no row twice, and it shows every row exactly when the boundaries
of its pages are clean. -/
theorem follow_descending (order : ℕ → OrderBy Row (Descending key)) (hround : ∀ k, roundDown k ≤ k)
    (hlimit : 0 < limit) {fuel query : ℕ} {cursor : Option Key} {collected : List Row}
    (hfollow : follow (fetch order key roundDown limit rows) fuel query cursor = some collected) :
    collected.Subperm (rows.filter (below key cursor)) ∧
      (collected.Perm (rows.filter (below key cursor)) ↔
        CleanBoundaries roundDown limit (descending ((rows.filter (below key cursor)).map key))) := by
  induction fuel generalizing query cursor collected with
  | zero => cases hfollow
  | succ fuel ih =>
    have hperm := (order query).perm (rows.filter (below key cursor))
    have hsorted := (order query).sorted (rows.filter (below key cursor))
    rw [← map_key_eq_descending hperm hsorted]
    rcases follow_cases order rows hround hlimit fuel query cursor with
      ⟨hfits, hall⟩ | ⟨front, last, next, rest, hfound, hfront, hnarrow, _, hmore⟩
    · obtain rfl := Option.some.inj (hall.symm.trans hfollow)
      refine ⟨hperm.subperm, iff_of_true hperm (cleanBoundaries_of_le ?_)⟩
      rwa [List.length_map]
    · rw [hmore, Option.map_eq_some_iff] at hfollow
      obtain ⟨others, hothers, rfl⟩ := hfollow
      obtain ⟨hsub, hcomplete⟩ := ih hothers
      rw [hfound] at hperm hsorted
      obtain ⟨hbelow, hself⟩ := filter_below_descending hround hsorted
      -- the rows below the next cursor are those of the rest that lie below it
      have hremaining : (rows.filter (below key (some (roundDown (key last))))).Perm
          ((next :: rest).filter (below key (some (roundDown (key last))))) := by
        rw [hnarrow, ← hbelow]
        exact (hperm.filter _).symm
      have hrest : (next :: rest).Pairwise (Descending key) :=
        (List.pairwise_cons.mp (List.pairwise_append.mp hsorted).2.1).2
      rw [hfound, List.map_append, List.map_cons, List.map_cons,
        cleanBoundaries_append (by rwa [List.length_map]), ← List.map_cons]
      have hsplit : front ++ last :: next :: rest = front ++ [last] ++ (next :: rest) := by simp
      rw [hsplit] at hperm
      constructor
      · refine List.Subperm.trans ?_ hperm.subperm
        refine (List.subperm_append_left _).mpr (hsub.trans (hremaining.subperm.trans ?_))
        exact List.filter_sublist.subperm
      · rw [← hperm.congr_right, List.perm_append_left_iff]
        constructor
        · intro hothersPerm
          have hnextBelow : key next < roundDown (key last) := by
            have hmem := follow_subset order hround hlimit hothers
              (hothersPerm.mem_iff.mpr List.mem_cons_self)
            exact of_decide_eq_true (List.mem_filter.mp hmem).2
          rw [hself hnextBelow] at hremaining
          refine ⟨hnextBelow, ?_⟩
          rw [map_key_eq_descending hremaining.symm hrest]
          exact hcomplete.mp (hothersPerm.trans hremaining.symm)
        · rintro ⟨hnextBelow, hclean⟩
          rw [hself hnextBelow] at hremaining
          rw [map_key_eq_descending hremaining.symm hrest] at hclean
          exact (hcomplete.mpr hclean).trans hremaining

/-- A client that starts without a cursor collects every row exactly once when the boundaries of the
pages are clean, and only then. -/
theorem follow_descending_perm (order : ℕ → OrderBy Row (Descending key))
    (hround : ∀ k, roundDown k ≤ k) (hlimit : 0 < limit) :
    (∃ fuel collected,
      follow (fetch order key roundDown limit rows) fuel 0 none = some collected ∧
        collected.Perm rows) ↔
      CleanBoundaries roundDown limit (descending (rows.map key)) := by
  constructor
  · rintro ⟨fuel, collected, hfollow, hperm⟩
    obtain ⟨_, hcomplete⟩ := follow_descending order hround hlimit hfollow
    rw [filter_below_none] at hcomplete
    exact hcomplete.mp hperm
  · intro hclean
    obtain ⟨collected, hfollow⟩ :=
      follow_terminates order hround hlimit _ 0 none (Nat.lt_succ_self (rows.filter _).length)
    obtain ⟨_, hcomplete⟩ := follow_descending order hround hlimit hfollow
    rw [filter_below_none] at hcomplete
    exact ⟨_, collected, hfollow, hcomplete.mpr hclean⟩

/-! ### Ascending order -/

/-- The order of a query that shows the smallest keys first. -/
abbrev Ascending (key : Row → Key) : Row → Row → Prop := fun first second ↦ key first ≤ key second

/-- Paging in ascending order with the rows below the cursor leaves rows out when there is more than
one page. -/
theorem follow_ascending (order : ℕ → OrderBy Row (Ascending key)) (hround : ∀ k, roundDown k ≤ k)
    (hlimit : 0 < limit) {fuel query : ℕ} {cursor : Option Key} {collected : List Row}
    (hfollow : follow (fetch order key roundDown limit rows) fuel query cursor = some collected)
    (hcomplete : collected.Perm (rows.filter (below key cursor))) :
    (rows.filter (below key cursor)).length ≤ limit ∧ collected.Pairwise (Ascending key) := by
  cases fuel with
  | zero => cases hfollow
  | succ fuel =>
    have hperm := (order query).perm (rows.filter (below key cursor))
    have hsorted := (order query).sorted (rows.filter (below key cursor))
    rcases follow_cases order rows hround hlimit fuel query cursor with
      ⟨hfits, hall⟩ | ⟨front, last, next, rest, hfound, _, _, _, hmore⟩
    · obtain rfl := Option.some.inj (hall.symm.trans hfollow)
      exact ⟨hperm.length_eq ▸ hfits, hsorted⟩
    · rw [hmore, Option.map_eq_some_iff] at hfollow
      obtain ⟨others, hothers, rfl⟩ := hfollow
      rw [hfound, List.append_cons] at hperm
      rw [hfound] at hsorted
      have hothersPerm : others.Perm (next :: rest) :=
        (List.perm_append_left_iff _).mp (hcomplete.trans hperm.symm)
      have hmem := follow_subset order hround hlimit hothers
        (hothersPerm.mem_iff.mpr List.mem_cons_self)
      -- the later pages only have rows below the last of this one, and the next row is not below it
      have hbelow : key next < roundDown (key last) := of_decide_eq_true (List.mem_filter.mp hmem).2
      have hafter : key last ≤ key next :=
        (List.pairwise_cons.mp (List.pairwise_append.mp hsorted).2.1).1 next List.mem_cons_self
      exact absurd hafter (not_le.mpr (hbelow.trans_le (hround _)))

/-- A client that starts without a cursor collects every row exactly once and in order when all rows
fit on one page, and only then. -/
theorem follow_ascending_perm (order : ℕ → OrderBy Row (Ascending key))
    (hround : ∀ k, roundDown k ≤ k) (hlimit : 0 < limit) :
    (∃ fuel collected,
      follow (fetch order key roundDown limit rows) fuel 0 none = some collected ∧
        collected.Perm rows ∧ collected.Pairwise (Ascending key)) ↔
      rows.length ≤ limit := by
  constructor
  · rintro ⟨fuel, collected, hfollow, hperm, _⟩
    rw [← filter_below_none key rows] at hperm ⊢
    exact (follow_ascending order hround hlimit hfollow hperm).1
  · intro hfits
    have hperm := (order 0).perm rows
    have hpage : fetch order key roundDown limit rows 0 none =
        some ⟨(order 0).arrange rows, none⟩ := by
      rw [fetch, filter_below_none, cutPage_of_le (hperm.length_eq ▸ hfits)]
    exact ⟨1, _, by rw [follow, hpage], hperm, (order 0).sorted rows⟩

end RallyApi.Paging

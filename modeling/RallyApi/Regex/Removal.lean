import Mathlib.Data.List.Nodup
import Mathlib.Data.List.Perm.Subperm
import RallyApi.Regex.Backtracking

/-!
# Removing matches

`text.replace(pattern, '')` with a global pattern: from left to right, a match at a place is left out,
and the search goes on after it, in the text as it was.

`not_mem_removeAll` says that no place where a match starts is kept, and `endsMatch_of_removeAll` that a
removed item before a kept one is the last of a match. What is kept can still contain a match, when what
was between its parts is gone.

Which of the matches at a place is the first depends on the order in which the matcher searches.
`keptAll` leaves that open: it lists what may be kept when any of them is left out.
-/

set_option autoImplicit false
set_option relaxedAutoImplicit false

namespace RallyApi.Regex

variable {α β : Type}

/-- The pattern matches somewhere in the text. -/
def Occurs (word : α → Bool) (pattern : Pattern α) (text : List α) : Prop :=
  ∃ before stretch after, text = before ++ (stretch ++ after) ∧
    Matches word pattern before.getLast? stretch after.head?

/-! ### Stretches of a text -/

/-- A stretch of a text is one of the items that are kept, when all of its items are. -/
theorem infix_of_sublist {stretch text kept : List β} (hnodup : text.Nodup) (hstretch : stretch <:+: text)
    (hkept : kept.Sublist text) (hmem : ∀ item ∈ stretch, item ∈ kept) : stretch <:+: kept := by
  obtain ⟨before, after, rfl⟩ := hstretch
  obtain ⟨_, keptAfter, rfl, hbefore, hafter⟩ := List.sublist_append_iff.mp hkept
  obtain ⟨keptBefore, middle, rfl, hbefore, hmiddle⟩ := List.sublist_append_iff.mp hbefore
  obtain ⟨hfirst, -, hlast⟩ := List.nodup_append'.mp hnodup
  obtain ⟨-, hstretch, hfirst⟩ := List.nodup_append'.mp hfirst
  have hsubset : stretch ⊆ middle := fun item hitem ↦ by
    obtain hitem' | hitem' := List.mem_append.mp (hmem item hitem)
    · exact (List.mem_append.mp hitem').resolve_left fun hin ↦
        hfirst (hbefore.subset hin) hitem
    · exact absurd (hafter.subset hitem') (hlast (List.mem_append_right _ hitem))
  have hlength := (hstretch.subperm hsubset).length_le
  exact ⟨keptBefore, keptAfter, by rw [hmiddle.eq_of_length_le hlength]⟩

/-- What stands before an item is the same in every way to split a text at it. -/
theorem eq_of_append_cons {before after before' after' : List β} {item : β}
    (hnodup : (before ++ item :: after).Nodup)
    (hsame : before ++ item :: after = before' ++ item :: after') : before = before' := by
  have hmem {middle rest : List β} (hsplit : item :: after = middle ++ item :: rest) :
      middle = [] := by
    cases middle with
    | nil => rfl
    | cons head middle =>
      obtain ⟨-, rfl⟩ := List.cons.inj hsplit
      exact absurd (List.nodup_append.mp hnodup).2.1 (by simp)
  obtain ⟨middle, rfl, hsplit⟩ | ⟨middle, rfl, hsplit⟩ := List.append_eq_append_iff.mp hsame
  · rw [hmem hsplit, List.append_nil]
  · cases middle with
    | nil => exact List.append_nil _
    | cons head middle =>
      obtain ⟨rfl, rfl⟩ := List.cons.inj hsplit
      exact absurd rfl ((List.nodup_append.mp hnodup).2.2 item (by simp) item List.mem_cons_self)

section Removal

variable (word : α → Bool) (view : β → α) (pattern : Pattern α)

/-- The number of items of the match that starts at a place. -/
def matchLength (last : Option β) (text : List β) : Option ℕ :=
  (run word view pattern ⟨last, text⟩).head?.map fun place ↦ text.length - place.rest.length

/-- What is kept of a text after an item, of which the first `skip` items are in a match. After a match
of nothing the search goes on one item later. -/
def removeFrom : ℕ → Option β → List β → List β
  | _, _, [] => []
  | skip + 1, _, item :: rest => removeFrom skip (some item) rest
  | 0, last, item :: rest =>
    match matchLength word view pattern last (item :: rest) with
    | some (length + 1) => removeFrom length (some item) rest
    | _ => item :: removeFrom 0 (some item) rest

/-- `text.replace(pattern, '')`. -/
def removeAll (text : List β) : List β := removeFrom word view pattern 0 none text

/-- The numbers of items of the matches that start at a place. -/
def matchLengths (last : Option β) (text : List β) : List ℕ :=
  (run word view pattern ⟨last, text⟩).map fun place ↦ text.length - place.rest.length

/-- What may be kept of a text after an item, of which the first `skip` items are in a match, when any of
the matches that start at a place is left out there. -/
def keptFrom : ℕ → Option β → List β → List (List β)
  | _, _, [] => [[]]
  | skip + 1, _, item :: rest => keptFrom skip (some item) rest
  | 0, last, item :: rest =>
    let keepingItem := (keptFrom 0 (some item) rest).map (item :: ·)
    match matchLengths word view pattern last (item :: rest) with
    | [] => keepingItem
    | lengths => lengths.flatMap fun length ↦
        match length with
        | 0 => keepingItem
        | length + 1 => keptFrom length (some item) rest

/-- What may be kept of a text. -/
def keptAll (text : List β) : List (List β) := keptFrom word view pattern 0 none text

/-- At a place where no item is in a match: a match starts there and its first item is left out, or the
item is kept. -/
theorem removeFrom_zero_cons (last : Option β) (item : β) (rest : List β) :
    (∃ length, matchLength word view pattern last (item :: rest) = some (length + 1) ∧
      removeFrom word view pattern 0 last (item :: rest) =
        removeFrom word view pattern length (some item) rest) ∨
    (∀ length, matchLength word view pattern last (item :: rest) ≠ some (length + 1)) ∧
      removeFrom word view pattern 0 last (item :: rest) =
        item :: removeFrom word view pattern 0 (some item) rest := by
  rw [removeFrom]
  cases hlength : matchLength word view pattern last (item :: rest) with
  | none => exact .inr ⟨by simp, rfl⟩
  | some length =>
    cases length with
    | zero => exact .inr ⟨by simp, rfl⟩
    | succ length => exact .inl ⟨length, rfl, rfl⟩

variable {word view pattern}

theorem removeFrom_sublist (skip : ℕ) (last : Option β) (text : List β) :
    (removeFrom word view pattern skip last text).Sublist text := by
  induction text generalizing skip last with
  | nil => exact List.nil_sublist _
  | cons item rest ih =>
    cases skip with
    | succ skip => exact (ih skip (some item)).cons item
    | zero =>
      obtain ⟨length, -, hremove⟩ | ⟨-, hremove⟩ :=
        removeFrom_zero_cons word view pattern last item rest
      · exact hremove ▸ (ih length (some item)).cons item
      · exact hremove ▸ (ih 0 (some item)).cons_cons item

theorem removeAll_sublist (text : List β) : (removeAll word view pattern text).Sublist text :=
  removeFrom_sublist 0 none text

/-- What is kept when the first match at each place is left out is one of the things that may be. -/
theorem removeFrom_mem_keptFrom (skip : ℕ) (last : Option β) (text : List β) :
    removeFrom word view pattern skip last text ∈ keptFrom word view pattern skip last text := by
  induction text generalizing skip last with
  | nil => exact List.mem_singleton_self _
  | cons item rest ih =>
    cases skip with
    | succ skip => exact ih skip (some item)
    | zero =>
      have hfirst : matchLength word view pattern last (item :: rest) =
          (matchLengths word view pattern last (item :: rest)).head? := List.head?_map.symm
      have hkeeping : item :: removeFrom word view pattern 0 (some item) rest ∈
          (keptFrom word view pattern 0 (some item) rest).map (item :: ·) :=
        List.mem_map_of_mem (ih 0 (some item))
      rw [removeFrom, keptFrom, hfirst]
      cases matchLengths word view pattern last (item :: rest) with
      | nil => exact hkeeping
      | cons length lengths =>
        refine List.mem_flatMap.mpr ⟨length, List.mem_cons_self, ?_⟩
        cases length with
        | zero => exact hkeeping
        | succ length => exact ih length (some item)

theorem removeAll_mem_keptAll (text : List β) :
    removeAll word view pattern text ∈ keptAll word view pattern text :=
  removeFrom_mem_keptFrom 0 none text

/-- A text without a match is kept. -/
theorem removeFrom_eq_self {last : Option β} {text : List β}
    (hnone : ∀ before stretch after, text = before ++ (stretch ++ after) →
      ¬ Matches word pattern ((before.getLast?.or last).map view) (stretch.map view)
        (after.head?.map view)) : removeFrom word view pattern 0 last text = text := by
  induction text generalizing last with
  | nil => rfl
  | cons item rest ih =>
    have hrun : run word view pattern ⟨last, item :: rest⟩ = [] := by
      refine List.eq_nil_iff_forall_not_mem.mpr fun place hplace ↦ ?_
      obtain ⟨stretch, after, htext, -, hmatch⟩ := (mem_run_iff word view).mp hplace
      exact hnone [] stretch after htext hmatch
    obtain ⟨length, hlength, -⟩ | ⟨-, hremove⟩ :=
      removeFrom_zero_cons word view pattern last item rest
    · rw [matchLength, hrun] at hlength
      cases hlength
    · rw [hremove, ih fun before stretch after hrest hmatch ↦ ?_]
      refine hnone (item :: before) stretch after (congrArg (item :: ·) hrest) ?_
      rwa [getLast?_cons_or]

/-- The first match at a place, by its length. -/
theorem exists_of_matchLength {last : Option β} {text : List β} {length : ℕ}
    (hlength : matchLength word view pattern last text = some length) :
    ∃ stretch after, text = stretch ++ after ∧ stretch.length = length ∧
      (run word view pattern ⟨last, text⟩).head? = some ⟨stretch.getLast?.or last, after⟩ ∧
      Matches word pattern (last.map view) (stretch.map view) (after.head?.map view) := by
  obtain ⟨place, hplace, hdifference⟩ := Option.map_eq_some_iff.mp hlength
  obtain ⟨stretch, after, rfl, rfl, hmatch⟩ :=
    (mem_run_iff word view).mp (List.mem_of_mem_head? hplace)
  refine ⟨stretch, after, rfl, ?_, hplace, hmatch⟩
  rw [← hdifference, List.length_append, Nat.add_sub_cancel]

theorem of_matchLength {last : Option β} {stretch after : List β}
    (hlength : matchLength word view pattern last (stretch ++ after) = some stretch.length) :
    (run word view pattern ⟨last, stretch ++ after⟩).head? = some ⟨stretch.getLast?.or last, after⟩ ∧
      Matches word pattern (last.map view) (stretch.map view) (after.head?.map view) := by
  obtain ⟨found, rest, htext, hfound, hhead, hmatch⟩ := exists_of_matchLength hlength
  obtain ⟨rfl, rfl⟩ := List.append_inj htext hfound.symm
  exact ⟨hhead, hmatch⟩

theorem matchLength_of_matches (hconsuming : pattern.consuming = true) {last : Option β}
    {stretch after : List β} (hmatch : Matches word pattern (last.map view) (stretch.map view)
      (after.head?.map view)) :
    ∃ length, matchLength word view pattern last (stretch ++ after) = some (length + 1) := by
  have hplace := (mem_run_iff word view).mpr ⟨stretch, after, rfl, rfl, hmatch⟩
  obtain ⟨place, rest, hrun⟩ := List.exists_cons_of_ne_nil (List.ne_nil_of_mem hplace)
  have hlength : matchLength word view pattern last (stretch ++ after) =
      some ((stretch ++ after).length - place.rest.length) := by
    rw [matchLength, hrun]
    rfl
  obtain ⟨found, _, -, hfound, -, hmatches⟩ := exists_of_matchLength hlength
  obtain ⟨length, hsucc⟩ := Nat.exists_eq_succ_of_ne_zero (n := found.length) fun hzero ↦
    hmatches.ne_nil word hconsuming (by rw [List.length_eq_zero_iff.mp hzero, List.map_nil])
  exact ⟨length, by rw [hlength, ← hfound, hsucc]⟩

/-- The item a match starts at is left out. -/
theorem not_mem_removeFrom {before stretch after : List β} {item : β}
    (hnodup : (before ++ (item :: stretch ++ after)).Nodup) (hconsuming : pattern.consuming = true)
    {last : Option β} (hmatch : Matches word pattern ((before.getLast?.or last).map view)
      ((item :: stretch).map view) (after.head?.map view)) (skip : ℕ) :
    item ∉ removeFrom word view pattern skip last (before ++ (item :: stretch ++ after)) := by
  induction before generalizing last skip with
  | nil =>
    have hrest (skip : ℕ) :
        item ∉ removeFrom word view pattern skip (some item) (stretch ++ after) := fun hmem ↦
      (List.nodup_cons.mp hnodup).1 ((removeFrom_sublist skip (some item) _).subset hmem)
    cases skip with
    | succ skip => exact hrest skip
    | zero =>
      obtain ⟨length, hlength⟩ := matchLength_of_matches hconsuming hmatch
      obtain ⟨_, -, hremove⟩ | ⟨hnone, -⟩ :=
        removeFrom_zero_cons word view pattern last item (stretch ++ after)
      · exact fun hmem ↦ hrest _ (hremove ▸ hmem)
      · exact absurd hlength (hnone length)
  | cons head before ih =>
    obtain ⟨hhead, htail⟩ := List.nodup_cons.mp hnodup
    have hne : item ≠ head := by
      rintro rfl
      exact hhead (by simp)
    rw [getLast?_cons_or] at hmatch
    cases skip with
    | succ skip => exact ih htail hmatch skip
    | zero =>
      obtain ⟨length, -, hremove⟩ | ⟨-, hremove⟩ :=
        removeFrom_zero_cons word view pattern last head
          (before ++ (item :: stretch ++ after))
      · exact fun hmem ↦ ih htail hmatch length (hremove ▸ hmem)
      · intro hmem
        rw [List.cons_append, hremove] at hmem
        exact (List.mem_cons.mp hmem).elim hne (ih htail hmatch 0)

/-- A match that ends at a place: the items after `start` are the first match there. -/
def EndsMatch (word : α → Bool) (view : β → α) (pattern : Pattern α) (last : Option β)
    (upto rest : List β) : Prop :=
  ∃ start stretch, upto = start ++ stretch ∧ stretch ≠ [] ∧
    (run word view pattern ⟨start.getLast?.or last, stretch ++ rest⟩).head? =
      some ⟨stretch.getLast?.or (start.getLast?.or last), rest⟩ ∧
    Matches word pattern ((start.getLast?.or last).map view) (stretch.map view) (rest.head?.map view)

theorem EndsMatch.cons {last : Option β} {head : β} {upto rest : List β}
    (hends : EndsMatch word view pattern (some head) upto rest) :
    EndsMatch word view pattern last (head :: upto) rest := by
  obtain ⟨start, stretch, rfl, hne, hmatch⟩ := hends
  refine ⟨head :: start, stretch, rfl, hne, ?_⟩
  rwa [getLast?_cons_or]

/-- An item that is left out before one that is kept ends a match, unless it is the last one of the
match at the start. -/
theorem endsMatch_of_removeFrom {before after : List β} {item next : β}
    (hnodup : (before ++ item :: next :: after).Nodup) {last : Option β} {skip : ℕ}
    (hitem : item ∉ removeFrom word view pattern skip last (before ++ item :: next :: after))
    (hnext : next ∈ removeFrom word view pattern skip last (before ++ item :: next :: after)) :
    skip = before.length + 1 ∨
      EndsMatch word view pattern last (before ++ [item]) (next :: after) := by
  induction before generalizing last skip with
  | nil =>
    -- The item after the one left out is kept, so that no match goes on there.
    have hends {skip : ℕ} (hmem : next ∈ removeFrom word view pattern skip (some item)
        (next :: after)) : skip = 0 := by
      cases skip with
      | zero => rfl
      | succ skip =>
        exact absurd ((removeFrom_sublist skip (some next) after).subset hmem)
          (List.nodup_cons.mp (List.nodup_cons.mp hnodup).2).1
    cases skip with
    | succ skip => exact .inl (congrArg Nat.succ (hends hnext))
    | zero =>
      obtain ⟨length, hlength, hremove⟩ | ⟨-, hremove⟩ :=
        removeFrom_zero_cons word view pattern last item
          (next :: after)
      · obtain rfl := hends (hremove ▸ hnext)
        exact .inr ⟨[], [item], rfl, List.cons_ne_nil _ _, of_matchLength hlength⟩
      · exact absurd (hremove ▸ List.mem_cons_self) hitem
  | cons head before ih =>
    obtain ⟨hhead, htail⟩ := List.nodup_cons.mp hnodup
    cases skip with
    | succ skip =>
      exact (ih htail hitem hnext).imp (congrArg Nat.succ) EndsMatch.cons
    | zero =>
      obtain ⟨length, hlength, hremove⟩ | ⟨-, hremove⟩ :=
        removeFrom_zero_cons word view pattern last head
          (before ++ item :: next :: after)
      · rw [List.cons_append, hremove] at hitem hnext
        refine .inr ?_
        obtain rfl | hends := ih htail hitem hnext
        · refine ⟨[], head :: before ++ [item], rfl, List.cons_ne_nil _ _, of_matchLength ?_⟩
          rw [List.append_assoc]
          refine hlength.trans (congrArg some ?_)
          simp
        · exact hends.cons
      · rw [List.cons_append, hremove] at hitem hnext
        have hne : next ≠ head := by
          rintro rfl
          exact hhead (by simp)
        have hmem := (List.mem_cons.mp hnext).resolve_left hne
        obtain hzero | hends := ih htail (fun hmem ↦ hitem (List.mem_cons_of_mem _ hmem)) hmem
        · exact nomatch hzero
        · exact .inr hends.cons

/-! ### Texts seen through their characters -/

/-- A place, with the characters of its items. -/
def Place.map (view : β → α) (place : Place β) : Place α := ⟨place.last.map view, place.rest.map view⟩

variable (word view pattern)

theorem runMany_map (chars : α → Bool) (last : Option β) (text : List β) :
    (runMany view chars last text).map (Place.map view) =
      runMany id chars (last.map view) (text.map view) := by
  induction text generalizing last with
  | nil => rfl
  | cons item rest ih =>
    rw [List.map_cons, runMany, runMany, id]
    split_ifs with hitem
    · rw [List.map_append, ih]
      rfl
    · rfl

/-- The matcher only looks at the characters. -/
theorem run_map (place : Place β) :
    (run word view pattern place).map (Place.map view) = run word id pattern (place.map view) := by
  induction pattern generalizing place with
  | empty => rfl
  | set chars =>
    obtain ⟨last, text⟩ := place
    cases text with
    | nil => rfl
    | cons item rest =>
      change List.map _ (if chars (view item) = true then _ else _) =
        if chars (view item) = true then _ else _
      split_ifs <;> rfl
  | boundary =>
    have hhead : (place.map view).rest.head? = place.rest.head?.map view := List.head?_map
    simp only [run, hhead, Option.map_id, id]
    split_ifs <;> first | rfl | contradiction
  | seq first second ihfirst ihsecond =>
    rw [run, run, List.map_flatMap, ← ihfirst, List.flatMap_map]
    simp only [ihsecond]
  | alt first second ihfirst ihsecond => rw [run, run, List.map_append, ihfirst, ihsecond]
  | many chars => exact runMany_map view chars place.last place.rest
  | manyLazy chars =>
    rw [run, run, List.map_reverse]
    exact congrArg List.reverse (runMany_map view chars place.last place.rest)

theorem matchLength_map (last : Option β) (text : List β) :
    matchLength word id pattern (last.map view) (text.map view) =
      matchLength word view pattern last text := by
  have hrun := run_map word view pattern ⟨last, text⟩
  change _ = run word id pattern ⟨last.map view, text.map view⟩ at hrun
  rw [matchLength, ← hrun, List.head?_map, Option.map_map, matchLength]
  refine congrArg (Option.map · _) (funext fun place ↦ ?_)
  simp [Place.map]

/-- Removing looks at the characters only. -/
theorem removeFrom_map (skip : ℕ) (last : Option β) (text : List β) :
    (removeFrom word view pattern skip last text).map view =
      removeFrom word id pattern skip (last.map view) (text.map view) := by
  induction text generalizing skip last with
  | nil => rfl
  | cons item rest ih =>
    cases skip with
    | succ skip => exact ih skip (some item)
    | zero =>
      have hlengths := matchLength_map word view pattern last (item :: rest)
      obtain ⟨length, hlength, hremove⟩ | ⟨hnone, hremove⟩ :=
        removeFrom_zero_cons word view pattern last item rest
      · rw [hremove, ih, List.map_cons, removeFrom, ← List.map_cons, hlengths, hlength]
        rfl
      · rw [hremove, List.map_cons, ih, List.map_cons, removeFrom, ← List.map_cons, hlengths]
        split
        · rename_i length hlength
          exact absurd hlength (hnone length)
        · rfl

/-! ### Removing from a whole text -/

theorem removeAll_map (text : List β) :
    (removeAll word view pattern text).map view = removeAll word id pattern (text.map view) :=
  removeFrom_map word view pattern 0 none text

variable {word view pattern}

/-- A text in which the pattern does not occur is kept. -/
theorem removeAll_eq_self {text : List α} (hnone : ¬ Occurs word pattern text) :
    removeAll word id pattern text = text := by
  refine removeFrom_eq_self fun before stretch after htext hmatch ↦ hnone ?_
  refine ⟨before, stretch, after, htext, ?_⟩
  simpa using hmatch

/-- No place where a match starts is kept. -/
theorem not_mem_removeAll {before stretch after : List β} {item : β}
    (hnodup : (before ++ (item :: stretch ++ after)).Nodup) (hconsuming : pattern.consuming = true)
    (hmatch : Matches word pattern (before.getLast?.map view) ((item :: stretch).map view)
      (after.head?.map view)) :
    item ∉ removeAll word view pattern (before ++ (item :: stretch ++ after)) := by
  refine not_mem_removeFrom hnodup hconsuming ?_ 0
  rwa [Option.or_none]

/-- An item that is left out before one that is kept ends a match. -/
theorem endsMatch_of_removeAll {before after : List β} {item next : β}
    (hnodup : (before ++ item :: next :: after).Nodup)
    (hitem : item ∉ removeAll word view pattern (before ++ item :: next :: after))
    (hnext : next ∈ removeAll word view pattern (before ++ item :: next :: after)) :
    EndsMatch word view pattern none (before ++ [item]) (next :: after) :=
  (endsMatch_of_removeFrom hnodup hitem hnext).resolve_left (Nat.succ_ne_zero _).symm

end Removal

end RallyApi.Regex

import Mathlib.Data.List.Basic
import Mathlib.Data.Nat.Notation

/-!
# Backtracking matchers

Regular expressions as a backtracking matcher reads them: `run` lists the places where a match can end
in the order in which the matcher tries them, so that the first of them is the match. Repetition is of
sets of characters, greedy or lazy, and `\b` looks at the characters on both sides of a place.

The items of a text may carry more than a character; `view` reads the character of an item.

`mem_run_iff` says which matches there are, without their order: `Matches` relates a pattern to a
stretch of text and to the characters before and after it.
-/

set_option autoImplicit false
set_option relaxedAutoImplicit false

namespace RallyApi.Regex

variable {α β : Type}

/-- A regular expression over characters. -/
inductive Pattern (α : Type)
  | empty
  | set (chars : α → Bool)
  | boundary
  | seq (first second : Pattern α)
  | alt (first second : Pattern α)
  | many (chars : α → Bool)
  | manyLazy (chars : α → Bool)

/-- A place in a text: the item before it and the items after it. -/
structure Place (β : Type) where
  last : Option β
  rest : List β

/-! ### The matches of a pattern -/

section Matches

variable (word : α → Bool)

/-- A pattern matches a stretch of text between two characters, of which a boundary sees whether they
are part of a word. -/
def Matches : Pattern α → Option α → List α → Option α → Prop
  | .empty, _, stretch, _ => stretch = []
  | .set chars, _, stretch, _ => ∃ char, stretch = [char] ∧ chars char = true
  | .boundary, last, stretch, next => stretch = [] ∧ last.any word ≠ next.any word
  | .seq first second, last, stretch, next => ∃ before after, stretch = before ++ after ∧
      Matches first last before (after.head?.or next) ∧
      Matches second (before.getLast?.or last) after next
  | .alt first second, last, stretch, next =>
    Matches first last stretch next ∨ Matches second last stretch next
  | .many chars, _, stretch, _ | .manyLazy chars, _, stretch, _ => ∀ char ∈ stretch, chars char = true

/-- What stands before a match only counts as part of a word or not. -/
theorem Matches.of_last {pattern : Pattern α} {last other next : Option α} {stretch : List α}
    (hsame : last.any word = other.any word) (hmatch : Matches word pattern last stretch next) :
    Matches word pattern other stretch next := by
  induction pattern generalizing last other stretch next with
  | empty | set | many | manyLazy => exact hmatch
  | boundary => exact ⟨hmatch.1, hsame ▸ hmatch.2⟩
  | alt first second ihfirst ihsecond =>
    exact hmatch.imp (ihfirst hsame) (ihsecond hsame)
  | seq first second ihfirst ihsecond =>
    obtain ⟨before, after, hstretch, hfirst, hsecond⟩ := hmatch
    refine ⟨before, after, hstretch, ihfirst hsame hfirst, ihsecond ?_ hsecond⟩
    cases before.getLast? with
    | none => exact hsame
    | some char => rfl

/-- The pattern matches no empty stretch. -/
def Pattern.consuming : Pattern α → Bool
  | .set _ => true
  | .seq first second => first.consuming || second.consuming
  | .alt first second => first.consuming && second.consuming
  | _ => false

/-- What follows a match of the pattern does not matter. -/
def Pattern.closed : Pattern α → Bool
  | .boundary => false
  | .seq first second => second.closed && (first.closed || second.consuming)
  | .alt first second => first.closed && second.closed
  | _ => true

/-- What precedes a match of the pattern does not matter. -/
def Pattern.opened : Pattern α → Bool
  | .boundary => false
  | .seq first second => first.opened && (second.opened || first.consuming)
  | .alt first second => first.opened && second.opened
  | _ => true

theorem Matches.ne_nil {pattern : Pattern α} {last next : Option α} {stretch : List α}
    (hconsuming : pattern.consuming = true) (hmatch : Matches word pattern last stretch next) :
    stretch ≠ [] := by
  induction pattern generalizing last stretch next with
  | empty | boundary | many | manyLazy => exact nomatch hconsuming
  | set chars =>
    obtain ⟨char, rfl, -⟩ := hmatch
    exact List.cons_ne_nil _ _
  | alt first second ihfirst ihsecond =>
    obtain ⟨hfirst, hsecond⟩ := Bool.and_eq_true_iff.mp hconsuming
    exact hmatch.elim (ihfirst hfirst) (ihsecond hsecond)
  | seq first second ihfirst ihsecond =>
    obtain ⟨before, after, rfl, hbefore, hafter⟩ := hmatch
    intro hnil
    obtain ⟨rfl, rfl⟩ := List.append_eq_nil_iff.mp hnil
    obtain hfirst | hsecond := Bool.or_eq_true_iff.mp hconsuming
    · exact ihfirst hfirst hbefore rfl
    · exact ihsecond hsecond hafter rfl

theorem Matches.of_next {pattern : Pattern α} {last next other : Option α} {stretch : List α}
    (hclosed : pattern.closed = true) (hmatch : Matches word pattern last stretch next) :
    Matches word pattern last stretch other := by
  induction pattern generalizing last stretch next other with
  | empty | set | many | manyLazy => exact hmatch
  | boundary => exact nomatch hclosed
  | alt first second ihfirst ihsecond =>
    obtain ⟨hfirst, hsecond⟩ := Bool.and_eq_true_iff.mp hclosed
    exact hmatch.imp (ihfirst hfirst) (ihsecond hsecond)
  | seq first second ihfirst ihsecond =>
    obtain ⟨hsecond, heither⟩ := Bool.and_eq_true_iff.mp hclosed
    obtain ⟨before, after, hstretch, hbefore, hafter⟩ := hmatch
    refine ⟨before, after, hstretch, ?_, ihsecond hsecond hafter⟩
    obtain hfirst | hconsuming := Bool.or_eq_true_iff.mp heither
    · exact ihfirst hfirst hbefore
    · obtain ⟨char, rest, rfl⟩ := List.exists_cons_of_ne_nil (hafter.ne_nil word hconsuming)
      exact hbefore

theorem Matches.of_opened {pattern : Pattern α} {last other next : Option α} {stretch : List α}
    (hopened : pattern.opened = true) (hmatch : Matches word pattern last stretch next) :
    Matches word pattern other stretch next := by
  induction pattern generalizing last other stretch next with
  | empty | set | many | manyLazy => exact hmatch
  | boundary => exact nomatch hopened
  | alt first second ihfirst ihsecond =>
    obtain ⟨hfirst, hsecond⟩ := Bool.and_eq_true_iff.mp hopened
    exact hmatch.imp (ihfirst hfirst) (ihsecond hsecond)
  | seq first second ihfirst ihsecond =>
    obtain ⟨hfirst, heither⟩ := Bool.and_eq_true_iff.mp hopened
    obtain ⟨before, after, hstretch, hbefore, hafter⟩ := hmatch
    refine ⟨before, after, hstretch, ihfirst hfirst hbefore, ?_⟩
    obtain hsecond | hconsuming := Bool.or_eq_true_iff.mp heither
    · exact ihsecond hsecond hafter
    · cases hlast : before.getLast? with
      | none =>
        exact absurd (List.getLast?_eq_none_iff.mp hlast) (hbefore.ne_nil word hconsuming)
      | some char => rwa [hlast] at hafter

/-- The set of the first character, for a pattern that begins with one. -/
def Pattern.initial : Pattern α → Option (α → Bool)
  | .set chars => some chars
  | .seq .boundary second => second.initial
  | .seq first _ => first.initial
  | _ => none

/-- The set of the last character, for a pattern that ends with one. -/
def Pattern.final : Pattern α → Option (α → Bool)
  | .set chars => some chars
  | .seq _ second => second.final
  | _ => none

/-- The set a pattern repeats at its end, as often as it can. -/
def Pattern.trailing : Pattern α → Option (α → Bool)
  | .many chars => some chars
  | .seq _ second => second.trailing
  | _ => none

theorem Matches.head_mem {pattern : Pattern α} {chars : α → Bool} {last next : Option α}
    {stretch : List α} (hinitial : pattern.initial = some chars)
    (hmatch : Matches word pattern last stretch next) :
    ∃ char, stretch.head? = some char ∧ chars char = true := by
  induction pattern generalizing last stretch next with
  | empty | boundary | alt | many | manyLazy => exact nomatch hinitial
  | set set =>
    obtain ⟨char, rfl, hchar⟩ := hmatch
    exact ⟨char, rfl, Option.some.inj hinitial ▸ hchar⟩
  | seq first second ihfirst ihsecond =>
    obtain ⟨before, after, rfl, hfirst, hsecond⟩ := hmatch
    cases first with
    | boundary =>
      obtain ⟨rfl, -⟩ := hfirst
      exact ihsecond hinitial hsecond
    | empty | alt | many | manyLazy => exact nomatch hinitial
    | set | seq =>
      obtain ⟨char, hhead, hchar⟩ := ihfirst hinitial hfirst
      exact ⟨char, by rw [List.head?_append, hhead, Option.some_or], hchar⟩

theorem Matches.getLast_mem {pattern : Pattern α} {chars : α → Bool} {last next : Option α}
    {stretch : List α} (hfinal : pattern.final = some chars)
    (hmatch : Matches word pattern last stretch next) :
    ∃ char, stretch.getLast? = some char ∧ chars char = true := by
  induction pattern generalizing last stretch next with
  | empty | boundary | alt | many | manyLazy => exact nomatch hfinal
  | set set =>
    obtain ⟨char, rfl, hchar⟩ := hmatch
    exact ⟨char, rfl, Option.some.inj hfinal ▸ hchar⟩
  | seq first second ihfirst ihsecond =>
    obtain ⟨before, after, rfl, -, hsecond⟩ := hmatch
    obtain ⟨char, hlast, hchar⟩ := ihsecond hfinal hsecond
    exact ⟨char, by rw [List.getLast?_append, hlast, Option.some_or], hchar⟩

end Matches

/-! ### The matcher -/

section Run

variable (word : α → Bool) (view : β → α)

/-- The places after any number of items of a set, the last one first. -/
def runMany (chars : α → Bool) : Option β → List β → List (Place β)
  | last, [] => [⟨last, []⟩]
  | last, item :: rest =>
    if chars (view item) then runMany chars (some item) rest ++ [⟨last, item :: rest⟩]
    else [⟨last, item :: rest⟩]

/-- The places where a match that starts at a place can end, in the order in which they are tried. -/
def run : Pattern α → Place β → List (Place β)
  | .empty, place => [place]
  | .set _, ⟨_, []⟩ => []
  | .set chars, ⟨_, item :: rest⟩ => if chars (view item) then [⟨some item, rest⟩] else []
  | .boundary, place =>
    if (place.last.map view).any word = (place.rest.head?.map view).any word then [] else [place]
  | .seq first second, place => (run first place).flatMap (run second)
  | .alt first second, place => run first place ++ run second place
  | .many chars, place => runMany view chars place.last place.rest
  | .manyLazy chars, place => (runMany view chars place.last place.rest).reverse

theorem getLast?_cons_or (item : β) (stretch : List β) (last : Option β) :
    (item :: stretch).getLast?.or last = stretch.getLast?.or (some item) := by
  rw [List.getLast?_cons]
  cases stretch.getLast? <;> rfl

theorem mem_runMany_iff {chars : α → Bool} {last : Option β} {text : List β} {place : Place β} :
    place ∈ runMany view chars last text ↔ ∃ stretch after, text = stretch ++ after ∧
      place = ⟨stretch.getLast?.or last, after⟩ ∧ ∀ item ∈ stretch, chars (view item) = true := by
  induction text generalizing last with
  | nil =>
    rw [runMany, List.mem_singleton]
    constructor
    · rintro rfl
      exact ⟨[], [], rfl, rfl, by simp⟩
    · rintro ⟨stretch, after, hnil, rfl, -⟩
      obtain ⟨rfl, rfl⟩ := List.append_eq_nil_iff.mp hnil.symm
      rfl
  | cons item rest ih =>
    have hsplit : (∃ stretch after, item :: rest = stretch ++ after ∧
        place = ⟨stretch.getLast?.or last, after⟩ ∧ ∀ item ∈ stretch, chars (view item) = true) ↔
        (chars (view item) = true ∧ ∃ stretch after, rest = stretch ++ after ∧
          place = ⟨stretch.getLast?.or (some item), after⟩ ∧
            ∀ item ∈ stretch, chars (view item) = true) ∨ place = ⟨last, item :: rest⟩ := by
      constructor
      · rintro ⟨stretch, after, htext, rfl, hchars⟩
        cases stretch with
        | nil => exact .inr (htext ▸ rfl)
        | cons head tail =>
          obtain ⟨rfl, rfl⟩ := List.cons.inj htext
          obtain ⟨hitem, htail⟩ := List.forall_mem_cons.mp hchars
          exact .inl ⟨hitem, tail, after, rfl, by rw [getLast?_cons_or], htail⟩
      · rintro (⟨hitem, stretch, after, rfl, rfl, hchars⟩ | rfl)
        · exact ⟨item :: stretch, after, rfl, by rw [getLast?_cons_or],
            List.forall_mem_cons.mpr ⟨hitem, hchars⟩⟩
        · exact ⟨[], item :: rest, rfl, rfl, by simp⟩
    rw [hsplit, runMany]
    by_cases hitem : chars (view item) = true
    · rw [if_pos hitem, List.mem_append, List.mem_singleton, ih]
      simp only [hitem, true_and]
    · rw [if_neg hitem, List.mem_singleton]
      simp only [hitem, Bool.false_eq_true, false_and, false_or]

theorem mem_run_set_iff {chars : α → Bool} {last : Option β} {text : List β} {place : Place β} :
    place ∈ run word view (.set chars) ⟨last, text⟩ ↔ ∃ item after, text = item :: after ∧
      place = ⟨some item, after⟩ ∧ chars (view item) = true := by
  cases text with
  | nil => exact iff_of_false List.not_mem_nil (by simp)
  | cons head rest =>
    rw [run]
    by_cases hhead : chars (view head) = true
    · rw [if_pos hhead, List.mem_singleton]
      constructor
      · rintro rfl
        exact ⟨head, rest, rfl, rfl, hhead⟩
      · rintro ⟨item, after, htext, rfl, -⟩
        obtain ⟨rfl, rfl⟩ := List.cons.inj htext
        rfl
    · rw [if_neg hhead]
      refine iff_of_false List.not_mem_nil ?_
      rintro ⟨item, after, htext, -, hitem⟩
      exact hhead ((List.cons.inj htext).1 ▸ hitem)

theorem mem_run_boundary_iff {start place : Place β} :
    place ∈ run word view .boundary start ↔ place = start ∧
      (start.last.map view).any word ≠ (start.rest.head?.map view).any word := by
  rw [run]
  by_cases hsame : (start.last.map view).any word = (start.rest.head?.map view).any word
  · rw [if_pos hsame]
    exact iff_of_false List.not_mem_nil fun hboundary ↦ hboundary.2 hsame
  · rw [if_neg hsame, List.mem_singleton]
    exact (and_iff_left hsame).symm

/-- A match ends at a place when the pattern matches the stretch up to it. -/
theorem mem_run_iff {pattern : Pattern α} {last : Option β} {text : List β} {place : Place β} :
    place ∈ run word view pattern ⟨last, text⟩ ↔ ∃ stretch after, text = stretch ++ after ∧
      place = ⟨stretch.getLast?.or last, after⟩ ∧
      Matches word pattern (last.map view) (stretch.map view) (after.head?.map view) := by
  induction pattern generalizing last text place with
  | empty =>
    rw [run, List.mem_singleton]
    constructor
    · rintro rfl
      exact ⟨[], text, rfl, rfl, rfl⟩
    · rintro ⟨stretch, after, rfl, rfl, hempty⟩
      obtain rfl := List.map_eq_nil_iff.mp hempty
      rfl
  | set chars =>
    rw [mem_run_set_iff]
    constructor
    · rintro ⟨item, after, rfl, rfl, hchars⟩
      exact ⟨[item], after, rfl, rfl, view item, rfl, hchars⟩
    · rintro ⟨stretch, after, rfl, rfl, char, hchar, hchars⟩
      obtain ⟨item, rfl, rfl⟩ := List.map_eq_singleton_iff.mp hchar
      exact ⟨item, after, rfl, rfl, hchars⟩
  | boundary =>
    rw [mem_run_boundary_iff]
    constructor
    · rintro ⟨rfl, hdiffer⟩
      exact ⟨[], text, rfl, rfl, rfl, hdiffer⟩
    · rintro ⟨stretch, after, rfl, rfl, hempty, hdiffer⟩
      obtain rfl := List.map_eq_nil_iff.mp hempty
      exact ⟨rfl, hdiffer⟩
  | seq first second ihfirst ihsecond =>
    simp only [run, List.mem_flatMap]
    constructor
    · rintro ⟨middle, hmiddle, hplace⟩
      obtain ⟨before, rest, rfl, rfl, hfirst⟩ := ihfirst.mp hmiddle
      obtain ⟨after, remaining, rfl, rfl, hsecond⟩ := ihsecond.mp hplace
      refine ⟨before ++ after, remaining, (List.append_assoc ..).symm, ?_, before.map view,
        after.map view, List.map_append, ?_, ?_⟩
      · rw [List.getLast?_append, Option.or_assoc]
      · rwa [List.head?_map, ← Option.map_or, ← List.head?_append]
      · rwa [List.getLast?_map, ← Option.map_or]
    · rintro ⟨stretch, remaining, rfl, rfl, _, _, hstretch, hfirst, hsecond⟩
      obtain ⟨before, after, rfl, rfl, rfl⟩ := List.map_eq_append_iff.mp hstretch
      refine ⟨⟨before.getLast?.or last, after ++ remaining⟩, ihfirst.mpr ⟨before, after ++ remaining,
        List.append_assoc .., rfl, ?_⟩, ihsecond.mpr ⟨after, remaining, rfl, ?_, ?_⟩⟩
      · rwa [List.head?_append, Option.map_or, ← List.head?_map]
      · rw [List.getLast?_append, Option.or_assoc]
      · rwa [Option.map_or, ← List.getLast?_map]
  | alt first second ihfirst ihsecond =>
    rw [run, List.mem_append, ihfirst, ihsecond]
    constructor
    · rintro (⟨stretch, after, htext, hplace, hfirst⟩ | ⟨stretch, after, htext, hplace, hsecond⟩)
      · exact ⟨stretch, after, htext, hplace, .inl hfirst⟩
      · exact ⟨stretch, after, htext, hplace, .inr hsecond⟩
    · rintro ⟨stretch, after, htext, hplace, hfirst | hsecond⟩
      · exact .inl ⟨stretch, after, htext, hplace, hfirst⟩
      · exact .inr ⟨stretch, after, htext, hplace, hsecond⟩
  | many chars =>
    rw [run, mem_runMany_iff]
    simp only [Matches, List.forall_mem_map]
  | manyLazy chars =>
    rw [run, List.mem_reverse, mem_runMany_iff]
    simp only [Matches, List.forall_mem_map]

theorem head?_runMany (chars : α → Bool) (last : Option β) (text : List β) :
    ((runMany view chars last text).head?.map Place.rest) =
      some (text.dropWhile fun item ↦ chars (view item)) := by
  induction text generalizing last with
  | nil => rfl
  | cons item rest ih =>
    by_cases hitem : chars (view item) = true
    · have hhead := ih (some item)
      rw [runMany, if_pos hitem, List.dropWhile_cons, if_pos hitem, List.head?_append, Option.map_or,
        hhead, Option.some_or]
    · rw [runMany, if_neg hitem, List.dropWhile_cons, if_neg hitem]
      rfl

/-- A pattern that ends with a greedy repetition leaves nothing after its first match that it could
repeat. -/
theorem rest_of_trailing {pattern : Pattern α} {chars : α → Bool}
    (htrailing : pattern.trailing = some chars) {start place : Place β}
    (hfirst : (run word view pattern start).head? = some place) {item : β}
    (hitem : item ∈ place.rest.head?) : chars (view item) = false := by
  induction pattern generalizing start with
  | empty | set | boundary | alt | manyLazy => exact nomatch htrailing
  | seq first second ihfirst ihsecond =>
    rw [run, List.head?_flatMap] at hfirst
    obtain ⟨middle, -, hplace⟩ := List.exists_of_findSome?_eq_some hfirst
    exact ihsecond htrailing hplace
  | many set =>
    obtain rfl := Option.some.inj htrailing
    have hrest := head?_runMany view set start.last start.rest
    change (runMany view set start.last start.rest).head? = some place at hfirst
    rw [hfirst, Option.map_some, Option.some.injEq] at hrest
    rw [hrest] at hitem
    have hnot := List.head?_dropWhile_not (fun item ↦ set (view item)) start.rest
    rw [Option.mem_def.mp hitem] at hnot
    exact hnot

end Run

end RallyApi.Regex

import RallyApi.Sanitizing.Sanitize

/-!
# What sanitising leaves

`sanitizeString` replaces the matches of four patterns one pattern after the other, each of them once.
The characters around a match that is left out become neighbours, and may form a match of the same or
of an earlier pattern.

`sanitizeString_clean` says that this is the only way in which something dangerous is left: the result
contains a match only when one can be put together of parts of the input that were not next to each other,
by leaving out matches. Which of the matches that begin at one place are left out does not matter for it.
`nestedTag_left` is an input with one tag inside another.
-/

set_option autoImplicit false
set_option relaxedAutoImplicit false

namespace RallyApi.Sanitizing

open Platform Regex

/-! ### Trimming -/

section Trim

variable {β : Type} (view : β → Char)

/-- Trimming removes whitespace at both ends. -/
theorem exists_trimItems (text : List β) : ∃ lead trail, text = lead ++ trimItems view text ++ trail ∧
    (∀ item ∈ lead, isWhitespace (view item) = true) ∧
    ∀ item ∈ trail, isWhitespace (view item) = true := by
  refine ⟨text.takeWhile fun item ↦ isWhitespace (view item),
    (text.dropWhile fun item ↦ isWhitespace (view item)).rtakeWhile fun item ↦
      isWhitespace (view item), ?_, ?_, ?_⟩
  · rw [List.append_assoc, trimItems, List.rdropWhile_append_rtakeWhile,
      List.takeWhile_append_dropWhile]
  · exact fun item hitem ↦ List.mem_takeWhile_imp (p := fun item ↦ isWhitespace (view item)) hitem
  · exact fun item hitem ↦ List.mem_rtakeWhile_imp (p := fun item ↦ isWhitespace (view item)) hitem

theorem mem_trimItems {text : List β} {item : β} (hitem : item ∈ text)
    (hvisible : isWhitespace (view item) = false) : item ∈ trimItems view text := by
  obtain ⟨lead, trail, htext, hlead, htrail⟩ := exists_trimItems view text
  rw [htext, List.mem_append, List.mem_append] at hitem
  obtain (hitem | hitem) | hitem := hitem
  · exact absurd (hlead item hitem) (Bool.not_eq_true _ ▸ hvisible)
  · exact hitem
  · exact absurd (htrail item hitem) (Bool.not_eq_true _ ▸ hvisible)

theorem trimItems_sublist (text : List β) : (trimItems view text).Sublist text := by
  obtain ⟨lead, trail, htext, -⟩ := exists_trimItems view text
  conv_rhs => rw [htext]
  exact (List.sublist_append_right lead _).trans (List.sublist_append_left _ trail)

theorem trimItems_map (text : List β) :
    (trimItems view text).map view = trimItems id (text.map view) := by
  simp only [trimItems, List.rdropWhile, List.dropWhile_map, ← List.map_reverse]
  rfl

/-- Trimming a second time changes nothing. -/
theorem trimItems_trimItems (text : List β) :
    trimItems view (trimItems view text) = trimItems view text := by
  have hstart : (trimItems view text).dropWhile (fun item ↦ isWhitespace (view item)) =
      trimItems view text := by
    rw [trimItems]
    generalize htext : text.dropWhile (fun item ↦ isWhitespace (view item)) = rest
    cases hkept : rest.rdropWhile fun item ↦ isWhitespace (view item) with
    | nil => rfl
    | cons item kept =>
      have hhead : rest.head? = some item := by
        rw [← List.rdropWhile_append_rtakeWhile (p := fun item ↦ isWhitespace (view item)) (l := rest),
          hkept]
        rfl
      have hnot := List.head?_dropWhile_not (fun item ↦ isWhitespace (view item)) text
      rw [htext, hhead] at hnot
      exact List.dropWhile_cons_of_neg (Bool.not_eq_true _ ▸ hnot)
  conv_lhs => rw [trimItems, hstart]
  exact List.rdropWhile_idempotent _ _

end Trim

/-! ### Removing the patterns -/

section Each

variable {β : Type} {view : β → Char}

theorem removeEach_sublist (patterns : List (Pattern Char)) (text : List β) :
    (removeEach view patterns text).Sublist text := by
  induction patterns generalizing text with
  | nil => exact List.Sublist.refl _
  | cons pattern patterns ih => exact (ih _).trans (removeAll_sublist text)

theorem removeEach_append (first second : List (Pattern Char)) (text : List β) :
    removeEach view (first ++ second) text = removeEach view second (removeEach view first text) :=
  List.foldl_append

theorem removeEach_map (patterns : List (Pattern Char)) (text : List β) :
    (removeEach view patterns text).map view = removeEach id patterns (text.map view) := by
  induction patterns generalizing text with
  | nil => rfl
  | cons pattern patterns ih =>
    exact (ih _).trans (congrArg (removeEach id patterns) (removeAll_map isWordChar view pattern text))

theorem sanitizeItems_map (text : List β) :
    (sanitizeItems view text).map view = sanitizeItems id (text.map view) := by
  rw [sanitizeItems, trimItems_map, removeEach_map, sanitizeItems]

/-! ### Matches that were there before -/

/-- The patterns of inline event handlers, which begin at the start of a word. -/
def handlers : List (Pattern Char) := [quotedHandler, unquotedHandler]

theorem isWordChar_of_isLetter {char : Char} (hchar : isLetter 'o' char = true) :
    isWordChar char = true ∧ isUnquoted char = true := by
  simp only [isLetter, Bool.or_eq_true, decide_eq_true_eq] at hchar
  obtain rfl | rfl := hchar <;> decide +kernel

/-- A handler begins with the letter o, after a character that is not part of a word. -/
theorem start_of_handler {handler : Pattern Char} (hhandler : handler ∈ handlers)
    {last next : Option Char} {stretch : List Char}
    (hmatch : Matches isWordChar handler last stretch next) :
    last.any isWordChar = false ∧ ∃ char, stretch.head? = some char ∧ isLetter 'o' char = true := by
  obtain ⟨rest, rfl, hinitial⟩ : ∃ rest, handler = .seq .boundary rest ∧
      rest.initial = some (isLetter 'o') := by
    simp only [handlers, List.mem_cons, List.not_mem_nil, or_false] at hhandler
    obtain rfl | rfl := hhandler <;> exact ⟨_, rfl, rfl⟩
  obtain ⟨before, after, rfl, ⟨rfl, hboundary⟩, hrest⟩ := hmatch
  obtain ⟨char, hhead, hchar⟩ := hrest.head_mem isWordChar hinitial
  refine ⟨?_, char, hhead, hchar⟩
  rw [hhead, Option.some_or, Option.any_some, (isWordChar_of_isLetter hchar).1] at hboundary
  exact Bool.eq_false_iff.mpr hboundary

theorem toNat_of_isWordChar {char : Char} (hchar : isWordChar char = true) : char.toNat ≤ 122 := by
  delta isWordChar Char.isAlphanum Char.isAlpha Char.isUpper Char.isLower Char.isDigit at hchar
  simp only [Bool.or_eq_true, Bool.and_eq_true, decide_eq_true_eq, ge_iff_le,
    UInt32.le_iff_toNat_le] at hchar
  obtain ((hletter | hletter) | hdigit) | rfl := hchar
  · exact hletter.2.trans (by decide)
  · exact hletter.2
  · exact hdigit.2.trans (by decide)
  · decide

theorem isWhitespace_eq_false {char : Char} (hchar : isWordChar char = true) :
    isWhitespace char = false := by
  by_contra hspace
  simp only [isWhitespace, Bool.not_eq_false, Bool.or_eq_true, Bool.and_eq_true,
    decide_eq_true_eq] at hspace
  obtain hlisted | ⟨hfirst, -⟩ := hspace
  · have hnone : (['\t', '\n', '\x0b', '\x0c', '\r', ' ', '\u00a0', '\u1680', '\u2028', '\u2029',
        '\u202f', '\u205f', '\u3000', '\ufeff'].all fun char ↦ !isWordChar char) = true := rfl
    have hother := List.all_eq_true.mp hnone char hlisted
    rw [hchar] at hother
    cases hother
  · have hlast := toNat_of_isWordChar hchar
    omega

theorem isQuote_eq_false {char : Char} (hchar : isWordChar char = true) : isQuote char = false := by
  by_contra hquote
  simp only [isQuote, Bool.not_eq_false, Bool.or_eq_true, decide_eq_true_eq] at hquote
  obtain rfl | rfl := hquote <;> exact absurd hchar (by decide +kernel)

/-- A character of a word before an o that stays is not left out: no match of a handler ends there. -/
theorem mem_removeAll_before {handler : Pattern Char} (hhandler : handler ∈ handlers) {text : List β}
    (hnodup : text.Nodup) {item next : β} (hadjacent : [item, next] <:+: text)
    (hitem : isWordChar (view item) = true) (hnext : isLetter 'o' (view next) = true)
    (hkept : next ∈ removeAll isWordChar view handler text) :
    item ∈ removeAll isWordChar view handler text := by
  obtain ⟨before, after, rfl⟩ := hadjacent
  rw [List.append_assoc] at hnodup hkept ⊢
  by_contra hremoved
  obtain ⟨start, stretch, hupto, hne, hfirst, hmatch⟩ := endsMatch_of_removeAll hnodup hremoved hkept
  have hlast : stretch.getLast? = some item := by
    have hsame := congrArg List.getLast? hupto
    rw [List.getLast?_concat, List.getLast?_append_of_ne_nil _ hne] at hsame
    exact hsame.symm
  simp only [handlers, List.mem_cons, List.not_mem_nil, or_false] at hhandler
  obtain rfl | rfl := hhandler
  · have hfinal : quotedHandler.final = some isQuote := rfl
    obtain ⟨char, hchar, hquote⟩ := hmatch.getLast_mem isWordChar hfinal
    rw [List.getLast?_map, hlast] at hchar
    obtain rfl := Option.some.inj hchar
    rw [isQuote_eq_false hitem] at hquote
    cases hquote
  · have htrailing : unquotedHandler.trailing = some isUnquoted := rfl
    have hhead : next ∈ (next :: after).head? := rfl
    have hunquoted := rest_of_trailing isWordChar view htrailing hfirst hhead
    rw [(isWordChar_of_isLetter hnext).2] at hunquoted
    cases hunquoted

theorem mem_removeEach_before {patterns : List (Pattern Char)}
    (hpatterns : ∀ handler ∈ patterns, handler ∈ handlers) {text : List β} (hnodup : text.Nodup)
    {item next : β} (hadjacent : [item, next] <:+: text) (hitem : isWordChar (view item) = true)
    (hnext : isLetter 'o' (view next) = true) (hkept : next ∈ removeEach view patterns text) :
    item ∈ removeEach view patterns text := by
  induction patterns generalizing text with
  | nil => exact hadjacent.subset List.mem_cons_self
  | cons handler patterns ih =>
    obtain ⟨hhandler, hpatterns⟩ := List.forall_mem_cons.mp hpatterns
    have hsublist : (removeAll isWordChar view handler text).Sublist text := removeAll_sublist text
    have hnextKept := (removeEach_sublist patterns _).subset hkept
    have hitemKept := mem_removeAll_before hhandler hnodup hadjacent hitem hnext hnextKept
    refine ih hpatterns (hnodup.sublist hsublist) (infix_of_sublist hnodup hadjacent hsublist ?_) hkept
    exact List.forall_mem_cons.mpr ⟨hitemKept, List.forall_mem_singleton.mpr hnextKept⟩

/-- A character of a word before an o that stays is not left out, and so it is still before the o. -/
theorem any_before_eq_false {patterns : List (Pattern Char)}
    (hpatterns : ∀ handler ∈ patterns, handler ∈ handlers) {front rest before after : List β} {next : β}
    (hnodup : (front ++ next :: rest).Nodup) (hnext : isLetter 'o' (view next) = true)
    (hkept : trimItems view (removeEach view patterns (front ++ next :: rest)) =
      before ++ next :: after) (hbefore : (before.getLast?.map view).any isWordChar = false) :
    (front.getLast?.map view).any isWordChar = false := by
  obtain rfl | ⟨front, item, rfl⟩ := List.eq_nil_or_concat' front
  · rfl
  rw [List.getLast?_concat]
  by_contra hword
  replace hword : isWordChar (view item) = true := by simpa using hword
  have hadjacent : [item, next] <:+: front ++ [item] ++ next :: rest := ⟨front, rest, by simp⟩
  have hsublist : (removeEach view patterns (front ++ [item] ++ next :: rest)).Sublist _ :=
    removeEach_sublist patterns _
  have htrim := trimItems_sublist view (removeEach view patterns (front ++ [item] ++ next :: rest))
  have hnextTrim : next ∈ trimItems view (removeEach view patterns (front ++ [item] ++ next :: rest)) :=
    hkept ▸ List.mem_append_right _ List.mem_cons_self
  have hitemEach := mem_removeEach_before hpatterns hnodup hadjacent hword hnext
    (htrim.subset hnextTrim)
  have hitemTrim : item ∈ trimItems view
      (removeEach view patterns (front ++ [item] ++ next :: rest)) :=
    mem_trimItems view hitemEach (isWhitespace_eq_false hword)
  have hcontiguous := infix_of_sublist hnodup hadjacent (htrim.trans hsublist)
    (List.forall_mem_cons.mpr ⟨hitemTrim, List.forall_mem_singleton.mpr hnextTrim⟩)
  obtain ⟨lead, trail, hsplit⟩ := hcontiguous
  have hboth : before ++ next :: after = lead ++ [item] ++ next :: trail := by
    rw [← hkept, ← hsplit]
    simp
  have hsame := eq_of_append_cons (hkept ▸ hnodup.sublist (htrim.trans hsublist)) hboth
  rw [hsame, List.getLast?_concat] at hbefore
  simp [hword] at hbefore

/-- A pattern that is removed before `rest`. What stands before a match of it does not matter, or it is
a handler, and only handlers are removed after it. -/
structure Step (pattern : Pattern Char) (rest : List (Pattern Char)) : Prop where
  consuming : pattern.consuming = true
  closed : pattern.closed = true
  start : pattern.opened = true ∨ ∀ handler ∈ pattern :: rest, handler ∈ handlers

/-- Every pattern is removed after some patterns and before others. -/
theorem exists_step {pattern : Pattern Char} (hpattern : pattern ∈ dangerousPatterns) :
    ∃ first rest, dangerousPatterns = first ++ pattern :: rest ∧ Step pattern rest := by
  simp only [dangerousPatterns, List.mem_cons, List.not_mem_nil, or_false] at hpattern
  obtain rfl | rfl | rfl | rfl := hpattern
  · exact ⟨[], [listedTag, quotedHandler, unquotedHandler], rfl, rfl, rfl, .inl rfl⟩
  · exact ⟨[scriptElement], [quotedHandler, unquotedHandler], rfl, rfl, rfl, .inl rfl⟩
  · exact ⟨[scriptElement, listedTag], [unquotedHandler], rfl, rfl, rfl, .inr (by simp [handlers])⟩
  · exact ⟨[scriptElement, listedTag, quotedHandler], [], rfl, rfl, rfl, .inr (by simp [handlers])⟩

/-- No stretch of the input is left that a pattern matches. -/
theorem not_matches_of_infix {text : List β} (hnodup : text.Nodup) {pattern : Pattern Char}
    (hpattern : pattern ∈ dangerousPatterns) {before stretch after : List β}
    (hkept : sanitizeItems view text = before ++ (stretch ++ after)) (hcontiguous : stretch <:+: text) :
    ¬ Matches isWordChar pattern (before.getLast?.map view) (stretch.map view)
      (after.head?.map view) := by
  intro hmatch
  obtain ⟨first, rest, hsplit, hconsuming, hclosed, hstart⟩ := exists_step hpattern
  obtain ⟨item, tail, rfl⟩ : ∃ item tail, stretch = item :: tail :=
    List.exists_cons_of_ne_nil fun hnil ↦ hmatch.ne_nil isWordChar hconsuming (by rw [hnil]; rfl)
  let middle := removeEach view first text
  have hsanitize : sanitizeItems view text =
      trimItems view (removeEach view rest (removeAll isWordChar view pattern middle)) := by
    rw [sanitizeItems, hsplit, removeEach_append]
    rfl
  -- The stretch is one of the text in which the pattern is searched.
  have hmiddle : middle.Nodup := hnodup.sublist (removeEach_sublist first text)
  have hremoved : (sanitizeItems view text).Sublist (removeAll isWordChar view pattern middle) :=
    hsanitize ▸ (trimItems_sublist view _).trans (removeEach_sublist rest _)
  have hstretch : ∀ other ∈ item :: tail, other ∈ sanitizeItems view text := fun other hother ↦
    hkept ▸ List.mem_append_right _ (List.mem_append_left _ hother)
  obtain ⟨front, back, hfront⟩ := infix_of_sublist hnodup hcontiguous (removeEach_sublist first text)
    fun other hother ↦ (removeAll_sublist _).subset (hremoved.subset (hstretch other hother))
  replace hfront : middle = front ++ (item :: tail ++ back) := by rw [← List.append_assoc, hfront]
  -- There the pattern matches it as well.
  have hsearched : Matches isWordChar pattern (front.getLast?.map view) ((item :: tail).map view)
      (back.head?.map view) := by
    suffices hclear : Matches isWordChar pattern (front.getLast?.map view) ((item :: tail).map view)
        (after.head?.map view) from hclear.of_next isWordChar hclosed
    obtain hopened | hhandlers := hstart
    · exact hmatch.of_opened isWordChar hopened
    · obtain ⟨hbefore, char, hhead, hletter⟩ := start_of_handler
        (hhandlers pattern List.mem_cons_self) hmatch
      obtain rfl := Option.some.inj hhead
      refine hmatch.of_last isWordChar ?_
      have hrest : trimItems view (removeEach view (pattern :: rest)
          (front ++ item :: (tail ++ back))) = before ++ item :: (tail ++ after) := by
        rw [← List.cons_append, ← hfront]
        exact hsanitize.symm.trans hkept
      rw [hbefore, any_before_eq_false hhandlers (hfront ▸ hmiddle) hletter hrest hbefore]
  refine not_mem_removeAll (hfront ▸ hmiddle) hconsuming hsearched ?_
  rw [← hfront]
  exact hremoved.subset (hstretch item List.mem_cons_self)

end Each

/-! ### What can be put together -/

/-- The text contains no match of any of the patterns. -/
def Clean (text : String) : Prop :=
  ∀ pattern ∈ dangerousPatterns, ¬ Occurs isWordChar pattern text.toList

/-- What may be kept of a text when patterns are removed one after the other, whichever of the matches at a
place is left out. -/
def keptEach {β : Type} (view : β → Char) (patterns : List (Pattern Char)) (text : List β) :
    List (List β) :=
  patterns.foldl (fun texts pattern ↦ texts.flatMap (keptAll isWordChar view pattern)) [text]

/-- A match can be put together from the input by leaving out matches: it is in what may be kept, and some
of its characters were not next to each other in the input. -/
def Assembles (input : String) : Prop :=
  ∃ kept ∈ keptEach Prod.fst dangerousPatterns input.toList.zipIdx,
    ∃ pattern ∈ dangerousPatterns, ∃ before stretch after,
      trimItems Prod.fst kept = before ++ (stretch ++ after) ∧
      Matches isWordChar pattern (before.getLast?.map Prod.fst) (stretch.map Prod.fst)
        (after.head?.map Prod.fst) ∧
      ¬ stretch <:+: input.toList.zipIdx

theorem removeEach_mem_keptEach {β : Type} (view : β → Char) (patterns : List (Pattern Char))
    {text : List β} {texts : List (List β)} (htext : text ∈ texts) :
    removeEach view patterns text ∈
      patterns.foldl (fun texts pattern ↦ texts.flatMap (keptAll isWordChar view pattern)) texts := by
  induction patterns generalizing text texts with
  | nil => exact htext
  | cons pattern patterns ih =>
    exact ih (List.mem_flatMap.mpr ⟨text, htext, removeAll_mem_keptAll text⟩)

/-- The characters of the result are those of the input that are kept, which the positions tell apart. -/
theorem toList_sanitizeString (input : String) :
    (sanitizeString input).toList =
      (sanitizeItems Prod.fst input.toList.zipIdx).map Prod.fst := by
  rw [sanitizeString, String.toList_ofList, sanitizeItems_map, List.zipIdx_map_fst]

/-- Assumes: no match can be put together from the input. None is left. -/
theorem clean_of_not_assembles {input : String} (hnone : ¬ Assembles input) :
    Clean (sanitizeString input) := by
  have hnodup : input.toList.zipIdx.Nodup := by
    refine List.Nodup.of_map Prod.snd ?_
    rw [List.zipIdx_map_snd]
    exact List.nodup_range'
  rintro pattern hpattern ⟨_, _, _, htext, hmatch⟩
  rw [toList_sanitizeString] at htext
  obtain ⟨before, _, hkept, rfl, hrest⟩ := List.map_eq_append_iff.mp htext
  obtain ⟨stretch, after, rfl, rfl, rfl⟩ := List.map_eq_append_iff.mp hrest
  rw [List.getLast?_map, List.head?_map] at hmatch
  have hmem := removeEach_mem_keptEach Prod.fst dangerousPatterns
    (List.mem_singleton_self input.toList.zipIdx)
  refine hnone ⟨_, hmem, pattern, hpattern, before, stretch, after, hkept, hmatch, fun hcontiguous ↦ ?_⟩
  exact not_matches_of_infix hnodup hpattern hkept hcontiguous hmatch

theorem removeEach_eq_self {patterns : List (Pattern Char)} {text : List Char}
    (hnone : ∀ pattern ∈ patterns, ¬ Occurs isWordChar pattern text) :
    removeEach id patterns text = text := by
  induction patterns with
  | nil => rfl
  | cons pattern patterns ih =>
    obtain ⟨hpattern, hpatterns⟩ := List.forall_mem_cons.mp hnone
    change removeEach id patterns (removeAll isWordChar id pattern text) = text
    rw [removeAll_eq_self hpattern, ih hpatterns]

/-- A clean text is only trimmed. -/
theorem sanitizeString_of_clean {text : String} (hclean : Clean text) :
    sanitizeString text = String.ofList (trimItems id text.toList) := by
  rw [sanitizeString, sanitizeItems, removeEach_eq_self hclean]

/-- A clean result is its own result. -/
theorem sanitizeString_idempotent {input : String} (hclean : Clean (sanitizeString input)) :
    sanitizeString (sanitizeString input) = sanitizeString input := by
  rw [sanitizeString_of_clean hclean, sanitizeString, String.toList_ofList]
  exact congrArg String.ofList (trimItems_trimItems id _)

/-- Assumes: no match can be put together from the input by leaving out matches. The result of
`sanitizeString` contains no match of the four patterns, and is its own result. -/
theorem sanitizeString_clean {input : String} (hnone : ¬ Assembles input) :
    Clean (sanitizeString input) ∧
      sanitizeString (sanitizeString input) = sanitizeString input :=
  ⟨clean_of_not_assembles hnone, sanitizeString_idempotent (clean_of_not_assembles hnone)⟩

/-- Nothing is put together where all that may be kept is a stretch of the input. -/
theorem not_assembles_of_contiguous {input : String}
    (hkept : ∀ kept ∈ keptEach Prod.fst dangerousPatterns input.toList.zipIdx,
      kept <:+: input.toList.zipIdx) : ¬ Assembles input := by
  rintro ⟨kept, hmem, _, _, before, stretch, after, htrim, _, hapart⟩
  have htrimmed : trimItems Prod.fst kept <:+: kept := by
    obtain ⟨lead, trail, htext, -⟩ := exists_trimItems Prod.fst kept
    exact ⟨lead, trail, htext.symm⟩
  have hstretch : stretch <:+: trimItems Prod.fst kept :=
    ⟨before, after, by rw [htrim, List.append_assoc]⟩
  exact hapart (hstretch.trans (htrimmed.trans (hkept kept hmem)))

/-- A witness: a script element after some text. -/
theorem sanitizeString_clean_witness :
    Clean (sanitizeString "<b>Hi</b><script>f()</script>") ∧
      sanitizeString (sanitizeString "<b>Hi</b><script>f()</script>") =
        sanitizeString "<b>Hi</b><script>f()</script>" :=
  sanitizeString_clean (not_assembles_of_contiguous (by decide +kernel))

/-- What is left is not clean: when the inner one of two tags is deleted, the parts of the outer one form
a script tag, which a second pass would remove. -/
theorem nestedTag_left :
    sanitizeString "<scr<script>ipt>" = "<script>" ∧ ¬ Clean (sanitizeString "<scr<script>ipt>") ∧
      sanitizeString (sanitizeString "<scr<script>ipt>") ≠ sanitizeString "<scr<script>ipt>" := by
  have hresult : sanitizeString "<scr<script>ipt>" = "<script>" := by decide +kernel
  have hdiffer : sanitizeString (sanitizeString "<scr<script>ipt>") ≠
      sanitizeString "<scr<script>ipt>" := by
    rw [hresult]
    decide +kernel
  exact ⟨hresult, fun hclean ↦ hdiffer (sanitizeString_idempotent hclean), hdiffer⟩

end RallyApi.Sanitizing

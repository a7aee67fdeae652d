import Mathlib.Data.List.DropRight

/-!
# Words

The words of a text are its longest stretches of characters to keep. `collapse` replaces what is between
them by one separator, `strip` takes separators off both ends, and what is left are the words, joined by
separators (`strip_collapse`).

A text is `Joined` when it is made of blocks of characters to keep with one separator between two blocks.
`joined_append` splits such a text at a separator, and `joined_take_iff` says where it can be cut.
-/

set_option autoImplicit false
set_option relaxedAutoImplicit false

namespace RallyApi.Text

variable {α : Type} {keep : α → Bool} {separator : α}

/-! ### Words and what is between them -/

/-- The longest stretches of characters to keep. -/
def words (keep : α → Bool) (text : List α) : List (List α) :=
  (text.splitOnP fun char ↦ !keep char).filter fun word ↦ !word.isEmpty

/-- Every stretch of other characters is replaced by one separator. The flag says whether such a stretch has
begun. -/
def collapseFrom (keep : α → Bool) (separator : α) : Bool → List α → List α
  | _, [] => []
  | begun, char :: rest =>
    if keep char then char :: collapseFrom keep separator false rest
    else if begun then collapseFrom keep separator true rest
    else separator :: collapseFrom keep separator true rest

/-- Every longest stretch of other characters is replaced by one separator. -/
def collapse (keep : α → Bool) (separator : α) (text : List α) : List α :=
  collapseFrom keep separator false text

/-- The text without the separators at its ends. -/
def strip [DecidableEq α] (separator : α) (text : List α) : List α :=
  (text.dropWhile fun char ↦ char = separator).rdropWhile fun char ↦ char = separator

/-- A block: one or more characters to keep. -/
def IsBlock (keep : α → Bool) (block : List α) : Prop := block ≠ [] ∧ ∀ char ∈ block, keep char = true

/-- Blocks with one separator between two of them. -/
def Joined [DecidableEq α] (keep : α → Bool) (separator : α) (text : List α) : Prop :=
  ∀ block ∈ text.splitOn separator, IsBlock keep block

/-- Words end at a character that is not to keep. -/
theorem words_append_cons {char : α} (hchar : keep char = false) (front back : List α) :
    words keep (front ++ char :: back) = words keep front ++ words keep back := by
  rw [words, List.splitOnP_append_cons front back (by simp [hchar]), List.filter_append]
  rfl

/-- A block is one word. -/
theorem words_of_isBlock {block : List α} (hblock : IsBlock keep block) : words keep block = [block] := by
  have hnonempty : (!block.isEmpty) = true := by simpa using hblock.1
  rw [words, List.splitOnP_eq_singleton fun char hchar ↦ by simp [hblock.2 char hchar],
    List.filter_singleton, hnonempty]
  rfl

theorem words_cons_of_neg {char : α} (hchar : keep char = false) (rest : List α) :
    words keep (char :: rest) = words keep rest :=
  words_append_cons hchar [] rest

/-- The rule for texts: what holds of a text of one block, or none, and carries over from the text after
the first other character, holds of every text. -/
theorem text_induction (keep : α → Bool) {property : List α → Prop} (hnil : property [])
    (hblock : ∀ block, IsBlock keep block → property block)
    (hother : ∀ char rest, keep char = false → property rest → property (char :: rest))
    (hcut : ∀ block char rest, IsBlock keep block → keep char = false → property rest →
      property (block ++ char :: rest)) (text : List α) : property text := by
  induction hlength : text.length using Nat.strong_induction_on generalizing text with
  | _ length ih =>
    have hsplit := List.takeWhile_append_dropWhile (p := keep) (l := text)
    have hkept : ∀ char ∈ text.takeWhile keep, keep char = true := fun _ ↦ List.mem_takeWhile_imp
    cases hrest : text.dropWhile keep with
    | nil =>
      rw [hrest, List.append_nil] at hsplit
      rw [hsplit] at hkept
      by_cases htext : text = []
      · exact htext ▸ hnil
      · exact hblock text ⟨htext, hkept⟩
    | cons char rest =>
      have hchar : keep char = false := by
        have hhead := List.head?_dropWhile_not keep text
        rw [hrest] at hhead
        simpa using hhead
      rw [hrest] at hsplit
      have hshorter : rest.length < length := by
        rw [← hlength, ← hsplit, List.length_append, List.length_cons]
        omega
      have hproperty := ih rest.length hshorter rest rfl
      rw [← hsplit]
      by_cases hempty : text.takeWhile keep = []
      · rw [hempty]
        exact hother char rest hchar hproperty
      · exact hcut _ char rest ⟨hempty, hkept⟩ hchar hproperty

theorem isBlock_of_mem_words {text block : List α} (hmem : block ∈ words keep text) :
    IsBlock keep block := by
  induction text using text_induction keep with
  | hnil => cases hmem
  | hblock text htext =>
    rw [words_of_isBlock htext, List.mem_singleton] at hmem
    exact hmem ▸ htext
  | hother char rest hchar ih =>
    rw [words_cons_of_neg hchar] at hmem
    exact ih hmem
  | hcut first char rest hfirst hchar ih =>
    rw [words_append_cons hchar, words_of_isBlock hfirst, List.singleton_append] at hmem
    rcases List.mem_cons.mp hmem with rfl | hmem
    · exact hfirst
    · exact ih hmem

/-! ### Joined texts -/

section Joined

variable [DecidableEq α] {front back text block : List α} {blocks : List (List α)}

/-- A text is joined exactly if what is before a separator and what is after it are. -/
theorem joined_append : Joined keep separator (front ++ separator :: back) ↔
    Joined keep separator front ∧ Joined keep separator back := by
  rw [Joined, List.splitOn_append_cons_of_beq front back (beq_self_eq_true separator),
    List.forall_mem_append]
  rfl

theorem not_joined_nil : ¬ Joined keep separator [] := fun hjoined ↦
  (hjoined [] (by simp)).1 rfl

theorem not_joined_cons : ¬ Joined keep separator (separator :: back) := by
  intro hjoined
  have hfront : Joined keep separator ([] ++ separator :: back) := hjoined
  exact not_joined_nil (joined_append.mp hfront).1

theorem not_joined_concat : ¬ Joined keep separator (front ++ [separator]) := fun hjoined ↦
  not_joined_nil (joined_append.mp hjoined).2

/-- Assumes: the separator is not to keep. A block is joined. -/
theorem joined_of_isBlock (hseparator : keep separator = false) (hblock : IsBlock keep block) :
    Joined keep separator block := by
  have hnone : separator ∉ block := fun hmem ↦ by
    rw [hblock.2 separator hmem] at hseparator
    cases hseparator
  intro other hother
  rw [List.splitOn_eq_singleton hnone, List.mem_singleton] at hother
  exact hother ▸ hblock

omit [DecidableEq α] in
theorem intercalate_cons_cons (first second : List α) (rest : List (List α)) :
    List.intercalate [separator] (first :: second :: rest) =
      first ++ separator :: List.intercalate [separator] (second :: rest) := by
  rw [List.intercalate_cons_cons, List.append_assoc, List.singleton_append]

/-- Assumes: the separator is not to keep. Blocks are joined by separators. -/
theorem joined_intercalate (hseparator : keep separator = false) (hne : blocks ≠ [])
    (hblocks : ∀ block ∈ blocks, IsBlock keep block) :
    Joined keep separator (List.intercalate [separator] blocks) := by
  induction blocks with
  | nil => exact absurd rfl hne
  | cons first rest ih =>
    obtain ⟨hfirst, hrest⟩ := List.forall_mem_cons.mp hblocks
    cases rest with
    | nil =>
      rw [List.intercalate_singleton]
      exact joined_of_isBlock hseparator hfirst
    | cons second rest =>
      rw [intercalate_cons_cons, joined_append]
      exact ⟨joined_of_isBlock hseparator hfirst, ih (List.cons_ne_nil _ _) hrest⟩

omit [DecidableEq α] in
/-- The length of the first blocks, joined, with one more of them before the others. -/
theorem length_intercalate_take (first second : List α) (rest : List (List α)) {count : ℕ}
    (hpos : 0 < count) :
    (List.intercalate [separator] ((first :: second :: rest).take (count + 1))).length =
      first.length + 1 + (List.intercalate [separator] ((second :: rest).take count)).length := by
  obtain ⟨count, rfl⟩ := Nat.exists_eq_succ_of_ne_zero hpos.ne'
  rw [List.take_succ_cons, List.take_succ_cons, intercalate_cons_cons, List.length_append,
    List.length_cons]
  omega

omit [DecidableEq α] in
theorem isBlock_take (hblock : IsBlock keep block) {length : ℕ} (hpos : 0 < length) :
    IsBlock keep (block.take length) := by
  refine ⟨fun hnil ↦ ?_, fun char hchar ↦ hblock.2 char (List.mem_of_mem_take hchar)⟩
  rcases List.take_eq_nil_iff.mp hnil with hzero | hempty
  · exact hpos.ne' hzero
  · exact hblock.1 hempty

omit [DecidableEq α] in
/-- The places one character after some of the blocks, with others to follow, are the one after the first
block, and those after some of the others. -/
theorem forall_cuts_cons (first second : List α) (rest : List (List α)) {length : ℕ} :
    (∀ count, 0 < count → count < (first :: second :: rest).length →
        (List.intercalate [separator] ((first :: second :: rest).take count)).length + 1 ≠ length) ↔
      first.length + 1 ≠ length ∧ ∀ count, 0 < count → count < (second :: rest).length →
        first.length + 1 + (List.intercalate [separator] ((second :: rest).take count)).length + 1 ≠
          length := by
  constructor
  · intro hcuts
    refine ⟨?_, fun count hcount hless ↦ ?_⟩
    · have hcut := hcuts 1 Nat.one_pos (by simp)
      rwa [List.take_succ_cons, List.take_zero, List.intercalate_singleton] at hcut
    · have hcut := hcuts (count + 1) (Nat.succ_pos count) (by simpa using hless)
      rwa [length_intercalate_take first second rest hcount] at hcut
  · rintro ⟨hfirst, hlater⟩ count hcount hless
    obtain ⟨count, rfl⟩ := Nat.exists_eq_succ_of_ne_zero hcount.ne'
    rcases Nat.eq_zero_or_pos count with rfl | hcount
    · rwa [List.take_succ_cons, List.take_zero, List.intercalate_singleton]
    · rw [length_intercalate_take first second rest hcount]
      exact hlater count hcount (by simpa using hless)

/-- Assumes: the separator is not to keep. Joined blocks that are cut are joined exactly if the cut is not
right after a separator: it is not one character after some of the blocks, with others to follow. -/
theorem joined_take_iff (hseparator : keep separator = false) (hne : blocks ≠ [])
    (hblocks : ∀ block ∈ blocks, IsBlock keep block) {length : ℕ} (hpos : 0 < length) :
    Joined keep separator ((List.intercalate [separator] blocks).take length) ↔
      ∀ count, 0 < count → count < blocks.length →
        (List.intercalate [separator] (blocks.take count)).length + 1 ≠ length := by
  induction blocks generalizing length with
  | nil => exact absurd rfl hne
  | cons first rest ih =>
    obtain ⟨hfirst, hrest⟩ := List.forall_mem_cons.mp hblocks
    cases rest with
    | nil =>
      rw [List.intercalate_singleton]
      refine ⟨fun _ count hcount hless ↦ ?_, fun _ ↦ joined_of_isBlock hseparator (isBlock_take hfirst hpos)⟩
      rw [List.length_singleton] at hless
      omega
    | cons second rest =>
      rw [forall_cuts_cons, intercalate_cons_cons, List.take_append]
      rcases Nat.lt_trichotomy length (first.length + 1) with hinside | rfl | hbeyond
      · -- The cut is in the first block.
        have hzero : length - first.length = 0 := by omega
        rw [hzero, List.take_zero, List.append_nil]
        exact iff_of_true (joined_of_isBlock hseparator (isBlock_take hfirst hpos))
          ⟨by omega, fun _ _ _ ↦ by omega⟩
      · -- The cut is right after the first separator.
        rw [List.take_of_length_le (Nat.le_succ _), Nat.add_sub_cancel_left, List.take_succ_cons,
          List.take_zero]
        exact iff_of_false not_joined_concat fun hcuts ↦ hcuts.1 rfl
      · -- The cut is in the other blocks.
        obtain ⟨more, rfl⟩ := Nat.exists_eq_add_of_lt hbeyond
        have hmore : first.length + 1 + more + 1 - first.length = more + 1 + 1 := by omega
        rw [List.take_of_length_le (by omega), hmore, List.take_succ_cons, joined_append,
          and_iff_right (joined_of_isBlock hseparator hfirst),
          ih (List.cons_ne_nil _ _) hrest (Nat.succ_pos more)]
        constructor
        · intro hcuts
          refine ⟨by omega, fun count hcount hless ↦ ?_⟩
          have hcut := hcuts count hcount hless
          omega
        · rintro ⟨_, hcuts⟩ count hcount hless
          have hcut := hcuts count hcount hless
          omega

end Joined

/-! ### What is left of a text -/

/-- Nothing of a block is replaced. -/
theorem collapseFrom_append {block : List α} (hblock : IsBlock keep block) (begun : Bool) (rest : List α) :
    collapseFrom keep separator begun (block ++ rest) =
      block ++ collapseFrom keep separator false rest := by
  obtain ⟨hne, hkept⟩ := hblock
  induction block generalizing begun with
  | nil => exact absurd rfl hne
  | cons char block ih =>
    obtain ⟨hchar, hkept⟩ := List.forall_mem_cons.mp hkept
    rw [List.cons_append, collapseFrom, if_pos hchar, List.cons_append]
    cases block with
    | nil => rfl
    | cons next block => rw [ih false (List.cons_ne_nil _ _) hkept]

theorem collapseFrom_block {block : List α} (hblock : IsBlock keep block) (begun : Bool) :
    collapseFrom keep separator begun block = block := by
  have hall : collapseFrom keep separator begun (block ++ []) =
      block ++ collapseFrom keep separator false [] := collapseFrom_append hblock begun []
  rwa [List.append_nil, collapseFrom, List.append_nil] at hall

/-- Without a separator at its front, a collapsed text is its words, joined, with at most one separator
after them. -/
theorem exists_collapseFrom (keep : α → Bool) (separator : α) (text : List α) :
    ∃ tail, collapseFrom keep separator true text =
      List.intercalate [separator] (words keep text) ++ tail ∧
        (tail = [] ∨ tail = [separator] ∧ words keep text ≠ []) := by
  induction text using text_induction keep with
  | hnil => exact ⟨[], rfl, .inl rfl⟩
  | hblock block hblock =>
    refine ⟨[], ?_, .inl rfl⟩
    rw [collapseFrom_block hblock, words_of_isBlock hblock, List.intercalate_singleton, List.append_nil]
  | hother char rest hchar ih =>
    rw [words_cons_of_neg hchar, collapseFrom, if_neg (by simp [hchar]), if_pos rfl]
    exact ih
  | hcut block char rest hblock hchar ih =>
    obtain ⟨tail, hrest, htail⟩ := ih
    rw [collapseFrom_append hblock, collapseFrom, if_neg (by simp [hchar]), if_neg (by simp), hrest,
      words_append_cons hchar, words_of_isBlock hblock, List.singleton_append]
    cases hwords : words keep rest with
    | nil =>
      obtain rfl := htail.resolve_right fun hafter ↦ hafter.2 hwords
      exact ⟨[separator], by rw [List.intercalate_singleton]; rfl, .inr ⟨rfl, List.cons_ne_nil _ _⟩⟩
    | cons next words =>
      refine ⟨tail, ?_, htail.imp_right fun hafter ↦ ⟨hafter.1, List.cons_ne_nil _ _⟩⟩
      rw [intercalate_cons_cons, List.append_assoc, List.cons_append]

/-- A collapsed text has at most one separator at its front. -/
theorem exists_collapse (keep : α → Bool) (separator : α) (text : List α) :
    ∃ front, collapse keep separator text = front ++ collapseFrom keep separator true text ∧
      (front = [] ∨ front = [separator]) := by
  cases text with
  | nil => exact ⟨[], rfl, .inl rfl⟩
  | cons char rest =>
    by_cases hchar : keep char = true
    · exact ⟨[], by rw [collapse, collapseFrom, collapseFrom, if_pos hchar, if_pos hchar]; rfl, .inl rfl⟩
    · refine ⟨[separator], ?_, .inr rfl⟩
      rw [collapse, collapseFrom, collapseFrom, if_neg hchar, if_neg hchar, if_neg (by simp), if_pos rfl]
      rfl

section Strip

variable [DecidableEq α] {text : List α}

theorem strip_cons (text : List α) : strip separator (separator :: text) = strip separator text := by
  rw [strip, List.dropWhile_cons_of_pos (by simp), strip]

/-- A joined text has no separator at its ends. -/
theorem strip_of_joined (hjoined : Joined keep separator text) : strip separator text = text := by
  have hfront : (text.dropWhile fun char ↦ char = separator) = text := by
    cases text with
    | nil => rfl
    | cons char rest =>
      refine List.dropWhile_cons_of_neg fun hchar ↦ ?_
      obtain rfl := of_decide_eq_true hchar
      exact not_joined_cons hjoined
  rw [strip, hfront, List.rdropWhile_eq_self_iff]
  intro hne hlast
  rw [← List.dropLast_append_getLast hne, of_decide_eq_true hlast] at hjoined
  exact not_joined_concat hjoined

theorem strip_concat_of_joined (hjoined : Joined keep separator text) :
    strip separator (text ++ [separator]) = text := by
  have hne : text ≠ [] := fun hnil ↦ not_joined_nil (hnil ▸ hjoined)
  obtain ⟨char, rest, rfl⟩ := List.exists_cons_of_ne_nil hne
  have hchar : char ≠ separator := by
    rintro rfl
    exact not_joined_cons hjoined
  have hstays := strip_of_joined hjoined
  rw [strip, List.dropWhile_cons_of_neg (by simpa using hchar)] at hstays
  rw [strip, List.cons_append, List.dropWhile_cons_of_neg (by simpa using hchar), ← List.cons_append,
    List.rdropWhile_concat_pos _ _ _ (by simp), hstays]

/-- Assumes: the separator is not to keep. A text that is collapsed and stripped is its words, joined. -/
theorem strip_collapse (hseparator : keep separator = false) (text : List α) :
    strip separator (collapse keep separator text) = List.intercalate [separator] (words keep text) := by
  obtain ⟨front, hcollapse, hfront⟩ := exists_collapse keep separator text
  obtain ⟨tail, hrest, htail⟩ := exists_collapseFrom keep separator text
  have hstripped : strip separator (collapseFrom keep separator true text) =
      List.intercalate [separator] (words keep text) := by
    rw [hrest]
    by_cases hwords : words keep text = []
    · obtain rfl := htail.resolve_right fun hafter ↦ hafter.2 hwords
      rw [hwords]
      rfl
    · have hjoined := joined_intercalate hseparator hwords fun _ hword ↦ isBlock_of_mem_words hword
      rcases htail with rfl | ⟨rfl, -⟩
      · rw [List.append_nil, strip_of_joined hjoined]
      · exact strip_concat_of_joined hjoined
  rcases hfront with rfl | rfl
  · rw [hcollapse, List.nil_append, hstripped]
  · rw [hcollapse, List.singleton_append, strip_cons, hstripped]

end Strip

end RallyApi.Text

import RallyApi.Text.Words

/-!
# Tenant slugs

`provisionTenant` makes the slug of a tenant from the name of the organisation and three random bytes.
`slugify` collapses what is not a letter or a digit to hyphens, takes hyphens off the ends and then cuts the
text at forty characters. The cut can be right after a hyphen, and the slug has two hyphens in a row then.

`tenantSlug_wellFormed_iff`: the slug is well formed exactly when the first words of the name, joined by
hyphens, are never thirty-nine characters long with more words to follow.
-/

set_option autoImplicit false
set_option relaxedAutoImplicit false

namespace RallyApi.Tenancy

open Text

/-! ### The slug -/

/-- What depends on the tables of Unicode: `toLowerCase()` and `normalize('NFKD')`. -/
structure Unicode where
  toLowerCase : String → String
  normalizeNfkd : String → String

/-- `[a-z0-9]`. -/
def isSlugChar (char : Char) : Bool := char.isLower || char.isDigit

/-- The characters of a name, in lower case and decomposed. -/
def Unicode.normalise (unicode : Unicode) (name : String) : List Char :=
  (unicode.normalizeNfkd (unicode.toLowerCase name)).toList

/-- The characters of what `slugify` returns. An empty text is falsy. -/
def slugify (unicode : Unicode) (name : String) : List Char :=
  let fragment := (strip '-' (collapse isSlugChar '-' (unicode.normalise name))).take 40
  if fragment = [] then "org".toList else fragment

/-- A byte, as two hex digits. -/
def hexByte (byte : UInt8) : List Char :=
  [Nat.digitChar (byte.toNat / 16), Nat.digitChar (byte.toNat % 16)]

/-- `bytes.toString('hex')`. -/
def toHex (bytes : Vector UInt8 3) : List Char := bytes.toList.flatMap hexByte

/-- The characters of the slug that `provisionTenant` makes of a name and the bytes it has drawn. -/
def tenantSlug (unicode : Unicode) (orgName : String) (bytes : Vector UInt8 3) : List Char :=
  (slugify unicode orgName ++ '-' :: toHex bytes).take 63

/-! ### The property and the condition -/

/-- A slug is well formed: it has at most 63 characters, matches `[a-z0-9]+(-[a-z0-9]+)*`, and ends with a
hyphen and the six digits of the random suffix. -/
structure WellFormed (slug : List Char) (bytes : Vector UInt8 3) : Prop where
  length : slug.length ≤ 63
  shape : Text.Joined isSlugChar '-' slug
  suffix : ∃ fragment, slug = fragment ++ '-' :: toHex bytes ∧ (toHex bytes).length = 6

/-- The condition: the first words of the name, joined by hyphens, are not thirty-nine characters long,
unless they are all of its words. -/
def CutsWell (unicode : Unicode) (orgName : String) : Prop :=
  ∀ count, 0 < count → count < (words isSlugChar (unicode.normalise orgName)).length →
    (List.intercalate ['-'] ((words isSlugChar (unicode.normalise orgName)).take count)).length ≠ 39

/-! ### The parts of a slug -/

variable {unicode : Unicode} {orgName : String} {bytes : Vector UInt8 3}

theorem isSlugChar_hyphen : isSlugChar '-' = false := rfl

theorem length_toHex (bytes : Vector UInt8 3) : (toHex bytes).length = 6 := by
  simp [toHex, hexByte, List.length_flatMap]

theorem isSlugChar_digitChar {digit : ℕ} (hdigit : digit < 16) :
    isSlugChar (Nat.digitChar digit) = true := by
  have hall : ∀ digit : Fin 16, isSlugChar (Nat.digitChar digit) = true := by decide
  exact hall ⟨digit, hdigit⟩

theorem isBlock_toHex (bytes : Vector UInt8 3) : IsBlock isSlugChar (toHex bytes) := by
  refine ⟨fun hnil ↦ ?_, fun char hchar ↦ ?_⟩
  · have hlength := length_toHex bytes
    rw [hnil] at hlength
    cases hlength
  · obtain ⟨byte, -, hbyte⟩ := List.mem_flatMap.mp hchar
    have hbound : byte.toNat < 256 := byte.toNat_lt
    simp only [hexByte, List.mem_cons, List.not_mem_nil, or_false] at hbyte
    rcases hbyte with rfl | rfl <;> exact isSlugChar_digitChar (by omega)

theorem isBlock_org : IsBlock isSlugChar "org".toList := by
  have hall : ("org".toList.all isSlugChar) = true := by decide
  exact ⟨by decide, List.all_eq_true.mp hall⟩

theorem length_slugify_le (unicode : Unicode) (orgName : String) :
    (slugify unicode orgName).length ≤ 40 := by
  unfold slugify
  dsimp only
  split_ifs
  · decide
  · exact List.length_take_le _ _

/-- A slug is short enough not to be cut at its end. -/
theorem tenantSlug_eq (unicode : Unicode) (orgName : String) (bytes : Vector UInt8 3) :
    tenantSlug unicode orgName bytes = slugify unicode orgName ++ '-' :: toHex bytes := by
  refine List.take_of_length_le ?_
  have hlength := length_slugify_le unicode orgName
  rw [List.length_append, List.length_cons, length_toHex]
  omega

/-- The words of the name, joined and cut, unless there are none. -/
theorem slugify_eq (unicode : Unicode) (orgName : String) : slugify unicode orgName =
    if words isSlugChar (unicode.normalise orgName) = [] then "org".toList
    else (List.intercalate ['-'] (words isSlugChar (unicode.normalise orgName))).take 40 := by
  unfold slugify
  dsimp only
  rw [strip_collapse isSlugChar_hyphen]
  cases hwords : words isSlugChar (unicode.normalise orgName) with
  | nil => rfl
  | cons word rest =>
    have hblocks : ∀ block ∈ word :: rest, IsBlock isSlugChar block := fun _ hblock ↦
      isBlock_of_mem_words (hwords ▸ hblock)
    have hjoined := joined_intercalate isSlugChar_hyphen (List.cons_ne_nil word rest) hblocks
    have hne : (List.intercalate ['-'] (word :: rest)).take 40 ≠ [] := fun hnil ↦
      not_joined_nil ((List.take_eq_nil_iff.mp hnil).resolve_left (by decide) ▸ hjoined)
    rw [if_neg hne, if_neg (List.cons_ne_nil _ _)]

/-! ### When a slug is well formed -/

/-- A slug is joined exactly if the part before the suffix is. -/
theorem joined_tenantSlug_iff :
    Text.Joined isSlugChar '-' (tenantSlug unicode orgName bytes) ↔
      Text.Joined isSlugChar '-' (slugify unicode orgName) := by
  rw [tenantSlug_eq, joined_append,
    and_iff_left (joined_of_isBlock isSlugChar_hyphen (isBlock_toHex bytes))]

/-- `slugify` gives joined blocks exactly if it does not cut right after a hyphen. -/
theorem joined_slugify_iff :
    Text.Joined isSlugChar '-' (slugify unicode orgName) ↔ CutsWell unicode orgName := by
  rw [slugify_eq, CutsWell]
  split_ifs with hwords
  · rw [hwords]
    refine iff_of_true (joined_of_isBlock isSlugChar_hyphen isBlock_org) fun count _ hless ↦ ?_
    exact absurd hless (Nat.not_lt_zero count)
  · have hblocks : ∀ block ∈ words isSlugChar (unicode.normalise orgName), IsBlock isSlugChar block :=
      fun _ ↦ isBlock_of_mem_words
    rw [joined_take_iff isSlugChar_hyphen hwords hblocks (by decide)]
    refine forall₃_congr fun count _ _ ↦ ?_
    rw [Ne, Ne, Nat.succ_inj]

/-- The slug of a tenant is well formed exactly if the name is not cut right after a hyphen. -/
theorem tenantSlug_wellFormed_iff (unicode : Unicode) (orgName : String) (bytes : Vector UInt8 3) :
    WellFormed (tenantSlug unicode orgName bytes) bytes ↔ CutsWell unicode orgName := by
  refine ⟨fun hformed ↦ joined_slugify_iff.mp (joined_tenantSlug_iff.mp hformed.shape), fun hcuts ↦ ?_⟩
  exact ⟨List.length_take_le _ _, joined_tenantSlug_iff.mpr (joined_slugify_iff.mpr hcuts),
    slugify unicode orgName, tenantSlug_eq unicode orgName bytes, length_toHex bytes⟩

/-- Lower case and decomposition of ASCII names. -/
def ascii : Unicode := ⟨fun name ↦ String.ofList (name.toList.map Char.toLower), id⟩

/-- A slug may have a double hyphen: the name is cut after "interdisciplinary-research-laboratories-", and
a hyphen follows. -/
theorem doubledHyphen :
    ¬ ∀ (unicode : Unicode) (orgName : String) (bytes : Vector UInt8 3),
      WellFormed (tenantSlug unicode orgName bytes) bytes := by
  intro halways
  have hempty : [] ∈ (tenantSlug ascii "Interdisciplinary Research Laboratories Ltd"
      #v[0x0a, 0x1b, 0x2c]).splitOn '-' := by decide +kernel
  exact ((halways ascii _ _).shape [] hempty).1 rfl

end RallyApi.Tenancy

import ColorTokens.Proofs.Path
import ColorTokens.Proofs.Path.Cleaning

/-! What exclusions cover. One without wildcards covers the paths whose components begin with its
own, once it is cleaned; so the order of exclusions, repetitions and those that continue others do
not matter, and exclusions that are cleaned to different paths cover different ones. -/

set_option autoImplicit false

namespace ColorTokens.Path

open ColorTokens.Text

section Below

variable {base path : List Char}

theorem pieces_eq_splitOn (text : List Char) : pieces text = text.splitOn '/' := by
  induction text with
  | nil => simp [pieces]
  | cons c rest ih =>
    rw [pieces, ih, List.splitOn_cons_eq_if_modifyHead]
    split
    · rfl
    · cases shape : List.splitOn '/' rest with
      | nil => exact absurd shape (List.splitOn_ne_nil '/' rest)
      | cons piece more => rfl

theorem intercalate_pieces (text : List Char) : ['/'].intercalate (pieces text) = text := by
  rw [pieces_eq_splitOn, List.intercalate_splitOn]

theorem pieces_injective : Function.Injective pieces := by
  intro text text' same
  rw [← intercalate_pieces text, same, intercalate_pieces]

theorem intercalate_append {front back : List (List Char)} (first : front ≠ [])
    (second : back ≠ []) : ['/'].intercalate (front ++ back) =
      ['/'].intercalate front ++ '/' :: ['/'].intercalate back := by
  induction front with
  | nil => exact absurd rfl first
  | cons piece front ih =>
    cases front with
    | nil => rw [List.singleton_append, List.intercalate_cons_of_ne_nil second]; simp
    | cons next front =>
      have later := ih (by simp)
      rw [List.cons_append] at later
      rw [List.cons_append, List.cons_append, List.intercalate_cons_cons, later,
        List.intercalate_cons_cons]
      simp only [List.append_assoc]

/-- The components of a path begin with those of another exactly when it continues that path at a
slash, if at all. -/
theorem pieces_prefix_iff :
    pieces base <+: pieces path ↔ path = base ∨ ∃ rest, path = base ++ '/' :: rest := by
  constructor
  · rintro ⟨more, whole⟩
    cases more with
    | nil =>
      rw [List.append_nil] at whole
      exact .inl (pieces_injective whole).symm
    | cons piece more =>
      have joined := congrArg (['/'].intercalate ·) whole
      simp only [intercalate_append (pieces_ne_nil base) (List.cons_ne_nil piece more),
        intercalate_pieces] at joined
      exact .inr ⟨_, joined.symm⟩
  · rintro (rfl | ⟨rest, rfl⟩)
    · exact List.prefix_rfl
    · rw [pieces_append_slash]
      exact List.prefix_append _ _

theorem isBelow_iff : isBelow base path = true ↔ pieces base <+: pieces path := by
  rw [pieces_prefix_iff, isBelow, Bool.or_eq_true, Bool.and_eq_true, beq_iff_eq, beq_iff_eq,
    List.isPrefixOf_iff_prefix]
  refine or_congr_right ⟨?_, ?_⟩
  · rintro ⟨⟨rest, rfl⟩, next⟩
    rw [List.drop_left] at next
    obtain ⟨more, rfl⟩ := List.head?_eq_some_iff.mp next
    exact ⟨more, rfl⟩
  · rintro ⟨rest, rfl⟩
    exact ⟨List.prefix_append _ _, by simp⟩

end Below

section Covering

variable {text : List Char} {entry extended : String} {path : List Char} {isMatch : Matcher}

theorem isPattern_normalizeChars (plain : isPattern text = false) :
    isPattern (normalizeChars text) = false := by
  have kept : ∀ mark, mark ≠ '/' → mark ∉ text → mark ∉ normalizeChars text := by
    intro mark other absent member
    rcases mem_normalizeChars member with slash | ⟨known, -⟩
    · exact other slash
    · exact absent known
  simp only [isPattern, Bool.or_eq_false_iff, List.contains_eq_mem, decide_eq_false_iff_not]
    at plain ⊢
  exact ⟨kept '*' (by decide) plain.1, kept '?' (by decide) plain.2⟩

theorem toList_normalizeExclusion (entry : String) :
    (normalizeExclusion entry).toList = normalizeChars entry.toList := by
  rw [normalizeExclusion, String.toList_ofList]

theorem covers_congr {entry' : String}
    (same : normalizeChars entry.toList = normalizeChars entry'.toList) (path : List Char) :
    covers entry path isMatch = covers entry' path isMatch := by
  simp only [covers, same]

theorem covers_iff (plain : isPattern entry.toList = false) :
    covers entry path isMatch = true ↔
      normalizeChars entry.toList ≠ [] ∧ pieces (normalizeChars entry.toList) <+: pieces path := by
  by_cases blank : normalizeChars entry.toList = []
  · simp [covers, blank]
  · simp [covers, blank, isPattern_normalizeChars plain, isBelow_iff]

def Extends (extended entry : String) : Prop :=
  pieces (normalizeExclusion entry).toList <+: pieces (normalizeExclusion extended).toList

theorem covers_of_extends (plain : isPattern entry.toList = false)
    (plain' : isPattern extended.toList = false) (longer : Extends extended entry)
    (covered : covers extended path isMatch = true) : covers entry path isMatch = true := by
  rw [Extends, toList_normalizeExclusion, toList_normalizeExclusion] at longer
  obtain ⟨nonempty, above⟩ := (covers_iff plain').mp covered
  refine (covers_iff plain).mpr ⟨fun blank => ?_, longer.trans above⟩
  rw [blank, pieces_prefix_iff] at longer
  rcases longer with same | ⟨rest, slash⟩
  · exact nonempty same
  · exact (cleaned_normalizeChars extended.toList).first (by rw [slash]; rfl)

/-- Exclusions of different paths cover different paths. -/
theorem exists_covers_ne (plain : isPattern entry.toList = false)
    (other : normalizeChars (normalizeChars entry.toList) ≠ normalizeChars entry.toList) :
    ∃ path, covers entry path isMatch ≠ covers (normalizeExclusion entry) path isMatch := by
  have plain' : isPattern (normalizeExclusion entry).toList = false := by
    rw [toList_normalizeExclusion]
    exact isPattern_normalizeChars plain
  by_contra alike
  simp only [not_exists, ne_eq, not_not, Bool.eq_iff_iff, covers_iff plain, covers_iff plain',
    toList_normalizeExclusion] at alike
  have nonempty : normalizeChars entry.toList ≠ [] := by
    intro blank
    rw [blank] at other
    exact other (by decide)
  obtain ⟨nonempty', above⟩ := (alike _).mp ⟨nonempty, List.prefix_rfl⟩
  obtain ⟨-, below⟩ := (alike _).mpr ⟨nonempty', List.prefix_rfl⟩
  exact other (pieces_injective (above.eq_of_length_le below.length_le))

theorem isExcluded_singleton (entry path : String) :
    isExcluded [entry] path isMatch = covers entry path.toList isMatch := by
  simp [isExcluded]

theorem isAllowed_congr {exclude exclude' : List String} {path : String}
    (same : isExcluded exclude (forwardSlashes path) isMatch =
      isExcluded exclude' (forwardSlashes path) isMatch)
    (suffixes : List String) :
    isAllowed suffixes exclude path isMatch = isAllowed suffixes exclude' path isMatch := by
  simp only [isAllowed, same]

/-- Exclusions without wildcards cover the paths whose components begin with those of an entry, once
it is cleaned, however wildcards are read. What is allowed depends on no order of the entries and on
no repetition, nor on an entry that continues another one. -/
theorem isExcluded_iff_components (isMatch : Matcher) (entries : List String)
    (plain : ∀ entry ∈ entries, isPattern entry.toList = false) (path : String) :
    (isExcluded entries path isMatch = true ↔
      ∃ entry ∈ entries, normalizeExclusion entry ≠ "" ∧
        pieces (normalizeExclusion entry).toList <+: pieces path.toList) ∧
    (∀ suffixes entries' : List String, (∀ entry, entry ∈ entries' ↔ entry ∈ entries) →
      isAllowed suffixes entries' path isMatch = isAllowed suffixes entries path isMatch) ∧
    ∀ (suffixes front back : List String) (entry extended : String), entries = front ++ back →
      entry ∈ entries → isPattern extended.toList = false → Extends extended entry →
      isAllowed suffixes (front ++ extended :: back) path isMatch =
        isAllowed suffixes entries path isMatch := by
  refine ⟨?_, fun suffixes entries' same => ?_, ?_⟩
  · rw [isExcluded, List.any_eq_true]
    refine exists_congr fun entry => and_congr_right fun member => ?_
    rw [covers_iff (plain entry member), ne_eq, ne_eq, ← toList_normalizeExclusion,
      String.toList_eq_nil_iff]
  · refine isAllowed_congr ?_ suffixes
    rw [Bool.eq_iff_iff, isExcluded, isExcluded, List.any_eq_true, List.any_eq_true]
    simp only [same]
  · rintro suffixes front back entry extended rfl member plain' longer
    refine isAllowed_congr ?_ suffixes
    -- What the longer entry covers is covered by the one that it continues.
    have known : covers extended (forwardSlashes path).toList isMatch = true →
        isExcluded (front ++ back) (forwardSlashes path) isMatch = true := fun covered =>
      List.any_eq_true.mpr
        ⟨entry, member, covers_of_extends (plain entry member) plain' longer covered⟩
    rw [isExcluded, List.any_append] at known ⊢
    rw [isExcluded, List.any_append, List.any_cons]
    grind

/-- An entry with blanks, dots, slashes and backslashes around its two components. -/
theorem isExcluded_iff_components_spaced :
    (∀ entry ∈ [" ./.\\ui\\légacy/ "], isPattern entry.toList = false) ∧
    isExcluded [" ./.\\ui\\légacy/ "] "ui/légacy//old.tsx" = true ∧
    isExcluded [" ./.\\ui\\légacy/ "] "ui/légacy2/new.tsx" = false := by
  have plain : ∀ entry ∈ [" ./.\\ui\\légacy/ "], isPattern entry.toList = false := by
    rw [List.forall_mem_singleton]
    decide
  refine ⟨plain, ?_, ?_⟩
  · refine (isExcluded_iff_components Wildcard.isMatch _ plain _).1.mpr ⟨_, List.mem_singleton_self _, ?_⟩
    decide +kernel
  · rw [Bool.eq_false_iff, ne_eq, (isExcluded_iff_components Wildcard.isMatch _ plain _).1]
    simp only [List.mem_singleton, exists_eq_left]
    decide +kernel

/-- Cleaning always gives a path without a slash at either end and without backslashes that is no
single dot. It is in canonical form, and kept by a second cleaning, exactly when no step uncovers
anything for an earlier one; then it excludes what the entry does, and otherwise, if it is no
pattern, something else. -/
theorem normalizeExclusion_canonical_iff (isMatch : Matcher) (entry : String) :
    Cleaned (normalizeExclusion entry).toList ∧
    (Canonical (normalizeExclusion entry).toList ↔ ¬ Uncovers (slashed entry.toList)) ∧
    (normalizeExclusion (normalizeExclusion entry) = normalizeExclusion entry ↔
      ¬ Uncovers (slashed entry.toList)) ∧
    (¬ Uncovers (slashed entry.toList) →
      ∀ path, isExcluded [entry] path isMatch =
        isExcluded [normalizeExclusion entry] path isMatch) ∧
    (isPattern entry.toList = false → Uncovers (slashed entry.toList) →
      ∃ path, isExcluded [entry] path isMatch ≠
        isExcluded [normalizeExclusion entry] path isMatch) := by
  have fixed : normalizeExclusion (normalizeExclusion entry) = normalizeExclusion entry ↔
      normalizeChars (normalizeChars entry.toList) = normalizeChars entry.toList := by
    rw [← String.toList_inj, toList_normalizeExclusion, toList_normalizeExclusion]
  simp only [fixed, normalizeChars_eq_self_iff, toList_normalizeExclusion,
    canonical_normalizeChars_iff, isExcluded_singleton, true_and]
  refine ⟨cleaned_normalizeChars entry.toList, fun covered path => covers_congr ?_ _,
    fun plain uncovers => ?_⟩
  · rw [toList_normalizeExclusion]
    exact (normalizeChars_of_canonical (canonical_normalizeChars_iff.mpr covered)).symm
  · have other := mt normalizeChars_eq_self_iff.mp
      (mt canonical_normalizeChars_iff.mp (not_not_intro uncovers))
    obtain ⟨path, differ⟩ := exists_covers_ne plain other
    exact ⟨String.ofList path, by rwa [String.toList_ofList]⟩

/-- Slashes that hide a dot, and blanks that a dot or a slash hides. -/
theorem normalizeExclusion_leaves_here :
    normalizeExclusion "/./a" = "./a" ∧ normalizeExclusion "./a" = "a" ∧
    isExcluded ["/./a"] "a" = false ∧ isExcluded ["./a"] "a" = true ∧
    normalizeExclusion "./ a" = " a" ∧ normalizeExclusion "a /" = "a " := by
  decide +kernel

end Covering

end ColorTokens.Path

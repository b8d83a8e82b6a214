import ColorTokens.Proofs.Color.Canonical
import ColorTokens.Proofs.Text.Lowercase

/-! A canonical colour is its own canonical form. Its letters stay as they are, no blank surrounds
it, and the arguments of a function are read back from the one way of spacing them. -/

set_option autoImplicit false

namespace ColorTokens.Color

open ColorTokens.Text

section Arguments

variable {word rest : List Char} {arguments : List Argument}

theorem Argument.ofText_space (rest : List Char) :
    Argument.ofText (' ' :: rest) = Argument.ofText rest := by
  rw [Argument.ofText, if_neg (by decide), if_neg (by decide), if_pos (by decide)]

theorem Argument.ofText_comma (rest : List Char) :
    Argument.ofText (',' :: rest) = .comma :: Argument.ofText rest := by
  rw [Argument.ofText, if_pos (by decide)]

theorem Argument.ofText_slash (rest : List Char) :
    Argument.ofText ('/' :: rest) = .slash :: Argument.ofText rest := by
  rw [Argument.ofText, if_neg (by decide), if_pos (by decide)]

theorem Argument.ofText_word (nonempty : word ≠ []) (letters : ∀ c ∈ word, isArgumentChar c = true)
    (ends : ∀ c ∈ rest.head?, isArgumentChar c = false) :
    Argument.ofText (word ++ rest) = .word word :: Argument.ofText rest := by
  induction word with
  | nil => exact absurd rfl nonempty
  | cons c word ih =>
    obtain ⟨letter, others⟩ := List.forall_mem_cons.mp letters
    rw [List.cons_append, Argument.ofText_letter letter]
    -- The last letter begins the word; every letter before it joins what was read behind it.
    cases word with
    | nil =>
      have stops : rest.head?.any isArgumentChar = false := by
        cases first : rest.head? with
        | none => rfl
        | some d => exact ends d first
      rw [List.nil_append, stops]
      rfl
    | cons d word =>
      have goes : ((d :: word) ++ rest).head?.any isArgumentChar = true :=
        others d List.mem_cons_self
      rw [ih (List.cons_ne_nil d word) others, goes]
      rfl

/-- Behind a rendered word stands nothing that would make it longer. -/
theorem Argument.exists_render_behind (word : List Char) (arguments : List Argument) :
    ∃ rest, Argument.render (.word word :: arguments) = word ++ rest ∧
      Argument.ofText rest = Argument.ofText (Argument.render arguments) ∧
      ∀ c ∈ rest.head?, isArgumentChar c = false := by
  cases arguments with
  | nil => exact ⟨[], by simp [Argument.render], rfl, by simp⟩
  | cons argument more =>
    cases argument with
    | slash =>
      exact ⟨Argument.render (.slash :: more), rfl, rfl, by simp [Argument.render]; decide⟩
    | comma =>
      obtain ⟨gap, -, written⟩ := exists_render_comma more
      refine ⟨Argument.render (.comma :: more), rfl, rfl, ?_⟩
      rw [written]
      simp
      decide
    -- Only two words in a row need a space between them, and it is read as nothing.
    | word next =>
      refine ⟨' ' :: Argument.render (.word next :: more), ?_, Argument.ofText_space _, ?_⟩
      · conv => lhs; unfold Argument.render
        simp
      · simp
        decide

theorem Argument.ofText_render (whole : ∀ word, .word word ∈ arguments →
      word ≠ [] ∧ ∀ c ∈ word, isArgumentChar c = true) :
    Argument.ofText (Argument.render arguments) = arguments := by
  induction arguments with
  | nil => rfl
  | cons argument more ih =>
    have others := ih fun word member => whole word (List.mem_cons_of_mem _ member)
    cases argument with
    | slash =>
      change Argument.ofText (' ' :: '/' :: ' ' :: Argument.render more) = _
      rw [Argument.ofText_space, Argument.ofText_slash, Argument.ofText_space, others]
    | comma =>
      obtain ⟨gap, spaced, written⟩ := exists_render_comma more
      rw [written, Argument.ofText_comma]
      rcases spaced with rfl | rfl
      · rw [List.nil_append, others]
      · rw [List.singleton_append, Argument.ofText_space, others]
    | word word =>
      obtain ⟨nonempty, letters⟩ := whole word List.mem_cons_self
      obtain ⟨rest, written, same, ends⟩ := Argument.exists_render_behind word more
      rw [written, Argument.ofText_word nonempty letters ends, same, others]

end Arguments

section Canonical

variable {text color name inner : List Char}

theorem bare_functionName (listed : name ∈ functionNames) :
    ∀ c ∈ name, isParenthesis c = false := by
  have all : functionNames.all (fun name => name.all (!isParenthesis ·)) = true := by decide
  simpa using List.all_eq_true.mp (List.all_eq_true.mp all name listed)

theorem canonicalFunction?_of_parts (listed : name ∈ functionNames)
    (bare : ∀ c ∈ inner, isParenthesis c = false) :
    canonicalFunction? (name ++ '(' :: (inner ++ [')'])) =
      some (name ++ '(' :: (Argument.render (Argument.ofText inner) ++ [')'])) := by
  have named : ∀ c ∈ name, (!isParenthesis c) = true := by simpa using bare_functionName listed
  have bare' : ∀ c ∈ inner, (!isParenthesis c) = true := by simpa using bare
  have opens : ∀ c ∈ ('(' :: (inner ++ [')'])).head?, (!isParenthesis c) = false := by
    simp [isParenthesis]
  have closes : ∀ c ∈ [')'].head?, (!isParenthesis c) = false := by
    simp [isParenthesis]
  unfold canonicalFunction?
  simp [takeWhile_run named opens, dropWhile_run named opens, takeWhile_run bare' closes,
    dropWhile_run bare' closes, listed]

theorem canonicalLower?_of_hex {digits : List Char} (hex : ∀ c ∈ digits, isHexDigit c = true)
    (count : digits.length = 6 ∨ digits.length = 8) :
    canonicalLower? ('#' :: digits) = some ('#' :: digits) := by
  unfold canonicalLower?
  rw [if_neg (by simp), if_neg (by simp)]
  simp only [canonicalHex?, List.all_eq_true.mpr hex, if_true]
  rcases count with count | count <;> simp only [count]

theorem canonicalLower?_of_function (listed : name ∈ functionNames) (rest : List Char) :
    canonicalLower? (name ++ '(' :: rest) = canonicalFunction? (name ++ '(' :: rest) := by
  simp only [functionNames, List.mem_cons, List.not_mem_nil, or_false] at listed
  rcases listed with rfl | rfl | rfl | rfl <;> rfl

/-- What a canonical colour adds to the text it was made from. -/
def signs : List Char :=
  ['#', 'f', '0', '(', ')', ' ', ',', '/']

theorem mem_of_canonicalLower? (made : canonicalLower? text = some color) {c : Char}
    (member : c ∈ color) : c ∈ text ∨ c ∈ signs := by
  rcases canonicalLower?_cases made with
    ⟨long, rfl, digits, -⟩ | ⟨name, -, inner, -, rfl, rfl⟩
  · rcases List.mem_cons.mp member with rfl | member
    · exact .inr (by decide)
    · have doubled : ['f', '0'] ⊆ signs := by simp [signs]
      exact (digits c member).2.imp_right fun digit => doubled digit
  · simp only [List.mem_append, List.mem_cons, List.not_mem_nil, or_false] at member
    rcases member with named | rfl | rendered | rfl
    · exact .inl (List.mem_append_left _ named)
    · exact .inr (by decide)
    · rcases Argument.mem_render rendered with sign | ⟨word, read, letter⟩
      · have spaced : [' ', ',', '/'] ⊆ signs := by simp [signs]
        exact .inr (spaced sign)
      · have inside := ((Argument.mem_of_ofText read).2 c letter).2
        exact .inl (by simp [inside])
    · exact .inr (by decide)

theorem canonicalLower?_fixed (made : canonicalLower? text = some color) :
    canonicalLower? color = some color := by
  rcases canonicalLower?_cases made with
    ⟨long, rfl, digits, count⟩ | ⟨name, listed, inner, bare, -, rfl⟩
  · exact canonicalLower?_of_hex (fun c member => (digits c member).1) count
  · have worded := Argument.worded_ofText bare
    have read : Argument.ofText (Argument.render (Argument.ofText inner)) =
        Argument.ofText inner := by
      apply Argument.ofText_render
      intro word read
      obtain ⟨nonempty, letters⟩ := Argument.mem_of_ofText read
      exact ⟨nonempty, fun c member => (letters c member).1⟩
    rw [canonicalLower?_of_function listed,
      canonicalFunction?_of_parts listed (not_isParenthesis_of_mem_render worded), read]

theorem canonical?_fixed (made : canonical? text = some color) :
    canonical? color = some color := by
  obtain ⟨first, last⟩ := dark_ends (isCanonical_of_canonical? made)
  have lowered : ∀ c ∈ color, Lowered c := by
    intro c member
    rcases mem_of_canonicalLower? made member with inside | sign
    · exact lowered_of_mem_lowercase inside
    · have small : signs.all (fun c => decide (Lowered c)) = true := by decide
      exact of_decide_eq_true (List.all_eq_true.mp small c sign)
  rw [canonical?, trim_of_dark first last, lowercase_of_lowered lowered, canonicalLower?_fixed made]

theorem normalize?_fixed {raw color : String} (made : normalize? raw = some color) :
    normalize? color = some color := by
  obtain ⟨text, read, rfl⟩ := Option.map_eq_some_iff.mp made
  rw [normalize?, String.toList_ofList, canonical?_fixed read, Option.map_some]

/-- A class of characters that holds all small letters and signs holds a canonical colour's if it
holds those of its text. -/
theorem forall_of_canonical? {p : Char → Bool} (made : canonical? text = some color)
    (letters : ∀ c : Char, 97 ≤ c.toNat ∧ c.toNat ≤ 122 ∨ 128 ≤ c.toNat → p c = true)
    (marks : signs.all p = true) (all : ∀ c ∈ text, p c = true) : ∀ c ∈ color, p c = true := by
  intro c member
  rcases mem_of_canonicalLower? made member with inside | sign
  · rcases mem_or_letter_of_mem_lowercase inside with kept | letter
    · exact all c (mem_of_mem_trim kept)
    · exact letters c letter
  · exact List.all_eq_true.mp marks c sign

end Canonical

end ColorTokens.Color

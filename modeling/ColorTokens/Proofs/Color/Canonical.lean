import ColorTokens.Color.Canonical
import ColorTokens.Proofs.Color.Literal
import ColorTokens.Proofs.Source.Block
import ColorTokens.Proofs.Source.Declaration
import ColorTokens.Proofs.Text.Runs

/-! The shape of canonical colours. They are long hexadecimal literals or functional notation in
one spacing; so each is one literal, none refers to a token, and where one stands in code a slash
in it never begins a comment. -/

set_option autoImplicit false

namespace ColorTokens.Color

open ColorTokens.Text

/-- An argument that could have been read from a text without parentheses. -/
def Argument.Worded : Argument → Prop
  | .word text => ∀ c ∈ text, isArgumentChar c = true ∧ isParenthesis c = false
  | _ => True

inductive IsCanonical : List Char → Prop where
  | hex {digits : List Char} : (∀ c ∈ digits, isHexDigit c = true) →
      digits.length = 6 ∨ digits.length = 8 → IsCanonical ('#' :: digits)
  | function {name : List Char} {arguments : List Argument} : name ∈ functionNames →
      (∀ argument ∈ arguments, argument.Worded) →
      IsCanonical (name ++ '(' :: (Argument.render arguments ++ [')']))

section Shape

variable {text word color : List Char}

/-- A letter before arguments; it joins a word that begins right behind it. -/
def Argument.prepend (c : Char) : Bool → List Argument → List Argument
  | true, .word text :: more => .word (c :: text) :: more
  | _, arguments => .word [c] :: arguments

theorem Argument.ofText_letter {c : Char} (letter : isArgumentChar c = true) (rest : List Char) :
    Argument.ofText (c :: rest) =
      Argument.prepend c (rest.head?.any isArgumentChar) (Argument.ofText rest) := by
  simp only [isArgumentChar, Bool.and_eq_true, Bool.not_eq_true', bne_iff_ne, ne_eq] at letter
  rw [Argument.ofText, if_neg (by simpa using letter.1.2), if_neg (by simpa using letter.2),
    if_neg (by simp [letter.1.1])]
  cases Argument.ofText rest with
  | nil => cases rest.head?.any isArgumentChar <;> rfl
  | cons argument more => cases argument <;> cases rest.head?.any isArgumentChar <;> rfl

theorem Argument.mem_of_ofText (read : .word word ∈ Argument.ofText text) :
    word ≠ [] ∧ ∀ c ∈ word, isArgumentChar c = true ∧ c ∈ text := by
  induction text generalizing word with
  | nil => cases read
  | cons c text ih =>
    have behind {word : List Char} (read : .word word ∈ Argument.ofText text) :
        word ≠ [] ∧ ∀ d ∈ word, isArgumentChar d = true ∧ d ∈ c :: text :=
      ⟨(ih read).1, fun d member =>
        ⟨((ih read).2 d member).1, List.mem_cons_of_mem c ((ih read).2 d member).2⟩⟩
    by_cases letter : isArgumentChar c = true
    · have here : isArgumentChar c = true ∧ c ∈ c :: text := ⟨letter, List.mem_cons_self⟩
      rw [Argument.ofText_letter letter] at read
      unfold Argument.prepend at read
      split at read
      -- The letter joins the word that is read right behind it.
      · next longer more _ found =>
        rcases List.mem_cons.mp read with same | read
        · obtain ⟨-, letters⟩ := behind (found ▸ List.mem_cons_self)
          cases same
          exact ⟨List.cons_ne_nil c longer, List.forall_mem_cons.mpr ⟨here, letters⟩⟩
        · exact behind (found ▸ List.mem_cons_of_mem _ read)
      · rcases List.mem_cons.mp read with same | read
        · cases same
          exact ⟨List.cons_ne_nil c [], List.forall_mem_singleton.mpr here⟩
        · exact behind read
    · have skipped : .word word ∈ Argument.ofText text := by
        unfold Argument.ofText at read
        split at read
        · simpa using read
        · split at read
          · simpa using read
          · split at read
            · exact read
            · next comma slash blank =>
              rw [beq_iff_eq] at comma slash
              exact absurd (by simp [isArgumentChar, comma, slash, blank]) letter
      exact behind skipped

theorem Argument.worded_ofText (bare : ∀ c ∈ text, isParenthesis c = false) :
    ∀ argument ∈ Argument.ofText text, argument.Worded := by
  intro argument read
  cases argument with
  | comma => trivial
  | slash => trivial
  | word word =>
    intro c member
    obtain ⟨letter, inside⟩ := (Argument.mem_of_ofText read).2 c member
    exact ⟨letter, bare c inside⟩

theorem exists_of_canonicalHex? {digits : List Char} (made : canonicalHex? digits = some color) :
    ∃ long, color = '#' :: long ∧ (∀ c ∈ long, isHexDigit c = true ∧ c ∈ digits) ∧
      (long.length = 6 ∨ long.length = 8) := by
  unfold canonicalHex? at made
  split at made
  · next hex =>
    rw [List.all_eq_true] at hex
    have kept : ∀ c ∈ digits, isHexDigit c = true ∧ c ∈ digits := fun c member =>
      ⟨hex c member, member⟩
    -- Three and four digits stand for twice as many, six and eight for themselves.
    have doubled : ∀ c ∈ digits.flatMap fun digit => [digit, digit],
        isHexDigit c = true ∧ c ∈ digits := by
      intro c member
      obtain ⟨digit, listed, twice⟩ := List.mem_flatMap.mp member
      obtain rfl : c = digit := by simpa using twice
      exact kept c listed
    split at made
    · next three =>
      cases made
      exact ⟨_, rfl, doubled, .inl (by simp [List.length_flatMap, three])⟩
    · next four =>
      cases made
      exact ⟨_, rfl, doubled, .inr (by simp [List.length_flatMap, four])⟩
    · next six =>
      cases made
      exact ⟨_, rfl, kept, .inl six⟩
    · next eight =>
      cases made
      exact ⟨_, rfl, kept, .inr eight⟩
    · cases made
  · cases made

theorem exists_of_canonicalFunction? (made : canonicalFunction? text = some color) :
    ∃ name ∈ functionNames, ∃ inner, (∀ c ∈ inner, isParenthesis c = false) ∧
      text = name ++ '(' :: (inner ++ [')']) ∧
      color = name ++ '(' :: (Argument.render (Argument.ofText inner) ++ [')']) := by
  unfold canonicalFunction? at made
  simp only at made
  split at made
  · next rest opened =>
    simp only [Option.ite_none_right_eq_some, Bool.and_eq_true, List.contains_iff_mem,
      beq_iff_eq, Option.some.injEq] at made
    obtain ⟨⟨listed, closed⟩, rfl⟩ := made
    refine ⟨_, listed, rest.takeWhile (!isParenthesis ·), fun c member => ?_, ?_, by simp⟩
    · simpa using List.mem_takeWhile_imp member
    · rw [← closed, List.takeWhile_append_dropWhile, ← opened, List.takeWhile_append_dropWhile]
  · cases made

theorem canonicalLower?_cases (made : canonicalLower? text = some color) :
    (∃ long, color = '#' :: long ∧
      (∀ c ∈ long, isHexDigit c = true ∧ (c ∈ text ∨ c ∈ ['f', '0'])) ∧
      (long.length = 6 ∨ long.length = 8)) ∨
    ∃ name ∈ functionNames, ∃ inner, (∀ c ∈ inner, isParenthesis c = false) ∧
      text = name ++ '(' :: (inner ++ [')']) ∧
      color = name ++ '(' :: (Argument.render (Argument.ofText inner) ++ [')']) := by
  unfold canonicalLower? at made
  split at made
  · cases made
    exact .inl ⟨"ffffff".toList, rfl, by simp [isHexDigit], .inl rfl⟩
  · split at made
    · cases made
      exact .inl ⟨"000000".toList, rfl, by simp [isHexDigit], .inl rfl⟩
    · split at made
      · obtain ⟨long, rfl, digits, count⟩ := exists_of_canonicalHex? made
        exact .inl ⟨long, rfl, fun c member => ⟨(digits c member).1,
          .inl (List.mem_cons_of_mem _ (digits c member).2)⟩, count⟩
      · exact .inr (exists_of_canonicalFunction? made)

theorem isCanonical_of_canonical? (made : canonical? text = some color) : IsCanonical color := by
  rcases canonicalLower?_cases made with
    ⟨long, rfl, digits, count⟩ | ⟨name, listed, inner, bare, -, rfl⟩
  · exact .hex (fun c member => (digits c member).1) count
  · exact .function listed (Argument.worded_ofText bare)

end Shape

section Rendering

open ColorTokens.Source

variable {arguments : List Argument} {depth : Nat}

theorem exists_render_comma (rest : List Argument) :
    ∃ gap, (gap = [] ∨ gap = [' ']) ∧
      Argument.render (.comma :: rest) = ',' :: (gap ++ Argument.render rest) := by
  conv => enter [1, gap, 2, 1]; unfold Argument.render
  split
  · exact ⟨[], .inl rfl, rfl⟩
  · exact ⟨[' '], .inr rfl, rfl⟩

theorem exists_render_word (text : List Char) (rest : List Argument) :
    ∃ gap, (gap = [] ∨ gap = [' ']) ∧
      Argument.render (.word text :: rest) = text ++ (gap ++ Argument.render rest) := by
  conv => enter [1, gap, 2, 1]; unfold Argument.render
  split
  · exact ⟨[' '], .inr rfl, List.append_assoc _ _ _⟩
  · exact ⟨[], .inl rfl, rfl⟩

theorem Argument.mem_render {c : Char} (member : c ∈ Argument.render arguments) :
    c ∈ [' ', ',', '/'] ∨ ∃ word, .word word ∈ arguments ∧ c ∈ word := by
  induction arguments with
  | nil => cases member
  | cons argument more ih =>
    have later (member : c ∈ Argument.render more) :
        c ∈ [' ', ',', '/'] ∨ ∃ word, .word word ∈ argument :: more ∧ c ∈ word :=
      (ih member).imp_right fun ⟨text, listed, inside⟩ =>
        ⟨text, List.mem_cons_of_mem _ listed, inside⟩
    have space {gap : List Char} (spaced : gap = [] ∨ gap = [' '])
        (member : c ∈ gap ++ Argument.render more) :
        c ∈ [' ', ',', '/'] ∨ ∃ word, .word word ∈ argument :: more ∧ c ∈ word := by
      rcases spaced with rfl | rfl
      · exact later member
      · rcases List.mem_cons.mp member with rfl | member
        · exact .inl (by decide)
        · exact later member
    cases argument with
    | slash =>
      rw [Argument.render, List.mem_append] at member
      rcases member with here | member
      · exact .inl (by revert here; simp; tauto)
      · exact later member
    | comma =>
      obtain ⟨gap, spaced, written⟩ := exists_render_comma more
      rw [written] at member
      rcases List.mem_cons.mp member with rfl | member
      · exact .inl (by decide)
      · exact space spaced member
    | word word =>
      obtain ⟨gap, spaced, written⟩ := exists_render_word word more
      rw [written, List.mem_append] at member
      rcases member with here | member
      · exact .inr ⟨word, List.mem_cons_self, here⟩
      · exact space spaced member

theorem not_isParenthesis_of_mem_render (worded : ∀ argument ∈ arguments, argument.Worded) :
    ∀ c ∈ Argument.render arguments, isParenthesis c = false := by
  intro c member
  rcases Argument.mem_render member with sign | ⟨word, listed, inside⟩
  · simp only [List.mem_cons, List.not_mem_nil, or_false] at sign
    rcases sign with rfl | rfl | rfl <;> rfl
  · exact (worded _ listed c inside).2

/-- A slash is set with a space behind it, so it begins no comment. -/
theorem walk_render (worded : ∀ argument ∈ arguments, argument.Worded)
    (bare : ∀ c ∈ Argument.render arguments, c ≠ '{' ∧ c ≠ '}' ∧ isQuote c = false) :
    walk (depth, .code) (Argument.render arguments) = some (depth, .code) := by
  induction arguments with
  | nil => rfl
  | cons argument rest ih =>
    obtain ⟨first, others⟩ := List.forall_mem_cons.mp worded
    cases argument with
    | slash =>
      rw [Argument.render] at bare ⊢
      -- The slash comes with a space behind it, and the walk is back in code there.
      rw [walk_append]
      exact ih others (List.forall_mem_append.mp bare).2
    | comma =>
      obtain ⟨gap, spaced, written⟩ := exists_render_comma rest
      rw [written] at bare ⊢
      rw [List.forall_mem_cons, List.forall_mem_append] at bare
      have rendered := ih others bare.2.2
      rcases spaced with rfl | rfl
      · exact rendered
      · exact rendered
    | word text =>
      obtain ⟨gap, spaced, written⟩ := exists_render_word text rest
      rw [written] at bare ⊢
      rw [List.forall_mem_append, List.forall_mem_append] at bare
      have rendered := ih others bare.2.2
      have plain : ∀ c ∈ text, isPlain c = true := by
        intro c member
        have word := (first c member).1
        simp only [isArgumentChar, Bool.and_eq_true, bne_iff_ne, ne_eq] at word
        obtain ⟨opening, closing, quote⟩ := bare.1 c member
        simp [isPlain, opening, closing, word.2, quote]
      rw [walk_append, walk_plain plain, Option.bind_some]
      rcases spaced with rfl | rfl
      · exact rendered
      · exact rendered

end Rendering

section Facts

open ColorTokens.Source

variable {color : List Char}

theorem isHexDigit_iff {c : Char} :
    isHexDigit c = true ↔ 48 ≤ c.toNat ∧ c.toNat ≤ 57 ∨ 97 ≤ c.toNat ∧ c.toNat ≤ 102 ∨
      65 ≤ c.toNat ∧ c.toNat ≤ 70 := by
  have ranges : isHexDigit c = (((48 ≤ c.val && c.val ≤ 57) || (decide (97 ≤ c.val) &&
      decide (c.val ≤ 102))) || (decide (65 ≤ c.val) && decide (c.val ≤ 70))) := rfl
  simp only [ranges, Bool.or_eq_true, Bool.and_eq_true, decide_eq_true_eq, UInt32.le_iff_toNat_le]
  change (48 ≤ c.toNat ∧ c.toNat ≤ 57 ∨ 97 ≤ c.toNat ∧ c.toNat ≤ 102) ∨
    65 ≤ c.toNat ∧ c.toNat ≤ 70 ↔ _
  omega

theorem isWord_of_isHexDigit {c : Char} (hex : isHexDigit c = true) : isWord c = true := by
  rw [isHexDigit_iff] at hex
  have property : isPropertyChar c = true := (isPropertyChar_iff c).mpr (by omega)
  have low : c.toNat < 128 := by omega
  have dash : c ≠ '-' := by
    rintro rfl
    exact absurd hex (by decide)
  rw [isWord, if_pos low]
  simp only [isPropertyChar, Bool.or_eq_true, beq_iff_eq, dash, or_false] at property
  simp [property]

theorem isPropertyChar_of_mem_name {name : List Char} (listed : name ∈ functionNames) :
    ∀ c ∈ name, isPropertyChar c = true := by
  have all : functionNames.all (fun name => name.all isPropertyChar) = true := by decide
  exact List.all_eq_true.mp (List.all_eq_true.mp all name listed)

theorem walk_canonical {depth : Nat} (shape : IsCanonical color)
    (bare : ∀ c ∈ color, c ≠ '{' ∧ c ≠ '}' ∧ isQuote c = false) :
    walk (depth, .code) color = some (depth, .code) := by
  cases shape with
  | hex digits _ =>
    refine walk_plain (List.forall_mem_cons.mpr ⟨by decide, fun c member => ?_⟩)
    exact isPlain_of_class (by decide) (digits c member)
  | @function name arguments listed worded =>
    have named : walk (depth, .code) name = some (depth, .code) :=
      walk_plain fun c member =>
        isPlain_of_class (by decide) (isPropertyChar_of_mem_name listed c member)
    have rendered : walk (depth, .code) (Argument.render arguments) = some (depth, .code) :=
      walk_render worded fun c member => bare c (by simp [member])
    rw [walk_append, named, Option.bind_some, ← List.singleton_append, walk_append]
    change walk (depth, .code) (Argument.render arguments ++ [')']) = _
    rw [walk_append, rendered]
    rfl

theorem literalAt?_canonical (shape : IsCanonical color) : literalAt? none color = some color := by
  cases shape with
  | @hex digits hex count =>
    have all : digits.takeWhile isWord = digits :=
      List.takeWhile_eq_self_iff.mpr fun c member => isWord_of_isHexDigit (hex c member)
    have counted : digitCounts.contains digits.length = true := by
      rcases count with count | count <;> rw [count] <;> rfl
    simp only [literalAt?, hexLiteral?, all, List.all_eq_true.mpr hex, counted, Bool.and_self]
    rfl
  | @function name arguments listed worded =>
    have read := functionLiteral?_self listed (not_isParenthesis_of_mem_render worded)
    have noHex : hexLiteral? (name ++ '(' :: (Argument.render arguments ++ [')'])) = none := by
      simp only [functionNames, List.mem_cons, List.not_mem_nil, or_false] at listed
      rcases listed with rfl | rfl | rfl | rfl <;> rfl
    simp [literalAt?, noHex, read, isWordAt]

/-- Only a function's name stands before a parenthesis, and none ends as a reference begins. -/
theorem not_holds_marker (shape : IsCanonical color) : holds "var(--".toList color = false := by
  rw [Bool.eq_false_iff, ne_eq, holds_iff]
  rintro ⟨front, back, whole⟩
  have parted : color = (front ++ "var".toList) ++ '(' :: ("--".toList ++ back) := by
    rw [← whole]
    simp
  cases shape with
  | @hex digits hex _ =>
    have member : '(' ∈ '#' :: digits := by
      rw [parted]
      simp
    rcases List.mem_cons.mp member with same | member
    · exact absurd same (by decide)
    · exact absurd (hex _ member) (by decide)
  | @function name arguments listed worded =>
    have inner : '(' ∉ Argument.render arguments ++ [')'] := by
      intro member
      rcases List.mem_append.mp member with member | member
      · exact absurd (not_isParenthesis_of_mem_render worded _ member) (by decide)
      · simp at member
    have named : '(' ∉ name := fun member =>
      absurd (isPropertyChar_of_mem_name listed _ member) (by decide)
    -- There is one opening parenthesis, so the marker's would be the function's own.
    obtain ⟨rfl, _⟩ := (List.append_cons_inj_of_notMem named inner).mp parted
    simp only [functionNames, List.mem_cons, List.not_mem_nil, or_false] at listed
    rcases listed with same | same | same | same <;>
      simpa using congrArg List.getLast? same

theorem dark_ends (shape : IsCanonical color) :
    (∀ c ∈ color.head?, isBlank c = false) ∧ ∀ c ∈ color.getLast?, isBlank c = false := by
  cases shape with
  | @hex digits hex _ =>
    have dark : ∀ c ∈ '#' :: digits, isBlank c = false := by
      refine List.forall_mem_cons.mpr ⟨by decide, fun c member => ?_⟩
      have range := isHexDigit_iff.mp (hex c member)
      exact isBlank_eq_false (by omega) (by omega)
    exact ⟨fun c first => dark c (List.mem_of_head? first),
      fun c last => dark c (List.mem_of_getLast? last)⟩
  | @function name arguments listed worded =>
    constructor
    · simp only [functionNames, List.mem_cons, List.not_mem_nil, or_false] at listed
      rcases listed with rfl | rfl | rfl | rfl <;> simp <;> decide
    · rw [← List.cons_append, ← List.append_assoc, List.getLast?_concat]
      simp
      decide

theorem canonicalValue?_of_fixed (fixed : canonical? color = some color) :
    canonicalValue? color = some color := by
  have shape := isCanonical_of_canonical? fixed
  obtain ⟨first, last⟩ := dark_ends shape
  simp [canonicalValue?, trim_of_dark first last, literalAt?_canonical shape, fixed]

end Facts

end ColorTokens.Color

import ColorTokens.Proofs.Color.FixedPoint

/-! The parts of an argument text. Commas and slashes stand for themselves, everything else that is
no blank makes up words, and each text falls into parts in one way. -/

set_option autoImplicit false

namespace ColorTokens.Color

open ColorTokens.Text

/-- The parts of an argument text: commas, slashes and runs of other characters, which go as far as
they can. -/
inductive Argument.Parts : List Char → List Argument → Prop where
  | nil : Parts [] []
  | blank {c : Char} {rest : List Char} {arguments : List Argument} : isBlank c = true →
      Parts rest arguments → Parts (c :: rest) arguments
  | comma {rest : List Char} {arguments : List Argument} :
      Parts rest arguments → Parts (',' :: rest) (.comma :: arguments)
  | slash {rest : List Char} {arguments : List Argument} :
      Parts rest arguments → Parts ('/' :: rest) (.slash :: arguments)
  | word {word rest : List Char} {arguments : List Argument} : word ≠ [] →
      (∀ c ∈ word, isArgumentChar c = true) → (∀ c ∈ rest.head?, isArgumentChar c = false) →
      Parts rest arguments → Parts (word ++ rest) (.word word :: arguments)

variable {text : List Char} {arguments : List Argument}

theorem Argument.ofText_blank {c : Char} (blank : isBlank c = true) (rest : List Char) :
    Argument.ofText (c :: rest) = Argument.ofText rest := by
  have comma : c ≠ ',' := by
    rintro rfl
    exact absurd blank (by decide)
  have slash : c ≠ '/' := by
    rintro rfl
    exact absurd blank (by decide)
  rw [Argument.ofText, if_neg (by simpa using comma), if_neg (by simpa using slash), if_pos blank]

theorem Argument.Parts.ofText_eq (parts : Argument.Parts text arguments) :
    Argument.ofText text = arguments := by
  induction parts with
  | nil => rfl
  | blank blank _ ih => rw [Argument.ofText_blank blank, ih]
  | comma _ ih => rw [Argument.ofText_comma, ih]
  | slash _ ih => rw [Argument.ofText_slash, ih]
  | word nonempty letters ends _ ih => rw [Argument.ofText_word nonempty letters ends, ih]

theorem isArgumentChar_cases (c : Char) :
    c = ',' ∨ c = '/' ∨ isBlank c = true ∨ isArgumentChar c = true := by
  by_cases comma : c = ','
  · exact .inl comma
  · by_cases slash : c = '/'
    · exact .inr (.inl slash)
    · cases blank : isBlank c with
      | true => exact .inr (.inr (.inl rfl))
      | false => exact .inr (.inr (.inr (by simp [isArgumentChar, blank, comma, slash])))

theorem Argument.exists_parts (text : List Char) : ∃ arguments, Argument.Parts text arguments := by
  -- A word is read at once, so the induction is on the length of what is left.
  induction length : text.length using Nat.strong_induction_on generalizing text with
  | _ n ih =>
    subst length
    cases text with
    | nil => exact ⟨[], .nil⟩
    | cons c rest =>
      obtain ⟨arguments, others⟩ := ih rest.length (by simp) rest rfl
      rcases isArgumentChar_cases c with rfl | rfl | blank | letter
      · exact ⟨_, .comma others⟩
      · exact ⟨_, .slash others⟩
      · exact ⟨arguments, .blank blank others⟩
      · have shorter : (rest.dropWhile isArgumentChar).length < (c :: rest).length := by
          have bound := (List.dropWhile_sublist isArgumentChar (l := rest)).length_le
          rw [List.length_cons]
          omega
        obtain ⟨arguments, others⟩ := ih _ shorter (rest.dropWhile isArgumentChar) rfl
        have letters : ∀ d ∈ c :: rest.takeWhile isArgumentChar, isArgumentChar d = true := by
          rw [List.forall_mem_cons]
          exact ⟨letter, fun d => List.mem_takeWhile_imp⟩
        have whole := Argument.Parts.word (List.cons_ne_nil _ _) letters
          (fun d => head?_dropWhile) others
        rw [List.cons_append, List.takeWhile_append_dropWhile] at whole
        exact ⟨_, whole⟩

theorem Argument.parts_iff : Argument.Parts text arguments ↔ Argument.ofText text = arguments := by
  constructor
  · exact Argument.Parts.ofText_eq
  · rintro rfl
    obtain ⟨arguments, parts⟩ := Argument.exists_parts text
    rwa [parts.ofText_eq]

theorem Argument.Parts.append_blanks (parts : Argument.Parts text arguments) {blanks : List Char}
    (all : ∀ c ∈ blanks, isBlank c = true) : Argument.Parts (text ++ blanks) arguments := by
  induction parts with
  | nil =>
    induction blanks with
    | nil => exact .nil
    | cons c blanks ih =>
      rw [List.forall_mem_cons] at all
      exact .blank all.1 (ih all.2)
  | blank blank _ ih => exact .blank blank ih
  | comma _ ih => exact .comma ih
  | slash _ ih => exact .slash ih
  | @word word rest arguments nonempty letters ends _ ih =>
    rw [List.append_assoc]
    refine .word nonempty letters ?_ ih
    intro c first
    cases rest with
    | cons d rest => exact ends c first
    | nil =>
      have blank := all c (List.mem_of_head? first)
      simp [isArgumentChar, blank]

theorem Argument.ofText_trim (text : List Char) :
    Argument.ofText (trim text) = Argument.ofText text := by
  have started : Argument.ofText (trimStart text) = Argument.ofText text := by
    induction text with
    | nil => rfl
    | cons c rest ih =>
      rw [trimStart]
      by_cases blank : isBlank c = true
      · rw [List.dropWhile_cons_of_pos blank, Argument.ofText_blank blank]
        exact ih
      · rw [List.dropWhile_cons_of_neg blank]
  obtain ⟨blanks, parted, all, -⟩ := exists_dropWhileEnd isBlank (trimStart text)
  have parts : Argument.Parts (trim text) (Argument.ofText (trim text)) := Argument.parts_iff.mpr rfl
  have whole := (parts.append_blanks all).ofText_eq
  rw [← started, parted]
  exact whole.symm

end ColorTokens.Color

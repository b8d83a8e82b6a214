import ColorTokens.Color.Literal
import ColorTokens.Proofs.Text.Recognizer
import ColorTokens.Proofs.Text.Runs

/-! The form of colour literals. A literal is a part of the text it is read from, and its first
character alone tells it from a reference to a token. -/

set_option autoImplicit false

namespace ColorTokens.Color

open ColorTokens.Text

section Words

theorem spells_self (word : List Char) : spells word word = true := by
  induction word with
  | nil => rfl
  | cons letter word ih => simp [spells, spellsLetter, ih]

end Words

section Parts

variable {text written : List Char}

theorem hexLiteral?_eq_some (read : hexLiteral? text = some written) :
    ∃ digits rest, written = '#' :: digits ∧ text = '#' :: (digits ++ rest) ∧
      digits.all isHexDigit = true ∧ digits.length ∈ digitCounts := by
  unfold hexLiteral? at read
  split at read
  · next rest =>
    simp only [Bool.and_eq_true, List.contains_iff_mem, Option.ite_none_right_eq_some,
      Option.some.injEq] at read
    obtain ⟨⟨hex, count⟩, rfl⟩ := read
    exact ⟨_, rest.dropWhile isWord, rfl, by rw [List.takeWhile_append_dropWhile], hex, count⟩
  · cases read

theorem functionLiteral?_eq_some (read : functionLiteral? text = some written) :
    ∃ name ∈ functionNames, ∃ spelled arguments rest, spells name spelled = true ∧
      written = spelled ++ '(' :: (arguments ++ [')']) ∧
      text = spelled ++ '(' :: (arguments ++ ')' :: rest) := by
  obtain ⟨name, listed, read⟩ := List.exists_of_findSome?_eq_some read
  refine ⟨name, listed, ?_⟩
  simp only at read
  split at read
  · next rest behind =>
    simp only [Bool.and_eq_true, beq_iff_eq, Option.ite_none_right_eq_some, Option.some.injEq] at read
    obtain ⟨⟨spelled, closed⟩, rfl⟩ := read
    obtain ⟨after, closed⟩ := List.head?_eq_some_iff.mp closed
    refine ⟨text.take name.length, rest.takeWhile (!isParenthesis ·), after, spelled, by simp, ?_⟩
    rw [← closed, List.takeWhile_append_dropWhile, ← behind, List.take_append_drop]
  · cases read

theorem namedLiteral?_eq_some (read : namedLiteral? text = some written) :
    ∃ name ∈ colorNames, ∃ rest, spells name written = true ∧ text = written ++ rest := by
  obtain ⟨name, listed, read⟩ := List.exists_of_findSome?_eq_some read
  simp only [Bool.and_eq_true, Option.ite_none_right_eq_some, Option.some.injEq] at read
  obtain ⟨⟨spelled, _⟩, rfl⟩ := read
  exact ⟨name, listed, text.drop name.length, spelled, (List.take_append_drop _ _).symm⟩

end Parts

def literalStarts : List Char :=
  ['#', 'r', 'R', 'h', 'H', 'w', 'W', 'b', 'B']

theorem head?_of_listed {name : List Char} (listed : name ∈ functionNames ++ colorNames) :
    name.head? ∈ [some 'r', some 'h', some 'w', some 'b'] := by
  revert name
  decide

theorem mem_literalStarts_of_spellsLetter {letter c : Char} (start : letter ∈ ['r', 'h', 'w', 'b'])
    (same : spellsLetter letter c = true) : c ∈ literalStarts := by
  simp only [List.mem_cons, List.not_mem_nil, or_false] at start
  simp only [spellsLetter, Bool.or_eq_true, Bool.and_eq_true, beq_iff_eq] at same
  rcases start with rfl | rfl | rfl | rfl <;>
    · rcases same with ((rfl | rfl) | ⟨kelvin, _⟩) | ⟨long, _⟩
      · decide
      · decide
      · exact absurd kelvin (by decide)
      · exact absurd long (by decide)

theorem head_of_spells {name spelled : List Char} (listed : name ∈ functionNames ++ colorNames)
    (same : spells name spelled = true) : ∃ c rest, spelled = c :: rest ∧ c ∈ literalStarts := by
  have start := head?_of_listed listed
  cases name with
  | nil => simp at start
  | cons letter name =>
    cases spelled with
    | nil => simp [spells] at same
    | cons c rest =>
      simp only [spells, Bool.and_eq_true] at same
      exact ⟨c, rest, rfl, mem_literalStarts_of_spellsLetter (by simpa using start) same.1⟩

section Literal

variable {before : Option Char} {text written : List Char}

theorem literalAt?_eq_some (read : literalAt? before text = some written) :
    hexLiteral? text = some written ∨ functionLiteral? text = some written ∨
      namedLiteral? text = some written := by
  simp only [literalAt?, Option.orElse_eq_orElse, Option.orElse_eq_or, Option.or_eq_some_iff,
    Option.ite_none_left_eq_some] at read
  tauto

theorem literalAt?_append (read : literalAt? before text = some written) :
    ∃ rest, text = written ++ rest := by
  rcases literalAt?_eq_some read with hex | function | named
  · obtain ⟨digits, rest, rfl, rfl, _⟩ := hexLiteral?_eq_some hex
    exact ⟨rest, rfl⟩
  · obtain ⟨_, _, spelled, arguments, rest, _, rfl, rfl⟩ := functionLiteral?_eq_some function
    exact ⟨rest, by simp⟩
  · obtain ⟨_, _, rest, _, rfl⟩ := namedLiteral?_eq_some named
    exact ⟨rest, rfl⟩

theorem literalAt?_head (read : literalAt? before text = some written) :
    ∃ c rest, written = c :: rest ∧ c ∈ literalStarts := by
  rcases literalAt?_eq_some read with hex | function | named
  · obtain ⟨digits, rest, rfl, _⟩ := hexLiteral?_eq_some hex
    exact ⟨'#', digits, rfl, by simp [literalStarts]⟩
  · obtain ⟨name, listed, spelled, arguments, rest, same, rfl, _⟩ :=
      functionLiteral?_eq_some function
    obtain ⟨c, more, rfl, start⟩ := head_of_spells (List.mem_append_left _ listed) same
    exact ⟨c, _, rfl, start⟩
  · obtain ⟨name, listed, rest, same, _⟩ := namedLiteral?_eq_some named
    exact head_of_spells (List.mem_append_right _ listed) same

theorem literal_bounded : Recognizer.Bounded literal := by
  intro before text taken value read
  obtain ⟨written, found, same⟩ := Option.map_eq_some_iff.mp read
  cases same
  obtain ⟨rest, rfl⟩ := literalAt?_append found
  obtain ⟨c, more, rfl, _⟩ := literalAt?_head found
  simp

theorem eq_of_literal {piece rest : List Char}
    (taken : literal before (piece ++ rest) = some (piece.length, written)) :
    written = piece ∧ literalAt? before (piece ++ rest) = some piece := by
  obtain ⟨found, read, same⟩ := Option.map_eq_some_iff.mp taken
  simp only [Prod.mk.injEq] at same
  obtain ⟨length, rfl⟩ := same
  obtain ⟨rest', whole⟩ := literalAt?_append read
  obtain ⟨rfl, _⟩ := List.append_inj whole length.symm
  exact ⟨rfl, read⟩

end Literal

section Functions

def functionAttempt (text name : List Char) : Option (List Char) :=
  let written := text.take name.length
  match text.drop name.length with
  | '(' :: rest =>
    if spells name written && (rest.dropWhile (!isParenthesis ·)).head? == some ')' then
      some (written ++ '(' :: rest.takeWhile (!isParenthesis ·) ++ [')'])
    else
      none
  | _ => none

theorem functionLiteral?_eq_findSome? (text : List Char) :
    functionLiteral? text = functionNames.findSome? (functionAttempt text) := rfl

theorem functionAttempt_of_not_spells {text name : List Char}
    (differ : spells name (text.take name.length) = false) : functionAttempt text name = none := by
  unfold functionAttempt
  simp only [differ, Bool.false_and]
  split <;> rfl

theorem functionAttempt_self (name : List Char) {arguments : List Char}
    (bare : ∀ c ∈ arguments, isParenthesis c = false) :
    functionAttempt (name ++ '(' :: (arguments ++ [')'])) name =
      some (name ++ '(' :: (arguments ++ [')'])) := by
  have all : ∀ c ∈ arguments, (!isParenthesis c) = true := by simpa using bare
  have ends : ∀ c ∈ [')'].head?, (!isParenthesis c) = false := by simp; decide
  simp only [functionAttempt, List.drop_left, List.take_left, takeWhile_run all ends,
    dropWhile_run all ends, spells_self, List.head?_cons, BEq.rfl, Bool.and_self, if_true,
    List.append_assoc, List.cons_append]

theorem functionLiteral?_self {name arguments : List Char} (listed : name ∈ functionNames)
    (bare : ∀ c ∈ arguments, isParenthesis c = false) :
    functionLiteral? (name ++ '(' :: (arguments ++ [')'])) =
      some (name ++ '(' :: (arguments ++ [')'])) := by
  have own := functionAttempt_self name bare
  rw [functionLiteral?_eq_findSome?]
  simp only [functionNames, List.mem_cons, List.not_mem_nil, or_false] at listed
  rcases listed with rfl | rfl | rfl | rfl
  · rw [functionNames, List.findSome?_cons, own]
  · rw [functionNames, List.findSome?_cons, functionAttempt_of_not_spells rfl,
      List.findSome?_cons, own]
  · rw [functionNames, List.findSome?_cons, functionAttempt_of_not_spells rfl,
      List.findSome?_cons, functionAttempt_of_not_spells rfl, List.findSome?_cons, own]
  · rw [functionNames, List.findSome?_cons, functionAttempt_of_not_spells rfl,
      List.findSome?_cons, functionAttempt_of_not_spells rfl, List.findSome?_cons,
      functionAttempt_of_not_spells rfl, List.findSome?_cons, own]

end Functions

end ColorTokens.Color

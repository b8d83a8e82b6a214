import ColorTokens.Proofs.Color.Agreement
import ColorTokens.Proofs.Color.Spacing

/-! Functional notation up to spelling. Two functions have one canonical form when they have one
name, whatever the case of its letters, and their arguments fall into the same parts; nothing else
tells them apart and nothing less makes them one. -/

set_option autoImplicit false

namespace ColorTokens.Color

open ColorTokens.Text

/-- A text in functional notation with its pieces: the name and the arguments as they are written,
and the parts that the arguments fall into once they are lowered. -/
structure FunctionText where
  raw : String
  name : List Char
  inner : List Char
  parts : List Argument
  written : trim raw.toList = name ++ '(' :: (inner ++ [')'])
  listed : lowercase name ∈ functionNames
  bare : ∀ c ∈ inner, isParenthesis c = false
  parted : Argument.Parts (lowercase inner) parts

theorem isBreak_parenthesis {c : Char} (parenthesis : isParenthesis c = true) : IsBreak c := by
  refine ⟨isSign_parenthesis parenthesis, ?_, ?_⟩ <;>
  · rw [isParenthesis, Bool.or_eq_true, beq_iff_eq, beq_iff_eq] at parenthesis
    rcases parenthesis with rfl | rfl <;> decide +kernel

theorem lowercase_function (name inner : List Char) :
    lowercase (name ++ '(' :: (inner ++ [')'])) =
      lowercase name ++ '(' :: (lowercase inner ++ [')']) := by
  have opening : IsBreak '(' := isBreak_parenthesis rfl
  have closing : IsBreak ')' := isBreak_parenthesis rfl
  rw [opening.lowercase_append, closing.lowercase_append]
  rfl

theorem eq_of_parenthesis {name name' rest rest' : List Char}
    (bare : ∀ c ∈ name, isParenthesis c = false) (bare' : ∀ c ∈ name', isParenthesis c = false)
    (same : name ++ '(' :: rest = name' ++ '(' :: rest') : name = name' ∧ rest = rest' := by
  have run : ∀ c ∈ name, (!isParenthesis c) = true := by simpa using bare
  have run' : ∀ c ∈ name', (!isParenthesis c) = true := by simpa using bare'
  obtain ⟨named, -, behind⟩ := run_unique run run' (by decide) (by decide) same
  exact ⟨named, behind⟩

namespace FunctionText

variable (text : FunctionText)

theorem canonical?_eq : canonical? text.raw.toList =
    some (lowercase text.name ++ '(' :: (Argument.render text.parts ++ [')'])) := by
  have bare : ∀ c ∈ lowercase text.inner, isParenthesis c = false :=
    (bare_iff_of_lowers (lowers_lowercaseAfter [] text.inner)).mpr text.bare
  rw [canonical?, text.written, lowercase_function, canonicalLower?_of_function text.listed,
    canonicalFunction?_of_parts text.listed bare, text.parted.ofText_eq]

theorem normalize?_eq : normalize? text.raw =
    some (String.ofList (lowercase text.name ++ '(' :: (Argument.render text.parts ++ [')']))) := by
  rw [normalize?, text.canonical?_eq, Option.map_some]

theorem ofText_render_parts : Argument.ofText (Argument.render text.parts) = text.parts := by
  apply Argument.ofText_render
  intro word member
  rw [← text.parted.ofText_eq] at member
  obtain ⟨nonempty, letters⟩ := Argument.mem_of_ofText member
  exact ⟨nonempty, fun c inside => (letters c inside).1⟩

/-- A canonical function is read back to its name and its parts. -/
theorem eq_of_written {text other : FunctionText}
    (same : lowercase text.name ++ '(' :: (Argument.render text.parts ++ [')']) =
      lowercase other.name ++ '(' :: (Argument.render other.parts ++ [')'])) :
    lowercase text.name = lowercase other.name ∧ text.parts = other.parts := by
  obtain ⟨named, behind⟩ := eq_of_parenthesis (bare_functionName text.listed)
    (bare_functionName other.listed) same
  refine ⟨named, ?_⟩
  -- Rendering has a left inverse on parts, so what it writes tells them.
  have rendered : Argument.render text.parts = Argument.render other.parts :=
    List.append_cancel_right behind
  rw [← text.ofText_render_parts, rendered, other.ofText_render_parts]

end FunctionText

theorem exists_functionText {raw color : String} (made : normalize? raw = some color)
    (opened : '(' ∈ color.toList) : ∃ text : FunctionText, text.raw = raw := by
  obtain ⟨color, read, rfl⟩ := Option.map_eq_some_iff.mp made
  rw [String.toList_ofList] at opened
  rcases canonicalLower?_cases read with
    ⟨long, rfl, digits, -⟩ | ⟨name, listed, inner, bare, lowered, -⟩
  · rcases List.mem_cons.mp opened with same | member
    · exact absurd same (by decide)
    · exact absurd (digits _ member).1 (by decide)
  · -- The parentheses of the lowered text stand where they stood.
    have lowers : Lowers (trim raw.toList) (name ++ '(' :: (inner ++ [')'])) := by
      rw [← lowered]
      exact lowers_lowercaseAfter [] _
    obtain ⟨name', rest, written, named, behind⟩ := lowers.exists_sign (isSign_parenthesis rfl)
    obtain ⟨inner', rest', rfl, inside, nothing⟩ := behind.exists_sign (isSign_parenthesis rfl)
    obtain rfl := nothing.eq_nil
    have bareName : ∀ c ∈ lowercase name', isParenthesis c = false :=
      (bare_iff_of_lowers (lowers_lowercaseAfter [] name')).mpr
        ((bare_iff_of_lowers named).mp (bare_functionName listed))
    rw [written, lowercase_function] at lowered
    obtain ⟨same, -⟩ := eq_of_parenthesis bareName (bare_functionName listed) lowered
    exact ⟨⟨raw, name', inner', _, written, same ▸ listed, (bare_iff_of_lowers inside).mp bare,
      Argument.parts_iff.mpr rfl⟩, rfl⟩

/-- The canonical form of functions is a complete invariant of their names and parts, and it is what
the substitutions leave of their arguments. -/
theorem normalize?_complete_for_functions :
    (∀ raw, (∃ color, normalize? raw = some color ∧ '(' ∈ color.toList) ↔
      ∃ text : FunctionText, text.raw = raw) ∧
    (∀ text : FunctionText, normalize? text.raw =
      some (String.ofList (lowercase text.name ++
        '(' :: (respace (lowercase text.inner) ++ [')'])))) ∧
    ∀ text other : FunctionText, normalize? text.raw = normalize? other.raw ↔
      lowercase text.name = lowercase other.name ∧ text.parts = other.parts := by
  refine ⟨fun raw => ⟨?_, ?_⟩, fun text => ?_, fun text other => ⟨fun same => ?_, ?_⟩⟩
  · rintro ⟨color, made, opened⟩
    exact exists_functionText made opened
  · rintro ⟨text, rfl⟩
    refine ⟨_, text.normalize?_eq, ?_⟩
    simp
  · rw [text.normalize?_eq, respace_eq_render, text.parted.ofText_eq]
  · rw [text.normalize?_eq, other.normalize?_eq, Option.some.injEq] at same
    apply FunctionText.eq_of_written
    simpa using congrArg String.toList same
  · rintro ⟨named, parts⟩
    rw [text.normalize?_eq, other.normalize?_eq, named, parts]

example : normalize? "HSL(1deg ,2%\t3%/ 50% )" = normalize? " hsl(1DEG,2% 3%/50%)" ∧
    normalize? "hsl(1deg, 2%)" ≠ normalize? "hsl(1 deg, 2%)" := by
  decide +kernel

end ColorTokens.Color

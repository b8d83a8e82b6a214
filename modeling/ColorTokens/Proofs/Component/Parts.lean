import ColorTokens.Proofs.Color.Canonical
import ColorTokens.Proofs.Source.Binding
import ColorTokens.Proofs.Source.Neutral
import ColorTokens.Proofs.Token.Sheet

/-! Literals and the references that take their place, seen from the text around them. A literal is
a word of its own or ends in a parenthesis, and so does a reference; what either of them does to a
reader of names, values and bindings is said here once for both. -/

set_option autoImplicit false

namespace ColorTokens

open ColorTokens.Text
open ColorTokens.Source

/-- A literal that means nothing to a reader of the component it stands in: it quotes, nests, binds
and comments nothing. -/
def isInert (literal : List Char) : Bool :=
  literal.all isInertChar &&
    ["//", "/*", "*/", "const", "let", "var"].all fun sign => !holds sign.toList literal

inductive Form (before after : Option Char) : List Char → Prop where
  | call {inner : List Char} : '(' ∈ inner → Form before after (inner ++ [')'])
  | hex {digits : List Char} : digits ≠ [] → (∀ c ∈ digits, Color.isHexDigit c = true) →
      isWordAt after = false → Form before after ('#' :: digits)
  | name {text color : List Char} : color ∈ Color.colorNames → Color.spells color text = true →
      isWordAt before = false → isWordAt after = false → Form before after text

section Literals

open Color

variable {before after : Option Char} {text written rest : List Char}

theorem isWord_of_spells {color : List Char} (listed : color ∈ colorNames)
    (spelled : spells color text = true) : ∀ c ∈ text, isWord c = true := by
  have letters : colorNames.all (fun color => color.all fun letter =>
      isWord letter && isWord letter.toUpper) = true := by decide
  have checked := List.all_eq_true.mp (List.all_eq_true.mp letters color listed)
  clear letters listed
  induction color generalizing text with
  | nil =>
    cases text with
    | nil => simp
    | cons c text => cases spelled
  | cons letter color ih =>
    cases text with
    | nil => cases spelled
    | cons c text =>
      rw [spells, Bool.and_eq_true] at spelled
      have own := checked letter List.mem_cons_self
      rw [Bool.and_eq_true] at own
      intro d member
      rcases List.mem_cons.mp member with rfl | member
      · simp only [spellsLetter, Bool.or_eq_true, Bool.and_eq_true, beq_iff_eq] at spelled
        -- The letter itself, its capital, the long s or the Kelvin sign.
        rcases spelled.1 with ((rfl | rfl) | ⟨-, rfl⟩) | ⟨-, rfl⟩
        · exact own.1
        · exact own.2
        · decide +kernel
        · decide +kernel
      · exact ih spelled.2 (fun letter member => checked letter (List.mem_cons_of_mem _ member)) d
          member

theorem Form.congr {before' after' : Option Char} (form : Form before after text)
    (first : isWordAt before' = isWordAt before) (second : isWordAt after' = isWordAt after) :
    Form before' after' text := by
  cases form with
  | call opened => exact .call opened
  | hex nonempty digital ends => exact .hex nonempty digital (second.trans ends)
  | name listed spelled clear ends =>
    exact .name listed spelled (first.trans clear) (second.trans ends)

theorem Form.nonempty (form : Form before after text) : text ≠ [] := by
  cases form with
  | call => simp
  | hex => simp
  | name listed spelled =>
    obtain ⟨c, more, rfl, -⟩ := head_of_spells (List.mem_append_right _ listed) spelled
    simp

/-- What stands at a boundary in a literal or a reference: a part that goes on to the closing
bracket, the number sign, or the last word, which is of digits or the name of a colour. -/
theorem Form.boundary {left here : List Char} (form : Form before after (left ++ here))
    (nonempty : here ≠ []) (clear : isWordAt (left.getLast?.or before) = false) :
    ')' ∈ here ∨ here.head? = some '#' ∨ (∀ c ∈ here, isWord c = true) ∧ isWordAt after = false ∧
      ((∀ c ∈ here, isHexDigit c = true) ∨ ∃ color ∈ colorNames, spells color here = true) := by
  generalize shown : left ++ here = literal at form
  cases form with
  | call =>
    have last := congrArg List.getLast? shown
    rw [List.getLast?_append_of_ne_nil _ nonempty, List.getLast?_concat] at last
    exact .inl (List.mem_of_getLast? last)
  | @hex digits _ digital ends =>
    cases left with
    | nil =>
      rw [List.nil_append] at shown
      exact .inr (.inl (by rw [shown]; rfl))
    | cons d left =>
      obtain ⟨rfl, rfl⟩ := List.cons_eq_cons.mp shown
      have own : ∀ c ∈ here, isHexDigit c = true := fun c member =>
        digital c (List.mem_append_right _ member)
      exact .inr (.inr ⟨fun c member => isWord_of_isHexDigit (own c member), ends, .inl own⟩)
  | name listed spelled _ ends =>
    have run := isWord_of_spells listed spelled
    rcases List.eq_nil_or_concat left with rfl | ⟨init, d, rfl⟩
    · rw [List.nil_append] at shown
      subst shown
      exact .inr (.inr ⟨run, ends, .inr ⟨_, listed, spelled⟩⟩)
    · -- Inside a word there is no boundary.
      have inside : isWord d = true := run d (by simp [← shown])
      simp [isWordAt, inside] at clear

theorem isWordAt_of_hexLiteral? {digits : List Char}
    (read : hexLiteral? ('#' :: (digits ++ rest)) = some ('#' :: digits)) :
    isWordAt rest.head? = false := by
  simp only [hexLiteral?, Option.ite_none_right_eq_some, Option.some.injEq, List.cons.injEq,
    true_and] at read
  have parted := (digits ++ rest).takeWhile_append_dropWhile (p := isWord)
  rw [read.2] at parted
  rw [← List.append_cancel_left parted, isWordAt]
  cases first : ((digits ++ rest).dropWhile isWord).head? with
  | none => rfl
  | some c => exact head?_dropWhile (Option.mem_def.mpr first)

theorem isWordAt_of_namedLiteral? (read : namedLiteral? (written ++ rest) = some written) :
    ∃ color ∈ colorNames, spells color written = true ∧ isWordAt rest.head? = false := by
  obtain ⟨color, listed, read⟩ := List.exists_of_findSome?_eq_some read
  simp only [Bool.and_eq_true, Option.ite_none_right_eq_some, Option.some.injEq,
    Bool.not_eq_true'] at read
  obtain ⟨⟨spelled, ends⟩, same⟩ := read
  rw [same] at spelled
  have behind : (written ++ rest).drop color.length = rest := by
    have parted := List.take_append_drop color.length (written ++ rest)
    rw [same] at parted
    exact List.append_cancel_left parted
  rw [behind] at ends
  exact ⟨color, listed, spelled, ends⟩

/-- A literal that was read has its form, and only a number sign begins one behind a word. -/
theorem form_of_literalAt? (read : literalAt? before (written ++ rest) = some written) :
    Form before rest.head? written ∧ (isWordAt before = true → written.head? = some '#') := by
  simp only [literalAt?, Option.orElse_eq_orElse, Option.orElse_eq_or, Option.or_eq_some_iff,
    Option.ite_none_left_eq_some, Bool.not_eq_true] at read
  rcases read with hex | ⟨-, clear, function | ⟨-, named⟩⟩
  · obtain ⟨digits, behind, rfl, whole, digital, count⟩ := hexLiteral?_eq_some hex
    obtain rfl : rest = behind := by simpa using whole
    refine ⟨.hex ?_ (List.all_eq_true.mp digital) (isWordAt_of_hexLiteral? hex), fun _ => rfl⟩
    rintro rfl
    exact absurd count (by decide)
  · obtain ⟨name, listed, spelled, arguments, behind, same, rfl, -⟩ :=
      functionLiteral?_eq_some function
    refine ⟨?_, fun word => absurd word (by simp [clear])⟩
    rw [← List.cons_append, ← List.append_assoc]
    exact .call (by simp)
  · obtain ⟨color, listed, spelled, ends⟩ := isWordAt_of_namedLiteral? named
    exact ⟨.name listed spelled clear ends, fun word => absurd word (by simp [clear])⟩

end Literals

structure Replaceable (before after : Option Char) (literal : List Char) : Prop where
  form : Form before after literal
  starts : ∃ c more, literal = c :: more ∧ c ∈ Color.literalStarts
  sign : isWordAt before = true → literal.head? = some '#'
  inert : isInert literal = true

def RefersTo (identifier text : List Char) : Prop :=
  IsCustomProperty identifier ∧ text = "var(".toList ++ (identifier ++ [')'])

structure Rewritten (pieces : List Piece) : Prop where
  literal : ∀ front old new back, pieces = front ++ .swapped old new :: back →
    Replaceable (textBefore front).getLast? (textBefore back).head? old
  reference : ∀ old new, .swapped old new ∈ pieces → ∃ identifier, RefersTo identifier new

section Inert

variable {literal identifier text : List Char}

theorem isInert_iff : isInert literal = true ↔ (∀ c ∈ literal, isInertChar c = true) ∧
    ∀ sign ∈ ["//", "/*", "*/", "const", "let", "var"], ¬ sign.toList <:+: literal := by
  simp only [isInert, Bool.and_eq_true, List.all_eq_true, Bool.not_eq_true', ← Bool.not_eq_true,
    holds_iff]

theorem calm_of_isInert (inert : isInert literal = true) : Calm literal := by
  obtain ⟨chars, signs⟩ := isInert_iff.mp inert
  exact ⟨chars, signs "//" (by simp), signs "/*" (by simp), signs "*/" (by simp)⟩

theorem isInertChar_of_isPropertyChar {c : Char} (property : isPropertyChar c = true) :
    isInertChar c = true := by
  rw [isInertChar, Bool.not_eq_true', List.contains_eq_any_beq, List.any_eq_false]
  intro special listed same
  rw [beq_iff_eq] at same
  subst same
  have none : ['{', '}', ';', '=', '\'', '"', '\x60', '\n'].all (!isPropertyChar ·) = true := by
    decide
  have other := List.all_eq_true.mp none c listed
  rw [property] at other
  cases other

namespace RefersTo

theorem mem_cases (refers : RefersTo identifier text) {c : Char} (member : c ∈ text) :
    isPropertyChar c = true ∨ c = '(' ∨ c = ')' := by
  obtain ⟨property, rfl⟩ := refers
  simp only [List.mem_append, List.mem_singleton] at member
  rcases member with member | member | rfl
  · have opening : "var(".toList.all (fun c => isPropertyChar c || c == '(') = true := by decide
    have own := List.all_eq_true.mp opening c member
    simp only [Bool.or_eq_true, beq_iff_eq] at own
    rcases own with letter | bracket
    · exact .inl letter
    · exact .inr (.inl bracket)
  · exact .inl (property.properties c member)
  · exact .inr (.inr rfl)

theorem inert (refers : RefersTo identifier text) : ∀ c ∈ text, isInertChar c = true := by
  intro c member
  rcases refers.mem_cases member with property | rfl | rfl
  · exact isInertChar_of_isPropertyChar property
  · decide
  · decide

theorem notMem (refers : RefersTo identifier text) {c : Char} (other : isPropertyChar c = false)
    (bare : c ≠ '(' ∧ c ≠ ')') : c ∉ text := by
  intro member
  rcases refers.mem_cases member with property | same | same
  · rw [other] at property
    cases property
  · exact bare.1 same
  · exact bare.2 same

theorem form (refers : RefersTo identifier text) (before after : Option Char) :
    Form before after text := by
  obtain ⟨-, rfl⟩ := refers
  rw [← List.append_assoc]
  exact .call (by simp)

theorem calm (refers : RefersTo identifier text) : Calm text := by
  have slash : '/' ∉ text := refers.notMem (by decide) (by decide)
  refine ⟨refers.inert, fun inside => ?_, fun inside => ?_, fun inside => ?_⟩ <;>
    exact slash (inside.subset (by simp))

end RefersTo

end Inert

/-- A view of the pieces in which all that is exchanged has its form, quotes and nests nothing and
binds nothing; behind a word it begins with a sign or a letter that no keyword goes on with. -/
structure Discrete (view : Piece → List Char) (pieces : List Piece) : Prop where
  own : ∀ c, view (.kept c) = [c]
  form : ∀ front old new back, pieces = front ++ .swapped old new :: back →
    Form (front.flatMap view).getLast? (back.flatMap view).head? (view (.swapped old new))
  inert : ∀ old new, .swapped old new ∈ pieces → ∀ c ∈ view (.swapped old new), isInertChar c = true
  starts : ∀ front old new back, pieces = front ++ .swapped old new :: back →
    ∃ c more, view (.swapped old new) = c :: more ∧ isBlank c = false ∧
      (isWordAt (front.flatMap view).getLast? = true → c = '#' ∨ c = 'v')
  unbound : ∀ old new, .swapped old new ∈ pieces → ∀ keyword ∈ bindingKeywords,
    ∀ c, isBlank c = true → ¬ keyword ++ [c] <:+: view (.swapped old new)

section Views

variable {pieces : List Piece}

theorem isBlank_of_mem_literalStarts {c : Char} (start : c ∈ Color.literalStarts) :
    isBlank c = false := by
  have dark : Color.literalStarts.all (fun c => !isBlank c) = true := by decide
  simpa using List.all_eq_true.mp dark c start

theorem Rewritten.before (rewritten : Rewritten pieces) : Discrete Piece.before pieces where
  own _ := rfl
  form front old new back whole := (rewritten.literal front old new back whole).form
  inert old new member := by
    obtain ⟨front, back, whole⟩ := List.append_of_mem member
    exact (isInert_iff.mp (rewritten.literal front old new back whole).inert).1
  starts front old new back whole := by
    obtain ⟨-, ⟨c, more, rfl, start⟩, sign, -⟩ := rewritten.literal front old new back whole
    refine ⟨c, more, rfl, isBlank_of_mem_literalStarts start, fun word => .inl ?_⟩
    simpa using sign word
  unbound old new member keyword listed c _ inside := by
    obtain ⟨front, back, whole⟩ := List.append_of_mem member
    have signs := (isInert_iff.mp (rewritten.literal front old new back whole).inert).2
    have within : keyword <:+: old := (List.prefix_append keyword [c]).isInfix.trans inside
    simp only [bindingKeywords, List.mem_cons, List.not_mem_nil, or_false] at listed
    rcases listed with rfl | rfl | rfl
    · exact signs "const" (by simp) within
    · exact signs "let" (by simp) within
    · exact signs "var" (by simp) within

theorem Rewritten.after (rewritten : Rewritten pieces) : Discrete Piece.after pieces where
  own _ := rfl
  form front old new back whole := by
    obtain ⟨identifier, refers⟩ := rewritten.reference old new (by simp [whole])
    exact refers.form _ _
  inert old new member := by
    obtain ⟨identifier, refers⟩ := rewritten.reference old new member
    exact refers.inert
  starts front old new back whole := by
    obtain ⟨identifier, refers⟩ := rewritten.reference old new (by simp [whole])
    exact ⟨'v', _, refers.2, by decide, fun _ => .inr rfl⟩
  unbound old new member keyword listed c blank inside := by
    obtain ⟨identifier, refers⟩ := rewritten.reference old new member
    have held : c ∈ new := inside.subset (by simp)
    refine refers.notMem ?_ ?_ held
    · rw [Bool.eq_false_iff]
      intro property
      rw [not_isBlank_of_isPropertyChar property] at blank
      cases blank
    · constructor <;> rintro rfl <;> exact absurd blank (by decide)

theorem Rewritten.allNeutral (rewritten : Rewritten pieces) : AllNeutral pieces := by
  intro old new member
  obtain ⟨front, back, whole⟩ := List.append_of_mem member
  obtain ⟨form, ⟨c, more, rfl, start⟩, -, inert⟩ := rewritten.literal front old new back whole
  obtain ⟨identifier, refers⟩ := rewritten.reference _ new member
  have bare : c ≠ '/' ∧ c ≠ '*' := by
    constructor <;> rintro rfl <;> exact absurd start (by decide)
  -- A literal ends with a bracket, a digit or a letter, so it leaves nothing pending.
  have settled : ∃ d, (c :: more).getLast? = some d ∧ d ≠ '/' ∧ d ≠ '*' ∧ d ≠ '\\' := by
    have word {d : Char} (word : isWord d = true) : d ≠ '/' ∧ d ≠ '*' ∧ d ≠ '\\' := by
      refine ⟨?_, ?_, ?_⟩ <;> rintro rfl <;> exact absurd word (by decide)
    obtain ⟨d, last⟩ : ∃ d, (c :: more).getLast? = some d := ⟨_, List.getLast?_cons⟩
    refine ⟨d, last, ?_⟩
    generalize c :: more = literal at form last
    cases form with
    | call =>
      obtain rfl : ')' = d := by simpa using last
      decide
    | hex nonempty digital =>
      rw [List.getLast?_cons_of_ne_nil nonempty] at last
      exact word (Color.isWord_of_isHexDigit (digital d (List.mem_of_getLast? last)))
    | name listed spelled =>
      exact word (isWord_of_spells listed spelled d (List.mem_of_getLast? last))
  obtain ⟨d, last, settled⟩ := settled
  refine ⟨(calm_of_isInert inert).neutral rfl last bare settled, ?_⟩
  have ends : new.getLast? = some ')' := by
    rw [refers.2, ← List.append_assoc, List.getLast?_concat]
  have begins : new.head? = some 'v' := by
    rw [refers.2]
    rfl
  exact refers.calm.neutral begins ends (by decide) (by decide)

end Views

section Boundaries

variable {view view' : Piece → List Char} {pieces front back : List Piece} {c : Char}

/-- A word that begins at a kept character in one view begins there in the other. -/
theorem Discrete.isWordAt_getLast? (discrete : Discrete view pieces)
    (discrete' : Discrete view' pieces) (whole : pieces = front ++ .kept c :: back)
    (word : isWord c = true) (clear : isWordAt (front.flatMap view).getLast? = false) :
    isWordAt (front.flatMap view').getLast? = false := by
  rcases List.eq_nil_or_concat front with rfl | ⟨init, piece, rfl⟩
  · rfl
  · simp only [List.concat_eq_append, List.flatMap_append, List.flatMap_singleton] at clear ⊢
    cases piece with
    | kept d =>
      rw [discrete.own, List.getLast?_concat] at clear
      rwa [discrete'.own, List.getLast?_concat]
    | swapped old new =>
      have form := discrete'.form init old new (.kept c :: back) (by simp [whole])
      rw [List.flatMap_cons, discrete'.own] at form
      have follows : isWordAt ([c] ++ back.flatMap view').head? = true := word
      have nonempty := form.nonempty
      rw [List.getLast?_append_of_ne_nil _ nonempty]
      generalize view' (.swapped old new) = shown at form
      -- A literal that is a word of its own has no word right behind it.
      cases form with
      | call =>
        rw [List.getLast?_concat]
        decide
      | hex _ _ ends =>
        rw [ends] at follows
        cases follows
      | name _ _ _ ends =>
        rw [ends] at follows
        cases follows

end Boundaries

end ColorTokens

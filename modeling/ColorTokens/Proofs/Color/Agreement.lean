import ColorTokens.Proofs.Color.FixedPoint
import ColorTokens.Proofs.Text.Lowering
import Mathlib.Data.List.Forall2

/-! One notion of colour. Literals are found in text before it is lowered, canonical forms are made
from it afterwards; both see the same colours but for those that are spelled with a long s, which
stands for an s in a literal and is no capital of it. -/

set_option autoImplicit false

namespace ColorTokens.Color

open ColorTokens.Text

section Letters

variable {letter c : Char} {name written lower : List Char}

def isSmall (letter : Char) : Bool :=
  97 ≤ letter.toNat && letter.toNat ≤ 122

theorem isSmall_of_listed (listed : name ∈ functionNames ++ colorNames) :
    ∀ letter ∈ name, isSmall letter = true := by
  have all : (functionNames ++ colorNames).all (fun name => name.all isSmall) = true := by decide
  exact List.all_eq_true.mp (List.all_eq_true.mp all name listed)

theorem spellsLetter_cases (small : isSmall letter = true) (same : spellsLetter letter c = true) :
    (65 ≤ c.toNat ∧ c.toNat ≤ 122 ∧ c.toLower = letter) ∨ c = 'K' ∧ letter = 'k' ∨
      c = '\u017f' ∧ letter = 's' := by
  have range : 97 ≤ letter.toNat ∧ letter.toNat ≤ 122 := by simpa [isSmall] using small
  have checked := forall_ascii (c := letter) (p := fun letter => !isSmall letter ||
    (letter.toLower == letter && letter.toUpper.toLower == letter &&
      decide (65 ≤ letter.toUpper.toNat) && decide (letter.toUpper.toNat ≤ 122)))
    (by decide +kernel) (by omega)
  simp only [small, Bool.not_true, Bool.false_or, Bool.and_eq_true, beq_iff_eq,
    decide_eq_true_eq] at checked
  obtain ⟨⟨⟨own, upper⟩, low⟩, high⟩ := checked
  simp only [spellsLetter, Bool.or_eq_true, Bool.and_eq_true, beq_iff_eq] at same
  rcases same with ((rfl | rfl) | ⟨kelvin, rfl⟩) | ⟨long, rfl⟩
  · exact .inl ⟨by omega, by omega, own⟩
  · exact .inl ⟨low, high, upper⟩
  · exact .inr (.inl ⟨rfl, kelvin⟩)
  · exact .inr (.inr ⟨rfl, long⟩)

theorem letter_of_spellsLetter (small : isSmall letter = true)
    (same : spellsLetter letter c = true) :
    isBlank c = false ∧ isParenthesis c = false ∧ c ≠ '#' := by
  rcases spellsLetter_cases small same with ⟨low, high, -⟩ | ⟨rfl, -⟩ | ⟨rfl, -⟩
  · refine ⟨isBlank_eq_false (by omega) (by omega), ?_, ?_⟩
    · simp only [isParenthesis, Bool.or_eq_false_iff, beq_eq_false_iff_ne]
      constructor <;> rintro rfl <;> exact absurd low (by decide)
    · rintro rfl
      exact absurd low (by decide)
  · decide
  · decide

theorem spellsLetter_of_image (image : Image c [letter]) (ascii : letter.toNat < 128) :
    spellsLetter letter c = true ∧ c ≠ '\u017f' := by
  rcases image.ascii_cases ascii with ⟨low, rfl⟩ | ⟨rfl, rfl⟩
  · have checked := forall_ascii (p := fun c => spellsLetter c.toLower c) (by decide +kernel) low
    refine ⟨checked, ?_⟩
    rintro rfl
    exact absurd low (by decide)
  · decide

theorem image_of_spellsLetter {piece : List Char} (small : isSmall letter = true)
    (same : spellsLetter letter c = true) (short : c ≠ '\u017f') (image : Image c piece) :
    piece = [letter] := by
  rcases spellsLetter_cases small same with ⟨low, high, rfl⟩ | ⟨rfl, rfl⟩ | ⟨rfl, -⟩
  · exact image.of_ascii (by omega)
  · rcases image with rfl | ⟨sigma, -⟩
    · decide +kernel
    · exact absurd sigma (by decide)
  · exact absurd rfl short

end Letters

section Names

variable {name other written lower : List Char}

/-- A text spells a word, and not with a long s. -/
def Spelled (name written : List Char) : Prop :=
  spells name written = true ∧ '\u017f' ∉ written

theorem spells_iff_forall₂ :
    spells name written = true ↔
      List.Forall₂ (fun letter c => spellsLetter letter c = true) name written := by
  induction name generalizing written with
  | nil => cases written <;> simp [spells]
  | cons letter name ih =>
    cases written with
    | nil => simp [spells]
    | cons c written => simp [spells, ih]

theorem forall_mem_of_spells {p : Char → Prop} (spelled : spells name written = true)
    (small : ∀ letter ∈ name, isSmall letter = true)
    (each : ∀ letter c, isSmall letter = true → spellsLetter letter c = true → p c) :
    ∀ c ∈ written, p c := by
  rw [spells_iff_forall₂] at spelled
  induction spelled with
  | nil => simp
  | cons same _ ih =>
    obtain ⟨first, others⟩ := List.forall_mem_cons.mp small
    exact List.forall_mem_cons.mpr ⟨each _ _ first same, ih others⟩

theorem spelled_of_images
    (images : List.Forall₂ (fun letter c => Image c [letter]) name written)
    (ascii : ∀ letter ∈ name, letter.toNat < 128) : Spelled name written := by
  rw [Spelled, spells_iff_forall₂]
  induction images with
  | nil => exact ⟨.nil, List.not_mem_nil⟩
  | cons image _ ih =>
    obtain ⟨first, others⟩ := List.forall_mem_cons.mp ascii
    obtain ⟨same, short⟩ := spellsLetter_of_image image first
    obtain ⟨spelled, short'⟩ := ih others
    rw [List.mem_cons, not_or]
    exact ⟨.cons same spelled, Ne.symm short, short'⟩

theorem Spelled.eq_of_lowers (spelled : Spelled name written)
    (small : ∀ letter ∈ name, isSmall letter = true) (lowers : Lowers written lower) :
    lower = name := by
  obtain ⟨same, short⟩ := spelled
  rw [spells_iff_forall₂] at same
  induction same generalizing lower with
  | nil =>
    cases lowers
    rfl
  | cons first _ ih =>
    obtain ⟨small, others⟩ := List.forall_mem_cons.mp small
    rw [List.mem_cons, not_or] at short
    cases lowers with
    | cons image lowers =>
      rw [image_of_spellsLetter small first (Ne.symm short.1) image, ih others lowers short.2]
      rfl

theorem Spelled.unique (spelled : Spelled name written) (spelled' : Spelled other written)
    (small : ∀ letter ∈ name, isSmall letter = true)
    (small' : ∀ letter ∈ other, isSmall letter = true) : name = other := by
  have lowers := lowers_lowercaseAfter [] written
  rw [← spelled.eq_of_lowers small lowers, ← spelled'.eq_of_lowers small' lowers]

end Names

/-- The forms of a colour literal, by the ways to spell its names. -/
inductive IsLiteral (spelling : List Char → List Char → Prop) : List Char → Prop where
  | hex {digits : List Char} : (∀ c ∈ digits, isHexDigit c = true) → digits.length ∈ digitCounts →
      IsLiteral spelling ('#' :: digits)
  | function {name written arguments : List Char} : name ∈ functionNames → spelling name written →
      (∀ c ∈ arguments, isParenthesis c = false) →
      IsLiteral spelling (written ++ '(' :: (arguments ++ [')']))
  | named {name written : List Char} : name ∈ colorNames → spelling name written →
      IsLiteral spelling written

section Literals

variable {before : Option Char} {text written name spelled arguments : List Char}

theorem isSmall_of_functionName (listed : name ∈ functionNames) :
    ∀ letter ∈ name, isSmall letter = true :=
  isSmall_of_listed (List.mem_append_left _ listed)

theorem isSmall_of_colorName (listed : name ∈ colorNames) :
    ∀ letter ∈ name, isSmall letter = true :=
  isSmall_of_listed (List.mem_append_right _ listed)

theorem not_isParenthesis_of_spells (same : spells name written = true)
    (small : ∀ letter ∈ name, isSmall letter = true) : ∀ c ∈ written, isParenthesis c = false :=
  forall_mem_of_spells same small fun _ _ small same => (letter_of_spellsLetter small same).2.1

theorem length_eq_of_spells (same : spells name written = true) : name.length = written.length :=
  (spells_iff_forall₂.mp same).length_eq

theorem functionAttempt_eq_some_iff :
    functionAttempt text name = some written ↔
      ∃ spelled arguments rest, spells name spelled = true ∧
        (∀ c ∈ arguments, isParenthesis c = false) ∧
        written = spelled ++ '(' :: (arguments ++ [')']) ∧
        text = spelled ++ '(' :: (arguments ++ ')' :: rest) := by
  unfold functionAttempt
  constructor
  · intro read
    simp only at read
    split at read
    · next rest behind =>
      simp only [Bool.and_eq_true, beq_iff_eq, Option.ite_none_right_eq_some,
        Option.some.injEq] at read
      obtain ⟨⟨spelled, closed⟩, rfl⟩ := read
      obtain ⟨after, closed⟩ := List.head?_eq_some_iff.mp closed
      refine ⟨text.take name.length, rest.takeWhile (!isParenthesis ·), after, spelled,
        fun c member => by simpa using List.mem_takeWhile_imp member, by simp, ?_⟩
      rw [← closed, List.takeWhile_append_dropWhile, ← behind, List.take_append_drop]
    · cases read
  · rintro ⟨spelled, arguments, rest, same, bare, rfl, rfl⟩
    have all : ∀ c ∈ arguments, (!isParenthesis c) = true := by simpa using bare
    have ends : ∀ c ∈ (')' :: rest).head?, (!isParenthesis c) = false := by simp; decide
    rw [length_eq_of_spells same]
    simp [takeWhile_run all ends, dropWhile_run all ends, same]

/-- The name before the parenthesis is the only one that can be read there. -/
theorem functionLiteral?_of_spelled (listed : name ∈ functionNames) (same : Spelled name spelled)
    (bare : ∀ c ∈ arguments, isParenthesis c = false) :
    functionLiteral? (spelled ++ '(' :: (arguments ++ [')'])) =
      some (spelled ++ '(' :: (arguments ++ [')'])) := by
  have small := isSmall_of_functionName listed
  rw [functionLiteral?_eq_findSome?]
  refine findSome?_eq_of_unique listed
    (functionAttempt_eq_some_iff.mpr ⟨spelled, arguments, [], same.1, bare, rfl, rfl⟩) ?_
  intro other listed' read
  obtain ⟨written, read⟩ := Option.isSome_iff_exists.mp read
  obtain ⟨spelled', arguments', rest, same', -, -, whole⟩ := functionAttempt_eq_some_iff.mp read
  have small' := isSmall_of_functionName listed'
  have run : ∀ c ∈ spelled, (!isParenthesis c) = true := by
    simpa using not_isParenthesis_of_spells same.1 small
  have run' : ∀ c ∈ spelled', (!isParenthesis c) = true := by
    simpa using not_isParenthesis_of_spells same' small'
  obtain ⟨rfl, -, -⟩ := run_unique run run' (by decide) (by decide) whole
  exact (same.unique ⟨same', same.2⟩ small small').symm

theorem functionLiteral?_of_spells_name (same : spells name written = true)
    (small : ∀ letter ∈ name, isSmall letter = true) : functionLiteral? written = none := by
  rw [Option.eq_none_iff_forall_ne_some]
  intro found read
  obtain ⟨-, -, spelled, arguments, rest, -, -, rfl⟩ := functionLiteral?_eq_some read
  exact absurd (not_isParenthesis_of_spells same small '(' (by simp)) (by decide)

theorem namedLiteral?_of_spelled (listed : name ∈ colorNames) (same : Spelled name written) :
    namedLiteral? written = some written := by
  have lengths : colorNames.all (fun name => name.length == 5) = true := by decide
  have length : ∀ name ∈ colorNames, name.length = 5 := fun name listed => by
    simpa using List.all_eq_true.mp lengths name listed
  have whole : written.length = 5 := by rw [← length_eq_of_spells same.1, length name listed]
  unfold namedLiteral?
  refine findSome?_eq_of_unique listed ?_ ?_
  · simp [length name listed, ← whole, same.1, isWordAt]
  · intro other listed' read
    simp only [length other listed', ← whole, List.take_length, List.drop_length] at read
    have spelled : spells other written = true := by
      by_contra differ
      simp [differ] at read
    exact (same.unique ⟨spelled, same.2⟩ (isSmall_of_colorName listed)
      (isSmall_of_colorName listed')).symm

theorem hexLiteral?_of_digits (hex : ∀ c ∈ text, isHexDigit c = true)
    (count : text.length ∈ digitCounts) : hexLiteral? ('#' :: text) = some ('#' :: text) := by
  have all : text.takeWhile isWord = text :=
    List.takeWhile_eq_self_iff.mpr fun c member => isWord_of_isHexDigit (hex c member)
  simp [hexLiteral?, all, count]
  exact hex

theorem hexLiteral?_of_spells (listed : name ∈ functionNames ++ colorNames)
    (same : spells name written = true) (rest : List Char) : hexLiteral? (written ++ rest) = none := by
  have signs := forall_mem_of_spells same (isSmall_of_listed listed) fun _ _ small same =>
    (letter_of_spellsLetter small same).2.2
  obtain ⟨c, more, rfl, -⟩ := head_of_spells listed same
  rw [Option.eq_none_iff_forall_ne_some]
  intro found read
  obtain ⟨digits, rest, -, whole, -⟩ := hexLiteral?_eq_some read
  exact signs c List.mem_cons_self (List.cons_eq_cons.mp whole).1

theorem literalAt?_of_isLiteral (form : IsLiteral Spelled text) :
    literalAt? none text = some text := by
  cases form with
  | hex hex count => simp [literalAt?, hexLiteral?_of_digits hex count]
  | function listed same bare =>
    simp [literalAt?, hexLiteral?_of_spells (List.mem_append_left _ listed) same.1, isWordAt,
      functionLiteral?_of_spelled listed same bare]
  | named listed same =>
    have noHex := hexLiteral?_of_spells (List.mem_append_right _ listed) same.1 []
    rw [List.append_nil] at noHex
    simp [literalAt?, noHex, isWordAt, namedLiteral?_of_spelled listed same,
      functionLiteral?_of_spells_name same.1 (isSmall_of_colorName listed)]

theorem isLiteral_of_literalAt? (read : literalAt? before text = some written) :
    IsLiteral (spells · · = true) written := by
  rcases literalAt?_eq_some read with hex | function | named
  · obtain ⟨digits, -, rfl, -, hex, count⟩ := hexLiteral?_eq_some hex
    exact .hex (List.all_eq_true.mp hex) count
  · rw [functionLiteral?_eq_findSome?] at function
    obtain ⟨name, listed, function⟩ := List.exists_of_findSome?_eq_some function
    obtain ⟨spelled, arguments, -, same, bare, rfl, -⟩ := functionAttempt_eq_some_iff.mp function
    exact .function listed same bare
  · obtain ⟨name, listed, -, same, -⟩ := namedLiteral?_eq_some named
    exact .named listed same

theorem trim_of_forall_dark (dark : ∀ c ∈ text, isBlank c = false) : trim text = text :=
  trim_of_dark (fun c first => dark c (List.mem_of_head? first))
    fun c last => dark c (List.mem_of_getLast? last)

theorem forall_dark_of_spells (same : spells name written = true)
    (small : ∀ letter ∈ name, isSmall letter = true) : ∀ c ∈ written, isBlank c = false :=
  forall_mem_of_spells same small fun _ _ small same => (letter_of_spellsLetter small same).1

theorem trim_of_isLiteral (form : IsLiteral (spells · · = true) text) : trim text = text := by
  cases form with
  | hex hex count =>
    refine trim_of_forall_dark (List.forall_mem_cons.mpr ⟨by decide, fun c member => ?_⟩)
    have range := isHexDigit_iff.mp (hex c member)
    exact isBlank_eq_false (by omega) (by omega)
  | function listed same bare =>
    have dark := forall_dark_of_spells same (isSmall_of_functionName listed)
    obtain ⟨c, more, rfl, -⟩ := head_of_spells (List.mem_append_left _ listed) same
    apply trim_of_dark
    · simpa using dark c List.mem_cons_self
    · rw [← List.cons_append, ← List.append_assoc, List.getLast?_concat]
      simp
      decide
  | named listed same =>
    exact trim_of_forall_dark (forall_dark_of_spells same (isSmall_of_colorName listed))

theorem takeWhile_of_spells (same : spells name spelled = true)
    (small : ∀ letter ∈ name, isSmall letter = true) (rest : List Char) :
    (spelled ++ '(' :: rest).takeWhile (· != '(') = spelled := by
  refine takeWhile_run (fun c member => ?_) (by simp)
  have bare := not_isParenthesis_of_spells same small c member
  rw [bne_iff_ne]
  rintro rfl
  exact absurd bare (by decide)

/-- Only the name of a literal, which stands before its parenthesis, has to be spelled. -/
theorem isLiteral_spelled_iff (form : IsLiteral (spells · · = true) text) :
    IsLiteral Spelled text ↔ '\u017f' ∉ text.takeWhile (· != '(') := by
  have part : '\u017f' ∈ text.takeWhile (· != '(') → '\u017f' ∈ text :=
    fun member => (List.takeWhile_sublist _).mem member
  constructor
  · intro spelled long
    cases spelled with
    | hex hex count =>
      rcases List.mem_cons.mp (part long) with same | member
      · exact absurd same (by decide)
      · exact absurd (hex _ member) (by decide)
    | function listed same bare =>
      rw [takeWhile_of_spells same.1 (isSmall_of_functionName listed)] at long
      exact same.2 long
    | named listed same => exact same.2 (part long)
  · intro short
    cases form with
    | hex hex count => exact .hex hex count
    | function listed same bare =>
      rw [takeWhile_of_spells same (isSmall_of_functionName listed)] at short
      exact .function listed ⟨same, short⟩ bare
    | named listed same =>
      refine .named listed ⟨same, fun long => short ?_⟩
      -- A name has no parenthesis, so the part before one is all of it.
      have bare := not_isParenthesis_of_spells same (isSmall_of_colorName listed)
      have all : text.takeWhile (· != '(') = text := by
        rw [List.takeWhile_eq_self_iff]
        intro c member
        rw [bne_iff_ne]
        rintro rfl
        exact absurd (bare _ member) (by decide)
      rwa [all]

end Literals

section Canonical

variable {text lower : List Char}

theorem isSign_parenthesis {c : Char} (parenthesis : isParenthesis c = true) : IsSign c := by
  rw [isParenthesis, Bool.or_eq_true, beq_iff_eq, beq_iff_eq] at parenthesis
  rcases parenthesis with rfl | rfl <;> exact ⟨by decide, by decide⟩

theorem bare_iff_of_lowers (lowers : Lowers text lower) :
    (∀ c ∈ lower, isParenthesis c = false) ↔ ∀ c ∈ text, isParenthesis c = false := by
  constructor <;> intro bare c member <;> by_contra parenthesis <;>
    rw [Bool.not_eq_false] at parenthesis
  · have inside := (lowers.mem_sign_iff (isSign_parenthesis parenthesis)).mpr member
    simp [bare c inside] at parenthesis
  · have inside := (lowers.mem_sign_iff (isSign_parenthesis parenthesis)).mp member
    simp [bare c inside] at parenthesis

theorem exists_canonicalHex? {digits : List Char} (hex : ∀ c ∈ digits, isHexDigit c = true)
    (count : digits.length ∈ digitCounts) : ∃ color, canonicalHex? digits = some color := by
  simp only [digitCounts, List.mem_cons, List.not_mem_nil, or_false] at count
  rw [canonicalHex?, if_pos (List.all_eq_true.mpr hex)]
  rcases count with count | count | count | count <;> rw [count] <;> exact ⟨_, rfl⟩

/-- Once a text is lowered, its names have to be written as they are. -/
theorem isSome_canonicalLower?_iff :
    (canonicalLower? text).isSome = true ↔ IsLiteral Eq text := by
  rw [Option.isSome_iff_exists]
  constructor
  · rintro ⟨color, made⟩
    unfold canonicalLower? at made
    split at made
    · next white => exact .named (List.mem_cons_self ..) (beq_iff_eq.mp white).symm
    · split at made
      · next black => exact .named (by simp [colorNames]) (beq_iff_eq.mp black).symm
      · split at made
        · next digits _ _ =>
          unfold canonicalHex? at made
          split at made
          · next hex =>
            refine .hex (List.all_eq_true.mp hex) ?_
            split at made <;> simp_all [digitCounts]
          · cases made
        · obtain ⟨name, listed, inner, bare, rfl, -⟩ := exists_of_canonicalFunction? made
          exact .function listed rfl bare
  · intro form
    cases form with
    | hex hex count =>
      unfold canonicalLower?
      rw [if_neg (by simp), if_neg (by simp)]
      exact exists_canonicalHex? hex count
    | function listed same bare =>
      subst same
      rw [canonicalLower?_of_function listed, canonicalFunction?_of_parts listed bare]
      exact ⟨_, rfl⟩
    | named listed same =>
      subst same
      simp only [colorNames, List.mem_cons, List.not_mem_nil, or_false] at listed
      rcases listed with rfl | rfl <;> exact ⟨_, rfl⟩

theorem ascii_of_isHexDigit {c : Char} (hex : isHexDigit c = true) : c.toNat < 128 := by
  have range := isHexDigit_iff.mp hex
  omega

theorem isHexDigit_of_spellsLetter {digit c : Char} (hex : isHexDigit digit = true)
    (same : spellsLetter digit c = true) : isHexDigit c = true := by
  have checked := forall_ascii (p := fun digit => !isHexDigit digit || isHexDigit digit.toUpper)
    (by decide +kernel) (ascii_of_isHexDigit hex)
  simp only [spellsLetter, Bool.or_eq_true, Bool.and_eq_true, beq_iff_eq] at same
  rcases same with ((rfl | rfl) | ⟨rfl, -⟩) | ⟨rfl, -⟩
  · exact hex
  · simpa [hex] using checked
  · exact absurd hex (by decide)
  · exact absurd hex (by decide)

theorem isHexDigit_of_spells {digits written : List Char} (same : spells digits written = true)
    (hex : ∀ c ∈ digits, isHexDigit c = true) : ∀ c ∈ written, isHexDigit c = true := by
  rw [spells_iff_forall₂] at same
  induction same with
  | nil => simp
  | cons same _ ih =>
    obtain ⟨first, others⟩ := List.forall_mem_cons.mp hex
    exact List.forall_mem_cons.mpr ⟨isHexDigit_of_spellsLetter first same, ih others⟩

theorem spelled_of_lowers (lowers : Lowers text lower) (ascii : ∀ c ∈ lower, c.toNat < 128) :
    Spelled lower text := by
  rw [← List.append_nil lower] at lowers
  obtain ⟨written, rest, rfl, images, behind⟩ := lowers.exists_word ascii (by simp)
  obtain rfl := behind.eq_nil
  rw [List.append_nil]
  exact spelled_of_images images ascii

theorem ascii_of_isSmall {name : List Char} (small : ∀ letter ∈ name, isSmall letter = true) :
    ∀ letter ∈ name, letter.toNat < 128 := by
  intro letter member
  have range := small letter member
  simp only [isSmall, Bool.and_eq_true, decide_eq_true_eq] at range
  omega

/-- A text is a literal whose names are spelled exactly if what it is lowered to is one whose names
are written as they are. -/
theorem isLiteral_iff_of_lowers (lowers : Lowers text lower) :
    IsLiteral Eq lower ↔ IsLiteral Spelled text := by
  constructor
  · intro form
    cases form with
    | @hex digits hex count =>
      have ascii : ∀ c ∈ '#' :: digits, c.toNat < 128 :=
        List.forall_mem_cons.mpr ⟨by decide, fun c member => ascii_of_isHexDigit (hex c member)⟩
      have same := (spelled_of_lowers lowers ascii).1
      cases text with
      | nil => simp [spells] at same
      | cons c text =>
        rw [spells, Bool.and_eq_true] at same
        obtain ⟨sign, same⟩ := same
        obtain rfl : c = '#' := by simpa [spellsLetter] using sign
        rw [length_eq_of_spells same] at count
        exact .hex (isHexDigit_of_spells same hex) count
    | @function name written inner listed same bare =>
      subst same
      have ascii := ascii_of_isSmall (isSmall_of_functionName listed)
      obtain ⟨written, rest, rfl, images, behind⟩ := lowers.exists_word ascii (by simp)
      -- What is lowered to the rest of the function begins and ends with its parentheses.
      have opens : Lowers rest ([] ++ '(' :: (inner ++ [')'])) := behind
      obtain ⟨gap, rest, rfl, none, closes⟩ := opens.exists_sign (isSign_parenthesis rfl)
      obtain rfl := none.eq_nil
      obtain ⟨arguments, rest, rfl, lowered, ends⟩ := closes.exists_sign (isSign_parenthesis rfl)
      obtain rfl := ends.eq_nil
      exact .function listed (spelled_of_images images ascii) ((bare_iff_of_lowers lowered).mp bare)
    | named listed same =>
      subst same
      exact .named listed
        (spelled_of_lowers lowers (ascii_of_isSmall (isSmall_of_colorName listed)))
  · intro form
    cases form with
    | @hex digits hex count =>
      obtain ⟨lower, rfl, behind⟩ := lowers.of_sign ⟨by decide, by decide⟩
      have lowered := behind.eq_map_toLower fun c member => ascii_of_isHexDigit (hex c member)
      refine .hex (fun c member => ?_) (by rwa [lowered, List.length_map])
      rw [lowered] at member
      obtain ⟨digit, listed, rfl⟩ := List.mem_map.mp member
      have checked := forall_ascii (p := fun c => !isHexDigit c || isHexDigit c.toLower)
        (by decide +kernel) (ascii_of_isHexDigit (hex digit listed))
      simpa [hex digit listed] using checked
    | function listed same bare =>
      obtain ⟨name', rest, rfl, named, opens⟩ := lowers.of_append
      obtain ⟨rest, rfl, behind⟩ := opens.of_sign (isSign_parenthesis rfl)
      obtain ⟨inner, rest, rfl, lowered, closes⟩ := behind.of_append
      obtain ⟨rest, rfl, ends⟩ := closes.of_sign (isSign_parenthesis rfl)
      cases ends
      exact .function listed (same.eq_of_lowers (isSmall_of_functionName listed) named).symm
        ((bare_iff_of_lowers lowered).mpr bare)
    | named listed same =>
      exact .named listed (same.eq_of_lowers (isSmall_of_colorName listed) lowers).symm

/-- A text has a canonical form exactly if it is a literal between blanks. -/
theorem isSome_canonical?_iff :
    (canonical? text).isSome = true ↔ IsLiteral Spelled (trim text) := by
  rw [canonical?, isSome_canonicalLower?_iff]
  exact isLiteral_iff_of_lowers (lowers_lowercaseAfter [] _)

theorem canonicalValue?_eq (text : List Char) : canonicalValue? text = canonical? text := by
  cases made : canonical? text with
  | none => simp [canonicalValue?, made]
  | some color =>
    have form : IsLiteral Spelled (trim text) := isSome_canonical?_iff.mp (by rw [made]; rfl)
    simp [canonicalValue?, literalAt?_of_isLiteral form, made]

/-- A literal has a canonical form exactly if no long s is in its name. -/
theorem isSome_normalize?_of_found {offset : Nat} {written : List Char}
    (found : (offset, written) ∈ Recognizer.findAll literal text) :
    (normalize? (String.ofList written)).isSome = true ↔
      '\u017f' ∉ written.takeWhile (· != '(') := by
  obtain ⟨front, piece, rest, -, -, taken⟩ :=
    (Recognizer.findings_findFrom literal_bounded 0 none text).place found
  obtain ⟨rfl, read⟩ := eq_of_literal taken
  have form := isLiteral_of_literalAt? read
  rw [normalize?, String.toList_ofList, Option.isSome_map, isSome_canonical?_iff,
    trim_of_isLiteral form, isLiteral_spelled_iff form]

end Canonical

/-- Canonical colours are made of the same texts whether or not a text has to be one literal, they
are their own canonical forms, and every literal that a search finds has one unless a long s is in
its name. -/
theorem normalize?_agrees :
    (∀ raw, normalizeValue? raw = normalize? raw) ∧
    (∀ raw color, normalize? raw = some color →
      normalize? color = some color ∧ normalizeValue? color = some color) ∧
    ∀ text offset written, (offset, written) ∈ Recognizer.findAll literal text →
      ('\u017f' ∉ written → ∃ color, normalize? (String.ofList written) = some color) ∧
      (normalize? (String.ofList written) = none ↔ '\u017f' ∈ written.takeWhile (· != '(')) := by
  have same : ∀ raw, normalizeValue? raw = normalize? raw := fun raw => by
    rw [normalizeValue?, normalize?, canonicalValue?_eq]
  refine ⟨same, fun raw color made => ?_, fun text offset written found => ?_⟩
  · rw [same]
    exact ⟨normalize?_fixed made, normalize?_fixed made⟩
  · have named := isSome_normalize?_of_found found
    refine ⟨fun short => Option.isSome_iff_exists.mp (named.mpr fun long => short ?_), ?_⟩
    · exact (List.takeWhile_sublist _).mem long
    · rw [← Option.not_isSome_iff_eq_none, named, not_not]

theorem normalize?_agrees_long_s :
    (0, ['b', 'L', 'a', 'c', '\u212a']) ∈
      Recognizer.findAll literal ['b', 'L', 'a', 'c', '\u212a', ' ', 'h', '\u017f', 'l', '(', ')'] ∧
    (8, ['h', '\u017f', 'l', '(', ')']) ∈
      Recognizer.findAll literal ['b', 'L', 'a', 'c', '\u212a', ' ', 'h', '\u017f', 'l', '(', ')'] ∧
    (∃ color, normalize? (String.ofList ['b', 'L', 'a', 'c', '\u212a']) = some color) ∧
    normalize? (String.ofList ['h', '\u017f', 'l', '(', ')']) = none ∧
    normalize? "#000" = some "#000000" ∧ normalizeValue? "#000000" = some "#000000" := by
  have black : (0, ['b', 'L', 'a', 'c', '\u212a']) ∈
      Recognizer.findAll literal ['b', 'L', 'a', 'c', '\u212a', ' ', 'h', '\u017f', 'l', '(', ')'] := by
    decide +kernel
  have long : (8, ['h', '\u017f', 'l', '(', ')']) ∈
      Recognizer.findAll literal ['b', 'L', 'a', 'c', '\u212a', ' ', 'h', '\u017f', 'l', '(', ')'] := by
    decide +kernel
  have made : normalize? "#000" = some "#000000" := by decide +kernel
  obtain ⟨-, fixed, found⟩ := normalize?_agrees
  exact ⟨black, long, (found _ _ _ black).1 (by decide), (found _ _ _ long).2.mpr (by decide), made,
    (fixed _ _ made).2⟩

end ColorTokens.Color

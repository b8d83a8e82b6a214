import ColorTokens.Proofs.Exchange
import ColorTokens.Proofs.Source.QuotedText

/-! Parts of a text that make no difference to its reader. A part without quotes, braces and line
breaks, in which no comment begins or ends, leaves code as code, a comment as the comment it is, and
a quoted text open; so one such part can take the place of another. -/

set_option autoImplicit false

namespace ColorTokens.Source

open ColorTokens.Text

def isInertChar (c : Char) : Bool :=
  !List.contains ['{', '}', ';', '=', '\'', '"', '\x60', '\n'] c

section Characters

variable {c : Char}

theorem not_isQuote_of_isInertChar (inert : isInertChar c = true) : isQuote c = false := by
  rw [Bool.eq_false_iff]
  intro quote
  simp only [isQuote, Bool.or_eq_true, beq_iff_eq] at quote
  rcases quote with (rfl | rfl) | rfl <;> exact absurd inert (by decide)

theorem ne_of_isInertChar (inert : isInertChar c = true) :
    c ≠ '{' ∧ c ≠ '}' ∧ c ≠ ';' ∧ c ≠ '=' ∧ c ≠ '\n' := by
  refine ⟨?_, ?_, ?_, ?_, ?_⟩ <;> rintro rfl <;> exact absurd inert (by decide)

end Characters

/-- A text that a reader can be in the midst of: none of its characters means anything by itself,
and no two of them begin or end a comment. -/
structure Calm (text : List Char) : Prop where
  inert : ∀ c ∈ text, isInertChar c = true
  line : ¬ ['/', '/'] <:+: text
  opening : ¬ ['/', '*'] <:+: text
  closing : ¬ ['*', '/'] <:+: text

theorem Calm.tail {c : Char} {text : List Char} (calm : Calm (c :: text)) : Calm text where
  inert d member := calm.inert d (List.mem_cons_of_mem _ member)
  line inside := calm.line (inside.trans (List.suffix_cons c text).isInfix)
  opening inside := calm.opening (inside.trans (List.suffix_cons c text).isInfix)
  closing inside := calm.closing (inside.trans (List.suffix_cons c text).isInfix)

/-- What is pending in a phase finds no second half at the start of a text. -/
structure Phase.Unmatched (phase : Phase) (text : List Char) : Prop where
  slash : phase = .slash → ∀ c ∈ text.head?, c ≠ '/' ∧ c ≠ '*'
  star : phase = .star → ∀ c ∈ text.head?, c ≠ '/'

section Steps

variable {phase : Phase} {c : Char} {text : List Char}

theorem Phase.rest_next_of_inert (proper : phase.Proper) (inert : isInertChar c = true)
    (unmatched : phase.Unmatched (c :: text)) : (phase.next c).rest = phase.rest := by
  have quote := not_isQuote_of_isInertChar inert
  obtain ⟨-, -, -, -, newline⟩ := ne_of_isInertChar inert
  cases phase with
  | code => by_cases slash : c = '/' <;> simp [Phase.next, slash, quote, rest]
  | slash =>
    obtain ⟨slash, star⟩ := unmatched.slash rfl c rfl
    simp [Phase.next, slash, star, quote, rest]
  | lineComment => simp [Phase.next, newline]
  | blockComment => by_cases star : c = '*' <;> simp [Phase.next, star, rest]
  | star =>
    have slash := unmatched.star rfl c rfl
    by_cases star : c = '*' <;> simp [Phase.next, slash, star, rest]
  | quoted other =>
    have differ : c ≠ other := by
      rintro rfl
      rw [Phase.Proper, quote] at proper
      cases proper
    by_cases backslash : c = '\\' <;> simp [Phase.next, backslash, differ, rest]
  | escaped other => rfl

/-- A phase has something pending only because of the character that was read last. -/
theorem Phase.eq_of_next (phase : Phase) (c : Char) :
    (phase.next c = .slash → c = '/') ∧ (phase.next c = .star → c = '*') ∧
      ∀ quote, phase.next c = .escaped quote → c = '\\' := by
  refine ⟨fun same => ?_, fun same => ?_, fun quote same => ?_⟩ <;> cases phase <;>
    simp only [Phase.next] at same <;> grind

theorem Calm.unmatched (calm : Calm (c :: text)) (phase : Phase) :
    (phase.next c).Unmatched text where
  slash same d first := by
    obtain ⟨more, rfl⟩ := List.head?_eq_some_iff.mp first
    cases (phase.eq_of_next c).1 same
    refine ⟨?_, ?_⟩
    · rintro rfl
      exact calm.line ⟨[], more, rfl⟩
    · rintro rfl
      exact calm.opening ⟨[], more, rfl⟩
  star same d first := by
    obtain ⟨more, rfl⟩ := List.head?_eq_some_iff.mp first
    cases (phase.eq_of_next c).2.1 same
    rintro rfl
    exact calm.closing ⟨[], more, rfl⟩

theorem Phase.isCode_iff_rest (phase : Phase) : phase.isCode = true ↔ phase.rest = .code := by
  cases phase <;> simp [isCode, rest]

theorem Phase.isCode_eq_of_rest {other : Phase} (same : other.rest = phase.rest) :
    other.isCode = phase.isCode := by
  rw [Bool.eq_iff_iff, isCode_iff_rest, isCode_iff_rest, same]

theorem Calm.read (calm : Calm text) (proper : phase.Proper) (unmatched : phase.Unmatched text) :
    (phase.after text).rest = phase.rest ∧
      (∀ depth, walk (depth, phase) text = some (depth, phase.after text)) ∧
      (phase.isCode = false → phase.stays text = true) := by
  induction text generalizing phase with
  | nil => exact ⟨rfl, fun _ => rfl, fun _ => rfl⟩
  | cons c text ih =>
    have inert := calm.inert c List.mem_cons_self
    obtain ⟨opening, closing, -⟩ := ne_of_isInertChar inert
    have same := Phase.rest_next_of_inert proper inert unmatched
    obtain ⟨rest, walked, stays⟩ := ih calm.tail (proper.next c) (calm.unmatched phase)
    refine ⟨rest.trans same, fun depth => ?_, fun inside => ?_⟩
    · rw [walk_cons, advance_of_ne_brace opening closing, Option.bind_some, walked]
      rfl
    · have still : (phase.next c).isCode = false :=
        (Phase.isCode_eq_of_rest same).trans inside
      rw [Phase.stays, still, stays still]
      rfl

end Steps

/-- A text that leaves a reader where it was, with nothing pending. -/
structure Neutral (text : List Char) : Prop where
  after : ∀ phase : Phase, phase.Proper → phase.after text = phase.rest
  walk : ∀ depth (phase : Phase), phase.Proper →
    Source.walk (depth, phase) text = some (depth, phase.rest)
  stays : ∀ phase : Phase, phase.Proper → phase.stays text = !phase.isCode

theorem Calm.neutral {text : List Char} (calm : Calm text) {c d : Char}
    (first : text.head? = some c) (last : text.getLast? = some d) (bare : c ≠ '/' ∧ c ≠ '*')
    (settled : d ≠ '/' ∧ d ≠ '*' ∧ d ≠ '\\') : Neutral text := by
  have unmatched (phase : Phase) : phase.Unmatched text := by
    refine ⟨fun _ e same => ?_, fun _ e same => ?_⟩ <;> rw [first, Option.mem_some_iff] at same <;>
      subst same
    · exact bare
    · exact bare.1
  have after (phase : Phase) (proper : phase.Proper) : phase.after text = phase.rest := by
    obtain ⟨front, rfl⟩ := List.getLast?_eq_some_iff.mp last
    have reached : phase.after (front ++ [d]) = (phase.after front).next d := by
      rw [Phase.after_append]
      rfl
    have nothing : ((phase.after front).next d).rest = (phase.after front).next d := by
      obtain ⟨slash, star, escaped⟩ := (phase.after front).eq_of_next d
      cases same : (phase.after front).next d with
      | slash => exact absurd (slash same) settled.1
      | star => exact absurd (star same) settled.2.1
      | escaped quote => exact absurd (escaped quote same) settled.2.2
      | _ => rfl
    rw [← (calm.read proper (unmatched phase)).1, reached, nothing]
  refine ⟨after, fun depth phase proper => ?_, fun phase proper => ?_⟩
  · rw [(calm.read proper (unmatched phase)).2.1, after phase proper]
  · cases code : phase.isCode with
    | false => exact (calm.read proper (unmatched phase)).2.2 code
    | true =>
      -- The first character is already read as code.
      obtain ⟨rest, rfl⟩ := List.head?_eq_some_iff.mp first
      have inert := calm.inert c List.mem_cons_self
      have same := Phase.rest_next_of_inert proper inert (unmatched phase)
      rw [Phase.stays, Phase.isCode_eq_of_rest same, code]
      rfl

section Exchanged

variable {pieces : List Piece} {phase : Phase}

def AllNeutral (pieces : List Piece) : Prop :=
  ∀ old new, .swapped old new ∈ pieces → Neutral old ∧ Neutral new

theorem Phase.Proper.rest (proper : phase.Proper) : phase.rest.Proper := by
  cases phase <;> exact proper

theorem after_exchanged (neutral : AllNeutral pieces) (proper : phase.Proper) :
    phase.after (textAfter pieces) = phase.after (textBefore pieces) := by
  induction pieces generalizing phase with
  | nil => rfl
  | cons piece pieces ih =>
    have others : AllNeutral pieces := fun old new member =>
      neutral old new (List.mem_cons_of_mem _ member)
    cases piece with
    | kept c => exact ih others (proper.next c)
    | swapped old new =>
      obtain ⟨first, second⟩ := neutral old new List.mem_cons_self
      rw [textAfter_swapped, textBefore_swapped, Phase.after_append, Phase.after_append,
        first.after phase proper, second.after phase proper, ih others proper.rest]

theorem stays_exchanged (neutral : AllNeutral pieces) (proper : phase.Proper) :
    phase.stays (textAfter pieces) = phase.stays (textBefore pieces) := by
  induction pieces generalizing phase with
  | nil => rfl
  | cons piece pieces ih =>
    have others : AllNeutral pieces := fun old new member =>
      neutral old new (List.mem_cons_of_mem _ member)
    cases piece with
    | kept c =>
      rw [textAfter_kept, textBefore_kept, Phase.stays, Phase.stays, ih others (proper.next c)]
    | swapped old new =>
      obtain ⟨first, second⟩ := neutral old new List.mem_cons_self
      rw [textAfter_swapped, textBefore_swapped, Phase.stays_append, Phase.stays_append,
        first.after phase proper, second.after phase proper, first.stays phase proper,
        second.stays phase proper, ih others proper.rest]

theorem walk_exchanged (neutral : AllNeutral pieces) (proper : phase.Proper) (depth : Nat) :
    walk (depth, phase) (textAfter pieces) = walk (depth, phase) (textBefore pieces) := by
  induction pieces generalizing phase depth with
  | nil => rfl
  | cons piece pieces ih =>
    have others : AllNeutral pieces := fun old new member =>
      neutral old new (List.mem_cons_of_mem _ member)
    cases piece with
    | kept c =>
      rw [textAfter_kept, textBefore_kept, walk_cons, walk_cons]
      cases moves : advance (depth, phase) c with
      | none => rfl
      | some state =>
        have single : walk (depth, phase) [c] = some state := by
          rw [walk_cons, moves]
          rfl
        exact ih others (proper.walk single) state.1
    | swapped old new =>
      obtain ⟨first, second⟩ := neutral old new List.mem_cons_self
      rw [textAfter_swapped, textBefore_swapped, walk_append, walk_append,
        first.walk depth phase proper, second.walk depth phase proper]
      exact ih others proper.rest depth

theorem isContent_exchanged {quote : Char} (neutral : AllNeutral pieces)
    (quoted : isQuote quote = true) (content : IsContent quote (textAfter pieces)) :
    IsContent quote (textBefore pieces) := by
  have proper : (Phase.quoted quote).Proper := quoted
  exact ⟨(stays_exchanged neutral proper).symm.trans content.stays,
    (after_exchanged neutral proper).symm.trans content.closes⟩

end Exchanged

end ColorTokens.Source

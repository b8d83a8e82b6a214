import ColorTokens.Source.Block
import ColorTokens.Proofs.Text.Bytes
import ColorTokens.Text.Blank

/-! Brace blocks one character at a time. A slash, a star in a block comment and a backslash in a
quoted text wait for the character behind them; with these as phases of their own, what a text
leaves a reader in is a fold over its characters, and the closing brace is the first one read as
code at depth one. -/

set_option autoImplicit false

namespace ColorTokens.Source

open ColorTokens.Text

/-- What the characters read so far make of the next one. -/
inductive Phase where
  | code
  | slash
  | lineComment
  | blockComment
  | star
  | quoted (quote : Char)
  | escaped (quote : Char)
  deriving DecidableEq, Repr

namespace Phase

def ofMode : Mode → Phase
  | .code => .code
  | .lineComment => .lineComment
  | .blockComment => .blockComment
  | .quoted quote => .quoted quote

def isCode : Phase → Bool
  | .code | .slash => true
  | _ => false

def next : Phase → Char → Phase
  | .code, c => if c = '/' then .slash else if isQuote c then .quoted c else .code
  | .slash, c =>
    if c = '/' then .lineComment
    else if c = '*' then .blockComment
    else if isQuote c then .quoted c
    else .code
  | .lineComment, c => if c = '\n' then .code else .lineComment
  | .blockComment, c => if c = '*' then .star else .blockComment
  | .star, c => if c = '/' then .code else if c = '*' then .star else .blockComment
  | .quoted quote, c =>
    if c = '\\' then .escaped quote else if c = quote then .code else .quoted quote
  | .escaped quote, _ => .quoted quote

end Phase

/-- Reading goes on by one character, or by the two that begin or end a comment or make an escape. -/
@[elab_as_elim]
theorem Mode.reading_induction {motive : Mode → List Char → Prop}
    (nil : ∀ mode, motive mode [])
    (lineComment : ∀ c rest, motive (if c = '\n' then .code else .lineComment) rest →
      motive .lineComment (c :: rest))
    (commentEnd : ∀ rest, motive .code rest → motive .blockComment ('*' :: '/' :: rest))
    (blockComment : ∀ c rest, (∀ more, c = '*' → rest = '/' :: more → False) →
      motive .blockComment rest → motive .blockComment (c :: rest))
    (escape : ∀ quote c rest, motive (.quoted quote) rest →
      motive (.quoted quote) ('\\' :: c :: rest))
    (quoted : ∀ quote c rest, (∀ d more, c = '\\' → rest = d :: more → False) →
      motive (if c = quote then .code else .quoted quote) rest → motive (.quoted quote) (c :: rest))
    (lineStart : ∀ rest, motive .lineComment rest → motive .code ('/' :: '/' :: rest))
    (blockStart : ∀ rest, motive .blockComment rest → motive .code ('/' :: '*' :: rest))
    (code : ∀ c rest, (∀ more, c = '/' → rest = '/' :: more → False) →
      (∀ more, c = '/' → rest = '*' :: more → False) →
      motive (if isQuote c then .quoted c else .code) rest → motive .code (c :: rest))
    (mode : Mode) (text : List Char) : motive mode text := by
  -- Two characters may be read at once, so the induction is on the length of the text.
  induction length : text.length using Nat.strongRecOn generalizing mode text with
  | ind _ shorter =>
    cases text with
    | nil => exact nil mode
    | cons c rest =>
      have next (mode : Mode) : motive mode rest :=
        shorter rest.length (by rw [← length, List.length_cons]; omega) mode rest rfl
      have afterNext {d : Char} {more : List Char} (two : rest = d :: more) (mode : Mode) :
          motive mode more := by
        refine shorter more.length ?_ mode more rfl
        rw [← length, two, List.length_cons, List.length_cons]
        omega
      cases mode with
      | lineComment => exact lineComment c rest (next _)
      | blockComment =>
        by_cases ends : ∃ more, c = '*' ∧ rest = '/' :: more
        · obtain ⟨more, rfl, two⟩ := ends
          exact two ▸ commentEnd more (afterNext two _)
        · exact blockComment c rest (fun more star slash => ends ⟨more, star, slash⟩) (next _)
      | quoted quote =>
        by_cases escapes : ∃ d more, c = '\\' ∧ rest = d :: more
        · obtain ⟨d, more, rfl, two⟩ := escapes
          exact two ▸ escape quote d more (afterNext two _)
        · exact quoted quote c rest (fun d more first two => escapes ⟨d, more, first, two⟩) (next _)
      | code =>
        by_cases line : ∃ more, c = '/' ∧ rest = '/' :: more
        · obtain ⟨more, rfl, two⟩ := line
          exact two ▸ lineStart more (afterNext two _)
        · by_cases block : ∃ more, c = '/' ∧ rest = '*' :: more
          · obtain ⟨more, rfl, two⟩ := block
            exact two ▸ blockStart more (afterNext two _)
          · exact code c rest (fun more first two => line ⟨more, first, two⟩)
              (fun more first two => block ⟨more, first, two⟩) (next _)

/-- A depth of braces and a phase, one character further. The brace that closes the outermost block
leads nowhere. -/
def advance (state : Nat × Phase) (c : Char) : Option (Nat × Phase) :=
  if state.2.isCode && c == '{' then some (state.1 + 1, .code)
  else if state.2.isCode && c == '}' then if state.1 ≤ 1 then none else some (state.1 - 1, .code)
  else some (state.1, state.2.next c)

def walk (state : Nat × Phase) (text : List Char) : Option (Nat × Phase) :=
  text.foldlM advance state

theorem walk_cons (state : Nat × Phase) (c : Char) (rest : List Char) :
    walk state (c :: rest) = (advance state c).bind (walk · rest) := by
  rw [walk, List.foldlM_cons]
  rfl

theorem walk_append (state : Nat × Phase) (front back : List Char) :
    walk state (front ++ back) = (walk state front).bind (walk · back) := by
  rw [walk, List.foldlM_append]
  rfl

def closingWalk : Nat → Nat × Phase → List Char → Option Nat
  | _, _, [] => none
  | offset, state, c :: rest =>
    if state.2.isCode && c == '}' && state.1 == 1 then some offset
    else (advance state c).bind fun next => closingWalk (offset + c.utf8Size) next rest

section Closing

variable {depth offset : Nat} {phase : Phase} {c : Char} {rest : List Char}

theorem advance_of_not_code (inert : phase.isCode = false) (c : Char) :
    advance (depth, phase) c = some (depth, phase.next c) := by
  simp [advance, inert]

theorem advance_of_ne_brace (first : c ≠ '{') (second : c ≠ '}') :
    advance (depth, phase) c = some (depth, phase.next c) := by
  simp [advance, first, second]

theorem closingWalk_step {state next : Nat × Phase} (moves : advance state c = some next) :
    closingWalk offset state (c :: rest) = closingWalk (offset + c.utf8Size) next rest := by
  have open' : ¬ (state.2.isCode && c == '}' && state.1 == 1) = true := by
    intro closes
    simp only [Bool.and_eq_true, beq_iff_eq] at closes
    obtain ⟨⟨code, rfl⟩, depth⟩ := closes
    simp [advance, code, depth] at moves
  rw [closingWalk, if_neg open', moves, Option.bind_some]

theorem ne_of_mem_head? {d e : Char} (next : d ∈ rest.head?)
    (absent : ∀ more, rest = e :: more → False) : d ≠ e := by
  rintro rfl
  obtain ⟨more, whole⟩ := List.head?_eq_some_iff.mp next
  exact absent more whole

theorem closingWalk_slash (plain : ∀ c ∈ rest.head?, c ≠ '/' ∧ c ≠ '*') :
    closingWalk offset (depth, .slash) rest = closingWalk offset (depth, .code) rest := by
  cases rest with
  | nil => rfl
  | cons c rest =>
    obtain ⟨first, second⟩ := plain c rfl
    simp [closingWalk, advance, Phase.isCode, Phase.next, first, second]

theorem closingWalk_star (open' : ∀ c ∈ rest.head?, c ≠ '/') :
    closingWalk offset (depth, .star) rest = closingWalk offset (depth, .blockComment) rest := by
  cases rest with
  | nil => rfl
  | cons c rest => simp [closingWalk, advance, Phase.isCode, Phase.next, open' c rfl]

theorem closingWalk_blockComment (open' : ∀ more, c = '*' → rest = '/' :: more → False) :
    closingWalk offset (depth, .blockComment) (c :: rest) =
      closingWalk (offset + c.utf8Size) (depth, .blockComment) rest := by
  rw [closingWalk_step (advance_of_not_code rfl c)]
  by_cases star : c = '*'
  · subst star
    exact closingWalk_star fun d next => ne_of_mem_head? next fun more => open' more rfl
  · simp [Phase.next, star]

theorem closingWalk_quoted {quote : Char} (last : ∀ d more, c = '\\' → rest = d :: more → False) :
    closingWalk offset (depth, .quoted quote) (c :: rest) =
      closingWalk (offset + c.utf8Size) (depth, .ofMode (if c = quote then .code else .quoted quote))
        rest := by
  rw [closingWalk_step (advance_of_not_code rfl c)]
  by_cases escape : c = '\\'
  · -- A backslash that ends the text escapes nothing.
    cases rest with
    | nil => rfl
    | cons d rest => exact (last d rest escape rfl).elim
  · by_cases closes : c = quote
    · subst closes
      simp [Phase.next, Phase.ofMode, escape]
    · simp [Phase.next, Phase.ofMode, escape, closes]

theorem closingFrom_blockComment (open' : ∀ more, c = '*' → rest = '/' :: more → False) :
    closingFrom depth offset .blockComment (c :: rest) =
      closingFrom depth (offset + c.utf8Size) .blockComment rest := by
  rw [closingFrom]
  exact open'

theorem closingFrom_quoted {quote : Char} (last : ∀ d more, c = '\\' → rest = d :: more → False) :
    closingFrom depth offset (.quoted quote) (c :: rest) =
      closingFrom depth (offset + c.utf8Size) (if c = quote then .code else .quoted quote) rest := by
  rw [closingFrom]
  exact last

theorem closingFrom_code (line : ∀ more, c = '/' → rest = '/' :: more → False)
    (block : ∀ more, c = '/' → rest = '*' :: more → False) :
    closingFrom depth offset .code (c :: rest) =
      if isQuote c then closingFrom depth (offset + c.utf8Size) (.quoted c) rest
      else if c = '{' then closingFrom (depth + 1) (offset + 1) .code rest
      else if c = '}' then
        if depth = 0 then none
        else if depth = 1 then some offset
        else closingFrom (depth - 1) (offset + 1) .code rest
      else closingFrom depth (offset + c.utf8Size) .code rest := by
  rcases depth with _ | _ | outer
  · rw [closingFrom]
    · rfl
    · exact line
    · exact block
  · rw [closingFrom]
    · rfl
    · exact line
    · exact block
  · rw [closingFrom]
    · rfl
    · exact line
    · exact block
    · exact Nat.succ_ne_zero outer

theorem closingWalk_code (line : ∀ more, c = '/' → rest = '/' :: more → False)
    (block : ∀ more, c = '/' → rest = '*' :: more → False) :
    closingWalk offset (depth, .code) (c :: rest) =
      if isQuote c then closingWalk (offset + c.utf8Size) (depth, .quoted c) rest
      else if c = '{' then closingWalk (offset + 1) (depth + 1, .code) rest
      else if c = '}' then
        if depth = 0 then none
        else if depth = 1 then some offset
        else closingWalk (offset + 1) (depth - 1, .code) rest
      else closingWalk (offset + c.utf8Size) (depth, .code) rest := by
  by_cases quote : isQuote c = true
  · have other : c ≠ '/' ∧ c ≠ '{' ∧ c ≠ '}' := by
      refine ⟨?_, ?_, ?_⟩ <;> rintro rfl <;> exact absurd quote (by decide)
    rw [if_pos quote, closingWalk_step (advance_of_ne_brace other.2.1 other.2.2)]
    simp [Phase.next, other.1, quote]
  · rw [if_neg quote]
    by_cases opening : c = '{'
    · subst opening
      rfl
    · rw [if_neg opening]
      by_cases closing : c = '}'
      · subst closing
        rw [if_pos rfl]
        match depth with
        | 0 => rfl
        | 1 => rfl
        | outer + 2 => rfl
      · rw [if_neg closing, closingWalk_step (advance_of_ne_brace opening closing)]
        -- A slash that begins no comment waits for what is next, and is code all the same.
        by_cases slash : c = '/'
        · subst slash
          exact closingWalk_slash fun d next => ⟨ne_of_mem_head? next fun more => line more rfl,
            ne_of_mem_head? next fun more => block more rfl⟩
        · simp [Phase.next, slash, quote]

theorem closingFrom_eq_closingWalk (depth offset : Nat) (mode : Mode) (text : List Char) :
    closingFrom depth offset mode text = closingWalk offset (depth, .ofMode mode) text := by
  induction mode, text using Mode.reading_induction generalizing depth offset with
  | nil mode => cases mode <;> rfl
  | lineComment c rest ih =>
    rw [closingFrom, ih, Phase.ofMode, closingWalk_step (advance_of_not_code rfl c)]
    by_cases newline : c = '\n' <;> simp [newline, Phase.next, Phase.ofMode]
  | commentEnd rest ih =>
    rw [closingFrom, ih]
    rfl
  | blockComment c rest open' ih =>
    rw [closingFrom_blockComment open', ih]
    exact (closingWalk_blockComment open').symm
  | escape quote c rest ih =>
    rw [closingFrom, ih]
    rfl
  | quoted quote c rest last ih =>
    rw [closingFrom_quoted last, ih]
    exact (closingWalk_quoted last).symm
  | lineStart rest ih =>
    rw [closingFrom, ih]
    rfl
  | blockStart rest ih =>
    rw [closingFrom, ih]
    rfl
  | code c rest line block ih =>
    rw [closingFrom_code line block, Phase.ofMode, closingWalk_code line block]
    by_cases quote : isQuote c = true
    · rw [if_pos quote] at ih
      rw [if_pos quote, if_pos quote, ih, Phase.ofMode]
    · rw [if_neg quote] at ih
      simp only [if_neg quote, ih, Phase.ofMode]

/-- The brace found is the first closing one that is read as code at depth one. -/
theorem closingWalk_eq_some_iff {state : Nat × Phase} {text : List Char} {place : Nat} :
    closingWalk offset state text = some place ↔
      ∃ inner back phase, text = inner ++ '}' :: back ∧ walk state inner = some (1, phase) ∧
        phase.isCode = true ∧ place = offset + byteLength inner := by
  induction text generalizing offset state with
  | nil => simp [closingWalk]
  | cons c rest ih =>
    rw [closingWalk]
    by_cases closes : (state.2.isCode && c == '}' && state.1 == 1) = true
    · rw [if_pos closes]
      simp only [Bool.and_eq_true, beq_iff_eq] at closes
      obtain ⟨depth, phase⟩ := state
      obtain ⟨⟨code, rfl⟩, rfl⟩ := closes
      constructor
      · intro same
        cases same
        exact ⟨[], rest, phase, rfl, rfl, code, by simp⟩
      · rintro ⟨inner, back, phase', parted, walked, code', rfl⟩
        cases inner with
        | nil => simp
        | cons d inner =>
          -- A walk does not go past the brace that closes the block.
          obtain ⟨rfl, _⟩ := List.cons.inj parted
          simp [walk, advance, code] at walked
    · rw [if_neg closes, Option.bind_eq_some_iff]
      constructor
      · rintro ⟨next, moves, found⟩
        obtain ⟨inner, back, phase, rfl, walked, code, rfl⟩ := ih.mp found
        refine ⟨c :: inner, back, phase, rfl, ?_, code, by simp [Nat.add_assoc]⟩
        rw [walk_cons, moves, Option.bind_some, walked]
      · rintro ⟨inner, back, phase, parted, walked, code, rfl⟩
        cases inner with
        | nil =>
          cases walked
          obtain ⟨rfl, _⟩ := List.cons.inj parted
          exact absurd (by simp [code]) closes
        | cons d inner =>
          obtain ⟨rfl, rfl⟩ := List.cons.inj parted
          rw [walk_cons, Option.bind_eq_some_iff] at walked
          obtain ⟨next, moves, walked⟩ := walked
          exact ⟨next, moves, ih.mpr ⟨inner, back, phase, rfl, walked, code, by
            simp [Nat.add_assoc]⟩⟩

theorem closingBrace?_eq_some_iff {text : List Char} {opening closing : Nat} :
    closingBrace? text opening = some closing ↔
      ∃ front inner back phase, text = front ++ '{' :: (inner ++ '}' :: back) ∧
        byteLength front = opening ∧ walk (1, .code) inner = some (1, phase) ∧
        phase.isCode = true ∧ closing = opening + 1 + byteLength inner := by
  unfold closingBrace?
  constructor
  · intro found
    split at found
    · next front rest cut =>
      rw [closingFrom_eq_closingWalk, closingWalk_eq_some_iff] at found
      obtain ⟨inner, back, phase, rfl, walked, code, rfl⟩ := found
      obtain ⟨whole, length⟩ := cut?_eq_some_iff.mp cut
      exact ⟨front, inner, back, phase, whole, length, walked, code, rfl⟩
    · cases found
  · rintro ⟨front, inner, back, phase, rfl, rfl, walked, code, rfl⟩
    rw [cut?_append]
    simp only
    rw [closingFrom_eq_closingWalk, closingWalk_eq_some_iff]
    exact ⟨inner, back, phase, rfl, walked, code, rfl⟩

theorem exists_append_of_closing {state : Nat × Phase} {body inner back : List Char}
    (walked : walk (1, .code) body = some state) (closed : walk (1, .code) inner = some (1, phase))
    (code : phase.isCode = true) (same : body ++ rest = inner ++ '}' :: back) :
    ∃ left, inner = body ++ left ∧ rest = left ++ '}' :: back := by
  rcases List.append_eq_append_iff.mp same with ⟨left, longer, behind⟩ | ⟨left, rfl, brace⟩
  · exact ⟨left, longer, behind⟩
  · cases left with
    | nil => exact ⟨[], by simp, by simpa using brace.symm⟩
    | cons c left =>
      obtain ⟨rfl, -⟩ := List.cons_eq_cons.mp brace
      rw [walk_append, closed, Option.bind_some, walk_cons] at walked
      simp [advance, code] at walked

end Closing

section Walks

variable {depth depth' : Nat} {phase phase' : Phase} {c : Char} {text : List Char}

def isPlain (c : Char) : Bool :=
  c != '{' && c != '}' && c != '/' && !isQuote c

theorem walk_plain (plain : ∀ c ∈ text, isPlain c = true) :
    walk (depth, .code) text = some (depth, .code) := by
  induction text with
  | nil => rfl
  | cons c text ih =>
    have first := plain c (List.mem_cons_self ..)
    simp only [isPlain, Bool.and_eq_true, bne_iff_ne, ne_eq, Bool.not_eq_true'] at first
    obtain ⟨⟨⟨opening, closing⟩, slash⟩, quote⟩ := first
    rw [walk_cons, advance_of_ne_brace opening closing, Option.bind_some]
    simp only [Phase.next, slash, quote]
    exact ih fun d member => plain d (List.mem_cons_of_mem _ member)

/-- Quoted texts are those of the three quotes. -/
def Phase.Proper : Phase → Prop
  | .quoted quote | .escaped quote => isQuote quote = true
  | _ => True

/-- Phases that a line break brings back to code. -/
def Phase.settles : Phase → Bool
  | .code | .slash | .lineComment => true
  | _ => false

theorem Phase.settles_of_isCode (code : phase.isCode = true) : phase.settles = true := by
  cases phase <;> first | rfl | cases code

theorem Phase.Proper.next (proper : phase.Proper) (c : Char) : (phase.next c).Proper := by
  cases phase with
  | code =>
    simp only [Phase.next]
    split
    · trivial
    · split
      · next quote => exact quote
      · trivial
  | slash =>
    simp only [Phase.next]
    split
    · trivial
    · split
      · trivial
      · split
        · next quote => exact quote
        · trivial
  | lineComment =>
    simp only [Phase.next]
    split <;> trivial
  | blockComment =>
    simp only [Phase.next]
    split <;> trivial
  | star =>
    simp only [Phase.next]
    split
    · trivial
    · split <;> trivial
  | quoted quote =>
    simp only [Phase.next]
    split
    · exact proper
    · split
      · trivial
      · exact proper
  | escaped quote => exact proper

theorem Phase.Proper.walk (proper : phase.Proper)
    (walked : Source.walk (depth, phase) text = some (depth', phase')) : phase'.Proper := by
  induction text generalizing depth phase with
  | nil =>
    cases walked
    exact proper
  | cons c text ih =>
    rw [walk_cons, Option.bind_eq_some_iff] at walked
    obtain ⟨⟨_, _⟩, moves, walked⟩ := walked
    refine ih ?_ walked
    unfold advance at moves
    split at moves
    · cases moves
      trivial
    · split at moves
      · split at moves
        · cases moves
        · cases moves
          trivial
      · cases moves
        exact proper.next c

theorem isPlain_of_class {p : Char → Bool}
    (apart : ['{', '}', '/', '\'', '"', '\x60'].all (fun c => !p c) = true) (inside : p c = true) :
    isPlain c = true := by
  by_contra special
  simp only [isPlain, isQuote, Bool.and_eq_true, bne_iff_ne, ne_eq, Bool.not_eq_true',
    Bool.or_eq_false_iff, beq_eq_false_iff_ne, not_and_or, not_not] at special
  have listed : c ∈ ['{', '}', '/', '\'', '"', '\x60'] := by
    rcases special with ((rfl | rfl) | rfl) | (rfl | rfl) | rfl <;> decide
  have other := List.all_eq_true.mp apart c listed
  rw [inside] at other
  cases other

theorem isPlain_of_isBlank (blank : isBlank c = true) : isPlain c = true :=
  isPlain_of_class (by decide) blank

theorem advance_of_isPlain (plain : isPlain c = true) :
    advance (depth, phase) c = some (depth, phase.next c) := by
  simp only [isPlain, Bool.and_eq_true, bne_iff_ne, ne_eq] at plain
  exact advance_of_ne_brace plain.1.1.1 plain.1.1.2

/-- Blanks lead back to code only from where a line break does. -/
theorem Phase.settles_of_next_blank (proper : phase.Proper) (blank : isBlank c = true)
    (after : (phase.next c).settles = true) : phase.settles = true := by
  have star : c ≠ '*' := by rintro rfl; exact absurd blank (by decide)
  have slash : c ≠ '/' := by rintro rfl; exact absurd blank (by decide)
  have backslash : c ≠ '\\' := by rintro rfl; exact absurd blank (by decide)
  cases phase with
  | code => rfl
  | slash => rfl
  | lineComment => rfl
  | blockComment => simp [Phase.next, star, Phase.settles] at after
  | star => simp [Phase.next, star, slash, Phase.settles] at after
  | quoted quote =>
    have differ : c ≠ quote := by
      rintro rfl
      have plain := isPlain_of_isBlank blank
      simp only [Phase.Proper] at proper
      simp [isPlain, proper] at plain
    simp [Phase.next, backslash, differ, Phase.settles] at after
  | escaped quote => simp [Phase.next, Phase.settles] at after

theorem settles_of_walk_blanks (blanks : ∀ c ∈ text, isBlank c = true) (proper : phase.Proper)
    (walked : walk (depth, phase) text = some (depth', phase')) (after : phase'.settles = true) :
    depth' = depth ∧ phase.settles = true := by
  induction text generalizing phase with
  | nil =>
    cases walked
    exact ⟨rfl, after⟩
  | cons c text ih =>
    have blank := blanks c (List.mem_cons_self ..)
    rw [walk_cons, advance_of_isPlain (isPlain_of_isBlank blank), Option.bind_some] at walked
    obtain ⟨same, settled⟩ := ih (fun d member => blanks d (List.mem_cons_of_mem _ member))
      (proper.next c) walked
    exact ⟨same, Phase.settles_of_next_blank proper blank settled⟩

theorem walk_newline (settled : phase.settles = true) (quiet : ∀ c ∈ text, isPlain c = true)
    (stars : ∀ c ∈ text, c ≠ '*') : walk (depth, phase) (text ++ ['\n']) = some (depth, .code) := by
  induction text generalizing phase with
  | nil => cases phase <;> first | rfl | cases settled
  | cons c text ih =>
    have plain := quiet c (List.mem_cons_self ..)
    rw [List.cons_append, walk_cons, advance_of_isPlain plain, Option.bind_some]
    refine ih ?_ (fun d member => quiet d (List.mem_cons_of_mem _ member))
      (fun d member => stars d (List.mem_cons_of_mem _ member))
    have star := stars c (List.mem_cons_self ..)
    simp only [isPlain, Bool.and_eq_true, bne_iff_ne, ne_eq, Bool.not_eq_true'] at plain
    obtain ⟨⟨_, slash⟩, quote⟩ := plain
    cases phase with
    | code => simp [Phase.next, slash, quote, Phase.settles]
    | slash => simp [Phase.next, slash, star, quote, Phase.settles]
    | lineComment =>
      simp only [Phase.next]
      split <;> rfl
    | _ => cases settled

end Walks

end ColorTokens.Source

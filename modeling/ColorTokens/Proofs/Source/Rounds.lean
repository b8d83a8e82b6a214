import ColorTokens.Proofs.Source.QuotedText
import Mathlib.Logic.Relation

/-! The two readers of source text, one round at a time. A round takes one character, or the two that
begin or end a comment or make an escape. The search for a closing brace keeps a depth along with it,
the search for quoted texts the place where the last one was opened. Where the first search ends at
its brace, both have gone through the text before it in the same rounds. -/

set_option autoImplicit false

namespace ColorTokens.Source

open ColorTokens.Text

/-- What a round takes from the text ahead, and the mode it leads to. -/
def Mode.round : Mode → List Char → Option (List Char × Mode)
  | _, [] => none
  | .lineComment, c :: _ => some ([c], if c = '\n' then .code else .lineComment)
  | .blockComment, '*' :: '/' :: _ => some (['*', '/'], .code)
  | .blockComment, c :: _ => some ([c], .blockComment)
  | .quoted quote, '\\' :: c :: _ => some (['\\', c], .quoted quote)
  | .quoted quote, c :: _ => some ([c], if c = quote then .code else .quoted quote)
  | .code, '/' :: '/' :: _ => some (['/', '/'], .lineComment)
  | .code, '/' :: '*' :: _ => some (['/', '*'], .blockComment)
  | .code, c :: _ => some ([c], if isQuote c then .quoted c else .code)

namespace Mode

variable {mode mode' : Mode} {taken text rest tail : List Char} {quote c : Char}

theorem round_blockComment (open' : ∀ more, c = '*' → text = '/' :: more → False) :
    Mode.blockComment.round (c :: text) = some ([c], .blockComment) := by
  rw [Mode.round]
  exact open'

theorem round_quoted (last : ∀ d more, c = '\\' → text = d :: more → False) :
    (Mode.quoted quote).round (c :: text) =
      some ([c], if c = quote then .code else .quoted quote) := by
  rw [Mode.round]
  exact last

theorem round_code (line : ∀ more, c = '/' → text = '/' :: more → False)
    (block : ∀ more, c = '/' → text = '*' :: more → False) :
    Mode.code.round (c :: text) = some ([c], if isQuote c then .quoted c else .code) := by
  rw [Mode.round]
  · exact line
  · exact block

theorem exists_of_round (round : mode.round text = some (taken, mode')) :
    taken ≠ [] ∧ ∃ rest, text = taken ++ rest := by
  unfold Mode.round at round
  split at round <;> cases round <;> exact ⟨List.cons_ne_nil _ _, _, rfl⟩

/-- A round goes the same where the text ends anywhere behind what it takes. -/
theorem round_append (round : mode.round (taken ++ (rest ++ tail)) = some (taken, mode')) :
    mode.round (taken ++ rest) = some (taken, mode') := by
  generalize whole : taken ++ (rest ++ tail) = text at round
  unfold Mode.round at round
  split at round <;> cases round
  · rfl
  · rfl
  · next c more open' =>
    obtain ⟨-, rfl⟩ := List.cons_eq_cons.mp whole
    exact round_blockComment fun more star next =>
      open' (more ++ tail) star (congrArg (· ++ tail) next)
  · rfl
  · next quote c more last =>
    obtain ⟨-, rfl⟩ := List.cons_eq_cons.mp whole
    exact round_quoted fun d more escape next =>
      last d (more ++ tail) escape (congrArg (· ++ tail) next)
  · rfl
  · rfl
  · next c more line block =>
    obtain ⟨-, rfl⟩ := List.cons_eq_cons.mp whole
    exact round_code
      (fun more slash next => line (more ++ tail) slash (congrArg (· ++ tail) next))
      fun more slash next => block (more ++ tail) slash (congrArg (· ++ tail) next)

theorem eq_of_round_quoted (round : (Mode.quoted quote).round text = some (taken, mode')) :
    mode' = .quoted quote ∨ mode' = .code := by
  unfold Mode.round at round
  split at round <;> grind

theorem eq_of_round_to_quoted (round : mode.round text = some (taken, .quoted quote)) :
    mode = .quoted quote ∨ mode = .code := by
  unfold Mode.round at round
  split at round <;> grind

theorem isQuote_of_round (round : Mode.code.round text = some (taken, .quoted quote)) :
    isQuote quote = true := by
  unfold Mode.round at round
  split at round <;> grind

end Mode

structure Search where
  depth : Nat
  offset : Nat
  mode : Mode
  ahead : List Char

namespace Search

inductive Verdict where
  | goesOn (next : Search)
  | found (place : Nat)
  /-- A brace closes more than was opened. -/
  | unbalanced
  | exhausted

def verdict (search : Search) : Verdict :=
  match search.mode.round search.ahead with
  | none => .exhausted
  | some (taken, mode) =>
    let next (depth : Nat) : Search :=
      ⟨depth, search.offset + byteLength taken, mode, search.ahead.drop taken.length⟩
    if search.mode = .code ∧ taken = ['{'] then .goesOn (next (search.depth + 1))
    else if search.mode = .code ∧ taken = ['}'] then
      match search.depth with
      | 0 => .unbalanced
      | 1 => .found search.offset
      | outer + 1 => .goesOn (next outer)
    else .goesOn (next search.depth)

def answer (search : Search) : Option Nat :=
  closingFrom search.depth search.offset search.mode search.ahead

def Verdict.answer : Verdict → Option Nat
  | .goesOn next => next.answer
  | .found place => some place
  | .unbalanced | .exhausted => none

theorem verdict_of_round {search : Search} {taken : List Char} {mode : Mode}
    (round : search.mode.round search.ahead = some (taken, mode))
    (plain : search.mode = .code → taken ≠ ['{'] ∧ taken ≠ ['}']) :
    search.verdict = .goesOn ⟨search.depth, search.offset + byteLength taken, mode,
      search.ahead.drop taken.length⟩ := by
  unfold verdict
  rw [round]
  simp only
  rw [if_neg fun brace => (plain brace.1).1 brace.2, if_neg fun brace => (plain brace.1).2 brace.2]

theorem answer_eq (search : Search) : search.answer = search.verdict.answer := by
  obtain ⟨depth, offset, mode, ahead⟩ := search
  unfold answer
  simp only
  cases mode, ahead using Mode.reading_induction with
  | nil mode => cases mode <;> rfl
  | lineComment => rfl
  | commentEnd => rfl
  | blockComment c rest open' =>
    rw [closingFrom_blockComment open', verdict_of_round (Mode.round_blockComment open') (by simp)]
    rfl
  | escape =>
    rw [closingFrom, Nat.add_assoc]
    rfl
  | quoted quote c rest last =>
    rw [closingFrom_quoted last, verdict_of_round (Mode.round_quoted last) (by simp)]
    rfl
  | lineStart => rfl
  | blockStart => rfl
  | code c rest line block =>
    rw [closingFrom_code line block]
    by_cases brace : c = '{' ∨ c = '}'
    · rcases brace with rfl | rfl
      · rfl
      · rcases depth with _ | _ | outer <;> rfl
    · obtain ⟨opening, closing⟩ := not_or.mp brace
      rw [verdict_of_round (Mode.round_code line block) (by simp [opening, closing]),
        if_neg opening, if_neg closing]
      by_cases quote : isQuote c = true
      · rw [if_pos quote, if_pos quote]
        rfl
      · rw [if_neg quote, if_neg quote]
        rfl

section Steps

variable {search next : Search} {place : Nat}

theorem verdict_cases (search : Search) :
    search.verdict = .exhausted ∨
    ∃ taken rest mode, taken ≠ [] ∧ search.ahead = taken ++ rest ∧
      search.mode.round search.ahead = some (taken, mode) ∧
      ((∃ depth, (0 < search.depth → 0 < depth) ∧
        search.verdict = .goesOn ⟨depth, search.offset + byteLength taken, mode, rest⟩) ∨
      search.mode = .code ∧ taken = ['}'] ∧
        (search.depth = 0 ∧ search.verdict = .unbalanced ∨
        search.depth = 1 ∧ search.verdict = .found search.offset)) := by
  unfold verdict
  cases round : search.mode.round search.ahead with
  | none => exact .inl rfl
  | some move =>
    obtain ⟨taken, mode⟩ := move
    obtain ⟨nonempty, rest, parted⟩ := Mode.exists_of_round round
    have behind : search.ahead.drop taken.length = rest := by rw [parted, List.drop_left]
    refine .inr ⟨taken, rest, mode, nonempty, parted, rfl, ?_⟩
    simp only [behind]
    split
    · exact .inl ⟨_, fun _ => Nat.succ_pos _, rfl⟩
    · split
      · next brace =>
        -- Only here does it matter how deep the search is.
        split
        · next shallow => exact .inr ⟨brace.1, brace.2, .inl ⟨shallow, rfl⟩⟩
        · next shallow => exact .inr ⟨brace.1, brace.2, .inr ⟨shallow, rfl⟩⟩
        · next deeper _ => exact .inl ⟨_, fun _ => Nat.pos_of_ne_zero deeper, rfl⟩
      · exact .inl ⟨_, id, rfl⟩

theorem of_goesOn (goes : search.verdict = .goesOn next) :
    ∃ taken, taken ≠ [] ∧ search.ahead = taken ++ next.ahead ∧
      search.mode.round search.ahead = some (taken, next.mode) ∧
      next.offset = search.offset + byteLength taken ∧ (0 < search.depth → 0 < next.depth) := by
  rcases search.verdict_cases with ends | ⟨taken, rest, mode, nonempty, parted, round, moves⟩
  · rw [goes] at ends
    cases ends
  · rcases moves with ⟨depth, deeper, goes'⟩ | ⟨-, -, ⟨-, ends⟩ | ⟨-, ends⟩⟩
    · obtain rfl := Verdict.goesOn.inj (goes.symm.trans goes')
      exact ⟨taken, nonempty, parted, round, rfl, deeper⟩
    · rw [goes] at ends
      cases ends
    · rw [goes] at ends
      cases ends

theorem of_found (found : search.verdict = .found place) :
    search.mode = .code ∧ place = search.offset ∧ ∃ back, search.ahead = '}' :: back := by
  rcases search.verdict_cases with ends | ⟨taken, rest, mode, -, parted, -, moves⟩
  · rw [found] at ends
    cases ends
  · rcases moves with ⟨depth, -, goes⟩ | ⟨code, rfl, ⟨-, ends⟩ | ⟨-, ends⟩⟩
    · rw [found] at goes
      cases goes
    · rw [found] at ends
      cases ends
    · exact ⟨code, Verdict.found.inj (found.symm.trans ends), rest, parted⟩

theorem depth_of_unbalanced (failed : search.verdict = .unbalanced) : search.depth = 0 := by
  rcases search.verdict_cases with ends | ⟨taken, rest, mode, -, -, -, moves⟩
  · rw [failed] at ends
    cases ends
  · rcases moves with ⟨depth, -, goes⟩ | ⟨-, -, ⟨shallow, -⟩ | ⟨-, ends⟩⟩
    · rw [failed] at goes
      cases goes
    · exact shallow
    · rw [failed] at ends
      cases ends

end Steps

def Next (search next : Search) : Prop :=
  search.verdict = .goesOn next

def Reaches : Search → Search → Prop :=
  Relation.ReflTransGen Next

/-- The search for the brace that closes the one at a byte offset, right behind that brace. -/
def begin? (text : List Char) (opening : Nat) : Option Search :=
  match cut? opening text with
  | some (_, '{' :: rest) => some ⟨1, opening + 1, .code, rest⟩
  | _ => none

section Runs

variable {search next state : Search} {place : Nat}

theorem next_unique : Relator.RightUnique Next := by
  intro search next next' goes goes'
  exact Verdict.goesOn.inj (goes.symm.trans goes')

theorem Reaches.ahead (reaches : search.Reaches state) :
    ∃ read, search.ahead = read ++ state.ahead ∧
      state.offset = search.offset + byteLength read := by
  induction reaches with
  | refl => exact ⟨[], rfl, rfl⟩
  | tail _ goes ih =>
    obtain ⟨read, parted, offset⟩ := ih
    obtain ⟨taken, -, parted', -, offset', -⟩ := of_goesOn goes
    refine ⟨read ++ taken, ?_, ?_⟩
    · rw [parted, parted', List.append_assoc]
    · rw [offset', offset, byteLength_append, Nat.add_assoc]

/-- A search that begins inside a block never leaves it. -/
theorem Reaches.depth_pos (reaches : search.Reaches state) (inside : 0 < search.depth) :
    0 < state.depth := by
  induction reaches with
  | refl => exact inside
  | tail _ goes ih =>
    obtain ⟨-, -, -, -, -, deeper⟩ := of_goesOn goes
    exact deeper ih

theorem Reaches.balanced {text : List Char} {opening : Nat} (begun : begin? text opening = some search)
    (reaches : search.Reaches state) : state.verdict ≠ .unbalanced := by
  have inside : 0 < search.depth := by
    unfold begin? at begun
    split at begun <;> cases begun
    exact Nat.one_pos
  intro failed
  have deep := reaches.depth_pos inside
  rw [depth_of_unbalanced failed] at deep
  exact Nat.lt_irrefl 0 deep

theorem closingBrace?_eq (text : List Char) (opening : Nat) :
    closingBrace? text opening = (begin? text opening).bind answer := by
  unfold closingBrace? begin?
  rcases cut? opening text with _ | ⟨front, rest⟩
  · rfl
  · cases rest with
    | nil => rfl
    | cons c rest =>
      by_cases brace : c = '{'
      · rw [brace]
        rfl
      · simp [brace]

/-- A search that has an answer goes on until it meets the brace. -/
theorem exists_found (found : search.answer = some place) :
    ∃ last, search.Reaches last ∧ last.verdict = .found place := by
  -- A round may take two characters, so the induction is on how much is still ahead.
  induction length : search.ahead.length using Nat.strongRecOn generalizing search with
  | ind n ih =>
    rw [answer_eq] at found
    cases judged : search.verdict with
    | goesOn next =>
      rw [judged] at found
      obtain ⟨taken, nonempty, parted, -⟩ := of_goesOn judged
      have shorter : next.ahead.length < n := by
        have positive := List.length_pos_iff.mpr nonempty
        rw [← length, parted, List.length_append]
        omega
      obtain ⟨last, reaches, ends⟩ := ih _ shorter found rfl
      exact ⟨last, .head judged reaches, ends⟩
    | found other =>
      rw [judged] at found
      cases found
      exact ⟨search, .refl, judged⟩
    | unbalanced =>
      rw [judged] at found
      cases found
    | exhausted =>
      rw [judged] at found
      cases found

end Runs

end Search

/-- Where the search for quoted texts stands; the last one was opened at `opened`. -/
structure Reading where
  opened : Nat
  offset : Nat
  mode : Mode
  ahead : List Char

namespace Reading

def spans (reading : Reading) : List Span :=
  quotedFrom reading.opened reading.offset reading.mode reading.ahead

def yield (reading : Reading) (mode : Mode) : List Span :=
  match reading.mode, mode with
  | .quoted quote, .code =>
    if quote = '\x60' then [] else [⟨reading.opened, reading.offset⟩]
  | _, _ => []

def after (reading : Reading) (taken : List Char) (mode : Mode) : Reading where
  opened :=
    match reading.mode, mode with
    | .code, .quoted _ => reading.offset + byteLength taken
    | _, _ => reading.opened
  offset := reading.offset + byteLength taken
  mode := mode
  ahead := reading.ahead.drop taken.length

def Next (reading next : Reading) : Prop :=
  ∃ taken mode, reading.mode.round reading.ahead = some (taken, mode) ∧
    next = reading.after taken mode

def Reaches : Reading → Reading → Prop :=
  Relation.ReflTransGen Next

theorem next_unique : Relator.RightUnique Next := by
  rintro reading _ _ ⟨taken, mode, round, rfl⟩ ⟨taken', mode', round', rfl⟩
  obtain ⟨rfl, rfl⟩ := Prod.mk.inj (Option.some.inj (round.symm.trans round'))
  rfl

theorem Reaches.to_end {start reading last : Reading} (reaches : start.Reaches reading)
    (ends : start.Reaches last) (done : last.ahead = []) : reading.Reaches last := by
  rcases Relation.ReflTransGen.total_of_right_unique next_unique reaches ends with onward | back
  · exact onward
  · rcases Relation.ReflTransGen.cases_head back with rfl | ⟨next, ⟨taken, mode, round, -⟩, -⟩
    · exact .refl
    · rw [done] at round
      cases last.mode <;> cases round

theorem spans_of_round {reading : Reading} {taken : List Char} {mode : Mode}
    (round : reading.mode.round reading.ahead = some (taken, mode)) :
    reading.spans = reading.yield mode ++ (reading.after taken mode).spans := by
  obtain ⟨opened, offset, now, ahead⟩ := reading
  simp only at round
  unfold Mode.round at round
  split at round <;> cases round
  · next c rest =>
    rw [spans, quotedFrom]
    split <;> simp [yield, after, spans]
  · rfl
  · next c rest open' =>
    rw [spans, quotedFrom_blockComment open']
    rfl
  · next quote c rest =>
    rw [spans, quotedFrom, Nat.add_assoc]
    rfl
  · next quote c rest last =>
    rw [spans, quotedFrom_quoted last]
    split
    · split <;> simp_all [yield, after, spans]
    · simp [yield, after, spans]
  · rfl
  · rfl
  · next c rest line block =>
    rw [spans, quotedFrom_code line block]
    split <;> simp [yield, after, spans]

def start (text : List Char) (start stop : Nat) : Reading :=
  let (offset, inner) := window text start stop
  ⟨offset, offset, .code, inner⟩

theorem spans_start (text : List Char) (start stop : Nat) :
    (Reading.start text start stop).spans = quotedSpans text start stop :=
  rfl

end Reading

end ColorTokens.Source

import ColorTokens.Proofs.Source.Rounds

/-! The quoted texts of a block. The search for the brace that closes a block reads past quoted
texts; those in single and double quotes are what is found between the two braces by the search for
quoted texts, which ends there in code again. -/

set_option autoImplicit false

namespace ColorTokens.Source

open ColorTokens.Text

namespace Search

/-- A search comes out of code into a quoted text. -/
def Enters (search : Search) (quote : Char) (first : Search) : Prop :=
  ∃ before, search.Reaches before ∧ before.mode = .code ∧ before.Next first ∧
    first.mode = .quoted quote

def NextWithin (quote : Char) (state next : Search) : Prop :=
  state.Next next ∧ next.mode = .quoted quote

/-- A search goes on in a quoted text up to the quote that leads back to code. -/
def Leaves (first : Search) (quote : Char) (last : Search) : Prop :=
  Relation.ReflTransGen (NextWithin quote) first last ∧ ∃ after, last.Next after ∧ after.mode = .code

def Skips (search : Search) (quote : Char) (content : Span) : Prop :=
  ∃ first last, search.Enters quote first ∧ first.Leaves quote last ∧
    content = ⟨first.offset, last.offset⟩

section Steps

variable {search next state first last final : Search} {quote : Char} {place : Nat}

theorem Reaches.of_next (goes : search.Next next) (reaches : search.Reaches state) :
    state = search ∨ next.Reaches state := by
  rcases Relation.ReflTransGen.cases_head reaches with same | ⟨other, goes', reaches⟩
  · exact .inl same.symm
  · rw [next_unique goes goes']
    exact .inr reaches

theorem enters_iff (goes : search.Next next) :
    search.Enters quote first ↔
      search.mode = .code ∧ next.mode = .quoted quote ∧ first = next ∨ next.Enters quote first := by
  constructor
  · rintro ⟨before, reaches, code, goes', quoted⟩
    rcases reaches.of_next goes with rfl | reaches
    · obtain rfl := next_unique goes goes'
      exact .inl ⟨code, quoted, rfl⟩
    · exact .inr ⟨before, reaches, code, goes', quoted⟩
  · rintro (⟨code, quoted, rfl⟩ | ⟨before, reaches, code, goes', quoted⟩)
    · exact ⟨search, .refl, code, goes, quoted⟩
    · exact ⟨before, .head goes reaches, code, goes', quoted⟩

theorem leaves_iff (goes : first.Next next) :
    first.Leaves quote last ↔
      next.mode = .code ∧ last = first ∨ next.mode = .quoted quote ∧ next.Leaves quote last := by
  constructor
  · rintro ⟨within, after, goes', code⟩
    rcases Relation.ReflTransGen.cases_head within with rfl | ⟨other, ⟨goes', quoted⟩, within⟩
    · rw [next_unique goes goes']
      exact .inl ⟨code, rfl⟩
    · rw [next_unique goes goes']
      exact .inr ⟨quoted, within, after, ‹_›, code⟩
  · rintro (⟨code, rfl⟩ | ⟨quoted, within, after⟩)
    · exact ⟨.refl, next, goes, code⟩
    · exact ⟨.head ⟨goes, quoted⟩ within, after⟩

theorem not_next_of_found (found : search.verdict = .found place) : ¬ search.Next next := by
  intro goes
  rw [Next, found] at goes
  cases goes

theorem skips_iff {content : Span} (goes : search.Next next) :
    search.Skips quote content ↔
      (search.mode = .code ∧ next.mode = .quoted quote ∧
        ∃ last, next.Leaves quote last ∧ content = ⟨next.offset, last.offset⟩) ∨
      next.Skips quote content := by
  constructor
  · rintro ⟨first, last, enters, leaves, rfl⟩
    rcases (enters_iff goes).mp enters with ⟨code, quoted, rfl⟩ | enters
    · exact .inl ⟨code, quoted, last, leaves, rfl⟩
    · exact .inr ⟨first, last, enters, leaves, rfl⟩
  · rintro (⟨code, quoted, last, leaves, rfl⟩ | ⟨first, last, enters, leaves, rfl⟩)
    · exact ⟨next, last, (enters_iff goes).mpr (.inl ⟨code, quoted, rfl⟩), leaves, rfl⟩
    · exact ⟨first, last, (enters_iff goes).mpr (.inr enters), leaves, rfl⟩

theorem not_skips_of_found {content : Span} (found : search.verdict = .found place) :
    ¬ search.Skips quote content := by
  rintro ⟨first, last, ⟨before, reaches, -, goes, -⟩, -⟩
  rcases Relation.ReflTransGen.cases_head reaches with rfl | ⟨other, goes', -⟩
  · exact not_next_of_found found goes
  · exact not_next_of_found found goes'

end Steps

end Search

/-- The search for quoted texts stands where the other search does, and has to go as far as where that
one ends. -/
structure Reading.Along (reading : Reading) (search final : Search) : Prop where
  offset : reading.offset = search.offset
  mode : reading.mode = search.mode
  ahead : search.ahead = reading.ahead ++ final.ahead

namespace Search

/-- What is found from a state on: the quoted text that the state is in, which was opened at `opened`,
and those that are entered later. -/
def Yields (search : Search) (opened : Nat) (span : Span) : Prop :=
  (∃ quote last, quote ≠ '\x60' ∧ search.mode = .quoted quote ∧ search.Leaves quote last ∧
    span = ⟨opened, last.offset⟩) ∨
  ∃ quote, quote ≠ '\x60' ∧ search.Skips quote span

section Lockstep

variable {search next final : Search} {reading : Reading} {taken : List Char} {place : Nat}
  {span : Span}

/-- Before the closing brace both searches go on in the same rounds. -/
theorem exists_round_along (along : reading.Along search final) (goes : search.Next next)
    (reaches : next.Reaches final) :
    ∃ taken, reading.mode.round reading.ahead = some (taken, next.mode) ∧
      (reading.after taken next.mode).Along next final := by
  obtain ⟨taken, -, parted, round, offset, -⟩ := of_goesOn goes
  obtain ⟨inner, behind, -⟩ := reaches.ahead
  have within : reading.ahead = taken ++ inner := by
    have whole := along.ahead
    rw [parted, behind, ← List.append_assoc] at whole
    exact (List.append_cancel_right whole).symm
  rw [parted, behind] at round
  refine ⟨taken, ?_, ?_, rfl, ?_⟩
  · rw [along.mode, within]
    exact Mode.round_append round
  · rw [offset, ← along.offset]
    rfl
  · change next.ahead = reading.ahead.drop taken.length ++ final.ahead
    rw [within, List.drop_left, behind]

theorem yields_iff (along : reading.Along search final) (goes : search.Next next)
    (round : reading.mode.round reading.ahead = some (taken, next.mode))
    (along' : (reading.after taken next.mode).Along next final) :
    search.Yields reading.opened span ↔ span ∈ reading.yield next.mode ∨
      next.Yields (reading.after taken next.mode).opened span := by
  obtain ⟨opened, offset, mode, ahead⟩ := reading
  obtain ⟨rfl, rfl, -⟩ := along
  have place : next.offset = search.offset + byteLength taken := along'.offset.symm
  simp only [Yields, skips_iff goes, Reading.after, ← place]
  cases mode : search.mode with
  | code =>
    cases mode' : next.mode with
    | quoted quote =>
      -- The quoted text that the next state is in was opened right before it.
      simp only [Reading.yield, List.not_mem_nil, false_or]
      constructor
      · rintro (⟨_, _, _, other, _⟩ | ⟨quote', plain, ⟨-, same, last, leaves, rfl⟩ | skips⟩)
        · cases other
        · exact .inl ⟨quote', last, plain, same, leaves, rfl⟩
        · exact .inr ⟨quote', plain, skips⟩
      · rintro (⟨quote', last, plain, same, leaves, rfl⟩ | ⟨quote', plain, skips⟩)
        · exact .inr ⟨quote', plain, .inl ⟨trivial, same, last, leaves, rfl⟩⟩
        · exact .inr ⟨quote', plain, .inr skips⟩
    | _ => simp [Reading.yield]
  | quoted quote =>
    simp only [mode] at round
    rcases Mode.eq_of_round_quoted round with mode' | mode'
    · -- The quoted text goes on.
      simp only [leaves_iff goes, mode', Reading.yield, List.not_mem_nil, false_or, reduceCtorEq,
        false_and]
      refine or_congr_left (exists_congr fun quote' => exists_congr fun last => ?_)
      refine and_congr_right fun _ => and_congr_right fun same => ?_
      rw [and_iff_right same]
    · -- The quoted text ends here, and is found unless it is in backticks.
      simp only [leaves_iff goes, mode', Reading.yield, reduceCtorEq, false_and, and_false,
        exists_false, false_or, or_false, true_and]
      refine or_congr_left ?_
      by_cases tick : quote = '\x60'
      · rw [if_pos tick]
        simp only [List.not_mem_nil, iff_false]
        rintro ⟨quote', _, plain, same, -⟩
        exact plain (Mode.quoted.inj same ▸ tick)
      · rw [if_neg tick, List.mem_singleton]
        constructor
        · rintro ⟨_, last, -, -, rfl, rfl⟩
          rfl
        · rintro rfl
          exact ⟨quote, search, tick, rfl, rfl, rfl⟩
  | _ =>
    -- A comment leads into no quoted text.
    have unquoted : ∀ quote, next.mode ≠ .quoted quote := by
      intro quote mode'
      rw [mode'] at round
      simp only [mode] at round
      rcases Mode.eq_of_round_to_quoted round with same | same <;> cases same
    simp [Reading.yield, unquoted]

theorem mem_spans_iff (reaches : search.Reaches final) (found : final.verdict = .found place)
    (along : reading.Along search final) : span ∈ reading.spans ↔ search.Yields reading.opened span := by
  induction reaches using Relation.ReflTransGen.head_induction_on generalizing reading with
  | refl =>
    obtain ⟨code, -, -⟩ := of_found found
    have none : reading.ahead = [] := by simpa using along.ahead
    simp [Reading.spans, none, quotedFrom, Yields, code, not_skips_of_found found]
  | head goes reaches ih =>
    obtain ⟨taken, round, along'⟩ := exists_round_along along goes reaches
    rw [Reading.spans_of_round round, List.mem_append, ih along', yields_iff along goes round along']

/-- At the closing brace the search for quoted texts is at the end of its text, in code again. -/
theorem exists_end (reaches : search.Reaches final) (found : final.verdict = .found place)
    (along : reading.Along search final) :
    ∃ last, reading.Reaches last ∧ last.ahead = [] ∧ last.mode = .code := by
  induction reaches using Relation.ReflTransGen.head_induction_on generalizing reading with
  | refl =>
    obtain ⟨code, -, -⟩ := of_found found
    exact ⟨reading, .refl, by simpa using along.ahead, along.mode.trans code⟩
  | @head search next goes reaches ih =>
    obtain ⟨taken, round, along'⟩ := exists_round_along along goes reaches
    obtain ⟨last, later, ends⟩ := ih along'
    exact ⟨last, .head ⟨taken, next.mode, round, rfl⟩ later, ends⟩

end Lockstep

section Places

variable {search next state first last final : Search} {quote : Char} {place : Nat}

theorem offset_lt_of_next (goes : search.Next next) : search.offset < next.offset := by
  obtain ⟨taken, nonempty, -, -, offset, -⟩ := of_goesOn goes
  cases taken with
  | nil => exact absurd rfl nonempty
  | cons c taken =>
    have positive := c.utf8Size_pos
    rw [offset, byteLength_cons]
    omega

theorem Reaches.eq_or_lt (reaches : search.Reaches state) :
    state = search ∨ search.offset < state.offset := by
  induction reaches with
  | refl => exact .inl rfl
  | tail _ goes ih =>
    have further := offset_lt_of_next goes
    rcases ih with rfl | before
    · exact .inr further
    · exact .inr (by omega)

theorem Reaches.to_found (reaches : search.Reaches state) (ends : search.Reaches final)
    (found : final.verdict = .found place) : state.Reaches final := by
  rcases Relation.ReflTransGen.total_of_right_unique next_unique reaches ends with onward | back
  · exact onward
  · rcases Relation.ReflTransGen.cases_head back with rfl | ⟨next, goes, -⟩
    · exact .refl
    · exact absurd goes (not_next_of_found found)

theorem Enters.reaches (enters : search.Enters quote first) : search.Reaches first := by
  obtain ⟨before, reaches, -, goes, -⟩ := enters
  exact .tail reaches goes

theorem Enters.mode (enters : search.Enters quote first) : first.mode = .quoted quote := by
  obtain ⟨-, -, -, -, quoted⟩ := enters
  exact quoted

theorem Enters.isQuote (enters : search.Enters quote first) : isQuote quote = true := by
  obtain ⟨before, -, code, goes, quoted⟩ := enters
  obtain ⟨taken, -, -, round, -⟩ := of_goesOn goes
  rw [code, quoted] at round
  exact Mode.isQuote_of_round round

theorem Leaves.reaches (leaves : first.Leaves quote last) : first.Reaches last :=
  leaves.1.lift id fun _ _ goes => goes.1

/-- A quoted text that is open before the closing brace is closed before it. -/
theorem exists_leaves (reaches : first.Reaches final) (code : final.mode = .code)
    (inside : first.mode = .quoted quote) : ∃ last, first.Leaves quote last := by
  induction reaches using Relation.ReflTransGen.head_induction_on with
  | refl =>
    rw [inside] at code
    cases code
  | @head first next goes _ ih =>
    obtain ⟨taken, -, -, round, -⟩ := of_goesOn goes
    rw [inside] at round
    rcases Mode.eq_of_round_quoted round with quoted | code'
    · obtain ⟨last, leaves⟩ := ih quoted
      exact ⟨last, (leaves_iff goes).mpr (.inr ⟨quoted, leaves⟩)⟩
    · exact ⟨first, (leaves_iff goes).mpr (.inl ⟨code', rfl⟩)⟩

theorem offset_lt_of_leaves (reaches : search.Reaches first) (ends : search.Reaches final)
    (found : final.verdict = .found place) (leaves : first.Leaves quote last) :
    last.offset < final.offset := by
  obtain ⟨-, after, goes, -⟩ := id leaves
  have onward := Reaches.to_found (.tail (reaches.trans leaves.reaches) goes) ends found
  have further := offset_lt_of_next goes
  rcases onward.eq_or_lt with rfl | before <;> omega

theorem mode_within (within : Relation.ReflTransGen (NextWithin quote) first last)
    (inside : first.mode = .quoted quote) (reaches : first.Reaches state)
    (before : state.offset ≤ last.offset) : state.mode = .quoted quote := by
  induction within using Relation.ReflTransGen.head_induction_on with
  | refl =>
    rcases reaches.eq_or_lt with rfl | beyond
    · exact inside
    · omega
  | head goes _ ih =>
    rcases reaches.of_next goes.1 with rfl | reaches
    · exact inside
    · exact ih goes.2 reaches

theorem Skips.mode {content : Span} (skips : search.Skips quote content)
    (reaches : search.Reaches state) (low : content.start ≤ state.offset)
    (high : state.offset ≤ content.stop) : state.mode = .quoted quote := by
  obtain ⟨first, last, enters, leaves, rfl⟩ := skips
  simp only at low high
  -- The two states lie on one run; one behind the first would have a smaller offset.
  rcases Relation.ReflTransGen.total_of_right_unique next_unique enters.reaches reaches
    with onward | back
  · exact mode_within leaves.1 enters.mode onward high
  · rcases Reaches.eq_or_lt back with rfl | beyond
    · exact enters.mode
    · omega

theorem Skips.quote_unique {quote' : Char} {content : Span} (skips : search.Skips quote content)
    (skips' : search.Skips quote' content) : quote = quote' := by
  obtain ⟨first, last, enters, leaves, rfl⟩ := id skips
  have low : first.offset ≤ last.offset := by
    rcases leaves.reaches.eq_or_lt with rfl | before
    · exact Nat.le_refl _
    · exact Nat.le_of_lt before
  have mode := skips'.mode enters.reaches (Nat.le_refl _) low
  rw [enters.mode] at mode
  exact Mode.quoted.inj mode

theorem Skips.inside {content : Span} (skips : search.Skips quote content)
    (ends : search.Reaches final) (found : final.verdict = .found place) :
    search.offset ≤ content.start ∧ content.stop < final.offset := by
  obtain ⟨first, last, enters, leaves, rfl⟩ := skips
  refine ⟨?_, offset_lt_of_leaves enters.reaches ends found leaves⟩
  rcases enters.reaches.eq_or_lt with rfl | later
  · exact Nat.le_refl _
  · exact Nat.le_of_lt later

/-- A search that begins in code finds what the other one reads past, but for backticks. -/
theorem Skips.mem_spans_iff {reading : Reading} {content : Span} (skips : search.Skips quote content)
    (code : search.mode = .code) (ends : search.Reaches final)
    (found : final.verdict = .found place) (along : reading.Along search final) :
    content ∈ reading.spans ↔ isPlainQuote quote = true := by
  obtain ⟨first, last, enters, -⟩ := id skips
  rw [Search.mem_spans_iff ends found along, isPlainQuote_iff enters.isQuote, Yields]
  constructor
  · rintro (⟨_, _, -, quoted, -⟩ | ⟨quote', plain, skips'⟩)
    · rw [code] at quoted
      cases quoted
    · rwa [skips.quote_unique skips']
  · exact fun plain => .inr ⟨quote, plain, skips⟩

end Places

theorem exists_along {text : List Char} {opening closing : Nat}
    (found : closingBrace? text opening = some closing) :
    ∃ start final, begin? text opening = some start ∧ start.mode = .code ∧
      start.offset = opening + 1 ∧ start.Reaches final ∧ final.verdict = .found closing ∧
      (Reading.start text (opening + 1) closing).Along start final := by
  rw [closingBrace?_eq, Option.bind_eq_some_iff] at found
  obtain ⟨start, begun, answer⟩ := found
  obtain ⟨final, reaches, ends⟩ := exists_found answer
  obtain ⟨inner, parted, offset⟩ := reaches.ahead
  obtain ⟨-, rfl, -⟩ := of_found ends
  refine ⟨start, final, begun, ?_⟩
  unfold begin? at begun
  split at begun <;> cases begun
  next front rest cut =>
  obtain ⟨rfl, rfl⟩ := cut?_eq_some_iff.mp cut
  refine ⟨rfl, rfl, reaches, ends, ?_⟩
  simp only at parted offset
  subst parted
  have behind : byteLength (front ++ ['{']) = byteLength front + 1 := by
    rw [byteLength_append]
    rfl
  have between := window_append (front ++ ['{']) inner final.ahead
  rw [byteLength_append _ inner, behind, List.append_assoc, List.singleton_append] at between
  rw [Reading.start, offset, between]
  exact ⟨rfl, rfl, rfl⟩

end Search

theorem quotedSpans_apart (text : List Char) (start stop : Nat) :
    (quotedSpans text start stop).Pairwise fun first second => first.stop < second.start :=
  (quotedSpans_pairwise text start stop).imp Nat.lt_of_succ_lt

/-- The search for quoted texts goes through a block as the search for its closing brace does, which
begins in the state `start`. -/
structure ReadAlike (text : List Char) (opening closing : Nat) (start : Search) : Prop where
  apart : (quotedSpans text (opening + 1) closing).Pairwise fun first second =>
    first.stop < second.start
  /-- Only what the other search reads past in a quoted text is found, -/
  skipped : ∀ span ∈ quotedSpans text (opening + 1) closing, ∃ quote, start.Skips quote span
  /-- and all of it is, but for the quoted texts in backticks. -/
  found : ∀ quote span, start.Skips quote span →
    (span ∈ quotedSpans text (opening + 1) closing ↔ isPlainQuote quote = true)
  /-- A quoted text is over before the block is. -/
  closed : ∀ quote first, start.Enters quote first →
    ∃ last, first.Leaves quote last ∧ last.offset < closing
  inside : ∀ quote span, start.Skips quote span → opening < span.start ∧ span.stop < closing
  /-- All the way through a quoted text the other search is in no other mode. -/
  quoted : ∀ quote span, start.Skips quote span → ∀ state, start.Reaches state →
    span.start ≤ state.offset → state.offset ≤ span.stop → state.mode = .quoted quote
  /-- Whatever was read, the search for quoted texts comes to its end in code. -/
  ends : ∃ last, last.ahead = [] ∧ last.mode = .code ∧
    ∀ reading, (Reading.start text (opening + 1) closing).Reaches reading → reading.Reaches last

/-- Between the braces of a block the quoted texts that are found are those that the search for the
closing brace reads past. -/
theorem readAlike_of_closingBrace? {text : List Char} {opening closing : Nat}
    (found : closingBrace? text opening = some closing) :
    ∃ start, Search.begin? text opening = some start ∧ ReadAlike text opening closing start := by
  obtain ⟨start, final, begun, code, offset, reaches, ends, along⟩ := Search.exists_along found
  obtain ⟨code', place, -⟩ := Search.of_found ends
  refine ⟨start, begun, quotedSpans_apart text _ _, ?_, ?_, ?_, ?_, ?_, ?_⟩
  · intro span member
    rw [← Reading.spans_start, Search.mem_spans_iff reaches ends along] at member
    rcases member with ⟨_, _, -, quoted, -⟩ | ⟨quote, -, skips⟩
    · rw [code] at quoted
      cases quoted
    · exact ⟨quote, skips⟩
  · exact fun quote span skips => skips.mem_spans_iff code reaches ends along
  · intro quote first enters
    obtain ⟨last, leaves⟩ :=
      Search.exists_leaves (enters.reaches.to_found reaches ends) code' enters.mode
    rw [place]
    exact ⟨last, leaves, Search.offset_lt_of_leaves enters.reaches reaches ends leaves⟩
  · intro quote span skips
    have inside := skips.inside reaches ends
    rw [offset, ← place] at inside
    exact inside
  · exact fun quote span skips state reached low high => skips.mode reached low high
  · obtain ⟨last, reads, done, code⟩ := Search.exists_end reaches ends along
    exact ⟨last, done, code, fun reading read => read.to_end reads done⟩

theorem readAlike_of_escaped_quote :
    closingBrace? ['{', '\'', '\\', '\'', '}', '\'', ',', '\x60', '"', '\x60', '}'] 0 = some 10 ∧
    quotedSpans ['{', '\'', '\\', '\'', '}', '\'', ',', '\x60', '"', '\x60', '}'] 1 10 = [⟨2, 5⟩] ∧
    ∃ start,
      Search.begin? ['{', '\'', '\\', '\'', '}', '\'', ',', '\x60', '"', '\x60', '}'] 0 = some start ∧
      ReadAlike ['{', '\'', '\\', '\'', '}', '\'', ',', '\x60', '"', '\x60', '}'] 0 10 start :=
  ⟨by decide, by decide, readAlike_of_closingBrace? (by decide)⟩

end ColorTokens.Source

import ColorTokens.Proofs.Text.Position

/-! Positions and the lines of a text. Between characters a position counts what stands before it,
the lines give its offset back, and later offsets have later positions. A table of the newlines
tells the position of every offset. -/

set_option autoImplicit false

namespace ColorTokens.Text

section Boundaries

/-- Byte `offset` lies between two characters of a text, or at one of its ends. -/
def IsBoundary (text : List Char) (offset : Nat) : Prop :=
  ∃ front, front <+: text ∧ byteLength front = offset

variable {text front back : List Char} {start stop offset : Nat} {c : Char}

theorem isSome_cut?_iff : (cut? offset text).isSome = true ↔ IsBoundary text offset := by
  simp only [Option.isSome_iff_exists, Prod.exists, cut?_eq_some_iff, IsBoundary,
    List.prefix_iff_exists_eq_append, exists_and_right]

instance (text : List Char) (offset : Nat) : Decidable (IsBoundary text offset) :=
  decidable_of_iff _ isSome_cut?_iff

theorem isBoundary_of_slice? {inner : List Char} (slice : slice? text start stop = some inner) :
    IsBoundary text stop := by
  obtain ⟨before, after, rfl, -, length⟩ := slice?_eq_some_iff.mp slice
  exact ⟨before ++ inner, List.prefix_append _ after, length⟩

theorem not_isBoundary_within (behind : byteLength front < offset)
    (before : offset < byteLength front + c.utf8Size) :
    ¬ IsBoundary (front ++ c :: back) offset := by
  rintro ⟨front', ⟨back', whole⟩, rfl⟩
  obtain ⟨middle, rfl, rest⟩ := exists_append_of_byteLength_le whole.symm (Nat.le_of_lt behind)
  cases middle with
  | nil => simp at behind
  | cons d middle =>
    obtain ⟨rfl, -⟩ := List.cons_eq_cons.mp rest
    simp only [byteLength_append, byteLength_cons] at before
    omega

end Boundaries

section Lines

variable {front line rest : List Char}

theorem lastLine_of_not_mem (inline : '\n' ∉ line) : lastLine line = line :=
  lastLine_append [] inline

theorem lastLine_below (line rest : List Char) :
    lastLine (line ++ '\n' :: rest) = lastLine rest := by
  rw [List.append_cons]
  by_cases newline : '\n' ∈ rest
  · exact lastLine_append_of_mem _ newline
  · rw [lastLine_append _ newline, lastLine_newline, lastLine_of_not_mem newline, List.nil_append]

@[elab_as_elim]
theorem linesInduction {motive : List Char → Prop} (text : List Char)
    (last : ∀ line, '\n' ∉ line → motive line)
    (above : ∀ line rest, '\n' ∉ line → motive rest → motive (line ++ '\n' :: rest)) :
    motive text := by
  induction size : text.length using Nat.strong_induction_on generalizing text with
  | _ size ih =>
    by_cases newline : '\n' ∈ text
    · obtain ⟨line, rest, rfl, inline⟩ := List.eq_append_cons_of_mem newline
      rw [List.length_append, List.length_cons] at size
      exact above line rest inline (ih rest.length (by omega) rest rfl)
    · exact last text newline

theorem prefix_above_iff :
    front <+: line ++ '\n' :: rest ↔
      front <+: line ∨ ∃ more, front = line ++ '\n' :: more ∧ more <+: rest := by
  constructor
  · intro begins
    rcases List.prefix_or_prefix_of_prefix begins (List.prefix_append line _) with
      within | ⟨more, rfl⟩
    · exact .inl within
    · rw [List.prefix_append_right_inj, List.prefix_cons_iff] at begins
      rcases begins with rfl | ⟨more, rfl, below⟩
      · exact .inl (by simp)
      · exact .inr ⟨more, rfl, below⟩
  · rintro (within | ⟨more, rfl, below⟩)
    · exact within.trans (List.prefix_append line _)
    · rw [List.prefix_append_right_inj, List.cons_prefix_cons]
      exact ⟨rfl, below⟩

end Lines

namespace Position

section Recovery

/-- The offset of a place among lines that newlines part: below `above` of them, behind `left`
characters of its own line. -/
def offsetAmong? : List (List Char) → Nat → Nat → Option Nat
  | [], _, _ => none
  | line :: _, 0, left => if left ≤ line.length then some (byteLength (line.take left)) else none
  | line :: rest, above + 1, left =>
    (offsetAmong? rest above left).map fun offset => byteLength line + 1 + offset

/-- The offset of a position, read off the lines of a text. There is none outside of them. -/
def offset? (text : List Char) : Position → Option Nat
  | ⟨line + 1, column + 1⟩ => offsetAmong? (text.splitOn '\n') line column
  | _ => none

variable {line text : List Char} {above left offset : Nat}

theorem exists_prefix_line_iff (inline : '\n' ∉ line) :
    (∃ front, front <+: line ∧ front.count '\n' = above ∧ (lastLine front).length = left ∧
        byteLength front = offset) ↔
      above = 0 ∧ left ≤ line.length ∧ byteLength (line.take left) = offset := by
  constructor
  · rintro ⟨front, within, rfl, rfl, rfl⟩
    have absent : '\n' ∉ front := fun newline => inline (within.subset newline)
    rw [lastLine_of_not_mem absent, ← List.prefix_iff_eq_take.mp within]
    exact ⟨List.count_eq_zero.mpr absent, within.length_le, rfl⟩
  · rintro ⟨rfl, short, rfl⟩
    have absent : '\n' ∉ line.take left := fun newline => inline (List.mem_of_mem_take newline)
    refine ⟨line.take left, List.take_prefix left line, List.count_eq_zero.mpr absent, ?_, rfl⟩
    rw [lastLine_of_not_mem absent, List.length_take, Nat.min_eq_left short]

/-- A place among the lines of a text is the end of the head that has as many newlines, and as many
characters behind the last of them. -/
theorem offsetAmong?_splitOn (text : List Char) :
    offsetAmong? (text.splitOn '\n') above left = some offset ↔
      ∃ front, front <+: text ∧ front.count '\n' = above ∧ (lastLine front).length = left ∧
        byteLength front = offset := by
  induction text using linesInduction generalizing above offset with
  | last line inline =>
    rw [List.splitOn_eq_singleton inline, exists_prefix_line_iff inline]
    cases above <;> simp [offsetAmong?]
  | above line rest inline ih =>
    rw [List.splitOn_append_cons_self_of_not_mem inline]
    simp only [prefix_above_iff, or_and_right, exists_or, exists_prefix_line_iff inline]
    -- On the first line no newline is counted; below it, that of the first line is one more.
    cases above with
    | zero => simp [offsetAmong?]
    | succ above =>
      have width : '\n'.utf8Size = 1 := rfl
      have uncounted := List.count_eq_zero.mpr inline
      simp only [offsetAmong?, Option.map_eq_some_iff, ih]
      constructor
      · rintro ⟨_, ⟨front, begins, rfl, rfl, rfl⟩, rfl⟩
        refine .inr ⟨line ++ '\n' :: front, ⟨front, rfl, begins⟩, ?_, ?_, ?_⟩
        · simp [uncounted]
        · rw [lastLine_below]
        · simp [width, Nat.add_assoc]
      · rintro (⟨first, -⟩ | ⟨_, ⟨front, rfl, begins⟩, counted, rfl, rfl⟩)
        · cases first
        · refine ⟨byteLength front, ⟨front, begins, ?_, ?_, rfl⟩, ?_⟩
          · simpa [uncounted] using counted
          · rw [lastLine_below]
          · simp [width, Nat.add_assoc]

theorem ofOffset_byteLength {front : List Char} (begins : front <+: text) :
    ofOffset text (byteLength front) = ⟨1 + front.count '\n', 1 + (lastLine front).length⟩ := by
  obtain ⟨back, rfl⟩ := begins
  rw [ofOffset_append, Nat.add_comm _ 1]

/-- The lines give back the offsets between characters, each from its own position only. -/
theorem offset?_eq_some_iff {position : Position} :
    offset? text position = some offset ↔
      IsBoundary text offset ∧ ofOffset text offset = position := by
  constructor
  · intro recovered
    -- Lines and columns are counted from one.
    obtain ⟨_ | line, _ | column⟩ := position
    · cases recovered
    · cases recovered
    · cases recovered
    · obtain ⟨front, begins, rfl, rfl, rfl⟩ := (offsetAmong?_splitOn text).mp recovered
      refine ⟨⟨front, begins, rfl⟩, ?_⟩
      rw [ofOffset_byteLength begins, Nat.add_comm 1, Nat.add_comm 1]
  · rintro ⟨⟨front, begins, rfl⟩, rfl⟩
    rw [ofOffset_byteLength begins, Nat.add_comm 1, Nat.add_comm 1]
    exact (offsetAmong?_splitOn text).mpr ⟨front, begins, rfl, rfl, rfl⟩

end Recovery

section Table

def newlineOffsets (start : Nat) : List Char → List Nat
  | [] => []
  | c :: rest =>
    if c = '\n' then start :: newlineOffsets (start + c.utf8Size) rest
    else newlineOffsets (start + c.utf8Size) rest

def lineStart (newlines : List Nat) : Nat :=
  newlines.getLast?.elim 0 (· + 1)

/-- The position of an offset by a table of the newlines: its line stands below those before it. The
column is told by bytes where the line cannot be cut. -/
def lookup (text : List Char) (offset : Nat) : Position :=
  let stop := min offset (byteLength text)
  let above := (newlineOffsets 0 text).takeWhile (· < stop)
  let start := lineStart above
  ⟨above.length + 1, (slice? text start stop).elim (stop - start) List.length + 1⟩

theorem newlineOffsets_append (start : Nat) (front back : List Char) :
    newlineOffsets start (front ++ back) =
      newlineOffsets start front ++ newlineOffsets (start + byteLength front) back := by
  induction front generalizing start with
  | nil => rfl
  | cons c front ih =>
    rw [List.cons_append, newlineOffsets, newlineOffsets, ih, byteLength_cons, Nat.add_assoc]
    split <;> rfl

theorem length_newlineOffsets (start : Nat) (text : List Char) :
    (newlineOffsets start text).length = text.count '\n' := by
  induction text generalizing start with
  | nil => rfl
  | cons c text ih =>
    rw [newlineOffsets, List.count_cons, ← ih (start + c.utf8Size)]
    by_cases newline : c = '\n' <;> simp [newline]

theorem mem_newlineOffsets {start offset : Nat} {text : List Char}
    (found : offset ∈ newlineOffsets start text) :
    start ≤ offset ∧ offset < start + byteLength text := by
  induction text generalizing start with
  | nil => cases found
  | cons c text ih =>
    have positive := c.utf8Size_pos
    rw [newlineOffsets] at found
    rw [byteLength_cons]
    split at found
    · rcases List.mem_cons.mp found with rfl | later
      · omega
      · have bounds := ih later
        omega
    · have bounds := ih found
      omega

theorem lineStart_add_lastLine (text : List Char) :
    lineStart (newlineOffsets 0 text) + byteLength (lastLine text) = byteLength text := by
  induction text using List.reverseRecOn with
  | nil => rfl
  | append_singleton text c ih =>
    rw [newlineOffsets_append, byteLength_append]
    by_cases newline : c = '\n'
    · subst newline
      have width : '\n'.utf8Size = 1 := rfl
      simp [lastLine_newline, newlineOffsets, lineStart, width]
    · rw [lastLine_concat text newline, byteLength_append, ← Nat.add_assoc, ← ih]
      simp [newlineOffsets, newline]

variable {front back : List Char} {start stop : Nat}

/-- The newlines before an offset are those among the characters before it, whether it is their end
or lies within the next one. -/
theorem takeWhile_newlineOffsets (reached : byteLength front ≤ stop)
    (next : ∀ c rest, back = c :: rest → stop < byteLength (front ++ [c])) :
    (newlineOffsets 0 (front ++ back)).takeWhile (· < stop) = newlineOffsets 0 front := by
  have before : ∀ offset ∈ newlineOffsets 0 front, decide (offset < stop) = true := by
    intro offset found
    have bounds := mem_newlineOffsets found
    exact decide_eq_true (by omega)
  have behind : ∀ offset ∈ newlineOffsets (byteLength front) back, stop ≤ offset := by
    intro offset found
    cases back with
    | nil => cases found
    | cons c rest =>
      have further := next c rest rfl
      simp only [byteLength_append, byteLength_cons, byteLength_nil] at further
      by_cases newline : c = '\n'
      · -- Nothing lies within a newline, so that the offset is where it begins.
        have width : c.utf8Size = 1 := newline ▸ rfl
        have bounds := mem_newlineOffsets found
        omega
      · rw [newlineOffsets, if_neg newline] at found
        have bounds := mem_newlineOffsets found
        omega
  rw [newlineOffsets_append, List.takeWhile_append_of_pos before, Nat.zero_add]
  cases offsets : newlineOffsets (byteLength front) back with
  | nil => simp
  | cons offset more =>
    have late := behind offset (by simp [offsets])
    rw [List.takeWhile_cons_of_neg (by simpa using late), List.append_nil]

theorem slice?_lastLine (starts : start + byteLength (lastLine front) = byteLength front) :
    slice? (front ++ back) start (byteLength front) = some (lastLine front) := by
  have parted : front.rdropWhile (· != '\n') ++ lastLine front = front :=
    List.rdropWhile_append_rtakeWhile
  have length := congrArg byteLength parted
  rw [byteLength_append] at length
  refine slice?_eq_some_iff.mpr ⟨front.rdropWhile (· != '\n'), back, ?_, ?_, ?_⟩
  · rw [parted]
  · omega
  · rw [parted]

theorem ofOffset_min (text : List Char) (offset : Nat) :
    ofOffset text offset = ofOffset text (min offset (byteLength text)) := by
  rcases Nat.le_total offset (byteLength text) with within | beyond
  · rw [Nat.min_eq_left within]
  · obtain ⟨more, rfl⟩ := Nat.exists_eq_add_of_le beyond
    have past := ofOffset_add text [] more
    have last := ofOffset_append text []
    rw [List.append_nil] at past last
    rw [Nat.min_eq_right beyond, past, last, walkBehind_nil]

theorem ofOffset_eq_lookup (text : List Char) (offset : Nat) :
    ofOffset text offset = lookup text offset := by
  rw [ofOffset_min, lookup]
  have short := Nat.min_le_right offset (byteLength text)
  generalize min offset (byteLength text) = stop at short
  -- The characters that end before the offset, and how far it lies within the next one.
  obtain ⟨back, whole, reached, next⟩ := exists_takeBytes stop text
  generalize takeBytes stop text = front at whole reached next
  subst whole
  have starts := lineStart_add_lastLine front
  simp only [takeWhile_newlineOffsets reached next, length_newlineOffsets]
  generalize lineStart (newlineOffsets 0 front) = start at starts
  obtain ⟨more, rfl⟩ := Nat.exists_eq_add_of_le reached
  rw [ofOffset_add]
  rcases Nat.eq_zero_or_pos more with rfl | begun
  · rw [walkBehind_zero, Nat.add_zero (byteLength front), slice?_lastLine starts, Nat.add_comm 1]
    rfl
  · cases back with
    | nil =>
      rw [List.append_nil] at short
      omega
    | cons c rest =>
      have unfinished := next c rest rfl
      simp only [byteLength_append, byteLength_cons, byteLength_nil] at unfinished
      have uncut : slice? (front ++ c :: rest) start (byteLength front + more) = none :=
        Option.eq_none_iff_forall_ne_some.mpr fun inner slice =>
          not_isBoundary_within (by omega) (by omega) (isBoundary_of_slice? slice)
      rw [walkBehind_within front rest begun (by omega), uncut]
      simp only [Option.elim_none, Position.mk.injEq]
      omega

end Table

/-- Positions are exact and in order. An offset past the end has the position of the end. Between
characters the newlines before the offset and the characters behind the last of them are counted,
the offset is recovered from the lines of the text, and later offsets have later positions; and a
table of the newlines tells the position of every offset. -/
theorem ofOffset_exact_monotone (text : List Char) :
    (∀ offset, ofOffset text offset = ofOffset text (min offset (byteLength text))) ∧
    (∀ front, front <+: text → ofOffset text (byteLength front) =
      ⟨1 + front.count '\n', 1 + (lastLine front).length⟩) ∧
    (∀ offset, ofOffset text offset = lookup text offset) ∧
    (∀ position offset, offset? text position = some offset ↔
      IsBoundary text offset ∧ ofOffset text offset = position) ∧
    ∀ first second, IsBoundary text first → IsBoundary text second → first < second →
      (ofOffset text first).Before (ofOffset text second) := by
  refine ⟨ofOffset_min text, fun front => ofOffset_byteLength, ofOffset_eq_lookup text,
    fun position offset => offset?_eq_some_iff, ?_⟩
  rintro _ _ ⟨front, ⟨back, whole⟩, rfl⟩ ⟨front', ⟨back', whole'⟩, rfl⟩ earlier
  exact ofOffset_before whole.symm whole'.symm earlier

/-- Behind a wide character stand two newlines: the offset between them is on the second line and
the one behind them on the third, where the text ends. -/
theorem ofOffset_exact_monotone_wide :
    let text := ['é', '\n', '\n']
    IsBoundary text 3 ∧ IsBoundary text 4 ∧ ¬ IsBoundary text 1 ∧
      ofOffset text 3 = ⟨2, 1⟩ ∧ ofOffset text 9 = ⟨3, 1⟩ ∧ offset? text ⟨3, 1⟩ = some 4 ∧
      (ofOffset text 3).Before (ofOffset text 4) := by
  intro text
  obtain ⟨clamped, counted, -, recovered, ordered⟩ := ofOffset_exact_monotone text
  have between : IsBoundary text 3 := by decide
  have ends : IsBoundary text 4 := by decide
  have last : ofOffset text 4 = ⟨3, 1⟩ := counted text List.prefix_rfl
  exact ⟨between, ends, by decide, counted ['é', '\n'] (List.prefix_append _ ['\n']),
    (clamped 9).trans last, (recovered _ _).mpr ⟨ends, last⟩, ordered 3 4 between ends (by decide)⟩

end Position

end ColorTokens.Text

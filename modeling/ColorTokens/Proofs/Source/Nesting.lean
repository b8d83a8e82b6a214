import ColorTokens.Proofs.Source.Rounds
import Mathlib.Order.Bounds.Basic

/-! Blocks by their braces. A block ends at the first place where as many braces have been closed as
opened, counting those that are read as code. Where it ends depends on nothing outside of it, and
the blocks that begin inside of it end there. -/

set_option autoImplicit false

namespace ColorTokens.Source

open ColorTokens.Text

def isBrace (c : Char) : Bool :=
  c == '{' || c == '}'

def bracesFrom : Nat → Phase → List Char → List (Nat × Char)
  | _, _, [] => []
  | offset, phase, c :: rest =>
    let later := bracesFrom (offset + c.utf8Size) (phase.next c) rest
    if phase.isCode && isBrace c then (offset, c) :: later else later

def codeBraces (text : List Char) (opening : Nat) : List (Nat × Char) :=
  match cut? opening text with
  | some (_, rest) => bracesFrom opening .code rest
  | none => []

def tally (braces : List (Nat × Char)) (brace : Char) (place : Nat) : Nat :=
  braces.countP fun read => read.1 ≤ place && read.2 == brace

/-- The places from a byte offset on where as many braces have been closed as opened, with `depth`
open ones at first. -/
def balances (depth offset : Nat) (braces : List (Nat × Char)) : Set Nat :=
  {place | offset ≤ place ∧ tally braces '}' place = depth + tally braces '{' place}

section Reading

variable {depth : Nat} {phase : Phase} {c : Char}

theorem depth_cases (inside : 0 < depth) : depth = 1 ∨ ∃ outer, depth = outer + 2 := by
  rcases Nat.lt_or_ge 1 depth with deep | shallow
  · exact .inr ⟨depth - 2, by omega⟩
  · exact .inl (by omega)

theorem isBrace_cases (read : (phase.isCode && isBrace c) = true) :
    phase.isCode = true ∧ (c = '{' ∨ c = '}') := by
  simpa [isBrace] using read

theorem advance_of_not_brace (other : (phase.isCode && isBrace c) = false) :
    advance (depth, phase) c = some (depth, phase.next c) := by
  cases code : phase.isCode with
  | false => exact advance_of_not_code code c
  | true =>
    rw [code, Bool.true_and, isBrace, Bool.or_eq_false_iff, beq_eq_false_iff_ne,
      beq_eq_false_iff_ne] at other
    exact advance_of_ne_brace other.1 other.2

theorem next_brace (code : phase.isCode = true) (brace : isBrace c = true) :
    phase.next c = .code := by
  obtain ⟨-, rfl | rfl⟩ := isBrace_cases (Bool.and_eq_true_iff.mpr ⟨code, brace⟩) <;>
    cases phase <;> first | rfl | cases code

theorem advance_open (code : phase.isCode = true) :
    advance (depth, phase) '{' = some (depth + 1, phase.next '{') := by
  simp [advance, code, next_brace (c := '{') code rfl]

theorem advance_close (code : phase.isCode = true) :
    advance (depth + 2, phase) '}' = some (depth + 1, phase.next '}') := by
  simp [advance, code, next_brace (c := '}') code rfl]

theorem advance_cases {next : Nat × Phase} (moves : advance (depth, phase) c = some next) :
    (phase.isCode && isBrace c) = false ∧ next = (depth, phase.next c) ∨
    phase.isCode = true ∧ c = '{' ∧ next = (depth + 1, phase.next c) ∨
    phase.isCode = true ∧ c = '}' ∧ ∃ outer, depth = outer + 2 ∧ next = (outer + 1, phase.next c) := by
  cases read : phase.isCode && isBrace c with
  | false =>
    rw [advance_of_not_brace read] at moves
    exact .inl ⟨rfl, (Option.some.inj moves).symm⟩
  | true =>
    obtain ⟨code, rfl | rfl⟩ := isBrace_cases read
    · rw [advance_open code] at moves
      exact .inr (.inl ⟨code, rfl, (Option.some.inj moves).symm⟩)
    · have deep : ¬ depth ≤ 1 := fun shallow => by simp [advance, code, shallow] at moves
      obtain ⟨outer, rfl⟩ : ∃ outer, depth = outer + 2 := ⟨depth - 2, by omega⟩
      rw [advance_close code] at moves
      exact .inr (.inr ⟨code, rfl, outer, rfl, (Option.some.inj moves).symm⟩)

theorem closingWalk_close {offset : Nat} (code : phase.isCode = true) (rest : List Char) :
    closingWalk offset (1, phase) ('}' :: rest) = some offset := by
  simp [closingWalk, code]

end Reading

section Tally

variable {depth offset place : Nat} {phase : Phase} {text : List Char} {brace : Char}
  {braces : List (Nat × Char)}

theorem mem_bracesFrom_iff :
    (place, brace) ∈ bracesFrom offset phase text ↔
      ∃ front back, text = front ++ brace :: back ∧ isBrace brace = true ∧
        (phase.after front).isCode = true ∧ place = offset + byteLength front := by
  induction text generalizing offset phase with
  | nil => simp [bracesFrom]
  | cons c text ih =>
    -- The brace is read here, or behind this character.
    have step : (place, brace) ∈ bracesFrom offset phase (c :: text) ↔
        (place = offset ∧ brace = c ∧ phase.isCode = true ∧ isBrace c = true) ∨
        (place, brace) ∈ bracesFrom (offset + c.utf8Size) (phase.next c) text := by
      rw [bracesFrom]
      split
      · next read =>
        rw [Bool.and_eq_true] at read
        simp [read.1, read.2]
      · next other =>
        rw [Bool.and_eq_true] at other
        exact ⟨.inr, fun read => read.elim (fun here => absurd here.2.2 other) id⟩
    rw [step, ih]
    constructor
    · rintro (⟨rfl, rfl, code, isBrace⟩ | ⟨front, back, rfl, isBrace, code, rfl⟩)
      · exact ⟨[], text, rfl, isBrace, code, by simp⟩
      · exact ⟨c :: front, back, rfl, isBrace, code, by simp [Nat.add_assoc]⟩
    · rintro ⟨front, back, whole, isBrace, code, rfl⟩
      cases front with
      | nil =>
        obtain ⟨rfl, rfl⟩ := List.cons_eq_cons.mp whole
        exact .inl ⟨by simp, rfl, code, isBrace⟩
      | cons d front =>
        obtain ⟨rfl, rfl⟩ := List.cons_eq_cons.mp whole
        exact .inr ⟨front, back, rfl, isBrace, code, by simp [Nat.add_assoc]⟩

theorem tally_before (before : place < offset) :
    tally (bracesFrom offset phase text) brace place = 0 := by
  rw [tally, List.countP_eq_zero]
  rintro ⟨place', brace'⟩ member
  obtain ⟨front, -, -, -, -, rfl⟩ := mem_bracesFrom_iff.mp member
  have beyond : ¬ offset + byteLength front ≤ place := by omega
  simp [beyond]

theorem balances_gap {offset' : Nat} (further : offset ≤ offset') (inside : 0 < depth) :
    balances depth offset (bracesFrom offset' phase text) =
      balances depth offset' (bracesFrom offset' phase text) := by
  ext place
  constructor
  · rintro ⟨-, level⟩
    refine ⟨?_, level⟩
    by_contra before
    rw [tally_before (by omega), tally_before (by omega)] at level
    omega
  · rintro ⟨from', level⟩
    exact ⟨by omega, level⟩

theorem balances_open : balances depth offset ((offset, '{') :: braces) =
    balances (depth + 1) offset braces := by
  ext place
  refine and_congr_right fun from' => ?_
  simp only [tally, List.countP_cons, from']
  simp
  omega

theorem balances_close : balances (depth + 1) offset ((offset, '}') :: braces) =
    balances depth offset braces := by
  ext place
  refine and_congr_right fun from' => ?_
  simp only [tally, List.countP_cons, from']
  simp
  omega

/-- The closing brace is the first place where the braces balance. -/
theorem closingWalk_eq_some_iff_isLeast (inside : 0 < depth) :
    closingWalk offset (depth, phase) text = some place ↔
      IsLeast (balances depth offset (bracesFrom offset phase text)) place := by
  induction text generalizing depth offset phase with
  | nil =>
    have never : balances depth offset (bracesFrom offset phase []) = ∅ := by
      ext other
      simp [balances, bracesFrom, tally]
      omega
    simp [never, closingWalk, IsLeast]
  | cons c text ih =>
    have further : offset < offset + c.utf8Size := Nat.lt_add_of_pos_right c.utf8Size_pos
    cases read : phase.isCode && isBrace c with
    | false =>
      have same : bracesFrom offset phase (c :: text) =
          bracesFrom (offset + c.utf8Size) (phase.next c) text := by
        rw [bracesFrom, read]
        rfl
      rw [closingWalk_step (advance_of_not_brace read), ih inside, same,
        balances_gap further.le inside]
    | true =>
      have more : bracesFrom offset phase (c :: text) =
          (offset, c) :: bracesFrom (offset + c.utf8Size) (phase.next c) text := by
        rw [bracesFrom, read]
        rfl
      rw [more]
      obtain ⟨code, rfl | rfl⟩ := isBrace_cases read
      · rw [closingWalk_step (advance_open code), ih (Nat.succ_pos depth), balances_open,
          balances_gap further.le (Nat.succ_pos depth)]
      · obtain rfl | ⟨outer, rfl⟩ := depth_cases inside
        · -- The walk ends, and nothing that is read later counts at this place.
          have least : IsLeast (balances 1 offset ((offset, '}') ::
              bracesFrom (offset + Char.utf8Size '}') (phase.next '}') text)) offset := by
            rw [balances_close]
            refine ⟨⟨Nat.le_refl _, ?_⟩, fun place member => member.1⟩
            rw [tally_before further, tally_before further]
          rw [closingWalk_close code]
          constructor
          · rintro ⟨⟩
            exact least
          · intro other
            rw [least.unique other]
        · rw [closingWalk_step (advance_close code), ih (Nat.succ_pos outer), balances_close,
            balances_gap further.le (Nat.succ_pos outer)]

theorem closingBrace?_eq_some_iff_isLeast {opening closing : Nat} :
    closingBrace? text opening = some closing ↔
      Stands text opening ['{'] ∧
        IsLeast {place | opening < place ∧ tally (codeBraces text opening) '}' place =
          tally (codeBraces text opening) '{' place} closing := by
  have opened : ∀ front rest, text = front ++ '{' :: rest → byteLength front = opening →
      (closingBrace? text opening = some closing ↔
        IsLeast {place | opening < place ∧ tally (codeBraces text opening) '}' place =
          tally (codeBraces text opening) '{' place} closing) := by
    rintro front rest rfl rfl
    have braces : codeBraces (front ++ '{' :: rest) (byteLength front) =
        (byteLength front, '{') :: bracesFrom (byteLength front + 1) .code rest := by
      rw [codeBraces, cut?_append]
      rfl
    -- The first brace is read in front of all others, so behind it one more is open.
    have same : {place | byteLength front < place ∧
        tally (codeBraces (front ++ '{' :: rest) (byteLength front)) '}' place =
          tally (codeBraces (front ++ '{' :: rest) (byteLength front)) '{' place} =
        balances 1 (byteLength front + 1) (bracesFrom (byteLength front + 1) .code rest) := by
      ext place
      refine and_congr_right fun from' => ?_
      simp only [braces, tally, List.countP_cons]
      simp [from'.le]
      omega
    rw [same, ← closingWalk_eq_some_iff_isLeast Nat.one_pos, closingBrace?, cut?_append]
    simp only [closingFrom_eq_closingWalk, Phase.ofMode]
  constructor
  · intro found
    obtain ⟨front, inner, back, -, whole, length, -⟩ := closingBrace?_eq_some_iff.mp found
    exact ⟨⟨front, inner ++ '}' :: back, whole, length⟩, (opened front _ whole length).mp found⟩
  · rintro ⟨⟨front, rest, whole, length⟩, least⟩
    exact (opened front rest whole length).mpr least

end Tally

section Local

variable {text : List Char} {opening closing : Nat}

theorem lt_of_closingBrace? (found : closingBrace? text opening = some closing) :
    opening < closing := by
  obtain ⟨front, inner, back, phase, -, -, -, -, rfl⟩ := closingBrace?_eq_some_iff.mp found
  omega

/-- A block is closed by its own text, whatever stands around it. -/
theorem exists_block (found : closingBrace? text opening = some closing) :
    ∃ front block back, text = front ++ (block ++ back) ∧ byteLength front = opening ∧
      byteLength (front ++ block) = closing + 1 ∧
      ∀ front' back', closingBrace? (front' ++ (block ++ back')) (byteLength front') =
        some (byteLength front' + (closing - opening)) := by
  obtain ⟨front, inner, back, phase, rfl, rfl, walked, code, rfl⟩ :=
    closingBrace?_eq_some_iff.mp found
  refine ⟨front, '{' :: (inner ++ ['}']), back, by simp, rfl, ?_, fun front' back' => ?_⟩
  · simp [show Char.utf8Size '{' = 1 from rfl, show Char.utf8Size '}' = 1 from rfl]
    omega
  · refine closingBrace?_eq_some_iff.mpr ⟨front', inner, back', phase, by simp, rfl, walked, code, ?_⟩
    omega

theorem closingBrace?_append (found : closingBrace? text opening = some closing)
    (front back : List Char) :
    closingBrace? (front ++ (text ++ back)) (byteLength front + opening) =
      some (byteLength front + closing) := by
  have ordered := lt_of_closingBrace? found
  obtain ⟨head, block, tail, rfl, rfl, -, anywhere⟩ := exists_block found
  have moved := anywhere (front ++ head) (tail ++ back)
  rw [byteLength_append] at moved
  simp only [List.append_assoc] at moved ⊢
  rw [moved, Nat.add_assoc, Nat.add_sub_cancel' ordered.le]

end Local

section Laminar

variable {depth deeper depth' : Nat} {phase phase' : Phase} {text : List Char}

/-- The phase that a walk leads to does not depend on its depth, and it never leaves the outermost
block. -/
theorem of_walk (walked : walk (depth, phase) text = some (depth', phase')) :
    phase' = phase.after text ∧ (0 < depth → 0 < depth') := by
  induction text generalizing depth phase with
  | nil =>
    cases walked
    exact ⟨rfl, id⟩
  | cons c text ih =>
    rw [walk_cons, Option.bind_eq_some_iff] at walked
    obtain ⟨next, moves, walked⟩ := walked
    rcases advance_cases moves with ⟨-, rfl⟩ | ⟨-, -, rfl⟩ | ⟨-, -, outer, -, rfl⟩
    · exact ih walked
    · exact ⟨(ih walked).1, fun _ => (ih walked).2 (Nat.succ_pos _)⟩
    · exact ⟨(ih walked).1, fun _ => (ih walked).2 (Nat.succ_pos _)⟩

theorem exists_close (inside : 0 < deeper)
    (walked : walk (depth + deeper, phase) text = some (depth', phase')) (down : depth' ≤ depth) :
    ∃ inner back last, text = inner ++ '}' :: back ∧ walk (deeper, phase) inner = some (1, last) ∧
      last.isCode = true := by
  induction text generalizing deeper phase with
  | nil =>
    cases walked
    omega
  | cons c text ih =>
    rw [walk_cons, Option.bind_eq_some_iff] at walked
    obtain ⟨next, moves, walked⟩ := walked
    rcases advance_cases moves with ⟨other, rfl⟩ | ⟨code, rfl, rfl⟩ | ⟨code, rfl, outer, level, rfl⟩
    · obtain ⟨inner, back, last, rfl, reached, ends⟩ := ih inside walked
      refine ⟨c :: inner, back, last, rfl, ?_, ends⟩
      rw [walk_cons, advance_of_not_brace other, Option.bind_some, reached]
    · obtain ⟨inner, back, last, rfl, reached, ends⟩ := ih (Nat.succ_pos deeper) walked
      refine ⟨'{' :: inner, back, last, rfl, ?_, ends⟩
      rw [walk_cons, advance_open code, Option.bind_some, reached]
    · obtain rfl | ⟨deeper, rfl⟩ := depth_cases inside
      · -- The brace closes the block itself.
        exact ⟨[], text, phase, rfl, rfl, code⟩
      · have level' : outer + 1 = depth + (deeper + 1) := by omega
        rw [level'] at walked
        obtain ⟨inner, back, last, rfl, reached, ends⟩ := ih (Nat.succ_pos deeper) walked
        refine ⟨'}' :: inner, back, last, rfl, ?_, ends⟩
        rw [walk_cons, advance_close code, Option.bind_some, reached]

/-- A block that begins inside of another one ends there. -/
theorem exists_inner {opening closing place : Nat}
    (found : closingBrace? text opening = some closing)
    (member : (place, '{') ∈ codeBraces text opening) (after : opening < place)
    (before : place < closing) :
    ∃ inner, closingBrace? text place = some inner ∧ inner < closing := by
  obtain ⟨front, inner, back, phase, rfl, rfl, walked, code, rfl⟩ :=
    closingBrace?_eq_some_iff.mp found
  rw [codeBraces, cut?_append] at member
  obtain ⟨read, rest, whole, -, code', rfl⟩ := mem_bracesFrom_iff.mp member
  cases read with
  | nil => simp at after
  | cons c read =>
    obtain ⟨rfl, parted⟩ := List.cons_eq_cons.mp whole
    have brace : Char.utf8Size '{' = 1 := rfl
    rw [byteLength_cons, brace] at before
    -- The inner brace is read before the block ends, so the walk through the block passes it.
    have shorter : byteLength read ≤ byteLength inner := by omega
    obtain ⟨middle, rfl, behind⟩ := exists_append_of_byteLength_le parted.symm shorter
    cases middle with
    | nil => simp at behind
    | cons d middle =>
      obtain ⟨rfl, rfl⟩ := List.cons_eq_cons.mp behind
      rw [walk_append, Option.bind_eq_some_iff] at walked
      obtain ⟨⟨depth, phase'⟩, outside, walked⟩ := walked
      obtain ⟨same, deep⟩ := of_walk outside
      have inner : phase'.isCode = true := by
        rw [same]
        exact code'
      rw [walk_cons, advance_open inner, Option.bind_some, next_brace inner rfl] at walked
      -- From the brace on the walk comes down to depth one, which is no deeper than outside of it.
      obtain ⟨block, tail, last, rfl, closed, ends⟩ :=
        exists_close Nat.one_pos walked (deep Nat.one_pos)
      refine ⟨byteLength front + byteLength ('{' :: read) + 1 + byteLength block, ?_, ?_⟩
      · exact closingBrace?_eq_some_iff.mpr ⟨front ++ '{' :: read, block, tail ++ '}' :: back, last,
          by simp, by simp, closed, ends, rfl⟩
      · have positive := Char.utf8Size_pos '}'
        simp only [byteLength_append, byteLength_cons, brace]
        omega

end Laminar

/-- A block ends at the first place where the braces that are read as code balance. Its end depends
on its own text only, the blocks inside of it end before it, and the search for its end meets no
brace that closes more than was opened. -/
theorem closingBrace?_balances (text : List Char) (opening : Nat) :
    (∀ closing, closingBrace? text opening = some closing ↔
      Stands text opening ['{'] ∧
        IsLeast {place | opening < place ∧ tally (codeBraces text opening) '}' place =
          tally (codeBraces text opening) '{' place} closing) ∧
    (∀ closing, closingBrace? text opening = some closing →
      (∃ front block back, text = front ++ (block ++ back) ∧ byteLength front = opening ∧
        byteLength (front ++ block) = closing + 1 ∧
        ∀ front' back', closingBrace? (front' ++ (block ++ back')) (byteLength front') =
          some (byteLength front' + (closing - opening))) ∧
      (∀ front back, closingBrace? (front ++ (text ++ back)) (byteLength front + opening) =
        some (byteLength front + closing)) ∧
      ∀ place, (place, '{') ∈ codeBraces text opening → opening < place → place < closing →
        ∃ inner, closingBrace? text place = some inner ∧ inner < closing) ∧
    ∀ start state, Search.begin? text opening = some start → start.Reaches state →
      state.verdict ≠ .unbalanced := by
  refine ⟨fun closing => closingBrace?_eq_some_iff_isLeast, fun closing found => ?_, ?_⟩
  · exact ⟨exists_block found, closingBrace?_append found,
      fun place member after before => exists_inner found member after before⟩
  · exact fun start state begun reaches => reaches.balanced begun

theorem closingBrace?_balances_nested :
    closingBrace? ['{', 'a', '{', '}', '\'', '}', '\'', '}'] 0 = some 7 ∧
    (2, '{') ∈ codeBraces ['{', 'a', '{', '}', '\'', '}', '\'', '}'] 0 ∧
    (∃ inner, closingBrace? ['{', 'a', '{', '}', '\'', '}', '\'', '}'] 2 = some inner ∧ inner < 7) ∧
    closingBrace? (['/', '/'] ++ (['{', 'a', '{', '}', '\'', '}', '\'', '}'] ++ ['}']))
      (byteLength ['/', '/'] + 0) = some (byteLength ['/', '/'] + 7) := by
  have found : closingBrace? ['{', 'a', '{', '}', '\'', '}', '\'', '}'] 0 = some 7 := by decide
  have read : (2, '{') ∈ codeBraces ['{', 'a', '{', '}', '\'', '}', '\'', '}'] 0 := by decide
  obtain ⟨-, around, inside⟩ := (closingBrace?_balances _ 0).2.1 7 found
  exact ⟨found, read, inside 2 read (by decide) (by decide), around ['/', '/'] ['}']⟩

end ColorTokens.Source

import ColorTokens.Proofs.Splice
import Mathlib.Data.List.Nodup

/-! Which replacements are made. Of the replacements in span order each one is taken that fits the
text and begins no earlier than the last one taken ends. One pass over the text makes exactly these,
as making them one by one from the last to the first would, and it never cuts the text where it
cannot be cut. -/

set_option autoImplicit false

namespace ColorTokens

open ColorTokens.Text

namespace Replacement

def fits (text : List Char) (replacement : Replacement) : Bool :=
  (slice? text replacement.span.start replacement.span.stop).isSome

/-- The text with this replacement made in it and no other, if it can be. -/
def putInto? (replacement : Replacement) (text : List Char) : Option (List Char) := do
  guard (replacement.span.start ≤ replacement.span.stop)
  let (before, _) ← cut? replacement.span.start text
  let (_, after) ← cut? replacement.span.stop text
  return before ++ (replacement.text.toList ++ after)

end Replacement

/-- Equal spans stay in the order given. -/
def inSpanOrder (replacements : List Replacement) : List Replacement :=
  replacements.mergeSort fun a b => a.span.le b.span

/-- Takes what fits and begins at byte `cursor` or later; the cursor then goes on to its end. -/
def selectFrom (text : List Char) : Nat → List Replacement → List Replacement
  | _, [] => []
  | cursor, replacement :: more =>
    if replacement.fits text && cursor ≤ replacement.span.start then
      replacement :: selectFrom text replacement.span.stop more
    else
      selectFrom text cursor more

def selection (text : String) (replacements : List Replacement) : List Replacement :=
  selectFrom text.toList 0 (inSpanOrder replacements)

def growth : List Replacement → Int
  | [] => 0
  | replacement :: more =>
    (replacement.text.utf8ByteSize : Int) - replacement.span.length + growth more

/-- One pass over the text, with every slice of it checked. What lies between the end of the last
replacement taken and the start of the next one is copied, and so is what lies behind the last. -/
def passFrom? (text : List Char) : Nat → List Replacement → Option (List Char)
  | cursor, [] => slice? text cursor (byteLength text)
  | cursor, replacement :: more =>
    let span := replacement.span
    if span.start < cursor || span.stop < span.start || (slice? text span.start span.stop).isNone then
      passFrom? text cursor more
    else do
      let gap ← slice? text cursor span.start
      let rest ← passFrom? text span.stop more
      return gap ++ (replacement.text.toList ++ rest)

section Steps

variable {front rest gap old after : List Char} {replacement : Replacement}
  {more : List Replacement}

theorem byteLength_toList (text : String) : byteLength text.toList = text.utf8ByteSize := by
  obtain ⟨chars, rfl⟩ : ∃ chars, text = String.ofList chars := ⟨text.toList, by simp⟩
  rw [String.toList_ofList]
  induction chars with
  | nil => rfl
  | cons c chars ih =>
    rw [byteLength_cons, ih, String.ofList_cons, String.utf8ByteSize_append,
      String.utf8ByteSize_singleton]

theorem exists_parts (fits : replacement.fits (front ++ rest) = true)
    (behind : byteLength front ≤ replacement.span.start) :
    ∃ gap old after, rest = gap ++ (old ++ after) ∧
      replacement.span.start = byteLength front + byteLength gap ∧
      replacement.span.stop = byteLength front + byteLength (gap ++ old) := by
  obtain ⟨old, slice⟩ := Option.isSome_iff_exists.mp fits
  obtain ⟨before, after, whole, starts, stops⟩ := slice?_eq_some_iff.mp slice
  rw [List.append_assoc] at whole
  obtain ⟨gap, rfl, rfl⟩ := exists_append_of_byteLength_le whole (by omega)
  refine ⟨gap, old, after, rfl, ?_, ?_⟩
  · rw [← starts, byteLength_append]
  · rw [← stops, List.append_assoc, byteLength_append]

theorem slice?_of_parts (after : List Char)
    (starts : replacement.span.start = byteLength front + byteLength gap)
    (stops : replacement.span.stop = byteLength front + byteLength (gap ++ old)) :
    slice? (front ++ (gap ++ (old ++ after))) replacement.span.start replacement.span.stop =
      some old := by
  apply slice?_eq_some_iff.mpr
  exact ⟨front ++ gap, after, by simp, by simp [starts], by simp [stops]⟩

theorem spliceFrom_passed
    (passed : ¬ (replacement.fits (front ++ rest) = true ∧
      byteLength front ≤ replacement.span.start)) :
    spliceFrom (byteLength front) rest (replacement :: more) =
      spliceFrom (byteLength front) rest more := by
  simp only [spliceFrom]
  split
  · rfl
  · next ordered =>
    simp only [Bool.or_eq_true, decide_eq_true_eq, not_or, Nat.not_lt] at ordered
    -- Two cuts that succeed are where the replacement would have to lie to be taken.
    cases first : cut? (replacement.span.start - byteLength front) rest with
    | none => rfl
    | some parts =>
      obtain ⟨gap, here⟩ := parts
      cases second : cut? replacement.span.length here with
      | none => simp only [second]
      | some parts =>
        obtain ⟨old, after⟩ := parts
        obtain ⟨rfl, gapLength⟩ := cut?_eq_some_iff.mp first
        obtain ⟨rfl, oldLength⟩ := cut?_eq_some_iff.mp second
        rw [Span.length] at oldLength
        have starts : replacement.span.start = byteLength front + byteLength gap := by omega
        have stops : replacement.span.stop = byteLength front + byteLength (gap ++ old) := by
          rw [byteLength_append]
          omega
        refine absurd ⟨?_, ordered.1⟩ passed
        rw [Replacement.fits, slice?_of_parts after starts stops]
        rfl

end Steps

section Passes

variable {front rest : List Char}

/-- The pass makes the replacements that are taken, and no others. -/
theorem replaces_selectFrom (front rest : List Char) (replacements : List Replacement) :
    Replaces (byteLength front) (selectFrom (front ++ rest) (byteLength front) replacements) rest
      (spliceFrom (byteLength front) rest replacements) := by
  induction replacements generalizing front rest with
  | nil => exact .done
  | cons replacement more ih =>
    by_cases taken : replacement.fits (front ++ rest) = true ∧
        byteLength front ≤ replacement.span.start
    · obtain ⟨gap, old, after, rfl, starts, stops⟩ := exists_parts taken.1 taken.2
      have others := ih (front ++ (gap ++ old)) after
      rw [selectFrom, if_pos (by simpa using taken), spliceFrom_taken starts stops]
      apply Replaces.next starts stops
      simpa [stops] using others
    · rw [selectFrom, if_neg (by simpa using taken), spliceFrom_passed taken]
      exact ih front rest

theorem passFrom?_eq (front rest : List Char) (replacements : List Replacement) :
    passFrom? (front ++ rest) (byteLength front) replacements =
      some (spliceFrom (byteLength front) rest replacements) := by
  -- The cursor stands behind `front`, and the slices that follow are all taken from `rest`.
  induction replacements generalizing front rest with
  | nil =>
    rw [passFrom?, spliceFrom]
    apply slice?_eq_some_iff.mpr
    exact ⟨front, [], by simp, rfl, rfl⟩
  | cons replacement more ih =>
    by_cases taken : replacement.fits (front ++ rest) = true ∧
        byteLength front ≤ replacement.span.start
    · obtain ⟨gap, old, after, rfl, starts, stops⟩ := exists_parts taken.1 taken.2
      have slice := slice?_of_parts after starts stops
      have copied : slice? (front ++ (gap ++ (old ++ after))) (byteLength front)
          replacement.span.start = some gap := by
        apply slice?_eq_some_iff.mpr
        exact ⟨front, old ++ after, by simp, rfl, by simp [starts]⟩
      have others := ih (front ++ (gap ++ old)) after
      have ordered : ¬ (replacement.span.start < byteLength front ∨
          replacement.span.stop < replacement.span.start) := by
        rw [byteLength_append] at stops
        omega
      simp only [byteLength_append, List.append_assoc] at others stops
      simp only [passFrom?, slice, copied]
      rw [if_neg (by simpa using ordered), stops, others, spliceFrom_taken starts (by simp [stops])]
      simp [stops]
    · rw [spliceFrom_passed taken, ← ih front rest]
      have skipped : (replacement.span.start < byteLength front ∨
          replacement.span.stop < replacement.span.start) ∨
          slice? (front ++ rest) replacement.span.start replacement.span.stop = none := by
        rw [Replacement.fits, Option.isSome_iff_ne_none] at taken
        by_contra all
        simp only [not_or, Nat.not_lt] at all
        exact taken ⟨all.2, all.1.1⟩
      simp only [passFrom?]
      rw [if_pos (by simpa using skipped)]

end Passes

section Singly

variable {offset : Nat} {replacements : List Replacement} {before after : List Char}

theorem putInto?_of_parts {replacement : Replacement} {before old : List Char} (after : List Char)
    (starts : replacement.span.start = byteLength before)
    (stops : replacement.span.stop = byteLength (before ++ old)) :
    replacement.putInto? (before ++ (old ++ after)) =
      some (before ++ (replacement.text.toList ++ after)) := by
  have ordered : replacement.span.start ≤ replacement.span.stop := by
    rw [starts, stops, byteLength_append]
    omega
  have first := cut?_append before (old ++ after)
  have second := cut?_append (before ++ old) after
  rw [List.append_assoc] at second
  simp only [Replacement.putInto?, ordered, guard_true, Option.pure_def, Option.bind_eq_bind,
    Option.bind_some]
  simp only [starts, stops, first, second, Option.bind_some]

/-- Replacements made from the last to the first find their places as they were. -/
theorem Replaces.foldrM_putInto? (replaces : Replaces offset replacements before after)
    (front : List Char) (length : byteLength front = offset) :
    replacements.foldrM Replacement.putInto? (front ++ before) = some (front ++ after) := by
  induction replaces generalizing front with
  | done => rfl
  | @next offset replacement more gap old rest after starts stops _ ih =>
    subst length
    have others := ih (front ++ (gap ++ old)) (byteLength_append front (gap ++ old))
    rw [← byteLength_append] at starts stops
    rw [← List.append_assoc] at stops
    have put := putInto?_of_parts after starts stops
    simp only [List.append_assoc] at others put ⊢
    rw [List.foldrM_cons, others]
    exact put

theorem Replaces.growth_eq (replaces : Replaces offset replacements before after) :
    (byteLength after : Int) = byteLength before + growth replacements := by
  induction replaces with
  | done => simp [growth]
  | @next offset replacement more gap old rest after starts stops _ ih =>
    have length : replacement.span.length = byteLength old := by
      simp only [Span.length, byteLength_append] at stops ⊢
      omega
    simp only [growth, length, byteLength_append, byteLength_toList, Int.natCast_add, ih]
    omega

end Singly

section Orders

variable {text : List Char} {replacements others : List Replacement}

theorem inSpanOrder_sorted (replacements : List Replacement) :
    (inSpanOrder replacements).Pairwise fun a b => a.span.le b.span = true := by
  apply List.pairwise_mergeSort
  · intro a b c
    exact Span.le_trans
  · intro a b
    exact Span.le_total a.span b.span

theorem inSpanOrder_of_sorted
    (sorted : replacements.Pairwise fun a b => a.span.le b.span = true) :
    inSpanOrder replacements = replacements :=
  List.mergeSort_of_pairwise sorted

theorem splice_eq (text : String) (replacements : List Replacement) :
    splice text replacements =
      String.ofList (spliceFrom 0 text.toList (inSpanOrder replacements)) := rfl

theorem inSpanOrder_perm (replacements : List Replacement) :
    (inSpanOrder replacements).Perm replacements :=
  List.mergeSort_perm _ _

theorem start_le_stop_of_fits {replacement : Replacement} (fits : replacement.fits text = true) :
    replacement.span.start ≤ replacement.span.stop := by
  obtain ⟨old, slice⟩ := Option.isSome_iff_exists.mp fits
  obtain ⟨before, after, -, starts, stops⟩ := slice?_eq_some_iff.mp slice
  rw [← starts, ← stops, byteLength_append]
  omega

/-- In span order, a span that shares no byte with a later one ends before it begins. An empty span
comes before one that begins at the same place, so it is not in its way. -/
theorem stop_le_start {a b : Span} (ordered : a.le b = true) (apart : ¬ a.intersects b = true)
    (forward : b.start ≤ b.stop) : a.stop ≤ b.start := by
  rw [Span.le_iff] at ordered
  rw [Span.intersects_iff] at apart
  omega

theorem chronological (fit : ∀ replacement ∈ replacements, replacement.fits text = true)
    (apart : replacements.Pairwise fun a b => ¬ a.span.intersects b.span = true) :
    (inSpanOrder replacements).Pairwise fun a b => a.span.stop ≤ b.span.start := by
  have symmetric {a b : Replacement} (apart : ¬ a.span.intersects b.span = true) :
      ¬ b.span.intersects a.span = true := by
    rw [Span.intersects_iff] at apart ⊢
    omega
  have apart' := (inSpanOrder_perm replacements).symm.pairwise_iff symmetric |>.mp apart
  apply List.Pairwise.imp_of_mem _ ((inSpanOrder_sorted replacements).and apart')
  intro a b _ listed both
  have fits := fit b ((inSpanOrder_perm replacements).mem_iff.mp listed)
  exact stop_le_start both.1 both.2 (start_le_stop_of_fits fits)

theorem selectFrom_of_apart {cursor : Nat}
    (fit : ∀ replacement ∈ replacements, replacement.fits text = true)
    (apart : replacements.Pairwise fun a b => a.span.stop ≤ b.span.start)
    (behind : ∀ replacement ∈ replacements, cursor ≤ replacement.span.start) :
    selectFrom text cursor replacements = replacements := by
  induction replacements generalizing cursor with
  | nil => rfl
  | cons replacement more ih =>
    rw [List.forall_mem_cons] at fit behind
    rw [List.pairwise_cons] at apart
    rw [selectFrom, if_pos (by simp [fit.1, behind.1]), ih fit.2 apart.2 apart.1]

theorem inSpanOrder_eq_of_perm (distinct : (replacements.map (·.span)).Nodup)
    (perm : others.Perm replacements) : inSpanOrder others = inSpanOrder replacements := by
  have perm' := (inSpanOrder_perm others).trans (perm.trans (inSpanOrder_perm replacements).symm)
  apply List.Perm.eq_of_pairwise _ (inSpanOrder_sorted others) (inSpanOrder_sorted replacements) perm'
  intro a b listed listed' below above
  have member := (inSpanOrder_perm replacements).mem_iff.mp (perm'.mem_iff.mp listed)
  have member' := (inSpanOrder_perm replacements).mem_iff.mp listed'
  exact List.inj_on_of_nodup_map distinct member member' (Span.le_antisymm below above)

end Orders

/-- Splicing makes the replacements of the selection, as making them singly from the last to the
first does, and no slice of its pass fails; the text grows by what they add. Replacements that all
fit and share no byte are all selected, and with distinct spans the order they are given in does not
matter. -/
theorem splice_makes_selection (text : String) (replacements : List Replacement) :
    passFrom? text.toList 0 (inSpanOrder replacements) = some (splice text replacements).toList ∧
    (selection text replacements).foldrM Replacement.putInto? text.toList =
      some (splice text replacements).toList ∧
    ((splice text replacements).utf8ByteSize : Int) =
      text.utf8ByteSize + growth (selection text replacements) ∧
    ((∀ replacement ∈ replacements, replacement.fits text.toList = true) →
      (replacements.Pairwise fun a b => ¬ a.span.intersects b.span = true) →
      selection text replacements = inSpanOrder replacements) ∧
    ((replacements.map (·.span)).Nodup →
      ∀ others, others.Perm replacements → splice text others = splice text replacements) := by
  have written : (splice text replacements).toList =
      spliceFrom 0 text.toList (inSpanOrder replacements) := by
    rw [splice_eq, String.toList_ofList]
  -- All but the last part are read off what is replaced in the text.
  have made : Replaces 0 (selection text replacements) text.toList
      (splice text replacements).toList := by
    rw [written]
    exact replaces_selectFrom [] text.toList (inSpanOrder replacements)
  refine ⟨?_, made.foldrM_putInto? [] rfl, ?_, fun fit apart => ?_,
    fun distinct others perm => ?_⟩
  · rw [written]
    exact passFrom?_eq [] text.toList (inSpanOrder replacements)
  · rw [← byteLength_toList, ← byteLength_toList]
    exact made.growth_eq
  · apply selectFrom_of_apart _ (chronological fit apart)
    · intro replacement listed
      exact Nat.zero_le _
    · intro replacement listed
      exact fit replacement ((inSpanOrder_perm replacements).mem_iff.mp listed)
  · rw [splice_eq, splice_eq, inSpanOrder_eq_of_perm distinct perm]

/-- An empty span touches the two that are around it. -/
theorem splice_makes_selection_touching :
    selection "0é345" [⟨⟨4, 5⟩, "x"⟩, ⟨⟨1, 3⟩, ""⟩, ⟨⟨3, 3⟩, "!"⟩] =
      [⟨⟨1, 3⟩, ""⟩, ⟨⟨3, 3⟩, "!"⟩, ⟨⟨4, 5⟩, "x"⟩] ∧
    splice "0é345" [⟨⟨4, 5⟩, "x"⟩, ⟨⟨1, 3⟩, ""⟩, ⟨⟨3, 3⟩, "!"⟩] = "0!3x5" ∧
    splice "0é345" [⟨⟨3, 3⟩, "!"⟩, ⟨⟨1, 3⟩, ""⟩, ⟨⟨4, 5⟩, "x"⟩] = "0!3x5" := by
  obtain ⟨-, -, -, all, orders⟩ := splice_makes_selection "0é345"
    [⟨⟨4, 5⟩, "x"⟩, ⟨⟨1, 3⟩, ""⟩, ⟨⟨3, 3⟩, "!"⟩]
  have ordered : inSpanOrder [⟨⟨4, 5⟩, "x"⟩, ⟨⟨1, 3⟩, ""⟩, ⟨⟨3, 3⟩, "!"⟩] =
      [⟨⟨1, 3⟩, ""⟩, ⟨⟨3, 3⟩, "!"⟩, ⟨⟨4, 5⟩, "x"⟩] :=
    (inSpanOrder_eq_of_perm (by decide) (by decide)).trans (inSpanOrder_of_sorted (by decide))
  have written : splice "0é345" [⟨⟨4, 5⟩, "x"⟩, ⟨⟨1, 3⟩, ""⟩, ⟨⟨3, 3⟩, "!"⟩] = "0!3x5" := by
    rw [splice_eq, ordered]
    decide +kernel
  refine ⟨(all ?_ (by decide)).trans ordered, written, ?_⟩
  · exact List.all_eq_true.mp (by decide +kernel)
  · exact (orders (by decide) _ (List.reverse_perm _)).trans written

/-- Spans that are reversed, overlap the one before, end inside a character or lie past the end. -/
example : selection "0é345" [⟨⟨0, 2⟩, "a"⟩, ⟨⟨3, 1⟩, "b"⟩, ⟨⟨3, 5⟩, "c"⟩, ⟨⟨4, 6⟩, "d"⟩,
    ⟨⟨6, 6⟩, "e"⟩, ⟨⟨6, 6⟩, "f"⟩, ⟨⟨9, 9⟩, "g"⟩] =
    [⟨⟨3, 5⟩, "c"⟩, ⟨⟨6, 6⟩, "e"⟩, ⟨⟨6, 6⟩, "f"⟩] := by
  rw [selection, inSpanOrder_of_sorted (by decide)]
  decide +kernel

end ColorTokens

import ColorTokens.Proofs.Text.Bytes
import ColorTokens.Text.Position
import Mathlib.Data.List.DropRight

/-! Positions by counting. Between two characters a position is told by what stands before it: the
newlines there, and the characters behind the last of them. -/

set_option autoImplicit false

namespace ColorTokens.Text

section Lines

def lastLine (text : List Char) : List Char :=
  text.rtakeWhile (· != '\n')

theorem lastLine_newline (text : List Char) : lastLine (text ++ ['\n']) = [] :=
  List.rtakeWhile_concat_neg _ _ _ (by simp)

theorem lastLine_concat (text : List Char) {c : Char} (inline : c ≠ '\n') :
    lastLine (text ++ [c]) = lastLine text ++ [c] :=
  List.rtakeWhile_concat_pos _ _ _ (by simpa using inline)

theorem lastLine_append (front : List Char) {back : List Char} (inline : '\n' ∉ back) :
    lastLine (front ++ back) = lastLine front ++ back := by
  induction back using List.reverseRecOn with
  | nil => simp
  | append_singleton back c ih =>
    rw [List.mem_append, List.mem_singleton, not_or] at inline
    rw [← List.append_assoc, lastLine_concat _ (Ne.symm inline.2), ih inline.1, List.append_assoc]

theorem lastLine_append_of_mem (front : List Char) {back : List Char} (newline : '\n' ∈ back) :
    lastLine (front ++ back) = lastLine back := by
  induction back using List.reverseRecOn with
  | nil => cases newline
  | append_singleton back c ih =>
    rw [← List.append_assoc]
    by_cases here : c = '\n'
    · subst here
      rw [lastLine_newline, lastLine_newline]
    · rw [List.mem_append, List.mem_singleton, or_iff_left (Ne.symm here)] at newline
      rw [lastLine_concat _ here, lastLine_concat _ here, ih newline]

end Lines

namespace Position

/-- The walk behind a text that it has seen already. -/
def walkBehind (seen : List Char) : Nat → List Char → Position :=
  walk (1 + seen.count '\n') (lastLine seen).length (byteLength (lastLine seen))

theorem walkBehind_zero (seen rest : List Char) :
    walkBehind seen 0 rest = ⟨1 + seen.count '\n', (lastLine seen).length + 1⟩ := by
  simp [walkBehind, walk]

theorem walkBehind_nil (seen : List Char) (more : Nat) :
    walkBehind seen more [] = ⟨1 + seen.count '\n', (lastLine seen).length + 1⟩ := by
  cases more <;> simp [walkBehind, walk]

theorem walkBehind_cons (seen rest : List Char) (c : Char) (more : Nat) :
    walkBehind seen (c.utf8Size + more) (c :: rest) = walkBehind (seen ++ [c]) more rest := by
  have positive := c.utf8Size_pos
  obtain ⟨offset, same⟩ : ∃ offset, c.utf8Size + more = offset + 1 :=
    ⟨c.utf8Size + more - 1, by omega⟩
  rw [walkBehind, walkBehind, same, walk]
  by_cases newline : c = '\n'
  · subst newline
    have width : '\n'.utf8Size = 1 := rfl
    have left : offset = more := by omega
    rw [if_pos rfl, lastLine_newline, left, List.count_append]
    rfl
  · have fits : c.utf8Size ≤ offset + 1 := by omega
    have left : offset + 1 - c.utf8Size = more := by omega
    rw [if_neg newline, if_pos fits, left, lastLine_concat seen newline, List.count_append,
      List.count_singleton, if_neg (by simpa using newline)]
    simp

/-- Within a character the walk counts bytes. -/
theorem walkBehind_within (seen rest : List Char) {c : Char} {more : Nat} (begun : 0 < more)
    (unfinished : more < c.utf8Size) :
    walkBehind seen more (c :: rest) =
      ⟨1 + seen.count '\n', byteLength (lastLine seen) + more + 1⟩ := by
  obtain ⟨offset, rfl⟩ := Nat.exists_eq_add_of_lt begun
  have wide : c ≠ '\n' := by
    rintro rfl
    have width : '\n'.utf8Size = 1 := rfl
    omega
  rw [Nat.zero_add] at unfinished ⊢
  rw [walkBehind, walk, if_neg wide, if_neg (Nat.not_le.mpr unfinished)]

/-- A walk over the head of a text goes on as if it had seen it. -/
theorem walkBehind_append (seen front back : List Char) (more : Nat) :
    walkBehind seen (byteLength front + more) (front ++ back) =
      walkBehind (seen ++ front) more back := by
  induction front generalizing seen with
  | nil => simp
  | cons c front ih =>
    rw [byteLength_cons, Nat.add_assoc, List.cons_append, walkBehind_cons, ih, List.append_assoc,
      List.singleton_append]

theorem ofOffset_add (front back : List Char) (more : Nat) :
    ofOffset (front ++ back) (byteLength front + more) = walkBehind front more back :=
  walkBehind_append [] front back more

theorem ofOffset_append (front back : List Char) :
    ofOffset (front ++ back) (byteLength front) =
      ⟨1 + front.count '\n', (lastLine front).length + 1⟩ :=
  (ofOffset_add front back 0).trans (walkBehind_zero front back)

/-- A position of a text, counted from the start of another one that the text stands behind. Only
the first line is moved sideways. -/
def behind (front : List Char) (position : Position) : Position where
  line := front.count '\n' + position.line
  column :=
    if position.line = 1 then (lastLine front).length + position.column else position.column

variable {text part : List Char} {start : Nat}

/-- What comes later does not move a part. -/
theorem ofOffset_ahead (stands : Stands text start part) (back : List Char) :
    ofOffset (text ++ back) start = ofOffset text start := by
  obtain ⟨before, after, rfl, rfl⟩ := stands
  rw [List.append_assoc, ofOffset_append, ofOffset_append]

theorem ofOffset_behind (stands : Stands text start part) (front : List Char) :
    ofOffset (front ++ text) (byteLength front + start) = (ofOffset text start).behind front := by
  obtain ⟨before, after, rfl, rfl⟩ := stands
  rw [← List.append_assoc, ← byteLength_append, ofOffset_append, ofOffset_append, behind]
  by_cases newline : '\n' ∈ before
  · have counted := List.count_pos_iff.mpr newline
    rw [lastLine_append_of_mem front newline, if_neg (by simp; omega), List.count_append]
    simp only [Position.mk.injEq, and_true]
    omega
  · have uncounted := List.count_eq_zero.mpr newline
    have whole : lastLine before = before := lastLine_append [] newline
    rw [lastLine_append front newline, whole, if_pos (by simp [uncounted]), List.count_append]
    simp only [List.length_append, Position.mk.injEq]
    omega

def Before (first second : Position) : Prop :=
  first.line < second.line ∨ first.line = second.line ∧ first.column < second.column

theorem Before.irrefl (position : Position) : ¬ position.Before position := by
  unfold Before
  omega

/-- Between characters, positions come in the order of their offsets: a newline on the way begins a
later line, and without one every character on the way is one more column. -/
theorem ofOffset_before {front back front' back' : List Char} (whole : text = front ++ back)
    (whole' : text = front' ++ back') (earlier : byteLength front < byteLength front') :
    (ofOffset text (byteLength front)).Before (ofOffset text (byteLength front')) := by
  obtain ⟨middle, rfl, -⟩ :=
    exists_append_of_byteLength_le (whole.symm.trans whole') (Nat.le_of_lt earlier)
  have filled : 0 < middle.length := by
    rw [byteLength_append] at earlier
    refine List.length_pos_of_ne_nil ?_
    rintro rfl
    simp at earlier
  have first : ofOffset text (byteLength front) = _ := whole ▸ ofOffset_append front back
  have second : ofOffset text (byteLength (front ++ middle)) = _ :=
    whole' ▸ ofOffset_append (front ++ middle) back'
  rw [first, second, Before, List.count_append]
  by_cases newline : '\n' ∈ middle
  · have counted := List.count_pos_iff.mpr newline
    exact .inl (by simp only; omega)
  · have uncounted := List.count_eq_zero.mpr newline
    rw [lastLine_append front newline, List.length_append]
    exact .inr ⟨by simp only; omega, by simp only; omega⟩

theorem ofOffset_before_of_stands {part' : List Char} {start' : Nat}
    (stands : Stands text start part) (stands' : Stands text start' part') (earlier : start < start') :
    (ofOffset text start).Before (ofOffset text start') := by
  obtain ⟨front, back, whole, rfl⟩ := stands
  obtain ⟨front', back', whole', rfl⟩ := stands'
  exact ofOffset_before whole whole' earlier

end Position

end ColorTokens.Text

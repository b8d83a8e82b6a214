import ColorTokens.Text.Bytes
import ColorTokens.Text.Span
import Mathlib.Data.Option.Basic

/-! Cuts of a text at byte offsets. A cut succeeds exactly at the offset of a character, so two
parts of one text that begin at the same byte are the same part; spans are ordered linearly. -/

set_option autoImplicit false

namespace ColorTokens.Text

section Length

@[simp] theorem byteLength_nil : byteLength [] = 0 := rfl

@[simp] theorem byteLength_cons (c : Char) (rest : List Char) :
    byteLength (c :: rest) = c.utf8Size + byteLength rest := rfl

@[simp] theorem byteLength_append (front back : List Char) :
    byteLength (front ++ back) = byteLength front + byteLength back := by
  induction front with
  | nil => simp
  | cons c front ih => simp only [List.cons_append, byteLength_cons, ih, Nat.add_assoc]

theorem byteLength_pos {text : List Char} (nonempty : text ≠ []) : 0 < byteLength text := by
  cases text with
  | nil => exact absurd rfl nonempty
  | cons c rest =>
    have positive := c.utf8Size_pos
    simp only [byteLength_cons]
    omega

end Length

section Cuts

theorem cut?_append (front back : List Char) :
    cut? (byteLength front) (front ++ back) = some (front, back) := by
  induction front with
  | nil => simp [cut?]
  | cons c front ih =>
    have positive := c.utf8Size_pos
    obtain ⟨offset, same⟩ : ∃ offset, byteLength (c :: front) = offset + 1 :=
      ⟨byteLength (c :: front) - 1, by simp only [byteLength_cons]; omega⟩
    have fits : c.utf8Size ≤ offset + 1 := by simp only [← same, byteLength_cons]; omega
    have left : offset + 1 - c.utf8Size = byteLength front := by
      simp only [← same, byteLength_cons]; omega
    rw [same, List.cons_append, cut?, if_pos fits, left, ih]
    rfl

/-- A cut gives back the text it was made in, and its offset is the length of the first part. -/
theorem cut?_eq_some_iff {offset : Nat} {text front back : List Char} :
    cut? offset text = some (front, back) ↔ text = front ++ back ∧ byteLength front = offset := by
  constructor
  · intro made
    induction text generalizing offset front with
    | nil =>
      cases offset with
      | zero => simp only [cut?, Option.some.injEq, Prod.mk.injEq] at made; simp [← made.1, ← made.2]
      | succ offset => simp [cut?] at made
    | cons c rest ih =>
      cases offset with
      | zero => simp only [cut?, Option.some.injEq, Prod.mk.injEq] at made; simp [← made.1, ← made.2]
      | succ offset =>
        simp only [cut?] at made
        split at made
        · obtain ⟨parts, inner, same⟩ := Option.map_eq_some_iff.mp made
          simp only [Prod.mk.injEq] at same
          obtain ⟨rfl, rfl⟩ := same
          obtain ⟨whole, length⟩ := ih inner
          refine ⟨by rw [whole]; rfl, ?_⟩
          simp only [byteLength_cons, length]
          omega
        · cases made
  · rintro ⟨rfl, rfl⟩
    exact cut?_append front back

theorem append_inj_of_byteLength {front back front' back' : List Char}
    (same : front ++ back = front' ++ back') (length : byteLength front = byteLength front') :
    front = front' ∧ back = back' := by
  have cuts := cut?_append front back
  rw [same, length, cut?_append] at cuts
  simpa using cuts.symm

/-- Of two ways to part one text, the one with the longer first part refines the other. -/
theorem exists_append_of_byteLength_le {front back front' back' : List Char}
    (same : front ++ back = front' ++ back') (length : byteLength front ≤ byteLength front') :
    ∃ middle, front' = front ++ middle ∧ back = middle ++ back' := by
  rcases List.append_eq_append_iff.mp same with ⟨middle, longer, rest⟩ | ⟨middle, longer, rest⟩
  · exact ⟨middle, longer, rest⟩
  · have empty : middle = [] := by
      by_contra nonempty
      have positive := byteLength_pos nonempty
      rw [longer, byteLength_append] at length
      omega
    exact ⟨[], by simp [longer, empty], by simp [rest, empty]⟩

theorem slice?_eq_some_iff {text inner : List Char} {start stop : Nat} :
    slice? text start stop = some inner ↔
      ∃ before after, text = before ++ inner ++ after ∧ byteLength before = start ∧
        byteLength (before ++ inner) = stop := by
  simp only [slice?, Option.bind_eq_bind, Option.bind_eq_some_iff, Option.guard_eq_some',
    Option.pure_def, Option.some.injEq, Prod.exists, cut?_eq_some_iff]
  constructor
  · rintro ⟨_, ordered, before, behind, ⟨rfl, rfl⟩, found, after, ⟨rfl, length⟩, rfl⟩
    refine ⟨before, after, by simp, rfl, ?_⟩
    simp only [byteLength_append, length]
    omega
  · rintro ⟨before, after, rfl, rfl, rfl⟩
    refine ⟨(), by simp, before, inner ++ after, ⟨by simp, rfl⟩, inner, after, ⟨rfl, ?_⟩, rfl⟩
    simp

/-- The longest head within a budget leaves a rest that begins with a character too many. -/
theorem exists_takeBytes (budget : Nat) (text : List Char) :
    ∃ back, text = takeBytes budget text ++ back ∧ byteLength (takeBytes budget text) ≤ budget ∧
      ∀ c rest, back = c :: rest → budget < byteLength (takeBytes budget text ++ [c]) := by
  induction text generalizing budget with
  | nil => exact ⟨[], rfl, Nat.zero_le _, by simp⟩
  | cons c text ih =>
    rw [takeBytes]
    by_cases fits : c.utf8Size ≤ budget
    · rw [if_pos fits]
      obtain ⟨back, parted, within, behind⟩ := ih (budget - c.utf8Size)
      refine ⟨back, congrArg (c :: ·) parted, ?_, fun d rest first => ?_⟩
      · rw [byteLength_cons]
        omega
      · have further := behind d rest first
        rw [List.cons_append, byteLength_cons]
        omega
    · rw [if_neg fits]
      refine ⟨c :: text, rfl, Nat.zero_le _, fun d rest first => ?_⟩
      obtain ⟨rfl, rfl⟩ := List.cons_eq_cons.mp first
      simpa using fits

end Cuts

section Parts

def Stands (text : List Char) (start : Nat) (part : List Char) : Prop :=
  ∃ before after, text = before ++ (part ++ after) ∧ byteLength before = start

variable {text part : List Char} {start : Nat}

theorem Stands.within {inner : List Char} {offset : Nat} (outer : Stands text start part)
    (stands : Stands part offset inner) : Stands text (start + offset) inner := by
  obtain ⟨before, after, rfl, rfl⟩ := outer
  obtain ⟨before', after', rfl, rfl⟩ := stands
  exact ⟨before ++ before', after' ++ after, by simp, by simp⟩

theorem Stands.behind {gap rest : List Char}
    (stands : Stands (gap ++ rest) (byteLength gap + start) part) : Stands rest start part := by
  obtain ⟨before, after, whole, length⟩ := stands
  obtain ⟨more, rfl, rfl⟩ := exists_append_of_byteLength_le whole (by omega)
  exact ⟨more, after, rfl, by simpa using length⟩

theorem stands_of_slice? {inner : List Char} {stop : Nat}
    (slice : slice? text start stop = some inner) : Stands text start inner := by
  obtain ⟨before, after, rfl, rfl, _⟩ := slice?_eq_some_iff.mp slice
  exact ⟨before, after, by simp, rfl⟩

end Parts

namespace Span

theorem compare_eq_lt_iff {a b : Span} :
    compare a b = .lt ↔ a.start < b.start ∨ a.start = b.start ∧ a.stop < b.stop := by
  change (compare a.start b.start).then (compare a.stop b.stop) = .lt ↔ _
  rw [Ordering.then_eq_lt, Nat.compare_eq_lt, Nat.compare_eq_eq, Nat.compare_eq_lt]

theorem compare_eq_eq_iff {a b : Span} :
    compare a b = .eq ↔ a.start = b.start ∧ a.stop = b.stop := by
  change (compare a.start b.start).then (compare a.stop b.stop) = .eq ↔ _
  rw [Ordering.then_eq_eq, Nat.compare_eq_eq, Nat.compare_eq_eq]

theorem le_iff {a b : Span} :
    a.le b = true ↔ a.start < b.start ∨ a.start = b.start ∧ a.stop ≤ b.stop := by
  rw [le, Ordering.isLE_iff_eq_lt_or_eq_eq, compare_eq_lt_iff, compare_eq_eq_iff]
  omega

theorem le_trans {a b c : Span} (first : a.le b = true) (second : b.le c = true) :
    a.le c = true := by
  rw [le_iff] at first second ⊢
  omega

theorem le_antisymm {a b : Span} (below : a.le b = true) (above : b.le a = true) : a = b := by
  obtain ⟨start, stop⟩ := a
  obtain ⟨start', stop'⟩ := b
  simp only [le_iff] at below above
  rw [Span.mk.injEq]
  omega

theorem le_total (a b : Span) : (a.le b || b.le a) = true := by
  rw [Bool.or_eq_true, le_iff, le_iff]
  omega

theorem intersects_iff {a b : Span} :
    a.intersects b = true ↔ a.start < b.stop ∧ b.start < a.stop := by
  simp [intersects]

end Span

end ColorTokens.Text

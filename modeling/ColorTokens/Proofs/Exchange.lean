import ColorTokens.Proofs.Splice
import ColorTokens.Proofs.Text.Recognizer

/-! Two texts side by side, one of which came from the other by exchanging parts. Both are given by
one list of pieces, so that a place between two pieces is a place in either text, and a search
through one text can be followed in the other. -/

set_option autoImplicit false

namespace ColorTokens

open ColorTokens.Text

/-- A character that stays, or a part that gives way to another. -/
inductive Piece where
  | kept (c : Char)
  | swapped (old new : List Char)

namespace Piece

def before : Piece → List Char
  | .kept c => [c]
  | .swapped old _ => old

def after : Piece → List Char
  | .kept c => [c]
  | .swapped _ new => new

end Piece

def textBefore (pieces : List Piece) : List Char :=
  pieces.flatMap Piece.before

def textAfter (pieces : List Piece) : List Char :=
  pieces.flatMap Piece.after

section Sides

-- Either text is a view of the pieces that shows the kept characters as they are.
variable {view : Piece → List Char} {pieces : List Piece}

theorem flatMap_map_kept (own : ∀ c, view (.kept c) = [c]) (run : List Char) :
    (run.map Piece.kept).flatMap view = run := by
  induction run with
  | nil => rfl
  | cons c run ih => rw [List.map_cons, List.flatMap_cons, own, ih]; rfl

theorem exists_split_at (own : ∀ c, view (.kept c) = [c]) {c : Char} {front back : List Char}
    (solid : ∀ old new, .swapped old new ∈ pieces → c ∉ view (.swapped old new))
    (whole : pieces.flatMap view = front ++ c :: back) :
    ∃ left right, pieces = left ++ .kept c :: right ∧ left.flatMap view = front ∧
      right.flatMap view = back := by
  induction pieces generalizing front with
  | nil => simp at whole
  | cons piece pieces ih =>
    have others : ∀ old new, Piece.swapped old new ∈ pieces → c ∉ view (.swapped old new) :=
      fun old new member => solid old new (List.mem_cons_of_mem _ member)
    rw [List.flatMap_cons] at whole
    -- The character is shown by a later piece, or it is in what the first one shows.
    rcases List.append_eq_append_iff.mp whole with ⟨gap, rfl, rest⟩ | ⟨gap, shown, rest⟩
    · obtain ⟨left, right, rfl, rfl, rfl⟩ := ih others rest
      exact ⟨piece :: left, right, rfl, List.flatMap_cons, rfl⟩
    · cases gap with
      | nil =>
        have behind : pieces.flatMap view = [] ++ c :: back := rest.symm
        obtain ⟨left, right, rfl, empty, rfl⟩ := ih others behind
        rw [List.append_nil] at shown
        exact ⟨piece :: left, right, rfl, by rw [List.flatMap_cons, empty, List.append_nil, shown],
          rfl⟩
      | cons d gap =>
        obtain ⟨rfl, rfl⟩ := List.cons_eq_cons.mp rest
        cases piece with
        | swapped old new => exact absurd (by simp [shown]) (solid old new List.mem_cons_self)
        | kept e =>
          rw [own] at shown
          obtain ⟨rfl, rfl, rfl⟩ : front = [] ∧ e = c ∧ gap = [] := by
            cases front with
            | nil => simpa using shown
            | cons a front => simp at shown
          exact ⟨[], pieces, rfl, rfl, rfl⟩

theorem exists_kept_run (own : ∀ c, view (.kept c) = [c]) {run rest : List Char}
    (whole : pieces.flatMap view = run ++ rest)
    (solid : ∀ front left old new back, run = front ++ left → left ≠ [] →
      pieces = front.map .kept ++ .swapped old new :: back →
      left ++ rest = view (.swapped old new) ++ back.flatMap view → False) :
    ∃ back, pieces = run.map .kept ++ back ∧ back.flatMap view = rest := by
  induction run generalizing pieces with
  | nil => exact ⟨pieces, rfl, whole⟩
  | cons c run ih =>
    cases pieces with
    | nil => simp at whole
    | cons piece pieces =>
      rw [List.flatMap_cons] at whole
      cases piece with
      | swapped old new => exact (solid [] _ old new pieces rfl (by simp) rfl whole.symm).elim
      | kept d =>
        rw [own] at whole
        obtain ⟨rfl, same⟩ := List.cons_eq_cons.mp whole
        have inner : ∃ back, pieces = run.map .kept ++ back ∧ back.flatMap view = rest := by
          refine ih same fun front left old new back parted nonempty shape same => ?_
          exact solid (d :: front) left old new back (by rw [parted]; rfl) nonempty
            (by rw [shape]; rfl) same
        obtain ⟨back, rfl, shown⟩ := inner
        exact ⟨back, rfl, shown⟩

/-- What holds of every character in one view holds of those in another, if it holds of all that
the other shows in place of something. -/
theorem forall_mem_flatMap {view' : Piece → List Char} {p : Char → Prop}
    (own : ∀ c, view (.kept c) = [c]) (own' : ∀ c, view' (.kept c) = [c])
    (shown : ∀ c ∈ pieces.flatMap view, p c)
    (solid : ∀ old new, .swapped old new ∈ pieces → ∀ c ∈ view' (.swapped old new), p c) :
    ∀ c ∈ pieces.flatMap view', p c := by
  intro c member
  obtain ⟨piece, listed, inside⟩ := List.mem_flatMap.mp member
  cases piece with
  | kept d =>
    rw [own', List.mem_singleton] at inside
    subst inside
    exact shown c (List.mem_flatMap.mpr ⟨.kept c, listed, by simp [own]⟩)
  | swapped old new => exact solid old new listed c inside

end Sides

section Texts

variable {pieces : List Piece}

@[simp]
theorem textBefore_nil : textBefore [] = [] := rfl

@[simp]
theorem textAfter_nil : textAfter [] = [] := rfl

@[simp]
theorem textBefore_append (front back : List Piece) :
    textBefore (front ++ back) = textBefore front ++ textBefore back :=
  List.flatMap_append

@[simp]
theorem textAfter_append (front back : List Piece) :
    textAfter (front ++ back) = textAfter front ++ textAfter back :=
  List.flatMap_append

@[simp]
theorem textBefore_map_kept (run : List Char) : textBefore (run.map .kept) = run :=
  flatMap_map_kept (fun _ => rfl) run

@[simp]
theorem textAfter_map_kept (run : List Char) : textAfter (run.map .kept) = run :=
  flatMap_map_kept (fun _ => rfl) run

@[simp]
theorem textBefore_kept (c : Char) (pieces : List Piece) :
    textBefore (.kept c :: pieces) = c :: textBefore pieces := rfl

@[simp]
theorem textAfter_kept (c : Char) (pieces : List Piece) :
    textAfter (.kept c :: pieces) = c :: textAfter pieces := rfl

@[simp]
theorem textBefore_swapped (old new : List Char) (pieces : List Piece) :
    textBefore (.swapped old new :: pieces) = old ++ textBefore pieces := rfl

@[simp]
theorem textAfter_swapped (old new : List Char) (pieces : List Piece) :
    textAfter (.swapped old new :: pieces) = new ++ textAfter pieces := rfl

theorem exists_swapped_or_eq_map_kept (pieces : List Piece) :
    (∃ front old new back, pieces = front ++ .swapped old new :: back) ∨
      ∃ run : List Char, pieces = run.map .kept := by
  induction pieces with
  | nil => exact .inr ⟨[], rfl⟩
  | cons piece pieces ih =>
    cases piece with
    | swapped old new => exact .inl ⟨[], old, new, pieces, rfl⟩
    | kept c =>
      rcases ih with ⟨front, old, new, back, rfl⟩ | ⟨run, rfl⟩
      · exact .inl ⟨.kept c :: front, old, new, back, rfl⟩
      · exact .inr ⟨c :: run, rfl⟩

end Texts

section Replacing

/-- The spans of the exchanged parts in a text that begins at byte `offset`, with what is put in
their place. -/
def swaps : Nat → List Piece → List (Span × List Char)
  | _, [] => []
  | offset, .kept c :: rest => swaps (offset + c.utf8Size) rest
  | offset, .swapped old new :: rest =>
    (⟨offset, offset + byteLength old⟩, new) :: swaps (offset + byteLength old) rest

theorem swaps_map_kept_append (offset : Nat) (run : List Char) (pieces : List Piece) :
    swaps offset (run.map .kept ++ pieces) = swaps (offset + byteLength run) pieces := by
  induction run generalizing offset with
  | nil => rfl
  | cons c run ih =>
    rw [List.map_cons, List.cons_append, swaps, ih, byteLength_cons, Nat.add_assoc]

theorem mem_swaps_iff {offset : Nat} {pieces : List Piece} {span : Span} {new : List Char} :
    (span, new) ∈ swaps offset pieces ↔ ∃ front old back,
      pieces = front ++ .swapped old new :: back ∧
      span = ⟨offset + byteLength (textBefore front),
        offset + byteLength (textBefore front) + byteLength old⟩ := by
  induction pieces generalizing offset with
  | nil => simp [swaps]
  | cons piece pieces ih =>
    cases piece with
    | kept c =>
      rw [swaps, ih]
      constructor
      · rintro ⟨front, old, back, rfl, rfl⟩
        exact ⟨.kept c :: front, old, back, rfl, by simp [Nat.add_assoc]⟩
      · rintro ⟨front, old, back, whole, rfl⟩
        cases front with
        | nil => cases whole
        | cons piece front =>
          cases whole
          exact ⟨front, old, back, rfl, by simp [Nat.add_assoc]⟩
    | swapped old' new' =>
      rw [swaps, List.mem_cons, ih]
      constructor
      · rintro (same | ⟨front, old, back, rfl, rfl⟩)
        · cases same
          exact ⟨[], old', pieces, rfl, rfl⟩
        · exact ⟨.swapped old' new' :: front, old, back, rfl, by simp [Nat.add_assoc]⟩
      · rintro ⟨front, old, back, whole, rfl⟩
        cases front with
        | nil =>
          cases whole
          exact .inl rfl
        | cons piece front =>
          cases whole
          exact .inr ⟨front, old, back, rfl, by simp [Nat.add_assoc]⟩

theorem Replaces.exists_pieces {offset : Nat} {replacements : List Replacement}
    {before after : List Char} (replaces : Replaces offset replacements before after) :
    ∃ pieces, textBefore pieces = before ∧ textAfter pieces = after ∧
      swaps offset pieces =
        replacements.map fun replacement => (replacement.span, replacement.text.toList) := by
  induction replaces with
  | @done offset text =>
    refine ⟨text.map .kept, textBefore_map_kept text, textAfter_map_kept text, ?_⟩
    simpa [swaps] using swaps_map_kept_append offset text []
  | @next offset replacement more gap old rest after starts stops _ ih =>
    obtain ⟨pieces, rfl, rfl, placed⟩ := ih
    refine ⟨gap.map .kept ++ .swapped old replacement.text.toList :: pieces, by simp, by simp, ?_⟩
    have span : replacement.span =
        ⟨offset + byteLength gap, offset + byteLength gap + byteLength old⟩ := by
      rw [byteLength_append, ← Nat.add_assoc] at stops
      rw [← starts] at stops ⊢
      rw [← stops]
    rw [byteLength_append, ← Nat.add_assoc] at placed
    rw [swaps_map_kept_append, swaps, placed, List.map_cons, span]

end Replacing

section Searching

open Recognizer

variable {α : Type} {recognize : Recognizer α} {relevant : α → Prop}
  {Related : List Piece → α → α → Prop} {pieces : List Piece}

/-- A part of the pieces that a search goes through in both texts. What it finds there after the
exchange, as far as that is relevant, begins with the part and has a counterpart before. -/
structure Alongside (recognize : Recognizer α) (relevant : α → Prop)
    (Related : List Piece → α → α → Prop) (front part rest : List Piece) : Prop where
  filled : part ≠ []
  found : ∃ found found',
    Through recognize (textBefore front).getLast? (textBefore part) (textBefore rest) found ∧
    Through recognize (textAfter front).getLast? (textAfter part) (textAfter rest) found' ∧
    ∀ entry ∈ found', relevant entry.2 →
      entry.1 = 0 ∧ ∃ value, (0, value) ∈ found ∧ Related part value entry.2

theorem alongside_swapped {front rest : List Piece} {old new : List Char}
    (missed : ∀ left here, old = left ++ here → here ≠ [] →
      recognize (left.getLast?.or (textBefore front).getLast?) (here ++ textBefore rest) = none)
    (missed' : ∀ left here, new = left ++ here → here ≠ [] →
      recognize (left.getLast?.or (textAfter front).getLast?) (here ++ textAfter rest) = none) :
    Alongside recognize relevant Related front [.swapped old new] rest := by
  refine ⟨by simp, [], [], through_of_missed ?_, through_of_missed ?_, by simp⟩
  · rwa [textBefore_swapped, textBefore_nil, List.append_nil]
  · rwa [textAfter_swapped, textAfter_nil, List.append_nil]

theorem alongside_kept {front rest : List Piece} {c : Char}
    (missed : recognize (textBefore front).getLast? (c :: textBefore rest) = none)
    (missed' : recognize (textAfter front).getLast? (c :: textAfter rest) = none) :
    Alongside recognize relevant Related front [.kept c] rest :=
  ⟨by simp, [], [], .pass missed .nil, .pass missed' .nil, by simp⟩

/-- If a search can be followed from part to part, all that it finds after the exchange was found
before. -/
theorem exists_found_before
    (step : ∀ front back, pieces = front ++ back → back ≠ [] →
      ∃ part rest, back = part ++ rest ∧ Alongside recognize relevant Related front part rest)
    {entry : Nat × α} (member : entry ∈ recognize.findAll (textAfter pieces))
    (wanted : relevant entry.2) :
    ∃ front part rest value, pieces = front ++ (part ++ rest) ∧
      (byteLength (textBefore front), value) ∈ recognize.findAll (textBefore pieces) ∧
      entry.1 = byteLength (textAfter front) ∧ Related part value entry.2 := by
  -- The induction is on what is left of the pieces; the searches are kept in step.
  have along (front back : List Piece) (whole : pieces = front ++ back)
      (member : entry ∈ findFrom recognize (byteLength (textAfter front))
        (textAfter front).getLast? 0 (textAfter back)) :
      ∃ front' part rest value, pieces = front' ++ (part ++ rest) ∧
        (byteLength (textBefore front'), value) ∈ findFrom recognize
          (byteLength (textBefore front)) (textBefore front).getLast? 0 (textBefore back) ∧
        entry.1 = byteLength (textAfter front') ∧ Related part value entry.2 := by
    induction length : back.length using Nat.strong_induction_on generalizing front back with
    | _ n ih =>
      by_cases empty : back = []
      · subst empty
        cases member
      · obtain ⟨part, rest, rfl, filled, found, found', first, second, counterpart⟩ :=
          step front back whole empty
        rw [textAfter_append, second, List.mem_append] at member
        rw [textBefore_append, first]
        rcases member with member | member
        · obtain ⟨⟨place, value'⟩, listed, rfl⟩ := List.mem_map.mp member
          obtain ⟨begins, value, listed', related⟩ := counterpart _ listed wanted
          have begins : place = 0 := begins
          subst begins
          refine ⟨front, part, rest, value, whole, ?_, rfl, related⟩
          exact List.mem_append_left _ (List.mem_map.mpr ⟨_, listed', rfl⟩)
        · have shorter : rest.length < n := by
            have positive := List.length_pos_of_ne_nil filled
            rw [← length, List.length_append]
            omega
          rw [← List.getLast?_append, ← byteLength_append, ← textAfter_append] at member
          obtain ⟨front', part', rest', value, whole', listed, at', related⟩ :=
            ih rest.length shorter (front ++ part) rest (by simp [whole]) member rfl
          refine ⟨front', part', rest', value, whole', List.mem_append_right _ ?_, at', related⟩
          rwa [textBefore_append, byteLength_append, List.getLast?_append] at listed
  exact along [] pieces rfl member

end Searching

end ColorTokens

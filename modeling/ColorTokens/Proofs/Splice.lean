import ColorTokens.Splice
import ColorTokens.Proofs.Text.Bytes
import Mathlib.Data.List.Infix

/-! Replacing as a relation between texts. Replacements that cut their text between characters and
keep apart can all be carried out, and then splicing carries out exactly them. -/

set_option autoImplicit false

namespace ColorTokens

open ColorTokens.Text

/-- In a text that begins at byte `offset`, each replacement's span gives way to its text, in
order, and every other character stays. -/
inductive Replaces : Nat → List Replacement → List Char → List Char → Prop where
  | done {offset : Nat} {text : List Char} : Replaces offset [] text text
  | next {offset : Nat} {replacement : Replacement} {more : List Replacement}
      {gap old rest after : List Char}
      (starts : replacement.span.start = offset + byteLength gap)
      (stops : replacement.span.stop = offset + byteLength (gap ++ old))
      (others : Replaces (offset + byteLength (gap ++ old)) more rest after) :
      Replaces offset (replacement :: more) (gap ++ (old ++ rest))
        (gap ++ (replacement.text.toList ++ after))

theorem spliceFrom_taken {offset : Nat} {replacement : Replacement} {more : List Replacement}
    {gap old rest : List Char} (starts : replacement.span.start = offset + byteLength gap)
    (stops : replacement.span.stop = offset + byteLength (gap ++ old)) :
    spliceFrom offset (gap ++ (old ++ rest)) (replacement :: more) =
      gap ++ (replacement.text.toList ++ spliceFrom replacement.span.stop rest more) := by
  have ordered : ¬ ((replacement.span.start < offset ||
      replacement.span.stop < replacement.span.start) = true) := by
    simp only [byteLength_append, Bool.or_eq_true, decide_eq_true_eq] at stops ⊢
    omega
  have gapLength : replacement.span.start - offset = byteLength gap := by omega
  have oldLength : replacement.span.length = byteLength old := by
    simp only [Span.length, byteLength_append] at stops ⊢
    omega
  simp only [spliceFrom]
  rw [if_neg ordered, gapLength, cut?_append]
  simp only
  rw [oldLength, cut?_append]
  simp only
  rw [List.append_assoc]

namespace Replaces

variable {offset : Nat} {replacements : List Replacement} {before after : List Char}

theorem spliceFrom_eq (replaces : Replaces offset replacements before after) :
    spliceFrom offset before replacements = after := by
  induction replaces with
  | done => rfl
  | next starts stops _ ih => rw [spliceFrom_taken starts stops, stops, ih]

theorem unique {after' : List Char} (replaces : Replaces offset replacements before after)
    (replaces' : Replaces offset replacements before after') : after = after' :=
  replaces.spliceFrom_eq.symm.trans replaces'.spliceFrom_eq

theorem bounds (replaces : Replaces offset replacements before after) :
    ∀ replacement ∈ replacements,
      offset ≤ replacement.span.start ∧ replacement.span.start ≤ replacement.span.stop := by
  induction replaces with
  | done => intro replacement member; cases member
  | next starts stops _ ih =>
    intro replacement member
    rcases List.mem_cons.mp member with rfl | member
    · simp only [byteLength_append] at stops
      omega
    · have later := ih replacement member
      omega

theorem sorted (replaces : Replaces offset replacements before after) :
    replacements.Pairwise fun a b => a.span.le b.span := by
  induction replaces with
  | done => exact .nil
  | @next offset replacement more gap old rest after starts stops others ih =>
    refine List.pairwise_cons.mpr ⟨fun other member => Span.le_iff.mpr ?_, ih⟩
    have later := others.bounds other member
    simp only [byteLength_append] at stops later
    omega

theorem splice_eq {text : String} (replaces : Replaces 0 replacements text.toList after) :
    splice text replacements = String.ofList after := by
  rw [splice, List.mergeSort_of_pairwise replaces.sorted, replaces.spliceFrom_eq]

theorem append {replacements' : List Replacement} {front front' back back' : List Char}
    (first : Replaces offset replacements front front')
    (second : Replaces (offset + byteLength front) replacements' back back') :
    Replaces offset (replacements ++ replacements') (front ++ back) (front' ++ back') := by
  induction first with
  | @done offset text =>
    -- Nothing is replaced in the front, so it belongs to the gap before the next replacement.
    cases second with
    | done => exact .done
    | @next _ replacement more gap old rest after starts stops others =>
      rw [← List.append_assoc text, ← List.append_assoc text]
      refine .next ?_ ?_ ?_
      · simp only [starts, byteLength_append, Nat.add_assoc]
      · simp only [stops, byteLength_append, Nat.add_assoc]
      · simpa only [byteLength_append, Nat.add_assoc] using others
  | @next offset replacement more gap old rest after starts stops others ih =>
    rw [List.append_assoc, List.append_assoc, List.append_assoc, List.append_assoc]
    refine .next starts stops (ih ?_)
    simpa only [byteLength_append, Nat.add_assoc] using second

theorem forall_mem {p : Char → Prop} (replaces : Replaces offset replacements before after)
    (kept : ∀ c ∈ before, p c)
    (new : ∀ replacement ∈ replacements, ∀ c ∈ replacement.text.toList, p c) :
    ∀ c ∈ after, p c := by
  induction replaces with
  | done => exact kept
  | @next offset replacement more gap old rest after _ _ _ ih =>
    have others := ih (fun c member => kept c (by simp [member]))
      (fun other member => new other (List.mem_cons_of_mem _ member))
    intro c member
    rcases List.mem_append.mp member with member | member
    · exact kept c (by simp [member])
    · rcases List.mem_append.mp member with member | member
      · exact new replacement (List.mem_cons_self ..) c member
      · exact others c member

theorem isInfix (replaces : Replaces offset replacements before after) :
    ∀ replacement ∈ replacements, replacement.text.toList <:+: after := by
  induction replaces with
  | done => intro replacement member; cases member
  | @next offset replacement more gap old rest after _ _ _ ih =>
    intro other member
    rcases List.mem_cons.mp member with rfl | member
    · exact ⟨gap, after, List.append_assoc ..⟩
    · exact (ih other member).trans (((List.suffix_append _ _).trans
        (List.suffix_append _ _)).isInfix)

theorem head_mem (replaces : Replaces offset replacements before after)
    (filled : ∀ replacement ∈ replacements, replacement.text.toList ≠ []) :
    ∀ c ∈ after.head?, c ∈ before.head? ∨
      ∃ replacement ∈ replacements, c ∈ replacement.text.toList.head? := by
  cases replaces with
  | done => exact fun c first => .inl first
  | @next _ replacement more gap old rest after _ _ _ =>
    intro c first
    cases gap with
    | nil =>
      obtain ⟨d, written, same⟩ := List.exists_cons_of_ne_nil (filled replacement (by simp))
      refine .inr ⟨replacement, by simp, ?_⟩
      rw [same] at first ⊢
      simpa using first
    | cons d gap => exact .inl (by simpa using first)

end Replaces

/-- Replacements that cut the text between characters and keep apart can all be carried out. -/
theorem exists_replaces {offset : Nat} {replacements : List Replacement} {text : List Char}
    (placed : ∀ replacement ∈ replacements, ∃ start old, Stands text start old ∧
      replacement.span = ⟨offset + start, offset + start + byteLength old⟩)
    (apart : replacements.Pairwise fun first second => first.span.stop ≤ second.span.start) :
    ∃ after, Replaces offset replacements text after := by
  induction replacements generalizing offset text with
  | nil => exact ⟨text, .done⟩
  | cons replacement more ih =>
    obtain ⟨start, old, ⟨gap, rest, rfl, rfl⟩, span⟩ := placed replacement (List.mem_cons_self ..)
    obtain ⟨later, apart⟩ := List.pairwise_cons.mp apart
    have stops : replacement.span.stop = offset + byteLength (gap ++ old) := by
      simp only [span, byteLength_append, Nat.add_assoc]
    have others : ∃ after, Replaces (offset + byteLength (gap ++ old)) more rest after := by
      refine ih (fun other member => ?_) apart
      obtain ⟨start', old', stands, span'⟩ := placed other (List.mem_cons_of_mem _ member)
      have behind := later other member
      rw [stops, span'] at behind
      obtain ⟨distance, rfl⟩ := Nat.exists_eq_add_of_le (Nat.add_le_add_iff_left.mp behind)
      rw [← List.append_assoc] at stands
      exact ⟨distance, old', stands.behind, by simp only [span', Nat.add_assoc]⟩
    obtain ⟨after, others⟩ := others
    exact ⟨_, .next (by rw [span]) stops others⟩

end ColorTokens

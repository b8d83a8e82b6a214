import ColorTokens.Proofs.Text.Bytes
import ColorTokens.Text.Recognizer
import Mathlib.Data.List.Infix

/-! Successive recognition as a relation. A text is parted into characters that are passed over
and pieces that are taken; the findings are those of the pieces, each at its own byte. Searches in
two texts are compared part by part, which the executable search does not show directly. -/

set_option autoImplicit false

namespace ColorTokens.Text

variable {α : Type}

namespace Recognizer

/-- A success takes at least one character and no more than there are. -/
def Bounded (recognize : Recognizer α) : Prop :=
  ∀ (before : Option Char) (text : List Char) (taken : Nat) (value : α),
    recognize before text = some (taken, value) → 0 < taken ∧ taken ≤ text.length

/-- How a search goes through a text that begins at a byte offset behind a character. -/
inductive Findings (recognize : Recognizer α) :
    Nat → Option Char → List Char → List (Nat × α) → Prop where
  | done {offset : Nat} {before : Option Char} : Findings recognize offset before [] []
  | pass {offset : Nat} {before : Option Char} {c : Char} {rest : List Char}
      {found : List (Nat × α)} : recognize before (c :: rest) = none →
      Findings recognize (offset + c.utf8Size) (some c) rest found →
      Findings recognize offset before (c :: rest) found
  | take {offset : Nat} {before : Option Char} {piece rest : List Char} {value : α}
      {found : List (Nat × α)} : piece ≠ [] →
      recognize before (piece ++ rest) = some (piece.length, value) →
      Findings recognize (offset + byteLength piece) (piece.getLast?.or before) rest found →
      Findings recognize offset before (piece ++ rest) ((offset, value) :: found)

theorem getLast?_cons_or (c : Char) (piece : List Char) (before : Option Char) :
    (c :: piece).getLast?.or before = piece.getLast?.or (some c) := by
  rw [List.getLast?_cons]
  cases piece.getLast? <;> rfl

theorem findFrom_skip (recognize : Recognizer α) (offset : Nat) (before : Option Char)
    (piece rest : List Char) :
    findFrom recognize offset before piece.length (piece ++ rest) =
      findFrom recognize (offset + byteLength piece) (piece.getLast?.or before) 0 rest := by
  induction piece generalizing offset before with
  | nil => simp
  | cons c piece ih =>
    simp only [List.length_cons, List.cons_append, findFrom, ih, byteLength_cons, Nat.add_assoc,
      getLast?_cons_or]

theorem findFrom_take {recognize : Recognizer α} {before : Option Char} {piece rest : List Char}
    {value : α} (offset : Nat) (nonempty : piece ≠ [])
    (found : recognize before (piece ++ rest) = some (piece.length, value)) :
    findFrom recognize offset before 0 (piece ++ rest) = (offset, value) ::
      findFrom recognize (offset + byteLength piece) (piece.getLast?.or before) 0 rest := by
  cases piece with
  | nil => exact absurd rfl nonempty
  | cons c piece =>
    rw [List.cons_append] at found ⊢
    simp only [findFrom, found, List.length_cons, Nat.add_sub_cancel, findFrom_skip,
      byteLength_cons, Nat.add_assoc, getLast?_cons_or]

theorem findFrom_pass {recognize : Recognizer α} {before : Option Char} {c : Char}
    {rest : List Char} (offset : Nat) (missed : recognize before (c :: rest) = none) :
    findFrom recognize offset before 0 (c :: rest) =
      findFrom recognize (offset + c.utf8Size) (some c) 0 rest := by
  simp only [findFrom, missed]

theorem findings_findFrom {recognize : Recognizer α} (bounded : Bounded recognize) (offset : Nat)
    (before : Option Char) (text : List Char) :
    Findings recognize offset before text (findFrom recognize offset before 0 text) := by
  -- A taken piece is skipped at once, so the induction is on the length of what is left.
  induction length : text.length using Nat.strong_induction_on generalizing offset before text with
  | _ n ih =>
    subst length
    cases text with
    | nil => exact .done
    | cons c rest =>
      cases read : recognize before (c :: rest) with
      | none =>
        rw [findFrom_pass offset read]
        exact .pass read (ih rest.length (by simp) _ _ rest rfl)
      | some success =>
        obtain ⟨taken, value⟩ := success
        obtain ⟨positive, fits⟩ := bounded before (c :: rest) taken value read
        obtain ⟨piece, rest', parted, rfl⟩ : ∃ piece rest', c :: rest = piece ++ rest' ∧
            piece.length = taken :=
          ⟨_, _, (List.take_append_drop taken _).symm, List.length_take_of_le fits⟩
        have nonempty : piece ≠ [] := List.ne_nil_of_length_pos positive
        rw [parted] at read ⊢
        rw [findFrom_take offset nonempty read]
        have shorter : rest'.length < (piece ++ rest').length := by
          rw [List.length_append]
          omega
        exact .take nonempty read (ih _ (parted ▸ shorter) _ _ rest' rfl)

theorem Findings.eq_findFrom {recognize : Recognizer α} {offset : Nat} {before : Option Char}
    {text : List Char} {found : List (Nat × α)}
    (search : Findings recognize offset before text found) :
    findFrom recognize offset before 0 text = found := by
  induction search with
  | done => rfl
  | pass missed _ ih => rw [findFrom_pass _ missed, ih]
  | take nonempty read _ ih => rw [findFrom_take _ nonempty read, ih]

section Places

variable {recognize : Recognizer α} {offset : Nat} {before : Option Char} {text : List Char}
  {found : List (Nat × α)}

theorem Findings.place (search : Findings recognize offset before text found) {place : Nat}
    {value : α} (member : (place, value) ∈ found) :
    ∃ front piece rest, text = front ++ (piece ++ rest) ∧ place = offset + byteLength front ∧
      recognize (front.getLast?.or before) (piece ++ rest) = some (piece.length, value) := by
  induction search with
  | done => cases member
  | @pass offset before c rest found _ _ ih =>
    obtain ⟨front, piece, rest, rfl, rfl, read⟩ := ih member
    refine ⟨c :: front, piece, rest, rfl, by simp [Nat.add_assoc], ?_⟩
    rw [getLast?_cons_or, read]
  | @take offset before piece rest _ found nonempty read _ ih =>
    rcases List.mem_cons.mp member with same | member
    · cases same
      exact ⟨[], piece, rest, rfl, rfl, by simpa using read⟩
    · obtain ⟨front, inner, rest, rfl, rfl, read⟩ := ih member
      refine ⟨piece ++ front, inner, rest, by simp, by simp [Nat.add_assoc], ?_⟩
      rw [List.getLast?_append, Option.or_assoc, read]

/-- Findings come in order, and none begins before the piece of an earlier one ends. -/
theorem Findings.apart (search : Findings recognize offset before text found) (extent : α → Nat)
    (fits : ∀ before piece rest value,
      recognize before (piece ++ rest) = some (piece.length, value) → extent value ≤ byteLength piece) :
    (∀ entry ∈ found, offset ≤ entry.1) ∧
      found.Pairwise fun first second => first.1 + extent first.2 ≤ second.1 := by
  induction search with
  | done => exact ⟨by simp, .nil⟩
  | pass _ _ ih =>
    exact ⟨fun entry member => Nat.le_trans (Nat.le_add_right _ _) (ih.1 entry member), ih.2⟩
  | @take offset before piece rest value found _ read _ ih =>
    have reaches := fits before piece rest value read
    refine ⟨fun entry member => ?_, List.pairwise_cons.mpr ⟨fun entry member => ?_, ih.2⟩⟩
    · rcases List.mem_cons.mp member with rfl | member
      · exact Nat.le_refl offset
      · exact Nat.le_trans (Nat.le_add_right _ _) (ih.1 entry member)
    · have behind := ih.1 entry member
      simp only
      omega

end Places

/-- A search goes through two texts one after the other when what follows the first changes
nothing at any place in it. -/
theorem Findings.append {recognize : Recognizer α} {offset : Nat} {before : Option Char}
    {front back : List Char} {found more : List (Nat × α)}
    (first : Findings recognize offset before front found)
    (stable : ∀ before here, here ≠ [] → here <:+ front →
      recognize before (here ++ back) = recognize before here)
    (second : Findings recognize (offset + byteLength front) (front.getLast?.or before) back more) :
    Findings recognize offset before (front ++ back) (found ++ more) := by
  induction first with
  | done => simpa using second
  | @pass offset before c rest found missed search ih =>
    rw [getLast?_cons_or] at second
    refine .pass ?_ (ih (fun before here nonempty suffix =>
      stable before here nonempty (suffix.trans (List.suffix_cons c rest))) ?_)
    · exact (stable before (c :: rest) (by simp) List.suffix_rfl).trans missed
    · simpa [Nat.add_assoc] using second
  | @take offset before piece rest value found nonempty read search ih =>
    rw [List.getLast?_append, Option.or_assoc] at second
    have read' := (stable before (piece ++ rest) (by simp [nonempty]) List.suffix_rfl).trans read
    rw [List.append_assoc] at read' ⊢
    refine .take nonempty read' (ih (fun before here nonempty suffix =>
      stable before here nonempty (suffix.trans (List.suffix_append piece rest))) ?_)
    simpa [Nat.add_assoc] using second

def ContextFree (recognize : Recognizer α) : Prop :=
  ∀ before before' text, recognize before text = recognize before' text

theorem Findings.shift {recognize : Recognizer α} {offset : Nat} {before : Option Char}
    {text : List Char} {found : List (Nat × α)} (free : ContextFree recognize)
    (search : Findings recognize offset before text found) (distance : Nat)
    (before' : Option Char) :
    Findings recognize (distance + offset) before' text
      (found.map fun entry => (distance + entry.1, entry.2)) := by
  induction search generalizing before' with
  | done => exact .done
  | @pass offset before c rest found missed _ ih =>
    apply Findings.pass ((free before' before _).trans missed)
    rw [Nat.add_assoc]
    exact ih (some c)
  | @take offset before piece rest value found nonempty read _ ih =>
    apply Findings.take nonempty ((free before' before _).trans read)
    rw [Nat.add_assoc]
    exact ih (piece.getLast?.or before')

/-- What a search reads from a text, wherever the text stands. -/
def Reads (recognize : Recognizer α) (text : List Char) (values : List α) : Prop :=
  ∀ offset before, ∃ found, Findings recognize offset before text found ∧
    found.map Prod.snd = values

section Reading

variable {recognize : Recognizer α} {values more : List α}

theorem Reads.nil : Reads recognize [] [] :=
  fun _ _ => ⟨[], .done, rfl⟩

theorem Reads.pass {c : Char} {rest : List Char}
    (missed : ∀ before, recognize before (c :: rest) = none) (others : Reads recognize rest values) :
    Reads recognize (c :: rest) values := by
  intro offset before
  obtain ⟨found, search, same⟩ := others (offset + c.utf8Size) (some c)
  exact ⟨found, .pass (missed before) search, same⟩

theorem Reads.take {piece rest : List Char} {value : α} (nonempty : piece ≠ [])
    (read : ∀ before, recognize before (piece ++ rest) = some (piece.length, value))
    (others : Reads recognize rest values) : Reads recognize (piece ++ rest) (value :: values) := by
  intro offset before
  obtain ⟨found, search, rfl⟩ := others (offset + byteLength piece) (piece.getLast?.or before)
  exact ⟨_, .take nonempty (read before) search, rfl⟩

theorem Reads.whole {text : List Char} {value : α} (nonempty : text ≠ [])
    (read : ∀ before, recognize before text = some (text.length, value)) :
    Reads recognize text [value] := by
  rw [← List.append_nil text]
  refine .take nonempty (fun before => ?_) .nil
  rw [List.append_nil, read]

theorem Reads.append {front back : List Char} (first : Reads recognize front values)
    (stable : ∀ before here, here ≠ [] → here <:+ front →
      recognize before (here ++ back) = recognize before here)
    (second : Reads recognize back more) : Reads recognize (front ++ back) (values ++ more) := by
  intro offset before
  obtain ⟨found, search, rfl⟩ := first offset before
  obtain ⟨found', search', rfl⟩ := second (offset + byteLength front) (front.getLast?.or before)
  exact ⟨found ++ found', search.append stable search', List.map_append⟩

theorem Reads.map_snd_eq {offset : Nat} {before : Option Char} {text : List Char}
    {found : List (Nat × α)} (reads : Reads recognize text values)
    (search : Findings recognize offset before text found) : found.map Prod.snd = values := by
  obtain ⟨found', search', rfl⟩ := reads offset before
  rw [← search.eq_findFrom, search'.eq_findFrom]

theorem Reads.map_snd_findAll {text : List Char} (reads : Reads recognize text values) :
    (findAll recognize text).map Prod.snd = values := by
  obtain ⟨found, search, same⟩ := reads 0 none
  rw [findAll, search.eq_findFrom, same]

theorem Findings.reads (free : ContextFree recognize) {offset : Nat} {before : Option Char}
    {text : List Char} {found : List (Nat × α)}
    (search : Findings recognize offset before text found) :
    Reads recognize text (found.map Prod.snd) := by
  induction search with
  | done => exact .nil
  | pass missed _ ih => exact .pass (fun _ => (free _ _ _).trans missed) ih
  | take nonempty read _ ih => exact .take nonempty (fun _ => (free _ _ _).trans read) ih

theorem reads_findAll (bounded : Bounded recognize) (free : ContextFree recognize)
    (text : List Char) : Reads recognize text ((findAll recognize text).map Prod.snd) :=
  (findings_findFrom bounded 0 none text).reads free

theorem Findings.exists_of_head? (free : ContextFree recognize) {offset place : Nat}
    {before : Option Char} {text : List Char} {value : α} {found : List (Nat × α)}
    (search : Findings recognize offset before text found)
    (first : found.head? = some (place, value)) :
    ∃ front rest taken, text = front ++ rest ∧ place = offset + byteLength front ∧
      recognize none rest = some (taken, value) ∧
      ∀ here, here ≠ [] → here <:+ front → recognize none (here ++ rest) = none := by
  induction search with
  | done => cases first
  | @pass offset before c rest found missed _ ih =>
    obtain ⟨front, rest, taken, rfl, rfl, read, earlier⟩ := ih first
    refine ⟨c :: front, rest, taken, rfl, by simp [Nat.add_assoc], read, ?_⟩
    intro here nonempty suffix
    rcases List.suffix_cons_iff.mp suffix with rfl | suffix
    · exact (free _ _ _).trans missed
    · exact earlier here nonempty suffix
  | @take offset before piece rest value found _ read _ _ =>
    cases first
    refine ⟨[], piece ++ rest, piece.length, rfl, rfl, (free _ _ _).trans read, ?_⟩
    intro here nonempty suffix
    exact absurd (List.suffix_nil.mp suffix) nonempty

theorem findFrom_front (free : ContextFree recognize) {front rest : List Char}
    (missed : ∀ here, here ≠ [] → here <:+ front → recognize none (here ++ rest) = none)
    (offset : Nat) (before : Option Char) :
    findFrom recognize offset before 0 (front ++ rest) =
      findFrom recognize (offset + byteLength front) (front.getLast?.or before) 0 rest := by
  induction front generalizing offset before with
  | nil => simp
  | cons c front ih =>
    have none := (free before _ _).trans (missed (c :: front) (by simp) List.suffix_rfl)
    rw [List.cons_append] at none ⊢
    rw [findFrom_pass offset none, ih fun here nonempty suffix =>
      missed here nonempty (suffix.trans (List.suffix_cons c front))]
    rw [byteLength_cons, getLast?_cons_or, Nat.add_assoc]

theorem first?_eq_some_iff (bounded : Bounded recognize) (free : ContextFree recognize)
    {text : List Char} {place : Nat} {value : α} :
    first? recognize text = some (place, value) ↔
      ∃ front rest taken, text = front ++ rest ∧ place = byteLength front ∧
        recognize none rest = some (taken, value) ∧
        ∀ here, here ≠ [] → here <:+ front → recognize none (here ++ rest) = none := by
  constructor
  · intro first
    obtain ⟨front, rest, taken, whole, at', read⟩ :=
      (findings_findFrom bounded 0 none text).exists_of_head? free first
    exact ⟨front, rest, taken, whole, by omega, read⟩
  · rintro ⟨front, rest, taken, rfl, rfl, read, missed⟩
    obtain ⟨positive, fits⟩ := bounded none rest taken value read
    cases rest with
    | nil =>
      rw [List.length_nil] at fits
      omega
    | cons c rest =>
      have here := (free (front.getLast?.or none) _ _).trans read
      rw [first?, findAll, findFrom_front free missed]
      simp only [findFrom, here, List.head?_cons, Nat.zero_add]

end Reading

/-- What a search finds in a part of a text, provided that it goes on where the rest begins. The
entries are counted from the start of the part. -/
def Through (recognize : Recognizer α) (before : Option Char) (part rest : List Char)
    (found : List (Nat × α)) : Prop :=
  ∀ offset, findFrom recognize offset before 0 (part ++ rest) =
    found.map (fun entry => (offset + entry.1, entry.2)) ++
      findFrom recognize (offset + byteLength part) (part.getLast?.or before) 0 rest

section Through

variable {recognize : Recognizer α} {before : Option Char} {part rest : List Char}

theorem Through.nil : Through recognize before [] rest [] := by
  intro offset
  simp

theorem Through.take {value : α} (nonempty : part ≠ [])
    (read : recognize before (part ++ rest) = some (part.length, value)) :
    Through recognize before part rest [(0, value)] := by
  intro offset
  rw [findFrom_take offset nonempty read]
  rfl

theorem Through.pass {c : Char} {found : List (Nat × α)}
    (missed : recognize before (c :: (part ++ rest)) = none)
    (others : Through recognize (some c) part rest found) :
    Through recognize before (c :: part) rest
      (found.map fun entry => (c.utf8Size + entry.1, entry.2)) := by
  intro offset
  rw [List.cons_append, findFrom_pass offset missed, others, List.map_map, byteLength_cons,
    getLast?_cons_or, Nat.add_assoc]
  congr 2
  funext entry
  simp [Nat.add_assoc]

/-- A search goes through a part when whatever is read in it ends where the part ends. -/
theorem exists_through (ends : ∀ front here taken value, part = front ++ here → here ≠ [] →
      recognize (front.getLast?.or before) (here ++ rest) = some (taken, value) →
      taken = here.length) :
    ∃ found, Through recognize before part rest found := by
  induction part generalizing before with
  | nil => exact ⟨[], .nil⟩
  | cons c part ih =>
    cases read : recognize before (c :: part ++ rest) with
    | some success =>
      obtain ⟨taken, value⟩ := success
      have whole := ends [] (c :: part) taken value rfl (by simp) read
      rw [whole] at read
      exact ⟨_, .take (by simp) read⟩
    | none =>
      have inner : ∃ found, Through recognize (some c) part rest found := by
        apply ih
        intro front here taken value parted nonempty read
        apply ends (c :: front) here taken value (by rw [parted]; rfl) nonempty
        rwa [getLast?_cons_or]
      obtain ⟨found, others⟩ := inner
      exact ⟨_, .pass read others⟩

theorem through_of_missed (missed : ∀ front here, part = front ++ here → here ≠ [] →
      recognize (front.getLast?.or before) (here ++ rest) = none) :
    Through recognize before part rest [] := by
  induction part generalizing before with
  | nil => exact .nil
  | cons c part ih =>
    have others : Through recognize (some c) part rest [] := by
      apply ih
      intro front here parted nonempty
      rw [← getLast?_cons_or c front before]
      exact missed (c :: front) here (by rw [parted]; rfl) nonempty
    exact .pass (missed [] (c :: part) rfl (by simp)) others

end Through

end Recognizer

theorem findSome?_eq_of_unique {β : Type} {alternatives : List β} {f : β → Option α} {choice : β}
    {value : α} (listed : choice ∈ alternatives) (success : f choice = some value)
    (unique : ∀ other ∈ alternatives, (f other).isSome = true → other = choice) :
    alternatives.findSome? f = some value := by
  have found : (alternatives.findSome? f).isSome = true :=
    List.findSome?_isSome_iff.mpr ⟨choice, listed, by rw [success]; rfl⟩
  obtain ⟨taken, first⟩ := Option.isSome_iff_exists.mp found
  obtain ⟨other, listed', read⟩ := List.exists_of_findSome?_eq_some first
  obtain rfl := unique other listed' (by rw [read]; rfl)
  rw [first, ← read, success]

theorem holds_iff (part text : List Char) : holds part text = true ↔ part <:+: text := by
  induction text with
  | nil => simp [holds]
  | cons c rest ih =>
    rw [holds, Bool.or_eq_true, List.isPrefixOf_iff_prefix, ih, List.infix_cons_iff]

end ColorTokens.Text

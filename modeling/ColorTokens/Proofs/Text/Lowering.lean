import ColorTokens.Proofs.Text.Lowercase

/-! Lower-casing read backwards. A lowered text is put together from the images of its characters,
one behind the other, whatever the context makes of a capital sigma. So a sign in it stands where it
stood before, and an ASCII character is the image of a single one unless a dotted capital is behind
it. -/

set_option autoImplicit false

namespace ColorTokens.Text

def Image (c : Char) (piece : List Char) : Prop :=
  piece = lowerChar c ∨ c = '\u03a3' ∧ (piece = ['\u03c2'] ∨ piece = ['\u03c3'])

inductive Lowers : List Char → List Char → Prop where
  | nil : Lowers [] []
  | cons {c : Char} {piece text lower : List Char} : Image c piece → Lowers text lower →
      Lowers (c :: text) (piece ++ lower)

/-- Characters that are nothing's image but their own. -/
def IsSign (c : Char) : Prop :=
  c.toNat < 97 ∧ lowerChar c = [c]

section Images

variable {c d sign : Char} {piece : List Char}

/-- Whether a run leads beyond ASCII; but for one run, that of the Kelvin sign. -/
def CaseRun.staysBeyond (run : CaseRun) : Bool :=
  128 ≤ run.target || run == ⟨0x212A, 0x212A, 1, 0x6B⟩

/-- The Kelvin sign is the one character beyond ASCII that a run leads into it. -/
theorem CaseRun.eq_of_lower? {run : CaseRun} (listed : run ∈ caseRuns)
    (lowered : run.lower? c = some d) (ascii : d.toNat < 128) : c = '\u212a' ∧ d = 'k' := by
  have all : caseRuns.all CaseRun.staysBeyond = true := by decide +kernel
  have stays := List.all_eq_true.mp all run listed
  obtain ⟨value, -⟩ := CaseRun.toNat_of_lower? listed lowered
  rw [CaseRun.staysBeyond, Bool.or_eq_true, decide_eq_true_eq, beq_iff_eq] at stays
  rcases stays with beyond | kelvin
  · omega
  · obtain ⟨low, high, -⟩ := CaseRun.lower?_eq_some_iff.mp lowered
    simp only [kelvin] at low high value
    have from' : c.toNat = '\u212a'.toNat := Nat.le_antisymm high low
    have to' : d.toNat = 'k'.toNat := by
      rw [value, from']
      rfl
    exact ⟨Char.toNat_inj.mp from', Char.toNat_inj.mp to'⟩

/-- The dotted capital is the only character that is lowered to two. -/
theorem Image.cases (image : Image c piece) :
    (∃ d, piece = [d]) ∨ c = '\u0130' ∧ piece = ['i', '\u0307'] := by
  rcases image with rfl | ⟨-, rfl | rfl⟩
  · unfold lowerChar
    split
    · exact .inl ⟨_, rfl⟩
    · split
      · next dotted => exact .inr ⟨by simpa using dotted, rfl⟩
      · exact .inl ⟨_, rfl⟩
  · exact .inl ⟨_, rfl⟩
  · exact .inl ⟨_, rfl⟩

theorem Image.ascii_cases (image : Image c [d]) (ascii : d.toNat < 128) :
    c.toNat < 128 ∧ d = c.toLower ∨ c = '\u212a' ∧ d = 'k' := by
  rcases image with single | ⟨-, same | same⟩
  · unfold lowerChar at single
    split at single
    · next low => exact .inl ⟨low, by simpa using single⟩
    · next high =>
      split at single
      · cases single
      · cases found : caseRuns.findSome? (·.lower? c) with
        | none =>
          rw [found] at single
          cases single
          exact absurd ascii high
        | some lower =>
          rw [found] at single
          cases single
          obtain ⟨run, listed, lowered⟩ := List.exists_of_findSome?_eq_some found
          exact .inr (CaseRun.eq_of_lower? listed lowered ascii)
  · cases same
    exact absurd ascii (by decide)
  · cases same
    exact absurd ascii (by decide)

theorem Image.of_ascii (image : Image c piece) (ascii : c.toNat < 128) : piece = [c.toLower] := by
  rcases image with rfl | ⟨rfl, -⟩
  · exact lowerChar_of_ascii ascii
  · exact absurd ascii (by decide)

theorem Image.mem_sign (image : Image c piece) (isSign : IsSign sign) (member : sign ∈ piece) :
    c = sign ∧ piece = [sign] := by
  have low := isSign.1
  rcases image with rfl | ⟨-, rfl | rfl⟩
  · rcases eq_or_letter_of_mem_lowerChar member with rfl | letter
    · exact ⟨rfl, isSign.2⟩
    · omega
  · rw [List.mem_singleton] at member
    subst member
    exact absurd low (by decide)
  · rw [List.mem_singleton] at member
    subst member
    exact absurd low (by decide)

theorem Image.of_sign (image : Image sign piece) (isSign : IsSign sign) : piece = [sign] := by
  rcases image with rfl | ⟨rfl, -⟩
  · exact isSign.2
  · exact absurd isSign.1 (by decide)

end Images

section Texts

variable {text lower front back rest : List Char} {c sign : Char}

theorem lowers_lowercaseAfter (before text : List Char) :
    Lowers text (lowercaseAfter before text) := by
  induction text generalizing before with
  | nil => exact .nil
  | cons c text ih =>
    refine .cons ?_ (ih (c :: before))
    by_cases sigma : c = '\u03a3'
    · rw [if_pos (by simpa using sigma)]
      refine .inr ⟨sigma, ?_⟩
      split
      · exact .inl rfl
      · exact .inr rfl
    · rw [if_neg (by simpa using sigma)]
      exact .inl rfl

theorem Lowers.of_append (lowers : Lowers (front ++ rest) lower) :
    ∃ lower' lower'', lower = lower' ++ lower'' ∧ Lowers front lower' ∧ Lowers rest lower'' := by
  induction front generalizing lower with
  | nil => exact ⟨[], lower, rfl, .nil, lowers⟩
  | cons c front ih =>
    cases lowers with
    | cons image lowers =>
      obtain ⟨lower', lower'', rfl, first, second⟩ := ih lowers
      exact ⟨_, lower'', (List.append_assoc _ _ _).symm, .cons image first, second⟩

theorem Lowers.eq_nil (lowers : Lowers text []) : text = [] := by
  generalize empty : [] = lower at lowers
  cases lowers with
  | nil => rfl
  | cons image _ =>
    rcases image.cases with ⟨d, rfl⟩ | ⟨-, rfl⟩ <;> cases empty

theorem Lowers.eq_map_toLower (lowers : Lowers text lower) (ascii : ∀ c ∈ text, c.toNat < 128) :
    lower = text.map Char.toLower := by
  induction lowers with
  | nil => rfl
  | cons image _ ih =>
    obtain ⟨first, others⟩ := List.forall_mem_cons.mp ascii
    rw [image.of_ascii first, ih others]
    rfl

theorem Lowers.mem_sign_iff (lowers : Lowers text lower) (isSign : IsSign sign) :
    sign ∈ lower ↔ sign ∈ text := by
  induction lowers with
  | nil => rfl
  | @cons c piece text lower image _ ih =>
    rw [List.mem_append, List.mem_cons, ih]
    refine or_congr_left ⟨fun member => (image.mem_sign isSign member).1.symm, ?_⟩
    rintro rfl
    rw [image.of_sign isSign]
    exact List.mem_singleton_self _

theorem Lowers.of_sign (lowers : Lowers (sign :: text) lower) (isSign : IsSign sign) :
    ∃ lower', lower = sign :: lower' ∧ Lowers text lower' := by
  cases lowers with
  | cons image lowers => exact ⟨_, by rw [image.of_sign isSign]; rfl, lowers⟩

theorem Lowers.exists_sign (isSign : IsSign sign) (lowers : Lowers text (front ++ sign :: back)) :
    ∃ text' rest, text = text' ++ sign :: rest ∧ Lowers text' front ∧ Lowers rest back := by
  generalize whole : front ++ sign :: back = lower at lowers
  induction lowers generalizing front with
  | nil => simp at whole
  | @cons c piece text lower image lowers ih =>
    rcases List.append_eq_append_iff.mp whole with ⟨left, rfl, behind⟩ | ⟨left, rfl, behind⟩
    · cases left with
      | nil =>
        have behind' : [] ++ sign :: back = lower := behind
        obtain ⟨text', rest, rfl, first, second⟩ := ih behind'
        obtain rfl := first.eq_nil
        exact ⟨[c], rest, rfl, by simpa using Lowers.cons image .nil, second⟩
      | cons d left =>
        obtain ⟨rfl, rfl⟩ := List.cons_eq_cons.mp behind
        obtain ⟨rfl, same⟩ := image.mem_sign isSign (by simp)
        -- The sign is all that the character is lowered to.
        obtain ⟨rfl, rfl⟩ : front = [] ∧ left = [] := by
          cases front with
          | nil => simpa using same
          | cons e front => simp at same
        exact ⟨[], text, rfl, .nil, lowers⟩
    · obtain ⟨text', rest, rfl, first, second⟩ := ih behind.symm
      exact ⟨c :: text', rest, rfl, .cons image first, second⟩

/-- ASCII characters of a lowered text are the images of as many characters, where no dot above that
could belong to the last one follows. -/
theorem Lowers.exists_word {word : List Char} (lowers : Lowers text (word ++ back))
    (ascii : ∀ c ∈ word, c.toNat < 128) (plain : '\u0307' ∉ back.head?) :
    ∃ written rest, text = written ++ rest ∧
      List.Forall₂ (fun letter c => Image c [letter]) word written ∧ Lowers rest back := by
  induction word generalizing text with
  | nil => exact ⟨[], text, rfl, .nil, lowers⟩
  | cons letter word ih =>
    obtain ⟨-, others⟩ := List.forall_mem_cons.mp ascii
    generalize whole : letter :: word ++ back = lower at lowers
    cases lowers with
    | nil => cases whole
    | @cons c piece text lower image lowers =>
      rcases image.cases with ⟨d, rfl⟩ | ⟨rfl, rfl⟩
      · obtain ⟨rfl, rfl⟩ := List.cons_eq_cons.mp whole
        obtain ⟨written, rest, rfl, images, behind⟩ := ih lowers others
        exact ⟨c :: written, rest, rfl, .cons image images, behind⟩
      · -- The dot of a dotted capital is neither in the word nor behind it.
        obtain ⟨rfl, dot⟩ := List.cons_eq_cons.mp whole
        cases word with
        | nil => exact absurd (by rw [show back = _ from dot]; rfl) plain
        | cons next word =>
          obtain ⟨rfl, -⟩ := List.cons_eq_cons.mp dot
          exact absurd (others _ List.mem_cons_self) (by decide)

end Texts

section Breaks

variable {stop : Char}

structure IsBreak (stop : Char) : Prop where
  isSign : IsSign stop
  uncased : isCased stop = false
  counted : isCaseIgnorable stop = false

theorem IsBreak.meetsCased_append (isBreak : IsBreak stop) (text rest : List Char) :
    meetsCased (text ++ stop :: rest) = meetsCased text := by
  induction text with
  | nil => simp [meetsCased, isBreak.counted, isBreak.uncased]
  | cons c text ih =>
    cases ignorable : isCaseIgnorable c with
    | true => simpa [meetsCased, ignorable] using ih
    | false => simp [meetsCased, ignorable]

theorem IsBreak.lowercaseAfter_before (isBreak : IsBreak stop) (before far text : List Char) :
    lowercaseAfter (before ++ stop :: far) text = lowercaseAfter before text := by
  induction text generalizing before with
  | nil => rfl
  | cons c text ih =>
    have others := ih (c :: before)
    rw [List.cons_append] at others
    simp only [lowercaseAfter, isBreak.meetsCased_append, others]

theorem IsBreak.lowercaseAfter_append (isBreak : IsBreak stop) (before front rest : List Char) :
    lowercaseAfter before (front ++ stop :: rest) =
      lowercaseAfter before front ++ stop :: lowercase rest := by
  induction front generalizing before with
  | nil =>
    have plain : stop ≠ '\u03a3' := by
      rintro rfl
      exact absurd isBreak.isSign.1 (by decide)
    have behind := isBreak.lowercaseAfter_before [] before rest
    rw [List.nil_append] at behind
    simp [lowercaseAfter, plain, isBreak.isSign.2, behind, lowercase]
  -- A capital sigma of the front looks no further than the break.
  | cons c front ih =>
    simp only [List.cons_append, lowercaseAfter, isBreak.meetsCased_append, ih,
      List.append_assoc]

/-- A text is lowered by itself on either side of a break. -/
theorem IsBreak.lowercase_append (isBreak : IsBreak stop) (front rest : List Char) :
    lowercase (front ++ stop :: rest) = lowercase front ++ stop :: lowercase rest :=
  isBreak.lowercaseAfter_append [] front rest

end Breaks

end ColorTokens.Text

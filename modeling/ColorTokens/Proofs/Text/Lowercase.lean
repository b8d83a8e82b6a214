import ColorTokens.Text.Lowercase
import Mathlib.Data.List.Basic

/-! What lower-casing leaves. No run of the table leads into a run of capitals, so a lowered text is
left as it is by lowering it again, and of the ASCII characters only letters are ever new. -/

set_option autoImplicit false

namespace ColorTokens.Text

section Runs

/-- Whether what one run lowers to keeps clear of the capitals of another. Where the two ranges
meet, they take turns. -/
def CaseRun.clearOf (run other : CaseRun) : Bool :=
  run.target + (run.last - run.first) < other.first || other.last < run.target ||
    (other.step == 2 && (run.step == 2 || run.first == run.last) &&
      (run.target + other.first) % 2 == 1)

theorem caseRuns_clear {run other : CaseRun} (listed : run ∈ caseRuns)
    (listed' : other ∈ caseRuns) : run.clearOf other = true := by
  have all : (caseRuns.all fun run => caseRuns.all run.clearOf) = true := by decide +kernel
  exact List.all_eq_true.mp (List.all_eq_true.mp all run listed) other listed'

/-- Whether what a run lowers to are characters, and either letters of ASCII or beyond it; the
dotted capital, which has a rule of its own, is not among them. -/
def CaseRun.isSound (run : CaseRun) : Bool :=
  let reach := run.target + (run.last - run.first)
  (reach < 0xD800 || (0xDFFF < run.target && reach < 0x110000)) &&
    (128 ≤ run.target || (97 ≤ run.target && reach ≤ 122)) &&
    (reach < 0x130 || 0x130 < run.target)

theorem caseRuns_sound {run : CaseRun} (listed : run ∈ caseRuns) : run.isSound = true := by
  have all : caseRuns.all CaseRun.isSound = true := by decide +kernel
  exact List.all_eq_true.mp all run listed

variable {run other : CaseRun} {c d : Char}

theorem CaseRun.lower?_eq_some_iff :
    run.lower? c = some d ↔ run.first ≤ c.toNat ∧ c.toNat ≤ run.last ∧
      (c.toNat - run.first) % run.step = 0 ∧
      d = Char.ofNat (run.target + (c.toNat - run.first)) := by
  unfold CaseRun.lower?
  simp only [Option.ite_none_right_eq_some, Bool.and_eq_true, decide_eq_true_eq, beq_iff_eq,
    Option.some.injEq, and_assoc]
  rw [eq_comm (a := d)]

theorem CaseRun.toNat_of_lower? (listed : run ∈ caseRuns) (lowered : run.lower? c = some d) :
    d.toNat = run.target + (c.toNat - run.first) ∧
      (97 ≤ d.toNat ∧ d.toNat ≤ 122 ∨ 128 ≤ d.toNat) ∧ d.toNat ≠ 0x130 := by
  obtain ⟨low, high, -, rfl⟩ := CaseRun.lower?_eq_some_iff.mp lowered
  have sound := caseRuns_sound listed
  simp only [CaseRun.isSound, Bool.and_eq_true, Bool.or_eq_true, decide_eq_true_eq] at sound
  -- A number that is no character would give the null character instead.
  have valid : (run.target + (c.toNat - run.first)).isValidChar := by
    simp only [Nat.isValidChar]
    omega
  have value : (Char.ofNat (run.target + (c.toNat - run.first))).toNat =
      run.target + (c.toNat - run.first) := by
    rw [Char.ofNat, dif_pos valid]
    rfl
  omega

theorem CaseRun.lower?_eq_none (listed : run ∈ caseRuns) (listed' : other ∈ caseRuns)
    (lowered : run.lower? c = some d) : other.lower? d = none := by
  obtain ⟨value, -⟩ := CaseRun.toNat_of_lower? listed lowered
  obtain ⟨low, high, even, -⟩ := CaseRun.lower?_eq_some_iff.mp lowered
  have clear := caseRuns_clear listed listed'
  simp only [CaseRun.clearOf, Bool.or_eq_true, Bool.and_eq_true, decide_eq_true_eq,
    beq_iff_eq] at clear
  rw [Option.eq_none_iff_forall_ne_some]
  intro e again
  obtain ⟨low', high', even', -⟩ := CaseRun.lower?_eq_some_iff.mp again
  rcases clear with (below | above) | ⟨⟨two, twos⟩, odd⟩
  · omega
  · omega
  -- The two ranges meet, and the places in them have different parities.
  · rw [two] at even'
    rcases twos with two' | single
    · rw [two'] at even
      omega
    · omega

end Runs

section Characters

/-- A character that lower-casing leaves as it is, wherever it stands. -/
def Lowered (c : Char) : Prop :=
  c ≠ '\u03a3' ∧ lowerChar c = [c]

instance (c : Char) : Decidable (Lowered c) :=
  inferInstanceAs (Decidable (_ ∧ _))

variable {c d : Char}

theorem lowerChar_of_ascii (ascii : c.toNat < 128) : lowerChar c = [c.toLower] :=
  if_pos ascii

theorem forall_ascii {p : Char → Bool}
    (all : (List.range 128).all (fun n => p (Char.ofNat n)) = true) (ascii : c.toNat < 128) :
    p c = true := by
  have checked := List.all_eq_true.mp all c.toNat (List.mem_range.mpr ascii)
  rwa [Char.ofNat_toNat] at checked

theorem lowered_toLower (ascii : c.toNat < 128) : Lowered c.toLower := by
  have checked := forall_ascii (p := fun c => decide (c.toLower.toNat < 128) &&
    (c.toLower.toLower == c.toLower && c.toLower != '\u03a3')) (by decide +kernel) ascii
  simp only [Bool.and_eq_true, decide_eq_true_eq, beq_iff_eq, bne_iff_ne] at checked
  refine ⟨checked.2.2, ?_⟩
  rw [lowerChar_of_ascii checked.1, checked.2.1]

theorem lowered_of_lower? {run : CaseRun} (listed : run ∈ caseRuns)
    (lowered : run.lower? c = some d) : Lowered d := by
  have clear : caseRuns.findSome? (·.lower? d) = none := by
    rw [List.findSome?_eq_none_iff]
    exact fun other listed' => CaseRun.lower?_eq_none listed listed' lowered
  obtain ⟨-, place, dotless⟩ := CaseRun.toNat_of_lower? listed lowered
  -- The capital sigma is in a run itself, so no run leads to it.
  have sigma : d ≠ '\u03a3' := by
    rintro rfl
    exact absurd clear (by decide +kernel)
  refine ⟨sigma, ?_⟩
  rcases place with ascii | beyond
  · have checked := forall_ascii (c := d) (p := fun c =>
      !(decide (97 ≤ c.toNat) && decide (c.toNat ≤ 122)) || c.toLower == c) (by decide +kernel)
      (by omega)
    simp only [ascii, decide_true, Bool.and_true, Bool.not_true, Bool.false_or,
      beq_iff_eq] at checked
    rw [lowerChar_of_ascii (by omega), checked]
  · have dotted : (d == '\u0130') = false := by
      rw [beq_eq_false_iff_ne]
      rintro rfl
      exact dotless rfl
    unfold lowerChar
    rw [if_neg (by omega), dotted, clear]
    rfl

/-- Where a lowered character comes from: an ASCII character, the dotted capital, a character that
the table leaves alone, or one of its runs. -/
theorem lowerChar_cases (member : d ∈ lowerChar c) :
    c.toNat < 128 ∧ d = c.toLower ∨ (d = 'i' ∨ d = '\u0307') ∨ d = c ∧ lowerChar c = [c] ∨
      ∃ run ∈ caseRuns, run.lower? c = some d := by
  by_cases ascii : c.toNat < 128
  · rw [lowerChar_of_ascii ascii, List.mem_singleton] at member
    exact .inl ⟨ascii, member⟩
  by_cases dotted : (c == '\u0130') = true
  · rw [lowerChar, if_neg ascii, if_pos dotted] at member
    exact .inr (.inl (by simpa using member))
  have table : lowerChar c = [(caseRuns.findSome? (·.lower? c)).getD c] := by
    rw [lowerChar, if_neg ascii, if_neg dotted]
  rw [table, List.mem_singleton] at member
  cases found : caseRuns.findSome? (·.lower? c) with
  | none =>
    rw [found, Option.getD_none] at table member
    exact .inr (.inr (.inl ⟨member, table⟩))
  | some lower =>
    rw [found, Option.getD_some] at member
    obtain ⟨run, listed, lowered⟩ := List.exists_of_findSome?_eq_some found
    exact .inr (.inr (.inr ⟨run, listed, member ▸ lowered⟩))

theorem lowered_of_mem_lowerChar (member : d ∈ lowerChar c) : Lowered d := by
  rcases lowerChar_cases member with
    ⟨ascii, rfl⟩ | (rfl | rfl) | ⟨rfl, same⟩ | ⟨run, listed, lowered⟩
  · exact lowered_toLower ascii
  · exact ⟨by decide, by decide⟩
  · exact ⟨by decide, by decide +kernel⟩
  · refine ⟨?_, same⟩
    rintro rfl
    exact absurd same (by decide +kernel)
  · exact lowered_of_lower? listed lowered

/-- Lowering keeps a character or gives a letter or one beyond ASCII. -/
theorem eq_or_letter_of_mem_lowerChar (member : d ∈ lowerChar c) :
    d = c ∨ 97 ≤ d.toNat ∧ d.toNat ≤ 122 ∨ 128 ≤ d.toNat := by
  rcases lowerChar_cases member with
    ⟨ascii, rfl⟩ | (rfl | rfl) | ⟨rfl, -⟩ | ⟨run, listed, lowered⟩
  · have checked := forall_ascii (p := fun c => c.toLower == c ||
      (decide (97 ≤ c.toLower.toNat) && decide (c.toLower.toNat ≤ 122))) (by decide +kernel) ascii
    simp only [Bool.or_eq_true, beq_iff_eq, Bool.and_eq_true, decide_eq_true_eq] at checked
    exact checked.imp_right .inl
  · exact .inr (by decide)
  · exact .inr (by decide)
  · exact .inl rfl
  · exact .inr (CaseRun.toNat_of_lower? listed lowered).2.1

end Characters

section Texts

variable {text : List Char} {d : Char}

/-- Every lowered character comes from one of the text, a sigma by its own rule. -/
theorem mem_lowercaseAfter {before : List Char} (member : d ∈ lowercaseAfter before text) :
    ∃ c ∈ text, d ∈ lowerChar c ∨ d = '\u03c2' ∨ d = '\u03c3' := by
  induction text generalizing before with
  | nil => cases member
  | cons c rest ih =>
    rw [lowercaseAfter, List.mem_append] at member
    rcases member with here | later
    · refine ⟨c, List.mem_cons_self, ?_⟩
      split at here
      · rw [List.mem_singleton] at here
        split at here
        · exact .inr (.inl here)
        · exact .inr (.inr here)
      · exact .inl here
    · obtain ⟨e, listed, lowered⟩ := ih later
      exact ⟨e, List.mem_cons_of_mem c listed, lowered⟩

theorem lowered_of_mem_lowercase (member : d ∈ lowercase text) : Lowered d := by
  obtain ⟨c, -, lowered | rfl | rfl⟩ := mem_lowercaseAfter member
  · exact lowered_of_mem_lowerChar lowered
  · exact ⟨by decide, by decide +kernel⟩
  · exact ⟨by decide, by decide +kernel⟩

theorem mem_or_letter_of_mem_lowercase (member : d ∈ lowercase text) :
    d ∈ text ∨ 97 ≤ d.toNat ∧ d.toNat ≤ 122 ∨ 128 ≤ d.toNat := by
  obtain ⟨c, listed, lowered | rfl | rfl⟩ := mem_lowercaseAfter member
  · rcases eq_or_letter_of_mem_lowerChar lowered with rfl | letter
    · exact .inl listed
    · exact .inr letter
  · exact .inr (.inr (by decide))
  · exact .inr (.inr (by decide))

theorem lowercaseAfter_of_lowered (before : List Char) (lowered : ∀ c ∈ text, Lowered c) :
    lowercaseAfter before text = text := by
  induction text generalizing before with
  | nil => rfl
  | cons c rest ih =>
    obtain ⟨first, others⟩ := List.forall_mem_cons.mp lowered
    have sigma : (c == '\u03a3') = false := beq_eq_false_iff_ne.mpr first.1
    rw [lowercaseAfter, sigma, ih (c :: before) others]
    simp only [first.2, Bool.false_eq_true, if_false, List.singleton_append]

theorem lowercase_of_lowered (lowered : ∀ c ∈ text, Lowered c) : lowercase text = text :=
  lowercaseAfter_of_lowered [] lowered

end Texts

end ColorTokens.Text

import ColorTokens.Proofs.Text.Lowercase
import ColorTokens.Proofs.Text.Runs
import ColorTokens.Text.Word

/-! Words and what ends them. No blank is a word character, so a word in a text is known from what
it holds and from the blank or sign behind it. -/

set_option autoImplicit false

namespace ColorTokens.Text

def RangeTable.isApartFrom (table other : RangeTable) : Bool :=
  table.all fun range => other.all fun range' => range.2 < range'.1 || range'.2 < range.1

section Words

variable {c : Char}

theorem RangeTable.contains_eq_false {table other : RangeTable}
    (apart : table.isApartFrom other = true) (inside : table.contains c = true) :
    other.contains c = false := by
  obtain ⟨range, listed, within⟩ := List.any_eq_true.mp inside
  rw [RangeTable.contains, List.any_eq_false]
  intro range' listed'
  have clear := List.all_eq_true.mp (List.all_eq_true.mp apart range listed) range' listed'
  simp only [Bool.and_eq_true, Bool.or_eq_true, decide_eq_true_eq] at within clear ⊢
  omega

theorem isWord_of_isBlank (blank : isBlank c = true) : isWord c = false := by
  by_cases ascii : c.toNat < 128
  · have check : (!isBlank c || !isWord c) = true :=
      forall_ascii (p := fun c => !isBlank c || !isWord c) (by decide +kernel) ascii
    simpa [blank] using check
  · rw [isWord, if_neg ascii]
    exact RangeTable.contains_eq_false (by decide +kernel) blank

theorem ascii_of_isAlphanum (alphanum : c.isAlphanum = true) : c.toNat < 128 := by
  delta Char.isAlphanum Char.isAlpha Char.isUpper Char.isLower Char.isDigit at alphanum
  simp only [Bool.or_eq_true, Bool.and_eq_true, decide_eq_true_eq, ge_iff_le,
    UInt32.le_iff_toNat_le] at alphanum
  change ((65 ≤ c.toNat ∧ c.toNat ≤ 90) ∨ (97 ≤ c.toNat ∧ c.toNat ≤ 122)) ∨
    (48 ≤ c.toNat ∧ c.toNat ≤ 57) at alphanum
  omega

theorem isWord_of_isAlphanum (alphanum : c.isAlphanum = true) : isWord c = true := by
  simp [isWord, ascii_of_isAlphanum alphanum, alphanum]

theorem lowercase_of_ascii {text : List Char} (ascii : ∀ c ∈ text, c.toNat < 128) :
    lowercase text = text.map Char.toLower := by
  have after (before : List Char) : lowercaseAfter before text = text.map Char.toLower := by
    induction text generalizing before with
    | nil => rfl
    | cons c text ih =>
      have low := ascii c List.mem_cons_self
      have sigma : c ≠ '\u03a3' := by
        rintro rfl
        exact absurd low (by decide)
      have others := ih fun d member => ascii d (List.mem_cons_of_mem _ member)
      simp [lowercaseAfter, sigma, lowerChar_of_ascii low, others]
  exact after []

end Words

end ColorTokens.Text

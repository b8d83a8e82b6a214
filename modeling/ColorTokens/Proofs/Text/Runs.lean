import ColorTokens.Text.Blank
import Mathlib.Data.List.TakeWhile

/-! Runs of characters. The longest run of a kind at the start of a text is known once it is seen
what the run holds and what stands behind it. -/

set_option autoImplicit false

namespace ColorTokens.Text

section Runs

variable {p : Char → Bool} {run rest : List Char}

theorem takeWhile_run (all : ∀ c ∈ run, p c = true) (ends : ∀ c ∈ rest.head?, p c = false) :
    (run ++ rest).takeWhile p = run := by
  rw [List.takeWhile_append_of_pos all]
  cases rest with
  | nil => simp
  | cons c rest => simp [ends c (by simp)]

theorem dropWhile_run (all : ∀ c ∈ run, p c = true) (ends : ∀ c ∈ rest.head?, p c = false) :
    (run ++ rest).dropWhile p = rest := by
  rw [List.dropWhile_append_of_pos all]
  cases rest with
  | nil => simp
  | cons c rest => simp [ends c (by simp)]

theorem head?_dropWhile {text : List Char} {c : Char} (first : c ∈ (text.dropWhile p).head?) :
    p c = false := by
  have := List.head?_dropWhile_not p text
  grind

theorem run_unique {run' rest' : List Char} {stop stop' : Char} (all : ∀ c ∈ run, p c = true)
    (all' : ∀ c ∈ run', p c = true) (ends : p stop = false) (ends' : p stop' = false)
    (same : run ++ stop :: rest = run' ++ stop' :: rest') :
    run = run' ∧ stop = stop' ∧ rest = rest' := by
  have first : (run ++ stop :: rest).takeWhile p = run := takeWhile_run all (by simp [ends])
  rw [same, takeWhile_run all' (by simp [ends'])] at first
  subst first
  simpa using same

/-- A run that begins in a text ends there, if the text's last character cannot be in the run. -/
theorem exists_of_run_append {here back : List Char} {c : Char} (all : ∀ c ∈ run, p c = true)
    (last : here.getLast? = some c) (ends : p c = false) (parted : here ++ back = run ++ rest) :
    ∃ d left, here = run ++ d :: left ∧ rest = d :: (left ++ back) := by
  have outside : c ∉ run := by
    intro member
    rw [all c member] at ends
    cases ends
  rcases List.append_eq_append_iff.mp parted with ⟨left, rfl, -⟩ | ⟨left, rfl, behind⟩
  · exact absurd (List.mem_append_left left (List.mem_of_getLast? last)) outside
  · cases left with
    | nil =>
      rw [List.append_nil] at last
      exact absurd (List.mem_of_getLast? last) outside
    | cons d left => exact ⟨d, left, rfl, behind⟩

theorem dropWhileEnd_run {text : List Char} (all : ∀ c ∈ run, p c = true)
    (ends : ∀ c ∈ text.getLast?, p c = false) : dropWhileEnd p (text ++ run) = text := by
  have reversed : (run.reverse ++ text.reverse).dropWhile p = text.reverse :=
    dropWhile_run (fun c member => all c (List.mem_reverse.mp member))
      (by rwa [List.head?_reverse])
  rw [dropWhileEnd, List.reverse_append, reversed, List.reverse_reverse]

theorem exists_dropWhileEnd (p : Char → Bool) (text : List Char) :
    ∃ run, text = dropWhileEnd p text ++ run ∧ (∀ c ∈ run, p c = true) ∧
      ∀ c ∈ (dropWhileEnd p text).getLast?, p c = false := by
  refine ⟨(text.reverse.takeWhile p).reverse, ?_, fun c member => ?_, fun c last => ?_⟩
  · rw [dropWhileEnd, ← List.reverse_append, List.takeWhile_append_dropWhile, List.reverse_reverse]
  · exact List.mem_takeWhile_imp (List.mem_reverse.mp member)
  · rw [dropWhileEnd, List.getLast?_reverse] at last
    exact head?_dropWhile last

theorem dropWhileEnd_append {text : List Char} (ends : ∀ c ∈ text.getLast?, p c = false)
    (run : List Char) : dropWhileEnd p (text ++ run) = text ++ dropWhileEnd p run := by
  obtain ⟨tail, parted, all, last⟩ := exists_dropWhileEnd p run
  have last' : ∀ c ∈ (text ++ dropWhileEnd p run).getLast?, p c = false := by
    rw [List.getLast?_append]
    cases shape : (dropWhileEnd p run).getLast? with
    | none => simpa using ends
    | some d =>
      rw [shape] at last
      simpa using last
  calc dropWhileEnd p (text ++ run)
      = dropWhileEnd p ((text ++ dropWhileEnd p run) ++ tail) := by rw [List.append_assoc, ← parted]
    _ = text ++ dropWhileEnd p run := dropWhileEnd_run all last'

end Runs

section Parts

variable {α : Type} {c : α} {before after front piece rest : List α}

theorem piece_cases (whole : before ++ c :: after = front ++ (piece ++ rest))
    (outside : c ∉ piece) :
    (∃ left, before = front ++ (piece ++ left)) ∨
      ∃ left, front = before ++ c :: left ∧ after = left ++ (piece ++ rest) := by
  rw [← List.append_assoc] at whole
  rcases List.append_eq_append_iff.mp whole with ⟨left, pieces, right⟩ | ⟨left, rfl, -⟩
  · cases left with
    | nil => exact .inl ⟨[], by simpa using pieces.symm⟩
    | cons d left =>
      obtain ⟨rfl, rfl⟩ := List.cons_eq_cons.mp right
      rcases List.append_eq_append_iff.mp pieces with ⟨inner, -, tail⟩ | ⟨inner, rfl, tail⟩
      · exact absurd (tail ▸ List.mem_append_right inner List.mem_cons_self) outside
      · cases inner with
        | nil =>
          rw [List.nil_append] at tail
          exact absurd (tail ▸ List.mem_cons_self) outside
        | cons d inner =>
          obtain ⟨rfl, rfl⟩ := List.cons_eq_cons.mp tail
          exact .inr ⟨inner, rfl, List.append_assoc _ _ _⟩
  · exact .inl ⟨left, List.append_assoc _ _ _⟩

theorem exists_of_notMem_tail (whole : before ++ after = front ++ c :: rest) (outside : c ∉ after) :
    ∃ left, before = front ++ c :: left := by
  rcases List.append_eq_append_iff.mp whole with ⟨left, -, rfl⟩ | ⟨left, rfl, right⟩
  · exact absurd (List.mem_append_right left List.mem_cons_self) outside
  · cases left with
    | nil =>
      rw [List.nil_append] at right
      exact absurd (right ▸ List.mem_cons_self) outside
    | cons d left =>
      obtain ⟨rfl, rfl⟩ := List.cons_eq_cons.mp right
      exact ⟨left, rfl⟩

end Parts

section Blanks

theorem isBlank_eq_false {c : Char} (low : 33 ≤ c.toNat) (high : c.toNat ≤ 126) :
    isBlank c = false := by
  rw [Bool.eq_false_iff]
  simp only [isBlank, RangeTable.contains, blankRanges, ne_eq, List.any_eq_true, Bool.and_eq_true,
    decide_eq_true_eq, not_exists, not_and]
  simp
  omega

theorem trimStart_of_head {text : List Char} (dark : ∀ c ∈ text.head?, isBlank c = false) :
    trimStart text = text := by
  cases text with
  | nil => rfl
  | cons c rest => simp [trimStart, dark c (by simp)]

theorem trimEnd_of_getLast {text : List Char} (dark : ∀ c ∈ text.getLast?, isBlank c = false) :
    trimEnd text = text := by
  have parted := dropWhileEnd_run (List.forall_mem_nil (isBlank · = true)) dark
  rwa [List.append_nil] at parted

theorem trimEnd_append_blank {text : List Char} {c : Char} (blank : isBlank c = true) :
    trimEnd (text ++ [c]) = trimEnd text := by
  simp [trimEnd, dropWhileEnd, blank]

theorem trim_append_blank {text : List Char} {c : Char} (blank : isBlank c = true) :
    trim (text ++ [c]) = trim text := by
  unfold trim trimStart
  rw [List.dropWhile_append]
  by_cases dark : (text.dropWhile isBlank).isEmpty = true
  · rw [if_pos dark, List.isEmpty_iff.mp dark]
    simp [blank]
  · rw [if_neg dark, trimEnd_append_blank blank]

theorem trim_cons_blank {text : List Char} {c : Char} (blank : isBlank c = true) :
    trim (c :: text) = trim text := by
  simp [trim, trimStart, blank]

theorem trim_of_dark {text : List Char} (first : ∀ c ∈ text.head?, isBlank c = false)
    (last : ∀ c ∈ text.getLast?, isBlank c = false) : trim text = text := by
  rw [trim, trimStart_of_head first, trimEnd_of_getLast last]

theorem dark_trim (text : List Char) :
    (∀ c ∈ (trim text).head?, isBlank c = false) ∧
      ∀ c ∈ (trim text).getLast?, isBlank c = false := by
  obtain ⟨run, parted, -, last⟩ := exists_dropWhileEnd isBlank (trimStart text)
  refine ⟨fun c first => ?_, last⟩
  have started : c ∈ (trimStart text).head? := by
    obtain ⟨rest, whole⟩ := List.head?_eq_some_iff.mp first
    rw [parted]
    change c ∈ (trim text ++ run).head?
    rw [whole]
    rfl
  exact head?_dropWhile started

theorem mem_of_mem_trim {text : List Char} {c : Char} (member : c ∈ trim text) : c ∈ text := by
  obtain ⟨run, parted, -⟩ := exists_dropWhileEnd isBlank (trimStart text)
  have started : c ∈ trimStart text := by
    rw [parted]
    exact List.mem_append_left run member
  exact (List.dropWhile_sublist isBlank).mem started

end Blanks

end ColorTokens.Text

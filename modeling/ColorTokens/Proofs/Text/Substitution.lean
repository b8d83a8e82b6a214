import ColorTokens.Proofs.Text.Runs

/-! Substitution by a pattern. Each part of a text that the pattern takes gives way to the same new
text, leftmost first and none within another. Two patterns are those of blanks: a run of them, and
a sign with the runs around it. -/

set_option autoImplicit false

namespace ColorTokens.Text

/-- Puts a text in place of each part that a pattern takes, from left to right. The pattern says how
many characters it takes from the start of a text; the next `skip` are taken already. -/
def replaceFrom (pattern : List Char → Option Nat) (new : List Char) :
    (skip : Nat) → List Char → List Char
  | _, [] => []
  | skip + 1, _ :: rest => replaceFrom pattern new skip rest
  | 0, c :: rest =>
    match pattern (c :: rest) with
    | some taken => new ++ replaceFrom pattern new (taken - 1) rest
    | none => c :: replaceFrom pattern new 0 rest

def replaceAll (pattern : List Char → Option Nat) (new text : List Char) : List Char :=
  replaceFrom pattern new 0 text

def blankRun (text : List Char) : Option Nat :=
  if (text.takeWhile isBlank).isEmpty then none else some (text.takeWhile isBlank).length

def signRun (sign : Char) (text : List Char) : Option Nat :=
  match text.dropWhile isBlank with
  | c :: rest =>
    if c = sign then some ((text.takeWhile isBlank).length + 1 + (rest.takeWhile isBlank).length)
    else none
  | [] => none

variable {pattern : List Char → Option Nat} {new front piece rest gap gap' : List Char} {sign : Char}

theorem replaceFrom_skip (pattern : List Char → Option Nat) (new piece rest : List Char) :
    replaceFrom pattern new piece.length (piece ++ rest) = replaceAll pattern new rest := by
  induction piece with
  | nil => rfl
  | cons c piece ih => exact ih

theorem replaceAll_take (nonempty : piece ≠ [])
    (taken : pattern (piece ++ rest) = some piece.length) :
    replaceAll pattern new (piece ++ rest) = new ++ replaceAll pattern new rest := by
  cases piece with
  | nil => exact absurd rfl nonempty
  | cons c piece =>
    rw [List.cons_append] at taken
    rw [replaceAll, List.cons_append, replaceFrom, taken]
    simp only [List.length_cons, Nat.add_sub_cancel, replaceFrom_skip]

theorem replaceAll_front
    (missed : ∀ here, here ≠ [] → here <:+ front → pattern (here ++ rest) = none) :
    replaceAll pattern new (front ++ rest) = front ++ replaceAll pattern new rest := by
  induction front with
  | nil => rfl
  | cons c front ih =>
    have none := missed (c :: front) (by simp) List.suffix_rfl
    have others := ih fun here nonempty suffix =>
      missed here nonempty (suffix.trans (List.suffix_cons c front))
    rw [List.cons_append] at none ⊢
    rw [replaceAll, replaceFrom, none]
    exact congrArg (c :: ·) others

theorem blankRun_of_blanks (nonempty : gap ≠ []) (blanks : ∀ c ∈ gap, isBlank c = true)
    (dark : ∀ c ∈ rest.head?, isBlank c = false) : blankRun (gap ++ rest) = some gap.length := by
  rw [blankRun, takeWhile_run blanks dark, if_neg (by simpa using nonempty)]

theorem blankRun_of_dark {c : Char} (dark : isBlank c = false) : blankRun (c :: rest) = none := by
  simp [blankRun, dark]

def single (gap : List Char) : List Char :=
  if gap.isEmpty then [] else [' ']

theorem replaceAll_blankRun_gap (blanks : ∀ c ∈ gap, isBlank c = true)
    (dark : ∀ c ∈ rest.head?, isBlank c = false) :
    replaceAll blankRun [' '] (gap ++ rest) = single gap ++ replaceAll blankRun [' '] rest := by
  by_cases empty : gap = []
  · subst empty
    rfl
  · rw [replaceAll_take empty (blankRun_of_blanks empty blanks dark)]
    simp [single, empty]

theorem replaceAll_blankRun_dark (dark : ∀ c ∈ front, isBlank c = false) :
    replaceAll blankRun [' '] (front ++ rest) = front ++ replaceAll blankRun [' '] rest := by
  apply replaceAll_front
  intro here nonempty suffix
  obtain ⟨c, here, rfl⟩ := List.exists_cons_of_ne_nil nonempty
  exact blankRun_of_dark (dark c (suffix.mem List.mem_cons_self))

theorem signRun_of_sign (dark : isBlank sign = false) (blanks : ∀ c ∈ gap, isBlank c = true)
    (blanks' : ∀ c ∈ gap', isBlank c = true) (dark' : ∀ c ∈ rest.head?, isBlank c = false) :
    signRun sign ((gap ++ sign :: gap') ++ rest) = some (gap ++ sign :: gap').length := by
  have ends : ∀ c ∈ (sign :: (gap' ++ rest)).head?, isBlank c = false := by simpa using dark
  have whole : (gap ++ sign :: gap') ++ rest = gap ++ sign :: (gap' ++ rest) := by simp
  rw [signRun, whole, dropWhile_run blanks ends, takeWhile_run blanks ends]
  simp only [if_true, takeWhile_run blanks' dark', List.length_append, List.length_cons]
  congr 1
  omega

theorem signRun_of_dark {c : Char} (blanks : ∀ c ∈ gap, isBlank c = true)
    (dark : isBlank c = false) (other : c ≠ sign) : signRun sign (gap ++ c :: rest) = none := by
  rw [signRun, dropWhile_run blanks (by simpa using dark)]
  exact if_neg other

theorem signRun_of_blanks (blanks : ∀ c ∈ gap, isBlank c = true) : signRun sign gap = none := by
  have none : gap.dropWhile isBlank = [] := by simpa using blanks
  rw [signRun, none]

end ColorTokens.Text

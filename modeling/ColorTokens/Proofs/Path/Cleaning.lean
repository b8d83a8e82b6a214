import ColorTokens.Path.Filter
import ColorTokens.Proofs.Text.Runs

/-! How an exclusion is cleaned. Blanks are trimmed, backslashes turned, dots with slashes stripped
off the front and slashes off both ends, each once and in this order. A step can uncover something
for an earlier one, which then stays; a cleaned entry is canonical exactly when none does. -/

set_option autoImplicit false

namespace ColorTokens.Path

open ColorTokens.Text

def slashed (text : List Char) : List Char :=
  (trim text).map fun c => if c == '\\' then '/' else c

def heres (k : Nat) : List Char :=
  (List.replicate k ['.', '/']).flatten

def slashes (m : Nat) : List Char :=
  List.replicate m '/'

def bareChars (text : List Char) : List Char :=
  dropWhileEnd isSlash ((dropHere (slashed text)).dropWhile isSlash)

structure Cleaned (text : List Char) : Prop where
  first : text.head? ≠ some '/'
  last : text.getLast? ≠ some '/'
  forward : '\\' ∉ text
  named : text ≠ ['.']

structure Settled (text : List Char) : Prop where
  here : ¬ ['.', '/'] <+: text
  darkFirst : ∀ c ∈ text.head?, isBlank c = false
  darkLast : ∀ c ∈ text.getLast?, isBlank c = false

structure Canonical (text : List Char) : Prop extends Cleaned text, Settled text

/-- What a step uncovers for an earlier one: a blank behind the dots and slashes that are stripped,
a dot with a slash behind other slashes, or a blank before the slashes at the end. -/
inductive Uncovers (text : List Char) : Prop where
  | blankAhead (k m : Nat) (c : Char) (rest : List Char) : 0 < k + m → isBlank c = true →
    text = heres k ++ (slashes m ++ c :: rest) → Uncovers text
  | hereAhead (k m : Nat) (rest : List Char) : (∃ c ∈ rest, c ≠ '/') →
    text = heres k ++ (slashes (m + 1) ++ '.' :: '/' :: rest) → Uncovers text
  | blankBehind (front : List Char) (c : Char) (j : Nat) : isBlank c = true →
    text = front ++ c :: slashes (j + 1) → Uncovers text

section Characters

variable {text : List Char} {c : Char}

theorem isSlash_iff : isSlash c = true ↔ c = '/' := by
  rw [isSlash, beq_iff_eq]

theorem isSlash_of_mem_slashes {m : Nat} (member : c ∈ slashes m) : isSlash c = true :=
  isSlash_iff.mpr (List.eq_of_mem_replicate member)

theorem eq_slashes {run : List Char} (all : ∀ c ∈ run, isSlash c = true) :
    run = slashes run.length :=
  List.eq_replicate_of_mem fun c member => isSlash_iff.mp (all c member)

theorem mem_heres {k : Nat} (member : c ∈ heres k) : c = '.' ∨ c = '/' := by
  obtain ⟨pair, repeated, inside⟩ := List.mem_flatten.mp member
  rw [List.eq_of_mem_replicate repeated] at inside
  simpa using inside

theorem isBlank_dot : isBlank '.' = false := isBlank_eq_false (by decide) (by decide)

theorem isBlank_slash : isBlank '/' = false := isBlank_eq_false (by decide) (by decide)

theorem ne_of_isBlank (blank : isBlank c = true) : c ≠ '.' ∧ c ≠ '/' := by
  refine ⟨?_, ?_⟩
  · rintro rfl
    cases blank.symm.trans isBlank_dot
  · rintro rfl
    cases blank.symm.trans isBlank_slash

theorem isSlash_of_isBlank (blank : isBlank c = true) : isSlash c = false :=
  Bool.eq_false_iff.mpr (mt isSlash_iff.mp (ne_of_isBlank blank).2)

theorem mem_slashed (member : c ∈ slashed text) : c = '/' ∨ c ∈ text ∧ c ≠ '\\' := by
  obtain ⟨d, known, rfl⟩ := List.mem_map.mp member
  split
  · exact .inl rfl
  · next plain => exact .inr ⟨mem_of_mem_trim known, by simpa using plain⟩

theorem length_slashed_le (text : List Char) : (slashed text).length ≤ text.length := by
  have starts := (List.dropWhile_sublist (l := text) isBlank).length_le
  obtain ⟨run, parted, -⟩ := exists_dropWhileEnd isBlank (trimStart text)
  have ends := congrArg List.length parted
  rw [List.length_append] at ends
  rw [slashed, List.length_map]
  exact (Nat.le.intro ends.symm).trans starts

theorem dark_slashed (text : List Char) :
    (∀ c ∈ (slashed text).head?, isBlank c = false) ∧
      ∀ c ∈ (slashed text).getLast?, isBlank c = false := by
  have kept : ∀ c, isBlank c = false → isBlank (if c == '\\' then '/' else c) = false := by
    intro c dark
    split
    · exact isBlank_slash
    · exact dark
  obtain ⟨first, last⟩ := dark_trim text
  rw [slashed, List.head?_map, List.getLast?_map]
  constructor
  · intro c found
    obtain ⟨d, begins, rfl⟩ := Option.map_eq_some_iff.mp found
    exact kept d (first d begins)
  · intro c found
    obtain ⟨d, ends, rfl⟩ := Option.map_eq_some_iff.mp found
    exact kept d (last d ends)

end Characters

section Stripping

variable {text rest : List Char}

theorem heres_succ (k : Nat) : heres (k + 1) = '.' :: '/' :: heres k := rfl

theorem slashes_succ (m : Nat) : slashes (m + 1) = '/' :: slashes m := rfl

theorem exists_dropHere (text : List Char) :
    ∃ k, text = heres k ++ dropHere text ∧ ¬ ['.', '/'] <+: dropHere text := by
  fun_induction dropHere text with
  | case1 rest ih =>
    obtain ⟨k, whole, bare⟩ := ih
    exact ⟨k + 1, by rw [heres_succ, List.cons_append, List.cons_append, ← whole], bare⟩
  | case2 text other =>
    refine ⟨0, rfl, ?_⟩
    rintro ⟨rest, rfl⟩
    exact other rest rfl

theorem dropHere_heres (k : Nat) (rest : List Char) :
    dropHere (heres k ++ rest) = dropHere rest := by
  induction k with
  | zero => rfl
  | succ k ih => rw [heres_succ, List.cons_append, List.cons_append, dropHere, ih]

theorem dropHere_of_not (other : ¬ ['.', '/'] <+: text) : dropHere text = text := by
  rw [dropHere.eq_2]
  rintro rest rfl
  exact other ⟨rest, rfl⟩

/-- How a text is taken apart: what is stripped off either end, and what is left. -/
structure Parts (text : List Char) (k m : Nat) (bare : List Char) (j : Nat) : Prop where
  whole : text = heres k ++ (slashes m ++ (bare ++ slashes j))
  first : ∀ c ∈ bare.head?, isSlash c = false
  last : ∀ c ∈ bare.getLast?, isSlash c = false
  here : ['.', '/'] <+: bare → m ≠ 0

theorem exists_parts (text : List Char) : ∃ k m j, Parts (slashed text) k m (bareChars text) j := by
  obtain ⟨k, stripped, other⟩ := exists_dropHere (slashed text)
  have lead := List.takeWhile_append_dropWhile (p := isSlash) (l := dropHere (slashed text))
  have led := eq_slashes fun c (member : c ∈ (dropHere (slashed text)).takeWhile isSlash) =>
    List.mem_takeWhile_imp member
  obtain ⟨run, tail, all, last⟩ :=
    exists_dropWhileEnd isSlash ((dropHere (slashed text)).dropWhile isSlash)
  change _ = bareChars text ++ run at tail
  change ∀ c ∈ (bareChars text).getLast?, isSlash c = false at last
  rw [led, tail, eq_slashes all] at lead
  refine ⟨k, _, run.length, by rw [lead]; exact stripped, fun c first => ?_, last, ?_⟩
  -- What is left begins as the text does once its slashes are dropped; a dot and a slash can stand
  -- there only if there were slashes to drop.
  · obtain ⟨rest, whole⟩ := List.head?_eq_some_iff.mp first
    have started : c ∈ ((dropHere (slashed text)).dropWhile isSlash).head? := by
      rw [tail, whole]
      rfl
    exact head?_dropWhile started
  · intro here none
    rw [none] at lead
    refine other (lead ▸ ?_)
    exact here.trans (List.prefix_append _ _)

theorem bareChars_of_lead {k m : Nat} (whole : slashed text = heres k ++ (slashes m ++ rest))
    (first : ∀ c ∈ rest.head?, isSlash c = false) (here : ['.', '/'] <+: rest → m ≠ 0) :
    bareChars text = dropWhileEnd isSlash rest := by
  have kept : ¬ ['.', '/'] <+: slashes m ++ rest := by
    cases m with
    | zero => exact fun begins => here begins rfl
    | succ m =>
      rw [slashes_succ, List.cons_append, List.cons_prefix_cons]
      exact fun begins => absurd begins.1 (by decide)
  rw [bareChars, whole, dropHere_heres, dropHere_of_not kept,
    dropWhile_run (fun c => isSlash_of_mem_slashes) first]

theorem normalizeChars_eq (text : List Char) :
    normalizeChars text = if bareChars text = ['.'] then [] else bareChars text := by
  simp only [normalizeChars, bareChars, slashed, beq_iff_eq]

theorem normalizeChars_of_ne (named : bareChars text ≠ ['.']) :
    normalizeChars text = bareChars text := by
  rw [normalizeChars_eq, if_neg named]

theorem mem_normalizeChars {c : Char} (member : c ∈ normalizeChars text) :
    c = '/' ∨ c ∈ text ∧ c ≠ '\\' := by
  obtain ⟨k, m, j, parts⟩ := exists_parts text
  rw [normalizeChars_eq] at member
  split at member
  · cases member
  · refine mem_slashed ?_
    rw [parts.whole]
    simp [member]

theorem cleaned_normalizeChars (text : List Char) : Cleaned (normalizeChars text) := by
  obtain ⟨k, m, j, parts⟩ := exists_parts text
  by_cases dot : bareChars text = ['.']
  · rw [normalizeChars_eq, if_pos dot]
    exact ⟨by simp, by simp, by simp, by simp⟩
  · have forward : '\\' ∉ normalizeChars text := by
      intro backslash
      rcases mem_normalizeChars backslash with slash | ⟨-, plain⟩
      · exact absurd slash (by decide)
      · exact plain rfl
    rw [normalizeChars_of_ne dot] at forward ⊢
    refine ⟨fun slash => ?_, fun slash => ?_, forward, dot⟩
    · cases parts.first '/' slash
    · cases parts.last '/' slash

end Stripping

section Uncovering

variable {text bare front rest : List Char} {c : Char} {k m j : Nat}

theorem mem_head?_of_blankAhead (blank : isBlank c = true)
    (whole : slashed text = heres k ++ (slashes m ++ c :: rest)) : c ∈ (bareChars text).head? := by
  have dark := isSlash_of_isBlank blank
  have here : ['.', '/'] <+: c :: rest → m ≠ 0 := by
    rw [List.cons_prefix_cons]
    exact fun begins => absurd begins.1.symm (ne_of_isBlank blank).1
  rw [bareChars_of_lead whole (by simpa using dark) here, ← List.singleton_append,
    dropWhileEnd_append (by simpa using dark)]
  rfl

theorem prefix_of_hereAhead (inner : ∃ c ∈ rest, c ≠ '/')
    (whole : slashed text = heres k ++ (slashes (m + 1) ++ '.' :: '/' :: rest)) :
    ['.', '/'] <+: bareChars text := by
  rw [bareChars_of_lead whole (by simp [isSlash]) fun _ => Nat.succ_ne_zero m]
  obtain ⟨run, tail, all, -⟩ := exists_dropWhileEnd isSlash ('.' :: '/' :: rest)
  rcases List.append_eq_append_iff.mp (show ['.', '/'] ++ rest = _ from tail) with
    ⟨more, longer, -⟩ | ⟨more, -, behind⟩
  · exact ⟨more, longer.symm⟩
  · obtain ⟨c, member, other⟩ := inner
    have slash := all c (behind ▸ List.mem_append_right more member)
    exact absurd (isSlash_iff.mp slash) other

theorem Parts.mem_getLast?_of_blankBehind {j' : Nat} (parts : Parts text k m bare j)
    (blank : isBlank c = true) (whole : text = front ++ c :: slashes (j' + 1)) :
    c ∈ bare.getLast? := by
  have nonempty : bare ≠ [] := by
    rintro rfl
    have member : c ∈ text := by simp [whole]
    simp only [parts.whole, List.nil_append, List.mem_append] at member
    obtain ⟨dot, slash⟩ := ne_of_isBlank blank
    rcases member with stripped | stripped | stripped
    · exact (mem_heres stripped).elim dot slash
    · exact slash (List.eq_of_mem_replicate stripped)
    · exact slash (List.eq_of_mem_replicate stripped)
  obtain ⟨init, d, rfl⟩ := (List.eq_nil_or_concat bare).resolve_left nonempty
  have ends : dropWhileEnd isSlash text = front ++ [c] := by
    rw [whole, List.append_cons]
    refine dropWhileEnd_run (fun d => isSlash_of_mem_slashes) ?_
    simpa using isSlash_of_isBlank blank
  have ends' : dropWhileEnd isSlash text = heres k ++ (slashes m ++ init) ++ [d] := by
    have regrouped : text = (heres k ++ (slashes m ++ init) ++ [d]) ++ slashes j := by
      rw [parts.whole]
      simp
    rw [regrouped]
    exact dropWhileEnd_run (fun d => isSlash_of_mem_slashes) (by simpa using parts.last)
  have same := List.append_inj_right' (ends.symm.trans ends') rfl
  simpa using same.symm

theorem Parts.uncovers_of_here (parts : Parts text k m bare j) (here : ['.', '/'] <+: bare) :
    Uncovers text := by
  obtain ⟨m, rfl⟩ := Nat.exists_eq_succ_of_ne_zero (parts.here here)
  obtain ⟨rest, rfl⟩ := here
  refine .hereAhead k m (rest ++ slashes j) ?_ (by simpa using parts.whole)
  -- What is left does not end with a slash, so there is more behind the dot and the slash.
  obtain rfl | ⟨init, c, rfl⟩ := List.eq_nil_or_concat rest
  · cases parts.last '/' rfl
  · refine ⟨c, by simp, ?_⟩
    rintro rfl
    have last : (['.', '/'] ++ init.concat '/').getLast? = some '/' := by
      rw [List.concat_eq_append, ← List.append_assoc, List.getLast?_concat]
    cases parts.last '/' last

theorem Parts.uncovers_of_blank_first (parts : Parts text k m bare j)
    (dark : ∀ c ∈ text.head?, isBlank c = false) (first : c ∈ bare.head?)
    (blank : isBlank c = true) : Uncovers text := by
  obtain ⟨rest, rfl⟩ := List.head?_eq_some_iff.mp first
  refine .blankAhead k m c (rest ++ slashes j) ?_ blank (by simpa using parts.whole)
  by_contra none
  obtain ⟨rfl, rfl⟩ : k = 0 ∧ m = 0 := by omega
  have started : c ∈ text.head? := by
    rw [parts.whole]
    rfl
  cases blank.symm.trans (dark c started)

theorem Parts.uncovers_of_blank_last (parts : Parts text k m bare j)
    (dark : ∀ c ∈ text.getLast?, isBlank c = false) (last : c ∈ bare.getLast?)
    (blank : isBlank c = true) : Uncovers text := by
  obtain ⟨init, rfl⟩ := List.getLast?_eq_some_iff.mp last
  cases j with
  | succ j =>
    exact .blankBehind (heres k ++ (slashes m ++ init)) c j blank (by simpa using parts.whole)
  | zero =>
    have ended : c ∈ text.getLast? := by
      rw [parts.whole]
      simp [slashes]
    cases blank.symm.trans (dark c ended)

theorem settled_bareChars_iff : Settled (bareChars text) ↔ ¬ Uncovers (slashed text) := by
  obtain ⟨k, m, j, parts⟩ := exists_parts text
  obtain ⟨darkFirst, darkLast⟩ := dark_slashed text
  constructor
  · intro settled uncovers
    cases uncovers with
    | blankAhead k m c rest _ blank whole =>
      have dark := settled.darkFirst c (mem_head?_of_blankAhead blank whole)
      cases blank.symm.trans dark
    | hereAhead k m rest inner whole => exact settled.here (prefix_of_hereAhead inner whole)
    | blankBehind front c j blank whole =>
      have dark := settled.darkLast c (parts.mem_getLast?_of_blankBehind blank whole)
      cases blank.symm.trans dark
  · intro covered
    refine ⟨fun here => covered (parts.uncovers_of_here here), fun c first => ?_, fun c last => ?_⟩
    · rw [Bool.eq_false_iff]
      exact fun blank => covered (parts.uncovers_of_blank_first darkFirst first blank)
    · rw [Bool.eq_false_iff]
      exact fun blank => covered (parts.uncovers_of_blank_last darkLast last blank)

/-- A single dot, which is cleaned away, is as settled as nothing. -/
theorem settled_normalizeChars_iff : Settled (normalizeChars text) ↔ Settled (bareChars text) := by
  by_cases dot : bareChars text = ['.']
  · have nothing : Settled [] := ⟨by simp, by simp, by simp⟩
    have single : Settled ['.'] := ⟨by decide, by simp [isBlank_dot], by simp [isBlank_dot]⟩
    rw [normalizeChars_eq, if_pos dot, dot]
    exact iff_of_true nothing single
  · rw [normalizeChars_of_ne dot]

theorem canonical_normalizeChars_iff :
    Canonical (normalizeChars text) ↔ ¬ Uncovers (slashed text) := by
  rw [← settled_bareChars_iff, ← settled_normalizeChars_iff]
  exact ⟨Canonical.toSettled, fun settled => ⟨cleaned_normalizeChars text, settled⟩⟩

end Uncovering

section Fixed

variable {text bare : List Char} {k m j : Nat}

theorem normalizeChars_of_canonical (canonical : Canonical text) : normalizeChars text = text := by
  have forward : slashed text = heres 0 ++ (slashes 0 ++ text) := by
    rw [slashed, trim_of_dark canonical.darkFirst canonical.darkLast]
    refine (List.map_congr_left fun c member => if_neg ?_).trans (List.map_id' text)
    rw [beq_iff_eq]
    rintro rfl
    exact canonical.forward member
  have dark : ∀ c, c ≠ '/' → isSlash c = false := fun c other =>
    Bool.eq_false_iff.mpr (mt isSlash_iff.mp other)
  have first : ∀ c ∈ text.head?, isSlash c = false := fun c first =>
    dark c fun slash => canonical.first (slash ▸ first)
  have last : ∀ c ∈ text.getLast?, isSlash c = false := fun c last =>
    dark c fun slash => canonical.last (slash ▸ last)
  have ends := dropWhileEnd_run (List.forall_mem_nil (isSlash · = true)) last
  rw [List.append_nil] at ends
  have bare : bareChars text = text := by
    rw [bareChars_of_lead forward first fun here => absurd here canonical.here, ends]
  rw [normalizeChars_of_ne (bare.symm ▸ canonical.named), bare]

theorem Parts.length_eq (parts : Parts text k m bare j) :
    text.length = 2 * k + (m + (bare.length + j)) := by
  have pairs : (heres k).length = 2 * k := by simp [heres, Nat.mul_comm]
  rw [parts.whole]
  simp only [List.length_append, pairs, slashes, List.length_replicate]

/-- A text that cleaning leaves as it is has nothing stripped off. -/
theorem canonical_of_normalizeChars_eq (fixed : normalizeChars text = text) : Canonical text := by
  obtain ⟨k, m, j, parts⟩ := exists_parts text
  have named : bareChars text ≠ ['.'] := by
    intro dot
    rw [normalizeChars_eq, if_pos dot] at fixed
    subst fixed
    exact absurd dot (by decide)
  have bare : bareChars text = text := by rw [← normalizeChars_of_ne named, fixed]
  rw [bare] at parts
  -- What is left is as long as the text, so no part was stripped off, and none of it is blank.
  have stripped : k = 0 ∧ m = 0 ∧ j = 0 := by
    have lengths := parts.length_eq
    have shorter := length_slashed_le text
    omega
  obtain ⟨rfl, rfl, rfl⟩ := stripped
  have same : slashed text = text := by
    rw [parts.whole]
    exact List.append_nil text
  have dark := dark_slashed text
  rw [same] at dark
  exact ⟨fixed ▸ cleaned_normalizeChars text, fun here => parts.here here rfl, dark.1, dark.2⟩

theorem normalizeChars_eq_self_iff : normalizeChars text = text ↔ Canonical text :=
  ⟨canonical_of_normalizeChars_eq, normalizeChars_of_canonical⟩

end Fixed

end ColorTokens.Path

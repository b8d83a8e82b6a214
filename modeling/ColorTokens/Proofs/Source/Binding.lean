import ColorTokens.Proofs.Text.Recognizer
import ColorTokens.Proofs.Text.Word
import ColorTokens.Source.Binding
import Mathlib.Data.Option.Basic

/-! Object bindings by their form. A binding is read exactly where a keyword, blanks and a name
stand before the first equals sign and nothing but blanks stands between that sign and a brace. Of
two bindings that overlap, both end at the same brace. -/

set_option autoImplicit false

namespace ColorTokens.Source

open ColorTokens.Text

section Characters

variable {c : Char}

theorem isWord_of_isNameChar (named : isNameChar c = true) : isWord c = true := by
  simp only [isNameChar, Bool.or_eq_true, beq_iff_eq] at named
  rcases named with alphanum | rfl
  · exact isWord_of_isAlphanum alphanum
  · decide

theorem isNameChar_of_isNameStart (start : isNameStart c = true) : isNameChar c = true := by
  simp only [isNameStart, isNameChar, Char.isAlphanum, Bool.or_eq_true] at start ⊢
  rcases start with alpha | line
  · exact .inl (.inl alpha)
  · exact .inr line

theorem isBlank_of_isWord (word : isWord c = true) : isBlank c = false := by
  rw [Bool.eq_false_iff]
  intro blank
  rw [isWord_of_isBlank blank] at word
  cases word

end Characters

/-- A name that a word boundary ends, at the start of what stands before the equals sign. -/
structure Names (body name : List Char) : Prop where
  start : name.head?.any isNameStart = true
  all : ∀ c ∈ name, isNameChar c = true
  ends : ∃ middle, body = name ++ middle ∧ isWordAt middle.head? = false

theorem Names.eq_run {name run rest : List Char} (named : Names (run ++ rest) name)
    (all : ∀ c ∈ run, isNameChar c = true) (ends : ∀ c ∈ rest.head?, isNameChar c = false) :
    name = run ∧ isWordAt rest.head? = false := by
  obtain ⟨-, all', middle, same, boundary⟩ := named
  have unnamed : ∀ c ∈ middle.head?, isNameChar c = false := by
    intro c first
    rw [Bool.eq_false_iff]
    intro inside
    rw [Option.mem_def.mp first, isWordAt, Option.any_some, isWord_of_isNameChar inside] at boundary
    cases boundary
  have first := takeWhile_run all ends
  rw [same, takeWhile_run all' unnamed] at first
  subst first
  rw [List.append_cancel_left same]
  exact ⟨rfl, boundary⟩

structure Binds (keyword gap body space name : List Char) : Prop where
  listed : keyword ∈ bindingKeywords
  parted : gap ≠ []
  blanks : ∀ c ∈ gap, isBlank c = true
  equals : ∀ c ∈ body, isBeforeEquals c = true
  names : Names body name
  blanks' : ∀ c ∈ space, isBlank c = true

def bindingLead (keyword gap body space : List Char) : List Char :=
  keyword ++ (gap ++ (body ++ '=' :: space))

section Form

variable {keyword gap body space name : List Char}

theorem keyword_isWord (listed : keyword ∈ bindingKeywords) :
    keyword ≠ [] ∧ ∀ c ∈ keyword, isWord c = true := by
  have all : bindingKeywords.all (fun keyword => !keyword.isEmpty && keyword.all isWord) = true :=
    by decide
  have checked := List.all_eq_true.mp all keyword listed
  simp only [Bool.and_eq_true, Bool.not_eq_true', List.isEmpty_eq_false_iff,
    List.all_eq_true] at checked
  exact checked

theorem keywordBinding?_of_binds (binds : Binds keyword gap body space name) (rest : List Char) :
    keywordBinding? (bindingLead keyword gap body space ++ '{' :: rest) keyword =
      some ((bindingLead keyword gap body space).length + 1,
        ⟨name, byteLength (bindingLead keyword gap body space)⟩) := by
  obtain ⟨-, parted, blanks, before, ⟨start, named, middle, rfl, ends⟩, blanks'⟩ := binds
  have filled : gap.isEmpty = false := List.isEmpty_eq_false_iff.mpr parted
  obtain ⟨c, first⟩ : ∃ c, name.head? = some c := by
    cases shape : name.head? with
    | none => rw [shape] at start; cases start
    | some c => exact ⟨c, rfl⟩
  obtain ⟨more, rfl⟩ := List.head?_eq_some_iff.mp first
  have dark : isBlank c = false := isBlank_of_isWord (isWord_of_isNameChar (named c (by simp)))
  -- A name that the equals sign follows at once ends at a boundary as well.
  have word_end : isWordAt (middle ++ '=' :: (space ++ '{' :: rest)).head? = false := by
    cases middle with
    | nil => rfl
    | cons d middle => exact ends
  have name_end : ∀ d ∈ (middle ++ '=' :: (space ++ '{' :: rest)).head?, isNameChar d = false := by
    intro d next
    rw [Bool.eq_false_iff]
    intro inside
    rw [Option.mem_def.mp next, isWordAt, Option.any_some, isWord_of_isNameChar inside] at word_end
    cases word_end
  have middle_run : ∀ d ∈ middle, isBeforeEquals d = true := fun d member =>
    before d (List.mem_append_right _ member)
  have gap_end : ∀ d ∈ (c :: more ++ (middle ++ '=' :: (space ++ '{' :: rest))).head?,
      isBlank d = false := by simp [dark]
  have middle_end : ∀ d ∈ ('=' :: (space ++ '{' :: rest)).head?, isBeforeEquals d = false := by
    simp [isBeforeEquals]
  have space_end : ∀ d ∈ ('{' :: rest).head?, isBlank d = false := by
    simp only [List.head?_cons, Option.mem_some_iff, forall_eq']
    decide
  have whole : bindingLead keyword gap (c :: more ++ middle) space ++ '{' :: rest =
      keyword ++ (gap ++ (c :: more ++ (middle ++ '=' :: (space ++ '{' :: rest)))) := by
    simp [bindingLead]
  have lead : (keyword ++ (gap ++ (c :: more ++ (middle ++ '=' :: (space ++ '{' :: rest))))).take
      (keyword.length + gap.length + (c :: more).length + middle.length + 1 + space.length) =
        bindingLead keyword gap (c :: more ++ middle) space := by
    rw [← whole, List.take_left']
    simp only [bindingLead, List.length_append, List.length_cons]
    omega
  simp only [keywordBinding?, whole, List.isPrefixOf_iff_prefix.mpr (List.prefix_append ..),
    List.drop_left, takeWhile_run blanks gap_end, dropWhile_run blanks gap_end,
    takeWhile_run named name_end, dropWhile_run named name_end, word_end,
    takeWhile_run middle_run middle_end, dropWhile_run middle_run middle_end, List.head?_cons,
    BEq.rfl, List.drop_one, List.tail_cons, takeWhile_run blanks' space_end,
    dropWhile_run blanks' space_end, lead, guard, if_true, Option.pure_def, Option.bind_eq_bind,
    Option.bind_some, filled, Bool.not_false]
  rw [show (c :: more ++ (middle ++ '=' :: (space ++ '{' :: rest))).head?.any isNameStart = true
    from start]
  simp only [if_true, Option.bind_some, Option.some.injEq, Prod.mk.injEq, and_true]
  simp only [bindingLead, List.length_append, List.length_cons]
  omega

theorem binds_of_keywordBinding? {text : List Char} {taken : Nat} {found : Binding}
    (listed : keyword ∈ bindingKeywords)
    (read : keywordBinding? text keyword = some (taken, found)) :
    ∃ gap body space rest, Binds keyword gap body space found.name ∧
      text = bindingLead keyword gap body space ++ '{' :: rest := by
  simp only [keywordBinding?, Option.bind_eq_bind, Option.bind_eq_some_iff, Option.guard_eq_some',
    Option.pure_def, Option.some.injEq, Prod.mk.injEq, List.isPrefixOf_iff_prefix, beq_iff_eq,
    List.head?_eq_some_iff, Bool.not_eq_true'] at read
  obtain ⟨_, ⟨behind, rfl⟩, _, filled, _, start, _, ends, _, ⟨after, equals⟩, _, ⟨rest, brace⟩,
    rfl, rfl⟩ := read
  rw [List.drop_left] at filled start ends equals brace
  rw [equals, List.drop_one, List.tail_cons] at brace
  simp only [List.drop_left]
  -- What the reader drops step by step is named, so that the parts can be put together again.
  generalize fromName : behind.dropWhile isBlank = named at start ends equals brace ⊢
  generalize afterName : named.dropWhile isNameChar = body at ends equals brace ⊢
  refine ⟨behind.takeWhile isBlank, named.takeWhile isNameChar ++ body.takeWhile isBeforeEquals,
    after.takeWhile isBlank, rest, ⟨listed, ?_, fun c member => List.mem_takeWhile_imp member, ?_,
      ⟨?_, fun c member => List.mem_takeWhile_imp member, _, rfl, ?_⟩,
      fun c member => List.mem_takeWhile_imp member⟩, ?_⟩
  · exact List.isEmpty_eq_false_iff.mp filled
  · intro c member
    rcases List.mem_append.mp member with member | member
    · have inside := List.mem_takeWhile_imp member
      rw [isBeforeEquals, Bool.and_eq_true, bne_iff_ne, bne_iff_ne]
      constructor <;> rintro rfl <;> exact absurd inside (by decide)
    · exact List.mem_takeWhile_imp member
  · cases named with
    | nil => cases start
    | cons c more =>
      have start : isNameStart c = true := start
      simp [isNameChar_of_isNameStart start, start]
  · cases body with
    | nil => rfl
    | cons c more =>
      by_cases inside : isBeforeEquals c = true
      · simpa [inside] using ends
      · simp [inside, isWordAt]
  · rw [bindingLead]
    calc keyword ++ behind
        = keyword ++ (behind.takeWhile isBlank ++ behind.dropWhile isBlank) := by
          rw [List.takeWhile_append_dropWhile]
      _ = keyword ++ (behind.takeWhile isBlank ++ (named.takeWhile isNameChar ++
            (body.takeWhile isBeforeEquals ++ body.dropWhile isBeforeEquals))) := by
          rw [fromName, List.takeWhile_append_dropWhile, ← afterName,
            List.takeWhile_append_dropWhile]
      _ = keyword ++ (behind.takeWhile isBlank ++ (named.takeWhile isNameChar ++
            (body.takeWhile isBeforeEquals ++
              '=' :: (after.takeWhile isBlank ++ '{' :: rest)))) := by
          rw [equals, ← brace, List.takeWhile_append_dropWhile]
      _ = _ := by simp

variable {before : Option Char} {text : List Char} {taken : Nat} {found : Binding}

theorem Binds.takeWhile_isWord (binds : Binds keyword gap body space name) (rest : List Char) :
    (bindingLead keyword gap body space ++ rest).takeWhile isWord = keyword := by
  rw [bindingLead, List.append_assoc]
  apply takeWhile_run (keyword_isWord binds.listed).2
  obtain ⟨c, more, rfl⟩ := List.exists_cons_of_ne_nil binds.parted
  intro d first
  obtain rfl : c = d := by simpa using first
  exact isWord_of_isBlank (binds.blanks c (by simp))

theorem Binds.eq_of_run {run rest rest' : List Char} (binds : Binds keyword gap body space name)
    (same : run ++ rest = bindingLead keyword gap body space ++ rest')
    (all : ∀ c ∈ run, isWord c = true) (ends : isWordAt rest.head? = false) : run = keyword := by
  rw [← binds.takeWhile_isWord rest', ← same, takeWhile_run all fun c next => ?_]
  rwa [Option.mem_def.mp next] at ends

theorem binding_eq_some_iff :
    binding before text = some (taken, found) ↔
      isWordAt before = false ∧ ∃ keyword gap body space rest,
        Binds keyword gap body space found.name ∧
        text = bindingLead keyword gap body space ++ '{' :: rest ∧
        found = ⟨found.name, byteLength (bindingLead keyword gap body space)⟩ ∧
        taken = (bindingLead keyword gap body space).length + 1 := by
  constructor
  · intro read
    rw [binding, Option.ite_none_left_eq_some, Bool.not_eq_true] at read
    obtain ⟨clear, read⟩ := read
    obtain ⟨keyword, listed, read⟩ := List.exists_of_findSome?_eq_some read
    obtain ⟨gap, body, space, rest, binds, rfl⟩ := binds_of_keywordBinding? listed read
    rw [keywordBinding?_of_binds binds, Option.some.injEq, Prod.mk.injEq] at read
    exact ⟨clear, keyword, gap, body, space, rest, binds, rfl, read.2.symm, read.1.symm⟩
  · rintro ⟨clear, keyword, gap, body, space, rest, binds, rfl, same, rfl⟩
    rw [binding, clear, if_neg (by simp)]
    have own := keywordBinding?_of_binds binds rest
    rw [← same] at own
    refine findSome?_eq_of_unique binds.listed own fun other listed success => ?_
    obtain ⟨⟨taken', found'⟩, read⟩ := Option.isSome_iff_exists.mp success
    obtain ⟨gap', body', space', rest', binds', whole⟩ := binds_of_keywordBinding? listed read
    have run := binds.takeWhile_isWord ('{' :: rest)
    rw [whole, binds'.takeWhile_isWord] at run
    exact run

theorem Binds.before_body (binds : Binds keyword gap body space name) :
    ∀ c ∈ keyword ++ gap, isBeforeEquals c = true := by
  have plain : bindingKeywords.all (fun keyword => keyword.all isBeforeEquals) = true := by decide
  intro c member
  rcases List.mem_append.mp member with member | member
  · exact List.all_eq_true.mp (List.all_eq_true.mp plain keyword binds.listed) c member
  · have blank := binds.blanks c member
    rw [isBeforeEquals, Bool.and_eq_true, bne_iff_ne, bne_iff_ne]
    constructor <;> rintro rfl <;> exact absurd blank (by decide)

/-- A binding that begins before the equals sign of a brace ends at that brace. -/
theorem Binds.ends_at (binds : Binds keyword gap body space name)
    {lead blank front here rest rest' : List Char} (plain : ∀ c ∈ lead, isBeforeEquals c = true)
    (blanks : ∀ c ∈ blank, isBlank c = true) (parted : lead ++ '=' :: blank = front ++ here)
    (whole : here ++ '{' :: rest = bindingLead keyword gap body space ++ '{' :: rest') :
    here = bindingLead keyword gap body space := by
  have shape : bindingLead keyword gap body space = (keyword ++ gap ++ body) ++ '=' :: space := by
    simp [bindingLead]
  have plain' : ∀ c ∈ keyword ++ gap ++ body, isBeforeEquals c = true := by
    intro c member
    rcases List.mem_append.mp member with member | member
    · exact binds.before_body c member
    · exact binds.equals c member
  have equals : isBeforeEquals '=' = false := by decide
  have brace : isBlank '{' = false := by decide
  rw [shape] at whole ⊢
  rcases List.append_eq_append_iff.mp parted with ⟨left, rfl, behind⟩ | ⟨left, rfl, behind⟩
  · -- Behind the equals sign there is no word character for a keyword to begin with.
    exfalso
    obtain ⟨nonempty, words⟩ := keyword_isWord binds.listed
    obtain ⟨c, more, rfl⟩ := List.exists_cons_of_ne_nil nonempty
    have first : (here ++ '{' :: rest).head? = some c := by
      rw [whole]
      rfl
    have word := words c (by simp)
    cases here with
    | nil =>
      cases first
      exact absurd word (by decide)
    | cons d here =>
      cases first
      have member : c ∈ '=' :: blank := by
        rw [behind]
        exact List.mem_append_right _ List.mem_cons_self
      rcases List.mem_cons.mp member with rfl | member
      · exact absurd word (by decide)
      · rw [isWord_of_isBlank (blanks c member)] at word
        cases word
  · subst behind
    have run : ∀ c ∈ left, isBeforeEquals c = true := fun c member =>
      plain c (List.mem_append_right _ member)
    have whole : left ++ '=' :: (blank ++ '{' :: rest) =
        (keyword ++ gap ++ body) ++ '=' :: (space ++ '{' :: rest') := by
      simpa using whole
    obtain ⟨rfl, -, same⟩ := run_unique run plain' equals equals whole
    obtain ⟨rfl, -, -⟩ := run_unique blanks binds.blanks' brace brace same
    rfl

/-- Whatever binding is read before a brace that follows an equals sign ends at that brace. -/
theorem taken_of_binding {lead blank front here rest : List Char}
    (plain : ∀ c ∈ lead, isBeforeEquals c = true) (blanks : ∀ c ∈ blank, isBlank c = true)
    (parted : lead ++ '=' :: blank ++ ['{'] = front ++ here) (nonempty : here ≠ [])
    (read : binding before (here ++ rest) = some (taken, found)) : taken = here.length := by
  rcases List.eq_nil_or_concat here with rfl | ⟨here, c, rfl⟩
  · exact absurd rfl nonempty
  · rw [List.concat_eq_append, ← List.append_assoc] at parted
    obtain ⟨before_brace, same⟩ := List.append_inj' parted rfl
    obtain rfl : '{' = c := by simpa using same
    obtain ⟨-, keyword, gap, body, space, rest', binds, whole, -, rfl⟩ :=
      binding_eq_some_iff.mp read
    rw [List.concat_eq_append, List.append_assoc, List.singleton_append] at whole
    rw [← binds.ends_at plain blanks before_brace whole]
    simp

end Form

end ColorTokens.Source

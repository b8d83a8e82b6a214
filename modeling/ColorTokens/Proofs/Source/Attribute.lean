import ColorTokens.Proofs.Text.Recognizer
import ColorTokens.Proofs.Text.Word
import ColorTokens.Source.Attribute
import Mathlib.Data.Option.Basic

/-! Quoted values by their place. What is read as the value of a name is a part of the text, and it
begins as many bytes behind the name as is reported. Where the names are words, a value is read
exactly where a name, the separator and a quoted text stand in this order. -/

set_option autoImplicit false

namespace ColorTokens.Source

open ColorTokens.Text

theorem quotedText?_eq_some {text value : List Char} (read : quotedText? text = some value) :
    ∃ quote rest, text = quote :: (value ++ quote :: rest) ∧ isPlainQuote quote = true := by
  unfold quotedText? at read
  split at read
  · next quote behind =>
    simp only [Bool.and_eq_true, beq_iff_eq, Option.ite_none_right_eq_some, Option.some.injEq,
      List.head?_eq_some_iff] at read
    obtain ⟨⟨plain, rest, closed⟩, rfl⟩ := read
    exact ⟨quote, rest, by rw [← closed, List.takeWhile_append_dropWhile], plain⟩
  · cases read

theorem namedValue?_eq_some {separator : Char} {text : List Char} {name : String} {taken : Nat}
    {found : QuotedValue} (read : namedValue? separator text name = some (taken, found)) :
    ∃ head quote rest, text = head ++ (found.value ++ quote :: rest) ∧
      found.lead = byteLength head ∧ taken = head.length + found.value.length + 1 := by
  simp only [namedValue?, Option.bind_eq_bind, Option.bind_eq_some_iff, Option.guard_eq_some',
    Option.pure_def, Option.some.injEq, Prod.mk.injEq, List.isPrefixOf_iff_prefix, beq_iff_eq,
    List.head?_eq_some_iff] at read
  obtain ⟨_, ⟨behind, rfl⟩, _, ⟨body, separated⟩, value, quoted, rfl, rfl⟩ := read
  rw [List.drop_left] at separated quoted
  rw [separated, List.drop_one, List.tail_cons] at quoted
  obtain ⟨quote, rest, opened, _⟩ := quotedText?_eq_some quoted
  have whole : name.toList ++ behind = (name.toList ++ behind.takeWhile isBlank ++
      separator :: body.takeWhile isBlank ++ [quote]) ++ (value ++ quote :: rest) := by
    conv => lhs; rw [← behind.takeWhile_append_dropWhile (p := isBlank), separated,
      ← body.takeWhile_append_dropWhile (p := isBlank), opened]
    simp
  simp only [List.drop_left, separated, List.drop_one, List.tail_cons]
  refine ⟨_, quote, rest, whole, ?_, ?_⟩
  · rw [whole, List.take_left']
    simp only [List.length_append, List.length_cons, List.length_nil]
    omega
  · simp only [List.length_append, List.length_cons, List.length_nil]
    omega

theorem quotedValue_eq_some {names : List String} {separator : Char} {before : Option Char}
    {text : List Char} {taken : Nat} {found : QuotedValue}
    (read : quotedValue names separator before text = some (taken, found)) :
    ∃ name ∈ names, namedValue? separator text name = some (taken, found) := by
  unfold quotedValue at read
  split at read
  · cases read
  · exact List.exists_of_findSome?_eq_some read

theorem quotedValue_bounded (names : List String) (separator : Char) :
    Recognizer.Bounded (quotedValue names separator) := by
  intro before text taken found read
  obtain ⟨name, _, read⟩ := quotedValue_eq_some read
  obtain ⟨head, quote, rest, rfl, _, rfl⟩ := namedValue?_eq_some read
  simp only [List.length_append, List.length_cons]
  omega

section Words

variable {separator : Char} {name : String} {quote : Char} {head : List Char}

structure Leads (separator : Char) (name : String) (quote : Char) (head : List Char) : Prop where
  parts : ∃ gap space, head = name.toList ++ (gap ++ separator :: (space ++ [quote])) ∧
    (∀ c ∈ gap, isBlank c = true) ∧ ∀ c ∈ space, isBlank c = true
  plain : isPlainQuote quote = true

structure Separates (separator : Char) : Prop where
  dark : isBlank separator = false
  outside : isWord separator = false

theorem isBlank_of_isPlainQuote {c : Char} (plain : isPlainQuote c = true) : isBlank c = false := by
  simp only [isPlainQuote, Bool.or_eq_true, beq_iff_eq] at plain
  rcases plain with rfl | rfl <;> decide

theorem namedValue?_of_leads {value : List Char} (separates : Separates separator)
    (leads : Leads separator name quote head) (unquoted : ∀ c ∈ value, isPlainQuote c = false)
    (rest : List Char) :
    namedValue? separator (head ++ (value ++ quote :: rest)) name =
      some (head.length + value.length + 1, ⟨name, byteLength head, value⟩) := by
  obtain ⟨⟨gap, space, rfl, blanks, blanks'⟩, plain⟩ := leads
  have dark := isBlank_of_isPlainQuote plain
  have value_run : ∀ c ∈ value, (!isPlainQuote c) = true := by simpa using unquoted
  have value_end : ∀ c ∈ (quote :: rest).head?, (!isPlainQuote c) = false := by simp [plain]
  have quoted : quotedText? (quote :: (value ++ quote :: rest)) = some value := by
    rw [quotedText?, takeWhile_run value_run value_end, dropWhile_run value_run value_end]
    simp [plain]
  -- Each run of blanks ends at a dark character, so the reader takes just the two gaps.
  have gap_end : ∀ c ∈ (separator :: (space ++ quote :: (value ++ quote :: rest))).head?,
      isBlank c = false := by simp [separates.dark]
  have space_end : ∀ c ∈ (quote :: (value ++ quote :: rest)).head?, isBlank c = false := by
    simp [dark]
  have whole : name.toList ++ (gap ++ separator :: (space ++ [quote])) ++ (value ++ quote :: rest) =
      name.toList ++ (gap ++ separator :: (space ++ quote :: (value ++ quote :: rest))) := by simp
  have lead : (name.toList ++ (gap ++ separator :: (space ++ quote :: (value ++ quote :: rest)))).take
      (name.toList.length + gap.length + 1 + space.length + 1) =
        name.toList ++ (gap ++ separator :: (space ++ [quote])) := by
    rw [← whole, List.take_left']
    simp only [List.length_append, List.length_cons, List.length_nil]
    omega
  simp only [namedValue?, whole, List.isPrefixOf_iff_prefix.mpr (List.prefix_append ..),
    List.drop_left, takeWhile_run blanks gap_end, dropWhile_run blanks gap_end, List.head?_cons,
    BEq.rfl, List.drop_one, List.tail_cons, takeWhile_run blanks' space_end,
    dropWhile_run blanks' space_end, quoted, lead, guard, if_true, Option.pure_def,
    Option.bind_eq_bind, Option.bind_some, List.length_append, List.length_cons, List.length_nil]
  congr 2
  omega

theorem leads_of_namedValue? {text : List Char} {taken : Nat} {found : QuotedValue}
    (read : namedValue? separator text name = some (taken, found)) :
    ∃ head quote rest, Leads separator name quote head ∧
      text = head ++ (found.value ++ quote :: rest) ∧
      ∀ c ∈ found.value, isPlainQuote c = false := by
  simp only [namedValue?, Option.bind_eq_bind, Option.bind_eq_some_iff, Option.guard_eq_some',
    Option.pure_def, Option.some.injEq, Prod.mk.injEq, List.isPrefixOf_iff_prefix, beq_iff_eq,
    List.head?_eq_some_iff] at read
  obtain ⟨_, ⟨behind, rfl⟩, _, ⟨body, separated⟩, value, quoted, rfl, rfl⟩ := read
  rw [List.drop_left] at separated quoted
  rw [separated, List.drop_one, List.tail_cons] at quoted
  have unquoted : ∀ c ∈ value, isPlainQuote c = false := by
    unfold quotedText? at quoted
    split at quoted
    · simp only [Option.ite_none_right_eq_some, Option.some.injEq] at quoted
      rw [← quoted.2]
      intro c member
      simpa using List.mem_takeWhile_imp member
    · cases quoted
  obtain ⟨quote, rest, opened, plain⟩ := quotedText?_eq_some quoted
  refine ⟨_, quote, rest, ⟨⟨behind.takeWhile isBlank, body.takeWhile isBlank, rfl, ?_, ?_⟩, plain⟩,
    ?_, unquoted⟩
  · exact fun c member => List.mem_takeWhile_imp member
  · exact fun c member => List.mem_takeWhile_imp member
  · conv => lhs; rw [← behind.takeWhile_append_dropWhile (p := isBlank), separated,
      ← body.takeWhile_append_dropWhile (p := isBlank), opened]
    simp

theorem Leads.getLast?_eq (leads : Leads separator name quote head) :
    head.getLast? = some quote := by
  obtain ⟨⟨gap, space, rfl, -⟩, -⟩ := leads
  rw [← List.cons_append, ← List.append_assoc, ← List.append_assoc, List.getLast?_concat]

theorem Leads.quote_mem (leads : Leads separator name quote head) : quote ∈ head :=
  List.mem_of_getLast? leads.getLast?_eq

theorem Leads.takeWhile_isWord (leads : Leads separator name quote head)
    (separates : Separates separator) (words : ∀ c ∈ name.toList, isWord c = true)
    (rest : List Char) :
    (head ++ rest).takeWhile isWord = name.toList := by
  obtain ⟨⟨gap, space, rfl, blanks, _⟩, _⟩ := leads
  rw [List.append_assoc]
  apply takeWhile_run words
  intro c first
  cases gap with
  | nil =>
    obtain rfl : separator = c := by simpa using first
    exact separates.outside
  | cons d gap =>
    obtain rfl : d = c := by simpa using first
    exact isWord_of_isBlank (blanks d (by simp))

/-- A run of word characters with none behind it, where a value is led to, is the name. -/
theorem Leads.eq_of_run {run rest rest' : List Char} (leads : Leads separator name quote head)
    (separates : Separates separator) (words : ∀ c ∈ name.toList, isWord c = true)
    (same : run ++ rest = head ++ rest') (all : ∀ c ∈ run, isWord c = true)
    (ends : isWordAt rest.head? = false) : run = name.toList := by
  rw [← leads.takeWhile_isWord separates words rest', ← same, takeWhile_run all fun c next => ?_]
  rwa [Option.mem_def.mp next] at ends

variable {names : List String} {before : Option Char} {text : List Char} {taken : Nat}
  {found : QuotedValue}

theorem quotedValue_eq_some_iff (separates : Separates separator)
    (words : ∀ name ∈ names, name.toList ≠ [] ∧ ∀ c ∈ name.toList, isWord c = true) :
    quotedValue names separator before text = some (taken, found) ↔
      isWordAt before = false ∧ ∃ name ∈ names, ∃ head quote rest,
        Leads separator name quote head ∧ text = head ++ (found.value ++ quote :: rest) ∧
        (∀ c ∈ found.value, isPlainQuote c = false) ∧
        found = ⟨name, byteLength head, found.value⟩ ∧
        taken = head.length + found.value.length + 1 := by
  -- Every name begins with a word character, so a boundary has none before it.
  have boundary {name : String} {head quote back} (listed : name ∈ names)
      (leads : Leads separator name quote head) :
      (isWordAt before == isWordAt (head ++ back).head?) = isWordAt before := by
    obtain ⟨⟨gap, space, rfl, _⟩, _⟩ := leads
    obtain ⟨nonempty, all⟩ := words name listed
    obtain ⟨c, more, shape⟩ := List.exists_cons_of_ne_nil nonempty
    have word : isWord c = true := all c (by rw [shape]; exact List.mem_cons_self)
    simp [shape, isWordAt, word]
  constructor
  · intro read
    obtain ⟨name, listed, named⟩ := quotedValue_eq_some read
    obtain ⟨head, quote, rest, leads, rfl, unquoted⟩ := leads_of_namedValue? named
    rw [quotedValue, boundary listed leads, Option.ite_none_left_eq_some, Bool.not_eq_true] at read
    rw [namedValue?_of_leads separates leads unquoted rest, Option.some.injEq,
      Prod.mk.injEq] at named
    exact ⟨read.1, name, listed, head, quote, rest, leads, rfl, unquoted, named.2.symm,
      named.1.symm⟩
  · rintro ⟨clear, name, listed, head, quote, rest, leads, rfl, unquoted, same, rfl⟩
    rw [quotedValue, boundary listed leads, clear, if_neg (by simp)]
    have own := namedValue?_of_leads separates leads unquoted rest
    rw [← same] at own
    refine findSome?_eq_of_unique listed own fun other listed' success => ?_
    obtain ⟨⟨taken', found'⟩, named⟩ := Option.isSome_iff_exists.mp success
    obtain ⟨head', quote', rest', leads', whole, _⟩ := leads_of_namedValue? named
    have run := leads.takeWhile_isWord separates (words name listed).2
      (found.value ++ quote :: rest)
    rw [whole, leads'.takeWhile_isWord separates (words other listed').2] at run
    exact String.toList_injective run

end Words

end ColorTokens.Source

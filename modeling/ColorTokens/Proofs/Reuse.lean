import ColorTokens.Proofs.Color.FixedPoint
import ColorTokens.Proofs.Idempotence
import ColorTokens.Proofs.Token.Reserved

/-! A second run over the same files. It finds every colour in the sheet that the first one left,
and so mints nothing, exactly when the minted colours can be told from what surrounds them there:
no value ends inside one, and the quotes in them leave the root block its closing brace. -/

set_option autoImplicit false

namespace ColorTokens

open ColorTokens.Text
open ColorTokens.Source

/-- A colour that a sheet gives was read from a value, and so no value would end in it. -/
theorem isValueChar_of_index {sheet : List Char} {color identifier : String}
    (found : (ColorIndex.ofSheet sheet)[color]? = some identifier) :
    ∀ c ∈ color.toList, isValueChar c = true := by
  obtain ⟨declaration, member, -, given⟩ := exists_of_index found
  obtain ⟨text, made, rfl⟩ := Option.map_eq_some_iff.mp (normalize?_of_colorOf? given)
  rw [String.toList_ofList]
  apply Color.forall_of_canonical? made
  · intro c letter
    rw [← Bool.not_eq_false, isValueChar_eq_false_iff]
    rintro (rfl | rfl | rfl) <;> exact absurd letter (by decide)
  · decide
  · exact isValueChar_of_mem_rootTokens member

theorem isSome_rootBlock?_of_index {sheet : List Char} {color identifier : String}
    (found : (ColorIndex.ofSheet sheet)[color]? = some identifier) :
    (rootBlock? sheet).isSome := by
  by_contra lacks
  rw [Option.not_isSome_iff_eq_none] at lacks
  rw [getElem?_ofSheet, sheetColors_eq_nil lacks] at found
  cases found

/-- Nothing is minted, and each colour has the token that an earlier outcome gave it. -/
structure Outcome.Repeats (outcome earlier : Outcome) : Prop where
  unminted : outcome.assignment.generated.isEmpty
  tokens : ∀ color : String, outcome.assignment.tokens[color]? = earlier.assignment.tokens[color]?

namespace MintedTokens

variable {minted : MintedTokens} {sheet : String}
  (undeclared : ∀ entry ∈ minted.toList, entry.1 ∉ declaredIdentifiers sheet.toList)
  (root : (rootBlock? sheet.toList).isSome)

include undeclared root

theorem exists_sheetColors_insertInto (legible : ∀ entry ∈ minted.toList, Legible entry.1 entry.2)
    (root' : (rootBlock? (minted.insertInto sheet).toList).isSome) :
    ∃ more, sheetColors (minted.insertInto sheet).toList =
      sheetColors sheet.toList ++ (minted.toList.map Prod.swap ++ more) := by
  rcases exists_reopened_insertInto undeclared (.inl root) with
    ⟨none, same⟩ | ⟨head, body, back, reopened, written⟩
  · rw [same, none]
    exact ⟨[], by simp⟩
  · rw [written] at root' ⊢
    exact reopened.exists_sheetColors legible root'

theorem isSome_rootBlock?_insertInto
    (writable : ∀ entry ∈ minted.toList, Writable entry.1 entry.2) :
    (rootBlock? (minted.insertInto sheet).toList).isSome := by
  rcases exists_reopened_insertInto undeclared (.inl root) with
    ⟨-, same⟩ | ⟨head, body, back, reopened, written⟩
  · rwa [same]
  · obtain ⟨block, found, -⟩ := reopened.exists_block writable
    rw [written, found]
    rfl

end MintedTokens

namespace Tokenizer

variable {tokenizer : Tokenizer} {files : List SourceFile} {sheet sheet' : String}
  {first second outcome : Outcome} {identifier color : String}

section Minted

theorem occurrences_eq (ran : tokenizer.run files sheet = .ok first)
    (again : tokenizer.run files sheet' = .ok second) :
    second.occurrences = first.occurrences := by
  obtain ⟨arranged, _, _, done, _, _, _, rfl⟩ := finish_eq_ok_iff.mp ran
  obtain ⟨arranged', _, _, done', _, _, _, rfl⟩ := finish_eq_ok_iff.mp again
  rw [done] at done'
  cases done'
  rfl

theorem normalize?_of_minted (ran : tokenizer.run files sheet = .ok outcome)
    (minted : outcome.assignment.generated[identifier]? = some color) :
    Color.normalize? color = some color := by
  obtain ⟨given, -⟩ := (covers_of_run ran).declared identifier color minted
  obtain ⟨occurrence, member, rfl⟩ := List.mem_map.mp (Assignment.mem_ranked.mp given)
  obtain ⟨scanned, _, _, _, sound, _, occurrences, _⟩ := exists_of_run ran
  rw [occurrences] at member
  obtain ⟨file, listed, inside⟩ := List.mem_flatMap.mp member
  have found := (sound file listed).placed.found _ (List.mem_map_of_mem inside)
  exact Color.normalize?_fixed found.color_eq

theorem isCustomProperty_of_minted (ran : standard.run files sheet = .ok outcome)
    (minted : outcome.assignment.generated[identifier]? = some color) :
    IsCustomProperty identifier.toList := by
  obtain ⟨-, n, rfl⟩ := minted_of_run ran minted
  exact isCustomProperty_standard n

theorem undeclared_of_minted (ran : tokenizer.run files sheet = .ok outcome) :
    ∀ entry ∈ outcome.assignment.generated.toList,
      entry.1 ∉ declaredIdentifiers sheet.toList := by
  intro entry listed declared
  rw [Std.TreeMap.mem_toList_iff_getElem?_eq_some] at listed
  exact undeclared_of_run ran listed (mem_declaredIdentifiers_iff.mp declared)

end Minted

section Rereading

/-- The colours of a run, each with its token, as a sheet gives them that begins with what was
indexed and what was minted. -/
theorem getElem?_of_sheetColors (ran : tokenizer.run files sheet = .ok outcome)
    {more : List (String × String)}
    (colors : sheetColors sheet'.toList = sheetColors sheet.toList ++
      (outcome.assignment.generated.toList.map Prod.swap ++ more))
    (given : color ∈ outcome.occurrences.map (·.color)) :
    (TokenSheet.ofText sheet').index[color]? = outcome.assignment.tokens[color]? := by
  have covers := covers_of_run ran
  have listed := Assignment.mem_ranked.mpr given
  have read : (TokenSheet.ofText sheet').index[color]? =
      (TokenSheet.ofText sheet).index[color]?.or
        ((outcome.assignment.generated.toList.map Prod.swap ++ more).lookup color) := by
    simp only [TokenSheet.ofText, getElem?_ofSheet]
    rw [colors, List.lookup_append]
  rw [read]
  -- What was indexed comes first in the new sheet too; a minted colour has no entry before its own.
  cases indexed : (TokenSheet.ofText sheet).index[color]? with
  | some identifier => exact (covers.reused color listed identifier indexed).symm
  | none =>
    obtain ⟨identifier, token, minted⟩ := covers.minted color listed indexed
    rw [token, Option.none_or, List.lookup_append,
      (MintedTokens.lookup_swap_of_nodup covers.nodup_values).mpr minted, Option.some_or]

theorem repeats_of_sheetColors (ran : tokenizer.run files sheet = .ok first)
    (again : tokenizer.run files sheet' = .ok second) {more : List (String × String)}
    (colors : sheetColors sheet'.toList = sheetColors sheet.toList ++
      (first.assignment.generated.toList.map Prod.swap ++ more)) :
    second.Repeats first := by
  have covers := covers_of_run again
  rw [occurrences_eq ran again] at covers
  obtain ⟨unminted, tokens⟩ := (covers_of_run ran).reuses covers fun color listed =>
    getElem?_of_sheetColors ran colors (Assignment.mem_ranked.mp listed)
  exact ⟨unminted, tokens⟩

theorem exists_index_of_repeats (ran : tokenizer.run files sheet = .ok first)
    (again : tokenizer.run files sheet' = .ok second)
    (same : second.Repeats first)
    (minted : first.assignment.generated[identifier]? = some color) :
    ∃ known, (ColorIndex.ofSheet sheet'.toList)[color]? = some known := by
  have covers := covers_of_run again
  rw [occurrences_eq ran again] at covers
  exact covers.exists_indexed same.unminted ((covers_of_run ran).declared identifier color minted).1

variable (ran : standard.run files sheet = .ok first)
  (again : standard.run files (first.updatedSheet sheet) = .ok second)
  (root : (rootBlock? sheet.toList).isSome)

include ran again root

theorem repeats_of_values
    (values : ∀ identifier color : String,
      first.assignment.generated[identifier]? = some color →
        ∀ c ∈ color.toList, isValueChar c = true)
    (root' : (rootBlock? (first.updatedSheet sheet).toList).isSome) : second.Repeats first := by
  have legible : ∀ entry ∈ first.assignment.generated.toList, Legible entry.1 entry.2 := by
    intro entry listed
    rw [Std.TreeMap.mem_toList_iff_getElem?_eq_some] at listed
    exact ⟨isCustomProperty_of_minted ran listed, normalize?_of_minted ran listed,
      values entry.1 entry.2 listed⟩
  obtain ⟨more, colors⟩ := MintedTokens.exists_sheetColors_insertInto (undeclared_of_minted ran) root
    legible root'
  exact repeats_of_sheetColors ran again colors

theorem repeats_of_bare
    (bare : ∀ identifier color : String,
      first.assignment.generated[identifier]? = some color →
        ∀ c ∈ color.toList, c ∉ [';', '{', '}', '\'', '"', '\x60']) : second.Repeats first := by
  have writable : ∀ entry ∈ first.assignment.generated.toList, Writable entry.1 entry.2 := by
    intro entry listed
    rw [Std.TreeMap.mem_toList_iff_getElem?_eq_some] at listed
    exact ⟨isCustomProperty_of_minted ran listed, normalize?_of_minted ran listed,
      bare entry.1 entry.2 listed⟩
  apply repeats_of_values ran again root
  · intro identifier color minted
    rw [← Std.TreeMap.mem_toList_iff_getElem?_eq_some] at minted
    exact (writable (identifier, color) minted).legible.values
  · exact MintedTokens.isSome_rootBlock?_insertInto (undeclared_of_minted ran) root writable

theorem isSome_rootBlock?_of_repeats (same : second.Repeats first) :
    (rootBlock? (first.updatedSheet sheet).toList).isSome := by
  -- Without minted tokens the sheet is the old one; with one, the second run has read it.
  cases listed : first.assignment.generated.toList with
  | nil =>
    have kept : (first.updatedSheet sheet).toList = sheet.toList :=
      MintedTokens.toList_insertInto_nil listed
    rwa [kept]
  | cons entry rest =>
    have minted := Std.TreeMap.mem_toList_iff_getElem?_eq_some.mp (listed ▸ List.mem_cons_self)
    obtain ⟨known, indexed⟩ := exists_index_of_repeats ran again same minted
    exact isSome_rootBlock?_of_index indexed

end Rereading

/-- Whether a second run over the same files reuses what the first one minted. It does exactly when
no minted colour holds a character that ends a value and the updated sheet still has a root block;
so it does whenever the minted colours hold no semicolons, braces and quotes. -/
theorem standard_run_reuses_iff (files : List SourceFile) (sheet : String)
    (distinct : (files.map (·.path)).Nodup) (root : (rootBlock? sheet.toList).isSome) :
    ∃ first second, standard.run files sheet = .ok first ∧
      standard.run files (first.updatedSheet sheet) = .ok second ∧
      (second.Repeats first ↔
        (∀ identifier color : String, first.assignment.generated[identifier]? = some color →
          ∀ c ∈ color.toList, isValueChar c = true) ∧
        (rootBlock? (first.updatedSheet sheet).toList).isSome) ∧
      ((∀ identifier color : String, first.assignment.generated[identifier]? = some color →
          ∀ c ∈ color.toList, c ∉ [';', '{', '}', '\'', '"', '\x60']) →
        second.Repeats first) := by
  have writable : standard.naming.isWritable = true := by decide
  obtain ⟨first, ran⟩ := exists_run distinct writable sheet
  obtain ⟨second, again⟩ := exists_run distinct writable (first.updatedSheet sheet)
  refine ⟨first, second, ran, again, ⟨fun same => ⟨?_, ?_⟩, fun ⟨values, root'⟩ => ?_⟩, ?_⟩
  · intro identifier color minted
    obtain ⟨known, indexed⟩ := exists_index_of_repeats ran again same minted
    exact isValueChar_of_index indexed
  · exact isSome_rootBlock?_of_repeats ran again root same
  · exact repeats_of_values ran again root values root'
  · exact repeats_of_bare ran again root

/-- The sheet has one declaration already, without its semicolon. -/
theorem standard_run_reuses_unterminated :
    (rootBlock? ":root \x7b --ink: #000 \x7d".toList).isSome ∧
    ∃ first second,
      standard.run [⟨"a.css", "a\x7bcolor:rgb(1 2 3);\x7d", .styleModule⟩]
        ":root \x7b --ink: #000 \x7d" = .ok first ∧
      standard.run [⟨"a.css", "a\x7bcolor:rgb(1 2 3);\x7d", .styleModule⟩]
        (first.updatedSheet ":root \x7b --ink: #000 \x7d") = .ok second ∧ second.Repeats first := by
  have root : (rootBlock? ":root \x7b --ink: #000 \x7d".toList).isSome := by decide +kernel
  obtain ⟨first, second, ran, again, -, reuses⟩ := standard_run_reuses_iff
    [⟨"a.css", "a\x7bcolor:rgb(1 2 3);\x7d", .styleModule⟩]
    ":root \x7b --ink: #000 \x7d" (by simp) root
  refine ⟨root, first, second, ran, again, reuses fun identifier color minted => ?_⟩
  have listed : (standard.run [⟨"a.css", "a\x7bcolor:rgb(1 2 3);\x7d", .styleModule⟩]
      ":root \x7b --ink: #000 \x7d").toOption.map (·.assignment.generated.toList) =
      some [("--c-raw-000", "rgb(1 2 3)")] := by
    decide +kernel
  rw [ran] at listed
  have entries : first.assignment.generated.toList = [("--c-raw-000", "rgb(1 2 3)")] :=
    Option.some.inj listed
  rw [← Std.TreeMap.mem_toList_iff_getElem?_eq_some, entries, List.mem_singleton] at minted
  cases minted
  simp

/-- What two runs over the same files mint, the second one over the sheet that the first one left. -/
def mintedByTwo (files : List SourceFile) (sheet : String) :
    Option (List (String × String) × List (String × String)) := do
  let first ← (standard.run files sheet).toOption
  let second ← (standard.run files (first.updatedSheet sheet)).toOption
  return (first.assignment.generated.toList, second.assignment.generated.toList)

/-- A semicolon ends the value it is written into, and an unpaired quote hides the closing brace;
either colour is minted again. -/
theorem standard_run_mints_again :
    mintedByTwo [⟨"a.tsx", "<a fill=\"rgb(1;2)\"/>", .component⟩] ":root \x7b\n\x7d\n" =
      some ([("--c-raw-000", "rgb(1;2)")], [("--c-raw-001", "rgb(1;2)")]) ∧
    mintedByTwo [⟨"a.css", "a\x7bcolor:rgb(');\x7d", .styleModule⟩] ":root \x7b\n\x7d\n" =
      some ([("--c-raw-000", "rgb(')")], [("--c-raw-001", "rgb(')")]) := by
  decide +kernel

end Tokenizer

end ColorTokens

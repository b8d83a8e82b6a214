import ColorTokens.Proofs.Token.Insertion
import ColorTokens.Proofs.Tokenization

/-! The two readers of a sheet. One reads the declarations of the root block, each with its value;
the other reads identifiers wherever they are declared, and these are what may not be minted. A
value may hold further declarations that only the second one reads, but whatever identifier the
first one reads the second one reads as well, and from the same character on. -/

set_option autoImplicit false

namespace ColorTokens

open ColorTokens.Text
open ColorTokens.Source

section Readers

variable {text property gap value stop rest : List Char}

theorem DeclaresToken.declaresProperty (shape : DeclaresToken text property gap value stop rest) :
    DeclaresProperty text property gap (value ++ (stop ++ rest)) :=
  ⟨shape.whole, shape.token, shape.blanks⟩

theorem DeclaresToken.longer (shape : DeclaresToken text property gap value stop rest)
    {front : List Char} (token : IsCustomProperty (front ++ property)) :
    DeclaresToken (front ++ text) (front ++ property) gap value stop rest where
  whole := by
    rw [shape.whole]
    simp
  token := token
  blanks := shape.blanks
  filled := shape.filled
  values := shape.values
  ends := shape.ends

/-- A declaration that was taken ends in a character of no property, unless it ends the text. -/
theorem DeclaresToken.piece_ends {piece rest' : List Char}
    (shape : DeclaresToken (piece ++ rest) property gap value stop rest')
    (length : piece.length = property.length + (gap.length + 1) + value.length + stop.length) :
    rest = [] ∨ ∃ before c, piece = before ++ [c] ∧ isPropertyChar c = false := by
  have parted : piece ++ rest = (property ++ (gap ++ ':' :: value)) ++ stop ++ rest' := by
    rw [shape.whole]
    simp
  obtain ⟨rfl, rfl⟩ := List.append_inj parted (by simp; omega)
  rcases shape.ends with ⟨-, rfl⟩ | rfl | rfl
  · exact .inl rfl
  · exact .inr ⟨_, ';', rfl, by decide⟩
  · exact .inr ⟨_, '}', rfl, by decide⟩

/-- A declaration with its value stands in a text, and no longer property ends where its own does. -/
def TokenIn (text : List Char) (declaration : TokenDeclaration) : Prop :=
  ∃ front here property gap value stop rest, text = front ++ here ∧
    DeclaresToken here property gap value stop rest ∧
    declaration = DeclaresToken.read property value ∧
    ∀ longer, longer ≠ [] → longer <:+ front → ¬ IsCustomProperty (longer ++ property)

theorem TokenIn.declaredIn {declaration : TokenDeclaration} (stands : TokenIn text declaration) :
    DeclaredIn text declaration.identifier.toList := by
  obtain ⟨front, here, property, gap, value, stop, rest, whole, shape, rfl, longest⟩ := stands
  rw [DeclaresToken.read, String.toList_ofList]
  exact ⟨front, here, gap, _, whole, shape.declaresProperty, longest⟩

open Recognizer in
/-- The reader of values begins as far in front as the reader of identifiers does. -/
theorem tokenIn_of_findings {offset : Nat} {before : Option Char}
    {found : List (Nat × TokenDeclaration)}
    (search : Findings tokenDeclaration offset before text found) :
    ∀ declaration ∈ found.map Prod.snd, TokenIn text declaration := by
  induction search with
  | done => simp
  | @pass offset before c rest found missed _ ih =>
    intro declaration member
    obtain ⟨front, here, property, gap, value, stop, behind, rfl, shape, read, longest⟩ :=
      ih declaration member
    refine ⟨c :: front, here, property, gap, value, stop, behind, rfl, shape, read, ?_⟩
    intro longer nonempty suffix token
    rcases List.suffix_cons_iff.mp suffix with rfl | suffix
    -- A property that begins with the character passed over would have been read there.
    · have success := (shape.longer token).tokenDeclaration_eq before
      rw [List.cons_append, missed] at success
      cases success
    · exact longest longer nonempty suffix token
  | @take offset before piece rest value found nonempty read _ ih =>
    obtain ⟨property, gap, value, stop, rest', shape, length, rfl⟩ :=
      tokenDeclaration_eq_some_iff.mp read
    rw [List.map_cons, List.forall_mem_cons]
    refine ⟨⟨[], _, property, gap, value, stop, rest', rfl, shape, rfl, ?_⟩, ?_⟩
    · intro longer nonempty suffix
      exact absurd (List.suffix_nil.mp suffix) nonempty
    · intro declaration member
      obtain ⟨front, here, property', gap', value', stop', behind, whole, shape', read', longest⟩ :=
        ih declaration member
      refine ⟨piece ++ front, here, property', gap', value', stop', behind, by simp [whole], shape',
        read', ?_⟩
      rcases shape.piece_ends length with none | ⟨start, c, rfl, ends⟩
      · have empty := whole.symm.trans none
        rw [shape'.whole] at empty
        simp at empty
      · rw [List.append_assoc]
        exact longest_behind longest ends start

theorem declaredIn_of_mem_rootTokens {sheet : List Char} {declaration : TokenDeclaration}
    (member : declaration ∈ rootTokens sheet) :
    DeclaredIn sheet declaration.identifier.toList := by
  unfold rootTokens at member
  cases found : rootBlock? sheet with
  | none =>
    rw [found] at member
    cases member
  | some block =>
    rw [found] at member
    obtain ⟨head, front, behind, inner, back, phase, rfl, -, -, -, rfl⟩ :=
      rootBlock?_eq_some_iff.mp found
    have search := Recognizer.findings_findFrom tokenDeclaration_bounded 0 none inner
    have inside := (tokenIn_of_findings search declaration member).declaredIn
    -- The braces are characters of no property, so nothing reaches into the block or out of it.
    exact (inside.append ('}' :: back)).behind (by decide) head

end Readers

section Reserved

variable {sheet identifier : String}

theorem mem_reserved_iff_declared :
    identifier ∈ (TokenSheet.ofText sheet).reserved ↔
      identifier ∈ declaredIdentifiers sheet.toList := by
  rw [MintedTokens.mem_reserved_iff, mem_declaredIdentifiers_iff, or_iff_left_of_imp]
  -- What is indexed was read in the root block.
  rintro ⟨color, indexed⟩
  obtain ⟨declaration, member, rfl, -⟩ := exists_of_index indexed
  exact declaredIn_of_mem_rootTokens member

theorem toList_reserved (sheet : String) :
    (TokenSheet.ofText sheet).reserved.toList = (declaredIdentifiers sheet.toList).toList := by
  apply Std.TreeSet.Equiv.toList_eq
  apply Std.TreeSet.Equiv.of_forall_mem_iff
  intro identifier
  exact mem_reserved_iff_declared

end Reserved

section Minted

variable {tokenizer : Tokenizer} {files : List SourceFile} {sheet identifier color other : String}
  {outcome : Outcome}

theorem undeclared_of_run (ran : tokenizer.run files sheet = .ok outcome)
    (minted : outcome.assignment.generated[identifier]? = some color) :
    ¬ DeclaredIn sheet.toList identifier.toList := by
  intro declared
  apply (Tokenizer.minted_of_run ran minted).1
  exact MintedTokens.mem_reserved_iff.mpr (.inl declared)

theorem color_unique_of_run (ran : tokenizer.run files sheet = .ok outcome)
    (minted : outcome.assignment.generated[identifier]? = some color)
    (token : outcome.assignment.tokens[other]? = some identifier) :
    other = color ∧ outcome.assignment.origins[other]? = some .generated := by
  have covers := Tokenizer.covers_of_run ran
  have given := covers.known other identifier token
  cases indexed : (TokenSheet.ofText sheet).index[other]? with
  | some known =>
    -- A colour that is reused has a reserved identifier, which is never minted.
    rw [covers.reused other given known indexed] at token
    cases token
    have reserved := MintedTokens.mem_reserved_iff.mpr (.inr ⟨other, indexed⟩)
    exact absurd reserved (Tokenizer.minted_of_run ran minted).1
  | none =>
    obtain ⟨identifier', token', made⟩ := covers.minted other given indexed
    rw [token] at token'
    cases token'
    rw [minted] at made
    cases made
    exact ⟨rfl, (covers.origin_iff color).mpr ⟨given, indexed⟩⟩

end Minted

/-- The readers agree on identifiers. What is declared in the root block is declared in the sheet, so
what is reserved is just what is declared; hence no run mints an identifier that the root block
declares, nor one that another colour has, be it reused or minted itself. -/
theorem readers_agree_on_identifiers (sheet : String) :
    (∀ declaration ∈ rootTokens sheet.toList,
      declaration.identifier ∈ declaredIdentifiers sheet.toList) ∧
    (TokenSheet.ofText sheet).reserved.toList = (declaredIdentifiers sheet.toList).toList ∧
    ∀ (tokenizer : Tokenizer) (files : List SourceFile) (outcome : Outcome),
      tokenizer.run files sheet = .ok outcome →
      ∀ identifier color : String, outcome.assignment.generated[identifier]? = some color →
        identifier ∉ declaredIdentifiers sheet.toList ∧
        identifier ∉ (rootTokens sheet.toList).map (·.identifier) ∧
        ∀ other : String, outcome.assignment.tokens[other]? = some identifier →
          other = color ∧ outcome.assignment.origins[other]? = some .generated := by
  refine ⟨fun declaration member => ?_, toList_reserved sheet, ?_⟩
  · exact mem_declaredIdentifiers_iff.mpr (declaredIn_of_mem_rootTokens member)
  · intro tokenizer files outcome ran identifier color minted
    have undeclared := undeclared_of_run ran minted
    refine ⟨mt mem_declaredIdentifiers_iff.mp undeclared, fun member => ?_, fun other token => ?_⟩
    · obtain ⟨declaration, listed, rfl⟩ := List.mem_map.mp member
      exact undeclared (declaredIn_of_mem_rootTokens listed)
    · exact color_unique_of_run ran minted token

/-- The first two identifiers of the naming are declared: one in the value of another declaration,
the other one as the last of the block, without a semicolon. -/
theorem readers_agree_on_identifiers_nested :
    ∃ outcome, Tokenizer.standard.run [⟨"a.css", "a\x7bcolor:#123;\x7d", .styleModule⟩]
        ":root \x7b --x: --c-raw-000: 1; ---c-raw-000: #fff; --c-raw-001: #000 \x7d" = .ok outcome ∧
      outcome.assignment.generated["--c-raw-002"]? = some "#112233" ∧
      "--c-raw-002" ∉ (rootTokens
        ":root \x7b --x: --c-raw-000: 1; ---c-raw-000: #fff; --c-raw-001: #000 \x7d".toList).map
          (·.identifier) ∧
      "--c-raw-001" ∈ declaredIdentifiers
        ":root \x7b --x: --c-raw-000: 1; ---c-raw-000: #fff; --c-raw-001: #000 \x7d".toList := by
  obtain ⟨outcome, ran⟩ : ∃ outcome, Tokenizer.standard.run
      [⟨"a.css", "a\x7bcolor:#123;\x7d", .styleModule⟩]
      ":root \x7b --x: --c-raw-000: 1; ---c-raw-000: #fff; --c-raw-001: #000 \x7d" = .ok outcome :=
    Tokenizer.exists_run (by simp) (by decide) _
  have listed : (Tokenizer.standard.run [⟨"a.css", "a\x7bcolor:#123;\x7d", .styleModule⟩]
      ":root \x7b --x: --c-raw-000: 1; ---c-raw-000: #fff; --c-raw-001: #000 \x7d").toOption.map
        (·.assignment.generated["--c-raw-002"]?) = some (some "#112233") := by
    decide +kernel
  rw [ran] at listed
  have minted : outcome.assignment.generated["--c-raw-002"]? = some "#112233" :=
    Option.some.inj listed
  obtain ⟨declared, -, fresh⟩ := readers_agree_on_identifiers
    ":root \x7b --x: --c-raw-000: 1; ---c-raw-000: #fff; --c-raw-001: #000 \x7d"
  exact ⟨outcome, ran, minted, (fresh _ _ outcome ran _ _ minted).2.1,
    declared ⟨"--c-raw-001", "#000"⟩ (by decide +kernel)⟩

end ColorTokens

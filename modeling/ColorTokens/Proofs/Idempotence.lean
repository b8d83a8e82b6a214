import ColorTokens.Proofs.Token.Sheet
import ColorTokens.Proofs.Tokenization

/-! A second run over style modules finds nothing to do. References are written inside declaration
values only and hold none of the characters that end one, so every declaration stays where it was;
a value that held a literal now holds a reference, and such values are left alone. -/

set_option autoImplicit false

namespace ColorTokens

open ColorTokens.Text
open ColorTokens.Source

/-- A text that the standard rules take for a reference, fit to stand in a declaration's value. -/
structure IsReference (text : List Char) : Prop where
  marked : "var(--".toList <+: text
  values : ∀ c ∈ text, isValueChar c = true

section References

theorem isReference_reference {identifier : String}
    (token : IsCustomProperty identifier.toList) :
    IsReference (Naming.reference identifier).toList := by
  have written : (Naming.reference identifier).toList =
      "var(".toList ++ (identifier.toList ++ ")".toList) := by
    rw [Naming.reference, String.toList_append, String.toList_append, List.append_assoc]
  rw [written]
  constructor
  · obtain ⟨name, named⟩ := token.dashes
    rw [← named]
    exact ⟨name ++ ")".toList, by simp⟩
  · have opening : "var(".toList.all isValueChar = true := by decide
    have closing : ")".toList.all isValueChar = true := by decide
    intro c member
    rcases List.mem_append.mp member with member | member
    · exact List.all_eq_true.mp opening c member
    · rcases List.mem_append.mp member with member | member
      · exact isValueChar_of_isPropertyChar (token.properties c member)
      · exact List.all_eq_true.mp closing c member

theorem isCustomProperty_standard (n : Nat) :
    IsCustomProperty (Naming.standard.identifier n).toList := by
  have stem : Naming.standard.stem.toList.all isPropertyChar = true := by decide
  exact (Naming.isCustomProperty_identifier_iff rfl n).mpr (List.all_eq_true.mp stem)

end References

section Values

variable {swap : Hit → Replacement} {segment : Segment}

def Quiet (value : List Char) : Prop :=
  ∀ start context, Segment.hits "var(--" ⟨start, value, context⟩ = []

theorem Segment.hits_eq_nil_iff {marker : String} :
    segment.hits marker = [] ↔ holds marker.toList segment.text = true ∨
      ∀ entry ∈ Color.literal.findAll segment.text, Color.canonical? entry.2 = none := by
  unfold Segment.hits
  by_cases marked : holds marker.toList segment.text = true
  · simp [marked]
  · simp [marked, List.filterMap_eq_nil_iff]

theorem quiet_of_hits_eq_nil (none : segment.hits "var(--" = []) : Quiet segment.text := by
  intro start context
  rw [Segment.hits_eq_nil_iff] at none ⊢
  exact none

theorem quiet_of_reference {value reference : List Char} (shape : IsReference reference)
    (inside : reference <:+: value) : Quiet value := by
  intro start context
  rw [Segment.hits_eq_nil_iff, holds_iff]
  exact .inl (shape.marked.isInfix.trans inside)

/-- A segment's value after its hits gave way to references: it has no hits left, and it still
begins and goes on as a value does. -/
theorem exists_quiet_value (spans : ∀ hit, (swap hit).span = hit.span)
    (references : ∀ hit ∈ segment.hits "var(--", IsReference (swap hit).text.toList)
    (values : ∀ c ∈ segment.text, isValueChar c = true)
    (dark : ∀ c ∈ segment.text.head?, isBlank c = false) :
    ∃ value, Replaces segment.start ((segment.hits "var(--").map swap) segment.text value ∧
      Quiet value ∧ (∀ c ∈ value, isValueChar c = true) ∧
      (∀ c ∈ value.head?, isBlank c = false) ∧ (value = [] → segment.text = []) := by
  by_cases none : segment.hits "var(--" = []
  · rw [none]
    exact ⟨segment.text, .done, quiet_of_hits_eq_nil none, values, dark, id⟩
  have written : ∀ replacement ∈ (segment.hits "var(--").map swap,
      IsReference replacement.text.toList := by
    intro replacement member
    obtain ⟨hit, listed, rfl⟩ := List.mem_map.mp member
    exact references hit listed
  have replaced : ∃ value,
      Replaces segment.start ((segment.hits "var(--").map swap) segment.text value := by
    refine exists_replaces (fun replacement member => ?_) ?_
    · obtain ⟨hit, listed, rfl⟩ := List.mem_map.mp member
      obtain ⟨offset, literal, _, stands, _, _, same⟩ := Segment.mem_hits listed
      exact ⟨offset, literal, stands, by rw [spans, same]⟩
    · refine List.pairwise_map.mpr ((segment.hits_apart _).imp fun ordered => ?_)
      rwa [spans, spans]
  obtain ⟨value, replaces⟩ := replaced
  -- One reference in a value is enough for it to have no hits.
  obtain ⟨hit, more, some⟩ := List.exists_cons_of_ne_nil none
  have first : swap hit ∈ (segment.hits "var(--").map swap := by simp [some]
  have inside := replaces.isInfix _ first
  have filled : ∀ replacement ∈ (segment.hits "var(--").map swap,
      replacement.text.toList ≠ [] := by
    intro replacement member empty
    have marked := (written replacement member).marked
    rw [empty] at marked
    exact absurd marked (by decide)
  refine ⟨value, replaces, quiet_of_reference (written _ first) inside, ?_, ?_, ?_⟩
  · exact replaces.forall_mem values fun replacement member => (written replacement member).values
  · intro c begins
    rcases replaces.head_mem filled c begins with kept | ⟨replacement, member, kept⟩
    · exact dark c kept
    · obtain ⟨rest, marked⟩ := (written replacement member).marked
      rw [← marked] at kept
      obtain rfl : 'v' = c := by simpa using kept
      decide
  · rintro rfl
    exact absurd (List.infix_nil.mp inside) (filled _ first)

end Values

section Texts

def declarationSegment (entry : Nat × Declaration) : Segment :=
  ⟨entry.1 + entry.2.lead, entry.2.value, .styleDeclaration (String.ofList entry.2.property)⟩

theorem rawHits_styleModule (rules : ScanRules) (text : List Char) :
    rawHits rules .styleModule text = (declaration.findAll text).flatMap fun entry =>
      (declarationSegment entry).hits rules.referenceMarker := by
  change ((declaration.findAll text).map declarationSegment).flatMap _ = _
  rw [List.flatMap_map]

theorem declares_exchanged {text property gap value rest value' : List Char}
    (shape : Declares text property gap value rest) (values' : ∀ c ∈ value', isValueChar c = true)
    (kept : value' = [] → trimStart value = []) (rest' : List Char) :
    Declares (Declares.piece property gap (value.takeWhile isBlank ++ value') ++ rest') property gap
      (value.takeWhile isBlank ++ value') rest' := by
  refine ⟨by simp [Declares.piece], shape.named, shape.properties, shape.blanks, fun empty => ?_,
    fun c member => ?_⟩
  · obtain ⟨blank, empty⟩ := List.append_eq_nil_iff.mp empty
    have parted := value.takeWhile_append_dropWhile (p := isBlank)
    rw [blank, show value.dropWhile isBlank = [] from kept empty] at parted
    exact shape.filled parted.symm
  · rcases List.mem_append.mp member with member | member
    · exact shape.values c ((List.takeWhile_prefix _).subset member)
    · exact values' c member

theorem replaces_piece {offset : Nat} {replacements more : List Replacement}
    {property gap blanks inner inner' rest rest' : List Char}
    (exchanged : Replaces (offset + byteLength (property ++ (gap ++ ':' :: blanks))) replacements
      inner inner')
    (others : Replaces (offset + byteLength (Declares.piece property gap (blanks ++ inner))) more
      rest rest') :
    Replaces offset (replacements ++ more) (Declares.piece property gap (blanks ++ inner) ++ rest)
      (Declares.piece property gap (blanks ++ inner') ++ rest') := by
  have parted (inner rest : List Char) : Declares.piece property gap (blanks ++ inner) ++ rest =
      (property ++ (gap ++ ':' :: blanks)) ++ (inner ++ ([';'] ++ rest)) := by
    simp [Declares.piece]
  have length : byteLength (Declares.piece property gap (blanks ++ inner)) =
      byteLength (property ++ (gap ++ ':' :: blanks)) + byteLength inner + byteLength [';'] := by
    rw [← List.append_nil (Declares.piece ..), parted]
    simp [Nat.add_assoc]
  have front : Replaces offset [] (property ++ (gap ++ ':' :: blanks)) _ := .done
  have semicolon (start : Nat) : Replaces start [] [';'] [';'] := .done
  rw [parted, parted]
  refine front.append (exchanged.append ((semicolon _).append ?_))
  rwa [length, ← Nat.add_assoc, ← Nat.add_assoc] at others

/-- References in place of hits leave every declaration at its place, and no value has a hit. -/
theorem exists_quiet_text (swap : Hit → Replacement)
    (spans : ∀ hit, (swap hit).span = hit.span) {offset : Nat}
    {before : Option Char} {text : List Char} {found : List (Nat × Declaration)}
    (search : declaration.Findings offset before text found)
    (references : ∀ entry ∈ found, ∀ hit ∈ (declarationSegment entry).hits "var(--",
      IsReference (swap hit).text.toList) :
    ∃ text', Replaces offset
        ((found.flatMap fun entry => (declarationSegment entry).hits "var(--").map swap) text text' ∧
      SameFrame text text' ∧
      ∀ offset' before', ∃ found', declaration.Findings offset' before' text' found' ∧
        ∀ entry ∈ found', Quiet entry.2.value := by
  induction search with
  | done => exact ⟨[], .done, .nil, fun _ _ => ⟨[], .done, by simp⟩⟩
  | @pass offset before c rest found missed _ ih =>
    obtain ⟨rest', replaces, frame, quiet⟩ := ih references
    refine ⟨c :: rest', ?_, .char c frame, fun offset' before' => ?_⟩
    · have gap : Replaces offset [] [c] [c] := .done
      exact gap.append (by simpa using replaces)
    · obtain ⟨found', search, values⟩ := quiet (offset' + c.utf8Size) (some c)
      exact ⟨found', .pass ((SameFrame.char c frame).declaration_eq_none missed) search, values⟩
  | @take offset before piece rest value found _ read _ ih =>
    obtain ⟨property, gap, value, shape, rfl, rfl⟩ := declares_of_taken read
    obtain ⟨rest', replaces, frame, quiet⟩ := ih fun entry member =>
      references entry (List.mem_cons_of_mem _ member)
    -- The blanks before a value are no part of the segment and stay as they are.
    have dark : ∀ c ∈ (trimStart value).head?, isBlank c = false := fun c => head?_dropWhile
    have inner : ∀ c ∈ trimStart value, isValueChar c = true := fun c member =>
      shape.values c ((List.dropWhile_suffix _).subset member)
    obtain ⟨value', exchanged, silent, values', dark', kept⟩ := exists_quiet_value spans
      (references _ (List.mem_cons_self ..)) inner dark
    have shape' := declares_exchanged shape values' kept rest'
    have trimmed : trimStart (value.takeWhile isBlank ++ value') = value' :=
      dropWhile_run (fun c => List.mem_takeWhile_imp) dark'
    refine ⟨Declares.piece property gap (value.takeWhile isBlank ++ value') ++ rest', ?_, ?_, ?_⟩
    · have parted : value.takeWhile isBlank ++ trimStart value = value :=
        List.takeWhile_append_dropWhile
      have exchanged : Replaces (offset + byteLength (property ++ (gap ++ ':' ::
          value.takeWhile isBlank))) _ (trimStart value) value' := exchanged
      rw [← parted] at replaces
      have joined := replaces_piece exchanged replaces
      rw [parted] at joined
      rwa [List.flatMap_cons, List.map_append]
    · have lead := SameFrame.append_left (property ++ gap)
        (.value shape.filled shape'.filled shape.values shape'.values frame)
      simpa [Declares.piece] using lead
    · intro offset' before'
      obtain ⟨found', search, values⟩ := quiet _ _
      refine ⟨_, .take (by simp [Declares.piece]) (shape'.declaration_eq before') search, ?_⟩
      refine List.forall_mem_cons.mpr ⟨?_, values⟩
      simp only [Declares.read, trimmed]
      exact silent

end Texts

namespace Tokenizer

variable {files : List SourceFile} {sheet : String} {outcome : Outcome}

theorem isCustomProperty_of_token (ran : standard.run files sheet = .ok outcome)
    {occurrence : Occurrence} (member : occurrence ∈ outcome.occurrences) {identifier : String}
    (token : outcome.assignment.tokens[occurrence.color]? = some identifier) :
    IsCustomProperty identifier.toList := by
  rw [assignment_of_run ran] at token
  have listed := List.mem_map_of_mem (f := fun occurrence : Occurrence => occurrence.color) member
  rcases Assignment.token_source listed token with indexed | ⟨n, rfl⟩
  · exact isCustomProperty_of_index indexed
  · exact isCustomProperty_standard n

theorem rawHits_rewritten (ran : standard.run files sheet = .ok outcome) {file : SourceFile}
    (member : file ∈ files) (style : file.kind = .styleModule) :
    rawHits ScanRules.standard .styleModule (outcome.rewritten file).text.toList = [] := by
  obtain ⟨replacements, refers, replaces⟩ := substitutes_rewritten ran member
  obtain ⟨rfl, tokened⟩ := eq_referenceTo_of_refers refers
  have hits : (outcome.occurrencesIn file.path).map (·.toHit) =
      rawHits ScanRules.standard .styleModule file.text.toList := by
    rw [occurrencesIn_eq ran member, scanFile, map_toHit_scan, style, settle_rawHits_styleModule]
    rfl
  have references : ∀ entry ∈ declaration.findAll file.text.toList,
      ∀ hit ∈ (declarationSegment entry).hits "var(--",
        IsReference (referenceTo outcome.assignment.tokens hit).text.toList := by
    intro entry found hit listed
    have kept : hit ∈ (outcome.occurrencesIn file.path).map (·.toHit) := by
      rw [hits, rawHits_styleModule]
      exact List.mem_flatMap.mpr ⟨entry, found, listed⟩
    obtain ⟨identifier, token⟩ := tokened hit kept
    obtain ⟨occurrence, member, rfl⟩ := List.mem_map.mp kept
    have shape := isCustomProperty_of_token ran (List.mem_of_mem_filter member) token
    rw [referenceTo, token]
    exact isReference_reference shape
  have search := Recognizer.findings_findFrom declaration_bounded 0 none file.text.toList
  obtain ⟨text, replaced, _, quiet⟩ := exists_quiet_text
    (referenceTo outcome.assignment.tokens) (fun _ => rfl) search references
  obtain ⟨found, search', silent⟩ := quiet 0 none
  rw [hits, rawHits_styleModule] at replaces
  -- The same replacements in the same text come to the same text.
  rw [replaces.unique replaced, rawHits_styleModule, Recognizer.findAll, search'.eq_findFrom]
  exact List.flatMap_eq_nil_iff.mpr fun entry member => silent entry member _ _

theorem occurrences_eq_nil {tokenizer : Tokenizer}
    (ran : tokenizer.run files sheet = .ok outcome)
    (none : ∀ file ∈ files, (tokenizer.scanFile file).occurrences = []) :
    outcome.occurrences = [] := by
  obtain ⟨scanned, _, perm, _, _, _, occurrences, _⟩ := exists_of_run ran
  rw [occurrences, List.flatMap_eq_nil_iff]
  intro file member
  obtain ⟨source, input, rfl⟩ := List.mem_map.mp (perm.mem_iff.mp member)
  exact none source input

theorem changed_of_no_occurrences {tokenizer : Tokenizer}
    (ran : tokenizer.run files sheet = .ok outcome) (none : outcome.occurrences = []) :
    outcome.changed = ∅ := by
  obtain ⟨scanned, changes, _, _, sound, made, occurrences, changed⟩ := exists_of_run ran
  rw [none, eq_comm, List.flatMap_eq_nil_iff] at occurrences
  have unchanged : (changes.filterMap id).map Prod.fst = [] := by
    rw [map_fst_changes sound made, List.map_eq_nil_iff, List.filter_eq_nil_iff]
    intro file member
    simp [occurrences file member]
  rw [changed, List.map_eq_nil_iff.mp unchanged]
  rfl

theorem generated_of_no_occurrences {tokenizer : Tokenizer}
    (ran : tokenizer.run files sheet = .ok outcome) (none : outcome.occurrences = []) :
    outcome.assignment.generated = ∅ := by
  rw [assignment_of_run ran, none, List.map_nil, Assignment.assign_nil]
  rfl

theorem insertInto_empty (sheet : String) : MintedTokens.insertInto ∅ sheet = sheet := by
  have missing : (MintedTokens.pending ∅ sheet.toList).isEmpty = true := rfl
  rw [MintedTokens.insertInto, if_pos missing]

/-- Once a run over style modules is written back, a second one finds nothing to do. -/
theorem standard_run_twice (files : List SourceFile) (sheet : String)
    (distinct : (files.map (·.path)).Nodup)
    (styles : ∀ file ∈ files, file.kind = .styleModule) :
    ∃ first second, standard.run files sheet = .ok first ∧
      standard.run (files.map first.rewritten) (first.updatedSheet sheet) = .ok second ∧
      second.occurrences = [] ∧ second.changed = ∅ ∧ second.assignment.generated = ∅ ∧
      second.updatedSheet (first.updatedSheet sheet) = first.updatedSheet sheet := by
  have writable : standard.naming.isWritable = true := by decide
  obtain ⟨first, ran⟩ := exists_run distinct writable sheet
  have distinct' : ((files.map first.rewritten).map (·.path)).Nodup := by
    simpa [Function.comp_def] using distinct
  obtain ⟨second, ran'⟩ := exists_run distinct' writable (first.updatedSheet sheet)
  have none : second.occurrences = [] := by
    refine occurrences_eq_nil ran' fun file member => ?_
    obtain ⟨source, input, rfl⟩ := List.mem_map.mp member
    have quiet := rawHits_rewritten ran input (styles source input)
    rw [scanFile, Outcome.rewritten_kind, styles source input]
    exact scan_styleModule_eq_nil_iff.mpr quiet
  have generated := generated_of_no_occurrences ran' none
  refine ⟨first, second, ran, ran', none, changed_of_no_occurrences ran' none, generated, ?_⟩
  rw [Outcome.updatedSheet, generated, insertInto_empty]

theorem standard_run_twice_two_files :
    ∃ first second,
      standard.run [⟨"a.module.css", "a\x7bcolor:#fff;\x7d", .styleModule⟩,
        ⟨"b.module.css", "b\x7bborder:1px solid black;fill:#123;\x7d", .styleModule⟩]
        ":root\x7b--ink:#000\x7d" = .ok first ∧
      standard.run ([⟨"a.module.css", "a\x7bcolor:#fff;\x7d", .styleModule⟩,
        ⟨"b.module.css", "b\x7bborder:1px solid black;fill:#123;\x7d", .styleModule⟩].map
          first.rewritten) (first.updatedSheet ":root\x7b--ink:#000\x7d") = .ok second ∧
      second.occurrences = [] := by
  obtain ⟨first, second, ran, ran', none, _⟩ := standard_run_twice
    [⟨"a.module.css", "a\x7bcolor:#fff;\x7d", .styleModule⟩,
      ⟨"b.module.css", "b\x7bborder:1px solid black;fill:#123;\x7d", .styleModule⟩]
    ":root\x7b--ink:#000\x7d" (by simp) (by simp)
  exact ⟨first, second, ran, ran', none⟩

end Tokenizer

end ColorTokens

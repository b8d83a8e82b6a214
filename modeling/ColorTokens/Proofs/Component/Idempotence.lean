import ColorTokens.Proofs.Component.Dictionaries
import ColorTokens.Proofs.Idempotence

/-! A second run over components finds nothing to do, as long as no literal that the first one
replaced meant anything to a reader of the component. Then every segment of the rewritten text was a
segment before; it holds a reference now, or it had no literals then. -/

set_option autoImplicit false

namespace ColorTokens

open ColorTokens.Text
open ColorTokens.Source

section Enclosed

variable {text : List Char} {segment : Segment}

def Enclosed (text : List Char) (segment : Segment) : Prop :=
  ∃ front quote quote' back, text = front ++ quote :: (segment.text ++ quote' :: back) ∧
    segment.start = byteLength (front ++ [quote]) ∧ isWord quote = false ∧ isWord quote' = false

theorem isWord_of_isPlainQuote {c : Char} (plain : isPlainQuote c = true) : isWord c = false := by
  simp only [isPlainQuote, Bool.or_eq_true, beq_iff_eq] at plain
  rcases plain with rfl | rfl <;> decide

theorem enclosed_of_mem_namedSegments {names : List String} {separator : Char}
    (fields : Fields names separator) {context : String → Context}
    (member : segment ∈ namedSegments names separator context text) : Enclosed text segment := by
  obtain ⟨⟨offset, found⟩, listed, rfl⟩ := List.mem_map.mp member
  have search := Recognizer.findings_findFrom (quotedValue_bounded names separator) 0 none text
  obtain ⟨front, piece, rest, whole, place, read⟩ := search.place listed
  rw [quotedValue_eq_some_iff fields.separates fun name listed => (fields.word listed).1] at read
  obtain ⟨-, name, -, head, quote, rest', leads, parted, -, same, -⟩ := read
  obtain ⟨lead, shape⟩ := List.getLast?_eq_some_iff.mp leads.getLast?_eq
  have outside := isWord_of_isPlainQuote leads.plain
  refine ⟨front ++ lead, quote, quote, rest', ?_, ?_, outside, outside⟩
  · rw [whole, parted, shape]
    simp
  · have length : found.lead = byteLength head := by rw [same]
    simp only [length, shape, place, byteLength_append]
    omega

theorem enclosed_of_mem_dictionarySegments {rules : ScanRules}
    (member : segment ∈ dictionarySegments rules text) : Enclosed text segment := by
  obtain ⟨entry, -, -, front, inner, back, head, quote, content, tail, encloses, -, quotes, rfl⟩ :=
    mem_dictionarySegments_iff.mp member
  have outside := isWord_of_isPlainQuote quotes.plain
  refine ⟨front ++ '{' :: head, quote, quote, tail ++ '}' :: back, ?_, by simp, outside, outside⟩
  rw [encloses.whole, quotes.whole]
  simp

theorem enclosed_of_mem_segments
    (member : segment ∈ segments ScanRules.standard .component text) : Enclosed text segment := by
  rcases List.mem_append.mp member with member | member
  · rcases List.mem_append.mp member with member | member
    · exact enclosed_of_mem_namedSegments fields_markup member
    · exact enclosed_of_mem_namedSegments fields_style member
  · exact enclosed_of_mem_dictionarySegments member

theorem replaceable_of_mem_rawHits {hit : Hit}
    (member : hit ∈ rawHits ScanRules.standard .component text)
    (inert : isInert hit.raw.toList = true) {front back : List Char}
    (whole : text = front ++ (hit.raw.toList ++ back)) (start : byteLength front = hit.span.start) :
    Replaceable front.getLast? back.head? hit.raw.toList := by
  obtain ⟨segment, listed, member⟩ := List.mem_flatMap.mp member
  obtain ⟨left, quote, quote', right, around, begins, outside, outside'⟩ :=
    enclosed_of_mem_segments listed
  obtain ⟨before, after, inside, place, read⟩ := Segment.exists_read_of_mem_hits member
  obtain ⟨form, sign⟩ := form_of_literalAt? read
  have parted : front ++ (hit.raw.toList ++ back) =
      (left ++ quote :: before) ++ (hit.raw.toList ++ (after ++ quote' :: right)) := by
    rw [← whole, around, inside]
    simp
  have length : byteLength front = byteLength (left ++ quote :: before) := by
    rw [start, place, begins]
    simp [Nat.add_assoc]
  obtain ⟨rfl, behind⟩ := append_inj_of_byteLength parted length
  obtain rfl := List.append_cancel_left behind
  -- The quotes around the segment are no word characters, so they count as a missing neighbour.
  have first : isWordAt (left ++ quote :: before).getLast? = isWordAt before.getLast? := by
    rcases List.eq_nil_or_concat before with rfl | ⟨init, c, rfl⟩
    · simp [isWordAt, outside]
    · rw [List.concat_eq_append, ← List.cons_append, ← List.append_assoc, List.getLast?_concat,
        List.getLast?_concat]
  have second : isWordAt (after ++ quote' :: right).head? = isWordAt after.head? := by
    cases after with
    | nil => simp [isWordAt, outside']
    | cons c after => rfl
  exact ⟨form.congr first second, Segment.head_of_mem_hits member,
    fun word => sign (first ▸ word), inert⟩

end Enclosed

section Rewriting

variable {text text' : List Char} {hits : List Hit} {tokens : Std.TreeMap String String}

theorem refersTo_reference {identifier : String} (property : IsCustomProperty identifier.toList) :
    RefersTo identifier.toList (Naming.reference identifier).toList := by
  refine ⟨property, ?_⟩
  rw [Naming.reference, String.toList_append, String.toList_append, List.append_assoc]
  rfl

theorem RefersTo.isReference {identifier text : List Char} (refers : RefersTo identifier text) :
    IsReference text := by
  obtain ⟨property, rfl⟩ := refers
  have token : IsCustomProperty (String.ofList identifier).toList := by
    rwa [String.toList_ofList]
  have written : (Naming.reference (String.ofList identifier)).toList =
      "var(".toList ++ (identifier ++ [')']) := by
    simpa using (refersTo_reference token).2
  rw [← written]
  exact isReference_reference token

theorem exists_rewritten (found : ∀ hit ∈ hits, hit ∈ rawHits ScanRules.standard .component text)
    (inert : ∀ hit ∈ hits, isInert hit.raw.toList = true)
    (tokened : ∀ hit ∈ hits, ∃ identifier, tokens[hit.color]? = some identifier ∧
      IsCustomProperty identifier.toList)
    (replaces : Replaces 0 (hits.map (referenceTo tokens)) text text') :
    ∃ pieces, Rewritten pieces ∧ textBefore pieces = text ∧ textAfter pieces = text' ∧
      (swaps 0 pieces).map Prod.fst = hits.map (·.span) := by
  obtain ⟨pieces, rfl, rfl, swapped⟩ := replaces.exists_pieces
  -- Each exchanged part is that of a hit.
  have origin {front old new back} (whole : pieces = front ++ .swapped old new :: back) :
      ∃ hit ∈ hits, hit.span.start = byteLength (textBefore front) ∧
        hit.span.stop = byteLength (textBefore front) + byteLength old ∧
        (referenceTo tokens hit).text.toList = new := by
    have listed : (⟨0 + byteLength (textBefore front), 0 + byteLength (textBefore front) +
        byteLength old⟩, new) ∈ swaps 0 pieces := mem_swaps_iff.mpr ⟨front, old, back, whole, rfl⟩
    rw [swapped, List.map_map] at listed
    obtain ⟨hit, member, same⟩ := List.mem_map.mp listed
    obtain ⟨span, text⟩ := Prod.mk.inj same
    have span : hit.span = _ := span
    exact ⟨hit, member, by simp [span], by simp [span], text⟩
  refine ⟨pieces, ⟨fun front old new back whole => ?_, fun old new member => ?_⟩, rfl, rfl, ?_⟩
  · obtain ⟨hit, listed, start, stop, -⟩ := origin whole
    obtain ⟨⟨before, after, stands, place⟩, length, -, -⟩ :=
      foundIn_of_mem_rawHits (found hit listed)
    have text : textBefore front ++ (old ++ textBefore back) =
        before ++ (hit.raw.toList ++ after) := by
      rw [← stands, whole]
      simp
    obtain ⟨rfl, behind⟩ := append_inj_of_byteLength text (by omega)
    obtain ⟨rfl, rfl⟩ := append_inj_of_byteLength behind (by omega)
    exact replaceable_of_mem_rawHits (found hit listed) (inert hit listed) stands place
  · obtain ⟨front, back, whole⟩ := List.append_of_mem member
    obtain ⟨hit, listed, -, -, rfl⟩ := origin whole
    obtain ⟨identifier, token, property⟩ := tokened hit listed
    rw [referenceTo, token]
    exact ⟨_, refersTo_reference property⟩
  · rw [swapped]
    simp [referenceTo]

theorem Rewritten.stemsFrom {pieces : List Piece} (rewritten : Rewritten pieces) {segment : Segment}
    (member : segment ∈ segments ScanRules.standard .component (textAfter pieces)) :
    StemsFrom pieces (segments ScanRules.standard .component (textBefore pieces)) segment := by
  have widen {former : List Segment} (stems : StemsFrom pieces former segment)
      (among : former ⊆ segments ScanRules.standard .component (textBefore pieces)) :
      StemsFrom pieces (segments ScanRules.standard .component (textBefore pieces)) segment := by
    obtain ⟨front, inner, back, whole, same, former, listed, rest⟩ := stems
    exact ⟨front, inner, back, whole, same, former, among listed, rest⟩
  rcases List.mem_append.mp member with member | member
  · rcases List.mem_append.mp member with member | member
    · apply widen (stemsFrom_of_mem_namedSegments rewritten fields_markup member)
      exact fun segment listed => List.mem_append_left _ (List.mem_append_left _ listed)
    · apply widen (stemsFrom_of_mem_namedSegments rewritten fields_style member)
      exact fun segment listed => List.mem_append_left _ (List.mem_append_right _ listed)
  · apply widen (stemsFrom_of_mem_dictionarySegments rewritten member)
    exact fun segment listed => List.mem_append_right _ listed

/-- Kept hits leave no room for another one: each hit shares a byte with one of them. -/
theorem Settles.exists_intersects {kept : List Hit} (settles : Settles hits kept)
    (nonempty : ∀ hit ∈ hits, hit.span.start < hit.span.stop) {hit : Hit} (member : hit ∈ hits) :
    ∃ span ∈ kept.map (·.span), span.intersects hit.span = true := by
  by_cases same : hit.span ∈ kept.map (·.span)
  · exact ⟨hit.span, same, Span.intersects_iff.mpr ⟨nonempty hit member, nonempty hit member⟩⟩
  · obtain ⟨other, listed, shared, -⟩ := settles.covered hit member same
    exact ⟨other.span, List.mem_map_of_mem listed, shared⟩

/-- Where nothing was exchanged in a segment, nothing was hit in it. -/
theorem hits_eq_nil_of_kept {pieces front back : List Piece} {run : List Char} {segment : Segment}
    (whole : pieces = front ++ (run.map .kept ++ back))
    (settles : Settles (rawHits ScanRules.standard .component (textBefore pieces)) hits)
    (swapped : (swaps 0 pieces).map Prod.fst = hits.map (·.span))
    (listed : segment ∈ segments ScanRules.standard .component (textBefore pieces))
    (start : segment.start = byteLength (textBefore front)) (text : segment.text = run) :
    segment.hits "var(--" = [] := by
  rw [List.eq_nil_iff_forall_not_mem]
  intro hit member
  have raw : hit ∈ rawHits ScanRules.standard .component (textBefore pieces) :=
    List.mem_flatMap.mpr ⟨segment, listed, member⟩
  obtain ⟨span, kept, shared⟩ := settles.exists_intersects nonempty_of_mem_rawHits raw
  obtain ⟨begins, ends⟩ := Segment.within_of_mem_hits member
  rw [← swapped] at kept
  obtain ⟨⟨span, new⟩, exchanged, rfl⟩ := List.mem_map.mp kept
  obtain ⟨before, old, after, place, rfl⟩ := mem_swaps_iff.mp exchanged
  rw [Span.intersects_iff] at shared
  simp only [start, text] at begins ends shared
  have outside : Piece.swapped old new ∉ run.map .kept := by simp
  -- The exchanged part lies before the segment or behind it.
  rcases piece_cases (place.symm.trans whole) outside with ⟨left, rfl⟩ | ⟨left, rfl, -⟩
  · simp only [textBefore_append, textBefore_map_kept, byteLength_append] at shared
    omega
  · simp only [textBefore_append, textBefore_swapped, byteLength_append] at begins shared
    omega

theorem Rewritten.rawHits_eq_nil {pieces : List Piece} (rewritten : Rewritten pieces)
    (settles : Settles (rawHits ScanRules.standard .component (textBefore pieces)) hits)
    (swapped : (swaps 0 pieces).map Prod.fst = hits.map (·.span)) :
    rawHits ScanRules.standard .component (textAfter pieces) = [] := by
  refine List.flatMap_eq_nil_iff.mpr fun segment member => ?_
  obtain ⟨front, inner, back, whole, same, former, listed, start, text⟩ :=
    rewritten.stemsFrom member
  have quiet : Quiet segment.text := by
    rw [same]
    rcases exists_swapped_or_eq_map_kept inner with ⟨left, old, new, right, rfl⟩ | ⟨run, rfl⟩
    · -- A segment that holds a reference is left alone.
      obtain ⟨identifier, refers⟩ := rewritten.reference old new (by simp [whole])
      apply quiet_of_reference refers.isReference
      exact ⟨textAfter left, textAfter right, by simp⟩
    · rw [textBefore_map_kept] at text
      have none := hits_eq_nil_of_kept whole settles swapped listed start text
      rw [textAfter_map_kept, ← text]
      exact quiet_of_hits_eq_nil none
  exact quiet segment.start segment.context

end Rewriting

namespace Tokenizer

variable {files : List SourceFile} {sheet : String} {outcome : Outcome}

/-- The rewritten text of a component has no hits, if all that was replaced in it was inert. -/
theorem rawHits_rewritten_component (ran : standard.run files sheet = .ok outcome)
    {file : SourceFile} (member : file ∈ files) (component : file.kind = .component)
    (inert : ∀ occurrence ∈ outcome.occurrencesIn file.path, isInert occurrence.raw.toList = true) :
    rawHits ScanRules.standard .component (outcome.rewritten file).text.toList = [] := by
  obtain ⟨replacements, refers, replaces⟩ := substitutes_rewritten ran member
  obtain ⟨rfl, tokened⟩ := eq_referenceTo_of_refers refers
  have hits : (outcome.occurrencesIn file.path).map (·.toHit) =
      settle (rawHits ScanRules.standard .component file.text.toList) := by
    rw [occurrencesIn_eq ran member, scanFile, map_toHit_scan, component]
    rfl
  have settles : Settles (rawHits ScanRules.standard .component file.text.toList)
      ((outcome.occurrencesIn file.path).map (·.toHit)) := by
    rw [hits]
    exact settle_settles nonempty_of_mem_rawHits
  have found : ∀ hit ∈ (outcome.occurrencesIn file.path).map (·.toHit),
      hit ∈ rawHits ScanRules.standard .component file.text.toList := fun hit listed =>
    List.mem_of_find?_eq_some (settles.earliest hit listed)
  have inert' : ∀ hit ∈ (outcome.occurrencesIn file.path).map (·.toHit),
      isInert hit.raw.toList = true := by
    intro hit listed
    obtain ⟨occurrence, kept, rfl⟩ := List.mem_map.mp listed
    exact inert occurrence kept
  have properties : ∀ hit ∈ (outcome.occurrencesIn file.path).map (·.toHit),
      ∃ identifier, outcome.assignment.tokens[hit.color]? = some identifier ∧
        IsCustomProperty identifier.toList := by
    intro hit listed
    obtain ⟨identifier, token⟩ := tokened hit listed
    obtain ⟨occurrence, kept, rfl⟩ := List.mem_map.mp listed
    exact ⟨identifier, token, isCustomProperty_of_token ran (List.mem_of_mem_filter kept) token⟩
  -- From here on the two texts are two views of the same pieces.
  obtain ⟨pieces, rewritten, before, after, swapped⟩ :=
    exists_rewritten found inert' properties replaces
  rw [← before] at settles
  rw [← after]
  exact rewritten.rawHits_eq_nil settles swapped

/-- Once a run over components is written back, a second one finds nothing in the files whose
replaced literals were all inert, and if all literals were, it has nothing to do at all. -/
theorem standard_run_components_twice (files : List SourceFile) (sheet : String)
    (distinct : (files.map (·.path)).Nodup)
    (components : ∀ file ∈ files, file.kind = .component) :
    ∃ first second, standard.run files sheet = .ok first ∧
      standard.run (files.map first.rewritten) (first.updatedSheet sheet) = .ok second ∧
      (∀ file ∈ files,
        (∀ occurrence ∈ first.occurrencesIn file.path, isInert occurrence.raw.toList = true) →
        second.occurrencesIn file.path = [] ∧ file.path ∉ second.changed) ∧
      ((∀ occurrence ∈ first.occurrences, isInert occurrence.raw.toList = true) →
        second.occurrences = [] ∧ second.changed = ∅ ∧ second.assignment.generated = ∅ ∧
        second.updatedSheet (first.updatedSheet sheet) = first.updatedSheet sheet) := by
  have writable : standard.naming.isWritable = true := by decide
  obtain ⟨first, ran⟩ := exists_run distinct writable sheet
  have distinct' : ((files.map first.rewritten).map (·.path)).Nodup := by
    simpa [Function.comp_def] using distinct
  obtain ⟨second, ran'⟩ := exists_run distinct' writable (first.updatedSheet sheet)
  have none (file : SourceFile) (member : file ∈ files)
      (inert : ∀ occurrence ∈ first.occurrencesIn file.path, isInert occurrence.raw.toList = true) :
      (standard.scanFile (first.rewritten file)).occurrences = [] := by
    have quiet := rawHits_rewritten_component ran member (components file member) inert
    have settled :=
      map_toHit_scan ScanRules.standard file.path .component (first.rewritten file).text
    rw [quiet, show settle [] = [] by simp [settle, keepApart]] at settled
    rw [scanFile, Outcome.rewritten_kind, components file member, Outcome.rewritten_path]
    exact List.map_eq_nil_iff.mp settled
  refine ⟨first, second, ran, ran', fun file member inert => ?_, fun inert => ?_⟩
  · have empty : second.occurrencesIn file.path = [] := by
      have scanned := occurrencesIn_eq ran' (List.mem_map_of_mem member)
      rw [Outcome.rewritten_path] at scanned
      rw [scanned, none file member inert]
    refine ⟨empty, fun changed => ?_⟩
    obtain ⟨_, _, _, nonempty⟩ := (mem_changed_iff ran').mp changed
    exact nonempty empty
  · have empty : second.occurrences = [] := by
      refine occurrences_eq_nil ran' fun file member => ?_
      obtain ⟨source, input, rfl⟩ := List.mem_map.mp member
      apply none source input
      exact fun occurrence listed => inert occurrence (List.mem_of_mem_filter listed)
    have generated := generated_of_no_occurrences ran' empty
    refine ⟨empty, changed_of_no_occurrences ran' empty, generated, ?_⟩
    rw [Outcome.updatedSheet, generated, insertInto_empty]

theorem standard_run_components_twice_painted :
    ∃ first second,
      standard.run [⟨"a.tsx", "<p fill='rgb(1, 2, 3)'/>", .component⟩,
        ⟨"b.tsx", "const theme = \x7bink: 'rgb(1, 2, 3)'\x7d", .component⟩] "" = .ok first ∧
      standard.run ([⟨"a.tsx", "<p fill='rgb(1, 2, 3)'/>", .component⟩,
        ⟨"b.tsx", "const theme = \x7bink: 'rgb(1, 2, 3)'\x7d", .component⟩].map first.rewritten)
        (first.updatedSheet "") = .ok second ∧
      first.occurrences.map (·.raw) = ["rgb(1, 2, 3)", "rgb(1, 2, 3)"] ∧
      second.occurrences = [] ∧ second.changed = ∅ ∧ second.assignment.generated = ∅ := by
  obtain ⟨first, second, ran, ran', -, idle⟩ := standard_run_components_twice
    [⟨"a.tsx", "<p fill='rgb(1, 2, 3)'/>", .component⟩,
      ⟨"b.tsx", "const theme = \x7bink: 'rgb(1, 2, 3)'\x7d", .component⟩] "" (by simp) (by simp)
  have found : (standard.run [⟨"a.tsx", "<p fill='rgb(1, 2, 3)'/>", .component⟩,
      ⟨"b.tsx", "const theme = \x7bink: 'rgb(1, 2, 3)'\x7d", .component⟩] "").toOption.map
        (·.occurrences.map (·.raw)) = some ["rgb(1, 2, 3)", "rgb(1, 2, 3)"] := by decide +kernel
  rw [ran] at found
  have raws : first.occurrences.map (·.raw) = ["rgb(1, 2, 3)", "rgb(1, 2, 3)"] :=
    Option.some.inj found
  have inert : ["rgb(1, 2, 3)", "rgb(1, 2, 3)"].all (isInert ·.toList) = true := by decide +kernel
  obtain ⟨none, unchanged, unminted, -⟩ := idle fun occurrence member =>
    List.all_eq_true.mp inert _ (raws ▸ List.mem_map_of_mem member)
  exact ⟨first, second, ran, ran', raws, none, unchanged, unminted⟩

/-- The literals that a run replaces, and those that a second run finds in what it leaves. -/
def foundByTwo (files : List SourceFile) (sheet : String) : Option (List String × List String) := do
  let first ← (standard.run files sheet).toOption
  let second ← (standard.run (files.map first.rewritten) (first.updatedSheet sheet)).toOption
  return (first.occurrences.map (·.raw), second.occurrences.map (·.raw))

/-- A literal can hide a dictionary: by a semicolon before the equals sign, by a brace that closes
the block, or by a keyword with which another binding begins. Once it is replaced, a second run
finds what is in the dictionary. -/
theorem standard_run_components_again :
    foundByTwo [⟨"a.tsx", "let theme/*fill:\"rgb(;)\"*/=\x7b\"#fff\"\x7d", .component⟩] "" =
      some (["rgb(;)"], ["#fff"]) ∧
    foundByTwo [⟨"a.tsx", "let theme=\x7b'fill='rgb(\x7d)''\"#fff\"\x7d", .component⟩] "" =
      some (["rgb(\x7d)"], ["#fff"]) ∧
    foundByTwo [⟨"a.tsx", "fill:\"rgb(let x)\"let theme=\x7b\"#fff\"\x7d", .component⟩] "" =
      some (["rgb(let x)"], ["#fff"]) := by
  decide +kernel

end Tokenizer

end ColorTokens

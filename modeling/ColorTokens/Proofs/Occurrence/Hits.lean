import ColorTokens.Occurrence.Scan
import ColorTokens.Proofs.Color.Literal
import ColorTokens.Proofs.Source.Attribute
import ColorTokens.Proofs.Source.Declaration

/-! Where hits stand. Every segment is a part of its text, so every hit is; the hits of one segment
keep apart from each other, and so do those of a style module, whose segments keep apart. -/

set_option autoImplicit false

namespace ColorTokens

open ColorTokens.Text
open ColorTokens.Source

/-- A hit that is where it says it is: its span is the one of its literal, which is not empty and
has the colour given. -/
structure Hit.FoundIn (text : List Char) (hit : Hit) : Prop where
  stands : Stands text hit.span.start hit.raw.toList
  stop_eq : hit.span.stop = hit.span.start + byteLength hit.raw.toList
  nonempty : hit.span.start < hit.span.stop
  color_eq : Color.normalize? hit.raw = some hit.color

namespace Segment

variable {text : List Char} {segment : Segment} {marker : String}

theorem mem_hits {hit : Hit} (member : hit ∈ segment.hits marker) :
    ∃ offset written color, Stands segment.text offset written ∧
      (∃ c rest, written = c :: rest ∧ c ∈ Color.literalStarts) ∧
      Color.canonical? written = some color ∧
      hit = { span := ⟨segment.start + offset, segment.start + offset + byteLength written⟩
              raw := String.ofList written
              color := String.ofList color
              context := segment.context } := by
  unfold hits at member
  split at member
  · cases member
  · obtain ⟨⟨offset, written⟩, found, made⟩ := List.mem_filterMap.mp member
    obtain ⟨color, canonical, same⟩ := Option.map_eq_some_iff.mp made
    have search := Recognizer.findings_findFrom Color.literal_bounded 0 none segment.text
    obtain ⟨front, piece, rest, whole, place, read⟩ := search.place found
    obtain ⟨rfl, read⟩ := Color.eq_of_literal read
    refine ⟨offset, written, color, ⟨front, rest, whole, ?_⟩, Color.literalAt?_head read, canonical,
      same.symm⟩
    omega

theorem exists_read_of_mem_hits {hit : Hit} (member : hit ∈ segment.hits marker) :
    ∃ front rest, segment.text = front ++ (hit.raw.toList ++ rest) ∧
      hit.span.start = segment.start + byteLength front ∧
      Color.literalAt? front.getLast? (hit.raw.toList ++ rest) = some hit.raw.toList := by
  unfold hits at member
  split at member
  · cases member
  · obtain ⟨⟨offset, written⟩, found, made⟩ := List.mem_filterMap.mp member
    obtain ⟨color, -, rfl⟩ := Option.map_eq_some_iff.mp made
    have search := Recognizer.findings_findFrom Color.literal_bounded 0 none segment.text
    obtain ⟨front, piece, rest, whole, place, read⟩ := search.place found
    obtain ⟨rfl, read⟩ := Color.eq_of_literal read
    rw [Option.or_none] at read
    refine ⟨front, rest, ?_, ?_, ?_⟩
    · rw [String.toList_ofList]
      exact whole
    · simp only
      omega
    · rw [String.toList_ofList]
      exact read

theorem foundIn_of_mem_hits (stands : Stands text segment.start segment.text) {hit : Hit}
    (member : hit ∈ segment.hits marker) : hit.FoundIn text := by
  obtain ⟨offset, written, color, inside, ⟨c, more, filled, _⟩, canonical, rfl⟩ := mem_hits member
  have positive : 0 < byteLength written := byteLength_pos (by simp [filled])
  refine ⟨?_, ?_, ?_, ?_⟩
  · rw [String.toList_ofList]
    exact stands.within inside
  · rw [String.toList_ofList]
  · simp only
    omega
  · rw [Color.normalize?, String.toList_ofList, canonical, Option.map_some]

theorem head_of_mem_hits {hit : Hit} (member : hit ∈ segment.hits marker) :
    ∃ c rest, hit.raw.toList = c :: rest ∧ c ∈ Color.literalStarts := by
  obtain ⟨offset, written, color, _, starts, _, rfl⟩ := mem_hits member
  rw [String.toList_ofList]
  exact starts

theorem hits_apart (marker : String) (segment : Segment) :
    (segment.hits marker).Pairwise fun first second => first.span.stop ≤ second.span.start := by
  have search := Recognizer.findings_findFrom Color.literal_bounded 0 none segment.text
  have apart := (search.apart byteLength fun before piece rest written read => by
    rw [(Color.eq_of_literal read).1]).2
  unfold hits
  split
  · exact .nil
  · refine apart.filterMap _ fun first second ordered hit made hit' made' => ?_
    obtain ⟨color, _, rfl⟩ := Option.map_eq_some_iff.mp made
    obtain ⟨color', _, rfl⟩ := Option.map_eq_some_iff.mp made'
    simp only
    omega

theorem within_of_mem_hits {hit : Hit} (member : hit ∈ segment.hits marker) :
    segment.start ≤ hit.span.start ∧ hit.span.stop ≤ segment.start + byteLength segment.text := by
  obtain ⟨offset, written, color, ⟨before, after, whole, length⟩, _, _, rfl⟩ := mem_hits member
  simp only [whole, byteLength_append]
  omega

end Segment

section Segments

variable {text : List Char} {segment : Segment}

theorem stands_of_mem_declarationSegments (member : segment ∈ declarationSegments text) :
    Stands text segment.start segment.text := by
  obtain ⟨⟨offset, found⟩, listed, rfl⟩ := List.mem_map.mp member
  have search := Recognizer.findings_findFrom declaration_bounded 0 none text
  obtain ⟨front, piece, rest, whole, rfl, taken⟩ := search.place listed
  obtain ⟨property, gap, value, shape, rfl, rfl⟩ := declares_of_taken taken
  refine ⟨front ++ (property ++ (gap ++ ':' :: value.takeWhile isBlank)), ';' :: rest, ?_, ?_⟩
  · have parted := value.takeWhile_append_dropWhile (p := isBlank)
    simp only [whole, Declares.piece, Declares.read, trimStart, List.append_assoc,
      List.cons_append, List.nil_append]
    rw [← List.append_assoc (value.takeWhile isBlank), parted]
  · simp [Declares.read]

theorem stands_of_mem_namedSegments {names : List String} {separator : Char}
    {context : String → Context} (member : segment ∈ namedSegments names separator context text) :
    Stands text segment.start segment.text := by
  obtain ⟨⟨offset, found⟩, listed, rfl⟩ := List.mem_map.mp member
  have search := Recognizer.findings_findFrom (quotedValue_bounded names separator) 0 none text
  obtain ⟨front, piece, rest, whole, rfl, read⟩ := search.place listed
  obtain ⟨name, _, read⟩ := quotedValue_eq_some read
  obtain ⟨head, quote, rest', parted, lead, _⟩ := namedValue?_eq_some read
  refine ⟨front ++ head, quote :: rest', ?_, ?_⟩
  · rw [whole, parted, List.append_assoc]
  · simp [lead]

theorem stands_of_mem_dictionarySegments {rules : ScanRules}
    (member : segment ∈ dictionarySegments rules text) : Stands text segment.start segment.text := by
  obtain ⟨⟨offset, found⟩, _, member⟩ := List.mem_flatMap.mp member
  simp only at member
  split at member
  · split at member
    · obtain ⟨span, _, made⟩ := List.mem_filterMap.mp member
      obtain ⟨inner, slice, rfl⟩ := Option.map_eq_some_iff.mp made
      exact stands_of_slice? slice
    · cases member
  · cases member

theorem stands_of_mem_segments {rules : ScanRules} {kind : Kind}
    (member : segment ∈ segments rules kind text) : Stands text segment.start segment.text := by
  cases kind with
  | styleModule => exact stands_of_mem_declarationSegments member
  | component =>
    rcases List.mem_append.mp member with member | member
    · rcases List.mem_append.mp member with member | member
      · exact stands_of_mem_namedSegments member
      · exact stands_of_mem_namedSegments member
    · exact stands_of_mem_dictionarySegments member
  | unknown => cases member

theorem declarationSegments_apart (text : List Char) :
    (declarationSegments text).Pairwise fun first second =>
      first.start + byteLength first.text ≤ second.start := by
  have search := Recognizer.findings_findFrom declaration_bounded 0 none text
  have apart := (search.apart (fun found => found.lead + byteLength found.value)
    fun before piece rest found taken => by
      obtain ⟨property, gap, value, _, rfl, rfl⟩ := declares_of_taken taken
      have parted := congrArg byteLength (value.takeWhile_append_dropWhile (p := isBlank))
      simp only [Declares.piece, Declares.read, trimStart, byteLength_append, byteLength_cons,
        byteLength_nil] at parted ⊢
      omega).2
  refine List.pairwise_map.mpr (apart.imp fun ordered => ?_)
  simp only
  omega

end Segments

section RawHits

variable {rules : ScanRules} {kind : Kind} {text : List Char}

theorem foundIn_of_mem_rawHits {hit : Hit} (member : hit ∈ rawHits rules kind text) :
    hit.FoundIn text := by
  obtain ⟨segment, listed, member⟩ := List.mem_flatMap.mp member
  exact Segment.foundIn_of_mem_hits (stands_of_mem_segments listed) member

/-- In a style module the hits come in order and keep apart. -/
theorem rawHits_styleModule_apart (rules : ScanRules) (text : List Char) :
    (rawHits rules .styleModule text).Pairwise fun first second =>
      first.span.stop ≤ second.span.start := by
  refine List.pairwise_flatMap.mpr ⟨fun segment _ => segment.hits_apart _, ?_⟩
  refine (declarationSegments_apart text).imp fun ordered hit member hit' member' => ?_
  have within := (Segment.within_of_mem_hits member).2
  have within' := (Segment.within_of_mem_hits member').1
  omega

end RawHits

end ColorTokens

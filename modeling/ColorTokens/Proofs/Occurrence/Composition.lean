import ColorTokens.Proofs.Occurrence.Scan
import ColorTokens.Proofs.Text.Position

/-! Style modules rule by rule. A semicolon or a brace ends whatever declaration is under way, so
behind one of them a search begins afresh: what is found in the rules of a file is what is found in
each of them, moved to where the rule stands. -/

set_option autoImplicit false

namespace ColorTokens

open ColorTokens.Text
open ColorTokens.Source

/-- A text without a rule that is under way at its end. -/
def EndsRule (text : List Char) : Prop :=
  ∀ c ∈ text.getLast?, c = ';' ∨ c = '{' ∨ c = '}'

namespace Segment

def behind (front : List Char) (segment : Segment) : Segment :=
  { segment with start := byteLength front + segment.start }

end Segment

namespace Hit

def behind (front : List Char) (hit : Hit) : Hit :=
  { hit with span := ⟨byteLength front + hit.span.start, byteLength front + hit.span.stop⟩ }

end Hit

namespace Occurrence

def behind (front : List Char) (occurrence : Occurrence) : Occurrence :=
  { occurrence with
    toHit := occurrence.toHit.behind front
    position := occurrence.position.behind front }

end Occurrence

section Segments

variable {front : List Char}

theorem hits_behind (marker : String) (front : List Char) (segment : Segment) :
    (segment.behind front).hits marker = (segment.hits marker).map (Hit.behind front) := by
  by_cases marked : holds marker.toList segment.text = true
  · simp [Segment.hits, Segment.behind, marked]
  · have marked' : ¬ holds marker.toList (segment.behind front).text = true := marked
    rw [Segment.hits, if_neg marked', Segment.hits, if_neg marked, List.map_filterMap]
    apply List.filterMap_congr
    rintro ⟨offset, written⟩ _
    simp only [Option.map_map]
    congr 1
    funext color
    simp [Segment.behind, Hit.behind, Nat.add_assoc]

/-- Behind a rule that has ended a search for declarations begins afresh. -/
theorem declarationSegments_append (ended : EndsRule front) (back : List Char) :
    declarationSegments (front ++ back) =
      declarationSegments front ++ (declarationSegments back).map (Segment.behind front) := by
  -- No declaration reaches over the last character of the front.
  have stable : ∀ (before : Option Char) (here : List Char), here ≠ [] → here <:+ front →
      declaration before (here ++ back) = declaration before here := by
    rintro before here nonempty ⟨others, rfl⟩
    have last := List.getLast?_eq_some_getLast nonempty
    apply declaration_append last
    rw [isValueChar_eq_false_iff]
    apply ended
    rw [List.getLast?_append_of_ne_nil others nonempty]
    exact last
  have first := Recognizer.findings_findFrom declaration_bounded 0 none front
  have second := Recognizer.findings_findFrom declaration_bounded 0 none back
  have moved := second.shift (fun _ _ _ => rfl) (byteLength front) (front.getLast?.or none)
  rw [Nat.add_comm] at moved
  have both := (first.append stable moved).eq_findFrom
  rw [declarationSegments, Recognizer.findAll, both, List.map_append, List.map_map,
    declarationSegments, declarationSegments, List.map_map]
  congr 2
  funext entry
  simp [Segment.behind, Nat.add_assoc]

theorem rawHits_append (rules : ScanRules) (ended : EndsRule front) (back : List Char) :
    rawHits rules .styleModule (front ++ back) =
      rawHits rules .styleModule front ++ (rawHits rules .styleModule back).map (Hit.behind front) := by
  simp only [rawHits, segments]
  rw [declarationSegments_append ended, List.flatMap_append, List.flatMap_map, List.map_flatMap]
  simp only [hits_behind]

end Segments

section Scan

variable {front : String}

theorem scan_append (rules : ScanRules) (file : String) (ended : EndsRule front.toList)
    (back : String) :
    scan rules file .styleModule (front ++ back) =
      scan rules file .styleModule front ++
        (scan rules file .styleModule back).map (Occurrence.behind front.toList) := by
  simp only [scan, settle_rawHits_styleModule, String.toList_append]
  rw [rawHits_append rules ended, List.map_append, List.map_map, List.map_map]
  congr 1
  · apply List.map_congr_left
    intro hit member
    have stands := (foundIn_of_mem_rawHits member).stands
    rw [Position.ofOffset_ahead stands]
  · apply List.map_congr_left
    intro hit member
    have stands := (foundIn_of_mem_rawHits member).stands
    have moved := Position.ofOffset_behind stands front.toList
    simp only [Function.comp_apply, Occurrence.behind, Hit.behind, moved]

theorem EndsRule.append {first second : List Char} (ended : EndsRule first)
    (ended' : EndsRule second) : EndsRule (first ++ second) := by
  intro c last
  cases shape : second.getLast? with
  | none =>
    rw [List.getLast?_append, shape] at last
    exact ended c last
  | some d =>
    rw [List.getLast?_append, shape] at last
    exact ended' c (shape.trans last)

end Scan

/-- Where a text follows another that ends its last rule, a style module has the occurrences of
both: those of the first as they are, those of the second moved behind it. So a rule between the two
adds its own occurrences and leaves those around it as they are. -/
theorem scan_styleModule_by_rules (rules : ScanRules) (file front back : String)
    (ended : EndsRule front.toList) :
    scan rules file .styleModule (front ++ back) =
      scan rules file .styleModule front ++
        (scan rules file .styleModule back).map (Occurrence.behind front.toList) ∧
    ∀ rule : String, EndsRule rule.toList →
      scan rules file .styleModule (front ++ rule ++ back) =
        scan rules file .styleModule front ++
          (scan rules file .styleModule rule).map (Occurrence.behind front.toList) ++
          (scan rules file .styleModule back).map (Occurrence.behind (front ++ rule).toList) := by
  refine ⟨scan_append rules file ended back, fun rule ended' => ?_⟩
  have both : EndsRule (front ++ rule).toList := by
    rw [String.toList_append]
    exact ended.append ended'
  rw [scan_append rules file both, scan_append rules file ended]

/-- The first text leaves a block open, and the second one goes on in the same line. -/
theorem scan_styleModule_by_rules_open_block :
    EndsRule "/*é*/\na \x7b color: #fff;".toList ∧
    scan .standard "a.css" .styleModule ("/*é*/\na \x7b color: #fff;" ++ " fill: #000; \x7d") =
      [⟨⟨⟨18, 22⟩, "#fff", "#ffffff", .styleDeclaration "color"⟩, "a.css", ⟨2, 12⟩⟩,
        ⟨⟨⟨30, 34⟩, "#000", "#000000", .styleDeclaration "fill"⟩, "a.css", ⟨2, 24⟩⟩] := by
  have ended : EndsRule "/*é*/\na \x7b color: #fff;".toList := by
    intro c last
    exact .inl (by simpa using last.symm)
  refine ⟨ended, ?_⟩
  rw [(scan_styleModule_by_rules .standard "a.css" _ " fill: #000; \x7d" ended).1]
  decide +kernel

end ColorTokens

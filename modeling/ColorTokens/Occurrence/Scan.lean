import ColorTokens.Color.Canonical
import ColorTokens.Occurrence
import ColorTokens.ScanRules
import ColorTokens.Source.Attribute
import ColorTokens.Source.Binding
import ColorTokens.Source.Declaration
import ColorTokens.Source.Kind
import ColorTokens.Source.QuotedText

/-! Scanning one file. Each context yields the text segments it allows literals in; the hits of
all segments are then settled so that no two of them share a byte. -/

set_option autoImplicit false

namespace ColorTokens

open ColorTokens.Text
open ColorTokens.Source

structure Segment where
  /-- The byte offset of its first character. -/
  start : Nat
  text : List Char
  context : Context
  deriving DecidableEq, Repr

/-- The literals of a segment that have a canonical colour. A segment that refers to a token
already has none. -/
def Segment.hits (marker : String) (segment : Segment) : List Hit :=
  if holds marker.toList segment.text then []
  else
    (Recognizer.findAll Color.literal segment.text).filterMap fun (offset, written) =>
      (Color.canonical? written).map fun color =>
        { span := ⟨segment.start + offset, segment.start + offset + byteLength written⟩
          raw := String.ofList written
          color := String.ofList color
          context := segment.context }

def declarationSegments (text : List Char) : List Segment :=
  (Recognizer.findAll declaration text).map fun (offset, found) =>
    ⟨offset + found.lead, found.value, .styleDeclaration (String.ofList found.property)⟩

def namedSegments (names : List String) (separator : Char) (context : String → Context)
    (text : List Char) : List Segment :=
  (Recognizer.findAll (quotedValue names separator) text).map fun (offset, found) =>
    ⟨offset + found.lead, found.value, context found.name⟩

/-- Every quoted text inside the block of a colour-named binding. A block that is never closed has
none. -/
def dictionarySegments (rules : ScanRules) (text : List Char) : List Segment :=
  (Recognizer.findAll binding text).flatMap fun (offset, found) =>
    let name := String.ofList found.name
    let opening := offset + found.lead
    match closingBrace? text opening with
    | some closing =>
      if rules.isDictionaryName name then
        (quotedSpans text (opening + 1) closing).filterMap fun span =>
          (slice? text span.start span.stop).map fun inner =>
            ⟨span.start, inner, .dictionary name⟩
      else
        []
    | none => []

def segments (rules : ScanRules) (kind : Kind) (text : List Char) : List Segment :=
  match kind with
  | .styleModule => declarationSegments text
  | .component =>
    namedSegments rules.markupAttributes '=' .markupAttribute text ++
      namedSegments rules.styleProperties ':' .inlineStyle text ++
      dictionarySegments rules text
  | .unknown => []

def rawHits (rules : ScanRules) (kind : Kind) (text : List Char) : List Hit :=
  (segments rules kind text).flatMap (Segment.hits rules.referenceMarker)

/-- Drops the hits that share a byte with the last one kept. -/
def keepApart : Option Span → List Hit → List Hit
  | _, [] => []
  | kept, hit :: rest =>
    if kept.any (·.intersects hit.span) then keepApart kept rest
    else hit :: keepApart (some hit.span) rest

/-- Hits in span order, the first of those with one span, and none that overlaps an earlier one.
The sort is stable, so of equal spans the one found first comes first. -/
def settle (hits : List Hit) : List Hit :=
  keepApart none (hits.mergeSort fun a b => a.span.le b.span)

def scan (rules : ScanRules) (file : String) (kind : Kind) (text : String) : List Occurrence :=
  (settle (rawHits rules kind text.toList)).map fun hit =>
    { hit with file, position := Position.ofOffset text.toList hit.span.start }

end ColorTokens

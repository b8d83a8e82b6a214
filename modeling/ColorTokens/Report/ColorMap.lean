import ColorTokens.Json
import ColorTokens.Settings
import ColorTokens.Tokenization

/-! The colour map: what a run found and which token every colour is given, for other programs to
read. -/

set_option autoImplicit false

namespace ColorTokens

open ColorTokens.Text

structure MappingRow where
  color : String
  token : String
  origin : Origin
  occurrences : Nat
  deriving DecidableEq, Repr

structure OccurrenceRow where
  file : String
  position : Position
  raw : String
  color : String
  context : Context
  token : String
  origin : Origin
  deriving DecidableEq, Repr

structure ColorMap where
  mode : String
  sourceRoot : String
  suffixes : List String
  /-- In text order. -/
  excluded : List String
  filesScanned : Nat
  matchCount : Nat
  uniqueColors : Nat
  reusedTokens : Nat
  newTokens : Nat
  /-- In the order tokens were given. -/
  mappings : List MappingRow
  /-- By file, line and column. -/
  occurrences : List OccurrenceRow
  deriving DecidableEq, Repr

namespace ColorMap

def tokenOf (assignment : Assignment) (color : String) : String :=
  assignment.tokens.getD color ""

def originOf (assignment : Assignment) (color : String) : Origin :=
  assignment.origins.getD color .generated

def mappingRow (assignment : Assignment) (color : String) : MappingRow where
  color := color
  token := tokenOf assignment color
  origin := originOf assignment color
  occurrences := assignment.frequency.getD color 0

def occurrenceRow (assignment : Assignment) (occurrence : Occurrence) : OccurrenceRow where
  file := occurrence.file
  position := occurrence.position
  raw := occurrence.raw
  color := occurrence.color
  context := occurrence.context
  token := tokenOf assignment occurrence.color
  origin := originOf assignment occurrence.color

def rowLe (a b : OccurrenceRow) : Bool :=
  ((compare a.file b.file).then
    ((compare a.position.line b.position.line).then
      (compare a.position.column b.position.column))).isLE

def textLe (a b : String) : Bool :=
  (compare a b).isLE

def ofOutcome (mode : String) (settings : Settings) (outcome : Outcome) : ColorMap where
  mode := mode
  sourceRoot := settings.sourceRoot
  suffixes := settings.suffixes
  excluded := settings.exclude.mergeSort textLe
  filesScanned := outcome.filesScanned
  matchCount := outcome.occurrences.length
  uniqueColors := outcome.assignment.uniqueCount
  reusedTokens := outcome.assignment.reusedCount
  newTokens := outcome.assignment.generatedCount
  mappings := outcome.assignment.order.map (mappingRow outcome.assignment)
  occurrences :=
    (outcome.occurrences.map (occurrenceRow outcome.assignment)).mergeSort rowLe

def schemaVersion : Nat :=
  1

def metaJson (map : ColorMap) : Json :=
  .object [
    ("schema_version", .number schemaVersion),
    ("mode", .text map.mode),
    ("scope", .object [
      ("root", .text map.sourceRoot),
      ("suffixes", .array (map.suffixes.map .text)),
      ("excluded", .array (map.excluded.map .text))]),
    ("files_scanned", .number map.filesScanned),
    ("matches", .number map.matchCount),
    ("unique_colors", .number map.uniqueColors),
    ("reused_tokens", .number map.reusedTokens),
    ("new_tokens", .number map.newTokens)]

def mappingJson (row : MappingRow) : Json :=
  .object [
    ("normalized", .text row.color),
    ("token", .text row.token),
    ("source", .text row.origin.name),
    ("occurrences", .number row.occurrences)]

def occurrenceJson (row : OccurrenceRow) : Json :=
  .object [
    ("file", .text row.file),
    ("line", .number row.position.line),
    ("column", .number row.position.column),
    ("raw", .text row.raw),
    ("normalized", .text row.color),
    ("context", .text row.context.label),
    ("token", .text row.token),
    ("source", .text row.origin.name)]

def toJson (map : ColorMap) : Json :=
  .object [
    ("meta", map.metaJson),
    ("mappings", .array (map.mappings.map mappingJson)),
    ("occurrences", .array (map.occurrences.map occurrenceJson))]

def render (map : ColorMap) : String :=
  map.toJson.pretty ++ "\n"

end ColorMap

end ColorTokens

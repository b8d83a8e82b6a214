import ColorTokens.Report.ColorMap
import ColorTokens.Text.Lowercase

/-! The report of a run for people to read. -/

set_option autoImplicit false

namespace ColorTokens.Markdown

open ColorTokens.Text

def code (text : String) : String :=
  "`" ++ text ++ "`"

def tableRow (cells : List String) : String :=
  "| " ++ " | ".intercalate cells ++ " |\n"

def referenceTo (assignment : Assignment) (color : String) : String :=
  Naming.reference (ColorMap.tokenOf assignment color)

def originLabel (assignment : Assignment) (color : String) : String :=
  match assignment.origins.get? color with
  | some origin => origin.name
  | none => "unknown"

def summaryLine (label value : String) : String :=
  "- " ++ label ++ ": " ++ code value ++ "\n"

def summary (mode : String) (outcome : Outcome) : String :=
  "## Summary\n" ++
    summaryLine "Mode" mode ++
    summaryLine "Files scanned" (toString outcome.filesScanned) ++
    summaryLine "Files with matches" (toString outcome.filesWithMatches) ++
    summaryLine "Total color matches" (toString outcome.occurrences.length) ++
    summaryLine "Unique normalized colors" (toString outcome.assignment.uniqueCount) ++
    summaryLine "Reused existing tokens" (toString outcome.assignment.reusedCount) ++
    summaryLine "New generated tokens" (toString outcome.assignment.generatedCount)

def topColors (assignment : Assignment) : String :=
  "## Top Colors\n\n" ++
    "| Normalized | Occurrences | Replacement | Source |\n|---|---:|---|---|\n" ++
    String.join (assignment.order.map fun color =>
      tableRow [code color, toString (assignment.frequency.getD color 0),
        code (referenceTo assignment color), originLabel assignment color])

def lowered (text : String) : String :=
  String.ofList (lowercase text.toList)

/-- Literals are ordered by colour, then ignoring case, then by text. -/
def literalLe (a b : String × String) : Bool :=
  ((compare a.2 b.2).then
    ((compare (lowered a.1) (lowered b.1)).then (compare a.1 b.1))).isLE

def literals (occurrences : List Occurrence) : List (String × String) :=
  let colors := occurrences.foldl
    (fun (colors : Std.TreeMap String String) occurrence =>
      colors.insert occurrence.raw occurrence.color) ∅
  colors.toList.mergeSort literalLe

def literalMapping (outcome : Outcome) : String :=
  "## Literal Mapping\n\n" ++
    String.join ((literals outcome.occurrences).map fun (raw, color) =>
      "- " ++ code raw ++ " -> " ++ code (referenceTo outcome.assignment color) ++ "\n")

def loweredLe (a b : String) : Bool :=
  (compare (lowered a) (lowered b)).isLE

/-- The literals that one colour was written as, ignoring case first. -/
def samples (occurrences : List Occurrence) (color : String) : List String :=
  let raws := (occurrences.filter (·.color == color)).map (·.raw)
  (Std.TreeSet.ofList raws).toList.mergeSort loweredLe

def normalizedMapping (outcome : Outcome) : String :=
  "## Normalized Mapping\n\n" ++
    "| Normalized | Raw Samples | Replacement | Source |\n|---|---|---|---|\n" ++
    String.join (outcome.assignment.order.map fun color =>
      tableRow [code color, ", ".intercalate ((samples outcome.occurrences color).map code),
        code (referenceTo outcome.assignment color), originLabel outcome.assignment color])

def render (mode : String) (outcome : Outcome) : String :=
  "# Color Tokenization Report\n\n" ++
    "\n".intercalate [summary mode outcome, topColors outcome.assignment,
      literalMapping outcome, normalizedMapping outcome]

end ColorTokens.Markdown

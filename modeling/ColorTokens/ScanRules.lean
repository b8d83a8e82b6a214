import ColorTokens.Text.Blank
import ColorTokens.Text.Lowercase
import ColorTokens.Text.Quoted
import ColorTokens.Text.Recognizer

/-! What a scan looks for in components, and which values count as tokenized already. -/

set_option autoImplicit false

namespace ColorTokens

open ColorTokens.Text

structure ScanRules where
  /-- Attributes of markup elements whose values are scanned. -/
  markupAttributes : List String
  /-- Properties of inline style objects whose values are scanned. -/
  styleProperties : List String
  /-- Fragments of binding names that mark a dictionary of colours, in any case. -/
  dictionaryKeywords : List String
  /-- A value that holds this text is left alone. -/
  referenceMarker : String
  deriving DecidableEq, Repr

namespace ScanRules

def defaultAttributes : List String :=
  ["fill", "stroke", "stopColor", "color", "backgroundColor", "borderColor", "outlineColor"]

def standard : ScanRules where
  markupAttributes := defaultAttributes
  styleProperties := defaultAttributes ++ ["boxShadow", "textShadow", "filter", "caretColor"]
  dictionaryKeywords := ["color", "colors", "palette", "theme"]
  referenceMarker := "var(--"

inductive Flaw where
  | noMarkupAttributes
  | noStyleProperties
  | noDictionaryKeyword
  | noReferenceMarker
  | badName (name : String)
  deriving DecidableEq, Repr

def Flaw.message : Flaw → String
  | .noMarkupAttributes => "markup_attributes must not be empty"
  | .noStyleProperties => "style_properties must not be empty"
  | .noDictionaryKeyword => "dictionary_keywords must contain a non-empty keyword"
  | .noReferenceMarker => "token_reference_marker must not be empty"
  | .badName name => "invalid attribute or property name: " ++ quoted name

def isRuleNameChar (c : Char) : Bool :=
  c.isAlphanum || c == '-' || c == '_'

def isRuleName (name : String) : Bool :=
  !name.isEmpty && name.toList.all isRuleNameChar

def flaw? (rules : ScanRules) : Option Flaw :=
  if rules.markupAttributes.isEmpty then some .noMarkupAttributes
  else if rules.styleProperties.isEmpty then some .noStyleProperties
  else if rules.dictionaryKeywords.all isBlankText then some .noDictionaryKeyword
  else if isBlankText rules.referenceMarker then some .noReferenceMarker
  else
    ((rules.markupAttributes ++ rules.styleProperties).find? (!isRuleName ·)).map .badName

def isDictionaryName (rules : ScanRules) (name : String) : Bool :=
  let lowered := lowercase name.toList
  rules.dictionaryKeywords.any fun keyword =>
    let wanted := lowercase (trim keyword.toList)
    !wanted.isEmpty && holds wanted lowered

end ScanRules

end ColorTokens

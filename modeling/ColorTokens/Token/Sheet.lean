import Std.Data.TreeMap
import Std.Data.TreeSet
import ColorTokens.Color.Canonical
import ColorTokens.Source.Block
import ColorTokens.Source.Declaration

/-! Token sheets: style sheets whose first root block declares the design tokens. Only that block
is indexed by colour; identifiers are reserved wherever the sheet declares them. -/

set_option autoImplicit false

namespace ColorTokens

open ColorTokens.Text
open ColorTokens.Source

/-- The braces of a block and the text they part. -/
structure RootBlock where
  opening : Nat
  closing : Nat
  /-- The sheet up to the closing brace. -/
  head : List Char
  /-- What stands between the braces. -/
  inner : List Char
  /-- The sheet from the closing brace on. -/
  tail : List Char
  deriving DecidableEq, Repr

def rootSelector : Recognizer Unit := fun _ text =>
  if ":root".toList.isPrefixOf text && !isWordAt (text.drop 5).head? then some (5, ()) else none

/-- The first brace block behind the first root selector. -/
def rootBlock? (sheet : List Char) : Option RootBlock := do
  let (selector, _) ← rootSelector.first? sheet
  let (_, behind) ← cut? (selector + 5) sheet
  -- Anything may stand between the selector and the brace.
  let opening := selector + 5 + byteLength (behind.takeWhile (· != '{'))
  let closing ← closingBrace? sheet opening
  let (head, tail) ← cut? closing sheet
  let (_, inner) ← cut? (opening + 1) head
  return ⟨opening, closing, head, inner, tail⟩

structure TokenDeclaration where
  identifier : String
  value : String
  deriving DecidableEq, Repr

/-- The custom property that begins a text: two dashes and at least one more character. -/
def customProperty? (text : List Char) : Option (List Char) :=
  let property := text.takeWhile isPropertyChar
  if "--".toList.isPrefixOf property && 2 < property.length then some property else none

/-- A custom property with its value. A closing brace or the end of the text ends a value as well
as a semicolon does. -/
def tokenDeclaration : Recognizer TokenDeclaration := fun _ text => do
  let property ← customProperty? text
  let (colon, body) ← afterColon? (text.drop property.length)
  let value := body.takeWhile isValueChar
  guard !value.isEmpty
  let behind := (body.dropWhile isValueChar).head?
  -- What an opening brace follows is a selector.
  guard (behind != some '{')
  return (property.length + colon + value.length + behind.toList.length,
    ⟨String.ofList property, String.ofList (trim value)⟩)

def declaredProperty : Recognizer String := fun _ text => do
  let property ← customProperty? text
  let (colon, _) ← afterColon? (text.drop property.length)
  return (property.length + colon, String.ofList property)

def rootTokens (sheet : List Char) : List TokenDeclaration :=
  match rootBlock? sheet with
  | some block => (tokenDeclaration.findAll block.inner).map Prod.snd
  | none => []

/-- Every identifier that the sheet declares, in any block. -/
def declaredIdentifiers (sheet : List Char) : Std.TreeSet String :=
  Std.TreeSet.ofList ((declaredProperty.findAll sheet).map Prod.snd)

/-- Identifiers by canonical colour. -/
abbrev ColorIndex := Std.TreeMap String String

namespace ColorIndex

/-- Of several identifiers for one colour the first is kept. -/
def ofPairs (pairs : List (String × String)) : ColorIndex :=
  pairs.foldl (fun index pair => index.insertIfNew pair.1 pair.2) ∅

/-- The colour that a declaration gives its identifier. A value that refers to another token, or
is more than one literal, gives none. -/
def colorOf? (declaration : TokenDeclaration) : Option String :=
  if holds "var(--".toList declaration.value.toList then none
  else Color.normalizeValue? declaration.value

def ofSheet (sheet : List Char) : ColorIndex :=
  ofPairs ((rootTokens sheet).filterMap fun declaration =>
    (colorOf? declaration).map fun color => (color, declaration.identifier))

end ColorIndex

structure TokenSheet where
  index : ColorIndex
  /-- Identifiers that may not be minted. -/
  reserved : Std.TreeSet String

def TokenSheet.ofText (sheet : String) : TokenSheet :=
  let index := ColorIndex.ofSheet sheet.toList
  { index, reserved := (declaredIdentifiers sheet.toList).insertMany index.values }

end ColorTokens

import ColorTokens.Text.Blank
import ColorTokens.Text.Bytes
import ColorTokens.Text.Recognizer
import ColorTokens.Text.Word

/-! Object bindings in a component: a binding keyword, a name, and an opening brace behind the
first equals sign. A semicolon before that sign ends the binding. -/

set_option autoImplicit false

namespace ColorTokens.Source

open ColorTokens.Text

structure Binding where
  name : List Char
  /-- Bytes from the keyword to the opening brace. -/
  lead : Nat
  deriving DecidableEq, Repr

def bindingKeywords : List (List Char) :=
  ["const".toList, "let".toList, "var".toList]

def isNameStart (c : Char) : Bool :=
  c.isAlpha || c == '_'

def isNameChar (c : Char) : Bool :=
  c.isAlphanum || c == '_'

def isBeforeEquals (c : Char) : Bool :=
  c != '=' && c != ';'

/-- A binding behind a given keyword. The name ends at a word boundary. -/
def keywordBinding? (text keyword : List Char) : Option (Nat × Binding) := do
  guard (keyword.isPrefixOf text)
  let behind := text.drop keyword.length
  let gap := behind.takeWhile isBlank
  guard !gap.isEmpty
  let fromName := behind.dropWhile isBlank
  guard (fromName.head?.any isNameStart)
  let name := fromName.takeWhile isNameChar
  let afterName := fromName.dropWhile isNameChar
  guard !isWordAt afterName.head?
  let middle := afterName.takeWhile isBeforeEquals
  let fromEquals := afterName.dropWhile isBeforeEquals
  guard (fromEquals.head? == some '=')
  let space := (fromEquals.drop 1).takeWhile isBlank
  guard (((fromEquals.drop 1).dropWhile isBlank).head? == some '{')
  let lead := keyword.length + gap.length + name.length + middle.length + 1 + space.length
  return (lead + 1, ⟨name, byteLength (text.take lead)⟩)

def binding : Recognizer Binding := fun before text =>
  if isWordAt before then none else bindingKeywords.findSome? (keywordBinding? text)

end ColorTokens.Source

import ColorTokens.Text.Blank
import ColorTokens.Text.Bytes
import ColorTokens.Text.Recognizer
import ColorTokens.Text.Word

/-! Quoted values of named attributes and properties in a component: a listed name at a word
boundary, a separator, and a quoted text that holds no quote of either kind. -/

set_option autoImplicit false

namespace ColorTokens.Source

open ColorTokens.Text

structure QuotedValue where
  name : String
  /-- Bytes from the start of the name to the start of the value. -/
  lead : Nat
  value : List Char
  deriving DecidableEq, Repr

def isPlainQuote (c : Char) : Bool :=
  c == '"' || c == '\''

/-- A text between two equal quotes, without either kind of quote in it. -/
def quotedText? : List Char → Option (List Char)
  | quote :: rest =>
    if isPlainQuote quote && (rest.dropWhile (!isPlainQuote ·)).head? == some quote then
      some (rest.takeWhile (!isPlainQuote ·))
    else
      none
  | [] => none

def namedValue? (separator : Char) (text : List Char) (name : String) :
    Option (Nat × QuotedValue) := do
  guard (name.toList.isPrefixOf text)
  let behind := text.drop name.toList.length
  let gap := behind.takeWhile isBlank
  guard ((behind.dropWhile isBlank).head? == some separator)
  let rest := (behind.dropWhile isBlank).drop 1
  let space := rest.takeWhile isBlank
  let value ← quotedText? (rest.dropWhile isBlank)
  let lead := name.toList.length + gap.length + 1 + space.length + 1
  return (lead + value.length + 1, ⟨name, byteLength (text.take lead), value⟩)

def quotedValue (names : List String) (separator : Char) : Recognizer QuotedValue :=
  fun before text =>
    if isWordAt before == isWordAt text.head? then none
    else names.findSome? (namedValue? separator text)

end ColorTokens.Source

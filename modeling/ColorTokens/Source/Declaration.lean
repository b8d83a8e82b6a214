import ColorTokens.Text.Blank
import ColorTokens.Text.Bytes
import ColorTokens.Text.Recognizer

/-! Declarations of a style sheet: a property, a colon and a value that a semicolon ends. A value
holds no semicolon and no brace. -/

set_option autoImplicit false

namespace ColorTokens.Source

open ColorTokens.Text

def isPropertyChar (c : Char) : Bool :=
  c.isAlphanum || c == '-'

def isValueChar (c : Char) : Bool :=
  c != ';' && c != '{' && c != '}'

structure Declaration where
  property : List Char
  /-- Bytes from the start of the property to the start of the value. -/
  lead : Nat
  value : List Char
  deriving DecidableEq, Repr

/-- What stands behind a colon that only blanks keep from the start of a text, and how many
characters come before it. -/
def afterColon? (text : List Char) : Option (Nat × List Char) :=
  match text.dropWhile isBlank with
  | ':' :: body => some ((text.takeWhile isBlank).length + 1, body)
  | _ => none

/-- A property with its value. The value may not be empty, but it may be blank; blanks before it
are no part of it. -/
def declaration : Recognizer Declaration := fun _ text => do
  let property := text.takeWhile isPropertyChar
  guard !property.isEmpty
  let (colon, body) ← afterColon? (text.dropWhile isPropertyChar)
  let value := body.takeWhile isValueChar
  guard (!value.isEmpty && (body.dropWhile isValueChar).head? == some ';')
  let head := text.take (property.length + colon) ++ value.takeWhile isBlank
  return (property.length + colon + value.length + 1,
    ⟨property, byteLength head, trimStart value⟩)

end ColorTokens.Source

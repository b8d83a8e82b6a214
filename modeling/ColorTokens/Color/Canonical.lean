import ColorTokens.Color.Literal
import ColorTokens.Text.Blank
import ColorTokens.Text.Lowercase

/-! Canonical colours. A short hexadecimal literal is doubled to its long form, white and black
become hexadecimal, and functional notation keeps its arguments with one way of spacing them.
Channel values are never evaluated. -/

set_option autoImplicit false

namespace ColorTokens.Color

open ColorTokens.Text

/-- The parts of an argument text; blanks only tell words apart. -/
inductive Argument where
  | comma
  | slash
  | word (text : List Char)
  deriving DecidableEq, Repr

def isArgumentChar (c : Char) : Bool :=
  !isBlank c && c != ',' && c != '/'

namespace Argument

def ofText : List Char → List Argument
  | [] => []
  | c :: rest =>
    if c == ',' then .comma :: ofText rest
    else if c == '/' then .slash :: ofText rest
    else if isBlank c then ofText rest
    else
      match ofText rest, rest.head?.any isArgumentChar with
      | .word text :: more, true => .word (c :: text) :: more
      | arguments, _ => .word [c] :: arguments

/-- Words are set apart by a space, a comma is followed by one, a slash stands between two. A
slash brings its own space, so a comma right before it adds none. -/
def render : List Argument → List Char
  | [] => []
  | .slash :: rest => [' ', '/', ' '] ++ render rest
  | .comma :: rest =>
    (match rest with
      | .slash :: _ => [',']
      | _ => [',', ' ']) ++ render rest
  | .word text :: rest =>
    (match rest with
      | .word _ :: _ => text ++ [' ']
      | _ => text) ++ render rest

end Argument

def canonicalHex? (digits : List Char) : Option (List Char) :=
  if digits.all isHexDigit then
    match digits.length with
    | 3 | 4 => some ('#' :: digits.flatMap fun digit => [digit, digit])
    | 6 | 8 => some ('#' :: digits)
    | _ => none
  else
    none

def canonicalFunction? (text : List Char) : Option (List Char) :=
  let name := text.takeWhile (!isParenthesis ·)
  match text.dropWhile (!isParenthesis ·) with
  | '(' :: rest =>
    let inner := rest.takeWhile (!isParenthesis ·)
    if functionNames.contains name && rest.dropWhile (!isParenthesis ·) == [')'] then
      some (name ++ '(' :: Argument.render (Argument.ofText inner) ++ [')'])
    else
      none
  | _ => none

/-- The canonical form of a lower-case text without blanks around it. -/
def canonicalLower? (text : List Char) : Option (List Char) :=
  if text == "white".toList then some "#ffffff".toList
  else if text == "black".toList then some "#000000".toList
  else
    match text with
    | '#' :: digits => canonicalHex? digits
    | _ => canonicalFunction? text

def canonical? (text : List Char) : Option (List Char) :=
  canonicalLower? (lowercase (trim text))

/-- The canonical form of a text that is exactly one colour literal. -/
def canonicalValue? (text : List Char) : Option (List Char) :=
  let value := trim text
  if literalAt? none value == some value then canonical? text else none

def normalize? (raw : String) : Option String :=
  (canonical? raw.toList).map String.ofList

def normalizeValue? (value : String) : Option String :=
  (canonicalValue? value.toList).map String.ofList

end ColorTokens.Color

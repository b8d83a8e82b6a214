import ColorTokens.Text.Recognizer
import ColorTokens.Text.Word

/-! Colour literals as they stand in source text: hexadecimal with three, four, six or eight
digits, functional notation, and the two names white and black. Letter case does not matter, and
two letters have a second spelling of their own: the Kelvin sign for k, the long s for s. -/

set_option autoImplicit false

namespace ColorTokens.Color

open ColorTokens.Text

def isHexDigit (c : Char) : Bool :=
  c.isDigit || ('a' ≤ c && c ≤ 'f') || ('A' ≤ c && c ≤ 'F')

def spellsLetter (letter c : Char) : Bool :=
  c == letter || c == letter.toUpper ||
    (letter == 'k' && c == '\u212a') || (letter == 's' && c == '\u017f')

def spells : List Char → List Char → Bool
  | [], [] => true
  | letter :: word, c :: text => spellsLetter letter c && spells word text
  | _, _ => false

def digitCounts : List Nat :=
  [3, 4, 6, 8]

/-- A number sign and the whole word behind it, if that word is digits of a valid count. -/
def hexLiteral? : List Char → Option (List Char)
  | '#' :: rest =>
    let digits := rest.takeWhile isWord
    if digits.all isHexDigit && digitCounts.contains digits.length then
      some ('#' :: digits)
    else
      none
  | _ => none

def functionNames : List (List Char) :=
  ["rgba".toList, "rgb".toList, "hsla".toList, "hsl".toList]

def isParenthesis (c : Char) : Bool :=
  c == '(' || c == ')'

/-- A function name and its arguments, which hold no parentheses. -/
def functionLiteral? (text : List Char) : Option (List Char) :=
  functionNames.findSome? fun name =>
    let written := text.take name.length
    match text.drop name.length with
    | '(' :: rest =>
      if spells name written && (rest.dropWhile (!isParenthesis ·)).head? == some ')' then
        some (written ++ '(' :: rest.takeWhile (!isParenthesis ·) ++ [')'])
      else
        none
    | _ => none

def colorNames : List (List Char) :=
  ["white".toList, "black".toList]

def namedLiteral? (text : List Char) : Option (List Char) :=
  colorNames.findSome? fun name =>
    let written := text.take name.length
    if spells name written && !isWordAt (text.drop name.length).head? then
      some written
    else
      none

/-- The literal at the start of a text. Only a hexadecimal literal may follow a word character. -/
def literalAt? (before : Option Char) (text : List Char) : Option (List Char) :=
  hexLiteral? text <|>
    if isWordAt before then none else functionLiteral? text <|> namedLiteral? text

def literal : Recognizer (List Char) := fun before text =>
  (literalAt? before text).map fun written => (written.length, written)

end ColorTokens.Color
